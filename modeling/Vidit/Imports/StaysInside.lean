import Vidit.Imports.ArchiveZip

/-!
Contract: an extraction writes inside its directory and under its caps, also when it raises.

Owns:
- that a part of a name has no separator in it, and that the name of a path is none of `.` and the
  empty one;
- what one member can change (`Touched`), and what the whole plan can (`Inside`).

Proof shape: the loop over the chunks keeps `Touched` with the bytes counted so far; a member is one
touch, at a place that is allowed because a path that ends with `..` cannot be opened.
-/

namespace Vidit.Imports

open Vidit.Python Vidit.Library
open Vidit.Maps (Bytes)

variable {host : Host} {start state : Extraction} {target dest : Place Str} {spent total : Nat}

/-! ### Names -/

/-- A name that stands for itself in a directory. -/
structure IsFileName (name : Str) : Prop where
  some : name ≠ []
  single : chr '/' ∉ name
  notHere : name ≠ str "."
  notUp : name ≠ str ".."

theorem pathName_isFileName {name : Str} (some : pathName name ≠ [])
    (notUp : pathName name ≠ str "..") : IsFileName (pathName name) := by
  unfold pathName at *
  cases last : ((split name (chr '/')).filter fun part => part ≠ [] ∧ part ≠ str ".").getLast? with
  | none =>
      rw [last] at some
      exact absurd rfl some
  | some base =>
      rw [last] at some notUp
      rw [Option.getD_some] at *
      have member := List.mem_of_getLast? last
      rw [List.mem_filter, decide_eq_true_eq] at member
      exact ⟨some, notMem_of_mem_split member.1, member.2.2, notUp⟩

/-! ### One member -/

/-- What copying a member to a place changed, and how many bytes it wrote at most. -/
structure Touched (start : Extraction) (target : Place Str) (spent : Nat) (state : Extraction) :
    Prop where
  dirs : state.disk.isDir = start.disk.isDir
  others : ∀ place, place ≠ target → state.disk.file place = start.disk.file place
  capped : state.disk.file target = start.disk.file target ∨
    ∀ content, state.disk.file target = some content → content.length ≤ maxFileUncompressedBytes
  budget : state.written ≤ start.written + spent

theorem Touched.refl : Touched start target 0 start where
  dirs := rfl
  others _ _ := rfl
  capped := .inl rfl
  budget := le_rfl

/-- A member that was being copied, with the bytes read so far. -/
structure Copying (start : Extraction) (target : Place Str) (total written : Nat)
    (state : Extraction) : Prop where
  dirs : state.disk.isDir = start.disk.isDir
  others : ∀ place, place ≠ target → state.disk.file place = start.disk.file place
  content : ∀ content, state.disk.file target = some content → content.length ≤ written
  capped : written ≤ maxFileUncompressedBytes
  budget : state.written ≤ start.written + written
  room : total + written ≤ maxTotalUncompressedBytes

theorem Copying.touched {written : Nat} (copying : Copying start target total written state) :
    Touched start target written state where
  dirs := copying.dirs
  others := copying.others
  capped := .inr fun content held => (copying.content content held).trans copying.capped
  budget := copying.budget

/-- A member ends with what it touched, and what it counts stays within the total cap. -/
def Ends (start : Extraction) (target : Place Str) (total : Nat) (spent : Nat)
    (state : Extraction) : Prop :=
  Touched start target spent state ∧ total + spent ≤ maxTotalUncompressedBytes

theorem write_apply (host : Host) (target : Place Str) (chunk : Bytes) (state : Extraction) :
    write host target chunk state =
      (if host.room state.written < chunk.length then .error .other else .ok (),
        ⟨state.disk.append target (chunk.take (host.room state.written)),
          state.written + (chunk.take (host.room state.written)).length⟩) := by
  unfold write
  simp only [Attempt.bind_apply, Attempt.ask_apply, Attempt.modify_apply]
  split <;> rfl

theorem Copying.write {written : Nat} {chunk : Bytes} (host : Host) (free : start.disk.isDir target = false)
    (copying : Copying start target total written state)
    (capped : written + chunk.length ≤ maxFileUncompressedBytes)
    (room : total + (written + chunk.length) ≤ maxTotalUncompressedBytes) :
    Copying start target total (written + chunk.length) (write host target chunk state).2 := by
  rw [write_apply]
  have part : (chunk.take (host.room state.written)).length ≤ chunk.length :=
    List.length_take_le' _ _
  generalize chunk.take (host.room state.written) = taken at part
  have here : state.disk.isDir target = false := by
    rw [copying.dirs]
    exact free
  constructor
  · show (state.disk.append target taken).isDir = _
    rw [Disk.append_isDir]
    exact copying.dirs
  · intro place different
    show (state.disk.append target taken).file place = _
    rw [Disk.append_file here, Function.update_of_ne different]
    exact copying.others place different
  · intro content held
    have stored : (state.disk.append target taken).file target = some content := held
    rw [Disk.append_file here, Function.update_self, Option.some.injEq] at stored
    rw [← stored, List.length_append]
    cases old : state.disk.file target with
    | none =>
        rw [Option.getD_none, List.length_nil]
        omega
    | some before =>
        have short := copying.content before old
        rw [Option.getD_some]
        omega
  · exact capped
  · have budget := copying.budget
    show state.written + taken.length ≤ _
    omega
  · exact room

theorem Copying.unlink {written : Nat} (free : start.disk.isDir target = false)
    (copying : Copying start target total written state) {read : Nat} (more : written ≤ read) :
    Touched start target read { state with disk := state.disk.unlink target } := by
  have here : state.disk.isDir target = false := by
    rw [copying.dirs]
    exact free
  have file : (state.disk.unlink target).file = Function.update state.disk.file target none :=
    Disk.unlink_file here
  constructor
  · exact Disk.unlink_isDir.trans copying.dirs
  · intro place different
    show (state.disk.unlink target).file place = _
    rw [file, Function.update_of_ne different]
    exact copying.others place different
  · right
    intro content held
    have absurdity : (state.disk.unlink target).file target = some content := held
    rw [file, Function.update_self] at absurdity
    cases absurdity
  · have budget := copying.budget
    show state.written ≤ _
    omega

/-- However the reads of a member end. -/
theorem copyChunks_ends {skipOversized breaks : Bool} {chunks : List Bytes} {written : Nat}
    (free : start.disk.isDir target = false) :
    Attempt.Meets (Copying start target total written)
      (copyChunks host target total skipOversized breaks written chunks)
      (fun read state => Ends start target total read state)
      (fun _ state => ∃ spent, Ends start target total spent state) := by
  induction chunks generalizing written with
  | nil =>
      intro state copying
      unfold copyChunks
      have ends : Ends start target total written state := ⟨copying.touched, copying.room⟩
      cases breaks with
      | true => exact ⟨written, ends⟩
      | false => exact ends
  | cons chunk rest inductionHypothesis =>
      intro state copying
      unfold copyChunks
      have ends : Ends start target total written state := ⟨copying.touched, copying.room⟩
      by_cases overTotal : maxTotalUncompressedBytes < total + (written + chunk.length)
      · rw [if_pos overTotal]
        exact ⟨written, ends⟩
      · rw [if_neg overTotal]
        by_cases overFile : maxFileUncompressedBytes < written + chunk.length
        · rw [if_pos overFile]
          cases skipOversized with
          | true =>
              have unlinked : Touched start target (written + chunk.length)
                  { state with disk := state.disk.unlink target } :=
                copying.unlink free (Nat.le_add_right _ _)
              exact ⟨unlinked, not_lt.mp overTotal⟩
          | false => exact ⟨written, ends⟩
        · rw [if_neg overFile]
          have wrote := copying.write host free (not_lt.mp overFile) (not_lt.mp overTotal)
          rw [Attempt.bind_apply]
          cases wrote' : write host target chunk state with
          | mk result next =>
              rw [wrote'] at wrote
              cases result with
              | error failure => exact ⟨_, wrote.touched, wrote.room⟩
              | ok done => exact inductionHypothesis next wrote

/-! ### Where a member may go -/

/-- A file directly in `tweets_media`. -/
def IsMedia (dest place : Place Str) : Prop :=
  ∃ name, IsFileName name ∧ place = dest ++ [mediaDirName, name]

/-- `tweets.js`, or a file directly in `tweets_media`. -/
def Allowed (dest place : Place Str) : Prop :=
  place = dest ++ [tweetsFile] ∨ IsMedia dest place

/-- A path leads to an allowed place, or cannot be opened. -/
def Target (allowed : Place Str → Prop) (path : List (Hop Str)) : Prop :=
  allowed (follow [] path) ∨ ∃ above, path = above ++ [.up]

theorem copyPlan_eq (names : List Str) (tweetsMember : Str) (dest : List (Hop Str)) :
    ∃ media, copyPlan names tweetsMember dest =
        ⟨tweetsMember, dest ++ [.into tweetsFile], false⟩ :: media ∧
      ∀ copy ∈ media, Target (IsMedia (follow [] dest)) copy.target := by
  refine ⟨_, rfl, ?_⟩
  intro copy member
  rw [List.mem_filterMap] at member
  obtain ⟨name, _, planned⟩ := member
  split at planned
  · rename_i kept
    cases planned
    show Target _ (dest ++ [.into mediaDirName, hopOf (pathName name)])
    have path : dest ++ [.into mediaDirName, hopOf (pathName name)] =
        (dest ++ [.into mediaDirName]) ++ [hopOf (pathName name)] := by simp
    by_cases up : pathName name = str ".."
    · right
      refine ⟨dest ++ [.into mediaDirName], ?_⟩
      rw [path]
      unfold hopOf
      rw [if_pos up]
    · left
      refine ⟨pathName name, pathName_isFileName kept.2 up, ?_⟩
      unfold hopOf at path ⊢
      rw [if_neg up] at path ⊢
      rw [path, follow_concat_into, follow_concat_into, List.append_assoc]
      rfl
  · cases planned

/-! ### The plan -/

/-- What an extraction into `dest` changed so far, where it writes to allowed places. -/
structure Inside (start : Extraction) (dest : List (Hop Str)) (allowed : Place Str → Prop)
    (total : Nat) (state : Extraction) : Prop where
  /-- Only the directory of the media and those it is in were made. -/
  dirs : ∀ place, state.disk.isDir place = true → start.disk.isDir place = true ∨
    ∃ first rest, dest ++ [.into mediaDirName] = first ++ rest ∧ place = follow [] first
  outside : ∀ place, ¬ allowed place → state.disk.file place = start.disk.file place
  capped : ∀ place, state.disk.file place = start.disk.file place ∨
    ∀ content, state.disk.file place = some content → content.length ≤ maxFileUncompressedBytes
  /-- The bytes written to any file, those of files removed or written anew included. -/
  budget : state.written ≤ start.written + total
  room : total ≤ maxTotalUncompressedBytes

theorem Inside.refl (start : Extraction) (dest : List (Hop Str)) (allowed : Place Str → Prop) :
    Inside start dest allowed 0 start where
  dirs _ directory := .inl directory
  outside _ _ := rfl
  capped _ := .inl rfl
  budget := le_rfl
  room := Nat.zero_le _

variable {dest : List (Hop Str)} {allowed : Place Str → Prop} {infolist : List ZipInfo}

theorem Inside.makeDirs (inside : Inside start dest allowed total start) :
    Inside start dest allowed total (Imports.makeDirs (dest ++ [.into mediaDirName]) start).2 := by
  unfold Imports.makeDirs
  cases making : start.disk.makeDirs [] start.disk.root (dest ++ [.into mediaDirName]) with
  | error failure => exact inside
  | ok made =>
      have file := Disk.makeDirs_file making
      constructor
      · intro place directory
        exact Disk.makeDirs_isDir making directory
      · intro place _
        exact congrFun file place
      · intro place
        exact .inl (congrFun file place)
      · exact inside.budget
      · exact inside.room

theorem Inside.touch {middle : Extraction} {place : Place Str}
    (inside : Inside start dest allowed total middle) (goes : allowed place)
    (ends : Ends middle place total spent state) : Inside start dest allowed (total + spent) state := by
  obtain ⟨touched, room⟩ := ends
  constructor
  · intro other directory
    rw [touched.dirs] at directory
    exact inside.dirs other directory
  · intro other forbidden
    have different : other ≠ place := fun same => forbidden (same ▸ goes)
    rw [touched.others other different]
    exact inside.outside other forbidden
  · intro other
    by_cases here : other = place
    · rw [here]
      obtain same | capped := touched.capped
      · rw [same]
        exact inside.capped place
      · exact .inr capped
    · rw [touched.others other here]
      exact inside.capped other
  · have before := inside.budget
    have after := touched.budget
    omega
  · exact room

/-- Where the target of a member can be opened, it is allowed. -/
theorem openTarget_meets {middle : Extraction} {path : List (Hop Str)} (goes : Target allowed path)
    (inside : Inside start dest allowed total middle) :
    Attempt.Meets (fun state => state = middle) (openTarget host path)
      (fun place state => (middle.disk.isDir place = false ∧ allowed place) ∧
        Copying middle place total 0 state)
      (fun _ state => state = middle) := by
  intro state same
  subst same
  unfold openTarget
  by_cases opens : host.opens path = true
  · rw [if_pos opens]
    cases opening : state.disk.openWrite path with
    | error failure => rfl
    | ok opened =>
        obtain ⟨place, disk⟩ := opened
        obtain ⟨here, dirs, file, free⟩ := Disk.openWrite_ok opening
        obtain goes | ⟨above, up⟩ := goes
        · rw [← here] at goes
          refine ⟨⟨free, goes⟩, dirs, ?_, ?_, Nat.zero_le _, le_rfl, inside.room⟩
          · intro other different
            show disk.file other = _
            rw [file, Function.update_of_ne different]
          · intro content held
            have stored : disk.file place = some content := held
            rw [file, Function.update_self, Option.some.injEq] at stored
            rw [← stored]
            exact le_rfl
        · rw [up] at opening
          exact absurd ⟨place, disk, opening⟩ Disk.openWrite_up
  · rw [if_neg opens]

/-- A member that is copied, skipped or refused. -/
theorem extractMember_inside {name : Str} {path : List (Hop Str)} {skipOversized : Bool}
    (goes : Target allowed path) :
    Attempt.Meets (Inside start dest allowed total)
      (extractMember host infolist name path total skipOversized)
      (fun read state => Inside start dest allowed (total + read) state)
      (fun _ state => ∃ spent, Inside start dest allowed spent state) := by
  intro middle inside
  unfold extractMember
  cases infolist.reverse.find? fun info => info.filename = name with
  | none => exact ⟨total, inside⟩
  | some info =>
      simp only
      by_cases large : maxFileUncompressedBytes < info.fileSize
      · rw [if_pos large]
        cases skipOversized with
        | true => exact inside
        | false => exact ⟨total, inside⟩
      · rw [if_neg large]
        cases info.opened with
        | none => exact ⟨total, inside⟩
        | some stream =>
            have copies : ∀ place, Attempt.Meets
                (fun state => (middle.disk.isDir place = false ∧ allowed place) ∧
                  Copying middle place total 0 state)
                (copyChunks host place total skipOversized stream.breaks 0 stream.chunks)
                (fun read state => Inside start dest allowed (total + read) state)
                (fun _ state => ∃ spent, Inside start dest allowed spent state) := by
              intro place
              apply Attempt.Meets.assuming
              intro opened
              apply (copyChunks_ends opened.1).weaken
              · exact fun _ copying => copying
              · exact fun read state ends => inside.touch opened.2 ends
              · intro _ state ended
                obtain ⟨spent, ends⟩ := ended
                exact ⟨_, inside.touch opened.2 ends⟩
            have opens : Attempt.Meets (fun state => state = middle) (openTarget host path) _
                (fun _ state => ∃ spent, Inside start dest allowed spent state) :=
              (openTarget_meets goes inside).weaken (fun _ same => same) (fun _ _ met => met)
                fun _ state same => ⟨total, same ▸ inside⟩
            exact opens.bind copies middle rfl

theorem extractAll_inside (host : Host) (infolist : List ZipInfo) {plan : List Copy} (goes : ∀ copy ∈ plan, Target allowed copy.target) :
    Attempt.Meets (Inside start dest allowed total) (extractAll host infolist total plan)
      (fun _ state => ∃ spent, Inside start dest allowed spent state)
      (fun _ state => ∃ spent, Inside start dest allowed spent state) := by
  induction plan generalizing total with
  | nil =>
      intro state inside
      exact ⟨total, inside⟩
  | cons copy rest inductionHypothesis =>
      apply (extractMember_inside (goes copy List.mem_cons_self)).bind
      intro read
      exact inductionHypothesis fun other inRest => goes other (List.mem_cons_of_mem _ inRest)

/-! ### The posts -/

/-- A file is open, or was written. -/
def Holds (target : Place Str) (state : Extraction) : Prop :=
  state.disk.isDir target = false ∧ (state.disk.file target).isSome = true

theorem Holds.write {chunk : Bytes} (holds : Holds target state) :
    Holds target (write host target chunk state).2 := by
  rw [write_apply]
  constructor
  · show (state.disk.append target _).isDir target = false
    rw [Disk.append_isDir]
    exact holds.1
  · show ((state.disk.append target _).file target).isSome = true
    rw [Disk.append_file holds.1, Function.update_self]
    rfl

/-- A member that may not be skipped is a file once it is copied. -/
theorem copyChunks_holds {breaks : Bool} {chunks : List Bytes} {written : Nat} :
    Attempt.Meets (Holds target) (copyChunks host target total false breaks written chunks)
      (fun _ => Holds target) (fun _ _ => True) := by
  induction chunks generalizing written with
  | nil =>
      intro state holds
      unfold copyChunks
      cases breaks with
      | true => trivial
      | false => exact holds
  | cons chunk rest inductionHypothesis =>
      intro state holds
      unfold copyChunks
      by_cases overTotal : maxTotalUncompressedBytes < total + (written + chunk.length)
      · rw [if_pos overTotal]
        trivial
      · rw [if_neg overTotal]
        by_cases overFile : maxFileUncompressedBytes < written + chunk.length
        · rw [if_pos overFile]
          trivial
        · rw [if_neg overFile, Attempt.bind_apply]
          have wrote : Holds target (write host target chunk state).2 := holds.write
          cases ran : write host target chunk state with
          | mk result next =>
              rw [ran] at wrote
              cases result with
              | error failure => trivial
              | ok done => exact inductionHypothesis next wrote

theorem extractMember_holds {name : Str} {path : List (Hop Str)} :
    Attempt.Meets (fun _ => True) (extractMember host infolist name path total false)
      (fun _ => Holds (follow [] path)) (fun _ _ => True) := by
  intro state _
  unfold extractMember
  cases infolist.reverse.find? fun info => info.filename = name with
  | none => trivial
  | some info =>
    simp only
    by_cases large : maxFileUncompressedBytes < info.fileSize
    · rw [if_pos large]
      trivial
    · rw [if_neg large]
      cases info.opened with
      | none => trivial
      | some stream =>
        have opens : Attempt.Meets (fun _ => True) (openTarget host path)
            (fun place state => place = follow [] path ∧ Holds (follow [] path) state)
            (fun _ _ => True) := by
          intro state _
          unfold openTarget
          by_cases opens : host.opens path = true
          · rw [if_pos opens]
            cases opening : state.disk.openWrite path with
            | error failure => trivial
            | ok opened =>
                obtain ⟨place, disk⟩ := opened
                obtain ⟨here, dirs, file, free⟩ := Disk.openWrite_ok opening
                refine ⟨here, ?_, ?_⟩
                · show disk.isDir _ = false
                  rw [dirs, ← here]
                  exact free
                · show (disk.file _).isSome = true
                  rw [file, ← here, Function.update_self]
                  rfl
          · rw [if_neg opens]
            trivial
        have copies : ∀ place, Attempt.Meets
            (fun state => place = follow [] path ∧ Holds (follow [] path) state)
            (copyChunks host place total false stream.breaks 0 stream.chunks)
            (fun _ => Holds (follow [] path)) (fun _ _ => True) := by
          intro place
          apply Attempt.Meets.assuming
          intro here
          rw [here]
          exact copyChunks_holds
        exact opens.bind copies state trivial

/-! ### The law -/

/-- What an extraction leaves, whether it returns or raises: files only in the allowed places, no
file over its cap and no more bytes written than the total one; where it returns, with a
`tweets.js`. -/
structure StaysInside (start : Extraction) (dest : List (Hop Str)) (result : Except ExtractError Unit)
    (state : Extraction) : Prop where
  inside : ∃ total, Inside start dest (Allowed (follow [] dest)) total state
  posts : result = .ok () → (state.disk.file (follow [] dest ++ [tweetsFile])).isSome = true

/-- The plan of an extraction, from where the directories are made. -/
theorem extractAll_staysInside {names : List Str} {tweetsMember : Str} {middle : Extraction}
    (made : Inside start dest (Allowed (follow [] dest)) 0 middle) :
    StaysInside start dest
      (extractAll host infolist 0 (copyPlan names tweetsMember dest) middle).1
      (extractAll host infolist 0 (copyPlan names tweetsMember dest) middle).2 := by
  obtain ⟨media, plan, goesMedia⟩ := copyPlan_eq names tweetsMember dest
  rw [plan]
  generalize posts : (⟨tweetsMember, dest ++ [.into tweetsFile], false⟩ : Copy) = head
  have goesHead : Target (Allowed (follow [] dest)) head.target := by
    rw [← posts]
    exact .inl (.inl (follow_concat_into _ _ _))
  have goes : ∀ copy ∈ head :: media, Target (Allowed (follow [] dest)) copy.target := by
    intro copy member
    obtain rfl | later := List.mem_cons.mp member
    · exact goesHead
    · exact (goesMedia copy later).imp .inr id
  have inside := extractAll_inside host infolist goes middle made
  constructor
  · cases ran : extractAll host infolist 0 (head :: media) middle with
    | mk result final =>
        rw [ran] at inside
        cases result with
        | error failure => exact inside
        | ok done => exact inside
  · intro returned
    cases ran : extractAll host infolist 0 (head :: media) middle with
    | mk result final =>
        rw [ran] at returned
        subst returned
        obtain ⟨read, next, copied, later⟩ := Attempt.bind_eq_ok.mp ran
        have room := ((extractMember_inside goesHead).returned made copied).room
        have start : Inside next dest (IsMedia (follow [] dest)) (0 + read) next :=
          { Inside.refl next dest _ with budget := Nat.le_add_right _ _, room := room }
        obtain ⟨_, kept⟩ := (extractAll_inside host infolist goesMedia).returned start later
        have apart : ¬ IsMedia (follow [] dest) (follow [] dest ++ [tweetsFile]) := by
          intro media
          obtain ⟨name, _, same⟩ := media
          have absurdity := List.append_cancel_left same
          cases absurdity
        show (final.disk.file _).isSome = true
        rw [kept.outside _ apart]
        rw [← posts] at copied
        have holds := extractMember_holds.returned trivial copied
        rw [follow_concat_into] at holds
        exact holds.2

theorem extractAllowlisted_staysInside (host : Host) (zip : Except ZipFault (List ZipInfo))
    (dest : List (Hop Str)) (start : Extraction) :
    StaysInside start dest (extractAllowlisted host zip dest start).1
      (extractAllowlisted host zip dest start).2 := by
  have unchanged : ∀ failure, StaysInside start dest (.error failure) start := by
    intro failure
    refine ⟨⟨0, .refl _ _ _⟩, ?_⟩
    intro returned
    cases returned
  unfold extractAllowlisted
  cases zip with
  | error fault => cases fault <;> exact unchanged _
  | ok infolist =>
      simp only
      generalize (infolist.map ZipInfo.filename).filter _ = names
      by_cases many : maxEntryCount < names.length
      · rw [if_pos many]
        exact unchanged _
      · rw [if_neg many]
        cases findTweetsMember names with
        | none => exact unchanged _
        | some tweetsMember =>
            simp only
            have made := (Inside.refl start dest (Allowed (follow [] dest))).makeDirs
            rw [Attempt.bind_apply]
            cases making : makeDirs (dest ++ [.into mediaDirName]) start with
            | mk result middle =>
                rw [making] at made
                cases result with
                | error failure => exact ⟨⟨0, made⟩, fun returned => by cases returned⟩
                | ok done => exact extractAll_staysInside made

end Vidit.Imports
