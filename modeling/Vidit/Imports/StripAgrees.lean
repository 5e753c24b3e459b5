import Vidit.Imports.ZipFormat

/-!
Contract: what the browser strips an export to imports as the export does.

Owns:
- the members the server's reader sees in an export and in the stripped file;
- `StripsTransparently`, that the extraction of both does the same, to the disk
  and in what it raises, when names are not shared.

Does not own: how a method, a checksum and a size make a stream of the bytes of
a member, which is the same for both files.

Proof shape: the plan of copies is the same list but for the names of the
members (`Alike`), and a copy reads only what is found under its name
(`extractAll_congr`).
-/

namespace Vidit.Imports

open Vidit.Python Vidit.Library
open Vidit.Maps (Bytes)

/-- What `zipfile` reads of a member that is not encrypted, by its method, its checksum, its size
and its bytes as stored. -/
abbrev Opens : Type :=
  Nat → Nat → Nat → Bytes → Option Stream

def ZipMember.info (opens : Opens) (member : ZipMember) : ZipInfo :=
  ⟨member.name, member.usize, opens member.method member.crc member.usize member.data⟩

def ZipInputFile.info (opens : Opens) (input : ZipInputFile) : ZipInfo :=
  ⟨input.filename, input.size, opens input.compression input.crc input.size input.raw⟩

/-- The media directory beside a `tweets.js`. -/
def mediaPrefixOf (tweetsMember : Str) : Str :=
  tweetsMember.take (tweetsMember.length - tweetsFile.length) ++ (mediaDirName ++ str "/")

/-- A file under the media directory. -/
def isMedia (mediaPrefix name : Str) : Bool :=
  startsWith name mediaPrefix && !endsWith name (str "/")

/-- No two members share a name, and no two media files a base name; no media file is named `.`. -/
structure ZipArchive.Plain (archive : ZipArchive) : Prop where
  names : (archive.members.map ZipMember.name).Nodup
  count : ((archive.members.map ZipMember.name).filter fun name =>
    !endsWith name (str "/")).length ≤ maxEntryCount
  bases : ∀ tweetsMember ∈ archive.members.map ZipMember.name,
    anchoredTweetsMatch tweetsMember = true →
    (((archive.members.map ZipMember.name).filter (isMedia (mediaPrefixOf tweetsMember))).map
      baseName).Nodup
  dots : ∀ name ∈ archive.members.map ZipMember.name, baseName name ≠ str "."

/-- The strip changes nothing of what is imported. -/
def StripsTransparently : Prop :=
  ∀ (decoder : TextDecoder) (zip : List ZipInputFile → Bytes) (opens : Opens) (host : Host)
    (dest : List (Hop Str)) (archive : ZipArchive) (maxBytes : Nat),
    archive.WellFormed → archive.Plain →
    match stripArchive decoder zip archive.encode maxBytes with
    | .ok inputs =>
      extractAllowlisted host (.ok (inputs.map (ZipInputFile.info opens))) dest =
          extractAllowlisted host (.ok (archive.members.map (ZipMember.info opens))) dest ∧
        ∀ input ∈ inputs, input.filename = tweetsFile ∨
          ∃ base, input.filename = mediaDirName ++ str "/" ++ base ∧ base ≠ [] ∧ chr '/' ∉ base
    | .error .noTweets =>
      extractAllowlisted host (.ok (archive.members.map (ZipMember.info opens))) dest =
        raise .noTweetsFile
    | .error .tooLarge => True
    | .error .malformed => False

theorem mediaPrefixOf_eq (tweetsMember : Str) :
    mediaPrefixOf tweetsMember =
      (tweetsMember.take (tweetsMember.length - tweetsFile.length) ++ mediaDirName) ++
        str "/" := by
  rw [mediaPrefixOf, List.append_assoc]

/-! ### Names -/

theorem split_ne_nil (text : Str) (separator : Nat) : split text separator ≠ [] := by
  cases text with
  | nil => simp [split]
  | cons point rest =>
      rw [split]
      split
      · simp
      · split <;> simp

theorem split_snoc {separator : Nat} {last : Str} (absent : separator ∉ last) (text : Str) :
    split (text ++ separator :: last) separator = split text separator ++ [last] := by
  induction text with
  | nil =>
      rw [split_append List.not_mem_nil, split_of_notMem absent]
      rfl
  | cons point rest inductionHypothesis =>
      rw [List.cons_append, split, inductionHypothesis, split]
      by_cases here : point = separator
      · rw [if_pos here, if_pos here]
        rfl
      · rw [if_neg here, if_neg here]
        cases parts : split rest separator with
        | nil => exact absurd parts (split_ne_nil rest separator)
        | cons first others => rfl

theorem baseName_append {before base : Str} (absent : chr '/' ∉ base) :
    baseName (before ++ chr '/' :: base) = base := by
  unfold baseName
  rw [rpartition_append absent]

/-- A name is what stands before its last slash and its base name. -/
theorem baseName_cases (name : Str) :
    chr '/' ∉ baseName name ∧
      (name = baseName name ∨ ∃ before, name = before ++ chr '/' :: baseName name) := by
  by_cases slash : chr '/' ∈ name.reverse
  · obtain ⟨after, before, whole, absent⟩ := List.eq_append_cons_of_mem slash
    have named : name = before.reverse ++ chr '/' :: after.reverse := by
      rw [← List.reverse_reverse name, whole]
      simp
    have notIn : chr '/' ∉ after.reverse := by simpa using absent
    have base : baseName name = after.reverse := by
      rw [named, baseName_append notIn]
    rw [base]
    exact ⟨notIn, Or.inr ⟨before.reverse, named⟩⟩
  · have absent : chr '/' ∉ name := by simpa using slash
    have base : baseName name = name := by
      unfold baseName
      rw [rpartition_of_notMem absent]
    rw [base]
    exact ⟨absent, Or.inl rfl⟩

theorem endsWith_slash_iff (name : Str) :
    endsWith name (str "/") = true ↔ ∃ before, name = before ++ [chr '/'] := by
  have slash : str "/" = [chr '/'] := by decide
  rw [slash, endsWith, List.isSuffixOf_iff_suffix]
  constructor
  · intro suffix
    obtain ⟨before, whole⟩ := suffix
    exact ⟨before, whole.symm⟩
  · intro whole
    obtain ⟨before, whole⟩ := whole
    exact ⟨before, whole.symm⟩

/-- A name with a slash has a base name unless it ends there. -/
theorem baseName_ne_nil {name : Str} (nonempty : name ≠ [])
    (notDir : endsWith name (str "/") = false) : baseName name ≠ [] := by
  intro empty
  obtain ⟨-, whole | ⟨before, whole⟩⟩ := baseName_cases name
  · exact nonempty (whole.trans empty)
  · rw [empty] at whole
    have isDir := (endsWith_slash_iff name).mpr ⟨before, whole⟩
    rw [notDir] at isDir
    contradiction

/-- The two readings of a base name agree but for a dot. -/
theorem pathName_append {before base : Str} (absent : chr '/' ∉ base) (nonempty : base ≠ [])
    (notDot : base ≠ str ".") : pathName (before ++ chr '/' :: base) = base := by
  unfold pathName
  rw [split_snoc absent, List.filter_append]
  have kept : [base].filter (fun part => part ≠ [] ∧ part ≠ str ".") = [base] := by
    simp [nonempty, notDot]
  rw [kept, List.getLast?_concat]
  rfl

theorem media_split {mediaPrefix name : Str} (media : isMedia (mediaPrefix ++ str "/") name = true) :
    ∃ before, name = before ++ chr '/' :: baseName name ∧ baseName name ≠ [] ∧
      chr '/' ∉ baseName name := by
  have slash : str "/" = [chr '/'] := by decide
  unfold isMedia at media
  rw [Bool.and_eq_true, Bool.not_eq_true'] at media
  have starts := List.isPrefixOf_iff_prefix.mp media.1
  have inName : chr '/' ∈ name := by
    apply starts.subset
    rw [slash]
    simp
  have nonempty : name ≠ [] := List.ne_nil_of_mem inName
  have base := baseName_ne_nil nonempty media.2
  obtain ⟨absent, whole | ⟨before, whole⟩⟩ := baseName_cases name
  · rw [whole] at inName
    exact absurd inName absent
  · exact ⟨before, whole, base, absent⟩

/-! ### The shortest name -/

/-- The first of the least, over images. -/
theorem argmin_map {α β : Type*} {image : α → β} {key : α → Nat} {value : β → Nat}
    {items : List α} (same : ∀ item ∈ items, value (image item) = key item) :
    (items.map image).argmin value = (items.argmin key).map image := by
  induction items using List.reverseRecOn with
  | nil => rfl
  | append_singleton items last inductionHypothesis =>
      have earlier := inductionHypothesis fun item member =>
        same item (List.mem_append_left _ member)
      have here := same last (by simp)
      rw [List.map_append, List.map_singleton, List.argmin_concat, List.argmin_concat, earlier]
      cases least : items.argmin key with
      | none => rfl
      | some item =>
          have member := List.argmin_mem (f := key) least
          have itemSame := same item (List.mem_append_left _ member)
          simp only [Option.map_some, here, itemSame]
          split <;> rfl

/-- The first is the least when no other is less. -/
theorem argmin_cons_of_le {α : Type*} {key : α → Nat} {first : α} {rest : List α}
    (least : ∀ item ∈ rest, key first ≤ key item) :
    (first :: rest).argmin key = some first := by
  rw [List.argmin_cons]
  cases found : rest.argmin key with
  | none => rfl
  | some item =>
      have bound := least item (List.argmin_mem found)
      exact if_neg (not_lt.mpr bound)

/-! ### The members kept -/

/-- The name of a media file in the stripped file. -/
def strippedName (name : Str) : Str :=
  mediaDirName ++ str "/" ++ baseName name

def mediaOf (mediaPrefix : Str) (members : List ZipMember) : List ZipMember :=
  members.filter fun member => isMedia mediaPrefix member.name

/-- The `tweets.js` of the shortest name. -/
def shortestTweets (members : List ZipMember) : Option ZipMember :=
  (members.filter fun member => anchoredTweetsMatch member.name).argmin
    fun member => member.name.length

/-- Media files of different base names are all kept. -/
theorem keepMedia_eq {directory : Str} {members : List ZipMember} {seen : List Str}
    (distinct : ((mediaOf (directory ++ str "/") members).map
      fun member => baseName member.name).Nodup)
    (unseen : ∀ member ∈ mediaOf (directory ++ str "/") members, baseName member.name ∉ seen) :
    keepMedia (directory ++ str "/") seen (members.map ZipMember.entry) =
      (mediaOf (directory ++ str "/") members).map
        fun member => (member.entry, strippedName member.name) := by
  induction members generalizing seen with
  | nil => rfl
  | cons member others inductionHypothesis =>
      rw [List.map_cons, keepMedia]
      cases media : isMedia (directory ++ str "/") member.name with
      | true =>
          have first : mediaOf (directory ++ str "/") (member :: others) =
              member :: mediaOf (directory ++ str "/") others :=
            List.filter_cons_of_pos media
          rw [first] at distinct unseen ⊢
          rw [List.map_cons, List.nodup_cons] at distinct
          rw [List.forall_mem_cons] at unseen
          obtain ⟨before, whole, base, absent⟩ := media_split media
          have parts := media
          unfold isMedia at parts
          rw [Bool.and_eq_true, Bool.not_eq_true'] at parts
          have starts : ¬ startsWith member.entry.name (directory ++ str "/") = false := by
            intro notStarts
            have same := parts.1
            rw [show member.name = member.entry.name from rfl, notStarts] at same
            contradiction
          have keeps : ¬ (baseName member.entry.name = [] ∨
              endsWith member.entry.name (str "/") = true ∨ baseName member.entry.name ∈ seen) := by
            intro skipped
            rcases skipped with empty | isDir | isSeen
            · exact base empty
            · have notDir : endsWith member.entry.name (str "/") = false := parts.2
              rw [notDir] at isDir
              contradiction
            · exact unseen.1 isSeen
          have still : ∀ other ∈ mediaOf (directory ++ str "/") others,
              baseName other.name ∉ baseName member.name :: seen := by
            intro other inOthers isSeen
            rcases List.mem_cons.mp isSeen with same | earlier
            · exact distinct.1 (List.mem_map.mpr ⟨other, inOthers, same⟩)
            · exact unseen.2 other inOthers earlier
          rw [if_neg starts, if_neg keeps, List.map_cons]
          exact congrArg₂ _ rfl (inductionHypothesis distinct.2 still)
      | false =>
          have skipped : mediaOf (directory ++ str "/") (member :: others) =
              mediaOf (directory ++ str "/") others :=
            List.filter_cons_of_neg (by rw [media]; exact Bool.false_ne_true)
          rw [skipped] at distinct unseen ⊢
          have later := inductionHypothesis distinct unseen
          by_cases starts : startsWith member.entry.name (directory ++ str "/") = false
          · rw [if_pos starts]
            exact later
          · have isDir : endsWith member.entry.name (str "/") = true := by
              unfold isMedia at media
              rw [Bool.not_eq_false] at starts
              rw [show startsWith member.name (directory ++ str "/") = true from starts] at media
              have isDir : endsWith member.name (str "/") = true := by simpa using media
              exact isDir
            rw [if_neg starts, if_pos (Or.inr (Or.inl isDir))]
            exact later

theorem unitLength_eq {name : Str} (ascii : ∀ point ∈ name, point < 0x80) :
    unitLength name = name.length := by
  unfold unitLength
  induction name with
  | nil => rfl
  | cons point rest inductionHypothesis =>
      rw [List.forall_mem_cons] at ascii
      rw [List.map_cons, List.sum_cons, inductionHypothesis ascii.2, if_neg (by omega),
        List.length_cons]
      exact Nat.add_comm _ _

/-- What is kept beside the `tweets.js` found. -/
def keptBeside (members : List ZipMember) :
    Option ZipMember → Except StripError (List (CdEntry × Str))
  | none => .error .noTweets
  | some tweets => .ok ((tweets.entry, tweetsFile) ::
      keepMedia (mediaPrefixOf tweets.name) [] (members.map ZipMember.entry))

theorem keptEntries_eq {members : List ZipMember}
    (wellFormed : ∀ member ∈ members, member.WellFormed) :
    keptEntries (members.map ZipMember.entry) = keptBeside members (shortestTweets members) := by
  have least : ((members.map ZipMember.entry).filter fun entry =>
      anchoredTweetsMatch entry.name).argmin (fun entry => unitLength entry.name) =
      (shortestTweets members).map ZipMember.entry := by
    rw [List.filter_map]
    apply argmin_map
    intro member inFilter
    have formed := wellFormed member (List.mem_filter.mp inFilter).1
    exact unitLength_eq fun point inName => (formed.name point inName).1
  unfold keptEntries
  rw [least]
  cases shortestTweets members <;> rfl

/-- A `tweets.js` is not a directory. -/
theorem notDir_of_anchored {name : Str} (anchored : anchoredTweetsMatch name = true) :
    endsWith name (str "/") = false := by
  have last : tweetsFile <:+ name := by
    unfold anchoredTweetsMatch at anchored
    rw [Bool.or_eq_true, decide_eq_true_eq] at anchored
    rcases anchored with same | ends
    · rw [same]
    · exact (List.suffix_cons _ _).trans (List.isSuffixOf_iff_suffix.mp ends)
  rw [← Bool.not_eq_true, endsWith_slash_iff]
  intro dir
  obtain ⟨before, whole⟩ := dir
  obtain ⟨front, named⟩ := last
  have point := congrArg List.getLast? (named.trans whole)
  have ends : tweetsFile = tweetsFile.dropLast ++ [chr 's'] := by decide
  rw [ends, ← List.append_assoc, List.getLast?_concat, List.getLast?_concat] at point
  exact absurd (Option.some.inj point) (by decide)

theorem findTweetsMember_eq (members : List ZipMember) :
    findTweetsMember ((members.map ZipMember.name).filter fun name => !endsWith name (str "/")) =
      (shortestTweets members).map ZipMember.name := by
  have names : (((members.map ZipMember.name).filter fun name =>
      !endsWith name (str "/")).filter anchoredTweetsMatch) =
      (members.filter fun member => anchoredTweetsMatch member.name).map ZipMember.name := by
    rw [List.filter_filter, List.filter_map]
    congr 1
    apply List.filter_congr
    intro member inMembers
    simp only [Function.comp_apply]
    cases anchored : anchoredTweetsMatch member.name with
    | false => rfl
    | true =>
        rw [notDir_of_anchored anchored]
        rfl
  unfold findTweetsMember
  show (List.filter anchoredTweetsMatch _).argmin List.length = _
  rw [names]
  apply argmin_map
  intro member inFilter
  rfl

/-! ### The plans -/

/-- The names copied as media are those of the media files, each to its base name. -/
theorem mediaPlan_eq {directory : Str} {names : List Str} (dest : List (Hop Str))
    (dots : ∀ name ∈ names, baseName name ≠ str ".") :
    ((names.filter fun name => !endsWith name (str "/")).filterMap fun name =>
      if startsWith name (directory ++ str "/") ∧ pathName name ≠ [] then
        some (⟨name, dest ++ [.into mediaDirName, hopOf (pathName name)], true⟩ : Copy)
      else none) =
    (names.filter (isMedia (directory ++ str "/"))).map fun name =>
      ⟨name, dest ++ [.into mediaDirName, hopOf (baseName name)], true⟩ := by
  induction names with
  | nil => rfl
  | cons name others inductionHypothesis =>
      rw [List.forall_mem_cons] at dots
      have later := inductionHypothesis dots.2
      cases isDir : endsWith name (str "/") with
      | true =>
          have notMedia : ¬ isMedia (directory ++ str "/") name = true := by
            simp [isMedia, isDir]
          rw [List.filter_cons_of_neg (by simp [isDir]), List.filter_cons_of_neg notMedia]
          exact later
      | false =>
          rw [List.filter_cons_of_pos (by simp [isDir])]
          cases starts : startsWith name (directory ++ str "/") with
          | true =>
              have media : isMedia (directory ++ str "/") name = true := by
                simp [isMedia, isDir, starts]
              obtain ⟨before, whole, base, absent⟩ := media_split media
              have path : pathName name = baseName name := by
                conv_lhs => rw [whole]
                exact pathName_append absent base dots.1
              rw [List.filterMap_cons_some (by rw [if_pos ⟨starts, path ▸ base⟩]),
                List.filter_cons_of_pos media, List.map_cons, path, later]
          | false =>
              have notMedia : ¬ isMedia (directory ++ str "/") name = true := by
                simp [isMedia, starts]
              rw [List.filterMap_cons_none (by simp [starts]), List.filter_cons_of_neg notMedia]
              exact later

/-- Two copies of members that are found alike. -/
structure Alike (left right : List ZipInfo) (first second : Copy) : Prop where
  target : first.target = second.target
  skippable : first.skippable = second.skippable
  found : (left.reverse.find? fun info => info.filename = first.name).map
      (fun info => (info.fileSize, info.opened)) =
    (right.reverse.find? fun info => info.filename = second.name).map
      (fun info => (info.fileSize, info.opened))

theorem extractMember_congr (host : Host) {left right : List ZipInfo} {first second : Copy}
    (alike : Alike left right first second) (total : Nat) :
    extractMember host left first.name first.target total first.skippable =
      extractMember host right second.name second.target total second.skippable := by
  have found := alike.found
  unfold extractMember
  rw [alike.target, alike.skippable]
  cases inLeft : left.reverse.find? fun info => info.filename = first.name with
  | none =>
      rw [inLeft] at found
      have inRight : (right.reverse.find? fun info => info.filename = second.name) = none := by
        simpa using found.symm
      rw [inRight]
  | some info =>
      rw [inLeft] at found
      obtain ⟨other, inRight, same⟩ := Option.map_eq_some_iff.mp found.symm
      rw [inRight]
      simp only [Prod.mk.injEq] at same
      simp only [same.1, same.2]

theorem extractAll_congr (host : Host) {left right : List ZipInfo} {plan other : List Copy}
    (alike : List.Forall₂ (Alike left right) plan other) (total : Nat) :
    extractAll host left total plan = extractAll host right total other := by
  induction alike generalizing total with
  | nil => rfl
  | cons first rest inductionHypothesis =>
      rw [extractAll, extractAll, extractMember_congr host first]
      congr 1
      funext read
      exact inductionHypothesis _

/-- A member of its own name is the one found, from either end. -/
theorem find_reverse_of_nodup {α : Type*} {key : α → Str} {items : List α}
    (distinct : (items.map key).Nodup) {item : α} (member : item ∈ items) :
    (items.reverse.find? fun other => key other = key item) = some item := by
  have found : ∃ other, (items.reverse.find? fun other => key other = key item) = some other := by
    rw [← Option.isSome_iff_exists, List.find?_isSome]
    exact ⟨item, List.mem_reverse.mpr member, by simp⟩
  obtain ⟨other, found⟩ := found
  have same : key other = key item := by simpa using List.find?_some found
  have inItems := List.mem_reverse.mp (List.mem_of_find?_eq_some found)
  rw [found, List.inj_on_of_nodup_map distinct inItems member same]

/-! ### The stripped file -/

/-- What is written of the members kept. -/
def strippedInputs (tweets : ZipMember) (media : List ZipMember) : List ZipInputFile :=
  ZipArchive.kept tweets tweetsFile ::
    media.map fun member => ZipArchive.kept member (strippedName member.name)

/-- What is stripped to beside the `tweets.js` found. -/
def strippedBeside (members : List ZipMember) (zip : List ZipInputFile → Bytes) (maxBytes : Nat) :
    Option ZipMember → Except StripError (List ZipInputFile)
  | none => .error .noTweets
  | some tweets =>
    let inputs := strippedInputs tweets (mediaOf (mediaPrefixOf tweets.name) members)
    if maxBytes < (zip inputs).length then .error .tooLarge else .ok inputs

section Stripped

variable {archive : ZipArchive} (wellFormed : archive.WellFormed)

include wellFormed

/-- The strip of a file, by its members. -/
theorem stripArchive_encode (plain : archive.Plain) (decoder : TextDecoder)
    (zip : List ZipInputFile → Bytes) (maxBytes : Nat) :
    stripArchive decoder zip archive.encode maxBytes =
      strippedBeside archive.members zip maxBytes (shortestTweets archive.members) := by
  obtain ⟨rest, opens⟩ := wellFormed.opens
  have long : 22 ≤ archive.encode.length := by
    have ending := ZipArchive.length_endRecord wellFormed
    rw [ZipArchive.encode_eq, List.length_append, ending]
    omega
  have head : ¬ ((sliceBytes archive.encode 0 4).length < 4 ∨
      (sliceBytes archive.encode 0 4).take 2 ≠ [0x50, 0x4b]) := by
    have length : (sliceBytes archive.encode 0 4).length = 4 := by
      unfold sliceBytes
      rw [List.length_take, List.length_drop]
      omega
    have starts : (sliceBytes archive.encode 0 4).take 2 = [0x50, 0x4b] := by
      unfold sliceBytes ZipArchive.encode
      rw [List.drop_zero, List.take_take, ← opens]
      rfl
    rw [length, starts]
    simp
  unfold stripArchive
  rw [if_neg head, ZipArchive.readCentralDirectory_encode decoder wellFormed]
  simp only [bind, Except.bind]
  rw [keptEntries_eq wellFormed.members]
  cases shortest : shortestTweets archive.members with
  | none => rfl
  | some tweets =>
      have inFilter := List.mem_filter.mp (List.argmin_mem shortest)
      have isMember : tweets.name ∈ archive.members.map ZipMember.name :=
        List.mem_map_of_mem inFilter.1
      have bases := plain.bases tweets.name isMember inFilter.2
      have names : ((mediaOf (mediaPrefixOf tweets.name) archive.members).map
          fun member => baseName member.name).Nodup := by
        rw [List.filter_map, List.map_map] at bases
        exact bases
      have directory := mediaPrefixOf_eq tweets.name
      simp only [keptBeside, strippedBeside]
      rw [directory] at names ⊢
      obtain ⟨media, isMedia⟩ : ∃ media, media =
          mediaOf ((tweets.name.take (tweets.name.length - tweetsFile.length) ++ mediaDirName) ++
            str "/") archive.members := ⟨_, rfl⟩
      have unseen : ∀ member ∈ media, baseName member.name ∉ ([] : List Str) :=
        fun _ _ => List.not_mem_nil
      rw [isMedia] at unseen
      have keeps := keepMedia_eq names unseen
      rw [← isMedia] at keeps ⊢
      have copies : ((tweets.entry, tweetsFile) ::
          media.map fun member => (member.entry, strippedName member.name)).mapM
            (copyMember archive.encode) = .ok (strippedInputs tweets media) := by
        have each : ∀ pair ∈ (tweets, tweetsFile) ::
            media.map (fun member => (member, strippedName member.name)),
            copyMember archive.encode (pair.1.entry, pair.2) =
              .ok (ZipArchive.kept pair.1 pair.2) := by
          intro pair inPairs
          apply ZipArchive.copyMember_encode wellFormed
          rcases List.mem_cons.mp inPairs with rfl | inMedia
          · exact inFilter.1
          · obtain ⟨member, kept, rfl⟩ := List.mem_map.mp inMedia
            rw [isMedia] at kept
            exact (List.mem_filter.mp kept).1
        have copied := mapM_eq_of_ok each
        rw [List.mapM_cons, List.mapM_map, List.map_cons, List.map_map] at copied
        unfold strippedInputs
        rw [List.mapM_cons, List.mapM_map]
        exact copied
      simp only [keeps, copies]
      rfl

end Stripped

/-! ### What the server reads -/

theorem strippedName_ne (name : Str) : strippedName name ≠ tweetsFile := by
  intro same
  have first := congrArg (fun text => text.take 7) same
  have long : mediaDirName ++ str "/" = str "tweets_" ++ str "media/" := by decide
  unfold strippedName at first
  rw [long, List.append_assoc] at first
  have start : (str "tweets_" ++ (str "media/" ++ baseName name)).take 7 = str "tweets_" :=
    List.take_left' (by decide)
  rw [start] at first
  exact absurd first (by decide)

theorem baseName_strippedName (name : Str) : baseName (strippedName name) = baseName name := by
  have absent := (baseName_cases name).1
  have slash : mediaDirName ++ str "/" ++ baseName name =
      mediaDirName ++ chr '/' :: baseName name := by
    have one : str "/" = [chr '/'] := by decide
    rw [one, List.append_assoc]
    rfl
  rw [strippedName, slash, baseName_append absent]

/-- A media file is one under its new name too. -/
theorem isMedia_strippedName {name : Str} (base : baseName name ≠ []) :
    isMedia (mediaDirName ++ str "/") (strippedName name) = true := by
  have absent := (baseName_cases name).1
  unfold isMedia
  rw [Bool.and_eq_true, Bool.not_eq_true', ← Bool.not_eq_true, endsWith_slash_iff]
  refine ⟨List.isPrefixOf_iff_prefix.mpr ⟨baseName name, rfl⟩, ?_⟩
  intro dir
  obtain ⟨before, whole⟩ := dir
  obtain ⟨front, last, ends⟩ := (List.eq_nil_or_concat' (baseName name)).resolve_left base
  rw [strippedName, ends, ← List.append_assoc] at whole
  have point := congrArg List.getLast? whole
  rw [List.getLast?_concat, List.getLast?_concat] at point
  have same := Option.some.inj point
  apply absent
  rw [ends, same]
  simp

/-- The names of the stripped file. -/
def strippedNames (media : List ZipMember) : List Str :=
  tweetsFile :: media.map fun member => strippedName member.name

theorem map_filename_strippedInputs (tweets : ZipMember) (media : List ZipMember)
    (opens : Opens) :
    ((strippedInputs tweets media).map (ZipInputFile.info opens)).map ZipInfo.filename =
      strippedNames media := by
  unfold strippedInputs strippedNames
  rw [List.map_cons, List.map_cons, List.map_map, List.map_map]
  rfl

section Agrees

variable {directory : Str} {members : List ZipMember}

/-- Under the stripped names, all but `tweets.js` are media. -/
theorem strippedNames_media :
    (strippedNames (mediaOf (directory ++ str "/") members)).filter
        (isMedia (mediaDirName ++ str "/")) =
      (mediaOf (directory ++ str "/") members).map fun member => strippedName member.name := by
  have notMedia : ¬ isMedia (mediaDirName ++ str "/") tweetsFile = true := by decide
  unfold strippedNames
  rw [List.filter_cons_of_neg notMedia]
  apply List.filter_eq_self.mpr
  intro name inNames
  obtain ⟨member, kept, rfl⟩ := List.mem_map.mp inNames
  obtain ⟨before, whole, base, absent⟩ := media_split (List.mem_filter.mp kept).2
  exact isMedia_strippedName base

theorem strippedNames_files :
    (strippedNames (mediaOf (directory ++ str "/") members)).filter
        (fun name => !endsWith name (str "/")) =
      strippedNames (mediaOf (directory ++ str "/") members) := by
  apply List.filter_eq_self.mpr
  intro name inNames
  rcases List.mem_cons.mp inNames with rfl | inMedia
  · decide
  · obtain ⟨member, kept, rfl⟩ := List.mem_map.mp inMedia
    obtain ⟨before, whole, base, absent⟩ := media_split (List.mem_filter.mp kept).2
    have media := isMedia_strippedName base
    unfold isMedia at media
    exact (Bool.and_eq_true _ _ ▸ media).2

/-- Of the stripped names, `tweets.js` is the shortest that reads as one. -/
theorem findTweetsMember_stripped :
    findTweetsMember (strippedNames (mediaOf (directory ++ str "/") members)) =
      some tweetsFile := by
  have anchored : anchoredTweetsMatch tweetsFile = true := by decide
  show (List.filter anchoredTweetsMatch (tweetsFile :: _)).argmin List.length = _
  rw [List.filter_cons_of_pos anchored]
  apply argmin_cons_of_le
  intro name inNames
  obtain ⟨member, kept, rfl⟩ := List.mem_map.mp (List.mem_filter.mp inNames).1
  have long : tweetsFile.length ≤ (mediaDirName ++ str "/").length := by decide
  unfold strippedName
  rw [List.length_append]
  omega

end Agrees

/-! ### The result -/

theorem strippedNames_nodup {media : List ZipMember}
    (distinct : (media.map fun member => baseName member.name).Nodup) :
    (strippedNames media).Nodup := by
  have names : (media.map fun member => strippedName member.name).Nodup := by
    have mapped := distinct.map (List.append_right_injective (mediaDirName ++ str "/"))
    rw [List.map_map] at mapped
    exact mapped
  refine List.nodup_cons.mpr ⟨?_, names⟩
  intro inMedia
  obtain ⟨member, kept, same⟩ := List.mem_map.mp inMedia
  exact strippedName_ne member.name same

/-- The media beside a `tweets.js` leave it out. -/
theorem length_media_lt {archive : ZipArchive} {tweets : ZipMember}
    (isMember : tweets.name ∈ archive.members.map ZipMember.name)
    (anchored : anchoredTweetsMatch tweets.name = true) :
    (mediaOf (mediaPrefixOf tweets.name) archive.members).length <
      ((archive.members.map ZipMember.name).filter fun name =>
        !endsWith name (str "/")).length := by
  have media : (mediaOf (mediaPrefixOf tweets.name) archive.members).length =
      (((archive.members.map ZipMember.name).filter fun name =>
        !endsWith name (str "/")).filter fun name =>
          startsWith name (mediaPrefixOf tweets.name)).length := by
    rw [List.filter_filter, List.filter_map, List.length_map]
    rfl
  have notMedia : ¬ startsWith tweets.name (mediaPrefixOf tweets.name) = true := by
    intro starts
    have prefixes := (List.isPrefixOf_iff_prefix.mp starts).length_le
    have long : tweetsFile.length < (mediaDirName ++ str "/").length := by decide
    have file : tweetsFile.length ≤ tweets.name.length := by
      unfold anchoredTweetsMatch at anchored
      rw [Bool.or_eq_true, decide_eq_true_eq] at anchored
      rcases anchored with same | ends
      · rw [same]
      · have suffix := (List.isSuffixOf_iff_suffix.mp ends).length_le
        rw [List.length_cons] at suffix
        omega
    rw [mediaPrefixOf, List.length_append, List.length_take] at prefixes
    omega
  rw [media]
  apply List.length_filter_lt_length_iff_exists.mpr
  refine ⟨tweets.name, List.mem_filter.mpr ⟨isMember, ?_⟩, notMedia⟩
  rw [notDir_of_anchored anchored]
  rfl

/-- The plan of copies, by the files under the media directory. -/
theorem copyPlan_files {names : List Str} (dots : ∀ name ∈ names, baseName name ≠ str ".")
    (tweetsMember : Str) (dest : List (Hop Str)) :
    copyPlan (names.filter fun name => !endsWith name (str "/")) tweetsMember dest =
      ⟨tweetsMember, dest ++ [.into tweetsFile], false⟩ ::
        (names.filter (isMedia (mediaPrefixOf tweetsMember))).map fun name =>
          ⟨name, dest ++ [.into mediaDirName, hopOf (baseName name)], true⟩ := by
  have directory := mediaPrefixOf_eq tweetsMember
  rw [directory, ← mediaPlan_eq dest dots]
  rfl

section Extraction

variable {archive : ZipArchive} (plain : archive.Plain) {tweets : ZipMember}
  (shortest : shortestTweets archive.members = some tweets)

include plain shortest

theorem media_distinct :
    ((mediaOf (mediaPrefixOf tweets.name) archive.members).map
      fun member => baseName member.name).Nodup := by
  have inFilter := List.mem_filter.mp (List.argmin_mem shortest)
  have bases := plain.bases tweets.name (List.mem_map_of_mem inFilter.1) inFilter.2
  rw [List.filter_map, List.map_map] at bases
  exact bases

/-- A member kept is found in the stripped file as it is in the export. -/
theorem alike_kept (opens : Opens) {member : ZipMember} (inMembers : member ∈ archive.members)
    {filename : Str} (inInputs : ZipArchive.kept member filename ∈
      strippedInputs tweets (mediaOf (mediaPrefixOf tweets.name) archive.members))
    (target : List (Hop Str)) (skippable : Bool) :
    Alike ((strippedInputs tweets (mediaOf (mediaPrefixOf tweets.name) archive.members)).map
        (ZipInputFile.info opens))
      (archive.members.map (ZipMember.info opens)) ⟨filename, target, skippable⟩
      ⟨member.name, target, skippable⟩ := by
  refine ⟨rfl, rfl, ?_⟩
  have inputNames := map_filename_strippedInputs tweets
    (mediaOf (mediaPrefixOf tweets.name) archive.members) opens
  have distinct := strippedNames_nodup (media_distinct plain shortest)
  rw [← inputNames] at distinct
  have names : ((archive.members.map (ZipMember.info opens)).map ZipInfo.filename).Nodup := by
    rw [List.map_map]
    exact plain.names
  have left := find_reverse_of_nodup distinct (List.mem_map_of_mem inInputs)
  have right := find_reverse_of_nodup names
    (List.mem_map_of_mem (f := ZipMember.info opens) inMembers)
  have leftContents :=
    congrArg (Option.map fun info : ZipInfo => (info.fileSize, info.opened)) left
  have rightContents :=
    congrArg (Option.map fun info : ZipInfo => (info.fileSize, info.opened)) right
  exact leftContents.trans rightContents.symm

theorem plans_alike (opens : Opens) (dest : List (Hop Str)) :
    List.Forall₂
      (Alike ((strippedInputs tweets (mediaOf (mediaPrefixOf tweets.name) archive.members)).map
        (ZipInputFile.info opens)) (archive.members.map (ZipMember.info opens)))
      (copyPlan (strippedNames (mediaOf (mediaPrefixOf tweets.name) archive.members))
        tweetsFile dest)
      (copyPlan ((archive.members.map ZipMember.name).filter fun name =>
        !endsWith name (str "/")) tweets.name dest) := by
  have inFilter := List.mem_filter.mp (List.argmin_mem shortest)
  have directory := mediaPrefixOf_eq tweets.name
  have strippedDots : ∀ name ∈ strippedNames
      (mediaOf (mediaPrefixOf tweets.name) archive.members), baseName name ≠ str "." := by
    intro name inNames
    rcases List.mem_cons.mp inNames with rfl | inMedia
    · decide
    · obtain ⟨member, kept, rfl⟩ := List.mem_map.mp inMedia
      rw [baseName_strippedName]
      exact plain.dots _ (List.mem_map_of_mem (List.mem_filter.mp kept).1)
  have top : mediaPrefixOf tweetsFile = mediaDirName ++ str "/" := by decide
  have stripped := copyPlan_files strippedDots tweetsFile dest
  have files : (strippedNames (mediaOf (mediaPrefixOf tweets.name) archive.members)).filter
      (fun name => !endsWith name (str "/")) =
      strippedNames (mediaOf (mediaPrefixOf tweets.name) archive.members) := by
    rw [directory]
    exact strippedNames_files
  have media : (strippedNames (mediaOf (mediaPrefixOf tweets.name) archive.members)).filter
      (isMedia (mediaDirName ++ str "/")) =
      (mediaOf (mediaPrefixOf tweets.name) archive.members).map
        fun member => strippedName member.name := by
    rw [directory]
    exact strippedNames_media
  rw [files, top, media, List.map_map] at stripped
  rw [stripped, copyPlan_files plain.dots, List.filter_map, List.map_map]
  refine List.Forall₂.cons (alike_kept plain shortest opens inFilter.1 ?_ _ _) ?_
  · exact List.mem_cons_self
  · rw [List.forall₂_map_left_iff, List.forall₂_map_right_iff]
    apply List.forall₂_same.mpr
    intro member inMedia
    have kept : ZipArchive.kept member (strippedName member.name) ∈
        strippedInputs tweets (mediaOf (mediaPrefixOf tweets.name) archive.members) :=
      List.mem_cons_of_mem _ (List.mem_map_of_mem
        (f := fun member => ZipArchive.kept member (strippedName member.name)) inMedia)
    have found := alike_kept plain shortest opens (List.mem_filter.mp inMedia).1 kept
      (dest ++ [.into mediaDirName, hopOf (baseName member.name)]) true
    simp only [Function.comp_apply, baseName_strippedName]
    exact found

/-- The extraction of the stripped file does what that of the export does. -/
theorem extract_strippedInputs (opens : Opens) (host : Host) (dest : List (Hop Str)) :
    extractAllowlisted host (.ok ((strippedInputs tweets
        (mediaOf (mediaPrefixOf tweets.name) archive.members)).map (ZipInputFile.info opens)))
        dest =
      extractAllowlisted host (.ok (archive.members.map (ZipMember.info opens))) dest := by
  have inFilter := List.mem_filter.mp (List.argmin_mem shortest)
  have fewer := length_media_lt (List.mem_map_of_mem (f := ZipMember.name) inFilter.1) inFilter.2
  have directory := mediaPrefixOf_eq tweets.name
  have files : (strippedNames (mediaOf (mediaPrefixOf tweets.name) archive.members)).filter
      (fun name => !endsWith name (str "/")) =
      strippedNames (mediaOf (mediaPrefixOf tweets.name) archive.members) := by
    rw [directory]
    exact strippedNames_files
  have finds : findTweetsMember
      (strippedNames (mediaOf (mediaPrefixOf tweets.name) archive.members)) =
      some tweetsFile := by
    rw [directory]
    exact findTweetsMember_stripped
  have few : ¬ maxEntryCount <
      (strippedNames (mediaOf (mediaPrefixOf tweets.name) archive.members)).length := by
    have count := plain.count
    rw [strippedNames, List.length_cons, List.length_map]
    omega
  have original := findTweetsMember_eq archive.members
  rw [shortest, Option.map_some] at original
  have infoNames : (archive.members.map (ZipMember.info opens)).map ZipInfo.filename =
      archive.members.map ZipMember.name := by
    rw [List.map_map]
    rfl
  unfold extractAllowlisted
  simp only [map_filename_strippedInputs, infoNames, files, finds, original]
  rw [if_neg few, if_neg (not_lt.mpr plain.count),
    extractAll_congr host (plans_alike plain shortest opens dest) 0]

end Extraction

/-- A member of one byte at an offset. -/
private def oneByte (name : Str) (headerOffset : Nat) : ZipMember where
  name := name
  versions := leBytes 6 0
  method := 0
  stamp := leBytes 4 0
  crc := 7
  usize := 1
  data := [65]
  attributes := leBytes 8 0
  headerOffset := headerOffset
  extras := [(9, [1])]
  trailing := []
  comment := [33]
  localHead := leBytes 22 0
  localExtra := []

private def smallExport : ZipArchive where
  body := (oneByte (str "tweets.js") 0).localRecord ++
    (oneByte (str "tweets_media/1-a.jpg") 40).localRecord
  members := [oneByte (str "tweets.js") 0, oneByte (str "tweets_media/1-a.jpg") 40]
  comment := []
  disks := leBytes 6 0
  recordHead := leBytes 20 0
  extensible := []
  locatorDisk := leBytes 4 0
  locatorTotal := leBytes 4 0

example : smallExport.WellFormed ∧ smallExport.Plain := by
  have inMembers : ∀ member ∈ smallExport.members,
      member = oneByte (str "tweets.js") 0 ∨
        member = oneByte (str "tweets_media/1-a.jpg") 40 := by
    intro member isMember
    simpa [smallExport] using isMember
  constructor
  · constructor
    case members =>
      intro member isMember
      rcases inMembers member isMember with rfl | rfl
      · constructor <;> decide +kernel
      · constructor <;> decide +kernel
    case located =>
      intro member isMember
      rcases inMembers member isMember with rfl | rfl
      · exact ⟨[], (oneByte (str "tweets_media/1-a.jpg") 40).localRecord, rfl, rfl⟩
      · exact ⟨(oneByte (str "tweets.js") 0).localRecord, [], by decide, by decide⟩
    case last =>
      intro index positive bound
      have length : smallExport.endRecord.length = 22 := by decide
      omega
    all_goals decide +kernel
  · constructor <;> decide +kernel

end Vidit.Imports
