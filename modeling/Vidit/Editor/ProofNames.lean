import Vidit.Browser.Text
import Vidit.Events.Intake
import Vidit.Points.Numerals

/-!
Contract: the names under which the proof editor stages images, and the names the intake reads.

Owns:
- `sanitizeFilename` and `safeProofFilename`;
- the form of a staged name (`Plain`), and which plain names the intake keeps;
- the cuts under which a staged name survives, and a cut that exposes a space.

Does not own: the names of a GIF's frames, and the placeholder the body carries.

Proof shape: a staged name starts and is spelled as the picked one, so that only its end, its
length and its cuts are left to say (`intake_eq_iff`).
-/

namespace Vidit.Editor

open Vidit.Python Vidit.Browser Vidit.Events
open Vidit.Points (digits_natText natText_ne_nil)

/-! ### The staged name -/

/-- `text.split(separator).pop()`. -/
def lastPart (text : Text) (separator : UInt16) : Text :=
  (text.reverse.takeWhile (· ≠ separator)).reverse

/-- `sanitizeFilename`. -/
def sanitizeFilename (name : Text) : Option Text :=
  let slashed := name.map fun point => if point = unit '\\' then unit '/' else point
  let base := trim (lastPart slashed (unit '/'))
  if base = [] then none
  else if (codePoints base).any isControlOrFormat then none
  else some (base.take originalFilenameMaxLen)

/-- `text.lastIndexOf(".")`, where there is one. -/
def lastDot (text : Text) : Option Nat :=
  (List.range text.length).reverse.find? fun place => text[place]? = some (unit '.')

/-- Where the extension starts; a dot that starts the name starts none. -/
def extensionAt (safe : Text) : Nat :=
  match lastDot safe with
  | some (place + 1) => place + 1
  | _ => safe.length

def stem (safe : Text) : Text :=
  safe.take (extensionAt safe)

def ext (safe : Text) : Text :=
  safe.drop (extensionAt safe)

def suffix (number : Nat) : Text :=
  units (str "-" ++ natText number)

/-- What a candidate keeps of the stem. -/
def stemCut (safe : Text) (number : Nat) : Text :=
  (stem safe).take (originalFilenameMaxLen - (ext safe).length - (suffix number).length)

def candidate (safe : Text) (number : Nat) : Text :=
  stemCut safe number ++ suffix number ++ ext safe

/-- The first number whose candidate is not used. -/
def freeNumber (used : List Text) (safe : Text) : Option Nat :=
  (List.range' 2 998).find? fun number => candidate safe number ∉ used

/-- `safeProofFilename`. -/
def safeProofFilename (name : Text) (used : List Text) : Option Text :=
  match sanitizeFilename name with
  | none => none
  | some safe =>
    if safe ∉ used then some safe
    else (freeNumber used safe).map (candidate safe)

/-- The name the intake reads of a file uploaded under `name`. -/
def intakeName (name : Text) : Option Str :=
  safeOriginalFilename (some (received name))

example : safeProofFilename (units (str "a\\IMG.jpg")) [units (str "IMG.jpg")] =
    some (units (str "IMG-2.jpg")) := by decide

/-! ### Plain names -/

/-- A name that starts and is spelled as a sanitised one. -/
structure Plain (name : Text) : Prop where
  nonempty : name ≠ []
  single : unit '/' ∉ name ∧ unit '\\' ∉ name
  start : ∀ first, name.head? = some first → isTrimmed first = false
  points : isWellFormed name = true → ∀ point ∈ codePoints name, isControlOrFormat point = false

theorem notMem_lastPart (text : Text) (separator : UInt16) : separator ∉ lastPart text separator := by
  intro member
  have passed := List.mem_takeWhile_imp (List.mem_reverse.mp member)
  simp at passed

/-- The part of a picked name that is kept, before it is cut. -/
structure Base (base : Text) : Prop where
  nonempty : base ≠ []
  single : unit '/' ∉ base ∧ unit '\\' ∉ base
  start : ∀ first, base.head? = some first → isTrimmed first = false
  points : ∀ point ∈ codePoints base, isControlOrFormat point = false

theorem sanitizeFilename_base {name safe : Text} (sanitized : sanitizeFilename name = some safe) :
    ∃ base, Base base ∧ safe = base.take originalFilenameMaxLen := by
  unfold sanitizeFilename at sanitized
  simp only at sanitized
  generalize slashes : (name.map fun point => if point = unit '\\' then unit '/' else point) = slashed
    at sanitized
  have noBackslash : unit '\\' ∉ slashed := by
    rw [← slashes, List.mem_map]
    intro found
    obtain ⟨point, _, same⟩ := found
    split at same
    · exact absurd same (by decide)
    · rename_i different
      exact different same
  have notSlash := notMem_lastPart slashed (unit '/')
  have kept : ∀ member ∈ lastPart slashed (unit '/'), member ∈ slashed := by
    intro member here
    exact List.mem_reverse.mp ((List.takeWhile_prefix _).subset (List.mem_reverse.mp here))
  split at sanitized
  · cases sanitized
  · rename_i nonempty
    split at sanitized
    · cases sanitized
    · rename_i plain
      cases sanitized
      refine ⟨_, ⟨nonempty, ⟨?_, ?_⟩, ?_, ?_⟩, rfl⟩
      · exact fun member => notSlash (trim_subset member)
      · exact fun member => noBackslash (kept _ (trim_subset member))
      · exact fun first here => trim_head here
      · intro point member
        rw [List.any_eq_true] at plain
        exact Bool.eq_false_iff.mpr fun bad => plain ⟨point, member, bad⟩

theorem Base.safe {base : Text} (kept : Base base) : Plain (base.take originalFilenameMaxLen) where
  nonempty := by
    intro empty
    rw [List.take_eq_nil_iff] at empty
    exact empty.elim (by decide) kept.nonempty
  single := ⟨fun member => kept.single.1 (List.mem_of_mem_take member),
    fun member => kept.single.2 (List.mem_of_mem_take member)⟩
  start := by
    intro first here
    rw [List.head?_take, if_neg (by decide)] at here
    exact kept.start first here
  points := by
    intro wellFormed point member
    apply kept.points point
    rw [← List.take_append_drop originalFilenameMaxLen base,
      codePoints_append_of_wellFormed wellFormed]
    exact List.mem_append_left _ member

/-! ### What the intake keeps -/

/-- A name the intake has nothing to take off but its end. -/
structure Keepable (text : Str) : Prop where
  nonempty : text ≠ []
  single : chr '/' ∉ text ∧ chr '\\' ∉ text
  start : ∀ first, text.head? = some first → isSpace first = false
  points : ∀ point ∈ text, isControlOrFormat point = false

theorem lstrip_eq {text : Str} (start : ∀ first, text.head? = some first → isSpace first = false) :
    lstripBy isSpace text = text := by
  cases text with
  | nil => rfl
  | cons first rest =>
      have plain := start first rfl
      exact List.dropWhile_cons_of_neg (by simp [plain])

theorem rstrip_eq_iff {text : Str} :
    rstripBy isSpace text = text ↔ ∀ last, text.getLast? = some last → isSpace last = false := by
  have turned : rstripBy isSpace text = text ↔ text.reverse.dropWhile isSpace = text.reverse := by
    unfold rstripBy
    rw [List.reverse_eq_iff]
  rw [turned, ← List.head?_reverse]
  cases text.reverse with
  | nil => simp
  | cons last rest =>
      constructor
      · intro same found here
        cases here
        rw [List.dropWhile_cons] at same
        split at same
        · have shorter : (rest.dropWhile isSpace).length ≤ rest.length :=
            (List.dropWhile_suffix isSpace).length_le
          rw [same, List.length_cons] at shorter
          omega
        · rename_i plain
          exact Bool.eq_false_iff.mpr plain
      · intro plain
        exact List.dropWhile_cons_of_neg (by simp [plain last rfl])

/-- Such a name is kept exactly when it ends in no space and is not too long. -/
theorem safeOriginalFilename_eq_iff {text : Str} (keepable : Keepable text) :
    safeOriginalFilename (some text) = some text ↔
      (∀ last, text.getLast? = some last → isSpace last = false) ∧
        text.length ≤ originalFilenameMaxLen := by
  have slashed : (text.map fun point => if point = chr '\\' then chr '/' else point) = text := by
    calc
      _ = text.map id := by
          apply List.map_congr_left
          intro point member
          have different : point ≠ chr '\\' := by
            intro same
            rw [same] at member
            exact keepable.single.2 member
          rw [if_neg different]
          rfl
      _ = text := List.map_id _
  have stripped : strip text = rstripBy isSpace text := by
    unfold strip stripBy
    rw [lstrip_eq keepable.start]
  obtain ⟨tail, cut, _⟩ := rstripBy_append isSpace text
  have kept : ∀ point ∈ rstripBy isSpace text, point ∈ text := by
    intro point member
    rw [cut]
    exact List.mem_append_left _ member
  have nonempty : rstripBy isSpace text ≠ [] := by
    intro empty
    obtain ⟨first, rest, same⟩ := List.exists_cons_of_ne_nil keepable.nonempty
    have space : isSpace first = true := by
      obtain ⟨tail, cut, spaces⟩ := rstripBy_append isSpace text
      rw [empty, List.nil_append] at cut
      apply spaces
      rw [← cut, same]
      exact List.mem_cons_self
    have plain := keepable.start first (by rw [same]; rfl)
    rw [space] at plain
    cases plain
  have plain : ¬ (rstripBy isSpace text).any isControlOrFormat = true := by
    rw [List.any_eq_true]
    intro found
    obtain ⟨point, member, bad⟩ := found
    rw [keepable.points point (kept point member)] at bad
    cases bad
  unfold safeOriginalFilename
  simp only [Option.getD_some]
  rw [slashed, rpartition_of_notMem keepable.single.1, stripped, if_neg nonempty, if_neg plain,
    Option.some.injEq, ← rstrip_eq_iff]
  constructor
  · intro same
    have length : text.length ≤ (rstripBy isSpace text).length := by
      rw [← congrArg List.length same]
      exact List.length_take_le' _ _
    have short : text.length ≤ originalFilenameMaxLen := by
      rw [← congrArg List.length same]
      exact List.length_take_le _ _
    have prefix' : rstripBy isSpace text <+: text := ⟨tail, cut.symm⟩
    exact ⟨prefix'.eq_of_length_le length, short⟩
  · intro ends
    rw [ends.1]
    exact List.take_of_length_le ends.2

/-- The points of a kept name are the given ones. -/
theorem mem_of_safeOriginalFilename {text kept : Str} {point : Nat}
    (keeps : safeOriginalFilename (some text) = some kept) (member : point ∈ kept) :
    point ∈ text ∨ point = chr '/' := by
  unfold safeOriginalFilename at keeps
  simp only [Option.getD_some] at keeps
  generalize slashes : (text.map fun point => if point = chr '\\' then chr '/' else point) = slashed
    at keeps
  split at keeps
  · cases keeps
  · split at keeps
    · cases keeps
    · cases keeps
      have inSlashed : point ∈ slashed := by
        exact mem_rpartition (mem_stripBy (List.mem_of_mem_take member))
      rw [← slashes, List.mem_map] at inSlashed
      obtain ⟨old, inText, same⟩ := inSlashed
      split at same
      · exact .inr same.symm
      · exact .inl (same ▸ inText)

/-- The text ends in no white space. -/
def EndsPlain (text : Text) : Prop :=
  ∀ last, text.getLast? = some last → isTrimmed last = false

theorem Plain.keepable {name : Text} (plain : Plain name) (wellFormed : isWellFormed name = true) :
    Keepable (codePoints name) where
  nonempty := codePoints_ne_nil plain.nonempty
  single := by
    constructor
    · intro member
      obtain ⟨slash, inName, same⟩ := mem_of_mem_codePoints member (by decide)
      have here : slash = unit '/' := UInt16.toNat_inj.mp (same.trans (by decide))
      exact plain.single.1 (here ▸ inName)
    · intro member
      obtain ⟨backslash, inName, same⟩ := mem_of_mem_codePoints member (by decide)
      have here : backslash = unit '\\' := UInt16.toNat_inj.mp (same.trans (by decide))
      exact plain.single.2 (here ▸ inName)
  start := by
    intro first here
    obtain large | ⟨start, found, same⟩ := head_codePoints here
    · exact isSpace_of_large (by omega)
    · have untrimmed := plain.start start found
      unfold isTrimmed at untrimmed
      rw [isSpace_eq_isWhite (plain.points wellFormed first (List.mem_of_mem_head? here)), ← same]
      exact untrimmed
  points := plain.points wellFormed

/-- A plain name is received and kept as it is exactly when it is well formed, ends in no space
and is not too long. -/
theorem intakeName_eq_iff {name : Text} (plain : Plain name) :
    intakeName name = some (codePoints name) ↔
      isWellFormed name = true ∧ EndsPlain name ∧
        (codePoints name).length ≤ originalFilenameMaxLen := by
  have keeps : isWellFormed name = true → (intakeName name = some (codePoints name) ↔
      EndsPlain name ∧ (codePoints name).length ≤ originalFilenameMaxLen) := by
    intro wellFormed
    have ends : (∀ last, (codePoints name).getLast? = some last → isSpace last = false) ↔
        EndsPlain name := by
      unfold EndsPlain
      rw [← getLast_codePoints]
      apply forall_congr'
      intro last
      apply imp_congr_right
      intro here
      rw [isSpace_eq_isWhite (plain.points wellFormed last (List.mem_of_getLast? here))]
    unfold intakeName
    rw [received_eq_iff.mpr wellFormed, safeOriginalFilename_eq_iff (plain.keepable wellFormed),
      ends]
  constructor
  · intro kept
    have wellFormed : isWellFormed name = true := by
      rw [isWellFormed_iff]
      intro point member
      obtain sent | slash := mem_of_safeOriginalFilename kept member
      · exact received_plain sent
      · rw [slash]
        decide
    exact ⟨wellFormed, (keeps wellFormed).mp kept⟩
  · intro clean
    exact (keeps clean.1).mpr clean.2

/-! ### Candidates -/

section Candidates

variable {base safe : Text} {number : Nat}

theorem lastDot_some {text : Text} {place : Nat} (found : lastDot text = some place) :
    text[place]? = some (unit '.') := by
  simpa using List.find?_some found

theorem ext_head {low : UInt16} (here : (ext safe).head? = some low) : low = unit '.' := by
  unfold ext at here
  rw [List.head?_drop] at here
  unfold extensionAt at here
  split at here
  · rename_i place found
    rw [lastDot_some found] at here
    exact (Option.some.inj here).symm
  · rw [List.getElem?_eq_none le_rfl] at here
    cases here

theorem codePoints_suffix (number : Nat) :
    codePoints (suffix number) = str "-" ++ natText number := by
  apply codePoints_units
  intro point member
  obtain dash | digit := List.mem_append.mp member
  · rw [List.mem_singleton.mp dash]
    decide
  · have digits := digits_natText number point digit
    omega

theorem suffix_head {rest : Text} {low : UInt16} (here : (suffix number ++ rest).head? = some low) :
    low = unit '-' :=
  (Option.some.inj here).symm

theorem codePoints_candidate (safe : Text) (number : Nat) :
    codePoints (candidate safe number) =
      codePoints (stemCut safe number) ++ ((str "-" ++ natText number) ++ codePoints (ext safe)) := by
  unfold candidate
  rw [List.append_assoc, codePoints_append, codePoints_append, codePoints_suffix]
  · intro low here
    rw [ext_head here]
    decide
  · intro low here
    rw [suffix_head here]
    decide

theorem candidate_wellFormed_iff :
    isWellFormed (candidate safe number) = true ↔
      isWellFormed (stemCut safe number) = true ∧ isWellFormed (ext safe) = true := by
  have suffixPlain : ∀ point ∈ str "-" ++ natText number, isSurrogate point = false := by
    intro point member
    rw [← Bool.not_eq_true, isSurrogate_iff]
    obtain dash | digit := List.mem_append.mp member
    · rw [List.mem_singleton.mp dash]
      decide
    · have digits := digits_natText number point digit
      omega
  rw [isWellFormed_iff, isWellFormed_iff, isWellFormed_iff, codePoints_candidate]
  constructor
  · intro plain
    constructor
    · intro point member
      exact plain point (List.mem_append_left _ member)
    · intro point member
      exact plain point (List.mem_append_right _ (List.mem_append_right _ member))
  · intro plain point member
    obtain cut | later := List.mem_append.mp member
    · exact plain.1 point cut
    · obtain inSuffix | inExt := List.mem_append.mp later
      · exact suffixPlain point inSuffix
      · exact plain.2 point inExt

theorem candidate_endsPlain_iff : EndsPlain (candidate safe number) ↔ EndsPlain (ext safe) := by
  unfold EndsPlain
  cases empty : ext safe with
  | nil =>
      have ends : ∀ last, (candidate safe number).getLast? = some last → isTrimmed last = false := by
        rw [← getLast_codePoints, codePoints_candidate, empty]
        intro last here
        have digit : last ∈ natText number := by
          rw [codePoints, List.append_nil, ← List.append_assoc, List.getLast?_append] at here
          obtain ⟨digit, found⟩ := Option.isSome_iff_exists.mp
            (List.getLast?_isSome.mpr (natText_ne_nil number))
          rw [found] at here
          cases here
          exact List.mem_of_getLast? found
        have digits := digits_natText number last digit
        rw [← Bool.not_eq_true]
        unfold isWhite inRanges
        simp only [List.any_cons, List.any_nil, Bool.or_false, Bool.or_eq_true, Bool.and_eq_true,
          decide_eq_true_eq]
        omega
      constructor
      · intro _ last here
        cases here
      · exact fun _ => ends
  | cons first rest =>
      unfold candidate
      rw [empty, List.getLast?_append]
      obtain ⟨last, found⟩ := Option.isSome_iff_exists.mp
        (List.getLast?_isSome.mpr (List.cons_ne_nil first rest))
      rw [found]
      rfl

theorem candidate_length_iff :
    (codePoints (candidate safe number)).length ≤ originalFilenameMaxLen ↔
      (suffix number).length + (codePoints (ext safe)).length ≤ originalFilenameMaxLen := by
  have cut : (stemCut safe number).length ≤
      originalFilenameMaxLen - (ext safe).length - (suffix number).length := List.length_take_le _ _
  have stemLength := length_codePoints_le (stemCut safe number)
  have extLength := length_codePoints_le (ext safe)
  have suffixLength : (str "-" ++ natText number).length = (suffix number).length := by
    unfold suffix units
    rw [List.length_map]
  rw [codePoints_candidate, List.length_append, List.length_append, suffixLength]
  by_cases fits : (ext safe).length + (suffix number).length ≤ originalFilenameMaxLen
  · constructor <;> intro _ <;> omega
  · have none : (codePoints (stemCut safe number)).length = 0 := by omega
    rw [none, Nat.zero_add]

theorem mem_stemCut {member : UInt16} (inCut : member ∈ stemCut safe number) : member ∈ safe :=
  List.mem_of_mem_take (List.mem_of_mem_take inCut)

theorem mem_ext {member : UInt16} (inExt : member ∈ ext safe) : member ∈ safe :=
  List.mem_of_mem_drop inExt

theorem notMem_suffix {literal : Char} (small : chr literal < 0xD800)
    (other : chr literal ≠ chr '-' ∧ ¬ (48 ≤ chr literal ∧ chr literal ≤ 57)) :
    unit literal ∉ suffix number := by
  intro member
  obtain ⟨point, inSuffix, same⟩ := List.mem_map.mp member
  have bounded : point < 0xD800 := by
    obtain dash | digit := List.mem_append.mp inSuffix
    · rw [List.mem_singleton.mp dash]
      decide
    · have digits := digits_natText number point digit
      omega
  have here : point = chr literal := by
    have values := congrArg UInt16.toNat same
    unfold unit at values
    simp only [Nat.toUInt16, UInt16.toNat_ofNat'] at values
    omega
  obtain dash | digit := List.mem_append.mp inSuffix
  · exact other.1 (here ▸ List.mem_singleton.mp dash)
  · exact other.2 (here ▸ digits_natText number point digit)

theorem Base.candidate (kept : Base base) (number : Nat) :
    Plain (candidate (base.take originalFilenameMaxLen) number) where
  nonempty := by
    intro empty
    have points := codePoints_candidate (base.take originalFilenameMaxLen) number
    rw [empty] at points
    have absurdity := congrArg List.length points
    simp [codePoints, str] at absurdity
  single := by
    have absent : ∀ literal, unit literal ∉ base → unit literal ∉ suffix number →
        unit literal ∉ Editor.candidate (base.take originalFilenameMaxLen) number := by
      intro literal notBase notSuffix member
      obtain first | inExt := List.mem_append.mp member
      · obtain inStem | inSuffix := List.mem_append.mp first
        · exact notBase (List.mem_of_mem_take (mem_stemCut inStem))
        · exact notSuffix inSuffix
      · exact notBase (List.mem_of_mem_take (mem_ext inExt))
    exact ⟨absent '/' kept.single.1 (notMem_suffix (by decide) (by decide)),
      absent '\\' kept.single.2 (notMem_suffix (by decide) (by decide))⟩
  start := by
    intro first here
    unfold Editor.candidate at here
    rw [List.append_assoc, List.head?_append] at here
    cases cut : (stemCut (base.take originalFilenameMaxLen) number).head? with
    | none =>
        rw [cut, Option.none_or] at here
        rw [suffix_head here]
        decide
    | some start =>
        rw [cut] at here
        cases here
        apply kept.start first
        unfold stemCut stem at cut
        rw [List.head?_take, List.head?_take, List.head?_take] at cut
        split at cut
        · cases cut
        · split at cut
          · cases cut
          · split at cut
            · cases cut
            · exact cut
  points := by
    intro wellFormed point member
    rw [candidate_wellFormed_iff] at wellFormed
    rw [codePoints_candidate] at member
    obtain inStem | later := List.mem_append.mp member
    · -- the cut of the stem starts the picked name
      apply kept.points point
      have start : stemCut (base.take originalFilenameMaxLen) number <+: base :=
        ((List.take_prefix _ _).trans (List.take_prefix _ _)).trans (List.take_prefix _ _)
      obtain ⟨rest, split⟩ := start
      rw [← split, codePoints_append_of_wellFormed wellFormed.1]
      exact List.mem_append_left _ inStem
    · obtain inSuffix | inExt := List.mem_append.mp later
      · rw [← Bool.not_eq_true]
        unfold isControlOrFormat inRanges controlOrFormatRanges
        simp only [List.any_cons, List.any_nil, Bool.or_false, Bool.or_eq_true, Bool.and_eq_true,
          decide_eq_true_eq]
        obtain dash | digit := List.mem_append.mp inSuffix
        · rw [List.mem_singleton.mp dash]
          decide
        · have digits := digits_natText number point digit
          omega
      · -- the extension starts at a dot of the picked name
        apply kept.points point
        have split : base = stem (base.take originalFilenameMaxLen) ++
            (ext (base.take originalFilenameMaxLen) ++ base.drop originalFilenameMaxLen) := by
          unfold stem ext
          rw [← List.append_assoc, List.take_append_drop, List.take_append_drop]
        rw [split, codePoints_append, codePoints_append_of_wellFormed wellFormed.2]
        · exact List.mem_append_right _ (List.mem_append_left _ inExt)
        · intro low here
          have head : (ext (base.take originalFilenameMaxLen)).head? = some low := by
            cases same : ext (base.take originalFilenameMaxLen) with
            | nil =>
                rw [same] at inExt
                cases inExt
            | cons first rest =>
                rw [same] at here
                exact here
          rw [ext_head head]
          decide

end Candidates

/-! ### The law of a staged name -/

/-- A staged name is new, is read by the intake as it is, and is read apart from the name staged
next. -/
structure SurvivesIntake (used : List Text) (staged : Text) : Prop where
  new : staged ∉ used
  itself : intakeName staged = some (codePoints staged)
  apart : ∀ next later, safeProofFilename next (staged :: used) = some later →
    intakeName later = some (codePoints later) → intakeName later ≠ intakeName staged

/-- The cuts of a candidate: neither splits a pair, the extension ends in no space, and there is
room for it and the suffix. -/
structure CutsCleanly (safe : Text) (number : Nat) : Prop where
  stemWhole : isWellFormed (stemCut safe number) = true
  extWhole : isWellFormed (ext safe) = true
  extEnds : EndsPlain (ext safe)
  room : (suffix number).length + (codePoints (ext safe)).length ≤ originalFilenameMaxLen

/-- A picked name is cut at no pair and at no space; where the cut name is used, its first free
candidate is. -/
structure StagesCleanly (used : List Text) (name : Text) : Prop where
  free : ∀ safe, sanitizeFilename name = some safe → safe ∉ used →
    isWellFormed safe = true ∧ EndsPlain safe
  taken : ∀ safe, sanitizeFilename name = some safe → safe ∈ used →
    ∀ number, freeNumber used safe = some number → CutsCleanly safe number

/-- A staged name is free, or the first free candidate of a used one. -/
theorem safeProofFilename_cases {name staged : Text} {used : List Text}
    (stages : safeProofFilename name used = some staged) :
    ∃ safe, sanitizeFilename name = some safe ∧
      ((safe ∉ used ∧ staged = safe) ∨
        safe ∈ used ∧ ∃ number, freeNumber used safe = some number ∧
          staged = candidate safe number) := by
  unfold safeProofFilename at stages
  cases sanitized : sanitizeFilename name with
  | none =>
      rw [sanitized] at stages
      cases stages
  | some safe =>
      rw [sanitized] at stages
      simp only at stages
      refine ⟨safe, rfl, ?_⟩
      split at stages
      · rename_i free
        cases stages
        exact .inl ⟨free, rfl⟩
      · rename_i taken
        rw [Option.map_eq_some_iff] at stages
        obtain ⟨number, first, rfl⟩ := stages
        exact .inr ⟨not_not.mp taken, number, first, rfl⟩

theorem safeProofFilename_new {name staged : Text} {used : List Text}
    (stages : safeProofFilename name used = some staged) : staged ∉ used := by
  obtain ⟨safe, _, ⟨free, rfl⟩ | ⟨_, number, first, rfl⟩⟩ := safeProofFilename_cases stages
  · exact free
  · simpa using List.find?_some first

/-- A staged name survives the intake exactly when its cuts are clean. -/
theorem survivesIntake_iff {name staged : Text} {used : List Text}
    (stages : safeProofFilename name used = some staged) :
    SurvivesIntake used staged ↔ StagesCleanly used name := by
  have itself : SurvivesIntake used staged ↔ intakeName staged = some (codePoints staged) := by
    constructor
    · exact SurvivesIntake.itself
    · intro kept
      refine ⟨safeProofFilename_new stages, kept, ?_⟩
      intro next later stagesNext keptLater same
      rw [kept, keptLater, Option.some.injEq] at same
      have equal := codePoints_injective same
      exact safeProofFilename_new stagesNext (equal ▸ List.mem_cons_self)
  obtain ⟨safe, sanitized, picked⟩ := safeProofFilename_cases stages
  obtain ⟨base, kept, cut⟩ := sanitizeFilename_base sanitized
  rw [itself]
  obtain ⟨free, rfl⟩ | ⟨taken, number, first, rfl⟩ := picked
  · have plain : Plain staged := cut ▸ kept.safe
    have short : (codePoints staged).length ≤ originalFilenameMaxLen := by
      have units := length_codePoints_le staged
      have length : staged.length ≤ originalFilenameMaxLen := by
        rw [cut]
        exact List.length_take_le _ _
      omega
    rw [intakeName_eq_iff plain]
    constructor
    · intro clean
      constructor
      · intro other same _
        cases sanitized.symm.trans same
        exact ⟨clean.1, clean.2.1⟩
      · intro other same taken
        cases sanitized.symm.trans same
        exact absurd taken free
    · intro clean
      obtain ⟨whole, ends⟩ := clean.free staged sanitized free
      exact ⟨whole, ends, short⟩
  · have plain : Plain (candidate safe number) := cut ▸ kept.candidate number
    rw [intakeName_eq_iff plain, candidate_wellFormed_iff, candidate_endsPlain_iff,
      candidate_length_iff]
    constructor
    · intro clean
      constructor
      · intro other same free
        cases sanitized.symm.trans same
        exact absurd taken free
      · intro other same _ place found
        cases sanitized.symm.trans same
        cases first.symm.trans found
        exact ⟨clean.1.1, clean.1.2, clean.2.1, clean.2.2⟩
    · intro clean
      obtain ⟨stemWhole, extWhole, ends, room⟩ := clean.taken safe sanitized taken number first
      exact ⟨⟨stemWhole, extWhole⟩, ends, room⟩

theorem survivesIntake_second :
    SurvivesIntake [units (str "IMG.jpg")] (units (str "IMG-2.jpg")) ↔
      StagesCleanly [units (str "IMG.jpg")] (units (str "IMG.jpg")) :=
  survivesIntake_iff (by decide)

/-- A cut that exposes a space: the intake strips it, and the next name is read the same. -/
theorem exposed_space :
    ∃ name next staged later, safeProofFilename name [] = some staged ∧
      safeProofFilename next [staged] = some later ∧
      intakeName staged ≠ some (codePoints staged) ∧ intakeName later = intakeName staged :=
  ⟨units (List.replicate 254 (chr 'a') ++ str " b"), units (List.replicate 254 (chr 'a')),
    units (List.replicate 254 (chr 'a') ++ str " "), units (List.replicate 254 (chr 'a')),
    by decide +kernel, by decide +kernel, by decide +kernel, by decide +kernel⟩

end Vidit.Editor
