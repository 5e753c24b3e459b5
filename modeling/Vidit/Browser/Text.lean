import Mathlib.Data.List.TakeWhile
import Vidit.Python.Unicode

/-!
Contract: the strings of the browser, and what of them reaches the backend.

A JavaScript string is a list of UTF-16 code units. A form field and a file name are sent as scalar
values: each surrogate that is not half of a pair is replaced.

Owns:
- code units, the code points they spell, and texts with no surrogate alone;
- `trim`, and that a text is spelled by one list of units;
- what the backend receives.

Does not own: Unicode categories (`Vidit.Python.Unicode`).
-/

namespace Vidit.Browser

open Vidit.Python

/-- A JavaScript string. -/
abbrev Text := List UInt16

/-- A string literal of the source, of the basic plane. -/
def units (text : Str) : Text :=
  text.map Nat.toUInt16

def unit (literal : Char) : UInt16 :=
  (chr literal).toUInt16

/-! ### Code points -/

def isHigh (unit : UInt16) : Bool :=
  0xD800 ≤ unit.toNat && unit.toNat < 0xDC00

def isLow (unit : UInt16) : Bool :=
  0xDC00 ≤ unit.toNat && unit.toNat < 0xE000

/-- The point a pair spells. -/
def pairPoint (high low : UInt16) : Nat :=
  0x10000 + (high.toNat - 0xD800) * 0x400 + (low.toNat - 0xDC00)

/-- The code points of a text, as `for (const ch of text)` walks them. -/
def codePoints : Text → Str
  | [] => []
  | [last] => [last.toNat]
  | high :: low :: rest =>
    if isHigh high && isLow low then pairPoint high low :: codePoints rest
    else high.toNat :: codePoints (low :: rest)

/-- `text.isWellFormed()`. -/
def isWellFormed (text : Text) : Bool :=
  (codePoints text).all fun point => !isSurrogate point

/-- The text as the backend receives it. -/
def received (text : Text) : Str :=
  (codePoints text).map fun point => if isSurrogate point then 0xFFFD else point

/-! ### Trimming -/

/-- White space and line terminators. -/
def isWhite (point : Nat) : Bool :=
  inRanges [(0x9, 0xD), (0x20, 0x20), (0xA0, 0xA0), (0x1680, 0x1680), (0x2000, 0x200A),
    (0x2028, 0x2029), (0x202F, 0x202F), (0x205F, 0x205F), (0x3000, 0x3000), (0xFEFF, 0xFEFF)]
    point

/-- What `trim` removes. -/
def isTrimmed (unit : UInt16) : Bool :=
  isWhite unit.toNat

/-- `text.trim()`. -/
def trim (text : Text) : Text :=
  ((text.dropWhile isTrimmed).reverse.dropWhile isTrimmed).reverse

theorem trim_head {text : Text} {first : UInt16} (here : (trim text).head? = some first) :
    isTrimmed first = false := by
  unfold trim at here
  generalize starts : text.dropWhile isTrimmed = rest at here
  obtain ⟨stripped, cut⟩ : ∃ stripped, rest = (rest.reverse.dropWhile isTrimmed).reverse ++ stripped :=
    ⟨(rest.reverse.takeWhile isTrimmed).reverse, by
      rw [← List.reverse_append, List.takeWhile_append_dropWhile, List.reverse_reverse]⟩
  have head : rest.head? = some first := by
    rw [cut, List.head?_append, here]
    rfl
  rw [← starts] at head
  exact Bool.eq_false_iff.mpr fun white => by
    have stays := List.head?_dropWhile_not isTrimmed text
    rw [head] at stays
    simp [white] at stays

theorem trim_subset {text : Text} {member : UInt16} (inTrimmed : member ∈ trim text) :
    member ∈ text := by
  unfold trim at inTrimmed
  rw [List.mem_reverse] at inTrimmed
  have inRest := List.mem_reverse.mp ((List.dropWhile_suffix _).subset inTrimmed)
  exact (List.dropWhile_suffix _).subset inRest

/-! ### Spelling -/

theorem toNat_lt (unit : UInt16) : unit.toNat < 0x10000 :=
  unit.toNat_lt

theorem isHigh_iff {unit : UInt16} :
    isHigh unit = true ↔ 0xD800 ≤ unit.toNat ∧ unit.toNat < 0xDC00 := by
  simp [isHigh]

theorem isLow_iff {unit : UInt16} :
    isLow unit = true ↔ 0xDC00 ≤ unit.toNat ∧ unit.toNat < 0xE000 := by
  simp [isLow]

theorem isSurrogate_iff {point : Nat} :
    isSurrogate point = true ↔ 0xD800 ≤ point ∧ point ≤ 0xDFFF := by
  simp [isSurrogate]

theorem le_pairPoint (high low : UInt16) : 0x10000 ≤ pairPoint high low := by
  unfold pairPoint
  omega

/-- A cut where the next unit is no low surrogate splits no pair. -/
theorem codePoints_append (left : Text) {right : Text}
    (apart : ∀ low, right.head? = some low → isLow low = false) :
    codePoints (left ++ right) = codePoints left ++ codePoints right := by
  induction left using codePoints.induct with
  | case1 => rfl
  | case2 last =>
      cases right with
      | nil => rfl
      | cons low rest =>
          have notLow := apart low rfl
          show codePoints (last :: low :: rest) = last.toNat :: codePoints (low :: rest)
          rw [codePoints, notLow, Bool.and_false, if_neg Bool.false_ne_true]
  | case3 high low rest pair inductionHypothesis =>
      rw [List.cons_append, List.cons_append, codePoints, if_pos pair, codePoints, if_pos pair,
        inductionHypothesis]
      rfl
  | case4 high low rest single inductionHypothesis =>
      rw [List.cons_append, List.cons_append, codePoints, if_neg single, codePoints, if_neg single,
        ← List.cons_append, inductionHypothesis]
      rfl

theorem isWellFormed_iff {text : Text} :
    isWellFormed text = true ↔ ∀ point ∈ codePoints text, isSurrogate point = false := by
  simp [isWellFormed]

/-- A cut that leaves no surrogate alone on its left splits no pair. -/
theorem codePoints_append_of_wellFormed {left : Text} (wellFormed : isWellFormed left = true)
    (right : Text) : codePoints (left ++ right) = codePoints left ++ codePoints right := by
  rw [isWellFormed_iff] at wellFormed
  induction left using codePoints.induct with
  | case1 => rfl
  | case2 last =>
      cases right with
      | nil => rfl
      | cons low rest =>
          have notHigh : isHigh last = false := by
            have plain := wellFormed last.toNat (List.mem_singleton.mpr rfl)
            rw [← Bool.not_eq_true, isSurrogate_iff] at plain
            rw [← Bool.not_eq_true, isHigh_iff]
            omega
          show codePoints (last :: low :: rest) = last.toNat :: codePoints (low :: rest)
          rw [codePoints, notHigh, Bool.false_and, if_neg Bool.false_ne_true]
  | case3 high low rest pair inductionHypothesis =>
      rw [codePoints, if_pos pair] at wellFormed
      rw [List.cons_append, List.cons_append, codePoints, if_pos pair, codePoints, if_pos pair,
        inductionHypothesis fun point member => wellFormed point (List.mem_cons_of_mem _ member)]
      rfl
  | case4 high low rest single inductionHypothesis =>
      rw [codePoints, if_neg single] at wellFormed
      rw [List.cons_append, List.cons_append, codePoints, if_neg single, codePoints, if_neg single,
        ← List.cons_append,
        inductionHypothesis fun point member => wellFormed point (List.mem_cons_of_mem _ member)]
      rfl

theorem codePoints_units {text : Str} (basic : ∀ point ∈ text, point < 0xD800) :
    codePoints (units text) = text := by
  induction text with
  | nil => rfl
  | cons point rest inductionHypothesis =>
      have small := basic point List.mem_cons_self
      have spelled : point.toUInt16.toNat = point := by
        rw [Nat.toUInt16, UInt16.toNat_ofNat']
        omega
      have later := inductionHypothesis fun other member => basic other (List.mem_cons_of_mem _ member)
      cases rest with
      | nil => simp [units, codePoints, spelled]
      | cons next rest =>
          have notHigh : isHigh point.toUInt16 = false := by
            rw [← Bool.not_eq_true, isHigh_iff, spelled]
            omega
          show codePoints (point.toUInt16 :: next.toUInt16 :: units rest) = _
          rw [codePoints, notHigh, Bool.false_and, if_neg (by simp), spelled]
          exact congrArg (point :: ·) later

/-- The units that spell a point. -/
def spell (point : Nat) : Text :=
  if point < 0x10000 then [point.toUInt16]
  else [(0xD800 + (point - 0x10000) / 0x400).toUInt16, (0xDC00 + (point - 0x10000) % 0x400).toUInt16]

theorem spell_toNat (unit : UInt16) : spell unit.toNat = [unit] := by
  unfold spell
  rw [if_pos (toNat_lt unit), Nat.toUInt16, UInt16.ofNat_toNat]

theorem spell_pairPoint {high low : UInt16} (isPair : isHigh high = true ∧ isLow low = true) :
    spell (pairPoint high low) = [high, low] := by
  rw [isHigh_iff, isLow_iff] at isPair
  have above := le_pairPoint high low
  have first : 0xD800 + (pairPoint high low - 0x10000) / 0x400 = high.toNat := by
    unfold pairPoint
    omega
  have second : 0xDC00 + (pairPoint high low - 0x10000) % 0x400 = low.toNat := by
    unfold pairPoint
    omega
  unfold spell
  rw [if_neg (by omega), first, second]
  simp [Nat.toUInt16]

theorem flatMap_spell (text : Text) : (codePoints text).flatMap spell = text := by
  induction text using codePoints.induct with
  | case1 => rfl
  | case2 last =>
      rw [codePoints, List.flatMap_singleton, spell_toNat]
  | case3 high low rest pair inductionHypothesis =>
      rw [codePoints, if_pos pair, List.flatMap_cons, inductionHypothesis,
        spell_pairPoint (by simpa using pair)]
      rfl
  | case4 high low rest single inductionHypothesis =>
      rw [codePoints, if_neg single, List.flatMap_cons, inductionHypothesis, spell_toNat]
      rfl

/-- Two texts of the same points are the same. -/
theorem codePoints_injective : Function.Injective codePoints := by
  intro left right same
  rw [← flatMap_spell left, same, flatMap_spell]

theorem codePoints_ne_nil {text : Text} (nonempty : text ≠ []) : codePoints text ≠ [] := by
  intro empty
  have none := flatMap_spell text
  rw [empty] at none
  exact nonempty none.symm

theorem length_codePoints_le (text : Text) : (codePoints text).length ≤ text.length := by
  induction text using codePoints.induct with
  | case1 => exact le_rfl
  | case2 last => exact le_rfl
  | case3 high low rest pair inductionHypothesis =>
      rw [codePoints, if_pos pair, List.length_cons, List.length_cons, List.length_cons]
      omega
  | case4 high low rest single inductionHypothesis =>
      rw [codePoints, if_neg single, List.length_cons, List.length_cons]
      omega

/-- A point of the basic plane is a unit. -/
theorem mem_of_mem_codePoints {text : Text} {point : Nat} (member : point ∈ codePoints text)
    (basic : point < 0x10000) : ∃ unit ∈ text, unit.toNat = point := by
  induction text using codePoints.induct with
  | case1 => cases member
  | case2 last =>
      rw [codePoints, List.mem_singleton] at member
      exact ⟨last, List.mem_singleton.mpr rfl, member.symm⟩
  | case3 high low rest pair inductionHypothesis =>
      rw [codePoints, if_pos pair, List.mem_cons] at member
      obtain here | later := member
      · have above := le_pairPoint high low
        omega
      · obtain ⟨unit, inRest, same⟩ := inductionHypothesis later
        exact ⟨unit, List.mem_cons_of_mem _ (List.mem_cons_of_mem _ inRest), same⟩
  | case4 high low rest single inductionHypothesis =>
      rw [codePoints, if_neg single, List.mem_cons] at member
      obtain here | later := member
      · exact ⟨high, List.mem_cons_self, here.symm⟩
      · obtain ⟨unit, inRest, same⟩ := inductionHypothesis later
        exact ⟨unit, List.mem_cons_of_mem _ inRest, same⟩

/-- Only a text with no surrogate alone is received as it is. -/
theorem received_eq_iff {text : Text} :
    received text = codePoints text ↔ isWellFormed text = true := by
  rw [isWellFormed_iff]
  unfold received
  constructor
  · intro same point member
    rw [← same, List.mem_map] at member
    obtain ⟨old, _, rfl⟩ := member
    split
    · decide
    · rename_i plain
      exact Bool.eq_false_iff.mpr plain
  · intro plain
    calc
      _ = (codePoints text).map id := by
          apply List.map_congr_left
          intro point member
          rw [plain point member]
          rfl
      _ = codePoints text := List.map_id _

theorem received_plain {text : Text} {point : Nat} (member : point ∈ received text) :
    isSurrogate point = false := by
  obtain ⟨old, _, rfl⟩ := List.mem_map.mp member
  split
  · decide
  · rename_i plain
    exact Bool.eq_false_iff.mpr plain

/-! ### White space -/

/-- Of the points that are no control or format characters, both sides strip the same. -/
theorem isSpace_eq_isWhite {point : Nat} (plain : isControlOrFormat point = false) :
    isSpace point = isWhite point := by
  unfold isControlOrFormat inRanges controlOrFormatRanges at plain
  unfold isSpace isWhite inRanges spaceRanges
  simp only [List.any_cons, List.any_nil, Bool.or_false, Bool.or_eq_false_iff,
    Bool.and_eq_false_iff, decide_eq_false_iff_not] at plain
  rw [Bool.eq_iff_iff]
  simp only [List.any_cons, List.any_nil, Bool.or_false, Bool.or_eq_true, Bool.and_eq_true,
    decide_eq_true_eq]
  omega

theorem isSpace_of_large {point : Nat} (large : 0xD800 ≤ point) : isSpace point = false := by
  rw [← Bool.not_eq_true]
  unfold isSpace inRanges spaceRanges
  simp only [List.any_cons, List.any_nil, Bool.or_false, Bool.or_eq_true, Bool.and_eq_true,
    decide_eq_true_eq]
  omega

theorem isWhite_of_spelled {point : Nat} (spelled : isSurrogate point = true ∨ 0x10000 ≤ point) :
    isWhite point = false := by
  rw [isSurrogate_iff] at spelled
  rw [← Bool.not_eq_true]
  unfold isWhite inRanges
  simp only [List.any_cons, List.any_nil, Bool.or_false, Bool.or_eq_true, Bool.and_eq_true,
    decide_eq_true_eq]
  omega

/-! ### The ends of a text -/

theorem head_codePoints {text : Text} {first : Nat} (here : (codePoints text).head? = some first) :
    0x10000 ≤ first ∨ ∃ start, text.head? = some start ∧ start.toNat = first := by
  cases text using codePoints.fun_cases with
  | case1 => cases here
  | case2 last => exact .inr ⟨last, rfl, Option.some.inj here⟩
  | case3 high low rest pair =>
      rw [codePoints, if_pos pair, List.head?_cons, Option.some.injEq] at here
      have above := le_pairPoint high low
      exact .inl (by omega)
  | case4 high low rest single =>
      rw [codePoints, if_neg single, List.head?_cons, Option.some.injEq] at here
      exact .inr ⟨high, rfl, here⟩

theorem getLast?_cons_codePoints (first : Nat) {rest : Text} (nonempty : rest ≠ []) :
    (first :: codePoints rest).getLast? = (codePoints rest).getLast? := by
  obtain ⟨next, others, same⟩ := List.exists_cons_of_ne_nil (codePoints_ne_nil nonempty)
  rw [same, List.getLast?_cons_cons]

/-- A text ends in the white space of its last unit. -/
theorem getLast_codePoints (text : Text) :
    (∀ last, (codePoints text).getLast? = some last → isWhite last = false) ↔
      ∀ last, text.getLast? = some last → isTrimmed last = false := by
  induction text using codePoints.induct with
  | case1 => simp [codePoints]
  | case2 last => simp [codePoints, isTrimmed]
  | case3 high low rest pair inductionHypothesis =>
      rw [codePoints, if_pos pair]
      cases rest with
      | nil =>
          have pairPlain : isWhite (pairPoint high low) = false :=
            isWhite_of_spelled (.inr (le_pairPoint high low))
          have lowPlain : isWhite low.toNat = false := by
            simp only [Bool.and_eq_true, isLow_iff] at pair
            exact isWhite_of_spelled (.inl (isSurrogate_iff.mpr (by omega)))
          simp [codePoints, isTrimmed, pairPlain, lowPlain]
      | cons next rest =>
          rw [getLast?_cons_codePoints _ (List.cons_ne_nil _ _), inductionHypothesis,
            List.getLast?_cons_cons, List.getLast?_cons_cons]
  | case4 high low rest single inductionHypothesis =>
      rw [codePoints, if_neg single, getLast?_cons_codePoints _ (List.cons_ne_nil _ _),
        inductionHypothesis, List.getLast?_cons_cons]

end Vidit.Browser
