import Mathlib.Data.Rat.Floor
import Mathlib.Tactic.FieldSimp
import Mathlib.Tactic.Linarith
import Mathlib.Tactic.LinearCombination
import Mathlib.Tactic.Positivity
import Mathlib.Tactic.Push
import Mathlib.Tactic.Ring
import Vidit.Python.Unicode

/-!
Contract: the numbers a bounding box is written with, as text and back.

Numbers are exact: a JavaScript `number` and a Python `float` are both a
rational, an infinity or `NaN`.

Owns:
- `Number`;
- `numberText`, `String(value)` of a value of at most four decimals;
- `float`, Python's `float(text)`;
- the round trip between the two, and that a number's text has no comma.

Does not own: rounding to four decimals (`Vidit.Points.Viewport`).
-/

namespace Vidit.Points

open Vidit.Python

/-- A JavaScript `number`, or a Python `float`. -/
inductive Number where
  | finite (value : Rat)
  | nan
  | infinite (negative : Bool)
deriving DecidableEq, Repr

/-! ### Writing -/

/-- The decimals of `rest / 10 ^ places`, without trailing zeros. -/
def decimalsText : Nat → Nat → Str
  | 0, _ => []
  | places + 1, rest =>
    if rest = 0 then []
    else (chr '0' + rest / 10 ^ places) :: decimalsText places (rest % 10 ^ places)

/-- The text of `scaled / 10 ^ places`. -/
def unsignedText (places scaled : Nat) : Str :=
  let whole := natText (scaled / 10 ^ places)
  let rest := scaled % 10 ^ places
  if rest = 0 then whole else whole ++ chr '.' :: decimalsText places rest

/-- `BBOX_PRECISION`. -/
def bboxPrecision : Nat := 4

/-- `10 ** BBOX_PRECISION`. -/
def bboxScale : Rat := 10 ^ bboxPrecision

/-- `String(value)`, at a value of at most `BBOX_PRECISION` decimals. -/
def numberText (value : Rat) : Str :=
  let scaled := ⌊value * bboxScale⌋
  if scaled < 0 then chr '-' :: unsignedText bboxPrecision scaled.natAbs
  else unsignedText bboxPrecision scaled.natAbs

/-! ### Reading -/

/-- `digit (["_"] digit)*`, as the values of its digits. -/
def digitPart : Str → Option (List Nat)
  | [] => none
  | [point] => (decimalValue? point).map ([·])
  | point :: next :: rest =>
    match decimalValue? point,
      (if next = chr '_' then digitPart rest else digitPart (next :: rest)) with
    | some digit, some digits => some (digit :: digits)
    | _, _ => none

def decimalOf (digits : List Nat) : Nat :=
  digits.foldl (fun value digit => 10 * value + digit) 0

/-- The digits before the point and those after it. -/
def fixedPoint (whole decimals : List Nat) : Rat :=
  decimalOf whole + (decimalOf decimals : Rat) / 10 ^ decimals.length

/-- `[digitpart] "." digitpart | digitpart ["."]`. -/
def mantissa (text : Str) : Option Rat :=
  match partition text (chr '.') with
  | (whole, false, _) => (digitPart whole).map (fixedPoint · [])
  | ([], true, decimals) => (digitPart decimals).map (fixedPoint [])
  | (whole, true, []) => (digitPart whole).map (fixedPoint · [])
  | (whole, true, decimals) => do
    let wholeDigits ← digitPart whole
    let decimalDigits ← digitPart decimals
    pure (fixedPoint wholeDigits decimalDigits)

/-- The sign in front of a number: whether it is a minus, and what follows. -/
def signed : Str → Bool × Str
  | [] => (false, [])
  | point :: rest =>
    if point = chr '-' then (true, rest)
    else if point = chr '+' then (false, rest)
    else (false, point :: rest)

/-- `("e" | "E") [sign] digitpart`, after its letter. -/
def exponent (text : Str) : Option Int :=
  let (negative, digits) := signed text
  (digitPart digits).map fun values =>
    if negative then -(decimalOf values : Int) else decimalOf values

def isExponentMark (point : Nat) : Bool :=
  point = chr 'e' || point = chr 'E'

/-- `number [exponent]`. -/
def unsignedFloat (text : Str) : Option Rat :=
  match text.dropWhile (!isExponentMark ·) with
  | [] => mantissa text
  | _ :: power => do
    let value ← mantissa (text.takeWhile (!isExponentMark ·))
    let places ← exponent power
    pure (value * 10 ^ places)

/-- `float(text)`: `none` is a `ValueError`. -/
def float (text : Str) : Option Number :=
  let (negative, unsigned) := signed (strip text)
  let name := asciiLower unsigned
  if name = str "inf" ∨ name = str "infinity" then some (.infinite negative)
  else if name = str "nan" then some .nan
  else (unsignedFloat unsigned).map fun value => .finite (if negative then -value else value)

/-! ### Digits -/

/-- ASCII digits and nothing else. -/
def Digits (text : Str) : Prop :=
  ∀ point ∈ text, 48 ≤ point ∧ point ≤ 57

theorem decimalValue?_digit {point : Nat} (low : 48 ≤ point) (high : point ≤ 57) :
    decimalValue? point = some (point - 48) := by
  have first : decimalZeros.find? (fun first => first ≤ point && point ≤ first + 9) = some 48 := by
    unfold decimalZeros
    rw [List.find?_cons_of_pos]
    simp only [Bool.and_eq_true, decide_eq_true_eq]
    omega
  unfold decimalValue?
  rw [first]
  rfl

theorem digitPart_of_digits {text : Str} (nonempty : text ≠ []) (digits : Digits text) :
    digitPart text = some (text.map (· - 48)) := by
  induction text with
  | nil => exact absurd rfl nonempty
  | cons point rest inductionHypothesis =>
      have here := digits point (by simp)
      cases rest with
      | nil =>
          unfold digitPart
          rw [decimalValue?_digit here.1 here.2]
          rfl
      | cons next others =>
          have following := digits next (by simp)
          have notMark : next ≠ chr '_' := by
            have mark : chr '_' = 95 := rfl
            omega
          have read := inductionHypothesis (by simp) fun point member =>
            digits point (List.mem_cons_of_mem _ member)
          unfold digitPart
          rw [decimalValue?_digit here.1 here.2, if_neg notMark, read]
          rfl

theorem decimalOf_cons (digit : Nat) (digits : List Nat) :
    decimalOf (digit :: digits) = digit * 10 ^ digits.length + decimalOf digits := by
  have shifted : ∀ (start : Nat) (values : List Nat),
      values.foldl (fun value digit => 10 * value + digit) start =
        start * 10 ^ values.length + decimalOf values := by
    intro start values
    induction values generalizing start with
    | nil => simp [decimalOf]
    | cons value values inductionHypothesis =>
        simp only [decimalOf, List.foldl_cons, List.length_cons, mul_zero, zero_add]
        rw [inductionHypothesis, inductionHypothesis value]
        ring
  unfold decimalOf
  rw [List.foldl_cons, shifted]
  simp [decimalOf]

/-! ### What is written -/

theorem digits_natText (number : Nat) : Digits (natText number) := by
  intro point member
  unfold natText str at member
  rw [show toString number = Nat.repr number from rfl, Nat.toList_repr] at member
  obtain ⟨digit, digitMember, rfl⟩ := List.mem_map.mp member
  have isDigit := Nat.isDigit_of_mem_toDigits (by omega) (by omega) digitMember
  simpa [Char.isDigit, Char.le_def, UInt32.le_iff_toNat_le] using isDigit

theorem natText_ne_nil (number : Nat) : natText number ≠ [] := by
  unfold natText str
  rw [show toString number = Nat.repr number from rfl, Nat.toList_repr]
  simp

theorem decimalOf_natText (number : Nat) :
    decimalOf ((natText number).map (· - 48)) = number := by
  unfold natText str decimalOf
  rw [show toString number = Nat.repr number from rfl, Nat.toList_repr, List.map_map,
    List.foldl_map]
  exact Nat.ofDigitChars_eq_foldl.symm.trans Nat.ofDigitChars_ten_toDigits

theorem digits_decimalsText {places rest : Nat} (small : rest < 10 ^ places) :
    Digits (decimalsText places rest) := by
  induction places generalizing rest with
  | zero => simp [Digits, decimalsText]
  | succ places inductionHypothesis =>
      unfold decimalsText
      split
      · simp [Digits]
      · intro point member
        rcases List.mem_cons.mp member with rfl | later
        · have zero : chr '0' = 48 := rfl
          have digit : rest / 10 ^ places < 10 := by
            apply Nat.div_lt_of_lt_mul
            rwa [pow_succ] at small
          rw [zero]
          exact ⟨Nat.le_add_right _ _, by omega⟩
        · exact inductionHypothesis (Nat.mod_lt _ (by positivity)) point later

theorem decimalsText_ne_nil {places rest : Nat} (small : rest < 10 ^ places) (some : rest ≠ 0) :
    decimalsText places rest ≠ [] := by
  cases places with
  | zero => simp at small; omega
  | succ places => simp [decimalsText, some]

theorem fixedPoint_decimalsText {places rest : Nat} (small : rest < 10 ^ places) :
    fixedPoint [] ((decimalsText places rest).map (· - 48)) = (rest : Rat) / 10 ^ places := by
  induction places generalizing rest with
  | zero =>
      have none : rest = 0 := by simpa using small
      simp [none, fixedPoint, decimalsText, decimalOf]
  | succ places inductionHypothesis =>
      unfold decimalsText
      split
      next none => simp [none, fixedPoint, decimalOf]
      next =>
        have later := inductionHypothesis (Nat.mod_lt rest (by positivity : 0 < 10 ^ places))
        have zero : chr '0' = 48 := rfl
        have parts : (rest : Rat) =
            10 ^ places * (rest / 10 ^ places : Nat) + (rest % 10 ^ places : Nat) := by
          exact_mod_cast (Nat.div_add_mod rest (10 ^ places)).symm
        simp only [fixedPoint, List.map_cons, decimalOf_cons, zero, Nat.add_sub_cancel_left,
          List.length_cons, List.length_map] at later ⊢
        simp only [show decimalOf [] = 0 from rfl, Nat.cast_zero, zero_add] at later ⊢
        rw [div_eq_div_iff (by positivity) (by positivity)] at later
        rw [div_eq_div_iff (by positivity) (by positivity), parts]
        push_cast
        rw [pow_succ, pow_succ]
        linear_combination 10 * later

theorem fixedPoint_append (whole decimals : List Nat) :
    fixedPoint whole decimals = decimalOf whole + fixedPoint [] decimals := by
  simp [fixedPoint, decimalOf]

/-! ### The round trip -/

theorem Digits.absent {text : Str} (digits : Digits text) {point : Nat}
    (other : point < 48 ∨ 57 < point) :
    point ∉ text := by
  intro member
  have here := digits point member
  omega

/-- What the text of an unsigned number is made of. -/
theorem unsignedText_points {places scaled point : Nat}
    (member : point ∈ unsignedText places scaled) :
    (48 ≤ point ∧ point ≤ 57) ∨ point = chr '.' := by
  unfold unsignedText at member
  have small : scaled % 10 ^ places < 10 ^ places := Nat.mod_lt _ (by positivity)
  simp only at member
  split at member
  · exact .inl (digits_natText _ point member)
  · rcases List.mem_append.mp member with inWhole | inRest
    · exact .inl (digits_natText _ point inWhole)
    · rcases List.mem_cons.mp inRest with isPoint | inDecimals
      · exact .inr isPoint
      · exact .inl (digits_decimalsText small point inDecimals)

theorem mantissa_unsignedText (places scaled : Nat) :
    mantissa (unsignedText places scaled) = some ((scaled : Rat) / 10 ^ places) := by
  have small : scaled % 10 ^ places < 10 ^ places := Nat.mod_lt _ (by positivity)
  have parts : (scaled : Rat) =
      10 ^ places * (scaled / 10 ^ places : Nat) + (scaled % 10 ^ places : Nat) := by
    exact_mod_cast (Nat.div_add_mod scaled (10 ^ places)).symm
  have wholeRead := digitPart_of_digits (natText_ne_nil _) (digits_natText (scaled / 10 ^ places))
  have noPoint : chr '.' ∉ natText (scaled / 10 ^ places) :=
    (digits_natText _).absent (.inl (by decide))
  by_cases none : scaled % 10 ^ places = 0
  · have text : unsignedText places scaled = natText (scaled / 10 ^ places) := by
      simp [unsignedText, none]
    unfold mantissa
    rw [text, partition_of_notMem noPoint]
    simp only [wholeRead, Option.map_some, Option.some.injEq]
    rw [fixedPoint, decimalOf_natText, eq_div_iff (by positivity), parts, none]
    simp [decimalOf]
    ring
  · have text : unsignedText places scaled = natText (scaled / 10 ^ places) ++
        chr '.' :: decimalsText places (scaled % 10 ^ places) := by
      simp [unsignedText, none]
    unfold mantissa
    rw [text, partition_append noPoint]
    have decimalsRead := digitPart_of_digits (decimalsText_ne_nil small none)
      (digits_decimalsText small)
    rcases wholeIs : natText (scaled / 10 ^ places) with _ | ⟨first, others⟩
    · exact absurd wholeIs (natText_ne_nil _)
    rcases decimalsIs : decimalsText places (scaled % 10 ^ places) with _ | ⟨decimal, decimals⟩
    · exact absurd decimalsIs (decimalsText_ne_nil small none)
    simp only
    rw [← wholeIs, ← decimalsIs, wholeRead, decimalsRead]
    show some (fixedPoint _ _) = _
    rw [fixedPoint_append, fixedPoint_decimalsText small, decimalOf_natText, Option.some.injEq,
      eq_div_iff (by positivity), add_mul, div_mul_cancel₀ _ (by positivity)]
    linear_combination -parts

theorem unsignedText_ne_nil (places scaled : Nat) : unsignedText places scaled ≠ [] := by
  unfold unsignedText
  simp only
  split
  · exact natText_ne_nil _
  · simp

theorem unsignedFloat_unsignedText (places scaled : Nat) :
    unsignedFloat (unsignedText places scaled) = some ((scaled : Rat) / 10 ^ places) := by
  have noMark : (unsignedText places scaled).dropWhile (!isExponentMark ·) = [] := by
    rw [List.dropWhile_eq_nil_iff]
    intro point member
    have point' : chr '.' = 46 := rfl
    have low : chr 'e' = 101 := rfl
    have high : chr 'E' = 69 := rfl
    simp only [isExponentMark, Bool.not_eq_true', Bool.or_eq_false_iff, decide_eq_false_iff_not]
    rcases unsignedText_points member with digit | isPoint <;> omega
  unfold unsignedFloat
  rw [noMark]
  exact mantissa_unsignedText places scaled

/-- A text with a digit or a point in it is neither of the words `float` reads. -/
theorem asciiLower_ne_word {text word : Str} (nonempty : text ≠ [])
    (points : ∀ point ∈ text, point ≤ 57) (letters : ∀ point ∈ word, 97 ≤ point) :
    asciiLower text ≠ word := by
  intro same
  rcases text with _ | ⟨point, rest⟩
  · exact nonempty rfl
  have small := points point (by simp)
  have large := letters (asciiLowerPoint point) (by rw [← same]; simp [asciiLower])
  have unchanged : isAsciiUpper point = false := by
    have first : chr 'A' = 65 := rfl
    simp only [isAsciiUpper, Bool.and_eq_false_iff, decide_eq_false_iff_not]
    omega
  simp only [asciiLowerPoint, unchanged, Bool.false_eq_true, if_false] at large
  omega

/-- What every point of a number's text is. -/
theorem numberText_points {value : Rat} {point : Nat} (member : point ∈ numberText value) :
    (48 ≤ point ∧ point ≤ 57) ∨ point = chr '.' ∨ point = chr '-' := by
  unfold numberText at member
  simp only at member
  split at member
  · rcases List.mem_cons.mp member with isSign | inText
    · exact .inr (.inr isSign)
    · rcases unsignedText_points inText with digit | isPoint
      · exact .inl digit
      · exact .inr (.inl isPoint)
  · rcases unsignedText_points member with digit | isPoint
    · exact .inl digit
    · exact .inr (.inl isPoint)

theorem comma_notMem_numberText (value : Rat) : chr ',' ∉ numberText value := by
  intro member
  have comma : chr ',' = 44 := rfl
  have dot : chr '.' = 46 := rfl
  have minus : chr '-' = 45 := rfl
  rcases numberText_points member with digit | isPoint | isSign <;> omega

theorem strip_numberText (value : Rat) : strip (numberText value) = numberText value := by
  have kept : ∀ point ∈ numberText value, isSpace point = false := by
    intro point member
    rcases numberText_points member with digit | rfl | rfl
    · have spaces : ∀ point, 48 ≤ point ∧ point ≤ 57 → isSpace point = false := by
        intro point digit
        simp only [isSpace, inRanges, spaceRanges, List.any_cons, List.any_nil, Bool.or_false,
          Bool.or_eq_false_iff, Bool.and_eq_false_iff, decide_eq_false_iff_not]
        omega
      exact spaces point digit
    · decide
    · decide
  exact stripBy_eq_self kept

/-- `float` reads a number's text as the number, rounded down to the scale. -/
theorem float_numberText (value : Rat) :
    float (numberText value) = some (.finite (⌊value * bboxScale⌋ / bboxScale)) := by
  have read : ∀ scaled : Nat, unsignedFloat (unsignedText bboxPrecision scaled) =
      some ((scaled : Rat) / bboxScale) := fun scaled => unsignedFloat_unsignedText _ scaled
  have small : ∀ scaled : Nat, ∀ point ∈ unsignedText bboxPrecision scaled, point ≤ 57 := by
    intro scaled point member
    have dot : chr '.' = 46 := rfl
    rcases unsignedText_points member with digit | isPoint <;> omega
  have notWord : ∀ scaled : Nat, ∀ word : Str, (∀ point ∈ word, 97 ≤ point) →
      asciiLower (unsignedText bboxPrecision scaled) ≠ word := fun scaled word letters =>
    asciiLower_ne_word (unsignedText_ne_nil _ _) (small scaled) letters
  have notInf := fun scaled => notWord scaled (str "inf") (by decide)
  have notInfinity := fun scaled => notWord scaled (str "infinity") (by decide)
  have notNan := fun scaled => notWord scaled (str "nan") (by decide)
  unfold float
  rw [strip_numberText]
  unfold numberText
  generalize ⌊value * bboxScale⌋ = scaled
  simp only
  by_cases negative : scaled < 0
  · have magnitude : ((scaled.natAbs : Nat) : Rat) = -(scaled : Rat) := by
      rw [Nat.cast_natAbs, abs_of_neg negative, Int.cast_neg]
    rw [if_pos negative]
    simp only [signed, if_true, notInf, notInfinity, notNan, or_self, if_false, read,
      Option.map_some, magnitude]
    rw [neg_div, neg_neg]
  · have magnitude : ((scaled.natAbs : Nat) : Rat) = (scaled : Rat) := by
      rw [Nat.cast_natAbs, abs_of_nonneg (not_lt.mp negative)]
    have unsigned : signed (unsignedText bboxPrecision scaled.natAbs) =
        (false, unsignedText bboxPrecision scaled.natAbs) := by
      rcases textIs : unsignedText bboxPrecision scaled.natAbs with _ | ⟨point, rest⟩
      · exact absurd textIs (unsignedText_ne_nil _ _)
      have member : point ∈ unsignedText bboxPrecision scaled.natAbs := by
        rw [textIs]
        exact List.mem_cons_self
      have first := unsignedText_points member
      have dot : chr '.' = 46 := rfl
      have minus : point ≠ chr '-' := by
        have code : chr '-' = 45 := rfl
        omega
      have plus : point ≠ chr '+' := by
        have code : chr '+' = 43 := rfl
        omega
      simp [signed, minus, plus]
    rw [if_neg negative, unsigned]
    simp only [notInf, notInfinity, notNan, or_self, if_false, read, Option.map_some, magnitude,
      Bool.false_eq_true]

/-! ### Digits of any script -/

/-- What holds of the ten digits of every script holds of a decimal digit. -/
theorem forall_decimal {holds : Nat → Prop}
    (all : ∀ first ∈ decimalZeros, ∀ value < 10, holds (first + value)) {point : Nat}
    (decimal : (decimalValue? point).isSome = true) : holds point := by
  unfold decimalValue? at decimal
  rw [Option.isSome_map, List.find?_isSome] at decimal
  obtain ⟨first, listed, within⟩ := decimal
  simp only [Bool.and_eq_true, decide_eq_true_eq] at within
  have here := all first listed (point - first) (by omega)
  rwa [Nat.add_sub_of_le within.1] at here

/-- A decimal digit is none of the other characters `float` reads, and no letter of its words. -/
theorem decimal_plain {point : Nat} (decimal : (decimalValue? point).isSome = true) :
    isSpace point = false ∧ isExponentMark point = false ∧ point ≠ chr '_' ∧ point ≠ chr '.' ∧
      point ≠ chr '-' ∧ point ≠ chr '+' ∧ asciiLowerPoint point ≠ chr 'i' ∧
      asciiLowerPoint point ≠ chr 'n' := by
  revert decimal
  apply @forall_decimal (fun point => isSpace point = false ∧
    isExponentMark point = false ∧ point ≠ chr '_' ∧ point ≠ chr '.' ∧ point ≠ chr '-' ∧
      point ≠ chr '+' ∧ asciiLowerPoint point ≠ chr 'i' ∧ asciiLowerPoint point ≠ chr 'n')
  decide

def Decimals (text : Str) : Prop :=
  ∀ point ∈ text, (decimalValue? point).isSome = true

theorem isSome_digitPart {text : Str} (nonempty : text ≠ []) (decimals : Decimals text) :
    (digitPart text).isSome = true := by
  induction text with
  | nil => exact absurd rfl nonempty
  | cons point rest inductionHypothesis =>
      obtain ⟨digit, here⟩ := Option.isSome_iff_exists.mp (decimals point List.mem_cons_self)
      cases rest with
      | nil =>
          unfold digitPart
          rw [here]
          rfl
      | cons next others =>
          have notMark := (decimal_plain (decimals next (by simp))).2.2.1
          obtain ⟨digits, read⟩ := Option.isSome_iff_exists.mp
            (inductionHypothesis (by simp) fun point member =>
              decimals point (List.mem_cons_of_mem _ member))
          unfold digitPart
          rw [here, if_neg notMark, read]
          rfl

theorem isSome_mantissa_whole {whole : Str} (nonempty : whole ≠ []) (decimals : Decimals whole) :
    (mantissa whole).isSome = true := by
  have absent : chr '.' ∉ whole := by
    intro member
    exact (decimal_plain (decimals _ member)).2.2.2.1 rfl
  obtain ⟨digits, read⟩ := Option.isSome_iff_exists.mp (isSome_digitPart nonempty decimals)
  unfold mantissa
  rw [partition_of_notMem absent]
  simp [read]

theorem isSome_mantissa_point {whole rest : Str} (wholeNonempty : whole ≠ [])
    (wholeDecimals : Decimals whole) (restNonempty : rest ≠ []) (restDecimals : Decimals rest) :
    (mantissa (whole ++ chr '.' :: rest)).isSome = true := by
  have absent : chr '.' ∉ whole := by
    intro member
    exact (decimal_plain (wholeDecimals _ member)).2.2.2.1 rfl
  obtain ⟨before, readWhole⟩ :=
    Option.isSome_iff_exists.mp (isSome_digitPart wholeNonempty wholeDecimals)
  obtain ⟨after, readRest⟩ :=
    Option.isSome_iff_exists.mp (isSome_digitPart restNonempty restDecimals)
  unfold mantissa
  rw [partition_append absent]
  cases whole with
  | nil => exact absurd rfl wholeNonempty
  | cons first others =>
      cases rest with
      | nil => exact absurd rfl restNonempty
      | cons next more => simp [readWhole, readRest]

/-- `float` reads a mantissa that starts with a digit, with or without a sign. -/
theorem isSome_float {sign unsigned : Str}
    (signIs : sign = [] ∨ sign = [chr '-'] ∨ sign = [chr '+'])
    (points : ∀ point ∈ unsigned, (decimalValue? point).isSome = true ∨ point = chr '.')
    (starts : ∀ point, unsigned.head? = some point → (decimalValue? point).isSome = true)
    (read : (mantissa unsigned).isSome = true) :
    (float (sign ++ unsigned)).isSome = true := by
  have kept : ∀ point ∈ sign ++ unsigned, isSpace point = false := by
    intro point member
    cases List.mem_append.mp member with
    | inl inSign =>
        have signPoint : point = chr '-' ∨ point = chr '+' := by
          obtain rfl | rfl | rfl := signIs
          · cases inSign
          · exact .inl (List.mem_singleton.mp inSign)
          · exact .inr (List.mem_singleton.mp inSign)
        obtain rfl | rfl := signPoint <;> decide
    | inr inText =>
        cases points point inText with
        | inl decimal => exact (decimal_plain decimal).1
        | inr dot =>
            rw [dot]
            decide
  have noMark : unsigned.dropWhile (!isExponentMark ·) = [] := by
    apply List.dropWhile_eq_nil_iff.mpr
    intro point member
    cases points point member with
    | inl decimal => simp [(decimal_plain decimal).2.1]
    | inr dot =>
        rw [dot]
        decide
  cases unsigned with
  | nil => exact absurd read (by decide)
  | cons first rest =>
      have plain := decimal_plain (starts first rfl)
      obtain ⟨negative, same⟩ : ∃ negative, signed (sign ++ first :: rest) =
          (negative, first :: rest) := by
        obtain rfl | rfl | rfl := signIs
        · refine ⟨false, ?_⟩
          show signed (first :: rest) = _
          simp only [signed, if_neg plain.2.2.2.2.1, if_neg plain.2.2.2.2.2.1]
        · exact ⟨true, rfl⟩
        · exact ⟨false, rfl⟩
      have notWord : ∀ {letter : Nat} {others : Str}, asciiLowerPoint first ≠ letter →
          asciiLower (first :: rest) ≠ letter :: others := by
        intro letter others different same
        exact different (List.cons.inj same).1
      have notInf : asciiLower (first :: rest) ≠ str "inf" := notWord plain.2.2.2.2.2.2.1
      have notInfinity : asciiLower (first :: rest) ≠ str "infinity" :=
        notWord plain.2.2.2.2.2.2.1
      have notNan : asciiLower (first :: rest) ≠ str "nan" := notWord plain.2.2.2.2.2.2.2
      have whole : unsignedFloat (first :: rest) = mantissa (first :: rest) := by
        unfold unsignedFloat
        rw [noMark]
      unfold float strip
      rw [stripBy_eq_self kept, same]
      simp only [notInf, notInfinity, notNan, or_self, if_false, whole, Option.isSome_map, read]

end Vidit.Points
