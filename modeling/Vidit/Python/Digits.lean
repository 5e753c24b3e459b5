import Mathlib.Tactic.Linarith
import Mathlib.Tactic.Ring
import Vidit.Python.Str

/-!
Contract: numbers written with a fixed number of digits.

Owns:
- the value of a list of digits;
- `fixedText`, a number padded with zeros to a width, and `readFixed`, which
  reads one of that width, both in any base up to sixteen;
- the round trip between the two.

Does not own: numbers without a width (`natText`).
-/

namespace Vidit.Python

/-! ### Digits -/

/-- The number the digits stand for, most significant first. -/
def valueOf (base : Nat) (digits : List Nat) : Nat :=
  digits.foldl (fun value digit => base * value + digit) 0

/-- The last `width` digits of a number. -/
def fixedDigits (base : Nat) : Nat → Nat → List Nat
  | 0, _ => []
  | width + 1, number => number / base ^ width :: fixedDigits base width (number % base ^ width)

theorem valueOf_cons (base digit : Nat) (digits : List Nat) :
    valueOf base (digit :: digits) = digit * base ^ digits.length + valueOf base digits := by
  have shifted : ∀ (start : Nat) (values : List Nat),
      values.foldl (fun value digit => base * value + digit) start =
        start * base ^ values.length + valueOf base values := by
    intro start values
    induction values generalizing start with
    | nil => simp [valueOf]
    | cons value values inductionHypothesis =>
        simp only [valueOf, List.foldl_cons, List.length_cons, mul_zero, zero_add]
        rw [inductionHypothesis, inductionHypothesis value]
        ring
  unfold valueOf
  rw [List.foldl_cons, shifted]
  simp [valueOf]

@[simp] theorem length_fixedDigits (base width number : Nat) :
    (fixedDigits base width number).length = width := by
  induction width generalizing number with
  | zero => rfl
  | succ width inductionHypothesis => simp [fixedDigits, inductionHypothesis]

theorem fixedDigits_lt {base width number : Nat} (positive : 0 < base)
    (small : number < base ^ width) :
    ∀ digit ∈ fixedDigits base width number, digit < base := by
  induction width generalizing number with
  | zero => simp [fixedDigits]
  | succ width inductionHypothesis =>
      intro digit member
      rcases List.mem_cons.mp member with rfl | later
      · apply Nat.div_lt_of_lt_mul
        rwa [pow_succ] at small
      · exact inductionHypothesis (Nat.mod_lt _ (Nat.pow_pos positive)) digit later

theorem valueOf_fixedDigits {base width number : Nat} (positive : 0 < base)
    (small : number < base ^ width) :
    valueOf base (fixedDigits base width number) = number := by
  induction width generalizing number with
  | zero =>
      have zero : number = 0 := by simpa using small
      rw [zero]
      rfl
  | succ width inductionHypothesis =>
      rw [fixedDigits, valueOf_cons, length_fixedDigits,
        inductionHypothesis (Nat.mod_lt _ (Nat.pow_pos positive))]
      exact Nat.div_add_mod' _ _

/-! ### As text -/

/-- A digit, in lower case above nine. -/
def digitChar (digit : Nat) : Nat :=
  if digit < 10 then chr '0' + digit else chr 'a' + (digit - 10)

/-- The value of a digit, in either case. -/
def digitValue? (base point : Nat) : Option Nat :=
  let value :=
    if isAsciiDigit point then some (point - chr '0')
    else if chr 'a' ≤ point ∧ point ≤ chr 'f' then some (point - chr 'a' + 10)
    else if chr 'A' ≤ point ∧ point ≤ chr 'F' then some (point - chr 'A' + 10)
    else none
  value.filter (· < base)

/-- The number, padded with zeros to the width. -/
def fixedText (base width number : Nat) : Str :=
  (fixedDigits base width number).map digitChar

/-- The number of a text of exactly that many digits. -/
def readFixed (base width : Nat) (text : Str) : Option Nat :=
  if text.length = width then (text.mapM (digitValue? base)).map (valueOf base) else none

theorem digitValue?_digitChar {base : Nat} (bounded : base ≤ 16) {digit : Nat}
    (small : digit < base) :
    digitValue? base (digitChar digit) = some digit := by
  have read : ∀ digit < 16, digitValue? 16 (digitChar digit) = some digit := by decide
  have here := read digit (small.trans_le bounded)
  unfold digitValue? at here ⊢
  rw [Option.filter_eq_some_iff] at here ⊢
  exact ⟨here.1, by simpa using small⟩

theorem readFixed_fixedText {base width number : Nat} (positive : 0 < base) (bounded : base ≤ 16)
    (small : number < base ^ width) :
    readFixed base width (fixedText base width number) = some number := by
  have read : ∀ digits : List Nat, (∀ digit ∈ digits, digit < base) →
      (digits.map digitChar).mapM (digitValue? base) = some digits := by
    intro digits below
    induction digits with
    | nil => rfl
    | cons digit digits inductionHypothesis =>
        rw [List.forall_mem_cons] at below
        rw [List.map_cons, List.mapM_cons, digitValue?_digitChar bounded below.1,
          inductionHypothesis below.2]
        rfl
  unfold readFixed fixedText
  rw [read _ (fixedDigits_lt positive small), if_pos (by simp), Option.map_some,
    valueOf_fixedDigits positive small]

/-- A number written in digits has no other character. -/
def IsDigitChar (point : Nat) : Prop :=
  (48 ≤ point ∧ point ≤ 57) ∨ (97 ≤ point ∧ point ≤ 102)

theorem isDigitChar_fixedText {base width number : Nat} (positive : 0 < base)
    (bounded : base ≤ 16) (small : number < base ^ width) :
    ∀ point ∈ fixedText base width number, IsDigitChar point := by
  have written : ∀ digit < 16, IsDigitChar (digitChar digit) := by
    unfold IsDigitChar
    decide
  intro point member
  rcases List.mem_map.mp member with ⟨digit, digitMember, rfl⟩
  exact written digit ((fixedDigits_lt positive small digit digitMember).trans_le bounded)

end Vidit.Python
