import Mathlib.Algebra.Order.Floor.Ring
import Mathlib.Data.Int.Log
import Mathlib.Tactic.FieldSimp
import Mathlib.Tactic.Linarith
import Mathlib.Tactic.Positivity
import Mathlib.Tactic.Ring

/-!
Contract: rounding to the nearest number of a binary significand, ties to even.

Owns:
- `roundEven`, the nearest integer;
- `toPrecision`, the nearest number of `precision` significant bits, the exponent unbounded;
- its relative error, and that it does not pass an integer of fewer bits.

Does not own: overflow, and numbers too small for a normal exponent.
-/

namespace Vidit.Library

section Nearest

variable {K : Type*} [Field K] [LinearOrder K] [IsStrictOrderedRing K] [FloorRing K]

/-- The nearest integer; the even one of two as near. -/
def roundEven (value : K) : ℤ :=
  if value - ⌊value⌋ < 1 / 2 then ⌊value⌋
  else if 1 / 2 < value - ⌊value⌋ then ⌊value⌋ + 1
  else if ⌊value⌋ % 2 = 0 then ⌊value⌋
  else ⌊value⌋ + 1

theorem abs_roundEven_sub_le (value : K) : |(roundEven value : K) - value| ≤ 1 / 2 := by
  have below := Int.floor_le value
  have above := Int.lt_floor_add_one value
  unfold roundEven
  rw [abs_le]
  split
  · constructor <;> linarith
  · split
    · push_cast
      constructor <;> linarith
    · split
      · constructor <;> linarith
      · push_cast
        constructor <;> linarith

/-- Rounding does not pass an integer. -/
theorem roundEven_le {value : K} {bound : ℤ} (below : value ≤ bound) :
    roundEven value ≤ bound := by
  have floor : ⌊value⌋ ≤ bound := by
    rw [← Int.cast_le (R := K)]
    exact (Int.floor_le value).trans below
  obtain strict | equal := floor.lt_or_eq
  · unfold roundEven
    split <;> try split <;> try split
    all_goals omega
  · have same : value - ⌊value⌋ < 1 / 2 := by
      rw [equal]
      linarith
    unfold roundEven
    rw [if_pos same, equal]

/-- The spacing of the numbers of `precision` significant bits about `value`. -/
def spacing (precision : ℕ) (value : K) : K :=
  2 ^ (Int.log 2 value + 1 - precision)

/-- The nearest number of `precision` significant bits. -/
def toPrecision (precision : ℕ) (value : K) : K :=
  roundEven (value / spacing precision value) * spacing precision value

variable {precision : ℕ} {value : K}

theorem spacing_pos : 0 < spacing precision value := by
  unfold spacing
  exact zpow_pos two_pos _

/-- The spacing is small beside the value. -/
theorem spacing_mul_le (precision : ℕ) (positive : 0 < value) :
    spacing precision value * 2 ^ precision ≤ 2 * value := by
  have log := Int.zpow_log_le_self (b := 2) (by norm_num) positive
  have split : spacing precision value * 2 ^ precision = 2 * ((2 : ℕ) : K) ^ Int.log 2 value := by
    unfold spacing
    rw [← zpow_natCast, ← zpow_add₀ two_ne_zero, sub_add_cancel, zpow_add_one₀ two_ne_zero]
    push_cast
    ring
  rw [split]
  linarith

/-- The relative error is at most half a unit in the last place. -/
theorem abs_toPrecision_sub_mul_le (precision : ℕ) (positive : 0 < value) :
    |toPrecision precision value - value| * 2 ^ precision ≤ value := by
  have step : 0 < spacing precision value := spacing_pos
  have near := abs_roundEven_sub_le (value / spacing precision value)
  have error : toPrecision precision value - value =
      (roundEven (value / spacing precision value) - value / spacing precision value) *
        spacing precision value := by
    unfold toPrecision
    field_simp
  rw [error, abs_mul, abs_of_pos step]
  calc
    _ ≤ 1 / 2 * spacing precision value * 2 ^ precision := by gcongr
    _ = 1 / 2 * (spacing precision value * 2 ^ precision) := by ring
    _ ≤ 1 / 2 * (2 * value) := by
        have small := spacing_mul_le precision positive
        gcongr
    _ = value := by ring

/-- Rounding does not pass an integer of fewer bits. -/
theorem toPrecision_le {bound : ℕ} (positive : 0 < value) (below : value ≤ bound)
    (small : bound < 2 ^ precision) : toPrecision precision value ≤ bound := by
  have step : 0 < spacing precision value := spacing_pos
  -- the integer is a multiple of the spacing
  have exponent : Int.log 2 value < precision := by
    rw [← Int.lt_zpow_iff_log_lt (b := 2) (by norm_num) positive, zpow_natCast]
    calc
      value ≤ bound := below
      _ < ((2 ^ precision : ℕ) : K) := by exact_mod_cast small
      _ = ((2 : ℕ) : K) ^ precision := by push_cast; rfl
  obtain ⟨gap, equal⟩ : ∃ gap : ℕ, (gap : ℤ) = precision - 1 - Int.log 2 value :=
    ⟨(precision - 1 - Int.log 2 value).toNat, by omega⟩
  have unit : spacing precision value * 2 ^ gap = 1 := by
    unfold spacing
    rw [← zpow_natCast, ← zpow_add₀ two_ne_zero, equal]
    ring_nf
    exact zpow_zero _
  have multiple : ((bound * 2 ^ gap : ℕ) : K) * spacing precision value = bound := by
    push_cast
    rw [mul_assoc, mul_comm (2 ^ gap : K), unit, mul_one]
  have rounded : roundEven (value / spacing precision value) ≤ ((bound * 2 ^ gap : ℕ) : ℤ) := by
    apply roundEven_le
    rw [div_le_iff₀ step, Int.cast_natCast, multiple]
    exact below
  unfold toPrecision
  rw [← multiple]
  gcongr
  exact_mod_cast rounded

end Nearest

end Vidit.Library
