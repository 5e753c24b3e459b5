import Mathlib.Algebra.Order.Floor.Ring
import Mathlib.Algebra.Order.Field.Basic
import Mathlib.Tactic.Ring

/-!
Contract: rounding onto the multiples of a step, downwards and upwards.

Owns:
- `floorTo`, `ceilTo` and `OnGrid`;
- each as the nearest grid point on its side;
- rounding to a fine grid and then to a coarser one;
- when a rounded interval holds a point of the interval in its interior.

Does not own: rounding to nearest.
-/

namespace Vidit.Library

section Grid

variable {K : Type*} [Field K] [LinearOrder K] [FloorRing K]

/-- The greatest multiple of `step` at or below `value`. -/
def floorTo (step value : K) : K :=
  ⌊value / step⌋ * step

/-- The least multiple of `step` at or above `value`. -/
def ceilTo (step value : K) : K :=
  ⌈value / step⌉ * step

/-- A multiple of `step`. -/
def OnGrid (step value : K) : Prop :=
  ∃ line : ℤ, (line : K) * step = value

variable {step fine value point : K}

theorem onGrid_floorTo (step value : K) : OnGrid step (floorTo step value) :=
  ⟨_, rfl⟩

theorem onGrid_ceilTo (step value : K) : OnGrid step (ceilTo step value) :=
  ⟨_, rfl⟩

variable [IsStrictOrderedRing K]

omit [LinearOrder K] [FloorRing K] [IsStrictOrderedRing K] in
/-- A multiple of a coarse step is one of the fine step. -/
theorem OnGrid.refine {coarse : K} (onGrid : OnGrid coarse value) (refines : OnGrid fine coarse) :
    OnGrid fine value := by
  rcases onGrid with ⟨line, rfl⟩
  rcases refines with ⟨ratio, rfl⟩
  exact ⟨line * ratio, by push_cast; ring⟩

theorem floorTo_le (positive : 0 < step) (value : K) : floorTo step value ≤ value := by
  unfold floorTo
  rw [← le_div_iff₀ positive]
  exact Int.floor_le _

theorem le_ceilTo (positive : 0 < step) (value : K) : value ≤ ceilTo step value := by
  unfold ceilTo
  rw [← div_le_iff₀ positive]
  exact Int.le_ceil _

theorem OnGrid.le_floorTo (positive : 0 < step) (onGrid : OnGrid step point)
    (below : point ≤ value) :
    point ≤ floorTo step value := by
  rcases onGrid with ⟨line, rfl⟩
  unfold floorTo
  rw [mul_le_mul_iff_of_pos_right positive, Int.cast_le, Int.le_floor, le_div_iff₀ positive]
  exact below

theorem OnGrid.ceilTo_le (positive : 0 < step) (onGrid : OnGrid step point)
    (above : value ≤ point) :
    ceilTo step value ≤ point := by
  rcases onGrid with ⟨line, rfl⟩
  unfold ceilTo
  rw [mul_le_mul_iff_of_pos_right positive, Int.cast_le, Int.ceil_le, div_le_iff₀ positive]
  exact above

theorem floorTo_eq_iff (positive : 0 < step) : floorTo step value = value ↔ OnGrid step value := by
  constructor
  · intro same
    rw [← same]
    exact onGrid_floorTo step value
  · intro onGrid
    exact le_antisymm (floorTo_le positive value) (onGrid.le_floorTo positive le_rfl)

theorem ceilTo_eq_iff (positive : 0 < step) : ceilTo step value = value ↔ OnGrid step value := by
  constructor
  · intro same
    rw [← same]
    exact onGrid_ceilTo step value
  · intro onGrid
    exact le_antisymm (onGrid.ceilTo_le positive le_rfl) (le_ceilTo positive value)

/-- Rounding to a finer grid first changes nothing. -/
theorem floorTo_floorTo (positive : 0 < step) (finePositive : 0 < fine)
    (refines : OnGrid fine step) (value : K) :
    floorTo step (floorTo fine value) = floorTo step value := by
  apply le_antisymm
  · apply (onGrid_floorTo step _).le_floorTo positive
    exact (floorTo_le positive _).trans (floorTo_le finePositive _)
  · apply (onGrid_floorTo step _).le_floorTo positive
    exact ((onGrid_floorTo step value).refine refines).le_floorTo finePositive
      (floorTo_le positive value)

theorem ceilTo_ceilTo (positive : 0 < step) (finePositive : 0 < fine)
    (refines : OnGrid fine step) (value : K) :
    ceilTo step (ceilTo fine value) = ceilTo step value := by
  apply le_antisymm
  · apply (onGrid_ceilTo step _).ceilTo_le positive
    exact ((onGrid_ceilTo step value).refine refines).ceilTo_le finePositive
      (le_ceilTo positive value)
  · apply (onGrid_ceilTo step _).ceilTo_le positive
    exact (le_ceilTo finePositive _).trans (le_ceilTo positive _)

/-- A point from `value` on is past the rounded edge, unless it is an edge on the grid. -/
theorem floorTo_lt_iff (positive : 0 < step) (inside : value ≤ point) :
    floorTo step value < point ↔ ¬ (OnGrid step point ∧ point = value) := by
  have below := floorTo_le positive value
  constructor
  · rintro strict ⟨onGrid, rfl⟩
    exact strict.ne ((floorTo_eq_iff positive).mpr onGrid)
  · intro off
    apply lt_of_le_of_ne (below.trans inside)
    intro same
    have edge : point = value := le_antisymm (same ▸ below) inside
    exact off ⟨same ▸ onGrid_floorTo step value, edge⟩

theorem lt_ceilTo_iff (positive : 0 < step) (inside : point ≤ value) :
    point < ceilTo step value ↔ ¬ (OnGrid step point ∧ point = value) := by
  have above := le_ceilTo positive value
  constructor
  · rintro strict ⟨onGrid, rfl⟩
    exact strict.ne' ((ceilTo_eq_iff positive).mpr onGrid)
  · intro off
    apply lt_of_le_of_ne (inside.trans above)
    intro same
    have edge : point = value := le_antisymm inside (same ▸ above)
    exact off ⟨same ▸ onGrid_ceilTo step value, edge⟩

end Grid

end Vidit.Library
