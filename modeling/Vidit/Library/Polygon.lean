import Mathlib.Algebra.Order.Floor.Ring
import Mathlib.Data.Nat.Periodic
import Mathlib.LinearAlgebra.AffineSpace.AffineMap
import Mathlib.Tactic.FieldSimp
import Mathlib.Tactic.Linarith
import Mathlib.Tactic.LinearCombination

/-!
Contract: closed polygonal curves in the plane over an ordered field.

Owns:
- `cross` and `dot`, and what they say of the direction of two vectors;
- `Meets`, two segments that share a point, and `Folds`, two edges that share
  more than the corner between them;
- `curve`, the closed polygonal curve through some corners;
- `injOn_curve_iff`: the curve is injective when no corner folds back and no two
  edges meet that do not follow each other.

Does not own: how a program decides any of these.

Proof shape: a point of the curve is an edge and a fraction of it below 1
(`injOn_curve_iff_edges`). Two of them coincide on one edge, which is a segment,
on two edges that follow each other, which fold there, or on two that do not.
-/

namespace Vidit.Library

variable {K : Type*} [Field K] [LinearOrder K] [IsStrictOrderedRing K]

/-! ### Vectors -/

/-- The cross product of two vectors of the plane. -/
def cross (left right : K × K) : K :=
  left.1 * right.2 - left.2 * right.1

def dot (left right : K × K) : K :=
  left.1 * right.1 + left.2 * right.2

omit [LinearOrder K] [IsStrictOrderedRing K] in
theorem lineMap_eq (start finish : K × K) (t : K) :
    AffineMap.lineMap start finish t =
      (start.1 + t * (finish.1 - start.1), start.2 + t * (finish.2 - start.2)) := by
  rw [AffineMap.lineMap_apply]
  ext
  · simp [add_comm]
  · simp [add_comm]

theorem dot_self_pos {vector : K × K} (nonzero : vector ≠ 0) : 0 < dot vector vector := by
  have first := mul_self_nonneg vector.1
  have second := mul_self_nonneg vector.2
  apply lt_of_le_of_ne (add_nonneg first second)
  intro zero
  have square : vector.1 * vector.1 + vector.2 * vector.2 = 0 := zero.symm
  apply nonzero
  ext
  · exact mul_self_eq_zero.mp (by linarith)
  · exact mul_self_eq_zero.mp (by linarith)

/-- A vector parallel to another is a multiple of it. -/
theorem eq_smul_of_cross_eq_zero {vector other : K × K} (nonzero : vector ≠ 0)
    (parallel : cross vector other = 0) :
    other = (dot vector other / dot vector vector) • vector := by
  have size := dot_self_pos nonzero
  unfold cross at parallel
  ext
  · rw [Prod.smul_fst, smul_eq_mul, div_mul_eq_mul_div, eq_div_iff size.ne']
    unfold dot
    linear_combination (-vector.2) * parallel
  · rw [Prod.smul_snd, smul_eq_mul, div_mul_eq_mul_div, eq_div_iff size.ne']
    unfold dot
    linear_combination vector.1 * parallel

omit [LinearOrder K] [IsStrictOrderedRing K] in
/-- A segment with two ends is passed through once. -/
theorem lineMap_injective {start finish : K × K} (apart : start ≠ finish) {s t : K}
    (same : AffineMap.lineMap start finish s = AffineMap.lineMap start finish t) : s = t := by
  simp only [lineMap_eq, Prod.mk.injEq, add_right_inj, mul_eq_mul_right_iff] at same
  obtain ⟨sameFirst | first, sameSecond | second⟩ := same
  · exact sameFirst
  · exact sameFirst
  · exact sameSecond
  · exact absurd (Prod.ext (sub_eq_zero.mp first) (sub_eq_zero.mp second)).symm apart

/-! ### Segments that meet -/

/-- The segments share a point. -/
def Meets (p₁ p₂ q₁ q₂ : K × K) : Prop :=
  ∃ s ∈ Set.Icc (0 : K) 1, ∃ t ∈ Set.Icc (0 : K) 1,
    AffineMap.lineMap p₁ p₂ s = AffineMap.lineMap q₁ q₂ t

omit [IsStrictOrderedRing K] in
theorem Meets.symm {p₁ p₂ q₁ q₂ : K × K} (meets : Meets p₁ p₂ q₁ q₂) : Meets q₁ q₂ p₁ p₂ := by
  obtain ⟨s, inFirst, t, inSecond, same⟩ := meets
  exact ⟨t, inSecond, s, inFirst, same.symm⟩

/-- The point lies on the segment. -/
def OnSegment (point start finish : K × K) : Prop :=
  ∃ s ∈ Set.Icc (0 : K) 1, AffineMap.lineMap start finish s = point

/-- A shared end is a shared point. -/
theorem meets_of_start {p₁ p₂ q₁ q₂ : K × K} (on : OnSegment q₁ p₁ p₂) : Meets p₁ p₂ q₁ q₂ := by
  obtain ⟨s, within, same⟩ := on
  exact ⟨s, within, 0, ⟨le_rfl, zero_le_one⟩, by simpa using same⟩

theorem meets_of_finish {p₁ p₂ q₁ q₂ : K × K} (on : OnSegment q₂ p₁ p₂) : Meets p₁ p₂ q₁ q₂ := by
  obtain ⟨s, within, same⟩ := on
  exact ⟨s, within, 1, ⟨zero_le_one, le_rfl⟩, by simpa using same⟩

omit [LinearOrder K] [IsStrictOrderedRing K] in
/-- The point shared by the lines of two segments, by their cross products. -/
theorem lineMap_eq_iff (p₁ p₂ q₁ q₂ : K × K) (s t : K) :
    AffineMap.lineMap p₁ p₂ s = AffineMap.lineMap q₁ q₂ t ↔
      s • (p₂ - p₁) - t • (q₂ - q₁) = q₁ - p₁ := by
  simp only [lineMap_eq, Prod.ext_iff, Prod.fst_sub, Prod.snd_sub, Prod.smul_fst, Prod.smul_snd,
    smul_eq_mul]
  constructor
  · intro ⟨first, second⟩
    constructor
    · linear_combination first
    · linear_combination second
  · intro ⟨first, second⟩
    constructor
    · linear_combination first
    · linear_combination second

/-- Two segments that are not parallel meet when each line cuts the other segment. -/
theorem meets_iff_of_cross_ne {p₁ p₂ q₁ q₂ : K × K}
    (crossing : cross (p₂ - p₁) (q₂ - q₁) ≠ 0) :
    Meets p₁ p₂ q₁ q₂ ↔
      cross (q₂ - q₁) (p₁ - q₁) / cross (p₂ - p₁) (q₂ - q₁) ∈ Set.Icc (0 : K) 1 ∧
        -cross (p₂ - p₁) (q₁ - p₁) / cross (p₂ - p₁) (q₂ - q₁) ∈ Set.Icc (0 : K) 1 := by
  have solved : ∀ s t : K, s • (p₂ - p₁) - t • (q₂ - q₁) = q₁ - p₁ ↔
      s = cross (q₂ - q₁) (p₁ - q₁) / cross (p₂ - p₁) (q₂ - q₁) ∧
        t = -cross (p₂ - p₁) (q₁ - p₁) / cross (p₂ - p₁) (q₂ - q₁) := by
    intro s t
    rw [eq_div_iff crossing, eq_div_iff crossing, Prod.ext_iff]
    simp only [cross, Prod.fst_sub, Prod.snd_sub, Prod.smul_fst, Prod.smul_snd, smul_eq_mul]
      at crossing ⊢
    constructor
    · intro ⟨first, second⟩
      constructor
      · linear_combination (q₂.2 - q₁.2) * first - (q₂.1 - q₁.1) * second
      · linear_combination (p₂.2 - p₁.2) * first - (p₂.1 - p₁.1) * second
    · intro ⟨first, second⟩
      constructor
      · apply mul_left_cancel₀ crossing
        linear_combination (p₂.1 - p₁.1) * first - (q₂.1 - q₁.1) * second
      · apply mul_left_cancel₀ crossing
        linear_combination (p₂.2 - p₁.2) * first - (q₂.2 - q₁.2) * second
  constructor
  · intro ⟨s, inFirst, t, inSecond, same⟩
    obtain ⟨rfl, rfl⟩ := (solved s t).mp ((lineMap_eq_iff ..).mp same)
    exact ⟨inFirst, inSecond⟩
  · intro ⟨inFirst, inSecond⟩
    exact ⟨_, inFirst, _, inSecond, (lineMap_eq_iff ..).mpr ((solved _ _).mpr ⟨rfl, rfl⟩)⟩

/-- A point of a line is between two others when its fraction is between 0 and 1. -/
theorem between_of_mem_Icc {a b t : K} (within : t ∈ Set.Icc (0 : K) 1) :
    min a b ≤ a + t * (b - a) ∧ a + t * (b - a) ≤ max a b := by
  obtain ⟨low, high⟩ := within
  rcases le_total a b with up | down
  · rw [min_eq_left up, max_eq_right up]
    constructor <;> nlinarith
  · rw [min_eq_right down, max_eq_left down]
    constructor <;> nlinarith

theorem mem_Icc_of_between {a b t : K} (apart : a ≠ b) (low : min a b ≤ a + t * (b - a))
    (high : a + t * (b - a) ≤ max a b) : t ∈ Set.Icc (0 : K) 1 := by
  rcases lt_or_gt_of_ne apart with up | down
  · rw [min_eq_left up.le] at low
    rw [max_eq_right up.le] at high
    have positive : 0 < b - a := sub_pos.mpr up
    constructor
    · by_contra below
      nlinarith
    · by_contra above
      nlinarith
  · rw [min_eq_right down.le] at low
    rw [max_eq_left down.le] at high
    have negative : 0 < a - b := sub_pos.mpr down
    constructor
    · by_contra below
      nlinarith
    · by_contra above
      nlinarith

/-- A point lies on a segment when it is collinear and lies in the segment's box. -/
theorem onSegment_iff {point start finish : K × K} (apart : start ≠ finish) :
    OnSegment point start finish ↔
      cross (finish - start) (point - start) = 0 ∧
        (min start.1 finish.1 ≤ point.1 ∧ point.1 ≤ max start.1 finish.1) ∧
          min start.2 finish.2 ≤ point.2 ∧ point.2 ≤ max start.2 finish.2 := by
  constructor
  · intro ⟨s, within, same⟩
    rw [← same, lineMap_eq]
    refine ⟨?_, between_of_mem_Icc within, between_of_mem_Icc within⟩
    unfold cross
    simp only [Prod.fst_sub, Prod.snd_sub]
    ring
  · intro ⟨collinear, ⟨lowFirst, highFirst⟩, lowSecond, highSecond⟩
    have multiple := eq_smul_of_cross_eq_zero (sub_ne_zero.mpr apart.symm) collinear
    set t := dot (finish - start) (point - start) / dot (finish - start) (finish - start)
    have first : point.1 = start.1 + t * (finish.1 - start.1) := by
      have part := congrArg Prod.fst multiple
      simp only [Prod.fst_sub, Prod.smul_fst, smul_eq_mul] at part
      linear_combination part
    have second : point.2 = start.2 + t * (finish.2 - start.2) := by
      have part := congrArg Prod.snd multiple
      simp only [Prod.snd_sub, Prod.smul_snd, smul_eq_mul] at part
      linear_combination part
    have within : t ∈ Set.Icc (0 : K) 1 := by
      by_cases same : start.1 = finish.1
      · have different : start.2 ≠ finish.2 := fun also => apart (Prod.ext same also)
        rw [second] at lowSecond highSecond
        exact mem_Icc_of_between different lowSecond highSecond
      · rw [first] at lowFirst highFirst
        exact mem_Icc_of_between same lowFirst highFirst
    refine ⟨t, within, ?_⟩
    rw [lineMap_eq, ← first, ← second]

/-- Two stretches of a line overlap at an end of the second, or at the start of the first. -/
theorem overlap_cases {a b s t : K} (inFirst : s ∈ Set.Icc (0 : K) 1)
    (inSecond : t ∈ Set.Icc (0 : K) 1) (apart : b ≠ 0) (same : s = a + t * b) :
    a ∈ Set.Icc (0 : K) 1 ∨ a + b ∈ Set.Icc (0 : K) 1 ∨ -a / b ∈ Set.Icc (0 : K) 1 := by
  obtain ⟨low, high⟩ := inFirst
  obtain ⟨start, finish⟩ := inSecond
  rcases lt_or_gt_of_ne apart with down | up
  · have before : a + b ≤ s := by nlinarith
    have after : s ≤ a := by nlinarith
    by_cases inside : 0 ≤ a + b
    · exact .inr (.inl ⟨inside, before.trans high⟩)
    · refine .inr (.inr ⟨div_nonneg_of_nonpos (by linarith) down.le, ?_⟩)
      rw [div_le_one_of_neg down]
      linarith
  · have before : a ≤ s := by nlinarith
    have after : s ≤ a + b := by nlinarith
    by_cases inside : 0 ≤ a
    · exact .inl ⟨inside, before.trans high⟩
    · refine .inr (.inr ⟨div_nonneg (by linarith) up.le, ?_⟩)
      rw [div_le_one up]
      linarith

/-- Two segments of one direction that meet do so at an end. -/
theorem onSegment_of_parallel {p₁ p₂ q₁ q₂ : K × K} (apart : p₁ ≠ p₂) (other : q₁ ≠ q₂)
    (parallel : cross (p₂ - p₁) (q₂ - q₁) = 0) (meets : Meets p₁ p₂ q₁ q₂) :
    OnSegment q₁ p₁ p₂ ∨ OnSegment q₂ p₁ p₂ ∨ OnSegment p₁ q₁ q₂ := by
  have multiple := eq_smul_of_cross_eq_zero (sub_ne_zero.mpr apart.symm) parallel
  set b := dot (p₂ - p₁) (q₂ - q₁) / dot (p₂ - p₁) (p₂ - p₁)
  have nonzero : b ≠ 0 := by
    intro zero
    rw [zero, zero_smul] at multiple
    exact other (sub_eq_zero.mp multiple).symm
  obtain ⟨s, inFirst, t, inSecond, same⟩ := meets
  rw [lineMap_eq_iff, multiple, smul_smul, ← sub_smul] at same
  have first : q₁ = AffineMap.lineMap p₁ p₂ (s - t * b) := by
    rw [AffineMap.lineMap_apply, vsub_eq_sub, vadd_eq_add, same, sub_add_cancel]
  have second : q₂ = AffineMap.lineMap p₁ p₂ (s - t * b + b) := by
    rw [AffineMap.lineMap_apply, vsub_eq_sub, vadd_eq_add, add_smul, same, ← multiple]
    abel
  rcases overlap_cases inFirst inSecond nonzero (sub_add_cancel s (t * b)).symm with
    start | finish | inside
  · exact .inl ⟨_, start, first.symm⟩
  · exact .inr (.inl ⟨_, finish, second.symm⟩)
  · refine .inr (.inr ⟨_, inside, ?_⟩)
    rw [AffineMap.lineMap_apply, vsub_eq_sub, vadd_eq_add, multiple, smul_smul,
      div_mul_cancel₀ _ nonzero, neg_smul, same]
    abel

/-! ### Edges that fold -/

/-- The edge from `b` goes back over the edge that leads to it. -/
def Folds (a b c : K × K) : Prop :=
  ∃ s ∈ Set.Ico (0 : K) 1, ∃ t ∈ Set.Ioc (0 : K) 1,
    AffineMap.lineMap a b s = AffineMap.lineMap b c t

omit [LinearOrder K] [IsStrictOrderedRing K] in
/-- A shared point of two edges, seen from the corner between them. -/
theorem lineMap_eq_lineMap_iff (a b c : K × K) (s t : K) :
    AffineMap.lineMap a b s = AffineMap.lineMap b c t ↔ (1 - s) • (a - b) = t • (c - b) := by
  simp only [lineMap_eq, Prod.ext_iff, Prod.fst_sub, Prod.snd_sub, Prod.smul_fst, Prod.smul_snd,
    smul_eq_mul]
  constructor
  · intro ⟨first, second⟩
    constructor
    · linear_combination first
    · linear_combination second
  · intro ⟨first, second⟩
    constructor
    · linear_combination first
    · linear_combination second

/-- Edges fold when they have one direction, backwards. -/
theorem folds_iff {a b c : K × K} (incoming : a ≠ b) (outgoing : b ≠ c) :
    Folds a b c ↔ cross (a - b) (c - b) = 0 ∧ 0 < dot (a - b) (c - b) := by
  constructor
  · intro ⟨s, ⟨_, s_lt⟩, t, ⟨t_pos, _⟩, same⟩
    rw [lineMap_eq_lineMap_iff] at same
    have s_pos : 0 < 1 - s := sub_pos.mpr s_lt
    have size := dot_self_pos (sub_ne_zero.mpr outgoing.symm)
    have first := congrArg Prod.fst same
    have second := congrArg Prod.snd same
    simp only [Prod.smul_fst, Prod.smul_snd, smul_eq_mul] at first second
    constructor
    · apply mul_left_cancel₀ s_pos.ne'
      unfold cross
      linear_combination (c - b).2 * first - (c - b).1 * second
    · have scaled : (1 - s) * dot (a - b) (c - b) = t * dot (c - b) (c - b) := by
        unfold dot
        linear_combination (c - b).1 * first + (c - b).2 * second
      have positive : 0 < (1 - s) * dot (a - b) (c - b) := scaled ▸ mul_pos t_pos size
      exact pos_of_mul_pos_right positive s_pos.le
  · intro ⟨parallel, forward⟩
    have size := dot_self_pos (sub_ne_zero.mpr incoming)
    have multiple := eq_smul_of_cross_eq_zero (sub_ne_zero.mpr incoming) parallel
    set r := dot (a - b) (c - b) / dot (a - b) (a - b)
    have positive : 0 < r := div_pos forward size
    by_cases short : r ≤ 1
    · refine ⟨1 - r, ⟨by linarith, by linarith⟩, 1, ⟨zero_lt_one, le_rfl⟩, ?_⟩
      rw [lineMap_eq_lineMap_iff, sub_sub_cancel, one_smul]
      exact multiple.symm
    · have inverse : r⁻¹ ≤ 1 := inv_le_one_of_one_le₀ (by linarith)
      refine ⟨0, ⟨le_rfl, zero_lt_one⟩, r⁻¹, ⟨inv_pos.mpr positive, inverse⟩, ?_⟩
      rw [lineMap_eq_lineMap_iff, multiple, smul_smul, inv_mul_cancel₀ positive.ne', sub_zero]

/-! ### Closed curves -/

section Curve

variable (corners : ℕ → K × K)

/-- The point a fraction of the way along an edge. -/
def edge (i : ℕ) (t : K) : K × K :=
  AffineMap.lineMap (corners i) (corners (i + 1)) t

/-- The closed polygonal curve through the corners: edge after edge, each in a
time of one. -/
def curve [FloorRing K] (t : K) : K × K :=
  edge corners ⌊t⌋₊ (Int.fract t)

variable {corners} {n : ℕ}

omit [LinearOrder K] [IsStrictOrderedRing K] in
@[simp] theorem edge_zero (i : ℕ) : edge corners i 0 = corners i :=
  AffineMap.lineMap_apply_zero _ _

omit [LinearOrder K] [IsStrictOrderedRing K] in
@[simp] theorem edge_one (i : ℕ) : edge corners i 1 = corners (i + 1) :=
  AffineMap.lineMap_apply_one _ _

/-- A point of the curve is an edge and a fraction of it. -/
theorem injOn_curve_iff_edges [FloorRing K] :
    Set.InjOn (curve corners) (Set.Ico 0 (n : K)) ↔
      ∀ i < n, ∀ j < n, ∀ s ∈ Set.Ico (0 : K) 1, ∀ t ∈ Set.Ico (0 : K) 1,
        edge corners i s = edge corners j t → i = j ∧ s = t := by
  constructor
  · intro injective i i_lt j j_lt s s_in t t_in same
    have point : ∀ k < n, ∀ r ∈ Set.Ico (0 : K) 1,
        (k : K) + r ∈ Set.Ico (0 : K) n ∧ ⌊(k : K) + r⌋₊ = k ∧ Int.fract ((k : K) + r) = r := by
      intro k k_lt r ⟨r_nonneg, r_lt⟩
      have next : (k : K) + 1 ≤ n := by exact_mod_cast k_lt
      have nonneg : (0 : K) ≤ k := Nat.cast_nonneg k
      refine ⟨⟨by linarith, by linarith⟩, ?_, ?_⟩
      · rw [Nat.floor_eq_iff (by linarith)]
        exact ⟨by linarith, by linarith⟩
      · rw [Int.fract_natCast_add, Int.fract_eq_self.mpr ⟨r_nonneg, r_lt⟩]
    obtain ⟨first, firstEdge, firstPart⟩ := point i i_lt s s_in
    obtain ⟨second, secondEdge, secondPart⟩ := point j j_lt t t_in
    have equal : (i : K) + s = j + t := by
      apply injective first second
      unfold curve
      rw [firstEdge, firstPart, secondEdge, secondPart, same]
    constructor
    · rw [← firstEdge, ← secondEdge, equal]
    · rw [← firstPart, ← secondPart, equal]
  · intro apart x ⟨x_nonneg, x_lt⟩ y ⟨y_nonneg, y_lt⟩ same
    have part : ∀ r : K, Int.fract r ∈ Set.Ico (0 : K) 1 :=
      fun r => ⟨Int.fract_nonneg r, Int.fract_lt_one r⟩
    obtain ⟨sameEdge, samePart⟩ := apart _ ((Nat.floor_lt x_nonneg).mpr x_lt) _
      ((Nat.floor_lt y_nonneg).mpr y_lt) _ (part x) _ (part y) same
    rw [← Int.floor_add_fract x, ← Int.floor_add_fract y, samePart,
      ← Int.natCast_floor_eq_floor x_nonneg, ← Int.natCast_floor_eq_floor y_nonneg, sameEdge]

/-- The edge before a corner, and the edge after it. -/
theorem pred_mod {i : ℕ} (i_lt : i < n) :
    (i + n - 1) % n = if i = 0 then n - 1 else i - 1 := by
  by_cases first : i = 0
  · rw [if_pos first, first, Nat.zero_add]
    exact Nat.mod_eq_of_lt (by omega)
  · rw [if_neg first, show i + n - 1 = i - 1 + n by omega, Nat.add_mod_right]
    exact Nat.mod_eq_of_lt (by omega)

theorem succ_mod {i : ℕ} (i_lt : i < n) :
    (i + 1) % n = if i + 1 = n then 0 else i + 1 := by
  by_cases last : i + 1 = n
  · rw [if_pos last, last, Nat.mod_self]
  · rw [if_neg last]
    exact Nat.mod_eq_of_lt (by omega)

omit [LinearOrder K] [IsStrictOrderedRing K] in
theorem edge_mod (period : Function.Periodic corners n) (i : ℕ) (t : K) :
    edge corners (i % n) t = edge corners i t := by
  have shifted : corners (i % n + 1) = corners (i + 1) := by
    rw [← period.map_mod_nat (i % n + 1), Nat.mod_add_mod, period.map_mod_nat]
  unfold edge
  rw [period.map_mod_nat, shifted]

omit [LinearOrder K] [IsStrictOrderedRing K] in
/-- The end of an edge is the start of the next. -/
theorem edge_one_eq (period : Function.Periodic corners n) (i : ℕ) :
    edge corners i 1 = edge corners ((i + 1) % n) 0 := by
  rw [edge_mod period, edge_one, edge_zero]

/-- A point of an edge is on the curve, on the edge or at the start of the next. -/
theorem exists_place (period : Function.Periodic corners n) {i : ℕ} (i_lt : i < n) {s : K}
    (s_in : s ∈ Set.Icc (0 : K) 1) :
    ∃ k, ∃ r ∈ Set.Ico (0 : K) 1, k < n ∧ edge corners i s = edge corners k r ∧
      ((k = i ∧ s < 1) ∨ (k = (i + 1) % n ∧ s = 1)) := by
  rcases lt_or_eq_of_le s_in.2 with inside | atEnd
  · exact ⟨i, s, ⟨s_in.1, inside⟩, i_lt, rfl, .inl ⟨rfl, inside⟩⟩
  · refine ⟨(i + 1) % n, 0, ⟨le_rfl, zero_lt_one⟩, Nat.mod_lt _ (by omega), ?_, .inr ⟨rfl, atEnd⟩⟩
    rw [atEnd, edge_one_eq period]

/-- A fold leaves the curve twice through one point. -/
theorem not_injective_of_folds (period : Function.Periodic corners n) (three : 3 ≤ n)
    (injective : ∀ i < n, ∀ j < n, ∀ s ∈ Set.Ico (0 : K) 1, ∀ t ∈ Set.Ico (0 : K) 1,
      edge corners i s = edge corners j t → i = j ∧ s = t) {i : ℕ} (i_lt : i < n) :
    ¬Folds (corners (i + n - 1)) (corners i) (corners (i + 1)) := by
  intro ⟨s, s_in, t, t_in, same⟩
  have before : corners (i + n - 1 + 1) = corners i := by
    rw [show i + n - 1 + 1 = i + n by omega]
    exact period i
  rw [← before] at same
  obtain ⟨k, r, r_in, k_lt, place, cases⟩ :=
    exists_place period i_lt (s := t) ⟨t_in.1.le, t_in.2⟩
  have incoming : edge corners ((i + n - 1) % n) s = edge corners k r := by
    rw [edge_mod period, ← place]
    unfold edge
    rw [same, before]
  have one := (injective _ (Nat.mod_lt _ (by omega)) k k_lt s s_in r r_in incoming).1
  rw [pred_mod i_lt] at one
  rw [succ_mod i_lt] at cases
  obtain ⟨rfl, -⟩ | ⟨rfl, -⟩ := cases
  · split at one <;> omega
  · split at one <;> split at one <;> omega

/-- Edges that do not follow each other meet at two times. -/
theorem not_injective_of_meets (period : Function.Periodic corners n)
    (injective : ∀ i < n, ∀ j < n, ∀ s ∈ Set.Ico (0 : K) 1, ∀ t ∈ Set.Ico (0 : K) 1,
      edge corners i s = edge corners j t → i = j ∧ s = t) {i j : ℕ} (apart : i + 2 ≤ j)
    (j_lt : j < n) (notEnds : ¬(i = 0 ∧ j = n - 1)) :
    ¬Meets (corners i) (corners (i + 1)) (corners j) (corners (j + 1)) := by
  intro ⟨s, s_in, t, t_in, same⟩
  have i_lt : i < n := by omega
  obtain ⟨k, r, r_in, k_lt, place, first⟩ := exists_place period i_lt s_in
  obtain ⟨l, u, u_in, l_lt, place', second⟩ := exists_place period j_lt t_in
  have one := (injective k k_lt l l_lt r r_in u u_in (place ▸ place' ▸ same)).1
  rw [succ_mod i_lt] at first
  rw [succ_mod j_lt] at second
  obtain ⟨rfl, -⟩ | ⟨rfl, -⟩ := first
  · obtain ⟨rfl, -⟩ | ⟨rfl, -⟩ := second
    · omega
    · split at one <;> omega
  · obtain ⟨rfl, -⟩ | ⟨rfl, -⟩ := second
    · split at one <;> omega
    · split at one <;> split at one <;> omega

omit [IsStrictOrderedRing K] in
/-- Two times at one point: the curve folds or two edges meet. -/
theorem edge_ne_of_simple (period : Function.Periodic corners n) (three : 3 ≤ n)
    (distinct : ∀ i, corners i ≠ corners (i + 1))
    (noFold : ∀ i < n, ¬Folds (corners (i + n - 1)) (corners i) (corners (i + 1)))
    (noMeet : ∀ i j, i + 2 ≤ j → j < n → ¬(i = 0 ∧ j = n - 1) →
      ¬Meets (corners i) (corners (i + 1)) (corners j) (corners (j + 1)))
    {i j : ℕ} (ordered : i < j) (j_lt : j < n) {s t : K} (s_in : s ∈ Set.Ico (0 : K) 1)
    (t_in : t ∈ Set.Ico (0 : K) 1) : edge corners i s ≠ edge corners j t := by
  have follows : ∀ k u v, u ∈ Set.Ico (0 : K) 1 → v ∈ Set.Ico (0 : K) 1 →
      ¬Folds (corners k) (corners (k + 1)) (corners (k + 2)) →
        edge corners k u ≠ edge corners (k + 1) v := by
    intro k u v u_in v_in unfolded same
    by_cases start : v = 0
    · have finish : edge corners k 1 = corners (k + 1) := edge_one k
      rw [start, edge_zero, ← finish] at same
      exact u_in.2.ne (lineMap_injective (distinct k) same)
    · exact unfolded ⟨u, u_in, v, ⟨lt_of_le_of_ne v_in.1 (Ne.symm start), v_in.2.le⟩, same⟩
  intro same
  by_cases next : j = i + 1
  · subst next
    apply follows i s t s_in t_in _ same
    have unfolded := noFold (i + 1) j_lt
    rwa [show i + 1 + n - 1 = i + n by omega, period i] at unfolded
  · by_cases ends : i = 0 ∧ j = n - 1
    · obtain ⟨rfl, rfl⟩ := ends
      have around : edge corners (n - 1 + 1) s = edge corners 0 s := by
        rw [← edge_mod period, show n - 1 + 1 = n by omega, Nat.mod_self]
      apply follows (n - 1) t s t_in s_in _ (around.trans same).symm
      have unfolded := noFold 0 (by omega)
      have first : corners (n - 1 + 1) = corners 0 := by
        rw [show n - 1 + 1 = 0 + n by omega]
        exact period 0
      have second : corners (n - 1 + 2) = corners 1 := by
        rw [show n - 1 + 2 = 1 + n by omega]
        exact period 1
      rwa [first, second, ← Nat.zero_add n]
    · exact noMeet i j (by omega) j_lt ends
        ⟨s, ⟨s_in.1, s_in.2.le⟩, t, ⟨t_in.1, t_in.2.le⟩, same⟩

/-- The curve through three corners or more is injective when no corner folds back
and no two edges meet that do not follow each other. -/
theorem injOn_curve_iff [FloorRing K] (period : Function.Periodic corners n) (three : 3 ≤ n)
    (distinct : ∀ i, corners i ≠ corners (i + 1)) :
    Set.InjOn (curve corners) (Set.Ico 0 (n : K)) ↔
      (∀ i < n, ¬Folds (corners (i + n - 1)) (corners i) (corners (i + 1))) ∧
        ∀ i j, i + 2 ≤ j → j < n → ¬(i = 0 ∧ j = n - 1) →
          ¬Meets (corners i) (corners (i + 1)) (corners j) (corners (j + 1)) := by
  rw [injOn_curve_iff_edges]
  constructor
  · intro injective
    exact ⟨fun i i_lt => not_injective_of_folds period three injective i_lt,
      fun i j apart j_lt notEnds => not_injective_of_meets period injective apart j_lt notEnds⟩
  · intro ⟨noFold, noMeet⟩ i i_lt j j_lt s s_in t t_in same
    have differ : ∀ {k l : ℕ}, k < l → l < n → ∀ {u v : K}, u ∈ Set.Ico (0 : K) 1 →
        v ∈ Set.Ico (0 : K) 1 → edge corners k u ≠ edge corners l v :=
      edge_ne_of_simple period three distinct noFold noMeet
    rcases lt_trichotomy i j with before | equal | after
    · exact absurd same (differ before j_lt s_in t_in)
    · subst equal
      exact ⟨rfl, lineMap_injective (distinct i) same⟩
    · exact absurd same.symm (differ after i_lt t_in s_in)

end Curve

end Vidit.Library
