import Mathlib.Algebra.Order.Archimedean.Real.Basic
import Mathlib.Data.List.GetD
import Mathlib.Data.Rat.Cast.Order
import Mathlib.Data.Sign.Basic
import Vidit.Library.Polygon

/-!
Contract: the check of a site's contour before it is sent.

Owns:
- `zoneSelfIntersects`, with the tests it is made of;
- that it refuses exactly the contours that are not simple polygons
  (`zoneSelfIntersects_eq_false_iff`).

Coordinates are exact: the numbers of the page are rationals here, and the curve
of a contour runs through the reals.

Proof shape: each test is matched to its fact of the plane (`segmentsTouch_iff`,
`foldsBack_iff`). No two corners in a row of a ring are equal
(`ring_distinct`), which both need.
-/

namespace Vidit.Sites.ContourCheck

open Vidit.Library

/-! ### The check -/

section Check

variable {K : Type} [Field K] [LinearOrder K]

/-- `Position`. -/
abbrev Position (K : Type) : Type := K × K

/-- `MIN_ZONE_VERTICES`. -/
def minZoneVertices : Nat := 3

def orientation (a b c : Position K) : SignType :=
  SignType.sign ((b.1 - a.1) * (c.2 - a.2) - (b.2 - a.2) * (c.1 - a.1))

/-- The point lies in the box of the segment. -/
def onSegment (p a b : Position K) : Bool :=
  decide (min a.1 b.1 ≤ p.1) && decide (p.1 ≤ max a.1 b.1) && decide (min a.2 b.2 ≤ p.2) &&
    decide (p.2 ≤ max a.2 b.2)

def segmentsTouch (p1 p2 q1 q2 : Position K) : Bool :=
  let o1 := orientation p1 p2 q1
  let o2 := orientation p1 p2 q2
  let o3 := orientation q1 q2 p1
  let o4 := orientation q1 q2 p2
  if o1 ≠ o2 ∧ o3 ≠ o4 then true
  else
    (decide (o1 = 0) && onSegment q1 p1 p2) || (decide (o2 = 0) && onSegment q2 p1 p2) ||
      (decide (o3 = 0) && onSegment p1 q1 q2) || (decide (o4 = 0) && onSegment p2 q1 q2)

def foldsBack (a b c : Position K) : Bool :=
  if orientation a b c ≠ 0 then false
  else 0 < (a.1 - b.1) * (c.1 - b.1) + (a.2 - b.2) * (c.2 - b.2)

/-- The corner at an index, around the ring. -/
def cornerAt (ring : List (Position K)) (i : Nat) : Position K :=
  ring.getD (i % ring.length) 0

/-- The test of `ring`: the corner differs from the one before it. -/
def isKept (vertices : List (Position K)) (v : Position K) (i : Nat) : Bool :=
  let previous := cornerAt vertices (i + vertices.length - 1)
  decide (vertices.length = 1) || decide (v.1 ≠ previous.1) || decide (v.2 ≠ previous.2)

/-- `ring`: a corner repeated in a row counts once. -/
def ringOf (vertices : List (Position K)) : List (Position K) :=
  (vertices.zipIdx.filter fun entry => isKept vertices entry.1 entry.2).map Prod.fst

def zoneSelfIntersects (vertices : List (Position K)) : Bool :=
  let ring := ringOf vertices
  let n := ring.length
  if n < minZoneVertices then minZoneVertices ≤ vertices.length
  else
    ((List.range n).any fun i =>
      foldsBack (cornerAt ring (i + n - 1)) (cornerAt ring i) (cornerAt ring (i + 1))) ||
    (List.range n).any fun i => (List.range n).any fun j =>
      decide (i + 2 ≤ j) && !decide (i = 0 ∧ j = n - 1) &&
        segmentsTouch (cornerAt ring i) (cornerAt ring (i + 1)) (cornerAt ring j)
          (cornerAt ring (j + 1))

end Check

/-! ### What the tests say of the plane -/

section Plane

variable {K : Type} [Field K] [LinearOrder K] [IsStrictOrderedRing K]

omit [IsStrictOrderedRing K] in
theorem orientation_eq (a b c : Position K) :
    orientation a b c = SignType.sign (cross (b - a) (c - a)) :=
  rfl

omit [IsStrictOrderedRing K] in
/-- Two values that differ have one sign when both are on one side of zero. -/
theorem sign_eq_iff {x y : K} (apart : x ≠ y) :
    SignType.sign x = SignType.sign y ↔ (x < 0 ∧ y < 0) ∨ (0 < x ∧ 0 < y) := by
  rcases lt_trichotomy x 0 with xNeg | rfl | xPos
  · rcases lt_trichotomy y 0 with yNeg | rfl | yPos
    · simp [sign_neg xNeg, sign_neg yNeg, xNeg, yNeg]
    · simp [sign_neg xNeg]
    · simp [sign_neg xNeg, sign_pos yPos, xNeg.not_gt, yPos.not_gt]
  · rcases lt_trichotomy y 0 with yNeg | rfl | yPos
    · simp [sign_neg yNeg]
    · exact absurd rfl apart
    · simp [sign_pos yPos]
  · rcases lt_trichotomy y 0 with yNeg | rfl | yPos
    · simp [sign_pos xPos, sign_neg yNeg, xPos.not_gt, yNeg.not_gt]
    · simp [sign_pos xPos]
    · simp [sign_pos xPos, sign_pos yPos, xPos, yPos]

/-- Two values lie on both sides of zero when zero is between them. -/
theorem sign_ne_iff {x y d : K} (apart : d ≠ 0) (difference : x - y = d) :
    SignType.sign x ≠ SignType.sign y ↔ x / d ∈ Set.Icc (0 : K) 1 := by
  have differ : x ≠ y := fun same => apart (by rw [← difference, same, sub_self])
  rw [ne_eq, sign_eq_iff differ, Set.mem_Icc, not_or, not_and_or, not_and_or, not_lt, not_lt,
    not_lt, not_lt]
  rcases lt_or_gt_of_ne apart with down | up
  · rw [div_le_one_of_neg down, le_div_iff_of_neg down, zero_mul]
    constructor
    · intro ⟨notBelow, notAbove⟩
      constructor
      · rcases notAbove with low | low <;> linarith
      · rcases notBelow with high | high <;> linarith
    · intro ⟨low, high⟩
      exact ⟨.inr (by linarith), .inl low⟩
  · rw [div_le_one up, le_div_iff₀ up, zero_mul]
    constructor
    · intro ⟨notBelow, notAbove⟩
      constructor
      · rcases notBelow with low | low <;> linarith
      · rcases notAbove with high | high <;> linarith
    · intro ⟨low, high⟩
      exact ⟨.inl low, .inr (by linarith)⟩

theorem onSegment_eq_true_iff {p a b : Position K} (apart : a ≠ b) :
    (decide (orientation a b p = 0) && onSegment p a b) = true ↔ OnSegment p a b := by
  rw [onSegment_iff apart, orientation_eq]
  simp [onSegment, and_assoc]

/-- Two segments touch when they share a point. -/
theorem segmentsTouch_iff {p1 p2 q1 q2 : Position K} (first : p1 ≠ p2) (second : q1 ≠ q2) :
    segmentsTouch p1 p2 q1 q2 = true ↔ Meets p1 p2 q1 q2 := by
  have atEnd : ((decide (orientation p1 p2 q1 = 0) && onSegment q1 p1 p2) ||
      (decide (orientation p1 p2 q2 = 0) && onSegment q2 p1 p2) ||
      (decide (orientation q1 q2 p1 = 0) && onSegment p1 q1 q2) ||
      (decide (orientation q1 q2 p2 = 0) && onSegment p2 q1 q2)) = true ↔
        OnSegment q1 p1 p2 ∨ OnSegment q2 p1 p2 ∨ OnSegment p1 q1 q2 ∨ OnSegment p2 q1 q2 := by
    rw [Bool.or_eq_true, Bool.or_eq_true, Bool.or_eq_true, onSegment_eq_true_iff first,
      onSegment_eq_true_iff first, onSegment_eq_true_iff second, onSegment_eq_true_iff second]
    tauto
  have shared : OnSegment q1 p1 p2 ∨ OnSegment q2 p1 p2 ∨ OnSegment p1 q1 q2 ∨
      OnSegment p2 q1 q2 → Meets p1 p2 q1 q2 := by
    rintro (on | on | on | on)
    · exact meets_of_start on
    · exact meets_of_finish on
    · exact (meets_of_start on).symm
    · exact (meets_of_finish on).symm
  set d := cross (p2 - p1) (q2 - q1) with isCross
  have acrossFirst : -cross (p2 - p1) (q1 - p1) - -cross (p2 - p1) (q2 - p1) = d := by
    rw [isCross]
    unfold cross
    simp only [Prod.fst_sub, Prod.snd_sub]
    ring
  have acrossSecond : cross (q2 - q1) (p1 - q1) - cross (q2 - q1) (p2 - q1) = d := by
    rw [isCross]
    unfold cross
    simp only [Prod.fst_sub, Prod.snd_sub]
    ring
  unfold segmentsTouch
  by_cases parallel : d = 0
  · have sameSide : orientation p1 p2 q1 = orientation p1 p2 q2 := by
      rw [parallel, sub_eq_zero, neg_inj] at acrossFirst
      rw [orientation_eq, orientation_eq, acrossFirst]
    rw [if_neg (fun sides => sides.1 sameSide), atEnd]
    constructor
    · exact shared
    · intro meets
      rcases onSegment_of_parallel first second (isCross ▸ parallel) meets with on | on | on
      · exact .inl on
      · exact .inr (.inl on)
      · exact .inr (.inr (.inl on))
  · have sides : (orientation p1 p2 q1 ≠ orientation p1 p2 q2 ∧
        orientation q1 q2 p1 ≠ orientation q1 q2 p2) ↔ Meets p1 p2 q1 q2 := by
      rw [meets_iff_of_cross_ne parallel, ← sign_ne_iff parallel acrossFirst,
        ← sign_ne_iff parallel acrossSecond, orientation_eq, orientation_eq, orientation_eq,
        orientation_eq, Left.sign_neg, Left.sign_neg, neg_injective.ne_iff]
      exact And.comm
    by_cases cut : orientation p1 p2 q1 ≠ orientation p1 p2 q2 ∧
        orientation q1 q2 p1 ≠ orientation q1 q2 p2
    · rw [if_pos cut]
      exact iff_of_true rfl (sides.mp cut)
    · rw [if_neg cut, atEnd]
      exact iff_of_false (fun on => cut (sides.mpr (shared on))) (fun meets => cut (sides.mpr meets))

/-- Two edges fold back when they share more than their corner. -/
theorem foldsBack_iff {a b c : Position K} (incoming : a ≠ b) (outgoing : b ≠ c) :
    foldsBack a b c = true ↔ Folds a b c := by
  have turned : cross (b - a) (c - a) = -cross (a - b) (c - b) := by
    unfold cross
    simp only [Prod.fst_sub, Prod.snd_sub]
    ring
  rw [folds_iff incoming outgoing]
  unfold foldsBack
  rw [orientation_eq, turned]
  by_cases straight : cross (a - b) (c - b) = 0
  · rw [straight]
    simp [dot]
  · simp [straight]

end Plane

/-! ### The ring -/

section Ring

variable {K : Type} [Field K] [LinearOrder K]

/-- The elements that differ from the one before, read from a first one on. -/
def keptFrom (previous : Position K) : List (Position K) → List (Position K)
  | [] => []
  | v :: rest => if v = previous then keptFrom v rest else v :: keptFrom v rest

omit [Field K] in
theorem isChain_keptFrom (previous : Position K) (vertices : List (Position K)) :
    List.IsChain (· ≠ ·) (previous :: keptFrom previous vertices) := by
  induction vertices generalizing previous with
  | nil => exact .singleton _
  | cons v rest inductionHypothesis =>
      unfold keptFrom
      by_cases same : v = previous
      · rw [if_pos same, ← same]
        exact inductionHypothesis v
      · rw [if_neg same]
        exact .cons_cons (Ne.symm same) (inductionHypothesis v)

omit [Field K] in
/-- What is dropped equals what is kept before it, and so does the last element. -/
theorem getLast?_keptFrom (previous : Position K) (vertices : List (Position K)) :
    (previous :: keptFrom previous vertices).getLast? = (previous :: vertices).getLast? := by
  induction vertices generalizing previous with
  | nil => rfl
  | cons v rest inductionHypothesis =>
      unfold keptFrom
      by_cases same : v = previous
      · subst same
        rw [if_pos rfl, inductionHypothesis v, List.getLast?_cons_cons]
      · rw [if_neg same, List.getLast?_cons_cons, inductionHypothesis v, List.getLast?_cons_cons]

omit [LinearOrder K] in
theorem cornerAt_of_lt {ring : List (Position K)} {i : Nat} (small : i < ring.length) :
    cornerAt ring i = ring[i] := by
  unfold cornerAt
  rw [Nat.mod_eq_of_lt small]
  exact List.getD_eq_getElem ring 0 small

omit [LinearOrder K] in
theorem cornerAt_periodic (ring : List (Position K)) :
    Function.Periodic (cornerAt ring) ring.length := by
  intro i
  unfold cornerAt
  rw [Nat.add_mod_right]

/-- The kept corners are those that differ from the one before, the last one before the first. -/
theorem ringOf_eq {vertices : List (Position K)} (many : vertices.length ≠ 1) :
    ringOf vertices = keptFrom (cornerAt vertices (vertices.length - 1)) vertices := by
  have suffix : ∀ rest front previous, vertices = front ++ rest →
      previous = cornerAt vertices (front.length + vertices.length - 1) →
        ((rest.zipIdx front.length).filter fun entry => isKept vertices entry.1 entry.2).map
          Prod.fst = keptFrom previous rest := by
    intro rest
    induction rest with
    | nil =>
        intro front previous _ _
        rfl
    | cons v rest inductionHypothesis =>
        intro front previous split before
        have here : front.length < vertices.length := by
          rw [split, List.length_append, List.length_cons]
          omega
        have own : cornerAt vertices front.length = v := by
          rw [cornerAt_of_lt here]
          simp [split]
        have next : v = cornerAt vertices ((front ++ [v]).length + vertices.length - 1) := by
          rw [List.length_append, List.length_singleton,
            show front.length + 1 + vertices.length - 1 = front.length + vertices.length by omega,
            cornerAt_periodic, own]
        have later := inductionHypothesis (front ++ [v]) v (by rw [split]; simp) next
        rw [List.length_append, List.length_singleton] at later
        rw [List.zipIdx_cons, List.filter_cons]
        unfold keptFrom
        have test : isKept vertices v front.length = true ↔ v ≠ previous := by
          unfold isKept
          rw [← before]
          simp only [many, decide_false, Bool.false_or, Bool.or_eq_true, decide_eq_true_eq, ne_eq,
            Prod.ext_iff, not_and_or]
        by_cases same : v = previous
        · rw [if_neg (fun kept => test.mp kept same), if_pos same]
          exact later
        · rw [if_pos (test.mpr same), if_neg same, List.map_cons, later]
  have whole := suffix vertices [] _ rfl rfl
  rw [List.length_nil, Nat.zero_add] at whole
  exact whole

/-- No corner of a ring equals the next one around it. -/
theorem ring_distinct {vertices : List (Position K)} (many : vertices.length ≠ 1)
    (two : 2 ≤ (ringOf vertices).length) (i : Nat) :
    cornerAt (ringOf vertices) i ≠ cornerAt (ringOf vertices) (i + 1) := by
  have ring := ringOf_eq many
  set first := cornerAt vertices (vertices.length - 1) with isFirst
  have chain := isChain_keptFrom first vertices
  have last := getLast?_keptFrom first vertices
  rw [← ring] at chain last
  set kept := ringOf vertices
  have wraps : kept[kept.length - 1] = first := by
    have nonempty : 0 < vertices.length := by
      rw [List.length_pos_iff]
      intro none
      rw [ring, none] at two
      simp [keptFrom] at two
    have lastKept : (first :: kept).getLast? = some kept[kept.length - 1] := by
      rw [List.getLast?_cons, List.getLast?_eq_getElem?, List.getElem?_eq_getElem (by omega)]
      rfl
    have lastVertex : (first :: vertices).getLast? = some first := by
      rw [List.getLast?_cons, List.getLast?_eq_getElem?, List.getElem?_eq_getElem (by omega),
        Option.getD_some, ← cornerAt_of_lt]
    rw [lastKept, lastVertex] at last
    exact Option.some.inj last
  have consecutive : ∀ k, (next : k + 1 < kept.length) → kept[k] ≠ kept[k + 1] := by
    intro k next
    exact (List.isChain_of_isChain_cons chain).getElem k next
  have around : kept[kept.length - 1] ≠ kept[0] := by
    rw [wraps]
    exact chain.getElem 0 (by rw [List.length_cons]; omega)
  have small : i % kept.length < kept.length := Nat.mod_lt _ (by omega)
  have start : cornerAt kept i = kept[i % kept.length] := by
    rw [← (cornerAt_periodic kept).map_mod_nat, cornerAt_of_lt small]
  rw [start]
  unfold cornerAt
  rw [← Nat.mod_add_mod, succ_mod small]
  generalize i % kept.length = k at small
  by_cases atEnd : k + 1 = kept.length
  · obtain rfl : k = kept.length - 1 := by omega
    rw [if_pos atEnd, List.getD_eq_getElem kept 0 (by omega)]
    exact around
  · rw [if_neg atEnd, List.getD_eq_getElem kept 0 (by omega)]
    exact consecutive k (by omega)

end Ring

/-! ### The check and the curve -/

section Exact

variable {K : Type} [Field K] [LinearOrder K] [IsStrictOrderedRing K]

/-- The curve through the corners of a ring runs through no point twice. -/
def IsSimple [FloorRing K] (ring : List (Position K)) : Prop :=
  3 ≤ ring.length ∧ Set.InjOn (curve (cornerAt ring)) (Set.Ico 0 (ring.length : K))

/-- The check accepts the simple polygons, whatever the field. -/
theorem zoneSelfIntersects_iff [FloorRing K] {vertices : List (Position K)}
    (enough : 3 ≤ vertices.length) :
    zoneSelfIntersects vertices = false ↔ IsSimple (ringOf vertices) := by
  unfold zoneSelfIntersects IsSimple minZoneVertices
  by_cases few : (ringOf vertices).length < 3
  · rw [if_pos few]
    simp [enough, few.not_ge]
  · have three : 3 ≤ (ringOf vertices).length := by omega
    have many : vertices.length ≠ 1 := by omega
    have distinct := ring_distinct many (by omega)
    set ring := ringOf vertices
    have folds : ((List.range ring.length).any fun i => foldsBack (cornerAt ring
        (i + ring.length - 1)) (cornerAt ring i) (cornerAt ring (i + 1))) = false ↔
          ∀ i < ring.length, ¬Folds (cornerAt ring (i + ring.length - 1)) (cornerAt ring i)
            (cornerAt ring (i + 1)) := by
      rw [List.any_eq_false]
      simp only [List.mem_range]
      apply forall₂_congr
      intro i _
      have before := distinct (i + ring.length - 1)
      rw [show i + ring.length - 1 + 1 = i + ring.length by omega, cornerAt_periodic] at before
      rw [foldsBack_iff before (distinct i)]
    have touches : ((List.range ring.length).any fun i => (List.range ring.length).any fun j =>
        decide (i + 2 ≤ j) && !decide (i = 0 ∧ j = ring.length - 1) &&
          segmentsTouch (cornerAt ring i) (cornerAt ring (i + 1)) (cornerAt ring j)
            (cornerAt ring (j + 1))) = false ↔
          ∀ i j, i + 2 ≤ j → j < ring.length → ¬(i = 0 ∧ j = ring.length - 1) →
            ¬Meets (cornerAt ring i) (cornerAt ring (i + 1)) (cornerAt ring j)
              (cornerAt ring (j + 1)) := by
      simp only [List.any_eq_false, List.mem_range, Bool.not_eq_true, Bool.and_eq_true,
        decide_eq_true_eq, Bool.not_eq_true', decide_eq_false_iff_not,
        segmentsTouch_iff (distinct _) (distinct _)]
      constructor
      · intro apart i j later small notEnds meets
        exact apart i (by omega) j small ⟨⟨later, notEnds⟩, meets⟩
      · intro apart i _ j small ⟨⟨later, notEnds⟩, meets⟩
        exact apart i j later small notEnds meets
    rw [if_neg few, injOn_curve_iff (cornerAt_periodic _) three distinct, Bool.or_eq_false_iff,
      folds, touches]
    exact (and_iff_right three).symm

end Exact

/-! ### Rational corners on the real plane -/

/-- A corner with rational coordinates, in the plane. -/
def inPlane (position : Position ℚ) : Position ℝ :=
  (position.1, position.2)

theorem orientation_inPlane (a b c : Position ℚ) :
    orientation (inPlane a) (inPlane b) (inPlane c) = orientation a b c := by
  have cast : ∀ x : ℚ, SignType.sign (x : ℝ) = SignType.sign x := by
    intro x
    rcases lt_trichotomy x 0 with below | rfl | above
    · rw [sign_neg below, sign_neg (by exact_mod_cast below)]
    · simp
    · rw [sign_pos above, sign_pos (by exact_mod_cast above)]
  unfold orientation inPlane
  rw [← cast]
  push_cast
  rfl

theorem onSegment_inPlane (p a b : Position ℚ) :
    onSegment (inPlane p) (inPlane a) (inPlane b) = onSegment p a b := by
  unfold onSegment inPlane
  simp only [← Rat.cast_min, ← Rat.cast_max, Rat.cast_le]

theorem segmentsTouch_inPlane (p1 p2 q1 q2 : Position ℚ) :
    segmentsTouch (inPlane p1) (inPlane p2) (inPlane q1) (inPlane q2) =
      segmentsTouch p1 p2 q1 q2 := by
  unfold segmentsTouch
  simp only [orientation_inPlane, onSegment_inPlane]

theorem foldsBack_inPlane (a b c : Position ℚ) :
    foldsBack (inPlane a) (inPlane b) (inPlane c) = foldsBack a b c := by
  have forward : (0 < ((a.1 : ℝ) - b.1) * (c.1 - b.1) + (a.2 - b.2) * (c.2 - b.2)) ↔
      0 < (a.1 - b.1) * (c.1 - b.1) + (a.2 - b.2) * (c.2 - b.2) := by
    exact_mod_cast Iff.rfl
  unfold foldsBack
  rw [orientation_inPlane]
  simp only [inPlane, forward]

theorem cornerAt_map (ring : List (Position ℚ)) (i : Nat) :
    cornerAt (ring.map inPlane) i = inPlane (cornerAt ring i) := by
  have origin : (0 : Position ℝ) = inPlane 0 := by
    simp only [inPlane, Prod.fst_zero, Prod.snd_zero, Rat.cast_zero]
    rfl
  unfold cornerAt
  rw [List.length_map, origin, List.getD_map]

theorem ringOf_map (vertices : List (Position ℚ)) :
    ringOf (vertices.map inPlane) = (ringOf vertices).map inPlane := by
  have kept : ∀ v i, isKept (vertices.map inPlane) (inPlane v) i = isKept vertices v i := by
    intro v i
    unfold isKept
    simp only [List.length_map, cornerAt_map, inPlane, ne_eq, Rat.cast_inj]
  unfold ringOf
  rw [List.zipIdx_map, List.filter_map, List.map_map, List.map_map]
  have same : ((fun entry : Position ℝ × Nat =>
      isKept (vertices.map inPlane) entry.1 entry.2) ∘ Prod.map inPlane id) =
        fun entry => isKept vertices entry.1 entry.2 :=
    funext fun entry => kept entry.1 entry.2
  rw [same]
  rfl

theorem zoneSelfIntersects_map (vertices : List (Position ℚ)) :
    zoneSelfIntersects (vertices.map inPlane) = zoneSelfIntersects vertices := by
  unfold zoneSelfIntersects
  simp only [ringOf_map, List.length_map, cornerAt_map, segmentsTouch_inPlane, foldsBack_inPlane]

/-- The closed polygonal curve through rational corners is injective. -/
def IsSimplePolygon (ring : List (Position ℚ)) : Prop :=
  3 ≤ ring.length ∧
    Set.InjOn (curve fun i => inPlane (cornerAt ring i)) (Set.Ico 0 (ring.length : ℝ))

/-- The contour is refused exactly when it is not a simple polygon. -/
theorem zoneSelfIntersects_eq_false_iff (vertices : List (Position ℚ))
    (enough : 3 ≤ vertices.length) :
    zoneSelfIntersects vertices = false ↔ IsSimplePolygon (ringOf vertices) := by
  rw [← zoneSelfIntersects_map, zoneSelfIntersects_iff (by rwa [List.length_map]), ringOf_map]
  unfold IsSimple IsSimplePolygon
  rw [List.length_map, funext (cornerAt_map (ringOf vertices))]

/-- A square, one of its corners repeated in a row. -/
theorem isSimplePolygon_square :
    IsSimplePolygon (ringOf [((0, 0) : Position ℚ), (2, 0), (2, 0), (2, 2), (0, 2)]) :=
  (zoneSelfIntersects_eq_false_iff [(0, 0), (2, 0), (2, 0), (2, 2), (0, 2)] (by decide)).mp
    (by decide +kernel)

/-- A corner on an edge that does not end at it. -/
example : zoneSelfIntersects [((0, 0) : Position ℚ), (4, 0), (4, 4), (2, 0), (0, 4)] = true := by
  decide +kernel

end Vidit.Sites.ContourCheck
