import Mathlib.Data.List.Sort
import Mathlib.Data.List.TakeWhile
import Mathlib.Order.Basic

/-!
Contract: the first row of a stable sort by a key, and the last.

Owns:
- that a sort by a key is stable;
- what the first row that passes a test is, in the rows sorted by a key;
- that a row no other comes before is found first where it was listed first;
- what the last row of a sort is, kept by a fold.

Does not own: what the key is of.
-/

namespace Vidit.Library

variable {α κ : Type*} [LinearOrder κ] {rows rest : List α} {row : α} {passes : α → Bool}

/-- The rows by their keys, rows of one key in the order they were listed. -/
def sortedOn (key : α → κ) (rows : List α) : List α :=
  rows.insertionSort fun left right => key left ≤ key right

variable {key : α → κ}

@[simp] theorem mem_sortedOn : row ∈ sortedOn key rows ↔ row ∈ rows :=
  List.mem_insertionSort _

theorem pairwise_sortedOn (key : α → κ) (rows : List α) :
    (sortedOn key rows).Pairwise fun left right => key left ≤ key right := by
  have total : Std.Total fun left right : α => key left ≤ key right :=
    ⟨fun left right => le_total (key left) (key right)⟩
  have trans : IsTrans α fun left right => key left ≤ key right :=
    ⟨fun _ _ _ first second => first.trans second⟩
  exact List.pairwise_insertionSort _ _

/-- Rows of one key stay in the order they were listed. -/
theorem pairwise_sortedOn_stable {Before : α → α → Prop} (listed : rows.Pairwise Before) :
    (sortedOn key rows).Pairwise fun left right =>
      key left < key right ∨ key left = key right ∧ Before left right := by
  induction rows with
  | nil => exact List.Pairwise.nil
  | cons row rest inductionHypothesis =>
      rw [List.pairwise_cons] at listed
      have sorted := inductionHypothesis listed.2
      have ordered := pairwise_sortedOn key rest
      have members : ∀ other ∈ sortedOn key rest, Before row other := by
        intro other member
        exact listed.1 other (mem_sortedOn.mp member)
      unfold sortedOn at sorted ordered members ⊢
      rw [List.insertionSort_cons_eq_take_drop]
      obtain ⟨before, after, taken, dropped⟩ : ∃ before after,
          (rest.insertionSort fun left right => key left ≤ key right).takeWhile
              (fun other => ¬ key row ≤ key other) = before ∧
            (rest.insertionSort fun left right => key left ≤ key right).dropWhile
              (fun other => ¬ key row ≤ key other) = after :=
        ⟨_, _, rfl, rfl⟩
      have whole := List.takeWhile_append_dropWhile
        (p := fun other => decide (¬ key row ≤ key other))
        (l := rest.insertionSort fun left right => key left ≤ key right)
      rw [taken, dropped] at whole ⊢
      rw [← whole] at sorted ordered members
      rw [List.pairwise_append] at sorted ordered ⊢
      have less : ∀ other ∈ before, key other < key row := by
        intro other member
        rw [← taken] at member
        simpa using List.mem_takeWhile_imp member
      have least : ∀ other ∈ after, key row ≤ key other := by
        intro other member
        cases after with
        | nil => cases member
        | cons first later =>
            have stopped : key row ≤ key first := by
              have head := List.head_dropWhile_not
                (fun other => decide (¬ key row ≤ key other)) (l :=
                  rest.insertionSort fun left right => key left ≤ key right)
                (by rw [dropped]; exact List.cons_ne_nil _ _)
              simp only [dropped, List.head_cons] at head
              simpa using head
            rcases List.mem_cons.mp member with rfl | further
            · exact stopped
            · exact stopped.trans ((List.pairwise_cons.mp ordered.2.1).1 other further)
      refine ⟨sorted.1, List.pairwise_cons.mpr ⟨?_, sorted.2.1⟩, ?_⟩
      · intro other member
        rcases (least other member).lt_or_eq with lower | same
        · exact Or.inl lower
        · exact Or.inr ⟨same, members other (List.mem_append_right _ member)⟩
      · intro other inBefore later member
        rcases List.mem_cons.mp member with rfl | inAfter
        · exact Or.inl (less other inBefore)
        · exact sorted.2.2 other inBefore later inAfter

/-- The first row that passes comes before every other that does. -/
theorem find_sortedOn (found : (sortedOn key rows).find? passes = some row) :
    row ∈ rows ∧ passes row = true ∧ ∀ other ∈ rows, passes other = true → key row ≤ key other := by
  obtain ⟨isPassing, before, after, split, failing⟩ := List.find?_eq_some_iff_append.mp found
  have member : row ∈ sortedOn key rows := by
    rw [split]
    simp
  refine ⟨mem_sortedOn.mp member, isPassing, ?_⟩
  intro other inRows passing
  have inSorted : other ∈ before ++ row :: after := by
    rw [← split]
    exact mem_sortedOn.mpr inRows
  have ordered := pairwise_sortedOn key rows
  rw [split, List.pairwise_append, List.pairwise_cons] at ordered
  obtain inBefore | here := List.mem_append.mp inSorted
  · have fails := failing other inBefore
    rw [passing] at fails
    cases fails
  · obtain rfl | inAfter := List.mem_cons.mp here
    · exact le_rfl
    · exact ordered.2.1.1 other inAfter

theorem exists_find_sortedOn (member : row ∈ rows) (passing : passes row = true) :
    ∃ first, (sortedOn key rows).find? passes = some first := by
  rw [← Option.isSome_iff_exists, List.find?_isSome]
  exact ⟨row, mem_sortedOn.mpr member, passing⟩

/-- A row listed first, with none that passes before it, is the first that passes. -/
theorem find_sortedOn_cons (passing : passes row = true)
    (least : ∀ other ∈ rest, passes other = true → key row ≤ key other) :
    (sortedOn key (row :: rest)).find? passes = some row := by
  unfold sortedOn
  rw [List.insertionSort_cons, List.orderedInsert_eq_take_drop, List.find?_append]
  have none : ((rest.insertionSort fun left right => key left ≤ key right).takeWhile fun other =>
      ¬ key row ≤ key other).find? passes = none := by
    rw [List.find?_eq_none]
    intro other inStart isPassing
    have later := List.mem_takeWhile_imp inStart
    have inRest := (List.takeWhile_prefix _).subset inStart
    rw [decide_eq_true_eq] at later
    exact later (least other ((List.mem_insertionSort _).mp inRest) isPassing)
  rw [none, Option.none_or, List.find?_cons_of_pos passing]

/-- The last row of a sort comes after every other. -/
theorem getLast_sortedOn (last : (sortedOn key rows).getLast? = some row) :
    row ∈ rows ∧ ∀ other ∈ rows, key other ≤ key row := by
  obtain ⟨before, split⟩ := List.getLast?_eq_some_iff.mp last
  have ordered := pairwise_sortedOn key rows
  rw [split, List.pairwise_append] at ordered
  have member : row ∈ sortedOn key rows := by
    rw [split]
    simp
  refine ⟨mem_sortedOn.mp member, ?_⟩
  intro other inRows
  have inSorted : other ∈ before ++ [row] := by
    rw [← split]
    exact mem_sortedOn.mpr inRows
  obtain inBefore | here := List.mem_append.mp inSorted
  · exact ordered.2.2 other inBefore row (List.mem_singleton.mpr rfl)
  · exact (congrArg key (List.mem_singleton.mp here)).le

theorem exists_getLast_sortedOn (member : row ∈ rows) :
    ∃ last, (sortedOn key rows).getLast? = some last := by
  rw [← Option.isSome_iff_exists, List.getLast?_isSome]
  exact List.ne_nil_of_mem (mem_sortedOn.mpr member)

/-- A fold that keeps the last row that passes. -/
theorem foldl_keep_last (rows : List α) (start : Option α) :
    rows.foldl (fun kept other => if passes other = true then some other else kept) start =
      ((rows.filter passes).getLast?).or start := by
  induction rows generalizing start with
  | nil => rfl
  | cons first rest inductionHypothesis =>
      rw [List.foldl_cons, inductionHypothesis]
      cases passing : passes first with
      | true =>
          rw [if_pos rfl, List.filter_cons_of_pos passing, List.getLast?_cons]
          cases (rest.filter passes).getLast? <;> rfl
      | false =>
          rw [if_neg Bool.false_ne_true, List.filter_cons_of_neg (by simp [passing])]

/-- What such a fold keeps of a sort comes after every other that passes. -/
theorem keep_last_sortedOn (kept : ((sortedOn key rows).filter passes).getLast? = some row) :
    row ∈ rows ∧ passes row = true ∧ ∀ other ∈ rows, passes other = true → key other ≤ key row := by
  obtain ⟨before, split⟩ := List.getLast?_eq_some_iff.mp kept
  have ordered := (pairwise_sortedOn key rows).filter passes
  rw [split, List.pairwise_append] at ordered
  have member : row ∈ (sortedOn key rows).filter passes := by
    rw [split]
    simp
  rw [List.mem_filter, mem_sortedOn] at member
  refine ⟨member.1, member.2, ?_⟩
  intro other inRows passing
  have inSorted : other ∈ before ++ [row] := by
    rw [← split, List.mem_filter, mem_sortedOn]
    exact ⟨inRows, passing⟩
  obtain inBefore | here := List.mem_append.mp inSorted
  · exact ordered.2.2 other inBefore row (List.mem_singleton.mpr rfl)
  · exact (congrArg key (List.mem_singleton.mp here)).le

theorem exists_keep_last_sortedOn (member : row ∈ rows) (passing : passes row = true) :
    ∃ last, ((sortedOn key rows).filter passes).getLast? = some last := by
  rw [← Option.isSome_iff_exists, List.getLast?_isSome]
  apply List.ne_nil_of_mem (a := row)
  rw [List.mem_filter, mem_sortedOn]
  exact ⟨member, passing⟩

end Vidit.Library
