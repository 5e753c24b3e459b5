import Mathlib.Data.Prod.Lex
import Vidit.Library.Latest

/-!
Contract: the first rows of a stable sort under a limit.

Owns:
- the place of a row in a sort, by its key and then by the order the rows were
  listed in;
- which rows a limit keeps: those that fewer rows than the limit come before.

Does not own: what the key is of.
-/

namespace Vidit.Library

variable {α β κ : Type*} [LinearOrder κ] {rows : List α} {row : α} {limit : Nat}

/-- A list in a strict order keeps the rows that few others come before. -/
theorem mem_take_of_pairwise {comesBefore : α → α → Bool}
    (asymmetric : ∀ left right, comesBefore left right = true → comesBefore right left = false)
    (irreflexive : ∀ one, comesBefore one one = false)
    (ordered : rows.Pairwise fun left right => comesBefore left right = true) :
    row ∈ rows.take limit ↔ row ∈ rows ∧ rows.countP (comesBefore · row) < limit := by
  induction rows generalizing limit with
  | nil => simp
  | cons first rest inductionHypothesis =>
      rw [List.pairwise_cons] at ordered
      cases limit with
      | zero => simp
      | succ remaining =>
          rw [List.take_succ_cons, List.mem_cons, inductionHypothesis ordered.2, List.mem_cons]
          constructor
          · intro kept
            obtain rfl | kept := kept
            · have none : rest.countP (comesBefore · row) = 0 := by
                rw [List.countP_eq_zero]
                intro other member precedes
                rw [asymmetric _ _ (ordered.1 other member)] at precedes
                cases precedes
              refine ⟨Or.inl rfl, ?_⟩
              rw [List.countP_cons_of_neg (by simp [irreflexive]), none]
              omega
            · refine ⟨Or.inr kept.1, ?_⟩
              rw [List.countP_cons_of_pos (p := (comesBefore · row)) (ordered.1 row kept.1)]
              omega
          · intro kept
            obtain ⟨rfl | member, few⟩ := kept
            · exact Or.inl rfl
            · rw [List.countP_cons_of_pos (p := (comesBefore · row)) (ordered.1 row member)] at few
              exact Or.inr ⟨member, by omega⟩

variable [DecidableEq α] {key : α → κ}

/-- `left` comes before `right` among the rows sorted by the key. -/
def sortsBefore (key : α → κ) (rows : List α) (left right : α) : Bool :=
  key left < key right || key left = key right && rows.idxOf left < rows.idxOf right

theorem sortsBefore_asymm {left right : α} (precedes : sortsBefore key rows left right = true) :
    sortsBefore key rows right left = false := by
  unfold sortsBefore at *
  grind

@[simp] theorem sortsBefore_irrefl : sortsBefore key rows row row = false := by
  unfold sortsBefore
  grind

/-- A row listed before the others comes before those of its key. -/
theorem pairwise_orderedInsert (first : α) (rest sorted : List α)
    (fresh : ∀ other ∈ sorted, first ≠ other)
    (ordered : sorted.Pairwise fun left right => sortsBefore key (first :: rest) left right = true) :
    (sorted.orderedInsert (fun left right => key left ≤ key right) first).Pairwise
      fun left right => sortsBefore key (first :: rest) left right = true := by
  induction sorted with
  | nil => simp
  | cons head tail inductionHypothesis =>
      rw [List.pairwise_cons] at ordered
      have tailFresh : ∀ other ∈ tail, first ≠ other := fun other member =>
        fresh other (List.mem_cons_of_mem _ member)
      have headFresh := fresh head List.mem_cons_self
      by_cases least : key first ≤ key head
      · rw [List.orderedInsert_cons, if_pos least, List.pairwise_cons]
        refine ⟨?_, List.pairwise_cons.mpr ordered⟩
        have notAfter : ∀ other ∈ head :: tail, key head ≤ key other := by
          intro other member
          obtain rfl | member := List.mem_cons.mp member
          · exact le_rfl
          · have later := ordered.1 other member
            unfold sortsBefore at later
            grind
        intro other member
        have different := fresh other member
        have later := least.trans (notAfter other member)
        unfold sortsBefore
        rw [List.idxOf_cons_self, List.idxOf_cons_ne _ different]
        grind
      · rw [List.orderedInsert_cons, if_neg least, List.pairwise_cons]
        refine ⟨?_, inductionHypothesis tailFresh ordered.2⟩
        intro other member
        obtain rfl | inTail := (List.mem_orderedInsert _).mp member
        · unfold sortsBefore
          grind
        · exact ordered.1 other inTail

theorem sortsBefore_cons {first left right : α} {rest : List α} (leftOther : first ≠ left)
    (rightOther : first ≠ right) :
    sortsBefore key (first :: rest) left right = sortsBefore key rest left right := by
  unfold sortsBefore
  rw [List.idxOf_cons_ne _ leftOther, List.idxOf_cons_ne _ rightOther]
  simp

/-- A stable sort puts the rows in the order of their keys, then of the list. -/
theorem pairwise_sortsBefore (nodup : rows.Nodup) :
    (sortedOn key rows).Pairwise fun left right => sortsBefore key rows left right = true := by
  induction rows with
  | nil => simp [sortedOn]
  | cons first rest inductionHypothesis =>
      rw [List.nodup_cons] at nodup
      have fresh : ∀ other ∈ sortedOn key rest, first ≠ other := by
        rintro _ member rfl
        exact nodup.1 (mem_sortedOn.mp member)
      have ordered := inductionHypothesis nodup.2
      unfold sortedOn at *
      rw [List.insertionSort_cons]
      apply pairwise_orderedInsert first rest _ fresh
      apply ordered.imp_of_mem
      intro left right inLeft inRight precedes
      rw [sortsBefore_cons (fresh left inLeft) (fresh right inRight)]
      exact precedes

/-- A limit keeps the rows that fewer rows than the limit come before. -/
theorem mem_take_sortedOn (nodup : rows.Nodup) :
    row ∈ (sortedOn key rows).take limit ↔
      row ∈ rows ∧ rows.countP (sortsBefore key rows · row) < limit := by
  rw [mem_take_of_pairwise (fun _ _ => sortsBefore_asymm) (fun _ => sortsBefore_irrefl)
    (pairwise_sortsBefore nodup), mem_sortedOn]
  have same : (sortedOn key rows).countP (sortsBefore key rows · row) =
      rows.countP (sortsBefore key rows · row) :=
    (List.perm_insertionSort _ rows).countP_eq _
  rw [same]

omit [DecidableEq α] in
/-- Rows renamed without a change of key are sorted the same way. -/
theorem sortedOn_map {renamed : β → κ} {rename : α → β}
    (kept : ∀ row, renamed (rename row) = key row) (rows : List α) :
    sortedOn renamed (rows.map rename) = (sortedOn key rows).map rename := by
  unfold sortedOn
  symm
  apply List.map_insertionSort
  intro left _ right _
  rw [kept, kept]

end Vidit.Library
