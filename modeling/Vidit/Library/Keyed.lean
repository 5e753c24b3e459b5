import Mathlib.Data.List.Nodup

/-!
Contract: lists gathered block by block, each block under a name of its own.

Owns:
- `filter_flatMap_of_keyed`, the elements under one name;
- `filter_flatMap_of_other`, that a name of no block has none.
-/

namespace Vidit.Library

section Keyed

variable {α κ ν : Type*} [DecidableEq ν] {key : α → ν} {name : κ → ν} {block : κ → List α}

/-- The elements under the name of a block are the block. -/
theorem filter_flatMap_of_keyed [DecidableEq κ] (injective : Function.Injective name)
    (keyed : ∀ own, ∀ item ∈ block own, key item = name own) {keys : List κ} (nodup : keys.Nodup)
    (own : κ) :
    ((keys.flatMap block).filter fun item => key item = name own) =
      if own ∈ keys then block own else [] := by
  induction keys with
  | nil => rfl
  | cons head tail inductionHypothesis =>
      have apart := List.nodup_cons.mp nodup
      rw [List.flatMap_cons, List.filter_append, inductionHypothesis apart.2]
      by_cases same : own = head
      · subst same
        have whole : ((block own).filter fun item => key item = name own) = block own := by
          apply List.filter_eq_self.mpr
          intro item member
          exact decide_eq_true (keyed own item member)
        rw [whole, if_neg apart.1, if_pos List.mem_cons_self, List.append_nil]
      · have none : ((block head).filter fun item => key item = name own) = [] := by
          apply List.filter_eq_nil_iff.mpr
          intro item member found
          have sameName := (of_decide_eq_true found).symm.trans (keyed head item member)
          exact same (injective sameName)
        rw [none, List.nil_append]
        simp only [List.mem_cons, same, false_or]

/-- Nothing is under a name that no block has. -/
theorem filter_flatMap_of_other (keyed : ∀ own, ∀ item ∈ block own, key item = name own)
    {keys : List κ} {other : ν} (unnamed : ∀ own ∈ keys, name own ≠ other) :
    ((keys.flatMap block).filter fun item => key item = other) = [] := by
  apply List.filter_eq_nil_iff.mpr
  intro item member found
  obtain ⟨own, listed, inBlock⟩ := List.mem_flatMap.mp member
  exact unnamed own listed ((keyed own item inBlock).symm.trans (of_decide_eq_true found))

end Keyed

end Vidit.Library
