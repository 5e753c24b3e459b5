import Mathlib.Data.List.Basic

/-!
Contract: rows under a primary key.

Owns: that no two rows share a key, that writes, deletes and a new key keep it so, and
that a search by key finds the row.

Does not own: transactions, or the tables of any program.
-/

namespace Vidit.Library

universe u v

variable {ρ : Type u} {κ : Type v} {key : ρ → κ} {rows : List ρ}

/-- Rows of one key are one row. -/
def KeyedBy (key : ρ → κ) (rows : List ρ) : Prop :=
  ∀ left ∈ rows, ∀ right ∈ rows, key left = key right → left = right

/-- A write that keeps every key. -/
theorem KeyedBy.map (keyed : KeyedBy key rows) {write : ρ → ρ}
    (same : ∀ row, key (write row) = key row) : KeyedBy key (rows.map write) := by
  intro left leftMember right rightMember equal
  rcases List.mem_map.mp leftMember with ⟨first, firstMember, rfl⟩
  rcases List.mem_map.mp rightMember with ⟨second, secondMember, rfl⟩
  rw [same, same] at equal
  rw [keyed first firstMember second secondMember equal]

theorem KeyedBy.filter (keyed : KeyedBy key rows) (keep : ρ → Bool) :
    KeyedBy key (rows.filter keep) := by
  intro left leftMember right rightMember
  exact keyed left (List.mem_of_mem_filter leftMember) right (List.mem_of_mem_filter rightMember)

/-- A row under a new key. -/
theorem KeyedBy.concat (keyed : KeyedBy key rows) {row : ρ}
    (new : ∀ other ∈ rows, key other ≠ key row) : KeyedBy key (rows ++ [row]) := by
  intro left leftMember right rightMember equal
  rcases List.mem_append.mp leftMember with earlierLeft | newLeft <;>
    rcases List.mem_append.mp rightMember with earlierRight | newRight
  · exact keyed left earlierLeft right earlierRight equal
  · rw [List.mem_singleton.mp newRight] at equal
    exact absurd equal (new left earlierLeft)
  · rw [List.mem_singleton.mp newLeft] at equal
    exact absurd equal.symm (new right earlierRight)
  · rw [List.mem_singleton.mp newLeft, List.mem_singleton.mp newRight]

/-- A search by key finds the row of that key. -/
theorem KeyedBy.find?_eq [DecidableEq κ] (keyed : KeyedBy key rows) {row : ρ} (member : row ∈ rows) :
    rows.find? (fun other => key other = key row) = some row := by
  cases found : rows.find? fun other => key other = key row with
  | none =>
      have missed := List.find?_eq_none.mp found row member
      simp at missed
  | some other =>
      have same : key other = key row := by
        simpa using List.find?_some found
      rw [keyed other (List.mem_of_find?_eq_some found) row member same]

end Vidit.Library
