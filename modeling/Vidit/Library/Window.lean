import Mathlib.Algebra.Order.Group.Unbundled.Int
import Mathlib.Data.List.Count

/-!
Contract: a log of dated entries, newest first, and how many of them any trailing
window holds.

Owns:
- the entries since an hour (`since`) and of a trailing window (`trailing`);
- `Kept`, that no trailing window holds more than a cap, kept when an entry is
  added with room for it and when entries are dropped;
- the bound of a log by the rows that stand for its entries (`since_le_of_rows`).

Does not own: any program.
-/

namespace Vidit.Library.Window

universe u v

variable {α : Type u} (at' : α → Int)

/-- The entries from `cutoff` on. -/
def since (cutoff : Int) (log : List α) : Nat :=
  log.countP fun entry => cutoff ≤ at' entry

/-- The entries of the window that ends at `hour`, ends included. -/
def trailing (window hour : Int) (log : List α) : Nat :=
  log.countP fun entry => hour - window ≤ at' entry && at' entry ≤ hour

/-- No entry is later than `now`, and no trailing window holds more than `cap` of them. -/
structure Kept (window : Int) (cap : Nat) (now : Int) (log : List α) : Prop where
  past : ∀ entry ∈ log, at' entry ≤ now
  within : ∀ hour, trailing at' window hour log ≤ cap

variable {at'} {window now : Int} {cap : Nat} {log : List α}

theorem trailing_le_since (hour : Int) :
    trailing at' window hour log ≤ since at' (hour - window) log := by
  unfold trailing since
  refine List.countP_mono_left ?_
  intro entry _ inside
  rw [Bool.and_eq_true] at inside
  exact inside.1

theorem since_antitone {cutoff earlier : Int} (before : earlier ≤ cutoff) :
    since at' cutoff log ≤ since at' earlier log := by
  unfold since
  refine List.countP_mono_left ?_
  intro entry _ inside
  rw [decide_eq_true_eq] at inside ⊢
  exact le_trans before inside

theorem Kept.nil : Kept at' window cap now [] where
  past := fun _ member => absurd member List.not_mem_nil
  within := fun _ => Nat.zero_le _

theorem Kept.later (kept : Kept at' window cap now log) {later : Int} (forward : now ≤ later) :
    Kept at' window cap later log where
  past := fun entry member => le_trans (kept.past entry member) forward
  within := kept.within

theorem Kept.sublist {fewer : List α} (kept : Kept at' window cap now log)
    (sublist : fewer.Sublist log) : Kept at' window cap now fewer where
  past := fun entry member => kept.past entry (sublist.subset member)
  within := fun hour => le_trans sublist.countP_le (kept.within hour)

/-- An entry of now fits, if fewer than the cap are as young as the window. -/
theorem Kept.cons (kept : Kept at' window cap now log) {entry : α} (isNow : at' entry = now)
    (room : since at' (now - window) log < cap) : Kept at' window cap now (entry :: log) where
  past := by
    intro other member
    rcases List.mem_cons.mp member with rfl | old
    · exact le_of_eq isNow
    · exact kept.past other old
  within := by
    intro hour
    by_cases before : hour < now
    · -- the window ends before the entry
      have same : trailing at' window hour (entry :: log) = trailing at' window hour log := by
        unfold trailing
        rw [List.countP_cons_of_neg]
        rw [Bool.and_eq_true, decide_eq_true_eq, decide_eq_true_eq, isNow]
        omega
      rw [same]
      exact kept.within hour
    · have bound : trailing at' window hour (entry :: log) ≤
          since at' (hour - window) (entry :: log) := trailing_le_since hour
      have younger : since at' (hour - window) (entry :: log) ≤
          since at' (now - window) (entry :: log) := since_antitone (by omega)
      have atMost : since at' (now - window) (entry :: log) ≤ since at' (now - window) log + 1 := by
        unfold since
        rw [List.countP_cons]
        split <;> omega
      omega

/-! ### Rows that stand for entries -/

/-- Entries of different rows, each among `rows`, are no more than the rows. -/
theorem since_le_of_rows {β : Type v} [DecidableEq β] (rowOf : α → β) {cutoff : Int}
    {rows : List β}
    (apart : (log.filter fun entry => cutoff ≤ at' entry).Pairwise
      fun first second => rowOf first ≠ rowOf second)
    (counted : ∀ entry ∈ log, cutoff ≤ at' entry → rowOf entry ∈ rows) :
    since at' cutoff log ≤ rows.length := by
  unfold since
  rw [List.countP_eq_length_filter, ← List.length_map (f := rowOf)]
  have nodup : ((log.filter fun entry => cutoff ≤ at' entry).map rowOf).Nodup := by
    rw [List.Nodup, List.pairwise_map]
    exact apart
  refine (List.subperm_of_subset nodup ?_).length_le
  intro row member
  rw [List.mem_map] at member
  rcases member with ⟨entry, isEntry, rfl⟩
  rw [List.mem_filter, decide_eq_true_eq] at isEntry
  exact counted entry isEntry.1 isEntry.2

end Vidit.Library.Window
