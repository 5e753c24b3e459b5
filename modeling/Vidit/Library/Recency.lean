import Mathlib.Data.List.Dedup
import Mathlib.Data.List.Perm.Subperm

/-!
Contract: keyed entries in the order their keys were last used, oldest first.

Owns:
- `use` (an entry goes last), `keep` (some keys stay) and `newest` (the last entries stay);
- `Behind`, the keys used since an entry was: what each operation adds to them, and when
  `newest` spares the entry.

Does not own: when an entry is used, and how long it lasts.
-/

namespace Vidit.Library

universe u v

/-- Entries by key, the least recently used first. -/
abbrev Recency (κ : Type u) (ν : Type v) := List (κ × ν)

namespace Recency

variable {κ : Type u} {ν : Type v}

def keys (entries : Recency κ ν) : List κ :=
  entries.map Prod.fst

/-- The entries whose keys pass. -/
def keep (passes : κ → Bool) (entries : Recency κ ν) : Recency κ ν :=
  entries.filter fun entry => passes entry.1

/-- The entry of a key goes last. -/
def use [DecidableEq κ] (key : κ) (value : ν) (entries : Recency κ ν) : Recency κ ν :=
  keep (fun other => other ≠ key) entries ++ [(key, value)]

/-- At most `size` entries stay, the last ones. -/
def newest (size : Nat) (entries : Recency κ ν) : Recency κ ν :=
  entries.drop (entries.length - size)

/-- The value of a key. -/
def held [DecidableEq κ] (key : κ) (entries : Recency κ ν) : Option ν :=
  (entries.find? fun entry => entry.1 = key).map Prod.snd

section Reading

variable {entries : Recency κ ν} {key other : κ} {value : ν}

theorem length_newest_le (size : Nat) (entries : Recency κ ν) :
    (newest size entries).length ≤ size := by
  unfold newest
  rw [List.length_drop]
  omega

theorem mem_keep {passes : κ → Bool} :
    (key, value) ∈ keep passes entries ↔ (key, value) ∈ entries ∧ passes key = true := by
  unfold keep
  rw [List.mem_filter]

theorem mem_of_mem_newest {size : Nat} {entry : κ × ν} (member : entry ∈ newest size entries) :
    entry ∈ entries :=
  List.mem_of_mem_drop member

theorem mem_use_self [DecidableEq κ] {kept : ν}
    (member : (key, kept) ∈ use key value entries) : kept = value := by
  unfold use at member
  rcases List.mem_append.mp member with before | last
  · have passed := (mem_keep.mp before).2
    simp at passed
  · have same := List.mem_singleton.mp last
    exact congrArg Prod.snd same

theorem mem_use_of_ne [DecidableEq κ] {kept : ν} (different : other ≠ key)
    (member : (other, kept) ∈ use key value entries) : (other, kept) ∈ entries := by
  unfold use at member
  rcases List.mem_append.mp member with before | last
  · exact (mem_keep.mp before).1
  · have same := List.mem_singleton.mp last
    exact absurd (congrArg Prod.fst same) different

theorem nodup_keep (nodup : entries.keys.Nodup) (passes : κ → Bool) :
    (keep passes entries).keys.Nodup :=
  nodup.sublist (List.filter_sublist.map Prod.fst)

theorem nodup_newest (nodup : entries.keys.Nodup) (size : Nat) :
    (newest size entries).keys.Nodup :=
  nodup.sublist ((List.drop_sublist _ _).map Prod.fst)

theorem nodup_use [DecidableEq κ] (nodup : entries.keys.Nodup) (key : κ) (value : ν) :
    (use key value entries).keys.Nodup := by
  unfold use keys
  rw [List.map_append, List.nodup_append]
  refine ⟨nodup_keep nodup _, List.nodup_singleton _, ?_⟩
  intro before member last isLast same
  obtain ⟨entry, kept, rfl⟩ := List.mem_map.mp member
  obtain ⟨other, value⟩ := entry
  have passed := mem_keep.mp kept
  have isKey : last = key := by simpa using isLast
  have apart : other ≠ key := by simpa using passed.2
  exact apart (same.trans isKey)

theorem length_use_le_of_mem [DecidableEq κ] (member : (key, value) ∈ entries) {held : ν} :
    (use key held entries).length ≤ entries.length := by
  unfold use keep
  rw [List.length_append, List.length_singleton]
  have fewer : (entries.filter fun entry => decide (entry.1 ≠ key)).length < entries.length := by
    apply List.length_filter_lt_length_iff_exists.mpr
    exact ⟨(key, value), member, by simp⟩
  exact Nat.succ_le_of_lt fewer

/-- With distinct keys, the value of a key is that of any entry of it. -/
theorem held_eq_some_iff [DecidableEq κ] (nodup : entries.keys.Nodup) :
    held key entries = some value ↔ (key, value) ∈ entries := by
  unfold held
  induction entries with
  | nil => simp
  | cons entry entries inductionHypothesis =>
      obtain ⟨first, kept⟩ := entry
      have later : (Recency.keys entries).Nodup := (List.nodup_cons.mp nodup).2
      have fresh : first ∉ Recency.keys entries := (List.nodup_cons.mp nodup).1
      by_cases same : first = key
      · subst same
        have absent : (first, value) ∉ entries := fun member =>
          fresh (List.mem_map_of_mem member)
        simp [absent, eq_comm]
      · rw [List.find?_cons_of_neg (by simpa using same), inductionHypothesis later]
        simp [Ne.symm same]

end Reading

/-! ### What was used since -/

/-- The entry stands, and every key used after it is one of `others`. -/
def Behind (entries : Recency κ ν) (key : κ) (value : ν) (others : List κ) : Prop :=
  ∃ before after, entries = before ++ (key, value) :: after ∧ ∀ entry ∈ after, entry.1 ∈ others

namespace Behind

variable {entries : Recency κ ν} {key other : κ} {value : ν} {others : List κ}

theorem mem (behind : Behind entries key value others) : (key, value) ∈ entries := by
  obtain ⟨before, after, rfl, _⟩ := behind
  simp

theorem mono {more : List κ} (behind : Behind entries key value others)
    (included : ∀ used ∈ others, used ∈ more) : Behind entries key value more := by
  obtain ⟨before, after, split, since⟩ := behind
  exact ⟨before, after, split, fun entry member => included _ (since entry member)⟩

theorem use_self [DecidableEq κ] (entries : Recency κ ν) (key : κ) (value : ν) :
    Behind (use key value entries) key value [] := by
  exact ⟨keep (fun other => other ≠ key) entries, [], rfl, by simp⟩

theorem keep (passes : κ → Bool) (behind : Behind entries key value others)
    (passed : passes key = true) : Behind (keep passes entries) key value others := by
  obtain ⟨before, after, rfl, since⟩ := behind
  refine ⟨before.filter fun entry => passes entry.1, after.filter fun entry => passes entry.1,
    ?_, ?_⟩
  · unfold Recency.keep
    rw [List.filter_append, List.filter_cons_of_pos (by exact passed)]
  · intro entry member
    exact since entry (List.mem_of_mem_filter member)

/-- Another key goes behind the entry. -/
theorem use_other [DecidableEq κ] (behind : Behind entries key value others)
    (different : key ≠ other) (held : ν) :
    Behind (use other held entries) key value (others ++ [other]) := by
  have kept := behind.keep (fun key => key ≠ other) (by simpa using different)
  obtain ⟨before, after, split, since⟩ := kept
  refine ⟨before, after ++ [(other, held)], ?_, ?_⟩
  · unfold use
    rw [split, List.append_assoc, List.cons_append]
  · intro entry member
    rcases List.mem_append.mp member with inAfter | last
    · exact List.mem_append_left _ (since entry inAfter)
    · have same := List.mem_singleton.mp last
      rw [same]
      simp

/-- An entry stays as long as fewer than `size` keys were used since. -/
theorem newest [DecidableEq κ] (behind : Behind entries key value others)
    (nodup : entries.keys.Nodup) {size : Nat} (few : others.dedup.length < size) :
    Behind (newest size entries) key value others := by
  obtain ⟨before, after, rfl, since⟩ := behind
  have distinct : (after.map Prod.fst).Nodup := by
    have whole : (Recency.keys before ++ key :: Recency.keys after).Nodup := by
      simpa [Recency.keys] using nodup
    exact (List.nodup_cons.mp (List.nodup_append.mp whole).2.1).2
  have included : after.map Prod.fst ⊆ others.dedup := by
    intro used member
    obtain ⟨entry, inAfter, rfl⟩ := List.mem_map.mp member
    exact List.mem_dedup.mpr (since entry inAfter)
  have short : after.length ≤ others.dedup.length := by
    have bound := (List.subperm_of_subset distinct included).length_le
    rwa [List.length_map] at bound
  have within : (before ++ (key, value) :: after).length - size ≤ before.length := by
    rw [List.length_append, List.length_cons]
    omega
  refine ⟨before.drop ((before ++ (key, value) :: after).length - size), after, ?_, since⟩
  unfold Recency.newest
  rw [List.drop_append_of_le_length within]

end Behind

end Recency

end Vidit.Library
