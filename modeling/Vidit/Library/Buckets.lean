import Mathlib.Data.List.Induction
import Mathlib.Data.List.Perm.Basic

/-!
Contract: entries gathered under their keys, in the order the keys are met.

Owns:
- `pour`, the insertion into a map that keeps its insertion order, and `gather`, a run of it;
- what a bucket holds and starts with, that no key has two, and that nothing is
  lost or repeated.

Does not own: any program.
-/

namespace Vidit.Library

section Buckets

variable {κ α β : Type*} [DecidableEq κ]

/-- Append under a key, which comes last when it is new. -/
def pour (key : κ) (values : List α) : List (κ × List α) → List (κ × List α)
  | [] => [(key, values)]
  | (other, held) :: rest =>
    if other = key then (other, held ++ values) :: rest
    else (other, held) :: pour key values rest

/-- Every entry poured under its key. -/
def gather (key : β → κ) (content : β → List α) (entries : List β) : List (κ × List α) :=
  entries.foldl (fun buckets entry => pour (key entry) (content entry) buckets) []

theorem gather_append_singleton (key : β → κ) (content : β → List α) (entries : List β)
    (entry : β) :
    gather key content (entries ++ [entry]) =
      pour (key entry) (content entry) (gather key content entries) := by
  unfold gather
  rw [List.foldl_append]
  rfl

/-! ### One insertion -/

theorem mem_keys_pour {key : κ} {values : List α} {buckets : List (κ × List α)} {other : κ} :
    other ∈ (pour key values buckets).map Prod.fst ↔
      other ∈ buckets.map Prod.fst ∨ other = key := by
  induction buckets with
  | nil => simp [pour]
  | cons bucket rest inductionHypothesis =>
      unfold pour
      by_cases same : bucket.1 = key
      · rw [if_pos same]
        simp only [List.map_cons, List.mem_cons, ← same]
        tauto
      · rw [if_neg same]
        simp only [List.map_cons, List.mem_cons, inductionHypothesis]
        tauto

theorem nodup_keys_pour {key : κ} {values : List α} {buckets : List (κ × List α)}
    (nodup : (buckets.map Prod.fst).Nodup) : ((pour key values buckets).map Prod.fst).Nodup := by
  induction buckets with
  | nil => simp [pour]
  | cons bucket rest inductionHypothesis =>
      have apart := List.nodup_cons.mp nodup
      unfold pour
      by_cases same : bucket.1 = key
      · rw [if_pos same]
        exact nodup
      · rw [if_neg same]
        apply List.nodup_cons.mpr
        refine ⟨?_, inductionHypothesis apart.2⟩
        intro member
        rcases mem_keys_pour.mp member with earlier | here
        · exact apart.1 earlier
        · exact same here

/-- The bucket of a key, empty when it has none. -/
def bucketOf (own : κ) : List (κ × List α) → List α
  | [] => []
  | (other, held) :: rest => if other = own then held else bucketOf own rest

theorem mem_iff_of_nodup {buckets : List (κ × List α)} (nodup : (buckets.map Prod.fst).Nodup)
    {own : κ} {held : List α} :
    (own, held) ∈ buckets ↔ own ∈ buckets.map Prod.fst ∧ held = bucketOf own buckets := by
  induction buckets with
  | nil => simp
  | cons bucket rest inductionHypothesis =>
      obtain ⟨first, content⟩ := bucket
      have apart := List.nodup_cons.mp nodup
      rw [List.mem_cons, inductionHypothesis apart.2, List.map_cons, List.mem_cons, bucketOf]
      by_cases same : first = own
      · subst same
        simp [apart.1]
      · have different : own ≠ first := Ne.symm same
        simp [same, different]

theorem bucketOf_pour (key : κ) (values : List α) (buckets : List (κ × List α)) (own : κ) :
    bucketOf own (pour key values buckets) =
      if own = key then bucketOf own buckets ++ values else bucketOf own buckets := by
  induction buckets with
  | nil =>
      by_cases same : own = key
      · simp [pour, bucketOf, same]
      · simp [pour, bucketOf, same, Ne.symm same]
  | cons bucket rest inductionHypothesis =>
      unfold pour
      by_cases here : bucket.1 = key
      · rw [if_pos here]
        by_cases same : own = key
        · simp [bucketOf, here, same]
        · have different : bucket.1 ≠ own := by
            intro equal
            exact same (equal.symm.trans here)
          simp [bucketOf, different, same]
      · rw [if_neg here, bucketOf, bucketOf, inductionHypothesis]
        by_cases top : bucket.1 = own
        · have different : own ≠ key := by
            intro equal
            exact here (top.trans equal)
          simp [top, different]
        · simp [top]

theorem perm_pour (key : κ) (values : List α) (buckets : List (κ × List α)) :
    ((pour key values buckets).flatMap Prod.snd).Perm (buckets.flatMap Prod.snd ++ values) := by
  induction buckets with
  | nil => simp [pour]
  | cons bucket rest inductionHypothesis =>
      unfold pour
      split
      · simp only [List.flatMap_cons, List.append_assoc]
        exact List.perm_append_comm.append_left _
      · simp only [List.flatMap_cons, List.append_assoc]
        exact inductionHypothesis.append_left _

/-! ### A run of them -/

variable (key : β → κ) (content : β → List α) (entries : List β)

theorem nodup_keys_gather : ((gather key content entries).map Prod.fst).Nodup := by
  induction entries using List.reverseRecOn with
  | nil => exact List.nodup_nil
  | append_singleton entries entry inductionHypothesis =>
      rw [gather_append_singleton]
      exact nodup_keys_pour inductionHypothesis

theorem mem_keys_gather {own : κ} :
    own ∈ (gather key content entries).map Prod.fst ↔ ∃ entry ∈ entries, key entry = own := by
  induction entries using List.reverseRecOn with
  | nil => simp [gather]
  | append_singleton entries entry inductionHypothesis =>
      rw [gather_append_singleton, mem_keys_pour, inductionHypothesis]
      simp only [List.mem_append, List.mem_singleton, or_and_right, exists_or, exists_eq_left]
      rw [eq_comm (a := own)]

theorem bucketOf_gather (own : κ) :
    bucketOf own (gather key content entries) =
      (entries.filter fun entry => key entry = own).flatMap content := by
  induction entries using List.reverseRecOn with
  | nil => rfl
  | append_singleton entries entry inductionHypothesis =>
      rw [gather_append_singleton, bucketOf_pour, inductionHypothesis, List.filter_append,
        List.flatMap_append]
      by_cases here : key entry = own
      · simp [here]
      · simp [here, Ne.symm here]

/-- A bucket holds what the entries of its key hold, in their order. -/
theorem mem_gather_iff {own : κ} {held : List α} :
    (own, held) ∈ gather key content entries ↔
      (∃ entry ∈ entries, key entry = own) ∧
        held = (entries.filter fun entry => key entry = own).flatMap content := by
  rw [mem_iff_of_nodup (nodup_keys_gather key content entries), mem_keys_gather, bucketOf_gather]

/-- Nothing is lost and nothing repeated. -/
theorem perm_gather :
    ((gather key content entries).flatMap Prod.snd).Perm (entries.flatMap content) := by
  induction entries using List.reverseRecOn with
  | nil => exact .refl []
  | append_singleton entries entry inductionHypothesis =>
      rw [gather_append_singleton, List.flatMap_append, List.flatMap_singleton]
      exact (perm_pour _ _ _).trans (inductionHypothesis.append_right _)

/-! ### First values -/

theorem ne_nil_of_mem_pour {key : κ} {values : List α} {buckets : List (κ × List α)}
    (nonempty : ∀ bucket ∈ buckets, bucket.2 ≠ []) (some : values ≠ []) :
    ∀ bucket ∈ pour key values buckets, bucket.2 ≠ [] := by
  induction buckets with
  | nil => simpa [pour] using some
  | cons bucket rest inductionHypothesis =>
      rw [List.forall_mem_cons] at nonempty
      unfold pour
      by_cases same : bucket.1 = key
      · rw [if_pos same, List.forall_mem_cons]
        exact ⟨fun empty => some (List.append_eq_nil_iff.mp empty).2, nonempty.2⟩
      · rw [if_neg same, List.forall_mem_cons]
        exact ⟨nonempty.1, inductionHypothesis nonempty.2⟩

theorem head_pour (key : κ) (values : List α) {buckets : List (κ × List α)}
    (nonempty : ∀ bucket ∈ buckets, bucket.2 ≠ []) :
    (pour key values buckets).map (fun bucket => bucket.2.head?) =
        buckets.map (fun bucket => bucket.2.head?) ∨
      (pour key values buckets).map (fun bucket => bucket.2.head?) =
        buckets.map (fun bucket => bucket.2.head?) ++ [values.head?] := by
  induction buckets with
  | nil => exact Or.inr rfl
  | cons bucket rest inductionHypothesis =>
      rw [List.forall_mem_cons] at nonempty
      unfold pour
      by_cases same : bucket.1 = key
      · rw [if_pos same, List.map_cons, List.map_cons, List.head?_append_of_ne_nil _ nonempty.1]
        exact Or.inl rfl
      · rw [if_neg same, List.map_cons, List.map_cons]
        rcases inductionHypothesis nonempty.2 with kept | added
        · rw [kept]
          exact Or.inl rfl
        · rw [added]
          exact Or.inr rfl

/-- The first values of the buckets are in the order they were poured in. -/
theorem head_gather_sublist (filled : ∀ entry, content entry ≠ []) :
    ((gather key content entries).map fun bucket => bucket.2.head?).Sublist
      (entries.map fun entry => (content entry).head?) := by
  have nonempty : ∀ bucket ∈ gather key content entries, bucket.2 ≠ [] := by
    induction entries using List.reverseRecOn with
    | nil => simp [gather]
    | append_singleton entries entry inductionHypothesis =>
        rw [gather_append_singleton]
        exact ne_nil_of_mem_pour inductionHypothesis (filled entry)
  induction entries using List.reverseRecOn with
  | nil => exact .slnil
  | append_singleton entries entry inductionHypothesis =>
      have earlier : ∀ bucket ∈ gather key content entries, bucket.2 ≠ [] := by
        intro bucket member
        rw [mem_gather_iff] at member
        obtain ⟨⟨source, inEntries, isKey⟩, held⟩ := member
        rw [held]
        intro empty
        rw [List.flatMap_eq_nil_iff] at empty
        exact filled source (empty source (by simp [inEntries, isKey]))
      rw [gather_append_singleton, List.map_append, List.map_singleton]
      rcases head_pour (key entry) (content entry) earlier with kept | added
      · rw [kept]
        exact (inductionHypothesis earlier).trans (List.sublist_append_left _ _)
      · rw [added]
        exact (inductionHypothesis earlier).append_right _

/-! ### Other contents -/

theorem pour_map {γ : Type*} (change : α → γ) (key : κ) (values : List α)
    (buckets : List (κ × List α)) :
    pour key (values.map change) (buckets.map fun bucket => (bucket.1, bucket.2.map change)) =
      (pour key values buckets).map fun bucket => (bucket.1, bucket.2.map change) := by
  induction buckets with
  | nil => rfl
  | cons bucket rest inductionHypothesis =>
      rw [List.map_cons]
      unfold pour
      by_cases same : bucket.1 = key
      · simp [same]
      · simp [same, inductionHypothesis]

/-- What is gathered changes as the contents do. -/
theorem gather_map {γ : Type*} (change : α → γ) :
    gather key (fun entry => (content entry).map change) entries =
      (gather key content entries).map fun bucket => (bucket.1, bucket.2.map change) := by
  induction entries using List.reverseRecOn with
  | nil => rfl
  | append_singleton entries entry inductionHypothesis =>
      rw [gather_append_singleton, gather_append_singleton, inductionHypothesis, pour_map]

end Buckets

end Vidit.Library
