import Mathlib.Data.List.Basic
import Mathlib.Data.Set.Insert
import Mathlib.Logic.Relation
import Mathlib.Order.BooleanAlgebra.Set

/-!
Contract: work credited to several people and approved by others.

Owns:
- the credit of one piece of work, its owner among the credited, and the marks
  reviewers leave on its versions;
- the steps that move them, and that every run of steps keeps the owner credited
  and the reviewers independent;
- that nobody who was credited is forgotten while they stay known.

Does not own: who may take a step.
-/

namespace Vidit.Library

universe u v

/-- Of rows no two of which are related, at most one is picked by a predicate that
picks related rows only. -/
theorem length_filter_le_one {α : Type u} {rows : List α} {Related : α → α → Prop}
    (apart : rows.Pairwise fun left right => ¬ Related left right) (keep : α → Bool)
    (related : ∀ left right, keep left = true → keep right = true → Related left right) :
    (rows.filter keep).length ≤ 1 := by
  have apart := apart.filter keep
  have kept : ∀ row ∈ rows.filter keep, keep row = true :=
    fun row member => (List.mem_filter.mp member).2
  generalize rows.filter keep = picked at apart kept
  match picked with
  | [] => simp
  | [row] => simp
  | first :: second :: rest =>
      exfalso
      have distinct := List.rel_of_pairwise_cons apart List.mem_cons_self
      exact distinct (related first second (kept first (by simp)) (kept second (by simp)))

/-- A mark on one version, in the reviewer's own name or for an organization. -/
structure Mark (υ : Type u) (ω : Type v) where
  version : Nat
  reviewer : Option υ
  organization : Option ω

/-- Two marks of one kind: on one version, for one organization or in one name. -/
def Mark.Rivals {υ : Type u} {ω : Type v} (left right : Mark υ ω) : Prop :=
  left.version = right.version ∧
    ((∃ organization, left.organization = some organization ∧
        right.organization = some organization) ∨
      left.organization = none ∧ right.organization = none ∧
        ∃ reviewer, left.reviewer = some reviewer ∧ right.reviewer = some reviewer)

@[ext]
structure Review (υ : Type u) (ω : Type v) where
  published : Bool
  /-- The number of the live version. -/
  current : Nat
  owner : υ
  active : Set υ
  /-- Everyone the work credits or once credited. -/
  ever : Set υ
  marks : List (Mark υ ω)

namespace Review

variable {υ : Type u} {ω : Type v}

/-- Work nobody is credited on yet. -/
def draft (owner : υ) : Review υ ω := ⟨false, 0, owner, ∅, ∅, []⟩

structure Sound (review : Review υ ω) : Prop where
  owned : review.published = true → review.owner ∈ review.active
  active_subset : review.active ⊆ review.ever
  unreviewed : review.published = false → review.marks = []
  numbered : review.published = true → 0 < review.current
  independent : ∀ mark ∈ review.marks, ∀ reviewer, mark.reviewer = some reviewer →
    reviewer ≠ review.owner ∧ reviewer ∉ review.ever
  unrivalled : review.marks.Pairwise fun left right => ¬ left.Rivals right
  reached : ∀ mark ∈ review.marks, 0 < mark.version ∧ mark.version ≤ review.current

theorem Sound.draft (owner : υ) : Sound (Review.draft owner : Review υ ω) where
  owned published := by simp [Review.draft] at published
  active_subset := Set.empty_subset _
  unreviewed _ := rfl
  numbered published := by simp [Review.draft] at published
  independent mark member := by simp [Review.draft] at member
  unrivalled := List.Pairwise.nil
  reached mark member := by simp [Review.draft] at member

variable [DecidableEq υ]

/-- Take the name of a forgotten reviewer off a mark. -/
def anonymise (gone : υ) (mark : Mark υ ω) : Mark υ ω :=
  { mark with reviewer := if mark.reviewer = some gone then none else mark.reviewer }

/-- A mark that goes with its reviewer. -/
def goesWith (gone : υ) (mark : Mark υ ω) : Bool :=
  mark.reviewer = some gone && mark.organization.isNone

/-- A step among the people `Known`, after which those in `Gone` are gone. -/
inductive Step (Known Gone : υ → Prop) : Review υ ω → Review υ ω → Prop where
  | edit {review : Review υ ω} (current : Nat) (later : review.current ≤ current) :
      Step Known Gone review { review with current := current }
  | publish {review : Review υ ω} (author : υ) (known : Known author)
      (draft : review.published = false) (current : Nat) (positive : 0 < current)
      (later : review.current ≤ current) :
      Step Known Gone review { review with
        published := true
        current := current
        owner := author
        active := insert author review.active
        ever := insert author review.ever }
  | join {review : Review υ ω} (author : υ) (known : Known author) :
      Step Known Gone review { review with
        active := insert author review.active
        ever := insert author review.ever
        marks := review.marks.filter fun mark => mark.reviewer ≠ some author }
  | leave {review : Review υ ω} (author : υ) (other : author ≠ review.owner) :
      Step Known Gone review { review with active := review.active \ {author} }
  | approve {review : Review υ ω} (reviewer : υ) (organization : Option ω)
      (published : review.published = true) (stranger : reviewer ≠ review.owner)
      (independent : reviewer ∉ review.ever)
      (unrivalled : ∀ mark ∈ review.marks,
        ¬ mark.Rivals ⟨review.current, some reviewer, organization⟩) :
      Step Known Gone review { review with
        marks := review.marks ++ [⟨review.current, some reviewer, organization⟩] }
  | inherit {review : Review υ ω} (heir : υ) (credited : heir ∈ review.active) :
      Step Known Gone review { review with owner := heir }
  | forget {review : Review υ ω} (gone : υ) (left : Gone gone) (other : review.owner ≠ gone) :
      Step Known Gone review { review with
        active := review.active \ {gone}
        ever := review.ever \ {gone}
        marks := (review.marks.filter fun mark => !goesWith gone mark).map (anonymise gone) }

abbrev Run (Known Gone : υ → Prop) : Review υ ω → Review υ ω → Prop :=
  Relation.ReflTransGen (Step Known Gone)

variable {Known Gone : υ → Prop} {review later : Review υ ω} {person : υ}

/-! ### Soundness -/

theorem reviewer_of_anonymise {gone reviewer : υ} {mark : Mark υ ω}
    (reads : (anonymise gone mark).reviewer = some reviewer) : mark.reviewer = some reviewer := by
  unfold anonymise at reads
  simp only at reads
  split at reads
  · contradiction
  · exact reads

/-- A mark whose reviewer left keeps its organization, so it rivals what it did. -/
theorem rivals_of_anonymise {gone : υ} {left right : Mark υ ω}
    (rivals : (anonymise gone left).Rivals (anonymise gone right)) : left.Rivals right := by
  rcases rivals with ⟨version, shared | ⟨leftOwn, rightOwn, reviewer, leftName, rightName⟩⟩
  · exact ⟨version, .inl shared⟩
  · exact ⟨version, .inr ⟨leftOwn, rightOwn, reviewer, reviewer_of_anonymise leftName,
      reviewer_of_anonymise rightName⟩⟩

theorem Sound.step (sound : review.Sound) (step : Step Known Gone review later) :
    later.Sound := by
  cases step with
  | edit current later =>
      exact { sound with
        numbered := fun published => lt_of_lt_of_le (sound.numbered published) later
        reached := fun mark member =>
          ⟨(sound.reached mark member).1, (sound.reached mark member).2.trans later⟩ }
  | publish author known draft current positive later =>
      have unmarked := sound.unreviewed draft
      exact {
        owned := fun _ => Set.mem_insert _ _
        active_subset := Set.insert_subset_insert sound.active_subset
        unreviewed := fun published => by simp at published
        numbered := fun _ => positive
        independent := fun mark member => by simp [unmarked] at member
        unrivalled := sound.unrivalled
        reached := fun mark member => by simp [unmarked] at member }
  | join author known =>
      refine {
        owned := fun published => Set.mem_insert_of_mem _ (sound.owned published)
        active_subset := Set.insert_subset_insert sound.active_subset
        unreviewed := fun draft => by simp [sound.unreviewed draft]
        numbered := sound.numbered
        independent := ?_
        unrivalled := sound.unrivalled.filter _
        reached := fun mark member => sound.reached mark (List.mem_of_mem_filter member) }
      intro mark member reviewer named
      rw [List.mem_filter] at member
      have standing := sound.independent mark member.1 reviewer named
      refine ⟨standing.1, ?_⟩
      rintro (rfl | credited)
      · simp [named] at member
      · exact standing.2 credited
  | leave author other =>
      exact { sound with
        owned := fun published => ⟨sound.owned published, fun same => other same.symm⟩
        active_subset := Set.sdiff_subset.trans sound.active_subset }
  | approve reviewer organization published stranger independent unrivalled =>
      refine { sound with
        unreviewed := fun draft => by simp [published] at draft
        independent := ?_
        unrivalled := ?_
        reached := ?_ }
      · intro mark member named reads
        rcases List.mem_append.mp member with old | new
        · exact sound.independent mark old named reads
        · rw [List.mem_singleton.mp new, Option.some.injEq] at reads
          subst reads
          exact ⟨stranger, independent⟩
      · rw [List.pairwise_append]
        refine ⟨sound.unrivalled, List.pairwise_singleton _ _, ?_⟩
        intro mark member new isNew
        rw [List.mem_singleton.mp isNew]
        exact unrivalled mark member
      · intro mark member
        rcases List.mem_append.mp member with old | new
        · exact sound.reached mark old
        · rw [List.mem_singleton.mp new]
          exact ⟨sound.numbered published, le_refl _⟩
  | inherit heir credited =>
      exact { sound with
        owned := fun _ => credited
        independent := fun mark member reviewer named =>
          have standing := sound.independent mark member reviewer named
          ⟨fun same => standing.2 (sound.active_subset (same ▸ credited)), standing.2⟩ }
  | forget gone left other =>
      refine {
        owned := fun published => ⟨sound.owned published, other⟩
        active_subset := Set.sdiff_subset_sdiff_left sound.active_subset
        unreviewed := fun draft => by simp [sound.unreviewed draft]
        numbered := sound.numbered
        independent := ?_
        unrivalled := ?_
        reached := ?_ }
      · intro mark member reviewer named
        rcases List.mem_map.mp member with ⟨old, kept, rfl⟩
        have standing := sound.independent old (List.mem_of_mem_filter kept) reviewer
          (reviewer_of_anonymise named)
        exact ⟨standing.1, fun credited => standing.2 credited.1⟩
      · refine List.Pairwise.map _ ?_ (sound.unrivalled.filter _)
        intro first second apart rivals
        exact apart (rivals_of_anonymise rivals)
      · intro mark member
        rcases List.mem_map.mp member with ⟨old, kept, rfl⟩
        exact sound.reached old (List.mem_of_mem_filter kept)

theorem Sound.run (sound : review.Sound) (run : Run Known Gone review later) : later.Sound := by
  induction run with
  | refl => exact sound
  | tail _ step inductionHypothesis => exact inductionHypothesis.step step

omit [DecidableEq υ] in
/-- Marks that rival one another are at most one. -/
theorem Sound.filter_length_le_one (sound : review.Sound) (keep : Mark υ ω → Bool)
    (rivals : ∀ left right, keep left = true → keep right = true → left.Rivals right) :
    (review.marks.filter keep).length ≤ 1 :=
  length_filter_le_one sound.unrivalled keep rivals

/-! ### Memory -/

/-- Only those gone are forgotten. -/
theorem Step.ever_mono (step : Step Known Gone review later) (credited : person ∈ review.ever)
    (stays : ¬ Gone person) : person ∈ later.ever := by
  cases step with
  | edit _ _ => exact credited
  | publish _ _ _ _ _ _ => exact Set.mem_insert_of_mem _ credited
  | join _ _ => exact Set.mem_insert_of_mem _ credited
  | leave _ _ => exact credited
  | approve _ _ _ _ _ _ => exact credited
  | inherit _ _ => exact credited
  | forget gone left _ => exact ⟨credited, fun same => stays (same ▸ left)⟩

theorem Run.ever_mono (run : Run Known Gone review later) (credited : person ∈ review.ever)
    (stays : ¬ Gone person) : person ∈ later.ever := by
  induction run with
  | refl => exact credited
  | tail _ step inductionHypothesis => exact step.ever_mono inductionHypothesis stays

/-- Credit goes to people known. -/
theorem Step.active_known (step : Step Known Gone review later)
    (credited : person ∈ later.active) : person ∈ review.active ∨ Known person := by
  cases step with
  | edit _ _ => exact .inl credited
  | publish _ known _ _ _ _ =>
      rcases credited with rfl | old
      · exact .inr known
      · exact .inl old
  | join _ known =>
      rcases credited with rfl | old
      · exact .inr known
      · exact .inl old
  | leave _ _ => exact .inl credited.1
  | approve _ _ _ _ _ _ => exact .inl credited
  | inherit _ _ => exact .inl credited
  | forget _ _ _ => exact .inl credited.1

theorem Run.active_known (run : Run Known Gone review later) (credited : person ∈ later.active) :
    person ∈ review.active ∨ Known person := by
  induction run with
  | refl => exact .inl credited
  | tail _ step inductionHypothesis =>
      rcases step.active_known credited with old | known
      · exact inductionHypothesis old
      · exact .inr known

end Review

end Vidit.Library
