import Vidit.Events.Outcomes

/-!
Contract: which detections `_publish_detection` accepts.

Owns:
- `Event.Publishable`, the floor of a batch publish leg by leg;
- that the floor is what the publish checks, whatever the conflicts, the kind and the instant.

Does not own: the batch around it (`Vidit.World.Batch`).
-/

namespace Vidit.Events

open Vidit.Python Vidit.Accounts Vidit.Evidence Vidit.Library

/-- The legs of `_publish_detection` a row is held to. -/
structure Event.Publishable (geo : Event) (user : User) : Prop where
  visible : geo.IsVisible
  owned : geo.ownerId = user.id
  detected : geo.status = .detected
  located : geo.coords ≠ none
  proofImage : extractImageSrcs geo.proof ≠ []
  linked : ∀ source ∈ geo.sources, source.links ≠ []
  evidenceFile : ∃ source ∈ geo.sources, source.level ∈ evidenceLevels ∧ source.media.isSome = true

theorem checkPublishFloor_stored {sources : List Source} :
    checkPublishFloor (storedFloor sources) = .ok () ↔
      ∃ source ∈ sources, source.level ∈ evidenceLevels ∧ source.media.isSome = true := by
  unfold checkPublishFloor storedFloor
  simp only [bind_eq_ok, require_eq_ok]
  constructor
  · intro passed
    obtain ⟨_, _, filed⟩ := passed
    rw [List.any_eq_true] at filed
    obtain ⟨hasFile, member, held⟩ := filed
    rw [List.mem_map] at member
    obtain ⟨leg, kept, rfl⟩ := member
    rw [List.mem_filter, List.mem_map, decide_eq_true_iff] at kept
    obtain ⟨⟨source, here, rfl⟩, evidence⟩ := kept
    exact ⟨source, here, evidence, held⟩
  · intro filed
    obtain ⟨source, here, evidence, held⟩ := filed
    have member : (source.level, source.media.isSome) ∈
        (sources.map fun source => (source.level, source.media.isSome)).filter
          fun source => source.1 ∈ evidenceLevels := by
      rw [List.mem_filter, decide_eq_true_iff]
      exact ⟨List.mem_map_of_mem here, evidence⟩
    refine ⟨(), ?_, ?_⟩
    · intro empty
      rw [List.map_eq_nil_iff] at empty
      rw [empty] at member
      cases member
    · rw [List.any_eq_true]
      exact ⟨_, List.mem_map_of_mem member, held⟩

/-- The publish of a draft passes exactly on the rows the floor accepts. -/
theorem publishDetection_isOk_iff {tx : Transaction} {geo : Event} {user : User}
    {kind : SourceKind} {conflicts : List Conflict} (draft : geo.versionNo < maxVersionsPerEvent) :
    (∃ published, publishDetection tx geo user kind conflicts = .ok published) ↔
      geo.Publishable user := by
  have files : fileVersion geo user none (buildSnapshot geo) tx.now true =
      .ok (filedEvent geo user none tx.now) := by
    unfold fileVersion require
    rw [if_pos]
    · rfl
    · intro full
      omega
  unfold publishDetection ensureOwner requireProofImage
  simp only [bind_eq_ok, require_eq_ok, pure_eq_ok]
  constructor
  · intro accepted
    obtain ⟨_, _, visible, _, owned, _, detected, _, located, _, proofImage, _, linked, _, floor, _⟩ :=
      accepted
    exact ⟨visible, owned, detected, located, proofImage, linked, checkPublishFloor_stored.mp floor⟩
  · intro publishable
    exact ⟨_, (), publishable.visible, (), publishable.owned, (), publishable.detected, (),
      publishable.located, (), publishable.proofImage, (), publishable.linked, (),
      checkPublishFloor_stored.mpr publishable.evidenceFile, _, files, rfl⟩

end Vidit.Events
