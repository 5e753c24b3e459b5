import Vidit.Events.Readiness
import Vidit.Evidence.ProofPattern
import Vidit.World.Batch

/-!
Contract: which detections the queue, the batch publish and the browser call ready.

Owns:
- `detection_ready_predicate` over a row and the text of its proof;
- the read of a row, and `batchCompletionBlockers` over it;
- `ReadyIsPublishable`: the three agree on every detection of a run whose proof is canonical.

Does not own: the paging of the queue, and what the review adds to a detection.

Proof shape: each of the three is brought to the floor of `Event.Publishable`, and each reading of
the proof to the images of one body.
-/

namespace Vidit.World

open Vidit.Python Vidit.Accounts Vidit.Evidence Vidit.Events Vidit.Library

/-! ### The three readings -/

/-- `detection_ready_predicate`. -/
def detectionReady (geo : Event) (proof : Str) : Prop :=
  geo.coords ≠ none ∧
    (∃ source ∈ geo.sources, source.level ∈ evidenceLevels ∧ source.media.isSome = true) ∧
    (¬ ∃ source ∈ geo.sources, ¬ ∃ link, link ∈ source.links) ∧
    regexpMatch proof proofImagePattern

/-- A source as it is read, as far as the queue looks at it. -/
structure SourceRead where
  level : SourceLevel
  links : List SourceLink
  media : Option Media
deriving DecidableEq, Repr

/-- An event as it is read, as far as the queue looks at it. -/
structure EventRead where
  coords : Option Point
  proof : Str
  sources : List SourceRead
deriving DecidableEq, Repr

/-- `build_source_read`. -/
def buildSourceRead (source : Source) : SourceRead :=
  ⟨source.level, source.links, source.media⟩

/-- `build_event_read`. -/
def buildEventRead (geo : Event) (proof : Str) : EventRead :=
  ⟨geo.coords, proof, geo.sources.map buildSourceRead⟩

/-- The labels of what a detection lacks. -/
inductive MissingField where
  | coordinates
  | proofImage
  | sourceLink
  | sourceFile
deriving DecidableEq, Repr

/-- `FIELD_LABELS`. -/
def MissingField.label : MissingField → String
  | .coordinates => "Coordinates"
  | .proofImage => "Proof image"
  | .sourceLink => "Source URL"
  | .sourceFile => "Source file"

/-- `isEvidenceLevel`. -/
def isEvidenceLevel : SourceLevel → Bool
  | .direct => true
  | .indirect => true
  | .context => false

/-- `batchCompletionBlockers`, in the order of the server's checks. -/
def batchCompletionBlockers (decode : Str → Str) (geo : EventRead) : List MissingField :=
  (if geo.coords = none then [.coordinates] else []) ++
    (if geo.proof = [] ∨ proofHasImage decode geo.proof = false then [.proofImage] else []) ++
    (if geo.sources.any fun source => source.links.length = 0 then [.sourceLink] else []) ++
    if geo.sources.any fun source => isEvidenceLevel source.level && source.media.isSome then []
    else [.sourceFile]

/-- Every detection of a run whose proof is canonical is ready in the queue exactly when a batch
publishes it, and exactly when the browser finds nothing missing. -/
def ReadyIsPublishable (config : Config) (decode : Str → Str) : Prop :=
  ∀ state, (system config).Reachable state → ∀ geo ∈ state.events, ∀ user : User,
    geo.IsVisible → geo.ownerId = user.id → geo.status = .detected →
    ∀ document : Document, document.Canonical → geo.proof = document.body decode →
    ∀ (kind : SourceKind) (conflicts : List Conflict),
      (detectionReady geo document.render ↔
        ∃ published, publishDetection (state.transaction config) geo user kind conflicts =
          .ok published) ∧
      (detectionReady geo document.render ↔
        batchCompletionBlockers decode (buildEventRead geo document.render) = [])

/-! ### The proof -/

section Proofs

variable {document : Document} {decode : Str → Str}

/-- The srcs of a document's body are those of its images. -/
theorem imageSrcs_body_ne_nil (decode : Str → Str) (document : Document) :
    imageSrcs (document.body decode) ≠ [] ↔
      ∃ tag, Piece.startTag tag ∈ document ∧ tag.ShowsImage := by
  rw [imageSrcs_body, ← List.length_pos_iff, List.length_map, List.length_pos_iff_exists_mem]
  constructor
  · rintro ⟨src, member⟩
    obtain ⟨piece, inDocument, shown⟩ := List.mem_filterMap.mp member
    cases piece with
    | text written => cases shown
    | endTag name => cases shown
    | startTag tag =>
        have read : tag.src? = some src := shown
        unfold StartTag.src? StartTag.value at read
        split at read
        · next isImage =>
          obtain ⟨entry, found, _⟩ := Option.map_eq_some_iff.mp read
          refine ⟨tag, inDocument, isImage, entry, List.mem_of_find?_eq_some found, ?_⟩
          simpa using List.find?_some found
        · cases read
  · rintro ⟨tag, inDocument, isImage, entry, inTag, isSrc⟩
    have found : (tag.attributes.find? fun entry => entry.1 = str "src").isSome = true :=
      List.find?_isSome.mpr ⟨entry, inTag, decide_eq_true isSrc⟩
    obtain ⟨first, here⟩ := Option.isSome_iff_exists.mp found
    refine ⟨first.2, List.mem_filterMap.mpr ⟨_, inDocument, ?_⟩⟩
    show tag.src? = some first.2
    unfold StartTag.src? StartTag.value
    rw [if_pos isImage, here]
    rfl

theorem extractImageSrcs_eq_nil {body : Body} : extractImageSrcs body = [] ↔ imageSrcs body = [] := by
  simp only [List.eq_nil_iff_forall_not_mem, mem_extractImageSrcs]

/-- The database and the body agree on whether a proof shows an image. -/
theorem regexpMatch_body (decode : Str → Str) (canonical : document.Canonical) :
    regexpMatch document.render proofImagePattern ↔
      extractImageSrcs (document.body decode) ≠ [] := by
  rw [regexpMatch_proofImagePattern canonical, ← imageSrcs_body_ne_nil decode, ne_eq, ne_eq,
    extractImageSrcs_eq_nil]

/-- The browser and the body agree on it. -/
theorem proofHasImage_body (decode : Str → Str) (canonical : document.Canonical) :
    (document.render = [] ∨ proofHasImage decode document.render = false) ↔
      extractImageSrcs (document.body decode) = [] := by
  have none : proofHasImage decode document.render = false ↔
      imageSrcs (document.body decode) = [] := by
    unfold proofHasImage
    rw [proofImageSrcs_render decode canonical, decide_eq_false_iff_not, Nat.not_lt,
      Nat.le_zero, List.length_eq_zero_iff]
  rw [extractImageSrcs_eq_nil, none]
  constructor
  · rintro (empty | hidden)
    · rw [← none, empty]
      rfl
    · exact hidden
  · exact .inr

end Proofs

section Rows

variable {geo : Event} {user : User} {document : Document} {decode : Str → Str}

/-- The floor of a batch publish, on a live detection of the account. -/
theorem publishable_iff_detectionReady (visible : geo.IsVisible) (owned : geo.ownerId = user.id)
    (detected : geo.status = .detected) (canonical : document.Canonical)
    (proof : geo.proof = document.body decode) :
    geo.Publishable user ↔ detectionReady geo document.render := by
  have linked : (¬ ∃ source ∈ geo.sources, ¬ ∃ link, link ∈ source.links) ↔
      ∀ source ∈ geo.sources, source.links ≠ [] := by
    have nonempty : ∀ source : Source, (∃ link, link ∈ source.links) ↔ source.links ≠ [] :=
      fun source => by rw [← List.length_pos_iff_exists_mem, List.length_pos_iff]
    simp only [nonempty, not_exists, not_and, not_not]
  have images := regexpMatch_body decode canonical
  rw [← proof] at images
  unfold detectionReady
  rw [linked, images]
  constructor
  · intro publishable
    exact ⟨publishable.located, publishable.evidenceFile, publishable.linked,
      publishable.proofImage⟩
  · rintro ⟨located, evidenceFile, linked, proofImage⟩
    exact ⟨visible, owned, detected, located, proofImage, linked, evidenceFile⟩

theorem isEvidenceLevel_iff {level : SourceLevel} :
    isEvidenceLevel level = true ↔ level ∈ evidenceLevels := by
  cases level with
  | direct => decide
  | indirect => decide
  | context => decide

/-- The browser's blockers, one leg each. -/
theorem batchCompletionBlockers_eq_nil (canonical : document.Canonical)
    (proof : geo.proof = document.body decode) :
    batchCompletionBlockers decode (buildEventRead geo document.render) = [] ↔
      geo.coords ≠ none ∧ extractImageSrcs geo.proof ≠ [] ∧
        (∀ source ∈ geo.sources, source.links ≠ []) ∧
        ∃ source ∈ geo.sources, source.level ∈ evidenceLevels ∧ source.media.isSome = true := by
  have leg : ∀ {missing : MissingField} {lacks : Prop} [Decidable lacks],
      (if lacks then [missing] else []) = [] ↔ ¬ lacks := by
    intro missing lacks _
    by_cases here : lacks
    · simp [here]
    · simp [here]
  have links : ((geo.sources.map buildSourceRead).any fun source => source.links.length = 0) = false ↔
      ∀ source ∈ geo.sources, source.links ≠ [] := by
    rw [List.any_map, List.any_eq_false]
    refine forall₂_congr fun source _ => ?_
    show ¬ decide (source.links.length = 0) = true ↔ source.links ≠ []
    rw [decide_eq_true_iff, List.length_eq_zero_iff]
  have files : ((geo.sources.map buildSourceRead).any fun source =>
      isEvidenceLevel source.level && source.media.isSome) = true ↔
      ∃ source ∈ geo.sources, source.level ∈ evidenceLevels ∧ source.media.isSome = true := by
    simp [buildSourceRead, isEvidenceLevel_iff]
  unfold batchCompletionBlockers buildEventRead
  simp only [List.append_eq_nil_iff]
  rw [leg, leg, leg, proofHasImage_body decode canonical, ← proof, ← files, Bool.not_eq_true, links]
  by_cases filed : ((geo.sources.map buildSourceRead).any fun source =>
      isEvidenceLevel source.level && source.media.isSome) = true
  · rw [if_pos filed]
    simp only [filed, and_true]
    tauto
  · rw [if_neg filed]
    simp [filed]

end Rows

end Vidit.World
