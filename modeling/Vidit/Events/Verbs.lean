import Vidit.Events.Credit
import Vidit.Events.Sources

/-!
Contract: the lifecycle writes of one event, each on the row it has locked.

Owns:
- `create_with_evidence`, `create_request`, `update_request`, `save_version`,
  `_publish_detection`, `close` and `redact_version`, up to their commit;
- what each leaves for the commit: the event, the uploads it took, the objects
  it stored and the ones it dropped.

Does not own: finding and locking the row, the commit and the sweep
(`Vidit.World`); notifications, the audit log and the points cache.
-/

namespace Vidit.Events

open Vidit.Python Vidit.Accounts Vidit.Evidence Vidit.Library

/-- What the create and edit forms post, coordinates apart. -/
structure EventForm where
  title : Str
  occurredDate : Option Date
  occurredTime : Option TimeOfDay
  proofData : Option Str
  tagIds : List Uuid
  conflictIds : List Uuid
  sources : List SourceSpec
  proofFiles : List UploadFile

/-- What a write leaves for its commit. -/
structure Written where
  event : Event
  taken : List Uuid
  stored : List Media
  dropped : List StoredObject
  /-- How many UUIDs it drew. -/
  draws : Nat

/-! ### Shared rules -/

/-- `_sanitize_proof`. -/
def sanitizeProof (config : Config) (proofData : Option Str) :
    Except EventError (Option Body) :=
  match proofData with
  | none => .ok none
  | some html => ((config.sanitizeHtml html).map some).mapError .invalidProof

/-- `_require_proof_image`. -/
def requireProofImage (proof : Option Body) : Except EventError Unit :=
  require (extractImageSrcs (proof.getD []) ≠ []) .proofImageRequired

/-- `_resolve_tags`. -/
def resolveTags (tx : Transaction) (ids : List Uuid) : List Tag :=
  tx.tags.filter fun tag => tag.id ∈ ids

/-- `_resolve_conflicts`. -/
def resolveConflicts (tx : Transaction) (ids : List Uuid) : List Conflict :=
  tx.conflicts.filter fun conflict => conflict.id ∈ ids

/-- `_require_conflict`. -/
def requireConflict (conflicts : List Conflict) : Except EventError Unit :=
  require (conflicts ≠ []) .conflictRequired

/-- `apply_sources` and `attach_evidence_and_commit`, which end every write of
the form: the sources, then the proof. -/
def finishWrite (config : Config) (tx : Transaction) (geo : Event)
    (planned : List PlannedSource) (proofHtml : Option Body) (proofFiles : List UploadFile) :
    Except EventError Written := do
  let applied ← applySources config tx geo.sources planned
  let attached ← attachEvidence config tx { geo with sources := applied.sources } proofHtml
    proofFiles (1 + 2 * planned.length)
  pure {
    event := attached.event
    taken := applied.taken
    stored := attached.stored
    dropped := attached.dropped ++ applied.removed
    draws := 1 + 2 * planned.length + 2 * attached.stored.length }

/-! ### Creating -/

/-- A row as `Event(...)` and the column defaults leave it. -/
def newEvent (tx : Transaction) (owner : User) (status : Status) (form : EventForm)
    (coords : Option Point) : Event where
  id := tx.uuid 0
  ownerId := owner.id
  requestedById := none
  title := form.title
  coords := coords
  proof := []
  occurredDate := form.occurredDate
  occurredTime := form.occurredTime
  requestedAt := none
  detectedAt := none
  geolocatedAt := none
  status := status
  createdAt := tx.now
  closedAt := none
  closeReason := none
  beforeClosedStatus := none
  deletedAt := none
  hiddenAt := none
  -- `_initial_version`: 0 for a row born unpublished
  versionNo := if status ∈ [.requested, .detected] then 0 else 1
  media := []
  sources := []
  tags := resolveTags tx form.tagIds
  conflicts := resolveConflicts tx form.conflictIds
  geolocators := []
  detection := none
  versions := []
  approvals := []
  approvalRequests := []
  collectionItems := []

/-- `create_with_evidence`. -/
def createWithEvidence (config : Config) (tx : Transaction) (currentUser : User)
    (form : EventForm) (lat lng : Rat) (geolocatorInvites : List Str) :
    Except EventError Written := do
  validateCoordinates lat lng
  let proofData ← sanitizeProof config form.proofData
  requireProofImage proofData
  requireConflict (resolveConflicts tx form.conflictIds)
  let planned ← planSources config tx none form.sources currentUser
  checkPublishFloor (plannedFloor planned)
  let geo := { newEvent tx currentUser .geolocated form (some ⟨lat, lng⟩) with
    geolocatedAt := some tx.now }
  let geo ← inviteOnPublish tx (creditGeolocator geo currentUser.id tx.now) geolocatorInvites
  finishWrite config tx geo planned proofData form.proofFiles

/-- `ImportProvenance`. -/
structure ImportProvenance where
  tweetId : Option Int
  url : Str
  threadTweetIds : List Int
  via : DetectedVia
  postAt : Option Instant
deriving DecidableEq, Repr

/-- `stamp_provenance`: the `event_detections` row. -/
def stampProvenance (provenance : ImportProvenance) : EventDetection where
  via := some provenance.via
  fromUrl := provenance.url
  fromPostId := provenance.tweetId
  threadPostIds := if provenance.threadTweetIds = [] then none else some provenance.threadTweetIds
  postAt := provenance.postAt

/-- `create_request`. -/
def createRequest (config : Config) (tx : Transaction) (currentUser : User) (form : EventForm)
    (lat lng : Option Rat) (provenance : Option ImportProvenance) :
    Except EventError Written := do
  let guess ← optionalPoint lat lng (str "coords")
  let proofData ← sanitizeProof config form.proofData
  let planned ← planSources config tx none form.sources currentUser
  checkPublishFloor (plannedFloor planned)
  let geo := { newEvent tx currentUser .requested form guess with
    requestedById := some currentUser.id
    requestedAt := some tx.now
    detection := provenance.map stampProvenance }
  finishWrite config tx geo planned proofData form.proofFiles

/-! ### Editing -/

/-- `update_request`. -/
def updateRequest (config : Config) (tx : Transaction) (geo : Event) (currentUser : User)
    (form : EventForm) (lat lng : Option Rat) : Except EventError Written := do
  ensureOwner geo currentUser
  require (geo.status = .requested) (.eventState .requestNotOpen)
  let guess ← optionalPoint lat lng (str "coords")
  let proofData ← sanitizeProof config form.proofData
  let planned ← planSources config tx (some geo) form.sources currentUser
  checkPublishFloor (plannedFloor planned)
  let edited := { geo with
    title := form.title
    coords := guess
    occurredDate := form.occurredDate
    occurredTime := form.occurredTime
    tags := resolveTags tx form.tagIds
    conflicts := resolveConflicts tx form.conflictIds }
  finishWrite config tx edited planned proofData form.proofFiles

/-- What the form proposes, for the no-change check. -/
def proposedOf (tx : Transaction) (geo : Event) (form : EventForm) (lat lng : Rat)
    (proofData : Option Body) : Proposed where
  title := form.title
  coords := some ⟨lat, lng⟩
  occurredDate := form.occurredDate
  occurredTime := form.occurredTime
  tags := (resolveTags tx form.tagIds).map tagEntry
  conflicts := (resolveConflicts tx form.conflictIds).map conflictEntry
  proof := proofData.getD geo.proof

/-- Whether the sources of the plan differ from the stored ones. -/
def sourcesMove (config : Config) (archives : Bool) (geo : Event)
    (planned : List PlannedSource) : Bool :=
  geo.sources.map (comparableStored config archives) ≠
    planned.map (comparablePlanned config archives)

/-- The fields `save_version` sets after it filed the superseded version. -/
def editFields (tx : Transaction) (geo : Event) (form : EventForm) (lat lng : Rat)
    (publishing : Bool) : Event :=
  { geo with
    title := form.title
    coords := some ⟨lat, lng⟩
    occurredDate := form.occurredDate
    occurredTime := form.occurredTime
    tags := resolveTags tx form.tagIds
    conflicts := resolveConflicts tx form.conflictIds
    status := if publishing then .geolocated else geo.status
    geolocatedAt := if publishing then some tx.now else geo.geolocatedAt }

/-- `_UNPUBLISHED`. -/
def isUnpublished (status : Status) : Bool :=
  status ∈ [.requested, .detected]

/-- Anyone fulfils a request; the rest is their owner's to edit. -/
def ensureMayEdit (geo : Event) (currentUser : User) : Except EventError Unit :=
  if geo.status = .requested then pure () else ensureOwner geo currentUser

/-- The credit of a publish, with the invitations it sends. -/
def creditOnPublish (tx : Transaction) (edited : Event) (currentUser : User)
    (publishing : Bool) (geolocatorInvites : List Str) : Except EventError Event :=
  if publishing then
    inviteOnPublish tx (creditGeolocator edited currentUser.id tx.now) geolocatorInvites
  else pure edited

/-- `save_version`. -/
def saveVersion (config : Config) (tx : Transaction) (geo : Event) (currentUser : User)
    (form : EventForm) (lat lng : Rat) (note : Option Str) (expectedVersion : Option Nat)
    (geolocatorInvites : List Str) : Except EventError Written := do
  require (geo.status ≠ .closed) (.eventState .notWritable)
  require (∀ expected ∈ expectedVersion, expected = geo.versionNo)
    (.versionMismatch geo.versionNo)
  let publishing := isUnpublished geo.status
  require (geolocatorInvites = [] ∨ publishing = true) (.eventState .invitesAfterPublish)
  ensureMayEdit geo currentUser
  validateCoordinates lat lng
  let proofData ← sanitizeProof config form.proofData
  requireProofImage (some (proofData.getD geo.proof))
  requireConflict (resolveConflicts tx form.conflictIds)
  let planned ← planSources config tx (some geo) form.sources currentUser
  checkPublishFloor (plannedFloor planned)
  let proposed := proposedOf tx geo form lat lng proofData
  let currentSnapshot := buildSnapshot geo
  let fieldsMove := publishing || !matchesCurrent config.uuids.text currentSnapshot proposed ||
    sourcesMove config false geo planned
  require (fieldsMove = true ∨ sourcesMove config true geo planned = true)
    (.nothingChanged geo.versionNo)
  let filed ← fileVersion geo currentUser note currentSnapshot tx.now fieldsMove
  let edited := editFields tx filed form lat lng publishing
  let credited ← creditOnPublish tx edited currentUser publishing geolocatorInvites
  finishWrite config tx credited planned proofData form.proofFiles

/-- The row `_publish_detection` leaves, its version filed. -/
def publishedDetection (tx : Transaction) (filed : Event) (currentUser : User)
    (kind : SourceKind) (conflicts : List Conflict) : Event :=
  creditGeolocator { filed with
    sources := filed.sources.map fun source =>
      if source.media.isSome then { source with kind := kind } else source
    conflicts := conflicts
    status := .geolocated
    geolocatedAt := some tx.now } currentUser.id tx.now

/-- `_publish_detection`. -/
def publishDetection (tx : Transaction) (geo : Event) (currentUser : User) (kind : SourceKind)
    (conflicts : List Conflict) : Except EventError Event := do
  require geo.IsVisible .eventNotFound
  ensureOwner geo currentUser
  require (geo.status = .detected) (.eventState .notADetection)
  require (geo.coords ≠ none) .coordinatesRequired
  requireProofImage (some geo.proof)
  require (∀ source ∈ geo.sources, source.links ≠ []) .sourceLinkRequired
  checkPublishFloor (storedFloor geo.sources)
  let filed ← fileVersion geo currentUser none (buildSnapshot geo) tx.now true
  pure (publishedDetection tx filed currentUser kind conflicts)

/-! ### Ending -/

/-- `close`. -/
def close (tx : Transaction) (geo : Event) (currentUser : User) (closeReason : Str) :
    Except EventError Event := do
  ensureOwner geo currentUser
  require (geo.status ≠ .closed) (.eventState .alreadyClosed)
  pure { geo with
    beforeClosedStatus := some geo.status
    status := .closed
    closedAt := some tx.now
    closeReason := some closeReason }

/-- `prune_unreferenced_proof_media`: the event without the proof rows nothing
renders. -/
def keptProofSrcs (geo : Event) : List Str :=
  displayedProofSrcs geo.proof ++ historyPinnedSrcs geo

def prunedProof (geo : Event) : Event :=
  { geo with media := geo.media.filter fun media => media.storageUrl ∈ keptProofSrcs geo }

/-- The event with one version blanked, before the prune. -/
def redacted (tx : Transaction) (geo : Event) (actorId : Uuid) (versionNo : Nat) : Event :=
  { geo with
    versions := geo.versions.map fun version =>
      if version.versionNo = versionNo then version.redact actorId tx.now else version }

/-- What `admin.redact_version` leaves for its commit. -/
structure Redaction where
  event : Event
  /-- The proof rows it pruned. -/
  removedProofs : List StoredObject
  /-- The source files the blanked version named. -/
  supersededSources : List MediaEntry

/-- `admin.redact_version` on a live event; `none` for a version already
redacted, which it leaves alone. -/
def redactVersion (tx : Transaction) (geo : Event) (actorId : Uuid) (versionNo : Nat) :
    Except EventError (Option Redaction) := do
  require (geo.deletedAt = none) (.admin .eventNotFound)
  let version ← orRefuse (geo.version? versionNo) (.admin .versionNotFound)
  if version.redactedAt ≠ none then pure none
  else
    let blanked := redacted tx geo actorId versionNo
    pure (some {
      event := prunedProof blanked
      removedProofs := mediaObjects (droppedProofMedia blanked (keptProofSrcs blanked))
      supersededSources := (version.snapshot.map Snapshot.sourceMedia).getD [] })

end Vidit.Events
