import Vidit.Events.Errors
import Vidit.Library.Checks

/-!
Contract: the version history of an event.

Owns:
- `build_snapshot` and `file_version`, the only way a version comes to be;
- the two floors a readable snapshot puts under deletion
  (`referenced_media_urls`, `referenced_source_media`);
- `matches_current`, and `redact_version` on one filed row.

Does not own: the order in which a write files the version and edits the row.
-/

namespace Vidit.Events

open Vidit.Python Vidit.Accounts Vidit.Evidence Vidit.Library

/-! ### Snapshots -/

def tagEntry (tag : Tag) : NamedEntry := ⟨tag.id, tag.name⟩

def conflictEntry (conflict : Conflict) : NamedEntry := ⟨conflict.id, conflict.name⟩

def mediaEntry (role : MediaRole) (media : Media) : MediaEntry where
  id := media.id
  role := role
  storageUrl := media.storageUrl
  kind := media.kind
  sha256 := media.sha256
  originalFilename := media.originalFilename

def sourceEntry (source : Source) : SourceEntry where
  title := source.title
  level := source.level
  kind := source.kind
  capturedAt := source.capturedAt
  capturePosition := source.capturePosition
  isGraphic := source.isGraphic
  links := source.links
  tags := source.tags.map tagEntry
  media := source.media.map (mediaEntry .source)

/-- `build_snapshot`. -/
def buildSnapshot (geo : Event) : Snapshot where
  title := geo.title
  coords := geo.coords
  occurredDate := geo.occurredDate
  occurredTime := geo.occurredTime
  sources := geo.sources.map sourceEntry
  tags := geo.tags.map tagEntry
  conflicts := geo.conflicts.map conflictEntry
  proof := geo.proof
  proofMedia :=
    (geo.media.filter fun media => media.storageUrl ∈ extractImageSrcs geo.proof).map
      (mediaEntry .proof)

/-- `source_media_of`. -/
def Snapshot.sourceMedia (snapshot : Snapshot) : List MediaEntry :=
  snapshot.sources.filterMap SourceEntry.media

/-! ### Filing -/

/-- The row `file_version` adds. -/
def versionRow (geo : Event) (editedBy : User) (note : Option Str) (snapshot : Snapshot)
    (now : Instant) : EventVersion where
  versionNo := geo.versionNo
  editedById := some editedBy.id
  note := note
  snapshot := some snapshot
  createdAt := now
  redactedAt := none
  redactedById := none

/-- `file_version`. -/
def fileVersion (geo : Event) (editedBy : User) (note : Option Str) (snapshot : Snapshot)
    (now : Instant) (enforceCeiling : Bool) : Except EventError Event := do
  require (¬ (enforceCeiling = true ∧ maxVersionsPerEvent ≤ geo.versionNo)) .versionLimit
  pure { geo with
    versions := geo.versions ++ [versionRow geo editedBy note snapshot now]
    versionNo := geo.versionNo + 1 }

/-! ### The floors -/

/-- The snapshots nothing has redacted. -/
def Event.readableSnapshots (geo : Event) : List Snapshot :=
  (geo.versions.filter fun version => version.redactedAt = none).filterMap
    EventVersion.snapshot

/-- `referenced_media_urls`. -/
def referencedMediaUrls (geo : Event) : List Str :=
  geo.readableSnapshots.flatMap fun snapshot => snapshot.proofMedia.map MediaEntry.storageUrl

/-- `referenced_source_media`. -/
def referencedSourceMedia (geo : Event) : List MediaEntry :=
  geo.readableSnapshots.flatMap Snapshot.sourceMedia

/-! ### The no-change check -/

/-- The fields of `COMPARED_FIELDS` an edit proposes. -/
structure Proposed where
  title : Str
  coords : Option Point
  occurredDate : Option Date
  occurredTime : Option TimeOfDay
  tags : List NamedEntry
  conflicts : List NamedEntry
  proof : Body
deriving DecidableEq, Repr

/-- `_ids`: the ids of a tag or conflict fragment, sorted. -/
def sortedIds (uuidText : Uuid → Str) (entries : List NamedEntry) : List Str :=
  sortedBy textLe (entries.map fun entry => uuidText entry.id)

/-- `matches_current`. -/
def matchesCurrent (uuidText : Uuid → Str) (current : Snapshot) (proposed : Proposed) : Bool :=
  current.title = proposed.title && current.coords = proposed.coords &&
    current.occurredDate = proposed.occurredDate &&
    current.occurredTime = proposed.occurredTime &&
    sortedIds uuidText current.tags = sortedIds uuidText proposed.tags &&
    sortedIds uuidText current.conflicts = sortedIds uuidText proposed.conflicts &&
    current.proof = proposed.proof

/-! ### Redaction -/

/-- `versions.redact_version` on a row nothing has redacted yet. -/
def EventVersion.redact (version : EventVersion) (actorId : Uuid) (now : Instant) :
    EventVersion :=
  { version with
    redactedAt := some now
    redactedById := some actorId
    snapshot := none
    note := none }

/-- The row filed under a number, as `get_version` finds it. -/
def Event.version? (geo : Event) (versionNo : Nat) : Option EventVersion :=
  geo.versions.find? fun version => version.versionNo = versionNo

/-! ### `version_zero` -/

/-- `VersionZero`. -/
inductive VersionZero where
  | request
  | detection
deriving DecidableEq, Repr

/-- `version_zero`. -/
def versionZero (geo : Event) : Option VersionZero :=
  if 0 < geo.versionNo ∧ geo.version? 0 = none then none
  else if geo.requestedAt ≠ none then some .request
  else some .detection

end Vidit.Events
