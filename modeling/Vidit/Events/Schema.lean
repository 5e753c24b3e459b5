import Vidit.Accounts.User
import Vidit.Evidence.Body
import Vidit.Evidence.Storage

/-!
Contract: the rows of one event.

Owns: the `events` row together with the rows that hang off it (media, sources
and their links, versions, geolocators, approvals and approval requests, the
detection row, the collection items that list it), tags and conflicts, and the
staged `uploads`.

A list models a collection in the order the code reads it: sources by position,
links by posting date, versions by number.
-/

namespace Vidit.Events

open Vidit.Python Vidit.Accounts Vidit.Evidence

/-- `EventStatus`. -/
inductive Status where
  | requested
  | detected
  | geolocated
  | closed
deriving DecidableEq, Repr

/-- `DetectedVia`. -/
inductive DetectedVia where
  | bot
  | paste
  | archive
deriving DecidableEq, Repr

inductive GeolocatorState where
  | invited
  | active
  | departed
deriving DecidableEq, Repr

inductive SourceLevel where
  | direct
  | indirect
  | context
deriving DecidableEq, Repr

inductive SourceKind where
  | smartphone
  | camera
  | staticCamera
  | drone
  | aircraft
  | satellite
  | dashcam
  | bodyCam
  | article
  | officialStatement
  | other
  | unknown
deriving DecidableEq, Repr

/-- A stored WGS84 point; a stored double is an exact rational. -/
structure Point where
  lat : Rat
  lng : Rat
deriving DecidableEq, Repr

/-- A day, as a number of days. -/
abbrev Date := Int

/-- A time of day, in microseconds. -/
abbrev TimeOfDay := Nat

structure Tag where
  id : Uuid
  name : Str
deriving DecidableEq, Repr

structure Conflict where
  id : Uuid
  name : Str
deriving DecidableEq, Repr

/-- One `media` row; its parent is the record it is listed in. -/
structure Media where
  id : Uuid
  storageUrl : Str
  kind : MediaKind
  sha256 : Str
  originalFilename : Option Str
deriving DecidableEq, Repr

structure SourceLink where
  url : Str
  postedAt : Option Instant
  snapshotUrl : Option Str
  archivedAt : Option Instant
deriving DecidableEq, Repr

structure Source where
  id : Uuid
  title : Str
  level : SourceLevel
  kind : SourceKind
  capturedAt : Option Instant
  capturePosition : Option Point
  isGraphic : Bool
  links : List SourceLink
  tags : List Tag
  media : Option Media
deriving DecidableEq, Repr

/-! ### Snapshots -/

inductive MediaRole where
  | source
  | proof
deriving DecidableEq, Repr

/-- `media_entry`: a media row as a snapshot stores it. -/
structure MediaEntry where
  id : Uuid
  role : MediaRole
  storageUrl : Str
  kind : MediaKind
  sha256 : Str
  originalFilename : Option Str
deriving DecidableEq, Repr

/-- A tag or a conflict as a snapshot stores it. -/
structure NamedEntry where
  id : Uuid
  name : Str
deriving DecidableEq, Repr

/-- `source_entry`: a source as a snapshot stores it, without its id. -/
structure SourceEntry where
  title : Str
  level : SourceLevel
  kind : SourceKind
  capturedAt : Option Instant
  capturePosition : Option Point
  isGraphic : Bool
  links : List SourceLink
  tags : List NamedEntry
  media : Option MediaEntry
deriving DecidableEq, Repr

structure Snapshot where
  title : Str
  coords : Option Point
  occurredDate : Option Date
  occurredTime : Option TimeOfDay
  sources : List SourceEntry
  tags : List NamedEntry
  conflicts : List NamedEntry
  proof : Body
  proofMedia : List MediaEntry
deriving DecidableEq, Repr

structure EventVersion where
  versionNo : Nat
  editedById : Option Uuid
  note : Option Str
  /-- `none` is the `{}` a redaction leaves. -/
  snapshot : Option Snapshot
  createdAt : Instant
  redactedAt : Option Instant
  redactedById : Option Uuid
deriving DecidableEq, Repr

/-! ### Credit and review -/

structure EventGeolocator where
  userId : Uuid
  state : GeolocatorState
  invitedAt : Option Instant
  joinedAt : Option Instant
  departedAt : Option Instant
deriving DecidableEq, Repr

structure EventApproval where
  id : Uuid
  versionNo : Nat
  reviewerId : Option Uuid
  organizationId : Option Uuid
  createdAt : Instant
deriving DecidableEq, Repr

inductive ApprovalRequestStatus where
  | open
  | declined
  | approved
  | withdrawn
deriving DecidableEq, Repr

structure ApprovalRequest where
  id : Uuid
  versionNo : Nat
  requesterId : Uuid
  targetUserId : Option Uuid
  targetOrganizationId : Option Uuid
  status : ApprovalRequestStatus
  createdAt : Instant
  resolvedAt : Option Instant
deriving DecidableEq, Repr

/-- A `collection_events` row, with the owner of its collection. -/
structure CollectionItem where
  collectionId : Uuid
  ownerId : Uuid
deriving DecidableEq, Repr

/-! ### The event -/

/-- The `event_detections` row. -/
structure EventDetection where
  via : Option DetectedVia
  fromUrl : Str
  fromPostId : Option Int
  threadPostIds : Option (List Int)
  postAt : Option Instant
deriving DecidableEq, Repr

structure Event where
  id : Uuid
  ownerId : Uuid
  requestedById : Option Uuid
  title : Str
  coords : Option Point
  proof : Body
  occurredDate : Option Date
  occurredTime : Option TimeOfDay
  requestedAt : Option Instant
  detectedAt : Option Instant
  geolocatedAt : Option Instant
  status : Status
  createdAt : Instant
  closedAt : Option Instant
  closeReason : Option Str
  beforeClosedStatus : Option Status
  deletedAt : Option Instant
  hiddenAt : Option Instant
  versionNo : Nat
  /-- The proof images. -/
  media : List Media
  sources : List Source
  tags : List Tag
  conflicts : List Conflict
  geolocators : List EventGeolocator
  detection : Option EventDetection
  versions : List EventVersion
  approvals : List EventApproval
  approvalRequests : List ApprovalRequest
  collectionItems : List CollectionItem
deriving DecidableEq, Repr

/-- `visible_events`: neither soft-deleted nor withheld. -/
def Event.IsVisible (geo : Event) : Prop :=
  geo.deletedAt = none ∧ geo.hiddenAt = none

instance (geo : Event) : Decidable geo.IsVisible := by
  unfold Event.IsVisible
  infer_instance

/-- The state a row is in, or was in when it closed. -/
def Event.openStatus (geo : Event) : Status :=
  geo.beforeClosedStatus.getD geo.status

/-- A staged file no event holds yet. -/
structure Upload where
  id : Uuid
  uploaderId : Uuid
  storageKey : Str
  kind : MediaKind
  sha256 : Str
  originalFilename : Option Str
  expiresAt : Instant
deriving DecidableEq, Repr

end Vidit.Events
