import Vidit.Events.Schema

/-!
Contract: the typed failures of event writes.

Owns: one constructor for each refusal, its stable `code` and its message. A
constructor carries what its message names.

Does not own: the HTTP status each router maps a code to.
-/

namespace Vidit.Events

open Vidit.Python Vidit.Evidence

/-- `str.join`'s order of a set of texts: `sorted`. -/
def textLe : Str → Str → Bool
  | [], _ => true
  | _ :: _, [] => false
  | left :: lefts, right :: rights =>
    if left < right then true else if right < left then false else textLe lefts rights

/-- `", ".join(sorted(texts))`. -/
def joinSorted (texts : List Str) : Str :=
  join (str ", ") (sortedBy textLe texts)

/-- Why `_media_type_and_max_size`, `validate_file` or the intake refuses a file. -/
inductive FileRefusal where
  | disallowedType
  | tooLarge (kind : MediaKind) (maxSize : Nat)
  | proofTakesImages
  | foreignSrcs (srcs : List Str)
deriving DecidableEq, Repr

/-- `_megabytes`: rounded, a half to the even number. -/
def megabytes (size : Nat) : Nat :=
  let whole := size / 2 ^ 20
  let rest := size % 2 ^ 20
  if 2 * rest < 2 ^ 20 ∨ (2 * rest = 2 ^ 20 ∧ whole % 2 = 0) then whole else whole + 1

def FileRefusal.message : FileRefusal → Str
  | .disallowedType => str "Images and videos only."
  | .tooLarge kind maxSize =>
    natText (megabytes maxSize) ++ str " MB at most for " ++
      (if kind = .video then str "a video" else str "an image") ++ str "."
  | .proofTakesImages => str "A proof takes images only."
  | .foreignSrcs srcs =>
    str "A proof image belongs to another event: " ++ joinSorted srcs

inductive ProofMismatch where
  | unnamedFile
  | duplicateName (name : Str)
  | unmatchedPlaceholder (name : Str)
  | unreferencedFiles (names : List Str)
deriving DecidableEq, Repr

def ProofMismatch.message : ProofMismatch → Str
  | .unnamedFile => str "A proof file carries no usable filename"
  | .duplicateName name => str "Duplicate proof file name: " ++ name
  | .unmatchedPlaceholder name =>
    str "No uploaded proof file matches placeholder: " ++ name
  | .unreferencedFiles names =>
    str "Proof files not referenced by the proof body: " ++ joinSorted names

inductive CoordinateRefusal where
  | latitude
  | longitude
  | half (field : Str)
deriving DecidableEq, Repr

def CoordinateRefusal.message : CoordinateRefusal → Str
  | .latitude => str "Latitude must be between -90 and 90"
  | .longitude => str "Longitude must be between -180 and 180"
  | .half field => field ++ str " requires both a latitude and a longitude"

/-- Why an event's state forbids a transition. -/
inductive StateRefusal where
  | notWritable
  | invitesAfterPublish
  | requestNotOpen
  | alreadyClosed
  | notADetection
deriving DecidableEq, Repr

def StateRefusal.message : StateRefusal → Str
  | .notWritable =>
    str "Only a request, a detection or a geolocated event can be edited"
  | .invitesAfterPublish =>
    str "A published event invites its geolocators through its geolocator invitations"
  | .requestNotOpen => str "Only an open request can be edited"
  | .alreadyClosed => str "This event is already closed"
  | .notADetection => str "Only a detection can be completed in a batch"

/-- `SnapshotRejected`. -/
inductive SnapshotRefusal where
  | tooLong
  | notAUrl
  | notHttps
  | providerNotAllowed
  | notAReplayUrl
  | notAGhostarchivePath
  | notASnapshotCode
deriving DecidableEq, Repr

def SnapshotRefusal.code : SnapshotRefusal → Str
  | .tooLong => str "snapshot_url_too_long"
  | .notAUrl => str "snapshot_url_invalid"
  | .notHttps => str "snapshot_url_not_https"
  | .providerNotAllowed => str "snapshot_provider_not_allowed"
  | .notAReplayUrl => str "snapshot_not_a_replay_url"
  | .notAGhostarchivePath | .notASnapshotCode => str "snapshot_not_a_snapshot_code"

/-- `PROVIDER_HOSTS`, in order. -/
inductive ArchiveProvider where
  | wayback
  | archiveToday
  | ghostarchive
deriving DecidableEq, Repr

def providerHosts : List (Str × ArchiveProvider) :=
  [(str "web.archive.org", .wayback), (str "archive.ph", .archiveToday),
    (str "archive.today", .archiveToday), (str "archive.is", .archiveToday),
    (str "archive.md", .archiveToday), (str "archive.li", .archiveToday),
    (str "archive.vn", .archiveToday), (str "ghostarchive.org", .ghostarchive)]

def SnapshotRefusal.message : SnapshotRefusal → Str
  | .tooLong => str "That link is too long to be an archive snapshot."
  | .notAUrl => str "That is not a URL."
  | .notHttps => str "An archive link must be https."
  | .providerNotAllowed =>
    str "An archive link must be on one of: " ++
      join (str ", ") (providerHosts.map Prod.fst) ++ str "."
  | .notAReplayUrl =>
    str "A Wayback Machine link must be a snapshot URL " ++
      str "(web.archive.org/web/<timestamp>/<original link>)."
  | .notAGhostarchivePath =>
    str "A Ghostarchive link must be a snapshot path " ++
      str "(ghostarchive.org/archive/<id> or ghostarchive.org/varchive/<id>)."
  | .notASnapshotCode =>
    str "An archive.today link must be a snapshot code (archive.ph/<code>) or a " ++
      str "capture URL (archive.ph/<timestamp>/<original link>)."

/-- `GeolocatorCreditError`. -/
inductive CreditError where
  | eventNotPublished
  | inviteeNotFound
  | alreadyGeolocator
  | alreadyInvited
  | tooManyGeolocators
  | inviteNotFound
  | geolocatorNotFound
  | ownerCannotLeave
deriving DecidableEq, Repr

/-- `MAX_EVENT_GEOLOCATORS`. -/
def maxEventGeolocators : Nat := 10

def CreditError.code : CreditError → Str
  | .eventNotPublished => str "invalid_state"
  | .inviteeNotFound => str "user_not_found"
  | .alreadyGeolocator => str "already_geolocator"
  | .alreadyInvited => str "already_invited"
  | .tooManyGeolocators => str "too_many_geolocators"
  | .inviteNotFound => str "invite_not_found"
  | .geolocatorNotFound => str "geolocator_not_found"
  | .ownerCannotLeave => str "owner_cannot_leave"

def CreditError.message : CreditError → Str
  | .eventNotPublished => str "Only a published geolocation shares its credit"
  | .inviteeNotFound => str "No analyst with that username"
  | .alreadyGeolocator => str "This analyst is already a geolocator of this event"
  | .alreadyInvited => str "This analyst already has a pending invitation"
  | .tooManyGeolocators =>
    str "An event carries at most " ++ natText maxEventGeolocators ++
      str " geolocators and invitations"
  | .inviteNotFound => str "No pending invitation"
  | .geolocatorNotFound => str "This analyst is not a geolocator of this event"
  | .ownerCannotLeave => str "The owner stays a geolocator of their event"

/-- `ApprovalError`. -/
inductive ApprovalError where
  | eventNotApprovable
  | notOrganizationMember
  | geolocatorCannotApprove
  | versionMismatch (versionNo : Nat)
  | alreadyApproved
  | organizationAlreadyApproved (name : Str)
deriving DecidableEq, Repr

def ApprovalError.code : ApprovalError → Str
  | .eventNotApprovable => str "invalid_state"
  | .notOrganizationMember => str "not_organization_member"
  | .geolocatorCannotApprove => str "geolocator_cannot_approve"
  | .versionMismatch _ => str "version_mismatch"
  | .alreadyApproved | .organizationAlreadyApproved _ => str "already_approved"

def ApprovalError.message : ApprovalError → Str
  | .eventNotApprovable => str "Only a published geolocation can be approved"
  | .notOrganizationMember => str "Only a member of the organization can approve in its name"
  | .geolocatorCannotApprove =>
    str "A geolocator of this event, current or former, cannot approve it"
  | .versionMismatch versionNo =>
    str "This event is at version " ++ natText versionNo ++ str "; reload it before approving"
  | .alreadyApproved => str "You already approved this version"
  | .organizationAlreadyApproved name => name ++ str " already approved this version"

/-- `AdminError`, as far as events and accounts raise it. -/
inductive AdminError where
  | userNotFound
  | eventNotFound
  | versionNotFound
deriving DecidableEq, Repr

def AdminError.code : AdminError → Str
  | .userNotFound => str "user_not_found"
  | .eventNotFound => str "geolocation_not_found"
  | .versionNotFound => str "version_not_found"

def AdminError.message : AdminError → Str
  | .userNotFound => str "User not found"
  | .eventNotFound => str "Event not found"
  | .versionNotFound => str "Version not found"

/-- `MAX_VERSIONS_PER_EVENT`. -/
def maxVersionsPerEvent : Nat := 100

/-- `MAX_SOURCES_PER_EVENT` and `MAX_LINKS_PER_SOURCE`. -/
def maxSourcesPerEvent : Nat := 10

def maxLinksPerSource : Nat := 10

inductive EventError where
  | tooManyProofFiles (maximum carried : Nat)
  | tooManyProofImages (maximum total kept new : Nat)
  | invalidFile (refusal : FileRefusal)
  | evidenceProcessingFailed (reason : Str)
  | proofFilesMismatch (mismatch : ProofMismatch)
  | invalidCoordinates (refusal : CoordinateRefusal)
  | coordinatesRequired
  | invalidProof (reason : Str)
  | conflictRequired
  | proofImageRequired
  | sourceRequired
  | sourceFileRequired
  | sourceLinkRequired
  | invalidSourceUrl (url : Str)
  | tooManySources
  | tooManySourceLinks
  | sourceNotFound (id : Uuid)
  | sourceMediaNotFound (ids : List Uuid)
  | eventNotFound
  | eventState (refusal : StateRefusal)
  | versionMismatch (versionNo : Nat)
  | nothingChanged (versionNo : Nat)
  | versionLimit
  | uploadNotFound (ids : List Uuid)
  | uploadExpired (ids : List Uuid)
  | tooManyUploads (pending : Nat)
  | snapshotRejected (refusal : SnapshotRefusal)
  | credit (error : CreditError)
  | approval (error : ApprovalError)
  | admin (error : AdminError)
  /-- The 403 of `ensure_owner`. -/
  | notAuthorized
  /-- An exception no handler expects: a 500. -/
  | internal
deriving DecidableEq, Repr

namespace EventError

/-- The stable `code` of each typed error. -/
def code : EventError → Option Str
  | tooManyProofFiles _ _ | tooManyProofImages _ _ _ _ => some (str "too_many_files")
  | invalidFile _ => some (str "invalid_file")
  | evidenceProcessingFailed _ => some (str "evidence_processing_failed")
  | proofFilesMismatch _ => some (str "proof_files_mismatch")
  | invalidCoordinates _ => some (str "invalid_coordinates")
  | coordinatesRequired => some (str "coordinates_required")
  | invalidProof _ => some (str "invalid_proof")
  | conflictRequired => some (str "conflict_required")
  | proofImageRequired => some (str "proof_image_required")
  | sourceRequired => some (str "source_required")
  | sourceFileRequired => some (str "source_file_required")
  | sourceLinkRequired => some (str "source_link_required")
  | invalidSourceUrl _ => some (str "invalid_source_url")
  | tooManySources => some (str "too_many_sources")
  | tooManySourceLinks => some (str "too_many_source_links")
  | sourceNotFound _ => some (str "source_not_found")
  | sourceMediaNotFound _ => some (str "source_media_not_found")
  | eventNotFound => some (str "event_not_found")
  | eventState _ => some (str "invalid_state")
  | versionMismatch _ => some (str "version_mismatch")
  | nothingChanged _ => some (str "nothing_changed")
  | versionLimit => some (str "version_limit")
  | uploadNotFound _ => some (str "upload_not_found")
  | uploadExpired _ => some (str "upload_expired")
  | tooManyUploads _ => some (str "too_many_uploads")
  | snapshotRejected refusal => some refusal.code
  | credit error => some error.code
  | approval error => some error.code
  | admin error => some error.code
  | notAuthorized | internal => none

def message (uuidText : Uuid → Str) : EventError → Str
  | tooManyProofFiles maximum carried =>
    str "At most " ++ natText maximum ++ str " proof images per event; " ++
      str "this request carries " ++ natText carried
  | tooManyProofImages maximum total kept new =>
    str "At most " ++ natText maximum ++ str " proof images per event; " ++
      str "this proof body would display " ++ natText total ++
      str " (" ++ natText kept ++ str " already uploaded, " ++ natText new ++ str " new)"
  | invalidFile refusal => refusal.message
  | evidenceProcessingFailed reason => reason
  | proofFilesMismatch mismatch => mismatch.message
  | invalidCoordinates refusal => refusal.message
  | coordinatesRequired => str "This detection carries no coordinates"
  | invalidProof reason => reason
  | conflictRequired => str "A conflict is required"
  | proofImageRequired => str "At least one proof image is required"
  | sourceRequired => str "A direct or indirect source is required"
  | sourceFileRequired => str "A direct or indirect source needs its file"
  | sourceLinkRequired => str "Every source needs a URL"
  | invalidSourceUrl url => str "A source URL must be an http(s) link: " ++ url
  | tooManySources =>
    str "An event holds at most " ++ natText maxSourcesPerEvent ++ str " sources"
  | tooManySourceLinks =>
    str "A source carries at most " ++ natText maxLinksPerSource ++ str " URLs"
  | sourceNotFound id => str "No source " ++ uuidText id ++ str " on this event"
  | sourceMediaNotFound ids =>
    str "A source names a file that does not exist: " ++ joinSorted (ids.map uuidText)
  | eventNotFound => str "This detection no longer exists"
  | eventState refusal => refusal.message
  | versionMismatch versionNo =>
    str "This event is at version " ++ natText versionNo ++ str "; reload it before saving"
  | nothingChanged versionNo =>
    str "Nothing changed since version " ++ natText versionNo ++ str "."
  | versionLimit =>
    str "This event has reached " ++ natText maxVersionsPerEvent ++
      str " versions and can no longer be edited."
  | uploadNotFound ids =>
    str "A source names an upload that does not exist: " ++ joinSorted (ids.map uuidText)
  | uploadExpired ids =>
    str "A source names an upload that has expired; upload the file again: " ++
      joinSorted (ids.map uuidText)
  | tooManyUploads pending =>
    str "You hold " ++ natText pending ++ str " staged files no event uses yet; " ++
      str "submit or wait for them to expire before uploading more."
  | snapshotRejected refusal => refusal.message
  | credit error => error.message
  | approval error => error.message
  | admin error => error.message
  | notAuthorized => str "Not authorized"
  | internal => str "Internal Server Error"

end EventError

end Vidit.Events
