import Vidit.Events.Uploads
import Vidit.Library.RowLock
import Vidit.Library.Transition

/-!
Contract: staged uploads, taken by event writes and reaped when they expire,
interleaved statement by statement.

A write locks the rows it names, turns each into the file of a source and deletes
it, all in one transaction. The reaper deletes the expired rows, commits, and only
then deletes their objects.

Owns:
- `take_uploads`, the part of `apply_sources` that attaches and drops files, and
  `attach_evidence_and_commit` from its uploads to its sweep;
- `reap_expired_uploads`;
- the system of their interleavings, with the stored objects.

Does not own: the other checks of an event write, which may fail it at any point,
and the versions that pin a file, of which only the URLs are read.
-/

namespace Vidit.Uploads

open Vidit.Python Vidit.Accounts Vidit.Evidence Vidit.Events Vidit.Library

structure UploadSettings where
  storage : Storage
  uuids : UuidSource

/-- The refusals of `take_uploads`. -/
inductive UploadError where
  | uploadNotFound
  | uploadExpired
deriving DecidableEq, Repr

/-- What an event write does with files. -/
structure FileWrite where
  uploaderId : Uuid
  /-- The uploads its sources name, each once. -/
  uploadIds : List Uuid
  /-- The `media` rows it replaces or leaves out. -/
  dropped : List Uuid
  /-- How many proof images it stores. -/
  proofImages : Nat
  /-- `displayed_proof_srcs` of the final body. -/
  displayed : List Str
deriving DecidableEq, Repr

/-- What a request, or a pass of the reaper, does next. -/
inductive UploadProcess where
  | idle
  | raised (refusal : UploadError)
  /-- `take_uploads`. -/
  | take (write : FileWrite)
  /-- The FOR UPDATE of the rows matched, one row at a time. -/
  | lockRows (write : FileWrite) (matched found : List Uuid)
  | drop (write : FileWrite) (found left : List Uuid) (removed : List StoredObject)
  | attach (write : FileWrite) (found left : List Uuid) (removed : List StoredObject)
  /-- The proof images, one upload at a time. -/
  | store (write : FileWrite) (found : List Uuid) (removed : List StoredObject) (left : Nat)
      (proofKeys : List Str)
  | commitWrite (write : FileWrite) (found : List Uuid) (removed : List StoredObject)
      (proofKeys : List Str)
  /-- `sweep_keys` after a rollback. -/
  | sweepKeys (keys : List Str)
  /-- `sweep_unreferenced` after the commit. -/
  | sweepRemoved (objects : List StoredObject) (displayed : List Str)
  | deleteRemoved (keys : List Str)
  /-- `reap_expired_uploads`. -/
  | reap
  | reapRows (asOf : Instant) (matched : List Uuid) (reaped : List (Uuid × StoredObject))
  | commitReap (reaped : List (Uuid × StoredObject))
  | sweepReaped (objects : List StoredObject)
  | deleteReaped (keys : List Str)
deriving DecidableEq, Repr

namespace UploadProcess

/-- The request has returned or raised. -/
def ended : UploadProcess → Bool
  | .idle | .raised _ => true
  | _ => false

/-- The process is an event write. -/
def isWrite : UploadProcess → Bool
  | .take _ | .lockRows _ _ _ | .drop _ _ _ _ | .attach _ _ _ _ | .store _ _ _ _ _
  | .commitWrite _ _ _ _ | .sweepKeys _ => true
  | _ => false

/-- The proof images a failing process has uploaded. -/
def uploadedKeys : UploadProcess → List Str
  | .store _ _ _ _ proofKeys | .commitWrite _ _ _ proofKeys => proofKeys
  | _ => []

end UploadProcess

/-- An upload a committed write has attached, with its object. -/
structure AttachedUpload where
  uploadId : Uuid
  object : StoredObject
deriving DecidableEq, Repr

structure UploadState where
  now : Instant
  /-- How many UUIDs have been drawn. -/
  drawn : Nat
  uploads : Table Nat Uuid Upload
  media : Table Nat Uuid Media
  /-- The keys in storage. -/
  objects : List Str
  /-- The URLs the readable versions hold. -/
  pinned : List Str
  processes : Nat → UploadProcess
  /-- One entry for each upload of each committed write. -/
  attached : List AttachedUpload

inductive UploadLabel where
  | tick (later : Instant)
  /-- `stage_upload` of one file, committed. -/
  | stage (uploaderId : Uuid) (kind : MediaKind) (contentType : ContentType) (sha256 : Str)
      (originalFilename : Option Str)
  /-- Another write files or redacts versions. -/
  | pin (pinned : List Str)
  | write (process : Nat) (write : FileWrite)
  | reap (process : Nat)
  | run (process : Nat)
  | fail (process : Nat)
deriving DecidableEq, Repr

/-- Why a step is not possible. -/
inductive UploadBlocked where
  | clockRunsForward
  | tooManyUploads
  | busy
  | ended
  | rowLocked
deriving DecidableEq, Repr

namespace UploadState

def setProcess (state : UploadState) (process : Nat) (next : UploadProcess) : UploadState :=
  { state with processes := Function.update state.processes process next }

/-- The transaction of a process ends without a trace. -/
def rollback (state : UploadState) (process : Nat) (next : UploadProcess) : UploadState :=
  { state.setProcess process next with
    uploads := state.uploads.rollback process
    media := state.media.rollback process }

/-- The transaction of a process ends, and its rows stand. -/
def commit (state : UploadState) (process : Nat) (next : UploadProcess) : UploadState :=
  { state.setProcess process next with
    uploads := state.uploads.commit process
    media := state.media.commit process }

/-- `sweep_keys`. -/
def delete (state : UploadState) (process : Nat) (keys : List Str) : UploadState :=
  { state.setProcess process .idle with objects := state.objects.filter fun key => key ∉ keys }

/-- A process that fails rolls back, and sweeps the proof images it uploaded. -/
def fails (state : UploadState) (process : Nat) (next : UploadProcess) : UploadState :=
  match (state.processes process).uploadedKeys with
  | [] => state.rollback process next
  | key :: keys => state.rollback process (.sweepKeys (key :: keys))

/-! ### Staging -/

/-- `_ensure_room` and `_record`: the row and the object of one staged file. -/
def stage (settings : UploadSettings) (state : UploadState) (uploaderId : Uuid)
    (kind : MediaKind) (contentType : ContentType) (sha256 : Str)
    (originalFilename : Option Str) : Except UploadBlocked UploadState :=
  let pending := state.uploads.keys.countP fun id =>
    (state.uploads.committed id).any fun upload =>
      upload.uploaderId = uploaderId && state.now < upload.expiresAt
  let upload : Upload :=
    { id := settings.uuids.draw state.drawn
      uploaderId := uploaderId
      storageKey := sourceFileKey settings.uuids (settings.uuids.draw (state.drawn + 1)) contentType
      kind := kind
      sha256 := sha256
      originalFilename := originalFilename
      expiresAt := state.now + uploadTtl }
  if maxPendingUploadsPerUser < pending + 1 then .error .tooManyUploads
  else
    .ok { state with
          drawn := state.drawn + 2
          uploads := state.uploads.put upload.id (some upload)
          objects := state.objects ++
            objectKeys settings.storage (uploadObject settings.storage upload) }

/-! ### Taking -/

/-- The row a write may take: its uploader's. -/
def takes (write : FileWrite) (upload : Upload) : Bool :=
  upload.id ∈ write.uploadIds && upload.uploaderId = write.uploaderId

/-- The rows the FOR UPDATE matched are locked in turn; one that is gone is not found. -/
def lockRow (state : UploadState) (process : Nat) (write : FileWrite) (uploadId : Uuid)
    (matched found : List Uuid) : Except UploadBlocked UploadState :=
  if ¬ state.uploads.Free process uploadId then .error .rowLocked
  else if (state.uploads.read process uploadId).any (takes write) then
    .ok { state.setProcess process (.lockRows write matched (found ++ [uploadId])) with
          uploads := state.uploads.lock process uploadId }
  else .ok (state.setProcess process (.lockRows write matched found))

/-- The two refusals of `take_uploads`, once every row is locked. -/
def checkTaken (state : UploadState) (process : Nat) (write : FileWrite) (found : List Uuid) :
    UploadState :=
  if ∃ uploadId ∈ write.uploadIds, uploadId ∉ found then
    state.rollback process (.raised .uploadNotFound)
  else if ∃ uploadId ∈ found,
      (state.uploads.read process uploadId).any fun upload => upload.expiresAt ≤ state.now then
    state.rollback process (.raised .uploadExpired)
  else state.setProcess process (.drop write found write.dropped [])

/-! ### Attaching -/

/-- `media_objects` of one row. -/
def mediaObject (media : Media) : StoredObject :=
  ⟨media.storageUrl, media.kind⟩

/-- A file the write drops goes, and is swept after the commit. -/
def dropRow (state : UploadState) (process : Nat) (write : FileWrite) (mediaId : Uuid)
    (found left : List Uuid) (removed : List StoredObject) : Except UploadBlocked UploadState :=
  if ¬ state.media.Free process mediaId then .error .rowLocked
  else
    match state.media.read process mediaId with
    | none => .ok (state.setProcess process (.drop write found left removed))
    | some media =>
      .ok { state.setProcess process (.drop write found left (mediaObject media :: removed)) with
            media := state.media.write process mediaId none }

/-- The row `_attach_file` gives a source. -/
def attachedMedia (settings : UploadSettings) (id : Uuid) (upload : Upload) : Media where
  id := id
  storageUrl := settings.storage.publicUrl upload.storageKey
  kind := upload.kind
  sha256 := upload.sha256
  originalFilename := upload.originalFilename

/-- `_attach_file` of a taken upload: the file's row comes, and the staged one goes. -/
def attachRow (settings : UploadSettings) (state : UploadState) (process : Nat)
    (write : FileWrite) (uploadId : Uuid) (found left : List Uuid)
    (removed : List StoredObject) : Except UploadBlocked UploadState :=
  let mediaId := settings.uuids.draw state.drawn
  if ¬ state.uploads.Free process uploadId ∨ ¬ state.media.Free process mediaId then
    .error .rowLocked
  else
    match state.uploads.read process uploadId with
    | none => .ok (state.fails process .idle)
    | some upload =>
      .ok { state.setProcess process (.attach write found left removed) with
            drawn := state.drawn + 1
            uploads := state.uploads.write process uploadId none
            media := state.media.write process mediaId
              (some (attachedMedia settings mediaId upload)) }

/-- `upload_proof_image`. -/
def storeProof (settings : UploadSettings) (state : UploadState) (process : Nat)
    (write : FileWrite) (found : List Uuid) (removed : List StoredObject) (left : Nat)
    (proofKeys : List Str) : UploadState :=
  let key := proofImageKey settings.uuids write.uploaderId (settings.uuids.draw state.drawn) .jpeg
  { state.setProcess process (.store write found removed left (key :: proofKeys)) with
    drawn := state.drawn + 1
    objects := state.objects ++ [key] }

/-- The object of a staged row, as it is committed. -/
def objectOf? (settings : UploadSettings) (state : UploadState) (uploadId : Uuid) :
    Option AttachedUpload :=
  (state.uploads.committed uploadId).map fun upload =>
    ⟨uploadId, uploadObject settings.storage upload⟩

/-- The commit of a write: what it took is attached. -/
def commitWrite (settings : UploadSettings) (state : UploadState) (process : Nat)
    (write : FileWrite) (found : List Uuid) (removed : List StoredObject) : UploadState :=
  { state.commit process (.sweepRemoved removed write.displayed) with
    attached := found.filterMap (state.objectOf? settings) ++ state.attached }

/-! ### Sweeping -/

/-- `unreferenced`: no `media` row and no readable version names the URL. -/
def unreferenced (state : UploadState) (process : Nat) (object : StoredObject) : Bool :=
  (state.media.select process fun _ media => media.storageUrl = object.storageUrl) = [] &&
    object.storageUrl ∉ state.pinned

/-- The keys `sweep_unreferenced` deletes. -/
def sweptKeys (settings : UploadSettings) (state : UploadState) (process : Nat)
    (objects : List StoredObject) (displayed : List Str) : List Str :=
  (objects.filter fun object =>
    object.storageUrl ∉ displayed && state.unreferenced process object).flatMap
      (objectKeys settings.storage)

/-! ### Reaping -/

def isExpired (asOf : Instant) (upload : Upload) : Bool :=
  upload.expiresAt ≤ asOf

/-- The rows the DELETE matched go in turn; one that is gone is not returned. -/
def reapRow (settings : UploadSettings) (state : UploadState) (process : Nat) (asOf : Instant)
    (uploadId : Uuid) (matched : List Uuid) (reaped : List (Uuid × StoredObject)) :
    Except UploadBlocked UploadState :=
  if ¬ state.uploads.Free process uploadId then .error .rowLocked
  else
    match state.uploads.read process uploadId with
    | none => .ok (state.setProcess process (.reapRows asOf matched reaped))
    | some upload =>
      if isExpired asOf upload then
        .ok { state.setProcess process (.reapRows asOf matched
                ((uploadId, uploadObject settings.storage upload) :: reaped)) with
              uploads := state.uploads.write process uploadId none }
      else .ok (state.setProcess process (.reapRows asOf matched reaped))

/-! ### The system -/

/-- The next statement of one process. -/
def runProcess (settings : UploadSettings) (state : UploadState) (process : Nat) :
    Except UploadBlocked UploadState :=
  match state.processes process with
  | .idle | .raised _ => .error .ended
  | .take write =>
    .ok (state.setProcess process (.lockRows write
      (state.uploads.select process fun _ => takes write) []))
  | .lockRows write [] found => .ok (state.checkTaken process write found)
  | .lockRows write (uploadId :: matched) found =>
    state.lockRow process write uploadId matched found
  | .drop write found [] removed =>
    .ok (state.setProcess process (.attach write found found removed))
  | .drop write found (mediaId :: left) removed =>
    state.dropRow process write mediaId found left removed
  | .attach write found [] removed =>
    .ok (state.setProcess process (.store write found removed write.proofImages []))
  | .attach write found (uploadId :: left) removed =>
    state.attachRow settings process write uploadId found left removed
  | .store write found removed 0 proofKeys =>
    .ok (state.setProcess process (.commitWrite write found removed proofKeys))
  | .store write found removed (left + 1) proofKeys =>
    .ok (state.storeProof settings process write found removed left proofKeys)
  | .commitWrite write found removed _ =>
    .ok (state.commitWrite settings process write found removed)
  | .sweepKeys keys => .ok (state.delete process keys)
  | .sweepRemoved objects displayed =>
    .ok (state.setProcess process (.deleteRemoved
      (state.sweptKeys settings process objects displayed)))
  | .deleteRemoved keys => .ok (state.delete process keys)
  | .reap =>
    .ok (state.setProcess process (.reapRows state.now
      (state.uploads.select process fun _ => isExpired state.now) []))
  | .reapRows _ [] reaped => .ok (state.setProcess process (.commitReap reaped))
  | .reapRows asOf (uploadId :: matched) reaped =>
    state.reapRow settings process asOf uploadId matched reaped
  | .commitReap reaped => .ok (state.commit process (.sweepReaped (reaped.map Prod.snd)))
  | .sweepReaped objects =>
    .ok (state.setProcess process (.deleteReaped (state.sweptKeys settings process objects [])))
  | .deleteReaped keys => .ok (state.delete process keys)

/-- A request arrives. -/
def start (state : UploadState) (process : Nat) (next : UploadProcess) :
    Except UploadBlocked UploadState :=
  if (state.processes process).ended then .ok (state.setProcess process next) else .error .busy

/-- One step: time passes, a file is staged, a request arrives, or a process runs or
fails its next statement. -/
def step (settings : UploadSettings) (label : UploadLabel) (state : UploadState) :
    Except UploadBlocked UploadState :=
  match label with
  | .tick later =>
    if later < state.now then .error .clockRunsForward else .ok { state with now := later }
  | .stage uploaderId kind contentType sha256 originalFilename =>
    state.stage settings uploaderId kind contentType sha256 originalFilename
  | .pin pinned => .ok { state with pinned := pinned }
  | .write process write => state.start process (.take write)
  | .reap process => state.start process .reap
  | .run process => state.runProcess settings process
  | .fail process => .ok (state.fails process .idle)

/-- Nothing is staged or runs; the files there are lie under UUIDs of their own. -/
structure Initial (settings : UploadSettings) (state : UploadState) : Prop where
  ended : ∀ process, (state.processes process).ended = true
  uploads : state.uploads = .ofRows [] fun _ => none
  media : ∀ mediaId, state.media.holder mediaId = none
  keys : ∀ mediaId media, state.media.committed mediaId = some media →
    ∀ key ∈ objectKeys settings.storage (mediaObject media), ∃ index < state.drawn,
      keyOwner key = settings.uuids.text (settings.uuids.draw index)
  attached : state.attached = []

end UploadState

/-- Every interleaving of the event writes, the staging and the reaper. -/
def uploadSystem (settings : UploadSettings) : System UploadState UploadLabel :=
  System.ofStep (UploadState.Initial settings) (UploadState.step settings)

end Vidit.Uploads
