import Vidit.Events.Intake

/-!
Contract: staging a source file before the event write that names it.

Owns: `stage_upload`, which stores one picked file and records its `uploads`
rows, and the object a staged row names.

Does not own: `take_uploads` (`Vidit.Events.Sources`) and the reaper
(`Vidit.World`).
-/

namespace Vidit.Events

open Vidit.Python Vidit.Accounts Vidit.Evidence Vidit.Library

/-- `MAX_PENDING_UPLOADS_PER_USER`. -/
def maxPendingUploadsPerUser : Nat := 20

/-- `UPLOAD_TTL`: a day, in microseconds. -/
def uploadTtl : Int := 24 * 60 * 60 * 1000000

/-- The rows `_record` adds for the stored files of one picked file; each takes
two draws, its row and its key. -/
def stagedUploads (config : Config) (tx : Transaction) (uploader : User) (kind : MediaKind)
    (file : UploadFile) (digests : List Str) : List Upload :=
  digests.mapIdx fun index digest =>
    { id := tx.uuid (2 * index)
      uploaderId := uploader.id
      storageKey := sourceFileKey config.uuids (tx.uuid (2 * index + 1)) file.storedType
      kind := kind
      sha256 := digest
      originalFilename := file.storedName index digests.length
      expiresAt := tx.now + uploadTtl }

/-- `stage_upload`. -/
def stageUpload (config : Config) (tx : Transaction) (uploader : User) (file : UploadFile) :
    Except EventError (List Upload) := do
  let kind ← validateFile config.settings file
  let count ← storedFileCount file
  let pending := (tx.uploads.filter fun upload =>
    upload.uploaderId = uploader.id ∧ tx.now < upload.expiresAt).length
  require (pending + count ≤ maxPendingUploadsPerUser) (.tooManyUploads pending)
  let digests ← file.digests.mapError .evidenceProcessingFailed
  pure (stagedUploads config tx uploader kind file digests)

/-- `upload_object`. -/
def uploadObject (storage : Storage) (upload : Upload) : StoredObject :=
  ⟨storage.publicUrl upload.storageKey, upload.kind⟩

end Vidit.Events
