import Vidit.Events.Transaction
import Vidit.Events.Versions

/-!
Contract: the proof images of an event write, and the sweep of stored objects.

Owns:
- the checks `attach_evidence_and_commit` makes before anything is stored, the
  images it stores, and the proof rows and body it leaves;
- the keep sets: the own files a proof body may cite, the images history pins,
  and the URLs no row and no readable version names.

Does not own: the commit, and the deletion of the keys a sweep returns
(`Vidit.World`).
-/

namespace Vidit.Events

open Vidit.Python Vidit.Accounts Vidit.Evidence Vidit.Library

/-! ### Uploaded files -/

/-- One multipart file, with what the image library makes of it: the frame count
of a GIF, and the digests of the files it is stored as. -/
structure UploadFile where
  filename : Option Str
  contentType : ContentType
  size : Nat
  frameCount : Except Str Nat
  digests : Except Str (List Str)

/-- `ORIGINAL_FILENAME_MAX_LEN`. -/
def originalFilenameMaxLen : Nat := 255

/-- `safe_original_filename`. -/
def safeOriginalFilename (name : Option Str) : Option Str :=
  let slashed := (name.getD []).map fun point => if point = chr '\\' then chr '/' else point
  let base := strip (rpartition slashed (chr '/')).2.2
  if base = [] then none
  else if base.any isControlOrFormat then none
  else some (base.take originalFilenameMaxLen)

/-- `PurePosixPath(name).stem` of a name without slashes. -/
def fileStem (name : Str) : Str :=
  if name = str "." then [] else keyStem name

/-- `_gif_frame_filename`. -/
def gifFrameFilename (name : Option Str) (index count : Nat) : Option Str :=
  (safeOriginalFilename name).map fun safe =>
    let suffix := if 1 < count then str "-" ++ natText (index + 1) ++ str ".png" else str ".png"
    (fileStem safe).take (originalFilenameMaxLen - suffix.length) ++ suffix

/-- `validate_file`. -/
def validateFile (settings : Settings) (file : UploadFile) : Except EventError MediaKind := do
  let (kind, maxSize) ← match file.contentType with
    | .jpeg | .png | .webp | .gif => pure (MediaKind.image, settings.maxImageSize)
    | .mp4 | .webm => pure (MediaKind.video, settings.maxVideoSize)
    | .other => throw (.invalidFile .disallowedType)
  require (file.size ≤ maxSize) (.invalidFile (.tooLarge kind maxSize))
  pure kind

/-- A proof file passes `validate_file` and is an image. -/
def validateProofFile (settings : Settings) (file : UploadFile) : Except EventError Unit := do
  let kind ← validateFile settings file
  require (kind = .image) (.invalidFile .proofTakesImages)

/-- `stored_file_count`. -/
def storedFileCount (file : UploadFile) : Except EventError Nat :=
  if file.contentType = .gif then file.frameCount.mapError .evidenceProcessingFailed
  else .ok 1

/-! ### Matching placeholders and files -/

/-- The files by their sanitised name. -/
def filesByName : List UploadFile → List (Str × UploadFile) →
    Except EventError (List (Str × UploadFile))
  | [], named => pure named
  | file :: rest, named =>
    match safeOriginalFilename file.filename with
    | none => throw (.proofFilesMismatch .unnamedFile)
    | some name => do
      require (name ∉ named.map Prod.fst) (.proofFilesMismatch (.duplicateName name))
      filesByName rest (named ++ [(name, file)])

/-- The name a placeholder src carries. -/
def placeholderName (src : Str) : Str :=
  src.drop proofPlaceholderPrefix.length

/-- `_match_proof_files`: each placeholder with its file, in document order. -/
def matchProofFiles (proofHtml : Option Body) (proofFiles : List UploadFile) :
    Except EventError (List (Str × UploadFile)) := do
  let placeholders := (extractImageSrcs (proofHtml.getD [])).filter isPlaceholder
  let named ← filesByName proofFiles []
  let pairs ← placeholders.mapM fun src => do
    let file ← orRefuse (named.lookup (placeholderName src))
      (.proofFilesMismatch (.unmatchedPlaceholder (placeholderName src)))
    pure (src, file)
  let unreferenced :=
    (named.map Prod.fst).filter fun name => name ∉ placeholders.map placeholderName
  require (unreferenced = []) (.proofFilesMismatch (.unreferencedFiles unreferenced))
  pure pairs

/-! ### Keep sets -/

/-- The URLs of the files of an event's sources. -/
def Event.sourceUrls (geo : Event) : List Str :=
  (geo.sources.filterMap Source.media).map Media.storageUrl

/-- The URLs of an event's proof rows. -/
def Event.proofUrls (geo : Event) : List Str :=
  geo.media.map Media.storageUrl

/-- `_history_pinned_srcs`. -/
def historyPinnedSrcs (geo : Event) : List Str :=
  if geo.versionNo = 0 then [] else referencedMediaUrls geo

/-- `_history_pinned_source_srcs`. -/
def historyPinnedSourceSrcs (geo : Event) : List Str :=
  if geo.versionNo = 0 then [] else (referencedSourceMedia geo).map MediaEntry.storageUrl

/-- The URLs a proof body of the event may show. -/
def ownUrls (geo : Event) : List Str :=
  geo.proofUrls ++ geo.sourceUrls ++ historyPinnedSourceSrcs geo

/-- The srcs `_reject_foreign_proof_srcs` refuses. -/
def foreignSrcs (storage : Storage) (geo : Event) (displayedSrcs : List Str) : List Str :=
  displayedSrcs.filter fun src => src ∉ ownUrls geo ∧ storage.keyFromUrl src ≠ none

/-- The rows `_drop_unreferenced_proof_media` deletes. -/
def droppedProofMedia (geo : Event) (keptSrcs : List Str) : List Media :=
  geo.media.filter fun media => media.storageUrl ∉ keptSrcs

/-! ### Storing -/

/-- The type a picked file is stored under: a GIF as one PNG per frame. -/
def UploadFile.storedType (file : UploadFile) : ContentType :=
  if file.contentType = .gif then .png else file.contentType

/-- The name of stored file `index` of `count`. -/
def UploadFile.storedName (file : UploadFile) (index count : Nat) : Option Str :=
  if file.contentType = .gif then gifFrameFilename file.filename index count
  else safeOriginalFilename file.filename

/-- The `media` rows of one stored proof file; each image takes two draws, its
row and its key. -/
def storedImages (config : Config) (tx : Transaction) (userId : Uuid) (file : UploadFile)
    (first : Nat) (digests : List Str) : List Media :=
  digests.mapIdx fun index digest =>
    let key := proofImageKey config.uuids userId (tx.uuid (first + 2 * index + 1)) file.storedType
    { id := tx.uuid (first + 2 * index)
      storageUrl := config.storage.publicUrl key
      kind := .image
      sha256 := digest
      originalFilename := file.storedName index digests.length }

/-- The upload loop: the rows of each placeholder's file. -/
def storeProofImages (config : Config) (tx : Transaction) (userId : Uuid) :
    Nat → List (Str × UploadFile) → Except EventError (List (Str × List Media))
  | _, [] => pure []
  | first, (placeholder, file) :: rest => do
    let digests ← file.digests.mapError .evidenceProcessingFailed
    let rows := storedImages config tx userId file first digests
    let later ← storeProofImages config tx userId (first + 2 * rows.length) rest
    pure ((placeholder, rows) :: later)

/-- `media_objects`. -/
def mediaObjects (rows : List Media) : List StoredObject :=
  rows.map fun media => ⟨media.storageUrl, media.kind⟩

/-- What `attach_evidence_and_commit` leaves, short of the commit. -/
structure Attached where
  event : Event
  /-- The objects it stored. -/
  stored : List Media
  /-- The proof rows it deleted. -/
  dropped : List StoredObject

/-- `src_by_placeholder`. -/
def srcByPlaceholder (stored : List (Str × List Media)) (src : Str) : Option (List Str) :=
  (stored.lookup src).map fun rows => rows.map Media.storageUrl

/-- The proof body a write leaves. -/
def writtenProof (current : Body) (proofHtml : Option Body) (stored : List (Str × List Media)) :
    Body :=
  match proofHtml with
  | some html => rewriteImageSrcs html (srcByPlaceholder stored)
  | none => current

/-- `attach_evidence_and_commit` up to its commit, the event's sources already
written; its draws start at `first`. -/
def attachEvidence (config : Config) (tx : Transaction) (geo : Event)
    (proofHtml : Option Body) (proofFiles : List UploadFile) (first : Nat) :
    Except EventError Attached := do
  let maximum := config.settings.maxProofImagesPerEvent
  require (proofFiles.length ≤ maximum) (.tooManyProofFiles maximum proofFiles.length)
  let _ ← proofFiles.mapM (validateProofFile config.settings)
  let pairs ← matchProofFiles proofHtml proofFiles
  let counts ← proofFiles.mapM storedFileCount
  let finalProof := proofHtml.getD geo.proof
  let displayedSrcs := displayedProofSrcs finalProof
  let foreign := foreignSrcs config.storage geo displayedSrcs
  require (foreign = []) (.invalidFile (.foreignSrcs foreign))
  let keptSrcs := displayedSrcs ++ historyPinnedSrcs geo
  let displayedRows := (geo.media.filter fun media => media.storageUrl ∈ displayedSrcs).length
  require (displayedRows + counts.sum ≤ maximum)
    (.tooManyProofImages maximum (displayedRows + counts.sum) displayedRows counts.sum)
  let stored ← storeProofImages config tx geo.ownerId first pairs
  let rows := stored.flatMap Prod.snd
  pure {
    event := { geo with
      media := (geo.media.filter fun media => media.storageUrl ∈ keptSrcs) ++ rows
      proof := writtenProof geo.proof proofHtml stored }
    stored := rows
    dropped := mediaObjects (droppedProofMedia geo keptSrcs) }

/-! ### Sweeping -/

/-- The URLs the `media` rows and the readable versions' sources of an event hold. -/
def Event.heldUrls (geo : Event) : List Str :=
  geo.proofUrls ++ geo.sourceUrls ++ (referencedSourceMedia geo).map MediaEntry.storageUrl

/-- `unreferenced`: no row and no readable version's source names the URL. -/
def isUnreferenced (events : List Event) (url : Str) : Bool :=
  events.all fun geo => url ∉ geo.heldUrls

/-- One object for each URL, the last one named. -/
def byUrl (objects : List StoredObject) : List StoredObject :=
  objects.foldr (fun object later =>
    if object.storageUrl ∈ later.map StoredObject.storageUrl then later else object :: later) []

/-- The keys `sweep_unreferenced` deletes. -/
def sweepUnreferenced (storage : Storage) (events : List Event) (objects : List StoredObject)
    (keep : List Str) : List Str :=
  ((byUrl (objects.filter fun object => object.storageUrl ∉ keep)).filter fun object =>
    isUnreferenced events object.storageUrl).flatMap (objectKeys storage)

/-- The redacted sources' files `orphaned_source_media` finds free. -/
def orphanedSourceMedia (events : List Event) (geo : Event) (dropped : List MediaEntry) :
    List MediaEntry :=
  dropped.filter fun entry =>
    isUnreferenced events entry.storageUrl ∧ entry.storageUrl ∉ displayedProofSrcs geo.proof

end Vidit.Events
