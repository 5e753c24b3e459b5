import Vidit.Events.Archive
import Vidit.Events.Intake

/-!
Contract: the sources of an event write.

Owns:
- `plan_sources`, which checks a posted list against the stored one;
- `check_publish_floor`;
- `apply_sources`, which writes a planned list and returns the files it dropped;
- `comparable`, the value the no-change check compares.

Does not own: the sweep of the dropped files.
-/

namespace Vidit.Events

open Vidit.Python Vidit.Accounts Vidit.Evidence Vidit.Library

/-! ### Payloads -/

/-- `SourceLinkCreate`. -/
structure LinkSpec where
  url : Str
  postedAt : Option Instant
  snapshotUrl : Option Str
deriving DecidableEq, Repr

/-- `SourceCreate`. -/
structure SourceSpec where
  id : Option Uuid
  title : Str
  level : SourceLevel
  kind : SourceKind
  capturedAt : Option Instant
  capturePosition : Option Point
  isGraphic : Bool
  links : List LinkSpec
  tagIds : List Uuid
  uploadId : Option Uuid
  mediaId : Option Uuid
deriving DecidableEq, Repr

/-- A stored source file: the row and the source it belongs to. -/
structure StoredFile where
  media : Media
  source : Source
deriving DecidableEq, Repr

structure PlannedSource where
  spec : SourceSpec
  links : List LinkSpec
  tags : List Tag
  capturePosition : Option Point
  stored : Option Source
  keepsMedia : Bool
  upload : Option Upload
  copyOf : Option StoredFile
deriving DecidableEq, Repr

def PlannedSource.hasFile (planned : PlannedSource) : Bool :=
  planned.keepsMedia || planned.upload.isSome || planned.copyOf.isSome

/-- `is_graphic` of a plan nothing has written yet. -/
def PlannedSource.isGraphic (planned : PlannedSource) : Bool :=
  planned.spec.isGraphic || planned.stored.any Source.isGraphic ||
    planned.copyOf.any fun file => file.source.isGraphic

/-! ### Coordinates -/

/-- `validate_coordinates`. -/
def validateCoordinates (lat lng : Rat) : Except EventError Unit := do
  require (-90 ≤ lat ∧ lat ≤ 90) (.invalidCoordinates .latitude)
  require (-180 ≤ lng ∧ lng ≤ 180) (.invalidCoordinates .longitude)

/-- `_optional_point`. -/
def optionalPoint (lat lng : Option Rat) (field : Str) : Except EventError (Option Point) :=
  match lat, lng with
  | none, none => .ok none
  | some lat, some lng => do
    validateCoordinates lat lng
    pure (some ⟨lat, lng⟩)
  | _, _ => .error (.invalidCoordinates (.half field))

/-! ### Planning -/

/-- The loop of `_clean_links`: strip each URL, drop blanks and repeats. -/
def cleanEach (unicode : Unicode) : List LinkSpec → List Str → Except EventError (List LinkSpec)
  | [], _ => pure []
  | link :: rest, seen => do
    let url := strip link.url
    if url = [] ∨ url ∈ seen then cleanEach unicode rest seen
    else
      require (safeLinkHref unicode url ≠ none) (.invalidSourceUrl url)
      let snapshot := strip (link.snapshotUrl.getD [])
      if snapshot = [] then
        let cleaned ← cleanEach unicode rest (url :: seen)
        pure (⟨url, link.postedAt, none⟩ :: cleaned)
      else
        let _ ← validateSnapshot unicode snapshot
        let cleaned ← cleanEach unicode rest (url :: seen)
        pure (⟨url, link.postedAt, some snapshot⟩ :: cleaned)

/-- `_clean_links`. -/
def cleanLinks (unicode : Unicode) (links : List LinkSpec) : Except EventError (List LinkSpec) := do
  let cleaned ← cleanEach unicode links []
  require (cleaned.length ≤ maxLinksPerSource) .tooManySourceLinks
  require (cleaned ≠ []) .sourceLinkRequired
  pure cleaned

/-- `take_uploads`: the staged rows a write references. -/
def takeUploads (tx : Transaction) (uploader : User) (uploadIds : List Uuid) :
    Except EventError (List Upload) := do
  let rows := tx.uploads.filter fun upload =>
    upload.id ∈ uploadIds ∧ upload.uploaderId = uploader.id
  let missing := uploadIds.dedup.filter fun id => id ∉ rows.map Upload.id
  require (missing = []) (.uploadNotFound missing)
  let expired := (rows.filter fun upload => upload.expiresAt ≤ tx.now).map Upload.id
  require (expired = []) (.uploadExpired expired)
  pure rows

/-- The files of an event's sources. -/
def Event.sourceFiles (geo : Event) : List StoredFile :=
  geo.sources.filterMap fun source => source.media.map fun media => ⟨media, source⟩

/-- `_readable_files`: every id must name a file of the event's sources. -/
def readableFiles (geo : Option Event) (mediaIds : List Uuid) :
    Except EventError (List StoredFile) := do
  let files := (geo.map Event.sourceFiles).getD []
  let found := files.filter fun file => file.media.id ∈ mediaIds
  let missing := mediaIds.dedup.filter fun id => id ∉ found.map fun file => file.media.id
  require (missing = []) (.sourceMediaNotFound missing)
  pure found

/-- The loop over the posted ids: each names a stored source, once. -/
def checkIds (stored : List Source) : List SourceSpec → List Uuid → Except EventError Unit
  | [], _ => pure ()
  | spec :: rest, seen =>
    match spec.id with
    | none => checkIds stored rest seen
    | some id => do
      require (id ∈ stored.map Source.id ∧ id ∉ seen) (.sourceNotFound id)
      checkIds stored rest (id :: seen)

/-- One planned source. -/
def planSource (config : Config) (tx : Transaction) (stored : List Source)
    (staged : List Upload) (files : List StoredFile) (spec : SourceSpec) :
    Except EventError PlannedSource := do
  let storedSource := spec.id.bind fun id => stored.find? fun source => source.id = id
  let file := spec.mediaId.bind fun id => files.find? fun file => file.media.id = id
  let keepsMedia : Bool :=
    match file, storedSource with
    | some file, some source => decide (file.source.id = source.id)
    | _, _ => false
  let links ← cleanLinks config.unicode spec.links
  let capturePosition ← optionalPoint (spec.capturePosition.map Point.lat)
    (spec.capturePosition.map Point.lng) (str "capture_position")
  pure {
    spec := spec
    links := links
    tags := spec.tagIds.eraseDups.filterMap fun id => tx.tags.find? fun tag => tag.id = id
    capturePosition := capturePosition
    stored := storedSource
    keepsMedia := keepsMedia
    upload := spec.uploadId.bind fun id => staged.find? fun upload => upload.id = id
    copyOf := if keepsMedia then none else file }

/-- `plan_sources`; `geo` is `none` on a create. -/
def planSources (config : Config) (tx : Transaction) (geo : Option Event)
    (specs : List SourceSpec) (uploader : User) : Except EventError (List PlannedSource) := do
  require (specs.length ≤ maxSourcesPerEvent) .tooManySources
  let stored := (geo.map Event.sources).getD []
  checkIds stored specs []
  let staged ← takeUploads tx uploader (specs.filterMap SourceSpec.uploadId)
  let files ← readableFiles geo (specs.filterMap SourceSpec.mediaId)
  specs.mapM (planSource config tx stored staged files)

/-! ### The publish floor -/

/-- `EVIDENCE_LEVELS`. -/
def evidenceLevels : List SourceLevel := [.direct, .indirect]

/-- `check_publish_floor` over `(level, has_file)` pairs. -/
def checkPublishFloor (sources : List (SourceLevel × Bool)) : Except EventError Unit := do
  let evidence := (sources.filter fun source => source.1 ∈ evidenceLevels).map Prod.snd
  require (evidence ≠ []) .sourceRequired
  require (evidence.any id = true) .sourceFileRequired

def plannedFloor (planned : List PlannedSource) : List (SourceLevel × Bool) :=
  planned.map fun source => (source.spec.level, source.hasFile)

def storedFloor (sources : List Source) : List (SourceLevel × Bool) :=
  sources.map fun source => (source.level, source.media.isSome)

/-! ### Writing -/

/-- The order `SourceLink` rows are read in: by posting date, undated last. -/
def linkLe (left right : SourceLink) : Bool :=
  match left.postedAt, right.postedAt with
  | some left, some right => left ≤ right
  | none, some _ => false
  | _, none => true

/-- `_link_rows`: a re-posted copy keeps the instant it was recorded at. -/
def linkRow (unicode : Unicode) (stored : List SourceLink) (now : Instant) (link : LinkSpec) :
    SourceLink where
  url := link.url
  postedAt := link.postedAt
  snapshotUrl := link.snapshotUrl
  archivedAt := link.snapshotUrl.map fun snapshot =>
    match stored.find? fun previous => previous.url = link.url with
    | some previous =>
      if sameSnapshot unicode previous.snapshotUrl snapshot then previous.archivedAt.getD now
      else now
    | none => now

def linkRows (unicode : Unicode) (stored : List SourceLink) (links : List LinkSpec)
    (now : Instant) : List SourceLink :=
  sortedBy linkLe (links.map (linkRow unicode stored now))

/-- `_attach_file`: the row of a taken upload, of a copied file, or the file the
source keeps. -/
def attachFile (config : Config) (planned : PlannedSource) (mediaId : Uuid) : Option Media :=
  match planned.upload, planned.copyOf with
  | some upload, _ =>
    some ⟨mediaId, config.storage.publicUrl upload.storageKey, upload.kind, upload.sha256,
      upload.originalFilename⟩
  | none, some file =>
    some ⟨mediaId, file.media.storageUrl, file.media.kind, file.media.sha256,
      file.media.originalFilename⟩
  | none, none => if planned.keepsMedia then planned.stored.bind Source.media else none

/-- The stored sources whose file the plan takes off them. -/
def losesMedia (planned : List PlannedSource) (source : Source) : Bool :=
  planned.any fun plan =>
    !plan.keepsMedia && plan.stored.any fun stored => stored.id = source.id

/-- `is_graphic` as the write evaluates it, source after source: the copied
file's source is read as already written, and is gone (an `AttributeError`) when
the plan took its file off it. -/
def writtenGraphic (all : List PlannedSource) (written : List (Uuid × Bool))
    (planned : PlannedSource) : Except EventError Bool :=
  if planned.spec.isGraphic || planned.stored.any Source.isGraphic then .ok true
  else
    match planned.copyOf with
    | none => .ok false
    | some file =>
      if losesMedia all file.source then .error .internal
      else .ok ((written.lookup file.source.id).getD file.source.isGraphic)

/-- The second pass of `apply_sources`, over the list from place `index` on. Each
place has two draws, for a new source and a new file. -/
def writeSources (config : Config) (tx : Transaction) (all : List PlannedSource) :
    Nat → List (Uuid × Bool) → List PlannedSource → Except EventError (List Source)
  | _, _, [] => pure []
  | index, written, planned :: rest => do
    let isGraphic ← writtenGraphic all written planned
    let id := (planned.stored.map Source.id).getD (tx.uuid (1 + 2 * index))
    let source : Source := {
      id := id
      title := planned.spec.title
      level := planned.spec.level
      kind := planned.spec.kind
      capturedAt := planned.spec.capturedAt
      capturePosition := planned.capturePosition
      isGraphic := isGraphic
      links := linkRows config.unicode ((planned.stored.map Source.links).getD []) planned.links
        tx.now
      tags := planned.tags
      media := attachFile config planned (tx.uuid (2 + 2 * index)) }
    let sources ← writeSources config tx all (index + 1) ((id, isGraphic) :: written) rest
    pure (source :: sources)

/-- The files the first pass of `apply_sources` takes off stored sources. -/
def droppedFiles (stored : List Source) (planned : List PlannedSource) : List StoredObject :=
  let kept := planned.filterMap fun plan => plan.stored.map Source.id
  mediaObjects ((stored.filter fun source => source.id ∉ kept).filterMap Source.media) ++
    mediaObjects (planned.filterMap fun plan =>
      if plan.keepsMedia then none else plan.stored.bind Source.media)

/-- What `apply_sources` writes: the sources, the files it dropped, the uploads
it took. -/
structure AppliedSources where
  sources : List Source
  removed : List StoredObject
  taken : List Uuid
deriving DecidableEq, Repr

/-- `apply_sources`. -/
def applySources (config : Config) (tx : Transaction) (stored : List Source)
    (planned : List PlannedSource) : Except EventError AppliedSources := do
  let sources ← writeSources config tx planned 0 [] planned
  pure {
    sources := sources
    removed := droppedFiles stored planned
    taken := planned.filterMap fun plan => plan.upload.map Upload.id }

/-! ### The comparable form -/

structure ComparableLink where
  url : Str
  postedAt : Option Instant
  /-- Present only when archives are compared. -/
  snapshot : Option (Option NormalisedTarget)
deriving DecidableEq, Repr

/-- The file of a source as the comparison names it. -/
inductive ComparableFile where
  | stored (storageUrl : Str)
  | upload (id : Uuid)
deriving DecidableEq, Repr

structure ComparableSource where
  title : Str
  level : SourceLevel
  kind : SourceKind
  capturedAt : Option Instant
  capturePosition : Option Point
  isGraphic : Bool
  links : List ComparableLink
  tags : List Str
  file : Option ComparableFile
deriving DecidableEq, Repr

/-- `_comparable_link`. -/
def comparableLink (unicode : Unicode) (archives : Bool) (url : Str)
    (postedAt : Option Instant) (snapshot : Option Str) : ComparableLink where
  url := url
  postedAt := postedAt
  snapshot :=
    if archives then some (snapshot.bind (normalisedTarget unicode)) else none

def sortLinks (links : List ComparableLink) : List ComparableLink :=
  sortedBy (fun left right => textLe left.url right.url) links

/-- `comparable` of a stored source. -/
def comparableStored (config : Config) (archives : Bool) (source : Source) :
    ComparableSource where
  title := source.title
  level := source.level
  kind := source.kind
  capturedAt := source.capturedAt
  capturePosition := source.capturePosition
  isGraphic := source.isGraphic
  links := sortLinks (source.links.map fun link =>
    comparableLink config.unicode archives link.url link.postedAt link.snapshotUrl)
  tags := sortedBy textLe (source.tags.map fun tag => config.uuids.text tag.id)
  file := source.media.map fun media => .stored media.storageUrl

/-- `comparable` of a planned source. -/
def comparablePlanned (config : Config) (archives : Bool) (planned : PlannedSource) :
    ComparableSource where
  title := planned.spec.title
  level := planned.spec.level
  kind := planned.spec.kind
  capturedAt := planned.spec.capturedAt
  capturePosition := planned.spec.capturePosition
  isGraphic := planned.isGraphic
  links := sortLinks (planned.links.map fun link =>
    comparableLink config.unicode archives link.url link.postedAt link.snapshotUrl)
  tags := sortedBy textLe (planned.tags.map fun tag => config.uuids.text tag.id)
  file :=
    match planned.keepsMedia, planned.stored.bind Source.media, planned.copyOf,
      planned.upload with
    | true, some media, _, _ => some (.stored media.storageUrl)
    | _, _, some file, _ => some (.stored file.media.storageUrl)
    | _, _, none, some upload => some (.upload upload.id)
    | _, _, none, none => none

end Vidit.Events
