import Vidit.Browser.Text
import Vidit.Events.NoChange

/-!
Contract: the source editors of an event form.

Owns:
- a stored source as the API answers it, and the editor seeded from it (`sourceDraftFrom`);
- what an editor posts (`sourceCreatePayload`), and the source the backend reads of it;
- `sourcesChanged`.

Does not own: the plan of a posted list (`Vidit.Events.Sources`), a draft a reload restores, and
the uploads that stage a file.
-/

namespace Vidit.Editor

open Vidit.Python Vidit.Browser Vidit.Accounts Vidit.Library Vidit.Events

/-- Numbers and instants, as the two sides write and read them. -/
structure Wire where
  /-- `String(value)`. -/
  numberText : Rat → Text
  /-- `Number(text)`; `none` is not a finite number. -/
  number : Text → Option Rat
  /-- An instant of a response. -/
  instantText : Instant → Text
  /-- A `UtcDatetime` of a request. -/
  readInstant : Text → Option Instant
  /-- `new Date(text).toISOString()`; `none` is an invalid date. -/
  toISOString : Text → Option Text
  number_numberText : ∀ value, number (numberText value) = some value
  numberText_shown : ∀ value, trim (numberText value) ≠ []
  readInstant_instantText : ∀ time, readInstant (instantText time) = some time
  /-- A response writes the day and the time to the second at least. -/
  instantText_long : ∀ time, 16 ≤ (instantText time).length

/-! ### Stored sources, as the API answers them -/

/-- A stored text in a response. -/
def spelled (text : Str) : Text :=
  text.flatMap spell

/-- `provider_of`. -/
def providerOf (unicode : Unicode) (snapshotUrl : Str) : Option ArchiveProvider :=
  match urlparse unicode snapshotUrl with
  | .error _ => none
  | .ok parsed => providerHosts.lookup (unicode.lower (parsed.hostname unicode))

/-- `SourceLinkRead`, with the URL of its archived copy. -/
structure SourceLinkRead where
  url : Text
  postedAt : Option Text
  archived : Option Text
deriving DecidableEq, Repr

/-- `SourceRead`, with the id of its file. -/
structure SourceRead where
  id : Uuid
  title : Text
  level : SourceLevel
  kind : SourceKind
  capturedAt : Option Text
  capturePosition : Option Point
  isGraphic : Bool
  links : List SourceLinkRead
  tagIds : List Uuid
  mediaId : Option Uuid
deriving DecidableEq, Repr

section Reading

variable (wire : Wire) (unicode : Unicode)

def linkRead (link : SourceLink) : SourceLinkRead where
  url := spelled link.url
  postedAt := link.postedAt.map wire.instantText
  archived :=
    match link.snapshotUrl with
    | none => none
    | some snapshot =>
      if snapshot ≠ [] ∧ (providerOf unicode snapshot).isSome ∧ link.archivedAt.isSome then
        some (spelled snapshot)
      else none

/-- `build_source_read`. -/
def buildSourceRead (source : Source) : SourceRead where
  id := source.id
  title := spelled source.title
  level := source.level
  kind := source.kind
  capturedAt := source.capturedAt.map wire.instantText
  capturePosition := source.capturePosition
  isGraphic := source.isGraphic
  links := source.links.map (linkRead wire unicode)
  tagIds := source.tags.map Tag.id
  mediaId := source.media.map Media.id

end Reading

/-! ### The editors -/

/-- One link row; `stored` is what the link held when the form loaded. -/
structure LinkDraft where
  url : Text
  postedAt : Text
  snapshotUrl : Text
  stored : Option SourceLinkRead
deriving DecidableEq, Repr

/-- The file of an editor. -/
inductive SourceFile where
  | stored (mediaId : Uuid)
  | uploading
  | importing
  | copying
  | staged (uploadId : Uuid)
  | failed
deriving DecidableEq, Repr

/-- One source editor; `kind` is `none` until the analyst picks one. -/
structure SourceDraft where
  id : Option Uuid
  title : Text
  level : SourceLevel
  kind : Option SourceKind
  capturedAt : Text
  storedCapturedAt : Option Text
  captureLat : Text
  captureLng : Text
  isGraphic : Bool
  links : List LinkDraft
  tagIds : List Uuid
  file : Option SourceFile
deriving DecidableEq, Repr

/-- `fileRunning`. -/
def fileRunning : Option SourceFile → Bool
  | some .uploading | some .importing | some .copying => true
  | _ => false

section Seeding

variable (wire : Wire)

/-- `toDatetimeLocalUTC`. -/
def toDatetimeLocalUTC (iso : Option Text) : Text :=
  match iso.bind wire.toISOString with
  | none => []
  | some text => text.take 16

def blankLink : LinkDraft :=
  ⟨[], [], [], none⟩

/-- One row of `linkDraftsOf`. -/
def linkDraftOf (link : SourceLinkRead) : LinkDraft where
  url := link.url
  postedAt := toDatetimeLocalUTC wire link.postedAt
  snapshotUrl := link.archived.getD []
  stored := some link

/-- `sourceDraftFrom`. -/
def sourceDraftFrom (source : SourceRead) : SourceDraft where
  id := some source.id
  title := source.title
  level := source.level
  kind := some source.kind
  capturedAt := toDatetimeLocalUTC wire source.capturedAt
  storedCapturedAt := source.capturedAt
  captureLat := (source.capturePosition.map fun point => wire.numberText point.lat).getD []
  captureLng := (source.capturePosition.map fun point => wire.numberText point.lng).getD []
  isGraphic := source.isGraphic
  links := if source.links = [] then [blankLink] else source.links.map (linkDraftOf wire)
  tagIds := source.tagIds
  file := source.mediaId.map .stored

end Seeding

/-! ### The post -/

structure LinkPost where
  url : Text
  postedAt : Option Text
  snapshotUrl : Option Text
deriving DecidableEq, Repr

/-- `SourceCreate`, as the form posts it. -/
structure SourcePost where
  id : Option Uuid
  title : Text
  level : SourceLevel
  kind : SourceKind
  capturedAt : Option Text
  capturePosition : Option Point
  isGraphic : Bool
  links : List LinkPost
  tagIds : List Uuid
  mediaId : Option Uuid
  uploadId : Option Uuid
deriving DecidableEq, Repr

/-- `text || null`. -/
def orNull (text : Text) : Option Text :=
  if text = [] then none else some text

/-- `DOCUMENT_SOURCE_KINDS`, of both sides. -/
def documentSourceKinds : List SourceKind :=
  [.article, .officialStatement, .other]

def hasCapturePosition (kind : SourceKind) : Bool :=
  kind ∉ documentSourceKinds

section Posting

variable (wire : Wire)

/-- `instant`. -/
def instant (input : Text) (stored : Option Text) : Option Text :=
  if stored ≠ none ∧ input = toDatetimeLocalUTC wire stored then stored else orNull input

/-- `cleanNumber`. -/
def cleanNumber (value : Text) : Option Rat :=
  if trim value = [] then none else wire.number value

def inBounds (point : Point) : Bool :=
  -90 ≤ point.lat && point.lat ≤ 90 && (-180 ≤ point.lng && point.lng ≤ 180)

/-- `coordinatePair`. -/
def coordinatePair (latValue lngValue : Text) : Option Point := do
  let lat ← cleanNumber wire latValue
  let lng ← cleanNumber wire lngValue
  if inBounds ⟨lat, lng⟩ then some ⟨lat, lng⟩ else none

/-- The instant a link row is seeded with, while it holds its stored URL. -/
def linkInstant (link : LinkDraft) (url : Text) : Option Text :=
  match link.stored with
  | some stored => if stored.url = url then stored.postedAt else none
  | none => none

/-- The loop of `sourceCreatePayload` over the links. -/
def linkPosts : List LinkDraft → List Text → List LinkPost
  | [], _ => []
  | link :: rest, seen =>
    let url := trim link.url
    if url = [] ∨ url ∈ seen then linkPosts rest seen
    else
      ⟨url, instant wire link.postedAt (linkInstant link url), orNull (trim link.snapshotUrl)⟩ ::
        linkPosts rest (url :: seen)

/-- `fileReference`: the `media_id`. -/
def mediaReference : Option SourceFile → Option Uuid
  | some (.stored mediaId) => some mediaId
  | _ => none

/-- `fileReference`: the `upload_id`. -/
def uploadReference : Option SourceFile → Option Uuid
  | some (.staged uploadId) => some uploadId
  | _ => none

/-- `sourceCreatePayload`. -/
def sourceCreatePayload (draft : SourceDraft) : SourcePost where
  id := draft.id
  title := trim draft.title
  level := draft.level
  kind := draft.kind.getD .unknown
  capturedAt := instant wire draft.capturedAt draft.storedCapturedAt
  capturePosition :=
    if hasCapturePosition (draft.kind.getD .unknown) then
      coordinatePair wire draft.captureLat draft.captureLng
    else none
  isGraphic := draft.isGraphic
  links := linkPosts wire draft.links []
  tagIds := draft.tagIds
  mediaId := mediaReference draft.file
  uploadId := uploadReference draft.file

end Posting

/-! ### The change the form sees -/

/-- The order `sort` puts texts in: that of their code units. -/
def unitsLe (left right : Text) : Bool :=
  textLe (left.map UInt16.toNat) (right.map UInt16.toNat)

/-- `texts.sort().join(separator)`. -/
def sortedJoin (separator : UInt16) (texts : List Text) : Text :=
  [separator].intercalate (sortedBy unitsLe texts)

/-- A link on one line; a `null` instant prints as its name. -/
def linkLine (url : Text) (postedAt copy : Option Text) : Text :=
  url ++ unit ' ' :: (postedAt.getD (units (str "null")) ++ unit ' ' :: copy.getD [])

def storedLine (link : SourceLinkRead) : Text :=
  linkLine link.url link.postedAt link.archived

def postedLine (link : LinkPost) : Text :=
  linkLine link.url link.postedAt link.snapshotUrl

section Changing

variable (wire : Wire) (uuids : UuidSource)

def idText (id : Uuid) : Text :=
  units (uuids.text id)

/-- The test of `sourcesChanged` on one editor. -/
def sourceChanged (source : SourceRead) (draft : SourceDraft) : Bool :=
  let posted := sourceCreatePayload wire draft
  draft.id != some source.id ||
    (posted.mediaId != source.mediaId || posted.uploadId.isSome) ||
    (fileRunning draft.file || draft.file = some .failed) ||
    (posted.title != source.title || posted.level != source.level || posted.kind != source.kind ||
      posted.capturedAt != source.capturedAt || posted.capturePosition != source.capturePosition ||
      (posted.isGraphic && !source.isGraphic) ||
      sortedJoin (unit '\n') (source.links.map storedLine) !=
        sortedJoin (unit '\n') (posted.links.map postedLine) ||
      sortedJoin (unit ',') (source.tagIds.map (idText uuids)) !=
        sortedJoin (unit ',') (posted.tagIds.map (idText uuids)))

/-- `sourcesChanged`. -/
def sourcesChanged (stored : List SourceRead) (drafts : List SourceDraft) : Bool :=
  stored.length != drafts.length ||
    (stored.zip drafts).any fun pair => sourceChanged wire uuids pair.1 pair.2

end Changing

/-! ### The request, as the backend reads it -/

/-- A 422 of the request's parse. -/
inductive Unprocessable where
  | sources
deriving DecidableEq, Repr

/-- `LIST_PARSE_CEILING`. -/
def listParseCeiling : Nat := 100

/-- `SOURCE_TITLE_MAX_LENGTH`. -/
def sourceTitleMaxLength : Nat := 255

/-- A string of a JSON body: a surrogate alone is refused. -/
def readText (text : Text) : Except Unprocessable Str := do
  require (isWellFormed text = true) .sources
  pure (codePoints text)

/-- `SourceUrl`. -/
def readUrl (text : Text) : Except Unprocessable Str := do
  let url ← readText text
  require (url.length ≤ sourceUrlMaxLength) .sources
  pure url

/-- What `strip_whitespace` strips. -/
def isWhitespace (point : Nat) : Bool :=
  inRanges [(0x9, 0xD), (0x20, 0x20), (0x85, 0x85), (0xA0, 0xA0), (0x1680, 0x1680),
    (0x2000, 0x200A), (0x2028, 0x2029), (0x202F, 0x202F), (0x205F, 0x205F), (0x3000, 0x3000)] point

/-- `SourceCreate.title`. -/
def readTitle (text : Text) : Except Unprocessable Str := do
  let title ← readText text
  let stripped := stripBy isWhitespace title
  require (stripped.length ≤ sourceTitleMaxLength) .sources
  pure stripped

/-- A field that may be `null`. -/
def readNullable {α : Type} (read : Text → Except Unprocessable α) :
    Option Text → Except Unprocessable (Option α)
  | none => pure none
  | some text => do
    let value ← read text
    pure (some value)

section Requests

variable (wire : Wire)

/-- `UtcDatetime`. -/
def readInstant (text : Text) : Except Unprocessable Instant :=
  match wire.readInstant text with
  | none => .error .sources
  | some time => .ok time

/-- `SourceLinkCreate`. -/
def readLink (post : LinkPost) : Except Unprocessable LinkSpec := do
  let url ← readUrl post.url
  let postedAt ← readNullable (readInstant wire) post.postedAt
  let snapshotUrl ← readNullable readUrl post.snapshotUrl
  pure ⟨url, postedAt, snapshotUrl⟩

/-- `SourceCreate`: its bounds, one file at most, and no position of a document. -/
def readSource (post : SourcePost) : Except Unprocessable SourceSpec := do
  let title ← readTitle post.title
  let capturedAt ← readNullable (readInstant wire) post.capturedAt
  require (post.links.length ≤ listParseCeiling) .sources
  let links ← post.links.mapM (readLink wire)
  require (post.tagIds.length ≤ listParseCeiling) .sources
  require (post.uploadId = none ∨ post.mediaId = none) .sources
  pure {
    id := post.id
    title := title
    level := post.level
    kind := post.kind
    capturedAt := capturedAt
    capturePosition := if hasCapturePosition post.kind then post.capturePosition else none
    isGraphic := post.isGraphic
    links := links
    tagIds := post.tagIds
    uploadId := post.uploadId
    mediaId := post.mediaId }

/-- `parse_sources`. -/
def parseSources (posts : List SourcePost) : Except Unprocessable (List SourceSpec) :=
  posts.mapM (readSource wire)

/-- `plan_sources` of what the editors post: `none` is a request the parse or the plan refuses. -/
def planPosted (config : Config) (tx : Events.Transaction) (geo : Event) (user : User)
    (drafts : List SourceDraft) : Option (List PlannedSource) :=
  match parseSources wire (drafts.map (sourceCreatePayload wire)) with
  | .error _ => none
  | .ok specs => (planSources config tx (some geo) specs user).toOption

end Requests

end Vidit.Editor
