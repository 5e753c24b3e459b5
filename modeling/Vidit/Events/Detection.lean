import Mathlib.Data.Rat.Floor
import Vidit.Events.Verbs

/-!
Contract: how an import writes one machine detection.

Owns:
- the row a detection is matched to and what an import may do with it
  (`_match_legs`, `_row_disposition`, `_disposition`);
- the media and the sources a detection declares;
- `_persist_one` and `_upsert_one` on one row, up to their commit.

Does not own: the loop over a resolution (`Vidit.World.Import`), the engine that
resolves detections, the warnings an import counts.
-/

namespace Vidit.Events

open Vidit.Python Vidit.Accounts Vidit.Evidence Vidit.Library

/-! ### Detections -/

/-- `ParsedMedia`. -/
structure ParsedMedia where
  kind : MediaKind
  remoteUrl : Str
deriving DecidableEq, Repr

/-- The stored type, derived from `kind` alone. -/
def ParsedMedia.contentType (parsed : ParsedMedia) : ContentType :=
  match parsed.kind with
  | .image => .jpeg
  | .video => .mp4

/-- `LinkSource`. -/
structure LinkSource where
  url : Str
  postedAt : Option Instant
  level : SourceLevel
  kind : SourceKind
  title : Str
deriving DecidableEq, Repr

structure Detection where
  coordinate : Point
  title : Str
  proofText : Str
  sourceUrl : Option Str
  detectedFromPostId : Option Int
  detectedFromUrl : Str
  threadTweetIds : List Int
  occurredDate : Option Date
  sourcePostedAt : Option Instant
  detectedPostAt : Option Instant
  secondarySources : List LinkSource
  sourceMedia : List ParsedMedia
  proofMedia : List ParsedMedia
deriving DecidableEq, Repr

/-! ### Matching a stored row -/

inductive Verdict where
  | skip
  | create
  | upsert
deriving DecidableEq, Repr

/-- `_row_disposition`. -/
def rowDisposition (row : Event) : Verdict :=
  if row.deletedAt ≠ none then .skip
  else if row.hiddenAt ≠ none then .skip
  else if 0 < row.versionNo then .skip
  else if row.status = .detected then .upsert
  else .skip

/-- A source link, current or of a filed version, carries `url`. -/
def carriesLink (row : Event) (url : Str) : Bool :=
  row.sources.any (fun source => source.links.any fun link => link.url = url) ||
    row.versions.any fun version =>
      version.snapshot.any fun snapshot =>
        snapshot.sources.any fun source => source.links.any fun link => link.url = url

/-- Whether `_match_legs` finds anything to recognise a row by. -/
def Detection.hasLegs (detection : Detection) : Bool :=
  detection.detectedFromPostId.isSome || detection.threadTweetIds ≠ [] ||
    detection.sourceUrl.isSome

/-- One of the `_match_legs` hits the row. -/
def matchesLegs (detection : Detection) (row : Event) : Bool :=
  (detection.detectedFromPostId.any fun id =>
      row.detection.any fun stored => stored.fromPostId = some id) ||
    (row.detection.any fun stored =>
      stored.threadPostIds.any fun ids => ids.any fun id => id ∈ detection.threadTweetIds) ||
    detection.sourceUrl.any (carriesLink row)

/-- `round(value, 6)`, in millionths: a half goes to the even number. -/
def roundPlaces (value : Rat) : Int :=
  let scaled := value * 1000000
  let rest := scaled - ⌊scaled⌋
  if rest < 1 / 2 then ⌊scaled⌋
  else if 1 / 2 < rest then ⌊scaled⌋ + 1
  else if ⌊scaled⌋ % 2 = 0 then ⌊scaled⌋
  else ⌊scaled⌋ + 1

/-- `_same_coordinate`; a row without a coordinate matches nothing. -/
def sameCoordinate (row : Event) (detection : Detection) : Bool :=
  row.coords.any fun point =>
    roundPlaces point.lat = roundPlaces detection.coordinate.lat &&
      roundPlaces point.lng = roundPlaces detection.coordinate.lng

/-- `ORDER BY created_at, id`. -/
def eventLe (left right : Event) : Bool :=
  left.createdAt < right.createdAt ||
    (left.createdAt = right.createdAt && left.id ≤ right.id)

/-- The rows the query and the coordinate keep, oldest first. -/
def matchedRows (events : List Event) (ownerId : Uuid) (detection : Detection) : List Event :=
  (sortedBy eventLe (events.filter fun row =>
    row.ownerId = ownerId && matchesLegs detection row)).filter fun row =>
      sameCoordinate row detection

/-- The loop of `_disposition`: one `skip` wins, else the oldest open row. -/
def pickRow : List Event → Option Event → Verdict × Option Event
  | [], none => (.create, none)
  | [], some openRow => (.upsert, some openRow)
  | row :: rows, openRow =>
    if rowDisposition row = .skip then (.skip, some row)
    else pickRow rows (openRow.or (some row))

/-- `_disposition`. -/
def disposition (events : List Event) (ownerId : Uuid) (detection : Detection) :
    Verdict × Option Event :=
  if detection.hasLegs then pickRow (matchedRows events ownerId detection) none
  else (.create, none)

/-! ### Media -/

/-- `PreparedMedia`, as far as the rows and the keys go. -/
structure Prepared where
  contentType : ContentType
  sha256 : Str
deriving DecidableEq, Repr

structure ResolvedMedia where
  role : MediaRole
  prepared : Prepared
deriving DecidableEq, Repr

/-- `_DetectionMedia`. -/
structure DetectionMedia where
  items : List ResolvedMedia
  complete : Bool
deriving DecidableEq, Repr

/-- Fetching, validating and preparing one media, with derivatives or not: the
digest of the cleaned bytes, `none` for unusable media. -/
abbrev MediaFetcher := ParsedMedia → Bool → Option Str

/-- `_MediaCache`. -/
abbrev MediaCache := List ((Str × Bool) × Option Prepared)

/-- `_prepared_media`: memoised by the reference and whether it has derivatives. -/
def preparedMedia (fetch : MediaFetcher) (parsed : ParsedMedia) (role : MediaRole)
    (cache : MediaCache) : Option Prepared × MediaCache :=
  let derivatives := decide (role = .source)
  match cache.lookup (parsed.remoteUrl, derivatives) with
  | some prepared => (prepared, cache)
  | none =>
    let prepared := (fetch parsed derivatives).map fun digest => ⟨parsed.contentType, digest⟩
    (prepared, ((parsed.remoteUrl, derivatives), prepared) :: cache)

/-- The source slot: the first source media that prepares. -/
def sourceSlot (fetch : MediaFetcher) : List ParsedMedia → MediaCache →
    Option Prepared × MediaCache
  | [], cache => (none, cache)
  | parsed :: rest, cache =>
    match preparedMedia fetch parsed .source cache with
    | (some prepared, cache) => (some prepared, cache)
    | (none, cache) => sourceSlot fetch rest cache

/-- The proof images, with whether none went missing. -/
def proofImages (fetch : MediaFetcher) : List ParsedMedia → MediaCache →
    (List Prepared × Bool) × MediaCache
  | [], cache => (([], true), cache)
  | parsed :: rest, cache =>
    if parsed.kind = .image then
      match preparedMedia fetch parsed .proof cache with
      | (some prepared, cache) =>
        let ((later, complete), cache) := proofImages fetch rest cache
        ((prepared :: later, complete), cache)
      | (none, cache) =>
        let ((later, _), cache) := proofImages fetch rest cache
        ((later, false), cache)
    else proofImages fetch rest cache

/-- `_resolve_media`. -/
def resolveMedia (fetch : MediaFetcher) (detection : Detection) (cache : MediaCache) :
    DetectionMedia × MediaCache :=
  let (slot, cache) := sourceSlot fetch detection.sourceMedia cache
  let ((images, imagesComplete), cache) := proofImages fetch detection.proofMedia cache
  ({ items := slot.toList.map (ResolvedMedia.mk .source) ++ images.map (ResolvedMedia.mk .proof)
     complete := (detection.sourceMedia = [] || slot.isSome) && imagesComplete }, cache)

/-- `_media_type`. -/
def mediaType : ContentType → MediaKind
  | .mp4 | .webm => .video
  | _ => .image

/-- One `media` row of `_store_media`; each item takes two draws, its row and its key. -/
def storedItem (config : Config) (tx : Transaction) (eventId : Uuid) (first index : Nat)
    (item : ResolvedMedia) : Media :=
  let key := detectedMediaKey config.uuids eventId (tx.uuid (first + 2 * index + 1))
    item.prepared.contentType
  { id := tx.uuid (first + 2 * index)
    storageUrl := config.storage.publicUrl key
    kind := mediaType item.prepared.contentType
    sha256 := item.prepared.sha256
    originalFilename := none }

/-- What `_store_media` leaves: every row, each with its role. -/
def storeMedia (config : Config) (tx : Transaction) (eventId : Uuid) (first : Nat)
    (items : List ResolvedMedia) : List (MediaRole × Media) :=
  items.mapIdx fun index item => (item.role, storedItem config tx eventId first index item)

/-- The file of the source slot: the last source row stored. -/
def sourceFileOf (stored : List (MediaRole × Media)) : Option Media :=
  ((stored.filter fun row => row.1 = .source).map Prod.snd).getLast?

/-- The rows added to the event. -/
def proofRowsOf (stored : List (MediaRole × Media)) : List Media :=
  (stored.filter fun row => row.1 = .proof).map Prod.snd

/-- `proof_image_urls`. -/
def proofImageUrlsOf (stored : List (MediaRole × Media)) : List Str :=
  ((proofRowsOf stored).filter fun media => media.kind = .image).map Media.storageUrl

/-! ### Sources -/

/-- One source of `_import_sources`. -/
def importedSource (id : Uuid) (level : SourceLevel) (kind : SourceKind) (title : Str)
    (links : List (Str × Option Instant)) (media : Option Media) : Source where
  id := id
  title := title
  level := level
  kind := kind
  capturedAt := none
  capturePosition := none
  isGraphic := false
  links := links.map fun link => ⟨link.1, link.2, none, none⟩
  tags := []
  media := media

/-- The link of the declared source, when it has one. -/
def Detection.declaredLinks (detection : Detection) : List (Str × Option Instant) :=
  (detection.sourceUrl.map fun url => (url, detection.sourcePostedAt)).toList

/-- `_import_sources`; source `index` is drawn at `first + index`. -/
def importSources (tx : Transaction) (first : Nat) (detection : Detection)
    (footage : Option Media) : List Source :=
  (if detection.sourceUrl.isSome || footage.isSome then
    [importedSource (tx.uuid first) .direct .unknown [] detection.declaredLinks footage]
  else []) ++
    detection.secondarySources.mapIdx fun index extra =>
      importedSource (tx.uuid (first + 1 + index)) extra.level extra.kind extra.title
        [(extra.url, extra.postedAt)] none

/-- What an import owns of one source. -/
structure SourceShape where
  level : SourceLevel
  kind : SourceKind
  title : Str
  links : List (Str × Option Instant)
deriving DecidableEq, Repr

/-- `_import_shape`. -/
def importShape (sources : List Source) : List SourceShape :=
  sources.map fun source =>
    ⟨source.level, source.kind, source.title,
      source.links.map fun link => (link.url, link.postedAt)⟩

/-- `_declared_shape`. -/
def declaredShape (detection : Detection) (hasFootage : Bool) : List SourceShape :=
  (if detection.sourceUrl.isSome || hasFootage then
    [⟨.direct, .unknown, [], detection.declaredLinks⟩]
  else []) ++
    detection.secondarySources.map fun extra =>
      ⟨extra.level, extra.kind, extra.title, [(extra.url, extra.postedAt)]⟩

/-! ### Writing -/

/-- `html_from_text(detection.proof_text, image_srcs=urls)`. -/
def proofBody (config : Config) (detection : Detection) (urls : List Str) :
    Except EventError Body :=
  ((config.sanitizeText (paragraphsOf detection.proofText)).map fun text =>
    htmlFromText text urls).mapError .invalidProof

/-- `ImportProvenance` of a detection. -/
def Detection.provenance (detection : Detection) (via : DetectedVia) : ImportProvenance where
  tweetId := detection.detectedFromPostId
  url := detection.detectedFromUrl
  threadTweetIds := detection.threadTweetIds
  via := via
  postAt := detection.detectedPostAt

/-- What an import leaves for its commit. -/
structure Imported where
  event : Event
  stored : List (MediaRole × Media)
  replaced : List StoredObject
  draws : Nat

/-- Where the media draws of an import start: after the event and its sources. -/
def Detection.mediaStart (detection : Detection) : Nat :=
  2 + detection.secondarySources.length

/-- `_persist_one`. -/
def persistOne (config : Config) (tx : Transaction) (owner : User) (detection : Detection)
    (via : DetectedVia) (items : List ResolvedMedia) : Except EventError Imported := do
  let eventId := tx.uuid 0
  let stored := storeMedia config tx eventId detection.mediaStart items
  let proof ← proofBody config detection (proofImageUrlsOf stored)
  let form : EventForm := ⟨detection.title, detection.occurredDate, none, none, [], [], [], []⟩
  pure {
    event := { newEvent tx owner .detected form (some detection.coordinate) with
      proof := proof
      detectedAt := some tx.now
      detection := some (stampProvenance (detection.provenance via))
      media := proofRowsOf stored
      sources := importSources tx 1 detection (sourceFileOf stored) }
    stored := stored
    replaced := []
    draws := detection.mediaStart + 2 * items.length }

/-- The media a row holds, with the role of each: its proof rows, then its
sources' files. -/
def storedMedia (row : Event) : List (MediaRole × Media) :=
  row.media.map (fun media => (.proof, media)) ++
    (row.sources.filterMap Source.media).map fun media => (.source, media)

/-- `_media_unchanged`: the same roles and digests, as multisets. -/
def mediaUnchanged (stored : List (MediaRole × Media)) (items : List ResolvedMedia) : Bool :=
  (stored.map fun row => (row.1, row.2.sha256)).isPerm
    (items.map fun item => (item.role, item.prepared.sha256))

/-- The fields `_apply_import_fields` writes. -/
def applyImportFields (row : Event) (detection : Detection) : Event :=
  { row with
    coords := some detection.coordinate
    title := detection.title
    occurredDate := detection.occurredDate
    detection := row.detection.map fun stored =>
      { stored with postAt := detection.detectedPostAt } }

/-- Whether `_upsert_one` keeps the stored media: the fetch came back short, or
the row holds exactly what the detection resolved to and shows its images. -/
def reusesMedia (row : Event) (resolved : DetectionMedia) : Bool :=
  if storedMedia row ≠ [] ∧ resolved.complete = false then true
  else
    mediaUnchanged (storedMedia row) resolved.items &&
      (extractImageSrcs row.proof).length =
        (resolved.items.filter fun item => item.role = .proof).length

/-- The sources of an upsert that keeps the media: the stored ones, or the declared
ones rebuilt on the same stored file. -/
def reusedSources (tx : Transaction) (row : Event) (detection : Detection) : List Source :=
  let footage := (row.sources.filterMap Source.media).head?
  if importShape row.sources = declaredShape detection footage.isSome then row.sources
  else importSources tx 1 detection (footage.map fun media => { media with id := tx.uuid 0 })

/-- `_upsert_one` on a row it has locked; `none` when nothing moved. -/
def upsertOne (config : Config) (tx : Transaction) (row : Event) (detection : Detection)
    (resolved : DetectionMedia) : Except EventError (Option Imported) := do
  if rowDisposition row ≠ .upsert then pure none
  else
    -- `to_shape(None)` raises on a row without a coordinate
    require (row.coords ≠ none) .internal
    let updated := applyImportFields row detection
    if reusesMedia row resolved then
      let proof ← proofBody config detection (extractImageSrcs row.proof)
      let event := { updated with
        sources := reusedSources tx row detection
        proof := proof }
      if event = row then pure none
      else pure (some ⟨event, [], [], detection.mediaStart⟩)
    else
      let stored := storeMedia config tx row.id detection.mediaStart resolved.items
      let proof ← proofBody config detection (proofImageUrlsOf stored)
      pure (some {
        event := { updated with
          media := proofRowsOf stored
          sources := importSources tx 1 detection (sourceFileOf stored)
          proof := proof }
        stored := stored
        replaced := mediaObjects ((storedMedia row).map Prod.snd)
        draws := detection.mediaStart + 2 * resolved.items.length })

end Vidit.Events
