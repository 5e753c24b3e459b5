import Vidit.Events.Sources
import Vidit.Library.RowLock
import Vidit.Library.Transition

/-!
Contract: the writes of a site, serialised by its row lock.

A site is one row with the rows that hang off it: its sources, the contours drawn on
them, and the versions the writes filed. The four writes are the only ones that change
them, and all but the create hold the row.

Owns:
- the records, and the live state of a site;
- `create_site`, `file_site_source`, `remove_site_source` and `save_version`;
- the system of their interleavings.

Does not own: the links of events to the site, which have no history, the files of a
source, and the image providers.
-/

namespace Vidit.Sites

open Vidit.Python Vidit.Accounts Vidit.Events Vidit.Library

/-- `SiteKind`. -/
inductive SiteKind where
  | airbase
  | militaryBase
  | depot
  | port
  | airDefencePosition
  | artilleryPosition
  | radar
  | fortification
  | unknown
  | other
deriving DecidableEq, Repr

inductive LinkEffect where
  | damage
  | destruction
  | activity
  | other
deriving DecidableEq, Repr

/-- `ZonePolygon`: its rings of `[lng, lat]` positions, the exterior first. -/
structure ZonePolygon where
  coordinates : List (List (Rat × Rat))
deriving DecidableEq, Repr

/-! ### Rows -/

/-- A `sources` row whose owner is the site. -/
structure SiteSource where
  id : Uuid
  authorId : Uuid
  title : Str
  capturedAt : Instant
  note : Option Str
  links : List LinkSpec
  createdAt : Instant
  removedAt : Option Instant
deriving DecidableEq, Repr

structure SiteContour where
  id : Uuid
  sourceId : Uuid
  authorId : Uuid
  zone : ZonePolygon
  createdAt : Instant
  supersededAt : Option Instant
deriving DecidableEq, Repr

structure SiteSnapshotSource where
  id : Uuid
  contourId : Option Uuid
deriving DecidableEq, Repr

structure SiteSnapshot where
  name : Str
  kind : SiteKind
  sources : List SiteSnapshotSource
deriving DecidableEq, Repr

structure SiteVersion where
  versionNo : Nat
  editedById : Uuid
  note : Option Str
  snapshot : SiteSnapshot
  createdAt : Instant
deriving DecidableEq, Repr

structure Site where
  id : Uuid
  ownerId : Uuid
  name : Str
  kind : SiteKind
  versionNo : Nat
  sources : List SiteSource
  contours : List SiteContour
  versions : List SiteVersion
deriving DecidableEq, Repr

/-! ### Refusals -/

/-- Why `zone_shape` refuses a polygon. -/
inductive ZoneRefusal where
  | vertex (refusal : CoordinateRefusal)
  | invalid (explanation : Str)
  | noArea
deriving DecidableEq, Repr

def ZoneRefusal.message : ZoneRefusal → Str
  | .vertex refusal => refusal.message
  | .invalid explanation => str "The zone is not a valid polygon: " ++ explanation
  | .noArea => str "The zone has no area"

/-- `MAX_ZONE_AREA_KM2`. -/
def maxZoneAreaKm2 : Nat := 1000

/-- `MAX_ZONE_LNG_SPAN_DEG`. -/
def maxZoneLngSpanDeg : Nat := 180

inductive SiteError where
  | siteNotFound
  | notSiteOwner
  | notSourceAuthor
  | sourceCarriesContour
  | siteContourRequired
  | versionMismatch (versionNo : Nat)
  | nothingChanged (versionNo : Nat)
  | notEventOwner
  | invalidZone (refusal : ZoneRefusal)
  | zoneTooLarge
  | zoneTooWide
  | eventNotLinkable
  | siteSourceNotFound (sourceId : Uuid)
  /-- `remove_site_source` finds a contour on the source. -/
  | removedSourceCarriesContour
  | imageryNotReopenable
  | versionLimit
  /-- A refusal of the source intake. -/
  | intake (refusal : EventError)
  /-- An exception no handler expects. -/
  | internal
deriving DecidableEq, Repr

namespace SiteError

/-- The stable `code` of each typed error. -/
def code : SiteError → Option Str
  | siteNotFound => some (str "site_not_found")
  | notSiteOwner => some (str "not_site_owner")
  | notSourceAuthor => some (str "not_source_author")
  | sourceCarriesContour | removedSourceCarriesContour => some (str "source_carries_contour")
  | siteContourRequired => some (str "site_contour_required")
  | versionMismatch _ => some (str "version_mismatch")
  | nothingChanged _ => some (str "nothing_changed")
  | notEventOwner => some (str "not_event_owner")
  | invalidZone _ => some (str "invalid_zone")
  | zoneTooLarge => some (str "zone_too_large")
  | zoneTooWide => some (str "zone_too_wide")
  | eventNotLinkable => some (str "event_not_linkable")
  | siteSourceNotFound _ => some (str "site_source_not_found")
  | imageryNotReopenable => some (str "imagery_not_reopenable")
  | versionLimit => some (str "version_limit")
  | intake refusal => refusal.code
  | internal => none

def message (uuidText : Uuid → Str) : SiteError → Str
  | siteNotFound => str "Site not found"
  | notSiteOwner => str "Only the site's owner can make this change"
  | notSourceAuthor => str "Only the analyst who filed a source removes it"
  | sourceCarriesContour =>
    str "A source is removed once it carries no contour: redraw it on another one first"
  | removedSourceCarriesContour =>
    str "This source carries a contour: the site's owner redraws it on another source first"
  | siteContourRequired => str "A site keeps at least one source with a contour"
  | versionMismatch versionNo =>
    str "This site is at version " ++ natText versionNo ++ str "; reload it before saving"
  | nothingChanged versionNo =>
    str "Nothing changed since version " ++ natText versionNo ++ str "."
  | notEventOwner => str "Only the event's owner links it to a site"
  | invalidZone refusal => refusal.message
  | zoneTooLarge =>
    str "The zone must cover at most " ++ str "1,000" ++ str " km²"
  | zoneTooWide =>
    str "The zone must span less than " ++ natText maxZoneLngSpanDeg ++ str " degrees of longitude"
  | eventNotLinkable => str "Only a published, visible event can be linked to a site"
  | siteSourceNotFound sourceId =>
    str "The source " ++ uuidText sourceId ++ str " is not one of this site's sources"
  | imageryNotReopenable =>
    str "No link lets a reader reopen this source. Link a permalink from an accepted imagery " ++
      str "provider, or archive the publication that shows the source."
  | versionLimit =>
    str "This site has reached " ++ natText maxVersionsPerEvent ++
      str " versions and can no longer be edited."
  | intake refusal => refusal.message uuidText
  | internal => str "Internal Server Error"

end SiteError

/-! ### Payloads -/

structure SiteSourceCreate where
  title : Str
  capturedAt : Instant
  links : List LinkSpec
  uploadId : Option Uuid
  mediaId : Option Uuid
  note : Option Str
deriving DecidableEq, Repr

structure SiteEventLinkCreate where
  eventId : Uuid
  effect : LinkEffect
deriving DecidableEq, Repr

structure SiteCreate where
  name : Str
  kind : SiteKind
  contour : ZonePolygon
  source : SiteSourceCreate
  eventLinks : List SiteEventLinkCreate
deriving DecidableEq, Repr

/-- The source a contour change applies to: a live one, or one the write adds. -/
inductive ContourTarget where
  | stored (sourceId : Uuid)
  | added (index : Nat)
deriving DecidableEq, Repr

structure SiteContourChange where
  target : ContourTarget
  zone : Option ZonePolygon
deriving DecidableEq, Repr

/-- The body of a version, as its validator lets it through. -/
structure SiteVersionCreate where
  versionNo : Nat
  name : Str
  kind : SiteKind
  addedSources : List SiteSourceCreate
  removedSourceIds : List Uuid
  contours : List SiteContourChange
  /-- `none` leaves the links as they are. -/
  eventLinks : Option (List SiteEventLinkCreate)
  note : Option Str
  removedOnce : removedSourceIds.Nodup
  changedOnce : (contours.map SiteContourChange.target).Nodup
  addedNamed : ∀ change ∈ contours, ∀ index, change.target = .added index →
    index < addedSources.length
deriving DecidableEq

/-! ### What the writes read elsewhere -/

/-- The polygons as shapely and PostGIS measure them. -/
structure Geometry where
  /-- `none` when the polygon is valid. -/
  explainValidity : ZonePolygon → Option Str
  area : ZonePolygon → Rat
  /-- The spheroid area, in square metres. -/
  geographyArea : ZonePolygon → Rat

structure SiteSettings where
  uuids : UuidSource
  unicode : Unicode
  geometry : Geometry
  /-- `imagery.can_reopen`, of each link and whether it is archived. -/
  canReopen : List (Str × Bool) → Bool

/-- What the rows outside the site answer to one write. -/
structure Outside where
  now : Instant
  eventFile : Uuid → Except EventError Unit
  takeUpload : Uuid → Except EventError Unit
  /-- `none` where no event has the id. -/
  eventOwner : Uuid → Option Uuid
  linkable : Uuid → Bool
  /-- `_own_links`, of the caller. -/
  ownLinks : List SiteEventLinkCreate

/-! ### The live state -/

namespace Site

/-- `live_sources`. -/
def liveSources (site : Site) : List SiteSource :=
  site.sources.filter fun source => source.removedAt = none

/-- `live_contours`. -/
def liveContours (site : Site) : List SiteContour :=
  site.contours.filter fun contour => contour.supersededAt = none

/-- The live contours of one source. -/
def contoursOn (site : Site) (sourceId : Uuid) : List SiteContour :=
  site.liveContours.filter fun contour => contour.sourceId = sourceId

/-- `SITE_SOURCE_ORDER`. -/
def sourceLe (left right : SiteSource) : Bool :=
  left.capturedAt < right.capturedAt || left.capturedAt = right.capturedAt &&
    (left.createdAt < right.createdAt || left.createdAt = right.createdAt && left.id ≤ right.id)

/-- The rows of one source in the outer join of the sources with their contours. -/
def joined (site : Site) (source : SiteSource) : List SiteSnapshotSource :=
  match site.contoursOn source.id with
  | [] => [⟨source.id, none⟩]
  | contour :: contours =>
    (contour :: contours).map fun contour => ⟨source.id, some contour.id⟩

/-- `_snapshot`. -/
def snapshot (site : Site) : SiteSnapshot where
  name := site.name
  kind := site.kind
  sources := (sortedBy sourceLe site.liveSources).flatMap site.joined

/-- `_file_version`. -/
def fileVersion (site : Site) (now : Instant) (editorId : Uuid) (note : Option Str) :
    Except SiteError Site := do
  require (site.versionNo < maxVersionsPerEvent) .versionLimit
  pure { site with
    versions := site.versions ++ [⟨site.versionNo, editorId, note, site.snapshot, now⟩]
    versionNo := site.versionNo + 1 }

/-- `_live_source`. -/
def liveSource (site : Site) (sourceId : Uuid) : Except SiteError SiteSource :=
  orRefuse (site.liveSources.find? fun source => source.id = sourceId)
    (.siteSourceNotFound sourceId)

end Site

/-! ### Zones -/

/-- The longitude span of the bounds. -/
def lngSpan (zone : ZonePolygon) : Rat :=
  let lngs := (zone.coordinates.headD []).map Prod.fst
  lngs.max?.getD 0 - lngs.min?.getD 0

/-- The vertex checks of `zone_shape`. -/
def checkVertices (zone : ZonePolygon) : Except SiteError Unit :=
  match zone.coordinates.flatten.mapM fun position => validateCoordinates position.2 position.1 with
  | .error (.invalidCoordinates refusal) => .error (.invalidZone (.vertex refusal))
  | .error _ => .error .internal
  | .ok _ => .ok ()

/-- `zone_shape`. -/
def zoneShape (settings : SiteSettings) (zone : ZonePolygon) : Except SiteError ZonePolygon := do
  checkVertices zone
  match settings.geometry.explainValidity zone with
  | some explanation => .error (.invalidZone (.invalid explanation))
  | none =>
    require (settings.geometry.area zone ≠ 0) (.invalidZone .noArea)
    require (lngSpan zone < maxZoneLngSpanDeg) .zoneTooWide
    require (settings.geometry.geographyArea zone ≤ maxZoneAreaKm2 * 1000000) .zoneTooLarge
    pure zone

/-! ### Sources -/

/-- `_stage_site_source`. -/
def stageSiteSource (settings : SiteSettings) (outside : Outside) (authorId : Uuid)
    (id : Uuid) (body : SiteSourceCreate) : Except SiteError SiteSource := do
  whenSome body.mediaId fun mediaId => (outside.eventFile mediaId).mapError .intake
  let links ← (cleanLinks settings.unicode body.links).mapError .intake
  whenSome body.uploadId fun uploadId => (outside.takeUpload uploadId).mapError .intake
  require (settings.canReopen (links.map fun link => (link.url, link.snapshotUrl.isSome)) = true)
    .imageryNotReopenable
  pure
    { id := id
      authorId := authorId
      title := body.title
      capturedAt := body.capturedAt
      note := body.note
      links := links
      createdAt := outside.now
      removedAt := none }

/-! ### Event links -/

/-- `_lock_own_events`, up to the locks. -/
def lockOwnEvents (outside : Outside) (userId : Uuid) (links : List SiteEventLinkCreate) :
    Except SiteError Unit := do
  require (∀ link ∈ links, (outside.eventOwner link.eventId).all (· = userId) = true)
    .notEventOwner
  require (∀ link ∈ links, outside.linkable link.eventId = true) .eventNotLinkable

/-- `_links_change`: neither side lists an event twice. -/
def linksChange (current links : List SiteEventLinkCreate) : Bool :=
  !(current.all (· ∈ links) && links.all (· ∈ current))

/-! ### The writes -/

/-- `create_site`. -/
def createSite (settings : SiteSettings) (outside : Outside) (ids : Nat → Uuid) (ownerId : Uuid)
    (body : SiteCreate) : Except SiteError Site := do
  -- `find_overlaps` checks the zone before the write does.
  let _ ← zoneShape settings body.contour
  lockOwnEvents outside ownerId body.eventLinks
  let source ← stageSiteSource settings outside ownerId (ids 1) body.source
  let zone ← zoneShape settings body.contour
  pure
    { id := ids 0
      ownerId := ownerId
      name := body.name
      kind := body.kind
      versionNo := 1
      sources := [source]
      contours := [⟨ids 2, source.id, ownerId, zone, outside.now, none⟩]
      versions := [] }

/-- `file_site_source`, on the locked site. -/
def fileSiteSource (settings : SiteSettings) (outside : Outside) (ids : Nat → Uuid)
    (authorId : Uuid) (body : SiteSourceCreate) (site : Site) : Except SiteError Site := do
  let filed ← site.fileVersion outside.now authorId none
  let source ← stageSiteSource settings outside authorId (ids 0) body
  pure { filed with sources := filed.sources ++ [source] }

/-- `removed_at` of the sources that go. -/
def Site.removeSources (site : Site) (now : Instant) (sourceIds : List Uuid) : Site :=
  { site with sources := site.sources.map fun source =>
      if source.id ∈ sourceIds then { source with removedAt := some now } else source }

/-- `remove_site_source`, on the locked site. -/
def removeSiteSource (outside : Outside) (userId sourceId : Uuid) (site : Site) :
    Except SiteError Site := do
  let source ← site.liveSource sourceId
  require (source.authorId = userId) .notSourceAuthor
  require (site.contoursOn source.id = []) .removedSourceCarriesContour
  let filed ← site.fileVersion outside.now userId none
  pure (filed.removeSources outside.now [source.id])

namespace SiteVersionCreate

/-- `changes.get(source_id)`. -/
def changeOf (body : SiteVersionCreate) (sourceId : Uuid) : Option SiteContourChange :=
  body.contours.find? fun change => change.target = .stored sourceId

/-- The source ids among the targets. -/
def storedTargets (body : SiteVersionCreate) : List Uuid :=
  body.contours.filterMap fun change =>
    match change.target with
    | .stored sourceId => some sourceId
    | .added _ => none

/-- A removed source must end with no contour. -/
def Frees (body : SiteVersionCreate) (site : Site) (sourceId : Uuid) : Prop :=
  match body.changeOf sourceId with
  | none => site.contoursOn sourceId = []
  | some change => change.zone = none

instance (body : SiteVersionCreate) (site : Site) (sourceId : Uuid) :
    Decidable (body.Frees site sourceId) := by
  unfold Frees
  split <;> infer_instance

/-- A contour that no change touches: `kept`. -/
def keeps (body : SiteVersionCreate) (contour : SiteContour) : Bool :=
  (body.changeOf contour.sourceId).isNone

/-- `drawn`: the targets that take a zone, with it. -/
def drawn (body : SiteVersionCreate) : List (ContourTarget × ZonePolygon) :=
  body.contours.filterMap fun change => change.zone.map (change.target, ·)

/-- `effective`: the changes that draw a zone or replace one. -/
def effective (body : SiteVersionCreate) (site : Site) : List ContourTarget :=
  (body.contours.filter fun change =>
    change.zone.isSome ||
      match change.target with
      | .stored sourceId => site.contoursOn sourceId ≠ []
      | .added _ => false).map SiteContourChange.target

/-- `state_moves`. -/
def stateMoves (body : SiteVersionCreate) (site : Site) : Bool :=
  (body.name, body.kind) ≠ (site.name, site.kind) || body.removedSourceIds ≠ [] ||
    body.effective site ≠ [] || body.addedSources ≠ []

/-- `links_move`. -/
def linksMove (body : SiteVersionCreate) (outside : Outside) : Bool :=
  body.eventLinks.any (linksChange outside.ownLinks)

end SiteVersionCreate

/-- The id a target names, once the added sources have theirs. -/
def ContourTarget.sourceId (added : List SiteSource) : ContourTarget → Uuid
  | .stored sourceId => sourceId
  | .added index => (added[index]?.map SiteSource.id).getD 0

/-- `superseded_at` of the live contours the changes replace: `contours` keeps one row
for each source, the last read. -/
def Site.supersede (site : Site) (now : Instant) (sourceIds : List Uuid) : Site :=
  { site with contours := site.contours.map fun contour =>
      if contour.supersededAt = none ∧ contour.sourceId ∈ sourceIds ∧
          (site.contoursOn contour.sourceId).getLast? = some contour then
        { contour with supersededAt := some now }
      else contour }

/-- The sources a save stages, in order. -/
def stageAdded (settings : SiteSettings) (outside : Outside) (ids : Nat → Uuid) (userId : Uuid)
    (bodies : List SiteSourceCreate) : Except SiteError (List SiteSource) :=
  (bodies.zipIdx).mapM fun (body, index) =>
    stageSiteSource settings outside userId (ids index) body

/-- The contours a save adds. -/
def drawnContours (outside : Outside) (ids : Nat → Uuid) (userId : Uuid) (added : List SiteSource)
    (shapes : List (ContourTarget × ZonePolygon)) : List SiteContour :=
  shapes.zipIdx.map fun (shape, index) =>
    ⟨ids (added.length + index), shape.1.sourceId added, userId, shape.2, outside.now, none⟩

namespace SiteVersionCreate

/-- A save that only moves the links files no version. -/
def fileMoved (body : SiteVersionCreate) (now : Instant) (userId : Uuid) (site : Site) :
    Except SiteError Site :=
  if body.stateMoves site then site.fileVersion now userId body.note else .ok site

/-- The record a save leaves, and its sources. -/
def moveSources (body : SiteVersionCreate) (now : Instant) (site : Site)
    (removed added : List SiteSource) : Site :=
  let edited := { site with name := body.name, kind := body.kind, sources := site.sources ++ added }
  edited.removeSources now (removed.map SiteSource.id)

/-- The contours it leaves; `stored` is the site as the save read it. -/
def moveContours (body : SiteVersionCreate) (outside : Outside) (ids : Nat → Uuid) (userId : Uuid)
    (stored site : Site) (added : List SiteSource) (shapes : List (ContourTarget × ZonePolygon)) :
    Site :=
  let superseded := site.supersede outside.now
    ((body.effective stored).map (ContourTarget.sourceId added))
  { superseded with
    contours := superseded.contours ++ drawnContours outside ids userId added shapes }

end SiteVersionCreate

/-- `save_version`, on the locked site. -/
def saveVersion (settings : SiteSettings) (outside : Outside) (ids : Nat → Uuid) (userId : Uuid)
    (body : SiteVersionCreate) (site : Site) : Except SiteError Site := do
  require (body.versionNo = site.versionNo) (.versionMismatch site.versionNo)
  let removed ← body.removedSourceIds.mapM site.liveSource
  require (∀ source ∈ removed, source.authorId = userId) .notSourceAuthor
  let _ ← body.storedTargets.mapM site.liveSource
  require (∀ source ∈ removed, body.Frees site source.id) .sourceCarriesContour
  require (site.liveContours.any body.keeps = true ∨ body.drawn ≠ []) .siteContourRequired
  let shapes ← body.drawn.mapM fun (target, zone) => (target, ·) <$> zoneShape settings zone
  whenSome body.eventLinks (lockOwnEvents outside userId)
  require (body.stateMoves site = true ∨ body.linksMove outside = true)
    (.nothingChanged site.versionNo)
  let filed ← body.fileMoved outside.now userId site
  let added ← stageAdded settings outside ids userId body.addedSources
  pure (body.moveContours outside ids userId site
    (body.moveSources outside.now filed removed added) added shapes)

/-! ### The system -/

/-- A write on one site. -/
inductive SiteCall where
  | fileSource (authorId : Uuid) (body : SiteSourceCreate)
  | removeSource (userId sourceId : Uuid)
  | saveVersion (userId : Uuid) (body : SiteVersionCreate)
deriving DecidableEq

namespace SiteCall

/-- The check `save_version` makes before it locks the site. -/
def requireSiteOwner (site : Site) : SiteCall → Except SiteError Unit
  | .saveVersion userId _ => require (site.ownerId = userId) .notSiteOwner
  | _ => .ok ()

/-- The write, on the locked site. -/
def write (settings : SiteSettings) (outside : Outside) (ids : Nat → Uuid) (site : Site) :
    SiteCall → Except SiteError Site
  | .fileSource authorId body => fileSiteSource settings outside ids authorId body site
  | .removeSource userId sourceId => removeSiteSource outside userId sourceId site
  | .saveVersion userId body => Sites.saveVersion settings outside ids userId body site

/-- How many rows the write may add. -/
def draws : SiteCall → Nat
  | .fileSource _ _ => 1
  | .removeSource _ _ => 0
  | .saveVersion _ body => body.addedSources.length + body.contours.length

end SiteCall

/-- What a request does next. -/
inductive SiteProcess where
  | idle
  | raised (refusal : SiteError)
  | create (ownerId : Uuid) (body : SiteCreate)
  /-- `_lock_site`. -/
  | lock (siteId : Uuid) (call : SiteCall)
  | write (siteId : Uuid) (call : SiteCall)
  | commit (siteId : Uuid)
deriving DecidableEq

/-- The request has returned or raised. -/
def SiteProcess.ended : SiteProcess → Bool
  | .idle | .raised _ => true
  | _ => false

structure SiteState where
  /-- How many UUIDs have been drawn. -/
  drawn : Nat
  sites : Table Nat Uuid Site
  processes : Nat → SiteProcess

inductive SiteLabel where
  | create (process : Nat) (ownerId : Uuid) (body : SiteCreate)
  | call (process : Nat) (siteId : Uuid) (call : SiteCall)
  | run (process : Nat) (outside : Outside)
  /-- Any exception the statements do not expect. -/
  | fail (process : Nat)

/-- Why a step is not possible. -/
inductive SiteBlocked where
  | busy
  | ended
  | rowLocked
deriving DecidableEq, Repr

namespace SiteState

def setProcess (state : SiteState) (process : Nat) (next : SiteProcess) : SiteState :=
  { state with processes := Function.update state.processes process next }

/-- `db.rollback()`, and the exception leaves the call. -/
def raise (state : SiteState) (process : Nat) (refusal : SiteError) : SiteState :=
  { state.setProcess process (.raised refusal) with sites := state.sites.rollback process }

/-- The ids of the rows one write adds. -/
def ids (settings : SiteSettings) (state : SiteState) (index : Nat) : Uuid :=
  settings.uuids.draw (state.drawn + index)

/-- The rows of a new site. -/
def create (settings : SiteSettings) (state : SiteState) (process : Nat) (outside : Outside)
    (ownerId : Uuid) (body : SiteCreate) : SiteState :=
  match createSite settings outside (state.ids settings) ownerId body with
  | .error refusal => state.raise process refusal
  | .ok site =>
    { state.setProcess process (.commit site.id) with
      drawn := state.drawn + 3
      sites := state.sites.write process site.id (some site) }

/-- `_lock_site`: waits for the row. -/
def lockSite (state : SiteState) (process : Nat) (siteId : Uuid) (call : SiteCall) :
    Except SiteBlocked SiteState :=
  match state.sites.read process siteId with
  | none => .ok (state.raise process .siteNotFound)
  | some site =>
    match call.requireSiteOwner site with
    | .error refusal => .ok (state.raise process refusal)
    | .ok _ =>
      if ¬ state.sites.Free process siteId then .error .rowLocked
      else
        .ok { state.setProcess process (.write siteId call) with
              sites := state.sites.lock process siteId }

/-- The checks and the writes of a call that holds the row. -/
def writeSite (settings : SiteSettings) (state : SiteState) (process : Nat) (outside : Outside)
    (siteId : Uuid) (call : SiteCall) : SiteState :=
  match state.sites.read process siteId with
  | none => state.raise process .internal
  | some site =>
    match call.write settings outside (state.ids settings) site with
    | .error refusal => state.raise process refusal
    | .ok next =>
      { state.setProcess process (.commit siteId) with
        drawn := state.drawn + call.draws
        sites := state.sites.write process siteId (some next) }

/-- The next statement of one process. -/
def runProcess (settings : SiteSettings) (state : SiteState) (process : Nat) (outside : Outside) :
    Except SiteBlocked SiteState :=
  match state.processes process with
  | .idle | .raised _ => .error .ended
  | .create ownerId body => .ok (state.create settings process outside ownerId body)
  | .lock siteId call => state.lockSite process siteId call
  | .write siteId call => .ok (state.writeSite settings process outside siteId call)
  | .commit _ =>
    .ok { state.setProcess process .idle with sites := state.sites.commit process }

/-- A request arrives. -/
def start (state : SiteState) (process : Nat) (next : SiteProcess) :
    Except SiteBlocked SiteState :=
  if (state.processes process).ended then .ok (state.setProcess process next) else .error .busy

/-- One step: a request arrives, or a process runs or fails its next statement. -/
def step (settings : SiteSettings) (label : SiteLabel) (state : SiteState) :
    Except SiteBlocked SiteState :=
  match label with
  | .create process ownerId body => state.start process (.create ownerId body)
  | .call process siteId call => state.start process (.lock siteId call)
  | .run process outside => state.runProcess settings process outside
  | .fail process => .ok (state.raise process .internal)

/-- No site, and nothing runs. -/
structure Initial (state : SiteState) : Prop where
  ended : ∀ process, (state.processes process).ended = true
  sites : state.sites = .ofRows [] fun _ => none

end SiteState

/-- Every interleaving of the writes. -/
def siteSystem (settings : SiteSettings) : System SiteState SiteLabel :=
  System.ofStep SiteState.Initial (SiteState.step settings)

end Vidit.Sites
