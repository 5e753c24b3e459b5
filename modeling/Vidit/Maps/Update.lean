import Vidit.Library.Checks
import Vidit.Maps.Bucket

/-!
Contract: one pass that refreshes the self-hosted map files.

Owns:
- the choice of a planet version, its download and its check;
- the sprite, the two raster archives, `latest.json` and the retention;
- `run`, the pass.

Does not own: progress logging, and the waits between attempts.
-/

namespace Vidit.Maps

open Vidit.Python Vidit.Library

def spriteStyleUrl : Str := str "https://tiles.openfreemap.org/styles/dark"

def spriteUrlPrefix : Str := str "https://tiles.openfreemap.org/sprites/"

/-- The names of `SPRITE_FILES`. -/
def spriteFiles : List Str :=
  [str "ofm.json", str "ofm.png", str "ofm@2x.json", str "ofm@2x.png"]

def naturalEarthTiles : Str :=
  str "https://tiles.openfreemap.org/natural_earth/ne2sr/\x7bz\x7d/\x7bx\x7d/\x7by\x7d.png"

def reliefTiles : Str :=
  str "https://s3.amazonaws.com/elevation-tiles-prod/terrarium/\x7bz\x7d/\x7bx\x7d/\x7by\x7d.png"

def planetMaxZoom : Nat := 14

def requiredVectorLayers : List Str :=
  [str "boundary", str "building", str "landcover", str "landuse", str "place",
    str "transportation", str "water"]

def completeVersionFiles : List Str :=
  [str "done", str "SHA256SUMS", str "tiles.pmtiles"]

def latestKey : Str := str "latest.json"

def naturalEarthAttribution : Str := str "Natural Earth, public domain"

def reliefAttribution : Str :=
  str "Terrain Tiles on AWS Open Data: USGS, NOAA, Copernicus EU-DEM and others " ++
    str "(https://github.com/tilezen/joerd/blob/master/docs/attribution.md)"

/-- `ATTRIBUTION`. -/
def attribution : List (Str × Str) :=
  [(str "planet", str "OpenFreeMap, © OpenMapTiles, © OpenStreetMap contributors"),
    (str "natural_earth", naturalEarthAttribution), (str "relief", reliefAttribution)]

def minPartSize : Nat := 64 * 1024 * 1024

def maxPartSize : Nat := 5 * 1024 ^ 3

def maxParts : Nat := 10000

def resumeAttempts : Nat := 5

variable (outside : Outside) (config : MapConfig)

/-- `raise MapUpdateError(message)`. -/
def mapUpdateError {α : Type} (message : Str) : Except Failure α :=
  .error (.mapUpdate message)

/-! ### Multipart uploads -/

/-- `math.ceil(size / parts)`. -/
def ceilDiv (size parts : Nat) : Nat :=
  (size + parts - 1) / parts

def planetPartSize (size : Nat) : Except Failure Nat :=
  let part := max minPartSize (ceilDiv size maxParts)
  if maxPartSize < part then
    mapUpdateError (natText size ++ str " bytes do not fit in " ++ natText maxParts ++
      str " parts of 5 GiB")
  else pure part

/-- `MultipartUpload.__init__`. -/
def beginUpload (name : Str) (partSize : Nat) : Except Failure Unit := do
  require (0 < partSize ∧ partSize ≤ maxPartSize)
    (.mapUpdate (str "part size " ++ natText partSize ++ str " is outside the S3 limits"))
  outside.call (.createUpload name)

/-- `MultipartUpload.write` and `MultipartUpload.complete`, up to the call that puts the object:
the parts of the whole content. Each is sent as its bytes come. -/
def uploadParts (name : Str) (partSize : Nat) (content : Bytes) : Except Failure Unit := do
  outside.call (.uploadPart name)
  require (max 1 (ceilDiv content.length partSize) ≤ maxParts)
    (.mapUpdate (config.key name ++ str ": more than " ++ natText maxParts ++ str " parts"))
  outside.call (.completeUpload name)

/-! ### The check of an archive -/

def pmtilesMagic : Bytes := [0x50, 0x4D, 0x54, 0x69, 0x6C, 0x65, 0x73, 0x03]

/-- The end of `check_archive`: the layers the archive must have, where any are asked for. -/
def checkVectorLayers (name : Str) (required : List Str) (header : Header) (bucket : Bucket) :
    Except Failure Unit := do
  let metadata ← outside.range config (.checkMetadata name) name header.metadataOffset
    header.metadataLength bucket
  let layers ← outside.vectorLayers header.isGzip metadata
  let missing := required.filter (· ∉ layers)
  require (missing = [])
    (.mapUpdate (config.key name ++ str ": no vector layer " ++ join (str ", ") missing))

def checkArchive (name : Str) (tileType : TileType) (maxZoom : Nat) (vectorLayers : List Str)
    (bucket : Bucket) : Except Failure Unit := do
  let key := config.key name
  let raw ← outside.range config (.checkHeader name) name 0 127 bucket
  require (127 ≤ raw.length ∧ startsWith raw pmtilesMagic)
    (.mapUpdate (key ++ str ": not a PMTiles v3 archive"))
  let header ← outside.header raw
  require (header.tileType = tileType)
    (.mapUpdate (key ++ str ": tile type " ++ header.tileType.text ++ str ", expected " ++
      tileType.text))
  require ((header.minZoom, header.maxZoom) = (0, maxZoom))
    (.mapUpdate (key ++ str ": zooms " ++ natText header.minZoom ++ str " to " ++
      natText header.maxZoom ++ str ", expected 0 to " ++ natText maxZoom))
  if vectorLayers = [] then pure ()
  else checkVectorLayers outside config name vectorLayers header bucket

/-! ### The planet's version -/

def isDecimalPoint (point : Nat) : Bool :=
  (decimalValue? point).isSome

/-- `VERSION_PATTERN.match(version)`; `$` also stands before a last line feed. -/
def isVersion (version : Str) : Bool :=
  let body := if version.getLast? = some 0xA then version.dropLast else version
  (body.take 8).all isDecimalPoint && (body.drop 8).take 1 = str "_" &&
    ((body.drop 9).take 6).all isDecimalPoint && body.drop 15 = str "_pt"

/-- The order of strings: that of their code points. -/
def strLe : Str → Str → Bool
  | [], _ => true
  | _ :: _, [] => false
  | left :: lefts, right :: rights => left < right || (left = right && strLe lefts rights)

def strMax (left right : Str) : Str :=
  if strLe right left then left else right

/-- The files the index lists in the area's folders: version and file name. -/
def areaFiles (index area : Str) : List (Str × Str) :=
  (splitlines index).filterMap fun line =>
    match split (strip line) (chr '/') with
    | [areas, found, version, name] =>
      if areas = str "areas" ∧ found = area then some (version, name) else none
    | _ => none

def completeVersions (index area : Str) : List Str :=
  let files := areaFiles index area
  (files.map Prod.fst).filter fun version =>
    isVersion version && completeVersionFiles.all fun name => (version, name) ∈ files

def latestVersion (index area pinned : Str) : Except Failure Str :=
  let complete := completeVersions index area
  if pinned ≠ [] then
    if pinned ∈ complete then pure pinned
    else mapUpdateError (area ++ str " version " ++ pinned ++
      str " is not complete in the OpenFreeMap index")
  else
    match complete with
    | [] => mapUpdateError (str "no complete " ++ area ++ str " version in the OpenFreeMap index")
    | first :: rest => pure (rest.foldl strMax first)

/-! ### The planet -/

/-- `_get`. -/
def getOk (url : Str) : Except Failure Response := do
  let response ← outside.get url
  require (response.status = 200)
    (.mapUpdate (str "GET " ++ url ++ str ": " ++ natText response.status))
  pure response

def expectedSha256 (sums name : Str) : Except Failure Str :=
  let listed := (splitlines sums).findSome? fun line =>
    match splitSpaces line with
    | [sum, file] => if lstripBy (· = chr '*') file = name then some (outside.lower sum) else none
    | _ => none
  orRefuse listed (.mapUpdate (str "SHA256SUMS lists no " ++ name))

/-- The attempts of `_stream`, with the bytes received so far. -/
def streamFrom (url : Str) (size : Nat) (attempt : Nat) (received : Bytes) :
    Nat → Except Failure Bytes
  | 0 => pure received
  | left + 1 =>
    if size ≤ received.length then pure received
    else
      match outside.connection url attempt received.length with
      | .error failure => .error failure
      | .ok none => streamFrom url size (attempt + 1) received left
      | .ok (some (status, chunk)) =>
        if status ≠ (if received.length ≠ 0 then 206 else 200) then
          mapUpdateError (str "GET " ++ url ++ str ": " ++ natText status)
        else streamFrom url size (attempt + 1) (received ++ chunk) left

/-- `_stream`. -/
def stream (url : Str) (size : Nat) : Except Failure Bytes := do
  let received ← streamFrom outside url size 0 [] (resumeAttempts + 1)
  require (received.length = size)
    (.mapUpdate (url ++ str ": " ++ natText received.length ++ str " bytes, expected " ++
      natText size))
  pure received

/-- What `update_planet` reads of a version before it touches the bucket. -/
structure PlanetSource where
  url : Str
  expected : Str
  size : Nat
  osmDate : Option Str
deriving DecidableEq, Repr

def planetName (version : Str) : Str :=
  str "planet/" ++ version ++ str ".pmtiles"

/-- The version `update_planet` picks. -/
def chosenVersion : Except Failure Str := do
  let index ← getOk outside (config.sourceUrl ++ str "/files.txt")
  latestVersion index.text config.area config.planetVersion

/-- The requests of `update_planet` for a version's checksum, size and date. -/
def planetSource (version : Str) : Except Failure PlanetSource := do
  let folder := config.sourceUrl ++ str "/areas/" ++ config.area ++ str "/" ++ version
  let sums ← getOk outside (folder ++ str "/SHA256SUMS")
  let expected ← expectedSha256 outside sums.text (str "tiles.pmtiles")
  let url := folder ++ str "/tiles.pmtiles"
  let head ← outside.head url
  require (head.status = 200 ∧ head.contentLength.isSome)
    (.mapUpdate (str "HEAD " ++ url ++ str ": " ++ natText head.status ++ str ", no size"))
  let size ← outside.int (head.contentLength.getD [])
  let osmDate ← outside.get (folder ++ str "/osm_date")
  pure {
    url := url
    expected := expected
    size := size
    osmDate := if osmDate.status = 200 then some (strip osmDate.text) else none }

/-- `_stored_sha256`. -/
def storedSha256 (name : Str) (bucket : Bucket) : Except Failure (Option Str) := do
  let found ← outside.existsAt config .storedExists name bucket
  if found = false then pure none
  else do
    outside.call .storedSha256
    match bucket.get? (config.key name) with
    | none => .error .storage
    | some file =>
      pure (if outside.isLocal then some (outside.sha256 file.content) else file.sha256)

/-- `_check_planet`. -/
def checkPlanet (name : Str) (bucket : Bucket) : Except Failure Unit :=
  checkArchive outside config name .mvt planetMaxZoom requiredVectorLayers bucket

/-- `_copy_planet` up to the call that puts the object: the bytes it uploads. -/
def downloadPlanet (name : Str) (source : PlanetSource) : Except Failure Bytes := do
  let partSize ← planetPartSize source.size
  beginUpload outside name partSize
  let content ← stream outside source.url source.size
  require (outside.sha256 content = source.expected)
    (.mapUpdate (source.url ++ str ": SHA-256 " ++ outside.sha256 content ++
      str " does not match " ++ source.expected))
  uploadParts outside config name partSize content
  pure content

/-- `_copy_planet`. -/
def copyPlanet (name : Str) (source : PlanetSource) : MapPass Unit := do
  let content ← .ask fun _ => downloadPlanet outside config name source
  .modify fun bucket => bucket.put (config.key name) ⟨content, some source.expected⟩
  .onRaise (fun _ => true) (.ask (checkPlanet outside config name))
    (outside.deleteObject config name)

/-- The current entry, where it is of this version and area and its archive is in place. -/
def currentPlanet (current : Option PlanetEntry) (name : Str) (bucket : Bucket) :
    Except Failure (Option PlanetEntry) :=
  match current with
  | none => pure none
  | some entry =>
    if entry.key = name ∧ entry.area = config.area then do
      let found ← outside.existsAt config .existsCurrent name bucket
      pure (if found then some entry else none)
    else pure none

/-- The end of `update_planet`: the archive is checked where it is, or copied. -/
def placePlanet (version : Str) : MapPass PlanetEntry := do
  let source ← .ask fun _ => planetSource outside config version
  let stored ← .ask (storedSha256 outside config (planetName version))
  if stored = some source.expected then .ask (checkPlanet outside config (planetName version))
  else copyPlanet outside config (planetName version) source
  pure {
    key := planetName version
    version := version
    area := config.area
    osmDate := source.osmDate
    sha256 := source.expected
    bytes := source.size }

def updatePlanet (current : Option PlanetEntry) : MapPass PlanetEntry := do
  let version ← .ask fun _ => chosenVersion outside config
  let kept ← .ask (currentPlanet outside config current (planetName version))
  match kept with
  | some entry => pure entry
  | none => placePlanet outside config version

/-! ### The sprite -/

/-- `_is_png`. -/
def isPng (data : Bytes) : Bool :=
  startsWith data [0x89, 0x50, 0x4E, 0x47, 0xD, 0xA, 0x1A, 0xA]

def isWordPoint (point : Nat) : Bool :=
  outside.isAlnum point || point = chr '_'

/-- The group of `re.fullmatch(SPRITE_URL_PREFIX + r"(ofm_\w+)/ofm", url)`. -/
def spriteStyle? (url : Str) : Option Str :=
  let rest := removeprefix url spriteUrlPrefix
  let style := rest.take (rest.length - 4)
  if startsWith url spriteUrlPrefix ∧ endsWith rest (str "/ofm") ∧ startsWith style (str "ofm_") ∧
      style.drop 4 ≠ [] ∧ (style.drop 4).all (isWordPoint outside) then some style
  else none

def spriteFolder (style : Str) : Str :=
  str "sprite/" ++ style

def spriteName (style file : Str) : Str :=
  spriteFolder style ++ str "/" ++ file

def spriteKey (style : Str) : Str :=
  spriteName style (str "ofm")

/-- The sprite the style names. -/
def chosenSprite : Except Failure Str := do
  let response ← getOk outside spriteStyleUrl
  let spriteUrl ← outside.styleSprite response.content
  orRefuse (spriteStyle? outside spriteUrl)
    (.mapUpdate (str "unexpected sprite URL in " ++ spriteStyleUrl ++ str ": " ++ spriteUrl))

/-- `all(_exists(…) for name in SPRITE_FILES)`. -/
def allExist (bucket : Bucket) : List Str → Except Failure Bool
  | [] => pure true
  | name :: rest =>
    match outside.existsAt config (.existsSprite name) name bucket with
    | .error failure => .error failure
    | .ok false => pure false
    | .ok true => allExist bucket rest

def checkSpriteFile (file : Str × Bytes) : Except Failure Unit := do
  let valid ←
    if endsWith file.1 (str ".png") then pure (isPng file.2) else outside.isJsonObject file.2
  require (valid = true ∧ file.2 ≠ [])
    (.mapUpdate (str "sprite " ++ file.1 ++ str ": not a valid file"))

/-- The sprite's files, downloaded and checked. -/
def downloadSprite (style : Str) : Except Failure (List (Str × Bytes)) := do
  let files ← spriteFiles.mapM fun file => do
    let response ← getOk outside (spriteUrlPrefix ++ style ++ str "/" ++ file)
    pure (file, response.content)
  let _ ← files.mapM (checkSpriteFile outside)
  pure files

def putSpriteFile (style : Str) (file : Str × Bytes) : MapPass Unit :=
  outside.putObject config (.putSprite (spriteName style file.1)) (spriteName style file.1)
    ⟨file.2, none⟩

def copySprite (style : Str) : MapPass Unit := do
  let files ← .ask fun _ => downloadSprite outside style
  .forEach files (putSpriteFile outside config style)

/-- Copy the sprite unless all its files are in place. -/
def placeSprite (style : Str) : MapPass Unit := do
  let current ← .ask fun bucket =>
    allExist outside config bucket (spriteFiles.map (spriteName style))
  if current then pure () else copySprite outside config style

def updateSprite : MapPass Str := do
  let style ← .ask fun _ => chosenSprite outside
  placeSprite outside config style
  pure (spriteKey style)

/-! ### The raster archives -/

/-- `build_raster_archive` up to the call that puts the object: the bytes it uploads. -/
def buildRasterArchive (name field attribution template : Str) (maxZoom : Nat) :
    Except Failure Bytes := do
  beginUpload outside name minPartSize
  let total := (4 ^ (maxZoom + 1) - 1) / 3
  let tiles ← (List.range total).mapM (outside.fetch template)
  let content := outside.archive field attribution tiles
  uploadParts outside config name minPartSize content
  pure content

/-- Build the archive unless it is in place. -/
def placeRaster (name field attribution template : Str) (maxZoom : Nat) : MapPass Unit := do
  let found ← .ask (outside.existsAt config (.existsRaster name) name)
  if found then pure ()
  else do
    let content ← .ask fun _ =>
      buildRasterArchive outside config name field attribution template maxZoom
    .modify fun bucket => bucket.put (config.key name) ⟨content, none⟩

def checkRaster (name : Str) (maxZoom : Nat) (bucket : Bucket) : Except Failure Unit :=
  checkArchive outside config name .png maxZoom [] bucket

def updateRaster (name field attribution template : Str) (maxZoom : Nat) :
    MapPass RasterEntry := do
  placeRaster outside config name field attribution template maxZoom
  .onRaise Failure.isMapUpdate (.ask (checkRaster outside config name maxZoom))
    (outside.deleteObject config name)
  pure ⟨name, maxZoom⟩

def naturalEarthName (maxZoom : Nat) : Str :=
  str "natural-earth/ne2sr-z" ++ natText maxZoom ++ str ".pmtiles"

def reliefName (maxZoom : Nat) : Str :=
  str "relief/terrarium-z" ++ natText maxZoom ++ str ".pmtiles"

def updateNaturalEarth : MapPass RasterEntry :=
  updateRaster outside config (naturalEarthName config.naturalEarthMaxZoom)
    (str "natural_earth") naturalEarthAttribution naturalEarthTiles config.naturalEarthMaxZoom

def updateRelief : MapPass RasterEntry :=
  updateRaster outside config (reliefName config.reliefMaxZoom) (str "relief") reliefAttribution
    reliefTiles config.reliefMaxZoom

/-! ### `latest.json` and the retention -/

def readLatest (bucket : Bucket) : Except Failure (Option Latest) := do
  outside.call .readLatest
  match bucket.get? (config.key latestKey) with
  | none => pure none
  | some file => some <$> outside.loads file.content

/-- `re.fullmatch(r"planet/[\w-]+\.pmtiles", name)`. -/
def isPlanetName (name : Str) : Bool :=
  let body := ( removeprefix name (str "planet/")).take (name.length - 15)
  startsWith name (str "planet/") && endsWith name (str ".pmtiles") && body ≠ [] &&
    body.all fun point => isWordPoint outside point || point = chr '-'

/-- The planets of the bucket, the newest first. -/
def planetNames (bucket : Bucket) : List Str :=
  let listed := bucket.keys.filter fun key => startsWith key (config.key (str "planet/"))
  let names := listed.map fun key => removeprefix key (config.key [])
  sortedBy (fun left right => strLe right left) (names.filter (isPlanetName outside))

/-- The planets past the newest `keep_planets`. -/
def doomedPlanets (shielded : List Str) (bucket : Bucket) : List Str :=
  ((planetNames outside config bucket).drop config.keepPlanets).filter (· ∉ shielded)

def applyRetention (shielded : List Str) : MapPass (List Str) := do
  let doomed ← .ask fun bucket => do
    outside.call .list
    pure (doomedPlanets outside config shielded bucket)
  .forEach doomed (outside.deleteObject config)
  pure doomed

/-- The new `latest.json` of a pass, or the current one where it says the same. -/
def publishLatest (current : Option Latest) (files : MapFiles) : MapPass Latest :=
  match current.filter fun latest => latest.files = files ∧ latest.attribution = attribution with
  | some latest => pure latest
  | none => do
    let latest : Latest := ⟨files, attribution, outside.now⟩
    outside.putObject config .putLatest latestKey ⟨outside.dumps latest, none⟩
    pure latest

def run : MapPass Latest := do
  let current ← .ask (readLatest outside config)
  let planet ← updatePlanet outside config (current.map fun latest => latest.files.planet)
  let sprite ← updateSprite outside config
  let naturalEarth ← updateNaturalEarth outside config
  let relief ← updateRelief outside config
  let latest ← publishLatest outside config current ⟨planet, sprite, naturalEarth, relief⟩
  let _ ← applyRetention outside config
    (planet.key :: (current.map fun latest => latest.files.planet.key).toList)
  pure latest

end Vidit.Maps
