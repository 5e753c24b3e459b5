import Vidit.Library.Attempt
import Vidit.Python.Unicode

/-!
Contract: the bucket of the map files, and what one pass finds outside it.

Owns:
- the objects of the bucket, and what the calls of its client do;
- the points at which a pass can fail;
- what the network, the clock and the archive format answer.

Does not own: what a pass does (`Vidit.Maps.Update`).
-/

namespace Vidit.Maps

open Vidit.Python Vidit.Library

/-- A file's bytes. -/
abbrev Bytes := List Nat

/-- An object: its content, and the checksum it was uploaded with. -/
structure StoredFile where
  content : Bytes
  sha256 : Option Str
deriving DecidableEq, Repr

structure Bucket where
  files : List (Str × StoredFile)
deriving DecidableEq, Repr

namespace Bucket

variable (bucket : Bucket) (key : Str)

def get? : Option StoredFile :=
  (bucket.files.find? fun file => file.1 = key).map Prod.snd

def delete : Bucket where
  files := bucket.files.filter fun file => file.1 ≠ key

def put (file : StoredFile) : Bucket where
  files := (key, file) :: (bucket.delete key).files

def keys : List Str :=
  bucket.files.map Prod.fst

@[simp] theorem get?_delete (other : Str) :
    (bucket.delete key).get? other = if other = key then none else bucket.get? other := by
  unfold get? delete
  split
  · rename_i here
    rw [Option.map_eq_none_iff, List.find?_eq_none]
    intro file member found
    have kept := (List.mem_filter.mp member).2
    simp only [ne_eq, decide_not, Bool.not_eq_eq_eq_not, Bool.not_true, decide_eq_false_iff_not]
      at kept
    exact kept ((of_decide_eq_true found).trans here)
  · rename_i elsewhere
    congr 1
    induction bucket.files with
    | nil => rfl
    | cons file files inductionHypothesis =>
        by_cases kept : file.1 = key
        · have different : file.1 ≠ other := fun same => elsewhere (same.symm.trans kept)
          rw [List.filter_cons_of_neg (by simp [kept]), List.find?_cons_of_neg (by simp [different]),
            inductionHypothesis]
        · rw [List.filter_cons_of_pos (by simp [kept])]
          by_cases found : file.1 = other
          · rw [List.find?_cons_of_pos (by simp [found]), List.find?_cons_of_pos (by simp [found])]
          · rw [List.find?_cons_of_neg (by simp [found]), List.find?_cons_of_neg (by simp [found]),
              inductionHypothesis]

@[simp] theorem get?_put (file : StoredFile) (other : Str) :
    (bucket.put key file).get? other = if other = key then some file else bucket.get? other := by
  unfold put
  by_cases here : other = key
  · subst here
    simp [get?]
  · have elsewhere : ¬ key = other := fun same => here same.symm
    rw [if_neg here]
    show (List.find? _ ((key, file) :: (bucket.delete key).files)).map Prod.snd = _
    rw [List.find?_cons_of_neg (by simp [elsewhere])]
    exact (bucket.get?_delete key other).trans (if_neg here)

end Bucket

/-- Why a pass raises: `MapUpdateError` with its message, or an exception of a call. -/
inductive Failure where
  | mapUpdate (message : Str)
  /-- A `ClientError` of the storage. -/
  | storage
  | network
  | other
deriving DecidableEq, Repr

def Failure.isMapUpdate : Failure → Bool
  | .mapUpdate _ => true
  | _ => false

/-- The storage calls of a pass, by where the pass makes them. -/
inductive Point where
  | readLatest
  | existsCurrent
  | storedExists
  | storedSha256
  | createUpload (name : Str)
  | uploadPart (name : Str)
  | completeUpload (name : Str)
  | checkHeader (name : Str)
  | checkMetadata (name : Str)
  | existsSprite (name : Str)
  | putSprite (name : Str)
  | existsRaster (name : Str)
  | delete (name : Str)
  | putLatest
  | list
deriving DecidableEq, Repr

structure Response where
  status : Nat
  text : Str
  content : Bytes
  contentLength : Option Str
  etag : Option Str
deriving DecidableEq, Repr

inductive TileType where
  | unknown
  | mvt
  | png
  | jpeg
  | webp
  | avif
deriving DecidableEq, Repr

def TileType.text : TileType → Str
  | .unknown => str "TileType.UNKNOWN"
  | .mvt => str "TileType.MVT"
  | .png => str "TileType.PNG"
  | .jpeg => str "TileType.JPEG"
  | .webp => str "TileType.WEBP"
  | .avif => str "TileType.AVIF"

/-- The header fields of a PMTiles archive that the check reads. -/
structure Header where
  tileType : TileType
  minZoom : Nat
  maxZoom : Nat
  metadataOffset : Nat
  metadataLength : Nat
  isGzip : Bool
deriving DecidableEq, Repr

/-! ### `latest.json` -/

structure PlanetEntry where
  key : Str
  version : Str
  area : Str
  osmDate : Option Str
  sha256 : Str
  bytes : Nat
deriving DecidableEq, Repr

structure RasterEntry where
  key : Str
  maxZoom : Nat
deriving DecidableEq, Repr

/-- `LATEST_FIELDS`. -/
structure MapFiles where
  planet : PlanetEntry
  sprite : Str
  naturalEarth : RasterEntry
  relief : RasterEntry
deriving DecidableEq, Repr

structure Latest where
  files : MapFiles
  attribution : List (Str × Str)
  updatedAt : Str
deriving DecidableEq, Repr

/-! ### A pass and what it asks -/

/-- `MapConfig`. -/
structure MapConfig where
  mapPrefix : Str
  keepPlanets : Nat
  reliefMaxZoom : Nat
  sourceUrl : Str
  area : Str
  planetVersion : Str
  naturalEarthMaxZoom : Nat
deriving DecidableEq, Repr

namespace MapConfig

/-- `config.key(name)`. -/
def key (config : MapConfig) (name : Str) : Str :=
  if config.mapPrefix ≠ [] then config.mapPrefix ++ chr '/' :: name else name

theorem key_injective (config : MapConfig) : Function.Injective config.key := by
  intro left right same
  unfold key at same
  split at same
  · simpa using same
  · exact same

@[simp] theorem key_inj (config : MapConfig) {left right : Str} :
    config.key left = config.key right ↔ left = right :=
  config.key_injective.eq_iff

end MapConfig

/-- What the network, the clock, the storage and the libraries answer to one pass. -/
structure Outside where
  /-- A `LocalBucket` hashes a file, and answers a range past its end. -/
  isLocal : Bool
  /-- Where a storage call fails, and how; a call that fails has done nothing. -/
  fails : Point → Option Failure
  get : Str → Except Failure Response
  head : Str → Except Failure Response
  /-- A streamed request at an attempt, from a byte on: its status and the bytes that came
  before it ended or dropped, or `none` when it dropped before an answer. -/
  connection : Str → Nat → Nat → Except Failure (Option (Nat × Bytes))
  /-- `fetch`, of a tile URL template and a tile id. -/
  fetch : Str → Nat → Except Failure Bytes
  now : Str
  isAlnum : Nat → Bool
  lower : Str → Str
  int : Str → Except Failure Nat
  sha256 : Bytes → Str
  /-- `deserialize_header`. -/
  header : Bytes → Except Failure Header
  /-- The ids of the `vector_layers` of an archive's metadata, which may be compressed. -/
  vectorLayers : Bool → Bytes → Except Failure (List Str)
  /-- The archive `Writer` writes: its name, its attribution and its tiles in order. -/
  archive : Str → Str → List Bytes → Bytes
  /-- The `sprite` field of a style. -/
  styleSprite : Bytes → Except Failure Str
  /-- `isinstance(json.loads(data), dict)`. -/
  isJsonObject : Bytes → Except Failure Bool
  /-- A stored `latest.json`. -/
  loads : Bytes → Except Failure Latest
  dumps : Latest → Bytes
  loads_dumps : ∀ latest, loads (dumps latest) = .ok latest

/-- A pass: what it did to the bucket stays when it raises. -/
abbrev MapPass (α : Type) := Attempt Bucket Failure α

namespace Outside

variable (outside : Outside)

/-- A call that can fail there. -/
def call (point : Point) : Except Failure Unit :=
  match outside.fails point with
  | some failure => .error failure
  | none => .ok ()

/-- `_exists`. -/
def existsAt (config : MapConfig) (point : Point) (name : Str) (bucket : Bucket) :
    Except Failure Bool := do
  outside.call point
  pure (bucket.get? (config.key name)).isSome

/-- `_range`. -/
def range (config : MapConfig) (point : Point) (name : Str) (start length : Nat)
    (bucket : Bucket) : Except Failure Bytes := do
  outside.call point
  match bucket.get? (config.key name) with
  | none => .error .storage
  | some file =>
    if outside.isLocal = false ∧ file.content.length ≤ start then .error .storage
    else pure ((file.content.drop start).take length)

/-- `s3.put_object`. -/
def putObject (config : MapConfig) (point : Point) (name : Str) (file : StoredFile) :
    MapPass Unit := do
  .ask fun _ => outside.call point
  .modify fun bucket => bucket.put (config.key name) file

/-- `s3.delete_object`. -/
def deleteObject (config : MapConfig) (name : Str) : MapPass Unit := do
  .ask fun _ => outside.call (.delete name)
  .modify fun bucket => bucket.delete (config.key name)

end Outside

end Vidit.Maps
