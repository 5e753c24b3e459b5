import Vidit.Events.Schema
import Vidit.Library.Grid
import Vidit.Points.Numerals

/-!
Contract: from the map's viewport to the points the server answers with.

Coordinates are exact rationals.

Owns:
- the client's side (`viewport.ts`): `normalizeBounds`, `padBounds`,
  `boundsContain` and `toBboxParam`;
- the server's side (`event_filters.py`): `parseBbox`, `snapBbox` and
  `bboxPredicate`.

Does not own: the other filters of the points endpoint, its cache, and the
debounce of the map.
-/

namespace Vidit.Points

open Vidit.Python Vidit.Events Vidit.Library

/-- A geographic rectangle, with the numbers of `α` for edges. -/
structure MapBounds (α : Type) where
  south : α
  west : α
  north : α
  east : α
deriving DecidableEq, Repr

/-- The rectangle as the client holds it. -/
def MapBounds.numbers (bounds : MapBounds Rat) : MapBounds Number where
  south := .finite bounds.south
  west := .finite bounds.west
  north := .finite bounds.north
  east := .finite bounds.east

/-! ### The client -/

def latMin : Rat := -90
def latMax : Rat := 90
def lngMin : Rat := -180
def lngMax : Rat := 180

/-- `VIEWPORT_PADDING`. -/
def viewportPadding : Rat := 1 / 4

def clamp (value low high : Rat) : Rat :=
  min (max value low) high

/-- `Math.round`: halves go up. -/
def mathRound (value : Rat) : Int :=
  ⌊value + 1 / 2⌋

def normalizeLongitudes (west east : Number) : Rat × Rat :=
  match west, east with
  | .finite west, .finite east =>
    if east < west ∨ 360 ≤ east - west then (lngMin, lngMax)
    else
      let turns : Rat := mathRound ((west + east) / 2 / 360)
      let shifted := (west - turns * 360, east - turns * 360)
      if shifted.1 < lngMin ∨ lngMax < shifted.2 then (lngMin, lngMax) else shifted
  | _, _ => (lngMin, lngMax)

def normalizeLatitudes (south north : Number) : Rat × Rat :=
  match south, north with
  | .finite south, .finite north =>
    (clamp (min south north) latMin latMax, clamp (max south north) latMin latMax)
  | _, _ => (latMin, latMax)

def normalizeBounds (bounds : MapBounds Number) : MapBounds Rat :=
  let (west, east) := normalizeLongitudes bounds.west bounds.east
  let (south, north) := normalizeLatitudes bounds.south bounds.north
  { south, west, north, east }

def padBounds (bounds : MapBounds Number) : MapBounds Rat :=
  let base := normalizeBounds bounds
  let latMargin := (base.north - base.south) * viewportPadding
  let lngMargin := (base.east - base.west) * viewportPadding
  { south := clamp (base.south - latMargin) latMin latMax
    north := clamp (base.north + latMargin) latMin latMax
    west := clamp (base.west - lngMargin) lngMin lngMax
    east := clamp (base.east + lngMargin) lngMin lngMax }

def boundsContain (outer : MapBounds Rat) (inner : MapBounds Number) : Bool :=
  let box := normalizeBounds inner
  outer.south ≤ box.south && box.north ≤ outer.north && outer.west ≤ box.west &&
    box.east ≤ outer.east

/-- `down` of `toBboxParam`. -/
def down (value : Rat) : Rat :=
  ⌊value * bboxScale⌋ / bboxScale

/-- `up` of `toBboxParam`. -/
def up (value : Rat) : Rat :=
  ⌈value * bboxScale⌉ / bboxScale

def toBboxParam (bounds : MapBounds Number) : Str :=
  let box := normalizeBounds bounds
  join (str ",") [
    numberText (clamp (down box.south) latMin latMax),
    numberText (clamp (down box.west) lngMin lngMax),
    numberText (clamp (up box.north) latMin latMax),
    numberText (clamp (up box.east) lngMin lngMax)]

/-! ### The server -/

structure HttpException where
  statusCode : Nat
  detail : Str
deriving DecidableEq, Repr

def unprocessable (detail : String) : HttpException :=
  ⟨422, str detail⟩

/-- `low <= value <= high`, which no `NaN` meets. -/
def inRange? (low high : Rat) : Number → Option Rat
  | .finite value => if low ≤ value ∧ value ≤ high then some value else none
  | .nan | .infinite _ => none

/-- The checks of `parse_bbox` on its four numbers. -/
def checkBbox (south west north east : Number) : Except HttpException (MapBounds Rat) :=
  match inRange? (-90) 90 south, inRange? (-90) 90 north with
  | some south, some north =>
    match inRange? (-180) 180 west, inRange? (-180) 180 east with
    | some west, some east =>
      if north < south then .error (unprocessable "bbox south must be <= north")
      else if east < west then .error (unprocessable "bbox west must be <= east")
      else .ok { south, west, north, east }
    | _, _ => .error (unprocessable "bbox longitudes must be in [-180, 180]")
  | _, _ => .error (unprocessable "bbox latitudes must be in [-90, 90]")

def malformedBbox : HttpException :=
  unprocessable "bbox must be four comma-separated numbers: south,west,north,east"

def parseBbox (bbox : Str) : Except HttpException (MapBounds Rat) :=
  match split bbox (chr ',') with
  | [south, west, north, east] =>
    match float south, float west, float north, float east with
    | some south, some west, some north, some east => checkBbox south west north east
    | _, _, _, _ => .error malformedBbox
  | _ => .error malformedBbox

/-- `POINTS_CACHE_GRID`. -/
def pointsCacheGrid : Rat := 1 / 20

/-- `round(value)`: halves go to the even neighbour. -/
def roundHalfEven (value : Rat) : Int :=
  let below := ⌊value⌋
  if value - below < 1 / 2 then below
  else if 1 / 2 < value - below then below + 1
  else if below % 2 = 0 then below
  else below + 1

/-- `round(value, 6)`. -/
def round6 (value : Rat) : Rat :=
  roundHalfEven (value * 10 ^ 6) / 10 ^ 6

/-- `_snap_down`. -/
def snapDown (value : Rat) : Rat :=
  round6 (⌊value / pointsCacheGrid⌋ * pointsCacheGrid)

/-- `_snap_up`. -/
def snapUp (value : Rat) : Rat :=
  round6 (⌈value / pointsCacheGrid⌉ * pointsCacheGrid)

def snapBbox (bounds : MapBounds Rat) : MapBounds Rat where
  south := max (-90) (snapDown bounds.south)
  west := max (-180) (snapDown bounds.west)
  north := min 90 (snapUp bounds.north)
  east := min 180 (snapUp bounds.east)

structure Envelope where
  xmin : Rat
  ymin : Rat
  xmax : Rat
  ymax : Rat

/-- `ST_Within` of a point: strictly inside, and never of a missing one. -/
def stWithin (coords : Option Point) (envelope : Envelope) : Bool :=
  match coords with
  | none => false
  | some point =>
    envelope.xmin < point.lng && point.lng < envelope.xmax &&
      envelope.ymin < point.lat && point.lat < envelope.ymax

def bboxPredicate (bounds : MapBounds Rat) (geo : Event) : Bool :=
  stWithin geo.coords ⟨bounds.west, bounds.south, bounds.east, bounds.north⟩

/-! ### Rounding -/

section Rounding

variable {value low high : Rat}

theorem clamp_of_mem (isLow : low ≤ value) (isHigh : value ≤ high) :
    clamp value low high = value := by
  unfold clamp
  rw [max_eq_left isLow, min_eq_left isHigh]

theorem low_le_clamp (ordered : low ≤ high) : low ≤ clamp value low high :=
  le_min (le_max_right _ _) ordered

theorem clamp_le_high : clamp value low high ≤ high :=
  min_le_right _ _

theorem clamp_le_clamp {left right : Rat} (ordered : left ≤ right) :
    clamp left low high ≤ clamp right low high :=
  min_le_min_right _ (max_le_max_right _ ordered)

theorem roundHalfEven_intCast (number : Int) : roundHalfEven number = number := by
  simp [roundHalfEven]

/-- Rounding to six decimals takes no multiple of the grid off the grid. -/
theorem round6_grid (line : Int) : round6 (line * pointsCacheGrid) = line * pointsCacheGrid := by
  have scaled : (line : Rat) * pointsCacheGrid * 10 ^ 6 = ((line * 50000 : Int) : Rat) := by
    unfold pointsCacheGrid
    push_cast
    ring
  unfold round6
  rw [scaled, roundHalfEven_intCast]
  unfold pointsCacheGrid
  push_cast
  ring

theorem snapDown_eq (value : Rat) : snapDown value = floorTo pointsCacheGrid value :=
  round6_grid _

theorem snapUp_eq (value : Rat) : snapUp value = ceilTo pointsCacheGrid value :=
  round6_grid _

theorem down_eq (value : Rat) : down value = floorTo (1 / bboxScale) value := by
  unfold down floorTo
  rw [div_div_eq_mul_div, div_one, mul_one_div]

theorem up_eq (value : Rat) : up value = ceilTo (1 / bboxScale) value := by
  unfold up ceilTo
  rw [div_div_eq_mul_div, div_one, mul_one_div]

theorem float_numberText_of_onGrid (onGrid : OnGrid (1 / bboxScale) value) :
    float (numberText value) = some (.finite value) := by
  have positive : 0 < 1 / bboxScale := by norm_num [bboxScale, bboxPrecision]
  have kept := (floorTo_eq_iff positive).mpr onGrid
  rw [float_numberText, ← show down value = ⌊value * bboxScale⌋ / bboxScale from rfl, down_eq, kept]

end Rounding

end Vidit.Points
