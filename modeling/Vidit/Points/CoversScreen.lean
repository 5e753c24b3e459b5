import Vidit.Points.Viewport

/-!
Contract: the points fetched for a viewport cover the screen.

Owns:
- `InViewport`, what a map shows, modulo whole turns;
- the parameter of a fetch is accepted by `parseBbox`;
- exactly which points of a screen the fetched box leaves out: those on an edge
  of the padded viewport which is a line of the server's grid.

Proof shape: a padded viewport is `Normalized`, so a second normalisation keeps
it; each edge is rounded to four decimals and then to the grid, which is
rounding to the grid at once (`Vidit.Library.Grid`).
-/

namespace Vidit.Points

open Vidit.Python Vidit.Events Vidit.Library

/-! ### What the map shows -/

/-- The latitude is between the edges; a viewport without finite edges shows all. -/
def ShowsLat (south north : Number) (lat : Rat) : Prop :=
  match south, north with
  | .finite south, .finite north => min south north ≤ lat ∧ lat ≤ max south north
  | _, _ => True

/-- Some whole number of turns takes the longitude between the edges; a viewport
without finite edges, or with its edges swapped, shows all. -/
def ShowsLng (west east : Number) (lng : Rat) : Prop :=
  match west, east with
  | .finite west, .finite east =>
    east < west ∨ ∃ turns : Int, west ≤ lng + 360 * turns ∧ lng + 360 * turns ≤ east
  | _, _ => True

/-- The closed viewport, modulo whole turns. -/
def InViewport (viewport : MapBounds Number) (point : Point) : Prop :=
  ShowsLat viewport.south viewport.north point.lat ∧
    ShowsLng viewport.west viewport.east point.lng

/-- What `validate_coordinates` accepts. -/
def InWorld (point : Point) : Prop :=
  (-90 ≤ point.lat ∧ point.lat ≤ 90) ∧ -180 ≤ point.lng ∧ point.lng ≤ 180

/-- The map at `screen` asks for nothing more than the fetch made for `viewport`. -/
def FetchedFor (viewport screen : MapBounds Number) : Prop :=
  screen = viewport ∨ boundsContain (padBounds viewport) screen = true

/-- The point is on an edge of the box, and the edge on a line of the server's grid. -/
def OnGridEdge (box : MapBounds Rat) (point : Point) : Prop :=
  (OnGrid pointsCacheGrid point.lat ∧ (point.lat = box.south ∨ point.lat = box.north)) ∨
    (OnGrid pointsCacheGrid point.lng ∧
      ∃ turns : Int, point.lng + 360 * turns = box.west ∨ point.lng + 360 * turns = box.east)

/-! ### Normalized bounds -/

/-- Within the world, in order, and not the antimeridian alone as `180`. -/
structure Normalized (box : MapBounds Rat) : Prop where
  latMin_le : -90 ≤ box.south
  south_le : box.south ≤ box.north
  le_latMax : box.north ≤ 90
  lngMin_le : -180 ≤ box.west
  west_le : box.west ≤ box.east
  le_lngMax : box.east ≤ 180
  west_lt : box.west < 180

/-- The middle of a longitude pair, after the shift, is in `[-180, 180)`. -/
theorem mathRound_bounds (value : Rat) :
    -(1 / 2) ≤ value - mathRound value ∧ value - mathRound value < 1 / 2 := by
  have below := Int.floor_le (value + 1 / 2)
  have above := Int.lt_floor_add_one (value + 1 / 2)
  unfold mathRound
  constructor <;> linarith

theorem normalizeLongitudes_bounds (west east : Number) :
    -180 ≤ (normalizeLongitudes west east).1 ∧
      (normalizeLongitudes west east).1 ≤ (normalizeLongitudes west east).2 ∧
      (normalizeLongitudes west east).2 ≤ 180 ∧ (normalizeLongitudes west east).1 < 180 := by
  have world : (-180 : Rat) ≤ lngMin ∧ lngMin ≤ lngMax ∧ lngMax ≤ 180 ∧ lngMin < 180 := by
    norm_num [lngMin, lngMax]
  rcases west with west | _ | _ <;> rcases east with east | _ | _
  case finite.finite =>
    simp only [normalizeLongitudes]
    split
    next => exact world
    next ordered =>
      split
      next => exact world
      next inside =>
        have middle := mathRound_bounds ((west + east) / 2 / 360)
        simp only [not_or, not_lt, lngMin, lngMax] at inside ordered
        refine ⟨inside.1, ?_, inside.2, ?_⟩ <;> linarith [ordered.1, middle.2]
  all_goals exact world

theorem normalizeLatitudes_bounds (south north : Number) :
    -90 ≤ (normalizeLatitudes south north).1 ∧
      (normalizeLatitudes south north).1 ≤ (normalizeLatitudes south north).2 ∧
      (normalizeLatitudes south north).2 ≤ 90 := by
  have world : latMin ≤ latMax := by norm_num [latMin, latMax]
  rcases south with south | _ | _ <;> rcases north with north | _ | _
  case finite.finite =>
    exact ⟨low_le_clamp world, clamp_le_clamp min_le_max, clamp_le_high⟩
  all_goals exact ⟨le_rfl, world, le_rfl⟩

theorem normalized_normalizeBounds (bounds : MapBounds Number) :
    Normalized (normalizeBounds bounds) := by
  have lng := normalizeLongitudes_bounds bounds.west bounds.east
  have lat := normalizeLatitudes_bounds bounds.south bounds.north
  exact ⟨lat.1, lat.2.1, lat.2.2, lng.1, lng.2.1, lng.2.2.1, lng.2.2.2⟩

theorem boundsContain_iff {outer : MapBounds Rat} {inner : MapBounds Number} :
    boundsContain outer inner = true ↔
      outer.south ≤ (normalizeBounds inner).south ∧ (normalizeBounds inner).north ≤ outer.north ∧
        outer.west ≤ (normalizeBounds inner).west ∧ (normalizeBounds inner).east ≤ outer.east := by
  unfold boundsContain
  grind

/-- A normalized box is grown on every side, within the world. -/
theorem boundsContain_padBounds (bounds : MapBounds Number) :
    boundsContain (padBounds bounds) bounds = true := by
  have normal := normalized_normalizeBounds bounds
  have latMargin : 0 ≤ ((normalizeBounds bounds).north - (normalizeBounds bounds).south) *
      viewportPadding :=
    mul_nonneg (sub_nonneg.mpr normal.south_le) (by norm_num [viewportPadding])
  have lngMargin : 0 ≤ ((normalizeBounds bounds).east - (normalizeBounds bounds).west) *
      viewportPadding :=
    mul_nonneg (sub_nonneg.mpr normal.west_le) (by norm_num [viewportPadding])
  have south := clamp_of_mem normal.latMin_le (normal.south_le.trans normal.le_latMax)
  have north := clamp_of_mem (normal.latMin_le.trans normal.south_le) normal.le_latMax
  have west := clamp_of_mem normal.lngMin_le (normal.west_le.trans normal.le_lngMax)
  have east := clamp_of_mem (normal.lngMin_le.trans normal.west_le) normal.le_lngMax
  rw [boundsContain_iff]
  refine ⟨?_, ?_, ?_, ?_⟩
  · exact (clamp_le_clamp (sub_le_self _ latMargin)).trans_eq south
  · exact north.symm.trans_le (clamp_le_clamp (le_add_of_nonneg_right latMargin))
  · exact (clamp_le_clamp (sub_le_self _ lngMargin)).trans_eq west
  · exact east.symm.trans_le (clamp_le_clamp (le_add_of_nonneg_right lngMargin))

theorem clamp_sub_lt {value margin low high : Rat} (low_lt : low < high) (small : value < high)
    (nonneg : 0 ≤ margin) :
    clamp (value - margin) low high < high := by
  unfold clamp
  rw [min_lt_iff]
  left
  rw [max_lt_iff]
  exact ⟨by linarith, low_lt⟩

theorem normalized_padBounds (bounds : MapBounds Number) : Normalized (padBounds bounds) := by
  have normal := normalized_normalizeBounds bounds
  have contained := boundsContain_iff.mp (boundsContain_padBounds bounds)
  have lngMargin : 0 ≤ ((normalizeBounds bounds).east - (normalizeBounds bounds).west) *
      viewportPadding :=
    mul_nonneg (sub_nonneg.mpr normal.west_le) (by norm_num [viewportPadding])
  exact {
    latMin_le := low_le_clamp (by norm_num [latMin, latMax])
    south_le := contained.1.trans (normal.south_le.trans contained.2.1)
    le_latMax := clamp_le_high
    lngMin_le := low_le_clamp (by norm_num [lngMin, lngMax])
    west_le := contained.2.2.1.trans (normal.west_le.trans contained.2.2.2)
    le_lngMax := clamp_le_high
    west_lt := clamp_sub_lt (by norm_num [lngMin, lngMax]) normal.west_lt lngMargin }

/-- Normalising twice is normalising once. -/
theorem Normalized.normalizeBounds {box : MapBounds Rat} (normal : Normalized box) :
    Points.normalizeBounds box.numbers = box := by
  have latitudes : normalizeLatitudes (.finite box.south) (.finite box.north) =
      (box.south, box.north) := by
    have south : clamp box.south latMin latMax = box.south :=
      clamp_of_mem normal.latMin_le (normal.south_le.trans normal.le_latMax)
    have north : clamp box.north latMin latMax = box.north :=
      clamp_of_mem (normal.latMin_le.trans normal.south_le) normal.le_latMax
    simp only [normalizeLatitudes, min_eq_left normal.south_le, max_eq_right normal.south_le,
      south, north]
  have longitudes : normalizeLongitudes (.finite box.west) (.finite box.east) =
      (box.west, box.east) := by
    have noTurn : mathRound ((box.west + box.east) / 2 / 360) = 0 := by
      unfold mathRound
      rw [Int.floor_eq_iff]
      have west := normal.lngMin_le
      have westLt := normal.west_lt
      have ordered := normal.west_le
      have east := normal.le_lngMax
      constructor <;> push_cast <;> linarith
    simp only [normalizeLongitudes, noTurn]
    split
    next unordered =>
      have west := normal.lngMin_le
      have east := normal.le_lngMax
      have ordered := normal.west_le
      rcases unordered with swapped | whole
      · exact absurd swapped (not_lt.mpr ordered)
      · unfold lngMin lngMax
        congr 1 <;> linarith
    next =>
      have inside : ¬ (box.west < lngMin ∨ lngMax < box.east) := by
        rw [not_or, not_lt, not_lt]
        exact ⟨normal.lngMin_le, normal.le_lngMax⟩
      simp [inside]
  simp only [Points.normalizeBounds, MapBounds.numbers, latitudes, longitudes]

/-! ### The fetched box -/

theorem scale_pos : 0 < 1 / bboxScale := by
  norm_num [bboxScale, bboxPrecision]

theorem grid_pos : 0 < pointsCacheGrid := by
  norm_num [pointsCacheGrid]

/-- A line of the server's grid has at most two decimals. -/
theorem grid_onScale : OnGrid (1 / bboxScale) pointsCacheGrid :=
  ⟨500, by norm_num [bboxScale, bboxPrecision, pointsCacheGrid]⟩

section Edge

variable {low high edge : Rat}

/-- The lower edge as it is sent: rounded down to four decimals. -/
theorem sent_lower (onGrid : OnGrid pointsCacheGrid low) (isLow : low ≤ edge)
    (isHigh : edge ≤ high) :
    clamp (down edge) low high = floorTo (1 / bboxScale) edge := by
  have above : low ≤ floorTo (1 / bboxScale) edge :=
    (onGrid.refine grid_onScale).le_floorTo scale_pos isLow
  rw [down_eq]
  exact clamp_of_mem above ((floorTo_le scale_pos edge).trans isHigh)

theorem sent_upper (onGrid : OnGrid pointsCacheGrid high) (isLow : low ≤ edge)
    (isHigh : edge ≤ high) :
    clamp (up edge) low high = ceilTo (1 / bboxScale) edge := by
  have below : ceilTo (1 / bboxScale) edge ≤ high :=
    (onGrid.refine grid_onScale).ceilTo_le scale_pos isHigh
  rw [up_eq]
  exact clamp_of_mem (isLow.trans (le_ceilTo scale_pos edge)) below

/-- The lower edge as it is looked up: on the grid line at or below it. -/
theorem snapped_lower (onGrid : OnGrid pointsCacheGrid low) (isLow : low ≤ edge) :
    max low (snapDown (floorTo (1 / bboxScale) edge)) = floorTo pointsCacheGrid edge := by
  rw [snapDown_eq, floorTo_floorTo grid_pos scale_pos grid_onScale]
  exact max_eq_right (onGrid.le_floorTo grid_pos isLow)

theorem snapped_upper (onGrid : OnGrid pointsCacheGrid high) (isHigh : edge ≤ high) :
    min high (snapUp (ceilTo (1 / bboxScale) edge)) = ceilTo pointsCacheGrid edge := by
  rw [snapUp_eq, ceilTo_ceilTo grid_pos scale_pos grid_onScale]
  exact min_eq_right (onGrid.ceilTo_le grid_pos isHigh)

end Edge

/-! The edges of the world are lines of the grid. -/

theorem onGrid_latMin : OnGrid pointsCacheGrid latMin :=
  ⟨-1800, by norm_num [pointsCacheGrid, latMin]⟩

theorem onGrid_latMax : OnGrid pointsCacheGrid latMax :=
  ⟨1800, by norm_num [pointsCacheGrid, latMax]⟩

theorem onGrid_lngMin : OnGrid pointsCacheGrid lngMin :=
  ⟨-3600, by norm_num [pointsCacheGrid, lngMin]⟩

theorem onGrid_lngMax : OnGrid pointsCacheGrid lngMax :=
  ⟨3600, by norm_num [pointsCacheGrid, lngMax]⟩

/-- What the server parses from the parameter of a normalized box. -/
def sentBox (box : MapBounds Rat) : MapBounds Rat where
  south := floorTo (1 / bboxScale) box.south
  west := floorTo (1 / bboxScale) box.west
  north := ceilTo (1 / bboxScale) box.north
  east := ceilTo (1 / bboxScale) box.east

section Sent

variable {box : MapBounds Rat} (normal : Normalized box)

include normal

theorem toBboxParam_of_normalized :
    toBboxParam box.numbers =
      numberText (sentBox box).south ++ chr ',' :: (numberText (sentBox box).west ++
        chr ',' :: (numberText (sentBox box).north ++ chr ',' ::
          numberText (sentBox box).east)) := by
  have south := sent_lower onGrid_latMin normal.latMin_le
    (normal.south_le.trans normal.le_latMax)
  have north := sent_upper onGrid_latMax (normal.latMin_le.trans normal.south_le)
    normal.le_latMax
  have west := sent_lower onGrid_lngMin normal.lngMin_le (normal.west_le.trans normal.le_lngMax)
  have east := sent_upper onGrid_lngMax (normal.lngMin_le.trans normal.west_le) normal.le_lngMax
  have joined : ∀ first second third last : Str,
      join (str ",") [first, second, third, last] =
        first ++ chr ',' :: (second ++ chr ',' :: (third ++ chr ',' :: last)) := by
    intro first second third last
    simp [join, List.intercalate, List.intersperse, str, chr]
  unfold toBboxParam
  rw [normal.normalizeBounds]
  simp only
  rw [joined, show clamp (down box.south) latMin latMax = (sentBox box).south from south,
    show clamp (up box.north) latMin latMax = (sentBox box).north from north,
    show clamp (down box.west) lngMin lngMax = (sentBox box).west from west,
    show clamp (up box.east) lngMin lngMax = (sentBox box).east from east]

/-- The sent box is in the world, and its edges are in order. -/
theorem checkBbox_sentBox :
    checkBbox (.finite (sentBox box).south) (.finite (sentBox box).west)
      (.finite (sentBox box).north) (.finite (sentBox box).east) = .ok (sentBox box) := by
  have southLe := floorTo_le scale_pos box.south
  have northLe := le_ceilTo scale_pos box.north
  have westLe := floorTo_le scale_pos box.west
  have eastLe := le_ceilTo scale_pos box.east
  have southLow := (onGrid_latMin.refine grid_onScale).le_floorTo scale_pos normal.latMin_le
  have northHigh := (onGrid_latMax.refine grid_onScale).ceilTo_le scale_pos normal.le_latMax
  have westLow := (onGrid_lngMin.refine grid_onScale).le_floorTo scale_pos normal.lngMin_le
  have eastHigh := (onGrid_lngMax.refine grid_onScale).ceilTo_le scale_pos normal.le_lngMax
  have southNorth : (sentBox box).south ≤ (sentBox box).north :=
    (southLe.trans normal.south_le).trans northLe
  have westEast : (sentBox box).west ≤ (sentBox box).east :=
    (westLe.trans normal.west_le).trans eastLe
  have south : inRange? (-90) 90 (.finite (sentBox box).south) = some (sentBox box).south :=
    if_pos ⟨southLow, southNorth.trans northHigh⟩
  have north : inRange? (-90) 90 (.finite (sentBox box).north) = some (sentBox box).north :=
    if_pos ⟨southLow.trans southNorth, northHigh⟩
  have west : inRange? (-180) 180 (.finite (sentBox box).west) = some (sentBox box).west :=
    if_pos ⟨westLow, westEast.trans eastHigh⟩
  have east : inRange? (-180) 180 (.finite (sentBox box).east) = some (sentBox box).east :=
    if_pos ⟨westLow.trans westEast, eastHigh⟩
  unfold checkBbox
  rw [south, north, west, east]
  simp only
  rw [if_neg (not_lt.mpr southNorth), if_neg (not_lt.mpr westEast)]

/-- The server reads the box that was sent. -/
theorem parseBbox_toBboxParam : parseBbox (toBboxParam box.numbers) = .ok (sentBox box) := by
  have south := float_numberText_of_onGrid (onGrid_floorTo (1 / bboxScale) box.south)
  have west := float_numberText_of_onGrid (onGrid_floorTo (1 / bboxScale) box.west)
  have north := float_numberText_of_onGrid (onGrid_ceilTo (1 / bboxScale) box.north)
  have east := float_numberText_of_onGrid (onGrid_ceilTo (1 / bboxScale) box.east)
  unfold parseBbox
  rw [toBboxParam_of_normalized normal, split_append (comma_notMem_numberText _),
    split_append (comma_notMem_numberText _), split_append (comma_notMem_numberText _),
    split_of_notMem (comma_notMem_numberText _)]
  simp only
  rw [show float (numberText (sentBox box).south) = _ from south,
    show float (numberText (sentBox box).west) = _ from west,
    show float (numberText (sentBox box).north) = _ from north,
    show float (numberText (sentBox box).east) = _ from east]
  exact checkBbox_sentBox normal

/-- The box of the lookup: each edge on the grid line at or beyond it. -/
theorem snapBbox_sentBox :
    snapBbox (sentBox box) =
      { south := floorTo pointsCacheGrid box.south
        west := floorTo pointsCacheGrid box.west
        north := ceilTo pointsCacheGrid box.north
        east := ceilTo pointsCacheGrid box.east } := by
  have south := snapped_lower onGrid_latMin normal.latMin_le
  have west := snapped_lower onGrid_lngMin normal.lngMin_le
  have north := snapped_upper onGrid_latMax normal.le_latMax
  have east := snapped_upper onGrid_lngMax normal.le_lngMax
  rw [MapBounds.mk.injEq]
  exact ⟨south, west, north, east⟩

end Sent

/-! ### What the screen shows is in the normalized box -/

theorem normalizeLatitudes_of_showsLat {south north : Number} {lat : Rat}
    (shown : ShowsLat south north lat) (low : -90 ≤ lat) (high : lat ≤ 90) :
    (normalizeLatitudes south north).1 ≤ lat ∧ lat ≤ (normalizeLatitudes south north).2 := by
  rcases south with south | _ | _ <;> rcases north with north | _ | _
  case finite.finite =>
    exact ⟨(min_le_left _ _).trans (max_le shown.1 low),
      le_min (shown.2.trans (le_max_left _ _)) high⟩
  all_goals exact ⟨low, high⟩

/-- The turn taken off the edges is taken off the point as well. -/
theorem normalizeLongitudes_of_showsLng {west east : Number} {lng : Rat}
    (shown : ShowsLng west east lng) (low : -180 ≤ lng) (high : lng ≤ 180) :
    ∃ turns : Int, (normalizeLongitudes west east).1 ≤ lng + 360 * turns ∧
      lng + 360 * turns ≤ (normalizeLongitudes west east).2 := by
  have world : ∃ turns : Int, lngMin ≤ lng + 360 * turns ∧ lng + 360 * turns ≤ lngMax :=
    ⟨0, by simpa [lngMin] using low, by simpa [lngMax] using high⟩
  rcases west with west | _ | _ <;> rcases east with east | _ | _
  case finite.finite =>
    simp only [normalizeLongitudes]
    split
    next => exact world
    next ordered =>
      split
      next => exact world
      next =>
        rcases shown with swapped | ⟨turns, afterWest, beforeEast⟩
        · exact absurd (.inl swapped) ordered
        · refine ⟨turns - mathRound ((west + east) / 2 / 360), ?_, ?_⟩ <;>
            (push_cast; linarith)
  all_goals exact world

/-- No whole turn but none keeps a longitude off the antimeridian in the world. -/
theorem no_turn {lng : Rat} {turns : Int} (low : -180 < lng) (high : lng < 180)
    (turnedLow : -180 ≤ lng + 360 * turns) (turnedHigh : lng + 360 * turns ≤ 180) :
    turns = 0 := by
  have above : (-1 : Rat) < turns := by linarith
  have below : (turns : Rat) < 1 := by linarith
  have above' : -1 < turns := by exact_mod_cast above
  have below' : turns < 1 := by exact_mod_cast below
  omega

/-! ### What the box leaves out -/

section LeavesOut

variable {box : MapBounds Rat} {point : Point} (normal : Normalized box)

include normal

/-- A point on the antimeridian is on an edge of every normalized box that shows it. -/
theorem onGridEdge_of_antimeridian (antimeridian : point.lng = -180 ∨ point.lng = 180)
    (shown : ∃ turns : Int, box.west ≤ point.lng + 360 * turns ∧
      point.lng + 360 * turns ≤ box.east) :
    OnGridEdge box point := by
  rcases shown with ⟨turns, afterWest, beforeEast⟩
  have low := normal.lngMin_le
  have high := normal.le_lngMax
  refine .inr ⟨?_, turns, ?_⟩
  · rcases antimeridian with isLow | isHigh
    · rw [isLow]
      exact onGrid_lngMin
    · rw [isHigh]
      exact onGrid_lngMax
  · -- modulo whole turns the point is at `-180` or at `180`, where the box ends
    have ends : point.lng + 360 * turns = -180 ∨ point.lng + 360 * turns = 180 := by
      have lower : (-180 : Rat) ≤ point.lng + 360 * turns := low.trans afterWest
      have upper : point.lng + 360 * turns ≤ 180 := beforeEast.trans high
      rcases antimeridian with isLow | isHigh
      · rw [isLow] at lower upper ⊢
        have first : (0 : Rat) ≤ turns := by linarith
        have last : (turns : Rat) ≤ 1 := by linarith
        have first' : 0 ≤ turns := by exact_mod_cast first
        have last' : turns ≤ 1 := by exact_mod_cast last
        obtain rfl | rfl : turns = 0 ∨ turns = 1 := by omega
        · left
          norm_num
        · right
          norm_num
      · rw [isHigh] at lower upper ⊢
        have first : (-1 : Rat) ≤ turns := by linarith
        have last : (turns : Rat) ≤ 0 := by linarith
        have first' : -1 ≤ turns := by exact_mod_cast first
        have last' : turns ≤ 0 := by exact_mod_cast last
        obtain rfl | rfl : turns = -1 ∨ turns = 0 := by omega
        · left
          norm_num
        · right
          norm_num
    rcases ends with atLow | atHigh
    · left
      exact le_antisymm (atLow.trans_le low) afterWest
    · right
      exact le_antisymm beforeEast (high.trans_eq atHigh.symm)

/-- The box looked up holds every point of the normalized box but those on its
edges that are lines of the grid. -/
theorem stWithin_iff (inWorld : InWorld point)
    (shownLat : box.south ≤ point.lat ∧ point.lat ≤ box.north)
    (shownLng : ∃ turns : Int, box.west ≤ point.lng + 360 * turns ∧
      point.lng + 360 * turns ≤ box.east) :
    (floorTo pointsCacheGrid box.west < point.lng ∧ point.lng < ceilTo pointsCacheGrid box.east ∧
      floorTo pointsCacheGrid box.south < point.lat ∧
      point.lat < ceilTo pointsCacheGrid box.north) ↔ ¬ OnGridEdge box point := by
  by_cases antimeridian : point.lng = -180 ∨ point.lng = 180
  · have edge := onGridEdge_of_antimeridian normal antimeridian shownLng
    have west := onGrid_lngMin.le_floorTo grid_pos normal.lngMin_le
    have east := onGrid_lngMax.ceilTo_le grid_pos normal.le_lngMax
    constructor
    · rintro ⟨afterWest, beforeEast, -⟩
      rcases antimeridian with isLow | isHigh
      · exact absurd (west.trans_lt afterWest) (by rw [isLow]; exact lt_irrefl _)
      · exact absurd (beforeEast.trans_le east) (by rw [isHigh]; exact lt_irrefl _)
    · intro off
      exact absurd edge off
  · rw [not_or] at antimeridian
    have low : -180 < point.lng := lt_of_le_of_ne inWorld.2.1 (Ne.symm antimeridian.1)
    have high : point.lng < 180 := lt_of_le_of_ne inWorld.2.2 antimeridian.2
    have zero : ∀ turns : Int, box.west ≤ point.lng + 360 * turns →
        point.lng + 360 * turns ≤ box.east → turns = 0 := fun turns afterWest beforeEast =>
      no_turn low high (normal.lngMin_le.trans afterWest) (beforeEast.trans normal.le_lngMax)
    rcases shownLng with ⟨turns, afterWest, beforeEast⟩
    obtain rfl := zero turns afterWest beforeEast
    simp only [Int.cast_zero, mul_zero, add_zero] at afterWest beforeEast
    rw [floorTo_lt_iff grid_pos afterWest, lt_ceilTo_iff grid_pos beforeEast,
      floorTo_lt_iff grid_pos shownLat.1, lt_ceilTo_iff grid_pos shownLat.2]
    have edge : (∃ turns : Int, point.lng + 360 * turns = box.west ∨
        point.lng + 360 * turns = box.east) ↔ point.lng = box.west ∨ point.lng = box.east := by
      constructor
      · rintro ⟨turns, isEdge⟩
        have kept : turns = 0 := by
          rcases isEdge with isWest | isEast
          · exact zero turns isWest.ge (isWest.trans_le normal.west_le)
          · exact zero turns (normal.west_le.trans_eq isEast.symm) isEast.le
        simpa [kept] using isEdge
      · intro isEdge
        exact ⟨0, by simpa using isEdge⟩
    unfold OnGridEdge
    rw [edge, and_or_left, and_or_left, not_or, not_or, not_or]
    constructor
    · rintro ⟨west, east, south, north⟩
      exact ⟨⟨south, north⟩, west, east⟩
    · rintro ⟨⟨south, north⟩, west, east⟩
      exact ⟨west, east, south, north⟩

end LeavesOut

/-! ### The fetch -/

/-- The box fetched for a viewport, at an event of a screen that asks for no more. -/
theorem bboxPredicate_iff {viewport screen : MapBounds Number}
    (fetched : FetchedFor viewport screen) {geo : Event} {point : Point} (coords : geo.coords = some point) (inWorld : InWorld point)
    (shown : InViewport screen point) :
    bboxPredicate (snapBbox (sentBox (padBounds viewport))) geo = true ↔
      ¬ OnGridEdge (padBounds viewport) point := by
  have normal := normalized_padBounds viewport
  have contained : boundsContain (padBounds viewport) screen = true := by
    rcases fetched with rfl | contained
    · exact boundsContain_padBounds screen
    · exact contained
  rw [boundsContain_iff] at contained
  have lat := normalizeLatitudes_of_showsLat shown.1 inWorld.1.1 inWorld.1.2
  rcases normalizeLongitudes_of_showsLng shown.2 inWorld.2.1 inWorld.2.2 with
    ⟨turns, afterWest, beforeEast⟩
  have inside := stWithin_iff normal inWorld
    ⟨contained.1.trans lat.1, lat.2.trans contained.2.1⟩
    ⟨turns, contained.2.2.1.trans afterWest, beforeEast.trans contained.2.2.2⟩
  rw [← inside, snapBbox_sentBox normal]
  unfold bboxPredicate
  rw [coords]
  simp [stWithin, and_assoc]

/-- What the map asks for is accepted, and an event of the screen is in the
answer exactly when it is on no edge of the padded viewport that is a line of
the server's grid. -/
theorem fetchCovers_iff (viewport : MapBounds Number) :
    ∃ bounds, parseBbox (toBboxParam (padBounds viewport).numbers) = .ok bounds ∧
      ∀ screen, FetchedFor viewport screen → ∀ (geo : Event) (point : Point),
        geo.coords = some point → InWorld point → InViewport screen point →
          (bboxPredicate (snapBbox bounds) geo = true ↔
            ¬ OnGridEdge (padBounds viewport) point) :=
  ⟨_, parseBbox_toBboxParam (normalized_padBounds viewport),
    fun _ fetched _ _ coords inWorld shown => bboxPredicate_iff fetched coords inWorld shown⟩

/-- Every visible event of the screen is in the answer. -/
def FetchCovers : Prop :=
  ∀ viewport, ∃ bounds, parseBbox (toBboxParam (padBounds viewport).numbers) = .ok bounds ∧
    ∀ screen, FetchedFor viewport screen → ∀ (geo : Event) (point : Point),
      geo.IsVisible → geo.coords = some point → InWorld point → InViewport screen point →
        bboxPredicate (snapBbox bounds) geo = true

/-! ### An event on the antimeridian, and the map of the whole world -/

namespace Antimeridian

def worldBounds : MapBounds Number where
  south := .finite latMin
  west := .finite lngMin
  north := .finite latMax
  east := .finite lngMax

def onAntimeridian : Point := ⟨0, 180⟩

def geo : Event where
  id := 1
  ownerId := 2
  requestedById := none
  title := []
  coords := some onAntimeridian
  proof := []
  occurredDate := none
  occurredTime := none
  requestedAt := none
  detectedAt := none
  geolocatedAt := some 0
  status := .geolocated
  createdAt := 0
  closedAt := none
  closeReason := none
  beforeClosedStatus := none
  deletedAt := none
  hiddenAt := none
  versionNo := 1
  media := []
  sources := []
  tags := []
  conflicts := []
  geolocators := []
  detection := none
  versions := []
  approvals := []
  approvalRequests := []
  collectionItems := []

theorem inWorld : InWorld onAntimeridian := by
  norm_num [InWorld, onAntimeridian]

theorem shown : InViewport worldBounds onAntimeridian := by
  refine ⟨?_, .inr ⟨0, ?_⟩⟩ <;>
    norm_num [ShowsLat, worldBounds, onAntimeridian, latMin, latMax, lngMin, lngMax]

/-- The box of the world ends at `180`, and the event is on its edge. -/
theorem onGridEdge : OnGridEdge (padBounds worldBounds) onAntimeridian :=
  onGridEdge_of_antimeridian (normalized_padBounds worldBounds) (.inr rfl) <| by
    have contained := boundsContain_iff.mp (boundsContain_padBounds worldBounds)
    rcases normalizeLongitudes_of_showsLng shown.2 inWorld.2.1 inWorld.2.2 with
      ⟨turns, afterWest, beforeEast⟩
    exact ⟨turns, contained.2.2.1.trans afterWest, beforeEast.trans contained.2.2.2⟩

theorem fetchCovers_fails : ¬ FetchCovers := by
  intro covers
  rcases covers worldBounds with ⟨bounds, parsed, covered⟩
  rw [parseBbox_toBboxParam (normalized_padBounds worldBounds)] at parsed
  cases parsed
  have inside := covered worldBounds (.inl rfl) geo onAntimeridian (by decide) rfl inWorld shown
  exact (bboxPredicate_iff (.inl rfl) rfl inWorld shown).mp inside onGridEdge

end Antimeridian

end Vidit.Points
