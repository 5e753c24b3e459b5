import Vidit.Library.Buckets
import Vidit.Library.Forest
import Vidit.Points.Viewport

/-!
Contract: the stacks of co-located points on the map.

Coordinates are exact rationals.

Owns:
- `groupStacks`, with the grid it buckets the points on and the union-find over its cells;
- the features the map is given for the points, and the filters that show them;
- `DrawsComponents`: one mark for every component of the points that lie within `stackEpsilon`
  of one another.

Does not own: clusters, which the map library forms, and the ring a stack is fanned into.

Proof shape: two points of a cell are near, and two near points share a cell or lie in
neighbouring ones. So the joined cells are those that near points connect.
-/

namespace Vidit.Points

open Vidit.Python Vidit.Library

/-- `STACK_EPSILON`, in degrees. -/
def stackEpsilon : Rat := 1 / 100000

/-- A point of the map, as `mapPointFields` reads it. -/
structure MapPoint where
  id : Str
  lat : Rat
  lng : Rat
  detected : Bool
deriving DecidableEq, Repr

/-! ### The grid -/

/-- A cell of the grid: `latCell` and `lngCell`. -/
abbrev Cell := Int × Int

/-- `stackCellKey`. -/
def stackCellKey (lat lng : Rat) : Cell :=
  (mathRound (lat / stackEpsilon), mathRound (lng / stackEpsilon))

section Grouping

variable {T : Type} (coord : T → Rat × Rat)

def cellOf (item : T) : Cell :=
  stackCellKey (coord item).1 (coord item).2

/-- The cells, in the order their first items come. -/
def cellsOf (items : List T) : List (Cell × List T) :=
  gather (cellOf coord) (fun item => [item]) items

/-- `near`: two of the items are within the epsilon on both axes. -/
def within (first second : T) : Prop :=
  |(coord first).1 - (coord second).1| ≤ stackEpsilon ∧
    |(coord first).2 - (coord second).2| ≤ stackEpsilon

instance (first second : T) : Decidable (within coord first second) :=
  inferInstanceAs (Decidable (_ ∧ _))

def nearItems (first second : List T) : Bool :=
  first.any fun one => second.any fun other => within coord one other

/-- `forward`: half of the neighbourhood, the other half being the same pairs. -/
def forward : List (Int × Int) :=
  [(0, 1), (1, -1), (1, 0), (1, 1)]

/-- One cell's neighbours joined to it. -/
def joinNeighbours (cells : List (Cell × List T)) (forest : Forest Cell)
    (cell : Cell × List T) : Forest Cell :=
  forward.foldl (fun forest offset =>
    let neighbourKey := (cell.1.1 + offset.1, cell.1.2 + offset.2)
    match cells.find? fun other => other.1 = neighbourKey with
    | none => forest
    | some neighbour =>
      if nearItems coord cell.2 neighbour.2 then forest.join cell.1 neighbourKey else forest)
    forest

def joinedCells (cells : List (Cell × List T)) : Forest Cell :=
  cells.foldl (joinNeighbours coord cells) Forest.apart

/-- `groupStacks`. Its last loop shortens paths too, which moves no root. -/
def groupStacks (items : List T) : List (List T) :=
  let cells := cellsOf coord items
  (gather (fun cell => (joinedCells coord cells).find cell.1) Prod.snd cells).map Prod.snd

end Grouping

/-! ### The features -/

/-- What a badge carries of a point of its stack. -/
structure StackMember where
  id : Str
  detected : Bool
deriving DecidableEq, Repr

/-- A point feature of the map's source. `members` is set on the first point of a stack. -/
structure PointFeature where
  id : Str
  selected : Bool
  dimmed : Bool
  detected : Bool
  stackCount : Nat
  members : Option (List StackMember)
  stackSelected : Bool
  lat : Rat
  lng : Rat
deriving DecidableEq, Repr

/-- The feature of one point of a stack; the first of several carries the badge. -/
def stackFeature (selectedId : Option Str) (dimmedIds : List Str) (stack : List MapPoint)
    (point : MapPoint) (index : Nat) : PointFeature :=
  let members := stack.map fun point => StackMember.mk point.id point.detected
  let anySelected := stack.any fun point => some point.id = selectedId
  let badge := 1 < stack.length ∧ index = 0
  { id := point.id
    selected := some point.id = selectedId
    dimmed := point.id ∈ dimmedIds
    detected := point.detected
    stackCount := stack.length
    members := if badge then some members else none
    stackSelected := badge && anySelected
    lat := point.lat
    lng := point.lng }

def stackFeatures (selectedId : Option Str) (dimmedIds : List Str) (stack : List MapPoint) :
    List PointFeature :=
  stack.zipIdx.map fun entry => stackFeature selectedId dimmedIds stack entry.1 entry.2

def pointFeatures (selectedId : Option Str) (dimmedIds : List Str) (points : List MapPoint) :
    List PointFeature :=
  (groupStacks (fun point => (point.lat, point.lng)) points).flatMap
    (stackFeatures selectedId dimmedIds)

/-- `pointFilter`, for either flag, on an unclustered point. -/
def shownAsPin (feature : PointFeature) : Bool :=
  feature.stackCount = 1

/-- `stackFilter`, on an unclustered point. -/
def shownAsBadge (feature : PointFeature) : Bool :=
  feature.members.isSome

def shown (feature : PointFeature) : Bool :=
  shownAsPin feature || shownAsBadge feature

/-! ### Components -/

section Components

variable {T : Type} (coord : T → Rat × Rat) (items : List T)

/-- A walk between the items, each step of it within the epsilon. -/
def Joined : T → T → Prop :=
  Relation.EqvGen fun first second => first ∈ items ∧ second ∈ items ∧ within coord first second

/-- The groups are the components of the items. -/
structure GroupsComponents : Prop where
  whole : (groupStacks coord items).flatten.Perm items
  inhabited : ∀ group ∈ groupStacks coord items, group ≠ []
  joined : ∀ group ∈ groupStacks coord items, ∀ first ∈ group, ∀ second ∈ group,
    Joined coord items first second
  apart : (groupStacks coord items).Pairwise fun one other =>
    ∀ first ∈ one, ∀ second ∈ other, ¬ Joined coord items first second

variable {coord items}

/-- Two numbers within the epsilon round to the same index or to neighbouring ones. -/
theorem mathRound_le_of_near {first second : Rat} (near : |first - second| ≤ stackEpsilon) :
    mathRound (first / stackEpsilon) ≤ mathRound (second / stackEpsilon) + 1 := by
  have positive : (0 : Rat) < stackEpsilon := by unfold stackEpsilon; norm_num
  have above : first / stackEpsilon ≤ second / stackEpsilon + 1 := by
    rw [div_add_one positive.ne', div_le_div_iff_of_pos_right positive]
    have := (abs_le.mp near).2
    linarith
  unfold mathRound
  rw [← Int.floor_add_one]
  apply Int.floor_le_floor
  linarith

theorem near_of_mathRound {first second : Rat}
    (same : mathRound (first / stackEpsilon) = mathRound (second / stackEpsilon)) :
    |first - second| ≤ stackEpsilon := by
  have positive : (0 : Rat) < stackEpsilon := by unfold stackEpsilon; norm_num
  have close := Int.abs_sub_lt_one_of_floor_eq_floor same
  have scaled : first / stackEpsilon + 1 / 2 - (second / stackEpsilon + 1 / 2) =
      (first - second) / stackEpsilon := by ring
  rw [scaled, abs_div, abs_of_pos positive, div_lt_one positive] at close
  exact close.le

theorem within_symm {first second : T} (near : within coord first second) :
    within coord second first := by
  unfold within at near ⊢
  rw [abs_sub_comm, abs_sub_comm (coord second).2]
  exact near

/-- Two items of one cell are near. -/
theorem within_of_cellOf_eq {first second : T} (same : cellOf coord first = cellOf coord second) :
    within coord first second := by
  unfold cellOf stackCellKey at same
  rw [Prod.mk.injEq] at same
  exact ⟨near_of_mathRound same.1, near_of_mathRound same.2⟩

/-- The cells of two near items are the same, or one is a forward neighbour of the other. -/
theorem neighbour_of_within {first second : T} (near : within coord first second) :
    cellOf coord first = cellOf coord second ∨
      (∃ offset ∈ forward, cellOf coord second =
        ((cellOf coord first).1 + offset.1, (cellOf coord first).2 + offset.2)) ∨
      ∃ offset ∈ forward, cellOf coord first =
        ((cellOf coord second).1 + offset.1, (cellOf coord second).2 + offset.2) := by
  have back := within_symm near
  have latUp := mathRound_le_of_near near.1
  have lngUp := mathRound_le_of_near near.2
  have latDown := mathRound_le_of_near back.1
  have lngDown := mathRound_le_of_near back.2
  simp only [cellOf, stackCellKey, forward, List.mem_cons, List.not_mem_nil, or_false,
    exists_eq_or_imp, exists_eq_left, Prod.mk.injEq]
  omega

/-! ### The joined cells -/

theorem mem_cellsOf {own : Cell} {held : List T} :
    (own, held) ∈ cellsOf coord items ↔
      (∃ item ∈ items, cellOf coord item = own) ∧
        held = items.filter fun item => cellOf coord item = own := by
  unfold cellsOf
  rw [mem_gather_iff, List.flatMap_singleton']

/-- The cell a key finds. -/
theorem find_cellsOf {key : Cell} {cell : Cell × List T} :
    ((cellsOf coord items).find? fun other => other.1 = key) = some cell ↔
      cell ∈ cellsOf coord items ∧ cell.1 = key := by
  constructor
  · intro found
    refine ⟨List.mem_of_find?_eq_some found, ?_⟩
    simpa using List.find?_some found
  · intro held
    obtain ⟨other, found⟩ : ∃ other,
        ((cellsOf coord items).find? fun other => other.1 = key) = some other := by
      apply Option.isSome_iff_exists.mp
      rw [List.find?_isSome]
      exact ⟨cell, held.1, decide_eq_true held.2⟩
    have member := List.mem_of_find?_eq_some found
    have same : other.1 = key := by simpa using List.find?_some found
    have content := (mem_cellsOf.mp member).2
    have content' := (mem_cellsOf.mp held.1).2
    rw [found]
    congr 1
    apply Prod.ext
    · rw [same, held.2]
    · rw [content, content', same, held.2]

variable (coord) in
/-- The pairs of cells that are joined, in their order. -/
def joinedPairs (cells : List (Cell × List T)) : List (Cell × Cell) :=
  cells.flatMap fun cell => forward.filterMap fun offset =>
    let neighbourKey := (cell.1.1 + offset.1, cell.1.2 + offset.2)
    match cells.find? fun other => other.1 = neighbourKey with
    | none => none
    | some neighbour =>
      if nearItems coord cell.2 neighbour.2 then some (cell.1, neighbourKey) else none

theorem joinedCells_eq (cells : List (Cell × List T)) :
    joinedCells coord cells =
      (joinedPairs coord cells).foldl (fun forest pair => forest.join pair.1 pair.2)
        Forest.apart := by
  unfold joinedCells joinedPairs
  rw [List.foldl_flatMap]
  congr 1
  funext forest cell
  rw [List.foldl_filterMap]
  unfold joinNeighbours
  congr 1
  funext forest offset
  dsimp only
  split
  · rfl
  · split
    · rfl
    · rfl

theorem nearItems_iff {first second : List T} :
    nearItems coord first second = true ↔
      ∃ one ∈ first, ∃ other ∈ second, within coord one other := by
  simp [nearItems]

/-- Two cells are joined when one is a forward neighbour of the other and near items lie in
them. -/
theorem mem_joinedPairs {first second : Cell} :
    (first, second) ∈ joinedPairs coord (cellsOf coord items) ↔
      (∃ offset ∈ forward, second = (first.1 + offset.1, first.2 + offset.2)) ∧
        ∃ one ∈ items, ∃ other ∈ items, cellOf coord one = first ∧ cellOf coord other = second ∧
          within coord one other := by
  unfold joinedPairs
  rw [List.mem_flatMap]
  constructor
  · intro member
    obtain ⟨cell, listed, inCell⟩ := member
    obtain ⟨offset, ahead, built⟩ := List.mem_filterMap.mp inCell
    dsimp only at built
    split at built
    · contradiction
    · rename_i neighbour found
      split at built
      · rename_i near
        simp only [Option.some.injEq, Prod.mk.injEq] at built
        obtain ⟨firstKey, secondKey⟩ := built
        obtain ⟨neighbourListed, neighbourKey⟩ := find_cellsOf.mp found
        obtain ⟨one, inFirst, other, inSecond, close⟩ := nearItems_iff.mp near
        rw [(mem_cellsOf.mp listed).2] at inFirst
        rw [(mem_cellsOf.mp neighbourListed).2] at inSecond
        obtain ⟨oneListed, oneCell⟩ := List.mem_filter.mp inFirst
        obtain ⟨otherListed, otherCell⟩ := List.mem_filter.mp inSecond
        refine ⟨⟨offset, ahead, ?_⟩, one, oneListed, other, otherListed, ?_, ?_, close⟩
        · rw [← secondKey, ← firstKey]
        · rw [← firstKey]
          exact of_decide_eq_true oneCell
        · rw [← secondKey, ← neighbourKey]
          exact of_decide_eq_true otherCell
      · contradiction
  · intro joined
    obtain ⟨⟨offset, ahead, secondKey⟩, one, oneListed, other, otherListed, oneCell, otherCell,
      close⟩ := joined
    have firstCell : (first, items.filter fun item => cellOf coord item = first) ∈
        cellsOf coord items :=
      mem_cellsOf.mpr ⟨⟨one, oneListed, oneCell⟩, rfl⟩
    have secondCell : (second, items.filter fun item => cellOf coord item = second) ∈
        cellsOf coord items :=
      mem_cellsOf.mpr ⟨⟨other, otherListed, otherCell⟩, rfl⟩
    refine ⟨_, firstCell, List.mem_filterMap.mpr ⟨offset, ahead, ?_⟩⟩
    have found := find_cellsOf.mpr ⟨secondCell, secondKey⟩
    have near : nearItems coord (items.filter fun item => cellOf coord item = first)
        (items.filter fun item => cellOf coord item = second) = true := by
      rw [nearItems_iff]
      refine ⟨one, ?_, other, ?_, close⟩
      · exact List.mem_filter.mpr ⟨oneListed, decide_eq_true oneCell⟩
      · exact List.mem_filter.mpr ⟨otherListed, decide_eq_true otherCell⟩
    dsimp only
    rw [found]
    dsimp only
    rw [if_pos near, secondKey]

/-! ### The groups -/

variable (coord items) in
/-- The root of an item's cell. -/
def rootOf (item : T) : Cell :=
  (joinedCells coord (cellsOf coord items)).find (cellOf coord item)

/-- The joined cells connect only cells whose items are joined. -/
theorem joined_of_cells {first second : Cell}
    (linked : Relation.EqvGen (fun one other => (one, other) ∈
      joinedPairs coord (cellsOf coord items)) first second) :
    ((∃ one ∈ items, cellOf coord one = first) ↔ ∃ other ∈ items, cellOf coord other = second) ∧
      ∀ one ∈ items, ∀ other ∈ items, cellOf coord one = first → cellOf coord other = second →
        Joined coord items one other := by
  have together : ∀ {one other}, one ∈ items → other ∈ items →
      cellOf coord one = cellOf coord other → Joined coord items one other := by
    intro one other oneListed otherListed same
    exact .rel _ _ ⟨oneListed, otherListed, within_of_cellOf_eq same⟩
  induction linked with
  | rel first second pair =>
      obtain ⟨-, left, leftListed, right, rightListed, leftCell, rightCell, close⟩ :=
        mem_joinedPairs.mp pair
      constructor
      · exact iff_of_true ⟨left, leftListed, leftCell⟩ ⟨right, rightListed, rightCell⟩
      · intro one oneListed other otherListed oneCell otherCell
        have start := together oneListed leftListed (oneCell.trans leftCell.symm)
        have finish := together rightListed otherListed (rightCell.trans otherCell.symm)
        have step : Joined coord items left right := .rel _ _ ⟨leftListed, rightListed, close⟩
        exact .trans _ _ _ start (.trans _ _ _ step finish)
  | refl cell =>
      refine ⟨Iff.rfl, ?_⟩
      intro one oneListed other otherListed oneCell otherCell
      exact together oneListed otherListed (oneCell.trans otherCell.symm)
  | symm first second _ inductionHypothesis =>
      refine ⟨inductionHypothesis.1.symm, ?_⟩
      intro one oneListed other otherListed oneCell otherCell
      exact .symm _ _ (inductionHypothesis.2 other otherListed one oneListed otherCell oneCell)
  | trans first middle second _ _ earlier later =>
      refine ⟨earlier.1.trans later.1, ?_⟩
      intro one oneListed other otherListed oneCell otherCell
      obtain ⟨between, betweenListed, betweenCell⟩ := earlier.1.mp ⟨one, oneListed, oneCell⟩
      exact .trans _ _ _ (earlier.2 one oneListed between betweenListed oneCell betweenCell)
        (later.2 between betweenListed other otherListed betweenCell otherCell)

/-- Two items lie under one root exactly when near items join them. -/
theorem rootOf_eq_iff {first second : T} (firstListed : first ∈ items)
    (secondListed : second ∈ items) :
    rootOf coord items first = rootOf coord items second ↔ Joined coord items first second := by
  have tells := Forest.tells_joins (joinedPairs coord (cellsOf coord items))
  rw [← joinedCells_eq] at tells
  constructor
  · intro same
    exact (joined_of_cells ((tells _ _).mp same)).2 first firstListed second secondListed rfl rfl
  · intro joined
    clear firstListed secondListed
    induction joined with
    | rel first second step =>
        obtain ⟨firstListed, secondListed, close⟩ := step
        unfold rootOf
        rcases neighbour_of_within close with same | ahead | behind
        · rw [same]
        · exact (tells _ _).mpr (.rel _ _ (mem_joinedPairs.mpr
            ⟨ahead, first, firstListed, second, secondListed, rfl, rfl, close⟩))
        · exact ((tells _ _).mpr (.rel _ _ (mem_joinedPairs.mpr
            ⟨behind, second, secondListed, first, firstListed, rfl, rfl, within_symm close⟩))).symm
    | refl _ => rfl
    | symm _ _ _ inductionHypothesis => exact inductionHypothesis.symm
    | trans _ _ _ _ _ earlier later => exact earlier.trans later

variable (coord items) in
/-- The groups under the roots of their cells. -/
def rootedGroups : List (Cell × List T) :=
  gather (fun cell => (joinedCells coord (cellsOf coord items)).find cell.1) Prod.snd
    (cellsOf coord items)

theorem groupStacks_eq : groupStacks coord items = (rootedGroups coord items).map Prod.snd :=
  rfl

/-- What is in a group lies under its root. -/
theorem rootOf_of_mem {root : Cell} {group : List T}
    (listed : (root, group) ∈ rootedGroups coord items) {item : T} (member : item ∈ group) :
    item ∈ items ∧ rootOf coord items item = root := by
  unfold rootedGroups at listed
  rw [(mem_gather_iff _ _ _).mp listed |>.2, List.mem_flatMap] at member
  obtain ⟨cell, inFilter, inCell⟩ := member
  obtain ⟨cellListed, cellRoot⟩ := List.mem_filter.mp inFilter
  rw [(mem_cellsOf.mp cellListed).2] at inCell
  obtain ⟨itemListed, itemCell⟩ := List.mem_filter.mp inCell
  refine ⟨itemListed, ?_⟩
  unfold rootOf
  rw [of_decide_eq_true itemCell]
  exact of_decide_eq_true cellRoot

theorem groupStacks_whole : (groupStacks coord items).flatten.Perm items := by
  have cells := perm_gather (cellOf coord) (fun item => [item]) items
  rw [List.flatMap_singleton'] at cells
  rw [groupStacks_eq, ← List.flatMap_def]
  exact (perm_gather _ _ _).trans cells

theorem groupStacks_inhabited {group : List T} (listed : group ∈ groupStacks coord items) :
    group ≠ [] := by
  rw [groupStacks_eq] at listed
  obtain ⟨⟨root, held⟩, inGroups, rfl⟩ := List.mem_map.mp listed
  obtain ⟨⟨cell, cellListed, cellRoot⟩, content⟩ := (mem_gather_iff _ _ _).mp inGroups
  obtain ⟨⟨item, itemListed, itemCell⟩, cellContent⟩ := mem_cellsOf.mp cellListed
  have inCell : item ∈ cell.2 := by
    rw [cellContent]
    exact List.mem_filter.mpr ⟨itemListed, decide_eq_true itemCell⟩
  apply List.ne_nil_of_mem (a := item)
  dsimp only
  rw [content]
  apply List.mem_flatMap.mpr
  exact ⟨cell, List.mem_filter.mpr ⟨cellListed, decide_eq_true cellRoot⟩, inCell⟩

variable (coord items) in
theorem groupsComponents : GroupsComponents coord items where
  whole := groupStacks_whole
  inhabited _ listed := groupStacks_inhabited listed
  joined group listed first inFirst second inSecond := by
    rw [groupStacks_eq] at listed
    obtain ⟨⟨root, held⟩, inGroups, rfl⟩ := List.mem_map.mp listed
    obtain ⟨firstListed, firstRoot⟩ := rootOf_of_mem inGroups inFirst
    obtain ⟨secondListed, secondRoot⟩ := rootOf_of_mem inGroups inSecond
    exact (rootOf_eq_iff firstListed secondListed).mp (firstRoot.trans secondRoot.symm)
  apart := by
    rw [groupStacks_eq, List.pairwise_map]
    have nodup : ((rootedGroups coord items).map Prod.fst).Nodup := nodup_keys_gather _ _ _
    have distinct := List.pairwise_map.mp nodup
    apply distinct.imp_of_mem
    intro one other inOne inOther different first inFirst second inSecond joined
    obtain ⟨firstListed, firstRoot⟩ := rootOf_of_mem inOne inFirst
    obtain ⟨secondListed, secondRoot⟩ := rootOf_of_mem inOther inSecond
    apply different
    rw [← firstRoot, ← secondRoot]
    exact (rootOf_eq_iff firstListed secondListed).mpr joined

end Components

/-! ### The marks -/

/-- The mark of a stack: its first point, under the number of its points, with a badge that lists
them when there are several. -/
def IsMarkOf (stack : List MapPoint) (mark : PointFeature) : Prop :=
  (∃ first rest, stack = first :: rest ∧ mark.id = first.id ∧ mark.lat = first.lat ∧
      mark.lng = first.lng) ∧
    mark.stackCount = stack.length ∧
    mark.members = if stack.length = 1 then none
      else some (stack.map fun point => ⟨point.id, point.detected⟩)

/-- What the map draws past the clustering ceiling. -/
structure DrawsComponents (selectedId : Option Str) (dimmedIds : List Str)
    (points : List MapPoint) : Prop where
  /-- The stacks are the components of the points. -/
  components : GroupsComponents (fun point => (point.lat, point.lng)) points
  /-- Every point keeps a feature, so a cluster counts them all. -/
  counted : ((pointFeatures selectedId dimmedIds points).map PointFeature.id).Perm
    (points.map MapPoint.id)
  /-- Each stack shows one mark. -/
  marked : List.Forall₂ IsMarkOf (groupStacks (fun point => (point.lat, point.lng)) points)
    ((pointFeatures selectedId dimmedIds points).filter shown)
  /-- A mark is a pin or a badge. -/
  exclusive : ∀ feature ∈ pointFeatures selectedId dimmedIds points,
    ¬ (shownAsPin feature = true ∧ shownAsBadge feature = true)

section Marks

variable (selectedId : Option Str) (dimmedIds : List Str)

theorem map_id_stackFeatures (stack : List MapPoint) :
    (stackFeatures selectedId dimmedIds stack).map PointFeature.id =
      stack.map MapPoint.id := by
  unfold stackFeatures
  rw [List.map_map]
  calc
    _ = (stack.zipIdx.map Prod.fst).map MapPoint.id := by
      rw [List.map_map]
      rfl
    _ = stack.map MapPoint.id := by rw [List.zipIdx_map_fst]

/-- Only the first feature of a stack passes a filter. -/
theorem shown_stackFeatures {stack : List MapPoint} (inhabited : stack ≠ []) :
    ∃ mark, (stackFeatures selectedId dimmedIds stack).filter shown = [mark] ∧
      IsMarkOf stack mark := by
  obtain ⟨first, rest, rfl⟩ := List.exists_cons_of_ne_nil inhabited
  refine ⟨stackFeature selectedId dimmedIds (first :: rest) first 0, ?_, ?_⟩
  · have hidden : ∀ entry ∈ rest.zipIdx 1,
        shown (stackFeature selectedId dimmedIds (first :: rest) entry.1 entry.2) = false := by
      intro entry member
      have later := List.le_snd_of_mem_zipIdx member
      have notFirst : entry.2 ≠ 0 := by omega
      have several : rest ≠ [] := by
        intro alone
        simp [alone] at member
      simp [shown, shownAsPin, shownAsBadge, stackFeature, notFirst, several]
    have visible : shown (stackFeature selectedId dimmedIds (first :: rest) first 0) = true := by
      simp only [shown, shownAsPin, shownAsBadge, stackFeature, List.length_cons]
      by_cases alone : rest.length = 0
      · simp [alone]
      · have several : 1 < rest.length + 1 := by omega
        simp [several]
    unfold stackFeatures
    rw [List.zipIdx_cons, List.map_cons, List.filter_cons_of_pos visible]
    congr 1
    apply List.filter_eq_nil_iff.mpr
    intro feature member
    obtain ⟨entry, listed, rfl⟩ := List.mem_map.mp member
    rw [hidden entry listed]
    exact Bool.false_ne_true
  · refine ⟨⟨first, rest, rfl, rfl, rfl, rfl⟩, rfl, ?_⟩
    simp only [stackFeature, List.length_cons]
    by_cases alone : rest.length = 0
    · simp [alone]
    · have several : 1 < rest.length + 1 := by omega
      simp [alone, several]

end Marks

end Vidit.Points
