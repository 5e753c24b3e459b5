import Vidit.Browser.Text

/-!
Contract: the URL of the search page, as its filters write it and read it back.

Owns:
- the parameters of a URL, as a list of pairs;
- the state of the filter panel, and the rules of its Show field;
- `eventFilterFields`, the filters under their wire names;
- `searchPageParams`, and its readers `readShowPick` and `readEventFilterParams`.

A text is a list of scalar values, as every option of the panel and every URL is.

Does not own: how parameters are encoded in a URL, the Following switch of the
feed, an account's avatar, and what a surface offers.
-/

namespace Vidit.SearchPage

open Vidit.Python Vidit.Browser

/-! ### Parameters -/

/-- `URLSearchParams`. -/
abbrev Params := List (Str × Str)

namespace Params

def append (params : Params) (name value : Str) : Params :=
  params ++ [(name, value)]

/-- The first pair of the name takes the value, and the others go. -/
def set : Params → Str → Str → Params
  | [], name, value => [(name, value)]
  | pair :: rest, name, value =>
    if pair.1 = name then (name, value) :: rest.filter fun other => other.1 ≠ name
    else pair :: set rest name value

def get (params : Params) (name : Str) : Option Str :=
  (params.find? fun pair => pair.1 = name).map Prod.snd

def getAll (params : Params) (name : Str) : List Str :=
  (params.filter fun pair => pair.1 = name).map Prod.snd

end Params

/-! ### The state of the panel -/

/-- `Account`. -/
inductive Account where
  | analyst (username : Str)
  | organization (slug name : Str)
deriving DecidableEq, Repr

/-- `FilterState`. -/
structure FilterState where
  showPick : List Str
  conflicts : List Str
  tags : List Str
  sourceKinds : List Str
  levels : List Str
  mediaTypes : List Str
  locationGuess : List Str
  author : Str
  approved : Bool
  approvedBy : Option Account
  eventFrom : Str
  eventTo : Str
  addedFrom : Str
  addedTo : Str
deriving DecidableEq, Repr

/-- `EMPTY_FILTERS`. -/
def emptyFilters : FilterState where
  showPick := []
  conflicts := []
  tags := []
  sourceKinds := []
  levels := []
  mediaTypes := []
  locationGuess := []
  author := []
  approved := false
  approvedBy := none
  eventFrom := []
  eventTo := []
  addedFrom := []
  addedTo := []

/-- `FILTER_STATUSES`. -/
def filterStatuses : List Str :=
  [str "requested", str "detected", str "geolocated"]

/-- `SHOW_KINDS`. -/
def showKinds : List Str :=
  [str "site", str "collection", str "user", str "organization"]

/-- `SHOW_BY_SURFACE.search`. -/
def showOnSearch : List Str :=
  filterStatuses ++ showKinds

def isStatus (value : Str) : Bool :=
  value ∈ filterStatuses

structure ShowSplit where
  statuses : List Str
  kinds : List Str

def splitShow (picked : List Str) : ShowSplit where
  statuses := picked.filter isStatus
  kinds := showKinds.filter fun kind => kind ∈ picked

structure ShowScope where
  events : Bool
  others : Bool

def showScope (picked : List Str) : ShowScope :=
  let split := splitShow picked
  let none := split.statuses.isEmpty && split.kinds.isEmpty
  { events := none || !split.statuses.isEmpty
    others := none || !split.kinds.isEmpty }

def hasCoordsFilter : List Str → Option Bool
  | [only] => some (only = str "guessed")
  | _ => none

def locationGuessOf (hasCoords : Option Str) : List Str :=
  if hasCoords = some (str "true") then [str "guessed"]
  else if hasCoords = some (str "false") then [str "blind"]
  else []

/-! ### Fields -/

/-- A character of a handle. -/
def isHandlePoint (point : Nat) : Bool :=
  inRanges [(chr '0', chr '9'), (chr 'A', chr 'Z'), (chr 'a', chr 'z')] point ||
    point = chr '_' || point = chr '-'

/-- `AUTHOR_FILTER_RE.test`. -/
def passesGate (name : Str) : Bool :=
  decide (1 ≤ name.length) && decide (name.length ≤ 50) && name.all isHandlePoint

/-- `text.trim()`. -/
def trimmed (text : Str) : Str :=
  stripBy isWhite text

/-- A value of the record of fields. -/
inductive FieldValue where
  | list (values : List Str)
  | text (value : Str)
  | flag (value : Bool)
deriving DecidableEq, Repr

/-- The record of fields, in the order they are assigned. -/
abbrev Fields := List (Str × FieldValue)

/-- `if (value) fields[name] = value`. -/
def assign (name : Str) (value : Option FieldValue) : Fields :=
  value.toList.map fun value => (name, value)

def listField (values : List Str) : Option FieldValue :=
  if values.isEmpty then none else some (.list values)

def textField (value : Str) : Option FieldValue :=
  if value.isEmpty then none else some (.text value)

/-- `LIST_DIMENSIONS`: the values of each, under its parameter. -/
def listDimensions (f : FilterState) : List (Str × List Str) :=
  [(str "status", f.showPick.filter isStatus), (str "conflict", f.conflicts),
    (str "source_kind", f.sourceKinds), (str "level", f.levels), (str "tag", f.tags),
    (str "media", f.mediaTypes)]

/-- The author, if the gate lets it out. -/
def authorField (author : Str) : Option FieldValue :=
  let author := trimmed author
  if !author.isEmpty && passesGate author then some (.text author) else none

/-- The approver's field, under the parameter of its kind. -/
def approverFields : Option Account → Fields
  | some (.analyst username) => [(str "approved_by", .text username)]
  | some (.organization slug _) => [(str "approved_by_org", .text slug)]
  | none => []

def eventFilterFields (f : FilterState) : Fields :=
  (listDimensions f).flatMap (fun dimension => assign dimension.1 (listField dimension.2)) ++
    assign (str "author") (authorField f.author) ++
    assign (str "has_coords") ((hasCoordsFilter f.locationGuess).map .flag) ++
    assign (str "approved") (if f.approved then some (.flag true) else none) ++
    approverFields f.approvedBy ++
    assign (str "occurred_date_from") (textField f.eventFrom) ++
    assign (str "occurred_date_to") (textField f.eventTo) ++
    assign (str "submitted_from") (textField f.addedFrom) ++
    assign (str "submitted_to") (textField f.addedTo)

/-! ### Writing -/

def flagText (value : Bool) : Str :=
  if value then str "true" else str "false"

def appendField (params : Params) : Str × FieldValue → Params
  | (key, .list values) => values.foldl (fun params value => params.append key value) params
  | (key, .text value) => params.set key value
  | (key, .flag value) => params.set key (flagText value)

def appendEventFilterParams (params : Params) (f : FilterState) : Params :=
  (eventFilterFields f).foldl appendField params

def searchTypes (picked : List Str) : List Str :=
  let split := splitShow picked
  let scope := showScope picked
  if scope.events && scope.others then
    if split.statuses.isEmpty then [] else str "event" :: split.kinds
  else if scope.events then [str "event"]
  else split.kinds

def appendSearchTypes (params : Params) (types : List Str) : Params :=
  types.foldl (fun params type => params.append (str "type") type) params

/-- `everyStatus`. -/
def everyStatus (picked : List Str) : Bool :=
  decide (searchTypes picked = [str "event"]) && decide (picked.length = filterStatuses.length)

def searchPageParams (q : Str) (filters : FilterState) : Params :=
  let params : Params := if q.isEmpty then [] else Params.set [] (str "q") q
  let params := appendSearchTypes params (searchTypes filters.showPick)
  appendEventFilterParams params
    (if everyStatus filters.showPick then { filters with showPick := [] } else filters)

/-! ### Reading -/

def readShowPick (params : Params) : List Str :=
  let types := params.getAll (str "type")
  let named := (params.getAll (str "status")).filter isStatus
  let statuses := if named.isEmpty && types.contains (str "event") then filterStatuses else named
  statuses ++ showKinds.filter fun kind => types.contains kind

def readApprover (params : Params) : Option Account :=
  let username := (params.get (str "approved_by")).getD []
  let slug := (params.get (str "approved_by_org")).getD []
  if passesGate username then some (.analyst username)
  else if passesGate slug then some (.organization slug slug)
  else none

def readEventFilterParams (params : Params) : FilterState :=
  let author := (params.get (str "author")).getD []
  { showPick := params.getAll (str "status")
    conflicts := params.getAll (str "conflict")
    sourceKinds := params.getAll (str "source_kind")
    levels := params.getAll (str "level")
    tags := params.getAll (str "tag")
    mediaTypes := params.getAll (str "media")
    locationGuess := locationGuessOf (params.get (str "has_coords"))
    author := if passesGate author then author else []
    approved := params.get (str "approved") = some (str "true")
    approvedBy := readApprover params
    eventFrom := (params.get (str "occurred_date_from")).getD []
    eventTo := (params.get (str "occurred_date_to")).getD []
    addedFrom := (params.get (str "submitted_from")).getD []
    addedTo := (params.get (str "submitted_to")).getD [] }

/-- `SEARCH_PAGE.read`, of its query and its filters. -/
def readQuery (params : Params) : Str :=
  (params.get (str "q")).getD []

def readFilters (params : Params) : FilterState :=
  { readEventFilterParams params with showPick := readShowPick params }

end Vidit.SearchPage
