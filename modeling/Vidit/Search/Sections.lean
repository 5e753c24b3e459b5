import Mathlib.Data.Finset.Basic
import Vidit.Pagination.LosesNothing

/-!
Contract: the search of the catalogue, as one ranked list and as the top of that
list for each type.

Owns:
- the filter set, and which of its fields narrow the view;
- `_candidates` and `_union`: which types join a search, and the rows they add;
- `search`, one page of the ranked list, and `search_sections`;
- `_hydrate`, the hits of a page.

Each call is read in one database state. What Postgres makes of a text on a row
(`Database`) is a parameter.

Does not own: the spelling suggestion, the counts per day, and the words of a
query that name an analyst.
-/

namespace Vidit.Search

open Vidit.Python Vidit.Calendar Vidit.Points Vidit.Pagination

/-- `SearchType`. -/
inductive SearchType where
  | event
  | site
  | collection
  | user
  | organization
deriving DecidableEq, Repr

/-- `SEARCH_TYPES`. -/
def searchTypes : List SearchType :=
  [.event, .site, .collection, .user, .organization]

@[simp] theorem mem_searchTypes (type : SearchType) : type ∈ searchTypes := by
  cases type <;> decide

theorem nodup_searchTypes : searchTypes.Nodup := by
  decide

/-! ### Filters -/

/-- The fields of `EventFilters`. -/
inductive FilterField where
  | status
  | conflict
  | sourceKind
  | level
  | tag
  | occurredDateFrom
  | occurredDateTo
  | submittedFrom
  | submittedTo
  | author
  | media
  | approved
  | approvedBy
  | approvedByOrg
  | hasCoords
deriving DecidableEq, Repr

def filterFields : List FilterField :=
  [.status, .conflict, .sourceKind, .level, .tag, .occurredDateFrom, .occurredDateTo,
    .submittedFrom, .submittedTo, .author, .media, .approved, .approvedBy, .approvedByOrg,
    .hasCoords]

@[simp] theorem mem_filterFields (field : FilterField) : field ∈ filterFields := by
  cases field <;> decide

structure EventFilters where
  status : Option (List Str)
  conflict : Option (List Str)
  sourceKind : Option (List Str)
  level : Option (List Str)
  tag : Option (List Str)
  occurredDateFrom : Option Str
  occurredDateTo : Option Str
  submittedFrom : Option Str
  submittedTo : Option Str
  author : Option Str
  media : Option (List Str)
  approved : Bool
  approvedBy : Option Str
  approvedByOrg : Option Str
  hasCoords : Option Bool
deriving DecidableEq

/-- `bool(value)` of a list or a text that may be missing. -/
def truthy {α : Type} : Option (List α) → Bool
  | none => false
  | some items => !items.isEmpty

namespace EventFilters

/-- `is_set`. -/
def isSet (filters : EventFilters) : FilterField → Bool
  | .status => truthy filters.status
  | .conflict => truthy filters.conflict
  | .sourceKind => truthy filters.sourceKind
  | .level => truthy filters.level
  | .tag => truthy filters.tag
  | .occurredDateFrom => truthy filters.occurredDateFrom
  | .occurredDateTo => truthy filters.occurredDateTo
  | .submittedFrom => truthy filters.submittedFrom
  | .submittedTo => truthy filters.submittedTo
  | .author => truthy filters.author
  | .media => truthy filters.media
  | .approved => filters.approved
  | .approvedBy => truthy filters.approvedBy
  | .approvedByOrg => truthy filters.approvedByOrg
  | .hasCoords => filters.hasCoords.isSome

def active (filters : EventFilters) : Bool :=
  filterFields.any filters.isSet

def activeBeyond (filters : EventFilters) (kept : List FilterField) : Bool :=
  (filterFields.filter fun field => field ∉ kept).any filters.isSet

end EventFilters

/-- `_TYPE_FILTERS`; an event answers every filter. -/
def typeFilters : SearchType → List FilterField
  | .event => filterFields
  | .site => [.status, .author]
  | .collection => [.status, .author, .tag]
  | .user => [.status]
  | .organization => [.status]

/-! ### The database -/

/-- `_Query`: a query parsed by `websearch_to_tsquery`. -/
structure Query where
  exact : Str
  typed : Str
deriving DecidableEq

/-- `_Handle`: a word of the query that names a live analyst. -/
structure Handle where
  handle : Str
  parsed : Str
  userId : RowId
deriving DecidableEq

/-- `_EventTerms`. -/
structure EventTerms where
  text : Str
  parsed : Query
  queryParsed : Query
  handles : List Handle
deriving DecidableEq

structure Row where
  id : RowId
  createdAt : Datetime
deriving DecidableEq

/-- One database state, as a search reads it: the rows of the five tables, and
what Postgres makes of a text on each of them. -/
structure Database (Rank Content : Type) where
  table : SearchType → List Row
  /-- The ids are `uuid4` values. -/
  distinctIds : ((searchTypes.flatMap table).map Row.id).Nodup
  /-- `_parse` of one query. -/
  parse : Str → Query
  /-- `_event_terms`. -/
  eventTerms : Str → EventTerms
  /-- `EventFilters.apply` with no view. -/
  applyFilters : EventFilters → Except HttpException (RowId → Bool)
  /-- It refuses a date alone. -/
  applyFilters_ok : ∀ filters,
    (∀ field ∈ [FilterField.occurredDateFrom, .occurredDateTo, .submittedFrom, .submittedTo],
      filters.isSet field = false) → ∃ keeps, applyFilters filters = .ok keeps
  /-- `_searchable_events`, `visible_sites`, `visible_collections` with
  `has_showable_item`, and the live accounts. -/
  visible : SearchType → RowId → Bool
  /-- `owner_username_matches` of the row's owner. -/
  ownedBy : RowId → Str → Bool
  /-- `has_showable_item(*taxonomy_predicates(tag=…))`. -/
  showsTag : RowId → List Str → Bool
  /-- `credited_to`. -/
  creditedTo : RowId → RowId → Bool
  /-- `_event_match`. -/
  eventMatch : RowId → Str → Str → Bool
  /-- The row's document `@@` a parsed query. -/
  documentMatches : SearchType → RowId → Str → Bool
  /-- `ts_rank` of the text the type ranks on. -/
  tsRank : SearchType → RowId → Str → Rank
  /-- The username is one of `_handle_candidates`. -/
  named : RowId → Str → Bool
  /-- What a hit shows, its matches marked. -/
  content : SearchType → RowId → Option Query → Content

/-! ### Candidates -/

/-- A row of `_union`. -/
structure Candidate (Rank : Type) extends Hit Rank where
  type : SearchType
deriving DecidableEq

section Reads

variable {Rank Content : Type} [Add Rank] [OfNat Rank 0] [OfNat Rank 10]
  (db : Database Rank Content)

/-- `_rank`. -/
def rankOf (type : SearchType) (id : RowId) (query : Query) : Rank :=
  db.tsRank type id query.typed + db.tsRank type id query.exact

/-- `_NO_RANK`, or the rank of a parsed query. -/
def rankOr (type : SearchType) (id : RowId) : Option Query → Rank
  | none => 0
  | some parsed => rankOf db type id parsed

/-- A select over the table of a type: the rows it keeps, and their rank. -/
def candidate (type : SearchType) (rank : RowId → Rank) (keeps : RowId → Bool) :
    List (Candidate Rank) :=
  ((db.table type).filter fun row => keeps row.id).map fun row =>
    { id := row.id, rank := rank row.id, createdAt := row.createdAt, type := type }

/-- The words of a query, as `_matching` reads them. -/
def matchesTerms (terms : EventTerms) (id : RowId) : Bool :=
  (terms.text.isEmpty || db.eventMatch id terms.text terms.parsed.typed) &&
    terms.handles.all fun named =>
      db.creditedTo id named.userId || db.eventMatch id named.handle named.parsed

def eventCandidates (terms : EventTerms) (filters : EventFilters) :
    Except HttpException (List (Candidate Rank)) := do
  let rank : RowId → Rank := fun id =>
    if terms.text.isEmpty && terms.handles.isEmpty then 0
    else rankOf db .event id (if terms.text.isEmpty then terms.queryParsed else terms.parsed)
  let keeps ← db.applyFilters filters
  pure (candidate db .event rank fun id =>
    keeps id && db.visible .event id && matchesTerms db terms id)

/-- The document matches the query, where there is one. -/
def matchesDocument (type : SearchType) (id : RowId) : Option Query → Bool
  | none => true
  | some parsed => db.documentMatches type id parsed.typed

/-- The owner is the author asked for, where one is. -/
def matchesAuthor (filters : EventFilters) (id : RowId) : Bool :=
  !filters.isSet .author || db.ownedBy id (filters.author.getD [])

def siteCandidates (parsed : Option Query) (filters : EventFilters) : List (Candidate Rank) :=
  candidate db .site (fun id => rankOr db .site id parsed) fun id =>
    db.visible .site id && matchesAuthor db filters id && matchesDocument db .site id parsed

def collectionCandidates (parsed : Option Query) (filters : EventFilters) :
    List (Candidate Rank) :=
  candidate db .collection (fun id => rankOr db .collection id parsed) fun id =>
    db.visible .collection id &&
      (!filters.isSet .tag || db.showsTag id (filters.tag.getD [])) &&
      matchesAuthor db filters id && matchesDocument db .collection id parsed

def userCandidates (parsed : Query) (query : Str) : List (Candidate Rank) :=
  candidate db .user
    (fun id => rankOf db .user id parsed + if db.named id query then 10 else 0) fun id =>
      db.visible .user id && (db.documentMatches .user id parsed.typed || db.named id query)

def organizationCandidates (parsed : Query) : List (Candidate Rank) :=
  candidate db .organization (fun id => rankOf db .organization id parsed) fun id =>
    db.documentMatches .organization id parsed.typed

/-- `offered`. -/
def offered (query : Str) (types : Finset SearchType) (filters : EventFilters)
    (type : SearchType) : Bool :=
  let kept := typeFilters type
  let own := (kept.filter (· ≠ .status)).any filters.isSet
  type ∈ types && !filters.activeBeyond kept && (!query.isEmpty || own)

/-- `_candidates`: one select for each type that may match. -/
def candidates (query : Str) (types : Finset SearchType) (filters : EventFilters) :
    Except HttpException (List (List (Candidate Rank))) := do
  let terms := db.eventTerms query
  let parsed := if query.isEmpty then none else some terms.queryParsed
  let events ← if .event ∈ types ∧ (query ≠ [] ∨ filters.active = true) then do
      let select ← eventCandidates db terms filters
      pure [select]
    else pure []
  let sites := if offered query types filters .site then [siteCandidates db parsed filters] else []
  let collections :=
    if offered query types filters .collection then [collectionCandidates db parsed filters]
    else []
  let users := match parsed with
    | some parsed => if offered query types filters .user then [userCandidates db parsed query] else []
    | none => []
  let organizations := match parsed with
    | some parsed =>
        if offered query types filters .organization then [organizationCandidates db parsed] else []
    | none => []
  pure (events ++ sites ++ collections ++ users ++ organizations)

/-- `_union`. -/
def union (query : Str) (types : Finset SearchType) (filters : EventFilters) :
    Except HttpException (Option (List (Candidate Rank))) := do
  if query = [] ∧ filters.active = false then pure none
  else
    let selects ← candidates db query types filters
    if selects.isEmpty then pure none else pure (some selects.flatten)

/-! ### Hits -/

structure HitRead (Content : Type) where
  type : SearchType
  id : RowId
  content : Content
deriving DecidableEq

/-- The reader of one type: the rows of its table among `ids`. -/
def readHits (type : SearchType) (ids : List RowId) (parsed : Option Query) :
    List (HitRead Content) :=
  ((db.table type).filter fun row => row.id ∈ ids).map fun row =>
    { type := type, id := row.id, content := db.content type row.id parsed }

/-- `_hydrate`: the rows are read type by type, and served in the order of the page. -/
def hydrate (page : List (SearchType × RowId)) (query : Str) : List (HitRead Content) :=
  let parsed := if query.isEmpty then none else some (db.parse query)
  let ids type := (page.filter fun key => key.1 = type).map Prod.snd
  page.filterMap fun key =>
    (readHits db key.1 (ids key.1) parsed).find? fun hit => hit.id = key.2

/-! ### The ranked list -/

structure SearchPage (Content : Type) where
  hits : List (HitRead Content)
  total : Nat
  cursor : Option Str
deriving DecidableEq

variable [LinearOrder Rank] (doubles : Doubles Rank)

/-- The order of `_ranking`, best first. -/
def ranksBefore (left right : Candidate Rank) : Bool :=
  ranking right.toHit ≤ ranking left.toHit

/-- `search`. -/
def search (query : Str) (types : Finset SearchType) (limit : Nat) (filters : EventFilters)
    (after : Option (Rank × Datetime × RowId)) : Except HttpException (SearchPage Content) := do
  let q := strip query
  match ← union db q types filters with
  | none => pure ⟨[], 0, none⟩
  | some union =>
      let after : Option (RankedKey Rank) :=
        after.map fun values => toLex (values.1, toLex (values.2.1, values.2.2))
      let page := union.filter (keysetBefore (fun row => ranking row.toHit) after)
      let rows := (sortedBy ranksBefore page).take (limit + 1)
      if rows.isEmpty then pure ⟨[], 0, none⟩
      else
        let hits := hydrate db ((rows.take limit).map fun row => (row.type, row.id)) q
        pure ⟨hits, union.length, nextCursor doubles (rows.map Candidate.toHit) limit⟩

/-- `GET /search`, read up to its cursor. -/
def readSearch (other : OtherReaders) (query : Str) (types : Finset SearchType) (limit : Nat)
    (filters : EventFilters) (cursor : Option Str) :
    Except HttpException (SearchPage Content) := do
  let after ← cursor.mapM (decodeRankedCursor doubles other)
  search db doubles query types limit filters after

/-! ### Sections -/

structure SearchSection (Content : Type) where
  type : SearchType
  hits : List (HitRead Content)
  total : Nat
  cursor : Option Str
deriving DecidableEq

/-- A row of `ranked`: its `row_number` and the count of its partition. -/
structure Ranked (Rank : Type) extends Candidate Rank where
  position : Nat
  totalCount : Nat

/-- The window of one type. -/
def partitionOf (union : List (Candidate Rank)) (type : SearchType) : List (Ranked Rank) :=
  let rows := union.filter fun row => row.type = type
  ((sortedBy ranksBefore rows).zipIdx 1).map fun (row, position) =>
    { row with position := position, totalCount := rows.length }

/-- The types, in the order of their texts. -/
def typesByText : List SearchType :=
  [.collection, .event, .organization, .site, .user]

/-- The sections of the rows of a union: the windows of the types, cut and hydrated. -/
def sectionsFrom (query : Str) (union : List (Candidate Rank)) (limit : Nat) :
    List (SearchSection Content) :=
  let rows := (typesByText.flatMap (partitionOf union)).filter fun row =>
    row.position ≤ limit + 1
  let byType type := rows.filter fun row => row.type = type
  let present := searchTypes.filter fun type => !(byType type).isEmpty
  let served := present.flatMap fun type =>
    ((byType type).take limit).map fun row => (row.type, row.id)
  let hits := hydrate db served query
  let sections : List (SearchSection Content) := present.map fun type =>
    { type := type
      hits := hits.filter fun hit => hit.type = type
      total := ((byType type).head?.map Ranked.totalCount).getD 0
      cursor := nextCursor doubles ((byType type).map fun row => row.toHit) limit }
  sections.filter fun listed => !listed.hits.isEmpty

/-- `search_sections`. -/
def searchSections (query : Str) (types : Finset SearchType) (limit : Nat)
    (filters : EventFilters) : Except HttpException (List (SearchSection Content)) := do
  let q := strip query
  match ← union db q types filters with
  | none => pure []
  | some union => pure (sectionsFrom db doubles q union limit)

end Reads

end Vidit.Search
