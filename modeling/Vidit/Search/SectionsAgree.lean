import Vidit.Library.Keyed
import Vidit.Search.Sections

/-!
Contract: the sections of a search are the searches of its types.

Owns:
- `SectionsAgree`: a section is the first page of the search for its type alone,
  and a type has one when that search has a hit;
- `WalksOnce`: the cursors of a search visit every match once, in rank order,
  with one total.

Proof shape: each type joins the union by a test of its own (`joins`), which does
not depend on the other types asked for. So the union of one type is the part of
the union that is of that type, and the window of a type is the sorted list of
that part. A page is the keyset window of that list, and hydrating it loses no
row of a fixed state.
-/

namespace Vidit.Search

open Vidit.Python Vidit.Calendar Vidit.Points Vidit.Pagination Vidit.Library

/-- The rows of a type among those of some types, block by block. -/
theorem filter_flatMap_of_typed {α : Type} {typeOf : α → SearchType} {block : SearchType → List α}
    (typed : ∀ own, ∀ item ∈ block own, typeOf item = own) {types : List SearchType}
    (nodup : types.Nodup) (own : SearchType) :
    ((types.flatMap block).filter fun item => typeOf item = own) =
      if own ∈ types then block own else [] :=
  filter_flatMap_of_keyed Function.injective_id typed nodup own

/-- The numbers up to a bound are those of the first elements. -/
theorem filter_zipIdx_le {α : Type} (items : List α) (start bound : Nat) :
    ((items.zipIdx start).filter fun entry => entry.2 ≤ bound) =
      (items.take (bound + 1 - start)).zipIdx start := by
  induction items generalizing start with
  | nil => simp
  | cons head tail inductionHypothesis =>
      rw [List.zipIdx_cons, List.filter_cons, inductionHypothesis]
      by_cases within : start ≤ bound
      · rw [if_pos (decide_eq_true within), show bound + 1 - start = bound - start + 1 by omega,
          List.take_succ_cons, List.zipIdx_cons,
          show bound + 1 - (start + 1) = bound - start by omega]
      · rw [if_neg (by simpa using within), show bound + 1 - start = 0 by omega,
          show bound + 1 - (start + 1) = 0 by omega]
        rfl

section Reads

variable {Rank Content : Type} [Add Rank] [OfNat Rank 0] [OfNat Rank 10]
  (db : Database Rank Content)

/-! ### Which types join the union -/

/-- The type adds a select to the union. -/
def joins (query : Str) (types : Finset SearchType) (filters : EventFilters) :
    SearchType → Bool
  | .event => .event ∈ types ∧ (query ≠ [] ∨ filters.active = true)
  | .site => offered query types filters .site
  | .collection => offered query types filters .collection
  | .user => !query.isEmpty && offered query types filters .user
  | .organization => !query.isEmpty && offered query types filters .organization

/-- The select of a type, with what the filters keep of the events. -/
def selected (query : Str) (filters : EventFilters) (keeps : RowId → Bool) :
    SearchType → List (Candidate Rank)
  | .event =>
      let terms := db.eventTerms query
      candidate db .event
        (fun id => if terms.text.isEmpty && terms.handles.isEmpty then 0
          else rankOf db .event id (if terms.text.isEmpty then terms.queryParsed else terms.parsed))
        fun id => keeps id && db.visible .event id && matchesTerms db terms id
  | .site => siteCandidates db
      (if query.isEmpty then none else some (db.eventTerms query).queryParsed) filters
  | .collection => collectionCandidates db
      (if query.isEmpty then none else some (db.eventTerms query).queryParsed) filters
  | .user => userCandidates db (db.eventTerms query).queryParsed query
  | .organization => organizationCandidates db (db.eventTerms query).queryParsed

/-- The filters of the events are read when the events join. -/
def readFilters (query : Str) (types : Finset SearchType) (filters : EventFilters) :
    Except HttpException (RowId → Bool) :=
  if joins query types filters .event then db.applyFilters filters else .ok fun _ => false

/-- The rows of the union. -/
def matched (query : Str) (types : Finset SearchType) (filters : EventFilters)
    (keeps : RowId → Bool) : List (Candidate Rank) :=
  (searchTypes.filter (joins query types filters)).flatMap (selected db query filters keeps)

/-- One block of selects for each type. -/
theorem map_filter_eq {α β : Type} (keep : α → Bool) (image : α → β) (items : List α) :
    (items.filter keep).map image = items.flatMap fun item =>
      if keep item then [image item] else [] := by
  induction items with
  | nil => rfl
  | cons head tail inductionHypothesis =>
      rw [List.flatMap_cons, List.filter_cons]
      by_cases kept : keep head = true
      · rw [if_pos kept, if_pos kept, List.map_cons, inductionHypothesis]
        rfl
      · rw [if_neg kept, if_neg kept, inductionHypothesis]
        rfl

theorem candidates_eq (query : Str) (types : Finset SearchType) (filters : EventFilters) :
    candidates db query types filters = (readFilters db query types filters).map fun keeps =>
      (searchTypes.filter (joins query types filters)).map (selected db query filters keeps) := by
  have blocks (keeps : RowId → Bool) :
      (searchTypes.filter (joins query types filters)).map (selected db query filters keeps) =
        (if joins query types filters .event then [selected db query filters keeps .event]
          else []) ++ ([SearchType.site, .collection, .user, .organization].flatMap fun type =>
            if joins query types filters type then [selected db query filters keeps type]
            else []) := by
    rw [map_filter_eq]
    rfl
  have others (keeps : RowId → Bool) (events : List (List (Candidate Rank)))
      {users organizations : List (List (Candidate Rank))}
      (ofUsers : users = if joins query types filters .user
        then [selected db query filters keeps .user] else [])
      (ofOrganizations : organizations = if joins query types filters .organization
        then [selected db query filters keeps .organization] else []) :
      let parsed := if query.isEmpty then none else some (db.eventTerms query).queryParsed
      events ++
        (if offered query types filters .site then [siteCandidates db parsed filters] else []) ++
        (if offered query types filters .collection then [collectionCandidates db parsed filters]
          else []) ++
        users ++ organizations =
      events ++ ([SearchType.site, .collection, .user, .organization].flatMap fun type =>
        if joins query types filters type then [selected db query filters keeps type] else []) := by
    simp only [ofUsers, ofOrganizations, List.append_assoc, List.flatMap_cons, List.flatMap_nil,
      List.append_nil]
    cases query with
    | nil => simp [joins, selected]
    | cons => simp [joins, selected]
  unfold candidates readFilters
  by_cases event : joins query types filters .event = true
  · have asked := of_decide_eq_true event
    simp only [if_pos event, if_pos asked]
    unfold eventCandidates
    cases db.applyFilters filters with
    | error refusal => rfl
    | ok keeps =>
        show Except.ok _ = Except.ok ((searchTypes.filter (joins query types filters)).map
          (selected db query filters keeps))
        rw [blocks, if_pos event]
        exact congrArg Except.ok (others keeps _ (by cases query <;> simp [joins, selected])
          (by cases query <;> simp [joins, selected]))
  · have unasked : ¬(.event ∈ types ∧ (query ≠ [] ∨ filters.active = true)) :=
      fun asked => event (decide_eq_true asked)
    rw [if_neg event, if_neg unasked]
    show Except.ok _ = Except.ok ((searchTypes.filter (joins query types filters)).map
      (selected db query filters fun _ => false))
    rw [blocks, if_neg event]
    exact congrArg Except.ok (others _ _ (by cases query <;> simp [joins, selected])
      (by cases query <;> simp [joins, selected]))

/-- Without a query and a filter no type joins. -/
theorem joins_none {types : Finset SearchType} {filters : EventFilters}
    (inactive : filters.active = false) (type : SearchType) :
    joins [] types filters type = false := by
  have unset : ∀ field, filters.isSet field = false := by
    intro field
    have all := List.any_eq_false.mp inactive
    simpa using all field (mem_filterFields field)
  have notOffered : ∀ type, offered [] types filters type = false := by
    intro type
    simp [offered, unset]
  cases type with
  | event => simp [joins, inactive]
  | site => exact notOffered .site
  | collection => exact notOffered .collection
  | user => rfl
  | organization => rfl

/-- Nothing can match, or the rows of the types that join. -/
theorem union_eq (query : Str) (types : Finset SearchType) (filters : EventFilters) :
    union db query types filters = (readFilters db query types filters).map fun keeps =>
      if (searchTypes.filter (joins query types filters)).isEmpty then none
      else some (matched db query types filters keeps) := by
  unfold union
  by_cases nothing : query = [] ∧ filters.active = false
  · obtain ⟨rfl, inactive⟩ := nothing
    have alone : searchTypes.filter (joins [] types filters) = [] := by
      rw [List.filter_eq_nil_iff]
      intro type _
      simp [joins_none inactive type]
    have unread : readFilters db [] types filters = .ok fun _ => false := by
      unfold readFilters
      rw [joins_none inactive]
      rfl
    rw [if_pos ⟨rfl, inactive⟩, unread, alone]
    rfl
  · rw [if_neg nothing, candidates_eq]
    cases readFilters db query types filters with
    | error refusal => rfl
    | ok keeps =>
        cases joined : searchTypes.filter (joins query types filters) with
        | nil => rfl
        | cons first rest =>
            have rows : matched db query types filters keeps =
                ((first :: rest).map (selected db query filters keeps)).flatten := by
              unfold matched
              rw [joined, List.flatMap_def]
            simp only [Except.map, rows]
            rfl

/-! ### The rows of one type -/

/-- The rows of a select over the table of a type. -/
structure FromTable (type : SearchType) (rows : List (Candidate Rank)) : Prop where
  typed : ∀ row ∈ rows, row.type = type
  stored : ∀ row ∈ rows, ∃ stored ∈ db.table type, stored.id = row.id
  ids : (rows.map fun row => row.id).Sublist ((db.table type).map Row.id)

omit [Add Rank] [OfNat Rank 0] [OfNat Rank 10] in
theorem candidate_fromTable (type : SearchType) (rank : RowId → Rank) (keeps : RowId → Bool) :
    FromTable db type (candidate db type rank keeps) where
  typed row member := by
    obtain ⟨stored, _, rfl⟩ := List.mem_map.mp member
    rfl
  stored row member := by
    obtain ⟨stored, kept, rfl⟩ := List.mem_map.mp member
    exact ⟨stored, (List.mem_filter.mp kept).1, rfl⟩
  ids := by
    unfold candidate
    rw [List.map_map]
    exact List.filter_sublist.map Row.id

theorem selected_fromTable (query : Str) (filters : EventFilters) (keeps : RowId → Bool)
    (type : SearchType) : FromTable db type (selected db query filters keeps type) := by
  cases type with
  | event =>
      unfold selected
      exact candidate_fromTable db _ _ _
  | site =>
      unfold selected siteCandidates
      exact candidate_fromTable db _ _ _
  | collection =>
      unfold selected collectionCandidates
      exact candidate_fromTable db _ _ _
  | user =>
      unfold selected userCandidates
      exact candidate_fromTable db _ _ _
  | organization =>
      unfold selected organizationCandidates
      exact candidate_fromTable db _ _ _

/-- The rows of a type among those of some types are the rows of that type alone. -/
theorem filter_matched {query : Str} {types : Finset SearchType} {filters : EventFilters}
    {keeps : RowId → Bool} (type : SearchType) :
    ((matched db query types filters keeps).filter fun row => row.type = type) =
      if joins query types filters type then selected db query filters keeps type else [] := by
  unfold matched
  rw [filter_flatMap_of_typed (fun own => (selected_fromTable db query filters keeps own).typed)
    (nodup_searchTypes.filter _)]
  simp only [List.mem_filter, mem_searchTypes, true_and]

theorem offered_singleton {query : Str} {types : Finset SearchType} {filters : EventFilters}
    {type : SearchType} (asked : type ∈ types) :
    offered query {type} filters type = offered query types filters type := by
  simp [offered, asked]

theorem joins_singleton {query : Str} {types : Finset SearchType} {filters : EventFilters}
    {type : SearchType} (asked : type ∈ types) :
    joins query {type} filters type = joins query types filters type := by
  cases type with
  | event => simp [joins, asked]
  | site => exact offered_singleton asked
  | collection => exact offered_singleton asked
  | user => exact congrArg (!query.isEmpty && ·) (offered_singleton asked)
  | organization => exact congrArg (!query.isEmpty && ·) (offered_singleton asked)

/-- Only a type that is asked for joins. -/
theorem mem_of_joins {query : Str} {types : Finset SearchType} {filters : EventFilters}
    {type : SearchType} (joined : joins query types filters type = true) : type ∈ types := by
  cases type <;> simp [joins, offered] at joined <;> tauto

theorem filter_joins_singleton {query : Str} {filters : EventFilters} (type : SearchType) :
    searchTypes.filter (joins query {type} filters) =
      if joins query {type} filters type then [type] else [] := by
  have others : ∀ other ≠ type, joins query {type} filters other = false := by
    intro other different
    by_contra joined
    exact different (Finset.mem_singleton.mp (mem_of_joins (by simpa using joined)))
  cases type <;>
    simp [searchTypes, List.filter_cons, others]

/-! ### Hydrating a page -/

/-- The hit of a row. -/
def hitOf (query : Str) (type : SearchType) (id : RowId) : HitRead Content where
  type := type
  id := id
  content := db.content type id (if query.isEmpty then none else some (db.parse query))

omit [Add Rank] [OfNat Rank 0] [OfNat Rank 10] in
/-- A row asked for is among the rows its reader returns. -/
theorem find_readHits {type : SearchType} {id : RowId} {ids : List RowId}
    (present : ∃ stored ∈ db.table type, stored.id = id) (asked : id ∈ ids)
    (parsed : Option Query) :
    ((readHits db type ids parsed).find? fun hit => hit.id = id) =
      some ⟨type, id, db.content type id parsed⟩ := by
  obtain ⟨stored, inTable, same⟩ := present
  have found : ((readHits db type ids parsed).find? fun hit => hit.id = id).isSome := by
    rw [List.find?_isSome]
    have kept : stored ∈ (db.table type).filter fun row => row.id ∈ ids :=
      List.mem_filter.mpr ⟨inTable, decide_eq_true (same.symm ▸ asked)⟩
    exact ⟨_, List.mem_map.mpr ⟨stored, kept, rfl⟩, decide_eq_true same⟩
  obtain ⟨hit, isFound⟩ := Option.isSome_iff_exists.mp found
  have sameId := List.find?_some isFound
  rw [decide_eq_true_eq] at sameId
  obtain ⟨read, _, rfl⟩ := List.mem_map.mp (List.mem_of_find?_eq_some isFound)
  subst sameId
  exact isFound

omit [Add Rank] [OfNat Rank 0] [OfNat Rank 10] in
/-- Every row of a fixed state is read back. -/
theorem hydrate_eq (page : List (SearchType × RowId)) (query : Str)
    (present : ∀ key ∈ page, ∃ stored ∈ db.table key.1, stored.id = key.2) :
    hydrate db page query = page.map fun key => hitOf db query key.1 key.2 := by
  rw [← List.filterMap_eq_map']
  apply List.filterMap_congr
  intro key member
  have asked : key.2 ∈ (page.filter fun other => other.1 = key.1).map Prod.snd :=
    List.mem_map.mpr ⟨key, List.mem_filter.mpr ⟨member, decide_eq_true rfl⟩, rfl⟩
  exact find_readHits db (present key member) asked _

/-! ### One page and the sections of the rows -/

variable [LinearOrder Rank] (doubles : Doubles Rank)

/-- The key of a cursor. -/
def keyOf (after : Option (Rank × Datetime × RowId)) : Option (RankedKey Rank) :=
  after.map fun values => toLex (values.1, toLex (values.2.1, values.2.2))

/-- The window of a page, over-fetched by one. -/
def windowOf (rows : List (Candidate Rank)) (limit : Nat) (after : Option (RankedKey Rank)) :
    List (Candidate Rank) :=
  (sortedBy ranksBefore (rows.filter (keysetBefore (fun row => ranking row.toHit) after))).take
    (limit + 1)

/-- The page of a window, and the number of all rows. -/
def pageOf (query : Str) (rows : List (Candidate Rank)) (limit : Nat)
    (after : Option (RankedKey Rank)) : SearchPage Content :=
  let window := windowOf rows limit after
  if window.isEmpty then ⟨[], 0, none⟩
  else ⟨(window.take limit).map fun row => hitOf db query row.type row.id, rows.length,
    nextCursor doubles (window.map Candidate.toHit) limit⟩

omit [Add Rank] [OfNat Rank 0] [OfNat Rank 10] in
theorem windowOf_subset {rows : List (Candidate Rank)} {limit : Nat}
    {after : Option (RankedKey Rank)} {row : Candidate Rank}
    (member : row ∈ windowOf rows limit after) : row ∈ rows := by
  have listed := List.mem_of_mem_take member
  rw [mem_sortedBy] at listed
  exact (List.mem_filter.mp listed).1

omit [LinearOrder Rank] in
theorem matched_present {query : Str} {types : Finset SearchType} {filters : EventFilters}
    {keeps : RowId → Bool} {row : Candidate Rank}
    (member : row ∈ matched db query types filters keeps) :
    ∃ stored ∈ db.table row.type, stored.id = row.id := by
  obtain ⟨type, _, inSelect⟩ := List.mem_flatMap.mp member
  have fromTable := selected_fromTable db query filters keeps type
  rw [fromTable.typed row inSelect]
  exact fromTable.stored row inSelect

theorem search_eq (query : Str) (types : Finset SearchType) (limit : Nat)
    (filters : EventFilters) (after : Option (Rank × Datetime × RowId)) :
    search db doubles query types limit filters after =
      (readFilters db (strip query) types filters).map fun keeps =>
        pageOf db doubles (strip query) (matched db (strip query) types filters keeps) limit
          (keyOf after) := by
  unfold search
  simp only [union_eq]
  cases readFilters db (strip query) types filters with
  | error refusal => rfl
  | ok keeps =>
      cases joined : (searchTypes.filter (joins (strip query) types filters)).isEmpty with
      | true =>
          have nothing : matched db (strip query) types filters keeps = [] := by
            unfold matched
            rw [List.isEmpty_iff.mp joined]
            rfl
          simp only [Except.map, nothing]
          rfl
      | false =>
          set rows := matched db (strip query) types filters keeps with areRows
          have hydrated := hydrate_eq db (((windowOf rows limit (keyOf after)).take limit).map
            fun row => (row.type, row.id)) (strip query) (by
              intro key member
              obtain ⟨row, inPage, rfl⟩ := List.mem_map.mp member
              exact matched_present db (windowOf_subset (List.mem_of_mem_take inPage)))
          rw [List.map_map] at hydrated
          show (if (windowOf rows limit (keyOf after)).isEmpty then
              Except.ok (⟨[], 0, none⟩ : SearchPage Content)
            else Except.ok ⟨hydrate db (((windowOf rows limit (keyOf after)).take limit).map
              fun row => (row.type, row.id)) (strip query), rows.length, _⟩) =
                Except.ok (pageOf ..)
          rw [hydrated]
          unfold pageOf
          by_cases empty : (windowOf rows limit (keyOf after)).isEmpty = true
          · rw [if_pos empty, if_pos empty]
          · rw [if_neg empty, if_neg empty]
            rfl

/-! ### Windows by type -/

omit [Add Rank] [OfNat Rank 0] [OfNat Rank 10] in
/-- The rows of a type up to a position are the window of that type. -/
theorem partition_window (rows : List (Candidate Rank)) (limit : Nat) (type : SearchType) :
    ((partitionOf rows type).filter fun row => row.position ≤ limit + 1).map Ranked.toCandidate =
      windowOf (rows.filter fun row => row.type = type) limit none := by
  have whole : (rows.filter fun row => row.type = type).filter
      (keysetBefore (fun row => ranking row.toHit) none) =
        rows.filter fun row => row.type = type :=
    List.filter_eq_self.mpr fun _ _ => rfl
  unfold partitionOf windowOf
  rw [whole, List.filter_map, List.map_map]
  set sorted := sortedBy ranksBefore (rows.filter fun row => row.type = type)
  have numbered := filter_zipIdx_le sorted 1 (limit + 1)
  have first : ((sorted.zipIdx 1).filter fun entry => entry.2 ≤ limit + 1).map Prod.fst =
      sorted.take (limit + 1) := by
    rw [numbered, List.zipIdx_map_fst]
    rfl
  exact first

omit [Add Rank] [OfNat Rank 0] [OfNat Rank 10] in
/-- The rows of a type among all the windows. -/
theorem filter_partitions (rows : List (Candidate Rank)) (limit : Nat) (type : SearchType) :
    ((typesByText.flatMap (partitionOf rows)).filter (fun row => row.position ≤ limit + 1)).filter
        (fun row => row.type = type) =
      (partitionOf rows type).filter fun row => row.position ≤ limit + 1 := by
  have listed : type ∈ typesByText := by
    cases type <;> decide
  have typed : ∀ own, ∀ row ∈ partitionOf rows own, row.type = own := by
    intro own row member
    obtain ⟨⟨entry, position⟩, inWindow, rfl⟩ := List.mem_map.mp member
    have inRows := List.fst_mem_of_mem_zipIdx inWindow
    rw [mem_sortedBy] at inRows
    exact of_decide_eq_true (List.mem_filter.mp inRows).2
  rw [List.filter_comm, filter_flatMap_of_typed typed (by decide), if_pos listed]

omit [Add Rank] [OfNat Rank 0] [OfNat Rank 10] in
theorem totalCount_partition {rows : List (Candidate Rank)} {type : SearchType}
    {row : Ranked Rank} (member : row ∈ partitionOf rows type) :
    row.totalCount = (rows.filter fun row => row.type = type).length := by
  obtain ⟨entry, _, rfl⟩ := List.mem_map.mp member
  rfl

/-- The rows of one type. -/
def ofType (rows : List (Candidate Rank)) (type : SearchType) : List (Candidate Rank) :=
  rows.filter fun row => row.type = type

/-- A page of one type, as a section. -/
def sectionOf (type : SearchType) (page : SearchPage Content) : SearchSection Content where
  type := type
  hits := page.hits
  total := page.total
  cursor := page.cursor

/-- The section of each type that has a row. -/
def sectionsOf (query : Str) (rows : List (Candidate Rank)) (limit : Nat) :
    List (SearchSection Content) :=
  (searchTypes.filter fun type => !(windowOf (ofType rows type) limit none).isEmpty).map
    fun type => sectionOf type (pageOf db doubles query (ofType rows type) limit none)

omit [Add Rank] [OfNat Rank 0] [OfNat Rank 10] in
theorem pageOf_of_rows {query : Str} {rows : List (Candidate Rank)} {limit : Nat}
    {after : Option (RankedKey Rank)} (shown : (windowOf rows limit after).isEmpty = false) :
    pageOf db doubles query rows limit after =
      ⟨((windowOf rows limit after).take limit).map fun row => hitOf db query row.type row.id,
        rows.length, nextCursor doubles ((windowOf rows limit after).map Candidate.toHit) limit⟩ := by
  unfold pageOf
  rw [if_neg (by simp [shown])]

omit [Add Rank] [OfNat Rank 0] [OfNat Rank 10] in
/-- The section a type gets from its window is its first page. -/
theorem section_eq {query : Str} {rows : List (Candidate Rank)} {limit : Nat} {type : SearchType}
    {window : List (Ranked Rank)}
    (isWindow : window = (partitionOf rows type).filter fun row => row.position ≤ limit + 1)
    (shown : window.isEmpty = false) :
    ({ type := type
       hits := ((window.take limit).map fun row => hitOf db query row.type row.id)
       total := (window.head?.map Ranked.totalCount).getD 0
       cursor := nextCursor doubles (window.map fun row => row.toHit) limit } :
        SearchSection Content) =
      sectionOf type (pageOf db doubles query (ofType rows type) limit none) := by
  have rows' : windowOf (ofType rows type) limit none = window.map Ranked.toCandidate := by
    rw [isWindow]
    exact (partition_window rows limit type).symm
  cases window with
  | nil => cases shown
  | cons first rest =>
      have inPartition : first ∈ partitionOf rows type :=
        (List.mem_filter.mp (isWindow ▸ List.mem_cons_self)).1
      have shown' : (windowOf (ofType rows type) limit none).isEmpty = false := by
        rw [rows']
        rfl
      rw [pageOf_of_rows db doubles shown', rows', ← List.map_take, List.map_map, List.map_map]
      unfold sectionOf
      congr 1
      exact totalCount_partition inPartition

omit [Add Rank] [OfNat Rank 0] [OfNat Rank 10] in
theorem sectionsFrom_eq (query : Str) {rows : List (Candidate Rank)} {limit : Nat}
    (positive : 0 < limit)
    (present : ∀ row ∈ rows, ∃ stored ∈ db.table row.type, stored.id = row.id) :
    sectionsFrom db doubles query rows limit = sectionsOf db doubles query rows limit := by
  unfold sectionsFrom sectionsOf
  simp only [filter_partitions]
  set window := fun type => (partitionOf rows type).filter fun row => row.position ≤ limit + 1
    with isWindow
  have windows : ∀ type, windowOf (ofType rows type) limit none =
      (window type).map Ranked.toCandidate :=
    fun type => (partition_window rows limit type).symm
  have inRows : ∀ type, ∀ row ∈ window type, row.toCandidate ∈ rows ∧ row.type = type := by
    intro type row member
    have inWindow : row.toCandidate ∈ windowOf (ofType rows type) limit none := by
      rw [windows]
      exact List.mem_map_of_mem member
    have kept := List.mem_filter.mp (windowOf_subset inWindow)
    exact ⟨kept.1, of_decide_eq_true kept.2⟩
  have shown : ∀ type, (windowOf (ofType rows type) limit none).isEmpty = (window type).isEmpty := by
    intro type
    rw [windows]
    exact List.isEmpty_map
  simp only [shown]
  set listed := searchTypes.filter fun type => !(window type).isEmpty
  have hydrated : hydrate db (listed.flatMap fun type =>
        ((window type).take limit).map fun row => (row.type, row.id)) query =
      listed.flatMap fun type =>
        ((window type).take limit).map fun row => hitOf db query row.type row.id := by
    rw [hydrate_eq, List.map_flatMap]
    · simp only [List.map_map]
      rfl
    · intro key member
      obtain ⟨type, _, inPage⟩ := List.mem_flatMap.mp member
      obtain ⟨row, inTake, rfl⟩ := List.mem_map.mp inPage
      exact present row.toCandidate (inRows type row (List.mem_of_mem_take inTake)).1
  have blocks : ∀ type, ∀ hit ∈ ((window type).take limit).map fun row =>
      hitOf db query row.type row.id, hit.type = type := by
    intro type hit member
    obtain ⟨row, inTake, rfl⟩ := List.mem_map.mp member
    exact (inRows type row (List.mem_of_mem_take inTake)).2
  have notEmpty : ∀ type ∈ listed, (window type).isEmpty = false := by
    intro type member
    simpa using (List.mem_filter.mp member).2
  have sections : (listed.map fun type => ({
      type := type
      hits := (listed.flatMap fun type => ((window type).take limit).map fun row =>
        hitOf db query row.type row.id).filter fun hit => hit.type = type
      total := ((window type).head?.map Ranked.totalCount).getD 0
      cursor := nextCursor doubles ((window type).map fun row => row.toHit) limit } :
        SearchSection Content)) =
      listed.map fun type =>
        sectionOf type (pageOf db doubles query (ofType rows type) limit none) := by
    apply List.map_congr_left
    intro type member
    rw [filter_flatMap_of_typed blocks (nodup_searchTypes.filter _), if_pos member]
    exact section_eq db doubles rfl (notEmpty type member)
  rw [hydrated, sections, List.filter_eq_self]
  intro served member
  obtain ⟨type, inListed, rfl⟩ := List.mem_map.mp member
  have some : (windowOf (ofType rows type) limit none).isEmpty = false := by
    rw [shown]
    exact notEmpty type inListed
  rw [pageOf_of_rows db doubles some]
  cases rowsOf : windowOf (ofType rows type) limit none with
  | nil => simp [rowsOf] at some
  | cons first rest =>
      obtain ⟨fewer, rfl⟩ := Nat.exists_eq_add_of_lt positive
      rfl

/-- The sections of a search, type by type. -/
theorem searchSections_eq (query : Str) (types : Finset SearchType) {limit : Nat}
    (positive : 0 < limit) (filters : EventFilters) :
    searchSections db doubles query types limit filters =
      (readFilters db (strip query) types filters).map fun keeps =>
        sectionsOf db doubles (strip query) (matched db (strip query) types filters keeps)
          limit := by
  unfold searchSections
  simp only [union_eq]
  cases readFilters db (strip query) types filters with
  | error refusal => rfl
  | ok keeps =>
      have present : ∀ row ∈ matched db (strip query) types filters keeps,
          ∃ stored ∈ db.table row.type, stored.id = row.id :=
        fun row member => matched_present db member
      have sections := sectionsFrom_eq db doubles (strip query) positive present
      cases joined : (searchTypes.filter (joins (strip query) types filters)).isEmpty with
      | true =>
          have nothing : matched db (strip query) types filters keeps = [] := by
            unfold matched
            rw [List.isEmpty_iff.mp joined]
            rfl
          simp only [Except.map, nothing]
          rfl
      | false => exact congrArg Except.ok sections

/-! ### Each type alone -/

/-- Only the events answer a date. -/
theorem dates_unanswered {type : SearchType} (other : type ≠ .event) :
    ∀ field ∈ [FilterField.occurredDateFrom, .occurredDateTo, .submittedFrom, .submittedTo],
      field ∉ typeFilters type := by
  cases type with
  | event => exact absurd rfl other
  | site => decide
  | collection => decide
  | user => decide
  | organization => decide

omit [Add Rank] [OfNat Rank 10] [LinearOrder Rank] in
omit [OfNat Rank 0] in
/-- A filter that the events refuse is one that no other type answers. -/
theorem joins_of_refused {query : Str} {types : Finset SearchType} {filters : EventFilters}
    {refusal : HttpException} (refused : db.applyFilters filters = .error refusal)
    {type : SearchType} (other : type ≠ .event) : joins query types filters type = false := by
  have dated : ∃ field ∈ [FilterField.occurredDateFrom, .occurredDateTo, .submittedFrom,
      .submittedTo], filters.isSet field = true := by
    by_contra none
    push Not at none
    obtain ⟨keeps, applied⟩ := db.applyFilters_ok filters fun field listed => by
      simpa using none field listed
    rw [refused] at applied
    cases applied
  obtain ⟨field, listed, isSet⟩ := dated
  have beyond : ∀ type ≠ SearchType.event, filters.activeBeyond (typeFilters type) = true := by
    intro type other
    apply List.any_eq_true.mpr
    have unanswered := dates_unanswered other field listed
    exact ⟨field, List.mem_filter.mpr ⟨mem_filterFields field, decide_eq_true unanswered⟩, isSet⟩
  have notOffered : offered query types filters type = false := by
    simp [offered, beyond type other]
  cases type with
  | event => exact absurd rfl other
  | site => exact notOffered
  | collection => exact notOffered
  | user => exact Bool.and_eq_false_imp.mpr fun _ => notOffered
  | organization => exact Bool.and_eq_false_imp.mpr fun _ => notOffered

omit [LinearOrder Rank] in
/-- The select of a type other than the events does not read the filters of the events. -/
theorem selected_other {query : Str} {filters : EventFilters} {type : SearchType}
    (other : type ≠ .event) (keeps others : RowId → Bool) :
    selected db query filters keeps type = selected db query filters others type := by
  cases type with
  | event => exact absurd rfl other
  | site => rfl
  | collection => rfl
  | user => rfl
  | organization => rfl

omit [LinearOrder Rank] in
/-- The union of a type alone is the part of the union that is of that type. -/
theorem matched_singleton {query : Str} {types : Finset SearchType} {filters : EventFilters}
    {type : SearchType} (asked : type ∈ types) {keeps : RowId → Bool}
    (read : readFilters db query types filters = .ok keeps) :
    ∃ alone, readFilters db query {type} filters = .ok alone ∧
      matched db query {type} filters alone =
        ofType (matched db query types filters keeps) type := by
  have part (alone : RowId → Bool)
      (same : selected db query filters alone type = selected db query filters keeps type) :
      matched db query {type} filters alone =
        ofType (matched db query types filters keeps) type := by
    unfold ofType
    rw [filter_matched, ← joins_singleton asked, ← same]
    unfold matched
    rw [filter_joins_singleton]
    by_cases joined : joins query {type} filters type = true
    · rw [if_pos joined, if_pos joined]
      exact List.flatMap_singleton _ _
    · rw [if_neg joined, if_neg joined]
      rfl
  by_cases event : type = .event
  · subst event
    have same : readFilters db query {.event} filters = readFilters db query types filters := by
      unfold readFilters
      rw [joins_singleton asked]
    exact ⟨keeps, same.trans read, part keeps rfl⟩
  · have unread : readFilters db query {type} filters = .ok fun _ => false := by
      have alone : joins query {type} filters .event = false := by
        by_contra joined
        have member := mem_of_joins (by simpa using joined : joins query {type} filters .event = true)
        exact event (Finset.mem_singleton.mp member).symm
      unfold readFilters
      rw [alone]
      rfl
    exact ⟨_, unread, part _ (selected_other db event _ _)⟩

/-- What the sections of a request have to do with the searches of its types alone. -/
structure SectionsAgree (query : Str) (types : Finset SearchType) (limit : Nat)
    (filters : EventFilters) : Prop where
  /-- A type has a section when its search has a hit. -/
  listed : ∀ sections, searchSections db doubles query types limit filters = .ok sections →
    ∀ type, (∃ served ∈ sections, served.type = type) ↔
      type ∈ types ∧ ∃ page, search db doubles query {type} limit filters none = .ok page ∧
        page.hits ≠ []
  /-- A section is the first page of that search. -/
  same : ∀ sections, searchSections db doubles query types limit filters = .ok sections →
    ∀ served ∈ sections, search db doubles query {served.type} limit filters none =
      .ok ⟨served.hits, served.total, served.cursor⟩
  /-- The sections are in the order of the types, one for each. -/
  ordered : ∀ sections, searchSections db doubles query types limit filters = .ok sections →
    (sections.map SearchSection.type).Sublist searchTypes
  /-- A refused request is one whose events are refused, and no other type has a hit. -/
  refused : ∀ refusal, searchSections db doubles query types limit filters = .error refusal →
    .event ∈ types ∧ search db doubles query {.event} limit filters none = .error refusal ∧
      ∀ type ≠ .event, search db doubles query {type} limit filters none = .ok ⟨[], 0, none⟩

omit [Add Rank] [OfNat Rank 0] [OfNat Rank 10] in
theorem hits_pageOf {query : Str} {rows : List (Candidate Rank)} {limit : Nat}
    (positive : 0 < limit) (after : Option (RankedKey Rank)) :
    (pageOf db doubles query rows limit after).hits ≠ [] ↔
      (windowOf rows limit after).isEmpty = false := by
  cases shown : (windowOf rows limit after).isEmpty with
  | true => simp [pageOf, shown]
  | false =>
      rw [pageOf_of_rows db doubles shown]
      simp only [ne_eq, List.map_eq_nil_iff, List.take_eq_nil_iff, not_or, iff_true]
      exact ⟨positive.ne', List.isEmpty_eq_false_iff.mp shown⟩

/-- Served sections are those of the rows of the union. -/
theorem sections_of_ok {query : Str} {types : Finset SearchType} {limit : Nat}
    (positive : 0 < limit) {filters : EventFilters} {sections : List (SearchSection Content)}
    (found : searchSections db doubles query types limit filters = .ok sections) :
    ∃ keeps, readFilters db (strip query) types filters = .ok keeps ∧ sections =
      sectionsOf db doubles (strip query) (matched db (strip query) types filters keeps) limit := by
  rw [searchSections_eq db doubles query types positive] at found
  cases read : readFilters db (strip query) types filters with
  | error refusal =>
      rw [read] at found
      cases found
  | ok keeps =>
      rw [read] at found
      cases found
      exact ⟨keeps, rfl, rfl⟩

omit [Add Rank] [OfNat Rank 0] [OfNat Rank 10] [LinearOrder Rank] in
/-- Filters are refused when the events join and refuse them. -/
theorem refused_of_error {query : Str} {types : Finset SearchType} {filters : EventFilters}
    {refusal : HttpException} (refused : readFilters db query types filters = .error refusal) :
    joins query types filters .event = true ∧ db.applyFilters filters = .error refusal := by
  unfold readFilters at refused
  by_cases joined : joins query types filters .event = true
  · rw [if_pos joined] at refused
    exact ⟨joined, refused⟩
  · rw [if_neg joined] at refused
    cases refused

/-- A type that does not join has no hit. -/
theorem search_of_not_joins {query : Str} {limit : Nat} {filters : EventFilters}
    {type : SearchType} (alone : joins (strip query) {type} filters type = false) :
    search db doubles query {type} limit filters none = .ok ⟨[], 0, none⟩ := by
  have none : searchTypes.filter (joins (strip query) {type} filters) = [] := by
    rw [filter_joins_singleton, alone]
    rfl
  have unread : readFilters db (strip query) {type} filters = .ok fun _ => false := by
    have event : joins (strip query) {type} filters .event = false := by
      simpa using List.filter_eq_nil_iff.mp none .event (mem_searchTypes _)
    unfold readFilters
    rw [event]
    rfl
  have nothing : matched db (strip query) {type} filters (fun _ => false) = [] := by
    unfold matched
    rw [none]
    rfl
  rw [search_eq, unread]
  simp only [Except.map, nothing]
  rfl

theorem sectionsAgree (query : Str) (types : Finset SearchType) {limit : Nat}
    (positive : 0 < limit) (filters : EventFilters) :
    SectionsAgree db doubles query types limit filters := by
  have alone : ∀ keeps, readFilters db (strip query) types filters = .ok keeps →
      ∀ type ∈ types, search db doubles query {type} limit filters none =
        .ok (pageOf db doubles (strip query)
          (ofType (matched db (strip query) types filters keeps) type) limit none) := by
    intro keeps read type asked
    obtain ⟨own, readAlone, rows⟩ := matched_singleton db asked read
    rw [search_eq, readAlone, ← rows]
    rfl
  have asked : ∀ keeps type, (windowOf (ofType (matched db (strip query) types filters keeps)
      type) limit none).isEmpty = false → type ∈ types := by
    intro keeps type shown
    by_contra unasked
    have absent : ofType (matched db (strip query) types filters keeps) type = [] := by
      unfold ofType
      rw [filter_matched, if_neg fun joined => unasked (mem_of_joins joined)]
    rw [absent] at shown
    cases shown
  constructor
  · intro sections found type
    obtain ⟨keeps, read, rfl⟩ := sections_of_ok db doubles positive found
    constructor
    · rintro ⟨_, member, rfl⟩
      obtain ⟨type, inTypes, rfl⟩ := List.mem_map.mp member
      have shown : (windowOf (ofType (matched db (strip query) types filters keeps) type) limit
          none).isEmpty = false := by
        simpa using (List.mem_filter.mp inTypes).2
      have inRequest := asked keeps type shown
      exact ⟨inRequest, _, alone keeps read type inRequest,
        (hits_pageOf db doubles positive none).mpr shown⟩
    · rintro ⟨inRequest, page, searched, hits⟩
      rw [alone keeps read type inRequest] at searched
      cases searched
      have shown := (hits_pageOf db doubles positive none).mp hits
      exact ⟨_, List.mem_map_of_mem (List.mem_filter.mpr ⟨mem_searchTypes type, by simp [shown]⟩),
        rfl⟩
  · intro sections found listed member
    obtain ⟨keeps, read, rfl⟩ := sections_of_ok db doubles positive found
    obtain ⟨type, inTypes, rfl⟩ := List.mem_map.mp member
    have shown : (windowOf (ofType (matched db (strip query) types filters keeps) type) limit
        none).isEmpty = false := by
      simpa using (List.mem_filter.mp inTypes).2
    exact alone keeps read type (asked keeps type shown)
  · intro sections found
    obtain ⟨keeps, _, rfl⟩ := sections_of_ok db doubles positive found
    unfold sectionsOf
    rw [List.map_map]
    have types : (SearchSection.type ∘ fun type => sectionOf type (pageOf db doubles (strip query)
        (ofType (matched db (strip query) types filters keeps) type) limit none)) = id := rfl
    rw [types, List.map_id]
    exact List.filter_sublist
  · intro refusal found
    rw [searchSections_eq db doubles query types positive] at found
    have refused : readFilters db (strip query) types filters = .error refusal := by
      cases read : readFilters db (strip query) types filters with
      | error other =>
          rw [read] at found
          cases found
          rfl
      | ok keeps =>
          rw [read] at found
          cases found
    obtain ⟨joined, applied⟩ := refused_of_error db refused
    have events : .event ∈ types := mem_of_joins joined
    refine ⟨events, ?_, ?_⟩
    · have same : readFilters db (strip query) {.event} filters = .error refusal := by
        unfold readFilters
        rw [joins_singleton events, if_pos joined, applied]
      rw [search_eq, same]
      rfl
    · intro type other
      exact search_of_not_joins db doubles (joins_of_refused db applied other)

/-! ### Walking the pages -/

/-- The pages a client reads by following the cursors of a list. -/
inductive SearchWalk (fetch : Option Str → Except HttpException (SearchPage Content)) :
    Option Str → List (SearchPage Content) → Prop where
  | last {cursor : Option Str} {page : SearchPage Content} :
      fetch cursor = .ok page → page.cursor = none → SearchWalk fetch cursor [page]
  | more {cursor : Option Str} {page : SearchPage Content} {next : Str}
      {pages : List (SearchPage Content)} :
      fetch cursor = .ok page → page.cursor = some next → SearchWalk fetch (some next) pages →
        SearchWalk fetch cursor (page :: pages)

/-- No two walks start with the same fetch. -/
theorem SearchWalk.unique {fetch : Option Str → Except HttpException (SearchPage Content)}
    {cursor : Option Str} {left right : List (SearchPage Content)}
    (walk : SearchWalk fetch cursor left) (other : SearchWalk fetch cursor right) :
    left = right := by
  induction walk generalizing right with
  | last fetched ends =>
      cases other with
      | last fetched' _ =>
          rw [fetched] at fetched'
          cases fetched'
          rfl
      | more fetched' goes _ =>
          rw [fetched] at fetched'
          cases fetched'
          rw [ends] at goes
          cases goes
  | more fetched goes _ inductionHypothesis =>
      cases other with
      | last fetched' ends =>
          rw [fetched] at fetched'
          cases fetched'
          rw [ends] at goes
          cases goes
      | more fetched' goes' later =>
          rw [fetched] at fetched'
          cases fetched'
          rw [goes] at goes'
          cases goes'
          rw [inductionHypothesis later]

/-- The order of the ranked list. -/
def Outranks (left right : Candidate Rank) : Prop :=
  ranking right.toHit < ranking left.toHit

/-- The cursor of a row. -/
def cursorOf (row : Candidate Rank) : Str :=
  encodeRankedCursor doubles row.rank row.createdAt row.id

omit [Add Rank] [OfNat Rank 0] [OfNat Rank 10] in
/-- The ranked list has no ties where no two rows share an id. -/
theorem pairwise_sortedBy {rows : List (Candidate Rank)}
    (distinct : (rows.map fun row => row.id).Nodup) :
    (sortedBy ranksBefore rows).Pairwise Outranks := by
  have total : Std.Total fun left right : Candidate Rank => ranksBefore left right = true :=
    ⟨fun left right => by simpa [ranksBefore] using le_total _ _⟩
  have transitive : IsTrans (Candidate Rank) fun left right => ranksBefore left right = true :=
    ⟨fun _ _ _ first second => by
      simp only [ranksBefore, decide_eq_true_eq] at *
      exact second.trans first⟩
  have sorted : (sortedBy ranksBefore rows).Pairwise fun left right =>
      ranksBefore left right = true :=
    List.pairwise_insertionSort _ rows
  have apart : ((sortedBy ranksBefore rows).map fun row => row.id).Nodup :=
    ((sortedBy_perm ranksBefore rows).map _).nodup_iff.mpr distinct
  rw [List.Nodup, List.pairwise_map] at apart
  apply (sorted.and apart).imp
  intro left right ⟨ordered, different⟩
  apply lt_of_le_of_ne (of_decide_eq_true ordered)
  intro same
  simp only [ranking, EmbeddingLike.apply_eq_iff_eq, Prod.mk.injEq] at same
  exact different same.2.2.symm

omit [Add Rank] [OfNat Rank 0] [OfNat Rank 10] in
/-- The rows after a row of the ranked list are the rest of the list. -/
theorem windowOf_after {rows : List (Candidate Rank)}
    (distinct : (rows.map fun row => row.id).Nodup) {front rest : List (Candidate Rank)}
    {last : Candidate Rank} (split : sortedBy ranksBefore rows = front ++ last :: rest)
    (limit : Nat) :
    windowOf rows limit (some (ranking last.toHit)) = rest.take (limit + 1) := by
  have sorted := pairwise_sortedBy distinct
  have filtered : sortedBy ranksBefore
      (rows.filter (keysetBefore (fun row => ranking row.toHit) (some (ranking last.toHit)))) =
        (sortedBy ranksBefore rows).filter
          (keysetBefore (fun row => ranking row.toHit) (some (ranking last.toHit))) := by
    have kept : ((rows.filter (keysetBefore (fun row => ranking row.toHit)
        (some (ranking last.toHit)))).map fun row => row.id).Nodup :=
      distinct.sublist (List.filter_sublist.map _)
    apply List.Perm.eq_of_pairwise _ (pairwise_sortedBy kept) (sorted.filter _)
    · exact (sortedBy_perm _ _).trans ((sortedBy_perm _ _).filter _).symm
    · intro left right _ _ before after
      exact absurd before (lt_asymm after)
  rw [split, List.pairwise_append, List.pairwise_cons] at sorted
  have none : front.filter (keysetBefore (fun row => ranking row.toHit)
      (some (ranking last.toHit))) = [] := by
    apply List.filter_eq_nil_iff.mpr
    intro row member found
    exact lt_asymm (sorted.2.2 row member last List.mem_cons_self) (of_decide_eq_true found)
  have all : rest.filter (keysetBefore (fun row => ranking row.toHit)
      (some (ranking last.toHit))) = rest := by
    apply List.filter_eq_self.mpr
    intro row member
    exact decide_eq_true (sorted.2.1.1 row member)
  unfold windowOf
  rw [filtered, split, List.filter_append, List.filter_cons, none, all]
  rw [if_neg (by simp [keysetBefore]), List.nil_append]

/-- A list longer than a page, cut at the last row of the page. -/
theorem cut_at {α : Type} {items : List α} {size : Nat} (positive : 0 < size)
    (longer : size < items.length) :
    ∃ front last rest, items = front ++ last :: rest ∧ front.length + 1 = size ∧ rest ≠ [] := by
  have last : size - 1 < items.length := by omega
  refine ⟨items.take (size - 1), items[size - 1], items.drop size, ?_, ?_, ?_⟩
  · have rest : items.drop (size - 1) = items[size - 1] :: items.drop (size - 1 + 1) :=
      List.drop_eq_getElem_cons last
    rw [show size - 1 + 1 = size by omega] at rest
    rw [← rest, List.take_append_drop]
  · rw [List.length_take]
    omega
  · intro none
    have short := List.drop_eq_nil_iff.mp none
    omega

section Fetching

variable {fetch : Option Str → Except HttpException (SearchPage Content)} {query : Str}
  {rows : List (Candidate Rank)} {limit : Nat}

omit [Add Rank] [OfNat Rank 0] [OfNat Rank 10] in
/-- What a walk reads from a point of the ranked list on. -/
theorem exists_walk (positive : 0 < limit) (distinct : (rows.map fun row => row.id).Nodup)
    (later : ∀ row, fetch (some (cursorOf doubles row)) =
      .ok (pageOf db doubles query rows limit (some (ranking row.toHit))))
    {front rest : List (Candidate Rank)} (split : sortedBy ranksBefore rows = front ++ rest)
    (remains : rest ≠ []) {cursor : Option Str} {after : Option (RankedKey Rank)}
    (fetched : fetch cursor = .ok (pageOf db doubles query rows limit after))
    (window : windowOf rows limit after = rest.take (limit + 1)) :
    ∃ pages, SearchWalk fetch cursor pages ∧
      pages.flatMap SearchPage.hits = (rest.map fun row => hitOf db query row.type row.id) ∧
        ∀ page ∈ pages, page.total = rows.length := by
  induction size_eq : rest.length using Nat.strongRecOn generalizing front rest cursor after with
  | ind size inductionHypothesis =>
      have shown : (windowOf rows limit after).isEmpty = false := by
        rw [window]
        simpa using remains
      have page : pageOf db doubles query rows limit after = _ := pageOf_of_rows db doubles shown
      rw [window, List.take_take, min_eq_left (Nat.le_succ limit)] at page
      rw [page] at fetched
      by_cases longer : limit < rest.length
      · obtain ⟨init, last, tail, rfl, count, more⟩ := cut_at positive longer
        have hits : (init ++ last :: tail).take limit = init ++ [last] := by
          rw [← count, show init ++ last :: tail = (init ++ [last]) ++ tail by simp]
          exact List.take_left' (by simp)
        have next : nextCursor doubles (((init ++ last :: tail).take (limit + 1)).map
            Candidate.toHit) limit = some (cursorOf doubles last) := by
          have full : ((init ++ last :: tail).take (limit + 1)).length = limit + 1 := by
            rw [List.length_take]
            omega
          have row : ((init ++ last :: tail).take (limit + 1))[limit - 1]? = some last := by
            rw [List.getElem?_take_of_lt (by omega), ← count, Nat.add_sub_cancel]
            simp
          unfold nextCursor
          rw [List.length_map, full, if_neg (by omega), List.getElem?_map, row]
          rfl
        have split' : sortedBy ranksBefore rows = (front ++ init) ++ last :: tail := by
          rw [split, List.append_assoc]
        have rest' : sortedBy ranksBefore rows = (front ++ init ++ [last]) ++ tail := by
          rw [split']
          simp
        have fewer : tail.length < size := by
          rw [← size_eq, List.length_append, List.length_cons]
          omega
        obtain ⟨pages, walk, hits', totals⟩ := inductionHypothesis _ fewer rest' more (later last)
          (windowOf_after distinct split' limit) rfl
        rw [hits, next] at fetched
        refine ⟨_, .more fetched rfl walk, ?_, ?_⟩
        · rw [List.flatMap_cons, hits']
          simp
        · intro page member
          cases List.mem_cons.mp member with
          | inl here => rw [here]
          | inr there => exact totals page there
      · have whole : rest.take (limit + 1) = rest := List.take_of_length_le (by omega)
        have next : nextCursor doubles ((rest.take (limit + 1)).map Candidate.toHit) limit =
            none := by
          unfold nextCursor
          rw [whole, List.length_map, if_pos (by omega)]
        rw [next, List.take_of_length_le (by omega)] at fetched
        refine ⟨_, .last fetched rfl, ?_, ?_⟩
        · simp
        · intro page member
          rw [List.mem_singleton.mp member]

end Fetching

omit [LinearOrder Rank] in
/-- Row ids are distinct across the tables, and so in a union. -/
theorem distinct_matched (query : Str) (types : Finset SearchType) (filters : EventFilters)
    (keeps : RowId → Bool) :
    ((matched db query types filters keeps).map fun row => row.id).Nodup := by
  have kept : ∀ keys : List SearchType,
      (((keys.filter (joins query types filters)).flatMap
        (selected db query filters keeps)).map fun row => row.id).Sublist
          ((keys.flatMap db.table).map Row.id) := by
    intro keys
    induction keys with
    | nil => exact List.Sublist.slnil
    | cons type rest inductionHypothesis =>
        rw [List.flatMap_cons, List.map_append]
        by_cases joined : joins query types filters type = true
        · rw [List.filter_cons_of_pos joined, List.flatMap_cons, List.map_append]
          exact (selected_fromTable db query filters keeps type).ids.append inductionHypothesis
        · rw [List.filter_cons_of_neg joined]
          exact inductionHypothesis.trans (List.sublist_append_right _ _)
  exact db.distinctIds.sublist (kept searchTypes)

/-- The cursors of a search visit every match once, in rank order. -/
structure WalksOnce (other : OtherReaders) (query : Str) (types : Finset SearchType)
    (limit : Nat) (filters : EventFilters) (found : List (Candidate Rank)) : Prop where
  /-- No row ties with another, and so the order is the order of the ranks. -/
  ranked : (sortedBy ranksBefore found).Pairwise Outranks
  walk : ∃ pages, SearchWalk (readSearch db doubles other query types limit filters) none pages ∧
    (∀ others, SearchWalk (readSearch db doubles other query types limit filters) none others →
      others = pages) ∧
    (pages.flatMap SearchPage.hits) = ((sortedBy ranksBefore found).map fun row =>
      hitOf db (strip query) row.type row.id) ∧
    ((pages.flatMap SearchPage.hits).map HitRead.id).Nodup ∧
    ∀ page ∈ pages, page.total = found.length

/-- The page a cursor of the list asks for. -/
theorem readSearch_cursor (other : OtherReaders) {query : Str} {types : Finset SearchType}
    (limit : Nat) {filters : EventFilters} {keeps : RowId → Bool}
    (read : readFilters db (strip query) types filters = .ok keeps) (row : Candidate Rank) :
    readSearch db doubles other query types limit filters (some (cursorOf doubles row)) =
      .ok (pageOf db doubles (strip query) (matched db (strip query) types filters keeps) limit
        (some (ranking row.toHit))) := by
  have decoded := decodeRankedCursor_encodeRankedCursor doubles other row.rank row.createdAt row.id
  unfold readSearch cursorOf
  rw [mapM_some decoded]
  show search db doubles query types limit filters (some (row.rank, row.createdAt, row.id)) = _
  rw [search_eq, read]
  rfl

omit [LinearOrder Rank] in
/-- The rows of a union that is read. -/
theorem rows_of_union {query : Str} {types : Finset SearchType} {filters : EventFilters}
    {found : Option (List (Candidate Rank))} (united : union db query types filters = .ok found) :
    ∃ keeps, readFilters db query types filters = .ok keeps ∧
      found.getD [] = matched db query types filters keeps := by
  rw [union_eq] at united
  cases read : readFilters db query types filters with
  | error refusal =>
      rw [read] at united
      cases united
  | ok keeps =>
      rw [read] at united
      cases united
      refine ⟨keeps, rfl, ?_⟩
      beta_reduce
      by_cases empty : (searchTypes.filter (joins query types filters)).isEmpty = true
      · rw [if_pos empty]
        unfold matched
        rw [List.isEmpty_iff.mp empty]
        rfl
      · rw [if_neg empty]
        rfl

theorem walksOnce (other : OtherReaders) (query : Str) (types : Finset SearchType) {limit : Nat}
    (positive : 0 < limit) (filters : EventFilters) {found : Option (List (Candidate Rank))}
    (united : union db (strip query) types filters = .ok found) :
    WalksOnce db doubles other query types limit filters (found.getD []) := by
  obtain ⟨keeps, read, rows⟩ := rows_of_union db united
  rw [rows]
  have distinct := distinct_matched db (strip query) types filters keeps
  set all := matched db (strip query) types filters keeps
  have first : readSearch db doubles other query types limit filters none =
      .ok (pageOf db doubles (strip query) all limit none) := by
    show search db doubles query types limit filters none = _
    rw [search_eq, read]
    rfl
  have window : windowOf all limit none = (sortedBy ranksBefore all).take (limit + 1) := by
    have whole : all.filter (keysetBefore (fun row => ranking row.toHit) none) = all :=
      List.filter_eq_self.mpr fun _ _ => rfl
    unfold windowOf
    rw [whole]
  have sorted := pairwise_sortedBy distinct
  have once : (((sortedBy ranksBefore all).map fun row =>
      hitOf db (strip query) row.type row.id).map HitRead.id).Nodup := by
    rw [List.map_map]
    exact ((sortedBy_perm ranksBefore all).map _).nodup_iff.mpr distinct
  refine ⟨sorted, ?_⟩
  by_cases empty : sortedBy ranksBefore all = []
  · have page : pageOf db doubles (strip query) all limit none = ⟨[], 0, none⟩ := by
      unfold pageOf
      rw [window, empty]
      rfl
    have nothing : all = [] := List.perm_nil.mp (empty ▸ (sortedBy_perm ranksBefore all).symm)
    rw [page] at first
    refine ⟨_, .last first rfl, fun others walk => walk.unique (.last first rfl), ?_, ?_, ?_⟩
    · rw [empty]
      rfl
    · exact List.nodup_nil
    · intro page member
      rw [List.mem_singleton.mp member, nothing]
      rfl
  · have start : sortedBy ranksBefore all = [] ++ sortedBy ranksBefore all := rfl
    obtain ⟨pages, walk, hits, totals⟩ := exists_walk db doubles positive distinct
      (readSearch_cursor db doubles other limit read) start empty first window
    exact ⟨pages, walk, fun others walked => walked.unique walk, hits, hits ▸ once, totals⟩

/-- Sections and searches of one database state. -/
structure SearchAgrees (other : OtherReaders) : Prop where
  sections : ∀ query types limit filters, 0 < limit →
    SectionsAgree db doubles query types limit filters
  walks : ∀ query types limit filters found, 0 < limit →
    union db (strip query) types filters = .ok found →
      WalksOnce db doubles other query types limit filters (found.getD [])

/-- The sections are the searches of their types, and a search is walked once. -/
theorem searchAgrees (other : OtherReaders) : SearchAgrees db doubles other where
  sections query types _ filters positive := sectionsAgree db doubles query types positive filters
  walks query types _ filters _ positive united :=
    walksOnce db doubles other query types positive filters united

end Reads

end Vidit.Search
