import Vidit.Pagination.Cursors

/-!
Contract: the lists served page by page from a cursor.

Owns:
- `page_size`, `paged`, and the two keyset predicates;
- a collection's items, in the order the events happened;
- an event's versions, newest first;
- the hits of a search, best first;
- the events of a view, newest or oldest first.

Each list is read at one instant, from the rows its query matches then.

Does not own: which rows a query matches, and the `Link` header a next cursor is
sent in.
-/

namespace Vidit.Pagination

open Vidit.Python Vidit.Calendar Vidit.Points Vidit.Library

/-- `MAX_PAGE_SIZE`. -/
def maxPageSize : Nat := 100

def pageSize (requested : Nat) : Nat :=
  min requested maxPageSize

/-- `paged`: the page of an over-fetched window, with the cursor of its last row
when the window holds one row more. -/
def paged {Row : Type} (window : List Row) (size : Nat) (cursorOf : Row → Str) : Page Row Str where
  rows := window.take size
  next := if size < window.length then (window.take size).getLast?.map cursorOf else none

section Predicates

variable {Row Key : Type} [LinearOrder Key]

/-- `keyset_after`: the row comparison `columns > cursor`. -/
def keysetAfter (columns : Row → Key) (cursor : Option Key) (row : Row) : Bool :=
  match cursor with
  | none => true
  | some cursor => cursor < columns row

/-- `keyset_before`: the row comparison `columns < cursor`. -/
def keysetBefore (columns : Row → Key) (cursor : Option Key) (row : Row) : Bool :=
  match cursor with
  | none => true
  | some cursor => columns row < cursor

end Predicates

/-! ### The items of a collection -/

/-- An event of a collection, as the list orders it. -/
structure Item where
  id : RowId
  occurredDate : Option Date
  occurredTime : Option Time
  createdAt : Datetime
deriving DecidableEq

/-- `NO_DATE`. -/
def noDate : Date := ⟨9999, 12, 31, by decide⟩

/-- `NO_TIME`. -/
def noTime : Time := ⟨23, 59, 59, 999999, by decide⟩

abbrev ChronologicalKey := Date ×ₗ Time ×ₗ Datetime ×ₗ RowId

def chronological (values : Date × Time × Datetime × RowId) : ChronologicalKey :=
  toLex (values.1, toLex (values.2.1, toLex (values.2.2.1, values.2.2.2)))

/-- `chronological_key`. -/
def chronologicalKey (item : Item) : ChronologicalKey :=
  toLex (item.occurredDate.getD noDate, toLex (item.occurredTime.getD noTime,
    toLex (item.createdAt, item.id)))

/-- `cursor_values`. -/
def cursorValues (item : Item) : Date × Time × Datetime × RowId :=
  (item.occurredDate.getD noDate, item.occurredTime.getD noTime, item.createdAt, item.id)

/-- `list_items`. -/
def listItems (present : List Item) (limit : Nat)
    (cursor : Option (Date × Time × Datetime × RowId)) : List Item :=
  let query := present.filter (keysetAfter chronologicalKey (cursor.map chronological))
  (sortedBy (fun left right => chronologicalKey left ≤ chronologicalKey right) query).take
    (limit + 1)

/-- A page of a collection's items. -/
def itemsPage (other : OtherReaders) (present : List Item) (limit : Nat) (cursor : Option Str) :
    Except HttpException (Page Item Str) := do
  let size := pageSize limit
  let after ← cursor.mapM (decodeChronologicalCursor other)
  pure (paged (listItems present size after) size fun item =>
    let (occurredDate, occurredTime, createdAt, id) := cursorValues item
    encodeChronologicalCursor occurredDate occurredTime createdAt id)

/-! ### The versions of an event -/

/-- A superseded version, as its list orders it. The number is unique within an
event, and a column of four bytes. -/
structure Version where
  versionNo : Int
  inRange : -2 ^ 31 ≤ versionNo ∧ versionNo < 2 ^ 31
deriving DecidableEq

/-- `list_versions`. -/
def listVersions (present : List Version) (limit : Nat) (cursor : Option Int) : List Version :=
  let query := present.filter (keysetBefore Version.versionNo cursor)
  (sortedBy (fun left right => right.versionNo ≤ left.versionNo) query).take (limit + 1)

/-- A page of an event's history. -/
def versionsPage (other : OtherReaders) (present : List Version) (limit : Nat)
    (cursor : Option Str) : Except HttpException (Page Version Str) := do
  let size := pageSize limit
  let after ← cursor.mapM (decodeOrdinalCursor other)
  pure (paged (listVersions present size after) size fun version =>
    encodeOrdinalCursor version.versionNo)

/-! ### Events -/

/-- An event, as its list orders it. -/
structure EventKey where
  id : RowId
  createdAt : Datetime
deriving DecidableEq

abbrev CreatedKey := Datetime ×ₗ RowId

def createdKey (event : EventKey) : CreatedKey :=
  toLex (event.createdAt, event.id)

/-- The window of ids of `list_events`. -/
def listEvents (oldest : Bool) (present : List EventKey) (limit : Nat)
    (cursor : Option (Datetime × RowId)) : List EventKey :=
  let after : Option CreatedKey := cursor.map fun values => toLex (values.1, values.2)
  if oldest then
    (sortedBy (fun left right => createdKey left ≤ createdKey right)
      (present.filter (keysetAfter createdKey after))).take (limit + 1)
  else
    (sortedBy (fun left right => createdKey right ≤ createdKey left)
      (present.filter (keysetBefore createdKey after))).take (limit + 1)

/-- A page of `list_events`. -/
def eventsPage (oldest : Bool) (other : OtherReaders) (present : List EventKey) (limit : Nat)
    (cursor : Option Str) : Except HttpException (Page EventKey Str) := do
  let size := pageSize limit
  let after ← cursor.mapM (decodeCursor other)
  pure (paged (listEvents oldest present size after) size fun event =>
    encodeCursor event.createdAt event.id)

/-! ### The hits of a search -/

section Search

variable {Rank : Type} [LinearOrder Rank] (doubles : Doubles Rank)

/-- A candidate of a search. -/
structure Hit (Rank : Type) where
  id : RowId
  rank : Rank
  createdAt : Datetime
deriving DecidableEq

abbrev RankedKey (Rank : Type) := Rank ×ₗ Datetime ×ₗ RowId

/-- `_ranking`, ascending. -/
def ranking (hit : Hit Rank) : RankedKey Rank :=
  toLex (hit.rank, toLex (hit.createdAt, hit.id))

/-- `_next_cursor`. -/
def nextCursor (rows : List (Hit Rank)) (limit : Nat) : Option Str :=
  if rows.length ≤ limit then none
  else rows[limit - 1]?.map fun last => encodeRankedCursor doubles last.rank last.createdAt last.id

/-- The rows `search` reads. -/
def searchRows (present : List (Hit Rank)) (limit : Nat)
    (after : Option (Rank × Datetime × RowId)) : List (Hit Rank) :=
  let after : Option (RankedKey Rank) :=
    after.map fun values => toLex (values.1, toLex (values.2.1, values.2.2))
  (sortedBy (fun left right => ranking right ≤ ranking left)
    (present.filter (keysetBefore ranking after))).take (limit + 1)

/-- A page of `search`. -/
def searchPage (other : OtherReaders) (present : List (Hit Rank)) (limit : Nat)
    (cursor : Option Str) : Except HttpException (Page (Hit Rank) Str) := do
  let after ← cursor.mapM (decodeRankedCursor doubles other)
  let rows := searchRows present limit after
  pure { rows := rows.take limit, next := nextCursor doubles rows limit }

end Search

end Vidit.Pagination
