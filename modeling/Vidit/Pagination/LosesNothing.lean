import Vidit.Pagination.Lists

/-!
Contract: following the next cursors of a list loses and repeats no row.

The rows come and go between two fetches: each fetch finds some of a finite set
of rows, and a row's own values do not change.

Owns:
- `LosesNothing`, for a list read page by page;
- that the items of a collection, the versions of an event, the events of a view
  and the hits of a search are such lists.

Proof shape: each window is the keyset window of its key, read downwards where
the list is descending; `walk_keyset` does the rest, with the round trip of the
cursor at every page but the first.
-/

namespace Vidit.Pagination

open Vidit.Python Vidit.Calendar Vidit.Points Vidit.Library

/-- However the rows come and go between the fetches, the walk from the first
page ends. It reads in the declared order, no row twice, only rows a fetch found,
and every row that stayed throughout; and no page with a next cursor is empty. -/
def LosesNothing {Row ι : Type}
    (list : List Row → Nat → Option Str → Except HttpException (Page Row Str)) (id : Row → ι)
    (before : Row → Row → Prop) : Prop :=
  ∀ (rows : List Row) (present : Nat → List Row) (limit : Nat), 0 < limit →
    (rows.map id).Nodup → (∀ n, present n ⊆ rows ∧ (present n).Nodup) →
      ∃ pages, Walk (fun n cursor => list (present n) limit cursor) 0 none pages ∧
        (visited pages).Pairwise before ∧ (visited pages).Nodup ∧
        (∀ index page, pages[index]? = some page → ∀ row ∈ page.rows, row ∈ present index) ∧
        (∀ row, (∀ index < pages.length, row ∈ present index) → row ∈ visited pages) ∧
        ∀ page ∈ pages, page.next ≠ none → page.rows ≠ []

section Window

variable {Row Key : Type} [LinearOrder Key] {key : Row → Key} {present : List Row}
  {after : Option Key} {limit : Nat}

/-- `ORDER BY columns` of the rows after the cursor. -/
theorem window_ascending :
    (sortedBy (fun left right => decide (key left ≤ key right))
      (present.filter (keysetAfter key after))).take limit = keysetWindow key present after limit := by
  have filtered : present.filter (keysetAfter key after) =
      present.filter fun row => IsAfter key after row := by
    apply List.filter_congr
    intro row _
    cases after with
    | none => exact (decide_eq_true trivial).symm
    | some cursor => simp [keysetAfter, IsAfter]
  unfold keysetWindow rowsAfter sortedBy
  rw [filtered]
  simp only [decide_eq_true_eq]

/-- `ORDER BY columns DESC` is the order of the keys read downwards. -/
theorem window_descending :
    (sortedBy (fun left right => decide (key right ≤ key left))
      (present.filter (keysetBefore key after))).take limit =
        keysetWindow (fun row => OrderDual.toDual (key row)) present (after.map OrderDual.toDual)
          limit := by
  have filtered : present.filter (keysetBefore key after) =
      present.filter fun row =>
        IsAfter (fun row => OrderDual.toDual (key row)) (after.map OrderDual.toDual) row := by
    apply List.filter_congr
    intro row _
    cases after with
    | none => exact (decide_eq_true trivial).symm
    | some cursor => simp [keysetBefore, IsAfter]
  unfold keysetWindow rowsAfter sortedBy
  rw [filtered]
  simp only [decide_eq_true_eq, OrderDual.toDual_le_toDual]

end Window

/-- A list that answers each cursor it minted with the keyset window after it. -/
theorem losesNothing_of_keyset {Row ι Key : Type} [LinearOrder Key]
    {list : List Row → Nat → Option Str → Except HttpException (Page Row Str)} {id : Row → ι}
    {before : Row → Row → Prop} (key : Row → Key) (cursorOf : Row → Str) (size : Nat → Nat)
    (positive : ∀ limit, 0 < limit → 0 < size limit)
    (ordered : ∀ left right, key left < key right → before left right)
    (identifies : ∀ left right, key left = key right → id left = id right)
    (first : ∀ present limit, 0 < limit → list present limit none =
      .ok (cutPage (size limit) cursorOf (keysetWindow key present none (size limit + 1))))
    (later : ∀ present limit, 0 < limit → ∀ row, list present limit (some (cursorOf row)) =
      .ok (cutPage (size limit) cursorOf
        (keysetWindow key present (some (key row)) (size limit + 1)))) :
    LosesNothing list id before := by
  intro rows present limit isPositive distinctIds within
  have distinct : ∀ left ∈ rows, ∀ right ∈ rows, key left = key right → left = right :=
    fun left leftMember right rightMember same =>
      List.inj_on_of_nodup_map distinctIds leftMember rightMember (identifies left right same)
  rcases walk_keyset (positive limit isPositive) (fun n => (within n).1) (fun n => (within n).2)
      distinct (fun n row _ => later (present n) limit isPositive row)
      (first (present 0) limit isPositive) with
    ⟨pages, walk, reads⟩
  refine ⟨pages, walk, ?_, ?_, ?_, ?_, reads.nonempty⟩
  · exact reads.ordered.imp fun sorted => ordered _ _ sorted
  · exact reads.ordered.imp fun sorted same => (same ▸ sorted).false
  · intro index page found row member
    simpa using reads.sound index page found row member
  · intro row always
    exact reads.complete row (fun index small => by simpa using always index small) trivial

theorem pageSize_pos (limit : Nat) (positive : 0 < limit) : 0 < pageSize limit :=
  lt_min positive (by decide)

theorem mapM_none {α β ε : Type} (read : α → Except ε β) : (none : Option α).mapM read = .ok none :=
  rfl

theorem mapM_some {α β ε : Type} {read : α → Except ε β} {value : α} {result : β}
    (isRead : read value = .ok result) : (some value).mapM read = .ok (some result) := by
  show (some <$> read value) = _
  rw [isRead]
  rfl

/-! ### The items of a collection -/

theorem listItems_eq (present : List Item) (limit : Nat)
    (cursor : Option (Date × Time × Datetime × RowId)) :
    listItems present limit cursor =
      keysetWindow chronologicalKey present (cursor.map chronological) (limit + 1) :=
  window_ascending

theorem itemsPage_losesNothing (other : OtherReaders) :
    LosesNothing (itemsPage other) Item.id fun left right =>
      chronologicalKey left < chronologicalKey right := by
  refine losesNothing_of_keyset chronologicalKey (fun item => encodeChronologicalCursor
    (item.occurredDate.getD noDate) (item.occurredTime.getD noTime) item.createdAt item.id)
    pageSize pageSize_pos (fun _ _ sorted => sorted) ?_ ?_ ?_
  · intro left right same
    simp only [chronologicalKey, EmbeddingLike.apply_eq_iff_eq, Prod.mk.injEq] at same
    exact same.2.2.2
  · intro present limit _
    show Except.ok (paged (listItems present (pageSize limit) none) (pageSize limit) _) = _
    rw [listItems_eq]
    rfl
  · intro present limit _ item
    have read := decodeChronologicalCursor_encodeChronologicalCursor other
      (item.occurredDate.getD noDate) (item.occurredTime.getD noTime) item.createdAt item.id
    unfold itemsPage
    rw [mapM_some read]
    show Except.ok (paged (listItems present (pageSize limit) (some _)) (pageSize limit) _) = _
    rw [listItems_eq]
    rfl

/-! ### The versions of an event -/

theorem listVersions_eq (present : List Version) (limit : Nat) (cursor : Option Int) :
    listVersions present limit cursor =
      keysetWindow (fun version => OrderDual.toDual version.versionNo) present
        (cursor.map OrderDual.toDual) (limit + 1) :=
  window_descending

theorem versionsPage_losesNothing (other : OtherReaders) :
    LosesNothing (versionsPage other) Version.versionNo fun left right =>
      right.versionNo < left.versionNo := by
  refine losesNothing_of_keyset (fun version => OrderDual.toDual version.versionNo)
    (fun version => encodeOrdinalCursor version.versionNo) pageSize pageSize_pos
    (fun _ _ sorted => sorted) (fun _ _ same => same) ?_ ?_
  · intro present limit _
    show Except.ok (paged (listVersions present (pageSize limit) none) (pageSize limit) _) = _
    rw [listVersions_eq]
    rfl
  · intro present limit _ version
    have low : -2 ^ 63 ≤ version.versionNo := le_trans (by decide) version.inRange.1
    have high : version.versionNo < 2 ^ 64 := version.inRange.2.trans (by decide)
    have read := decodeOrdinalCursor_encodeOrdinalCursor other low high
    unfold versionsPage
    rw [mapM_some read]
    show Except.ok (paged (listVersions present (pageSize limit) (some _)) (pageSize limit) _) = _
    rw [listVersions_eq]
    rfl

/-! ### The events of a view -/

theorem listEvents_oldest (present : List EventKey) (limit : Nat)
    (cursor : Option (Datetime × RowId)) :
    listEvents true present limit cursor =
      keysetWindow createdKey present (cursor.map fun values => toLex (values.1, values.2))
        (limit + 1) :=
  window_ascending

theorem listEvents_newest (present : List EventKey) (limit : Nat)
    (cursor : Option (Datetime × RowId)) :
    listEvents false present limit cursor =
      keysetWindow (fun event => OrderDual.toDual (createdKey event)) present
        ((cursor.map fun values => (toLex (values.1, values.2) : CreatedKey)).map OrderDual.toDual)
        (limit + 1) :=
  window_descending

theorem createdKey_identifies {left right : EventKey} (same : createdKey left = createdKey right) :
    left.id = right.id := by
  simp only [createdKey, EmbeddingLike.apply_eq_iff_eq, Prod.mk.injEq] at same
  exact same.2

theorem oldestPage_losesNothing (other : OtherReaders) :
    LosesNothing (eventsPage true other) EventKey.id fun left right =>
      createdKey left < createdKey right := by
  refine losesNothing_of_keyset createdKey (fun event => encodeCursor event.createdAt event.id)
    pageSize pageSize_pos (fun _ _ sorted => sorted) (fun _ _ => createdKey_identifies) ?_ ?_
  · intro present limit _
    show Except.ok (paged (listEvents true present (pageSize limit) none) (pageSize limit) _) = _
    rw [listEvents_oldest]
    rfl
  · intro present limit _ event
    unfold eventsPage
    rw [mapM_some (decodeCursor_encodeCursor other event.createdAt event.id)]
    show Except.ok (paged (listEvents true present (pageSize limit) (some _)) (pageSize limit) _) =
      _
    rw [listEvents_oldest]
    rfl

theorem newestPage_losesNothing (other : OtherReaders) :
    LosesNothing (eventsPage false other) EventKey.id fun left right =>
      createdKey right < createdKey left := by
  refine losesNothing_of_keyset (fun event => OrderDual.toDual (createdKey event))
    (fun event => encodeCursor event.createdAt event.id) pageSize pageSize_pos
    (fun _ _ sorted => sorted) (fun _ _ => createdKey_identifies) ?_ ?_
  · intro present limit _
    show Except.ok (paged (listEvents false present (pageSize limit) none) (pageSize limit) _) = _
    rw [listEvents_newest]
    rfl
  · intro present limit _ event
    unfold eventsPage
    rw [mapM_some (decodeCursor_encodeCursor other event.createdAt event.id)]
    show Except.ok (paged (listEvents false present (pageSize limit) (some _)) (pageSize limit) _) =
      _
    rw [listEvents_newest]
    rfl

/-! ### The hits of a search -/

section Search

variable {Rank : Type} [LinearOrder Rank] (doubles : Doubles Rank)

theorem searchRows_eq (present : List (Hit Rank)) (limit : Nat)
    (after : Option (Rank × Datetime × RowId)) :
    searchRows present limit after =
      keysetWindow (fun hit => OrderDual.toDual (ranking hit)) present
        ((after.map fun values =>
          (toLex (values.1, toLex (values.2.1, values.2.2)) : RankedKey Rank)).map
            OrderDual.toDual) (limit + 1) :=
  window_descending

omit [LinearOrder Rank] in
/-- The row before the cut is the last row of the page. -/
theorem nextCursor_eq (rows : List (Hit Rank)) {limit : Nat} (positive : 0 < limit) :
    nextCursor doubles rows limit =
      (cutPage limit (fun hit => encodeRankedCursor doubles hit.rank hit.createdAt hit.id)
        rows).next := by
  unfold nextCursor cutPage
  by_cases overfull : limit < rows.length
  · simp only [if_pos overfull, if_neg (not_le.mpr overfull), List.getLast?_take]
    rw [if_neg (by omega), List.getElem?_eq_getElem (by omega)]
    rfl
  · simp only [if_neg overfull, if_pos (not_lt.mp overfull)]

theorem searchPage_losesNothing (other : OtherReaders) :
    LosesNothing (searchPage doubles other) Hit.id fun left right =>
      ranking right < ranking left := by
  refine losesNothing_of_keyset (fun hit => OrderDual.toDual (ranking hit))
    (fun hit => encodeRankedCursor doubles hit.rank hit.createdAt hit.id) id (fun _ => id)
    (fun _ _ sorted => sorted) ?_ ?_ ?_
  · intro left right same
    simp only [ranking, EmbeddingLike.apply_eq_iff_eq, Prod.mk.injEq] at same
    exact same.2.2
  · intro present limit positive
    show Except.ok ({ rows := _, next := _ } : Page (Hit Rank) Str) = _
    rw [nextCursor_eq doubles _ positive, searchRows_eq]
    rfl
  · intro present limit positive hit
    have read := decodeRankedCursor_encodeRankedCursor doubles other hit.rank hit.createdAt hit.id
    unfold searchPage
    rw [mapM_some read]
    show Except.ok ({ rows := _, next := _ } : Page (Hit Rank) Str) = _
    rw [nextCursor_eq doubles _ positive, searchRows_eq]
    rfl

end Search

/-! ### Every list of the module -/

/-- Each cursor decodes to the values it was encoded from. -/
structure CursorsRoundTrip {Rank : Type} (other : OtherReaders) (doubles : Doubles Rank) :
    Prop where
  created : ∀ createdAt rowId,
    decodeCursor other (encodeCursor createdAt rowId) = .ok (createdAt, rowId)
  ordinal : ∀ version : Version,
    decodeOrdinalCursor other (encodeOrdinalCursor version.versionNo) = .ok version.versionNo
  chronological : ∀ item : Item,
    decodeChronologicalCursor other
      (encodeChronologicalCursor (cursorValues item).1 (cursorValues item).2.1
        (cursorValues item).2.2.1 (cursorValues item).2.2.2) = .ok (cursorValues item)
  ranked : ∀ rank createdAt rowId,
    decodeRankedCursor doubles other (encodeRankedCursor doubles rank createdAt rowId) =
      .ok (rank, createdAt, rowId)

/-- Every ordering the module offers, read from the first page to the last. -/
theorem keysetWalks {Rank : Type} [LinearOrder Rank] (other : OtherReaders)
    (doubles : Doubles Rank) :
    LosesNothing (versionsPage other) Version.versionNo
        (fun left right => right.versionNo < left.versionNo) ∧
      LosesNothing (itemsPage other) Item.id
        (fun left right => chronologicalKey left < chronologicalKey right) ∧
      LosesNothing (searchPage doubles other) Hit.id
        (fun left right => ranking right < ranking left) ∧
      LosesNothing (eventsPage false other) EventKey.id
        (fun left right => createdKey right < createdKey left) ∧
      LosesNothing (eventsPage true other) EventKey.id
        (fun left right => createdKey left < createdKey right) ∧
      CursorsRoundTrip other doubles :=
  ⟨versionsPage_losesNothing other, itemsPage_losesNothing other,
    searchPage_losesNothing doubles other, newestPage_losesNothing other,
    oldestPage_losesNothing other,
    { created := decodeCursor_encodeCursor other
      ordinal := fun version => decodeOrdinalCursor_encodeOrdinalCursor other
        (le_trans (by decide) version.inRange.1) (version.inRange.2.trans (by decide))
      chronological := fun item => decodeChronologicalCursor_encodeChronologicalCursor other
        _ _ _ _
      ranked := decodeRankedCursor_encodeRankedCursor doubles other }⟩

end Vidit.Pagination
