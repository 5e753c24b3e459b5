import Mathlib.Data.List.Sort
import Mathlib.Order.Basic

/-!
Contract: lists read page by page, from the key of the last row read.

Owns:
- `Walk`, the pages a client reads by following the next cursors, while the rows
  change between two fetches;
- `keysetWindow` and `cutPage`, the rows after a key in order, over-fetched by
  one and cut;
- `walk_keyset`: the walk ends, in order, and misses no row that stays.

Does not own: what a cursor is, and how it is written.

Proof shape: a page either holds every row after its key, or every row up to the
key of its last one (`cutPage_keysetWindow`). A next cursor leaves fewer rows of
the domain after it, which is what the walk is by induction on.
-/

namespace Vidit.Library

/-- What one fetch answers. -/
structure Page (Row Cursor : Type*) where
  rows : List Row
  next : Option Cursor

/-- The pages read by following the next cursors, from the fetch of number `n` on. -/
inductive Walk {Row Cursor ε : Type*} (fetch : Nat → Option Cursor → Except ε (Page Row Cursor)) :
    Nat → Option Cursor → List (Page Row Cursor) → Prop where
  | last {n : Nat} {after : Option Cursor} {page : Page Row Cursor} :
      fetch n after = .ok page → page.next = none → Walk fetch n after [page]
  | more {n : Nat} {after : Option Cursor} {page : Page Row Cursor} {cursor : Cursor}
      {pages : List (Page Row Cursor)} :
      fetch n after = .ok page → page.next = some cursor →
        Walk fetch (n + 1) (some cursor) pages → Walk fetch n after (page :: pages)

/-- The rows of some pages, in the order they are read. -/
def visited {Row Cursor : Type*} (pages : List (Page Row Cursor)) : List Row :=
  pages.flatMap (·.rows)

/-- No two walks start with the same fetch. -/
theorem Walk.unique {Row Cursor ε : Type*}
    {fetch : Nat → Option Cursor → Except ε (Page Row Cursor)} {n : Nat} {after : Option Cursor}
    {left right : List (Page Row Cursor)} (walk : Walk fetch n after left)
    (other : Walk fetch n after right) :
    left = right := by
  induction walk generalizing right with
  | last fetched ends =>
      cases other with
      | last fetched' _ =>
          rw [fetched] at fetched'
          cases fetched'
          rfl
      | more fetched' goes _ =>
          rw [fetched] at fetched'
          cases fetched'
          rw [ends] at goes
          cases goes
  | more fetched goes _ inductionHypothesis =>
      cases other with
      | last fetched' ends =>
          rw [fetched] at fetched'
          cases fetched'
          rw [ends] at goes
          cases goes
      | more fetched' goes' later =>
          rw [fetched] at fetched'
          cases fetched'
          rw [goes] at goes'
          cases goes'
          rw [inductionHypothesis later]

section Keyset

variable {Row Key Cursor : Type*} [LinearOrder Key] (key : Row → Key)

/-- The row comes after the key; without a key every row does. -/
def IsAfter : Option Key → Row → Prop
  | none, _ => True
  | some cursor, row => cursor < key row

instance (after : Option Key) (row : Row) : Decidable (IsAfter key after row) := by
  cases after <;> unfold IsAfter <;> infer_instance

/-- The rows after a key, in the order of their keys. -/
def rowsAfter (present : List Row) (after : Option Key) : List Row :=
  (present.filter fun row => IsAfter key after row).insertionSort fun left right =>
    key left ≤ key right

/-- The first rows after a key, up to a limit. -/
def keysetWindow (present : List Row) (after : Option Key) (limit : Nat) : List Row :=
  (rowsAfter key present after).take limit

/-- The page of an over-fetched window. -/
def cutPage (size : Nat) (cursorOf : Row → Cursor) (window : List Row) : Page Row Cursor where
  rows := window.take size
  next := if size < window.length then (window.take size).getLast?.map cursorOf else none

variable {key} {present : List Row} {after : Option Key}

@[simp] theorem mem_rowsAfter {row : Row} :
    row ∈ rowsAfter key present after ↔ row ∈ present ∧ IsAfter key after row := by
  simp [rowsAfter]

/-- The order is strict where the keys are distinct. -/
theorem pairwise_rowsAfter (nodup : present.Nodup)
    (distinct : ∀ left ∈ present, ∀ right ∈ present, key left = key right → left = right) :
    (rowsAfter key present after).Pairwise fun left right => key left < key right := by
  have sorted : (rowsAfter key present after).Pairwise fun left right => key left ≤ key right := by
    have total : Std.Total fun left right : Row => key left ≤ key right :=
      ⟨fun left right => le_total _ _⟩
    have transitive : IsTrans Row fun left right => key left ≤ key right :=
      ⟨fun _ _ _ => le_trans⟩
    exact List.pairwise_insertionSort _ _
  have different : (rowsAfter key present after).Nodup :=
    (List.perm_insertionSort _ _).nodup_iff.mpr (nodup.filter _)
  refine (sorted.and different).imp_of_mem ?_
  rintro left right leftMember rightMember ⟨ordered, apart⟩
  rw [mem_rowsAfter] at leftMember rightMember
  exact lt_of_le_of_ne ordered fun same =>
    apart (distinct left leftMember.1 right rightMember.1 same)

/-- A page in order, of rows after the key; and it holds all of them, or all of
them up to the last one, which its next cursor names. -/
structure CutsAt (key : Row → Key) (cursorOf : Row → Cursor) (present : List Row)
    (after : Option Key) (page : Page Row Cursor) : Prop where
  ordered : page.rows.Pairwise fun left right => key left < key right
  sound : ∀ row ∈ page.rows, row ∈ present ∧ IsAfter key after row
  complete :
    (page.next = none ∧ ∀ row ∈ present, IsAfter key after row → row ∈ page.rows) ∨
      ∃ last ∈ page.rows, page.next = some (cursorOf last) ∧
        (∀ row ∈ page.rows, key row ≤ key last) ∧
          ∀ row ∈ present, IsAfter key after row → key row ≤ key last → row ∈ page.rows

theorem cutPage_keysetWindow {size : Nat} (cursorOf : Row → Cursor) (positive : 0 < size)
    (nodup : present.Nodup)
    (distinct : ∀ left ∈ present, ∀ right ∈ present, key left = key right → left = right) :
    CutsAt key cursorOf present after
      (cutPage size cursorOf (keysetWindow key present after (size + 1))) := by
  have ordered : (rowsAfter key present after).Pairwise fun left right => key left < key right :=
    pairwise_rowsAfter nodup distinct
  have rows : (cutPage size cursorOf (keysetWindow key present after (size + 1))).rows =
      (rowsAfter key present after).take size := by
    simp [cutPage, keysetWindow, List.take_take]
  refine ⟨?_, ?_, ?_⟩
  · rw [rows]
    exact ordered.sublist (List.take_sublist _ _)
  · intro row member
    rw [rows] at member
    exact mem_rowsAfter.mp (List.mem_of_mem_take member)
  · by_cases overfull : size < (rowsAfter key present after).length
    · right
      have notEmpty : (rowsAfter key present after).take size ≠ [] := by
        intro none
        have length := List.length_take_of_le overfull.le
        rw [none] at length
        simp only [List.length_nil] at length
        omega
      rcases List.eq_nil_or_concat ((rowsAfter key present after).take size) with
        none | ⟨earlier, last, front⟩
      · exact absurd none notEmpty
      rw [List.concat_eq_append] at front
      have parts := List.take_append_drop size (rowsAfter key present after)
      rw [front] at parts
      rw [← parts, List.pairwise_append, List.pairwise_append] at ordered
      have upTo : ∀ row ∈ earlier ++ [last], key row ≤ key last := by
        intro row member
        rcases List.mem_append.mp member with before | isLast
        · exact (ordered.1.2.2 row before last (by simp)).le
        · rw [List.mem_singleton.mp isLast]
      refine ⟨last, by rw [rows, front]; simp, ?_, by rwa [rows, front], ?_⟩
      · have long : size < (keysetWindow key present after (size + 1)).length := by
          simp only [keysetWindow, List.length_take]
          omega
        have window : (keysetWindow key present after (size + 1)).take size =
            earlier ++ [last] := by
          rw [← front]
          simp [keysetWindow, List.take_take]
        simp [cutPage, long, window]
      · intro row here later before
        have member : row ∈ rowsAfter key present after := mem_rowsAfter.mpr ⟨here, later⟩
        rw [← parts] at member
        rcases List.mem_append.mp member with inFront | inBack
        · rwa [rows, front]
        · exact absurd before (not_le.mpr (ordered.2.2 last (by simp) row inBack))
    · left
      have short : (keysetWindow key present after (size + 1)).length ≤ size := by
        simp only [keysetWindow, List.length_take]
        omega
      refine ⟨by simp [cutPage, short], ?_⟩
      intro row here later
      rw [rows, List.take_of_length_le (by omega)]
      exact mem_rowsAfter.mpr ⟨here, later⟩

/-! ### The walk -/

/-- What a walk from the fetch of number `n` reads after a key. -/
structure ReadsAfter (key : Row → Key) (present : Nat → List Row) (n : Nat) (after : Option Key)
    (pages : List (Page Row Cursor)) : Prop where
  /-- In order, and so no row twice. -/
  ordered : (visited pages).Pairwise fun left right => key left < key right
  isAfter : ∀ row ∈ visited pages, IsAfter key after row
  /-- A row is on a page only if the page's fetch found it. -/
  sound : ∀ index, ∀ page, pages[index]? = some page → ∀ row ∈ page.rows,
    row ∈ present (n + index)
  /-- A row that every fetch of the walk could find is read. -/
  complete : ∀ row, (∀ index < pages.length, row ∈ present (n + index)) →
    IsAfter key after row → row ∈ visited pages
  /-- A page that names a next one is not empty. -/
  nonempty : ∀ page ∈ pages, page.next ≠ none → page.rows ≠ []

theorem IsAfter.trans {cursor : Key} {last row : Row} (isAfter : IsAfter key after last)
    (later : IsAfter key (some cursor) row) (isLast : key last = cursor) :
    IsAfter key after row := by
  cases after with
  | none => trivial
  | some start =>
      subst isLast
      exact lt_trans isAfter later

/-- The last page of a walk. -/
theorem readsAfter_last {present : Nat → List Row} {n : Nat} {cursorOf : Row → Cursor}
    {page : Page Row Cursor} (cut : CutsAt key cursorOf (present n) after page)
    (ends : page.next = none) :
    ReadsAfter key present n after [page] := by
  have all : ∀ row ∈ present n, IsAfter key after row → row ∈ page.rows := by
    rcases cut.complete with ⟨-, all⟩ | ⟨last, -, goes, -⟩
    · exact all
    · rw [ends] at goes
      cases goes
  refine ⟨?_, ?_, ?_, ?_, ?_⟩
  · simpa [visited] using cut.ordered
  · intro row member
    exact (cut.sound row (by simpa [visited] using member)).2
  · intro index other found row member
    cases index with
    | zero =>
        simp only [List.getElem?_cons_zero, Option.some.injEq] at found
        subst found
        exact (cut.sound row member).1
    | succ index => simp at found
  · intro row always later
    have here := always 0 (by simp)
    simpa [visited] using all row here later
  · intro other member goes
    rw [List.mem_singleton.mp member] at goes
    exact absurd ends goes

/-- A page, and the walk from its next cursor. -/
theorem readsAfter_more {present : Nat → List Row} {n : Nat} {cursorOf : Row → Cursor}
    {page : Page Row Cursor} {pages : List (Page Row Cursor)} {last : Row}
    (cut : CutsAt key cursorOf (present n) after page) (isLast : last ∈ page.rows)
    (upTo : ∀ row ∈ page.rows, key row ≤ key last)
    (all : ∀ row ∈ present n, IsAfter key after row → key row ≤ key last → row ∈ page.rows)
    (later : ReadsAfter key present (n + 1) (some (key last)) pages) :
    ReadsAfter key present n after (page :: pages) := by
  have lastAfter := (cut.sound last isLast).2
  refine ⟨?_, ?_, ?_, ?_, ?_⟩
  · show (page.rows ++ visited pages).Pairwise _
    rw [List.pairwise_append]
    refine ⟨cut.ordered, later.ordered, ?_⟩
    intro row member other otherMember
    exact (upTo row member).trans_lt (later.isAfter other otherMember)
  · intro row member
    rcases List.mem_append.mp (show row ∈ page.rows ++ visited pages from member) with here | there
    · exact (cut.sound row here).2
    · exact lastAfter.trans (later.isAfter row there) rfl
  · intro index other found row member
    cases index with
    | zero =>
        simp only [List.getElem?_cons_zero, Option.some.injEq] at found
        subst found
        exact (cut.sound row member).1
    | succ index =>
        rw [List.getElem?_cons_succ] at found
        have here := later.sound index other found row member
        rwa [show n + (index + 1) = n + 1 + index by omega]
  · intro row always isAfter
    show row ∈ page.rows ++ visited pages
    rw [List.mem_append]
    rcases le_or_gt (key row) (key last) with before | beyond
    · exact .inl (all row (always 0 (by simp)) isAfter before)
    · right
      apply later.complete row ?_ beyond
      intro index small
      have here := always (index + 1) (by simpa using small)
      rwa [show n + 1 + index = n + (index + 1) by omega]
  · intro other member goes
    rcases List.mem_cons.mp member with rfl | there
    · exact List.ne_nil_of_mem isLast
    · exact later.nonempty other there goes

/-- How many rows of the domain come after the key. -/
def remaining (key : Row → Key) (domain : List Row) (after : Option Key) : Nat :=
  (domain.filter fun row => IsAfter key after row).length

theorem remaining_lt {domain : List Row} {last : Row} (member : last ∈ domain)
    (isAfter : IsAfter key after last) :
    remaining key domain (some (key last)) < remaining key domain after := by
  have inside : ∀ row, IsAfter key (some (key last)) row → IsAfter key after row :=
    fun row later => isAfter.trans later rfl
  have apart : ¬ IsAfter key (some (key last)) last := lt_irrefl _
  unfold remaining
  have split : (domain.filter fun row => IsAfter key (some (key last)) row) =
      (domain.filter fun row => IsAfter key after row).filter
        fun row => IsAfter key (some (key last)) row := by
    rw [List.filter_filter]
    apply List.filter_congr
    intro row _
    by_cases later : IsAfter key (some (key last)) row
    · simp [later, inside row later]
    · simp [later]
  rw [split]
  exact List.length_filter_lt_length_iff_exists.mpr
    ⟨last, by simpa using ⟨member, isAfter⟩, by simpa using apart⟩

/-- A list served from a keyset is read to its end, in order, each row at most
once, and no row is missed that stays. The rows of the domain come and go
between the fetches. -/
theorem walk_keyset {ε : Type*} {fetch : Nat → Option Cursor → Except ε (Page Row Cursor)}
    {cursorOf : Row → Cursor} {present : Nat → List Row} {domain : List Row} {size : Nat}
    (positive : 0 < size) (within : ∀ n, present n ⊆ domain)
    (nodup : ∀ n, (present n).Nodup)
    (distinct : ∀ left ∈ domain, ∀ right ∈ domain, key left = key right → left = right)
    (later : ∀ n, ∀ row ∈ domain, fetch n (some (cursorOf row)) =
      .ok (cutPage size cursorOf (keysetWindow key (present n) (some (key row)) (size + 1))))
    {cursor : Option Cursor} {after : Option Key} {n : Nat}
    (first : fetch n cursor =
      .ok (cutPage size cursorOf (keysetWindow key (present n) after (size + 1)))) :
    ∃ pages, Walk fetch n cursor pages ∧ ReadsAfter key present n after pages := by
  induction left : remaining key domain after using Nat.strongRecOn generalizing n cursor
    after with
  | ind left inductionHypothesis =>
      have cut : CutsAt key cursorOf (present n) after
          (cutPage size cursorOf (keysetWindow key (present n) after (size + 1))) :=
        cutPage_keysetWindow cursorOf positive (nodup n) fun left leftMember right rightMember =>
          distinct left (within n leftMember) right (within n rightMember)
      rcases cut.complete with ⟨ends, -⟩ | ⟨last, isLast, goes, upTo, all⟩
      · exact ⟨_, .last first ends, readsAfter_last cut ends⟩
      · have sound := cut.sound last isLast
        have fewer := remaining_lt (within n sound.1) sound.2
        rcases inductionHypothesis _ (left ▸ fewer) (later (n + 1) last (within n sound.1)) rfl with
          ⟨pages, walk, reads⟩
        exact ⟨_, .more first goes walk, readsAfter_more cut isLast upTo all reads⟩

end Keyset

end Vidit.Library
