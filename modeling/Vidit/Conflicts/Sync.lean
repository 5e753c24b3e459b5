import Vidit.Accounts.User
import Vidit.Library.Checks
import Vidit.Library.Rows
import Vidit.Python.Str
import Vidit.Python.Uuid

/-!
Contract: one pass of the daily conflict sync over the referential.

Owns:
- `sync_conflicts` on a parsed page whose titles have been resolved to QIDs: the upsert by QID,
  entry by entry, and the grace-period sweep;
- what one entry can do to the table (`Upsert`).

Does not own: fetching and parsing the page, and the logged reasons' `repr` of a name.
-/

namespace Vidit.Conflicts

open Vidit.Python Vidit.Accounts Vidit.Library

/-! ### Rows and entries -/

inductive ConflictTier where
  | major
  | minor
  | conflict
deriving DecidableEq, Repr

inductive ConflictOrigin where
  | sync
  | seed
  | manual
deriving DecidableEq, Repr

/-- A row of `conflicts`. -/
structure Conflict where
  id : Uuid
  name : Str
  wikidataId : Option Str
  startYear : Option Nat
  tier : Option ConflictTier
  isOngoing : Bool
  lastSeenAt : Option Instant
  origin : ConflictOrigin
deriving DecidableEq, Repr

/-- `PageEntry`. -/
structure PageEntry where
  title : Str
  tier : ConflictTier
  startYear : Option Nat
deriving DecidableEq, Repr

/-- An entry with the QID its title resolves to. -/
abbrev Resolved := PageEntry × Option Str

/-- `GRACE_PERIOD_DAYS`, in microseconds. -/
def gracePeriod : Int := 14 * 24 * 60 * 60 * 1000000

/-- `_MIN_EXPECTED`. -/
def minExpected : Nat := 15

/-- `_NAME_MAX_LENGTH`. -/
def nameMaxLength : Nat := 200

/-- The name a row takes from an entry. -/
def PageEntry.name (entry : PageEntry) : Str :=
  entry.title.take nameMaxLength

/-! ### What a pass reports -/

inductive Skip where
  | noItem (title : Str)
  | heldBy (title holder qid : Str)
  | collides (qid name title : Str)
deriving DecidableEq, Repr

/-- The reason a skip is logged with; `repr` is Python's, of a string. -/
def Skip.message (repr : Str → Str) : Skip → Str
  | .noItem title => title ++ str ": no Wikidata item"
  | .heldBy title holder qid =>
    title ++ str ": name held by " ++ holder ++ str ", page maps it to " ++ qid
  | .collides qid name title =>
    qid ++ str ": rename " ++ repr name ++ str " -> " ++ repr title ++
      str " collides with an existing row"

structure SyncResult where
  seen : Nat
  created : Nat
  renamed : Nat
  adopted : Nat
  deactivated : Nat
  reactivated : Nat
  skipped : List Skip
deriving DecidableEq, Repr

/-- The rows as the pass leaves them so far, the UUIDs drawn, and its report. -/
structure Pass where
  rows : List Conflict
  drawn : Nat
  result : SyncResult
deriving DecidableEq, Repr

/-- `ConflictSyncError` of a pass that reached the table. -/
structure SyncError where
  resolved : Nat
  entries : Nat
deriving DecidableEq, Repr

def SyncError.message (error : SyncError) : Str :=
  str "only " ++ natText error.resolved ++ str " of " ++ natText error.entries ++
    str " page entries resolved to a Wikidata QID (floor " ++ natText minExpected ++
    str "); refusing to write"

/-- The pass before the first entry. -/
def Pass.start (seen : Nat) (rows : List Conflict) (drawn : Nat) : Pass :=
  ⟨rows, drawn, ⟨seen, 0, 0, 0, 0, 0, []⟩⟩

/-! ### The upsert -/

/-- The rows once `row` is written. -/
def put (rows : List Conflict) (row : Conflict) : List Conflict :=
  rows.map fun other => if other.id = row.id then row else other

/-- A row seen on the page: a start year it has stays. -/
def Conflict.refresh (row : Conflict) (entry : PageEntry) (now : Instant) : Conflict :=
  { row with
    isOngoing := true
    lastSeenAt := some now
    tier := some entry.tier
    startYear := row.startYear.or entry.startYear }

@[simp] theorem Conflict.refresh_id (row : Conflict) (entry : PageEntry) (now : Instant) :
    (row.refresh entry now).id = row.id := rfl

@[simp] theorem Conflict.refresh_name (row : Conflict) (entry : PageEntry) (now : Instant) :
    (row.refresh entry now).name = row.name := rfl

@[simp] theorem Conflict.refresh_wikidataId (row : Conflict) (entry : PageEntry) (now : Instant) :
    (row.refresh entry now).wikidataId = row.wikidataId := rfl

def Pass.skip (pass : Pass) (reason : Skip) : Pass :=
  { pass with result := { pass.result with skipped := pass.result.skipped ++ [reason] } }

/-- The end of an entry's turn: the row is refreshed and written. -/
def Pass.see (pass : Pass) (row : Conflict) (entry : PageEntry) (now : Instant) : Pass :=
  { pass with
    rows := put pass.rows (row.refresh entry now)
    result := { pass.result with
      -- a first sighting is not a reactivation
      reactivated := pass.result.reactivated +
        if row.isOngoing = false ∧ row.lastSeenAt ≠ none then 1 else 0 } }

def newConflict (id : Uuid) (title qid : Str) : Conflict where
  id := id
  name := title
  wikidataId := some qid
  startYear := none
  tier := none
  isOngoing := true
  lastSeenAt := none
  origin := .sync

variable (uuids : UuidSource) (now : Instant)

/-- A new row for an entry. -/
def Pass.create (pass : Pass) (entry : PageEntry) (qid : Str) : Pass :=
  { rows := pass.rows ++ [(newConflict (uuids.draw pass.drawn) entry.name qid).refresh entry now]
    drawn := pass.drawn + 1
    result := { pass.result with created := pass.result.created + 1 } }

/-- The turn of an entry whose QID no row has. -/
def Pass.match (pass : Pass) (entry : PageEntry) (qid : Str) : Pass :=
  match pass.rows.find? fun row => row.name = entry.name with
  | none => pass.create uuids now entry qid
  | some byName =>
    match byName.wikidataId with
    | none =>
      { pass with result := { pass.result with adopted := pass.result.adopted + 1 } }.see
        { byName with wikidataId := some qid } entry now
    | some holder => pass.skip (.heldBy entry.name holder qid)

/-- The turn of an entry whose QID `row` has. -/
def Pass.update (pass : Pass) (entry : PageEntry) (qid : Str) (row : Conflict) : Pass :=
  if row.name = entry.name then pass.see row entry now
  else if pass.rows.any fun other => other.name = entry.name && other.id ≠ row.id then
    (pass.skip (.collides qid row.name entry.name)).see row entry now
  else
    { pass with result := { pass.result with renamed := pass.result.renamed + 1 } }.see
      { row with name := entry.name } entry now

/-- One turn of the loop. -/
def syncEntry (pass : Pass) (item : Resolved) : Pass :=
  match item.2 with
  | none => pass.skip (.noItem item.1.name)
  | some qid =>
    match pass.rows.find? fun row => row.wikidataId = some qid with
    | none => pass.match uuids now item.1 qid
    | some row => pass.update now item.1 qid row

/-- The entries the loop visits: of those with one QID, the first. -/
def dedupe : List Resolved → List Str → List Resolved
  | [], _ => []
  | (entry, none) :: rest, seen => (entry, none) :: dedupe rest seen
  | (entry, some qid) :: rest, seen =>
    if qid ∈ seen then dedupe rest seen
    else (entry, some qid) :: dedupe rest (qid :: seen)

/-- `row.is_ongoing` with a last sighting before the grace period. -/
def Conflict.isExpired (row : Conflict) : Bool :=
  row.isOngoing && row.lastSeenAt.any fun seen => seen < now - gracePeriod

/-- The sweep of a row. -/
def Conflict.age (row : Conflict) : Conflict :=
  if row.isExpired now then { row with isOngoing := false } else row

def Pass.deactivate (pass : Pass) : Pass :=
  { pass with
    rows := pass.rows.map (Conflict.age now)
    result := { pass.result with deactivated := (pass.rows.filter (Conflict.isExpired now)).length } }

/-- `sync_conflicts` on a fetched page, up to its commit. -/
def syncConflicts (page : List Resolved) (rows : List Conflict) (drawn : Nat) :
    Except SyncError Pass := do
  let resolved := (page.filter fun item => item.2.isSome).length
  require (minExpected ≤ resolved) ⟨resolved, page.length⟩
  let start := Pass.start page.length rows drawn
  pure (((dedupe page []).foldl (syncEntry uuids now) start).deactivate now)

/-! ### What one entry can do -/

/-- How the rows move in the turn of an entry with a QID. -/
inductive Upsert (rows : List Conflict) (drawn : Nat) (entry : PageEntry) (qid : Str) :
    List Conflict → Nat → Prop where
  /-- No row has the QID, and the name is another QID's. -/
  | refused {holder} (listed : holder ∈ rows) (named : holder.name = entry.name)
      (owned : holder.wikidataId ≠ none) (absent : ∀ row ∈ rows, row.wikidataId ≠ some qid) :
      Upsert rows drawn entry qid rows drawn
  /-- The row of the QID keeps its name: the entry's, or one the entry's collides. -/
  | seen {row} (listed : row ∈ rows) (known : row.wikidataId = some qid)
      (stays : row.name = entry.name ∨
        ∃ other ∈ rows, other.name = entry.name ∧ other.id ≠ row.id) :
      Upsert rows drawn entry qid (put rows (row.refresh entry now)) drawn
  | renamed {row} (listed : row ∈ rows) (known : row.wikidataId = some qid)
      (differs : row.name ≠ entry.name)
      (free : ∀ other ∈ rows, other.name = entry.name → other.id = row.id) :
      Upsert rows drawn entry qid
        (put rows ({ row with name := entry.name }.refresh entry now)) drawn
  | adopted {row} (listed : row ∈ rows) (named : row.name = entry.name)
      (unowned : row.wikidataId = none) (absent : ∀ row ∈ rows, row.wikidataId ≠ some qid) :
      Upsert rows drawn entry qid
        (put rows ({ row with wikidataId := some qid }.refresh entry now)) drawn
  | created (absent : ∀ row ∈ rows, row.wikidataId ≠ some qid)
      (free : ∀ row ∈ rows, row.name ≠ entry.name) :
      Upsert rows drawn entry qid
        (rows ++ [(newConflict (uuids.draw drawn) entry.name qid).refresh entry now]) (drawn + 1)

theorem syncEntry_upsert (pass : Pass) (entry : PageEntry) (qid : Str) :
    Upsert uuids now pass.rows pass.drawn entry qid
      (syncEntry uuids now pass (entry, some qid)).rows
      (syncEntry uuids now pass (entry, some qid)).drawn := by
  unfold syncEntry
  simp only
  cases found : pass.rows.find? fun row => row.wikidataId = some qid with
  | none =>
      have absent : ∀ row ∈ pass.rows, row.wikidataId ≠ some qid := by
        intro row member
        simpa using List.find?_eq_none.mp found row member
      unfold Pass.match
      cases named : pass.rows.find? fun row => row.name = entry.name with
      | none =>
          have free : ∀ row ∈ pass.rows, row.name ≠ entry.name := by
            intro row member
            simpa using List.find?_eq_none.mp named row member
          exact .created absent free
      | some byName =>
          have listed := List.mem_of_find?_eq_some named
          have same : byName.name = entry.name := by simpa using List.find?_some named
          simp only
          cases owned : byName.wikidataId with
          | none => exact .adopted listed same owned absent
          | some holder => exact .refused listed same (by simp [owned]) absent
  | some row =>
      have listed := List.mem_of_find?_eq_some found
      have known : row.wikidataId = some qid := by simpa using List.find?_some found
      simp only
      unfold Pass.update
      by_cases same : row.name = entry.name
      · rw [if_pos same]
        exact .seen listed known (.inl same)
      · rw [if_neg same]
        cases taken : pass.rows.any fun other => other.name = entry.name && other.id ≠ row.id with
        | true =>
            rw [if_pos rfl]
            rw [List.any_eq_true] at taken
            obtain ⟨other, inRows, held⟩ := taken
            simp only [Bool.and_eq_true, decide_eq_true_eq] at held
            exact .seen listed known (.inr ⟨other, inRows, held⟩)
        | false =>
            rw [if_neg (by simp)]
            apply Upsert.renamed listed known same
            intro other inRows named
            have free := List.any_eq_false.mp taken other inRows
            simpa [named] using free

end Vidit.Conflicts
