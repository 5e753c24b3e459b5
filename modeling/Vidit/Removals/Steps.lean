import Vidit.World.State
import Vidit.Library.KeyLock
import Vidit.Library.Rows

/-!
Contract: the removal, the erasure and the restore of accounts, interleaved statement by
statement with each other and with the credit on the events.

A removal locks the events its account owns, reads who else is credited and live, shares
the key of each heir with its foreign key, and only then writes the account and hides the
events left. Nobody else reads an uncommitted row, so each transaction takes its locks where
its statements do and makes its writes where it commits.

Owns:
- `soft_delete_user`, `hard_delete_user` and `restore_user`, as far as they write accounts
  and events;
- the credit verbs, each a transaction on one locked event;
- the system of their interleavings.

Does not own: the hand-over of organization roles, the notifications, the audit log and the
sweep of files.
-/

namespace Vidit.Removals

open Vidit.Python Vidit.Accounts Vidit.Events Vidit.Library Vidit.World

inductive RemovalKind where
  | soft
  | hard
deriving DecidableEq, Repr

/-- A removal in progress, of an account as it was read. -/
structure Removal where
  kind : RemovalKind
  user : User
deriving DecidableEq, Repr

/-- An event and the heir it passes to. -/
abbrev Heir := Uuid × Uuid

/-- A statement that locks the events it matched, one at a time, and matches each again. -/
inductive Scan where
  /-- The `FOR UPDATE` on the owned events. -/
  | owned (removal : Removal)
  /-- The UPDATE that hides what was not handed over, with the hand-overs committed by then. -/
  | cascade (user : User) (heirs : List Heir) (stamp : Instant) (seen : Nat)
  /-- The UPDATE of `restore_user`. -/
  | restored (user : User)
deriving DecidableEq, Repr

inductive RemovalError where
  | userNotFound
  | eventRefused (refusal : EventError)
  /-- A foreign key the statement violates. -/
  | integrity
  /-- An ORM write that matched no row. -/
  | staleData
  /-- A lock wait that timed out, a deadlock, or a connection lost. -/
  | operational
deriving DecidableEq

/-- A row lock: `FOR UPDATE` takes an account's row and its key, an UPDATE of other columns
the row alone, and a foreign key shares the key. -/
inductive Row where
  | event (eventId : Uuid)
  | user (userId : Uuid)
  | userKey (userId : Uuid)
deriving DecidableEq, Repr

/-- What a request does next. -/
inductive Process where
  | idle
  | raised (refusal : RemovalError)
  | readUser (kind : RemovalKind) (userId : Uuid)
  | scanning (scan : Scan) (waiting taken : List Uuid)
  /-- The SELECT of `hand_over_owned_events`. -/
  | readHeirs (removal : Removal) (owned : List Uuid)
  /-- Its flush, one foreign key at a time. -/
  | flush (removal : Removal) (owned : List Uuid) (heirs pending : List Heir)
  /-- The UPDATE of the account, or the DELETE of it and of the events left. -/
  | writeUser (removal : Removal) (owned : List Uuid) (heirs : List Heir)
  | startCascade (user : User) (heirs : List Heir) (stamp : Instant)
  | commitSoft (user : User) (heirs : List Heir) (stamp : Instant) (seen : Nat)
      (hidden : List Uuid)
  | commitHard (user : User) (owned : List Uuid) (heirs : List Heir)
  /-- The `FOR UPDATE` of `restore_user`. -/
  | lockUser (userId : Uuid)
  | commitRestore (user : User) (restored : List Uuid)
deriving DecidableEq

/-- The request has returned or raised. -/
def Process.ended : Process → Bool
  | .idle | .raised _ => true
  | _ => false

structure State where
  now : Instant
  /-- The tables that no request here writes. -/
  rest : Events.Transaction
  users : List User
  /-- `users.x_handle`, under the account's id. -/
  xHandle : Uuid → Option Str
  events : List Event
  locks : KeyLocks Nat Row
  /-- The hand-overs that have committed, newest first. -/
  transfers : List Heir
  processes : Nat → Process

inductive Label where
  | tick (now : Instant)
  | softDeleteUser (process : Nat) (userId : Uuid)
  | hardDeleteUser (process : Nat) (userId : Uuid)
  | restoreUser (process : Nat) (userId : Uuid)
  /-- `accept`, `remove` or another verb on the credit of an event. -/
  | credit (eventId userId : Uuid) (verb : CreditVerb)
  | run (process : Nat)
  | fail (process : Nat)
deriving DecidableEq

/-- Why a step is not possible. -/
inductive Blocked where
  | busy
  | ended
  | rowLocked
  | refused (refusal : EventError)
deriving DecidableEq

/-- What a statement matches. -/
def Scan.wanted : Scan → Event → Bool
  | .owned removal, geo =>
    geo.ownerId = removal.user.id && (removal.kind = .hard || geo.deletedAt = none)
  | .cascade user heirs _ _, geo =>
    geo.ownerId = user.id && geo.deletedAt = none && geo.id ∉ heirs.map Prod.fst
  | .restored user, geo => geo.ownerId = user.id && geo.deletedAt = user.deletedAt

/-- What follows a statement, over the rows it took. -/
def Scan.next : Scan → List Uuid → Process
  | .owned removal, taken => .readHeirs removal taken
  | .cascade user heirs stamp seen, taken => .commitSoft user heirs stamp seen taken
  | .restored user, taken => .commitRestore user taken

/-- The heir of an event, when it passes to one. -/
def heirOf (heirs : List Heir) (eventId : Uuid) : Option Uuid :=
  (heirs.find? fun heir => heir.1 = eventId).map Prod.snd

/-- A handed-over event has its heir as owner and is live. -/
def passTo (heirs : List Heir) (geo : Event) : Event :=
  match heirOf heirs geo.id with
  | some heirId => { geo with ownerId := heirId, deletedAt := none }
  | none => geo

namespace State

def user? (state : State) (userId : Uuid) : Option User :=
  state.users.find? fun user => user.id = userId

def event? (state : State) (eventId : Uuid) : Option Event :=
  state.events.find? fun geo => geo.id = eventId

/-- What a transaction reads. -/
def transaction (state : State) : Events.Transaction :=
  { state.rest with now := state.now, users := state.users }

def setProcess (state : State) (process : Nat) (next : Process) : State :=
  { state with processes := Function.update state.processes process next }

/-- The transaction of a process ends: its locks go. -/
def finish (state : State) (process : Nat) (next : Process) : State :=
  { state.setProcess process next with locks := state.locks.release process }

/-- The snapshot of a statement. -/
def startScan (state : State) (process : Nat) (scan : Scan) : State :=
  state.setProcess process
    (.scanning scan ((state.events.filter scan.wanted).map Event.id) [])

/-- The next row of a statement: locked, then matched again. -/
def scanRow (state : State) (process : Nat) (scan : Scan) (waiting taken : List Uuid) :
    Except Blocked State :=
  match waiting with
  | [] => .ok (state.setProcess process (scan.next taken))
  | eventId :: waiting =>
    match state.locks.lock? process (.event eventId) with
    | none => .error .rowLocked
    | some locks =>
      let taken := if (state.event? eventId).any scan.wanted then taken ++ [eventId] else taken
      .ok { state.setProcess process (.scanning scan waiting taken) with locks := locks }

/-! ### Removing an account -/

def readUser (state : State) (process : Nat) (kind : RemovalKind) (userId : Uuid) : State :=
  match state.user? userId with
  | none => state.finish process (.raised .userNotFound)
  | some user =>
    if kind = .soft ∧ user.deletedAt ≠ none then state.finish process .idle
    else state.startScan process (.owned ⟨kind, user⟩)

def readHeirs (state : State) (process : Nat) (removal : Removal) (owned : List Uuid) : State :=
  let heirs := owned.filterMap fun eventId =>
    (state.event? eventId).bind fun geo =>
      (handOverHeir state.users removal.user geo).map fun heirId => (eventId, heirId)
  state.setProcess process (.flush removal owned heirs heirs)

def flush (state : State) (process : Nat) (removal : Removal) (owned : List Uuid)
    (heirs pending : List Heir) : Except Blocked State :=
  match pending with
  | [] => .ok (state.setProcess process (.writeUser removal owned heirs))
  | heir :: pending =>
    match state.locks.share? process (.userKey heir.2) with
    | none => .error .rowLocked
    | some locks =>
      if state.user? heir.2 = none then .ok (state.finish process (.raised .integrity))
      else .ok { state.setProcess process (.flush removal owned heirs pending) with
                 locks := locks }

/-- The UPDATE of a soft-deleted account: a released X handle is a key that changes. -/
def softenUser (state : State) (process : Nat) (user : User) (heirs : List Heir) :
    Except Blocked State :=
  match state.locks.lock? process (.user user.id) with
  | none => .error .rowLocked
  | some locks =>
    match if state.xHandle user.id = none then some locks
      else locks.lock? process (.userKey user.id) with
    | none => .error .rowLocked
    | some locks =>
      if state.user? user.id = none then .ok (state.finish process (.raised .staleData))
      else .ok { state.setProcess process (.startCascade user heirs state.now) with
                 locks := locks }

/-- The DELETE of the events left and of the account, which no other event may reference. -/
def deleteUser (state : State) (process : Nat) (user : User) (owned : List Uuid)
    (heirs : List Heir) : Except Blocked State :=
  match state.locks.lock? process (.user user.id) with
  | none => .error .rowLocked
  | some locks =>
    match locks.lock? process (.userKey user.id) with
    | none => .error .rowLocked
    | some locks =>
      if state.user? user.id = none then .ok (state.finish process (.raised .staleData))
      else if ∃ geo ∈ state.events, geo.ownerId = user.id ∧ geo.id ∉ owned then
        .ok (state.finish process (.raised .integrity))
      else .ok { state.setProcess process (.commitHard user owned heirs) with locks := locks }

def commitSoft (state : State) (process : Nat) (user : User) (heirs : List Heir)
    (stamp : Instant) (hidden : List Uuid) : State :=
  { state.finish process .idle with
    users := state.users.map fun other =>
      if other.id = user.id then
        { other with deletedAt := some stamp, tokenVersion := other.tokenVersion + 1 }
      else other
    xHandle := Function.update state.xHandle user.id none
    events := state.events.map fun geo =>
      if geo.id ∈ hidden then { geo with deletedAt := some stamp } else passTo heirs geo
    transfers := heirs ++ state.transfers }

def commitHard (state : State) (process : Nat) (user : User) (owned : List Uuid)
    (heirs : List Heir) : State :=
  { state.finish process .idle with
    users := state.users.filter fun other => other.id ≠ user.id
    events := (state.events.filter fun geo =>
      ¬ (geo.id ∈ owned ∧ geo.id ∉ heirs.map Prod.fst)).map fun geo =>
        forgetUser user.id (passTo heirs geo)
    transfers := heirs ++ state.transfers }

/-! ### Restoring an account -/

def lockUser (state : State) (process : Nat) (userId : Uuid) : Except Blocked State :=
  match state.locks.lock? process (.user userId) with
  | none => .error .rowLocked
  | some locks =>
    match locks.lock? process (.userKey userId) with
    | none => .error .rowLocked
    | some locks =>
      match state.user? userId with
      | none => .ok (state.finish process (.raised .userNotFound))
      | some user =>
        if user.deletedAt = none then .ok (state.finish process .idle)
        else .ok { state.startScan process (.restored user) with locks := locks }

def commitRestore (state : State) (process : Nat) (user : User) (restored : List Uuid) : State :=
  { state.finish process .idle with
    users := state.users.map fun other =>
      if other.id = user.id then { other with deletedAt := none } else other
    events := state.events.map fun geo =>
      if geo.id ∈ restored then { geo with deletedAt := none } else geo }

/-! ### The system -/

/-- A credit verb: the transaction holds the event's row from its first statement on, so it
runs as one step while nobody else holds it. -/
def credit (state : State) (eventId userId : Uuid) (verb : CreditVerb) :
    Except Blocked State :=
  if state.locks.exclusive (.event eventId) ≠ none then .error .rowLocked
  else
    match state.event? eventId, state.user? userId with
    | some geo, some user =>
      match verb.run state.transaction geo user with
      | .error refusal => .error (.refused refusal)
      | .ok written =>
        .ok { state with events := state.events.map fun row =>
                if row.id = eventId then written else row }
    | _, _ => .error (.refused .eventNotFound)

/-- The next statement of a process. -/
def run (state : State) (process : Nat) : Except Blocked State :=
  match state.processes process with
  | .idle | .raised _ => .error .ended
  | .readUser kind userId => .ok (state.readUser process kind userId)
  | .scanning scan waiting taken => state.scanRow process scan waiting taken
  | .readHeirs removal owned => .ok (state.readHeirs process removal owned)
  | .flush removal owned heirs pending => state.flush process removal owned heirs pending
  | .writeUser ⟨.soft, user⟩ _ heirs => state.softenUser process user heirs
  | .writeUser ⟨.hard, user⟩ owned heirs => state.deleteUser process user owned heirs
  | .startCascade user heirs stamp =>
    .ok (state.startScan process (.cascade user heirs stamp state.transfers.length))
  | .commitSoft user heirs stamp _ hidden =>
    .ok (state.commitSoft process user heirs stamp hidden)
  | .commitHard user owned heirs => .ok (state.commitHard process user owned heirs)
  | .lockUser userId => state.lockUser process userId
  | .commitRestore user restored => .ok (state.commitRestore process user restored)

end State

/-- A request starts on a process whose last one has ended. -/
def start (state : State) (process : Nat) (first : Process) : Except Blocked State :=
  if (state.processes process).ended then .ok (state.setProcess process first) else .error .busy

def step : Label → State → Except Blocked State
  | .tick now, state => .ok { state with now := now }
  | .softDeleteUser process userId, state => start state process (.readUser .soft userId)
  | .hardDeleteUser process userId, state => start state process (.readUser .hard userId)
  | .restoreUser process userId, state => start state process (.lockUser userId)
  | .credit eventId userId verb, state => state.credit eventId userId verb
  | .run process, state => state.run process
  | .fail process, state =>
    if (state.processes process).ended then .error .ended
    else .ok (state.finish process (.raised .operational))

/-- No live event that is not withheld belongs to a removed account. -/
def Hides (state : State) : Prop :=
  ∀ geo ∈ state.events, geo.deletedAt = none → geo.hiddenAt = none →
    LiveId state.users geo.ownerId

/-- Nobody has begun, the keys of the tables hold, and no removed account's work is seen. -/
structure Initial (state : State) : Prop where
  idle : ∀ process, state.processes process = .idle
  primaryKey : KeyedBy Event.id state.events
  foreignKey : ∀ geo ∈ state.events, ∃ user ∈ state.users, user.id = geo.ownerId
  hides : Hides state

def system : System State Label :=
  .ofStep Initial step

end Vidit.Removals
