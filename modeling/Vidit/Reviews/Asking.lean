import Mathlib.Logic.Function.Basic
import Vidit.Events.ApprovalRequests
import Vidit.Library.Transition
import Vidit.Library.Window

/-!
Contract: approval requests sent under a daily cap, with the locks they take.

A request locks its event, checks its target, takes the lock of its requester,
counts what the requester sent in the last day, adds its row and commits. The
other writes on an event hold its lock from their first statement to their commit.

Owns:
- the statements of `request_approval` between which others may run;
- `decline`, `approve`, `accept` and `remove` beside them, and the writes that
  leave the requests of an event as they are;
- `KeepsDailyCap`, the cap over any trailing day, and `StillCounted`, when a
  count and an acceptance keep it.

Does not own: the checks themselves (`Vidit.Events.ApprovalRequests`).
-/

namespace Vidit.Reviews

open Vidit.Python Vidit.Accounts Vidit.Events Vidit.Library Vidit.Library.Window

/-- `request_approval` up to its daily cap: the analyst or the organization asked. -/
def checkRequest (tx : Events.Transaction) (geo : Event) (requester : User) (target : ApprovalTarget)
    (admitted : Bool) : Except ApprovalRequestError (Option Uuid × Option Uuid) := do
  requireRequester geo requester
  match target with
  | .organization found =>
    let org ← checkOrganizationTarget tx geo requester found admitted
    pure (none, some org.id)
  | .analyst username =>
    let analyst ← checkAnalystTarget tx geo requester username admitted
    pure (some analyst.id, none)

/-- An event with one more request. -/
def addRequest (geo : Event) (row : ApprovalRequest) : Event :=
  { geo with approvalRequests := geo.approvalRequests ++ [row] }

/-- The statements of `request_approval`, run in one go. -/
theorem requestApproval_eq (tx : Events.Transaction) (geo : Event) (requester : User)
    (target : ApprovalTarget) (admitted : Bool) (sentToday cap : Nat) :
    requestApproval tx geo requester target admitted sentToday cap = (do
      let whom ← checkRequest tx geo requester target admitted
      checkDailyCap sentToday cap
      pure (addRequest geo (newRequest tx geo requester whom.1 whom.2))) := by
  unfold requestApproval checkRequest
  cases requireRequester geo requester with
  | error refusal => rfl
  | ok _ =>
      cases target with
      | organization found =>
          simp only [bind, Except.bind, pure, Except.pure]
          cases checkOrganizationTarget tx geo requester found admitted <;> rfl
      | analyst username =>
          simp only [bind, Except.bind, pure, Except.pure]
          cases checkAnalystTarget tx geo requester username admitted <;> rfl

structure AskCall where
  eventId : Uuid
  requesterId : Uuid
  target : ApprovalTarget
  admitted : Bool
deriving DecidableEq, Repr

/-- Where a request stands. -/
inductive AskProcess where
  | idle
  | refused (refusal : ApprovalRequestError)
  | called (call : AskCall)
  /-- The event is locked and the target may be asked. -/
  | checked (call : AskCall) (toUser toOrganization : Option Uuid)
  /-- The lock of the requester is held. -/
  | counting (call : AskCall) (toUser toOrganization : Option Uuid)
  | counted (call : AskCall) (toUser toOrganization : Option Uuid)
  | added (call : AskCall) (row : ApprovalRequest)

namespace AskProcess

/-- The request has returned or raised. -/
def ended : AskProcess → Bool
  | .idle | .refused _ => true
  | _ => false

/-- The requester whose lock the process holds. -/
def capOf : AskProcess → Option Uuid
  | .counting call _ _ | .counted call _ _ | .added call _ => some call.requesterId
  | _ => none

end AskProcess

/-- A request that committed: its row, and the hour of the commit. -/
structure Sent where
  id : Uuid
  requesterId : Uuid
  createdAt : Instant
  at' : Instant
deriving DecidableEq, Repr

/-- The other writes that reach the requests of an event. -/
inductive ReviewVerb where
  | decline (requestId userId : Uuid)
  | approve (userId : Uuid) (versionNo : Nat) (organization : Option Organization)
  | accept (userId : Uuid)
  | remove (actorId : Uuid) (username : Str)
deriving DecidableEq, Repr

structure AskState where
  now : Instant
  users : List User
  memberships : List Membership
  eventIds : List Uuid
  events : Uuid → Option Event
  eventLock : Uuid → Option Nat
  /-- The advisory lock of each requester. -/
  capLock : Uuid → Option Nat
  processes : Nat → AskProcess
  /-- The ids of the requests added so far. -/
  used : List Uuid
  /-- The requests that committed, newest first. -/
  sent : List Sent

inductive AskLabel where
  | tick (later : Instant)
  /-- The accounts and the memberships change. -/
  | accounts (users : List User) (memberships : List Membership)
  | publish (id : Uuid) (geo : Event)
  /-- Another write, which leaves the requests of the event. -/
  | write (id : Uuid) (geo : Event)
  | act (id : Uuid) (verb : ReviewVerb)
  | ask (process : Nat) (call : AskCall)
  | lockEvent (process : Nat)
  | lockCap (process : Nat)
  | count (process : Nat)
  | add (process : Nat) (id : Uuid)
  | commit (process : Nat)
  | fail (process : Nat)
deriving DecidableEq

/-- Why a step is not possible. -/
inductive AskBlocked where
  | clockRunsForward
  | eventThere
  | eventGone
  | touchesRequests
  | locked
  | busy
  | elsewhere
  | notFresh
  | refused (refusal : ApprovalRequestError)
deriving DecidableEq

namespace AskState

def setProcess (state : AskState) (process : Nat) (next : AskProcess) : AskState :=
  { state with processes := Function.update state.processes process next }

def setEvent (state : AskState) (id : Uuid) (geo : Event) : AskState :=
  { state with events := Function.update state.events id (some geo) }

/-- The transaction of a process ends, and so do its locks. -/
def release (state : AskState) (process : Nat) (next : AskProcess) : AskState :=
  { state.setProcess process next with
    eventLock := fun id => if state.eventLock id = some process then none else state.eventLock id
    capLock := fun id => if state.capLock id = some process then none else state.capLock id }

def transaction (state : AskState) (id : Uuid) : Events.Transaction where
  now := state.now
  uuid := fun _ => id
  users := state.users
  memberships := state.memberships
  tags := []
  conflicts := []
  uploads := []

def user (state : AskState) (userId : Uuid) : Except ApprovalRequestError User :=
  orRefuse (state.users.find? fun user => user.id = userId) (.event .notAuthorized)

/-- The requests of every event. -/
def requests (state : AskState) : List ApprovalRequest :=
  state.eventIds.flatMap fun id => ((state.events id).map Event.approvalRequests).getD []

/-- The count of `_check_daily_cap`. -/
def sentToday (state : AskState) (requesterId : Uuid) : Nat :=
  (state.requests.filter fun request =>
    request.requesterId = requesterId && state.now - capWindow ≤ request.createdAt).length

/-- A write on an event that is neither locked nor gone. -/
def act (state : AskState) (id : Uuid) (geo : Event) :
    ReviewVerb → Except ApprovalRequestError Event
  | .decline requestId userId => do
    let user ← state.user userId
    declineRequest (state.transaction id) geo requestId user
  | .approve userId versionNo organization => do
    let user ← state.user userId
    (approve (state.transaction id) geo user versionNo organization).mapError .event
  | .accept userId => do
    let user ← state.user userId
    (accept (state.transaction id) geo user).mapError .event
  | .remove actorId username => do
    let user ← state.user actorId
    (remove (state.transaction id) geo user username).mapError .event

/-- `lock_event` and the checks of `request_approval` on the requester and the target. -/
def lockEvent (state : AskState) (process : Nat) (call : AskCall) :
    Except AskBlocked AskState :=
  if state.eventLock call.eventId ≠ none then .error .locked
  else
    match state.events call.eventId, state.user call.requesterId with
    | none, _ => .ok (state.setProcess process (.refused (.event .eventNotFound)))
    | some _, .error refusal => .ok (state.setProcess process (.refused refusal))
    | some geo, .ok requester =>
      match checkRequest (state.transaction 0) geo requester call.target call.admitted with
      | .error refusal => .ok (state.setProcess process (.refused refusal))
      | .ok (toUser, toOrganization) =>
        .ok { state.setProcess process (.checked call toUser toOrganization) with
              eventLock := Function.update state.eventLock call.eventId (some process) }

/-- The commit of `request_approval`. -/
def commit (state : AskState) (process : Nat) (call : AskCall) (geo : Event)
    (row : ApprovalRequest) : AskState :=
  { (state.release process .idle).setEvent call.eventId (addRequest geo row) with
    sent :=
      { id := row.id
        requesterId := row.requesterId
        createdAt := row.createdAt
        at' := state.now } :: state.sent }

/-- One statement of `request_approval`. -/
def run (cap : Nat) (state : AskState) : AskLabel → Except AskBlocked AskState
  | .lockEvent process =>
    match state.processes process with
    | .called call => state.lockEvent process call
    | _ => .error .elsewhere
  | .lockCap process =>
    match state.processes process with
    | .checked call toUser toOrganization =>
      if state.capLock call.requesterId ≠ none then .error .locked
      else
        .ok { state.setProcess process (.counting call toUser toOrganization) with
              capLock := Function.update state.capLock call.requesterId (some process) }
    | _ => .error .elsewhere
  | .count process =>
    match state.processes process with
    | .counting call toUser toOrganization =>
      match checkDailyCap (state.sentToday call.requesterId) cap with
      | .error refusal => .ok (state.release process (.refused refusal))
      | .ok _ => .ok (state.setProcess process (.counted call toUser toOrganization))
    | _ => .error .elsewhere
  | .add process id =>
    match state.processes process with
    | .counted call toUser toOrganization =>
      match state.events call.eventId, state.user call.requesterId with
      | some geo, .ok requester =>
        if id ∈ state.used then .error .notFresh
        else
          .ok { state.setProcess process (.added call
                  (newRequest (state.transaction id) geo requester toUser toOrganization)) with
                used := id :: state.used }
      | _, _ => .ok (state.release process .idle)
    | _ => .error .elsewhere
  | .commit process =>
    match state.processes process with
    | .added call row =>
      match state.events call.eventId with
      | some geo => .ok (state.commit process call geo row)
      | none => .ok (state.release process .idle)
    | _ => .error .elsewhere
  | .fail process => .ok (state.release process .idle)
  | _ => .error .elsewhere

/-- One step: time passes, another write commits, or a request runs its next statement. -/
def step (cap : Nat) (label : AskLabel) (state : AskState) : Except AskBlocked AskState :=
  match label with
  | .tick later =>
    if later < state.now then .error .clockRunsForward else .ok { state with now := later }
  | .accounts users memberships => .ok { state with users := users, memberships := memberships }
  | .publish id geo =>
    if state.events id ≠ none then .error .eventThere
    else if geo.approvalRequests ≠ [] then .error .touchesRequests
    else .ok { state.setEvent id geo with eventIds := id :: state.eventIds }
  | .write id geo =>
    match state.events id with
    | none => .error .eventGone
    | some before =>
      if state.eventLock id ≠ none then .error .locked
      else if geo.approvalRequests ≠ before.approvalRequests then .error .touchesRequests
      else .ok (state.setEvent id geo)
  | .act id verb =>
    match state.events id with
    | none => .error .eventGone
    | some geo =>
      if state.eventLock id ≠ none then .error .locked
      else
        match state.act id geo verb with
        | .error refusal => .error (.refused refusal)
        | .ok after => .ok (state.setEvent id after)
  | .ask process call =>
    if (state.processes process).ended then .ok (state.setProcess process (.called call))
    else .error .busy
  | _ => state.run cap label

/-- Nothing is published, asked or locked. -/
structure Initial (state : AskState) : Prop where
  eventIds : state.eventIds = []
  events : ∀ id, state.events id = none
  eventLock : ∀ id, state.eventLock id = none
  capLock : ∀ id, state.capLock id = none
  processes : ∀ process, state.processes process = .idle
  used : state.used = []
  sent : state.sent = []

end AskState

/-- Every interleaving of the requests and the other writes; `cap` is
`approval_request_daily_cap`. -/
def askSystem (cap : Nat) : System AskState AskLabel :=
  System.ofStep AskState.Initial (AskState.step cap)

/-- The committed requests of one analyst. -/
def sentBy (requesterId : Uuid) (sent : List Sent) : List Sent :=
  sent.filter fun request => request.requesterId = requesterId

/-- In no trailing day do more requests of one analyst commit than the cap. -/
def KeepsDailyCap (cap : Nat) (system : System AskState AskLabel) : Prop :=
  ∀ ⦃state⦄, system.Reachable state → ∀ requesterId hour,
    trailing Sent.at' capWindow hour (sentBy requesterId state.sent) ≤ cap

/-- An acceptance deletes no request that committed within the day, and a count finds every
request of its analyst that committed within the day stamped within it. -/
def StillCounted (state : AskState) : AskLabel → Prop
  | .act id (.accept userId) => ∀ geo, state.events id = some geo →
      ∀ request ∈ geo.approvalRequests, request.targetUserId = some userId →
        request.status = .open → ∀ sent ∈ state.sent, sent.id = request.id →
          sent.at' < state.now - capWindow
  | .count process => ∀ requesterId, (state.processes process).capOf = some requesterId →
      ∀ sent ∈ sentBy requesterId state.sent, state.now - capWindow ≤ sent.at' →
        state.now - capWindow ≤ sent.createdAt
  | _ => True

end Vidit.Reviews
