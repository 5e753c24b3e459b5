import Mathlib.Logic.Function.Basic
import Vidit.Accounts.User
import Vidit.Library.Transition

/-!
Contract: the notification delivery queue and its workers.

A worker claims a row, attempts it and lands the outcome, each in a transaction
of its own; it may stall or crash between any two statements.

Owns:
- `_expire`, `_claim_next`, `_attempt`, `deliver` and `drain`, and the emits and
  deletions that reach the rows meanwhile;
- the system of their interleavings, over any number of workers.

Does not own: the texts of an email, and what `_recipient` reads besides the
row, which the caller supplies.
-/

namespace Vidit.Notifications

open Vidit.Python Vidit.Accounts Vidit.Library

def seconds (count : Nat) : Int :=
  count * 1000000

def capWindow : Int := seconds (24 * 60 * 60)

def maxAttempts : Nat := 3

def retryAfter : Int := seconds (5 * 60)

def staleRunningAfter : Int := seconds (60 * 60)

def queuedExpiresAfter : Int := seconds (48 * 60 * 60)

inductive DeliveryStatus where
  | queued
  | running
  | done
  | failed
  | skipped
deriving DecidableEq, Repr

/-- What the sender reports for one row. -/
inductive DeliveryOutcome where
  | sent
  | skipped
  | refused
  | unknown
deriving DecidableEq, Repr

structure NotificationDelivery where
  status : DeliveryStatus
  attemptCount : Nat
  createdAt : Instant
  claimedAt : Option Instant
  sentAt : Option Instant
  notificationId : Option Uuid
deriving DecidableEq, Repr

inductive EmailProvider where
  | console
  | resend
  | other
deriving DecidableEq, Repr

structure DeliverySettings where
  emailProvider : EmailProvider
  resendApiKey : Str
  notificationEmailDailyCap : Nat
  notificationEmailDailyCapPerUser : Nat

/-- `_possibly_sent_since`: the rows that may have reached the provider. -/
def possiblySentSince (cutoff : Instant) (row : NotificationDelivery) : Bool :=
  (row.status = .done && row.sentAt.any (cutoff ≤ ·)) ||
    ((row.status = .running || row.status = .failed) && row.attemptCount < maxAttempts &&
      row.claimedAt.any (cutoff ≤ ·))

/-- The UPDATEs of `_expire` on one row. -/
def expire (asOf : Instant) (row : NotificationDelivery) : Option NotificationDelivery :=
  if row.status = .running ∧ row.claimedAt.any (· < asOf - staleRunningAfter) then
    some { row with status := .failed }
  else if row.status = .queued ∧ row.createdAt < asOf - queuedExpiresAfter then
    some { row with status := .skipped }
  else none

/-- `_count_failure` on a row whose `attempt_count` was read earlier. -/
def countFailure (attemptCount : Nat) (row : NotificationDelivery) : NotificationDelivery :=
  { row with
    attemptCount := attemptCount + 1
    status := if maxAttempts ≤ attemptCount + 1 then .failed else .queued }

/-- `_land`. -/
def land (now : Instant) (attemptCount : Nat) (row : NotificationDelivery) :
    DeliveryOutcome → NotificationDelivery
  | .sent => { row with status := .done, sentAt := some now }
  | .skipped => { row with status := .skipped }
  | .refused => countFailure attemptCount row
  | .unknown => row

/-- What `_recipient` and `_email_for` read besides the row. -/
structure Reading where
  recipient : Option User
  emailEnabled : Bool
  isVisible : Bool
  /-- The copy of the notification can be written. -/
  composes : Bool
deriving DecidableEq, Repr

/-- `_recipient`. -/
def recipient (reading : Reading) : Option User :=
  reading.recipient.filter fun user =>
    user.IsLive ∧ reading.emailEnabled = true ∧ reading.isVisible = true

/-- What an attempt comes to before any provider call. -/
inductive Attempt where
  | raised
  | ended (outcome : DeliveryOutcome)
  | calls
deriving DecidableEq, Repr

/-- `email.send` up to the provider call. -/
def send (settings : DeliverySettings) : Attempt :=
  match settings.emailProvider with
  | .console => .ended .sent
  | .resend => if settings.resendApiKey = [] then .ended .refused else .calls
  | .other => .ended .unknown

/-- `_attempt` up to the provider call; a deleted notification raises. -/
def attempt (settings : DeliverySettings) (notification : Option Uuid) (reading : Reading) :
    Attempt :=
  if notification = none then .raised
  else if recipient reading = none then .ended .skipped
  else if reading.composes then send settings
  else .raised

/-- What the provider's answer comes to; no answer is a transport error. -/
def answered : Option Nat → DeliveryOutcome
  | none => .unknown
  | some statusCode => if 300 ≤ statusCode then .refused else .sent

/-- Where a worker stands in `drain`, with what it has read of its row. -/
inductive Worker where
  | idle
  | expiring (asOf : Instant)
  | ready
  /-- The daily cap was not reached. -/
  | counted (asOf : Instant)
  | claimed (id : Uuid)
  | loaded (id : Uuid) (attemptCount : Nat)
  /-- The provider call is under way. -/
  | calling (id : Uuid) (attemptCount : Nat)
  | landing (id : Uuid) (attemptCount : Nat) (outcome : DeliveryOutcome)
  | raised (id : Uuid)
  /-- `deliver` has re-fetched the row to count a failure. -/
  | counting (id : Uuid) (attemptCount : Nat)
deriving DecidableEq, Repr

/-- The row a worker has claimed. -/
def Worker.holds : Worker → Option Uuid
  | .claimed id | .loaded id _ | .calling id _ | .landing id _ _ | .raised id
  | .counting id _ => some id
  | .idle | .expiring _ | .ready | .counted _ => none

structure QueueState where
  now : Instant
  /-- The `user_id` of every notification. -/
  notifications : Uuid → Option Uuid
  /-- Every delivery ever emitted. -/
  ids : List Uuid
  rows : Uuid → Option NotificationDelivery
  workers : Nat → Worker
  /-- How many provider calls were started for a delivery. -/
  handed : Uuid → Nat
  /-- How many of them the provider is known to have refused. -/
  refusals : Uuid → Nat

inductive QueueLabel where
  | tick (later : Instant)
  | emit (notification userId : Uuid) (delivery : Option Uuid) (createdAt : Instant)
  /-- The deletion of a notification reaches a row that never left. -/
  | unqueue (id : Uuid)
  | erase (notification : Uuid)
  | drain (worker : Nat)
  | expire (worker : Nat) (id : Uuid)
  | expired (worker : Nat)
  | count (worker : Nat)
  | claim (worker : Nat) (id : Uuid)
  | finish (worker : Nat)
  | load (worker : Nat)
  | attempt (worker : Nat) (reading : Reading)
  | answer (worker : Nat) (reply : Option Nat)
  | land (worker : Nat)
  | landFails (worker : Nat)
  | reload (worker : Nat)
  | recount (worker : Nat)
  | crash (worker : Nat)
deriving DecidableEq, Repr

/-- Why a step is not possible. -/
inductive QueueBlocked where
  | clockRunsForward
  | notFresh
  | notThere
  | notDue
  | notClaimable
  | elsewhere
deriving DecidableEq, Repr

namespace QueueState

def setWorker (state : QueueState) (worker : Nat) (next : Worker) : QueueState :=
  { state with workers := Function.update state.workers worker next }

def setRow (state : QueueState) (id : Uuid) (row : Option NotificationDelivery) : QueueState :=
  { state with rows := Function.update state.rows id row }

/-- `_emails_sent_count`. -/
def emailsSentCount (state : QueueState) (asOf : Instant) : Nat :=
  (state.ids.filter fun id => (state.rows id).any (possiblySentSince (asOf - capWindow))).length

/-- The recipient of a delivery. -/
def userOf (state : QueueState) (row : NotificationDelivery) : Option Uuid :=
  row.notificationId.bind state.notifications

/-- The user has reached the cap per user. -/
def capped (settings : DeliverySettings) (state : QueueState) (asOf : Instant) (userId : Uuid) :
    Bool :=
  settings.notificationEmailDailyCapPerUser ≤
      (state.ids.filter fun id => (state.rows id).any fun row =>
        state.userOf row = some userId && possiblySentSince (asOf - capWindow) row).length &&
    (state.ids.any fun id => (state.rows id).any fun row =>
      state.userOf row = some userId && possiblySentSince (asOf - capWindow) row)

/-- The rows of the SELECT of `_claim_next`. -/
def claimable (settings : DeliverySettings) (state : QueueState) (asOf : Instant)
    (row : NotificationDelivery) : Bool :=
  (state.userOf row).any (fun userId => !state.capped settings asOf userId) &&
    row.status = .queued && row.claimedAt.all (· < asOf - retryAfter)

/-- `_emit`, with the delivery it queues if it queues one. -/
def emit (state : QueueState) (notification userId : Uuid) (delivery : Option Uuid)
    (createdAt : Instant) : QueueState :=
  let emitted : QueueState :=
    { state with notifications := Function.update state.notifications notification (some userId) }
  match delivery with
  | none => emitted
  | some id =>
    { emitted with
      ids := id :: state.ids
      rows := Function.update state.rows id (some
        { status := .queued
          attemptCount := 0
          createdAt := createdAt
          claimedAt := none
          sentAt := none
          notificationId := some notification }) }

/-- A notification goes, and the deliveries left forget it. -/
def erase (state : QueueState) (notification : Uuid) : QueueState :=
  { state with
    notifications := Function.update state.notifications notification none
    rows := fun id => (state.rows id).map fun row =>
      if row.notificationId = some notification then { row with notificationId := none }
      else row }

/-- The attempt of a claimed row: a provider call starts here. -/
def attempt (settings : DeliverySettings) (state : QueueState) (worker : Nat) (id : Uuid)
    (attemptCount : Nat) (reading : Reading) : QueueState :=
  match Notifications.attempt settings ((state.rows id).bind (·.notificationId)) reading with
  | .raised => state.setWorker worker (.raised id)
  | .ended outcome => state.setWorker worker (.landing id attemptCount outcome)
  | .calls =>
    { state.setWorker worker (.calling id attemptCount) with
      handed := Function.update state.handed id (state.handed id + 1) }

def answer (state : QueueState) (worker : Nat) (id : Uuid) (attemptCount : Nat)
    (reply : Option Nat) : QueueState :=
  { state.setWorker worker (.landing id attemptCount (answered reply)) with
    refusals :=
      if answered reply = .refused then
        Function.update state.refusals id (state.refusals id + 1)
      else state.refusals }

/-- The except branch of `deliver`. -/
def landFails (state : QueueState) (worker : Nat) (id : Uuid) (outcome : DeliveryOutcome) :
    QueueState :=
  if outcome = .sent ∨ outcome = .unknown then state.setWorker worker .ready
  else state.setWorker worker (.raised id)

/-- The commit that lands an outcome; a row that is gone fails it. -/
def land (state : QueueState) (worker : Nat) (id : Uuid) (attemptCount : Nat)
    (outcome : DeliveryOutcome) : QueueState :=
  match state.rows id with
  | none => state.landFails worker id outcome
  | some row =>
    (state.setWorker worker .ready).setRow id
      (some (Notifications.land state.now attemptCount row outcome))

/-- The statements of one worker. -/
def runWorker (settings : DeliverySettings) (state : QueueState) :
    QueueLabel → Except QueueBlocked QueueState
  | .drain worker =>
    match state.workers worker with
    | .idle => .ok (state.setWorker worker (.expiring state.now))
    | _ => .error .elsewhere
  | .expire worker id =>
    match state.workers worker, state.rows id with
    | .expiring asOf, some row =>
      match Notifications.expire asOf row with
      | none => .error .notDue
      | some after => .ok (state.setRow id (some after))
    | _, _ => .error .elsewhere
  | .expired worker =>
    match state.workers worker with
    | .expiring _ => .ok (state.setWorker worker .ready)
    | _ => .error .elsewhere
  | .count worker =>
    match state.workers worker with
    | .ready =>
      if settings.notificationEmailDailyCap ≤ state.emailsSentCount state.now then
        .ok (state.setWorker worker .idle)
      else .ok (state.setWorker worker (.counted state.now))
    | _ => .error .elsewhere
  | .claim worker id =>
    match state.workers worker, state.rows id with
    | .counted asOf, some row =>
      if state.claimable settings asOf row then
        .ok ((state.setWorker worker (.claimed id)).setRow id
          (some { row with status := .running, claimedAt := some asOf }))
      else .error .notClaimable
    | _, _ => .error .elsewhere
  | .finish worker =>
    -- every claimable row may be locked by another claim
    match state.workers worker with
    | .counted _ => .ok (state.setWorker worker .idle)
    | _ => .error .elsewhere
  | .load worker =>
    match state.workers worker with
    | .claimed id =>
      match state.rows id with
      | none => .ok (state.setWorker worker .idle)
      | some row => .ok (state.setWorker worker (.loaded id row.attemptCount))
    | _ => .error .elsewhere
  | .attempt worker reading =>
    match state.workers worker with
    | .loaded id attemptCount => .ok (state.attempt settings worker id attemptCount reading)
    | _ => .error .elsewhere
  | .answer worker reply =>
    match state.workers worker with
    | .calling id attemptCount => .ok (state.answer worker id attemptCount reply)
    | _ => .error .elsewhere
  | .land worker =>
    match state.workers worker with
    | .landing id attemptCount outcome => .ok (state.land worker id attemptCount outcome)
    | _ => .error .elsewhere
  | .landFails worker =>
    match state.workers worker with
    | .landing id _ outcome => .ok (state.landFails worker id outcome)
    | _ => .error .elsewhere
  | .reload worker =>
    match state.workers worker with
    | .raised id =>
      match state.rows id with
      | none => .ok (state.setWorker worker .ready)
      | some row => .ok (state.setWorker worker (.counting id row.attemptCount))
    | _ => .error .elsewhere
  | .recount worker =>
    match state.workers worker with
    | .counting id attemptCount =>
      match state.rows id with
      | none => .ok (state.setWorker worker .idle)
      | some row =>
        .ok ((state.setWorker worker .ready).setRow id (some (countFailure attemptCount row)))
    | _ => .error .elsewhere
  | .crash worker => .ok (state.setWorker worker .idle)
  | _ => .error .elsewhere

/-- One step: time passes, an action emits or deletes, or a worker runs its next
statement or stops. -/
def step (settings : DeliverySettings) (label : QueueLabel) (state : QueueState) :
    Except QueueBlocked QueueState :=
  match label with
  | .tick later =>
    if later < state.now then .error .clockRunsForward else .ok { state with now := later }
  | .emit notification userId delivery createdAt =>
    if state.notifications notification ≠ none ∨ (∃ id ∈ delivery, id ∈ state.ids) ∨
        state.now < createdAt then .error .notFresh
    else .ok (state.emit notification userId delivery createdAt)
  | .unqueue id =>
    match state.rows id with
    | none => .error .notThere
    | some row =>
      if row.notificationId ≠ none ∧ (row.status = .queued ∨ row.status = .skipped) then
        .ok (state.setRow id none)
      else .error .notDue
  | .erase notification => .ok (state.erase notification)
  | _ => state.runWorker settings label

/-- Nothing was ever emitted and no worker runs. -/
structure Initial (state : QueueState) : Prop where
  ids : state.ids = []
  rows : ∀ id, state.rows id = none
  workers : ∀ worker, state.workers worker = .idle
  handed : ∀ id, state.handed id = 0
  refusals : ∀ id, state.refusals id = 0

end QueueState

/-- Every run of emits, deletions and workers. -/
def deliverySystem (settings : DeliverySettings) : System QueueState QueueLabel :=
  System.ofStep QueueState.Initial (QueueState.step settings)

/-- A delivery is handed to the provider only when every earlier call was
refused, and never more often than the attempt limit. -/
structure SendsOnce (system : System QueueState QueueLabel) : Prop where
  refusedBefore : ∀ {state next label id}, system.Reachable state →
    system.Step state label next → state.handed id < next.handed id →
      state.refusals id = state.handed id
  limit : ∀ {state id}, system.Reachable state → state.handed id ≤ maxAttempts

end Vidit.Notifications
