import Mathlib.Logic.Function.Basic
import Vidit.Accounts.User
import Vidit.Library.Transition

/-!
Contract: the archive-import queue, its workers and their heartbeats.

An enqueue checks for the key and inserts in two statements. A worker claims a
row, runs it and lands it, each in a transaction of its own, while a thread
stamps the row; all of them may stall, and a worker may crash, between any two
statements.

Owns:
- `enqueue`, `claim_next`, `_heartbeat_loop`, `process` and `_finish`;
- the system of their interleavings, over any number of requests and workers.

Does not own: the backfill a job runs, its counts and emails, and the staged
object, of which only the size is read.
-/

namespace Vidit.Imports

open Vidit.Python Vidit.Accounts Vidit.Library

def staleRunningAfter : Int := 30 * 60 * 1000000

def maxAttempts : Nat := 3

/-- `archive_zip.MAX_UPLOAD_BYTES`. -/
def maxUploadBytes : Nat := 4 * 1024 ^ 3

inductive ArchiveImportJobStatus where
  | queued
  | running
  | done
  | failed
deriving DecidableEq, Repr

structure ArchiveImportJob where
  zipKey : Str
  status : ArchiveImportJobStatus
  attemptCount : Nat
  startedAt : Option Instant
  finishedAt : Option Instant
  error : Option Str
deriving DecidableEq, Repr

/-- The row is `done` or `failed`. -/
def ArchiveImportJob.isLanded (job : ArchiveImportJob) : Bool :=
  job.status = .done || job.status = .failed

/-- The rows of the SELECT of `claim_next`. -/
def isRunnable (asOf : Instant) (job : ArchiveImportJob) : Bool :=
  job.status = .queued ||
    (job.status = .running && job.startedAt.any (· < asOf - staleRunningAfter))

/-- `_finish`. -/
def finish (now : Instant) (status : ArchiveImportJobStatus) (error : Option Str)
    (job : ArchiveImportJob) : ArchiveImportJob :=
  { job with status := status, error := error, finishedAt := some now }

/-- The row `claim_next` returns. -/
def claimed (asOf : Instant) (job : ArchiveImportJob) : ArchiveImportJob :=
  { job with status := .running, attemptCount := job.attemptCount + 1, startedAt := some asOf }

/-- The account a job belongs to, with its linked handle. -/
structure ImportOwner where
  user : User
  xHandle : Option Str
deriving DecidableEq, Repr

/-- The checks of `process` before the work, on the owner and the staged object. -/
def refusal (owner : Option ImportOwner) (size : Option Nat) : Option Str :=
  match owner with
  | none => some (str "owner gone")
  | some owner =>
    if ¬ owner.user.IsLive then some (str "owner gone")
    else if owner.xHandle = none then some (str "owner has no linked X handle")
    else
      match size with
      | none => some (str "staged object missing")
      | some bytes =>
        if maxUploadBytes < bytes then some (str "staged object oversized") else none

/-- Where a request stands in `enqueue`. -/
inductive Enqueue where
  | idle
  | refused
  | checking (uploadKey : Str)
  /-- No row has the key. -/
  | checked (uploadKey : Str)
deriving DecidableEq, Repr

/-- Where a worker stands in `run_once`. -/
inductive Worker where
  | idle
  | scanning (asOf : Instant)
  | claimed (id : Uuid)
  | working (id : Uuid) (heart : Nat)
  /-- The run failed; the thread of a run that raised still beats. -/
  | failing (id : Uuid) (error : Str) (heart : Option Nat)
  | completing (id : Uuid)
deriving DecidableEq, Repr

/-- The row a worker has claimed. -/
def Worker.holds : Worker → Option Uuid
  | .claimed id | .working id _ | .failing id _ _ | .completing id => some id
  | .idle | .scanning _ => none

/-- A thread of `_heartbeat_loop`. -/
inductive Heart where
  | off
  | beating (id : Uuid)
  /-- The clock is read and the UPDATE not yet run; a stopped thread ends with it. -/
  | stamping (id : Uuid) (at' : Instant) (stopped : Bool)
deriving DecidableEq, Repr

/-- `stop.set()`. -/
def Heart.stop : Heart → Heart
  | .stamping id at' _ => .stamping id at' true
  | _ => .off

structure JobState where
  now : Instant
  /-- Every job ever enqueued. -/
  ids : List Uuid
  jobs : Uuid → Option ArchiveImportJob
  requests : Nat → Enqueue
  workers : Nat → Worker
  hearts : Nat → Heart
  /-- How often a worker was handed a job. -/
  claims : Uuid → Nat

inductive JobLabel where
  | tick (later : Instant)
  | enqueue (request : Nat) (uploadKey : Str)
  | check (request : Nat)
  | insert (request : Nat) (id : Uuid)
  | scan (worker : Nat)
  | claim (worker : Nat) (id : Uuid)
  /-- No runnable row is left, or all are locked. -/
  | drained (worker : Nat)
  | begin (worker : Nat) (owner : Option ImportOwner) (size : Option Nat) (heart : Nat)
  | complete (worker : Nat)
  | raise (worker : Nat) (error : Str)
  | finish (worker : Nat)
  | crash (worker : Nat)
  | beat (heart : Nat)
  | stamp (heart : Nat)
deriving DecidableEq, Repr

/-- Why a step is not possible. -/
inductive JobBlocked where
  | clockRunsForward
  | busy
  | elsewhere
  | notFresh
  | notRunnable
deriving DecidableEq, Repr

namespace JobState

def setRequest (state : JobState) (request : Nat) (next : Enqueue) : JobState :=
  { state with requests := Function.update state.requests request next }

def setWorker (state : JobState) (worker : Nat) (next : Worker) : JobState :=
  { state with workers := Function.update state.workers worker next }

def setHeart (state : JobState) (heart : Nat) (next : Heart) : JobState :=
  { state with hearts := Function.update state.hearts heart next }

def setJob (state : JobState) (id : Uuid) (job : ArchiveImportJob) : JobState :=
  { state with jobs := Function.update state.jobs id (some job) }

/-- Some row has the key. -/
def hasKey (state : JobState) (uploadKey : Str) : Bool :=
  state.ids.any fun id => (state.jobs id).any fun job => job.zipKey = uploadKey

/-- The row `enqueue` adds. -/
def newJob (uploadKey : Str) : ArchiveImportJob where
  zipKey := uploadKey
  status := .queued
  attemptCount := 0
  startedAt := none
  finishedAt := none
  error := none

/-- The INSERT of `enqueue`. -/
def insert (state : JobState) (request : Nat) (uploadKey : Str) (id : Uuid) : JobState :=
  { (state.setRequest request .idle).setJob id (newJob uploadKey) with ids := id :: state.ids }

/-- `claim_next` on one row: handed to the worker, or buried. -/
def claim (state : JobState) (worker : Nat) (asOf : Instant) (id : Uuid)
    (job : ArchiveImportJob) : JobState :=
  if maxAttempts ≤ job.attemptCount then
    (state.setWorker worker .idle).setJob id
      (Imports.finish state.now .failed (some (str "attempt budget spent")) job)
  else
    { (state.setWorker worker (.claimed id)).setJob id (claimed asOf job) with
      claims := Function.update state.claims id (state.claims id + 1) }

/-- `process` up to the work: a refusal, or the thread and the work start. -/
def begin (state : JobState) (worker : Nat) (id : Uuid) (owner : Option ImportOwner)
    (size : Option Nat) (heart : Nat) : Except JobBlocked JobState :=
  match refusal owner size with
  | some error => .ok (state.setWorker worker (.failing id error none))
  | none =>
    match state.hearts heart with
    | .off => .ok ((state.setWorker worker (.working id heart)).setHeart heart (.beating id))
    | _ => .error .busy

def stopHeart (state : JobState) (heart : Nat) : JobState :=
  state.setHeart heart (state.hearts heart).stop

/-- The commit of `_finish`, by id; a row that is gone is left. -/
def land (state : JobState) (worker : Nat) (id : Uuid) (status : ArchiveImportJobStatus)
    (error : Option Str) : JobState :=
  match state.jobs id with
  | none => state.setWorker worker .idle
  | some job =>
    (state.setWorker worker .idle).setJob id (Imports.finish state.now status error job)

/-- A worker that dies takes its thread along. -/
def crash (state : JobState) (worker : Nat) : JobState :=
  match state.workers worker with
  | .working _ heart | .failing _ _ (some heart) =>
    (state.setWorker worker .idle).setHeart heart .off
  | _ => state.setWorker worker .idle

/-- The UPDATE of a beat, by id. -/
def stamp (state : JobState) (heart : Nat) (id : Uuid) (at' : Instant) (stopped : Bool) :
    JobState :=
  let beaten := state.setHeart heart (if stopped then .off else .beating id)
  match state.jobs id with
  | none => beaten
  | some job => beaten.setJob id { job with startedAt := some at' }

/-- One statement of a worker. -/
def runWorker (state : JobState) : JobLabel → Except JobBlocked JobState
  | .scan worker =>
    match state.workers worker with
    | .idle => .ok (state.setWorker worker (.scanning state.now))
    | _ => .error .elsewhere
  | .claim worker id =>
    match state.workers worker, state.jobs id with
    | .scanning asOf, some job =>
      if isRunnable asOf job then .ok (state.claim worker asOf id job) else .error .notRunnable
    | _, _ => .error .elsewhere
  | .drained worker =>
    match state.workers worker with
    | .scanning _ => .ok (state.setWorker worker .idle)
    | _ => .error .elsewhere
  | .begin worker owner size heart =>
    match state.workers worker with
    | .claimed id => state.begin worker id owner size heart
    | _ => .error .elsewhere
  | .complete worker =>
    match state.workers worker with
    | .working id heart => .ok ((state.setWorker worker (.completing id)).stopHeart heart)
    | _ => .error .elsewhere
  | .raise worker error =>
    match state.workers worker with
    | .working id heart => .ok (state.setWorker worker (.failing id error (some heart)))
    | _ => .error .elsewhere
  | .finish worker =>
    match state.workers worker with
    | .completing id => .ok (state.land worker id .done none)
    | .failing id error none => .ok (state.land worker id .failed (some error))
    | .failing id error (some heart) =>
      .ok ((state.land worker id .failed (some error)).stopHeart heart)
    | _ => .error .elsewhere
  | .crash worker => .ok (state.crash worker)
  | _ => .error .elsewhere

/-- One statement of a request. -/
def runRequest (state : JobState) : JobLabel → Except JobBlocked JobState
  | .enqueue request uploadKey =>
    match state.requests request with
    | .idle | .refused => .ok (state.setRequest request (.checking uploadKey))
    | _ => .error .busy
  | .check request =>
    match state.requests request with
    | .checking uploadKey =>
      if state.hasKey uploadKey then .ok (state.setRequest request .refused)
      else .ok (state.setRequest request (.checked uploadKey))
    | _ => .error .elsewhere
  | .insert request id =>
    match state.requests request with
    | .checked uploadKey =>
      if id ∈ state.ids then .error .notFresh else .ok (state.insert request uploadKey id)
    | _ => .error .elsewhere
  | _ => .error .elsewhere

/-- One statement of a thread. -/
def runHeart (state : JobState) : JobLabel → Except JobBlocked JobState
  | .beat heart =>
    match state.hearts heart with
    | .beating id => .ok (state.setHeart heart (.stamping id state.now false))
    | _ => .error .elsewhere
  | .stamp heart =>
    match state.hearts heart with
    | .stamping id at' stopped => .ok (state.stamp heart id at' stopped)
    | _ => .error .elsewhere
  | _ => .error .elsewhere

/-- One step: time passes, or a request, a worker or a thread runs its next statement. -/
def step (label : JobLabel) (state : JobState) : Except JobBlocked JobState :=
  match label with
  | .tick later =>
    if later < state.now then .error .clockRunsForward else .ok { state with now := later }
  | .enqueue _ _ | .check _ | .insert _ _ => state.runRequest label
  | .beat _ | .stamp _ => state.runHeart label
  | _ => state.runWorker label

/-- Nothing is enqueued and nothing runs. -/
structure Initial (state : JobState) : Prop where
  ids : state.ids = []
  jobs : ∀ id, state.jobs id = none
  requests : ∀ request, state.requests request = .idle
  workers : ∀ worker, state.workers worker = .idle
  hearts : ∀ heart, state.hearts heart = .off
  claims : ∀ id, state.claims id = 0

end JobState

/-- Every interleaving of the requests, the workers and their threads. -/
def jobSystem : System JobState JobLabel :=
  System.ofStep JobState.Initial JobState.step

/-- One key backs one job, no job is claimed past the limit or while its stamp is fresh, and
a landed job stays as it landed. -/
structure RunsSafely (system : System JobState JobLabel) : Prop where
  oneJobPerKey : ∀ {state}, system.Reachable state → ∀ {id other job otherJob},
    state.jobs id = some job → state.jobs other = some otherJob →
      job.zipKey = otherJob.zipKey → id = other
  withinAttempts : ∀ {state}, system.Reachable state → ∀ id, state.claims id ≤ maxAttempts
  freshKept : ∀ {state worker id next job}, system.Reachable state →
    system.Step state (.claim worker id) next → state.jobs id = some job →
      job.status = .running → job.startedAt.any (· < state.now - staleRunningAfter)
  landedStays : ∀ {state final id job}, system.Reachable state → system.Run state final →
    state.jobs id = some job → job.isLanded →
      ∃ after, final.jobs id = some after ∧ after.status = job.status

/-- An enqueue inserts while no row has its key, and a worker lands a row that is still
`running`. -/
def Unrivalled (state : JobState) : JobLabel → Prop
  | .insert request _ => ∀ uploadKey, state.requests request = .checked uploadKey →
      state.hasKey uploadKey = false
  | .finish worker => ∀ id job, (state.workers worker).holds = some id →
      state.jobs id = some job → job.status = .running
  | _ => True

end Vidit.Imports
