import Mathlib.Data.Option.Basic
import Mathlib.Logic.Function.Basic
import Vidit.Accounts.User
import Vidit.Bot.CatchUp
import Vidit.Python.Unicode

/-!
Contract: the mention queue the bot's workers drain.

A delivery inserts its mentions in one statement. A worker claims a row, reads its
payload, processes it and lands it, each in a transaction of its own, and may
stall or crash between any two.

Owns:
- the `bot_mentions` row with its two constraints, `enqueue_mentions`, `_claim`,
  `_mention_from_payload`, `_finish` and `drain_mentions`;
- the system of their interleavings, over any number of workers.

Does not own: the pipeline, of which only the verdict is kept, the reply budget,
and the order in which rows are claimed.
-/

namespace Vidit.Bot

open Vidit.Python Vidit.Accounts Vidit.Library

/-- `_MAX_ATTEMPTS`. -/
def maxAttempts : Nat := 3

def staleRunningAfter : Int := 60 * 60 * 1000000

inductive BotMentionOutcome where
  | created
  | updated
  | requested
  | inherited
  | noDetection
  | noAccount
  | skipped
  | self
  | failed
deriving DecidableEq, Repr

inductive BotMentionStatus where
  | queued
  | running
  | done
  | failed
deriving DecidableEq, Repr

structure Mention where
  tweetId : Str
  authorId : Str
  authorHandle : Str
  text : Str
  inReplyToUserId : Option Str
  inReplyToStatusId : Option Str
deriving DecidableEq, Repr

/-- A payload object; a member that is absent or no string is `none`. -/
structure Payload where
  tweetId : Option Str
  authorId : Option Str
  authorHandle : Option Str
  text : Option Str
  inReplyToUserId : Option Str
  inReplyToStatusId : Option Str
deriving DecidableEq, Repr

/-- `dataclasses.asdict`. -/
def Mention.asdict (mention : Mention) : Payload where
  tweetId := some mention.tweetId
  authorId := some mention.authorId
  authorHandle := some mention.authorHandle
  text := some mention.text
  inReplyToUserId := mention.inReplyToUserId
  inReplyToStatusId := mention.inReplyToStatusId

/-- `_mention_from_payload`. -/
def mentionFromPayload (payload : Option Payload) : Option Mention :=
  match payload with
  | none => none
  | some payload =>
    match payload.tweetId, payload.authorId, payload.authorHandle with
    | some tweetId, some authorId, some authorHandle =>
      some
        { tweetId, authorId, authorHandle, text := payload.text.getD []
          inReplyToUserId := payload.inReplyToUserId
          inReplyToStatusId := payload.inReplyToStatusId }
    | _, _, _ => none

theorem mentionFromPayload_asdict (mention : Mention) :
    mentionFromPayload (some mention.asdict) = some mention := by
  rfl

structure BotMention where
  mentionPostId : Nat
  authorXHandle : Str
  payload : Option Payload
  status : BotMentionStatus
  attemptCount : Nat
  outcome : Option BotMentionOutcome
  createdEventCount : Nat
  replyPostId : Option Nat
  createdAt : Instant
  processedAt : Option Instant
deriving DecidableEq, Repr

/-- `ck_bot_mentions_outcome_done`. -/
def BotMention.Checks (row : BotMention) : Prop :=
  row.status = .done ↔ row.outcome.isSome = true

instance (row : BotMention) : Decidable row.Checks := by
  unfold BotMention.Checks
  infer_instance

/-- The row is `done` or `failed`. -/
def BotMention.isLanded (row : BotMention) : Bool :=
  row.status = .done || row.status = .failed

/-- The rows of the SELECT of `_claim`. -/
def isClaimable (asOf : Instant) (row : BotMention) : Bool :=
  row.status = .queued ||
    (row.status = .running && row.processedAt.any (· < asOf - staleRunningAfter))

/-- What `enqueue_mentions` inserts for a mention. -/
def newRow (now : Instant) (postId : Nat) (mention : Mention) : BotMention where
  mentionPostId := postId
  authorXHandle := mention.authorHandle
  payload := some mention.asdict
  status := .queued
  attemptCount := 0
  outcome := none
  createdEventCount := 0
  replyPostId := none
  createdAt := now
  processedAt := none

/-- `_finish`. -/
def finish (now : Instant) (outcome : BotMentionOutcome) (createdEventCount : Nat)
    (replyPostId : Option Nat) (row : BotMention) : BotMention :=
  { row with
    status := .done
    outcome := some outcome
    createdEventCount := createdEventCount
    replyPostId := replyPostId
    payload := none
    processedAt := some now }

/-- The row `_claim` returns. -/
def claimed (asOf : Instant) (row : BotMention) : BotMention :=
  { row with
    status := .running
    attemptCount := row.attemptCount + 1
    processedAt := some asOf }

/-- A row past the attempt budget. -/
def buried (asOf : Instant) (row : BotMention) : BotMention :=
  { row with
    status := .failed
    processedAt := some asOf }

/-- `int(m.tweet_id)`, for a column of 63 bits. -/
def postId (mention : Mention) : Option Nat :=
  match intOfDigits mention.tweetId with
  | some number => if number ≤ bigintMax then some number else none
  | none => none

/-- Where a worker stands in `drain_mentions`. -/
inductive Drain where
  | idle
  | scanning (asOf : Instant)
  /-- The claim is committed and the payload not yet read. -/
  | claimed (id : Uuid)
  | malformed (id : Uuid)
  | processing (id : Uuid) (mention : Mention)
  /-- An exception reached the drain. -/
  | requeueing (id : Uuid)
deriving DecidableEq, Repr

structure QueueState where
  now : Instant
  ids : List Uuid
  rows : Uuid → Option BotMention
  workers : Nat → Drain
  /-- The posts of every delivery that committed. -/
  delivered : List Nat
  /-- How often a worker was handed a row. -/
  claims : Uuid → Nat
  /-- The hour of the last hand-out of a row. -/
  claimedAt : Uuid → Option Instant

inductive QueueLabel where
  | tick (later : Instant)
  | enqueue (mentions : List (Uuid × Mention))
  | scan (worker : Nat)
  | claim (worker : Nat) (id : Uuid)
  /-- No claimable row is left, or all are locked. -/
  | drained (worker : Nat)
  | read (worker : Nat)
  | drop (worker : Nat)
  | land (worker : Nat) (outcome : BotMentionOutcome) (created : Nat) (reply : Option Nat)
  | raise (worker : Nat)
  | requeue (worker : Nat)
  | crash (worker : Nat)
deriving DecidableEq, Repr

/-- Why a step is not possible. -/
inductive QueueBlocked where
  | clockRunsForward
  | elsewhere
  | notFresh
  | outOfRange
  | notClaimable
deriving DecidableEq, Repr

namespace QueueState

def setWorker (state : QueueState) (worker : Nat) (next : Drain) : QueueState :=
  { state with workers := Function.update state.workers worker next }

/-- A committed write to a row; one that breaks the CHECK raises and writes nothing. -/
def write (state : QueueState) (id : Uuid) (row : BotMention) : QueueState :=
  if row.Checks then { state with rows := Function.update state.rows id (some row) } else state

/-- Some row has the post. -/
def hasPost (state : QueueState) (post : Nat) : Bool :=
  state.ids.any fun id => (state.rows id).any fun row => row.mentionPostId = post

/-- One value of the INSERT, with its `ON CONFLICT DO NOTHING`. -/
def insertOne (state : QueueState) (id : Uuid) (post : Nat) (mention : Mention) : QueueState :=
  if state.hasPost post then { state with delivered := post :: state.delivered }
  else
    { state with
      ids := id :: state.ids
      rows := Function.update state.rows id (some (newRow state.now post mention))
      delivered := post :: state.delivered }

/-- The INSERT of `enqueue_mentions`. -/
def insertAll : List (Uuid × Mention) → QueueState → Except QueueBlocked QueueState
  | [], state => .ok state
  | (id, mention) :: mentions, state =>
    match postId mention with
    | none => .error .outOfRange
    | some post =>
      if id ∈ state.ids then .error .notFresh
      else insertAll mentions (state.insertOne id post mention)

/-- `_claim` on one row: handed to the worker, or buried. -/
def claim (state : QueueState) (worker : Nat) (asOf : Instant) (id : Uuid)
    (row : BotMention) : QueueState :=
  if maxAttempts ≤ row.attemptCount then state.write id (buried asOf row)
  else
    { (state.setWorker worker (.claimed id)).write id (claimed asOf row) with
      claims := Function.update state.claims id (state.claims id + 1)
      claimedAt := Function.update state.claimedAt id (some asOf) }

/-- The payload as it stands when `drain_mentions` reads it. -/
def read (state : QueueState) (worker : Nat) (id : Uuid) (row : BotMention) : QueueState :=
  match mentionFromPayload row.payload with
  | none => state.setWorker worker (.malformed id)
  | some mention => state.setWorker worker (.processing id mention)

/-- One step: time passes, a delivery commits, or a worker runs its next statement. -/
def step : QueueLabel → QueueState → Except QueueBlocked QueueState
  | .tick later, state =>
    if later < state.now then .error .clockRunsForward else .ok { state with now := later }
  | .enqueue mentions, state => insertAll mentions state
  | .scan worker, state =>
    match state.workers worker with
    | .idle => .ok (state.setWorker worker (.scanning state.now))
    | _ => .error .elsewhere
  | .claim worker id, state =>
    match state.workers worker, state.rows id with
    | .scanning asOf, some row =>
      if isClaimable asOf row then .ok ((state.setWorker worker .idle).claim worker asOf id row)
      else .error .notClaimable
    | _, _ => .error .elsewhere
  | .drained worker, state =>
    match state.workers worker with
    | .scanning _ => .ok (state.setWorker worker .idle)
    | _ => .error .elsewhere
  | .read worker, state =>
    match state.workers worker with
    | .claimed id =>
      match state.rows id with
      | some row => .ok (state.read worker id row)
      | none => .ok (state.setWorker worker .idle)
    | _ => .error .elsewhere
  | .drop worker, state =>
    match state.workers worker with
    | .malformed id =>
      match state.rows id with
      | some row => .ok ((state.setWorker worker .idle).write id { row with status := .failed })
      | none => .ok (state.setWorker worker .idle)
    | _ => .error .elsewhere
  | .land worker outcome created reply, state =>
    match state.workers worker with
    | .processing id _ =>
      match state.rows id with
      | some row =>
        .ok ((state.setWorker worker .idle).write id (finish state.now outcome created reply row))
      | none => .ok (state.setWorker worker (.requeueing id))
    | _ => .error .elsewhere
  | .raise worker, state =>
    match state.workers worker with
    | .processing id _ => .ok (state.setWorker worker (.requeueing id))
    | _ => .error .elsewhere
  | .requeue worker, state =>
    match state.workers worker with
    | .requeueing id =>
      match state.rows id with
      | some row => .ok ((state.setWorker worker .idle).write id { row with status := .queued })
      | none => .ok (state.setWorker worker .idle)
    | _ => .error .elsewhere
  | .crash worker, state => .ok (state.setWorker worker .idle)

/-- The table is empty and no worker runs. -/
structure Initial (state : QueueState) : Prop where
  ids : state.ids = []
  rows : ∀ id, state.rows id = none
  workers : ∀ worker, state.workers worker = .idle
  delivered : state.delivered = []
  claims : ∀ id, state.claims id = 0

end QueueState

/-- Every interleaving of the deliveries and the workers. -/
def mentionQueue : System QueueState QueueLabel :=
  System.ofStep QueueState.Initial QueueState.step

/-- What the queue keeps: each delivered post is one row, claimed within the limit; a row has
an outcome exactly when it is done; a landed row is handed out no more, and a running one
only after the stale interval. -/
structure KeepsMentions (system : System QueueState QueueLabel) : Prop where
  stored : ∀ {state}, system.Reachable state → ∀ post,
    post ∈ state.delivered ↔ ∃ id row, state.rows id = some row ∧ row.mentionPostId = post
  once : ∀ {state}, system.Reachable state → ∀ {id other row otherRow},
    state.rows id = some row → state.rows other = some otherRow →
      row.mentionPostId = otherRow.mentionPostId → id = other
  withinAttempts : ∀ {state}, system.Reachable state → ∀ id, state.claims id ≤ maxAttempts
  outcomeWhenDone : ∀ {state}, system.Reachable state → ∀ {id row},
    state.rows id = some row → (row.outcome.isSome = true ↔ row.status = .done)
  landedStays : ∀ {state final id row}, system.Reachable state → system.Run state final →
    state.rows id = some row → row.isLanded = true → final.claims id = state.claims id
  freshKept : ∀ {state worker id next row}, system.Reachable state →
    system.Step state (.claim worker id) next → state.rows id = some row →
      row.status = .running →
        ∃ last, state.claimedAt id = some last ∧ last < state.now - staleRunningAfter

end Vidit.Bot
