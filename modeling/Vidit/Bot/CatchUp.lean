import Mathlib.Algebra.Group.Nat.Defs
import Mathlib.Data.List.Dedup
import Mathlib.Logic.Function.Basic
import Vidit.Library.Transition

/-!
Contract: the catch-up behind the mentions webhook.

A mention is its post id. The webhook queues any of the posted mentions, in any
order; a catch-up pass reads its cursor, fetches, and queues what it fetched,
each in a statement of its own.

Owns:
- `_since_id`, `enqueue_mentions` and `catch_up`, and the system of posts,
  deliveries and passes;
- `CatchesUp`, that a pass that succeeds leaves no earlier mention out, and the
  condition on its first statement under which it does.

Does not own: the mentions endpoint of X, which is taken to return every mention
past the cursor, and what the worker does with a queued row.
-/

namespace Vidit.Bot

open Vidit.Library

/-- `CATCH_UP_INTERVAL` in milliseconds. -/
def catchUpIntervalMs : Nat := 60 * 60 * 1000

/-- `_SINCE_ID_OVERLAP`: one interval in snowflake ids. -/
def sinceIdOverlap : Nat := catchUpIntervalMs <<< 22

/-- The largest value of a `BigInteger` column. -/
def bigintMax : Nat := 2 ^ 63 - 1

/-- `_since_id` over the ids of the `bot_mentions` rows. -/
def sinceId (rows : List Nat) : Option Nat :=
  rows.max?.map fun latest => max (latest - sinceIdOverlap) 1

/-- `enqueue_mentions`: the rows after the INSERT, and the mentions it inserted. -/
def enqueueMentions (rows mentions : List Nat) : Option (List Nat × List Nat) :=
  if ∀ mention ∈ mentions, mention ≤ bigintMax then
    let inserted := (mentions.filter fun mention => mention ∉ rows).dedup
    some (rows ++ inserted, mentions.filter fun mention => mention ∈ inserted)
  else none

theorem mem_enqueueMentions {rows mentions queued fresh : List Nat}
    (enqueued : enqueueMentions rows mentions = some (queued, fresh)) {mention : Nat} :
    mention ∈ queued ↔ mention ∈ rows ∨ mention ∈ mentions := by
  unfold enqueueMentions at enqueued
  split at enqueued
  · cases enqueued
    simp only [List.mem_append, List.mem_dedup, List.mem_filter, decide_eq_true_eq]
    tauto
  · contradiction

/-- Where a catch-up pass stands; `before` are the mentions posted when it began. -/
inductive Pass where
  | idle
  | reads (before : List Nat) (cursor : Option Nat)
  | fetched (before mentions : List Nat)
deriving DecidableEq, Repr

structure MentionState where
  /-- The mentions posted so far. -/
  posted : List Nat
  /-- The `mention_post_id` of every row. -/
  rows : List Nat
  passes : Nat → Pass
  /-- The mentions posted before a pass that has succeeded. -/
  settled : List Nat

inductive MentionLabel where
  | post (mention : Nat)
  | deliver (mentions : List Nat)
  | begin (pass : Nat)
  | fetch (pass : Nat) (mentions : List Nat)
  | enqueue (pass : Nat)
  | fail (pass : Nat)
deriving DecidableEq, Repr

/-- Why a step is not possible. -/
inductive MentionBlocked where
  | notIncreasing
  | notPosted
  | busy
  | idle
  | incomplete
  | outOfRange
deriving DecidableEq, Repr

/-- What the endpoint answers: posted mentions, and every one past the cursor. -/
def Answers (posted : List Nat) (cursor : Option Nat) (mentions : List Nat) : Prop :=
  (∀ mention ∈ mentions, mention ∈ posted) ∧
    ∀ mention ∈ posted, (∀ since ∈ cursor, since < mention) → mention ∈ mentions

instance (posted : List Nat) (cursor : Option Nat) (mentions : List Nat) :
    Decidable (Answers posted cursor mentions) := by
  unfold Answers
  infer_instance

namespace MentionState

def setPass (state : MentionState) (pass : Nat) (next : Pass) : MentionState :=
  { state with passes := Function.update state.passes pass next }

def step : MentionLabel → MentionState → Except MentionBlocked MentionState
  | .post mention, state =>
    if ∀ earlier ∈ state.posted, earlier < mention then
      .ok { state with posted := mention :: state.posted }
    else .error .notIncreasing
  | .deliver mentions, state =>
    if ∀ mention ∈ mentions, mention ∈ state.posted then
      match enqueueMentions state.rows mentions with
      | none => .error .outOfRange
      | some (rows, _) => .ok { state with rows := rows }
    else .error .notPosted
  | .begin pass, state =>
    match state.passes pass with
    | .idle => .ok (state.setPass pass (.reads state.posted (sinceId state.rows)))
    | _ => .error .busy
  | .fetch pass mentions, state =>
    match state.passes pass with
    | .reads before cursor =>
      if Answers state.posted cursor mentions then
        .ok (state.setPass pass (.fetched before mentions))
      else .error .incomplete
    | _ => .error .idle
  | .enqueue pass, state =>
    match state.passes pass with
    | .fetched before mentions =>
      match enqueueMentions state.rows mentions with
      | none => .error .outOfRange
      | some (rows, _) =>
        .ok { state.setPass pass .idle with
              rows := rows
              settled := before ++ state.settled }
    | _ => .error .idle
  | .fail pass, state => .ok (state.setPass pass .idle)

/-- Nothing is posted, queued or running. -/
def initial : MentionState where
  posted := []
  rows := []
  passes := fun _ => .idle
  settled := []

end MentionState

/-- Every schedule of posts, deliveries and passes. -/
def mentionSystem : System MentionState MentionLabel :=
  System.ofStep (· = MentionState.initial) MentionState.step

/-- When a pass succeeds, every mention posted before it began is a row. -/
def CatchesUp (system : System MentionState MentionLabel) : Prop :=
  ∀ (state next : MentionState) (pass : Nat) (before mentions : List Nat),
    system.Reachable state → state.passes pass = .fetched before mentions →
    system.Step state (.enqueue pass) next → ∀ mention ∈ before, mention ∈ next.rows

/-- When a pass begins, each mention dropped since the last pass that succeeded
is less than the overlap older than the newest row. -/
def WithinOverlap (state : MentionState) : MentionLabel → Prop
  | .begin _ => ∀ mention ∈ state.posted, mention ∉ state.settled → mention ∉ state.rows →
      1 < mention ∧ ∀ row ∈ state.rows, row < mention + sinceIdOverlap
  | _ => True

/-! ### What a pass has secured -/

/-- A mention less than the overlap older than every row is past the cursor. -/
theorem sinceId_lt {rows : List Nat} {mention : Nat} (past : 1 < mention)
    (near : ∀ row ∈ rows, row < mention + sinceIdOverlap) :
    ∀ since ∈ sinceId rows, since < mention := by
  intro since isSince
  unfold sinceId at isSince
  rcases Option.map_eq_some_iff.mp isSince with ⟨latest, isLatest, rfl⟩
  have below := near latest (List.max?_mem isLatest)
  omega

namespace MentionState

/-- The mentions a pass owes are rows, or among those it will queue. -/
def Owes (state : MentionState) : Pass → Prop
  | .idle => True
  | .reads before cursor =>
    ∀ mention ∈ before, mention ∈ state.posted ∧
      (mention ∈ state.rows ∨ ∀ since ∈ cursor, since < mention)
  | .fetched before mentions => ∀ mention ∈ before, mention ∈ state.rows ∨ mention ∈ mentions

structure Sound (state : MentionState) : Prop where
  settled : ∀ mention ∈ state.settled, mention ∈ state.rows
  owes : ∀ pass, state.Owes (state.passes pass)

theorem Owes.mono {state next : MentionState}
    (posted : ∀ mention ∈ state.posted, mention ∈ next.posted)
    (rows : ∀ mention ∈ state.rows, mention ∈ next.rows) {pass : Pass}
    (owes : state.Owes pass) : next.Owes pass := by
  cases pass with
  | idle => trivial
  | reads before cursor =>
      intro mention member
      rcases owes mention member with ⟨wasPosted, row | past⟩
      · exact ⟨posted mention wasPosted, .inl (rows mention row)⟩
      · exact ⟨posted mention wasPosted, .inr past⟩
  | fetched before mentions =>
      intro mention member
      rcases owes mention member with row | fetched
      · exact .inl (rows mention row)
      · exact .inr fetched

/-- A step that forgets no mention and moves at most one pass. -/
theorem Sound.of_mono {state next : MentionState} (sound : state.Sound) (pass : Nat)
    (posted : ∀ mention ∈ state.posted, mention ∈ next.posted)
    (rows : ∀ mention ∈ state.rows, mention ∈ next.rows)
    (settled : ∀ mention ∈ next.settled, mention ∈ next.rows)
    (others : ∀ other, other ≠ pass → next.passes other = state.passes other)
    (owes : next.Owes (next.passes pass)) : next.Sound := by
  refine ⟨settled, ?_⟩
  intro other
  by_cases here : other = pass
  · rw [here]
    exact owes
  · rw [others other here]
    exact (sound.owes other).mono posted rows

/-- Mentions posted or queued beside the passes. -/
theorem Sound.grows {state next : MentionState} (sound : state.Sound)
    (posted : ∀ mention ∈ state.posted, mention ∈ next.posted)
    (rows : ∀ mention ∈ state.rows, mention ∈ next.rows)
    (settled : next.settled = state.settled) (passes : next.passes = state.passes) :
    next.Sound := by
  refine ⟨?_, ?_⟩
  · intro mention member
    exact rows mention (sound.settled mention (settled ▸ member))
  · intro pass
    rw [passes]
    exact (sound.owes pass).mono posted rows

theorem Sound.setPass {state : MentionState} (sound : state.Sound) (pass : Nat) {next : Pass}
    (owes : state.Owes next) : (state.setPass pass next).Sound := by
  refine sound.of_mono pass (fun _ member => member) (fun _ member => member) sound.settled
    (fun other different => Function.update_of_ne different ..) ?_
  rw [show (state.setPass pass next).passes pass = next from Function.update_self ..]
  exact owes.mono (fun _ member => member) (fun _ member => member)

/-- The pass that queues what it fetched leaves out nothing it owed. -/
theorem Sound.enqueued {state : MentionState} (sound : state.Sound) {pass : Nat}
    {before mentions queued fresh : List Nat} (here : state.passes pass = .fetched before mentions)
    (enqueued : enqueueMentions state.rows mentions = some (queued, fresh)) :
    ∀ mention ∈ before, mention ∈ queued := by
  intro mention member
  have owed := sound.owes pass
  rw [here] at owed
  exact (mem_enqueueMentions enqueued).mpr (owed mention member)

theorem Sound.step {state next : MentionState} {label : MentionLabel} (sound : state.Sound)
    (within : WithinOverlap state label) (stepped : step label state = .ok next) :
    next.Sound := by
  cases label with
  | post mention =>
      simp only [MentionState.step] at stepped
      split at stepped
      · cases stepped
        exact sound.grows (fun _ member => List.mem_cons_of_mem _ member)
          (fun _ member => member) rfl rfl
      · contradiction
  | deliver mentions =>
      simp only [MentionState.step] at stepped
      split at stepped
      · split at stepped
        · contradiction
        · rename_i queued fresh enqueued
          cases stepped
          exact sound.grows (fun _ member => member)
            (fun mention member => (mem_enqueueMentions enqueued).mpr (.inl member)) rfl rfl
      · contradiction
  | begin pass =>
      simp only [MentionState.step] at stepped
      split at stepped
      · cases stepped
        refine sound.setPass pass ?_
        intro mention posted
        refine ⟨posted, ?_⟩
        by_cases row : mention ∈ state.rows
        · exact .inl row
        · have dropped : mention ∉ state.settled :=
            fun member => row (sound.settled mention member)
          rcases within mention posted dropped row with ⟨past, near⟩
          exact .inr (sinceId_lt past near)
      · contradiction
  | fetch pass mentions =>
      simp only [MentionState.step] at stepped
      split at stepped
      · rename_i before cursor here
        split at stepped
        · rename_i answers
          cases stepped
          refine sound.setPass pass ?_
          have owed := sound.owes pass
          rw [here] at owed
          intro mention member
          rcases owed mention member with ⟨posted, row | past⟩
          · exact .inl row
          · exact .inr (answers.2 mention posted past)
        · contradiction
      · contradiction
  | enqueue pass =>
      simp only [MentionState.step] at stepped
      split at stepped
      · rename_i before mentions here
        split at stepped
        · contradiction
        · rename_i queued fresh enqueued
          cases stepped
          have kept : ∀ mention ∈ state.rows, mention ∈ queued :=
            fun mention member => (mem_enqueueMentions enqueued).mpr (.inl member)
          refine sound.of_mono pass (fun _ member => member) kept ?_
            (fun other different => Function.update_of_ne different ..) ?_
          · intro mention member
            rcases List.mem_append.mp member with fetched | earlier
            · exact sound.enqueued here enqueued mention fetched
            · exact kept mention (sound.settled mention earlier)
          · rw [show (_ : MentionState).passes pass = .idle from Function.update_self ..]
            trivial
      · contradiction
  | fail pass =>
      cases stepped
      exact sound.setPass pass trivial

theorem initial_sound : initial.Sound :=
  ⟨by simp [initial], fun _ => trivial⟩

end MentionState

open MentionState

/-- In every run where no dropped mention falls behind the overlap, the catch-up loses none. -/
theorem catchesUp_of_withinOverlap {start : MentionState} (initial : start = .initial) :
    CatchesUp ((mentionSystem.restrict WithinOverlap).startingAt start) := by
  intro state next pass before mentions started here stepped
  have reachable : (mentionSystem.restrict WithinOverlap).Reachable state :=
    started.of_startingAt initial
  have sound : state.Sound := by
    refine System.Reachable.invariant ?_ ?_ reachable
    · rintro _ rfl
      exact initial_sound
    · intro earlier later label holds steps
      exact holds.step steps.1 steps.2
  have enqueues : MentionState.step (.enqueue pass) state = .ok next := stepped.2
  simp only [MentionState.step, here] at enqueues
  split at enqueues
  · contradiction
  · rename_i queued fresh enqueued
    cases enqueues
    exact sound.enqueued here enqueued

theorem catchesUp_initial :
    CatchesUp ((mentionSystem.restrict WithinOverlap).startingAt .initial) :=
  catchesUp_of_withinOverlap rfl

/-! ### A mention behind the overlap -/

namespace Behind

def dropped : Nat := 2 ^ 22

def delivered : Nat := dropped + 2 * sinceIdOverlap

/-- The webhook drops one mention and, two hours later, delivers the next before
the worker is back. -/
def workerDown : List MentionLabel :=
  [.post dropped, .post delivered, .deliver [delivered], .begin 0, .fetch 0 [delivered]]

/-- A mention the webhook dropped more than one interval before the newest row
stays behind the cursor. -/
theorem catchesUp_fails : ¬ CatchesUp mentionSystem := by
  intro claim
  have run : ∃ state, System.runLabels MentionState.step workerDown MentionState.initial =
      .ok state ∧ state.passes 0 = .fetched [delivered, dropped] [delivered] ∧
      ∃ next, MentionState.step (.enqueue 0) state = .ok next ∧ dropped ∉ next.rows :=
    ⟨_, rfl, rfl, _, rfl, by decide⟩
  rcases run with ⟨state, reached, here, next, stepped, missing⟩
  have reachable : mentionSystem.Reachable state :=
    ⟨_, rfl, System.Run.of_runLabels reached⟩
  exact missing (claim state next 0 _ _ reachable here stepped dropped (by decide))

end Behind

end Vidit.Bot
