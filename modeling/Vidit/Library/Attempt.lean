import Mathlib.Logic.Basic

/-!
Contract: computations on a state that may fail, and keep what they did to it.

A computation that raises has changed the state up to the point where it raised:
nothing rolls back.

Owns:
- the monad, its primitives, and a cleanup that runs when a computation raises;
- what a sequence did, by how its first part ended;
- `Fixes`, that a computation leaves a part of the state as it was however it ends;
- `Meets`, pre- and postconditions, one for a return and one for a raise.

Does not own: what the state holds.
-/

namespace Vidit.Library

/-- A computation on `σ` that may raise an `ε`. -/
def Attempt (σ ε α : Type) : Type :=
  σ → Except ε α × σ

namespace Attempt

variable {σ ε α β : Type}

def bind (first : Attempt σ ε α) (rest : α → Attempt σ ε β) : Attempt σ ε β := fun state =>
  match first state with
  | (.ok value, next) => rest value next
  | (.error raised, next) => (.error raised, next)

instance : Monad (Attempt σ ε) where
  pure value := fun state => (.ok value, state)
  bind := bind

/-- What a checked computation on the state alone answers. -/
def ask (answer : σ → Except ε α) : Attempt σ ε α := fun state =>
  (answer state, state)

def modify (change : σ → σ) : Attempt σ ε Unit := fun state =>
  (.ok (), change state)

/-- Run `cleanup` when the computation raises one of `caught`, and raise again. -/
def onRaise (caught : ε → Bool) (computation : Attempt σ ε α) (cleanup : Attempt σ ε Unit) :
    Attempt σ ε α := fun state =>
  match computation state with
  | (.ok value, next) => (.ok value, next)
  | (.error raised, next) =>
    if caught raised then
      match cleanup next with
      | (.ok _, final) => (.error raised, final)
      | (.error other, final) => (.error other, final)
    else (.error raised, next)

/-- Run a computation for each item. -/
def forEach {ι : Type} (items : List ι) (body : ι → Attempt σ ε Unit) : Attempt σ ε Unit :=
  match items with
  | [] => pure ()
  | item :: rest => do
    body item
    forEach rest body

@[simp] theorem pure_apply (value : α) (state : σ) :
    (pure value : Attempt σ ε α) state = (.ok value, state) := rfl

theorem bind_apply (first : Attempt σ ε α) (rest : α → Attempt σ ε β) (state : σ) :
    (first >>= rest) state =
      match first state with
      | (.ok value, next) => rest value next
      | (.error raised, next) => (.error raised, next) := rfl

@[simp] theorem ask_apply (answer : σ → Except ε α) (state : σ) :
    ask answer state = (answer state, state) := rfl

@[simp] theorem modify_apply (change : σ → σ) (state : σ) :
    (modify change : Attempt σ ε Unit) state = (.ok (), change state) := rfl

/-! ### Sequences -/

section Sequences

variable {first : Attempt σ ε α} {rest : α → Attempt σ ε β} {state next : σ}

theorem bind_of_ok {value : α} (ran : first state = (.ok value, next)) :
    (first >>= rest) state = rest value next := by
  rw [bind_apply, ran]

theorem bind_of_error {raised : ε} (ran : first state = (.error raised, next)) :
    (first >>= rest) state = (.error raised, next) := by
  rw [bind_apply, ran]

/-- A sequence that returned ran both its parts. -/
theorem bind_eq_ok {value : β} {final : σ} :
    (first >>= rest) state = (.ok value, final) ↔
      ∃ middle next, first state = (.ok middle, next) ∧ rest middle next = (.ok value, final) := by
  rw [bind_apply]
  rcases first state with ⟨raised | middle, next⟩
  · simp
  · constructor
    · intro ran
      exact ⟨middle, next, rfl, ran⟩
    · rintro ⟨_, _, same, ran⟩
      cases same
      exact ran

theorem ask_eq_ok {answer : σ → Except ε α} {value : α} :
    ask answer state = (.ok value, next) ↔ answer state = .ok value ∧ next = state := by
  rw [ask_apply, Prod.mk.injEq, @eq_comm σ state]

theorem pure_eq_ok {given value : α} :
    (pure given : Attempt σ ε α) state = (.ok value, next) ↔ given = value ∧ next = state := by
  rw [pure_apply, Prod.mk.injEq, Except.ok.injEq, @eq_comm σ state]

end Sequences

/-! ### Cleanups -/

section Cleanups

variable {caught : ε → Bool} {computation : Attempt σ ε α} {cleanup : Attempt σ ε Unit}
  {state next final : σ} {raised : ε}

theorem onRaise_of_ok {value : α} (ran : computation state = (.ok value, next)) :
    onRaise caught computation cleanup state = (.ok value, next) := by
  unfold onRaise
  rw [ran]

theorem onRaise_of_uncaught (ran : computation state = (.error raised, next))
    (uncaught : caught raised = false) :
    onRaise caught computation cleanup state = (.error raised, next) := by
  unfold onRaise
  rw [ran]
  simp [uncaught]

theorem onRaise_of_cleaned {done : Unit} (ran : computation state = (.error raised, next))
    (isCaught : caught raised = true) (cleaned : cleanup next = (.ok done, final)) :
    onRaise caught computation cleanup state = (.error raised, final) := by
  unfold onRaise
  rw [ran]
  simp [isCaught, cleaned]

theorem onRaise_of_notCleaned {other : ε} (ran : computation state = (.error raised, next))
    (isCaught : caught raised = true) (cleaned : cleanup next = (.error other, final)) :
    onRaise caught computation cleanup state = (.error other, final) := by
  unfold onRaise
  rw [ran]
  simp [isCaught, cleaned]

theorem onRaise_eq_ok {value : α} :
    onRaise caught computation cleanup state = (.ok value, next) ↔
      computation state = (.ok value, next) := by
  constructor
  · intro returned
    rcases ran : computation state with ⟨failure | found, middle⟩
    · unfold onRaise at returned
      rw [ran] at returned
      simp only at returned
      split at returned
      · split at returned <;> cases returned
      · cases returned
    · rw [onRaise_of_ok ran] at returned
      exact returned
  · exact onRaise_of_ok

end Cleanups

/-- Where the computation returns, its result and the state it leaves meet the condition. -/
def OnReturn (computation : Attempt σ ε α) (state : σ) (condition : α → σ → Prop) : Prop :=
  ∀ value next, computation state = (.ok value, next) → condition value next

/-! ### What a computation leaves alone -/

/-- The computation leaves what `observe` sees as it was, however it ends. -/
def Fixes {γ : Type} (observe : σ → γ) (computation : Attempt σ ε α) : Prop :=
  ∀ state, observe (computation state).2 = observe state

namespace Fixes

variable {γ : Type} {observe : σ → γ}

theorem pure (value : α) : Fixes observe (pure value : Attempt σ ε α) :=
  fun _ => rfl

theorem ask (answer : σ → Except ε α) : Fixes observe (ask answer) :=
  fun _ => rfl

theorem modify {change : σ → σ} (same : ∀ state, observe (change state) = observe state) :
    Fixes observe (modify change : Attempt σ ε Unit) :=
  same

/-- What the rest leaves alone is as the first part left it. -/
theorem after_bind {first : Attempt σ ε α} {rest : α → Attempt σ ε β}
    (fixes : ∀ value, Fixes observe (rest value)) (state : σ) :
    observe ((first >>= rest) state).2 = observe (first state).2 := by
  rw [bind_apply]
  rcases first state with ⟨raised | middle, next⟩
  · rfl
  · exact fixes middle next

theorem bind {first : Attempt σ ε α} {rest : α → Attempt σ ε β} (fixesFirst : Fixes observe first)
    (fixesRest : ∀ value, Fixes observe (rest value)) : Fixes observe (first >>= rest) :=
  fun state => (after_bind fixesRest state).trans (fixesFirst state)

theorem of_ran {computation : Attempt σ ε α} (fixes : Fixes observe computation) {state next : σ}
    {result : Except ε α} (ran : computation state = (result, next)) :
    observe next = observe state := by
  have same := fixes state
  rw [ran] at same
  exact same

/-- When the first part leaves something alone, the sequence does exactly when the rest does
from where the first part returns. -/
theorem bind_iff {first : Attempt σ ε α} {rest : α → Attempt σ ε β} {state : σ}
    {spares : α → σ → Prop} (fixes : Fixes observe first)
    (spared : ∀ value next, observe next = observe state →
      (observe (rest value next).2 = observe next ↔ spares value next)) :
    observe ((first >>= rest) state).2 = observe state ↔ first.OnReturn state spares := by
  rw [bind_apply]
  cases ran : first state with
  | mk result next =>
      have same := fixes.of_ran ran
      cases result with
      | error raised => simp [OnReturn, ran, same]
      | ok value =>
          show observe (rest value next).2 = observe state ↔ _
          rw [← same, spared value next same]
          constructor
          · intro here _ _ returned
            rw [ran] at returned
            cases returned
            exact here
          · intro all
            exact all value next ran

/-- From one state, the rest need only behave on what the check answers there. -/
theorem bind_ask_apply {answer : σ → Except ε α} {rest : α → Attempt σ ε β} {state : σ}
    (fixes : ∀ value, answer state = .ok value → observe (rest value state).2 = observe state) :
    observe ((Attempt.ask answer >>= rest) state).2 = observe state := by
  rw [bind_apply, ask_apply]
  cases answered : answer state with
  | error raised => rfl
  | ok value => exact fixes value answered

theorem onRaise {caught : ε → Bool} {computation : Attempt σ ε α} {cleanup : Attempt σ ε Unit}
    (fixes : Fixes observe computation) (fixesCleanup : Fixes observe cleanup) :
    Fixes observe (onRaise caught computation cleanup) := by
  intro state
  have middle := fixes state
  unfold Attempt.onRaise
  rcases ran : computation state with ⟨raised | value, next⟩
  · rw [ran] at middle
    simp only
    split
    · have final := (fixesCleanup next).trans middle
      rcases cleaned : cleanup next with ⟨other | done, last⟩
      · rw [cleaned] at final
        exact final
      · rw [cleaned] at final
        exact final
    · exact middle
  · rw [ran] at middle
    exact middle

theorem forEach {ι : Type} {items : List ι} {body : ι → Attempt σ ε Unit}
    (fixes : ∀ item ∈ items, Fixes observe (body item)) : Fixes observe (forEach items body) := by
  induction items with
  | nil => exact pure ()
  | cons item rest inductionHypothesis =>
      refine bind (fixes item List.mem_cons_self) fun _ => ?_
      exact inductionHypothesis fun other member => fixes other (List.mem_cons_of_mem _ member)

end Fixes

/-! ### What a computation meets -/

/-- From a state that meets `pre`, the computation returns or raises in states that meet the
other two. -/
def Meets (pre : σ → Prop) (computation : Attempt σ ε α) (returns : α → σ → Prop)
    (raises : ε → σ → Prop) : Prop :=
  ∀ state, pre state →
    match computation state with
    | (.ok value, next) => returns value next
    | (.error raised, next) => raises raised next

namespace Meets

variable {pre stronger : σ → Prop} {returns weaker : α → σ → Prop}
variable {raises weakerRaises : ε → σ → Prop}
variable {computation : Attempt σ ε α}

theorem returned (meets : Meets pre computation returns raises) {state next : σ} {value : α}
    (holds : pre state) (ran : computation state = (.ok value, next)) : returns value next := by
  have met := meets state holds
  rw [ran] at met
  exact met

theorem raised (meets : Meets pre computation returns raises) {state next : σ} {failure : ε}
    (holds : pre state) (ran : computation state = (.error failure, next)) :
    raises failure next := by
  have met := meets state holds
  rw [ran] at met
  exact met

theorem of_runs
    (returned : ∀ state value next, pre state → computation state = (.ok value, next) →
      returns value next)
    (raised : ∀ state failure next, pre state → computation state = (.error failure, next) →
      raises failure next) : Meets pre computation returns raises := by
  intro state holds
  rcases ran : computation state with ⟨failure | value, next⟩
  · exact raised state failure next holds ran
  · exact returned state value next holds ran

theorem weaken (meets : Meets pre computation returns raises)
    (implied : ∀ state, stronger state → pre state)
    (implies : ∀ value state, returns value state → weaker value state)
    (impliesRaised : ∀ failure state, raises failure state → weakerRaises failure state) :
    Meets stronger computation weaker weakerRaises :=
  of_runs
    (fun state value next holds ran =>
      implies value next (meets.returned (implied state holds) ran))
    (fun state failure next holds ran =>
      impliesRaised failure next (meets.raised (implied state holds) ran))

theorem bind {first : Attempt σ ε α} {rest : α → Attempt σ ε β} {after : α → σ → Prop}
    {returns : β → σ → Prop} (meets : Meets pre first after raises)
    (later : ∀ value, Meets (after value) (rest value) returns raises) :
    Meets pre (first >>= rest) returns raises := by
  intro state holds
  rw [bind_apply]
  rcases ran : first state with ⟨failure | value, next⟩
  · exact meets.raised holds ran
  · exact later value next (meets.returned holds ran)

/-- `bind`, with what holds in between given. -/
theorem through {first : Attempt σ ε α} {rest : α → Attempt σ ε β} {returns : β → σ → Prop}
    (after : α → σ → Prop) (meets : Meets pre first after raises)
    (later : ∀ value, Meets (after value) (rest value) returns raises) :
    Meets pre (first >>= rest) returns raises :=
  meets.bind later

theorem choosing {ι : Type} {pre : ι → σ → Prop}
    (meets : ∀ index, Meets (pre index) computation returns raises) :
    Meets (fun state => ∃ index, pre index state) computation returns raises :=
  fun state ⟨index, holds⟩ => meets index state holds

/-- A fact that does not depend on the state may be assumed. -/
theorem assuming {fact : Prop} (meets : fact → Meets pre computation returns raises) :
    Meets (fun state => fact ∧ pre state) computation returns raises :=
  fun state holds => meets holds.1 state holds.2

theorem pure (value : α) : Meets (returns value) (pure value) returns raises :=
  fun _ holds => holds

theorem ask {answer : σ → Except ε α}
    (answered : ∀ state value, pre state → answer state = .ok value → returns value state)
    (refused : ∀ state failure, pre state → answer state = .error failure →
      raises failure state) : Meets pre (ask answer) returns raises := by
  intro state holds
  rw [ask_apply]
  cases asked : answer state with
  | error failure => exact refused state failure holds asked
  | ok value => exact answered state value holds asked

theorem modify {change : σ → σ} {returns : Unit → σ → Prop}
    (changed : ∀ state, pre state → returns () (change state)) :
    Meets pre (modify change) returns raises :=
  changed

/-- A cleanup that always returns turns what the computation raises in. -/
theorem onRaise {cleanup : Attempt σ ε Unit} {between : ε → σ → Prop}
    (meets : Meets pre computation returns between)
    (cleans : ∀ failure, Meets (between failure) cleanup (fun _ => raises failure)
      (fun _ _ => False)) :
    Meets pre (onRaise (fun _ => true) computation cleanup) returns raises := by
  intro state holds
  rcases ran : computation state with ⟨failure | value, next⟩
  · have middle := meets.raised holds ran
    rcases cleaned : cleanup next with ⟨other | done, final⟩
    · exact ((cleans failure).raised middle cleaned).elim
    · rw [onRaise_of_cleaned ran rfl cleaned]
      exact (cleans failure).returned middle cleaned
  · rw [onRaise_of_ok ran]
    exact meets.returned holds ran

end Meets

end Attempt

end Vidit.Library
