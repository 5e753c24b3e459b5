import Mathlib.Logic.Relation
import Mathlib.Order.Defs.PartialOrder

/-!
Contract: labelled transition systems and the induction rules over their runs.

Owns:
- systems given by initial states and a labelled step relation, and the ones an
  executable step function induces;
- the invariant rule, its guarded form (an invariant that only steps meeting a
  condition preserve), and the rule for a value that never decreases.

Does not own: any program.
-/

namespace Vidit.Library

universe u v

/-- A labelled transition system. -/
structure System (σ : Type u) (α : Type v) where
  Init : σ → Prop
  Step : σ → α → σ → Prop

namespace System

variable {σ : Type u} {α : Type v} {ε : Type*}

/-- The system of a fallible step function: a refused step is no step. -/
def ofStep (Init : σ → Prop) (step : α → σ → Except ε σ) : System σ α where
  Init := Init
  Step state label next := step label state = .ok next

variable (system : System σ α)

/-- One step under some label. -/
def Next (state next : σ) : Prop :=
  ∃ label, system.Step state label next

/-- Finitely many steps. -/
abbrev Run : σ → σ → Prop :=
  Relation.ReflTransGen system.Next

def Reachable (state : σ) : Prop :=
  ∃ start, system.Init start ∧ system.Run start state

/-- The same system with only the steps that meet `Guard`. -/
def restrict (Guard : σ → α → Prop) : System σ α where
  Init := system.Init
  Step state label next := Guard state label ∧ system.Step state label next

/-- The same system from one state only. -/
def startingAt (start : σ) : System σ α where
  Init := (· = start)
  Step := system.Step

variable {system}

theorem Reachable.init {start : σ} (initial : system.Init start) : system.Reachable start :=
  ⟨start, initial, .refl⟩

theorem Reachable.step {state next : σ} {label : α} (reachable : system.Reachable state)
    (step : system.Step state label next) : system.Reachable next := by
  rcases reachable with ⟨start, initial, run⟩
  exact ⟨start, initial, run.tail ⟨label, step⟩⟩

theorem Reachable.run {state final : σ} (reachable : system.Reachable state)
    (run : system.Run state final) : system.Reachable final := by
  rcases reachable with ⟨start, initial, earlier⟩
  exact ⟨start, initial, earlier.trans run⟩

/-- What every step preserves, a run preserves. -/
theorem Run.preserves {Invariant : σ → Prop}
    (preserved : ∀ {state label next}, Invariant state → system.Step state label next →
      Invariant next)
    {state final : σ} (run : system.Run state final) (holds : Invariant state) :
    Invariant final := by
  induction run with
  | refl => exact holds
  | tail _ step inductionHypothesis =>
      rcases step with ⟨label, step⟩
      exact preserved inductionHypothesis step

/-- The invariant rule. -/
theorem Reachable.invariant {Invariant : σ → Prop}
    (initially : ∀ {start}, system.Init start → Invariant start)
    (preserved : ∀ {state label next}, Invariant state → system.Step state label next →
      Invariant next)
    {state : σ} (reachable : system.Reachable state) : Invariant state := by
  rcases reachable with ⟨start, initial, run⟩
  exact Run.preserves preserved run (initially initial)

/-- A run of the restricted system is a run of the system. -/
theorem Run.of_restrict {Guard : σ → α → Prop} {state final : σ}
    (run : (system.restrict Guard).Run state final) : system.Run state final := by
  induction run with
  | refl => exact .refl
  | tail _ step inductionHypothesis =>
      rcases step with ⟨label, _, step⟩
      exact inductionHypothesis.tail ⟨label, step⟩

theorem Reachable.of_restrict {Guard : σ → α → Prop} {state : σ}
    (reachable : (system.restrict Guard).Reachable state) : system.Reachable state := by
  rcases reachable with ⟨start, initial, run⟩
  exact ⟨start, initial, Run.of_restrict run⟩

theorem Reachable.of_startingAt {start state : σ} (initial : system.Init start)
    (reachable : (system.startingAt start).Reachable state) : system.Reachable state := by
  obtain ⟨_, rfl, run⟩ := reachable
  exact ⟨_, initial, run⟩

/-- A value that no step lowers is no lower after a run. -/
theorem Run.monotone {β : Type*} [Preorder β] {value : σ → β}
    (rises : ∀ {state label next}, system.Step state label next → value state ≤ value next)
    {state final : σ} (run : system.Run state final) : value state ≤ value final := by
  induction run with
  | refl => exact le_refl _
  | tail _ step inductionHypothesis =>
      rcases step with ⟨label, step⟩
      exact le_trans inductionHypothesis (rises step)

section Executable

variable {Init : σ → Prop} {step : α → σ → Except ε σ}

/-- Run the step function over a list of labels. -/
def runLabels (step : α → σ → Except ε σ) : List α → σ → Except ε σ
  | [], state => .ok state
  | label :: labels, state =>
    match step label state with
    | .ok next => runLabels step labels next
    | .error refusal => .error refusal

theorem runLabels_append (earlier later : List α) (state : σ) :
    runLabels step (earlier ++ later) state =
      (runLabels step earlier state).bind (runLabels step later) := by
  induction earlier generalizing state with
  | nil => rfl
  | cons label labels inductionHypothesis =>
      simp only [List.cons_append, runLabels]
      split
      · exact inductionHypothesis _
      · rfl

/-- What the step function computes is a run. -/
theorem Run.of_runLabels {labels : List α} {state final : σ}
    (computed : runLabels step labels state = .ok final) :
    (ofStep Init step).Run state final := by
  induction labels generalizing state with
  | nil =>
      cases computed
      exact .refl
  | cons label labels inductionHypothesis =>
      simp only [runLabels] at computed
      split at computed
      · rename_i next stepped
        exact .head ⟨label, stepped⟩ (inductionHypothesis computed)
      · contradiction

/-- What it computes is a run of the restricted system, when no label needs its
guard. -/
theorem Run.restrict_of_runLabels {Guard : σ → α → Prop} {labels : List α} {state final : σ}
    (allowed : ∀ label ∈ labels, ∀ state, Guard state label)
    (computed : runLabels step labels state = .ok final) :
    ((ofStep Init step).restrict Guard).Run state final := by
  induction labels generalizing state with
  | nil =>
      cases computed
      exact .refl
  | cons label labels inductionHypothesis =>
      simp only [runLabels] at computed
      split at computed
      · rename_i next stepped
        exact .head ⟨label, allowed label List.mem_cons_self state, stepped⟩ (inductionHypothesis
          (fun other member => allowed other (List.mem_cons_of_mem _ member)) computed)
      · contradiction

end Executable

end System

end Vidit.Library
