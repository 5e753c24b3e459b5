import Mathlib.Data.List.Forall2

/-!
Contract: peeling apart a checked computation in `Except`.

Owns: the rules that turn `computation = .ok value` into one fact for each
check and each sub-computation it ran.
-/

namespace Vidit.Library

universe u v

variable {ε : Type u} {α β : Type v}

/-- Refuse with `error` unless `condition` holds. -/
def require (condition : Prop) [Decidable condition] (error : ε) : Except ε PUnit.{v + 1} :=
  if condition then .ok ⟨⟩ else .error error

@[simp] theorem require_eq_ok {condition : Prop} [Decidable condition] {error : ε}
    {checked : PUnit} : require condition error = .ok checked ↔ condition := by
  unfold require
  split <;> simp_all

@[simp] theorem require_eq_error {condition : Prop} [Decidable condition]
    {error refused : ε} :
    (require condition error : Except ε PUnit) = .error refused ↔
      ¬ condition ∧ error = refused := by
  unfold require
  split <;> simp_all

/-- The value of `found`, or a refusal. -/
def orRefuse (found : Option α) (error : ε) : Except ε α :=
  match found with
  | some value => .ok value
  | none => .error error

@[simp] theorem orRefuse_eq_ok {found : Option α} {error : ε} {value : α} :
    orRefuse found error = .ok value ↔ found = some value := by
  cases found <;> simp [orRefuse]

/-- Check a value, where there is one. -/
def whenSome {γ : Type*} (given : Option γ) (check : γ → Except ε PUnit.{v + 1}) :
    Except ε PUnit.{v + 1} :=
  match given with
  | some value => check value
  | none => .ok ⟨⟩

@[simp] theorem bind_eq_ok {computation : Except ε α} {continuation : α → Except ε β}
    {value : β} :
    (computation >>= continuation) = .ok value ↔
      ∃ middle, computation = .ok middle ∧ continuation middle = .ok value := by
  cases computation with
  | error _ => simp [bind, Except.bind]
  | ok middle => simp [bind, Except.bind]

/-- A sequence refuses where one of its parts does. -/
theorem bind_eq_error {computation : Except ε α} {continuation : α → Except ε β} {refused : ε} :
    (computation >>= continuation) = .error refused ↔
      computation = .error refused ∨
        ∃ middle, computation = .ok middle ∧ continuation middle = .error refused := by
  cases computation with
  | error _ => simp [bind, Except.bind]
  | ok middle => simp [bind, Except.bind]

@[simp] theorem mapError_eq_ok {δ : Type u} {computation : Except ε α} {reword : ε → δ}
    {value : α} : computation.mapError reword = .ok value ↔ computation = .ok value := by
  cases computation <;> simp [Except.mapError]

@[simp] theorem map_eq_ok {computation : Except ε α} {image : α → β} {value : β} :
    (image <$> computation) = .ok value ↔
      ∃ middle, computation = .ok middle ∧ image middle = value := by
  cases computation with
  | error _ => simp [Functor.map, Except.map]
  | ok middle => simp [Functor.map, Except.map]

@[simp] theorem pure_eq_ok {given value : α} :
    (pure given : Except ε α) = .ok value ↔ given = value := by
  simp [pure, Except.pure]

/-- A checked `mapM` succeeds on every member, in order. -/
theorem mapM_eq_ok {γ : Type v} {check : γ → Except ε β} {inputs : List γ} {outputs : List β} :
    inputs.mapM check = .ok outputs ↔
      List.Forall₂ (fun input output => check input = .ok output) inputs outputs := by
  induction inputs generalizing outputs with
  | nil =>
      simp only [List.mapM_nil, pure_eq_ok]
      cases outputs <;> simp
  | cons head tail inductionHypothesis =>
      simp only [List.mapM_cons, bind_eq_ok, pure_eq_ok, inductionHypothesis]
      cases outputs with
      | nil => simp
      | cons first rest => simp

/-- An output of a checked `mapM` comes from an input. -/
theorem exists_of_mapM_eq_ok {γ : Type v} {check : γ → Except ε β} {inputs : List γ}
    {outputs : List β} (mapped : inputs.mapM check = .ok outputs) {output : β}
    (member : output ∈ outputs) : ∃ input ∈ inputs, check input = .ok output := by
  rw [mapM_eq_ok] at mapped
  induction mapped with
  | nil => simp at member
  | @cons head first tail rest checked _ inductionHypothesis =>
      rcases List.mem_cons.mp member with rfl | later
      · exact ⟨head, List.mem_cons_self, checked⟩
      · rcases inductionHypothesis later with ⟨input, inTail, found⟩
        exact ⟨input, List.mem_cons_of_mem _ inTail, found⟩

/-- An input of a checked `mapM` has an output. -/
theorem exists_output_of_mapM_eq_ok {γ : Type v} {check : γ → Except ε β} {inputs : List γ}
    {outputs : List β} (mapped : inputs.mapM check = .ok outputs) {input : γ}
    (member : input ∈ inputs) : ∃ output ∈ outputs, check input = .ok output := by
  rw [mapM_eq_ok] at mapped
  induction mapped with
  | nil => simp at member
  | @cons head first tail rest checked _ inductionHypothesis =>
      rcases List.mem_cons.mp member with rfl | later
      · exact ⟨first, List.mem_cons_self, checked⟩
      · rcases inductionHypothesis later with ⟨output, inRest, found⟩
        exact ⟨output, List.mem_cons_of_mem _ inRest, found⟩

/-- A checked `mapM` that refuses has an input that is refused. -/
theorem exists_of_mapM_eq_error {γ : Type v} {check : γ → Except ε β} {inputs : List γ}
    {refused : ε} (failed : inputs.mapM check = .error refused) :
    ∃ input ∈ inputs, check input = .error refused := by
  induction inputs with
  | nil =>
      rw [List.mapM_nil] at failed
      cases failed
  | cons head tail inductionHypothesis =>
      rw [List.mapM_cons] at failed
      obtain here | ⟨_, _, failedLater⟩ := bind_eq_error.mp failed
      · exact ⟨head, List.mem_cons_self, here⟩
      · obtain later | ⟨_, _, returned⟩ := bind_eq_error.mp failedLater
        · obtain ⟨input, inTail, found⟩ := inductionHypothesis later
          exact ⟨input, List.mem_cons_of_mem _ inTail, found⟩
        · cases returned

/-- A checked `mapM` passes when each of its checks does. -/
theorem exists_mapM_eq_ok {γ : Type v} {check : γ → Except ε β} {inputs : List γ}
    (passes : ∀ input ∈ inputs, ∃ output, check input = .ok output) :
    ∃ outputs, inputs.mapM check = .ok outputs := by
  cases run : inputs.mapM check with
  | ok outputs => exact ⟨outputs, rfl⟩
  | error refused =>
      obtain ⟨input, member, failed⟩ := exists_of_mapM_eq_error run
      obtain ⟨output, passed⟩ := passes input member
      rw [failed] at passed
      cases passed

/-- What each check reads off its output alike, the outputs give in order. -/
theorem mapM_eq_of_ok {γ : Type v} {check : γ → Except ε β} {image : γ → β} {inputs : List γ}
    (passes : ∀ input ∈ inputs, check input = .ok (image input)) :
    inputs.mapM check = .ok (inputs.map image) := by
  rw [mapM_eq_ok, List.forall₂_map_right_iff]
  exact List.forall₂_same.mpr passes

theorem map_eq_of_mapM_eq_ok {γ : Type v} {δ : Type*} {check : γ → Except ε β} {inputs : List γ}
    {outputs : List β} (mapped : inputs.mapM check = .ok outputs) {given : γ → δ} {got : β → δ}
    (same : ∀ {input output}, check input = .ok output → got output = given input) :
    outputs.map got = inputs.map given := by
  rw [mapM_eq_ok] at mapped
  induction mapped with
  | nil => rfl
  | cons checked _ inductionHypothesis =>
      rw [List.map_cons, List.map_cons, same checked, inductionHypothesis]

end Vidit.Library
