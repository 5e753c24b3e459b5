import Mathlib.Data.List.Range
import Mathlib.Logic.Relation

/-!
Contract: a live value with a numbered history of the values it replaced.

A value starts as a draft, which changes in place, or published, when every
change files the value it replaces under the number that value had. A filed
value may be blanked; its number stays.

Owns:
- the log, its steps, and its well-formedness;
- that the numbers of the history are contiguous and never move;
- that the history holds, unless blanked, exactly the values that were live.

Does not own: what the values are.
-/

namespace Vidit.Library

universe u

structure VersionLog (α : Type u) where
  draft : Bool
  /-- The number of the live value. -/
  current : Nat
  live : α
  rows : List (Nat × Option α)

namespace VersionLog

variable {α : Type u}

/-- File the live value and put another in its place. -/
def file (log : VersionLog α) (live : α) : VersionLog α where
  draft := false
  current := log.current + 1
  live := live
  rows := log.rows ++ [(log.current, some log.live)]

def blank (number : Nat) (row : Nat × Option α) : Nat × Option α :=
  if row.1 = number then (row.1, none) else row

/-- Blank one filed value. -/
def redact (log : VersionLog α) (number : Nat) : VersionLog α :=
  { log with rows := log.rows.map (blank number) }

inductive Step : VersionLog α → VersionLog α → Prop where
  | stay {log : VersionLog α} : Step log log
  | amend {log : VersionLog α} (live : α) (draft : log.draft = true) :
      Step log { log with live := live }
  | file {log : VersionLog α} (live : α) : Step log (log.file live)
  | redact {log : VersionLog α} (number : Nat) : Step log (log.redact number)

abbrev Run : VersionLog α → VersionLog α → Prop :=
  Relation.ReflTransGen Step

def numbers (log : VersionLog α) : List Nat :=
  log.rows.map Prod.fst

/-- A log whose history starts at `first`. -/
structure WellFormed (first : Nat) (log : VersionLog α) : Prop where
  numbers : log.numbers = List.range' first (log.current - first)
  reached : first ≤ log.current
  draft : log.draft = true ↔ log.current = 0

variable {log middle later : VersionLog α} {first number : Nat}

@[simp] theorem blank_fst (row : Nat × Option α) : (blank number row).1 = row.1 := by
  unfold blank
  split <;> rfl

@[simp] theorem numbers_redact : (log.redact number).numbers = log.numbers := by
  simp [numbers, redact, Function.comp_def]

@[simp] theorem numbers_file (live : α) :
    (log.file live).numbers = log.numbers ++ [log.current] := by
  simp [numbers, file]

/-! ### One step -/

theorem WellFormed.step (wellFormed : log.WellFormed first) (step : Step log later) :
    later.WellFormed first := by
  cases step with
  | stay => exact wellFormed
  | amend live draft => exact ⟨wellFormed.numbers, wellFormed.reached, wellFormed.draft⟩
  | file live =>
      have reached := wellFormed.reached
      refine ⟨?_, Nat.le_succ_of_le reached, by simp [file]⟩
      have length : log.current + 1 - first = log.current - first + 1 := by omega
      have last : first + 1 * (log.current - first) = log.current := by omega
      rw [numbers_file, wellFormed.numbers]
      simp only [file]
      rw [length, List.range'_concat, last]
  | redact number =>
      exact ⟨by rw [numbers_redact]; exact wellFormed.numbers, wellFormed.reached,
        wellFormed.draft⟩

theorem Step.current_le (step : Step log later) : log.current ≤ later.current := by
  cases step with
  | file live => exact Nat.le_succ _
  | stay => exact le_refl _
  | amend live draft => exact le_refl _
  | redact number => exact le_refl _

/-- A published log either files its live value, or keeps it under its number. -/
theorem Step.published (step : Step log later) (published : log.draft = false) :
    later.draft = false ∧
      (later.current = log.current ∧ later.live = log.live ∨
        later.current = log.current + 1 ∧ (log.current, some log.live) ∈ later.rows) := by
  cases step with
  | stay => exact ⟨published, .inl ⟨rfl, rfl⟩⟩
  | amend live draft =>
      rw [published] at draft
      contradiction
  | file live => exact ⟨rfl, .inr ⟨rfl, by simp [VersionLog.file]⟩⟩
  | redact number => exact ⟨published, .inl ⟨rfl, rfl⟩⟩

/-- A filed value stays under its number, or is blanked there. -/
theorem Step.row_kept (step : Step log later) {content : Option α}
    (member : (number, content) ∈ log.rows) :
    (number, content) ∈ later.rows ∨ (number, none) ∈ later.rows := by
  cases step with
  | stay => exact .inl member
  | amend live draft => exact .inl member
  | file live => exact .inl (List.mem_append_left _ member)
  | redact blanked =>
      have mapped : blank blanked (number, content) ∈ (log.redact blanked).rows :=
        List.mem_map_of_mem member
      unfold blank at mapped
      split at mapped
      · exact .inr mapped
      · exact .inl mapped

/-- A value in the history was there before, or was live just now. -/
theorem Step.row_origin (step : Step log later) {content : α}
    (member : (number, some content) ∈ later.rows) :
    (number, some content) ∈ log.rows ∨ number = log.current ∧ content = log.live := by
  cases step with
  | stay => exact .inl member
  | amend live draft => exact .inl member
  | file live =>
      rcases List.mem_append.mp member with old | new
      · exact .inl old
      · simp only [List.mem_singleton, Prod.mk.injEq, Option.some.injEq] at new
        exact .inr new
  | redact blanked =>
      rcases List.mem_map.mp member with ⟨row, inRows, same⟩
      unfold blank at same
      split at same
      · simp at same
      · exact .inl (same ▸ inRows)

/-! ### Runs -/

theorem WellFormed.run (wellFormed : log.WellFormed first) (run : Run log later) :
    later.WellFormed first := by
  induction run with
  | refl => exact wellFormed
  | tail _ step inductionHypothesis => exact inductionHypothesis.step step

theorem Run.current_le (run : Run log later) : log.current ≤ later.current := by
  induction run with
  | refl => exact le_refl _
  | tail _ step inductionHypothesis => exact le_trans inductionHypothesis step.current_le

theorem Run.row_kept (run : Run log later) {content : Option α}
    (member : (number, content) ∈ log.rows) :
    (number, content) ∈ later.rows ∨ (number, none) ∈ later.rows := by
  induction run with
  | refl => exact .inl member
  | tail _ step inductionHypothesis =>
      rcases inductionHypothesis with kept | blanked
      · exact step.row_kept kept
      · rcases step.row_kept blanked with still | still <;> exact .inr still

/-- A published value does not change while its number is the current one. -/
theorem Run.live_eq (run : Run log later) (published : log.draft = false)
    (standing : later.current = log.current) : later.live = log.live := by
  induction run using Relation.ReflTransGen.head_induction_on with
  | refl => rfl
  | @head log middle step rest inductionHypothesis =>
      have noLess : middle.current ≤ later.current := Run.current_le rest
      rcases step.published published with ⟨still, ⟨current, live⟩ | ⟨current, _⟩⟩
      · rw [← live]
        exact inductionHypothesis still (standing.trans current.symm)
      · omega

/-- A value that was live under an older number is filed under it, or blanked. -/
theorem Run.filed (run : Run log later) (published : log.draft = false)
    (older : log.current < later.current) :
    (log.current, some log.live) ∈ later.rows ∨ (log.current, none) ∈ later.rows := by
  induction run using Relation.ReflTransGen.head_induction_on with
  | refl => exact absurd older (lt_irrefl _)
  | @head log middle step rest inductionHypothesis =>
      rcases step.published published with ⟨still, ⟨current, live⟩ | ⟨_, filed⟩⟩
      · rw [← current, ← live]
        exact inductionHypothesis still (current.symm ▸ older)
      · exact Run.row_kept rest filed

/-- A value in the history was filed before the run, or was live during it. -/
theorem Run.row_origin (run : Run log later) {content : α}
    (member : (number, some content) ∈ later.rows) :
    (number, some content) ∈ log.rows ∨
      ∃ middle, Run log middle ∧ Run middle later ∧ middle.current = number ∧
        middle.live = content := by
  induction run with
  | refl => exact .inl member
  | @tail middle later earlier step inductionHypothesis =>
      rcases step.row_origin member with old | ⟨rfl, rfl⟩
      · rcases inductionHypothesis old with stood | ⟨live, before, since, reaches, holds⟩
        · exact .inl stood
        · exact .inr ⟨live, before, since.tail step, reaches, holds⟩
      · exact .inr ⟨middle, earlier, .single step, rfl, rfl⟩

end VersionLog

end Vidit.Library
