import Mathlib.Logic.Basic

/-!
Contract: things made once, each in the custody of one holder.

Every thing carries the serial number it was made with, and numbers are drawn in
order. A holder names things; a transfer hands what some holders name over to a
receiver, and adds things made since.

Owns:
- custody: every thing named was drawn, and a number names one thing with one
  holder;
- that a transfer keeps custody, and follows a thing to its holder.

Does not own: what the things are, and how a number is read off one.
-/

namespace Vidit.Library

universe u v

variable {η : Type u} {υ : Type v}

structure Custody (Serial : Nat → υ → Prop) (drawn : Nat) (names : η → υ → Prop) : Prop where
  serial : ∀ {holder thing}, names holder thing → ∃ index < drawn, Serial index thing
  sole : ∀ {holder other thing twin index}, names holder thing → names other twin →
    Serial index thing → Serial index twin → holder = other ∧ thing = twin

/-- The holders `Given` hand what they name over to `receiver`, or drop it; the rest
keep what they name, or drop it; and what is `Fresh` was made since. -/
structure Transfer (Serial : Nat → υ → Prop) (drawn later : Nat) (names after : η → υ → Prop)
    (Given : η → Prop) (receiver : η) (Fresh : η → υ → Prop) : Prop where
  le : drawn ≤ later
  came : ∀ {holder thing}, after holder thing →
    (names holder thing ∧ ¬ Given holder) ∨
      ((∃ giver, Given giver ∧ names giver thing) ∧ holder = receiver) ∨ Fresh holder thing
  made : ∀ {holder thing}, Fresh holder thing →
    ∃ index, drawn ≤ index ∧ index < later ∧ Serial index thing
  sole : ∀ {holder other thing twin index}, Fresh holder thing → Fresh other twin →
    Serial index thing → Serial index twin → holder = other ∧ thing = twin

section Custody

variable {Serial : Nat → υ → Prop} {drawn later : Nat} {names after : η → υ → Prop}
variable {Given : η → Prop} {receiver : η} {Fresh : η → υ → Prop}
variable {holder other : η} {thing twin : υ} {index : Nat}

/-- A thing carries one number. -/
def Numbered (Serial : Nat → υ → Prop) : Prop :=
  ∀ {index other : Nat} {thing : υ}, Serial index thing → Serial other thing → index = other

theorem Custody.serial_lt (custody : Custody Serial drawn names) (numbered : Numbered Serial)
    (named : names holder thing) (serial : Serial index thing) : index < drawn := by
  rcases custody.serial named with ⟨known, below, knownSerial⟩
  rw [numbered serial knownSerial]
  exact below

/-- Holders that only drop things keep custody. -/
theorem Custody.of_imp (custody : Custody Serial drawn names) (le : drawn ≤ later)
    (kept : ∀ {holder thing}, after holder thing → names holder thing) :
    Custody Serial later after where
  serial named := by
    rcases custody.serial (kept named) with ⟨index, below, serial⟩
    exact ⟨index, Nat.lt_of_lt_of_le below le, serial⟩
  sole named twinNamed := custody.sole (kept named) (kept twinNamed)

theorem Transfer.of_imp (le : drawn ≤ later) (receiver : η)
    (kept : ∀ {holder thing}, after holder thing → names holder thing) :
    Transfer Serial drawn later names after (fun _ => False) receiver (fun _ _ => False) where
  le := le
  came named := .inl ⟨kept named, not_false⟩
  made fresh := fresh.elim
  sole fresh := fresh.elim

/-- A thing named before and one named after, of one number, are the same thing; it
stayed with its holder, or its holder gave it. -/
theorem Transfer.follows (custody : Custody Serial drawn names) (numbered : Numbered Serial)
    (transfer : Transfer Serial drawn later names after Given receiver Fresh)
    (named : names holder thing) (twinNamed : after other twin) (serial : Serial index thing)
    (twinSerial : Serial index twin) : thing = twin ∧ (holder = other ∨ Given holder) := by
  rcases transfer.came twinNamed with ⟨kept, _⟩ | ⟨⟨giver, given, gave⟩, _⟩ | fresh
  · have same := custody.sole named kept serial twinSerial
    exact ⟨same.2, .inl same.1⟩
  · have same := custody.sole named gave serial twinSerial
    exact ⟨same.2, .inr (same.1 ▸ given)⟩
  · rcases transfer.made fresh with ⟨new, above, _, newSerial⟩
    have below := custody.serial_lt numbered named serial
    have equal := numbered newSerial twinSerial
    omega

theorem Transfer.custody (transfer : Transfer Serial drawn later names after Given receiver Fresh)
    (custody : Custody Serial drawn names) (numbered : Numbered Serial) :
    Custody Serial later after where
  serial named := by
    rcases transfer.came named with ⟨kept, _⟩ | ⟨⟨giver, _, gave⟩, _⟩ | fresh
    · rcases custody.serial kept with ⟨index, below, serial⟩
      exact ⟨index, Nat.lt_of_lt_of_le below transfer.le, serial⟩
    · rcases custody.serial gave with ⟨index, below, serial⟩
      exact ⟨index, Nat.lt_of_lt_of_le below transfer.le, serial⟩
    · rcases transfer.made fresh with ⟨index, _, below, serial⟩
      exact ⟨index, below, serial⟩
  sole := by
    intro holder other thing twin index named twinNamed serial twinSerial
    rcases transfer.came named with ⟨kept, keeps⟩ | ⟨⟨giver, given, gave⟩, rfl⟩ | fresh
    · -- the thing stayed: so did its twin
      have same := transfer.follows custody numbered kept twinNamed serial twinSerial
      exact ⟨same.2.resolve_right keeps, same.1⟩
    · have same := transfer.follows custody numbered gave twinNamed serial twinSerial
      refine ⟨?_, same.1⟩
      rcases transfer.came twinNamed with ⟨twinKept, keeps⟩ | ⟨_, received⟩ | twinFresh
      · have giverIs := (custody.sole gave twinKept serial twinSerial).1
        exact absurd (giverIs ▸ given) keeps
      · exact received.symm
      · rcases transfer.made twinFresh with ⟨new, above, _, newSerial⟩
        have below := custody.serial_lt numbered gave serial
        have equal := numbered newSerial twinSerial
        omega
    · rcases transfer.came twinNamed with ⟨twinKept, _⟩ | ⟨⟨_, _, twinGave⟩, _⟩ | twinFresh
      · rcases transfer.made fresh with ⟨new, above, _, newSerial⟩
        have below := custody.serial_lt numbered twinKept twinSerial
        have equal := numbered newSerial serial
        omega
      · rcases transfer.made fresh with ⟨new, above, _, newSerial⟩
        have below := custody.serial_lt numbered twinGave twinSerial
        have equal := numbered newSerial serial
        omega
      · exact transfer.sole fresh twinFresh serial twinSerial

end Custody

end Vidit.Library
