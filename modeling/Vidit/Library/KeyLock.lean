import Mathlib.Logic.Function.Basic

/-!
Contract: locks on keys, exclusive or shared.

A key has at most one exclusive holder (`FOR UPDATE`), and then no other holder
shares it (the `FOR KEY SHARE` of a foreign key).

Owns:
- the locks, with that rule as a field, and the two ways to take one;
- what a taken or released lock leaves to the other holders.

Does not own: rows, or the transactions of any program.
-/

namespace Vidit.Library

universe u v

structure KeyLocks (τ : Type u) (κ : Type v) where
  exclusive : κ → Option τ
  shares : List (τ × κ)
  apart : ∀ {key holder other}, exclusive key = some holder → (other, key) ∈ shares →
    other = holder

namespace KeyLocks

variable {τ : Type u} {κ : Type v}

/-- No lock is held. -/
def none : KeyLocks τ κ where
  exclusive _ := Option.none
  shares := []
  apart held := by contradiction

/-- The holder shares the key. -/
def Shares (locks : KeyLocks τ κ) (holder : τ) (key : κ) : Prop :=
  (holder, key) ∈ locks.shares

theorem shares_apart {locks : KeyLocks τ κ} {holder other : τ} {key : κ}
    (exclusive : locks.exclusive key = some holder) (shares : locks.Shares other key) :
    other = holder :=
  locks.apart exclusive shares

variable [DecidableEq τ] (locks : KeyLocks τ κ) (holder : τ) (key : κ)

/-- Take a key exclusively, once nobody else holds or shares it. -/
def lock? [DecidableEq κ] : Option (KeyLocks τ κ) :=
  if free : (locks.exclusive key = Option.none ∨ locks.exclusive key = some holder) ∧
      ∀ share ∈ locks.shares, share.2 = key → share.1 = holder then
    some {
      exclusive := Function.update locks.exclusive key (some holder)
      shares := locks.shares
      apart := by
        intro row owner other held shares
        by_cases here : row = key
        · subst here
          rw [Function.update_self] at held
          exact (free.2 _ shares rfl).trans (Option.some.inj held)
        · rw [Function.update_of_ne here] at held
          exact locks.apart held shares }
  else Option.none

/-- Share a key, once nobody else holds it. -/
def share? : Option (KeyLocks τ κ) :=
  if free : locks.exclusive key = Option.none ∨ locks.exclusive key = some holder then
    some {
      exclusive := locks.exclusive
      shares := (holder, key) :: locks.shares
      apart := by
        intro row owner other held shares
        rcases List.mem_cons.mp shares with same | earlier
        · cases same
          rcases free with unheld | own
          · rw [unheld] at held
            contradiction
          · exact Option.some.inj (own.symm.trans held)
        · exact locks.apart held earlier }
  else Option.none

/-- Let go of every key. -/
def release : KeyLocks τ κ where
  exclusive key := if locks.exclusive key = some holder then Option.none else locks.exclusive key
  shares := locks.shares.filter fun share => share.1 ≠ holder
  apart := by
    intro row owner other held shares
    split at held
    · contradiction
    · exact locks.apart held (List.mem_filter.mp shares).1

variable {locks holder key} {after : KeyLocks τ κ} {other : τ} {row : κ}

theorem exclusive_of_lock [DecidableEq κ] (taken : locks.lock? holder key = some after) :
    after.exclusive key = some holder := by
  unfold lock? at taken
  split at taken
  · cases taken
    exact Function.update_self ..
  · contradiction

theorem exclusive_of_lock_of_ne [DecidableEq κ]
    (taken : locks.lock? holder key = some after) (different : row ≠ key) : after.exclusive row = locks.exclusive row := by
  unfold lock? at taken
  split at taken
  · cases taken
    exact Function.update_of_ne different ..
  · contradiction

/-- What the others hold exclusively, they held before the lock. -/
theorem exclusive_lock_iff [DecidableEq κ]
    (taken : locks.lock? holder key = some after) (different : other ≠ holder) :
    after.exclusive row = some other ↔ locks.exclusive row = some other := by
  by_cases here : row = key
  · subst here
    rw [exclusive_of_lock taken]
    unfold lock? at taken
    split at taken
    · rename_i free
      constructor
      · exact fun same => absurd (Option.some.inj same).symm different
      · intro held
        rcases free.1 with unheld | own
        · rw [unheld] at held
          contradiction
        · rw [own] at held
          exact absurd (Option.some.inj held).symm different
    · contradiction
  · rw [exclusive_of_lock_of_ne taken here]

theorem shares_lock_iff [DecidableEq κ] (taken : locks.lock? holder key = some after) :
    after.Shares other row ↔ locks.Shares other row := by
  unfold lock? at taken
  split at taken
  · cases taken
    exact Iff.rfl
  · contradiction

theorem exclusive_of_share (taken : locks.share? holder key = some after) :
    after.exclusive = locks.exclusive := by
  unfold share? at taken
  split at taken
  · cases taken
    rfl
  · contradiction

theorem shares_of_share (taken : locks.share? holder key = some after) :
    after.Shares other row ↔ (other = holder ∧ row = key) ∨ locks.Shares other row := by
  unfold share? at taken
  split at taken
  · cases taken
    simp [Shares]
  · contradiction

theorem exclusive_release_iff (different : other ≠ holder) :
    (locks.release holder).exclusive row = some other ↔ locks.exclusive row = some other := by
  show (if locks.exclusive row = some holder then Option.none else locks.exclusive row) =
    some other ↔ _
  split
  · rename_i held
    rw [held]
    simp [different.symm]
  · exact Iff.rfl

theorem shares_release_iff (different : other ≠ holder) :
    (locks.release holder).Shares other row ↔ locks.Shares other row := by
  simp [Shares, release, different]

/-- What is held stays held under a further lock. -/
theorem exclusive_lock_of_held [DecidableEq κ] (taken : locks.lock? holder key = some after)
    (held : locks.exclusive row = some holder) : after.exclusive row = some holder := by
  by_cases here : row = key
  · exact here ▸ exclusive_of_lock taken
  · rw [exclusive_of_lock_of_ne taken here]
    exact held

/-- What the other holders have, they keep. -/
structure Leaves (before after : KeyLocks τ κ) (holder : τ) : Prop where
  exclusive : ∀ {other row}, other ≠ holder → before.exclusive row = some other →
    after.exclusive row = some other
  shares : ∀ {other row}, other ≠ holder → before.Shares other row → after.Shares other row

omit [DecidableEq τ] in
theorem Leaves.refl (locks : KeyLocks τ κ) (holder : τ) : locks.Leaves locks holder :=
  ⟨fun _ held => held, fun _ shares => shares⟩

omit [DecidableEq τ] in
theorem Leaves.trans {before between : KeyLocks τ κ} (earlier : before.Leaves between holder)
    (last : between.Leaves after holder) : before.Leaves after holder where
  exclusive different held := last.exclusive different (earlier.exclusive different held)
  shares different held := last.shares different (earlier.shares different held)

theorem leaves_of_lock [DecidableEq κ] (taken : locks.lock? holder key = some after) :
    locks.Leaves after holder where
  exclusive different held := (exclusive_lock_iff taken different).mpr held
  shares _ shares := (shares_lock_iff taken).mpr shares

theorem leaves_of_share (taken : locks.share? holder key = some after) :
    locks.Leaves after holder where
  exclusive _ held := by rwa [exclusive_of_share taken]
  shares _ shares := (shares_of_share taken).mpr (.inr shares)

theorem leaves_release (locks : KeyLocks τ κ) (holder : τ) :
    locks.Leaves (locks.release holder) holder where
  exclusive different held := (exclusive_release_iff different).mpr held
  shares different shares := (shares_release_iff different).mpr shares

end KeyLocks

end Vidit.Library
