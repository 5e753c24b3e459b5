import Mathlib.Data.List.Basic
import Mathlib.Data.Nat.Log
import Mathlib.Tactic.Ring

/-!
Contract: fields of a fixed width at their offsets in a list of bytes.

Owns:
- numbers as little-endian bytes, and reading one back at an offset;
- `Lies`, that a piece lies at an offset, and how pieces split, join and move;
- what a slice of the bytes is.

Does not own: any file format.
-/

namespace Vidit.Library

/-- The bytes of a number, least significant first; what does not fit is dropped. -/
def leBytes : Nat → Nat → List Nat
  | 0, _ => []
  | width + 1, number => number % 256 :: leBytes width (number / 256)

/-- The number of bytes, least significant first. -/
def leValue : List Nat → Nat
  | [] => 0
  | byte :: rest => byte + 256 * leValue rest

/-- The number of the `width` bytes at an offset, when they are all there. -/
def readLe (bytes : List Nat) (offset width : Nat) : Option Nat :=
  if offset + width ≤ bytes.length then some (leValue ((bytes.drop offset).take width)) else none

/-- The bytes from `start` up to `stop`, as many as there are. -/
def sliceBytes (bytes : List Nat) (start stop : Nat) : List Nat :=
  (bytes.drop start).take (stop - start)

/-- The piece lies at the offset. -/
def Lies (bytes : List Nat) (offset : Nat) (piece : List Nat) : Prop :=
  ∃ before after, bytes = before ++ piece ++ after ∧ before.length = offset

@[simp] theorem length_leBytes (width number : Nat) : (leBytes width number).length = width := by
  induction width generalizing number with
  | zero => rfl
  | succ width inductionHypothesis => simp [leBytes, inductionHypothesis]

theorem leValue_leBytes {width number : Nat} (small : number < 256 ^ width) :
    leValue (leBytes width number) = number := by
  induction width generalizing number with
  | zero =>
      have isZero : number = 0 := by simpa using small
      rw [isZero]
      rfl
  | succ width inductionHypothesis =>
      have rest : number / 256 < 256 ^ width := by
        apply Nat.div_lt_of_lt_mul
        rwa [pow_succ, Nat.mul_comm] at small
      rw [leBytes, leValue, inductionHypothesis rest]
      omega

/-! ### Pieces -/

variable {bytes piece : List Nat} {offset : Nat}

/-- A piece made of two lies where each of them does. -/
@[simp] theorem lies_append {left right : List Nat} :
    Lies bytes offset (left ++ right) ↔
      Lies bytes offset left ∧ Lies bytes (offset + left.length) right := by
  constructor
  · intro lies
    obtain ⟨before, after, whole, length⟩ := lies
    refine ⟨⟨before, right ++ after, ?_, length⟩, ⟨before ++ left, after, ?_, ?_⟩⟩
    · rw [whole]
      simp only [List.append_assoc]
    · rw [whole]
      simp only [List.append_assoc]
    · rw [List.length_append, length]
  · intro both
    obtain ⟨⟨before, after, whole, length⟩, ⟨before', after', whole', length'⟩⟩ := both
    have starts : before ++ left = before' := by
      have same : before ++ left ++ after = before' ++ (right ++ after') := by
        rw [← whole, whole', List.append_assoc]
      exact List.append_inj_left same (by rw [List.length_append, length, length'])
    refine ⟨before, after', ?_, length⟩
    rw [whole', ← starts, List.append_assoc before left right]

theorem lies_self (bytes : List Nat) : Lies bytes 0 bytes :=
  ⟨[], [], by simp, rfl⟩

theorem Lies.bound (lies : Lies bytes offset piece) : offset + piece.length ≤ bytes.length := by
  obtain ⟨before, after, whole, length⟩ := lies
  rw [whole, List.length_append, List.length_append, length]
  omega

/-- A piece keeps its offset when bytes follow. -/
theorem Lies.append_right (lies : Lies bytes offset piece) (more : List Nat) :
    Lies (bytes ++ more) offset piece := by
  obtain ⟨before, after, whole, length⟩ := lies
  exact ⟨before, after ++ more, by rw [whole]; simp only [List.append_assoc], length⟩

/-- It moves by the bytes put in front. -/
theorem Lies.append_left (lies : Lies bytes offset piece) (front : List Nat) :
    Lies (front ++ bytes) (front.length + offset) piece := by
  obtain ⟨before, after, whole, length⟩ := lies
  refine ⟨front ++ before, after, by rw [whole]; simp only [List.append_assoc], ?_⟩
  rw [List.length_append, length]

/-- It moves back by the bytes dropped before it. -/
theorem Lies.drop (lies : Lies bytes offset piece) (count : Nat) (before : count ≤ offset) :
    Lies (bytes.drop count) (offset - count) piece := by
  obtain ⟨front, after, whole, length⟩ := lies
  refine ⟨front.drop count, after, ?_, ?_⟩
  · rw [whole, List.append_assoc, List.drop_append_of_le_length (by omega), List.append_assoc]
  · rw [List.length_drop, length]

theorem Lies.slice (lies : Lies bytes offset piece) :
    sliceBytes bytes offset (offset + piece.length) = piece := by
  obtain ⟨before, after, whole, length⟩ := lies
  unfold sliceBytes
  rw [whole, List.append_assoc, ← length, List.drop_left, Nat.add_sub_cancel_left, List.take_left]

/-- A slice at or past the end is cut short. -/
theorem length_sliceBytes_le (bytes : List Nat) (start stop : Nat) :
    (sliceBytes bytes start stop).length ≤ bytes.length - start := by
  unfold sliceBytes
  rw [List.length_take, List.length_drop]
  exact min_le_right _ _

/-- A number that lies at an offset is read there. -/
theorem Lies.readLe {width number : Nat} (lies : Lies bytes offset (leBytes width number))
    (small : number < 256 ^ width) : readLe bytes offset width = some number := by
  have bound := lies.bound
  have cut := lies.slice
  rw [length_leBytes] at bound cut
  unfold sliceBytes at cut
  rw [Nat.add_sub_cancel_left] at cut
  unfold Library.readLe
  rw [if_pos bound, cut, leValue_leBytes small]

end Vidit.Library
