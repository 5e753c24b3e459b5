import Mathlib.Data.List.Lex
import Vidit.Python.Calendar

/-!
Contract: the times of a response, as the browser compares their texts.

A response writes a time in UTC with its microseconds, or without a fraction when they are zero.
`localeCompare` compares two such texts by the order of their characters in the root collation.

Owns:
- the text, and the order of texts as an order of times (`textKey`);
- where it is not the order of the times: a whole second comes after the fractions of it.

Does not own: times read from a text.
-/

namespace Vidit.Browser

open Vidit.Python Vidit.Calendar

/-! ### Texts -/

def serialisedTail (microsecond : Nat) : Str :=
  if microsecond = 0 then str "Z" else chr '.' :: (fixedText 10 6 microsecond ++ str "Z")

/-- A `datetime` of a response. -/
def serialised (time : Datetime) : Str :=
  time.date.isoformat ++ chr 'T' :: (twoDigits time.time.hour ++ chr ':' ::
    (twoDigits time.time.minute ++ chr ':' ::
      (twoDigits time.time.second ++ serialisedTail time.time.microsecond)))

/-- Where a character of such a text comes in the root collation. -/
def collationWeight (point : Nat) : Nat :=
  (str " -:.0123456789TZ").idxOf point

/-- What `localeCompare` compares. -/
def collated (text : Str) : List Nat :=
  text.map collationWeight

/-! ### Fields -/

theorem lt_append {left right : List Nat} (same : left.length = right.length) (less : left < right)
    (x y : List Nat) : left ++ x < right ++ y := by
  induction left generalizing right with
  | nil =>
      cases right with
      | nil => exact absurd less (lt_irrefl _)
      | cons first rest => cases same
  | cons first rest inductionHypothesis =>
      cases right with
      | nil => cases same
      | cons other others =>
          rw [List.cons_append, List.cons_append, List.cons_lt_cons_iff]
          rw [List.cons_lt_cons_iff] at less
          obtain here | ⟨equal, later⟩ := less
          · exact .inl here
          · exact .inr ⟨equal, inductionHypothesis (Nat.succ.inj same) later⟩

variable {f : Nat → Nat}

/-- An order of characters that has the digits in their order. -/
def Rises (f : Nat → Nat) : Prop :=
  ∀ low high, low < high → high < 10 → f (digitChar low) < f (digitChar high)

theorem rises_collationWeight : Rises collationWeight := by
  have digits : ∀ high < 10, ∀ low < high,
      collationWeight (digitChar low) < collationWeight (digitChar high) := by decide
  exact fun low high less bound => digits high bound low less

theorem rises_id : Rises id := by
  intro low high less bound
  unfold digitChar
  rw [if_pos bound, if_pos (less.trans bound)]
  simp only [id]
  omega

theorem fixedText_lt (rises : Rises f) {width low high : Nat} (small : high < 10 ^ width)
    (less : low < high) :
    (fixedText 10 width low).map f < (fixedText 10 width high).map f := by
  unfold fixedText
  rw [List.map_map, List.map_map]
  induction width generalizing low high with
  | zero =>
      rw [pow_zero] at small
      omega
  | succ width inductionHypothesis =>
      rw [fixedDigits, fixedDigits, List.map_cons, List.map_cons, List.cons_lt_cons_iff]
      have ordered := Nat.div_le_div_right (c := 10 ^ width) less.le
      obtain first | same := ordered.lt_or_eq
      · left
        apply rises _ _ first
        apply Nat.div_lt_of_lt_mul
        rwa [pow_succ] at small
      · right
        refine ⟨by rw [same], inductionHypothesis (Nat.mod_lt _ (by positivity)) ?_⟩
        have lowSplit := Nat.div_add_mod low (10 ^ width)
        have highSplit := Nat.div_add_mod high (10 ^ width)
        rw [same] at lowSplit
        omega

/-- A number of fixed width, and what follows it. -/
theorem field_lt (rises : Rises f) {width low high : Nat} {x y : List Nat}
    (small : high < 10 ^ width) (less : low < high ∨ low = high ∧ x < y) :
    (fixedText 10 width low).map f ++ x < (fixedText 10 width high).map f ++ y := by
  obtain here | ⟨rfl, later⟩ := less
  · apply lt_append _ (fixedText_lt rises small here)
    simp [fixedText]
  · exact List.append_left_lt later

/-! ### Dates -/

theorem date_lt_iff {left right : Date} :
    left < right ↔ left.year < right.year ∨ left.year = right.year ∧
      (left.month < right.month ∨ left.month = right.month ∧ left.day < right.day) := by
  show left.key < right.key ↔ _
  unfold Date.key
  rw [Prod.Lex.toLex_lt_toLex, Prod.Lex.toLex_lt_toLex]

theorem isoformat_lt (rises : Rises f) {left right : Date} {x y : List Nat}
    (less : left < right ∨ left = right ∧ x < y) :
    left.isoformat.map f ++ x < right.isoformat.map f ++ y := by
  have widths := right.widths
  obtain before | ⟨rfl, later⟩ := less
  · rw [date_lt_iff] at before
    unfold Date.isoformat twoDigits
    simp only [List.map_append, List.map_cons, List.append_assoc, List.cons_append]
    apply field_lt rises widths.1
    obtain year | ⟨sameYear, before⟩ := before
    · exact .inl year
    · refine .inr ⟨sameYear, ?_⟩
      rw [List.cons_lt_cons_iff]
      refine .inr ⟨rfl, field_lt rises widths.2.1 ?_⟩
      obtain month | ⟨sameMonth, day⟩ := before
      · exact .inl month
      · refine .inr ⟨sameMonth, ?_⟩
        rw [List.cons_lt_cons_iff]
        exact .inr ⟨rfl, field_lt rises widths.2.2 (.inl day)⟩
  · exact List.append_left_lt later

/-- The days of the calendar compare as their texts. -/
theorem isoformat_le_iff {left right : Date} : left.isoformat ≤ right.isoformat ↔ left ≤ right := by
  have strict : ∀ {left right : Date}, left < right → left.isoformat < right.isoformat := by
    intro left right less
    have here := isoformat_lt rises_id (x := []) (y := []) (.inl less)
    simpa using here
  constructor
  · intro ordered
    by_contra after
    exact absurd (strict (not_le.mp after)) (not_lt.mpr ordered)
  · intro ordered
    obtain less | same := ordered.lt_or_eq
    · exact (strict less).le
    · rw [same]

/-! ### Times -/

/-- Where a fraction comes among the texts of its second: none comes last. -/
def fractionRank (microsecond : Nat) : Nat :=
  if microsecond = 0 then 10 ^ 6 else microsecond

/-- The order of the texts, as an order of times. -/
def textKey (time : Datetime) : Date ×ₗ Nat ×ₗ Nat ×ₗ Nat ×ₗ Nat :=
  toLex (time.date, toLex (time.time.hour, toLex (time.time.minute,
    toLex (time.time.second, fractionRank time.time.microsecond))))

theorem datetime_lt_iff {left right : Datetime} :
    left < right ↔ left.date < right.date ∨ left.date = right.date ∧
      (left.time.hour < right.time.hour ∨ left.time.hour = right.time.hour ∧
        (left.time.minute < right.time.minute ∨ left.time.minute = right.time.minute ∧
          (left.time.second < right.time.second ∨ left.time.second = right.time.second ∧
            left.time.microsecond < right.time.microsecond))) := by
  show left.key < right.key ↔ _
  unfold Datetime.key
  rw [Prod.Lex.toLex_lt_toLex]
  have time : left.time < right.time ↔ left.time.key < right.time.key := Iff.rfl
  rw [time]
  unfold Time.key
  rw [Prod.Lex.toLex_lt_toLex, Prod.Lex.toLex_lt_toLex, Prod.Lex.toLex_lt_toLex]

theorem textKey_lt_iff {left right : Datetime} :
    textKey left < textKey right ↔ left.date < right.date ∨ left.date = right.date ∧
      (left.time.hour < right.time.hour ∨ left.time.hour = right.time.hour ∧
        (left.time.minute < right.time.minute ∨ left.time.minute = right.time.minute ∧
          (left.time.second < right.time.second ∨ left.time.second = right.time.second ∧
            fractionRank left.time.microsecond < fractionRank right.time.microsecond))) := by
  unfold textKey
  rw [Prod.Lex.toLex_lt_toLex, Prod.Lex.toLex_lt_toLex, Prod.Lex.toLex_lt_toLex,
    Prod.Lex.toLex_lt_toLex]

theorem fractionRank_injective {left right : Nat} (leftSmall : left < 10 ^ 6)
    (rightSmall : right < 10 ^ 6) (same : fractionRank left = fractionRank right) :
    left = right := by
  unfold fractionRank at same
  split at same <;> split at same <;> omega

theorem textKey_injective : Function.Injective textKey := by
  intro left right same
  simp only [textKey, EmbeddingLike.apply_eq_iff_eq, Prod.mk.injEq] at same
  obtain ⟨date, hour, minute, second, rank⟩ := same
  have microsecond := fractionRank_injective left.time.isTime.2.2.2 right.time.isTime.2.2.2 rank
  exact Datetime.ext date (Time.ext hour minute second microsecond)

/-- The whole second a time is a fraction past. -/
def IsWholeSecondOf (whole time : Datetime) : Prop :=
  whole.date = time.date ∧ whole.time.hour = time.time.hour ∧
    whole.time.minute = time.time.minute ∧ whole.time.second = time.time.second ∧
      whole.time.microsecond = 0 ∧ time.time.microsecond ≠ 0

instance (whole time : Datetime) : Decidable (IsWholeSecondOf whole time) := by
  unfold IsWholeSecondOf
  infer_instance

/-- The texts have the order of the times, but for a whole second and its fractions. -/
theorem textKey_lt_iff_of_lt {left right : Datetime} (less : left < right) :
    textKey left < textKey right ↔ ¬ IsWholeSecondOf left right := by
  have bound := left.time.isTime.2.2.2
  rw [textKey_lt_iff]
  unfold IsWholeSecondOf
  rw [datetime_lt_iff] at less
  obtain date | ⟨sameDate, less⟩ := less
  · simp [date, date.ne]
  · simp only [sameDate, lt_irrefl, true_and, false_or]
    obtain hour | ⟨sameHour, less⟩ := less
    · simp [hour, hour.ne]
    · simp only [sameHour, lt_irrefl, true_and, false_or]
      obtain minute | ⟨sameMinute, less⟩ := less
      · simp [minute, minute.ne]
      · simp only [sameMinute, lt_irrefl, true_and, false_or]
        obtain second | ⟨sameSecond, less⟩ := less
        · simp [second, second.ne]
        · simp only [sameSecond, lt_irrefl, true_and, false_or]
          have positive : right.time.microsecond ≠ 0 := by omega
          unfold fractionRank
          rw [if_neg positive]
          have rightBound := right.time.isTime.2.2.2
          by_cases whole : left.time.microsecond = 0
          · rw [if_pos whole]
            simp only [whole, true_and, not_not]
            constructor
            · intro absurdity
              omega
            · exact fun absurdity => absurd absurdity positive
          · rw [if_neg whole]
            simp [whole, less]

theorem textKey_of_wholeSecond {whole time : Datetime} (isWhole : IsWholeSecondOf whole time) :
    textKey time < textKey whole := by
  obtain ⟨date, hour, minute, second, none, some⟩ := isWhole
  have bound := time.time.isTime.2.2.2
  rw [textKey_lt_iff]
  refine .inr ⟨date.symm, .inr ⟨hour.symm, .inr ⟨minute.symm, .inr ⟨second.symm, ?_⟩⟩⟩⟩
  unfold fractionRank
  rw [if_pos none, if_neg some]
  exact bound

theorem serialisedTail_lt {left right : Nat} {x y : List Nat} (small : right < 10 ^ 6)
    (less : fractionRank left < fractionRank right) :
    collated (serialisedTail left) ++ x < collated (serialisedTail right) ++ y := by
  have dot : collationWeight (chr '.') < collationWeight (chr 'Z') := by decide
  unfold fractionRank at less
  unfold serialisedTail collated
  by_cases wholeLeft : left = 0
  · rw [if_pos wholeLeft] at less
    split at less <;> omega
  · rw [if_neg wholeLeft] at less ⊢
    by_cases wholeRight : right = 0
    · rw [if_pos wholeRight]
      exact List.cons_lt_cons_iff.mpr (.inl dot)
    · rw [if_neg wholeRight] at less ⊢
      rw [List.map_cons, List.map_cons, List.map_append, List.map_append, List.cons_append,
        List.cons_append, List.append_assoc, List.append_assoc, List.cons_lt_cons_iff]
      exact .inr ⟨rfl, field_lt rises_collationWeight small (.inl less)⟩

theorem serialised_lt {left right : Datetime} {x y : List Nat}
    (less : textKey left < textKey right ∨ left = right ∧ x < y) :
    collated (serialised left) ++ x < collated (serialised right) ++ y := by
  obtain before | ⟨rfl, later⟩ := less
  · have widths := right.time.widths
    have small := right.time.isTime.2.2.2
    rw [textKey_lt_iff] at before
    unfold serialised collated twoDigits
    simp only [List.map_append, List.map_cons, List.append_assoc, List.cons_append]
    apply isoformat_lt rises_collationWeight
    obtain date | ⟨sameDate, before⟩ := before
    · exact .inl date
    · refine .inr ⟨sameDate, List.cons_lt_cons_iff.mpr (.inr ⟨rfl, ?_⟩)⟩
      apply field_lt rises_collationWeight widths.1
      obtain hour | ⟨sameHour, before⟩ := before
      · exact .inl hour
      · refine .inr ⟨sameHour, List.cons_lt_cons_iff.mpr (.inr ⟨rfl, ?_⟩)⟩
        apply field_lt rises_collationWeight widths.2.1
        obtain minute | ⟨sameMinute, before⟩ := before
        · exact .inl minute
        · refine .inr ⟨sameMinute, List.cons_lt_cons_iff.mpr (.inr ⟨rfl, ?_⟩)⟩
          apply field_lt rises_collationWeight widths.2.2
          obtain second | ⟨sameSecond, fraction⟩ := before
          · exact .inl second
          · exact .inr ⟨sameSecond, serialisedTail_lt small fraction⟩
  · exact List.append_left_lt later

end Vidit.Browser
