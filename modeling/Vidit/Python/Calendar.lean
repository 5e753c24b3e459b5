import Mathlib.Data.Prod.Lex
import Mathlib.Order.Basic
import Vidit.Python.Digits

/-!
Contract: Python's `date`, `time` and `datetime`, and their ISO 8601 text.

A `datetime` is one in UTC, the time zone of the database session.

Owns:
- the three types, each with its range, and their orders;
- `isoformat`;
- `fromisoformat` of what `isoformat` writes, and the round trip.

Does not own: the other spellings `fromisoformat` reads, which are a parameter
of it.
-/

namespace Vidit.Calendar

open Vidit.Python

def isLeapYear (year : Nat) : Bool :=
  year % 4 = 0 ∧ (year % 100 ≠ 0 ∨ year % 400 = 0)

def daysInMonth (year month : Nat) : Nat :=
  if month = 2 then if isLeapYear year then 29 else 28
  else if month ∈ [4, 6, 9, 11] then 30
  else 31

def IsDate (year month day : Nat) : Prop :=
  (1 ≤ year ∧ year ≤ 9999) ∧ (1 ≤ month ∧ month ≤ 12) ∧ 1 ≤ day ∧ day ≤ daysInMonth year month

instance (year month day : Nat) : Decidable (IsDate year month day) := by
  unfold IsDate
  infer_instance

/-- `datetime.date`. -/
@[ext] structure Date where
  year : Nat
  month : Nat
  day : Nat
  isDate : IsDate year month day
deriving DecidableEq

def IsTime (hour minute second microsecond : Nat) : Prop :=
  hour < 24 ∧ minute < 60 ∧ second < 60 ∧ microsecond < 10 ^ 6

instance (hour minute second microsecond : Nat) :
    Decidable (IsTime hour minute second microsecond) := by
  unfold IsTime
  infer_instance

/-- `datetime.time`, without a time zone. -/
@[ext] structure Time where
  hour : Nat
  minute : Nat
  second : Nat
  microsecond : Nat
  isTime : IsTime hour minute second microsecond
deriving DecidableEq

/-- `datetime.datetime`, in UTC. -/
@[ext] structure Datetime where
  date : Date
  time : Time
deriving DecidableEq

/-! ### Order -/

def Date.key (date : Date) : Nat ×ₗ Nat ×ₗ Nat :=
  toLex (date.year, toLex (date.month, date.day))

def Time.key (time : Time) : Nat ×ₗ Nat ×ₗ Nat ×ₗ Nat :=
  toLex (time.hour, toLex (time.minute, toLex (time.second, time.microsecond)))

theorem Date.key_injective : Function.Injective Date.key := by
  intro left right same
  simp only [Date.key, EmbeddingLike.apply_eq_iff_eq, Prod.mk.injEq] at same
  exact Date.ext same.1 same.2.1 same.2.2

theorem Time.key_injective : Function.Injective Time.key := by
  intro left right same
  simp only [Time.key, EmbeddingLike.apply_eq_iff_eq, Prod.mk.injEq] at same
  exact Time.ext same.1 same.2.1 same.2.2.1 same.2.2.2

instance : LinearOrder Date := LinearOrder.lift' Date.key Date.key_injective

instance : LinearOrder Time := LinearOrder.lift' Time.key Time.key_injective

def Datetime.key (datetime : Datetime) : Date ×ₗ Time :=
  toLex (datetime.date, datetime.time)

theorem Datetime.key_injective : Function.Injective Datetime.key := by
  intro left right same
  simp only [Datetime.key, EmbeddingLike.apply_eq_iff_eq, Prod.mk.injEq] at same
  exact Datetime.ext same.1 same.2

instance : LinearOrder Datetime := LinearOrder.lift' Datetime.key Datetime.key_injective

/-! ### `isoformat` -/

/-- A number of two digits. -/
def twoDigits (number : Nat) : Str :=
  fixedText 10 2 number

def Date.isoformat (date : Date) : Str :=
  fixedText 10 4 date.year ++ chr '-' :: (twoDigits date.month ++ chr '-' :: twoDigits date.day)

def Time.isoformat (time : Time) : Str :=
  twoDigits time.hour ++ chr ':' :: (twoDigits time.minute ++ chr ':' ::
    if time.microsecond = 0 then twoDigits time.second
    else twoDigits time.second ++ chr '.' :: fixedText 10 6 time.microsecond)

def Datetime.isoformat (datetime : Datetime) : Str :=
  datetime.date.isoformat ++ chr 'T' :: (datetime.time.isoformat ++ chr '+' :: str "00:00")

/-! ### `fromisoformat` -/

def date? (year month day : Nat) : Option Date :=
  if isDate : IsDate year month day then some ⟨year, month, day, isDate⟩ else none

def time? (hour minute second microsecond : Nat) : Option Time :=
  if isTime : IsTime hour minute second microsecond then
    some ⟨hour, minute, second, microsecond, isTime⟩
  else none

/-- `YYYY-MM-DD`. -/
def readDate (text : Str) : Option Date :=
  match split text (chr '-') with
  | [year, month, day] => do
    date? (← readFixed 10 4 year) (← readFixed 10 2 month) (← readFixed 10 2 day)
  | _ => none

/-- `HH:MM:SS` and `HH:MM:SS.ffffff`. -/
def readTime (text : Str) : Option Time :=
  match split text (chr ':') with
  | [hour, minute, rest] =>
    match partition rest (chr '.') with
    | (second, false, _) => do
      time? (← readFixed 10 2 hour) (← readFixed 10 2 minute) (← readFixed 10 2 second) 0
    | (second, true, microsecond) => do
      time? (← readFixed 10 2 hour) (← readFixed 10 2 minute) (← readFixed 10 2 second)
        (← readFixed 10 6 microsecond)
  | _ => none

/-- A date, `T`, a time and `+00:00`. -/
def readDatetime (text : Str) : Option Datetime :=
  match partition text (chr 'T') with
  | (date, true, rest) =>
    match partition rest (chr '+') with
    | (time, true, zone) =>
      if zone = str "00:00" then do pure ⟨← readDate date, ← readTime time⟩ else none
    | _ => none
  | _ => none

/-- The other spellings `fromisoformat` reads; a `datetime` in another zone is
read as the same instant in UTC. -/
structure OtherSpellings where
  date : Str → Option Date
  time : Str → Option Time
  datetime : Str → Option Datetime

/-- `date.fromisoformat`: `none` is a `ValueError`. -/
def Date.fromisoformat (other : OtherSpellings) (text : Str) : Option Date :=
  readDate text <|> other.date text

/-- `time.fromisoformat`. -/
def Time.fromisoformat (other : OtherSpellings) (text : Str) : Option Time :=
  readTime text <|> other.time text

/-- `datetime.fromisoformat`. -/
def Datetime.fromisoformat (other : OtherSpellings) (text : Str) : Option Datetime :=
  readDatetime text <|> other.datetime text

/-! ### The round trip -/

theorem notMem_fixedText {width number point : Nat} (small : number < 10 ^ width)
    (other : point < 48 ∨ (57 < point ∧ point < 97)) :
    point ∉ fixedText 10 width number := by
  intro member
  rcases isDigitChar_fixedText (by decide) (by decide) small point member with digit | letter <;>
    omega

theorem notMem_twoDigits {number point : Nat} (small : number < 100)
    (other : point < 48 ∨ (57 < point ∧ point < 97)) :
    point ∉ twoDigits number :=
  notMem_fixedText small other

theorem readFixed_twoDigits {number : Nat} (small : number < 100) :
    readFixed 10 2 (twoDigits number) = some number :=
  readFixed_fixedText (by decide) (by decide) small

/-- The bounds that the widths of a date's numbers need. -/
theorem Date.widths (date : Date) : date.year < 10 ^ 4 ∧ date.month < 100 ∧ date.day < 100 := by
  rcases date.isDate with ⟨⟨_, year⟩, ⟨_, month⟩, _, day⟩
  have longest : daysInMonth date.year date.month ≤ 31 := by
    unfold daysInMonth
    split
    · split <;> omega
    · split <;> omega
  omega

theorem Date.notMem_isoformat (date : Date) {point : Nat}
    (other : (point < 48 ∨ (57 < point ∧ point < 97)) ∧ point ≠ chr '-') :
    point ∉ date.isoformat := by
  rcases date.widths with ⟨year, month, day⟩
  simp only [isoformat, List.mem_append, List.mem_cons, not_or]
  exact ⟨notMem_fixedText year other.1, other.2, notMem_twoDigits month other.1, other.2,
    notMem_twoDigits day other.1⟩

theorem readDate_isoformat (date : Date) : readDate date.isoformat = some date := by
  rcases date.widths with ⟨year, month, day⟩
  have dash : chr '-' < 48 := by decide
  unfold readDate Date.isoformat
  rw [split_append (notMem_fixedText year (.inl dash)),
    split_append (notMem_twoDigits month (.inl dash)),
    split_of_notMem (notMem_twoDigits day (.inl dash))]
  simp only [readFixed_fixedText (by decide : 0 < 10) (by decide) year, readFixed_twoDigits month,
    readFixed_twoDigits day]
  exact dif_pos date.isDate

theorem Time.widths (time : Time) : time.hour < 100 ∧ time.minute < 100 ∧ time.second < 100 := by
  rcases time.isTime with ⟨hour, minute, second, _⟩
  omega

theorem Time.notMem_isoformat (time : Time) {point : Nat}
    (other : (point < 46 ∨ (58 < point ∧ point < 97))) :
    point ∉ time.isoformat := by
  rcases time.widths with ⟨hour, minute, second⟩
  have colon : chr ':' = 58 := rfl
  have dot : chr '.' = 46 := rfl
  have digit : point < 48 ∨ (57 < point ∧ point < 97) := by omega
  simp only [isoformat, List.mem_append, List.mem_cons, not_or]
  refine ⟨notMem_twoDigits hour digit, by omega, notMem_twoDigits minute digit, by omega, ?_⟩
  split
  · exact notMem_twoDigits second digit
  · simp only [List.mem_append, List.mem_cons, not_or]
    exact ⟨notMem_twoDigits second digit, by omega, notMem_fixedText time.isTime.2.2.2 digit⟩

theorem readTime_isoformat (time : Time) : readTime time.isoformat = some time := by
  rcases time.widths with ⟨hour, minute, second⟩
  have microsecond := time.isTime.2.2.2
  have colon : 57 < chr ':' ∧ chr ':' < 97 := by decide
  have dot : chr '.' < 48 := by decide
  have apart : chr ':' ≠ chr '.' := by decide
  have seconds : chr ':' ∉ (if time.microsecond = 0 then twoDigits time.second
      else twoDigits time.second ++ chr '.' :: fixedText 10 6 time.microsecond) := by
    split
    · exact notMem_twoDigits second (.inr colon)
    · simp only [List.mem_append, List.mem_cons, not_or]
      exact ⟨notMem_twoDigits second (.inr colon), apart, notMem_fixedText microsecond (.inr colon)⟩
  unfold readTime Time.isoformat
  rw [split_append (notMem_twoDigits hour (.inr colon)),
    split_append (notMem_twoDigits minute (.inr colon)), split_of_notMem seconds]
  simp only
  by_cases whole : time.microsecond = 0
  · rw [if_pos whole, partition_of_notMem (notMem_twoDigits second (.inl dot))]
    simp only [readFixed_twoDigits hour, readFixed_twoDigits minute, readFixed_twoDigits second]
    have isTime := time.isTime
    rw [whole] at isTime
    refine (dif_pos isTime).trans ?_
    rw [Option.some.injEq]
    exact Time.ext rfl rfl rfl whole.symm
  · rw [if_neg whole, partition_append (notMem_twoDigits second (.inl dot))]
    simp only [readFixed_twoDigits hour, readFixed_twoDigits minute, readFixed_twoDigits second,
      readFixed_fixedText (by decide : 0 < 10) (by decide) microsecond]
    exact dif_pos time.isTime

theorem readDatetime_isoformat (datetime : Datetime) :
    readDatetime datetime.isoformat = some datetime := by
  have noT : chr 'T' ∉ datetime.date.isoformat := datetime.date.notMem_isoformat (by decide)
  have noPlus : chr '+' ∉ datetime.time.isoformat := datetime.time.notMem_isoformat (by decide)
  unfold readDatetime Datetime.isoformat
  rw [partition_append noT]
  simp only
  rw [partition_append noPlus]
  simp only [if_true, readDate_isoformat, readTime_isoformat]
  rfl

@[simp] theorem Date.fromisoformat_isoformat (other : OtherSpellings) (date : Date) :
    Date.fromisoformat other date.isoformat = some date := by
  unfold fromisoformat
  rw [readDate_isoformat]
  rfl

@[simp] theorem Time.fromisoformat_isoformat (other : OtherSpellings) (time : Time) :
    Time.fromisoformat other time.isoformat = some time := by
  unfold fromisoformat
  rw [readTime_isoformat]
  rfl

@[simp] theorem Datetime.fromisoformat_isoformat (other : OtherSpellings) (datetime : Datetime) :
    Datetime.fromisoformat other datetime.isoformat = some datetime := by
  unfold fromisoformat
  rw [readDatetime_isoformat]
  rfl

end Vidit.Calendar
