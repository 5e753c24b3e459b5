import Vidit.Python.Digits
import Vidit.Python.Unicode

/-!
Contract: a UUID as 32 hexadecimal digits and as 16 bytes.

Owns:
- `UUID.hex`, `UUID.bytes` and `UUID(hex=...)`, with every spelling the
  constructor takes;
- that the digits are read back, and that the bytes name one UUID.

Does not own: the hyphened text (`str(id)`), and where UUIDs come from.
-/

namespace Vidit.Python

/-- The integer of a UUID. -/
abbrev UuidInt := Fin (2 ^ 128)

/-- `id.hex`. -/
def uuidHex (id : UuidInt) : Str :=
  fixedText 16 32 id

/-- `id.bytes`. -/
def uuidBytes (id : UuidInt) : List Nat :=
  fixedDigits 256 16 id

/-- `text.replace(part, "")`; `skipped` characters of a part found are still to pass. -/
def eraseFrom (part : Str) : Nat → Str → Str
  | _, [] => []
  | skipped + 1, _ :: rest => eraseFrom part skipped rest
  | 0, point :: rest =>
    if startsWith (point :: rest) part then eraseFrom part (part.length - 1) rest
    else point :: eraseFrom part 0 rest

def eraseAll (part text : Str) : Str :=
  eraseFrom part 0 text

/-- What `int` reads of a text that is not ASCII: digits and spaces of every script. -/
def toAsciiDigits (text : Str) : Str :=
  if isAscii text then text
  else text.map fun point =>
    if point < 127 then point
    else if isSpace point then 0x20
    else match decimalValue? point with
      | some digit => chr '0' + digit
      | none => chr '?'

def isAsciiSpace (point : Nat) : Bool :=
  point = 0x20 || (0x09 ≤ point && point ≤ 0x0D)

/-- The digits a text starts with and what follows them. A single underscore may stand
between two digits: `underscored` is whether one was just read. -/
def readHexDigits (underscored : Bool) : Str → Option (List Nat × Str)
  | [] => if underscored then none else some ([], [])
  | point :: rest =>
    if point = chr '_' then
      if underscored then none else readHexDigits true rest
    else match digitValue? 16 point with
      | some digit => (readHexDigits false rest).map fun read => (digit :: read.1, read.2)
      | none => if underscored then none else some ([], point :: rest)

/-- `0x` in front, with the underscore that may follow it. -/
def withoutBase (text : Str) : Str :=
  match text with
  | mark :: letter :: rest =>
    if mark = chr '0' ∧ (letter = chr 'x' ∨ letter = chr 'X') then
      if rest.head? = some (chr '_') then rest.tail else rest
    else text
  | _ => text

/-- `int(text, 16)` of a text without a minus sign: `none` is a `ValueError`. -/
def intHex (text : Str) : Option Nat :=
  let started := (toAsciiDigits text).dropWhile isAsciiSpace
  let unsigned := if started.head? = some (chr '+') then started.tail else started
  let digits := withoutBase unsigned
  if digits.head? = some (chr '_') then none
  else match readHexDigits false digits with
    | some (read, left) =>
      if read ≠ [] ∧ left.all isAsciiSpace = true then some (valueOf 16 read) else none
    | none => none

/-- `UUID(hex=text)`: `none` is a `ValueError`. -/
def uuidOfHex (text : Str) : Option UuidInt :=
  let named := eraseAll (str "uuid:") (eraseAll (str "urn:") text)
  let bare := remove (stripBy (fun point => point = 0x7B || point = 0x7D) named) [chr '-']
  if bare.length = 32 then
    (intHex bare).bind fun value =>
      if bounded : value < 2 ^ 128 then some ⟨value, bounded⟩ else none
  else none

/-! ### The round trip -/

theorem isDigitChar_uuidHex (id : UuidInt) : ∀ point ∈ uuidHex id, IsDigitChar point :=
  isDigitChar_fixedText (by decide) (by decide) (by simp)

theorem length_uuidHex (id : UuidInt) : (uuidHex id).length = 32 := by
  simp [uuidHex, fixedText]

@[simp] theorem length_uuidBytes (id : UuidInt) : (uuidBytes id).length = 16 :=
  length_fixedDigits ..

theorem uuidBytes_injective {left right : UuidInt} (same : uuidBytes left = uuidBytes right) :
    left = right := by
  have read : ∀ id : UuidInt, valueOf 256 (uuidBytes id) = id := by
    intro id
    exact valueOf_fixedDigits (by decide) (by simp)
  have values := congrArg (valueOf 256) same
  rw [read, read] at values
  exact Fin.ext values

/-- A text without one of the characters of a part has no such part to erase. -/
theorem eraseAll_eq_self {part text : Str} {point : Nat} (inPart : point ∈ part)
    (absent : point ∉ text) : eraseAll part text = text := by
  unfold eraseAll
  induction text with
  | nil => rfl
  | cons first rest inductionHypothesis =>
      have elsewhere : ¬ startsWith (first :: rest) part = true := by
        intro starts
        apply absent
        exact (List.isPrefixOf_iff_prefix.mp starts).subset inPart
      rw [List.mem_cons, not_or] at absent
      rw [eraseFrom, if_neg elsewhere, inductionHypothesis absent.2]

theorem readHexDigits_map (digits : List Nat) (small : ∀ digit ∈ digits, digit < 16) :
    readHexDigits false (digits.map digitChar) = some (digits, []) := by
  have notUnderscore : ∀ digit < 16, digitChar digit ≠ chr '_' := by decide
  induction digits with
  | nil => rfl
  | cons digit digits inductionHypothesis =>
      rw [List.forall_mem_cons] at small
      rw [List.map_cons, readHexDigits, if_neg (notUnderscore digit small.1),
        digitValue?_digitChar le_rfl small.1, inductionHypothesis small.2]
      rfl

theorem withoutBase_eq_self {text : Str} (digits : ∀ point ∈ text, IsDigitChar point) :
    withoutBase text = text := by
  unfold withoutBase
  split
  · next mark letter rest =>
    have isDigit := digits letter (by simp)
    have notLetter : ¬ (letter = chr 'x' ∨ letter = chr 'X') := by
      have lower : chr 'x' = 120 := by decide
      have upper : chr 'X' = 88 := by decide
      unfold IsDigitChar at isDigit
      omega
    rw [if_neg fun base => notLetter base.2]
  · rfl

theorem intHex_digits {digits : List Nat} (nonempty : digits ≠ [])
    (small : ∀ digit ∈ digits, digit < 16) :
    intHex (digits.map digitChar) = some (valueOf 16 digits) := by
  have written : ∀ point ∈ digits.map digitChar, IsDigitChar point := by
    have chars : ∀ digit < 16, IsDigitChar (digitChar digit) := by
      unfold IsDigitChar
      decide
    intro point member
    obtain ⟨digit, digitMember, rfl⟩ := List.mem_map.mp member
    exact chars digit (small digit digitMember)
  obtain ⟨first, rest, texts⟩ : ∃ first rest, digits.map digitChar = first :: rest :=
    List.exists_cons_of_ne_nil (by simpa using nonempty)
  have here : IsDigitChar first := written first (by simp [texts])
  have plus : chr '+' = 43 := by decide
  have underscore : chr '_' = 95 := by decide
  have ascii : isAscii (digits.map digitChar) = true := by
    simp only [isAscii, List.all_eq_true, decide_eq_true_eq]
    intro point member
    have isDigit := written point member
    unfold IsDigitChar at isDigit
    omega
  have started : (digits.map digitChar).dropWhile isAsciiSpace = digits.map digitChar := by
    rw [texts]
    apply List.dropWhile_cons_of_neg
    simp only [isAsciiSpace, Bool.or_eq_true, Bool.and_eq_true, decide_eq_true_eq]
    unfold IsDigitChar at here
    omega
  have unsigned : ¬ (digits.map digitChar).head? = some (chr '+') := by
    rw [texts, List.head?_cons, Option.some.injEq]
    unfold IsDigitChar at here
    omega
  have plain : ¬ (digits.map digitChar).head? = some (chr '_') := by
    rw [texts, List.head?_cons, Option.some.injEq]
    unfold IsDigitChar at here
    omega
  simp only [intHex, toAsciiDigits, ascii, if_true, started, if_neg unsigned,
    withoutBase_eq_self written, if_neg plain, readHexDigits_map digits small]
  simp [nonempty]

/-- The digits of a UUID are read back. -/
theorem uuidOfHex_uuidHex (id : UuidInt) : uuidOfHex (uuidHex id) = some id := by
  have digits := isDigitChar_uuidHex id
  have colon : chr ':' ∉ uuidHex id := by
    intro member
    have isDigit := digits _ member
    have value : chr ':' = 58 := by decide
    unfold IsDigitChar at isDigit
    omega
  have unnamed : eraseAll (str "uuid:") (eraseAll (str "urn:") (uuidHex id)) = uuidHex id := by
    have inUrn : chr ':' ∈ str "urn:" := by decide
    have inUuid : chr ':' ∈ str "uuid:" := by decide
    rw [eraseAll_eq_self inUrn colon, eraseAll_eq_self inUuid colon]
  have unbraced : stripBy (fun point => point = 0x7B || point = 0x7D) (uuidHex id) =
      uuidHex id := by
    apply stripBy_eq_self
    intro point member
    have isDigit := digits point member
    unfold IsDigitChar at isDigit
    simp only [Bool.or_eq_false_iff, decide_eq_false_iff_not]
    omega
  have bare : remove (uuidHex id) [chr '-'] = uuidHex id := by
    apply List.filter_eq_self.mpr
    intro point member
    have isDigit := digits point member
    have value : chr '-' = 45 := by decide
    unfold IsDigitChar at isDigit
    simp only [List.mem_singleton, decide_eq_true_eq]
    omega
  have small : ∀ digit ∈ fixedDigits 16 32 id, digit < 16 :=
    fixedDigits_lt (by decide) (by simp)
  have nonempty : fixedDigits 16 32 (id : Nat) ≠ [] := by
    intro empty
    have length := length_fixedDigits 16 32 (id : Nat)
    rw [empty] at length
    contradiction
  have value : intHex (uuidHex id) = some (id : Nat) := by
    unfold uuidHex fixedText
    rw [intHex_digits nonempty small, valueOf_fixedDigits (by decide) (by simp)]
  unfold uuidOfHex
  simp only [unnamed, unbraced, bare, length_uuidHex, if_true, value, Option.bind_some]
  rw [dif_pos id.isLt]

end Vidit.Python
