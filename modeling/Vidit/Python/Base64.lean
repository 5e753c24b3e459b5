import Vidit.Python.Str

/-!
Contract: URL-safe base64, as Python's `base64` module writes and reads it.

Owns:
- `urlsafeB64encode` and `urlsafeB64decode` of a list of bytes;
- the round trip, with the padding taken off and put back.

Does not own: what the bytes are.
-/

namespace Vidit.Python

/-- The character of a six-bit value. -/
def base64Char (value : Nat) : Nat :=
  if value < 26 then chr 'A' + value
  else if value < 52 then chr 'a' + (value - 26)
  else if value < 62 then chr '0' + (value - 52)
  else if value = 62 then chr '-'
  else chr '_'

/-- The six-bit value of a character. `+` and `/` are read as well: the URL-safe
characters are translated to them first. -/
def base64Value? (point : Nat) : Option Nat :=
  if isAsciiUpper point then some (point - chr 'A')
  else if isAsciiLower point then some (point - chr 'a' + 26)
  else if isAsciiDigit point then some (point - chr '0' + 52)
  else if point = chr '-' ∨ point = chr '+' then some 62
  else if point = chr '_' ∨ point = chr '/' then some 63
  else none

/-- The characters of the bytes, three bytes at a time. -/
def base64Body : List Nat → Str
  | [] => []
  | [first] => [base64Char (first / 4), base64Char (first % 4 * 16)]
  | [first, second] =>
    [base64Char (first / 4), base64Char (first % 4 * 16 + second / 16),
      base64Char (second % 16 * 4)]
  | first :: second :: third :: rest =>
    base64Char (first / 4) :: base64Char (first % 4 * 16 + second / 16) ::
      base64Char (second % 16 * 4 + third / 64) :: base64Char (third % 64) :: base64Body rest

/-- `base64.urlsafe_b64encode(bytes)`. -/
def urlsafeB64encode (bytes : List Nat) : Str :=
  base64Body bytes ++ List.replicate ((3 - bytes.length % 3) % 3) (chr '=')

/-- `binascii.a2b_base64`, not strict: a character outside the alphabet is
skipped, and padding ends the text where it completes a group of four.
`position` counts the characters of the group read so far, and `left` is what
the last of them leaves over. -/
def base64Bytes (position left pads : Nat) : Str → Option (List Nat)
  | [] => if position = 0 then some [] else none
  | point :: rest =>
    if point = chr '=' then
      if 2 ≤ position then
        if 4 ≤ position + (pads + 1) then some []
        else base64Bytes position left (pads + 1) rest
      else base64Bytes position left pads rest
    else
      match base64Value? point with
      | none => base64Bytes position left pads rest
      | some value =>
        match position with
        | 0 => base64Bytes 1 value 0 rest
        | 1 => (base64Bytes 2 (value % 16) 0 rest).map ((left * 4 + value / 16) :: ·)
        | 2 => (base64Bytes 3 (value % 4) 0 rest).map ((left * 16 + value / 4) :: ·)
        | _ => (base64Bytes 0 0 0 rest).map ((left * 64 + value) :: ·)

/-- `base64.urlsafe_b64decode(text)`: `none` is a `ValueError`. -/
def urlsafeB64decode (text : Str) : Option (List Nat) :=
  if isAscii text then base64Bytes 0 0 0 text else none

/-! ### The round trip -/

theorem base64Value?_base64Char : ∀ value < 64, base64Value? (base64Char value) = some value := by
  decide

theorem base64Char_plain : ∀ value < 64, base64Char value ≠ chr '=' ∧ base64Char value < 0x80 := by
  decide

section Group

variable {left pads value : Nat} {rest : Str} (small : value < 64)

include small

/-- One character of the alphabet, at its place in the group of four. -/
theorem base64Bytes_char (position : Nat) :
    base64Bytes position left pads (base64Char value :: rest) =
      match position with
      | 0 => base64Bytes 1 value 0 rest
      | 1 => (base64Bytes 2 (value % 16) 0 rest).map ((left * 4 + value / 16) :: ·)
      | 2 => (base64Bytes 3 (value % 4) 0 rest).map ((left * 16 + value / 4) :: ·)
      | _ => (base64Bytes 0 0 0 rest).map ((left * 64 + value) :: ·) := by
  rw [base64Bytes, if_neg (base64Char_plain value small).1, base64Value?_base64Char value small]

theorem base64Bytes_first :
    base64Bytes 0 left pads (base64Char value :: rest) = base64Bytes 1 value 0 rest :=
  base64Bytes_char small 0

theorem base64Bytes_second :
    base64Bytes 1 left pads (base64Char value :: rest) =
      (base64Bytes 2 (value % 16) 0 rest).map ((left * 4 + value / 16) :: ·) :=
  base64Bytes_char small 1

theorem base64Bytes_third :
    base64Bytes 2 left pads (base64Char value :: rest) =
      (base64Bytes 3 (value % 4) 0 rest).map ((left * 16 + value / 4) :: ·) :=
  base64Bytes_char small 2

theorem base64Bytes_fourth :
    base64Bytes 3 left pads (base64Char value :: rest) =
      (base64Bytes 0 0 0 rest).map ((left * 64 + value) :: ·) :=
  base64Bytes_char small 3

end Group

theorem base64Bytes_encoded (bytes : List Nat) (small : ∀ byte ∈ bytes, byte < 256) :
    base64Bytes 0 0 0 (urlsafeB64encode bytes) = some bytes := by
  unfold urlsafeB64encode
  induction bytes using base64Body.induct with
  | case1 => rfl
  | case2 first =>
      have byte := small first (by simp)
      have ends : base64Bytes 2 (first % 4 * 16 % 16) 0 [chr '=', chr '='] = some [] := rfl
      have whole : first / 4 * 4 + first % 4 * 16 / 16 = first := by omega
      show base64Bytes 0 0 0 [_, _, chr '=', chr '='] = _
      rw [base64Bytes_first (by omega), base64Bytes_second (by omega), ends, whole]
      rfl
  | case3 first second =>
      have byte := small first (by simp)
      have byte' := small second (by simp)
      have ends : base64Bytes 3 (second % 16 * 4 % 4) 0 [chr '='] = some [] := rfl
      have whole : first / 4 * 4 + (first % 4 * 16 + second / 16) / 16 = first := by omega
      have whole' : (first % 4 * 16 + second / 16) % 16 * 16 + second % 16 * 4 / 4 = second := by
        omega
      show base64Bytes 0 0 0 [_, _, _, chr '='] = _
      rw [base64Bytes_first (by omega), base64Bytes_second (by omega),
        base64Bytes_third (by omega), ends, whole, whole']
      rfl
  | case4 first second third rest inductionHypothesis =>
      have byte := small first (by simp)
      have byte' := small second (by simp)
      have byte'' := small third (by simp)
      have later := inductionHypothesis fun byte member => small byte (by simp [member])
      have length : (first :: second :: third :: rest).length % 3 = rest.length % 3 := by
        simp only [List.length_cons]
        omega
      have whole : first / 4 * 4 + (first % 4 * 16 + second / 16) / 16 = first := by omega
      have whole' : (first % 4 * 16 + second / 16) % 16 * 16 +
          (second % 16 * 4 + third / 64) / 4 = second := by
        omega
      have whole'' : (second % 16 * 4 + third / 64) % 4 * 64 + third % 64 = third := by omega
      rw [length]
      simp only [base64Body, List.cons_append]
      rw [base64Bytes_first (by omega), base64Bytes_second (by omega),
        base64Bytes_third (by omega), base64Bytes_fourth (by omega), later, whole, whole', whole'']
      rfl

theorem base64Body_plain (bytes : List Nat) (small : ∀ byte ∈ bytes, byte < 256) :
    ∀ point ∈ base64Body bytes, point ≠ chr '=' ∧ point < 0x80 := by
  induction bytes using base64Body.induct with
  | case1 => simp [base64Body]
  | case2 first =>
      have byte := small first (by simp)
      simp only [base64Body, List.forall_mem_cons]
      exact ⟨base64Char_plain _ (by omega), base64Char_plain _ (by omega), by simp⟩
  | case3 first second =>
      have byte := small first (by simp)
      have byte' := small second (by simp)
      simp only [base64Body, List.forall_mem_cons]
      exact ⟨base64Char_plain _ (by omega), base64Char_plain _ (by omega),
        base64Char_plain _ (by omega), by simp⟩
  | case4 first second third rest inductionHypothesis =>
      have byte := small first (by simp)
      have byte' := small second (by simp)
      have byte'' := small third (by simp)
      simp only [base64Body, List.forall_mem_cons]
      exact ⟨base64Char_plain _ (by omega), base64Char_plain _ (by omega),
        base64Char_plain _ (by omega), base64Char_plain _ (by omega),
        inductionHypothesis fun byte member => small byte (by simp [member])⟩

theorem length_base64Body (bytes : List Nat) :
    (4 - (base64Body bytes).length % 4) % 4 = (3 - bytes.length % 3) % 3 := by
  induction bytes using base64Body.induct with
  | case1 => rfl
  | case2 first => rfl
  | case3 first second => rfl
  | case4 first second third rest inductionHypothesis =>
      simp only [base64Body, List.length_cons] at *
      omega

/-- `rstrip("=")` leaves the characters of the bytes. -/
theorem rstrip_urlsafeB64encode (bytes : List Nat) (small : ∀ byte ∈ bytes, byte < 256) :
    rstrip (urlsafeB64encode bytes) (str "=") = base64Body bytes := by
  have plain := base64Body_plain bytes small
  have padding : str "=" = [chr '='] := by decide
  unfold rstrip rstripBy urlsafeB64encode
  rw [List.reverse_append, List.reverse_replicate, List.dropWhile_append_of_pos]
  · rcases reversed : (base64Body bytes).reverse with _ | ⟨last, earlier⟩
    · simpa using (List.reverse_eq_nil_iff.mp reversed).symm
    · have member : last ∈ base64Body bytes := by
        rw [← List.mem_reverse, reversed]
        exact List.mem_cons_self
      have kept : decide (last ∈ str "=") = false := by
        simpa [padding] using (plain last member).1
      rw [List.dropWhile_cons_of_neg (by simp [kept]), ← reversed, List.reverse_reverse]
  · intro point member
    simp [padding, List.eq_of_mem_replicate member]

/-- What was stripped is put back by the length alone. -/
theorem urlsafeB64decode_padded (bytes : List Nat) (small : ∀ byte ∈ bytes, byte < 256) :
    urlsafeB64decode (base64Body bytes ++
      List.replicate ((4 - (base64Body bytes).length % 4) % 4) (chr '=')) = some bytes := by
  have ascii : isAscii (urlsafeB64encode bytes) = true := by
    unfold isAscii urlsafeB64encode
    rw [List.all_append, Bool.and_eq_true, List.all_eq_true, List.all_eq_true]
    refine ⟨fun point member => ?_, fun point member => ?_⟩
    · simpa using (base64Body_plain bytes small point member).2
    · rw [List.eq_of_mem_replicate member]
      decide
  rw [length_base64Body]
  show urlsafeB64decode (urlsafeB64encode bytes) = some bytes
  unfold urlsafeB64decode
  rw [if_pos ascii]
  exact base64Bytes_encoded bytes small

end Vidit.Python
