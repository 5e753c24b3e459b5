import Mathlib.Data.Fintype.Basic
import Vidit.Library.Keyset
import Vidit.Points.Viewport
import Vidit.Python.Base64
import Vidit.Python.Calendar

/-!
Contract: the cursors of the list endpoints.

Owns:
- the compact JSON of a cursor, and what `orjson` reads back of it;
- `_encode` and `_decode`;
- the encoders and decoders of the four cursors: ordinal, `(created_at, id)`,
  chronological and ranked;
- that each decoder undoes its encoder.

Does not own: the lists read from a cursor.

The parts of the readers that no minted cursor reaches (`OtherReaders`) and
Python's floats (`Doubles`) are parameters.
-/

namespace Vidit.Pagination

open Vidit.Python Vidit.Calendar Vidit.Points

/-! ### Values -/

/-- A row's UUID, as the number of its 128 bits. -/
abbrev RowId := Fin (2 ^ 128)

/-- Written between quotes as it is: printable ASCII without quote and backslash. -/
def IsPlain (point : Nat) : Prop :=
  (0x20 ≤ point ∧ point < 0x7F) ∧ point ≠ chr '"' ∧ point ≠ chr '\\'

instance (point : Nat) : Decidable (IsPlain point) := by
  unfold IsPlain
  infer_instance

/-- Python's finite floats, with their shortest text and what `float` reads. -/
structure Doubles (Rank : Type) where
  repr : Rank → Str
  /-- `float(text)` where it is finite. -/
  float : Str → Option Rank
  float_repr : ∀ rank, float (repr rank) = some rank
  repr_plain : ∀ rank, ∀ point ∈ repr rank, IsPlain point

/-- What `orjson.loads` returns, as far as a cursor is read. -/
inductive Json where
  | null
  | bool (value : Bool)
  | int (value : Int)
  | float
  | string (text : Str)
  | array (items : List Json)
  | object

/-- What the readers make of a text that no encoder writes. -/
structure OtherReaders where
  spellings : OtherSpellings
  uuid : Str → Option RowId
  json : List Nat → Option Json

/-! ### Compact JSON -/

/-- A payload of a cursor. -/
inductive Payload where
  | ordinal (value : Int)
  | parts (texts : List Str)

/-- The escape of a character, where it has one. -/
def escaped (point : Nat) : Str :=
  if point = chr '"' then str "\\\""
  else if point = chr '\\' then str "\\\\"
  else if point = 0x8 then str "\\b"
  else if point = 0x9 then str "\\t"
  else if point = 0xA then str "\\n"
  else if point = 0xC then str "\\f"
  else if point = 0xD then str "\\r"
  else if point < 0x20 then str "\\u" ++ fixedText 16 4 point
  else [point]

def quoted (text : Str) : Str :=
  chr '"' :: (text.flatMap escaped ++ [chr '"'])

def intText (value : Int) : Str :=
  if value < 0 then chr '-' :: natText value.natAbs else natText value.natAbs

/-- The items of an array, the bracket that closes it included. -/
def partsText : List Str → Str
  | [] => [chr ']']
  | [text] => quoted text ++ [chr ']']
  | text :: rest => quoted text ++ chr ',' :: partsText rest

/-- `orjson.dumps` of a payload. -/
def dumps (payload : Payload) : List Nat :=
  encodeUtf8 <| match payload with
    | .ordinal value => intText value
    | .parts texts => chr '[' :: partsText texts

/-- The items of an array of plain strings. `fuel` bounds their number. -/
def readParts : Nat → Str → Option (List Str)
  | 0, _ => none
  | fuel + 1, text =>
    match text with
    | [] => none
    | mark :: rest =>
      if mark ≠ chr '"' then none
      else
        match partition rest (chr '"') with
        | (part, true, next :: others) =>
          if ¬ ∀ point ∈ part, IsPlain point then none
          else if next = chr ',' then (readParts fuel others).map (part :: ·)
          else if next = chr ']' ∧ others = [] then some [part]
          else none
        | _ => none

/-- The digits of a number without leading zeros. -/
def readNat (text : Str) : Option Nat :=
  if text = [] ∨ (text.head? = some (chr '0') ∧ text ≠ [chr '0']) then none
  else (text.mapM (digitValue? 10)).map (valueOf 10)

/-- A number that `orjson` reads as an `int`: one of 64 bits. -/
def readInt (text : Str) : Option Int :=
  let value : Option Int :=
    match text with
    | [] => none
    | sign :: rest =>
      if sign = chr '-' then (readNat rest).map fun number : Nat => -(number : Int)
      else (readNat (sign :: rest)).map fun number : Nat => (number : Int)
  value.filter fun value => -2 ^ 63 ≤ value ∧ value < 2 ^ 64

/-- What `dumps` writes of a payload with plain parts. -/
def readPayload (bytes : List Nat) : Option Json :=
  match readInt bytes with
  | some value => some (.int value)
  | none =>
    match bytes with
    | [] => none
    | mark :: rest =>
      if mark = chr '[' then
        (readParts rest.length rest).map fun parts => .array (parts.map .string)
      else none

/-- `orjson.loads`: `none` is a `JSONDecodeError`. -/
def loads (other : OtherReaders) (bytes : List Nat) : Option Json :=
  readPayload bytes <|> other.json bytes

/-! ### Cursors -/

/-- `_encode`. -/
def encode (payload : Payload) : Str :=
  rstrip (urlsafeB64encode (dumps payload)) (str "=")

/-- `_decode`. -/
def decode (other : OtherReaders) (cursor : Str) : Option Json := do
  let padded := cursor ++ List.replicate ((4 - cursor.length % 4) % 4) (chr '=')
  loads other (← urlsafeB64decode padded)

/-- `_malformed_cursor`. -/
def malformedCursor : HttpException :=
  unprocessable "cursor is malformed"

def Json.text? : Json → Option Str
  | .string text => some text
  | _ => none

/-- `_decode_parts`. -/
def decodeParts (other : OtherReaders) (cursor : Str) (count : Nat) :
    Except HttpException (List Str) :=
  match decode other cursor with
  | some (.array items) =>
    if items.length = count then
      match items.mapM Json.text? with
      | some texts => .ok texts
      | none => .error malformedCursor
    else .error malformedCursor
  | _ => .error malformedCursor

/-- `str(id)`. -/
def uuidText (id : RowId) : Str :=
  let digits := fixedText 16 32 id
  digits.take 8 ++ chr '-' :: ((digits.drop 8).take 4 ++ chr '-' :: ((digits.drop 12).take 4 ++
    chr '-' :: ((digits.drop 16).take 4 ++ chr '-' :: digits.drop 20)))

/-- The 36 characters of a UUID, in either case. -/
def readUuid (text : Str) : Option RowId :=
  match split text (chr '-') with
  | [timeLow, timeMid, timeHigh, clock, node] =>
    if timeLow.length = 8 ∧ timeMid.length = 4 ∧ timeHigh.length = 4 ∧ clock.length = 4 then
      (readFixed 16 32 (timeLow ++ timeMid ++ timeHigh ++ clock ++ node)).bind fun value =>
        if bounded : value < 2 ^ 128 then some ⟨value, bounded⟩ else none
    else none
  | _ => none

/-- `uuid.UUID(text)`: `none` is a `ValueError`. -/
def uuidOf (other : OtherReaders) (text : Str) : Option RowId :=
  readUuid text <|> other.uuid text

/-- Any `ValueError` of the readers is the one 422. -/
def orMalformed {α : Type} (value : Option α) : Except HttpException α :=
  match value with
  | some value => .ok value
  | none => .error malformedCursor

def encodeCursor (createdAt : Datetime) (rowId : RowId) : Str :=
  encode (.parts [createdAt.isoformat, uuidText rowId])

def decodeCursor (other : OtherReaders) (cursor : Str) :
    Except HttpException (Datetime × RowId) := do
  match ← decodeParts other cursor 2 with
  | [createdRaw, idRaw] => orMalformed do
    pure (← Datetime.fromisoformat other.spellings createdRaw, ← uuidOf other idRaw)
  | _ => .error malformedCursor

def encodeOrdinalCursor (value : Int) : Str :=
  encode (.ordinal value)

def decodeOrdinalCursor (other : OtherReaders) (cursor : Str) : Except HttpException Int :=
  match decode other cursor with
  | some (.int value) => .ok value
  | _ => .error malformedCursor

def encodeChronologicalCursor (occurredDate : Date) (occurredTime : Time) (createdAt : Datetime)
    (rowId : RowId) : Str :=
  encode (.parts
    [occurredDate.isoformat, occurredTime.isoformat, createdAt.isoformat, uuidText rowId])

def decodeChronologicalCursor (other : OtherReaders) (cursor : Str) :
    Except HttpException (Date × Time × Datetime × RowId) := do
  match ← decodeParts other cursor 4 with
  | [dateRaw, timeRaw, createdRaw, idRaw] => orMalformed do
    pure (← Date.fromisoformat other.spellings dateRaw,
      ← Time.fromisoformat other.spellings timeRaw,
      ← Datetime.fromisoformat other.spellings createdRaw, ← uuidOf other idRaw)
  | _ => .error malformedCursor

section Ranked

variable {Rank : Type} (doubles : Doubles Rank)

def encodeRankedCursor (rank : Rank) (createdAt : Datetime) (rowId : RowId) : Str :=
  encode (.parts [doubles.repr rank, createdAt.isoformat, uuidText rowId])

def decodeRankedCursor (other : OtherReaders) (cursor : Str) :
    Except HttpException (Rank × Datetime × RowId) := do
  match ← decodeParts other cursor 3 with
  | [rankRaw, createdRaw, idRaw] => orMalformed do
    pure (← doubles.float rankRaw, ← Datetime.fromisoformat other.spellings createdRaw,
      ← uuidOf other idRaw)
  | _ => .error malformedCursor

end Ranked

/-! ### JSON round trip -/

def Plain (text : Str) : Prop :=
  ∀ point ∈ text, IsPlain point

theorem Plain.append {left right : Str} (leftPlain : Plain left) (rightPlain : Plain right) :
    Plain (left ++ right) := by
  intro point member
  rcases List.mem_append.mp member with inLeft | inRight
  · exact leftPlain point inLeft
  · exact rightPlain point inRight

theorem Plain.cons {point : Nat} {text : Str} (isPlain : IsPlain point) (plain : Plain text) :
    Plain (point :: text) :=
  List.forall_mem_cons.mpr ⟨isPlain, plain⟩

/-- A plain character is written as it is. -/
theorem escaped_of_isPlain {point : Nat} (isPlain : IsPlain point) : escaped point = [point] := by
  rcases isPlain with ⟨⟨low, _⟩, notQuote, notSlash⟩
  unfold escaped
  rw [if_neg notQuote, if_neg notSlash, if_neg (by omega), if_neg (by omega), if_neg (by omega),
    if_neg (by omega), if_neg (by omega), if_neg (by omega)]

theorem quoted_of_plain {text : Str} (plain : Plain text) :
    quoted text = chr '"' :: (text ++ [chr '"']) := by
  have same : text.flatMap escaped = text := by
    induction text with
    | nil => rfl
    | cons point text inductionHypothesis =>
        rw [Plain, List.forall_mem_cons] at plain
        rw [List.flatMap_cons, escaped_of_isPlain plain.1, inductionHypothesis plain.2]
        rfl
  unfold quoted
  rw [same]

theorem encodeUtf8_of_ascii {text : Str} (ascii : ∀ point ∈ text, point < 0x80) :
    encodeUtf8 text = text := by
  unfold encodeUtf8
  induction text with
  | nil => rfl
  | cons point text inductionHypothesis =>
      rw [List.forall_mem_cons] at ascii
      have one : encodeCodePoint point = [point] := if_pos ascii.1
      rw [List.flatMap_cons, one, inductionHypothesis ascii.2]
      rfl

theorem partition_quoted {text rest : Str} (plain : Plain text) :
    partition (text ++ chr '"' :: rest) (chr '"') = (text, true, rest) :=
  partition_append fun member => (plain _ member).2.1 rfl

/-- The items are read back one by one. -/
theorem readParts_partsText {texts : List Str} (nonempty : texts ≠ [])
    (plain : ∀ text ∈ texts, Plain text) {fuel : Nat} (enough : texts.length ≤ fuel) :
    readParts fuel (partsText texts) = some texts := by
  induction texts generalizing fuel with
  | nil => exact absurd rfl nonempty
  | cons text texts inductionHypothesis =>
      rw [List.forall_mem_cons] at plain
      cases fuel with
      | zero => simp at enough
      | succ fuel =>
          have isPlain : ¬ ¬ ∀ point ∈ text, IsPlain point := not_not.mpr plain.1
          cases texts with
          | nil =>
              have notComma : chr ']' ≠ chr ',' := by decide
              rw [partsText, quoted_of_plain plain.1]
              simp only [List.cons_append, List.append_assoc, readParts, ne_eq, not_true,
                if_false, List.nil_append, partition_quoted plain.1]
              rw [if_neg isPlain, if_neg notComma, if_pos ⟨trivial, trivial⟩]
          | cons next others =>
              have later := inductionHypothesis (by simp) plain.2 (by simpa using enough)
              rw [partsText, quoted_of_plain plain.1]
              · simp only [List.cons_append, List.append_assoc, readParts, ne_eq, not_true,
                  if_false, List.nil_append, partition_quoted plain.1]
                rw [if_neg isPlain, if_pos trivial, later]
                rfl
              · simp

theorem ascii_partsText {texts : List Str} (plain : ∀ text ∈ texts, Plain text) :
    ∀ point ∈ partsText texts, point < 0x80 := by
  have ascii : ∀ text : Str, Plain text → ∀ point ∈ quoted text, point < 0x80 := by
    intro text isPlain point member
    have quote : chr '"' = 34 := rfl
    rw [quoted_of_plain isPlain] at member
    rcases List.mem_cons.mp member with rfl | later
    · omega
    · rcases List.mem_append.mp later with inText | isQuote
      · have here := (isPlain point inText).1
        omega
      · rw [List.mem_singleton.mp isQuote]
        omega
  have bracket : chr ']' = 93 := rfl
  have comma : chr ',' = 44 := rfl
  induction texts with
  | nil =>
      intro point member
      rw [partsText, List.mem_singleton] at member
      omega
  | cons text texts inductionHypothesis =>
      rw [List.forall_mem_cons] at plain
      intro point member
      cases texts with
      | nil =>
          rw [partsText] at member
          rcases List.mem_append.mp member with inText | isBracket
          · exact ascii text plain.1 point inText
          · rw [List.mem_singleton.mp isBracket]
            omega
      | cons next others =>
          rw [partsText] at member
          · rcases List.mem_append.mp member with inText | later
            · exact ascii text plain.1 point inText
            · rcases List.mem_cons.mp later with rfl | inRest
              · omega
              · exact inductionHypothesis plain.2 point inRest
          · simp

theorem length_le_partsText (texts : List Str) : texts.length ≤ (partsText texts).length := by
  induction texts with
  | nil => simp
  | cons text texts inductionHypothesis =>
      cases texts with
      | nil => simp [partsText]
      | cons next others =>
          rw [partsText]
          · simp only [List.length_cons, List.length_append] at *
            omega
          · simp

theorem dumps_parts {texts : List Str} (plain : ∀ text ∈ texts, Plain text) :
    dumps (.parts texts) = chr '[' :: partsText texts ∧
      ∀ byte ∈ dumps (.parts texts), byte < 256 := by
  have bracket : chr '[' = 91 := rfl
  have ascii : ∀ point ∈ chr '[' :: partsText texts, point < 0x80 :=
    List.forall_mem_cons.mpr ⟨by omega, ascii_partsText plain⟩
  have bytes : dumps (.parts texts) = chr '[' :: partsText texts := encodeUtf8_of_ascii ascii
  refine ⟨bytes, fun byte member => ?_⟩
  rw [bytes] at member
  exact (ascii byte member).trans (by decide)

theorem loads_dumps_parts (other : OtherReaders) {texts : List Str} (nonempty : texts ≠ [])
    (plain : ∀ text ∈ texts, Plain text) :
    loads other (dumps (.parts texts)) = some (.array (texts.map .string)) := by
  have notNumber : readInt (chr '[' :: partsText texts) = none := by
    have notDigit : digitValue? 10 (chr '[') = none := by decide
    have notMinus : chr '[' ≠ chr '-' := by decide
    simp [readInt, readNat, notMinus, List.mapM_cons, notDigit]
  have read := readParts_partsText nonempty plain (length_le_partsText texts)
  unfold loads
  rw [(dumps_parts plain).1]
  unfold readPayload
  rw [notNumber]
  simp only [if_true, read]
  rfl

/-! A number is read back. -/

theorem digits_natText_value (number : Nat) :
    (natText number).mapM (digitValue? 10) = some ((natText number).map (· - 48)) := by
  have read : ∀ text : Str, Digits text →
      text.mapM (digitValue? 10) = some (text.map (· - 48)) := by
    intro text digits
    induction text with
    | nil => rfl
    | cons point text inductionHypothesis =>
        rw [Digits, List.forall_mem_cons] at digits
        have here : digitValue? 10 point = some (point - 48) := by
          have written := digitValue?_digitChar (by decide : 10 ≤ 16)
            (show point - 48 < 10 by omega)
          have same : digitChar (point - 48) = point := by
            have zero : chr '0' = 48 := rfl
            unfold digitChar
            rw [if_pos (by omega)]
            omega
          rwa [same] at written
        rw [List.mapM_cons, here, inductionHypothesis digits.2]
        rfl
  exact read _ (digits_natText number)

/-- A number has no leading zero. -/
theorem head?_natText {number : Nat} (zero : (natText number).head? = some (chr '0')) :
    natText number = [chr '0'] := by
  have text : ∀ number, natText number = (Nat.toDigits 10 number).map Char.toNat := by
    intro number
    unfold natText str
    rw [show toString number = Nat.repr number from rfl, Nat.toList_repr]
  have noZero : ∀ number, 0 < number →
      ((Nat.toDigits 10 number).map Char.toNat).head? ≠ some (chr '0') := by
    intro number
    induction number using Nat.strongRecOn with
    | ind number inductionHypothesis =>
        intro positive
        rcases Nat.lt_or_ge number 10 with small | large
        · rw [Nat.toDigits_of_lt_base small]
          have point := Nat.toNat_digitChar_of_lt_ten small
          have code : chr '0' = 48 := rfl
          simp only [List.map_cons, List.map_nil, List.head?_cons, ne_eq, Option.some.injEq]
          omega
        · rw [Nat.toDigits_of_base_le (by decide) large, List.map_append, List.head?_append]
          have earlier := inductionHypothesis (number / 10) (by omega) (by omega)
          rcases front : ((Nat.toDigits 10 (number / 10)).map Char.toNat).head? with _ | point
          · rw [List.head?_eq_none_iff, List.map_eq_nil_iff] at front
            exact absurd front Nat.toDigits_ne_nil
          · rw [front] at earlier
            simpa using earlier
  rcases Nat.eq_zero_or_pos number with rfl | positive
  · rfl
  · rw [text] at zero
    exact absurd zero (noZero number positive)

theorem readNat_natText (number : Nat) : readNat (natText number) = some number := by
  have plain : ¬ (natText number = [] ∨
      ((natText number).head? = some (chr '0') ∧ natText number ≠ [chr '0'])) := by
    rintro (none | ⟨zero, longer⟩)
    · exact natText_ne_nil number none
    · exact longer (head?_natText zero)
  unfold readNat
  rw [if_neg plain, digits_natText_value, Option.map_some]
  exact congrArg some (decimalOf_natText number)

theorem readInt_intText {value : Int} (low : -2 ^ 63 ≤ value) (high : value < 2 ^ 64) :
    readInt (intText value) = some value := by
  have bounded : decide (-2 ^ 63 ≤ value ∧ value < 2 ^ 64) = true := decide_eq_true ⟨low, high⟩
  by_cases negative : value < 0
  · have magnitude : -((value.natAbs : Nat) : Int) = value := by omega
    have text : intText value = chr '-' :: natText value.natAbs := if_pos negative
    unfold readInt
    rw [text]
    simp only [if_true, readNat_natText, Option.map_some, magnitude]
    exact (Option.filter_eq_some_iff).mpr ⟨rfl, bounded⟩
  · have magnitude : ((value.natAbs : Nat) : Int) = value := by omega
    have text : intText value = natText value.natAbs := if_neg negative
    rcases textIs : natText value.natAbs with _ | ⟨point, rest⟩
    · exact absurd textIs (natText_ne_nil _)
    have digit := digits_natText value.natAbs point (by rw [textIs]; simp)
    have notMinus : point ≠ chr '-' := by
      have code : chr '-' = 45 := rfl
      omega
    unfold readInt
    rw [text, textIs]
    simp only [if_neg notMinus]
    rw [← textIs, readNat_natText, Option.map_some, magnitude]
    exact (Option.filter_eq_some_iff).mpr ⟨rfl, bounded⟩

theorem dumps_ordinal (value : Int) :
    dumps (.ordinal value) = intText value ∧ ∀ byte ∈ dumps (.ordinal value), byte < 256 := by
  have ascii : ∀ point ∈ intText value, point < 0x80 := by
    have minus : chr '-' = 45 := rfl
    have digits : ∀ number, ∀ point ∈ natText number, point < 0x80 := by
      intro number point member
      have here := digits_natText number point member
      omega
    unfold intText
    split
    · exact List.forall_mem_cons.mpr ⟨by omega, digits _⟩
    · exact digits _
  have bytes : dumps (.ordinal value) = intText value := encodeUtf8_of_ascii ascii
  refine ⟨bytes, fun byte member => ?_⟩
  rw [bytes] at member
  exact (ascii byte member).trans (by decide)

theorem loads_dumps_ordinal (other : OtherReaders) {value : Int} (low : -2 ^ 63 ≤ value)
    (high : value < 2 ^ 64) :
    loads other (dumps (.ordinal value)) = some (.int value) := by
  unfold loads
  rw [(dumps_ordinal value).1]
  unfold readPayload
  rw [readInt_intText low high]
  rfl

/-! ### Floats of four decimals -/

/-- The floats of at most four decimals, counted in units of the fourth. -/
def fourDecimals : Doubles Int where
  repr units := numberText (units / bboxScale)
  float text :=
    match Points.float text with
    | some (.finite value) => some ⌊value * bboxScale⌋
    | _ => none
  float_repr units := by
    have scale : bboxScale ≠ 0 := by norm_num [bboxScale, bboxPrecision]
    simp [float_numberText, scale]
  repr_plain units point member := by
    have codes : chr '.' = 46 ∧ chr '-' = 45 ∧ chr '"' = 34 ∧ chr '\\' = 92 := by decide
    have points := numberText_points member
    unfold IsPlain
    omega

/-! ### Each decoder undoes its encoder -/

theorem decode_encode (other : OtherReaders) {payload : Payload} {json : Json}
    (bytes : ∀ byte ∈ dumps payload, byte < 256) (read : loads other (dumps payload) = some json) :
    decode other (encode payload) = some json := by
  unfold decode encode
  rw [rstrip_urlsafeB64encode _ bytes]
  simp only [urlsafeB64decode_padded _ bytes]
  exact read

/-- Plain parts come back as they were. -/
theorem decodeParts_encode (other : OtherReaders) {texts : List Str} (nonempty : texts ≠ [])
    (plain : ∀ text ∈ texts, Plain text) :
    decodeParts other (encode (.parts texts)) texts.length = .ok texts := by
  have strings : ∀ texts : List Str, (texts.map Json.string).mapM Json.text? = some texts := by
    intro texts
    induction texts with
    | nil => rfl
    | cons text texts inductionHypothesis =>
        rw [List.map_cons, List.mapM_cons, inductionHypothesis]
        rfl
  unfold decodeParts
  rw [decode_encode other (dumps_parts plain).2 (loads_dumps_parts other nonempty plain)]
  simp only [List.length_map, if_true, strings]

theorem isPlain_of_isDigitChar {point : Nat} (digit : IsDigitChar point) : IsPlain point := by
  have quote : chr '"' = 34 := rfl
  have slash : chr '\\' = 92 := rfl
  unfold IsPlain
  rcases digit with number | letter <;> omega

theorem plain_fixedText {base width number : Nat} (positive : 0 < base) (bounded : base ≤ 16)
    (small : number < base ^ width) : Plain (fixedText base width number) :=
  fun point member => isPlain_of_isDigitChar (isDigitChar_fixedText positive bounded small point
    member)

theorem plain_twoDigits {number : Nat} (small : number < 100) : Plain (twoDigits number) :=
  plain_fixedText (by decide) (by decide) small

theorem plain_date (date : Date) : Plain date.isoformat := by
  rcases date.widths with ⟨year, month, day⟩
  unfold Date.isoformat
  exact (plain_fixedText (by decide) (by decide) year).append (.cons (by decide)
    ((plain_twoDigits month).append (.cons (by decide) (plain_twoDigits day))))

theorem plain_time (time : Time) : Plain time.isoformat := by
  rcases time.widths with ⟨hour, minute, second⟩
  unfold Time.isoformat
  refine (plain_twoDigits hour).append (.cons (by decide)
    ((plain_twoDigits minute).append (.cons (by decide) ?_)))
  split
  · exact plain_twoDigits second
  · exact (plain_twoDigits second).append (.cons (by decide)
      (plain_fixedText (by decide) (by decide) time.isTime.2.2.2))

theorem plain_datetime (datetime : Datetime) : Plain datetime.isoformat := by
  have zone : Plain (chr '+' :: str "00:00") := by
    unfold Plain
    decide
  exact (plain_date datetime.date).append (.cons (by decide) ((plain_time datetime.time).append
    zone))

/-- The text of a UUID is its 32 digits, with dashes between. -/
theorem readUuid_uuidText (id : RowId) : readUuid (uuidText id) = some id := by
  have bounded : (id : Nat) < 16 ^ 32 := id.isLt
  have length : (fixedText 16 32 id).length = 32 := by simp [fixedText]
  have noDash : ∀ text : Str, text ⊆ fixedText 16 32 id → chr '-' ∉ text := by
    intro text inside member
    have dash : chr '-' = 45 := rfl
    rcases isDigitChar_fixedText (by decide) (by decide) bounded _ (inside member) with
      number | letter <;> omega
  have piece : ∀ start count, ((fixedText 16 32 id).drop start).take count ⊆ fixedText 16 32 id :=
    fun start count _ member => List.mem_of_mem_drop (List.mem_of_mem_take member)
  have whole : (fixedText 16 32 id).take 8 ++ ((fixedText 16 32 id).drop 8).take 4 ++
      ((fixedText 16 32 id).drop 12).take 4 ++ ((fixedText 16 32 id).drop 16).take 4 ++
      (fixedText 16 32 id).drop 20 = fixedText 16 32 id := by
    have cut : ∀ (digits : Str) (start count : Nat), digits.take start ++
        (digits.drop start).take count = digits.take (start + count) :=
      fun digits start count => (List.take_add).symm
    rw [cut, cut _ 12 4, cut _ 16 4, List.take_append_drop]
  unfold readUuid uuidText
  rw [split_append (noDash _ (List.take_subset _ _)), split_append (noDash _ (piece 8 4)),
    split_append (noDash _ (piece 12 4)), split_append (noDash _ (piece 16 4)),
    split_of_notMem (noDash _ (List.drop_subset _ _))]
  simp only
  rw [if_pos (by simp [length]), whole, readFixed_fixedText (by decide) (by decide) bounded]
  exact dif_pos id.isLt

theorem plain_uuidText (id : RowId) : Plain (uuidText id) := by
  have bounded : (id : Nat) < 16 ^ 32 := id.isLt
  have digits := plain_fixedText (by decide) (by decide) bounded
  have front : ∀ (text : Str) (count : Nat), Plain text → Plain (text.take count) :=
    fun text count plain point member => plain point (List.mem_of_mem_take member)
  have back : ∀ (text : Str) (count : Nat), Plain text → Plain (text.drop count) :=
    fun text count plain point member => plain point (List.mem_of_mem_drop member)
  have dash : IsPlain (chr '-') := by decide
  unfold uuidText
  exact (front _ _ digits).append (.cons dash ((front _ _ (back _ _ digits)).append (.cons dash
    ((front _ _ (back _ _ digits)).append (.cons dash ((front _ _ (back _ _ digits)).append
      (.cons dash (back _ _ digits))))))))

@[simp] theorem uuidOf_uuidText (other : OtherReaders) (id : RowId) :
    uuidOf other (uuidText id) = some id := by
  unfold uuidOf
  rw [readUuid_uuidText]
  rfl

theorem decodeCursor_encodeCursor (other : OtherReaders) (createdAt : Datetime) (rowId : RowId) :
    decodeCursor other (encodeCursor createdAt rowId) = .ok (createdAt, rowId) := by
  have plain : ∀ text ∈ [createdAt.isoformat, uuidText rowId], Plain text := by
    simp only [List.forall_mem_cons, List.not_mem_nil, false_imp_iff, implies_true, and_true]
    exact ⟨plain_datetime createdAt, plain_uuidText rowId⟩
  have parts := decodeParts_encode other (by simp) plain
  unfold decodeCursor encodeCursor
  rw [show [createdAt.isoformat, uuidText rowId].length = 2 from rfl] at parts
  rw [parts]
  simp [bind, Except.bind, orMalformed]

theorem decodeOrdinalCursor_encodeOrdinalCursor (other : OtherReaders) {value : Int}
    (low : -2 ^ 63 ≤ value) (high : value < 2 ^ 64) :
    decodeOrdinalCursor other (encodeOrdinalCursor value) = .ok value := by
  unfold decodeOrdinalCursor encodeOrdinalCursor
  rw [decode_encode other (dumps_ordinal value).2 (loads_dumps_ordinal other low high)]

theorem decodeChronologicalCursor_encodeChronologicalCursor (other : OtherReaders)
    (occurredDate : Date) (occurredTime : Time) (createdAt : Datetime) (rowId : RowId) :
    decodeChronologicalCursor other
      (encodeChronologicalCursor occurredDate occurredTime createdAt rowId) =
        .ok (occurredDate, occurredTime, createdAt, rowId) := by
  have plain : ∀ text ∈ [occurredDate.isoformat, occurredTime.isoformat, createdAt.isoformat,
      uuidText rowId], Plain text := by
    simp only [List.forall_mem_cons, List.not_mem_nil, false_imp_iff, implies_true, and_true]
    exact ⟨plain_date occurredDate, plain_time occurredTime, plain_datetime createdAt,
      plain_uuidText rowId⟩
  have parts := decodeParts_encode other (by simp) plain
  unfold decodeChronologicalCursor encodeChronologicalCursor
  rw [show [occurredDate.isoformat, occurredTime.isoformat, createdAt.isoformat,
    uuidText rowId].length = 4 from rfl] at parts
  rw [parts]
  simp [bind, Except.bind, orMalformed]

theorem decodeRankedCursor_encodeRankedCursor {Rank : Type} (doubles : Doubles Rank)
    (other : OtherReaders) (rank : Rank) (createdAt : Datetime) (rowId : RowId) :
    decodeRankedCursor doubles other (encodeRankedCursor doubles rank createdAt rowId) =
      .ok (rank, createdAt, rowId) := by
  have plain : ∀ text ∈ [doubles.repr rank, createdAt.isoformat, uuidText rowId],
      Plain text := by
    simp only [List.forall_mem_cons, List.not_mem_nil, false_imp_iff, implies_true, and_true]
    exact ⟨doubles.repr_plain rank, plain_datetime createdAt, plain_uuidText rowId⟩
  have parts := decodeParts_encode other (by simp) plain
  unfold decodeRankedCursor encodeRankedCursor
  rw [show [doubles.repr rank, createdAt.isoformat, uuidText rowId].length = 3 from rfl] at parts
  rw [parts]
  simp [bind, Except.bind, orMalformed, doubles.float_repr]

end Vidit.Pagination
