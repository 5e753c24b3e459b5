import Mathlib.Data.List.Lex
import Vidit.Python.Unicode
import Vidit.Python.Url

/-!
Contract: the query strings of `urllib.parse`.

Owns:
- the UTF-8 decoder with `errors="replace"`;
- `parse_qsl` with blank values kept, and `urlencode`.

Does not own: the other encodings and error handlers.
-/

namespace Vidit.Python

/-! ### UTF-8 with replacement -/

/-- `0xFFFD`, written for bytes that decode to nothing. -/
def replacement : Nat := 0xFFFD

/-- The range of the byte after a first byte, and the bytes after that one. -/
def afterFirst (first : Nat) : Option (Nat × Nat × Nat) :=
  if first ≤ 0xC1 then none
  else if first ≤ 0xDF then some (0x80, 0xBF, 0)
  else if first = 0xE0 then some (0xA0, 0xBF, 1)
  else if first = 0xED then some (0x80, 0x9F, 1)
  else if first ≤ 0xEF then some (0x80, 0xBF, 1)
  else if first = 0xF0 then some (0x90, 0xBF, 2)
  else if first = 0xF4 then some (0x80, 0x8F, 2)
  else if first ≤ 0xF3 then some (0x80, 0xBF, 2)
  else none

/-- The bits a first byte holds. -/
def firstBits (first : Nat) : Nat :=
  if first ≤ 0xDF then first - 0xC0 else if first ≤ 0xEF then first - 0xE0 else first - 0xF0

/-- Where a decoder stands: between characters, or inside one. -/
inductive Utf8State where
  | between
  /-- The bits read, the range of the next byte, and the bytes after it. -/
  | inside (bits low high more : Nat)
deriving DecidableEq, Repr

/-- A byte read between characters. -/
def decodeFirst (byte : Nat) : Utf8State × Str :=
  if byte < 0x80 then (.between, [byte])
  else
    match afterFirst byte with
    | some (low, high, more) => (.inside (firstBits byte) low high more, [])
    | none => (.between, [replacement])

/-- One byte: an unfinished character is replaced, and the byte read again. -/
def decodeByte (state : Utf8State) (byte : Nat) : Utf8State × Str :=
  match state with
  | .between => decodeFirst byte
  | .inside bits low high more =>
    if low ≤ byte ∧ byte ≤ high then
      match more with
      | 0 => (.between, [64 * bits + (byte - 0x80)])
      | rest + 1 => (.inside (64 * bits + (byte - 0x80)) 0x80 0xBF rest, [])
    else ((decodeFirst byte).1, replacement :: (decodeFirst byte).2)

def decodeFrom : Utf8State → List Nat → Str
  | .between, [] => []
  | .inside _ _ _ _, [] => [replacement]
  | state, byte :: rest => (decodeByte state byte).2 ++ decodeFrom (decodeByte state byte).1 rest

/-- `bytes.decode("utf-8", "replace")`. -/
def decodeUtf8Replace (bytes : List Nat) : Str :=
  decodeFrom .between bytes

/-! ### Percent signs -/

def hexValue? (point : Nat) : Option Nat :=
  if isAsciiDigit point then some (point - chr '0')
  else if isHexDigit point then some (asciiLowerPoint point - chr 'a' + 10)
  else none

/-- The byte of a percent sign and two hexadecimal digits. -/
def escaped? (point high low : Nat) : Option Nat := do
  guard (point = chr '%')
  let sixteens ← hexValue? high
  let ones ← hexValue? low
  pure (16 * sixteens + ones)

/-- `unquote_to_bytes` of ASCII text. -/
def unquoteToBytes : Str → List Nat
  | point :: high :: low :: after =>
    match escaped? point high low with
    | some byte => byte :: unquoteToBytes after
    | none => point :: unquoteToBytes (high :: low :: after)
  | short => short

/-- `unquote`: each run of ASCII is decoded on its own. -/
def unquoteRuns (run : Str) : Str → Str
  | [] => decodeUtf8Replace (unquoteToBytes run)
  | point :: rest =>
    if point < 0x80 then unquoteRuns (run ++ [point]) rest
    else decodeUtf8Replace (unquoteToBytes run) ++ point :: unquoteRuns [] rest

def unquote (text : Str) : Str :=
  unquoteRuns [] text

/-- `_ALWAYS_SAFE`. -/
def isAlwaysSafe (byte : Nat) : Bool :=
  isAsciiAlnum byte || byte ∈ [chr '_', chr '.', chr '-', chr '~']

/-- A digit of base 16, above nine in upper case. -/
def upperHexDigit (digit : Nat) : Nat :=
  if digit < 10 then chr '0' + digit else chr 'A' + (digit - 10)

def quoteByte (byte : Nat) : Str :=
  if isAlwaysSafe byte then [byte]
  else if byte = chr ' ' then [chr '+']
  else [chr '%', upperHexDigit (byte / 16), upperHexDigit (byte % 16)]

/-- `quote_plus`: a lone surrogate has no UTF-8 bytes. -/
def quotePlus (text : Str) : Except PyError Str :=
  if text.any isSurrogate then .error .unicodeEncodeError
  else .ok ((encodeUtf8 text).flatMap quoteByte)

/-! ### Queries -/

/-- A plus sign is a space. -/
def plusToSpace (text : Str) : Str :=
  text.map fun point => if point = chr '+' then chr ' ' else point

/-- One `name=value`; without an equals sign the value is blank. -/
def queryPair (part : Str) : Str × Str :=
  let (name, _, value) := partition part (chr '=')
  (unquote (plusToSpace name), unquote (plusToSpace value))

/-- `parse_qsl(query, keep_blank_values=True)`. -/
def parseQsl (query : Str) : List (Str × Str) :=
  ((split query (chr '&')).filter (· ≠ [])).map queryPair

/-- `urlencode` of pairs. -/
def urlencode (pairs : List (Str × Str)) : Except PyError Str := do
  let parts ← pairs.mapM fun pair => do
    let name ← quotePlus pair.1
    let value ← quotePlus pair.2
    pure (name ++ [chr '='] ++ value)
  pure (join [chr '&'] parts)

/-- The order of pairs of strings. -/
def pairLe (left right : Str × Str) : Bool :=
  left.1 < right.1 || left.1 = right.1 && left.2 ≤ right.2

example : decodeUtf8Replace [0x61, 0xE2, 0x82, 0xAC, 0xE2, 0x82, 0x62] =
    [0x61, 0x20AC, replacement, 0x62] := by decide

end Vidit.Python
