import Vidit.Python.Str

/-!
Contract: the Unicode facts Python's `str` methods read.

Owns:
- the character classes that a short table fixes (`isspace`, `isdigit`,
  `isdecimal`, the control and format categories);
- `int()` of a digit string;
- `Unicode`, what is read of the long tables: case mapping, alphanumerics and
  compatibility normalisation.
-/

namespace Vidit.Python

def inRanges (ranges : List (Nat × Nat)) (point : Nat) : Bool :=
  ranges.any fun range => range.1 ≤ point && point ≤ range.2

/-- What `str.isspace` holds of, and `str.strip` removes. -/
def spaceRanges : List (Nat × Nat) :=
  [(0x9, 0xD), (0x1C, 0x20), (0x85, 0x85), (0xA0, 0xA0), (0x1680, 0x1680), (0x2000, 0x200A),
    (0x2028, 0x2029), (0x202F, 0x202F), (0x205F, 0x205F), (0x3000, 0x3000)]

/-- The digit zero of each script; its nine successors are the other decimal digits. -/
def decimalZeros : List Nat :=
  [0x30, 0x660, 0x6F0, 0x7C0, 0x966, 0x9E6, 0xA66, 0xAE6, 0xB66, 0xBE6, 0xC66, 0xCE6, 0xD66,
    0xDE6, 0xE50, 0xED0, 0xF20, 0x1040, 0x1090, 0x17E0, 0x1810, 0x1946, 0x19D0, 0x1A80, 0x1A90,
    0x1B50, 0x1BB0, 0x1C40, 0x1C50, 0xA620, 0xA8D0, 0xA900, 0xA9D0, 0xA9F0, 0xAA50, 0xABF0,
    0xFF10, 0x104A0, 0x10D30, 0x11066, 0x110F0, 0x11136, 0x111D0, 0x112F0, 0x11450, 0x114D0,
    0x11650, 0x116C0, 0x11730, 0x118E0, 0x11950, 0x11C50, 0x11D50, 0x11DA0, 0x11F50, 0x16A60,
    0x16AC0, 0x16B50, 0x1D7CE, 0x1D7D8, 0x1D7E2, 0x1D7EC, 0x1D7F6, 0x1E140, 0x1E2F0, 0x1E4F0,
    0x1E950, 0x1FBF0]

/-- What `str.isdigit` holds of beyond the decimal digits. -/
def otherDigitRanges : List (Nat × Nat) :=
  [(0xB2, 0xB3), (0xB9, 0xB9), (0x1369, 0x1371), (0x19DA, 0x19DA), (0x2070, 0x2070),
    (0x2074, 0x2079), (0x2080, 0x2089), (0x2460, 0x2468), (0x2474, 0x247C), (0x2488, 0x2490),
    (0x24EA, 0x24EA), (0x24F5, 0x24FD), (0x24FF, 0x24FF), (0x2776, 0x277E), (0x2780, 0x2788),
    (0x278A, 0x2792), (0x10A40, 0x10A43), (0x10E60, 0x10E68), (0x11052, 0x1105A),
    (0x1F100, 0x1F10A)]

/-- The general categories `Cc` and `Cf`. -/
def controlOrFormatRanges : List (Nat × Nat) :=
  [(0x0, 0x1F), (0x7F, 0x9F), (0xAD, 0xAD), (0x600, 0x605), (0x61C, 0x61C), (0x6DD, 0x6DD),
    (0x70F, 0x70F), (0x890, 0x891), (0x8E2, 0x8E2), (0x180E, 0x180E), (0x200B, 0x200F),
    (0x202A, 0x202E), (0x2060, 0x2064), (0x2066, 0x206F), (0xFEFF, 0xFEFF), (0xFFF9, 0xFFFB),
    (0x110BD, 0x110BD), (0x110CD, 0x110CD), (0x13430, 0x1343F), (0x1BCA0, 0x1BCA3),
    (0x1D173, 0x1D17A), (0xE0001, 0xE0001), (0xE0020, 0xE007F)]

def isSpace (point : Nat) : Bool :=
  inRanges spaceRanges point

def isControlOrFormat (point : Nat) : Bool :=
  inRanges controlOrFormatRanges point

/-- `text.strip()`. -/
def strip (text : Str) : Str :=
  stripBy isSpace text

def isLineBreak (point : Nat) : Bool :=
  inRanges [(0xA, 0xD), (0x1C, 0x1E), (0x85, 0x85), (0x2028, 0x2029)] point

def splitlinesFrom (line : Str) : Str → List Str
  | [] => if line = [] then [] else [line]
  | point :: rest =>
    if point = 0xD ∧ rest.head? = some 0xA then splitlinesFrom (line ++ [point]) rest
    else if point = 0xA ∧ line.getLast? = some 0xD then
      line.dropLast :: splitlinesFrom [] rest
    else if isLineBreak point then line :: splitlinesFrom [] rest
    else splitlinesFrom (line ++ [point]) rest

/-- `text.splitlines()`: a carriage return and the line feed after it are one break. -/
def splitlines (text : Str) : List Str :=
  splitlinesFrom [] text

def splitSpacesFrom (word : Str) : Str → List Str
  | [] => if word = [] then [] else [word]
  | point :: rest =>
    if isSpace point then
      if word = [] then splitSpacesFrom [] rest else word :: splitSpacesFrom [] rest
    else splitSpacesFrom (word ++ [point]) rest

/-- `text.split()`. -/
def splitSpaces (text : Str) : List Str :=
  splitSpacesFrom [] text

/-- The value of a decimal digit of any script. -/
def decimalValue? (point : Nat) : Option Nat :=
  (decimalZeros.find? fun first => first ≤ point && point ≤ first + 9).map (point - ·)

def isDigitPoint (point : Nat) : Bool :=
  (decimalValue? point).isSome || inRanges otherDigitRanges point

/-- `text.isdigit()`. -/
def isDigit (text : Str) : Bool :=
  text ≠ [] && text.all isDigitPoint

/-- The number of digits past which `int()` raises (`sys.int_info.default_max_str_digits`). -/
def intMaxStrDigits : Nat := 4300

/-- `int(text)` of a string of digits only: `none` is a `ValueError`. -/
def intOfDigits (text : Str) : Option Nat :=
  if text = [] ∨ intMaxStrDigits < text.length then none
  else
    (text.mapM decimalValue?).map fun digits =>
      digits.foldl (fun value digit => 10 * value + digit) 0

/-- The parts of the Unicode database read as a whole. -/
structure Unicode where
  /-- `str.lower`. -/
  lower : Str → Str
  /-- `unicodedata.normalize("NFKC", ·)`. -/
  nfkc : Str → Str
  /-- `str.isalnum` of one character. -/
  isAlnum : Nat → Bool
  lower_ascii : ∀ text, isAscii text = true → lower text = asciiLower text
  isAlnum_ascii : ∀ point, point < 0x80 → isAlnum point = isAsciiAlnum point

/-- ASCII, with every other character left as it is. -/
def Unicode.ascii : Unicode where
  lower := asciiLower
  nfkc := id
  isAlnum := isAsciiAlnum
  lower_ascii := fun _ _ => rfl
  isAlnum_ascii := fun _ _ => rfl

end Vidit.Python
