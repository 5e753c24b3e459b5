import Vidit.Ingest.Links
import Vidit.Points.Numerals
import Vidit.Python.Regex

/-!
Contract: the coordinates a post is read for.

Owns:
- the five coordinate forms, and the pattern of each (`_COORD_RES`);
- what a match of a form is read as;
- `scan_coords`, with its bounds and its six-decimal keys.

Python's floats (`Doubles`) are a parameter, compared as `==` compares them: no
reading is `NaN`, and the two zeros are one.

Does not own: expanding the links of a post, and the title's rule.
-/

namespace Vidit.Ingest

open Vidit.Python

/-! ### Patterns -/

def literal (point : Nat) : Regex :=
  .one fun found => found = point

/-- A text of lower-case letters, without case. -/
def folded (text : String) : List Regex :=
  (str text).map fun letter => .one (foldsTo letter)

/-- `_HWS`. -/
def isHorizontal (point : Nat) : Bool :=
  isSpace point && point ≠ chr '\r' && point ≠ chr '\n'

def isNorthSouth (point : Nat) : Bool :=
  foldsTo (chr 'n') point || foldsTo (chr 's') point

def isEastWest (point : Nat) : Bool :=
  foldsTo (chr 'e') point || foldsTo (chr 'w') point

/-- `\s*`. -/
def spaces : Regex :=
  .run isSpace 0 none true

def degreeSign : Nat := 0xB0

/-- `\d{low,high}`. -/
def digits (low : Nat) (high : Option Nat) : Regex :=
  .run isDecimal low high true

/-- `\d{1,high}\.\d{low,}`. -/
def decimals (high : Option Nat) (low : Nat) : Regex :=
  .chain [digits 1 high, literal (chr '.'), digits low none]

/-- `[-+]?\d{1,3}\.\d{3,}`. -/
def signedDecimals : Regex :=
  .chain [.optional (.one fun point => point = chr '-' || point = chr '+'), decimals (some 3) 3]

/-- `_DECIMAL_PAIR_RE`. -/
def decimalPairRe : Regex :=
  .chain [.notBehind fun point => isDecimal point || point = chr '.',
    .group 1 signedDecimals, .optional (literal degreeSign),
    .run (fun point => isHorizontal point || point = chr ',') 1 none true,
    .group 2 signedDecimals, .optional (literal degreeSign),
    .notAhead (.one isDecimal), .notAhead (.chain [literal (chr '.'), .one isDecimal])]

section Patterns

variable (unicode : Unicode)

/-- `[\w.]`. -/
def isWordOrDot (point : Nat) : Bool :=
  isWord unicode point || point = chr '.'

/-- `(?:_HWS|[,/])+`. -/
def hemiSeparator : Regex :=
  .run (fun point => isHorizontal point || point = chr ',' || point = chr '/') 1 none true

/-- `_DECIMAL_HEMI_SUFFIX_RE`. -/
def decimalHemiSuffixRe : Regex :=
  .chain [.notBehind (isWordOrDot unicode),
    .group 1 (decimals (some 3) 1), spaces, .optional (literal degreeSign), spaces,
    .group 2 (.one isNorthSouth), hemiSeparator,
    .group 3 (decimals (some 3) 1), spaces, .optional (literal degreeSign), spaces,
    .group 4 (.one isEastWest), .notAhead (.one (isWordOrDot unicode))]

/-- `_DECIMAL_HEMI_PREFIX_RE`. -/
def decimalHemiPrefixRe : Regex :=
  .chain [.notBehind (isWordOrDot unicode),
    .group 1 (.one isNorthSouth), spaces, .group 2 (decimals (some 3) 1), spaces,
    .optional (literal degreeSign), hemiSeparator,
    .group 3 (.one isEastWest), spaces, .group 4 (decimals (some 3) 1), spaces,
    .optional (literal degreeSign), .notAhead (.one (isWordOrDot unicode))]

end Patterns

/-- An apostrophe, the closing quote or the prime. -/
def isMinuteMark (point : Nat) : Bool :=
  point = 0x27 || point = 0x2019 || point = 0x2032

/-- A quotation mark, the closing one or the double prime. -/
def isSecondMark (point : Nat) : Bool :=
  point = 0x22 || point = 0x201D || point = 0x2033

/-- `\d{1,2}(?:\.\d+)?`. -/
def secondsRe : Regex :=
  .chain [digits 1 (some 2), .optional (.chain [literal (chr '.'), digits 1 none])]

/-- One half of `_DMS_RE`, from its first group. -/
def dmsHalf (first : Nat) (isHemisphere : Nat → Bool) : Regex :=
  .chain [.group first (digits 1 (some 3)), literal degreeSign, spaces,
    .group (first + 1) (digits 1 (some 2)), .one isMinuteMark, spaces,
    .optional (.group (first + 2) secondsRe), .optional (.one isSecondMark), spaces,
    .group (first + 3) (.one isHemisphere)]

/-- `_DMS_RE`. -/
def dmsRe : Regex :=
  .chain [dmsHalf 1 isNorthSouth,
    .run (fun point => isHorizontal point || point = chr ',') 0 none true,
    dmsHalf 5 isEastWest]

/-- `-?\d+\.\d+`. -/
def mapsDecimals : Regex :=
  .chain [.optional (literal (chr '-')), decimals none 1]

/-- `_GMAPS_RE`. -/
def gmapsRe : Regex :=
  .chain (folded "google" ++
    [literal (chr '.'), .run (fun point => point ≠ chr '/' && !isSpace point) 1 none true,
      literal (chr '/')] ++
    folded "maps" ++
    [.run (fun point => !isSpace point) 0 none false, literal (chr '@'),
      .group 1 mapsDecimals, literal (chr ','), .group 2 mapsDecimals,
      .optional (.chain [literal (chr ','), digits 1 none,
        .optional (.chain [literal (chr '.'), digits 1 none]),
        .optional (.one (foldsTo (chr 'z')))])])

/-- The coordinate forms. -/
inductive CoordForm where
  | decimalPair
  | hemiSuffix
  | hemiPrefix
  | dms
  | maps
deriving DecidableEq, Repr

def CoordForm.regex (unicode : Unicode) : CoordForm → Regex
  | .decimalPair => decimalPairRe
  | .hemiSuffix => decimalHemiSuffixRe unicode
  | .hemiPrefix => decimalHemiPrefixRe unicode
  | .dms => dmsRe
  | .maps => gmapsRe

/-- `_COORD_RES`. -/
def coordRes : List CoordForm :=
  [.decimalPair, .hemiSuffix, .hemiPrefix, .dms, .maps]

/-! ### Readings -/

/-- Python's floats. -/
structure Doubles (Double : Type) where
  /-- The double nearest to a number, or an infinity. -/
  ofNumber : Points.Number → Double
  add : Double → Double → Double
  div : Double → Double → Double
  neg : Double → Double
  le : Double → Double → Bool
  /-- `round(value, 6)`. -/
  round6 : Double → Double

/-- A literal of the source. -/
def Doubles.of {Double : Type} (doubles : Doubles Double) (value : Rat) : Double :=
  doubles.ofNumber (.finite value)

/-- `ParsedCoord`. -/
structure ParsedCoord (Double : Type) where
  lat : Double
  lng : Double
deriving DecidableEq, Repr

/-- `int(text)`, of digits. -/
def readInt (text : Str) : Except PyError Nat :=
  match intOfDigits text with
  | some number => .ok number
  | none => .error .valueError

/-- `hemi.upper()`, of a letter of a hemisphere. -/
def upperHemi (hemi : Str) : Str :=
  hemi.map fun point =>
    if point = 0x17F then chr 'S' else if isAsciiLower point then point - 32 else point

/-- `hemi.upper() in ("S", "W")`. -/
def isSouthOrWest (hemi : Str) : Bool :=
  upperHemi hemi = str "S" || upperHemi hemi = str "W"

section Readings

variable {Double : Type} (doubles : Doubles Double)

/-- `float(text)`. -/
def readFloat (text : Str) : Except PyError Double :=
  match Points.float text with
  | some number => .ok (doubles.ofNumber number)
  | none => .error .valueError

/-- A value under the sign of its hemisphere. -/
def signedBy (hemi : Str) (value : Double) : Double :=
  if isSouthOrWest hemi then doubles.neg value else value

/-- `_dms_to_decimal`. -/
def dmsToDecimal (deg mnt : Str) (sec : Option Str) (hemi : Str) : Except PyError Double := do
  let d ← readInt deg
  let m ← readInt mnt
  let s ← match sec with
    | some sec => if sec = [] then pure (doubles.of 0) else readFloat doubles sec
    | none => pure (doubles.of 0)
  let decimal := doubles.add
    (doubles.add (doubles.of d) (doubles.div (doubles.of m) (doubles.of 60)))
    (doubles.div s (doubles.of 3600))
  pure (signedBy doubles hemi decimal)

/-- `_hemi_decimal`. -/
def hemiDecimal (value hemi : Str) : Except PyError Double := do
  let decimal ← readFloat doubles value
  pure (signedBy doubles hemi decimal)

/-- What a match is read as; a group that every match sets is read as its text. -/
def readMatch (text : Str) (form : CoordForm) (found : Match) :
    Except PyError (ParsedCoord Double) :=
  let group (number : Nat) := (found.group text number).getD []
  match form with
  | .decimalPair => do
    let lat ← readFloat doubles (group 1)
    let lng ← readFloat doubles (group 2)
    pure ⟨lat, lng⟩
  | .hemiSuffix => do
    let lat ← hemiDecimal doubles (group 1) (group 2)
    let lng ← hemiDecimal doubles (group 3) (group 4)
    pure ⟨lat, lng⟩
  | .hemiPrefix => do
    let lat ← hemiDecimal doubles (group 2) (group 1)
    let lng ← hemiDecimal doubles (group 4) (group 3)
    pure ⟨lat, lng⟩
  | .dms => do
    let lat ← dmsToDecimal doubles (group 1) (group 2) (found.group text 3) (group 4)
    let lng ← dmsToDecimal doubles (group 5) (group 6) (found.group text 7) (group 8)
    pure ⟨lat, lng⟩
  | .maps => do
    let lat ← readFloat doubles (group 1)
    let lng ← readFloat doubles (group 2)
    pure ⟨lat, lng⟩

/-- The loops over these forms go on after a `ValueError`. -/
def CoordForm.catches : CoordForm → Bool
  | .decimalPair => true
  | .hemiSuffix => false
  | .hemiPrefix => false
  | .dms => true
  | .maps => true

/-! ### The scan -/

/-- `_coord_in_bounds`. -/
def coordInBounds (coord : ParsedCoord Double) : Bool :=
  doubles.le (doubles.of (-90)) coord.lat && doubles.le coord.lat (doubles.of 90) &&
    doubles.le (doubles.of (-180)) coord.lng && doubles.le coord.lng (doubles.of 180)

/-- The key of a coordinate, at six decimals. -/
def coordKey (coord : ParsedCoord Double) : Double × Double :=
  (doubles.round6 coord.lat, doubles.round6 coord.lng)

/-- The locals of `scan_coords`. -/
structure ScanState (Double : Type) where
  coords : List (ParsedCoord Double)
  seen : List (Double × Double)
  outOfBounds : Bool

/-- `CoordScan`. -/
structure CoordScan (Double : Type) where
  coords : List (ParsedCoord Double)
  outOfBounds : Bool
deriving DecidableEq, Repr

variable [DecidableEq Double]

/-- `_push`. -/
def push (state : ScanState Double) (coord : ParsedCoord Double) : ScanState Double :=
  if !coordInBounds doubles coord then { state with outOfBounds := true }
  else if coordKey doubles coord ∈ state.seen then state
  else
    { state with
      seen := coordKey doubles coord :: state.seen
      coords := state.coords ++ [coord] }

/-- The body of the loop over the matches of a form. -/
def scanMatch (text : Str) (form : CoordForm) (state : ScanState Double) (found : Match) :
    Except PyError (ScanState Double) :=
  match readMatch doubles text form found with
  | .ok coord => .ok (push doubles state coord)
  | .error error => if form.catches then .ok state else .error error

/-- `scan_coords`. -/
def scanCoords (unicode : Unicode) (text : Str) : Except PyError (CoordScan Double) := do
  let state ← coordRes.foldlM
    (fun state form => (finditer text (form.regex unicode)).foldlM (scanMatch doubles text form)
      state)
    { coords := [], seen := [], outOfBounds := false }
  pure { coords := state.coords, outOfBounds := state.outOfBounds }

end Readings

end Vidit.Ingest
