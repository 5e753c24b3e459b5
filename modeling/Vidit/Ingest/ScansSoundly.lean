import Vidit.Ingest.Coordinates

/-!
Contract: what `scan_coords` returns for a text.

Owns:
- that every match is read (`readMatch_ok`), so that the scan returns;
- `ScansSoundly`: bounds, keys, the readings in degrees, minutes and seconds, the
  flag, and the places of the matches of one form;
- that matches of two forms can overlap.

Proof shape: a required group of a match holds a text of its body, and such a text
is a numeral. So the scan pushes one coordinate for each match, and `Scanned` is
kept by a push.
-/

namespace Vidit.Ingest

open Vidit.Python

/-! ### Numerals -/

theorem decimals_of_accepts_digits {low : Nat} {high : Option Nat} {text : Str}
    (accepted : (digits low high).Accepts text) :
    Points.Decimals text ∧ low ≤ text.length ∧
      ∀ bound, high = some bound → text.length ≤ bound :=
  accepted

theorem ne_nil_of_accepts_digits {low : Nat} {high : Option Nat} {text : Str} (some : 0 < low)
    (accepted : (digits low high).Accepts text) : text ≠ [] := by
  intro empty
  have long := (decimals_of_accepts_digits accepted).2.1
  rw [empty, List.length_nil] at long
  omega

/-- `float` reads digits, with a sign or without, and with decimals or without. -/
theorem isSome_float_of_parts {sign whole fraction : Str}
    (signIs : sign = [] ∨ sign = [chr '-'] ∨ sign = [chr '+']) (nonempty : whole ≠ [])
    (wholeDecimals : Points.Decimals whole)
    (fractionIs : fraction = [] ∨
      ∃ rest, rest ≠ [] ∧ Points.Decimals rest ∧ fraction = chr '.' :: rest) :
    (Points.float (sign ++ (whole ++ fraction))).isSome = true := by
  apply Points.isSome_float signIs
  · intro point member
    cases List.mem_append.mp member with
    | inl inWhole => exact .inl (wholeDecimals point inWhole)
    | inr inFraction =>
        obtain rfl | ⟨rest, _, restDecimals, rfl⟩ := fractionIs
        · cases inFraction
        · cases List.mem_cons.mp inFraction with
          | inl dot => exact .inr dot
          | inr inRest => exact .inl (restDecimals point inRest)
  · intro point first
    cases whole with
    | nil => exact absurd rfl nonempty
    | cons head tail =>
        cases first
        exact wholeDecimals _ List.mem_cons_self
  · obtain rfl | ⟨rest, restNonempty, restDecimals, rfl⟩ := fractionIs
    · rw [List.append_nil]
      exact Points.isSome_mantissa_whole nonempty wholeDecimals
    · exact Points.isSome_mantissa_point nonempty wholeDecimals restNonempty restDecimals

/-- `float` reads a sign and a text of `decimals`. -/
theorem isSome_float_of_decimals {high : Option Nat} {low : Nat} {sign text : Str}
    (signIs : sign = [] ∨ sign = [chr '-'] ∨ sign = [chr '+']) (some : 0 < low)
    (accepted : (decimals high low).Accepts text) :
    (Points.float (sign ++ text)).isSome = true := by
  obtain ⟨whole, _, inWhole, ⟨_, _, ⟨point, isPoint, rfl⟩, ⟨rest, _, inRest, rfl, rfl⟩, rfl⟩,
    rfl⟩ := accepted
  have dot : point = chr '.' := of_decide_eq_true isPoint
  apply isSome_float_of_parts signIs (ne_nil_of_accepts_digits (by omega) inWhole)
    (decimals_of_accepts_digits inWhole).1
  refine .inr ⟨rest, ne_nil_of_accepts_digits some inRest, (decimals_of_accepts_digits inRest).1, ?_⟩
  rw [dot, List.append_nil]
  rfl

theorem isSome_float_signedDecimals {text : Str} (accepted : signedDecimals.Accepts text) :
    (Points.float text).isSome = true := by
  obtain ⟨sign, _, inSign, ⟨text, _, inText, rfl, rfl⟩, rfl⟩ := accepted
  have signIs : sign = [] ∨ sign = [chr '-'] ∨ sign = [chr '+'] := by
    cases inSign with
    | inl none => exact .inl none
    | inr one =>
        obtain ⟨point, isSign, rfl⟩ := one
        rw [Bool.or_eq_true, decide_eq_true_eq, decide_eq_true_eq] at isSign
        obtain rfl | rfl := isSign
        · exact .inr (.inl rfl)
        · exact .inr (.inr rfl)
  rw [List.append_nil]
  exact isSome_float_of_decimals signIs (by omega) inText

theorem isSome_float_mapsDecimals {text : Str} (accepted : mapsDecimals.Accepts text) :
    (Points.float text).isSome = true := by
  obtain ⟨sign, _, inSign, ⟨text, _, inText, rfl, rfl⟩, rfl⟩ := accepted
  have signIs : sign = [] ∨ sign = [chr '-'] ∨ sign = [chr '+'] := by
    cases inSign with
    | inl none => exact .inl none
    | inr one =>
        obtain ⟨point, isSign, rfl⟩ := one
        rw [of_decide_eq_true isSign]
        exact .inr (.inl rfl)
  rw [List.append_nil]
  exact isSome_float_of_decimals signIs (by omega) inText

theorem isSome_float_plainDecimals {text : Str} (accepted : (decimals (some 3) 1).Accepts text) :
    (Points.float text).isSome = true :=
  isSome_float_of_decimals (.inl rfl) (by omega) accepted

/-- `float` reads seconds, with or without decimals. -/
theorem isSome_float_seconds {text : Str} (accepted : secondsRe.Accepts text) :
    (Points.float text).isSome = true := by
  obtain ⟨whole, _, inWhole, ⟨fraction, _, inFraction, rfl, rfl⟩, rfl⟩ := accepted
  rw [List.append_nil]
  show (Points.float ([] ++ (whole ++ fraction))).isSome = true
  apply isSome_float_of_parts (.inl rfl) (ne_nil_of_accepts_digits (by omega) inWhole)
    (decimals_of_accepts_digits inWhole).1
  cases inFraction with
  | inl none => exact .inl none
  | inr inPoint =>
      obtain ⟨_, _, ⟨point, isPoint, rfl⟩, ⟨rest, _, inRest, rfl, rfl⟩, rfl⟩ := inPoint
      have dot : point = chr '.' := of_decide_eq_true isPoint
      refine .inr ⟨rest, ne_nil_of_accepts_digits (by omega) inRest,
        (decimals_of_accepts_digits inRest).1, ?_⟩
      rw [dot, List.append_nil]
      rfl

/-- `int` reads at most three digits. -/
theorem isSome_intOfDigits {low high : Nat} {text : Str} (some : 0 < low) (short : high ≤ 4300)
    (accepted : (digits low (.some high)).Accepts text) : (intOfDigits text).isSome = true := by
  obtain ⟨decimals, long, bounded⟩ := decimals_of_accepts_digits accepted
  have atMost := bounded high rfl
  have readable : ¬(text = [] ∨ intMaxStrDigits < text.length) := by
    intro unreadable
    cases unreadable with
    | inl empty =>
        rw [empty, List.length_nil] at long
        omega
    | inr tooLong =>
        unfold intMaxStrDigits at tooLong
        omega
  have values : ∀ digits : Str, Points.Decimals digits →
      (digits.mapM decimalValue?).isSome = true := by
    intro digits each
    induction digits with
    | nil => rfl
    | cons point rest inductionHypothesis =>
        obtain ⟨value, here⟩ := Option.isSome_iff_exists.mp (each point List.mem_cons_self)
        obtain ⟨others, later⟩ := Option.isSome_iff_exists.mp
          (inductionHypothesis fun point member => each point (List.mem_cons_of_mem _ member))
        rw [List.mapM_cons, here, later]
        rfl
  unfold intOfDigits
  rw [if_neg readable, Option.isSome_map]
  exact values text decimals

/-! ### Matches are read -/

section Readings

variable {Double : Type} (doubles : Doubles Double)

theorem readFloat_ok {text : Str} (numeral : (Points.float text).isSome = true) :
    ∃ value, readFloat doubles text = .ok value := by
  obtain ⟨number, read⟩ := Option.isSome_iff_exists.mp numeral
  unfold readFloat
  rw [read]
  exact ⟨_, rfl⟩

theorem readInt_ok {text : Str} (numeral : (intOfDigits text).isSome = true) :
    ∃ value, readInt text = .ok value := by
  obtain ⟨number, read⟩ := Option.isSome_iff_exists.mp numeral
  unfold readInt
  rw [read]
  exact ⟨_, rfl⟩

theorem hemiDecimal_ok {text : Str} (hemi : Str) (numeral : (Points.float text).isSome = true) :
    ∃ value, hemiDecimal doubles text hemi = .ok value := by
  obtain ⟨value, read⟩ := readFloat_ok doubles numeral
  unfold hemiDecimal
  rw [read]
  exact ⟨_, rfl⟩

/-- The value of degrees, minutes and seconds. -/
def sexagesimal (degrees minutes : Nat) (seconds : Double) : Double :=
  doubles.add
    (doubles.add (doubles.of degrees) (doubles.div (doubles.of minutes) (doubles.of 60)))
    (doubles.div seconds (doubles.of 3600))

/-- Half of a match, from its first group on, is read as its degrees, minutes and seconds, below
zero where its letter is the one of the `negative` hemisphere. -/
def ReadsHalf (text : Str) (found : Match) (first negative : Nat) (value : Double) : Prop :=
  ∃ deg mnt letter degrees minutes seconds,
    found.group text first = some deg ∧ readInt deg = .ok degrees ∧
      found.group text (first + 1) = some mnt ∧ readInt mnt = .ok minutes ∧
      (found.group text (first + 2) = none ∧ seconds = doubles.of 0 ∨
        ∃ sec, found.group text (first + 2) = some sec ∧ readFloat doubles sec = .ok seconds) ∧
      found.group text (first + 3) = some [letter] ∧
      value = if foldsTo negative letter then
          doubles.neg (sexagesimal doubles degrees minutes seconds)
        else sexagesimal doubles degrees minutes seconds

end Readings

/-! ### Hemispheres -/

/-- What a letter of a pattern matches, beside the two letters with other spellings. -/
theorem cases_of_foldsTo {letter point : Nat} (folds : foldsTo letter point = true)
    (notI : letter ≠ 105) (notK : letter ≠ 107) :
    point = letter ∨ point + 32 = letter ∨ letter = 115 ∧ point = 0x17F := by
  have lower : asciiLowerPoint point = letter → point = letter ∨ point + 32 = letter := by
    unfold asciiLowerPoint
    intro same
    split at same
    · exact .inr same
    · exact .inl same
  have i : chr 'i' = 105 := rfl
  have k : chr 'k' = 107 := rfl
  have s : chr 's' = 115 := rfl
  simp only [foldsTo, i, k, s, notI, notK, Bool.or_eq_true, Bool.and_eq_true, decide_eq_true_eq,
    false_and, or_false] at folds
  cases folds with
  | inl same => exact (lower same).imp_right .inl
  | inr long => exact .inr (.inr long)

theorem isSouthOrWest_of_isNorthSouth {letter : Nat} (member : isNorthSouth letter = true) :
    isSouthOrWest [letter] = foldsTo (chr 's') letter := by
  have letters : letter = 110 ∨ letter = 78 ∨ letter = 115 ∨ letter = 83 ∨ letter = 0x17F := by
    cases Bool.or_eq_true_iff.mp member with
    | inl north =>
        have which := cases_of_foldsTo north (by decide) (by decide)
        have code : chr 'n' = 110 := rfl
        omega
    | inr south =>
        have which := cases_of_foldsTo south (by decide) (by decide)
        have code : chr 's' = 115 := rfl
        omega
  obtain rfl | rfl | rfl | rfl | rfl := letters <;> decide

theorem isSouthOrWest_of_isEastWest {letter : Nat} (member : isEastWest letter = true) :
    isSouthOrWest [letter] = foldsTo (chr 'w') letter := by
  have letters : letter = 101 ∨ letter = 69 ∨ letter = 119 ∨ letter = 87 := by
    cases Bool.or_eq_true_iff.mp member with
    | inl east =>
        have which := cases_of_foldsTo east (by decide) (by decide)
        have code : chr 'e' = 101 := rfl
        omega
    | inr west =>
        have which := cases_of_foldsTo west (by decide) (by decide)
        have code : chr 'w' = 119 := rfl
        omega
  obtain rfl | rfl | rfl | rfl := letters <;> decide

/-! ### Groups -/

theorem decimalPairRe_bodies :
    decimalPairRe.bodies = [(1, signedDecimals), (2, signedDecimals)] := rfl

theorem decimalHemiSuffixRe_bodies (unicode : Unicode) :
    (decimalHemiSuffixRe unicode).bodies =
      [(1, decimals (some 3) 1), (2, .one isNorthSouth), (3, decimals (some 3) 1),
        (4, .one isEastWest)] := rfl

theorem decimalHemiSuffixRe_required (unicode : Unicode) :
    (decimalHemiSuffixRe unicode).required = [1, 2, 3, 4] := rfl

theorem decimalHemiPrefixRe_bodies (unicode : Unicode) :
    (decimalHemiPrefixRe unicode).bodies =
      [(1, .one isNorthSouth), (2, decimals (some 3) 1), (3, .one isEastWest),
        (4, decimals (some 3) 1)] := rfl

theorem decimalHemiPrefixRe_required (unicode : Unicode) :
    (decimalHemiPrefixRe unicode).required = [1, 2, 3, 4] := rfl

theorem dmsRe_bodies :
    dmsRe.bodies =
      [(1, digits 1 (some 3)), (2, digits 1 (some 2)), (3, secondsRe), (4, .one isNorthSouth),
        (5, digits 1 (some 3)), (6, digits 1 (some 2)), (7, secondsRe), (8, .one isEastWest)] :=
  rfl

theorem gmapsRe_bodies :
    gmapsRe.bodies = [(1, mapsDecimals), (2, mapsDecimals)] := rfl

section Forms

variable {unicode : Unicode} {text : Str} {found : Match}

/-- A required group of one body holds a text of it. -/
theorem group_of_body {regex : Regex} (member : found ∈ finditer text regex) (number : Nat)
    (body : Regex) (required : number ∈ regex.required)
    (only : ∀ other, (number, other) ∈ regex.bodies → other = body) :
    ∃ value, found.group text number = some value ∧ body.Accepts value := by
  obtain ⟨value, other, set, listed, accepted⟩ := group_of_required member required
  rw [only other listed] at accepted
  exact ⟨value, set, accepted⟩

theorem shortest_regex (unicode : Unicode) (form : CoordForm) :
    (form.regex unicode).shortest =
      match form with
      | .decimalPair => 11
      | .hemiSuffix => 9
      | .hemiPrefix => 9
      | .dms => 10
      | .maps => 21 := by
  cases form <;> rfl

/-- No form matches the empty text. -/
theorem start_lt_stop {form : CoordForm} (member : found ∈ finditer text (form.regex unicode)) :
    found.span.start < found.span.stop := by
  have some : 0 < (form.regex unicode).shortest := by
    rw [shortest_regex]
    cases form <;> decide
  have long : found.span.start + (form.regex unicode).shortest ≤ found.span.stop :=
    (matches_of_mem_finditer member).shortest_le
  omega

variable {Double : Type} (doubles : Doubles Double)

theorem decimalPair_reads (member : found ∈ finditer text decimalPairRe) :
    ∃ coord, readMatch doubles text .decimalPair found = .ok coord := by
  obtain ⟨latText, atLat, isLat⟩ := group_of_body member 1 signedDecimals
    (by decide) (by simp [decimalPairRe_bodies])
  obtain ⟨lngText, atLng, isLng⟩ := group_of_body member 2 signedDecimals
    (by decide) (by simp [decimalPairRe_bodies])
  obtain ⟨lat, readLat⟩ := readFloat_ok doubles (isSome_float_signedDecimals isLat)
  obtain ⟨lng, readLng⟩ := readFloat_ok doubles (isSome_float_signedDecimals isLng)
  refine ⟨⟨lat, lng⟩, ?_⟩
  simp only [readMatch, atLat, atLng, Option.getD_some, readLat, readLng]
  rfl

theorem maps_reads (member : found ∈ finditer text gmapsRe) :
    ∃ coord, readMatch doubles text .maps found = .ok coord := by
  obtain ⟨latText, atLat, isLat⟩ := group_of_body member 1 mapsDecimals
    (by decide) (by simp [gmapsRe_bodies])
  obtain ⟨lngText, atLng, isLng⟩ := group_of_body member 2 mapsDecimals
    (by decide) (by simp [gmapsRe_bodies])
  obtain ⟨lat, readLat⟩ := readFloat_ok doubles (isSome_float_mapsDecimals isLat)
  obtain ⟨lng, readLng⟩ := readFloat_ok doubles (isSome_float_mapsDecimals isLng)
  refine ⟨⟨lat, lng⟩, ?_⟩
  simp only [readMatch, atLat, atLng, Option.getD_some, readLat, readLng]
  rfl

theorem hemiSuffix_reads (member : found ∈ finditer text (decimalHemiSuffixRe unicode)) :
    ∃ coord, readMatch doubles text .hemiSuffix found = .ok coord := by
  obtain ⟨latText, atLat, isLat⟩ := group_of_body member 1 (decimals (some 3) 1)
    (by simp [decimalHemiSuffixRe_required]) (by simp [decimalHemiSuffixRe_bodies])
  obtain ⟨lngText, atLng, isLng⟩ := group_of_body member 3 (decimals (some 3) 1)
    (by simp [decimalHemiSuffixRe_required]) (by simp [decimalHemiSuffixRe_bodies])
  obtain ⟨lat, readLat⟩ := hemiDecimal_ok doubles ((found.group text 2).getD [])
    (isSome_float_plainDecimals isLat)
  obtain ⟨lng, readLng⟩ := hemiDecimal_ok doubles ((found.group text 4).getD [])
    (isSome_float_plainDecimals isLng)
  refine ⟨⟨lat, lng⟩, ?_⟩
  simp only [readMatch, atLat, atLng, Option.getD_some, readLat, readLng]
  rfl

theorem hemiPrefix_reads (member : found ∈ finditer text (decimalHemiPrefixRe unicode)) :
    ∃ coord, readMatch doubles text .hemiPrefix found = .ok coord := by
  obtain ⟨latText, atLat, isLat⟩ := group_of_body member 2 (decimals (some 3) 1)
    (by simp [decimalHemiPrefixRe_required]) (by simp [decimalHemiPrefixRe_bodies])
  obtain ⟨lngText, atLng, isLng⟩ := group_of_body member 4 (decimals (some 3) 1)
    (by simp [decimalHemiPrefixRe_required]) (by simp [decimalHemiPrefixRe_bodies])
  obtain ⟨lat, readLat⟩ := hemiDecimal_ok doubles ((found.group text 1).getD [])
    (isSome_float_plainDecimals isLat)
  obtain ⟨lng, readLng⟩ := hemiDecimal_ok doubles ((found.group text 3).getD [])
    (isSome_float_plainDecimals isLng)
  refine ⟨⟨lat, lng⟩, ?_⟩
  simp only [readMatch, atLat, atLng, Option.getD_some, readLat, readLng]
  rfl

/-- A half is read when its groups are set. -/
theorem half_reads (first negative : Nat) (isHemisphere : Nat → Bool)
    (signs : ∀ letter, isHemisphere letter = true →
      isSouthOrWest [letter] = foldsTo negative letter)
    (degSet : ∃ value, found.group text first = some value ∧ (digits 1 (some 3)).Accepts value)
    (mntSet : ∃ value, found.group text (first + 1) = some value ∧
      (digits 1 (some 2)).Accepts value)
    (secSet : ∀ value, found.group text (first + 2) = some value → secondsRe.Accepts value)
    (hemiSet : ∃ value, found.group text (first + 3) = some value ∧
      (Regex.one isHemisphere).Accepts value) :
    ∃ value, dmsToDecimal doubles ((found.group text first).getD [])
        ((found.group text (first + 1)).getD []) (found.group text (first + 2))
        ((found.group text (first + 3)).getD []) = .ok value ∧
      ReadsHalf doubles text found first negative value := by
  obtain ⟨deg, atDeg, isDeg⟩ := degSet
  obtain ⟨mnt, atMnt, isMnt⟩ := mntSet
  obtain ⟨_, atHemi, letter, isLetter, rfl⟩ := hemiSet
  obtain ⟨degrees, readDeg⟩ := readInt_ok (isSome_intOfDigits (by omega) (by omega) isDeg)
  obtain ⟨minutes, readMnt⟩ := readInt_ok (isSome_intOfDigits (by omega) (by omega) isMnt)
  have sign : ∀ value, signedBy doubles [letter] value =
      if foldsTo negative letter then doubles.neg value else value := by
    intro value
    unfold signedBy
    rw [signs letter isLetter]
  unfold ReadsHalf
  rw [atDeg, atMnt, atHemi]
  cases atSec : found.group text (first + 2) with
  | none =>
      refine ⟨_, ?_, deg, mnt, letter, degrees, minutes, doubles.of 0, rfl, readDeg, rfl, readMnt,
        .inl ⟨rfl, rfl⟩, rfl, sign _⟩
      simp only [dmsToDecimal, Option.getD_some, readDeg, readMnt]
      rfl
  | some sec =>
      have isSec := secSet sec atSec
      have nonempty : sec ≠ [] := by
        obtain ⟨whole, rest, inWhole, _, rfl⟩ := isSec
        intro empty
        exact ne_nil_of_accepts_digits (by omega) inWhole (List.append_eq_nil_iff.mp empty).1
      obtain ⟨seconds, readSec⟩ := readFloat_ok doubles (isSome_float_seconds isSec)
      refine ⟨_, ?_, deg, mnt, letter, degrees, minutes, seconds, rfl, readDeg, rfl, readMnt,
        .inr ⟨sec, rfl, readSec⟩, rfl, sign _⟩
      simp only [dmsToDecimal, Option.getD_some, readDeg, readMnt, if_neg nonempty, readSec]
      rfl

theorem dms_reads (member : found ∈ finditer text dmsRe) :
    ∃ coord, readMatch doubles text .dms found = .ok coord ∧
      ReadsHalf doubles text found 1 (chr 's') coord.lat ∧
        ReadsHalf doubles text found 5 (chr 'w') coord.lng := by
  have seconds : ∀ number, number = 3 ∨ number = 7 → ∀ value, found.group text number = some value →
      secondsRe.Accepts value := by
    intro number which value set
    obtain ⟨body, listed, accepted⟩ := accepts_of_group member set
    have same : body = secondsRe := by
      rw [dmsRe_bodies] at listed
      obtain rfl | rfl := which
      · simpa using listed
      · simpa using listed
    rwa [same] at accepted
  obtain ⟨lat, readLat, halfLat⟩ := half_reads doubles 1 (chr 's') isNorthSouth
    (fun _ => isSouthOrWest_of_isNorthSouth)
    (group_of_body member 1 (digits 1 (some 3)) (by decide) (by simp [dmsRe_bodies]))
    (group_of_body member 2 (digits 1 (some 2)) (by decide) (by simp [dmsRe_bodies]))
    (seconds 3 (.inl rfl))
    (group_of_body member 4 (.one isNorthSouth) (by decide) (by simp [dmsRe_bodies]))
  obtain ⟨lng, readLng, halfLng⟩ := half_reads doubles 5 (chr 'w') isEastWest
    (fun _ => isSouthOrWest_of_isEastWest)
    (group_of_body member 5 (digits 1 (some 3)) (by decide) (by simp [dmsRe_bodies]))
    (group_of_body member 6 (digits 1 (some 2)) (by decide) (by simp [dmsRe_bodies]))
    (seconds 7 (.inr rfl))
    (group_of_body member 8 (.one isEastWest) (by decide) (by simp [dmsRe_bodies]))
  refine ⟨⟨lat, lng⟩, ?_, halfLat, halfLng⟩
  simp only [readMatch]
  rw [readLat, readLng]
  rfl

/-- Every match is read. -/
theorem readMatch_ok {form : CoordForm} (member : found ∈ finditer text (form.regex unicode)) :
    ∃ coord, readMatch doubles text form found = .ok coord := by
  cases form with
  | decimalPair => exact decimalPair_reads doubles member
  | hemiSuffix => exact hemiSuffix_reads doubles member
  | hemiPrefix => exact hemiPrefix_reads doubles member
  | dms =>
      obtain ⟨coord, read, _⟩ := dms_reads doubles member
      exact ⟨coord, read⟩
  | maps => exact maps_reads doubles member

end Forms

/-! ### The scan -/

section Scan

variable {Double : Type} (doubles : Doubles Double)

/-- What a match is read as, once it is read. -/
def coordOf (text : Str) (form : CoordForm) (found : Match) : ParsedCoord Double :=
  match readMatch doubles text form found with
  | .ok coord => coord
  | .error _ => ⟨doubles.of 0, doubles.of 0⟩

theorem readMatch_eq_coordOf {unicode : Unicode} {text : Str} {form : CoordForm} {found : Match}
    (member : found ∈ finditer text (form.regex unicode)) :
    readMatch doubles text form found = .ok (coordOf doubles text form found) := by
  obtain ⟨coord, read⟩ := readMatch_ok doubles member
  unfold coordOf
  rw [read]

/-- The coordinates of a text, in the order they are read. -/
def readings (unicode : Unicode) (text : Str) : List (ParsedCoord Double) :=
  coordRes.flatMap fun form =>
    (finditer text (form.regex unicode)).map (coordOf doubles text form)

theorem mem_readings {unicode : Unicode} {text : Str} {coord : ParsedCoord Double} :
    coord ∈ readings doubles unicode text ↔
      ∃ form, ∃ found ∈ finditer text (form.regex unicode),
        readMatch doubles text form found = .ok coord := by
  have listed : ∀ form, form ∈ coordRes := by
    intro form
    cases form <;> decide
  unfold readings
  rw [List.mem_flatMap]
  constructor
  · intro ⟨form, _, inForm⟩
    obtain ⟨found, member, rfl⟩ := List.mem_map.mp inForm
    exact ⟨form, found, member, readMatch_eq_coordOf doubles member⟩
  · intro ⟨form, found, member, read⟩
    refine ⟨form, listed form, List.mem_map.mpr ⟨found, member, ?_⟩⟩
    exact Except.ok.inj ((readMatch_eq_coordOf doubles member).symm.trans read)

variable [DecidableEq Double]

/-- A loop over matches that are read pushes what each is read as. -/
theorem foldlM_scanMatch {text : Str} {form : CoordForm} {matches' : List Match}
    (read : ∀ found ∈ matches', readMatch doubles text form found =
      .ok (coordOf doubles text form found)) (state : ScanState Double) :
    matches'.foldlM (scanMatch doubles text form) state =
      .ok ((matches'.map (coordOf doubles text form)).foldl (push doubles) state) := by
  induction matches' generalizing state with
  | nil => rfl
  | cons found rest inductionHypothesis =>
      have here : scanMatch doubles text form state found =
          .ok (push doubles state (coordOf doubles text form found)) := by
        unfold scanMatch
        rw [read found List.mem_cons_self]
      rw [List.foldlM_cons, here]
      exact inductionHypothesis
        (fun other member => read other (List.mem_cons_of_mem _ member)) _

/-- The scan returns, with every reading pushed. -/
theorem scanCoords_eq (unicode : Unicode) (text : Str) :
    scanCoords doubles unicode text =
      let state := (readings doubles unicode text).foldl (push doubles)
        { coords := [], seen := [], outOfBounds := false }
      .ok { coords := state.coords, outOfBounds := state.outOfBounds } := by
  have forms : ∀ (forms : List CoordForm) (state : ScanState Double),
      forms.foldlM (fun state form =>
        (finditer text (form.regex unicode)).foldlM (scanMatch doubles text form) state) state =
        .ok ((forms.flatMap fun form =>
          (finditer text (form.regex unicode)).map (coordOf doubles text form)).foldl
            (push doubles) state) := by
    intro forms
    induction forms with
    | nil => exact fun state => rfl
    | cons form rest inductionHypothesis =>
        intro state
        rw [List.foldlM_cons, foldlM_scanMatch doubles
          (fun found member => readMatch_eq_coordOf doubles member), List.flatMap_cons,
          List.foldl_append]
        exact inductionHypothesis _
  unfold scanCoords
  rw [forms]
  rfl

/-- The state after some readings. -/
structure Scanned (read : List (ParsedCoord Double)) (state : ScanState Double) : Prop where
  subset : state.coords ⊆ read
  inBounds : ∀ coord ∈ state.coords, coordInBounds doubles coord = true
  distinct : (state.coords.map (coordKey doubles)).Nodup
  seen : ∀ key, key ∈ state.seen ↔ key ∈ state.coords.map (coordKey doubles)
  kept : ∀ coord ∈ read, coordInBounds doubles coord = true →
    coordKey doubles coord ∈ state.coords.map (coordKey doubles)
  flag : state.outOfBounds = true ↔ ∃ coord ∈ read, coordInBounds doubles coord = false

omit [DecidableEq Double] in
theorem scanned_start :
    Scanned doubles [] { coords := [], seen := [], outOfBounds := false } where
  subset := List.Subset.refl []
  inBounds _ member := absurd member List.not_mem_nil
  distinct := .nil
  seen _ := Iff.rfl
  kept _ member := absurd member List.not_mem_nil
  flag := by simp

theorem scanned_push {read : List (ParsedCoord Double)} {state : ScanState Double}
    (scanned : Scanned doubles read state) (coord : ParsedCoord Double) :
    Scanned doubles (read ++ [coord]) (push doubles state coord) := by
  have grown : read ⊆ read ++ [coord] := List.subset_append_left _ _
  unfold push
  cases bounded : coordInBounds doubles coord with
  | false =>
      rw [if_pos Bool.not_false]
      exact
        { scanned with
          subset := List.Subset.trans scanned.subset grown
          kept := by
            intro other member inside
            cases List.mem_append.mp member with
            | inl earlier => exact scanned.kept other earlier inside
            | inr here =>
                rw [List.mem_singleton.mp here, bounded] at inside
                cases inside
          flag := ⟨fun _ => ⟨coord, by simp, bounded⟩, fun _ => rfl⟩ }
  | true =>
      have flag : state.outOfBounds = true ↔
          ∃ other ∈ read ++ [coord], coordInBounds doubles other = false := by
        simp [scanned.flag, or_and_right, exists_or, bounded]
      rw [if_neg (by decide)]
      by_cases seen : coordKey doubles coord ∈ state.seen
      · rw [if_pos seen]
        exact
          { scanned with
            subset := List.Subset.trans scanned.subset grown
            kept := by
              intro other member inside
              cases List.mem_append.mp member with
              | inl earlier => exact scanned.kept other earlier inside
              | inr here =>
                  rw [List.mem_singleton.mp here]
                  exact (scanned.seen _).mp seen
            flag := flag }
      · rw [if_neg seen]
        have fresh : coordKey doubles coord ∉ state.coords.map (coordKey doubles) :=
          fun member => seen ((scanned.seen _).mpr member)
        exact
          { subset := by
              intro other member
              cases List.mem_append.mp member with
              | inl earlier => exact grown (scanned.subset earlier)
              | inr here => exact List.mem_append_right _ here
            inBounds := by
              intro other member
              cases List.mem_append.mp member with
              | inl earlier => exact scanned.inBounds other earlier
              | inr here =>
                  rw [List.mem_singleton.mp here]
                  exact bounded
            distinct := by
              rw [List.map_append, List.map_singleton]
              exact List.nodup_append_comm.mp (List.nodup_cons.mpr ⟨fresh, scanned.distinct⟩)
            seen := by
              intro key
              rw [List.mem_cons, scanned.seen, List.map_append, List.mem_append,
                List.map_singleton, List.mem_singleton, or_comm]
            kept := by
              intro other member inside
              rw [List.map_append, List.mem_append]
              cases List.mem_append.mp member with
              | inl earlier => exact .inl (scanned.kept other earlier inside)
              | inr here =>
                  rw [List.mem_singleton.mp here]
                  exact .inr List.mem_cons_self
            flag := flag }

theorem scanned_foldl {read : List (ParsedCoord Double)} {state : ScanState Double}
    (scanned : Scanned doubles read state) (more : List (ParsedCoord Double)) :
    Scanned doubles (read ++ more) (more.foldl (push doubles) state) := by
  induction more generalizing read state with
  | nil =>
      rw [List.append_nil]
      exact scanned
  | cons coord rest inductionHypothesis =>
      have later := inductionHypothesis (scanned_push doubles scanned coord)
      rw [List.append_assoc] at later
      exact later

/-! ### Sound scans -/

/-- What a scan of a text says of it. -/
structure ScansSoundly (unicode : Unicode) (text : Str) (scan : CoordScan Double) : Prop where
  inBounds : ∀ coord ∈ scan.coords, coordInBounds doubles coord = true
  distinct : scan.coords.Pairwise fun left right =>
    coordKey doubles left ≠ coordKey doubles right
  read : ∀ coord ∈ scan.coords, ∃ form, ∃ found ∈ finditer text (form.regex unicode),
    readMatch doubles text form found = .ok coord
  kept : ∀ form, ∀ found ∈ finditer text (form.regex unicode), ∀ coord,
    readMatch doubles text form found = .ok coord → coordInBounds doubles coord = true →
      ∃ returned ∈ scan.coords, coordKey doubles returned = coordKey doubles coord
  dms : ∀ found ∈ finditer text (CoordForm.dms.regex unicode), ∃ coord,
    readMatch doubles text .dms found = .ok coord ∧
      ReadsHalf doubles text found 1 (chr 's') coord.lat ∧
      ReadsHalf doubles text found 5 (chr 'w') coord.lng
  flag : scan.outOfBounds = true ↔
    ∃ form, ∃ found ∈ finditer text (form.regex unicode), ∃ coord,
      readMatch doubles text form found = .ok coord ∧ coordInBounds doubles coord = false
  nonempty : ∀ form : CoordForm, ∀ found ∈ finditer text (form.regex unicode),
    found.span.start < found.span.stop
  apart : ∀ form, ∀ left ∈ finditer text (form.regex unicode),
    ∀ right ∈ finditer text (form.regex unicode), ∀ leftCoord rightCoord,
      readMatch doubles text form left = .ok leftCoord →
      readMatch doubles text form right = .ok rightCoord → leftCoord ≠ rightCoord →
      left.span.Apart right.span

/-- A scan returns, and is sound but for the places of matches of two forms. -/
theorem scanCoords_sound (unicode : Unicode) (text : Str) :
    ∃ scan, scanCoords doubles unicode text = .ok scan ∧
      ScansSoundly doubles unicode text scan := by
  have scanned := scanned_foldl doubles (scanned_start doubles) (readings doubles unicode text)
  rw [List.nil_append] at scanned
  refine ⟨_, scanCoords_eq doubles unicode text, ?_⟩
  exact
    { inBounds := scanned.inBounds
      distinct := List.pairwise_map.mp scanned.distinct
      read := fun coord member => (mem_readings doubles).mp (scanned.subset member)
      kept := by
        intro form found member coord read bounded
        have listed := (mem_readings doubles).mpr ⟨form, found, member, read⟩
        obtain ⟨returned, inCoords, same⟩ := List.mem_map.mp (scanned.kept coord listed bounded)
        exact ⟨returned, inCoords, same⟩
      dms := fun found member => dms_reads doubles member
      flag := by
        rw [scanned.flag]
        constructor
        · intro ⟨coord, listed, outside⟩
          obtain ⟨form, found, member, read⟩ := (mem_readings doubles).mp listed
          exact ⟨form, found, member, coord, read, outside⟩
        · intro ⟨form, found, member, coord, read, outside⟩
          exact ⟨coord, (mem_readings doubles).mpr ⟨form, found, member, read⟩, outside⟩
      nonempty := fun form found member => start_lt_stop member
      apart := by
        intro form left inLeft right inRight leftCoord rightCoord readLeft readRight different
        apply apart_of_mem_finditer inLeft inRight
        intro same
        rw [same] at readLeft
        exact different (Except.ok.inj (readLeft.symm.trans readRight)) }

/-- Two different coordinates never come from overlapping spans, whatever their forms. -/
def NeverOverlaps (unicode : Unicode) (text : Str) (scan : CoordScan Double) : Prop :=
  ∀ left ∈ scan.coords, ∀ right ∈ scan.coords, left ≠ right →
    ∀ leftForm, ∀ leftFound ∈ finditer text (leftForm.regex unicode),
    ∀ rightForm, ∀ rightFound ∈ finditer text (rightForm.regex unicode),
      readMatch doubles text leftForm leftFound = .ok left →
      readMatch doubles text rightForm rightFound = .ok right →
      leftFound.span.Apart rightFound.span

end Scan

namespace MapsZoom

/-- Exact arithmetic; past the doubles there is a value out of every bound. -/
def exact : Doubles ℚ where
  ofNumber
    | .finite value => value
    | .nan => 1000
    | .infinite negative => if negative then -1000 else 1000
  add := (· + ·)
  div := (· / ·)
  neg := (- ·)
  le left right := decide (left ≤ right)
  round6 value := (round (value * 1000000) : ℚ) / 1000000

/-- A link whose zoom has three decimals. -/
def link : Str :=
  str "google.com/maps/@48.01,37.802411,17.123z"

def scan : CoordScan ℚ where
  coords := [⟨37802411 / 1000000, 17123 / 1000⟩, ⟨4801 / 100, 37802411 / 1000000⟩]
  outOfBounds := false

/-- The link, from its start. -/
def linkMatch : Match where
  span := ⟨0, 40⟩
  groups := [(2, ⟨23, 32⟩), (1, ⟨17, 22⟩)]

/-- The longitude and the zoom. -/
def pairMatch : Match where
  span := ⟨23, 39⟩
  groups := [(2, ⟨33, 39⟩), (1, ⟨23, 32⟩)]

/-- The longitude and the zoom of the link are read as a second coordinate. -/
theorem overlaps :
    scanCoords exact Unicode.ascii link = .ok scan ∧
      ¬NeverOverlaps exact Unicode.ascii link scan := by
  constructor
  · decide +kernel
  · intro never
    have inPairs : pairMatch ∈ finditer link (CoordForm.decimalPair.regex Unicode.ascii) := by
      decide +kernel
    have inLinks : linkMatch ∈ finditer link (CoordForm.maps.regex Unicode.ascii) := by
      decide +kernel
    have pairRead : readMatch exact link .decimalPair pairMatch =
        .ok ⟨37802411 / 1000000, 17123 / 1000⟩ := by
      decide +kernel
    have linkRead : readMatch exact link .maps linkMatch =
        .ok ⟨4801 / 100, 37802411 / 1000000⟩ := by
      decide +kernel
    have apart := never _ (by simp [scan]) _ (by simp [scan]) (by decide +kernel) _ pairMatch
      inPairs _ linkMatch inLinks pairRead linkRead
    revert apart
    decide

end MapsZoom

end Vidit.Ingest
