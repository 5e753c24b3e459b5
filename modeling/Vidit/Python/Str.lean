import Mathlib.Algebra.Group.Nat.Defs
import Mathlib.Data.List.Basic
import Mathlib.Data.List.Infix
import Mathlib.Data.List.Sort
import Mathlib.Data.List.TakeWhile

/-!
Contract: the Python strings the backend computes with.

A Python `str` is a sequence of code points, lone surrogates included, so it is
modelled by the list of them rather than by `String`.

Owns: string literals, the methods of `str` that need no Unicode table, UTF-8
encoding, and decimal rendering.

Does not own: case mapping, character classes (`Vidit.Python.Unicode`).
-/

namespace Vidit.Python

/-- A Python `str`: its code points. -/
abbrev Str := List Nat

instance instLawfulBEqStr : LawfulBEq Str :=
  inferInstanceAs (LawfulBEq (List Nat))

/-- A string literal of the source. -/
def str (literal : String) : Str :=
  literal.toList.map Char.toNat

/-- One code point of the source. -/
def chr (literal : Char) : Nat :=
  literal.toNat

/-! ### Sorting -/

/-- `sorted` and `ORDER BY`: stable. -/
def sortedBy {α : Type*} (le : α → α → Bool) (items : List α) : List α :=
  items.insertionSort fun left right => le left right = true

@[simp] theorem mem_sortedBy {α : Type*} {le : α → α → Bool} {items : List α} {item : α} :
    item ∈ sortedBy le items ↔ item ∈ items :=
  List.mem_insertionSort _

theorem sortedBy_perm {α : Type*} (le : α → α → Bool) (items : List α) :
    (sortedBy le items).Perm items :=
  List.perm_insertionSort _ items

/-! ### Searching and splitting -/

def startsWith (text start : Str) : Bool :=
  start.isPrefixOf text

def endsWith (text ending : Str) : Bool :=
  ending.isSuffixOf text

/-- `part in text`. -/
def contains (text part : Str) : Bool :=
  text.tails.any part.isPrefixOf

/-- `text.partition(separator)` at a one-character separator, with the flag that
says whether it was found. -/
def partition (text : Str) (separator : Nat) : Str × Bool × Str :=
  match text.dropWhile (· ≠ separator) with
  | [] => (text, false, [])
  | _ :: rest => (text.takeWhile (· ≠ separator), true, rest)

/-- `text.rpartition(separator)`; without the separator the text is the last part. -/
def rpartition (text : Str) (separator : Nat) : Str × Bool × Str :=
  match partition text.reverse separator with
  | (_, false, _) => ([], false, text)
  | (last, true, first) => (first.reverse, true, last.reverse)

/-- `text.split(separator)` at a one-character separator. -/
def split (text : Str) (separator : Nat) : List Str :=
  match text with
  | [] => [[]]
  | point :: rest =>
    if point = separator then [] :: split rest separator
    else
      match split rest separator with
      | [] => [[point]]
      | first :: parts => (point :: first) :: parts

/-- `separator.join(parts)`. -/
def join (separator : Str) (parts : List Str) : Str :=
  separator.intercalate parts

/-- `text.replace(point, "")` for each point of `removed`. -/
def remove (text : Str) (removed : List Nat) : Str :=
  text.filter (· ∉ removed)

def lstripBy (isStripped : Nat → Bool) (text : Str) : Str :=
  text.dropWhile isStripped

def rstripBy (isStripped : Nat → Bool) (text : Str) : Str :=
  (text.reverse.dropWhile isStripped).reverse

def stripBy (isStripped : Nat → Bool) (text : Str) : Str :=
  rstripBy isStripped (lstripBy isStripped text)

/-- `text.rstrip("/")` and its like. -/
def rstrip (text : Str) (points : Str) : Str :=
  rstripBy (· ∈ points) text

/-- The method `removeprefix` of `text`. -/
def removeprefix (text start : Str) : Str :=
  if startsWith text start then text.drop start.length else text

theorem partition_append {separator : Nat} {before after : Str} (absent : separator ∉ before) :
    partition (before ++ separator :: after) separator = (before, true, after) := by
  have passed : ∀ point ∈ before, decide (point ≠ separator) = true := by
    intro point member
    simp only [decide_eq_true_eq]
    rintro rfl
    exact absent member
  unfold partition
  rw [List.dropWhile_append_of_pos passed, List.takeWhile_append_of_pos passed]
  simp

theorem partition_of_notMem {separator : Nat} {text : Str} (absent : separator ∉ text) :
    partition text separator = (text, false, []) := by
  have passed : text.dropWhile (fun point => decide (point ≠ separator)) = [] := by
    rw [List.dropWhile_eq_nil_iff]
    intro point member
    simp only [decide_eq_true_eq]
    rintro rfl
    exact absent member
  unfold partition
  rw [passed]

theorem rpartition_append {separator : Nat} {before after : Str} (absent : separator ∉ after) :
    rpartition (before ++ separator :: after) separator = (before, true, after) := by
  have turned : (before ++ separator :: after).reverse =
      after.reverse ++ separator :: before.reverse := by simp
  unfold rpartition
  rw [turned, partition_append (by simpa using absent)]
  simp

theorem rpartition_of_notMem {separator : Nat} {text : Str} (absent : separator ∉ text) :
    rpartition text separator = ([], false, text) := by
  unfold rpartition
  rw [partition_of_notMem (by simpa using absent)]

/-- What `partition` finds: nothing, or the first separator. -/
theorem partition_cases (text : Str) (separator : Nat) :
    (separator ∉ text ∧ partition text separator = (text, false, [])) ∨
      ∃ before after, separator ∉ before ∧ text = before ++ separator :: after ∧
        partition text separator = (before, true, after) := by
  by_cases member : separator ∈ text
  · obtain ⟨before, after, cut, absent⟩ := List.eq_append_cons_of_mem member
    right
    refine ⟨before, after, absent, cut, ?_⟩
    rw [cut]
    exact partition_append absent
  · exact .inl ⟨member, partition_of_notMem member⟩

theorem partition_cons {separator point : Nat} (different : point ≠ separator) (text : Str) :
    partition (point :: text) separator =
      (point :: (partition text separator).1, (partition text separator).2) := by
  rcases partition_cases text separator with ⟨absent, found⟩ | ⟨before, after, absent, cut, found⟩
  · rw [found, partition_of_notMem]
    simpa using ⟨Ne.symm different, absent⟩
  · rw [found, cut, ← List.cons_append, partition_append]
    simpa using ⟨Ne.symm different, absent⟩

/-- What `rstripBy` takes off the end. -/
theorem rstripBy_append (isStripped : Nat → Bool) (text : Str) :
    ∃ stripped, text = rstripBy isStripped text ++ stripped ∧
      ∀ point ∈ stripped, isStripped point = true := by
  refine ⟨(text.reverse.takeWhile isStripped).reverse, ?_, ?_⟩
  · unfold rstripBy
    rw [← List.reverse_append, List.takeWhile_append_dropWhile, List.reverse_reverse]
  · intro point member
    exact List.mem_takeWhile_imp (List.mem_reverse.mp member)

/-- A text with nothing to strip is left as it is. -/
theorem stripBy_eq_self {isStripped : Nat → Bool} {text : Str}
    (kept : ∀ point ∈ text, isStripped point = false) : stripBy isStripped text = text := by
  have whole : ∀ other : Str, (∀ point ∈ other, isStripped point = false) →
      other.dropWhile isStripped = other := by
    intro other none
    cases other with
    | nil => rfl
    | cons first rest => rw [List.dropWhile_cons_of_neg (by simp [none first List.mem_cons_self])]
  unfold stripBy lstripBy rstripBy
  rw [whole text kept, whole text.reverse (by simpa using kept), List.reverse_reverse]

theorem mem_stripBy {isStripped : Nat → Bool} {text : Str} {point : Nat}
    (member : point ∈ stripBy isStripped text) : point ∈ text := by
  obtain ⟨stripped, cut, _⟩ := rstripBy_append isStripped (lstripBy isStripped text)
  have inRest : point ∈ lstripBy isStripped text := by
    rw [cut]
    exact List.mem_append_left _ member
  exact (List.dropWhile_suffix _).subset inRest

/-- The last part of `rpartition` is an end of the text. -/
theorem mem_rpartition {text : Str} {separator point : Nat}
    (member : point ∈ (rpartition text separator).2.2) : point ∈ text := by
  unfold rpartition at member
  obtain ⟨absent, found⟩ | ⟨before, after, absent, cut, found⟩ :=
    partition_cases text.reverse separator
  · rw [found] at member
    exact member
  · rw [found] at member
    rw [← List.mem_reverse, cut]
    exact List.mem_append_left _ (List.mem_reverse.mp member)

theorem split_append {separator : Nat} {first rest : Str} (absent : separator ∉ first) :
    split (first ++ separator :: rest) separator = first :: split rest separator := by
  induction first with
  | nil => simp [split]
  | cons point first inductionHypothesis =>
      have other : point ≠ separator := fun same => absent (by simp [same])
      have later := inductionHypothesis fun member => absent (List.mem_cons_of_mem _ member)
      rw [List.cons_append, split, if_neg other, later]

theorem split_of_notMem {separator : Nat} {text : Str} (absent : separator ∉ text) :
    split text separator = [text] := by
  induction text with
  | nil => rfl
  | cons point text inductionHypothesis =>
      have other : point ≠ separator := fun same => absent (by simp [same])
      have later := inductionHypothesis fun member => absent (List.mem_cons_of_mem _ member)
      rw [split, if_neg other, later]

theorem notMem_of_mem_split {separator : Nat} {text part : Str}
    (member : part ∈ split text separator) : separator ∉ part := by
  induction text generalizing part with
  | nil =>
      rw [split, List.mem_singleton] at member
      rw [member]
      exact List.not_mem_nil
  | cons point rest inductionHypothesis =>
      unfold split at member
      split at member
      · obtain rfl | later := List.mem_cons.mp member
        · exact List.not_mem_nil
        · exact inductionHypothesis later
      · rename_i different
        cases parts : split rest separator with
        | nil =>
            rw [parts] at member
            simp only [List.mem_singleton] at member
            rw [member, List.mem_singleton]
            exact fun same => different same.symm
        | cons first parts' =>
            rw [parts] at member inductionHypothesis
            simp only at member
            obtain rfl | later := List.mem_cons.mp member
            · rw [List.mem_cons]
              intro here
              obtain same | inFirst := here
              · exact different same.symm
              · exact inductionHypothesis List.mem_cons_self inFirst
            · exact inductionHypothesis (List.mem_cons_of_mem _ later)

/-- A part holds only points of the text. -/
theorem subset_of_mem_split {separator : Nat} {text part : Str}
    (member : part ∈ split text separator) : part ⊆ text := by
  induction text generalizing part with
  | nil =>
      rw [split, List.mem_singleton] at member
      rw [member]
      exact List.Subset.refl _
  | cons point rest inductionHypothesis =>
      have grows : rest ⊆ point :: rest := List.subset_cons_self _ _
      unfold split at member
      by_cases separates : point = separator
      · rw [if_pos separates] at member
        rcases List.mem_cons.mp member with rfl | later
        · exact List.nil_subset _
        · exact List.Subset.trans (inductionHypothesis later) grows
      · rw [if_neg separates] at member
        cases parts : split rest separator with
        | nil =>
            rw [parts] at member
            rw [List.mem_singleton.mp member]
            exact List.cons_subset_cons _ (List.nil_subset _)
        | cons first others =>
            rw [parts] at member inductionHypothesis
            rcases List.mem_cons.mp member with rfl | later
            · exact List.cons_subset_cons _ (inductionHypothesis List.mem_cons_self)
            · exact List.Subset.trans (inductionHypothesis (List.mem_cons_of_mem _ later)) grows

/-! ### ASCII -/

def isAscii (text : Str) : Bool :=
  text.all (· < 0x80)

def isAsciiUpper (point : Nat) : Bool :=
  chr 'A' ≤ point && point ≤ chr 'Z'

def isAsciiLower (point : Nat) : Bool :=
  chr 'a' ≤ point && point ≤ chr 'z'

def isAsciiDigit (point : Nat) : Bool :=
  chr '0' ≤ point && point ≤ chr '9'

def isAsciiAlpha (point : Nat) : Bool :=
  isAsciiUpper point || isAsciiLower point

def isAsciiAlnum (point : Nat) : Bool :=
  isAsciiAlpha point || isAsciiDigit point

def isHexDigit (point : Nat) : Bool :=
  isAsciiDigit point || (chr 'a' ≤ point && point ≤ chr 'f') ||
    (chr 'A' ≤ point && point ≤ chr 'F')

def asciiLowerPoint (point : Nat) : Nat :=
  if isAsciiUpper point then point + 32 else point

/-- `str.lower` on ASCII text. -/
def asciiLower (text : Str) : Str :=
  text.map asciiLowerPoint

theorem isAsciiUpper_iff {point : Nat} :
    isAsciiUpper point = true ↔ 65 ≤ point ∧ point ≤ 90 := by
  simp only [isAsciiUpper, Bool.and_eq_true, decide_eq_true_eq]
  rfl

theorem isAsciiLower_iff {point : Nat} :
    isAsciiLower point = true ↔ 97 ≤ point ∧ point ≤ 122 := by
  simp only [isAsciiLower, Bool.and_eq_true, decide_eq_true_eq]
  rfl

theorem isAsciiDigit_iff {point : Nat} :
    isAsciiDigit point = true ↔ 48 ≤ point ∧ point ≤ 57 := by
  simp only [isAsciiDigit, Bool.and_eq_true, decide_eq_true_eq]
  rfl

theorem isAsciiAlnum_iff {point : Nat} :
    isAsciiAlnum point = true ↔
      ((65 ≤ point ∧ point ≤ 90) ∨ (97 ≤ point ∧ point ≤ 122)) ∨ 48 ≤ point ∧ point ≤ 57 := by
  simp only [isAsciiAlnum, isAsciiAlpha, Bool.or_eq_true, isAsciiUpper_iff, isAsciiLower_iff,
    isAsciiDigit_iff]

theorem asciiLowerPoint_idempotent (point : Nat) :
    asciiLowerPoint (asciiLowerPoint point) = asciiLowerPoint point := by
  by_cases upper : isAsciiUpper point = true
  · have shifted : ¬ isAsciiUpper (point + 32) = true := by
      rw [isAsciiUpper_iff] at upper ⊢
      omega
    simp only [asciiLowerPoint, upper, if_true, if_neg shifted]
  · simp only [asciiLowerPoint, if_neg upper]

theorem asciiLower_idempotent (text : Str) : asciiLower (asciiLower text) = asciiLower text := by
  simp [asciiLower, Function.comp_def, asciiLowerPoint_idempotent]

theorem isAscii_asciiLower {text : Str} (plain : isAscii text = true) :
    isAscii (asciiLower text) = true := by
  simp only [isAscii, asciiLower, List.all_map, List.all_eq_true, Function.comp_apply,
    decide_eq_true_eq] at plain ⊢
  intro point member
  have low := plain point member
  unfold asciiLowerPoint
  split
  · next upper =>
    rw [isAsciiUpper_iff] at upper
    omega
  · exact low

/-! ### Numbers -/

/-- `str(number)`. -/
def natText (number : Nat) : Str :=
  str (toString number)

/-- The value of ASCII digits. -/
def digitsValue (digits : Str) : Nat :=
  digits.foldl (fun value digit => 10 * value + (digit - chr '0')) 0

/-! ### UTF-8 -/

/-- The UTF-8 bytes of one code point. A lone surrogate is encoded like any
other three-byte code point, which is what `surrogatepass` does. -/
def encodeCodePoint (point : Nat) : List Nat :=
  if point < 0x80 then [point]
  else if point < 0x800 then [0xC0 + point / 64, 0x80 + point % 64]
  else if point < 0x10000 then
    [0xE0 + point / 4096, 0x80 + point / 64 % 64, 0x80 + point % 64]
  else
    [0xF0 + point / 262144, 0x80 + point / 4096 % 64, 0x80 + point / 64 % 64,
      0x80 + point % 64]

/-- `text.encode("utf-8", "surrogatepass")`. -/
def encodeUtf8 (text : Str) : List Nat :=
  text.flatMap encodeCodePoint

/-- A code point of the surrogate range, which strict UTF-8 refuses. -/
def isSurrogate (point : Nat) : Bool :=
  0xD800 ≤ point && point ≤ 0xDFFF

end Vidit.Python
