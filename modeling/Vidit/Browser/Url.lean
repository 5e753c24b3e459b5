import Vidit.Python.Str

/-!
Contract: the basic URL parser of the WHATWG URL standard, as far as the host it sends a
browser to.

Owns:
- the states from the scheme to the port, for a page served over https (`resolve`) and without a
  base (`newUrl`, the constructor `URL`);
- `HostParser`, what is read of the host parser: percent-decoding, IDNA and IP addresses.

Does not own: paths, queries, fragments, and what follows the scheme of another protocol.
-/

namespace Vidit.Browser

open Vidit.Python

/-- Where a URL sends the browser. -/
inductive Target where
  /-- A path of the origin of the page. -/
  | sameOrigin
  /-- An https URL; the default port reads `none`. -/
  | https (host : Str) (port : Option Nat)
  /-- A URL of another scheme. -/
  | other (scheme : Str)
deriving DecidableEq, Repr

/-- The host parser: `none` is a failure. -/
structure HostParser where
  parse : Str → Option Str
  /-- An empty host is a failure. -/
  parse_nil : parse [] = none
  /-- A bracket opens an IPv6 address, which is written with one, or is a failure. -/
  parse_bracket : ∀ text host, parse text = some host → chr '[' ∈ text → chr '[' ∈ host

/-- A backslash is a slash in a special URL. -/
def isSlash (point : Nat) : Bool :=
  point = chr '/' || point = chr '\\'

/-- What ends the authority of a special URL. -/
def endsAuthority (point : Nat) : Bool :=
  isSlash point || point = chr '?' || point = chr '#'

/-- The input without leading and trailing C0 controls and spaces, then without tabs and
newlines. -/
def preprocess (input : Str) : Str :=
  remove (lstripBy (· ≤ 0x20) (rstripBy (· ≤ 0x20) input)) [0x09, 0x0D, 0x0A]

def isSchemePoint (point : Nat) : Bool :=
  isAsciiAlnum point || point ∈ [chr '+', chr '-', chr '.']

/-- The scheme state: the scheme and what follows its colon. -/
def schemeState (buffer : Str) : Str → Option (Str × Str)
  | [] => none
  | point :: rest =>
    if isSchemePoint point then schemeState (buffer ++ [asciiLowerPoint point]) rest
    else if point = chr ':' then some (buffer, rest)
    else none

/-- The scheme start state. -/
def schemeStart : Str → Option (Str × Str)
  | [] => none
  | point :: rest =>
    if isAsciiAlpha point then schemeState [asciiLowerPoint point] rest else none

section Authority

variable (hosts : HostParser)

/-- The port state, at the end of the authority. -/
def portState (host port : Str) : Option Target :=
  if port.all isAsciiDigit then
    if 65535 < digitsValue port then none
    else if port = [] ∨ digitsValue port = 443 then some (.https host none)
    else some (.https host (some (digitsValue port)))
  else none

/-- The host text and what follows its colon; a colon inside brackets is part of the host. -/
def splitHost (insideBrackets : Bool) : Str → Str × Str
  | [] => ([], [])
  | point :: rest =>
    if point = chr ':' ∧ insideBrackets = false then ([], rest)
    else
      let inside := point = chr '[' || (insideBrackets && point ≠ chr ']')
      (point :: (splitHost inside rest).1, (splitHost inside rest).2)

/-- The host state. -/
def hostState (text : Str) : Option Target :=
  match hosts.parse (splitHost false text).1 with
  | some host => portState host (splitHost false text).2
  | none => none

/-- The authority state: the host follows the last at sign. -/
def authorityState (input : Str) : Option Target :=
  hostState hosts (rpartition (input.takeWhile fun point => !endsAuthority point) (chr '@')).2.2

/-- The special authority ignore slashes state. -/
def ignoreSlashes (input : Str) : Option Target :=
  authorityState hosts (input.dropWhile isSlash)

/-- The relative and relative slash states, on an https page. -/
def relativeState : Str → Option Target
  | first :: second :: rest =>
    if isSlash first && isSlash second then ignoreSlashes hosts rest else some .sameOrigin
  | _ => some .sameOrigin

/-- The parser on an https page. -/
def resolve (input : Str) : Option Target :=
  match schemeStart (preprocess input) with
  | some (scheme, rest) =>
    if scheme ≠ str "https" then some (.other scheme)
    else if startsWith rest (str "//") then ignoreSlashes hosts (rest.drop 2)
    else relativeState hosts rest
  | none => relativeState hosts (preprocess input)

/-- The parser without a base. -/
def newUrl (input : Str) : Option Target :=
  match schemeStart (preprocess input) with
  | some (scheme, rest) =>
    if scheme ≠ str "https" then some (.other scheme) else ignoreSlashes hosts rest
  | none => none

/-! ### What each state reads -/

theorem schemeState_append {scheme rest : Str} (plain : scheme.all isSchemePoint = true)
    (buffer : Str) :
    schemeState buffer (scheme ++ chr ':' :: rest) = some (buffer ++ asciiLower scheme, rest) := by
  induction scheme generalizing buffer with
  | nil =>
      have ends : isSchemePoint (chr ':') = false := by decide
      simp [schemeState, ends, asciiLower]
  | cons point scheme inductionHypothesis =>
      rw [List.all_cons, Bool.and_eq_true] at plain
      rw [List.cons_append, schemeState, if_pos plain.1, inductionHypothesis plain.2]
      simp [asciiLower]

theorem schemeStart_append {first : Nat} {scheme rest : Str} (letter : isAsciiAlpha first = true)
    (plain : scheme.all isSchemePoint = true) :
    schemeStart (first :: scheme ++ chr ':' :: rest) =
      some (asciiLower (first :: scheme), rest) := by
  rw [List.cons_append, schemeStart, if_pos letter, schemeState_append plain]
  rfl

/-- Without a bracket, the host ends at the first colon. -/
theorem splitHost_of_notMem {text : Str} (absent : chr '[' ∉ (partition text (chr ':')).1) :
    splitHost false text =
      ((partition text (chr ':')).1, (partition text (chr ':')).2.2) := by
  induction text with
  | nil => rfl
  | cons point rest inductionHypothesis =>
      by_cases colon : point = chr ':'
      · subst colon
        simp [splitHost, partition]
      · have later := partition_cons colon rest
        rw [later] at absent ⊢
        simp only [List.mem_cons, not_or] at absent
        rw [splitHost, if_neg (by simp [colon])]
        have outside : (point = chr '[' || (false && point ≠ chr ']')) = false := by
          simpa using Ne.symm absent.1
        simp only [outside, inductionHypothesis absent.2]

theorem mem_splitHost {text : Str} (member : chr '[' ∈ (partition text (chr ':')).1) :
    chr '[' ∈ (splitHost false text).1 := by
  induction text with
  | nil => exact absurd member (by simp [partition])
  | cons point rest inductionHypothesis =>
      by_cases colon : point = chr ':'
      · subst colon
        exact absurd member (by simp [partition])
      · rw [partition_cons colon rest] at member
        rw [splitHost, if_neg (by simp [colon])]
        by_cases bracket : point = chr '['
        · simp [bracket]
        · have inner : chr '[' ∈ (partition rest (chr ':')).1 :=
            (List.mem_cons.mp member).resolve_left (Ne.symm bracket)
          have outside : (point = chr '[' || (false && point ≠ chr ']')) = false := by
            simpa using bracket
          simp only [outside]
          exact List.mem_cons_of_mem _ (inductionHypothesis inner)

theorem portState_isSome_iff {host port : Str} :
    (∃ number, portState host port = some (.https host number)) ↔
      port.all isAsciiDigit = true ∧ digitsValue port ≤ 65535 := by
  unfold portState
  by_cases digits : port.all isAsciiDigit = true
  · by_cases large : 65535 < digitsValue port
    · simp [digits, large, Nat.not_le.mpr large]
    · have fits : digitsValue port ≤ 65535 := by omega
      rw [if_pos digits, if_neg large]
      simp only [digits, fits, and_self, iff_true]
      split
      · exact ⟨_, rfl⟩
      · exact ⟨_, rfl⟩
  · simp [digits]

theorem portState_host {host other port : Str} {number : Option Nat}
    (read : portState host port = some (.https other number)) : other = host := by
  unfold portState at read
  split at read
  · split at read
    · cases read
    · split at read
      · cases read; rfl
      · cases read; rfl
  · cases read

theorem portState_ne_sameOrigin (host port : Str) : portState host port ≠ some .sameOrigin := by
  unfold portState
  intro read
  split at read
  · split at read
    · cases read
    · split at read
      · cases read
      · cases read
  · cases read

end Authority

end Vidit.Browser
