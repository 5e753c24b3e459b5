import Vidit.Browser.Url
import Vidit.Python.Query

/-!
Contract: the object an https URL asks its host for.

Owns:
- `afterSlashes`, the text the authority and the path of a URL are cut from;
- the path states with their dot segments, and `objectKey`, the bytes a server reads the path as;
- `resourceOf`, the host, port and object a page served over https asks for.

Does not own: queries and fragments, which name no object.
-/

namespace Vidit.Browser

open Vidit.Python

/-! ### Paths -/

/-- A single-dot path segment. -/
def isSingleDot (segment : Str) : Bool :=
  asciiLower segment ∈ [str ".", str "%2e"]

/-- A double-dot path segment. -/
def isDoubleDot (segment : Str) : Bool :=
  asciiLower segment ∈ [str "..", str ".%2e", str "%2e.", str "%2e%2e"]

/-- The path state, one segment at a time; a dot segment at the end leaves an empty one. -/
def pathState (path : List Str) : List Str → List Str
  | [] => path
  | [last] =>
    if isDoubleDot last then path.dropLast ++ [[]]
    else if isSingleDot last then path ++ [[]]
    else path ++ [last]
  | segment :: rest =>
    if isDoubleDot segment then pathState path.dropLast rest
    else if isSingleDot segment then pathState path rest
    else pathState (path ++ [segment]) rest

/-- The segments of what follows an authority: up to the query or the fragment, after the
first slash. -/
def segmentsOf (text : Str) : List Str :=
  let path := text.takeWhile fun point => point ≠ chr '?' && point ≠ chr '#'
  split ((path.drop 1).map fun point => if point = chr '\\' then chr '/' else point) (chr '/')

/-- The path without its leading slash, its percent signs decoded. -/
def objectKey (text : Str) : List Nat :=
  unquoteToBytes (encodeUtf8 (join (str "/") (pathState [] (segmentsOf text))))

/-! ### Resources -/

/-- What a browser asks for. -/
structure Resource where
  host : Str
  port : Option Nat
  key : List Nat
deriving DecidableEq, Repr

/-- The relative and relative slash states: what follows two slashes. -/
def afterTwoSlashes : Str → Option Str
  | first :: second :: rest =>
    if isSlash first && isSlash second then some (rest.dropWhile isSlash) else none
  | _ => none

/-- What follows the slashes of an https URL, on an https page. -/
def afterSlashes (input : Str) : Option Str :=
  match schemeStart (preprocess input) with
  | some (scheme, rest) =>
    if scheme ≠ str "https" then none
    else if startsWith rest (str "//") then some ((rest.drop 2).dropWhile isSlash)
    else afterTwoSlashes rest
  | none => afterTwoSlashes (preprocess input)

section Resources

variable (hosts : HostParser)

/-- The object a src asks its host for, on an https page. -/
def resourceOf (input : Str) : Option Resource :=
  match afterSlashes input with
  | some text =>
    match authorityState hosts text with
    | some (.https host port) =>
      some ⟨host, port, objectKey (text.dropWhile fun point => !endsAuthority point)⟩
    | _ => none
  | none => none

theorem relativeState_of_afterTwoSlashes {input text : Str}
    (found : afterTwoSlashes input = some text) :
    relativeState hosts input = authorityState hosts text := by
  unfold afterTwoSlashes at found
  split at found
  · next first second rest =>
    split at found
    · next slashes =>
      cases found
      rw [relativeState, if_pos slashes]
      rfl
    · cases found
  · cases found

/-- A URL is sent where the authority after its slashes says. -/
theorem resolve_of_afterSlashes {input text : Str} (found : afterSlashes input = some text) :
    resolve hosts input = authorityState hosts text := by
  unfold afterSlashes at found
  unfold resolve
  cases read : schemeStart (preprocess input) with
  | none =>
      rw [read] at found
      exact relativeState_of_afterTwoSlashes hosts found
  | some parts =>
      obtain ⟨scheme, rest⟩ := parts
      rw [read] at found
      simp only at found ⊢
      by_cases other : scheme ≠ str "https"
      · rw [if_pos other] at found
        cases found
      · rw [if_neg other] at found ⊢
        by_cases slashes : startsWith rest (str "//") = true
        · rw [if_pos slashes] at found ⊢
          cases found
          rfl
        · rw [if_neg slashes] at found ⊢
          exact relativeState_of_afterTwoSlashes hosts found

/-- A resource is read from the host the browser is sent to. -/
theorem resolve_of_resourceOf {input : Str} {resource : Resource}
    (asked : resourceOf hosts input = some resource) :
    resolve hosts input = some (.https resource.host resource.port) := by
  unfold resourceOf at asked
  split at asked
  · next text found =>
    split at asked
    · next host port read =>
      cases asked
      rw [resolve_of_afterSlashes hosts found, read]
    · cases asked
  · cases asked

end Resources

/-! ### Other schemes -/

/-- The preprocessing leaves the start of an input that holds no space and no control. -/
theorem preprocess_append {start : Str} (rest : Str) (named : start ≠ [])
    (plain : ∀ point ∈ start, 0x20 < point) :
    ∃ tail, preprocess (start ++ rest) = start ++ tail := by
  have kept : rstripBy (· ≤ 0x20) (start ++ rest) = start ++ rstripBy (· ≤ 0x20) rest := by
    have last : start.reverse.dropWhile (fun point => decide (point ≤ 0x20)) = start.reverse := by
      cases reversed : start.reverse with
      | nil => rfl
      | cons point others =>
          have member : point ∈ start := by
            rw [← List.mem_reverse, reversed]
            exact List.mem_cons_self
          have above := plain point member
          rw [List.dropWhile_cons_of_neg]
          simpa using above
    unfold rstripBy
    rw [List.reverse_append, List.dropWhile_append]
    split
    · next blank =>
      rw [last, List.reverse_reverse, List.isEmpty_iff.mp blank]
      simp
    · rw [List.reverse_append, List.reverse_reverse]
  have first : lstripBy (· ≤ 0x20) (start ++ rstripBy (· ≤ 0x20) rest) =
      start ++ rstripBy (· ≤ 0x20) rest := by
    cases start with
    | nil => exact absurd rfl named
    | cons point others =>
        have above := plain point List.mem_cons_self
        unfold lstripBy
        rw [List.cons_append, List.dropWhile_cons_of_neg]
        simpa using above
  have whole : remove start [0x09, 0x0D, 0x0A] = start := by
    unfold remove
    rw [List.filter_eq_self]
    intro point member
    have above := plain point member
    simp only [List.mem_cons, List.not_mem_nil, or_false, decide_eq_true_eq, not_or]
    omega
  refine ⟨remove (rstripBy (· ≤ 0x20) rest) [0x09, 0x0D, 0x0A], ?_⟩
  unfold preprocess
  rw [kept, first]
  unfold remove
  rw [List.filter_append]
  exact congrArg (· ++ _) whole

/-- A URL of another scheme asks for no resource. -/
theorem resourceOf_of_scheme {hosts : HostParser} (first : Nat) (scheme rest : Str)
    (letter : isAsciiAlpha first = true) (plain : scheme.all isSchemePoint = true)
    (other : asciiLower (first :: scheme) ≠ str "https") :
    resourceOf hosts (first :: scheme ++ chr ':' :: rest) = none := by
  have visible : ∀ point ∈ first :: scheme ++ [chr ':'], 0x20 < point := by
    have ofAlnum : ∀ point, isAsciiAlnum point = true → 0x20 < point := by
      intro point alnum
      rw [isAsciiAlnum_iff] at alnum
      omega
    intro point member
    rcases List.mem_append.mp member with inScheme | colon
    · rcases List.mem_cons.mp inScheme with rfl | inRest
      · exact ofAlnum _ (by unfold isAsciiAlnum; rw [letter]; rfl)
      · have schemePoint := List.all_eq_true.mp plain point inRest
        unfold isSchemePoint at schemePoint
        rw [Bool.or_eq_true] at schemePoint
        rcases schemePoint with alnum | sign
        · exact ofAlnum point alnum
        · simp only [List.mem_cons, List.not_mem_nil, or_false, decide_eq_true_eq] at sign
          rcases sign with rfl | rfl | rfl
          · decide
          · decide
          · decide
    · rw [List.mem_singleton.mp colon]
      decide
  obtain ⟨tail, read⟩ := preprocess_append rest (by simp) visible
  have start : preprocess (first :: scheme ++ chr ':' :: rest) =
      first :: scheme ++ chr ':' :: tail := by
    simpa using read
  unfold resourceOf afterSlashes
  rw [start, schemeStart_append letter plain]
  simp only
  rw [if_pos other]

end Vidit.Browser
