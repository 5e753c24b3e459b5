import Mathlib.Data.List.Pairwise
import Mathlib.Data.List.TakeWhile
import Vidit.Python.Str

/-!
Contract: the patterns of Python's `re`, and the matches of `finditer`.

A match is tried by backtracking: a pattern has a list of candidates, in the
order they are tried, and the first of them is the match.

Owns:
- `Regex`, of one-character classes, their runs, groups and lookarounds; an
  alternation of one-character classes is the class of both;
- `candidates`, `matchAt` and `finditer`;
- `Accepts`, the texts of a pattern, and what a group captures.

Does not own: backreferences, anchors, runs of longer patterns, and the second
try of `finditer` where a pattern matches the empty text.
-/

namespace Vidit.Python

/-- A part of a text, from `start` up to `stop`. -/
structure Span where
  start : Nat
  stop : Nat
deriving DecidableEq, Repr

def slice (text : Str) (start stop : Nat) : Str :=
  (text.drop start).take (stop - start)

inductive Regex where
  | empty
  | one (inClass : Nat → Bool)
  | seq (first second : Regex)
  | run (inClass : Nat → Bool) (least : Nat) (most : Option Nat) (greedy : Bool)
  | optional (body : Regex)
  | group (number : Nat) (body : Regex)
  | notBehind (inClass : Nat → Bool)
  | notAhead (body : Regex)

namespace Regex

/-- One pattern after the other. -/
def chain (parts : List Regex) : Regex :=
  parts.foldr seq empty

end Regex

/-- How far a match has come, and the spans of its groups, the last one first. -/
structure Progress where
  stop : Nat
  groups : List (Nat × Span)
deriving DecidableEq, Repr

/-! ### Matching -/

section Matching

variable (text : Str)

/-- How often a class can be repeated from a place. -/
def longestRun (inClass : Nat → Bool) (most : Option Nat) (start : Nat) : Nat :=
  let available := ((text.drop start).takeWhile inClass).length
  match most with
  | none => available
  | some most => min most available

/-- The ways to match, in the order they are tried. -/
def candidates : Regex → Progress → List Progress
  | .empty, progress => [progress]
  | .one inClass, progress =>
    match text[progress.stop]? with
    | some point => if inClass point then [{ progress with stop := progress.stop + 1 }] else []
    | none => []
  | .seq first second, progress => (candidates first progress).flatMap (candidates second)
  | .run inClass least most greedy, progress =>
    let longest := longestRun text inClass most progress.stop
    let lengths := List.range' least (longest + 1 - least)
    (if greedy then lengths.reverse else lengths).map fun length =>
      { progress with stop := progress.stop + length }
  | .optional body, progress => candidates body progress ++ [progress]
  | .group number body, progress =>
    (candidates body progress).map fun after =>
      { after with groups := (number, ⟨progress.stop, after.stop⟩) :: after.groups }
  | .notBehind inClass, progress =>
    match progress.stop with
    | 0 => [progress]
    | before + 1 =>
      match text[before]? with
      | some point => if inClass point then [] else [progress]
      | none => [progress]
  | .notAhead body, progress => if (candidates body progress).isEmpty then [progress] else []

end Matching

/-- A match, over the text it was found in. -/
structure Match where
  span : Span
  groups : List (Nat × Span)
deriving DecidableEq, Repr

/-- `m.group(number)`. -/
def Match.group (text : Str) (found : Match) (number : Nat) : Option Str :=
  (found.groups.find? fun entry => entry.1 = number).map fun entry =>
    slice text entry.2.start entry.2.stop

section Finding

variable (text : Str) (regex : Regex)

def matchAt (start : Nat) : Option Match :=
  (candidates text regex ⟨start, []⟩).head?.map fun progress =>
    { span := ⟨start, progress.stop⟩, groups := progress.groups }

/-- The matches that start at one of the places, and not before `next`. -/
def finditerFrom : List Nat → Nat → List Match
  | [], _ => []
  | start :: rest, next =>
    if start < next then finditerFrom rest next
    else
      match matchAt text regex start with
      | some found => found :: finditerFrom rest found.span.stop
      | none => finditerFrom rest next

/-- `regex.finditer(text)`. -/
def finditer : List Match :=
  finditerFrom text regex (List.range (text.length + 1)) 0

end Finding

/-! ### What a candidate is -/

/-- A pattern leads from one place to another, wherever its lookarounds hold. -/
inductive Matches (text : Str) : Regex → Progress → Progress → Prop where
  | empty (progress : Progress) : Matches text .empty progress progress
  | one {inClass : Nat → Bool} {progress : Progress} {point : Nat}
      (here : text[progress.stop]? = some point) (member : inClass point = true) :
      Matches text (.one inClass) progress { progress with stop := progress.stop + 1 }
  | seq {first second : Regex} {progress between after : Progress}
      (before : Matches text first progress between) (later : Matches text second between after) :
      Matches text (.seq first second) progress after
  | run {inClass : Nat → Bool} {least : Nat} {most : Option Nat} {greedy : Bool}
      {progress : Progress} {length : Nat} (enough : least ≤ length)
      (available : length ≤ longestRun text inClass most progress.stop) :
      Matches text (.run inClass least most greedy) progress
        { progress with stop := progress.stop + length }
  | taken {body : Regex} {progress after : Progress} (inner : Matches text body progress after) :
      Matches text (.optional body) progress after
  | skipped {body : Regex} (progress : Progress) : Matches text (.optional body) progress progress
  | group {number : Nat} {body : Regex} {progress after : Progress}
      (inner : Matches text body progress after) :
      Matches text (.group number body) progress
        { after with groups := (number, ⟨progress.stop, after.stop⟩) :: after.groups }
  | notBehind {inClass : Nat → Bool} (progress : Progress) :
      Matches text (.notBehind inClass) progress progress
  | notAhead {body : Regex} (progress : Progress) :
      Matches text (.notAhead body) progress progress

theorem matches_of_mem_candidates {text : Str} {regex : Regex} {progress after : Progress}
    (member : after ∈ candidates text regex progress) : Matches text regex progress after := by
  induction regex generalizing progress after with
  | empty =>
      rw [candidates, List.mem_singleton] at member
      rw [member]
      exact .empty progress
  | one inClass =>
      rw [candidates] at member
      split at member
      case h_1 point here =>
        split at member
        case isTrue inside =>
          rw [List.mem_singleton.mp member]
          exact .one here inside
        case isFalse => cases member
      case h_2 => cases member
  | seq first second inductionFirst inductionSecond =>
      rw [candidates, List.mem_flatMap] at member
      obtain ⟨between, inFirst, inSecond⟩ := member
      exact .seq (inductionFirst inFirst) (inductionSecond inSecond)
  | run inClass least most greedy =>
      unfold candidates at member
      have listed : ∃ length ∈ List.range' least
          (longestRun text inClass most progress.stop + 1 - least),
          { progress with stop := progress.stop + length } = after := by
        cases greedy <;> simpa using member
      obtain ⟨length, inRange, rfl⟩ := listed
      rw [List.mem_range'_1] at inRange
      exact .run inRange.1 (by omega)
  | optional body inductionHypothesis =>
      rw [candidates, List.mem_append, List.mem_singleton] at member
      cases member with
      | inl inBody => exact .taken (inductionHypothesis inBody)
      | inr same =>
          rw [same]
          exact .skipped progress
  | group number body inductionHypothesis =>
      rw [candidates, List.mem_map] at member
      obtain ⟨inner, inBody, rfl⟩ := member
      exact .group (inductionHypothesis inBody)
  | notBehind inClass =>
      have same : after = progress := by
        rw [candidates] at member
        split at member
        · exact List.mem_singleton.mp member
        · split at member
          · split at member
            · cases member
            · exact List.mem_singleton.mp member
          · exact List.mem_singleton.mp member
      rw [same]
      exact .notBehind progress
  | notAhead body =>
      rw [candidates] at member
      split at member
      · rw [List.mem_singleton.mp member]
        exact .notAhead progress
      · cases member

/-! ### Places -/

/-- The length of the shortest text of a pattern. -/
def Regex.shortest : Regex → Nat
  | .empty => 0
  | .one _ => 1
  | .seq first second => first.shortest + second.shortest
  | .run _ least _ _ => least
  | .optional _ => 0
  | .group _ body => body.shortest
  | .notBehind _ => 0
  | .notAhead _ => 0

section Places

variable {text : Str} {regex : Regex} {progress after : Progress}

/-- A match takes at least the length of the shortest text. -/
theorem Matches.shortest_le (matched : Matches text regex progress after) :
    progress.stop + regex.shortest ≤ after.stop := by
  induction matched with
  | empty => exact Nat.le_refl _
  | one => exact Nat.le_refl _
  | seq before later inductionBefore inductionLater =>
      unfold Regex.shortest
      omega
  | run enough available =>
      unfold Regex.shortest
      exact Nat.add_le_add_left enough _
  | taken inner inductionHypothesis =>
      unfold Regex.shortest
      omega
  | skipped => exact Nat.le_refl _
  | group inner inductionHypothesis => exact inductionHypothesis
  | notBehind => exact Nat.le_refl _
  | notAhead => exact Nat.le_refl _

theorem Matches.le (matched : Matches text regex progress after) : progress.stop ≤ after.stop :=
  le_trans (Nat.le_add_right _ _) matched.shortest_le

/-- A match found at a place is a match of the pattern there. -/
theorem matches_of_matchAt {start : Nat} {found : Match}
    (here : matchAt text regex start = some found) :
    found.span.start = start ∧ Matches text regex ⟨start, []⟩ ⟨found.span.stop, found.groups⟩ := by
  unfold matchAt at here
  rw [Option.map_eq_some_iff] at here
  obtain ⟨progress, first, rfl⟩ := here
  exact ⟨rfl, matches_of_mem_candidates (List.mem_of_mem_head? first)⟩

theorem matches_of_mem_finditerFrom {starts : List Nat} {next : Nat} {found : Match}
    (member : found ∈ finditerFrom text regex starts next) :
    Matches text regex ⟨found.span.start, []⟩ ⟨found.span.stop, found.groups⟩ := by
  induction starts generalizing next with
  | nil => cases member
  | cons start rest inductionHypothesis =>
      unfold finditerFrom at member
      split at member
      · exact inductionHypothesis member
      · split at member
        case h_1 first here =>
          cases member with
          | head =>
              obtain ⟨same, matched⟩ := matches_of_matchAt here
              rw [same]
              exact matched
          | tail _ later => exact inductionHypothesis later
        case h_2 => exact inductionHypothesis member

theorem matches_of_mem_finditer {found : Match} (member : found ∈ finditer text regex) :
    Matches text regex ⟨found.span.start, []⟩ ⟨found.span.stop, found.groups⟩ :=
  matches_of_mem_finditerFrom member

/-- Matches follow each other, from `next` on. -/
theorem pairwise_finditerFrom (text : Str) (regex : Regex) (starts : List Nat) (next : Nat) :
    (∀ found ∈ finditerFrom text regex starts next, next ≤ found.span.start) ∧
      (finditerFrom text regex starts next).Pairwise fun before later =>
        before.span.stop ≤ later.span.start := by
  induction starts generalizing next with
  | nil => exact ⟨fun _ member => absurd member List.not_mem_nil, .nil⟩
  | cons start rest inductionHypothesis =>
      unfold finditerFrom
      split
      · exact inductionHypothesis next
      · split
        case h_1 found here =>
          obtain ⟨same, matched⟩ := matches_of_matchAt here
          have forward : start ≤ found.span.stop := matched.le
          obtain ⟨after, apart⟩ := inductionHypothesis found.span.stop
          constructor
          · intro other member
            cases member with
            | head => omega
            | tail _ later =>
                have := after other later
                omega
          · exact List.pairwise_cons.mpr ⟨after, apart⟩
        case h_2 => exact inductionHypothesis next

/-- Two spans share no character. -/
def Span.Apart (left right : Span) : Prop :=
  left.stop ≤ right.start ∨ right.stop ≤ left.start

instance (left right : Span) : Decidable (left.Apart right) :=
  inferInstanceAs (Decidable (_ ∨ _))

/-- No two matches of one pattern overlap. -/
theorem apart_of_mem_finditer {left right : Match} (inLeft : left ∈ finditer text regex)
    (inRight : right ∈ finditer text regex) (different : left ≠ right) :
    left.span.Apart right.span := by
  have symmetric : Std.Symm fun left right : Match => left.span.Apart right.span :=
    ⟨fun _ _ apart => apart.symm⟩
  have following := (pairwise_finditerFrom text regex (List.range (text.length + 1)) 0).2
  have apart : (finditer text regex).Pairwise fun left right => left.span.Apart right.span :=
    following.imp fun before => Or.inl before
  exact apart.forall inLeft inRight different

end Places

/-! ### Texts -/

/-- The texts a pattern takes, wherever its lookarounds hold. -/
def Regex.Accepts : Regex → Str → Prop
  | .empty, text => text = []
  | .one inClass, text => ∃ point, inClass point = true ∧ text = [point]
  | .seq first second, text =>
    ∃ before later, first.Accepts before ∧ second.Accepts later ∧ text = before ++ later
  | .run inClass least most _, text =>
    (∀ point ∈ text, inClass point = true) ∧ least ≤ text.length ∧
      ∀ bound, most = some bound → text.length ≤ bound
  | .optional body, text => text = [] ∨ body.Accepts text
  | .group _ body, text => body.Accepts text
  | .notBehind _, text => text = []
  | .notAhead _, text => text = []

/-- The groups of a pattern, and what is inside of each. -/
def Regex.bodies : Regex → List (Nat × Regex)
  | .seq first second => first.bodies ++ second.bodies
  | .optional body => body.bodies
  | .group number body => (number, body) :: body.bodies
  | _ => []

/-- The groups that every match sets. -/
def Regex.required : Regex → List Nat
  | .seq first second => first.required ++ second.required
  | .group number body => number :: body.required
  | _ => []

section Texts

variable {text : Str} {regex : Regex} {progress after : Progress}

theorem slice_self (text : Str) (place : Nat) : slice text place place = [] := by
  unfold slice
  rw [Nat.sub_self, List.take_zero]

theorem slice_append (text : Str) {start middle stop : Nat} (before : start ≤ middle)
    (later : middle ≤ stop) :
    slice text start middle ++ slice text middle stop = slice text start stop := by
  unfold slice
  have whole : stop - start = (middle - start) + (stop - middle) := by
    omega
  rw [whole, List.take_add, List.drop_drop, Nat.add_sub_of_le before]

/-- A run stands in the text as a part of what the class reaches. -/
theorem slice_run {inClass : Nat → Bool} {most : Option Nat} {start length : Nat}
    (available : length ≤ longestRun text inClass most start) :
    (∀ point ∈ slice text start (start + length), inClass point = true) ∧
      (slice text start (start + length)).length = length ∧
      ∀ bound, most = some bound → length ≤ bound := by
  have reached : length ≤ ((text.drop start).takeWhile inClass).length ∧
      ∀ bound, most = some bound → length ≤ bound := by
    unfold longestRun at available
    cases most with
    | none => exact ⟨available, fun _ none => by cases none⟩
    | some most =>
        refine ⟨le_trans available (Nat.min_le_right _ _), ?_⟩
        intro bound same
        cases same
        exact le_trans available (Nat.min_le_left _ _)
  have part : slice text start (start + length) =
      ((text.drop start).takeWhile inClass).take length := by
    unfold slice
    rw [Nat.add_sub_cancel_left]
    conv_lhs => rw [← List.takeWhile_append_dropWhile (p := inClass) (l := text.drop start)]
    exact List.take_append_of_le_length reached.1
  refine ⟨?_, ?_, reached.2⟩
  · intro point member
    rw [part] at member
    exact List.mem_takeWhile_imp (List.mem_of_mem_take member)
  · rw [part, List.length_take, Nat.min_eq_left reached.1]

/-- What a match takes is a text of the pattern. -/
theorem Matches.accepts (matched : Matches text regex progress after) :
    regex.Accepts (slice text progress.stop after.stop) := by
  induction matched with
  | empty progress => exact slice_self text progress.stop
  | @one inClass progress point here member =>
      refine ⟨point, member, ?_⟩
      have cut : text.drop progress.stop = point :: text.drop (progress.stop + 1) := by
        obtain ⟨inside, same⟩ := List.getElem?_eq_some_iff.mp here
        rw [List.drop_eq_getElem_cons inside, same]
      unfold slice
      rw [cut]
      show (point :: _).take (progress.stop + 1 - progress.stop) = [point]
      rw [Nat.add_sub_cancel_left]
      rfl
  | seq before later inductionBefore inductionLater =>
      exact ⟨_, _, inductionBefore, inductionLater,
        (slice_append text before.le later.le).symm⟩
  | run enough available =>
      obtain ⟨inside, length, bounded⟩ := slice_run available
      refine ⟨inside, ?_, ?_⟩
      · rw [length]
        exact enough
      · intro bound same
        rw [length]
        exact bounded bound same
  | taken inner inductionHypothesis => exact .inr inductionHypothesis
  | skipped progress => exact .inl (slice_self text progress.stop)
  | group inner inductionHypothesis => exact inductionHypothesis
  | notBehind progress => exact slice_self text progress.stop
  | notAhead progress => exact slice_self text progress.stop

/-- A group holds a text of what is inside of it. -/
theorem Matches.captured (matched : Matches text regex progress after) {number : Nat} {span : Span}
    (entry : (number, span) ∈ after.groups) :
    (number, span) ∈ progress.groups ∨
      ∃ body, (number, body) ∈ regex.bodies ∧ body.Accepts (slice text span.start span.stop) := by
  induction matched with
  | empty => exact .inl entry
  | one => exact .inl entry
  | seq before later inductionBefore inductionLater =>
      cases inductionLater entry with
      | inl earlier =>
          cases inductionBefore earlier with
          | inl given => exact .inl given
          | inr inFirst =>
              obtain ⟨body, listed, accepted⟩ := inFirst
              exact .inr ⟨body, List.mem_append_left _ listed, accepted⟩
      | inr inSecond =>
          obtain ⟨body, listed, accepted⟩ := inSecond
          exact .inr ⟨body, List.mem_append_right _ listed, accepted⟩
  | run => exact .inl entry
  | taken inner inductionHypothesis => exact inductionHypothesis entry
  | skipped => exact .inl entry
  | @group own body progress after inner inductionHypothesis =>
      cases List.mem_cons.mp entry with
      | inl same =>
          cases same
          exact .inr ⟨body, List.mem_cons_self, inner.accepts⟩
      | inr earlier =>
          cases inductionHypothesis earlier with
          | inl given => exact .inl given
          | inr inBody =>
              obtain ⟨body, listed, accepted⟩ := inBody
              exact .inr ⟨body, List.mem_cons_of_mem _ listed, accepted⟩
  | notBehind => exact .inl entry
  | notAhead => exact .inl entry

theorem Matches.groups_subset (matched : Matches text regex progress after) :
    progress.groups ⊆ after.groups := by
  induction matched with
  | seq before later inductionBefore inductionLater =>
      exact List.Subset.trans inductionBefore inductionLater
  | taken inner inductionHypothesis => exact inductionHypothesis
  | group inner inductionHypothesis =>
      exact List.Subset.trans inductionHypothesis (List.subset_cons_self _ _)
  | _ => exact List.Subset.refl _

/-- A match sets the groups it is required to set. -/
theorem Matches.set (matched : Matches text regex progress after) {number : Nat}
    (required : number ∈ regex.required) : ∃ span, (number, span) ∈ after.groups := by
  induction matched with
  | seq before later inductionBefore inductionLater =>
      cases List.mem_append.mp required with
      | inl inFirst =>
          obtain ⟨span, entry⟩ := inductionBefore inFirst
          exact ⟨span, later.groups_subset entry⟩
      | inr inSecond => exact inductionLater inSecond
  | group inner inductionHypothesis =>
      cases List.mem_cons.mp required with
      | inl same =>
          rw [same]
          exact ⟨_, List.mem_cons_self⟩
      | inr inBody =>
          obtain ⟨span, entry⟩ := inductionHypothesis inBody
          exact ⟨span, List.mem_cons_of_mem _ entry⟩
  | _ => cases required

/-! ### The groups of a match -/

variable {found : Match}

/-- A group that is set holds a text of what is inside of it. -/
theorem accepts_of_group (member : found ∈ finditer text regex) {number : Nat} {value : Str}
    (set : found.group text number = some value) :
    ∃ body, (number, body) ∈ regex.bodies ∧ body.Accepts value := by
  unfold Match.group at set
  rw [Option.map_eq_some_iff] at set
  obtain ⟨⟨own, span⟩, first, rfl⟩ := set
  have same : own = number := by
    simpa using List.find?_some first
  subst same
  cases (matches_of_mem_finditer member).captured (List.mem_of_find?_eq_some first) with
  | inl given => cases given
  | inr captured => exact captured

/-- A required group of a match is set. -/
theorem group_of_required (member : found ∈ finditer text regex) {number : Nat}
    (required : number ∈ regex.required) :
    ∃ value body, found.group text number = some value ∧ (number, body) ∈ regex.bodies ∧
      body.Accepts value := by
  obtain ⟨span, entry⟩ := (matches_of_mem_finditer member).set required
  have present : (found.groups.find? fun entry => entry.1 = number).isSome = true :=
    List.find?_isSome.mpr ⟨_, entry, decide_eq_true rfl⟩
  obtain ⟨first, here⟩ := Option.isSome_iff_exists.mp present
  have set : found.group text number = some (slice text first.2.start first.2.stop) := by
    unfold Match.group
    rw [here]
    rfl
  obtain ⟨body, listed, accepted⟩ := accepts_of_group member set
  exact ⟨_, body, set, listed, accepted⟩

end Texts

end Vidit.Python
