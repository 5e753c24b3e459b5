import Mathlib.Data.List.Induction
import Mathlib.Logic.Function.Basic
import Mathlib.Logic.Relation
import Mathlib.Order.WellFounded

/-!
Contract: a union-find forest that shortens its paths and keeps no ranks.

Owns:
- `Forest`: parent pointers no chain of which goes on forever;
- `find`, `compress` and `join`, and what the last two do to every root;
- `halve` and `unite`, the same with each second pointer of a path moved up;
- that after any joins two keys share a root exactly when the joined pairs connect them.

Does not own: any program, and the cost of an operation.

Proof shape: a redirected pointer ends at a root, so the chains still end. One equation says what
a join does to every root, and the run lemma is an induction on the pairs.
-/

namespace Vidit.Library

/-- Parent pointers, a root its own parent. -/
structure Forest (κ : Type*) where
  parent : κ → κ
  rooted : WellFounded fun next key => parent key = next ∧ next ≠ key

namespace Forest

variable {κ : Type*}

/-- Every key its own root. -/
def apart : Forest κ where
  parent key := key
  rooted := ⟨fun key => ⟨key, fun _ link => absurd link.1.symm link.2⟩⟩

section

variable [DecidableEq κ]

/-- The root over a key. -/
def find (forest : Forest κ) (key : κ) : κ :=
  if _stops : forest.parent key = key then key else forest.find (forest.parent key)
termination_by forest.rooted.wrap key
decreasing_by exact ⟨rfl, ‹_›⟩

variable (forest : Forest κ)

theorem find_of_root {key : κ} (stops : forest.parent key = key) : forest.find key = key := by
  rw [find, dif_pos stops]

theorem find_of_child {key : κ} (goesOn : forest.parent key ≠ key) :
    forest.find key = forest.find (forest.parent key) := by
  rw [find, dif_neg goesOn]

/-- The root is one. -/
theorem parent_find (key : κ) : forest.parent (forest.find key) = forest.find key := by
  induction key using forest.rooted.induction with
  | _ key inductionHypothesis =>
      by_cases stops : forest.parent key = key
      · rw [forest.find_of_root stops, stops]
      · rw [forest.find_of_child stops]
        exact inductionHypothesis _ ⟨rfl, stops⟩

theorem find_find (key : κ) : forest.find (forest.find key) = forest.find key :=
  forest.find_of_root (forest.parent_find key)

/-! ### Redirected pointers -/

/-- A pointer redirected to a root. -/
def redirect (key root : κ) (isRoot : forest.parent root = root) : Forest κ where
  parent := Function.update forest.parent key root
  rooted := by
    have stops : ∀ next, Function.update forest.parent key root root = next ∧ next ≠ root →
        False := by
      intro next link
      apply link.2
      rw [← link.1]
      by_cases same : root = key
      · rw [same, Function.update_self]
      · rw [Function.update_of_ne same, isRoot]
    have top : Acc (fun next other => Function.update forest.parent key root other = next ∧
        next ≠ other) root :=
      ⟨root, fun next link => (stops next link).elim⟩
    constructor
    intro other
    induction other using forest.rooted.induction with
    | _ other inductionHypothesis =>
        constructor
        intro next link
        by_cases same : other = key
        · rw [same, Function.update_self] at link
          rw [← link.1]
          exact top
        · rw [Function.update_of_ne same] at link
          exact inductionHypothesis next link

section Redirect

variable {forest} {key root : κ} (isRoot : forest.parent root = root)

theorem redirect_parent_self : (forest.redirect key root isRoot).parent key = root :=
  Function.update_self ..

theorem redirect_parent_of_ne {other : κ} (different : other ≠ key) :
    (forest.redirect key root isRoot).parent other = forest.parent other :=
  Function.update_of_ne different ..

theorem redirect_find_root : (forest.redirect key root isRoot).find root = root := by
  apply find_of_root
  by_cases same : root = key
  · subst same
    exact redirect_parent_self isRoot
  · rw [redirect_parent_of_ne isRoot same, isRoot]

theorem redirect_find_self : (forest.redirect key root isRoot).find key = root := by
  by_cases same : root = key
  · rw [← same]
    exact redirect_find_root isRoot
  · have goesOn : (forest.redirect key root isRoot).parent key ≠ key := by
      rw [redirect_parent_self]
      exact same
    rw [find_of_child _ goesOn, redirect_parent_self]
    exact redirect_find_root isRoot

/-- What holds of every root once one chain is cut short: it passes through the key or it does
not. -/
theorem redirect_find_of_ne {other : κ} (different : other ≠ key) :
    (forest.redirect key root isRoot).find other =
      if forest.parent other = other then other
      else (forest.redirect key root isRoot).find (forest.parent other) := by
  rw [find, redirect_parent_of_ne isRoot different]
  rfl

end Redirect

/-- A path shortened: the key points at its root. -/
def compress (key : κ) : Forest κ :=
  forest.redirect key (forest.find key) (forest.parent_find key)

/-- Shortening a path moves no root. -/
theorem compress_find (key other : κ) : (forest.compress key).find other = forest.find other := by
  unfold compress
  induction other using forest.rooted.induction with
  | _ other inductionHypothesis =>
      by_cases same : other = key
      · rw [same, redirect_find_self]
      · rw [redirect_find_of_ne _ same]
        by_cases stops : forest.parent other = other
        · rw [if_pos stops, forest.find_of_root stops]
        · rw [if_neg stops, forest.find_of_child stops]
          exact inductionHypothesis _ ⟨rfl, stops⟩

/-- A root hung under another takes its whole tree there. -/
theorem redirect_find_of_root {key root other : κ} (wasRoot : forest.parent key = key)
    (isRoot : forest.parent root = root) :
    (forest.redirect key root isRoot).find other =
      if forest.find other = key then root else forest.find other := by
  induction other using forest.rooted.induction with
  | _ other inductionHypothesis =>
      by_cases same : other = key
      · rw [same, redirect_find_self, forest.find_of_root wasRoot, if_pos rfl]
      · rw [redirect_find_of_ne _ same]
        by_cases stops : forest.parent other = other
        · rw [if_pos stops, forest.find_of_root stops, if_neg same]
        · rw [if_neg stops, forest.find_of_child stops]
          exact inductionHypothesis _ ⟨rfl, stops⟩

/-! ### Joins -/

/-- The first key's root hung under the second's, both paths shortened on the way. -/
def join (first second : κ) : Forest κ :=
  let shortened := (forest.compress first).compress second
  shortened.redirect (shortened.find first) (shortened.find second) (shortened.parent_find second)

theorem join_find (first second other : κ) :
    (forest.join first second).find other =
      if forest.find other = forest.find first then forest.find second
      else forest.find other := by
  unfold join
  rw [redirect_find_of_root _ (parent_find _ first)]
  simp only [compress_find]

/-- The pairs a forest's roots tell together. -/
def Tells (Linked : κ → κ → Prop) : Prop :=
  ∀ first second, forest.find first = forest.find second ↔ Relation.EqvGen Linked first second

theorem tells_apart : (apart : Forest κ).Tells fun _ _ => False := by
  intro first second
  rw [find_of_root _ rfl, find_of_root _ rfl]
  constructor
  · intro same
    rw [same]
    exact .refl second
  · intro linked
    induction linked with
    | rel _ _ never => exact never.elim
    | refl _ => rfl
    | symm _ _ _ inductionHypothesis => exact inductionHypothesis.symm
    | trans _ _ _ _ _ earlier later => exact earlier.trans later

variable {forest}

/-- A join adds its pair. -/
theorem Tells.join {Linked : κ → κ → Prop} (tells : forest.Tells Linked) (first second : κ) :
    (forest.join first second).Tells fun left right =>
      Linked left right ∨ left = first ∧ right = second := by
  intro left right
  have kept : ∀ {one other}, forest.find one = forest.find other →
      Relation.EqvGen (fun left right => Linked left right ∨ left = first ∧ right = second)
        one other := by
    intro one other same
    exact Relation.EqvGen.mono (fun _ _ linked => Or.inl linked) _ _ ((tells one other).mp same)
  have added : Relation.EqvGen
      (fun left right => Linked left right ∨ left = first ∧ right = second) first second :=
    .rel _ _ (.inr ⟨rfl, rfl⟩)
  constructor
  · intro same
    rw [join_find, join_find] at same
    by_cases fromLeft : forest.find left = forest.find first
    · by_cases fromRight : forest.find right = forest.find first
      · exact kept (fromLeft.trans fromRight.symm)
      · rw [if_pos fromLeft, if_neg fromRight] at same
        exact ((kept fromLeft).trans _ _ _ added).trans _ _ _ (kept same)
    · by_cases fromRight : forest.find right = forest.find first
      · rw [if_neg fromLeft, if_pos fromRight] at same
        exact (kept same).trans _ _ _ ((kept fromRight).trans _ _ _ added).symm
      · rw [if_neg fromLeft, if_neg fromRight] at same
        exact kept same
  · intro linked
    induction linked with
    | rel one other linked =>
        rw [join_find, join_find]
        rcases linked with linked | ⟨rfl, rfl⟩
        · rw [(tells one other).mpr (.rel _ _ linked)]
        · rw [if_pos rfl]
          split
          · rfl
          · rfl
    | refl _ => rfl
    | symm _ _ _ inductionHypothesis => exact inductionHypothesis.symm
    | trans _ _ _ _ _ earlier later => exact earlier.trans later

/-- After any joins two keys share a root exactly when the joined pairs connect them. -/
theorem tells_joins (pairs : List (κ × κ)) :
    (pairs.foldl (fun forest pair => forest.join pair.1 pair.2) apart).Tells
      fun left right => (left, right) ∈ pairs := by
  induction pairs using List.reverseRecOn with
  | nil =>
      intro left right
      have nothing := tells_apart left right
      simpa using nothing
  | append_singleton pairs pair inductionHypothesis =>
      rw [List.foldl_append]
      intro left right
      have joined := inductionHypothesis.join pair.1 pair.2 left right
      simpa [Prod.ext_iff] using joined

/-! ### Halved paths -/

/-- The pointers over a key. -/
def depth (forest : Forest κ) (key : κ) : Nat :=
  if _stops : forest.parent key = key then 0 else forest.depth (forest.parent key) + 1
termination_by forest.rooted.wrap key
decreasing_by exact ⟨rfl, ‹_›⟩

variable (forest)

theorem depth_of_root {key : κ} (stops : forest.parent key = key) : forest.depth key = 0 := by
  rw [depth, dif_pos stops]

theorem depth_of_child {key : κ} (goesOn : forest.parent key ≠ key) :
    forest.depth key = forest.depth (forest.parent key) + 1 := by
  rw [depth, dif_neg goesOn]

/-- A key is not over itself. -/
theorem grandparent_ne {key : κ} (goesOn : forest.parent key ≠ key) :
    forest.parent (forest.parent key) ≠ key := by
  intro back
  have up := forest.depth_of_child goesOn
  by_cases stops : forest.parent (forest.parent key) = forest.parent key
  · exact goesOn (stops.symm.trans back)
  · have further := forest.depth_of_child stops
    rw [back] at further
    omega

/-- A pointer moved to the grandparent. -/
def hop (key : κ) : Forest κ where
  parent := Function.update forest.parent key (forest.parent (forest.parent key))
  rooted := by
    apply Subrelation.wf _ forest.rooted.transGen
    intro next other link
    by_cases same : other = key
    · rw [same, Function.update_self] at link
      rw [same]
      have goesOn : forest.parent key ≠ key := by
        intro stops
        apply link.2
        rw [← link.1, stops, stops]
      by_cases top : forest.parent (forest.parent key) = forest.parent key
      · rw [top] at link
        rw [← link.1]
        exact .single ⟨rfl, goesOn⟩
      · rw [← link.1]
        exact .tail (.single ⟨rfl, top⟩) ⟨rfl, goesOn⟩
    · rw [Function.update_of_ne same] at link
      exact .single link

theorem hop_parent_self (key : κ) :
    (forest.hop key).parent key = forest.parent (forest.parent key) :=
  Function.update_self ..

theorem hop_parent_of_ne {key other : κ} (different : other ≠ key) :
    (forest.hop key).parent other = forest.parent other :=
  Function.update_of_ne different ..

theorem hop_of_root {key : κ} (stops : forest.parent key = key) (other : κ) :
    (forest.hop key).parent other = forest.parent other := by
  by_cases same : other = key
  · rw [same, hop_parent_self, stops, stops]
  · exact forest.hop_parent_of_ne same

/-- The parent passed by a hop points where the key now does. -/
theorem hop_parent_eq {key : κ} (goesOn : forest.parent key ≠ key) :
    (forest.hop key).parent (forest.parent key) = (forest.hop key).parent key := by
  rw [hop_parent_of_ne forest goesOn, hop_parent_self]

/-- A hop moves no root. -/
theorem hop_find (key other : κ) : (forest.hop key).find other = forest.find other := by
  induction other using forest.rooted.induction with
  | _ other inductionHypothesis =>
      by_cases stops : forest.parent other = other
      · rw [forest.find_of_root stops]
        apply find_of_root
        by_cases same : other = key
        · rw [same, hop_parent_self, ← same, stops, stops]
        · rw [hop_parent_of_ne forest same, stops]
      · have up := inductionHypothesis _ ⟨rfl, stops⟩
        rw [forest.find_of_child stops, ← up]
        by_cases same : other = key
        · subst same
          have moved : (forest.hop other).parent other ≠ other := by
            rw [hop_parent_self]
            exact forest.grandparent_ne stops
          rw [find_of_child _ moved, ← forest.hop_parent_eq stops]
          by_cases top : (forest.hop other).parent (forest.parent other) = forest.parent other
          · rw [top]
          · rw [find_of_child _ top]
        · rw [find_of_child, hop_parent_of_ne forest same]
          rw [hop_parent_of_ne forest same]
          exact stops

/-- A hop lengthens no path. -/
theorem hop_depth_le (key other : κ) : (forest.hop key).depth other ≤ forest.depth other := by
  induction other using forest.rooted.induction with
  | _ other inductionHypothesis =>
      by_cases stays : (forest.hop key).parent other = other
      · rw [depth_of_root _ stays]
        omega
      · have goesOn : forest.parent other ≠ other := by
          intro stops
          apply stays
          by_cases same : other = key
          · rw [same, hop_parent_self, ← same, stops, stops]
          · rw [hop_parent_of_ne forest same, stops]
        have up := inductionHypothesis _ ⟨rfl, goesOn⟩
        rw [depth_of_child _ stays, forest.depth_of_child goesOn]
        by_cases same : other = key
        · subst same
          rw [← forest.hop_parent_eq goesOn]
          by_cases top : (forest.hop other).parent (forest.parent other) = forest.parent other
          · rw [top]
            omega
          · rw [depth_of_child _ top] at up
            omega
        · rw [hop_parent_of_ne forest same]
          omega

/-- The grandparent is nearer its root than the key was. -/
theorem hop_depth_lt {key : κ} (goesOn : forest.parent key ≠ key) :
    (forest.hop key).depth ((forest.hop key).parent key) < forest.depth key := by
  have moved : (forest.hop key).parent key ≠ key := by
    rw [hop_parent_self]
    exact forest.grandparent_ne goesOn
  have shorter := forest.hop_depth_le key key
  rw [depth_of_child _ moved] at shorter
  omega

/-- The root over a key, each pointer met on the way moved to the grandparent first. -/
def halve (forest : Forest κ) (key : κ) : Forest κ × κ :=
  if _stops : forest.parent key = key then (forest, key)
  else (forest.hop key).halve ((forest.hop key).parent key)
termination_by forest.depth key
decreasing_by exact forest.hop_depth_lt ‹_›

/-- It finds the root and moves none. -/
theorem halve_spec (key : κ) :
    (forest.halve key).2 = forest.find key ∧
      ∀ other, (forest.halve key).1.find other = forest.find other := by
  induction forest, key using halve.induct with
  | case1 forest key stops =>
      rw [halve, dif_pos stops]
      exact ⟨(forest.find_of_root stops).symm, fun _ => rfl⟩
  | case2 forest key goesOn inductionHypothesis =>
      have moved : (forest.hop key).parent key ≠ key := by
        rw [hop_parent_self]
        exact forest.grandparent_ne goesOn
      rw [halve, dif_neg goesOn]
      constructor
      · rw [inductionHypothesis.1, ← find_of_child _ moved, hop_find]
      · intro other
        rw [inductionHypothesis.2, hop_find]

theorem halve_root (key : κ) : (forest.halve key).2 = forest.find key :=
  (forest.halve_spec key).1

theorem halve_find (key other : κ) : (forest.halve key).1.find other = forest.find other :=
  (forest.halve_spec key).2 other

/-- What a key's path leads to has no pointer of its own once it is found. -/
theorem halve_parent_root (first second : κ) :
    ((forest.halve first).1.halve second).1.parent (forest.halve first).2 =
      (forest.halve first).2 := by
  have found : ((forest.halve first).1.halve second).1.find first = (forest.halve first).2 := by
    rw [halve_find, halve_find, halve_root]
  rw [← found]
  exact parent_find _ first

/-- The second key's root hung under the first's, when they differ, both paths halved on the way. -/
def unite (first second : κ) : Forest κ :=
  let one := forest.halve first
  let other := one.1.halve second
  if one.2 = other.2 then other.1
  else other.1.redirect other.2 one.2 (forest.halve_parent_root first second)

theorem unite_find (first second other : κ) :
    (forest.unite first second).find other = (forest.join second first).find other := by
  have isRoot : ((forest.halve first).1.halve second).1.parent
      ((forest.halve first).1.halve second).2 = ((forest.halve first).1.halve second).2 := by
    have found : ((forest.halve first).1.halve second).1.find second =
        ((forest.halve first).1.halve second).2 := by
      rw [halve_find, halve_root]
    rw [← found]
    exact parent_find _ second
  rw [join_find]
  unfold unite
  simp only
  split
  · next same =>
    rw [halve_root, halve_root, halve_find] at same
    rw [halve_find, halve_find]
    split
    · next here => rw [here, same]
    · rfl
  · rw [redirect_find_of_root _ isRoot]
    simp only [halve_find, halve_root]

variable {forest}

/-- A union adds its pair. -/
theorem Tells.unite {Linked : κ → κ → Prop} (tells : forest.Tells Linked) (first second : κ) :
    (forest.unite first second).Tells fun left right =>
      Linked left right ∨ left = second ∧ right = first := by
  intro left right
  rw [unite_find, unite_find]
  exact tells.join second first left right

end

end Forest

end Vidit.Library
