import Mathlib.Data.List.Chain
import Vidit.Library.Transition
import Vidit.Python.Str

/-!
Contract: the Back arrow of a page, over everything a tab does before it is pressed.

Owns:
- the back-stack in the session's storage: `recordNavigation`, `skipBackRecord`, `smartBack`, and
  the effect of `PathTracker` that feeds it;
- the events of a tab: a navigation, a doorway's redirect, Back, a document load;
- `Retraces`: an excursion ends where it began, unless it goes deeper than the stack holds.

Does not own: the order of two navigations of which one is still pending, and the query and
fragment of a page, which the stack does not hold. The stack is kept newest first here, so the
slice that caps it is a `take`.

Proof shape: `trail` is where Back leads, page after page. One equation for each event says what
becomes of it, and the excursion theorem is an induction on the excursion.
-/

namespace Vidit.Navigation

open Vidit.Python Vidit.Library

/-- A URL's pathname, which is never empty. -/
structure Pathname where
  text : Str
  nonempty : text ≠ []
deriving DecidableEq

/-- `MAX_STACK`. -/
def maxStack : Nat := 50

/-- What a tab holds: the three keys of its session storage, its location, and the tracker's
ref. -/
structure Tab where
  stack : List Pathname
  goingBack : Bool
  skipRecord : Bool
  pathname : Pathname
  previous : Option Pathname
deriving DecidableEq

/-- What happens to a tab. A link, `router.push` and the browser's own arrows are all
`navigate`. -/
inductive TabEvent where
  | navigate (target : Pathname)
  | redirect (target : Pathname)
  | back (fallback : Pathname)
  | load (target : Pathname)
deriving DecidableEq

/-! ### The stack -/

/-- `writeStack`. -/
def writeStack (stack : List Pathname) (tab : Tab) : Tab :=
  { tab with stack := stack.take maxStack }

/-- `recordNavigation`. -/
def recordNavigation (leftPath : Pathname) (tab : Tab) : Tab :=
  if tab.goingBack then { tab with goingBack := false }
  else if tab.skipRecord then { tab with skipRecord := false }
  else if tab.stack.head? = some leftPath then tab
  else writeStack (leftPath :: tab.stack) tab

/-- `skipBackRecord`. -/
def skipBackRecord (tab : Tab) : Tab :=
  { tab with skipRecord := true }

/-- The loop of `smartBack`: the first entry that is not the current path, and what is left. -/
def popOther (pathname : Pathname) : List Pathname → Option Pathname × List Pathname
  | [] => (none, [])
  | candidate :: rest =>
    if candidate ≠ pathname then (some candidate, rest) else popOther pathname rest

/-- The effect of `PathTracker`, which runs when the pathname changed. -/
def trackPath (tab : Tab) : Tab :=
  let recorded :=
    match tab.previous with
    | some previous => if previous ≠ tab.pathname then recordNavigation previous tab else tab
    | none => tab
  { recorded with previous := some tab.pathname }

/-- The router goes to a path of this origin. -/
def routeTo (target : Pathname) (tab : Tab) : Tab :=
  if target = tab.pathname then tab else trackPath { tab with pathname := target }

/-- `smartBack`. -/
def smartBack (fallback : Pathname) (tab : Tab) : Tab :=
  let (target, rest) := popOther tab.pathname tab.stack
  routeTo (target.getD fallback) { writeStack rest tab with goingBack := true }

/-- A document load mounts the tracker anew. The session's storage outlives it. -/
def loadPage (target : Pathname) (tab : Tab) : Tab :=
  trackPath { tab with pathname := target, previous := none }

def tabStep : TabEvent → Tab → Tab
  | .navigate target, tab => routeTo target tab
  | .redirect target, tab => routeTo target (skipBackRecord tab)
  | .back fallback, tab => smartBack fallback tab
  | .load target, tab => loadPage target tab

def tabRun (events : List TabEvent) (tab : Tab) : Tab :=
  events.foldl (fun current event => tabStep event current) tab

/-- A tab opens on any page, with an empty storage. -/
def tabs : System Tab TabEvent where
  Init tab := ∃ pathname, tab =
    { stack := [], goingBack := false, skipRecord := false, pathname, previous := some pathname }
  Step tab event next := next = tabStep event tab

/-! ### What Back should do -/

/-- Where Back leads, nearest page first. -/
def trail (tab : Tab) : List Pathname :=
  tab.stack.dropWhile (· = tab.pathname)

/-- The event leaves the page, where it sets a one-shot flag: "one set without a navigation eats
the next entry". -/
def Moves (tab : Tab) : TabEvent → Prop
  | .redirect target => target ≠ tab.pathname
  | .back fallback => trail tab = [] → fallback ≠ tab.pathname
  | .navigate _ => True
  | .load _ => True

instance (tab : Tab) (event : TabEvent) : Decidable (Moves tab event) := by
  cases event <;> (unfold Moves; infer_instance)

/-- No flag waits for a navigation, and no page follows itself in the stack. -/
structure Settled (tab : Tab) : Prop where
  notGoingBack : tab.goingBack = false
  recording : tab.skipRecord = false
  tracked : tab.previous = some tab.pathname
  apart : tab.stack.IsChain (· ≠ ·)
  bounded : tab.stack.length ≤ maxStack

/-- The way into a page: a navigation, then the redirects of the doorways it met. -/
def arrivals : List Pathname → List TabEvent
  | [] => []
  | first :: later => .navigate first :: later.map .redirect

/-- An excursion from a page: everything between two moments on it, where each page entered is
left by Back. Its height is how deep the pages are nested. -/
inductive Excursion : Pathname → Nat → List TabEvent → Prop where
  | stay (page : Pathname) : Excursion page 0 []
  | reload {page : Pathname} {height : Nat} {rest : List TabEvent}
      (later : Excursion page height rest) : Excursion page height (.load page :: rest)
  | trip {page target fallback : Pathname} {doors : List Pathname} {depth height : Nat}
      {inside rest : List TabEvent}
      (way : (page :: doors ++ [target]).IsChain (· ≠ ·)) (away : target ≠ page)
      (there : Excursion target depth inside) (later : Excursion page height rest) :
      Excursion page (max (depth + 1) height)
        (arrivals (doors ++ [target]) ++ inside ++ .back fallback :: rest)

/-- What the Back arrow does in a tab whose redirects and backs all left their page. -/
structure Retraces : Prop where
  /-- Nothing else leaves a flag behind. -/
  settles : ∀ tab event, Settled tab → (Settled (tabStep event tab) ↔ Moves tab event)
  /-- Back goes one page up the trail, and to the fallback where there is none. -/
  climbs : ∀ tab fallback, (tabs.restrict Moves).Reachable tab →
    (tabStep (.back fallback) tab).pathname = (trail tab).headD fallback ∧
      trail (tabStep (.back fallback) tab) = (trail tab).tail
  /-- An excursion ends where it began, and Back leads on as before, as far as the stack holds. -/
  returns : ∀ tab height events, (tabs.restrict Moves).Reachable tab →
    Excursion tab.pathname height events → height ≤ maxStack →
      (tabRun events tab).pathname = tab.pathname ∧
        trail (tabRun events tab) = (trail tab).take (maxStack - height)
  /-- One page deeper, Back no longer finds the page it began on. -/
  forgets : ∀ tab target fallback events, (tabs.restrict Moves).Reachable tab →
    target ≠ tab.pathname → Excursion target maxStack events →
      (tabRun (.navigate target :: events ++ [.back fallback]) tab).pathname = fallback

/-! ### The trail -/

theorem popOther_eq (page : Pathname) (stack : List Pathname) :
    popOther page stack =
      ((stack.dropWhile (· = page)).head?, (stack.dropWhile (· = page)).tail) := by
  induction stack with
  | nil => rfl
  | cons candidate rest inductionHypothesis =>
      by_cases same : candidate = page
      · simp [popOther, same, inductionHypothesis]
      · simp [popOther, same]

theorem popOther_trail (tab : Tab) :
    popOther tab.pathname tab.stack = ((trail tab).head?, (trail tab).tail) :=
  popOther_eq _ _

theorem dropWhile_eq_of_head {page : Pathname} {stack : List Pathname}
    (other : stack.head? ≠ some page) : stack.dropWhile (· = page) = stack := by
  cases stack with
  | nil => rfl
  | cons first rest =>
      have different : first ≠ page := by
        intro same
        exact other (by rw [same, List.head?_cons])
      simp [different]

theorem head_ne_of_isChain_cons {page : Pathname} {stack : List Pathname}
    (apart : (page :: stack).IsChain (· ≠ ·)) : stack.head? ≠ some page := by
  intro same
  exact (List.isChain_cons.mp apart).1 page same rfl

/-- At most one entry at the top of the stack is the page itself. -/
theorem trail_cases {tab : Tab} (settled : Settled tab) :
    (tab.stack = trail tab ∧ tab.stack.head? ≠ some tab.pathname) ∨
      tab.stack = tab.pathname :: trail tab := by
  by_cases top : tab.stack.head? = some tab.pathname
  · right
    obtain ⟨rest, stack⟩ := List.head?_eq_some_iff.mp top
    have apart := settled.apart
    rw [stack] at apart
    have kept : trail tab = rest := by
      unfold trail
      rw [stack, List.dropWhile_cons_of_pos (by simp)]
      exact dropWhile_eq_of_head (head_ne_of_isChain_cons apart)
    rw [kept, stack]
  · left
    refine ⟨?_, top⟩
    exact (dropWhile_eq_of_head top).symm

theorem trail_head_ne (tab : Tab) : (trail tab).head? ≠ some tab.pathname := by
  intro same
  have other := List.head?_dropWhile_not (· = tab.pathname) tab.stack
  unfold trail at same
  rw [same] at other
  simp at other

theorem trail_length_le {tab : Tab} (settled : Settled tab) : (trail tab).length ≤ maxStack := by
  calc
    (trail tab).length ≤ tab.stack.length := (List.dropWhile_suffix _).length_le
    _ ≤ maxStack := settled.bounded

theorem trail_isChain {tab : Tab} (settled : Settled tab) : (trail tab).IsChain (· ≠ ·) :=
  settled.apart.suffix (List.dropWhile_suffix _)

theorem isChain_cons_trail {tab : Tab} (settled : Settled tab) :
    (tab.pathname :: trail tab).IsChain (· ≠ ·) := by
  apply List.isChain_cons.mpr
  refine ⟨?_, trail_isChain settled⟩
  intro next top same
  exact trail_head_ne tab (by rw [same]; exact top)

/-- The stack once the page has been left: the page over its trail. -/
theorem recordNavigation_settled {tab : Tab} (settled : Settled tab) (target : Pathname) :
    recordNavigation tab.pathname { tab with pathname := target } =
      { tab with
        stack := (tab.pathname :: trail tab).take maxStack
        pathname := target } := by
  unfold recordNavigation
  simp only [settled.notGoingBack, settled.recording, Bool.false_eq_true, if_false]
  rcases trail_cases settled with ⟨stack, top⟩ | stack
  · rw [if_neg top]
    simp only [writeStack, ← stack]
  · have top : tab.stack.head? = some tab.pathname := by rw [stack, List.head?_cons]
    have bounded : (tab.pathname :: trail tab).length ≤ maxStack := by
      rw [← stack]
      exact settled.bounded
    rw [if_pos top, List.take_of_length_le bounded, ← stack]

/-! ### One event -/

theorem navigate_eq {tab : Tab} (settled : Settled tab) {target : Pathname}
    (away : target ≠ tab.pathname) :
    tabStep (.navigate target) tab =
      { tab with
        stack := (tab.pathname :: trail tab).take maxStack
        pathname := target
        previous := some target } := by
  have left : tab.pathname ≠ target := away.symm
  simp only [tabStep, routeTo, if_neg away, trackPath, settled.tracked, ne_eq, left,
    not_false_eq_true, if_true]
  rw [← settled.tracked, recordNavigation_settled settled target]

theorem redirect_eq {tab : Tab} (settled : Settled tab) {target : Pathname}
    (away : target ≠ tab.pathname) :
    tabStep (.redirect target) tab =
      { tab with pathname := target, previous := some target } := by
  have left : tab.pathname ≠ target := away.symm
  simp [tabStep, skipBackRecord, routeTo, away, trackPath, settled.tracked, left,
    recordNavigation, settled.notGoingBack, settled.recording]

theorem load_eq (target : Pathname) (tab : Tab) :
    tabStep (.load target) tab = { tab with pathname := target, previous := some target } :=
  rfl

theorem back_eq {tab : Tab} (settled : Settled tab) {fallback : Pathname}
    (moves : Moves tab (.back fallback)) :
    tabStep (.back fallback) tab =
      { tab with
        stack := (trail tab).tail
        pathname := (trail tab).headD fallback
        previous := some ((trail tab).headD fallback) } := by
  have away : (trail tab).headD fallback ≠ tab.pathname := by
    cases up : trail tab with
    | nil => exact moves up
    | cons page rest =>
        intro same
        apply trail_head_ne tab
        rw [up, List.head?_cons]
        exact congrArg some same
  have left : tab.pathname ≠ (trail tab).headD fallback := away.symm
  have bounded : (trail tab).tail.length ≤ maxStack := by
    rw [List.length_tail]
    have := trail_length_le settled
    omega
  have target : ((trail tab).head?).getD fallback = (trail tab).headD fallback :=
    (List.headD_eq_head?_getD).symm
  have popped : tabStep (.back fallback) tab =
      routeTo (((trail tab).head?).getD fallback)
        { writeStack (trail tab).tail tab with goingBack := true } := by
    simp only [tabStep, smartBack, popOther_trail]
  rw [popped, target]
  simp only [routeTo, writeStack, if_neg away, trackPath, settled.tracked, ne_eq, left,
    not_false_eq_true, if_true, recordNavigation, List.take_of_length_le bounded,
    settled.notGoingBack]

/-- On its own fallback Back goes nowhere, and its flag stays set. -/
theorem back_stays {tab : Tab} (up : trail tab = []) :
    tabStep (.back tab.pathname) tab = { tab with stack := [], goingBack := true } := by
  have popped : popOther tab.pathname tab.stack = (none, []) := by
    rw [popOther_trail, up]
    rfl
  simp [tabStep, smartBack, popped, routeTo, writeStack]

/-- Back leads one page up the trail. -/
theorem back_climbs {tab : Tab} (settled : Settled tab) (fallback : Pathname) :
    (tabStep (.back fallback) tab).pathname = (trail tab).headD fallback ∧
      trail (tabStep (.back fallback) tab) = (trail tab).tail := by
  by_cases moves : Moves tab (.back fallback)
  · rw [back_eq settled moves]
    refine ⟨rfl, ?_⟩
    cases up : trail tab with
    | nil => rfl
    | cons page rest =>
        have apart := trail_isChain settled
        rw [up] at apart
        exact dropWhile_eq_of_head (head_ne_of_isChain_cons apart)
  · obtain ⟨up, same⟩ : trail tab = [] ∧ fallback = tab.pathname := by
      simpa [Moves] using moves
    rw [same, back_stays up, up]
    exact ⟨rfl, rfl⟩

/-! ### The flags -/

theorem settled_of_moves {tab : Tab} {event : TabEvent} (settled : Settled tab)
    (moves : Moves tab event) : Settled (tabStep event tab) := by
  cases event with
  | navigate target =>
      by_cases away : target = tab.pathname
      · simpa [tabStep, routeTo, away] using settled
      · rw [navigate_eq settled away]
        exact {
          notGoingBack := settled.notGoingBack
          recording := settled.recording
          tracked := rfl
          apart := (isChain_cons_trail settled).take maxStack
          bounded := List.length_take_le maxStack _ }
  | redirect target =>
      rw [redirect_eq settled moves]
      exact { settled with tracked := rfl }
  | load target =>
      rw [load_eq]
      exact { settled with tracked := rfl }
  | back fallback =>
      rw [back_eq settled moves]
      have shorter := trail_length_le settled
      exact {
        notGoingBack := settled.notGoingBack
        recording := settled.recording
        tracked := rfl
        apart := (trail_isChain settled).tail
        bounded := by
          rw [List.length_tail]
          omega }

/-- A redirect or a Back that stays on its page leaves its flag for the next navigation. -/
theorem moves_of_settled {tab : Tab} {event : TabEvent}
    (after : Settled (tabStep event tab)) : Moves tab event := by
  cases event with
  | navigate target => trivial
  | load target => trivial
  | redirect target =>
      intro same
      have recording := after.recording
      simp [tabStep, skipBackRecord, routeTo, same] at recording
  | back fallback =>
      intro up same
      have notGoingBack := after.notGoingBack
      rw [same, back_stays up] at notGoingBack
      contradiction

theorem settled_of_reachable {tab : Tab} (reachable : (tabs.restrict Moves).Reachable tab) :
    Settled tab := by
  apply System.Reachable.invariant _ _ reachable
  · intro start initial
    obtain ⟨pathname, rfl⟩ := initial
    exact {
      notGoingBack := rfl
      recording := rfl
      tracked := rfl
      apart := .nil
      bounded := Nat.zero_le _ }
  · intro state event next settled stepped
    obtain ⟨moves, rfl⟩ := stepped
    exact settled_of_moves settled moves

/-! ### Excursions -/

theorem tabRun_append (earlier later : List TabEvent) (tab : Tab) :
    tabRun (earlier ++ later) tab = tabRun later (tabRun earlier tab) :=
  List.foldl_append

theorem tabRun_cons (event : TabEvent) (later : List TabEvent) (tab : Tab) :
    tabRun (event :: later) tab = tabRun later (tabStep event tab) :=
  rfl

/-- The doorways on the way into a page leave the stack alone. -/
theorem tabRun_redirects {tab : Tab} (settled : Settled tab) (doors : List Pathname)
    {target : Pathname} (way : (tab.pathname :: doors ++ [target]).IsChain (· ≠ ·)) :
    tabRun ((doors ++ [target]).map .redirect) tab =
      { tab with pathname := target, previous := some target } := by
  induction doors generalizing tab with
  | nil =>
      have away : target ≠ tab.pathname := by
        intro same
        simp [same] at way
      exact redirect_eq settled away
  | cons door doors inductionHypothesis =>
      have first := List.isChain_cons_cons.mp way
      have away : door ≠ tab.pathname := first.1.symm
      rw [List.cons_append, List.map_cons, tabRun_cons]
      have opened : Settled (tabStep (.redirect door) tab) := settled_of_moves settled away
      rw [redirect_eq settled away] at opened ⊢
      exact inductionHypothesis opened first.2

/-- Entering a page puts the one that was left over its trail, whatever doorways were met. -/
theorem tabRun_arrivals {tab : Tab} (settled : Settled tab) (doors : List Pathname)
    {target : Pathname} (way : (tab.pathname :: doors ++ [target]).IsChain (· ≠ ·)) :
    tabRun (arrivals (doors ++ [target])) tab =
      { tab with
        stack := (tab.pathname :: trail tab).take maxStack
        pathname := target
        previous := some target } := by
  cases doors with
  | nil =>
      have away : target ≠ tab.pathname := by
        intro same
        simp [same] at way
      exact navigate_eq settled away
  | cons door doors =>
      have first := List.isChain_cons_cons.mp way
      have away : door ≠ tab.pathname := first.1.symm
      have opened : Settled (tabStep (.navigate door) tab) := settled_of_moves settled trivial
      rw [List.cons_append, arrivals, tabRun_cons]
      rw [navigate_eq settled away] at opened ⊢
      exact tabRun_redirects opened doors first.2

theorem trail_of_entered {tab : Tab} (stack : List Pathname) {target : Pathname}
    (away : target ≠ tab.pathname) :
    trail { tab with
        stack := (tab.pathname :: stack).take maxStack
        pathname := target
        previous := some target } =
      (tab.pathname :: stack).take maxStack := by
  apply dropWhile_eq_of_head
  intro same
  apply away
  simpa [maxStack] using same.symm

theorem settled_arrivals {tab : Tab} (settled : Settled tab) (doors : List Pathname)
    {target : Pathname} (way : (tab.pathname :: doors ++ [target]).IsChain (· ≠ ·)) :
    Settled (tabRun (arrivals (doors ++ [target])) tab) := by
  rw [tabRun_arrivals settled doors way]
  exact {
    notGoingBack := settled.notGoingBack
    recording := settled.recording
    tracked := rfl
    apart := (isChain_cons_trail settled).take maxStack
    bounded := List.length_take_le maxStack _ }

/-- What an excursion leaves of the trail of the page it began on. -/
theorem run_of_excursion {page : Pathname} {height : Nat} {events : List TabEvent}
    (excursion : Excursion page height events) (bounded : height ≤ maxStack) {tab : Tab}
    (settled : Settled tab) (here : tab.pathname = page) :
    Settled (tabRun events tab) ∧ (tabRun events tab).pathname = page ∧
      trail (tabRun events tab) = (trail tab).take (maxStack - height) := by
  induction excursion generalizing tab with
  | stay page =>
      refine ⟨settled, here, ?_⟩
      exact (List.take_of_length_le (trail_length_le settled)).symm
  | @reload page height rest _ inductionHypothesis =>
      have loaded : Settled (tabStep (.load page) tab) := settled_of_moves settled trivial
      rw [load_eq] at loaded
      have later := inductionHypothesis bounded loaded rfl
      rw [tabRun_cons, load_eq]
      refine ⟨later.1, later.2.1, ?_⟩
      rw [later.2.2]
      simp only [trail, here]
  | @trip page target fallback doors depth height inside rest way away there later
      insideHypothesis laterHypothesis =>
      subst here
      have entered := tabRun_arrivals settled doors way
      have inTarget := settled_arrivals settled doors way
      have beneath := trail_of_entered (trail tab) away
      rw [← entered] at beneath
      obtain ⟨settledInside, target_eq, trailInside⟩ :=
        insideHypothesis (by omega) inTarget (by rw [entered])
      -- The page it began on is still the nearest of the trail, since the excursion inside was not
      -- deep enough to push it out.
      have kept : trail (tabRun inside (tabRun (arrivals (doors ++ [target])) tab)) =
          tab.pathname :: (trail tab).take (maxStack - (depth + 1)) := by
        rw [trailInside, beneath, List.take_take]
        have room : min (maxStack - depth) maxStack = maxStack - (depth + 1) + 1 := by omega
        rw [room, List.take_succ_cons]
      have moves : Moves (tabRun inside (tabRun (arrivals (doors ++ [target])) tab))
          (.back fallback) := by
        intro empty
        rw [kept] at empty
        contradiction
      have climbed := back_climbs settledInside fallback
      rw [kept] at climbed
      obtain ⟨settledLater, page_eq, trailLater⟩ :=
        laterHypothesis (by omega) (settled_of_moves settledInside moves) climbed.1
      rw [List.append_assoc, tabRun_append, tabRun_append, tabRun_cons]
      refine ⟨settledLater, page_eq, ?_⟩
      rw [trailLater, climbed.2, List.tail_cons, List.take_take]
      congr 1
      omega

/-! ### The Back arrow -/

theorem returns_of_excursion {tab : Tab} {height : Nat} {events : List TabEvent}
    (settled : Settled tab) (excursion : Excursion tab.pathname height events)
    (bounded : height ≤ maxStack) :
    (tabRun events tab).pathname = tab.pathname ∧
      trail (tabRun events tab) = (trail tab).take (maxStack - height) :=
  (run_of_excursion excursion bounded settled rfl).2

theorem forgets_of_excursion {tab : Tab} {target : Pathname} (fallback : Pathname)
    {events : List TabEvent} (settled : Settled tab) (away : target ≠ tab.pathname)
    (excursion : Excursion target maxStack events) :
    (tabRun (.navigate target :: events ++ [.back fallback]) tab).pathname = fallback := by
  have entered : Settled (tabStep (.navigate target) tab) := settled_of_moves settled trivial
  have there : (tabStep (.navigate target) tab).pathname = target := by
    rw [navigate_eq settled away]
  obtain ⟨settledInside, _, trailInside⟩ :=
    run_of_excursion excursion (Nat.le_refl _) entered there
  have empty : trail (tabRun events (tabStep (.navigate target) tab)) = [] := by
    rw [trailInside, Nat.sub_self, List.take_zero]
  rw [List.cons_append, tabRun_cons, tabRun_append]
  have climbed := back_climbs settledInside fallback
  rw [empty] at climbed
  exact climbed.1

theorem retraces : Retraces where
  settles _ _ settled := ⟨moves_of_settled, settled_of_moves settled⟩
  climbs _ fallback reachable := back_climbs (settled_of_reachable reachable) fallback
  returns _ _ _ reachable excursion bounded :=
    returns_of_excursion (settled_of_reachable reachable) excursion bounded
  forgets _ _ fallback _ reachable away excursion :=
    forgets_of_excursion fallback (settled_of_reachable reachable) away excursion

end Vidit.Navigation
