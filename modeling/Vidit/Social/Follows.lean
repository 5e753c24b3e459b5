import Mathlib.Data.List.Nodup
import Mathlib.Logic.Function.Basic
import Vidit.Library.Transition
import Vidit.Python.Uuid

/-!
Contract: following and unfollowing, interleaved statement by statement.

A follow checks for the edge, inserts it in a savepoint, looks for an earlier
notice and commits; an unfollow checks, deletes and commits. The primary key
makes an INSERT wait for whoever wrote the row and has not committed, and a
DELETE waits for another's DELETE.

Owns:
- `follow_user`, `unfollow_user` and `notify_new_follower` as the routes commit
  them, a lost connection at any statement, and notices a recipient deletes;
- that an edge has one notice at most, that every answer is true of some moment
  of its request, and that nobody waits for nothing.

Does not own: the accounts, which stay, and the email of a notice.

Proof shape: who wrote a row uncommitted is who its process says (`Sound.held`),
so the writer of an edge alone decides whether it is noticed.
-/

namespace Vidit.Social

open Vidit.Python Vidit.Library

/-- A row of `follows`, by its key. -/
structure Edge where
  follower : Uuid
  followed : Uuid
deriving DecidableEq, Repr

/-- A `new_follower` notification. -/
structure Notice where
  id : Nat
  edge : Edge
deriving DecidableEq, Repr

inductive FollowRequest where
  | follow (edge : Edge)
  | unfollow (edge : Edge)
deriving DecidableEq, Repr

/-- What a request does next. -/
inductive FollowProcess where
  | idle
  /-- It raised, or lost its connection. -/
  | failed
  | answered (request : FollowRequest) (result : Bool)
  /-- The SELECT of the edge. -/
  | check (request : FollowRequest)
  /-- The INSERT in its savepoint. -/
  | insert (edge : Edge)
  /-- The SELECT of an earlier notice. -/
  | noticeCheck (edge : Edge)
  /-- The COMMIT, of a notice as well when none was seen. -/
  | commitFollow (edge : Edge) (notice : Bool)
  | delete (edge : Edge)
  /-- The DELETE waits for another's. -/
  | waitDelete (edge : Edge)
  /-- The COMMIT, of a DELETE that matched the row or no row. -/
  | commitUnfollow (edge : Edge) (deleted : Bool)
deriving DecidableEq, Repr

namespace FollowProcess

def ended : FollowProcess → Bool
  | .idle | .failed | .answered _ _ => true
  | _ => false

/-- The row it has written and not committed. -/
def writes : FollowProcess → Option Edge
  | .noticeCheck edge | .commitFollow edge _ | .commitUnfollow edge true => some edge
  | _ => none

def request : FollowProcess → Option FollowRequest
  | .answered request _ | .check request => some request
  | .insert edge | .noticeCheck edge | .commitFollow edge _ => some (.follow edge)
  | .delete edge | .waitDelete edge | .commitUnfollow edge _ => some (.unfollow edge)
  | .idle | .failed => none

end FollowProcess

/-- What a request asks for is so. -/
def FollowRequest.isMet (follows : Edge → Bool) : FollowRequest → Bool
  | .follow edge => follows edge
  | .unfollow edge => !follows edge

structure FollowState where
  /-- The committed rows. -/
  follows : Edge → Bool
  notices : List Notice
  noticesDrawn : Nat
  /-- Whose INSERT or DELETE of a row is not committed. -/
  writer : Edge → Option Nat
  processes : Nat → FollowProcess
  /-- History: the edges of the notices deleted so far. -/
  dismissed : List Edge
  /-- History: the follows that answered `True`. -/
  made : Edge → Nat
  /-- History: the unfollows that deleted a row. -/
  removed : Edge → Nat
  /-- History: what a process was asked for has been so since its request began. -/
  met : Nat → Bool

inductive FollowLabel where
  | start (process : Nat) (request : FollowRequest)
  | run (process : Nat)
  | fail (process : Nat)
  /-- A recipient deletes a notice. -/
  | dismiss (notice : Nat)
deriving DecidableEq, Repr

/-- Why nothing happens. -/
inductive FollowRefusal where
  | busy
  | blocked
deriving DecidableEq, Repr

namespace FollowState

def put (state : FollowState) (process : Nat) (next : FollowProcess) : FollowState :=
  { state with processes := Function.update state.processes process next }

/-- The process writes the row, its transaction open. -/
def take (state : FollowState) (process : Nat) (edge : Edge) : FollowState :=
  { state with writer := Function.update state.writer edge (some process) }

/-- The transaction of the process ends. -/
def release (state : FollowState) (process : Nat) : FollowState :=
  { state with
    writer := fun edge => if state.writer edge = some process then none else state.writer edge }

/-- Whoever waits to delete a row that is gone matches none. -/
def wake (state : FollowState) (edge : Edge) : FollowState :=
  { state with
    processes := fun process =>
      if state.processes process = .waitDelete edge then .commitUnfollow edge false
      else state.processes process }

/-- Whether a notice of the edge is there. -/
def seen (state : FollowState) (edge : Edge) : Bool :=
  state.notices.any fun notice => notice.edge = edge

def commitFollow (state : FollowState) (process : Nat) (edge : Edge) (notice : Bool) :
    FollowState :=
  let after := (state.release process).put process (.answered (.follow edge) true)
  { after with
    follows := Function.update state.follows edge true
    notices := if notice then state.notices ++ [⟨state.noticesDrawn, edge⟩] else state.notices
    noticesDrawn := state.noticesDrawn + 1
    made := Function.update state.made edge (state.made edge + 1) }

def commitUnfollow (state : FollowState) (process : Nat) (edge : Edge) : FollowState :=
  let after := ((state.release process).wake edge).put process (.answered (.unfollow edge) true)
  { after with
    follows := Function.update state.follows edge false
    removed := Function.update state.removed edge (state.removed edge + 1) }

/-- A request is asked: nobody may follow themselves. -/
def start (state : FollowState) (process : Nat) (request : FollowRequest) : FollowState :=
  let asked := { state with met := Function.update state.met process false }
  match request with
  | .follow edge =>
    asked.put process (if edge.follower = edge.followed then .failed else .check request)
  | .unfollow _ => asked.put process (.check request)

/-- The next statement of a process. -/
def advance (state : FollowState) (process : Nat) : Except FollowRefusal FollowState :=
  match state.processes process with
  | .check (.follow edge) =>
    .ok (state.put process
      (if state.follows edge then .answered (.follow edge) false else .insert edge))
  | .insert edge =>
    if state.writer edge ≠ none then .error .blocked
    else if state.follows edge then .ok (state.put process (.answered (.follow edge) false))
    else .ok ((state.take process edge).put process (.noticeCheck edge))
  | .noticeCheck edge => .ok (state.put process (.commitFollow edge (!state.seen edge)))
  | .commitFollow edge notice => .ok (state.commitFollow process edge notice)
  | .check (.unfollow edge) =>
    .ok (state.put process
      (if state.follows edge then .delete edge else .answered (.unfollow edge) false))
  | .delete edge =>
    if state.follows edge = false then .ok (state.put process (.commitUnfollow edge false))
    else if state.writer edge ≠ none then .ok (state.put process (.waitDelete edge))
    else .ok ((state.take process edge).put process (.commitUnfollow edge true))
  | .waitDelete edge =>
    if state.writer edge ≠ none then .error .blocked
    else .ok ((state.take process edge).put process (.commitUnfollow edge true))
  | .commitUnfollow edge deleted =>
    .ok (if deleted then state.commitUnfollow process edge
      else state.put process (.answered (.unfollow edge) true))
  | .idle | .failed | .answered _ _ => .error .busy

/-- A recipient deletes a notice. -/
def dismiss (state : FollowState) (id : Nat) : FollowState :=
  { state with
    notices := state.notices.filter fun notice => notice.id ≠ id
    dismissed := (state.notices.filter fun notice => notice.id = id).map Notice.edge ++
      state.dismissed }

/-- Note what is so now. -/
def observe (state : FollowState) : FollowState :=
  { state with
    met := fun process =>
      state.met process || (state.processes process).request.any (·.isMet state.follows) }

end FollowState

def followStep : FollowLabel → FollowState → Except FollowRefusal FollowState
  | .start process request, state =>
    if (state.processes process).ended then .ok (state.start process request).observe
    else .error .busy
  | .run process, state => (state.advance process).map FollowState.observe
  | .fail process, state =>
    if (state.processes process).ended then .error .busy
    else .ok ((state.release process).put process .failed)
  | .dismiss id, state => .ok (state.dismiss id)

/-- Nobody follows anybody, and nothing is asked. -/
def FollowState.Init (state : FollowState) : Prop :=
  (∀ edge, state.follows edge = false) ∧ state.notices = [] ∧ (∀ edge, state.writer edge = none) ∧
    (∀ process, state.processes process = .idle) ∧ (∀ edge, state.made edge = 0) ∧
    ∀ edge, state.removed edge = 0

def followSystem : System FollowState FollowLabel :=
  .ofStep FollowState.Init followStep

/-- Following is idempotent, and notified once. -/
structure FollowsOnce : Prop where
  /-- An edge has one notice at most, however often it is removed and made again. -/
  oneNotice : ∀ {state}, followSystem.Reachable state → (state.notices.map Notice.edge).Nodup
  /-- An edge has its notice, unless its recipient deleted it. -/
  noticed : ∀ {state edge}, followSystem.Reachable state → state.follows edge = true →
    edge ∈ state.notices.map Notice.edge ∨ edge ∈ state.dismissed
  /-- A follow answers `True` once for each time the edge is made. -/
  counted : ∀ {state edge}, followSystem.Reachable state →
    state.made edge = state.removed edge + if state.follows edge then 1 else 0
  /-- What an answered request asked for was so at some moment since it began. -/
  answered : ∀ {state process request result}, followSystem.Reachable state →
    state.processes process = .answered request result → state.met process = true
  apart : ∀ {state edge}, followSystem.Reachable state → state.follows edge = true →
    edge.follower ≠ edge.followed
  /-- A request that has to wait waits for one that can go on. -/
  unblocked : ∀ {state process}, followSystem.Reachable state →
    (state.processes process).ended = false →
    (∃ next, followStep (.run process) state = .ok next) ∨
      ∃ edge other next, state.writer edge = some other ∧
        followStep (.run other) state = .ok next

/-! ### The invariant -/

/-- Who wrote a row uncommitted is who its process says. -/
def Held (writer : Edge → Option Nat) (writes : Nat → Option Edge) : Prop :=
  ∀ edge process, writer edge = some process ↔ writes process = some edge

namespace FollowState

/-- What each process has written and not committed. -/
def writes (state : FollowState) (process : Nat) : Option Edge :=
  (state.processes process).writes

/-- A notice of the edge is there, or was deleted. -/
def Noticed (state : FollowState) (edge : Edge) : Prop :=
  edge ∈ state.notices.map Notice.edge ∨ edge ∈ state.dismissed

/-- What holds of a process at its place; `met` is whether its request has been met. -/
def Fits (state : FollowState) (met : Bool) : FollowProcess → Prop
  | .idle | .failed | .check (.unfollow _) | .delete _ => True
  | .answered _ _ => met = true
  | .check (.follow edge) | .insert edge => edge.follower ≠ edge.followed
  | .noticeCheck edge => edge.follower ≠ edge.followed ∧ state.follows edge = false
  | .commitFollow edge notice =>
    edge.follower ≠ edge.followed ∧ state.follows edge = false ∧
      (notice = true → edge ∉ state.notices.map Notice.edge) ∧
      (notice = false → state.Noticed edge)
  | .waitDelete edge => state.follows edge = true
  | .commitUnfollow edge deleted =>
    (deleted = true → state.follows edge = true) ∧ (deleted = false → met = true)

/-- The invariant, with what is so now counted as met. -/
structure Sound (state : FollowState) : Prop where
  held : Held state.writer state.writes
  fits : ∀ process, state.Fits (state.observe.met process) (state.processes process)
  single : (state.notices.map Notice.edge).Nodup
  noticed : ∀ edge, state.follows edge = true → state.Noticed edge
  apart : ∀ edge, state.follows edge = true → edge.follower ≠ edge.followed
  counted : ∀ edge, state.made edge = state.removed edge + if state.follows edge then 1 else 0

/-- What is so now has been noted. -/
def Observed (state : FollowState) : Prop :=
  ∀ process, state.observe.met process = state.met process

variable {state next : FollowState} {actor process : Nat} {edge : Edge}

theorem observe_met_of_met (met : state.met process = true) :
    state.observe.met process = true := by
  show (state.met process || _) = true
  rw [met, Bool.true_or]

theorem observe_met_of_isMet (request : FollowRequest)
    (asked : (state.processes process).request = some request)
    (isMet : request.isMet state.follows = true) : state.observe.met process = true := by
  show (state.met process || (state.processes process).request.any _) = true
  rw [asked, Option.any_some, isMet, Bool.or_true]

theorem observed_observe (state : FollowState) : state.observe.Observed := by
  intro process
  simp [observe]

theorem Sound.observe (sound : state.Sound) : state.observe.Sound := by
  have same : ∀ process, state.observe.observe.met process = state.observe.met process :=
    observed_observe state
  refine ⟨sound.held, ?_, sound.single, sound.noticed, sound.apart, sound.counted⟩
  intro process
  rw [same]
  exact sound.fits process

/-! ### Who has written what -/

theorem held_take {writer : Edge → Option Nat} {writes : Nat → Option Edge}
    (held : Held writer writes) (free : writer edge = none) (idle : writes process = none) :
    Held (Function.update writer edge (some process))
      (Function.update writes process (some edge)) := by
  intro row other
  by_cases own : other = process
  · subst own
    rw [Function.update_self]
    by_cases here : row = edge
    · subst here
      rw [Function.update_self]
      simp
    · rw [Function.update_of_ne here, held, idle]
      simp [Ne.symm here]
  · rw [Function.update_of_ne own]
    by_cases here : row = edge
    · subst here
      rw [Function.update_self, ← held, free]
      simp [Ne.symm own]
    · rw [Function.update_of_ne here]
      exact held row other

theorem held_release {writer : Edge → Option Nat} {writes : Nat → Option Edge}
    (held : Held writer writes) (process : Nat) :
    Held (fun row => if writer row = some process then none else writer row)
      (Function.update writes process none) := by
  intro row other
  by_cases own : other = process
  · subst own
    rw [Function.update_self]
    by_cases mine : writer row = some other
    · simp [mine]
    · simp [mine]
  · rw [Function.update_of_ne own, ← held]
    show (if writer row = some process then none else writer row) = some other ↔ _
    by_cases mine : writer row = some process
    · rw [if_pos mine, mine]
      simp [Ne.symm own]
    · rw [if_neg mine]

/-- Two processes have not written one row. -/
theorem Sound.writes_ne (sound : state.Sound) (own : state.writes actor = some edge)
    (other : process ≠ actor) : state.writes process ≠ some edge := by
  intro written
  rw [← sound.held] at own written
  rw [own] at written
  exact other (Option.some.inj written).symm

theorem writes_put (state : FollowState) (process : Nat) (place : FollowProcess) :
    (state.put process place).writes =
      Function.update state.writes process place.writes := by
  funext other
  by_cases own : other = process
  · subst own
    simp [writes, put]
  · simp [writes, put, own]

theorem writes_wake (state : FollowState) (edge : Edge) :
    (state.wake edge).writes = state.writes := by
  funext process
  show FollowProcess.writes (if _ then _ else _) = _
  split
  · next waits =>
    rw [writes, waits]
    rfl
  · rfl

/-! ### What the others see -/

theorem Noticed.grow (noticed : state.Noticed edge)
    (notices : ∀ row, row ∈ state.notices.map Notice.edge →
      row ∈ next.notices.map Notice.edge ∨ row ∈ next.dismissed)
    (dismissed : ∀ row, row ∈ state.dismissed → row ∈ next.dismissed) : next.Noticed edge := by
  rcases noticed with there | gone
  · exact notices edge there
  · exact Or.inr (dismissed edge gone)

/-- A process fits its place after a step that leaves what its place says of its edge. -/
theorem Fits.frame {before after : Bool} {place : FollowProcess}
    (fits : state.Fits before place) (met : before = true → after = true)
    (written : ∀ row, place.writes = some row → next.follows row = state.follows row ∧
      (row ∉ state.notices.map Notice.edge → row ∉ next.notices.map Notice.edge))
    (noticed : ∀ row, state.Noticed row → next.Noticed row)
    (waits : ∀ row, place = .waitDelete row → next.follows row = true) :
    next.Fits after place := by
  cases place with
  | idle => trivial
  | failed => trivial
  | delete row => trivial
  | answered request result => exact met fits
  | check request =>
      cases request with
      | follow row => exact fits
      | unfollow row => trivial
  | insert row => exact fits
  | noticeCheck row => exact ⟨fits.1, (written row rfl).1.trans fits.2⟩
  | commitFollow row notice =>
      obtain ⟨apart, absent, unseen, wasSeen⟩ := fits
      exact ⟨apart, (written row rfl).1.trans absent,
        fun isNotice => (written row rfl).2 (unseen isNotice),
        fun noNotice => noticed row (wasSeen noNotice)⟩
  | waitDelete row => exact waits row rfl
  | commitUnfollow row deleted =>
      refine ⟨?_, fun missed => met (fits.2 missed)⟩
      intro isDeleted
      subst isDeleted
      exact (written row rfl).1.trans (fits.1 rfl)

/-! ### Steps that commit nothing -/

/-- The committed rows, and what was met, are as they were. -/
structure Keeps (actor : Nat) (state next : FollowState) : Prop where
  follows : next.follows = state.follows
  notices : next.notices = state.notices
  dismissed : next.dismissed = state.dismissed
  made : next.made = state.made
  removed : next.removed = state.removed
  met : ∀ process ≠ actor, next.met process = state.met process
  processes : ∀ process ≠ actor, next.processes process = state.processes process

/-- A step that commits nothing keeps the invariant when its process fits where it goes. -/
theorem Sound.keep (sound : state.Sound) (keeps : Keeps actor state next)
    (held : Held next.writer next.writes)
    (fits : next.Fits (next.observe.met actor) (next.processes actor)) : next.Sound where
  held := held
  fits := by
    intro process
    by_cases own : process = actor
    · subst own
      exact fits
    · have met : next.observe.met process = state.observe.met process := by
        show (next.met process || (next.processes process).request.any _) =
          (state.met process || (state.processes process).request.any _)
        rw [keeps.met process own, keeps.processes process own, keeps.follows]
      have waits : ∀ row, state.processes process = .waitDelete row →
          next.follows row = true := by
        intro row waiting
        have isThere := sound.fits process
        rw [waiting] at isThere
        rw [keeps.follows]
        exact isThere
      rw [met, keeps.processes process own]
      apply (sound.fits process).frame id
      · intro row written
        rw [keeps.follows, keeps.notices]
        exact ⟨rfl, id⟩
      · intro row noticed
        unfold Noticed
        rw [keeps.notices, keeps.dismissed]
        exact noticed
      · exact waits
  single := by
    rw [keeps.notices]
    exact sound.single
  noticed := by
    intro row isThere
    unfold Noticed
    rw [keeps.notices, keeps.dismissed]
    rw [keeps.follows] at isThere
    exact sound.noticed row isThere
  apart := by
    intro row isThere
    rw [keeps.follows] at isThere
    exact sound.apart row isThere
  counted := by
    intro row
    rw [keeps.made, keeps.removed, keeps.follows]
    exact sound.counted row

theorem keeps_put (state : FollowState) (actor : Nat) (place : FollowProcess) :
    Keeps actor state (state.put actor place) where
  follows := rfl
  notices := rfl
  dismissed := rfl
  made := rfl
  removed := rfl
  met := fun _ _ => rfl
  processes := fun _ other => Function.update_of_ne other ..

theorem keeps_take_put (state : FollowState) (actor : Nat) (edge : Edge)
    (place : FollowProcess) : Keeps actor state ((state.take actor edge).put actor place) where
  follows := rfl
  notices := rfl
  dismissed := rfl
  made := rfl
  removed := rfl
  met := fun _ _ => rfl
  processes := fun _ other => Function.update_of_ne other ..

/-- A process goes on, having written no more and no less. -/
theorem Sound.move (sound : state.Sound) {place : FollowProcess}
    (same : place.writes = state.writes actor)
    (fits : (state.put actor place).Fits ((state.put actor place).observe.met actor) place) :
    (state.put actor place).Sound := by
  apply sound.keep (keeps_put state actor place)
  · rw [writes_put, same, Function.update_eq_self]
    exact sound.held
  · have here : (state.put actor place).processes actor = place := Function.update_self ..
    rw [here]
    exact fits

/-- A process writes a row nobody has written. -/
theorem Sound.write (sound : state.Sound) {place : FollowProcess}
    (free : state.writer edge = none) (idle : state.writes actor = none)
    (writes : place.writes = some edge) (fits : state.Fits (state.met actor) place) :
    ((state.take actor edge).put actor place).Sound := by
  apply sound.keep (keeps_take_put state actor edge place)
  · rw [writes_put, writes]
    exact held_take sound.held free idle
  · have here : ((state.take actor edge).put actor place).processes actor = place :=
      Function.update_self ..
    rw [here]
    have kept : state.Fits (((state.take actor edge).put actor place).observe.met actor) place := by
      apply fits.frame
      · intro met
        exact observe_met_of_met met
      · exact fun row _ => ⟨rfl, id⟩
      · exact fun row noticed => noticed
      · intro row waiting
        rw [waiting] at writes
        contradiction
    exact kept

/-- A lost connection takes the writes of its transaction with it. -/
theorem Sound.rollBack (sound : state.Sound) :
    ((state.release actor).put actor .failed).Sound := by
  have keeps : Keeps actor state ((state.release actor).put actor .failed) :=
    ⟨rfl, rfl, rfl, rfl, rfl, fun _ _ => rfl, fun _ other => Function.update_of_ne other ..⟩
  apply sound.keep keeps
  · rw [writes_put]
    exact held_release sound.held _
  · have here : ((state.release actor).put actor .failed).processes actor = .failed :=
      Function.update_self ..
    rw [here]
    trivial

/-! ### Steps that commit -/

/-- A follow that commits makes its edge, and notices it unless it was noticed before. -/
theorem Sound.commitFollow (sound : state.Sound) (observed : state.Observed) {notice : Bool}
    (here : state.processes actor = .commitFollow edge notice) :
    (state.commitFollow actor edge notice).Sound := by
  obtain ⟨apart, absent, unseen, wasSeen⟩ : state.Fits _ (.commitFollow edge notice) := by
    have fits := sound.fits actor
    rwa [here] at fits
  have own : state.writes actor = some edge := by
    rw [writes, here]
    rfl
  have notices : ∀ row, row ∈ (state.commitFollow actor edge notice).notices.map Notice.edge ↔
      row ∈ state.notices.map Notice.edge ∨ notice = true ∧ row = edge := by
    intro row
    cases notice <;> simp [FollowState.commitFollow]
  have grows : ∀ row, state.Noticed row → (state.commitFollow actor edge notice).Noticed row := by
    intro row isNoticed
    exact isNoticed.grow (fun other there => Or.inl ((notices other).mpr (Or.inl there)))
      (fun other gone => gone)
  have noticed : (state.commitFollow actor edge notice).Noticed edge := by
    cases notice with
    | true => exact Or.inl ((notices edge).mpr (Or.inr ⟨rfl, rfl⟩))
    | false => exact grows edge (wasSeen rfl)
  have answered : (state.commitFollow actor edge notice).processes actor =
      .answered (.follow edge) true :=
    Function.update_self ..
  have isThere : (state.commitFollow actor edge notice).follows edge = true :=
    Function.update_self ..
  refine ⟨?_, ?_, ?_, ?_, ?_, ?_⟩
  · have released := held_release sound.held actor
    have writes : (state.commitFollow actor edge notice).writes =
        Function.update state.writes actor none :=
      writes_put state actor (.answered (.follow edge) true)
    rw [writes]
    exact released
  · intro process
    by_cases other : process = actor
    · subst other
      rw [answered]
      exact observe_met_of_isMet (.follow edge) (by rw [answered]; rfl) isThere
    · have same : (state.commitFollow actor edge notice).processes process =
          state.processes process :=
        Function.update_of_ne other ..
      rw [same]
      apply (sound.fits process).frame
      · intro met
        rw [observed] at met
        exact observe_met_of_met met
      · intro row written
        have different : row ≠ edge := by
          intro isEdge
          subst isEdge
          exact sound.writes_ne own other written
        refine ⟨Function.update_of_ne different .., ?_⟩
        intro unnoticed
        rw [notices]
        exact not_or.mpr ⟨unnoticed, fun added => different added.2⟩
      · exact grows
      · intro row waiting
        by_cases isEdge : row = edge
        · subst isEdge
          exact isThere
        · have fits := sound.fits process
          rw [waiting] at fits
          exact (Function.update_of_ne isEdge ..).trans fits
  · cases notice with
    | true =>
        have fresh := unseen rfl
        have list : (state.commitFollow actor edge true).notices.map Notice.edge =
            state.notices.map Notice.edge ++ [edge] := by
          simp [FollowState.commitFollow]
        rw [list, List.nodup_append]
        refine ⟨sound.single, List.nodup_singleton edge, ?_⟩
        intro row isOld other isNew same
        rw [List.mem_singleton] at isNew
        rw [same, isNew] at isOld
        exact fresh isOld
    | false => exact sound.single
  · intro row follows
    by_cases isEdge : row = edge
    · subst isEdge
      exact noticed
    · exact grows row (sound.noticed row ((Function.update_of_ne isEdge ..).symm.trans follows))
  · intro row follows
    by_cases isEdge : row = edge
    · subst isEdge
      exact apart
    · exact sound.apart row ((Function.update_of_ne isEdge ..).symm.trans follows)
  · intro row
    have before := sound.counted row
    by_cases isEdge : row = edge
    · subst isEdge
      rw [absent, if_neg Bool.false_ne_true] at before
      simp only [FollowState.commitFollow, put, release, Function.update_self, if_true]
      omega
    · simp only [FollowState.commitFollow, put, release, Function.update_of_ne isEdge]
      exact before

/-- An unfollow that commits removes its edge, and whoever waited to remove it finds none. -/
theorem Sound.commitUnfollow (sound : state.Sound) (observed : state.Observed)
    (here : state.processes actor = .commitUnfollow edge true) :
    (state.commitUnfollow actor edge).Sound := by
  have wasThere : state.follows edge = true := by
    have fits := sound.fits actor
    rw [here] at fits
    exact fits.1 rfl
  have own : state.writes actor = some edge := by
    rw [writes, here]
    rfl
  have answered : (state.commitUnfollow actor edge).processes actor =
      .answered (.unfollow edge) true :=
    Function.update_self ..
  have isGone : (state.commitUnfollow actor edge).follows edge = false :=
    Function.update_self ..
  refine ⟨?_, ?_, sound.single, ?_, ?_, ?_⟩
  · have released := held_release sound.held actor
    have writes : (state.commitUnfollow actor edge).writes =
        Function.update state.writes actor none := by
      have put := writes_put ((state.release actor).wake edge) actor
        (.answered (.unfollow edge) true)
      rw [writes_wake] at put
      exact put
    rw [writes]
    exact released
  · intro process
    by_cases other : process = actor
    · subst other
      rw [answered]
      exact observe_met_of_isMet (.unfollow edge) (by rw [answered]; rfl)
        (by rw [FollowRequest.isMet, isGone]; rfl)
    · have place : (state.commitUnfollow actor edge).processes process =
          if state.processes process = .waitDelete edge then .commitUnfollow edge false
          else state.processes process :=
        Function.update_of_ne other ..
      by_cases waiting : state.processes process = .waitDelete edge
      · rw [if_pos waiting] at place
        have met : (state.commitUnfollow actor edge).observe.met process = true :=
          observe_met_of_isMet (.unfollow edge) (by rw [place]; rfl)
            (by rw [FollowRequest.isMet, isGone]; rfl)
        rw [place]
        exact ⟨fun isDeleted => absurd isDeleted Bool.false_ne_true, fun _ => met⟩
      · rw [if_neg waiting] at place
        rw [place]
        apply (sound.fits process).frame
        · intro met
          rw [observed] at met
          exact observe_met_of_met met
        · intro row written
          have different : row ≠ edge := by
            intro isEdge
            subst isEdge
            exact sound.writes_ne own other written
          exact ⟨Function.update_of_ne different .., id⟩
        · exact fun row noticed => noticed
        · intro row isWaiting
          have different : row ≠ edge := by
            intro isEdge
            subst isEdge
            exact waiting isWaiting
          have fits := sound.fits process
          rw [isWaiting] at fits
          exact (Function.update_of_ne different ..).trans fits
  · intro row follows
    by_cases isEdge : row = edge
    · subst isEdge
      rw [isGone] at follows
      contradiction
    · exact sound.noticed row ((Function.update_of_ne isEdge ..).symm.trans follows)
  · intro row follows
    by_cases isEdge : row = edge
    · subst isEdge
      rw [isGone] at follows
      contradiction
    · exact sound.apart row ((Function.update_of_ne isEdge ..).symm.trans follows)
  · intro row
    have before := sound.counted row
    by_cases isEdge : row = edge
    · subst isEdge
      rw [wasThere, if_pos rfl] at before
      simp only [FollowState.commitUnfollow, put, wake, release, Function.update_self]
      exact before
    · simp only [FollowState.commitUnfollow, put, wake, release, Function.update_of_ne isEdge]
      exact before

theorem Sound.dismiss (sound : state.Sound) (observed : state.Observed) (id : Nat) :
    (state.dismiss id).Sound := by
  have noticed : ∀ row, state.Noticed row → (state.dismiss id).Noticed row := by
    intro row isNoticed
    apply isNoticed.grow
    · intro other there
      obtain ⟨notice, member, rfl⟩ := List.mem_map.mp there
      by_cases gone : notice.id = id
      · right
        apply List.mem_append_left
        exact List.mem_map_of_mem (List.mem_filter.mpr ⟨member, by simpa using gone⟩)
      · left
        exact List.mem_map_of_mem (List.mem_filter.mpr ⟨member, by simpa using gone⟩)
    · exact fun other gone => List.mem_append_right _ gone
  refine ⟨sound.held, ?_, ?_, fun row follows => noticed row (sound.noticed row follows),
    sound.apart, sound.counted⟩
  · intro process
    apply (sound.fits process).frame
    · intro met
      rw [observed] at met
      exact observe_met_of_met met
    · intro row written
      refine ⟨rfl, ?_⟩
      intro absent there
      obtain ⟨notice, member, rfl⟩ := List.mem_map.mp there
      exact absent (List.mem_map_of_mem (List.mem_filter.mp member).1)
    · exact noticed
    · intro row waiting
      have fits := sound.fits process
      rw [waiting] at fits
      exact fits
  · exact sound.single.sublist (List.filter_sublist.map _)

/-! ### Every step -/

theorem writes_of_ended (ended : (state.processes process).ended = true) :
    state.writes process = none := by
  unfold writes
  cases place : state.processes process <;> simp_all [FollowProcess.ended, FollowProcess.writes]

theorem Sound.start (sound : state.Sound) (ended : (state.processes actor).ended = true)
    (request : FollowRequest) : (state.start actor request).Sound := by
  have idle := writes_of_ended ended
  have keeps : ∀ place, Keeps actor state
      ({ state with met := Function.update state.met actor false }.put actor place) := by
    intro place
    exact ⟨rfl, rfl, rfl, rfl, rfl, fun _ other => Function.update_of_ne other ..,
      fun _ other => Function.update_of_ne other ..⟩
  have kept : ∀ place : FollowProcess, place.writes = none →
      (∀ met, state.Fits met place) →
      ({ state with met := Function.update state.met actor false }.put actor place).Sound := by
    intro place unwritten fits
    apply sound.keep (keeps place)
    · rw [writes_put, unwritten]
      have same : Function.update state.writes actor none = state.writes := by
        rw [← idle, Function.update_eq_self]
      show Held state.writer (Function.update state.writes actor none)
      rw [same]
      exact sound.held
    · have here : ({ state with met := Function.update state.met actor false }.put actor
          place).processes actor = place :=
        Function.update_self ..
      rw [here]
      exact fits _
  cases request with
  | follow edge =>
      by_cases self : edge.follower = edge.followed
      · simp only [FollowState.start, if_pos self]
        exact kept .failed rfl fun _ => trivial
      · simp only [FollowState.start, if_neg self]
        exact kept (.check (.follow edge)) rfl fun _ => self
  | unfollow edge => exact kept (.check (.unfollow edge)) rfl fun _ => trivial

/-- Every statement keeps the invariant. -/
theorem Sound.advance (sound : state.Sound) (observed : state.Observed)
    (stepped : state.advance actor = .ok next) : next.Sound := by
  have fits := sound.fits actor
  rw [observed] at fits
  unfold FollowState.advance at stepped
  split at stepped
  · next edge here =>
    cases stepped
    rw [here] at fits
    have idle : state.writes actor = none := by
      rw [writes, here]
      rfl
    by_cases isThere : state.follows edge = true
    · rw [if_pos isThere]
      apply sound.move
      · exact idle.symm
      · exact observe_met_of_isMet (.follow edge)
          (by simp [put, FollowProcess.request]) isThere
    · rw [if_neg isThere]
      apply sound.move
      · exact idle.symm
      · exact fits
  · next edge here =>
    rw [here] at fits
    have idle : state.writes actor = none := by
      rw [writes, here]
      rfl
    split at stepped
    · contradiction
    · next free =>
      split at stepped
      · next isThere =>
        cases stepped
        apply sound.move
        · exact idle.symm
        · exact observe_met_of_isMet (.follow edge)
            (by simp [put, FollowProcess.request]) isThere
      · next absent =>
        cases stepped
        exact sound.write (not_not.mp free) idle rfl ⟨fits, by simpa using absent⟩
  · next edge here =>
    cases stepped
    rw [here] at fits
    apply sound.move
    · rw [writes, here]
      rfl
    · refine ⟨fits.1, fits.2, ?_, ?_⟩
      · intro unseen
        simpa [seen, put] using unseen
      · intro wasSeen
        left
        simpa [seen, put] using wasSeen
  · next edge notice here =>
    cases stepped
    exact sound.commitFollow observed here
  · next edge here =>
    cases stepped
    have idle : state.writes actor = none := by
      rw [writes, here]
      rfl
    by_cases isThere : state.follows edge = true
    · rw [if_pos isThere]
      apply sound.move
      · exact idle.symm
      · trivial
    · rw [if_neg isThere]
      apply sound.move
      · exact idle.symm
      · exact observe_met_of_isMet (.unfollow edge)
          (by simp [put, FollowProcess.request])
          (by simpa [FollowRequest.isMet, put] using isThere)
  · next edge here =>
    have idle : state.writes actor = none := by
      rw [writes, here]
      rfl
    split at stepped
    · next absent =>
      cases stepped
      apply sound.move
      · exact idle.symm
      · refine ⟨fun isDeleted => absurd isDeleted Bool.false_ne_true, fun _ => ?_⟩
        exact observe_met_of_isMet (.unfollow edge)
          (by simp [put, FollowProcess.request]) (by simpa [FollowRequest.isMet, put] using absent)
    · next isThere =>
      rw [Bool.not_eq_false] at isThere
      split at stepped
      · cases stepped
        apply sound.move
        · exact idle.symm
        · exact isThere
      · next free =>
        cases stepped
        exact sound.write (not_not.mp free) idle rfl
          ⟨fun _ => isThere, fun kept => absurd kept.symm Bool.false_ne_true⟩
  · next edge here =>
    rw [here] at fits
    have idle : state.writes actor = none := by
      rw [writes, here]
      rfl
    split at stepped
    · contradiction
    · next free =>
      cases stepped
      exact sound.write (not_not.mp free) idle rfl
        ⟨fun _ => fits, fun kept => absurd kept.symm Bool.false_ne_true⟩
  · next edge deleted here =>
    cases stepped
    cases deleted with
    | true => exact sound.commitUnfollow observed here
    | false =>
        rw [here] at fits
        apply sound.move
        · rw [writes, here]
          rfl
        · exact observe_met_of_met (fits.2 rfl)
  all_goals contradiction

/-- The invariant of every run. -/
def Steady (state : FollowState) : Prop :=
  state.Sound ∧ state.Observed

theorem steady_of_reachable (reachable : followSystem.Reachable state) : state.Steady := by
  refine reachable.invariant ?_ ?_
  · intro start initial
    obtain ⟨follows, notices, writer, processes, made, removed⟩ := initial
    have idle : start.writes = fun _ => none := by
      funext process
      rw [writes, processes]
      rfl
    refine ⟨⟨?_, ?_, ?_, ?_, ?_, ?_⟩, ?_⟩
    · intro edge process
      simp [writer, idle]
    · intro process
      rw [processes]
      trivial
    · rw [notices]
      exact List.nodup_nil
    · intro edge isThere
      rw [follows] at isThere
      contradiction
    · intro edge isThere
      rw [follows] at isThere
      contradiction
    · intro edge
      rw [made, removed, follows]
      rfl
    · intro process
      simp [observe, processes, FollowProcess.request]
  · intro before label after invariant stepped
    obtain ⟨sound, observed⟩ := invariant
    change followStep label before = .ok after at stepped
    cases label with
    | start process request =>
        simp only [followStep] at stepped
        split at stepped
        · next ended =>
          cases stepped
          exact ⟨(sound.start ended request).observe, observed_observe _⟩
        · contradiction
    | run process =>
        simp only [followStep] at stepped
        cases advanced : before.advance process with
        | error refusal =>
            rw [advanced] at stepped
            contradiction
        | ok middle =>
            rw [advanced] at stepped
            cases stepped
            exact ⟨(sound.advance observed advanced).observe, observed_observe _⟩
    | fail process =>
        simp only [followStep] at stepped
        split at stepped
        · contradiction
        · cases stepped
          refine ⟨sound.rollBack, ?_⟩
          intro other
          by_cases own : other = process
          · subst own
            simp [observe, put, FollowProcess.request]
          · have same := observed other
            simpa [observe, put, release, own] using same
    | dismiss id =>
        cases stepped
        exact ⟨sound.dismiss observed id, observed⟩

end FollowState

/-! ### The result -/

/-- Who has written a row can go on. -/
theorem advance_of_writes {state : FollowState} {process : Nat} {edge : Edge}
    (written : state.writes process = some edge) :
    ∃ next, followStep (.run process) state = .ok next := by
  have advanced : ∃ next, state.advance process = .ok next := by
    unfold FollowState.writes at written
    unfold FollowState.advance
    cases place : state.processes process with
    | noticeCheck row => exact ⟨_, rfl⟩
    | commitFollow row notice => exact ⟨_, rfl⟩
    | commitUnfollow row deleted => exact ⟨_, rfl⟩
    | _ =>
        rw [place] at written
        contradiction
  obtain ⟨next, advanced⟩ := advanced
  refine ⟨next.observe, ?_⟩
  simp only [followStep, advanced]
  rfl

/-- However follows and unfollows interleave, and whenever a connection is lost, an edge has one
notice at most and has it unless its recipient deleted it, a follow answers `True` once for each
time its edge is made, every answer is true of a moment of its request, and whoever waits
waits for a transaction that can go on. -/
theorem followsOnce : FollowsOnce where
  oneNotice := fun reachable => (FollowState.steady_of_reachable reachable).1.single
  noticed := fun reachable isThere =>
    (FollowState.steady_of_reachable reachable).1.noticed _ isThere
  counted := fun reachable => (FollowState.steady_of_reachable reachable).1.counted _
  answered := by
    intro state process request result reachable answered
    obtain ⟨sound, observed⟩ := FollowState.steady_of_reachable reachable
    have fits := sound.fits process
    rw [answered, observed] at fits
    exact fits
  apart := fun reachable isThere => (FollowState.steady_of_reachable reachable).1.apart _ isThere
  unblocked := by
    intro state process reachable running
    have sound := (FollowState.steady_of_reachable reachable).1
    have holder : ∀ edge, state.writer edge ≠ none → ∃ edge other next,
        state.writer edge = some other ∧ followStep (.run other) state = .ok next := by
      intro edge taken
      obtain ⟨other, written⟩ := Option.ne_none_iff_exists'.mp taken
      obtain ⟨next, stepped⟩ := advance_of_writes ((sound.held edge other).mp written)
      exact ⟨edge, other, next, written, stepped⟩
    cases advanced : state.advance process with
    | ok next =>
        left
        refine ⟨next.observe, ?_⟩
        simp only [followStep, advanced]
        rfl
    | error refusal =>
        right
        unfold FollowState.advance at advanced
        split at advanced
        · contradiction
        · next edge here =>
          split at advanced
          · next taken => exact holder edge taken
          · split at advanced <;> contradiction
        · contradiction
        · contradiction
        · contradiction
        · split at advanced
          · contradiction
          · split at advanced <;> contradiction
        · next edge here =>
          split at advanced
          · next taken => exact holder edge taken
          · contradiction
        · contradiction
        all_goals simp_all [FollowProcess.ended]

end Vidit.Social
