import Vidit.Events.Outcomes
import Vidit.Reviews.Asking

/-!
Contract: the daily cap on the approval requests of one analyst.

Owns:
- what a request holds while it counts and commits (`Fits`), and the invariant of
  the runs that keep the cap (`Tracked`);
- `keepsDailyCap_of_stillCounted`, and the run in which an acceptance lifts the cap.

Proof shape: a requester's lock is held from the count to the commit, so the room
the count found is there at the commit; a request of the day is still a row
(`Linked`), so the count was no less than the log.
-/

namespace Vidit.Reviews

open Vidit.Python Vidit.Accounts Vidit.Events Vidit.Library Vidit.Library.Window

namespace AskState

variable {cap : Nat} {state next : AskState} {label : AskLabel}

/-! ### The rows of committed requests -/

/-- The row of a committed request stands on some event. -/
def Linked (state : AskState) (sent : Sent) : Prop :=
  ∃ id geo, state.events id = some geo ∧ ∃ request ∈ geo.approvalRequests,
    request.id = sent.id ∧ request.requesterId = sent.requesterId ∧
      request.createdAt = sent.createdAt

/-- A request outlives a write on its event, whatever becomes of its status. -/
def Outlives (after : Event) (request : ApprovalRequest) : Prop :=
  ∃ later ∈ after.approvalRequests, later.id = request.id ∧
    later.requesterId = request.requesterId ∧ later.createdAt = request.createdAt

theorem Outlives.of_mem {after : Event} {request : ApprovalRequest}
    (member : request ∈ after.approvalRequests) : Outlives after request :=
  ⟨request, member, rfl, rfl, rfl⟩

theorem Outlives.resolve {geo : Event} {request : ApprovalRequest}
    (member : request ∈ geo.approvalRequests) (resolves : ApprovalRequest → Bool)
    (status : ApprovalRequestStatus) (now : Instant) :
    Outlives (geo.resolveRequests resolves status now) request := by
  refine ⟨_, List.mem_map_of_mem member, ?_⟩
  split <;> exact ⟨rfl, rfl, rfl⟩

/-- A write on an event leaves its requests, but for those an acceptance deletes. -/
theorem outlives_of_act {id : Uuid} {geo after : Event} {verb : ReviewVerb}
    (acted : state.act id geo verb = .ok after) {request : ApprovalRequest}
    (member : request ∈ geo.approvalRequests) :
    Outlives after request ∨ ∃ userId, verb = .accept userId ∧
      request.targetUserId = some userId ∧ request.status = .open := by
  cases verb with
  | decline requestId userId =>
      simp only [act, bind_eq_ok] at acted
      rcases acted with ⟨user, _, declining⟩
      rw [declineRequest_ok declining]
      exact .inl (.resolve member _ _ _)
  | approve userId versionNo organization =>
      simp only [act, bind_eq_ok, mapError_eq_ok] at acted
      rcases acted with ⟨user, _, approving⟩
      refine .inl ?_
      rw [Outlives, approve_requests approving]
      exact Outlives.resolve member _ _ _
  | accept userId =>
      simp only [act, bind_eq_ok, mapError_eq_ok, user, orRefuse_eq_ok] at acted
      rcases acted with ⟨joiner, found, accepting⟩
      have isJoiner : joiner.id = userId := by
        simpa using List.find?_some found
      rw [Outlives, accept_requests accepting, isJoiner]
      by_cases asked : request.targetUserId = some userId ∧ request.status = .open
      · exact .inr ⟨userId, rfl, asked⟩
      · refine .inl ⟨request, ?_, rfl, rfl, rfl⟩
        rw [List.mem_filter]
        exact ⟨member, decide_eq_true asked⟩
  | remove actorId username =>
      simp only [act, bind_eq_ok, mapError_eq_ok] at acted
      rcases acted with ⟨actor, _, removing⟩
      rcases remove_ok removing with ⟨credit, items, _, _, _, rfl⟩
      exact .inl (.resolve member _ _ _)

theorem linked_setEvent {id : Uuid} {before after : Event} {sent : Sent}
    (isEvent : state.events id = some before) (linked : Linked state sent)
    (outlives : ∀ request ∈ before.approvalRequests, request.id = sent.id →
      Outlives after request) (events : next.events = Function.update state.events id (some after)) :
    Linked next sent := by
  rcases linked with ⟨other, geo, isGeo, request, member, sameId, sameRequester, sameStamp⟩
  unfold Linked
  rw [events]
  by_cases same : other = id
  · subst same
    rw [isEvent, Option.some.injEq] at isGeo
    subst isGeo
    rcases outlives request member sameId with ⟨later, isLater, laterId, laterRequester, laterStamp⟩
    exact ⟨other, after, Function.update_self .., later, isLater, laterId.trans sameId,
      laterRequester.trans sameRequester, laterStamp.trans sameStamp⟩
  · exact ⟨other, geo, (Function.update_of_ne same ..).trans isGeo, request, member, sameId,
      sameRequester, sameStamp⟩

/-! ### What a request holds -/

/-- The cap leaves room for one more request of the analyst. -/
def Room (cap : Nat) (state : AskState) (requesterId : Uuid) : Prop :=
  since Sent.at' (state.now - capWindow) (sentBy requesterId state.sent) < cap

/-- What a request holds while it counts and commits. -/
def Fits (cap : Nat) (state : AskState) (process : Nat) : AskProcess → Prop
  | .counting call _ _ => state.capLock call.requesterId = some process
  | .counted call _ _ => state.capLock call.requesterId = some process ∧
      Room cap state call.requesterId
  | .added call row => state.capLock call.requesterId = some process ∧
      Room cap state call.requesterId ∧ row.requesterId = call.requesterId ∧
      row.id ∈ state.used ∧ (∀ sent ∈ state.sent, sent.id ≠ row.id) ∧
      ∀ other call' row', state.processes other = .added call' row' → row'.id = row.id →
        other = process
  | _ => True

/-- The invariant of the runs that keep the cap. -/
structure Tracked (cap : Nat) (state : AskState) : Prop where
  known : ∀ {id geo}, state.events id = some geo → id ∈ state.eventIds
  kept : ∀ requesterId, Kept Sent.at' capWindow cap state.now (sentBy requesterId state.sent)
  apart : state.sent.Pairwise fun first second => first.id ≠ second.id
  used : ∀ sent ∈ state.sent, sent.id ∈ state.used
  linked : ∀ sent ∈ state.sent, state.now - capWindow ≤ sent.at' → Linked state sent
  fits : ∀ process, Fits cap state process (state.processes process)

theorem Initial.tracked (initial : state.Initial) : Tracked cap state where
  known here := by
    rw [initial.events] at here
    contradiction
  kept requesterId := by
    rw [initial.sent]
    exact .nil
  apart := by
    rw [initial.sent]
    exact .nil
  used sent member := by
    rw [initial.sent] at member
    exact absurd member List.not_mem_nil
  linked sent member := by
    rw [initial.sent] at member
    exact absurd member List.not_mem_nil
  fits process := by
    rw [initial.processes]
    trivial

/-- The lock of a requester is one request's. -/
theorem Fits.capLock {process : Nat} {running : AskProcess} (fits : Fits cap state process running)
    {requesterId : Uuid} (holds : running.capOf = some requesterId) :
    state.capLock requesterId = some process := by
  cases running with
  | counting call _ _ =>
      cases holds
      exact fits
  | counted call _ _ =>
      cases holds
      exact fits.1
  | added call row =>
      cases holds
      exact fits.1
  | _ => contradiction

/-- A process keeps what it holds through a step of the others. -/
theorem Fits.others {process : Nat} {running : AskProcess} (fits : Fits cap state process running)
    (capLock : ∀ requesterId, state.capLock requesterId = some process →
      next.capLock requesterId = some process)
    (room : ∀ requesterId, running.capOf = some requesterId → Room cap state requesterId →
      Room cap next requesterId)
    (used : ∀ id ∈ state.used, id ∈ next.used)
    (sent : ∀ call row, running = .added call row → ∀ sent ∈ next.sent,
      sent ∈ state.sent ∨ sent.id ≠ row.id)
    (added : ∀ call row, running = .added call row → ∀ other call' row',
      next.processes other = .added call' row' →
        row'.id ≠ row.id ∨ state.processes other = .added call' row') :
    Fits cap next process running := by
  cases running with
  | counting call _ _ => exact capLock _ fits
  | counted call _ _ => exact ⟨capLock _ fits.1, room _ rfl fits.2⟩
  | added call row =>
      rcases fits with ⟨held, wasRoom, sameRequester, isUsed, unsent, alone⟩
      refine ⟨capLock _ held, room _ rfl wasRoom, sameRequester, used _ isUsed, ?_, ?_⟩
      · intro entry member
        rcases sent call row rfl entry member with old | new
        · exact unsent entry old
        · exact new
      · intro other call' row' isAdded sameId
        rcases added call row rfl other call' row' isAdded with different | before
        · exact absurd sameId different
        · exact alone other call' row' before sameId
  | _ => trivial

/-! ### Steps that commit no request -/

/-- A step after which the log is as before. -/
theorem Tracked.beside (tracked : Tracked cap state) (forward : state.now ≤ next.now)
    (known : ∀ {id geo}, next.events id = some geo → id ∈ next.eventIds)
    (sent : next.sent = state.sent) (used : ∀ id ∈ state.used, id ∈ next.used)
    (linked : ∀ sent ∈ state.sent, next.now - capWindow ≤ sent.at' → Linked state sent →
      Linked next sent)
    (fits : ∀ process, Fits cap next process (next.processes process)) : Tracked cap next where
  known := known
  kept requesterId := by
    rw [sent]
    exact (tracked.kept requesterId).later forward
  apart := by
    rw [sent]
    exact tracked.apart
  used := by
    rw [sent]
    exact fun entry member => used _ (tracked.used entry member)
  linked := by
    rw [sent]
    intro entry member recent
    refine linked entry member recent (tracked.linked entry member ?_)
    exact le_trans (Int.sub_le_sub_right forward _) recent
  fits := fits

theorem Room.later (forward : state.now ≤ next.now) (sent : next.sent = state.sent)
    {requesterId : Uuid} (room : Room cap state requesterId) : Room cap next requesterId := by
  unfold Room at room ⊢
  rw [sent]
  exact lt_of_le_of_lt (since_antitone (Int.sub_le_sub_right forward _)) room

/-- A step of nobody's. -/
theorem Tracked.outside (tracked : Tracked cap state) (forward : state.now ≤ next.now)
    (known : ∀ {id geo}, next.events id = some geo → id ∈ next.eventIds)
    (sent : next.sent = state.sent) (used : next.used = state.used)
    (capLock : next.capLock = state.capLock) (processes : next.processes = state.processes)
    (linked : ∀ sent ∈ state.sent, next.now - capWindow ≤ sent.at' → Linked state sent →
      Linked next sent) : Tracked cap next := by
  refine tracked.beside forward known sent (fun id member => used ▸ member) linked ?_
  intro process
  rw [processes]
  refine (tracked.fits process).others ?_ ?_ ?_ ?_ ?_
  · intro requesterId held
    rw [capLock]
    exact held
  · exact fun requesterId _ room => room.later forward sent
  · exact fun id member => used ▸ member
  · intro _ _ _ entry member
    exact .inl (sent ▸ member)
  · intro _ _ _ other call' row' isAdded
    exact .inr (processes ▸ isAdded)

/-- A request runs a statement that commits nothing. -/
theorem Tracked.moved (tracked : Tracked cap state) {process : Nat} (running : AskProcess)
    (now : next.now = state.now) (events : next.events = state.events)
    (eventIds : next.eventIds = state.eventIds) (sent : next.sent = state.sent)
    (used : ∀ id ∈ state.used, id ∈ next.used)
    (processes : next.processes = Function.update state.processes process running)
    (capLock : ∀ other, other ≠ process → ∀ requesterId,
      state.capLock requesterId = some other → next.capLock requesterId = some other)
    (fresh : ∀ call row, running = .added call row → row.id ∉ state.used)
    (mine : Fits cap next process running) : Tracked cap next := by
  refine tracked.beside (le_of_eq now.symm) ?_ sent used ?_ ?_
  · intro id geo isEvent
    rw [events] at isEvent
    rw [eventIds]
    exact tracked.known isEvent
  · intro entry _ _ linked
    unfold Linked
    rw [events]
    exact linked
  · intro other
    rw [processes]
    by_cases same : other = process
    · subst same
      rw [Function.update_self]
      exact mine
    · rw [Function.update_of_ne same]
      refine (tracked.fits other).others (capLock other same) ?_ used ?_ ?_
      · exact fun requesterId _ room => room.later (le_of_eq now.symm) sent
      · intro _ _ _ entry member
        exact .inl (sent ▸ member)
      · intro call row isAdded third call' row' isThird
        rw [processes] at isThird
        by_cases isMover : third = process
        · subst isMover
          rw [Function.update_self] at isThird
          refine .inl ?_
          have held := tracked.fits other
          rw [isAdded] at held
          intro sameId
          exact fresh call' row' isThird (sameId ▸ held.2.2.2.1)
        · rw [Function.update_of_ne isMover] at isThird
          exact .inr isThird

/-- A request lets go of its locks. -/
theorem Tracked.released (tracked : Tracked cap state) (process : Nat) {running : AskProcess}
    (ended : running.ended = true) : Tracked cap (state.release process running) := by
  refine tracked.moved running rfl rfl rfl rfl (fun _ member => member) rfl ?_ ?_ ?_
  · intro other different requesterId held
    show (if state.capLock requesterId = some process then none
      else state.capLock requesterId) = some other
    rw [if_neg ?_, held]
    rw [held]
    exact fun same => different (Option.some.inj same)
  · rintro call row rfl
    contradiction
  · cases running <;> trivial

/-! ### The count and the commit -/

/-- Every request of the day is among those the count reads. -/
theorem Tracked.since_le_sentToday (tracked : Tracked cap state) (requesterId : Uuid)
    (stamped : ∀ sent ∈ sentBy requesterId state.sent, state.now - capWindow ≤ sent.at' →
      state.now - capWindow ≤ sent.createdAt) :
    since Sent.at' (state.now - capWindow) (sentBy requesterId state.sent) ≤
      state.sentToday requesterId := by
  unfold sentToday
  rw [← List.length_map (f := ApprovalRequest.id)]
  refine since_le_of_rows Sent.id ?_ ?_
  · exact tracked.apart.sublist (List.filter_sublist.trans List.filter_sublist)
  · intro sent member recent
    have young := stamped sent member recent
    unfold sentBy at member
    rw [List.mem_filter, decide_eq_true_eq] at member
    rcases tracked.linked sent member.1 recent with
      ⟨id, geo, isGeo, request, isRequest, sameId, sameRequester, sameStamp⟩
    rw [← sameId]
    refine List.mem_map_of_mem ?_
    rw [List.mem_filter, Bool.and_eq_true, decide_eq_true_eq, decide_eq_true_eq, sameRequester,
      sameStamp]
    refine ⟨?_, member.2, young⟩
    unfold requests
    rw [List.mem_flatMap]
    refine ⟨id, tracked.known isGeo, ?_⟩
    rw [isGeo]
    exact isRequest

/-- A request commits in the room its count found. -/
theorem Tracked.commits (tracked : Tracked cap state) {process : Nat} {call : AskCall}
    {row : ApprovalRequest} {geo : Event} (here : state.processes process = .added call row)
    (isGeo : state.events call.eventId = some geo) :
    Tracked cap (state.commit process call geo row) := by
  have fits := tracked.fits process
  rw [here] at fits
  rcases fits with ⟨held, room, sameRequester, isUsed, unsent, alone⟩
  have events : (state.commit process call geo row).events =
      Function.update state.events call.eventId (some (addRequest geo row)) := rfl
  have ofOther : ∀ {requesterId}, requesterId ≠ row.requesterId →
      sentBy requesterId (state.commit process call geo row).sent =
        sentBy requesterId state.sent := by
    intro requesterId different
    unfold sentBy
    exact List.filter_cons_of_neg (by simpa using different.symm)
  refine ⟨?_, ?_, ?_, ?_, ?_, ?_⟩
  · intro id other isEvent
    rw [events] at isEvent
    by_cases same : id = call.eventId
    · exact same ▸ tracked.known isGeo
    · rw [Function.update_of_ne same] at isEvent
      exact tracked.known isEvent
  · intro requesterId
    by_cases same : requesterId = row.requesterId
    · subst same
      have cons : sentBy row.requesterId (state.commit process call geo row).sent =
          { id := row.id, requesterId := row.requesterId, createdAt := row.createdAt
            at' := state.now } :: sentBy row.requesterId state.sent :=
        List.filter_cons_of_pos (decide_eq_true rfl)
      rw [cons]
      refine (tracked.kept row.requesterId).cons rfl ?_
      rw [sameRequester]
      exact room
    · rw [ofOther same]
      exact tracked.kept requesterId
  · refine List.pairwise_cons.mpr ⟨?_, tracked.apart⟩
    intro sent member same
    exact unsent sent member same.symm
  · intro sent member
    rcases List.mem_cons.mp member with rfl | old
    · exact isUsed
    · exact tracked.used sent old
  · intro sent member recent
    rcases List.mem_cons.mp member with rfl | old
    · refine ⟨call.eventId, addRequest geo row, Function.update_self .., row, ?_, rfl, rfl, rfl⟩
      exact List.mem_append_right _ (List.mem_singleton_self _)
    · refine linked_setEvent isGeo (tracked.linked sent old recent) ?_ events
      intro request isRequest _
      exact .of_mem (List.mem_append_left _ isRequest)
  · intro other
    have processes : (state.commit process call geo row).processes =
        Function.update state.processes process .idle := rfl
    rw [processes]
    by_cases same : other = process
    · subst same
      rw [Function.update_self]
      trivial
    · rw [Function.update_of_ne same]
      have others := tracked.fits other
      refine others.others ?_ ?_ (fun _ member => member) ?_ ?_
      · intro requesterId isHeld
        show (if state.capLock requesterId = some process then none
          else state.capLock requesterId) = some other
        rw [if_neg ?_, isHeld]
        rw [isHeld]
        exact fun mine => same (Option.some.inj mine)
      · intro requesterId holds otherRoom
        have different : requesterId ≠ row.requesterId := by
          rintro rfl
          have lock := others.capLock holds
          rw [sameRequester, held] at lock
          exact same (Option.some.inj lock).symm
        unfold Room
        rw [ofOther different]
        exact otherRoom
      · intro call' row' isAdded sent member
        rcases List.mem_cons.mp member with rfl | old
        · refine .inr ?_
          intro sameId
          exact same (alone other call' row' isAdded sameId.symm)
        · exact .inl old
      · intro _ row' _ third call'' row'' isThird
        rw [processes] at isThird
        by_cases isMover : third = process
        · subst isMover
          rw [Function.update_self] at isThird
          contradiction
        · rw [Function.update_of_ne isMover] at isThird
          exact .inr isThird

/-- A request moves to a place where it holds no lock of its requester. -/
theorem Tracked.waits (tracked : Tracked cap state) {process : Nat} (running : AskProcess)
    (free : running.capOf = none) (now : next.now = state.now)
    (events : next.events = state.events) (eventIds : next.eventIds = state.eventIds)
    (sent : next.sent = state.sent) (used : next.used = state.used)
    (processes : next.processes = Function.update state.processes process running)
    (capLock : next.capLock = state.capLock) : Tracked cap next := by
  refine tracked.moved running now events eventIds sent (fun id member => used ▸ member) processes
    (fun _ _ _ held => capLock ▸ held) ?_ ?_
  · rintro call row rfl
    contradiction
  · cases running <;> trivial

theorem Tracked.locksEvent (tracked : Tracked cap state) {process : Nat} {call : AskCall}
    (locking : state.lockEvent process call = .ok next) : Tracked cap next := by
  unfold lockEvent at locking
  split at locking
  · contradiction
  · split at locking
    · rename_i _ gone
      cases locking
      exact tracked.waits (.refused (.event .eventNotFound)) rfl rfl rfl rfl rfl rfl rfl
        rfl
    · rename_i refusal _ _
      cases locking
      exact tracked.waits (.refused refusal) rfl rfl rfl rfl rfl rfl rfl rfl
    · split at locking
      · rename_i refusal _
        cases locking
        exact tracked.waits (.refused refusal) rfl rfl rfl rfl rfl rfl rfl rfl
      · rename_i toUser toOrganization _
        cases locking
        exact tracked.waits (.checked call toUser toOrganization) rfl rfl rfl rfl rfl rfl
          rfl rfl

theorem Tracked.runs (tracked : Tracked cap state) (still : StillCounted state label)
    (stepped : state.run cap label = .ok next) : Tracked cap next := by
  cases label with
  | lockEvent process =>
      simp only [run] at stepped
      split at stepped
      · exact tracked.locksEvent stepped
      · contradiction
  | lockCap process =>
      simp only [run] at stepped
      split at stepped
      · rename_i call toUser toOrganization here
        split at stepped
        · contradiction
        · rename_i free
          cases stepped
          refine tracked.moved (.counting call toUser toOrganization) rfl rfl rfl rfl
            (fun _ member => member) rfl ?_ (fun _ _ isAdded => by contradiction)
            (Function.update_self ..)
          intro other _ requesterId held
          have different : requesterId ≠ call.requesterId := by
            rintro rfl
            rw [held] at free
            exact free (Option.some_ne_none _)
          exact (Function.update_of_ne different ..).trans held
      · contradiction
  | count process =>
      simp only [run] at stepped
      split at stepped
      · rename_i call toUser toOrganization here
        split at stepped
        · cases stepped
          exact tracked.released process rfl
        · rename_i passed
          cases stepped
          unfold checkDailyCap at passed
          rw [require_eq_ok] at passed
          have fits := tracked.fits process
          rw [here] at fits
          have counted := tracked.since_le_sentToday call.requesterId
            (still call.requesterId (by rw [here]; rfl))
          exact tracked.moved (.counted call toUser toOrganization) rfl rfl rfl rfl
            (fun _ member => member) rfl (fun _ _ _ held => held)
            (fun _ _ isAdded => by contradiction) ⟨fits, lt_of_le_of_lt counted passed⟩
      · contradiction
  | add process id =>
      simp only [run] at stepped
      split at stepped
      · rename_i call toUser toOrganization here
        split at stepped
        · rename_i geo requester isGeo found
          split at stepped
          · contradiction
          · rename_i fresh
            cases stepped
            have fits := tracked.fits process
            rw [here] at fits
            have isRequester : requester.id = call.requesterId := by
              simp only [user, orRefuse_eq_ok] at found
              simpa using List.find?_some found
            refine tracked.moved (.added call (newRequest (state.transaction id) geo
              requester toUser toOrganization)) rfl rfl rfl rfl
              (fun _ member => List.mem_cons_of_mem _ member) rfl (fun _ _ _ held => held) ?_ ?_
            · rintro _ _ ⟨⟩
              exact fresh
            · refine ⟨fits.1, fits.2, isRequester, List.mem_cons_self, ?_, ?_⟩
              · intro sent member same
                have isId : sent.id = id := same
                exact fresh (isId ▸ tracked.used sent member)
              · intro other call' row' isAdded sameId
                by_contra different
                have there : state.processes other = .added call' row' := by
                  rw [← isAdded]
                  exact (Function.update_of_ne different ..).symm
                have others := tracked.fits other
                rw [there] at others
                have isId : row'.id = id := sameId
                exact fresh (isId ▸ others.2.2.2.1)
        · cases stepped
          exact tracked.released process rfl
      · contradiction
  | commit process =>
      simp only [run] at stepped
      split at stepped
      · rename_i call row here
        split at stepped
        · rename_i geo isGeo
          cases stepped
          exact tracked.commits here isGeo
        · cases stepped
          exact tracked.released process rfl
      · contradiction
  | fail process =>
      cases stepped
      exact tracked.released process rfl
  | _ => contradiction

theorem Tracked.wrote (tracked : Tracked cap state) {id : Uuid} {before after : Event}
    (isEvent : state.events id = some before)
    (outlives : ∀ sent ∈ state.sent, state.now - capWindow ≤ sent.at' →
      ∀ request ∈ before.approvalRequests, request.id = sent.id → Outlives after request) :
    Tracked cap (state.setEvent id after) := by
  refine tracked.outside (le_refl _) ?_ rfl rfl rfl rfl ?_
  · intro other geo isGeo
    by_cases same : other = id
    · rw [same]
      exact tracked.known isEvent
    · exact tracked.known ((Function.update_of_ne same ..).symm.trans isGeo)
  · intro sent member recent linked
    exact linked_setEvent isEvent linked (outlives sent member recent) rfl

theorem Tracked.step (tracked : Tracked cap state) (still : StillCounted state label)
    (stepped : step cap label state = .ok next) : Tracked cap next := by
  unfold AskState.step at stepped
  split at stepped
  · split at stepped
    · contradiction
    · rename_i forward
      cases stepped
      exact tracked.outside (not_lt.mp forward) tracked.known rfl rfl rfl rfl
        (fun _ _ _ linked => linked)
  · cases stepped
    exact tracked.outside (le_refl _) tracked.known rfl rfl rfl rfl (fun _ _ _ linked => linked)
  · rename_i id geo
    split at stepped
    · contradiction
    · rename_i gone
      split at stepped
      · contradiction
      · cases stepped
        rw [not_not] at gone
        refine tracked.outside (le_refl _) ?_ rfl rfl rfl rfl ?_
        · intro other found isFound
          by_cases same : other = id
          · exact same ▸ List.mem_cons_self
          · exact List.mem_cons_of_mem _
              (tracked.known ((Function.update_of_ne same ..).symm.trans isFound))
        · rintro sent _ _ ⟨other, found, isFound, rest⟩
          have different : other ≠ id := by
            rintro rfl
            rw [gone] at isFound
            contradiction
          exact ⟨other, found, (Function.update_of_ne different ..).trans isFound, rest⟩
  · split at stepped
    · contradiction
    · rename_i before isBefore
      split at stepped
      · contradiction
      · split at stepped
        · contradiction
        · rename_i same
          cases stepped
          rw [not_not] at same
          refine tracked.wrote isBefore ?_
          intro sent _ _ request member _
          exact .of_mem (same ▸ member)
  · rename_i id verb
    split at stepped
    · contradiction
    · rename_i geo isGeo
      split at stepped
      · contradiction
      · split at stepped
        · contradiction
        · rename_i after acted
          cases stepped
          refine tracked.wrote isGeo ?_
          intro sent isSent recent request member sameId
          rcases outlives_of_act acted member with outlives | ⟨userId, rfl, target, isOpen⟩
          · exact outlives
          · have older := still geo isGeo request member target isOpen sent isSent sameId.symm
            exact absurd recent (not_le.mpr older)
  · rename_i process call
    split at stepped
    · cases stepped
      exact tracked.waits (.called call) rfl rfl rfl rfl rfl rfl rfl rfl
    · contradiction
  · exact tracked.runs still stepped

theorem tracked_of_reachable
    (reachable : ((askSystem cap).restrict StillCounted).Reachable state) : Tracked cap state := by
  refine System.Reachable.invariant Initial.tracked ?_ reachable
  rintro before label after tracked ⟨still, stepped⟩
  exact tracked.step still stepped

end AskState

open AskState

/-- Where acceptances and counts leave the day's requests counted, the cap holds in every
trailing day. -/
theorem keepsDailyCap_of_stillCounted (cap : Nat) :
    KeepsDailyCap cap ((askSystem cap).restrict StillCounted) := by
  intro state reachable requesterId hour
  exact ((tracked_of_reachable reachable).kept requesterId).within hour

/-! ### An acceptance between two requests -/

namespace Joining

/-- `approval_request_daily_cap`, as configured. -/
def dailyCap : Nat := 20

def analyst (id : Uuid) : User where
  id := id
  username := [id]
  email := []
  passwordHash := []
  isActive := true
  isAdmin := false
  lastSeenAt := none
  deletedAt := none
  tokenVersion := 0

def requester : Uuid := 1

/-- The analysts asked. -/
def targets : List Uuid :=
  List.range' 100 21

/-- A published event on which the first target is invited. -/
def geo : Event where
  id := 7
  ownerId := requester
  requestedById := none
  title := []
  coords := none
  proof := []
  occurredDate := none
  occurredTime := none
  requestedAt := none
  detectedAt := none
  geolocatedAt := some 0
  status := .geolocated
  createdAt := 0
  closedAt := none
  closeReason := none
  beforeClosedStatus := none
  deletedAt := none
  hiddenAt := none
  versionNo := 1
  media := []
  sources := []
  tags := []
  conflicts := []
  geolocators := [⟨requester, .active, none, some 0, none⟩, ⟨100, .invited, some 0, none, none⟩]
  detection := none
  versions := []
  approvals := []
  approvalRequests := []
  collectionItems := []

def start : AskState where
  now := 0
  users := []
  memberships := []
  eventIds := []
  events := fun _ => none
  eventLock := fun _ => none
  capLock := fun _ => none
  processes := fun _ => .idle
  used := []
  sent := []

theorem start_initial : start.Initial :=
  ⟨rfl, fun _ => rfl, fun _ => rfl, fun _ => rfl, fun _ => rfl, rfl, rfl⟩

/-- One request, from the call to its commit. -/
def asks (target : Uuid) : List AskLabel :=
  [.ask 0 { eventId := geo.id, requesterId := requester, target := .analyst [target], admitted := true },
    .lockEvent 0, .lockCap 0, .count 0, .add 0 target, .commit 0]

/-- Twenty requests, the acceptance of an invitation, and one more request. -/
def run : List AskLabel :=
  [.accounts ((requester :: targets).map analyst) [], .publish geo.id geo] ++
    (targets.take 20).flatMap asks ++ [.act geo.id (.accept 100)] ++ asks 120

theorem run_runs : ∃ final, System.runLabels (step dailyCap) run start = .ok final ∧
    trailing Sent.at' capWindow 0 (sentBy requester final.sent) = 21 :=
  ⟨_, rfl, rfl⟩

/-- The claim fails: who joins takes the request to them off the count. -/
theorem keepsDailyCap_fails : ¬ KeepsDailyCap dailyCap (askSystem dailyCap) := by
  intro keeps
  rcases run_runs with ⟨final, computed, count⟩
  have within := keeps ⟨start, start_initial, System.Run.of_runLabels computed⟩ requester 0
  rw [count] at within
  exact absurd within (by decide)

end Joining

end Vidit.Reviews
