import Vidit.Events.ApprovalRequests
import Vidit.World.Credit

/-!
Contract: approval requests beside every other write on the deployment.

Owns:
- the deployment with `request_approval` and `decline` added to its requests;
- `RequestsKept`, what is true of the requests of an event, and that every write
  keeps it;
- `requestProtocol`: who may be asked and by whom, that a request is asked once,
  resolved once and answered by an approval.

Does not own: the credit the requests stand on (`Vidit.World.Credit`).
-/

namespace Vidit.World

open Vidit.Python Vidit.Accounts Vidit.Evidence Vidit.Events Vidit.Library

variable {config : Config} {state next final : State} {survivors : List User}

/-! ### The system -/

/-- A request to the deployment, or a write of the approval requests. -/
inductive ReviewLabel where
  | deployment (label : Label)
  | requestApproval (eventId requesterId : Uuid) (target : ApprovalTarget) (admitted : Bool)
  | declineRequest (eventId requestId userId : Uuid)

namespace State

/-- The requests an analyst sent in the trailing day. -/
def sentToday (state : State) (requesterId : Uuid) : Nat :=
  ((state.events.flatMap Event.approvalRequests).filter fun request =>
    request.requesterId = requesterId ∧ state.now - capWindow ≤ request.createdAt).length

def requestApproval (config : Config) (cap : Nat) (state : State) (eventId requesterId : Uuid)
    (target : ApprovalTarget) (admitted : Bool) : Except ApprovalRequestError State := do
  let requester ← (state.actor requesterId).mapError .event
  let geo ← (state.lockEvent eventId).mapError .event
  let requested ← Events.requestApproval (state.transaction config) geo requester target admitted
    (state.sentToday requester.id) cap
  pure { state with events := state.put requested, drawn := state.drawn + 1 }

def declineRequest (config : Config) (state : State) (eventId requestId userId : Uuid) :
    Except ApprovalRequestError State := do
  let user ← (state.actor userId).mapError .event
  let geo ← (state.lockEvent eventId).mapError .event
  let declined ← Events.declineRequest (state.transaction config) geo requestId user
  pure { state with events := state.put declined }

end State

def reviewStep (config : Config) (cap : Nat) (label : ReviewLabel) (state : State) :
    Except ApprovalRequestError State :=
  match label with
  | .deployment label => (step config label state).mapError .event
  | .requestApproval eventId requesterId target admitted =>
    state.requestApproval config cap eventId requesterId target admitted
  | .declineRequest eventId requestId userId =>
    state.declineRequest config eventId requestId userId

/-- The deployment and its approval requests, under every interleaving; `cap` is
`approval_request_daily_cap`. -/
def reviewSystem (config : Config) (cap : Nat) : System State ReviewLabel :=
  System.ofStep (fun state => ∃ now, state = initial now) (reviewStep config cap)

/-- What the approval requests of an event promise in every state. -/
structure RequestProtocol (system : System State ReviewLabel) : Prop where
  /-- One open request for each requester and target. -/
  single : ∀ {state geo}, system.Reachable state → geo ∈ state.events →
    ∀ requesterId targetUserId targetOrganizationId, (geo.approvalRequests.filter fun request =>
      request.status = .open ∧ request.requesterId = requesterId ∧
        request.targetUserId = targetUserId ∧
        request.targetOrganizationId = targetOrganizationId).length ≤ 1
  /-- Nobody ever credited is asked. -/
  independent : ∀ {state geo}, system.Reachable state → geo ∈ state.events →
    ∀ request ∈ geo.approvalRequests, request.status = .open →
      ∀ userId, request.targetUserId = some userId → userId ∉ geo.everCreditedIds
  /-- Who asks is credited. -/
  credited : ∀ {state geo}, system.Reachable state → geo ∈ state.events →
    ∀ request ∈ geo.approvalRequests, request.status = .open →
      request.requesterId = geo.ownerId ∨ request.requesterId ∈ geo.activeIds
  /-- What is resolved stays resolved. -/
  resolved : ∀ {state final geo last}, system.Reachable state → system.Run state final →
    geo ∈ state.events → last ∈ final.events → last.id = geo.id →
      ∀ request ∈ geo.approvalRequests, request.status ≠ .open →
        ∀ later ∈ last.approvalRequests, later.id = request.id → later.status ≠ .open
  /-- An approval answers the requests it was asked for. -/
  answered : ∀ {state next eventId userId versionNo organization geo}, system.Reachable state →
    system.Step state
      (.deployment ⟨.approve eventId userId versionNo organization, true⟩) next →
    geo ∈ next.events → geo.id = eventId → ∀ request ∈ geo.approvalRequests,
      addressedTo userId (organization.map Organization.id) request = true →
        request.status ≠ .open

/-! ### The requests of one event -/

/-- An open request stands on the credit of its event. -/
structure Standing (review : Review Uuid Uuid) (request : ApprovalRequest) : Prop where
  published : review.published = true
  stranger : ∀ userId, request.targetUserId = some userId → userId ∉ review.ever
  credited : request.requesterId ∈ review.active

/-- Two open requests of one requester to one target. -/
def Twins (left right : ApprovalRequest) : Prop :=
  left.status = .open ∧ right.status = .open ∧ left.requesterId = right.requesterId ∧
    left.targetUserId = right.targetUserId ∧
    left.targetOrganizationId = right.targetOrganizationId

structure RequestsKept (geo : Event) : Prop where
  standing : ∀ request ∈ geo.approvalRequests, request.status = .open →
    Standing (reviewOf geo) request
  single : geo.approvalRequests.Pairwise fun left right => ¬ Twins left right
  ids : (geo.approvalRequests.map ApprovalRequest.id).Nodup

/-- The same request, resolved or not. -/
structure Ages (before after : ApprovalRequest) : Prop where
  id : after.id = before.id
  same : after.status = .open → after = before

/-- A write that adds no request, and opens none. -/
def Winds (row geo : Event) : Prop :=
  ∃ (keep : ApprovalRequest → Bool) (change : ApprovalRequest → ApprovalRequest),
    (∀ request, Ages request (change request)) ∧
      geo.approvalRequests = (row.approvalRequests.filter keep).map change

theorem Ages.refl (request : ApprovalRequest) : Ages request request :=
  ⟨rfl, fun _ => rfl⟩

theorem Ages.resolve (resolves : ApprovalRequest → Bool) {status : ApprovalRequestStatus}
    (now : Instant) (closes : status ≠ .open) (request : ApprovalRequest) :
    Ages request (if resolves request ∧ request.status = .open then
      { request with status := status, resolvedAt := some now } else request) := by
  split
  · exact ⟨rfl, fun standing => absurd standing closes⟩
  · exact .refl request

theorem Winds.of_same {row geo : Event}
    (requests : geo.approvalRequests = row.approvalRequests) : Winds row geo :=
  ⟨fun _ => true, id, .refl, by simp [requests]⟩

theorem Winds.of_filter {row geo : Event} (keep : ApprovalRequest → Bool)
    (requests : geo.approvalRequests = row.approvalRequests.filter keep) : Winds row geo :=
  ⟨keep, id, .refl, by simp [requests]⟩

theorem Winds.of_resolve {row geo : Event} (resolves : ApprovalRequest → Bool)
    {status : ApprovalRequestStatus} (now : Instant) (closes : status ≠ .open)
    (requests : geo.approvalRequests =
      (row.resolveRequests resolves status now).approvalRequests) : Winds row geo :=
  ⟨fun _ => true, _, .resolve resolves now closes, by
    rw [requests]
    simp [Event.resolveRequests]⟩

/-- What a resolution leaves open it did not pick. -/
theorem open_of_mem_resolve {row : Event} {resolves : ApprovalRequest → Bool}
    {status : ApprovalRequestStatus} {now : Instant} (closes : status ≠ .open)
    {request : ApprovalRequest}
    (member : request ∈ (row.resolveRequests resolves status now).approvalRequests)
    (isOpen : request.status = .open) :
    request ∈ row.approvalRequests ∧ resolves request = false := by
  rcases List.mem_map.mp member with ⟨before, inRows, rfl⟩
  split at isOpen
  · exact absurd isOpen closes
  · rename_i unresolved
    rw [if_neg unresolved]
    refine ⟨inRows, ?_⟩
    rw [← Bool.not_eq_true]
    exact fun picked => unresolved ⟨picked, isOpen⟩

/-- An open request after such a write was there before. -/
theorem Winds.open_mem {row geo : Event} (winds : Winds row geo) {request : ApprovalRequest}
    (member : request ∈ geo.approvalRequests) (standing : request.status = .open) :
    request ∈ row.approvalRequests := by
  rcases winds with ⟨keep, change, ages, requests⟩
  rw [requests] at member
  rcases List.mem_map.mp member with ⟨before, inRows, rfl⟩
  rw [(ages before).same standing]
  exact List.mem_of_mem_filter inRows

theorem Winds.id_mem {row geo : Event} (winds : Winds row geo) {request : ApprovalRequest}
    (member : request ∈ geo.approvalRequests) :
    ∃ before ∈ row.approvalRequests, before.id = request.id := by
  rcases winds with ⟨keep, change, ages, requests⟩
  rw [requests] at member
  rcases List.mem_map.mp member with ⟨before, inRows, rfl⟩
  exact ⟨before, List.mem_of_mem_filter inRows, (ages before).id.symm⟩

theorem RequestsKept.winds {row geo : Event} (kept : RequestsKept row) (winds : Winds row geo)
    (standing : ∀ request ∈ geo.approvalRequests, request.status = .open →
      Standing (reviewOf row) request → Standing (reviewOf geo) request) :
    RequestsKept geo := by
  refine ⟨fun request member isOpen => standing request member isOpen
    (kept.standing request (winds.open_mem member isOpen) isOpen), ?_, ?_⟩
  · rcases winds with ⟨keep, change, ages, requests⟩
    have apart : ∀ left right, ¬ Twins left right → ¬ Twins (change left) (change right) := by
      rintro left right apart ⟨leftOpen, rightOpen, same⟩
      have leftSame := (ages left).same leftOpen
      have rightSame := (ages right).same rightOpen
      rw [leftSame] at leftOpen same
      rw [rightSame] at rightOpen same
      exact apart ⟨leftOpen, rightOpen, same⟩
    rw [requests, List.pairwise_map]
    exact (kept.single.filter keep).imp fun {left right} => apart left right
  · rcases winds with ⟨keep, change, ages, requests⟩
    rw [requests, List.map_map]
    have same : ApprovalRequest.id ∘ change = ApprovalRequest.id := by
      funext request
      exact (ages request).id
    rw [same]
    exact kept.ids.sublist (List.filter_sublist.map _)

/-! ### Every write keeps the requests -/

/-- A write that moves nothing of the credit of a published event. -/
theorem Standing.of_rows {row geo : Event} {request : ApprovalRequest}
    (standing : Standing (reviewOf row) request)
    (geolocators : geo.geolocators = row.geolocators)
    (status : isUnpublished geo.openStatus = isUnpublished row.openStatus) :
    Standing (reviewOf geo) request := by
  rcases standing with ⟨published, stranger, credited⟩
  simp only [reviewOf, IsActive, WasActive] at published stranger credited
  refine ⟨?_, ?_, ?_⟩
  · simpa only [reviewOf, status] using published
  · simpa only [reviewOf, WasActive, geolocators] using stranger
  · simpa only [reviewOf, IsActive, geolocators] using credited

/-- No request stands on a draft. -/
theorem Standing.not_draft {row : Event} {request : ApprovalRequest}
    (standing : Standing (reviewOf row) request) :
    isUnpublished row.openStatus ≠ true := by
  intro draft
  have published := standing.published
  simp [reviewOf, draft] at published

/-- A change leaves the requests of an event as they stand. -/
structure KeepsRequests (row geo : Event) : Prop where
  winds : Winds row geo
  standing : ∀ request ∈ geo.approvalRequests, request.status = .open →
    Standing (reviewOf row) request → Standing (reviewOf geo) request

theorem KeepsRequests.of_rows {row geo : Event}
    (requests : geo.approvalRequests = row.approvalRequests)
    (geolocators : geo.geolocators = row.geolocators)
    (status : isUnpublished geo.openStatus = isUnpublished row.openStatus) :
    KeepsRequests row geo :=
  ⟨.of_same requests, fun _ _ _ standing => standing.of_rows geolocators status⟩

theorem KeepsRequests.of_draft {row geo : Event}
    (requests : geo.approvalRequests = row.approvalRequests)
    (draft : isUnpublished row.openStatus = true) : KeepsRequests row geo :=
  ⟨.of_same requests, fun _ _ _ standing => absurd draft standing.not_draft⟩

theorem KeepsRequests.of_review {row geo : Event}
    (requests : geo.approvalRequests = row.approvalRequests)
    (review : reviewOf geo = reviewOf row) : KeepsRequests row geo :=
  ⟨.of_same requests, fun _ _ _ standing => review ▸ standing⟩

theorem Edited.keeps_requests {row : Event} {written : Written} (phased : Phased row)
    (edited : Edited config state row written) : KeepsRequests row written.event := by
  cases edited with
  | updated _ updating =>
      rcases updateRequest_ok updating with ⟨_, _, _, _, _, _, finishing⟩
      rcases finishWrite_event finishing with ⟨_, _, _, event⟩
      rw [event]
      exact .of_rows rfl rfl rfl
  | saved standing saving =>
      rcases saveVersion_ok saving with ⟨_, _, credited, opened, _, crediting, finishing⟩
      rcases finishWrite_event finishing with ⟨_, _, _, event⟩
      rcases saveVersion_event saving with ⟨_, _, _, _, _, whole⟩
      have left := phased.opened opened
      unfold creditOnPublish at crediting
      split at crediting
      · rename_i publishing
        refine .of_draft ?_ ?_
        · rw [whole]
          rfl
        · rw [phased.openStatus opened]
          exact publishing
      · rename_i published
        rw [pure_eq_ok] at crediting
        subst crediting
        rw [event]
        refine .of_rows rfl rfl ?_
        simp [Event.openStatus, editFields, filedEvent, left, published]

theorem inviting_keeps_requests {tx : Events.Transaction} {row geo : Event} {username : Str}
    (kept : RowsKept row) (staging : stageInvite tx row username = .ok geo) :
    KeepsRequests row geo := by
  refine .of_review ?_ (stageInvite_review kept staging).2
  rcases stageInvite_ok staging with ⟨_, _, _, _, _, _, _, rfl⟩
  rfl

theorem ending_keeps_requests {row : Event} {userId : Uuid} {stored : EventGeolocator}
    (kept : RowsKept row) (finding : inviteRow row userId = .ok stored) :
    KeepsRequests row (endInvitation row stored) := by
  have found := inviteRow_ok finding
  refine .of_review ?_ (endInvitation_review kept found.1 found.2).2
  rcases endInvitation_event row stored with ⟨_, event⟩
  rw [event]

/-- Who joins takes their own requests along. -/
theorem joining_keeps_requests {tx : Events.Transaction} {row geo : Event} {user : User}
    (kept : RowsKept row) (accepting : accept tx row user = .ok geo) :
    KeepsRequests row geo := by
  have requests := accept_requests accepting
  refine ⟨.of_filter _ requests, ?_⟩
  intro request member isOpen standing
  rw [requests, List.mem_filter, decide_eq_true_eq] at member
  rw [(accept_review kept accepting).2]
  refine ⟨standing.published, ?_, Set.mem_insert_of_mem _ standing.credited⟩
  rintro userId asked (rfl | credited)
  · exact member.2 ⟨asked, isOpen⟩
  · exact standing.stranger userId asked credited

/-- Who leaves withdraws what they asked. -/
theorem leaving_keeps_requests {tx : Events.Transaction} {row geo : Event} {user : User}
    {username : Str} (kept : RowsKept row)
    (removing : remove tx row user username = .ok geo) : KeepsRequests row geo := by
  rcases remove_review kept removing with ⟨userId, _, _, requests, review⟩
  refine ⟨.of_resolve _ tx.now (by decide) requests, ?_⟩
  intro request member isOpen standing
  rw [review]
  refine ⟨standing.published, standing.stranger, standing.credited, ?_⟩
  intro asker
  rw [requests] at member
  have unresolved := (open_of_mem_resolve (by decide) member isOpen).2
  simp only [decide_eq_false_iff_not] at unresolved
  exact unresolved asker

theorem CreditVerb.keeps_requests {tx : Events.Transaction} {row geo : Event} {user : User}
    {verb : CreditVerb} (kept : RowsKept row) (running : verb.run tx row user = .ok geo) :
    KeepsRequests row geo := by
  cases verb with
  | invite username => exact inviting_keeps_requests kept (invite_ok running)
  | withdraw username =>
      rcases withdraw_ok running with ⟨_, stored, finding, rfl⟩
      exact ending_keeps_requests kept finding
  | decline =>
      rcases decline_ok running with ⟨stored, finding, rfl⟩
      exact ending_keeps_requests kept finding
  | accept => exact joining_keeps_requests kept running
  | remove username => exact leaving_keeps_requests kept running

theorem Moved.keeps_requests {row geo : Event} (phased : Phased row) (kept : RowsKept row)
    (moved : Moved config state row geo) : KeepsRequests row geo := by
  cases moved with
  | published _ publishing =>
      rcases publishDetection_ok publishing with ⟨_, _, detected, rfl⟩
      refine .of_draft rfl ?_
      rw [phased.openStatus (by simp [detected]), detected]
      rfl
  | closed closing =>
      rcases close_ok closing with ⟨_, opened, rfl⟩
      refine .of_rows rfl rfl ?_
      rw [phased.openStatus opened]
      rfl
  | credited _ crediting => exact CreditVerb.keeps_requests kept crediting
  | approved _ approving =>
      refine ⟨.of_resolve _ _ (by decide) (approve_requests approving), ?_⟩
      intro request _ _ standing
      rcases approve_ok approving with ⟨_, _, _, _, rfl⟩
      exact standing.of_rows rfl rfl
  | hidden withholding =>
      rcases setHidden_event withholding with ⟨_, rfl⟩
      exact .of_rows rfl rfl rfl
  | deleted => exact .of_rows rfl rfl rfl

theorem forgetting_keeps_requests (row : Event) (userId : Uuid) :
    KeepsRequests row (forgetUser userId row) := by
  refine ⟨.of_filter (fun request => decide (request.requesterId ≠ userId ∧
    request.targetUserId ≠ some userId)) rfl, ?_⟩
  intro request member _ standing
  have own := (List.mem_filter.mp member).2
  simp only [decide_eq_true_eq] at own
  refine ⟨standing.published, ?_, ?_⟩
  · rintro target asked ⟨stored, inRows, same, ever⟩
    exact standing.stranger target asked
      ⟨stored, List.mem_of_mem_filter inRows, same, ever⟩
  · rcases standing.credited with ⟨stored, inRows, same, active⟩
    refine ⟨stored, List.mem_filter.mpr ⟨inRows, ?_⟩, same, active⟩
    rw [decide_eq_true_eq, same]
    exact own.1

theorem Winds.trans {first middle last : Event} (earlier : Winds first middle)
    (later : Winds middle last) : Winds first last := by
  rcases earlier with ⟨keep, change, ages, requests⟩
  rcases later with ⟨keepLater, changeLater, agesLater, requestsLater⟩
  refine ⟨fun request => keep request && keepLater (change request), changeLater ∘ change, ?_, ?_⟩
  · intro request
    refine ⟨(agesLater _).id.trans (ages request).id, ?_⟩
    intro standing
    have same := (agesLater (change request)).same standing
    simp only [Function.comp_apply] at standing ⊢
    rw [same] at standing ⊢
    exact (ages request).same standing
  · rw [requestsLater, requests, List.filter_map, List.map_map, List.filter_filter]
    congr 2
    funext request
    exact Bool.and_comm _ _

theorem KeepsRequests.trans {first middle last : Event} (earlier : KeepsRequests first middle)
    (later : KeepsRequests middle last) : KeepsRequests first last :=
  ⟨earlier.winds.trans later.winds, fun request member isOpen standing =>
    later.standing request member isOpen
      (earlier.standing request (later.winds.open_mem member isOpen) isOpen standing)⟩

theorem Change.keeps_requests {row geo : Event} (phased : Phased row) (rows : RowsKept row)
    (change : Change config state survivors row geo) : KeepsRequests row geo := by
  cases change with
  | edited edited => exact edited.keeps_requests phased
  | upserted upserting =>
      rcases (upsertOne_ok upserting).2 with ⟨_, _, _, _, _, event⟩ | ⟨_, _, rfl⟩
      · rw [event]
        exact .of_rows rfl rfl rfl
      · exact .of_rows rfl rfl rfl
  | redacted redacting =>
      rcases redactVersion_ok redacting with ⟨_, _, _, rfl⟩
      exact .of_rows rfl rfl rfl
  | moved moved => exact moved.keeps_requests phased rows
  | banned user =>
      rcases banEvent_event state.users user state.now row with ⟨_, _, _, event⟩
      rw [event]
      exact .of_rows rfl rfl rfl
  | restored user =>
      rcases restoreWith_event user row with ⟨_, event⟩
      rw [event]
      exact .of_rows rfl rfl rfl
  | forgotten _ _ lives =>
      rcases passOn_event lives with ⟨ownerId, deletedAt, _, _, event⟩
      rw [event]
      have passed : KeepsRequests row { row with ownerId := ownerId, deletedAt := deletedAt } :=
        .of_rows rfl rfl rfl
      exact passed.trans (forgetting_keeps_requests _ _)

/-- An event is born with nobody asked. -/
theorem Born.requests {geo : Event} (born : Born config state geo) :
    geo.approvalRequests = [] := by
  cases born with
  | drafted written =>
      cases written with
      | created _ creating =>
          rcases createWithEvidence_ok creating with ⟨_, _, _, _, inviting, finishing⟩
          rcases inviteOnPublish_event inviting with ⟨_, rfl⟩
          rcases finishWrite_event finishing with ⟨_, _, _, event⟩
          rw [event]
          rfl
      | requested _ creating =>
          rcases createRequest_ok creating with ⟨_, _, _, _, finishing⟩
          rcases finishWrite_event finishing with ⟨_, _, _, event⟩
          rw [event]
          rfl
  | persisted _ persisting =>
      rcases persistOne_ok persisting with ⟨_, rfl⟩
      rfl

/-! ### Asking and declining -/

theorem isGeolocator_active {geo : Event} {userId : Uuid} (sound : (reviewOf geo).Sound)
    (published : (reviewOf geo).published = true) (credited : isGeolocator geo userId = true) :
    IsActive geo userId := by
  unfold isGeolocator at credited
  rw [Bool.or_eq_true, decide_eq_true_eq, Option.any_eq_true] at credited
  rcases credited with rfl | ⟨credit, found, active⟩
  · exact sound.owned published
  · have standing := geolocator?_some found
    exact ⟨credit, standing.1, standing.2, by simpa using active⟩

/-- A new request stands, has no twin, and a fresh id. -/
theorem RequestsKept.ask {tx : Events.Transaction} {geo requested : Event} {requester : User}
    {target : ApprovalTarget} {admitted : Bool} {sentToday cap : Nat} (kept : RequestsKept geo)
    (phased : Phased geo) (sound : (reviewOf geo).Sound)
    (fresh : ∀ request ∈ geo.approvalRequests, request.id ≠ tx.uuid 0)
    (requesting : requestApproval tx geo requester target admitted sentToday cap =
      .ok requested) : RequestsKept requested := by
  rcases requestApproval_ok requesting with
    ⟨targetUserId, targetOrganizationId, published, credited, stranger, untwinned, rfl⟩
  have live : (reviewOf geo).published = true := by
    simp [reviewOf, phased.openStatus (by simp [published]), published, isUnpublished]
  refine ⟨?_, ?_, ?_⟩
  · intro request member isOpen
    rcases List.mem_append.mp member with old | new
    · exact kept.standing request old isOpen
    · rw [List.mem_singleton.mp new]
      refine ⟨live, ?_, isGeolocator_active sound live credited⟩
      intro userId asked was
      exact stranger userId asked (mem_everCreditedIds.mpr (.inr was))
  · refine List.pairwise_append.mpr ⟨kept.single, List.pairwise_singleton _ _, ?_⟩
    rintro old inOld new inNew ⟨oldOpen, _, sameRequester, sameUser, sameOrganization⟩
    rw [List.mem_singleton.mp inNew] at sameRequester sameUser sameOrganization
    exact untwinned old inOld oldOpen sameRequester sameUser sameOrganization
  · show ((geo.approvalRequests ++ [_]).map ApprovalRequest.id).Nodup
    rw [List.map_append, List.nodup_append]
    refine ⟨kept.ids, List.nodup_singleton _, ?_⟩
    intro id inOld other inNew
    rcases List.mem_map.mp inOld with ⟨request, member, rfl⟩
    rw [List.mem_singleton.mp inNew]
    exact fresh request member

theorem resolving_keeps_requests (geo : Event) (resolves : ApprovalRequest → Bool)
    (status : ApprovalRequestStatus) (now : Instant) (closes : status ≠ .open) :
    KeepsRequests geo (geo.resolveRequests resolves status now) :=
  ⟨.of_resolve resolves now closes rfl, fun _ _ _ standing => standing.of_rows rfl rfl⟩

/-! ### Every reachable state -/

/-- The invariant of the deployment and its requests. -/
structure Asked (config : Config) (state : State) : Prop where
  identified : Identified config state
  phased : ∀ geo ∈ state.events, Phased geo
  rows : ∀ geo ∈ state.events, RowsKept geo
  review : ∀ geo ∈ state.events, (reviewOf geo).Sound
  requests : ∀ geo ∈ state.events, RequestsKept geo
  drawn : ∀ geo ∈ state.events, ∀ request ∈ geo.approvalRequests,
    IsDrawn config state.drawn request.id

theorem Asked.deployment {label : Label} (asked : Asked config state)
    (stepped : step config label state = .ok next) : Asked config next := by
  have below := step_drawn_le stepped
  have each : ∀ geo ∈ next.events, Phased geo ∧ RowsKept geo ∧ (reviewOf geo).Sound ∧
      RequestsKept geo ∧ ∀ request ∈ geo.approvalRequests,
        IsDrawn config next.drawn request.id := by
    intro geo member
    rcases step_events stepped member with ⟨row, inRows, rfl | change⟩ | born
    · exact ⟨asked.phased _ inRows, asked.rows _ inRows, asked.review _ inRows,
        asked.requests _ inRows,
        fun request sent => (asked.drawn _ inRows request sent).mono below⟩
    · have phased := asked.phased row inRows
      have rows := asked.rows row inRows
      have credited := change.keeps_credit phased rows
      have keeps := change.keeps_requests phased rows
      refine ⟨phased.step change.statusStep, credited.kept,
        (asked.review row inRows).run credited.run,
        (asked.requests row inRows).winds keeps.winds keeps.standing, ?_⟩
      intro request sent
      rcases keeps.winds.id_mem sent with ⟨before, inBefore, same⟩
      rw [← same]
      exact (asked.drawn row inRows before inBefore).mono below
    · rcases born.credit with ⟨rows, owner, run⟩
      have empty := born.requests
      refine ⟨⟨fun _ => born.newborn.left, fun closed => absurd closed born.newborn.opened⟩,
        rows, (Review.Sound.draft owner).run run, ?_, ?_⟩
      · refine ⟨?_, ?_, ?_⟩ <;> simp [empty]
      · simp [empty]
  exact ⟨asked.identified.step stepped, fun geo member => (each geo member).1,
    fun geo member => (each geo member).2.1, fun geo member => (each geo member).2.2.1,
    fun geo member => (each geo member).2.2.2.1, fun geo member => (each geo member).2.2.2.2⟩

/-- A write on the requests of one event. -/
theorem Asked.put (asked : Asked config state) {geo written : Event} {drawn : Nat}
    (found : geo ∈ state.events)
    (event : written = { geo with approvalRequests := written.approvalRequests })
    (kept : RequestsKept written) (below : state.drawn ≤ drawn)
    (ids : ∀ request ∈ written.approvalRequests, IsDrawn config drawn request.id) :
    Asked config { state with events := state.put written, drawn := drawn } := by
  have each : ∀ row ∈ state.put written, Phased row ∧ RowsKept row ∧ (reviewOf row).Sound ∧
      RequestsKept row ∧ ∀ request ∈ row.approvalRequests, IsDrawn config drawn request.id := by
    intro row member
    rcases mem_put member with old | rfl
    · exact ⟨asked.phased row old, asked.rows row old, asked.review row old,
        asked.requests row old, fun request sent => (asked.drawn row old request sent).mono below⟩
    · have phased := asked.phased geo found
      have rows := asked.rows geo found
      have review := asked.review geo found
      rw [event] at kept ids ⊢
      exact ⟨⟨phased.opened, phased.closed⟩, ⟨rows.single, rows.stamped⟩, review, kept, ids⟩
  refine ⟨⟨?_, ?_, fun user member => (asked.identified.users user member).mono below⟩,
    fun row member => (each row member).1, fun row member => (each row member).2.1,
    fun row member => (each row member).2.2.1, fun row member => (each row member).2.2.2.1,
    fun row member => (each row member).2.2.2.2⟩
  · intro row member
    rcases mem_put member with old | rfl
    · exact (asked.identified.events row old).mono below
    · rw [event]
      exact (asked.identified.events geo found).mono below
  · show ((state.put written).map Event.id).Nodup
    rw [put_ids]
    exact asked.identified.unique

/-- What a step on the approval requests did. -/
inductive ReviewOutcome (config : Config) (state : State) : State → Prop where
  | deployment {label next} (stepped : step config label state = .ok next) :
      ReviewOutcome config state next
  | requested {geo requested requester target admitted sentToday cap}
      (found : geo ∈ state.events)
      (requesting : requestApproval (state.transaction config) geo requester target admitted
        sentToday cap = .ok requested) :
      ReviewOutcome config state
        { state with events := state.put requested, drawn := state.drawn + 1 }
  | declined {geo} (found : geo ∈ state.events) (requestId : Uuid) (now : Instant) :
      ReviewOutcome config state { state with
        events := state.put
          (geo.resolveRequests (fun request => request.id = requestId) .declined now) }

theorem reviewStep_outcome {cap : Nat} {label : ReviewLabel}
    (stepped : reviewStep config cap label state = .ok next) :
    ReviewOutcome config state next := by
  cases label with
  | deployment label => exact .deployment (mapError_eq_ok.mp stepped)
  | requestApproval eventId requesterId target admitted =>
      simp only [reviewStep, State.requestApproval, bind_eq_ok, mapError_eq_ok, pure_eq_ok]
        at stepped
      rcases stepped with ⟨requester, _, geo, locking, requested, requesting, rfl⟩
      exact .requested (lockEvent_ok locking).1 requesting
  | declineRequest eventId requestId userId =>
      simp only [reviewStep, State.declineRequest, bind_eq_ok, mapError_eq_ok, pure_eq_ok]
        at stepped
      rcases stepped with ⟨user, _, geo, locking, declined, declining, rfl⟩
      rw [declineRequest_ok declining]
      exact .declined (lockEvent_ok locking).1 requestId _

theorem Asked.step (asked : Asked config state) (outcome : ReviewOutcome config state next) :
    Asked config next := by
  cases outcome with
  | deployment stepped => exact asked.deployment stepped
  | @requested geo requested requester _ _ _ _ found requesting =>
      have fresh : ∀ request ∈ geo.approvalRequests,
          request.id ≠ (state.transaction config).uuid 0 := by
        intro request sent same
        have drawn := asked.drawn geo found request sent
        rw [same] at drawn
        exact not_isDrawn_draw config state.drawn drawn
      have kept := (asked.requests geo found).ask (asked.phased geo found)
        (asked.review geo found) fresh requesting
      rcases requestApproval_ok requesting with ⟨_, _, _, _, _, _, rfl⟩
      refine asked.put found rfl kept (Nat.le_succ _) ?_
      intro request sent
      rcases List.mem_append.mp sent with old | new
      · exact (asked.drawn geo found request old).mono (Nat.le_succ _)
      · rw [List.mem_singleton.mp new]
        exact ⟨state.drawn, Nat.lt_succ_self _, rfl⟩
  | @declined geo found requestId now =>
      have keeps := resolving_keeps_requests geo (fun request => request.id = requestId)
        .declined now (by decide)
      refine asked.put found rfl ((asked.requests geo found).winds keeps.winds keeps.standing)
        (le_refl _) ?_
      intro request sent
      rcases keeps.winds.id_mem sent with ⟨before, inBefore, same⟩
      rw [← same]
      exact asked.drawn geo found before inBefore

theorem asked_of_reachable {cap : Nat} (reachable : (reviewSystem config cap).Reachable state) :
    Asked config state := by
  refine System.Reachable.invariant ?_ ?_ reachable
  · rintro start ⟨now, rfl⟩
    refine ⟨⟨?_, ?_, ?_⟩, ?_, ?_, ?_, ?_, ?_⟩ <;> simp [initial]
  · intro state label next asked stepped
    exact asked.step (reviewStep_outcome stepped)

/-- Where the open requests of an event come from: the event before, or this step. -/
theorem ReviewOutcome.open_mem (outcome : ReviewOutcome config state next)
    (asked : Asked config state) {geo : Event} (member : geo ∈ next.events)
    {request : ApprovalRequest} (sent : request ∈ geo.approvalRequests)
    (isOpen : request.status = .open) :
    (∃ row ∈ state.events, row.id = geo.id ∧ request ∈ row.approvalRequests) ∨
      request.id = config.uuids.draw state.drawn := by
  cases outcome with
  | deployment stepped =>
      rcases step_events stepped member with ⟨row, inRows, rfl | change⟩ | born
      · exact .inl ⟨_, inRows, rfl, sent⟩
      · have keeps := change.keeps_requests (asked.phased row inRows) (asked.rows row inRows)
        exact .inl ⟨row, inRows, change.id.symm, keeps.winds.open_mem sent isOpen⟩
      · rw [born.requests] at sent
        contradiction
  | @requested row requested _ _ _ _ _ found requesting =>
      rcases mem_put member with old | rfl
      · exact .inl ⟨geo, old, rfl, sent⟩
      · rcases requestApproval_ok requesting with ⟨_, _, _, _, _, _, rfl⟩
        rcases List.mem_append.mp sent with old | new
        · exact .inl ⟨row, found, rfl, old⟩
        · rw [List.mem_singleton.mp new]
          exact .inr rfl
  | @declined row found requestId now =>
      rcases mem_put member with old | rfl
      · exact .inl ⟨geo, old, rfl, sent⟩
      · exact .inl ⟨row, found, rfl, (open_of_mem_resolve (by decide) sent isOpen).1⟩

theorem ReviewOutcome.drawn_le (outcome : ReviewOutcome config state next) :
    state.drawn ≤ next.drawn := by
  cases outcome with
  | deployment stepped => exact step_drawn_le stepped
  | requested _ _ => exact Nat.le_succ _
  | declined _ _ _ => exact le_refl _

/-- A request that is resolved, or gone, is never open again. -/
theorem resolved_run {cap : Nat} (reachable : (reviewSystem config cap).Reachable state)
    (run : (reviewSystem config cap).Run state final) (first : Event) {id : Uuid}
    (drawn : IsDrawn config state.drawn id)
    (resolved : ∀ geo ∈ state.events, geo.id = first.id → ∀ request ∈ geo.approvalRequests,
      request.id = id → request.status ≠ .open) :
    ∀ last ∈ final.events, last.id = first.id → ∀ request ∈ last.approvalRequests,
      request.id = id → request.status ≠ .open := by
  induction run with
  | refl => exact resolved
  | @tail middle final earlier stepped inductionHypothesis =>
      rcases stepped with ⟨label, stepped⟩
      intro last inFinal sameEvent request sent same isOpen
      have outcome := reviewStep_outcome stepped
      have asked := asked_of_reachable (reachable.run earlier)
      rcases outcome.open_mem asked inFinal sent isOpen with ⟨row, inRows, rowId, before⟩ | fresh
      · exact inductionHypothesis row inRows (rowId.trans sameEvent) request before same isOpen
      · have below : state.drawn ≤ middle.drawn :=
          System.Run.monotone (fun stepped => (reviewStep_outcome stepped).drawn_le) earlier
        rw [← same, fresh] at drawn
        exact not_isDrawn_draw config middle.drawn (drawn.mono below)

/-- An approval leaves open no request it was asked for. -/
theorem approve_answers {userId eventId : Uuid} {versionNo : Nat}
    {organization : Option Organization}
    (stepped : step config ⟨.approve eventId userId versionNo organization, true⟩ state =
      .ok next) {geo : Event} (member : geo ∈ next.events) (here : geo.id = eventId) :
    ∀ request ∈ geo.approvalRequests,
      addressedTo userId (organization.map Organization.id) request = true →
        request.status ≠ .open := by
  simp only [step, effect, State.rewrite, bind_eq_ok, pure_eq_ok] at stepped
  rcases stepped with ⟨_, ⟨user, acting, _, ⟨row, locking, written, approving, rfl⟩, rfl⟩, rfl⟩
  have own : user.id = userId := by
    unfold State.actor at acting
    simpa using List.find?_some (orRefuse_eq_ok.mp acting)
  have sameId : written.id = row.id := by
    rcases approve_ok approving with ⟨_, _, _, _, rfl⟩
    rfl
  have isWritten : geo = written := by
    rcases List.mem_map.mp member with ⟨stored, inRows, rfl⟩
    split
    · rfl
    · rename_i other
      rw [if_neg other] at here
      exact absurd (here.trans (lockEvent_ok locking).2.symm |>.trans sameId.symm) other
  intro request sent addressed isOpen
  rw [isWritten, approve_requests approving] at sent
  have unanswered := (open_of_mem_resolve (by decide) sent isOpen).2
  rw [own, addressed] at unanswered
  contradiction

/-- Requests for approval follow the credit and the approvals of their event. -/
theorem requestProtocol (config : Config) (cap : Nat) :
    RequestProtocol (reviewSystem config cap) := by
  refine ⟨?_, ?_, ?_, ?_, ?_⟩
  · intro state geo reachable member requesterId targetUserId targetOrganizationId
    have kept := (asked_of_reachable reachable).requests geo member
    refine length_filter_le_one kept.single _ ?_
    intro left right isLeft isRight
    rw [decide_eq_true_eq] at isLeft isRight
    exact ⟨isLeft.1, isRight.1, isLeft.2.1.trans isRight.2.1.symm,
      isLeft.2.2.1.trans isRight.2.2.1.symm, isLeft.2.2.2.trans isRight.2.2.2.symm⟩
  · intro state geo reachable member request sent isOpen userId target
    have asked := asked_of_reachable reachable
    have standing := (asked.requests geo member).standing request sent isOpen
    have sound := asked.review geo member
    rw [mem_everCreditedIds]
    rintro (rfl | was)
    · exact standing.stranger _ target (sound.active_subset (sound.owned standing.published))
    · exact standing.stranger userId target was
  · intro state geo reachable member request sent isOpen
    have standing := ((asked_of_reachable reachable).requests geo member).standing request sent
      isOpen
    exact .inr (mem_activeIds.mpr standing.credited)
  · intro state final geo last reachable run member inFinal sameEvent request sent resolved later
      laterSent same
    have asked := asked_of_reachable reachable
    refine resolved_run reachable run geo (asked.drawn geo member request sent) ?_ last
      inFinal sameEvent later laterSent same
    intro row inRows rowId other otherSent sameRequest
    have equal := List.inj_on_of_nodup_map asked.identified.unique inRows member rowId
    subst equal
    have twin := List.inj_on_of_nodup_map (asked.requests row member).ids otherSent sent
      sameRequest
    rw [twin]
    exact resolved
  · intro state next eventId userId versionNo organization geo _ stepped member here
    exact approve_answers (mapError_eq_ok.mp stepped) member here

end Vidit.World
