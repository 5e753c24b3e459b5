import Vidit.Events.Outcomes
import Vidit.World.State

/-!
Contract: everything one step of the deployment can do.

Owns:
- `Outcome`, the inversion of `effect`: which write ran, on which row, with what
  result;
- `Change` and `Born`, the same for one event: how a step moves an event it
  found, and how an event comes to be;
- `step_events`, which reads the two off a step.

Does not own: what any of it preserves.
-/

namespace Vidit.World

open Vidit.Python Vidit.Accounts Vidit.Evidence Vidit.Events Vidit.Library

variable {config : Config} {state next : State}

/-! ### Inverting a request -/

/-- A write of the form that adds an event. -/
inductive Drafted (config : Config) (state : State) : Written → Prop where
  | created {user form lat lng invites written} (standing : user ∈ state.users)
      (creating : createWithEvidence config (state.transaction config) user form lat lng invites =
        .ok written) : Drafted config state written
  | requested {user form lat lng provenance written} (standing : user ∈ state.users)
      (creating : createRequest config (state.transaction config) user form lat lng provenance =
        .ok written) : Drafted config state written

/-- A write of the form on a stored event. -/
inductive Edited (config : Config) (state : State) (geo : Event) : Written → Prop where
  | updated {user form lat lng written} (standing : user ∈ state.users)
      (updating : updateRequest config (state.transaction config) geo user form lat lng =
        .ok written) : Edited config state geo written
  | saved {user form lat lng note expected invites written} (standing : user ∈ state.users)
      (saving : saveVersion config (state.transaction config) geo user form lat lng note expected
        invites = .ok written) : Edited config state geo written

/-- A write on a stored event that stores and sweeps nothing. -/
inductive Moved (config : Config) (state : State) (geo : Event) : Event → Prop where
  | published {user kind conflicts written} (standing : user ∈ state.users)
      (publishing : publishDetection (state.transaction config) geo user kind conflicts =
        .ok written) : Moved config state geo written
  | closed {user reason written}
      (closing : close (state.transaction config) geo user reason = .ok written) :
      Moved config state geo written
  | credited {user verb written} (standing : user ∈ state.users)
      (crediting : CreditVerb.run (state.transaction config) geo user verb = .ok written) :
      Moved config state geo written
  | approved {user versionNo organization written} (standing : user ∈ state.users)
      (approving : approve (state.transaction config) geo user versionNo organization =
        .ok written) : Moved config state geo written
  | hidden {hidden written} (withholding : setHidden state.now geo hidden = .ok written) :
      Moved config state geo written
  | deleted : Moved config state geo (softDeleteEvent state.now geo)

/-- Rows that leave the events and the uploads as they are. -/
structure Settled (config : Config) (state rows : State) : Prop where
  events : rows.events = state.events
  uploads : rows.uploads = state.uploads
  drawn : state.drawn ≤ rows.drawn
  users : ∀ user ∈ rows.users, user ∈ state.users ∨
    user.id = config.uuids.draw state.drawn ∧ state.drawn < rows.drawn

theorem Settled.same : Settled config state state where
  events := rfl
  uploads := rfl
  drawn := le_refl _
  users _ member := .inl member

/-- What an accepted request does. -/
inductive Outcome (config : Config) (state : State) (request : Request) : Effect → Prop where
  | settled {rows} (settled : Settled config state rows) : Outcome config state request (.ofRows rows)
  | staged {user file uploads}
      (staging : stageUpload config (state.transaction config) user file = .ok uploads) :
      Outcome config state request (stageEffect config state uploads)
  | reaped : Outcome config state request (reapEffect config state)
  | inserted {written} (drafted : Drafted config state written) :
      Outcome config state request (writeEffect config state (state.events ++ [written.event]) written)
  | wrote {geo written} (found : geo ∈ state.events) (edited : Edited config state geo written) :
      Outcome config state request (writeEffect config state (state.put written.event) written)
  | persisted {user detection via items imported} (standing : user ∈ state.users)
      (persisting : persistOne config (state.transaction config) user detection via items =
        .ok imported) :
      Outcome config state request (importEffect config state (state.events ++ [imported.event]) imported)
  | upserted {geo detection resolved imported} (found : geo ∈ state.events)
      (upserting : upsertOne config (state.transaction config) geo detection resolved =
        .ok (some imported)) :
      Outcome config state request (importEffect config state (state.put imported.event) imported)
  | redacted {geo actorId versionNo redaction}
      (asked : request = .redactVersion geo.id actorId versionNo) (found : geo ∈ state.events)
      (redacting : redactVersion (state.transaction config) geo actorId versionNo =
        .ok (some redaction)) :
      Outcome config state request (redactEffect config state redaction)
  | moved {geo written drawn} (found : geo ∈ state.events) (moved : Moved config state geo written)
      (drawn_le : state.drawn ≤ drawn) :
      Outcome config state request (.ofRows { state with events := state.put written, drawn := drawn })
  | erased (doomed : Event → Bool) : Outcome config state request (eraseEffect config state doomed)
  | banned (user : User) : Outcome config state request (.ofRows (softDeleteUser state user))
  | restored (user : User) : Outcome config state request (.ofRows (restoreUser state user))
  | forgotten {user} (standing : user ∈ state.users) :
      Outcome config state request (hardDeleteUser config state user)

theorem actor_ok {userId : Uuid} {user : User} (finding : state.actor userId = .ok user) :
    user ∈ state.users := by
  unfold State.actor at finding
  exact List.mem_of_find?_eq_some (orRefuse_eq_ok.mp finding)

theorem account_ok {userId : Uuid} {user : User} (finding : state.account userId = .ok user) :
    user ∈ state.users ∧ user.id = userId := by
  unfold State.account at finding
  have found := orRefuse_eq_ok.mp finding
  exact ⟨List.mem_of_find?_eq_some found, by simpa using List.find?_some found⟩

theorem lockEvent_ok {eventId : Uuid} {geo : Event} (locking : state.lockEvent eventId = .ok geo) :
    geo ∈ state.events ∧ geo.id = eventId := by
  unfold State.lockEvent at locking
  have found := orRefuse_eq_ok.mp locking
  exact ⟨List.mem_of_find?_eq_some found, by simpa using List.find?_some found⟩

theorem rewrite_ok {eventId : Uuid} {write : Event → Except EventError Event} {left : Effect}
    (rewriting : state.rewrite eventId write = .ok left) :
    ∃ geo written, geo ∈ state.events ∧ write geo = .ok written ∧
      left = .ofRows { state with events := state.put written } := by
  unfold State.rewrite at rewriting
  simp only [bind_eq_ok, pure_eq_ok] at rewriting
  rcases rewriting with ⟨geo, locking, written, writing, rfl⟩
  exact ⟨geo, written, (lockEvent_ok locking).1, writing, rfl⟩

/-- The effect of every accepted request is one of the outcomes. -/
theorem effect_outcome {request : Request} {left : Effect}
    (accepted : effect config state request = .ok left) : Outcome config state request left := by
  have moves : ∀ {eventId : Uuid} {write : Event → Except EventError Event},
      (∀ {geo written}, write geo = .ok written → Moved config state geo written) →
      state.rewrite eventId write = .ok left → Outcome config state request left := by
    intro eventId write each rewriting
    rcases rewrite_ok rewriting with ⟨geo, written, found, writing, rfl⟩
    exact .moved found (each writing) (le_refl _)
  cases request with
  | tick now =>
      simp only [effect, bind_eq_ok, pure_eq_ok] at accepted
      rcases accepted with ⟨_, _, rfl⟩
      exact .settled ⟨rfl, rfl, le_refl _, fun _ member => .inl member⟩
  | signUp username email passwordHash =>
      simp only [effect, pure_eq_ok] at accepted
      subst accepted
      refine .settled ⟨rfl, rfl, Nat.le_succ _, ?_⟩
      intro user member
      rcases List.mem_append.mp member with old | new
      · exact .inl old
      · rw [List.mem_singleton.mp new]
        exact .inr ⟨rfl, Nat.lt_succ_self _⟩
  | addTag name =>
      simp only [effect, pure_eq_ok] at accepted
      subst accepted
      exact .settled ⟨rfl, rfl, Nat.le_succ _, fun _ member => .inl member⟩
  | addConflict name =>
      simp only [effect, pure_eq_ok] at accepted
      subst accepted
      exact .settled ⟨rfl, rfl, Nat.le_succ _, fun _ member => .inl member⟩
  | setMemberships memberships =>
      simp only [effect, pure_eq_ok] at accepted
      subst accepted
      exact .settled ⟨rfl, rfl, le_refl _, fun _ member => .inl member⟩
  | stageUpload userId file =>
      simp only [effect, bind_eq_ok, pure_eq_ok] at accepted
      rcases accepted with ⟨user, _, uploads, staging, rfl⟩
      exact .staged staging
  | reapExpiredUploads =>
      simp only [effect, pure_eq_ok] at accepted
      subst accepted
      exact .reaped
  | createWithEvidence userId form lat lng invites =>
      simp only [effect, bind_eq_ok, pure_eq_ok] at accepted
      rcases accepted with ⟨user, acting, written, creating, rfl⟩
      exact .inserted (.created (actor_ok acting) creating)
  | createRequest userId form lat lng provenance =>
      simp only [effect, bind_eq_ok, pure_eq_ok] at accepted
      rcases accepted with ⟨user, acting, written, creating, rfl⟩
      exact .inserted (.requested (actor_ok acting) creating)
  | persistOne userId detection via items =>
      simp only [effect, bind_eq_ok, pure_eq_ok] at accepted
      rcases accepted with ⟨user, acting, imported, persisting, rfl⟩
      exact .persisted (actor_ok acting) persisting
  | upsertOne eventId detection resolved =>
      simp only [effect, bind_eq_ok] at accepted
      rcases accepted with ⟨geo, locking, outcome, upserting, leaving⟩
      cases outcome with
      | none =>
          simp only [pure_eq_ok] at leaving
          subst leaving
          exact .settled .same
      | some imported =>
          simp only [pure_eq_ok] at leaving
          subst leaving
          exact .upserted (lockEvent_ok locking).1 upserting
  | updateRequest eventId userId form lat lng =>
      simp only [effect, bind_eq_ok, pure_eq_ok] at accepted
      rcases accepted with ⟨user, acting, geo, locking, written, updating, rfl⟩
      exact .wrote (lockEvent_ok locking).1 (.updated (actor_ok acting) updating)
  | saveVersion eventId userId form lat lng note expected invites =>
      simp only [effect, bind_eq_ok, pure_eq_ok] at accepted
      rcases accepted with ⟨user, acting, geo, locking, written, saving, rfl⟩
      exact .wrote (lockEvent_ok locking).1 (.saved (actor_ok acting) saving)
  | publishDetection eventId userId kind conflictIds =>
      simp only [effect, bind_eq_ok] at accepted
      rcases accepted with ⟨user, acting, _, _, rewriting⟩
      exact moves (.published (actor_ok acting)) rewriting
  | close eventId userId closeReason =>
      simp only [effect, bind_eq_ok] at accepted
      rcases accepted with ⟨user, _, rewriting⟩
      exact moves .closed rewriting
  | redactVersion eventId actorId versionNo =>
      simp only [effect, bind_eq_ok] at accepted
      rcases accepted with ⟨geo, locking, outcome, redacting, leaving⟩
      cases outcome with
      | none =>
          simp only [pure_eq_ok] at leaving
          subst leaving
          exact .settled .same
      | some redaction =>
          simp only [pure_eq_ok] at leaving
          subst leaving
          have locked := lockEvent_ok locking
          exact .redacted (by rw [locked.2]) locked.1 redacting
  | credit eventId userId verb =>
      simp only [effect, bind_eq_ok] at accepted
      rcases accepted with ⟨user, acting, rewriting⟩
      exact moves (.credited (actor_ok acting)) rewriting
  | approve eventId userId versionNo organization =>
      simp only [effect, bind_eq_ok, pure_eq_ok] at accepted
      rcases accepted with ⟨user, acting, middle, rewriting, rfl⟩
      rcases rewrite_ok rewriting with ⟨geo, written, found, writing, rfl⟩
      exact .moved found (.approved (actor_ok acting) writing) (Nat.le_succ _)
  | setHidden eventId hidden => exact moves .hidden accepted
  | softDeleteEvent eventId =>
      apply moves _ accepted
      intro geo written deleting
      rw [pure_eq_ok] at deleting
      subst deleting
      exact .deleted
  | hardDeleteEvent eventId =>
      simp only [effect, bind_eq_ok, pure_eq_ok] at accepted
      rcases accepted with ⟨geo, _, rfl⟩
      exact .erased _
  | purgeDetected userId =>
      simp only [effect, bind_eq_ok, pure_eq_ok] at accepted
      rcases accepted with ⟨user, _, rfl⟩
      exact .erased _
  | softDeleteUser userId =>
      simp only [effect, bind_eq_ok, pure_eq_ok] at accepted
      rcases accepted with ⟨user, _, rfl⟩
      exact .banned user
  | restoreUser userId =>
      simp only [effect, bind_eq_ok, pure_eq_ok] at accepted
      rcases accepted with ⟨user, _, rfl⟩
      exact .restored user
  | hardDeleteUser userId =>
      simp only [effect, bind_eq_ok, pure_eq_ok] at accepted
      rcases accepted with ⟨user, finding, rfl⟩
      exact .forgotten (account_ok finding).1

/-! ### One event -/

/-- How a step that leaves the accounts `survivors` moves an event it found. -/
inductive Change (config : Config) (state : State) (survivors : List User) (row : Event) :
    Event → Prop where
  | edited {written} (edited : Edited config state row written) :
      Change config state survivors row written.event
  | upserted {detection resolved imported}
      (upserting : upsertOne config (state.transaction config) row detection resolved =
        .ok (some imported)) : Change config state survivors row imported.event
  | redacted {actorId versionNo redaction}
      (redacting : redactVersion (state.transaction config) row actorId versionNo =
        .ok (some redaction)) : Change config state survivors row redaction.event
  | moved {geo} (moved : Moved config state row geo) : Change config state survivors row geo
  | banned (user : User) : Change config state survivors row (banEvent state.users user state.now row)
  | restored (user : User) : Change config state survivors row (restoreWith user row)
  | forgotten {user} (standing : user ∈ state.users)
      (gone : ∀ other ∈ survivors, other.id ≠ user.id)
      (lives : diesWith state.users user row = false) :
      Change config state survivors row (forgetUser user.id (passOn state.users user row))

/-- Credit moves four lists of an event and nothing else. -/
theorem CreditVerb.run_event {tx : Events.Transaction} {geo written : Event} {user : User}
    {verb : CreditVerb} (running : verb.run tx geo user = .ok written) :
    ∃ geolocators approvals requests items, written = { geo with
      geolocators := geolocators
      approvals := approvals
      approvalRequests := requests
      collectionItems := items } := by
  cases verb with
  | invite username =>
      rcases stageInvite_ok (invite_ok running) with ⟨_, _, _, _, _, _, _, rfl⟩
      exact ⟨_, _, _, _, rfl⟩
  | withdraw username =>
      rcases withdraw_ok running with ⟨_, row, _, rfl⟩
      rcases endInvitation_event geo row with ⟨_, ended⟩
      exact ⟨_, _, _, _, ended⟩
  | decline =>
      rcases decline_ok running with ⟨row, _, rfl⟩
      rcases endInvitation_event geo row with ⟨_, ended⟩
      exact ⟨_, _, _, _, ended⟩
  | accept =>
      rcases accept_ok running with ⟨_, _, _, _, rfl⟩
      exact ⟨_, _, _, _, rfl⟩
  | remove username =>
      rcases remove_ok running with ⟨_, _, _, _, _, rfl⟩
      exact ⟨_, _, _, _, rfl⟩

theorem setHidden_event {now : Instant} {geo written : Event} {hidden : Bool}
    (withholding : setHidden now geo hidden = .ok written) :
    ∃ hiddenAt, written = { geo with hiddenAt := hiddenAt } := by
  unfold setHidden at withholding
  simp only [bind_eq_ok, pure_eq_ok] at withholding
  rcases withholding with ⟨_, _, rfl⟩
  split <;> exact ⟨_, rfl⟩

/-- A ban moves the owner and the deletion stamp of an event. -/
theorem banEvent_event (users : List User) (user : User) (now : Instant) (geo : Event) :
    ∃ ownerId deletedAt,
      (ownerId = geo.ownerId ∨ ownerId ∈ geo.activeIds) ∧
      banEvent users user now geo = { geo with ownerId := ownerId, deletedAt := deletedAt } := by
  have passes : ∃ ownerId deletedAt, (ownerId = geo.ownerId ∨ ownerId ∈ geo.activeIds) ∧
      (if geo.deletedAt = none then passOn users user geo else geo) =
        { geo with ownerId := ownerId, deletedAt := deletedAt } := by
    unfold passOn
    split
    · split
      · rcases handOver_eq users user geo with same | ⟨heirId, inherits, passed⟩
        · exact ⟨_, _, .inl rfl, same⟩
        · exact ⟨_, _, .inr (handOverHeir_active inherits).2, passed⟩
      · exact ⟨_, _, .inl rfl, rfl⟩
    · exact ⟨_, _, .inl rfl, rfl⟩
  rcases passes with ⟨ownerId, deletedAt, owns, passed⟩
  unfold banEvent hideWith
  rw [passed]
  split
  · exact ⟨ownerId, _, owns, rfl⟩
  · exact ⟨ownerId, _, owns, rfl⟩

theorem restoreWith_event (user : User) (geo : Event) :
    ∃ deletedAt, restoreWith user geo = { geo with deletedAt := deletedAt } := by
  unfold restoreWith
  split <;> exact ⟨_, rfl⟩

/-- A surviving event of an erased account has another owner, an active one when
it moved. -/
theorem passOn_event {users : List User} {user : User} {geo : Event}
    (lives : diesWith users user geo = false) :
    ∃ ownerId deletedAt, ownerId ≠ user.id ∧
      (ownerId = geo.ownerId ∨ ownerId ∈ geo.activeIds) ∧
      passOn users user geo = { geo with ownerId := ownerId, deletedAt := deletedAt } := by
  unfold diesWith at lives
  unfold passOn
  split
  · rename_i owns
    rcases handOver_eq users user geo with same | ⟨heirId, inherits, passed⟩
    · exfalso
      cases inherits : handOverHeir users user geo with
      | none => simp [owns, inherits] at lives
      | some heirId =>
          have moved := congrArg Event.ownerId same
          simp only [handOver, inherits] at moved
          exact (handOverHeir_active inherits).1 (moved.trans owns)
    · have active := handOverHeir_active inherits
      exact ⟨_, _, active.1, .inr active.2, passed⟩
  · rename_i other
    exact ⟨_, _, other, .inl rfl, rfl⟩

/-- How an event comes to be. -/
inductive Born (config : Config) (state : State) : Event → Prop where
  | drafted {written} (drafted : Drafted config state written) : Born config state written.event
  | persisted {user detection via items imported} (standing : user ∈ state.users)
      (persisting : persistOne config (state.transaction config) user detection via items =
        .ok imported) : Born config state imported.event

theorem mem_put {geo written : Event} (member : geo ∈ state.put written) :
    geo ∈ state.events ∨ geo = written := by
  unfold State.put at member
  rcases List.mem_map.mp member with ⟨row, inRows, rfl⟩
  split
  · exact .inr rfl
  · exact .inl inRows

/-- An event after an outcome was there before, moved or not, or was just born. -/
theorem Outcome.events {request : Request} {left : Effect}
    (outcome : Outcome config state request left) {geo : Event}
    (member : geo ∈ left.rows.events) :
    (∃ row ∈ state.events, geo = row ∨ Change config state left.rows.users row geo) ∨ Born config state geo := by
  have kept : geo ∈ state.events →
      (∃ row ∈ state.events, geo = row ∨ Change config state left.rows.users row geo) ∨ Born config state geo :=
    fun old => .inl ⟨geo, old, .inl rfl⟩
  cases outcome with
  | settled settled =>
      simp only [Effect.ofRows, settled.events] at member
      exact kept member
  | staged _ => exact kept member
  | reaped => exact kept member
  | inserted drafted =>
      rcases List.mem_append.mp member with old | new
      · exact kept old
      · rw [List.mem_singleton.mp new]
        exact .inr (.drafted drafted)
  | wrote found edited =>
      rcases mem_put member with old | rfl
      · exact kept old
      · exact .inl ⟨_, found, .inr (.edited edited)⟩
  | persisted standing persisting =>
      rcases List.mem_append.mp member with old | new
      · exact kept old
      · rw [List.mem_singleton.mp new]
        exact .inr (.persisted standing persisting)
  | upserted found upserting =>
      rcases mem_put member with old | rfl
      · exact kept old
      · exact .inl ⟨_, found, .inr (.upserted upserting)⟩
  | redacted _ found redacting =>
      rcases mem_put member with old | rfl
      · exact kept old
      · exact .inl ⟨_, found, .inr (.redacted redacting)⟩
  | moved found moved _ =>
      rcases mem_put member with old | rfl
      · exact kept old
      · exact .inl ⟨_, found, .inr (.moved moved)⟩
  | erased doomed => exact kept (List.mem_of_mem_filter member)
  | banned user =>
      simp only [Effect.ofRows, softDeleteUser] at member
      split at member
      · exact kept member
      · rcases List.mem_map.mp member with ⟨row, inRows, rfl⟩
        exact .inl ⟨row, inRows, .inr (.banned user)⟩
  | restored user =>
      simp only [Effect.ofRows, restoreUser] at member
      split at member
      · exact kept member
      · rcases List.mem_map.mp member with ⟨row, inRows, rfl⟩
        exact .inl ⟨row, inRows, .inr (.restored user)⟩
  | forgotten standing =>
      rcases List.mem_map.mp member with ⟨row, inRows, rfl⟩
      rw [List.mem_filter] at inRows
      refine .inl ⟨row, inRows.1, .inr (.forgotten standing ?_ (by simpa using inRows.2))⟩
      intro other member
      simpa using (List.mem_filter.mp member).2

/-- A step commits its effect or rolls it back. -/
theorem step_ok {label : Label} (stepped : step config label state = .ok next) :
    ∃ left, Outcome config state label.request left ∧
      (label.commits = true ∧ next = left.commit state ∨
        label.commits = false ∧ next = left.rollBack state) := by
  unfold step at stepped
  simp only [bind_eq_ok, pure_eq_ok] at stepped
  rcases stepped with ⟨left, accepted, rfl⟩
  refine ⟨left, effect_outcome accepted, ?_⟩
  cases label.commits with
  | true => exact .inl ⟨rfl, rfl⟩
  | false => exact .inr ⟨rfl, rfl⟩

theorem step_events {label : Label} (stepped : step config label state = .ok next) {geo : Event}
    (member : geo ∈ next.events) :
    (∃ row ∈ state.events, geo = row ∨ Change config state next.users row geo) ∨ Born config state geo := by
  rcases step_ok stepped with ⟨left, outcome, ⟨_, rfl⟩ | ⟨_, rfl⟩⟩
  · exact outcome.events member
  · exact .inl ⟨geo, member, .inl rfl⟩

end Vidit.World
