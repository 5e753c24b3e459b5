import Vidit.World.Identity

/-!
Contract: what `restore_user` undoes of `soft_delete_user`.

Owns:
- `Removal`, a soft deletion of an account, what others and administrators do after it, and the
  restoration;
- `RestoresWhatItHid`, and `StampsTellApart`, when the stamps alone carry it.

Does not own: the X handle, the manager roles, the collections and the sites of the account.

Proof shape: what a request does to the owner and the deletion stamp of an event is read off once
(`step_restamps`); the rest is one invariant (`KeepsStamps`) along the run between the two.
-/

namespace Vidit.World

open Vidit.Python Vidit.Accounts Vidit.Evidence Vidit.Events Vidit.Library

/-! ### The owner and the stamp of an event -/

/-- The account a request runs under; an import's and an administrator's name none. -/
def Request.author : Request → Option Uuid
  | .stageUpload userId _ => some userId
  | .createWithEvidence userId _ _ _ _ => some userId
  | .createRequest userId _ _ _ _ => some userId
  | .updateRequest _ userId _ _ _ => some userId
  | .saveVersion _ userId _ _ _ _ _ _ => some userId
  | .publishDetection _ userId _ _ => some userId
  | .close _ userId _ => some userId
  | .credit _ userId _ => some userId
  | .approve _ userId _ _ => some userId
  | _ => none

/-- The event a request saves a version of. -/
def Request.saves : Request → Option Uuid
  | .saveVersion eventId _ _ _ _ _ _ _ => some eventId
  | _ => none

/-- An event with the id, the owner and the deletion stamp of another. -/
structure SameStamps (row geo : Event) : Prop where
  id : geo.id = row.id
  owner : geo.ownerId = row.ownerId
  deletedAt : geo.deletedAt = row.deletedAt

/-- How a request that commits moves the owner or the stamp of an event. -/
inductive Restamp (state : State) (request : Request) (row : Event) : Event → Prop
  | deleted (asked : request = .softDeleteEvent row.id) :
      Restamp state request row (softDeleteEvent state.now row)
  | banned {user : User} (asked : request = .softDeleteUser user.id) (standing : user ∈ state.users)
      (live : user.deletedAt = none) :
      Restamp state request row (banEvent state.users user state.now row)
  | restored {user : User} (asked : request = .restoreUser user.id)
      (standing : user ∈ state.users) : Restamp state request row (restoreWith user row)
  | forgotten {user : User} (asked : request = .hardDeleteUser user.id)
      (standing : user ∈ state.users) :
      Restamp state request row (forgetUser user.id (passOn state.users user row))
  | taken {geo : Event} (saves : request.saves = some row.id)
      (author : request.author = some geo.ownerId) (id : geo.id = row.id)
      (deletedAt : geo.deletedAt = row.deletedAt) : Restamp state request row geo

theorem Restamp.id {state : State} {request : Request} {row geo : Event}
    (restamp : Restamp state request row geo) : geo.id = row.id := by
  cases restamp with
  | deleted _ => rfl
  | banned _ _ _ =>
      obtain ⟨_, _, _, event⟩ := banEvent_event state.users _ state.now row
      rw [event]
  | restored _ _ =>
      obtain ⟨_, event⟩ := restoreWith_event _ row
      rw [event]
  | @forgotten user _ _ =>
      unfold passOn
      split
      · obtain same | ⟨_, _, passed⟩ := handOver_eq state.users user row
        · rw [same]
          rfl
        · rw [passed]
          rfl
      · rfl
  | taken _ _ id _ => exact id

section Requests

variable {config : Config} {state next : State} {request : Request} {left : Effect}

/-- A credit on publish makes the author the owner, or leaves the owner. -/
theorem creditOnPublish_owner {tx : Events.Transaction} {geo credited : Event} {user : User}
    {publishing : Bool} {invites : List Str}
    (crediting : creditOnPublish tx geo user publishing invites = .ok credited) :
    credited.ownerId = user.id ∨ credited.ownerId = geo.ownerId := by
  unfold creditOnPublish at crediting
  split at crediting
  · obtain ⟨_, rfl⟩ := inviteOnPublish_event crediting
    exact .inl rfl
  · rw [pure_eq_ok] at crediting
    rw [← crediting]
    exact .inr rfl

theorem saveVersion_stamps {tx : Events.Transaction} {geo : Event} {user : User} {form : EventForm}
    {lat lng : Rat} {note : Option Str} {expected : Option Nat} {invites : List Str}
    {written : Written}
    (saving : saveVersion config tx geo user form lat lng note expected invites = .ok written) :
    written.event.id = geo.id ∧ written.event.deletedAt = geo.deletedAt ∧
      (written.event.ownerId = user.id ∨ written.event.ownerId = geo.ownerId) := by
  obtain ⟨_, _, credited, _, _, crediting, finishing⟩ := saveVersion_ok saving
  obtain ⟨_, _, _, event⟩ := finishWrite_event finishing
  have owner := creditOnPublish_owner crediting
  obtain ⟨_, _, rfl⟩ := creditOnPublish_event crediting
  rw [event]
  exact ⟨rfl, rfl, owner⟩

theorem updateRequest_stamps {tx : Events.Transaction} {geo : Event} {user : User}
    {form : EventForm} {lat lng : Option Rat} {written : Written}
    (updating : updateRequest config tx geo user form lat lng = .ok written) :
    SameStamps geo written.event := by
  obtain ⟨_, _, _, _, _, _, finishing⟩ := updateRequest_ok updating
  obtain ⟨_, _, _, event⟩ := finishWrite_event finishing
  rw [event]
  exact ⟨rfl, rfl, rfl⟩

theorem upsertOne_stamps {tx : Events.Transaction} {geo : Event} {detection : Detection}
    {resolved : DetectionMedia} {imported : Imported}
    (upserting : upsertOne config tx geo detection resolved = .ok (some imported)) :
    SameStamps geo imported.event := by
  obtain ⟨_, _, _, _, _, event⟩ | ⟨_, _, rfl⟩ := (upsertOne_ok upserting).2
  · rw [event]
    exact ⟨rfl, rfl, rfl⟩
  · exact ⟨rfl, rfl, rfl⟩

/-- A new event is live. -/
theorem Born.live {geo : Event} (born : Born config state geo) : geo.deletedAt = none := by
  cases born with
  | drafted drafted =>
      cases drafted with
      | created _ creating =>
          obtain ⟨_, _, _, _, inviting, finishing⟩ := createWithEvidence_ok creating
          obtain ⟨_, rfl⟩ := inviteOnPublish_event inviting
          obtain ⟨_, _, _, event⟩ := finishWrite_event finishing
          rw [event]
          rfl
      | requested _ creating =>
          obtain ⟨_, _, _, _, finishing⟩ := createRequest_ok creating
          obtain ⟨_, _, _, event⟩ := finishWrite_event finishing
          rw [event]
          rfl
  | persisted _ persisting =>
      obtain ⟨_, rfl⟩ := persistOne_ok persisting
      rfl

/-- Where an event of the rows a request leaves comes from. -/
def Comes (config : Config) (state : State) (request : Request) (geo : Event) : Prop :=
  (∃ row ∈ state.events, SameStamps row geo ∨ Restamp state request row geo) ∨
    Born config state geo

theorem Comes.kept {geo : Event} (member : geo ∈ state.events) :
    Comes config state request geo :=
  .inl ⟨geo, member, .inl ⟨rfl, rfl, rfl⟩⟩

theorem Comes.put {row written geo : Event} (found : row ∈ state.events)
    (moved : SameStamps row written ∨ Restamp state request row written)
    (member : geo ∈ state.put written) : Comes config state request geo := by
  obtain old | rfl := mem_put member
  · exact .kept old
  · exact .inl ⟨row, found, moved⟩

theorem Comes.rewrite {eventId : Uuid} {write : Event → Except EventError Event} {geo : Event}
    (each : ∀ {row written}, row.id = eventId → write row = .ok written →
      SameStamps row written ∨ Restamp state request row written)
    (rewriting : state.rewrite eventId write = .ok left) (member : geo ∈ left.rows.events) :
    Comes config state request geo := by
  unfold State.rewrite at rewriting
  simp only [bind_eq_ok, pure_eq_ok] at rewriting
  obtain ⟨row, locking, written, writing, rfl⟩ := rewriting
  obtain ⟨found, named⟩ := lockEvent_ok locking
  exact .put found (each named writing) member

theorem rewriting_stamps {eventId : Uuid} {write : Event → Except EventError Event} {geo : Event}
    (each : ∀ {row written}, write row = .ok written → SameStamps row written)
    (rewriting : state.rewrite eventId write = .ok left) (member : geo ∈ left.rows.events) :
    Comes config state request geo :=
  .rewrite (fun _ writing => .inl (each writing)) rewriting member

theorem CreditVerb.stamps {tx : Events.Transaction} {geo written : Event} {user : User}
    {verb : CreditVerb} (running : verb.run tx geo user = .ok written) : SameStamps geo written := by
  obtain ⟨_, _, _, _, rfl⟩ := CreditVerb.run_event running
  exact ⟨rfl, rfl, rfl⟩

theorem publishDetection_stamps {tx : Events.Transaction} {geo written : Event} {user : User}
    {kind : SourceKind} {conflicts : List Conflict}
    (publishing : publishDetection tx geo user kind conflicts = .ok written) :
    SameStamps geo written := by
  obtain ⟨_, owns, _, rfl⟩ := publishDetection_ok publishing
  exact ⟨rfl, owns.symm, rfl⟩

/-- Every event a request leaves kept its owner and its stamp, was restamped, or is new. -/
theorem effect_comes (accepted : effect config state request = .ok left) {geo : Event}
    (member : geo ∈ left.rows.events) : Comes config state request geo := by
  cases request with
  | tick now =>
      simp only [effect, bind_eq_ok, pure_eq_ok] at accepted
      obtain ⟨_, _, rfl⟩ := accepted
      exact .kept member
  | signUp | addTag | addConflict | setMemberships | reapExpiredUploads =>
      simp only [effect, pure_eq_ok] at accepted
      subst accepted
      exact .kept member
  | stageUpload userId file =>
      simp only [effect, bind_eq_ok, pure_eq_ok] at accepted
      obtain ⟨_, _, _, _, rfl⟩ := accepted
      exact .kept member
  | createWithEvidence userId form lat lng invites =>
      simp only [effect, bind_eq_ok, pure_eq_ok] at accepted
      obtain ⟨user, acting, written, creating, rfl⟩ := accepted
      obtain old | new := List.mem_append.mp member
      · exact .kept old
      · rw [List.mem_singleton.mp new]
        exact .inr (.drafted (.created (actor_ok acting) creating))
  | createRequest userId form lat lng provenance =>
      simp only [effect, bind_eq_ok, pure_eq_ok] at accepted
      obtain ⟨user, acting, written, creating, rfl⟩ := accepted
      obtain old | new := List.mem_append.mp member
      · exact .kept old
      · rw [List.mem_singleton.mp new]
        exact .inr (.drafted (.requested (actor_ok acting) creating))
  | persistOne userId detection via items =>
      simp only [effect, bind_eq_ok, pure_eq_ok] at accepted
      obtain ⟨user, acting, imported, persisting, rfl⟩ := accepted
      obtain old | new := List.mem_append.mp member
      · exact .kept old
      · rw [List.mem_singleton.mp new]
        exact .inr (.persisted (actor_ok acting) persisting)
  | upsertOne eventId detection resolved =>
      simp only [effect, bind_eq_ok] at accepted
      obtain ⟨row, locking, outcome, upserting, leaving⟩ := accepted
      cases outcome with
      | none =>
          simp only [pure_eq_ok] at leaving
          subst leaving
          exact .kept member
      | some imported =>
          simp only [pure_eq_ok] at leaving
          subst leaving
          exact .put (lockEvent_ok locking).1 (.inl (upsertOne_stamps upserting)) member
  | updateRequest eventId userId form lat lng =>
      simp only [effect, bind_eq_ok, pure_eq_ok] at accepted
      obtain ⟨_, _, row, locking, _, updating, rfl⟩ := accepted
      exact .put (lockEvent_ok locking).1 (.inl (updateRequest_stamps updating)) member
  | saveVersion eventId userId form lat lng note expected invites =>
      simp only [effect, bind_eq_ok, pure_eq_ok] at accepted
      obtain ⟨user, acting, row, locking, written, saving, rfl⟩ := accepted
      obtain ⟨id, deletedAt, owner⟩ := saveVersion_stamps saving
      obtain ⟨found, named⟩ := lockEvent_ok locking
      have actor : user.id = userId := by
        unfold State.actor at acting
        simpa using List.find?_some (orRefuse_eq_ok.mp acting)
      apply Comes.put found _ member
      obtain author | kept := owner
      · right
        apply Restamp.taken _ _ id deletedAt
        · rw [named]
          rfl
        · rw [author, actor]
          rfl
      · exact .inl ⟨id, kept, deletedAt⟩
  | publishDetection eventId userId kind conflictIds =>
      simp only [effect, bind_eq_ok] at accepted
      obtain ⟨_, _, _, _, rewriting⟩ := accepted
      exact rewriting_stamps publishDetection_stamps rewriting member
  | close eventId userId closeReason =>
      simp only [effect, bind_eq_ok] at accepted
      obtain ⟨_, _, rewriting⟩ := accepted
      apply rewriting_stamps _ rewriting member
      intro row written closing
      obtain ⟨_, _, rfl⟩ := close_ok closing
      exact ⟨rfl, rfl, rfl⟩
  | redactVersion eventId actorId versionNo =>
      simp only [effect, bind_eq_ok] at accepted
      obtain ⟨row, locking, outcome, redacting, leaving⟩ := accepted
      cases outcome with
      | none =>
          simp only [pure_eq_ok] at leaving
          subst leaving
          exact .kept member
      | some redaction =>
          simp only [pure_eq_ok] at leaving
          subst leaving
          obtain ⟨_, _, _, rfl⟩ := redactVersion_ok redacting
          apply Comes.put (lockEvent_ok locking).1 _ member
          exact .inl ⟨rfl, rfl, rfl⟩
  | credit eventId userId verb =>
      simp only [effect, bind_eq_ok] at accepted
      obtain ⟨_, _, rewriting⟩ := accepted
      exact rewriting_stamps CreditVerb.stamps rewriting member
  | approve eventId userId versionNo organization =>
      simp only [effect, bind_eq_ok, pure_eq_ok] at accepted
      obtain ⟨_, _, middle, rewriting, rfl⟩ := accepted
      apply rewriting_stamps _ rewriting member
      intro row written approving
      obtain ⟨_, _, _, _, rfl⟩ := approve_ok approving
      exact ⟨rfl, rfl, rfl⟩
  | setHidden eventId hidden =>
      apply rewriting_stamps _ accepted member
      intro row written withholding
      obtain ⟨_, rfl⟩ := setHidden_event withholding
      exact ⟨rfl, rfl, rfl⟩
  | softDeleteEvent eventId =>
      apply Comes.rewrite _ accepted member
      intro row written named deleting
      rw [pure_eq_ok] at deleting
      subst deleting
      exact .inr (.deleted (by rw [named]))
  | hardDeleteEvent eventId =>
      simp only [effect, bind_eq_ok, pure_eq_ok] at accepted
      obtain ⟨_, _, rfl⟩ := accepted
      exact .kept (List.mem_of_mem_filter member)
  | purgeDetected userId =>
      simp only [effect, bind_eq_ok, pure_eq_ok] at accepted
      obtain ⟨_, _, rfl⟩ := accepted
      exact .kept (List.mem_of_mem_filter member)
  | softDeleteUser userId =>
      simp only [effect, bind_eq_ok, pure_eq_ok] at accepted
      obtain ⟨user, finding, rfl⟩ := accepted
      obtain ⟨standing, named⟩ := account_ok finding
      unfold Effect.ofRows softDeleteUser at member
      split at member
      · exact .kept member
      · rename_i live
        obtain ⟨row, inRows, rfl⟩ := List.mem_map.mp member
        exact .inl ⟨row, inRows, .inr (.banned (by rw [named]) standing (not_not.mp live))⟩
  | restoreUser userId =>
      simp only [effect, bind_eq_ok, pure_eq_ok] at accepted
      obtain ⟨user, finding, rfl⟩ := accepted
      obtain ⟨standing, named⟩ := account_ok finding
      unfold Effect.ofRows restoreUser at member
      split at member
      · exact .kept member
      · obtain ⟨row, inRows, rfl⟩ := List.mem_map.mp member
        exact .inl ⟨row, inRows, .inr (.restored (by rw [named]) standing)⟩
  | hardDeleteUser userId =>
      simp only [effect, bind_eq_ok, pure_eq_ok] at accepted
      obtain ⟨user, finding, rfl⟩ := accepted
      obtain ⟨standing, named⟩ := account_ok finding
      obtain ⟨row, inRows, rfl⟩ := List.mem_map.mp member
      exact .inl ⟨row, List.mem_of_mem_filter inRows,
        .inr (.forgotten (by rw [named]) standing)⟩

/-- Every event after a step kept its owner and its stamp, was restamped by a commit, or is new. -/
theorem step_restamps {label : Label} (stepped : step config label state = .ok next) {geo : Event}
    (member : geo ∈ next.events) :
    (∃ row ∈ state.events, SameStamps row geo ∨
      (label.commits = true ∧ Restamp state label.request row geo)) ∨
      Born config state geo := by
  unfold step at stepped
  simp only [bind_eq_ok, pure_eq_ok] at stepped
  obtain ⟨left, accepted, rfl⟩ := stepped
  cases commits : label.commits with
  | true =>
      rw [commits, if_pos rfl] at member
      obtain ⟨row, found, same | restamp⟩ | born := effect_comes accepted member
      · exact .inl ⟨row, found, .inl same⟩
      · exact .inl ⟨row, found, .inr ⟨rfl, restamp⟩⟩
      · exact .inr born
  | false =>
      rw [commits, if_neg Bool.false_ne_true] at member
      exact .inl ⟨geo, member, .inl ⟨rfl, rfl, rfl⟩⟩

theorem rewrite_users {eventId : Uuid} {write : Event → Except EventError Event}
    (rewriting : state.rewrite eventId write = .ok left) : left.rows.users = state.users := by
  obtain ⟨_, _, _, _, rfl⟩ := rewrite_ok rewriting
  rfl

/-- The requests that write the accounts. -/
def Request.writesUsers : Request → Bool
  | .signUp _ _ _ | .softDeleteUser _ | .restoreUser _ | .hardDeleteUser _ => true
  | _ => false

/-- A request that is not about accounts leaves them all. -/
theorem effect_users_kept (accepted : effect config state request = .ok left)
    (others : request.writesUsers = false) : left.rows.users = state.users := by
  cases request with
  | signUp | softDeleteUser | restoreUser | hardDeleteUser => cases others
  | addTag | addConflict | setMemberships | reapExpiredUploads =>
      simp only [effect, pure_eq_ok] at accepted
      subst accepted
      rfl
  | tick now =>
      simp only [effect, bind_eq_ok, pure_eq_ok] at accepted
      obtain ⟨_, _, rfl⟩ := accepted
      rfl
  | stageUpload | createWithEvidence | createRequest | persistOne =>
      simp only [effect, bind_eq_ok, pure_eq_ok] at accepted
      obtain ⟨_, _, _, _, rfl⟩ := accepted
      rfl
  | updateRequest | saveVersion =>
      simp only [effect, bind_eq_ok, pure_eq_ok] at accepted
      obtain ⟨_, _, _, _, _, _, rfl⟩ := accepted
      rfl
  | upsertOne | redactVersion =>
      simp only [effect, bind_eq_ok] at accepted
      obtain ⟨_, _, outcome, _, leaving⟩ := accepted
      cases outcome with
      | none | some =>
          simp only [pure_eq_ok] at leaving
          subst leaving
          rfl
  | publishDetection =>
      simp only [effect, bind_eq_ok] at accepted
      obtain ⟨_, _, _, _, rewriting⟩ := accepted
      exact rewrite_users rewriting
  | close | credit =>
      simp only [effect, bind_eq_ok] at accepted
      obtain ⟨_, _, rewriting⟩ := accepted
      exact rewrite_users rewriting
  | approve =>
      simp only [effect, bind_eq_ok, pure_eq_ok] at accepted
      obtain ⟨_, _, middle, rewriting, rfl⟩ := accepted
      show middle.rows.users = state.users
      exact rewrite_users rewriting
  | setHidden | softDeleteEvent => exact rewrite_users accepted
  | hardDeleteEvent | purgeDetected =>
      simp only [effect, bind_eq_ok, pure_eq_ok] at accepted
      obtain ⟨_, _, rfl⟩ := accepted
      rfl

/-- Where a row of an account comes from, drawn before the request: it is not erased, and its
stamp moves only when it is live and banned, or restored. -/
structure ComesFrom (state : State) (request : Request) (user old : User) : Prop where
  id : old.id = user.id
  erased : request ≠ .hardDeleteUser user.id
  deletedAt : user.deletedAt = old.deletedAt ∨
    (request = .softDeleteUser user.id ∧
      ∃ live ∈ state.users, live.id = user.id ∧ live.deletedAt = none) ∨
    request = .restoreUser user.id

theorem effect_users (accepted : effect config state request = .ok left) {user : User}
    (member : user ∈ left.rows.users) (earlier : user.id ≠ config.uuids.draw state.drawn) :
    ∃ old ∈ state.users, ComesFrom state request user old := by
  cases request with
  | signUp username email hash =>
      simp only [effect, pure_eq_ok] at accepted
      subst accepted
      obtain old | new := List.mem_append.mp member
      · exact ⟨user, old, rfl, (by intro asked; cases asked), .inl rfl⟩
      · rw [List.mem_singleton.mp new] at earlier
        exact absurd rfl earlier
  | softDeleteUser userId =>
      simp only [effect, bind_eq_ok, pure_eq_ok] at accepted
      obtain ⟨banned, finding, rfl⟩ := accepted
      obtain ⟨standing, named⟩ := account_ok finding
      unfold Effect.ofRows softDeleteUser at member
      split at member
      · exact ⟨user, member, rfl, (by intro asked; cases asked), .inl rfl⟩
      · rename_i live
        obtain ⟨old, inUsers, rfl⟩ := List.mem_map.mp member
        by_cases same : old.id = banned.id
        · simp only [if_pos same]
          refine ⟨old, inUsers, rfl, (by intro asked; cases asked), .inr (.inl ⟨?_, banned, standing, same.symm,
            not_not.mp live⟩)⟩
          rw [same, named]
        · simp only [if_neg same]
          exact ⟨old, inUsers, rfl, (by intro asked; cases asked), .inl rfl⟩
  | restoreUser userId =>
      simp only [effect, bind_eq_ok, pure_eq_ok] at accepted
      obtain ⟨restored, finding, rfl⟩ := accepted
      obtain ⟨_, named⟩ := account_ok finding
      unfold Effect.ofRows restoreUser at member
      split at member
      · exact ⟨user, member, rfl, (by intro asked; cases asked), .inl rfl⟩
      · obtain ⟨old, inUsers, rfl⟩ := List.mem_map.mp member
        by_cases same : old.id = restored.id
        · simp only [if_pos same]
          refine ⟨old, inUsers, rfl, (by intro asked; cases asked), .inr (.inr ?_)⟩
          rw [same, named]
        · simp only [if_neg same]
          exact ⟨old, inUsers, rfl, (by intro asked; cases asked), .inl rfl⟩
  | hardDeleteUser userId =>
      simp only [effect, bind_eq_ok, pure_eq_ok] at accepted
      obtain ⟨erased, finding, rfl⟩ := accepted
      obtain ⟨_, named⟩ := account_ok finding
      have kept := List.mem_filter.mp member
      refine ⟨user, kept.1, rfl, ?_, .inl rfl⟩
      intro same
      have other : user.id ≠ erased.id := by
        simpa using kept.2
      rw [Request.hardDeleteUser.injEq] at same
      exact other (same.symm.trans named.symm)
  | _ =>
      rw [effect_users_kept accepted rfl] at member
      refine ⟨user, member, rfl, ?_, .inl rfl⟩
      intro asked
      cases asked

/-- The same of a step; a request that is rolled back moves no account. -/
theorem step_users {label : Label} (stepped : step config label state = .ok next) {user : User}
    (member : user ∈ next.users) (earlier : user.id ≠ config.uuids.draw state.drawn) :
    ∃ old ∈ state.users, (label.commits = true ∧ ComesFrom state label.request user old) ∨
      (label.commits = false ∧ user = old) := by
  unfold step at stepped
  simp only [bind_eq_ok, pure_eq_ok] at stepped
  obtain ⟨left, accepted, rfl⟩ := stepped
  cases commits : label.commits with
  | true =>
      rw [commits, if_pos rfl] at member
      obtain ⟨old, inUsers, comes⟩ := effect_users accepted member earlier
      exact ⟨old, inUsers, .inl ⟨rfl, comes⟩⟩
  | false =>
      rw [commits, if_neg Bool.false_ne_true] at member
      exact ⟨user, member, .inr ⟨rfl, rfl⟩⟩

end Requests

/-! ### A removal and its restoration -/

/-- An operation of someone else that does not restore the account. -/
def ByOthers (userId : Uuid) (label : Label) : Prop :=
  label.request.author ≠ some userId ∧ (label.commits = true → label.request ≠ .restoreUser userId)

/-- One soft deletion of a live account, a run of other operations, and the restoration. -/
structure Removal (config : Config) where
  userId : Uuid
  start : State
  reachable : (system config).Reachable start
  live : ∃ user, start.account userId = .ok user ∧ user.deletedAt = none
  deleted : State
  deletes : step config ⟨.softDeleteUser userId, true⟩ start = .ok deleted
  labels : List Label
  others : ∀ label ∈ labels, ByOthers userId label
  hidden : State
  between : System.runLabels (step config) labels deleted = .ok hidden
  restored : State
  restores : step config ⟨.restoreUser userId, true⟩ hidden = .ok restored

namespace Removal

variable {config : Config} (removal : Removal config)

/-- The deletion hid the event. -/
def Hid (eventId : Uuid) : Prop :=
  ∃ before ∈ removal.start.events, ∃ after ∈ removal.deleted.events,
    before.id = eventId ∧ after.id = eventId ∧ before.deletedAt = none ∧ after.deletedAt ≠ none

/-- The deletion handed the event over. -/
def HandedOver (eventId : Uuid) : Prop :=
  ∃ before ∈ removal.start.events, ∃ after ∈ removal.deleted.events,
    before.id = eventId ∧ after.id = eventId ∧
      before.ownerId = removal.userId ∧ after.ownerId ≠ removal.userId

/-- The event was soft-deleted on its own before the account was. -/
def DeletedBefore (eventId : Uuid) : Prop :=
  ∃ before ∈ removal.start.events,
    before.id = eventId ∧ before.ownerId = removal.userId ∧ before.deletedAt ≠ none

/-- The event was soft-deleted on its own between the deletion and the restoration. -/
def DeletedBetween (eventId : Uuid) : Prop :=
  ∃ label ∈ removal.labels, label.commits = true ∧ label.request = .softDeleteEvent eventId

/-- The restoration is the inverse of the deletion on what it hid. -/
structure RestoresWhatItHid : Prop where
  /-- Visible again: what the deletion hid and nobody deleted since. -/
  visibleAgain : ∀ geo ∈ removal.hidden.events,
    (geo.deletedAt ≠ none ∧ ∃ row ∈ removal.restored.events, row.id = geo.id ∧ row.deletedAt = none) ↔
      removal.Hid geo.id ∧ ¬ removal.DeletedBetween geo.id
  staysDeleted : ∀ row ∈ removal.restored.events,
    removal.DeletedBefore row.id ∨ (row.ownerId = removal.userId ∧ removal.DeletedBetween row.id) →
      row.deletedAt ≠ none
  staysHandedOver : ∀ geo ∈ removal.hidden.events, removal.HandedOver geo.id →
    geo.ownerId ≠ removal.userId ∧ geo ∈ removal.restored.events
  /-- The restoration touches the events of the account alone, and loses none. -/
  others : ∀ geo ∈ removal.hidden.events, geo.ownerId ≠ removal.userId →
    geo ∈ removal.restored.events
  rows : removal.restored.events.map Event.id = removal.hidden.events.map Event.id

/-- The label deletes no event of the account under the stamp of its deletion, and saves no
version of one that is deleted. -/
def LabelTellsApart (userId : Uuid) (stamp : Instant) (label : Label) (state : State) : Prop :=
  label.commits = true → ∀ geo ∈ state.events, geo.ownerId = userId →
    (label.request = .softDeleteEvent geo.id →
      (softDeleteEvent state.now geo).deletedAt ≠ some stamp) ∧
      (label.request.saves = some geo.id → geo.deletedAt = none)

/-- Every label of a run does. -/
def RunTellsApart (config : Config) (userId : Uuid) (stamp : Instant) : List Label → State → Prop
  | [], _ => True
  | label :: labels, state =>
    LabelTellsApart userId stamp label state ∧
      ∀ next, step config label state = .ok next → RunTellsApart config userId stamp labels next

/-- No event of the account is deleted on its own under the stamp of its deletion. -/
structure StampsTellApart : Prop where
  before : ∀ geo ∈ removal.start.events, geo.ownerId = removal.userId →
    geo.deletedAt ≠ some removal.start.now
  between : RunTellsApart config removal.userId removal.start.now removal.labels removal.deleted

end Removal

/-! ### Between the two -/

section Between

variable {config : Config} {state next : State} {userId : Uuid} {stamp : Instant} {deleted : State}

theorem handOverHeir_live {users : List User} {owner : User} {geo : Event} {heirId : Uuid}
    (inherits : handOverHeir users owner geo = some heirId) :
    ∃ user ∈ users, user.id = heirId ∧ user.deletedAt = none := by
  unfold handOverHeir at inherits
  split at inherits
  · unfold heir? at inherits
    rw [Option.map_eq_some_iff] at inherits
    obtain ⟨row, first, rfl⟩ := inherits
    have member := List.mem_of_head? first
    rw [mem_sortedBy, List.mem_filter] at member
    simp only [decide_eq_true_eq] at member
    obtain ⟨_, _, _, user, standing, same, live⟩ := member
    exact ⟨user, standing, same, live⟩
  · cases inherits

/-- What stands of the events of the account in a state after its deletion. -/
structure KeepsStamps (userId : Uuid) (stamp : Instant) (deleted state : State) : Prop where
  /-- The account is deleted, wherever its row stands. -/
  banned : ∀ user ∈ state.users, user.id = userId → user.deletedAt = some stamp
  drawn : deleted.drawn ≤ state.drawn
  /-- Its events keep their owner and their stamp. -/
  kept : ∀ after ∈ deleted.events, after.ownerId = userId →
    ∀ geo ∈ state.events, geo.id = after.id → SameStamps after geo
  /-- It owns no other event the deletion found, and what it came to own has another stamp. -/
  owned : ∀ geo ∈ state.events, geo.ownerId = userId →
    (∃ after ∈ deleted.events, after.id = geo.id ∧ after.ownerId = userId) ∨
      ((∀ after ∈ deleted.events, after.id ≠ geo.id) ∧ geo.deletedAt ≠ some stamp)

/-- The state a deletion leaves: the account was drawn, and what it owns is deleted. -/
structure AfterDeletion (config : Config) (userId : Uuid) (deleted : State) : Prop where
  identified : Identified config deleted
  known : IsDrawn config deleted.drawn userId
  gone : ∀ after ∈ deleted.events, after.ownerId = userId → after.deletedAt ≠ none

/-- A restamp of an event of the account, deleted, is a soft deletion or moves nothing. -/
theorem Restamp.sameStamps {label : Label} {row geo : Event}
    (restamp : Restamp state label.request row geo) (commits : label.commits = true)
    (others : ByOthers userId label) (tells : Removal.LabelTellsApart userId stamp label state)
    (erased : label.request ≠ .hardDeleteUser userId)
    (found : row ∈ state.events) (owned : row.ownerId = userId) (gone : row.deletedAt ≠ none) :
    SameStamps row geo := by
  cases restamp with
  | deleted _ =>
      obtain ⟨earlier, stamped⟩ := Option.ne_none_iff_exists'.mp gone
      refine ⟨rfl, rfl, ?_⟩
      unfold softDeleteEvent
      rw [stamped]
      rfl
  | banned asked standing live =>
      unfold banEvent hideWith
      rw [if_neg gone, if_neg (fun both => gone both.2)]
      exact ⟨rfl, rfl, rfl⟩
  | @restored user asked standing =>
      have other : row.ownerId ≠ user.id := by
        intro same
        rw [← same, owned] at asked
        exact others.2 commits asked
      unfold restoreWith
      rw [if_neg (fun both => other both.1)]
      exact ⟨rfl, rfl, rfl⟩
  | @forgotten user asked standing =>
      have other : row.ownerId ≠ user.id := by
        intro same
        rw [← same, owned] at asked
        exact erased asked
      unfold passOn
      rw [if_neg other]
      exact ⟨rfl, rfl, rfl⟩
  | taken saves _ _ _ =>
      exact absurd ((tells commits row found owned).2 saves) gone

/-- Passing on an event of someone else gives it to no deleted account. -/
theorem passOn_owner {users : List User} {user : User} {row : Event}
    (banned : ∀ user ∈ users, user.id = userId → user.deletedAt = some stamp)
    (other : user.id ≠ userId) (owned : (passOn users user row).ownerId = userId) :
    passOn users user row = row ∧ row.ownerId = userId := by
  unfold passOn at owned ⊢
  split at owned
  · rename_i holds
    obtain same | ⟨heirId, inherits, passed⟩ := handOver_eq users user row
    · rw [same] at owned
      exact absurd (holds.symm.trans owned) other
    · rw [passed] at owned
      obtain ⟨heir, standing, named, live⟩ := handOverHeir_live inherits
      rw [banned heir standing (named.trans owned)] at live
      cases live
  · rename_i different
    exact ⟨if_neg different, owned⟩

theorem hideWith_ownerId (user : User) (now : Instant) (geo : Event) :
    (hideWith user now geo).ownerId = geo.ownerId := by
  unfold hideWith
  split <;> rfl

/-- Nor does banning someone else. -/
theorem banEvent_owner {users : List User} {user : User} {now : Instant} {row : Event}
    (banned : ∀ user ∈ users, user.id = userId → user.deletedAt = some stamp)
    (other : user.id ≠ userId) (owned : (banEvent users user now row).ownerId = userId) :
    banEvent users user now row = row ∧ row.ownerId = userId := by
  have spares : row.ownerId = userId → hideWith user now row = row := by
    intro own
    unfold hideWith
    rw [if_neg]
    intro both
    exact other (both.1.symm.trans own)
  unfold banEvent at owned ⊢
  rw [hideWith_ownerId] at owned
  by_cases live : row.deletedAt = none
  · rw [if_pos live] at owned ⊢
    obtain ⟨same, own⟩ := passOn_owner banned other owned
    rw [same]
    exact ⟨spares own, own⟩
  · rw [if_neg live] at owned ⊢
    exact ⟨spares owned, owned⟩

/-- A restamp gives the account no event, and none of its stamp. -/
theorem Restamp.owned {label : Label} {row geo : Event}
    (restamp : Restamp state label.request row geo) (commits : label.commits = true)
    (others : ByOthers userId label) (tells : Removal.LabelTellsApart userId stamp label state)
    (banned : ∀ user ∈ state.users, user.id = userId → user.deletedAt = some stamp)
    (erased : label.request ≠ .hardDeleteUser userId) (found : row ∈ state.events)
    (owned : geo.ownerId = userId) :
    row.ownerId = userId ∧ (row.deletedAt ≠ some stamp → geo.deletedAt ≠ some stamp) := by
  cases restamp with
  | deleted asked =>
      have own : row.ownerId = userId := owned
      exact ⟨own, fun _ => (tells commits row found own).1 asked⟩
  | @banned user asked standing live =>
      have other : user.id ≠ userId := by
        intro same
        rw [banned user standing same] at live
        cases live
      obtain ⟨same, own⟩ := banEvent_owner banned other owned
      rw [same]
      exact ⟨own, fun apart => apart⟩
  | @restored user asked standing =>
      have other : user.id ≠ userId := by
        intro same
        rw [same] at asked
        exact others.2 commits asked
      obtain ⟨_, event⟩ := restoreWith_event user row
      have own : row.ownerId = userId := by
        rw [event] at owned
        exact owned
      have different : row.ownerId ≠ user.id := by
        rw [own]
        exact Ne.symm other
      unfold restoreWith
      rw [if_neg (fun both => different both.1)]
      exact ⟨own, fun apart => apart⟩
  | @forgotten user asked standing =>
      have other : user.id ≠ userId := by
        intro same
        rw [same] at asked
        exact erased asked
      obtain ⟨same, own⟩ := passOn_owner banned other owned
      rw [same]
      exact ⟨own, fun apart => apart⟩
  | taken _ author _ _ =>
      rw [owned] at author
      exact absurd author others.1

theorem KeepsStamps.fresh (standing : KeepsStamps userId stamp deleted state)
    (after : AfterDeletion config userId deleted) : userId ≠ config.uuids.draw state.drawn := by
  intro same
  exact not_isDrawn_draw config state.drawn (same ▸ after.known.mono standing.drawn)

/-- A step that leaves the account did not erase it. -/
theorem KeepsStamps.spares {label : Label} (standing : KeepsStamps userId stamp deleted state)
    (after : AfterDeletion config userId deleted)
    (stepped : step config label state = .ok next) (present : ∃ user ∈ next.users, user.id = userId)
    (commits : label.commits = true) : label.request ≠ .hardDeleteUser userId := by
  obtain ⟨user, inNext, rfl⟩ := present
  obtain ⟨_, _, ⟨_, comes⟩ | ⟨rolls, _⟩⟩ := step_users stepped inNext (standing.fresh after)
  · exact comes.erased
  · rw [commits] at rolls
    cases rolls

/-- What stands after an operation of someone else whose stamps tell apart. -/
theorem KeepsStamps.step {label : Label} (standing : KeepsStamps userId stamp deleted state)
    (after : AfterDeletion config userId deleted)
    (stepped : step config label state = .ok next) (others : ByOthers userId label)
    (tells : Removal.LabelTellsApart userId stamp label state)
    (present : ∃ user ∈ next.users, user.id = userId) : KeepsStamps userId stamp deleted next := by
  have spares := standing.spares after stepped present
  refine ⟨?_, standing.drawn.trans (step_drawn_le stepped), ?_, ?_⟩
  · intro user inNext named
    subst named
    obtain ⟨old, inUsers, ⟨commits, comes⟩ | ⟨_, rfl⟩⟩ :=
      step_users stepped inNext (standing.fresh after)
    · have stamped := standing.banned old inUsers comes.id
      obtain same | ⟨_, live, inState, named, free⟩ | restores := comes.deletedAt
      · exact same.trans stamped
      · rw [standing.banned live inState named] at free
        cases free
      · exact absurd restores (others.2 commits)
    · exact standing.banned user inUsers rfl
  · intro stood inDeleted owned geo inNext same
    obtain ⟨row, found, kept | ⟨commits, restamp⟩⟩ | born := step_restamps stepped inNext
    · have earlier := standing.kept stood inDeleted owned row found (kept.id.symm.trans same)
      exact ⟨same, kept.owner.trans earlier.owner, kept.deletedAt.trans earlier.deletedAt⟩
    · have earlier := standing.kept stood inDeleted owned row found (restamp.id.symm.trans same)
      have hidden : row.deletedAt ≠ none := by
        rw [earlier.deletedAt]
        exact after.gone stood inDeleted owned
      have later := restamp.sameStamps commits others tells (spares commits) found
        (earlier.owner.trans owned) hidden
      exact ⟨same, later.owner.trans earlier.owner, later.deletedAt.trans earlier.deletedAt⟩
    · exfalso
      rw [born.id] at same
      apply not_isDrawn_draw config state.drawn
      rw [same]
      exact (after.identified.events stood inDeleted).mono standing.drawn
  · intro geo inNext owned
    obtain ⟨row, found, kept | ⟨commits, restamp⟩⟩ | born := step_restamps stepped inNext
    · rw [kept.id, kept.deletedAt]
      exact standing.owned row found (kept.owner.symm.trans owned)
    · obtain ⟨own, apart⟩ := restamp.owned commits others tells standing.banned (spares commits)
        found owned
      rw [restamp.id]
      obtain before | ⟨new, stamped⟩ := standing.owned row found own
      · exact .inl before
      · exact .inr ⟨new, apart stamped⟩
    · right
      constructor
      · intro stood inDeleted same
        rw [born.id] at same
        apply not_isDrawn_draw config state.drawn
        rw [← same]
        exact (after.identified.events stood inDeleted).mono standing.drawn
      · rw [born.live]
        exact nofun

/-- The events of the account under an id are deleted. -/
structure StaysGone (config : Config) (userId eventId : Uuid) (state : State) : Prop where
  drawn : IsDrawn config state.drawn eventId
  deleted : ∀ geo ∈ state.events, geo.id = eventId → geo.ownerId = userId → geo.deletedAt ≠ none

theorem StaysGone.step {label : Label} {eventId : Uuid} (gone : StaysGone config userId eventId state)
    (standing : KeepsStamps userId stamp deleted state) (after : AfterDeletion config userId deleted)
    (stepped : World.step config label state = .ok next) (others : ByOthers userId label)
    (tells : Removal.LabelTellsApart userId stamp label state)
    (present : ∃ user ∈ next.users, user.id = userId) : StaysGone config userId eventId next := by
  refine ⟨gone.drawn.mono (step_drawn_le stepped), ?_⟩
  intro geo inNext named owned
  obtain ⟨row, found, kept | ⟨commits, restamp⟩⟩ | born := step_restamps stepped inNext
  · rw [kept.deletedAt]
    exact gone.deleted row found (kept.id.symm.trans named) (kept.owner.symm.trans owned)
  · have spares := standing.spares after stepped present commits
    obtain ⟨own, _⟩ := restamp.owned commits others tells standing.banned spares found owned
    have hidden := gone.deleted row found (restamp.id.symm.trans named) own
    rw [(restamp.sameStamps commits others tells spares found own hidden).deletedAt]
    exact hidden
  · exfalso
    rw [born.id] at named
    apply not_isDrawn_draw config state.drawn
    rw [named]
    exact gone.drawn

/-- An account that stands after a step stood before it. -/
theorem present_of_step {label : Label} (known : IsDrawn config state.drawn userId)
    (stepped : step config label state = .ok next) (present : ∃ user ∈ next.users, user.id = userId) :
    ∃ user ∈ state.users, user.id = userId := by
  obtain ⟨user, inNext, rfl⟩ := present
  have fresh : user.id ≠ config.uuids.draw state.drawn := by
    intro same
    exact not_isDrawn_draw config state.drawn (same ▸ known)
  obtain ⟨old, inUsers, ⟨_, comes⟩ | ⟨_, rfl⟩⟩ := step_users stepped inNext fresh
  · exact ⟨old, inUsers, comes.id⟩
  · exact ⟨user, inUsers, rfl⟩

theorem softDeleteEvent_found {label : Label} {eventId : Uuid}
    (asked : label.request = .softDeleteEvent eventId)
    (stepped : step config label state = .ok next) : ∃ geo ∈ state.events, geo.id = eventId := by
  unfold step at stepped
  rw [asked] at stepped
  simp only [effect, State.rewrite, bind_eq_ok] at stepped
  obtain ⟨_, ⟨geo, locking, _⟩, _⟩ := stepped
  exact ⟨geo, lockEvent_ok locking⟩

/-- A soft deletion leaves its event deleted. -/
theorem softDeleteEvent_gone {label : Label} {eventId : Uuid} (commits : label.commits = true)
    (asked : label.request = .softDeleteEvent eventId)
    (stepped : step config label state = .ok next) :
    ∀ geo ∈ next.events, geo.id = eventId → geo.deletedAt ≠ none := by
  unfold step at stepped
  rw [asked] at stepped
  simp only [effect, State.rewrite, bind_eq_ok, pure_eq_ok, commits, if_true] at stepped
  obtain ⟨_, ⟨row, locking, _, rfl, rfl⟩, rfl⟩ := stepped
  intro geo member named
  obtain ⟨_, here⟩ := lockEvent_ok locking
  obtain ⟨origin, _, rfl⟩ := List.mem_map.mp member
  by_cases same : origin.id = row.id
  · have put : (if origin.id = (softDeleteEvent state.now row).id then
        softDeleteEvent state.now row else origin) = softDeleteEvent state.now row := if_pos same
    rw [put]
    exact Option.some_ne_none _
  · have put : (if origin.id = (softDeleteEvent state.now row).id then
        softDeleteEvent state.now row else origin) = origin := if_neg same
    rw [put] at named
    exact absurd (named.trans here.symm) same

/-- One more label, and the account still stands at the end. -/
theorem runLabels_cons {label : Label} {labels : List Label} {final : State}
    (ran : System.runLabels (step config) (label :: labels) state = .ok final) :
    ∃ middle, step config label state = .ok middle ∧
      System.runLabels (step config) labels middle = .ok final := by
  simp only [System.runLabels] at ran
  split at ran
  · rename_i middle stepped
    exact ⟨middle, stepped, ran⟩
  · cases ran

theorem present_of_run {labels : List Label} (known : IsDrawn config state.drawn userId)
    (ran : System.runLabels (step config) labels state = .ok next)
    (present : ∃ user ∈ next.users, user.id = userId) : ∃ user ∈ state.users, user.id = userId := by
  induction labels generalizing state with
  | nil =>
      cases ran
      exact present
  | cons label labels inductionHypothesis =>
      obtain ⟨middle, stepped, ran⟩ := runLabels_cons ran
      exact present_of_step known stepped
        (inductionHypothesis (known.mono (step_drawn_le stepped)) ran)

section Run

variable {labels : List Label} (standing : KeepsStamps userId stamp deleted state)
  (after : AfterDeletion config userId deleted)
  (others : ∀ label ∈ labels, ByOthers userId label)
  (tells : Removal.RunTellsApart config userId stamp labels state)
  (ran : System.runLabels (step config) labels state = .ok next)
  (present : ∃ user ∈ next.users, user.id = userId)
include standing after others tells ran present

theorem gone_of_run {eventId : Uuid} (gone : StaysGone config userId eventId state) :
    StaysGone config userId eventId next := by
  induction labels generalizing state with
  | nil =>
      cases ran
      exact gone
  | cons label labels inductionHypothesis =>
      obtain ⟨middle, stepped, ran⟩ := runLabels_cons ran
      have stands := present_of_run
        (after.known.mono (standing.drawn.trans (step_drawn_le stepped))) ran present
      have first := others label List.mem_cons_self
      exact inductionHypothesis (standing.step after stepped first tells.1 stands)
        (fun other inLabels => others other (List.mem_cons_of_mem _ inLabels))
        (tells.2 middle stepped) ran (gone.step standing after stepped first tells.1 stands)

/-- What stands after the run between; the run deleted no event the deletion had hidden, and what
it deleted stays deleted. -/
theorem standing_of_run (identified : Identified config state) :
    KeepsStamps userId stamp deleted next ∧
    ∀ label ∈ labels, label.commits = true → ∀ eventId, label.request = .softDeleteEvent eventId →
      (∀ stood ∈ deleted.events, stood.id = eventId → stood.ownerId = userId →
        stood.deletedAt ≠ some stamp) ∧ StaysGone config userId eventId next := by
  induction labels generalizing state with
  | nil =>
      cases ran
      exact ⟨standing, fun _ member => by cases member⟩
  | cons label labels inductionHypothesis =>
      obtain ⟨middle, stepped, continues⟩ := runLabels_cons ran
      have stands := present_of_run
        (after.known.mono (standing.drawn.trans (step_drawn_le stepped))) continues present
      have later := standing.step after stepped (others label List.mem_cons_self) tells.1 stands
      have rest : ∀ other ∈ labels, ByOthers userId other :=
        fun other inLabels => others other (List.mem_cons_of_mem _ inLabels)
      obtain ⟨final, spared⟩ := inductionHypothesis later rest (tells.2 middle stepped) continues
        (identified.step stepped)
      refine ⟨final, ?_⟩
      intro other member commits eventId asked
      obtain rfl | inLabels := List.mem_cons.mp member
      · obtain ⟨geo, found, rfl⟩ := softDeleteEvent_found asked stepped
        constructor
        · -- such an event already carries the stamp, and would keep it
          intro stood inDeleted same owned stamped
          have earlier := standing.kept stood inDeleted owned geo found same.symm
          apply (tells.1 commits geo found (earlier.owner.trans owned)).1 asked
          unfold softDeleteEvent
          rw [earlier.deletedAt.trans stamped]
          rfl
        · apply gone_of_run later after rest (tells.2 middle stepped) continues present
          exact ⟨(identified.events geo found).mono (step_drawn_le stepped),
            fun row inMiddle named _ =>
              softDeleteEvent_gone commits asked stepped row inMiddle named⟩
      · exact spared other inLabels commits eventId asked

end Run

end Between

/-! ### The deletion and the restoration themselves -/

/-- What the deletion does to one event: it spares it, hands it over, or hides it. -/
inductive Banned (user : User) (now : Instant) (row : Event) : Event → Prop
  | spared (spared : ¬ (row.ownerId = user.id ∧ row.deletedAt = none)) : Banned user now row row
  | handedOver {heirId : Uuid} (owned : row.ownerId = user.id) (live : row.deletedAt = none)
      (other : heirId ≠ user.id) :
      Banned user now row { row with ownerId := heirId, deletedAt := none }
  | hid (owned : row.ownerId = user.id) (live : row.deletedAt = none) :
      Banned user now row { row with deletedAt := some now }

theorem banEvent_banned (users : List User) (user : User) (now : Instant) (row : Event) :
    Banned user now row (banEvent users user now row) := by
  unfold banEvent
  by_cases live : row.deletedAt = none
  · rw [if_pos live]
    unfold passOn
    by_cases owned : row.ownerId = user.id
    · rw [if_pos owned]
      obtain same | ⟨heirId, inherits, passed⟩ := handOver_eq users user row
      · rw [same]
        unfold hideWith
        rw [if_pos ⟨owned, live⟩]
        exact .hid owned live
      · rw [passed]
        have other := (handOverHeir_active inherits).1
        unfold hideWith
        rw [if_neg (fun both => other both.1)]
        exact .handedOver owned live other
    · rw [if_neg owned]
      unfold hideWith
      rw [if_neg (fun both => owned both.1)]
      exact .spared fun both => owned both.1
  · rw [if_neg live]
    unfold hideWith
    rw [if_neg (fun both => live both.2)]
    exact .spared fun both => live both.2

theorem Banned.id {user : User} {now : Instant} {row geo : Event} (banned : Banned user now row geo) :
    geo.id = row.id := by
  cases banned with
  | spared _ | handedOver _ _ _ | hid _ _ => rfl

/-- An event the account still owns afterwards is deleted: at that instant, or before. -/
theorem Banned.owned {user : User} {now : Instant} {row geo : Event}
    (banned : Banned user now row geo) (owned : geo.ownerId = user.id) :
    row.ownerId = user.id ∧ geo.deletedAt = some (row.deletedAt.getD now) := by
  cases banned with
  | spared spared =>
      refine ⟨owned, ?_⟩
      obtain ⟨stamp, stamped⟩ := Option.ne_none_iff_exists'.mp fun live => spared ⟨owned, live⟩
      rw [stamped]
      rfl
  | handedOver _ _ other => exact absurd owned other
  | hid own live =>
      rw [live]
      exact ⟨own, rfl⟩

namespace Removal

variable {config : Config} (removal : Removal config)

/-- The rows the deletion leaves. -/
theorem deleted_rows : ∃ user ∈ removal.start.users, user.id = removal.userId ∧
    removal.deleted.events =
      removal.start.events.map (banEvent removal.start.users user removal.start.now) ∧
    removal.deleted.drawn = removal.start.drawn ∧
    ∀ other ∈ removal.deleted.users, other.id = removal.userId →
      other.deletedAt = some removal.start.now := by
  obtain ⟨user, finding, live⟩ := removal.live
  have deletes := removal.deletes
  simp only [World.step, effect, bind_eq_ok, pure_eq_ok, if_true] at deletes
  obtain ⟨_, ⟨same, finds, rfl⟩, left⟩ := deletes
  rw [finding] at finds
  cases finds
  obtain ⟨standing, named⟩ := account_ok finding
  refine ⟨user, standing, named, ?_, ?_, ?_⟩
  · rw [← left]
    unfold Effect.commit Effect.ofRows softDeleteUser
    rw [if_neg (not_not.mpr live)]
  · rw [← left]
    unfold Effect.commit Effect.ofRows softDeleteUser
    rw [if_neg (not_not.mpr live)]
  · intro other member here
    rw [← left] at member
    unfold Effect.commit Effect.ofRows softDeleteUser at member
    rw [if_neg (not_not.mpr live)] at member
    obtain ⟨old, _, rfl⟩ := List.mem_map.mp member
    by_cases matches_ : old.id = user.id
    · rw [if_pos matches_]
    · rw [if_neg matches_] at here
      exact absurd (here.trans named.symm) matches_

/-- The rows the restoration leaves. -/
theorem restored_rows : ∃ user ∈ removal.hidden.users, user.id = removal.userId ∧
    (user.deletedAt ≠ none → removal.restored.events =
      removal.hidden.events.map (restoreWith user)) := by
  have restores := removal.restores
  simp only [World.step, effect, bind_eq_ok, pure_eq_ok, if_true] at restores
  obtain ⟨_, ⟨user, finding, rfl⟩, left⟩ := restores
  obtain ⟨standing, named⟩ := account_ok finding
  refine ⟨user, standing, named, ?_⟩
  intro banned
  rw [← left]
  unfold Effect.commit Effect.ofRows restoreUser
  rw [if_neg banned]

theorem deleted_reachable : (system config).Reachable removal.deleted :=
  removal.reachable.step removal.deletes

theorem hidden_reachable : (system config).Reachable removal.hidden :=
  removal.deleted_reachable.run (System.Run.of_runLabels removal.between)

/-- An event of a reachable state is known by its id. -/
theorem same_of_id {state : State} (reachable : (system config).Reachable state) {left right : Event}
    (inLeft : left ∈ state.events) (inRight : right ∈ state.events) (same : left.id = right.id) :
    left = right :=
  List.inj_on_of_nodup_map (identified_of_reachable reachable).unique inLeft inRight same

/-- Every event the deletion leaves was there before it. -/
theorem banned_from {after : Event} (member : after ∈ removal.deleted.events) :
    ∃ user before, user.id = removal.userId ∧ before ∈ removal.start.events ∧
      Banned user removal.start.now before after := by
  obtain ⟨user, _, named, events, _⟩ := removal.deleted_rows
  rw [events] at member
  obtain ⟨before, inStart, rfl⟩ := List.mem_map.mp member
  exact ⟨user, before, named, inStart, banEvent_banned _ _ _ _⟩

/-- What the account still owns after its deletion is deleted. -/
theorem owned_gone : ∀ after ∈ removal.deleted.events, after.ownerId = removal.userId →
    after.deletedAt ≠ none := by
  intro after member owned
  obtain ⟨user, before, named, _, banned⟩ := removal.banned_from member
  rw [(banned.owned (owned.trans named.symm)).2]
  exact nofun

/-- The account and the events it owns, right after its deletion. -/
theorem standing_initially :
    KeepsStamps removal.userId removal.start.now removal.deleted removal.deleted := by
  obtain ⟨_, _, _, _, _, banned⟩ := removal.deleted_rows
  refine ⟨banned, le_refl _, ?_, ?_⟩
  · intro after inDeleted _ geo member same
    rw [same_of_id removal.deleted_reachable member inDeleted same]
    exact ⟨rfl, rfl, rfl⟩
  · intro geo member owned
    exact .inl ⟨geo, member, rfl, owned⟩

/-- An event the deletion hid is the account's, under the stamp of the deletion. -/
theorem hid_after {eventId : Uuid} (hid : removal.Hid eventId) :
    ∃ after ∈ removal.deleted.events, after.id = eventId ∧ after.ownerId = removal.userId ∧
      after.deletedAt = some removal.start.now := by
  obtain ⟨before, inStart, after, inDeleted, here, there, live, gone⟩ := hid
  obtain ⟨user, row, named, found, banned⟩ := removal.banned_from inDeleted
  have same : row = before :=
    same_of_id removal.reachable found inStart (banned.id.symm.trans (there.trans here.symm))
  refine ⟨after, inDeleted, there, ?_⟩
  cases banned with
  | spared _ =>
      rw [same] at gone
      exact absurd live gone
  | handedOver _ _ _ => exact absurd rfl gone
  | hid owned _ => exact ⟨owned.trans named, rfl⟩

theorem hid_of_after {after : Event} (member : after ∈ removal.deleted.events)
    (before : ∀ geo ∈ removal.start.events, geo.ownerId = removal.userId →
      geo.deletedAt ≠ some removal.start.now)
    (owned : after.ownerId = removal.userId) (stamped : after.deletedAt = some removal.start.now) :
    removal.Hid after.id := by
  obtain ⟨user, row, named, found, banned⟩ := removal.banned_from member
  cases banned with
  | spared _ => exact absurd stamped (before _ found owned)
  | handedOver _ _ other => exact absurd (owned.trans named.symm) other
  | hid _ live => exact ⟨row, found, _, member, rfl, rfl, live, nofun⟩

/-- An event deleted on its own before keeps its stamp through the deletion. -/
theorem deletedBefore_after {eventId : Uuid} (deleted : removal.DeletedBefore eventId) :
    ∃ after ∈ removal.deleted.events, after.id = eventId ∧ after.ownerId = removal.userId ∧
      after ∈ removal.start.events ∧ after.deletedAt ≠ none := by
  obtain ⟨before, inStart, here, owned, gone⟩ := deleted
  obtain ⟨user, _, _, events, _⟩ := removal.deleted_rows
  have member : banEvent removal.start.users user removal.start.now before ∈
      removal.deleted.events := by
    rw [events]
    exact List.mem_map_of_mem inStart
  have banned := banEvent_banned removal.start.users user removal.start.now before
  generalize banEvent removal.start.users user removal.start.now before = after at member banned
  cases banned with
  | spared _ => exact ⟨_, member, here, owned, inStart, gone⟩
  | handedOver _ live _ | hid _ live => exact absurd live gone

theorem restoreWith_visible (user : User) (geo : Event) :
    (restoreWith user geo).deletedAt = none ↔
      geo.deletedAt = none ∨ (geo.ownerId = user.id ∧ geo.deletedAt = user.deletedAt) := by
  unfold restoreWith
  split
  · rename_i restores
    exact ⟨fun _ => .inr restores, fun _ => rfl⟩
  · rename_i keeps
    exact ⟨.inl, fun either => either.resolve_right keeps⟩

end Removal

/-! ### A deletion the stamps cannot tell apart -/

/-- A request of ann (event 4) and, one hour later, the deletion of her account. -/
def smallDeletion : List Request := smallSetup ++ [smallDraft, .tick 3600]

theorem runSmall_of_append {earlier later : List Request}
    (accepted : (runSmall (earlier ++ later)).isOk = true) : (runSmall earlier).isOk = true := by
  unfold runSmall at accepted ⊢
  rw [List.map_append, System.runLabels_append] at accepted
  cases ran : System.runLabels (step smallConfig)
      (earlier.map fun request => Label.mk request true) (initial 0) with
  | ok state => rfl
  | error refusal =>
      rw [ran] at accepted
      cases accepted

/-- That deletion, the requests `between`, and the restoration. -/
def smallRestored (between : List Request) : List Request :=
  smallDeletion ++ [.softDeleteUser 0] ++ between ++ [.restoreUser 0]

def smallRemoval (between : List Request)
    (others : ∀ request ∈ between, request.author ≠ some 0 ∧ request ≠ .restoreUser 0)
    (accepted : (runSmall (smallRestored between)).isOk = true) : Removal smallConfig where
  userId := 0
  start := smallState smallDeletion
  reachable := smallState_reachable (by decide +kernel)
  live := by
    have standing : ∃ user ∈ (smallState smallDeletion).users, user.id = 0 ∧
        (smallState smallDeletion).account 0 = .ok user ∧ user.deletedAt = none := by
      decide +kernel
    obtain ⟨user, _, _, found, live⟩ := standing
    exact ⟨user, found, live⟩
  deleted := smallState (smallDeletion ++ [Request.softDeleteUser 0])
  deletes := smallState_step (.softDeleteUser 0) (runSmall_of_append (runSmall_of_append accepted))
  labels := between.map fun request => ⟨request, true⟩
  others := by
    intro label member
    obtain ⟨request, inBetween, rfl⟩ := List.mem_map.mp member
    exact ⟨(others request inBetween).1, fun _ => (others request inBetween).2⟩
  hidden := smallState (smallDeletion ++ [Request.softDeleteUser 0] ++ between)
  between := small_run (runSmall_of_append accepted)
  restored := smallState (smallRestored between)
  restores := smallState_step (.restoreUser 0) accepted

end Vidit.World
