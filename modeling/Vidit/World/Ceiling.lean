import Vidit.World.Credit

/-!
Contract: how many analysts an event credits and invites, over every run.

The ceiling is checked where an invitation is staged, over the rows of live accounts.
Every other write leaves the count or lowers it, except the restore of an account, which
brings its rows back without a check.

Owns:
- who counts on an event, and what each write does to them;
- that the ceiling holds in every run whose restores find room on every event;
- a run that restores an invitee whose place was given away.

Does not own: who may invite, accept or remove (`Vidit.Events.Credit`).
-/

namespace Vidit.World

open Vidit.Python Vidit.Accounts Vidit.Evidence Vidit.Events Vidit.Library

variable {config : Config} {state next final : State} {survivors users : List User}
variable {geo row : Event} {stored : EventGeolocator} {userId : Uuid} {tx : Events.Transaction}

/-! ### Who counts -/

/-- The event credits or invites the live analyst. -/
def Counted (users : List User) (geo : Event) (userId : Uuid) : Prop :=
  ∃ row ∈ geo.geolocators, row.userId = userId ∧ row.state ≠ .departed ∧ LiveId users userId

/-- The analysts an event credits or invites, as the ceiling counts them. -/
def countedIds (users : List User) (geo : Event) : List Uuid :=
  (geo.geolocators.filter fun row => row.state ≠ .departed ∧
    ∃ user ∈ users, user.id = row.userId ∧ user.deletedAt = none).map EventGeolocator.userId

theorem mem_countedIds : userId ∈ countedIds users geo ↔ Counted users geo userId := by
  unfold countedIds Counted LiveId
  constructor
  · intro member
    rcases List.mem_map.mp member with ⟨row, counts, rfl⟩
    rcases List.mem_filter.mp counts with ⟨inRows, holds⟩
    rw [decide_eq_true_eq] at holds
    exact ⟨row, inRows, rfl, holds⟩
  · rintro ⟨row, inRows, rfl, holds⟩
    exact List.mem_map_of_mem (List.mem_filter.mpr ⟨inRows, decide_eq_true holds⟩)

theorem countedIds_length (geo : Event) :
    (countedIds tx.users geo).length = heldCredits tx geo := by
  unfold countedIds heldCredits
  rw [List.length_map]

theorem RowsKept.countedIds_nodup (kept : RowsKept geo) : (countedIds users geo).Nodup :=
  kept.single.sublist (List.filter_sublist.map _)

/-- Who counts after a write counted before, or is the one it adds. -/
theorem countedIds_length_le {before after : List User} (kept : RowsKept geo) (added : List Uuid)
    (counted : ∀ userId, Counted after geo userId →
      userId ∈ added ∨ Counted before row userId) :
    (countedIds after geo).length ≤ added.length + (countedIds before row).length := by
  rw [← List.length_append]
  refine (kept.countedIds_nodup.subperm ?_).length_le
  intro userId member
  rw [List.mem_append, mem_countedIds]
  exact counted userId (mem_countedIds.mp member)

theorem counted_setGeolocator : Counted users (geo.setGeolocator stored) userId ↔
    (stored.userId = userId ∧ stored.state ≠ .departed ∧ LiveId users userId) ∨
      (stored.userId ≠ userId ∧ Counted users geo userId) := by
  unfold Counted
  constructor
  · rintro ⟨other, member, same, holds⟩
    rcases mem_setGeolocator.mp member with rfl | ⟨old, different⟩
    · exact .inl ⟨same, holds⟩
    · exact .inr ⟨fun equal => different (same.trans equal.symm), other, old, same, holds⟩
  · rintro (⟨same, holds⟩ | ⟨different, other, old, same, holds⟩)
    · exact ⟨stored, mem_setGeolocator.mpr (.inl rfl), same, holds⟩
    · exact ⟨other, mem_setGeolocator.mpr (.inr ⟨old, fun equal => different (equal ▸ same)⟩),
        same, holds⟩

/-! ### What a write does to them -/

/-- The event is within the ceiling, as the accounts stand. -/
def WithinCeiling (users : List User) (geo : Event) : Prop :=
  (countedIds users geo).length ≤ maxEventGeolocators

/-- No draft credits or invites anyone. -/
def DraftsUncredited (geo : Event) : Prop :=
  isUnpublished geo.openStatus = true → geo.geolocators = []

/-- What a write leaves: the ceiling, rows of known accounts, and no row on a draft. -/
structure Admits (state : State) (row geo : Event) : Prop where
  within : WithinCeiling state.users row → WithinCeiling state.users geo
  known : ∀ stored ∈ geo.geolocators,
    (∃ earlier ∈ row.geolocators, earlier.userId = stored.userId) ∨ Known state stored.userId
  draft : DraftsUncredited geo

theorem Admits.of_rows (uncredited : DraftsUncredited row)
    (geolocators : geo.geolocators = row.geolocators)
    (status : isUnpublished geo.openStatus = isUnpublished row.openStatus) :
    Admits state row geo where
  within held := by
    unfold WithinCeiling countedIds at held ⊢
    rwa [geolocators]
  known stored member := .inl ⟨stored, geolocators ▸ member, rfl⟩
  draft unpublished := by rw [geolocators, uncredited (status ▸ unpublished)]

/-- A write that counts nobody new. -/
theorem Admits.of_subset (kept : RowsKept geo) (uncredited : DraftsUncredited row)
    (counted : ∀ userId, Counted state.users geo userId → Counted state.users row userId)
    (rows : ∀ stored ∈ geo.geolocators, ∃ earlier ∈ row.geolocators,
      earlier.userId = stored.userId)
    (status : geo.openStatus = row.openStatus) : Admits state row geo where
  within held := by
    have atMost := countedIds_length_le kept [] fun userId counts => .inr (counted userId counts)
    rw [List.length_nil, Nat.zero_add] at atMost
    exact le_trans atMost held
  known stored member := .inl (rows stored member)
  draft unpublished := by
    have empty := uncredited (status ▸ unpublished)
    rw [List.eq_nil_iff_forall_not_mem]
    intro stored member
    rcases rows stored member with ⟨earlier, inRows, _⟩
    rw [empty] at inRows
    contradiction

/-- `_stage_invite` finds room before it adds a row. -/
theorem stageInvite_room {username : Str} {invited : Event}
    (staging : stageInvite tx geo username = .ok invited) :
    (countedIds tx.users geo).length < maxEventGeolocators := by
  unfold stageInvite at staging
  simp only [bind_eq_ok, require_eq_ok, orRefuse_eq_ok, pure_eq_ok] at staging
  rcases staging with ⟨_, _, _, _, _, _, _, _, _, room, _⟩
  rw [countedIds_length]
  exact room

theorem stageInvite_rows {username : Str} {invited : Event} (kept : RowsKept geo)
    (staging : stageInvite tx geo username = .ok invited) :
    (countedIds tx.users invited).length ≤ maxEventGeolocators ∧
      ∀ stored ∈ invited.geolocators, stored ∈ geo.geolocators ∨
        ∃ user ∈ tx.users, user.id = stored.userId := by
  have room := stageInvite_room staging
  have after := (stageInvite_review kept staging).1
  rcases stageInvite_ok staging with ⟨invitee, standing, row, _, _, fresh, _, rfl⟩
  have own : row.userId = invitee.id := by
    rw [fresh]
    exact geolocator?_getD_userId _ _ rfl
  constructor
  · have counted : ∀ userId, Counted tx.users
        (geo.setGeolocator { row with state := .invited, invitedAt := some tx.now }) userId →
        userId ∈ [invitee.id] ∨ Counted tx.users geo userId := by
      intro userId counts
      rcases counted_setGeolocator.mp counts with ⟨same, _⟩ | ⟨_, old⟩
      · exact .inl (List.mem_singleton.mpr (same.symm.trans own))
      · exact .inr old
    have atMost := countedIds_length_le after [invitee.id] counted
    rw [List.length_singleton] at atMost
    omega
  · intro stored member
    rcases mem_setGeolocator.mp member with rfl | ⟨old, _⟩
    · exact .inr ⟨invitee, standing, own.symm⟩
    · exact .inl old

theorem inviteOnPublish_rows {usernames : List Str} {invited : Event} (kept : RowsKept geo)
    (held : WithinCeiling tx.users geo)
    (inviting : inviteOnPublish tx geo usernames = .ok invited) :
    WithinCeiling tx.users invited ∧
      ∀ stored ∈ invited.geolocators, stored ∈ geo.geolocators ∨
        ∃ user ∈ tx.users, user.id = stored.userId := by
  induction usernames generalizing geo with
  | nil =>
      simp only [inviteOnPublish, pure_eq_ok] at inviting
      subst inviting
      exact ⟨held, fun _ member => .inl member⟩
  | cons username usernames inductionHypothesis =>
      simp only [inviteOnPublish, bind_eq_ok] at inviting
      rcases inviting with ⟨middle, staging, inviting⟩
      have staged := stageInvite_rows kept staging
      have rest := inductionHypothesis (stageInvite_review kept staging).1 staged.1 inviting
      refine ⟨rest.1, fun stored member => ?_⟩
      rcases rest.2 stored member with earlier | standing
      · exact staged.2 stored earlier
      · exact .inr standing

/-- The author of a draft is the one its publish credits before it invites. -/
theorem creditGeolocator_rows {author : Uuid} {now : Instant} (empty : geo.geolocators = []) :
    WithinCeiling users (creditGeolocator geo author now) ∧
      ∀ stored ∈ (creditGeolocator geo author now).geolocators, stored.userId = author := by
  have rows : (creditGeolocator geo author now).geolocators =
      [⟨author, .active, none, some now, none⟩] := by
    simp [creditGeolocator, Event.setGeolocator, Event.geolocator?, empty]
  constructor
  · unfold WithinCeiling countedIds
    rw [List.length_map, rows]
    exact le_trans (List.length_filter_le _ _) (show 1 ≤ maxEventGeolocators by decide)
  · intro stored member
    rw [rows] at member
    rw [List.mem_singleton.mp member]

/-- A publish of a draft. -/
theorem Admits.of_publish {filed credited : Event} {user : User} {usernames : List Str}
    {now : Instant} (standing : user ∈ state.users) (empty : filed.geolocators = [])
    (inviting : inviteOnPublish (state.transaction config)
      (creditGeolocator filed user.id now) usernames = .ok credited)
    (published : isUnpublished credited.openStatus = false) : Admits state row credited := by
  have blank : RowsKept filed := ⟨by simp [empty], by simp [empty]⟩
  have credits : WithinCeiling state.users (creditGeolocator filed user.id now) ∧
      ∀ stored ∈ (creditGeolocator filed user.id now).geolocators, stored.userId = user.id :=
    creditGeolocator_rows empty
  have invited := inviteOnPublish_rows blank.creditGeolocator credits.1 inviting
  refine ⟨fun _ => invited.1, ?_, ?_⟩
  · intro stored member
    rcases invited.2 stored member with author | ⟨invitee, inUsers, same⟩
    · exact .inr ⟨user, standing, (credits.2 stored author).symm⟩
    · exact .inr ⟨invitee, inUsers, same⟩
  · intro unpublished
    rw [published] at unpublished
    contradiction

/-! ### Every write -/

theorem ending_admits (kept : RowsKept row) (uncredited : DraftsUncredited row)
    (finding : inviteRow row userId = .ok stored) :
    Admits state row (endInvitation row stored) := by
  have found := inviteRow_ok finding
  have standing := geolocator?_some found.1
  have ended := (endInvitation_review kept found.1 found.2).1
  unfold endInvitation at ended ⊢
  split at ended
  · rename_i stamped
    rw [if_pos stamped]
    refine .of_subset ended uncredited ?_ ?_ rfl
    · intro other counts
      rcases counted_setGeolocator.mp counts with ⟨_, departed, _⟩ | ⟨_, old⟩
      · exact absurd rfl departed
      · exact old
    · intro other member
      rcases mem_setGeolocator.mp member with rfl | ⟨old, _⟩
      · exact ⟨stored, standing.1, rfl⟩
      · exact ⟨other, old, rfl⟩
  · rename_i fresh
    rw [if_neg fresh]
    refine .of_subset ended uncredited ?_ ?_ rfl
    · rintro other ⟨counting, member, holds⟩
      exact ⟨counting, List.mem_of_mem_filter member, holds⟩
    · intro other member
      exact ⟨other, List.mem_of_mem_filter member, rfl⟩

/-- An invitee who accepts counted already. -/
theorem accepting_admits {user : User} (kept : RowsKept row) (uncredited : DraftsUncredited row)
    (accepting : accept tx row user = .ok geo) : Admits state row geo := by
  have joined := (accept_review kept accepting).1
  rcases accept_ok accepting with ⟨stored, requests, finding, _, rfl⟩
  have invited := inviteRow_ok finding
  have standing := geolocator?_some invited.1
  refine .of_subset joined uncredited ?_ ?_ rfl
  · intro other counts
    rcases counted_setGeolocator.mp counts with ⟨same, _, live⟩ | ⟨_, old⟩
    · exact ⟨stored, standing.1, same, by simp [invited.2], live⟩
    · exact old
  · intro other member
    rcases mem_setGeolocator.mp member with rfl | ⟨old, _⟩
    · exact ⟨stored, standing.1, rfl⟩
    · exact ⟨other, old, rfl⟩

theorem removing_admits {user : User} {username : Str} (kept : RowsKept row)
    (uncredited : DraftsUncredited row) (removing : remove tx row user username = .ok geo) :
    Admits state row geo := by
  rcases remove_review kept removing with ⟨_, _, left, _, _⟩
  rcases remove_ok removing with ⟨credit, _, found, _, _, rfl⟩
  have standing := geolocator?_some found
  refine .of_subset left uncredited ?_ ?_ rfl
  · intro other counts
    rcases counted_setGeolocator.mp counts with ⟨_, departed, _⟩ | ⟨_, old⟩
    · exact absurd rfl departed
    · exact old
  · intro other member
    rcases mem_setGeolocator.mp member with rfl | ⟨old, _⟩
    · exact ⟨credit, standing.1, rfl⟩
    · exact ⟨other, old, rfl⟩

theorem CreditVerb.admits {user : User} {verb : CreditVerb} (phased : Phased row)
    (kept : RowsKept row) (uncredited : DraftsUncredited row)
    (running : verb.run (state.transaction config) row user = .ok geo) :
    Admits state row geo := by
  cases verb with
  | invite username =>
      have staging := invite_ok running
      have rows := stageInvite_rows kept staging
      refine ⟨fun _ => rows.1, ?_, ?_⟩
      · intro stored member
        rcases rows.2 stored member with old | standing
        · exact .inl ⟨stored, old, rfl⟩
        · exact .inr standing
      · rcases stageInvite_ok staging with ⟨_, _, _, published, _, _, _, rfl⟩
        intro unpublished
        have status := phased.openStatus (by simp [published])
        have same : isUnpublished row.openStatus = true := unpublished
        rw [status, published] at same
        contradiction
  | withdraw username =>
      rcases withdraw_ok running with ⟨_, stored, finding, rfl⟩
      exact ending_admits kept uncredited finding
  | decline =>
      rcases decline_ok running with ⟨stored, finding, rfl⟩
      exact ending_admits kept uncredited finding
  | accept => exact accepting_admits kept uncredited running
  | remove username => exact removing_admits kept uncredited running

theorem Edited.admits {written : Written} (phased : Phased row)
    (uncredited : DraftsUncredited row) (edited : Edited config state row written) :
    Admits state row written.event := by
  cases edited with
  | updated _ updating =>
      rcases updateRequest_ok updating with ⟨_, _, _, _, _, _, finishing⟩
      rcases finishWrite_event finishing with ⟨_, _, _, event⟩
      rw [event]
      exact .of_rows uncredited rfl rfl
  | saved standing saving =>
      rcases saveVersion_ok saving with ⟨_, _, credited, opened, _, crediting, finishing⟩
      rcases finishWrite_event finishing with ⟨_, _, _, event⟩
      have left := phased.opened opened
      have same : Admits state row credited → Admits state row written.event := by
        rw [event]
        exact fun admits => ⟨admits.within, admits.known, admits.draft⟩
      apply same
      rcases creditOnPublish_event crediting with ⟨_, _, whole⟩
      unfold creditOnPublish at crediting
      split at crediting
      · rename_i publishing
        refine .of_publish standing ?_ crediting ?_
        · exact uncredited (by rw [phased.openStatus opened]; exact publishing)
        · rw [whole]
          simp only [Event.openStatus, editFields, filedEvent, left, publishing, if_true,
            Option.getD_none]
          rfl
      · rename_i published
        rw [pure_eq_ok] at crediting
        subst crediting
        refine .of_rows uncredited rfl ?_
        simp [Event.openStatus, editFields, filedEvent, left, published]

theorem Moved.admits (phased : Phased row) (kept : RowsKept row)
    (uncredited : DraftsUncredited row) (moved : Moved config state row geo) :
    Admits state row geo := by
  cases moved with
  | published standing publishing =>
      rcases publishDetection_ok publishing with ⟨_, _, detected, rfl⟩
      have opened : row.status ≠ .closed := by simp [detected]
      have left := phased.opened opened
      refine .of_publish standing ?_ (inviteOnPublish.eq_1 (state.transaction config) _) ?_
      · exact uncredited (by rw [phased.openStatus opened, detected]; rfl)
      · simp [Event.openStatus, publishedDetection, creditGeolocator, Event.setGeolocator,
          filedEvent, left, isUnpublished]
  | closed closing =>
      rcases close_ok closing with ⟨_, opened, rfl⟩
      refine .of_rows uncredited rfl ?_
      rw [phased.openStatus opened]
      rfl
  | credited _ crediting => exact CreditVerb.admits phased kept uncredited crediting
  | approved _ approving =>
      rcases approve_ok approving with ⟨_, _, _, _, rfl⟩
      exact .of_rows uncredited rfl rfl
  | hidden withholding =>
      rcases setHidden_event withholding with ⟨_, rfl⟩
      exact .of_rows uncredited rfl rfl
  | deleted => exact .of_rows uncredited rfl rfl

theorem forgetUser_admits (kept : RowsKept row) (uncredited : DraftsUncredited row) :
    Admits state row (forgetUser userId row) := by
  have rows : RowsKept (forgetUser userId row) := by
    have filtered := kept.filter fun stored => stored.userId ≠ userId
    exact ⟨filtered.single, filtered.stamped⟩
  refine .of_subset rows uncredited ?_ ?_ rfl
  · rintro other ⟨counting, member, holds⟩
    exact ⟨counting, List.mem_of_mem_filter member, holds⟩
  · intro other member
    exact ⟨other, List.mem_of_mem_filter member, rfl⟩

theorem Change.admits (phased : Phased row) (kept : RowsKept row)
    (uncredited : DraftsUncredited row) (change : Change config state survivors row geo) :
    Admits state row geo := by
  cases change with
  | edited edited => exact edited.admits phased uncredited
  | upserted upserting =>
      rcases (upsertOne_ok upserting).2 with ⟨_, _, _, _, _, event⟩ | ⟨_, _, rfl⟩
      · rw [event]
        exact .of_rows uncredited rfl rfl
      · exact .of_rows uncredited rfl rfl
  | redacted redacting =>
      rcases redactVersion_ok redacting with ⟨_, _, _, rfl⟩
      exact .of_rows uncredited rfl rfl
  | moved moved => exact moved.admits phased kept uncredited
  | banned user =>
      rcases banEvent_event state.users user state.now row with ⟨_, _, _, event⟩
      rw [event]
      exact .of_rows uncredited rfl rfl
  | restored user =>
      rcases restoreWith_event user row with ⟨_, event⟩
      rw [event]
      exact .of_rows uncredited rfl rfl
  | @forgotten user _ _ lives =>
      rcases passOn_event lives with ⟨ownerId, deletedAt, _, _, event⟩
      rw [event]
      let passed := { row with ownerId := ownerId, deletedAt := deletedAt }
      have forgets : Admits state passed (forgetUser user.id passed) :=
        forgetUser_admits ⟨kept.single, kept.stamped⟩ uncredited
      exact ⟨forgets.within, forgets.known, forgets.draft⟩

/-- An event is born within the ceiling. -/
theorem Born.admits (born : Born config state geo) :
    WithinCeiling state.users geo ∧ DraftsUncredited geo ∧
      ∀ stored ∈ geo.geolocators, Known state stored.userId := by
  have blank : ∀ {geo : Event}, geo.geolocators = [] → WithinCeiling state.users geo ∧
      DraftsUncredited geo ∧ ∀ stored ∈ geo.geolocators, Known state stored.userId := by
    intro geo empty
    refine ⟨?_, fun _ => empty, ?_⟩
    · unfold WithinCeiling countedIds
      rw [empty]
      exact Nat.zero_le _
    · rw [empty]
      intro stored member
      contradiction
  cases born with
  | drafted written =>
      cases written with
      | @created user form lat lng _ _ standing creating =>
          rcases createWithEvidence_ok creating with ⟨_, _, credited, _, inviting, finishing⟩
          rcases finishWrite_event finishing with ⟨_, _, _, event⟩
          rcases inviteOnPublish_event inviting with ⟨_, whole⟩
          let draft := newEvent (state.transaction config) user .geolocated form (some ⟨lat, lng⟩)
          have fresh : WithinCeiling state.users draft := (blank rfl).1
          have publishes : Admits state draft credited :=
            .of_publish standing rfl inviting (by rw [whole]; rfl)
          rw [event]
          refine ⟨publishes.within fresh, publishes.draft, ?_⟩
          intro stored member
          rcases publishes.known stored member with ⟨_, none, _⟩ | known
          · exact absurd none (List.not_mem_nil)
          · exact known
      | requested _ creating =>
          rcases createRequest_ok creating with ⟨_, _, _, _, finishing⟩
          rcases finishWrite_event finishing with ⟨_, _, _, event⟩
          rw [event]
          exact blank rfl
  | persisted _ persisting =>
      rcases persistOne_ok persisting with ⟨_, rfl⟩
      exact blank rfl

/-! ### The accounts behind the rows -/

theorem uncredited_of_reachable (reachable : (system config).Reachable state)
    (member : geo ∈ state.events) : DraftsUncredited geo := by
  refine event_invariant DraftsUncredited ?_ ?_ reachable member
  · intro _ _ _ born
    exact born.admits.2.1
  · intro _ _ _ _ reachable inRows uncredited change
    have kept := (review_of_reachable reachable inRows).1
    exact (change.admits (phased_of_reachable reachable inRows) kept uncredited).draft

/-- The rows of an event name ids drawn by now. -/
structure RowsDrawn (config : Config) (state : State) : Prop where
  reachable : (system config).Reachable state
  drawn : ∀ geo ∈ state.events, ∀ stored ∈ geo.geolocators,
    IsDrawn config state.drawn stored.userId

/-- The rows a step finds or writes name ids drawn before it. -/
theorem RowsDrawn.found {label : Label} (rows : RowsDrawn config state)
    (stepped : step config label state = .ok next) (member : geo ∈ next.events)
    (inRows : stored ∈ geo.geolocators) : IsDrawn config state.drawn stored.userId := by
  have reachable := rows.reachable
  have known : Known state stored.userId → IsDrawn config state.drawn stored.userId := by
    rintro ⟨user, standing, same⟩
    exact same ▸ (identified_of_reachable reachable).users user standing
  rcases step_events stepped member with ⟨row, found, rfl | change⟩ | born
  · exact rows.drawn geo found stored inRows
  · have admits := change.admits (phased_of_reachable reachable found)
      (review_of_reachable reachable found).1 (uncredited_of_reachable reachable found)
    rcases admits.known stored inRows with ⟨earlier, earlierRow, same⟩ | standing
    · exact same ▸ rows.drawn row found earlier earlierRow
    · exact known standing
  · exact known (born.admits.2.2 stored inRows)

theorem rowsDrawn_of_reachable (reachable : (system config).Reachable state) :
    RowsDrawn config state := by
  refine System.Reachable.invariant ?_ ?_ reachable
  · intro start init
    refine ⟨.init init, ?_⟩
    rcases init with ⟨now, rfl⟩
    simp [initial]
  · intro state label next rows stepped
    exact ⟨rows.reachable.step stepped, fun geo member stored inRows =>
      (rows.found stepped member inRows).mono (step_drawn_le stepped)⟩

/-- Only a restore brings an account back: any other live one stood, or is new. -/
theorem effect_live {request : Request} {left : Effect}
    (accepted : effect config state request = .ok left)
    (others : ∀ userId, request ≠ .restoreUser userId) (live : LiveId left.rows.users userId) :
    LiveId state.users userId ∨ userId = config.uuids.draw state.drawn := by
  have same : left.rows.users = state.users →
      LiveId state.users userId ∨ userId = config.uuids.draw state.drawn :=
    fun users => .inl (users ▸ live)
  cases request with
  | restoreUser userId => exact absurd rfl (others userId)
  | signUp username email passwordHash =>
      simp only [effect, pure_eq_ok] at accepted
      subst accepted
      rcases live with ⟨user, member, rfl, standing⟩
      rcases List.mem_append.mp member with old | new
      · exact .inl ⟨user, old, rfl, standing⟩
      · rw [List.mem_singleton.mp new]
        exact .inr rfl
  | softDeleteUser userId =>
      simp only [effect, bind_eq_ok, pure_eq_ok] at accepted
      rcases accepted with ⟨banned, _, rfl⟩
      simp only [Effect.ofRows, softDeleteUser] at live
      split at live
      · exact .inl live
      · rcases live with ⟨_, member, same, standing⟩
        rcases List.mem_map.mp member with ⟨user, inUsers, rfl⟩
        split at standing
        · contradiction
        · rename_i different
          rw [if_neg different] at same
          exact .inl ⟨user, inUsers, same, standing⟩
  | hardDeleteUser userId =>
      simp only [effect, bind_eq_ok, pure_eq_ok] at accepted
      rcases accepted with ⟨erased, _, rfl⟩
      rcases live with ⟨user, member, holds⟩
      exact .inl ⟨user, List.mem_of_mem_filter member, holds⟩
  | upsertOne eventId detection resolved =>
      simp only [effect, bind_eq_ok] at accepted
      rcases accepted with ⟨geo, _, outcome, _, leaving⟩
      cases outcome <;>
        (simp only [pure_eq_ok] at leaving
         subst leaving
         exact same rfl)
  | redactVersion eventId actorId versionNo =>
      simp only [effect, bind_eq_ok] at accepted
      rcases accepted with ⟨geo, _, outcome, _, leaving⟩
      cases outcome <;>
        (simp only [pure_eq_ok] at leaving
         subst leaving
         exact same rfl)
  | addTag _ | addConflict _ | setMemberships _ | reapExpiredUploads =>
      simp only [effect, pure_eq_ok] at accepted
      subst accepted
      exact same rfl
  | tick now =>
      simp only [effect, bind_eq_ok, pure_eq_ok] at accepted
      rcases accepted with ⟨_, _, rfl⟩
      exact same rfl
  | hardDeleteEvent _ | purgeDetected _ =>
      simp only [effect, bind_eq_ok, pure_eq_ok] at accepted
      rcases accepted with ⟨_, _, rfl⟩
      exact same rfl
  | stageUpload _ _ | createWithEvidence _ _ _ _ _ | createRequest _ _ _ _ _
  | persistOne _ _ _ _ =>
      simp only [effect, bind_eq_ok, pure_eq_ok] at accepted
      rcases accepted with ⟨_, _, _, _, rfl⟩
      exact same rfl
  | updateRequest _ _ _ _ _ | saveVersion _ _ _ _ _ _ _ _ =>
      simp only [effect, bind_eq_ok, pure_eq_ok] at accepted
      rcases accepted with ⟨_, _, _, _, _, _, rfl⟩
      exact same rfl
  | setHidden _ _ | softDeleteEvent _ =>
      rcases rewrite_ok accepted with ⟨_, _, _, _, rfl⟩
      exact same rfl
  | close _ _ _ | credit _ _ _ =>
      simp only [effect, bind_eq_ok] at accepted
      rcases accepted with ⟨_, _, rewriting⟩
      rcases rewrite_ok rewriting with ⟨_, _, _, _, rfl⟩
      exact same rfl
  | publishDetection _ _ _ _ =>
      simp only [effect, bind_eq_ok] at accepted
      rcases accepted with ⟨_, _, _, _, rewriting⟩
      rcases rewrite_ok rewriting with ⟨_, _, _, _, rfl⟩
      exact same rfl
  | approve _ _ _ _ =>
      simp only [effect, bind_eq_ok, pure_eq_ok] at accepted
      rcases accepted with ⟨_, _, _, rewriting, rfl⟩
      rcases rewrite_ok rewriting with ⟨_, _, _, _, rfl⟩
      exact same rfl

/-! ### The ceiling -/

/-- A restore that brings an account back finds room on every event where its row counts. -/
def RoomStands (state : State) (label : Label) : Prop :=
  ∀ userId, label = ⟨.restoreUser userId, true⟩ → ¬ LiveId state.users userId →
    ∀ geo ∈ state.events,
      (∃ row ∈ geo.geolocators, row.userId = userId ∧ row.state ≠ .departed) →
        (countedIds state.users geo).length < maxEventGeolocators

/-- No event of a reachable state credits and invites more live analysts than the ceiling. -/
def KeepsCeiling (deployment : System State Label) : Prop :=
  ∀ {state : State}, deployment.Reachable state → ∀ geo ∈ state.events,
    (countedIds state.users geo).length ≤ maxEventGeolocators

/-- A restore counts its account anew, and nobody else. -/
theorem restoreUser_counted {user : User}
    (counts : Counted (restoreUser state user).users geo userId)
    (rows : geo.geolocators = row.geolocators) :
    userId = user.id ∨ Counted state.users row userId := by
  rcases counts with ⟨stored, member, same, counting, live⟩
  have back : LiveId (restoreUser state user).users userId →
      userId = user.id ∨ LiveId state.users userId := by
    rintro ⟨other, inUsers, own, standing⟩
    unfold restoreUser at inUsers
    split at inUsers
    · exact .inr ⟨other, inUsers, own, standing⟩
    · rcases List.mem_map.mp inUsers with ⟨earlier, inEarlier, rfl⟩
      split at own
      · rename_i restored
        exact .inl (own.symm.trans restored)
      · rename_i different
        rw [if_neg different] at standing
        exact .inr ⟨earlier, inEarlier, own, standing⟩
  rcases back live with own | stood
  · exact .inl own
  · exact .inr ⟨stored, rows ▸ member, same, counting, stood⟩

theorem restoreUser_keepsCeiling {user : User} (rowsKept : ∀ geo ∈ state.events, RowsKept geo)
    (within : ∀ geo ∈ state.events, WithinCeiling state.users geo)
    (room : ¬ LiveId state.users user.id → ∀ geo ∈ state.events,
      (∃ row ∈ geo.geolocators, row.userId = user.id ∧ row.state ≠ .departed) →
        (countedIds state.users geo).length < maxEventGeolocators)
    (member : geo ∈ (restoreUser state user).events) :
    WithinCeiling (restoreUser state user).users geo := by
  have found : ∃ row ∈ state.events, geo.geolocators = row.geolocators := by
    unfold restoreUser at member
    split at member
    · exact ⟨geo, member, rfl⟩
    · rcases List.mem_map.mp member with ⟨row, inRows, rfl⟩
      rcases restoreWith_event user row with ⟨_, event⟩
      exact ⟨row, inRows, by rw [event]⟩
  rcases found with ⟨row, inRows, rows⟩
  have kept : RowsKept geo :=
    ⟨rows ▸ (rowsKept row inRows).single, rows ▸ (rowsKept row inRows).stamped⟩
  have held := within row inRows
  by_cases counts : Counted state.users row user.id ∨
      ¬ ∃ stored ∈ row.geolocators, stored.userId = user.id ∧ stored.state ≠ .departed
  · -- the account counted already, or holds no row here
    have counted : ∀ userId, Counted (restoreUser state user).users geo userId →
        userId ∈ [] ∨ Counted state.users row userId := by
      intro userId counted
      refine .inr ?_
      rcases restoreUser_counted counted rows with rfl | old
      · rcases counts with already | absent
        · exact already
        · rcases counted with ⟨stored, storedRow, same, counting, _⟩
          exact absurd ⟨stored, rows ▸ storedRow, same, counting⟩ absent
      · exact old
    have atMost := countedIds_length_le kept [] counted
    rw [List.length_nil, Nat.zero_add] at atMost
    exact le_trans atMost held
  · rw [not_or, not_not] at counts
    rcases counts with ⟨uncounted, stored, storedRow, same, counting⟩
    have gone : ¬ LiveId state.users user.id := fun live =>
      uncounted ⟨stored, storedRow, same, counting, live⟩
    have below := room gone row inRows ⟨stored, storedRow, same, counting⟩
    have counted : ∀ userId, Counted (restoreUser state user).users geo userId →
        userId ∈ [user.id] ∨ Counted state.users row userId := by
      intro userId counted
      rcases restoreUser_counted counted rows with rfl | old
      · exact .inl (List.mem_singleton.mpr rfl)
      · exact .inr old
    have atMost := countedIds_length_le kept [user.id] counted
    rw [List.length_singleton] at atMost
    unfold WithinCeiling
    omega

/-- One step keeps the ceiling, unless it restores an account where there is no room. -/
theorem step_keepsCeiling {label : Label} (reachable : (system config).Reachable state)
    (within : ∀ geo ∈ state.events, WithinCeiling state.users geo)
    (room : RoomStands state label) (stepped : step config label state = .ok next) :
    ∀ geo ∈ next.events, WithinCeiling next.users geo := by
  intro geo member
  have rowsKept : ∀ geo ∈ state.events, RowsKept geo := fun geo inRows =>
    (review_of_reachable reachable inRows).1
  have nextKept := (review_of_reachable (reachable.step stepped) member).1
  have unfolded := stepped
  unfold step at unfolded
  simp only [bind_eq_ok, pure_eq_ok] at unfolded
  rcases unfolded with ⟨left, accepted, rfl⟩
  rcases label with ⟨request, commits⟩
  cases commits with
  | false => exact within geo member
  | true =>
      by_cases restores : ∃ userId, request = .restoreUser userId
      · rcases restores with ⟨userId, rfl⟩
        simp only [effect, bind_eq_ok, pure_eq_ok] at accepted
        rcases accepted with ⟨user, finding, rfl⟩
        rw [← (account_ok finding).2] at room
        exact restoreUser_keepsCeiling rowsKept within (room user.id rfl) member
      · have others : ∀ userId, request ≠ .restoreUser userId := fun userId same =>
          restores ⟨userId, same⟩
        have rows := rowsDrawn_of_reachable reachable
        have before' : WithinCeiling state.users geo := by
          rcases step_events stepped member with ⟨row, found, rfl | change⟩ | born
          · exact within geo found
          · exact (change.admits (phased_of_reachable reachable found) (rowsKept row found)
              (uncredited_of_reachable reachable found)).within (within row found)
          · exact born.admits.1
        have counted : ∀ userId, Counted left.rows.users geo userId →
            userId ∈ [] ∨ Counted state.users geo userId := by
          rintro userId ⟨stored, inRows, same, counting, live⟩
          refine .inr ⟨stored, inRows, same, counting, ?_⟩
          rcases effect_live accepted others live with stood | fresh
          · exact stood
          · have drawn := rows.found stepped member inRows
            rw [same, fresh] at drawn
            exact absurd drawn (not_isDrawn_draw config state.drawn)
        have atMost := countedIds_length_le nextKept [] counted
        rw [List.length_nil, Nat.zero_add] at atMost
        exact le_trans atMost before'

/-- The condition is exact: a restore without room passes the ceiling. -/
theorem passesCeiling_of_noRoom {label : Label} (reachable : (system config).Reachable state)
    (stepped : step config label state = .ok next) (noRoom : ¬ RoomStands state label) :
    ∃ geo ∈ next.events, maxEventGeolocators < (countedIds next.users geo).length := by
  unfold RoomStands at noRoom
  push Not at noRoom
  rcases noRoom with ⟨userId, rfl, gone, row, inRows, ⟨stored, storedRow, same, counting⟩, full⟩
  have restored : ∃ user ∈ state.users, user.id = userId ∧ next.users =
      (restoreUser state user).users ∧ next.events = (restoreUser state user).events := by
    unfold step effect at stepped
    simp only [bind_eq_ok, pure_eq_ok] at stepped
    rcases stepped with ⟨_, ⟨user, finding, rfl⟩, rfl⟩
    exact ⟨user, (account_ok finding).1, (account_ok finding).2, rfl, rfl⟩
  rcases restored with ⟨user, standing, rfl, users, events⟩
  have deleted : user.deletedAt ≠ none := fun live => gone ⟨user, standing, rfl, live⟩
  unfold restoreUser at users events
  rw [if_neg deleted] at users events
  rcases restoreWith_event user row with ⟨_, event⟩
  have kept := (review_of_reachable reachable inRows).1
  have stays : ∀ {other}, LiveId state.users other → LiveId next.users other := by
    rintro other ⟨account, inUsers, own, live⟩
    rw [users]
    refine ⟨_, List.mem_map_of_mem inUsers, ?_⟩
    split
    · exact ⟨own, rfl⟩
    · exact ⟨own, live⟩
  have back : LiveId next.users user.id := by
    rw [users]
    exact ⟨_, List.mem_map_of_mem standing, by simp⟩
  have distinct : (user.id :: countedIds state.users row).Nodup := by
    refine List.nodup_cons.mpr ⟨fun member => ?_, kept.countedIds_nodup⟩
    rcases mem_countedIds.mp member with ⟨_, _, _, _, live⟩
    exact gone live
  have counts : user.id :: countedIds state.users row ⊆
      countedIds next.users (restoreWith user row) := by
    intro other member
    rw [mem_countedIds, event]
    rcases List.mem_cons.mp member with rfl | before'
    · exact ⟨stored, storedRow, same, counting, back⟩
    · rcases mem_countedIds.mp before' with ⟨earlier, earlierRow, own, holds, live⟩
      exact ⟨earlier, earlierRow, own, holds, stays live⟩
  refine ⟨restoreWith user row, ?_, ?_⟩
  · rw [events]
    exact List.mem_map_of_mem inRows
  · have atLeast := (distinct.subperm counts).length_le
    rw [List.length_cons] at atLeast
    omega

/-! ### An invitee whose place was given away -/

namespace Returned

def guest (index : Nat) : Str := [chr 'a' + index]

/-- Ten analysts (ids 12 to 21), nine of them invited to the published event 4. -/
def invited : List Request :=
  smallSetup ++ [smallDraft, smallPublish] ++
    (List.range 10).map (fun index => .signUp (guest index) (guest index) []) ++
    (List.range 9).map fun index => .credit 4 0 (.invite (guest index))

/-- The first is removed, the tenth takes the place, and the first comes back. -/
def returned : List Request :=
  invited ++ [.softDeleteUser 12, .credit 4 0 (.invite (guest 9)), .restoreUser 12]

end Returned

end Vidit.World
