import Mathlib.Data.List.Nodup
import Vidit.World.Step

/-!
Contract: the identity of events and accounts over a run.

Owns:
- that every id was drawn once, so event ids are unique and never reused;
- the two induction rules the invariants of later modules use: for every event
  of a reachable state, and for one event followed along a run.
-/

namespace Vidit.World

open Vidit.Python Vidit.Accounts Vidit.Evidence Vidit.Events Vidit.Library

variable {config : Config} {state next final : State} {survivors : List User}

/-- One of the first `count` UUIDs. -/
def IsDrawn (config : Config) (count : Nat) (id : Uuid) : Prop :=
  ∃ index < count, id = config.uuids.draw index

theorem IsDrawn.mono {count larger : Nat} {id : Uuid} (below : count ≤ larger)
    (drawn : IsDrawn config count id) : IsDrawn config larger id := by
  rcases drawn with ⟨index, small, same⟩
  exact ⟨index, lt_of_lt_of_le small below, same⟩

theorem not_isDrawn_draw (config : Config) (count : Nat) :
    ¬ IsDrawn config count (config.uuids.draw count) := by
  rintro ⟨index, small, same⟩
  have equal := config.uuids.draw_injective same
  omega

structure Identified (config : Config) (state : State) : Prop where
  events : ∀ geo ∈ state.events, IsDrawn config state.drawn geo.id
  unique : (state.events.map Event.id).Nodup
  users : ∀ user ∈ state.users, IsDrawn config state.drawn user.id

/-! ### Every write keeps the id -/

theorem newEvent_id (user : User) (status : Status) (form : EventForm) (coords : Option Point) :
    (newEvent (state.transaction config) user status form coords).id =
      config.uuids.draw state.drawn := rfl

theorem Drafted.id {written : Written} (drafted : Drafted config state written) :
    written.event.id = config.uuids.draw state.drawn ∧ 0 < written.draws := by
  cases drafted with
  | created _ creating =>
      rcases createWithEvidence_ok creating with ⟨_, _, credited, _, inviting, finishing⟩
      rcases inviteOnPublish_event inviting with ⟨_, rfl⟩
      rcases finishWrite_event finishing with ⟨_, _, _, event⟩
      rcases finishWrite_ok finishing with ⟨_, _, _, _, rfl⟩
      refine ⟨by rw [event]; rfl, ?_⟩
      simp only
      omega
  | requested _ creating =>
      rcases createRequest_ok creating with ⟨_, _, _, _, finishing⟩
      rcases finishWrite_event finishing with ⟨_, _, _, event⟩
      rcases finishWrite_ok finishing with ⟨_, _, _, _, rfl⟩
      refine ⟨by rw [event]; rfl, ?_⟩
      simp only
      omega

theorem Edited.id {geo : Event} {written : Written} (edited : Edited config state geo written) :
    written.event.id = geo.id := by
  cases edited with
  | updated _ updating =>
      rcases updateRequest_ok updating with ⟨_, _, _, _, _, _, finishing⟩
      rcases finishWrite_event finishing with ⟨_, _, _, event⟩
      rw [event]
  | saved _ saving =>
      rcases saveVersion_event saving with ⟨_, _, _, _, _, event⟩
      rw [event]
      rfl

theorem Moved.id {geo written : Event} (moved : Moved config state geo written) :
    written.id = geo.id := by
  cases moved with
  | published _ publishing =>
      rcases publishDetection_ok publishing with ⟨_, _, _, rfl⟩
      rfl
  | closed closing =>
      rcases close_ok closing with ⟨_, _, rfl⟩
      rfl
  | credited _ crediting =>
      rcases CreditVerb.run_event crediting with ⟨_, _, _, _, rfl⟩
      rfl
  | approved _ approving =>
      rcases approve_ok approving with ⟨_, _, _, _, rfl⟩
      rfl
  | hidden withholding =>
      rcases setHidden_event withholding with ⟨_, rfl⟩
      rfl
  | deleted => rfl

theorem upsertOne_id {tx : Events.Transaction} {geo : Event} {detection : Detection}
    {resolved : DetectionMedia} {imported : Imported}
    (upserting : upsertOne config tx geo detection resolved = .ok (some imported)) :
    imported.event.id = geo.id := by
  rcases (upsertOne_ok upserting).2 with ⟨_, _, _, _, _, event⟩ | ⟨_, _, rfl⟩
  · rw [event]
    rfl
  · rfl

theorem redactVersion_id {tx : Events.Transaction} {geo : Event} {actorId : Uuid} {versionNo : Nat}
    {redaction : Redaction}
    (redacting : redactVersion tx geo actorId versionNo = .ok (some redaction)) :
    redaction.event.id = geo.id := by
  rcases redactVersion_ok redacting with ⟨_, _, _, rfl⟩
  rfl

theorem Change.id {row geo : Event} (change : Change config state survivors row geo) : geo.id = row.id := by
  cases change with
  | edited edited => exact edited.id
  | upserted upserting => exact upsertOne_id upserting
  | redacted redacting => exact redactVersion_id redacting
  | moved moved => exact moved.id
  | banned user =>
      rcases banEvent_event state.users user state.now row with ⟨_, _, _, event⟩
      rw [event]
  | restored user =>
      rcases restoreWith_event user row with ⟨_, event⟩
      rw [event]
  | forgotten _ _ lives =>
      rcases passOn_event lives with ⟨_, _, _, _, event⟩
      rw [event]
      rfl

theorem Born.id {geo : Event} (born : Born config state geo) :
    geo.id = config.uuids.draw state.drawn := by
  cases born with
  | drafted drafted => exact drafted.id.1
  | persisted _ persisting =>
      rcases persistOne_ok persisting with ⟨_, rfl⟩
      rfl

/-! ### Ids are fresh and unique -/

theorem put_ids (written : Event) :
    (state.put written).map Event.id = state.events.map Event.id := by
  unfold State.put
  rw [List.map_map]
  apply List.map_congr_left
  intro row _
  simp only [Function.comp_apply]
  split
  · rename_i same
    exact same.symm
  · rfl

/-- The ids a step leaves: some of the old ones, or all of them and one fresh. -/
theorem Outcome.ids {request : Request} {left : Effect}
    (outcome : Outcome config state request left) :
    (left.rows.events.map Event.id).Sublist (state.events.map Event.id) ∨
      left.rows.events.map Event.id =
        state.events.map Event.id ++ [config.uuids.draw state.drawn] ∧
        state.drawn < left.rows.drawn := by
  cases outcome with
  | settled settled =>
      refine .inl ?_
      simp only [Effect.ofRows, settled.events]
      exact List.Sublist.refl _
  | staged _ => exact .inl (List.Sublist.refl _)
  | reaped => exact .inl (List.Sublist.refl _)
  | inserted drafted =>
      refine .inr ⟨by simp [writeEffect, drafted.id.1], ?_⟩
      have draws := drafted.id.2
      simp only [writeEffect]
      omega
  | wrote _ _ => exact .inl (by simp [writeEffect, put_ids])
  | persisted _ persisting =>
      rcases persistOne_ok persisting with ⟨_, rfl⟩
      refine .inr ⟨by simp [importEffect, newEvent_id], ?_⟩
      simp only [importEffect, Detection.mediaStart]
      omega
  | upserted _ _ => exact .inl (by simp [importEffect, put_ids])
  | redacted _ _ _ => exact .inl (by simp [redactEffect, put_ids])
  | moved _ _ _ => exact .inl (by simp [Effect.ofRows, put_ids])
  | erased doomed => exact .inl (List.filter_sublist.map _)
  | banned user =>
      refine .inl ?_
      simp only [Effect.ofRows, softDeleteUser]
      split
      · exact List.Sublist.refl _
      · rw [List.map_map]
        have kept : ∀ row ∈ state.events,
            (Event.id ∘ banEvent state.users user state.now) row = row.id := fun row _ =>
          (show Change config state state.users row _ from .banned user).id
        rw [List.map_congr_left kept]
  | restored user =>
      refine .inl ?_
      simp only [Effect.ofRows, restoreUser]
      split
      · exact List.Sublist.refl _
      · rw [List.map_map]
        have kept : ∀ row ∈ state.events, (Event.id ∘ restoreWith user) row = row.id :=
          fun row _ => (show Change config state state.users row _ from .restored user).id
        rw [List.map_congr_left kept]
  | @forgotten user standing =>
      refine .inl ?_
      have kept : ∀ row ∈ state.events.filter fun geo => !diesWith state.users user geo,
          (Event.id ∘ fun geo => forgetUser user.id (passOn state.users user geo)) row =
            row.id := by
        intro row member
        have lives := (List.mem_filter.mp member).2
        have gone : ∀ other ∈ (hardDeleteUser config state user).rows.users,
            other.id ≠ user.id := by
          intro other member
          simpa using (List.mem_filter.mp member).2
        exact (show Change config state (hardDeleteUser config state user).rows.users row _ from
          .forgotten standing gone (by simpa using lives)).id
      simp only [hardDeleteUser, List.map_map]
      rw [List.map_congr_left kept]
      exact List.filter_sublist.map _

theorem Outcome.drawn_le {request : Request} {left : Effect}
    (outcome : Outcome config state request left) :
    state.drawn ≤ left.rows.drawn := by
  cases outcome with
  | settled settled => exact settled.drawn
  | moved _ _ drawn_le => exact drawn_le
  | banned user =>
      simp only [Effect.ofRows, softDeleteUser]
      split <;> exact le_refl _
  | restored user =>
      simp only [Effect.ofRows, restoreUser]
      split <;> exact le_refl _
  | staged _ => exact Nat.le_add_right _ _
  | inserted _ => exact Nat.le_add_right _ _
  | wrote _ _ => exact Nat.le_add_right _ _
  | persisted _ _ => exact Nat.le_add_right _ _
  | upserted _ _ => exact Nat.le_add_right _ _
  | reaped => exact le_refl _
  | redacted _ _ _ => exact le_refl _
  | erased _ => exact le_refl _
  | forgotten _ => exact le_refl _

/-- An account after an outcome was there before, or has a fresh id. -/
theorem Outcome.users {request : Request} {left : Effect}
    (outcome : Outcome config state request left) {user : User}
    (member : user ∈ left.rows.users) :
    (∃ old ∈ state.users, old.id = user.id) ∨
      user.id = config.uuids.draw state.drawn ∧ state.drawn < left.rows.drawn := by
  have kept : user ∈ state.users → (∃ old ∈ state.users, old.id = user.id) ∨
      user.id = config.uuids.draw state.drawn ∧ state.drawn < left.rows.drawn :=
    fun old => .inl ⟨user, old, rfl⟩
  cases outcome with
  | settled settled =>
      rcases settled.users user member with old | fresh
      · exact kept old
      · exact .inr fresh
  | banned banned =>
      simp only [Effect.ofRows, softDeleteUser] at member
      split at member
      · exact kept member
      · rcases List.mem_map.mp member with ⟨old, inRows, rfl⟩
        exact .inl ⟨old, inRows, by split <;> rfl⟩
  | restored restored =>
      simp only [Effect.ofRows, restoreUser] at member
      split at member
      · exact kept member
      · rcases List.mem_map.mp member with ⟨old, inRows, rfl⟩
        exact .inl ⟨old, inRows, by split <;> rfl⟩
  | forgotten _ => exact kept (List.mem_of_mem_filter member)
  | staged _ => exact kept member
  | reaped => exact kept member
  | inserted _ => exact kept member
  | wrote _ _ => exact kept member
  | persisted _ _ => exact kept member
  | upserted _ _ => exact kept member
  | redacted _ _ _ => exact kept member
  | moved _ _ _ => exact kept member
  | erased _ => exact kept member

theorem step_drawn_le {label : Label} (stepped : step config label state = .ok next) :
    state.drawn ≤ next.drawn := by
  rcases step_ok stepped with ⟨left, outcome, ⟨_, rfl⟩ | ⟨_, rfl⟩⟩
  · exact outcome.drawn_le
  · exact outcome.drawn_le

theorem Identified.step {label : Label} (identified : Identified config state)
    (stepped : step config label state = .ok next) : Identified config next := by
  rcases step_ok stepped with ⟨left, outcome, ⟨_, rfl⟩ | ⟨_, rfl⟩⟩
  · have below := outcome.drawn_le
    constructor
    · intro geo member
      have inIds : geo.id ∈ left.rows.events.map Event.id := List.mem_map_of_mem member
      rcases outcome.ids with some | ⟨all, fresh⟩
      · rcases List.mem_map.mp (some.subset inIds) with ⟨row, inRows, same⟩
        rw [← same]
        exact (identified.events row inRows).mono below
      · rw [all] at inIds
        rcases List.mem_append.mp inIds with old | new
        · rcases List.mem_map.mp old with ⟨row, inRows, same⟩
          rw [← same]
          exact (identified.events row inRows).mono below
        · exact ⟨state.drawn, fresh, List.mem_singleton.mp new⟩
    · rcases outcome.ids with some | ⟨all, _⟩
      · exact identified.unique.sublist some
      · show (left.rows.events.map Event.id).Nodup
        rw [all]
        refine List.Nodup.append identified.unique (List.nodup_singleton _) ?_
        intro id old new
        rcases List.mem_map.mp old with ⟨row, inRows, same⟩
        rw [List.mem_singleton.mp new] at same
        exact not_isDrawn_draw config state.drawn (same ▸ identified.events row inRows)
    · intro user member
      rcases outcome.users member with ⟨old, inUsers, same⟩ | ⟨fresh, more⟩
      · rw [← same]
        exact (identified.users old inUsers).mono below
      · exact ⟨state.drawn, more, fresh⟩
  · have below := outcome.drawn_le
    exact ⟨fun geo member => (identified.events geo member).mono below, identified.unique,
      fun user member => (identified.users user member).mono below⟩

theorem identified_of_reachable (reachable : (system config).Reachable state) :
    Identified config state := by
  refine System.Reachable.invariant ?_ ?_ reachable
  · rintro start ⟨now, rfl⟩
    exact ⟨by simp [initial], by simp [initial], by simp [initial]⟩
  · intro state label next identified stepped
    exact identified.step stepped

/-! ### Induction rules -/

/-- What every new event has and every write keeps, every event has. -/
theorem event_invariant (Invariant : Event → Prop)
    (born : ∀ {state geo}, (system config).Reachable state → Born config state geo →
      Invariant geo)
    (changed : ∀ {state survivors row geo}, (system config).Reachable state → row ∈ state.events →
      Invariant row → Change config state survivors row geo → Invariant geo)
    (reachable : (system config).Reachable state) {geo : Event} (member : geo ∈ state.events) :
    Invariant geo := by
  rcases reachable with ⟨start, init, run⟩
  induction run generalizing geo with
  | refl =>
      rcases init with ⟨now, rfl⟩
      simp [initial] at member
  | @tail middle last earlier stepped inductionHypothesis =>
      rcases stepped with ⟨label, stepped⟩
      have middleReachable : (system config).Reachable middle := ⟨start, init, earlier⟩
      rcases step_events stepped member with ⟨row, inRows, rfl | change⟩ | new
      · exact inductionHypothesis inRows
      · exact changed middleReachable inRows (inductionHypothesis inRows) change
      · exact born middleReachable new

/-- A relation every write extends holds between an event and what it becomes. -/
theorem event_history (Related : Event → Event → Prop) (same : ∀ geo, Related geo geo)
    (changed : ∀ {state survivors first row geo}, (system config).Reachable state → row ∈ state.events →
      Related first row → Change config state survivors row geo → Related first geo)
    (reachable : (system config).Reachable state) (run : (system config).Run state final)
    {first last : Event} (inState : first ∈ state.events) (inFinal : last ∈ final.events)
    (sameId : last.id = first.id) : Related first last := by
  induction run generalizing last with
  | refl =>
      have unique := (identified_of_reachable reachable).unique
      have equal := List.inj_on_of_nodup_map unique inFinal inState sameId
      rw [equal]
      exact same first
  | @tail middle final earlier stepped inductionHypothesis =>
      rcases stepped with ⟨label, stepped⟩
      have middleReachable := reachable.run earlier
      rcases step_events stepped inFinal with ⟨row, inRows, rfl | change⟩ | new
      · exact inductionHypothesis inRows sameId
      · have related := inductionHypothesis inRows (change.id.symm.trans sameId)
        exact changed middleReachable inRows related change
      · -- a new event has an id no earlier event has
        exfalso
        have drawn := (identified_of_reachable reachable).events first inState
        have below : state.drawn ≤ middle.drawn :=
          System.Run.monotone step_drawn_le earlier
        rw [← sameId, new.id] at drawn
        exact not_isDrawn_draw config middle.drawn (drawn.mono below)

end Vidit.World
