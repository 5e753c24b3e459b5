import Vidit.Events.Saving
import Vidit.World.Sweep

/-!
Contract: a `save_version` that raises, in a deployment.

Owns:
- that the keys of the object store were minted from draws already made, so a key a write mints
  is new;
- `SaveIsAtomic`: a run that raises, at whatever call, leaves the rows as they were, and sweeps
  what it stored and nothing else;
- that a run that returns commits what the step of `save_version` commits.

Does not own: the run itself (`Vidit.Events.Saving`).
-/

namespace Vidit.World

open Vidit.Python Vidit.Accounts Vidit.Evidence Vidit.Events Vidit.Library

variable {config : Config} {state next : State} {geo : Event} {key : Str}

/-! ### The keys of the store -/

/-- Every stored key carries a UUID the deployment has drawn. -/
def KeysDrawn (config : Config) (state : State) : Prop :=
  ∀ key ∈ state.objects, ∃ index < state.drawn,
    keyOwner key = config.uuids.text (config.uuids.draw index)

theorem KeysDrawn.step {label : Label} (drawn : KeysDrawn config state)
    (stepped : step config label state = .ok next) : KeysDrawn config next := by
  obtain ⟨left, outcome, ended⟩ := step_ok stepped
  have below := outcome.drawn_le
  have kept : ∀ key ∈ state.objects ++ left.stored, ∃ index < left.rows.drawn,
      keyOwner key = config.uuids.text (config.uuids.draw index) := by
    intro key member
    obtain old | new := List.mem_append.mp member
    · obtain ⟨index, earlier, owner⟩ := drawn key old
      exact ⟨index, by omega, owner⟩
    · obtain ⟨index, _, inside, owner⟩ := outcome.stored new
      exact ⟨index, inside, owner⟩
  obtain ⟨_, rfl⟩ | ⟨_, rfl⟩ := ended
  · exact fun key member => kept key (List.mem_of_mem_filter member)
  · exact fun key member => kept key (List.mem_of_mem_filter member)

theorem keysDrawn_of_reachable (reachable : (system config).Reachable state) :
    KeysDrawn config state := by
  apply System.Reachable.invariant _ KeysDrawn.step reachable
  rintro start ⟨now, rfl⟩ key member
  exact absurd member List.not_mem_nil

/-- A key a write mints is not in the store. -/
theorem notMem_objects_of_mintedIn (reachable : (system config).Reachable state)
    (minted : MintedIn config (state.transaction config) key) : key ∉ state.objects := by
  intro member
  obtain ⟨old, earlier, owner⟩ := keysDrawn_of_reachable reachable key member
  obtain ⟨index, directory, contentType, rfl⟩ := minted
  rw [keyOwner_mintedKey] at owner
  have same := config.uuids.draw_injective (config.uuids.text_injective owner)
  omega

/-! ### Atomicity -/

/-- The rows as they were once the session is closed, what was stored handed to the sweep, and
nothing that was there before. -/
structure LeavesNothing (state : State) (geo : Event) (final : Session) : Prop where
  stored : final.closed.committed = ⟨geo, state.uploads⟩
  read : final.closed.pending = ⟨geo, state.uploads⟩
  swept : ∀ key ∈ final.put, key ∈ final.handed
  spared : ∀ key ∈ final.handed, key ∉ state.objects

/-- A `save_version` that raises, up to its commit and whichever calls fail, leaves nothing. -/
def SaveIsAtomic (config : Config) : Prop :=
  ∀ state geo, (system config).Reachable state → geo ∈ state.events →
    ∀ currentUser form lat lng note expectedVersion geolocatorInvites faults failure final,
      Saving.saveVersion config (state.transaction config) faults currentUser form lat lng note
          expectedVersion geolocatorInvites (Session.opened ⟨geo, state.uploads⟩) =
        (.error failure, final) →
      LeavesNothing state geo final

theorem saveVersion_atomic (config : Config) : SaveIsAtomic config := by
  intro state geo reachable _ currentUser form lat lng note expectedVersion geolocatorInvites
    faults failure final ran
  have clean : Clean ⟨geo, state.uploads⟩ (Session.opened ⟨geo, state.uploads⟩) :=
    ⟨rfl, rfl, rfl, rfl⟩
  have swept := (Saving.saveVersion_meets currentUser form lat lng note expectedVersion
    geolocatorInvites).raised clean ran
  exact {
    stored := swept.committed
    read := swept.committed
    swept := swept.put
    spared := fun key handed => notMem_objects_of_mintedIn reachable (swept.handed key handed) }

/-- A run that returns commits the rows and keeps the keys of the step of `save_version`. -/
theorem saveVersion_commits {eventId userId : Uuid} {currentUser : User} {form : EventForm}
    {lat lng : Rat} {note : Option Str} {expectedVersion : Option Nat}
    {geolocatorInvites : List Str} {faults : Nat → Bool} {dropped : List StoredObject}
    {final : Session} (acting : state.actor userId = .ok currentUser)
    (locking : state.lockEvent eventId = .ok geo)
    (ran : Saving.saveVersion config (state.transaction config) faults currentUser form lat lng
      note expectedVersion geolocatorInvites (Session.opened ⟨geo, state.uploads⟩) =
        (.ok dropped, final)) :
    ∃ left, effect config state (.saveVersion eventId userId form lat lng note expectedVersion
        geolocatorInvites) = .ok left ∧
      left.rows.events = state.put final.committed.event ∧
      left.rows.uploads = final.committed.uploads ∧ left.stored = final.put ∧
      left.freed = sweepUnreferenced config.storage left.rows.events dropped
        (displayedProofSrcs final.committed.event.proof) := by
  obtain ⟨written, saving, rfl, committed, put, _⟩ := Saving.saveVersion_returned ran
  refine ⟨writeEffect config state (state.put written.event) written, ?_, ?_, ?_, put.symm, ?_⟩
  · simp only [effect, bind_eq_ok, pure_eq_ok]
    exact ⟨currentUser, acting, geo, locking, written, saving, rfl⟩
  · rw [committed]
    rfl
  · rw [committed]
    rfl
  · rw [committed]
    rfl

end Vidit.World
