import Vidit.World.Credit

/-!
Contract: an import beside the other sessions of a deployment.

Owns:
- `persist_detections` as a process of its own: it matches a detection on an unlocked
  read, other sessions commit what they like, and the write locks the row and reads it again;
- `KeepsDecisions`: no write of an import moves an event a person or a moderator decided
  on, and what it moves is a live machine detection of its own account.

What the media of a detection resolve to is any media. A write that raises is rolled back,
and the import goes on.

Does not own: the write on one row (`Vidit.Events.Detection`), and the warnings and counters
of an import.
-/

namespace Vidit.World

open Vidit.Python Vidit.Accounts Vidit.Evidence Vidit.Events Vidit.Library

variable {config : Config} {state next : State} {survivors : List User} {row geo : Event}

/-! ### The process -/

/-- A detection whose write is due: what the unlocked read said of it. -/
structure Matched where
  detection : Detection
  verdict : Verdict
  rowId : Option Uuid

/-- A deployment, and `persist_detections` in it. -/
structure Import where
  world : State
  /-- The detections that are not handled yet. -/
  left : List Detection
  matched : Option Matched

inductive ImportLabel where
  /-- A transaction of another session. -/
  | other (label : Label)
  /-- `_disposition` of the next detection. -/
  | lookUp
  /-- The write of the detection looked up, with the media it resolved to. -/
  | write (resolved : DetectionMedia) (commits : Bool)

section Process

variable (config : Config) (ownerId : Uuid) (via : DetectedVia)

/-- The transaction of a verdict. -/
def Matched.request (matched : Matched) (resolved : DetectionMedia) : Option Request :=
  match matched.verdict, matched.rowId with
  | .skip, _ => none
  | _, some rowId => some (.upsertOne rowId matched.detection resolved)
  | _, none => some (.persistOne ownerId matched.detection via resolved.items)

/-- A transaction of the import: a raise is caught, and leaves the rows as they were. -/
def attempt (world : State) (request : Request) (commits : Bool) : State :=
  match step config ⟨request, commits⟩ world with
  | .ok next => next
  | .error _ => world

/-- `_disposition` of the next detection, when none is due. -/
def lookUp (state : Import) : Except EventError Import :=
  match state.matched, state.left with
  | none, detection :: rest =>
    let found := disposition state.world.events ownerId detection
    pure { state with
      left := rest
      matched := some ⟨detection, found.1, found.2.map Event.id⟩ }
  | _, _ => .error .internal

/-- The deployment after the write of a detection. -/
def written (world : State) (matched : Matched) (resolved : DetectionMedia) (commits : Bool) :
    State :=
  match matched.request ownerId via resolved with
  | some request => attempt config world request commits
  | none => world

def importStep : ImportLabel → Import → Except EventError Import
  | .other label, state => do
    let world ← step config label state.world
    pure { state with world := world }
  | .lookUp, state => lookUp ownerId state
  | .write resolved commits, state => do
    let matched ← orRefuse state.matched .internal
    pure { state with
      world := written config ownerId via state.world matched resolved commits
      matched := none }

/-- An import of any export, from any state the deployment reaches. -/
def importSystem : System Import ImportLabel :=
  System.ofStep (fun state => (system config).Reachable state.world ∧ state.matched = none)
    (importStep config ownerId via)

end Process

/-! ### Machine detections -/

/-- A detection nobody published: open, or closed as a detection. -/
def Machine (geo : Event) : Prop :=
  geo.openStatus = .detected

/-- A detection was one before the write, and nobody published it since. -/
theorem Machine.of_statusStep (phased : Phased row) (step : StatusStep row geo)
    (machine : Machine geo) : Machine row := by
  unfold Machine Event.openStatus at *
  cases step with
  | keep status left => rwa [status, left] at machine
  | publish opened status left =>
      rw [left, phased.opened opened, status] at machine
      cases machine
  | close opened status left =>
      rw [left] at machine
      rw [phased.opened opened]
      exact machine

theorem Machine.status (machine : Machine row) (phased : Phased row)
    (opened : row.status ≠ .closed) : row.status = .detected :=
  (phased.openStatus opened).symm.trans machine

/-- An open event that is published is no detection any more. -/
theorem not_machine (phased : Phased row) (opened : row.status ≠ .closed)
    (left : geo.beforeClosedStatus = row.beforeClosedStatus) (published : geo.status = .geolocated) :
    ¬Machine geo := by
  unfold Machine Event.openStatus
  rw [left, phased.opened opened, published]
  decide

/-- Nobody is invited to a detection, so no credit on it moves. -/
theorem CreditVerb.keeps_machine {tx : Events.Transaction} {user : User} {verb : CreditVerb}
    (phased : Phased row) (machine : Machine row) (uncredited : row.geolocators = [])
    (running : verb.run tx row user = .ok geo) : False := by
  have noRow : ∀ userId, row.geolocator? userId = none := by
    intro userId
    unfold Event.geolocator?
    rw [uncredited]
    rfl
  have noInvite : ∀ {userId stored}, inviteRow row userId = .ok stored → False := by
    intro userId stored finding
    unfold inviteRow at finding
    rw [noRow] at finding
    cases finding
  cases verb with
  | invite username =>
      obtain ⟨_, _, _, published, _⟩ := stageInvite_ok (invite_ok running)
      have detected := machine.status phased (by simp [published])
      rw [published] at detected
      cases detected
  | withdraw username =>
      obtain ⟨_, _, finding, _⟩ := withdraw_ok running
      exact noInvite finding
  | decline =>
      obtain ⟨_, finding, _⟩ := decline_ok running
      exact noInvite finding
  | accept =>
      obtain ⟨_, _, finding, _⟩ := accept_ok running
      exact noInvite finding
  | remove username =>
      obtain ⟨_, _, found, _⟩ := remove_ok running
      rw [noRow] at found
      cases found

/-- What a write leaves of a detection: its owner, and that nobody is credited. -/
theorem Change.keeps_machine (phased : Phased row) (uncredited : row.geolocators = [])
    (change : Change config state survivors row geo) (machine : Machine geo) :
    geo.geolocators = [] ∧ geo.ownerId = row.ownerId := by
  have before : Machine row := machine.of_statusStep phased change.statusStep
  have noHeir : ∀ {ownerId : Uuid}, ownerId = row.ownerId ∨ ownerId ∈ row.activeIds →
      ownerId = row.ownerId := by
    intro ownerId inherits
    cases inherits with
    | inl same => exact same
    | inr active =>
        unfold Event.activeIds at active
        rw [uncredited] at active
        cases active
  cases change with
  | edited edited =>
      cases edited with
      | updated _ updating =>
          obtain ⟨_, _, _, _, requested, _⟩ := updateRequest_ok updating
          have detected := before.status phased (by simp [requested])
          rw [requested] at detected
          cases detected
      | saved _ saving =>
          have opened := (saveVersion_ok saving).choose_spec.choose_spec.choose_spec.1
          have detected := before.status phased opened
          obtain ⟨_, _, _, _, _, event⟩ := saveVersion_event saving
          rw [event] at machine
          refine absurd machine (not_machine phased opened rfl ?_)
          simp [editFields, isUnpublished, detected]
  | upserted upserting =>
      obtain ⟨_, _, _, _, _, event⟩ | ⟨_, _, rfl⟩ := (upsertOne_ok upserting).2
      · rw [event]
        exact ⟨uncredited, rfl⟩
      · exact ⟨uncredited, rfl⟩
  | redacted redacting =>
      obtain ⟨_, _, _, rfl⟩ := redactVersion_ok redacting
      exact ⟨uncredited, rfl⟩
  | moved moved =>
      cases moved with
      | published _ publishing =>
          obtain ⟨_, _, detected, rfl⟩ := publishDetection_ok publishing
          exact absurd machine (not_machine phased (by simp [detected]) rfl rfl)
      | closed closing =>
          obtain ⟨_, _, rfl⟩ := close_ok closing
          exact ⟨uncredited, rfl⟩
      | credited _ crediting =>
          exact (CreditVerb.keeps_machine phased before uncredited crediting).elim
      | approved _ approving =>
          obtain ⟨_, _, _, _, rfl⟩ := approve_ok approving
          exact ⟨uncredited, rfl⟩
      | hidden withholding =>
          obtain ⟨_, rfl⟩ := setHidden_event withholding
          exact ⟨uncredited, rfl⟩
      | deleted => exact ⟨uncredited, rfl⟩
  | banned user =>
      obtain ⟨_, _, inherits, event⟩ := banEvent_event state.users user state.now row
      rw [event]
      exact ⟨uncredited, noHeir inherits⟩
  | restored user =>
      obtain ⟨_, event⟩ := restoreWith_event user row
      rw [event]
      exact ⟨uncredited, rfl⟩
  | forgotten _ _ lives =>
      obtain ⟨_, _, _, inherits, event⟩ := passOn_event lives
      rw [event]
      refine ⟨?_, noHeir inherits⟩
      simp [forgetUser, uncredited]

/-- Nobody is credited on a detection. -/
theorem ownerless_of_reachable (reachable : (system config).Reachable state)
    (member : geo ∈ state.events) (machine : Machine geo) : geo.geolocators = [] := by
  revert machine
  apply event_invariant (fun geo => Machine geo → geo.geolocators = []) _ _ reachable member
  · intro _ _ _ born machine
    cases born with
    | drafted drafted =>
        cases drafted with
        | created _ creating =>
            obtain ⟨_, _, _, _, inviting, finishing⟩ := createWithEvidence_ok creating
            obtain ⟨_, rfl⟩ := inviteOnPublish_event inviting
            obtain ⟨_, _, _, event⟩ := finishWrite_event finishing
            rw [event] at machine
            cases machine
        | requested _ creating =>
            obtain ⟨_, _, _, _, finishing⟩ := createRequest_ok creating
            obtain ⟨_, _, _, event⟩ := finishWrite_event finishing
            rw [event] at machine
            cases machine
    | persisted _ persisting =>
        obtain ⟨_, rfl⟩ := persistOne_ok persisting
        rfl
  · intro _ _ row geo reachable inRows kept change machine
    have phased := phased_of_reachable reachable inRows
    have before := machine.of_statusStep phased change.statusStep
    exact (change.keeps_machine phased (kept before) machine).1

/-! ### Looking up -/

theorem pickRow_mem {rows : List Event} {openRow : Option Event} {found : Event}
    (picked : (pickRow rows openRow).2 = some found) : found ∈ rows ∨ openRow = some found := by
  induction rows generalizing openRow with
  | nil =>
      cases openRow with
      | none => cases picked
      | some row => exact .inr picked
  | cons row rest inductionHypothesis =>
      unfold pickRow at picked
      split at picked
      · cases picked
        exact .inl List.mem_cons_self
      · cases inductionHypothesis picked with
        | inl inRest => exact .inl (List.mem_cons_of_mem _ inRest)
        | inr chosen =>
            cases openRow with
            | none =>
                cases chosen
                exact .inl List.mem_cons_self
            | some old => exact .inr chosen

/-- The row a detection is matched to is one of the importing account's. -/
theorem disposition_mem {events : List Event} {ownerId : Uuid} {detection : Detection}
    {found : Event} (looked : (disposition events ownerId detection).2 = some found) :
    found ∈ events ∧ found.ownerId = ownerId := by
  unfold disposition at looked
  split at looked
  · cases pickRow_mem looked with
    | inl inRows =>
        have inQuery := (List.mem_filter.mp inRows).1
        have kept := (sortedBy_perm _ _).mem_iff.mp inQuery
        rw [List.mem_filter, Bool.and_eq_true, decide_eq_true_eq] at kept
        exact ⟨kept.1, kept.2.1⟩
    | inr none => cases none
  · cases looked

/-! ### Between the look-up and the write -/

/-- As long as the event of an id is a detection, it is the account's. -/
structure Owned (config : Config) (ownerId : Uuid) (state : State) (rowId : Uuid) : Prop where
  drawn : IsDrawn config state.drawn rowId
  owner : ∀ geo ∈ state.events, geo.id = rowId → Machine geo → geo.ownerId = ownerId

theorem Owned.of_mem {ownerId : Uuid} (reachable : (system config).Reachable state)
    (member : geo ∈ state.events) (owner : geo.ownerId = ownerId) :
    Owned config ownerId state geo.id where
  drawn := (identified_of_reachable reachable).events geo member
  owner other inEvents same _ := by
    have unique := (identified_of_reachable reachable).unique
    rw [List.inj_on_of_nodup_map unique inEvents member same]
    exact owner

/-- No transaction hands a detection to another account. -/
theorem Owned.step {ownerId rowId : Uuid} {label : Label}
    (reachable : (system config).Reachable state) (owned : Owned config ownerId state rowId)
    (stepped : step config label state = .ok next) : Owned config ownerId next rowId where
  drawn := owned.drawn.mono (step_drawn_le stepped)
  owner geo member same machine := by
    obtain ⟨row, inRows, rfl | change⟩ | born := step_events stepped member
    · exact owned.owner _ inRows same machine
    · have phased := phased_of_reachable reachable inRows
      have before := machine.of_statusStep phased change.statusStep
      have uncredited := ownerless_of_reachable reachable inRows before
      rw [(change.keeps_machine phased uncredited machine).2]
      exact owned.owner row inRows (change.id.symm.trans same) before
    · -- a new event has an id no earlier event has
      exfalso
      have drawn := owned.drawn
      rw [← same, born.id] at drawn
      exact not_isDrawn_draw config state.drawn drawn

section Sound

variable {ownerId : Uuid} {via : DetectedVia}

structure ImportSound (config : Config) (ownerId : Uuid) (state : Import) : Prop where
  reachable : (system config).Reachable state.world
  owned : ∀ matched, state.matched = some matched → ∀ rowId, matched.rowId = some rowId →
    Owned config ownerId state.world rowId

theorem attempt_reachable {request : Request} {commits : Bool}
    (reachable : (system config).Reachable state) :
    (system config).Reachable (attempt config state request commits) := by
  unfold attempt
  cases stepped : step config ⟨request, commits⟩ state with
  | ok next => exact reachable.step stepped
  | error refusal => exact reachable

theorem written_reachable {matched : Matched} {resolved : DetectionMedia} {commits : Bool}
    (reachable : (system config).Reachable state) :
    (system config).Reachable (written config ownerId via state matched resolved commits) := by
  unfold written
  cases matched.request ownerId via resolved with
  | none => exact reachable
  | some request => exact attempt_reachable reachable

theorem lookUp_ok {state next : Import} (looked : lookUp ownerId state = .ok next) :
    next.world = state.world ∧ ∀ matched, next.matched = some matched →
      ∀ rowId, matched.rowId = some rowId →
        ∃ geo ∈ state.world.events, geo.id = rowId ∧ geo.ownerId = ownerId := by
  unfold lookUp at looked
  split at looked
  case h_1 detection rest idle queued =>
    rw [pure_eq_ok] at looked
    subst looked
    refine ⟨rfl, ?_⟩
    intro matched due rowId named
    cases due
    obtain ⟨found, row, same⟩ := Option.map_eq_some_iff.mp named
    obtain ⟨member, owner⟩ := disposition_mem row
    exact ⟨found, member, same, owner⟩
  case h_2 => cases looked

theorem ImportSound.step {state next : Import} {label : ImportLabel}
    (sound : ImportSound config ownerId state)
    (stepped : importStep config ownerId via label state = .ok next) :
    ImportSound config ownerId next := by
  cases label with
  | other label =>
      simp only [importStep, bind_eq_ok, pure_eq_ok] at stepped
      obtain ⟨world, moved, rfl⟩ := stepped
      exact
        { reachable := sound.reachable.step moved
          owned := fun matched due rowId named =>
            (sound.owned matched due rowId named).step sound.reachable moved }
  | lookUp =>
      obtain ⟨same, mine⟩ := lookUp_ok stepped
      refine { reachable := same ▸ sound.reachable, owned := ?_ }
      intro matched due rowId named
      obtain ⟨geo, member, rfl, owner⟩ := mine matched due rowId named
      rw [same]
      exact .of_mem sound.reachable member owner
  | write resolved commits =>
      simp only [importStep, bind_eq_ok, pure_eq_ok] at stepped
      obtain ⟨matched, _, rfl⟩ := stepped
      exact
        { reachable := written_reachable sound.reachable
          owned := fun _ none => by cases none }

theorem importSound_of_reachable {state : Import}
    (reachable : (importSystem config ownerId via).Reachable state) :
    ImportSound config ownerId state := by
  apply System.Reachable.invariant _ (fun sound stepped => sound.step stepped) reachable
  intro start initial
  refine { reachable := initial.1, owned := ?_ }
  intro matched due
  rw [initial.2] at due
  cases due

/-! ### The write -/

theorem upsertOne_events {rowId : Uuid} {detection : Detection} {resolved : DetectionMedia}
    {commits : Bool} (stepped : step config ⟨.upsertOne rowId detection resolved, commits⟩ state =
      .ok next) :
    next.events = state.events ∨
      ∃ geo ∈ state.events, geo.id = rowId ∧ rowDisposition geo = .upsert ∧
        ∃ written : Event, written.id = geo.id ∧ next.events = state.put written := by
  simp only [step, effect, bind_eq_ok, pure_eq_ok] at stepped
  obtain ⟨left, ⟨geo, locking, outcome, upserting, leaving⟩, rfl⟩ := stepped
  have found := lockEvent_ok locking
  cases commits with
  | false => exact .inl rfl
  | true =>
      cases outcome with
      | none =>
          rw [pure_eq_ok] at leaving
          subst leaving
          exact .inl rfl
      | some imported =>
          rw [pure_eq_ok] at leaving
          subst leaving
          exact .inr ⟨geo, found.1, found.2, (upsertOne_ok upserting).1, imported.event,
            upsertOne_id upserting, rfl⟩

theorem persistOne_events {detection : Detection} {items : List ResolvedMedia} {commits : Bool}
    (stepped : step config ⟨.persistOne ownerId detection via items, commits⟩ state = .ok next) :
    state.events ⊆ next.events := by
  simp only [step, effect, bind_eq_ok, pure_eq_ok] at stepped
  obtain ⟨left, ⟨user, _, imported, _, rfl⟩, rfl⟩ := stepped
  cases commits with
  | false => exact List.Subset.refl _
  | true => exact List.subset_append_left _ _

/-- An event that a person or a moderator decided on. -/
def Decided (geo : Event) : Prop :=
  geo.status = .geolocated ∨ geo.status = .closed ∨ geo.deletedAt ≠ none ∨ geo.hiddenAt ≠ none ∨
    0 < geo.versionNo

/-- A live and visible machine detection of the account. -/
structure OwnDetection (ownerId : Uuid) (geo : Event) : Prop where
  live : geo.deletedAt = none
  visible : geo.hiddenAt = none
  status : geo.status = .detected
  versionNo : geo.versionNo = 0
  owner : geo.ownerId = ownerId

theorem upsert_iff : rowDisposition geo = .upsert ↔
    geo.deletedAt = none ∧ geo.hiddenAt = none ∧ geo.versionNo = 0 ∧ geo.status = .detected := by
  unfold rowDisposition
  constructor
  · intro upsert
    split at upsert
    · cases upsert
    · split at upsert
      · cases upsert
      · split at upsert
        · cases upsert
        · split at upsert
          · rename_i live visible unsaved detected
            exact ⟨not_not.mp live, not_not.mp visible, by omega, detected⟩
          · cases upsert
  · intro ⟨live, visible, unsaved, detected⟩
    simp [live, visible, unsaved, detected]

theorem request_cases {matched : Matched} {resolved : DetectionMedia} {request : Request}
    (asked : matched.request ownerId via resolved = some request) :
    (∃ rowId, matched.rowId = some rowId ∧
        request = .upsertOne rowId matched.detection resolved) ∨
      request = .persistOne ownerId matched.detection via resolved.items := by
  unfold Matched.request at asked
  split at asked
  case h_1 => cases asked
  case h_2 rowId named _ =>
    cases asked
    exact .inl ⟨rowId, named, rfl⟩
  case h_3 =>
    cases asked
    exact .inr rfl

/-- What an import does to the events of a deployment, whatever other sessions do between its
look-ups and its writes. -/
structure KeepsDecisions (config : Config) (ownerId : Uuid) (via : DetectedVia) : Prop where
  decided : ∀ {state next label}, (importSystem config ownerId via).Reachable state →
    importStep config ownerId via label state = .ok next → (∀ other, label ≠ .other other) →
      ∀ geo ∈ state.world.events, Decided geo → geo ∈ next.world.events
  updated : ∀ {state next label}, (importSystem config ownerId via).Reachable state →
    importStep config ownerId via label state = .ok next → (∀ other, label ≠ .other other) →
      ∀ geo ∈ state.world.events, geo ∉ next.world.events → OwnDetection ownerId geo
  inPlace : ∀ {state next label}, (importSystem config ownerId via).Reachable state →
    importStep config ownerId via label state = .ok next → (∀ other, label ≠ .other other) →
      ∀ geo ∈ state.world.events, ∃ written ∈ next.world.events, written.id = geo.id

/-- A step of the import adds an event, or writes one detection of its account. -/
theorem import_moves {state next : Import} {label : ImportLabel}
    (sound : ImportSound config ownerId state) (own : ∀ other, label ≠ .other other)
    (stepped : importStep config ownerId via label state = .ok next) :
    state.world.events ⊆ next.world.events ∨
      ∃ geo ∈ state.world.events, OwnDetection ownerId geo ∧
        ∃ moved : Event, moved.id = geo.id ∧ next.world.events = state.world.put moved := by
  cases label with
  | other label => exact absurd rfl (own label)
  | lookUp =>
      rw [(lookUp_ok stepped).1]
      exact .inl (List.Subset.refl _)
  | write resolved commits =>
      simp only [importStep, bind_eq_ok, pure_eq_ok, orRefuse_eq_ok] at stepped
      obtain ⟨matched, due, rfl⟩ := stepped
      have attempted : ∀ request, (∀ after, step config ⟨request, commits⟩ state.world = .ok after →
          state.world.events ⊆ after.events ∨
            ∃ geo ∈ state.world.events, OwnDetection ownerId geo ∧
              ∃ moved : Event, moved.id = geo.id ∧ after.events = state.world.put moved) →
          state.world.events ⊆ (attempt config state.world request commits).events ∨
            ∃ geo ∈ state.world.events, OwnDetection ownerId geo ∧
              ∃ moved : Event, moved.id = geo.id ∧
                (attempt config state.world request commits).events = state.world.put moved := by
        intro request accepted
        unfold attempt
        cases ran : step config ⟨request, commits⟩ state.world with
        | ok after => exact accepted after ran
        | error refusal => exact .inl (List.Subset.refl _)
      show state.world.events ⊆
          (written config ownerId via state.world matched resolved commits).events ∨ _
      unfold written
      split
      case h_2 => exact .inl (List.Subset.refl _)
      case h_1 request asked =>
        apply attempted
        intro after ran
        obtain ⟨rowId, named, rfl⟩ | rfl := request_cases asked
        · obtain same | ⟨geo, member, sameId, upsert, moved, movedId, events⟩ :=
            upsertOne_events ran
          · rw [same]
            exact .inl (List.Subset.refl _)
          · obtain ⟨live, visible, unsaved, detected⟩ := upsert_iff.mp upsert
            have opened : geo.status ≠ .closed := by
              simp [detected]
            have machine : Machine geo :=
              ((phased_of_reachable sound.reachable member).openStatus opened).trans detected
            have owner := (sound.owned matched due rowId named).owner geo member sameId machine
            exact .inr ⟨geo, member, ⟨live, visible, detected, unsaved, owner⟩, moved, movedId,
              events⟩
        · exact .inl (persistOne_events ran)

theorem keepsDecisions (config : Config) (ownerId : Uuid) (via : DetectedVia) :
    KeepsDecisions config ownerId via where
  decided {state next label} reachable stepped own geo member decided := by
    have sound := importSound_of_reachable reachable
    obtain grown | ⟨row, inEvents, mine, moved, same, events⟩ := import_moves sound own stepped
    · exact grown member
    · rw [events]
      have different : geo.id ≠ moved.id := by
        intro sameId
        have unique := (identified_of_reachable sound.reachable).unique
        have equal := List.inj_on_of_nodup_map unique member inEvents (sameId.trans same)
        subst equal
        obtain published | closed | removed | withheld | saved := decided
        · simp [mine.status] at published
        · simp [mine.status] at closed
        · exact removed mine.live
        · exact withheld mine.visible
        · simp [mine.versionNo] at saved
      unfold State.put
      exact List.mem_map.mpr ⟨geo, member, if_neg different⟩
  updated {state next label} reachable stepped own geo member gone := by
    have sound := importSound_of_reachable reachable
    obtain grown | ⟨row, inEvents, mine, moved, same, events⟩ := import_moves sound own stepped
    · exact absurd (grown member) gone
    · by_cases sameId : geo.id = moved.id
      · have unique := (identified_of_reachable sound.reachable).unique
        rw [List.inj_on_of_nodup_map unique member inEvents (sameId.trans same)]
        exact mine
      · rw [events] at gone
        unfold State.put at gone
        have kept : geo ∈ state.world.events.map fun row =>
            if row.id = moved.id then moved else row :=
          List.mem_map.mpr ⟨geo, member, if_neg sameId⟩
        exact absurd kept gone
  inPlace {state next label} reachable stepped own geo member := by
    have sound := importSound_of_reachable reachable
    obtain grown | ⟨row, inEvents, mine, moved, same, events⟩ := import_moves sound own stepped
    · exact ⟨geo, grown member, rfl⟩
    · have kept : geo.id ∈ (state.world.put moved).map Event.id := by
        rw [put_ids]
        exact List.mem_map_of_mem member
      rw [events]
      exact List.mem_map.mp kept

end Sound

end Vidit.World
