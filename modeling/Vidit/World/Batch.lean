import Vidit.World.History
import Vidit.Events.Readiness
import Vidit.Library.Rows

/-!
Contract: the batch completion of detections.

Owns:
- `complete_detections`, one transaction for each row, and where a database error may strike it;
- `HonestCompletion`, what the outcomes say of the rows, and `RefreshesStand`, when they do.

Does not own: the points cache, the shape of the request body.

Proof shape: one lemma for a row (`honestRow_iff`), which needs a state whose rows are keyed and
whose drafts are version 0, and an induction over the rows that carries both.
-/

namespace Vidit.World

open Vidit.Python Vidit.Accounts Vidit.Evidence Vidit.Events Vidit.Library

/-! ### The call -/

/-- One posted row. -/
structure CompletionRow where
  eventId : Uuid
  kind : SourceKind
deriving DecidableEq, Repr

/-- Where a database error strikes the transaction of a row. -/
inductive RowFault where
  | none
  /-- A statement before the commit, or the commit. -/
  | write
  /-- The `db.refresh` that follows the commit. -/
  | refresh
deriving DecidableEq, Repr

/-- When the transaction of a row runs, and what strikes it. -/
structure RowRun where
  now : Instant
  fault : RowFault
deriving DecidableEq, Repr

structure DetectionCompletion where
  eventId : Uuid
  code : Option Str
  message : Option Str
deriving DecidableEq, Repr

/-- `ROW_INTERNAL_ERROR_CODE`. -/
def rowInternalErrorCode : Str := str "internal_error"

def rowInternalError (eventId : Uuid) : DetectionCompletion where
  eventId := eventId
  code := some rowInternalErrorCode
  message := some (str "This detection could not be published; try it again.")

/-- The refusals the loop catches: `EvidenceIntakeError` and what derives from it. -/
def isEvidenceIntakeError : EventError → Bool
  | .versionLimit | .snapshotRejected _ | .credit _ | .approval _ | .admin _ | .notAuthorized
  | .internal => false
  | _ => true

section Call

variable (config : Config) (user : User) (conflicts : List Conflict)

/-- `_publish_detection` up to its commit, on the row it locks. -/
def publishRow (row : CompletionRow) (now : Instant) (state : State) : Except EventError State := do
  let tx := { state with now := now }.transaction config
  let geo ← state.lockEvent row.eventId
  let published ← publishDetection tx geo user row.kind conflicts
  pure { state with events := state.put published }

/-- One turn of the loop. An error it does not catch escapes. -/
def completeRow (row : CompletionRow) (run : RowRun) (state : State) :
    Except EventError (State × DetectionCompletion) :=
  match run.fault with
  | .write => .ok (state, rowInternalError row.eventId)
  | fault =>
    match publishRow config user conflicts row run.now state with
    | .error refusal =>
      if isEvidenceIntakeError refusal then
        .ok (state, ⟨row.eventId, refusal.code, some (refusal.message config.uuids.text)⟩)
      else .error refusal
    | .ok next =>
      if fault = .refresh then .ok (next, rowInternalError row.eventId)
      else .ok (next, ⟨row.eventId, none, none⟩)

/-- The loop, with the state it leaves even where an error escapes it. -/
def completeRows : List (CompletionRow × RowRun) → State →
    State × Except EventError (List DetectionCompletion)
  | [], state => (state, .ok [])
  | (row, run) :: rest, state =>
    match completeRow config user conflicts row run state with
    | .error refusal => (state, .error refusal)
    | .ok (next, outcome) =>
      let later := completeRows rest next
      (later.1, later.2.map (outcome :: ·))

end Call

/-- `_assert_owns_all`. -/
def OwnsAll (user : User) (eventIds : List Uuid) (state : State) : Prop :=
  ∀ geo ∈ state.events, geo.id ∈ eventIds → geo.deletedAt = none → geo.ownerId = user.id

instance (user : User) (eventIds : List Uuid) (state : State) :
    Decidable (OwnsAll user eventIds state) := by
  unfold OwnsAll
  infer_instance

def postedIds (rows : List (CompletionRow × RowRun)) : List Uuid :=
  rows.map fun posted => posted.1.eventId

/-- `complete_detections`. -/
def completeDetections (config : Config) (user : User) (conflictIds : List Uuid)
    (rows : List (CompletionRow × RowRun)) (state : State) :
    State × Except EventError (List DetectionCompletion) :=
  let conflicts := resolveConflicts (state.transaction config) conflictIds
  if conflicts = [] then (state, .error .conflictRequired)
  else if OwnsAll user (postedIds rows) state then completeRows config user conflicts rows state
  else (state, .error .notAuthorized)

/-! ### Honest outcomes -/

/-- The event went from a detection to a geolocation at version 1. -/
def WentGeolocated (eventId : Uuid) (before after : State) : Prop :=
  ∃ geo ∈ before.events, ∃ published ∈ after.events, geo.id = eventId ∧ published.id = eventId ∧
    geo.status = .detected ∧ published.status = .geolocated ∧ published.versionNo = 1

/-- What one outcome says of its row's turn. -/
structure HonestRow (row : CompletionRow) (outcome : DetectionCompletion) (before after : State) :
    Prop where
  eventId : outcome.eventId = row.eventId
  published : outcome.code = none ↔ WentGeolocated row.eventId before after
  refused : outcome.code ≠ none → after = before
  others : ∀ geo, geo.id ≠ row.eventId → (geo ∈ after.events ↔ geo ∈ before.events)

/-- What the outcomes say of the call, turn by turn and as a whole. -/
structure HonestOutcomes (rows : List (CompletionRow × RowRun)) (turn : Nat → State)
    (outcomes : List DetectionCompletion) (before after : State) : Prop where
  inOrder : outcomes.map DetectionCompletion.eventId = postedIds rows
  rows : ∀ index posted outcome, rows[index]? = some posted → outcomes[index]? = some outcome →
    HonestRow posted.1 outcome (turn index) (turn (index + 1))
  published : ∀ id, (∃ outcome ∈ outcomes, outcome.eventId = id ∧ outcome.code = none) ↔
    WentGeolocated id before after
  kept : ∀ geo ∈ before.events,
    (∀ outcome ∈ outcomes, outcome.eventId = geo.id → outcome.code ≠ none) → geo ∈ after.events

/-- A call that returns is honest of each row; a call that raises has published none. -/
def HonestCompletion (config : Config) (user : User) (conflictIds : List Uuid)
    (rows : List (CompletionRow × RowRun)) (state : State) : Prop :=
  match completeDetections config user conflictIds rows state with
  | (final, .error _) => final = state
  | (final, .ok outcomes) =>
    HonestOutcomes rows
      (fun index => (completeDetections config user conflictIds (rows.take index) state).1)
      outcomes state final

/-- The first row that names the event and whose write no database error strikes. -/
def firstWrite (rows : List (CompletionRow × RowRun)) (eventId : Uuid) :
    Option (CompletionRow × RowRun) :=
  rows.find? fun posted => posted.1.eventId = eventId && posted.2.fault ≠ .write

/-- No database error strikes the refresh of the row that publishes its event. -/
def Refreshes (user : User) (rows : List (CompletionRow × RowRun)) (state : State) : Prop :=
  ∀ geo ∈ state.events, geo.Publishable user →
    ∀ posted, firstWrite rows geo.id = some posted → posted.2.fault ≠ .refresh

/-- `Refreshes`, for a call that is not refused as a whole. -/
def RefreshesStand (config : Config) (user : User) (conflictIds : List Uuid)
    (rows : List (CompletionRow × RowRun)) (state : State) : Prop :=
  resolveConflicts (state.transaction config) conflictIds ≠ [] →
    OwnsAll user (postedIds rows) state → Refreshes user rows state

theorem firstWrite_head {row : CompletionRow} {run : RowRun}
    {rest : List (CompletionRow × RowRun)} {eventId : Uuid}
    (named : row.eventId = eventId ∧ run.fault ≠ .write) :
    firstWrite ((row, run) :: rest) eventId = some (row, run) := by
  unfold firstWrite
  apply List.find?_cons_of_pos
  simpa using named

theorem firstWrite_tail {row : CompletionRow} {run : RowRun}
    {rest : List (CompletionRow × RowRun)} {eventId : Uuid}
    (other : ¬ (row.eventId = eventId ∧ run.fault ≠ .write)) :
    firstWrite ((row, run) :: rest) eventId = firstWrite rest eventId := by
  unfold firstWrite
  apply List.find?_cons_of_neg
  simpa using other

/-! ### One row -/

/-- A state whose events are keyed and whose detections are version 0. -/
structure Draftable (state : State) : Prop where
  primaryKey : KeyedBy Event.id state.events
  drafts : ∀ geo ∈ state.events, geo.status = .detected → geo.versionNo = 0

theorem draftable_of_reachable {config : Config} {state : State}
    (reachable : (system config).Reachable state) : Draftable state where
  primaryKey left leftMember right rightMember same :=
    List.inj_on_of_nodup_map (identified_of_reachable reachable).unique leftMember rightMember same
  drafts geo member detected := by
    have opened : geo.status ≠ .closed := by
      rw [detected]
      decide
    have status := (phased_of_reachable reachable member).openStatus opened
    obtain ⟨first, _, wellFormed⟩ := wellFormed_of_reachable reachable member
    apply wellFormed.draft.mp
    show isUnpublished geo.openStatus = true
    rw [status, detected]
    rfl

theorem fileVersion_refused {geo : Event} {user : User} {note : Option Str} {snapshot : Snapshot}
    {now : Instant} {enforceCeiling : Bool} {refusal : EventError}
    (refused : fileVersion geo user note snapshot now enforceCeiling = .error refusal) :
    maxVersionsPerEvent ≤ geo.versionNo := by
  unfold fileVersion at refused
  simp only [bind_eq_error, require_eq_error, not_not] at refused
  obtain ⟨full, _⟩ | ⟨_, _, impossible⟩ := refused
  · exact full.2
  · cases impossible

/-- Why the floor refuses a row: the two refusals the loop does not catch, or one it does. -/
theorem publishDetection_refused {tx : Events.Transaction} {geo : Event} {user : User}
    {kind : SourceKind} {conflicts : List Conflict} {refusal : EventError}
    (refused : publishDetection tx geo user kind conflicts = .error refusal) :
    (geo.IsVisible ∧ geo.ownerId ≠ user.id) ∨
      (geo.status = .detected ∧ maxVersionsPerEvent ≤ geo.versionNo) ∨
        isEvidenceIntakeError refusal = true := by
  unfold publishDetection ensureOwner requireProofImage checkPublishFloor at refused
  simp only [bind_eq_error, bind_eq_ok, require_eq_ok, require_eq_error] at refused
  obtain ⟨_, rfl⟩ | ⟨_, visible, refused⟩ := refused
  · exact .inr (.inr rfl)
  obtain ⟨foreign, _⟩ | ⟨_, _, refused⟩ := refused
  · exact .inl ⟨visible, foreign⟩
  obtain ⟨_, rfl⟩ | ⟨_, detected, refused⟩ := refused
  · exact .inr (.inr rfl)
  obtain ⟨_, rfl⟩ | ⟨_, _, refused⟩ := refused
  · exact .inr (.inr rfl)
  obtain ⟨_, rfl⟩ | ⟨_, _, refused⟩ := refused
  · exact .inr (.inr rfl)
  obtain ⟨_, rfl⟩ | ⟨_, _, refused⟩ := refused
  · exact .inr (.inr rfl)
  obtain floor | ⟨_, _, refused⟩ := refused
  · obtain ⟨_, rfl⟩ | ⟨_, _, _, rfl⟩ := floor
    · exact .inr (.inr rfl)
    · exact .inr (.inr rfl)
  obtain full | ⟨_, _, impossible⟩ := refused
  · exact .inr (.inl ⟨detected, fileVersion_refused full⟩)
  · cases impossible

section Rows

variable {config : Config} {user : User} {conflicts : List Conflict} {row : CompletionRow}
  {run : RowRun} {now : Instant} {state next : State}

/-- What a row that publishes leaves: the event it names, moved to version 1. -/
structure Publishes (user : User) (row : CompletionRow) (state next : State) (geo published : Event) :
    Prop where
  member : geo ∈ state.events
  here : geo.id = row.eventId
  detected : geo.status = .detected
  live : geo.deletedAt = none
  id : published.id = row.eventId
  status : published.status = .geolocated
  owner : published.ownerId = user.id
  versionNo : published.versionNo = geo.versionNo + 1
  next : next = { state with events := state.put published }

theorem publishRow_ok (publishing : publishRow config user conflicts row now state = .ok next) :
    ∃ geo published, Publishes user row state next geo published := by
  unfold publishRow State.lockEvent at publishing
  simp only [bind_eq_ok, orRefuse_eq_ok, pure_eq_ok] at publishing
  obtain ⟨geo, found, published, publishing, rfl⟩ := publishing
  obtain ⟨visible, _, detected, written⟩ := publishDetection_ok publishing
  have here : geo.id = row.eventId := by
    simpa using List.find?_some found
  have moved : published.id = geo.id ∧ published.status = .geolocated ∧
      published.ownerId = user.id ∧ published.versionNo = geo.versionNo + 1 := by
    rw [written]
    exact ⟨rfl, rfl, rfl, rfl⟩
  exact ⟨geo, published, List.mem_of_find?_eq_some found, here, detected, visible.1,
    moved.1.trans here, moved.2.1, moved.2.2.1, moved.2.2.2, rfl⟩

theorem Publishes.mem_iff {geo published other : Event}
    (publishes : Publishes user row state next geo published) (different : other.id ≠ row.eventId) :
    other ∈ next.events ↔ other ∈ state.events := by
  rw [publishes.next]
  show other ∈ state.put published ↔ _
  unfold State.put
  rw [List.mem_map, publishes.id]
  constructor
  · intro found
    obtain ⟨before, member, same⟩ := found
    by_cases named : before.id = row.eventId
    · rw [if_pos named] at same
      rw [← same, publishes.id] at different
      exact absurd rfl different
    · rw [if_neg named] at same
      rw [← same]
      exact member
  · intro member
    exact ⟨other, member, if_neg different⟩

theorem Publishes.published_mem {geo published : Event}
    (publishes : Publishes user row state next geo published) : published ∈ next.events := by
  rw [publishes.next]
  show published ∈ state.put published
  unfold State.put
  rw [List.mem_map, publishes.id]
  exact ⟨geo, publishes.member, if_pos publishes.here⟩

/-- The rows a publish leaves are the ones before, one of them published. -/
theorem Publishes.mem {geo published other : Event}
    (publishes : Publishes user row state next geo published) (member : other ∈ next.events) :
    other = published ∨ (other ∈ state.events ∧ other.id ≠ row.eventId) := by
  rw [publishes.next] at member
  unfold State.put at member
  obtain ⟨before, inBefore, same⟩ := List.mem_map.mp member
  rw [publishes.id] at same
  by_cases named : before.id = row.eventId
  · rw [if_pos named] at same
    exact .inl same.symm
  · rw [if_neg named] at same
    rw [← same]
    exact .inr ⟨inBefore, named⟩

theorem Publishes.draftable {geo published : Event}
    (publishes : Publishes user row state next geo published) (draftable : Draftable state) :
    Draftable next where
  primaryKey left leftMember right rightMember same := by
    obtain rfl | ⟨inLeft, leftId⟩ := publishes.mem leftMember
    · obtain rfl | ⟨_, rightId⟩ := publishes.mem rightMember
      · rfl
      · exact absurd (same.symm.trans publishes.id) rightId
    · obtain rfl | ⟨inRight, _⟩ := publishes.mem rightMember
      · exact absurd (same.trans publishes.id) leftId
      · exact draftable.primaryKey left inLeft right inRight same
  drafts other member detected := by
    obtain rfl | ⟨inState, _⟩ := publishes.mem member
    · rw [publishes.status] at detected
      cases detected
    · exact draftable.drafts other inState detected

theorem Publishes.ownsAll {geo published : Event} {ids : List Uuid}
    (publishes : Publishes user row state next geo published) (owns : OwnsAll user ids state) :
    OwnsAll user ids next := by
  intro other member named live
  obtain rfl | ⟨inState, _⟩ := publishes.mem member
  · exact publishes.owner
  · exact owns other inState named live

theorem Publishes.wentGeolocated {geo published : Event}
    (publishes : Publishes user row state next geo published) (draftable : Draftable state) :
    WentGeolocated row.eventId state next := by
  refine ⟨geo, publishes.member, published, publishes.published_mem, publishes.here, publishes.id,
    publishes.detected, publishes.status, ?_⟩
  rw [publishes.versionNo, draftable.drafts geo publishes.member publishes.detected]

/-- An event that stays as it was has not been published. -/
theorem not_wentGeolocated (draftable : Draftable state) (eventId : Uuid) :
    ¬ WentGeolocated eventId state state := by
  intro went
  obtain ⟨geo, member, published, publishedMember, here, there, detected, status, _⟩ := went
  have same := draftable.primaryKey geo member published publishedMember (here.trans there.symm)
  rw [same, status] at detected
  cases detected

/-- On rows of the caller, the loop catches every refusal of the floor. -/
theorem publishRow_caught {ids : List Uuid} {refusal : EventError} (draftable : Draftable state)
    (owns : OwnsAll user ids state) (posted : row.eventId ∈ ids)
    (refused : publishRow config user conflicts row now state = .error refusal) :
    isEvidenceIntakeError refusal = true := by
  unfold publishRow State.lockEvent at refused
  simp only [bind_eq_error] at refused
  obtain missing | ⟨geo, found, refused⟩ := refused
  · unfold orRefuse at missing
    split at missing
    · cases missing
    · cases missing
      rfl
  · rw [orRefuse_eq_ok] at found
    have member : geo ∈ state.events := List.mem_of_find?_eq_some found
    have here : geo.id = row.eventId := by
      simpa using List.find?_some found
    obtain refused | ⟨_, _, impossible⟩ := refused
    · obtain ⟨visible, foreign⟩ | ⟨detected, full⟩ | caught := publishDetection_refused refused
      · exact absurd (owns geo member (here ▸ posted) visible.1) foreign
      · rw [draftable.drafts geo member detected] at full
        exact absurd full (by decide)
      · exact caught
    · cases impossible

/-- The publish of a row passes exactly when the floor accepts the event it names. -/
theorem publishRow_isOk_iff (draftable : Draftable state) :
    (∃ next, publishRow config user conflicts row now state = .ok next) ↔
      ∃ geo ∈ state.events, geo.id = row.eventId ∧ geo.Publishable user := by
  have draft : ∀ geo ∈ state.events, geo.status = .detected →
      geo.versionNo < maxVersionsPerEvent := by
    intro geo member detected
    rw [draftable.drafts geo member detected]
    decide
  unfold publishRow State.lockEvent
  simp only [bind_eq_ok, orRefuse_eq_ok, pure_eq_ok]
  constructor
  · intro accepted
    obtain ⟨_, geo, found, published, publishing, _⟩ := accepted
    have member := List.mem_of_find?_eq_some found
    have here : geo.id = row.eventId := by
      simpa using List.find?_some found
    obtain ⟨_, _, detected, _⟩ := publishDetection_ok publishing
    exact ⟨geo, member, here,
      (publishDetection_isOk_iff (draft geo member detected)).mp ⟨published, publishing⟩⟩
  · intro named
    obtain ⟨geo, member, here, publishable⟩ := named
    have found : state.events.find? (fun other => other.id = row.eventId) = some geo := by
      rw [← here]
      exact draftable.primaryKey.find?_eq member
    obtain ⟨published, publishing⟩ :=
      (publishDetection_isOk_iff (draft geo member publishable.detected)).mpr publishable
    exact ⟨_, geo, found, published, publishing, rfl⟩

/-- A turn under these invariants: it publishes and says so, it publishes and its refresh
fails, or it refuses and leaves the state as it was. -/
inductive Turn (config : Config) (user : User) (conflicts : List Conflict) (row : CompletionRow)
    (run : RowRun) (state : State) : State → DetectionCompletion → Prop
  | published {next geo published}
      (accepted : publishRow config user conflicts row run.now state = .ok next)
      (publishes : Publishes user row state next geo published) (stood : run.fault = .none) :
      Turn config user conflicts row run state next ⟨row.eventId, none, none⟩
  | unrefreshed {next geo published}
      (accepted : publishRow config user conflicts row run.now state = .ok next)
      (publishes : Publishes user row state next geo published) (fell : run.fault = .refresh) :
      Turn config user conflicts row run state next (rowInternalError row.eventId)
  | refused {code message}
      (unread : ∀ next, publishRow config user conflicts row run.now state = .ok next →
        run.fault = .write) :
      Turn config user conflicts row run state state ⟨row.eventId, some code, message⟩

theorem code_of_caught {refusal : EventError} (caught : isEvidenceIntakeError refusal = true) :
    ∃ code, refusal.code = some code := by
  cases refusal with
  | versionLimit | snapshotRejected | credit | approval | admin | notAuthorized | internal =>
      cases caught
  | _ => exact ⟨_, rfl⟩

/-- A refusal of the floor is told, and moves nothing. -/
theorem completeRow_refused {refusal : EventError}
    (refused : publishRow config user conflicts row run.now state = .error refusal)
    (caught : isEvidenceIntakeError refusal = true) (written : run.fault ≠ .write) :
    ∃ outcome, completeRow config user conflicts row run state = .ok (state, outcome) ∧
      Turn config user conflicts row run state state outcome := by
  obtain ⟨code, named⟩ := code_of_caught caught
  refine ⟨⟨row.eventId, some code, some (refusal.message config.uuids.text)⟩, ?_, ?_⟩
  · unfold completeRow
    cases fault : run.fault with
    | write => exact absurd fault written
    | none | refresh => simp only [refused, caught, if_true, named]
  · apply Turn.refused
    intro next accepted
    rw [refused] at accepted
    cases accepted

theorem completeRow_turn {ids : List Uuid} (draftable : Draftable state)
    (owns : OwnsAll user ids state) (posted : row.eventId ∈ ids) :
    ∃ next outcome, completeRow config user conflicts row run state = .ok (next, outcome) ∧
      Turn config user conflicts row run state next outcome := by
  by_cases written : run.fault = .write
  · refine ⟨state, rowInternalError row.eventId, ?_, .refused ?_⟩
    · unfold completeRow
      rw [written]
    · intro next _
      exact written
  · cases publishing : publishRow config user conflicts row run.now state with
    | error refusal =>
        exact ⟨state, completeRow_refused publishing
          (publishRow_caught draftable owns posted publishing) written⟩
    | ok next =>
        obtain ⟨geo, published, publishes⟩ := publishRow_ok publishing
        refine ⟨next, ?_⟩
        unfold completeRow
        cases fault : run.fault with
        | write => exact absurd fault written
        | none =>
            refine ⟨_, ?_, .published publishing publishes fault⟩
            rw [publishing]
            rfl
        | refresh =>
            refine ⟨_, ?_, .unrefreshed publishing publishes fault⟩
            rw [publishing]
            rfl

variable {outcome : DetectionCompletion}

theorem Turn.draftable (turn : Turn config user conflicts row run state next outcome)
    (draftable : Draftable state) : Draftable next := by
  cases turn with
  | published _ publishes _ | unrefreshed _ publishes _ => exact publishes.draftable draftable
  | refused _ => exact draftable

theorem Turn.ownsAll {ids : List Uuid}
    (turn : Turn config user conflicts row run state next outcome)
    (owns : OwnsAll user ids state) : OwnsAll user ids next := by
  cases turn with
  | published _ publishes _ | unrefreshed _ publishes _ => exact publishes.ownsAll owns
  | refused _ => exact owns

theorem Turn.eventId (turn : Turn config user conflicts row run state next outcome) :
    outcome.eventId = row.eventId := by
  cases turn with
  | published _ _ _ | unrefreshed _ _ _ | refused _ => rfl

/-- A turn touches no event but the one it names. -/
theorem Turn.others (turn : Turn config user conflicts row run state next outcome) {geo : Event}
    (different : geo.id ≠ row.eventId) : geo ∈ next.events ↔ geo ∈ state.events := by
  cases turn with
  | published _ publishes _ | unrefreshed _ publishes _ => exact publishes.mem_iff different
  | refused _ => exact Iff.rfl

theorem Turn.unmoved (turn : Turn config user conflicts row run state next outcome)
    (written : run.fault = .write) : next = state := by
  cases turn with
  | published _ _ stood =>
      rw [written] at stood
      cases stood
  | unrefreshed _ _ fell =>
      rw [written] at fell
      cases fell
  | refused _ => rfl

/-- A turn makes no event publishable. -/
theorem Turn.publishable_mem (turn : Turn config user conflicts row run state next outcome)
    {geo : Event} (member : geo ∈ next.events) (publishable : geo.Publishable user) :
    geo ∈ state.events := by
  cases turn with
  | published _ publishes _ | unrefreshed _ publishes _ =>
      obtain rfl | ⟨inState, _⟩ := publishes.mem member
      · have status := publishes.status
        rw [publishable.detected] at status
        cases status
      · exact inState
  | refused _ => exact member

/-- A row that is written leaves its event published. -/
theorem Turn.not_publishable (turn : Turn config user conflicts row run state next outcome)
    {other : State} (accepted : publishRow config user conflicts row run.now state = .ok other)
    (unwritten : run.fault ≠ .write) {geo : Event} (member : geo ∈ next.events)
    (named : geo.id = row.eventId) : ¬ geo.Publishable user := by
  intro publishable
  cases turn with
  | published _ publishes _ | unrefreshed _ publishes _ =>
      obtain rfl | ⟨_, different⟩ := publishes.mem member
      · have status := publishes.status
        rw [publishable.detected] at status
        cases status
      · exact different named
  | refused unread => exact unwritten (unread other accepted)

/-- The outcome of a turn is honest exactly when its refresh did not fail after a publish. -/
theorem Turn.honestRow_iff (turn : Turn config user conflicts row run state next outcome)
    (draftable : Draftable state) :
    HonestRow row outcome state next ↔
      ∀ next, publishRow config user conflicts row run.now state = .ok next →
        run.fault ≠ .refresh := by
  cases turn with
  | published accepted publishes stood =>
      constructor
      · intro _ _ _
        rw [stood]
        decide
      · intro _
        exact {
          eventId := rfl
          published := ⟨fun _ => publishes.wentGeolocated draftable, fun _ => rfl⟩
          refused := fun refused => absurd rfl refused
          others := fun _ different => publishes.mem_iff different }
  | unrefreshed accepted publishes fell =>
      constructor
      · intro honest _ _ _
        have none := honest.published.mpr (publishes.wentGeolocated draftable)
        cases none
      · intro stands
        exact absurd fell (stands next accepted)
  | refused unread =>
      constructor
      · intro _ next accepted
        rw [unread next accepted]
        decide
      · intro _
        exact {
          eventId := rfl
          published := by
            constructor
            · intro none
              cases none
            · intro went
              exact absurd went (not_wentGeolocated draftable _)
          refused := fun _ => rfl
          others := fun _ _ => Iff.rfl }

end Rows

/-! ### The loop -/

/-- The turns of a loop that returned. -/
inductive Turns (config : Config) (user : User) (conflicts : List Conflict) :
    List (CompletionRow × RowRun) → State → List DetectionCompletion → State → Prop
  | nil {state : State} : Turns config user conflicts [] state [] state
  | cons {row : CompletionRow} {run : RowRun} {rows : List (CompletionRow × RowRun)}
      {state next final : State} {outcome : DetectionCompletion}
      {outcomes : List DetectionCompletion}
      (completed : completeRow config user conflicts row run state = .ok (next, outcome))
      (turn : Turn config user conflicts row run state next outcome)
      (later : Turns config user conflicts rows next outcomes final) :
      Turns config user conflicts ((row, run) :: rows) state (outcome :: outcomes) final

section Loop

variable {config : Config} {user : User} {conflicts : List Conflict}
  {rows : List (CompletionRow × RowRun)} {outcomes : List DetectionCompletion} {state final : State}

/-- The state the loop leaves after its first rows. -/
def stateAfter (config : Config) (user : User) (conflicts : List Conflict)
    (rows : List (CompletionRow × RowRun)) (state : State) (index : Nat) : State :=
  (completeRows config user conflicts (rows.take index) state).1

theorem stateAfter_succ {row : CompletionRow} {run : RowRun} {next : State}
    {outcome : DetectionCompletion}
    (completed : completeRow config user conflicts row run state = .ok (next, outcome))
    (index : Nat) :
    stateAfter config user conflicts ((row, run) :: rows) state (index + 1) =
      stateAfter config user conflicts rows next index := by
  unfold stateAfter
  rw [List.take_succ_cons, completeRows, completed]

theorem completeRows_turns {ids : List Uuid} (draftable : Draftable state)
    (owns : OwnsAll user ids state) (posted : ∀ row ∈ rows, row.1.eventId ∈ ids) :
    ∃ outcomes final, completeRows config user conflicts rows state = (final, .ok outcomes) ∧
      Turns config user conflicts rows state outcomes final := by
  induction rows generalizing state with
  | nil => exact ⟨[], state, rfl, .nil⟩
  | cons head rest inductionHypothesis =>
      obtain ⟨row, run⟩ := head
      have turns : ∃ next outcome,
          completeRow config user conflicts row run state = .ok (next, outcome) ∧
            Turn config user conflicts row run state next outcome :=
        completeRow_turn draftable owns (posted (row, run) List.mem_cons_self)
      obtain ⟨next, outcome, completed, turn⟩ := turns
      obtain ⟨outcomes, final, completes, later⟩ := inductionHypothesis (turn.draftable draftable)
        (turn.ownsAll owns) fun other inRest => posted other (List.mem_cons_of_mem _ inRest)
      refine ⟨outcome :: outcomes, final, ?_, .cons completed turn later⟩
      rw [completeRows, completed]
      simp only [completes]
      rfl

theorem Turns.inOrder (turns : Turns config user conflicts rows state outcomes final) :
    outcomes.map DetectionCompletion.eventId = postedIds rows := by
  unfold postedIds
  induction turns with
  | nil => rfl
  | cons _ turn _ inductionHypothesis =>
      rw [List.map_cons, List.map_cons, turn.eventId, inductionHypothesis]

theorem Turns.draftable (turns : Turns config user conflicts rows state outcomes final)
    (draftable : Draftable state) : Draftable final := by
  induction turns with
  | nil => exact draftable
  | cons _ turn _ inductionHypothesis => exact inductionHypothesis (turn.draftable draftable)

/-- Each turn runs in the state the rows before it leave. -/
theorem Turns.turn (turns : Turns config user conflicts rows state outcomes final)
    (draftable : Draftable state) {index : Nat} {posted : CompletionRow × RowRun}
    {outcome : DetectionCompletion} (here : rows[index]? = some posted)
    (there : outcomes[index]? = some outcome) :
    Draftable (stateAfter config user conflicts rows state index) ∧
      Turn config user conflicts posted.1 posted.2
        (stateAfter config user conflicts rows state index)
        (stateAfter config user conflicts rows state (index + 1)) outcome := by
  induction turns generalizing index with
  | nil => cases here
  | cons completed turn later inductionHypothesis =>
      rw [stateAfter_succ completed]
      cases index with
      | zero =>
          cases here
          cases there
          exact ⟨draftable, turn⟩
      | succ index =>
          rw [stateAfter_succ completed]
          exact inductionHypothesis (turn.draftable draftable) here there

theorem Turns.length (turns : Turns config user conflicts rows state outcomes final) :
    outcomes.length = rows.length := by
  have same := congrArg List.length turns.inOrder
  unfold postedIds at same
  rwa [List.length_map, List.length_map] at same

/-- No refresh of the loop fails after a publish. -/
def Stands (config : Config) (user : User) (conflicts : List Conflict)
    (rows : List (CompletionRow × RowRun)) (state : State) : Prop :=
  ∀ index posted next, rows[index]? = some posted →
    publishRow config user conflicts posted.1 posted.2.now
        (stateAfter config user conflicts rows state index) = .ok next →
      posted.2.fault ≠ .refresh

theorem Stands.head {row : CompletionRow} {run : RowRun} {next : State}
    (stands : Stands config user conflicts ((row, run) :: rows) state)
    (accepted : publishRow config user conflicts row run.now state = .ok next) :
    run.fault ≠ .refresh :=
  stands 0 (row, run) next rfl accepted

theorem Stands.tail {row : CompletionRow} {run : RowRun} {next : State}
    {outcome : DetectionCompletion}
    (stands : Stands config user conflicts ((row, run) :: rows) state)
    (completed : completeRow config user conflicts row run state = .ok (next, outcome)) :
    Stands config user conflicts rows next := by
  intro index posted later here accepted
  apply stands (index + 1) posted later here
  rw [stateAfter_succ completed]
  exact accepted

theorem Stands.cons {row : CompletionRow} {run : RowRun} {next : State}
    {outcome : DetectionCompletion}
    (head : ∀ next, publishRow config user conflicts row run.now state = .ok next →
      run.fault ≠ .refresh)
    (completed : completeRow config user conflicts row run state = .ok (next, outcome))
    (tail : Stands config user conflicts rows next) :
    Stands config user conflicts ((row, run) :: rows) state := by
  intro index posted later here accepted
  cases index with
  | zero =>
      cases here
      exact head later accepted
  | succ index =>
      rw [stateAfter_succ completed] at accepted
      exact tail index posted later here accepted

/-- An event that is no detection stays as it is. -/
theorem Turns.published_kept (turns : Turns config user conflicts rows state outcomes final)
    (draftable : Draftable state) {geo : Event} (member : geo ∈ state.events)
    (published : geo.status ≠ .detected) : geo ∈ final.events := by
  induction turns with
  | nil => exact member
  | @cons row _ _ state _ _ _ _ _ turn _ inductionHypothesis =>
      apply inductionHypothesis (turn.draftable draftable)
      by_cases named : geo.id = row.eventId
      · cases turn with
        | published _ publishes _ | unrefreshed _ publishes _ =>
            have same := draftable.primaryKey geo member _ publishes.member
              (named.trans publishes.here.symm)
            rw [same] at published
            exact absurd publishes.detected published
        | refused _ => exact member
      · exact (turn.others named).mpr member

/-- An event every outcome refuses stays as it is. -/
theorem Turns.kept (turns : Turns config user conflicts rows state outcomes final)
    (stands : Stands config user conflicts rows state) {geo : Event} (member : geo ∈ state.events)
    (refused : ∀ outcome ∈ outcomes, outcome.eventId = geo.id → outcome.code ≠ none) :
    geo ∈ final.events := by
  induction turns with
  | nil => exact member
  | @cons row _ _ state _ _ _ _ completed turn _ inductionHypothesis =>
      apply inductionHypothesis (stands.tail completed)
      · by_cases named : geo.id = row.eventId
        · cases turn with
          | published _ _ _ => exact absurd rfl (refused _ List.mem_cons_self named.symm)
          | unrefreshed accepted _ fell => exact absurd fell (stands.head accepted)
          | refused _ => exact member
        · exact (turn.others named).mpr member
      · intro outcome inLater named
        exact refused outcome (List.mem_cons_of_mem _ inLater) named

/-- The outcomes without a code are the events the call published. -/
theorem Turns.published_iff (turns : Turns config user conflicts rows state outcomes final)
    (draftable : Draftable state) (stands : Stands config user conflicts rows state) (id : Uuid) :
    (∃ outcome ∈ outcomes, outcome.eventId = id ∧ outcome.code = none) ↔
      WentGeolocated id state final := by
  constructor
  · intro told
    induction turns with
    | nil =>
        obtain ⟨_, member, _⟩ := told
        cases member
    | cons completed turn later inductionHypothesis =>
        obtain ⟨outcome, member, named, none⟩ := told
        cases List.mem_cons.mp member with
        | inl same =>
            subst same
            cases turn with
            | published _ publishes _ =>
                obtain ⟨geo, inState, published, inNext, here, there, detected, status, first⟩ :=
                  publishes.wentGeolocated draftable
                refine ⟨geo, inState, published, ?_, here.trans named, there.trans named, detected,
                  status, first⟩
                apply later.published_kept (publishes.draftable draftable) inNext
                rw [status]
                decide
            | unrefreshed _ _ _ => cases none
            | refused _ => cases none
        | inr inLater =>
            obtain ⟨geo, inNext, published, inFinal, here, rest⟩ := inductionHypothesis
              (turn.draftable draftable) (stands.tail completed) ⟨outcome, inLater, named, none⟩
            refine ⟨geo, ?_, published, inFinal, here, rest⟩
            cases turn with
            | published _ publishes _ | unrefreshed _ publishes _ =>
                obtain rfl | ⟨inState, _⟩ := publishes.mem inNext
                · rw [publishes.status] at rest
                  cases rest.2.1
                · exact inState
            | refused _ => exact inNext
  · intro went
    obtain ⟨geo, member, published, inFinal, here, there, detected, status, _⟩ := went
    by_contra untold
    have stays := turns.kept stands member (by
      intro outcome inOutcomes named none
      exact untold ⟨outcome, inOutcomes, named.trans here, none⟩)
    have same := (turns.draftable draftable).primaryKey geo stays published inFinal
      (here.trans there.symm)
    rw [same, status] at detected
    cases detected

theorem OwnsAll.take {ids : List Uuid} (owns : OwnsAll user ids state) {fewer : List Uuid}
    (some : ∀ id ∈ fewer, id ∈ ids) : OwnsAll user fewer state :=
  fun geo member named live => owns geo member (some geo.id named) live

/-- What the call leaves when it is given its first rows only. -/
theorem completeDetections_take {conflictIds : List Uuid}
    (resolved : resolveConflicts (state.transaction config) conflictIds ≠ [])
    (owns : OwnsAll user (postedIds rows) state) (index : Nat) :
    (completeDetections config user conflictIds (rows.take index) state).1 =
      stateAfter config user (resolveConflicts (state.transaction config) conflictIds) rows state
        index := by
  have fewer : OwnsAll user (postedIds (rows.take index)) state := by
    apply owns.take
    intro id member
    unfold postedIds at member ⊢
    rw [List.map_take] at member
    exact List.mem_of_mem_take member
  unfold completeDetections stateAfter
  simp only [if_neg resolved, if_pos fewer]

/-- The loop publishes an event at the first row whose write no error strikes. -/
theorem Turns.stands_iff (turns : Turns config user conflicts rows state outcomes final)
    (draftable : Draftable state) :
    Stands config user conflicts rows state ↔ Refreshes user rows state := by
  induction turns with
  | nil =>
      constructor
      · intro _ geo _ _ posted found
        cases found
      · intro _ index posted _ here
        cases here
  | @cons row run rest state next _ _ _ completed turn later inductionHypothesis =>
      have below := inductionHypothesis (turn.draftable draftable)
      constructor
      · intro stands geo member publishable posted found
        by_cases named : row.eventId = geo.id ∧ run.fault ≠ .write
        · rw [firstWrite_head named] at found
          cases found
          obtain ⟨next, accepted⟩ := (publishRow_isOk_iff draftable).mpr
            ⟨geo, member, named.1.symm, publishable⟩
          exact stands.head accepted
        · rw [firstWrite_tail named] at found
          apply below.mp (stands.tail completed) geo _ publishable posted found
          by_cases here : row.eventId = geo.id
          · have written : run.fault = .write := by
              by_contra unwritten
              exact named ⟨here, unwritten⟩
            exact turn.unmoved written ▸ member
          · exact (turn.others (Ne.symm here)).mpr member
      · intro refreshes
        have head : ∀ next, publishRow config user conflicts row run.now state = .ok next →
            run.fault ≠ .refresh := by
          intro next accepted fell
          obtain ⟨geo, member, here, publishable⟩ :=
            (publishRow_isOk_iff draftable).mp ⟨next, accepted⟩
          apply refreshes geo member publishable (row, run) _ fell
          apply firstWrite_head
          rw [fell]
          exact ⟨here.symm, by decide⟩
        have tail : Refreshes user rest next := by
          intro geo member publishable posted found
          have kept := turn.publishable_mem member publishable
          apply refreshes geo kept publishable posted
          rw [firstWrite_tail, found]
          intro named
          obtain ⟨other, accepted⟩ := (publishRow_isOk_iff draftable).mpr
            ⟨geo, kept, named.1.symm, publishable⟩
          exact turn.not_publishable accepted named.2 member named.1.symm publishable
        exact Stands.cons head completed (below.mpr tail)

/-- A loop on rows of the caller is honest exactly when no refresh fails after a publish. -/
theorem Turns.honestOutcomes_iff
    (turns : Turns config user conflicts rows state outcomes final) (draftable : Draftable state) :
    HonestOutcomes rows (stateAfter config user conflicts rows state) outcomes state final ↔
      Stands config user conflicts rows state := by
  constructor
  · intro honest index posted next here accepted
    have inRange : index < outcomes.length := by
      rw [turns.length]
      exact (List.getElem?_eq_some_iff.mp here).1
    have there : outcomes[index]? = some outcomes[index] := List.getElem?_eq_getElem inRange
    obtain ⟨kept, turn⟩ := turns.turn draftable here there
    exact (turn.honestRow_iff kept).mp (honest.rows index posted _ here there) next accepted
  · intro stands
    exact {
      inOrder := turns.inOrder
      rows := by
        intro index posted outcome here there
        obtain ⟨kept, turn⟩ := turns.turn draftable here there
        apply (turn.honestRow_iff kept).mpr
        intro next accepted
        exact stands index posted next here accepted
      published := turns.published_iff draftable stands
      kept := fun geo member refused => turns.kept stands member refused }

/-- A call that returned is honest by its outcomes. -/
theorem honestCompletion_of_ok {conflictIds : List Uuid}
    (returned : completeDetections config user conflictIds rows state = (final, .ok outcomes)) :
    HonestCompletion config user conflictIds rows state ↔
      HonestOutcomes rows
        (fun index => (completeDetections config user conflictIds (rows.take index) state).1)
        outcomes state final := by
  unfold HonestCompletion
  rw [returned]

end Loop

/-! ### A refresh that fails -/

/-- An import of one source file and one proof image, under event 4. -/
def smallDetection : Detection where
  coordinate := ⟨1, 2⟩
  title := str "t"
  proofText := []
  sourceUrl := some (str "https://example.org/post")
  detectedFromPostId := some 1
  detectedFromUrl := str "https://x.com/i/status/1"
  threadTweetIds := [1]
  occurredDate := none
  sourcePostedAt := none
  detectedPostAt := none
  secondarySources := []
  sourceMedia := []
  proofMedia := []

def smallImport : Request :=
  .persistOne 0 smallDetection .archive
    [⟨.source, ⟨.jpeg, str "d1"⟩⟩, ⟨.proof, ⟨.jpeg, str "d2"⟩⟩]

def smallOwner : User := newUser 0 (str "ann") (str "ann@example.org") []

/-- The row of that import, struck by `fault`. -/
def smallTurn (fault : RowFault) : CompletionRow × RowRun := (⟨4, .unknown⟩, ⟨1, fault⟩)

end Vidit.World
