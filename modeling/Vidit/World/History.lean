import Vidit.Library.VersionLog
import Vidit.World.Identity

/-!
Contract: the version history of an event, over every run.

Owns:
- an event read as a version log, and that every write on an event is a step of
  that log (`Change.log_step`);
- the ledger of version numbers, and that nothing reopens or edits a closed event;
- that the history holds the snapshot of every version that was live.

Does not own: which objects the history keeps alive (`Vidit.World.Custody`).
-/

namespace Vidit.World

open Vidit.Python Vidit.Accounts Vidit.Evidence Vidit.Events Vidit.Library

variable {config : Config} {state next final : State} {survivors : List User}

/-- An event as a version log: a draft until it is published. -/
def eventLog (geo : Event) : VersionLog Snapshot where
  draft := isUnpublished geo.openStatus
  current := geo.versionNo
  live := buildSnapshot geo
  rows := geo.versions.map fun version => (version.versionNo, version.snapshot)

/-- The first number an event filed in `status` gives a version. -/
def firstNumber (status : Status) : Nat :=
  if isUnpublished status then 0 else 1

/-! ### Closed events -/

/-- A closed event records the state it left; an open one records none. -/
structure Phased (geo : Event) : Prop where
  opened : geo.status ≠ .closed → geo.beforeClosedStatus = none
  closed : geo.status = .closed → ∃ left, geo.beforeClosedStatus = some left

theorem Phased.openStatus {geo : Event} (phased : Phased geo) (opened : geo.status ≠ .closed) :
    geo.openStatus = geo.status := by
  unfold Event.openStatus
  rw [phased.opened opened]
  rfl

/-- What a write on an event leaves of its status when it does not move it. -/
theorem Phased.of_eq {row geo : Event} (phased : Phased row) (status : geo.status = row.status)
    (left : geo.beforeClosedStatus = row.beforeClosedStatus) : Phased geo where
  opened opened := by rw [left]; exact phased.opened (status ▸ opened)
  closed closed := by rw [left]; exact phased.closed (status ▸ closed)

/-- What each write does to the status: keep it, publish, or close. -/
inductive StatusStep (row geo : Event) : Prop where
  | keep (status : geo.status = row.status)
      (left : geo.beforeClosedStatus = row.beforeClosedStatus)
  | publish (opened : row.status ≠ .closed) (status : geo.status = .geolocated)
      (left : geo.beforeClosedStatus = row.beforeClosedStatus)
  | close (opened : row.status ≠ .closed) (status : geo.status = .closed)
      (left : geo.beforeClosedStatus = some row.status)

theorem Edited.statusStep {row : Event} {written : Written}
    (edited : Edited config state row written) : StatusStep row written.event := by
  cases edited with
  | updated _ updating =>
      rcases updateRequest_ok updating with ⟨_, _, _, _, _, _, finishing⟩
      rcases finishWrite_event finishing with ⟨_, _, _, event⟩
      rw [event]
      exact .keep rfl rfl
  | saved _ saving =>
      have opened := (saveVersion_ok saving).choose_spec.choose_spec.choose_spec.1
      rcases saveVersion_event saving with ⟨_, _, _, _, _, event⟩
      rw [event]
      cases unpublished : isUnpublished row.status with
      | true => exact .publish opened (by simp [editFields]) rfl
      | false => exact .keep (by simp [editFields, filedEvent]) rfl

theorem Moved.statusStep {row geo : Event} (moved : Moved config state row geo) :
    StatusStep row geo := by
  cases moved with
  | published _ publishing =>
      rcases publishDetection_ok publishing with ⟨_, _, detected, rfl⟩
      exact .publish (by simp [detected]) rfl rfl
  | closed closing =>
      rcases close_ok closing with ⟨_, opened, rfl⟩
      exact .close opened rfl rfl
  | credited _ crediting =>
      rcases CreditVerb.run_event crediting with ⟨_, _, _, _, rfl⟩
      exact .keep rfl rfl
  | approved _ approving =>
      rcases approve_ok approving with ⟨_, _, _, _, rfl⟩
      exact .keep rfl rfl
  | hidden withholding =>
      rcases setHidden_event withholding with ⟨_, rfl⟩
      exact .keep rfl rfl
  | deleted => exact .keep rfl rfl

theorem Change.statusStep {row geo : Event} (change : Change config state survivors row geo) :
    StatusStep row geo := by
  cases change with
  | edited edited => exact edited.statusStep
  | upserted upserting =>
      rcases (upsertOne_ok upserting).2 with ⟨_, _, _, _, _, event⟩ | ⟨_, _, rfl⟩
      · rw [event]
        exact .keep rfl rfl
      · exact .keep rfl rfl
  | redacted redacting =>
      rcases redactVersion_ok redacting with ⟨_, _, _, rfl⟩
      exact .keep rfl rfl
  | moved moved => exact moved.statusStep
  | banned user =>
      rcases banEvent_event state.users user state.now row with ⟨_, _, _, event⟩
      rw [event]
      exact .keep rfl rfl
  | restored user =>
      rcases restoreWith_event user row with ⟨_, event⟩
      rw [event]
      exact .keep rfl rfl
  | forgotten _ _ lives =>
      rcases passOn_event lives with ⟨_, _, _, _, event⟩
      rw [event]
      exact .keep rfl rfl

theorem Phased.step {row geo : Event} (phased : Phased row) (step : StatusStep row geo) :
    Phased geo := by
  cases step with
  | keep status left => exact phased.of_eq status left
  | publish opened status left =>
      exact ⟨fun _ => left.trans (phased.opened opened), fun closed => by simp [status] at closed⟩
  | close opened status left => exact ⟨fun stays => absurd status stays, fun _ => ⟨_, left⟩⟩

/-! ### How an event is born -/

/-- A new event has no history, and stands at its first number. -/
structure Newborn (geo : Event) : Prop where
  versions : geo.versions = []
  versionNo : geo.versionNo = firstNumber geo.status
  left : geo.beforeClosedStatus = none
  opened : geo.status ≠ .closed
  media : ∀ media ∈ geo.media, isPlaceholder media.storageUrl = false

/-- The proof rows a write of the form leaves: some of the old ones, and images it
stored. -/
theorem finishWrite_media {tx : Events.Transaction} {geo : Event} {planned : List PlannedSource}
    {proofHtml : Option Body} {proofFiles : List UploadFile} {written : Written}
    (finishing : finishWrite config tx geo planned proofHtml proofFiles = .ok written)
    (stored : ∀ media ∈ geo.media, isPlaceholder media.storageUrl = false) :
    ∀ media ∈ written.event.media, isPlaceholder media.storageUrl = false := by
  rcases finishWrite_ok finishing with ⟨_, attached, _, attaching, rfl⟩
  rcases attachEvidence_ok attaching with ⟨_, pairs, images, _, storing, rows, _, event⟩
  simp only [event, List.mem_append]
  rintro media (old | new)
  · exact stored media (List.mem_of_mem_filter old)
  · rw [rows] at new
    rcases List.getElem?_of_mem new with ⟨index, found⟩
    exact (storeProofImages_mint storing found).isPlaceholder

theorem mem_proofRowsOf {stored : List (MediaRole × Media)} {media : Media}
    (member : media ∈ proofRowsOf stored) : ∃ role, (role, media) ∈ stored := by
  unfold proofRowsOf at member
  rcases List.mem_map.mp member with ⟨row, inRows, rfl⟩
  exact ⟨row.1, List.mem_of_mem_filter inRows⟩

theorem proofRowsOf_storeMedia {tx : Events.Transaction} {eventId : Uuid} {first : Nat}
    {items : List ResolvedMedia} {media : Media}
    (member : media ∈ proofRowsOf (storeMedia config tx eventId first items)) :
    isPlaceholder media.storageUrl = false := by
  rcases mem_proofRowsOf member with ⟨role, inStored⟩
  rcases List.getElem?_of_mem inStored with ⟨index, found⟩
  exact (storeMedia_mint found).isPlaceholder

theorem Born.newborn {geo : Event} (born : Born config state geo) : Newborn geo := by
  cases born with
  | drafted drafted =>
      cases drafted with
      | created _ creating =>
          rcases createWithEvidence_ok creating with ⟨_, _, credited, _, inviting, finishing⟩
          rcases inviteOnPublish_event inviting with ⟨_, rfl⟩
          have media := finishWrite_media finishing (by
            intro media member
            simp [creditGeolocator, newEvent, Event.setGeolocator] at member)
          rcases finishWrite_event finishing with ⟨_, _, _, event⟩
          rw [event] at media ⊢
          exact ⟨rfl, rfl, rfl, by simp [creditGeolocator, newEvent, Event.setGeolocator], media⟩
      | requested _ creating =>
          rcases createRequest_ok creating with ⟨_, _, _, _, finishing⟩
          have media := finishWrite_media finishing (by
            intro media member
            simp [newEvent] at member)
          rcases finishWrite_event finishing with ⟨_, _, _, event⟩
          rw [event] at media ⊢
          exact ⟨rfl, rfl, rfl, by simp [newEvent], media⟩
  | persisted _ persisting =>
      rcases persistOne_ok persisting with ⟨_, rfl⟩
      exact ⟨rfl, rfl, rfl, by simp [newEvent], fun media member => proofRowsOf_storeMedia member⟩

theorem phased_of_reachable (reachable : (system config).Reachable state) {geo : Event}
    (member : geo ∈ state.events) : Phased geo := by
  refine event_invariant Phased ?_ ?_ reachable member
  · intro _ _ _ born
    exact ⟨fun _ => born.newborn.left, fun closed => absurd closed born.newborn.opened⟩
  · intro _ _ _ _ _ _ phased change
    exact phased.step change.statusStep

theorem media_of_reachable (reachable : (system config).Reachable state) {geo : Event}
    (member : geo ∈ state.events) :
    ∀ media ∈ geo.media, isPlaceholder media.storageUrl = false := by
  refine event_invariant
    (fun geo => ∀ media ∈ geo.media, isPlaceholder media.storageUrl = false) (fun _ born => born.newborn.media) ?_ reachable member
  intro state _ row geo _ _ stored change
  cases change with
  | edited edited =>
      cases edited with
      | updated _ updating =>
          rcases updateRequest_ok updating with ⟨_, _, _, _, _, _, finishing⟩
          exact finishWrite_media finishing stored
      | saved _ saving =>
          rcases saveVersion_ok saving with ⟨_, _, _, _, _, crediting, finishing⟩
          rcases creditOnPublish_event crediting with ⟨_, _, rfl⟩
          exact finishWrite_media finishing stored
  | upserted upserting =>
      rcases (upsertOne_ok upserting).2 with ⟨_, _, _, _, _, event⟩ | ⟨_, _, rfl⟩
      · rw [event]
        exact stored
      · exact fun media member => proofRowsOf_storeMedia member
  | redacted redacting =>
      rcases redactVersion_ok redacting with ⟨_, _, _, rfl⟩
      exact fun media member => stored media (List.mem_of_mem_filter member)
  | moved moved =>
      cases moved with
      | published _ publishing =>
          rcases publishDetection_ok publishing with ⟨_, _, _, rfl⟩
          exact stored
      | closed closing =>
          rcases close_ok closing with ⟨_, _, rfl⟩
          exact stored
      | credited _ crediting =>
          rcases CreditVerb.run_event crediting with ⟨_, _, _, _, rfl⟩
          exact stored
      | approved _ approving =>
          rcases approve_ok approving with ⟨_, _, _, _, rfl⟩
          exact stored
      | hidden withholding =>
          rcases setHidden_event withholding with ⟨_, rfl⟩
          exact stored
      | deleted => exact stored
  | banned user =>
      rcases banEvent_event state.users user state.now row with ⟨_, _, _, event⟩
      rw [event]
      exact stored
  | restored user =>
      rcases restoreWith_event user row with ⟨_, event⟩
      rw [event]
      exact stored
  | forgotten _ _ lives =>
      rcases passOn_event lives with ⟨_, _, _, _, event⟩
      rw [event]
      exact stored

/-! ### Every write is a step of the log -/

/-- Pruning the proof rows nothing displays moves no snapshot. -/
theorem buildSnapshot_prunedProof {geo : Event}
    (stored : ∀ media ∈ geo.media, isPlaceholder media.storageUrl = false) :
    buildSnapshot (prunedProof geo) = buildSnapshot geo := by
  have kept : (geo.media.filter fun media => media.storageUrl ∈ keptProofSrcs geo).filter
      (fun media => media.storageUrl ∈ extractImageSrcs geo.proof) =
        geo.media.filter fun media => media.storageUrl ∈ extractImageSrcs geo.proof := by
    rw [List.filter_filter]
    apply List.filter_congr
    intro media member
    simp only [← Bool.decide_and, decide_eq_decide, and_iff_left_iff_imp]
    intro displayed
    unfold keptProofSrcs
    rw [List.mem_append, mem_displayedProofSrcs]
    exact .inl ⟨mem_extractImageSrcs.mp displayed, stored media member⟩
  unfold buildSnapshot prunedProof
  simp only [kept]

/-- Filing a version and writing a published row is the filing step of the log. -/
theorem eventLog_file {row geo : Event} {user : User} {note : Option Str} {now : Instant}
    (versions : geo.versions = row.versions ++ [versionRow row user note (buildSnapshot row) now])
    (versionNo : geo.versionNo = row.versionNo + 1)
    (published : isUnpublished geo.openStatus = false) :
    (eventLog row).Step (eventLog geo) := by
  have filed : eventLog geo = (eventLog row).file (buildSnapshot geo) := by
    unfold eventLog VersionLog.file
    simp only [versions, versionNo, published, List.map_append, List.map_cons, List.map_nil,
      versionRow]
  rw [filed]
  exact .file _

/-- A draft changes in place. -/
theorem eventLog_amend {row geo : Event} (versions : geo.versions = row.versions)
    (versionNo : geo.versionNo = row.versionNo) (status : geo.openStatus = row.openStatus)
    (draft : isUnpublished row.openStatus = true) : (eventLog row).Step (eventLog geo) := by
  have amended : eventLog geo = { eventLog row with live := buildSnapshot geo } := by
    unfold eventLog
    simp only [versions, versionNo, status]
  rw [amended]
  exact .amend _ draft

theorem eventLog_stay {row geo : Event} (same : eventLog geo = eventLog row) :
    (eventLog row).Step (eventLog geo) := by
  rw [same]
  exact .stay

theorem Edited.log_step {row : Event} {written : Written} (phased : Phased row)
    (edited : Edited config state row written) :
    (eventLog row).Step (eventLog written.event) := by
  cases edited with
  | updated _ updating =>
      rcases updateRequest_ok updating with ⟨_, _, _, _, requested, _, finishing⟩
      rcases finishWrite_event finishing with ⟨_, _, _, event⟩
      have opened := phased.openStatus (by simp [requested])
      rw [event]
      exact eventLog_amend rfl rfl rfl (by rw [opened, requested]; rfl)
  | saved _ saving =>
      have opened := (saveVersion_ok saving).choose_spec.choose_spec.choose_spec.1
      rcases saveVersion_event saving with ⟨_, _, _, _, _, event⟩
      rw [event]
      refine eventLog_file rfl rfl ?_
      unfold Event.openStatus
      simp only [editFields, filedEvent, phased.opened opened, Option.getD_none]
      split
      · rfl
      · rename_i published
        simpa using published

theorem Moved.log_step {row geo : Event} (phased : Phased row) (moved : Moved config state row geo) :
    (eventLog row).Step (eventLog geo) := by
  cases moved with
  | published _ publishing =>
      rcases publishDetection_ok publishing with ⟨_, _, detected, rfl⟩
      refine eventLog_file rfl rfl ?_
      have left := phased.opened (by simp [detected])
      simp [Event.openStatus, publishedDetection, creditGeolocator, Event.setGeolocator,
        filedEvent, left, isUnpublished]
  | closed closing =>
      rcases close_ok closing with ⟨_, opened, rfl⟩
      apply eventLog_stay
      unfold eventLog
      rw [phased.openStatus opened]
      rfl
  | credited _ crediting =>
      rcases CreditVerb.run_event crediting with ⟨_, _, _, _, rfl⟩
      exact .stay
  | approved _ approving =>
      rcases approve_ok approving with ⟨_, _, _, _, rfl⟩
      exact .stay
  | hidden withholding =>
      rcases setHidden_event withholding with ⟨_, rfl⟩
      exact .stay
  | deleted => exact .stay

/-- Every write on an event is a step of its log. -/
theorem Change.log_step {row geo : Event} (phased : Phased row)
    (stored : ∀ media ∈ row.media, isPlaceholder media.storageUrl = false)
    (change : Change config state survivors row geo) : (eventLog row).Step (eventLog geo) := by
  cases change with
  | edited edited => exact edited.log_step phased
  | upserted upserting =>
      rcases upsertOne_ok upserting with ⟨openRow, written⟩
      have detected : row.status = .detected := by
        unfold rowDisposition at openRow
        split_ifs at openRow with _ _ _ detected
        exact detected
      have draft : isUnpublished row.openStatus = true := by
        rw [phased.openStatus (by simp [detected]), detected]
        rfl
      rcases written with ⟨_, _, _, _, _, event⟩ | ⟨_, _, rfl⟩
      · rw [event]
        exact eventLog_amend rfl rfl rfl draft
      · exact eventLog_amend rfl rfl rfl draft
  | redacted redacting =>
      rcases redactVersion_ok redacting with ⟨version, _, _, rfl⟩
      have blanked : ∀ actorId versionNo, eventLog
          (prunedProof (Events.redacted (state.transaction config) row actorId versionNo)) =
            (eventLog row).redact versionNo := by
        intro actorId versionNo
        have live := buildSnapshot_prunedProof
          (show ∀ media ∈ (Events.redacted (state.transaction config) row actorId versionNo).media,
            isPlaceholder media.storageUrl = false from stored)
        unfold eventLog VersionLog.redact
        rw [live]
        simp only [prunedProof, Events.redacted, List.map_map]
        congr 1
        apply List.map_congr_left
        intro version _
        simp only [Function.comp_apply, VersionLog.blank]
        split <;> rfl
      rw [blanked]
      exact .redact _
  | moved moved => exact moved.log_step phased
  | banned user =>
      rcases banEvent_event state.users user state.now row with ⟨_, _, _, event⟩
      rw [event]
      exact .stay
  | restored user =>
      rcases restoreWith_event user row with ⟨_, event⟩
      rw [event]
      exact .stay
  | forgotten _ _ lives =>
      rcases passOn_event lives with ⟨_, _, _, _, event⟩
      rw [event]
      apply eventLog_stay
      unfold eventLog forgetUser
      simp only [List.map_map]
      rfl

/-- A run carries an event along a run of its log. -/
theorem log_run (reachable : (system config).Reachable state)
    (run : (system config).Run state final) {first last : Event} (inState : first ∈ state.events)
    (inFinal : last ∈ final.events) (sameId : last.id = first.id) :
    (eventLog first).Run (eventLog last) := by
  refine event_history (fun first last => (eventLog first).Run (eventLog last))
    (fun _ => Relation.ReflTransGen.refl) ?_ reachable run inState inFinal sameId
  intro _ _ _ _ _ reachable inRows log change
  exact log.tail (change.log_step (phased_of_reachable reachable inRows)
    (media_of_reachable reachable inRows))

/-! ### The filed versions -/

/-- What each write does to the filed versions: nothing, file the outgoing one,
blank one, or forget who an erased account was. -/
inductive VersionsStep (row geo : Event) : Prop where
  | keep (versions : geo.versions = row.versions)
  | file (user : User) (note : Option Str) (now : Instant)
      (versions : geo.versions = row.versions ++ [versionRow row user note (buildSnapshot row) now])
  | blank (actorId : Uuid) (number : Nat) (now : Instant)
      (versions : geo.versions = row.versions.map fun version =>
        if version.versionNo = number then version.redact actorId now else version)
  | forget (userId : Uuid)
      (versions : geo.versions = row.versions.map fun version => { version with
        editedById := unlessErased userId version.editedById
        redactedById := unlessErased userId version.redactedById })

theorem Change.versionsStep {row geo : Event} (change : Change config state survivors row geo) :
    VersionsStep row geo := by
  cases change with
  | edited edited =>
      cases edited with
      | updated _ updating =>
          rcases updateRequest_ok updating with ⟨_, _, _, _, _, _, finishing⟩
          rcases finishWrite_event finishing with ⟨_, _, _, event⟩
          exact .keep (by rw [event])
      | saved _ saving =>
          rcases saveVersion_event saving with ⟨_, _, _, _, _, event⟩
          exact .file _ _ _ (by rw [event]; rfl)
  | upserted upserting =>
      rcases (upsertOne_ok upserting).2 with ⟨_, _, _, _, _, event⟩ | ⟨_, _, rfl⟩
      · exact .keep (by rw [event]; rfl)
      · exact .keep rfl
  | redacted redacting =>
      rcases redactVersion_ok redacting with ⟨_, _, _, rfl⟩
      exact .blank _ _ _ rfl
  | moved moved =>
      cases moved with
      | published _ publishing =>
          rcases publishDetection_ok publishing with ⟨_, _, _, rfl⟩
          exact .file _ _ _ rfl
      | closed closing =>
          rcases close_ok closing with ⟨_, _, rfl⟩
          exact .keep rfl
      | credited _ crediting =>
          rcases CreditVerb.run_event crediting with ⟨_, _, _, _, rfl⟩
          exact .keep rfl
      | approved _ approving =>
          rcases approve_ok approving with ⟨_, _, _, _, rfl⟩
          exact .keep rfl
      | hidden withholding =>
          rcases setHidden_event withholding with ⟨_, rfl⟩
          exact .keep rfl
      | deleted => exact .keep rfl
  | banned user =>
      rcases banEvent_event state.users user state.now row with ⟨_, _, _, event⟩
      exact .keep (by rw [event])
  | restored user =>
      rcases restoreWith_event user row with ⟨_, event⟩
      exact .keep (by rw [event])
  | @forgotten user _ _ lives =>
      rcases passOn_event lives with ⟨_, _, _, _, event⟩
      exact .forget user.id (by rw [event]; rfl)

/-- A version nothing redacted holds its snapshot. -/
theorem snapshot_of_readable (reachable : (system config).Reachable state) {geo : Event}
    (member : geo ∈ state.events) :
    ∀ version ∈ geo.versions, version.redactedAt = none → ∃ snapshot,
      version.snapshot = some snapshot := by
  refine event_invariant (fun geo => ∀ version ∈ geo.versions, version.redactedAt = none →
    ∃ snapshot, version.snapshot = some snapshot) ?_ ?_ reachable member
  · intro _ _ _ born version filed
    rw [born.newborn.versions] at filed
    contradiction
  · intro _ _ row geo _ _ holds change
    cases change.versionsStep with
    | keep versions =>
        rw [versions]
        exact holds
    | file user note now versions =>
        rw [versions]
        intro version filed readable
        rcases List.mem_append.mp filed with old | new
        · exact holds version old readable
        · rw [List.mem_singleton.mp new]
          exact ⟨_, rfl⟩
    | blank actorId number now versions =>
        rw [versions]
        intro version filed
        rcases List.mem_map.mp filed with ⟨stored, inRows, rfl⟩
        split
        · intro readable
          simp [EventVersion.redact] at readable
        · exact holds stored inRows
    | forget userId versions =>
        rw [versions]
        intro version filed
        rcases List.mem_map.mp filed with ⟨stored, inRows, rfl⟩
        exact holds stored inRows

/-! ### The ledger of version numbers -/

/-- What stays of a closed event: its state, its record of the close, its number,
and everything a snapshot shows. -/
structure Frozen (geo later : Event) : Prop where
  status : later.status = .closed
  left : later.beforeClosedStatus = geo.beforeClosedStatus
  closedAt : later.closedAt = geo.closedAt
  closeReason : later.closeReason = geo.closeReason
  versionNo : later.versionNo = geo.versionNo
  snapshot : buildSnapshot later = buildSnapshot geo

theorem Frozen.trans {geo middle later : Event} (first : Frozen geo middle)
    (second : Frozen middle later) : Frozen geo later where
  status := second.status
  left := second.left.trans first.left
  closedAt := second.closedAt.trans first.closedAt
  closeReason := second.closeReason.trans first.closeReason
  versionNo := second.versionNo.trans first.versionNo
  snapshot := second.snapshot.trans first.snapshot

/-- Nothing reopens or edits a closed event. -/
theorem Change.frozen {row geo : Event}
    (stored : ∀ media ∈ row.media, isPlaceholder media.storageUrl = false)
    (closed : row.status = .closed) (change : Change config state survivors row geo) : Frozen row geo := by
  cases change with
  | edited edited =>
      cases edited with
      | updated _ updating =>
          rcases updateRequest_ok updating with ⟨_, _, _, _, requested, _, _⟩
          simp [closed] at requested
      | saved _ saving =>
          exact absurd closed (saveVersion_ok saving).choose_spec.choose_spec.choose_spec.1
  | upserted upserting =>
      have openRow := (upsertOne_ok upserting).1
      simp [rowDisposition, closed] at openRow
  | redacted redacting =>
      rcases redactVersion_ok redacting with ⟨_, _, _, rfl⟩
      exact ⟨closed, rfl, rfl, rfl, rfl, buildSnapshot_prunedProof stored⟩
  | moved moved =>
      cases moved with
      | published _ publishing =>
          rcases publishDetection_ok publishing with ⟨_, _, detected, _⟩
          simp [closed] at detected
      | closed closing => exact absurd closed (close_ok closing).2.1
      | credited _ crediting =>
          rcases CreditVerb.run_event crediting with ⟨_, _, _, _, rfl⟩
          exact ⟨closed, rfl, rfl, rfl, rfl, rfl⟩
      | approved _ approving =>
          rcases approve_ok approving with ⟨_, _, _, _, rfl⟩
          exact ⟨closed, rfl, rfl, rfl, rfl, rfl⟩
      | hidden withholding =>
          rcases setHidden_event withholding with ⟨_, rfl⟩
          exact ⟨closed, rfl, rfl, rfl, rfl, rfl⟩
      | deleted => exact ⟨closed, rfl, rfl, rfl, rfl, rfl⟩
  | banned user =>
      rcases banEvent_event state.users user state.now row with ⟨_, _, _, event⟩
      rw [event]
      exact ⟨closed, rfl, rfl, rfl, rfl, rfl⟩
  | restored user =>
      rcases restoreWith_event user row with ⟨_, event⟩
      rw [event]
      exact ⟨closed, rfl, rfl, rfl, rfl, rfl⟩
  | forgotten _ _ lives =>
      rcases passOn_event lives with ⟨_, _, _, _, event⟩
      rw [event]
      exact ⟨closed, rfl, rfl, rfl, rfl, rfl⟩

theorem frozen_run (reachable : (system config).Reachable state)
    (run : (system config).Run state final) {first last : Event} (inState : first ∈ state.events)
    (inFinal : last ∈ final.events) (sameId : last.id = first.id)
    (closed : first.status = .closed) : Frozen first last := by
  have kept := event_history (fun first last => first.status = .closed → Frozen first last)
    (fun _ closed => ⟨closed, rfl, rfl, rfl, rfl, rfl⟩) ?_ reachable run inState inFinal sameId
  · exact kept closed
  · intro _ _ _ _ _ reachable inRows frozen change closed
    have before := frozen closed
    exact before.trans
      (change.frozen (media_of_reachable reachable inRows) before.status)

/-- The version numbers of an event's filed versions. -/
def versionNumbers (geo : Event) : List Nat :=
  geo.versions.map EventVersion.versionNo

theorem eventLog_numbers (geo : Event) : (eventLog geo).numbers = versionNumbers geo := by
  simp [VersionLog.numbers, eventLog, versionNumbers, Function.comp_def]

theorem Newborn.wellFormed {geo : Event} (newborn : Newborn geo) :
    (eventLog geo).WellFormed (firstNumber geo.status) where
  numbers := by simp [VersionLog.numbers, eventLog, newborn.versions, newborn.versionNo]
  reached := by
    show firstNumber geo.status ≤ geo.versionNo
    rw [newborn.versionNo]
  draft := by
    have status : geo.openStatus = geo.status := by
      unfold Event.openStatus
      rw [newborn.left]
      rfl
    simp only [eventLog, status, newborn.versionNo, firstNumber]
    split <;> simp [*]

/-- A redaction moves no number. -/
theorem redact_numbers {eventId actorId : Uuid} {number : Nat} {commits : Bool}
    (stepped : (system config).Step state ⟨.redactVersion eventId actorId number, commits⟩ next)
    {geo : Event} (member : geo ∈ next.events) :
    ∃ row ∈ state.events, row.id = geo.id ∧ geo.versionNo = row.versionNo ∧
      versionNumbers geo = versionNumbers row := by
  have kept : geo ∈ state.events → ∃ row ∈ state.events, row.id = geo.id ∧
      geo.versionNo = row.versionNo ∧ versionNumbers geo = versionNumbers row :=
    fun old => ⟨geo, old, rfl, rfl, rfl⟩
  have accepted : step config ⟨.redactVersion eventId actorId number, commits⟩ state =
    .ok next := stepped
  simp only [step, effect, bind_eq_ok, pure_eq_ok] at accepted
  rcases accepted with ⟨left, ⟨row, locking, outcome, redacting, leaving⟩, rfl⟩
  cases commits with
  | false => exact kept member
  | true =>
      cases outcome with
      | none =>
          simp only [pure_eq_ok] at leaving
          subst leaving
          exact kept member
      | some redaction =>
          simp only [pure_eq_ok] at leaving
          subst leaving
          rcases mem_put member with old | rfl
          · exact kept old
          · rcases redactVersion_ok redacting with ⟨_, _, _, rfl⟩
            refine ⟨row, (lockEvent_ok locking).1, rfl, rfl, ?_⟩
            simp only [versionNumbers, prunedProof, Events.redacted, List.map_map]
            apply List.map_congr_left
            intro version _
            simp only [Function.comp_apply]
            split <;> rfl

/-- The ledger: whatever several users do to an event after it was filed, its
version number tells drafts from published work, its filed versions are numbered
without a gap from its first number on, no number ever falls, a closed event stays
as it was closed, and a redaction moves no number. -/
theorem version_ledger {before : State} {label : Label} {filed geo : Event}
    (reachable : (system config).Reachable before)
    (filing : (system config).Step before label state) (inState : filed ∈ state.events)
    (fresh : ∀ row ∈ before.events, row.id ≠ filed.id)
    (run : (system config).Run state final) (inFinal : geo ∈ final.events)
    (sameId : geo.id = filed.id) :
    (geo.versionNo = 0 ↔ isUnpublished geo.openStatus = true) ∧
      versionNumbers geo =
        List.range' (firstNumber filed.status) (geo.versionNo - firstNumber filed.status) ∧
      (geo.versionNo = 0 → geo.versions = []) ∧
      (∀ {further : State} {later : Event}, (system config).Run final further →
        later ∈ further.events → later.id = geo.id →
          geo.versionNo ≤ later.versionNo ∧ (geo.status = .closed → Frozen geo later)) ∧
      ∀ {further : State} {later : Event} {actorId : Uuid} {number : Nat} {commits : Bool},
        (system config).Step final ⟨.redactVersion geo.id actorId number, commits⟩ further →
          later ∈ further.events → later.id = geo.id →
            later.versionNo = geo.versionNo ∧ versionNumbers later = versionNumbers geo := by
  have reachableState := reachable.step filing
  have reachableFinal := reachableState.run run
  have newborn : Newborn filed := by
    rcases step_events filing inState with ⟨row, inRows, rfl | change⟩ | born
    · exact absurd rfl (fresh _ inRows)
    · exact absurd change.id.symm (fresh row inRows)
    · exact born.newborn
  have wellFormed := newborn.wellFormed.run (log_run reachableState run inState inFinal sameId)
  have numbers : versionNumbers geo =
      List.range' (firstNumber filed.status) (geo.versionNo - firstNumber filed.status) := by
    rw [← eventLog_numbers]
    exact wellFormed.numbers
  refine ⟨wellFormed.draft.symm, numbers, ?_, ?_, ?_⟩
  · intro zero
    rw [zero, Nat.zero_sub, List.range'_zero] at numbers
    exact List.map_eq_nil_iff.mp numbers
  · intro further later further_run inFurther same
    exact ⟨(log_run reachableFinal further_run inFinal inFurther same).current_le,
      frozen_run reachableFinal further_run inFinal inFurther same⟩
  · intro further later actorId number commits redacting inFurther same
    rcases redact_numbers redacting inFurther with ⟨row, inRows, rowId, versionNo, kept⟩
    have unique := (identified_of_reachable reachableFinal).unique
    have equal := List.inj_on_of_nodup_map unique inRows inFinal (rowId.trans same)
    subst equal
    exact ⟨versionNo, kept⟩

/-- A request published and then closed: one version filed, under number zero. -/
theorem version_ledger_of_published_request :
    ∃ geo ∈ (smallState (smallSetup ++ [smallDraft] ++
      [smallPublish, .close 4 0 (str "done")])).events,
        geo.status = .closed ∧ geo.versionNo = 1 ∧ versionNumbers geo = [0] := by
  have drafted : (runSmall (smallSetup ++ [smallDraft])).isOk = true := by decide +kernel
  have closed : (runSmall (smallSetup ++ [smallDraft] ++
      [smallPublish, .close 4 0 (str "done")])).isOk = true := by decide +kernel
  have ledger := version_ledger (smallState_reachable (by decide +kernel))
    (smallState_step smallDraft drafted) (firstEvent_mem _ (by decide +kernel))
    (by decide +kernel) (smallState_run _ closed) (firstEvent_mem _ (by decide +kernel))
    (by decide +kernel)
  exact ⟨_, firstEvent_mem _ (by decide +kernel), by decide +kernel, by decide +kernel,
    ledger.2.1⟩

/-! ### The history is complete -/

theorem mem_eventLog_rows {geo : Event} {number : Nat} {content : Option Snapshot} :
    (number, content) ∈ (eventLog geo).rows ↔
      ∃ version ∈ geo.versions, version.versionNo = number ∧ version.snapshot = content := by
  simp [eventLog]

/-- A snapshot filed during a run was built from the event as it was live then. -/
theorem snapshot_origin (reachable : (system config).Reachable state)
    (run : (system config).Run state final) {first last : Event} (inState : first ∈ state.events)
    (inFinal : last ∈ final.events) (sameId : last.id = first.id) {number : Nat}
    {content : Snapshot} (filed : (number, some content) ∈ (eventLog last).rows) :
    (number, some content) ∈ (eventLog first).rows ∨
      ∃ (middle : State) (live : Event), (system config).Run state middle ∧
        (system config).Run middle final ∧ live ∈ middle.events ∧ live.id = first.id ∧
        live.versionNo = number ∧ buildSnapshot live = content := by
  induction run generalizing last with
  | refl =>
      have unique := (identified_of_reachable reachable).unique
      rw [List.inj_on_of_nodup_map unique inFinal inState sameId] at filed
      exact .inl filed
  | @tail middle final earlier stepped inductionHypothesis =>
      have reachableMiddle := reachable.run earlier
      have extend : ∀ {row : Event}, row ∈ middle.events → row.id = first.id →
          (number, some content) ∈ (eventLog row).rows →
          (number, some content) ∈ (eventLog first).rows ∨
            ∃ (middle : State) (live : Event), (system config).Run state middle ∧
              (system config).Run middle final ∧ live ∈ middle.events ∧ live.id = first.id ∧
              live.versionNo = number ∧ buildSnapshot live = content := by
        intro row inRows rowId old
        rcases inductionHypothesis inRows rowId old with
          before | ⟨source, live, reached, since, holds⟩
        · exact .inl before
        · exact .inr ⟨source, live, reached, since.tail stepped, holds⟩
      have stepLabel := stepped
      rcases stepLabel with ⟨label, accepted⟩
      rcases step_events accepted inFinal with ⟨row, inRows, rfl | change⟩ | born
      · exact extend inRows sameId filed
      · have rowId := change.id.symm.trans sameId
        have step := change.log_step (phased_of_reachable reachableMiddle inRows)
          (media_of_reachable reachableMiddle inRows)
        rcases step.row_origin filed with old | ⟨rfl, rfl⟩
        · exact extend inRows rowId old
        · exact .inr ⟨middle, row, earlier, .single stepped, inRows, rowId, rfl, rfl⟩
      · rw [mem_eventLog_rows, born.newborn.versions] at filed
        simp at filed

/-- The number of a filed version names one version. -/
theorem version?_of_mem {geo : Event} {version : EventVersion}
    (unique : (versionNumbers geo).Nodup) (member : version ∈ geo.versions) :
    geo.version? version.versionNo = some version := by
  unfold Event.version?
  cases found : geo.versions.find? fun other => other.versionNo = version.versionNo with
  | none =>
      have absent := List.find?_eq_none.mp found version member
      simp at absent
  | some other =>
      have same : other.versionNo = version.versionNo := by simpa using List.find?_some found
      rw [List.inj_on_of_nodup_map unique (List.mem_of_find?_eq_some found) member same]

theorem wellFormed_of_reachable (reachable : (system config).Reachable state) {geo : Event}
    (member : geo ∈ state.events) : ∃ first ≤ 1, (eventLog geo).WellFormed first := by
  refine event_invariant (fun geo => ∃ first ≤ 1, (eventLog geo).WellFormed first) ?_ ?_
    reachable member
  · intro _ geo _ born
    refine ⟨firstNumber geo.status, ?_, born.newborn.wellFormed⟩
    unfold firstNumber
    split <;> simp
  · rintro _ _ _ _ reachable inRows ⟨first, small, wellFormed⟩ change
    exact ⟨first, small, wellFormed.step (change.log_step (phased_of_reachable reachable inRows)
      (media_of_reachable reachable inRows))⟩

theorem versionNumbers_nodup (reachable : (system config).Reachable state) {geo : Event}
    (member : geo ∈ state.events) : (versionNumbers geo).Nodup := by
  rcases wellFormed_of_reachable reachable member with ⟨first, _, wellFormed⟩
  rw [← eventLog_numbers, wellFormed.numbers]
  exact List.nodup_range'

/-- A filed version is older than the live one. -/
theorem version_lt_current (reachable : (system config).Reachable state) {geo : Event}
    (member : geo ∈ state.events) :
    ∀ version ∈ geo.versions, version.versionNo < geo.versionNo := by
  intro version filed
  rcases wellFormed_of_reachable reachable member with ⟨first, _, wellFormed⟩
  have listed : version.versionNo ∈ versionNumbers geo := List.mem_map_of_mem filed
  rw [← eventLog_numbers, wellFormed.numbers, List.mem_range'_1] at listed
  have reached : first ≤ geo.versionNo := wellFormed.reached
  simp only [eventLog] at listed
  omega

end Vidit.World
