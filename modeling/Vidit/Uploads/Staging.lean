import Mathlib.Logic.Function.Basic
import Vidit.Uploads.Taking

/-!
Contract: the ceiling on the staged uploads of one account, under concurrency.

A staging counts the account's unexpired rows in one statement and inserts its own
in another, after a file has been fetched and stored; event writes take rows and
the reaper deletes expired ones in between.

Owns:
- `_ensure_room`, `_record` and the order of steps of `stage_upload`,
  `stage_from_link` and `stage_from_proof`;
- `take_uploads` with the delete of the write that took the rows, and
  `reap_expired_uploads`;
- `StaysWithin`, the ceiling, and `RoomStands`, when a staging may record.

Does not own: what is fetched, validated and stored, of which only the stored
files reach the rows; the objects (`Vidit.Uploads.Taking`).

Proof shape: what an account has recorded since a request counted bounds how far
its unexpired rows can have risen, since taking, reaping and time only lower them.
-/

namespace Vidit.Uploads

open Vidit.Python Vidit.Accounts Vidit.Evidence Vidit.Events Vidit.Library

/-- The three calls that stage files. -/
inductive StagingCall where
  /-- `stage_upload` of a file that stores as `count` files. -/
  | upload (count : Nat)
  | link
  | proof
deriving DecidableEq, Repr

/-- How many files the call asks room for. -/
def StagingCall.needed : StagingCall → Nat
  | .upload count => count
  | .link | .proof => 1

/-- A file `_record` was given. -/
structure StagedFile where
  storageKey : Str
  sha256 : Str
  originalFilename : Option Str
deriving DecidableEq, Repr

/-- A staging that has counted: what it found, and what its account had recorded by then. -/
structure Counted where
  uploaderId : Uuid
  now : Instant
  needed : Nat
  pending : Nat
  recordedThen : Nat
deriving DecidableEq, Repr

/-- Where a request stands. -/
inductive StageProcess where
  | idle
  /-- `TooManyUploadsError`, with the rows it counted. -/
  | tooMany (pending : Nat)
  | begun (uploaderId : Uuid) (now : Instant) (needed : Nat)
  | counted (count : Counted)
  | stored (count : Counted) (kind : MediaKind) (files : List StagedFile)
  | raised (refusal : UploadError)
  /-- An event write that has locked its uploads. -/
  | taking (uploadIds : List Uuid)
deriving DecidableEq, Repr

namespace StageProcess

/-- The request has returned or raised. -/
def ended : StageProcess → Bool
  | .idle | .tooMany _ | .raised _ => true
  | _ => false

/-- The count a staging relies on. -/
def counted? : StageProcess → Option Counted
  | .counted count | .stored count _ _ => some count
  | _ => none

end StageProcess

structure StagingState where
  now : Instant
  rows : List Upload
  /-- The event write whose transaction holds a row. -/
  lockedBy : Uuid → Option Nat
  processes : Nat → StageProcess
  /-- How many rows each account has recorded so far. -/
  recorded : Uuid → Nat

inductive StagingLabel where
  | tick (later : Instant)
  | stage (process : Nat) (uploaderId : Uuid) (call : StagingCall)
  | count (process : Nat)
  | store (process : Nat) (kind : MediaKind) (files : List StagedFile)
  | record (process : Nat) (ids : List Uuid)
  | take (process : Nat) (uploaderId : Uuid) (uploadIds : List Uuid)
  | commitTake (process : Nat)
  /-- The request raises, and its transaction is rolled back. -/
  | fail (process : Nat)
  | reap
deriving DecidableEq, Repr

/-- Why a step is not possible. -/
inductive StagingBlocked where
  | clockRunsForward
  | busy
  | elsewhere
  | notStored
  | notFresh
  | rowLocked
deriving DecidableEq, Repr

namespace StagingState

def setProcess (state : StagingState) (process : Nat) (next : StageProcess) : StagingState :=
  { state with processes := Function.update state.processes process next }

/-- The transaction of a process ends. -/
def unlock (state : StagingState) (process : Nat) : StagingState :=
  { state with
    lockedBy := fun id => if state.lockedBy id = some process then none else state.lockedBy id }

/-- The unexpired rows of an account. -/
def pending (state : StagingState) (uploaderId : Uuid) (now : Instant) : Nat :=
  state.rows.countP fun upload => upload.uploaderId = uploaderId && now < upload.expiresAt

/-- `_ensure_room`. -/
def ensureRoom (state : StagingState) (process : Nat) (uploaderId : Uuid) (now : Instant)
    (needed : Nat) : StagingState :=
  let pending := state.pending uploaderId now
  if maxPendingUploadsPerUser < pending + needed then
    state.setProcess process (.tooMany pending)
  else
    state.setProcess process
      (.counted { uploaderId, now, needed, pending, recordedThen := state.recorded uploaderId })

/-- The rows `_record` adds. -/
def stagedRows (count : Counted) (kind : MediaKind) (files : List StagedFile)
    (ids : List Uuid) : List Upload :=
  (ids.zip files).map fun (id, file) =>
    { id
      uploaderId := count.uploaderId
      storageKey := file.storageKey
      kind
      sha256 := file.sha256
      originalFilename := file.originalFilename
      expiresAt := count.now + uploadTtl }

/-- The commit of `_record`. -/
def record (state : StagingState) (process : Nat) (count : Counted) (kind : MediaKind)
    (files : List StagedFile) (ids : List Uuid) : StagingState :=
  let rows := stagedRows count kind files ids
  { state.setProcess process .idle with
    rows := state.rows ++ rows
    recorded := Function.update state.recorded count.uploaderId
      (state.recorded count.uploaderId + rows.length) }

/-- The rows `take_uploads` locks. -/
def matched (state : StagingState) (uploaderId : Uuid) (uploadIds : List Uuid) : List Upload :=
  state.rows.filter fun upload => upload.id ∈ uploadIds && upload.uploaderId = uploaderId

/-- `take_uploads`. -/
def take (state : StagingState) (process : Nat) (uploaderId : Uuid) (uploadIds : List Uuid) :
    Except StagingBlocked StagingState :=
  let rows := state.matched uploaderId uploadIds
  if ∃ upload ∈ rows, state.lockedBy upload.id ≠ none then .error .rowLocked
  else if ∃ id ∈ uploadIds, id ∉ rows.map Upload.id then
    .ok (state.setProcess process (.raised .uploadNotFound))
  else if ∃ upload ∈ rows, upload.expiresAt ≤ state.now then
    .ok (state.setProcess process (.raised .uploadExpired))
  else
    .ok { state.setProcess process (.taking uploadIds) with
          lockedBy := fun id => if id ∈ uploadIds then some process else state.lockedBy id }

/-- The commit of the event write that took the rows. -/
def commitTake (state : StagingState) (process : Nat) (uploadIds : List Uuid) : StagingState :=
  { (state.setProcess process .idle).unlock process with
    rows := state.rows.filter fun upload => upload.id ∉ uploadIds }

/-- The DELETE of `reap_expired_uploads`, which waits for the rows that are locked. -/
def reap (state : StagingState) : Except StagingBlocked StagingState :=
  if ∃ upload ∈ state.rows, upload.expiresAt ≤ state.now ∧ state.lockedBy upload.id ≠ none then
    .error .rowLocked
  else .ok { state with rows := state.rows.filter fun upload => state.now < upload.expiresAt }

/-- One step: time passes, a request runs its next statement, or the reaper passes. -/
def step : StagingLabel → StagingState → Except StagingBlocked StagingState
  | .tick later, state =>
    if later < state.now then .error .clockRunsForward else .ok { state with now := later }
  | .stage process uploaderId call, state =>
    if (state.processes process).ended then
      .ok (state.setProcess process (.begun uploaderId state.now call.needed))
    else .error .busy
  | .count process, state =>
    match state.processes process with
    | .begun uploaderId now needed => .ok (state.ensureRoom process uploaderId now needed)
    | _ => .error .elsewhere
  | .store process kind files, state =>
    match state.processes process with
    | .counted count =>
      if files.length = count.needed then .ok (state.setProcess process (.stored count kind files))
      else .error .notStored
    | _ => .error .elsewhere
  | .record process ids, state =>
    match state.processes process with
    | .stored count kind files =>
      if ids.length = files.length ∧ ids.Nodup ∧ ∀ upload ∈ state.rows, upload.id ∉ ids then
        .ok (state.record process count kind files ids)
      else .error .notFresh
    | _ => .error .elsewhere
  | .take process uploaderId uploadIds, state =>
    if (state.processes process).ended then state.take process uploaderId uploadIds
    else .error .busy
  | .commitTake process, state =>
    match state.processes process with
    | .taking uploadIds => .ok (state.commitTake process uploadIds)
    | _ => .error .elsewhere
  | .fail process, state => .ok ((state.setProcess process .idle).unlock process)
  | .reap, state => state.reap

/-- Nothing is staged and no request runs. -/
structure Initial (state : StagingState) : Prop where
  rows : state.rows = []
  lockedBy : ∀ id, state.lockedBy id = none
  processes : ∀ process, state.processes process = .idle

end StagingState

/-- Every interleaving of the stagings, the event writes and the reaper. -/
def stagingSystem : System StagingState StagingLabel :=
  System.ofStep StagingState.Initial StagingState.step

/-- No account ever has more unexpired rows than the ceiling. -/
def StaysWithin (system : System StagingState StagingLabel) : Prop :=
  ∀ ⦃state⦄, system.Reachable state → ∀ uploaderId,
    state.pending uploaderId state.now ≤ maxPendingUploadsPerUser

/-- A request records its files while what its account's other requests have recorded since
its count still fits beside the rows it counted. -/
def RoomStands (state : StagingState) : StagingLabel → Prop
  | .record process _ => ∀ count kind files, state.processes process = .stored count kind files →
      count.pending + (state.recorded count.uploaderId - count.recordedThen) + count.needed ≤
        maxPendingUploadsPerUser
  | _ => True

namespace StagingState

variable {state next : StagingState} {label : StagingLabel}

/-! ### Counting unexpired rows -/

theorem pending_antitone (state : StagingState) (uploaderId : Uuid) {now later : Instant} (forward : now ≤ later) :
    state.pending uploaderId later ≤ state.pending uploaderId now := by
  unfold pending
  refine List.countP_mono_left ?_
  intro upload _ unexpired
  rw [Bool.and_eq_true, decide_eq_true_eq, decide_eq_true_eq] at unexpired ⊢
  exact ⟨unexpired.1, lt_of_le_of_lt forward unexpired.2⟩

theorem pending_le_of_sublist (rows : next.rows.Sublist state.rows) (uploaderId : Uuid)
    (now : Instant) : next.pending uploaderId now ≤ state.pending uploaderId now :=
  rows.countP_le

theorem length_stagedRows {count : Counted} {kind : MediaKind} {files : List StagedFile}
    {ids : List Uuid} (paired : ids.length = files.length) :
    (stagedRows count kind files ids).length = files.length := by
  unfold stagedRows
  rw [List.length_map, List.length_zip, paired, Nat.min_self]

/-- A recording raises the count of its own account by at most its rows. -/
theorem pending_record (state : StagingState) (process : Nat) (count : Counted) (kind : MediaKind)
    (files : List StagedFile) (ids : List Uuid) (uploaderId : Uuid) (now : Instant) :
    (state.record process count kind files ids).pending uploaderId now +
        state.recorded uploaderId ≤
      state.pending uploaderId now +
        (state.record process count kind files ids).recorded uploaderId := by
  unfold pending record
  simp only [List.countP_append]
  by_cases same : uploaderId = count.uploaderId
  · subst same
    rw [Function.update_self]
    have atMost := List.countP_le_length (l := stagedRows count kind files ids)
      (p := fun upload => decide (upload.uploaderId = count.uploaderId) &&
        decide (now < upload.expiresAt))
    omega
  · rw [Function.update_of_ne same]
    have others : (stagedRows count kind files ids).countP (fun upload =>
        decide (upload.uploaderId = uploaderId) && decide (now < upload.expiresAt)) = 0 := by
      rw [List.countP_eq_zero]
      intro upload member
      unfold stagedRows at member
      rw [List.mem_map] at member
      rcases member with ⟨pair, _, rfl⟩
      rw [Bool.and_eq_true, decide_eq_true_eq]
      intro both
      exact same both.1.symm
    omega

/-! ### What a request's count is worth -/

/-- What a request relies on. -/
def Upholds (state : StagingState) : StageProcess → Prop
  | .begun _ now _ => now ≤ state.now
  | .counted count =>
    state.pending count.uploaderId state.now + count.recordedThen ≤
      count.pending + state.recorded count.uploaderId
  | .stored count _ files => files.length = count.needed ∧
    state.pending count.uploaderId state.now + count.recordedThen ≤
      count.pending + state.recorded count.uploaderId
  | _ => True

/-- The invariant of every run. -/
def Sound (state : StagingState) : Prop :=
  ∀ process, state.Upholds (state.processes process)

/-- Unexpired rows rise by no more than what is recorded. -/
structure Follows (state next : StagingState) : Prop where
  forward : state.now ≤ next.now
  rises : ∀ uploaderId, next.pending uploaderId next.now + state.recorded uploaderId ≤
    state.pending uploaderId state.now + next.recorded uploaderId

theorem Follows.upheld (follows : Follows state next) {process : StageProcess}
    (upheld : state.Upholds process) : next.Upholds process := by
  cases process with
  | begun uploaderId now needed => exact le_trans upheld follows.forward
  | counted count =>
      have rises := follows.rises count.uploaderId
      have before : state.pending count.uploaderId state.now + count.recordedThen ≤
        count.pending + state.recorded count.uploaderId := upheld
      show next.pending count.uploaderId next.now + count.recordedThen ≤
        count.pending + next.recorded count.uploaderId
      omega
  | stored count kind files =>
      have rises := follows.rises count.uploaderId
      have before : state.pending count.uploaderId state.now + count.recordedThen ≤
        count.pending + state.recorded count.uploaderId := upheld.2
      refine ⟨upheld.1, ?_⟩
      show next.pending count.uploaderId next.now + count.recordedThen ≤
        count.pending + next.recorded count.uploaderId
      omega
  | _ => trivial

/-- A step that removes rows only. -/
theorem follows_of_sublist (forward : state.now ≤ next.now) (rows : next.rows.Sublist state.rows)
    (recorded : next.recorded = state.recorded) : Follows state next where
  forward := forward
  rises uploaderId := by
    have fewer := pending_le_of_sublist rows uploaderId next.now
    have older := pending_antitone state uploaderId forward
    rw [recorded]
    omega

/-- All that one step can do: rows go, or a request records its files. -/
inductive Effect (state : StagingState) (label : StagingLabel) (next : StagingState) : Prop where
  | lowers (forward : state.now ≤ next.now) (rows : next.rows.Sublist state.rows)
      (recorded : next.recorded = state.recorded)
      (processes : ∀ process, next.processes process = state.processes process ∨
        next.Upholds (next.processes process))
  | records (process : Nat) (count : Counted) (kind : MediaKind) (files : List StagedFile)
      (ids : List Uuid) (isRecord : label = .record process ids)
      (here : state.processes process = .stored count kind files)
      (paired : ids.length = files.length) (result : next = state.record process count kind files ids)

/-- A request moves on, and rows may go. -/
private theorem lowers_of_moved {process : Nat} (after : StageProcess)
    (now : next.now = state.now) (rows : next.rows.Sublist state.rows)
    (recorded : next.recorded = state.recorded)
    (processes : next.processes = Function.update state.processes process after)
    (upheld : next.Upholds after) : Effect state label next := by
  refine .lowers (le_of_eq now.symm) rows recorded ?_
  intro other
  rw [processes]
  by_cases same : other = process
  · subst same
    rw [Function.update_self]
    exact .inr upheld
  · rw [Function.update_of_ne same]
    exact .inl rfl

theorem effect_of_take {process : Nat} {uploaderId : Uuid} {uploadIds : List Uuid}
    (stepped : state.take process uploaderId uploadIds = .ok next) : Effect state label next := by
  unfold take at stepped
  dsimp only at stepped
  split at stepped
  · contradiction
  · split at stepped
    · cases stepped
      exact lowers_of_moved _ rfl (.refl _) rfl rfl trivial
    · split at stepped
      · cases stepped
        exact lowers_of_moved _ rfl (.refl _) rfl rfl trivial
      · cases stepped
        exact lowers_of_moved _ rfl (.refl _) rfl rfl trivial

theorem Sound.effect (sound : Sound state) (stepped : step label state = .ok next) :
    Effect state label next := by
  cases label with
  | tick later =>
      simp only [step] at stepped
      split at stepped
      · contradiction
      · rename_i forward
        cases stepped
        exact .lowers (not_lt.mp forward) (.refl _) rfl (fun _ => .inl rfl)
  | stage process uploaderId call =>
      simp only [step] at stepped
      split at stepped
      · cases stepped
        exact lowers_of_moved (.begun uploaderId state.now call.needed) rfl (.refl _) rfl
          rfl (le_refl state.now)
      · contradiction
  | count process =>
      simp only [step] at stepped
      split at stepped
      · rename_i uploaderId now needed here
        cases stepped
        have past := sound process
        rw [here] at past
        unfold ensureRoom
        dsimp only
        split
        · exact lowers_of_moved _ rfl (.refl _) rfl rfl trivial
        · refine lowers_of_moved _ rfl (.refl _) rfl rfl ?_
          exact Nat.add_le_add_right (pending_antitone state uploaderId past) (state.recorded uploaderId)
      · contradiction
  | store process kind files =>
      simp only [step] at stepped
      split at stepped
      · rename_i count here
        split at stepped
        · rename_i whole
          cases stepped
          have upheld := sound process
          rw [here] at upheld
          exact lowers_of_moved (.stored count kind files) rfl (.refl _) rfl rfl
            ⟨whole, upheld⟩
        · contradiction
      · contradiction
  | record process ids =>
      simp only [step] at stepped
      split at stepped
      · rename_i count kind files here
        split at stepped
        · rename_i fits
          cases stepped
          exact .records process count kind files ids rfl here fits.1 rfl
        · contradiction
      · contradiction
  | take process uploaderId uploadIds =>
      simp only [step] at stepped
      split at stepped
      · exact effect_of_take stepped
      · contradiction
  | commitTake process =>
      simp only [step] at stepped
      split at stepped
      · cases stepped
        exact lowers_of_moved .idle rfl List.filter_sublist rfl rfl trivial
      · contradiction
  | fail process =>
      simp only [step] at stepped
      cases stepped
      exact lowers_of_moved .idle rfl (.refl _) rfl rfl trivial
  | reap =>
      simp only [step, reap] at stepped
      split at stepped
      · contradiction
      · cases stepped
        exact .lowers (le_refl _) List.filter_sublist rfl (fun _ => .inl rfl)

theorem Initial.sound (initial : state.Initial) : Sound state := by
  intro process
  rw [initial.processes]
  trivial

theorem follows_record (process : Nat) (count : Counted) (kind : MediaKind)
    (files : List StagedFile) (ids : List Uuid) :
    Follows state (state.record process count kind files ids) where
  forward := le_refl _
  rises uploaderId := pending_record state process count kind files ids uploaderId state.now

theorem Sound.step (sound : Sound state) (stepped : step label state = .ok next) :
    Sound next := by
  intro other
  cases sound.effect stepped with
  | lowers forward rows recorded processes =>
      rcases processes other with same | upheld
      · rw [same]
        exact (follows_of_sublist forward rows recorded).upheld (sound other)
      · exact upheld
  | records process count kind files ids isRecord here paired result =>
      have follows : Follows state next := result ▸ follows_record process count kind files ids
      have processes : next.processes = Function.update state.processes process .idle := by
        rw [result]
        rfl
      rw [processes]
      by_cases same : other = process
      · subst same
        rw [Function.update_self]
        trivial
      · rw [Function.update_of_ne same]
        exact follows.upheld (sound other)

/-! ### The ceiling -/

/-- The invariant of the runs in which every recording still finds its room. -/
structure Within (state : StagingState) : Prop where
  sound : Sound state
  within : ∀ uploaderId, state.pending uploaderId state.now ≤ maxPendingUploadsPerUser

theorem Initial.within (initial : state.Initial) : Within state where
  sound := initial.sound
  within uploaderId := by
    unfold pending
    rw [initial.rows, List.countP_nil]
    exact Nat.zero_le _

theorem Within.step (within : Within state) (stands : RoomStands state label)
    (stepped : step label state = .ok next) : Within next := by
  refine ⟨within.sound.step stepped, ?_⟩
  intro uploaderId
  have before := within.within uploaderId
  cases within.sound.effect stepped with
  | lowers forward rows recorded processes =>
      have rises := (follows_of_sublist forward rows recorded).rises uploaderId
      rw [recorded] at rises
      omega
  | records process count kind files ids isRecord here paired result =>
      subst isRecord result
      have room := stands count kind files here
      have upheld := within.sound process
      rw [here] at upheld
      rcases upheld with ⟨whole, counted⟩
      have rises := pending_record state process count kind files ids uploaderId state.now
      have recorded : (state.record process count kind files ids).recorded =
          Function.update state.recorded count.uploaderId
            (state.recorded count.uploaderId + files.length) := by
        unfold record
        dsimp only
        rw [length_stagedRows paired]
      rw [recorded] at rises
      show (state.record process count kind files ids).pending uploaderId state.now ≤ _
      by_cases same : uploaderId = count.uploaderId
      · subst same
        rw [Function.update_self] at rises
        omega
      · rw [Function.update_of_ne same] at rises
        omega

end StagingState

open StagingState

/-- In every run whose recordings still find their room, no account passes the ceiling. -/
theorem staysWithin_of_roomStands {start : StagingState} (initial : start.Initial) :
    StaysWithin ((stagingSystem.restrict RoomStands).startingAt start) := by
  intro state started uploaderId
  have reachable : (stagingSystem.restrict RoomStands).Reachable state :=
    started.of_startingAt initial
  have holds : Within state := by
    refine System.Reachable.invariant Initial.within ?_ reachable
    rintro before label after within ⟨stands, stepped⟩
    exact within.step stands stepped
  exact holds.within uploaderId

/-! ### Requests that count before any of them records -/

namespace Crowd

def start : StagingState where
  now := 0
  rows := []
  lockedBy := fun _ => none
  processes := fun _ => .idle
  recorded := fun _ => 0

theorem start_initial : start.Initial :=
  ⟨rfl, fun _ => rfl, fun _ => rfl⟩

theorem staysWithin_start :
    StaysWithin ((stagingSystem.restrict RoomStands).startingAt start) :=
  staysWithin_of_roomStands start_initial

def frame : StagedFile where
  storageKey := str "uploads/f.png"
  sha256 := str "d"
  originalFilename := none

/-- The requests that upload a GIF of six frames each. -/
def requests : List Nat :=
  [0, 1, 2, 3]

def uploader : Uuid := 7

/-- Four uploads count, store and only then record. -/
def crowd : List StagingLabel :=
  (requests.flatMap fun request => [.stage request uploader (.upload 6), .count request]) ++
    (requests.flatMap fun request =>
      [.store request .image (List.replicate 6 frame),
        .record request (List.range' (100 + 6 * request) 6)])

theorem crowd_runs : ∃ final, System.runLabels step crowd start = .ok final ∧
    final.pending uploader final.now = 24 :=
  ⟨_, rfl, by decide⟩

/-- The claim fails: four uploads of one account each find room. -/
theorem staysWithin_fails : ¬ StaysWithin stagingSystem := by
  intro stays
  rcases crowd_runs with ⟨final, computed, count⟩
  have within := stays ⟨start, start_initial, System.Run.of_runLabels computed⟩ uploader
  rw [count] at within
  exact absurd within (by decide)

end Crowd

end Vidit.Uploads
