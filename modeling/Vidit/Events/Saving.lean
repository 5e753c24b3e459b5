import Vidit.Events.Verbs
import Vidit.Library.Attempt

/-!
Contract: `save_version` as one session runs it, a call to the database or the store at a time.

Owns:
- the session: the rows as committed, the rows it has written since, the keys it put in the
  store, and the keys it handed to the sweep;
- `save_version` up to its commit, where every call outside may fail;
- what a run that raises leaves, and that a run that returns is the write of `saveVersion`.

Does not own: the sweep of the dropped files after the commit, a rollback that fails, a put that
raises after the store took the object, a task that is cancelled.

Proof shape: `Clean` holds until the first put, `Tracks` inside the `try`, `Swept` after its
`except`; each part of the write gets one `Meets` lemma over them.
-/

namespace Vidit.Events

open Vidit.Python Vidit.Accounts Vidit.Evidence Vidit.Library

/-! ### The session -/

/-- The rows `save_version` writes. -/
structure Rows where
  event : Event
  uploads : List Upload
deriving DecidableEq, Repr

/-- The rows with more proof images. -/
def Rows.addMedia (rows : Rows) (media : List Media) : Rows :=
  { rows with event := { rows.event with media := rows.event.media ++ media } }

theorem Rows.addMedia_addMedia (rows : Rows) (first second : List Media) :
    (rows.addMedia first).addMedia second = rows.addMedia (first ++ second) := by
  simp [Rows.addMedia]

structure Session where
  /-- What every other session reads. -/
  committed : Rows
  /-- What this session reads: its own writes included. -/
  pending : Rows
  /-- The keys it put in the store. -/
  put : List Str
  /-- `uploaded_keys`. -/
  uploadedKeys : List Str
  /-- The keys it handed to `sweep_keys`. -/
  handed : List Str
  /-- How many calls outside it made. -/
  calls : Nat

/-- `save_version` starts a session on the stored rows. -/
def Session.opened (rows : Rows) : Session where
  committed := rows
  pending := rows
  put := []
  uploadedKeys := []
  handed := []
  calls := 0

/-- `get_db` closes the session, which rolls back what is not committed. -/
def Session.closed (session : Session) : Session :=
  { session with pending := session.committed }

/-- Why a write raises. -/
inductive Failure where
  | refused (error : EventError)
  /-- The database or the store failed. -/
  | outside
deriving DecidableEq, Repr

abbrev Saving := Attempt Session Failure

namespace Saving

/-- What a rule of the write answers. -/
def check {α : Type} (answer : Except EventError α) : Saving α :=
  Attempt.ask fun _ => answer.mapError .refused

def currentEvent : Saving Event :=
  Attempt.ask fun session => .ok session.pending.event

def write (geo : Event) : Saving Unit :=
  Attempt.modify fun session => { session with pending := { session.pending with event := geo } }

def sweepKeys (keys : List Str) : Saving Unit :=
  Attempt.modify fun session => { session with handed := session.handed ++ keys }

/-- `db.rollback()`, then the sweep of `uploaded_keys`. -/
def rollBack : Saving Unit :=
  Attempt.modify fun session => { session with
    pending := session.committed
    handed := session.handed ++ session.uploadedKeys }

section Calls

variable (faults : Nat → Bool)

/-- A query or a flush. -/
def callDatabase : Saving Unit := fun session =>
  (if faults session.calls then .error .outside else .ok (),
    { session with calls := session.calls + 1 })

/-- `upload_bytes`: a put that fails stores nothing. -/
def putObject (key : Str) : Saving Unit := fun session =>
  if faults session.calls then (.error .outside, { session with calls := session.calls + 1 })
  else (.ok (), { session with calls := session.calls + 1, put := session.put ++ [key] })

/-- `db.commit()`. -/
def commit : Saving Unit := do
  callDatabase faults
  Attempt.modify fun session => { session with committed := session.pending }

/-- The puts of a picked file; a failed frame sweeps the frames `stored` before it. -/
def putFrames (stored : List Str) : List Str → Saving Unit
  | [] => pure ()
  | key :: rest => do
    Attempt.onRaise (fun _ => true) (putObject faults key) (sweepKeys stored)
    putFrames (stored ++ [key]) rest

end Calls

/-! ### The proof images -/

/-- The keys `upload_proof_image` mints for the stored files of one picked file. -/
def frameKeys (config : Config) (tx : Transaction) (userId : Uuid) (file : UploadFile)
    (first count : Nat) : List Str :=
  (List.range count).map fun index =>
    proofImageKey config.uuids userId (tx.uuid (first + 2 * index + 1)) file.storedType

section Uploads

variable (config : Config) (tx : Transaction) (faults : Nat → Bool)

/-- `upload_proof_image`: the rows of its results. -/
def uploadProofImage (userId : Uuid) (first : Nat) (file : UploadFile) : Saving (List Media) := do
  let digests ← check (file.digests.mapError .evidenceProcessingFailed)
  putFrames faults [] (frameKeys config tx userId file first digests.length)
  pure (storedImages config tx userId file first digests)

/-- The rows of one file join the session, their keys `uploaded_keys`. -/
def addMedia (rows : List Media) : Saving Unit :=
  Attempt.modify fun session => { session with
    pending := session.pending.addMedia rows
    uploadedKeys := session.uploadedKeys ++
      rows.filterMap fun media => config.storage.keyFromUrl media.storageUrl }

/-- The upload loop of `attach_evidence_and_commit`. -/
def uploadPairs (userId : Uuid) : Nat → List (Str × UploadFile) →
    Saving (List (Str × List Media))
  | _, [] => pure []
  | first, (placeholder, file) :: rest => do
    let rows ← uploadProofImage config tx faults userId first file
    addMedia config rows
    let later ← uploadPairs userId (first + 2 * rows.length) rest
    pure ((placeholder, rows) :: later)

end Uploads

end Saving

/-! ### The write -/

/-- What `attach_evidence_and_commit` finds before it stores anything: the pairs to upload, and
the srcs whose rows stay. -/
def checkEvidence (config : Config) (geo : Event) (proofHtml : Option Body)
    (proofFiles : List UploadFile) : Except EventError (List (Str × UploadFile) × List Str) := do
  let maximum := config.settings.maxProofImagesPerEvent
  require (proofFiles.length ≤ maximum) (.tooManyProofFiles maximum proofFiles.length)
  let _ ← proofFiles.mapM (validateProofFile config.settings)
  let pairs ← matchProofFiles proofHtml proofFiles
  let counts ← proofFiles.mapM storedFileCount
  let displayedSrcs := displayedProofSrcs (proofHtml.getD geo.proof)
  let foreign := foreignSrcs config.storage geo displayedSrcs
  require (foreign = []) (.invalidFile (.foreignSrcs foreign))
  let displayedRows := (geo.media.filter fun media => media.storageUrl ∈ displayedSrcs).length
  require (displayedRows + counts.sum ≤ maximum)
    (.tooManyProofImages maximum (displayedRows + counts.sum) displayedRows counts.sum)
  pure (pairs, displayedSrcs ++ historyPinnedSrcs geo)

/-- The rows `_drop_unreferenced_proof_media` leaves. -/
def keptProofMedia (geo : Event) (keptSrcs : List Str) : Event :=
  { geo with media := geo.media.filter fun media => media.storageUrl ∈ keptSrcs }

/-- What `save_version` finds before it writes anything. -/
structure CheckedSave where
  proofData : Option Body
  planned : List PlannedSource
  fieldsMove : Bool

/-- The rules `save_version` checks on the row it locked. -/
def checkSave (config : Config) (tx : Transaction) (geo : Event) (currentUser : User)
    (form : EventForm) (lat lng : Rat) (expectedVersion : Option Nat)
    (geolocatorInvites : List Str) : Except EventError CheckedSave := do
  require (geo.status ≠ .closed) (.eventState .notWritable)
  require (∀ expected ∈ expectedVersion, expected = geo.versionNo)
    (.versionMismatch geo.versionNo)
  let publishing := isUnpublished geo.status
  require (geolocatorInvites = [] ∨ publishing = true) (.eventState .invitesAfterPublish)
  ensureMayEdit geo currentUser
  validateCoordinates lat lng
  let proofData ← sanitizeProof config form.proofData
  requireProofImage (some (proofData.getD geo.proof))
  requireConflict (resolveConflicts tx form.conflictIds)
  let planned ← planSources config tx (some geo) form.sources currentUser
  checkPublishFloor (plannedFloor planned)
  let proposed := proposedOf tx geo form lat lng proofData
  let fieldsMove := publishing || !matchesCurrent config.uuids.text (buildSnapshot geo) proposed ||
    sourcesMove config false geo planned
  require (fieldsMove = true ∨ sourcesMove config true geo planned = true)
    (.nothingChanged geo.versionNo)
  pure ⟨proofData, planned, fieldsMove⟩

/-- The stored sources after the first pass of `apply_sources`: the ones left out are gone, and
so are the links and the replaced files of the others. -/
def detachedSources (stored : List Source) (planned : List PlannedSource) : List Source :=
  let kept := planned.filterMap fun plan => plan.stored.map Source.id
  (stored.filter fun source => source.id ∈ kept).map fun source => { source with
    links := []
    media := if losesMedia planned source then none else source.media }

namespace Saving

section Write

variable (config : Config) (tx : Transaction) (faults : Nat → Bool)

/-- `apply_sources`, with its two flushes. -/
def applySources (planned : List PlannedSource) : Saving (List StoredObject) := do
  let geo ← currentEvent
  write { geo with sources := detachedSources geo.sources planned }
  callDatabase faults
  let applied ← check (Events.applySources config tx geo.sources planned)
  Attempt.modify fun session => { session with pending := {
    event := { geo with sources := applied.sources }
    uploads := session.pending.uploads.filter fun upload => upload.id ∉ applied.taken } }
  callDatabase faults
  pure applied.removed

/-- The `try` of `attach_evidence_and_commit`. -/
def uploadAndCommit (userId : Uuid) (proofHtml : Option Body) (first : Nat)
    (pairs : List (Str × UploadFile)) : Saving Unit := do
  let stored ← uploadPairs config tx faults userId first pairs
  let geo ← currentEvent
  write { geo with proof := writtenProof geo.proof proofHtml stored }
  commit faults

/-- `attach_evidence_and_commit` up to its commit: the objects it leaves to sweep. -/
def attachEvidenceAndCommit (proofHtml : Option Body) (proofFiles : List UploadFile)
    (removed : List StoredObject) (first : Nat) : Saving (List StoredObject) := do
  let geo ← currentEvent
  callDatabase faults
  let (pairs, keptSrcs) ← check (checkEvidence config geo proofHtml proofFiles)
  write (keptProofMedia geo keptSrcs)
  callDatabase faults
  Attempt.onRaise (fun _ => true)
    (uploadAndCommit config tx faults geo.ownerId proofHtml first pairs) rollBack
  pure (mediaObjects (droppedProofMedia geo keptSrcs) ++ removed)

/-- The credit of a publish: the caller's first, then the invitations, each refused or staged. -/
def creditOnPublish (currentUser : User) (publishing : Bool) (geolocatorInvites : List Str) :
    Saving Unit :=
  if publishing then do
    let edited ← currentEvent
    write (creditGeolocator edited currentUser.id tx.now)
    callDatabase faults
    let invited ← check
      (inviteOnPublish tx (creditGeolocator edited currentUser.id tx.now) geolocatorInvites)
    write invited
  else pure ()

/-- `save_version` up to its commit. The reads among its first rules fail as one call: nothing is
written between them. -/
def saveVersion (currentUser : User) (form : EventForm) (lat lng : Rat) (note : Option Str)
    (expectedVersion : Option Nat) (geolocatorInvites : List Str) :
    Saving (List StoredObject) := do
  callDatabase faults
  let geo ← currentEvent
  let checked ← check
    (checkSave config tx geo currentUser form lat lng expectedVersion geolocatorInvites)
  let filed ← check
    (fileVersion geo currentUser note (buildSnapshot geo) tx.now checked.fieldsMove)
  write filed
  write (editFields tx filed form lat lng (isUnpublished geo.status))
  creditOnPublish tx faults currentUser (isUnpublished geo.status) geolocatorInvites
  callDatabase faults
  let removed ← applySources config tx faults checked.planned
  attachEvidenceAndCommit config tx faults checked.proofData form.proofFiles removed
    (1 + 2 * checked.planned.length)

end Write

end Saving

/-! ### What a run that raises leaves -/

/-- A key minted from a draw of the transaction. -/
def MintedIn (config : Config) (tx : Transaction) (key : Str) : Prop :=
  ∃ index, IsMintedKey config.uuids (tx.uuid index) key

/-- Nothing stored yet, and nothing committed. -/
structure Clean (start : Rows) (session : Session) : Prop where
  committed : session.committed = start
  put : session.put = []
  uploadedKeys : session.uploadedKeys = []
  handed : session.handed = []

/-- Every key put is one of `uploaded_keys`, was handed to the sweep, or is of the file being
stored. -/
structure Tracks (config : Config) (tx : Transaction) (start : Rows) (storing : List Str)
    (session : Session) : Prop where
  committed : session.committed = start
  put : ∀ key ∈ session.put, key ∈ session.uploadedKeys ∨ key ∈ session.handed ∨ key ∈ storing
  uploadedKeys : ∀ key ∈ session.uploadedKeys, MintedIn config tx key
  handed : ∀ key ∈ session.handed, MintedIn config tx key

/-- Nothing committed, and every key put handed to the sweep, with no key of another. -/
structure Swept (config : Config) (tx : Transaction) (start : Rows) (session : Session) :
    Prop where
  committed : session.committed = start
  put : ∀ key ∈ session.put, key ∈ session.handed
  handed : ∀ key ∈ session.handed, MintedIn config tx key

section Clean

variable {config : Config} {tx : Transaction} {start : Rows} {session : Session}

theorem Clean.tracks (clean : Clean start session) : Tracks config tx start [] session where
  committed := clean.committed
  put key member := by simp [clean.put] at member
  uploadedKeys key member := by simp [clean.uploadedKeys] at member
  handed key member := by simp [clean.handed] at member

theorem Clean.swept (clean : Clean start session) : Swept config tx start session where
  committed := clean.committed
  put key member := by simp [clean.put] at member
  handed key member := by simp [clean.handed] at member

end Clean

namespace Saving

section Raises

variable {config : Config} {tx : Transaction} {faults : Nat → Bool} {start : Rows}
variable {storing : List Str}

/-- What a rule answers, on a session it leaves alone. -/
theorem check_meets {α : Type} {answer : Except EventError α} {holds : Session → Prop} :
    Attempt.Meets holds (check answer) (fun value session => answer = .ok value ∧ holds session)
      (fun _ => holds) := by
  apply Attempt.Meets.ask
  · intro session value clean answered
    cases answer with
    | error error => cases answered
    | ok found =>
        cases answered
        exact ⟨rfl, clean⟩
  · intro session failure clean _
    exact clean

/-- A call outside moves nothing but the count of calls. -/
theorem callDatabase_meets {holds : Session → Prop}
    (blind : ∀ session calls, holds session → holds { session with calls := calls }) :
    Attempt.Meets holds (callDatabase faults) (fun _ => holds) (fun _ => holds) := by
  intro session clean
  unfold callDatabase
  cases faults session.calls with
  | true => exact blind session _ clean
  | false => exact blind session _ clean

theorem Clean.calls (session : Session) (calls : Nat) (clean : Clean start session) :
    Clean start { session with calls := calls } :=
  ⟨clean.committed, clean.put, clean.uploadedKeys, clean.handed⟩

theorem Tracks.calls (session : Session) (calls : Nat)
    (tracks : Tracks config tx start storing session) :
    Tracks config tx start storing { session with calls := calls } :=
  ⟨tracks.committed, tracks.put, tracks.uploadedKeys, tracks.handed⟩

theorem putObject_meets (key : Str) :
    Attempt.Meets (Tracks config tx start storing) (putObject faults key)
      (fun _ => Tracks config tx start (storing ++ [key]))
      (fun _ => Tracks config tx start storing) := by
  intro session tracks
  unfold putObject
  cases faults session.calls with
  | true => exact Tracks.calls session _ tracks
  | false =>
      refine ⟨tracks.committed, ?_, tracks.uploadedKeys, tracks.handed⟩
      intro taken member
      obtain earlier | new := List.mem_append.mp member
      · obtain uploaded | handed | inFile := tracks.put taken earlier
        · exact .inl uploaded
        · exact .inr (.inl handed)
        · exact .inr (.inr (List.mem_append_left _ inFile))
      · exact .inr (.inr (List.mem_append_right _ new))

theorem sweepKeys_meets (minted : ∀ key ∈ storing, MintedIn config tx key) :
    Attempt.Meets (Tracks config tx start storing) (sweepKeys storing)
      (fun _ => Tracks config tx start []) (fun _ _ => False) := by
  apply Attempt.Meets.modify
  intro session tracks
  refine ⟨tracks.committed, ?_, tracks.uploadedKeys, ?_⟩
  · intro key member
    obtain uploaded | handed | inFile := tracks.put key member
    · exact .inl uploaded
    · exact .inr (.inl (List.mem_append_left _ handed))
    · exact .inr (.inl (List.mem_append_right _ inFile))
  · intro key member
    obtain earlier | inFile := List.mem_append.mp member
    · exact tracks.handed key earlier
    · exact minted key inFile

/-- A file is stored whole, or the frames of it that were are handed to the sweep. -/
theorem putFrames_meets (keys : List Str) (storedMinted : ∀ key ∈ storing, MintedIn config tx key)
    (minted : ∀ key ∈ keys, MintedIn config tx key) :
    Attempt.Meets (Tracks config tx start storing) (putFrames faults storing keys)
      (fun _ => Tracks config tx start (storing ++ keys))
      (fun _ => Tracks config tx start []) := by
  induction keys generalizing storing with
  | nil =>
      intro session tracks
      rw [List.append_nil]
      exact tracks
  | cons key rest inductionHypothesis =>
      apply Attempt.Meets.bind
      · exact Attempt.Meets.onRaise (putObject_meets key) fun _ => sweepKeys_meets storedMinted
      · intro _
        have grown : storing ++ key :: rest = storing ++ [key] ++ rest := by simp
        rw [grown]
        apply inductionHypothesis
        · intro stored member
          obtain earlier | new := List.mem_append.mp member
          · exact storedMinted stored earlier
          · rw [List.mem_singleton.mp new]
            exact minted key List.mem_cons_self
        · exact fun other member => minted other (List.mem_cons_of_mem _ member)

theorem frameKeys_minted {userId : Uuid} {file : UploadFile} {first count : Nat} {key : Str}
    (member : key ∈ frameKeys config tx userId file first count) : MintedIn config tx key := by
  obtain ⟨index, _, rfl⟩ := List.mem_map.mp member
  exact ⟨_, _, _, rfl⟩

/-- The keys of the rows are the keys their files were put under. -/
theorem storedImages_keys {userId : Uuid} {file : UploadFile} {first : Nat}
    (digests : List Str) :
    (storedImages config tx userId file first digests).filterMap
        (fun media => config.storage.keyFromUrl media.storageUrl) =
      frameKeys config tx userId file first digests.length := by
  have urls : (storedImages config tx userId file first digests).map Media.storageUrl =
      (frameKeys config tx userId file first digests.length).map config.storage.publicUrl := by
    unfold storedImages frameKeys
    apply List.ext_getElem
    · simp
    · intro index _ _
      simp
  have keyed : (config.storage.keyFromUrl ∘ config.storage.publicUrl) = some := by
    funext key
    exact config.storage.keyFromUrl_publicUrl key
  calc (storedImages config tx userId file first digests).filterMap
        (fun media => config.storage.keyFromUrl media.storageUrl)
      = ((storedImages config tx userId file first digests).map
          Media.storageUrl).filterMap config.storage.keyFromUrl := by
        rw [List.filterMap_map]
        rfl
    _ = frameKeys config tx userId file first digests.length := by
        rw [urls, List.filterMap_map, keyed, List.filterMap_some]

theorem uploadProofImage_meets (userId : Uuid) (first : Nat) (file : UploadFile) :
    Attempt.Meets (Tracks config tx start []) (uploadProofImage config tx faults userId first file)
      (fun rows session =>
        (∀ key ∈ rows.filterMap fun media => config.storage.keyFromUrl media.storageUrl,
          MintedIn config tx key) ∧
        Tracks config tx start
          (rows.filterMap fun media => config.storage.keyFromUrl media.storageUrl) session)
      (fun _ => Tracks config tx start []) := by
  apply Attempt.Meets.bind check_meets
  intro digests
  apply Attempt.Meets.bind
  · exact (putFrames_meets (frameKeys config tx userId file first digests.length) (by simp)
      fun _ member => frameKeys_minted member).weaken (fun _ checked => checked.2)
        (fun _ _ tracks => tracks) (fun _ _ tracks => tracks)
  · intro _ session tracks
    rw [List.nil_append] at tracks
    show _ ∧ _
    rw [storedImages_keys]
    exact ⟨fun _ member => frameKeys_minted member, tracks⟩

theorem addMedia_meets (rows : List Media)
    (minted : ∀ key ∈ rows.filterMap fun media => config.storage.keyFromUrl media.storageUrl,
      MintedIn config tx key) :
    Attempt.Meets
      (Tracks config tx start
        (rows.filterMap fun media => config.storage.keyFromUrl media.storageUrl))
      (addMedia config rows) (fun _ => Tracks config tx start [])
      (fun _ => Tracks config tx start []) := by
  apply Attempt.Meets.modify
  intro session tracks
  refine ⟨tracks.committed, ?_, ?_, tracks.handed⟩
  · intro key member
    obtain uploaded | handed | inFile := tracks.put key member
    · exact .inl (List.mem_append_left _ uploaded)
    · exact .inr (.inl handed)
    · exact .inl (List.mem_append_right _ inFile)
  · intro key member
    obtain earlier | new := List.mem_append.mp member
    · exact tracks.uploadedKeys key earlier
    · exact minted key new

theorem uploadPairs_meets (userId : Uuid) (first : Nat) (pairs : List (Str × UploadFile)) :
    Attempt.Meets (Tracks config tx start []) (uploadPairs config tx faults userId first pairs)
      (fun _ => Tracks config tx start []) (fun _ => Tracks config tx start []) := by
  induction pairs generalizing first with
  | nil => exact fun _ tracks => tracks
  | cons pair rest inductionHypothesis =>
      obtain ⟨placeholder, file⟩ := pair
      apply Attempt.Meets.bind (uploadProofImage_meets userId first file)
      intro rows
      apply Attempt.Meets.through (fun _ => Tracks config tx start [])
      · intro session held
        exact addMedia_meets rows held.1 session held.2
      · intro _
        apply Attempt.Meets.bind (inductionHypothesis _)
        exact fun _ _ tracks => tracks

theorem uploadAndCommit_meets (userId : Uuid) (proofHtml : Option Body) (first : Nat)
    (pairs : List (Str × UploadFile)) :
    Attempt.Meets (Tracks config tx start [])
      (uploadAndCommit config tx faults userId proofHtml first pairs) (fun _ _ => True)
      (fun _ => Tracks config tx start []) := by
  apply Attempt.Meets.bind (uploadPairs_meets userId first pairs)
  intro stored
  apply Attempt.Meets.through (fun _ => Tracks config tx start [])
  · exact fun _ tracks => tracks
  intro geo
  apply Attempt.Meets.through (fun _ => Tracks config tx start [])
  · exact fun _ tracks => ⟨tracks.committed, tracks.put, tracks.uploadedKeys, tracks.handed⟩
  intro _
  apply Attempt.Meets.bind (callDatabase_meets Tracks.calls)
  exact fun _ _ _ => trivial

/-- The `except` of `attach_evidence_and_commit`. -/
theorem rollBack_meets :
    Attempt.Meets (Tracks config tx start []) rollBack (fun _ => Swept config tx start)
      (fun _ _ => False) := by
  apply Attempt.Meets.modify
  intro session tracks
  refine ⟨tracks.committed, ?_, ?_⟩
  · intro key member
    obtain uploaded | handed | none := tracks.put key member
    · exact List.mem_append_right _ uploaded
    · exact List.mem_append_left _ handed
    · exact absurd none List.not_mem_nil
  · intro key member
    obtain earlier | uploaded := List.mem_append.mp member
    · exact tracks.handed key earlier
    · exact tracks.uploadedKeys key uploaded

theorem write_meets (geo : Event) :
    Attempt.Meets (Clean start) (write geo) (fun _ => Clean start)
      (fun _ => Swept config tx start) :=
  fun _ clean => ⟨clean.committed, clean.put, clean.uploadedKeys, clean.handed⟩

theorem clean_call :
    Attempt.Meets (Clean start) (callDatabase faults) (fun _ => Clean start)
      (fun _ => Swept config tx start) :=
  (callDatabase_meets Clean.calls).weaken (fun _ clean => clean) (fun _ _ clean => clean)
    fun _ _ clean => clean.swept

theorem clean_check {α : Type} (answer : Except EventError α) :
    Attempt.Meets (Clean start) (check answer) (fun _ => Clean start)
      (fun _ => Swept config tx start) :=
  check_meets.weaken (fun _ clean => clean) (fun _ _ checked => checked.2)
    fun _ _ clean => clean.swept

theorem currentEvent_meets :
    Attempt.Meets (Clean start) currentEvent (fun _ => Clean start)
      (fun _ => Swept config tx start) :=
  fun _ clean => clean

theorem applySources_meets (planned : List PlannedSource) :
    Attempt.Meets (Clean start) (applySources config tx faults planned) (fun _ => Clean start)
      (fun _ => Swept config tx start) := by
  apply currentEvent_meets.bind
  intro geo
  apply (write_meets _).bind
  intro _
  apply clean_call.bind
  intro _
  apply (clean_check _).bind
  intro applied
  apply Attempt.Meets.through (fun _ => Clean start)
  · exact fun _ clean => ⟨clean.committed, clean.put, clean.uploadedKeys, clean.handed⟩
  intro _
  apply clean_call.bind
  exact fun _ _ clean => clean

theorem attachEvidenceAndCommit_meets (proofHtml : Option Body) (proofFiles : List UploadFile)
    (removed : List StoredObject) (first : Nat) :
    Attempt.Meets (Clean start)
      (attachEvidenceAndCommit config tx faults proofHtml proofFiles removed first)
      (fun _ _ => True) (fun _ => Swept config tx start) := by
  apply currentEvent_meets.bind
  intro geo
  apply clean_call.bind
  intro _
  apply (clean_check _).bind
  intro ⟨pairs, keptSrcs⟩
  apply (write_meets _).bind
  intro _
  apply clean_call.bind
  intro _
  apply Attempt.Meets.through (fun _ _ => True)
  · exact (Attempt.Meets.onRaise (uploadAndCommit_meets geo.ownerId proofHtml first pairs)
      fun _ => rollBack_meets).weaken (fun _ clean => clean.tracks) (fun _ _ done => done)
        fun _ _ swept => swept
  · exact fun _ _ _ => trivial

theorem creditOnPublish_meets (currentUser : User) (publishing : Bool)
    (geolocatorInvites : List Str) :
    Attempt.Meets (Clean start)
      (creditOnPublish tx faults currentUser publishing geolocatorInvites) (fun _ => Clean start)
      (fun _ => Swept config tx start) := by
  unfold creditOnPublish
  split
  · apply currentEvent_meets.bind
    intro edited
    apply (write_meets _).bind
    intro _
    apply clean_call.bind
    intro _
    apply (clean_check _).bind
    exact fun invited => write_meets invited
  · exact fun _ clean => clean

/-- A `save_version` that raises committed nothing, and handed to the sweep every key it put and
no other. -/
theorem saveVersion_meets (currentUser : User) (form : EventForm) (lat lng : Rat)
    (note : Option Str) (expectedVersion : Option Nat) (geolocatorInvites : List Str) :
    Attempt.Meets (Clean start)
      (saveVersion config tx faults currentUser form lat lng note expectedVersion
        geolocatorInvites) (fun _ _ => True) (fun _ => Swept config tx start) := by
  apply clean_call.bind
  intro _
  apply currentEvent_meets.bind
  intro geo
  apply (clean_check _).bind
  intro checked
  apply (clean_check _).bind
  intro filed
  apply (write_meets _).bind
  intro _
  apply (write_meets _).bind
  intro _
  apply (creditOnPublish_meets currentUser _ geolocatorInvites).bind
  intro _
  apply clean_call.bind
  intro _
  apply (applySources_meets checked.planned).bind
  exact fun removed => attachEvidenceAndCommit_meets _ _ removed _

end Raises

/-! ### What a run that returns wrote -/

/-- The rows as the session has written them, and the keys it put, none swept. -/
structure Holds (rows : Rows) (put : List Str) (session : Session) : Prop where
  pending : session.pending = rows
  put : session.put = put
  handed : session.handed = []

section Returns

variable {config : Config} {tx : Transaction} {faults : Nat → Bool} {rows : Rows} {put : List Str}

/-- A run that raises is not of interest here. -/
abbrev Returning {α : Type} (before : Session → Prop) (computation : Saving α)
    (after : α → Session → Prop) : Prop :=
  Attempt.Meets before computation after fun _ _ => True

theorem Holds.calls (session : Session) (calls : Nat) (holds : Holds rows put session) :
    Holds rows put { session with calls := calls } :=
  ⟨holds.pending, holds.put, holds.handed⟩

theorem holds_call : Returning (Holds rows put) (callDatabase faults) (fun _ => Holds rows put) :=
  (callDatabase_meets Holds.calls).weaken (fun _ holds => holds) (fun _ _ holds => holds)
    fun _ _ _ => trivial

theorem holds_check {α : Type} (answer : Except EventError α) :
    Returning (Holds rows put) (check answer)
      (fun value session => answer = .ok value ∧ Holds rows put session) :=
  check_meets.weaken (fun _ holds => holds) (fun _ _ checked => checked) fun _ _ _ => trivial

theorem holds_current :
    Returning (Holds rows put) currentEvent
      (fun geo session => geo = rows.event ∧ Holds rows put session) :=
  fun _ holds => ⟨congrArg Rows.event holds.pending, holds⟩

theorem holds_write (geo : Event) :
    Returning (Holds rows put) (write geo) (fun _ => Holds { rows with event := geo } put) :=
  fun _ holds => ⟨congrArg (fun rows : Rows => { rows with event := geo }) holds.pending,
    holds.put, holds.handed⟩

theorem holds_putObject (key : Str) :
    Returning (Holds rows put) (putObject faults key) (fun _ => Holds rows (put ++ [key])) := by
  intro session holds
  unfold putObject
  cases faults session.calls with
  | true => trivial
  | false => exact ⟨holds.pending, congrArg (· ++ [key]) holds.put, holds.handed⟩

theorem holds_putFrames (stored keys : List Str) :
    Returning (Holds rows put) (putFrames faults stored keys)
      (fun _ => Holds rows (put ++ keys)) := by
  induction keys generalizing stored put with
  | nil =>
      intro session holds
      rw [List.append_nil]
      exact holds
  | cons key rest inductionHypothesis =>
      apply Attempt.Meets.through (fun _ => Holds rows (put ++ [key]))
      · apply Attempt.Meets.onRaise (holds_putObject key)
        exact fun _ _ _ => trivial
      · intro _
        have grown : put ++ key :: rest = put ++ [key] ++ rest := by simp
        rw [grown]
        exact inductionHypothesis _

theorem holds_uploadProofImage (userId : Uuid) (first : Nat) (file : UploadFile) :
    Returning (Holds rows put) (uploadProofImage config tx faults userId first file)
      (fun media session =>
        (∃ digests, file.digests.mapError EventError.evidenceProcessingFailed = .ok digests ∧
          media = storedImages config tx userId file first digests) ∧
        Holds rows
          (put ++ media.filterMap fun row => config.storage.keyFromUrl row.storageUrl) session) := by
  apply (holds_check _).bind
  intro digests
  apply Attempt.Meets.assuming
  intro decoded
  apply (holds_putFrames [] _).bind
  intro _ session holds
  refine ⟨⟨digests, decoded, rfl⟩, ?_⟩
  rw [storedImages_keys]
  exact holds

theorem holds_addMedia (media : List Media) :
    Returning (Holds rows put) (addMedia config media)
      (fun _ => Holds (rows.addMedia media) put) :=
  fun _ holds => ⟨congrArg (Rows.addMedia · media) holds.pending, holds.put, holds.handed⟩

/-- The upload loop stores what `storeProofImages` says. -/
theorem holds_uploadPairs (userId : Uuid) (first : Nat) (pairs : List (Str × UploadFile)) :
    Returning (Holds rows put) (uploadPairs config tx faults userId first pairs)
      (fun stored session =>
        storeProofImages config tx userId first pairs = .ok stored ∧
        Holds (rows.addMedia (stored.flatMap Prod.snd))
          (put ++ (stored.flatMap Prod.snd).filterMap fun row =>
            config.storage.keyFromUrl row.storageUrl) session) := by
  induction pairs generalizing first rows put with
  | nil =>
      intro session holds
      refine ⟨rfl, ?_⟩
      simpa [Rows.addMedia] using holds
  | cons pair rest inductionHypothesis =>
      obtain ⟨placeholder, file⟩ := pair
      apply (holds_uploadProofImage userId first file).bind
      intro media
      apply Attempt.Meets.assuming
      rintro ⟨digests, decoded, rfl⟩
      apply (holds_addMedia _).bind
      intro _
      apply (inductionHypothesis _).bind
      intro later session ⟨storing, holds⟩
      refine ⟨?_, ?_⟩
      · simp only [storeProofImages, bind_eq_ok, pure_eq_ok]
        exact ⟨digests, decoded, later, storing, rfl⟩
      · rw [Rows.addMedia_addMedia, List.append_assoc, ← List.filterMap_append] at holds
        exact holds

theorem holds_commit :
    Returning (Holds rows put) (commit faults)
      (fun _ session => session.committed = rows ∧ Holds rows put session) := by
  apply holds_call.bind
  exact fun _ _ holds => ⟨holds.pending, holds.pending, holds.put, holds.handed⟩

/-- The event with its new proof images and its proof body. -/
def withProof (geo : Event) (proofHtml : Option Body) (stored : List (Str × List Media)) : Event :=
  { geo with
    media := geo.media ++ stored.flatMap Prod.snd
    proof := writtenProof geo.proof proofHtml stored }

/-- `attachEvidence` is its checks, then what it stores. -/
theorem attachEvidence_of_check {geo : Event} {proofHtml : Option Body}
    {proofFiles : List UploadFile} {first : Nat} {pairs : List (Str × UploadFile)}
    {keptSrcs : List Str} {stored : List (Str × List Media)}
    (checked : checkEvidence config geo proofHtml proofFiles = .ok (pairs, keptSrcs))
    (storing : storeProofImages config tx geo.ownerId first pairs = .ok stored) :
    attachEvidence config tx geo proofHtml proofFiles first = .ok {
      event := withProof (keptProofMedia geo keptSrcs) proofHtml stored
      stored := stored.flatMap Prod.snd
      dropped := mediaObjects (droppedProofMedia geo keptSrcs) } := by
  unfold checkEvidence at checked
  simp only [bind_eq_ok, require_eq_ok, pure_eq_ok] at checked
  obtain ⟨_, few, kinds, images, found, matching, counts, counting, _, own, _, room, same⟩ := checked
  obtain ⟨rfl, rfl⟩ := Prod.mk.inj same
  unfold attachEvidence
  simp only [bind_eq_ok, require_eq_ok, pure_eq_ok]
  exact ⟨⟨⟩, few, kinds, images, found, matching, counts, counting, ⟨⟩, own, ⟨⟩, room, stored,
    storing, rfl⟩

theorem holds_uploadAndCommit (userId : Uuid) (proofHtml : Option Body) (first : Nat)
    (pairs : List (Str × UploadFile)) :
    Returning (Holds rows put) (uploadAndCommit config tx faults userId proofHtml first pairs)
      (fun _ session => ∃ stored,
        storeProofImages config tx userId first pairs = .ok stored ∧
        session.committed = { rows with event := withProof rows.event proofHtml stored } ∧
        Holds { rows with event := withProof rows.event proofHtml stored }
          (put ++ (stored.flatMap Prod.snd).filterMap fun row =>
            config.storage.keyFromUrl row.storageUrl) session) := by
  apply (holds_uploadPairs userId first pairs).bind
  intro stored
  apply Attempt.Meets.assuming
  intro storing
  apply holds_current.bind
  intro geo
  apply Attempt.Meets.assuming
  rintro rfl
  apply (holds_write _).bind
  intro _
  apply holds_commit.weaken (fun _ holds => holds) _ (fun _ _ _ => trivial)
  intro _ session ⟨committed, holds⟩
  exact ⟨stored, storing, committed, holds⟩

/-- A commit that returns committed what `attachEvidence` says. -/
theorem holds_attach (proofHtml : Option Body) (proofFiles : List UploadFile)
    (removed : List StoredObject) (first : Nat) :
    Returning (Holds rows put)
      (attachEvidenceAndCommit config tx faults proofHtml proofFiles removed first)
      (fun dropped session => ∃ attached,
        attachEvidence config tx rows.event proofHtml proofFiles first = .ok attached ∧
        dropped = attached.dropped ++ removed ∧
        session.committed = { rows with event := attached.event } ∧
        Holds { rows with event := attached.event }
          (put ++ attached.stored.filterMap fun row => config.storage.keyFromUrl row.storageUrl)
          session) := by
  apply holds_current.bind
  intro geo
  apply Attempt.Meets.assuming
  rintro rfl
  apply holds_call.bind
  intro _
  apply (holds_check _).bind
  intro ⟨pairs, keptSrcs⟩
  apply Attempt.Meets.assuming
  intro checked
  apply (holds_write _).bind
  intro _
  apply holds_call.bind
  intro _
  apply Attempt.Meets.through
    (fun _ session => ∃ attached,
      attachEvidence config tx rows.event proofHtml proofFiles first = .ok attached ∧
      attached.dropped = mediaObjects (droppedProofMedia rows.event keptSrcs) ∧
      session.committed = { rows with event := attached.event } ∧
      Holds { rows with event := attached.event }
        (put ++ attached.stored.filterMap fun row => config.storage.keyFromUrl row.storageUrl)
        session)
  · apply Attempt.Meets.onRaise
    · apply (holds_uploadAndCommit _ proofHtml first pairs).weaken (fun _ holds => holds) _
        (fun _ _ _ => trivial)
      intro _ session ⟨stored, storing, committed, holds⟩
      exact ⟨_, attachEvidence_of_check checked storing, rfl, committed, holds⟩
    · exact fun _ _ _ => trivial
  · intro _ session ⟨attached, attaching, dropped, committed, holds⟩
    refine ⟨attached, attaching, ?_, committed, holds⟩
    rw [dropped]

theorem holds_applySources (planned : List PlannedSource) :
    Returning (Holds rows put) (applySources config tx faults planned)
      (fun removed session => ∃ applied,
        Events.applySources config tx rows.event.sources planned = .ok applied ∧
        removed = applied.removed ∧
        Holds ⟨{ rows.event with sources := applied.sources },
          rows.uploads.filter fun upload => upload.id ∉ applied.taken⟩ put session) := by
  apply holds_current.bind
  intro geo
  apply Attempt.Meets.assuming
  rintro rfl
  apply (holds_write _).bind
  intro _
  apply holds_call.bind
  intro _
  apply (holds_check _).bind
  intro applied
  apply Attempt.Meets.assuming
  intro applying
  apply Attempt.Meets.through
    (fun _ => Holds ⟨{ rows.event with sources := applied.sources },
      rows.uploads.filter fun upload => upload.id ∉ applied.taken⟩ put)
  · intro session holds
    refine ⟨?_, holds.put, holds.handed⟩
    show Rows.mk _ _ = _
    rw [holds.pending]
  intro _
  apply holds_call.bind
  exact fun _ session holds => ⟨applied, applying, rfl, holds⟩

theorem holds_creditOnPublish (currentUser : User) (publishing : Bool)
    (geolocatorInvites : List Str) :
    Returning (Holds rows put)
      (creditOnPublish tx faults currentUser publishing geolocatorInvites)
      (fun _ session => ∃ credited,
        Events.creditOnPublish tx rows.event currentUser publishing geolocatorInvites =
          .ok credited ∧ Holds { rows with event := credited } put session) := by
  unfold creditOnPublish Events.creditOnPublish
  cases publishing with
  | false => exact fun _ holds => ⟨rows.event, rfl, holds⟩
  | true =>
      apply holds_current.bind
      intro edited
      apply Attempt.Meets.assuming
      rintro rfl
      apply (holds_write _).bind
      intro _
      apply holds_call.bind
      intro _
      apply (holds_check _).bind
      intro invited
      apply Attempt.Meets.assuming
      intro inviting
      apply (holds_write invited).weaken (fun _ holds => holds) _ (fun _ _ _ => trivial)
      exact fun _ session holds => ⟨invited, inviting, holds⟩

/-- `saveVersion` is its checks, then its writes. -/
theorem saveVersion_of_check {geo filed credited : Event} {currentUser : User} {form : EventForm}
    {lat lng : Rat} {note : Option Str} {expectedVersion : Option Nat}
    {geolocatorInvites : List Str} {checked : CheckedSave} {written : Written}
    (checking : checkSave config tx geo currentUser form lat lng expectedVersion
      geolocatorInvites = .ok checked)
    (filing : fileVersion geo currentUser note (buildSnapshot geo) tx.now checked.fieldsMove =
      .ok filed)
    (crediting : Events.creditOnPublish tx
      (editFields tx filed form lat lng (isUnpublished geo.status)) currentUser
      (isUnpublished geo.status) geolocatorInvites = .ok credited)
    (finishing : finishWrite config tx credited checked.planned checked.proofData
      form.proofFiles = .ok written) :
    Events.saveVersion config tx geo currentUser form lat lng note expectedVersion
      geolocatorInvites = .ok written := by
  unfold checkSave at checking
  simp only [bind_eq_ok, require_eq_ok, pure_eq_ok] at checking
  obtain ⟨_, writable, _, expected, _, invites, _, mayEdit, _, valid, proofData, sanitising, _,
    image, _, conflict, planned, planning, _, floor, _, moves, rfl⟩ := checking
  unfold Events.saveVersion
  simp only [bind_eq_ok, require_eq_ok]
  exact ⟨⟨⟩, writable, ⟨⟩, expected, ⟨⟩, invites, _, mayEdit, _, valid, proofData, sanitising, _,
    image, _, conflict, planned, planning, _, floor, ⟨⟩, moves, filed, filing, credited, crediting,
    finishing⟩

/-- A `save_version` that returns is the write of `saveVersion`, committed. -/
theorem saveVersion_returned {geo : Event} {uploads : List Upload} {currentUser : User}
    {form : EventForm} {lat lng : Rat} {note : Option Str} {expectedVersion : Option Nat}
    {geolocatorInvites : List Str} {dropped : List StoredObject} {final : Session}
    (ran : saveVersion config tx faults currentUser form lat lng note expectedVersion
      geolocatorInvites (Session.opened ⟨geo, uploads⟩) = (.ok dropped, final)) :
    ∃ written,
      Events.saveVersion config tx geo currentUser form lat lng note expectedVersion
        geolocatorInvites = .ok written ∧
      dropped = written.dropped ∧
      final.committed =
        ⟨written.event, uploads.filter fun upload => upload.id ∉ written.taken⟩ ∧
      final.put = written.stored.filterMap (fun row =>
        config.storage.keyFromUrl row.storageUrl) ∧
      final.handed = [] := by
  have meets : Returning (Holds ⟨geo, uploads⟩ [])
      (saveVersion config tx faults currentUser form lat lng note expectedVersion
        geolocatorInvites)
      (fun dropped final => ∃ written,
        Events.saveVersion config tx geo currentUser form lat lng note expectedVersion
          geolocatorInvites = .ok written ∧
        dropped = written.dropped ∧
        final.committed =
          ⟨written.event, uploads.filter fun upload => upload.id ∉ written.taken⟩ ∧
        final.put = written.stored.filterMap (fun row =>
          config.storage.keyFromUrl row.storageUrl) ∧
        final.handed = []) := by
    apply holds_call.bind
    intro _
    apply holds_current.bind
    intro row
    apply Attempt.Meets.assuming
    rintro rfl
    apply (holds_check _).bind
    intro checked
    apply Attempt.Meets.assuming
    intro checking
    apply (holds_check _).bind
    intro filed
    apply Attempt.Meets.assuming
    intro filing
    apply (holds_write _).bind
    intro _
    apply (holds_write _).bind
    intro _
    apply (holds_creditOnPublish currentUser _ geolocatorInvites).bind
    intro _
    apply Attempt.Meets.choosing
    intro credited
    apply Attempt.Meets.assuming
    intro crediting
    apply holds_call.bind
    intro _
    apply (holds_applySources checked.planned).bind
    intro removed
    apply Attempt.Meets.choosing
    intro applied
    apply Attempt.Meets.assuming
    intro applying
    apply Attempt.Meets.assuming
    rintro rfl
    apply (holds_attach _ _ _ _).weaken (fun _ holds => holds) _ (fun _ _ _ => trivial)
    intro dropped session ⟨attached, attaching, left, committed, holds⟩
    have finishing : finishWrite config tx credited checked.planned checked.proofData
        form.proofFiles = .ok {
          event := attached.event
          taken := applied.taken
          stored := attached.stored
          dropped := attached.dropped ++ applied.removed
          draws := 1 + 2 * checked.planned.length + 2 * attached.stored.length } := by
      unfold finishWrite
      simp only [bind_eq_ok, pure_eq_ok]
      exact ⟨applied, applying, attached, attaching, rfl⟩
    refine ⟨_, saveVersion_of_check checking filing crediting finishing, left, committed, ?_,
      holds.handed⟩
    rw [holds.put, List.nil_append]
  exact meets.returned ⟨rfl, rfl, rfl⟩ ran

end Returns

end Saving

end Vidit.Events
