import Vidit.Uploads.Taking

/-!
Contract: a staged upload is consumed exactly once.

Owns:
- `ConsumedOnce`, what the writes and the reaper promise about each upload;
- `consumedOnce`, that every run keeps it.

Proof shape: a row names an object under a UUID of its own (`Minted`), so objects of
different rows share no key. A row that a commit deleted is shown to nobody
(`Table.Shows.commit_held`), and what a process still has to sweep is no staged row's
(`Spares`), nor, for the reaper, an attached upload's.
-/

namespace Vidit.Uploads

open Vidit.Python Vidit.Accounts Vidit.Evidence Vidit.Events Vidit.Library

variable {settings : UploadSettings}

namespace UploadState

/-- The keys of a staged row's object are in storage. -/
def Stored (settings : UploadSettings) (state : UploadState) (upload : Upload) : Prop :=
  ∀ key ∈ objectKeys settings.storage (uploadObject settings.storage upload), key ∈ state.objects

/-- The row stands, is its uploader's, has not expired, has its object, and nobody
holds it. -/
structure Takeable (settings : UploadSettings) (state : UploadState) (uploaderId uploadId : Uuid) :
    Prop where
  row : ∃ upload, state.uploads.committed uploadId = some upload ∧ upload.id = uploadId ∧
    upload.uploaderId = uploaderId ∧ state.now < upload.expiresAt ∧ state.Stored settings upload
  free : state.uploads.holder uploadId = none

end UploadState

/-- A staged upload is consumed exactly once. -/
structure ConsumedOnce (settings : UploadSettings)
    (system : System UploadState UploadLabel) : Prop where
  /-- At most one committed write has attached an upload, and its row is gone. -/
  once : ∀ {state}, system.Reachable state →
    (state.attached.map AttachedUpload.uploadId).Nodup ∧
      ∀ attached ∈ state.attached, state.uploads.committed attached.uploadId = none
  /-- A row that stands has its object. -/
  stands : ∀ {state uploadId upload}, system.Reachable state →
    state.uploads.committed uploadId = some upload → state.Stored settings upload
  /-- Until it commits what it took, a write keeps the rows and their objects, and
  once it has ended it holds none of them. -/
  gaveBack : ∀ {state next process label}, system.Reachable state →
    (state.processes process).isWrite → label = .run process ∨ label = .fail process →
    system.Step state label next → next.attached = state.attached →
    ∀ {uploadId upload}, state.uploads.committed uploadId = some upload →
      next.uploads.committed uploadId = some upload ∧ next.Stored settings upload ∧
        ((next.processes process).ended → next.uploads.holder uploadId ≠ some process)
  /-- A write that names takeable rows takes them. -/
  taken : ∀ {state process write}, system.Reachable state →
    state.processes process = .take write →
    (∀ uploadId ∈ write.uploadIds, state.Takeable settings write.uploaderId uploadId) →
      ∃ final found, system.Run state final ∧
        final.processes process = .drop write found write.dropped [] ∧
        ∀ uploadId ∈ write.uploadIds, uploadId ∈ found
  /-- The reaper leaves the objects of attached uploads. -/
  reaper : ∀ {state next process keys}, system.Reachable state →
    state.processes process = .deleteReaped keys → system.Step state (.run process) next →
    ∀ attached ∈ state.attached, ∀ key ∈ objectKeys settings.storage attached.object,
      key ∈ state.objects → key ∈ next.objects

/-! ### Objects under a UUID of their own -/

/-- The key is minted for the upload, from the draw after its own. -/
def Minted (settings : UploadSettings) (drawn : Nat) (uploadId : Uuid) (key : Str) : Prop :=
  ∃ index contentType, index + 1 < drawn ∧ uploadId = settings.uuids.draw index ∧
    key = sourceFileKey settings.uuids (settings.uuids.draw (index + 1)) contentType

theorem Minted.mono {drawn later : Nat} {uploadId : Uuid} {key : Str}
    (minted : Minted settings drawn uploadId key) (grows : drawn ≤ later) :
    Minted settings later uploadId key := by
  rcases minted with ⟨index, contentType, small, rest⟩
  exact ⟨index, contentType, by omega, rest⟩

/-- Each key of the object carries the UUID of a draw. -/
theorem keyOwner_of_mem_objectKeys {index : Nat} {contentType : ContentType} {key : Str}
    {kind : MediaKind}
    (member : key ∈ objectKeys settings.storage ⟨settings.storage.publicUrl
      (sourceFileKey settings.uuids (settings.uuids.draw index) contentType), kind⟩) :
    keyOwner key = settings.uuids.text (settings.uuids.draw index) := by
  have inKeys := objectKeys_subset_imageKeys (settings.storage.keyFromUrl_publicUrl _) member
  exact keyOwner_imageKeys ⟨_, contentType, rfl⟩ inKeys

/-- The object of an upload, by the key it was minted under. -/
def MintedObject (settings : UploadSettings) (drawn : Nat) (uploadId : Uuid)
    (object : StoredObject) : Prop :=
  ∃ key kind, Minted settings drawn uploadId key ∧
    object = ⟨settings.storage.publicUrl key, kind⟩

/-- The objects of different uploads share no key. -/
theorem MintedObject.apart {drawn : Nat} {leftId rightId : Uuid} {left right : StoredObject}
    (leftMinted : MintedObject settings drawn leftId left)
    (rightMinted : MintedObject settings drawn rightId right) (different : leftId ≠ rightId)
    {key : Str} (inLeft : key ∈ objectKeys settings.storage left) :
    key ∉ objectKeys settings.storage right := by
  rcases leftMinted with ⟨_, _, ⟨leftIndex, _, _, rfl, rfl⟩, rfl⟩
  rcases rightMinted with ⟨_, _, ⟨rightIndex, _, _, rfl, rfl⟩, rfl⟩
  intro inRight
  have owners := (keyOwner_of_mem_objectKeys inLeft).symm.trans (keyOwner_of_mem_objectKeys inRight)
  have draws := settings.uuids.draw_injective (settings.uuids.text_injective owners)
  apply different
  rw [Nat.succ_injective draws]

/-- Its keys carry draws that have been made. -/
theorem MintedObject.drawn {drawn : Nat} {uploadId : Uuid} {object : StoredObject}
    (minted : MintedObject settings drawn uploadId object) {key : Str}
    (member : key ∈ objectKeys settings.storage object) :
    ∃ index < drawn, keyOwner key = settings.uuids.text (settings.uuids.draw index) := by
  rcases minted with ⟨_, _, ⟨index, _, small, rfl, rfl⟩, rfl⟩
  exact ⟨index + 1, small, keyOwner_of_mem_objectKeys member⟩

namespace UploadState

variable {state next : UploadState} {actor process : Nat} {running : UploadProcess}

/-! ### What a process owes -/

/-- The process holds no row. -/
structure Rests (state : UploadState) (process : Nat) : Prop where
  uploads : state.uploads.Holdless process
  media : state.media.Holdless process

/-- Deleting the key deletes no staged row's object. -/
def Spares (settings : UploadSettings) (state : UploadState) (key : Str) : Prop :=
  (∃ index < state.drawn, keyOwner key = settings.uuids.text (settings.uuids.draw index)) ∧
    ∀ {uploadId upload}, state.uploads.Shows uploadId upload →
      key ∉ objectKeys settings.storage (uploadObject settings.storage upload)

/-- Nor the object of an attached upload. -/
def Unattached (settings : UploadSettings) (state : UploadState) (key : Str) : Prop :=
  state.Spares settings key ∧
    ∀ attached ∈ state.attached, key ∉ objectKeys settings.storage attached.object

/-- The process has locked the rows of the uploads, and no other. -/
def Locks (state : UploadState) (process : Nat) (found : List Uuid) : Prop :=
  ∀ uploadId, state.uploads.holder uploadId = some process ↔ uploadId ∈ found

/-- Deleting the object deletes no staged row's. -/
def SparesObject (settings : UploadSettings) (state : UploadState) (object : StoredObject) :
    Prop :=
  ∀ key ∈ objectKeys settings.storage object, state.Spares settings key

/-- A write that has locked `found` and attached those not in `left`. -/
structure Attaches (settings : UploadSettings) (state : UploadState) (process : Nat)
    (found left : List Uuid) : Prop where
  locks : state.Locks process found
  nodup : found.Nodup
  remaining : left <:+ found
  attached : ∀ uploadId ∈ found, uploadId ∉ left → state.uploads.read process uploadId = none
  rows : ∀ uploadId ∈ found, ∃ upload, state.uploads.committed uploadId = some upload ∧
    (uploadId ∈ left → state.uploads.read process uploadId = some upload)
  /-- A file the write would add is that of an upload it attached. -/
  media : ∀ {mediaId media}, state.media.holder mediaId = some process →
    state.media.read process mediaId = some media → ∃ uploadId ∈ found, ∃ upload,
      state.uploads.committed uploadId = some upload ∧
        mediaObject media = uploadObject settings.storage upload

theorem Attaches.committed {found left : List Uuid}
    (attaches : state.Attaches settings process found left) :
    ∀ uploadId ∈ found, ∃ upload, state.uploads.committed uploadId = some upload := by
  intro uploadId member
  rcases attaches.rows uploadId member with ⟨upload, committed, _⟩
  exact ⟨upload, committed⟩

/-- A pass of the reaper that has deleted the rows. -/
structure Reaps (settings : UploadSettings) (state : UploadState) (process : Nat)
    (reaped : List (Uuid × StoredObject)) : Prop where
  media : state.media.Holdless process
  deleted : ∀ {uploadId}, state.uploads.holder uploadId = some process →
    state.uploads.read process uploadId = none ∧
      ∃ upload, state.uploads.committed uploadId = some upload
  rows : ∀ entry ∈ reaped, state.uploads.holder entry.1 = some process ∧ ∃ upload,
    state.uploads.committed entry.1 = some upload ∧
      entry.2 = uploadObject settings.storage upload

def Owes (settings : UploadSettings) (state : UploadState) (process : Nat) :
    UploadProcess → Prop
  | .idle | .raised _ | .take _ | .reap => state.Rests process
  | .lockRows _ matched found =>
    state.media.Holdless process ∧ state.Locks process found ∧ (matched ++ found).Nodup ∧
      ∀ uploadId ∈ found, ∃ upload, state.uploads.committed uploadId = some upload ∧
        state.uploads.read process uploadId = some upload
  | .drop _ found _ removed =>
    state.Attaches settings process found found ∧
      (∀ {mediaId}, state.media.holder mediaId = some process →
        state.media.read process mediaId = none) ∧
      ∀ object ∈ removed, state.SparesObject settings object
  | .attach _ found left removed =>
    state.Attaches settings process found left ∧ ∀ object ∈ removed, state.SparesObject settings object
  | .store _ found removed _ proofKeys | .commitWrite _ found removed proofKeys =>
    state.Attaches settings process found [] ∧ (∀ object ∈ removed, state.SparesObject settings object) ∧
      ∀ key ∈ proofKeys, state.Spares settings key
  | .sweepKeys keys | .deleteRemoved keys =>
    state.Rests process ∧ ∀ key ∈ keys, state.Spares settings key
  | .sweepRemoved objects _ => state.Rests process ∧ ∀ object ∈ objects, state.SparesObject settings object
  | .reapRows _ _ reaped | .commitReap reaped => state.Reaps settings process reaped
  | .sweepReaped objects => state.Rests process ∧
    ∀ object ∈ objects, ∀ key ∈ objectKeys settings.storage object,
      state.Unattached settings key
  | .deleteReaped keys => state.Rests process ∧ ∀ key ∈ keys, state.Unattached settings key

/-- The invariant of every run. -/
structure Sound (settings : UploadSettings) (state : UploadState) : Prop where
  indexed : state.uploads.Indexed
  keys : ∀ uploadId ∈ state.uploads.keys,
    ∃ index < state.drawn, uploadId = settings.uuids.draw index
  minted : ∀ {uploadId upload}, state.uploads.Shows uploadId upload → upload.id = uploadId ∧
    MintedObject settings state.drawn uploadId (uploadObject settings.storage upload)
  stored : ∀ {uploadId upload}, state.uploads.Shows uploadId upload →
    state.Stored settings upload
  consumed : ∀ attached ∈ state.attached,
    MintedObject settings state.drawn attached.uploadId attached.object ∧
      ∀ upload, ¬ state.uploads.Shows attached.uploadId upload
  once : (state.attached.map AttachedUpload.uploadId).Nodup
  media : ∀ {mediaId media}, state.media.committed mediaId = some media →
    state.SparesObject settings (mediaObject media)
  owes : ∀ process, state.Owes settings process (state.processes process)

/-! ### What the others leave -/

/-- A step as one of the other processes sees it. -/
structure Evolves (settings : UploadSettings) (actor : Nat) (state next : UploadState) : Prop where
  uploads : Table.StepBy actor state.uploads next.uploads
  media : Table.StepBy actor state.media next.media
  drawn : state.drawn ≤ next.drawn
  /-- A row shown anew names an object under a new draw. -/
  shows' : ∀ {uploadId upload}, next.uploads.Shows uploadId upload →
    state.uploads.Shows uploadId upload ∨
      ∃ index, state.drawn ≤ index ∧
        ∀ key ∈ objectKeys settings.storage (uploadObject settings.storage upload),
          keyOwner key = settings.uuids.text (settings.uuids.draw index)
  /-- What is attached anew was staged. -/
  attached : ∀ attached ∈ next.attached, attached ∈ state.attached ∨
    ∃ upload, state.uploads.Shows attached.uploadId upload ∧
      attached.object = uploadObject settings.storage upload

theorem Spares.evolves {key : Str} (spares : state.Spares settings key)
    (evolves : Evolves settings actor state next) : next.Spares settings key := by
  rcases spares with ⟨⟨index, small, owner⟩, spared⟩
  refine ⟨⟨index, lt_of_lt_of_le small evolves.drawn, owner⟩, ?_⟩
  intro uploadId upload shows' member
  rcases evolves.shows' shows' with before | ⟨fresh, new, owners⟩
  · exact spared before member
  · have same := settings.uuids.draw_injective
      (settings.uuids.text_injective ((owners key member).symm.trans owner))
    omega

theorem Unattached.evolves {key : Str} (unattached : state.Unattached settings key)
    (evolves : Evolves settings actor state next) : next.Unattached settings key := by
  refine ⟨unattached.1.evolves evolves, ?_⟩
  intro attached member
  rcases evolves.attached attached member with before | ⟨upload, shown, isObject⟩
  · exact unattached.2 attached before
  · rw [isObject]
    exact unattached.1.2 shown

theorem SparesObject.evolves {object : StoredObject}
    (spares : state.SparesObject settings object) (evolves : Evolves settings actor state next) :
    next.SparesObject settings object :=
  fun key member => (spares key member).evolves evolves

theorem Rests.evolves (rests : state.Rests process) (evolves : Evolves settings actor state next)
    (other : process ≠ actor) : next.Rests process :=
  ⟨evolves.uploads.holdless other rests.uploads, evolves.media.holdless other rests.media⟩

theorem Locks.evolves {found : List Uuid} (locks : state.Locks process found)
    (evolves : Evolves settings actor state next) (other : process ≠ actor) :
    next.Locks process found :=
  fun uploadId => (evolves.uploads.holder other).trans (locks uploadId)

theorem Attaches.evolves {found left : List Uuid}
    (attaches : state.Attaches settings process found left)
    (evolves : Evolves settings actor state next) (other : process ≠ actor) :
    next.Attaches settings process found left where
  locks := attaches.locks.evolves evolves other
  nodup := attaches.nodup
  remaining := attaches.remaining
  attached uploadId member gone := by
    rw [evolves.uploads.read other ((attaches.locks uploadId).mpr member)]
    exact attaches.attached uploadId member gone
  rows uploadId member := by
    have held := (attaches.locks uploadId).mpr member
    rw [evolves.uploads.committed other held, evolves.uploads.read other held]
    exact attaches.rows uploadId member
  media holds reads := by
    have held := (evolves.media.holder other).mp holds
    rw [evolves.media.read other held] at reads
    rcases attaches.media held reads with ⟨uploadId, member, upload, committed, same⟩
    refine ⟨uploadId, member, upload, ?_, same⟩
    rw [evolves.uploads.committed other ((attaches.locks uploadId).mpr member)]
    exact committed

theorem Reaps.evolves {reaped : List (Uuid × StoredObject)}
    (reaps : state.Reaps settings process reaped) (evolves : Evolves settings actor state next)
    (other : process ≠ actor) : next.Reaps settings process reaped where
  media := evolves.media.holdless other reaps.media
  deleted holds := by
    have held := (evolves.uploads.holder other).mp holds
    rw [evolves.uploads.read other held, evolves.uploads.committed other held]
    exact reaps.deleted held
  rows entry member := by
    rcases reaps.rows entry member with ⟨held, row⟩
    rw [evolves.uploads.holder other, evolves.uploads.committed other held]
    exact ⟨held, row⟩

/-- The steps of the others keep what a process has secured. -/
theorem Owes.evolves (evolves : Evolves settings actor state next) (other : process ≠ actor)
    (owes : state.Owes settings process running) : next.Owes settings process running := by
  have removes' : ∀ {objects : List StoredObject},
      (∀ object ∈ objects, state.SparesObject settings object) → ∀ object ∈ objects,
        next.SparesObject settings object :=
    fun spared object member => (spared object member).evolves evolves
  cases running with
  | idle | raised _ | take _ | reap => exact Rests.evolves owes evolves other
  | lockRows write matched found =>
      rcases owes with ⟨media, locks, nodup, rows⟩
      refine ⟨evolves.media.holdless other media, locks.evolves evolves other, nodup, ?_⟩
      intro uploadId member
      have held := (locks uploadId).mpr member
      rw [evolves.uploads.committed other held, evolves.uploads.read other held]
      exact rows uploadId member
  | drop write found left removed =>
      rcases owes with ⟨attaches, dropped, removes⟩
      refine ⟨attaches.evolves evolves other, ?_, removes' removes⟩
      intro mediaId holds
      have held := (evolves.media.holder other).mp holds
      rw [evolves.media.read other held]
      exact dropped held
  | attach write found left removed =>
      exact ⟨owes.1.evolves evolves other, removes' owes.2⟩
  | store write found removed left proofKeys | commitWrite write found removed proofKeys =>
      exact ⟨owes.1.evolves evolves other, removes' owes.2.1,
        fun key member => (owes.2.2 key member).evolves evolves⟩
  | sweepKeys keys | deleteRemoved keys =>
      exact ⟨owes.1.evolves evolves other, fun key member => (owes.2 key member).evolves evolves⟩
  | sweepRemoved objects displayed => exact ⟨owes.1.evolves evolves other, removes' owes.2⟩
  | reapRows asOf matched reaped | commitReap reaped => exact Reaps.evolves owes evolves other
  | sweepReaped objects =>
      exact ⟨owes.1.evolves evolves other, fun object member key inKeys =>
        (owes.2 object member key inKeys).evolves evolves⟩
  | deleteReaped keys =>
      exact ⟨owes.1.evolves evolves other, fun key member => (owes.2 key member).evolves evolves⟩

/-- A step that changes no table and attaches nothing. -/
theorem Evolves.quiet (actor : Nat) (uploads : next.uploads = state.uploads)
    (media : next.media = state.media) (drawn : state.drawn ≤ next.drawn)
    (attached : next.attached = state.attached) : Evolves settings actor state next where
  uploads := uploads ▸ .refl _
  media := media ▸ .refl _
  drawn := drawn
  shows' shown := by
    rw [uploads] at shown
    exact .inl shown
  attached entry member := by
    rw [attached] at member
    exact .inl member

/-- What a process has secured stands while the tables do: such a step could be
another's. -/
theorem Owes.of_tables (owes : state.Owes settings process running)
    (uploads : next.uploads = state.uploads) (media : next.media = state.media)
    (drawn : state.drawn ≤ next.drawn) (attached : next.attached = state.attached) :
    next.Owes settings process running :=
  owes.evolves (.quiet (process + 1) uploads media drawn attached) (Nat.succ_ne_self process).symm

/-! ### Steps -/

/-- A step of one process is sound when what it writes, keeps and secures is. -/
theorem Sound.acts (sound : state.Sound settings)
    (processes : next.processes = Function.update state.processes process running)
    (evolves : Evolves settings process state next) (indexed : next.uploads.Indexed)
    (keys : ∀ uploadId ∈ next.uploads.keys, uploadId ∈ state.uploads.keys)
    (shows' : ∀ {uploadId upload}, next.uploads.Shows uploadId upload →
      state.uploads.Shows uploadId upload)
    (stored : ∀ {uploadId upload}, state.uploads.Shows uploadId upload →
      next.Stored settings upload)
    (attached : next.attached = state.attached)
    (media : ∀ {mediaId media}, next.media.committed mediaId = some media →
      state.media.committed mediaId = some media)
    (owes : next.Owes settings process running) : next.Sound settings where
  indexed := indexed
  keys uploadId member := by
    rcases sound.keys uploadId (keys uploadId member) with ⟨index, small, same⟩
    exact ⟨index, lt_of_lt_of_le small evolves.drawn, same⟩
  minted shown := by
    rcases sound.minted (shows' shown) with ⟨same, key, kind, minted, isObject⟩
    exact ⟨same, key, kind, minted.mono evolves.drawn, isObject⟩
  stored shown := stored (shows' shown)
  consumed entry member := by
    rw [attached] at member
    rcases sound.consumed entry member with ⟨⟨key, kind, minted, isObject⟩, gone⟩
    exact ⟨⟨key, kind, minted.mono evolves.drawn, isObject⟩, fun upload shown =>
      gone upload (shows' shown)⟩
  once := attached ▸ sound.once
  media committed := (sound.media (media committed)).evolves evolves
  owes reader := by
    rw [processes]
    by_cases mine : reader = process
    · subst mine
      rw [Function.update_self]
      exact owes
    · rw [Function.update_of_ne mine]
      exact (sound.owes reader).evolves evolves mine

/-- A step that only passes time, or pins other URLs. -/
theorem Sound.unmoved (sound : state.Sound settings) (uploads : next.uploads = state.uploads)
    (media : next.media = state.media) (drawn : next.drawn = state.drawn)
    (attached : next.attached = state.attached) (objects : next.objects = state.objects)
    (processes : next.processes = state.processes) : next.Sound settings := by
  have processes' : next.processes =
      Function.update state.processes 0 (state.processes 0) := by
    rw [Function.update_eq_self, processes]
  refine sound.acts processes' (.quiet 0 uploads media drawn.ge attached) ?_ ?_ ?_ ?_ attached ?_
    ((sound.owes 0).of_tables uploads media drawn.ge attached)
  · exact uploads ▸ sound.indexed
  · exact uploads ▸ fun _ => id
  · exact uploads ▸ id
  · intro uploadId upload shown
    rw [Stored, objects]
    exact sound.stored shown
  · exact media ▸ id

/-- A process moves on, and nothing else changes. -/
theorem Sound.moves (sound : state.Sound settings) (process : Nat)
    (owes : state.Owes settings process running) :
    (state.setProcess process running).Sound settings :=
  sound.acts rfl (.quiet process rfl rfl (le_refl _) rfl) sound.indexed (fun _ member => member) id
    (fun shown => sound.stored shown) rfl id (owes.of_tables rfl rfl (le_refl _) rfl)

theorem rests_rollback (state : UploadState) (process : Nat) (running : UploadProcess) :
    (state.rollback process running).Rests process :=
  ⟨Table.holdless_rollback _ _, Table.holdless_rollback _ _⟩

theorem evolves_rollback (state : UploadState) (process : Nat) (running : UploadProcess) :
    Evolves settings process state (state.rollback process running) where
  uploads := .rollback ..
  media := .rollback ..
  drawn := le_refl _
  shows' shown := .inl (Table.Shows.rollback shown)
  attached _ member := .inl member

theorem Sound.rollback (sound : state.Sound settings) (process : Nat)
    (owes : (state.rollback process running).Owes settings process running) :
    (state.rollback process running).Sound settings :=
  sound.acts rfl (evolves_rollback state process running) (sound.indexed.rollback process)
    (fun _ member => member) Table.Shows.rollback (fun shown => sound.stored shown) rfl
    (fun committed => by rwa [UploadState.rollback, Table.committed_rollback] at committed) owes

/-- The proof images of a process are nobody else's. -/
theorem Owes.spares (owes : state.Owes settings process running) :
    ∀ key ∈ running.uploadedKeys, state.Spares settings key := by
  cases running with
  | store write found removed left proofKeys | commitWrite write found removed proofKeys =>
      exact owes.2.2
  | _ => simp [UploadProcess.uploadedKeys]

theorem Sound.fails (sound : state.Sound settings) (process : Nat)
    (owes : ∀ {state}, Rests state process → Owes settings state process running) :
    (state.fails process running).Sound settings := by
  unfold UploadState.fails
  cases uploaded : (state.processes process).uploadedKeys with
  | nil => exact sound.rollback process (owes (rests_rollback ..))
  | cons key keys =>
      refine sound.rollback process ⟨rests_rollback .., ?_⟩
      rw [← uploaded]
      intro other member
      exact ((sound.owes process).spares other member).evolves (evolves_rollback ..)

/-- A row that is held is a committed one. -/
theorem Sound.committed_of_held (sound : state.Sound settings) {uploadId : Uuid}
    (held : state.uploads.holder uploadId = some process) :
    ∃ upload, state.uploads.committed uploadId = some upload := by
  have owes := sound.owes process
  have ofAttaches : ∀ {found left}, state.Attaches settings process found left →
      ∃ upload, state.uploads.committed uploadId = some upload := by
    intro found left attaches
    exact attaches.committed uploadId ((attaches.locks uploadId).mp held)
  cases running : state.processes process with
  | idle | raised _ | take _ | reap =>
      rw [running] at owes
      exact absurd held (owes.uploads uploadId)
  | sweepKeys _ | sweepRemoved _ _ | deleteRemoved _ | sweepReaped _ | deleteReaped _ =>
      rw [running] at owes
      exact absurd held (owes.1.uploads uploadId)
  | lockRows write matched found =>
      rw [running] at owes
      rcases owes with ⟨_, locks, _, rows⟩
      rcases rows uploadId ((locks uploadId).mp held) with ⟨upload, committed, _⟩
      exact ⟨upload, committed⟩
  | drop _ _ _ _ | attach _ _ _ _ | store _ _ _ _ _ | commitWrite _ _ _ _ =>
      rw [running] at owes
      exact ofAttaches owes.1
  | reapRows _ _ _ | commitReap _ =>
      rw [running] at owes
      exact (owes.deleted held).2

theorem Sound.unlisted_draw (sound : state.Sound settings) :
    settings.uuids.draw state.drawn ∉ state.uploads.keys := by
  intro member
  rcases sound.keys _ member with ⟨index, small, same⟩
  have equal := settings.uuids.draw_injective same
  omega

/-- Nobody holds a row under a draw that has not been made. -/
theorem Sound.holder_draw (sound : state.Sound settings) :
    state.uploads.holder (settings.uuids.draw state.drawn) = none := by
  cases held : state.uploads.holder (settings.uuids.draw state.drawn) with
  | none => rfl
  | some process =>
      rcases sound.committed_of_held held with ⟨upload, committed⟩
      exact absurd (sound.indexed.listed _ _ (.of_committed committed)) sound.unlisted_draw

/-! ### Staging -/

theorem Sound.stage (sound : state.Sound settings) {uploaderId : Uuid} {kind : MediaKind}
    {contentType : ContentType} {sha256 : Str} {originalFilename : Option Str}
    (staged : state.stage settings uploaderId kind contentType sha256 originalFilename =
      .ok next) : next.Sound settings := by
  unfold UploadState.stage at staged
  simp only at staged
  split at staged
  · contradiction
  · cases staged
    set upload : Upload :=
      { id := settings.uuids.draw state.drawn
        uploaderId := uploaderId
        storageKey :=
          sourceFileKey settings.uuids (settings.uuids.draw (state.drawn + 1)) contentType
        kind := kind
        sha256 := sha256
        originalFilename := originalFilename
        expiresAt := state.now + uploadTtl } with isUpload
    set next : UploadState :=
      { state with
        drawn := state.drawn + 2
        uploads := state.uploads.put upload.id (some upload)
        objects := state.objects ++
          objectKeys settings.storage (uploadObject settings.storage upload) } with isNext
    have grows : state.drawn ≤ next.drawn := Nat.le_add_right ..
    have shows' : ∀ {uploadId row}, next.uploads.Shows uploadId row →
        uploadId = upload.id ∧ row = upload ∨ state.uploads.Shows uploadId row := by
      intro uploadId row shown
      rcases Table.Shows.put shown with ⟨here, same⟩ | ⟨_, before⟩
      · exact .inl ⟨here, (Option.some.inj same).symm⟩
      · exact .inr before
    have evolves : ∀ actor, Evolves settings actor state next := by
      intro actor
      refine ⟨.put sound.holder_draw _ _, .refl _, grows, ?_, fun _ => .inl⟩
      intro uploadId row shown
      rcases shows' shown with ⟨_, rfl⟩ | before
      · exact .inr ⟨state.drawn + 1, by omega, fun key member => keyOwner_of_mem_objectKeys member⟩
      · exact .inl before
    constructor
    · exact sound.indexed.put sound.unlisted_draw _
    · intro uploadId member
      rcases List.mem_cons.mp member with rfl | old
      · exact ⟨state.drawn, Nat.lt_add_of_pos_right two_pos, rfl⟩
      · rcases sound.keys uploadId old with ⟨index, small, same⟩
        exact ⟨index, lt_of_lt_of_le small grows, same⟩
    · intro uploadId row shown
      rcases shows' shown with ⟨rfl, rfl⟩ | before
      · exact ⟨rfl, _, _, ⟨state.drawn, contentType, Nat.lt_succ_self _, rfl, rfl⟩, rfl⟩
      · rcases sound.minted before with ⟨same, key, kind, minted, isObject⟩
        exact ⟨same, key, kind, minted.mono grows, isObject⟩
    · intro uploadId row shown key member
      rcases shows' shown with ⟨_, rfl⟩ | before
      · exact List.mem_append_right _ member
      · exact List.mem_append_left _ (sound.stored before key member)
    · intro attached member
      rcases sound.consumed attached member with ⟨⟨key, kind, minted, isObject⟩, gone⟩
      refine ⟨⟨key, kind, minted.mono grows, isObject⟩, ?_⟩
      intro row shown
      rcases shows' shown with ⟨here, _⟩ | before
      · rcases minted with ⟨index, _, small, isId, _⟩
        have equal := settings.uuids.draw_injective (isId.symm.trans here)
        omega
      · exact gone row before
    · exact sound.once
    · intro mediaId media committed
      exact (sound.media committed).evolves (evolves 0)
    · intro reader
      exact (sound.owes reader).evolves (evolves (reader + 1)) (Nat.succ_ne_self reader).symm

/-! ### Taking and attaching -/

/-- A write of a row's own value, or of none, shows nothing anew. -/
theorem shows_of_write {uploadId other : Uuid} {value : Option Upload} {upload : Upload}
    (old : ∀ {row}, value = some row → state.uploads.Shows uploadId row)
    (shown : (state.uploads.write process uploadId value).Shows other upload) :
    state.uploads.Shows other upload := by
  rcases shown.write with before | ⟨rfl, written⟩
  · exact before
  · exact old written

/-- A step of one process that writes one staged row, as the others see it. -/
theorem evolves_write {uploadId : Uuid} {value : Option Upload}
    (free : state.uploads.Free process uploadId)
    (old : ∀ {row}, value = some row → state.uploads.Shows uploadId row)
    (uploads : next.uploads = state.uploads.write process uploadId value)
    (media : Table.StepBy process state.media next.media)
    (drawn : state.drawn ≤ next.drawn) (attached : next.attached = state.attached) :
    Evolves settings process state next where
  uploads := uploads ▸ .write value free
  media := media
  drawn := drawn
  shows' shown := by
    rw [uploads] at shown
    exact .inl (shows_of_write old shown)
  attached entry member := by
    rw [attached] at member
    exact .inl member

theorem Sound.writes (sound : state.Sound settings) {uploadId : Uuid} {value : Option Upload}
    {before : Upload} (shown : state.uploads.Shows uploadId before)
    (old : ∀ {row}, value = some row → state.uploads.Shows uploadId row)
    (evolves : Evolves settings process state next)
    (processes : next.processes = Function.update state.processes process running)
    (uploads : next.uploads = state.uploads.write process uploadId value)
    (media : ∀ mediaId, next.media.committed mediaId = state.media.committed mediaId)
    (objects : next.objects = state.objects) (attached : next.attached = state.attached)
    (owes : next.Owes settings process running) : next.Sound settings := by
  refine sound.acts processes evolves ?_ ?_ ?_ ?_ attached ?_ owes
  · rw [uploads]
    exact sound.indexed.write uploadId value
  · intro other member
    rw [uploads] at member
    exact sound.indexed.listed.mem_keys_write shown process value member
  · intro other upload shown
    rw [uploads] at shown
    exact shows_of_write old shown
  · intro other upload shown
    rw [Stored, objects]
    exact sound.stored shown
  · intro mediaId media'
    rw [media]
    exact id

theorem Locks.lock {found : List Uuid} (locks : state.Locks process found) {uploadId : Uuid}
    (uploads : next.uploads = state.uploads.lock process uploadId) :
    next.Locks process (found ++ [uploadId]) := by
  intro other
  rw [uploads, Table.lock, Table.holder_write, List.mem_append, List.mem_singleton]
  split
  · rename_i here
    simp [here]
  · rename_i elsewhere
    rw [locks other]
    simp [elsewhere]

theorem Sound.lockRow (sound : state.Sound settings) {write : FileWrite} {uploadId : Uuid}
    {matched found : List Uuid}
    (running : state.processes process = .lockRows write (uploadId :: matched) found)
    (stepped : state.lockRow process write uploadId matched found = .ok next) :
    next.Sound settings := by
  have owes := sound.owes process
  rw [running] at owes
  rcases owes with ⟨media, locks, nodup, rows⟩
  have distinct : (matched ++ (found ++ [uploadId])).Nodup := by
    rw [← List.append_assoc]
    exact (List.perm_append_singleton ..).nodup_iff.mpr nodup
  unfold UploadState.lockRow at stepped
  split at stepped
  · contradiction
  · rename_i free
    rw [not_not] at free
    split at stepped
    · rename_i taken
      cases stepped
      rcases (Option.any_eq_true ..).mp taken with ⟨upload, reads, _⟩
      have unlocked : uploadId ∉ found := by
        intro member
        exact (List.nodup_cons.mp nodup).1 (List.mem_append_right _ member)
      have unheld : state.uploads.holder uploadId ≠ some process :=
        fun held => unlocked ((locks uploadId).mp held)
      have committed : state.uploads.committed uploadId = some upload := by
        rw [← Table.read_of_holder_ne _ _ unheld]
        exact reads
      refine sound.writes (.of_read reads) .of_read
        (evolves_write free .of_read rfl (.refl _) (le_refl _) rfl) rfl rfl (fun _ => rfl) rfl rfl
        ⟨media, locks.lock rfl, distinct, ?_⟩
      · intro other member
        show ∃ upload, (state.uploads.lock process uploadId).committed other = some upload ∧
          (state.uploads.lock process uploadId).read process other = some upload
        rw [Table.read_lock, Table.lock, Table.committed_write]
        rcases List.mem_append.mp member with old | new
        · exact rows other old
        · rw [List.mem_singleton.mp new]
          exact ⟨upload, committed, reads⟩
    · cases stepped
      refine sound.moves process ⟨media, locks, ?_, rows⟩
      exact (List.nodup_cons.mp nodup).2

theorem Sound.checkTaken (sound : state.Sound settings) {write : FileWrite} {found : List Uuid}
    (running : state.processes process = .lockRows write [] found) :
    (state.checkTaken process write found).Sound settings := by
  have owes := sound.owes process
  rw [running] at owes
  rcases owes with ⟨media, locks, nodup, rows⟩
  unfold UploadState.checkTaken
  split
  · exact sound.rollback process (rests_rollback ..)
  · split
    · exact sound.rollback process (rests_rollback ..)
    · refine sound.moves process ⟨⟨locks, nodup, List.suffix_rfl, ?_, ?_, ?_⟩, ?_, by simp⟩
      · intro uploadId member gone
        exact absurd member gone
      · intro uploadId member
        rcases rows uploadId member with ⟨upload, committed, reads⟩
        exact ⟨upload, committed, fun _ => reads⟩
      · intro mediaId _ holds
        exact absurd holds (media mediaId)
      · intro mediaId holds
        exact absurd holds (media mediaId)

theorem Sound.dropRow (sound : state.Sound settings) {write : FileWrite} {mediaId : Uuid}
    {found left : List Uuid} {removed : List StoredObject}
    (running : state.processes process = .drop write found (mediaId :: left) removed)
    (stepped : state.dropRow process write mediaId found left removed = .ok next) :
    next.Sound settings := by
  have owes := sound.owes process
  rw [running] at owes
  rcases owes with ⟨attaches, dropped, removes⟩
  unfold UploadState.dropRow at stepped
  split at stepped
  · contradiction
  · rename_i free
    rw [not_not] at free
    split at stepped
    · cases stepped
      exact sound.moves process ⟨attaches, dropped, removes⟩
    · rename_i media reads
      cases stepped
      have unheld : state.media.holder mediaId ≠ some process := by
        intro holds
        rw [dropped holds] at reads
        contradiction
      have spares : state.SparesObject settings (mediaObject media) := by
        rw [Table.read_of_holder_ne _ _ unheld] at reads
        exact sound.media reads
      have gone : ∀ {other}, (state.media.write process mediaId none).holder other = some process →
          (state.media.write process mediaId none).read process other = none := by
        intro other holds
        rw [Table.holder_write] at holds
        rw [Table.read_write, if_pos rfl]
        split
        · rfl
        · rename_i elsewhere
          rw [if_neg elsewhere] at holds
          exact dropped holds
      have evolves : Evolves settings process state
          { state.setProcess process (.drop write found left (mediaObject media :: removed)) with
            media := state.media.write process mediaId none } :=
        ⟨.refl _, .write none free, le_refl _, .inl, fun _ => .inl⟩
      refine sound.acts rfl evolves sound.indexed (fun _ => id) id
        (fun shown => sound.stored shown) rfl ?_ ⟨⟨attaches.locks, attaches.nodup,
          attaches.remaining, attaches.attached, attaches.rows, ?_⟩, gone, ?_⟩
      · intro other row committed
        rwa [Table.committed_write] at committed
      · intro other row holds reads
        rw [gone holds] at reads
        contradiction
      · intro object member
        rcases List.mem_cons.mp member with rfl | old
        · exact spares
        · exact removes object old

/-- Attaching a taken row deletes it, and adds its file. -/
theorem Attaches.attach {uploadId mediaId : Uuid} {found left : List Uuid} {upload : Upload}
    (attaches : state.Attaches settings process found (uploadId :: left))
    (reads : state.uploads.read process uploadId = some upload)
    (uploads : next.uploads = state.uploads.write process uploadId none)
    (media : next.media = state.media.write process mediaId
      (some (attachedMedia settings mediaId upload))) :
    next.Attaches settings process found left := by
  have member : uploadId ∈ found := attaches.remaining.subset List.mem_cons_self
  have remaining : left <:+ found := (List.suffix_cons uploadId left).trans attaches.remaining
  have fresh : uploadId ∉ left :=
    (List.nodup_cons.mp (attaches.nodup.sublist attaches.remaining.sublist)).1
  have committed : state.uploads.committed uploadId = some upload := by
    rcases attaches.rows uploadId member with ⟨row, committed, unread⟩
    have same := unread List.mem_cons_self
    rw [reads] at same
    rw [committed, same]
  refine ⟨?_, attaches.nodup, remaining, ?_, ?_, ?_⟩
  · intro other
    rw [uploads, Table.holder_write]
    split
    · rename_i here
      simp [here, member]
    · exact attaches.locks other
  · intro other isFound gone
    rw [uploads, Table.read_write, if_pos rfl]
    split
    · rfl
    · rename_i elsewhere
      exact attaches.attached other isFound (by simp [elsewhere, gone])
  · intro other isFound
    rcases attaches.rows other isFound with ⟨row, isRow, unread⟩
    refine ⟨row, by rw [uploads, Table.committed_write, isRow], ?_⟩
    intro isLeft
    have elsewhere : other ≠ uploadId := by
      rintro rfl
      exact fresh isLeft
    rw [uploads, Table.read_write, if_neg elsewhere]
    exact unread (List.mem_cons_of_mem _ isLeft)
  · intro other row holds isRead
    rw [media, Table.holder_write] at holds
    rw [media, Table.read_write, if_pos rfl] at isRead
    split at isRead
    · cases isRead
      refine ⟨uploadId, member, upload, ?_, rfl⟩
      rw [uploads, Table.committed_write, committed]
    · rename_i elsewhere
      rw [if_neg elsewhere] at holds
      rcases attaches.media holds isRead with ⟨source, isFound, staged, isRow, same⟩
      refine ⟨source, isFound, staged, ?_, same⟩
      rw [uploads, Table.committed_write, isRow]

theorem Sound.attachRow (sound : state.Sound settings) {write : FileWrite} {uploadId : Uuid}
    {found left : List Uuid} {removed : List StoredObject}
    (running : state.processes process = .attach write found (uploadId :: left) removed)
    (stepped : state.attachRow settings process write uploadId found left removed = .ok next) :
    next.Sound settings := by
  have owes := sound.owes process
  rw [running] at owes
  rcases owes with ⟨attaches, removes⟩
  unfold UploadState.attachRow at stepped
  simp only at stepped
  split at stepped
  · contradiction
  · rename_i free
    rw [not_or, not_not, not_not] at free
    split at stepped
    · cases stepped
      exact sound.fails process id
    · rename_i upload reads
      cases stepped
      set next : UploadState :=
        { state.setProcess process (.attach write found left removed) with
          drawn := state.drawn + 1
          uploads := state.uploads.write process uploadId none
          media := state.media.write process (settings.uuids.draw state.drawn)
            (some (attachedMedia settings (settings.uuids.draw state.drawn) upload)) }
      have evolves : Evolves settings process state next :=
        evolves_write free.1 (by simp) rfl (.write _ free.2) (Nat.le_succ _) rfl
      exact sound.writes (.of_read reads) (by simp) evolves rfl rfl
        (fun _ => Table.committed_write ..) rfl rfl ⟨attaches.attach reads rfl rfl,
          fun object member => (removes object member).evolves evolves⟩

/-- The key of a new proof image is nobody's. -/
theorem Sound.spares_proofImageKey (sound : state.Sound settings) (userId : Uuid)
    (uploads : next.uploads = state.uploads) (drawn : next.drawn = state.drawn + 1) :
    next.Spares settings
      (proofImageKey settings.uuids userId (settings.uuids.draw state.drawn) .jpeg) := by
  have owner : keyOwner (proofImageKey settings.uuids userId
      (settings.uuids.draw state.drawn) .jpeg) =
        settings.uuids.text (settings.uuids.draw state.drawn) :=
    keyOwner_mintedKey _ _ _
  refine ⟨⟨state.drawn, by omega, owner⟩, ?_⟩
  intro uploadId upload shown member
  rw [uploads] at shown
  rcases (sound.minted shown).2.drawn member with ⟨index, small, owned⟩
  have same := settings.uuids.draw_injective (settings.uuids.text_injective (owned.symm.trans owner))
  omega

theorem Sound.storeProof (sound : state.Sound settings) {write : FileWrite} {found : List Uuid}
    {removed : List StoredObject} {left : Nat} {proofKeys : List Str}
    (running : state.processes process = .store write found removed (left + 1) proofKeys) :
    (state.storeProof settings process write found removed left proofKeys).Sound settings := by
  have owes := sound.owes process
  rw [running] at owes
  set next := state.storeProof settings process write found removed left proofKeys with isNext
  have grows : state.drawn ≤ next.drawn := Nat.le_succ _
  have evolves : ∀ actor, Evolves settings actor state next :=
    fun actor => .quiet actor rfl rfl grows rfl
  have stands : next.Owes settings process (.store write found removed (left + 1) proofKeys) :=
    owes.of_tables rfl rfl grows rfl
  rcases stands with ⟨attaches, removes, spared⟩
  refine sound.acts rfl (evolves process) sound.indexed (fun _ => id) id ?_ rfl id
    ⟨attaches, removes, ?_⟩
  · intro uploadId upload shown key member
    exact List.mem_append_left _ (sound.stored shown key member)
  · intro key member
    rcases List.mem_cons.mp member with rfl | old
    · exact sound.spares_proofImageKey write.uploaderId rfl rfl
    · exact spared key old

/-! ### The commit of a write -/

/-- Once its row is gone, the object of an upload is no staged row's. -/
theorem Sound.spares_gone (sound : state.Sound settings) {uploadId : Uuid} {upload : Upload}
    (committed : state.uploads.committed uploadId = some upload)
    (drawn : next.drawn = state.drawn)
    (shows' : ∀ {other row}, next.uploads.Shows other row → state.uploads.Shows other row)
    (gone : ∀ row, ¬ next.uploads.Shows uploadId row) :
    next.SparesObject settings (uploadObject settings.storage upload) := by
  have minted := (sound.minted (.of_committed committed)).2
  intro key inKeys
  refine ⟨drawn ▸ minted.drawn inKeys, ?_⟩
  intro other row shown
  refine minted.apart (sound.minted (shows' shown)).2 ?_ inKeys
  rintro rfl
  exact gone row shown

theorem mem_attached_commitWrite {write : FileWrite} {found : List Uuid}
    {removed : List StoredObject} {entry : AttachedUpload} :
    entry ∈ (state.commitWrite settings process write found removed).attached ↔
      (∃ uploadId ∈ found, ∃ upload, state.uploads.committed uploadId = some upload ∧
        entry = ⟨uploadId, uploadObject settings.storage upload⟩) ∨ entry ∈ state.attached := by
  unfold UploadState.commitWrite objectOf?
  simp only [List.mem_append, List.mem_filterMap, Option.map_eq_some_iff]
  apply or_congr_left
  constructor
  · rintro ⟨uploadId, isFound, upload, committed, same⟩
    exact ⟨uploadId, isFound, upload, committed, same.symm⟩
  · rintro ⟨uploadId, isFound, upload, committed, same⟩
    exact ⟨uploadId, isFound, upload, committed, same.symm⟩

/-- The uploads a commit attaches are the ones it found. -/
theorem map_uploadId_objectOf? {found : List Uuid}
    (rows : ∀ uploadId ∈ found, ∃ upload, state.uploads.committed uploadId = some upload) :
    (found.filterMap (state.objectOf? settings)).map AttachedUpload.uploadId = found := by
  induction found with
  | nil => rfl
  | cons uploadId found inductionHypothesis =>
      rcases rows uploadId List.mem_cons_self with ⟨upload, committed⟩
      have object : state.objectOf? settings uploadId =
          some ⟨uploadId, uploadObject settings.storage upload⟩ := by
        rw [objectOf?, committed, Option.map_some]
      rw [List.filterMap_cons_some object, List.map_cons,
        inductionHypothesis fun other member => rows other (List.mem_cons_of_mem _ member)]

theorem evolves_commit (state : UploadState) (process : Nat) (running : UploadProcess) :
    Evolves settings process state (state.commit process running) where
  uploads := .commit ..
  media := .commit ..
  drawn := le_refl _
  shows' shown := .inl (Table.Shows.commit shown)
  attached _ member := .inl member

theorem rests_commit (state : UploadState) (process : Nat) (running : UploadProcess) :
    (state.commit process running).Rests process :=
  ⟨Table.holdless_commit _ _, Table.holdless_commit _ _⟩

theorem Sound.commitWrite (sound : state.Sound settings) {write : FileWrite} {found : List Uuid}
    {removed : List StoredObject} {proofKeys : List Str}
    (running : state.processes process = .commitWrite write found removed proofKeys) :
    (state.commitWrite settings process write found removed).Sound settings := by
  have owes := sound.owes process
  rw [running] at owes
  rcases owes with ⟨attaches, removes, _⟩
  set next := state.commitWrite settings process write found removed with isNext
  have evolves : Evolves settings process state next := by
    refine ⟨.commit .., .commit .., le_refl _, fun shown => .inl (Table.Shows.commit shown), ?_⟩
    intro entry member
    rcases mem_attached_commitWrite.mp member with ⟨uploadId, _, upload, committed, rfl⟩ | old
    · exact .inr ⟨upload, .of_committed committed, rfl⟩
    · exact .inl old
  have gone : ∀ {uploadId}, uploadId ∈ found → ∀ row, ¬ next.uploads.Shows uploadId row := by
    intro uploadId isFound row shown
    have reads := Table.Shows.commit_held ((attaches.locks uploadId).mpr isFound) shown
    rw [attaches.attached uploadId isFound (by simp)] at reads
    contradiction
  have newest : (found.filterMap (state.objectOf? settings)).map AttachedUpload.uploadId = found :=
    map_uploadId_objectOf? attaches.committed
  constructor
  · exact sound.indexed.commit process
  · exact sound.keys
  · intro uploadId upload shown
    exact sound.minted (Table.Shows.commit shown)
  · intro uploadId upload shown
    exact sound.stored (Table.Shows.commit shown)
  · intro entry member
    rcases mem_attached_commitWrite.mp member with ⟨uploadId, isFound, upload, committed, rfl⟩ | old
    · exact ⟨(sound.minted (.of_committed committed)).2, gone isFound⟩
    · refine ⟨(sound.consumed entry old).1, ?_⟩
      intro row shown
      exact (sound.consumed entry old).2 row (Table.Shows.commit shown)
  · show ((found.filterMap (state.objectOf? settings) ++ state.attached).map
      AttachedUpload.uploadId).Nodup
    rw [List.map_append, newest]
    refine List.nodup_append.mpr ⟨attaches.nodup, sound.once, ?_⟩
    rintro uploadId isFound other isOld rfl
    rcases List.mem_map.mp isOld with ⟨entry, member, rfl⟩
    rcases attaches.rows entry.uploadId isFound with ⟨upload, committed, _⟩
    exact (sound.consumed entry member).2 upload (.of_committed committed)
  · intro mediaId media committed
    have reads : state.media.read process mediaId = some media := by
      rw [← Table.committed_commit]
      exact committed
    by_cases holds : state.media.holder mediaId = some process
    · rcases attaches.media holds reads with ⟨uploadId, isFound, upload, isRow, same⟩
      rw [same]
      exact sound.spares_gone isRow rfl (fun shown => Table.Shows.commit shown) (gone isFound)
    · rw [Table.read_of_holder_ne _ _ holds] at reads
      exact (sound.media reads).evolves evolves
  · intro reader
    by_cases mine : reader = process
    · subst mine
      have processes : next.processes reader = .sweepRemoved removed write.displayed :=
        Function.update_self ..
      rw [processes]
      exact ⟨⟨Table.holdless_commit _ _, Table.holdless_commit _ _⟩, fun object member => (removes object member).evolves evolves⟩
    · have processes : next.processes reader = state.processes reader :=
        Function.update_of_ne mine ..
      rw [processes]
      exact (sound.owes reader).evolves evolves mine

/-! ### Sweeping -/

/-- A sweep keeps the object of every staged row. -/
theorem Sound.delete (sound : state.Sound settings) {keys : List Str}
    (rests : state.Rests process)
    (spared : ∀ {uploadId upload}, state.uploads.Shows uploadId upload →
      ∀ key ∈ objectKeys settings.storage (uploadObject settings.storage upload), key ∉ keys) :
    (state.delete process keys).Sound settings := by
  refine sound.acts rfl (.quiet process rfl rfl (le_refl _) rfl) sound.indexed (fun _ => id) id
    ?_ rfl id (Rests.mk rests.uploads rests.media)
  intro uploadId upload shown key member
  have absent := spared shown key member
  simp only [UploadState.delete, List.mem_filter, decide_eq_true_eq]
  exact ⟨sound.stored shown key member, absent⟩

theorem mem_sweptKeys {objects : List StoredObject} {displayed : List Str} {key : Str}
    (member : key ∈ state.sweptKeys settings process objects displayed) :
    ∃ object ∈ objects, key ∈ objectKeys settings.storage object := by
  rcases List.mem_flatMap.mp member with ⟨object, kept, inKeys⟩
  exact ⟨object, List.mem_of_mem_filter kept, inKeys⟩

/-! ### Reaping -/

theorem Sound.reapRow (sound : state.Sound settings) {asOf : Instant} {uploadId : Uuid}
    {matched : List Uuid} {reaped : List (Uuid × StoredObject)}
    (running : state.processes process = .reapRows asOf (uploadId :: matched) reaped)
    (stepped : state.reapRow settings process asOf uploadId matched reaped = .ok next) :
    next.Sound settings := by
  have owes := sound.owes process
  rw [running] at owes
  rcases owes with ⟨media, deleted, rows⟩
  unfold UploadState.reapRow at stepped
  split at stepped
  · contradiction
  · rename_i free
    rw [not_not] at free
    split at stepped
    · cases stepped
      exact sound.moves process ⟨media, deleted, rows⟩
    · rename_i upload reads
      split at stepped
      · cases stepped
        have unheld : state.uploads.holder uploadId ≠ some process := by
          intro holds
          rw [(deleted holds).1] at reads
          contradiction
        have committed : state.uploads.committed uploadId = some upload := by
          rw [← Table.read_of_holder_ne _ _ unheld]
          exact reads
        refine sound.writes (.of_read reads) (by simp)
          (evolves_write free (by simp) rfl (.refl _) (le_refl _) rfl) rfl rfl (fun _ => rfl) rfl
          rfl ⟨media, ?_, ?_⟩
        · intro other holds
          simp only [Table.holder_write] at holds
          simp only [Table.read_write, Table.committed_write, ↓reduceIte]
          split
          · rename_i here
            exact ⟨rfl, upload, here ▸ committed⟩
          · rename_i elsewhere
            rw [if_neg elsewhere] at holds
            exact deleted holds
        · intro entry member
          simp only [Table.holder_write, Table.committed_write]
          rcases List.mem_cons.mp member with rfl | old
          · exact ⟨if_pos rfl, upload, committed, rfl⟩
          · refine ⟨?_, (rows entry old).2⟩
            split
            · rfl
            · exact (rows entry old).1
      · cases stepped
        exact sound.moves process ⟨media, deleted, rows⟩

/-- The commit of the reaper leaves its objects to nobody. -/
theorem Sound.commitReap (sound : state.Sound settings) {reaped : List (Uuid × StoredObject)}
    (running : state.processes process = .commitReap reaped) :
    (state.commit process (.sweepReaped (reaped.map Prod.snd))).Sound settings := by
  have owes := sound.owes process
  rw [running] at owes
  rcases owes with ⟨holdless, deleted, rows⟩
  refine sound.acts rfl (evolves_commit state process _) (sound.indexed.commit process)
    (fun _ => id) Table.Shows.commit (fun shown => sound.stored shown) rfl ?_
    ⟨rests_commit .., ?_⟩
  · intro mediaId media committed
    rw [UploadState.commit, Table.committed_commit] at committed
    rw [← Table.read_of_holdless _ process holdless]
    exact committed
  · intro object member key inKeys
    rcases List.mem_map.mp member with ⟨entry, isReaped, rfl⟩
    rcases rows entry isReaped with ⟨held, upload, committed, same⟩
    rw [same] at inKeys
    have gone : ∀ row, ¬ (state.uploads.commit process).Shows entry.1 row := by
      intro row shown
      have reads := Table.Shows.commit_held held shown
      rw [(deleted held).1] at reads
      contradiction
    have spares : (state.commit process (.sweepReaped (reaped.map Prod.snd))).SparesObject settings
        (uploadObject settings.storage upload) :=
      sound.spares_gone committed rfl Table.Shows.commit gone
    refine ⟨spares key inKeys, ?_⟩
    intro attached isAttached
    rcases sound.consumed attached isAttached with ⟨minted, unshown⟩
    refine (sound.minted (.of_committed committed)).2.apart minted ?_ inKeys
    intro here
    rw [here] at committed
    exact unshown upload (.of_committed committed)

/-! ### Runs -/

theorem runProcess_sound (sound : state.Sound settings)
    (stepped : state.runProcess settings process = .ok next) : next.Sound settings := by
  have owes := sound.owes process
  unfold runProcess at stepped
  cases running : state.processes process with
  | idle | raised refusal =>
      simp only [running] at stepped
      contradiction
  | take write =>
      simp only [running, Except.ok.injEq] at stepped owes
      subst stepped
      refine sound.moves process ⟨owes.media, ?_, ?_, by simp⟩
      · intro uploadId
        simp [owes.uploads uploadId]
      · rw [List.append_nil]
        exact sound.indexed.select _
  | lockRows write matched found =>
      cases matched with
      | nil =>
          simp only [running, Except.ok.injEq] at stepped
          subst stepped
          exact sound.checkTaken running
      | cons uploadId matched =>
          simp only [running] at stepped
          exact sound.lockRow running stepped
  | drop write found left removed =>
      cases left with
      | nil =>
          simp only [running, Except.ok.injEq] at stepped owes
          subst stepped
          exact sound.moves process ⟨owes.1, owes.2.2⟩
      | cons mediaId left =>
          simp only [running] at stepped
          exact sound.dropRow running stepped
  | attach write found left removed =>
      cases left with
      | nil =>
          simp only [running, Except.ok.injEq] at stepped owes
          subst stepped
          exact sound.moves process ⟨owes.1, owes.2, by simp⟩
      | cons uploadId left =>
          simp only [running] at stepped
          exact sound.attachRow running stepped
  | store write found removed left proofKeys =>
      cases left with
      | zero =>
          simp only [running, Except.ok.injEq] at stepped owes
          subst stepped
          exact sound.moves process owes
      | succ left =>
          simp only [running, Except.ok.injEq] at stepped
          subst stepped
          exact sound.storeProof running
  | commitWrite write found removed proofKeys =>
      simp only [running, Except.ok.injEq] at stepped
      subst stepped
      exact sound.commitWrite running
  | sweepKeys keys | deleteRemoved keys =>
      simp only [running, Except.ok.injEq] at stepped owes
      subst stepped
      refine sound.delete owes.1 ?_
      intro uploadId upload shown key member swept
      exact (owes.2 key swept).2 shown member
  | sweepRemoved objects displayed =>
      simp only [running, Except.ok.injEq] at stepped owes
      subst stepped
      refine sound.moves process ⟨owes.1, ?_⟩
      intro key swept
      rcases mem_sweptKeys swept with ⟨object, isRemoved, inKeys⟩
      exact owes.2 object isRemoved key inKeys
  | reap =>
      simp only [running, Except.ok.injEq] at stepped owes
      subst stepped
      refine sound.moves process ⟨owes.media, ?_, by simp⟩
      intro uploadId holds
      exact absurd holds (owes.uploads uploadId)
  | reapRows asOf matched reaped =>
      cases matched with
      | nil =>
          simp only [running, Except.ok.injEq] at stepped owes
          subst stepped
          exact sound.moves process owes
      | cons uploadId matched =>
          simp only [running] at stepped
          exact sound.reapRow running stepped
  | commitReap reaped =>
      simp only [running, Except.ok.injEq] at stepped
      subst stepped
      exact sound.commitReap running
  | sweepReaped objects =>
      simp only [running, Except.ok.injEq] at stepped owes
      subst stepped
      refine sound.moves process ⟨owes.1, ?_⟩
      intro key swept
      rcases mem_sweptKeys swept with ⟨object, isReaped, inKeys⟩
      exact owes.2 object isReaped key inKeys
  | deleteReaped keys =>
      simp only [running, Except.ok.injEq] at stepped owes
      subst stepped
      refine sound.delete owes.1 ?_
      intro uploadId upload shown key member swept
      exact (owes.2 key swept).1.2 shown member

theorem Sound.starts (sound : state.Sound settings)
    (owes : state.Rests process → state.Owes settings process running)
    (stepped : state.start process running = .ok next) : next.Sound settings := by
  unfold start at stepped
  split at stepped
  · rename_i ended
    cases stepped
    refine sound.moves process (owes ?_)
    have rests := sound.owes process
    cases before : state.processes process with
    | idle | raised refusal =>
        rw [before] at rests
        exact rests
    | _ =>
        rw [before] at ended
        contradiction
  · contradiction

theorem Sound.step (sound : state.Sound settings) {label : UploadLabel}
    (stepped : UploadState.step settings label state = .ok next) : next.Sound settings := by
  unfold UploadState.step at stepped
  cases label with
  | tick later =>
      simp only at stepped
      split at stepped
      · contradiction
      · cases stepped
        exact sound.unmoved rfl rfl rfl rfl rfl rfl
  | stage uploaderId kind contentType sha256 originalFilename => exact sound.stage stepped
  | pin pinned =>
      cases stepped
      exact sound.unmoved rfl rfl rfl rfl rfl rfl
  | write process write => exact sound.starts id stepped
  | reap process => exact sound.starts id stepped
  | run process => exact runProcess_sound sound stepped
  | fail process =>
      cases stepped
      exact sound.fails process id

theorem Initial.sound (initial : state.Initial settings) : state.Sound settings := by
  have unshown : ∀ {uploadId upload}, ¬ state.uploads.Shows uploadId upload := by
    rw [initial.uploads]
    rintro uploadId upload (committed | ⟨reader, reads⟩)
    · exact absurd committed (Option.some_ne_none _).symm
    · exact absurd reads (Option.some_ne_none _).symm
  have rests : ∀ process, state.Rests process := by
    intro process
    refine ⟨fun uploadId => ?_, fun mediaId => ?_⟩
    · rw [initial.uploads]
      exact (Option.some_ne_none _).symm
    · rw [initial.media]
      exact (Option.some_ne_none _).symm
  have noKeys : state.uploads.keys = [] := by
    rw [initial.uploads]
    rfl
  refine ⟨⟨fun _ _ shown => absurd shown unshown, ?_⟩, ?_, fun shown => absurd shown unshown,
    fun shown => absurd shown unshown, ?_, ?_, ?_, ?_⟩
  · rw [noKeys]
    exact List.nodup_nil
  · simp [noKeys]
  · simp [initial.attached]
  · simp [initial.attached]
  · intro mediaId media committed key member
    exact ⟨initial.keys mediaId media committed key member, fun shown => absurd shown unshown⟩
  · intro process
    have ended := initial.ended process
    cases here : state.processes process with
    | idle | raised refusal => exact rests process
    | _ =>
        rw [here] at ended
        contradiction

theorem sound_of_reachable (reachable : (uploadSystem settings).Reachable state) :
    state.Sound settings :=
  System.Reachable.invariant Initial.sound (fun sound stepped => sound.step stepped) reachable

/-! ### What a failing write gives back -/

@[simp] theorem committed_fails (state : UploadState) (process : Nat) (running : UploadProcess)
    (uploadId : Uuid) :
    (state.fails process running).uploads.committed uploadId =
      state.uploads.committed uploadId := by
  unfold UploadState.fails
  split <;> exact Table.committed_rollback ..

/-- A commit that attaches nothing has taken nothing. -/
theorem committed_commitWrite (sound : state.Sound settings) {write : FileWrite}
    {found : List Uuid} {removed : List StoredObject} {proofKeys : List Str}
    (running : state.processes process = .commitWrite write found removed proofKeys)
    (attached : (state.commitWrite settings process write found removed).attached =
      state.attached) (uploadId : Uuid) :
    (state.commitWrite settings process write found removed).uploads.committed uploadId =
      state.uploads.committed uploadId := by
  have owes := sound.owes process
  rw [running] at owes
  rcases owes with ⟨attaches, _, _⟩
  have none : found.filterMap (state.objectOf? settings) = [] :=
    List.self_eq_append_left.mp attached.symm
  have newest : (found.filterMap (state.objectOf? settings)).map AttachedUpload.uploadId = found :=
    map_uploadId_objectOf? attaches.committed
  have noneFound : found = [] := by
    rw [← newest, none, List.map_nil]
  have unheld : state.uploads.holder uploadId ≠ some process := by
    rw [Ne, attaches.locks uploadId, noneFound]
    exact List.not_mem_nil
  show (state.uploads.commit process).committed uploadId = _
  rw [Table.committed_commit, Table.read_of_holder_ne _ _ unheld]

/-- No statement of a write before its commit changes a committed row. -/
theorem committed_of_write (sound : state.Sound settings) {label : UploadLabel}
    (isWrite : (state.processes process).isWrite)
    (labelled : label = .run process ∨ label = .fail process)
    (stepped : UploadState.step settings label state = .ok next)
    (attached : next.attached = state.attached) (uploadId : Uuid) :
    next.uploads.committed uploadId = state.uploads.committed uploadId := by
  rcases labelled with rfl | rfl
  · change state.runProcess settings process = .ok next at stepped
    unfold runProcess at stepped
    cases running : state.processes process with
    | take write =>
        simp only [running, Except.ok.injEq] at stepped
        subst stepped
        rfl
    | lockRows write matched found =>
        cases matched with
        | nil =>
            simp only [running, Except.ok.injEq] at stepped
            subst stepped
            unfold UploadState.checkTaken
            split
            · exact Table.committed_rollback ..
            · split
              · exact Table.committed_rollback ..
              · rfl
        | cons target matched =>
            simp only [running, UploadState.lockRow] at stepped
            split at stepped
            · contradiction
            · split at stepped <;> cases stepped
              · exact Table.committed_write ..
              · rfl
    | drop write found left removed =>
        cases left with
        | nil =>
            simp only [running, Except.ok.injEq] at stepped
            subst stepped
            rfl
        | cons mediaId left =>
            simp only [running, UploadState.dropRow] at stepped
            split at stepped
            · contradiction
            · split at stepped <;> cases stepped <;> rfl
    | attach write found left removed =>
        cases left with
        | nil =>
            simp only [running, Except.ok.injEq] at stepped
            subst stepped
            rfl
        | cons target left =>
            simp only [running, UploadState.attachRow] at stepped
            split at stepped
            · contradiction
            · split at stepped <;> cases stepped
              · exact committed_fails ..
              · exact Table.committed_write ..
    | store write found removed left proofKeys =>
        cases left with
        | zero | succ left =>
            simp only [running, Except.ok.injEq] at stepped
            subst stepped
            rfl
    | commitWrite write found removed proofKeys =>
        simp only [running, Except.ok.injEq] at stepped
        subst stepped
        exact committed_commitWrite sound running attached uploadId
    | sweepKeys keys =>
        simp only [running, Except.ok.injEq] at stepped
        subst stepped
        rfl
    | _ =>
        rw [running] at isWrite
        contradiction
  · cases stepped
    exact committed_fails ..

/-! ### What a write that names takeable rows does -/

/-- The row can be taken by the process for its write. -/
structure Ready (state : UploadState) (process : Nat) (write : FileWrite) (uploadId : Uuid) :
    Prop where
  free : state.uploads.Free process uploadId
  row : ∃ upload, state.uploads.read process uploadId = some upload ∧ takes write upload = true ∧
    state.now < upload.expiresAt

/-- Locking a row leaves every row as ready as it was. -/
theorem Ready.lock {write : FileWrite} {uploadId target : Uuid}
    (ready : state.Ready process write uploadId)
    (uploads : next.uploads = state.uploads.lock process target) (now : next.now = state.now) :
    next.Ready process write uploadId where
  free := by
    rw [uploads]
    unfold Table.Free Table.lock
    rw [Table.holder_write]
    split
    · exact .inr rfl
    · exact ready.free
  row := by
    rw [uploads, Table.read_lock, now]
    exact ready.row

/-- The FOR UPDATE locks every row that is ready. -/
theorem run_lockRows (write : FileWrite) (matched : List Uuid) :
    ∀ {state : UploadState} {found : List Uuid},
      state.processes process = .lockRows write matched found →
      (∀ uploadId, uploadId ∈ matched ∨ uploadId ∈ found → state.Ready process write uploadId) →
        ∃ final, (uploadSystem settings).Run state final ∧
          final.processes process = .lockRows write [] (found ++ matched) ∧
          ∀ uploadId ∈ found ++ matched, final.Ready process write uploadId := by
  induction matched with
  | nil =>
      intro state found running ready
      refine ⟨state, .refl, ?_, ?_⟩
      · rw [running, List.append_nil]
      · intro uploadId member
        rw [List.append_nil] at member
        exact ready uploadId (.inr member)
  | cons target matched inductionHypothesis =>
      intro state found running ready
      have here := ready target (.inl List.mem_cons_self)
      set next : UploadState :=
        { state.setProcess process (.lockRows write matched (found ++ [target])) with
          uploads := state.uploads.lock process target } with isNext
      have stepped : (uploadSystem settings).Step state (.run process) next := by
        have taken : ((state.uploads.read process target).any (takes write)) = true := by
          rcases here.row with ⟨upload, reads, takes', _⟩
          rw [reads, Option.any_some, takes']
        show state.runProcess settings process = .ok next
        simp only [runProcess, running, UploadState.lockRow, here.free, not_true_eq_false,
          ↓reduceIte, taken, isNext]
      have runs : next.processes process = .lockRows write matched (found ++ [target]) :=
        Function.update_self ..
      have stillReady : ∀ uploadId, uploadId ∈ matched ∨ uploadId ∈ found ++ [target] →
          next.Ready process write uploadId := by
        intro uploadId member
        refine (ready uploadId ?_).lock rfl rfl
        simp only [List.mem_append, List.mem_cons] at member ⊢
        tauto
      rcases inductionHypothesis runs stillReady with ⟨final, run, ends, isReady⟩
      refine ⟨final, .head ⟨_, stepped⟩ run, ?_, ?_⟩
      · rw [ends, List.append_assoc, List.singleton_append]
      · intro uploadId member
        apply isReady
        rwa [List.append_assoc, List.singleton_append]

end UploadState

/-! ### The promise -/

open UploadState

variable {state next : UploadState} {process : Nat}

/-- What an attached upload was staged as is no row any more. -/
theorem committed_of_attached (sound : state.Sound settings) {attached : AttachedUpload}
    (member : attached ∈ state.attached) :
    state.uploads.committed attached.uploadId = none := by
  cases committed : state.uploads.committed attached.uploadId with
  | none => rfl
  | some upload => exact absurd (.of_committed committed) ((sound.consumed attached member).2 upload)

theorem UploadState.Takeable.ready {write : FileWrite} {uploadId : Uuid}
    (takeable : state.Takeable settings write.uploaderId uploadId)
    (named : uploadId ∈ write.uploadIds) (process : Nat) :
    state.Ready process write uploadId := by
  rcases takeable.row with ⟨upload, committed, rfl, own, unexpired, _⟩
  refine ⟨.inl takeable.free, upload, ?_, ?_, unexpired⟩
  · rw [Table.read_of_holder_ne _ _ (by simp [takeable.free])]
    exact committed
  · simp [takes, named, own]

/-- A write that names takeable rows takes them. -/
theorem drop_of_takeable (sound : state.Sound settings) {write : FileWrite}
    (running : state.processes process = .take write)
    (takeable : ∀ uploadId ∈ write.uploadIds,
      state.Takeable settings write.uploaderId uploadId) :
    ∃ final found, (uploadSystem settings).Run state final ∧
      final.processes process = .drop write found write.dropped [] ∧
      ∀ uploadId ∈ write.uploadIds, uploadId ∈ found := by
  have ready : ∀ uploadId ∈ write.uploadIds, state.Ready process write uploadId :=
    fun uploadId named => (takeable uploadId named).ready named process
  set matched := state.uploads.select process fun _ => takes write with isMatched
  have every : ∀ uploadId ∈ write.uploadIds, uploadId ∈ matched := by
    intro uploadId named
    rcases (ready uploadId named).row with ⟨upload, reads, taken, _⟩
    exact Table.mem_select.mpr ⟨sound.indexed.listed _ _ (.of_read reads), upload, reads, taken⟩
  set next := state.setProcess process (.lockRows write matched []) with isNext
  have stepped : (uploadSystem settings).Step state (.run process) next := by
    show state.runProcess settings process = .ok next
    simp only [runProcess, running, isNext, isMatched]
  have isReady : ∀ uploadId, uploadId ∈ matched ∨ uploadId ∈ [] →
      next.Ready process write uploadId := by
    rintro uploadId (member | member)
    · rcases Table.mem_select.mp member with ⟨_, upload, reads, taken⟩
      simp only [takes, Bool.and_eq_true, decide_eq_true_eq] at taken
      rw [(sound.minted (.of_read reads)).1] at taken
      have before := ready uploadId taken.1
      exact ⟨before.free, before.row⟩
    · exact absurd member List.not_mem_nil
  have locks : ∃ locked, (uploadSystem settings).Run next locked ∧
      locked.processes process = .lockRows write [] ([] ++ matched) ∧
      ∀ uploadId ∈ [] ++ matched, locked.Ready process write uploadId :=
    run_lockRows write matched (Function.update_self ..) isReady
  rcases locks with ⟨locked, run, ends, lockedReady⟩
  rw [List.nil_append] at ends lockedReady
  have checked : locked.checkTaken process write matched =
      locked.setProcess process (.drop write matched write.dropped []) := by
    unfold checkTaken
    rw [if_neg, if_neg]
    · rintro ⟨uploadId, member, expired⟩
      rcases (lockedReady uploadId member).row with ⟨upload, reads, _, unexpired⟩
      simp only [reads, Option.any_some, decide_eq_true_eq] at expired
      exact absurd unexpired (not_lt.mpr expired)
    · rintro ⟨uploadId, named, missing⟩
      exact missing (every uploadId named)
  have ended : (uploadSystem settings).Step locked (.run process)
      (locked.setProcess process (.drop write matched write.dropped [])) := by
    show locked.runProcess settings process = _
    simp only [runProcess, ends, checked]
  exact ⟨_, matched, .head ⟨_, stepped⟩ (run.tail ⟨_, ended⟩), Function.update_self .., every⟩

/-- A process that has ended holds no row. -/
theorem rests_of_ended (sound : state.Sound settings)
    (ended : (state.processes process).ended = true) : state.Rests process := by
  have owes := sound.owes process
  cases running : state.processes process with
  | idle | raised refusal =>
      rw [running] at owes
      exact owes
  | _ =>
      rw [running] at ended
      contradiction

/-- The reaper deletes no object of an attached upload. -/
theorem mem_objects_of_deleteReaped (sound : state.Sound settings) {keys : List Str}
    (running : state.processes process = .deleteReaped keys)
    (stepped : (uploadSystem settings).Step state (.run process) next)
    {attached : AttachedUpload} (member : attached ∈ state.attached) {key : Str}
    (inKeys : key ∈ objectKeys settings.storage attached.object) (stored : key ∈ state.objects) :
    key ∈ next.objects := by
  have owes := sound.owes process
  rw [running] at owes
  change state.runProcess settings process = .ok next at stepped
  simp only [runProcess, running, Except.ok.injEq] at stepped
  subst stepped
  simp only [UploadState.delete, List.mem_filter, decide_eq_true_eq]
  exact ⟨stored, fun swept => (owes.2 key swept).2 attached member inKeys⟩

/-- Every interleaving of event writes, staging and the reaper consumes an upload once. -/
theorem consumedOnce (settings : UploadSettings) :
    ConsumedOnce settings (uploadSystem settings) where
  once reachable := ⟨(sound_of_reachable reachable).once, fun _ member =>
    committed_of_attached (sound_of_reachable reachable) member⟩
  stands reachable committed := (sound_of_reachable reachable).stored (.of_committed committed)
  gaveBack reachable isWrite labelled stepped attached uploadId upload committed := by
    have later := sound_of_reachable (reachable.step stepped)
    have stays := committed_of_write (sound_of_reachable reachable) isWrite labelled stepped
      attached uploadId
    rw [committed] at stays
    exact ⟨stays, later.stored (.of_committed stays), fun ended =>
      (rests_of_ended later ended).uploads uploadId⟩
  taken reachable running takeable :=
    drop_of_takeable (sound_of_reachable reachable) running takeable
  reaper reachable running stepped attached member key inKeys stored :=
    mem_objects_of_deleteReaped (sound_of_reachable reachable) running stepped member inKeys stored

end Vidit.Uploads
