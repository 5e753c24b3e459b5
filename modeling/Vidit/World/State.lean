import Mathlib.Data.Nat.Digits.Lemmas
import Vidit.Events.Detection
import Vidit.Events.Uploads
import Vidit.Library.Transition

/-!
Contract: the whole deployment as a labelled transition system.

Owns:
- the state: the clock, the accounts, the taxonomy, the staged uploads, the
  events and the object store;
- the requests that move it, each a transaction that holds the rows it locked,
  with the sweep its commit is followed by;
- the rollback of a transaction that already stored objects.

Does not own: the writes on one event (`Vidit.Events`).
-/

namespace Vidit.World

open Vidit.Python Vidit.Accounts Vidit.Evidence Vidit.Events Vidit.Library

structure State where
  now : Instant
  /-- How many UUIDs the deployment has drawn. -/
  drawn : Nat
  users : List User
  memberships : List Membership
  tags : List Tag
  conflicts : List Conflict
  uploads : List Upload
  events : List Event
  /-- The keys of the object store. -/
  objects : List Str
  /-- The keys the last transaction deleted. -/
  swept : List Str

namespace State

variable (config : Config) (state : State)

/-- What a transaction that starts in this state reads. -/
def transaction : Events.Transaction where
  now := state.now
  uuid index := config.uuids.draw (state.drawn + index)
  users := state.users
  memberships := state.memberships
  tags := state.tags
  conflicts := state.conflicts
  uploads := state.uploads

/-- The account behind a request: its row stands while the transaction runs. -/
def actor (userId : Uuid) : Except EventError User :=
  orRefuse (state.users.find? fun user => user.id = userId) .notAuthorized

def account (userId : Uuid) : Except EventError User :=
  orRefuse (state.users.find? fun user => user.id = userId) (.admin .userNotFound)

/-- `lock_event`. -/
def lockEvent (eventId : Uuid) : Except EventError Event :=
  orRefuse (state.events.find? fun geo => geo.id = eventId) .eventNotFound

/-- The events once the row of `geo` is written. -/
def put (geo : Event) : List Event :=
  state.events.map fun row => if row.id = geo.id then geo else row

end State

/-! ### Transactions -/

/-- What a transaction leaves for its commit: the rows, the keys it stored, and
the keys it deletes once the commit is durable. -/
structure Effect where
  rows : State
  stored : List Str
  freed : List Str

/-- A transaction that stores and sweeps nothing. -/
def Effect.ofRows (rows : State) : Effect := ⟨rows, [], []⟩

/-- Commit, then sweep. -/
def Effect.commit (effect : Effect) (state : State) : State :=
  { effect.rows with
    objects := (state.objects ++ effect.stored).filter fun key => key ∉ effect.freed
    swept := effect.freed }

/-- A commit that failed: no row moved, and the stored keys are swept. -/
def Effect.rollBack (effect : Effect) (state : State) : State :=
  { state with
    drawn := effect.rows.drawn
    objects := (state.objects ++ effect.stored).filter fun key => key ∉ effect.stored
    swept := effect.stored }

/-- The keys of files stored with their derivatives: an image has both. -/
def derivedKeys (storage : Storage) (objects : List StoredObject) : List Str :=
  objects.flatMap (objectKeys storage)

/-- The keys of files stored without derivatives. -/
def plainKeys (storage : Storage) (rows : List Media) : List Str :=
  rows.filterMap fun media => storage.keyFromUrl media.storageUrl

section Effects

variable (config : Config) (state : State)

/-- The effect of a write of the form over the rows `events` it leaves. -/
def writeEffect (events : List Event) (written : Written) : Effect where
  rows := { state with
    events := events
    uploads := state.uploads.filter fun upload => upload.id ∉ written.taken
    drawn := state.drawn + written.draws }
  stored := plainKeys config.storage written.stored
  freed := sweepUnreferenced config.storage events written.dropped
    (displayedProofSrcs written.event.proof)

def importEffect (events : List Event) (imported : Imported) : Effect where
  rows := { state with events := events, drawn := state.drawn + imported.draws }
  stored := imported.stored.flatMap fun row =>
    match row.1 with
    | .source => derivedKeys config.storage (mediaObjects [row.2])
    | .proof => plainKeys config.storage [row.2]
  freed := sweepUnreferenced config.storage events imported.replaced []

def stageEffect (uploads : List Upload) : Effect where
  rows := { state with
    uploads := state.uploads ++ uploads
    drawn := state.drawn + 2 * uploads.length }
  stored := derivedKeys config.storage (uploads.map (uploadObject config.storage))
  freed := []

/-- `reap_expired_uploads`. -/
def reapEffect : Effect where
  rows := { state with uploads := state.uploads.filter fun upload => state.now < upload.expiresAt }
  stored := []
  freed := sweepUnreferenced config.storage state.events
    ((state.uploads.filter fun upload => upload.expiresAt ≤ state.now).map
      (uploadObject config.storage)) []

/-- The keys of source files a redaction found free. -/
def redactionKeys (events : List Event) (redaction : Redaction) : List Str :=
  derivedKeys config.storage
    ((orphanedSourceMedia events redaction.event redaction.supersededSources).map fun entry =>
      ⟨entry.storageUrl, entry.kind⟩)

def redactEffect (redaction : Redaction) : Effect :=
  let events := state.put redaction.event
  { rows := { state with events := events }
    stored := []
    freed := sweepUnreferenced config.storage events redaction.removedProofs [] ++
      redactionKeys config events redaction }

end Effects

/-! ### Accounts and erasure -/

/-- `event_objects`. -/
def eventObjects (geo : Event) : List StoredObject :=
  byUrl (mediaObjects geo.media ++ mediaObjects (geo.sources.filterMap Source.media) ++
    (referencedSourceMedia geo).map fun entry => ⟨entry.storageUrl, entry.kind⟩)

/-- The effect of deleting the events `doomed` picks. -/
def eraseEffect (config : Config) (state : State) (doomed : Event → Bool) : Effect :=
  let events := state.events.filter fun geo => !doomed geo
  { rows := { state with events := events }
    stored := []
    freed := sweepUnreferenced config.storage events
      ((state.events.filter doomed).flatMap eventObjects) [] }

/-- `id` unless it is the erased one: `ON DELETE SET NULL`. -/
def unlessErased (userId : Uuid) (id : Option Uuid) : Option Uuid :=
  if id = some userId then none else id

/-- What erasing an account takes off an event of someone else. -/
def forgetUser (userId : Uuid) (geo : Event) : Event :=
  { geo with
    requestedById := unlessErased userId geo.requestedById
    geolocators := geo.geolocators.filter fun row => row.userId ≠ userId
    versions := geo.versions.map fun version => { version with
      editedById := unlessErased userId version.editedById
      redactedById := unlessErased userId version.redactedById }
    approvals := (geo.approvals.filter fun approval =>
      ¬ (approval.reviewerId = some userId ∧ approval.organizationId = none)).map fun approval =>
        { approval with reviewerId := unlessErased userId approval.reviewerId }
    approvalRequests := geo.approvalRequests.filter fun request =>
      request.requesterId ≠ userId ∧ request.targetUserId ≠ some userId
    collectionItems := geo.collectionItems.filter fun item => item.ownerId ≠ userId }

/-- An owned event `hard_delete_user` deletes: no heir takes it. -/
def diesWith (users : List User) (user : User) (geo : Event) : Bool :=
  geo.ownerId = user.id && handOverHeir users user geo = none

/-- The hand-over, on the events the account owns. -/
def passOn (users : List User) (user : User) (geo : Event) : Event :=
  if geo.ownerId = user.id then handOver users user geo else geo

/-- `hard_delete_user`. -/
def hardDeleteUser (config : Config) (state : State) (user : User) : Effect :=
  let events := (state.events.filter fun geo => !diesWith state.users user geo).map fun geo =>
    forgetUser user.id (passOn state.users user geo)
  { rows := { state with
      users := state.users.filter fun other => other.id ≠ user.id
      uploads := state.uploads.filter fun upload => upload.uploaderId ≠ user.id
      events := events }
    stored := []
    freed := sweepUnreferenced config.storage events
      ((state.events.filter (diesWith state.users user)).flatMap eventObjects ++
        (state.uploads.filter fun upload => upload.uploaderId = user.id).map
          (uploadObject config.storage)) [] }

/-- The cascade of `soft_delete_user` on one event, after the hand-over. -/
def hideWith (user : User) (now : Instant) (geo : Event) : Event :=
  if geo.ownerId = user.id ∧ geo.deletedAt = none then { geo with deletedAt := some now } else geo

/-- `soft_delete_user` on one event: only a live event passes on. -/
def banEvent (users : List User) (user : User) (now : Instant) (geo : Event) : Event :=
  hideWith user now (if geo.deletedAt = none then passOn users user geo else geo)

/-- `soft_delete_user`. -/
def softDeleteUser (state : State) (user : User) : State :=
  if user.deletedAt ≠ none then state
  else
    { state with
      users := state.users.map fun other =>
        if other.id = user.id then
          { other with deletedAt := some state.now, tokenVersion := other.tokenVersion + 1 }
        else other
      events := state.events.map (banEvent state.users user state.now) }

/-- `restore_user` on one event. -/
def restoreWith (user : User) (geo : Event) : Event :=
  if geo.ownerId = user.id ∧ geo.deletedAt = user.deletedAt then { geo with deletedAt := none }
  else geo

/-- `restore_user`. -/
def restoreUser (state : State) (user : User) : State :=
  if user.deletedAt = none then state
  else
    { state with
      users := state.users.map fun other =>
        if other.id = user.id then { other with deletedAt := none } else other
      events := state.events.map (restoreWith user) }

/-! ### Requests -/

/-- A write on the credit of an event. -/
inductive CreditVerb where
  | invite (username : Str)
  | withdraw (username : Str)
  | decline
  | accept
  | remove (username : Str)
deriving DecidableEq, Repr

def CreditVerb.run (tx : Events.Transaction) (geo : Event) (actor : User) :
    CreditVerb → Except EventError Event
  | invite username => Events.invite tx geo actor username
  | withdraw username => Events.withdraw tx geo actor username
  | decline => Events.decline geo actor
  | accept => Events.accept tx geo actor
  | remove username => Events.remove tx geo actor username

/-- `_set_hidden`, after `set_event_moderation` found the row. -/
def setHidden (now : Instant) (geo : Event) (hidden : Bool) : Except EventError Event := do
  require (geo.deletedAt = none) (.admin .eventNotFound)
  pure (if hidden = geo.hiddenAt.isSome then geo
    else { geo with hiddenAt := if hidden then some now else none })

/-- `soft_delete_geolocation`. -/
def softDeleteEvent (now : Instant) (geo : Event) : Event :=
  { geo with deletedAt := some (geo.deletedAt.getD now) }

/-- One transaction. The check that an event is visible, which a router makes on
an unlocked read, is not part of it. -/
inductive Request where
  | tick (now : Instant)
  | signUp (username email passwordHash : Str)
  | addTag (name : Str)
  | addConflict (name : Str)
  | setMemberships (memberships : List Membership)
  | stageUpload (userId : Uuid) (file : UploadFile)
  | reapExpiredUploads
  | createWithEvidence (userId : Uuid) (form : EventForm) (lat lng : Rat)
      (geolocatorInvites : List Str)
  | createRequest (userId : Uuid) (form : EventForm) (lat lng : Option Rat)
      (provenance : Option ImportProvenance)
  | persistOne (userId : Uuid) (detection : Detection) (via : DetectedVia)
      (items : List ResolvedMedia)
  | upsertOne (eventId : Uuid) (detection : Detection) (resolved : DetectionMedia)
  | updateRequest (eventId userId : Uuid) (form : EventForm) (lat lng : Option Rat)
  | saveVersion (eventId userId : Uuid) (form : EventForm) (lat lng : Rat) (note : Option Str)
      (expectedVersion : Option Nat) (geolocatorInvites : List Str)
  /-- One row of `complete_detections`. -/
  | publishDetection (eventId userId : Uuid) (kind : SourceKind) (conflictIds : List Uuid)
  | close (eventId userId : Uuid) (closeReason : Str)
  | redactVersion (eventId actorId : Uuid) (versionNo : Nat)
  | credit (eventId userId : Uuid) (verb : CreditVerb)
  | approve (eventId userId : Uuid) (versionNo : Nat) (organization : Option Organization)
  | setHidden (eventId : Uuid) (hidden : Bool)
  | softDeleteEvent (eventId : Uuid)
  | hardDeleteEvent (eventId : Uuid)
  | purgeDetected (userId : Uuid)
  | softDeleteUser (userId : Uuid)
  | restoreUser (userId : Uuid)
  | hardDeleteUser (userId : Uuid)

section Requests

variable (config : Config) (state : State)

/-- A transaction that writes one locked row and nothing else. -/
def State.rewrite (eventId : Uuid) (write : Event → Except EventError Event) :
    Except EventError Effect := do
  let geo ← state.lockEvent eventId
  let written ← write geo
  pure (.ofRows { state with events := state.put written })

/-- The row `registration` adds. -/
def newUser (id : Uuid) (username email passwordHash : Str) : User where
  id := id
  username := username
  email := email
  passwordHash := passwordHash
  isActive := true
  isAdmin := false
  lastSeenAt := none
  deletedAt := none
  tokenVersion := 0

/-- What a request does to the state, up to its commit. -/
def effect : Request → Except EventError Effect
  | .tick now => do
    require (state.now ≤ now) .internal
    pure (.ofRows { state with now := now })
  | .signUp username email passwordHash =>
    pure (.ofRows { state with
      users := state.users ++
        [newUser (config.uuids.draw state.drawn) username email passwordHash]
      drawn := state.drawn + 1 })
  | .addTag name =>
    pure (.ofRows { state with
      tags := state.tags ++ [⟨config.uuids.draw state.drawn, name⟩]
      drawn := state.drawn + 1 })
  | .addConflict name =>
    pure (.ofRows { state with
      conflicts := state.conflicts ++ [⟨config.uuids.draw state.drawn, name⟩]
      drawn := state.drawn + 1 })
  | .setMemberships memberships => pure (.ofRows { state with memberships := memberships })
  | .stageUpload userId file => do
    let user ← state.actor userId
    let uploads ← stageUpload config (state.transaction config) user file
    pure (stageEffect config state uploads)
  | .reapExpiredUploads => pure (reapEffect config state)
  | .createWithEvidence userId form lat lng geolocatorInvites => do
    let user ← state.actor userId
    let written ← createWithEvidence config (state.transaction config) user form lat lng
      geolocatorInvites
    pure (writeEffect config state (state.events ++ [written.event]) written)
  | .createRequest userId form lat lng provenance => do
    let user ← state.actor userId
    let written ← createRequest config (state.transaction config) user form lat lng provenance
    pure (writeEffect config state (state.events ++ [written.event]) written)
  | .persistOne userId detection via items => do
    let user ← state.actor userId
    let imported ← persistOne config (state.transaction config) user detection via items
    pure (importEffect config state (state.events ++ [imported.event]) imported)
  | .upsertOne eventId detection resolved => do
    let geo ← state.lockEvent eventId
    match ← upsertOne config (state.transaction config) geo detection resolved with
    | some imported => pure (importEffect config state (state.put imported.event) imported)
    | none => pure (.ofRows state)
  | .updateRequest eventId userId form lat lng => do
    let user ← state.actor userId
    let geo ← state.lockEvent eventId
    let written ← updateRequest config (state.transaction config) geo user form lat lng
    pure (writeEffect config state (state.put written.event) written)
  | .saveVersion eventId userId form lat lng note expectedVersion geolocatorInvites => do
    let user ← state.actor userId
    let geo ← state.lockEvent eventId
    let written ← saveVersion config (state.transaction config) geo user form lat lng note
      expectedVersion geolocatorInvites
    pure (writeEffect config state (state.put written.event) written)
  | .publishDetection eventId userId kind conflictIds => do
    let user ← state.actor userId
    let tx := state.transaction config
    requireConflict (resolveConflicts tx conflictIds)
    state.rewrite eventId fun geo =>
      publishDetection tx geo user kind (resolveConflicts tx conflictIds)
  | .close eventId userId closeReason => do
    let user ← state.actor userId
    state.rewrite eventId fun geo => close (state.transaction config) geo user closeReason
  | .redactVersion eventId actorId versionNo => do
    let geo ← state.lockEvent eventId
    match ← redactVersion (state.transaction config) geo actorId versionNo with
    | some redaction => pure (redactEffect config state redaction)
    | none => pure (.ofRows state)
  | .credit eventId userId verb => do
    let user ← state.actor userId
    state.rewrite eventId fun geo => verb.run (state.transaction config) geo user
  | .approve eventId userId versionNo organization => do
    let user ← state.actor userId
    let approved ← state.rewrite eventId fun geo =>
      approve (state.transaction config) geo user versionNo organization
    pure { approved with rows := { approved.rows with drawn := state.drawn + 1 } }
  | .setHidden eventId hidden =>
    state.rewrite eventId fun geo => setHidden state.now geo hidden
  | .softDeleteEvent eventId =>
    state.rewrite eventId fun geo => pure (softDeleteEvent state.now geo)
  | .hardDeleteEvent eventId => do
    let geo ← state.lockEvent eventId
    pure (eraseEffect config state fun row => row.id = geo.id)
  | .purgeDetected userId => do
    let user ← state.account userId
    pure (eraseEffect config state fun row => row.ownerId = user.id && row.status = .detected)
  | .softDeleteUser userId => do
    let user ← state.account userId
    pure (.ofRows (softDeleteUser state user))
  | .restoreUser userId => do
    let user ← state.account userId
    pure (.ofRows (restoreUser state user))
  | .hardDeleteUser userId => do
    let user ← state.account userId
    pure (hardDeleteUser config state user)

end Requests

/-! ### The system -/

/-- A request and whether its commit succeeds. -/
structure Label where
  request : Request
  commits : Bool

def step (config : Config) (label : Label) (state : State) : Except EventError State := do
  let effect ← effect config state label.request
  pure (if label.commits then effect.commit state else effect.rollBack state)

/-- A deployment before anyone used it. -/
def initial (now : Instant) : State where
  now := now
  drawn := 0
  users := []
  memberships := []
  tags := []
  conflicts := []
  uploads := []
  events := []
  objects := []
  swept := []

/-- The deployment, under every interleaving of its requests. -/
def system (config : Config) : System State Label :=
  System.ofStep (fun state => ∃ now, state = initial now) (step config)

/-! ### A small deployment -/

/-- UUIDs numbered from zero, under one prefix. -/
def smallUuids : UuidSource where
  draw index := index
  text id := str "00000000-0000-4000-8000-" ++ (Nat.digits 10 id).map (· + chr '0')
  draw_injective := fun _ _ same => same
  text_injective := by
    intro left right same
    have shifted := List.append_cancel_left same
    have digits := List.map_injective_iff.mpr (add_left_injective (chr '0')) shifted
    exact Nat.digits_inj_iff.mp digits
  text_ne_nil id := by simp [str]
  text_plain := by
    have prefixPlain : ∀ point ∈ str "00000000-0000-4000-8000-", isUuidChar point = true := by
      decide
    have digitPlain : ∀ value < 10, isUuidChar (value + chr '0') = true := by decide
    intro id point member
    rcases List.mem_append.mp member with fixed | digit
    · exact prefixPlain point fixed
    · rcases List.mem_map.mp digit with ⟨value, inDigits, rfl⟩
      exact digitPlain value (Nat.digits_lt_base (by norm_num) inDigits)

/-- The quoted parts of a text cut at its quotes. -/
def quotedParts : List Str → List Str
  | _ :: quoted :: rest => quoted :: quotedParts rest
  | _ => []

/-- A deployment on S3 behind a CDN. Its sanitiser knows bodies of bare images. -/
def smallConfig : Config where
  settings :=
    { storageBackend := .s3
      s3Bucket := str "media"
      awsRegion := str "eu-west-3"
      cloudfrontDomain := str "cdn.example.org"
      maxImageSize := 10 * 2 ^ 20
      maxVideoSize := 100 * 2 ^ 20
      maxProofImagesPerEvent := 10 }
  unicode := Unicode.ascii
  uuids := smallUuids
  sanitizeHtml html := .ok ((quotedParts (split html (chr '"'))).map fun src => .image src none)
  sanitizeText html := .ok html

/-- Run requests that all commit, from the empty deployment. -/
def runSmall (requests : List Request) : Except EventError State :=
  System.runLabels (step smallConfig) (requests.map fun request => ⟨request, true⟩) (initial 0)

/-- The state accepted requests lead to. -/
def smallState (requests : List Request) : State :=
  match runSmall requests with
  | .ok state => state
  | .error _ => initial 0

theorem runSmall_eq {requests : List Request} (accepted : (runSmall requests).isOk = true) :
    runSmall requests = .ok (smallState requests) := by
  unfold smallState
  cases ran : runSmall requests with
  | ok state => rfl
  | error refusal => simp [ran, Except.isOk, Except.toBool] at accepted

theorem small_run {earlier later : List Request}
    (accepted : (runSmall (earlier ++ later)).isOk = true) :
    System.runLabels (step smallConfig) (later.map fun request => ⟨request, true⟩)
      (smallState earlier) = .ok (smallState (earlier ++ later)) := by
  have whole := runSmall_eq accepted
  have split : runSmall (earlier ++ later) = (runSmall earlier).bind
      (System.runLabels (step smallConfig) (later.map fun request => ⟨request, true⟩)) := by
    unfold runSmall
    rw [List.map_append, System.runLabels_append]
  rw [whole] at split
  cases ran : runSmall earlier with
  | error refusal =>
      rw [ran] at split
      contradiction
  | ok state =>
      rw [ran] at split
      have start : smallState earlier = state := by
        unfold smallState
        rw [ran]
      rw [start]
      exact split.symm

theorem smallState_reachable {requests : List Request}
    (accepted : (runSmall requests).isOk = true) :
    (system smallConfig).Reachable (smallState requests) :=
  ⟨initial 0, ⟨0, rfl⟩, System.Run.of_runLabels (runSmall_eq accepted)⟩

theorem smallState_run {earlier : List Request} (later : List Request)
    (accepted : (runSmall (earlier ++ later)).isOk = true) :
    (system smallConfig).Run (smallState earlier) (smallState (earlier ++ later)) :=
  System.Run.of_runLabels (small_run accepted)

theorem smallState_step {earlier : List Request} (request : Request)
    (accepted : (runSmall (earlier ++ [request])).isOk = true) :
    (system smallConfig).Step (smallState earlier) ⟨request, true⟩
      (smallState (earlier ++ [request])) := by
  have ran := small_run accepted
  simp only [List.map_cons, List.map_nil, System.runLabels] at ran
  split at ran
  · rename_i next stepped
    cases ran
    exact stepped
  · contradiction

/-- A PNG of one frame. -/
def smallFile : UploadFile where
  filename := some (str "a.png")
  contentType := .png
  size := 1000
  frameCount := .ok 1
  digests := .ok [str "d1"]

/-- A direct source: its link, and the upload or the stored file it takes. -/
def smallSource (uploadId mediaId : Option Uuid) : SourceSpec where
  id := none
  title := []
  level := .direct
  kind := .unknown
  capturedAt := none
  capturePosition := none
  isGraphic := false
  links := [⟨str "https://example.org/post", none, none⟩]
  tagIds := []
  uploadId := uploadId
  mediaId := mediaId

def smallForm (title proof : String) (sources : List SourceSpec) (proofFiles : List UploadFile) :
    EventForm where
  title := str title
  occurredDate := none
  occurredTime := none
  proofData := some (str proof)
  tagIds := []
  conflictIds := [1]
  sources := sources
  proofFiles := proofFiles

/-- One account (id 0), one conflict (id 1), and a staged file (id 2, key 3). -/
def smallSetup : List Request :=
  [.signUp (str "ann") (str "ann@example.org") [], .addConflict (str "c"),
    .stageUpload 0 smallFile]

/-- A proof body of one image to upload. -/
def smallProof : String := "<img src=\"placeholder://a.png\">"

/-- A request on the staged file: event 4, source 5, file 6. -/
def smallDraft : Request :=
  .createRequest 0 (smallForm "t" "" [smallSource (some 2) none] []) none none none

/-- Its publish: the source keeps its file, and image 10 is uploaded under key 11. -/
def smallPublish : Request :=
  .saveVersion 4 0
    (smallForm "t" smallProof [{ smallSource none (some 6) with id := some 5 }] [smallFile])
    1 2 none none []

/-- An edit of its title alone. -/
def smallEdit (title : String) : Request :=
  .saveVersion 4 0 { smallForm title "" [{ smallSource none (some 6) with id := some 5 }] [] with
    proofData := none } 1 2 none none []

def firstEvent (state : State) (nonempty : 0 < state.events.length) : Event :=
  state.events.get ⟨0, nonempty⟩

theorem firstEvent_mem (state : State) (nonempty : 0 < state.events.length) :
    firstEvent state nonempty ∈ state.events :=
  List.get_mem _ _

end Vidit.World
