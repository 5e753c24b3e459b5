import Vidit.Events.Detection
import Vidit.Events.Uploads

/-!
Contract: what an accepted write leaves, one lemma for each verb.

Owns: for every verb on one event, the checks it passed and the row it left,
written as the row it found with the fields it moved. Later proofs cite these
lemmas and never unfold a verb.
-/

namespace Vidit.Events

open Vidit.Python Vidit.Accounts Vidit.Evidence Vidit.Library

variable {config : Config} {tx : Transaction} {geo : Event} {user : User}

/-! ### The evidence of a write -/

/-- What `attach_evidence_and_commit` leaves of an event. -/
theorem attachEvidence_ok {proofHtml : Option Body} {proofFiles : List UploadFile} {first : Nat}
    {attached : Attached}
    (attaching : attachEvidence config tx geo proofHtml proofFiles first = .ok attached) :
    let displayed := displayedProofSrcs (proofHtml.getD geo.proof)
    let kept := displayed ++ historyPinnedSrcs geo
    foreignSrcs config.storage geo displayed = [] ∧
      ∃ pairs stored, matchProofFiles proofHtml proofFiles = .ok pairs ∧
        storeProofImages config tx geo.ownerId first pairs = .ok stored ∧
        attached.stored = stored.flatMap Prod.snd ∧
        attached.dropped = mediaObjects (droppedProofMedia geo kept) ∧
        attached.event = { geo with
          media := (geo.media.filter fun media => media.storageUrl ∈ kept) ++ attached.stored
          proof := writtenProof geo.proof proofHtml stored } := by
  unfold attachEvidence at attaching
  simp only [bind_eq_ok, require_eq_ok, pure_eq_ok] at attaching
  rcases attaching with ⟨_, _, _, _, pairs, matched, _, _, _, own, _, _, stored, storing, rfl⟩
  exact ⟨own, pairs, stored, matched, storing, rfl, rfl, rfl⟩

/-- The fields a write of the form moves after everything else stands. -/
theorem finishWrite_ok {planned : List PlannedSource} {proofHtml : Option Body}
    {proofFiles : List UploadFile} {written : Written}
    (finishing : finishWrite config tx geo planned proofHtml proofFiles = .ok written) :
    ∃ applied attached, applySources config tx geo.sources planned = .ok applied ∧
      attachEvidence config tx { geo with sources := applied.sources } proofHtml proofFiles
        (1 + 2 * planned.length) = .ok attached ∧
      written = {
        event := attached.event
        taken := applied.taken
        stored := attached.stored
        dropped := attached.dropped ++ applied.removed
        draws := 1 + 2 * planned.length + 2 * attached.stored.length } := by
  unfold finishWrite at finishing
  simp only [bind_eq_ok, pure_eq_ok] at finishing
  rcases finishing with ⟨applied, applying, attached, attaching, rfl⟩
  exact ⟨applied, attached, applying, attaching, rfl⟩

/-- A write of the form leaves every field but the sources and the proof. -/
theorem finishWrite_event {planned : List PlannedSource} {proofHtml : Option Body}
    {proofFiles : List UploadFile} {written : Written}
    (finishing : finishWrite config tx geo planned proofHtml proofFiles = .ok written) :
    ∃ sources media proof,
      written.event = { geo with sources := sources, media := media, proof := proof } := by
  rcases finishWrite_ok finishing with ⟨applied, attached, _, attaching, rfl⟩
  rcases attachEvidence_ok attaching with ⟨_, _, _, _, _, _, _, event⟩
  exact ⟨applied.sources, _, _, event⟩

/-! ### The objects a write stores -/

/-- A URL minted with draw `index` of the transaction. -/
def MintsAt (config : Config) (tx : Transaction) (index : Nat) (url : Str) : Prop :=
  ∃ key, IsMintedKey config.uuids (tx.uuid index) key ∧ url = config.storage.publicUrl key

theorem MintsAt.isPlaceholder {index : Nat} {url : Str} (minted : MintsAt config tx index url) :
    isPlaceholder url = false := by
  rcases minted with ⟨key, _, rfl⟩
  rcases getStorage_publicUrl config.settings key with ⟨rest, served⟩
  unfold Evidence.isPlaceholder Config.storage
  rw [served]
  rfl

theorem storedImages_mint {userId : Uuid} {file : UploadFile} {first index : Nat}
    {digests : List Str} {media : Media}
    (stored : (storedImages config tx userId file first digests)[index]? = some media) :
    MintsAt config tx (first + 2 * index + 1) media.storageUrl := by
  unfold storedImages at stored
  simp only [List.getElem?_mapIdx, Option.map_eq_some_iff] at stored
  rcases stored with ⟨digest, _, rfl⟩
  exact ⟨_, ⟨_, _, rfl⟩, rfl⟩

/-- Image `index` of a write is minted with its own draw. -/
theorem storeProofImages_mint {userId : Uuid} {pairs : List (Str × UploadFile)} {first : Nat}
    {stored : List (Str × List Media)}
    (storing : storeProofImages config tx userId first pairs = .ok stored) {index : Nat}
    {media : Media} (found : (stored.flatMap Prod.snd)[index]? = some media) :
    MintsAt config tx (first + 2 * index + 1) media.storageUrl := by
  induction pairs generalizing first stored index with
  | nil =>
      simp only [storeProofImages, pure_eq_ok] at storing
      subst storing
      simp at found
  | cons pair pairs inductionHypothesis =>
      simp only [storeProofImages, bind_eq_ok, pure_eq_ok] at storing
      rcases storing with ⟨digests, _, later, storingLater, rfl⟩
      rw [List.flatMap_cons, List.getElem?_append] at found
      split at found
      · exact storedImages_mint found
      · rename_i beyond
        have minted := inductionHypothesis storingLater found
        have draw : first + 2 * (storedImages config tx userId pair.2 first digests).length +
            2 * (index - (storedImages config tx userId pair.2 first digests).length) + 1 =
              first + 2 * index + 1 := by
          simp only at beyond
          omega
        rw [draw] at minted
        exact minted

theorem storeMedia_mint {eventId : Uuid} {first index : Nat} {items : List ResolvedMedia}
    {role : MediaRole} {media : Media}
    (stored : (storeMedia config tx eventId first items)[index]? = some (role, media)) :
    MintsAt config tx (first + 2 * index + 1) media.storageUrl := by
  unfold storeMedia at stored
  simp only [List.getElem?_mapIdx, Option.map_eq_some_iff, Prod.mk.injEq] at stored
  rcases stored with ⟨item, _, _, rfl⟩
  exact ⟨_, ⟨_, _, rfl⟩, rfl⟩

theorem stageUpload_ok {uploader : User} {file : UploadFile} {uploads : List Upload}
    (staging : stageUpload config tx uploader file = .ok uploads) :
    ∃ kind digests, uploads = stagedUploads config tx uploader kind file digests := by
  unfold stageUpload at staging
  simp only [bind_eq_ok, pure_eq_ok] at staging
  rcases staging with ⟨kind, _, _, _, _, _, digests, _, rfl⟩
  exact ⟨kind, digests, rfl⟩

/-- Staged file `index` is minted with its own draw. -/
theorem stagedUploads_mint {uploader : User} {kind : MediaKind} {file : UploadFile}
    {digests : List Str} {index : Nat} {upload : Upload}
    (staged : (stagedUploads config tx uploader kind file digests)[index]? = some upload) :
    MintsAt config tx (2 * index + 1) (config.storage.publicUrl upload.storageKey) := by
  unfold stagedUploads at staged
  simp only [List.getElem?_mapIdx, Option.map_eq_some_iff] at staged
  rcases staged with ⟨digest, _, rfl⟩
  exact ⟨_, ⟨_, _, rfl⟩, rfl⟩

/-! ### The sources of a write -/

/-- A plan names stored sources, staged files, and files of the stored sources. -/
theorem planSources_files {base : Option Event} {specs : List SourceSpec}
    {planned : List PlannedSource}
    (planning : planSources config tx base specs user = .ok planned) :
    ∀ plan ∈ planned,
      (∀ source, plan.stored = some source → source ∈ (base.map Event.sources).getD []) ∧
      (∀ upload, plan.upload = some upload → upload ∈ tx.uploads) ∧
      ∀ file, plan.copyOf = some file →
        ∃ source ∈ (base.map Event.sources).getD [], source.media = some file.media := by
  unfold planSources at planning
  simp only [bind_eq_ok, require_eq_ok] at planning
  rcases planning with ⟨_, _, _, _, staged, taking, files, reading, plans⟩
  unfold takeUploads at taking
  simp only [bind_eq_ok, require_eq_ok, pure_eq_ok] at taking
  rcases taking with ⟨_, _, _, _, rfl⟩
  unfold readableFiles at reading
  simp only [bind_eq_ok, require_eq_ok, pure_eq_ok] at reading
  rcases reading with ⟨_, _, rfl⟩
  intro plan member
  rcases exists_of_mapM_eq_ok plans member with ⟨spec, _, planningOne⟩
  unfold planSource at planningOne
  simp only [bind_eq_ok, pure_eq_ok] at planningOne
  rcases planningOne with ⟨_, _, _, _, rfl⟩
  refine ⟨?_, ?_, ?_⟩
  · intro source found
    rcases Option.bind_eq_some_iff.mp found with ⟨id, _, search⟩
    exact List.mem_of_find?_eq_some search
  · intro upload found
    rcases Option.bind_eq_some_iff.mp found with ⟨id, _, search⟩
    exact List.mem_of_mem_filter (List.mem_of_find?_eq_some search)
  · intro file found
    simp only at found
    rw [Option.ite_none_left_eq_some] at found
    rcases Option.bind_eq_some_iff.mp found.2 with ⟨id, _, search⟩
    have listed := List.mem_of_mem_filter (List.mem_of_find?_eq_some search)
    cases base with
    | none => simp at listed
    | some geo =>
        simp only [Option.map_some, Option.getD_some, Event.sourceFiles, List.mem_filterMap,
          Option.map_eq_some_iff] at listed
        rcases listed with ⟨source, inSources, media, holds, rfl⟩
        exact ⟨source, inSources, holds⟩

/-- The file of a written source is one its plan attaches. -/
theorem writeSources_files {all planned : List PlannedSource} {index : Nat}
    {written : List (Uuid × Bool)} {sources : List Source}
    (writing : writeSources config tx all index written planned = .ok sources) :
    ∀ source ∈ sources, ∃ plan ∈ planned, ∃ id, source.media = attachFile config plan id := by
  induction planned generalizing index written sources with
  | nil =>
      simp only [writeSources, pure_eq_ok] at writing
      subst writing
      simp
  | cons plan rest inductionHypothesis =>
      simp only [writeSources, bind_eq_ok, pure_eq_ok] at writing
      rcases writing with ⟨_, _, later, writingLater, rfl⟩
      intro source member
      rcases List.mem_cons.mp member with rfl | other
      · exact ⟨plan, List.mem_cons_self, _, rfl⟩
      · rcases inductionHypothesis writingLater source other with ⟨found, inRest, id, attached⟩
        exact ⟨found, List.mem_cons_of_mem _ inRest, id, attached⟩

/-! ### Credit -/

/-- An invitation goes to a live analyst who holds no credit and no invitation. -/
theorem stageInvite_ok {username : Str} {invited : Event}
    (staging : stageInvite tx geo username = .ok invited) :
    ∃ invitee ∈ tx.users, ∃ row, geo.status = .geolocated ∧ invitee.id ≠ geo.ownerId ∧
      row = (geo.geolocator? invitee.id).getD ⟨invitee.id, .invited, none, none, none⟩ ∧
      (∀ stored ∈ geo.geolocator? invitee.id, stored.state = .departed) ∧
      invited = geo.setGeolocator { row with state := .invited, invitedAt := some tx.now } := by
  unfold stageInvite at staging
  simp only [bind_eq_ok, require_eq_ok, orRefuse_eq_ok, pure_eq_ok] at staging
  rcases staging with ⟨_, published, invitee, found, _, fresh, _, uninvited, _, _, rfl⟩
  refine ⟨invitee, List.mem_of_find?_eq_some found, _, published, ?_, rfl, ?_, rfl⟩
  · exact fun same => fresh (.inl same)
  · intro stored storedRow
    rw [Option.mem_def] at storedRow
    cases standing : stored.state with
    | invited => simp [storedRow, standing] at uninvited
    | active => simp [storedRow, standing] at fresh
    | departed => rfl

theorem inviteRow_ok {userId : Uuid} {row : EventGeolocator}
    (finding : inviteRow geo userId = .ok row) :
    geo.geolocator? userId = some row ∧ row.state = .invited := by
  unfold inviteRow at finding
  simp only [bind_eq_ok, require_eq_ok, orRefuse_eq_ok, pure_eq_ok] at finding
  rcases finding with ⟨_, found, _, invited, rfl⟩
  exact ⟨found, invited⟩

theorem invite_ok {username : Str} {invited : Event}
    (inviting : invite tx geo user username = .ok invited) :
    stageInvite tx geo username = .ok invited := by
  unfold invite at inviting
  simp only [bind_eq_ok] at inviting
  rcases inviting with ⟨_, _, staging⟩
  exact staging

theorem withdraw_ok {username : Str} {left : Event}
    (withdrawing : withdraw tx geo user username = .ok left) :
    ∃ userId row, inviteRow geo userId = .ok row ∧ left = endInvitation geo row := by
  unfold withdraw at withdrawing
  simp only [bind_eq_ok, orRefuse_eq_ok, pure_eq_ok] at withdrawing
  rcases withdrawing with ⟨_, _, invitee, _, row, finding, rfl⟩
  exact ⟨invitee.id, row, finding, rfl⟩

theorem decline_ok {left : Event} (declining : decline geo user = .ok left) :
    ∃ row, inviteRow geo user.id = .ok row ∧ left = endInvitation geo row := by
  unfold decline at declining
  simp only [bind_eq_ok, pure_eq_ok] at declining
  rcases declining with ⟨row, finding, rfl⟩
  exact ⟨row, finding, rfl⟩

theorem accept_ok {joined : Event} (accepting : accept tx geo user = .ok joined) :
    ∃ row requests, inviteRow geo user.id = .ok row ∧ geo.status = .geolocated ∧
      joined = { deleteApprovalsOnJoin
          (geo.setGeolocator { row with state := .active, joinedAt := some tx.now }) user.id with
        approvalRequests := requests } := by
  unfold accept at accepting
  simp only [bind_eq_ok, require_eq_ok, pure_eq_ok] at accepting
  rcases accepting with ⟨row, finding, _, published, rfl⟩
  exact ⟨row, _, finding, published, rfl⟩

theorem remove_ok {username : Str} {left : Event}
    (removing : remove tx geo user username = .ok left) :
    ∃ credit items, geo.geolocator? credit.userId = some credit ∧
      credit.state = .active ∧ credit.userId ≠ geo.ownerId ∧
      left = { geo.setGeolocator { credit with
          state := .departed, departedAt := some (credit.departedAt.getD tx.now) } with
        approvalRequests := (geo.resolveRequests
          (fun request => request.requesterId = credit.userId) .withdrawn tx.now).approvalRequests
        collectionItems := items } := by
  unfold remove at removing
  simp only [bind_eq_ok, require_eq_ok, orRefuse_eq_ok, pure_eq_ok] at removing
  rcases removing with ⟨target, _, credit, found, _, active, _, notOwner, _, _, rfl⟩
  have own : credit.userId = target.id := by
    simpa using List.find?_some found
  refine ⟨credit, geo.collectionItems.filter fun item => item.ownerId ≠ target.id, ?_, active,
    ?_, ?_⟩
  · rw [own]
    exact found
  · rw [own]
    exact notOwner
  · rw [own]
    rfl

/-- Who joins is asked no longer. -/
theorem accept_requests {joined : Event} (accepting : accept tx geo user = .ok joined) :
    joined.approvalRequests = geo.approvalRequests.filter fun request =>
      ¬ (request.targetUserId = some user.id ∧ request.status = .open) := by
  unfold accept at accepting
  simp only [bind_eq_ok, require_eq_ok, pure_eq_ok] at accepting
  rcases accepting with ⟨row, _, _, _, rfl⟩
  rfl

/-- A request an approval answers: to its author, or to the organization it is for. -/
def addressedTo (reviewerId : Uuid) (organizationId : Option Uuid) (request : ApprovalRequest) :
    Bool :=
  match organizationId with
  | none => request.targetUserId = some reviewerId
  | some organizationId => request.targetOrganizationId = some organizationId

theorem approve_requests {versionNo : Nat} {organization : Option Organization}
    {approved : Event}
    (approving : approve tx geo user versionNo organization = .ok approved) :
    approved.approvalRequests = (geo.resolveRequests (addressedTo user.id
      (organization.map Organization.id)) .approved tx.now).approvalRequests := by
  unfold approve at approving
  simp only [bind_eq_ok, require_eq_ok, pure_eq_ok] at approving
  rcases approving with ⟨_, _, _, _, _, _, _, _, _, _, rfl⟩
  cases organization <;> rfl

/-- A new approval is by someone never credited, on the version that stands. -/
theorem approve_ok {versionNo : Nat} {organization : Option Organization} {approved : Event}
    (approving : approve tx geo user versionNo organization = .ok approved) :
    ∃ requests, geo.status = .geolocated ∧ user.id ∉ geo.everCreditedIds ∧
      sameApprovals geo user geo.versionNo organization = [] ∧
      approved = { geo with
        approvals := geo.approvals ++
          [⟨tx.uuid 0, geo.versionNo, some user.id, organization.map Organization.id, tx.now⟩]
        approvalRequests := requests } := by
  unfold approve at approving
  simp only [bind_eq_ok, require_eq_ok, pure_eq_ok] at approving
  rcases approving with ⟨_, published, _, _, _, independent, _, rfl, _, unapproved, rfl⟩
  exact ⟨_, published, independent, unapproved, rfl⟩

theorem handOver_eq (users : List User) (owner : User) (geo : Event) :
    handOver users owner geo = geo ∨
      ∃ heirId, handOverHeir users owner geo = some heirId ∧
        handOver users owner geo = { geo with ownerId := heirId, deletedAt := none } := by
  unfold handOver
  cases handOverHeir users owner geo with
  | none => exact .inl rfl
  | some heirId => exact .inr ⟨heirId, rfl, rfl⟩

/-- The heir is an active geolocator of a live account, and not the owner. -/
theorem handOverHeir_active {users : List User} {owner : User} {heirId : Uuid}
    (inherits : handOverHeir users owner geo = some heirId) :
    heirId ≠ owner.id ∧ heirId ∈ geo.activeIds := by
  unfold handOverHeir at inherits
  split at inherits
  · unfold heir? at inherits
    rw [Option.map_eq_some_iff] at inherits
    rcases inherits with ⟨row, first, rfl⟩
    have member := List.mem_of_head? first
    rw [mem_sortedBy, List.mem_filter] at member
    simp only [decide_eq_true_eq] at member
    rcases member with ⟨inRows, other, active, _⟩
    refine ⟨other, ?_⟩
    unfold Event.activeIds
    exact List.mem_map_of_mem (List.mem_filter.mpr ⟨inRows, by simpa using active⟩)
  · contradiction

/-! ### Credit leaves the rest of an event -/

theorem inviteOnPublish_event {usernames : List Str} {invited : Event}
    (inviting : inviteOnPublish tx geo usernames = .ok invited) :
    ∃ geolocators, invited = { geo with geolocators := geolocators } := by
  induction usernames generalizing geo with
  | nil =>
      simp only [inviteOnPublish, pure_eq_ok] at inviting
      exact ⟨geo.geolocators, inviting.symm⟩
  | cons username usernames inductionHypothesis =>
      simp only [inviteOnPublish, bind_eq_ok] at inviting
      rcases inviting with ⟨middle, staging, inviting⟩
      rcases stageInvite_ok staging with ⟨_, _, _, _, _, _, _, rfl⟩
      rcases inductionHypothesis inviting with ⟨geolocators, rfl⟩
      exact ⟨geolocators, rfl⟩

theorem creditOnPublish_event {publishing : Bool} {usernames : List Str} {credited : Event}
    (crediting : creditOnPublish tx geo user publishing usernames = .ok credited) :
    ∃ ownerId geolocators,
      credited = { geo with ownerId := ownerId, geolocators := geolocators } := by
  unfold creditOnPublish at crediting
  split at crediting
  · rcases inviteOnPublish_event crediting with ⟨geolocators, rfl⟩
    exact ⟨user.id, geolocators, rfl⟩
  · rw [pure_eq_ok] at crediting
    exact ⟨geo.ownerId, geo.geolocators, crediting.symm⟩

theorem endInvitation_event (geo : Event) (row : EventGeolocator) :
    ∃ geolocators, endInvitation geo row = { geo with geolocators := geolocators } := by
  unfold endInvitation
  split <;> exact ⟨_, rfl⟩

/-! ### Publishing and editing -/

/-- The row `file_version` leaves. -/
def filedEvent (geo : Event) (editedBy : User) (note : Option Str) (now : Instant) : Event :=
  { geo with
    versions := geo.versions ++ [versionRow geo editedBy note (buildSnapshot geo) now]
    versionNo := geo.versionNo + 1 }

theorem fileVersion_ok {note : Option Str} {enforceCeiling : Bool} {filed : Event}
    (filing : fileVersion geo user note (buildSnapshot geo) tx.now enforceCeiling = .ok filed) :
    filed = filedEvent geo user note tx.now := by
  unfold fileVersion at filing
  simp only [bind_eq_ok, pure_eq_ok] at filing
  rcases filing with ⟨_, _, rfl⟩
  rfl

theorem createWithEvidence_ok {form : EventForm} {lat lng : Rat} {invites : List Str}
    {written : Written}
    (creating : createWithEvidence config tx user form lat lng invites = .ok written) :
    ∃ planned proofHtml credited,
      planSources config tx none form.sources user = .ok planned ∧
      inviteOnPublish tx (creditGeolocator
        { newEvent tx user .geolocated form (some ⟨lat, lng⟩) with geolocatedAt := some tx.now }
        user.id tx.now) invites = .ok credited ∧
      finishWrite config tx credited planned proofHtml form.proofFiles = .ok written := by
  unfold createWithEvidence at creating
  simp only [bind_eq_ok] at creating
  rcases creating with
    ⟨_, _, proofHtml, _, _, _, _, _, planned, planning, _, _, credited, inviting, finishing⟩
  exact ⟨planned, proofHtml, credited, planning, inviting, finishing⟩

theorem createRequest_ok {form : EventForm} {lat lng : Option Rat}
    {provenance : Option ImportProvenance} {written : Written}
    (creating : createRequest config tx user form lat lng provenance = .ok written) :
    ∃ guess planned proofHtml, planSources config tx none form.sources user = .ok planned ∧
      finishWrite config tx { newEvent tx user .requested form guess with
        requestedById := some user.id
        requestedAt := some tx.now
        detection := provenance.map stampProvenance } planned proofHtml form.proofFiles =
          .ok written := by
  unfold createRequest at creating
  simp only [bind_eq_ok] at creating
  rcases creating with ⟨guess, _, proofHtml, _, planned, planning, _, _, finishing⟩
  exact ⟨guess, planned, proofHtml, planning, finishing⟩

theorem updateRequest_ok {form : EventForm} {lat lng : Option Rat} {written : Written}
    (updating : updateRequest config tx geo user form lat lng = .ok written) :
    ∃ guess planned proofHtml, geo.ownerId = user.id ∧ geo.status = .requested ∧
      planSources config tx (some geo) form.sources user = .ok planned ∧
      finishWrite config tx { geo with
        title := form.title
        coords := guess
        occurredDate := form.occurredDate
        occurredTime := form.occurredTime
        tags := resolveTags tx form.tagIds
        conflicts := resolveConflicts tx form.conflictIds } planned proofHtml form.proofFiles =
          .ok written := by
  unfold updateRequest ensureOwner at updating
  simp only [bind_eq_ok, require_eq_ok] at updating
  rcases updating with
    ⟨_, owns, _, requested, guess, _, proofHtml, _, planned, planning, _, _, finishing⟩
  exact ⟨guess, planned, proofHtml, owns, requested, planning, finishing⟩

/-- A saved version files the outgoing one, then edits, credits on a publish,
and writes its evidence. -/
theorem saveVersion_ok {form : EventForm} {lat lng : Rat} {note : Option Str}
    {expected : Option Nat} {invites : List Str} {written : Written}
    (saving : saveVersion config tx geo user form lat lng note expected invites = .ok written) :
    ∃ planned proofHtml credited, geo.status ≠ .closed ∧
      planSources config tx (some geo) form.sources user = .ok planned ∧
      creditOnPublish tx
        (editFields tx (filedEvent geo user note tx.now) form lat lng (isUnpublished geo.status))
        user (isUnpublished geo.status) invites = .ok credited ∧
      finishWrite config tx credited planned proofHtml form.proofFiles = .ok written := by
  unfold saveVersion at saving
  simp only [bind_eq_ok, require_eq_ok] at saving
  rcases saving with ⟨_, open', _, _, _, _, _, _, _, _, proofHtml, _, _, _, _, _, planned,
    planning, _, _, _, _, filed, filing, credited, crediting, finishing⟩
  have filedRow := fileVersion_ok filing
  subst filedRow
  exact ⟨planned, proofHtml, credited, open', planning, crediting, finishing⟩

/-- The fields a saved version leaves. -/
theorem saveVersion_event {form : EventForm} {lat lng : Rat} {note : Option Str}
    {expected : Option Nat} {invites : List Str} {written : Written}
    (saving : saveVersion config tx geo user form lat lng note expected invites = .ok written) :
    ∃ ownerId geolocators sources media proof, written.event =
      { editFields tx (filedEvent geo user note tx.now) form lat lng (isUnpublished geo.status) with
        ownerId := ownerId
        geolocators := geolocators
        sources := sources
        media := media
        proof := proof } := by
  rcases saveVersion_ok saving with ⟨_, _, credited, _, _, crediting, finishing⟩
  rcases creditOnPublish_event crediting with ⟨ownerId, geolocators, rfl⟩
  rcases finishWrite_event finishing with ⟨sources, media, proof, event⟩
  exact ⟨ownerId, geolocators, sources, media, proof, event⟩

theorem publishDetection_ok {kind : SourceKind} {conflicts : List Conflict} {published : Event}
    (publishing : publishDetection tx geo user kind conflicts = .ok published) :
    geo.IsVisible ∧ geo.ownerId = user.id ∧ geo.status = .detected ∧
      published = publishedDetection tx (filedEvent geo user none tx.now) user kind conflicts := by
  unfold publishDetection ensureOwner at publishing
  simp only [bind_eq_ok, require_eq_ok, pure_eq_ok] at publishing
  rcases publishing with ⟨_, visible, _, owns, _, detected, _, _, _, _, _, _, _, _, filed, filing,
    rfl⟩
  rw [fileVersion_ok filing]
  exact ⟨visible, owns, detected, rfl⟩

theorem close_ok {closeReason : Str} {closed : Event}
    (closing : close tx geo user closeReason = .ok closed) :
    geo.ownerId = user.id ∧ geo.status ≠ .closed ∧
      closed = { geo with
        beforeClosedStatus := some geo.status
        status := .closed
        closedAt := some tx.now
        closeReason := some closeReason } := by
  unfold close ensureOwner at closing
  simp only [bind_eq_ok, require_eq_ok, pure_eq_ok] at closing
  rcases closing with ⟨_, owns, _, open', rfl⟩
  exact ⟨owns, open', rfl⟩

theorem redactVersion_ok {actorId : Uuid} {versionNo : Nat} {redaction : Redaction}
    (redacting : redactVersion tx geo actorId versionNo = .ok (some redaction)) :
    ∃ version, geo.version? versionNo = some version ∧ version.redactedAt = none ∧
      redaction = {
        event := prunedProof (redacted tx geo actorId versionNo)
        removedProofs := mediaObjects (droppedProofMedia (redacted tx geo actorId versionNo)
          (keptProofSrcs (redacted tx geo actorId versionNo)))
        supersededSources := (version.snapshot.map Snapshot.sourceMedia).getD [] } := by
  unfold redactVersion at redacting
  simp only [bind_eq_ok, require_eq_ok, orRefuse_eq_ok] at redacting
  rcases redacting with ⟨_, _, version, found, blanking⟩
  split at blanking
  · simp at blanking
  · rename_i readable
    simp only [pure_eq_ok, Option.some.injEq] at blanking
    exact ⟨version, found, by simpa using readable, blanking.symm⟩

/-! ### Importing -/

theorem proofBody_ok {detection : Detection} {urls : List Str} {proof : Body}
    (building : proofBody config detection urls = .ok proof) :
    ∃ text, proof = htmlFromText text urls := by
  unfold proofBody at building
  cases sanitised : config.sanitizeText (paragraphsOf detection.proofText) with
  | error reason => simp [sanitised, Except.map, Except.mapError] at building
  | ok text =>
      simp only [sanitised, Except.map, Except.mapError, Except.ok.injEq] at building
      exact ⟨text, building.symm⟩

theorem persistOne_ok {detection : Detection} {via : DetectedVia} {items : List ResolvedMedia}
    {imported : Imported}
    (persisting : persistOne config tx user detection via items = .ok imported) :
    let stored := storeMedia config tx (tx.uuid 0) detection.mediaStart items
    ∃ text, imported = {
      event := { newEvent tx user .detected
          ⟨detection.title, detection.occurredDate, none, none, [], [], [], []⟩
          (some detection.coordinate) with
        proof := htmlFromText text (proofImageUrlsOf stored)
        detectedAt := some tx.now
        detection := some (stampProvenance (detection.provenance via))
        media := proofRowsOf stored
        sources := importSources tx 1 detection (sourceFileOf stored) }
      stored := stored
      replaced := []
      draws := detection.mediaStart + 2 * items.length } := by
  unfold persistOne at persisting
  simp only [bind_eq_ok, pure_eq_ok] at persisting
  rcases persisting with ⟨proof, building, rfl⟩
  rcases proofBody_ok building with ⟨text, rfl⟩
  exact ⟨text, rfl⟩

/-- An upsert writes only a row the matrix leaves open: it keeps the stored media,
or replaces all of it. -/
theorem upsertOne_ok {detection : Detection} {resolved : DetectionMedia} {imported : Imported}
    (upserting : upsertOne config tx geo detection resolved = .ok (some imported)) :
    rowDisposition geo = .upsert ∧
      ((reusesMedia geo resolved = true ∧ imported.stored = [] ∧ imported.replaced = [] ∧
          imported.draws = detection.mediaStart ∧
        ∃ text, imported.event = { applyImportFields geo detection with
          sources := reusedSources tx geo detection
          proof := htmlFromText text (extractImageSrcs geo.proof) }) ∨
      (reusesMedia geo resolved = false ∧
        let stored := storeMedia config tx geo.id detection.mediaStart resolved.items
        ∃ text, imported = {
          event := { applyImportFields geo detection with
            media := proofRowsOf stored
            sources := importSources tx 1 detection (sourceFileOf stored)
            proof := htmlFromText text (proofImageUrlsOf stored) }
          stored := stored
          replaced := mediaObjects ((storedMedia geo).map Prod.snd)
          draws := detection.mediaStart + 2 * resolved.items.length })) := by
  unfold upsertOne at upserting
  split at upserting
  · simp at upserting
  rename_i openRow
  simp only [bind_eq_ok, require_eq_ok] at upserting
  rcases upserting with ⟨_, _, writing⟩
  refine ⟨by simpa using openRow, ?_⟩
  split at writing
  · rename_i reuses
    simp only [bind_eq_ok] at writing
    rcases writing with ⟨proof, building, moving⟩
    rcases proofBody_ok building with ⟨text, rfl⟩
    split at moving
    · simp at moving
    · simp only [pure_eq_ok, Option.some.injEq] at moving
      subst moving
      exact .inl ⟨reuses, rfl, rfl, rfl, text, rfl⟩
  · rename_i replaces
    simp only [bind_eq_ok, pure_eq_ok, Option.some.injEq] at writing
    rcases writing with ⟨proof, building, rfl⟩
    rcases proofBody_ok building with ⟨text, rfl⟩
    exact .inr ⟨by simpa using replaces, text, rfl⟩

end Vidit.Events
