import Vidit.World.Custody

/-!
Contract: no step deletes an object an event still displays.

Owns:
- the keys an event displays, live or in a readable version;
- the condition on a redaction under which the versions that stay readable keep
  their images (`SparesImages`), and that without it they do not;
- that every step which meets it deletes no key any event displays, over every run.

Does not own: which rows keep an object (`Vidit.Events.Intake`).
-/

namespace Vidit.World

open Vidit.Python Vidit.Accounts Vidit.Evidence Vidit.Events Vidit.Library

variable {config : Config} {state next : State}
variable {row geo : Event} {url key : Str} {holder : Holder}

/-! ### What an event displays -/

/-- The files of the live sources and of the readable versions' sources, and the
images of the live proof body and of the readable versions' bodies. -/
def displayedUrls (geo : Event) : List Str :=
  geo.sourceUrls ++ imageSrcs geo.proof ++
    (referencedSourceMedia geo).map MediaEntry.storageUrl ++
      geo.readableSnapshots.flatMap fun snapshot => imageSrcs snapshot.proof

/-- The keys of those objects, with their derivatives. -/
def displayedKeys (config : Config) (geo : Event) : List Str :=
  ((displayedUrls geo).filterMap config.storage.keyFromUrl).flatMap imageKeys

theorem mem_displayedUrls : url ∈ displayedUrls geo ↔
    url ∈ geo.sourceUrls ∨ url ∈ imageSrcs geo.proof ∨
      (∃ snapshot ∈ geo.readableSnapshots, ∃ entry ∈ snapshot.sourceMedia,
        entry.storageUrl = url) ∨
      ∃ snapshot ∈ geo.readableSnapshots, url ∈ imageSrcs snapshot.proof := by
  unfold displayedUrls referencedSourceMedia
  simp only [List.mem_append, List.mem_map, List.mem_flatMap, or_assoc]
  apply or_congr_right
  apply or_congr_right
  apply or_congr_left
  constructor
  · rintro ⟨entry, ⟨snapshot, readable, named⟩, same⟩
    exact ⟨snapshot, readable, entry, named, same⟩
  · rintro ⟨snapshot, readable, entry, named, same⟩
    exact ⟨entry, ⟨snapshot, readable, named⟩, same⟩

theorem mem_displayedKeys : key ∈ displayedKeys config geo ↔
    ∃ url ∈ displayedUrls geo, ∃ own, config.storage.keyFromUrl url = some own ∧
      key ∈ imageKeys own := by
  unfold displayedKeys
  simp only [List.mem_flatMap, List.mem_filterMap]
  constructor
  · rintro ⟨own, ⟨url, displayed, keyed⟩, member⟩
    exact ⟨url, displayed, own, keyed, member⟩
  · rintro ⟨url, displayed, own, keyed, member⟩
    exact ⟨own, ⟨url, displayed, keyed⟩, member⟩

/-- A displayed object of the deployment is one the event names. -/
theorem namedUrls_of_displayed (displayed : url ∈ displayedUrls geo)
    (keyed : config.storage.keyFromUrl url ≠ none) : url ∈ namedUrls config geo := by
  rcases mem_displayedUrls.mp displayed with source | shown | files | ⟨snapshot, readable, shown⟩
  · exact namedUrls_source source
  · exact mem_namedUrls.mpr (.inr (.inl (mem_keyedSrcs.mpr ⟨shown, keyed⟩)))
  · exact mem_namedUrls.mpr (.inl (mem_heldUrls.mpr (.inr (.inr files))))
  · exact mem_namedUrls.mpr (.inr (.inr ⟨snapshot, readable, mem_keyedSrcs.mpr ⟨shown, keyed⟩⟩))

/-! ### An object and the keys it takes with it -/

/-- A key an event displays after a step, taken with an object someone named before
it: the object is one the event displays, and had named. -/
theorem displayed_twin {rows : State} {Given : Holder → Prop} {receiver : Holder}
    {Fresh : Holder → Str → Prop} (custody : InCustody config state)
    (transfer : Transfers config state rows Given receiver Fresh) (member : geo ∈ rows.events)
    (displayed : key ∈ displayedKeys config geo) (named : Names config state holder url)
    (keeps : ¬ Given holder) {own : Str} (keyed : config.storage.keyFromUrl url = some own)
    (taken : key ∈ imageKeys own) : url ∈ displayedUrls geo ∧ holder = .event geo.id := by
  have numbered : Numbered (Carries config) := carries_numbered config
  rcases mem_displayedKeys.mp displayed with ⟨twin, inDisplayed, twinOwn, twinKeyed, twinTaken⟩
  have twinNamed : Names config rows (.event geo.id) twin :=
    ⟨geo, member, rfl, namedUrls_of_displayed inDisplayed (by simp [twinKeyed])⟩
  rcases custody.serial named with ⟨index, _, carries⟩
  rcases (transfer.custody custody numbered).serial twinNamed with ⟨other, _, twinCarries⟩
  have equal := carries.index_eq twinCarries keyed twinKeyed taken twinTaken
  have same := transfer.follows custody numbered named twinNamed carries (equal ▸ twinCarries)
  exact ⟨same.1 ▸ inDisplayed, same.2.resolve_right keeps⟩

theorem mem_byUrl {objects : List StoredObject} {object : StoredObject}
    (member : object ∈ byUrl objects) : object ∈ objects := by
  unfold byUrl at member
  induction objects with
  | nil => simp at member
  | cons head tail inductionHypothesis =>
      simp only [List.foldr_cons] at member
      split at member
      · exact List.mem_cons_of_mem _ (inductionHypothesis member)
      · rcases List.mem_cons.mp member with rfl | later
        · exact List.mem_cons_self
        · exact List.mem_cons_of_mem _ (inductionHypothesis later)

/-- A swept key goes with an object to sweep that nothing keeps and no row holds. -/
theorem mem_sweepUnreferenced {storage : Storage} {events : List Event}
    {objects : List StoredObject} {keep : List Str}
    (swept : key ∈ sweepUnreferenced storage events objects keep) :
    ∃ object ∈ objects, object.storageUrl ∉ keep ∧
      (∀ geo ∈ events, object.storageUrl ∉ geo.heldUrls) ∧
      ∃ own, storage.keyFromUrl object.storageUrl = some own ∧ key ∈ imageKeys own := by
  unfold sweepUnreferenced at swept
  simp only [List.mem_flatMap, List.mem_filter] at swept
  rcases swept with ⟨object, ⟨listed, free⟩, taken⟩
  have candidate := mem_byUrl listed
  rw [List.mem_filter, decide_eq_true_eq] at candidate
  unfold isUnreferenced at free
  rw [List.all_eq_true] at free
  refine ⟨object, candidate.1, candidate.2, fun geo member => by simpa using free geo member, ?_⟩
  cases keyed : storage.keyFromUrl object.storageUrl with
  | none => simp [objectKeys, keyed] at taken
  | some own => exact ⟨own, rfl, objectKeys_subset_imageKeys keyed taken⟩

/-- A sweep spares what an event displays when every object to sweep that the event
named, and displays, is kept or held by a row. -/
theorem sweep_spares {rows : State} {Given : Holder → Prop} {receiver : Holder}
    {Fresh : Holder → Str → Prop} {objects : List StoredObject} {keep : List Str}
    (custody : InCustody config state)
    (transfer : Transfers config state rows Given receiver Fresh) (member : geo ∈ rows.events)
    (spared : ∀ object ∈ objects, ∃ holder, Names config state holder object.storageUrl ∧
      ¬ Given holder ∧ (holder = .event geo.id → object.storageUrl ∈ displayedUrls geo →
        object.storageUrl ∈ keep ∨ object.storageUrl ∈ geo.heldUrls)) :
    ∀ key ∈ displayedKeys config geo,
      key ∉ sweepUnreferenced config.storage rows.events objects keep := by
  intro key displayed swept
  rcases mem_sweepUnreferenced swept with ⟨object, listed, unkept, free, own, keyed, taken⟩
  rcases spared object listed with ⟨holder, named, keeps, spares⟩
  have twin := displayed_twin custody transfer member displayed named keeps keyed taken
  rcases spares twin.2 twin.1 with kept | held
  · exact unkept kept
  · exact free geo member held

/-- A displayed URL is held by a row, or shown by a body. -/
theorem held_or_shown (displayed : url ∈ displayedUrls geo) :
    url ∈ geo.heldUrls ∨ url ∈ imageSrcs geo.proof ∨
      ∃ snapshot ∈ geo.readableSnapshots, url ∈ imageSrcs snapshot.proof := by
  rcases mem_displayedUrls.mp displayed with source | shown | files | snapshots
  · exact .inl (mem_heldUrls.mpr (.inr (.inl source)))
  · exact .inr (.inl shown)
  · exact .inl (mem_heldUrls.mpr (.inr (.inr files)))
  · exact .inr (.inr snapshots)

theorem mem_put_of_id {written : Event} (member : geo ∈ state.put written)
    (same : geo.id = written.id) : geo = written := by
  unfold State.put at member
  rcases List.mem_map.mp member with ⟨row, _, rfl⟩
  split
  · rfl
  · rename_i other
    rw [if_neg other] at same
    exact absurd same other

theorem keyed_of_named (custody : InCustody config state) (named : Names config state holder url) :
    config.storage.keyFromUrl url ≠ none := by
  rcases custody.serial named with ⟨_, _, carries⟩
  exact carries.keyed

theorem versionNo_of_draft (reachable : (system config).Reachable state)
    (member : geo ∈ state.events) (draft : isUnpublished geo.openStatus = true) :
    geo.versionNo = 0 := by
  rcases wellFormed_of_reachable reachable member with ⟨first, _, wellFormed⟩
  exact wellFormed.draft.mp draft

/-- An event without a version number has no history to display. -/
theorem readableSnapshots_nil (reachable : (system config).Reachable state)
    (member : geo ∈ state.events) (zero : geo.versionNo = 0) : geo.readableSnapshots = [] := by
  rcases wellFormed_of_reachable reachable member with ⟨first, _, wellFormed⟩
  have numbers : versionNumbers geo = [] := by
    rw [← eventLog_numbers, wellFormed.numbers]
    simp only [eventLog, zero, Nat.zero_sub, List.range'_zero]
  unfold Event.readableSnapshots
  rw [List.map_eq_nil_iff.mp numbers]
  rfl

/-! ### A write of the form -/

/-- The files a write of the form drops: proof rows that neither the new body nor
history shows, and files of the sources. -/
theorem finishWrite_dropped {base : Option Event} {specs : List SourceSpec} {user : User}
    {tx : Events.Transaction} {planned : List PlannedSource} {proofHtml : Option Body}
    {proofFiles : List UploadFile} {written : Written}
    (planning : planSources config tx base specs user = .ok planned)
    (finishing : finishWrite config tx geo planned proofHtml proofFiles = .ok written)
    (sources : (base.map Event.sources).getD [] = geo.sources) :
    ∀ object ∈ written.dropped,
      object.storageUrl ∈ geo.proofUrls ∧ object.storageUrl ∉ historyPinnedSrcs geo ∨
        object.storageUrl ∈ geo.sourceUrls := by
  rcases finishWrite_ok finishing with ⟨applied, attached, applying, attaching, rfl⟩
  rcases attachEvidence_ok attaching with ⟨_, _, _, _, _, _, dropped, _⟩
  unfold applySources at applying
  simp only [bind_eq_ok, pure_eq_ok] at applying
  rcases applying with ⟨_, _, rfl⟩
  intro object member
  rcases List.mem_append.mp member with proof | source
  · rw [dropped] at proof
    rcases List.mem_map.mp proof with ⟨media, removed, rfl⟩
    unfold droppedProofMedia at removed
    rw [List.mem_filter, decide_eq_true_eq, List.mem_append, not_or] at removed
    exact .inl ⟨List.mem_map.mpr ⟨media, removed.1, rfl⟩, removed.2.2⟩
  · refine .inr (mem_sourceUrls.mpr ?_)
    rcases List.mem_append.mp source with gone | lost
    · rcases List.mem_map.mp gone with ⟨media, held, rfl⟩
      rcases List.mem_filterMap.mp held with ⟨source, kept, holds⟩
      exact ⟨source, List.mem_of_mem_filter kept, media, holds, rfl⟩
    · rcases List.mem_map.mp lost with ⟨media, held, rfl⟩
      rcases List.mem_filterMap.mp held with ⟨plan, inPlanned, takes⟩
      rw [Option.ite_none_left_eq_some] at takes
      rcases Option.bind_eq_some_iff.mp takes.2 with ⟨source, names, holds⟩
      have stored := (planSources_files planning plan inPlanned).1 source names
      rw [sources] at stored
      exact ⟨source, stored, media, holds, rfl⟩

/-- An image a readable version shows is pinned while a proof row holds it. -/
theorem historyPinned_of_shown (pinned : Pinned geo) (versioned : geo.versionNo ≠ 0)
    {snapshot : Snapshot} (readable : snapshot ∈ geo.readableSnapshots)
    (shown : url ∈ imageSrcs snapshot.proof) (held : url ∈ geo.proofUrls) :
    url ∈ historyPinnedSrcs geo := by
  unfold historyPinnedSrcs referencedMediaUrls
  rw [if_neg versioned, List.mem_flatMap]
  exact ⟨snapshot, readable, pinned snapshot readable url shown held⟩

/-- A file a write of the form drops, and the event still displays, is kept or held.
`filed` is the event between the filing of its version and the write. -/
theorem finishWrite_spares {base : Option Event} {specs : List SourceSpec} {user : User}
    {tx : Events.Transaction} {filed : Event} {planned : List PlannedSource} {proofHtml : Option Body}
    {proofFiles : List UploadFile} {written : Written}
    (planning : planSources config tx base specs user = .ok planned)
    (finishing : finishWrite config tx filed planned proofHtml proofFiles = .ok written)
    (sources : (base.map Event.sources).getD [] = filed.sources) (pinned : Pinned filed)
    (history : ∀ snapshot ∈ filed.readableSnapshots, filed.versionNo ≠ 0 ∧
      ∀ url ∈ filed.sourceUrls, ∃ snapshot ∈ filed.readableSnapshots,
        ∃ entry ∈ snapshot.sourceMedia, entry.storageUrl = url)
    {object : StoredObject} (dropped : object ∈ written.dropped)
    (keyed : config.storage.keyFromUrl object.storageUrl ≠ none)
    (displayed : object.storageUrl ∈ displayedUrls written.event) :
    object.storageUrl ∈ displayedProofSrcs written.event.proof ∨
      object.storageUrl ∈ written.event.heldUrls := by
  have snapshots := (finishWrite_pinned finishing).1
  rcases held_or_shown displayed with held | shown | ⟨snapshot, readable, shown⟩
  · exact .inr held
  · exact .inl (mem_displayedProofSrcs.mpr ⟨shown, isPlaceholder_of_keyed keyed⟩)
  · rw [snapshots] at readable
    have versioned := history snapshot readable
    rcases finishWrite_dropped planning finishing sources object dropped with ⟨row, unpinned⟩ | file
    · exact absurd (historyPinned_of_shown pinned versioned.1 readable shown row) unpinned
    · rcases versioned.2 _ file with ⟨holder, filedThere, entry, names, same⟩
      refine .inr (mem_heldUrls.mpr (.inr (.inr ⟨holder, ?_, entry, names, same⟩)))
      rw [snapshots]
      exact filedThere

/-- A new event has no file to drop. -/
theorem Drafted.dropped {written : Written} (drafted : Drafted config state written) :
    written.dropped = [] := by
  have empty : ∀ {geo : Event} {dropped : List StoredObject}, geo.proofUrls = [] →
      geo.sourceUrls = [] → (∀ object ∈ dropped,
        object.storageUrl ∈ geo.proofUrls ∧ object.storageUrl ∉ historyPinnedSrcs geo ∨
          object.storageUrl ∈ geo.sourceUrls) → dropped = [] := by
    intro geo dropped proofUrls sourceUrls listed
    refine List.eq_nil_iff_forall_not_mem.mpr fun object member => ?_
    simpa [proofUrls, sourceUrls] using listed object member
  cases drafted with
  | created _ creating =>
      rcases createWithEvidence_ok creating with ⟨_, _, _, planning, inviting, finishing⟩
      rcases inviteOnPublish_event inviting with ⟨_, rfl⟩
      exact empty rfl rfl (finishWrite_dropped planning finishing rfl)
  | requested _ creating =>
      rcases createRequest_ok creating with ⟨_, _, _, planning, finishing⟩
      exact empty rfl rfl (finishWrite_dropped planning finishing rfl)

/-- What an edit drops and the event still displays is kept, or held by a row. -/
theorem Edited.spares {written : Written} (reachable : (system config).Reachable state)
    (found : row ∈ state.events) (edited : Edited config state row written) :
    (∀ object ∈ written.dropped, object.storageUrl ∈ namedUrls config row) ∧
    ∀ object ∈ written.dropped, config.storage.keyFromUrl object.storageUrl ≠ none →
      object.storageUrl ∈ displayedUrls written.event →
        object.storageUrl ∈ displayedProofSrcs written.event.proof ∨
          object.storageUrl ∈ written.event.heldUrls := by
  have named : ∀ {filed : Event} {object : StoredObject}, (object.storageUrl ∈ row.proofUrls ∧
      object.storageUrl ∉ historyPinnedSrcs filed ∨ object.storageUrl ∈ row.sourceUrls) →
        object.storageUrl ∈ namedUrls config row := by
    rintro filed object (⟨proof, _⟩ | source)
    · exact namedUrls_proof proof
    · exact namedUrls_source source
  have pinned := pinned_of_reachable reachable found
  cases edited with
  | updated _ updating =>
      rcases updateRequest_ok updating with ⟨_, _, _, _, requested, planning, finishing⟩
      have phased := phased_of_reachable reachable found
      have draft : isUnpublished row.openStatus = true := by
        rw [phased.openStatus (by simp [requested]), requested]
        rfl
      have empty := readableSnapshots_nil reachable found
        (versionNo_of_draft reachable found draft)
      refine ⟨fun object dropped => named (finishWrite_dropped planning finishing rfl object dropped),
        fun object => finishWrite_spares planning finishing rfl pinned ?_⟩
      intro snapshot readable
      have listed : snapshot ∈ row.readableSnapshots := readable
      simp [empty] at listed
  | saved _ saving =>
      rcases saveVersion_ok saving with ⟨_, _, _, _, planning, crediting, finishing⟩
      rcases creditOnPublish_event crediting with ⟨_, _, rfl⟩
      refine ⟨fun object dropped => named (finishWrite_dropped planning finishing rfl object dropped),
        fun object => finishWrite_spares planning finishing rfl ?_ ?_⟩
      · refine pinned.step config ?_ fun url held => .inl held
        intro snapshot readable
        rw [readableSnapshots_append rfl rfl rfl] at readable
        rcases List.mem_append.mp readable with old | new
        · exact .inl old
        · exact .inr (List.mem_singleton.mp new)
      · -- the version just filed names every source file the edit may drop
        intro snapshot _
        refine ⟨Nat.succ_ne_zero _, fun url held => ⟨buildSnapshot row, ?_, ?_⟩⟩
        · rw [readableSnapshots_append rfl rfl rfl]
          exact List.mem_append_right _ List.mem_cons_self
        · exact mem_sourceMedia_buildSnapshot.mpr held

/-! ### An import -/

/-- What an import replaces and the event still displays, a row holds. -/
theorem upsertOne_spares {detection : Detection} {resolved : DetectionMedia} {imported : Imported}
    (reachable : (system config).Reachable state) (found : row ∈ state.events)
    (upserting : upsertOne config (state.transaction config) row detection resolved =
      .ok (some imported)) :
    (∀ object ∈ imported.replaced, object.storageUrl ∈ namedUrls config row) ∧
    ∀ object ∈ imported.replaced, object.storageUrl ∈ displayedUrls imported.event →
      object.storageUrl ∈ imported.event.heldUrls := by
  have opened := (upsertOne_ok upserting).1
  rcases (upsertOne_ok upserting).2 with ⟨_, _, none, _, _⟩ | ⟨_, _, rfl⟩
  · simp [none]
  · refine ⟨?_, ?_⟩
    · intro object member
      rcases List.mem_map.mp member with ⟨media, held, rfl⟩
      rcases List.mem_map.mp held with ⟨⟨role, _⟩, stored, rfl⟩
      rcases List.mem_append.mp stored with proof | source
      · rcases List.mem_map.mp proof with ⟨media, inRows, same⟩
        rw [← same]
        exact namedUrls_proof (List.mem_map_of_mem inRows)
      · rcases List.mem_map.mp source with ⟨media, inRows, same⟩
        rw [← same]
        exact namedUrls_source (List.mem_map_of_mem inRows)
    · intro object _ displayed
      rcases held_or_shown displayed with held | shown | ⟨snapshot, readable, _⟩
      · exact held
      · rw [imageSrcs_htmlFromText] at shown
        rcases List.mem_map.mp shown with ⟨media, images, same⟩
        refine mem_heldUrls.mpr (.inl (List.mem_map.mpr ⟨media, ?_, same⟩))
        exact List.mem_of_mem_filter images
      · -- a row an import writes has no history
        have zero : row.versionNo = 0 := by
          unfold rowDisposition at opened
          split at opened
          · contradiction
          split at opened
          · contradiction
          split at opened
          · contradiction
          · omega
        have listed : snapshot ∈ row.readableSnapshots := readable
        simp [readableSnapshots_nil reachable found zero] at listed

/-! ### A redaction -/

/-- The readable versions other than one number. -/
def otherSnapshots (geo : Event) (versionNo : Nat) : List Snapshot :=
  ({ geo with versions := geo.versions.filter fun version =>
    version.versionNo ≠ versionNo }).readableSnapshots

/-- A key a redaction deletes with a source file: nothing holds or shows the file. -/
theorem mem_redactionKeys {events : List Event} {redaction : Redaction}
    (freed : key ∈ redactionKeys config events redaction) :
    ∃ entry ∈ redaction.supersededSources,
      entry.storageUrl ∉ displayedProofSrcs redaction.event.proof ∧
      (∀ geo ∈ events, entry.storageUrl ∉ geo.heldUrls) ∧
      ∃ own, config.storage.keyFromUrl entry.storageUrl = some own ∧ key ∈ imageKeys own := by
  unfold redactionKeys derivedKeys orphanedSourceMedia at freed
  simp only [List.mem_flatMap, List.mem_map, List.mem_filter, decide_eq_true_eq] at freed
  rcases freed with ⟨_, ⟨entry, ⟨superseded, free, unshown⟩, rfl⟩, taken⟩
  unfold isUnreferenced at free
  rw [List.all_eq_true] at free
  refine ⟨entry, superseded, unshown, fun geo member => by simpa using free geo member, ?_⟩
  cases keyed : config.storage.keyFromUrl entry.storageUrl with
  | none => simp [objectKeys, keyed] at taken
  | some own => exact ⟨own, rfl, objectKeys_subset_imageKeys keyed taken⟩

/-- Every source file of the redacted version that another readable version's body
shows is also a file of a live source or of another readable version's sources, or
an image of the live body. -/
def SparesImages (geo : Event) (versionNo : Nat) : Prop :=
  ∀ version ∈ geo.versions, version.versionNo = versionNo → version.redactedAt = none →
    ∀ snapshot ∈ version.snapshot, ∀ entry ∈ snapshot.sourceMedia,
      (∃ other ∈ otherSnapshots geo versionNo, entry.storageUrl ∈ imageSrcs other.proof) →
        entry.storageUrl ∈ geo.sourceUrls ∨ entry.storageUrl ∈ imageSrcs geo.proof ∨
          ∃ other ∈ otherSnapshots geo versionNo, ∃ held ∈ other.sourceMedia,
            held.storageUrl = entry.storageUrl

instance (geo : Event) (versionNo : Nat) : Decidable (SparesImages geo versionNo) := by
  unfold SparesImages
  infer_instance

/-- A redaction leaves the other readable versions as they were. -/
theorem mem_readableSnapshots_redacted {tx : Events.Transaction} {actorId : Uuid} {versionNo : Nat}
    {snapshot : Snapshot} :
    snapshot ∈ (redacted tx row actorId versionNo).readableSnapshots ↔
      snapshot ∈ otherSnapshots row versionNo := by
  unfold otherSnapshots
  rw [mem_readableSnapshots, mem_readableSnapshots]
  simp only [redacted, List.mem_map, List.mem_filter, decide_eq_true_eq]
  constructor
  · rintro ⟨_, ⟨version, filed, rfl⟩, stands, content⟩
    split at stands
    · simp [EventVersion.redact] at stands
    · rename_i other
      rw [if_neg other] at content
      exact ⟨version, ⟨filed, other⟩, stands, content⟩
  · rintro ⟨version, ⟨filed, other⟩, stands, content⟩
    exact ⟨version, ⟨version, filed, if_neg other⟩, stands, content⟩

theorem redactVersion_spares {actorId : Uuid} {versionNo : Nat} {redaction : Redaction}
    (reachable : (system config).Reachable state) (found : row ∈ state.events)
    (spares : SparesImages row versionNo)
    (redacting : redactVersion (state.transaction config) row actorId versionNo =
      .ok (some redaction)) :
    ((∀ object ∈ redaction.removedProofs, object.storageUrl ∈ namedUrls config row) ∧
      ∀ object ∈ redaction.removedProofs, config.storage.keyFromUrl object.storageUrl ≠ none →
        object.storageUrl ∈ displayedUrls redaction.event →
          object.storageUrl ∈ redaction.event.heldUrls) ∧
    (∀ entry ∈ redaction.supersededSources, entry.storageUrl ∈ namedUrls config row) ∧
      ∀ entry ∈ redaction.supersededSources, config.storage.keyFromUrl entry.storageUrl ≠ none →
        entry.storageUrl ∈ displayedUrls redaction.event →
          entry.storageUrl ∈ displayedProofSrcs redaction.event.proof ∨
            entry.storageUrl ∈ redaction.event.heldUrls := by
  have pinned := pinned_of_reachable reachable found
  have snapshots := (redactVersion_snapshots redacting).2
  rcases redactVersion_ok redacting with ⟨version, lookup, readable, rfl⟩
  have filed := List.mem_of_find?_eq_some lookup
  have number : version.versionNo = versionNo := by simpa using List.find?_some lookup
  have others : ∀ snapshot, snapshot ∈ (prunedProof (redacted (state.transaction config) row
      actorId versionNo)).readableSnapshots ↔ snapshot ∈ otherSnapshots row versionNo :=
    fun snapshot => mem_readableSnapshots_redacted
  refine ⟨⟨?_, ?_⟩, ?_, ?_⟩
  · intro object member
    rcases List.mem_map.mp member with ⟨media, dropped, rfl⟩
    exact namedUrls_proof (List.mem_map_of_mem (List.mem_of_mem_filter dropped))
  · intro object member keyed displayed
    rcases List.mem_map.mp member with ⟨media, dropped, rfl⟩
    unfold droppedProofMedia keptProofSrcs at dropped
    rw [List.mem_filter, decide_eq_true_eq, List.mem_append, not_or] at dropped
    rcases held_or_shown displayed with held | shown | ⟨snapshot, stands, shown⟩
    · exact held
    · exact absurd (mem_displayedProofSrcs.mpr ⟨shown, isPlaceholder_of_keyed keyed⟩) dropped.2.1
    · refine absurd ?_ dropped.2.2
      have versioned : row.versionNo ≠ 0 := by
        intro zero
        have listed := snapshots snapshot stands
        simp [readableSnapshots_nil reachable found zero] at listed
      unfold historyPinnedSrcs referencedMediaUrls
      refine (if_neg versioned).symm ▸ List.mem_flatMap.mpr ⟨snapshot, stands, ?_⟩
      exact pinned snapshot (snapshots snapshot stands) _ shown (List.mem_map_of_mem dropped.1)
  · intro entry member
    cases content : version.snapshot with
    | none => simp [content] at member
    | some snapshot =>
        simp only [content, Option.map_some, Option.getD_some] at member
        have inRow := mem_readableSnapshots.mpr ⟨version, filed, readable, content⟩
        exact mem_namedUrls.mpr (.inl (mem_heldUrls.mpr (.inr (.inr
          ⟨snapshot, inRow, entry, member, rfl⟩))))
  · intro entry member keyed displayed
    cases content : version.snapshot with
    | none => simp [content] at member
    | some blanked =>
        simp only [content, Option.map_some, Option.getD_some] at member
        have shownLive : entry.storageUrl ∈ imageSrcs row.proof →
            entry.storageUrl ∈ displayedProofSrcs row.proof := fun shown =>
          mem_displayedProofSrcs.mpr ⟨shown, isPlaceholder_of_keyed keyed⟩
        rcases held_or_shown displayed with held | shown | ⟨snapshot, stands, shown⟩
        · exact .inr held
        · exact .inl (shownLive shown)
        · rcases spares version filed number readable blanked content entry member
            ⟨snapshot, (others snapshot).mp stands, shown⟩ with live | image | ⟨other, stays, files⟩
          · exact .inr (mem_heldUrls.mpr (.inr (.inl live)))
          · exact .inl (shownLive image)
          · exact .inr (mem_heldUrls.mpr (.inr (.inr ⟨other, (others other).mpr stays, files⟩)))

/-! ### Erasing -/

/-- Erasing an event deletes objects it named. -/
theorem namedUrls_of_eventObjects {object : StoredObject} (member : object ∈ eventObjects row) :
    object.storageUrl ∈ namedUrls config row := by
  have listed := mem_byUrl member
  rw [List.mem_append, List.mem_append] at listed
  refine mem_namedUrls.mpr (.inl (mem_heldUrls.mpr ?_))
  rcases listed with (proof | source) | file
  · rcases List.mem_map.mp proof with ⟨media, inRows, rfl⟩
    exact .inl (List.mem_map_of_mem inRows)
  · rcases List.mem_map.mp source with ⟨media, held, rfl⟩
    exact .inr (.inl (List.mem_map_of_mem held))
  · rcases List.mem_map.mp file with ⟨entry, named, rfl⟩
    rcases List.mem_flatMap.mp named with ⟨snapshot, readable, inSources⟩
    exact .inr (.inr ⟨snapshot, readable, entry, inSources, rfl⟩)

/-- Objects of events a step deletes, or of uploads, are displayed by none it leaves. -/
theorem erase_spares (rows : State) (doomed : Event → Bool) {objects : List StoredObject}
    (reachable : (system config).Reachable state)
    (names : ∀ {holder url}, Names config rows holder url → Names config state holder url)
    (drawn_le : state.drawn ≤ rows.drawn)
    (spared : ∀ geo ∈ rows.events, ∃ row ∈ state.events, row.id = geo.id ∧ doomed row = false)
    (listed : ∀ object ∈ objects,
      (∃ row ∈ state.events, doomed row = true ∧ object.storageUrl ∈ namedUrls config row) ∨
        ∃ upload ∈ state.uploads, object.storageUrl = config.storage.publicUrl upload.storageKey)
    (member : geo ∈ rows.events) : ∀ key ∈ displayedKeys config geo,
      key ∉ sweepUnreferenced config.storage rows.events objects [] := by
  have unique := (identified_of_reachable reachable).unique
  refine sweep_spares (custody_of_reachable reachable)
    (Transfer.of_imp drawn_le (.event 0) names) member ?_
  intro object inObjects
  rcases listed object inObjects with ⟨row, inRows, dies, named⟩ | ⟨upload, inUploads, isUrl⟩
  · refine ⟨.event row.id, ⟨row, inRows, rfl, named⟩, not_false, ?_⟩
    intro same
    rw [Holder.event.injEq] at same
    rcases spared geo member with ⟨survivor, inState, sameId, lives⟩
    have equal := List.inj_on_of_nodup_map unique inState inRows (sameId.trans same.symm)
    simp [equal, dies] at lives
  · refine ⟨.upload upload.id, ⟨upload, inUploads, rfl, isUrl⟩, not_false, ?_⟩
    intro same
    contradiction

/-! ### Every step -/

/-- A write that drops files of one event, and leaves that event. -/
theorem write_spares {rows : State} {written : Event} {objects : List StoredObject}
    {keep : List Str} {Given : Holder → Prop} {receiver : Holder} {Fresh : Holder → Str → Prop}
    (reachable : (system config).Reachable state) (keeps : ∀ id, ¬ Given (.event id))
    (transfer : Transfers config state rows Given receiver Fresh) (found : row ∈ state.events)
    (events : ∀ geo ∈ rows.events, geo.id = written.id → geo = written)
    (sameId : written.id = row.id)
    (named : ∀ object ∈ objects, object.storageUrl ∈ namedUrls config row)
    (spared : ∀ object ∈ objects, config.storage.keyFromUrl object.storageUrl ≠ none →
      object.storageUrl ∈ displayedUrls written →
        object.storageUrl ∈ keep ∨ object.storageUrl ∈ written.heldUrls)
    (member : geo ∈ rows.events) : ∀ key ∈ displayedKeys config geo,
      key ∉ sweepUnreferenced config.storage rows.events objects keep := by
  refine sweep_spares (custody_of_reachable reachable) transfer member ?_
  intro object inObjects
  have holds : Names config state (.event row.id) object.storageUrl :=
    ⟨row, found, rfl, named object inObjects⟩
  refine ⟨.event row.id, holds, keeps _, ?_⟩
  intro same displayed
  rw [Holder.event.injEq] at same
  have equal := events geo member (same.symm.trans sameId.symm)
  subst equal
  exact spared object inObjects (keyed_of_named (custody_of_reachable reachable) holds) displayed

/-- An accepted request deletes no key an event displays after it, as long as a
redaction spares the images of the versions it leaves readable. -/
theorem Outcome.spares {request : Request} {left : Effect}
    (reachable : (system config).Reachable state)
    (outcome : Outcome config state request left)
    (guard : ∀ row ∈ state.events, ∀ actorId versionNo,
      request = .redactVersion row.id actorId versionNo → SparesImages row versionNo)
    (member : geo ∈ left.rows.events) : ∀ key ∈ displayedKeys config geo, key ∉ left.freed := by
  have frees : left.freed = [] → ∀ key ∈ displayedKeys config geo, key ∉ left.freed := by
    intro none key _
    simp [none]
  rcases outcome.transfer with ⟨Given, receiver, Fresh, keeps, transfer⟩
  cases outcome with
  | settled _ => exact frees rfl
  | staged _ => exact frees rfl
  | reaped =>
      refine erase_spares (reapEffect config state).rows (fun _ => false) reachable names_reap
        (le_refl _) ?_ ?_ member
      · exact fun row inRows => ⟨row, inRows, rfl, rfl⟩
      · intro object inObjects
        rcases List.mem_map.mp inObjects with ⟨upload, expired, rfl⟩
        exact .inr ⟨upload, List.mem_of_mem_filter expired, rfl⟩
  | @inserted written drafted =>
      refine sweep_spares (custody_of_reachable reachable) transfer member ?_
      intro object dropped
      exact absurd dropped (by rw [drafted.dropped]; exact List.not_mem_nil)
  | wrote found edited =>
      have spares := edited.spares reachable found
      exact write_spares reachable keeps transfer found (fun _ => mem_put_of_id) edited.id
        spares.1 spares.2 member
  | persisted _ persisting =>
      rcases persistOne_ok persisting with ⟨_, rfl⟩
      refine sweep_spares (custody_of_reachable reachable) transfer member ?_
      intro object replaced
      simp at replaced
  | upserted found upserting =>
      have spares := upsertOne_spares reachable found upserting
      exact write_spares reachable keeps transfer found (fun _ => mem_put_of_id)
        (upsertOne_id upserting) spares.1
        (fun object inObjects _ displayed => .inr (spares.2 object inObjects displayed)) member
  | @redacted row _ _ _ asked found redacting =>
      have spares := redactVersion_spares reachable found (guard _ found _ _ asked) redacting
      intro key displayed freed
      rcases List.mem_append.mp freed with proofs | files
      · exact write_spares reachable keeps transfer found (fun _ => mem_put_of_id)
          (redactVersion_id redacting) spares.1.1
          (fun object inObjects keyed shown => .inr (spares.1.2 object inObjects keyed shown))
          member key displayed proofs
      · rcases mem_redactionKeys files with ⟨entry, superseded, unshown, free, own, keyed, taken⟩
        have named : Names config state (.event row.id) entry.storageUrl :=
          ⟨row, found, rfl, spares.2.1 entry superseded⟩
        have twin := displayed_twin (custody_of_reachable reachable) transfer member displayed
          named (keeps _) keyed taken
        have sameId := Holder.event.inj twin.2
        have equal := mem_put_of_id member (sameId.symm.trans (redactVersion_id redacting).symm)
        subst equal
        rcases spares.2.2 entry superseded (by simp [keyed]) twin.1 with shown | held
        · exact unshown shown
        · exact free _ member held
  | moved _ _ _ => exact frees rfl
  | erased doomed =>
      refine erase_spares (eraseEffect config state doomed).rows doomed reachable names_erase
        (le_refl _) ?_ ?_ member
      · intro geo inRows
        have kept := List.mem_filter.mp inRows
        exact ⟨geo, kept.1, rfl, by simpa using kept.2⟩
      · intro object inObjects
        rcases List.mem_flatMap.mp inObjects with ⟨row, inDoomed, inRow⟩
        have dies := List.mem_filter.mp inDoomed
        exact .inl ⟨row, dies.1, dies.2, namedUrls_of_eventObjects inRow⟩
  | banned _ => exact frees rfl
  | restored _ => exact frees rfl
  | @forgotten user _ =>
      refine erase_spares (hardDeleteUser config state user).rows (diesWith state.users user)
        reachable names_forget (le_refl _) ?_ ?_ member
      · intro geo inRows
        rcases List.mem_map.mp inRows with ⟨row, kept, rfl⟩
        rw [List.mem_filter] at kept
        have lives : diesWith state.users user row = false := by simpa using kept.2
        rcases passOn_event lives with ⟨_, _, _, _, passed⟩
        exact ⟨row, kept.1, by rw [passed]; rfl, lives⟩
      · intro object inObjects
        rcases List.mem_append.mp inObjects with ofEvent | ofUpload
        · rcases List.mem_flatMap.mp ofEvent with ⟨row, inDoomed, inRow⟩
          have dies := List.mem_filter.mp inDoomed
          exact .inl ⟨row, dies.1, dies.2, namedUrls_of_eventObjects inRow⟩
        · rcases List.mem_map.mp ofUpload with ⟨upload, own, rfl⟩
          exact .inr ⟨upload, List.mem_of_mem_filter own, rfl⟩

/-! ### A commit that failed -/

theorem owner_of_objectKeys {index : Nat} {object : StoredObject}
    (carries : Carries config index object.storageUrl)
    (member : key ∈ objectKeys config.storage object) :
    keyOwner key = config.uuids.text (config.uuids.draw index) := by
  rcases carries.keys with ⟨own, keyed, owner⟩
  exact owner key (objectKeys_subset_imageKeys keyed member)

theorem owner_of_plainKeys {rows : List Media} {draws : Nat}
    (storedWith : StoredWith config state draws rows)
    (member : key ∈ plainKeys config.storage rows) :
    ∃ index, state.drawn ≤ index ∧ index < state.drawn + draws ∧
      keyOwner key = config.uuids.text (config.uuids.draw index) := by
  rcases List.mem_filterMap.mp member with ⟨media, inRows, keyed⟩
  rcases storedWith.fresh.1 media inRows with ⟨index, above, below, carries⟩
  rcases carries.keys with ⟨own, ownKey, owner⟩
  rw [ownKey, Option.some.injEq] at keyed
  subst keyed
  exact ⟨index, above, below, owner own List.mem_cons_self⟩

/-- The keys a request stored, before its commit, are new. -/
theorem Outcome.stored {request : Request} {left : Effect}
    (outcome : Outcome config state request left) (member : key ∈ left.stored) :
    ∃ index, state.drawn ≤ index ∧ index < left.rows.drawn ∧
      keyOwner key = config.uuids.text (config.uuids.draw index) := by
  have imports : ∀ {imported : Imported} {events : List Event},
      StoredWith config state imported.draws (imported.stored.map Prod.snd) →
        key ∈ (importEffect config state events imported).stored → ∃ index,
          state.drawn ≤ index ∧ index < state.drawn + imported.draws ∧
            keyOwner key = config.uuids.text (config.uuids.draw index) := by
    intro imported events storedWith inStored
    rcases List.mem_flatMap.mp inStored with ⟨⟨role, media⟩, inRows, taken⟩
    rcases storedWith.fresh.1 media (List.mem_map_of_mem inRows) with ⟨index, above, below, carries⟩
    refine ⟨index, above, below, ?_⟩
    cases role with
    | source =>
        simp only [derivedKeys, mediaObjects, List.map_cons, List.map_nil, List.flatMap_cons,
          List.flatMap_nil, List.append_nil] at taken
        exact owner_of_objectKeys carries taken
    | proof =>
        rcases carries.keys with ⟨own, keyed, owner⟩
        simp only [plainKeys, List.filterMap_cons, keyed, List.filterMap_nil,
          List.mem_singleton] at taken
        exact owner key (taken ▸ List.mem_cons_self)
  cases outcome with
  | staged staging =>
      rcases stageUpload_ok staging with ⟨kind, digests, rfl⟩
      rcases List.mem_flatMap.mp member with ⟨object, inObjects, taken⟩
      rcases List.mem_map.mp inObjects with ⟨upload, staged, rfl⟩
      rcases List.getElem?_of_mem staged with ⟨place, found⟩
      have inside := (List.getElem?_eq_some_iff.mp found).1
      refine ⟨_, Nat.le_add_right _ (2 * place + 1), ?_,
        owner_of_objectKeys (carries_of_mintsAt (stagedUploads_mint found)) taken⟩
      show _ < state.drawn + 2 * (stagedUploads _ _ _ _ _ _).length
      omega
  | inserted drafted => exact owner_of_plainKeys drafted.named.2 member
  | wrote _ edited => exact owner_of_plainKeys edited.named.2 member
  | persisted _ persisting => exact imports (persistOne_named persisting).2 member
  | upserted _ upserting => exact imports (upsertOne_stored upserting) member
  | settled _ => simp [Effect.ofRows] at member
  | reaped => simp [reapEffect] at member
  | redacted _ _ _ => simp [redactEffect] at member
  | moved _ _ _ => simp [Effect.ofRows] at member
  | erased _ => simp [eraseEffect] at member
  | banned _ => simp [Effect.ofRows] at member
  | restored _ => simp [Effect.ofRows] at member
  | forgotten _ => simp [hardDeleteUser] at member

/-! ### Every run -/

/-- A step that spares the images of the versions it leaves readable: any but the
committed redaction of a version whose source files another version's body relies on. -/
def Spares (state : State) (label : Label) : Prop :=
  ∀ eventId actorId versionNo, label.request = .redactVersion eventId actorId versionNo →
    label.commits = true → ∀ geo ∈ state.events, geo.id = eventId → SparesImages geo versionNo

theorem step_spares {label : Label} (reachable : (system config).Reachable state)
    (spares : Spares state label) (stepped : step config label state = .ok next)
    (member : geo ∈ next.events) : ∀ key ∈ displayedKeys config geo, key ∉ next.swept := by
  rcases step_ok stepped with ⟨left, outcome, ⟨commits, rfl⟩ | ⟨_, rfl⟩⟩
  · refine outcome.spares reachable ?_ member
    intro row inRows actorId versionNo asked
    exact spares row.id actorId versionNo asked commits row inRows rfl
  · -- the keys of a failed write are new; what an event displays is not
    intro key displayed swept
    rcases outcome.stored swept with ⟨index, above, _, owner⟩
    rcases mem_displayedKeys.mp displayed with ⟨url, inDisplayed, own, keyed, taken⟩
    have named : Names config state (.event geo.id) url :=
      ⟨geo, member, rfl, namedUrls_of_displayed inDisplayed (by simp [keyed])⟩
    rcases (custody_of_reachable reachable).serial named with ⟨old, below, carries⟩
    rcases carries.keys with ⟨_, ownKey, oldOwner⟩
    rw [ownKey, Option.some.injEq] at keyed
    subst keyed
    have texts := owner.symm.trans (oldOwner key taken)
    have same := config.uuids.draw_injective (config.uuids.text_injective texts)
    omega

/-- In every run whose redactions spare the images of the versions they leave
readable, no step deletes a key that any event displays after it. -/
theorem displayed_never_swept
    (reachable : ((system config).restrict Spares).Reachable state) (member : geo ∈ state.events) :
    ∀ key ∈ displayedKeys config geo, key ∉ state.swept := by
  rcases reachable with ⟨start, init, run⟩
  cases run with
  | refl =>
      rcases init with ⟨now, rfl⟩
      simp [initial] at member
  | tail earlier stepped =>
      rcases stepped with ⟨label, spares, stepped⟩
      exact step_spares ⟨start, init, System.Run.of_restrict earlier⟩ spares stepped member

/-! ### The redaction that does not -/

/-- The staged files of a small deployment: upload 2 under key 3, upload 4 under key 5. -/
def smallFileUrl (key : String) : String :=
  "https://cdn.example.org/uploads/00000000-0000-4000-8000-" ++ key ++ ".png"

/-- Event 6 shows its source file (key 3) in its proof. Version 2 replaces the file
by another (key 5) and still shows the first; version 3 shows the second. -/
def smallCitation : List Request :=
  [.signUp (str "ann") (str "ann@example.org") [], .addConflict (str "c"),
    .stageUpload 0 smallFile, .stageUpload 0 smallFile,
    .createWithEvidence 0 (smallForm "t" ("<img src=\"" ++ smallFileUrl "3" ++ "\">")
      [smallSource (some 2) none] []) 1 2 [],
    .saveVersion 6 0 { smallForm "t" "" [{ smallSource (some 4) none with id := some 7 }] [] with
      proofData := none } 1 2 none none [],
    .saveVersion 6 0 (smallForm "t" ("<img src=\"" ++ smallFileUrl "5" ++ "\">")
      [{ smallSource none (some 11) with id := some 7 }] []) 1 2 none none []]

/-- Redacting version 1 deletes the file that version 2, still readable, shows. -/
theorem redaction_sweeps_displayed :
    ¬ ∀ state, (system smallConfig).Reachable state → ∀ geo ∈ state.events,
      ∀ key ∈ displayedKeys smallConfig geo, key ∉ state.swept := by
  intro always
  have accepted : (runSmall (smallCitation ++ [.redactVersion 6 0 1])).isOk = true := by
    decide +kernel
  have sweeps : ∃ key ∈ displayedKeys smallConfig
      (firstEvent (smallState (smallCitation ++ [.redactVersion 6 0 1])) (by decide +kernel)),
        key ∈ (smallState (smallCitation ++ [.redactVersion 6 0 1])).swept := by decide +kernel
  rcases sweeps with ⟨key, displayed, swept⟩
  exact always _ (smallState_reachable accepted) _ (firstEvent_mem _ _) key displayed swept

/-- Redacting version 2 instead: the files it names stay, with version 1 and live. -/
theorem displayed_never_swept_of_citation :
    ∃ geo ∈ (smallState (smallCitation ++ [.redactVersion 6 0 2])).events,
      ∀ key ∈ displayedKeys smallConfig geo,
        key ∉ (smallState (smallCitation ++ [.redactVersion 6 0 2])).swept := by
  have accepted : (runSmall (smallCitation ++ [.redactVersion 6 0 2])).isOk = true := by
    decide +kernel
  have cited : ((system smallConfig).restrict Spares).Run (initial 0) (smallState smallCitation) := by
    refine System.Run.restrict_of_runLabels ?_ (runSmall_eq (by decide +kernel))
    intro label member state eventId actorId versionNo asked
    exfalso
    simp [smallCitation] at member
    rcases member with rfl | rfl | rfl | rfl | rfl | rfl | rfl <;> simp at asked
  have spares : ∀ geo ∈ (smallState smallCitation).events, SparesImages geo 2 := by
    decide +kernel
  have redacts := cited.tail ⟨⟨.redactVersion 6 0 2, true⟩, ?_, smallState_step _ accepted⟩
  · exact ⟨_, firstEvent_mem _ (by decide +kernel),
      displayed_never_swept ⟨_, ⟨0, rfl⟩, redacts⟩ (firstEvent_mem _ _)⟩
  · intro eventId actorId versionNo asked _ geo member _
    simp only [Request.redactVersion.injEq] at asked
    rcases asked with ⟨_, _, rfl⟩
    exact spares geo member

end Vidit.World
