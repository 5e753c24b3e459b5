import Vidit.Library.Custody
import Vidit.World.History

/-!
Contract: whose object every stored URL names, over every run.

Owns:
- the URLs an event names: its rows, its readable versions, and the objects its
  proof bodies show;
- that every named URL was minted with its own UUID, which one event or one staged
  upload holds (`custody_of_reachable`);
- that a readable version keeps the row of every image its body shows
  (`pinned_of_reachable`).

Does not own: what a sweep deletes (`Vidit.World.Sweep`).
-/

namespace Vidit.World

open Vidit.Python Vidit.Accounts Vidit.Evidence Vidit.Events Vidit.Library

variable {config : Config} {state next : State} {survivors : List User}
variable {row geo : Event} {url : Str} {index : Nat}

/-! ### URLs and the draw they carry -/

/-- A URL minted with draw `index`. -/
def Carries (config : Config) (index : Nat) (url : Str) : Prop :=
  ∃ key, IsMintedKey config.uuids (config.uuids.draw index) key ∧
    url = config.storage.publicUrl key

theorem carries_of_mintsAt (minted : MintsAt config (state.transaction config) index url) :
    Carries config (state.drawn + index) url :=
  minted

theorem Carries.keys (carries : Carries config index url) :
    ∃ key, config.storage.keyFromUrl url = some key ∧
      ∀ taken ∈ imageKeys key, keyOwner taken = config.uuids.text (config.uuids.draw index) := by
  rcases carries with ⟨key, minted, rfl⟩
  exact ⟨key, config.storage.keyFromUrl_publicUrl key,
    fun taken member => keyOwner_imageKeys minted member⟩

theorem Carries.keyed (carries : Carries config index url) :
    config.storage.keyFromUrl url ≠ none := by
  rcases carries.keys with ⟨key, keyed, _⟩
  simp [keyed]

/-- Two URLs that share a key, or a derivative of one, carry the same draw. -/
theorem Carries.index_eq {other : Nat} {twin key twinKey taken : Str}
    (carries : Carries config index url) (twinCarries : Carries config other twin)
    (keyed : config.storage.keyFromUrl url = some key)
    (twinKeyed : config.storage.keyFromUrl twin = some twinKey) (member : taken ∈ imageKeys key)
    (twinMember : taken ∈ imageKeys twinKey) : index = other := by
  rcases carries.keys with ⟨_, ownKey, owner⟩
  rcases twinCarries.keys with ⟨_, otherKey, otherOwner⟩
  rw [ownKey, Option.some.injEq] at keyed
  rw [otherKey, Option.some.injEq] at twinKeyed
  subst keyed twinKeyed
  have texts := (owner taken member).symm.trans (otherOwner taken twinMember)
  exact config.uuids.draw_injective (config.uuids.text_injective texts)

theorem carries_numbered (config : Config) : Numbered (Carries config) := by
  intro index other url carries again
  rcases carries.keys with ⟨key, keyed, _⟩
  exact carries.index_eq again keyed keyed (List.mem_cons_self) (List.mem_cons_self)

theorem isPlaceholder_of_keyed (keyed : config.storage.keyFromUrl url ≠ none) :
    isPlaceholder url = false := by
  rcases Option.ne_none_iff_exists'.mp keyed with ⟨key, found⟩
  rcases getStorage_keyFromUrl found with ⟨rest, rfl⟩
  rfl

/-! ### The URLs an event names -/

/-- The objects of the deployment a body shows. -/
def keyedSrcs (config : Config) (body : Body) : List Str :=
  (imageSrcs body).filter fun src => (config.storage.keyFromUrl src).isSome

theorem mem_keyedSrcs {body : Body} : url ∈ keyedSrcs config body ↔
    url ∈ imageSrcs body ∧ config.storage.keyFromUrl url ≠ none := by
  unfold keyedSrcs
  rw [List.mem_filter, Option.isSome_iff_ne_none]

def namedUrls (config : Config) (geo : Event) : List Str :=
  geo.heldUrls ++ keyedSrcs config geo.proof ++
    geo.readableSnapshots.flatMap fun snapshot => keyedSrcs config snapshot.proof

theorem mem_heldUrls : url ∈ geo.heldUrls ↔
    url ∈ geo.proofUrls ∨ url ∈ geo.sourceUrls ∨
      ∃ snapshot ∈ geo.readableSnapshots, ∃ entry ∈ snapshot.sourceMedia,
        entry.storageUrl = url := by
  unfold Event.heldUrls referencedSourceMedia
  simp only [List.mem_append, List.mem_map, List.mem_flatMap, or_assoc]
  constructor
  · rintro (proof | source | ⟨entry, ⟨snapshot, readable, named⟩, same⟩)
    · exact .inl proof
    · exact .inr (.inl source)
    · exact .inr (.inr ⟨snapshot, readable, entry, named, same⟩)
  · rintro (proof | source | ⟨snapshot, readable, entry, named, same⟩)
    · exact .inl proof
    · exact .inr (.inl source)
    · exact .inr (.inr ⟨entry, ⟨snapshot, readable, named⟩, same⟩)

theorem mem_namedUrls : url ∈ namedUrls config geo ↔
    url ∈ geo.heldUrls ∨ url ∈ keyedSrcs config geo.proof ∨
      ∃ snapshot ∈ geo.readableSnapshots, url ∈ keyedSrcs config snapshot.proof := by
  unfold namedUrls
  simp only [List.mem_append, List.mem_flatMap, or_assoc]

theorem mem_sourceUrls : url ∈ geo.sourceUrls ↔
    ∃ source ∈ geo.sources, ∃ media, source.media = some media ∧ media.storageUrl = url := by
  unfold Event.sourceUrls
  simp only [List.mem_map, List.mem_filterMap]
  constructor
  · rintro ⟨media, ⟨source, inSources, holds⟩, same⟩
    exact ⟨source, inSources, media, holds, same⟩
  · rintro ⟨source, inSources, media, holds, same⟩
    exact ⟨media, ⟨source, inSources, holds⟩, same⟩

/-- The files a snapshot names are those of the sources it was taken of. -/
theorem mem_sourceMedia_buildSnapshot :
    (∃ entry ∈ (buildSnapshot geo).sourceMedia, entry.storageUrl = url) ↔
      url ∈ geo.sourceUrls := by
  rw [mem_sourceUrls]
  unfold Snapshot.sourceMedia buildSnapshot
  simp only [List.mem_filterMap, List.mem_map]
  constructor
  · rintro ⟨entry, ⟨stored, ⟨source, inSources, rfl⟩, holds⟩, same⟩
    rcases Option.map_eq_some_iff.mp holds with ⟨media, held, rfl⟩
    exact ⟨source, inSources, media, held, same⟩
  · rintro ⟨source, inSources, media, held, same⟩
    exact ⟨mediaEntry .source media, ⟨sourceEntry source, ⟨source, inSources, rfl⟩,
      by simp [sourceEntry, held]⟩, same⟩

/-- An event that names no more than another. -/
theorem namedUrls_subset (proofUrls : ∀ url ∈ geo.proofUrls, url ∈ namedUrls config row)
    (sourceUrls : ∀ url ∈ geo.sourceUrls, url ∈ namedUrls config row)
    (proof : ∀ url ∈ keyedSrcs config geo.proof, url ∈ namedUrls config row)
    (snapshots : ∀ snapshot ∈ geo.readableSnapshots,
      snapshot ∈ row.readableSnapshots ∨ snapshot = buildSnapshot row) :
    ∀ url ∈ namedUrls config geo, url ∈ namedUrls config row := by
  intro url named
  rcases mem_namedUrls.mp named with held | shown | ⟨snapshot, readable, shown⟩
  · rcases mem_heldUrls.mp held with inProof | inSources | ⟨snapshot, readable, files⟩
    · exact proofUrls url inProof
    · exact sourceUrls url inSources
    · rcases snapshots snapshot readable with old | rfl
      · exact mem_namedUrls.mpr (.inl (mem_heldUrls.mpr (.inr (.inr ⟨snapshot, old, files⟩))))
      · have live := mem_sourceMedia_buildSnapshot.mp files
        exact mem_namedUrls.mpr (.inl (mem_heldUrls.mpr (.inr (.inl live))))
  · exact proof url shown
  · rcases snapshots snapshot readable with old | rfl
    · exact mem_namedUrls.mpr (.inr (.inr ⟨snapshot, old, shown⟩))
    · exact mem_namedUrls.mpr (.inr (.inl shown))

/-! ### What a write of the form names -/

/-- An event names URLs of `old`, of uploads the write took, and of images it stored. -/
def NamedFrom (config : Config) (state : State) (old : List Str) (taken : List Uuid)
    (stored : List Media) (geo : Event) : Prop :=
  ∀ url ∈ namedUrls config geo, url ∈ old ∨
    (∃ upload ∈ state.uploads, upload.id ∈ taken ∧
      url = config.storage.publicUrl upload.storageKey) ∨
    ∃ media ∈ stored, media.storageUrl = url

theorem NamedFrom.mono {old larger : List Str} {taken : List Uuid} {stored : List Media}
    (named : NamedFrom config state old taken stored geo)
    (subset : ∀ url ∈ old, url ∈ larger) : NamedFrom config state larger taken stored geo := by
  intro url member
  rcases named url member with inOld | rest
  · exact .inl (subset url inOld)
  · exact .inr rest

/-- A written source holds a file of the stored ones, or of an upload taken. -/
theorem applySources_urls {base : Option Event} {specs : List SourceSpec} {user : User}
    {planned : List PlannedSource} {stored : List Source} {applied : AppliedSources}
    (planning : planSources config (state.transaction config) base specs user = .ok planned)
    (sources : (base.map Event.sources).getD [] = geo.sources)
    (applying : applySources config (state.transaction config) stored planned = .ok applied) :
    ∀ url ∈ ({ geo with sources := applied.sources }).sourceUrls, url ∈ geo.sourceUrls ∨
      ∃ upload ∈ state.uploads, upload.id ∈ applied.taken ∧
        url = config.storage.publicUrl upload.storageKey := by
  unfold applySources at applying
  simp only [bind_eq_ok, pure_eq_ok] at applying
  rcases applying with ⟨written, writing, rfl⟩
  intro url member
  rcases mem_sourceUrls.mp member with ⟨source, inSources, media, holds, rfl⟩
  rcases writeSources_files writing source inSources with ⟨plan, inPlanned, id, attached⟩
  have files := planSources_files planning plan inPlanned
  rw [sources] at files
  rw [holds] at attached
  unfold attachFile at attached
  cases takes : plan.upload with
  | some upload =>
      simp only [takes, Option.some.injEq] at attached
      refine .inr ⟨upload, files.2.1 upload takes, ?_, by rw [attached]⟩
      exact List.mem_filterMap.mpr ⟨plan, inPlanned, by simp [takes]⟩
  | none =>
      cases copies : plan.copyOf with
      | some file =>
          rcases files.2.2 file copies with ⟨origin, inStored, held⟩
          simp only [takes, copies, Option.some.injEq] at attached
          exact .inl (mem_sourceUrls.mpr ⟨origin, inStored, file.media, held, by rw [attached]⟩)
      | none =>
          simp only [takes, copies] at attached
          rw [eq_comm, Option.ite_none_right_eq_some] at attached
          rcases Option.bind_eq_some_iff.mp attached.2 with ⟨origin, names, held⟩
          exact .inl (mem_sourceUrls.mpr ⟨origin, files.1 origin names, media, held, rfl⟩)

/-- The objects a written body shows: its own event's, or images stored with it. -/
theorem writtenProof_urls {proofHtml : Option Body} {stored : List (Str × List Media)}
    (own : foreignSrcs config.storage geo (displayedProofSrcs (proofHtml.getD geo.proof)) = []) :
    ∀ url ∈ keyedSrcs config (writtenProof geo.proof proofHtml stored),
      url ∈ namedUrls config geo ∨ ∃ media ∈ stored.flatMap Prod.snd, media.storageUrl = url := by
  intro url shown
  rcases mem_keyedSrcs.mp shown with ⟨inBody, keyed⟩
  cases proofHtml with
  | none => exact .inl (mem_namedUrls.mpr (.inr (.inl shown)))
  | some html =>
      rcases mem_imageSrcs_rewriteImageSrcs inBody with kept | ⟨placed, _, urls, mapped, inUrls⟩
      · -- an image that stays is one `_reject_foreign_proof_srcs` let through
        refine .inl (mem_namedUrls.mpr (.inl ?_))
        have displayed : url ∈ displayedProofSrcs html :=
          mem_displayedProofSrcs.mpr ⟨kept, isPlaceholder_of_keyed keyed⟩
        have accepted := List.filter_eq_nil_iff.mp own url displayed
        simp only [keyed, ne_eq, not_false_eq_true, and_true, decide_eq_true_eq,
          not_not] at accepted
        unfold ownUrls historyPinnedSourceSrcs at accepted
        unfold Event.heldUrls
        rw [List.mem_append] at accepted ⊢
        refine accepted.imp_right ?_
        intro pinned
        split at pinned
        · simp at pinned
        · exact pinned
      · rcases Option.map_eq_some_iff.mp mapped with ⟨rows, found, rfl⟩
        rcases List.mem_map.mp inUrls with ⟨media, inRows, same⟩
        refine .inr ⟨media, List.mem_flatMap.mpr ⟨(placed, rows), ?_, inRows⟩, same⟩
        rcases List.lookup_eq_some_iff.mp found with ⟨earlier, later, split, _⟩
        simp [split]

theorem finishWrite_named {base : Option Event} {specs : List SourceSpec} {user : User}
    {planned : List PlannedSource} {proofHtml : Option Body} {proofFiles : List UploadFile}
    {written : Written}
    (planning : planSources config (state.transaction config) base specs user = .ok planned)
    (finishing : finishWrite config (state.transaction config) geo planned proofHtml proofFiles =
      .ok written)
    (sources : (base.map Event.sources).getD [] = geo.sources) :
    NamedFrom config state (namedUrls config geo) written.taken written.stored written.event := by
  rcases finishWrite_ok finishing with ⟨applied, attached, applying, attaching, rfl⟩
  rcases attachEvidence_ok attaching with ⟨own, pairs, images, _, _, rows, _, event⟩
  have files := applySources_urls planning sources applying
  have held : ∀ url ∈ geo.heldUrls, url ∈ namedUrls config geo :=
    fun url member => mem_namedUrls.mpr (.inl member)
  -- the event between `apply_sources` and the proof
  have middle : ∀ url ∈ namedUrls config { geo with sources := applied.sources },
      url ∈ namedUrls config geo ∨ ∃ upload ∈ state.uploads, upload.id ∈ applied.taken ∧
        url = config.storage.publicUrl upload.storageKey := by
    intro url named
    rcases mem_namedUrls.mp named with inHeld | rest
    · rcases mem_heldUrls.mp inHeld with proof | source | snapshots
      · exact .inl (held url (mem_heldUrls.mpr (.inl proof)))
      · rcases files url source with old | taken
        · exact .inl (held url (mem_heldUrls.mpr (.inr (.inl old))))
        · exact .inr taken
      · exact .inl (held url (mem_heldUrls.mpr (.inr (.inr snapshots))))
    · exact .inl (mem_namedUrls.mpr (.inr rest))
  have written : ∀ url ∈ namedUrls config attached.event,
      url ∈ namedUrls config { geo with sources := applied.sources } ∨
        ∃ media ∈ attached.stored, media.storageUrl = url := by
    intro url named
    rw [event] at named
    rcases mem_namedUrls.mp named with inHeld | shown | snapshots
    · rcases mem_heldUrls.mp inHeld with proof | others
      · rcases List.mem_map.mp proof with ⟨media, inMedia, same⟩
        rcases List.mem_append.mp inMedia with kept | stored
        · refine .inl (mem_namedUrls.mpr (.inl (mem_heldUrls.mpr (.inl ?_))))
          exact List.mem_map.mpr ⟨media, List.mem_of_mem_filter kept, same⟩
        · exact .inr ⟨media, stored, same⟩
      · exact .inl (mem_namedUrls.mpr (.inl (mem_heldUrls.mpr (.inr others))))
    · rcases writtenProof_urls own url shown with ours | stored
      · exact .inl ours
      · rw [rows]
        exact .inr stored
    · exact .inl (mem_namedUrls.mpr (.inr (.inr snapshots)))
  intro url named
  rcases written url named with inMiddle | stored
  · rcases middle url inMiddle with old | taken
    · exact .inl old
    · exact .inr (.inl taken)
  · exact .inr (.inr stored)

/-! ### What the other writes name -/

theorem mem_readableSnapshots {snapshot : Snapshot} : snapshot ∈ geo.readableSnapshots ↔
    ∃ version ∈ geo.versions, version.redactedAt = none ∧ version.snapshot = some snapshot := by
  unfold Event.readableSnapshots
  simp [and_assoc]

theorem readableSnapshots_append {version : EventVersion} {content : Snapshot}
    (versions : geo.versions = row.versions ++ [version]) (readable : version.redactedAt = none)
    (snapshot : version.snapshot = some content) :
    geo.readableSnapshots = row.readableSnapshots ++ [content] := by
  unfold Event.readableSnapshots
  rw [versions, List.filter_append, List.filterMap_append]
  simp [readable, snapshot]

/-- Rewriting versions one by one shows no snapshot that was not shown. -/
theorem readableSnapshots_map {rewrite : EventVersion → EventVersion}
    (versions : geo.versions = row.versions.map rewrite)
    (shows : ∀ version, (rewrite version).redactedAt = none →
      ∀ content, (rewrite version).snapshot = some content →
        version.redactedAt = none ∧ version.snapshot = some content) :
    ∀ snapshot ∈ geo.readableSnapshots, snapshot ∈ row.readableSnapshots := by
  intro snapshot readable
  rw [mem_readableSnapshots, versions] at readable
  rcases readable with ⟨_, filed, stands, content⟩
  rcases List.mem_map.mp filed with ⟨version, inRow, rfl⟩
  exact mem_readableSnapshots.mpr ⟨version, inRow, shows version stands snapshot content⟩

theorem namedUrls_proof (member : url ∈ row.proofUrls) : url ∈ namedUrls config row :=
  mem_namedUrls.mpr (.inl (mem_heldUrls.mpr (.inl member)))

theorem namedUrls_source (member : url ∈ row.sourceUrls) : url ∈ namedUrls config row :=
  mem_namedUrls.mpr (.inl (mem_heldUrls.mpr (.inr (.inl member))))

/-- Filing the outgoing version and editing the form's fields names nothing new. -/
theorem namedUrls_filed {user : User} {note : Option Str} {now : Instant}
    (proofUrls : geo.proofUrls = row.proofUrls) (sourceUrls : geo.sourceUrls = row.sourceUrls)
    (proof : geo.proof = row.proof)
    (versions : geo.versions = row.versions ++ [versionRow row user note (buildSnapshot row) now]) :
    ∀ url ∈ namedUrls config geo, url ∈ namedUrls config row := by
  have snapshots : geo.readableSnapshots = row.readableSnapshots ++ [buildSnapshot row] :=
    readableSnapshots_append versions rfl rfl
  refine namedUrls_subset ?_ ?_ ?_ ?_
  · intro url member
    exact namedUrls_proof (proofUrls ▸ member)
  · intro url member
    exact namedUrls_source (sourceUrls ▸ member)
  · intro url member
    exact mem_namedUrls.mpr (.inr (.inl (proof ▸ member)))
  · intro snapshot readable
    rw [snapshots] at readable
    rcases List.mem_append.mp readable with old | new
    · exact .inl old
    · exact .inr (List.mem_singleton.mp new)

theorem Moved.snapshots (moved : Moved config state row geo) :
    geo.proofUrls = row.proofUrls ∧ ∀ snapshot ∈ geo.readableSnapshots,
      snapshot ∈ row.readableSnapshots ∨ snapshot = buildSnapshot row := by
  cases moved with
  | published _ publishing =>
      rcases publishDetection_ok publishing with ⟨_, _, _, rfl⟩
      refine ⟨rfl, fun snapshot readable => ?_⟩
      rw [readableSnapshots_append rfl rfl rfl] at readable
      rcases List.mem_append.mp readable with old | new
      · exact .inl old
      · exact .inr (List.mem_singleton.mp new)
  | closed closing =>
      rcases close_ok closing with ⟨_, _, rfl⟩
      exact ⟨rfl, fun snapshot readable => .inl readable⟩
  | credited _ crediting =>
      rcases CreditVerb.run_event crediting with ⟨_, _, _, _, rfl⟩
      exact ⟨rfl, fun snapshot readable => .inl readable⟩
  | approved _ approving =>
      rcases approve_ok approving with ⟨_, _, _, _, rfl⟩
      exact ⟨rfl, fun snapshot readable => .inl readable⟩
  | hidden withholding =>
      rcases setHidden_event withholding with ⟨_, rfl⟩
      exact ⟨rfl, fun snapshot readable => .inl readable⟩
  | deleted => exact ⟨rfl, fun snapshot readable => .inl readable⟩

/-- A redaction shows nothing new, and holds no row it did not hold. -/
theorem redactVersion_snapshots {tx : Events.Transaction} {actorId : Uuid} {versionNo : Nat}
    {redaction : Redaction}
    (redacting : redactVersion tx row actorId versionNo = .ok (some redaction)) :
    (∀ url ∈ redaction.event.proofUrls, url ∈ row.proofUrls) ∧
      ∀ snapshot ∈ redaction.event.readableSnapshots, snapshot ∈ row.readableSnapshots := by
  rcases redactVersion_ok redacting with ⟨_, _, _, rfl⟩
  refine ⟨?_, ?_⟩
  · intro url member
    rcases List.mem_map.mp member with ⟨media, kept, same⟩
    exact List.mem_map.mpr ⟨media, List.mem_of_mem_filter kept, same⟩
  · refine readableSnapshots_map rfl ?_
    intro version stands content shown
    split at stands
    · simp [EventVersion.redact] at stands
    · rename_i other
      rw [if_neg other] at shown
      exact ⟨stands, shown⟩

theorem forgetUser_snapshots (userId : Uuid) :
    ∀ snapshot ∈ (forgetUser userId row).readableSnapshots, snapshot ∈ row.readableSnapshots :=
  readableSnapshots_map rfl fun _ stands _ shown => ⟨stands, shown⟩

theorem Moved.named (moved : Moved config state row geo) :
    ∀ url ∈ namedUrls config geo, url ∈ namedUrls config row := by
  have same : ∀ {written : Event}, namedUrls config written = namedUrls config row →
      ∀ url ∈ namedUrls config written, url ∈ namedUrls config row := by
    intro written equal url member
    rw [← equal]
    exact member
  cases moved with
  | @published user kind conflicts _ _ publishing =>
      rcases publishDetection_ok publishing with ⟨_, _, _, rfl⟩
      refine namedUrls_filed rfl ?_ rfl rfl
      unfold Event.sourceUrls
      simp only [publishedDetection, creditGeolocator, Event.setGeolocator, filedEvent,
        List.filterMap_map]
      congr 1
      apply List.filterMap_congr
      intro source _
      simp only [Function.comp_apply]
      split <;> rfl
  | closed closing =>
      rcases close_ok closing with ⟨_, _, rfl⟩
      exact same rfl
  | credited _ crediting =>
      rcases CreditVerb.run_event crediting with ⟨_, _, _, _, rfl⟩
      exact same rfl
  | approved _ approving =>
      rcases approve_ok approving with ⟨_, _, _, _, rfl⟩
      exact same rfl
  | hidden withholding =>
      rcases setHidden_event withholding with ⟨_, rfl⟩
      exact same rfl
  | deleted => exact same rfl

theorem redactVersion_named {tx : Events.Transaction} {actorId : Uuid} {versionNo : Nat}
    {redaction : Redaction}
    (redacting : redactVersion tx row actorId versionNo = .ok (some redaction)) :
    ∀ url ∈ namedUrls config redaction.event, url ∈ namedUrls config row := by
  have shows := redactVersion_snapshots redacting
  rcases redactVersion_ok redacting with ⟨_, _, _, rfl⟩
  refine namedUrls_subset ?_ ?_ ?_ ?_
  · exact fun url member => namedUrls_proof (shows.1 url member)
  · exact fun url member => namedUrls_source member
  · exact fun url member => mem_namedUrls.mpr (.inr (.inl member))
  · exact fun snapshot readable => .inl (shows.2 snapshot readable)

theorem forgetUser_named (userId : Uuid) :
    ∀ url ∈ namedUrls config (forgetUser userId row), url ∈ namedUrls config row := by
  refine namedUrls_subset ?_ ?_ ?_ ?_
  · exact fun url member => namedUrls_proof member
  · exact fun url member => namedUrls_source member
  · exact fun url member => mem_namedUrls.mpr (.inr (.inl member))
  · exact fun snapshot readable => .inl (forgetUser_snapshots userId snapshot readable)

/-- An imported source holds the file of the source slot, or none. -/
theorem importSources_file {tx : Events.Transaction} {first : Nat} {detection : Detection}
    {footage : Option Media} {source : Source} {media : Media}
    (member : source ∈ importSources tx first detection footage)
    (holds : source.media = some media) : footage = some media := by
  unfold importSources at member
  rcases List.mem_append.mp member with declared | extra
  · split at declared
    · rw [List.mem_singleton.mp declared] at holds
      exact holds
    · simp at declared
  · rcases List.mem_mapIdx.mp extra with ⟨index, _, rfl⟩
    simp [importedSource] at holds

theorem mem_of_sourceFileOf {stored : List (MediaRole × Media)} {media : Media}
    (found : sourceFileOf stored = some media) : media ∈ stored.map Prod.snd := by
  unfold sourceFileOf at found
  have member := List.mem_of_getLast? found
  rcases List.mem_map.mp member with ⟨row, kept, same⟩
  exact List.mem_map.mpr ⟨row, List.mem_of_mem_filter kept, same⟩

theorem mem_of_proofRowsOf {stored : List (MediaRole × Media)} {media : Media}
    (member : media ∈ proofRowsOf stored) : media ∈ stored.map Prod.snd := by
  rcases mem_proofRowsOf member with ⟨role, inStored⟩
  exact List.mem_map.mpr ⟨(role, media), inStored, rfl⟩

/-- An import that replaces the media of an event names only what it stored. -/
theorem import_named {tx : Events.Transaction} {detection : Detection} {text : Str}
    {stored : List (MediaRole × Media)} {old : List Str}
    (snapshots : ∀ url ∈ namedUrls config { geo with media := [], sources := [], proof := [] },
      url ∈ old) :
    NamedFrom config state old [] (stored.map Prod.snd) { geo with
      media := proofRowsOf stored
      sources := importSources tx 1 detection (sourceFileOf stored)
      proof := htmlFromText text (proofImageUrlsOf stored) } := by
  intro url named
  have kept : (∃ snapshot ∈ geo.readableSnapshots, ∃ entry ∈ snapshot.sourceMedia,
        entry.storageUrl = url) ∨
      (∃ snapshot ∈ geo.readableSnapshots, url ∈ keyedSrcs config snapshot.proof) → url ∈ old := by
    rintro (files | shown)
    · exact snapshots url (mem_namedUrls.mpr (.inl (mem_heldUrls.mpr (.inr (.inr files)))))
    · exact snapshots url (mem_namedUrls.mpr (.inr (.inr shown)))
  rcases mem_namedUrls.mp named with held | shown | shown
  · rcases mem_heldUrls.mp held with proof | source | files
    · rcases List.mem_map.mp proof with ⟨media, inRows, same⟩
      exact .inr (.inr ⟨media, mem_of_proofRowsOf inRows, same⟩)
    · rcases mem_sourceUrls.mp source with ⟨imported, inSources, media, holds, same⟩
      have footage := importSources_file inSources holds
      exact .inr (.inr ⟨media, mem_of_sourceFileOf footage, same⟩)
    · exact .inl (kept (.inl files))
  · have inBody := (mem_keyedSrcs.mp shown).1
    simp only [imageSrcs_htmlFromText, proofImageUrlsOf] at inBody
    rcases List.mem_map.mp inBody with ⟨media, images, same⟩
    exact .inr (.inr ⟨media, mem_of_proofRowsOf (List.mem_of_mem_filter images), same⟩)
  · exact .inl (kept (.inr shown))

theorem upsertOne_named {detection : Detection} {resolved : DetectionMedia} {imported : Imported}
    (upserting : upsertOne config (state.transaction config) row detection resolved =
      .ok (some imported)) :
    NamedFrom config state (namedUrls config row) [] (imported.stored.map Prod.snd)
      imported.event := by
  rcases (upsertOne_ok upserting).2 with ⟨_, _, _, _, text, event⟩ | ⟨_, text, rfl⟩
  · rw [event]
    intro url named
    refine .inl (namedUrls_subset ?_ ?_ ?_ ?_ url named)
    · exact fun url member => namedUrls_proof member
    · intro url member
      rcases mem_sourceUrls.mp member with ⟨source, inSources, media, holds, same⟩
      simp only [reusedSources] at inSources
      split at inSources
      · exact namedUrls_source (mem_sourceUrls.mpr ⟨source, inSources, media, holds, same⟩)
      · rcases Option.map_eq_some_iff.mp (importSources_file inSources holds) with
          ⟨first, found, rfl⟩
        exact namedUrls_source (List.mem_map.mpr ⟨first, List.mem_of_head? found, same⟩)
    · intro url member
      rw [mem_keyedSrcs, imageSrcs_htmlFromText, mem_extractImageSrcs] at member
      exact mem_namedUrls.mpr (.inr (.inl (mem_keyedSrcs.mpr member)))
    · exact fun snapshot readable => .inl readable
  · refine import_named ?_
    refine namedUrls_subset ?_ ?_ ?_ (fun snapshot readable => .inl readable)
    · intro url member
      simp [Event.proofUrls] at member
    · intro url member
      simp [Event.sourceUrls] at member
    · intro url member
      simp [keyedSrcs, imageSrcs] at member

/-! ### What a write stores -/

/-- The files a write stored, each minted with its own draw out of `draws`. -/
def StoredWith (config : Config) (state : State) (draws : Nat) (stored : List Media) : Prop :=
  ∃ first, first + 2 * stored.length ≤ draws ∧ ∀ {index media}, stored[index]? = some media →
    MintsAt config (state.transaction config) (first + 2 * index + 1) media.storageUrl

theorem StoredWith.nil {draws : Nat} : StoredWith config state draws [] :=
  ⟨0, Nat.zero_le _, fun found => by simp at found⟩

theorem finishWrite_stored {planned : List PlannedSource} {proofHtml : Option Body}
    {proofFiles : List UploadFile} {written : Written}
    (finishing : finishWrite config (state.transaction config) geo planned proofHtml proofFiles =
      .ok written) : StoredWith config state written.draws written.stored := by
  rcases finishWrite_ok finishing with ⟨applied, attached, _, attaching, rfl⟩
  rcases attachEvidence_ok attaching with ⟨_, _, _, _, storing, rows, _, _⟩
  refine ⟨1 + 2 * planned.length, le_refl _, ?_⟩
  intro index media found
  rw [rows] at found
  exact storeProofImages_mint storing found

theorem storeMedia_stored {detection : Detection} {eventId : Uuid} {items : List ResolvedMedia} :
    StoredWith config state (detection.mediaStart + 2 * items.length)
      ((storeMedia config (state.transaction config) eventId detection.mediaStart items).map
        Prod.snd) := by
  refine ⟨detection.mediaStart, by simp [storeMedia], ?_⟩
  intro index media found
  rw [List.getElem?_map, Option.map_eq_some_iff] at found
  rcases found with ⟨⟨role, _⟩, found, rfl⟩
  exact storeMedia_mint found

theorem persistOne_named {user : User} {detection : Detection} {via : DetectedVia}
    {items : List ResolvedMedia} {imported : Imported}
    (persisting : persistOne config (state.transaction config) user detection via items =
      .ok imported) :
    NamedFrom config state [] [] (imported.stored.map Prod.snd) imported.event ∧
      StoredWith config state imported.draws (imported.stored.map Prod.snd) := by
  rcases persistOne_ok persisting with ⟨text, rfl⟩
  exact ⟨import_named fun _ member => member, storeMedia_stored⟩

theorem upsertOne_stored {detection : Detection} {resolved : DetectionMedia} {imported : Imported}
    (upserting : upsertOne config (state.transaction config) row detection resolved =
      .ok (some imported)) :
    StoredWith config state imported.draws (imported.stored.map Prod.snd) := by
  rcases (upsertOne_ok upserting).2 with ⟨_, none, _, _, _⟩ | ⟨_, _, rfl⟩
  · rw [none]
    exact .nil
  · exact storeMedia_stored

/-- The draws of the files a write stored: past the state's, and one file each. -/
theorem StoredWith.fresh {draws : Nat} {stored : List Media}
    (storedWith : StoredWith config state draws stored) :
    (∀ media ∈ stored, ∃ index, state.drawn ≤ index ∧ index < state.drawn + draws ∧
      Carries config index media.storageUrl) ∧
    ∀ media ∈ stored, ∀ twin ∈ stored, ∀ {index}, Carries config index media.storageUrl →
      Carries config index twin.storageUrl → media = twin := by
  rcases storedWith with ⟨first, room, minted⟩
  refine ⟨?_, ?_⟩
  · intro media member
    rcases List.getElem?_of_mem member with ⟨place, found⟩
    have inside := (List.getElem?_eq_some_iff.mp found).1
    exact ⟨state.drawn + (first + 2 * place + 1), Nat.le_add_right _ _, by omega,
      carries_of_mintsAt (minted found)⟩
  · intro media member twin twinMember index carries twinCarries
    rcases List.getElem?_of_mem member with ⟨place, found⟩
    rcases List.getElem?_of_mem twinMember with ⟨twinPlace, twinFound⟩
    have draw := carries_numbered config (carries_of_mintsAt (minted found)) carries
    have twinDraw := carries_numbered config (carries_of_mintsAt (minted twinFound))
      twinCarries
    have same : place = twinPlace := by omega
    rw [same, twinFound] at found
    exact (Option.some.inj found).symm

/-! ### Custody -/

/-- Who holds a named URL: one event, or one staged upload. -/
inductive Holder where
  | event (id : Uuid)
  | upload (id : Uuid)
deriving DecidableEq, Repr

def Names (config : Config) (state : State) : Holder → Str → Prop
  | .event id, url => ∃ geo ∈ state.events, geo.id = id ∧ url ∈ namedUrls config geo
  | .upload id, url => ∃ upload ∈ state.uploads, upload.id = id ∧
      url = config.storage.publicUrl upload.storageKey

abbrev Transfers (config : Config) (state rows : State) :
    (Holder → Prop) → Holder → (Holder → Str → Prop) → Prop :=
  Transfer (Carries config) state.drawn rows.drawn (Names config state) (Names config rows)

/-- Rows that add no event and no upload, and whose events name nothing new. -/
theorem names_of_rows {rows : State}
    (events : ∀ geo ∈ rows.events, ∃ row ∈ state.events, row.id = geo.id ∧
      ∀ url ∈ namedUrls config geo, url ∈ namedUrls config row)
    (uploads : ∀ upload ∈ rows.uploads, upload ∈ state.uploads) {holder : Holder}
    (named : Names config rows holder url) : Names config state holder url := by
  cases holder with
  | event id =>
      rcases named with ⟨geo, member, rfl, inUrls⟩
      rcases events geo member with ⟨row, inRows, same, subset⟩
      exact ⟨row, inRows, same, subset url inUrls⟩
  | upload id =>
      rcases named with ⟨upload, member, same, isUrl⟩
      exact ⟨upload, uploads upload member, same, isUrl⟩

/-- A write takes the uploads it references, and stores what it minted. -/
theorem transfer_of_write {rows : State} {written : Event} {old : List Str} {taken : List Uuid}
    {stored : List Media} {draws : Nat} (drawn : rows.drawn = state.drawn + draws)
    (events : ∀ geo ∈ rows.events, geo ∈ state.events ∨ geo = written)
    (uploads : ∀ upload ∈ rows.uploads, upload ∈ state.uploads ∧ upload.id ∉ taken)
    (named : NamedFrom config state old taken stored written)
    (held : ∀ url ∈ old, Names config state (.event written.id) url)
    (storedWith : StoredWith config state draws stored) :
    Transfers config state rows (fun holder => ∃ id ∈ taken, holder = .upload id)
      (.event written.id) fun holder url =>
        holder = .event written.id ∧ ∃ media ∈ stored, media.storageUrl = url where
  le := by omega
  came := by
    intro holder url member
    cases holder with
    | event id =>
        rcases member with ⟨geo, inRows, rfl, inUrls⟩
        rcases events geo inRows with kept | rfl
        · exact .inl ⟨⟨geo, kept, rfl, inUrls⟩, by simp⟩
        · rcases named url inUrls with inOld | ⟨upload, staged, takes, rfl⟩ | stored
          · exact .inl ⟨held url inOld, by simp⟩
          · exact .inr (.inl ⟨⟨.upload upload.id, ⟨upload.id, takes, rfl⟩, upload, staged, rfl, rfl⟩,
              rfl⟩)
          · exact .inr (.inr ⟨rfl, stored⟩)
    | upload id =>
        rcases member with ⟨upload, inRows, rfl, isUrl⟩
        have kept := uploads upload inRows
        refine .inl ⟨⟨upload, kept.1, rfl, isUrl⟩, ?_⟩
        rintro ⟨id, takes, same⟩
        rw [Holder.upload.injEq] at same
        exact kept.2 (same ▸ takes)
  made := by
    rintro holder url ⟨_, media, inStored, rfl⟩
    rcases storedWith.fresh.1 media inStored with ⟨index, above, below, carries⟩
    exact ⟨index, above, by omega, carries⟩
  sole := by
    rintro holder other url twin index ⟨rfl, media, inStored, rfl⟩ ⟨rfl, media', inStored', rfl⟩
      carries twinCarries
    exact ⟨rfl, by rw [storedWith.fresh.2 media inStored media' inStored' carries twinCarries]⟩

/-- A staged file is held by its own upload. -/
theorem transfer_of_stage {user : User} {file : UploadFile} {uploads : List Upload}
    (staging : stageUpload config (state.transaction config) user file = .ok uploads) :
    Transfers config state (stageEffect config state uploads).rows (fun _ => False) (.event 0)
      fun holder url => ∃ upload ∈ uploads, holder = .upload upload.id ∧
        url = config.storage.publicUrl upload.storageKey where
  le := Nat.le_add_right _ _
  came := by
    intro holder url member
    cases holder with
    | event id => exact .inl ⟨member, not_false⟩
    | upload id =>
        rcases member with ⟨upload, inRows, rfl, isUrl⟩
        rcases List.mem_append.mp inRows with old | new
        · exact .inl ⟨⟨upload, old, rfl, isUrl⟩, not_false⟩
        · exact .inr (.inr ⟨upload, new, rfl, isUrl⟩)
  made := by
    rintro holder url ⟨upload, member, _, rfl⟩
    rcases stageUpload_ok staging with ⟨kind, digests, rfl⟩
    rcases List.getElem?_of_mem member with ⟨place, found⟩
    have inside := (List.getElem?_eq_some_iff.mp found).1
    refine ⟨state.drawn + (2 * place + 1), Nat.le_add_right _ _, ?_,
      carries_of_mintsAt (stagedUploads_mint found)⟩
    simp only [stageEffect]
    omega
  sole := by
    rintro holder other url twin index ⟨upload, member, rfl, rfl⟩ ⟨upload', member', rfl, rfl⟩
      carries twinCarries
    rcases stageUpload_ok staging with ⟨kind, digests, rfl⟩
    rcases List.getElem?_of_mem member with ⟨place, found⟩
    rcases List.getElem?_of_mem member' with ⟨place', found'⟩
    have draw := carries_numbered config (carries_of_mintsAt (stagedUploads_mint found)) carries
    have draw' := carries_numbered config (carries_of_mintsAt (stagedUploads_mint found'))
      twinCarries
    have same : place = place' := by omega
    rw [same, found', Option.some.injEq] at found
    rw [found]
    exact ⟨rfl, rfl⟩

theorem Drafted.named {written : Written} (drafted : Drafted config state written) :
    NamedFrom config state [] written.taken written.stored written.event ∧
      StoredWith config state written.draws written.stored := by
  cases drafted with
  | created _ creating =>
      rcases createWithEvidence_ok creating with
        ⟨_, _, credited, planning, inviting, finishing⟩
      rcases inviteOnPublish_event inviting with ⟨geolocators, rfl⟩
      have named := finishWrite_named planning finishing rfl
      exact ⟨named.mono fun url member => member, finishWrite_stored finishing⟩
  | requested _ creating =>
      rcases createRequest_ok creating with ⟨_, _, _, planning, finishing⟩
      have named := finishWrite_named planning finishing rfl
      exact ⟨named.mono fun url member => member, finishWrite_stored finishing⟩

theorem Edited.named {written : Written} (edited : Edited config state row written) :
    NamedFrom config state (namedUrls config row) written.taken written.stored written.event ∧
      StoredWith config state written.draws written.stored := by
  cases edited with
  | updated _ updating =>
      rcases updateRequest_ok updating with ⟨_, _, _, _, _, planning, finishing⟩
      have named := finishWrite_named planning finishing rfl
      exact ⟨named.mono fun url member => member, finishWrite_stored finishing⟩
  | saved _ saving =>
      rcases saveVersion_ok saving with ⟨_, _, credited, _, planning, crediting, finishing⟩
      rcases creditOnPublish_event crediting with ⟨ownerId, geolocators, rfl⟩
      have named := finishWrite_named planning finishing rfl
      exact ⟨named.mono (namedUrls_filed rfl rfl rfl rfl), finishWrite_stored finishing⟩

/-! ### Every step keeps custody -/

theorem names_reap {holder : Holder}
    (named : Names config (reapEffect config state).rows holder url) :
    Names config state holder url := by
  refine names_of_rows ?_ ?_ named
  · exact fun geo member => ⟨geo, member, rfl, fun _ inUrls => inUrls⟩
  · exact fun _ member => List.mem_of_mem_filter member

theorem names_erase {doomed : Event → Bool} {holder : Holder}
    (named : Names config (eraseEffect config state doomed).rows holder url) :
    Names config state holder url := by
  refine names_of_rows ?_ ?_ named
  · exact fun geo member => ⟨geo, List.mem_of_mem_filter member, rfl, fun _ inUrls => inUrls⟩
  · exact fun _ member => member

theorem names_redact {actorId : Uuid} {versionNo : Nat} {redaction : Redaction}
    (found : row ∈ state.events)
    (redacting : redactVersion (state.transaction config) row actorId versionNo =
      .ok (some redaction)) {holder : Holder}
    (named : Names config (redactEffect config state redaction).rows holder url) :
    Names config state holder url := by
  refine names_of_rows ?_ ?_ named
  swap
  · exact fun _ member => member
  intro geo member
  rcases mem_put member with kept | rfl
  · exact ⟨geo, kept, rfl, fun _ inUrls => inUrls⟩
  · exact ⟨row, found, (redactVersion_id redacting).symm, redactVersion_named redacting⟩

theorem names_forget {user : User} {holder : Holder}
    (named : Names config (hardDeleteUser config state user).rows holder url) :
    Names config state holder url := by
  refine names_of_rows ?_ ?_ named
  swap
  · exact fun _ member => List.mem_of_mem_filter member
  intro geo member
  rcases List.mem_map.mp member with ⟨row, inRows, rfl⟩
  rw [List.mem_filter] at inRows
  rcases passOn_event (by simpa using inRows.2) with ⟨ownerId, deletedAt, _, _, passed⟩
  refine ⟨row, inRows.1, by rw [passed]; rfl, ?_⟩
  rw [passed]
  exact forgetUser_named user.id

/-- A step hands URLs over from staged uploads only. -/
theorem Outcome.transfer {request : Request} {left : Effect}
    (outcome : Outcome config state request left) :
    ∃ Given receiver Fresh, (∀ id, ¬ Given (.event id)) ∧
      Transfers config state left.rows Given receiver Fresh := by
  have kept : (∀ {holder url}, Names config left.rows holder url →
      Names config state holder url) → ∃ Given receiver Fresh, (∀ id, ¬ Given (.event id)) ∧
        Transfers config state left.rows Given receiver Fresh := by
    intro names
    exact ⟨_, .event 0, _, fun _ given => given, .of_imp outcome.drawn_le _ names⟩
  have mapped : ∀ write : Event → Event, left.rows.uploads = state.uploads →
      left.rows.events = state.events.map write →
      (∀ row, (write row).id = row.id ∧ namedUrls config (write row) = namedUrls config row) →
        ∃ Given receiver Fresh, (∀ id, ¬ Given (.event id)) ∧
          Transfers config state left.rows Given receiver Fresh := by
    intro write uploads events each
    refine kept fun named => names_of_rows ?_ ?_ named
    swap
    · exact fun _ member => uploads ▸ member
    intro geo member
    rw [events] at member
    rcases List.mem_map.mp member with ⟨row, inRows, rfl⟩
    refine ⟨row, inRows, (each row).1.symm, ?_⟩
    rw [(each row).2]
    exact fun _ inUrls => inUrls
  cases outcome with
  | settled settled =>
      refine kept fun named => names_of_rows ?_ ?_ named
      · intro geo member
        exact ⟨geo, settled.events ▸ member, rfl, fun _ inUrls => inUrls⟩
      · exact fun _ member => settled.uploads ▸ member
  | staged staging => exact ⟨_, _, _, fun _ given => given, transfer_of_stage staging⟩
  | reaped => exact kept names_reap
  | inserted drafted =>
      have named := drafted.named
      refine ⟨_, _, _, fun id given => ?_, transfer_of_write rfl ?_ ?_ named.1 ?_ named.2⟩
      · simp at given
      · intro geo member
        rcases List.mem_append.mp member with old | new
        · exact .inl old
        · exact .inr (List.mem_singleton.mp new)
      · intro upload member
        simpa [writeEffect] using member
      · simp
  | @wrote geo written found edited =>
      have named := edited.named
      refine ⟨_, _, _, fun id given => ?_, transfer_of_write rfl ?_ ?_ named.1 ?_ named.2⟩
      · simp at given
      · exact fun _ member => mem_put member
      · intro upload member
        simpa [writeEffect] using member
      · exact fun url inUrls => ⟨geo, found, edited.id.symm, inUrls⟩
  | persisted standing persisting =>
      have named := persistOne_named persisting
      refine ⟨_, _, _, fun id given => ?_, transfer_of_write rfl ?_ ?_ named.1 ?_ named.2⟩
      · simp at given
      · intro geo member
        rcases List.mem_append.mp member with old | new
        · exact .inl old
        · exact .inr (List.mem_singleton.mp new)
      · exact fun upload member => ⟨member, List.not_mem_nil⟩
      · simp
  | @upserted geo detection resolved imported found upserting =>
      refine ⟨_, _, _, fun id given => ?_,
        transfer_of_write rfl ?_ ?_ (upsertOne_named upserting) ?_ (upsertOne_stored upserting)⟩
      · simp at given
      · exact fun _ member => mem_put member
      · exact fun upload member => ⟨member, List.not_mem_nil⟩
      · exact fun url inUrls => ⟨geo, found, (upsertOne_id upserting).symm, inUrls⟩
  | redacted _ found redacting => exact kept (names_redact found redacting)
  | @moved geo written drawn found moved drawn_le =>
      refine kept fun named => names_of_rows ?_ ?_ named
      swap
      · exact fun _ member => member
      intro other member
      rcases mem_put member with old | rfl
      · exact ⟨other, old, rfl, fun _ inUrls => inUrls⟩
      · exact ⟨geo, found, moved.id.symm, moved.named⟩
  | erased doomed => exact kept names_erase
  | banned user =>
      by_cases gone : user.deletedAt ≠ none
      · simp only [Effect.ofRows, softDeleteUser, if_pos gone] at *
        exact kept fun named => named
      · refine mapped (banEvent state.users user state.now) ?_ ?_ ?_
        · simp [Effect.ofRows, softDeleteUser, gone]
        · simp [Effect.ofRows, softDeleteUser, gone]
        · intro row
          rcases banEvent_event state.users user state.now row with ⟨_, _, _, event⟩
          rw [event]
          exact ⟨rfl, rfl⟩
  | restored user =>
      by_cases stands : user.deletedAt = none
      · simp only [Effect.ofRows, restoreUser, if_pos stands] at *
        exact kept fun named => named
      · refine mapped (restoreWith user) ?_ ?_ ?_
        · simp [Effect.ofRows, restoreUser, stands]
        · simp [Effect.ofRows, restoreUser, stands]
        · intro row
          rcases restoreWith_event user row with ⟨_, event⟩
          rw [event]
          exact ⟨rfl, rfl⟩
  | forgotten standing => exact kept names_forget

/-- Every named URL was minted, and one draw names one URL with one holder. -/
def InCustody (config : Config) (state : State) : Prop :=
  Custody (Carries config) state.drawn (Names config state)

theorem InCustody.step {label : Label} (custody : InCustody config state)
    (stepped : step config label state = .ok next) : InCustody config next := by
  rcases step_ok stepped with ⟨left, outcome, ⟨_, rfl⟩ | ⟨_, rfl⟩⟩
  · rcases outcome.transfer with ⟨Given, receiver, Fresh, _, transfer⟩
    exact transfer.custody custody (carries_numbered config)
  · exact custody.of_imp outcome.drawn_le fun named => named

theorem custody_of_reachable (reachable : (system config).Reachable state) :
    InCustody config state := by
  refine System.Reachable.invariant ?_ InCustody.step reachable
  rintro start ⟨now, rfl⟩
  refine ⟨?_, ?_⟩
  · rintro (id | id) url ⟨_, member, _⟩ <;> simp [initial] at member
  · rintro (id | id) _ url _ _ ⟨_, member, _⟩ <;> simp [initial] at member

/-! ### Readable versions keep their images -/

/-- An image a readable version shows, and a proof row holds, is among the rows the
version pinned. -/
def Pinned (geo : Event) : Prop :=
  ∀ snapshot ∈ geo.readableSnapshots, ∀ url ∈ imageSrcs snapshot.proof,
    url ∈ geo.proofUrls → url ∈ snapshot.proofMedia.map MediaEntry.storageUrl

/-- The live proof rows of a body's images are the ones its snapshot pins. -/
theorem mem_proofMedia_buildSnapshot (shown : url ∈ imageSrcs geo.proof)
    (held : url ∈ geo.proofUrls) :
    url ∈ (buildSnapshot geo).proofMedia.map MediaEntry.storageUrl := by
  rcases List.mem_map.mp held with ⟨media, inRows, rfl⟩
  unfold buildSnapshot
  rw [List.map_map, List.mem_map]
  refine ⟨media, List.mem_filter.mpr ⟨inRows, ?_⟩, rfl⟩
  simpa using shown

/-- A write that files the live version at most, and adds rows of URLs the event did
not name. -/
theorem Pinned.step (config : Config) (pinned : Pinned row)
    (snapshots : ∀ snapshot ∈ geo.readableSnapshots,
      snapshot ∈ row.readableSnapshots ∨ snapshot = buildSnapshot row)
    (rows : ∀ url ∈ geo.proofUrls, url ∈ row.proofUrls ∨
      config.storage.keyFromUrl url ≠ none ∧ url ∉ namedUrls config row) : Pinned geo := by
  intro snapshot readable url shown held
  have old : url ∈ row.proofUrls := by
    rcases rows url held with old | ⟨keyed, unnamed⟩
    · exact old
    · exfalso
      have inKeyed := mem_keyedSrcs.mpr ⟨shown, keyed⟩
      rcases snapshots snapshot readable with filed | rfl
      · exact unnamed (mem_namedUrls.mpr (.inr (.inr ⟨snapshot, filed, inKeyed⟩)))
      · exact unnamed (mem_namedUrls.mpr (.inr (.inl inKeyed)))
  rcases snapshots snapshot readable with filed | rfl
  · exact pinned snapshot filed url shown old
  · exact mem_proofMedia_buildSnapshot shown old

/-- What a write stores is keyed, and no event named it. -/
theorem StoredWith.unnamed {draws : Nat} {stored : List Media}
    (storedWith : StoredWith config state draws stored) (custody : InCustody config state)
    (found : row ∈ state.events) : ∀ media ∈ stored,
      config.storage.keyFromUrl media.storageUrl ≠ none ∧
        media.storageUrl ∉ namedUrls config row := by
  intro media member
  rcases storedWith.fresh.1 media member with ⟨index, above, _, carries⟩
  refine ⟨carries.keyed, fun named => ?_⟩
  have holds : Names config state (.event row.id) media.storageUrl := ⟨row, found, rfl, named⟩
  have below := custody.serial_lt (carries_numbered config) holds carries
  omega

theorem finishWrite_pinned {tx : Events.Transaction} {planned : List PlannedSource}
    {proofHtml : Option Body} {proofFiles : List UploadFile} {written : Written}
    (finishing : finishWrite config tx geo planned proofHtml proofFiles = .ok written) :
    written.event.readableSnapshots = geo.readableSnapshots ∧
      ∀ url ∈ written.event.proofUrls, url ∈ geo.proofUrls ∨
        ∃ media ∈ written.stored, media.storageUrl = url := by
  rcases finishWrite_ok finishing with ⟨applied, attached, _, attaching, rfl⟩
  rcases attachEvidence_ok attaching with ⟨_, _, _, _, _, _, _, event⟩
  rw [event]
  refine ⟨rfl, ?_⟩
  intro url held
  rcases List.mem_map.mp held with ⟨media, inRows, same⟩
  rcases List.mem_append.mp inRows with kept | stored
  · exact .inl (List.mem_map.mpr ⟨media, List.mem_of_mem_filter kept, same⟩)
  · exact .inr ⟨media, stored, same⟩

theorem Change.pinned (change : Change config state survivors row geo)
    (custody : InCustody config state) (found : row ∈ state.events) (pinned : Pinned row) :
    Pinned geo := by
  have stored : ∀ {draws : Nat} {stored : List Media}, StoredWith config state draws stored →
      ∀ url, (∃ media ∈ stored, media.storageUrl = url) →
        config.storage.keyFromUrl url ≠ none ∧ url ∉ namedUrls config row := by
    rintro draws stored storedWith url ⟨media, member, rfl⟩
    exact storedWith.unnamed custody found media member
  have fewer : ∀ {written : Event}, (∀ snapshot ∈ written.readableSnapshots,
      snapshot ∈ row.readableSnapshots ∨ snapshot = buildSnapshot row) →
        (∀ url ∈ written.proofUrls, url ∈ row.proofUrls) → Pinned written :=
    fun snapshots rows => pinned.step config snapshots fun url held => .inl (rows url held)
  cases change with
  | edited edited =>
      have images := stored edited.named.2
      cases edited with
      | updated _ updating =>
          rcases updateRequest_ok updating with ⟨_, _, _, _, _, _, finishing⟩
          have wrote := finishWrite_pinned finishing
          refine pinned.step config ?_ fun url held => (wrote.2 url held).imp_right (images url)
          intro snapshot readable
          rw [wrote.1] at readable
          exact .inl readable
      | saved _ saving =>
          rcases saveVersion_ok saving with ⟨_, _, _, _, _, crediting, finishing⟩
          rcases creditOnPublish_event crediting with ⟨_, _, rfl⟩
          have wrote := finishWrite_pinned finishing
          refine pinned.step config ?_ fun url held => (wrote.2 url held).imp_right (images url)
          intro snapshot readable
          rw [wrote.1, readableSnapshots_append rfl rfl rfl] at readable
          rcases List.mem_append.mp readable with old | new
          · exact .inl old
          · exact .inr (List.mem_singleton.mp new)
  | upserted upserting =>
      have images := stored (upsertOne_stored upserting)
      rcases (upsertOne_ok upserting).2 with ⟨_, _, _, _, _, event⟩ | ⟨_, _, rfl⟩
      · rw [event]
        exact fewer (fun _ readable => .inl readable) fun _ held => held
      · refine pinned.step config (fun snapshot readable => .inl readable) ?_
        intro url held
        rcases List.mem_map.mp held with ⟨media, inRows, isUrl⟩
        exact .inr (images url ⟨media, mem_of_proofRowsOf inRows, isUrl⟩)
  | redacted redacting =>
      have shows := redactVersion_snapshots redacting
      exact fewer (fun snapshot readable => .inl (shows.2 snapshot readable)) shows.1
  | moved moved =>
      have shows := moved.snapshots
      exact fewer shows.2 fun url held => shows.1 ▸ held
  | banned user =>
      rcases banEvent_event state.users user state.now row with ⟨_, _, _, event⟩
      rw [event]
      exact fewer (fun _ readable => .inl readable) fun _ held => held
  | restored user =>
      rcases restoreWith_event user row with ⟨_, event⟩
      rw [event]
      exact fewer (fun _ readable => .inl readable) fun _ held => held
  | forgotten _ _ lives =>
      rcases passOn_event lives with ⟨_, _, _, _, event⟩
      rw [event]
      refine fewer ?_ fun url held => held
      exact fun snapshot readable => .inl (forgetUser_snapshots _ snapshot readable)

theorem pinned_of_reachable (reachable : (system config).Reachable state)
    (member : geo ∈ state.events) : Pinned geo := by
  refine event_invariant Pinned ?_ ?_ reachable member
  · intro _ geo _ born snapshot readable
    simp [Event.readableSnapshots, born.newborn.versions] at readable
  · intro _ _ _ _ reachable found pinned change
    exact change.pinned (custody_of_reachable reachable) found pinned

end Vidit.World
