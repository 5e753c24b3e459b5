import Vidit.Events.NoChange
import Vidit.World.Custody

/-!
Contract: the no-change law of `save_version` on the events of a run.

Owns:
- the source rows of every reachable event: keys drawn once, archives the comparison can read;
- the law on every published event, and when it holds.

Does not own: the comparison itself (`Vidit.Events.NoChange`).
-/

namespace Vidit.World

open Vidit.Python Vidit.Accounts Vidit.Evidence Vidit.Events Vidit.Library

variable {config : Config} {state next : State}

/-! ### The source rows of an event -/

/-- Source rows and their files under keys drawn once, with archives the comparison can read. -/
structure RowsSound (config : Config) (count : Nat) (sources : List Source) : Prop where
  ids : KeyedBy Source.id sources
  files : ∀ left ∈ sources, ∀ right ∈ sources, ∀ leftFile rightFile,
    left.media = some leftFile → right.media = some rightFile → leftFile.id = rightFile.id →
      left = right
  idsDrawn : ∀ source ∈ sources, IsDrawn config count source.id
  filesDrawn : ∀ source ∈ sources, ∀ file, source.media = some file →
    IsDrawn config count file.id
  copies : ∀ source ∈ sources, CopiesReadable config.unicode source

theorem RowsSound.nil {count : Nat} : RowsSound config count [] := by
  constructor <;> simp [KeyedBy]

theorem RowsSound.mono {count larger : Nat} {sources : List Source}
    (sound : RowsSound config count sources) (below : count ≤ larger) :
    RowsSound config larger sources where
  ids := sound.ids
  files := sound.files
  idsDrawn source member := (sound.idsDrawn source member).mono below
  filesDrawn source member file holds := (sound.filesDrawn source member file holds).mono below
  copies := sound.copies

/-- A write that leaves the keys, the files and the links alone. -/
theorem RowsSound.map {count : Nat} {sources : List Source}
    (sound : RowsSound config count sources) {write : Source → Source}
    (id : ∀ source, (write source).id = source.id)
    (media : ∀ source, (write source).media = source.media)
    (links : ∀ source, (write source).links = source.links) :
    RowsSound config count (sources.map write) where
  ids := sound.ids.map id
  files := by
    intro left inLeft right inRight leftFile rightFile leftHolds rightHolds same
    obtain ⟨first, inFirst, rfl⟩ := List.mem_map.mp inLeft
    obtain ⟨second, inSecond, rfl⟩ := List.mem_map.mp inRight
    rw [media] at leftHolds rightHolds
    rw [sound.files first inFirst second inSecond leftFile rightFile leftHolds rightHolds same]
  idsDrawn := by
    intro source member
    obtain ⟨row, inRows, rfl⟩ := List.mem_map.mp member
    rw [id]
    exact sound.idsDrawn row inRows
  filesDrawn := by
    intro source member file holds
    obtain ⟨row, inRows, rfl⟩ := List.mem_map.mp member
    rw [media] at holds
    exact sound.filesDrawn row inRows file holds
  copies := by
    intro source member
    obtain ⟨row, inRows, rfl⟩ := List.mem_map.mp member
    unfold CopiesReadable
    rw [links]
    exact sound.copies row inRows

theorem RowsSound.keyed {sources : List Source} (sound : RowsSound config state.drawn sources) :
    RowsKeyed (state.transaction config) sources where
  sources := sound.ids
  files := sound.files
  fresh := by
    intro draw member
    obtain ⟨source, inSources, same⟩ := List.mem_map.mp member
    obtain ⟨index, below, drawn⟩ := sound.idsDrawn source inSources
    have equal := config.uuids.draw_injective (drawn.symm.trans same)
    omega

/-! ### The rows a write leaves -/

section Writing

variable {base : Option Event} {specs : List SourceSpec} {user : User}
  {planned : List PlannedSource} {sources : List Source}

/-- The keys, links and file of each written row. -/
theorem writeSources_places {tx : Events.Transaction} {all : List PlannedSource} {index : Nat}
    {written : List (Uuid × Bool)}
    (writing : writeSources config tx all index written planned = .ok sources) (place : Nat)
    {source : Source} (here : sources[place]? = some source) :
    ∃ plan, planned[place]? = some plan ∧
      source.id = (plan.stored.map Source.id).getD (tx.uuid (1 + 2 * (index + place))) ∧
      source.links = linkRows config.unicode ((plan.stored.map Source.links).getD []) plan.links
        tx.now ∧
      source.media = attachFile config plan (tx.uuid (2 + 2 * (index + place))) := by
  induction planned generalizing index written sources place with
  | nil =>
      rw [writeSources, pure_eq_ok] at writing
      rw [← writing] at here
      cases here
  | cons plan rest inductionHypothesis =>
      simp only [writeSources, bind_eq_ok, pure_eq_ok] at writing
      obtain ⟨_, _, later, writingLater, rfl⟩ := writing
      cases place with
      | zero =>
          rw [List.getElem?_cons_zero, Option.some.injEq] at here
          subst here
          exact ⟨plan, rfl, rfl, rfl, rfl⟩
      | succ place =>
          rw [List.getElem?_cons_succ] at here
          obtain ⟨found, there, known⟩ := inductionHypothesis writingLater place here
          have shift : index + 1 + place = index + (place + 1) := by omega
          rw [shift] at known
          exact ⟨found, there, known⟩

theorem planSources_stored {tx : Events.Transaction}
    (planning : planSources config tx base specs user = .ok planned) :
    ∀ plan ∈ planned, ∀ source, plan.stored = some source → plan.spec.id = some source.id := by
  unfold planSources at planning
  simp only [bind_eq_ok, require_eq_ok] at planning
  obtain ⟨_, _, _, _, staged, _, files, _, plans⟩ := planning
  intro plan member source updates
  obtain ⟨spec, _, planningOne⟩ := exists_of_mapM_eq_ok plans member
  unfold planSource at planningOne
  simp only [bind_eq_ok, pure_eq_ok] at planningOne
  obtain ⟨_, _, _, _, rfl⟩ := planningOne
  simp only at updates
  obtain ⟨id, named, found⟩ := Option.bind_eq_some_iff.mp updates
  have same : source.id = id := by simpa using List.find?_some found
  rw [same]
  exact named

/-- A stored source is updated at one place. -/
theorem planSources_once {tx : Events.Transaction}
    (planning : planSources config tx base specs user = .ok planned) {first second : Nat}
    {plan other : PlannedSource} (here : planned[first]? = some plan)
    (there : planned[second]? = some other) {source twin : Source}
    (updates : plan.stored = some source) (twinUpdates : other.stored = some twin)
    (same : source.id = twin.id) : first = second := by
  have named := planSources_stored planning plan (List.mem_of_getElem? here) source updates
  have twinNamed := planSources_stored planning other (List.mem_of_getElem? there) twin twinUpdates
  unfold planSources at planning
  simp only [bind_eq_ok, require_eq_ok] at planning
  obtain ⟨_, _, _, checked, staged, _, files, _, plans⟩ := planning
  have once := checkIds_once checked
  rw [← mapM_planSource_specs plans, List.filterMap_map, List.Nodup, List.pairwise_filterMap,
    List.pairwise_iff_getElem] at once
  obtain ⟨inFirst, atFirst⟩ := List.getElem?_eq_some_iff.mp here
  obtain ⟨inSecond, atSecond⟩ := List.getElem?_eq_some_iff.mp there
  rw [← atFirst] at named
  rw [← atSecond] at twinNamed
  obtain earlier | equal | later := Nat.lt_trichotomy first second
  · exact absurd same (once first second inFirst inSecond earlier _ named _ twinNamed)
  · exact equal
  · exact absurd same.symm (once second first inSecond inFirst later _ twinNamed _ named)

/-- A written file has a new row, or is the one its source keeps. -/
theorem attachFile_id {plan : PlannedSource} {mediaId : Uuid} {file : Media}
    (attached : attachFile config plan mediaId = some file) :
    file.id = mediaId ∨ ∃ source, plan.stored = some source ∧ source.media = some file := by
  unfold attachFile at attached
  cases taken : plan.upload with
  | some upload =>
      simp only [taken, Option.some.injEq] at attached
      exact .inl (by rw [← attached])
  | none =>
      cases copied : plan.copyOf with
      | some origin =>
          simp only [taken, copied, Option.some.injEq] at attached
          exact .inl (by rw [← attached])
      | none =>
          simp only [taken, copied, Option.ite_none_right_eq_some] at attached
          obtain ⟨source, updates, holds⟩ := Option.bind_eq_some_iff.mp attached.2
          exact .inr ⟨source, updates, holds⟩

theorem writeSources_sound
    (planning : planSources config (state.transaction config) base specs user = .ok planned)
    (writing : writeSources config (state.transaction config) planned 0 [] planned = .ok sources)
    (sound : RowsSound config state.drawn (storedSources base)) :
    RowsSound config (state.drawn + (1 + 2 * planned.length)) sources := by
  have places := fun place source here => @writeSources_places _ _ _ _ _ _ _ writing place source here
  simp only [Nat.zero_add] at places
  have inStored := fun plan member => (planSources_files planning plan member).1
  have bound : ∀ {place : Nat} {plan : PlannedSource}, planned[place]? = some plan →
      place < planned.length := fun here => (List.getElem?_eq_some_iff.mp here).1
  -- the key of a row is a stored one or a draw of this write
  have old : ∀ {plan : PlannedSource} {source : Source}, plan ∈ planned →
      plan.stored = some source → source ∈ storedSources base :=
    fun member updates => inStored _ member _ updates
  have apart : ∀ {id : Uuid} (draw : Nat), IsDrawn config state.drawn id →
      id ≠ (state.transaction config).uuid draw := by
    intro id draw drawn same
    obtain ⟨index, below, isDraw⟩ := drawn
    have equal := config.uuids.draw_injective (isDraw.symm.trans same)
    omega
  have draws : ∀ {first second : Nat}, (state.transaction config).uuid first =
      (state.transaction config).uuid second → first = second := by
    intro first second same
    have equal := config.uuids.draw_injective same
    omega
  constructor
  · intro left inLeft right inRight same
    obtain ⟨first, atFirst⟩ := List.getElem?_of_mem inLeft
    obtain ⟨second, atSecond⟩ := List.getElem?_of_mem inRight
    obtain ⟨plan, here, id, _⟩ := places first left atFirst
    obtain ⟨other, there, twinId, _⟩ := places second right atSecond
    have equal : first = second := by
      rw [id, twinId] at same
      cases updates : plan.stored with
      | none =>
          cases twinUpdates : other.stored with
          | none =>
              simp only [updates, twinUpdates, Option.map_none, Option.getD_none] at same
              have drawn := draws same
              omega
          | some twin =>
              simp only [updates, twinUpdates, Option.map_none, Option.map_some, Option.getD_none,
                Option.getD_some] at same
              exact absurd same.symm (apart _ (sound.idsDrawn twin
                (old (List.mem_of_getElem? there) twinUpdates)))
      | some source =>
          cases twinUpdates : other.stored with
          | none =>
              simp only [updates, twinUpdates, Option.map_none, Option.map_some, Option.getD_none,
                Option.getD_some] at same
              exact absurd same (apart _ (sound.idsDrawn source
                (old (List.mem_of_getElem? here) updates)))
          | some twin =>
              simp only [updates, twinUpdates, Option.map_some, Option.getD_some] at same
              exact planSources_once planning here there updates twinUpdates same
    rw [equal, atSecond, Option.some.injEq] at atFirst
    exact atFirst.symm
  · intro left inLeft right inRight leftFile rightFile leftHolds rightHolds same
    obtain ⟨first, atFirst⟩ := List.getElem?_of_mem inLeft
    obtain ⟨second, atSecond⟩ := List.getElem?_of_mem inRight
    obtain ⟨plan, here, _, _, media⟩ := places first left atFirst
    obtain ⟨other, there, _, _, twinMedia⟩ := places second right atSecond
    rw [leftHolds] at media
    rw [rightHolds] at twinMedia
    have equal : first = second := by
      obtain new | ⟨source, updates, holds⟩ := attachFile_id media.symm
      · obtain twinNew | ⟨twin, twinUpdates, twinHolds⟩ := attachFile_id twinMedia.symm
        · rw [new, twinNew] at same
          have drawn := draws same
          omega
        · rw [new] at same
          exact absurd same.symm (apart _ (sound.filesDrawn twin
            (old (List.mem_of_getElem? there) twinUpdates) rightFile twinHolds))
      · obtain twinNew | ⟨twin, twinUpdates, twinHolds⟩ := attachFile_id twinMedia.symm
        · rw [twinNew] at same
          exact absurd same (apart _ (sound.filesDrawn source
            (old (List.mem_of_getElem? here) updates) leftFile holds))
        · have one := sound.files source (old (List.mem_of_getElem? here) updates) twin
            (old (List.mem_of_getElem? there) twinUpdates) leftFile rightFile holds twinHolds same
          exact planSources_once planning here there updates twinUpdates (by rw [one])
    rw [equal, atSecond, Option.some.injEq] at atFirst
    exact atFirst.symm
  · intro source member
    obtain ⟨place, atPlace⟩ := List.getElem?_of_mem member
    obtain ⟨plan, here, id, _⟩ := places place source atPlace
    have inside := bound here
    rw [id]
    cases updates : plan.stored with
    | none => exact ⟨state.drawn + (1 + 2 * place), by omega, rfl⟩
    | some kept =>
        exact (sound.idsDrawn kept (old (List.mem_of_getElem? here) updates)).mono (by omega)
  · intro source member file holds
    obtain ⟨place, atPlace⟩ := List.getElem?_of_mem member
    obtain ⟨plan, here, _, _, media⟩ := places place source atPlace
    have inside := bound here
    rw [holds] at media
    obtain new | ⟨kept, updates, keeps⟩ := attachFile_id media.symm
    · exact ⟨state.drawn + (2 + 2 * place), by omega, new⟩
    · exact (sound.filesDrawn kept (old (List.mem_of_getElem? here) updates) file keeps).mono
        (by omega)
  · intro source member
    obtain ⟨place, atPlace⟩ := List.getElem?_of_mem member
    obtain ⟨plan, here, _, links, _⟩ := places place source atPlace
    have clean := planSources_clean planning plan (List.mem_of_getElem? here)
    unfold CopiesReadable
    rw [links]
    exact (linkRows_clean _ _ _ clean).2

theorem finishWrite_sound {geo : Event} {proofHtml : Option Body} {proofFiles : List UploadFile}
    {written : Written}
    (planning : planSources config (state.transaction config) base specs user = .ok planned)
    (finishing : finishWrite config (state.transaction config) geo planned proofHtml proofFiles =
      .ok written)
    (sound : RowsSound config state.drawn (storedSources base)) :
    RowsSound config (state.drawn + written.draws) written.event.sources := by
  obtain ⟨applied, attached, applying, attaching, rfl⟩ := finishWrite_ok finishing
  obtain ⟨_, _, _, _, _, _, _, event⟩ := attachEvidence_ok attaching
  unfold applySources at applying
  simp only [bind_eq_ok, pure_eq_ok] at applying
  obtain ⟨sources, writing, rfl⟩ := applying
  have rows := writeSources_sound planning writing sound
  rw [event]
  apply rows.mono
  simp only
  omega

theorem Drafted.rowsSound {written : Written} (drafted : Drafted config state written) :
    RowsSound config (state.drawn + written.draws) written.event.sources := by
  cases drafted with
  | created _ creating =>
      obtain ⟨_, _, _, planning, _, finishing⟩ := createWithEvidence_ok creating
      exact finishWrite_sound planning finishing .nil
  | requested _ creating =>
      obtain ⟨_, _, _, planning, finishing⟩ := createRequest_ok creating
      exact finishWrite_sound planning finishing .nil

theorem Edited.rowsSound {geo : Event} {written : Written}
    (edited : Edited config state geo written)
    (sound : RowsSound config state.drawn geo.sources) :
    RowsSound config (state.drawn + written.draws) written.event.sources := by
  cases edited with
  | updated _ updating =>
      obtain ⟨_, _, _, _, _, planning, finishing⟩ := updateRequest_ok updating
      exact finishWrite_sound planning finishing sound
  | saved _ saving =>
      obtain ⟨_, _, _, _, planning, _, finishing⟩ := saveVersion_ok saving
      exact finishWrite_sound planning finishing sound

theorem Moved.rowsSound {geo written : Event} (moved : Moved config state geo written)
    (sound : RowsSound config state.drawn geo.sources) :
    RowsSound config state.drawn written.sources := by
  cases moved with
  | published _ publishing =>
      obtain ⟨_, _, _, rfl⟩ := publishDetection_ok publishing
      apply sound.map
      · intro source
        split <;> rfl
      · intro source
        split <;> rfl
      · intro source
        split <;> rfl
  | closed closing =>
      obtain ⟨_, _, rfl⟩ := close_ok closing
      exact sound
  | credited _ crediting =>
      obtain ⟨_, _, _, _, rfl⟩ := CreditVerb.run_event crediting
      exact sound
  | approved _ approving =>
      obtain ⟨_, _, _, _, rfl⟩ := approve_ok approving
      exact sound
  | hidden withholding =>
      obtain ⟨_, rfl⟩ := setHidden_event withholding
      exact sound
  | deleted => exact sound

/-- An imported source is the declared one, with the footage, or a further one. -/
theorem mem_importSources {tx : Events.Transaction} {first : Nat} {detection : Detection}
    {footage : Option Media} {source : Source}
    (member : source ∈ importSources tx first detection footage) :
    source = importedSource (tx.uuid first) .direct .unknown [] detection.declaredLinks footage ∨
      ∃ index extra, detection.secondarySources[index]? = some extra ∧
        source = importedSource (tx.uuid (first + 1 + index)) extra.level extra.kind extra.title
          [(extra.url, extra.postedAt)] none := by
  unfold importSources at member
  obtain declared | extra := List.mem_append.mp member
  · split at declared
    · exact .inl (List.mem_singleton.mp declared)
    · cases declared
  · obtain ⟨index, inside, rfl⟩ := List.mem_mapIdx.mp extra
    exact .inr ⟨index, _, List.getElem?_eq_getElem inside, rfl⟩

theorem importSources_sound {detection : Detection} {footage : Option Media} {count : Nat}
    (room : state.drawn + detection.mediaStart ≤ count)
    (drawn : ∀ file, footage = some file → IsDrawn config count file.id) :
    RowsSound config count (importSources (state.transaction config) 1 detection footage) := by
  have draws : ∀ {first second : Nat}, (state.transaction config).uuid first =
      (state.transaction config).uuid second → first = second := by
    intro first second same
    have equal := config.uuids.draw_injective same
    omega
  unfold Detection.mediaStart at room
  constructor
  · intro left inLeft right inRight same
    obtain rfl | ⟨index, extra, here, rfl⟩ := mem_importSources inLeft
    · obtain rfl | ⟨other, _, _, rfl⟩ := mem_importSources inRight
      · rfl
      · have equal := draws same
        omega
    · obtain rfl | ⟨other, twin, there, rfl⟩ := mem_importSources inRight
      · have equal := draws same
        omega
      · have drawnAt := draws same
        have equal : index = other := by omega
        rw [equal, there, Option.some.injEq] at here
        rw [equal, here]
  · intro left inLeft right inRight leftFile rightFile leftHolds rightHolds _
    obtain rfl | ⟨_, _, _, rfl⟩ := mem_importSources inLeft
    · obtain rfl | ⟨_, _, _, rfl⟩ := mem_importSources inRight
      · rfl
      · cases rightHolds
    · cases leftHolds
  · intro source member
    obtain rfl | ⟨index, _, there, rfl⟩ := mem_importSources member
    · exact ⟨state.drawn + 1, by omega, rfl⟩
    · have inside := (List.getElem?_eq_some_iff.mp there).1
      exact ⟨state.drawn + (1 + 1 + index), by omega, rfl⟩
  · intro source member file holds
    exact drawn file (importSources_file member holds)
  · intro source member
    have unarchived : ∀ link ∈ source.links, link.snapshotUrl = none := by
      have made : ∃ links : List (Str × Option Instant),
          source.links = links.map fun link => ⟨link.1, link.2, none, none⟩ := by
        obtain rfl | ⟨_, _, _, rfl⟩ := mem_importSources member
        · exact ⟨_, rfl⟩
        · exact ⟨_, rfl⟩
      obtain ⟨links, same⟩ := made
      intro link inLinks
      rw [same] at inLinks
      obtain ⟨_, _, rfl⟩ := List.mem_map.mp inLinks
      rfl
    intro link inLinks copy archived
    rw [unarchived link inLinks] at archived
    cases archived

theorem storeMedia_drawn {eventId : Uuid} {first : Nat} {items : List ResolvedMedia} {file : Media}
    (found : sourceFileOf (storeMedia config (state.transaction config) eventId first items) =
      some file) : IsDrawn config (state.drawn + (first + 2 * items.length)) file.id := by
  obtain ⟨row, inStored, rfl⟩ := List.mem_map.mp (mem_of_sourceFileOf found)
  obtain ⟨index, inside, rfl⟩ := List.mem_mapIdx.mp inStored
  exact ⟨state.drawn + (first + 2 * index), by omega, rfl⟩

theorem upsertOne_sound {geo : Event} {detection : Detection} {resolved : DetectionMedia}
    {imported : Imported}
    (upserting : upsertOne config (state.transaction config) geo detection resolved =
      .ok (some imported))
    (sound : RowsSound config state.drawn geo.sources) :
    RowsSound config (state.drawn + imported.draws) imported.event.sources := by
  obtain ⟨_, ⟨_, _, _, draws, _, event⟩ | ⟨_, _, rfl⟩⟩ := upsertOne_ok upserting
  · rw [event, draws]
    show RowsSound config _ (reusedSources (state.transaction config) geo detection)
    unfold reusedSources
    simp only
    split
    · exact sound.mono (by omega)
    · apply importSources_sound (by omega)
      intro file found
      obtain ⟨footage, _, rfl⟩ := Option.map_eq_some_iff.mp found
      unfold Detection.mediaStart
      exact ⟨state.drawn, by omega, rfl⟩
  · apply importSources_sound
    · simp only
      omega
    · intro file found
      exact storeMedia_drawn found

end Writing

/-! ### Every event of a run -/

def SourcesSound (config : Config) (state : State) : Prop :=
  ∀ geo ∈ state.events, RowsSound config state.drawn geo.sources

theorem Outcome.sourcesSound {request : Request} {left : Effect}
    (outcome : Outcome config state request left) (sound : SourcesSound config state) :
    SourcesSound config left.rows := by
  have below := outcome.drawn_le
  have kept : ∀ geo : Event, (∃ row ∈ state.events, geo.sources = row.sources) →
      RowsSound config left.rows.drawn geo.sources := by
    intro geo old
    obtain ⟨row, inRows, same⟩ := old
    rw [same]
    exact (sound row inRows).mono below
  have put : ∀ {written geo : Event}, RowsSound config left.rows.drawn written.sources →
      geo ∈ state.put written → RowsSound config left.rows.drawn geo.sources := by
    intro written geo new member
    obtain old | same := mem_put member
    · exact kept geo ⟨geo, old, rfl⟩
    · rw [same]
      exact new
  intro geo member
  cases outcome with
  | settled settled =>
      simp only [Effect.ofRows, settled.events] at member
      exact kept geo ⟨geo, member, rfl⟩
  | staged _ => exact kept geo ⟨geo, member, rfl⟩
  | reaped => exact kept geo ⟨geo, member, rfl⟩
  | inserted drafted =>
      obtain old | new := List.mem_append.mp member
      · exact kept geo ⟨geo, old, rfl⟩
      · rw [List.mem_singleton.mp new]
        exact drafted.rowsSound
  | wrote found edited => exact put (edited.rowsSound (sound _ found)) member
  | persisted _ persisting =>
      obtain ⟨_, rfl⟩ := persistOne_ok persisting
      obtain old | new := List.mem_append.mp member
      · exact kept geo ⟨geo, old, rfl⟩
      · rw [List.mem_singleton.mp new]
        apply importSources_sound
        · simp only [importEffect]
          omega
        · intro file holds
          exact storeMedia_drawn holds
  | upserted found upserting => exact put (upsertOne_sound upserting (sound _ found)) member
  | redacted _ found redacting =>
      obtain ⟨_, _, _, rfl⟩ := redactVersion_ok redacting
      obtain old | same := mem_put member
      · exact kept geo ⟨geo, old, rfl⟩
      · exact kept geo ⟨_, found, by rw [same]; rfl⟩
  | moved found moved drawn_le =>
      exact put ((moved.rowsSound (sound _ found)).mono drawn_le) member
  | erased doomed => exact kept geo ⟨geo, List.mem_of_mem_filter member, rfl⟩
  | banned user =>
      simp only [Effect.ofRows, softDeleteUser] at member
      split at member
      · exact kept geo ⟨geo, member, rfl⟩
      · obtain ⟨row, inRows, rfl⟩ := List.mem_map.mp member
        obtain ⟨_, _, _, event⟩ := banEvent_event state.users user state.now row
        exact kept _ ⟨row, inRows, by rw [event]⟩
  | restored user =>
      simp only [Effect.ofRows, restoreUser] at member
      split at member
      · exact kept geo ⟨geo, member, rfl⟩
      · obtain ⟨row, inRows, rfl⟩ := List.mem_map.mp member
        obtain ⟨_, event⟩ := restoreWith_event user row
        exact kept _ ⟨row, inRows, by rw [event]⟩
  | forgotten _ =>
      obtain ⟨row, inRows, rfl⟩ := List.mem_map.mp member
      rw [List.mem_filter] at inRows
      obtain ⟨_, _, _, _, event⟩ := passOn_event (by simpa using inRows.2)
      exact kept _ ⟨row, inRows.1, by rw [event]; rfl⟩

theorem SourcesSound.step {label : Label} (sound : SourcesSound config state)
    (stepped : step config label state = .ok next) : SourcesSound config next := by
  obtain ⟨left, outcome, ⟨_, rfl⟩ | ⟨_, rfl⟩⟩ := step_ok stepped
  · exact outcome.sourcesSound sound
  · intro geo member
    exact (sound geo member).mono outcome.drawn_le

theorem sourcesSound_of_reachable (reachable : (system config).Reachable state) :
    SourcesSound config state := by
  apply System.Reachable.invariant _ SourcesSound.step reachable
  rintro start ⟨now, rfl⟩ geo member
  exact absurd member List.not_mem_nil

/-- No source of an event shows the file of a staged upload. -/
theorem uploadsNew_of_reachable (reachable : (system config).Reachable state) {geo : Event}
    (member : geo ∈ state.events) :
    UploadsNew config (state.transaction config) geo.sources := by
  intro upload listed source inSources same
  have custody := custody_of_reachable reachable
  obtain ⟨media, holds, url⟩ := Option.map_eq_some_iff.mp same
  have byEvent : Names config state (.event geo.id)
      (config.storage.publicUrl upload.storageKey) := by
    refine ⟨geo, member, rfl, namedUrls_source (mem_sourceUrls.mpr ?_)⟩
    exact ⟨source, inSources, media, holds, url⟩
  have byUpload : Names config state (.upload upload.id)
      (config.storage.publicUrl upload.storageKey) := ⟨upload, listed, rfl, rfl⟩
  obtain ⟨index, _, carries⟩ := custody.serial byEvent
  cases (custody.sole byEvent byUpload carries carries).1

namespace FilesSwapped

/-- A further direct source, under its own link. -/
def further (uploadId mediaId : Option Uuid) : SourceSpec :=
  { smallSource uploadId mediaId with links := [⟨str "https://example.org/other", none, none⟩] }

/-- A request on two staged files: event 6, sources 7 and 9, files 8 and 10. -/
def draft : Request :=
  .createRequest 0 (smallForm "t" "" [smallSource (some 2) none, further (some 4) none] []) none
    none none

/-- Its form with the files `first` and `second` on the two sources. -/
def posted (first second : Uuid) : EventForm :=
  { smallForm "t" "" [{ smallSource none (some first) with id := some 7 },
      { further none (some second) with id := some 9 }] [] with
    proofData := none }

/-- Its publish, each source on its own file. -/
def publish : Request :=
  .saveVersion 6 0
    { posted 8 10 with proofData := some (str smallProof), proofFiles := [smallFile] } 1 2 none
    none []

def start : State :=
  smallState (smallSetup ++ [.stageUpload 0 smallFile, draft, publish])

theorem start_reachable : (system smallConfig).Reachable start :=
  smallState_reachable rfl

def geo : Event :=
  firstEvent start (by decide)

theorem geo_mem : geo ∈ start.events :=
  firstEvent_mem start _

def owner : User :=
  newUser 0 (str "ann") (str "ann@example.org") []

def plan (form : EventForm) : List PlannedSource :=
  match planSources smallConfig (start.transaction smallConfig) (some geo) form.sources owner with
  | .ok planned => planned
  | .error _ => []

theorem admitted (first second : Uuid)
    (planning : planSources smallConfig (start.transaction smallConfig) (some geo)
      (posted first second).sources owner = .ok (plan (posted first second)))
    (floor : checkPublishFloor (plannedFloor (plan (posted first second))) = .ok ⟨⟩) :
    Admitted smallConfig (start.transaction smallConfig) geo owner (posted first second) 1 2 none
      none (plan (posted first second)) where
  published := rfl
  expected := by simp
  mayEdit := rfl
  position := rfl
  sanitised := rfl
  image := rfl
  conflict := rfl
  planning := planning
  floor := floor

end FilesSwapped

end Vidit.World
