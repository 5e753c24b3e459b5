import Vidit.Events.Outcomes
import Vidit.Library.Rows
import Vidit.World.State

/-!
Contract: when `apply_sources` realises the plan `plan_sources` accepted.

Owns:
- `PlanFacts`, what an accepted plan says of each planned source;
- `Realises`, the rows a plan asks for;
- `FlagsReadable`, the plans whose flags the write reads before it overwrites them.

Does not own: the object store, the order links are read in.

The write goes over the rows in place. What a later row reads of an earlier one is the
flag of the source its file comes from, so the invariant of the second pass is what the
earlier places left of that flag.
-/

namespace Vidit.Events

open Vidit.Python Vidit.Accounts Vidit.Evidence Vidit.Library

variable {config : Config} {tx : Transaction} {base : Option Event} {user : User}
  {specs : List SourceSpec} {planned : List PlannedSource}

/-- The sources a write replaces: none on a create. -/
def storedSources (base : Option Event) : List Source :=
  (base.map Event.sources).getD []

/-- The `_one_file` validator of `SourceCreate`. -/
def SourceSpec.OneFile (spec : SourceSpec) : Prop :=
  spec.uploadId = none ∨ spec.mediaId = none

instance (spec : SourceSpec) : Decidable spec.OneFile :=
  inferInstanceAs (Decidable (_ ∨ _))

/-- The keys of the stored rows, and draws that are none of them. -/
structure RowsKeyed (tx : Transaction) (stored : List Source) : Prop where
  sources : KeyedBy Source.id stored
  files : ∀ left ∈ stored, ∀ right ∈ stored, ∀ leftFile rightFile,
    left.media = some leftFile → right.media = some rightFile → leftFile.id = rightFile.id →
      left = right
  fresh : ∀ draw, tx.uuid draw ∉ stored.map Source.id

/-! ### What a plan asks for -/

/-- A link without the stamp of its archived copy. -/
def SourceLink.posted (link : SourceLink) : LinkSpec :=
  ⟨link.url, link.postedAt, link.snapshotUrl⟩

/-- A file without the key of its row. -/
structure FileContent where
  storageUrl : Str
  kind : MediaKind
  sha256 : Str
  originalFilename : Option Str
deriving DecidableEq, Repr

def Media.content (media : Media) : FileContent :=
  ⟨media.storageUrl, media.kind, media.sha256, media.originalFilename⟩

def Upload.content (config : Config) (upload : Upload) : FileContent :=
  ⟨config.storage.publicUrl upload.storageKey, upload.kind, upload.sha256,
    upload.originalFilename⟩

/-- The file a posted source names: an upload of the user, or a stored file. -/
structure HasPostedFile (config : Config) (tx : Transaction) (user : User)
    (stored : List Source) (spec : SourceSpec) (media : Option Media) : Prop where
  upload : ∀ id, spec.uploadId = some id →
    ∃ upload ∈ tx.uploads, upload.id = id ∧ upload.uploaderId = user.id ∧
      media.map Media.content = some (upload.content config)
  file : ∀ id, spec.mediaId = some id →
    ∃ source ∈ stored, ∃ file, source.media = some file ∧ file.id = id ∧
      media.map Media.content = some file.content ∧
      (spec.id = some source.id → media = some file)
  none : spec.uploadId = none → spec.mediaId = none → media = none

/-- A row is graphic when the plan posts it, the row it keeps was, or the source the
file comes from was. -/
def PostedGraphic (stored : List Source) (spec : SourceSpec) : Prop :=
  spec.isGraphic = true ∨
    ∃ source ∈ stored, source.isGraphic = true ∧
      (spec.id = some source.id ∨
        ∃ file, source.media = some file ∧ spec.mediaId = some file.id)

/-- The row a planned source asks for at place `index`. -/
structure RowRealises (config : Config) (tx : Transaction) (user : User)
    (stored : List Source) (index : Nat) (plan : PlannedSource) (row : Source) : Prop where
  id : row.id = plan.spec.id.getD (tx.uuid (1 + 2 * index))
  title : row.title = plan.spec.title
  level : row.level = plan.spec.level
  kind : row.kind = plan.spec.kind
  capturedAt : row.capturedAt = plan.spec.capturedAt
  capturePosition : row.capturePosition = plan.spec.capturePosition
  tags : row.tags = plan.tags
  links : (row.links.map SourceLink.posted).Perm plan.links
  file : HasPostedFile config tx user stored plan.spec row.media
  isGraphic : row.isGraphic = true ↔ PostedGraphic stored plan.spec

/-- One row for each planned source, at its place, and no stored row the plan leaves out. -/
structure Realises (config : Config) (tx : Transaction) (user : User) (stored : List Source)
    (planned : List PlannedSource) (rows : List Source) : Prop where
  length : rows.length = planned.length
  row : ∀ index plan row, planned[index]? = some plan → rows[index]? = some row →
    RowRealises config tx user stored index plan row
  dropped : ∀ source ∈ stored,
    source.id ∉ rows.map Source.id ↔ ∀ plan ∈ planned, plan.spec.id ≠ some source.id

/-! ### The facts of an accepted plan -/

/-- Where `plan_sources` says the file of a planned source comes from. -/
inductive FileFacts (tx : Transaction) (user : User) (stored : List Source)
    (plan : PlannedSource) : Prop
  | none (noUpload : plan.spec.uploadId = none) (noFile : plan.spec.mediaId = none)
      (upload : plan.upload = none) (keepsMedia : plan.keepsMedia = false)
      (copyOf : plan.copyOf = none)
  | uploaded (upload : Upload) (listed : upload ∈ tx.uploads)
      (own : upload.uploaderId = user.id) (named : plan.spec.uploadId = some upload.id)
      (noFile : plan.spec.mediaId = none) (taken : plan.upload = some upload)
      (keepsMedia : plan.keepsMedia = false) (copyOf : plan.copyOf = none)
  | kept (source : Source) (listed : source ∈ stored) (file : Media)
      (holds : source.media = some file) (named : plan.spec.mediaId = some file.id)
      (noUpload : plan.spec.uploadId = none) (updates : plan.stored = some source)
      (upload : plan.upload = none) (keepsMedia : plan.keepsMedia = true)
      (copyOf : plan.copyOf = none)
  | copied (source : Source) (listed : source ∈ stored) (file : Media)
      (holds : source.media = some file) (named : plan.spec.mediaId = some file.id)
      (noUpload : plan.spec.uploadId = none) (other : plan.spec.id ≠ some source.id)
      (upload : plan.upload = none) (keepsMedia : plan.keepsMedia = false)
      (copyOf : plan.copyOf = some ⟨file, source⟩)

/-- What an accepted plan says of one planned source. -/
structure PlanFacts (tx : Transaction) (user : User) (stored : List Source)
    (plan : PlannedSource) : Prop where
  capturePosition : plan.capturePosition = plan.spec.capturePosition
  created : plan.spec.id = none → plan.stored = none
  updated : ∀ id, plan.spec.id = some id →
    ∃ source ∈ stored, source.id = id ∧ plan.stored = some source
  file : FileFacts tx user stored plan

theorem checkIds_known {stored : List Source} {seen : List Uuid}
    (checked : checkIds stored specs seen = .ok ()) :
    ∀ spec ∈ specs, ∀ id, spec.id = some id → id ∈ stored.map Source.id ∧ id ∉ seen := by
  induction specs generalizing seen with
  | nil => simp
  | cons spec rest inductionHypothesis =>
      intro found member id named
      unfold checkIds at checked
      cases posted : spec.id with
      | none =>
          rw [posted] at checked
          cases List.mem_cons.mp member with
          | inl same =>
              rw [same, posted] at named
              cases named
          | inr inRest => exact inductionHypothesis checked found inRest id named
      | some own =>
          rw [posted] at checked
          simp only [bind_eq_ok, require_eq_ok] at checked
          obtain ⟨_, known, later⟩ := checked
          cases List.mem_cons.mp member with
          | inl same =>
              rw [same, posted] at named
              cases named
              exact known
          | inr inRest =>
              have rest := inductionHypothesis later found inRest id named
              exact ⟨rest.1, fun inSeen => rest.2 (List.mem_cons_of_mem _ inSeen)⟩

/-- No stored source is updated twice. -/
theorem checkIds_once {stored : List Source} {seen : List Uuid}
    (checked : checkIds stored specs seen = .ok ()) :
    (specs.filterMap SourceSpec.id).Nodup := by
  induction specs generalizing seen with
  | nil => simp
  | cons spec rest inductionHypothesis =>
      unfold checkIds at checked
      cases posted : spec.id with
      | none =>
          rw [posted] at checked
          rw [List.filterMap_cons_none posted]
          exact inductionHypothesis checked
      | some own =>
          rw [posted] at checked
          simp only [bind_eq_ok, require_eq_ok] at checked
          obtain ⟨_, _, later⟩ := checked
          rw [List.filterMap_cons_some posted, List.nodup_cons]
          refine ⟨?_, inductionHypothesis later⟩
          intro again
          obtain ⟨other, inRest, named⟩ := List.mem_filterMap.mp again
          exact (checkIds_known later other inRest own named).2 List.mem_cons_self

theorem mapM_planSource_specs {stored : List Source} {staged : List Upload}
    {files : List StoredFile}
    (plans : specs.mapM (planSource config tx stored staged files) = .ok planned) :
    planned.map PlannedSource.spec = specs := by
  induction specs generalizing planned with
  | nil =>
      rw [List.mapM_nil, pure_eq_ok] at plans
      subst plans
      rfl
  | cons spec rest inductionHypothesis =>
      simp only [List.mapM_cons, bind_eq_ok, pure_eq_ok] at plans
      obtain ⟨plan, planning, later, laterPlans, rfl⟩ := plans
      unfold planSource at planning
      simp only [bind_eq_ok, pure_eq_ok] at planning
      obtain ⟨_, _, _, _, rfl⟩ := planning
      rw [List.map_cons, inductionHypothesis laterPlans]

theorem optionalPoint_ok {position : Option Point} {field : Str} {read : Option Point}
    (reading : optionalPoint (position.map Point.lat) (position.map Point.lng) field = .ok read) :
    read = position := by
  cases position with
  | none =>
      simp only [optionalPoint, Option.map_none, Except.ok.injEq] at reading
      exact reading.symm
  | some point =>
      simp only [optionalPoint, Option.map_some, bind_eq_ok, pure_eq_ok] at reading
      obtain ⟨_, _, rfl⟩ := reading
      rfl

/-- A file the write may name, and the source it belongs to. -/
theorem readableFiles_ok {mediaIds : List Uuid} {files : List StoredFile}
    (reading : readableFiles base mediaIds = .ok files) :
    (∀ file ∈ files, file.source ∈ storedSources base ∧ file.source.media = some file.media) ∧
      ∀ id ∈ mediaIds, ∃ file ∈ files, file.media.id = id := by
  unfold readableFiles at reading
  simp only [bind_eq_ok, require_eq_ok, pure_eq_ok] at reading
  obtain ⟨_, missing, rfl⟩ := reading
  constructor
  · intro file member
    have listed := List.mem_of_mem_filter member
    cases base with
    | none => simp at listed
    | some geo =>
        simp only [Option.map_some, Option.getD_some, Event.sourceFiles, List.mem_filterMap,
          Option.map_eq_some_iff] at listed
        obtain ⟨source, inSources, media, holds, rfl⟩ := listed
        exact ⟨inSources, holds⟩
  · intro id member
    by_contra absent
    have inMissing : id ∈ ([] : List Uuid) := by
      rw [← missing, List.mem_filter]
      refine ⟨List.mem_dedup.mpr member, ?_⟩
      simp only [List.mem_map, decide_not, Bool.not_eq_true', decide_eq_false_iff_not]
      intro found
      obtain ⟨file, inFound, same⟩ := found
      exact absent ⟨file, inFound, same⟩
    cases inMissing

theorem takeUploads_ok {uploadIds : List Uuid} {staged : List Upload}
    (taking : takeUploads tx user uploadIds = .ok staged) :
    (∀ upload ∈ staged, upload ∈ tx.uploads ∧ upload.uploaderId = user.id) ∧
      ∀ id ∈ uploadIds, ∃ upload ∈ staged, upload.id = id := by
  unfold takeUploads at taking
  simp only [bind_eq_ok, require_eq_ok, pure_eq_ok] at taking
  obtain ⟨_, missing, _, _, rfl⟩ := taking
  constructor
  · intro upload member
    rw [List.mem_filter, decide_eq_true_eq] at member
    exact ⟨member.1, member.2.2⟩
  · intro id member
    by_contra absent
    have inMissing : id ∈ ([] : List Uuid) := by
      rw [← missing, List.mem_filter]
      refine ⟨List.mem_dedup.mpr member, ?_⟩
      simp only [List.mem_map, decide_not, Bool.not_eq_true', decide_eq_false_iff_not]
      intro found
      obtain ⟨upload, inFound, same⟩ := found
      exact absent ⟨upload, inFound, same⟩
    cases inMissing

theorem find?_known {ρ : Type} (key : ρ → Uuid) {rows : List ρ} {id : Uuid}
    (known : ∃ row ∈ rows, key row = id) :
    ∃ row ∈ rows, key row = id ∧ rows.find? (fun other => key other = id) = some row := by
  cases found : rows.find? fun other => key other = id with
  | none =>
      obtain ⟨row, member, same⟩ := known
      have missed := List.find?_eq_none.mp found row member
      simp [same] at missed
  | some row =>
      have same : key row = id := by
        simpa using List.find?_some found
      exact ⟨row, List.mem_of_find?_eq_some found, same, rfl⟩

theorem planSource_file {stored : List Source} {staged : List Upload} {files : List StoredFile}
    {spec : SourceSpec} {plan : PlannedSource}
    (planning : planSource config tx stored staged files spec = .ok plan)
    (keyed : RowsKeyed tx stored) (oneFile : spec.OneFile)
    (known : ∀ id, spec.id = some id → id ∈ stored.map Source.id)
    (uploads : (∀ upload ∈ staged, upload ∈ tx.uploads ∧ upload.uploaderId = user.id) ∧
      ∀ id, spec.uploadId = some id → ∃ upload ∈ staged, upload.id = id)
    (readable : (∀ file ∈ files, file.source ∈ stored ∧ file.source.media = some file.media) ∧
      ∀ id, spec.mediaId = some id → ∃ file ∈ files, file.media.id = id) :
    FileFacts tx user stored plan := by
  unfold planSource at planning
  simp only [bind_eq_ok, pure_eq_ok] at planning
  obtain ⟨_, _, _, _, rfl⟩ := planning
  cases uploadId : spec.uploadId with
  | some id =>
      have noFile : spec.mediaId = none := by
        cases oneFile with
        | inl noUpload => rw [uploadId] at noUpload; cases noUpload
        | inr noFile => exact noFile
      obtain ⟨upload, inStaged, same, found⟩ := find?_known Upload.id (uploads.2 id uploadId)
      apply FileFacts.uploaded upload (uploads.1 upload inStaged).1 (uploads.1 upload inStaged).2
      · rw [same]
        exact uploadId
      · exact noFile
      · simp only [Option.bind_some, found]
      · simp only [noFile, Option.bind_none]
      · simp only [noFile, Option.bind_none, ite_self]
  | none =>
      cases mediaId : spec.mediaId with
      | none =>
          apply FileFacts.none uploadId mediaId
          · simp only [Option.bind_none]
          · simp only [Option.bind_none]
          · simp only [Option.bind_none, ite_self]
      | some id =>
          obtain ⟨file, inFiles, same, found⟩ :=
            find?_known (fun file : StoredFile => file.media.id) (readable.2 id mediaId)
          obtain ⟨listed, holds⟩ := readable.1 file inFiles
          by_cases own : spec.id = some file.source.id
          · have storedSource : stored.find? (fun source => source.id = file.source.id) =
                some file.source := keyed.sources.find?_eq listed
            apply FileFacts.kept file.source listed file.media holds _ uploadId
            · simp only [own, Option.bind_some, storedSource]
            · simp only [Option.bind_none]
            · simp only [own, Option.bind_some, storedSource, found, decide_true]
            · simp only [own, Option.bind_some, storedSource, found, decide_true, if_true]
            · simp only [mediaId, same]
          · cases posted : spec.id with
            | none =>
                apply FileFacts.copied file.source listed file.media holds _ uploadId _
                · simp only [Option.bind_none]
                · simp only [Option.bind_some, found, Option.bind_none]
                · simp only [Option.bind_some, found, Option.bind_none, Bool.false_eq_true,
                    if_false]
                · rw [← same] at mediaId
                  exact mediaId
                · exact own
            | some updatedId =>
                obtain ⟨source, _, sameSource, foundSource⟩ :=
                  find?_known Source.id (List.mem_map.mp (known updatedId posted))
                have different : file.source.id ≠ source.id := by
                  intro equal
                  apply own
                  rw [posted, equal, sameSource]
                apply FileFacts.copied file.source listed file.media holds _ uploadId _
                · simp only [Option.bind_none]
                · simp only [Option.bind_some, found, foundSource, different, decide_false]
                · simp only [Option.bind_some, found, foundSource, different, decide_false,
                    Bool.false_eq_true, if_false]
                · rw [← same] at mediaId
                  exact mediaId
                · exact own

theorem planSource_facts {stored : List Source} {staged : List Upload} {files : List StoredFile}
    {spec : SourceSpec} {plan : PlannedSource}
    (planning : planSource config tx stored staged files spec = .ok plan)
    (known : ∀ id, spec.id = some id → id ∈ stored.map Source.id)
    (file : FileFacts tx user stored plan) :
    PlanFacts tx user stored plan := by
  unfold planSource at planning
  simp only [bind_eq_ok, pure_eq_ok] at planning
  obtain ⟨_, _, position, reading, rfl⟩ := planning
  refine ⟨optionalPoint_ok reading, ?_, ?_, file⟩
  · intro created
    simp only at created
    simp only [created, Option.bind_none]
  · intro id updated
    simp only at updated
    obtain ⟨source, member, same, found⟩ := find?_known Source.id (List.mem_map.mp (known id updated))
    refine ⟨source, member, same, ?_⟩
    simp only [updated, Option.bind_some, found]

/-- An accepted plan, source by source. -/
theorem planSources_facts (planning : planSources config tx base specs user = .ok planned)
    (keyed : RowsKeyed tx (storedSources base)) (oneFile : ∀ spec ∈ specs, spec.OneFile) :
    planned.map PlannedSource.spec = specs ∧ (specs.filterMap SourceSpec.id).Nodup ∧
      ∀ plan ∈ planned, PlanFacts tx user (storedSources base) plan := by
  unfold planSources at planning
  simp only [bind_eq_ok, require_eq_ok] at planning
  obtain ⟨_, _, _, checked, staged, taking, files, reading, plans⟩ := planning
  refine ⟨mapM_planSource_specs plans, checkIds_once checked, ?_⟩
  intro plan member
  obtain ⟨spec, inSpecs, planningOne⟩ := exists_of_mapM_eq_ok plans member
  have known := fun id named => (checkIds_known checked spec inSpecs id named).1
  have taken := takeUploads_ok taking
  have readable := readableFiles_ok reading
  apply planSource_facts planningOne known
  apply planSource_file planningOne keyed (oneFile spec inSpecs) known
  · refine ⟨taken.1, ?_⟩
    intro id named
    exact taken.2 id (List.mem_filterMap.mpr ⟨spec, inSpecs, named⟩)
  · refine ⟨readable.1, ?_⟩
    intro id named
    exact readable.2 id (List.mem_filterMap.mpr ⟨spec, inSpecs, named⟩)

/-! ### What the write reads -/

/-- The flag of a row, and those the earlier places posted on the file's source. -/
def readFlag (earlier : List PlannedSource) (plan : PlannedSource) : Bool :=
  plan.spec.isGraphic || plan.stored.any Source.isGraphic ||
    plan.copyOf.any fun file => file.source.isGraphic ||
      earlier.any fun other => other.spec.id = some file.source.id && other.spec.isGraphic

/-- The flag is read off a file the plan has taken from its source. -/
def stuck (all : List PlannedSource) (plan : PlannedSource) : Bool :=
  !(plan.spec.isGraphic || plan.stored.any Source.isGraphic) &&
    plan.copyOf.any fun file => losesMedia all file.source

/-- The row the second pass writes for one planned source. -/
def writtenRow (config : Config) (tx : Transaction) (index : Nat) (earlier : List PlannedSource)
    (plan : PlannedSource) : Source where
  id := (plan.stored.map Source.id).getD (tx.uuid (1 + 2 * index))
  title := plan.spec.title
  level := plan.spec.level
  kind := plan.spec.kind
  capturedAt := plan.spec.capturedAt
  capturePosition := plan.capturePosition
  isGraphic := readFlag earlier plan
  links := linkRows config.unicode ((plan.stored.map Source.links).getD []) plan.links tx.now
  tags := plan.tags
  media := attachFile config plan (tx.uuid (2 + 2 * index))

def writtenRows (config : Config) (tx : Transaction) :
    Nat → List PlannedSource → List PlannedSource → List Source
  | _, _, [] => []
  | index, earlier, plan :: rest =>
    writtenRow config tx index earlier plan ::
      writtenRows config tx (index + 1) (earlier ++ [plan]) rest

/-- What the places written so far left of the flag of each source that keeps its file. -/
def Reads (stored : List Source) (all earlier : List PlannedSource)
    (written : List (Uuid × Bool)) : Prop :=
  ∀ source ∈ stored, losesMedia all source = false →
    (written.lookup source.id).getD source.isGraphic =
      (source.isGraphic ||
        earlier.any fun other => other.spec.id = some source.id && other.spec.isGraphic)

section Pass

variable {stored : List Source} {all earlier rest : List PlannedSource} {plan : PlannedSource}
  {written : List (Uuid × Bool)} {index : Nat}

theorem PlanFacts.copyOf_mem (facts : PlanFacts tx user stored plan) {file : StoredFile}
    (copied : plan.copyOf = some file) :
    file.source ∈ stored ∧ file.source.media = some file.media ∧
      plan.spec.mediaId = some file.media.id := by
  cases facts.file with
  | none _ _ _ _ copyOf | uploaded _ _ _ _ _ _ _ copyOf | kept _ _ _ _ _ _ _ _ _ copyOf =>
      rw [copyOf] at copied
      cases copied
  | copied source listed media holds named _ _ _ _ copyOf =>
      rw [copyOf] at copied
      cases copied
      exact ⟨listed, holds, named⟩

/-- A plan whose own source keeps its file copies none. -/
theorem PlanFacts.copyOf_none (facts : PlanFacts tx user stored plan) (member : plan ∈ all)
    {source : Source} (updates : plan.stored = some source)
    (keeps : losesMedia all source = false) : plan.copyOf = none := by
  unfold losesMedia at keeps
  rw [List.any_eq_false] at keeps
  have kept := keeps plan member
  simp only [updates, Option.any_some, decide_true, Bool.and_true, Bool.not_eq_true',
    Bool.not_eq_false] at kept
  cases facts.file with
  | none _ _ _ _ copyOf | uploaded _ _ _ _ _ _ _ copyOf | kept _ _ _ _ _ _ _ _ _ copyOf =>
      exact copyOf
  | copied _ _ _ _ _ _ _ _ keepsMedia _ =>
      rw [keepsMedia] at kept
      cases kept

theorem writtenGraphic_eq (facts : PlanFacts tx user stored plan)
    (reads : Reads stored all earlier written) :
    writtenGraphic all written plan =
      if stuck all plan then .error .internal else .ok (readFlag earlier plan) := by
  unfold writtenGraphic stuck readFlag
  cases flagged : plan.spec.isGraphic || plan.stored.any Source.isGraphic with
  | true => simp
  | false =>
      cases copied : plan.copyOf with
      | none => simp
      | some file =>
          cases loses : losesMedia all file.source with
          | true => simp [loses]
          | false =>
              have read := reads file.source (facts.copyOf_mem copied).1 loses
              simp [loses, read]

/-- A row keeps its key, or takes a new one. -/
theorem PlanFacts.writtenRow_id (facts : PlanFacts tx user stored plan) :
    (writtenRow config tx index earlier plan).id = plan.spec.id.getD (tx.uuid (1 + 2 * index)) := by
  unfold writtenRow
  cases posted : plan.spec.id with
  | none =>
      rw [facts.created posted]
      rfl
  | some id =>
      obtain ⟨source, _, same, found⟩ := facts.updated id posted
      rw [found, ← same]
      rfl

theorem Reads.next (reads : Reads stored all earlier written) (keyed : RowsKeyed tx stored)
    (facts : PlanFacts tx user stored plan) (member : plan ∈ all)
    (once : ∀ other ∈ earlier, ∀ id, other.spec.id = some id → plan.spec.id ≠ some id) :
    Reads stored all (earlier ++ [plan])
      (((writtenRow config tx index earlier plan).id, readFlag earlier plan) :: written) := by
  intro source inStored keeps
  rw [facts.writtenRow_id, List.lookup_cons, List.any_append, List.any_cons, List.any_nil,
    Bool.or_false]
  cases posted : plan.spec.id with
  | none =>
      have other : (source.id == tx.uuid (1 + 2 * index)) = false := by
        rw [beq_eq_false_iff_ne]
        intro same
        apply keyed.fresh (1 + 2 * index)
        rw [← same]
        exact List.mem_map_of_mem inStored
      simp only [Option.getD_none, other]
      rw [reads source inStored keeps]
      simp
  | some id =>
      obtain ⟨own, inOwn, same, found⟩ := facts.updated id posted
      by_cases here : source.id = id
      · have equal : own = source := keyed.sources own inOwn source inStored (same.trans here.symm)
        rw [equal] at found
        have noCopy := facts.copyOf_none member found keeps
        have silent : (earlier.any fun other =>
            other.spec.id = some source.id && other.spec.isGraphic) = false := by
          rw [List.any_eq_false]
          intro other inEarlier hit
          simp only [Bool.and_eq_true, decide_eq_true_eq] at hit
          exact once other inEarlier source.id hit.1 (here ▸ posted)
        unfold readFlag
        simp only [Option.getD_some, here, beq_self_eq_true, noCopy, Option.any_none,
          Bool.or_false, found, Option.any_some, decide_true, Bool.true_and]
        rw [← here, silent, Bool.false_or, Bool.or_comm]
      · have other : (source.id == id) = false := by
          rw [beq_eq_false_iff_ne]
          exact here
        have absent : ¬ id = source.id := fun equal => here equal.symm
        simp only [Option.getD_some, other, Option.some.injEq, absent, decide_false,
          Bool.false_and, Bool.or_false]
        exact reads source inStored keeps

/-- The second pass writes one row for each planned source, or raises. -/
theorem writeSources_eq (keyed : RowsKeyed tx stored)
    (facts : ∀ plan ∈ all, PlanFacts tx user stored plan)
    (once : (all.filterMap fun plan => plan.spec.id).Nodup) (places : all = earlier ++ rest)
    (reads : Reads stored all earlier written) (index : Nat) :
    writeSources config tx all index written rest =
      if rest.any (stuck all) then .error .internal
      else .ok (writtenRows config tx index earlier rest) := by
  induction rest generalizing earlier written index with
  | nil => rfl
  | cons plan rest inductionHypothesis =>
      have member : plan ∈ all := by
        rw [places]
        simp
      have onceHere : ∀ other ∈ earlier, ∀ id, other.spec.id = some id →
          plan.spec.id ≠ some id := by
        intro other inEarlier id named again
        rw [places, List.filterMap_append,
          List.filterMap_cons_some (f := fun plan : PlannedSource => plan.spec.id) again,
          List.nodup_append] at once
        have inIds : id ∈ earlier.filterMap fun plan => plan.spec.id :=
          List.mem_filterMap.mpr ⟨other, inEarlier, named⟩
        exact once.2.2 id inIds id List.mem_cons_self rfl
      unfold writeSources writtenRows
      rw [writtenGraphic_eq (facts plan member) reads, List.any_cons]
      cases fails : stuck all plan with
      | true => simp [bind, Except.bind]
      | false =>
          have readsNext : Reads stored all (earlier ++ [plan])
              (((writtenRow config tx index earlier plan).id, readFlag earlier plan) :: written) :=
            reads.next keyed (facts plan member) member onceHere
          have placesNext : all = (earlier ++ [plan]) ++ rest := by
            rw [places]
            simp
          have later := inductionHypothesis placesNext readsNext (index + 1)
          simp only [Bool.false_eq_true, if_false, bind, Except.bind, Bool.false_or]
          unfold writtenRow at later
          rw [later]
          cases halts : rest.any (stuck all) with
          | true => rfl
          | false => rfl

theorem writtenRows_length : (writtenRows config tx index earlier rest).length = rest.length := by
  induction rest generalizing earlier index with
  | nil => rfl
  | cons plan rest inductionHypothesis =>
      unfold writtenRows
      rw [List.length_cons, List.length_cons, inductionHypothesis]

theorem writtenRows_getElem? (place : Nat) :
    (writtenRows config tx index earlier rest)[place]? =
      rest[place]?.map (writtenRow config tx (index + place) (earlier ++ rest.take place)) := by
  induction rest generalizing earlier index place with
  | nil => rfl
  | cons plan rest inductionHypothesis =>
      unfold writtenRows
      cases place with
      | zero => simp
      | succ place =>
          rw [List.getElem?_cons_succ, List.getElem?_cons_succ, inductionHypothesis,
            List.take_succ_cons, List.append_assoc, List.singleton_append]
          congr 2
          omega

end Pass

/-! ### The rows a plan asks for -/

section Rows

variable {stored : List Source} {earlier : List PlannedSource} {plan : PlannedSource}
  {index : Nat}

theorem linkRows_posted (unicode : Unicode) (links : List SourceLink) (posted : List LinkSpec)
    (now : Instant) :
    ((linkRows unicode links posted now).map SourceLink.posted).Perm posted := by
  unfold linkRows
  have sorted := (sortedBy_perm linkLe (posted.map (linkRow unicode links now))).map
    SourceLink.posted
  rw [List.map_map] at sorted
  have same : SourceLink.posted ∘ linkRow unicode links now = id := by
    funext link
    rfl
  rw [same, List.map_id] at sorted
  exact sorted

/-- The file the write attaches is the posted one. -/
theorem PlanFacts.hasPostedFile (facts : PlanFacts tx user stored plan) (mediaId : Uuid) :
    HasPostedFile config tx user stored plan.spec (attachFile config plan mediaId) := by
  unfold attachFile
  cases facts.file with
  | none noUpload noFile upload keepsMedia copyOf =>
      rw [upload, copyOf]
      constructor
      · intro id named
        rw [noUpload] at named
        cases named
      · intro id named
        rw [noFile] at named
        cases named
      · intro _ _
        simp only [keepsMedia, Bool.false_eq_true, if_false]
  | uploaded upload listed own named noFile taken keepsMedia copyOf =>
      rw [taken]
      constructor
      · intro id posted
        rw [named] at posted
        cases posted
        exact ⟨upload, listed, rfl, own, rfl⟩
      · intro id posted
        rw [noFile] at posted
        cases posted
      · intro noUpload
        rw [named] at noUpload
        cases noUpload
  | kept source listed file holds named noUpload updates upload keepsMedia copyOf =>
      rw [upload, copyOf, keepsMedia, updates]
      constructor
      · intro id posted
        rw [noUpload] at posted
        cases posted
      · intro id posted
        rw [named] at posted
        cases posted
        simp only [if_true, Option.bind_some]
        refine ⟨source, listed, file, holds, rfl, ?_, fun _ => holds⟩
        rw [holds]
        rfl
      · intro _ noFile
        rw [named] at noFile
        cases noFile
  | copied source listed file holds named noUpload other upload keepsMedia copyOf =>
      rw [upload, copyOf]
      constructor
      · intro id posted
        rw [noUpload] at posted
        cases posted
      · intro id posted
        rw [named] at posted
        cases posted
        exact ⟨source, listed, file, holds, rfl, rfl, fun same => absurd same other⟩
      · intro _ noFile
        rw [named] at noFile
        cases noFile

/-- The flag an accepted plan shows before the write is the one it posts. -/
theorem PlanFacts.isGraphic_iff (facts : PlanFacts tx user stored plan)
    (keyed : RowsKeyed tx stored) :
    plan.isGraphic = true ↔ PostedGraphic stored plan.spec := by
  unfold PlannedSource.isGraphic PostedGraphic
  simp only [Bool.or_eq_true, or_assoc]
  apply or_congr Iff.rfl
  constructor
  · intro graphic
    cases graphic with
    | inl own =>
        cases posted : plan.spec.id with
        | none =>
            rw [facts.created posted] at own
            cases own
        | some id =>
            obtain ⟨source, inStored, same, found⟩ := facts.updated id posted
            rw [found, Option.any_some] at own
            exact ⟨source, inStored, own, .inl (by rw [same])⟩
    | inr copied =>
        rw [Option.any_eq_true] at copied
        obtain ⟨file, isFile, graphic⟩ := copied
        obtain ⟨inStored, holds, named⟩ := facts.copyOf_mem isFile
        exact ⟨file.source, inStored, graphic, .inr ⟨file.media, holds, named⟩⟩
  · intro graphic
    obtain ⟨source, inStored, graphic, reason⟩ := graphic
    have ofKept : plan.spec.id = some source.id → plan.stored.any Source.isGraphic = true := by
      intro posted
      obtain ⟨own, inOwn, same, found⟩ := facts.updated source.id posted
      rw [found, keyed.sources own inOwn source inStored same, Option.any_some]
      exact graphic
    cases reason with
    | inl posted => exact .inl (ofKept posted)
    | inr taken =>
        obtain ⟨file, holds, named⟩ := taken
        cases facts.file with
        | none _ noFile _ _ _ | uploaded _ _ _ _ noFile _ _ _ =>
            rw [noFile] at named
            cases named
        | kept other inOther otherFile otherHolds otherNamed _ updates _ _ _ =>
            rw [otherNamed, Option.some.injEq] at named
            have same := keyed.files other inOther source inStored otherFile file otherHolds holds
              named
            left
            rw [updates, same, Option.any_some]
            exact graphic
        | copied other inOther otherFile otherHolds otherNamed _ _ _ _ copyOf =>
            rw [otherNamed, Option.some.injEq] at named
            have same := keyed.files other inOther source inStored otherFile file otherHolds holds
              named
            right
            rw [copyOf, same, Option.any_some]
            exact graphic

/-- The written row is the one asked for exactly when its flag is the posted one. -/
theorem PlanFacts.rowRealises_iff (facts : PlanFacts tx user stored plan)
    (keyed : RowsKeyed tx stored) :
    RowRealises config tx user stored index plan (writtenRow config tx index earlier plan) ↔
      readFlag earlier plan = plan.isGraphic := by
  constructor
  · intro realised
    rw [Bool.eq_iff_iff, facts.isGraphic_iff keyed]
    exact realised.isGraphic
  · intro same
    exact {
      id := facts.writtenRow_id
      title := rfl
      level := rfl
      kind := rfl
      capturedAt := rfl
      capturePosition := facts.capturePosition
      tags := rfl
      links := linkRows_posted _ _ _ _
      file := facts.hasPostedFile _
      isGraphic := by
        rw [← facts.isGraphic_iff keyed, ← same]
        rfl }

end Rows

/-! ### Plans the write realises -/

/-- `apply_sources` completes and leaves the rows the plan asks for. -/
def AppliesPlan (config : Config) (tx : Transaction) (user : User) (stored : List Source)
    (planned : List PlannedSource) : Prop :=
  ∃ applied, applySources config tx stored planned = .ok applied ∧
    Realises config tx user stored planned applied.sources

/-- An unflagged planned source that copies the file of another finds that file on its source,
and no flag an earlier place posts on that source. -/
def FlagsReadable (planned : List PlannedSource) : Prop :=
  ∀ earlier plan later, planned = earlier ++ plan :: later →
    plan.spec.isGraphic = false → plan.stored.any Source.isGraphic = false →
      ∀ file, plan.copyOf = some file →
        losesMedia planned file.source = false ∧
          (file.source.isGraphic = true ∨
            ∀ other ∈ earlier, other.spec.id = some file.source.id → other.spec.isGraphic = false)

theorem reads_nil (stored : List Source) (all : List PlannedSource) : Reads stored all [] [] := by
  intro source _ _
  simp

theorem readFlag_eq_iff {earlier : List PlannedSource} {plan : PlannedSource} :
    readFlag earlier plan = plan.isGraphic ↔
      (plan.spec.isGraphic = false → plan.stored.any Source.isGraphic = false →
        ∀ file, plan.copyOf = some file → file.source.isGraphic = true ∨
          ∀ other ∈ earlier, other.spec.id = some file.source.id →
            other.spec.isGraphic = false) := by
  unfold readFlag PlannedSource.isGraphic
  cases plan.spec.isGraphic with
  | true => simp
  | false =>
      cases plan.stored.any Source.isGraphic with
      | true => simp
      | false =>
          cases plan.copyOf with
          | none => simp
          | some file =>
              cases graphic : file.source.isGraphic with
              | true => simp [graphic]
              | false => simp [graphic]

theorem stuck_eq_false_iff {all : List PlannedSource} {plan : PlannedSource} :
    stuck all plan = false ↔
      (plan.spec.isGraphic = false → plan.stored.any Source.isGraphic = false →
        ∀ file, plan.copyOf = some file → losesMedia all file.source = false) := by
  unfold stuck
  cases plan.spec.isGraphic with
  | true => simp
  | false =>
      cases plan.stored.any Source.isGraphic with
      | true => simp
      | false =>
          cases plan.copyOf with
          | none => simp
          | some file => simp

theorem flagsReadable_iff :
    FlagsReadable planned ↔
      planned.any (stuck planned) = false ∧
        ∀ earlier plan later, planned = earlier ++ plan :: later →
          readFlag earlier plan = plan.isGraphic := by
  constructor
  · intro readable
    constructor
    · rw [List.any_eq_false]
      intro plan member
      rw [Bool.not_eq_true, stuck_eq_false_iff]
      obtain ⟨earlier, later, places⟩ := List.append_of_mem member
      intro unposted unflagged file copied
      exact (readable earlier plan later places unposted unflagged file copied).1
    · intro earlier plan later places
      rw [readFlag_eq_iff]
      intro unposted unflagged file copied
      exact (readable earlier plan later places unposted unflagged file copied).2
  · intro conditions earlier plan later places unposted unflagged file copied
    have free := List.any_eq_false.mp conditions.1 plan (by rw [places]; simp)
    rw [Bool.not_eq_true, stuck_eq_false_iff] at free
    have flag := readFlag_eq_iff.mp (conditions.2 earlier plan later places)
    exact ⟨free unposted unflagged file copied, flag unposted unflagged file copied⟩

/-- The keys of the rows written: those the plan names, and new ones. -/
theorem mem_writtenRows_id {stored : List Source} {rest : List PlannedSource}
    (keyed : RowsKeyed tx stored) (facts : ∀ plan ∈ rest, PlanFacts tx user stored plan)
    {source : Source} (member : source ∈ stored) (index : Nat) (earlier : List PlannedSource) :
    source.id ∈ (writtenRows config tx index earlier rest).map Source.id ↔
      ∃ plan ∈ rest, plan.spec.id = some source.id := by
  induction rest generalizing earlier index with
  | nil => simp [writtenRows]
  | cons plan rest inductionHypothesis =>
      have later := inductionHypothesis (fun other inRest =>
        facts other (List.mem_cons_of_mem _ inRest)) (index + 1) (earlier ++ [plan])
      unfold writtenRows
      rw [List.map_cons, List.mem_cons, later, (facts plan List.mem_cons_self).writtenRow_id]
      have here : source.id = plan.spec.id.getD (tx.uuid (1 + 2 * index)) ↔
          plan.spec.id = some source.id := by
        cases plan.spec.id with
        | none =>
            have new : source.id ≠ tx.uuid (1 + 2 * index) := by
              intro same
              apply keyed.fresh (1 + 2 * index)
              rw [← same]
              exact List.mem_map_of_mem member
            simp [new]
        | some id => simp [eq_comm]
      rw [here]
      simp

/-- An accepted plan is realised exactly when the write finds the flags it reads. -/
theorem appliesPlan_iff (planning : planSources config tx base specs user = .ok planned)
    (keyed : RowsKeyed tx (storedSources base)) (oneFile : ∀ spec ∈ specs, spec.OneFile) :
    AppliesPlan config tx user (storedSources base) planned ↔ FlagsReadable planned := by
  obtain ⟨posted, onceSpecs, facts⟩ := planSources_facts planning keyed oneFile
  have once : (planned.filterMap fun plan => plan.spec.id).Nodup := by
    rw [← posted, List.filterMap_map] at onceSpecs
    exact onceSpecs
  have writes : writeSources config tx planned 0 [] planned =
      if planned.any (stuck planned) then .error .internal
      else .ok (writtenRows config tx 0 [] planned) :=
    writeSources_eq keyed facts once rfl (reads_nil _ _) 0
  have row : ∀ earlier plan later, planned = earlier ++ plan :: later →
      planned[earlier.length]? = some plan ∧
        (writtenRows config tx 0 [] planned)[earlier.length]? =
          some (writtenRow config tx earlier.length earlier plan) := by
    intro earlier plan later places
    have here : planned[earlier.length]? = some plan := by
      rw [places]
      simp
    refine ⟨here, ?_⟩
    rw [writtenRows_getElem?, here, List.nil_append, Nat.zero_add, Option.map_some]
    rw [places, List.take_left]
  rw [flagsReadable_iff]
  unfold AppliesPlan applySources
  constructor
  · intro applies
    obtain ⟨applied, applying, realised⟩ := applies
    rw [writes] at applying
    cases halts : planned.any (stuck planned) with
    | true =>
        rw [halts] at applying
        cases applying
    | false =>
        rw [halts] at applying
        cases applying
        refine ⟨rfl, ?_⟩
        intro earlier plan later places
        have found := row earlier plan later places
        have asked := realised.row earlier.length plan _ found.1 found.2
        exact ((facts plan (by rw [places]; simp)).rowRealises_iff keyed).mp asked
  · intro conditions
    rw [writes, conditions.1]
    refine ⟨_, rfl, ?_⟩
    constructor
    · exact writtenRows_length
    · intro index plan found here there
      obtain ⟨inBounds, _⟩ := List.getElem?_eq_some_iff.mp here
      have places : planned = planned.take index ++ plan :: planned.drop (index + 1) := by
        rw [← List.getElem?_eq_some_iff.mp here |>.2, List.cons_getElem_drop_succ,
          List.take_append_drop]
      have length : (planned.take index).length = index := by
        rw [List.length_take]
        omega
      have written := (row _ plan _ places).2
      rw [length] at written
      rw [written] at there
      cases there
      have member : plan ∈ planned := List.mem_of_getElem? here
      exact ((facts plan member).rowRealises_iff keyed).mpr
        (conditions.2 _ plan _ places)
    · intro source member
      show source.id ∉ (writtenRows config tx 0 [] planned).map Source.id ↔ _
      rw [mem_writtenRows_id keyed facts member]
      constructor
      · intro none plan inPlanned same
        exact none ⟨plan, inPlanned, same⟩
      · intro none found
        obtain ⟨plan, inPlanned, same⟩ := found
        exact none plan inPlanned same

/-! ### Two sources that change files -/

namespace Swap

open Vidit.World

def frame (id : Uuid) (url : Str) : Media :=
  ⟨id, url, .image, str "d", none⟩

def seen (id mediaId : Uuid) (url : Str) : Source where
  id := id
  title := []
  level := .direct
  kind := .camera
  capturedAt := none
  capturePosition := none
  isGraphic := false
  links := [⟨str "https://example.org/1", none, none, none⟩]
  tags := []
  media := some (frame mediaId url)

/-- A published event with two sources, each with its file. -/
def geo : Event where
  id := 9
  ownerId := 7
  requestedById := none
  title := []
  coords := none
  proof := []
  occurredDate := none
  occurredTime := none
  requestedAt := none
  detectedAt := none
  geolocatedAt := some 0
  status := .geolocated
  createdAt := 0
  closedAt := none
  closeReason := none
  beforeClosedStatus := none
  deletedAt := none
  hiddenAt := none
  versionNo := 1
  media := []
  sources := [seen 1 11 (str "https://cdn.example.org/a.png"),
    seen 2 12 (str "https://cdn.example.org/b.png")]
  tags := []
  conflicts := []
  geolocators := []
  detection := none
  versions := []
  approvals := []
  approvalRequests := []
  collectionItems := []

def owner : User where
  id := 7
  username := str "owner"
  email := str "owner@example.org"
  passwordHash := str "hash"
  isActive := true
  isAdmin := false
  lastSeenAt := none
  deletedAt := none
  tokenVersion := 0

def saving : Transaction :=
  ⟨5, fun draw => 100 + draw, [owner], [], [], [], []⟩

/-- The source as it is read, with the file of a source. -/
def posted (id mediaId : Uuid) : SourceSpec where
  id := some id
  title := []
  level := .direct
  kind := .camera
  capturedAt := none
  capturePosition := none
  isGraphic := false
  links := [⟨str "https://example.org/1", none, none⟩]
  tagIds := []
  uploadId := none
  mediaId := some mediaId

def plan (specs : List SourceSpec) : List PlannedSource :=
  match planSources smallConfig saving (some geo) specs owner with
  | .ok planned => planned
  | .error _ => []

/-- The two sources, last first. -/
def reordered : List SourceSpec :=
  [posted 2 12, posted 1 11]

/-- Each source with the file of the other. -/
def swapped : List SourceSpec :=
  [posted 1 12, posted 2 11]

theorem keyed : RowsKeyed saving (storedSources (some geo)) where
  sources := by
    unfold KeyedBy
    decide
  files := by
    intro left inLeft right inRight leftFile rightFile leftHolds rightHolds same
    have known : ∀ source ∈ geo.sources, ∀ other ∈ geo.sources,
        source.media.map Media.id = other.media.map Media.id → source = other := by
      decide
    apply known left inLeft right inRight
    rw [leftHolds, rightHolds, Option.map_some, Option.map_some, same]
  fresh := by
    intro draw member
    have below : ∀ source ∈ geo.sources, source.id < 100 := by decide
    obtain ⟨source, inSources, same⟩ := List.mem_map.mp member
    have bound : source.id < 100 := below source inSources
    rw [same] at bound
    exact absurd bound (Nat.not_lt.mpr (Nat.le_add_right 100 draw))

/-- A change of order is realised. -/
theorem reordered_applies : AppliesPlan smallConfig saving owner geo.sources (plan reordered) := by
  have planning : planSources smallConfig saving (some geo) reordered owner = .ok (plan reordered) :=
    rfl
  apply (appliesPlan_iff planning keyed (by decide)).mpr
  intro earlier planned later places _ _ file copied
  have kept : ∀ planned ∈ plan reordered, planned.copyOf = none := by decide
  rw [kept planned (by rw [places]; simp)] at copied
  cases copied

/-- The claim fails: two unflagged sources that change files raise. -/
theorem swapped_fails :
    planSources smallConfig saving (some geo) swapped owner = .ok (plan swapped) ∧
      ¬ AppliesPlan smallConfig saving owner geo.sources (plan swapped) := by
  refine ⟨rfl, ?_⟩
  intro applies
  obtain ⟨applied, applying, _⟩ := applies
  have raises : applySources smallConfig saving geo.sources (plan swapped) = .error .internal := rfl
  rw [raises] at applying
  cases applying

end Swap

end Vidit.Events
