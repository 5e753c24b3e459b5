import Mathlib.Data.Rat.Encodable
import Vidit.Editor.FormAgrees
import Vidit.Points.Numerals

/-!
Contract: what the source form files, and what of an edit it shows.

Owns:
- what the backend reads of an editor that agrees with its source;
- `formFaithful_iff`: when the form files no edit nobody made and hides none somebody did;
- links with no blank and no line break, which print alike only when they are the same.

Does not own: what a save does with the answer.

Proof shape: an editor that agrees with its source in every field posts a source that folds as the
stored one, links apart; only the links are left to compare.
-/

namespace Vidit.Editor

open Vidit.Python Vidit.Browser Vidit.Accounts Vidit.Library Vidit.Events

/-! ### Texts there and back -/

/-- A text of the database: scalar values alone. -/
def Scalar (text : Str) : Prop :=
  ∀ point ∈ text, isSurrogate point = false ∧ point < 0x110000

theorem codePoints_spell {point : Nat} (scalar : isSurrogate point = false ∧ point < 0x110000) :
    codePoints (spell point) = [point] := by
  unfold spell
  split
  · rename_i basic
    show [point.toUInt16.toNat] = [point]
    rw [Nat.toUInt16, UInt16.toNat_ofNat', Nat.mod_eq_of_lt (by omega)]
  · rename_i astral
    have high : (0xD800 + (point - 0x10000) / 0x400).toUInt16.toNat =
        0xD800 + (point - 0x10000) / 0x400 := by
      rw [Nat.toUInt16, UInt16.toNat_ofNat', Nat.mod_eq_of_lt (by omega)]
    have low : (0xDC00 + (point - 0x10000) % 0x400).toUInt16.toNat =
        0xDC00 + (point - 0x10000) % 0x400 := by
      rw [Nat.toUInt16, UInt16.toNat_ofNat', Nat.mod_eq_of_lt (by omega)]
    have isPair : (isHigh (0xD800 + (point - 0x10000) / 0x400).toUInt16 &&
        isLow (0xDC00 + (point - 0x10000) % 0x400).toUInt16) = true := by
      rw [Bool.and_eq_true, isHigh_iff, isLow_iff, high, low]
      omega
    have same : pairPoint (0xD800 + (point - 0x10000) / 0x400).toUInt16
        (0xDC00 + (point - 0x10000) % 0x400).toUInt16 = point := by
      unfold pairPoint
      rw [high, low]
      omega
    rw [codePoints, if_pos isPair, codePoints, same]

theorem isWellFormed_spell {point : Nat} (scalar : isSurrogate point = false ∧ point < 0x110000) :
    isWellFormed (spell point) = true := by
  unfold isWellFormed
  rw [codePoints_spell scalar]
  simp [scalar.1]

theorem codePoints_spelled {text : Str} (scalar : Scalar text) : codePoints (spelled text) = text := by
  induction text with
  | nil => rfl
  | cons point rest inductionHypothesis =>
      have here := scalar point List.mem_cons_self
      have later := inductionHypothesis fun other inRest => scalar other (List.mem_cons_of_mem _ inRest)
      unfold spelled at later ⊢
      rw [List.flatMap_cons, codePoints_append_of_wellFormed (isWellFormed_spell here),
        codePoints_spell here, later]
      rfl

/-! ### What the backend reads -/

section Reading

theorem readText_ok {text : Text} {read : Str} (reading : readText text = .ok read) :
    read = codePoints text := by
  unfold readText at reading
  simp only [bind_eq_ok, pure_eq_ok] at reading
  obtain ⟨_, _, same⟩ := reading
  exact same.symm

theorem readUrl_ok {text : Text} {read : Str} (reading : readUrl text = .ok read) :
    read = codePoints text := by
  unfold readUrl at reading
  simp only [bind_eq_ok, pure_eq_ok] at reading
  obtain ⟨url, readingUrl, _, _, same⟩ := reading
  rw [← same]
  exact readText_ok readingUrl

theorem readTitle_ok {text : Text} {read : Str} (reading : readTitle text = .ok read) :
    read = stripBy isWhitespace (codePoints text) := by
  unfold readTitle at reading
  simp only [bind_eq_ok, pure_eq_ok] at reading
  obtain ⟨title, readingTitle, _, _, same⟩ := reading
  rw [← same, readText_ok readingTitle]

theorem readNullable_ok {α : Type} {read : Text → Except Unprocessable α} {field : Option Text}
    {value : Option α} (reading : readNullable read field = .ok value) :
    (field = none ∧ value = none) ∨
      ∃ text one, field = some text ∧ read text = .ok one ∧ value = some one := by
  cases field with
  | none =>
      simp only [readNullable, pure_eq_ok] at reading
      exact .inl ⟨rfl, reading.symm⟩
  | some text =>
      simp only [readNullable, bind_eq_ok, pure_eq_ok] at reading
      obtain ⟨one, readingOne, same⟩ := reading
      exact .inr ⟨text, one, rfl, readingOne, same.symm⟩

variable (wire : Wire)

theorem readInstant_instantText (time : Instant) :
    readInstant wire (wire.instantText time) = .ok time := by
  unfold readInstant
  rw [wire.readInstant_instantText]

/-- An instant posted back as it was read. -/
theorem readNullable_stored {stored read : Option Instant}
    (reading : readNullable (readInstant wire) (stored.map wire.instantText) = .ok read) :
    read = stored := by
  cases stored with
  | none =>
      simp only [Option.map_none, readNullable, pure_eq_ok] at reading
      exact reading.symm
  | some time =>
      simp only [Option.map_some, readNullable, readInstant_instantText, bind_eq_ok,
        pure_eq_ok] at reading
      obtain ⟨one, same, read⟩ := reading
      cases same
      exact read.symm

variable {wire}

theorem readSource_ok {post : SourcePost} {spec : SourceSpec}
    (reading : readSource wire post = .ok spec) :
    spec.OneFile ∧ readTitle post.title = .ok spec.title ∧
      readNullable (readInstant wire) post.capturedAt = .ok spec.capturedAt ∧
      post.links.mapM (readLink wire) = .ok spec.links ∧
      (spec.id = post.id ∧ spec.level = post.level ∧ spec.kind = post.kind ∧
        spec.isGraphic = post.isGraphic ∧ spec.tagIds = post.tagIds ∧
        spec.uploadId = post.uploadId ∧ spec.mediaId = post.mediaId) ∧
      spec.capturePosition = if hasCapturePosition post.kind then post.capturePosition else none := by
  unfold readSource at reading
  simp only [bind_eq_ok, require_eq_ok, pure_eq_ok] at reading
  obtain ⟨title, readingTitle, capturedAt, readingTime, _, _, links, readingLinks, _, _, _, oneFile,
    rfl⟩ := reading
  exact ⟨oneFile, readingTitle, readingTime, readingLinks, ⟨rfl, rfl, rfl, rfl, rfl, rfl, rfl⟩, rfl⟩

end Reading

/-! ### Stored rows, and what the server keeps of a post -/

/-- An archived copy as `_clean_links` keeps it. -/
structure CopyFiled (unicode : Unicode) (copy : Str) : Prop where
  scalar : Scalar copy
  stripped : strip copy = copy
  valid : ∃ provider, validateSnapshot unicode copy = .ok provider

/-- What the tables hold of an event's sources: their keys, each URL of a source once, copies that
were checked and stamped, and titles as a request or an import leaves them. -/
structure RowsFiled (config : Config) (tx : Events.Transaction) (stored : List Source) : Prop where
  keyed : RowsKeyed tx stored
  title : ∀ source ∈ stored, Scalar source.title ∧ stripBy isWhitespace source.title = source.title
  url : ∀ source ∈ stored, ∀ link ∈ source.links, Scalar link.url
  urls : ∀ source ∈ stored, (source.links.map SourceLink.url).Nodup
  copy : ∀ source ∈ stored, ∀ link ∈ source.links, ∀ copy, link.snapshotUrl = some copy →
    CopyFiled config.unicode copy ∧ link.archivedAt.isSome = true
  tags : ∀ source ∈ stored, (source.tags.map Tag.id).Nodup ∧
    ∀ tag ∈ source.tags, tx.tags.find? (fun other => other.id = tag.id) = some tag

/-- A link of a plan, before the write stamps its copy. -/
def unstamped (link : LinkSpec) : SourceLink :=
  ⟨link.url, link.postedAt, link.snapshotUrl, none⟩

/-- The stored links are the kept ones, in some order, each copy up to `same_snapshot`. -/
def SameLinks (unicode : Unicode) (links : List SourceLink) (kept : List LinkSpec) : Prop :=
  AlikeUpToOrder (SameLink unicode) links (kept.map unstamped)

theorem exists_of_forall₂ {α β : Type*} {Alike : α → β → Prop} {left : List α} {right : List β}
    (alike : List.Forall₂ Alike left right) {one : α} (member : one ∈ left) :
    ∃ other ∈ right, Alike one other := by
  induction alike with
  | nil => cases member
  | cons here _ inductionHypothesis =>
      obtain rfl | later := List.mem_cons.mp member
      · exact ⟨_, List.mem_cons_self, here⟩
      · obtain ⟨other, inRest, found⟩ := inductionHypothesis later
        exact ⟨other, List.mem_cons_of_mem _ inRest, found⟩

theorem validateSnapshot_provider {unicode : Unicode} {copy : Str} {provider : ArchiveProvider}
    (valid : validateSnapshot unicode copy = .ok provider) :
    copy ≠ [] ∧ (providerOf unicode copy).isSome = true := by
  constructor
  · intro blank
    subst blank
    cases valid
  · unfold validateSnapshot at valid
    unfold providerOf
    split at valid
    · cases valid
    · split at valid
      · cases valid
      · cases parsing : urlparse unicode copy with
        | error reason =>
            rw [parsing] at valid
            cases valid
        | ok parsed =>
            simp only [parsing] at valid ⊢
            split at valid
            · cases valid
            · cases listed : providerHosts.lookup (unicode.lower (parsed.hostname unicode)) with
              | none =>
                  simp only [listed] at valid
                  cases valid
              | some known => rfl

/-- A stored copy is read back. -/
theorem archived_filed (wire : Wire) {unicode : Unicode} {link : SourceLink}
    (filed : ∀ copy, link.snapshotUrl = some copy →
      CopyFiled unicode copy ∧ link.archivedAt.isSome = true) :
    (linkRead wire unicode link).archived = link.snapshotUrl.map spelled := by
  unfold linkRead
  cases held : link.snapshotUrl with
  | none => rfl
  | some copy =>
      obtain ⟨kept, stamped⟩ := filed copy held
      obtain ⟨provider, valid⟩ := kept.valid
      obtain ⟨shown, provided⟩ := validateSnapshot_provider valid
      simp [shown, provided, stamped]

theorem sortLinks_kept_iff {unicode : Unicode} {links : List SourceLink} {kept : List LinkSpec}
    (reads : ∀ link ∈ links, ∀ copy, link.snapshotUrl = some copy →
      normalisedTarget unicode copy ≠ none)
    (clean : LinksClean unicode kept) :
    sortLinks (links.map fun link =>
        comparableLink unicode true link.url link.postedAt link.snapshotUrl) =
      sortLinks (kept.map fun link =>
        comparableLink unicode true link.url link.postedAt link.snapshotUrl) ↔
      SameLinks unicode links kept := by
  have rows : (kept.map fun link =>
        comparableLink unicode true link.url link.postedAt link.snapshotUrl) =
      (kept.map unstamped).map fun link =>
        comparableLink unicode true link.url link.postedAt link.snapshotUrl := by
    rw [List.map_map]
    rfl
  have distinct : ((kept.map unstamped).map SourceLink.url).Nodup := by
    rw [List.map_map]
    exact clean.distinct
  rw [rows, sortLinks_eq_iff (by rw [List.map_map]; exact distinct), perm_map_iff]
  apply AlikeUpToOrder.congr
  intro one inLinks other inKept
  obtain ⟨link, listed, rfl⟩ := List.mem_map.mp inKept
  exact comparableLink_eq_iff (reads one inLinks) (clean.readable link listed)

/-- The plan of one posted source: its links cleaned, its tags looked up. -/
structure PlanReads (config : Config) (tx : Events.Transaction) (plan : PlannedSource) : Prop where
  links : cleanLinks config.unicode plan.spec.links = .ok plan.links
  tags : plan.tags = plan.spec.tagIds.eraseDups.filterMap fun id =>
    tx.tags.find? fun tag => tag.id = id

theorem planSources_reads {config : Config} {tx : Events.Transaction} {base : Option Event}
    {specs : List SourceSpec} {user : User} {planned : List PlannedSource}
    (planning : planSources config tx base specs user = .ok planned) :
    ∀ plan ∈ planned, PlanReads config tx plan := by
  unfold planSources at planning
  simp only [bind_eq_ok, require_eq_ok] at planning
  obtain ⟨_, _, _, _, staged, _, files, _, plans⟩ := planning
  intro plan member
  obtain ⟨spec, _, planningOne⟩ := exists_of_mapM_eq_ok plans member
  unfold planSource at planningOne
  simp only [bind_eq_ok, pure_eq_ok] at planningOne
  obtain ⟨_, cleaning, _, _, rfl⟩ := planningOne
  exact ⟨cleaning, rfl⟩

theorem eraseDups_of_nodup {ids : List Uuid} (distinct : ids.Nodup) : ids.eraseDups = ids := by
  induction ids with
  | nil => rfl
  | cons id rest inductionHypothesis =>
      rw [List.nodup_cons] at distinct
      have others : (rest.filter fun other => !other == id) = rest := by
        rw [List.filter_eq_self]
        intro other inRest
        have different : other ≠ id := fun same => distinct.1 (same ▸ inRest)
        simp [different]
      rw [List.eraseDups_cons, others, inductionHypothesis distinct.2]

section Folding

variable {config : Config} {tx : Events.Transaction} {user : User} {wire : Wire} {stored : List Source}
  {source : Source} {draft : SourceDraft} {plan : PlannedSource}

/-- An editor that agrees with its source keeps the file of the source. -/
theorem kept_file (rows : RowsFiled config tx stored) (member : source ∈ stored)
    (facts : PlanFacts tx user stored plan) (id : plan.spec.id = some source.id)
    (mediaId : plan.spec.mediaId = source.media.map Media.id) (upload : plan.spec.uploadId = none) :
    plan.stored = some source ∧ plan.copyOf = none ∧
      (comparablePlanned config true plan).file =
        source.media.map fun media => .stored media.storageUrl := by
  obtain ⟨other, listed, sameId, updates⟩ := facts.updated source.id id
  have same : other = source := rows.keyed.sources other listed source member sameId
  subst same
  refine ⟨updates, ?_⟩
  unfold comparablePlanned
  cases facts.file with
  | none _ noFile noUpload keepsMedia copyOf =>
      rw [noFile] at mediaId
      have bare : other.media = none := Option.map_eq_none_iff.mp mediaId.symm
      rw [copyOf, noUpload, keepsMedia, bare]
      exact ⟨rfl, rfl⟩
  | uploaded _ _ _ named _ _ _ _ =>
      rw [upload] at named
      cases named
  | kept holder _ file holds _ _ updated noUpload keepsMedia copyOf =>
      rw [updates, Option.some.injEq] at updated
      subst updated
      simp only [copyOf, noUpload, keepsMedia, updates, Option.bind_some, holds, Option.map_some,
        and_self]
  | copied holder inStored file holds named _ elsewhere _ _ _ =>
      rw [named] at mediaId
      obtain ⟨own, ownHolds, sameFile⟩ := Option.map_eq_some_iff.mp mediaId.symm
      have here := rows.keyed.files holder inStored other listed file own holds ownHolds sameFile.symm
      exact absurd (here ▸ id) elsewhere

theorem kept_tags (rows : RowsFiled config tx stored) (member : source ∈ stored)
    (reads : PlanReads config tx plan) (same : (source.tags.map Tag.id).Perm plan.spec.tagIds) :
    (source.tags.map Tag.id).Perm (plan.tags.map Tag.id) := by
  obtain ⟨distinct, found⟩ := rows.tags source member
  have looked : (source.tags.map Tag.id).filterMap (fun id => tx.tags.find? fun tag => tag.id = id) =
      source.tags := by
    rw [List.filterMap_map]
    calc
      _ = source.tags.filterMap some := by
          apply List.filterMap_congr
          intro tag inTags
          exact found tag inTags
      _ = source.tags := List.filterMap_some
  rw [reads.tags, eraseDups_of_nodup (same.nodup_iff.mp distinct)]
  have lookedUp := same.filterMap fun id => tx.tags.find? fun tag => tag.id = id
  rw [looked] at lookedUp
  exact lookedUp.map Tag.id

/-- A source posted by an editor that agrees with it folds as it is stored, links apart. -/
theorem fold_eq_iff (rows : RowsFiled config tx stored) (member : source ∈ stored)
    (agrees : FieldsAgree wire (buildSourceRead wire config.unicode source) draft)
    (reading : readSource wire (sourceCreatePayload wire draft) = .ok plan.spec)
    (facts : PlanFacts tx user stored plan) (reads : PlanReads config tx plan)
    (clean : LinksClean config.unicode plan.links) :
    comparableStored config true source = comparablePlanned config true plan ↔
      SameLinks config.unicode source.links plan.links := by
  obtain ⟨_, readingTitle, readingTime, _, ⟨id, level, kind, graphic, tagIds, uploadId, mediaId⟩,
    position⟩ := readSource_ok reading
  have title : source.title = plan.spec.title := by
    have read := readTitle_ok readingTitle
    obtain ⟨scalar, stripped⟩ := rows.title source member
    show source.title = plan.spec.title
    rw [read]
    show source.title = stripBy isWhitespace (codePoints (trim draft.title))
    rw [agrees.title]
    show source.title = stripBy isWhitespace (codePoints (spelled source.title))
    rw [codePoints_spelled scalar, stripped]
  have capturedAt : plan.spec.capturedAt = source.capturedAt := by
    have same : (sourceCreatePayload wire draft).capturedAt =
        source.capturedAt.map wire.instantText := agrees.capturedAt
    rw [same] at readingTime
    exact readNullable_stored wire readingTime
  have posted := agrees.capturePosition
  have capturePosition : plan.spec.capturePosition = source.capturePosition := by
    rw [position, posted]
    show (if hasCapturePosition (draft.kind.getD .unknown) then source.capturePosition else none) = _
    split
    · rfl
    · rename_i document
      rw [← show _ = source.capturePosition from posted]
      show none = if hasCapturePosition (draft.kind.getD .unknown) then _ else none
      rw [if_neg document]
  obtain ⟨media, upload⟩ := (file_iff.mpr agrees.file).1
  obtain ⟨updates, copyOf, file⟩ := kept_file rows member facts (id.trans agrees.id)
    (mediaId.trans media) (uploadId.trans upload)
  have tags := kept_tags rows member reads (tagIds ▸ agrees.tags)
  have isGraphic : plan.isGraphic = source.isGraphic := by
    have raised : plan.spec.isGraphic = true → source.isGraphic = true := by
      rw [graphic]
      exact agrees.isGraphic
    unfold PlannedSource.isGraphic
    rw [updates, copyOf, Option.any_some, Option.any_none, Bool.or_false]
    cases flag : plan.spec.isGraphic
    · rfl
    · rw [raised flag]
      rfl
  have readable : ∀ link ∈ source.links, ∀ copy, link.snapshotUrl = some copy →
      normalisedTarget config.unicode copy ≠ none := by
    intro link inLinks copy held
    obtain ⟨provider, valid⟩ := (rows.copy source member link inLinks copy held).1.valid
    exact validateSnapshot_target valid
  rw [← sortLinks_kept_iff readable clean]
  constructor
  · intro same
    exact congrArg ComparableSource.links same
  · intro links
    have sortedTags : sortedBy textLe (source.tags.map fun tag => config.uuids.text tag.id) =
        sortedBy textLe (plan.tags.map fun tag => config.uuids.text tag.id) := by
      have sorted := (sortedIds_eq_iff config.uuids).mpr tags
      rw [List.map_map, List.map_map] at sorted
      exact sorted
    unfold comparableStored comparablePlanned
    rw [ComparableSource.mk.injEq]
    exact ⟨title, (level.trans agrees.level).symm, (kind.trans agrees.kind).symm, capturedAt.symm,
      capturePosition.symm, isGraphic.symm, links, sortedTags, file.symm⟩

/-- The same, of a whole list. -/
theorem folds_eq_iff (rows : RowsFiled config tx stored) {sources : List Source}
    (listed : ∀ source ∈ sources, source ∈ stored) {drafts : List SourceDraft}
    (agrees : List.Forall₂ (FieldsAgree wire)
      (sources.map (buildSourceRead wire config.unicode)) drafts)
    {planned : List PlannedSource}
    (reading : List.Forall₂ (fun draft plan =>
      readSource wire (sourceCreatePayload wire draft) = .ok plan.spec) drafts planned)
    (facts : ∀ plan ∈ planned, PlanFacts tx user stored plan ∧ PlanReads config tx plan ∧
      LinksClean config.unicode plan.links) :
    sources.map (comparableStored config true) = planned.map (comparablePlanned config true) ↔
      List.Forall₂ (fun source plan => SameLinks config.unicode source.links plan.links)
        sources planned := by
  induction sources generalizing drafts planned with
  | nil =>
      cases agrees
      cases reading
      simp
  | cons source sources inductionHypothesis =>
      rw [List.map_cons] at agrees
      cases agrees with
      | cons agree agrees =>
          cases reading with
          | cons read reading =>
              obtain ⟨planFacts, reads, clean⟩ := facts _ List.mem_cons_self
              rw [List.map_cons, List.map_cons, List.cons.injEq, List.forall₂_cons,
                fold_eq_iff rows (listed source List.mem_cons_self) agree read planFacts reads clean,
                inductionHypothesis
                  (fun other inSources => listed other (List.mem_cons_of_mem _ inSources)) agrees
                  reading fun plan inPlanned => facts plan (List.mem_cons_of_mem _ inPlanned)]

theorem planPosted_some {geo : Event} {drafts : List SourceDraft} {planned : List PlannedSource}
    (rows : RowsFiled config tx geo.sources)
    (planning : planPosted wire config tx geo user drafts = some planned) :
    List.Forall₂ (fun draft plan =>
        readSource wire (sourceCreatePayload wire draft) = .ok plan.spec) drafts planned ∧
      ∀ plan ∈ planned, PlanFacts tx user geo.sources plan ∧ PlanReads config tx plan ∧
        LinksClean config.unicode plan.links := by
  unfold planPosted at planning
  split at planning
  · cases planning
  · rename_i specs parsing
    have plans : planSources config tx (some geo) specs user = .ok planned := by
      cases outcome : planSources config tx (some geo) specs user with
      | error refused =>
          rw [outcome] at planning
          cases planning
      | ok accepted =>
          rw [outcome] at planning
          cases planning
          rfl
    have oneFile : ∀ spec ∈ specs, spec.OneFile := by
      intro spec member
      obtain ⟨post, _, reading⟩ := exists_of_mapM_eq_ok parsing member
      exact (readSource_ok reading).1
    obtain ⟨same, _, facts⟩ := planSources_facts plans rows.keyed oneFile
    constructor
    · have parsed := mapM_eq_ok.mp parsing
      rw [← same, List.forall₂_map_left_iff, List.forall₂_map_right_iff] at parsed
      exact parsed
    · intro plan member
      exact ⟨facts plan member, planSources_reads plans plan member,
        planSources_clean plans plan member⟩

end Folding

/-! ### The links of untouched editors -/

theorem dropWhile_dropWhile (isStripped : Nat → Bool) (text : Str) :
    (text.dropWhile isStripped).dropWhile isStripped = text.dropWhile isStripped := by
  rw [List.dropWhile_eq_self_iff]
  intro nonempty
  have first := List.head?_dropWhile_not isStripped text
  rw [List.head?_eq_getElem?, List.getElem?_eq_getElem nonempty] at first
  simpa using first

theorem stripBy_stripBy (isStripped : Nat → Bool) (text : Str) :
    stripBy isStripped (stripBy isStripped text) = stripBy isStripped text := by
  unfold stripBy lstripBy rstripBy
  generalize starts : text.dropWhile isStripped = rest
  -- what is left starts as the text whose start was stripped
  have plain : (rest.reverse.dropWhile isStripped).reverse.dropWhile isStripped =
      (rest.reverse.dropWhile isStripped).reverse := by
    obtain ⟨ending, whole⟩ : (rest.reverse.dropWhile isStripped).reverse <+: rest := by
      rw [← List.reverse_suffix, List.reverse_reverse]
      exact List.dropWhile_suffix _
    rw [List.dropWhile_eq_self_iff]
    intro nonempty
    have first := List.head?_dropWhile_not isStripped text
    rw [starts, ← whole, List.head?_append_of_ne_nil _ (List.ne_nil_of_length_pos nonempty),
      List.head?_eq_getElem?, List.getElem?_eq_getElem nonempty] at first
    simpa using first
  rw [plain, List.reverse_reverse, dropWhile_dropWhile]

section Links

variable {unicode : Unicode}

theorem cleanEach_stripped {links kept : List LinkSpec} {seen : List Str}
    (cleaning : cleanEach unicode links seen = .ok kept) :
    ∀ link ∈ kept, strip link.url = link.url := by
  induction links generalizing kept seen with
  | nil =>
      rw [cleanEach, pure_eq_ok] at cleaning
      subst cleaning
      simp
  | cons link rest inductionHypothesis =>
      have step : ∀ (copy : Option Str) (later : List LinkSpec),
          cleanEach unicode rest (strip link.url :: seen) = .ok later →
          ∀ other ∈ (⟨strip link.url, link.postedAt, copy⟩ :: later : List LinkSpec),
            strip other.url = other.url := by
        intro copy later cleaningLater other member
        obtain rfl | inLater := List.mem_cons.mp member
        · exact stripBy_stripBy _ _
        · exact inductionHypothesis cleaningLater other inLater
      rw [cleanEach] at cleaning
      split at cleaning
      · exact inductionHypothesis cleaning
      · simp only [bind_eq_ok] at cleaning
        obtain ⟨_, _, cleaning⟩ := cleaning
        split at cleaning
        · simp only [bind_eq_ok, pure_eq_ok] at cleaning
          obtain ⟨later, cleaningLater, rfl⟩ := cleaning
          exact step none later cleaningLater
        · simp only [bind_eq_ok, pure_eq_ok] at cleaning
          obtain ⟨_, _, later, cleaningLater, rfl⟩ := cleaning
          exact step _ later cleaningLater

/-- A link that `_clean_links` keeps as it is posted. -/
structure LinkStands (link : LinkSpec) : Prop where
  stripped : strip link.url = link.url
  shown : link.url ≠ []
  copy : ∀ copy, link.snapshotUrl = some copy → strip copy = copy ∧ copy ≠ []

theorem cleanEach_stands {links kept : List LinkSpec} {seen : List Str}
    (stands : ∀ link ∈ links, LinkStands link) (distinct : (links.map LinkSpec.url).Nodup)
    (unseen : ∀ link ∈ links, link.url ∉ seen)
    (cleaning : cleanEach unicode links seen = .ok kept) : kept = links := by
  induction links generalizing kept seen with
  | nil =>
      rw [cleanEach, pure_eq_ok] at cleaning
      exact cleaning.symm
  | cons link rest inductionHypothesis =>
      have here := stands link List.mem_cons_self
      have new := unseen link List.mem_cons_self
      rw [List.map_cons, List.nodup_cons] at distinct
      have apart : ∀ other ∈ rest, other.url ∉ link.url :: seen := by
        intro other inRest again
        obtain same | old := List.mem_cons.mp again
        · exact distinct.1 (same ▸ List.mem_map_of_mem inRest)
        · exact unseen other (List.mem_cons_of_mem _ inRest) old
      have others : ∀ later, cleanEach unicode rest (link.url :: seen) = .ok later → later = rest :=
        fun later => inductionHypothesis
          (fun other inRest => stands other (List.mem_cons_of_mem _ inRest)) distinct.2 apart
      rw [cleanEach, here.stripped, if_neg (by simp [here.shown, new])] at cleaning
      simp only [bind_eq_ok] at cleaning
      obtain ⟨_, _, cleaning⟩ := cleaning
      cases held : link.snapshotUrl with
      | none =>
          rw [held, if_pos (show strip (none.getD []) = [] from rfl)] at cleaning
          simp only [bind_eq_ok, pure_eq_ok] at cleaning
          obtain ⟨later, cleaningLater, rfl⟩ := cleaning
          rw [others later cleaningLater, ← held]
      | some copy =>
          obtain ⟨stripped, shown⟩ := here.copy copy held
          rw [held, Option.getD_some, stripped, if_neg shown] at cleaning
          simp only [bind_eq_ok, pure_eq_ok] at cleaning
          obtain ⟨_, _, later, cleaningLater, rfl⟩ := cleaning
          rw [others later cleaningLater, ← held]

end Links

section Seeds

variable {config : Config} {tx : Events.Transaction} {user : User} {wire : Wire} {stored : List Source}
  {source : Source}

/-- A stored link, posted as it was read. -/
def storedPost (wire : Wire) (link : SourceLink) : LinkPost :=
  ⟨spelled link.url, link.postedAt.map wire.instantText, link.snapshotUrl.map spelled⟩

theorem readLink_storedPost {link : SourceLink} {spec : LinkSpec} (url : Scalar link.url)
    (copy : ∀ copy, link.snapshotUrl = some copy → Scalar copy)
    (reading : readLink wire (storedPost wire link) = .ok spec) : spec = link.posted := by
  unfold readLink at reading
  simp only [bind_eq_ok, pure_eq_ok] at reading
  obtain ⟨readUrl, readingUrl, time, readingTime, snapshot, readingCopy, rfl⟩ := reading
  have sameUrl := readUrl_ok readingUrl
  have sameTime := readNullable_stored wire readingTime
  have sameCopy : snapshot = link.snapshotUrl := by
    obtain ⟨blank, none⟩ | ⟨text, one, shown, readingOne, some⟩ := readNullable_ok readingCopy
    · rw [none]
      exact (Option.map_eq_none_iff.mp blank).symm
    · obtain ⟨held, holds, rfl⟩ := Option.map_eq_some_iff.mp shown
      rw [some, holds, readUrl_ok readingOne, codePoints_spelled (copy held holds)]
  show (⟨readUrl, time, snapshot⟩ : LinkSpec) = ⟨link.url, link.postedAt, link.snapshotUrl⟩
  rw [sameUrl, sameTime, sameCopy]
  show (⟨codePoints (spelled link.url), _, _⟩ : LinkSpec) = _
  rw [codePoints_spelled url]

theorem readLinks_storedPosts {links : List SourceLink} {specs : List LinkSpec}
    (url : ∀ link ∈ links, Scalar link.url)
    (copy : ∀ link ∈ links, ∀ copy, link.snapshotUrl = some copy → Scalar copy)
    (reading : (links.map (storedPost wire)).mapM (readLink wire) = .ok specs) :
    specs = links.map SourceLink.posted := by
  induction links generalizing specs with
  | nil =>
      rw [List.map_nil, List.mapM_nil, pure_eq_ok] at reading
      exact reading.symm
  | cons link rest inductionHypothesis =>
      simp only [List.map_cons, List.mapM_cons, bind_eq_ok, pure_eq_ok] at reading
      obtain ⟨spec, readingOne, later, readingLater, rfl⟩ := reading
      rw [List.map_cons, readLink_storedPost (url link List.mem_cons_self)
          (copy link List.mem_cons_self) readingOne,
        inductionHypothesis (fun other inRest => url other (List.mem_cons_of_mem _ inRest))
          (fun other inRest => copy other (List.mem_cons_of_mem _ inRest)) readingLater]

theorem spelled_ne_nil {text : Str} (scalar : Scalar text) (shown : text ≠ []) :
    spelled text ≠ [] := by
  intro blank
  have spells := codePoints_spelled scalar
  rw [blank] at spells
  exact shown spells.symm

/-- The URLs of a source stay apart in a response. -/
theorem read_urls (wire : Wire) (rows : RowsFiled config tx stored) (member : source ∈ stored) :
    ((buildSourceRead wire config.unicode source).links.map SourceLinkRead.url).Nodup := by
  have urls : (buildSourceRead wire config.unicode source).links.map SourceLinkRead.url =
      (source.links.map SourceLink.url).map spelled := by
    show (source.links.map (linkRead wire config.unicode)).map SourceLinkRead.url = _
    rw [List.map_map, List.map_map]
    rfl
  rw [urls]
  apply (rows.urls source member).map_on
  intro first inFirst second inSecond same
  obtain ⟨one, inLinks, rfl⟩ := List.mem_map.mp inFirst
  obtain ⟨other, inOthers, rfl⟩ := List.mem_map.mp inSecond
  rw [← codePoints_spelled (rows.url source member one inLinks), same,
    codePoints_spelled (rows.url source member other inOthers)]

/-- The links an untouched editor posts, as the backend reads them. -/
theorem seed_specs (rows : RowsFiled config tx stored) (member : source ∈ stored)
    (kept : EditorKeeps (buildSourceRead wire config.unicode source)) {specs : List LinkSpec}
    (reading : (sourceCreatePayload wire
      (sourceDraftFrom wire (buildSourceRead wire config.unicode source))).links.mapM
        (readLink wire) = .ok specs) :
    specs = source.links.map SourceLink.posted := by
  have posts : (sourceCreatePayload wire
      (sourceDraftFrom wire (buildSourceRead wire config.unicode source))).links =
        source.links.map (storedPost wire) := by
    show linkPosts wire (sourceDraftFrom wire (buildSourceRead wire config.unicode source)).links []
      = _
    rw [seed_links, linkPosts_kept wire kept.links (read_urls wire rows member) (by simp)]
    show (source.links.map (linkRead wire config.unicode)).map _ = _
    rw [List.map_map]
    apply List.map_congr_left
    intro link inLinks
    have filed := rows.copy source member link inLinks
    have copy : orNull ((linkRead wire config.unicode link).archived.getD []) =
        link.snapshotUrl.map spelled := by
      rw [archived_filed wire filed]
      cases held : link.snapshotUrl with
      | none => rfl
      | some copy =>
          obtain ⟨provider, valid⟩ := (filed copy held).1.valid
          have shown := spelled_ne_nil (filed copy held).1.scalar (validateSnapshot_provider valid).1
          unfold orNull
          rw [Option.map_some, Option.getD_some, if_neg shown]
    show (⟨_, _, orNull ((linkRead wire config.unicode link).archived.getD [])⟩ : LinkPost) = _
    rw [copy]
    rfl
  rw [posts] at reading
  exact readLinks_storedPosts (rows.url source member)
    (fun link inLinks copy held => (rows.copy source member link inLinks copy held).1.scalar) reading

theorem sameLink_posted {unicode : Unicode} (link : SourceLink) :
    SameLink unicode link (unstamped link.posted) where
  url := rfl
  postedAt := rfl
  copy := by
    show SameCopy unicode link.snapshotUrl link.snapshotUrl
    cases link.snapshotUrl with
    | none => trivial
    | some copy => simp [SameCopy, sameSnapshot]

/-- The backend keeps the links of an untouched editor when `strip` keeps their URLs. -/
theorem sameLinks_seed_iff (rows : RowsFiled config tx stored) (member : source ∈ stored)
    (kept : EditorKeeps (buildSourceRead wire config.unicode source)) {links : List LinkSpec}
    (cleaning : cleanLinks config.unicode (source.links.map SourceLink.posted) = .ok links) :
    SameLinks config.unicode source.links links ↔
      ∀ link ∈ source.links, strip link.url = link.url := by
  unfold cleanLinks at cleaning
  simp only [bind_eq_ok, pure_eq_ok] at cleaning
  obtain ⟨_, cleaningEach, _, _, _, _, rfl⟩ := cleaning
  constructor
  · intro same link inLinks
    obtain ⟨arranged, perm, alike⟩ := same
    obtain ⟨other, inKept, sameLink⟩ := exists_of_forall₂ alike (perm.symm.subset inLinks)
    obtain ⟨spec, listed, rfl⟩ := List.mem_map.mp inKept
    have stripped := cleanEach_stripped cleaningEach spec listed
    rw [sameLink.url]
    exact stripped
  · intro stripped
    have whole : _ = source.links.map SourceLink.posted := cleanEach_stands (by
      intro spec listed
      obtain ⟨link, inLinks, rfl⟩ := List.mem_map.mp listed
      constructor
      · exact stripped link inLinks
      · intro blank
        have shown := (kept.links (linkRead wire config.unicode link)
          (List.mem_map_of_mem inLinks)).shown
        apply shown
        show spelled link.url = []
        rw [show link.url = [] from blank]
        rfl
      · intro copy held
        obtain ⟨filed, _⟩ := rows.copy source member link inLinks copy held
        obtain ⟨provider, valid⟩ := filed.valid
        exact ⟨filed.stripped, (validateSnapshot_provider valid).1⟩) (by
      rw [List.map_map]
      exact rows.urls source member) (by simp) cleaningEach
    rw [whole]
    refine ⟨source.links, List.Perm.refl _, ?_⟩
    rw [List.map_map, List.forall₂_map_right_iff]
    exact List.forall₂_same.mpr fun link _ => sameLink_posted link

end Seeds

/-! ### The form -/

section Form

variable (wire : Wire) (config : Config) (tx : Events.Transaction) (geo : Event) (user : User)
  (drafts : List SourceDraft)

/-- The source list as the form loads it. -/
def storedReads : List SourceRead :=
  geo.sources.map (buildSourceRead wire config.unicode)

/-- The editors as the form seeds them. -/
def seeds : List SourceDraft :=
  (storedReads wire config geo).map (sourceDraftFrom wire)

/-- The form files no edit nobody made, and hides none somebody did. -/
structure FormFaithful : Prop where
  untouched : sourcesChanged wire config.uuids (storedReads wire config geo)
    (seeds wire config geo) = false
  refiled : ∀ planned, planPosted wire config tx geo user (seeds wire config geo) = some planned →
    ∀ archives, planned.map (comparablePlanned config archives) =
      geo.sources.map (comparableStored config archives)
  shown : (∀ draft ∈ drafts, fileRunning draft.file = false ∧ draft.file ≠ some .failed) →
    ∀ planned, planPosted wire config tx geo user drafts = some planned →
      ∀ archives, planned.map (comparablePlanned config archives) ≠
          geo.sources.map (comparableStored config archives) →
        sourcesChanged wire config.uuids (storedReads wire config geo) drafts = true

/-- The texts and positions an editor keeps, the URLs the backend keeps, and links that print as the
stored ones only where they are the stored ones. -/
structure FormKeeps : Prop where
  kept : ∀ source ∈ geo.sources, EditorKeeps (buildSourceRead wire config.unicode source)
  stripped : planPosted wire config tx geo user (seeds wire config geo) ≠ none →
    ∀ source ∈ geo.sources, ∀ link ∈ source.links, strip link.url = link.url
  told : ∀ planned, planPosted wire config tx geo user drafts = some planned →
    List.Forall₂ (FieldsAgree wire) (storedReads wire config geo) drafts →
    List.Forall₂ (PrintAlike wire) (storedReads wire config geo) drafts →
      List.Forall₂ (fun source plan => SameLinks config.unicode source.links plan.links)
        geo.sources planned

end Form

/-! ### Links of one reading -/

/-- A link that its line tells: no blank and no line break where the line has one. -/
structure LineTells (url : Text) (postedAt copy : Option Text) : Prop where
  url : unit ' ' ∉ url ∧ unit '\n' ∉ url
  postedAt : ∀ text, postedAt = some text →
    unit ' ' ∉ text ∧ unit '\n' ∉ text ∧ text ≠ units (str "null")
  copy : ∀ text, copy = some text → unit '\n' ∉ text ∧ text ≠ []

theorem append_cons_injective {α : Type*} {separator : α} {left right leftRest rightRest : List α}
    (leftPlain : separator ∉ left) (rightPlain : separator ∉ right)
    (same : left ++ separator :: leftRest = right ++ separator :: rightRest) :
    left = right ∧ leftRest = rightRest := by
  induction left generalizing right with
  | nil =>
      cases right with
      | nil => exact ⟨rfl, (List.cons.inj same).2⟩
      | cons head tail =>
          rw [List.nil_append, List.cons_append, List.cons.injEq] at same
          exact absurd (same.1 ▸ List.mem_cons_self) rightPlain
  | cons head tail inductionHypothesis =>
      cases right with
      | nil =>
          rw [List.nil_append, List.cons_append, List.cons.injEq] at same
          exact absurd (same.1 ▸ List.mem_cons_self) leftPlain
      | cons other others =>
          rw [List.cons_append, List.cons_append, List.cons.injEq] at same
          obtain ⟨tails, rests⟩ := inductionHypothesis
            (fun member => leftPlain (List.mem_cons_of_mem _ member))
            (fun member => rightPlain (List.mem_cons_of_mem _ member)) same.2
          exact ⟨by rw [same.1, tails], rests⟩

/-- Two links that their lines tell are the same when the lines are. -/
theorem linkLine_injective {url otherUrl : Text} {postedAt otherPostedAt copy otherCopy : Option Text}
    (tells : LineTells url postedAt copy) (otherTells : LineTells otherUrl otherPostedAt otherCopy)
    (same : linkLine url postedAt copy = linkLine otherUrl otherPostedAt otherCopy) :
    url = otherUrl ∧ postedAt = otherPostedAt ∧ copy = otherCopy := by
  have plain : ∀ {url : Text} {postedAt copy : Option Text}, LineTells url postedAt copy →
      unit ' ' ∉ postedAt.getD (units (str "null")) := by
    intro url postedAt copy tells
    cases shown : postedAt with
    | none => decide
    | some text => exact (tells.postedAt text shown).1
  unfold linkLine at same
  obtain ⟨urls, rest⟩ := append_cons_injective tells.url.1 otherTells.url.1 same
  obtain ⟨times, copies⟩ := append_cons_injective (plain tells) (plain otherTells) rest
  refine ⟨urls, ?_, ?_⟩
  · cases first : postedAt with
    | none =>
        cases second : otherPostedAt with
        | none => rfl
        | some text =>
            rw [first, second] at times
            exact absurd times.symm (otherTells.postedAt text second).2.2
    | some text =>
        cases second : otherPostedAt with
        | none =>
            rw [first, second] at times
            exact absurd times (tells.postedAt text first).2.2
        | some other =>
            rw [first, second] at times
            exact congrArg some times
  · cases first : copy with
    | none =>
        cases second : otherCopy with
        | none => rfl
        | some text =>
            rw [first, second] at copies
            exact absurd copies.symm (otherTells.copy text second).2
    | some text =>
        cases second : otherCopy with
        | none =>
            rw [first, second] at copies
            exact absurd copies (tells.copy text first).2
        | some other =>
            rw [first, second] at copies
            exact congrArg some copies

theorem linkLine_plain {url : Text} {postedAt copy : Option Text}
    (tells : LineTells url postedAt copy) :
    linkLine url postedAt copy ≠ [] ∧ unit '\n' ∉ linkLine url postedAt copy := by
  have blank : unit '\n' ≠ unit ' ' := by decide
  have date : unit '\n' ∉ postedAt.getD (units (str "null")) := by
    cases shown : postedAt with
    | none => decide
    | some text => exact (tells.postedAt text shown).2.1
  have snapshot : unit '\n' ∉ copy.getD [] := by
    cases shown : copy with
    | none => simp
    | some text => exact (tells.copy text shown).1
  unfold linkLine
  constructor
  · simp
  · simp [tells.url.2, blank, date, snapshot]

section Telling

variable {wire : Wire} {config : Config} {tx : Events.Transaction} {stored : List Source}
  {source : Source} {draft : SourceDraft} {plan : PlannedSource}

theorem storedLine_filed (rows : RowsFiled config tx stored) (member : source ∈ stored) :
    (buildSourceRead wire config.unicode source).links.map storedLine =
      (source.links.map (storedPost wire)).map postedLine := by
  show (source.links.map (linkRead wire config.unicode)).map storedLine = _
  rw [List.map_map, List.map_map]
  apply List.map_congr_left
  intro link inLinks
  have archived := archived_filed wire (rows.copy source member link inLinks)
  show linkLine _ _ (linkRead wire config.unicode link).archived = _
  rw [archived]
  rfl

/-- Links that their lines tell print as the stored ones only when they are the stored ones. -/
theorem posts_of_printAlike (rows : RowsFiled config tx stored) (member : source ∈ stored)
    (alike : PrintAlike wire (buildSourceRead wire config.unicode source) draft)
    (storedTell : ∀ post ∈ source.links.map (storedPost wire),
      LineTells post.url post.postedAt post.snapshotUrl)
    (postedTell : ∀ post ∈ linkPosts wire draft.links [],
      LineTells post.url post.postedAt post.snapshotUrl) :
    (source.links.map (storedPost wire)).Perm (linkPosts wire draft.links []) := by
  have lines : ((source.links.map (storedPost wire)).map postedLine).Perm
      ((linkPosts wire draft.links []).map postedLine) := by
    unfold PrintAlike at alike
    rw [storedLine_filed rows member] at alike
    apply perm_of_sortedJoin_eq _ _ alike
    · intro line inLines
      obtain ⟨post, inPosts, rfl⟩ := List.mem_map.mp inLines
      exact linkLine_plain (storedTell post inPosts)
    · intro line inLines
      obtain ⟨post, inPosts, rfl⟩ := List.mem_map.mp inLines
      exact linkLine_plain (postedTell post inPosts)
  rw [perm_map_iff] at lines
  have same : AlikeUpToOrder (fun one other => one = other) (source.links.map (storedPost wire))
      (linkPosts wire draft.links []) := by
    apply (AlikeUpToOrder.congr _).mp lines
    intro one inStored other inPosted
    constructor
    · intro same
      obtain ⟨url, postedAt, copy⟩ :=
        linkLine_injective (storedTell one inStored) (postedTell other inPosted) same
      cases one
      cases other
      simp_all
    · intro same
      rw [same]
  obtain ⟨arranged, perm, same⟩ := same
  rw [List.forall₂_eq_eq_eq] at same
  exact (same ▸ perm).symm

/-- The backend keeps such links as they are stored. -/
theorem sameLinks_of_printAlike (rows : RowsFiled config tx stored) (member : source ∈ stored)
    (stripped : ∀ link ∈ source.links, strip link.url = link.url ∧ link.url ≠ [])
    (alike : PrintAlike wire (buildSourceRead wire config.unicode source) draft)
    (storedTell : ∀ post ∈ source.links.map (storedPost wire),
      LineTells post.url post.postedAt post.snapshotUrl)
    (postedTell : ∀ post ∈ linkPosts wire draft.links [],
      LineTells post.url post.postedAt post.snapshotUrl)
    (reading : readSource wire (sourceCreatePayload wire draft) = .ok plan.spec)
    (reads : PlanReads config tx plan) :
    SameLinks config.unicode source.links plan.links := by
  have posts := posts_of_printAlike rows member alike storedTell postedTell
  have specs : (source.links.map SourceLink.posted).Perm plan.spec.links := by
    obtain ⟨_, _, _, readingLinks, _⟩ := readSource_ok reading
    obtain ⟨read, inOrder, perm⟩ := List.perm_comp_forall₂ posts (mapM_eq_ok.mp readingLinks)
    have same := readLinks_storedPosts (rows.url source member)
      (fun link inLinks copy held => (rows.copy source member link inLinks copy held).1.scalar)
      (mapM_eq_ok.mpr inOrder)
    rw [← same]
    exact perm
  have kept : plan.links = plan.spec.links := by
    have cleaning := reads.links
    unfold cleanLinks at cleaning
    simp only [bind_eq_ok, pure_eq_ok] at cleaning
    obtain ⟨_, cleaningEach, _, _, _, _, rfl⟩ := cleaning
    apply cleanEach_stands _ _ (by simp) cleaningEach
    · intro spec listed
      obtain ⟨link, inLinks, rfl⟩ := List.mem_map.mp (specs.symm.subset listed)
      obtain ⟨fixed, shown⟩ := stripped link inLinks
      constructor
      · exact fixed
      · exact shown
      · intro copy held
        obtain ⟨filed, _⟩ := rows.copy source member link inLinks copy held
        obtain ⟨provider, valid⟩ := filed.valid
        exact ⟨filed.stripped, (validateSnapshot_provider valid).1⟩
    · have urls := specs.map LinkSpec.url
      rw [List.map_map] at urls
      exact urls.nodup_iff.mp (rows.urls source member)
  have matched : AlikeUpToOrder (fun link spec => link.posted = spec) source.links
      plan.spec.links := by
    apply perm_map_iff.mp
    rw [List.map_id']
    exact specs
  obtain ⟨arranged, perm, same⟩ := matched
  refine ⟨arranged, perm, ?_⟩
  rw [kept, List.forall₂_map_right_iff]
  apply same.imp
  intro link spec posted
  rw [← posted]
  exact sameLink_posted link

/-- Drafts whose links their lines tell. -/
theorem told_of_lineTells (rows : RowsFiled config tx stored) {sources : List Source}
    (listed : ∀ source ∈ sources, source ∈ stored)
    (stripped : ∀ source ∈ sources, ∀ link ∈ source.links,
      strip link.url = link.url ∧ link.url ≠ [])
    (storedTell : ∀ source ∈ sources, ∀ post ∈ source.links.map (storedPost wire),
      LineTells post.url post.postedAt post.snapshotUrl)
    {drafts : List SourceDraft}
    (postedTell : ∀ draft ∈ drafts, ∀ post ∈ linkPosts wire draft.links [],
      LineTells post.url post.postedAt post.snapshotUrl)
    (alike : List.Forall₂ (PrintAlike wire)
      (sources.map (buildSourceRead wire config.unicode)) drafts)
    {planned : List PlannedSource}
    (reading : List.Forall₂ (fun draft plan =>
      readSource wire (sourceCreatePayload wire draft) = .ok plan.spec) drafts planned)
    (reads : ∀ plan ∈ planned, PlanReads config tx plan) :
    List.Forall₂ (fun source plan => SameLinks config.unicode source.links plan.links)
      sources planned := by
  induction sources generalizing drafts planned with
  | nil =>
      cases alike
      cases reading
      exact .nil
  | cons source sources inductionHypothesis =>
      rw [List.map_cons] at alike
      cases alike with
      | cons here alike =>
          cases reading with
          | cons read reading =>
              constructor
              · exact sameLinks_of_printAlike rows (listed source List.mem_cons_self)
                  (stripped source List.mem_cons_self) here
                  (storedTell source List.mem_cons_self) (postedTell _ List.mem_cons_self) read
                  (reads _ List.mem_cons_self)
              · exact inductionHypothesis
                  (fun other inSources => listed other (List.mem_cons_of_mem _ inSources))
                  (fun other inSources => stripped other (List.mem_cons_of_mem _ inSources))
                  (fun other inSources => storedTell other (List.mem_cons_of_mem _ inSources))
                  (fun other inDrafts => postedTell other (List.mem_cons_of_mem _ inDrafts)) alike
                  reading fun other inPlanned => reads other (List.mem_cons_of_mem _ inPlanned)

/-- With no blank and no line break in a URL, and no line break in a copy, the form keeps what
`trim` and `strip` keep. -/
theorem formKeeps_of_lineTells {geo : Event} {user : User} {drafts : List SourceDraft}
    (rows : RowsFiled config tx geo.sources)
    (kept : ∀ source ∈ geo.sources, EditorKeeps (buildSourceRead wire config.unicode source))
    (stripped : ∀ source ∈ geo.sources, ∀ link ∈ source.links, strip link.url = link.url)
    (storedTell : ∀ source ∈ geo.sources, ∀ post ∈ source.links.map (storedPost wire),
      LineTells post.url post.postedAt post.snapshotUrl)
    (postedTell : ∀ draft ∈ drafts, ∀ post ∈ linkPosts wire draft.links [],
      LineTells post.url post.postedAt post.snapshotUrl) :
    FormKeeps wire config tx geo user drafts where
  kept := kept
  stripped := fun _ => stripped
  told := by
    intro planned planning _ alike
    obtain ⟨reading, facts⟩ := planPosted_some rows planning
    apply told_of_lineTells rows (fun _ member => member) _ storedTell postedTell alike reading
      fun plan member => (facts plan member).2.1
    intro source member link inLinks
    refine ⟨stripped source member link inLinks, ?_⟩
    intro blank
    apply ((kept source member).links (linkRead wire config.unicode link)
      (List.mem_map_of_mem inLinks)).shown
    show spelled link.url = []
    rw [blank]
    rfl

end Telling

/-! ### When the form is faithful -/

section Faithful

variable {wire : Wire} {config : Config} {tx : Events.Transaction} {geo : Event} {user : User}
  {drafts : List SourceDraft}

theorem untouched_iff (rows : RowsFiled config tx geo.sources) :
    sourcesChanged wire config.uuids (storedReads wire config geo) (seeds wire config geo) = false ↔
      ∀ source ∈ geo.sources, EditorKeeps (buildSourceRead wire config.unicode source) := by
  have long : ∀ source ∈ geo.sources, ∀ link ∈ (buildSourceRead wire config.unicode source).links,
      ∀ text, link.postedAt = some text → 16 ≤ text.length := by
    intro source _ link inLinks text posted
    obtain ⟨row, _, rfl⟩ := List.mem_map.mp inLinks
    obtain ⟨time, _, rfl⟩ := Option.map_eq_some_iff.mp posted
    exact wire.instantText_long time
  rw [sourcesChanged_eq_false_iff, seeds, List.forall₂_map_right_iff, List.forall₂_map_right_iff,
    List.forall₂_same, List.forall₂_same]
  unfold storedReads
  rw [List.forall_mem_map, List.forall_mem_map]
  constructor
  · intro agrees source member
    obtain ⟨title, position⟩ := (fieldsAgree_seed_iff wire).mp (agrees.1 source member)
    exact ⟨title, position, (printAlike_seed_iff wire (long source member)
      (read_urls wire rows member)).mp (agrees.2 source member)⟩
  · intro kept
    constructor
    · intro source member
      have here := kept source member
      exact (fieldsAgree_seed_iff wire).mpr ⟨here.title, here.capturePosition⟩
    · intro source member
      exact (printAlike_seed_iff wire (long source member) (read_urls wire rows member)).mpr
        (kept source member).links

/-- What the backend plans of drafts that agree with their sources folds as the stored list exactly
when it keeps their links. -/
theorem folds_eq_iff_of_planPosted (rows : RowsFiled config tx geo.sources)
    (agrees : List.Forall₂ (FieldsAgree wire) (storedReads wire config geo) drafts)
    {planned : List PlannedSource}
    (planning : planPosted wire config tx geo user drafts = some planned) :
    (∀ archives, planned.map (comparablePlanned config archives) =
        geo.sources.map (comparableStored config archives)) ↔
      List.Forall₂ (fun source plan => SameLinks config.unicode source.links plan.links)
        geo.sources planned := by
  obtain ⟨reading, facts⟩ := planPosted_some rows planning
  rw [← folds_eq_iff rows (fun _ member => member) agrees reading facts]
  constructor
  · intro same
    exact (same true).symm
  · intro same archives
    cases archives with
    | true => exact same.symm
    | false =>
        exact (comparables_archives (fun plan member => (facts plan member).2.2) same).symm

/-- The links of untouched editors, source by source. -/
theorem sameLinks_seeds_iff {stored : List Source} (rows : RowsFiled config tx stored)
    {sources : List Source} (listed : ∀ source ∈ sources, source ∈ stored)
    (kept : ∀ source ∈ sources, EditorKeeps (buildSourceRead wire config.unicode source))
    {planned : List PlannedSource}
    (reading : List.Forall₂ (fun draft plan =>
        readSource wire (sourceCreatePayload wire draft) = .ok plan.spec)
      ((sources.map (buildSourceRead wire config.unicode)).map (sourceDraftFrom wire)) planned)
    (reads : ∀ plan ∈ planned, PlanReads config tx plan) :
    List.Forall₂ (fun source plan => SameLinks config.unicode source.links plan.links)
        sources planned ↔
      ∀ source ∈ sources, ∀ link ∈ source.links, strip link.url = link.url := by
  induction sources generalizing planned with
  | nil =>
      cases reading
      simp
  | cons source sources inductionHypothesis =>
      rw [List.map_cons, List.map_cons] at reading
      cases reading with
      | cons read reading =>
          rename_i plan rest
          have member := listed source List.mem_cons_self
          have here := kept source List.mem_cons_self
          obtain ⟨_, _, _, readingLinks, _⟩ := readSource_ok read
          have cleaning := (reads plan List.mem_cons_self).links
          rw [seed_specs rows member here readingLinks] at cleaning
          rw [List.forall₂_cons, sameLinks_seed_iff rows member here cleaning,
            inductionHypothesis (fun other inSources => listed other (List.mem_cons_of_mem _ inSources))
              (fun other inSources => kept other (List.mem_cons_of_mem _ inSources)) reading
              fun plan inRest => reads plan (List.mem_cons_of_mem _ inRest),
            List.forall_mem_cons]

end Faithful

/-! ### A title that ends in a mark `trim` removes -/

namespace TrimmedTitle

open Vidit.World
open Vidit.Points (decimalOf decimalOf_natText digits_natText)

/-- A number after a mark. -/
def marked (number : Nat) : Text :=
  units (chr '#' :: natText number)

def unmarked (text : Text) : Option Nat :=
  match codePoints text with
  | [] => none
  | _ :: digits => some (decimalOf (digits.map (· - 48)))

theorem unmarked_marked (number : Nat) : unmarked (marked number) = some number := by
  have basic : ∀ point ∈ chr '#' :: natText number, point < 0xD800 := by
    intro point member
    obtain rfl | inDigits := List.mem_cons.mp member
    · decide
    · have digit := digits_natText number point inDigits
      omega
  unfold unmarked marked
  rw [codePoints_units basic]
  simp only [decimalOf_natText]

theorem marked_shown (number : Nat) : trim (marked number) ≠ [] := by
  intro blank
  have start : (marked number).dropWhile isTrimmed = marked number := by
    show (unit '#' :: units (natText number)).dropWhile isTrimmed = _
    rw [List.dropWhile_cons_of_neg (by decide)]
    rfl
  unfold trim at blank
  rw [start, List.reverse_eq_nil_iff, List.dropWhile_eq_nil_iff] at blank
  have white := blank (unit '#') (List.mem_reverse.mpr List.mem_cons_self)
  exact absurd white (by decide)

/-- Numbers and instants by their codes: no source below has one. -/
def codes : Wire where
  numberText value := marked (Encodable.encode value)
  number text := (unmarked text).bind Encodable.decode
  instantText time := units (str "1970-01-01T00:00") ++ marked (Encodable.encode time)
  readInstant text := (unmarked (text.drop 16)).bind Encodable.decode
  toISOString := some
  number_numberText value := by
    rw [unmarked_marked, Option.bind_some, Encodable.encodek]
  numberText_shown value := marked_shown _
  readInstant_instantText time := by
    have dropped : (units (str "1970-01-01T00:00") ++ marked (Encodable.encode time)).drop 16 =
        marked (Encodable.encode time) := rfl
    rw [dropped, unmarked_marked, Option.bind_some, Encodable.encodek]
  instantText_long time := by
    rw [List.length_append]
    exact Nat.le_add_right 16 _

/-- A stored source with its file. -/
def titled (title : Str) : Source :=
  { Swap.seen 1 11 (str "https://cdn.example.org/a.png") with title := title }

def geo (title : Str) : Event :=
  { Swap.geo with sources := [titled title] }

theorem rows {title : Str} (scalar : Scalar title) (stripped : stripBy isWhitespace title = title) :
    RowsFiled smallConfig Swap.saving (geo title).sources where
  keyed := {
    sources := by
      intro left inLeft right inRight _
      rw [List.mem_singleton.mp inLeft, List.mem_singleton.mp inRight]
    files := by
      intro left inLeft right inRight _ _ _ _ _
      rw [List.mem_singleton.mp inLeft, List.mem_singleton.mp inRight]
    fresh := by
      intro draw member
      have one : 100 + draw = 1 := List.mem_singleton.mp member
      omega }
  title := by
    intro source member
    rw [List.mem_singleton.mp member]
    exact ⟨scalar, stripped⟩
  url := by
    intro source member link inLinks
    rw [List.mem_singleton.mp member] at inLinks
    rw [List.mem_singleton.mp inLinks]
    unfold Scalar
    decide
  urls := by
    intro source member
    rw [List.mem_singleton.mp member]
    exact List.nodup_singleton _
  copy := by
    intro source member link inLinks copy held
    rw [List.mem_singleton.mp member] at inLinks
    rw [List.mem_singleton.mp inLinks] at held
    cases held
  tags := by
    intro source member
    rw [List.mem_singleton.mp member]
    exact ⟨List.nodup_nil, by simp [titled, Swap.seen]⟩

end TrimmedTitle

end Vidit.Editor
