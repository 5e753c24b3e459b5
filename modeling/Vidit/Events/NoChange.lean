import Vidit.Events.Outcomes
import Vidit.Events.SourcePlans

/-!
Contract: what the no-change check of `save_version` compares, and what the write leaves.

Owns:
- `SameContent`: two states of an event that read the same, archived copies up to
  `same_snapshot`;
- that the comparable forms are equal exactly when the states read the same;
- `NoChangeLaw`, and the payloads it holds of.

Does not own: the rules a payload passes before it is compared.

Proof shape: a comparable form is a sorted list, so equality of forms is equality up to order
(`sortedBy_eq_iff_perm`); the row the write leaves is then compared with the plan field by field.
-/

namespace Vidit.Events

open Vidit.Python Vidit.Accounts Vidit.Evidence Vidit.Library

/-! ### Sorted lists -/

theorem textLe_total (left right : Str) : textLe left right = true ∨ textLe right left = true := by
  induction left generalizing right with
  | nil => exact .inl rfl
  | cons first lefts inductionHypothesis =>
      cases right with
      | nil => exact .inr rfl
      | cons second rights =>
          unfold textLe
          by_cases below : first < second
          · simp [below]
          · by_cases above : second < first
            · simp [above]
            · simp only [below, above, if_false]
              exact inductionHypothesis rights

theorem textLe_antisymm {left right : Str} (below : textLe left right = true)
    (above : textLe right left = true) : left = right := by
  induction left generalizing right with
  | nil =>
      cases right with
      | nil => rfl
      | cons _ _ => cases above
  | cons first lefts inductionHypothesis =>
      cases right with
      | nil => cases below
      | cons second rights =>
          unfold textLe at below above
          have equal : first = second := by
            by_contra different
            have apart : first < second ∨ second < first := by omega
            obtain smaller | larger := apart
            · have other : ¬ second < first := by omega
              simp [smaller, other] at above
            · have other : ¬ first < second := by omega
              simp [larger, other] at below
          subst equal
          simp only [lt_irrefl, if_false] at below above
          rw [inductionHypothesis below above]

theorem textLe_trans {left middle right : Str} (first : textLe left middle = true)
    (second : textLe middle right = true) : textLe left right = true := by
  induction left generalizing middle right with
  | nil => rfl
  | cons head lefts inductionHypothesis =>
      cases middle with
      | nil => cases first
      | cons between middles =>
          cases right with
          | nil => cases second
          | cons last rights =>
              unfold textLe at first second ⊢
              by_cases below : head < last
              · simp [below]
              · by_cases lower : head < between
                · have other : ¬ between < last := by omega
                  have larger : last < between := by omega
                  simp [other, larger] at second
                · by_cases higher : between < head
                  · simp [lower, higher] at first
                  · have same : head = between := by omega
                    subst same
                    simp only [lt_irrefl, if_false] at first
                    by_cases above : last < head
                    · simp [below, above] at second
                    · simp only [below, above, if_false] at second ⊢
                      exact inductionHypothesis first second

section Sorting

variable {α : Type*} {le : α → α → Bool}

theorem sortedBy_pairwise (total : ∀ left right, le left right = true ∨ le right left = true)
    (trans : ∀ left middle right, le left middle = true → le middle right = true →
      le left right = true) (items : List α) :
    (sortedBy le items).Pairwise fun left right => le left right = true := by
  have ordered : Std.Total fun left right : α => le left right = true := ⟨total⟩
  have transitive : IsTrans α fun left right => le left right = true := ⟨trans⟩
  exact List.pairwise_insertionSort _ items

/-- Sorting forgets the order, when items of one rank are one item. -/
theorem sortedBy_eq_iff_perm (total : ∀ left right, le left right = true ∨ le right left = true)
    (trans : ∀ left middle right, le left middle = true → le middle right = true →
      le left right = true) {left right : List α}
    (ranked : ∀ first ∈ left, ∀ second ∈ left, le first second = true →
      le second first = true → first = second) :
    sortedBy le left = sortedBy le right ↔ left.Perm right := by
  constructor
  · intro same
    exact (sortedBy_perm le left).symm.trans (same ▸ sortedBy_perm le right)
  · intro perm
    have sorted := (sortedBy_perm le left).trans (perm.trans (sortedBy_perm le right).symm)
    apply List.Perm.eq_of_pairwise _ (sortedBy_pairwise total trans left)
      (sortedBy_pairwise total trans right) sorted
    intro first second inLeft inRight below above
    apply ranked first (mem_sortedBy.mp inLeft) second _ below above
    exact perm.symm.subset (mem_sortedBy.mp inRight)

end Sorting

/-! ### States that read the same -/

/-- The archived copy of a link, stored and written, up to `same_snapshot`. -/
def SameCopy (unicode : Unicode) : Option Str → Option Str → Prop
  | none, none => True
  | some stored, some written => sameSnapshot unicode (some stored) written = true
  | _, _ => False

structure SameLink (unicode : Unicode) (stored written : SourceLink) : Prop where
  url : stored.url = written.url
  postedAt : stored.postedAt = written.postedAt
  copy : SameCopy unicode stored.snapshotUrl written.snapshotUrl

/-- Two lists whose members match, whatever order the first is in. -/
def AlikeUpToOrder {α β : Type*} (Alike : α → β → Prop) (left : List α) (right : List β) : Prop :=
  ∃ arranged, arranged.Perm left ∧ List.Forall₂ Alike arranged right

structure SameSource (config : Config) (stored written : Source) : Prop where
  title : stored.title = written.title
  level : stored.level = written.level
  kind : stored.kind = written.kind
  capturedAt : stored.capturedAt = written.capturedAt
  capturePosition : stored.capturePosition = written.capturePosition
  isGraphic : stored.isGraphic = written.isGraphic
  links : AlikeUpToOrder (SameLink config.unicode) stored.links written.links
  tags : (stored.tags.map Tag.id).Perm (written.tags.map Tag.id)
  file : stored.media.map Media.storageUrl = written.media.map Media.storageUrl

/-- Every compared field, the proof, the tags and the list of sources. -/
structure SameContent (config : Config) (stored written : Event) : Prop where
  title : stored.title = written.title
  coords : stored.coords = written.coords
  occurredDate : stored.occurredDate = written.occurredDate
  occurredTime : stored.occurredTime = written.occurredTime
  tags : (stored.tags.map Tag.id).Perm (written.tags.map Tag.id)
  conflicts : (stored.conflicts.map Conflict.id).Perm (written.conflicts.map Conflict.id)
  proof : stored.proof = written.proof
  sources : List.Forall₂ (SameSource config) stored.sources written.sources

/-- Every archived copy has a target the comparison can read. -/
def CopiesReadable (unicode : Unicode) (source : Source) : Prop :=
  ∀ link ∈ source.links, ∀ copy, link.snapshotUrl = some copy →
    normalisedTarget unicode copy ≠ none

/-! ### Equal comparable forms -/

section Comparing

variable {unicode : Unicode}

theorem sameCopy_iff {stored written : Option Str}
    (storedReads : ∀ copy, stored = some copy → normalisedTarget unicode copy ≠ none)
    (writtenReads : ∀ copy, written = some copy → normalisedTarget unicode copy ≠ none) :
    SameCopy unicode stored written ↔
      stored.bind (normalisedTarget unicode) = written.bind (normalisedTarget unicode) := by
  cases stored with
  | none =>
      cases written with
      | none => simp [SameCopy]
      | some right =>
          have reads := writtenReads right rfl
          simp only [SameCopy, Option.bind_none, Option.bind_some, false_iff]
          exact fun same => reads same.symm
  | some left =>
      have reads := storedReads left rfl
      cases written with
      | none =>
          simp only [SameCopy, Option.bind_none, Option.bind_some, false_iff]
          exact reads
      | some right =>
          obtain ⟨target, found⟩ := Option.ne_none_iff_exists'.mp reads
          simp only [SameCopy, sameSnapshot, Option.bind_some, found]
          by_cases equal : left = right
          · subst equal
            simp [found]
          · simp [equal, eq_comm]

theorem comparableLink_eq_iff {stored written : SourceLink}
    (storedReads : ∀ copy, stored.snapshotUrl = some copy → normalisedTarget unicode copy ≠ none)
    (writtenReads : ∀ copy, written.snapshotUrl = some copy →
      normalisedTarget unicode copy ≠ none) :
    comparableLink unicode true stored.url stored.postedAt stored.snapshotUrl =
        comparableLink unicode true written.url written.postedAt written.snapshotUrl ↔
      SameLink unicode stored written := by
  unfold comparableLink
  simp only [if_true, ComparableLink.mk.injEq, Option.some.injEq]
  rw [← sameCopy_iff storedReads writtenReads]
  constructor
  · intro same
    exact ⟨same.1, same.2.1, same.2.2⟩
  · intro same
    exact ⟨same.url, same.postedAt, same.copy⟩

/-- Images in one order are images of the members in some order. -/
theorem perm_map_iff {α β γ : Type*} {left : List α} {right : List β} {first : α → γ}
    {second : β → γ} :
    (left.map first).Perm (right.map second) ↔
      AlikeUpToOrder (fun one other => first one = second other) left right := by
  have images : ∀ arranged : List α, arranged.map first = right.map second ↔
      List.Forall₂ (fun one other => first one = second other) arranged right := by
    intro arranged
    rw [← List.forall₂_eq_eq_eq, List.forall₂_map_left_iff, List.forall₂_map_right_iff]
  constructor
  · intro perm
    have composed : Relation.Comp List.Perm (List.Forall₂ fun one image => image = first one) left
        (right.map second) := by
      rw [← List.forall₂_comp_perm_eq_perm_comp_forall₂]
      refine ⟨left.map first, ?_, perm⟩
      rw [List.forall₂_map_right_iff]
      exact List.forall₂_same.mpr fun _ _ => rfl
    obtain ⟨arranged, same, alike⟩ := composed
    refine ⟨arranged, same.symm, ?_⟩
    rw [List.forall₂_map_right_iff] at alike
    exact alike.imp fun _ _ equal => equal.symm
  · intro alike
    obtain ⟨arranged, same, matched⟩ := alike
    rw [← (images arranged).mpr matched]
    exact (same.map first).symm

theorem AlikeUpToOrder.congr {α β : Type*} {Alike Other : α → β → Prop} {left : List α}
    {right : List β} (same : ∀ one ∈ left, ∀ other ∈ right, Alike one other ↔ Other one other) :
    AlikeUpToOrder Alike left right ↔ AlikeUpToOrder Other left right := by
  unfold AlikeUpToOrder
  apply exists_congr
  intro arranged
  apply and_congr_right
  intro perm
  rw [List.forall₂_iff_get, List.forall₂_iff_get]
  apply and_congr_right
  intro _
  apply forall_congr'
  intro index
  apply forall_congr'
  intro inLeft
  apply forall_congr'
  intro inRight
  exact same _ (perm.subset (List.get_mem _ _)) _ (List.get_mem _ _)

/-- Sorted links are equal when the links match in some order. -/
theorem sortLinks_eq_iff {left right : List ComparableLink}
    (distinct : (right.map ComparableLink.url).Nodup) :
    sortLinks left = sortLinks right ↔ left.Perm right := by
  unfold sortLinks
  rw [eq_comm, List.perm_comm]
  apply sortedBy_eq_iff_perm
  · intro first second
    exact textLe_total _ _
  · intro first second third
    exact textLe_trans
  · intro first inFirst second inSecond below above
    exact List.inj_on_of_nodup_map distinct inFirst inSecond (textLe_antisymm below above)

theorem sortedTexts_eq_iff {left right : List Str} :
    sortedBy textLe left = sortedBy textLe right ↔ left.Perm right := by
  apply sortedBy_eq_iff_perm textLe_total (fun _ _ _ => textLe_trans)
  intro first _ second _ below above
  exact textLe_antisymm below above

theorem sortedIds_eq_iff (uuids : UuidSource) {left right : List Uuid} :
    sortedBy textLe (left.map uuids.text) = sortedBy textLe (right.map uuids.text) ↔
      left.Perm right := by
  rw [sortedTexts_eq_iff]
  constructor
  · intro perm
    exact (List.map_perm_map_iff uuids.text_injective).mp perm
  · intro perm
    exact perm.map _

/-- The comparable forms of two sources are equal when the sources read the same. -/
theorem comparableStored_eq_iff (config : Config) {stored written : Source}
    (storedReads : CopiesReadable config.unicode stored)
    (writtenReads : CopiesReadable config.unicode written)
    (distinct : (written.links.map SourceLink.url).Nodup) :
    comparableStored config true stored = comparableStored config true written ↔
      SameSource config stored written := by
  have links : sortLinks (stored.links.map fun link =>
        comparableLink config.unicode true link.url link.postedAt link.snapshotUrl) =
      sortLinks (written.links.map fun link =>
        comparableLink config.unicode true link.url link.postedAt link.snapshotUrl) ↔
      AlikeUpToOrder (SameLink config.unicode) stored.links written.links := by
    rw [sortLinks_eq_iff (by rw [List.map_map]; exact distinct), perm_map_iff]
    apply AlikeUpToOrder.congr
    intro one inStored other inWritten
    exact comparableLink_eq_iff (storedReads one inStored) (writtenReads other inWritten)
  have tags : sortedBy textLe (stored.tags.map fun tag => config.uuids.text tag.id) =
      sortedBy textLe (written.tags.map fun tag => config.uuids.text tag.id) ↔
      (stored.tags.map Tag.id).Perm (written.tags.map Tag.id) := by
    rw [← sortedIds_eq_iff config.uuids, List.map_map, List.map_map]
    rfl
  have file : (stored.media.map fun media => ComparableFile.stored media.storageUrl) =
      (written.media.map fun media => ComparableFile.stored media.storageUrl) ↔
      stored.media.map Media.storageUrl = written.media.map Media.storageUrl := by
    cases stored.media <;> cases written.media <;> simp
  unfold comparableStored
  rw [ComparableSource.mk.injEq, links, tags, file]
  constructor
  · intro same
    obtain ⟨title, level, kind, capturedAt, capturePosition, isGraphic, links, tags, file⟩ := same
    exact ⟨title, level, kind, capturedAt, capturePosition, isGraphic, links, tags, file⟩
  · intro same
    exact ⟨same.title, same.level, same.kind, same.capturedAt, same.capturePosition,
      same.isGraphic, same.links, same.tags, same.file⟩

end Comparing

/-! ### The links of an accepted plan -/

section Links

variable {unicode : Unicode}

theorem removeprefix_provider {host : Str} {provider : ArchiveProvider}
    (listed : providerHosts.lookup host = some provider) :
    removeprefix host (str "www.") ≠ [] := by
  have named : ∀ entry ∈ providerHosts, removeprefix entry.1 (str "www.") ≠ [] := by decide
  obtain ⟨earlier, later, places, _⟩ := List.lookup_eq_some_iff.mp listed
  apply named (host, provider)
  rw [places]
  simp

/-- A copy of an archive provider has a target. -/
theorem validateSnapshot_target {copy : Str} {provider : ArchiveProvider}
    (valid : validateSnapshot unicode copy = .ok provider) :
    normalisedTarget unicode copy ≠ none := by
  unfold validateSnapshot at valid
  split at valid
  · cases valid
  · split at valid
    · cases valid
    · cases parsing : urlparse unicode copy with
      | error reason =>
          rw [parsing] at valid
          cases valid
      | ok parsed =>
          simp only [parsing] at valid
          split at valid
          · cases valid
          · cases listed : providerHosts.lookup (unicode.lower (parsed.hostname unicode)) with
            | none =>
                simp only [listed] at valid
                cases valid
            | some known =>
                have host := removeprefix_provider listed
                simp [normalisedTarget, normalisedHost, parsing, host]

/-- What `_clean_links` keeps: each URL once, and copies of archive providers. -/
structure LinksClean (unicode : Unicode) (links : List LinkSpec) : Prop where
  distinct : (links.map LinkSpec.url).Nodup
  readable : ∀ link ∈ links, ∀ copy, link.snapshotUrl = some copy →
    normalisedTarget unicode copy ≠ none

theorem LinksClean.cons {url : Str} {postedAt : Option Instant} {copy : Option Str}
    {links : List LinkSpec} (clean : LinksClean unicode links)
    (new : url ∉ links.map LinkSpec.url)
    (reads : ∀ text, copy = some text → normalisedTarget unicode text ≠ none) :
    LinksClean unicode (⟨url, postedAt, copy⟩ :: links) where
  distinct := by
    rw [List.map_cons, List.nodup_cons]
    exact ⟨new, clean.distinct⟩
  readable := by
    intro link member
    obtain rfl | later := List.mem_cons.mp member
    · exact reads
    · exact clean.readable link later

theorem cleanEach_clean {links cleaned : List LinkSpec} {seen : List Str}
    (cleaning : cleanEach unicode links seen = .ok cleaned) :
    LinksClean unicode cleaned ∧ ∀ url ∈ cleaned.map LinkSpec.url, url ∉ seen := by
  induction links generalizing cleaned seen with
  | nil =>
      rw [cleanEach, pure_eq_ok] at cleaning
      subst cleaning
      exact ⟨⟨List.nodup_nil, by simp⟩, by simp⟩
  | cons link rest inductionHypothesis =>
      rw [cleanEach] at cleaning
      split at cleaning
      · exact inductionHypothesis cleaning
      · rename_i fresh
        have unseen : strip link.url ∉ seen := fun again => fresh (.inr again)
        rw [bind_eq_ok] at cleaning
        obtain ⟨_, _, cleaning⟩ := cleaning
        have step : ∀ (copy : Option Str) (later : List LinkSpec),
            cleanEach unicode rest (strip link.url :: seen) = .ok later →
            (∀ text, copy = some text → normalisedTarget unicode text ≠ none) →
            LinksClean unicode (⟨strip link.url, link.postedAt, copy⟩ :: later) ∧
              ∀ url ∈ (⟨strip link.url, link.postedAt, copy⟩ :: later : List LinkSpec).map
                LinkSpec.url, url ∉ seen := by
          intro copy later cleaningLater reads
          have known := inductionHypothesis cleaningLater
          constructor
          · apply known.1.cons _ reads
            intro again
            exact known.2 _ again List.mem_cons_self
          · intro url member
            rw [List.map_cons, List.mem_cons] at member
            obtain rfl | inLater := member
            · exact unseen
            · exact fun old => known.2 url inLater (List.mem_cons_of_mem _ old)
        simp only at cleaning
        split at cleaning
        · simp only [bind_eq_ok, pure_eq_ok] at cleaning
          obtain ⟨later, cleaningLater, rfl⟩ := cleaning
          exact step none later cleaningLater (by simp)
        · simp only [bind_eq_ok, pure_eq_ok] at cleaning
          obtain ⟨provider, valid, later, cleaningLater, rfl⟩ := cleaning
          apply step _ later cleaningLater
          intro text same
          cases same
          exact validateSnapshot_target valid

theorem cleanLinks_clean {links cleaned : List LinkSpec}
    (cleaning : cleanLinks unicode links = .ok cleaned) : LinksClean unicode cleaned := by
  unfold cleanLinks at cleaning
  simp only [bind_eq_ok, pure_eq_ok] at cleaning
  obtain ⟨_, cleaningEach, _, _, _, _, rfl⟩ := cleaning
  exact (cleanEach_clean cleaningEach).1

theorem planSources_clean {config : Config} {tx : Transaction} {base : Option Event}
    {specs : List SourceSpec} {user : User} {planned : List PlannedSource}
    (planning : planSources config tx base specs user = .ok planned) :
    ∀ plan ∈ planned, LinksClean config.unicode plan.links := by
  unfold planSources at planning
  simp only [bind_eq_ok, require_eq_ok] at planning
  obtain ⟨_, _, _, _, staged, _, files, _, plans⟩ := planning
  intro plan member
  obtain ⟨spec, _, planningOne⟩ := exists_of_mapM_eq_ok plans member
  unfold planSource at planningOne
  simp only [bind_eq_ok, pure_eq_ok] at planningOne
  obtain ⟨_, cleaning, _, _, rfl⟩ := planningOne
  exact cleanLinks_clean cleaning

/-- The links a write leaves are the posted ones, so they stay clean. -/
theorem linkRows_clean (unicode : Unicode) (stored : List SourceLink) {links : List LinkSpec}
    (now : Instant) (clean : LinksClean unicode links) :
    ((linkRows unicode stored links now).map SourceLink.url).Nodup ∧
      ∀ link ∈ linkRows unicode stored links now, ∀ copy, link.snapshotUrl = some copy →
        normalisedTarget unicode copy ≠ none := by
  have posted := linkRows_posted unicode stored links now
  constructor
  · have urls := posted.map LinkSpec.url
    rw [List.map_map] at urls
    exact urls.nodup_iff.mpr clean.distinct
  · intro link member copy archived
    have inLinks : link.posted ∈ links := posted.subset (List.mem_map_of_mem member)
    exact clean.readable _ inLinks copy archived

end Links

/-! ### The plan and the rows it leaves -/

section Rows

variable {config : Config} {tx : Transaction} {user : User} {stored : List Source}
  {earlier rest : List PlannedSource} {plan : PlannedSource} {index : Nat}

/-- The comparable form of a plan with the flag the write reads. -/
def comparableRead (config : Config) (earlier : List PlannedSource) (plan : PlannedSource) :
    ComparableSource :=
  { comparablePlanned config true plan with isGraphic := readFlag earlier plan }

def comparableReads (config : Config) :
    List PlannedSource → List PlannedSource → List ComparableSource
  | _, [] => []
  | earlier, plan :: rest =>
    comparableRead config earlier plan :: comparableReads config (earlier ++ [plan]) rest

/-- No stored source shows the file of a staged upload. -/
def UploadsNew (config : Config) (tx : Transaction) (stored : List Source) : Prop :=
  ∀ upload ∈ tx.uploads, ∀ source ∈ stored,
    source.media.map Media.storageUrl ≠ some (config.storage.publicUrl upload.storageKey)

/-- Archives and files apart, the row left for a plan compares as the plan does. -/
theorem comparableStored_writtenRow (position : plan.capturePosition = plan.spec.capturePosition)
    (clean : LinksClean config.unicode plan.links) :
    comparableStored config true (writtenRow config tx index earlier plan) =
      { comparableRead config earlier plan with
        file := (attachFile config plan (tx.uuid (2 + 2 * index))).map fun media =>
          .stored media.storageUrl } := by
  have distinct : (plan.links.map LinkSpec.url).Nodup := clean.distinct
  have links : sortLinks ((writtenRow config tx index earlier plan).links.map fun link =>
        comparableLink config.unicode true link.url link.postedAt link.snapshotUrl) =
      sortLinks (plan.links.map fun link =>
        comparableLink config.unicode true link.url link.postedAt link.snapshotUrl) := by
    rw [sortLinks_eq_iff (by rw [List.map_map]; exact distinct)]
    have posted := (linkRows_posted config.unicode ((plan.stored.map Source.links).getD [])
      plan.links tx.now).map fun link : LinkSpec =>
        comparableLink config.unicode true link.url link.postedAt link.snapshotUrl
    rw [List.map_map] at posted
    exact posted
  unfold comparableStored comparableRead comparablePlanned
  rw [links]
  simp only [writtenRow, position]

/-- Without an upload, the row shows the file the plan compares as. -/
theorem PlanFacts.comparableFile (facts : PlanFacts tx user stored plan)
    (noUpload : plan.upload = none) (mediaId : Uuid) :
    ((attachFile config plan mediaId).map fun media => ComparableFile.stored media.storageUrl) =
      (comparablePlanned config true plan).file := by
  unfold attachFile comparablePlanned
  cases facts.file with
  | none _ _ upload keepsMedia copyOf =>
      rw [upload, copyOf, keepsMedia]
      rfl
  | uploaded _ _ _ _ _ taken _ _ =>
      rw [taken] at noUpload
      cases noUpload
  | kept source _ file holds _ _ updates upload keepsMedia copyOf =>
      simp only [upload, copyOf, keepsMedia, updates, if_true, Option.bind_some, holds,
        Option.map_some]
  | copied source _ file _ _ _ _ upload keepsMedia copyOf =>
      simp only [upload, copyOf, keepsMedia, Option.map_some]

/-- A stored source compares equal to the row the write leaves exactly when it does to the
plan with the flag the write reads. -/
theorem PlanFacts.stored_eq_row_iff (facts : PlanFacts tx user stored plan) (index : Nat)
    (earlier : List PlannedSource) (clean : LinksClean config.unicode plan.links) (uploads : UploadsNew config tx stored)
    {source : Source} (member : source ∈ stored) :
    comparableStored config true source =
        comparableStored config true (writtenRow config tx index earlier plan) ↔
      comparableStored config true source = comparableRead config earlier plan := by
  rw [comparableStored_writtenRow facts.capturePosition clean]
  cases taken : plan.upload with
  | none =>
      rw [facts.comparableFile taken]
      rfl
  | some upload =>
      -- a new file differs from every stored one, before and after it is stored
      have listed : upload ∈ tx.uploads ∧ plan.keepsMedia = false ∧ plan.copyOf = none := by
        cases facts.file with
        | none _ _ noUpload _ _ | kept _ _ _ _ _ _ _ noUpload _ _
        | copied _ _ _ _ _ _ _ noUpload _ _ =>
            rw [noUpload] at taken
            cases taken
        | uploaded other listed _ _ _ found keepsMedia copyOf =>
            rw [found, Option.some.injEq] at taken
            exact ⟨taken ▸ listed, keepsMedia, copyOf⟩
      obtain ⟨listed, keepsMedia, copyOf⟩ := listed
      constructor
      · intro same
        have file := congrArg ComparableSource.file same
        simp only [comparableStored, attachFile, taken, Option.map_some] at file
        obtain ⟨media, holds, url⟩ := Option.map_eq_some_iff.mp file
        exfalso
        apply uploads upload listed source member
        rw [holds, Option.map_some, ComparableFile.stored.inj url]
      · intro same
        have file := congrArg ComparableSource.file same
        simp only [comparableStored, comparableRead, comparablePlanned, taken, keepsMedia,
          copyOf] at file
        obtain ⟨media, _, url⟩ := Option.map_eq_some_iff.mp file
        cases url

theorem stored_eq_rows_iff (facts : ∀ plan ∈ rest, PlanFacts tx user stored plan)
    (clean : ∀ plan ∈ rest, LinksClean config.unicode plan.links)
    (uploads : UploadsNew config tx stored) {sources : List Source}
    (listed : ∀ source ∈ sources, source ∈ stored) :
    sources.map (comparableStored config true) =
        (writtenRows config tx index earlier rest).map (comparableStored config true) ↔
      sources.map (comparableStored config true) = comparableReads config earlier rest := by
  induction rest generalizing sources earlier index with
  | nil => rfl
  | cons plan rest inductionHypothesis =>
      unfold writtenRows comparableReads
      cases sources with
      | nil => simp
      | cons source sources =>
          have head := (facts plan List.mem_cons_self).stored_eq_row_iff index earlier
            (clean plan List.mem_cons_self) uploads
            (listed source List.mem_cons_self)
          have tail := @inductionHypothesis (earlier ++ [plan]) (index + 1)
            (fun other inRest => facts other (List.mem_cons_of_mem _ inRest))
            (fun other inRest => clean other (List.mem_cons_of_mem _ inRest))
            sources (fun other inSources => listed other (List.mem_cons_of_mem _ inSources))
          rw [List.map_cons, List.map_cons, List.cons.injEq, List.cons.injEq, head, tail]

/-- The flags the write reads are the posted ones exactly when the plan compares alike. -/
theorem comparableReads_eq_iff :
    comparableReads config earlier rest = rest.map (comparablePlanned config true) ↔
      ∀ before plan later, rest = before ++ plan :: later →
        readFlag (earlier ++ before) plan = plan.isGraphic := by
  induction rest generalizing earlier with
  | nil => simp [comparableReads]
  | cons plan rest inductionHypothesis =>
      have head : comparableRead config earlier plan = comparablePlanned config true plan ↔
          readFlag earlier plan = plan.isGraphic := by
        constructor
        · intro same
          exact congrArg ComparableSource.isGraphic same
        · intro same
          unfold comparableRead
          rw [same]
          rfl
      unfold comparableReads
      rw [List.map_cons, List.cons.injEq, head, inductionHypothesis]
      constructor
      · intro flags before other later places
        cases before with
        | nil =>
            rw [List.nil_append, List.cons.injEq] at places
            rw [List.append_nil, ← places.1]
            exact flags.1
        | cons first before =>
            rw [List.cons_append, List.cons.injEq] at places
            have flag := flags.2 before other later places.2
            rw [List.append_assoc, places.1] at flag
            exact flag
      · intro flags
        constructor
        · have flag := flags [] plan rest rfl
          rw [List.append_nil] at flag
          exact flag
        · intro before other later places
          have flag := flags (plan :: before) other later (by rw [places]; rfl)
          rw [List.append_assoc]
          exact flag

/-- The rows left for a plan read the same as the stored ones exactly when the forms are equal. -/
theorem sameSources_iff (clean : ∀ plan ∈ rest, LinksClean config.unicode plan.links)
    {sources : List Source} (reads : ∀ source ∈ sources, CopiesReadable config.unicode source) :
    List.Forall₂ (SameSource config) sources (writtenRows config tx index earlier rest) ↔
      sources.map (comparableStored config true) =
        (writtenRows config tx index earlier rest).map (comparableStored config true) := by
  induction rest generalizing sources earlier index with
  | nil => simp [writtenRows]
  | cons plan rest inductionHypothesis =>
      unfold writtenRows
      cases sources with
      | nil => simp
      | cons source sources =>
          have rows := linkRows_clean config.unicode
            ((plan.stored.map Source.links).getD []) tx.now (clean plan List.mem_cons_self)
          have head := @comparableStored_eq_iff config source
            (writtenRow config tx index earlier plan) (reads source List.mem_cons_self) rows.2 rows.1
          have tail := @inductionHypothesis (earlier ++ [plan]) (index + 1)
            (fun other inRest => clean other (List.mem_cons_of_mem _ inRest)) sources
            (fun other inSources => reads other (List.mem_cons_of_mem _ inSources))
          rw [List.forall₂_cons, List.map_cons, List.map_cons, List.cons.injEq, head, tail]

end Rows

/-! ### The refusals of the proof intake -/

/-- The errors of `attach_evidence_and_commit`. -/
def EventError.IsIntake : EventError → Prop
  | .invalidFile _ | .proofFilesMismatch _ | .tooManyProofFiles _ _ | .tooManyProofImages _ _ _ _
  | .evidenceProcessingFailed _ => True
  | _ => False

theorem mapError_eq_error {ε δ α : Type} {computation : Except ε α} {reword : ε → δ}
    {refused : δ} (failed : computation.mapError reword = .error refused) :
    ∃ reason, refused = reword reason := by
  cases computation with
  | error reason => exact ⟨reason, (Except.error.inj failed).symm⟩
  | ok _ => cases failed

theorem validateFile_error {settings : Settings} {file : UploadFile} {refused : EventError}
    (failed : validateFile settings file = .error refused) : refused.IsIntake := by
  have sized : ∀ (kind : MediaKind) (maxSize : Nat),
      (do
        require (file.size ≤ maxSize) (EventError.invalidFile (.tooLarge kind maxSize))
        pure kind : Except EventError MediaKind) = .error refused → refused.IsIntake := by
    intro kind maxSize large
    obtain tooLarge | ⟨_, _, returned⟩ := bind_eq_error.mp large
    · rw [require_eq_error] at tooLarge
      rw [← tooLarge.2]
      trivial
    · cases returned
  unfold validateFile at failed
  cases type : file.contentType with
  | jpeg | png | webp | gif | mp4 | webm =>
      rw [type] at failed
      exact sized _ _ failed
  | other =>
      rw [type] at failed
      cases failed
      trivial

theorem validateProofFile_error {settings : Settings} {file : UploadFile} {refused : EventError}
    (failed : validateProofFile settings file = .error refused) : refused.IsIntake := by
  unfold validateProofFile at failed
  obtain invalid | ⟨_, _, failed⟩ := bind_eq_error.mp failed
  · exact validateFile_error invalid
  · rw [require_eq_error] at failed
    rw [← failed.2]
    trivial

theorem storedFileCount_error {file : UploadFile} {refused : EventError}
    (failed : storedFileCount file = .error refused) : refused.IsIntake := by
  unfold storedFileCount at failed
  split at failed
  · obtain ⟨reason, rfl⟩ := mapError_eq_error failed
    trivial
  · cases failed

theorem filesByName_error {files : List UploadFile} {named : List (Str × UploadFile)}
    {refused : EventError} (failed : filesByName files named = .error refused) :
    refused.IsIntake := by
  induction files generalizing named with
  | nil => cases failed
  | cons file rest inductionHypothesis =>
      rw [filesByName] at failed
      split at failed
      · cases failed
        trivial
      · obtain twice | ⟨_, _, failed⟩ := bind_eq_error.mp failed
        · rw [require_eq_error] at twice
          rw [← twice.2]
          trivial
        · exact inductionHypothesis failed

theorem matchProofFiles_error {proofHtml : Option Body} {files : List UploadFile}
    {refused : EventError} (failed : matchProofFiles proofHtml files = .error refused) :
    refused.IsIntake := by
  unfold matchProofFiles at failed
  obtain unnamed | ⟨named, _, failed⟩ := bind_eq_error.mp failed
  · exact filesByName_error unnamed
  · obtain unmatched | ⟨pairs, _, failed⟩ := bind_eq_error.mp failed
    · obtain ⟨src, _, missing⟩ := exists_of_mapM_eq_error unmatched
      obtain absent | ⟨_, _, returned⟩ := bind_eq_error.mp missing
      · unfold orRefuse at absent
        split at absent
        · cases absent
        · cases absent
          trivial
      · cases returned
    · obtain unreferenced | ⟨_, _, returned⟩ := bind_eq_error.mp failed
      · rw [require_eq_error] at unreferenced
        rw [← unreferenced.2]
        trivial
      · cases returned

theorem storeProofImages_error {config : Config} {tx : Transaction} {userId : Uuid} {first : Nat}
    {pairs : List (Str × UploadFile)} {refused : EventError}
    (failed : storeProofImages config tx userId first pairs = .error refused) :
    refused.IsIntake := by
  induction pairs generalizing first with
  | nil => cases failed
  | cons pair rest inductionHypothesis =>
      rw [storeProofImages] at failed
      obtain unread | ⟨_, _, failed⟩ := bind_eq_error.mp failed
      · obtain ⟨reason, rfl⟩ := mapError_eq_error unread
        trivial
      · obtain later | ⟨_, _, returned⟩ := bind_eq_error.mp failed
        · exact inductionHypothesis later
        · cases returned

theorem attachEvidence_error {config : Config} {tx : Transaction} {geo : Event}
    {proofHtml : Option Body} {files : List UploadFile} {first : Nat} {refused : EventError}
    (failed : attachEvidence config tx geo proofHtml files first = .error refused) :
    refused.IsIntake := by
  unfold attachEvidence at failed
  obtain many | ⟨_, _, failed⟩ := bind_eq_error.mp failed
  · rw [require_eq_error] at many
    rw [← many.2]
    trivial
  obtain invalid | ⟨_, _, failed⟩ := bind_eq_error.mp failed
  · obtain ⟨file, _, invalid⟩ := exists_of_mapM_eq_error invalid
    exact validateProofFile_error invalid
  obtain unmatched | ⟨pairs, _, failed⟩ := bind_eq_error.mp failed
  · exact matchProofFiles_error unmatched
  obtain unread | ⟨counts, _, failed⟩ := bind_eq_error.mp failed
  · obtain ⟨file, _, unread⟩ := exists_of_mapM_eq_error unread
    exact storedFileCount_error unread
  obtain foreign | ⟨_, _, failed⟩ := bind_eq_error.mp failed
  · rw [require_eq_error] at foreign
    rw [← foreign.2]
    trivial
  obtain crowded | ⟨_, _, failed⟩ := bind_eq_error.mp failed
  · rw [require_eq_error] at crowded
    rw [← crowded.2]
    trivial
  obtain unstored | ⟨_, _, returned⟩ := bind_eq_error.mp failed
  · exact storeProofImages_error unstored
  · cases returned

/-! ### The no-change law -/

/-- The rules of `save_version` on a published event that come before its no-change check. -/
structure Admitted (config : Config) (tx : Transaction) (geo : Event) (user : User)
    (form : EventForm) (lat lng : Rat) (expectedVersion : Option Nat) (proofData : Option Body)
    (planned : List PlannedSource) : Prop where
  published : geo.status = .geolocated
  expected : ∀ expected ∈ expectedVersion, expected = geo.versionNo
  mayEdit : ensureMayEdit geo user = .ok ⟨⟩
  position : validateCoordinates lat lng = .ok ⟨⟩
  sanitised : sanitizeProof config form.proofData = .ok proofData
  image : requireProofImage (some (proofData.getD geo.proof)) = .ok ⟨⟩
  conflict : requireConflict (resolveConflicts tx form.conflictIds) = .ok ⟨⟩
  planning : planSources config tx (some geo) form.sources user = .ok planned
  floor : checkPublishFloor (plannedFloor planned) = .ok ⟨⟩

section Law

variable (config : Config) (tx : Transaction) (geo : Event) (user : User) (form : EventForm)
  (lat lng : Rat) (note : Option Str) (expectedVersion : Option Nat) (proofData : Option Body)
  (planned : List PlannedSource)

/-- The event with the payload applied: its fields, the sanitised proof, its sources. -/
def appliedEdit : Except EventError Event := do
  let applied ← applySources config tx geo.sources planned
  pure { editFields tx geo form lat lng false with
    proof := proofData.getD geo.proof
    sources := applied.sources }

/-- Applying the payload leaves what is stored. -/
def LeavesEqual : Prop :=
  ∃ edited, appliedEdit config tx geo form lat lng proofData planned = .ok edited ∧
    SameContent config geo edited

/-- `NothingChanged` is raised exactly for a payload that leaves the event equal; one that does
not is never lost to an unhandled error, and files one version where it is accepted. -/
structure NoChangeLaw : Prop where
  refused : saveVersion config tx geo user form lat lng note expectedVersion [] =
      .error (.nothingChanged geo.versionNo) ↔
    LeavesEqual config tx geo form lat lng proofData planned
  filed : ¬ LeavesEqual config tx geo form lat lng proofData planned →
    saveVersion config tx geo user form lat lng note expectedVersion [] ≠ .error .internal ∧
    ∀ written, saveVersion config tx geo user form lat lng note expectedVersion [] = .ok written →
      written.event.versions =
          geo.versions ++ [versionRow geo user note (buildSnapshot geo) tx.now] ∧
        written.event.versionNo = geo.versionNo + 1

/-- The fields the form proposes, the sources apart, equal the stored ones. -/
def fieldsStay : Bool :=
  matchesCurrent config.uuids.text (buildSnapshot geo) (proposedOf tx geo form lat lng proofData)

/-- `fields_move` on a published event. -/
def fieldsMove : Bool :=
  !fieldsStay config tx geo form lat lng proofData || sourcesMove config false geo planned

/-- Where a flag is not read as it is posted: the version ceiling refuses the edit before a
source is written, or the edit moves more than that flag. -/
def FlagsHarmless : Prop :=
  if planned.any (stuck planned) = true then
    fieldsMove config tx geo form lat lng proofData planned = true ∧
      maxVersionsPerEvent ≤ geo.versionNo
  else
    fieldsStay config tx geo form lat lng proofData = false ∨
      sourcesMove config true geo planned = true ∧
        geo.sources.map (comparableStored config true) ≠ comparableReads config [] planned

end Law

section Deciding

variable {config : Config} {tx : Transaction} {geo : Event} {user : User} {form : EventForm}
  {lat lng : Rat} {note : Option Str} {expectedVersion : Option Nat} {proofData : Option Body}
  {planned : List PlannedSource}

/-- The ordered ids of two lists are equal when the lists hold the same ids. -/
theorem fieldsStay_iff :
    fieldsStay config tx geo form lat lng proofData = true ↔
      geo.title = form.title ∧ geo.coords = some ⟨lat, lng⟩ ∧
        geo.occurredDate = form.occurredDate ∧ geo.occurredTime = form.occurredTime ∧
        (geo.tags.map Tag.id).Perm ((resolveTags tx form.tagIds).map Tag.id) ∧
        (geo.conflicts.map Conflict.id).Perm
          ((resolveConflicts tx form.conflictIds).map Conflict.id) ∧
        geo.proof = proofData.getD geo.proof := by
  have tags : sortedIds config.uuids.text (buildSnapshot geo).tags =
      sortedIds config.uuids.text (proposedOf tx geo form lat lng proofData).tags ↔
      (geo.tags.map Tag.id).Perm ((resolveTags tx form.tagIds).map Tag.id) := by
    rw [← sortedIds_eq_iff config.uuids]
    unfold sortedIds buildSnapshot proposedOf
    simp only [List.map_map]
    rfl
  have conflicts : sortedIds config.uuids.text (buildSnapshot geo).conflicts =
      sortedIds config.uuids.text (proposedOf tx geo form lat lng proofData).conflicts ↔
      (geo.conflicts.map Conflict.id).Perm
        ((resolveConflicts tx form.conflictIds).map Conflict.id) := by
    rw [← sortedIds_eq_iff config.uuids]
    unfold sortedIds buildSnapshot proposedOf
    simp only [List.map_map]
    rfl
  unfold fieldsStay matchesCurrent
  simp only [Bool.and_eq_true, decide_eq_true_eq, tags, conflicts, and_assoc]
  rfl

/-- Dropping the archives keeps equal forms equal. -/
theorem comparable_archives {source : Source} {plan : PlannedSource}
    (clean : LinksClean config.unicode plan.links)
    (same : comparableStored config true source = comparablePlanned config true plan) :
    comparableStored config false source = comparablePlanned config false plan := by
  have distinct : ∀ archives, ((plan.links.map fun link => comparableLink config.unicode archives
      link.url link.postedAt link.snapshotUrl).map ComparableLink.url).Nodup := by
    intro archives
    rw [List.map_map]
    exact clean.distinct
  have links := congrArg ComparableSource.links same
  simp only [comparableStored, comparablePlanned] at links
  rw [sortLinks_eq_iff (distinct true)] at links
  have dropped := links.map fun link : ComparableLink => { link with snapshot := none }
  rw [List.map_map, List.map_map] at dropped
  have sorted := (sortLinks_eq_iff (distinct false)).mpr dropped
  have fields := congrArg (fun form : ComparableSource => { form with links := [] }) same
  simp only [comparableStored, comparablePlanned, ComparableSource.mk.injEq, true_and] at fields ⊢
  obtain ⟨title, level, kind, capturedAt, capturePosition, isGraphic, tags, file⟩ := fields
  exact ⟨title, level, kind, capturedAt, capturePosition, isGraphic, sorted, tags, file⟩

theorem comparables_archives {sources : List Source}
    (clean : ∀ plan ∈ planned, LinksClean config.unicode plan.links)
    (same : sources.map (comparableStored config true) =
      planned.map (comparablePlanned config true)) :
    sources.map (comparableStored config false) = planned.map (comparablePlanned config false) := by
  induction planned generalizing sources with
  | nil =>
      rw [List.map_nil, List.map_eq_nil_iff] at same
      rw [same]
      rfl
  | cons plan rest inductionHypothesis =>
      cases sources with
      | nil => cases same
      | cons source sources =>
          rw [List.map_cons, List.map_cons, List.cons.injEq] at same ⊢
          exact ⟨comparable_archives (clean plan List.mem_cons_self) same.1,
            inductionHypothesis (fun other inRest => clean other (List.mem_cons_of_mem _ inRest))
              same.2⟩

theorem sourcesMove_eq_false_iff {archives : Bool} :
    sourcesMove config archives geo planned = false ↔
      geo.sources.map (comparableStored config archives) =
        planned.map (comparablePlanned config archives) := by
  unfold sourcesMove
  rw [decide_eq_false_iff_not, not_not]

/-- Nothing moves exactly when the fields stay and the forms are equal, archives included. -/
theorem moves_iff (clean : ∀ plan ∈ planned, LinksClean config.unicode plan.links) :
    fieldsMove config tx geo form lat lng proofData planned = true ∨
        sourcesMove config true geo planned = true ↔
      ¬ (fieldsStay config tx geo form lat lng proofData = true ∧
        geo.sources.map (comparableStored config true) =
          planned.map (comparablePlanned config true)) := by
  rw [← sourcesMove_eq_false_iff]
  unfold fieldsMove
  cases fieldsStay config tx geo form lat lng proofData with
  | false => simp
  | true =>
      cases moved : sourcesMove config true geo planned with
      | true => simp
      | false =>
          have still := comparables_archives clean (sourcesMove_eq_false_iff.mp moved)
          rw [← sourcesMove_eq_false_iff] at still
          simp [still]

/-- A payload that passed the rules before the no-change check is compared, filed and written. -/
theorem saveVersion_admitted
    (admitted : Admitted config tx geo user form lat lng expectedVersion proofData planned) :
    saveVersion config tx geo user form lat lng note expectedVersion [] = (do
      require (fieldsMove config tx geo form lat lng proofData planned = true ∨
        sourcesMove config true geo planned = true) (.nothingChanged geo.versionNo)
      let filed ← fileVersion geo user note (buildSnapshot geo) tx.now
        (fieldsMove config tx geo form lat lng proofData planned)
      finishWrite config tx (editFields tx filed form lat lng false) planned proofData
        form.proofFiles) := by
  have opened : geo.status ≠ .closed := by
    rw [admitted.published]
    decide
  have publishing : isUnpublished geo.status = false := by
    rw [admitted.published]
    rfl
  unfold saveVersion
  simp only [require, publishing, admitted.mayEdit, admitted.position, admitted.sanitised,
    admitted.conflict, admitted.planning, creditOnPublish, if_pos opened,
    if_pos admitted.expected, bind, Except.bind, pure, Except.pure, if_true, true_or,
    Bool.false_eq_true, if_false, Bool.false_or]
  rw [admitted.image]
  simp only [admitted.floor]
  rfl

/-- `apply_sources` raises on a flag read off a file the plan took, and writes its rows else. -/
theorem applySources_eq (planning : planSources config tx (some geo) form.sources user = .ok planned)
    (keyed : RowsKeyed tx geo.sources) (oneFile : ∀ spec ∈ form.sources, spec.OneFile) :
    applySources config tx geo.sources planned =
      if planned.any (stuck planned) then .error .internal
      else .ok {
        sources := writtenRows config tx 0 [] planned
        removed := droppedFiles geo.sources planned
        taken := planned.filterMap fun plan => plan.upload.map Upload.id } := by
  obtain ⟨posted, onceSpecs, facts⟩ := planSources_facts planning keyed oneFile
  have once : (planned.filterMap fun plan => plan.spec.id).Nodup := by
    rw [← posted, List.filterMap_map] at onceSpecs
    exact onceSpecs
  have writes : writeSources config tx planned 0 [] planned =
      if planned.any (stuck planned) then .error .internal
      else .ok (writtenRows config tx 0 [] planned) :=
    writeSources_eq keyed facts once rfl (reads_nil _ _) 0
  unfold applySources
  rw [writes]
  cases planned.any (stuck planned) with
  | true => rfl
  | false => rfl

theorem leavesEqual_iff
    (planning : planSources config tx (some geo) form.sources user = .ok planned)
    (keyed : RowsKeyed tx geo.sources) (oneFile : ∀ spec ∈ form.sources, spec.OneFile)
    (reads : ∀ source ∈ geo.sources, CopiesReadable config.unicode source)
    (uploads : UploadsNew config tx geo.sources) :
    LeavesEqual config tx geo form lat lng proofData planned ↔
      planned.any (stuck planned) = false ∧
        fieldsStay config tx geo form lat lng proofData = true ∧
        geo.sources.map (comparableStored config true) = comparableReads config [] planned := by
  have clean := planSources_clean planning
  have facts := (planSources_facts planning keyed oneFile).2.2
  have sources : List.Forall₂ (SameSource config) geo.sources (writtenRows config tx 0 [] planned) ↔
      geo.sources.map (comparableStored config true) = comparableReads config [] planned :=
    (sameSources_iff clean reads).trans (stored_eq_rows_iff facts clean uploads fun _ member => member)
  unfold LeavesEqual appliedEdit
  rw [applySources_eq planning keyed oneFile, ← sources, fieldsStay_iff]
  cases planned.any (stuck planned) with
  | true =>
      constructor
      · intro leaves
        obtain ⟨edited, applying, _⟩ := leaves
        cases applying
      · intro conditions
        cases conditions.1
  | false =>
      constructor
      · intro leaves
        obtain ⟨edited, applying, same⟩ := leaves
        cases applying
        exact ⟨rfl, ⟨same.title, same.coords, same.occurredDate, same.occurredTime, same.tags,
          same.conflicts, same.proof⟩, same.sources⟩
      · intro conditions
        obtain ⟨_, ⟨title, coords, occurredDate, occurredTime, tags, conflicts, proof⟩, same⟩ :=
          conditions
        exact ⟨_, rfl, ⟨title, coords, occurredDate, occurredTime, tags, conflicts, proof, same⟩⟩

theorem finishWrite_error {refused : EventError} {files : List UploadFile}
    (failed : finishWrite config tx geo planned proofData files = .error refused) :
    applySources config tx geo.sources planned = .error refused ∨ refused.IsIntake := by
  unfold finishWrite at failed
  obtain unwritten | ⟨applied, _, failed⟩ := bind_eq_error.mp failed
  · exact .inl unwritten
  · obtain unattached | ⟨_, _, returned⟩ := bind_eq_error.mp failed
    · exact .inr (attachEvidence_error unattached)
    · cases returned

/-- The check refuses exactly the payloads whose plan compares equal to what is stored. -/
theorem saveVersion_refused_iff
    (admitted : Admitted config tx geo user form lat lng expectedVersion proofData planned)
    (keyed : RowsKeyed tx geo.sources) (oneFile : ∀ spec ∈ form.sources, spec.OneFile) :
    saveVersion config tx geo user form lat lng note expectedVersion [] =
        .error (.nothingChanged geo.versionNo) ↔
      fieldsStay config tx geo form lat lng proofData = true ∧
        geo.sources.map (comparableStored config true) =
          planned.map (comparablePlanned config true) := by
  have still : fieldsMove config tx geo form lat lng proofData planned = true ∨
      sourcesMove config true geo planned = true ↔ _ :=
    moves_iff (planSources_clean admitted.planning)
  rw [← not_iff_not, not_not] at still
  rw [saveVersion_admitted admitted, bind_eq_error, require_eq_error, ← still]
  constructor
  · intro refused
    obtain still | ⟨_, _, failed⟩ := refused
    · exact still.1
    · exfalso
      obtain limit | ⟨filed, filing, failed⟩ := bind_eq_error.mp failed
      · unfold fileVersion at limit
        obtain limit | ⟨_, _, returned⟩ := bind_eq_error.mp limit
        · rw [require_eq_error] at limit
          cases limit.2
        · cases returned
      · rw [fileVersion_ok filing] at failed
        obtain unwritten | intake := finishWrite_error failed
        · have sources : (editFields tx (filedEvent geo user note tx.now) form lat lng
              false).sources = geo.sources := rfl
          rw [sources, applySources_eq admitted.planning keyed oneFile] at unwritten
          split at unwritten
          · cases unwritten
          · cases unwritten
        · exact intake
  · intro unmoved
    exact .inl ⟨unmoved, rfl⟩

/-- The unhandled error of a save: a flag read off a file the plan took. -/
theorem saveVersion_internal_iff
    (admitted : Admitted config tx geo user form lat lng expectedVersion proofData planned)
    (keyed : RowsKeyed tx geo.sources) (oneFile : ∀ spec ∈ form.sources, spec.OneFile) :
    saveVersion config tx geo user form lat lng note expectedVersion [] = .error .internal ↔
      ¬ (fieldsStay config tx geo form lat lng proofData = true ∧
          geo.sources.map (comparableStored config true) =
            planned.map (comparablePlanned config true)) ∧
        ¬ (fieldsMove config tx geo form lat lng proofData planned = true ∧
          maxVersionsPerEvent ≤ geo.versionNo) ∧
        planned.any (stuck planned) = true := by
  have clean := planSources_clean admitted.planning
  have applying := applySources_eq admitted.planning keyed oneFile
  rw [saveVersion_admitted admitted, ← moves_iff clean]
  constructor
  · intro raised
    obtain still | ⟨_, moves, raised⟩ := bind_eq_error.mp raised
    · rw [require_eq_error] at still
      cases still.2
    · obtain limit | ⟨filed, filing, raised⟩ := bind_eq_error.mp raised
      · unfold fileVersion at limit
        obtain limit | ⟨_, _, returned⟩ := bind_eq_error.mp limit
        · rw [require_eq_error] at limit
          cases limit.2
        · cases returned
      · have room := filing
        unfold fileVersion at room
        simp only [bind_eq_ok, require_eq_ok] at room
        obtain ⟨_, room, _⟩ := room
        refine ⟨require_eq_ok.mp moves, room, ?_⟩
        rw [fileVersion_ok filing] at raised
        obtain unwritten | intake := finishWrite_error raised
        · have sources : (editFields tx (filedEvent geo user note tx.now) form lat lng
              false).sources = geo.sources := rfl
          rw [sources, applying] at unwritten
          split at unwritten
          · assumption
          · cases unwritten
        · exact intake.elim
  · intro conditions
    obtain ⟨moves, room, stuckSome⟩ := conditions
    rw [if_pos stuckSome] at applying
    have sources : (editFields tx (filedEvent geo user note tx.now) form lat lng
        false).sources = geo.sources := rfl
    have filing : fileVersion geo user note (buildSnapshot geo) tx.now
        (fieldsMove config tx geo form lat lng proofData planned) =
          .ok (filedEvent geo user note tx.now) := by
      unfold fileVersion
      simp only [bind_eq_ok, require_eq_ok, pure_eq_ok]
      exact ⟨⟨⟩, room, rfl⟩
    rw [bind_eq_error]
    refine .inr ⟨⟨⟩, require_eq_ok.mpr moves, ?_⟩
    rw [filing]
    show finishWrite _ _ _ _ _ _ = _
    unfold finishWrite
    rw [sources, applying]
    rfl

theorem filedOnce {written : Written}
    (saving : saveVersion config tx geo user form lat lng note expectedVersion [] = .ok written) :
    written.event.versions = geo.versions ++ [versionRow geo user note (buildSnapshot geo) tx.now] ∧
      written.event.versionNo = geo.versionNo + 1 := by
  obtain ⟨_, _, _, _, _, event⟩ := saveVersion_event saving
  rw [event]
  exact ⟨rfl, rfl⟩

/-- The no-change law holds of a payload exactly when the write finds the flags it reads, or
finding them otherwise does no harm. -/
theorem noChangeLaw_iff
    (admitted : Admitted config tx geo user form lat lng expectedVersion proofData planned)
    (keyed : RowsKeyed tx geo.sources) (oneFile : ∀ spec ∈ form.sources, spec.OneFile)
    (reads : ∀ source ∈ geo.sources, CopiesReadable config.unicode source)
    (uploads : UploadsNew config tx geo.sources) :
    NoChangeLaw config tx geo user form lat lng note expectedVersion proofData planned ↔
      FlagsReadable planned ∨ FlagsHarmless config tx geo form lat lng proofData planned := by
  have clean := planSources_clean admitted.planning
  have leaves : LeavesEqual config tx geo form lat lng proofData planned ↔ _ :=
    leavesEqual_iff admitted.planning keyed oneFile reads uploads
  have refused : saveVersion config tx geo user form lat lng note expectedVersion [] =
      .error (.nothingChanged geo.versionNo) ↔ _ := saveVersion_refused_iff admitted keyed oneFile
  have internal : saveVersion config tx geo user form lat lng note expectedVersion [] =
      .error .internal ↔ _ := saveVersion_internal_iff admitted keyed oneFile
  have readable : FlagsReadable planned ↔ planned.any (stuck planned) = false ∧
      comparableReads config [] planned = planned.map (comparablePlanned config true) := by
    rw [flagsReadable_iff, comparableReads_eq_iff]
    rfl
  have stays : fieldsStay config tx geo form lat lng proofData = true →
      geo.sources.map (comparableStored config true) =
        planned.map (comparablePlanned config true) →
      ¬ fieldsMove config tx geo form lat lng proofData planned = true := by
    intro fields sources moved
    exact (moves_iff clean).mp (.inl moved) ⟨fields, sources⟩
  have law : NoChangeLaw config tx geo user form lat lng note expectedVersion proofData planned ↔
      (saveVersion config tx geo user form lat lng note expectedVersion [] =
          .error (.nothingChanged geo.versionNo) ↔
        LeavesEqual config tx geo form lat lng proofData planned) ∧
      (¬ LeavesEqual config tx geo form lat lng proofData planned →
        saveVersion config tx geo user form lat lng note expectedVersion [] ≠ .error .internal) := by
    constructor
    · intro law
      exact ⟨law.refused, fun differs => (law.filed differs).1⟩
    · intro law
      exact ⟨law.1, fun differs => ⟨law.2 differs, fun _ saving => filedOnce saving⟩⟩
  rw [law, refused, leaves, readable, ne_eq, internal]
  have moved : sourcesMove config true geo planned = true ↔
      ¬ geo.sources.map (comparableStored config true) =
        planned.map (comparablePlanned config true) := by
    rw [← sourcesMove_eq_false_iff, Bool.not_eq_false]
  unfold FlagsHarmless
  rw [moved, ← Bool.not_eq_true (fieldsStay _ _ _ _ _ _ _)]
  generalize geo.sources.map (comparableStored config true) = sources at stays ⊢
  generalize comparableReads config [] planned = read
  generalize planned.map (comparablePlanned config true) = posted at stays ⊢
  cases planned.any (stuck planned) with
  | true =>
      -- the law holds when the ceiling stops the save, whatever the forms
      simp only [Bool.true_eq_false, false_and, iff_false, not_false_eq_true, true_implies,
        and_true, false_or, if_true]
      constructor
      · intro law
        by_contra room
        exact law.2 ⟨law.1, room⟩
      · intro ceiling
        exact ⟨fun both => stays both.1 both.2 ceiling.1, fun raised => raised.2 ceiling⟩
  | false =>
      -- nothing raises: the two forms are equal to the stored one together, or neither is
      simp only [true_and, Bool.false_eq_true, and_false, not_false_eq_true, implies_true,
        and_true, if_false]
      constructor
      · intro agree
        by_cases fields : fieldsStay config tx geo form lat lng proofData = true
        · by_cases equal : sources = posted
          · exact .inl (((agree.mp ⟨fields, equal⟩).2.symm).trans equal)
          · exact .inr (.inr ⟨equal, fun again => equal (agree.mpr ⟨fields, again⟩).2⟩)
        · exact .inr (.inl fields)
      · intro conditions
        obtain same | moves | differ := conditions
        · rw [same]
        · exact ⟨fun both => absurd both.1 moves, fun both => absurd both.1 moves⟩
        · exact ⟨fun both => absurd both.2 differ.1, fun both => absurd both.2 differ.2⟩

end Deciding

end Vidit.Events
