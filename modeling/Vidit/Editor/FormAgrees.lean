import Vidit.Editor.SourceForm

/-!
Contract: when the form sees no change in the source editors.

Owns:
- the fields in which an editor agrees with its source, and links that print alike: together, what
  `sourcesChanged` compares;
- which sources an untouched editor agrees with.

Does not own: what the backend reads of a post.

Proof shape: trimming shortens a link's line, so the lengths of the joined lines tell whether any
link was trimmed or left out.
-/

namespace Vidit.Editor

open Vidit.Python Vidit.Browser Vidit.Accounts Vidit.Events

/-! ### Joined texts -/

/-- Each part and the separator after it, less the last separator. -/
theorem length_intercalate {α : Type*} (separator : α) (first : List α) (rest : List (List α)) :
    ([separator].intercalate (first :: rest)).length + 1 =
      ((first :: rest).map fun part => part.length + 1).sum := by
  induction rest generalizing first with
  | nil => simp
  | cons second rest inductionHypothesis =>
      rw [List.intercalate_cons_cons, List.map_cons, List.sum_cons, ← inductionHypothesis second]
      simp only [List.length_append, List.length_singleton]
      omega

theorem intercalate_injective {α : Type*} [DecidableEq α] {separator : α}
    {left right : List (List α)}
    (leftPlain : ∀ part ∈ left, part ≠ [] ∧ separator ∉ part)
    (rightPlain : ∀ part ∈ right, part ≠ [] ∧ separator ∉ part)
    (same : [separator].intercalate left = [separator].intercalate right) : left = right := by
  have shown : ∀ parts : List (List α), (∀ part ∈ parts, part ≠ [] ∧ separator ∉ part) →
      [separator].intercalate parts = [] → parts = [] := by
    intro parts plain none
    cases parts with
    | nil => rfl
    | cons first rest =>
        have length := length_intercalate separator first rest
        have positive := List.length_pos_of_ne_nil (plain first List.mem_cons_self).1
        rw [none, List.map_cons, List.sum_cons, List.length_nil] at length
        omega
  by_cases leftEmpty : left = []
  · subst leftEmpty
    exact (shown right rightPlain same.symm).symm
  · by_cases rightEmpty : right = []
    · subst rightEmpty
      exact shown left leftPlain same
    · have leftParts := List.splitOn_intercalate separator (fun part inLeft =>
        (leftPlain part inLeft).2) leftEmpty
      have rightParts := List.splitOn_intercalate separator (fun part inRight =>
        (rightPlain part inRight).2) rightEmpty
      rw [← leftParts, same, rightParts]

theorem sortedJoin_of_perm (separator : UInt16) {left right : List Text} (perm : left.Perm right) :
    sortedJoin separator left = sortedJoin separator right := by
  have total : ∀ first second, unitsLe first second = true ∨ unitsLe second first = true := by
    intro first second
    exact textLe_total _ _
  have trans : ∀ first second third, unitsLe first second = true → unitsLe second third = true →
      unitsLe first third = true := by
    intro first second third
    exact textLe_trans
  unfold sortedJoin
  rw [(sortedBy_eq_iff_perm total trans _).mpr perm]
  intro first _ second _ below above
  exact (List.map_injective_iff.mpr fun _ _ => UInt16.toNat_inj.mp) (textLe_antisymm below above)

/-- Texts without the separator in them are told by their joined text. -/
theorem perm_of_sortedJoin_eq {separator : UInt16} {left right : List Text}
    (leftPlain : ∀ part ∈ left, part ≠ [] ∧ separator ∉ part)
    (rightPlain : ∀ part ∈ right, part ≠ [] ∧ separator ∉ part)
    (same : sortedJoin separator left = sortedJoin separator right) : left.Perm right := by
  have sorted := intercalate_injective
    (fun part member => leftPlain part (mem_sortedBy.mp member))
    (fun part member => rightPlain part (mem_sortedBy.mp member)) same
  exact (sortedBy_perm _ left).symm.trans (sorted ▸ sortedBy_perm _ right)

/-- The length of the joined text does not depend on the order of the parts. -/
theorem length_sortedJoin (separator : UInt16) {texts : List Text} (nonempty : texts ≠ []) :
    (sortedJoin separator texts).length + 1 = (texts.map fun part => part.length + 1).sum := by
  have perm := sortedBy_perm unitsLe texts
  rw [← (perm.map fun part => part.length + 1).sum_eq]
  unfold sortedJoin
  cases sorted : sortedBy unitsLe texts with
  | nil =>
      rw [sorted] at perm
      exact absurd perm.symm.eq_nil nonempty
  | cons first rest =>
      exact length_intercalate separator first rest

/-! ### The texts of ids -/

section Ids

variable (uuids : UuidSource)

theorem lt_of_isUuidChar {point : Nat} (plain : isUuidChar point = true) : point < 0x80 := by
  unfold isUuidChar at plain
  rw [Bool.or_eq_true, Bool.or_eq_true, Bool.and_eq_true, isAsciiDigit_iff, decide_eq_true_eq,
    decide_eq_true_eq, decide_eq_true_eq] at plain
  have letter : chr 'f' = 102 := rfl
  have dash : chr '-' = 45 := rfl
  omega

theorem codePoints_idText (id : Uuid) : codePoints (idText uuids id) = uuids.text id := by
  apply codePoints_units
  intro point member
  have small := lt_of_isUuidChar (uuids.text_plain id point member)
  omega

theorem idText_injective : Function.Injective (idText uuids) := by
  intro left right same
  apply uuids.text_injective
  rw [← codePoints_idText, same, codePoints_idText]

theorem idText_plain (id : Uuid) : idText uuids id ≠ [] ∧ unit ',' ∉ idText uuids id := by
  constructor
  · intro empty
    have text := codePoints_idText uuids id
    rw [empty] at text
    exact uuids.text_ne_nil id text.symm
  · intro member
    obtain ⟨point, inText, same⟩ := List.mem_map.mp member
    have plain := uuids.text_plain id point inText
    have small := lt_of_isUuidChar plain
    have comma : point = chr ',' := by
      have value := congrArg UInt16.toNat same
      rw [Nat.toUInt16, UInt16.toNat_ofNat', Nat.mod_eq_of_lt (by omega)] at value
      exact value
    rw [comma] at plain
    exact absurd plain (by decide)

theorem sortedJoin_ids_iff {left right : List Uuid} :
    sortedJoin (unit ',') (left.map (idText uuids)) =
        sortedJoin (unit ',') (right.map (idText uuids)) ↔ left.Perm right := by
  have plain : ∀ ids : List Uuid, ∀ part ∈ ids.map (idText uuids), part ≠ [] ∧ unit ',' ∉ part := by
    intro ids part member
    obtain ⟨id, _, rfl⟩ := List.mem_map.mp member
    exact idText_plain uuids id
  constructor
  · intro same
    exact (List.map_perm_map_iff (idText_injective uuids)).mp
      (perm_of_sortedJoin_eq (plain left) (plain right) same)
  · intro perm
    exact sortedJoin_of_perm _ (perm.map _)

end Ids

/-! ### What `sourcesChanged` compares -/

section Comparing

variable (wire : Wire)

/-- The editor holds its source as it is stored, links apart. -/
structure FieldsAgree (source : SourceRead) (draft : SourceDraft) : Prop where
  id : draft.id = some source.id
  title : trim draft.title = source.title
  level : draft.level = source.level
  kind : draft.kind.getD .unknown = source.kind
  capturedAt : instant wire draft.capturedAt draft.storedCapturedAt = source.capturedAt
  capturePosition : (sourceCreatePayload wire draft).capturePosition = source.capturePosition
  isGraphic : draft.isGraphic = true → source.isGraphic = true
  tags : source.tagIds.Perm draft.tagIds
  file : draft.file = source.mediaId.map .stored

/-- The links of the editor print as the stored ones. -/
def PrintAlike (source : SourceRead) (draft : SourceDraft) : Prop :=
  sortedJoin (unit '\n') (source.links.map storedLine) =
    sortedJoin (unit '\n') ((linkPosts wire draft.links []).map postedLine)

/-- A file that stands and names the stored one, or none. -/
theorem file_iff {file : Option SourceFile} {mediaId : Option Uuid} :
    (mediaReference file = mediaId ∧ uploadReference file = none) ∧
        (fileRunning file = false ∧ file ≠ some .failed) ↔
      file = mediaId.map .stored := by
  cases file with
  | none =>
      cases mediaId <;> simp [mediaReference, uploadReference, fileRunning]
  | some file =>
      cases file <;> cases mediaId <;> simp [mediaReference, uploadReference, fileRunning]

variable (uuids : UuidSource) {source : SourceRead} {draft : SourceDraft}

theorem sourceChanged_eq_false_iff :
    sourceChanged wire uuids source draft = false ↔
      FieldsAgree wire source draft ∧ PrintAlike wire source draft := by
  have flag : ((sourceCreatePayload wire draft).isGraphic && !source.isGraphic) = false ↔
      (draft.isGraphic = true → source.isGraphic = true) := by
    show (draft.isGraphic && !source.isGraphic) = false ↔ _
    cases draft.isGraphic <;> cases source.isGraphic <;> decide
  have upload : (sourceCreatePayload wire draft).uploadId.isSome = false ↔
      uploadReference draft.file = none := by
    rw [Option.isSome_eq_false_iff, Option.isNone_iff_eq_none]
    rfl
  unfold sourceChanged
  simp only [Bool.or_eq_false_iff, bne_eq_false_iff_eq, decide_eq_false_iff_not]
  rw [flag, upload]
  constructor
  · intro unchanged
    obtain ⟨⟨⟨id, media, upload⟩, running, failed⟩,
      ⟨⟨⟨⟨⟨⟨title, level⟩, kind⟩, capturedAt⟩, capturePosition⟩, graphic⟩, links⟩, tags⟩ := unchanged
    have file := file_iff.mp ⟨⟨media, upload⟩, running, failed⟩
    exact ⟨⟨id, title, level, kind, capturedAt, capturePosition, graphic,
      (sortedJoin_ids_iff uuids).mp tags, file⟩, links⟩
  · intro agrees
    obtain ⟨fields, links⟩ := agrees
    obtain ⟨⟨media, upload⟩, running, failed⟩ := file_iff.mpr fields.file
    have tags := (sortedJoin_ids_iff uuids).mpr fields.tags
    exact ⟨⟨⟨fields.id, media, upload⟩, running, failed⟩,
      ⟨⟨⟨⟨⟨⟨fields.title, fields.level⟩, fields.kind⟩, fields.capturedAt⟩, fields.capturePosition⟩,
        fields.isGraphic⟩, links⟩, tags⟩

/-- The form sees no change exactly where every editor agrees with its source, in place. -/
theorem sourcesChanged_eq_false_iff {stored : List SourceRead} {drafts : List SourceDraft} :
    sourcesChanged wire uuids stored drafts = false ↔
      List.Forall₂ (FieldsAgree wire) stored drafts ∧ List.Forall₂ (PrintAlike wire) stored drafts := by
  induction stored generalizing drafts with
  | nil =>
      cases drafts with
      | nil => simp [sourcesChanged]
      | cons draft drafts => simp [sourcesChanged]
  | cons source stored inductionHypothesis =>
      cases drafts with
      | nil => simp [sourcesChanged]
      | cons draft drafts =>
          have split : sourcesChanged wire uuids (source :: stored) (draft :: drafts) =
              (sourceChanged wire uuids source draft || sourcesChanged wire uuids stored drafts) := by
            unfold sourcesChanged
            rw [List.zip_cons_cons, List.any_cons, Bool.or_left_comm]
            congr 1
            simp
          rw [split, Bool.or_eq_false_iff, inductionHypothesis, sourceChanged_eq_false_iff,
            List.forall₂_cons, List.forall₂_cons]
          tauto

end Comparing

/-! ### Untouched editors -/

section Seeds

variable (wire : Wire)

/-- What an untouched editor keeps of a link: a URL and a copy that `trim` leaves as they are. -/
structure LinkKept (link : SourceLinkRead) : Prop where
  url : trim link.url = link.url
  shown : link.url ≠ []
  copy : trim (link.archived.getD []) = link.archived.getD []

/-- What an untouched editor keeps of a source. -/
structure EditorKeeps (source : SourceRead) : Prop where
  title : trim source.title = source.title
  capturePosition : ∀ point, source.capturePosition = some point →
    hasCapturePosition source.kind = true ∧ inBounds point = true
  links : ∀ link ∈ source.links, LinkKept link

theorem instant_seed (stored : Option Text) :
    instant wire (toDatetimeLocalUTC wire stored) stored = stored := by
  unfold instant
  cases stored with
  | none => rfl
  | some text => simp

theorem coordinatePair_seed (point : Point) :
    coordinatePair wire (wire.numberText point.lat) (wire.numberText point.lng) =
      if inBounds point then some point else none := by
  unfold coordinatePair cleanNumber
  rw [if_neg (wire.numberText_shown _), if_neg (wire.numberText_shown _), wire.number_numberText,
    wire.number_numberText]
  rfl

theorem coordinatePair_blank : coordinatePair wire [] [] = none := by
  rfl

variable {source : SourceRead}

theorem fieldsAgree_seed_iff :
    FieldsAgree wire source (sourceDraftFrom wire source) ↔
      trim source.title = source.title ∧ ∀ point, source.capturePosition = some point →
        hasCapturePosition source.kind = true ∧ inBounds point = true := by
  have position : (sourceCreatePayload wire (sourceDraftFrom wire source)).capturePosition =
        source.capturePosition ↔
      ∀ point, source.capturePosition = some point →
        hasCapturePosition source.kind = true ∧ inBounds point = true := by
    unfold sourceCreatePayload sourceDraftFrom
    cases held : source.capturePosition with
    | none => simp [coordinatePair_blank]
    | some point =>
        simp only [Option.map_some, Option.getD_some, coordinatePair_seed, Option.some.injEq,
          forall_eq']
        cases hasCapturePosition source.kind <;> cases inBounds point <;> simp
  rw [← position]
  constructor
  · intro fields
    exact ⟨fields.title, fields.capturePosition⟩
  · intro kept
    exact ⟨rfl, kept.1, rfl, rfl, instant_seed wire _, kept.2, id, List.Perm.refl _, rfl⟩

/-! ### Trimmed lines -/

theorem trim_sublist (text : Text) : (trim text).Sublist text := by
  unfold trim
  have inner := (List.dropWhile_sublist isTrimmed (l := (text.dropWhile isTrimmed).reverse)).reverse
  rw [List.reverse_reverse] at inner
  exact inner.trans (List.dropWhile_sublist _)

theorem trim_eq_of_length {text : Text} (whole : (trim text).length = text.length) :
    trim text = text :=
  (trim_sublist text).eq_of_length whole

theorem orNull_getD (text : Text) : (orNull text).getD [] = text := by
  unfold orNull
  split
  · rename_i empty
    exact empty.symm
  · rfl

/-- The name of `null` is shorter than any instant, and so is the value of an input. -/
theorem length_seedInstant {link : SourceLinkRead} (url : Text)
    (long : ∀ text, link.postedAt = some text → 16 ≤ text.length) :
    ((instant wire (linkDraftOf wire link).postedAt
        (linkInstant (linkDraftOf wire link) url)).getD (units (str "null"))).length ≤
      (link.postedAt.getD (units (str "null"))).length := by
  have name : (units (str "null")).length = 4 := rfl
  show ((instant wire (toDatetimeLocalUTC wire link.postedAt)
    (if link.url = url then link.postedAt else none)).getD _).length ≤ _
  split
  · rw [instant_seed]
  · show ((orNull (toDatetimeLocalUTC wire link.postedAt)).getD _).length ≤ _
    unfold orNull
    cases posted : link.postedAt with
    | none => exact le_rfl
    | some text =>
        have wide := long text posted
        have short : (toDatetimeLocalUTC wire (some text)).length ≤ 16 := by
          unfold toDatetimeLocalUTC
          split
          · exact Nat.zero_le _
          · exact List.length_take_le _ _
        split
        · rw [Option.getD_none, Option.getD_some, name]
          omega
        · rw [Option.getD_some, Option.getD_some]
          omega

/-- The lengths of lines, each with the break after it. -/
def totalLength (lines : List Text) : Nat :=
  (lines.map fun line => line.length + 1).sum

theorem totalLength_cons (line : Text) (rest : List Text) :
    totalLength (line :: rest) = line.length + 1 + totalLength rest := by
  unfold totalLength
  rw [List.map_cons, List.sum_cons]

/-- What an untouched row posts. -/
def seedPost (link : SourceLinkRead) : LinkPost :=
  ⟨trim link.url, instant wire (linkDraftOf wire link).postedAt
    (linkInstant (linkDraftOf wire link) (trim link.url)), orNull (trim (link.archived.getD []))⟩

theorem linkPosts_seed_cons (link : SourceLinkRead) (rest : List LinkDraft) (seen : List Text) :
    linkPosts wire (linkDraftOf wire link :: rest) seen =
      if trim link.url = [] ∨ trim link.url ∈ seen then linkPosts wire rest seen
      else seedPost wire link :: linkPosts wire rest (trim link.url :: seen) := by
  rfl

/-- Trimming shortens a line, unless it leaves the link as it is. -/
theorem length_seedPost {link : SourceLinkRead}
    (long : ∀ text, link.postedAt = some text → 16 ≤ text.length) (shown : trim link.url ≠ []) :
    (postedLine (seedPost wire link)).length ≤ (storedLine link).length ∧
      ((postedLine (seedPost wire link)).length = (storedLine link).length → LinkKept link) := by
  have url := (trim_sublist link.url).length_le
  have copy := (trim_sublist (link.archived.getD [])).length_le
  have date := length_seedInstant wire (trim link.url) long
  simp only [seedPost, postedLine, storedLine, linkLine, orNull_getD, List.length_append, List.length_cons]
  constructor
  · omega
  · intro same
    have kept : trim link.url = link.url := trim_eq_of_length (by omega)
    exact ⟨kept, kept ▸ shown, trim_eq_of_length (by omega)⟩

/-- What untouched editors post prints shorter, unless every link is kept. -/
theorem totalLength_linkPosts {links : List SourceLinkRead}
    (long : ∀ link ∈ links, ∀ text, link.postedAt = some text → 16 ≤ text.length)
    (seen : List Text) :
    totalLength ((linkPosts wire (links.map (linkDraftOf wire)) seen).map postedLine) ≤
        totalLength (links.map storedLine) ∧
      (totalLength ((linkPosts wire (links.map (linkDraftOf wire)) seen).map postedLine) =
          totalLength (links.map storedLine) → ∀ link ∈ links, LinkKept link) := by
  induction links generalizing seen with
  | nil => exact ⟨le_rfl, fun _ link member => absurd member List.not_mem_nil⟩
  | cons link rest inductionHypothesis =>
      have later := fun other inRest => long other (List.mem_cons_of_mem _ inRest)
      rw [List.map_cons, List.map_cons, totalLength_cons, linkPosts_seed_cons]
      split
      · have bound := (inductionHypothesis later seen).1
        constructor
        · omega
        · intro same
          omega
      · rename_i fresh
        have head := length_seedPost wire (long link List.mem_cons_self) fun empty =>
          fresh (.inl empty)
        have tail := inductionHypothesis later (trim link.url :: seen)
        rw [List.map_cons, totalLength_cons]
        constructor
        · exact Nat.add_le_add (Nat.add_le_add_right head.1 1) tail.1
        · intro same other member
          have headBound := head.1
          have tailBound := tail.1
          obtain rfl | inRest := List.mem_cons.mp member
          · exact head.2 (by omega)
          · exact tail.2 (by omega) other inRest

/-- Kept links are posted as they are. -/
theorem linkPosts_kept {links : List SourceLinkRead} {seen : List Text}
    (kept : ∀ link ∈ links, LinkKept link)
    (distinct : (links.map SourceLinkRead.url).Nodup)
    (unseen : ∀ link ∈ links, link.url ∉ seen) :
    linkPosts wire (links.map (linkDraftOf wire)) seen =
      links.map fun link => ⟨link.url, link.postedAt, orNull (link.archived.getD [])⟩ := by
  induction links generalizing seen with
  | nil => rfl
  | cons link rest inductionHypothesis =>
      have here := kept link List.mem_cons_self
      have new := unseen link List.mem_cons_self
      rw [List.map_cons, List.nodup_cons] at distinct
      have date : instant wire (linkDraftOf wire link).postedAt
          (linkInstant (linkDraftOf wire link) link.url) = link.postedAt := by
        show instant wire (toDatetimeLocalUTC wire link.postedAt)
          (if link.url = link.url then link.postedAt else none) = _
        rw [if_pos rfl, instant_seed]
      rw [List.map_cons, List.map_cons, linkPosts_seed_cons, seedPost, here.url,
        if_neg (by simp [here.shown, new]), here.copy, date]
      congr 1
      apply inductionHypothesis (fun other inRest => kept other (List.mem_cons_of_mem _ inRest))
        distinct.2
      intro other inRest again
      obtain same | old := List.mem_cons.mp again
      · exact distinct.1 (same ▸ List.mem_map_of_mem inRest)
      · exact unseen other (List.mem_cons_of_mem _ inRest) old

theorem seed_links : linkPosts wire (sourceDraftFrom wire source).links [] =
    linkPosts wire (source.links.map (linkDraftOf wire)) [] := by
  show linkPosts wire (if source.links = [] then [blankLink] else _) [] = _
  split
  · rename_i empty
    rw [empty]
    rfl
  · rfl

/-- The links of an untouched editor print as the stored ones when each of them is kept. -/
theorem printAlike_seed_iff
    (long : ∀ link ∈ source.links, ∀ text, link.postedAt = some text → 16 ≤ text.length)
    (distinct : (source.links.map SourceLinkRead.url).Nodup) :
    PrintAlike wire source (sourceDraftFrom wire source) ↔ ∀ link ∈ source.links, LinkKept link := by
  unfold PrintAlike
  rw [seed_links]
  constructor
  · intro same
    apply (totalLength_linkPosts wire long []).2
    by_cases none : source.links = []
    · rw [none]
      rfl
    · have lines : source.links.map storedLine ≠ [] := by simpa
      have stored := length_sortedJoin (unit '\n') lines
      by_cases dropped : linkPosts wire (source.links.map (linkDraftOf wire)) [] = []
      · -- a stored line is never blank, so what prints alike is not dropped
        rw [same, dropped] at stored
        obtain ⟨link, rest, listed⟩ := List.exists_cons_of_ne_nil none
        have line : 2 ≤ (storedLine link).length := by
          unfold storedLine linkLine
          simp only [List.length_append, List.length_cons]
          omega
        rw [listed, List.map_cons, List.map_cons, List.sum_cons] at stored
        have blank : (sortedJoin (unit '\n') (([] : List LinkPost).map postedLine)).length = 0 := rfl
        omega
      · have kept : (linkPosts wire (source.links.map (linkDraftOf wire)) []).map postedLine ≠
            [] := by
          simpa
        have posted := length_sortedJoin (unit '\n') kept
        unfold totalLength
        rw [← stored, ← posted, same]
  · intro kept
    rw [linkPosts_kept wire kept distinct (by simp), List.map_map]
    congr 1
    apply List.map_congr_left
    intro link _
    simp [postedLine, storedLine, linkLine, orNull_getD]

end Seeds

end Vidit.Editor
