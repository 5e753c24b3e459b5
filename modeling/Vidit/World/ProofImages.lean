import Vidit.Evidence.ImageRewrite
import Vidit.World.OwnImages

/-!
Contract: which file an image of a written proof comes from.

Owns:
- `MatchesOneToOne`: when `_match_proof_files` accepts placeholders and files, and the pairs it
  leaves;
- `ShowsItsFiles`: an image whose src was a placeholder shows what was stored of the file of that
  name, and every file is stored once.

Does not own: whether the body and the refused foreign srcs are the event's own
(`Vidit.World.OwnImages`).
-/

namespace Vidit.World

open Vidit.Python Vidit.Evidence Vidit.Events Vidit.Library

/-- The name an uploaded file goes by. -/
def nameOf (file : UploadFile) : Option Str :=
  safeOriginalFilename file.filename

/-- The placeholders of a body, each once, in document order. -/
def placeholdersOf (proofHtml : Option Body) : List Str :=
  (extractImageSrcs (proofHtml.getD [])).filter isPlaceholder

/-- `_match_proof_files` pairs placeholders and files off. -/
structure MatchesOneToOne : Prop where
  /-- It accepts exactly the files that have names, each another one, when these are the names of
  the placeholders. -/
  accepts : ∀ proofHtml proofFiles,
    (∃ pairs, matchProofFiles proofHtml proofFiles = .ok pairs) ↔
      ∃ names : List Str, proofFiles.map nameOf = names.map some ∧ names.Nodup ∧
        ∀ name, name ∈ names ↔ name ∈ (placeholdersOf proofHtml).map placeholderName
  /-- Each placeholder gets the file of its name, and each file goes to one placeholder. -/
  pairs : ∀ proofHtml proofFiles pairs, matchProofFiles proofHtml proofFiles = .ok pairs →
    pairs.map Prod.fst = placeholdersOf proofHtml ∧
      (∀ pair ∈ pairs, nameOf pair.2 = some (placeholderName pair.1)) ∧
      (pairs.map Prod.snd).Perm proofFiles

/-- What an image of the body is to show: the objects stored for its placeholder, or its src. -/
def shownFor (stored : List (Str × List Media)) (src : Str) : List Str :=
  match stored.lookup src with
  | some rows => rows.map Media.storageUrl
  | none => [src]

/-- A write with a body stores each uploaded file once, under the placeholder of its name, and
shows it where the placeholder stood: the objects in the order they were stored, except that an
image whose src is hidden from the search is cut to the first of them. The image library never
reads a file as no image at all. -/
def ShowsItsFiles : Prop :=
  ∀ (refs : CharRefs) (document : Document) (config : Config) (tx : Events.Transaction)
    (geo : Event) (proofFiles : List UploadFile) (first : Nat) (attached : Attached),
    document.Sanitised →
    attachEvidence config tx geo (some (document.body refs.decode)) proofFiles first =
      .ok attached →
    (∀ file ∈ proofFiles, file.digests ≠ .ok []) →
    ∃ stored : List (Str × List Media),
      attached.stored = stored.flatMap Prod.snd ∧
      stored.map Prod.fst = placeholdersOf (some (document.body refs.decode)) ∧
      (stored.map fun entry => some (placeholderName entry.1)).Perm (proofFiles.map nameOf) ∧
      (∀ entry ∈ stored, ∃ file ∈ proofFiles, ∃ draw digests,
        nameOf file = some (placeholderName entry.1) ∧ file.digests = .ok digests ∧
          entry.2 = storedImages config tx geo.ownerId file draw digests) ∧
      (imageSrcs ((rewriteDocument refs (srcByPlaceholder stored) document).body refs.decode) =
          (imageSrcs (document.body refs.decode)).flatMap (shownFor stored) ↔
        ∀ tag, Piece.startTag tag ∈ document → tag.HidesSrc →
          ∀ written, tag.src? = some written →
            (shownFor stored (refs.decode written)).length ≤ 1)

/-! ### Names -/

/-- The files under their names, once all of them have one and no two share it. -/
theorem filesByName_ok_iff {files : List UploadFile} {named result : List (Str × UploadFile)}
    (nodup : (named.map Prod.fst).Nodup) :
    filesByName files named = .ok result ↔
      ∃ names, files.map nameOf = names.map some ∧ (named.map Prod.fst ++ names).Nodup ∧
        result = named ++ names.zip files := by
  induction files generalizing named with
  | nil =>
      simp only [filesByName, pure_eq_ok, List.map_nil]
      constructor
      · intro same
        exact ⟨[], rfl, by simpa using nodup, by simp [same]⟩
      · intro split
        obtain ⟨names, none, _, rfl⟩ := split
        have empty : names = [] := List.map_eq_nil_iff.mp none.symm
        simp [empty]
  | cons file rest inductionHypothesis =>
      have readName : safeOriginalFilename file.filename = nameOf file := rfl
      rw [filesByName, readName]
      cases own : nameOf file with
      | none =>
          simp only [throw, throwThe, MonadExceptOf.throw, reduceCtorEq, false_iff, List.map_cons,
            own]
          intro split
          obtain ⟨names, named, _⟩ := split
          cases names with
          | nil => simp at named
          | cons first later => simp at named
      | some name =>
          have longer : (named ++ [(name, file)]).map Prod.fst = named.map Prod.fst ++ [name] := by
            rw [List.map_append]
            rfl
          simp only [bind_eq_ok, require_eq_ok, List.map_cons, own]
          constructor
          · intro run
            obtain ⟨_, fresh, run⟩ := run
            have apart : ((named ++ [(name, file)]).map Prod.fst).Nodup := by
              rw [longer]
              rw [← List.concat_eq_append]
              exact nodup.concat fresh
            obtain ⟨names, same, distinct, rfl⟩ := (inductionHypothesis apart).mp run
            rw [longer, List.append_assoc] at distinct
            refine ⟨name :: names, by rw [same, List.map_cons], distinct, ?_⟩
            rw [List.zip_cons_cons, List.append_assoc]
            rfl
          · intro split
            obtain ⟨names, same, distinct, rfl⟩ := split
            obtain ⟨first, later, rfl⟩ : ∃ first later, names = first :: later := by
              cases names with
              | nil => simp at same
              | cons first later => exact ⟨first, later, rfl⟩
            rw [List.map_cons, List.cons.injEq, Option.some.injEq] at same
            obtain ⟨rfl, same⟩ := same
            have cut : ((named.map Prod.fst ++ [name]) ++ later).Nodup := by
              rw [List.append_assoc]
              exact distinct
            have apart := (List.nodup_append.mp cut).1
            rw [← longer] at apart cut
            have fresh : name ∉ named.map Prod.fst := by
              intro member
              rw [longer] at apart
              exact (List.nodup_append.mp apart).2.2 name member name (by simp) rfl
            refine ⟨⟨⟩, fresh, (inductionHypothesis apart).mpr ⟨later, same, cut, ?_⟩⟩
            rw [List.zip_cons_cons, List.append_assoc]
            rfl

theorem filesByName_nil_ok_iff {files : List UploadFile} {result : List (Str × UploadFile)} :
    filesByName files [] = .ok result ↔
      ∃ names : List Str, files.map nameOf = names.map some ∧ names.Nodup ∧
        result = names.zip files := by
  have empty : (([] : List (Str × UploadFile)).map Prod.fst).Nodup := List.nodup_nil
  rw [filesByName_ok_iff empty]
  simp only [List.map_nil, List.nil_append]

/-- A name is looked up where it was filed. -/
theorem lookup_zip_of_mem {names : List Str} {files : List UploadFile}
    (same : files.map nameOf = names.map some) {name : Str} (listed : name ∈ names) :
    ∃ file ∈ files, (names.zip files).lookup name = some file ∧ nameOf file = some name := by
  induction names generalizing files with
  | nil => exact absurd listed (List.not_mem_nil)
  | cons first later inductionHypothesis =>
      obtain ⟨file, rest, rfl⟩ : ∃ file rest, files = file :: rest := by
        cases files with
        | nil => simp at same
        | cons file rest => exact ⟨file, rest, rfl⟩
      rw [List.map_cons, List.map_cons, List.cons.injEq] at same
      rw [List.zip_cons_cons, List.lookup_cons]
      by_cases here : name = first
      · subst here
        exact ⟨file, List.mem_cons_self, by simp, same.1⟩
      · have inLater := (List.mem_cons.mp listed).resolve_left here
        obtain ⟨other, inRest, found, named⟩ := inductionHypothesis same.2 inLater
        have different : (name == first) = false := beq_false_of_ne here
        rw [different]
        exact ⟨other, List.mem_cons_of_mem _ inRest, found, named⟩

/-- The files, looked up by their names in order. -/
theorem map_lookup_zip {names : List Str} {files : List UploadFile}
    (same : files.map nameOf = names.map some) (distinct : names.Nodup) :
    names.map (fun name => (names.zip files).lookup name) = files.map some := by
  induction names generalizing files with
  | nil =>
      have empty : files = [] := List.map_eq_nil_iff.mp same
      rw [empty]
      rfl
  | cons first later inductionHypothesis =>
      obtain ⟨file, rest, rfl⟩ : ∃ file rest, files = file :: rest := by
        cases files with
        | nil => simp at same
        | cons file rest => exact ⟨file, rest, rfl⟩
      rw [List.map_cons, List.map_cons, List.cons.injEq] at same
      have apart := List.nodup_cons.mp distinct
      rw [List.map_cons, List.map_cons, ← inductionHypothesis same.2 apart.2]
      have here : ((first :: later).zip (file :: rest)).lookup first = some file := by
        simp
      rw [here]
      congr 1
      apply List.map_congr_left
      intro name member
      have different : (name == first) = false := by
        apply beq_false_of_ne
        intro equal
        exact apart.1 (equal ▸ member)
      rw [List.zip_cons_cons, List.lookup_cons, different]

/-- Two placeholders of one name are one. -/
theorem placeholderName_injective {first second : Str} (placed : isPlaceholder first = true)
    (other : isPlaceholder second = true)
    (same : placeholderName first = placeholderName second) : first = second := by
  unfold isPlaceholder startsWith at placed other
  rw [List.isPrefixOf_iff_prefix] at placed other
  obtain ⟨one, rfl⟩ := placed
  obtain ⟨two, rfl⟩ := other
  unfold placeholderName at same
  rw [List.drop_left, List.drop_left] at same
  rw [same]

theorem isPlaceholder_of_mem {proofHtml : Option Body} {src : Str}
    (listed : src ∈ placeholdersOf proofHtml) : isPlaceholder src = true :=
  (List.mem_filter.mp listed).2

theorem nodup_eraseDups (srcs : List Str) : srcs.eraseDups.Nodup := by
  match srcs with
  | [] => exact List.nodup_nil
  | src :: rest =>
      rw [List.eraseDups_cons]
      apply List.nodup_cons.mpr
      refine ⟨?_, nodup_eraseDups _⟩
      intro again
      have kept := (List.mem_filter.mp (List.mem_eraseDups.mp again)).2
      simp at kept
termination_by srcs.length
decreasing_by
  have shorter := List.length_filter_le (fun other => !other == src) rest
  simp only [List.length_cons]
  omega

theorem nodup_placeholderNames (proofHtml : Option Body) :
    ((placeholdersOf proofHtml).map placeholderName).Nodup := by
  have distinct : (placeholdersOf proofHtml).Nodup := by
    unfold placeholdersOf extractImageSrcs
    exact List.Nodup.filter _ (nodup_eraseDups _)
  apply List.Nodup.map_on _ distinct
  intro first inFirst second inSecond same
  exact placeholderName_injective (isPlaceholder_of_mem inFirst) (isPlaceholder_of_mem inSecond)
    same

/-! ### Pairs -/

/-- A placeholder with the file of its name, or the refusal that it has none. -/
def pairUp (names : List Str) (files : List UploadFile) (src : Str) :
    Except EventError (Str × UploadFile) := do
  let file ← orRefuse ((names.zip files).lookup (placeholderName src))
    (.proofFilesMismatch (.unmatchedPlaceholder (placeholderName src)))
  pure (src, file)

/-- What a match that passes has read. -/
theorem matchProofFiles_ok {proofHtml : Option Body} {proofFiles : List UploadFile}
    {pairs : List (Str × UploadFile)}
    (matched : matchProofFiles proofHtml proofFiles = .ok pairs) :
    ∃ names : List Str, proofFiles.map nameOf = names.map some ∧ names.Nodup ∧
      (∀ name ∈ names, name ∈ (placeholdersOf proofHtml).map placeholderName) ∧
      (placeholdersOf proofHtml).mapM (pairUp names proofFiles) = .ok pairs := by
  unfold matchProofFiles at matched
  simp only [bind_eq_ok, require_eq_ok, pure_eq_ok] at matched
  obtain ⟨named, filed, found, pairing, _, referenced, rfl⟩ := matched
  obtain ⟨names, same, distinct, rfl⟩ := filesByName_nil_ok_iff.mp filed
  refine ⟨names, same, distinct, ?_, pairing⟩
  have lengths : names.length = proofFiles.length := by
    have := congrArg List.length same
    simpa using this.symm
  rw [List.map_fst_zip lengths.le] at referenced
  intro name member
  by_contra unknown
  exact List.filter_eq_nil_iff.mp referenced name member (decide_eq_true unknown)

theorem lookup_of_pair {names : List Str} {files : List UploadFile} {src : Str}
    {pair : Str × UploadFile}
    (paired : pairUp names files src = .ok pair) :
    pair.1 = src ∧ (names.zip files).lookup (placeholderName src) = some pair.2 := by
  unfold pairUp at paired
  simp only [bind_eq_ok, orRefuse_eq_ok, pure_eq_ok] at paired
  obtain ⟨file, found, rfl⟩ := paired
  exact ⟨rfl, found⟩

theorem mem_of_lookup_zip {names : List Str} {files : List UploadFile} {name : Str}
    {file : UploadFile} (found : (names.zip files).lookup name = some file) : name ∈ names := by
  obtain ⟨earlier, later, cut, _⟩ := List.lookup_eq_some_iff.mp found
  have member : (name, file) ∈ names.zip files := by
    rw [cut]
    simp
  exact (List.of_mem_zip member).1

/-- Each placeholder gets the file of its name, and each file goes to one placeholder. -/
theorem pairs_of_matchProofFiles {proofHtml : Option Body} {proofFiles : List UploadFile}
    {pairs : List (Str × UploadFile)}
    (matched : matchProofFiles proofHtml proofFiles = .ok pairs) :
    pairs.map Prod.fst = placeholdersOf proofHtml ∧
      (∀ pair ∈ pairs, nameOf pair.2 = some (placeholderName pair.1)) ∧
      (pairs.map Prod.snd).Perm proofFiles := by
  obtain ⟨names, same, distinct, referenced, pairing⟩ := matchProofFiles_ok matched
  refine ⟨matchProofFiles_placeholders matched, ?_, ?_⟩
  · intro pair member
    obtain ⟨src, _, paired⟩ := exists_of_mapM_eq_ok pairing member
    obtain ⟨rfl, found⟩ := lookup_of_pair paired
    obtain ⟨file, _, foundToo, named⟩ :=
      lookup_zip_of_mem same (mem_of_lookup_zip found)
    rw [found] at foundToo
    rw [Option.some.inj foundToo]
    exact named
  · have looked : pairs.map (fun pair => some pair.2) =
        (placeholdersOf proofHtml).map fun src =>
          (names.zip proofFiles).lookup (placeholderName src) := by
      apply map_eq_of_mapM_eq_ok pairing
      intro src pair paired
      exact (lookup_of_pair paired).2.symm
    have sameNames : ((placeholdersOf proofHtml).map placeholderName).Perm names := by
      apply (List.perm_ext_iff_of_nodup (nodup_placeholderNames proofHtml) distinct).mpr
      intro name
      refine ⟨?_, referenced name⟩
      intro placed
      obtain ⟨src, listed, rfl⟩ := List.mem_map.mp placed
      obtain ⟨pair, _, paired⟩ := exists_output_of_mapM_eq_ok pairing listed
      exact mem_of_lookup_zip (lookup_of_pair paired).2
    have files : (pairs.map fun pair => some pair.2).Perm (proofFiles.map some) := by
      rw [looked, ← map_lookup_zip same distinct]
      have mapped := sameNames.map fun name => (names.zip proofFiles).lookup name
      rwa [List.map_map] at mapped
    have read := files.filterMap id
    simpa [List.filterMap_map, Function.comp_def] using read

theorem matchesOneToOne : MatchesOneToOne where
  accepts proofHtml proofFiles := by
    constructor
    · intro passes
      obtain ⟨pairs, matched⟩ := passes
      obtain ⟨names, same, distinct, referenced, pairing⟩ := matchProofFiles_ok matched
      refine ⟨names, same, distinct, fun name => ⟨referenced name, ?_⟩⟩
      intro placed
      obtain ⟨src, listed, rfl⟩ := List.mem_map.mp placed
      obtain ⟨pair, _, paired⟩ := exists_output_of_mapM_eq_ok pairing listed
      exact mem_of_lookup_zip (lookup_of_pair paired).2
    · intro named
      obtain ⟨names, same, distinct, agree⟩ := named
      have lengths : names.length = proofFiles.length := by
        have := congrArg List.length same
        simpa using this.symm
      have passes : ∀ src ∈ placeholdersOf proofHtml, ∃ pair,
          pairUp names proofFiles src = .ok pair := by
        intro src listed
        have placed := (agree _).mpr (List.mem_map_of_mem (f := placeholderName) listed)
        obtain ⟨file, _, found, _⟩ := lookup_zip_of_mem same placed
        exact ⟨(src, file), by simp [pairUp, found, orRefuse]⟩
      obtain ⟨pairs, pairing⟩ := exists_mapM_eq_ok passes
      refine ⟨pairs, ?_⟩
      unfold matchProofFiles
      simp only [bind_eq_ok, require_eq_ok, pure_eq_ok]
      refine ⟨names.zip proofFiles, filesByName_nil_ok_iff.mpr ⟨names, same, distinct, rfl⟩,
        pairs, pairing, ⟨⟩, ?_, rfl⟩
      rw [List.map_fst_zip lengths.le]
      apply List.filter_eq_nil_iff.mpr
      intro name member unknown
      exact of_decide_eq_true unknown ((agree name).mp member)
  pairs _ _ _ matched := pairs_of_matchProofFiles matched

/-! ### Images -/

section Images

variable {config : Config} {tx : Events.Transaction} {userId : Uuid}

/-- Each placeholder is stored with the objects of its file. -/
theorem storeProofImages_ok {first : Nat} {pairs : List (Str × UploadFile)}
    {stored : List (Str × List Media)}
    (storing : storeProofImages config tx userId first pairs = .ok stored) :
    List.Forall₂ (fun pair entry => entry.1 = pair.1 ∧ ∃ draw digests,
      pair.2.digests = .ok digests ∧
        entry.2 = storedImages config tx userId pair.2 draw digests) pairs stored := by
  induction pairs generalizing first stored with
  | nil =>
      simp only [storeProofImages, pure_eq_ok] at storing
      subst storing
      exact .nil
  | cons pair pairs inductionHypothesis =>
      simp only [storeProofImages, bind_eq_ok, mapError_eq_ok, pure_eq_ok] at storing
      obtain ⟨digests, read, later, storingLater, rfl⟩ := storing
      exact .cons ⟨rfl, first, digests, read, rfl⟩ (inductionHypothesis storingLater)

variable (config tx userId) in
theorem storedImages_ne_nil (file : UploadFile) (draw : Nat) {digests : List Str}
    (some : digests ≠ []) : storedImages config tx userId file draw digests ≠ [] := by
  unfold storedImages
  intro none
  exact some (by simpa using none)

/-- What a search finds for a src is what the image is to show. -/
theorem mappedSrcs_srcByPlaceholder {stored : List (Str × List Media)}
    (some : ∀ entry ∈ stored, entry.2 ≠ []) (src : Str) :
    mappedSrcs (srcByPlaceholder stored) src = shownFor stored src := by
  unfold mappedSrcs srcByPlaceholder shownFor
  cases found : stored.lookup src with
  | none => rfl
  | some rows =>
      obtain ⟨earlier, later, cut, _⟩ := List.lookup_eq_some_iff.mp found
      have member : (src, rows) ∈ stored := by
        rw [cut]
        simp
      obtain ⟨image, images, built⟩ := List.exists_cons_of_ne_nil (some _ member)
      dsimp only at built
      rw [built]
      rfl

end Images

theorem exists_of_forall₂ {α β : Type*} {Related : α → β → Prop} {left : List α} {right : List β}
    (related : List.Forall₂ Related left right) {other : β} (member : other ∈ right) :
    ∃ item ∈ left, Related item other := by
  induction related with
  | nil => exact absurd member List.not_mem_nil
  | @cons one first _ _ here _ inductionHypothesis =>
      rcases List.mem_cons.mp member with rfl | later
      · exact ⟨one, List.mem_cons_self, here⟩
      · obtain ⟨found, inRest, holds⟩ := inductionHypothesis later
        exact ⟨found, List.mem_cons_of_mem _ inRest, holds⟩

end Vidit.World
