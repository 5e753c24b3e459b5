import Vidit.Browser.Path
import Vidit.Events.Outcomes
import Vidit.Evidence.ImageGate
import Vidit.World.State

/-!
Contract: whose stored images a written proof shows, as a browser reads its srcs.

Owns:
- `objectOf`, the object of the media host a src resolves to, and `ShowsOwnImages`;
- when `attach_evidence_and_commit` leaves such a body: `_reject_foreign_proof_srcs` reads a src
  by its exact prefix, so the srcs it does not recognise decide.

Does not own: the gate of the sanitiser (`Vidit.Evidence.ImageGate`), the objects a sweep takes.
-/

namespace Vidit.World

open Vidit.Python Vidit.Browser Vidit.Evidence Vidit.Events Vidit.Library

/-! ### Objects of the media host -/

section Objects

variable (hosts : HostParser) (storage : Storage)

/-- The object of the media host a browser resolves a src to. -/
def objectOf (src : Str) : Option (List Nat) :=
  match resourceOf hosts (storage.publicUrl []), resourceOf hosts src with
  | some media, some shown =>
    if shown.host = media.host ∧ shown.port = media.port then some shown.key else none
  | _, _ => none

/-- One of the URLs resolves to the object. -/
def NamesObject (urls : List Str) (key : List Nat) : Prop :=
  ∃ url ∈ urls, objectOf hosts storage url = some key

/-- Every object of the media host the proof shows is a file of the event: of its proof rows, of
its sources, or of a source a readable version shows. -/
def ShowsOwnImages (geo : Event) : Prop :=
  ∀ src ∈ imageSrcs geo.proof, ∀ key, objectOf hosts storage src = some key →
    NamesObject hosts storage (ownUrls geo) key

end Objects

/-! ### The files a write leaves the event -/

/-- The files the write keeps: the proof rows whose very URL the body displays or history pins,
and the files of the sources. -/
def keptUrls (geo : Event) (body : Body) : List Str :=
  (geo.proofUrls.filter fun url => url ∈ displayedProofSrcs body ++ historyPinnedSrcs geo) ++
    geo.sourceUrls ++ historyPinnedSourceSrcs geo

/-- The URLs the images of the write are uploaded to. -/
def uploadedUrls (config : Config) (tx : Events.Transaction) (geo : Event)
    (proofHtml : Option Body) (proofFiles : List UploadFile) (first : Nat) : List Str :=
  match matchProofFiles proofHtml proofFiles with
  | .error _ => []
  | .ok pairs =>
    match storeProofImages config tx geo.ownerId first pairs with
    | .error _ => []
    | .ok stored => (stored.flatMap Prod.snd).map Media.storageUrl

/-- Every src that `key_from_url` does not recognise, though a browser resolves it to an object
of the media host, names a file the write keeps or uploads. -/
def UnrecognisedAreOwn (hosts : HostParser) (config : Config) (tx : Events.Transaction)
    (geo : Event) (proofHtml : Option Body) (proofFiles : List UploadFile) (first : Nat) : Prop :=
  ∀ src ∈ imageSrcs (proofHtml.getD geo.proof), config.storage.keyFromUrl src = none →
    ∀ key, objectOf hosts config.storage src = some key →
      NamesObject hosts config.storage
        (keptUrls geo (proofHtml.getD geo.proof) ++
          uploadedUrls config tx geo proofHtml proofFiles first) key

section Writes

variable {hosts : HostParser} {config : Config} {tx : Events.Transaction} {geo : Event}
  {proofHtml : Option Body} {proofFiles : List UploadFile} {first : Nat}

/-- A placeholder is a URL of its own scheme. -/
theorem objectOf_placeholder {storage : Storage} {src : Str} (placed : isPlaceholder src = true) :
    objectOf hosts storage src = none := by
  unfold isPlaceholder startsWith at placed
  rw [List.isPrefixOf_iff_prefix] at placed
  obtain ⟨name, rfl⟩ := placed
  have other : resourceOf hosts (proofPlaceholderPrefix ++ name) = none :=
    resourceOf_of_scheme (chr 'p') (str "laceholder") (str "//" ++ name)
      (by decide) (by decide) (by decide)
  unfold objectOf
  rw [other]
  split
  · next shown => cases shown
  · rfl

theorem not_placeholder_of_objectOf {storage : Storage} {src : Str} {key : List Nat}
    (resolved : objectOf hosts storage src = some key) : isPlaceholder src = false := by
  by_contra placed
  rw [objectOf_placeholder (by simpa using placed)] at resolved
  cases resolved

/-- The pairs of a match are the placeholders of the body, in document order. -/
theorem matchProofFiles_placeholders {pairs : List (Str × UploadFile)}
    (matched : matchProofFiles proofHtml proofFiles = .ok pairs) :
    pairs.map Prod.fst = (extractImageSrcs (proofHtml.getD [])).filter isPlaceholder := by
  unfold matchProofFiles at matched
  simp only [bind_eq_ok, require_eq_ok, pure_eq_ok] at matched
  obtain ⟨named, _, found, pairing, _, _, rfl⟩ := matched
  have kept : found.map Prod.fst =
      ((extractImageSrcs (proofHtml.getD [])).filter isPlaceholder).map id := by
    apply map_eq_of_mapM_eq_ok pairing
    intro src pair paired
    simp only [bind_eq_ok, pure_eq_ok] at paired
    obtain ⟨file, _, rfl⟩ := paired
    rfl
  rw [kept, List.map_id]

theorem storeProofImages_placeholders {userId : Uuid} {pairs : List (Str × UploadFile)}
    {stored : List (Str × List Media)}
    (storing : storeProofImages config tx userId first pairs = .ok stored) :
    stored.map Prod.fst = pairs.map Prod.fst := by
  induction pairs generalizing first stored with
  | nil =>
      simp only [storeProofImages, pure_eq_ok] at storing
      rw [← storing]
      rfl
  | cons pair pairs inductionHypothesis =>
      simp only [storeProofImages, bind_eq_ok, pure_eq_ok] at storing
      obtain ⟨digests, _, later, storingLater, rfl⟩ := storing
      rw [List.map_cons, List.map_cons, inductionHypothesis storingLater]

/-- What is rewritten is a placeholder. -/
theorem srcByPlaceholder_eq_none {pairs : List (Str × UploadFile)}
    {stored : List (Str × List Media)} {src : Str}
    (matched : matchProofFiles proofHtml proofFiles = .ok pairs)
    (storing : storeProofImages config tx geo.ownerId first pairs = .ok stored)
    (real : isPlaceholder src = false) : srcByPlaceholder stored src = none := by
  have absent : src ∉ stored.map Prod.fst := by
    rw [storeProofImages_placeholders storing, matchProofFiles_placeholders matched]
    intro member
    rw [(List.mem_filter.mp member).2] at real
    cases real
  unfold srcByPlaceholder
  rw [Option.map_eq_none_iff, List.lookup_eq_none_iff]
  intro pair member
  rw [bne_iff_ne]
  intro same
  exact absent (same ▸ List.mem_map_of_mem member)

/-- A src that is no placeholder stays in the body a write leaves. -/
theorem mem_writtenProof {stored : List (Str × List Media)} {src : Str}
    (unmapped : srcByPlaceholder stored src = none)
    (shown : src ∈ imageSrcs (proofHtml.getD geo.proof)) :
    src ∈ imageSrcs (writtenProof geo.proof proofHtml stored) := by
  cases proofHtml with
  | none => exact shown
  | some html =>
      unfold imageSrcs at shown ⊢
      obtain ⟨node, inBody, reads⟩ := List.mem_filterMap.mp shown
      apply List.mem_filterMap.mpr
      refine ⟨node, List.mem_flatMap.mpr ⟨node, inBody, ?_⟩, reads⟩
      cases node with
      | markup text => cases reads
      | image placed alt =>
          cases reads
          simp [Node.rewrite, unmapped]

/-- A src of the body a write leaves was there before, or is one of the uploads. -/
theorem mem_imageSrcs_writtenProof {stored : List (Str × List Media)} {src : Str}
    (shown : src ∈ imageSrcs (writtenProof geo.proof proofHtml stored)) :
    src ∈ imageSrcs (proofHtml.getD geo.proof) ∨
      src ∈ (stored.flatMap Prod.snd).map Media.storageUrl := by
  cases proofHtml with
  | none => exact .inl shown
  | some html =>
      obtain kept | ⟨placed, _, urls, mapped, inUrls⟩ := mem_imageSrcs_rewriteImageSrcs shown
      · exact .inl kept
      · obtain ⟨rows, found, rfl⟩ := Option.map_eq_some_iff.mp mapped
        obtain ⟨earlier, later, cut, _⟩ := List.lookup_eq_some_iff.mp found
        right
        rw [cut]
        simp only [List.flatMap_append, List.flatMap_cons, List.map_append, List.mem_append]
        exact .inr (.inl inUrls)

/-- A write leaves a body of its event's own images exactly when the srcs the ownership check
does not recognise, though a browser resolves them to the media host, are the event's own. -/
theorem showsOwnImages_iff {attached : Attached} (hosts : HostParser)
    (attaching : attachEvidence config tx geo proofHtml proofFiles first = .ok attached) :
    ShowsOwnImages hosts config.storage attached.event ↔
      UnrecognisedAreOwn hosts config tx geo proofHtml proofFiles first := by
  obtain ⟨own, pairs, stored, matched, storing, rows, _, event⟩ := attachEvidence_ok attaching
  have uploaded : uploadedUrls config tx geo proofHtml proofFiles first =
      attached.stored.map Media.storageUrl := by
    unfold uploadedUrls
    rw [matched]
    simp only
    rw [storing, rows]
  have files : ∀ url, url ∈ ownUrls attached.event ↔
      url ∈ keptUrls geo (proofHtml.getD geo.proof) ++
        uploadedUrls config tx geo proofHtml proofFiles first := by
    intro url
    rw [uploaded, event]
    unfold ownUrls keptUrls Event.proofUrls
    rw [List.filter_map, List.map_append]
    simp only [List.mem_append, Function.comp_def]
    show (((_ ∨ _) ∨ url ∈ geo.sourceUrls) ∨ url ∈ historyPinnedSourceSrcs geo) ↔ _
    tauto
  have names : ∀ key, NamesObject hosts config.storage (ownUrls attached.event) key ↔
      NamesObject hosts config.storage (keptUrls geo (proofHtml.getD geo.proof) ++
        uploadedUrls config tx geo proofHtml proofFiles first) key := by
    intro key
    unfold NamesObject
    simp only [files]
  constructor
  · intro shows src inBody _ key resolved
    rw [← names]
    apply shows src _ key resolved
    rw [event]
    exact mem_writtenProof
      (srcByPlaceholder_eq_none matched storing (not_placeholder_of_objectOf resolved)) inBody
  · intro unrecognised src shown key resolved
    rw [event] at shown
    obtain inBody | uploads := mem_imageSrcs_writtenProof shown
    · cases keyed : config.storage.keyFromUrl src with
      | none => exact (names key).mpr (unrecognised src inBody keyed key resolved)
      | some path =>
          have displayed : src ∈ displayedProofSrcs (proofHtml.getD geo.proof) :=
            mem_displayedProofSrcs.mpr ⟨inBody, not_placeholder_of_objectOf resolved⟩
          have held := List.filter_eq_nil_iff.mp own src displayed
          simp only [keyed, ne_eq, reduceCtorEq, not_false_eq_true, and_true, decide_eq_true_eq,
            not_not] at held
          refine ⟨src, (files src).mpr (List.mem_append_left _ ?_), resolved⟩
          unfold ownUrls at held
          unfold keptUrls
          rw [List.mem_append, List.mem_append] at held ⊢
          refine held.imp_left fun either => either.imp_left fun inRows => ?_
          exact List.mem_filter.mpr ⟨inRows, by simp [displayed]⟩
    · refine ⟨src, (files src).mpr (List.mem_append_right _ ?_), resolved⟩
      rw [uploaded, rows]
      exact uploads

end Writes

/-! ### Another event's image, spelled three ways -/

namespace Spellings

/-- A published event with a proof image, and a request of the same account. -/
def start : State :=
  smallState (smallSetup ++ [smallDraft, smallPublish, .stageUpload 0 smallFile,
    .createRequest 0 (smallForm "u" "" [smallSource (some 12) none] []) none none none])

theorem start_reachable : (system smallConfig).Reachable start :=
  smallState_reachable (by decide +kernel)

/-- The published event. -/
def published : Event :=
  firstEvent start (by decide +kernel)

/-- The request. -/
def other : Event :=
  start.events.get ⟨1, by decide +kernel⟩

/-- An edit that keeps the body of the published event: its one image is its own. -/
theorem showsOwnImages_kept :
    ∃ attached, attachEvidence smallConfig (start.transaction smallConfig) published none [] 1 =
        .ok attached ∧
      ShowsOwnImages Backslash.hosts smallConfig.storage attached.event := by
  cases attaching : attachEvidence smallConfig (start.transaction smallConfig) published none []
      1 with
  | error refused =>
      have passes : (attachEvidence smallConfig (start.transaction smallConfig) published none []
          1).isOk = true := by decide +kernel
      rw [attaching] at passes
      cases passes
  | ok attached =>
      refine ⟨attached, rfl, (showsOwnImages_iff Backslash.hosts attaching).mpr ?_⟩
      have recognised : ∀ src ∈ imageSrcs published.proof,
          smallConfig.storage.keyFromUrl src ≠ none := by decide +kernel
      intro src inBody unread
      exact absurd unread (recognised src inBody)

/-- The URL of the published event's image, after its host. -/
def path : Str :=
  str "/proof/00000000-0000-4000-8000-/00000000-0000-4000-8000-11.png"

/-- A host in capitals, the default port written out, and user info. -/
def spellings : List Str :=
  [str "https://CDN.example.org" ++ path, str "https://cdn.example.org:443" ++ path,
    str "https://ann@cdn.example.org" ++ path]

/-- The request's proof shows the src, an object none of its own URLs resolves to. -/
def showsForeign (src : Str) : Bool :=
  match attachEvidence smallConfig (start.transaction smallConfig) other
      (some [.image src none]) [] 1 with
  | .error _ => false
  | .ok attached => src ∈ imageSrcs attached.event.proof &&
      (objectOf Backslash.hosts smallConfig.storage src).isSome &&
      (ownUrls attached.event).all fun url =>
        objectOf Backslash.hosts smallConfig.storage url ≠
          objectOf Backslash.hosts smallConfig.storage src

theorem not_showsOwnImages {src : Str} (foreign : showsForeign src = true) :
    ∃ attached, attachEvidence smallConfig (start.transaction smallConfig) other
        (some [.image src none]) [] 1 = .ok attached ∧
      ¬ ShowsOwnImages Backslash.hosts smallConfig.storage attached.event := by
  unfold showsForeign at foreign
  split at foreign
  · cases foreign
  · next attached attaching =>
    simp only [Bool.and_eq_true, decide_eq_true_eq, List.all_eq_true] at foreign
    obtain ⟨⟨shown, resolves⟩, apart⟩ := foreign
    refine ⟨attached, attaching, fun shows => ?_⟩
    obtain ⟨key, resolved⟩ := Option.isSome_iff_exists.mp resolves
    obtain ⟨url, inUrls, same⟩ := shows src shown key resolved
    exact apart url inUrls (same.trans resolved.symm)

end Spellings

theorem spellings_pass :
    (system smallConfig).Reachable Spellings.start ∧
      Spellings.other ∈ Spellings.start.events ∧
      ∀ src ∈ Spellings.spellings,
        safeImageSrc smallConfig.unicode smallConfig.settings true src = .ok (some src) ∧
        NamesObject Backslash.hosts smallConfig.storage (ownUrls Spellings.published)
          ((objectOf Backslash.hosts smallConfig.storage src).getD []) ∧
        ∃ attached, attachEvidence smallConfig (Spellings.start.transaction smallConfig)
            Spellings.other (some [.image src none]) [] 1 = .ok attached ∧
          ¬ ShowsOwnImages Backslash.hosts smallConfig.storage attached.event := by
  have safe : ∀ src ∈ Spellings.spellings,
      safeImageSrc smallConfig.unicode smallConfig.settings true src = .ok (some src) := by
    decide +kernel
  have taken : ∀ src ∈ Spellings.spellings, ∃ url ∈ ownUrls Spellings.published,
      objectOf Backslash.hosts smallConfig.storage url =
        some ((objectOf Backslash.hosts smallConfig.storage src).getD []) := by
    decide +kernel
  have foreign : ∀ src ∈ Spellings.spellings, Spellings.showsForeign src = true := by
    decide +kernel
  refine ⟨Spellings.start_reachable, List.get_mem _ _, fun src member => ?_⟩
  exact ⟨safe src member, taken src member, Spellings.not_showsOwnImages (foreign src member)⟩

end Vidit.World
