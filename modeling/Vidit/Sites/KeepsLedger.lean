import Mathlib.Data.List.Sort
import Vidit.Sites.Ledger

/-!
Contract: the ledger of a site.

Owns:
- `Site.Ledger`, what holds of every committed site, and `KeepsLedger`, what the system
  promises;
- `keepsLedger`, that every interleaving of the four writes keeps it.

Proof shape: each write turns a sound row into a sound row (`sound_of_saveVersion` is the
long one), and a row nobody else can change stays what the lock read. So every row that
any request may read is sound, and a commit files what it read.
-/

namespace Vidit.Sites

open Vidit.Python Vidit.Accounts Vidit.Events Vidit.Library

variable {settings : SiteSettings}

/-- The live sources of a site, each once, with its live contour. -/
structure SiteSnapshot.Lists (snapshot : SiteSnapshot) (site : Site) : Prop where
  record : snapshot.name = site.name ∧ snapshot.kind = site.kind
  sources : (snapshot.sources.map SiteSnapshotSource.id).Perm (site.liveSources.map SiteSource.id)
  contours : ∀ row ∈ snapshot.sources, ∀ contourId, row.contourId = some contourId ↔
    ∃ contour ∈ site.liveContours, contour.id = contourId ∧ contour.sourceId = row.id

/-- What holds of every committed site. -/
structure Site.Ledger (site : Site) : Prop where
  contoured : ∃ contour ∈ site.liveContours, ∃ source ∈ site.liveSources,
    contour.sourceId = source.id
  single : ∀ source ∈ site.liveSources, (site.contoursOn source.id).length ≤ 1
  removed : ∀ source ∈ site.sources, source.removedAt ≠ none → site.contoursOn source.id = []
  numbers : site.versions.map SiteVersion.versionNo = List.range' 1 (site.versionNo - 1)

/-- Every run keeps the ledger of every site. -/
structure KeepsLedger (system : System SiteState SiteLabel) : Prop where
  ledger : ∀ {state siteId site}, system.Reachable state →
    state.sites.committed siteId = some site → site.Ledger
  /-- A filed snapshot lists what was live just before the write that filed it. -/
  filed : ∀ {state siteId site}, system.Reachable state →
    state.sites.committed siteId = some site → ∀ version ∈ site.versions,
      ∃ before label after earlier later, system.Reachable before ∧
        system.Step before label after ∧ system.Run after state ∧
        before.sites.committed siteId = some earlier ∧ version ∉ earlier.versions ∧
        after.sites.committed siteId = some later ∧ version ∈ later.versions ∧
        version.snapshot.Lists earlier
  /-- Only the commit that ends a call without raising changes a site, its own. -/
  raised : ∀ {state label next siteId}, system.Reachable state → system.Step state label next →
    next.sites.committed siteId = state.sites.committed siteId ∨
      ∃ process outside, label = .run process outside ∧
        state.processes process = .commit siteId ∧ next.processes process = .idle

/-! ### Sound sites -/

namespace Site

/-- A row the writes keep. -/
structure Sound (settings : SiteSettings) (drawn : Nat) (site : Site) : Prop where
  drawn : ∀ source ∈ site.sources, ∃ index < drawn, source.id = settings.uuids.draw index
  once : (site.sources.map SiteSource.id).Nodup
  standing : ∀ contour ∈ site.liveContours, ∃ source ∈ site.liveSources,
    source.id = contour.sourceId
  single : (site.liveContours.map SiteContour.sourceId).Nodup
  contoured : site.liveContours ≠ []
  numbers : site.versions.map SiteVersion.versionNo = List.range' 1 (site.versionNo - 1)
  started : 1 ≤ site.versionNo

variable {site : Site} {drawn : Nat}

theorem mem_liveSources {source : SiteSource} :
    source ∈ site.liveSources ↔ source ∈ site.sources ∧ source.removedAt = none := by
  simp [liveSources]

theorem mem_liveContours {contour : SiteContour} :
    contour ∈ site.liveContours ↔ contour ∈ site.contours ∧ contour.supersededAt = none := by
  simp [liveContours]

theorem mem_contoursOn {sourceId : Uuid} {contour : SiteContour} :
    contour ∈ site.contoursOn sourceId ↔
      contour ∈ site.liveContours ∧ contour.sourceId = sourceId := by
  simp [contoursOn]

/-- A filter by a key that occurs once keeps one row at most. -/
theorem filter_eq_of_nodup {rows : List SiteContour}
    (once : (rows.map SiteContour.sourceId).Nodup) {contour : SiteContour}
    (member : contour ∈ rows) :
    rows.filter (fun other => other.sourceId = contour.sourceId) = [contour] := by
  induction rows with
  | nil => exact absurd member List.not_mem_nil
  | cons head tail inductionHypothesis =>
      rw [List.map_cons, List.nodup_cons] at once
      have others : ∀ {sourceId}, sourceId = head.sourceId →
          tail.filter (fun other => other.sourceId = sourceId) = [] := by
        rintro sourceId rfl
        rw [List.filter_eq_nil_iff]
        intro other inTail same
        exact once.1 (List.mem_map.mpr ⟨other, inTail, of_decide_eq_true same⟩)
      rcases List.mem_cons.mp member with rfl | inTail
      · rw [List.filter_cons_of_pos (by simp), others rfl]
      · have different : head.sourceId ≠ contour.sourceId := by
          intro same
          exact once.1 (List.mem_map.mpr ⟨contour, inTail, same.symm⟩)
        rw [List.filter_cons_of_neg (by simp [different]), inductionHypothesis once.2 inTail]

theorem Sound.contoursOn_eq (sound : site.Sound settings drawn) {contour : SiteContour}
    (live : contour ∈ site.liveContours) : site.contoursOn contour.sourceId = [contour] :=
  filter_eq_of_nodup sound.single live

/-- A source carries no contour, or one. -/
theorem Sound.contoursOn_cases (sound : site.Sound settings drawn) (sourceId : Uuid) :
    site.contoursOn sourceId = [] ∨
      ∃ contour ∈ site.liveContours, contour.sourceId = sourceId ∧
        site.contoursOn sourceId = [contour] := by
  cases rows : site.contoursOn sourceId with
  | nil => exact .inl rfl
  | cons contour others =>
      have member : contour ∈ site.contoursOn sourceId := by
        rw [rows]
        exact List.mem_cons_self
      rcases mem_contoursOn.mp member with ⟨live, rfl⟩
      refine .inr ⟨contour, live, rfl, ?_⟩
      rw [← rows, sound.contoursOn_eq live]

theorem Sound.mono {later : Nat} (sound : site.Sound settings drawn) (grows : drawn ≤ later) :
    site.Sound settings later where
  drawn source member := by
    rcases sound.drawn source member with ⟨index, small, same⟩
    exact ⟨index, lt_of_lt_of_le small grows, same⟩
  once := sound.once
  standing := sound.standing
  single := sound.single
  contoured := sound.contoured
  numbers := sound.numbers
  started := sound.started

/-- Two rows under one id are one row. -/
theorem Sound.eq_of_id (sound : site.Sound settings drawn) {left right : SiteSource}
    (isLeft : left ∈ site.sources) (isRight : right ∈ site.sources) (same : left.id = right.id) :
    left = right :=
  List.inj_on_of_nodup_map sound.once isLeft isRight same

theorem Sound.ledger (sound : site.Sound settings drawn) : site.Ledger where
  contoured := by
    rcases List.exists_mem_of_ne_nil _ sound.contoured with ⟨contour, live⟩
    rcases sound.standing contour live with ⟨source, liveSource, same⟩
    exact ⟨contour, live, source, liveSource, same.symm⟩
  single source _ := by
    rcases sound.contoursOn_cases source.id with none | ⟨contour, _, _, one⟩
    · simp [none]
    · simp [one]
  removed source member gone := by
    rcases sound.contoursOn_cases source.id with none | ⟨contour, live, same, _⟩
    · exact none
    · rcases sound.standing contour live with ⟨standing, isLive, same'⟩
      rw [mem_liveSources] at isLive
      have equal := sound.eq_of_id isLive.1 member (same'.trans same)
      rw [equal] at isLive
      exact absurd isLive.2 gone
  numbers := sound.numbers

/-! ### Snapshots -/

theorem Sound.joined_eq (sound : site.Sound settings drawn) (source : SiteSource) :
    ∃ contourId, site.joined source = [⟨source.id, contourId⟩] ∧
      ∀ id, contourId = some id ↔
        ∃ contour ∈ site.liveContours, contour.id = id ∧ contour.sourceId = source.id := by
  unfold joined
  rcases sound.contoursOn_cases source.id with none | ⟨contour, live, same, one⟩
  · refine ⟨Option.none, by rw [none], ?_⟩
    intro id
    constructor
    · intro impossible
      contradiction
    · rintro ⟨contour, live, _, here⟩
      have member : contour ∈ site.contoursOn source.id := mem_contoursOn.mpr ⟨live, here⟩
      rw [none] at member
      exact absurd member List.not_mem_nil
  · refine ⟨some contour.id, by rw [one]; rfl, ?_⟩
    intro id
    constructor
    · rintro ⟨⟩
      exact ⟨contour, live, rfl, same⟩
    · rintro ⟨other, isLive, rfl, here⟩
      have member : other ∈ site.contoursOn source.id := mem_contoursOn.mpr ⟨isLive, here⟩
      rw [one, List.mem_singleton] at member
      rw [member]

theorem Sound.snapshot_lists (sound : site.Sound settings drawn) : site.snapshot.Lists site where
  record := ⟨rfl, rfl⟩
  sources := by
    have ids : ∀ sources : List SiteSource,
        (sources.flatMap site.joined).map SiteSnapshotSource.id = sources.map SiteSource.id := by
      intro sources
      induction sources with
      | nil => rfl
      | cons source sources inductionHypothesis =>
          rcases sound.joined_eq source with ⟨contourId, joined, _⟩
          rw [List.flatMap_cons, joined, List.map_append, inductionHypothesis]
          rfl
    show ((sortedBy sourceLe site.liveSources).flatMap site.joined |>.map _).Perm _
    rw [ids]
    exact (List.perm_insertionSort _ _).map _
  contours row member := by
    rcases List.mem_flatMap.mp member with ⟨source, _, inJoined⟩
    rcases sound.joined_eq source with ⟨contourId, joined, iff⟩
    rw [joined, List.mem_singleton] at inJoined
    subst inJoined
    exact iff

/-! ### What the writes change -/

/-- A write files the state it supersedes, or files nothing. -/
def Follows (before after : Site) : Prop :=
  after.versions = before.versions ∨ ∃ version, after.versions = before.versions ++ [version] ∧
    version.versionNo = before.versionNo ∧ version.snapshot = before.snapshot

/-- A filed version takes the number of the live state. -/
theorem fileVersion_eq_ok {filed : Site} {now : Instant} {editorId : Uuid} {note : Option Str}
    (ok : site.fileVersion now editorId note = .ok filed) :
    filed = { site with
      versions := site.versions ++ [⟨site.versionNo, editorId, note, site.snapshot, now⟩]
      versionNo := site.versionNo + 1 } := by
  unfold fileVersion at ok
  simp only [bind_eq_ok, require_eq_ok, pure_eq_ok] at ok
  rcases ok with ⟨_, _, rfl⟩
  rfl

theorem follows_of_fileVersion {filed next : Site} {now : Instant} {editorId : Uuid}
    {note : Option Str} (ok : site.fileVersion now editorId note = .ok filed)
    (versions : next.versions = filed.versions) : site.Follows next := by
  rw [fileVersion_eq_ok ok] at versions
  exact .inr ⟨_, versions, rfl, rfl⟩

theorem Sound.fileVersion (sound : site.Sound settings drawn) {filed : Site} {now : Instant}
    {editorId : Uuid} {note : Option Str} (ok : site.fileVersion now editorId note = .ok filed) :
    filed.Sound settings drawn := by
  rw [fileVersion_eq_ok ok]
  refine ⟨sound.drawn, sound.once, sound.standing, sound.single, sound.contoured, ?_,
    Nat.succ_le_succ (Nat.zero_le _)⟩
  have started := sound.started
  have length : site.versionNo + 1 - 1 = site.versionNo - 1 + 1 := by omega
  have last : 1 + 1 * (site.versionNo - 1) = site.versionNo := by omega
  show (site.versions ++ [_]).map SiteVersion.versionNo = List.range' 1 (site.versionNo + 1 - 1)
  rw [List.map_append, sound.numbers, length, List.range'_concat, last]
  rfl

theorem liveSource_eq_ok {sourceId : Uuid} {source : SiteSource}
    (ok : site.liveSource sourceId = .ok source) :
    source ∈ site.liveSources ∧ source.id = sourceId := by
  unfold liveSource at ok
  rw [orRefuse_eq_ok] at ok
  have same := List.find?_some ok
  exact ⟨List.mem_of_find?_eq_some ok, of_decide_eq_true same⟩

section RemoveSources

variable {now : Instant} {sourceIds : List Uuid}

/-- A source stays live where it is not removed. -/
theorem mem_liveSources_removeSources {source : SiteSource} :
    source ∈ (site.removeSources now sourceIds).liveSources ↔
      source ∈ site.liveSources ∧ source.id ∉ sourceIds := by
  rw [mem_liveSources, mem_liveSources, removeSources, List.mem_map]
  constructor
  · rintro ⟨⟨before, member, rfl⟩, live⟩
    split at live
    · exact absurd live (Option.some_ne_none _)
    · rename_i absent
      rw [if_neg absent]
      exact ⟨⟨member, live⟩, absent⟩
  · rintro ⟨⟨member, live⟩, absent⟩
    exact ⟨⟨source, member, if_neg absent⟩, live⟩

theorem ids_removeSources :
    (site.removeSources now sourceIds).sources.map SiteSource.id =
      site.sources.map SiteSource.id := by
  rw [removeSources, List.map_map]
  apply List.map_congr_left
  intro source _
  simp only [Function.comp_apply]
  split <;> rfl

theorem exists_of_mem_removeSources {source : SiteSource}
    (member : source ∈ (site.removeSources now sourceIds).sources) :
    ∃ before ∈ site.sources, before.id = source.id := by
  have inIds : source.id ∈ (site.removeSources now sourceIds).sources.map SiteSource.id :=
    List.mem_map_of_mem member
  rw [ids_removeSources] at inIds
  rcases List.mem_map.mp inIds with ⟨before, isBefore, same⟩
  exact ⟨before, isBefore, same⟩

end RemoveSources

/-- What a change of the sources alone must keep. -/
theorem Sound.of_sources (sound : site.Sound settings drawn) {later : Nat} {sources : List SiteSource}
    (isDrawn : ∀ source ∈ sources, ∃ index < later, source.id = settings.uuids.draw index)
    (once : (sources.map SiteSource.id).Nodup)
    (standing : ∀ contour ∈ site.liveContours, ∃ source ∈ sources, source.removedAt = none ∧
      source.id = contour.sourceId) :
    { site with sources := sources }.Sound settings later := by
  refine ⟨isDrawn, once, ?_, sound.single, sound.contoured, sound.numbers, sound.started⟩
  intro contour live
  rcases standing contour live with ⟨source, member, isLive, same⟩
  exact ⟨source, mem_liveSources.mpr ⟨member, isLive⟩, same⟩

/-- The sources a write adds, under the draws it makes. -/
def AreDrawn (settings : SiteSettings) (drawn : Nat) (added : List SiteSource) : Prop :=
  added.map SiteSource.id =
    (List.range added.length).map fun index => settings.uuids.draw (drawn + index)

/-- A new draw is no stored source's id. -/
theorem Sound.fresh (sound : site.Sound settings drawn) {source : SiteSource}
    (member : source ∈ site.sources) (index : Nat) :
    source.id ≠ settings.uuids.draw (drawn + index) := by
  rcases sound.drawn source member with ⟨old, small, same⟩
  rw [same]
  intro equal
  have draws := settings.uuids.draw_injective equal
  omega

theorem AreDrawn.exists {added : List SiteSource} (areDrawn : AreDrawn settings drawn added)
    {source : SiteSource} (member : source ∈ added) :
    ∃ index < added.length, source.id = settings.uuids.draw (drawn + index) := by
  have inIds : source.id ∈ added.map SiteSource.id := List.mem_map_of_mem member
  rw [areDrawn] at inIds
  rcases List.mem_map.mp inIds with ⟨index, small, same⟩
  exact ⟨index, List.mem_range.mp small, same.symm⟩

theorem Sound.drawn_append (sound : site.Sound settings drawn) {added : List SiteSource}
    (areDrawn : AreDrawn settings drawn added) :
    ∀ source ∈ site.sources ++ added,
      ∃ index < drawn + added.length, source.id = settings.uuids.draw index := by
  intro source member
  rcases List.mem_append.mp member with old | new
  · rcases sound.drawn source old with ⟨index, small, same⟩
    exact ⟨index, by omega, same⟩
  · rcases areDrawn.exists new with ⟨index, small, same⟩
    exact ⟨drawn + index, by omega, same⟩

theorem Sound.once_append (sound : site.Sound settings drawn) {added : List SiteSource}
    (areDrawn : AreDrawn settings drawn added) :
    ((site.sources ++ added).map SiteSource.id).Nodup := by
  rw [List.map_append, List.nodup_append]
  refine ⟨sound.once, ?_, ?_⟩
  · rw [areDrawn]
    refine List.Nodup.map ?_ List.nodup_range
    intro left right same
    have draws := settings.uuids.draw_injective same
    omega
  · rintro id isOld other isNew rfl
    rcases List.mem_map.mp isOld with ⟨old, member, rfl⟩
    rcases List.mem_map.mp isNew with ⟨new, isAdded, same⟩
    rcases areDrawn.exists isAdded with ⟨index, _, drawnId⟩
    exact sound.fresh member index (same.symm.trans drawnId)

end Site

/-! ### Filing and removing a source -/

open Site

variable {site next : Site} {drawn : Nat} {outside : Outside}

/-- The ids of the rows a write adds. -/
abbrev newIds (settings : SiteSettings) (drawn : Nat) (index : Nat) : Uuid :=
  settings.uuids.draw (drawn + index)

theorem stageSiteSource_eq_ok {authorId id : Uuid} {body : SiteSourceCreate} {source : SiteSource}
    (ok : stageSiteSource settings outside authorId id body = .ok source) :
    source.id = id ∧ source.removedAt = none := by
  unfold stageSiteSource at ok
  simp only [bind_eq_ok, pure_eq_ok] at ok
  rcases ok with ⟨_, _, links, _, _, _, _, _, rfl⟩
  exact ⟨rfl, rfl⟩

theorem sound_of_fileSiteSource (sound : site.Sound settings drawn) {authorId : Uuid}
    {body : SiteSourceCreate}
    (ok : fileSiteSource settings outside (newIds settings drawn) authorId body site = .ok next) :
    next.Sound settings (drawn + 1) ∧ site.Follows next := by
  unfold fileSiteSource at ok
  simp only [bind_eq_ok, pure_eq_ok] at ok
  rcases ok with ⟨filed, isFiled, source, staged, rfl⟩
  have soundFiled := sound.fileVersion isFiled
  have areDrawn : AreDrawn settings drawn [source] := by
    simp [AreDrawn, newIds, stageSiteSource_eq_ok staged]
  refine ⟨soundFiled.of_sources (soundFiled.drawn_append areDrawn)
    (soundFiled.once_append areDrawn) ?_, ?_⟩
  · intro contour live
    rcases soundFiled.standing contour live with ⟨standing, isLive, same⟩
    rw [mem_liveSources] at isLive
    exact ⟨standing, List.mem_append_left _ isLive.1, isLive.2, same⟩
  · exact follows_of_fileVersion isFiled rfl

theorem sound_of_removeSiteSource (sound : site.Sound settings drawn) {userId sourceId : Uuid}
    (ok : removeSiteSource outside userId sourceId site = .ok next) :
    next.Sound settings drawn ∧ site.Follows next := by
  unfold removeSiteSource at ok
  simp only [bind_eq_ok, pure_eq_ok, require_eq_ok] at ok
  rcases ok with ⟨source, isLive, _, _, _, bare, filed, isFiled, rfl⟩
  have soundFiled := sound.fileVersion isFiled
  have sameContours : filed.liveContours = site.liveContours := by
    rw [fileVersion_eq_ok isFiled]
    rfl
  refine ⟨soundFiled.of_sources ?_ ?_ ?_, ?_⟩
  · intro removed member
    rcases exists_of_mem_removeSources member with ⟨before, isBefore, same⟩
    rw [← same]
    exact soundFiled.drawn before isBefore
  · exact ids_removeSources ▸ soundFiled.once
  · intro contour live
    rcases soundFiled.standing contour live with ⟨standing, isStanding, same⟩
    have kept : standing.id ∉ [source.id] := by
      intro gone
      rw [List.mem_singleton] at gone
      have carries : contour ∈ site.contoursOn source.id :=
        mem_contoursOn.mpr ⟨sameContours ▸ live, by rw [← same, gone]⟩
      rw [bare] at carries
      exact absurd carries List.not_mem_nil
    have still : standing ∈ (filed.removeSources outside.now [source.id]).liveSources :=
      mem_liveSources_removeSources.mpr ⟨isStanding, kept⟩
    rw [mem_liveSources] at still
    exact ⟨standing, still.1, still.2, same⟩
  · exact follows_of_fileVersion isFiled rfl

/-! ### Creating a site -/

theorem zoneShape_eq_ok {zone shape : ZonePolygon} (ok : zoneShape settings zone = .ok shape) :
    shape = zone := by
  unfold zoneShape at ok
  simp only [bind_eq_ok] at ok
  rcases ok with ⟨_, _, ok⟩
  split at ok
  · contradiction
  · simp only [bind_eq_ok, pure_eq_ok] at ok
    rcases ok with ⟨_, _, _, _, _, _, same⟩
    exact same.symm

theorem sound_of_createSite {ownerId : Uuid} {body : SiteCreate}
    (ok : createSite settings outside (newIds settings drawn) ownerId body = .ok site) :
    site.Sound settings (drawn + 3) ∧ site.versions = [] ∧ site.id = settings.uuids.draw drawn := by
  unfold createSite at ok
  simp only [bind_eq_ok, pure_eq_ok] at ok
  rcases ok with ⟨_, _, _, _, source, staged, zone, _, rfl⟩
  rcases stageSiteSource_eq_ok staged with ⟨isId, live⟩
  refine ⟨⟨?_, by simp, ?_, ?_, ?_, rfl, le_refl _⟩, rfl, rfl⟩
  · intro other member
    rw [List.mem_singleton.mp member, isId]
    exact ⟨drawn + 1, by omega, rfl⟩
  · intro contour member
    rcases mem_liveContours.mp member with ⟨isContour, _⟩
    rw [List.mem_singleton.mp isContour]
    exact ⟨source, mem_liveSources.mpr ⟨List.mem_singleton_self _, live⟩, rfl⟩
  · simp [liveContours]
  · simp [liveContours]

/-! ### Saving a version -/

/-- What a save that goes through has checked and staged. -/
structure Saves (settings : SiteSettings) (drawn : Nat) (site : Site) (body : SiteVersionCreate)
    (removed : List SiteSource) (filed : Site) (added : List SiteSource)
    (shapes : List (ContourTarget × ZonePolygon)) : Prop where
  sound : site.Sound settings drawn
  removed : ∀ source ∈ removed, source ∈ site.liveSources ∧ body.Frees site source.id
  stored : ∀ sourceId ∈ body.storedTargets, ∃ source ∈ site.liveSources, source.id = sourceId
  contoured : site.liveContours.any body.keeps = true ∨ body.drawn ≠ []
  shapes : shapes.map Prod.fst = body.drawn.map Prod.fst
  filedSound : filed.Sound settings drawn
  sameSources : filed.sources = site.sources
  sameContours : filed.contours = site.contours
  areDrawn : AreDrawn settings drawn added
  live : ∀ source ∈ added, source.removedAt = none
  length : added.length = body.addedSources.length

/-- A change names a stored source, or one that is added. -/
def Names (site : Site) (added : List SiteSource) : ContourTarget → Prop
  | .stored sourceId => ∃ source ∈ site.sources, source.id = sourceId
  | .added index => index < added.length

theorem sourceId_added {added : List SiteSource} (areDrawn : AreDrawn settings drawn added)
    {index : Nat} (small : index < added.length) :
    (ContourTarget.added index).sourceId added = settings.uuids.draw (drawn + index) := by
  have ids : (added.map SiteSource.id)[index]? =
      some (settings.uuids.draw (drawn + index)) := by
    rw [areDrawn, List.getElem?_map, List.getElem?_range small, Option.map_some]
  rw [List.getElem?_map] at ids
  rw [ContourTarget.sourceId, ids, Option.getD_some]

/-- Different targets are different sources. -/
theorem eq_of_sourceId (sound : site.Sound settings drawn) {added : List SiteSource}
    (areDrawn : AreDrawn settings drawn added) {left right : ContourTarget}
    (leftNames : Names site added left) (rightNames : Names site added right)
    (same : left.sourceId added = right.sourceId added) : left = right := by
  cases left with
  | stored leftId =>
      cases right with
      | stored rightId => exact congrArg _ same
      | added index =>
          rcases leftNames with ⟨source, member, rfl⟩
          rw [sourceId_added areDrawn rightNames] at same
          exact absurd same (sound.fresh member index)
  | added leftIndex =>
      cases right with
      | stored rightId =>
          rcases rightNames with ⟨source, member, rfl⟩
          rw [sourceId_added areDrawn leftNames] at same
          exact absurd same.symm (sound.fresh member leftIndex)
      | added rightIndex =>
          rw [sourceId_added areDrawn leftNames, sourceId_added areDrawn rightNames] at same
          have draws := settings.uuids.draw_injective same
          rw [Nat.add_left_cancel draws]

/-- The live contours that stay are the ones of no changed source. -/
theorem liveContours_supersede {now : Instant} {sourceIds : List Uuid}
    (single : (site.liveContours.map SiteContour.sourceId).Nodup) :
    (site.supersede now sourceIds).liveContours =
      site.liveContours.filter fun contour => contour.sourceId ∉ sourceIds := by
  unfold supersede liveContours
  rw [List.filter_map, List.filter_filter]
  have stays : ∀ contour ∈ site.contours,
      ((fun contour : SiteContour => decide (contour.supersededAt = none)) ∘ fun contour =>
        if contour.supersededAt = none ∧ contour.sourceId ∈ sourceIds ∧
            (site.contoursOn contour.sourceId).getLast? = some contour then
          { contour with supersededAt := some now }
        else contour) contour =
      (decide (contour.sourceId ∉ sourceIds) && decide (contour.supersededAt = none)) := by
    intro contour member
    simp only [Function.comp_apply]
    by_cases live : contour.supersededAt = none
    · have only : (site.contoursOn contour.sourceId).getLast? = some contour := by
        have one : site.contoursOn contour.sourceId = [contour] :=
          filter_eq_of_nodup single (mem_liveContours.mpr ⟨member, live⟩)
        rw [one]
        rfl
      by_cases replaced : contour.sourceId ∈ sourceIds
      · simp [live, replaced, only]
      · simp [live, replaced]
    · simp [live]
  rw [List.filter_congr stays]
  conv_rhs => rw [← List.map_id (List.filter _ site.contours)]
  apply List.map_congr_left
  intro contour member
  simp only [List.mem_filter, Bool.and_eq_true, decide_eq_true_eq] at member
  simp [member.2.1]

namespace Saves

variable {body : SiteVersionCreate} {removed added : List SiteSource} {filed : Site}
  {shapes : List (ContourTarget × ZonePolygon)}

theorem mem_storedTargets {change : SiteContourChange} {sourceId : Uuid}
    (member : change ∈ body.contours) (target : change.target = .stored sourceId) :
    sourceId ∈ body.storedTargets := by
  refine List.mem_filterMap.mpr ⟨change, member, ?_⟩
  rw [target]

/-- The change of a source is the one that targets it. -/
theorem changeOf_eq {change : SiteContourChange} {sourceId : Uuid}
    (member : change ∈ body.contours) (target : change.target = .stored sourceId) :
    body.changeOf sourceId = some change := by
  unfold SiteVersionCreate.changeOf
  cases found : body.contours.find? fun other => other.target = .stored sourceId with
  | none =>
      rw [List.find?_eq_none] at found
      exact absurd (decide_eq_true target) (found change member)
  | some other =>
      have same := List.find?_some found
      have equal := List.inj_on_of_nodup_map body.changedOnce (List.mem_of_find?_eq_some found)
        member ((of_decide_eq_true same).trans target.symm)
      rw [equal]

theorem exists_of_changeOf {sourceId : Uuid} {change : SiteContourChange}
    (found : body.changeOf sourceId = some change) :
    change ∈ body.contours ∧ change.target = .stored sourceId := by
  have same := List.find?_some found
  exact ⟨List.mem_of_find?_eq_some found, of_decide_eq_true same⟩

variable (saves : Saves settings drawn site body removed filed added shapes)
include saves

theorem names {change : SiteContourChange} (member : change ∈ body.contours) :
    Names site added change.target := by
  cases target : change.target with
  | stored sourceId =>
      rcases saves.stored sourceId (mem_storedTargets member target) with ⟨source, isLive, same⟩
      exact ⟨source, (mem_liveSources.mp isLive).1, same⟩
  | added index =>
      show index < added.length
      rw [saves.length]
      exact body.addedNamed change member index target

theorem names_contour {contour : SiteContour} (live : contour ∈ site.liveContours) :
    Names site added (.stored contour.sourceId) := by
  rcases saves.sound.standing contour live with ⟨source, isLive, same⟩
  exact ⟨source, (mem_liveSources.mp isLive).1, same⟩

/-- A live contour is replaced exactly where a change names its source. -/
theorem mem_effective {contour : SiteContour} (live : contour ∈ site.liveContours) :
    contour.sourceId ∈ (body.effective site).map (ContourTarget.sourceId added) ↔
      body.keeps contour = false := by
  unfold SiteVersionCreate.keeps
  rw [List.mem_map]
  constructor
  · rintro ⟨target, isEffective, same⟩
    rcases List.mem_map.mp isEffective with ⟨change, kept, rfl⟩
    have member := List.mem_of_mem_filter kept
    have equal := eq_of_sourceId saves.sound saves.areDrawn (saves.names member)
      (saves.names_contour live) same
    rw [changeOf_eq member equal]
    rfl
  · intro changed
    cases found : body.changeOf contour.sourceId with
    | none =>
        rw [found] at changed
        contradiction
    | some change =>
        rcases exists_of_changeOf found with ⟨member, target⟩
        have carried : site.contoursOn contour.sourceId ≠ [] := by
          rw [saves.sound.contoursOn_eq live]
          exact List.cons_ne_nil _ _
        refine ⟨change.target, List.mem_map.mpr ⟨change, ?_, rfl⟩, by rw [target]; rfl⟩
        simp [List.mem_filter, member, target, carried]

omit saves in
theorem exists_of_mem_drawn {target : ContourTarget} (member : target ∈ body.drawn.map Prod.fst) :
    ∃ change ∈ body.contours, change.target = target ∧ change.zone ≠ none := by
  rcases List.mem_map.mp member with ⟨pair, isDrawn, rfl⟩
  rcases List.mem_filterMap.mp isDrawn with ⟨change, isChange, same⟩
  rcases Option.map_eq_some_iff.mp same with ⟨zone, hasZone, rfl⟩
  exact ⟨change, isChange, rfl, by rw [hasZone]; exact Option.some_ne_none _⟩

omit saves in
theorem nodup_drawn : (body.drawn.map Prod.fst).Nodup := by
  have sublist : ∀ changes : List SiteContourChange,
      ((changes.filterMap fun change => change.zone.map (change.target, ·)).map Prod.fst).Sublist
        (changes.map SiteContourChange.target) := by
    intro changes
    induction changes with
    | nil => exact .slnil
    | cons change changes inductionHypothesis =>
        cases zone : change.zone with
        | none =>
            rw [List.filterMap_cons_none (by rw [zone]; rfl), List.map_cons]
            exact inductionHypothesis.cons _
        | some shape =>
            rw [List.filterMap_cons_some (by rw [zone]; rfl), List.map_cons, List.map_cons]
            exact inductionHypothesis.cons_cons _
  exact body.changedOnce.sublist (sublist body.contours)

theorem names_drawn {target : ContourTarget} (member : target ∈ body.drawn.map Prod.fst) :
    Names site added target := by
  rcases exists_of_mem_drawn member with ⟨change, isChange, rfl, _⟩
  exact saves.names isChange

/-- A source that a save removes takes no zone, and keeps no contour. -/
theorem not_removed_of_drawn {sourceId : Uuid}
    (member : .stored sourceId ∈ body.drawn.map Prod.fst) :
    sourceId ∉ removed.map SiteSource.id := by
  intro gone
  rcases List.mem_map.mp gone with ⟨source, isRemoved, rfl⟩
  rcases exists_of_mem_drawn member with ⟨change, isChange, target, hasZone⟩
  have frees := (saves.removed source isRemoved).2
  unfold SiteVersionCreate.Frees at frees
  rw [changeOf_eq isChange target] at frees
  exact hasZone frees

theorem not_removed_of_kept {contour : SiteContour} (live : contour ∈ site.liveContours)
    (kept : body.keeps contour = true) : contour.sourceId ∉ removed.map SiteSource.id := by
  intro gone
  rcases List.mem_map.mp gone with ⟨source, isRemoved, same⟩
  have frees := (saves.removed source isRemoved).2
  unfold SiteVersionCreate.Frees at frees
  unfold SiteVersionCreate.keeps at kept
  rw [same, Option.isNone_iff_eq_none.mp kept] at frees
  have carried : contour ∈ site.contoursOn contour.sourceId := mem_contoursOn.mpr ⟨live, rfl⟩
  rw [frees] at carried
  exact absurd carried List.not_mem_nil

/-- An added source is not among the removed ones. -/
theorem not_removed_of_added {source : SiteSource} (isAdded : source ∈ added) :
    source.id ∉ removed.map SiteSource.id := by
  intro gone
  rcases List.mem_map.mp gone with ⟨other, isRemoved, same⟩
  rcases saves.areDrawn.exists isAdded with ⟨index, _, isDrawn⟩
  have stored := (mem_liveSources.mp (saves.removed other isRemoved).1).1
  exact saves.sound.fresh stored index (same.trans isDrawn)

omit saves in
theorem sourceIds_drawnContours {ids : Nat → Uuid} {userId : Uuid} :
    (drawnContours outside ids userId added shapes).map SiteContour.sourceId =
      (shapes.map Prod.fst).map (ContourTarget.sourceId added) := by
  unfold drawnContours
  rw [List.map_map, List.map_map]
  calc
    shapes.zipIdx.map _ = (shapes.zipIdx.map Prod.fst).map fun shape => shape.1.sourceId added := by
      rw [List.map_map]
      rfl
    _ = shapes.map _ := by
      rw [List.zipIdx_map_fst]
      rfl

variable {moved : Site}

theorem liveContours_moveContours {ids : Nat → Uuid} {userId : Uuid}
    (same : moved.contours = site.contours) :
    (body.moveContours outside ids userId site moved added shapes).liveContours =
      site.liveContours.filter body.keeps ++ drawnContours outside ids userId added shapes := by
  have sameLive : moved.liveContours = site.liveContours := by
    rw [liveContours, same]
    rfl
  have kept : (moved.supersede outside.now
      ((body.effective site).map (ContourTarget.sourceId added))).liveContours =
        site.liveContours.filter body.keeps := by
    rw [liveContours_supersede (sameLive ▸ saves.sound.single), sameLive]
    apply List.filter_congr
    intro contour live
    have iff := saves.mem_effective live
    cases kept : body.keeps contour with
    | true => simp [iff, kept]
    | false => simp [iff, kept]
  have new : (drawnContours outside ids userId added shapes).filter
      (fun contour => contour.supersededAt = none) =
        drawnContours outside ids userId added shapes := by
    rw [List.filter_eq_self]
    intro contour member
    rcases List.mem_map.mp member with ⟨_, _, rfl⟩
    rfl
  unfold SiteVersionCreate.moveContours
  rw [liveContours, List.filter_append, new]
  exact congrArg (· ++ _) kept

/-- A source of the site, or an added one, that a save does not remove is live. -/
theorem mem_liveSources_moveSources {source : SiteSource} :
    source ∈ (body.moveSources outside.now filed removed added).liveSources ↔
      (source ∈ site.liveSources ∨ source ∈ added) ∧ source.id ∉ removed.map SiteSource.id := by
  unfold SiteVersionCreate.moveSources
  rw [mem_liveSources_removeSources]
  apply and_congr_left'
  rw [mem_liveSources, mem_liveSources, List.mem_append, saves.sameSources, or_and_right]
  apply or_congr_right
  exact ⟨And.left, fun isAdded => ⟨isAdded, saves.live source isAdded⟩⟩

/-- Every contour a save leaves stands on a live source. -/
theorem standing {ids : Nat → Uuid} {userId : Uuid} {contour : SiteContour}
    (member : contour ∈ site.liveContours.filter body.keeps ++
      drawnContours outside ids userId added shapes) :
    ∃ source ∈ (body.moveSources outside.now filed removed added).liveSources,
      source.id = contour.sourceId := by
  rcases List.mem_append.mp member with old | new
  · rcases List.mem_filter.mp old with ⟨live, kept⟩
    rcases saves.sound.standing contour live with ⟨source, isLive, same⟩
    refine ⟨source, saves.mem_liveSources_moveSources.mpr ⟨.inl isLive, ?_⟩, same⟩
    rw [same]
    exact saves.not_removed_of_kept live kept
  · have inIds : contour.sourceId ∈
        (drawnContours outside ids userId added shapes).map SiteContour.sourceId :=
      List.mem_map_of_mem new
    rw [sourceIds_drawnContours, saves.shapes] at inIds
    rcases List.mem_map.mp inIds with ⟨target, isDrawn, same⟩
    rw [← same]
    cases target with
    | stored sourceId =>
        rcases exists_of_mem_drawn isDrawn with ⟨change, isChange, target, _⟩
        rcases saves.stored sourceId (mem_storedTargets isChange target) with ⟨source, isLive, rfl⟩
        exact ⟨source, saves.mem_liveSources_moveSources.mpr
          ⟨.inl isLive, saves.not_removed_of_drawn isDrawn⟩, rfl⟩
    | added index =>
        have small : index < added.length := saves.names_drawn isDrawn
        refine ⟨added[index], saves.mem_liveSources_moveSources.mpr
          ⟨.inr (List.getElem_mem small), saves.not_removed_of_added (List.getElem_mem small)⟩, ?_⟩
        simp [ContourTarget.sourceId, small]

/-- No two contours a save leaves stand on one source. -/
theorem single {ids : Nat → Uuid} {userId : Uuid} :
    ((site.liveContours.filter body.keeps ++
      drawnContours outside ids userId added shapes).map SiteContour.sourceId).Nodup := by
  rw [List.map_append, sourceIds_drawnContours, saves.shapes, List.nodup_append]
  refine ⟨saves.sound.single.sublist (List.filter_sublist.map _), ?_, ?_⟩
  · refine List.Nodup.map_on ?_ nodup_drawn
    intro left isLeft right isRight
    exact eq_of_sourceId saves.sound saves.areDrawn (saves.names_drawn isLeft)
      (saves.names_drawn isRight)
  · rintro sourceId isKept other isNew rfl
    rcases List.mem_map.mp isKept with ⟨contour, inKept, rfl⟩
    rcases List.mem_filter.mp inKept with ⟨live, kept⟩
    rcases List.mem_map.mp isNew with ⟨target, isDrawn, same⟩
    rcases exists_of_mem_drawn isDrawn with ⟨change, isChange, isTarget, _⟩
    have equal := eq_of_sourceId saves.sound saves.areDrawn (saves.names_drawn isDrawn)
      (saves.names_contour live) same
    unfold SiteVersionCreate.keeps at kept
    rw [changeOf_eq isChange (isTarget.trans equal)] at kept
    contradiction

theorem nonempty {ids : Nat → Uuid} {userId : Uuid} :
    site.liveContours.filter body.keeps ++ drawnContours outside ids userId added shapes ≠ [] := by
  rcases saves.contoured with kept | drawn
  · rcases List.any_eq_true.mp kept with ⟨contour, live, keeps⟩
    exact List.append_ne_nil_of_left_ne_nil
      (List.ne_nil_of_mem (List.mem_filter.mpr ⟨live, keeps⟩)) _
  · apply List.append_ne_nil_of_right_ne_nil
    intro none
    have noIds : (drawnContours outside ids userId added shapes).map SiteContour.sourceId = [] := by
      rw [none, List.map_nil]
    rw [sourceIds_drawnContours, saves.shapes, List.map_eq_nil_iff, List.map_eq_nil_iff] at noIds
    exact drawn noIds

/-- A save leaves a sound site. -/
theorem moves {userId : Uuid} :
    (body.moveContours outside (newIds settings drawn) userId site
      (body.moveSources outside.now filed removed added) added shapes).Sound settings
        (drawn + added.length) := by
  have live : (body.moveContours outside (newIds settings drawn) userId site
      (body.moveSources outside.now filed removed added) added shapes).liveContours =
        site.liveContours.filter body.keeps ++
          drawnContours outside (newIds settings drawn) userId added shapes :=
    saves.liveContours_moveContours saves.sameContours
  refine ⟨?_, ?_, ?_, ?_, ?_, saves.filedSound.numbers, saves.filedSound.started⟩
  · intro source member
    rcases exists_of_mem_removeSources member with ⟨before, isBefore, same⟩
    rw [← same]
    exact saves.filedSound.drawn_append saves.areDrawn before isBefore
  · show (List.map SiteSource.id (body.moveSources outside.now filed removed added).sources).Nodup
    unfold SiteVersionCreate.moveSources
    rw [ids_removeSources]
    exact saves.filedSound.once_append saves.areDrawn
  · rw [live]
    intro contour member
    exact saves.standing member
  · rw [live]
    exact saves.single
  · rw [live]
    exact saves.nonempty

end Saves

/-- The sources a save stages, as its statements leave them. -/
theorem stageAdded_eq_ok {userId : Uuid} {bodies : List SiteSourceCreate}
    {added : List SiteSource}
    (ok : stageAdded settings outside (newIds settings drawn) userId bodies = .ok added) :
    AreDrawn settings drawn added ∧ (∀ source ∈ added, source.removedAt = none) ∧
      added.length = bodies.length := by
  unfold stageAdded at ok
  have length : added.length = bodies.length := by
    have same := (mapM_eq_ok.mp ok).length_eq
    rw [List.length_zipIdx] at same
    exact same.symm
  have ids : added.map SiteSource.id =
      bodies.zipIdx.map fun pair => newIds settings drawn pair.2 :=
    map_eq_of_mapM_eq_ok ok fun staged => (stageSiteSource_eq_ok staged).1
  refine ⟨?_, ?_, length⟩
  · calc
      added.map SiteSource.id = (bodies.zipIdx.map Prod.snd).map (newIds settings drawn) := by
        rw [ids, List.map_map]
        rfl
      _ = (List.range added.length).map (newIds settings drawn) := by
        rw [List.zipIdx_map_snd, length, List.range_eq_range']
  · intro source member
    rcases exists_of_mapM_eq_ok ok member with ⟨_, _, staged⟩
    exact (stageSiteSource_eq_ok staged).2

theorem sound_of_saveVersion (sound : site.Sound settings drawn) {userId : Uuid}
    {body : SiteVersionCreate}
    (ok : saveVersion settings outside (newIds settings drawn) userId body site = .ok next) :
    next.Sound settings (drawn + body.addedSources.length) ∧ site.Follows next := by
  unfold saveVersion at ok
  simp only [bind_eq_ok, pure_eq_ok, require_eq_ok] at ok
  rcases ok with ⟨_, _, removed, areRemoved, _, _, stored, areStored, _, frees, _, contoured,
    shapes, areShapes, _, _, _, _, filed, isFiled, added, staged, rfl⟩
  rcases stageAdded_eq_ok staged with ⟨areDrawn, live, length⟩
  have filing : filed.Sound settings drawn ∧ site.Follows filed ∧ filed.sources = site.sources ∧
      filed.contours = site.contours := by
    unfold SiteVersionCreate.fileMoved at isFiled
    split at isFiled
    · refine ⟨sound.fileVersion isFiled, follows_of_fileVersion isFiled rfl, ?_⟩
      rw [fileVersion_eq_ok isFiled]
      exact ⟨rfl, rfl⟩
    · cases isFiled
      exact ⟨sound, .inl rfl, rfl, rfl⟩
  have saves : Saves settings drawn site body removed filed added shapes := by
    refine ⟨sound, ?_, ?_, contoured, ?_, filing.1, filing.2.2.1, filing.2.2.2, areDrawn, live,
      length⟩
    · intro source member
      rcases exists_of_mapM_eq_ok areRemoved member with ⟨_, _, found⟩
      exact ⟨(liveSource_eq_ok found).1, frees source member⟩
    · intro sourceId member
      rcases exists_output_of_mapM_eq_ok areStored member with ⟨source, _, found⟩
      exact ⟨source, liveSource_eq_ok found⟩
    · apply map_eq_of_mapM_eq_ok areShapes
      intro input output drawnShape
      rw [map_eq_ok] at drawnShape
      rcases drawnShape with ⟨_, _, rfl⟩
      rfl
  rw [← length]
  exact ⟨saves.moves, filing.2.1⟩

/-- Every write on a sound site leaves it sound, and files what it supersedes. -/
theorem sound_of_write (sound : site.Sound settings drawn) {call : SiteCall}
    (ok : call.write settings outside (newIds settings drawn) site = .ok next) :
    next.Sound settings (drawn + call.draws) ∧ site.Follows next := by
  cases call with
  | fileSource authorId body => exact sound_of_fileSiteSource sound ok
  | removeSource userId sourceId => exact sound_of_removeSiteSource sound ok
  | saveVersion userId body =>
      rcases sound_of_saveVersion sound ok with ⟨soundNext, follows⟩
      exact ⟨soundNext.mono (by simp only [SiteCall.draws]; omega), follows⟩

/-! ### Runs -/

namespace SiteState

variable {state next : SiteState} {actor process : Nat} {running : SiteProcess} {siteId : Uuid}

/-- The process holds the row of the site, and no other. -/
def Holds (state : SiteState) (process : Nat) (siteId : Uuid) : Prop :=
  ∀ other, state.sites.holder other = some process ↔ other = siteId

/-- What the process would commit follows what is committed. -/
def Prepared (state : SiteState) (process : Nat) (siteId : Uuid) : Prop :=
  ∃ after, state.sites.read process siteId = some after ∧
    match state.sites.committed siteId with
    | some before => before.Follows after
    | none => after.versions = []

def Owes (state : SiteState) (process : Nat) : SiteProcess → Prop
  | .idle | .raised _ | .create _ _ | .lock _ _ => state.sites.Holdless process
  | .write siteId _ => state.Holds process siteId ∧
    ∃ site, state.sites.committed siteId = some site ∧
      state.sites.read process siteId = some site
  | .commit siteId => state.Holds process siteId ∧ state.Prepared process siteId

/-- The invariant of every run. -/
structure Sound (settings : SiteSettings) (state : SiteState) : Prop where
  sites : ∀ {siteId site}, state.sites.Shows siteId site → site.Sound settings state.drawn
  drawn : ∀ {siteId site}, state.sites.Shows siteId site →
    ∃ index < state.drawn, siteId = settings.uuids.draw index
  owes : ∀ process, state.Owes process (state.processes process)

/-- The steps of the others keep what a process has secured. -/
theorem Owes.evolves (evolves : Table.StepBy actor state.sites next.sites)
    (other : process ≠ actor) (owes : state.Owes process running) :
    next.Owes process running := by
  cases running with
  | idle | raised _ | create _ _ | lock _ _ => exact evolves.holdless other owes
  | write siteId call =>
      rcases owes with ⟨holds, row⟩
      have held := (holds siteId).mpr rfl
      refine ⟨fun site => (evolves.holder other).trans (holds site), ?_⟩
      rw [evolves.committed other held, evolves.read other held]
      exact row
  | commit siteId =>
      rcases owes with ⟨holds, prepared⟩
      have held := (holds siteId).mpr rfl
      refine ⟨fun site => (evolves.holder other).trans (holds site), ?_⟩
      unfold Prepared
      rw [evolves.committed other held, evolves.read other held]
      exact prepared

/-- A step of one process is sound when what it shows anew and secures is. -/
theorem Sound.acts (sound : state.Sound settings)
    (processes : next.processes = Function.update state.processes process running)
    (evolves : Table.StepBy process state.sites next.sites) (grows : state.drawn ≤ next.drawn)
    (shows' : ∀ {siteId site}, next.sites.Shows siteId site → state.sites.Shows siteId site ∨
      site.Sound settings next.drawn ∧ ∃ index < next.drawn, siteId = settings.uuids.draw index)
    (owes : next.Owes process running) : next.Sound settings := by
  refine ⟨?_, ?_, ?_⟩
  · intro siteId site shown
    rcases shows' shown with before | ⟨new, _⟩
    · exact (sound.sites before).mono grows
    · exact new
  · intro siteId site shown
    rcases shows' shown with before | ⟨_, new⟩
    · rcases sound.drawn before with ⟨index, small, same⟩
      exact ⟨index, lt_of_lt_of_le small grows, same⟩
    · exact new
  · intro reader
    rw [processes]
    by_cases mine : reader = process
    · subst mine
      rw [Function.update_self]
      exact owes
    · rw [Function.update_of_ne mine]
      exact (sound.owes reader).evolves evolves mine

theorem Sound.moves (sound : state.Sound settings) (process : Nat)
    (owes : state.Owes process running) : (state.setProcess process running).Sound settings := by
  refine sound.acts rfl (.refl _) (le_refl _) .inl ?_
  exact owes.evolves (.refl _) (Nat.succ_ne_self process).symm

theorem Sound.raise (sound : state.Sound settings) (process : Nat) (refusal : SiteError) :
    (state.raise process refusal).Sound settings :=
  sound.acts rfl (.rollback ..) (le_refl _) (fun shown => .inl (Table.Shows.rollback shown))
    (Table.holdless_rollback _ _)

/-- Nobody holds a row that shows nothing. -/
theorem Sound.holder_eq_none (sound : state.Sound settings)
    (unshown : ∀ site, ¬ state.sites.Shows siteId site) : state.sites.holder siteId = none := by
  cases held : state.sites.holder siteId with
  | none => rfl
  | some process =>
      have owes := sound.owes process
      cases running : state.processes process with
      | idle | raised _ | create _ _ | lock _ _ =>
          rw [running] at owes
          exact absurd held (owes siteId)
      | write target call =>
          rw [running] at owes
          rcases owes with ⟨holds, site, committed, _⟩
          rw [(holds siteId).mp held] at unshown
          exact absurd (.of_committed committed) (unshown site)
      | commit target =>
          rw [running] at owes
          rcases owes with ⟨holds, site, reads, _⟩
          rw [(holds siteId).mp held] at unshown
          exact absurd (.of_read reads) (unshown site)

/-- A process that held nothing holds the row it writes. -/
theorem holds_write (holdless : state.sites.Holdless process) {value : Option Site}
    (sites : next.sites = state.sites.write process siteId value) :
    next.Holds process siteId := by
  intro other
  rw [sites, Table.holder_write]
  split
  · rename_i here
    simp [here]
  · rename_i elsewhere
    exact iff_of_false (holdless other) elsewhere

theorem Sound.create (sound : state.Sound settings) {outside : Outside} {ownerId : Uuid}
    {body : SiteCreate} (running : state.processes process = .create ownerId body) :
    (state.create settings process outside ownerId body).Sound settings := by
  have holdless := sound.owes process
  rw [running] at holdless
  unfold SiteState.create
  split
  · exact sound.raise process _
  · rename_i site created
    rcases sound_of_createSite created with ⟨soundSite, unfiled, isId⟩
    have unshown : ∀ other, ¬ state.sites.Shows site.id other := by
      intro other shown
      rcases sound.drawn shown with ⟨index, small, same⟩
      have draws := settings.uuids.draw_injective (isId.symm.trans same)
      omega
    have absent : state.sites.committed site.id = none := by
      cases committed : state.sites.committed site.id with
      | none => rfl
      | some other => exact absurd (.of_committed committed) (unshown other)
    refine sound.acts rfl (.write _ (.inl (sound.holder_eq_none unshown)))
      (Nat.le_add_right ..) ?_ ⟨holds_write holdless rfl, site, Table.read_write_self .., ?_⟩
    · intro siteId other shown
      rcases Table.Shows.write shown with before | ⟨here, same⟩
      · exact .inl before
      · cases same
        refine .inr ⟨soundSite, state.drawn, Nat.lt_add_of_pos_right (by decide), ?_⟩
        rw [here, isId]
    · rw [Table.committed_write, absent]
      exact unfiled

theorem Sound.lockSite (sound : state.Sound settings) {call : SiteCall}
    (running : state.processes process = .lock siteId call)
    (stepped : state.lockSite process siteId call = .ok next) : next.Sound settings := by
  have holdless := sound.owes process
  rw [running] at holdless
  unfold SiteState.lockSite at stepped
  split at stepped
  · cases stepped
    exact sound.raise process _
  · rename_i site reads
    split at stepped
    · cases stepped
      exact sound.raise process _
    · split at stepped
      · contradiction
      · rename_i free
        rw [not_not] at free
        cases stepped
        refine sound.acts rfl (.write _ free) (le_refl _) ?_ ⟨holds_write holdless rfl, site, ?_, ?_⟩
        · intro other row shown
          rcases Table.Shows.write shown with before | ⟨rfl, same⟩
          · exact .inl before
          · exact .inl (.of_read same)
        · show (state.sites.write process siteId _).committed siteId = some site
          rw [Table.committed_write, ← Table.read_of_holdless _ process holdless]
          exact reads
        · show (state.sites.lock process siteId).read process siteId = some site
          rw [Table.read_lock]
          exact reads

theorem Sound.writeSite (sound : state.Sound settings) {outside : Outside} {call : SiteCall}
    (running : state.processes process = .write siteId call) :
    (state.writeSite settings process outside siteId call).Sound settings := by
  have owes := sound.owes process
  rw [running] at owes
  rcases owes with ⟨holds, before, committed, reads⟩
  unfold SiteState.writeSite
  rw [reads]
  simp only
  split
  · exact sound.raise process _
  · rename_i after written
    rcases sound_of_write (sound.sites (.of_committed committed)) written with ⟨soundAfter, follows⟩
    refine sound.acts rfl (.write _ (.inr ((holds siteId).mpr rfl))) (Nat.le_add_right ..) ?_
      ⟨?_, after, Table.read_write_self .., ?_⟩
    · intro other row shown
      rcases Table.Shows.write shown with old | ⟨rfl, same⟩
      · exact .inl old
      · cases same
        rcases sound.drawn (.of_committed committed) with ⟨index, small, isDrawn⟩
        exact .inr ⟨soundAfter, index, lt_of_lt_of_le small (Nat.le_add_right ..), isDrawn⟩
    · intro other
      show (state.sites.write process siteId _).holder other = _ ↔ _
      rw [Table.holder_write]
      split
      · rename_i here
        simp [here]
      · exact holds other
    · rw [Table.committed_write, committed]
      exact follows

theorem Sound.commit (sound : state.Sound settings) :
    ({ state.setProcess process .idle with sites := state.sites.commit process }).Sound
      settings :=
  sound.acts rfl (.commit ..) (le_refl _) (fun shown => .inl (Table.Shows.commit shown))
    (Table.holdless_commit _ _)

theorem Sound.starts (sound : state.Sound settings)
    (owes : state.sites.Holdless process → state.Owes process running)
    (stepped : state.start process running = .ok next) : next.Sound settings := by
  unfold start at stepped
  split at stepped
  · rename_i ended
    cases stepped
    refine sound.moves process (owes ?_)
    have holdless := sound.owes process
    cases before : state.processes process with
    | idle | raised refusal =>
        rw [before] at holdless
        exact holdless
    | _ =>
        rw [before] at ended
        contradiction
  · contradiction

theorem Sound.step (sound : state.Sound settings) {label : SiteLabel}
    (stepped : SiteState.step settings label state = .ok next) : next.Sound settings := by
  cases label with
  | create process ownerId body => exact sound.starts id stepped
  | call process siteId call => exact sound.starts id stepped
  | fail process =>
      cases stepped
      exact sound.raise process _
  | run process outside =>
      change state.runProcess settings process outside = .ok next at stepped
      unfold runProcess at stepped
      cases running : state.processes process with
      | idle | raised refusal =>
          simp only [running] at stepped
          contradiction
      | create ownerId body =>
          simp only [running, Except.ok.injEq] at stepped
          subst stepped
          exact sound.create running
      | lock siteId call =>
          simp only [running] at stepped
          exact sound.lockSite running stepped
      | write siteId call =>
          simp only [running, Except.ok.injEq] at stepped
          subst stepped
          exact sound.writeSite running
      | commit siteId =>
          simp only [running, Except.ok.injEq] at stepped
          subst stepped
          exact sound.commit

theorem Initial.sound (initial : state.Initial) : state.Sound settings := by
  have unshown : ∀ {siteId site}, ¬ state.sites.Shows siteId site := by
    rw [initial.sites]
    rintro siteId site (committed | ⟨reader, reads⟩)
    · exact absurd committed (Option.some_ne_none _).symm
    · exact absurd reads (Option.some_ne_none _).symm
  refine ⟨fun shown => absurd shown unshown, fun shown => absurd shown unshown, ?_⟩
  intro process
  have holdless : state.sites.Holdless process := by
    intro siteId
    rw [initial.sites]
    exact (Option.some_ne_none _).symm
  have ended := initial.ended process
  cases here : state.processes process with
  | idle | raised refusal => exact holdless
  | _ =>
      rw [here] at ended
      contradiction

theorem sound_of_reachable (reachable : (siteSystem settings).Reachable state) :
    state.Sound settings :=
  System.Reachable.invariant Initial.sound (fun sound stepped => sound.step stepped) reachable

/-! ### What is committed -/

@[simp] theorem committed_raise (refusal : SiteError) :
    (state.raise process refusal).sites.committed siteId = state.sites.committed siteId :=
  Table.committed_rollback ..

/-- The commit of a site. -/
structure Commits (state : SiteState) (label : SiteLabel) (next : SiteState) (siteId : Uuid) :
    Prop where
  runs : ∃ process outside, label = .run process outside ∧
    state.processes process = .commit siteId ∧ next.processes process = .idle ∧
    next.sites.committed siteId = state.sites.read process siteId

/-- Only its commit changes a committed site. -/
theorem committed_of_step (sound : state.Sound settings) {label : SiteLabel}
    (stepped : SiteState.step settings label state = .ok next) (siteId : Uuid) :
    next.sites.committed siteId = state.sites.committed siteId ∨
      state.Commits label next siteId := by
  cases label with
  | create process ownerId body | call process target call =>
      unfold SiteState.step start at stepped
      simp only at stepped
      split at stepped
      · cases stepped
        exact .inl rfl
      · contradiction
  | fail process =>
      cases stepped
      exact .inl (committed_raise _)
  | run process outside =>
      change state.runProcess settings process outside = .ok next at stepped
      unfold runProcess at stepped
      cases running : state.processes process with
      | idle | raised refusal =>
          simp only [running] at stepped
          contradiction
      | create ownerId body =>
          simp only [running, Except.ok.injEq, SiteState.create] at stepped
          subst stepped
          left
          split
          · exact committed_raise _
          · exact Table.committed_write ..
      | lock target call =>
          simp only [running, SiteState.lockSite] at stepped
          left
          split at stepped
          · cases stepped
            exact committed_raise _
          · split at stepped
            · cases stepped
              exact committed_raise _
            · split at stepped
              · contradiction
              · cases stepped
                exact Table.committed_write ..
      | write target call =>
          simp only [running, Except.ok.injEq, SiteState.writeSite] at stepped
          subst stepped
          left
          split
          · exact committed_raise _
          · split
            · exact committed_raise _
            · exact Table.committed_write ..
      | commit target =>
          simp only [running, Except.ok.injEq] at stepped
          subst stepped
          by_cases here : siteId = target
          · subst here
            exact .inr ⟨process, outside, rfl, running, Function.update_self ..,
              Table.committed_commit ..⟩
          · have owes := sound.owes process
            rw [running] at owes
            have unheld : state.sites.holder siteId ≠ some process :=
              fun held => here ((owes.1 siteId).mp held)
            left
            show (state.sites.commit process).committed siteId = _
            rw [Table.committed_commit, Table.read_of_holder_ne _ _ unheld]

/-- Every filed version was filed by a write of the run, from the state it lists. -/
def Filed (system : System SiteState SiteLabel) (state : SiteState) : Prop :=
  ∀ siteId site, state.sites.committed siteId = some site → ∀ version ∈ site.versions,
    ∃ before label after earlier later, system.Reachable before ∧
      system.Step before label after ∧ system.Run after state ∧
      before.sites.committed siteId = some earlier ∧ version ∉ earlier.versions ∧
      after.sites.committed siteId = some later ∧ version ∈ later.versions ∧
      version.snapshot.Lists earlier

/-- A state that a run has led to, with what the run filed. -/
structure Recorded (system : System SiteState SiteLabel) (state : SiteState) : Prop where
  reachable : system.Reachable state
  filed : Filed system state

/-- The version a write files has a number of its own. -/
theorem not_mem_versions {drawn : Nat} {site : Site} (sound : site.Sound settings drawn)
    {version : SiteVersion} (number : version.versionNo = site.versionNo) :
    version ∉ site.versions := by
  intro member
  have inNumbers : version.versionNo ∈ site.versions.map SiteVersion.versionNo :=
    List.mem_map_of_mem member
  rw [sound.numbers, number, List.mem_range'_1] at inNumbers
  have started := sound.started
  omega

theorem Filed.step (filed : Filed (siteSystem settings) state)
    (reachable : (siteSystem settings).Reachable state) {label : SiteLabel}
    (stepped : (siteSystem settings).Step state label next) :
    Filed (siteSystem settings) next := by
  have sound := sound_of_reachable reachable
  have since : ∀ {siteId site}, state.sites.committed siteId = some site →
      ∀ version ∈ site.versions, ∃ before label after earlier later,
        (siteSystem settings).Reachable before ∧ (siteSystem settings).Step before label after ∧
        (siteSystem settings).Run after next ∧
        before.sites.committed siteId = some earlier ∧ version ∉ earlier.versions ∧
        after.sites.committed siteId = some later ∧ version ∈ later.versions ∧
        version.snapshot.Lists earlier := by
    intro siteId site committed version member
    rcases filed siteId site committed version member with
      ⟨before, earlierLabel, after, earlier, later, isReachable, step, run, rest⟩
    exact ⟨before, earlierLabel, after, earlier, later, isReachable, step,
      run.tail ⟨label, stepped⟩, rest⟩
  intro siteId site committed version member
  rcases committed_of_step sound stepped siteId with same | ⟨process, _, _, running, _, reads⟩
  · rw [same] at committed
    exact since committed version member
  · have owes := sound.owes process
    rw [running] at owes
    rcases owes.2 with ⟨after, pending, follows⟩
    rw [reads, pending, Option.some.injEq] at committed
    subst committed
    cases committedBefore : state.sites.committed siteId with
    | none =>
        rw [committedBefore] at follows
        rw [follows] at member
        exact absurd member List.not_mem_nil
    | some before =>
        rw [committedBefore] at follows
        have soundBefore := sound.sites (.of_committed committedBefore)
        rcases follows with unfiled | ⟨new, versions, number, snapshot⟩
        · rw [unfiled] at member
          exact since committedBefore version member
        · rw [versions] at member
          rcases List.mem_append.mp member with old | isNew
          · exact since committedBefore version old
          · rw [List.mem_singleton] at isNew
            subst isNew
            refine ⟨state, label, next, before, after, reachable, stepped, .refl, committedBefore,
              not_mem_versions soundBefore number, by rw [reads, pending], ?_, ?_⟩
            · rw [versions]
              exact List.mem_append_right _ (List.mem_singleton_self _)
            · rw [snapshot]
              exact soundBefore.snapshot_lists

theorem recorded_of_reachable (reachable : (siteSystem settings).Reachable state) :
    Recorded (siteSystem settings) state := by
  refine System.Reachable.invariant ?_ ?_ reachable
  · intro start initial
    refine ⟨.init initial, ?_⟩
    intro siteId site committed
    rw [SiteState.Initial.sites initial] at committed
    exact absurd committed (Option.some_ne_none _).symm
  · rintro before label after ⟨isReachable, filed⟩ stepped
    exact ⟨isReachable.step stepped, filed.step isReachable stepped⟩

end SiteState

open SiteState

end Vidit.Sites
