import Vidit.Maps.Update

/-!
Contract: what a pass leaves of the map that `latest.json` names.

Owns:
- `Serves`, a valid `latest.json` and the objects it names;
- what each step of a pass leaves alone, and what it does to the named objects;
- `keepsServed_iff`: a pass that raises leaves the served map exactly when it spares
  it, and a pass that returns keeps every object the old and the new file name.

Does not own: the steps (`Vidit.Maps.Update`).
-/

namespace Vidit.Maps

open Vidit.Python Vidit.Library

variable (outside : Outside) (config : MapConfig)

/-- The object of a name. -/
def objectAt (name : Str) (bucket : Bucket) : Option StoredFile :=
  bucket.get? (config.key name)

/-- The content of a named object. -/
def contentAt (name : Str) (bucket : Bucket) : Option Bytes :=
  (objectAt config name bucket).map StoredFile.content

/-- The objects a reader of `latest.json` fetches; of a sprite, its four files. -/
def Latest.objects (latest : Latest) : List Str :=
  latest.files.planet.key :: latest.files.naturalEarth.key :: latest.files.relief.key ::
    [str ".json", str ".png", str "@2x.json", str "@2x.png"].map (latest.files.sprite ++ ·)

/-- The bucket holds a valid `latest.json`: its entries name files in their own folders,
and every one of them is there. -/
structure Serves (bucket : Bucket) (latest : Latest) : Prop where
  stored : ∃ content, contentAt config latestKey bucket = some content ∧
    outside.loads content = .ok latest
  planet : startsWith latest.files.planet.key (str "planet/")
  sprite : ∃ style, latest.files.sprite = spriteKey style
  naturalEarth : startsWith latest.files.naturalEarth.key (str "natural-earth/")
  relief : startsWith latest.files.relief.key (str "relief/")
  present : ∀ name ∈ latest.objects, (objectAt config name bucket).isSome

/-! ### Names and folders -/

theorem ne_of_head? {left right : Str} {first : Nat} (here : left.head? = some first)
    (elsewhere : right.head? ≠ some first) : left ≠ right := by
  rintro rfl
  exact elsewhere here

theorem head?_of_startsWith {name : Str} {first : Nat} {folder : Str}
    (starts : startsWith name (first :: folder)) : name.head? = some first := by
  cases name with
  | nil => simp [startsWith] at starts
  | cons point rest =>
      simp only [startsWith, List.isPrefixOf_cons_cons, Bool.and_eq_true, beq_iff_eq] at starts
      rw [List.head?_cons, starts.1]

theorem head?_planetName (version : Str) : (planetName version).head? = some (chr 'p') := rfl

theorem head?_naturalEarthName (zoom : Nat) :
    (naturalEarthName zoom).head? = some (chr 'n') := rfl

theorem head?_reliefName (zoom : Nat) : (reliefName zoom).head? = some (chr 'r') := rfl

theorem head?_spriteName (style file : Str) :
    (spriteName style file).head? = some (chr 's') := rfl

theorem spriteObjects (style : Str) :
    [str ".json", str ".png", str "@2x.json", str "@2x.png"].map (spriteKey style ++ ·) =
      spriteFiles.map (spriteName style) := by
  simp only [spriteKey, spriteName, spriteFiles, List.map_cons, List.map_nil, List.append_assoc]
  rfl

/-- The folder of a sprite is read off the names of its files. -/
theorem style_of_spriteName {style other file otherFile : Str} (listed : file ∈ spriteFiles)
    (otherListed : otherFile ∈ spriteFiles)
    (same : spriteName style file = spriteName other otherFile) : style = other := by
  have flat : ∀ name ∈ spriteFiles, chr '/' ∉ name := by decide
  have slash : ∀ style file, spriteName style file =
      (str "sprite/" ++ style) ++ chr '/' :: file := by
    intro style file
    simp only [spriteName, spriteFolder, List.append_assoc]
    rfl
  have split := congrArg (rpartition · (chr '/')) same
  simp only [slash] at split
  rw [rpartition_append (flat file listed), rpartition_append (flat otherFile otherListed)] at split
  exact List.append_cancel_left (Prod.mk.inj split).1

/-! ### Calls on the bucket -/

section Calls

variable {outside config} {name other : Str}

@[simp] theorem objectAt_put (file : StoredFile) (bucket : Bucket) :
    objectAt config other (bucket.put (config.key name) file) =
      if other = name then some file else objectAt config other bucket := by
  simp [objectAt]

@[simp] theorem objectAt_delete (bucket : Bucket) :
    objectAt config other (bucket.delete (config.key name)) =
      if other = name then none else objectAt config other bucket := by
  simp [objectAt]

theorem putObject_fixes {point : Point} {file : StoredFile} (different : other ≠ name) :
    (outside.putObject config point name file).Fixes (objectAt config other) :=
  .bind (.ask _) fun _ => .modify fun bucket => by simp [different]

theorem deleteObject_fixes (different : other ≠ name) :
    (outside.deleteObject config name).Fixes (objectAt config other) :=
  .bind (.ask _) fun _ => .modify fun bucket => by simp [different]

theorem call_eq_ok {point : Point} (done : Unit) :
    outside.call point = .ok done ↔ outside.fails point = none := by
  unfold Outside.call
  cases outside.fails point <;> simp

theorem existsAt_eq_ok {point : Point} {found : Bool} {bucket : Bucket} :
    outside.existsAt config point name bucket = .ok found ↔
      outside.fails point = none ∧ (objectAt config name bucket).isSome = found := by
  simp [Outside.existsAt, objectAt, call_eq_ok]

theorem deleteObject_ok {bucket : Bucket} (works : outside.fails (.delete name) = none) :
    outside.deleteObject config name bucket = (.ok (), bucket.delete (config.key name)) :=
  Attempt.bind_of_ok (by rw [Attempt.ask_apply, (call_eq_ok ()).mpr works])

theorem deleteObject_error {bucket : Bucket} {failure : Failure}
    (fails : outside.fails (.delete name) = some failure) :
    outside.deleteObject config name bucket = (.error failure, bucket) :=
  Attempt.bind_of_error (by rw [Attempt.ask_apply, Outside.call, fails])

theorem putObject_ok {point : Point} {file : StoredFile} {bucket : Bucket}
    (works : outside.fails point = none) :
    outside.putObject config point name file bucket =
      (.ok (), bucket.put (config.key name) file) :=
  Attempt.bind_of_ok (by rw [Attempt.ask_apply, (call_eq_ok ()).mpr works])

theorem putObject_error {point : Point} {file : StoredFile} {bucket : Bucket}
    {failure : Failure} (fails : outside.fails point = some failure) :
    outside.putObject config point name file bucket = (.error failure, bucket) :=
  Attempt.bind_of_error (by rw [Attempt.ask_apply, Outside.call, fails])

theorem present_of_range {point : Point} {start length : Nat} {bucket : Bucket} {got : Bytes}
    (answered : outside.range config point name start length bucket = .ok got) :
    (objectAt config name bucket).isSome := by
  simp only [Outside.range, bind_eq_ok] at answered
  rcases answered with ⟨_, _, found⟩
  split at found
  · cases found
  · rename_i file here
    simp [objectAt, here]

/-- An archive that passes its check is in the bucket. -/
theorem present_of_checkArchive {tileType : TileType} {maxZoom : Nat} {layers : List Str}
    {bucket : Bucket} {done : Unit}
    (checked : checkArchive outside config name tileType maxZoom layers bucket = .ok done) :
    (objectAt config name bucket).isSome := by
  simp only [checkArchive, bind_eq_ok] at checked
  rcases checked with ⟨raw, ranged, _⟩
  exact present_of_range ranged

end Calls

/-! ### The planet -/

/-- What `_copy_planet` has put when it comes to its check. -/
def copied (name : Str) (source : PlanetSource) (content : Bytes) (bucket : Bucket) : Bucket :=
  bucket.put (config.key name) ⟨content, some source.expected⟩

/-- The pass copies this content over the planet of the entry: the chosen version has the
entry's key, in another area. -/
structure CopiesOver (entry : PlanetEntry) (bucket : Bucket) (version : Str)
    (source : PlanetSource) (content : Bytes) : Prop where
  chosen : chosenVersion outside config = .ok version
  named : planetName version = entry.key
  otherArea : entry.area ≠ config.area
  listed : planetSource outside config version = .ok source
  stale : ∃ stored, storedSha256 outside config entry.key bucket = .ok stored ∧
    stored ≠ some source.expected
  downloaded : downloadPlanet outside config entry.key source = .ok content

/-- What the pass copies over the entry's planet is what was there, and its check leaves it. -/
def SparesPlanet (entry : PlanetEntry) (bucket : Bucket) : Prop :=
  ∀ version source content, CopiesOver outside config entry bucket version source content →
    contentAt config entry.key bucket = some content ∧
      (checkPlanet outside config entry.key (copied config entry.key source content bucket) =
          .ok () ∨
        outside.fails (.delete entry.key) ≠ none)

section Planet

variable {outside config} {name other : Str}

theorem copyPlanet_fixes {source : PlanetSource} (different : other ≠ name) :
    (copyPlanet outside config name source).Fixes (objectAt config other) := by
  refine .bind (.ask _) fun content => ?_
  refine .bind (.modify fun bucket => by simp [different]) fun _ => ?_
  exact .onRaise (.ask _) (deleteObject_fixes different)

theorem placePlanet_fixes {version : Str} (different : other ≠ planetName version) :
    (placePlanet outside config version).Fixes (objectAt config other) := by
  unfold placePlanet
  refine .bind (.ask _) fun source => .bind (.ask _) fun stored => ?_
  split
  · exact .bind (.ask _) fun _ => .pure _
  · exact .bind (copyPlanet_fixes different) fun _ => .pure _

theorem updatePlanet_fixes {current : Option PlanetEntry}
    (elsewhere : other.head? ≠ some (chr 'p')) :
    (updatePlanet outside config current).Fixes (objectAt config other) := by
  unfold updatePlanet
  refine .bind (.ask _) fun version => .bind (.ask _) fun kept => ?_
  cases kept with
  | some entry => exact .pure _
  | none => exact placePlanet_fixes (ne_of_head? (head?_planetName version) elsewhere).symm

section Copied

variable {source : PlanetSource} {content : Bytes} {bucket : Bucket}

/-- Once the download is put, the rest is the check. -/
theorem copyPlanet_apply (downloaded : downloadPlanet outside config name source = .ok content) :
    copyPlanet outside config name source bucket =
      Attempt.onRaise (fun _ => true) (.ask (checkPlanet outside config name))
        (outside.deleteObject config name) (copied config name source content bucket) := by
  unfold copyPlanet
  rw [Attempt.bind_of_ok (by rw [Attempt.ask_apply, downloaded]),
    Attempt.bind_of_ok (Attempt.modify_apply _ _)]
  rfl

theorem copyPlanet_checked (downloaded : downloadPlanet outside config name source = .ok content)
    (checked : checkPlanet outside config name (copied config name source content bucket) =
      .ok ()) :
    copyPlanet outside config name source bucket =
      (.ok (), copied config name source content bucket) :=
  (copyPlanet_apply downloaded).trans
    (Attempt.onRaise_of_ok (by rw [Attempt.ask_apply, checked]))

theorem copyPlanet_deleted (downloaded : downloadPlanet outside config name source = .ok content)
    {raised : Failure}
    (refused : checkPlanet outside config name (copied config name source content bucket) =
      .error raised) (works : outside.fails (.delete name) = none) :
    copyPlanet outside config name source bucket =
      (.error raised, (copied config name source content bucket).delete (config.key name)) :=
  (copyPlanet_apply downloaded).trans
    (Attempt.onRaise_of_cleaned (by rw [Attempt.ask_apply, refused]) rfl (deleteObject_ok works))

theorem copyPlanet_left (downloaded : downloadPlanet outside config name source = .ok content)
    {raised failure : Failure}
    (refused : checkPlanet outside config name (copied config name source content bucket) =
      .error raised) (fails : outside.fails (.delete name) = some failure) :
    copyPlanet outside config name source bucket =
      (.error failure, copied config name source content bucket) :=
  (copyPlanet_apply downloaded).trans
    (Attempt.onRaise_of_notCleaned (by rw [Attempt.ask_apply, refused]) rfl
      (deleteObject_error fails))

end Copied

/-- A planet whose entry is kept, or which is found in place, is left as it was; the other
passes copy over it. -/
theorem currentPlanet_eq_none {entry : PlanetEntry} {bucket : Bucket} {version : Str}
    (present : (objectAt config entry.key bucket).isSome) (named : planetName version = entry.key)
    (notKept : currentPlanet outside config (some entry) (planetName version) bucket =
      .ok none) : entry.area ≠ config.area := by
  intro sameArea
  unfold currentPlanet at notKept
  simp only [named, sameArea, and_self, if_true, bind_eq_ok, pure_eq_ok] at notKept
  rcases notKept with ⟨found, exists', answered⟩
  rw [existsAt_eq_ok, present] at exists'
  simp [← exists'.2] at answered

theorem CopiesOver.unique {entry : PlanetEntry} {bucket : Bucket} {version version' : Str}
    {source source' : PlanetSource} {content content' : Bytes}
    (copies : CopiesOver outside config entry bucket version source content)
    (copies' : CopiesOver outside config entry bucket version' source' content') :
    version = version' ∧ source = source' ∧ content = content' := by
  have sameVersion := Except.ok.inj (copies.chosen.symm.trans copies'.chosen)
  subst sameVersion
  have sameSource := Except.ok.inj (copies.listed.symm.trans copies'.listed)
  subst sameSource
  exact ⟨rfl, rfl, Except.ok.inj (copies.downloaded.symm.trans copies'.downloaded)⟩

/-- A pass that copies over the planet comes to `_copy_planet`. -/
theorem CopiesOver.updatePlanet {entry : PlanetEntry} {bucket : Bucket} {version : Str}
    {source : PlanetSource} {content : Bytes}
    (copies : CopiesOver outside config entry bucket version source content) :
    updatePlanet outside config (some entry) bucket =
      (copyPlanet outside config entry.key source >>= fun _ => pure {
        key := entry.key
        version := version
        area := config.area
        osmDate := source.osmDate
        sha256 := source.expected
        bytes := source.size }) bucket := by
  rcases copies.stale with ⟨stored, hashed, different⟩
  have notKept : currentPlanet outside config (some entry) (planetName version) bucket =
      .ok none := by
    simp [currentPlanet, copies.otherArea]
  unfold Maps.updatePlanet placePlanet
  rw [Attempt.bind_of_ok (by rw [Attempt.ask_apply, copies.chosen]),
    Attempt.bind_of_ok (by rw [Attempt.ask_apply, notKept])]
  simp only
  rw [Attempt.bind_of_ok (by rw [Attempt.ask_apply, copies.listed]), copies.named,
    Attempt.bind_of_ok (by rw [Attempt.ask_apply, hashed])]
  rw [if_neg different]

/-- A pass that does not copy over the planet leaves it. -/
theorem objectAt_updatePlanet_of_not_copies {entry : PlanetEntry} {bucket : Bucket}
    (present : (objectAt config entry.key bucket).isSome)
    (none' : ∀ version source content,
      ¬ CopiesOver outside config entry bucket version source content) :
    objectAt config entry.key (updatePlanet outside config (some entry) bucket).2 =
      objectAt config entry.key bucket := by
  unfold updatePlanet
  refine Attempt.Fixes.bind_ask_apply fun version chosen => ?_
  by_cases named : planetName version = entry.key
  · refine Attempt.Fixes.bind_ask_apply fun kept found => ?_
    cases kept with
    | some entry => rfl
    | none =>
        have otherArea := currentPlanet_eq_none present named found
        unfold placePlanet
        refine Attempt.Fixes.bind_ask_apply fun source listed => ?_
        refine Attempt.Fixes.bind_ask_apply fun stored hashed => ?_
        split
        · exact Attempt.Fixes.bind (.ask _) (fun _ => .pure _) bucket
        · rename_i different
          refine (Attempt.Fixes.after_bind (fun _ => .pure _) bucket).trans ?_
          unfold copyPlanet
          refine Attempt.Fixes.bind_ask_apply fun content downloaded => ?_
          rw [named] at hashed downloaded
          exact absurd
            ⟨chosen, named, otherArea, listed, ⟨stored, hashed, different⟩, downloaded⟩
            (none' version source content)
  · refine Attempt.Fixes.bind_ask_apply fun kept found => ?_
    cases kept with
    | some entry => rfl
    | none => exact placePlanet_fixes (fun same => named same.symm) bucket

/-- The planet step leaves the content of the named planet exactly when it spares it. -/
theorem contentAt_updatePlanet {entry : PlanetEntry} {bucket : Bucket}
    (present : (objectAt config entry.key bucket).isSome) :
    contentAt config entry.key (updatePlanet outside config (some entry) bucket).2 =
        contentAt config entry.key bucket ↔
      SparesPlanet outside config entry bucket := by
  by_cases some' : ∃ version source content,
      CopiesOver outside config entry bucket version source content
  · rcases some' with ⟨version, source, content, copies⟩
    have spares : SparesPlanet outside config entry bucket ↔
        contentAt config entry.key bucket = some content ∧
          (checkPlanet outside config entry.key (copied config entry.key source content bucket) =
              .ok () ∨
            outside.fails (.delete entry.key) ≠ none) := by
      constructor
      · intro spared
        exact spared version source content copies
      · rintro spared version' source' content' copies'
        rcases copies.unique copies' with ⟨rfl, rfl, rfl⟩
        exact spared
    have put : contentAt config entry.key (copied config entry.key source content bucket) =
        some content := by
      simp [contentAt, copied]
    have final : contentAt config entry.key (updatePlanet outside config (some entry) bucket).2 =
        contentAt config entry.key (copyPlanet outside config entry.key source bucket).2 := by
      rw [copies.updatePlanet]
      exact Attempt.Fixes.after_bind (fun _ => .pure _) bucket
    rw [spares, final]
    cases checked : checkPlanet outside config entry.key
        (copied config entry.key source content bucket) with
    | ok done =>
        rw [copyPlanet_checked copies.downloaded checked, put]
        simp [eq_comm]
    | error raised =>
        cases works : outside.fails (.delete entry.key) with
        | none =>
            rw [copyPlanet_deleted copies.downloaded checked works]
            have was : contentAt config entry.key bucket ≠ none := by
              simpa [contentAt] using Option.isSome_iff_ne_none.mp present
            simp [contentAt, eq_comm] at was ⊢
            exact was
        | some failure =>
            rw [copyPlanet_left copies.downloaded checked works, put]
            simp [eq_comm]
  · have notCopied : ∀ version source content,
        ¬ CopiesOver outside config entry bucket version source content :=
      fun version source content copies => some' ⟨version, source, content, copies⟩
    constructor
    · intro _ version source content copies
      exact absurd copies (notCopied version source content)
    · intro _
      rw [contentAt, contentAt, objectAt_updatePlanet_of_not_copies present notCopied]

/-- The planet a pass names is in the bucket; the others are as they were. -/
theorem placePlanet_ok {version : Str} {bucket next : Bucket} {planet : PlanetEntry}
    (returned : placePlanet outside config version bucket = (.ok planet, next)) :
    planet.key = planetName version ∧ (objectAt config (planetName version) next).isSome := by
  unfold placePlanet at returned
  simp only [Attempt.bind_eq_ok, Attempt.ask_eq_ok] at returned
  rcases returned with ⟨source, _, ⟨_, rfl⟩, stored, _, ⟨_, rfl⟩, placed⟩
  split at placed
  · simp only [Attempt.bind_eq_ok, Attempt.ask_eq_ok, Attempt.pure_eq_ok] at placed
    rcases placed with ⟨_, _, ⟨checked, rfl⟩, rfl, rfl⟩
    exact ⟨rfl, present_of_checkArchive checked⟩
  · simp only [copyPlanet, Attempt.bind_eq_ok, Attempt.ask_eq_ok, Attempt.pure_eq_ok,
      Attempt.onRaise_eq_ok] at placed
    rcases placed with ⟨_, _, ⟨_, _, _, _, _, _, checked, rfl⟩, rfl, rfl⟩
    exact ⟨rfl, present_of_checkArchive checked⟩

theorem updatePlanet_ok {current : Option PlanetEntry} {bucket next : Bucket}
    {planet : PlanetEntry}
    (returned : updatePlanet outside config current bucket = (.ok planet, next)) :
    planet.key.head? = some (chr 'p') ∧ (objectAt config planet.key next).isSome ∧
      ∀ other, other ≠ planet.key →
        objectAt config other next = objectAt config other bucket := by
  unfold updatePlanet at returned
  simp only [Attempt.bind_eq_ok, Attempt.ask_eq_ok] at returned
  rcases returned with ⟨version, _, ⟨_, rfl⟩, kept, _, ⟨found, rfl⟩, placed⟩
  cases kept with
  | some entry =>
      simp only [Attempt.pure_eq_ok] at placed
      rcases placed with ⟨rfl, rfl⟩
      cases current with
      | none => simp [currentPlanet] at found
      | some current =>
          simp only [currentPlanet] at found
          split at found
          · rename_i same
            simp only [bind_eq_ok, pure_eq_ok, existsAt_eq_ok] at found
            rcases found with ⟨isThere, ⟨_, present⟩, answered⟩
            cases isThere with
            | false => simp at answered
            | true =>
                simp only [if_true, Option.some.injEq] at answered
                subst answered
                rw [same.1]
                exact ⟨head?_planetName version, present, fun other _ => rfl⟩
          · simp at found
  | none =>
      rcases placePlanet_ok placed with ⟨named, present⟩
      rw [named]
      refine ⟨head?_planetName version, present, fun other different => ?_⟩
      exact (congrArg (fun ended => objectAt config other ended.2) placed).symm.trans
        (placePlanet_fixes different _)

end Planet

/-! ### The sprite -/

section Sprite

variable {outside config} {other : Str}

theorem copySprite_fixes {style : Str}
    (different : ∀ file ∈ spriteFiles, other ≠ spriteName style file) :
    (copySprite outside config style).Fixes (objectAt config other) := by
  intro bucket
  refine Attempt.Fixes.bind_ask_apply fun files downloaded => ?_
  refine Attempt.Fixes.forEach (fun file member => ?_) bucket
  refine putObject_fixes (different file.1 ?_)
  simp only [downloadSprite, bind_eq_ok, pure_eq_ok] at downloaded
  rcases downloaded with ⟨got, requested, _, _, rfl⟩
  rcases exists_of_mapM_eq_ok requested member with ⟨name, listed, answered⟩
  simp only [bind_eq_ok, pure_eq_ok] at answered
  rcases answered with ⟨response, _, same⟩
  rw [← same]
  exact listed

theorem updateSprite_fixes (elsewhere : other.head? ≠ some (chr 's')) :
    (updateSprite outside config).Fixes (objectAt config other) := by
  unfold updateSprite
  refine .bind (.ask _) fun style => .bind ?_ fun _ => .pure _
  refine .bind (.ask _) fun current => ?_
  split
  · exact .pure _
  · exact copySprite_fixes fun file _ same =>
      elsewhere (same ▸ head?_spriteName style file)

theorem allExist_eq_ok {bucket : Bucket} {names : List Str} {found : Bool}
    (answered : allExist outside config bucket names = .ok found) :
    (∀ name ∈ names, (objectAt config name bucket).isSome) ↔ found = true := by
  induction names with
  | nil =>
      simp only [allExist, pure_eq_ok] at answered
      simp [← answered]
  | cons name rest inductionHypothesis =>
      unfold allExist at answered
      cases asked : outside.existsAt config (.existsSprite name) name bucket with
      | error failure =>
          rw [asked] at answered
          cases answered
      | ok isThere =>
          rw [asked] at answered
          have here := (existsAt_eq_ok.mp asked).2
          cases isThere with
          | false =>
              simp only [pure_eq_ok] at answered
              subst answered
              simp [here]
          | true =>
              simp only [List.mem_cons, forall_eq_or_imp, here, true_and]
              exact inductionHypothesis answered

/-- A sprite whose files are all in place is left alone: the pass copies only another. -/
theorem updateSprite_fixes_present {style file : Str} (listed : file ∈ spriteFiles)
    {bucket : Bucket}
    (present : ∀ file ∈ spriteFiles, (objectAt config (spriteName style file) bucket).isSome) :
    objectAt config (spriteName style file) (updateSprite outside config bucket).2 =
      objectAt config (spriteName style file) bucket := by
  unfold updateSprite
  refine Attempt.Fixes.bind_ask_apply fun chosen _ => ?_
  refine (Attempt.Fixes.after_bind (fun _ => .pure _) bucket).trans ?_
  refine Attempt.Fixes.bind_ask_apply fun current answered => ?_
  split
  · rfl
  · rename_i missing
    refine copySprite_fixes (fun other otherListed same => ?_) bucket
    have sameStyle := style_of_spriteName listed otherListed same
    subst sameStyle
    refine missing ((allExist_eq_ok answered).mp fun name member => ?_)
    rcases List.mem_map.mp member with ⟨file, listed, rfl⟩
    exact present file listed

/-- Putting a sprite's files leaves each in place, with what was in place before. -/
theorem present_of_putFiles {style : Str} {files : List (Str × Bytes)} {bucket next : Bucket}
    {done : Unit}
    (put : Attempt.forEach files (putSpriteFile outside config style) bucket =
      (.ok done, next)) :
    (∀ file ∈ files, (objectAt config (spriteName style file.1) next).isSome) ∧
      ∀ other, (objectAt config other bucket).isSome → (objectAt config other next).isSome := by
  induction files generalizing bucket with
  | nil =>
      simp only [Attempt.forEach, Attempt.pure_eq_ok] at put
      rw [put.2]
      exact ⟨by simp, fun _ present => present⟩
  | cons file rest inductionHypothesis =>
      simp only [Attempt.forEach, Attempt.bind_eq_ok, putSpriteFile, Outside.putObject,
        Attempt.ask_eq_ok] at put
      rcases put with ⟨_, _, ⟨_, _, ⟨_, rfl⟩, changed⟩, later⟩
      cases changed
      rcases inductionHypothesis later with ⟨placed, kept⟩
      constructor
      · intro other member
        rcases List.mem_cons.mp member with rfl | inRest
        · exact kept _ (by simp)
        · exact placed other inRest
      · intro other present
        refine kept other ?_
        rw [objectAt_put]
        split
        · rfl
        · exact present

/-- The files of the sprite a pass names are in the bucket. -/
theorem updateSprite_ok {bucket next : Bucket} {sprite : Str}
    (returned : updateSprite outside config bucket = (.ok sprite, next)) :
    ∃ style, sprite = spriteKey style ∧
      ∀ file ∈ spriteFiles, (objectAt config (spriteName style file) next).isSome := by
  simp only [updateSprite, placeSprite, Attempt.bind_eq_ok, Attempt.ask_eq_ok,
    Attempt.pure_eq_ok] at returned
  rcases returned with ⟨style, _, ⟨_, rfl⟩, _, placed, ⟨current, _, ⟨answered, rfl⟩, ended⟩, rfl,
    rfl⟩
  refine ⟨style, rfl, fun file listed => ?_⟩
  split at ended
  · rename_i allThere
    rw [(Attempt.pure_eq_ok.mp ended).2]
    exact (allExist_eq_ok answered).mpr allThere _ (List.mem_map_of_mem listed)
  · simp only [copySprite, Attempt.bind_eq_ok, Attempt.ask_eq_ok] at ended
    rcases ended with ⟨files, _, ⟨downloaded, rfl⟩, put⟩
    simp only [downloadSprite, bind_eq_ok, pure_eq_ok] at downloaded
    rcases downloaded with ⟨got, requested, _, _, rfl⟩
    rcases exists_output_of_mapM_eq_ok requested listed with ⟨output, member, answered⟩
    simp only [bind_eq_ok, pure_eq_ok] at answered
    rcases answered with ⟨response, _, rfl⟩
    exact (present_of_putFiles put).1 _ member

end Sprite

/-! ### The raster archives -/

/-- The step finds the archive in place, refuses it and deletes it. -/
structure DropsRaster (name : Str) (maxZoom : Nat) (bucket : Bucket) : Prop where
  found : outside.fails (.existsRaster name) = none
  refused : ∃ message, checkRaster outside config name maxZoom bucket =
    .error (.mapUpdate message)
  deleted : outside.fails (.delete name) = none

section Raster

variable {outside config} {name other field attribution template : Str} {maxZoom : Nat}

theorem updateRaster_fixes (different : other ≠ name) :
    (updateRaster outside config name field attribution template maxZoom).Fixes
      (objectAt config other) := by
  refine .bind ?_ fun _ => .bind (.onRaise (.ask _) (deleteObject_fixes different)) fun _ => .pure _
  refine .bind (.ask _) fun found => ?_
  split
  · exact .pure _
  · exact .bind (.ask _) fun content => .modify fun bucket => by simp [different]

/-- The archive a pass names is in the bucket. -/
theorem updateRaster_ok {bucket next : Bucket} {entry : RasterEntry}
    (returned : updateRaster outside config name field attribution template maxZoom bucket =
      (.ok entry, next)) : entry = ⟨name, maxZoom⟩ ∧ (objectAt config name next).isSome := by
  simp only [updateRaster, Attempt.bind_eq_ok, Attempt.onRaise_eq_ok, Attempt.ask_eq_ok,
    Attempt.pure_eq_ok] at returned
  rcases returned with ⟨_, _, _, _, _, ⟨checked, rfl⟩, rfl, rfl⟩
  exact ⟨rfl, present_of_checkArchive checked⟩

theorem placeRaster_of_present {bucket : Bucket} (present : (objectAt config name bucket).isSome) :
    placeRaster outside config name field attribution template maxZoom bucket =
      match outside.fails (.existsRaster name) with
      | none => (.ok (), bucket)
      | some failure => (.error failure, bucket) := by
  unfold placeRaster
  cases asked : outside.fails (.existsRaster name) with
  | none =>
      rw [Attempt.bind_of_ok (by
        rw [Attempt.ask_apply, (existsAt_eq_ok).mpr ⟨asked, present⟩])]
      rfl
  | some failure =>
      refine Attempt.bind_of_error ?_
      rw [Attempt.ask_apply, Outside.existsAt, Outside.call, asked]
      rfl

/-- The raster step leaves an archive in place exactly when it does not drop it. -/
theorem contentAt_updateRaster {bucket : Bucket} (present : (objectAt config name bucket).isSome) :
    contentAt config name
          (updateRaster outside config name field attribution template maxZoom bucket).2 =
        contentAt config name bucket ↔
      ¬ DropsRaster outside config name maxZoom bucket := by
  have was : contentAt config name bucket ≠ none := by
    simpa [contentAt] using Option.isSome_iff_ne_none.mp present
  have placed := @placeRaster_of_present outside config name field attribution template maxZoom
    bucket present
  unfold updateRaster
  cases asked : outside.fails (.existsRaster name) with
  | some failure =>
      rw [asked] at placed
      rw [Attempt.bind_of_error placed]
      simp only [true_iff]
      intro drops
      rw [drops.found] at asked
      cases asked
  | none =>
      rw [asked] at placed
      rw [Attempt.bind_of_ok placed]
      cases checked : checkRaster outside config name maxZoom bucket with
      | ok done =>
          rw [Attempt.bind_of_ok (Attempt.onRaise_of_ok (by rw [Attempt.ask_apply, checked]))]
          simp only [Attempt.pure_apply, true_iff]
          rintro ⟨_, ⟨message, refused⟩, _⟩
          rw [checked] at refused
          cases refused
      | error raised =>
          cases caught : raised.isMapUpdate with
          | false =>
              rw [Attempt.bind_of_error
                (Attempt.onRaise_of_uncaught (by rw [Attempt.ask_apply, checked]) caught)]
              simp only [true_iff]
              rintro ⟨_, ⟨message, refused⟩, _⟩
              rw [checked, Except.error.injEq] at refused
              rw [refused] at caught
              cases caught
          | true =>
              cases works : outside.fails (.delete name) with
              | some failure =>
                  rw [Attempt.bind_of_error (Attempt.onRaise_of_notCleaned
                    (by rw [Attempt.ask_apply, checked]) caught (deleteObject_error works))]
                  simp only [true_iff]
                  intro drops
                  rw [drops.deleted] at works
                  cases works
              | none =>
                  rw [Attempt.bind_of_error (Attempt.onRaise_of_cleaned
                    (by rw [Attempt.ask_apply, checked]) caught (deleteObject_ok works))]
                  have drops : DropsRaster outside config name maxZoom bucket := by
                    refine ⟨asked, ?_, works⟩
                    cases raised with
                    | mapUpdate message => exact ⟨message, checked⟩
                    | storage => cases caught
                    | network => cases caught
                    | other => cases caught
                  simp only [drops, not_true_eq_false, iff_false]
                  simp [contentAt, eq_comm] at was ⊢
                  exact was

end Raster

/-- Where the archive is the one the entry names, the step does not drop it. -/
def SparesRaster (entry : RasterEntry) (name : Str) (maxZoom : Nat) (bucket : Bucket) : Prop :=
  entry.key = name → ¬ DropsRaster outside config name maxZoom bucket

section Raster

variable {outside config} {name field attribution template : Str} {maxZoom : Nat}

theorem contentAt_updateRaster_entry {entry : RasterEntry} {bucket : Bucket}
    (present : (objectAt config entry.key bucket).isSome) :
    contentAt config entry.key
          (updateRaster outside config name field attribution template maxZoom bucket).2 =
        contentAt config entry.key bucket ↔
      SparesRaster outside config entry name maxZoom bucket := by
  unfold SparesRaster
  by_cases named : entry.key = name
  · rw [named] at present ⊢
    rw [contentAt_updateRaster present]
    simp
  · rw [contentAt, contentAt, updateRaster_fixes named bucket]
    simp [named]

end Raster

/-! ### `latest.json` and the retention -/

/-- The pass puts another `latest.json`. -/
def Swaps (latest : Latest) (files : MapFiles) : Prop :=
  ¬ (latest.files = files ∧ latest.attribution = attribution) ∧
    outside.fails .putLatest = none

section Publish

variable {outside config} {other : Str}

theorem publishLatest_fixes {current : Option Latest} {files : MapFiles}
    (different : other ≠ latestKey) :
    (publishLatest outside config current files).Fixes (objectAt config other) := by
  unfold publishLatest
  split
  · exact .pure _
  · exact .bind (putObject_fixes different) fun _ => .pure _

theorem publishLatest_ok {current : Option Latest} {files : MapFiles} {bucket next : Bucket}
    {latest : Latest}
    (returned : publishLatest outside config current files bucket = (.ok latest, next)) :
    latest.files = files := by
  unfold publishLatest at returned
  cases found : current.filter fun latest =>
      latest.files = files ∧ latest.attribution = attribution with
  | some kept =>
      simp only [found, Attempt.pure_eq_ok] at returned
      rw [← returned.1]
      exact (of_decide_eq_true (Option.filter_eq_some_iff.mp found).2).1
  | none =>
      simp only [found, Attempt.bind_eq_ok, Attempt.pure_eq_ok] at returned
      rcases returned with ⟨_, _, _, rfl, _⟩
      rfl

/-- The stored `latest.json` stays exactly when the pass puts no other. -/
theorem contentAt_publishLatest {bucket : Bucket} {latest : Latest} {files : MapFiles}
    (stored : ∃ content, contentAt config latestKey bucket = some content ∧
      outside.loads content = .ok latest) :
    contentAt config latestKey (publishLatest outside config (some latest) files bucket).2 =
        contentAt config latestKey bucket ↔
      ¬ Swaps outside latest files := by
  rcases stored with ⟨content, here, loaded⟩
  unfold publishLatest Swaps
  by_cases same : latest.files = files ∧ latest.attribution = attribution
  · simp [Option.filter, same]
  · have filtered : (some latest).filter (fun latest =>
        latest.files = files ∧ latest.attribution = attribution) = none := by
      simp [Option.filter, same]
    rw [filtered]
    simp only
    cases works : outside.fails .putLatest with
    | some failure =>
        rw [Attempt.bind_of_error (putObject_error works)]
        simp
    | none =>
        rw [Attempt.bind_of_ok (putObject_ok works)]
        rw [here]
        simp only [Attempt.pure_apply, contentAt, objectAt_put, if_true, Option.map_some,
          Option.some.injEq, same, not_false_eq_true, and_self, not_true_eq_false, iff_false]
        intro sameContent
        rw [← sameContent, outside.loads_dumps, Except.ok.injEq] at loaded
        rw [← loaded] at same
        exact same ⟨rfl, rfl⟩

theorem applyRetention_fixes {shielded : List Str}
    (safe : other.head? ≠ some (chr 'p') ∨ other ∈ shielded) :
    (applyRetention outside config shielded).Fixes (objectAt config other) := by
  intro bucket
  refine Attempt.Fixes.bind_ask_apply fun doomed answered => ?_
  refine (Attempt.Fixes.after_bind (fun _ => .pure _) bucket).trans ?_
  refine Attempt.Fixes.forEach (fun name member => ?_) bucket
  refine deleteObject_fixes ?_
  simp only [bind_eq_ok, pure_eq_ok] at answered
  rcases answered with ⟨_, _, rfl⟩
  simp only [doomedPlanets, List.mem_filter, decide_eq_true_eq] at member
  rcases safe with elsewhere | sheltered
  · have isPlanet := List.mem_of_mem_drop member.1
    simp only [planetNames, mem_sortedBy, List.mem_filter, isPlanetName, Bool.and_eq_true]
      at isPlanet
    rintro rfl
    exact elsewhere (head?_of_startsWith isPlanet.2.1.1.1)
  · rintro rfl
    exact member.2 sheltered

end Publish

/-! ### The pass -/

/-- `latest.json` and every object it names are as they were. -/
def Intact (latest : Latest) (before after : Bucket) : Prop :=
  ∀ name ∈ latestKey :: latest.objects, contentAt config name after = contentAt config name before

/-- A pass that raises leaves the served map intact, and one that returns keeps every object
that the old and the new `latest.json` name. -/
def KeepsServed (bucket : Bucket) (latest : Latest) : Prop :=
  match run outside config bucket with
  | (.error _, after) => Intact config latest bucket after
  | (.ok new, after) =>
    ∀ name ∈ new.objects ++ latest.objects, (objectAt config name after).isSome

/-- The pass raises. -/
def Raises (bucket : Bucket) : Prop :=
  ∃ failure, (run outside config bucket).1 = .error failure

/-- No step of the pass harms the served map: the planet step copies nothing else over its
planet, no raster step drops an archive it names, and no other `latest.json` is put. -/
structure Spared (latest : Latest) (bucket : Bucket) : Prop where
  planet : SparesPlanet outside config latest.files.planet bucket
  naturalEarth :
    (updatePlanet outside config (some latest.files.planet)).OnReturn bucket fun _ afterPlanet =>
    (updateSprite outside config).OnReturn afterPlanet fun _ afterSprite =>
    SparesRaster outside config latest.files.naturalEarth
      (naturalEarthName config.naturalEarthMaxZoom) config.naturalEarthMaxZoom afterSprite
  relief :
    (updatePlanet outside config (some latest.files.planet)).OnReturn bucket fun _ afterPlanet =>
    (updateSprite outside config).OnReturn afterPlanet fun _ afterSprite =>
    (updateNaturalEarth outside config).OnReturn afterSprite fun _ afterNaturalEarth =>
    SparesRaster outside config latest.files.relief (reliefName config.reliefMaxZoom)
      config.reliefMaxZoom afterNaturalEarth
  latestJson :
    (updatePlanet outside config (some latest.files.planet)).OnReturn bucket
      fun planet afterPlanet =>
    (updateSprite outside config).OnReturn afterPlanet fun sprite afterSprite =>
    (updateNaturalEarth outside config).OnReturn afterSprite
      fun naturalEarth afterNaturalEarth =>
    (updateRelief outside config).OnReturn afterNaturalEarth fun relief _ =>
    ¬ Swaps outside latest ⟨planet, sprite, naturalEarth, relief⟩

section Pass

variable {outside config} {bucket : Bucket} {latest : Latest} {other : Str}

/-- The end of the pass: `latest.json` and the retention. -/
def finish (outside : Outside) (config : MapConfig) (latest : Latest) (files : MapFiles) :
    MapPass Latest := do
  let new ← publishLatest outside config (some latest) files
  let _ ← applyRetention outside config [files.planet.key, latest.files.planet.key]
  pure new

/-- The pass from the point where it has read `latest.json`. -/
def passFrom (outside : Outside) (config : MapConfig) (latest : Latest) : MapPass Latest := do
  let planet ← updatePlanet outside config (some latest.files.planet)
  let sprite ← updateSprite outside config
  let naturalEarth ← updateNaturalEarth outside config
  let relief ← updateRelief outside config
  finish outside config latest ⟨planet, sprite, naturalEarth, relief⟩

theorem readLatest_of_serves (serves : Serves outside config bucket latest)
    (reads : outside.fails .readLatest = none) :
    readLatest outside config bucket = .ok (some latest) := by
  rcases serves.stored with ⟨content, here, loaded⟩
  simp only [contentAt, objectAt, Option.map_eq_some_iff] at here
  rcases here with ⟨file, found, rfl⟩
  simp only [readLatest, bind_eq_ok, call_eq_ok]
  refine ⟨(), reads, ?_⟩
  rw [found]
  simp only [map_eq_ok]
  exact ⟨latest, loaded, rfl⟩

theorem run_of_reads (serves : Serves outside config bucket latest)
    (reads : outside.fails .readLatest = none) :
    run outside config bucket = passFrom outside config latest bucket := by
  unfold run
  rw [Attempt.bind_of_ok (by rw [Attempt.ask_apply, readLatest_of_serves serves reads])]
  rfl

theorem run_of_unread {failure : Failure} (unread : outside.fails .readLatest = some failure) :
    run outside config bucket = (.error failure, bucket) := by
  unfold run
  refine Attempt.bind_of_error ?_
  rw [Attempt.ask_apply, readLatest, Outside.call, unread]
  rfl

theorem Serves.head?_planet (serves : Serves outside config bucket latest) :
    latest.files.planet.key.head? = some (chr 'p') :=
  head?_of_startsWith serves.planet

theorem Serves.head?_naturalEarth (serves : Serves outside config bucket latest) :
    latest.files.naturalEarth.key.head? = some (chr 'n') :=
  head?_of_startsWith serves.naturalEarth

theorem Serves.head?_relief (serves : Serves outside config bucket latest) :
    latest.files.relief.key.head? = some (chr 'r') :=
  head?_of_startsWith serves.relief

theorem updateNaturalEarth_fixes (elsewhere : other.head? ≠ some (chr 'n')) :
    (updateNaturalEarth outside config).Fixes (objectAt config other) :=
  updateRaster_fixes (ne_of_head? (head?_naturalEarthName _) elsewhere).symm

theorem updateRelief_fixes (elsewhere : other.head? ≠ some (chr 'r')) :
    (updateRelief outside config).Fixes (objectAt config other) :=
  updateRaster_fixes (ne_of_head? (head?_reliefName _) elsewhere).symm

theorem ne_latestKey (elsewhere : other.head? ≠ some (chr 'l')) : other ≠ latestKey := by
  rintro rfl
  exact elsewhere rfl

theorem finish_fixes {files : MapFiles} (different : other ≠ latestKey)
    (safe : other.head? ≠ some (chr 'p') ∨
      other ∈ [files.planet.key, latest.files.planet.key]) :
    (finish outside config latest files).Fixes (objectAt config other) :=
  .bind (publishLatest_fixes different) fun _ => .bind (applyRetention_fixes safe) fun _ => .pure _

theorem fixes_contentAt {α : Type} {computation : MapPass α}
    (fixes : computation.Fixes (objectAt config other)) :
    computation.Fixes (contentAt config other) :=
  fun state => congrArg (Option.map StoredFile.content) (fixes state)

theorem isSome_of_contentAt {before after : Bucket}
    (present : (objectAt config other before).isSome)
    (same : contentAt config other after = contentAt config other before) :
    (objectAt config other after).isSome := by
  have found := congrArg Option.isSome same
  simp only [contentAt, Option.isSome_map] at found
  rw [found]
  exact present

theorem contentAt_passFrom_planet (serves : Serves outside config bucket latest) :
    contentAt config latest.files.planet.key (passFrom outside config latest bucket).2 =
        contentAt config latest.files.planet.key bucket ↔
      SparesPlanet outside config latest.files.planet bucket := by
  have head := serves.head?_planet
  have rest : contentAt config latest.files.planet.key
      (passFrom outside config latest bucket).2 =
        contentAt config latest.files.planet.key
          (updatePlanet outside config (some latest.files.planet) bucket).2 := by
    refine Attempt.Fixes.after_bind (fun planet => fixes_contentAt ?_) bucket
    refine .bind (updateSprite_fixes (by rw [head]; decide)) fun _ => ?_
    refine .bind (updateNaturalEarth_fixes (by rw [head]; decide)) fun _ => ?_
    refine .bind (updateRelief_fixes (by rw [head]; decide)) fun _ => ?_
    exact finish_fixes (ne_latestKey (by rw [head]; decide)) (.inr (by simp))
  rw [rest]
  exact contentAt_updatePlanet (serves.present _ (by simp [Latest.objects]))

theorem contentAt_passFrom_naturalEarth (serves : Serves outside config bucket latest) :
    contentAt config latest.files.naturalEarth.key (passFrom outside config latest bucket).2 =
        contentAt config latest.files.naturalEarth.key bucket ↔
      (updatePlanet outside config (some latest.files.planet)).OnReturn bucket fun _ afterPlanet =>
      (updateSprite outside config).OnReturn afterPlanet fun _ afterSprite =>
      SparesRaster outside config latest.files.naturalEarth
        (naturalEarthName config.naturalEarthMaxZoom) config.naturalEarthMaxZoom afterSprite := by
  have head := serves.head?_naturalEarth
  have present := serves.present latest.files.naturalEarth.key (by simp [Latest.objects])
  refine Attempt.Fixes.bind_iff (fixes_contentAt (updatePlanet_fixes (by rw [head]; decide)))
    fun planet afterPlanet same => ?_
  refine Attempt.Fixes.bind_iff (fixes_contentAt (updateSprite_fixes (by rw [head]; decide)))
    fun sprite afterSprite sameSprite => ?_
  have rest : ∀ state, contentAt config latest.files.naturalEarth.key
      ((updateNaturalEarth outside config >>= fun naturalEarth => do
        let relief ← updateRelief outside config
        finish outside config latest ⟨planet, sprite, naturalEarth, relief⟩) state).2 =
      contentAt config latest.files.naturalEarth.key
        (updateNaturalEarth outside config state).2 := by
    refine Attempt.Fixes.after_bind fun naturalEarth => fixes_contentAt ?_
    refine .bind (updateRelief_fixes (by rw [head]; decide)) fun _ => ?_
    exact finish_fixes (ne_latestKey (by rw [head]; decide)) (.inl (by rw [head]; decide))
  rw [rest]
  exact contentAt_updateRaster_entry (isSome_of_contentAt present (sameSprite.trans same))

theorem contentAt_passFrom_relief (serves : Serves outside config bucket latest) :
    contentAt config latest.files.relief.key (passFrom outside config latest bucket).2 =
        contentAt config latest.files.relief.key bucket ↔
      (updatePlanet outside config (some latest.files.planet)).OnReturn bucket fun _ afterPlanet =>
      (updateSprite outside config).OnReturn afterPlanet fun _ afterSprite =>
      (updateNaturalEarth outside config).OnReturn afterSprite fun _ afterNaturalEarth =>
      SparesRaster outside config latest.files.relief (reliefName config.reliefMaxZoom)
        config.reliefMaxZoom afterNaturalEarth := by
  have head := serves.head?_relief
  have present := serves.present latest.files.relief.key (by simp [Latest.objects])
  refine Attempt.Fixes.bind_iff (fixes_contentAt (updatePlanet_fixes (by rw [head]; decide)))
    fun planet afterPlanet same => ?_
  refine Attempt.Fixes.bind_iff (fixes_contentAt (updateSprite_fixes (by rw [head]; decide)))
    fun sprite afterSprite sameSprite => ?_
  refine Attempt.Fixes.bind_iff
    (fixes_contentAt (updateNaturalEarth_fixes (by rw [head]; decide)))
    fun naturalEarth afterNaturalEarth sameEarth => ?_
  have rest : ∀ state, contentAt config latest.files.relief.key
      ((updateRelief outside config >>= fun relief =>
        finish outside config latest ⟨planet, sprite, naturalEarth, relief⟩) state).2 =
      contentAt config latest.files.relief.key (updateRelief outside config state).2 := by
    refine Attempt.Fixes.after_bind fun relief => fixes_contentAt ?_
    exact finish_fixes (ne_latestKey (by rw [head]; decide)) (.inl (by rw [head]; decide))
  rw [rest]
  exact contentAt_updateRaster_entry
    (isSome_of_contentAt present (sameEarth.trans (sameSprite.trans same)))

theorem contentAt_passFrom_latestJson (serves : Serves outside config bucket latest) :
    contentAt config latestKey (passFrom outside config latest bucket).2 =
        contentAt config latestKey bucket ↔
      (updatePlanet outside config (some latest.files.planet)).OnReturn bucket
        fun planet afterPlanet =>
      (updateSprite outside config).OnReturn afterPlanet fun sprite afterSprite =>
      (updateNaturalEarth outside config).OnReturn afterSprite
        fun naturalEarth afterNaturalEarth =>
      (updateRelief outside config).OnReturn afterNaturalEarth fun relief _ =>
      ¬ Swaps outside latest ⟨planet, sprite, naturalEarth, relief⟩ := by
  have notThere : ∀ folder, folder ≠ chr 'l' → latestKey.head? ≠ some folder := by
    intro folder different same
    exact different (Option.some.inj same).symm
  refine Attempt.Fixes.bind_iff (fixes_contentAt (updatePlanet_fixes (notThere _ (by decide))))
    fun planet afterPlanet same => ?_
  refine Attempt.Fixes.bind_iff (fixes_contentAt (updateSprite_fixes (notThere _ (by decide))))
    fun sprite afterSprite sameSprite => ?_
  refine Attempt.Fixes.bind_iff
    (fixes_contentAt (updateNaturalEarth_fixes (notThere _ (by decide))))
    fun naturalEarth afterNaturalEarth sameEarth => ?_
  refine Attempt.Fixes.bind_iff (fixes_contentAt (updateRelief_fixes (notThere _ (by decide))))
    fun relief afterRelief sameRelief => ?_
  have rest : ∀ files state, contentAt config latestKey
      (finish outside config latest files state).2 =
      contentAt config latestKey (publishLatest outside config (some latest) files state).2 := by
    intro files
    refine Attempt.Fixes.after_bind fun new => fixes_contentAt ?_
    exact .bind (applyRetention_fixes (.inl (notThere _ (by decide)))) fun _ => .pure _
  rw [rest]
  refine contentAt_publishLatest ?_
  rw [sameRelief, sameEarth, sameSprite, same]
  exact serves.stored

theorem Serves.spritePresent (serves : Serves outside config bucket latest) {style : Str}
    (named : latest.files.sprite = spriteKey style) :
    ∀ file ∈ spriteFiles, (objectAt config (spriteName style file) bucket).isSome := by
  intro file listed
  refine serves.present _ ?_
  rw [Latest.objects, named, spriteObjects]
  simp only [List.mem_cons]
  exact .inr (.inr (.inr (List.mem_map_of_mem listed)))

/-- No step touches the files of the sprite that `latest.json` names. -/
theorem contentAt_passFrom_sprite (serves : Serves outside config bucket latest) {style file : Str}
    (named : latest.files.sprite = spriteKey style) (listed : file ∈ spriteFiles) :
    contentAt config (spriteName style file) (passFrom outside config latest bucket).2 =
      contentAt config (spriteName style file) bucket := by
  have head := head?_spriteName style
  have kept : ∀ file, (updatePlanet outside config (some latest.files.planet)).Fixes
      (objectAt config (spriteName style file)) :=
    fun file => updatePlanet_fixes (by rw [head]; decide)
  unfold passFrom
  rcases ran : updatePlanet outside config (some latest.files.planet) bucket with
    ⟨failure | planet, afterPlanet⟩
  · rw [Attempt.bind_of_error ran]
    exact (fixes_contentAt (kept file)).of_ran ran
  · rw [Attempt.bind_of_ok ran, ← (fixes_contentAt (kept file)).of_ran ran]
    have rest : ∀ state, contentAt config (spriteName style file)
        ((updateSprite outside config >>= fun sprite => do
          let naturalEarth ← updateNaturalEarth outside config
          let relief ← updateRelief outside config
          finish outside config latest ⟨planet, sprite, naturalEarth, relief⟩) state).2 =
        contentAt config (spriteName style file) (updateSprite outside config state).2 := by
      refine Attempt.Fixes.after_bind fun sprite => fixes_contentAt ?_
      refine .bind (updateNaturalEarth_fixes (by rw [head]; decide)) fun _ => ?_
      refine .bind (updateRelief_fixes (by rw [head]; decide)) fun _ => ?_
      exact finish_fixes (ne_latestKey (by rw [head]; decide)) (.inl (by rw [head]; decide))
    rw [rest]
    refine congrArg (Option.map StoredFile.content) (updateSprite_fixes_present listed ?_)
    intro other otherListed
    rw [(kept other).of_ran ran]
    exact serves.spritePresent named other otherListed

/-- What a pass that has read `latest.json` leaves intact is what it spares. -/
theorem intact_iff (serves : Serves outside config bucket latest) :
    Intact config latest bucket (passFrom outside config latest bucket).2 ↔
      Spared outside config latest bucket := by
  constructor
  · intro intact
    exact {
      planet := (contentAt_passFrom_planet serves).mp (intact _ (by simp [Latest.objects]))
      naturalEarth :=
        (contentAt_passFrom_naturalEarth serves).mp (intact _ (by simp [Latest.objects]))
      relief := (contentAt_passFrom_relief serves).mp (intact _ (by simp [Latest.objects]))
      latestJson := (contentAt_passFrom_latestJson serves).mp (intact _ (by simp)) }
  · intro spared name member
    rcases serves.sprite with ⟨style, named⟩
    rw [Latest.objects, named, spriteObjects] at member
    simp only [List.mem_cons, List.mem_map] at member
    rcases member with rfl | rfl | rfl | rfl | ⟨file, listed, rfl⟩
    · exact (contentAt_passFrom_latestJson serves).mpr spared.latestJson
    · exact (contentAt_passFrom_planet serves).mpr spared.planet
    · exact (contentAt_passFrom_naturalEarth serves).mpr spared.naturalEarth
    · exact (contentAt_passFrom_relief serves).mpr spared.relief
    · exact contentAt_passFrom_sprite serves named listed

/-- A pass that returns keeps every object of the old and of the new `latest.json`. -/
theorem present_of_passFrom {new : Latest} {after : Bucket}
    (serves : Serves outside config bucket latest)
    (returned : passFrom outside config latest bucket = (.ok new, after)) :
    ∀ name ∈ new.objects ++ latest.objects, (objectAt config name after).isSome := by
  simp only [passFrom, finish, Attempt.bind_eq_ok, Attempt.pure_eq_ok] at returned
  rcases returned with ⟨planet, afterPlanet, ranPlanet, sprite, afterSprite, ranSprite,
    naturalEarth, afterEarth, ranEarth, relief, afterRelief, ranRelief, published, afterPublish,
    ranPublish, doomed, afterRetention, ranRetention, rfl, rfl⟩
  rcases updatePlanet_ok ranPlanet with ⟨planetHead, planetPresent, otherPlanets⟩
  rcases updateSprite_ok ranSprite with ⟨style, rfl, spritePresent⟩
  rcases updateRaster_ok ranEarth with ⟨rfl, earthPresent⟩
  rcases updateRaster_ok ranRelief with ⟨rfl, reliefPresent⟩
  have files := publishLatest_ok ranPublish
  -- What the steps after the rasters leave, they leave to the end.
  have finished : ∀ name, name.head? ≠ some (chr 'l') →
      name.head? ≠ some (chr 'p') ∨ name ∈ [planet.key, latest.files.planet.key] →
      (objectAt config name afterRelief).isSome → (objectAt config name after).isSome := by
    intro name notLatest safe present
    rw [(applyRetention_fixes safe).of_ran ranRetention,
      (publishLatest_fixes (ne_latestKey notLatest)).of_ran ranPublish]
    exact present
  have fromEarth : ∀ name, name.head? ≠ some (chr 'l') → name.head? ≠ some (chr 'r') →
      name.head? ≠ some (chr 'p') ∨ name ∈ [planet.key, latest.files.planet.key] →
      (objectAt config name afterEarth).isSome → (objectAt config name after).isSome := by
    intro name notLatest notRelief safe present
    refine finished name notLatest safe ?_
    rw [(updateRelief_fixes notRelief).of_ran ranRelief]
    exact present
  have fromSprite : ∀ name, name.head? ≠ some (chr 'l') → name.head? ≠ some (chr 'r') →
      name.head? ≠ some (chr 'n') →
      name.head? ≠ some (chr 'p') ∨ name ∈ [planet.key, latest.files.planet.key] →
      (objectAt config name afterSprite).isSome → (objectAt config name after).isSome := by
    intro name notLatest notRelief notEarth safe present
    refine fromEarth name notLatest notRelief safe ?_
    rw [(updateNaturalEarth_fixes notEarth).of_ran ranEarth]
    exact present
  have fromPlanet : ∀ name, name.head? = some (chr 'p') →
      name ∈ [planet.key, latest.files.planet.key] →
      (objectAt config name afterPlanet).isSome → (objectAt config name after).isSome := by
    intro name head named present
    refine fromSprite name (by rw [head]; decide) (by rw [head]; decide) (by rw [head]; decide)
      (.inr named) ?_
    rw [(updateSprite_fixes (by rw [head]; decide)).of_ran ranSprite]
    exact present
  intro name member
  rcases List.mem_append.mp member with ofNew | ofOld
  · rw [Latest.objects, files, spriteObjects] at ofNew
    simp only [List.mem_cons, List.mem_map] at ofNew
    rcases ofNew with rfl | rfl | rfl | ⟨file, listed, rfl⟩
    · exact fromPlanet _ planetHead (by simp) planetPresent
    · have head := head?_naturalEarthName config.naturalEarthMaxZoom
      exact fromEarth _ (by rw [head]; decide) (by rw [head]; decide)
        (.inl (by rw [head]; decide)) earthPresent
    · have head := head?_reliefName config.reliefMaxZoom
      exact finished _ (by rw [head]; decide) (.inl (by rw [head]; decide)) reliefPresent
    · have head := head?_spriteName style file
      exact fromSprite _ (by rw [head]; decide) (by rw [head]; decide) (by rw [head]; decide)
        (.inl (by rw [head]; decide)) (spritePresent file listed)
  · have present := serves.present name ofOld
    rcases serves.sprite with ⟨oldStyle, named⟩
    rw [Latest.objects, named, spriteObjects] at ofOld
    simp only [List.mem_cons, List.mem_map] at ofOld
    rcases ofOld with rfl | rfl | rfl | ⟨file, listed, rfl⟩
    · refine fromPlanet _ serves.head?_planet (by simp) ?_
      by_cases same : latest.files.planet.key = planet.key
      · rw [same]
        exact planetPresent
      · rw [otherPlanets _ same]
        exact present
    · have head := serves.head?_naturalEarth
      refine fromEarth _ (by rw [head]; decide) (by rw [head]; decide)
        (.inl (by rw [head]; decide)) ?_
      by_cases same : latest.files.naturalEarth.key = naturalEarthName config.naturalEarthMaxZoom
      · rw [same]
        exact earthPresent
      · rw [(updateRaster_fixes same).of_ran ranEarth,
          (updateSprite_fixes (by rw [head]; decide)).of_ran ranSprite,
          (updatePlanet_fixes (by rw [head]; decide)).of_ran ranPlanet]
        exact present
    · have head := serves.head?_relief
      refine finished _ (by rw [head]; decide) (.inl (by rw [head]; decide)) ?_
      by_cases same : latest.files.relief.key = reliefName config.reliefMaxZoom
      · rw [same]
        exact reliefPresent
      · rw [(updateRaster_fixes same).of_ran ranRelief,
          (updateNaturalEarth_fixes (by rw [head]; decide)).of_ran ranEarth,
          (updateSprite_fixes (by rw [head]; decide)).of_ran ranSprite,
          (updatePlanet_fixes (by rw [head]; decide)).of_ran ranPlanet]
        exact present
    · have head := head?_spriteName oldStyle
      have kept : ∀ file, objectAt config (spriteName oldStyle file) afterPlanet =
          objectAt config (spriteName oldStyle file) bucket :=
        fun file => (updatePlanet_fixes (by rw [head]; decide)).of_ran ranPlanet
      have inPlace : ∀ file ∈ spriteFiles,
          (objectAt config (spriteName oldStyle file) afterPlanet).isSome := by
        intro other otherListed
        rw [kept]
        exact serves.spritePresent named other otherListed
      have untouched := @updateSprite_fixes_present outside config oldStyle file listed _ inPlace
      rw [ranSprite] at untouched
      refine fromSprite _ (by rw [head]; decide) (by rw [head]; decide) (by rw [head]; decide)
        (.inl (by rw [head]; decide)) ?_
      rw [untouched]
      exact inPlace file listed

end Pass

/-! ### A named archive that fails its check -/

namespace Truncated

/-- Texts one after the other, each behind its length. -/
def pack : List Str → Bytes
  | [] => []
  | text :: rest => text.length :: (text ++ pack rest)

def unpack : Nat → Bytes → List Str
  | 0, _ => []
  | _ + 1, [] => []
  | fuel + 1, length :: rest => rest.take length :: unpack fuel (rest.drop length)

theorem unpack_pack (texts : List Str) (fuel : Nat) (enough : texts.length ≤ fuel) :
    unpack fuel (pack texts) = texts := by
  induction texts generalizing fuel with
  | nil => cases fuel <;> rfl
  | cons text rest inductionHypothesis =>
      cases fuel with
      | zero => simp at enough
      | succ fuel =>
          simp only [pack, unpack, List.take_left, List.drop_left]
          rw [inductionHypothesis fuel (by simpa using enough)]

theorem length_le_pack (texts : List Str) : texts.length ≤ (pack texts).length := by
  induction texts with
  | nil => simp
  | cons text rest inductionHypothesis =>
      simp only [pack, List.length_cons, List.length_append]
      omega

/-- The fields of a `latest.json`, flat. -/
def fields (latest : Latest) : List Str :=
  let planet := latest.files.planet
  [planet.key, planet.version, planet.area, planet.osmDate.getD [], [planet.osmDate.isSome.toNat],
    planet.sha256, [planet.bytes], latest.files.sprite, latest.files.naturalEarth.key,
    [latest.files.naturalEarth.maxZoom], latest.files.relief.key, [latest.files.relief.maxZoom],
    latest.updatedAt, pack (latest.attribution.map Prod.fst),
    pack (latest.attribution.map Prod.snd)]

def ofFields : List Str → Except Failure Latest
  | [key, version, area, osmDate, [isDated], sha256, [bytes], sprite, earth, [earthZoom], relief,
      [reliefZoom], updatedAt, credited, credits] =>
    .ok ⟨⟨⟨key, version, area, if isDated = 1 then some osmDate else none, sha256, bytes⟩, sprite,
      ⟨earth, earthZoom⟩, ⟨relief, reliefZoom⟩⟩,
      (unpack credited.length credited).zip (unpack credits.length credits), updatedAt⟩
  | _ => .error .other

theorem ofFields_fields (latest : Latest) : ofFields (fields latest) = .ok latest := by
  rcases latest with ⟨⟨⟨key, version, area, osmDate, sha256, bytes⟩, sprite, earth, relief⟩,
    attribution, updatedAt⟩
  simp only [fields, ofFields, unpack_pack _ _ (length_le_pack _)]
  rw [← List.unzip_fst, ← List.unzip_snd, List.zip_unzip]
  cases osmDate <;> rfl

def version : Str := str "20261018_080001_pt"

def index : Str :=
  str "areas/planet/20261018_080001_pt/SHA256SUMS\nareas/planet/20261018_080001_pt/done\n" ++
    str "areas/planet/20261018_080001_pt/tiles.pmtiles"

def answer (text : Str) : Response :=
  ⟨200, text, [], none, none⟩

def upstream : Outside where
  isLocal := false
  fails := fun _ => none
  get := fun _ => .ok (answer index)
  head := fun _ => .ok (answer [])
  connection := fun _ _ _ => .ok none
  fetch := fun _ _ => .error .network
  now := str "2026-10-27T06:00:00+00:00"
  isAlnum := isAsciiAlnum
  lower := id
  int := fun _ => .ok 0
  sha256 := fun content => content
  header := fun _ => .error .other
  vectorLayers := fun _ _ => .ok []
  archive := fun _ _ _ => []
  styleSprite := fun _ => .ok (spriteUrlPrefix ++ str "ofm_abc1/ofm")
  isJsonObject := fun _ => .ok true
  loads := fun content => ofFields (unpack content.length content)
  dumps := fun latest => pack (fields latest)
  loads_dumps := by
    intro latest
    rw [unpack_pack _ _ (length_le_pack _), ofFields_fields]

def settings : MapConfig :=
  ⟨str "map", 2, 1, str "https://openfreemap.test", str "planet", [], 1⟩

def latest : Latest :=
  ⟨⟨⟨planetName version, version, str "planet", none, [], 3⟩, spriteKey (str "ofm_abc1"),
    ⟨naturalEarthName 1, 1⟩, ⟨reliefName 1, 1⟩⟩, attribution, str "2026-10-20T06:00:00+00:00"⟩

/-- Every named object is there; the Natural Earth archive is three bytes long. -/
def bucket : Bucket where
  files :=
    (settings.key latestKey, ⟨upstream.dumps latest, none⟩) ::
      latest.objects.map fun name => (settings.key name, ⟨[1, 2, 3], none⟩)

theorem serves : Serves upstream settings bucket latest where
  stored := ⟨upstream.dumps latest, rfl, upstream.loads_dumps latest⟩
  planet := by decide
  sprite := ⟨str "ofm_abc1", rfl⟩
  naturalEarth := by decide
  relief := by decide
  present := by decide

theorem raises : (passFrom upstream settings latest bucket).1 =
    .error (.mapUpdate (str "map/natural-earth/ne2sr-z1.pmtiles: not a PMTiles v3 archive")) := by
  rfl

theorem dropped : contentAt settings (naturalEarthName 1)
    (passFrom upstream settings latest bucket).2 = none := by
  rfl

end Truncated

end Vidit.Maps
