import Mathlib.Tactic.NormNum
import Vidit.Python.Uuid

/-!
Contract: the keys and URLs of stored objects.

Owns:
- the settings that say where objects live, and the two storage backends as
  instances of one `Storage`;
- the keys this code mints and the derivative keys beside them;
- that the keys of two objects never overlap, because each carries the text of
  its own UUID.

Does not own: which rows name an object (`Vidit.Evidence.Intake`).
-/

namespace Vidit.Evidence

open Vidit.Python

/-- `storage_backend`. -/
inductive StorageBackend where
  | s3
  | local
deriving DecidableEq, Repr

/-- The settings the evidence services read. -/
structure Settings where
  storageBackend : StorageBackend
  s3Bucket : Str
  awsRegion : Str
  cloudfrontDomain : Str
  maxImageSize : Nat
  maxVideoSize : Nat
  maxProofImagesPerEvent : Nat
deriving DecidableEq, Repr

/-! ### Backends -/

/-- The `Storage` protocol, as far as keys and URLs go. -/
structure Storage where
  publicUrl : Str → Str
  keyFromUrl : Str → Option Str
  keyFromUrl_publicUrl : ∀ key, keyFromUrl (publicUrl key) = some key

/-- `LOCAL_STORAGE_URL_PREFIX`. -/
def localStorageUrlPrefix : Str := str "http://localhost:8000/local-storage"

/-- What follows the first of `prefixes` that `url` starts with. -/
def stripOneOf (prefixes : List Str) (url : Str) : Option Str :=
  (prefixes.find? (startsWith url)).map fun start => url.drop start.length

theorem startsWith_append (start rest : Str) : startsWith (start ++ rest) start = true := by
  unfold startsWith
  rw [List.isPrefixOf_iff_prefix]
  exact List.prefix_append start rest

theorem stripOneOf_append (start : Str) (others : List Str) (rest : Str) :
    stripOneOf (start :: others) (start ++ rest) = some rest := by
  unfold stripOneOf
  rw [List.find?_cons_of_pos (startsWith_append start rest)]
  simp

def localStorage : Storage where
  publicUrl key := localStorageUrlPrefix ++ str "/" ++ key
  keyFromUrl := stripOneOf [localStorageUrlPrefix ++ str "/"]
  keyFromUrl_publicUrl _ := stripOneOf_append _ _ _

namespace S3Storage

def bucketPrefix (settings : Settings) : Str :=
  str "https://" ++ settings.s3Bucket ++ str ".s3." ++ settings.awsRegion ++
    str ".amazonaws.com/"

def cloudfrontPrefix (settings : Settings) : Str :=
  str "https://" ++ settings.cloudfrontDomain ++ str "/"

/-- The candidates of `key_from_url`; the first is the prefix `public_url` writes. -/
def prefixes (settings : Settings) : List Str :=
  if settings.cloudfrontDomain ≠ [] then [cloudfrontPrefix settings, bucketPrefix settings]
  else [bucketPrefix settings]

def publicUrl (settings : Settings) (key : Str) : Str :=
  if settings.cloudfrontDomain ≠ [] then cloudfrontPrefix settings ++ key
  else bucketPrefix settings ++ key

theorem keyFromUrl_publicUrl (settings : Settings) (key : Str) :
    stripOneOf (prefixes settings) (publicUrl settings key) = some key := by
  unfold prefixes publicUrl
  split
  · exact stripOneOf_append _ _ _
  · exact stripOneOf_append _ _ _

end S3Storage

def s3Storage (settings : Settings) : Storage where
  publicUrl := S3Storage.publicUrl settings
  keyFromUrl := stripOneOf (S3Storage.prefixes settings)
  keyFromUrl_publicUrl := S3Storage.keyFromUrl_publicUrl settings

def getStorage (settings : Settings) : Storage :=
  match settings.storageBackend with
  | .s3 => s3Storage settings
  | .local => localStorage

/-- A storage never writes one URL for two keys. -/
theorem Storage.publicUrl_injective (storage : Storage) :
    Function.Injective storage.publicUrl := by
  intro left right same
  have keys := congrArg storage.keyFromUrl same
  rw [storage.keyFromUrl_publicUrl, storage.keyFromUrl_publicUrl] at keys
  exact Option.some.inj keys

/-- Both backends serve over HTTP. -/
theorem getStorage_publicUrl (settings : Settings) (key : Str) :
    ∃ rest, (getStorage settings).publicUrl key = chr 'h' :: rest := by
  unfold getStorage
  cases settings.storageBackend with
  | «local» => exact ⟨_, rfl⟩
  | s3 =>
      simp only [s3Storage, S3Storage.publicUrl]
      split <;> exact ⟨_, rfl⟩

/-- A URL either backend wrote is one over HTTP. -/
theorem getStorage_keyFromUrl {settings : Settings} {url key : Str}
    (keyed : (getStorage settings).keyFromUrl url = some key) : ∃ rest, url = chr 'h' :: rest := by
  have strips : ∀ {prefixes : List Str}, (∀ start ∈ prefixes, ∃ tail, start = chr 'h' :: tail) →
      stripOneOf prefixes url = some key → ∃ rest, url = chr 'h' :: rest := by
    intro prefixes served stripped
    unfold stripOneOf at stripped
    rw [Option.map_eq_some_iff] at stripped
    rcases stripped with ⟨start, found, _⟩
    have starts := List.find?_some found
    rcases served start (List.mem_of_find?_eq_some found) with ⟨tail, rfl⟩
    unfold startsWith at starts
    rw [List.isPrefixOf_iff_prefix] at starts
    rcases starts with ⟨rest, rfl⟩
    exact ⟨tail ++ rest, rfl⟩
  unfold getStorage at keyed
  cases backend : settings.storageBackend with
  | «local» =>
      rw [backend] at keyed
      refine strips ?_ keyed
      intro start member
      rw [List.mem_singleton.mp member]
      exact ⟨_, rfl⟩
  | s3 =>
      rw [backend] at keyed
      refine strips ?_ keyed
      intro start member
      unfold S3Storage.prefixes at member
      split at member
      · rcases List.mem_cons.mp member with rfl | other
        · exact ⟨_, rfl⟩
        · rw [List.mem_singleton.mp other]
          exact ⟨_, rfl⟩
      · rw [List.mem_singleton.mp member]
        exact ⟨_, rfl⟩

/-! ### Keys -/

inductive MediaKind where
  | image
  | video
deriving DecidableEq, Repr

/-- The MIME types the intake tells apart. -/
inductive ContentType where
  | jpeg
  | png
  | webp
  | gif
  | mp4
  | webm
  | other
deriving DecidableEq, Repr

/-- `safe_storage_extension`. -/
def safeStorageExtension : ContentType → Str
  | .jpeg => str ".jpg"
  | .png => str ".png"
  | .webp => str ".webp"
  | .mp4 => str ".mp4"
  | .webm => str ".webm"
  | .gif | .other => []

/-- A key with the text of `id` as the stem of its last part. -/
def mintedKey (uuids : UuidSource) (directory : Str) (id : Uuid) (extension : Str) : Str :=
  directory ++ [chr '/'] ++ (uuids.text id ++ extension)

/-- `_source_file_key`. -/
def sourceFileKey (uuids : UuidSource) (id : Uuid) (contentType : ContentType) : Str :=
  mintedKey uuids (str "uploads") id (safeStorageExtension contentType)

/-- The key `upload_proof_image` mints. -/
def proofImageKey (uuids : UuidSource) (userId id : Uuid) (contentType : ContentType) : Str :=
  mintedKey uuids (str "proof/" ++ uuids.text userId) id (safeStorageExtension contentType)

/-- `detected_media_key`. -/
def detectedMediaKey (uuids : UuidSource) (eventId id : Uuid) (contentType : ContentType) : Str :=
  mintedKey uuids (str "detected/" ++ uuids.text eventId) id (safeStorageExtension contentType)

/-- `PurePosixPath(name).stem` of the last part of a key. -/
def keyStem (name : Str) : Str :=
  match rpartition name (chr '.') with
  | (stem, true, extension) => if stem ≠ [] ∧ extension ≠ [] then stem else name
  | (_, false, _) => name

/-- `derivative_key`. -/
def derivativeKey (originalKey suffix : Str) : Str :=
  match rpartition originalKey (chr '/') with
  | (directory, true, name) =>
    directory ++ [chr '/'] ++ (keyStem name ++ str "_" ++ suffix ++ str ".jpg")
  | (_, false, name) => keyStem name ++ str "_" ++ suffix ++ str ".jpg"

/-- One stored file a sweep may delete. -/
structure StoredObject where
  storageUrl : Str
  kind : MediaKind
deriving DecidableEq, Repr

/-- The keys of an object that is no video. -/
def imageKeys (key : Str) : List Str :=
  [key, derivativeKey key (str "hero"), derivativeKey key (str "thumb")]

/-- `_object_keys`. -/
def objectKeys (storage : Storage) (object : StoredObject) : List Str :=
  match storage.keyFromUrl object.storageUrl with
  | none => []
  | some key => if object.kind = .video then [key] else imageKeys key

/-! ### Keys of different objects never overlap -/

/-- The UUID text at the start of a key's last part. -/
def keyOwner (key : Str) : Str :=
  (rpartition key (chr '/')).2.2.takeWhile isUuidChar

/-- A key this code mints, under any directory and extension. -/
def IsMintedKey (uuids : UuidSource) (id : Uuid) (key : Str) : Prop :=
  ∃ directory contentType, key = mintedKey uuids directory id (safeStorageExtension contentType)

section Keys

variable {uuids : UuidSource}

theorem text_notMem (uuids : UuidSource) (id : Uuid) {point : Nat}
    (foreign : isUuidChar point = false) : point ∉ uuids.text id := by
  intro member
  rw [uuids.text_plain id point member] at foreign
  contradiction

theorem safeStorageExtension_slash (contentType : ContentType) :
    chr '/' ∉ safeStorageExtension contentType := by
  cases contentType <;> decide

/-- An extension is absent or a dot and something after it. -/
theorem safeStorageExtension_cases (contentType : ContentType) :
    safeStorageExtension contentType = [] ∨
      ∃ rest, rest ≠ [] ∧ chr '.' ∉ rest ∧
        safeStorageExtension contentType = chr '.' :: rest := by
  cases contentType with
  | gif => exact .inl rfl
  | other => exact .inl rfl
  | jpeg => exact .inr ⟨str "jpg", by decide, by decide, rfl⟩
  | png => exact .inr ⟨str "png", by decide, by decide, rfl⟩
  | webp => exact .inr ⟨str "webp", by decide, by decide, rfl⟩
  | mp4 => exact .inr ⟨str "mp4", by decide, by decide, rfl⟩
  | webm => exact .inr ⟨str "webm", by decide, by decide, rfl⟩

theorem keyStem_text (id : Uuid) (contentType : ContentType) :
    keyStem (uuids.text id ++ safeStorageExtension contentType) = uuids.text id := by
  unfold keyStem
  rcases safeStorageExtension_cases contentType with none | ⟨rest, nonempty, dotless, dotted⟩
  · rw [none, List.append_nil, rpartition_of_notMem (text_notMem uuids id (by decide))]
  · rw [dotted, rpartition_append dotless]
    simp [uuids.text_ne_nil, nonempty]

/-- The owner of a key is the text its last part starts with, up to the first
character no UUID has. -/
private theorem keyOwner_append (point : Nat) {directory text rest : Str}
    (plain : ∀ point ∈ text, isUuidChar point = true) (slashless : chr '/' ∉ text ++ rest)
    (stops : rest = [] ∨ ∃ tail, rest = point :: tail ∧ isUuidChar point = false) :
    keyOwner (directory ++ [chr '/'] ++ (text ++ rest)) = text := by
  unfold keyOwner
  rw [List.append_assoc, List.singleton_append, rpartition_append slashless]
  simp only
  rw [List.takeWhile_append_of_pos plain]
  rcases stops with none | ⟨tail, starts, foreign⟩
  · simp [none]
  · simp [starts, foreign]

theorem keyOwner_mintedKey (directory : Str) (id : Uuid) (contentType : ContentType) :
    keyOwner (mintedKey uuids directory id (safeStorageExtension contentType)) =
      uuids.text id := by
  have slashFree : chr '/' ∉ uuids.text id := text_notMem uuids id (by decide)
  apply keyOwner_append (chr '.') (uuids.text_plain id)
  · simp [slashFree,
      safeStorageExtension_slash]
  · rcases safeStorageExtension_cases contentType with none | ⟨rest, _, _, dotted⟩
    · exact .inl none
    · exact .inr ⟨rest, dotted, by decide⟩

theorem keyOwner_derivativeKey {directory suffix : Str} (id : Uuid) (contentType : ContentType)
    (slashless : chr '/' ∉ suffix) :
    keyOwner (derivativeKey
      (mintedKey uuids directory id (safeStorageExtension contentType)) suffix) =
        uuids.text id := by
  have slashFree : chr '/' ∉ uuids.text id := text_notMem uuids id (by decide)
  have nameSlashless : chr '/' ∉ uuids.text id ++ safeStorageExtension contentType := by
    simp [slashFree,
      safeStorageExtension_slash]
  unfold derivativeKey mintedKey
  rw [List.append_assoc, List.singleton_append, rpartition_append nameSlashless]
  simp only [keyStem_text]
  rw [List.append_assoc (uuids.text id), List.append_assoc (uuids.text id)]
  apply keyOwner_append (chr '_') (uuids.text_plain id)
  · have jpg : chr '/' ∉ str ".jpg" := by decide
    have underscore : chr '/' ∉ str "_" := by decide
    simp [slashFree, slashless, jpg,
      underscore]
  · exact .inr ⟨suffix ++ str ".jpg", rfl, by decide⟩

/-- Every key an object takes with it carries the object's own UUID. -/
theorem keyOwner_imageKeys {id : Uuid} {key taken : Str} (minted : IsMintedKey uuids id key)
    (member : taken ∈ imageKeys key) : keyOwner taken = uuids.text id := by
  rcases minted with ⟨directory, contentType, rfl⟩
  simp only [imageKeys, List.mem_cons, List.not_mem_nil, or_false] at member
  rcases member with rfl | rfl | rfl
  · exact keyOwner_mintedKey directory id contentType
  · exact keyOwner_derivativeKey id contentType (by decide)
  · exact keyOwner_derivativeKey id contentType (by decide)

theorem objectKeys_subset_imageKeys {storage : Storage} {object : StoredObject} {key taken : Str}
    (keyed : storage.keyFromUrl object.storageUrl = some key)
    (member : taken ∈ objectKeys storage object) : taken ∈ imageKeys key := by
  unfold objectKeys at member
  simp only [keyed] at member
  split at member
  · simp only [List.mem_singleton] at member
    simp [imageKeys, member]
  · exact member

end Keys

end Vidit.Evidence
