import Mathlib.Data.List.MinMax
import Vidit.Library.Attempt
import Vidit.Library.Files
import Vidit.Maps.Bucket
import Vidit.Python.Str

/-!
Contract: the intake guard of an uploaded archive.

Owns:
- `PurePosixPath.name`;
- `extract_allowlisted`, `_find_tweets_member` and `_extract_member`, on a disk: which members are
  copied, where to, and under which caps.

Does not own: how a ZIP file is read. A member is what `zipfile` says of it, its declared size
included, and what reading it a chunk at a time gives.
-/

namespace Vidit.Imports

open Vidit.Python Vidit.Library
open Vidit.Maps (Bytes)

/-! ### Names -/

def tweetsFile : Str := str "tweets.js"

def mediaDirName : Str := str "tweets_media"

/-- `PurePosixPath(text).name`: empty parts and `.` are dropped, `..` is not. -/
def pathName (text : Str) : Str :=
  (((split text (chr '/')).filter fun part => part ≠ [] ∧ part ≠ str ".").getLast?).getD []

example : pathName (str "data/tweets_media/sub/.") = str "sub" := by decide

example : pathName (str "/tweets_media//..") = str ".." := by decide

/-- A name as a component of a path that is opened. -/
def hopOf (name : Str) : Hop Str :=
  if name = str ".." then .up else .into name

/-! ### Caps -/

def maxTotalUncompressedBytes : Nat := 8 * 1024 * 1024 * 1024

def maxFileUncompressedBytes : Nat := 200 * 1024 * 1024

def maxEntryCount : Nat := 100000

/-- `_CHUNK`. -/
def chunkSize : Nat := 1024 * 1024

/-! ### The archive, the disk and what is raised -/

/-- What `zf.open(name)` gives: what its reads return, and whether the last one raises. -/
structure Stream where
  chunks : List Bytes
  breaks : Bool
  sized : ∀ chunk ∈ chunks, chunk ≠ [] ∧ chunk.length ≤ chunkSize

/-- `ZipInfo`: the name and the size the directory declares; `zf.open` of it may raise. -/
structure ZipInfo where
  filename : Str
  fileSize : Nat
  opened : Option Stream

/-- What the constructor of `ZipFile` raises. -/
inductive ZipFault where
  | badZipFile
  | other

/-- `ArchiveIntakeError`, or what the libraries raise. -/
inductive ExtractError where
  | malformed
  | noTweetsFile
  | tooLarge (message : Str)
  | other
deriving DecidableEq, Repr

def ExtractError.message : ExtractError → Option Str
  | .malformed => some (str "Not a valid zip archive")
  | .noTweetsFile => some (str "Archive has no tweets.js")
  | .tooLarge message => some message
  | .other => none

/-- The files, and how many bytes were written to them. -/
structure Extraction where
  disk : Disk Str Nat
  written : Nat

/-- What the file system refuses: a path it does not open, and bytes it has no room for after so
many. -/
structure Host where
  opens : List (Hop Str) → Bool
  room : Nat → Nat

abbrev Extracting := Attempt Extraction ExtractError

def raise {α : Type} (failure : ExtractError) : Extracting α :=
  Attempt.ask fun _ => .error failure

/-- `out.write(chunk)`. -/
def write (host : Host) (target : Place Str) (chunk : Bytes) : Extracting Unit := do
  let room ← Attempt.ask fun state => .ok (host.room state.written)
  Attempt.modify fun state =>
    ⟨state.disk.append target (chunk.take room), state.written + (chunk.take room).length⟩
  if room < chunk.length then raise .other else pure ()

/-- `open(target, "wb")`. -/
def openTarget (host : Host) (path : List (Hop Str)) : Extracting (Place Str) := fun state =>
  if host.opens path then
    match state.disk.openWrite path with
    | .ok (place, disk) => (.ok place, { state with disk := disk })
    | .error _ => (.error .other, state)
  else (.error .other, state)

/-- `path.mkdir(parents=True, exist_ok=True)`. -/
def makeDirs (path : List (Hop Str)) : Extracting Unit := fun state =>
  match state.disk.makeDirs [] state.disk.root path with
  | .ok disk => (.ok (), { state with disk := disk })
  | .error _ => (.error .other, state)

/-! ### The extraction -/

/-- `_find_tweets_member`; of the shortest, the first. -/
def findTweetsMember (names : List Str) : Option Str :=
  (names.filter fun name => name = tweetsFile || endsWith name (chr '/' :: tweetsFile)).argmin
    List.length

variable (host : Host)

/-- The reads and writes of `_extract_member`. -/
def copyChunks (target : Place Str) (runningTotal : Nat) (skipOversized breaks : Bool) :
    Nat → List Bytes → Extracting Nat
  | written, [] => if breaks then raise .other else pure written
  | written, chunk :: rest =>
    if maxTotalUncompressedBytes < runningTotal + (written + chunk.length) then
      raise (.tooLarge (str "Archive contents exceed the size limit"))
    else if maxFileUncompressedBytes < written + chunk.length then
      if skipOversized then do
        Attempt.modify fun state => { state with disk := state.disk.unlink target }
        pure (written + chunk.length)
      else raise (.tooLarge (str "Archive contents exceed the size limit"))
    else do
      write host target chunk
      copyChunks target runningTotal skipOversized breaks (written + chunk.length) rest

/-- `_extract_member`; `getinfo` answers the last member of the name. -/
def extractMember (infolist : List ZipInfo) (name : Str) (target : List (Hop Str))
    (runningTotal : Nat) (skipOversized : Bool) : Extracting Nat :=
  match infolist.reverse.find? fun info => info.filename = name with
  | none => raise .other
  | some info =>
    if maxFileUncompressedBytes < info.fileSize then
      if skipOversized then pure 0
      else raise (.tooLarge (str "An archive file exceeds the size limit"))
    else
      match info.opened with
      | none => raise .other
      | some stream => do
        let place ← openTarget host target
        copyChunks host place runningTotal skipOversized stream.breaks 0 stream.chunks

/-- A member to copy, the path it is copied to, and whether it may be skipped. -/
structure Copy where
  name : Str
  target : List (Hop Str)
  skippable : Bool

/-- `plan`. -/
def copyPlan (names : List Str) (tweetsMember : Str) (dest : List (Hop Str)) : List Copy :=
  let root := tweetsMember.take (tweetsMember.length - tweetsFile.length)
  let mediaPrefix := root ++ mediaDirName ++ str "/"
  ⟨tweetsMember, dest ++ [.into tweetsFile], false⟩ :: names.filterMap fun name =>
    if startsWith name mediaPrefix ∧ pathName name ≠ [] then
      some ⟨name, dest ++ [.into mediaDirName, hopOf (pathName name)], true⟩
    else none

def extractAll (infolist : List ZipInfo) : Nat → List Copy → Extracting Unit
  | _, [] => pure ()
  | total, copy :: rest => do
    let read ← extractMember host infolist copy.name copy.target total copy.skippable
    extractAll infolist (total + read) rest

/-- `extract_allowlisted`, on what the constructor of `ZipFile` gives. -/
def extractAllowlisted (zip : Except ZipFault (List ZipInfo)) (dest : List (Hop Str)) :
    Extracting Unit :=
  match zip with
  | .error .badZipFile => raise .malformed
  | .error .other => raise .other
  | .ok infolist =>
    let names := (infolist.map ZipInfo.filename).filter fun name => !endsWith name (str "/")
    if maxEntryCount < names.length then
      raise (.tooLarge (str "Archive has too many entries"))
    else
      match findTweetsMember names with
      | none => raise .noTweetsFile
      | some tweetsMember => do
        makeDirs (dest ++ [.into mediaDirName])
        extractAll host infolist 0 (copyPlan names tweetsMember dest)

end Vidit.Imports
