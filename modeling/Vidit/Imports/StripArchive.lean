import Vidit.Imports.ArchiveZip
import Vidit.Library.Layout

/-!
Contract: the strip of an export in the browser, from the bytes of its ZIP file.

Owns:
- `readCentralDirectory` and `stripArchive`: the search for the end record, the
  classic and the 64-bit fields, the members kept and the bytes copied for each.

Does not own: the ZIP file written from the members kept, and the estimate of
posts shown beside it. An over-cap copy is noticed once every member is read.
-/

namespace Vidit.Imports

open Vidit.Python Vidit.Library
open Vidit.Maps (Bytes)

/-- The `code` of the `ApiError`. -/
inductive StripError where
  | malformed
  | noTweets
  | tooLarge
deriving DecidableEq, Repr

/-- `Number` of a 64-bit integer: the nearest double, of two the even one. -/
def toNumber (value : Nat) : Nat :=
  if value < 2 ^ 53 then value
  else
    let unit := 2 ^ (value.log2 - 52)
    let whole := value / unit
    let twice := 2 * (value % unit)
    (if unit < twice ∨ twice = unit ∧ whole % 2 = 1 then whole + 1 else whole) * unit

/-- `TextDecoder`, which replaces what is not UTF-8. -/
structure TextDecoder where
  decode : Bytes → Str
  decode_ascii : ∀ bytes, (∀ byte ∈ bytes, byte < 0x80) → decode bytes = bytes

structure CdEntry where
  name : Str
  method : Nat
  crc : Nat
  csize : Nat
  usize : Nat
  headerOffset : Nat
deriving DecidableEq, Repr

/-- A read of a `DataView`: past its end it throws, which ends as `malformed`. -/
def getUint (bytes : Bytes) (offset width : Nat) : Except StripError Nat :=
  match readLe bytes offset width with
  | some value => .ok value
  | none => .error .malformed

def localSignature : Nat := 0x04034b50

def entrySignature : Nat := 0x02014b50

def zip64Signature : Nat := 0x06064b50

def locatorSignature : Nat := 0x07064b50

def eocdSignature : Nat := 0x06054b50

/-- What a field holds when its value stands elsewhere. -/
def full16 : Nat := 0xffff

def full32 : Nat := 0xffffffff

/-! ### The directory -/

/-- The last place up to an index where the signature of the end record is. -/
def findEocd (tail : Bytes) : Nat → Option Nat
  | 0 => if readLe tail 0 4 = some eocdSignature then some 0 else none
  | index + 1 =>
    if readLe tail (index + 1) 4 = some eocdSignature then some (index + 1)
    else findEocd tail index

/-- The count, the size and the offset of the directory. -/
structure Directory where
  count : Nat
  size : Nat
  offset : Nat
deriving DecidableEq, Repr

/-- The 64-bit end record, by the locator before the classic one. -/
def readZip64 (file tail : Bytes) (eocd : Nat) : Except StripError Directory := do
  if eocd < 20 then .error .malformed
  else do
    let signature ← getUint tail (eocd - 20) 4
    if signature ≠ locatorSignature then .error .malformed
    else do
      let z64At := toNumber (← getUint tail (eocd - 20 + 8) 8)
      let z64 := sliceBytes file z64At (z64At + 56)
      let signature ← getUint z64 0 4
      if signature ≠ zip64Signature then .error .malformed
      else do
        let count ← getUint z64 32 8
        let size ← getUint z64 40 8
        let offset ← getUint z64 48 8
        pure ⟨toNumber count, toNumber size, toNumber offset⟩

/-- The end record at its place in the tail. -/
def readDirectory (file tail : Bytes) (eocd : Nat) : Except StripError Directory := do
  let count ← getUint tail (eocd + 10) 2
  let size ← getUint tail (eocd + 12) 4
  let offset ← getUint tail (eocd + 16) 4
  if count = full16 ∨ size = full32 ∨ offset = full32 then readZip64 file tail eocd
  else pure ⟨count, size, offset⟩

/-- One field of the 64-bit extra: read when the classic one is full. -/
def widen (cd : Bytes) (field value : Nat) : Except StripError (Nat × Nat) := do
  if value = full32 then do
    let wide ← getUint cd field 8
    pure (toNumber wide, field + 8)
  else pure (value, field)

/-- The extra fields from `ex` to `exEnd`, to the first 64-bit one. `fuel` bounds the fields left. -/
def readExtra (cd : Bytes) (exEnd usize csize headerOffset : Nat) :
    Nat → Nat → Except StripError (Nat × Nat × Nat)
  | 0, _ => .ok (usize, csize, headerOffset)
  | fuel + 1, ex =>
    if ex + 4 ≤ exEnd then do
      let id ← getUint cd ex 2
      let length ← getUint cd (ex + 2) 2
      if id = 1 then do
        let (usize, field) ← widen cd (ex + 4) usize
        let (csize, field) ← widen cd field csize
        let (headerOffset, _) ← widen cd field headerOffset
        pure (usize, csize, headerOffset)
      else readExtra cd exEnd usize csize headerOffset fuel (ex + 4 + length)
    else .ok (usize, csize, headerOffset)

variable (decoder : TextDecoder)

/-- The entry at a place of the directory, and where the next one starts. -/
def readEntry (cd : Bytes) (start : Nat) : Except StripError (CdEntry × Nat) := do
  let signature ← getUint cd start 4
  if signature ≠ entrySignature then .error .malformed
  else do
    let method ← getUint cd (start + 10) 2
    let crc ← getUint cd (start + 16) 4
    let csize ← getUint cd (start + 20) 4
    let usize ← getUint cd (start + 24) 4
    let nameLen ← getUint cd (start + 28) 2
    let extraLen ← getUint cd (start + 30) 2
    let commentLen ← getUint cd (start + 32) 2
    let headerOffset ← getUint cd (start + 42) 4
    let name := decoder.decode (sliceBytes cd (start + 46) (start + 46 + nameLen))
    let (usize, csize, headerOffset) ←
      if csize = full32 ∨ usize = full32 ∨ headerOffset = full32 then
        readExtra cd (start + 46 + nameLen + extraLen) usize csize headerOffset extraLen
          (start + 46 + nameLen)
      else pure (usize, csize, headerOffset)
    pure (⟨name, method, crc, csize, usize, headerOffset⟩,
      start + (46 + nameLen + extraLen + commentLen))

def readEntries (cd : Bytes) : Nat → Nat → Except StripError (List CdEntry)
  | 0, _ => .ok []
  | count + 1, start =>
    if start + 46 ≤ cd.length then do
      let (entry, next) ← readEntry decoder cd start
      let rest ← readEntries cd count next
      pure (entry :: rest)
    else .ok []

def readCentralDirectory (file : Bytes) : Except StripError (List CdEntry) :=
  let tail := sliceBytes file (file.length - min file.length (65557 + 20)) file.length
  match if 22 ≤ tail.length then findEocd tail (tail.length - 22) else none with
  | none => .error .malformed
  | some eocd => do
    let directory ← readDirectory file tail eocd
    let cd := sliceBytes file directory.offset (directory.offset + directory.size)
    readEntries decoder cd directory.count 0

/-! ### What is kept -/

/-- `name.length`, in UTF-16 units. -/
def unitLength (name : Str) : Nat :=
  (name.map fun point => if 0x10000 ≤ point then 2 else 1).sum

def anchoredTweetsMatch (name : Str) : Bool :=
  name = tweetsFile || endsWith name (chr '/' :: tweetsFile)

/-- What follows the last slash. -/
def baseName (name : Str) : Str :=
  (rpartition name (chr '/')).2.2

/-- The members under the media directory, the first of each base name, and their new names. -/
def keepMedia (mediaPrefix : Str) : List Str → List CdEntry → List (CdEntry × Str)
  | _, [] => []
  | seen, entry :: rest =>
    if startsWith entry.name mediaPrefix = false then keepMedia mediaPrefix seen rest
    else if baseName entry.name = [] ∨ endsWith entry.name (str "/") = true ∨
        baseName entry.name ∈ seen then keepMedia mediaPrefix seen rest
    else (entry, mediaDirName ++ str "/" ++ baseName entry.name) ::
      keepMedia mediaPrefix (baseName entry.name :: seen) rest

/-- `kept`: `tweets.js` by the shortest name, of equals the first, and the media beside it. -/
def keptEntries (entries : List CdEntry) : Except StripError (List (CdEntry × Str)) :=
  match (entries.filter fun entry => anchoredTweetsMatch entry.name).argmin
      fun entry => unitLength entry.name with
  | none => .error .noTweets
  | some tweetsEntry =>
    let root := tweetsEntry.name.take (tweetsEntry.name.length - tweetsFile.length)
    .ok ((tweetsEntry, tweetsFile) ::
      keepMedia (root ++ (mediaDirName ++ str "/")) [] entries)

/-! ### The copy -/

/-- `CHUNK`. -/
def copyChunk : Nat := 4 * 1024 * 1024

/-- The parts from `off` to `csize`; `fuel` bounds the parts left. -/
def copyParts (file : Bytes) (dataStart csize : Nat) : Nat → Nat → Except StripError Bytes
  | 0, _ => .ok []
  | fuel + 1, off =>
    if off < csize then do
      let stop := min (off + copyChunk) csize
      let part := sliceBytes file (dataStart + off) (dataStart + stop)
      if part.length ≠ stop - off then .error .malformed
      else do
        let rest ← copyParts file dataStart csize fuel (off + copyChunk)
        pure (part ++ rest)
    else .ok []

/-- What `fflate` is given for a member. -/
structure ZipInputFile where
  filename : Str
  size : Nat
  crc : Nat
  compression : Nat
  raw : Bytes
deriving DecidableEq, Repr

/-- A member kept: its local header, and its bytes as they are. -/
def copyMember (file : Bytes) (kept : CdEntry × Str) : Except StripError ZipInputFile := do
  let header := sliceBytes file kept.1.headerOffset (kept.1.headerOffset + 30)
  let signature ← getUint header 0 4
  if signature ≠ localSignature then .error .malformed
  else do
    let nameLen ← getUint header 26 2
    let extraLen ← getUint header 28 2
    let dataStart := kept.1.headerOffset + 30 + nameLen + extraLen
    let raw ← copyParts file dataStart kept.1.csize kept.1.csize 0
    pure ⟨kept.2, kept.1.usize, kept.1.crc, kept.1.method, raw⟩

/-- `stripArchive`: the members of the stripped file. `zip` is the file `fflate` writes of them. -/
def stripArchive (zip : List ZipInputFile → Bytes) (file : Bytes) (maxBytes : Nat) :
    Except StripError (List ZipInputFile) :=
  let head := sliceBytes file 0 4
  if head.length < 4 ∨ head.take 2 ≠ [0x50, 0x4b] then .error .malformed
  else do
    let entries ← readCentralDirectory decoder file
    let kept ← keptEntries entries
    let members ← kept.mapM (copyMember file)
    if maxBytes < (zip members).length then .error .tooLarge else pure members

end Vidit.Imports
