import Vidit.Events.Transaction

/-!
Contract: the links of a source and their archived copies.

Owns:
- `safe_link_href` and `normalised_host`;
- `validate_snapshot`, with the path shape of each archive provider;
- `same_snapshot`, through `_normalised_target`.
-/

namespace Vidit.Events

open Vidit.Python

/-- `safe_link_href`: an `http(s)` URL with a host. -/
def safeLinkHref (unicode : Unicode) (value : Str) : Option Str :=
  match urlparse unicode value with
  | .error _ => none
  | .ok parsed =>
    if parsed.scheme ∉ [str "http", str "https"] then none
    else if parsed.hostname unicode = [] then none
    else some value

/-- `normalised_host`: lower case, no leading `www.`. -/
def normalisedHost (unicode : Unicode) (value : Str) : Option Str :=
  match urlparse unicode value with
  | .error _ => none
  | .ok parsed =>
    let host := removeprefix (unicode.lower (parsed.hostname unicode)) (str "www.")
    if host = [] then none else some host

/-- `_normalised_target`: host, path and query, for comparing two spellings. -/
structure NormalisedTarget where
  host : Str
  path : Str
  query : Str
deriving DecidableEq, Repr

def normalisedTarget (unicode : Unicode) (url : Str) : Option NormalisedTarget :=
  match normalisedHost unicode url, urlparse unicode url with
  | some host, .ok parsed => some ⟨host, rstrip parsed.path (str "/"), parsed.query⟩
  | _, _ => none

/-- `same_snapshot`. -/
def sameSnapshot (unicode : Unicode) (stored : Option Str) (pasted : Str) : Bool :=
  match stored with
  | none => false
  | some stored =>
    if stored = pasted then true
    else
      match normalisedTarget unicode stored with
      | none => false
      | some left => normalisedTarget unicode pasted = some left

/-! ### Provider paths -/

/-- A letter `[a-z]` matches with `re.IGNORECASE`: ASCII, and the letters that
fold to it. -/
def isFoldedLetter (point : Nat) : Bool :=
  isAsciiAlpha point || point ∈ [0x130, 0x131, 0x17F, 0x212A]

/-- `\d{4,14}` then `/`: the text after them, for a run of 4 to 14 digits. -/
def afterTimestamp (text : Str) : Option Str :=
  let digits := text.takeWhile fun point => (decimalValue? point).isSome
  if 4 ≤ digits.length ∧ digits.length ≤ 14 then some (text.drop digits.length) else none

/-- What follows `/` when it is not empty. -/
def hasRest (text : Str) : Bool :=
  match text with
  | first :: _ :: _ => first = chr '/'
  | _ => false

/-- `_WAYBACK_REPLAY_RE` matches the path. -/
def isWaybackReplay (path : Str) : Bool :=
  asciiLower (path.take 5) = str "/web/" &&
    match afterTimestamp (path.drop 5) with
    | none => false
    | some rest =>
      hasRest rest ||
        (match rest with
        | first :: second :: mark :: tail =>
          isFoldedLetter first && isFoldedLetter second && mark = chr '_' && hasRest tail
        | _ => false)

/-- The path after its leading slash, less one trailing slash. -/
def singleSegment (path : Str) : Option Str :=
  match path with
  | first :: rest =>
    if first = chr '/' then
      some (if endsWith rest (str "/") then rest.dropLast else rest)
    else none
  | [] => none

/-- `_ARCHIVE_TODAY_CODE_RE` matches the path. -/
def isArchiveTodayCode (path : Str) : Bool :=
  match singleSegment path with
  | some code => code.all isAsciiAlnum && 4 ≤ code.length && code.length ≤ 16
  | none => false

/-- `_ARCHIVE_TODAY_CAPTURE_RE` matches the path. -/
def isArchiveTodayCapture (path : Str) : Bool :=
  match path with
  | first :: rest => first = chr '/' && (afterTimestamp rest).any hasRest
  | [] => false

/-- `_GHOSTARCHIVE_PATH_RE` matches the path. -/
def isGhostarchivePath (path : Str) : Bool :=
  let code? :=
    if startsWith path (str "/archive/") then singleSegment (path.drop 8)
    else if startsWith path (str "/varchive/") then singleSegment (path.drop 9)
    else none
  match code? with
  | some code =>
    code.all (fun point => isAsciiAlnum point || point ∈ [chr '_', chr '-']) &&
      4 ≤ code.length && code.length ≤ 20
  | none => false

/-- `SOURCE_URL_MAX_LENGTH`, which is `SNAPSHOT_URL_MAX_LENGTH`. -/
def sourceUrlMaxLength : Nat := 2000

/-- `validate_snapshot`. A lone surrogate cannot be encoded and raises. -/
def validateSnapshot (unicode : Unicode) (snapshotUrl : Str) :
    Except EventError ArchiveProvider :=
  if snapshotUrl.any isSurrogate then .error .internal
  else if sourceUrlMaxLength < (encodeUtf8 snapshotUrl).length then
    .error (.snapshotRejected .tooLong)
  else
    match urlparse unicode snapshotUrl with
    | .error _ => .error (.snapshotRejected .notAUrl)
    | .ok parsed =>
      if parsed.scheme ≠ str "https" then .error (.snapshotRejected .notHttps)
      else
        match providerHosts.lookup (unicode.lower (parsed.hostname unicode)) with
        | none => .error (.snapshotRejected .providerNotAllowed)
        | some .wayback =>
          if isWaybackReplay parsed.path then .ok .wayback
          else .error (.snapshotRejected .notAReplayUrl)
        | some .ghostarchive =>
          if isGhostarchivePath parsed.path then .ok .ghostarchive
          else .error (.snapshotRejected .notAGhostarchivePath)
        | some .archiveToday =>
          if isArchiveTodayCode parsed.path || isArchiveTodayCapture parsed.path then
            .ok .archiveToday
          else .error (.snapshotRejected .notASnapshotCode)

end Vidit.Events
