import Vidit.Accounts.User
import Vidit.Python.Query

/-!
Contract: the URL vocabulary of ingestion.

Every pattern is read by Python's `re`: letters match without case where the
pattern says so, a digit is a digit of any script, and `$` also stands before a
last newline.

Owns:
- the hosts and the posts a link names, and what is importable;
- `normalise_tweet_url` and `canonical_tweet_url`;
- the time of an X post read off its id;
- the context hosts, and the identity two spellings of one link share.

Does not own: fetching a post, and the hosts media are fetched from.
-/

namespace Vidit.Ingest

open Vidit.Python Vidit.Accounts

/-! ### Patterns -/

/-- A letter of a pattern matches the point without case; the letters of other
scripts that fold to an ASCII one are those of `re`. -/
def foldsTo (letter point : Nat) : Bool :=
  asciiLowerPoint point = letter ||
    (letter = chr 'i' && (point = 0x130 || point = 0x131)) ||
    (letter = chr 's' && point = 0x17F) ||
    (letter = chr 'k' && point = 0x212A)

/-- What follows a literal matched without case. -/
def dropFolded : Str → Str → Option Str
  | [], text => some text
  | _ :: _, [] => none
  | letter :: letters, point :: rest =>
    if foldsTo letter point then dropFolded letters rest else none

/-- What follows a literal. -/
def dropLiteral (literal text : Str) : Option Str :=
  if startsWith text literal then some (text.drop literal.length) else none

/-- `$` stands at the end and before a last newline. -/
def beforeEnd (text : Str) : Str :=
  if text.getLast? = some (chr '\n') then text.dropLast else text

/-- `^(?:…)$` of literals, without case. -/
def isOneOf (literals : List Str) (text : Str) : Bool :=
  literals.any fun literal => dropFolded literal (beforeEnd text) = some []

/-- `\d`. -/
def isDecimal (point : Nat) : Bool :=
  (decimalValue? point).isSome

/-- `\w`. -/
def isWord (unicode : Unicode) (point : Nat) : Bool :=
  unicode.isAlnum point || point = chr '_'

/-- A class repeated between two bounds. -/
def isRun (inClass : Nat → Bool) (least most : Nat) (text : Str) : Bool :=
  text.all inClass && least ≤ text.length && text.length ≤ most

/-- `\d+`, as far as it goes. -/
def leadingDigits (text : Str) : Option Str :=
  if text.takeWhile isDecimal = [] then none else some (text.takeWhile isDecimal)

/-! ### Hosts -/

/-- `TWITTER_URL_HOST_RE`. -/
def isTwitterHost (host : Str) : Bool :=
  isOneOf [str "x.com", str "www.x.com", str "twitter.com", str "www.twitter.com"] host

/-- `_TWITTER_HOSTS`. -/
def twitterHosts : List Str :=
  [str "x.com", str "www.x.com", str "twitter.com", str "www.twitter.com"]

/-- `TELEGRAM_HOST_RE`. -/
def isTelegramHost (host : Str) : Bool :=
  isOneOf [str "t.me", str "www.t.me"] host

/-- `TIKTOK_HOST_RE`. -/
def isTiktokHost (host : Str) : Bool :=
  isOneOf [str "tiktok.com", str "www.tiktok.com", str "m.tiktok.com"] host

/-- `TIKTOK_SHORT_HOST_RE`. -/
def isTiktokShortHost (host : Str) : Bool :=
  isOneOf [str "vm.tiktok.com", str "vt.tiktok.com"] host

section Links

variable (unicode : Unicode)

/-- `hostname`. -/
def hostname (url : Str) : Str :=
  match urlparse unicode url with
  | .ok parsed => unicode.lower (parsed.hostname unicode)
  | .error _ => []

/-- `X_STATUS_URL_RE` at the start of the text: the id. -/
def statusAt (text : Str) : Option Str := do
  let rest ← dropFolded (str "x.com/") text <|> dropFolded (str "twitter.com/") text
  let named := do
    guard (rest.takeWhile (isWord unicode) ≠ [])
    leadingDigits (← dropFolded (str "/status/") (rest.dropWhile (isWord unicode)))
  named <|> do leadingDigits (← dropFolded (str "i/web/status/") rest)

/-- `X_STATUS_URL_RE.search`: the first match. -/
def searchStatus (url : Str) : Option Str :=
  url.tails.findSome? (statusAt unicode)

/-- `x_status_id`. -/
def xStatusId (url : Str) : Option Str :=
  if isTwitterHost (hostname unicode url) then searchStatus unicode url else none

/-! ### The time of an X post -/

/-- `X_SNOWFLAKE_EPOCH_MS`. -/
def xSnowflakeEpochMs : Nat := 1288834974657

/-- `_MIN_SNOWFLAKE_OFFSET_MS`. -/
def minSnowflakeOffsetMs : Nat := 86400000

/-- The last second a `datetime` holds. -/
def lastSecond : Nat := 253402300799

/-- `x_status_posted_at`: past 4300 digits `int()` raises, past the year 9999
`fromtimestamp` does. -/
def xStatusPostedAt (now : Instant) (url : Str) : Except PyError (Option Instant) :=
  match xStatusId unicode url with
  | none => .ok none
  | some statusId =>
    match intOfDigits statusId with
    | none => .error .valueError
    | some id =>
      if id / 2 ^ 22 < minSnowflakeOffsetMs then .ok none
      else if lastSecond < (xSnowflakeEpochMs + id / 2 ^ 22) / 1000 then .error .valueError
      else
        let postedAt : Instant := ((xSnowflakeEpochMs + id / 2 ^ 22) / 1000 : Nat) * 1000000
        .ok (if now < postedAt then none else some postedAt)

/-! ### Posts of other hosts -/

/-- The bare URLs with their host and path: http or https, no credentials, no port. -/
def plainWebUrl (url : Str) : Option (Str × Str) :=
  match urlparse unicode url with
  | .error _ => none
  | .ok parsed =>
    match parsed.port with
    | .error _ => none
    | .ok port =>
      if parsed.scheme ∉ [str "http", str "https"] ∨ parsed.userinfo ≠ ([], []) ∨
          port.getD 0 ≠ 0 then none
      else some (unicode.lower (parsed.hostname unicode), parsed.path)

/-- The class `[A-Za-z0-9_]`. -/
def isChannelPoint (point : Nat) : Bool :=
  isAsciiAlnum point || point = chr '_'

/-- `TELEGRAM_POST_PATH_RE`: the channel and the id. -/
def telegramPostPath (path : Str) : Option (Str × Str) :=
  match split (beforeEnd path) (chr '/') with
  | [start, channel, postId] =>
    if start = [] ∧ isRun isChannelPoint 1 64 channel ∧ isRun isDecimal 1 19 postId then
      some (channel, postId)
    else none
  | _ => none

/-- `telegram_post_url`. -/
def telegramPostUrl (url : Str) : Option Str := do
  let (host, path) ← plainWebUrl unicode url
  guard (isTelegramHost host)
  let (channel, postId) ← telegramPostPath path
  pure (str "https://t.me/" ++ channel ++ chr '/' :: postId)

/-- The class `[A-Za-z0-9_.]`. -/
def isTiktokUserPoint (point : Nat) : Bool :=
  isAsciiAlnum point || point = chr '_' || point = chr '.'

/-- The path without a last slash. -/
def withoutSlash (parts : List Str) : List Str :=
  if parts.getLast? = some [] then parts.dropLast else parts

/-- `TIKTOK_POST_PATH_RE`: the id. -/
def tiktokPostPath (path : Str) : Option Str :=
  match withoutSlash (split (beforeEnd path) (chr '/')) with
  | [start, user, kind, postId] =>
    if start = [] ∧ startsWith user (str "@") ∧ isRun isTiktokUserPoint 1 64 (user.drop 1) ∧
        kind ∈ [str "video", str "photo"] ∧ isRun isDecimal 1 25 postId then some postId
    else none
  | _ => none

/-- `TIKTOK_SHORT_PATH_RE`: the code. -/
def tiktokShortPath (path : Str) : Option Str :=
  match withoutSlash (split (beforeEnd path) (chr '/')) with
  | [start, code] => if start = [] ∧ isRun isAsciiAlnum 1 32 code then some code else none
  | _ => none

/-- `TIKTOK_T_PATH_RE`: the code. -/
def tiktokTPath (path : Str) : Option Str :=
  match withoutSlash (split (beforeEnd path) (chr '/')) with
  | [start, marker, code] =>
    if start = [] ∧ marker = str "t" ∧ isRun isAsciiAlnum 1 32 code then some code else none
  | _ => none

/-- `tiktok_post_id`. -/
def tiktokPostId (url : Str) : Option Str := do
  let (host, path) ← plainWebUrl unicode url
  guard (isTiktokHost host)
  tiktokPostPath path

/-- `tiktok_short_url`. -/
def tiktokShortUrl (url : Str) : Option Str := do
  let (host, path) ← plainWebUrl unicode url
  if isTiktokShortHost host then do
    let code ← tiktokShortPath path
    pure (str "https://" ++ host ++ chr '/' :: code ++ str "/")
  else do
    guard (isTiktokHost host)
    let code ← tiktokTPath path
    pure (str "https://www.tiktok.com/t/" ++ code ++ str "/")

/-- `is_importable_link`. -/
def isImportableLink (url : Str) : Bool :=
  (xStatusId unicode url).isSome || (telegramPostUrl unicode url).isSome ||
    (tiktokPostId unicode url).isSome || (tiktokShortUrl unicode url).isSome

/-! ### Reading and writing a post URL -/

/-- `NO_HANDLE`. -/
def noHandle : Str := str "i"

structure NormalisedTweetUrl where
  tweetId : Str
  handle : Str
deriving DecidableEq, Repr

/-- What `normalise_tweet_url` raises. -/
inductive TweetUrlError where
  | invalidTweetUrl
  | python (raised : PyError)
deriving DecidableEq, Repr

/-- The handle and the id the parts of a status path name. -/
def statusParts (parts : List Str) : Option (Str × Str) :=
  if 3 ≤ parts.length ∧ parts[1]? = some (str "status") then
    some (parts.getD 0 [], parts.getD 2 [])
  else if 4 ≤ parts.length ∧ parts.take 3 = [str "i", str "web", str "status"] then
    some (noHandle, parts.getD 3 [])
  else none

/-- The parts of a path that are not empty. -/
def pathParts (path : Str) : List Str :=
  (split path (chr '/')).filter (· ≠ [])

/-- `normalise_tweet_url`. -/
def normaliseTweetUrl (raw : Str) : Except TweetUrlError NormalisedTweetUrl := do
  let parsed ← (urlparse unicode (strip raw)).mapError .python
  if parsed.scheme ∉ [str "http", str "https"] then .error .invalidTweetUrl
  else if unicode.lower (parsed.hostname unicode) ∉ twitterHosts then .error .invalidTweetUrl
  else
    match statusParts (pathParts parsed.path) with
    | none => .error .invalidTweetUrl
    | some (handle, tweetId) =>
      if isRun isDecimal 5 25 (beforeEnd tweetId) then .ok { tweetId, handle }
      else .error .invalidTweetUrl

/-- `canonical_tweet_url`. -/
def canonicalTweetUrl (tweetId handle : Str) : Str :=
  if handle = noHandle then str "https://x.com/i/web/status/" ++ tweetId
  else str "https://x.com/" ++ handle ++ str "/status/" ++ tweetId

/-! ### Context hosts -/

inductive ContextKind where
  | satellite
  | aircraft
  | article
  | other
deriving DecidableEq, Repr

structure ContextHost where
  kind : ContextKind
  title : Str
deriving DecidableEq, Repr

/-- `CONTEXT_HOSTS`, the rows of the imagery providers first. -/
def contextHosts : List (Str × Str × ContextHost) :=
  let imagery (base path name : String) (kind : ContextKind) :=
    (str base, str path, ContextHost.mk kind (str name))
  let plain (base : String) (kind : ContextKind) := (str base, [], ContextHost.mk kind [])
  [imagery "earth.google.com" "" "Google Earth web" .satellite,
    imagery "google.com" "/earth" "Google Earth web" .satellite,
    imagery "browser.dataspace.copernicus.eu" "" "Copernicus Browser" .satellite,
    imagery "livingatlas.arcgis.com" "/wayback" "Esri World Imagery Wayback" .satellite,
    imagery "earthexplorer.usgs.gov" "" "USGS EarthExplorer" .satellite,
    imagery "worldview.earthdata.nasa.gov" "" "NASA Worldview" .satellite,
    imagery "umbra.space" "" "Umbra Open Data" .satellite,
    imagery "umbra-open-data-catalog.s3.amazonaws.com" "" "Umbra Open Data" .satellite,
    imagery "registry.opendata.aws" "/umbra-open-data" "Umbra Open Data" .satellite,
    imagery "capellaspace.com" "" "Capella Space Open Data" .satellite,
    imagery "registry.opendata.aws" "/capella_opendata" "Capella Space Open Data" .satellite,
    imagery "iceye.com" "" "ICEYE Open Data" .satellite,
    imagery "vantor.com" "" "Vantor Open Data" .satellite,
    imagery "registry.opendata.aws" "/vantor-open-data" "Vantor Open Data" .satellite,
    imagery "registry.opendata.aws" "/maxar-open-data" "Vantor Open Data" .satellite,
    imagery "apollomapping.com" "" "Apollo Image Hunter" .satellite,
    imagery "remonterletemps.ign.fr" "" "IGN Remonter le temps" .aircraft,
    imagery "map.geo.admin.ch" "" "swisstopo" .aircraft,
    imagery "swisstopo.admin.ch" "" "swisstopo" .aircraft,
    imagery "maps.google.com" "" "Google Maps" .satellite,
    imagery "google.com" "/maps" "Google Maps" .satellite,
    imagery "bing.com" "/maps" "Bing Maps" .satellite,
    imagery "maps.apple.com" "" "Apple Maps" .satellite,
    imagery "yandex.ru" "/maps" "Yandex Maps" .satellite,
    imagery "yandex.com" "/maps" "Yandex Maps" .satellite,
    imagery "yandex.ua" "/maps" "Yandex Maps" .satellite,
    imagery "planet.com" "" "Planet" .satellite,
    imagery "oneatlas.airbus.com" "" "Airbus OneAtlas" .satellite,
    imagery "skyfi.com" "" "SkyFi" .satellite,
    imagery "eos.com" "/landviewer" "EOSDA LandViewer" .satellite,
    imagery "eos.com" "/products/landviewer" "EOSDA LandViewer" .satellite,
    imagery "earthengine.google.com" "/timelapse" "Earth Engine Timelapse" .satellite,
    imagery "timelapse.withgoogle.com" "" "Earth Engine Timelapse" .satellite,
    imagery "firms.modaps.eosdis.nasa.gov" "" "NASA FIRMS" .satellite,
    imagery "sentinel-hub.com" "" "Sentinel Hub EO Browser" .satellite,
    plain "mapcarta.com" .other, plain "geoview.info" .other, plain "oct7map.com" .other,
    plain "3rbmap.com" .other, plain "wikipedia.org" .article, plain "gofundme.com" .other]

/-- `_host_matches_base`. -/
def hostMatchesBase (host base : Str) : Bool :=
  host = base || endsWith host (chr '.' :: base)

/-- `context_host`. -/
def contextHost (url : Str) : Option ContextHost :=
  let host := hostname unicode url
  if host = [] then none
  else
    match urlparse unicode url with
    | .error _ => none
    | .ok parsed =>
      (contextHosts.find? fun row => hostMatchesBase host row.1 &&
        startsWith (unicode.lower parsed.path) row.2.1).map fun row => row.2.2

/-! ### Links that are no footage -/

/-- `_status_link_handle`. -/
def statusLinkHandle (url : Str) : Option Str :=
  if xStatusId unicode url = none then none
  else
    match urlparse unicode url with
    | .error _ => none
    | .ok parsed =>
      let parts := pathParts parsed.path
      if 3 ≤ parts.length ∧ parts[1]? = some (str "status") then parts[0]? else none

/-- `_is_own_status_link`. -/
def isOwnStatusLink (url ownerHandle : Str) : Bool :=
  (statusLinkHandle unicode url).any fun handle =>
    unicode.lower handle = unicode.lower ownerHandle

/-- `_is_non_status_x_link`. -/
def isNonStatusXLink (url : Str) : Bool :=
  isTwitterHost (hostname unicode url) && searchStatus unicode url = none

/-- The class `[a-z0-9.\-]`, without case. -/
def isGoogleHostPoint (point : Nat) : Bool :=
  isAsciiAlnum point || point = chr '.' || point = chr '-' ||
    foldsTo (chr 'i') point || foldsTo (chr 's') point || foldsTo (chr 'k') point

/-- `_GOOGLE_HOST_RE`. -/
def isGoogleHost (host : Str) : Bool :=
  [str "google.", str "www.google.", str "maps.google."].any fun literal =>
    (dropFolded literal (beforeEnd host)).any fun rest => rest ≠ [] && rest.all isGoogleHostPoint

/-- `_is_coordinate_link`: the second parse has no guard. -/
def isCoordinateLink (url : Str) : Except PyError Bool :=
  let host := hostname unicode url
  if host = str "maps.app.goo.gl" then .ok true
  else do
    let parsed ← urlparse unicode url
    let path := unicode.lower parsed.path
    if host = str "goo.gl" then pure (startsWith path (str "/maps/"))
    else if !isGoogleHost host then pure false
    else pure (startsWith host (str "maps.") || startsWith path (str "/maps"))

/-! ### Identity -/

/-- `_TRACKING_QUERY_PARAMS`. -/
def trackingQueryParams : List Str :=
  [str "s", str "si", str "t", str "feature", str "ref", str "ref_src", str "ref_url",
    str "fbclid", str "gclid", str "igshid"]

/-- `_identifying_query`. -/
def identifyingQuery (query : Str) : Except PyError Str :=
  urlencode (sortedBy pairLe ((parseQsl query).filter fun pair =>
    unicode.lower pair.1 ∉ trackingQueryParams &&
      !startsWith (unicode.lower pair.1) (str "utm_")))

/-- `link_identity`. -/
def linkIdentity (url : Str) : Except PyError Str :=
  match xStatusId unicode url with
  | some statusId => .ok (str "x:" ++ statusId)
  | none => do
    let parsed ← urlparse unicode url
    let base := hostname unicode url ++ rstrip parsed.path (str "/")
    let query ← identifyingQuery unicode parsed.query
    pure (if query = [] then base else base ++ chr '?' :: query)

/-- `request_source_url`. -/
def requestSourceUrl (url : Str) : Str :=
  match xStatusId unicode url with
  | some statusId => canonicalTweetUrl statusId ((statusLinkHandle unicode url).getD noHandle)
  | none => (telegramPostUrl unicode url).getD url

end Links

end Vidit.Ingest
