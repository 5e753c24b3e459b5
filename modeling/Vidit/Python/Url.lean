import Vidit.Python.Unicode

/-!
Contract: `urllib.parse.urlparse` of the standard library.

Owns:
- `urlsplit` with every `ValueError` it raises (unbalanced or malformed
  brackets, a host that compatibility normalisation would re-delimit);
- `urlparse`, and the `hostname` and `port` attributes.
-/

namespace Vidit.Python

/-- The exceptions of the standard library the backend can meet. -/
inductive PyError where
  | valueError
  | overflowError
  | unicodeEncodeError
deriving DecidableEq, Repr

/-! ### Bracketed hosts -/

/-- `IPv4Address._ip_int_from_string` accepts the text. -/
def isIPv4 (text : Str) : Bool :=
  let octets := split text (chr '.')
  octets.length = 4 && octets.all fun octet =>
    octet ≠ [] && octet.all isAsciiDigit && octet.length ≤ 3 &&
      (octet = str "0" || octet.head? ≠ some (chr '0')) && digitsValue octet ≤ 255

/-- `IPv6Address._parse_hextet` accepts the text. -/
def isHextet (text : Str) : Bool :=
  text.all isHexDigit && text.length ≤ 4

/-- The parts of an IPv6 address with at most one `::`, whose empty parts are
`gap` inside and, next to an end, that end too. -/
def isIPv6Parts (parts : List Str) : Bool :=
  let inner := parts.tail.dropLast
  let gaps := inner.countP (· = [])
  if parts.length < 3 || 9 < parts.length || 1 < gaps then false
  else if gaps = 1 then
    let high := 1 + (inner.takeWhile (· ≠ [])).length
    let low := parts.length - high - 1
    let headEmpty := parts.head? = some []
    let lastEmpty := parts.getLast? = some []
    (!headEmpty || high = 1) && (!lastEmpty || low = 1) &&
      (if headEmpty then high - 1 else high) + (if lastEmpty then low - 1 else low) < 8 &&
      parts.all isHextet
  else
    parts.length = 8 && parts.all fun part => part ≠ [] && isHextet part

/-- `ipaddress.ip_address` reads the text as an IPv6 address. -/
def isIPv6 (text : Str) : Bool :=
  let (address, hasScope, scope) := partition text (chr '%')
  if text.contains (chr '/') || (hasScope && (scope = [] || scope.contains (chr '%'))) then false
  else
    let parts := split address (chr ':')
    match parts.getLast? with
    | some last =>
      if last.contains (chr '.') then
        parts.length ≥ 3 && isIPv4 last &&
          isIPv6Parts (parts.dropLast ++ [str "0", str "0"])
      else isIPv6Parts parts
    | none => false

/-- The `IPvFuture` pattern `v[a-fA-F0-9]+\..+`. -/
def isIPvFuture (text : Str) : Bool :=
  match partition text (chr '.') with
  | (head, found, rest) => found && rest ≠ [] && 1 < head.length && head.tail.all isHexDigit

/-- `_check_bracketed_host`. -/
def checkBracketedHost (hostname : Str) : Except PyError Unit :=
  if startsWith hostname (str "v") then
    if isIPvFuture hostname then .ok () else .error .valueError
  else if isIPv6 hostname then .ok ()
  else .error .valueError

/-- `_check_bracketed_netloc`. -/
def checkBracketedNetloc (netloc : Str) : Except PyError Unit :=
  let hostnameAndPort := (rpartition netloc (chr '@')).2.2
  match partition hostnameAndPort (chr '[') with
  | (beforeBracket, true, bracketed) =>
    let (hostname, _, port) := partition bracketed (chr ']')
    if beforeBracket ≠ [] then .error .valueError
    else if port ≠ [] ∧ ¬ startsWith port (str ":") then .error .valueError
    else checkBracketedHost hostname
  | (_, false, _) => checkBracketedHost (partition hostnameAndPort (chr ':')).1

/-! ### Splitting -/

structure SplitResult where
  scheme : Str
  netloc : Str
  path : Str
  query : Str
  fragment : Str
deriving DecidableEq, Repr

/-- `scheme_chars`. -/
def isSchemeChar (point : Nat) : Bool :=
  isAsciiAlnum point || point ∈ [chr '+', chr '-', chr '.']

/-- The characters `_checknetloc` guards, `/?#@:`. -/
def netlocDelimiters : List Nat :=
  [chr '/', chr '?', chr '#', chr '@', chr ':']

/-- `_checknetloc`: a host that NFKC would re-delimit is refused. -/
def checkNetloc (unicode : Unicode) (netloc : Str) : Except PyError Unit :=
  if isAscii netloc then .ok ()
  else
    let bare := remove netloc [chr '@', chr ':', chr '#', chr '?']
    let normalised := unicode.nfkc bare
    if bare = normalised then .ok ()
    else if normalised.any (· ∈ netlocDelimiters) then .error .valueError
    else .ok ()

/-- The scheme and what follows it. -/
def splitScheme (url : Str) : Str × Str :=
  match partition url (chr ':') with
  | (scheme, true, rest) =>
    match scheme.head? with
    | some first =>
      if isAsciiAlpha first && scheme.all isSchemeChar then (asciiLower scheme, rest)
      else ([], url)
    | none => ([], url)
  | _ => ([], url)

/-- `_splitnetloc` after the two slashes. -/
def splitNetloc (url : Str) : Str × Str :=
  (url.takeWhile (· ∉ [chr '/', chr '?', chr '#']),
    url.dropWhile (· ∉ [chr '/', chr '?', chr '#']))

/-- The bracket checks of `urlsplit`. -/
def checkBrackets (netloc : Str) : Except PyError Unit :=
  match netloc.contains (chr '['), netloc.contains (chr ']') with
  | false, false => .ok ()
  | true, true => checkBracketedNetloc netloc
  | _, _ => .error .valueError

/-- C0 controls and space, stripped from the left; tab, CR and LF, removed. -/
def normaliseUrl (url : Str) : Str :=
  remove (lstripBy (· ≤ 0x20) url) [0x09, 0x0D, 0x0A]

def urlsplit (unicode : Unicode) (url : Str) : Except PyError SplitResult := do
  let (scheme, afterScheme) := splitScheme (normaliseUrl url)
  let (netloc, afterNetloc) :=
    if startsWith afterScheme (str "//") then splitNetloc (afterScheme.drop 2)
    else ([], afterScheme)
  checkBrackets netloc
  let (beforeFragment, _, fragment) := partition afterNetloc (chr '#')
  let (path, _, query) := partition beforeFragment (chr '?')
  checkNetloc unicode netloc
  pure { scheme, netloc, path, query, fragment }

/-- `uses_params`. -/
def usesParams : List Str :=
  [str "", str "ftp", str "hdl", str "prospero", str "http", str "imap", str "https",
    str "shttp", str "rtsp", str "rtsps", str "rtspu", str "sip", str "sips", str "mms",
    str "sftp", str "tel"]

/-- `_splitparams`: the path without the parameters of its last segment. -/
def withoutParams (path : Str) : Str :=
  match rpartition path (chr '/') with
  | (directory, true, last) => directory ++ [chr '/'] ++ (partition last (chr ';')).1
  | (_, false, last) => (partition last (chr ';')).1

/-- `urlparse`; no caller reads the parameters it splits off the path. -/
def urlparse (unicode : Unicode) (url : Str) : Except PyError SplitResult := do
  let result ← urlsplit unicode url
  if result.scheme ∈ usesParams then pure { result with path := withoutParams result.path }
  else pure result

namespace SplitResult

/-- `_hostinfo`: the host and the port text. -/
def hostinfo (result : SplitResult) : Str × Str :=
  let hostinfo := (rpartition result.netloc (chr '@')).2.2
  match partition hostinfo (chr '[') with
  | (_, true, bracketed) =>
    let (hostname, _, port) := partition bracketed (chr ']')
    (hostname, (partition port (chr ':')).2.2)
  | (_, false, _) =>
    let (hostname, _, port) := partition hostinfo (chr ':')
    (hostname, port)

/-- `hostname`, `""` for `None`. -/
def hostname (unicode : Unicode) (result : SplitResult) : Str :=
  let (host, percent, zone) := partition result.hostinfo.1 (chr '%')
  unicode.lower host ++ (if percent then [chr '%'] else []) ++ zone

/-- `port`: `none` for no port, a `ValueError` for one that is no port number. -/
def port (result : SplitResult) : Except PyError (Option Nat) :=
  let text := result.hostinfo.2
  if text = [] then .ok none
  else if text.all isAsciiDigit then
    if text.length ≤ intMaxStrDigits ∧ digitsValue text ≤ 65535 then .ok (some (digitsValue text))
    else .error .valueError
  else .error .valueError

/-- `username` and `password`, each `""` where it is falsy. -/
def userinfo (result : SplitResult) : Str × Str :=
  match rpartition result.netloc (chr '@') with
  | (userinfo, true, _) =>
    let (username, _, password) := partition userinfo (chr ':')
    (username, password)
  | (_, false, _) => ([], [])

end SplitResult

end Vidit.Python
