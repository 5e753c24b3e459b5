import Vidit.Library.Checks
import Vidit.Python.Url
import Vidit.Browser.Url
import Vidit.Evidence.Body
import Vidit.Evidence.Storage

/-!
Contract: which image srcs a proof may carry, on the server and on the page.

Owns:
- `_safe_image_src` and `isSafeImageSrc`;
- `GateHolds`, what an accepted src promises of a browser, and `NamesMediaHost`, when it does.

Does not own: the sanitiser that applies the gate, the client that renders the image.

Proof shape: Python's netloc and the browser's authority are cut from one text, so the two
readings are compared on it (`authority_text`); the rest is the host and port of that text.
-/

namespace Vidit.Evidence

open Vidit.Library (bind_eq_ok)
open Vidit.Python Vidit.Browser

/-! ### The two gates -/

/-- The text without tabs and newlines, each backslash a slash. -/
def normalizeSlashes (value : Str) : Str :=
  (remove value [0x09, 0x0D, 0x0A]).map fun point => if point = chr '\\' then chr '/' else point

/-- `_safe_image_src`. -/
def safeImageSrc (unicode : Unicode) (settings : Settings) (allowPlaceholders : Bool)
    (value : Str) : Except PyError (Option Str) :=
  let cdn := unicode.lower (strip settings.cloudfrontDomain)
  if allowPlaceholders && startsWith value proofPlaceholderPrefix then
    .ok (if proofPlaceholderPrefix.length < value.length then some value else none)
  else if (normalizeSlashes value).take 2 = str "//" then .ok none
  else if startsWith value (str "/") then .ok (some value)
  else if cdn = [] ∧ settings.storageBackend = .local ∧
      startsWith value (localStorageUrlPrefix ++ str "/") then .ok (some value)
  else
    match urlparse unicode value with
    | .error raised => .error raised
    | .ok parsed =>
      let host := unicode.lower (parsed.hostname unicode)
      if unicode.lower parsed.scheme ≠ str "https" then .ok none
      else if cdn ≠ [] then .ok (if host = cdn then some value else none)
      else if settings.storageBackend = .s3 then
        let s3Host := unicode.lower
          (settings.s3Bucket ++ str ".s3." ++ settings.awsRegion ++ str ".amazonaws.com")
        .ok (if host = s3Host then some value else none)
      else .ok (some value)

/-- `isSafeImageSrc`; an empty `mediaHost` is an unset `NEXT_PUBLIC_MEDIA_HOST`. -/
def isSafeImageSrc (hosts : HostParser) (unicode : Unicode) (mediaHost src : Str) : Bool :=
  if (normalizeSlashes src).take 2 = str "//" then false
  else if startsWith src (str "/") then true
  else if mediaHost = [] && startsWith src (localStorageUrlPrefix ++ str "/") then true
  else
    match newUrl hosts src with
    | some (.https host _) => mediaHost = [] || host = unicode.lower mediaHost
    | _ => false

/-! ### What an accepted src promises -/

/-- A domain name in ASCII. -/
structure IsDomain (domain : Str) : Prop where
  nonempty : domain ≠ []
  plain : ∀ point ∈ domain, isAsciiAlnum point = true ∨ point = chr '.' ∨ point = chr '-'

section Gate

variable (hosts : HostParser) (unicode : Unicode) (settings : Settings) (allowPlaceholders : Bool)
  (value : Str)

def Accepts : Prop :=
  ∃ src, safeImageSrc unicode settings allowPlaceholders value = .ok (some src)

/-- The browser stays on the site, or goes to the media host. -/
def StaysHome : Prop :=
  resolve hosts value = some .sameOrigin ∨
    ∃ port, resolve hosts value = some (.https (unicode.lower settings.cloudfrontDomain) port)

/-- What an accepted src promises: it sends no browser to a third host, and the page shows it. -/
def GateHolds : Prop :=
  StaysHome hosts unicode settings value ∧
    isSafeImageSrc hosts unicode settings.cloudfrontDomain value = true

end Gate

/-- The netloc of a value without the spaces a browser strips. -/
def netlocOf (value : Str) : Str :=
  (splitNetloc ((splitScheme (preprocess value)).2.drop 2)).1

/-- The netloc as a browser cuts it: leading backslashes are slashes, the next one ends it. -/
def cutNetloc (netloc : Str) : Str :=
  (netloc.dropWhile (· = chr '\\')).takeWhile (· ≠ chr '\\')

/-- The text a netloc names its host with, and its port. -/
def hostPort (netloc : Str) : Str × Str :=
  let parts := partition (rpartition netloc (chr '@')).2.2 (chr ':')
  (parts.1, parts.2.2)

/-- Up to its first backslash, the netloc names the media host and a port number. -/
structure NamesMediaHost (hosts : HostParser) (mediaHost netloc : Str) : Prop where
  host : hosts.parse (hostPort (cutNetloc netloc)).1 = some mediaHost
  digits : (hostPort (cutNetloc netloc)).2.all isAsciiDigit = true
  port : digitsValue (hostPort (cutNetloc netloc)).2 ≤ 65535

/-! ### A path of the site -/

theorem preprocess_path {value : Str} (path : startsWith value (str "/") = true) :
    ∃ rest, preprocess value = chr '/' :: rest ∧
      ∃ spaces, remove value [0x09, 0x0D, 0x0A] = chr '/' :: (rest ++ spaces) := by
  obtain ⟨tail, rfl⟩ : ∃ tail, value = chr '/' :: tail := by
    obtain ⟨tail, cut⟩ := List.isPrefixOf_iff_prefix.mp path
    exact ⟨tail, cut.symm⟩
  obtain ⟨stripped, cut, spaces⟩ := rstripBy_append (· ≤ 0x20) (chr '/' :: tail)
  -- the slash is no space, so it is not stripped with the end
  obtain ⟨kept, starts⟩ : ∃ kept, rstripBy (· ≤ 0x20) (chr '/' :: tail) = chr '/' :: kept := by
    cases found : rstripBy (· ≤ 0x20) (chr '/' :: tail) with
    | nil =>
        rw [found, List.nil_append] at cut
        have space := spaces (chr '/') (cut ▸ List.mem_cons_self ..)
        exact absurd space (by decide)
    | cons first kept =>
        rw [found, List.cons_append] at cut
        exact ⟨kept, by rw [(List.cons.inj cut).1]⟩
  rw [starts, List.cons_append] at cut
  refine ⟨remove kept [0x09, 0x0D, 0x0A], ?_, remove stripped [0x09, 0x0D, 0x0A], ?_⟩
  · unfold preprocess lstripBy
    rw [starts, List.dropWhile_cons_of_neg (by decide)]
    exact List.filter_cons_of_pos (by decide)
  · rw [cut]
    unfold remove
    rw [List.filter_cons_of_pos (by decide), List.filter_append]

theorem resolve_path (hosts : HostParser) {value : Str}
    (path : startsWith value (str "/") = true)
    (single : (normalizeSlashes value).take 2 ≠ str "//") :
    resolve hosts value = some .sameOrigin := by
  obtain ⟨rest, read, spaces, normalised⟩ := preprocess_path path
  have noScheme : schemeStart (chr '/' :: rest) = none := rfl
  unfold resolve
  rw [read, noScheme]
  cases rest with
  | nil => rfl
  | cons second rest =>
      have different : isSlash second = false := by
        by_contra slash
        apply single
        unfold normalizeSlashes
        rw [normalised]
        have either : second = chr '/' ∨ second = chr '\\' := by
          simpa [isSlash, Classical.or_iff_not_imp_left] using slash
        obtain rfl | rfl := either
        · rfl
        · rfl
      show relativeState hosts (chr '/' :: second :: rest) = _
      simp [relativeState, different]

/-! ### The two readings of an absolute URL -/

/-- A scheme that is read ends at the first colon. -/
theorem splitScheme_cases {url : Str} (named : (splitScheme url).1 ≠ []) :
    ∃ first scheme rest, url = first :: scheme ++ chr ':' :: rest ∧
      isAsciiAlpha first = true ∧ (first :: scheme).all isSchemeChar = true ∧
      splitScheme url = (asciiLower (first :: scheme), rest) := by
  rcases partition_cases url (chr ':') with ⟨absent, found⟩ | ⟨before, after, absent, cut, found⟩
  · exact absurd (by simp [splitScheme, found]) named
  · cases before with
    | nil => exact absurd (by simp [splitScheme, found]) named
    | cons first scheme =>
        by_cases plain : (isAsciiAlpha first && (first :: scheme).all isSchemeChar) = true
        · have split : splitScheme url = (asciiLower (first :: scheme), after) := by
            unfold splitScheme
            rw [found]
            exact if_pos plain
          rw [Bool.and_eq_true] at plain
          exact ⟨first, scheme, after, cut, plain.1, plain.2, split⟩
        · exact absurd (by
            unfold splitScheme
            rw [found]
            exact congrArg Prod.fst (if_neg plain)) named

theorem splitScheme_append {first : Nat} {scheme rest : Str} (letter : isAsciiAlpha first = true)
    (plain : (first :: scheme).all isSchemeChar = true) :
    splitScheme (first :: scheme ++ chr ':' :: rest) = (asciiLower (first :: scheme), rest) := by
  have absent : chr ':' ∉ first :: scheme := by
    intro member
    exact absurd (List.all_eq_true.mp plain _ member) (by decide)
  unfold splitScheme
  rw [partition_append absent]
  exact if_pos (by rw [letter, plain]; rfl)

/-- Python strips the same start and keeps the spaces at the end. -/
theorem normaliseUrl_cases (value : Str) :
    normaliseUrl value = [] ∨
      ∃ spaces, normaliseUrl value = preprocess value ++ spaces ∧
        ∀ point ∈ spaces, point ≤ 0x20 := by
  obtain ⟨stripped, cut, low⟩ := rstripBy_append (· ≤ 0x20) value
  have kept := @List.dropWhile_append _ (fun point => decide (point ≤ 0x20))
    (rstripBy (· ≤ 0x20) value) stripped
  rw [← cut] at kept
  unfold normaliseUrl preprocess lstripBy
  rw [kept]
  by_cases blank : (rstripBy (· ≤ 0x20) value).dropWhile (· ≤ 0x20) = []
  · left
    rw [blank, List.isEmpty_nil, if_pos rfl, List.dropWhile_eq_nil_iff.mpr low]
    rfl
  · right
    refine ⟨remove stripped [0x09, 0x0D, 0x0A], ?_, ?_⟩
    · rw [if_neg (by simpa using blank)]
      exact List.filter_append ..
    · intro point member
      simpa using low point (List.mem_of_mem_filter member)

theorem urlparse_parts {unicode : Unicode} {value : Str} {parsed : SplitResult}
    (read : urlparse unicode value = .ok parsed) :
    parsed.scheme = (splitScheme (normaliseUrl value)).1 ∧
      parsed.netloc =
        if startsWith (splitScheme (normaliseUrl value)).2 (str "//") then
          (splitNetloc ((splitScheme (normaliseUrl value)).2.drop 2)).1
        else [] := by
  unfold urlparse at read
  obtain ⟨result, split, rest⟩ := bind_eq_ok.mp read
  have same : parsed.scheme = result.scheme ∧ parsed.netloc = result.netloc := by
    split at rest
    · cases rest; exact ⟨rfl, rfl⟩
    · cases rest; exact ⟨rfl, rfl⟩
  rw [same.1, same.2]
  unfold urlsplit at split
  generalize splitScheme (normaliseUrl value) = parts at split ⊢
  obtain ⟨scheme, afterScheme⟩ := parts
  by_cases slashes : startsWith afterScheme (str "//") = true
  · simp only [slashes, if_true, bind_eq_ok] at split ⊢
    obtain ⟨_, _, _, _, split⟩ := split
    cases split
    exact ⟨rfl, rfl⟩
  · simp only [slashes, bind_eq_ok] at split ⊢
    obtain ⟨_, _, _, _, split⟩ := split
    cases split
    exact ⟨rfl, rfl⟩

theorem isAscii_of_isSchemeChar {text : Str} (plain : text.all isSchemeChar = true) :
    isAscii text = true := by
  simp only [isAscii, List.all_eq_true, decide_eq_true_eq] at plain ⊢
  intro point member
  have low := plain point member
  unfold isSchemeChar at low
  simp only [Bool.or_eq_true, isAsciiAlnum_iff, decide_eq_true_eq, List.mem_cons,
    List.not_mem_nil, or_false] at low
  have signs : chr '+' = 43 ∧ chr '-' = 45 ∧ chr '.' = 46 := by decide
  omega

/-- The start of a text that goes on with other points. -/
theorem prefix_of_append {start text spaces after : Str} {point : Nat}
    (cut : text ++ spaces = start ++ point :: after) (absent : point ∉ spaces) :
    ∃ rest, text = start ++ point :: rest ∧ after = rest ++ spaces := by
  obtain ⟨middle, same, rest⟩ | ⟨middle, same, rest⟩ := List.append_eq_append_iff.mp cut
  · exact absurd (by simp [rest]) absent
  · cases middle with
    | nil =>
        rw [List.nil_append] at rest
        exact absurd (by simp [← rest]) absent
    | cons first middle =>
        obtain ⟨rfl, rfl⟩ := List.cons.inj rest
        exact ⟨middle, same, rfl⟩

theorem takeWhile_append_cases (holds : Nat → Bool) (text spaces : Str) :
    ∃ kept, (text ++ spaces).takeWhile holds = text.takeWhile holds ++ kept ∧
      ∀ point ∈ kept, point ∈ spaces := by
  rw [List.takeWhile_append]
  split
  · next whole =>
    have all : text.takeWhile holds = text :=
      (List.takeWhile_sublist holds).eq_of_length whole
    exact ⟨_, by rw [all], fun point member => List.takeWhile_subset _ member⟩
  · exact ⟨[], by simp, by simp⟩

/-- Both parsers read an https URL, from one text; Python keeps the spaces at its end. -/
theorem absolute_cases {unicode : Unicode} {value : Str} {parsed : SplitResult}
    (read : urlparse unicode value = .ok parsed)
    (secure : unicode.lower parsed.scheme = str "https")
    (named : parsed.netloc ≠ []) :
    ∃ rest, schemeStart (preprocess value) = some (str "https", str "//" ++ rest) ∧
      netlocOf value = (splitNetloc rest).1 ∧
      ∃ spaces, parsed.netloc = netlocOf value ++ spaces ∧ ∀ point ∈ spaces, point ≤ 0x20 := by
  obtain ⟨scheme, netloc⟩ := urlparse_parts read
  have schemed : (splitScheme (normaliseUrl value)).1 ≠ [] := by
    intro empty
    rw [scheme, empty, unicode.lower_ascii [] rfl] at secure
    exact absurd secure (by decide)
  obtain ⟨first, name, after, cut, letter, plain, split⟩ := splitScheme_cases schemed
  rw [split] at scheme netloc
  have https : asciiLower (first :: name) = str "https" := by
    have ascii := isAscii_asciiLower (isAscii_of_isSchemeChar plain)
    rw [scheme, unicode.lower_ascii _ ascii, asciiLower_idempotent] at secure
    exact secure
  obtain blank | ⟨spaces, kept, low⟩ := normaliseUrl_cases value
  · rw [blank] at cut
    exact absurd cut (by simp)
  have noSpace {point : Nat} (large : 0x20 < point) : point ∉ spaces := by
    intro member
    have := low point member
    omega
  obtain ⟨rest, text, rfl⟩ := prefix_of_append (kept.symm.trans cut) (noSpace (by decide))
  have slashes : startsWith (rest ++ spaces) (str "//") = true := by
    by_contra other
    exact named (netloc.trans (if_neg other))
  obtain ⟨tail, started⟩ := List.isPrefixOf_iff_prefix.mp slashes
  have starts : rest ++ spaces = [] ++ chr '/' :: (chr '/' :: tail) := started.symm
  obtain ⟨rest, rfl, follows⟩ := prefix_of_append starts (noSpace (by decide))
  have second : rest ++ spaces = [] ++ chr '/' :: tail := follows.symm
  obtain ⟨rest, rfl, rfl⟩ := prefix_of_append second (noSpace (by decide))
  refine ⟨rest, ?_, ?_, ?_⟩
  · rw [text, schemeStart_append letter (Bool.and_eq_true_iff.mp plain).2, https]
    rfl
  · unfold netlocOf
    rw [text, splitScheme_append letter plain]
    rfl
  · rw [if_pos slashes] at netloc
    obtain ⟨end_, appended, inside⟩ := takeWhile_append_cases
      (fun point => decide (point ∉ [chr '/', chr '?', chr '#'])) rest spaces
    refine ⟨end_, ?_, fun point member => low point (inside point member)⟩
    unfold netlocOf
    rw [text, splitScheme_append letter plain, netloc]
    exact appended

/-- Stripping the front commutes with cutting the end, when something is left in between. -/
theorem takeWhile_dropWhile {α : Type*} {inside slash back : α → Bool}
    (agree : ∀ item, inside item = true → slash item = back item) {items : List α}
    (named : ∃ item ∈ items.takeWhile inside, back item = false) :
    (items.dropWhile slash).takeWhile inside = (items.takeWhile inside).dropWhile back := by
  induction items with
  | nil => rfl
  | cons item items inductionHypothesis =>
      by_cases within : inside item = true
      · rw [List.takeWhile_cons_of_pos within] at named ⊢
        by_cases stripped : back item = true
        · rw [List.dropWhile_cons_of_pos ((agree item within).trans stripped),
            List.dropWhile_cons_of_pos stripped]
          apply inductionHypothesis
          simpa [stripped] using named
        · rw [List.dropWhile_cons_of_neg (by rwa [agree item within]),
            List.dropWhile_cons_of_neg stripped, List.takeWhile_cons_of_pos within]
      · rw [List.takeWhile_cons_of_neg within] at named
        obtain ⟨_, member, _⟩ := named
        exact absurd member List.not_mem_nil

/-- The text the browser reads its host from, cut out of Python's netloc. -/
theorem authority_text {rest : Str} (named : ∃ point ∈ (splitNetloc rest).1, point ≠ chr '\\') :
    (rest.dropWhile isSlash).takeWhile (fun point => !endsAuthority point) =
      cutNetloc (splitNetloc rest).1 := by
  have dropped : (splitNetloc (rest.dropWhile isSlash)).1 =
      (splitNetloc rest).1.dropWhile (· = chr '\\') := by
    apply takeWhile_dropWhile
    · intro point within
      have noSlash : point ≠ chr '/' := by
        intro same
        subst same
        exact absurd within (by decide)
      simp [isSlash, noSlash]
    · obtain ⟨point, member, other⟩ := named
      exact ⟨point, member, by simpa using other⟩
  unfold cutNetloc
  rw [← dropped]
  unfold splitNetloc
  rw [List.takeWhile_takeWhile]
  congr 1
  funext point
  by_cases slash : point = chr '/'
  · simp [slash, endsAuthority, isSlash]
  · by_cases back : point = chr '\\'
    · simp [back, endsAuthority, isSlash]
    · simp [slash, back, endsAuthority, isSlash]

/-- The host of a netloc of backslashes and spaces is that netloc. -/
theorem hostname_of_blank {unicode : Unicode} {parsed : SplitResult}
    (blank : ∀ point ∈ parsed.netloc, point = chr '\\' ∨ point ≤ 0x20) :
    unicode.lower (parsed.hostname unicode) = parsed.netloc := by
  have back : chr '\\' = 92 := rfl
  have absent (point : Nat) (visible : 0x20 < point) (other : point ≠ 92) :
      point ∉ parsed.netloc := by
    intro member
    have := blank point member
    omega
  have low : isAscii parsed.netloc = true := by
    simp only [isAscii, List.all_eq_true, decide_eq_true_eq]
    intro point member
    have := blank point member
    omega
  have small : asciiLower parsed.netloc = parsed.netloc := by
    unfold asciiLower
    conv_rhs => rw [← List.map_id parsed.netloc]
    apply List.map_congr_left
    intro point member
    have := blank point member
    unfold asciiLowerPoint
    rw [if_neg]
    · rfl
    · rw [isAsciiUpper_iff]
      omega
  have named : parsed.hostinfo = (parsed.netloc, []) := by
    unfold SplitResult.hostinfo
    rw [rpartition_of_notMem (absent _ (by decide) (by decide))]
    simp only [partition_of_notMem (absent (chr '[') (by decide) (by decide)),
      partition_of_notMem (absent (chr ':') (by decide) (by decide))]
  unfold SplitResult.hostname
  rw [named, partition_of_notMem (absent _ (by decide) (by decide))]
  simp only [Bool.false_eq_true, if_false, List.append_nil]
  rw [unicode.lower_ascii _ low, small, unicode.lower_ascii _ low, small]

/-! ### Which accepted srcs keep the promise -/

theorem IsDomain.low {domain : Str} (valid : IsDomain domain) {point : Nat}
    (member : point ∈ domain) :
    point < 0x80 ∧ isSpace point = false ∧ point ≠ chr '[' := by
  have bracket : chr '[' = 91 := rfl
  have range : 45 ≤ point ∧ point ≤ 122 ∧ point ≠ 91 := by
    obtain letter | rfl | rfl := valid.plain point member
    · rw [isAsciiAlnum_iff] at letter
      omega
    · decide
    · decide
  refine ⟨by omega, ?_, by omega⟩
  simp [isSpace, inRanges, spaceRanges]
  omega

theorem IsDomain.strip {domain : Str} (valid : IsDomain domain) : strip domain = domain := by
  have kept (text : Str) (inside : ∀ point ∈ text, point ∈ domain) :
      text.dropWhile isSpace = text := by
    cases text with
    | nil => rfl
    | cons point text =>
        have visible := (valid.low (inside point (List.mem_cons_self ..))).2.1
        exact List.dropWhile_cons_of_neg (by simp [visible])
  unfold Python.strip stripBy rstripBy lstripBy
  rw [kept domain fun _ member => member,
    kept domain.reverse fun _ member => List.mem_reverse.mp member, List.reverse_reverse]

theorem IsDomain.lower {domain : Str} (valid : IsDomain domain) (unicode : Unicode) :
    unicode.lower domain = asciiLower domain := by
  apply unicode.lower_ascii
  simp only [isAscii, List.all_eq_true, decide_eq_true_eq]
  exact fun point member => (valid.low member).1

/-- A domain is neither empty nor made of backslashes and spaces, in lower case either. -/
theorem IsDomain.not_blank {domain : Str} (valid : IsDomain domain) :
    ¬ ∀ point ∈ asciiLower domain, point = chr '\\' ∨ point ≤ 0x20 := by
  intro blank
  obtain ⟨point, rest, rfl⟩ := List.exists_cons_of_ne_nil valid.nonempty
  have lowered := blank (asciiLowerPoint point) (by simp [asciiLower])
  have back : chr '\\' = 92 := rfl
  have either : asciiLowerPoint point = point ∨ asciiLowerPoint point = point + 32 ∧
      65 ≤ point := by
    unfold asciiLowerPoint
    split
    · next upper => exact .inr ⟨rfl, (isAsciiUpper_iff.mp upper).1⟩
    · exact .inl rfl
  obtain letter | rfl | rfl := valid.plain point (List.mem_cons_self ..)
  · rw [isAsciiAlnum_iff] at letter
    omega
  · exact absurd lowered (by decide)
  · exact absurd lowered (by decide)

theorem IsDomain.lower_bracket {domain : Str} (valid : IsDomain domain) :
    chr '[' ∉ asciiLower domain := by
  intro member
  obtain ⟨point, inside, lowered⟩ := List.mem_map.mp member
  have bracket : chr '[' = 91 := rfl
  have different := (valid.low inside).2.2
  unfold asciiLowerPoint at lowered
  split at lowered
  · next upper =>
    rw [isAsciiUpper_iff] at upper
    omega
  · exact different lowered

theorem accepts_cases {unicode : Unicode} {settings : Settings} {allowPlaceholders : Bool}
    {value : Str} (domain : IsDomain settings.cloudfrontDomain)
    (real : startsWith value proofPlaceholderPrefix = false)
    (accepted : Accepts unicode settings allowPlaceholders value) :
    (normalizeSlashes value).take 2 ≠ str "//" ∧
      (startsWith value (str "/") = true ∨ startsWith value (str "/") = false ∧
        ∃ parsed, urlparse unicode value = .ok parsed ∧
          unicode.lower parsed.scheme = str "https" ∧
          unicode.lower (parsed.hostname unicode) = asciiLower settings.cloudfrontDomain) := by
  obtain ⟨src, read⟩ := accepted
  have configured : unicode.lower (strip settings.cloudfrontDomain) ≠ [] := by
    rw [domain.strip, domain.lower]
    simpa [asciiLower] using domain.nonempty
  unfold safeImageSrc at read
  rw [domain.strip, domain.lower] at read configured
  simp only [real, Bool.and_false, Bool.false_eq_true, if_false, configured, false_and] at read
  split at read
  · cases read
  · next single =>
    refine ⟨single, ?_⟩
    split at read
    · next path => exact .inl path
    · next path =>
      right
      refine ⟨by simpa using path, ?_⟩
      cases parse : urlparse unicode value with
      | error raised =>
          rw [parse] at read
          cases read
      | ok parsed =>
          rw [parse] at read
          simp only [ne_eq] at read
          split at read
          · cases read
          · next secure =>
            split at read
            · next host => exact ⟨parsed, rfl, by simpa using secure, host⟩
            · cases read

theorem hostState_iff {hosts : HostParser} {mediaHost text : Str}
    (plain : chr '[' ∉ mediaHost) :
    (∃ number, hostState hosts text = some (.https mediaHost number)) ↔
      hosts.parse (partition text (chr ':')).1 = some mediaHost ∧
        (partition text (chr ':')).2.2.all isAsciiDigit = true ∧
        digitsValue (partition text (chr ':')).2.2 ≤ 65535 := by
  by_cases bracket : chr '[' ∈ (partition text (chr ':')).1
  · constructor
    · rintro ⟨number, read⟩
      unfold hostState at read
      split at read
      · next host parsed =>
        have inside := hosts.parse_bracket _ _ parsed (mem_splitHost bracket)
        exact absurd (portState_host read ▸ inside) plain
      · cases read
    · rintro ⟨parsed, _⟩
      exact absurd (hosts.parse_bracket _ _ parsed bracket) plain
  · unfold hostState
    rw [splitHost_of_notMem bracket]
    cases parsed : hosts.parse (partition text (chr ':')).1 with
    | none => simp
    | some host =>
        by_cases same : host = mediaHost
        · subst same
          rw [portState_isSome_iff]
          simp
        · constructor
          · rintro ⟨number, read⟩
            exact absurd (portState_host read).symm same
          · rintro ⟨named, _⟩
            exact absurd (Option.some.inj named) same

theorem namesMediaHost_iff (hosts : HostParser) (mediaHost netloc : Str) :
    NamesMediaHost hosts mediaHost netloc ↔
      hosts.parse (partition (rpartition (cutNetloc netloc) (chr '@')).2.2 (chr ':')).1 =
          some mediaHost ∧
        (partition (rpartition (cutNetloc netloc) (chr '@')).2.2 (chr ':')).2.2.all
            isAsciiDigit = true ∧
        digitsValue (partition (rpartition (cutNetloc netloc) (chr '@')).2.2 (chr ':')).2.2 ≤
            65535 := by
  have parts : hostPort (cutNetloc netloc) =
      ((partition (rpartition (cutNetloc netloc) (chr '@')).2.2 (chr ':')).1,
        (partition (rpartition (cutNetloc netloc) (chr '@')).2.2 (chr ':')).2.2) := rfl
  constructor
  · intro names
    have named := names.host
    have digits := names.digits
    have port := names.port
    rw [parts] at named digits port
    exact ⟨named, digits, port⟩
  · intro ⟨named, digits, port⟩
    constructor
    · rw [parts]
      exact named
    · rw [parts]
      exact digits
    · rw [parts]
      exact port

theorem hostState_ne_sameOrigin (hosts : HostParser) (text : Str) :
    hostState hosts text ≠ some .sameOrigin := by
  unfold hostState
  split
  · exact portState_ne_sameOrigin _ _
  · exact nofun

/-- An accepted src that is no path keeps its promise when its netloc, as the browser cuts it,
names the media host and a port. -/
theorem gateHolds_iff (hosts : HostParser) (unicode : Unicode) (settings : Settings)
    (allowPlaceholders : Bool) (value : Str) (domain : IsDomain settings.cloudfrontDomain)
    (real : startsWith value proofPlaceholderPrefix = false)
    (accepted : Accepts unicode settings allowPlaceholders value) :
    GateHolds hosts unicode settings value ↔
      startsWith value (str "/") = true ∨
        NamesMediaHost hosts (unicode.lower settings.cloudfrontDomain) (netlocOf value) := by
  obtain ⟨single, path | ⟨noPath, parsed, read, secure, host⟩⟩ := accepts_cases domain real accepted
  · have shown : isSafeImageSrc hosts unicode settings.cloudfrontDomain value = true := by
      unfold isSafeImageSrc
      rw [if_neg single, if_pos path]
    simp only [path, true_or, iff_true]
    exact ⟨.inl (resolve_path hosts path single), shown⟩
  · have visible : ∃ point ∈ parsed.netloc, ¬ (point = chr '\\' ∨ point ≤ 0x20) := by
      by_contra blank
      have blankHost : ∀ point ∈ parsed.netloc, point = chr '\\' ∨ point ≤ 0x20 := by
        intro point member
        by_contra visible
        exact blank ⟨point, member, visible⟩
      rw [hostname_of_blank blankHost] at host
      exact domain.not_blank (host ▸ blankHost)
    obtain ⟨point, member, other⟩ := visible
    obtain ⟨rest, scheme, cut, spaces, kept, low⟩ :=
      absolute_cases read secure (List.ne_nil_of_mem member)
    have named : ∃ point ∈ (splitNetloc rest).1, point ≠ chr '\\' := by
      rw [kept, List.mem_append] at member
      refine ⟨point, cut ▸ member.resolve_right fun space => ?_, fun same => other (.inl same)⟩
      exact other (.inr (low point space))
    have target : ∀ rest', rest'.dropWhile isSlash = rest.dropWhile isSlash →
        ignoreSlashes hosts rest' =
          hostState hosts (rpartition (cutNetloc (netlocOf value)) (chr '@')).2.2 := by
      intro rest' same
      unfold ignoreSlashes authorityState
      rw [same, authority_text named, cut]
    have resolved : resolve hosts value =
        hostState hosts (rpartition (cutNetloc (netlocOf value)) (chr '@')).2.2 := by
      unfold resolve
      rw [scheme]
      exact target rest rfl
    have opened : newUrl hosts value =
        hostState hosts (rpartition (cutNetloc (netlocOf value)) (chr '@')).2.2 := by
      unfold newUrl
      rw [scheme]
      exact target (str "//" ++ rest) rfl
    have home : StaysHome hosts unicode settings value ↔
        NamesMediaHost hosts (unicode.lower settings.cloudfrontDomain) (netlocOf value) := by
      have bracket : chr '[' ∉ unicode.lower settings.cloudfrontDomain := by
        rw [domain.lower]
        exact domain.lower_bracket
      unfold StaysHome
      rw [resolved, or_iff_right (hostState_ne_sameOrigin hosts _), hostState_iff bracket]
      exact (namesMediaHost_iff hosts _ _).symm
    have shown : StaysHome hosts unicode settings value →
        isSafeImageSrc hosts unicode settings.cloudfrontDomain value = true := by
      intro stays
      unfold StaysHome at stays
      rw [resolved] at stays
      obtain ⟨number, reached⟩ := stays.resolve_left (hostState_ne_sameOrigin hosts _)
      unfold isSafeImageSrc
      rw [if_neg single, if_neg (by simp [noPath]), if_neg (by simp [domain.nonempty]), opened,
        reached]
      simp
    rw [noPath, ← home]
    constructor
    · exact fun promise => .inr promise.1
    · intro either
      have stays := either.resolve_left (by simp)
      exact ⟨stays, shown stays⟩

/-! ### A backslash before the at sign -/

namespace Backslash

/-- The media host of a deployment. -/
def settings : Settings where
  storageBackend := .s3
  s3Bucket := str "media"
  awsRegion := str "eu-west-3"
  cloudfrontDomain := str "cdn.example.org"
  maxImageSize := 0
  maxVideoSize := 0
  maxProofImagesPerEvent := 0

/-- A host parser for names in ASCII. -/
def hosts : HostParser where
  parse := fun text => if text = [] then none else some (asciiLower text)
  parse_nil := rfl
  parse_bracket := by
    intro text host parsed bracket
    split at parsed
    · cases parsed
    · cases parsed
      exact List.mem_map.mpr ⟨chr '[', bracket, rfl⟩

theorem settings_domain : IsDomain settings.cloudfrontDomain where
  nonempty := by decide
  plain := by decide

/-- Python reads the host after the at sign, a browser the one before the backslash. -/
def src : Str :=
  str "https://evil.example\\@cdn.example.org/pixel.gif"

end Backslash

theorem gateHolds_upload : GateHolds Backslash.hosts Unicode.ascii Backslash.settings
    (str "HTTPS://CDN.example.org:443/a.png") :=
  (gateHolds_iff Backslash.hosts Unicode.ascii Backslash.settings false _
    Backslash.settings_domain (by decide +kernel)
    ⟨str "HTTPS://CDN.example.org:443/a.png", by decide +kernel⟩).mpr
      (.inr ⟨by decide +kernel, by decide +kernel, by decide +kernel⟩)

theorem backslash_leaves_home :
    Accepts Unicode.ascii Backslash.settings false Backslash.src ∧
      resolve Backslash.hosts Backslash.src = some (.https (str "evil.example") none) ∧
      ¬ GateHolds Backslash.hosts Unicode.ascii Backslash.settings Backslash.src := by
  have reached : resolve Backslash.hosts Backslash.src =
      some (.https (str "evil.example") none) := by decide +kernel
  refine ⟨⟨Backslash.src, by decide +kernel⟩, reached, fun promise => ?_⟩
  obtain home | ⟨port, home⟩ := promise.1
  · rw [reached] at home
    cases home
  · rw [reached] at home
    have same : str "evil.example" = Unicode.ascii.lower Backslash.settings.cloudfrontDomain := by
      injection home with target
      injection target
    exact absurd same (by decide)

end Vidit.Evidence
