import Vidit.Browser.Path

/-!
Contract: where the login page sends a reader who signed in.

Owns:
- `safeNext`, with what it reads of the URL a browser parses `?next=` to;
- `StaysOnSite`, where a browser goes from the text it returns, and when it stays.

Does not own: the host parser, and the router, which resolves the text against the page.
-/

namespace Vidit.Navigation

open Vidit.Python Vidit.Browser

/-! ### Serialized URLs -/

/-- `%XX` for each UTF-8 byte of the points of a set. -/
def percentEncode (encoded : Nat → Bool) (text : Str) : Str :=
  text.flatMap fun point =>
    if encoded point then
      (encodeCodePoint point).flatMap fun byte =>
        [chr '%', upperHexDigit (byte / 16), upperHexDigit (byte % 16)]
    else [point]

/-- The C0 control percent-encode set. -/
def isControlEncoded (point : Nat) : Bool :=
  point ≤ 0x1F || 0x7E < point

/-- The fragment percent-encode set. -/
def isFragmentEncoded (point : Nat) : Bool :=
  isControlEncoded point || point ∈ [0x20, 0x22, chr '<', chr '>', 0x60]

/-- The query percent-encode set. -/
def isQueryEncoded (point : Nat) : Bool :=
  isControlEncoded point || point ∈ [0x20, 0x22, chr '#', chr '<', chr '>']

/-- The special-query percent-encode set. -/
def isSpecialQueryEncoded (point : Nat) : Bool :=
  isQueryEncoded point || point = 0x27

/-- The path percent-encode set. -/
def isPathEncoded (point : Nat) : Bool :=
  isQueryEncoded point || point ∈ [chr '?', chr '^', 0x60, chr '\x7b', chr '\x7d']

/-- The origin of a page served over https. -/
structure Origin where
  host : Str
  port : Option Nat
deriving DecidableEq, Repr

/-- An https URL, as the parser leaves it. -/
structure PageUrl where
  origin : Origin
  path : List Str
  query : Option Str
  fragment : Option Str
deriving DecidableEq, Repr

namespace PageUrl

def pathname (url : PageUrl) : Str :=
  chr '/' :: join (str "/") (url.path.map (percentEncode isPathEncoded))

/-- The mark and the text of a query or a fragment; an empty one is left out. -/
def suffix (mark : Nat) (encoded : Nat → Bool) : Option Str → Str
  | some (point :: rest) => mark :: percentEncode encoded (point :: rest)
  | _ => []

def search (url : PageUrl) : Str :=
  suffix (chr '?') isSpecialQueryEncoded url.query

def hash (url : PageUrl) : Str :=
  suffix (chr '#') isFragmentEncoded url.fragment

/-- `url.pathname + url.search + url.hash`. -/
def text (url : PageUrl) : Str :=
  url.pathname ++ url.search ++ url.hash

end PageUrl

/-- What follows the first mark, if any. -/
def afterMark (mark : Nat) (text : Str) : Option Str :=
  if (partition text mark).2.1 then some (partition text mark).2.2 else none

/-- The path, query and fragment states, on what follows the authority. -/
def urlFrom (origin : Origin) (text : Str) : PageUrl where
  origin := origin
  path := pathState [] (segmentsOf text)
  query := afterMark (chr '?') (partition text (chr '#')).1
  fragment := afterMark (chr '#') text

/-! ### `safeNext` -/

/-- `"/map"`. -/
def mapPath : Str := str "/map"

section Next

variable (hosts : HostParser)

/-- `new URL(raw, window.location.origin)`, for an https URL. -/
def urlOnPage (page : Origin) (raw : Str) : Option PageUrl :=
  match resolve hosts raw with
  | some .sameOrigin => some (urlFrom page (preprocess raw))
  | some (.https host port) =>
    (afterSlashes raw).map fun text =>
      urlFrom ⟨host, port⟩ (text.dropWhile fun point => !endsAuthority point)
  | _ => none

/-- The URL whose path `safeNext` returns; without a page there is no `window`. -/
def honoured (page : Option Origin) (raw : Option Str) : Option PageUrl :=
  match page, raw with
  | some page, some raw =>
    if startsWith raw (str "/") then
      (urlOnPage hosts page raw).filter fun url => url.origin = page
    else none
  | _, _ => none

def safeNext (page : Option Origin) (raw : Option Str) : Str :=
  match honoured hosts page raw with
  | some url => url.text
  | none => mapPath

/-- A browser that resolves the text on the page stays on its site. -/
def StaysOnSite (page : Origin) (text : Str) : Prop :=
  resolve hosts text = some .sameOrigin ∨ resolve hosts text = some (.https page.host page.port)

/-- The path starts with an empty segment, so the text starts with two slashes. -/
def PageUrl.OpensEmpty (url : PageUrl) : Prop :=
  ∃ second rest, url.path = [] :: second :: rest

end Next

/-! ### What the serializer writes -/

section Serializer

variable {encoded : Nat → Bool} {text : Str}

/-- A point no parser strips. -/
def IsVisible (point : Nat) : Prop :=
  0x20 < point

instance (point : Nat) : Decidable (IsVisible point) :=
  inferInstanceAs (Decidable (0x20 < point))

theorem visible_upperHexDigit (digit : Nat) : IsVisible (upperHexDigit digit) := by
  have digits : chr '0' = 48 := rfl
  have letters : chr 'A' = 65 := rfl
  unfold IsVisible upperHexDigit
  split
  · omega
  · omega

theorem visible_percentEncode (hides : ∀ point ≤ 0x20, encoded point = true) :
    ∀ point ∈ percentEncode encoded text, IsVisible point := by
  intro point member
  obtain ⟨source, _, written⟩ := List.mem_flatMap.mp member
  by_cases escapes : encoded source = true
  · rw [if_pos escapes] at written
    obtain ⟨byte, _, digits⟩ := List.mem_flatMap.mp written
    rcases List.mem_cons.mp digits with rfl | digits
    · decide
    rcases List.mem_cons.mp digits with rfl | last
    · exact visible_upperHexDigit _
    · rw [List.mem_singleton.mp last]
      exact visible_upperHexDigit _
  · rw [if_neg escapes] at written
    rw [List.mem_singleton.mp written]
    by_contra low
    exact escapes (hides source (Nat.not_lt.mp low))

theorem isQueryEncoded_of_le {point : Nat} (low : point ≤ 0x20) : isQueryEncoded point = true := by
  unfold isQueryEncoded isControlEncoded
  rcases Nat.lt_or_ge point 0x20 with control | space
  · have under : point ≤ 0x1F := by omega
    simp [under]
  · have same : point = 0x20 := by omega
    rw [same]
    decide

theorem isFragmentEncoded_of_le {point : Nat} (low : point ≤ 0x20) :
    isFragmentEncoded point = true := by
  unfold isFragmentEncoded isControlEncoded
  rcases Nat.lt_or_ge point 0x20 with control | space
  · have under : point ≤ 0x1F := by omega
    simp [under]
  · have same : point = 0x20 := by omega
    rw [same]
    decide

theorem visible_suffix {mark : Nat} (visible : IsVisible mark)
    (hides : ∀ point ≤ 0x20, encoded point = true) (given : Option Str) :
    ∀ point ∈ PageUrl.suffix mark encoded given, IsVisible point := by
  intro point member
  cases given with
  | none => cases member
  | some given =>
      cases given with
      | nil => cases member
      | cons first rest =>
          rcases List.mem_cons.mp member with rfl | later
          · exact visible
          · exact visible_percentEncode hides point later

theorem mem_join {parts : List Str} {point : Nat} (member : point ∈ join (str "/") parts) :
    point = chr '/' ∨ ∃ part ∈ parts, point ∈ part := by
  unfold join at member
  induction parts with
  | nil => cases member
  | cons part parts inductionHypothesis =>
      cases parts with
      | nil =>
          rw [List.intercalate_singleton] at member
          exact .inr ⟨part, List.mem_cons_self, member⟩
      | cons next parts =>
          rw [List.intercalate_cons_cons] at member
          rcases List.mem_append.mp member with first | later
          · rcases List.mem_append.mp first with inPart | separator
            · exact .inr ⟨part, List.mem_cons_self, inPart⟩
            · exact .inl (List.mem_singleton.mp separator)
          · rcases inductionHypothesis later with slash | ⟨other, inParts, here⟩
            · exact .inl slash
            · exact .inr ⟨other, List.mem_cons_of_mem _ inParts, here⟩

/-- Nothing the serializer writes is a space or a control. -/
theorem PageUrl.visible_text (url : PageUrl) : ∀ point ∈ url.text, IsVisible point := by
  intro point member
  unfold PageUrl.text at member
  rcases List.mem_append.mp member with before | inHash
  · rcases List.mem_append.mp before with inPath | inSearch
    · rcases List.mem_cons.mp inPath with rfl | inside
      · decide
      · rcases mem_join inside with rfl | ⟨part, inParts, here⟩
        · decide
        · obtain ⟨segment, _, rfl⟩ := List.mem_map.mp inParts
          refine visible_percentEncode ?_ point here
          intro low below
          unfold isPathEncoded
          rw [isQueryEncoded_of_le below]
          rfl
    · refine visible_suffix (by decide) ?_ _ point inSearch
      intro low below
      unfold isSpecialQueryEncoded
      rw [isQueryEncoded_of_le below]
      rfl
  · exact visible_suffix (by decide) (fun _ => isFragmentEncoded_of_le) _ point inHash

/-- A text without spaces and controls is read as it is. -/
theorem preprocess_of_visible (visible : ∀ point ∈ text, IsVisible point) :
    preprocess text = text := by
  have kept : ∀ points : Str, (∀ point ∈ points, IsVisible point) →
      points.dropWhile (fun point => decide (point ≤ 0x20)) = points := by
    intro points clear
    cases points with
    | nil => rfl
    | cons point rest =>
        have above : 0x20 < point := clear point List.mem_cons_self
        rw [List.dropWhile_cons_of_neg]
        simpa using above
  have right : rstripBy (· ≤ 0x20) text = text := by
    unfold rstripBy
    rw [kept text.reverse fun point member => visible point (List.mem_reverse.mp member),
      List.reverse_reverse]
  unfold preprocess
  rw [right]
  unfold lstripBy
  rw [kept text visible]
  unfold remove
  rw [List.filter_eq_self]
  intro point member
  have above : 0x20 < point := visible point member
  simp only [List.mem_cons, List.not_mem_nil, or_false, decide_eq_true_eq, not_or]
  omega

end Serializer

/-! ### How its text starts -/

/-- A segment of a parsed path. -/
def IsSegment (segment : Str) : Prop :=
  ∀ point ∈ segment, isSlash point = false

theorem isSegment_of_mem_segmentsOf {text segment : Str} (member : segment ∈ segmentsOf text) :
    IsSegment segment := by
  intro point inSegment
  have slashless := notMem_of_mem_split member
  have inText := subset_of_mem_split member inSegment
  obtain ⟨source, _, same⟩ := List.mem_map.mp inText
  have noBackslash : point ≠ chr '\\' := by
    rw [← same]
    split
    · decide
    · assumption
  have noSlash : point ≠ chr '/' := fun slash => slashless (slash ▸ inSegment)
  unfold isSlash
  simp [noBackslash, noSlash]

theorem isSegment_nil : IsSegment [] := by
  intro point member
  cases member

/-- Every segment the path state leaves is one it read, or empty. -/
theorem isSegment_pathState {path segments : List Str}
    (started : ∀ segment ∈ path, IsSegment segment) (read : ∀ segment ∈ segments, IsSegment segment) :
    ∀ segment ∈ pathState path segments, IsSegment segment := by
  have shorter : ∀ segment ∈ path.dropLast, IsSegment segment := fun segment member =>
    started segment (List.mem_of_mem_dropLast member)
  have concat : ∀ {some : List Str} {last : Str}, (∀ segment ∈ some, IsSegment segment) →
      IsSegment last → ∀ segment ∈ some ++ [last], IsSegment segment := by
    intro some last earlier isLast segment member
    rcases List.mem_append.mp member with before | after
    · exact earlier segment before
    · rw [List.mem_singleton.mp after]
      exact isLast
  induction segments generalizing path with
  | nil => exact started
  | cons first rest inductionHypothesis =>
      have isFirst := read first List.mem_cons_self
      cases rest with
      | nil =>
          unfold pathState
          split
          · exact concat shorter isSegment_nil
          · split
            · exact concat started isSegment_nil
            · exact concat started isFirst
      | cons second rest =>
          have later : ∀ segment ∈ second :: rest, IsSegment segment := fun segment member =>
            read segment (List.mem_cons_of_mem _ member)
          have again : ∀ {next : List Str}, (∀ segment ∈ next, IsSegment segment) →
              ∀ segment ∈ pathState next (second :: rest), IsSegment segment :=
            fun fine => inductionHypothesis fine later fun segment member =>
              fine segment (List.mem_of_mem_dropLast member)
          unfold pathState
          split
          · exact again shorter
          · split
            · exact again started
            · exact again (concat started isFirst)

theorem isSegment_urlFrom {origin : Origin} {text : Str} :
    ∀ segment ∈ (urlFrom origin text).path, IsSegment segment :=
  isSegment_pathState (fun _ member => absurd member List.not_mem_nil)
    fun _ => isSegment_of_mem_segmentsOf

/-- The first point written for a segment is no slash. -/
theorem head_percentEncode {first : Nat} {rest : Str} (segment : IsSegment (first :: rest)) :
    ∃ point written, percentEncode isPathEncoded (first :: rest) = point :: written ∧
      isSlash point = false := by
  unfold percentEncode
  rw [List.flatMap_cons]
  by_cases escapes : isPathEncoded first = true
  · rw [if_pos escapes]
    have starts : ∃ byte bytes, encodeCodePoint first = byte :: bytes := by
      unfold encodeCodePoint
      split
      · exact ⟨_, _, rfl⟩
      · split
        · exact ⟨_, _, rfl⟩
        · split
          · exact ⟨_, _, rfl⟩
          · exact ⟨_, _, rfl⟩
    obtain ⟨byte, bytes, split⟩ := starts
    rw [split]
    exact ⟨chr '%', _, rfl, by decide⟩
  · rw [if_neg escapes]
    exact ⟨first, _, rfl, segment first List.mem_cons_self⟩

theorem head_suffix {mark : Nat} {encoded : Nat → Bool} (given : Option Str) {point : Nat}
    {rest : Str} (starts : PageUrl.suffix mark encoded given = point :: rest) : point = mark := by
  cases given with
  | none => cases starts
  | some given =>
      cases given with
      | nil => cases starts
      | cons first later =>
          cases starts
          rfl

/-- A query or a fragment starts with its mark. -/
theorem PageUrl.head_suffixes (url : PageUrl) {point : Nat} {rest : Str}
    (starts : url.search ++ url.hash = point :: rest) : isSlash point = false := by
  cases searched : url.search with
  | nil =>
      rw [searched, List.nil_append] at starts
      rw [head_suffix url.fragment starts]
      decide
  | cons first later =>
      rw [searched, List.cons_append] at starts
      have mark := head_suffix url.query searched
      cases starts
      rw [mark]
      decide

/-- What the text holds after its first slash. -/
theorem PageUrl.text_eq (url : PageUrl) : url.text =
    chr '/' :: (join (str "/") (url.path.map (percentEncode isPathEncoded)) ++
      (url.search ++ url.hash)) := by
  unfold PageUrl.text PageUrl.pathname
  rw [List.append_assoc, List.cons_append]

theorem PageUrl.text_of_opensEmpty {url : PageUrl} (opens : url.OpensEmpty) :
    ∃ rest, url.text = chr '/' :: chr '/' :: rest := by
  obtain ⟨second, rest, path⟩ := opens
  rw [url.text_eq, path, List.map_cons, List.map_cons, join, List.intercalate_cons_cons]
  exact ⟨_, rfl⟩

/-- After its first slash, the text has another one only where the path opens empty. -/
theorem PageUrl.opensEmpty_of_slash {url : PageUrl}
    (segments : ∀ segment ∈ url.path, IsSegment segment) {point : Nat} {rest : Str}
    (starts : url.text = chr '/' :: point :: rest) (slash : isSlash point = true) :
    url.OpensEmpty := by
  have after := List.tail_eq_of_cons_eq (url.text_eq.symm.trans starts)
  have suffixes : ∀ {tail : Str}, url.search ++ url.hash = point :: tail → False := by
    intro tail same
    have noSlash := url.head_suffixes same
    rw [slash] at noSlash
    cases noSlash
  cases path : url.path with
  | nil =>
      rw [path] at after
      exact (suffixes after).elim
  | cons first others =>
      cases first with
      | nil =>
          cases others with
          | nil =>
              rw [path] at after
              exact (suffixes after).elim
          | cons second others => exact ⟨second, others, path⟩
      | cons head tail =>
          have isFirst := segments (head :: tail) (by rw [path]; exact List.mem_cons_self)
          obtain ⟨written, more, encodes, noSlash⟩ := head_percentEncode isFirst
          have here : ∃ tail, join (str "/") (url.path.map (percentEncode isPathEncoded)) =
              written :: tail := by
            rw [path, List.map_cons, encodes]
            unfold join
            cases others with
            | nil =>
                rw [List.map_nil, List.intercalate_singleton]
                exact ⟨_, rfl⟩
            | cons second others =>
                rw [List.map_cons, List.intercalate_cons_cons]
                exact ⟨_, rfl⟩
          obtain ⟨later, joined⟩ := here
          rw [joined, List.cons_append] at after
          cases after
          rw [slash] at noSlash
          cases noSlash

/-! ### Where the text leads -/

section Leads

variable {hosts : HostParser} {page : Origin} {raw : Option Str} {url : PageUrl}

theorem isSegment_honoured (read : honoured hosts (some page) raw = some url) :
    ∀ segment ∈ url.path, IsSegment segment := by
  cases raw with
  | none => cases read
  | some raw =>
      unfold honoured at read
      simp only at read
      split at read
      · rw [Option.filter_eq_some_iff] at read
        have parsed := read.1
        unfold urlOnPage at parsed
        cases target : resolve hosts raw with
        | none =>
            rw [target] at parsed
            cases parsed
        | some found =>
            rw [target] at parsed
            cases found with
            | sameOrigin =>
                cases parsed
                exact isSegment_urlFrom
            | https host port =>
                obtain ⟨text, _, rfl⟩ := Option.map_eq_some_iff.mp parsed
                exact isSegment_urlFrom
            | other scheme => cases parsed
      · cases read

/-- A serialized text is read by the relative states. -/
theorem resolve_text (url : PageUrl) : resolve hosts url.text = relativeState hosts url.text := by
  unfold resolve
  rw [preprocess_of_visible url.visible_text, url.text_eq]
  rfl

/-- The text leads to the host behind its slashes where the path opens empty, and stays
otherwise. -/
theorem resolve_text_cases (segments : ∀ segment ∈ url.path, IsSegment segment) :
    url.OpensEmpty ∧ resolve hosts url.text = ignoreSlashes hosts (url.text.drop 2) ∨
      ¬ url.OpensEmpty ∧ resolve hosts url.text = some .sameOrigin := by
  rw [resolve_text]
  by_cases opens : url.OpensEmpty
  · obtain ⟨rest, starts⟩ := url.text_of_opensEmpty opens
    refine .inl ⟨opens, ?_⟩
    rw [starts]
    rfl
  · refine .inr ⟨opens, ?_⟩
    cases written : url.text with
    | nil => rfl
    | cons first after =>
        cases after with
        | nil => rfl
        | cons second rest =>
            have slash : first = chr '/' :=
              (List.cons.inj (written.symm.trans url.text_eq)).1
            have noSlash : isSlash second = false := by
              by_contra isSecond
              apply opens
              apply url.opensEmpty_of_slash segments (by rw [written, slash])
              simpa using isSecond
            show (if isSlash first && isSlash second then _ else _) = _
            rw [noSlash, Bool.and_false, if_neg Bool.false_ne_true]

/-- A text no host is read from stays on the site. -/
theorem staysOnSite_of_none (none : honoured hosts (some page) raw = none) :
    StaysOnSite hosts page (safeNext hosts (some page) raw) := by
  unfold safeNext
  rw [none]
  exact .inl rfl

theorem ignoreSlashes_ne_sameOrigin (text : Str) :
    ignoreSlashes hosts text ≠ some .sameOrigin := by
  unfold ignoreSlashes authorityState hostState
  split
  · exact portState_ne_sameOrigin _ _
  · intro same
    cases same

/-- After signing in a reader stays on the site exactly when the path of the `?next=` that was
honoured does not open with an empty segment, or the host behind its two slashes is the site. -/
theorem safeNext_staysOnSite_iff (hosts : HostParser) (page : Origin) (raw : Option Str) :
    StaysOnSite hosts page (safeNext hosts (some page) raw) ↔
      ∀ url, honoured hosts (some page) raw = some url → url.OpensEmpty →
        ignoreSlashes hosts (url.text.drop 2) = some (.https page.host page.port) := by
  cases read : honoured hosts (some page) raw with
  | none =>
      constructor
      · intro _ url same
        cases same
      · intro _
        exact staysOnSite_of_none read
  | some url =>
      have returned : safeNext hosts (some page) raw = url.text := by
        unfold safeNext
        rw [read]
      rw [returned]
      unfold StaysOnSite
      rcases resolve_text_cases (isSegment_honoured read) with ⟨opens, leads⟩ | ⟨plain, stays⟩
      · rw [leads]
        constructor
        · intro onSite other same _
          cases same
          rcases onSite with same | named
          · exact absurd same (ignoreSlashes_ne_sameOrigin _)
          · exact named
        · intro named
          exact .inr (named url rfl opens)
      · constructor
        · intro _ other same opens
          cases same
          exact absurd opens plain
        · intro _
          exact .inl stays

end Leads

/-- A dot segment before two slashes is dropped, and the slashes stay. -/
example (hosts : HostParser) (page : Origin) :
    safeNext hosts (some page) (some (str "/.//evil.example")) = str "//evil.example" := by
  have parsed : urlOnPage hosts page (str "/.//evil.example") =
      some ⟨page, [[], str "evil.example"], none, none⟩ := by
    have read : preprocess (str "/.//evil.example") = str "/.//evil.example" := by decide
    have path : pathState [] (segmentsOf (str "/.//evil.example")) = [[], str "evil.example"] := by
      decide
    show some (urlFrom page (preprocess (str "/.//evil.example"))) = _
    rw [read]
    unfold urlFrom
    rw [path]
    rfl
  have slash : startsWith (str "/.//evil.example") (str "/") = true := by decide
  unfold safeNext honoured
  simp only [slash, if_true, parsed]
  rw [Option.filter_some_pos (by simp)]
  rfl

end Vidit.Navigation
