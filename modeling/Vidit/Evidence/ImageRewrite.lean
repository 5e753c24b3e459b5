import Mathlib.Algebra.Order.BigOperators.Group.List
import Mathlib.Algebra.Order.Group.Nat
import Vidit.Evidence.ProofPattern

/-!
Contract: `rewrite_image_srcs` on a canonical document.

Owns:
- `_IMG_SRC.search` on the text of a tag, and the images `repeat` and the last sanitiser run
  leave of it;
- `StartTag.HidesSrc`, the tags whose search stops inside another attribute;
- the srcs of the rewritten document, and when they are those of `rewriteImageSrcs`.

The marker of a call is random, so no src of a document carries it: a copy goes straight to its
mapped URL. On a canonical document `_CANONICAL_IMG` matches each `img` tag whole.

Does not own: the sanitiser, which leaves everything else of a canonical document as it is.
-/

namespace Vidit.Evidence

open Vidit.Python

/-! ### Attribute values -/

/-- How an attribute value is written: `html.unescape`, and the escapes of the serializer. -/
structure CharRefs where
  decode : Str → Str
  encode : Str → Str
  decode_encode : ∀ value, decode (encode value) = value
  /-- Without an ampersand nothing is decoded. -/
  decode_plain : ∀ written, chr '&' ∉ written → decode written = written
  /-- Quotes and angle brackets are escaped. -/
  encode_quoted : ∀ value, 0x22 ∉ encode value ∧ chr '<' ∉ encode value ∧ chr '>' ∉ encode value

/-! ### The search -/

/-- `_IMG_SRC.search`, `\ssrc="([^"]*)"`: what stands before the group, the group, and what
stands behind it. -/
def searchImgSrc : Str → Option (Str × Str × Str)
  | [] => none
  | point :: rest =>
    if isSpace point ∧ startsWith rest (str "src=\"") ∧ 0x22 ∈ rest.drop 5 then
      some (point :: rest.take 5, (rest.drop 5).takeWhile (· ≠ 0x22),
        (rest.drop 5).dropWhile (· ≠ 0x22))
    else (searchImgSrc rest).map fun found => (point :: found.1, found.2)

/-- The tag with another src. -/
def StartTag.setSrc (tag : StartTag) (written : Str) : StartTag :=
  { tag with attributes := tag.attributes.map fun entry =>
      if entry.1 = str "src" then (entry.1, written) else entry }

section Rewriting

variable (refs : CharRefs) (srcMap : Str → Option (List Str))

/-- What the last sanitiser run leaves of a tag: a mapped src becomes its first URL. -/
def StartTag.mapSrc (tag : StartTag) : StartTag :=
  match tag.src?.bind fun written => srcMap (refs.decode written) with
  | some (url :: _) => tag.setSrc (refs.encode url)
  | _ => tag

/-- `repeat`, and the last sanitiser run on what it leaves. -/
def StartTag.repeated (tag : StartTag) : List StartTag :=
  match (searchImgSrc tag.render).bind fun found => srcMap (refs.decode found.2.1) with
  | some (url :: urls) => (url :: urls).map fun url => tag.setSrc (refs.encode url)
  | _ => [tag.mapSrc refs srcMap]

def Piece.rewrite : Piece → Document
  | .startTag tag =>
    if tag.name = str "img" then (tag.repeated refs srcMap).map .startTag else [.startTag tag]
  | piece => [piece]

/-- `rewrite_image_srcs`. -/
def rewriteDocument (document : Document) : Document :=
  document.flatMap (Piece.rewrite refs srcMap)

end Rewriting

/-! ### What the search finds -/

/-- A value a search stops in: the quote that ends it opens the group. -/
def EndsInSrc (value : Str) : Prop :=
  ∃ before point, isSpace point = true ∧ value = before ++ point :: str "src="

/-- An attribute written before the src ends the way a src begins. -/
def StartTag.HidesSrc (tag : StartTag) : Prop :=
  ∃ entry ∈ tag.attributes.takeWhile fun entry => entry.1 ≠ str "src", EndsInSrc entry.2

section Search

variable {text rest : Str}

theorem searchImgSrc_append {word : Str} (visible : ∀ point ∈ word, isSpace point = false)
    (rest : Str) : searchImgSrc (word ++ rest) =
      (searchImgSrc rest).map fun found => (word ++ found.1, found.2) := by
  induction word with
  | nil => simp
  | cons point later inductionHypothesis =>
      have here := visible point List.mem_cons_self
      rw [List.cons_append, searchImgSrc, if_neg (by simp [here]), inductionHypothesis
        fun other member => visible other (List.mem_cons_of_mem _ member), Option.map_map]
      rfl

/-- A quote inside a text cuts a quoted word off it. -/
theorem startsWith_quoted {value : Str} (unquoted : 0x22 ∉ value)
    (starts : startsWith (value ++ 0x22 :: rest) (str "src=\"") = true) : value = str "src=" := by
  unfold startsWith at starts
  rw [List.isPrefixOf_iff_prefix] at starts
  obtain ⟨after, same⟩ := starts
  have cut : str "src=" ++ 0x22 :: after = value ++ 0x22 :: rest := same
  have inQuotes : ∀ point ∈ value, decide (point ≠ 0x22) = true := by
    intro point member
    exact decide_eq_true fun quote => unquoted (quote ▸ member)
  exact (append_cons_inj (fun point => point ≠ 0x22) (by decide) inQuotes (by decide) (by decide)
    cut).1.symm

/-- The search passes a value that does not end the way a src begins. -/
theorem searchImgSrc_value {value : Str} (unquoted : 0x22 ∉ value) (plain : ¬ EndsInSrc value)
    (rest : Str) : searchImgSrc (value ++ 0x22 :: rest) =
      (searchImgSrc rest).map fun found => (value ++ 0x22 :: found.1, found.2) := by
  induction value with
  | nil =>
      rw [List.nil_append, searchImgSrc, if_neg (by simp [isSpace, inRanges, spaceRanges])]
      simp
  | cons point later inductionHypothesis =>
      rw [List.mem_cons, not_or] at unquoted
      have passes : ¬ (isSpace point ∧ startsWith (later ++ 0x22 :: rest) (str "src=\"") ∧
          0x22 ∈ (later ++ 0x22 :: rest).drop 5) := by
        rintro ⟨space, starts, _⟩
        exact plain ⟨[], point, space, by rw [startsWith_quoted unquoted.2 starts]; rfl⟩
      have inner : ¬ EndsInSrc later := by
        rintro ⟨before, space, spaced, rfl⟩
        exact plain ⟨point :: before, space, spaced, rfl⟩
      rw [List.cons_append, searchImgSrc, if_neg passes, inductionHypothesis unquoted.2 inner,
        Option.map_map]
      rfl

/-- In a value that does, the group is what follows its quote, up to the next one. -/
theorem searchImgSrc_hidden {value : Str} (unquoted : 0x22 ∉ value) (hides : EndsInSrc value)
    (closed : 0x22 ∈ rest) : ∃ found, searchImgSrc (value ++ 0x22 :: rest) = some found ∧
      found.2.1 = rest.takeWhile (· ≠ 0x22) := by
  induction value with
  | nil =>
      obtain ⟨before, point, _, same⟩ := hides
      exact absurd (congrArg List.length same) (by simp)
  | cons point later inductionHypothesis =>
      rw [List.mem_cons, not_or] at unquoted
      by_cases here : isSpace point ∧ startsWith (later ++ 0x22 :: rest) (str "src=\"") ∧
          0x22 ∈ (later ++ 0x22 :: rest).drop 5
      · have same := startsWith_quoted unquoted.2 here.2.1
        rw [List.cons_append, searchImgSrc, if_pos here]
        refine ⟨_, rfl, ?_⟩
        rw [same]
        rfl
      · have inner : EndsInSrc later := by
          obtain ⟨before, space, spaced, same⟩ := hides
          cases before with
          | nil =>
              obtain ⟨rfl, rfl⟩ := List.cons.inj same
              exact absurd ⟨spaced, rfl, closed⟩ here
          | cons first before => exact ⟨before, space, spaced, (List.cons.inj same).2⟩
        obtain ⟨found, searched, group⟩ := inductionHypothesis unquoted.2 inner
        rw [List.cons_append, searchImgSrc, if_neg here, searched]
        exact ⟨_, rfl, group⟩

theorem isNamePoint_visible {point : Nat} (named : isNamePoint point = true) :
    isSpace point = false ∧ point ≠ 0x22 ∧ point ≠ chr '&' := by
  unfold isNamePoint at named
  rw [Bool.or_eq_true, isAsciiLower_iff, decide_eq_true_iff] at named
  have dash : chr '-' = 0x2D := rfl
  have ampersand : chr '&' = 0x26 := rfl
  rw [dash] at named
  refine ⟨?_, by omega, by omega⟩
  simp only [isSpace, inRanges, spaceRanges, List.any_cons, List.any_nil, Bool.or_false,
    Bool.or_eq_false_iff, Bool.and_eq_false_iff, decide_eq_false_iff_not]
  omega

/-- The search passes the name of an attribute that is no src. -/
theorem searchImgSrc_name {entry : Str × Str} (named : ∀ point ∈ entry.1, isNamePoint point = true)
    (other : entry.1 ≠ str "src") (rest : Str) :
    searchImgSrc (renderAttribute entry ++ rest) =
      (searchImgSrc (entry.2 ++ 0x22 :: rest)).map fun found =>
        (chr ' ' :: (entry.1 ++ [chr '=', 0x22]) ++ found.1, found.2) := by
  have passes : ¬ startsWith (entry.1 ++ chr '=' :: 0x22 :: (entry.2 ++ 0x22 :: rest))
      (str "src=\"") = true := by
    intro starts
    unfold startsWith at starts
    rw [List.isPrefixOf_iff_prefix] at starts
    obtain ⟨after, same⟩ := starts
    have cut : str "src" ++ chr '=' :: 0x22 :: after =
        entry.1 ++ chr '=' :: 0x22 :: (entry.2 ++ 0x22 :: rest) := same
    exact other (append_cons_inj isNamePoint (by decide) named (by decide) (by decide) cut).1.symm
  have visible : ∀ point ∈ entry.1 ++ [chr '=', 0x22], isSpace point = false := by
    intro point member
    cases List.mem_append.mp member with
    | inl inName => exact (isNamePoint_visible (named point inName)).1
    | inr sign =>
        rw [List.mem_cons, List.mem_singleton] at sign
        cases sign with
        | inl equals => rw [equals]; decide
        | inr quote => rw [quote]; decide
  have regroup : entry.1 ++ chr '=' :: 0x22 :: (entry.2 ++ 0x22 :: rest) =
      entry.1 ++ [chr '=', 0x22] ++ (entry.2 ++ 0x22 :: rest) := by
    simp
  rw [renderAttribute_append, searchImgSrc, if_neg fun here => passes here.2.1, regroup,
    searchImgSrc_append visible, Option.map_map]
  rfl

/-- The search passes an attribute that is no src and does not end the way one begins. -/
theorem searchImgSrc_attribute {entry : Str × Str}
    (named : ∀ point ∈ entry.1, isNamePoint point = true) (unquoted : 0x22 ∉ entry.2)
    (other : entry.1 ≠ str "src") (plain : ¬ EndsInSrc entry.2) (rest : Str) :
    searchImgSrc (renderAttribute entry ++ rest) =
      (searchImgSrc rest).map fun found => (renderAttribute entry ++ found.1, found.2) := by
  rw [searchImgSrc_name named other, searchImgSrc_value unquoted plain, Option.map_map]
  apply Option.map_congr
  intro found _
  have whole := renderAttribute_append entry found.1
  simp only [Function.comp_apply, whole]
  simp

/-- The search stops at a src. -/
theorem searchImgSrc_src {value : Str} (unquoted : 0x22 ∉ value) (rest : Str) :
    searchImgSrc (renderAttribute (str "src", value) ++ rest) =
      some (str " src=\"", value, 0x22 :: rest) := by
  have text : renderAttribute (str "src", value) ++ rest =
      chr ' ' :: (str "src=\"" ++ (value ++ 0x22 :: rest)) := by
    simp [renderAttribute, str, chr]
  have drops : (str "src=\"" ++ (value ++ 0x22 :: rest)).drop 5 = value ++ 0x22 :: rest := rfl
  have inQuotes : ∀ point ∈ value, decide (point ≠ 0x22) = true := by
    intro point member
    exact decide_eq_true fun quote => unquoted (quote ▸ member)
  rw [text, searchImgSrc, if_pos ⟨by decide, rfl, by rw [drops]; simp⟩, drops,
    List.takeWhile_append_of_pos inQuotes, List.dropWhile_append_of_pos inQuotes]
  simp [str, chr]

/-- What the search needs of a tag's attributes. -/
structure Written (entries : List (Str × Str)) : Prop where
  named : ∀ entry ∈ entries, ∀ point ∈ entry.1, isNamePoint point = true
  unquoted : ∀ entry ∈ entries, 0x22 ∉ entry.2

theorem Written.tail {entry : Str × Str} {entries : List (Str × Str)}
    (canonical : Written (entry :: entries)) : Written entries where
  named other member := canonical.named other (List.mem_cons_of_mem _ member)
  unquoted other member := canonical.unquoted other (List.mem_cons_of_mem _ member)

/-- Where no value hides it, the search finds the src. -/
theorem searchImgSrc_attributes {before after : List (Str × Str)} {value : Str}
    (canonical : Written (before ++ (str "src", value) :: after))
    (others : ∀ entry ∈ before, entry.1 ≠ str "src" ∧ ¬ EndsInSrc entry.2) (rest : Str) :
    searchImgSrc ((before ++ (str "src", value) :: after).flatMap renderAttribute ++ rest) =
      some (before.flatMap renderAttribute ++ str " src=\"", value,
        0x22 :: (after.flatMap renderAttribute ++ rest)) := by
  induction before with
  | nil =>
      rw [List.nil_append, List.flatMap_cons, List.append_assoc,
        searchImgSrc_src (canonical.unquoted (str "src", value) (by simp))]
      rfl
  | cons entry before inductionHypothesis =>
      have here := others entry List.mem_cons_self
      have later := inductionHypothesis canonical.tail fun other member =>
        others other (List.mem_cons_of_mem _ member)
      rw [List.cons_append, List.flatMap_cons, List.append_assoc,
        searchImgSrc_attribute (canonical.named entry (by simp)) (canonical.unquoted entry (by simp))
          here.1 here.2, later]
      simp

/-- Where a value hides it, the group is a space, a name and an equals sign. -/
theorem searchImgSrc_hides {entries : List (Str × Str)} (canonical : Written entries)
    (shown : str "src" ∈ entries.map Prod.fst)
    (hides : ∃ entry ∈ entries.takeWhile fun entry => entry.1 ≠ str "src", EndsInSrc entry.2)
    (rest : Str) :
    ∃ found, searchImgSrc (entries.flatMap renderAttribute ++ rest) = some found ∧
      found.2.1.head? = some (chr ' ') ∧ chr '&' ∉ found.2.1 := by
  induction entries with
  | nil => cases shown
  | cons entry entries inductionHypothesis =>
      obtain ⟨hidden, member, ends⟩ := hides
      have other : entry.1 ≠ str "src" := by
        intro same
        rw [List.takeWhile_cons_of_neg (by simp [same])] at member
        cases member
      have later : str "src" ∈ entries.map Prod.fst :=
        (List.mem_cons.mp shown).resolve_left (Ne.symm other)
      by_cases here : EndsInSrc entry.2
      · -- the next attribute is what the group takes
        cases entries with
        | nil => cases later
        | cons next entries =>
            have nextNamed := canonical.named next (by simp)
            have inGroup : ∀ point ∈ chr ' ' :: (next.1 ++ [chr '=']),
                decide (point ≠ 0x22) = true := by
              intro point member
              simp only [List.mem_cons, List.mem_append, List.not_mem_nil, or_false] at member
              obtain rfl | inName | rfl := member
              · decide
              · exact decide_eq_true (isNamePoint_visible (nextNamed point inName)).2.1
              · decide
            have text : (next :: entries).flatMap renderAttribute ++ rest =
                chr ' ' :: (next.1 ++ [chr '=']) ++ 0x22 ::
                  (next.2 ++ 0x22 :: (entries.flatMap renderAttribute ++ rest)) := by
              rw [List.flatMap_cons, List.append_assoc, renderAttribute_append]
              simp
            have closed : 0x22 ∈ (next :: entries).flatMap renderAttribute ++ rest := by
              rw [text]
              exact List.mem_append_right _ List.mem_cons_self
            obtain ⟨found, searched, group⟩ :=
              searchImgSrc_hidden (canonical.unquoted entry (by simp)) here closed
            rw [List.flatMap_cons, List.append_assoc,
              searchImgSrc_name (canonical.named entry (by simp)) other, searched]
            refine ⟨_, rfl, ?_⟩
            show found.2.1.head? = _ ∧ chr '&' ∉ found.2.1
            rw [group, text, List.takeWhile_append_of_pos inGroup, List.takeWhile_cons_of_neg
              (by simp), List.append_nil]
            refine ⟨rfl, ?_⟩
            simp only [List.mem_cons, List.mem_append, List.not_mem_nil, or_false]
            rintro (space | inName | equals)
            · exact absurd space (by decide)
            · exact (isNamePoint_visible (nextNamed _ inName)).2.2 rfl
            · exact absurd equals (by decide)
      · have inTail : ∃ entry ∈ entries.takeWhile fun entry => entry.1 ≠ str "src",
            EndsInSrc entry.2 := by
          rw [List.takeWhile_cons_of_pos (by simp [other])] at member
          cases List.mem_cons.mp member with
          | inl same => exact absurd (same ▸ ends) here
          | inr inTail => exact ⟨hidden, inTail, ends⟩
        obtain ⟨found, searched, group⟩ := inductionHypothesis canonical.tail later inTail
        rw [List.flatMap_cons, List.append_assoc,
          searchImgSrc_attribute (canonical.named entry (by simp))
            (canonical.unquoted entry (by simp)) other here, searched]
        exact ⟨_, rfl, group⟩

end Search

/-! ### One tag -/

section Tags

variable {tag : StartTag} {written : Str}

theorem StartTag.Canonical.isWritten (canonical : tag.Canonical) : Written tag.attributes where
  named entry member := (canonical.named entry member).2
  unquoted entry member := (canonical.quoted entry member).1

/-- Where the src of an image stands among its attributes. -/
theorem split_of_src? (shown : tag.src? = some written) :
    tag.name = str "img" ∧ ∃ before after,
      tag.attributes = before ++ (str "src", written) :: after ∧
        ∀ entry ∈ before, entry.1 ≠ str "src" := by
  unfold StartTag.src? StartTag.value at shown
  split at shown
  · next isImage =>
    obtain ⟨entry, found, rfl⟩ := Option.map_eq_some_iff.mp shown
    obtain ⟨isSrc, before, after, cut, others⟩ := List.find?_eq_some_iff_append.mp found
    rw [decide_eq_true_iff] at isSrc
    refine ⟨isImage, before, after, ?_, ?_⟩
    · rw [cut, ← isSrc]
    · intro other member
      simpa using others other member
  · cases shown

/-- The search reads past the name of a tag. -/
theorem searchImgSrc_render (canonical : tag.Canonical) :
    searchImgSrc tag.render =
      (searchImgSrc (tag.attributes.flatMap renderAttribute ++ str ">")).map fun found =>
        (chr '<' :: tag.name ++ found.1, found.2) := by
  have visible : ∀ point ∈ chr '<' :: tag.name, isSpace point = false := by
    intro point member
    cases List.mem_cons.mp member with
    | inl here => rw [here]; decide
    | inr inName =>
        have plain := canonical.name.plain point inName
        unfold isTagPoint at plain
        rw [Bool.or_eq_true, isAsciiLower_iff, isAsciiDigit_iff] at plain
        simp only [isSpace, inRanges, spaceRanges, List.any_cons, List.any_nil, Bool.or_false,
          Bool.or_eq_false_iff, Bool.and_eq_false_iff, decide_eq_false_iff_not]
        omega
  rw [← searchImgSrc_append visible]
  simp [StartTag.render]

/-- An image whose src is not hidden: the search finds it, and a copy is the tag with the src
in its place. -/
theorem searchImgSrc_found (canonical : tag.Canonical) (shown : tag.src? = some written)
    (plain : ¬ tag.HidesSrc) : ∃ before after, searchImgSrc tag.render =
        some (before, written, after) ∧ tag.render = before ++ written ++ after ∧
      ∀ other, (tag.setSrc other).render = before ++ other ++ after := by
  obtain ⟨_, before, after, cut, others⟩ := split_of_src? shown
  have kept : tag.attributes.takeWhile (fun entry => entry.1 ≠ str "src") = before := by
    rw [cut, List.takeWhile_append_of_pos fun entry member => by simpa using others entry member,
      List.takeWhile_cons_of_neg (by simp), List.append_nil]
  have clear : ∀ entry ∈ before, entry.1 ≠ str "src" ∧ ¬ EndsInSrc entry.2 := by
    intro entry member
    refine ⟨others entry member, fun ends => plain ⟨entry, ?_, ends⟩⟩
    rw [kept]
    exact member
  have attributes := canonical.isWritten
  rw [cut] at attributes
  have found := searchImgSrc_attributes attributes clear (str ">")
  have unchanged : ∀ other, (tag.setSrc other).attributes =
      before ++ (str "src", other) :: after := by
    intro other
    have distinct := canonical.distinct
    rw [cut, List.map_append, List.map_cons] at distinct
    have behind : ∀ entry ∈ after, entry.1 ≠ str "src" := by
      intro entry member same
      have inAfter : str "src" ∈ after.map Prod.fst := List.mem_map.mpr ⟨entry, member, same⟩
      exact (List.nodup_cons.mp (List.nodup_append.mp distinct).2.1).1 inAfter
    unfold StartTag.setSrc
    rw [cut, List.map_append, List.map_cons, if_pos rfl]
    have keep : ∀ entries : List (Str × Str), (∀ entry ∈ entries, entry.1 ≠ str "src") →
        (entries.map fun entry => if entry.1 = str "src" then (entry.1, other) else entry) =
          entries := by
      intro entries others
      rw [List.map_congr_left fun entry member => if_neg (others entry member), List.map_id']
    rw [keep before others, keep after behind]
  refine ⟨chr '<' :: tag.name ++ (before.flatMap renderAttribute ++ str " src=\""),
    0x22 :: (after.flatMap renderAttribute ++ str ">"), ?_, ?_, ?_⟩
  · rw [searchImgSrc_render canonical, cut, found]
    rfl
  · unfold StartTag.render
    rw [cut]
    simp [renderAttribute, str, chr]
  · intro other
    unfold StartTag.render
    rw [unchanged]
    simp [StartTag.setSrc, renderAttribute, str, chr]

/-- An image whose src is hidden: what the search finds is no placeholder. -/
theorem searchImgSrc_astray (refs : CharRefs) (canonical : tag.Canonical)
    (shown : tag.src? = some written) (hides : tag.HidesSrc) :
    ∃ found, searchImgSrc tag.render = some found ∧
      isPlaceholder (refs.decode found.2.1) = false := by
  obtain ⟨_, before, after, cut, _⟩ := split_of_src? shown
  have listed : str "src" ∈ tag.attributes.map Prod.fst := by
    rw [cut]
    simp
  obtain ⟨found, searched, space, plain⟩ :=
    searchImgSrc_hides canonical.isWritten listed hides (str ">")
  rw [searchImgSrc_render canonical, searched]
  refine ⟨_, rfl, ?_⟩
  show isPlaceholder (refs.decode found.2.1) = false
  rw [refs.decode_plain _ plain]
  cases group : found.2.1 with
  | nil => rfl
  | cons first rest =>
      rw [group] at space
      cases space
      rfl

end Tags

/-! ### The images of the rewritten document -/

/-- What an image shows when a src is mapped to all of its URLs. -/
def mappedSrcs (srcMap : Str → Option (List Str)) (src : Str) : List Str :=
  match srcMap src with
  | some (url :: urls) => url :: urls
  | _ => [src]

/-- The srcs of a node that is rewritten. -/
theorem imageSrcs_rewriteImageSrcs (body : Body) (srcMap : Str → Option (List Str)) :
    imageSrcs (rewriteImageSrcs body srcMap) = (imageSrcs body).flatMap (mappedSrcs srcMap) := by
  induction body with
  | nil => rfl
  | cons node rest inductionHypothesis =>
      have later : imageSrcs (rewriteImageSrcs (node :: rest) srcMap) =
          imageSrcs (node.rewrite srcMap) ++ imageSrcs (rewriteImageSrcs rest srcMap) := by
        unfold imageSrcs rewriteImageSrcs
        rw [List.flatMap_cons, List.filterMap_append]
      rw [later, inductionHypothesis]
      cases node with
      | markup html => rfl
      | image src alt =>
          have here : imageSrcs (Node.rewrite srcMap (.image src alt)) = mappedSrcs srcMap src := by
            cases mapped : srcMap src with
            | none => simp [Node.rewrite, mappedSrcs, mapped, imageSrcs, Node.src?]
            | some urls =>
                cases urls with
                | nil => simp [Node.rewrite, mappedSrcs, mapped, imageSrcs, Node.src?]
                | cons url urls =>
                    simp [Node.rewrite, mappedSrcs, mapped, imageSrcs, Node.src?,
                      List.filterMap_map, Function.comp_def]
          rw [here]
          rfl

section Documents

variable (refs : CharRefs) {srcMap : Str → Option (List Str)} {tag : StartTag} {written : Str}

/-- The srcs of the tags, decoded. -/
def srcsOf (tags : List StartTag) : List Str :=
  (tags.filterMap StartTag.src?).map refs.decode

theorem src?_setSrc (shown : tag.src? = some written) (other : Str) :
    (tag.setSrc other).src? = some other := by
  obtain ⟨isImage, before, after, cut, others⟩ := split_of_src? shown
  unfold StartTag.src? StartTag.value StartTag.setSrc
  rw [if_pos isImage, List.find?_map]
  have named : ((fun entry : Str × Str => decide (entry.1 = str "src")) ∘ fun entry : Str × Str =>
      if entry.1 = str "src" then (entry.1, other) else entry) =
      fun entry : Str × Str => decide (entry.1 = str "src") := by
    funext entry
    by_cases isSrc : entry.1 = str "src"
    · simp [isSrc]
    · simp [isSrc]
  rw [named]
  cases found : tag.attributes.find? fun entry => entry.1 = str "src" with
  | none =>
      unfold StartTag.src? StartTag.value at shown
      rw [if_pos isImage, found] at shown
      cases shown
  | some entry =>
      have isSrc : entry.1 = str "src" := by
        simpa using List.find?_some found
      simp [isSrc]

/-- The last sanitiser run shows the first of the URLs. -/
theorem srcsOf_mapSrc (shown : tag.src? = some written) :
    srcsOf refs [tag.mapSrc refs srcMap] = (mappedSrcs srcMap (refs.decode written)).take 1 := by
  unfold StartTag.mapSrc mappedSrcs srcsOf
  rw [shown, Option.bind_some]
  cases srcMap (refs.decode written) with
  | none => simp [shown]
  | some urls =>
      cases urls with
      | nil => simp [shown]
      | cons url urls => simp [src?_setSrc shown, refs.decode_encode]

/-- An image whose src is not hidden shows all of its URLs. -/
theorem srcsOf_repeated (canonical : tag.Canonical) (shown : tag.src? = some written)
    (plain : ¬ tag.HidesSrc) :
    srcsOf refs (tag.repeated refs srcMap) = mappedSrcs srcMap (refs.decode written) := by
  obtain ⟨before, after, searched, _⟩ := searchImgSrc_found canonical shown plain
  have single : srcsOf refs [tag.mapSrc refs srcMap] = _ := srcsOf_mapSrc refs shown
  unfold StartTag.repeated
  rw [searched, Option.bind_some]
  simp only
  unfold mappedSrcs at single ⊢
  cases mapped : srcMap (refs.decode written) with
  | none =>
      rw [mapped] at single
      exact single
  | some urls =>
      cases urls with
      | nil =>
          rw [mapped] at single
          exact single
      | cons url urls =>
          have decoded : refs.decode ∘ refs.encode = id := funext refs.decode_encode
          simp only [srcsOf, List.filterMap_map, Function.comp_def, src?_setSrc shown]
          simp [refs.decode_encode, decoded]

/-- An image whose src is hidden shows the first one alone. -/
theorem srcsOf_repeated_hidden (canonical : tag.Canonical) (shown : tag.src? = some written)
    (hides : tag.HidesSrc) (placeholders : ∀ src, srcMap src ≠ none → isPlaceholder src = true) :
    srcsOf refs (tag.repeated refs srcMap) =
      (mappedSrcs srcMap (refs.decode written)).take 1 := by
  obtain ⟨found, searched, real⟩ := searchImgSrc_astray refs canonical shown hides
  have unmapped : srcMap (refs.decode found.2.1) = none := by
    by_contra mapped
    rw [placeholders _ mapped] at real
    cases real
  unfold StartTag.repeated
  rw [searched, Option.bind_some, unmapped]
  exact srcsOf_mapSrc refs shown

/-- Lists cut short one by one join to the whole only where none is cut. -/
theorem flatMap_eq_iff_of_cut {α β : Type*} {short long : α → List β} {items : List α}
    (cut : ∀ item ∈ items, short item <+: long item) :
    items.flatMap short = items.flatMap long ↔ ∀ item ∈ items, short item = long item := by
  induction items with
  | nil => simp
  | cons item items inductionHypothesis =>
      have later : ∀ other ∈ items, short other <+: long other :=
        fun other member => cut other (List.mem_cons_of_mem _ member)
      have shorter : (items.flatMap short).length ≤ (items.flatMap long).length := by
        rw [List.length_flatMap, List.length_flatMap]
        exact List.sum_le_sum fun other member => (later other member).length_le
      rw [List.flatMap_cons, List.flatMap_cons, List.forall_mem_cons]
      constructor
      · intro same
        have here := (cut item List.mem_cons_self).length_le
        have lengths := congrArg List.length same
        rw [List.length_append, List.length_append] at lengths
        have whole : short item = long item :=
          (cut item List.mem_cons_self).eq_of_length (by omega)
        rw [whole] at same
        exact ⟨whole, (inductionHypothesis later).mp (List.append_cancel_left same)⟩
      · rintro ⟨here, rest⟩
        rw [here, (inductionHypothesis later).mpr rest]

/-- The srcs a piece shows once it is rewritten. -/
def Piece.rewrittenSrcs (srcMap : Str → Option (List Str)) (piece : Piece) : List Str :=
  ((piece.rewrite refs srcMap).filterMap Piece.src?).map refs.decode

theorem imageSrcs_rewriteDocument (srcMap : Str → Option (List Str)) (document : Document) :
    imageSrcs ((rewriteDocument refs srcMap document).body refs.decode) =
      document.flatMap (Piece.rewrittenSrcs refs srcMap) := by
  rw [imageSrcs_body]
  unfold rewriteDocument Piece.rewrittenSrcs
  rw [List.filterMap_flatMap, List.map_flatMap]

/-- The srcs a piece is mapped to. -/
def Piece.mappedSrcs (srcMap : Str → Option (List Str)) (piece : Piece) : List Str :=
  (piece.src?.map refs.decode).toList.flatMap (Evidence.mappedSrcs srcMap)

theorem imageSrcs_mapped (srcMap : Str → Option (List Str)) (document : Document) :
    (imageSrcs (document.body refs.decode)).flatMap (mappedSrcs srcMap) =
      document.flatMap (Piece.mappedSrcs refs srcMap) := by
  rw [imageSrcs_body, List.map_filterMap, List.filterMap_eq_flatMap_toList, List.flatMap_assoc]
  rfl

/-- A piece that shows no image is left as it is. -/
theorem rewrittenSrcs_of_none {piece : Piece}
    (sourced : ∀ tag, piece = .startTag tag → tag.name = str "img" → tag.src? ≠ none)
    (hidden : piece.src? = none) : piece.rewrittenSrcs refs srcMap = [] := by
  have single : piece.rewrite refs srcMap = [piece] := by
    cases piece with
    | text written => rfl
    | endTag name => rfl
    | startTag tag =>
        have other : tag.name ≠ str "img" := fun isImage => sourced tag rfl isImage hidden
        show (if tag.name = str "img" then _ else _) = _
        rw [if_neg other]
  unfold Piece.rewrittenSrcs
  rw [single, List.filterMap_cons_none hidden]
  rfl

theorem rewrittenSrcs_of_tag (shown : tag.src? = some written) :
    (Piece.startTag tag).rewrittenSrcs refs srcMap = srcsOf refs (tag.repeated refs srcMap) := by
  have whole : (Piece.startTag tag).rewrite refs srcMap =
      (tag.repeated refs srcMap).map .startTag := by
    show (if tag.name = str "img" then _ else _) = _
    rw [if_pos (split_of_src? shown).1]
  unfold Piece.rewrittenSrcs srcsOf
  rw [whole, List.filterMap_map]
  rfl

end Documents

/-- A document the sanitiser leaves: `_BARE_IMG` takes out the images without a src. -/
structure Document.Sanitised (document : Document) : Prop where
  canonical : document.Canonical
  sourced : ∀ tag, Piece.startTag tag ∈ document → tag.name = str "img" → tag.src? ≠ none

section Rewritten

variable {refs : CharRefs} {srcMap : Str → Option (List Str)} {document : Document}

variable (refs srcMap) in
/-- A piece of a sanitised document: it shows no image, or it is an image with a src. -/
theorem image_cases (sanitised : document.Sanitised) {piece : Piece} (member : piece ∈ document) :
    piece.src? = none ∧ piece.rewrittenSrcs refs srcMap = [] ∧ piece.mappedSrcs refs srcMap = [] ∨
      ∃ tag written, piece = .startTag tag ∧ tag.Canonical ∧ tag.src? = some written ∧
        piece.rewrittenSrcs refs srcMap = srcsOf refs (tag.repeated refs srcMap) ∧
        piece.mappedSrcs refs srcMap = mappedSrcs srcMap (refs.decode written) := by
  cases shown : piece.src? with
  | none =>
      refine .inl ⟨rfl, rewrittenSrcs_of_none refs ?_ shown, ?_⟩
      · rintro tag rfl
        exact sanitised.sourced tag member
      · unfold Piece.mappedSrcs
        rw [shown]
        rfl
  | some written =>
      cases piece with
      | text other => cases shown
      | endTag name => cases shown
      | startTag tag =>
          have read : tag.src? = some written := shown
          refine .inr ⟨tag, written, rfl, sanitised.canonical _ member, read,
            rewrittenSrcs_of_tag refs read, ?_⟩
          unfold Piece.mappedSrcs
          rw [shown]
          simp

variable (placeholders : ∀ src, srcMap src ≠ none → isPlaceholder src = true)
include placeholders

/-- A hidden src is cut to its first URL, and no other is cut. -/
theorem rewrittenSrcs_cut (sanitised : document.Sanitised) {piece : Piece}
    (member : piece ∈ document) :
    piece.rewrittenSrcs refs srcMap <+: piece.mappedSrcs refs srcMap := by
  obtain ⟨_, none, alsoNone⟩ | ⟨tag, written, _, canonical, shown, rewritten, mapped⟩ :=
    image_cases refs srcMap sanitised member
  · rw [none, alsoNone]
  · rw [rewritten, mapped]
    by_cases hides : tag.HidesSrc
    · rw [srcsOf_repeated_hidden refs canonical shown hides placeholders]
      exact List.take_prefix _ _
    · rw [srcsOf_repeated refs canonical shown hides]

theorem rewrittenSrcs_eq_iff (sanitised : document.Sanitised) {piece : Piece}
    (member : piece ∈ document) :
    piece.rewrittenSrcs refs srcMap = piece.mappedSrcs refs srcMap ↔
      ∀ tag, piece = .startTag tag → tag.HidesSrc → ∀ written, tag.src? = some written →
        (mappedSrcs srcMap (refs.decode written)).length ≤ 1 := by
  obtain ⟨hidden, none, alsoNone⟩ | ⟨tag, written, rfl, canonical, shown, rewritten, mapped⟩ :=
    image_cases refs srcMap sanitised member
  · rw [none, alsoNone]
    refine ⟨?_, fun _ => rfl⟩
    rintro _ tag rfl _ written shown
    have read : Piece.src? (.startTag tag) = some written := shown
    rw [hidden] at read
    cases read
  · rw [rewritten, mapped]
    by_cases hides : tag.HidesSrc
    · rw [srcsOf_repeated_hidden refs canonical shown hides placeholders, List.take_eq_self_iff]
      constructor
      · intro short other same _ value read
        cases same
        rw [shown] at read
        cases read
        exact short
      · intro short
        exact short tag rfl hides written shown
    · rw [srcsOf_repeated refs canonical shown hides]
      refine ⟨?_, fun _ => rfl⟩
      rintro _ other same astray
      cases same
      exact absurd astray hides

/-- A rewritten document shows every URL of every mapped src exactly when no image that is mapped
to several of them hides its src. -/
theorem imageSrcs_rewriteDocument_iff (sanitised : document.Sanitised) :
    imageSrcs ((rewriteDocument refs srcMap document).body refs.decode) =
        imageSrcs (rewriteImageSrcs (document.body refs.decode) srcMap) ↔
      ∀ tag, Piece.startTag tag ∈ document → tag.HidesSrc → ∀ written, tag.src? = some written →
        (mappedSrcs srcMap (refs.decode written)).length ≤ 1 := by
  rw [imageSrcs_rewriteDocument, imageSrcs_rewriteImageSrcs, imageSrcs_mapped,
    flatMap_eq_iff_of_cut fun piece member => rewrittenSrcs_cut placeholders sanitised member]
  constructor
  · intro whole tag member
    exact (rewrittenSrcs_eq_iff placeholders sanitised member).mp (whole _ member) tag rfl
  · intro short piece member
    apply (rewrittenSrcs_eq_iff placeholders sanitised member).mpr
    rintro tag rfl
    exact short tag member

/-- A src of the rewritten document is one it is mapped to. -/
theorem mem_imageSrcs_rewriteDocument (sanitised : document.Sanitised) {src : Str}
    (shown : src ∈ imageSrcs ((rewriteDocument refs srcMap document).body refs.decode)) :
    ∃ placed ∈ imageSrcs (document.body refs.decode), src ∈ mappedSrcs srcMap placed := by
  rw [imageSrcs_rewriteDocument] at shown
  obtain ⟨piece, member, inPiece⟩ := List.mem_flatMap.mp shown
  have inMapped := (rewrittenSrcs_cut placeholders sanitised member).subset inPiece
  have inWhole : src ∈ document.flatMap (Piece.mappedSrcs refs srcMap) :=
    List.mem_flatMap.mpr ⟨piece, member, inMapped⟩
  rw [← imageSrcs_mapped] at inWhole
  exact List.mem_flatMap.mp inWhole

end Rewritten

end Vidit.Evidence
