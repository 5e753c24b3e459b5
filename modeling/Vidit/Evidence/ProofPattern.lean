import Mathlib.Computability.Language
import Vidit.Evidence.Html

/-!
Contract: the pattern the database looks for a proof image with.

Owns: `_PROOF_IMAGE_PATTERN` as a language, `regexp_match`, and that on a canonical document it
finds exactly the `img` tags with a `src`.

Does not own: the readers of the same document (`Vidit.Evidence.Html`).

Proof shape: an angle bracket opens a tag and stands nowhere else, so a match starts at a tag; the
rest of the match and of the tag are cut at the same places, because no part of either holds the
character that ends it.
-/

namespace Vidit.Evidence

open Vidit.Python

/-! ### The pattern -/

/-- One text. -/
def literal (text : Str) : Language Nat :=
  {text}

/-- One character of a class. -/
def oneOf (inClass : Nat → Bool) : Language Nat :=
  {word | ∃ point, inClass point = true ∧ word = [point]}

/-- `\s`. -/
def isRegexSpace (point : Nat) : Bool :=
  point = 0x20 || (0x09 ≤ point && point ≤ 0x0D)

/-- `\s[a-z-]+="[^"]*"`. -/
def tokenPattern : Language Nat :=
  oneOf isRegexSpace * (oneOf isNamePoint * KStar.kstar (oneOf isNamePoint)) * literal (str "=\"") *
    KStar.kstar (oneOf fun point => point ≠ 0x22) * literal (str "\"")

/-- `_PROOF_IMAGE_PATTERN`, `<img(\s[a-z-]+="[^"]*")*\ssrc="`. -/
def proofImagePattern : Language Nat :=
  literal (str "<img") * KStar.kstar tokenPattern * oneOf isRegexSpace * literal (str "src=\"")

/-- `regexp_match`: a part of the text is in the language. -/
def regexpMatch (text : Str) (pattern : Language Nat) : Prop :=
  ∃ before inner after, text = before ++ inner ++ after ∧ inner ∈ pattern

/-! ### The words of the pattern -/

/-- The words of a starred class. -/
theorem mem_kstar_oneOf {inClass : Nat → Bool} {word : Str} :
    word ∈ KStar.kstar (oneOf inClass) ↔ ∀ point ∈ word, inClass point = true := by
  rw [Language.mem_kstar]
  constructor
  · intro starred
    obtain ⟨words, rfl, single⟩ := starred
    intro point member
    obtain ⟨part, inWords, inPart⟩ := List.mem_flatten.mp member
    obtain ⟨only, inside, rfl⟩ := single part inWords
    rw [List.mem_singleton.mp inPart]
    exact inside
  · intro inside
    refine ⟨word.map fun point => [point], ?_, ?_⟩
    · rw [← List.flatMap_def, List.flatMap_singleton']
    · intro part member
      obtain ⟨point, inWord, rfl⟩ := List.mem_map.mp member
      exact ⟨point, inside point inWord, rfl⟩

/-- A token of the pattern is a space and a rendered attribute. -/
theorem mem_tokenPattern {word : Str} :
    word ∈ tokenPattern ↔ ∃ space name value, isRegexSpace space = true ∧ name ≠ [] ∧
      (∀ point ∈ name, isNamePoint point = true) ∧ 0x22 ∉ value ∧
      word = space :: (name ++ str "=\"" ++ value ++ str "\"") := by
  unfold tokenPattern literal
  simp only [Language.mem_mul]
  constructor
  · rintro ⟨_, ⟨_, ⟨_, ⟨_, ⟨space, spaced, rfl⟩, _, ⟨_, ⟨first, named, rfl⟩, later, named', rfl⟩,
      rfl⟩, _, rfl, rfl⟩, value, unquoted, rfl⟩, _, rfl, rfl⟩
    rw [mem_kstar_oneOf] at named' unquoted
    refine ⟨space, first :: later, value, spaced, by simp, ?_, ?_, by simp⟩
    · intro point member
      cases List.mem_cons.mp member with
      | inl here => rw [here]; exact named
      | inr inLater => exact named' point inLater
    · intro quote
      exact absurd (unquoted _ quote) (by decide)
  · rintro ⟨space, name, value, spaced, nonempty, named, unquoted, rfl⟩
    cases name with
    | nil => exact absurd rfl nonempty
    | cons first later =>
        refine ⟨_, ⟨_, ⟨_, ⟨[space], ⟨space, spaced, rfl⟩, _, ⟨[first],
          ⟨first, named first List.mem_cons_self, rfl⟩, later, ?_, rfl⟩, rfl⟩, _, rfl, rfl⟩,
          value, ?_, rfl⟩, _, rfl, by simp⟩
        · rw [mem_kstar_oneOf]
          exact fun point member => named point (List.mem_cons_of_mem _ member)
        · rw [mem_kstar_oneOf]
          intro point member
          have other : point ≠ 0x22 := fun same => unquoted (same ▸ member)
          simp [other]

/-! ### Cutting at the same places -/

/-- Two words of a class that are followed by characters outside it are the same word. -/
theorem append_cons_inj (inWord : Nat → Bool) {left right : Str} {endsLeft endsRight : Nat}
    {afterLeft afterRight : Str} (leftIn : ∀ point ∈ left, inWord point = true)
    (rightIn : ∀ point ∈ right, inWord point = true) (leftEnds : inWord endsLeft = false)
    (rightEnds : inWord endsRight = false)
    (same : left ++ endsLeft :: afterLeft = right ++ endsRight :: afterRight) :
    left = right ∧ endsLeft = endsRight ∧ afterLeft = afterRight := by
  induction left generalizing right with
  | nil =>
      cases right with
      | nil => exact ⟨rfl, List.cons.inj same⟩
      | cons point later =>
          have inside := rightIn point List.mem_cons_self
          rw [← (List.cons.inj same).1, leftEnds] at inside
          cases inside
  | cons head tail inductionHypothesis =>
      cases right with
      | nil =>
          have inside := leftIn head List.mem_cons_self
          rw [(List.cons.inj same).1, rightEnds] at inside
          cases inside
      | cons point later =>
          obtain ⟨rfl, rest⟩ := List.cons.inj same
          obtain ⟨rfl, ends⟩ := inductionHypothesis
            (fun other member => leftIn other (List.mem_cons_of_mem _ member))
            (fun other member => rightIn other (List.mem_cons_of_mem _ member)) rest
          exact ⟨rfl, ends⟩

/-- A rendered piece holds an angle bracket at most at its start. -/
theorem render_bracket {piece : Piece} (canonical : piece.Canonical) :
    chr '<' ∉ piece.render ∨ ∃ rest, piece.render = chr '<' :: rest ∧ chr '<' ∉ rest := by
  have nameless : ∀ {name : Str}, IsTagName name → chr '<' ∉ name := by
    intro name named member
    exact absurd (named.plain _ member) (by decide)
  cases piece with
  | text written => exact .inl canonical.1
  | startTag tag =>
      refine .inr ⟨_, rfl, ?_⟩
      have quotes : chr '<' ∉ str "=\"" ∧ chr '<' ∉ str "\"" ∧ chr '<' ∉ str ">" := by decide
      rw [List.mem_append, List.mem_append, List.mem_flatMap]
      rintro ((inName | ⟨entry, member, inEntry⟩) | close)
      · exact nameless canonical.name inName
      · unfold renderAttribute at inEntry
        rw [List.mem_cons, List.mem_append, List.mem_append, List.mem_append] at inEntry
        obtain space | ((inName | equals) | inValue) | quote := inEntry
        · exact absurd space (by decide)
        · exact absurd ((canonical.named entry member).2 _ inName) (by decide)
        · exact quotes.1 equals
        · exact (canonical.quoted entry member).2.1 inValue
        · exact quotes.2.1 quote
      · exact quotes.2.2 close
  | endTag name =>
      refine .inr ⟨chr '/' :: (name ++ str ">"), by simp [Piece.render, str, chr], ?_⟩
      rw [List.mem_cons, List.mem_append]
      rintro (slash | inName | close)
      · exact absurd slash (by decide)
      · exact nameless canonical inName
      · exact absurd close (by decide)

/-- An angle bracket of a document opens one of its tags. -/
theorem bracket_opens {document : Document} (canonical : document.Canonical) {before after : Str}
    (cut : document.render = before ++ chr '<' :: after) :
    ∃ piece ∈ document, ∃ later : Document, chr '<' :: after = piece.render ++ later.render ∧
      chr '<' ∈ piece.render := by
  induction document generalizing before with
  | nil => simp [Document.render] at cut
  | cons piece later inductionHypothesis =>
      have joined : piece.render ++ Document.render later = before ++ chr '<' :: after := by
        rw [← cut]
        rfl
      rw [List.append_eq_append_iff] at joined
      obtain ⟨middle, rfl, rest⟩ | ⟨middle, inPiece, rest⟩ := joined
      · obtain ⟨other, member, found⟩ := inductionHypothesis
          (fun other member => canonical other (List.mem_cons_of_mem _ member)) rest
        exact ⟨other, List.mem_cons_of_mem _ member, found⟩
      · cases middle with
        | nil =>
            rw [List.nil_append] at rest
            have opened : Document.render later = [] ++ chr '<' :: after := rest.symm
            obtain ⟨other, member, found⟩ := inductionHypothesis
              (fun other member => canonical other (List.mem_cons_of_mem _ member)) opened
            exact ⟨other, List.mem_cons_of_mem _ member, found⟩
        | cons point middle =>
            obtain ⟨rfl, tail⟩ := List.cons.inj rest
            obtain plain | ⟨inner, opens, plain⟩ := render_bracket (canonical piece List.mem_cons_self)
            · rw [inPiece] at plain
              exact absurd (List.mem_append_right _ List.mem_cons_self) plain
            · -- the bracket is the first character of the piece
              have start : before = [] := by
                cases before with
                | nil => rfl
                | cons first before =>
                    rw [inPiece, List.cons_append] at opens
                    obtain ⟨_, same⟩ := List.cons.inj opens
                    rw [← same] at plain
                    exact absurd (List.mem_append_right _ List.mem_cons_self) plain
              subst start
              refine ⟨piece, List.mem_cons_self, later, ?_, ?_⟩
              · rw [inPiece, tail]
                rfl
              · rw [inPiece]
                exact List.mem_cons_self

/-! ### A match walks the attributes of one tag -/

theorem renderAttribute_append (entry : Str × Str) (rest : Str) :
    renderAttribute entry ++ rest =
      chr ' ' :: (entry.1 ++ chr '=' :: 0x22 :: (entry.2 ++ 0x22 :: rest)) := by
  simp [renderAttribute, str, chr]

theorem isRegexSpace_notName {space : Nat} (spaced : isRegexSpace space = true) :
    isTagPoint space = false ∧ isNamePoint space = false ∧ space ≠ chr '>' := by
  have low : space ≤ 0x20 := by
    unfold isRegexSpace at spaced
    simp only [Bool.or_eq_true, Bool.and_eq_true, decide_eq_true_eq] at spaced
    omega
  have dash : chr '-' = 0x2D := rfl
  refine ⟨?_, ?_, ?_⟩
  · rw [← Bool.not_eq_true]
    unfold isTagPoint
    rw [Bool.or_eq_true, isAsciiLower_iff, isAsciiDigit_iff]
    omega
  · rw [← Bool.not_eq_true]
    unfold isNamePoint
    rw [Bool.or_eq_true, isAsciiLower_iff, decide_eq_true_iff, dash]
    omega
  · rintro rfl
    exact absurd low (by decide)

/-- Where the tokens of a match and the attributes of a tag start together, the `src` of the match
is an attribute of the tag. -/
theorem src_of_walk {tokens : List Str} (listed : ∀ token ∈ tokens, token ∈ tokenPattern)
    {entries : List (Str × Str)} {space : Nat} {after tail : Str}
    (named : ∀ entry ∈ entries, ∀ point ∈ entry.1, isNamePoint point = true)
    (quoted : ∀ entry ∈ entries, 0x22 ∉ entry.2) (spaced : isRegexSpace space = true)
    (same : entries.flatMap renderAttribute ++ chr '>' :: tail =
      tokens.flatten ++ space :: (str "src=\"" ++ after)) :
    ∃ entry ∈ entries, entry.1 = str "src" := by
  induction tokens generalizing entries with
  | nil =>
      cases entries with
      | nil => exact absurd (List.cons.inj same).1.symm (isRegexSpace_notName spaced).2.2
      | cons entry entries =>
          rw [List.flatMap_cons, List.append_assoc, renderAttribute_append] at same
          have rest := (List.cons.inj same).2
          have source : str "src=\"" ++ after = str "src" ++ chr '=' :: 0x22 :: after := rfl
          rw [source] at rest
          obtain ⟨found, _⟩ := append_cons_inj isNamePoint
            (named entry List.mem_cons_self) (by decide) (by decide) (by decide) rest
          exact ⟨entry, List.mem_cons_self, found⟩
  | cons token tokens inductionHypothesis =>
      obtain ⟨start, name, value, startSpace, nonempty, plain, unquoted, rfl⟩ :=
        mem_tokenPattern.mp (listed token List.mem_cons_self)
      cases entries with
      | nil => exact absurd (List.cons.inj same).1.symm (isRegexSpace_notName startSpace).2.2
      | cons entry entries =>
          have token : ((start :: (name ++ str "=\"" ++ value ++ str "\"")) :: tokens).flatten ++
              space :: (str "src=\"" ++ after) =
              start :: (name ++ chr '=' :: 0x22 :: (value ++ 0x22 ::
                (tokens.flatten ++ space :: (str "src=\"" ++ after)))) := by
            simp [str, chr]
          rw [token, List.flatMap_cons, List.append_assoc, renderAttribute_append] at same
          obtain ⟨_, _, rest⟩ := append_cons_inj isNamePoint
            (named entry List.mem_cons_self) plain (by decide) (by decide) (List.cons.inj same).2
          have inQuotes : ∀ {word : Str}, 0x22 ∉ word →
              ∀ point ∈ word, decide (point ≠ 0x22) = true := by
            intro word absent point member
            exact decide_eq_true fun quote => absent (quote ▸ member)
          obtain ⟨_, _, later⟩ := append_cons_inj (fun point => point ≠ 0x22)
            (inQuotes (quoted entry List.mem_cons_self)) (inQuotes unquoted) (by decide) (by decide)
            (List.cons.inj rest).2
          obtain ⟨found, member, isSrc⟩ := inductionHypothesis
            (fun token member => listed token (List.mem_cons_of_mem _ member))
            (fun other member => named other (List.mem_cons_of_mem _ member))
            (fun other member => quoted other (List.mem_cons_of_mem _ member)) later
          exact ⟨found, List.mem_cons_of_mem _ member, isSrc⟩

/-- An `img` with a `src`. -/
def StartTag.ShowsImage (tag : StartTag) : Prop :=
  tag.name = str "img" ∧ ∃ entry ∈ tag.attributes, entry.1 = str "src"

/-- The text after a tag's name goes on outside of it. -/
theorem afterName_cases (entries : List (Str × Str)) (tail : Str) :
    ∃ point rest, entries.flatMap renderAttribute ++ chr '>' :: tail = point :: rest ∧
      isTagPoint point = false := by
  cases entries with
  | nil => exact ⟨_, _, rfl, by decide⟩
  | cons entry entries =>
      rw [List.flatMap_cons, List.append_assoc, renderAttribute_append]
      exact ⟨_, _, rfl, by decide⟩

/-- The database finds a proof image in a canonical document where it has an `img` with a
`src`, and nowhere else. -/
theorem regexpMatch_proofImagePattern {document : Document} (canonical : document.Canonical) :
    regexpMatch document.render proofImagePattern ↔
      ∃ tag, Piece.startTag tag ∈ document ∧ tag.ShowsImage := by
  constructor
  · rintro ⟨before, _, after, cut, ⟨_, ⟨_, ⟨_, rfl, _, starred, rfl⟩, _, ⟨space, spaced, rfl⟩, rfl⟩,
      _, rfl, rfl⟩⟩
    obtain ⟨tokens, rfl, listed⟩ := (Language.mem_kstar).mp starred
    have opened : document.render = before ++ chr '<' ::
        (str "img" ++ (tokens.flatten ++ space :: (str "src=\"" ++ after))) := by
      rw [cut]
      simp [str, chr]
    obtain ⟨piece, member, later, here, bracket⟩ := bracket_opens canonical opened
    have whole := canonical piece member
    -- the first character after the name of the match is a space
    have walk : ∃ point rest, tokens.flatten ++ space :: (str "src=\"" ++ after) = point :: rest ∧
        isTagPoint point = false := by
      cases tokens with
      | nil => exact ⟨_, _, rfl, (isRegexSpace_notName spaced).1⟩
      | cons token tokens =>
          obtain ⟨start, _, _, startSpace, _, _, _, rfl⟩ :=
            mem_tokenPattern.mp (listed token List.mem_cons_self)
          exact ⟨_, _, rfl, (isRegexSpace_notName startSpace).1⟩
    cases piece with
    | text written => exact absurd bracket whole.1
    | endTag name =>
        have second : chr 'i' = chr '/' := by
          have closes : Piece.render (.endTag name) ++ later.render =
              chr '<' :: chr '/' :: (name ++ str ">" ++ later.render) := by
            simp [Piece.render, str, chr]
          rw [closes] at here
          exact (List.cons.inj (List.cons.inj here).2).1
        exact absurd second (by decide)
    | startTag tag =>
        have opens : Piece.render (.startTag tag) ++ later.render = chr '<' ::
            (tag.name ++ (tag.attributes.flatMap renderAttribute ++ chr '>' :: later.render)) := by
          simp [Piece.render, StartTag.render, str, chr]
        rw [opens] at here
        have rest := (List.cons.inj here).2
        obtain ⟨endsMatch, afterMatch, sameMatch, outsideMatch⟩ := walk
        obtain ⟨endsTag, afterTag, sameTag, outsideTag⟩ :=
          afterName_cases tag.attributes later.render
        have attributes : str "img" = tag.name ∧
            tokens.flatten ++ space :: (str "src=\"" ++ after) =
              tag.attributes.flatMap renderAttribute ++ chr '>' :: later.render := by
          rw [sameMatch, sameTag] at rest ⊢
          obtain ⟨names, ends, tails⟩ := append_cons_inj isTagPoint (by decide)
            whole.name.plain outsideMatch outsideTag rest
          exact ⟨names, by rw [ends, tails]⟩
        refine ⟨tag, member, attributes.1.symm, ?_⟩
        exact src_of_walk listed (fun entry inTag => (whole.named entry inTag).2)
          (fun entry inTag => (whole.quoted entry inTag).1) spaced attributes.2.symm
  · rintro ⟨tag, member, isImage, entry, inTag, isSrc⟩
    have whole : tag.Canonical := canonical _ member
    obtain ⟨earlier, later, inDocument⟩ := List.append_of_mem member
    obtain ⟨before, behind, inAttributes⟩ := List.append_of_mem inTag
    refine ⟨Document.render earlier, str "<img" ++ before.flatMap renderAttribute ++ [chr ' '] ++
      str "src=\"", entry.2 ++ 0x22 :: (behind.flatMap renderAttribute ++ chr '>' ::
        Document.render later), ?_, ?_⟩
    · rw [inDocument]
      unfold Document.render
      rw [List.flatMap_append, List.flatMap_cons]
      show _ ++ (tag.render ++ _) = _
      unfold StartTag.render
      rw [inAttributes, isImage, List.flatMap_append, List.flatMap_cons]
      simp [renderAttribute, isSrc, str, chr]
    · refine ⟨_, ⟨_, ⟨_, rfl, _, ?_, rfl⟩, _, ⟨chr ' ', by decide, rfl⟩, rfl⟩, _, rfl, rfl⟩
      refine Language.mem_kstar.mpr ⟨before.map renderAttribute, List.flatMap_def, ?_⟩
      intro token listed
      obtain ⟨other, inBefore, rfl⟩ := List.mem_map.mp listed
      have inside : other ∈ tag.attributes := by
        rw [inAttributes]
        exact List.mem_append_left _ inBefore
      have named := whole.named other inside
      exact mem_tokenPattern.mpr ⟨chr ' ', other.1, other.2, by decide, named.1, named.2,
        (whole.quoted other inside).1, rfl⟩

end Vidit.Evidence
