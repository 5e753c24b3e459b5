import Vidit.Evidence.Body

/-!
Contract: the HTML text of a sanitised body, and how its images are read out of it.

Owns:
- canonical documents: what the sanitiser writes, as text, start tags and end tags;
- the tokenizer states of HTML as far as tags go, and that a canonical document is read back as
  its own tags;
- `extract_image_srcs` and `proofImageSrcs` on the text of a document.

Does not own: markup declarations and elements whose content is raw text, which no canonical
document has; character references, which each reader decodes its own way.

Proof shape: the tokenizer runs one character at a time, so each part of a rendered tag is a run
of one state.
-/

namespace Vidit.Evidence

open Vidit.Python

/-! ### Canonical documents -/

/-- A start tag; the values stand as they are written. -/
structure StartTag where
  name : Str
  attributes : List (Str × Str)
deriving DecidableEq, Repr

inductive Piece where
  | text (written : Str)
  | startTag (tag : StartTag)
  | endTag (name : Str)
deriving DecidableEq, Repr

abbrev Document := List Piece

/-- One ` name="value"` of a tag. -/
def renderAttribute (entry : Str × Str) : Str :=
  chr ' ' :: (entry.1 ++ str "=\"" ++ entry.2 ++ str "\"")

def StartTag.render (tag : StartTag) : Str :=
  chr '<' :: (tag.name ++ tag.attributes.flatMap renderAttribute ++ str ">")

def Piece.render : Piece → Str
  | .text written => written
  | .startTag tag => tag.render
  | .endTag name => str "</" ++ name ++ str ">"

def Document.render (document : Document) : Str :=
  document.flatMap Piece.render

/-- The characters of an attribute name, `[a-z-]`. -/
def isNamePoint (point : Nat) : Bool :=
  isAsciiLower point || point = chr '-'

/-- The characters of an allowlisted tag. -/
def isTagPoint (point : Nat) : Bool :=
  isAsciiLower point || isAsciiDigit point

/-- A tag name of the allowlist: a letter, then letters and digits. -/
structure IsTagName (name : Str) : Prop where
  letter : ∃ first rest, name = first :: rest ∧ isAsciiLower first = true
  plain : ∀ point ∈ name, isTagPoint point = true

structure StartTag.Canonical (tag : StartTag) : Prop where
  name : IsTagName tag.name
  named : ∀ entry ∈ tag.attributes, entry.1 ≠ [] ∧
    ∀ point ∈ entry.1, isNamePoint point = true
  /-- A value escapes quotes and angle brackets. -/
  quoted : ∀ entry ∈ tag.attributes,
    0x22 ∉ entry.2 ∧ chr '<' ∉ entry.2 ∧ chr '>' ∉ entry.2
  distinct : (tag.attributes.map Prod.fst).Nodup

/-- A piece the sanitiser writes; text escapes angle brackets. -/
def Piece.Canonical : Piece → Prop
  | .text written => chr '<' ∉ written ∧ chr '>' ∉ written
  | .startTag tag => tag.Canonical
  | .endTag name => IsTagName name

def Document.Canonical (document : Document) : Prop :=
  ∀ piece ∈ document, piece.Canonical

/-! ### The tokenizer -/

/-- A tag being read; an attribute without a value has none. -/
structure TagToken where
  isEnd : Bool
  name : Str
  attributes : List (Str × Option Str)
deriving DecidableEq, Repr

def TagToken.add (tag : TagToken) (name : Str) (value : Option Str) : TagToken :=
  { tag with attributes := tag.attributes ++ [(name, value)] }

/-- The tokenizer states a tag goes through. -/
inductive TokenState where
  | data
  | tagOpen
  | endTagOpen
  | bogusComment
  | tagName (tag : TagToken)
  | beforeAttributeName (tag : TagToken)
  | attributeName (tag : TagToken) (name : Str)
  | afterAttributeName (tag : TagToken) (name : Str)
  | beforeAttributeValue (tag : TagToken) (name : Str)
  | valueQuoted (tag : TagToken) (name : Str) (quote : Nat) (value : Str)
  | valueUnquoted (tag : TagToken) (name value : Str)
  | selfClosing (tag : TagToken)
deriving DecidableEq, Repr

def isHtmlSpace (point : Nat) : Bool :=
  point ∈ [0x09, 0x0A, 0x0C, 0x0D, 0x20]

/-- The before attribute name state. -/
def beforeAttribute (tag : TagToken) (point : Nat) : TokenState × List TagToken :=
  if isHtmlSpace point then (.beforeAttributeName tag, [])
  else if point = chr '/' then (.selfClosing tag, [])
  else if point = chr '>' then (.data, [tag])
  else (.attributeName tag [asciiLowerPoint point], [])

/-- One character: the next state, and the tag it ends. -/
def tokenStep : TokenState → Nat → TokenState × List TagToken
  | .data, point => (if point = chr '<' then .tagOpen else .data, [])
  | .tagOpen, point =>
    if isAsciiAlpha point then (.tagName ⟨false, [asciiLowerPoint point], []⟩, [])
    else if point = chr '/' then (.endTagOpen, [])
    else if point = chr '!' ∨ point = chr '?' then (.bogusComment, [])
    else (if point = chr '<' then .tagOpen else .data, [])
  | .endTagOpen, point =>
    if isAsciiAlpha point then (.tagName ⟨true, [asciiLowerPoint point], []⟩, [])
    else if point = chr '>' then (.data, [])
    else (.bogusComment, [])
  | .bogusComment, point => (if point = chr '>' then .data else .bogusComment, [])
  | .tagName tag, point =>
    if isHtmlSpace point then (.beforeAttributeName tag, [])
    else if point = chr '/' then (.selfClosing tag, [])
    else if point = chr '>' then (.data, [tag])
    else (.tagName { tag with name := tag.name ++ [asciiLowerPoint point] }, [])
  | .beforeAttributeName tag, point => beforeAttribute tag point
  | .attributeName tag name, point =>
    if isHtmlSpace point then (.afterAttributeName tag name, [])
    else if point = chr '/' then (.selfClosing (tag.add name none), [])
    else if point = chr '>' then (.data, [tag.add name none])
    else if point = chr '=' then (.beforeAttributeValue tag name, [])
    else (.attributeName tag (name ++ [asciiLowerPoint point]), [])
  | .afterAttributeName tag name, point =>
    if point = chr '=' then (.beforeAttributeValue tag name, [])
    else if isHtmlSpace point then (.afterAttributeName tag name, [])
    else beforeAttribute (tag.add name none) point
  | .beforeAttributeValue tag name, point =>
    if isHtmlSpace point then (.beforeAttributeValue tag name, [])
    else if point = 0x22 ∨ point = 0x27 then (.valueQuoted tag name point [], [])
    else if point = chr '>' then (.data, [tag.add name (some [])])
    else (.valueUnquoted tag name [point], [])
  | .valueQuoted tag name quote value, point =>
    if point = quote then (.beforeAttributeName (tag.add name (some value)), [])
    else (.valueQuoted tag name quote (value ++ [point]), [])
  | .valueUnquoted tag name value, point =>
    if isHtmlSpace point then (.beforeAttributeName (tag.add name (some value)), [])
    else if point = chr '>' then (.data, [tag.add name (some value)])
    else (.valueUnquoted tag name (value ++ [point]), [])
  | .selfClosing tag, point =>
    if point = chr '>' then (.data, [tag]) else beforeAttribute tag point

/-- The tags of a text, read from a state. -/
def tagsFrom (state : TokenState) : Str → List TagToken
  | [] => []
  | point :: rest => (tokenStep state point).2 ++ tagsFrom (tokenStep state point).1 rest

/-- The start tags of a text, in document order. -/
def startTags (html : Str) : List TagToken :=
  (tagsFrom .data html).filter fun tag => !tag.isEnd

/-! ### The readers -/

section Readers

-- what a reader decodes a written value to
variable (decode : Str → Str)

/-- `_Reader.urls["img"]`: every `src` with a value, of every `img`. -/
def readerImageSrcs (html : Str) : List Str :=
  ((startTags html).filter fun tag => tag.name = str "img").flatMap fun tag =>
    (tag.attributes.filter fun entry => entry.1 = str "src").filterMap fun entry =>
      entry.2.map decode

/-- `extract_image_srcs` on the text of a body. -/
def extractImageSrcsOf (html : Str) : List Str :=
  (readerImageSrcs decode html).eraseDups

/-- `attribs.src` of an element: the first one counts, and one without a value is empty. -/
def attribsSrc (tag : TagToken) : Option Str :=
  (tag.attributes.find? fun entry => entry.1 = str "src").map fun entry =>
    (entry.2.map decode).getD []

/-- `proofImageSrcs`. -/
def proofImageSrcs (html : Str) : List Str :=
  if html = [] then []
  else ((startTags html).filter fun tag => tag.name = str "img").filterMap (attribsSrc decode)

/-- `proofHasImage`. -/
def proofHasImage (html : Str) : Bool :=
  0 < (proofImageSrcs decode html).length

end Readers

/-! ### Reading a canonical document -/

/-- A start tag as the tokenizer gives it. -/
def StartTag.token (tag : StartTag) : TagToken where
  isEnd := false
  name := tag.name
  attributes := tag.attributes.map fun entry => (entry.1, some entry.2)

def Piece.token? : Piece → Option TagToken
  | .text _ => none
  | .startTag tag => some tag.token
  | .endTag name => some ⟨true, name, []⟩

theorem tagsFrom_text {written : Str} (plain : chr '<' ∉ written) (rest : Str) :
    tagsFrom .data (written ++ rest) = tagsFrom .data rest := by
  induction written with
  | nil => rfl
  | cons point later inductionHypothesis =>
      rw [List.mem_cons, not_or] at plain
      rw [List.cons_append, tagsFrom, tokenStep, if_neg (Ne.symm plain.1)]
      exact inductionHypothesis plain.2

/-- What a tag name's characters are not. -/
theorem isTagPoint_plain {point : Nat} (plain : isTagPoint point = true) :
    isHtmlSpace point = false ∧ point ≠ chr '/' ∧ point ≠ chr '>' ∧
      asciiLowerPoint point = point := by
  unfold isTagPoint at plain
  rw [Bool.or_eq_true, isAsciiLower_iff, isAsciiDigit_iff] at plain
  have low : asciiLowerPoint point = point := by
    have upper : isAsciiUpper point = false := by
      rw [← Bool.not_eq_true, isAsciiUpper_iff]
      omega
    unfold asciiLowerPoint
    rw [upper]
    rfl
  refine ⟨?_, ?_, ?_, low⟩
  · simp only [isHtmlSpace, List.mem_cons, List.not_mem_nil, or_false, decide_eq_false_iff_not]
    omega
  · rintro rfl
    exact absurd plain (by decide)
  · rintro rfl
    exact absurd plain (by decide)

theorem tagsFrom_tagName {name : Str} (plain : ∀ point ∈ name, isTagPoint point = true)
    (tag : TagToken) (rest : Str) :
    tagsFrom (.tagName tag) (name ++ rest) =
      tagsFrom (.tagName { tag with name := tag.name ++ name }) rest := by
  induction name generalizing tag with
  | nil => simp
  | cons point later inductionHypothesis =>
      obtain ⟨space, slash, close, low⟩ := isTagPoint_plain (plain point List.mem_cons_self)
      rw [List.cons_append, tagsFrom, tokenStep, if_neg (by simp [space]), if_neg slash,
        if_neg close, low]
      simp only [List.nil_append]
      rw [inductionHypothesis fun point member => plain point (List.mem_cons_of_mem _ member)]
      simp

/-- What an attribute name's characters are not. -/
theorem isNamePoint_plain {point : Nat} (plain : isNamePoint point = true) :
    isHtmlSpace point = false ∧ point ≠ chr '/' ∧ point ≠ chr '>' ∧ point ≠ chr '=' ∧
      asciiLowerPoint point = point := by
  unfold isNamePoint at plain
  rw [Bool.or_eq_true, isAsciiLower_iff, decide_eq_true_iff] at plain
  have dash : chr '-' = 0x2D := rfl
  rw [dash] at plain
  have low : asciiLowerPoint point = point := by
    have upper : isAsciiUpper point = false := by
      rw [← Bool.not_eq_true, isAsciiUpper_iff]
      omega
    unfold asciiLowerPoint
    rw [upper]
    rfl
  refine ⟨?_, ?_, ?_, ?_, low⟩
  · simp only [isHtmlSpace, List.mem_cons, List.not_mem_nil, or_false, decide_eq_false_iff_not]
    omega
  · rintro rfl
    exact absurd plain (by decide)
  · rintro rfl
    exact absurd plain (by decide)
  · rintro rfl
    exact absurd plain (by decide)

theorem tagsFrom_attributeName {later : Str} (plain : ∀ point ∈ later, isNamePoint point = true)
    (tag : TagToken) (name rest : Str) :
    tagsFrom (.attributeName tag name) (later ++ rest) =
      tagsFrom (.attributeName tag (name ++ later)) rest := by
  induction later generalizing name with
  | nil => simp
  | cons point later inductionHypothesis =>
      obtain ⟨space, slash, close, equals, low⟩ :=
        isNamePoint_plain (plain point List.mem_cons_self)
      rw [List.cons_append, tagsFrom, tokenStep, if_neg (by simp [space]), if_neg slash,
        if_neg close, if_neg equals, low]
      simp only [List.nil_append]
      rw [inductionHypothesis fun point member => plain point (List.mem_cons_of_mem _ member)]
      simp

theorem tagsFrom_value {written : Str} {quote : Nat} (unquoted : quote ∉ written) (tag : TagToken)
    (name value rest : Str) :
    tagsFrom (.valueQuoted tag name quote value) (written ++ quote :: rest) =
      tagsFrom (.beforeAttributeName (tag.add name (some (value ++ written)))) rest := by
  induction written generalizing value with
  | nil => simp [tagsFrom, tokenStep]
  | cons point later inductionHypothesis =>
      rw [List.mem_cons, not_or] at unquoted
      rw [List.cons_append, tagsFrom, tokenStep, if_neg (Ne.symm unquoted.1)]
      simp only [List.nil_append]
      rw [inductionHypothesis unquoted.2]
      simp

/-- A state between the attributes of a tag. -/
def IsBetween (state : TokenState) (tag : TagToken) : Prop :=
  state = .tagName tag ∨ state = .beforeAttributeName tag

theorem tagsFrom_attribute {entry : Str × Str} {state : TokenState} {tag : TagToken} (rest : Str)
    (between : IsBetween state tag)
    (named : entry.1 ≠ [] ∧ ∀ point ∈ entry.1, isNamePoint point = true)
    (quoted : 0x22 ∉ entry.2) :
    tagsFrom state (renderAttribute entry ++ rest) =
      tagsFrom (.beforeAttributeName (tag.add entry.1 (some entry.2))) rest := by
  obtain ⟨name, value⟩ := entry
  cases name with
  | nil => exact absurd rfl named.1
  | cons first later =>
      obtain ⟨space, slash, close, _, low⟩ := isNamePoint_plain (named.2 first List.mem_cons_self)
      have start : ∀ text, tagsFrom state (chr ' ' :: first :: text) =
          tagsFrom (.attributeName tag [first]) text := by
        intro text
        have opens : tagsFrom state (chr ' ' :: first :: text) =
            tagsFrom (.beforeAttributeName tag) (first :: text) := by
          cases between with
          | inl here =>
              subst here
              rfl
          | inr here =>
              subst here
              rfl
        rw [opens, tagsFrom, tokenStep, beforeAttribute, if_neg (by simp [space]), if_neg slash,
          if_neg close, low]
        rfl
      have text : renderAttribute (first :: later, value) ++ rest =
          chr ' ' :: first :: (later ++ chr '=' :: 0x22 :: (value ++ 0x22 :: rest)) := by
        simp [renderAttribute, str, chr]
      rw [text, start, tagsFrom_attributeName fun point member =>
        named.2 point (List.mem_cons_of_mem _ member)]
      show tagsFrom (.valueQuoted tag (first :: later) 0x22 []) _ = _
      rw [tagsFrom_value quoted]
      rfl

theorem tagsFrom_attributes {entries : List (Str × Str)} {state : TokenState} {tag : TagToken}
    (rest : Str) (between : IsBetween state tag)
    (named : ∀ entry ∈ entries, entry.1 ≠ [] ∧ ∀ point ∈ entry.1, isNamePoint point = true)
    (quoted : ∀ entry ∈ entries, 0x22 ∉ entry.2) :
    tagsFrom state (entries.flatMap renderAttribute ++ chr '>' :: rest) =
      { tag with attributes := tag.attributes ++ entries.map fun entry => (entry.1, some entry.2) }
        :: tagsFrom .data rest := by
  induction entries generalizing state tag with
  | nil =>
      cases between with
      | inl here =>
          subst here
          simp [tagsFrom, tokenStep, isHtmlSpace, chr]
      | inr here =>
          subst here
          simp [tagsFrom, tokenStep, beforeAttribute, isHtmlSpace, chr]
  | cons entry entries inductionHypothesis =>
      rw [List.flatMap_cons, List.append_assoc,
        tagsFrom_attribute _ between (named entry List.mem_cons_self)
          (quoted entry List.mem_cons_self),
        inductionHypothesis (.inr rfl)
          (fun other member => named other (List.mem_cons_of_mem _ member))
          fun other member => quoted other (List.mem_cons_of_mem _ member)]
      simp [TagToken.add]

/-- A tag name is read whole after the letter that opens it. -/
theorem tagsFrom_open {name : Str} (named : IsTagName name) (isEnd : Bool) (rest : Str) :
    tagsFrom (if isEnd then .endTagOpen else .tagOpen) (name ++ rest) =
      tagsFrom (.tagName ⟨isEnd, name, []⟩) rest := by
  obtain ⟨first, later, rfl, letter⟩ := named.letter
  obtain ⟨_, _, _, low⟩ := isTagPoint_plain (named.plain first List.mem_cons_self)
  have alpha : isAsciiAlpha first = true := by
    unfold isAsciiAlpha
    rw [letter, Bool.or_true]
  have opens : tokenStep (if isEnd then .endTagOpen else .tagOpen) first =
      (.tagName ⟨isEnd, [first], []⟩, []) := by
    cases isEnd with
    | false => rw [if_neg (by simp), tokenStep, if_pos alpha, low]
    | true => rw [if_pos rfl, tokenStep, if_pos alpha, low]
  rw [List.cons_append, tagsFrom, opens, List.nil_append, tagsFrom_tagName fun point member =>
    named.plain point (List.mem_cons_of_mem _ member)]
  rfl

/-- A piece is read as its own tag, and the rest as what follows. -/
theorem tagsFrom_piece {piece : Piece} (canonical : piece.Canonical) (rest : Str) :
    tagsFrom .data (piece.render ++ rest) = piece.token?.toList ++ tagsFrom .data rest := by
  cases piece with
  | text written => exact tagsFrom_text canonical.1 rest
  | startTag tag =>
      have text : tag.render ++ rest = chr '<' ::
          (tag.name ++ (tag.attributes.flatMap renderAttribute ++ chr '>' :: rest)) := by
        simp [StartTag.render, str, chr]
      show tagsFrom .data (tag.render ++ rest) = _
      rw [text]
      show tagsFrom .tagOpen _ = _
      have opened := tagsFrom_open canonical.name false
        (tag.attributes.flatMap renderAttribute ++ chr '>' :: rest)
      rw [if_neg (by simp)] at opened
      rw [opened, tagsFrom_attributes rest (.inl rfl) canonical.named
        fun entry member => (canonical.quoted entry member).1]
      rfl
  | endTag name =>
      have text : Piece.render (.endTag name) ++ rest =
          chr '<' :: chr '/' :: (name ++ chr '>' :: rest) := by
        simp [Piece.render, str, chr]
      rw [text]
      show tagsFrom .endTagOpen _ = _
      have opened := tagsFrom_open canonical true (chr '>' :: rest)
      rw [if_pos rfl] at opened
      rw [opened]
      have ends := @tagsFrom_attributes [] (.tagName ⟨true, name, []⟩) ⟨true, name, []⟩ rest
        (.inl rfl) (by simp) (by simp)
      simpa [Piece.token?] using ends

/-- A canonical document is read back as its own tags. -/
theorem tagsFrom_render {document : Document} (canonical : document.Canonical) :
    tagsFrom .data document.render = document.filterMap Piece.token? := by
  induction document with
  | nil => rfl
  | cons piece later inductionHypothesis =>
      have ends := inductionHypothesis fun other member =>
        canonical other (List.mem_cons_of_mem _ member)
      unfold Document.render at ends ⊢
      rw [List.flatMap_cons, tagsFrom_piece (canonical piece List.mem_cons_self), ends]
      cases read : piece.token? with
      | none => rw [List.filterMap_cons_none read]; rfl
      | some token => rw [List.filterMap_cons_some read]; rfl

/-! ### The body of a document -/

/-- The value of an attribute, as it is written. -/
def StartTag.value (tag : StartTag) (name : Str) : Option Str :=
  (tag.attributes.find? fun entry => entry.1 = name).map Prod.snd

/-- The written src of an image. -/
def StartTag.src? (tag : StartTag) : Option Str :=
  if tag.name = str "img" then tag.value (str "src") else none

def Piece.src? : Piece → Option Str
  | .startTag tag => tag.src?
  | _ => none

/-- What a piece is to a reader of images. -/
def Piece.node (decode : Str → Str) (piece : Piece) : Node :=
  match piece, piece.src? with
  | .startTag tag, some src => .image (decode src) ((tag.value (str "alt")).map decode)
  | piece, _ => .markup piece.render

/-- The body a document is, as far as its images go. -/
def Document.body (decode : Str → Str) (document : Document) : Body :=
  document.map (Piece.node decode)

theorem src?_node (decode : Str → Str) (piece : Piece) :
    (piece.node decode).src? = piece.src?.map decode := by
  cases piece with
  | text written => rfl
  | endTag name => rfl
  | startTag tag =>
      unfold Piece.node
      cases shown : Piece.src? (.startTag tag) with
      | none => rfl
      | some src => rfl

theorem imageSrcs_body (decode : Str → Str) (document : Document) :
    imageSrcs (document.body decode) = (document.filterMap Piece.src?).map decode := by
  unfold imageSrcs Document.body
  rw [List.filterMap_map, List.map_filterMap]
  exact List.filterMap_congr fun piece _ => src?_node decode piece

/-- A name stands at most once in a tag. -/
theorem filter_eq_find? {entries : List (Str × Str)} (distinct : (entries.map Prod.fst).Nodup)
    (name : Str) : entries.filter (fun entry => entry.1 = name) =
      (entries.find? fun entry => entry.1 = name).toList := by
  induction entries with
  | nil => rfl
  | cons entry entries inductionHypothesis =>
      rw [List.map_cons, List.nodup_cons] at distinct
      by_cases here : entry.1 = name
      · have none : entries.filter (fun entry => entry.1 = name) = [] := by
          rw [List.filter_eq_nil_iff]
          intro other member
          rw [decide_eq_true_iff]
          intro same
          exact distinct.1 (List.mem_map.mpr ⟨other, member, same.trans here.symm⟩)
        simp [here, none]
      · simpa [here] using inductionHypothesis distinct.2

/-- The start tag of a piece. -/
def Piece.startTag? : Piece → Option StartTag
  | .startTag tag => some tag
  | _ => none

section Reading

variable {document : Document}

theorem startTags_render (canonical : document.Canonical) :
    startTags document.render = (document.filterMap Piece.startTag?).map StartTag.token := by
  unfold startTags
  rw [tagsFrom_render canonical, List.filter_filterMap, List.map_filterMap]
  apply List.filterMap_congr
  intro piece _
  cases piece with
  | text written => rfl
  | startTag tag => rfl
  | endTag name => rfl

theorem src?_eq_bind (piece : Piece) : piece.src? = piece.startTag?.bind StartTag.src? := by
  cases piece with
  | text written => rfl
  | startTag tag => rfl
  | endTag name => rfl

variable (decode : Str → Str)

/-- The srcs the server reads of a tag: the one it has. -/
theorem token_srcs {tag : StartTag} (canonical : tag.Canonical) :
    (tag.token.attributes.filter fun entry => entry.1 = str "src").filterMap
        (fun entry => entry.2.map decode) = ((tag.value (str "src")).map decode).toList := by
  have one := filter_eq_find? canonical.distinct (str "src")
  have cut : tag.token.attributes.filter (fun entry => entry.1 = str "src") =
      (tag.value (str "src")).toList.map fun written => (str "src", some written) := by
    unfold StartTag.token StartTag.value
    rw [List.filter_map]
    simp only [Function.comp_def]
    rw [one]
    cases found : tag.attributes.find? fun entry => entry.1 = str "src" with
    | none => rfl
    | some entry =>
        have named : entry.1 = str "src" := by
          simpa using List.find?_some found
        simp [named]
  rw [cut]
  cases tag.value (str "src") with
  | none => rfl
  | some written => rfl

theorem token_attribsSrc (tag : StartTag) :
    attribsSrc decode tag.token = (tag.value (str "src")).map decode := by
  unfold attribsSrc StartTag.token StartTag.value
  rw [List.find?_map]
  simp only [Function.comp_def]
  cases tag.attributes.find? fun entry => entry.1 = str "src" with
  | none => rfl
  | some entry => rfl

/-- What is read of each image, read of all of them. -/
theorem filterMap_images {read : TagToken → Option Str} {tags : List StartTag}
    (same : ∀ tag ∈ tags, read tag.token = (tag.value (str "src")).map decode) :
    ((tags.map StartTag.token).filter fun tag => tag.name = str "img").filterMap read =
      (tags.filterMap StartTag.src?).map decode := by
  induction tags with
  | nil => rfl
  | cons tag tags inductionHypothesis =>
      have later := inductionHypothesis fun other member => same other (List.mem_cons_of_mem _ member)
      rw [List.map_cons]
      by_cases isImage : tag.name = str "img"
      · have named : tag.token.name = str "img" := isImage
        have here := same tag List.mem_cons_self
        have shown : tag.src? = tag.value (str "src") := by
          unfold StartTag.src?
          rw [if_pos isImage]
        rw [List.filter_cons_of_pos (by simp [named])]
        cases value : tag.value (str "src") with
        | none =>
            rw [List.filterMap_cons_none (by rw [here, value]; rfl), later,
              List.filterMap_cons_none (shown.trans value)]
        | some written =>
            rw [List.filterMap_cons_some (by rw [here, value]; rfl), later,
              List.filterMap_cons_some (shown.trans value)]
            rfl
      · have named : tag.token.name ≠ str "img" := isImage
        have hidden : tag.src? = none := by
          unfold StartTag.src?
          rw [if_neg isImage]
        rw [List.filter_cons_of_neg (by simp [named]), later, List.filterMap_cons_none hidden]

theorem filterMap_src? (document : Document) :
    (document.filterMap Piece.startTag?).filterMap StartTag.src? =
      document.filterMap Piece.src? := by
  rw [List.filterMap_filterMap]
  exact List.filterMap_congr fun piece _ => (src?_eq_bind piece).symm

theorem canonical_startTag (canonical : document.Canonical) :
    ∀ tag ∈ document.filterMap Piece.startTag?, tag.Canonical := by
  intro tag member
  obtain ⟨piece, inDocument, opens⟩ := List.mem_filterMap.mp member
  cases piece with
  | text written => cases opens
  | endTag name => cases opens
  | startTag other =>
      cases opens
      exact canonical _ inDocument

/-- The server reads the srcs of the document's body. -/
theorem readerImageSrcs_render (canonical : document.Canonical) :
    readerImageSrcs decode document.render = imageSrcs (document.body decode) := by
  have tags := canonical_startTag canonical
  rw [imageSrcs_body, ← filterMap_src?, ← filterMap_images decode fun tag _ =>
    token_attribsSrc decode tag, List.filterMap_eq_flatMap_toList]
  unfold readerImageSrcs
  rw [startTags_render canonical]
  apply List.flatMap_congr
  intro token member
  obtain ⟨tag, inTags, rfl⟩ := List.mem_map.mp (List.mem_filter.mp member).1
  rw [token_srcs decode (tags tag inTags), token_attribsSrc]

theorem extractImageSrcsOf_render (canonical : document.Canonical) :
    extractImageSrcsOf decode document.render = extractImageSrcs (document.body decode) := by
  unfold extractImageSrcsOf extractImageSrcs
  rw [readerImageSrcs_render decode canonical]

/-- A `src` spelled in the value of another attribute is none. -/
example : extractImageSrcsOf id (str "<img alt=\"x src=\"><img alt=\"y\" src=\"z\">") = [str "z"] := by
  decide +kernel

/-- The client reads the same ones. -/
theorem proofImageSrcs_render (canonical : document.Canonical) :
    proofImageSrcs decode document.render = imageSrcs (document.body decode) := by
  have read : ((startTags document.render).filter fun tag => tag.name = str "img").filterMap
      (attribsSrc decode) = imageSrcs (document.body decode) := by
    rw [startTags_render canonical, filterMap_images decode fun tag _ => token_attribsSrc decode tag,
      filterMap_src?, imageSrcs_body]
  unfold proofImageSrcs
  split
  · next empty =>
    rw [empty] at read
    exact read
  · exact read

end Reading

end Vidit.Evidence
