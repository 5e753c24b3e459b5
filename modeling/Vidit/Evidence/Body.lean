import Vidit.Python.Unicode
import Mathlib.Data.List.Dedup

/-!
Contract: sanitised rich-text bodies, as far as their images go.

A sanitised body is canonical: its `img` tags are markup, in document order,
and everything between two of them is text and allowlisted tags that no
modelled function looks into.

Owns: `extract_image_srcs` and `rewrite_image_srcs` on such bodies, and the body
`html_from_text` builds.

Does not own: the sanitiser that produces them.
-/

namespace Vidit.Evidence

open Vidit.Python

inductive Node where
  | markup (html : Str)
  | image (src : Str) (alt : Option Str)
deriving DecidableEq, Repr

/-- A sanitised body; `[]` is the empty one. -/
abbrev Body := List Node

def Node.src? : Node → Option Str
  | .markup _ => none
  | .image src _ => some src

/-- Every image src, in document order. -/
def imageSrcs (body : Body) : List Str :=
  body.filterMap Node.src?

/-- `extract_image_srcs`. -/
def extractImageSrcs (body : Body) : List Str :=
  (imageSrcs body).eraseDups

/-- One node of `rewrite_image_srcs`: an image mapped to several URLs repeats
once for each, with its other attributes. -/
def Node.rewrite (srcMap : Str → Option (List Str)) : Node → List Node
  | .markup html => [.markup html]
  | .image src alt =>
    match srcMap src with
    | some (url :: urls) => (url :: urls).map fun mapped => .image mapped alt
    | _ => [.image src alt]

/-- `rewrite_image_srcs`. -/
def rewriteImageSrcs (body : Body) (srcMap : Str → Option (List Str)) : Body :=
  body.flatMap (Node.rewrite srcMap)

/-- `PROOF_PLACEHOLDER_PREFIX`. -/
def proofPlaceholderPrefix : Str := str "placeholder://"

def isPlaceholder (src : Str) : Bool :=
  startsWith src proofPlaceholderPrefix

/-- `displayed_proof_srcs`: the uploaded image URLs a body displays. -/
def displayedProofSrcs (proof : Body) : List Str :=
  (extractImageSrcs proof).filter fun src => !isPlaceholder src

@[simp] theorem mem_extractImageSrcs {body : Body} {src : Str} :
    src ∈ extractImageSrcs body ↔ src ∈ imageSrcs body := by
  unfold extractImageSrcs
  exact List.mem_eraseDups

@[simp] theorem mem_displayedProofSrcs {proof : Body} {src : Str} :
    src ∈ displayedProofSrcs proof ↔ src ∈ imageSrcs proof ∧ isPlaceholder src = false := by
  unfold displayedProofSrcs
  simp

theorem mem_imageSrcs_rewrite {node : Node} {srcMap : Str → Option (List Str)} {src : Str}
    (member : src ∈ imageSrcs (node.rewrite srcMap)) :
    node.src? = some src ∨ ∃ placed urls, node.src? = some placed ∧
      srcMap placed = some urls ∧ src ∈ urls := by
  cases node with
  | markup html => simp [Node.rewrite, imageSrcs, Node.src?] at member
  | image placed alt =>
      cases mapped : srcMap placed with
      | none =>
          simp only [Node.rewrite, mapped, imageSrcs, List.filterMap_cons, Node.src?,
            List.filterMap_nil, List.mem_singleton] at member
          exact .inl (by rw [member, Node.src?])
      | some urls =>
          cases urls with
          | nil =>
              simp only [Node.rewrite, mapped, imageSrcs, List.filterMap_cons, Node.src?,
                List.filterMap_nil, List.mem_singleton] at member
              exact .inl (by rw [member, Node.src?])
          | cons first rest =>
              refine .inr ⟨placed, first :: rest, rfl, mapped, ?_⟩
              simpa [Node.rewrite, mapped, imageSrcs, Node.src?, eq_comm] using member

/-- A src of the rewritten body was there before, or was mapped in for one that was. -/
theorem mem_imageSrcs_rewriteImageSrcs {body : Body} {srcMap : Str → Option (List Str)}
    {src : Str} (member : src ∈ imageSrcs (rewriteImageSrcs body srcMap)) :
    src ∈ imageSrcs body ∨ ∃ placed ∈ imageSrcs body, ∃ urls,
      srcMap placed = some urls ∧ src ∈ urls := by
  induction body with
  | nil => simp [rewriteImageSrcs, imageSrcs] at member
  | cons node rest inductionHypothesis =>
      have parts : src ∈ imageSrcs (node.rewrite srcMap) ∨
          src ∈ imageSrcs (rewriteImageSrcs rest srcMap) := by
        simpa [rewriteImageSrcs, imageSrcs, List.filterMap_append] using member
      rcases parts with here | later
      · rcases mem_imageSrcs_rewrite here with kept | ⟨placed, urls, stood, mapped, inUrls⟩
        · exact .inl (by simp [imageSrcs, kept])
        · exact .inr ⟨placed, by simp [imageSrcs, stood], urls, mapped, inUrls⟩
      · rcases inductionHypothesis later with kept | ⟨placed, stood, urls, mapped, inUrls⟩
        · refine .inl ?_
          simp only [imageSrcs, List.mem_filterMap] at kept ⊢
          rcases kept with ⟨other, inRest, reads⟩
          exact ⟨other, List.mem_cons_of_mem _ inRest, reads⟩
        · refine .inr ⟨placed, ?_, urls, mapped, inUrls⟩
          simp only [imageSrcs, List.mem_filterMap] at stood ⊢
          rcases stood with ⟨other, inRest, reads⟩
          exact ⟨other, List.mem_cons_of_mem _ inRest, reads⟩

/-! ### Bodies built from text -/

/-- `html.escape(text, quote=False)`. -/
def htmlEscape (text : Str) : Str :=
  text.flatMap fun point =>
    if point = chr '&' then str "&amp;"
    else if point = chr '<' then str "&lt;"
    else if point = chr '>' then str "&gt;"
    else [point]

/-- The paragraphs of `html_from_text`: one for each line that is not blank. -/
def paragraphsOf (text : Str) : Str :=
  ((split text (chr '\n')).filter fun line => strip line ≠ []).flatMap fun line =>
    str "<p>" ++ htmlEscape line ++ str "</p>"

/-- `html_from_text`, given the sanitised paragraphs: the text, then each image. -/
def htmlFromText (sanitised : Str) (imageUrls : List Str) : Body :=
  (if sanitised = [] then [] else [.markup sanitised]) ++
    imageUrls.map fun url => .image url none

@[simp] theorem imageSrcs_htmlFromText (sanitised : Str) (imageUrls : List Str) :
    imageSrcs (htmlFromText sanitised imageUrls) = imageUrls := by
  have images : (imageUrls.map fun url => Node.image url none).filterMap Node.src? =
      imageUrls := by
    induction imageUrls with
    | nil => rfl
    | cons url urls inductionHypothesis => simp [Node.src?, inductionHypothesis]
  unfold imageSrcs htmlFromText
  rw [List.filterMap_append, images]
  split <;> simp [Node.src?]

end Vidit.Evidence
