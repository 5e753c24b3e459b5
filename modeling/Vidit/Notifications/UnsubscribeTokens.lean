import Vidit.Python.Base64
import Vidit.Python.UuidText

/-!
Contract: signed unsubscribe tokens.

A token reads `<user id hex>.<signature>`, or `<user id hex>.<scope>.<signature>`.
The purpose is in the signature only.

Owns:
- `sign` and `verify`, over any message authentication code;
- that a token reads back as what it was signed for, and that another purpose,
  account or scope it verifies for is a collision of the code.

Does not own: the code itself, and which purposes and scopes are in use. A token
reaches `verify` from a query string, where no lone surrogate can stand.
-/

namespace Vidit.Notifications

open Vidit.Python

/-- HMAC-SHA256 under `JWT_SECRET`. -/
structure Mac where
  digest : List Nat → List Nat
  length_digest : ∀ message, (digest message).length = 32
  byte_of_digest : ∀ message, ∀ byte ∈ digest message, byte < 256

/-- The bytes a signature is made of. -/
def signedMessage (purpose : List Nat) (userId : UuidInt) (scope : Str) : List Nat :=
  purpose ++ uuidBytes userId ++ encodeUtf8 scope

namespace Mac

variable (mac : Mac)

/-- `_signature`. -/
def signature (purpose : List Nat) (userId : UuidInt) (scope : Str) : List Nat :=
  mac.digest (signedMessage purpose userId scope)

def sign (purpose : List Nat) (userId : UuidInt) (scope : Str) : Str :=
  let sig := rstrip (urlsafeB64encode (mac.signature purpose userId scope)) (str "=")
  join (str ".") (uuidHex userId :: ((if scope = [] then [] else [scope]) ++ [sig]))

/-- The head, the scope and the signature of a token. -/
def tokenParts (token : Str) : Option (Str × Str × Str) :=
  match split token (chr '.') with
  | [head, sig] => some (head, [], sig)
  | [head, scope, sig] => if scope = [] then none else some (head, scope, sig)
  | _ => none

/-- The bytes of a signature, its padding put back. -/
def decodeSignature (sig : Str) : Option (List Nat) :=
  urlsafeB64decode (sig ++ List.replicate ((4 - sig.length % 4) % 4) (chr '='))

/-- The account and the scope a token names: `none` is an `InvalidUnsubscribeTokenError`. -/
def verify (purpose : List Nat) (token : Str) : Option (UuidInt × Str) := do
  let (head, scope, sig) ← tokenParts token
  let userId ← uuidOfHex head
  let given ← decodeSignature sig
  if given = mac.signature purpose userId scope then some (userId, scope) else none

/-- Two messages with one code. -/
def Collides (left right : List Nat) : Prop :=
  left ≠ right ∧ mac.digest left = mac.digest right

end Mac

/-- A text of code points. -/
def IsText (text : Str) : Prop :=
  ∀ point ∈ text, point < 0x110000

/-- The signature bytes a token carries. -/
def Carries (token : Str) (bytes : List Nat) : Prop :=
  ∃ head scope sig, Mac.tokenParts token = some (head, scope, sig) ∧
    Mac.decodeSignature sig = some bytes

/-- A token names one link. -/
structure NamesOneLink (mac : Mac) : Prop where
  /-- A token reads back as what it was signed for. -/
  reads : ∀ purpose userId scope, chr '.' ∉ scope →
    mac.verify purpose (mac.sign purpose userId scope) = some (userId, scope)
  /-- It verifies for another purpose only through a collision. -/
  apart : ∀ purpose other userId scope named, chr '.' ∉ scope →
    mac.verify other (mac.sign purpose userId scope) = some named → other ≠ purpose →
    mac.Collides (signedMessage other userId scope) (signedMessage purpose userId scope)
  /-- Its signature, under whatever head and scope it is put, verifies for another account
  or scope only through a collision. -/
  binds : ∀ purpose userId scope token other otherScope, IsText scope → IsText otherScope →
    Carries token (mac.signature purpose userId scope) →
    mac.verify purpose token = some (other, otherScope) →
    (other, otherScope) ≠ (userId, scope) →
    mac.Collides (signedMessage purpose other otherScope) (signedMessage purpose userId scope)

/-! ### What is signed -/

/-- The code of a character is never the start of another's. -/
theorem encodeCodePoint_inj {left right : Nat} {leftRest rightRest : List Nat}
    (leftBound : left < 0x110000) (rightBound : right < 0x110000)
    (same : encodeCodePoint left ++ leftRest = encodeCodePoint right ++ rightRest) :
    left = right ∧ leftRest = rightRest := by
  unfold encodeCodePoint at same
  split_ifs at same <;> simp only [List.cons_append, List.nil_append, List.cons.injEq] at same
  all_goals
    first
    | omega
    | exact ⟨by omega, by tauto⟩

theorem encodeUtf8_inj {left right : Str} (leftText : IsText left) (rightText : IsText right)
    (same : encodeUtf8 left = encodeUtf8 right) : left = right := by
  have nonempty : ∀ point, encodeCodePoint point ≠ [] := by
    intro point
    unfold encodeCodePoint
    split_ifs <;> simp
  induction left generalizing right with
  | nil =>
      cases right with
      | nil => rfl
      | cons point rest =>
          have empty := (List.append_eq_nil_iff.mp same.symm).1
          exact absurd empty (nonempty point)
  | cons point rest inductionHypothesis =>
      cases right with
      | nil =>
          have empty := (List.append_eq_nil_iff.mp same).1
          exact absurd empty (nonempty point)
      | cons other others =>
          rw [IsText, List.forall_mem_cons] at leftText rightText
          obtain ⟨rfl, rest'⟩ := encodeCodePoint_inj leftText.1 rightText.1 same
          rw [inductionHypothesis leftText.2 rightText.2 rest']

/-- The message of one purpose names its account and its scope. -/
theorem signedMessage_inj {purpose : List Nat} {userId other : UuidInt} {scope otherScope : Str}
    (scopeText : IsText scope) (otherText : IsText otherScope)
    (same : signedMessage purpose userId scope = signedMessage purpose other otherScope) :
    userId = other ∧ scope = otherScope := by
  unfold signedMessage at same
  rw [List.append_assoc, List.append_assoc] at same
  have parts := List.append_inj (List.append_cancel_left same) (by simp)
  exact ⟨uuidBytes_injective parts.1, encodeUtf8_inj scopeText otherText parts.2⟩

/-! ### What a token carries -/

variable (mac : Mac)

theorem notMem_uuidHex (userId : UuidInt) : chr '.' ∉ uuidHex userId := by
  intro member
  have isDigit := isDigitChar_uuidHex userId _ member
  have value : chr '.' = 46 := by decide
  unfold IsDigitChar at isDigit
  omega

theorem base64Char_ne_dot : ∀ value < 64, base64Char value ≠ chr '.' := by decide

/-- No character of the alphabet separates the parts of a token. -/
theorem notMem_base64Body (bytes : List Nat) (small : ∀ byte ∈ bytes, byte < 256) :
    chr '.' ∉ base64Body bytes := by
  induction bytes using base64Body.induct with
  | case1 => simp [base64Body]
  | case2 first =>
      have byte := small first (by simp)
      simp only [base64Body, List.mem_cons, not_or]
      exact ⟨(base64Char_ne_dot _ (by omega)).symm, (base64Char_ne_dot _ (by omega)).symm,
        by simp⟩
  | case3 first second =>
      have byte := small first (by simp)
      have byte' := small second (by simp)
      simp only [base64Body, List.mem_cons, not_or]
      exact ⟨(base64Char_ne_dot _ (by omega)).symm, (base64Char_ne_dot _ (by omega)).symm,
        (base64Char_ne_dot _ (by omega)).symm, by simp⟩
  | case4 first second third rest inductionHypothesis =>
      have byte := small first (by simp)
      have byte' := small second (by simp)
      have byte'' := small third (by simp)
      simp only [base64Body, List.mem_cons, not_or]
      exact ⟨(base64Char_ne_dot _ (by omega)).symm, (base64Char_ne_dot _ (by omega)).symm,
        (base64Char_ne_dot _ (by omega)).symm, (base64Char_ne_dot _ (by omega)).symm,
        inductionHypothesis fun byte member => small byte (by simp [member])⟩

/-- Parts without the separator are split apart again. -/
theorem split_join {separator : Nat} (first : Str) (others : List Str)
    (absent : ∀ part ∈ first :: others, separator ∉ part) :
    split (join [separator] (first :: others)) separator = first :: others := by
  induction others generalizing first with
  | nil =>
      rw [join, List.intercalate_singleton]
      exact split_of_notMem (absent first List.mem_cons_self)
  | cons second rest inductionHypothesis =>
      rw [List.forall_mem_cons] at absent
      have later := inductionHypothesis second absent.2
      rw [join] at later
      rw [join, List.intercalate_cons_cons, List.append_assoc, List.singleton_append,
        split_append absent.1, later]

theorem length_base64Body_eq (bytes : List Nat) :
    (base64Body bytes).length = (4 * bytes.length + 2) / 3 := by
  induction bytes using base64Body.induct with
  | case1 => rfl
  | case2 first => simp [base64Body]
  | case3 first second => simp [base64Body]
  | case4 first second third rest inductionHypothesis =>
      simp only [base64Body, List.length_cons, inductionHypothesis]
      omega

/-- The length of a token with a scope. -/
theorem length_sign (purpose : List Nat) (userId : UuidInt) {scope : Str} (named : scope ≠ []) :
    (mac.sign purpose userId scope).length = scope.length + 77 := by
  have stripped := rstrip_urlsafeB64encode _
    (mac.byte_of_digest (signedMessage purpose userId scope))
  have dot : str "." = [chr '.'] := by decide
  unfold Mac.sign Mac.signature
  rw [stripped, dot, if_neg named]
  simp only [join, List.singleton_append, List.intercalate_cons_cons, List.intercalate_singleton,
    List.length_append, List.length_singleton, length_uuidHex, length_base64Body_eq,
    mac.length_digest]
  omega

/-- The parts a token was joined from. -/
theorem tokenParts_sign (purpose : List Nat) (userId : UuidInt) {scope : Str}
    (plain : chr '.' ∉ scope) :
    Mac.tokenParts (mac.sign purpose userId scope) =
      some (uuidHex userId, scope, base64Body (mac.signature purpose userId scope)) := by
  have bytes := mac.byte_of_digest (signedMessage purpose userId scope)
  have signaturePlain := notMem_base64Body _ bytes
  have stripped := rstrip_urlsafeB64encode _ bytes
  have dot : str "." = [chr '.'] := by decide
  unfold Mac.tokenParts Mac.sign
  simp only [Mac.signature] at *
  rw [stripped, dot]
  have head := notMem_uuidHex userId
  by_cases unscoped : scope = []
  · subst unscoped
    rw [if_pos rfl, List.nil_append, split_join _ _ (by simp [head, signaturePlain])]
  · rw [if_neg unscoped, split_join _ _ (by simp [head, plain, signaturePlain])]
    exact if_neg unscoped

/-- A token with a scope has it in the middle. -/
theorem split_of_tokenParts {token head scope sig : Str} (named : scope ≠ [])
    (parts : Mac.tokenParts token = some (head, scope, sig)) :
    split token (chr '.') = [head, scope, sig] := by
  unfold Mac.tokenParts at parts
  split at parts
  · cases parts
    exact absurd rfl named
  · next pieces =>
    split at parts
    · contradiction
    · cases parts
      exact pieces
  · contradiction

theorem decodeSignature_base64Body (message : List Nat) :
    Mac.decodeSignature (base64Body (mac.digest message)) = some (mac.digest message) :=
  urlsafeB64decode_padded _ (mac.byte_of_digest message)

theorem verify_eq_some {purpose : List Nat} {token : Str} {named : UuidInt × Str} :
    mac.verify purpose token = some named ↔
      ∃ head sig, Mac.tokenParts token = some (head, named.2, sig) ∧
        uuidOfHex head = some named.1 ∧
        Mac.decodeSignature sig = some (mac.signature purpose named.1 named.2) := by
  unfold Mac.verify
  simp only [Option.bind_eq_bind, Option.bind_eq_some_iff]
  constructor
  · intro verified
    obtain ⟨⟨head, scope, sig⟩, parts, userId, read, given, decoded, matched⟩ := verified
    split at matched
    · next same =>
      cases matched
      exact ⟨head, sig, parts, read, by rw [decoded, same]⟩
    · contradiction
  · intro carried
    obtain ⟨head, sig, parts, read, decoded⟩ := carried
    refine ⟨(head, named.2, sig), parts, named.1, read, _, decoded, ?_⟩
    exact if_pos rfl

/-- What verifies carries the signature of what it names. -/
theorem carries_of_verify {purpose : List Nat} {token : Str} {named : UuidInt × Str}
    (verified : mac.verify purpose token = some named) :
    Carries token (mac.signature purpose named.1 named.2) := by
  obtain ⟨head, sig, parts, read, decoded⟩ := (verify_eq_some mac).mp verified
  exact ⟨head, named.2, sig, parts, decoded⟩

theorem carries_unique {token : Str} {left right : List Nat} (first : Carries token left)
    (second : Carries token right) : left = right := by
  obtain ⟨head, scope, sig, parts, decoded⟩ := first
  obtain ⟨head', scope', sig', parts', decoded'⟩ := second
  rw [parts] at parts'
  cases parts'
  rw [decoded] at decoded'
  exact Option.some.inj decoded'

theorem carries_sign (purpose : List Nat) (userId : UuidInt) {scope : Str}
    (plain : chr '.' ∉ scope) :
    Carries (mac.sign purpose userId scope) (mac.signature purpose userId scope) :=
  ⟨_, _, _, tokenParts_sign mac purpose userId plain, decodeSignature_base64Body mac _⟩

theorem verify_sign (purpose : List Nat) (userId : UuidInt) {scope : Str}
    (plain : chr '.' ∉ scope) :
    mac.verify purpose (mac.sign purpose userId scope) = some (userId, scope) := by
  rw [verify_eq_some]
  exact ⟨_, _, tokenParts_sign mac purpose userId plain, uuidOfHex_uuidHex userId,
    decodeSignature_base64Body mac _⟩

/-- A token reads back as what it was signed for; with its signature, whoever makes another
purpose, account or scope verify has found two messages with one code. -/
theorem namesOneLink : NamesOneLink mac where
  reads := fun purpose userId scope plain => verify_sign mac purpose userId plain
  apart := by
    intro purpose other userId scope named plain verified different
    have parts := tokenParts_sign mac purpose userId plain
    obtain ⟨head, sig, parts', read, decoded⟩ := (verify_eq_some mac).mp verified
    rw [parts] at parts'
    cases parts'
    rw [uuidOfHex_uuidHex] at read
    have sameUser := Option.some.inj read
    rw [Mac.signature, decodeSignature_base64Body, ← sameUser] at decoded
    refine ⟨?_, (Option.some.inj decoded).symm⟩
    intro same
    unfold signedMessage at same
    rw [List.append_assoc, List.append_assoc] at same
    exact different (List.append_cancel_right same)
  binds := by
    intro purpose userId scope token other otherScope scopeText otherText carried verified
      different
    have own := carries_of_verify mac verified
    refine ⟨?_, carries_unique own carried⟩
    intro same
    obtain ⟨sameUser, sameScope⟩ := signedMessage_inj otherText scopeText same
    exact different (by rw [sameUser, sameScope])

end Vidit.Notifications
