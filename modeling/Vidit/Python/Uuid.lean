import Vidit.Python.Str

/-!
Contract: the identifiers `uuid.uuid4` draws.

A row's identity is all that most of the backend reads of a UUID, so a UUID is
a number; its text is read where an object key or an error message is built.
-/

namespace Vidit.Python

/-- A UUID. Only its identity, its order and its text are read. -/
abbrev Uuid := Nat

/-- A character of the text of a UUID. -/
def isUuidChar (point : Nat) : Bool :=
  isAsciiDigit point || (chr 'a' ≤ point && point ≤ chr 'f') || point = chr '-'

/-- The draws of `uuid4`, in order, and the text of a UUID. -/
structure UuidSource where
  draw : Nat → Uuid
  text : Uuid → Str
  draw_injective : Function.Injective draw
  text_injective : Function.Injective text
  text_ne_nil : ∀ id, text id ≠ []
  text_plain : ∀ id, ∀ point ∈ text id, isUuidChar point = true

end Vidit.Python
