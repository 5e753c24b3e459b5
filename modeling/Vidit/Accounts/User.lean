import Vidit.Python.Uuid

/-!
Contract: the `users` row.

Owns: the columns that authentication, crediting and ownership read.

Does not own: the profile columns (bio, avatar, links, X handle), which no
modelled function reads.
-/

namespace Vidit.Accounts

open Vidit.Python

/-- A `timestamptz`: microseconds since the epoch. -/
abbrev Instant := Int

structure User where
  id : Uuid
  username : Str
  email : Str
  passwordHash : Str
  isActive : Bool
  isAdmin : Bool
  lastSeenAt : Option Instant
  deletedAt : Option Instant
  tokenVersion : Nat
deriving DecidableEq, Repr

/-- Neither soft-deleted nor deactivated. -/
def User.IsLive (user : User) : Prop :=
  user.isActive = true ∧ user.deletedAt = none

instance (user : User) : Decidable user.IsLive := by
  unfold User.IsLive
  infer_instance

/-- The account stands and is not soft-deleted. -/
def LiveId (users : List User) (userId : Uuid) : Prop :=
  ∃ user ∈ users, user.id = userId ∧ user.deletedAt = none

instance (users : List User) (userId : Uuid) : Decidable (LiveId users userId) := by
  unfold LiveId
  infer_instance

end Vidit.Accounts
