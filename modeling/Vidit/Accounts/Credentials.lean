import Vidit.Accounts.User

/-!
Contract: passwords, session tokens and the check every authenticated request
makes.

Owns:
- `hashPassword` and `verifyPassword` over an abstract bcrypt;
- session tokens, `createAccessToken` and `bumpTokenVersion`;
- `getCurrentUser` and the condition under which it rejects a token.

Does not own: the order in which concurrent requests run
(`Vidit.Accounts.Sessions`).
-/

namespace Vidit.Accounts

open Vidit.Python

/-- The bcrypt library: `hashpw` under a drawn salt, and `checkpw`. -/
structure Bcrypt where
  hashpw : List Nat → Nat → Str
  checkpw : List Nat → Str → Bool

/-- `PASSWORD_MAX_BYTES`. -/
def passwordMaxBytes : Nat := 72

def hashPassword (bcrypt : Bcrypt) (password : Str) (salt : Nat) : Str :=
  bcrypt.hashpw (encodeUtf8 password) salt

def verifyPassword (bcrypt : Bcrypt) (password hashed : Str) : Bool :=
  let encoded := encodeUtf8 password
  bcrypt.checkpw (encoded.take passwordMaxBytes) hashed && encoded.length ≤ passwordMaxBytes

/-- The claims of a session JWT this server signed. -/
structure SessionToken where
  sub : Uuid
  /-- Seconds since the epoch. -/
  exp : Int
  tv : Nat
deriving DecidableEq, Repr

/-- `datetime.timestamp()` truncated to the second, as PyJWT stores `exp`. -/
def Instant.seconds (instant : Instant) : Int :=
  instant / 1000000

def minutes (count : Nat) : Int :=
  (count : Int) * 60000000

def createAccessToken (jwtExpireMinutes : Nat) (now : Instant) (user : User) : SessionToken where
  sub := user.id
  exp := Instant.seconds (now + minutes jwtExpireMinutes)
  tv := user.tokenVersion

/-- The claims, unless the token has expired. -/
def decodeSessionToken (now : Instant) (token : SessionToken) : Option SessionToken :=
  if token.exp * 1000000 ≤ now then none else some token

/-- The value `bump_token_version` assigns in memory. -/
def bumpTokenVersion (user : User) : Nat :=
  user.tokenVersion + 1

inductive AuthError where
  | notAuthenticated
  | invalidToken
  | userNotFound
deriving DecidableEq, Repr

/-- The `detail` of the 401. -/
def AuthError.detail : AuthError → Str
  | .notAuthenticated => str "Not authenticated"
  | .invalidToken => str "Invalid token"
  | .userNotFound => str "User not found"

def getCurrentUser (now : Instant) (query : Uuid → Option User)
    (sessionCookie : Option SessionToken) : Except AuthError User :=
  match sessionCookie with
  | none => .error .notAuthenticated
  | some cookie =>
    match decodeSessionToken now cookie with
    | none => .error .invalidToken
    | some payload =>
      match query payload.sub with
      | none => .error .userNotFound
      | some user =>
        if user.isActive = false ∨ user.deletedAt ≠ none then .error .userNotFound
        else if payload.tv ≠ user.tokenVersion then .error .invalidToken
        else .ok user

/-- What an accepted token says about the account: it exists, is live, and
carries the token's version. -/
theorem getCurrentUser_eq_ok {now : Instant} {query : Uuid → Option User}
    {cookie : SessionToken} {user : User}
    (accepted : getCurrentUser now query (some cookie) = .ok user) :
    query cookie.sub = some user ∧ user.IsLive ∧ cookie.tv = user.tokenVersion := by
  unfold getCurrentUser decodeSessionToken at accepted
  by_cases expired : cookie.exp * 1000000 ≤ now
  · simp [expired] at accepted
  · simp only [expired, ↓reduceIte] at accepted
    cases found : query cookie.sub with
    | none => simp [found] at accepted
    | some row =>
        simp only [found] at accepted
        split at accepted
        · contradiction
        · rename_i live
          split at accepted
          · contradiction
          · rename_i current
            cases accepted
            simp only [not_or, Bool.not_eq_false, not_not] at live current
            exact ⟨rfl, live, current⟩

/-- A token is rejected once the account is gone, dead, or past its version. -/
theorem getCurrentUser_rejects {now : Instant} {query : Uuid → Option User}
    {cookie : SessionToken}
    (stale : ∀ user, query cookie.sub = some user → user.IsLive →
      cookie.tv ≠ user.tokenVersion) :
    ∃ error, getCurrentUser now query (some cookie) = .error error := by
  cases outcome : getCurrentUser now query (some cookie) with
  | error error => exact ⟨error, rfl⟩
  | ok user =>
      rcases getCurrentUser_eq_ok outcome with ⟨found, live, version⟩
      exact absurd version (stale user found live)

end Vidit.Accounts
