import Mathlib.Logic.Function.Basic
import Vidit.Accounts.Credentials
import Vidit.Library.Transition

/-!
Contract: the requests that read or end sessions, interleaved statement by
statement over one account.

Postgres runs them at READ COMMITTED: a SELECT sees the committed row, an
UPDATE takes the row lock and holds it to the commit. Between statements a
request works on the row it loaded, and writes back the values it computed
from that row.

Owns:
- the statements of `login`, `logout`, `change_password`, `reset_password` and
  `soft_delete_user` that touch the account's row;
- the system of their interleavings.

Does not own: the audit, reset-token, invitation and event rows those requests
also touch. A reset request starts once `consume` has burned its token, and any
request may fail at any statement.
-/

namespace Vidit.Accounts

open Vidit.Python Vidit.Library

/-- The settings and constants the requests read. -/
structure SessionSettings where
  jwtExpireMinutes : Nat
  /-- `DUMMY_PASSWORD_HASH`. -/
  dummyPasswordHash : Str

/-- `LAST_SEEN_THROTTLE`. -/
def lastSeenThrottle : Int := minutes 15

/-- The largest value of an `Integer` column. -/
def integerMax : Nat := 2 ^ 31 - 1

inductive Request where
  | login (password : Str)
  | logout (cookie : Option SessionToken)
  | changePassword (cookie : SessionToken) (current new : Str) (salt : Nat)
  | resetPassword (new : Str) (salt : Nat)
  | softDeleteUser
deriving DecidableEq, Repr

/-- The session token a request carries. -/
def Request.cookie? : Request → Option SessionToken
  | .logout cookie => cookie
  | .changePassword cookie _ _ _ => some cookie
  | _ => none

/-- The columns one request has set in memory and will write in one UPDATE. -/
inductive Transaction where
  | login (checked : Str) (lastSeenAt : Instant)
  | touchLastSeen (lastSeenAt : Instant) (current new : Str) (salt : Nat)
  | logout (tokenVersion : Nat)
  | changePassword (passwordHash : Str) (tokenVersion : Nat)
  | resetPassword (passwordHash : Str) (tokenVersion : Nat)
  | softDeleteUser (deletedAt : Instant) (tokenVersion : Nat)
deriving DecidableEq, Repr

namespace Transaction

/-- The token version the UPDATE writes. -/
def tokenVersion? : Transaction → Option Nat
  | .login _ _ | .touchLastSeen _ _ _ _ => none
  | .logout version | .changePassword _ version | .resetPassword _ version
  | .softDeleteUser _ version => some version

/-- The password hash the UPDATE writes. -/
def passwordHash? : Transaction → Option Str
  | .changePassword hash _ | .resetPassword hash _ => some hash
  | _ => none

def deletedAt? : Transaction → Option Instant
  | .softDeleteUser instant _ => some instant
  | _ => none

def lastSeenAt? : Transaction → Option Instant
  | .login _ instant | .touchLastSeen instant _ _ _ => some instant
  | _ => none

/-- The row once the UPDATE has committed. -/
def applyTo (transaction : Transaction) (user : User) : User :=
  { user with
    passwordHash := transaction.passwordHash?.getD user.passwordHash
    tokenVersion := transaction.tokenVersion?.getD user.tokenVersion
    deletedAt := transaction.deletedAt?.or user.deletedAt
    lastSeenAt := transaction.lastSeenAt?.or user.lastSeenAt }

end Transaction

/-- Where a session token came from. -/
inductive Origin where
  | earlier
  | login (checked : Str)
  | changePassword
deriving DecidableEq, Repr

structure Minted where
  token : SessionToken
  origin : Origin
deriving DecidableEq, Repr

/-- What a request does next. -/
inductive Process where
  | idle
  | select (request : Request)
  /-- `change_password` after the `last_seen_at` commit expired its row. -/
  | reload (current new : Str) (salt : Nat)
  | update (transaction : Transaction)
  /-- The UPDATE has run and holds the row lock. -/
  | commit (transaction : Transaction)
  /-- The reload after the commit, then `create_access_token` on it. -/
  | mint (origin : Origin)
deriving DecidableEq, Repr

/-- The password hash a process has drawn and not yet committed. -/
def Process.drawn? : Process → Option Str
  | .update transaction | .commit transaction => transaction.passwordHash?
  | _ => none

section Requests

variable (settings : SessionSettings) (bcrypt : Bcrypt) (now : Instant) (user : User)

/-- `login` from its SELECT to its UPDATE. -/
def login (password : Str) : Process :=
  let passwordHash :=
    if user.deletedAt = none then user.passwordHash else settings.dummyPasswordHash
  let passwordOk := verifyPassword bcrypt password passwordHash
  if user.deletedAt ≠ none ∨ user.isActive = false ∨ passwordOk = false then .idle
  else .update (.login user.passwordHash now)

/-- `logout`: a missing or expired cookie names no account to bump. -/
def logout (cookie : Option SessionToken) : Process :=
  match cookie.bind (decodeSessionToken now) with
  | none => .idle
  | some payload =>
    if payload.sub = user.id ∧ user.deletedAt = none then
      .update (.logout (bumpTokenVersion user))
    else .idle

/-- `change_password` on the row its session loaded. -/
def changePassword (current new : Str) (salt : Nat) : Process :=
  if verifyPassword bcrypt current user.passwordHash then
    .update (.changePassword (hashPassword bcrypt new salt) (bumpTokenVersion user))
  else .idle

/-- `_touch_last_seen` ahead of `change_password`: its commit expires the row. -/
def authenticated (current new : Str) (salt : Nat) : Process :=
  match user.lastSeenAt with
  | some seen =>
    if now - seen < lastSeenThrottle then changePassword bcrypt user current new salt
    else .update (.touchLastSeen now current new salt)
  | none => .update (.touchLastSeen now current new salt)

/-- `reset_password` once its token is consumed. -/
def resetPassword (new : Str) (salt : Nat) : Process :=
  if user.deletedAt ≠ none ∨ user.isActive = false then .idle
  else .update (.resetPassword (hashPassword bcrypt new salt) (bumpTokenVersion user))

def softDeleteUser : Process :=
  if user.deletedAt ≠ none then .idle
  else .update (.softDeleteUser now (bumpTokenVersion user))

/-- The query `db.query(User).filter(User.id == ...)` over this account. -/
def queryUser (id : Uuid) : Option User :=
  if id = user.id then some user else none

/-- From a request's first SELECT to its first UPDATE. -/
def selected : Request → Process
  | .login password => login settings bcrypt now user password
  | .logout cookie => logout now user cookie
  | .changePassword cookie current new salt =>
    match getCurrentUser now (queryUser user) (some cookie) with
    | .error _ => .idle
    | .ok row => authenticated bcrypt now row current new salt
  | .resetPassword new salt => resetPassword bcrypt user new salt
  | .softDeleteUser => softDeleteUser now user

end Requests

/-- What follows a commit. -/
def Transaction.continues : Transaction → Process
  | .login checked _ => .mint (.login checked)
  | .touchLastSeen _ current new salt => .reload current new salt
  | .changePassword _ _ => .mint .changePassword
  | _ => .idle

/-- What follows a failed statement: `_touch_last_seen` swallows it, every
other request ends. -/
def Process.failed : Process → Process
  | .update (.touchLastSeen _ current new salt)
  | .commit (.touchLastSeen _ current new salt) => .reload current new salt
  | _ => .idle

structure SessionState where
  now : Instant
  /-- The committed row. -/
  user : User
  /-- The process whose uncommitted UPDATE holds the row lock. -/
  lock : Option Nat
  processes : Nat → Process
  /-- Every password hash drawn so far. -/
  hashes : List Str
  minted : List Minted

inductive SessionLabel where
  | tick (later : Instant)
  | begin (process : Nat) (request : Request)
  | run (process : Nat)
  | fail (process : Nat)
deriving DecidableEq, Repr

/-- Why a step is not possible. -/
inductive Blocked where
  | clockRunsForward
  | busy
  | idle
  | unknownCookie
  | rowLocked
  | saltAlreadyDrawn
  | integerOutOfRange
deriving DecidableEq, Repr

namespace SessionState

def setProcess (state : SessionState) (process : Nat) (next : Process) : SessionState :=
  { state with processes := Function.update state.processes process next }

/-- Continue with `next`. A hash it draws carries a fresh salt, so it is one no
row has held. -/
def proceed (state : SessionState) (process : Nat) (next : Process) :
    Except Blocked SessionState :=
  match next.drawn? with
  | none => .ok (state.setProcess process next)
  | some hash =>
    if hash ∈ state.hashes then .error .saltAlreadyDrawn
    else .ok { state.setProcess process next with hashes := hash :: state.hashes }

/-- Run the UPDATE, once no other transaction holds the row lock. -/
def executeUpdate (state : SessionState) (process : Nat) (transaction : Transaction) :
    Except Blocked SessionState :=
  if state.lock ≠ none then .error .rowLocked
  else if integerMax < transaction.tokenVersion?.getD 0 then .error .integerOutOfRange
  else .ok { state.setProcess process (.commit transaction) with lock := some process }

def executeCommit (state : SessionState) (process : Nat) (transaction : Transaction) :
    SessionState :=
  { state.setProcess process transaction.continues with
    user := transaction.applyTo state.user
    lock := none }

def executeMint (settings : SessionSettings) (state : SessionState) (process : Nat)
    (origin : Origin) : SessionState :=
  let token := createAccessToken settings.jwtExpireMinutes state.now state.user
  { state.setProcess process .idle with minted := ⟨token, origin⟩ :: state.minted }

/-- The next statement of one process. -/
def runProcess (settings : SessionSettings) (bcrypt : Bcrypt) (state : SessionState)
    (process : Nat) : Except Blocked SessionState :=
  match state.processes process with
  | .idle => .error .idle
  | .select request =>
    state.proceed process (selected settings bcrypt state.now state.user request)
  | .reload current new salt =>
    state.proceed process (changePassword bcrypt state.user current new salt)
  | .update transaction => state.executeUpdate process transaction
  | .commit transaction => .ok (state.executeCommit process transaction)
  | .mint origin => .ok (state.executeMint settings process origin)

/-- One step: time passes, a request arrives, or a process runs or fails its
next statement. -/
def step (settings : SessionSettings) (bcrypt : Bcrypt) :
    SessionLabel → SessionState → Except Blocked SessionState
  | .tick later, state =>
    if later < state.now then .error .clockRunsForward else .ok { state with now := later }
  | .begin process request, state =>
    if state.processes process ≠ .idle then .error .busy
    else if ∀ cookie ∈ request.cookie?, cookie ∈ state.minted.map Minted.token then
      .ok (state.setProcess process (.select request))
    else .error .unknownCookie
  | .run process, state => state.runProcess settings bcrypt process
  | .fail process, state =>
    .ok { state.setProcess process (state.processes process).failed with
      lock := if state.lock = some process then none else state.lock }

/-- No request is running, and no token is ahead of the row. -/
structure Initial (state : SessionState) : Prop where
  idle : ∀ process, state.processes process = .idle
  unlocked : state.lock = none
  drawn : state.user.passwordHash ∈ state.hashes
  behind : ∀ minted ∈ state.minted, minted.token.tv ≤ state.user.tokenVersion

end SessionState

/-- Every interleaving of the requests over one account. -/
def sessionSystem (settings : SessionSettings) (bcrypt : Bcrypt) :
    System SessionState SessionLabel :=
  System.ofStep SessionState.Initial (SessionState.step settings bcrypt)

end Vidit.Accounts
