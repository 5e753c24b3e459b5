import Vidit.Accounts.Credentials
import Vidit.Library.RowLock
import Vidit.Library.Transition

/-!
Contract: password-reset links, interleaved statement by statement.

A forgot-password task revokes the account's live tokens, inserts a fresh one
and commits; a reset consumes a token, rewrites the account's password and
commits. An UPDATE of several rows looks for them when it starts, waits for
their locks, and checks each row again.

Owns:
- `mint`, `consume`, `revoke_all_live_for_user` and the two requests that call
  them, over all accounts;
- the system of their interleavings.

Does not own: the email, the audit rows, and the writes of other requests to
the `users` rows, which may change a row at any time.
-/

namespace Vidit.Accounts

open Vidit.Python Vidit.Library

/-- A `password_reset_tokens` row, under its `token_hash`. -/
structure PasswordResetToken where
  userId : Uuid
  expiresAt : Instant
  consumedAt : Option Instant
deriving DecidableEq, Repr

/-- Unconsumed and unexpired. -/
def PasswordResetToken.Live (row : PasswordResetToken) (now : Instant) : Prop :=
  row.consumedAt = none ∧ now ≤ row.expiresAt

instance (row : PasswordResetToken) (now : Instant) : Decidable (row.Live now) := by
  unfold PasswordResetToken.Live
  infer_instance

structure ResetSettings where
  passwordResetTokenMinutes : Nat
  bcrypt : Bcrypt
  /-- `hash_token`. -/
  hashToken : Str → Str
  /-- The draws of `secrets.token_urlsafe`, in order. -/
  tokenUrlsafe : Nat → Str

/-- What a request does next. -/
inductive ResetProcess where
  | idle
  /-- `_process_forgot_password` before it re-fetches the account. -/
  | forgot (userId : Uuid)
  | revoke (userId : Uuid)
  /-- `revoke_all_live_for_user` has read the clock. -/
  | find (userId : Uuid) (asOf : Instant)
  /-- The UPDATE has found its rows; `seen` are the tokens issued by then. -/
  | lock (userId : Uuid) (asOf : Instant) (seen matched : List Str)
  | mint (userId : Uuid) (seen : List Str)
  /-- `mint` has staged the row that the commit inserts. -/
  | insert (seen : List Str) (tokenHash : Str) (row : PasswordResetToken)
  /-- `reset_password` before `consume`. -/
  | reset (rawToken newPassword : Str) (salt : Nat)
  /-- `consume` has read the clock. -/
  | consume (tokenHash : Str) (asOf : Instant) (newPassword : Str) (salt : Nat)
  | select (tokenHash : Str) (userId : Uuid) (newPassword : Str) (salt : Nat)
  | rotate (tokenHash : Str) (userId : Uuid) (passwordHash : Str) (tokenVersion : Nat)
deriving DecidableEq, Repr

/-- The request is a `reset_password`. -/
def ResetProcess.isReset : ResetProcess → Bool
  | .reset _ _ _ | .consume _ _ _ _ | .select _ _ _ _ | .rotate _ _ _ _ => true
  | _ => false

structure ResetState where
  now : Instant
  users : Uuid → Option User
  tokens : Table Nat Str PasswordResetToken
  /-- How many secrets have been drawn. -/
  drawn : Nat
  processes : Nat → ResetProcess
  /-- The tokens whose reset has committed. -/
  resets : List Str

inductive ResetLabel where
  | tick (later : Instant)
  /-- Another request writes or erases an account. -/
  | edit (userId : Uuid) (row : Option User)
  | forgot (process : Nat) (userId : Uuid)
  | reset (process : Nat) (rawToken newPassword : Str) (salt : Nat)
  | run (process : Nat)
  | fail (process : Nat)
deriving DecidableEq, Repr

/-- Why a step is not possible. -/
inductive ResetBlocked where
  | clockRunsForward
  | busy
  | idle
  | rowLocked
deriving DecidableEq, Repr

namespace ResetState

def setProcess (state : ResetState) (process : Nat) (next : ResetProcess) : ResetState :=
  { state with processes := Function.update state.processes process next }

/-- The transaction of a process ends without a trace. -/
def rollback (state : ResetState) (process : Nat) : ResetState :=
  { state.setProcess process .idle with tokens := state.tokens.rollback process }

/-- The account a request re-fetched, unless it is erased or soft-deleted. -/
def forgot (state : ResetState) (process : Nat) (userId : Uuid) : ResetState :=
  match state.users userId with
  | none => state.rollback process
  | some user =>
    if user.deletedAt ≠ none then state.rollback process
    else state.setProcess process (.revoke userId)

/-- The rows of the WHERE clause of `revoke_all_live_for_user`. -/
def revocable (userId : Uuid) (asOf : Instant) (_ : Str) (row : PasswordResetToken) : Bool :=
  row.userId = userId ∧ row.Live asOf

/-- `values(consumed_at=now)`. -/
def consumed (asOf : Instant) (row : PasswordResetToken) : PasswordResetToken :=
  { row with consumedAt := some asOf }

/-- The UPDATE of `revoke_all_live_for_user`, once every row it found is free. -/
def revoke (state : ResetState) (process : Nat) (userId : Uuid) (asOf : Instant)
    (seen matched : List Str) : Except ResetBlocked ResetState :=
  if ∀ tokenHash ∈ matched, state.tokens.Free process tokenHash then
    .ok { state.setProcess process (.mint userId seen) with
          tokens := state.tokens.writeAll process matched fun tokenHash row =>
            some (if revocable userId asOf tokenHash row then consumed asOf row else row) }
  else .error .rowLocked

/-- `mint` stages a row under a fresh secret. -/
def mint (settings : ResetSettings) (state : ResetState) (process : Nat) (userId : Uuid)
    (seen : List Str) : ResetState :=
  let row : PasswordResetToken :=
    { userId := userId
      expiresAt := state.now + minutes settings.passwordResetTokenMinutes
      consumedAt := none }
  { state.setProcess process
      (.insert seen (settings.hashToken (settings.tokenUrlsafe state.drawn)) row) with
    drawn := state.drawn + 1 }

/-- The INSERT and the commit of a forgot-password task. -/
def insert (state : ResetState) (process : Nat) (tokenHash : Str) (row : PasswordResetToken) :
    Except ResetBlocked ResetState :=
  if ¬ state.tokens.Free process tokenHash then .error .rowLocked
  -- the unique `token_hash` and the foreign key
  else if state.tokens.committed tokenHash ≠ none ∨ state.users row.userId = none then
    .ok (state.rollback process)
  else
    .ok { state.setProcess process .idle with
          tokens := (state.tokens.write process tokenHash (some row)).commit process }

/-- The UPDATE of `consume`: no row is the refusal. -/
def consume (state : ResetState) (process : Nat) (tokenHash : Str) (asOf : Instant)
    (newPassword : Str) (salt : Nat) : Except ResetBlocked ResetState :=
  if ¬ state.tokens.Free process tokenHash then .error .rowLocked
  else
    match state.tokens.read process tokenHash with
    | none => .ok (state.rollback process)
    | some row =>
      if row.Live asOf then
        .ok { state.setProcess process (.select tokenHash row.userId newPassword salt) with
              tokens := state.tokens.write process tokenHash (some (consumed asOf row)) }
      else .ok (state.rollback process)

/-- The guards of `reset_password` on the account, and its new columns. -/
def select (settings : ResetSettings) (state : ResetState) (process : Nat) (tokenHash : Str)
    (userId : Uuid) (newPassword : Str) (salt : Nat) : ResetState :=
  match state.users userId with
  | none => state.rollback process
  | some user =>
    if user.deletedAt ≠ none ∨ user.isActive = false then state.rollback process
    else
      state.setProcess process
        (.rotate tokenHash userId (hashPassword settings.bcrypt newPassword salt)
          (bumpTokenVersion user))

/-- The UPDATE of the account and the commit of a reset. -/
def rotate (state : ResetState) (process : Nat) (tokenHash : Str) (userId : Uuid)
    (passwordHash : Str) (tokenVersion : Nat) : ResetState :=
  match state.users userId with
  | none => state.rollback process
  | some user =>
    { state.setProcess process .idle with
      users := Function.update state.users userId
        (some { user with passwordHash := passwordHash, tokenVersion := tokenVersion })
      tokens := state.tokens.commit process
      resets := tokenHash :: state.resets }

/-- The next statement of one process. -/
def runProcess (settings : ResetSettings) (state : ResetState) (process : Nat) :
    Except ResetBlocked ResetState :=
  match state.processes process with
  | .idle => .error .idle
  | .forgot userId => .ok (state.forgot process userId)
  | .revoke userId => .ok (state.setProcess process (.find userId state.now))
  | .find userId asOf =>
    .ok (state.setProcess process (.lock userId asOf state.tokens.keys
      (state.tokens.select process (revocable userId asOf))))
  | .lock userId asOf seen matched => state.revoke process userId asOf seen matched
  | .mint userId seen => .ok (state.mint settings process userId seen)
  | .insert _ tokenHash row => state.insert process tokenHash row
  | .reset rawToken newPassword salt =>
    .ok (state.setProcess process
      (.consume (settings.hashToken rawToken) state.now newPassword salt))
  | .consume tokenHash asOf newPassword salt =>
    state.consume process tokenHash asOf newPassword salt
  | .select tokenHash userId newPassword salt =>
    .ok (state.select settings process tokenHash userId newPassword salt)
  | .rotate tokenHash userId passwordHash tokenVersion =>
    .ok (state.rotate process tokenHash userId passwordHash tokenVersion)

/-- One step: time passes, an account changes, a request arrives, or a process
runs or fails its next statement. -/
def step (settings : ResetSettings) : ResetLabel → ResetState → Except ResetBlocked ResetState
  | .tick later, state =>
    if later < state.now then .error .clockRunsForward else .ok { state with now := later }
  | .edit userId row, state =>
    .ok { state with users := Function.update state.users userId row }
  | .forgot process userId, state =>
    if state.processes process ≠ .idle then .error .busy
    else .ok (state.setProcess process (.forgot userId))
  | .reset process rawToken newPassword salt, state =>
    if state.processes process ≠ .idle then .error .busy
    else .ok (state.setProcess process (.reset rawToken newPassword salt))
  | .run process, state => state.runProcess settings process
  | .fail process, state => .ok (state.rollback process)

/-- Two live links of one account are the same link. -/
def OneLiveLink (state : ResetState) : Prop :=
  ∀ {left right : Str} {leftRow rightRow : PasswordResetToken},
    state.tokens.committed left = some leftRow → state.tokens.committed right = some rightRow →
    leftRow.userId = rightRow.userId → leftRow.Live state.now → rightRow.Live state.now →
      left = right

/-- No request is running and nothing is locked. -/
structure Initial (state : ResetState) : Prop where
  idle : ∀ process, state.processes process = .idle
  unlocked : ∀ tokenHash, state.tokens.holder tokenHash = none
  keyed : ∀ tokenHash, tokenHash ∈ state.tokens.keys ↔
    (state.tokens.committed tokenHash).isSome
  one : state.OneLiveLink
  fresh : state.resets = []

end ResetState

/-- Every interleaving of forgot-password tasks and resets. -/
def resetSystem (settings : ResetSettings) : System ResetState ResetLabel :=
  System.ofStep ResetState.Initial (ResetState.step settings)

end Vidit.Accounts
