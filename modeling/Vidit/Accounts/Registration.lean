import Vidit.Accounts.Credentials
import Vidit.Library.RowLock
import Vidit.Library.Transition

/-!
Contract: registration by invite and confirmation link, interleaved statement by
statement.

A registration stages a pending row under a fresh token; a resend replaces the
token; a confirm claims the row, adds the account and redeems the invite; a
revocation ends an invite. Each commits on its own, or rolls back.

Owns:
- `create_pending_registration`, `resend_pending_registration`,
  `confirm_pending_registration`, `revoke_invite_code` and `revoke_own`, over all
  rows;
- the system of their interleavings.

Does not own: the X handle an invite binds, the promotion of an admin, the audit
rows and the emails.
-/

namespace Vidit.Accounts

open Vidit.Python Vidit.Library

/-- A `pending_registrations` row, under its `id`. -/
structure PendingRegistration where
  email : Str
  username : Str
  passwordHash : Str
  inviteCodeId : Uuid
  tokenHash : Str
  expiresAt : Instant
deriving DecidableEq, Repr

/-- An `invite_codes` row, under its `id`. -/
structure InviteCode where
  code : Str
  usedById : Option Uuid
  usedAt : Option Instant
  expiresAt : Option Instant
  revokedAt : Option Instant
deriving DecidableEq, Repr

inductive InviteCodeStatus where
  | active
  | revoked
  | expired
  | exhausted
deriving DecidableEq, Repr

/-- `invite_code_status`. -/
def inviteCodeStatus (now : Instant) (invite : InviteCode) : InviteCodeStatus :=
  if invite.revokedAt ≠ none then .revoked
  else if invite.expiresAt.any (· < now) then .expired
  else if invite.usedAt ≠ none then .exhausted
  else .active

/-- The secrets of the confirmation links and the row ids, as they are drawn. -/
structure RegistrationSecrets where
  /-- `secrets.token_urlsafe`. -/
  tokenUrlsafe : Nat → Str
  hashToken : Str → Str
  uuid : Nat → Uuid
  distinct : Function.Injective fun index => hashToken (tokenUrlsafe index)

/-- The hash of the token drawn at an index. -/
def RegistrationSecrets.token (secrets : RegistrationSecrets) (index : Nat) : Str :=
  secrets.hashToken (secrets.tokenUrlsafe index)

/-- `CONFIRMATION_TOKEN_MINUTES`. -/
def confirmationTokenMinutes : Nat := 60 * 24

/-- The `code` of a refusal. -/
inductive RegistrationError where
  | invalidInvite
  | emailAlreadyRegistered
  | usernameAlreadyTaken
  | emailPending
  | usernamePending
  | invalidOrExpiredToken
  /-- `revoke_own`. -/
  | inviteCodeNotFound
  | inviteCodeNotActive
deriving DecidableEq, Repr

structure RegistrationForm where
  email : Str
  username : Str
  passwordHash : Str
  inviteCode : Str
deriving DecidableEq, Repr

/-- What follows the sweep of expired rows. -/
inductive AfterSweep where
  | create (form : RegistrationForm) (inviteId : Uuid)
  | resend (email : Str)
deriving DecidableEq, Repr

/-- The pending row a confirm has claimed. -/
structure Claim where
  pendingId : Uuid
  row : PendingRegistration
deriving DecidableEq, Repr

/-- What a request does next. -/
inductive RegistrationProcess where
  | idle
  | raised (refusal : RegistrationError)
  /-- `create_pending_registration` before it validates the invite. -/
  | register (form : RegistrationForm)
  /-- `_delete_expired`. -/
  | sweep (next : AfterSweep)
  | sweepRows (next : AfterSweep) (asOf : Instant) (matched : List Uuid)
  | sweepCommit (next : AfterSweep)
  | checkEmail (form : RegistrationForm) (inviteId : Uuid)
  | checkUsername (form : RegistrationForm) (inviteId : Uuid)
  | checkPendingEmail (form : RegistrationForm) (inviteId : Uuid)
  | checkPendingUsername (form : RegistrationForm) (inviteId : Uuid)
  /-- The pending row is staged. -/
  | insertPending (pendingId : Uuid) (row : PendingRegistration)
  | commitPending
  | findPending (email : Str)
  | updatePending (pendingId : Uuid) (tokenHash : Str) (expiresAt : Instant)
  | commitResend (pendingId : Uuid)
  /-- `confirm_pending_registration` before its DELETE. -/
  | confirm (tokenHash : Str)
  | claimRows (tokenHash : Str) (asOf : Instant) (matched : List Uuid)
  | confirmEmail (claim : Claim)
  | confirmUsername (claim : Claim)
  | confirmInvite (claim : Claim)
  /-- A refusal that commits the claim first. -/
  | dismiss (refusal : RegistrationError)
  | insertUser (claim : Claim)
  | consume (claim : Claim) (userId : Uuid)
  /-- The invite is redeemed, at the step recorded. -/
  | finish (claim : Claim) (userId : Uuid) (redeemedStep : Nat)
  /-- `revoke_own` before it locks the row. -/
  | revokeOwn (inviteId : Uuid)
  /-- `revoke_invite_code`. -/
  | revoke (inviteId : Uuid)
  | updateInvite (inviteId : Uuid) (revokedAt : Instant)
  | commitRevoke (inviteId : Uuid)
deriving DecidableEq, Repr

namespace RegistrationProcess

/-- The request has returned or raised. -/
def ended : RegistrationProcess → Bool
  | .idle | .raised _ => true
  | _ => false

/-- The request is a `confirm_pending_registration`. -/
def isConfirm : RegistrationProcess → Bool
  | .confirm _ | .claimRows _ _ _ | .confirmEmail _ | .confirmUsername _ | .confirmInvite _
  | .dismiss _ | .insertUser _ | .consume _ _ | .finish _ _ _ => true
  | _ => false

end RegistrationProcess

/-- An account a confirm has committed. -/
structure ConfirmedAccount where
  userId : Uuid
  inviteId : Uuid
  tokenHash : Str
  /-- The step at which it redeemed its invite. -/
  redeemedStep : Nat
deriving DecidableEq, Repr

structure RegistrationState where
  now : Instant
  /-- How many steps there were. -/
  steps : Nat
  /-- How many tokens, and how many ids, have been drawn. -/
  tokensDrawn : Nat
  idsDrawn : Nat
  users : Table Nat Uuid User
  pending : Table Nat Uuid PendingRegistration
  invites : Table Nat Uuid InviteCode
  processes : Nat → RegistrationProcess
  /-- The accounts confirms have committed. -/
  accounts : List ConfirmedAccount
  /-- The tokens a committed resend has replaced. -/
  replaced : List Str
  /-- The revocations that have committed, with the step of each. -/
  revocations : List (Uuid × Nat)

inductive RegistrationLabel where
  | tick (later : Instant)
  /-- Another path adds an account or an invite. -/
  | enroll (userId : Uuid) (user : User)
  | mint (inviteId : Uuid) (invite : InviteCode)
  | register (process : Nat) (form : RegistrationForm)
  | resend (process : Nat) (email : Str)
  | confirm (process : Nat) (rawToken : Str)
  | revoke (process : Nat) (inviteId : Uuid)
  | revokeOwn (process : Nat) (inviteId : Uuid)
  | run (process : Nat)
  | fail (process : Nat)
deriving DecidableEq, Repr

/-- Why a step is not possible. -/
inductive RegistrationBlocked where
  | clockRunsForward
  | busy
  | ended
  | taken
  | rowLocked
deriving DecidableEq, Repr

namespace RegistrationState

def setProcess (state : RegistrationState) (process : Nat) (next : RegistrationProcess) :
    RegistrationState :=
  { state with processes := Function.update state.processes process next }

/-- The transaction of a process ends without a trace. -/
def rollback (state : RegistrationState) (process : Nat) (next : RegistrationProcess) :
    RegistrationState :=
  { state.setProcess process next with
    users := state.users.rollback process
    pending := state.pending.rollback process
    invites := state.invites.rollback process }

/-- The transaction of a process ends, and its rows stand. -/
def commit (state : RegistrationState) (process : Nat) (next : RegistrationProcess) :
    RegistrationState :=
  { state.setProcess process next with
    users := state.users.commit process
    pending := state.pending.commit process
    invites := state.invites.commit process }

/-! ### Creating and resending -/

/-- The unique columns of `pending_registrations`. -/
def pendingClash (row other : PendingRegistration) : Bool :=
  other.email = row.email || other.username = row.username || other.tokenHash = row.tokenHash

/-- `validate_invite_code`. -/
def register (state : RegistrationState) (process : Nat) (form : RegistrationForm) :
    RegistrationState :=
  match (state.invites.select process fun _ invite =>
    invite.code = form.inviteCode && inviteCodeStatus state.now invite = .active).head? with
  | none => state.rollback process (.raised .invalidInvite)
  | some inviteId => state.setProcess process (.sweep (.create form inviteId))

def isExpired (asOf : Instant) (row : PendingRegistration) : Bool :=
  row.expiresAt < asOf

/-- The DELETE of `_delete_expired`, once every row it found is free. -/
def sweepRows (state : RegistrationState) (process : Nat) (next : AfterSweep) (asOf : Instant)
    (matched : List Uuid) : Except RegistrationBlocked RegistrationState :=
  if ∀ pendingId ∈ matched, state.pending.Free process pendingId then
    .ok { state.setProcess process (.sweepCommit next) with
          pending := state.pending.writeAll process matched fun _ row =>
            if isExpired asOf row then none else some row }
  else .error .rowLocked

/-- What follows the commit of the sweep. -/
def afterSweep : AfterSweep → RegistrationProcess
  | .create form inviteId => .checkEmail form inviteId
  | .resend email => .findPending email

/-- A SELECT finds a row. -/
def finds {ρ : Type} (table : Table Nat Uuid ρ) (process : Nat) (wanted : ρ → Bool) : Bool :=
  (table.select process fun _ => wanted) ≠ []

/-- The row `create_pending_registration` stages, under fresh secrets. -/
def stagePending (secrets : RegistrationSecrets) (state : RegistrationState) (process : Nat)
    (form : RegistrationForm) (inviteId : Uuid) : RegistrationState :=
  { state.setProcess process (.insertPending (secrets.uuid state.idsDrawn)
      { email := form.email
        username := form.username
        passwordHash := form.passwordHash
        inviteCodeId := inviteId
        tokenHash := secrets.token state.tokensDrawn
        expiresAt := state.now + minutes confirmationTokenMinutes }) with
    tokensDrawn := state.tokensDrawn + 1
    idsDrawn := state.idsDrawn + 1 }

/-- The INSERT of a pending row. -/
def insertPending (state : RegistrationState) (process : Nat) (pendingId : Uuid)
    (row : PendingRegistration) : Except RegistrationBlocked RegistrationState :=
  if state.pending.Awaits process (pendingClash row) ∨ ¬ state.pending.Free process pendingId then
    .error .rowLocked
  else if state.pending.Clashes process (pendingClash row) then
    .ok (state.rollback process (.raised
      (if state.pending.Clashes process fun other => other.username = row.username then
        .usernamePending
      else .emailPending)))
  else if state.pending.read process pendingId ≠ none ∨
      state.invites.read process row.inviteCodeId = none then
    -- the primary key and the foreign key
    .ok (state.rollback process (.raised .emailPending))
  else
    .ok { state.setProcess process .commitPending with
          pending := state.pending.write process pendingId (some row) }

/-- `resend_pending_registration` after its sweep. -/
def findPending (secrets : RegistrationSecrets) (state : RegistrationState) (process : Nat)
    (email : Str) : RegistrationState :=
  match (state.pending.select process fun _ row => row.email = email).head? with
  | none => state.rollback process .idle
  | some pendingId =>
    { state.setProcess process (.updatePending pendingId (secrets.token state.tokensDrawn)
        (state.now + minutes confirmationTokenMinutes)) with
      tokensDrawn := state.tokensDrawn + 1 }

/-- The UPDATE of a resend; a row that is gone fails it. -/
def updatePending (state : RegistrationState) (process : Nat) (pendingId : Uuid)
    (tokenHash : Str) (expiresAt : Instant) : Except RegistrationBlocked RegistrationState :=
  if ¬ state.pending.Free process pendingId then .error .rowLocked
  else
    match state.pending.read process pendingId with
    | none => .ok (state.rollback process .idle)
    | some row =>
      .ok { state.setProcess process (.commitResend pendingId) with
            pending := state.pending.write process pendingId
              (some { row with tokenHash := tokenHash, expiresAt := expiresAt }) }

/-- The commit of a resend: its row's old token is replaced. -/
def commitResend (state : RegistrationState) (process : Nat) (pendingId : Uuid) :
    RegistrationState :=
  { state.commit process .idle with
    replaced := ((state.pending.committed pendingId).map (·.tokenHash)).toList ++
      state.replaced }

/-! ### Confirming -/

/-- The WHERE of the DELETE of a confirm. -/
def claimable (tokenHash : Str) (asOf : Instant) (row : PendingRegistration) : Bool :=
  row.tokenHash = tokenHash && asOf ≤ row.expiresAt

/-- The DELETE ... RETURNING of a confirm: no row is the refusal. -/
def claimRows (state : RegistrationState) (process : Nat) (tokenHash : Str) (asOf : Instant)
    (matched : List Uuid) : Except RegistrationBlocked RegistrationState :=
  if ∀ pendingId ∈ matched, state.pending.Free process pendingId then
    let claims := matched.filterMap fun pendingId =>
      ((state.pending.read process pendingId).filter (claimable tokenHash asOf)).map
        fun row => (⟨pendingId, row⟩ : Claim)
    match claims.head? with
    | none => .ok (state.rollback process (.raised .invalidOrExpiredToken))
    | some claim =>
      .ok { state.setProcess process (.confirmEmail claim) with
            pending := state.pending.writeAll process matched fun _ row =>
              if claimable tokenHash asOf row then none else some row }
  else .error .rowLocked

/-- The check of a confirm on the invite, which an earlier commit may have ended. -/
def confirmInvite (state : RegistrationState) (process : Nat) (claim : Claim) :
    RegistrationState :=
  match state.invites.read process claim.row.inviteCodeId with
  | none => state.setProcess process (.dismiss .invalidInvite)
  | some invite =>
    if inviteCodeStatus state.now invite = .active then
      state.setProcess process (.insertUser claim)
    else state.setProcess process (.dismiss .invalidInvite)

/-- The `users` row of a confirmed registration. -/
def confirmedUser (userId : Uuid) (row : PendingRegistration) : User where
  id := userId
  username := row.username
  email := row.email
  passwordHash := row.passwordHash
  isActive := true
  isAdmin := false
  lastSeenAt := none
  deletedAt := none
  tokenVersion := 0

/-- The unique columns of `users`. -/
def userClash (row : PendingRegistration) (user : User) : Bool :=
  user.email = row.email || user.username = row.username

/-- The INSERT of the account, under a fresh id. -/
def insertUser (secrets : RegistrationSecrets) (state : RegistrationState) (process : Nat)
    (claim : Claim) : Except RegistrationBlocked RegistrationState :=
  let userId := secrets.uuid state.idsDrawn
  if state.users.Awaits process (userClash claim.row) ∨ ¬ state.users.Free process userId then
    .error .rowLocked
  else if state.users.Clashes process (userClash claim.row) ∨
      state.users.read process userId ≠ none then
    .ok (state.rollback process (.raised
      (if state.users.Clashes process fun user => user.username = claim.row.username then
        .usernameAlreadyTaken
      else .emailAlreadyRegistered)))
  else
    .ok { state.setProcess process (.consume claim userId) with
          idsDrawn := state.idsDrawn + 1
          users := state.users.write process userId (some (confirmedUser userId claim.row)) }

/-- The UPDATE of `consume_invite_code`: no row is the refusal. -/
def consume (state : RegistrationState) (process : Nat) (claim : Claim) (userId : Uuid) :
    Except RegistrationBlocked RegistrationState :=
  let inviteId := claim.row.inviteCodeId
  if ¬ state.invites.Free process inviteId then .error .rowLocked
  else
    match state.invites.read process inviteId with
    | none => .ok (state.rollback process (.raised .invalidInvite))
    | some invite =>
      if invite.revokedAt = none ∧ invite.usedAt = none then
        .ok { state.setProcess process (.finish claim userId state.steps) with
              invites := state.invites.write process inviteId
                (some { invite with usedById := some userId, usedAt := some state.now }) }
      else .ok (state.rollback process (.raised .invalidInvite))

/-- The commit of a confirm. -/
def finish (state : RegistrationState) (process : Nat) (claim : Claim) (userId : Uuid)
    (redeemedStep : Nat) : RegistrationState :=
  { state.commit process .idle with
    accounts := ⟨userId, claim.row.inviteCodeId, claim.row.tokenHash, redeemedStep⟩ ::
      state.accounts }

/-! ### Revoking -/

/-- The SELECT ... FOR UPDATE of `revoke_own`. -/
def revokeOwn (state : RegistrationState) (process : Nat) (inviteId : Uuid) :
    Except RegistrationBlocked RegistrationState :=
  if ¬ state.invites.Free process inviteId then .error .rowLocked
  else
    match state.invites.read process inviteId with
    | none => .ok (state.rollback process (.raised .inviteCodeNotFound))
    | some invite =>
      if inviteCodeStatus state.now invite = .active then
        .ok { state.setProcess process (.revoke inviteId) with
              invites := state.invites.lock process inviteId }
      else .ok (state.rollback process (.raised .inviteCodeNotActive))

/-- The read of `revoke_invite_code`, which keeps an earlier revocation. -/
def revoke (state : RegistrationState) (process : Nat) (inviteId : Uuid) : RegistrationState :=
  match state.invites.read process inviteId with
  | none => state.rollback process .idle
  | some invite =>
    if invite.revokedAt ≠ none then state.rollback process .idle
    else state.setProcess process (.updateInvite inviteId state.now)

/-- Its UPDATE; a row that is gone fails it. -/
def updateInvite (state : RegistrationState) (process : Nat) (inviteId : Uuid)
    (revokedAt : Instant) : Except RegistrationBlocked RegistrationState :=
  if ¬ state.invites.Free process inviteId then .error .rowLocked
  else
    match state.invites.read process inviteId with
    | none => .ok (state.rollback process .idle)
    | some invite =>
      .ok { state.setProcess process (.commitRevoke inviteId) with
            invites := state.invites.write process inviteId
              (some { invite with revokedAt := some revokedAt }) }

def commitRevoke (state : RegistrationState) (process : Nat) (inviteId : Uuid) :
    RegistrationState :=
  { state.commit process .idle with revocations := (inviteId, state.steps) :: state.revocations }

/-! ### The system -/

/-- The next statement of one process. -/
def runProcess (secrets : RegistrationSecrets) (state : RegistrationState) (process : Nat) :
    Except RegistrationBlocked RegistrationState :=
  match state.processes process with
  | .idle | .raised _ => .error .ended
  | .register form => .ok (state.register process form)
  | .sweep next =>
    .ok (state.setProcess process (.sweepRows next state.now
      (state.pending.select process fun _ => isExpired state.now)))
  | .sweepRows next asOf matched => state.sweepRows process next asOf matched
  | .sweepCommit next => .ok (state.commit process (afterSweep next))
  | .checkEmail form inviteId =>
    .ok (if finds state.users process fun user => user.email = form.email then
        state.rollback process (.raised .emailAlreadyRegistered)
      else state.setProcess process (.checkUsername form inviteId))
  | .checkUsername form inviteId =>
    .ok (if finds state.users process fun user => user.username = form.username then
        state.rollback process (.raised .usernameAlreadyTaken)
      else state.setProcess process (.checkPendingEmail form inviteId))
  | .checkPendingEmail form inviteId =>
    .ok (if finds state.pending process fun row => row.email = form.email then
        state.rollback process (.raised .emailPending)
      else state.setProcess process (.checkPendingUsername form inviteId))
  | .checkPendingUsername form inviteId =>
    .ok (if finds state.pending process fun row => row.username = form.username then
        state.rollback process (.raised .usernamePending)
      else state.stagePending secrets process form inviteId)
  | .insertPending pendingId row => state.insertPending process pendingId row
  | .commitPending => .ok (state.commit process .idle)
  | .findPending email => .ok (state.findPending secrets process email)
  | .updatePending pendingId tokenHash expiresAt =>
    state.updatePending process pendingId tokenHash expiresAt
  | .commitResend pendingId => .ok (state.commitResend process pendingId)
  | .confirm tokenHash =>
    .ok (state.setProcess process (.claimRows tokenHash state.now
      (state.pending.select process fun _ => claimable tokenHash state.now)))
  | .claimRows tokenHash asOf matched => state.claimRows process tokenHash asOf matched
  | .confirmEmail claim =>
    .ok (state.setProcess process
      (if finds state.users process fun user => user.email = claim.row.email then
        .dismiss .emailAlreadyRegistered
      else .confirmUsername claim))
  | .confirmUsername claim =>
    .ok (state.setProcess process
      (if finds state.users process fun user => user.username = claim.row.username then
        .dismiss .usernameAlreadyTaken
      else .confirmInvite claim))
  | .confirmInvite claim => .ok (state.confirmInvite process claim)
  | .dismiss refusal => .ok (state.commit process (.raised refusal))
  | .insertUser claim => state.insertUser secrets process claim
  | .consume claim userId => state.consume process claim userId
  | .finish claim userId redeemedStep => .ok (state.finish process claim userId redeemedStep)
  | .revokeOwn inviteId => state.revokeOwn process inviteId
  | .revoke inviteId => .ok (state.revoke process inviteId)
  | .updateInvite inviteId revokedAt => state.updateInvite process inviteId revokedAt
  | .commitRevoke inviteId => .ok (state.commitRevoke process inviteId)

/-- A request arrives. -/
def start (state : RegistrationState) (process : Nat) (next : RegistrationProcess) :
    Except RegistrationBlocked RegistrationState :=
  if (state.processes process).ended then .ok (state.setProcess process next) else .error .busy

/-- A committed row of another path, under an id nobody uses. -/
def added {ρ : Type} (table : Table Nat Uuid ρ) (id : Uuid) (row : ρ) :
    Except RegistrationBlocked (Table Nat Uuid ρ) :=
  if table.holder id = none ∧ table.committed id = none then
    .ok { keys := id :: table.keys
          cell := Function.update table.cell id ⟨some row, none⟩ }
  else .error .taken

/-- What a label does, before the step is counted. -/
def act (secrets : RegistrationSecrets) (label : RegistrationLabel) (state : RegistrationState) :
    Except RegistrationBlocked RegistrationState :=
  match label with
  | .tick later =>
    if later < state.now then .error .clockRunsForward else .ok { state with now := later }
  | .enroll userId user => do
    let users ← added state.users userId user
    pure { state with users := users }
  | .mint inviteId invite => do
    let invites ← added state.invites inviteId invite
    pure { state with invites := invites }
  | .register process form => state.start process (.register form)
  | .resend process email => state.start process (.sweep (.resend email))
  | .confirm process rawToken =>
    state.start process
      (if rawToken = [] then .raised .invalidOrExpiredToken
      else .confirm (secrets.hashToken rawToken))
  | .revoke process inviteId => state.start process (.revoke inviteId)
  | .revokeOwn process inviteId => state.start process (.revokeOwn inviteId)
  | .run process => state.runProcess secrets process
  | .fail process => .ok (state.rollback process .idle)

/-- One step: time passes, another path adds a row, a request arrives, or a process
runs or fails its next statement. -/
def step (secrets : RegistrationSecrets) (label : RegistrationLabel) (state : RegistrationState) :
    Except RegistrationBlocked RegistrationState := do
  let next ← state.act secrets label
  pure { next with steps := state.steps + 1 }

/-- Nothing is pending, running or locked. -/
structure Initial (state : RegistrationState) : Prop where
  drawn : state.tokensDrawn = 0
  ended : ∀ process, (state.processes process).ended = true
  users : ∀ id, state.users.holder id = none
  pending : ∀ id, state.pending.cell id = ⟨none, none⟩
  invites : ∀ id, state.invites.holder id = none
  accounts : state.accounts = []
  replaced : state.replaced = []
  revocations : state.revocations = []

end RegistrationState

/-- Every interleaving of registrations, resends, confirms and revocations. -/
def registrationSystem (secrets : RegistrationSecrets) :
    System RegistrationState RegistrationLabel :=
  System.ofStep RegistrationState.Initial (RegistrationState.step secrets)

end Vidit.Accounts
