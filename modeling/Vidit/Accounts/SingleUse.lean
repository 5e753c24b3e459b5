import Vidit.Accounts.Registration
import Vidit.Library.Checks

/-!
Contract: an invite and a confirmation link are each used once.

Owns:
- `SingleUse`, the promises of the registration flow under every interleaving;
- where a confirmation token can be (`Place`), and that it is in one place only;
- `singleUse`, that every run keeps the promises.

Proof shape: a token moves from the process that staged it to a pending row, and
from there to the accounts or to the replaced tokens; a step moves one token at
most (`single_of_moves`). What a confirm owes (`Owes`) is kept by the steps of the
others, which leave the rows it holds alone.
-/

namespace Vidit.Accounts

open Vidit.Python Vidit.Library

/-- Invites and confirmation links are single use. -/
structure SingleUse (system : System RegistrationState RegistrationLabel) : Prop where
  /-- An invite is redeemed by one account, which is the one it names. -/
  invites : ∀ {state}, system.Reachable state →
    (state.accounts.map ConfirmedAccount.inviteId).Nodup ∧
      ∀ account ∈ state.accounts, (state.users.committed account.userId).isSome ∧
        ∃ invite, state.invites.committed account.inviteId = some invite ∧
          invite.usedAt ≠ none ∧ invite.usedById = some account.userId
  /-- A confirmation token creates one account. -/
  tokens : ∀ {state}, system.Reachable state →
    (state.accounts.map ConfirmedAccount.tokenHash).Nodup
  /-- A token a resend replaced creates none. -/
  replaced : ∀ {state}, system.Reachable state →
    ∀ account ∈ state.accounts, account.tokenHash ∉ state.replaced
  /-- A confirm that raises leaves the accounts and the invites as they were. -/
  raised : ∀ {state next process label}, system.Reachable state →
    (state.processes process).isConfirm → label = .run process ∨ label = .fail process →
    system.Step state label next → (next.processes process).ended →
    next.accounts = state.accounts →
      (∀ id, next.users.committed id = state.users.committed id ∧
        next.invites.committed id = state.invites.committed id) ∧
      next.users.Holdless process ∧ next.invites.Holdless process
  /-- An account was redeemed before any revocation of its invite committed. -/
  revoked : ∀ {state}, system.Reachable state → ∀ account ∈ state.accounts,
    ∀ step, (account.inviteId, step) ∈ state.revocations → account.redeemedStep < step

/-! ### An invite's life -/

/-- The same invite, redeemed or revoked if it was. -/
structure InviteCode.Ages (before after : InviteCode) : Prop where
  used : before.usedAt ≠ none → after.usedAt ≠ none ∧ after.usedById = before.usedById
  revoked : before.revokedAt ≠ none → after.revokedAt ≠ none

theorem InviteCode.Ages.refl (invite : InviteCode) : invite.Ages invite :=
  ⟨fun used => ⟨used, rfl⟩, id⟩

theorem rel_refl (value : Option InviteCode) : Option.Rel InviteCode.Ages value value := by
  cases value with
  | none => exact .none
  | some invite => exact .some (.refl invite)

theorem exists_of_rel {invite : InviteCode} {value : Option InviteCode}
    (rel : Option.Rel InviteCode.Ages (some invite) value) :
    ∃ later, value = some later ∧ invite.Ages later := by
  cases rel with
  | some ages => exact ⟨_, rfl, ages⟩

theorem InviteCode.Ages.trans {first second third : InviteCode} (earlier : first.Ages second)
    (later : second.Ages third) : first.Ages third := by
  refine ⟨?_, fun revoked => later.revoked (earlier.revoked revoked)⟩
  intro used
  have middle := earlier.used used
  have last := later.used middle.1
  exact ⟨last.1, last.2.trans middle.2⟩

namespace RegistrationProcess

/-- The token a process is about to write. -/
def staged : RegistrationProcess → Option Str
  | .insertPending _ row => some row.tokenHash
  | .updatePending _ tokenHash _ => some tokenHash
  | _ => none

end RegistrationProcess

namespace RegistrationState

/-! ### Where a token is -/

inductive Place where
  | staged (process : Nat)
  | pending (id : Uuid)
  | confirmed
  | replaced

/-- The token is in that place. -/
def At (state : RegistrationState) (tokenHash : Str) : Place → Prop
  | .staged process => (state.processes process).staged = some tokenHash
  | .pending id => ∃ row, state.pending.Shows id row ∧ row.tokenHash = tokenHash
  | .confirmed => tokenHash ∈ state.accounts.map ConfirmedAccount.tokenHash
  | .replaced => tokenHash ∈ state.replaced

/-- A token is in one place. -/
def Single (state : RegistrationState) : Prop :=
  ∀ tokenHash left right, state.At tokenHash left → state.At tokenHash right → left = right

def Issued (secrets : RegistrationSecrets) (state : RegistrationState) (tokenHash : Str) : Prop :=
  ∃ index < state.tokensDrawn, tokenHash = secrets.token index

variable {secrets : RegistrationSecrets} {state next : RegistrationState} {actor process : Nat}

theorem Single.of_subset (single : state.Single)
    (old : ∀ tokenHash place, next.At tokenHash place → state.At tokenHash place) :
    next.Single :=
  fun tokenHash left right isLeft isRight =>
    single tokenHash left right (old _ _ isLeft) (old _ _ isRight)

/-- A step that brings one token to one place, and leaves it nowhere else. -/
theorem single_of_moves (single : state.Single) (token : Str) (target : Place)
    (new : ∀ tokenHash place, next.At tokenHash place →
      state.At tokenHash place ∨ tokenHash = token ∧ place = target)
    (leaves : ∀ place, state.At token place → next.At token place → place = target) :
    next.Single := by
  intro tokenHash left right isLeft isRight
  rcases new _ _ isLeft with oldLeft | ⟨rfl, rfl⟩
  · rcases new _ _ isRight with oldRight | ⟨rfl, rfl⟩
    · exact single _ _ _ oldLeft oldRight
    · exact leaves left oldLeft isLeft
  · rcases new _ _ isRight with oldRight | ⟨_, same⟩
    · exact (leaves right oldRight isRight).symm
    · exact same.symm

/-- A token that is not drawn yet is nowhere. -/
theorem not_issued_drawn (secrets : RegistrationSecrets) (state : RegistrationState) :
    ¬ Issued secrets state (secrets.token state.tokensDrawn) := by
  rintro ⟨index, small, same⟩
  have equal := secrets.distinct same
  omega

/-! ### What a process owes -/

/-- The process holds no row. -/
structure Rests (state : RegistrationState) (process : Nat) : Prop where
  users : state.users.Holdless process
  pending : state.pending.Holdless process
  invites : state.invites.Holdless process

/-- The process has deleted the row of its claim. -/
structure Claims (state : RegistrationState) (process : Nat) (claim : Claim) : Prop where
  holds : state.pending.holder claim.pendingId = some process
  committed : ∃ row, state.pending.committed claim.pendingId = some row ∧
    row.tokenHash = claim.row.tokenHash
  deleted : state.pending.read process claim.pendingId = none

/-- The process has added the account. -/
structure Adds (state : RegistrationState) (process : Nat) (userId : Uuid) : Prop where
  holds : state.users.holder userId = some process
  added : (state.users.read process userId).isSome

/-- The process has redeemed an invite that was free to redeem. -/
structure Redeems (state : RegistrationState) (process : Nat) (inviteId userId : Uuid)
    (redeemedStep : Nat) : Prop where
  holds : state.invites.holder inviteId = some process
  active : ∃ invite, state.invites.committed inviteId = some invite ∧
    invite.usedAt = none ∧ invite.revokedAt = none
  redeemed : ∃ invite, state.invites.read process inviteId = some invite ∧
    invite.usedAt ≠ none ∧ invite.usedById = some userId
  earlier : redeemedStep < state.steps

def Owes (state : RegistrationState) (process : Nat) : RegistrationProcess → Prop
  | .idle | .raised _ | .confirm _ | .claimRows _ _ _ | .findPending _ | .updatePending _ _ _ =>
    state.Rests process
  | .confirmEmail claim | .confirmUsername claim | .confirmInvite claim | .insertUser claim =>
    state.Claims process claim ∧ state.users.Holdless process ∧ state.invites.Holdless process
  | .dismiss _ => state.users.Holdless process ∧ state.invites.Holdless process
  | .consume claim userId =>
    state.Claims process claim ∧ state.Adds process userId ∧ state.invites.Holdless process
  | .finish claim userId redeemedStep =>
    state.Claims process claim ∧ state.Adds process userId ∧
      state.Redeems process claim.row.inviteCodeId userId redeemedStep
  | .commitResend pendingId =>
    state.pending.holder pendingId = some process ∧
      ∃ old new, state.pending.committed pendingId = some old ∧
        state.pending.read process pendingId = some new ∧ new.tokenHash ≠ old.tokenHash
  | .commitRevoke inviteId =>
    state.invites.holder inviteId = some process ∧
      ∃ invite, state.invites.read process inviteId = some invite ∧ invite.revokedAt ≠ none
  | _ => True

/-- The invariant of every run. -/
structure Sound (secrets : RegistrationSecrets) (state : RegistrationState) : Prop where
  single : state.Single
  issued : ∀ tokenHash place, state.At tokenHash place → Issued secrets state tokenHash
  /-- What a transaction would commit keeps every account, and only ages an invite. -/
  users : ∀ process id, (state.users.committed id).isSome → (state.users.read process id).isSome
  invites : ∀ process id, Option.Rel InviteCode.Ages (state.invites.committed id)
    (state.invites.read process id)
  owes : ∀ process, state.Owes process (state.processes process)
  tokens : (state.accounts.map ConfirmedAccount.tokenHash).Nodup
  redeemedOnce : (state.accounts.map ConfirmedAccount.inviteId).Nodup
  redeemed : ∀ account ∈ state.accounts, (state.users.committed account.userId).isSome ∧
    ∃ invite, state.invites.committed account.inviteId = some invite ∧
      invite.usedAt ≠ none ∧ invite.usedById = some account.userId
  revoked : ∀ revocation ∈ state.revocations,
    ∃ invite, state.invites.committed revocation.1 = some invite ∧ invite.revokedAt ≠ none
  before : ∀ account ∈ state.accounts, account.redeemedStep < state.steps ∧
    ∀ step, (account.inviteId, step) ∈ state.revocations → account.redeemedStep < step

/-! ### What the others leave -/

/-- A step as one of the other processes sees it. -/
structure Evolves (actor : Nat) (state next : RegistrationState) : Prop where
  users : Table.StepBy actor state.users next.users
  pending : Table.StepBy actor state.pending next.pending
  invites : Table.StepBy actor state.invites next.invites
  steps : state.steps ≤ next.steps
  usersStand : ∀ id, (state.users.committed id).isSome → (next.users.committed id).isSome
  invitesAge : ∀ {id invite}, state.invites.committed id = some invite →
    ∃ later, next.invites.committed id = some later ∧ invite.Ages later

theorem Claims.evolves {claim : Claim} (claims : state.Claims process claim)
    (evolves : Evolves actor state next) (other : process ≠ actor) :
    next.Claims process claim where
  holds := (evolves.pending.holder other).mpr claims.holds
  committed := by
    rw [evolves.pending.committed other claims.holds]
    exact claims.committed
  deleted := by
    rw [evolves.pending.read other claims.holds]
    exact claims.deleted

theorem Adds.evolves {userId : Uuid} (adds : state.Adds process userId)
    (evolves : Evolves actor state next) (other : process ≠ actor) :
    next.Adds process userId where
  holds := (evolves.users.holder other).mpr adds.holds
  added := by
    rw [evolves.users.read other adds.holds]
    exact adds.added

theorem Redeems.evolves {inviteId userId : Uuid} {redeemedStep : Nat}
    (redeems : state.Redeems process inviteId userId redeemedStep)
    (evolves : Evolves actor state next) (other : process ≠ actor) :
    next.Redeems process inviteId userId redeemedStep where
  holds := (evolves.invites.holder other).mpr redeems.holds
  active := by
    rw [evolves.invites.committed other redeems.holds]
    exact redeems.active
  redeemed := by
    rw [evolves.invites.read other redeems.holds]
    exact redeems.redeemed
  earlier := lt_of_lt_of_le redeems.earlier evolves.steps

/-- The steps of the others keep what a process has secured. -/
theorem Owes.evolves (evolves : Evolves actor state next) (other : process ≠ actor)
    {running : RegistrationProcess} (owes : state.Owes process running) :
    next.Owes process running := by
  have users : state.users.Holdless process → next.users.Holdless process :=
    evolves.users.holdless other
  have invites : state.invites.Holdless process → next.invites.Holdless process :=
    evolves.invites.holdless other
  have rests : state.Rests process → next.Rests process := fun rests =>
    ⟨users rests.users, evolves.pending.holdless other rests.pending, invites rests.invites⟩
  cases running with
  | idle | raised _ | confirm _ | claimRows _ _ _ | findPending _ | updatePending _ _ _ =>
      exact rests owes
  | confirmEmail claim | confirmUsername claim | confirmInvite claim | insertUser claim =>
      exact ⟨owes.1.evolves evolves other, users owes.2.1, invites owes.2.2⟩
  | dismiss refusal => exact ⟨users owes.1, invites owes.2⟩
  | consume claim userId =>
      exact ⟨owes.1.evolves evolves other, owes.2.1.evolves evolves other, invites owes.2.2⟩
  | finish claim userId redeemedStep =>
      exact ⟨owes.1.evolves evolves other, owes.2.1.evolves evolves other,
        owes.2.2.evolves evolves other⟩
  | commitResend pendingId =>
      rcases owes with ⟨holds, rows⟩
      refine ⟨(evolves.pending.holder other).mpr holds, ?_⟩
      rw [evolves.pending.committed other holds, evolves.pending.read other holds]
      exact rows
  | commitRevoke inviteId =>
      rcases owes with ⟨holds, row⟩
      refine ⟨(evolves.invites.holder other).mpr holds, ?_⟩
      rw [evolves.invites.read other holds]
      exact row
  | _ => trivial

/-- A step that leaves the tables alone. -/
theorem Evolves.quiet (actor : Nat) (users : next.users = state.users)
    (pending : next.pending = state.pending) (invites : next.invites = state.invites)
    (steps : state.steps ≤ next.steps) : Evolves actor state next := by
  refine ⟨users ▸ .refl _, pending ▸ .refl _, invites ▸ .refl _, steps, ?_, ?_⟩
  · rw [users]
    exact fun _ stands => stands
  · intro id invite committed
    rw [invites]
    exact ⟨invite, committed, .refl invite⟩

/-- What a process has secured stands while the tables do: such a step could be
another's. -/
theorem Owes.of_tables {running : RegistrationProcess} (owes : state.Owes process running)
    (users : next.users = state.users) (pending : next.pending = state.pending)
    (invites : next.invites = state.invites) (steps : state.steps ≤ next.steps) :
    next.Owes process running :=
  owes.evolves (.quiet (process + 1) users pending invites steps) (Nat.succ_ne_self process).symm

/-! ### Steps -/

theorem setProcess_self (state : RegistrationState) (process : Nat)
    (running : RegistrationProcess) :
    (state.setProcess process running).processes process = running :=
  Function.update_self ..

theorem setProcess_of_ne (state : RegistrationState) {process other : Nat}
    (different : other ≠ process) (running : RegistrationProcess) :
    (state.setProcess process running).processes other = state.processes other :=
  Function.update_of_ne different ..

/-- A step of one process as the rest of the state sees it: which statement comes
next, and which records stay. -/
structure Turns (process : Nat) (running : RegistrationProcess)
    (state next : RegistrationState) : Prop where
  processes : next.processes = Function.update state.processes process running
  accounts : next.accounts = state.accounts
  replaced : next.replaced = state.replaced
  revocations : next.revocations = state.revocations
  drawn : state.tokensDrawn ≤ next.tokensDrawn

variable {running : RegistrationProcess}

theorem Turns.self (turns : Turns process running state next) :
    next.processes process = running := by
  rw [turns.processes]
  exact Function.update_self ..

theorem Turns.others (turns : Turns process running state next) {other : Nat}
    (different : other ≠ process) : next.processes other = state.processes other := by
  rw [turns.processes]
  exact Function.update_of_ne different ..

theorem Issued.mono {tokenHash : Str} (issued : Issued secrets state tokenHash)
    (drawn : state.tokensDrawn ≤ next.tokensDrawn) : Issued secrets next tokenHash := by
  rcases issued with ⟨index, small, same⟩
  exact ⟨index, lt_of_lt_of_le small drawn, same⟩

/-- A token that a step neither stages nor shows anew was where it is. -/
theorem Turns.at_of_at (turns : Turns process running state next) {tokenHash : Str} {place : Place}
    (isAt : next.At tokenHash place)
    (staged : place = .staged process → running.staged = some tokenHash →
      state.At tokenHash place)
    (pending : ∀ id row, place = .pending id → next.pending.Shows id row →
      row.tokenHash = tokenHash → state.At tokenHash place) :
    state.At tokenHash place := by
  cases place with
  | staged stager =>
      by_cases mine : stager = process
      · subst mine
        apply staged rfl
        rw [← turns.self]
        exact isAt
      · have same := turns.others mine
        simp only [At, same] at isAt
        exact isAt
  | pending id =>
      rcases isAt with ⟨row, shown, same⟩
      exact pending id row rfl shown same
  | confirmed =>
      simp only [At, turns.accounts] at isAt
      exact isAt
  | replaced =>
      simp only [At, turns.replaced] at isAt
      exact isAt

/-- A step that stages no token and shows no row anew brings no token anywhere. -/
theorem Turns.at_of_shows (turns : Turns process running state next)
    (unstaged : running.staged = none)
    (pending : ∀ id row, next.pending.Shows id row → state.pending.Shows id row)
    {tokenHash : Str} {place : Place} (isAt : next.At tokenHash place) :
    state.At tokenHash place := by
  refine turns.at_of_at isAt ?_ ?_
  · intro _ staged
    rw [unstaged] at staged
    contradiction
  · rintro id row rfl shown same
    exact ⟨row, pending id row shown, same⟩

/-- A step of one process is sound when what it writes and secures is. -/
theorem Sound.acts (sound : state.Sound secrets) (turns : Turns process running state next)
    (evolves : Evolves process state next) (single : next.Single)
    (issued : ∀ tokenHash place, next.At tokenHash place → Issued secrets next tokenHash)
    (users : ∀ id, (next.users.committed id).isSome → (next.users.read process id).isSome)
    (invites : ∀ id, Option.Rel InviteCode.Ages (next.invites.committed id)
      (next.invites.read process id))
    (owes : next.Owes process running) : next.Sound secrets := by
  refine ⟨single, issued, ?_, ?_, ?_, turns.accounts ▸ sound.tokens,
    turns.accounts ▸ sound.redeemedOnce, ?_, ?_, ?_⟩
  · intro reader id stands
    by_cases mine : reader = process
    · subst mine
      exact users id stands
    · by_cases held : state.users.holder id = some reader
      · rw [evolves.users.committed mine held] at stands
        rw [evolves.users.read mine held]
        exact sound.users reader id stands
      · have heldAfter : next.users.holder id ≠ some reader := by
          rw [Ne, evolves.users.holder mine]
          exact held
        rw [Table.read_of_holder_ne _ _ heldAfter]
        exact stands
  · intro reader id
    by_cases mine : reader = process
    · subst mine
      exact invites id
    · by_cases held : state.invites.holder id = some reader
      · rw [evolves.invites.committed mine held, evolves.invites.read mine held]
        exact sound.invites reader id
      · have heldAfter : next.invites.holder id ≠ some reader := by
          rw [Ne, evolves.invites.holder mine]
          exact held
        rw [Table.read_of_holder_ne _ _ heldAfter]
        exact rel_refl _
  · intro other
    by_cases mine : other = process
    · subst mine
      rw [turns.self]
      exact owes
    · rw [turns.others mine]
      exact (sound.owes other).evolves evolves mine
  · intro account member
    rw [turns.accounts] at member
    rcases sound.redeemed account member with ⟨stands, invite, committed, used, named⟩
    rcases evolves.invitesAge committed with ⟨later, after, ages⟩
    have kept := ages.used used
    exact ⟨evolves.usersStand _ stands, later, after, kept.1, kept.2.trans named⟩
  · intro revocation member
    rw [turns.revocations] at member
    rcases sound.revoked revocation member with ⟨invite, committed, revoked⟩
    rcases evolves.invitesAge committed with ⟨later, after, ages⟩
    exact ⟨later, after, ages.revoked revoked⟩
  · intro account member
    rw [turns.accounts] at member
    rw [turns.revocations]
    have before := sound.before account member
    exact ⟨lt_of_lt_of_le before.1 evolves.steps, before.2⟩

/-- A step that brings no token anywhere is sound when its writes are. -/
theorem Sound.keeps (sound : state.Sound secrets) (turns : Turns process running state next)
    (evolves : Evolves process state next) (unstaged : running.staged = none)
    (pending : ∀ id row, next.pending.Shows id row → state.pending.Shows id row)
    (users : ∀ id, (next.users.committed id).isSome → (next.users.read process id).isSome)
    (invites : ∀ id, Option.Rel InviteCode.Ages (next.invites.committed id)
      (next.invites.read process id))
    (owes : next.Owes process running) : next.Sound secrets := by
  have old : ∀ tokenHash place, next.At tokenHash place → state.At tokenHash place :=
    fun tokenHash place isAt => turns.at_of_shows unstaged pending isAt
  refine sound.acts turns evolves (sound.single.of_subset old) ?_ users invites owes
  intro tokenHash place isAt
  exact (sound.issued _ _ (old _ _ isAt)).mono turns.drawn

/-- A process moves on to a statement that needs no more than is secured. -/
theorem Sound.moves (sound : state.Sound secrets) (process : Nat) {running : RegistrationProcess}
    (unstaged : running.staged = none) (owes : state.Owes process running) :
    (state.setProcess process running).Sound secrets :=
  sound.keeps ⟨rfl, rfl, rfl, rfl, le_refl _⟩ (.quiet process rfl rfl rfl (le_refl _)) unstaged
    (fun _ _ shown => shown) (sound.users process) (sound.invites process)
    (owes.of_tables rfl rfl rfl (le_refl state.steps))

theorem Sound.rollback (sound : state.Sound secrets) (process : Nat)
    {running : RegistrationProcess} (ended : running.ended = true) :
    (state.rollback process running).Sound secrets := by
  have rests : (state.rollback process running).Rests process :=
    ⟨Table.holdless_rollback _ _, Table.holdless_rollback _ _, Table.holdless_rollback _ _⟩
  have evolves : Evolves process state (state.rollback process running) := by
    refine ⟨.rollback _ _, .rollback _ _, .rollback _ _, le_refl _, ?_, ?_⟩
    · intro id stands
      exact (Table.committed_rollback state.users process id).symm ▸ stands
    · intro id invite committed
      exact ⟨invite, (Table.committed_rollback state.invites process id).trans committed,
        .refl invite⟩
  refine sound.keeps ⟨rfl, rfl, rfl, rfl, le_refl _⟩ evolves ?_ (fun _ _ => .rollback) ?_ ?_ ?_
  · cases running with
    | idle | raised _ => rfl
    | _ => contradiction
  · intro id stands
    rw [Table.read_of_holdless _ _ rests.users]
    exact stands
  · intro id
    rw [Table.read_of_holdless _ _ rests.invites]
    exact rel_refl _
  · cases running with
    | idle | raised _ => exact rests
    | _ => contradiction

theorem rests_commit (state : RegistrationState) (process : Nat) (running : RegistrationProcess) :
    (state.commit process running).Rests process :=
  ⟨Table.holdless_commit _ _, Table.holdless_commit _ _, Table.holdless_commit _ _⟩

theorem Sound.commit (sound : state.Sound secrets) (process : Nat)
    {running : RegistrationProcess} (unstaged : running.staged = none)
    (owes : (state.commit process running).Owes process running) :
    (state.commit process running).Sound secrets := by
  have rests := rests_commit state process running
  have evolves : Evolves process state (state.commit process running) := by
    refine ⟨.commit _ _, .commit _ _, .commit _ _, le_refl _, ?_, ?_⟩
    · intro id stands
      have reads := sound.users process id stands
      rw [← Table.committed_commit] at reads
      exact reads
    · intro id invite committed
      have reads := sound.invites process id
      rw [committed] at reads
      rcases exists_of_rel reads with ⟨later, isRead, ages⟩
      exact ⟨later, (Table.committed_commit state.invites process id).trans isRead, ages⟩
  refine sound.keeps ⟨rfl, rfl, rfl, rfl, le_refl _⟩ evolves unstaged (fun _ _ => .commit) ?_ ?_
    owes
  · intro id stands
    rw [Table.read_of_holdless _ _ rests.users]
    exact stands
  · intro id
    rw [Table.read_of_holdless _ _ rests.invites]
    exact rel_refl _

/-- Time passes, and the step is counted. -/
theorem Sound.later (sound : state.Sound secrets) (now : Instant) {steps : Nat}
    (later : state.steps ≤ steps) :
    ({ state with now := now, steps := steps } : RegistrationState).Sound secrets := by
  refine ⟨sound.single, sound.issued, sound.users, sound.invites, ?_, sound.tokens,
    sound.redeemedOnce, sound.redeemed, sound.revoked, ?_⟩
  · intro process
    exact (sound.owes process).of_tables rfl rfl rfl later
  · intro account member
    have before := sound.before account member
    exact ⟨lt_of_lt_of_le before.1 later, before.2⟩

/-! ### Tokens that move -/

/-- A process draws the next token, which it is about to write. -/
theorem Sound.stages (sound : state.Sound secrets) (turns : Turns process running state next)
    (staged : running.staged = some (secrets.token state.tokensDrawn))
    (drawn : next.tokensDrawn = state.tokensDrawn + 1) (users : next.users = state.users)
    (pending : next.pending = state.pending) (invites : next.invites = state.invites)
    (steps : state.steps ≤ next.steps) (owes : state.Owes process running) :
    next.Sound secrets := by
  have new : ∀ tokenHash place, next.At tokenHash place → state.At tokenHash place ∨
      tokenHash = secrets.token state.tokensDrawn ∧ place = .staged process := by
    intro tokenHash place isAt
    by_cases here : tokenHash = secrets.token state.tokensDrawn ∧ place = .staged process
    · exact .inr here
    · left
      refine turns.at_of_at isAt ?_ ?_
      · intro isStaged same
        rw [staged] at same
        exact absurd ⟨(Option.some.inj same).symm, isStaged⟩ here
      · rintro id row rfl shown same
        rw [pending] at shown
        exact ⟨row, shown, same⟩
  refine sound.acts turns (.quiet process users pending invites steps) ?_ ?_ ?_ ?_
    (owes.of_tables users pending invites steps)
  · apply single_of_moves sound.single _ (.staged process) new
    intro place old _
    exact absurd (sound.issued _ _ old) (not_issued_drawn secrets state)
  · intro tokenHash place isAt
    rcases new tokenHash place isAt with old | ⟨rfl, _⟩
    · exact (sound.issued _ _ old).mono turns.drawn
    · exact ⟨state.tokensDrawn, by omega, rfl⟩
  · rw [users]
    exact sound.users process
  · rw [invites]
    exact sound.invites process

/-- A process writes the token it staged under a pending row. -/
theorem Sound.places (sound : state.Sound secrets) (turns : Turns process running state next)
    (unstaged : running.staged = none) {id : Uuid} {row : PendingRegistration}
    (staged : (state.processes process).staged = some row.tokenHash)
    (free : state.pending.Free process id) (users : next.users = state.users)
    (pending : next.pending = state.pending.write process id (some row))
    (invites : next.invites = state.invites) (steps : state.steps ≤ next.steps)
    (owes : next.Owes process running) : next.Sound secrets := by
  have new : ∀ tokenHash place, next.At tokenHash place → state.At tokenHash place ∨
      tokenHash = row.tokenHash ∧ place = .pending id := by
    intro tokenHash place isAt
    by_cases here : tokenHash = row.tokenHash ∧ place = .pending id
    · exact .inr here
    · left
      refine turns.at_of_at isAt ?_ ?_
      · intro _ same
        rw [unstaged] at same
        contradiction
      · rintro shownId shownRow rfl shown same
        rw [pending] at shown
        rcases shown.write with old | ⟨rfl, written⟩
        · exact ⟨shownRow, old, same⟩
        · rw [← Option.some.inj written] at same
          exact absurd ⟨same.symm, rfl⟩ here
  have evolves : Evolves process state next := by
    refine ⟨users ▸ .refl _, pending ▸ .write _ free, invites ▸ .refl _, steps, ?_, ?_⟩
    · rw [users]
      exact fun _ stands => stands
    · intro inviteId invite committed
      rw [invites]
      exact ⟨invite, committed, .refl invite⟩
  refine sound.acts turns evolves ?_ ?_ ?_ ?_ owes
  · apply single_of_moves sound.single _ (.pending id) new
    intro place old isAt
    have here := sound.single _ _ _ old (show state.At row.tokenHash (.staged process) from staged)
    subst here
    have gone : (next.processes process).staged = some row.tokenHash := isAt
    rw [turns.self, unstaged] at gone
    contradiction
  · intro tokenHash place isAt
    rcases new tokenHash place isAt with old | ⟨rfl, _⟩
    · exact (sound.issued _ _ old).mono turns.drawn
    · exact (sound.issued _ (.staged process) staged).mono turns.drawn
  · rw [users]
    exact sound.users process
  · rw [invites]
    exact sound.invites process

/-- A process deletes pending rows. -/
theorem Sound.deletes (sound : state.Sound secrets) (process : Nat) {matched : List Uuid}
    {running : RegistrationProcess} (condition : PendingRegistration → Bool)
    (free : ∀ id ∈ matched, state.pending.Free process id) (unstaged : running.staged = none)
    (owes : ({ state.setProcess process running with
      pending := state.pending.writeAll process matched fun _ row =>
        if condition row then none else some row } : RegistrationState).Owes process running) :
    ({ state.setProcess process running with
      pending := state.pending.writeAll process matched fun _ row =>
        if condition row then none else some row } : RegistrationState).Sound secrets := by
  refine sound.keeps ⟨rfl, rfl, rfl, rfl, le_refl _⟩ ?_ unstaged ?_ (sound.users process)
    (sound.invites process) owes
  · exact ⟨.refl _, .writeAll _ free, .refl _, le_refl _, fun _ stands => stands,
      fun {_ invite} committed => ⟨invite, committed, .refl invite⟩⟩
  · intro id row shown
    rcases shown.writeAll with old | ⟨before, reads, kept⟩
    · exact old
    · split at kept
      · contradiction
      · rw [← Option.some.inj kept]
        exact .of_read reads

/-! ### Registering and resending -/

theorem register_sound (sound : state.Sound secrets) (process : Nat) (form : RegistrationForm) :
    (state.register process form).Sound secrets := by
  unfold register
  split
  · exact sound.rollback process rfl
  · exact sound.moves process rfl trivial

theorem sweepRows_sound (sound : state.Sound secrets) {after : AfterSweep} {asOf : Instant}
    {matched : List Uuid} (swept : state.sweepRows process after asOf matched = .ok next) :
    next.Sound secrets := by
  unfold sweepRows at swept
  split at swept
  · rename_i free
    cases swept
    exact sound.deletes process (isExpired asOf) free rfl trivial
  · contradiction

theorem stagePending_sound (sound : state.Sound secrets) (process : Nat) (form : RegistrationForm)
    (inviteId : Uuid) : (state.stagePending secrets process form inviteId).Sound secrets :=
  sound.stages ⟨rfl, rfl, rfl, rfl, Nat.le_succ _⟩ rfl rfl rfl rfl rfl (le_refl _) trivial

theorem insertPending_sound (sound : state.Sound secrets) {id : Uuid} {row : PendingRegistration}
    (here : state.processes process = .insertPending id row)
    (inserted : state.insertPending process id row = .ok next) : next.Sound secrets := by
  unfold insertPending at inserted
  split at inserted
  · contradiction
  · rename_i unlocked
    split at inserted
    · cases inserted
      apply sound.rollback
      rfl
    · split at inserted
      · cases inserted
        exact sound.rollback process rfl
      · cases inserted
        have free : state.pending.Free process id := by
          by_contra locked
          exact unlocked (.inr locked)
        exact sound.places ⟨rfl, rfl, rfl, rfl, le_refl _⟩ rfl (by rw [here]; rfl) free rfl rfl rfl
          (le_refl _) trivial

theorem findPending_sound (sound : state.Sound secrets) {email : Str}
    (here : state.processes process = .findPending email) :
    (state.findPending secrets process email).Sound secrets := by
  have owes := sound.owes process
  rw [here] at owes
  unfold findPending
  split
  · exact sound.rollback process rfl
  · exact sound.stages ⟨rfl, rfl, rfl, rfl, Nat.le_succ _⟩ rfl rfl rfl rfl rfl (le_refl _) owes

theorem updatePending_sound (sound : state.Sound secrets) {id : Uuid} {tokenHash : Str}
    {expiresAt : Instant} (here : state.processes process = .updatePending id tokenHash expiresAt)
    (updated : state.updatePending process id tokenHash expiresAt = .ok next) :
    next.Sound secrets := by
  have rests : state.Rests process := by
    have owes := sound.owes process
    rw [here] at owes
    exact owes
  have staged : (state.processes process).staged = some tokenHash := by
    rw [here]
    rfl
  unfold updatePending at updated
  split at updated
  · contradiction
  · rename_i free
    split at updated
    · cases updated
      exact sound.rollback process rfl
    · rename_i old reads
      cases updated
      refine sound.places ⟨rfl, rfl, rfl, rfl, le_refl _⟩ rfl staged (not_not.mp free) rfl rfl rfl
        (le_refl _) ⟨?_, old, _, ?_, Table.read_write_self .., ?_⟩
      · exact (Table.holder_write ..).trans (if_pos rfl)
      · rw [← reads, Table.read_of_holdless _ _ rests.pending]
        exact Table.committed_write ..
      · -- the new token is staged, so no row shows it
        intro same
        have isAt : state.At tokenHash (.pending id) := ⟨old, .of_read reads, same.symm⟩
        have clash := sound.single _ _ _ isAt (show state.At tokenHash (.staged process) from staged)
        contradiction

/-- A token that is nowhere may be replaced. -/
theorem Sound.replaces (sound : state.Sound secrets) {tokenHash : Str}
    (issued : Issued secrets state tokenHash) (nowhere : ∀ place, ¬ state.At tokenHash place) :
    ({ state with replaced := tokenHash :: state.replaced } : RegistrationState).Sound secrets := by
  have new : ∀ other place,
      ({ state with replaced := tokenHash :: state.replaced } : RegistrationState).At other place →
      state.At other place ∨ other = tokenHash ∧ place = .replaced := by
    intro other place isAt
    cases place with
    | replaced =>
        rcases List.mem_cons.mp isAt with rfl | old
        · exact .inr ⟨rfl, rfl⟩
        · exact .inl old
    | _ => exact .inl isAt
  refine ⟨?_, ?_, sound.users, sound.invites, ?_, sound.tokens, sound.redeemedOnce,
    sound.redeemed, sound.revoked, sound.before⟩
  · apply single_of_moves sound.single _ .replaced new
    intro place old _
    exact absurd old (nowhere place)
  · intro other place isAt
    rcases new other place isAt with old | ⟨rfl, _⟩
    · exact sound.issued _ _ old
    · exact issued
  · intro process
    exact (sound.owes process).of_tables rfl rfl rfl (le_refl state.steps)

/-- The token of a row whose holder replaced or deleted it is nowhere after the commit. -/
theorem Sound.nowhere_of_commit (sound : state.Sound secrets) {id : Uuid}
    {row : PendingRegistration} {running : RegistrationProcess} (unstaged : running.staged = none)
    (holds : state.pending.holder id = some process)
    (committed : state.pending.committed id = some row)
    (changed : ∀ other, state.pending.read process id = some other →
      other.tokenHash ≠ row.tokenHash) (place : Place) :
    ¬ (state.commit process running).At row.tokenHash place := by
  intro isAt
  have turns : Turns process running state (state.commit process running) :=
    ⟨rfl, rfl, rfl, rfl, le_refl _⟩
  have old := turns.at_of_shows unstaged (fun _ _ => .commit) isAt
  have here := sound.single _ _ _ old
    (show state.At row.tokenHash (.pending id) from ⟨row, .of_committed committed, rfl⟩)
  subst here
  rcases isAt with ⟨other, shown, same⟩
  exact changed other (Table.Shows.commit_held holds shown) same

theorem commitResend_sound (sound : state.Sound secrets) {id : Uuid}
    (here : state.processes process = .commitResend id) :
    (state.commitResend process id).Sound secrets := by
  have owes := sound.owes process
  rw [here] at owes
  rcases owes with ⟨holds, old, new, committed, reads, different⟩
  have ended : (state.commit process .idle).Sound secrets :=
    sound.commit process rfl (rests_commit state process .idle)
  have nowhere : ∀ place, ¬ (state.commit process .idle).At old.tokenHash place := by
    apply sound.nowhere_of_commit rfl holds committed
    intro other isRead
    rw [reads] at isRead
    rw [← Option.some.inj isRead]
    exact different
  have issued : Issued secrets (state.commit process .idle) old.tokenHash :=
    sound.issued _ (.pending id) ⟨old, .of_committed committed, rfl⟩
  unfold commitResend
  rw [committed]
  exact ended.replaces issued nowhere

/-! ### Confirming -/

theorem claimRows_sound (sound : state.Sound secrets) {tokenHash : Str} {asOf : Instant}
    {matched : List Uuid} (here : state.processes process = .claimRows tokenHash asOf matched)
    (claimed : state.claimRows process tokenHash asOf matched = .ok next) : next.Sound secrets := by
  have rests : state.Rests process := by
    have owes := sound.owes process
    rw [here] at owes
    exact owes
  unfold claimRows at claimed
  split at claimed
  · rename_i free
    dsimp only at claimed
    split at claimed
    · cases claimed
      exact sound.rollback process rfl
    · rename_i claim first
      cases claimed
      have member := List.mem_of_head? first
      simp only [List.mem_filterMap, Option.map_eq_some_iff, Option.filter_eq_some_iff] at member
      rcases member with ⟨pendingId, isMatched, row, ⟨reads, wanted⟩, rfl⟩
      refine sound.deletes process (claimable tokenHash asOf) free rfl
        ⟨⟨?_, ⟨row, ?_, rfl⟩, ?_⟩, rests.users, rests.invites⟩
      · refine (Table.holder_writeAll ..).trans (if_pos ⟨isMatched, ?_⟩)
        rw [reads]
        rfl
      · rw [← reads, Table.read_of_holdless _ _ rests.pending]
        exact Table.committed_writeAll ..
      · show (Table.writeAll ..).read process pendingId = none
        rw [Table.read_writeAll, if_pos isMatched, reads, Option.bind_some, if_pos wanted]
  · contradiction

theorem confirmInvite_sound (sound : state.Sound secrets) {claim : Claim}
    (here : state.processes process = .confirmInvite claim) :
    (state.confirmInvite process claim).Sound secrets := by
  have owes := sound.owes process
  rw [here] at owes
  unfold confirmInvite
  split
  · exact sound.moves process rfl owes.2
  · split
    · exact sound.moves process rfl owes
    · exact sound.moves process rfl owes.2

theorem insertUser_sound (sound : state.Sound secrets) {claim : Claim}
    (here : state.processes process = .insertUser claim)
    (inserted : state.insertUser secrets process claim = .ok next) : next.Sound secrets := by
  have owes := sound.owes process
  rw [here] at owes
  rcases owes with ⟨claims, users, invites⟩
  unfold insertUser at inserted
  dsimp only at inserted
  split at inserted
  · contradiction
  · rename_i unlocked
    split at inserted
    · cases inserted
      exact sound.rollback process rfl
    · cases inserted
      have free : state.users.Free process (secrets.uuid state.idsDrawn) := by
        by_contra locked
        exact unlocked (.inr locked)
      refine sound.keeps ⟨rfl, rfl, rfl, rfl, le_refl _⟩ ?_ rfl (fun _ _ shown => shown) ?_
        (sound.invites process) ⟨⟨claims.holds, claims.committed, claims.deleted⟩, ⟨?_, ?_⟩, invites⟩
      · refine ⟨.write _ free, .refl _, .refl _, le_refl _, ?_, ?_⟩
        · intro id stands
          rw [Table.committed_write]
          exact stands
        · exact fun {_ invite} committed => ⟨invite, committed, .refl invite⟩
      · intro id stands
        rw [Table.committed_write] at stands
        rw [Table.read_write]
        split
        · rw [if_pos rfl]
          rfl
        · exact sound.users process id stands
      · exact (Table.holder_write ..).trans (if_pos rfl)
      · show (Table.read ..).isSome
        rw [Table.read_write_self]
        rfl

/-- A write of an invite that ages what the process read of it. -/
theorem Sound.ages (sound : state.Sound secrets) (turns : Turns process running state next)
    (unstaged : running.staged = none) {id : Uuid} {invite : InviteCode} {value : InviteCode}
    (free : state.invites.Free process id) (reads : state.invites.read process id = some invite)
    (ages : ∀ before, state.invites.committed id = some before → before.Ages invite →
      before.Ages value)
    (users : next.users = state.users) (pending : next.pending = state.pending)
    (invites : next.invites = state.invites.write process id (some value))
    (steps : state.steps ≤ next.steps) (owes : next.Owes process running) :
    next.Sound secrets := by
  have committed : ∀ other, next.invites.committed other = state.invites.committed other := by
    intro other
    rw [invites, Table.committed_write]
  refine sound.keeps turns ?_ unstaged ?_ ?_ ?_ owes
  · refine ⟨users ▸ .refl _, pending ▸ .refl _, invites ▸ .write _ free, steps, ?_, ?_⟩
    · rw [users]
      exact fun _ stands => stands
    · intro other row isCommitted
      exact ⟨row, (committed other).trans isCommitted, .refl row⟩
  · rw [pending]
    exact fun _ _ shown => shown
  · rw [users]
    exact sound.users process
  · intro other
    rw [committed, invites, Table.read_write]
    by_cases here : other = id
    · subst here
      rw [if_pos rfl, if_pos rfl]
      have earlier := sound.invites process other
      rw [reads] at earlier
      cases before : state.invites.committed other with
      | none =>
          rw [before] at earlier
          cases earlier
      | some first =>
          rw [before] at earlier
          cases earlier with
          | some aged => exact .some (ages first before aged)
    · rw [if_neg here]
      exact sound.invites process other

theorem consume_sound (sound : state.Sound secrets) {claim : Claim} {userId : Uuid}
    (here : state.processes process = .consume claim userId)
    (consumed : state.consume process claim userId = .ok next) :
    ({ next with steps := state.steps + 1 } : RegistrationState).Sound secrets := by
  have owes := sound.owes process
  rw [here] at owes
  rcases owes with ⟨claims, adds, invites⟩
  unfold consume at consumed
  dsimp only at consumed
  split at consumed
  · contradiction
  · rename_i free
    split at consumed
    · cases consumed
      exact (sound.rollback process rfl).later _ (Nat.le_succ state.steps)
    · rename_i invite reads
      split at consumed
      · rename_i unused
        cases consumed
        refine sound.ages ⟨rfl, rfl, rfl, rfl, le_refl _⟩ rfl (not_not.mp free) reads ?_ rfl rfl rfl
          (Nat.le_succ _) ⟨⟨claims.holds, claims.committed, claims.deleted⟩,
            ⟨adds.holds, adds.added⟩, ⟨?_, ⟨invite, ?_, unused.2, unused.1⟩,
              ⟨_, Table.read_write_self .., Option.some_ne_none _, rfl⟩, Nat.lt_succ_self _⟩⟩
        · intro before committed earlier
          rw [← Table.read_of_holdless _ _ invites, reads] at committed
          cases committed
          exact ⟨fun used => absurd unused.2 used, fun revoked => absurd unused.1 revoked⟩
        · exact (Table.holder_write ..).trans (if_pos rfl)
        · rw [← reads, Table.read_of_holdless _ _ invites]
          exact Table.committed_write ..
      · cases consumed
        exact (sound.rollback process rfl).later _ (Nat.le_succ state.steps)

theorem finish_sound (sound : state.Sound secrets) {claim : Claim} {userId : Uuid}
    {redeemedStep : Nat} (here : state.processes process = .finish claim userId redeemedStep) :
    (state.finish process claim userId redeemedStep).Sound secrets := by
  have owes := sound.owes process
  rw [here] at owes
  rcases owes with ⟨claims, adds, redeems⟩
  rcases claims.committed with ⟨row, isPending, sameToken⟩
  rcases redeems.active with ⟨invite, isInvite, unused, unrevoked⟩
  have ended : (state.commit process .idle).Sound secrets :=
    sound.commit process rfl (rests_commit state process .idle)
  have nowhere : ∀ place, ¬ (state.commit process .idle).At claim.row.tokenHash place := by
    rw [← sameToken]
    apply sound.nowhere_of_commit rfl claims.holds isPending
    intro other reads
    rw [claims.deleted] at reads
    contradiction
  have new : ∀ tokenHash place,
      (state.finish process claim userId redeemedStep).At tokenHash place →
      (state.commit process .idle).At tokenHash place ∨
        tokenHash = claim.row.tokenHash ∧ place = .confirmed := by
    intro tokenHash place isAt
    cases place with
    | confirmed =>
        rcases List.mem_cons.mp isAt with rfl | old
        · exact .inr ⟨rfl, rfl⟩
        · exact .inl old
    | _ => exact .inl isAt
  refine ⟨?_, ?_, ended.users, ended.invites, ?_, ?_, ?_, ?_, ended.revoked, ?_⟩
  · apply single_of_moves ended.single _ .confirmed new
    intro place old _
    exact absurd old (nowhere place)
  · intro tokenHash place isAt
    rcases new tokenHash place isAt with old | ⟨rfl, _⟩
    · exact ended.issued _ _ old
    · exact sound.issued _ (.pending claim.pendingId) ⟨row, .of_committed isPending, sameToken⟩
  · intro other
    exact (ended.owes other).of_tables rfl rfl rfl (le_refl state.steps)
  · exact List.nodup_cons.mpr ⟨nowhere .confirmed, sound.tokens⟩
  · refine List.nodup_cons.mpr ⟨?_, sound.redeemedOnce⟩
    -- an invite an account redeemed is committed as used
    intro member
    rcases List.mem_map.mp member with ⟨account, isAccount, same⟩
    rcases sound.redeemed account isAccount with ⟨_, other, isOther, used, _⟩
    rw [same, isInvite] at isOther
    cases isOther
    exact used unused
  · intro account member
    rcases List.mem_cons.mp member with rfl | old
    · rcases redeems.redeemed with ⟨redeemed, isRead, used, named⟩
      refine ⟨?_, redeemed, ?_, used, named⟩
      · exact (Table.committed_commit state.users process userId).symm ▸ adds.added
      · exact (Table.committed_commit state.invites process _).trans isRead
    · exact ended.redeemed account old
  · intro account member
    rcases List.mem_cons.mp member with rfl | old
    · refine ⟨redeems.earlier, ?_⟩
      -- an invite whose revocation committed is not redeemed
      intro step revocation
      rcases sound.revoked _ revocation with ⟨other, isOther, revoked⟩
      rw [isInvite] at isOther
      cases isOther
      exact absurd unrevoked revoked
    · exact sound.before account old

/-! ### Revoking -/

theorem revokeOwn_sound (sound : state.Sound secrets) {inviteId : Uuid}
    (locked : state.revokeOwn process inviteId = .ok next) : next.Sound secrets := by
  unfold revokeOwn at locked
  split at locked
  · contradiction
  · rename_i free
    split at locked
    · cases locked
      exact sound.rollback process rfl
    · rename_i invite reads
      split at locked
      · cases locked
        refine sound.ages ⟨rfl, rfl, rfl, rfl, le_refl _⟩ rfl (not_not.mp free) reads
          (fun _ _ aged => aged) rfl rfl ?_ (le_refl _) trivial
        show state.invites.lock process inviteId = _
        unfold Table.lock
        rw [reads]
      · cases locked
        exact sound.rollback process rfl

theorem revoke_sound (sound : state.Sound secrets) (process : Nat) (inviteId : Uuid) :
    (state.revoke process inviteId).Sound secrets := by
  unfold revoke
  split
  · exact sound.rollback process rfl
  · split
    · exact sound.rollback process rfl
    · exact sound.moves process rfl trivial

theorem updateInvite_sound (sound : state.Sound secrets) {inviteId : Uuid} {revokedAt : Instant}
    (updated : state.updateInvite process inviteId revokedAt = .ok next) : next.Sound secrets := by
  unfold updateInvite at updated
  split at updated
  · contradiction
  · rename_i free
    split at updated
    · cases updated
      exact sound.rollback process rfl
    · rename_i invite reads
      cases updated
      refine sound.ages ⟨rfl, rfl, rfl, rfl, le_refl _⟩ rfl (not_not.mp free) reads ?_ rfl rfl rfl
        (le_refl _) ⟨(Table.holder_write ..).trans (if_pos rfl), _, Table.read_write_self ..,
          Option.some_ne_none _⟩
      intro before _ aged
      exact aged.trans ⟨fun used => ⟨used, rfl⟩, fun _ => Option.some_ne_none _⟩

theorem commitRevoke_sound (sound : state.Sound secrets) {inviteId : Uuid}
    (here : state.processes process = .commitRevoke inviteId) :
    (state.commitRevoke process inviteId).Sound secrets := by
  have owes := sound.owes process
  rw [here] at owes
  rcases owes with ⟨_, invite, reads, revoked⟩
  have ended : (state.commit process .idle).Sound secrets :=
    sound.commit process rfl (rests_commit state process .idle)
  refine ⟨ended.single, ended.issued, ended.users, ended.invites, ?_, ended.tokens,
    ended.redeemedOnce, ended.redeemed, ?_, ?_⟩
  · intro other
    exact (ended.owes other).of_tables rfl rfl rfl (le_refl state.steps)
  · intro revocation member
    rcases List.mem_cons.mp member with rfl | old
    · exact ⟨invite, (Table.committed_commit state.invites process inviteId).trans reads, revoked⟩
    · exact ended.revoked revocation old
  · intro account member
    have before := sound.before account member
    refine ⟨before.1, ?_⟩
    intro step revocation
    rcases List.mem_cons.mp revocation with same | old
    · rw [(Prod.mk.inj same).2]
      exact before.1
    · exact before.2 step old

/-! ### Every step -/

/-- A row of another path is free and new. -/
theorem of_added {ρ : Type} {table after : Table Nat Uuid ρ} {id : Uuid} {row : ρ}
    (isAdded : added table id row = .ok after) (actor : Nat) :
    Table.StepBy actor table after ∧
      (∀ other value, table.committed other = some value → after.committed other = some value) ∧
      ∀ process other, after.committed other = table.committed other ∧
          after.read process other = table.read process other ∨
        after.read process other = after.committed other := by
  unfold added at isAdded
  split at isAdded
  · rename_i isNew
    cases isAdded
    have isPut : ({ keys := id :: table.keys
                    cell := Function.update table.cell id ⟨some row, none⟩ } :
        Table Nat Uuid ρ) = table.put id (some row) := rfl
    rw [isPut]
    refine ⟨.put isNew.1 _ actor, ?_, ?_⟩
    · intro other value committed
      rw [Table.committed_put, if_neg]
      · exact committed
      · rintro rfl
        rw [isNew.2] at committed
        contradiction
    · intro process other
      rw [Table.committed_put, Table.read_put]
      by_cases here : other = id
      · right
        rw [if_pos here, if_pos here]
      · left
        rw [if_neg here, if_neg here]
        exact ⟨rfl, rfl⟩
  · contradiction

theorem enroll_sound (sound : state.Sound secrets) {userId : Uuid} {user : User}
    {users : Table Nat Uuid User} (isAdded : added state.users userId user = .ok users) :
    ({ state with users := users } : RegistrationState).Sound secrets := by
  have evolves : ∀ actor, Evolves actor state { state with users := users } := by
    intro actor
    rcases of_added isAdded actor with ⟨by', stands, _⟩
    refine ⟨by', .refl _, .refl _, le_refl _, ?_, fun {_ invite} committed =>
      ⟨invite, committed, .refl invite⟩⟩
    intro id stood
    rcases Option.isSome_iff_exists.mp stood with ⟨value, committed⟩
    exact Option.isSome_iff_exists.mpr ⟨value, stands id value committed⟩
  refine ⟨sound.single, sound.issued, ?_, sound.invites, ?_, sound.tokens, sound.redeemedOnce, ?_,
    sound.revoked, sound.before⟩
  · intro process id stands
    rcases (of_added isAdded 0).2.2 process id with ⟨committed, read⟩ | same
    · rw [read]
      exact sound.users process id (committed ▸ stands)
    · rw [same]
      exact stands
  · intro process
    exact (sound.owes process).evolves (evolves (process + 1)) (Nat.succ_ne_self process).symm
  · intro account member
    rcases sound.redeemed account member with ⟨stands, invite⟩
    exact ⟨(evolves 0).usersStand _ stands, invite⟩

theorem mint_sound (sound : state.Sound secrets) {inviteId : Uuid} {invite : InviteCode}
    {invites : Table Nat Uuid InviteCode}
    (isAdded : added state.invites inviteId invite = .ok invites) :
    ({ state with invites := invites } : RegistrationState).Sound secrets := by
  have stands := (of_added isAdded 0).2.1
  have evolves : ∀ actor, Evolves actor state { state with invites := invites } := by
    intro actor
    exact ⟨.refl _, .refl _, (of_added isAdded actor).1, le_refl _, fun _ stood => stood,
      fun {id row} committed => ⟨row, stands id row committed, .refl row⟩⟩
  refine ⟨sound.single, sound.issued, sound.users, ?_, ?_, sound.tokens, sound.redeemedOnce, ?_, ?_,
    sound.before⟩
  · intro process id
    rcases (of_added isAdded 0).2.2 process id with ⟨committed, read⟩ | same
    · show Option.Rel _ (invites.committed id) (invites.read process id)
      rw [committed, read]
      exact sound.invites process id
    · show Option.Rel _ (invites.committed id) (invites.read process id)
      rw [same]
      exact rel_refl _
  · intro process
    exact (sound.owes process).evolves (evolves (process + 1)) (Nat.succ_ne_self process).symm
  · intro account member
    rcases sound.redeemed account member with ⟨kept, row, committed, used⟩
    exact ⟨kept, row, stands _ row committed, used⟩
  · intro revocation member
    rcases sound.revoked revocation member with ⟨row, committed, revoked⟩
    exact ⟨row, stands _ row committed, revoked⟩

theorem start_sound (sound : state.Sound secrets) {running : RegistrationProcess}
    (unstaged : running.staged = none) (owes : state.Rests process → state.Owes process running)
    (started : state.start process running = .ok next) : next.Sound secrets := by
  unfold start at started
  split at started
  · rename_i ended
    cases started
    apply sound.moves process unstaged
    have rests := sound.owes process
    cases here : state.processes process with
    | idle | raised refusal =>
        rw [here] at rests
        exact owes rests
    | _ =>
        rw [here] at ended
        contradiction
  · contradiction

/-- No statement counts steps. -/
theorem steps_of_runProcess (ran : state.runProcess secrets process = .ok next) :
    next.steps = state.steps := by
  unfold runProcess at ran
  cases here : state.processes process <;> simp only [here, Except.ok.injEq, reduceCtorEq] at ran
  case register => rw [← ran]; unfold register; split <;> rfl
  case findPending => rw [← ran]; unfold findPending; split <;> rfl
  case confirmInvite => rw [← ran]; unfold confirmInvite; split <;> [rfl; split <;> rfl]
  case revoke => rw [← ran]; unfold revoke; split <;> [rfl; split <;> rfl]
  case checkEmail | checkUsername | checkPendingEmail | checkPendingUsername =>
    rw [← ran]; split <;> rfl
  case sweepRows | insertPending | updatePending | claimRows | insertUser | consume | revokeOwn
      | updateInvite =>
    simp only [sweepRows, insertPending, updatePending, claimRows, insertUser, consume, revokeOwn,
      updateInvite] at ran
    repeat' split at ran
    all_goals cases ran
    all_goals rfl
  all_goals rw [← ran]; rfl

/-- The next statement of a process keeps the invariant. -/
theorem runProcess_sound (sound : state.Sound secrets)
    (ran : state.runProcess secrets process = .ok next) :
    ({ next with steps := state.steps + 1 } : RegistrationState).Sound secrets := by
  have counted : next.Sound secrets →
      ({ next with steps := state.steps + 1 } : RegistrationState).Sound secrets := by
    intro nextSound
    apply nextSound.later
    rw [steps_of_runProcess ran]
    exact Nat.le_succ _
  have owes := sound.owes process
  unfold runProcess at ran
  cases here : state.processes process with
  | idle | raised refusal =>
      rw [here] at ran
      contradiction
  | register form =>
      rw [here] at ran
      cases ran
      exact counted (register_sound sound process form)
  | sweep after =>
      rw [here] at ran
      cases ran
      exact counted (sound.moves process rfl trivial)
  | sweepRows after asOf matched =>
      rw [here] at ran
      exact counted (sweepRows_sound sound ran)
  | sweepCommit after =>
      rw [here] at ran
      cases ran
      apply counted
      cases after with
      | create form inviteId => exact sound.commit process rfl trivial
      | resend email => exact sound.commit process rfl (rests_commit state process _)
  | checkEmail form inviteId | checkUsername form inviteId | checkPendingEmail form inviteId =>
      rw [here] at ran
      cases ran
      apply counted
      split
      · exact sound.rollback process rfl
      · exact sound.moves process rfl trivial
  | checkPendingUsername form inviteId =>
      rw [here] at ran
      cases ran
      apply counted
      split
      · exact sound.rollback process rfl
      · exact stagePending_sound sound process form inviteId
  | insertPending pendingId row =>
      rw [here] at ran
      exact counted (insertPending_sound sound here ran)
  | commitPending =>
      rw [here] at ran
      cases ran
      exact counted (sound.commit process rfl (rests_commit state process _))
  | findPending email =>
      rw [here] at ran
      cases ran
      exact counted (findPending_sound sound here)
  | updatePending pendingId tokenHash expiresAt =>
      rw [here] at ran
      exact counted (updatePending_sound sound here ran)
  | commitResend pendingId =>
      rw [here] at ran
      cases ran
      exact counted (commitResend_sound sound here)
  | confirm tokenHash =>
      rw [here] at ran owes
      cases ran
      exact counted (sound.moves process rfl owes)
  | claimRows tokenHash asOf matched =>
      rw [here] at ran
      exact counted (claimRows_sound sound here ran)
  | confirmEmail claim | confirmUsername claim =>
      rw [here] at ran owes
      cases ran
      apply counted
      split
      · exact sound.moves process rfl owes.2
      · exact sound.moves process rfl owes
  | confirmInvite claim =>
      rw [here] at ran
      cases ran
      exact counted (confirmInvite_sound sound here)
  | dismiss refusal =>
      rw [here] at ran
      cases ran
      exact counted (sound.commit process rfl (rests_commit state process _))
  | insertUser claim =>
      rw [here] at ran
      exact counted (insertUser_sound sound here ran)
  | consume claim userId =>
      rw [here] at ran
      exact consume_sound sound here ran
  | finish claim userId redeemedStep =>
      rw [here] at ran
      cases ran
      exact counted (finish_sound sound here)
  | revokeOwn inviteId =>
      rw [here] at ran
      exact counted (revokeOwn_sound sound ran)
  | revoke inviteId =>
      rw [here] at ran
      cases ran
      exact counted (revoke_sound sound process inviteId)
  | updateInvite inviteId revokedAt =>
      rw [here] at ran
      exact counted (updateInvite_sound sound ran)
  | commitRevoke inviteId =>
      rw [here] at ran
      cases ran
      exact counted (commitRevoke_sound sound here)

theorem Sound.step {label : RegistrationLabel} (sound : state.Sound secrets)
    (stepped : RegistrationState.step secrets label state = .ok next) : next.Sound secrets := by
  simp only [RegistrationState.step, bind_eq_ok, pure_eq_ok] at stepped
  rcases stepped with ⟨after, acted, rfl⟩
  have counted : after.Sound secrets → after.steps = state.steps →
      ({ after with steps := state.steps + 1 } : RegistrationState).Sound secrets := by
    intro afterSound same
    apply afterSound.later
    rw [same]
    exact Nat.le_succ _
  have started : ∀ {process running}, state.start process running = .ok after →
      running.staged = none → (state.Rests process → state.Owes process running) →
      ({ after with steps := state.steps + 1 } : RegistrationState).Sound secrets := by
    intro process running isStarted unstaged owes
    refine counted (start_sound sound unstaged owes isStarted) ?_
    unfold start at isStarted
    split at isStarted
    · cases isStarted
      rfl
    · contradiction
  cases label with
  | tick later =>
      simp only [act] at acted
      split at acted
      · contradiction
      · cases acted
        exact sound.later later (Nat.le_succ state.steps)
  | enroll userId user =>
      simp only [act, bind_eq_ok, pure_eq_ok] at acted
      rcases acted with ⟨users, isAdded, rfl⟩
      exact counted (enroll_sound sound isAdded) rfl
  | mint inviteId invite =>
      simp only [act, bind_eq_ok, pure_eq_ok] at acted
      rcases acted with ⟨invites, isAdded, rfl⟩
      exact counted (mint_sound sound isAdded) rfl
  | register process form => exact started acted rfl (fun _ => trivial)
  | resend process email => exact started acted rfl (fun _ => trivial)
  | confirm process rawToken =>
      apply started acted
      · split <;> rfl
      · intro rests
        split <;> exact rests
  | revoke process inviteId => exact started acted rfl (fun _ => trivial)
  | revokeOwn process inviteId => exact started acted rfl (fun _ => trivial)
  | run process => exact runProcess_sound sound acted
  | fail process =>
      cases acted
      exact counted (sound.rollback process rfl) rfl

theorem Initial.sound (initial : state.Initial) : state.Sound secrets := by
  have rests : ∀ process, state.Rests process := by
    intro process
    refine ⟨fun id => ?_, fun id => ?_, fun id => ?_⟩
    · rw [initial.users]
      exact Option.some_ne_none _ |>.symm
    · rw [Table.holder, initial.pending]
      exact Option.some_ne_none _ |>.symm
    · rw [initial.invites]
      exact Option.some_ne_none _ |>.symm
  have nowhere : ∀ tokenHash place, ¬ state.At tokenHash place := by
    intro tokenHash place isAt
    cases place with
    | staged process =>
        have ended := initial.ended process
        have staged : (state.processes process).staged = some tokenHash := isAt
        cases here : state.processes process with
        | idle | raised refusal =>
            rw [here] at staged
            contradiction
        | _ =>
            rw [here] at ended
            contradiction
    | pending id =>
        rcases isAt with ⟨row, committed | ⟨reader, reads⟩, _⟩
        · rw [Table.committed, initial.pending] at committed
          contradiction
        · rw [Table.read, initial.pending] at reads
          contradiction
    | confirmed =>
        simp only [At, initial.accounts, List.map_nil, List.not_mem_nil] at isAt
    | replaced =>
        simp only [At, initial.replaced, List.not_mem_nil] at isAt
  refine ⟨?_, ?_, ?_, ?_, ?_, ?_, ?_, ?_, ?_, ?_⟩
  · exact fun tokenHash left _ isLeft _ => absurd isLeft (nowhere tokenHash left)
  · exact fun tokenHash place isAt => absurd isAt (nowhere tokenHash place)
  · intro process id stands
    rw [Table.read_of_holdless _ _ (rests process).users]
    exact stands
  · intro process id
    rw [Table.read_of_holdless _ _ (rests process).invites]
    exact rel_refl _
  · intro process
    have ended := initial.ended process
    cases here : state.processes process with
    | idle | raised refusal => exact rests process
    | _ =>
        rw [here] at ended
        contradiction
  all_goals simp [initial.accounts, initial.revocations]

theorem sound_of_reachable (reachable : (registrationSystem secrets).Reachable state) :
    state.Sound secrets :=
  System.Reachable.invariant Initial.sound Sound.step reachable

/-! ### Refusals -/

/-- The accounts and the invites stand, and the process holds none. -/
structure Leaves (process : Nat) (state next : RegistrationState) : Prop where
  stand : ∀ id, next.users.committed id = state.users.committed id ∧
    next.invites.committed id = state.invites.committed id
  users : next.users.Holdless process
  invites : next.invites.Holdless process

theorem leaves_rollback (state : RegistrationState) (process : Nat)
    (running : RegistrationProcess) : Leaves process state (state.rollback process running) :=
  ⟨fun _ => ⟨Table.committed_rollback .., Table.committed_rollback ..⟩,
    Table.holdless_rollback _ _, Table.holdless_rollback _ _⟩

/-- A commit of nothing but pending rows. -/
theorem leaves_commit (users : state.users.Holdless process)
    (invites : state.invites.Holdless process) (running : RegistrationProcess) :
    Leaves process state (state.commit process running) := by
  refine ⟨fun id => ⟨?_, ?_⟩, Table.holdless_commit _ _, Table.holdless_commit _ _⟩
  · exact (Table.committed_commit ..).trans (Table.read_of_holdless _ _ users id)
  · exact (Table.committed_commit ..).trans (Table.read_of_holdless _ _ invites id)

/-- A confirm that ends without an account leaves the accounts and the invites. -/
theorem leaves_of_confirm (sound : state.Sound secrets)
    (confirms : (state.processes process).isConfirm)
    (ran : state.runProcess secrets process = .ok next)
    (ended : (next.processes process).ended) (same : next.accounts = state.accounts) :
    Leaves process state next := by
  have owes := sound.owes process
  have unfinished : ∀ {running}, next.processes = (state.setProcess process running).processes →
      running.ended = false → Leaves process state next := by
    intro running isNext unended
    rw [isNext, setProcess_self, unended] at ended
    contradiction
  unfold runProcess at ran
  cases here : state.processes process with
  | confirm tokenHash =>
      rw [here] at ran
      cases ran
      exact unfinished rfl rfl
  | claimRows tokenHash asOf matched =>
      rw [here] at ran
      simp only [claimRows] at ran
      split at ran
      · split at ran
        · cases ran
          exact leaves_rollback ..
        · cases ran
          exact unfinished rfl rfl
      · contradiction
  | confirmEmail claim | confirmUsername claim =>
      rw [here] at ran
      cases ran
      refine unfinished rfl ?_
      split <;> rfl
  | confirmInvite claim =>
      rw [here] at ran
      cases ran
      have moves : ∃ running, running.ended = false ∧
          state.confirmInvite process claim = state.setProcess process running := by
        unfold confirmInvite
        split
        · exact ⟨_, rfl, rfl⟩
        · split <;> exact ⟨_, rfl, rfl⟩
      rcases moves with ⟨running, unended, moves⟩
      exact unfinished (by rw [moves]) unended
  | dismiss refusal =>
      rw [here] at ran owes
      cases ran
      exact leaves_commit owes.1 owes.2 _
  | insertUser claim =>
      rw [here] at ran
      simp only [insertUser] at ran
      split at ran
      · contradiction
      · split at ran
        · cases ran
          exact leaves_rollback ..
        · cases ran
          exact unfinished rfl rfl
  | consume claim userId =>
      rw [here] at ran
      simp only [consume] at ran
      split at ran
      · contradiction
      · split at ran
        · cases ran
          exact leaves_rollback ..
        · split at ran
          · cases ran
            exact unfinished rfl rfl
          · cases ran
            exact leaves_rollback ..
  | finish claim userId redeemedStep =>
      rw [here] at ran
      cases ran
      exact absurd same (List.cons_ne_self _ _)
  | _ =>
      rw [here] at confirms
      contradiction

end RegistrationState

open RegistrationState

end Vidit.Accounts
