import Mathlib.Tactic.Tauto
import Vidit.Accounts.Sessions

/-!
Contract: when a session token stops being accepted.

Owns:
- `SessionsEnd`, that a committed logout, password change, password reset or
  soft deletion ends the sessions it should;
- `InOrder`, the condition on a step under which that holds, and the run
  that breaks it otherwise.

Proof shape: one inversion lemma for `step` (`step_cases`), two invariants over
it (no live token is ahead of the row; a password hash, once replaced, never
returns), and one invariant carried from the commit onwards.
-/

namespace Vidit.Accounts

open Vidit.Python Vidit.Library

/-- A commit of `process` in `before` ended the sessions minted by then, and,
where it replaced the password, those of logins that had checked the old one. -/
def EndsSession (before : SessionState) (transaction : Transaction) (minted : Minted) : Prop :=
  minted ∈ before.minted ∨
    transaction.passwordHash?.isSome ∧ minted.origin = .login before.user.passwordHash

/-- Once a request that bumps the token version has committed, every session it
ends is rejected for good. -/
def SessionsEnd (system : System SessionState SessionLabel) : Prop :=
  ∀ (before ended final : SessionState) (process : Nat) (transaction : Transaction),
    system.Reachable before →
    before.processes process = .commit transaction →
    transaction.tokenVersion?.isSome →
    system.Step before (.run process) ended →
    system.Run ended final →
    ∀ minted ∈ final.minted, EndsSession before transaction minted →
      ∃ error,
        getCurrentUser final.now (queryUser final.user) (some minted.token) = .error error

/-- On a live account, a bump commits onto the token version it read, and a
login mints while the password hash it checked still stands. -/
def InOrder (state : SessionState) : SessionLabel → Prop
  | .run process =>
    match state.processes process with
    | .commit transaction =>
      state.user.IsLive → transaction.deletedAt? = none →
        ∀ version ∈ transaction.tokenVersion?, version = bumpTokenVersion state.user
    | .mint (.login checked) => state.user.IsLive → checked = state.user.passwordHash
    | _ => True
  | _ => True

/-! ### What a step does -/

namespace SessionState

/-- The password hash a process holds uncommitted. -/
def pending (state : SessionState) (process : Nat) : Option Str :=
  (state.processes process).drawn?

/-- A step that neither commits nor mints: it may draw one fresh hash. -/
structure Quiet (state next : SessionState) : Prop where
  user : next.user = state.user
  minted : next.minted = state.minted
  hashes : ∀ hash ∈ state.hashes, hash ∈ next.hashes
  pending : ∀ process, next.pending process = none ∨
    next.pending process = state.pending process ∨
    ∃ hash, next.pending process = some hash ∧ hash ∉ state.hashes ∧ hash ∈ next.hashes ∧
      ∀ other, other ≠ process → next.pending other = state.pending other

@[simp] theorem setProcess_user (state : SessionState) (process : Nat) (next : Process) :
    (state.setProcess process next).user = state.user := rfl

@[simp] theorem setProcess_minted (state : SessionState) (process : Nat) (next : Process) :
    (state.setProcess process next).minted = state.minted := rfl

@[simp] theorem setProcess_hashes (state : SessionState) (process : Nat) (next : Process) :
    (state.setProcess process next).hashes = state.hashes := rfl

theorem setProcess_processes (state : SessionState) (process other : Nat) (next : Process) :
    (state.setProcess process next).processes other =
      if other = process then next else state.processes other := by
  simp only [setProcess, Function.update_apply]

theorem setProcess_pending (state : SessionState) (process other : Nat) (next : Process) :
    (state.setProcess process next).pending other =
      if other = process then next.drawn? else state.pending other := by
  unfold pending
  rw [setProcess_processes]
  split <;> rfl

/-- Moving one process to a next step that holds no new hash is quiet. -/
private theorem quiet_of_setProcess {state next : SessionState} {process : Nat}
    {moved : Process} (user : next.user = state.user) (minted : next.minted = state.minted)
    (hashes : next.hashes = state.hashes)
    (processes : next.processes = (state.setProcess process moved).processes)
    (holds : moved.drawn? = none ∨ moved.drawn? = state.pending process) :
    state.Quiet next := by
  refine ⟨user, minted, by simp [hashes], ?_⟩
  intro other
  have same : next.pending other = (state.setProcess process moved).pending other := by
    unfold SessionState.pending
    rw [processes]
  rw [same, setProcess_pending]
  by_cases here : other = process
  · subst here
    simp only [↓reduceIte]
    tauto
  · simp [here]

private theorem quiet_of_proceed {state next : SessionState} {process : Nat} {moved : Process}
    (proceeds : state.proceed process moved = .ok next) : state.Quiet next := by
  unfold proceed at proceeds
  cases drawn : moved.drawn? with
  | none =>
      simp only [drawn, Except.ok.injEq] at proceeds
      subst proceeds
      exact quiet_of_setProcess rfl rfl rfl rfl (.inl drawn)
  | some hash =>
      simp only [drawn] at proceeds
      split at proceeds
      · contradiction
      · rename_i fresh
        cases proceeds
        refine ⟨rfl, rfl, fun _ member => List.mem_cons_of_mem _ member, ?_⟩
        intro other
        have moves : ∀ process', SessionState.pending
            { state.setProcess process moved with hashes := hash :: state.hashes } process' =
              (state.setProcess process moved).pending process' := fun _ => rfl
        simp only [moves, setProcess_pending]
        by_cases here : other = process
        · subst here
          simp only [↓reduceIte, drawn]
          exact .inr (.inr ⟨hash, rfl, fresh, List.mem_cons_self,
            fun process' different => by simp [different]⟩)
        · simp [here]

theorem failed_drawn? (process : Process) : process.failed.drawn? = none := by
  unfold Process.failed
  split <;> rfl

theorem continues_drawn? (transaction : Transaction) :
    transaction.continues.drawn? = none := by
  cases transaction <;> rfl

variable {settings : SessionSettings} {bcrypt : Bcrypt}

/-- Every step is quiet, a commit, or a mint. -/
theorem step_cases {state next : SessionState} {label : SessionLabel}
    (steps : step settings bcrypt label state = .ok next) :
    state.Quiet next ∨
      (∃ process transaction, label = .run process ∧
        state.processes process = .commit transaction ∧
        next = state.executeCommit process transaction) ∨
      (∃ process origin, label = .run process ∧ state.processes process = .mint origin ∧
        next = state.executeMint settings process origin) := by
  cases label with
  | tick later =>
      simp only [step] at steps
      split at steps
      · contradiction
      · cases steps
        exact .inl ⟨rfl, rfl, fun _ member => member, fun _ => .inr (.inl rfl)⟩
  | begin process request =>
      simp only [step] at steps
      split at steps
      · contradiction
      · split at steps
        · cases steps
          exact .inl (quiet_of_setProcess rfl rfl rfl rfl (.inl rfl))
        · contradiction
  | fail process =>
      simp only [step] at steps
      cases steps
      exact .inl (quiet_of_setProcess rfl rfl rfl rfl (.inl (failed_drawn? _)))
  | run process =>
      simp only [step, runProcess] at steps
      split at steps
      · contradiction
      · exact .inl (quiet_of_proceed steps)
      · exact .inl (quiet_of_proceed steps)
      · rename_i transaction here
        unfold executeUpdate at steps
        split at steps
        · contradiction
        · split at steps
          · contradiction
          · cases steps
            refine .inl (quiet_of_setProcess rfl rfl rfl rfl (.inr ?_))
            simp [SessionState.pending, here, Process.drawn?]
      · rename_i transaction here
        cases steps
        exact .inr (.inl ⟨process, transaction, rfl, here, rfl⟩)
      · rename_i origin here
        cases steps
        exact .inr (.inr ⟨process, origin, rfl, here, rfl⟩)

/-! ### Password hashes never return -/

/-- Hashes held uncommitted are drawn, pairwise apart, and not the row's. -/
structure HashesApart (state : SessionState) : Prop where
  current : state.user.passwordHash ∈ state.hashes
  drawn : ∀ {process hash}, state.pending process = some hash → hash ∈ state.hashes
  replaces : ∀ {process hash}, state.pending process = some hash →
    hash ≠ state.user.passwordHash
  apart : ∀ {process other hash}, state.pending process = some hash →
    state.pending other = some hash → process = other

/-- A hash no later row can hold. -/
structure Retired (hash : Str) (state : SessionState) : Prop where
  drawn : hash ∈ state.hashes
  replaced : state.user.passwordHash ≠ hash
  gone : ∀ process, state.pending process ≠ some hash

theorem Quiet.pending_eq_some {state next : SessionState} (quiet : state.Quiet next)
    {process : Nat} {hash : Str} (held : next.pending process = some hash) :
    state.pending process = some hash ∨
      hash ∉ state.hashes ∧ hash ∈ next.hashes ∧
        ∀ other, other ≠ process → next.pending other = state.pending other := by
  rcases quiet.pending process with none | same | ⟨fresh, holds, new, recorded, others⟩
  · rw [none] at held
    contradiction
  · exact .inl (same ▸ held)
  · rw [holds] at held
    cases held
    exact .inr ⟨new, recorded, others⟩

@[simp] theorem executeCommit_user (state : SessionState) (process : Nat)
    (transaction : Transaction) :
    (state.executeCommit process transaction).user = transaction.applyTo state.user := rfl

@[simp] theorem executeCommit_minted (state : SessionState) (process : Nat)
    (transaction : Transaction) :
    (state.executeCommit process transaction).minted = state.minted := rfl

@[simp] theorem executeCommit_hashes (state : SessionState) (process : Nat)
    (transaction : Transaction) :
    (state.executeCommit process transaction).hashes = state.hashes := rfl

theorem executeCommit_pending (state : SessionState) (process other : Nat)
    (transaction : Transaction) :
    (state.executeCommit process transaction).pending other =
      if other = process then none else state.pending other := by
  have moves : (state.executeCommit process transaction).pending other =
      (state.setProcess process transaction.continues).pending other := rfl
  rw [moves, setProcess_pending, continues_drawn?]

theorem executeMint_pending (state : SessionState) (process other : Nat) (origin : Origin) :
    (state.executeMint settings process origin).pending other =
      if other = process then none else state.pending other := by
  have moves : (state.executeMint settings process origin).pending other =
      (state.setProcess process .idle).pending other := rfl
  rw [moves, setProcess_pending]
  rfl

/-- The hash a commit leaves on the row. -/
theorem applyTo_passwordHash (transaction : Transaction) (user : User) :
    (transaction.applyTo user).passwordHash =
      transaction.passwordHash?.getD user.passwordHash := rfl

theorem pending_of_commit {state : SessionState} {process : Nat} {transaction : Transaction}
    (committing : state.processes process = .commit transaction) :
    state.pending process = transaction.passwordHash? := by
  simp [SessionState.pending, committing, Process.drawn?]

theorem HashesApart.step {state next : SessionState} {label : SessionLabel}
    (hashes : state.HashesApart) (steps : step settings bcrypt label state = .ok next) :
    next.HashesApart := by
  rcases step_cases steps with quiet | ⟨process, transaction, _, committing, rfl⟩ |
    ⟨process, origin, _, _, rfl⟩
  · constructor
    · rw [quiet.user]
      exact quiet.hashes _ hashes.current
    · intro process hash held
      rcases quiet.pending_eq_some held with before | ⟨_, recorded, _⟩
      · exact quiet.hashes _ (hashes.drawn before)
      · exact recorded
    · intro process hash held
      rw [quiet.user]
      rcases quiet.pending_eq_some held with before | ⟨fresh, _, _⟩
      · exact hashes.replaces before
      · rintro rfl
        exact fresh hashes.current
    · intro process other hash held heldToo
      by_contra different
      rcases quiet.pending_eq_some held with before | ⟨fresh, _, others⟩
      · rcases quiet.pending_eq_some heldToo with beforeToo | ⟨fresh, _, _⟩
        · exact different (hashes.apart before beforeToo)
        · exact fresh (hashes.drawn before)
      · rw [others other (Ne.symm different)] at heldToo
        exact fresh (hashes.drawn heldToo)
  · have pends := pending_of_commit committing
    have elsewhere : ∀ {other hash},
        (state.executeCommit process transaction).pending other = some hash →
          other ≠ process ∧ state.pending other = some hash := by
      intro other hash held
      rw [executeCommit_pending] at held
      split at held
      · contradiction
      · exact ⟨‹_›, held⟩
    constructor
    · rw [executeCommit_user, applyTo_passwordHash, executeCommit_hashes]
      cases written : transaction.passwordHash? with
      | none => exact hashes.current
      | some hash => exact hashes.drawn (pends.trans written)
    · intro other hash held
      exact hashes.drawn (elsewhere held).2
    · intro other hash held
      rcases elsewhere held with ⟨different, before⟩
      rw [executeCommit_user, applyTo_passwordHash]
      cases written : transaction.passwordHash? with
      | none => exact hashes.replaces before
      | some drawn =>
          rintro rfl
          exact different (hashes.apart before (pends.trans written))
    · intro one other hash held heldToo
      exact hashes.apart (elsewhere held).2 (elsewhere heldToo).2
  · have elsewhere : ∀ {other hash},
        (state.executeMint settings process origin).pending other = some hash →
          state.pending other = some hash := by
      intro other hash held
      rw [executeMint_pending] at held
      split at held
      · contradiction
      · exact held
    exact ⟨hashes.current, fun held => hashes.drawn (elsewhere held),
      fun held => hashes.replaces (elsewhere held),
      fun held heldToo => hashes.apart (elsewhere held) (elsewhere heldToo)⟩

/-- Replacing the row's hash retires it. -/
theorem HashesApart.retires {state : SessionState} (hashes : state.HashesApart) {process : Nat}
    {transaction : Transaction} (committing : state.processes process = .commit transaction)
    (replaces : transaction.passwordHash?.isSome) :
    (state.executeCommit process transaction).Retired state.user.passwordHash := by
  rcases Option.isSome_iff_exists.mp replaces with ⟨hash, written⟩
  have pends := (pending_of_commit committing).trans written
  constructor
  · exact hashes.current
  · rw [executeCommit_user, applyTo_passwordHash, written]
    exact hashes.replaces pends
  · intro other held
    rw [executeCommit_pending] at held
    split at held
    · contradiction
    · exact hashes.replaces held rfl

theorem Retired.step {hash : Str} {state next : SessionState} {label : SessionLabel}
    (retired : state.Retired hash) (steps : step settings bcrypt label state = .ok next) :
    next.Retired hash := by
  rcases step_cases steps with quiet | ⟨process, transaction, _, committing, rfl⟩ |
    ⟨process, origin, _, _, rfl⟩
  · refine ⟨quiet.hashes _ retired.drawn, quiet.user ▸ retired.replaced, ?_⟩
    intro process held
    rcases quiet.pending_eq_some held with before | ⟨fresh, _, _⟩
    · exact retired.gone process before
    · exact fresh retired.drawn
  · refine ⟨retired.drawn, ?_, ?_⟩
    · rw [executeCommit_user, applyTo_passwordHash]
      cases written : transaction.passwordHash? with
      | none => exact retired.replaced
      | some drawn =>
          rintro rfl
          exact retired.gone process ((pending_of_commit committing).trans written)
    · intro other held
      rw [executeCommit_pending] at held
      split at held
      · contradiction
      · exact retired.gone other held
  · refine ⟨retired.drawn, retired.replaced, ?_⟩
    intro other held
    rw [executeMint_pending] at held
    split at held
    · contradiction
    · exact retired.gone other held

/-! ### No live token is ahead of the row -/

theorem applyTo_isLive {transaction : Transaction} {user : User}
    (live : (transaction.applyTo user).IsLive) :
    user.IsLive ∧ transaction.deletedAt? = none := by
  rcases live with ⟨active, present⟩
  simp only [Transaction.applyTo, Option.or_eq_none_iff] at active present
  exact ⟨⟨active, present.2⟩, present.1⟩

/-- In order, a commit on a live account keeps the token version or, where the
transaction bumps it, raises it by one. -/
theorem commit_tokenVersion {state : SessionState} {process : Nat} {transaction : Transaction}
    (committing : state.processes process = .commit transaction)
    (ordered : InOrder state (.run process))
    (live : (transaction.applyTo state.user).IsLive) :
    (transaction.applyTo state.user).tokenVersion =
      if transaction.tokenVersion?.isSome then state.user.tokenVersion + 1
      else state.user.tokenVersion := by
  have before := applyTo_isLive live
  simp only [InOrder, committing] at ordered
  cases written : transaction.tokenVersion? with
  | none => simp [Transaction.applyTo, written]
  | some version =>
      have raised := ordered before.1 before.2 version (by simp [written])
      simp [Transaction.applyTo, written, raised, bumpTokenVersion]

/-- Every minted token carries at most the row's version, while it is live. -/
def Behind (state : SessionState) : Prop :=
  state.user.IsLive → ∀ minted ∈ state.minted, minted.token.tv ≤ state.user.tokenVersion

theorem Behind.step {state next : SessionState} {label : SessionLabel}
    (behind : state.Behind) (ordered : InOrder state label)
    (steps : step settings bcrypt label state = .ok next) : next.Behind := by
  intro live minted member
  rcases step_cases steps with quiet | ⟨process, transaction, rfl, committing, rfl⟩ |
    ⟨process, origin, _, _, rfl⟩
  · rw [quiet.user] at live ⊢
    rw [quiet.minted] at member
    exact behind live minted member
  · have version := commit_tokenVersion committing ordered live
    have earlier := behind (applyTo_isLive live).1 minted member
    rw [executeCommit_user, version]
    split <;> omega
  · rcases List.mem_cons.mp member with rfl | earlier
    · exact Nat.le_refl _
    · exact behind live minted earlier

/-! ### After the commit -/

/-- What a commit that ended sessions leaves true from then on. -/
structure Ended (before : SessionState) (transaction : Transaction) (state : SessionState) :
    Prop where
  minted : state.user.IsLive → ∀ minted ∈ before.minted,
    minted.token.tv < state.user.tokenVersion
  logins : state.user.IsLive → transaction.passwordHash?.isSome → ∀ minted ∈ state.minted,
    minted.origin = .login before.user.passwordHash →
      minted.token.tv < state.user.tokenVersion
  retired : transaction.passwordHash?.isSome → state.Retired before.user.passwordHash

/-- The commit itself puts the row past every token. -/
theorem Ended.commit {before : SessionState} {process : Nat} {transaction : Transaction}
    (behind : before.Behind) (hashes : before.HashesApart)
    (committing : before.processes process = .commit transaction)
    (bumps : transaction.tokenVersion?.isSome) (ordered : InOrder before (.run process)) :
    Ended before transaction (before.executeCommit process transaction) := by
  have past : (transaction.applyTo before.user).IsLive → ∀ minted ∈ before.minted,
      minted.token.tv < (transaction.applyTo before.user).tokenVersion := by
    intro live minted member
    have version := commit_tokenVersion committing ordered live
    have atMost := behind (applyTo_isLive live).1 minted member
    rw [version, if_pos bumps]
    omega
  exact ⟨past, fun live _ minted member _ => past live minted member,
    hashes.retires committing⟩

theorem Ended.step {before state next : SessionState} {transaction : Transaction}
    {label : SessionLabel} (ended : Ended before transaction state)
    (ordered : InOrder state label) (steps : step settings bcrypt label state = .ok next) :
    Ended before transaction next := by
  refine ⟨?_, ?_, fun replaces => (ended.retired replaces).step steps⟩
  · intro live minted member
    rcases step_cases steps with quiet | ⟨process, committed, rfl, committing, rfl⟩ |
      ⟨process, origin, _, _, rfl⟩
    · rw [quiet.user] at live ⊢
      exact ended.minted live minted member
    · have version := commit_tokenVersion committing ordered live
      have earlier := ended.minted (applyTo_isLive live).1 minted member
      rw [executeCommit_user, version]
      split <;> omega
    · exact ended.minted live minted member
  · intro live replaces minted member origin
    rcases step_cases steps with quiet | ⟨process, committed, rfl, committing, rfl⟩ |
      ⟨process, from', rfl, minting, rfl⟩
    · rw [quiet.user] at live ⊢
      rw [quiet.minted] at member
      exact ended.logins live replaces minted member origin
    · have version := commit_tokenVersion committing ordered live
      have earlier := ended.logins (applyTo_isLive live).1 replaces minted member origin
      rw [executeCommit_user, version]
      split <;> omega
    · rcases List.mem_cons.mp member with rfl | earlier
      · -- a login that mints in order checked the standing hash, and that is not the old one
        simp only at origin
        subst origin
        simp only [InOrder, minting] at ordered
        exact absurd (ordered live).symm (ended.retired replaces).replaced
      · exact ended.logins live replaces minted earlier origin

theorem Ended.rejects {before state : SessionState} {transaction : Transaction}
    (ended : Ended before transaction state) {minted : Minted} (member : minted ∈ state.minted)
    (ends : EndsSession before transaction minted) :
    ∃ error,
      getCurrentUser state.now (queryUser state.user) (some minted.token) = .error error := by
  apply getCurrentUser_rejects
  intro user found live
  have same : user = state.user := by
    unfold queryUser at found
    split at found <;> simp_all
  subst same
  rcases ends with earlier | ⟨replaces, origin⟩
  · exact Nat.ne_of_lt (ended.minted live minted earlier)
  · exact Nat.ne_of_lt (ended.logins live replaces minted member origin)

theorem Initial.hashesApart {state : SessionState} (initial : state.Initial) :
    state.HashesApart := by
  have nothing : ∀ process, state.pending process = none := by
    intro process
    simp [SessionState.pending, initial.idle, Process.drawn?]
  constructor
  · exact initial.drawn
  all_goals simp [nothing]

end SessionState

open SessionState

/-- When every step is in order, sessions end when the account says so. -/
theorem sessionsEnd_of_inOrder (settings : SessionSettings) (bcrypt : Bcrypt) :
    SessionsEnd ((sessionSystem settings bcrypt).restrict InOrder) := by
  intro before ended final process transaction reachable committing bumps commits run minted
    member ends
  have invariant : before.HashesApart ∧ before.Behind := by
    apply System.Reachable.invariant _ _ reachable
    · intro start initial
      exact ⟨Initial.hashesApart initial, fun _ => initial.behind⟩
    · intro state label next holds steps
      exact ⟨holds.1.step steps.2, holds.2.step steps.1 steps.2⟩
  have committed : ended = before.executeCommit process transaction := by
    have steps : SessionState.step settings bcrypt (.run process) before = .ok ended := commits.2
    simp only [SessionState.step, runProcess, committing, Except.ok.injEq] at steps
    exact steps.symm
  have atCommit : Ended before transaction ended := by
    rw [committed]
    exact Ended.commit invariant.2 invariant.1 committing bumps commits.1
  have after : Ended before transaction final := by
    apply System.Run.preserves _ run atCommit
    intro state label next holds steps
    exact holds.step steps.1 steps.2
  exact after.rejects member ends

/-! ### Out of order -/

namespace OutOfOrder

/-- A bcrypt that stores the salt and the bytes it hashed. -/
def plainBcrypt : Bcrypt where
  hashpw := fun bytes salt => salt :: bytes
  checkpw := fun bytes hashed => hashed.tail = bytes

def settings : SessionSettings where
  jwtExpireMinutes := 60
  dummyPasswordHash := hashPassword plainBcrypt (str "dummy") 0

def password : Str := str "correct horse"

def account : User where
  id := 1
  username := str "analyst"
  email := str "analyst@example.org"
  passwordHash := hashPassword plainBcrypt password 1
  isActive := true
  isAdmin := false
  lastSeenAt := none
  deletedAt := none
  tokenVersion := 0

def start : SessionState where
  now := 0
  user := account
  lock := none
  processes := fun _ => .idle
  hashes := [account.passwordHash]
  minted := [⟨createAccessToken settings.jwtExpireMinutes 0 account, .earlier⟩]

/-- The cookie of the session that is open at the start. -/
def cookie : SessionToken := createAccessToken settings.jwtExpireMinutes 0 account

/-- Two logouts read the same version; a login mints between their commits. -/
def twoLogouts : List SessionLabel :=
  [.begin 0 (.logout (some cookie)), .begin 1 (.logout (some cookie)), .run 0, .run 1,
    .run 0, .run 0, .begin 2 (.login password), .run 2, .run 2, .run 2, .run 2, .run 1]

/-- A login checks the old password, and a change of it commits before the
login's cookie is minted. -/
def changeDuringLogin : List SessionLabel :=
  [.begin 0 (.login password), .run 0, .run 0, .run 0,
    .begin 1 (.changePassword cookie password (str "battery staple") 2), .run 1, .run 1]

theorem start_initial : start.Initial := by
  constructor
  · intro process
    rfl
  · rfl
  · decide
  · decide

/-- After the steps `earlier`, the commit of `process` ends a session that is
accepted after the steps `later`. -/
def Survives (earlier : List SessionLabel) (process : Nat) (later : List SessionLabel) : Prop :=
  ∃ before, System.runLabels (SessionState.step settings plainBcrypt) earlier start =
      .ok before ∧
    ∃ transaction, before.processes process = .commit transaction ∧
      transaction.tokenVersion?.isSome ∧
    ∃ ended, SessionState.step settings plainBcrypt (.run process) before = .ok ended ∧
    ∃ final, System.runLabels (SessionState.step settings plainBcrypt) later ended =
      .ok final ∧
    ∃ minted ∈ final.minted, EndsSession before transaction minted ∧
    ∃ user, getCurrentUser final.now (queryUser final.user) (some minted.token) = .ok user

private theorem not_sessionsEnd {earlier later : List SessionLabel} {process : Nat}
    (survives : Survives earlier process later) :
    ¬ SessionsEnd (sessionSystem settings plainBcrypt) := by
  intro claim
  rcases survives with ⟨before, reached, transaction, committing, bumps, ended, commits, final,
    continued, minted, member, ends, user, accepted⟩
  have reachable : (sessionSystem settings plainBcrypt).Reachable before :=
    ⟨start, start_initial, System.Run.of_runLabels reached⟩
  rcases claim before ended final process transaction reachable committing bumps commits
    (System.Run.of_runLabels continued) minted member ends with ⟨error, rejected⟩
  rw [accepted] at rejected
  contradiction

/-- Two logouts that read the same version commit the same one, so the session
opened between their commits survives the second. -/
theorem sessionsEnd_fails : ¬ SessionsEnd (sessionSystem settings plainBcrypt) := by
  have survives : Survives twoLogouts 1 [] :=
    ⟨_, rfl, _, rfl, rfl, _, rfl, _, rfl, _, List.mem_cons_self, .inl List.mem_cons_self, _, rfl⟩
  exact not_sessionsEnd survives

/-- A login that checked the replaced password mints a session that the change
of it does not end. -/
theorem sessionsEnd_fails_for_late_login :
    ¬ SessionsEnd (sessionSystem settings plainBcrypt) := by
  have survives : Survives changeDuringLogin 1 [.run 0] :=
    ⟨_, rfl, _, rfl, rfl, _, rfl, _, rfl, _, List.mem_cons_self, .inr ⟨rfl, rfl⟩, _, rfl⟩
  exact not_sessionsEnd survives

end OutOfOrder

end Vidit.Accounts
