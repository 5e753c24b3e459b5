import Vidit.Accounts.ResetTokens

/-!
Contract: how many links of one account can reset its password.

Owns:
- `ResetLinks`, that an account has at most one live link while nothing runs,
  that a link resets once, and that a refused reset leaves its link;
- `Unrivalled`, the condition on a step under which that holds, and the run
  that breaks it otherwise.

Proof shape: a token only loses its life (`Wanes`); what a process owes once it
has looked for its rows (`Owes`) is kept by the steps of the others
(`Evolves`); the one step that issues a link pays it off.
-/

namespace Vidit.Accounts

open Vidit.Python Vidit.Library

/-- At most one live link per account at rest, each used once, and kept by a
reset that is refused. -/
structure ResetLinks (system : System ResetState ResetLabel) : Prop where
  one : ∀ {state}, system.Reachable state → (∀ process, state.processes process = .idle) →
    state.OneLiveLink
  once : ∀ {state}, system.Reachable state → state.resets.Nodup
  refused : ∀ {state next process}, system.Reachable state →
    (state.processes process).isReset → system.Step state (.run process) next →
    next.processes process = .idle → next.resets = state.resets →
      ∀ tokenHash, next.tokens.committed tokenHash = state.tokens.committed tokenHash ∧
        next.tokens.holder tokenHash ≠ some process

/-- When a forgot-password task commits its link, no link that was issued to
the account since its revoke looked is still live. -/
def Unrivalled (state : ResetState) : ResetLabel → Prop
  | .run process =>
    match state.processes process with
    | .insert seen _ row =>
      ∀ tokenHash, tokenHash ∉ seen → ∀ other, state.tokens.committed tokenHash = some other →
        other.userId = row.userId → ¬ other.Live state.now
    | _ => True
  | _ => True

/-! ### A token's life -/

namespace PasswordResetToken

/-- The same token, spent if it was. -/
structure Wanes (before after : PasswordResetToken) : Prop where
  user : after.userId = before.userId
  expires : after.expiresAt = before.expiresAt
  spent : before.consumedAt ≠ none → after.consumedAt ≠ none

theorem Wanes.refl (row : PasswordResetToken) : row.Wanes row :=
  ⟨rfl, rfl, id⟩

theorem Wanes.consumed (asOf : Instant) (row : PasswordResetToken) :
    row.Wanes (ResetState.consumed asOf row) :=
  ⟨rfl, rfl, fun _ => Option.some_ne_none asOf⟩

theorem Wanes.trans {first second third : PasswordResetToken} (earlier : first.Wanes second)
    (later : second.Wanes third) : first.Wanes third :=
  ⟨later.user.trans earlier.user, later.expires.trans earlier.expires,
    fun spent => later.spent (earlier.spent spent)⟩

theorem Wanes.rel (value : Option PasswordResetToken) : Option.Rel Wanes value value := by
  cases value with
  | none => exact .none
  | some row => exact .some (.refl row)

theorem Wanes.rel_bind {value later : Option PasswordResetToken}
    {change : PasswordResetToken → PasswordResetToken} (wanes : ∀ row, Wanes row (change row))
    (rel : Option.Rel Wanes value later) :
    Option.Rel Wanes value (later.bind fun row => some (change row)) := by
  cases rel with
  | none => exact .none
  | some earlier => exact .some (earlier.trans (wanes _))

theorem exists_of_rel_left {row' : PasswordResetToken} {value : Option PasswordResetToken}
    (rel : Option.Rel Wanes value (some row')) : ∃ row, value = some row ∧ row.Wanes row' := by
  cases rel with
  | some wanes => exact ⟨_, rfl, wanes⟩

theorem exists_of_rel {row : PasswordResetToken} {value : Option PasswordResetToken}
    (rel : Option.Rel Wanes (some row) value) : ∃ row', value = some row' ∧ row.Wanes row' := by
  cases rel with
  | some wanes => exact ⟨_, rfl, wanes⟩

/-- What is live later and after was live before. -/
theorem Wanes.live {before after : PasswordResetToken} (wanes : before.Wanes after)
    {now later : Instant} (forward : now ≤ later) (live : after.Live later) :
    before.Live now := by
  constructor
  · by_contra spent
    exact wanes.spent spent live.1
  · have bound := live.2
    rw [wanes.expires] at bound
    exact le_trans forward bound

end PasswordResetToken

namespace ResetState

open PasswordResetToken

/-! ### What the other processes leave -/

/-- A step as one of the other processes sees it. -/
structure Evolves (actor : Nat) (state next : ResetState) : Prop where
  clock : state.now ≤ next.now
  keys : ∀ tokenHash ∈ state.tokens.keys, tokenHash ∈ next.tokens.keys
  rows : ∀ {tokenHash row}, state.tokens.committed tokenHash = some row →
    ∃ row', next.tokens.committed tokenHash = some row' ∧ row.Wanes row'
  tokens : Table.StepBy actor state.tokens next.tokens

/-- No row of the account that was issued by then is live to the process. -/
def Revoked (state : ResetState) (process : Nat) (userId : Uuid) (seen : List Str) : Prop :=
  ∀ tokenHash ∈ seen, ∀ row, state.tokens.read process tokenHash = some row →
    row.userId = userId → ¬ row.Live state.now

/-- What a process has secured by the statements it ran. -/
def Owes (state : ResetState) (process : Nat) : ResetProcess → Prop
  | .find _ asOf => asOf ≤ state.now
  | .lock userId asOf seen matched =>
    asOf ≤ state.now ∧ (∀ tokenHash ∈ seen, tokenHash ∈ state.tokens.keys) ∧
      ∀ tokenHash ∈ seen, ∀ row, state.tokens.read process tokenHash = some row →
        row.userId = userId → row.Live state.now → tokenHash ∈ matched
  | .mint userId seen =>
    (∀ tokenHash ∈ seen, tokenHash ∈ state.tokens.keys) ∧ state.Revoked process userId seen
  | .insert seen _ row =>
    (∀ tokenHash ∈ seen, tokenHash ∈ state.tokens.keys) ∧ state.Revoked process row.userId seen
  | .select tokenHash _ _ _ | .rotate tokenHash _ _ _ =>
    state.tokens.holder tokenHash = some process ∧
      (∃ row, state.tokens.committed tokenHash = some row ∧ row.consumedAt = none) ∧
      ∃ row, state.tokens.read process tokenHash = some row ∧ row.consumedAt ≠ none
  | _ => True

/-- The invariant of every run. -/
structure Sound (state : ResetState) : Prop where
  keyed : ∀ tokenHash, tokenHash ∈ state.tokens.keys ↔
    (state.tokens.committed tokenHash).isSome
  /-- What a transaction would commit is the committed token, or that token spent. -/
  reads : ∀ process tokenHash, Option.Rel Wanes (state.tokens.committed tokenHash)
    (state.tokens.read process tokenHash)
  owes : ∀ process, state.Owes process (state.processes process)
  spent : ∀ tokenHash ∈ state.resets,
    ∃ row, state.tokens.committed tokenHash = some row ∧ row.consumedAt ≠ none
  once : state.resets.Nodup
  one : state.OneLiveLink

variable {state next : ResetState} {actor process : Nat}

theorem Sound.read (sound : state.Sound) (process : Nat) {tokenHash : Str}
    {row : PasswordResetToken} (committed : state.tokens.committed tokenHash = some row) :
    ∃ row', state.tokens.read process tokenHash = some row' ∧ row.Wanes row' := by
  have rel := sound.reads process tokenHash
  rw [committed] at rel
  exact exists_of_rel rel

theorem Sound.committed_of_read (sound : state.Sound) {process : Nat} {tokenHash : Str}
    {row' : PasswordResetToken} (reads : state.tokens.read process tokenHash = some row') :
    ∃ row, state.tokens.committed tokenHash = some row ∧ row.Wanes row' := by
  have rel := sound.reads process tokenHash
  rw [reads] at rel
  exact exists_of_rel_left rel

theorem Sound.committed (sound : state.Sound) {tokenHash : Str}
    (member : tokenHash ∈ state.tokens.keys) :
    ∃ row, state.tokens.committed tokenHash = some row :=
  Option.isSome_iff_exists.mp ((sound.keyed tokenHash).mp member)

theorem Sound.isSome_read (sound : state.Sound) (process : Nat) (tokenHash : Str) :
    (state.tokens.read process tokenHash).isSome =
      (state.tokens.committed tokenHash).isSome := by
  have rel := sound.reads process tokenHash
  generalize state.tokens.committed tokenHash = before at rel ⊢
  generalize state.tokens.read process tokenHash = after at rel ⊢
  cases rel <;> rfl

/-- What another process reads of a known token after a step is what it read
before, or that token spent. -/
theorem Evolves.reads (evolves : Evolves actor state next) (sound : state.Sound)
    (other : process ≠ actor) {tokenHash : Str} (member : tokenHash ∈ state.tokens.keys)
    {row' : PasswordResetToken} (reads : next.tokens.read process tokenHash = some row') :
    ∃ row, state.tokens.read process tokenHash = some row ∧ row.Wanes row' := by
  by_cases held : state.tokens.holder tokenHash = some process
  · rw [evolves.tokens.read other held] at reads
    exact ⟨row', reads, .refl row'⟩
  · have heldAfter : next.tokens.holder tokenHash ≠ some process := by
      rw [Ne, evolves.tokens.holder other]
      exact held
    rw [Table.read_of_holder_ne _ _ heldAfter] at reads
    rw [Table.read_of_holder_ne _ _ held]
    rcases sound.committed member with ⟨row, committed⟩
    rcases evolves.rows committed with ⟨later, committedAfter, wanes⟩
    rw [reads] at committedAfter
    cases committedAfter
    exact ⟨row, committed, wanes⟩

theorem Revoked.evolves (evolves : Evolves actor state next) (sound : state.Sound)
    (other : process ≠ actor) {userId : Uuid} {seen : List Str}
    (known : ∀ tokenHash ∈ seen, tokenHash ∈ state.tokens.keys)
    (revoked : state.Revoked process userId seen) : next.Revoked process userId seen := by
  intro tokenHash member row' reads user live
  rcases evolves.reads sound other (known tokenHash member) reads with ⟨row, before, wanes⟩
  exact revoked tokenHash member row before (wanes.user ▸ user) (wanes.live evolves.clock live)

/-- The steps of the others keep what a process has secured. -/
theorem Owes.evolves (evolves : Evolves actor state next) (sound : state.Sound)
    (other : process ≠ actor) {running : ResetProcess} (owes : state.Owes process running) :
    next.Owes process running := by
  cases running with
  | idle | forgot _ | revoke _ | reset _ _ _ | consume _ _ _ _ => trivial
  | find userId asOf => exact le_trans owes evolves.clock
  | lock userId asOf seen matched =>
      rcases owes with ⟨earlier, known, matches'⟩
      refine ⟨le_trans earlier evolves.clock,
        fun tokenHash member => evolves.keys _ (known tokenHash member), ?_⟩
      intro tokenHash member row' reads user live
      rcases evolves.reads sound other (known tokenHash member) reads with
        ⟨row, before, wanes⟩
      exact matches' tokenHash member row before (wanes.user ▸ user)
        (wanes.live evolves.clock live)
  | mint userId seen =>
      exact ⟨fun tokenHash member => evolves.keys _ (owes.1 tokenHash member),
        owes.2.evolves evolves sound other owes.1⟩
  | insert seen tokenHash row =>
      exact ⟨fun tokenHash member => evolves.keys _ (owes.1 tokenHash member),
        owes.2.evolves evolves sound other owes.1⟩
  | select tokenHash userId newPassword salt =>
      rcases owes with ⟨held, committed, reads⟩
      exact ⟨(evolves.tokens.holder other).mpr held,
        (evolves.tokens.committed other held).symm ▸ committed,
        (evolves.tokens.read other held).symm ▸ reads⟩
  | rotate tokenHash userId passwordHash tokenVersion =>
      rcases owes with ⟨held, committed, reads⟩
      exact ⟨(evolves.tokens.holder other).mpr held,
        (evolves.tokens.committed other held).symm ▸ committed,
        (evolves.tokens.read other held).symm ▸ reads⟩

/-- No step but an insert lets a second link live. -/
theorem Evolves.oneLiveLink (evolves : Evolves actor state next) (sound : state.Sound)
    (known : ∀ tokenHash row, next.tokens.committed tokenHash = some row →
      tokenHash ∈ state.tokens.keys) :
    next.OneLiveLink := by
  have before : ∀ {tokenHash row'}, next.tokens.committed tokenHash = some row' →
      ∃ row, state.tokens.committed tokenHash = some row ∧ row.Wanes row' := by
    intro tokenHash row' committed
    rcases sound.committed (known _ _ committed) with ⟨row, earlier⟩
    rcases evolves.rows earlier with ⟨later, after, wanes⟩
    rw [committed] at after
    cases after
    exact ⟨row, earlier, wanes⟩
  intro left right leftRow rightRow leftIs rightIs user leftLive rightLive
  rcases before leftIs with ⟨leftBefore, leftWas, leftWanes⟩
  rcases before rightIs with ⟨rightBefore, rightWas, rightWanes⟩
  refine sound.one leftWas rightWas ?_ (leftWanes.live evolves.clock leftLive)
    (rightWanes.live evolves.clock rightLive)
  rw [← leftWanes.user, ← rightWanes.user]
  exact user

/-- A step of one process is sound when what it commits and secures is. -/
theorem Sound.of_evolves (sound : state.Sound) (evolves : Evolves actor state next)
    (others : ∀ process, process ≠ actor → next.processes process = state.processes process)
    (keyed : ∀ tokenHash, tokenHash ∈ next.tokens.keys ↔
      (next.tokens.committed tokenHash).isSome)
    (reads : ∀ tokenHash, Option.Rel Wanes (next.tokens.committed tokenHash)
      (next.tokens.read actor tokenHash))
    (owes : next.Owes actor (next.processes actor))
    (spent : ∀ tokenHash ∈ next.resets, ∃ row, next.tokens.committed tokenHash = some row ∧
      row.consumedAt ≠ none)
    (once : next.resets.Nodup) (one : next.OneLiveLink) : next.Sound := by
  refine ⟨keyed, ?_, ?_, spent, once, one⟩
  · intro process tokenHash
    by_cases mine : process = actor
    · subst mine
      exact reads tokenHash
    · by_cases held : state.tokens.holder tokenHash = some process
      · rw [evolves.tokens.read mine held, evolves.tokens.committed mine held]
        exact sound.reads process tokenHash
      · have heldAfter : next.tokens.holder tokenHash ≠ some process := by
          rw [Ne, evolves.tokens.holder mine]
          exact held
        rw [Table.read_of_holder_ne _ _ heldAfter]
        exact Wanes.rel _
  · intro process
    by_cases mine : process = actor
    · subst mine
      exact owes
    · rw [others process mine]
      exact (sound.owes process).evolves evolves sound mine

theorem Sound.spent_of_evolves (sound : state.Sound) (evolves : Evolves actor state next)
    {tokenHash : Str} (member : tokenHash ∈ state.resets) :
    ∃ row, next.tokens.committed tokenHash = some row ∧ row.consumedAt ≠ none := by
  rcases sound.spent tokenHash member with ⟨row, committed, spent⟩
  rcases evolves.rows committed with ⟨later, after, wanes⟩
  exact ⟨later, after, wanes.spent spent⟩

/-! ### The statements -/

/-- A rolled-back transaction holds nothing. -/
theorem rollback_releases (state : ResetState) (process : Nat) (tokenHash : Str) :
    (state.rollback process).tokens.holder tokenHash ≠ some process := by
  show (state.tokens.rollback process).holder tokenHash ≠ some process
  rw [Table.holder_rollback]
  split
  · simp
  · assumption

theorem setProcess_self (state : ResetState) (process : Nat) (running : ResetProcess) :
    (state.setProcess process running).processes process = running :=
  Function.update_self ..

theorem setProcess_of_ne (state : ResetState) {process other : Nat} (different : other ≠ process)
    (running : ResetProcess) :
    (state.setProcess process running).processes other = state.processes other :=
  Function.update_of_ne different ..

/-- A statement that reads rows and the clock and writes nothing. -/
theorem Sound.quiet (sound : state.Sound) (actor : Nat) (clock : state.now ≤ next.now)
    (tokens : next.tokens = state.tokens) (resets : next.resets = state.resets)
    (others : ∀ process, process ≠ actor → next.processes process = state.processes process)
    (owes : next.Owes actor (next.processes actor)) : next.Sound := by
  have evolves : Evolves actor state next :=
    ⟨clock, fun _ member => tokens ▸ member,
      fun {_ row} committed => ⟨row, tokens ▸ committed, .refl row⟩, tokens ▸ .refl _⟩
  refine sound.of_evolves evolves others ?_ ?_ owes ?_ (resets ▸ sound.once)
    (evolves.oneLiveLink sound ?_)
  · rw [tokens]
    exact sound.keyed
  · rw [tokens]
    exact sound.reads actor
  · intro tokenHash member
    exact sound.spent_of_evolves evolves (resets ▸ member)
  · intro tokenHash row committed
    rw [tokens] at committed
    exact (sound.keyed tokenHash).mpr (Option.isSome_of_eq_some committed)

/-- A process moves on to a statement that needs no more than is secured. -/
theorem Sound.moves (sound : state.Sound) (process : Nat) {running : ResetProcess}
    (owes : state.Owes process running) : (state.setProcess process running).Sound := by
  refine sound.quiet process (le_refl _) rfl rfl
    (fun other different => setProcess_of_ne state different running) ?_
  rw [setProcess_self]
  cases running <;> exact owes

theorem Sound.rollback (sound : state.Sound) (process : Nat) :
    (state.rollback process).Sound := by
  have evolves : Evolves process state (state.rollback process) :=
    ⟨le_refl _, fun _ member => member,
      fun {_ row} committed => ⟨row, (Table.committed_rollback ..).trans committed, .refl row⟩,
      .rollback _ _⟩
  have keyed : ∀ tokenHash, tokenHash ∈ (state.rollback process).tokens.keys ↔
      ((state.rollback process).tokens.committed tokenHash).isSome := by
    intro tokenHash
    rw [show (state.rollback process).tokens.committed tokenHash =
      state.tokens.committed tokenHash from Table.committed_rollback ..]
    exact sound.keyed tokenHash
  refine sound.of_evolves evolves (fun other different => setProcess_of_ne state different _)
    keyed ?_ ?_ (fun tokenHash member => sound.spent_of_evolves evolves member) sound.once
    (evolves.oneLiveLink sound ?_)
  · intro tokenHash
    rw [Table.read_of_holder_ne _ _ (rollback_releases state process tokenHash)]
    exact Wanes.rel _
  · rw [show (state.rollback process).processes process = .idle from setProcess_self ..]
    trivial
  · intro tokenHash row committed
    exact (keyed tokenHash).mpr (Option.isSome_of_eq_some committed)

/-- `revoke_all_live_for_user` leaves the account no live token it has found. -/
theorem Sound.revoke (sound : state.Sound) {process : Nat} {userId : Uuid} {asOf : Instant}
    {seen matched : List Str} (here : state.processes process = .lock userId asOf seen matched)
    (revokes : state.revoke process userId asOf seen matched = .ok next) : next.Sound := by
  unfold ResetState.revoke at revokes
  split at revokes
  · rename_i free
    cases revokes
    have owed := sound.owes process
    rw [here] at owed
    rcases owed with ⟨earlier, known, matches'⟩
    have wanes : ∀ (tokenHash : Str) (row : PasswordResetToken),
        row.Wanes (if revocable userId asOf tokenHash row then consumed asOf row else row) := by
      intro tokenHash row
      split
      · exact .consumed asOf row
      · exact .refl row
    have evolves : Evolves process state
        { state.setProcess process (.mint userId seen) with
          tokens := state.tokens.writeAll process matched fun tokenHash row =>
            some (if revocable userId asOf tokenHash row then consumed asOf row else row) } :=
      ⟨le_refl _, fun _ member => member,
        fun {_ row} committed => ⟨row, (Table.committed_writeAll ..).trans committed, .refl row⟩,
        .writeAll _ free⟩
    refine sound.of_evolves evolves (fun other different => setProcess_of_ne state different _)
      ?_ ?_ ?_ (fun tokenHash member => sound.spent_of_evolves evolves member) sound.once
      (evolves.oneLiveLink sound ?_)
    · intro tokenHash
      rw [Table.committed_writeAll]
      exact sound.keyed tokenHash
    · intro tokenHash
      rw [Table.committed_writeAll, Table.read_writeAll]
      split
      · exact Wanes.rel_bind (wanes tokenHash) (sound.reads process tokenHash)
      · exact sound.reads process tokenHash
    · rw [show (_ : ResetState).processes process = _ from setProcess_self ..]
      refine ⟨known, ?_⟩
      intro tokenHash member row' reads user live
      rw [Table.read_writeAll] at reads
      split at reads
      · rcases Option.bind_eq_some_iff.mp reads with ⟨row, before, changed⟩
        cases changed
        split at live
        · exact Option.some_ne_none asOf live.1
        · rename_i standing
          rw [if_neg standing] at user
          have stood : row.Live asOf := (Wanes.refl row).live earlier live
          exact standing (by simp [revocable, user, stood])
      · rename_i missed
        exact missed (matches' tokenHash member row' reads user live)
    · intro tokenHash row committed
      rw [Table.committed_writeAll] at committed
      exact (sound.keyed tokenHash).mpr (Option.isSome_of_eq_some committed)
  · contradiction

/-- The commit of a forgot-password task that nothing has rivalled. -/
theorem Sound.insert (sound : state.Sound) {process : Nat} {seen : List Str} {tokenHash : Str}
    {row : PasswordResetToken} (here : state.processes process = .insert seen tokenHash row)
    (unrivalled : Unrivalled state (.run process))
    (inserts : state.insert process tokenHash row = .ok next) : next.Sound := by
  unfold ResetState.insert at inserts
  split at inserts
  · contradiction
  · rename_i free
    split at inserts
    · cases inserts
      exact sound.rollback process
    · rename_i fresh
      cases inserts
      simp only [not_not, not_or] at free fresh
      have absent : state.tokens.committed tokenHash = none := fresh.1
      simp only [Unrivalled, here] at unrivalled
      have owed := sound.owes process
      rw [here] at owed
      rcases owed with ⟨known, revoked⟩
      have committed : ∀ other, ((state.tokens.write process tokenHash (some row)).commit
          process).committed other =
            if other = tokenHash then some row else state.tokens.read process other := by
        intro other
        rw [Table.committed_commit, Table.read_write]
        simp
      have evolves : Evolves process state
          { state.setProcess process .idle with
            tokens := (state.tokens.write process tokenHash (some row)).commit process } := by
        refine ⟨le_refl _, ?_, ?_, ?_⟩
        · intro other member
          exact (state.tokens.mem_keys_write process tokenHash (some row)).mpr (.inl member)
        · intro other before committedBefore
          rw [committed]
          have different : other ≠ tokenHash := by
            rintro rfl
            rw [absent] at committedBefore
            contradiction
          rw [if_neg different]
          exact sound.read process committedBefore
        · exact (Table.StepBy.write (some row) free).trans (.commit _ process)
      refine sound.of_evolves evolves (fun other different => setProcess_of_ne state different _)
        ?_ ?_ ?_ (fun other member => sound.spent_of_evolves evolves member) sound.once ?_
      · intro other
        rw [committed, Table.keys_commit, Table.mem_keys_write]
        by_cases new : other = tokenHash
        · simp [new]
        · rw [if_neg new, sound.keyed other]
          have same := sound.isSome_read process other
          simp [new, same]
      · intro other
        rw [Table.read_commit_self]
        exact Wanes.rel _
      · rw [show (_ : ResetState).processes process = _ from setProcess_self ..]
        trivial
      · -- a second live link was issued before the revoke looked, or rivals this one
        have single : ∀ {other found}, other ≠ tokenHash →
            state.tokens.read process other = some found → found.userId = row.userId →
            ¬ found.Live state.now := by
          intro other found different reads user live
          by_cases early : other ∈ seen
          · exact revoked other early found reads user live
          · rcases sound.committed_of_read reads with ⟨earlier, before, wanes⟩
            exact unrivalled other early earlier before (wanes.user ▸ user)
              (wanes.live (le_refl _) live)
        intro left right leftRow rightRow leftIs rightIs user leftLive rightLive
        rw [committed] at leftIs rightIs
        by_cases leftNew : left = tokenHash <;> by_cases rightNew : right = tokenHash
        · rw [leftNew, rightNew]
        · rw [if_pos leftNew] at leftIs
          rw [if_neg rightNew] at rightIs
          cases leftIs
          exact absurd rightLive (single rightNew rightIs user.symm)
        · rw [if_neg leftNew] at leftIs
          rw [if_pos rightNew] at rightIs
          cases rightIs
          exact absurd leftLive (single leftNew leftIs user)
        · rw [if_neg leftNew] at leftIs
          rw [if_neg rightNew] at rightIs
          rcases sound.committed_of_read leftIs with ⟨leftBefore, leftWas, leftWanes⟩
          rcases sound.committed_of_read rightIs with ⟨rightBefore, rightWas, rightWanes⟩
          refine sound.one leftWas rightWas ?_ (leftWanes.live (le_refl _) leftLive)
            (rightWanes.live (le_refl _) rightLive)
          rw [← leftWanes.user, ← rightWanes.user]
          exact user

theorem Sound.consume (sound : state.Sound) {process : Nat} {tokenHash newPassword : Str}
    {asOf : Instant} {salt : Nat}
    (consumes : state.consume process tokenHash asOf newPassword salt = .ok next) :
    next.Sound := by
  unfold ResetState.consume at consumes
  split at consumes
  · contradiction
  · rename_i free
    rw [not_not] at free
    cases reads : state.tokens.read process tokenHash with
    | none =>
        simp only [reads] at consumes
        cases consumes
        exact sound.rollback process
    | some row =>
        simp only [reads] at consumes
        split at consumes
        · rename_i live
          cases consumes
          rcases sound.committed_of_read reads with ⟨before, committed, wanes⟩
          have evolves : Evolves process state
              { state.setProcess process (.select tokenHash row.userId newPassword salt) with
                tokens := state.tokens.write process tokenHash (some (consumed asOf row)) } :=
            ⟨le_refl _,
              fun _ member => (state.tokens.mem_keys_write process tokenHash _).mpr (.inl member),
              fun {_ other} found => ⟨other, (Table.committed_write ..).trans found, .refl other⟩,
              .write _ free⟩
          have known : tokenHash ∈ state.tokens.keys :=
            (sound.keyed tokenHash).mpr (Option.isSome_of_eq_some committed)
          refine sound.of_evolves evolves
            (fun other different => setProcess_of_ne state different _) ?_ ?_ ?_
            (fun other member => sound.spent_of_evolves evolves member) sound.once
            (evolves.oneLiveLink sound ?_)
          · intro other
            rw [Table.committed_write, Table.mem_keys_write, ← sound.keyed other]
            constructor
            · rintro (member | rfl)
              · exact member
              · exact known
            · exact .inl
          · intro other
            rw [Table.committed_write, Table.read_write]
            by_cases here : other = tokenHash
            · rw [here, if_pos rfl, if_pos rfl, committed]
              exact .some (wanes.trans (.consumed asOf row))
            · rw [if_neg here]
              exact sound.reads process other
          · rw [show (_ : ResetState).processes process = _ from setProcess_self ..]
            refine ⟨?_, ⟨before, (Table.committed_write ..).trans committed, ?_⟩,
              ⟨_, Table.read_write_self .., Option.some_ne_none asOf⟩⟩
            · rw [Table.holder_write, if_pos rfl]
            · by_contra spent
              exact wanes.spent spent live.1
          · intro other found isFound
            rw [Table.committed_write] at isFound
            exact (sound.keyed other).mpr (Option.isSome_of_eq_some isFound)
        · cases consumes
          exact sound.rollback process

/-- A reset that commits spends a token no reset has spent. -/
theorem Sound.rotate (sound : state.Sound) {process : Nat} {tokenHash passwordHash : Str}
    {userId : Uuid} {tokenVersion : Nat}
    (here : state.processes process = .rotate tokenHash userId passwordHash tokenVersion) :
    (state.rotate process tokenHash userId passwordHash tokenVersion).Sound := by
  unfold ResetState.rotate
  split
  · exact sound.rollback process
  · rename_i user _
    have owed := sound.owes process
    rw [here] at owed
    rcases owed with ⟨held, ⟨row, committed, unspent⟩, ⟨spent, reads, isSpent⟩⟩
    have rows : ∀ {other before}, state.tokens.committed other = some before →
        ∃ after, (state.tokens.commit process).committed other = some after ∧
          before.Wanes after := by
      intro other before isBefore
      rw [Table.committed_commit]
      exact sound.read process isBefore
    have evolves : Evolves process state
        { state.setProcess process .idle with
          users := Function.update state.users userId
            (some { user with passwordHash := passwordHash, tokenVersion := tokenVersion })
          tokens := state.tokens.commit process
          resets := tokenHash :: state.resets } :=
      ⟨le_refl _, fun _ member => member, rows, .commit _ process⟩
    have keyed : ∀ other, other ∈ (state.tokens.commit process).keys ↔
        ((state.tokens.commit process).committed other).isSome := by
      intro other
      rw [Table.committed_commit, sound.isSome_read]
      exact sound.keyed other
    refine sound.of_evolves evolves (fun other different => setProcess_of_ne state different _)
      keyed ?_ ?_ ?_ ?_ (evolves.oneLiveLink sound ?_)
    · intro other
      rw [Table.read_commit_self]
      exact Wanes.rel _
    · rw [show (_ : ResetState).processes process = _ from setProcess_self ..]
      trivial
    · intro other member
      rcases List.mem_cons.mp member with rfl | earlier
      · exact ⟨spent, (state.tokens.committed_commit process other).trans reads, isSpent⟩
      · exact sound.spent_of_evolves evolves earlier
    · refine List.nodup_cons.mpr ⟨?_, sound.once⟩
      intro member
      rcases sound.spent tokenHash member with ⟨again, found, wasSpent⟩
      rw [committed] at found
      cases found
      exact wasSpent unspent
    · intro other found isFound
      exact (keyed other).mpr (Option.isSome_of_eq_some isFound)

/-- Time passing, or another request changing an account. -/
theorem Sound.frame (sound : state.Sound) (clock : state.now ≤ next.now)
    (tokens : next.tokens = state.tokens) (resets : next.resets = state.resets)
    (processes : next.processes = state.processes) : next.Sound := by
  have evolves : Evolves 1 state next :=
    ⟨clock, fun _ member => tokens ▸ member,
      fun {_ row} committed => ⟨row, tokens ▸ committed, .refl row⟩, tokens ▸ .refl _⟩
  refine sound.quiet 0 clock tokens resets (fun _ _ => by rw [processes]) ?_
  rw [processes]
  exact (sound.owes 0).evolves evolves sound Nat.zero_ne_one

variable {settings : ResetSettings}

theorem Sound.runs {process : Nat} (sound : state.Sound)
    (unrivalled : Unrivalled state (.run process))
    (stepped : state.runProcess settings process = .ok next) : next.Sound := by
  have owed := sound.owes process
  unfold runProcess at stepped
  cases here : state.processes process with
  | idle =>
      simp only [here] at stepped
      contradiction
  | forgot userId =>
      simp only [here, Except.ok.injEq] at stepped
      subst stepped
      unfold ResetState.forgot
      split
      · exact sound.rollback process
      · split
        · exact sound.rollback process
        · exact sound.moves process trivial
  | revoke userId =>
      simp only [here, Except.ok.injEq] at stepped
      subst stepped
      exact sound.moves process (le_refl state.now)
  | find userId asOf =>
      simp only [here, Except.ok.injEq] at stepped
      subst stepped
      rw [here] at owed
      refine sound.moves process ⟨owed, fun _ member => member, ?_⟩
      intro tokenHash member row reads user live
      have lived : row.Live asOf := (Wanes.refl row).live owed live
      exact Table.mem_select.mpr ⟨member, row, reads, by simp [revocable, user, lived]⟩
  | lock userId asOf seen matched =>
      simp only [here] at stepped
      exact sound.revoke here stepped
  | mint userId seen =>
      simp only [here, Except.ok.injEq] at stepped
      subst stepped
      rw [here] at owed
      refine sound.quiet process (le_refl _) rfl rfl
        (fun other different => setProcess_of_ne state different _) ?_
      rw [show (state.mint settings process userId seen).processes process = _ from
        setProcess_self ..]
      exact owed
  | insert seen tokenHash row =>
      simp only [here] at stepped
      exact sound.insert here unrivalled stepped
  | reset rawToken newPassword salt =>
      simp only [here, Except.ok.injEq] at stepped
      subst stepped
      exact sound.moves process trivial
  | consume tokenHash asOf newPassword salt =>
      simp only [here] at stepped
      exact sound.consume stepped
  | select tokenHash userId newPassword salt =>
      simp only [here, Except.ok.injEq] at stepped
      subst stepped
      rw [here] at owed
      unfold ResetState.select
      split
      · exact sound.rollback process
      · split
        · exact sound.rollback process
        · exact sound.moves process owed
  | rotate tokenHash userId passwordHash tokenVersion =>
      simp only [here, Except.ok.injEq] at stepped
      subst stepped
      exact sound.rotate here

theorem Sound.step {label : ResetLabel} (sound : state.Sound)
    (unrivalled : Unrivalled state label) (stepped : step settings label state = .ok next) :
    next.Sound := by
  cases label with
  | tick later =>
      simp only [ResetState.step] at stepped
      split at stepped
      · contradiction
      · cases stepped
        exact sound.frame (not_lt.mp ‹_›) rfl rfl rfl
  | edit userId row =>
      cases stepped
      exact sound.frame (le_refl _) rfl rfl rfl
  | forgot process userId =>
      simp only [ResetState.step] at stepped
      split at stepped
      · contradiction
      · cases stepped
        exact sound.moves process trivial
  | reset process rawToken newPassword salt =>
      simp only [ResetState.step] at stepped
      split at stepped
      · contradiction
      · cases stepped
        exact sound.moves process trivial
  | fail process =>
      cases stepped
      exact sound.rollback process
  | run process =>
      exact sound.runs unrivalled stepped

theorem Initial.sound (initial : state.Initial) : state.Sound := by
  refine ⟨initial.keyed, ?_, ?_, ?_, ?_, initial.one⟩
  · intro process tokenHash
    rw [Table.read_of_holder_ne]
    · exact Wanes.rel _
    · simp [initial.unlocked]
  · intro process
    rw [initial.idle]
    trivial
  · simp [initial.fresh]
  · simp [initial.fresh]

theorem sound_of_reachable
    (reachable : ((resetSystem settings).restrict Unrivalled).Reachable state) : state.Sound := by
  refine System.Reachable.invariant ?_ ?_ reachable
  · exact Initial.sound
  · intro state label next sound stepped
    exact sound.step stepped.1 stepped.2

/-! ### Refusals -/

/-- A reset step that ends its request without a reset rolls back. -/
theorem rollback_of_refused (isReset : (state.processes process).isReset)
    (stepped : state.runProcess settings process = .ok next)
    (ended : next.processes process = .idle) (unreset : next.resets = state.resets) :
    next.tokens = state.tokens.rollback process := by
  unfold runProcess at stepped
  cases here : state.processes process with
  | idle | forgot _ | revoke _ | find _ _ | lock _ _ _ _ | mint _ _ | insert _ _ _ =>
      rw [here] at isReset
      contradiction
  | reset rawToken newPassword salt =>
      simp only [here, Except.ok.injEq] at stepped
      subst stepped
      rw [setProcess_self] at ended
      contradiction
  | consume tokenHash asOf newPassword salt =>
      simp only [here, ResetState.consume] at stepped
      split at stepped
      · contradiction
      · split at stepped
        · cases stepped
          rfl
        · split at stepped
          · cases stepped
            simp [setProcess] at ended
          · cases stepped
            rfl
  | select tokenHash userId newPassword salt =>
      simp only [here, Except.ok.injEq, ResetState.select] at stepped
      split at stepped
      · subst stepped
        rfl
      · split at stepped
        · subst stepped
          rfl
        · subst stepped
          rw [setProcess_self] at ended
          contradiction
  | rotate tokenHash userId passwordHash tokenVersion =>
      simp only [here, Except.ok.injEq, ResetState.rotate] at stepped
      split at stepped
      · subst stepped
        rfl
      · subst stepped
        simp at unreset

end ResetState

open ResetState

/-- Where no rival link is live when a task commits its own, links behave. -/
theorem resetLinks_of_unrivalled (settings : ResetSettings) :
    ResetLinks ((resetSystem settings).restrict Unrivalled) := by
  refine ⟨fun reachable _ => (sound_of_reachable reachable).one,
    fun reachable => (sound_of_reachable reachable).once, ?_⟩
  intro state next process _ isReset stepped ended unreset tokenHash
  have rolledBack := rollback_of_refused isReset stepped.2 ended unreset
  rw [rolledBack]
  refine ⟨Table.committed_rollback .., ?_⟩
  rw [Table.holder_rollback]
  split
  · simp
  · assumption

/-! ### Two tasks at once -/

namespace Overlap

def settings : ResetSettings where
  passwordResetTokenMinutes := 60
  bcrypt := ⟨fun bytes salt => salt :: bytes, fun bytes hashed => hashed.tail = bytes⟩
  hashToken := id
  tokenUrlsafe := fun count => [count]

def account : User where
  id := 1
  username := str "analyst"
  email := str "analyst@example.org"
  passwordHash := str "hash"
  isActive := true
  isAdmin := false
  lastSeenAt := none
  deletedAt := none
  tokenVersion := 0

def start : ResetState where
  now := 0
  users := fun id => if id = 1 then some account else none
  tokens := .ofRows [] fun _ => none
  drawn := 0
  processes := fun _ => .idle
  resets := []

/-- Two tasks revoke before either has inserted. -/
def bothRevokeFirst : List ResetLabel :=
  [.forgot 0 1, .forgot 1 1, .run 0, .run 0, .run 0, .run 0, .run 1, .run 1, .run 1, .run 1,
    .run 0, .run 1, .run 0, .run 1]

theorem start_initial : start.Initial := by
  refine ⟨fun _ => rfl, fun _ => rfl, ?_, ?_, rfl⟩
  · intro tokenHash
    simp [start, Table.ofRows, Table.committed]
  · intro left right leftRow rightRow leftIs
    simp [start, Table.ofRows, Table.committed] at leftIs

/-- Two forgot-password tasks that each revoke before the other inserts leave
two live links. -/
theorem resetLinks_fails : ¬ ResetLinks (resetSystem settings) := by
  intro links
  have run : ∃ final, System.runLabels (ResetState.step settings) bothRevokeFirst start =
      .ok final ∧ (∀ process, final.processes process = .idle) ∧
      ∃ left right, final.tokens.committed [0] = some left ∧
        final.tokens.committed [1] = some right ∧ left.userId = right.userId ∧
        left.Live final.now ∧ right.Live final.now := by
    refine ⟨_, rfl, ?_, _, _, rfl, rfl, rfl, by decide, by decide⟩
    intro process
    rcases process with _ | _ | rest <;> rfl
  rcases run with ⟨final, reached, idle, left, right, leftIs, rightIs, user, leftLive, rightLive⟩
  have reachable : (resetSystem settings).Reachable final :=
    ⟨start, start_initial, System.Run.of_runLabels reached⟩
  exact absurd (links.one reachable idle leftIs rightIs user leftLive rightLive) (by decide)

end Overlap

end Vidit.Accounts
