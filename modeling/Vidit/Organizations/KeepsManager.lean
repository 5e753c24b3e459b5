import Mathlib.Data.List.Perm.Subperm
import Vidit.Organizations.Members

/-!
Contract: an organization with a live manager keeps one while it has a live member.

Owns:
- `KeepsManager`, the promise, and `OnTime`, the condition under which it holds;
- `keepsManager_of_onTime`, that every run whose deletions commit on what they read
  keeps the promise;
- a run that breaks it when a member is promoted after their deletion read their
  role.

Proof shape: while a process holds the organization row no other commit changes a
role or ends a live manager (`Evolves.rows`, `Evolves.managers`), so the manager a
guard or a hand-over found is there when it commits.
-/

namespace Vidit.Organizations

open Vidit.Python Vidit.Accounts Vidit.Library

/-- No run leaves a live member without a live manager where there was one. -/
def KeepsManager (system : System MemberState MemberLabel) : Prop :=
  ∀ {state final}, system.Reachable state → system.Run state final →
    (∃ managerId, state.LiveManager managerId) → (∃ memberId, final.LiveMember memberId) →
      ∃ managerId, final.LiveManager managerId

namespace MemberState

/-- A deletion that commits had read the account as a manager if it is one, and the
heir it chose is still live. -/
def OnTime (state : MemberState) (label : MemberLabel) : Prop :=
  ∀ {process deletion manages heirId}, label = .run process →
    state.processes process = .commitDeletion deletion manages heirId →
    (state.LiveManager deletion.userId → manages = true) ∧
      ∀ heir, heirId = some heir → state.LiveUser heir

variable {state next : MemberState} {actor process : Nat} {running : MemberProcess}

/-! ### What a process owes -/

/-- The process holds no row of a table. -/
structure Rests (state : MemberState) (process : Nat) : Prop where
  users : state.users.Holdless process
  members : state.members.Holdless process

/-- A live manager besides the target. -/
def Spared (state : MemberState) (targetId : Uuid) : Prop :=
  ∃ other, other ≠ targetId ∧ state.LiveManager other

/-- A demotion or removal of the target leaves a live manager. -/
def Dispensable (state : MemberState) (targetId : Uuid) : Prop :=
  ∀ member, state.members.committed targetId = some member →
    member.state = .active ∧ (member.role = .manager → state.Spared targetId)

/-- The write of the verb leaves a live manager. -/
def Ready (state : MemberState) (targetId : Uuid) : MemberVerb → Prop
  | .appointManager => True
  | .changeRole .manager =>
    ∀ member, state.members.committed targetId = some member → member.state = .active
  | .changeRole .member | .removeMember => state.Dispensable targetId

/-- The row is an active manager's. -/
def IsManager (row : Option OrganizationMember) : Prop :=
  ∃ member, row = some member ∧ member.state = .active ∧ member.role = .manager

/-- The process reads no live account. -/
def Gone (state : MemberState) (process : Nat) (userId : Uuid) : Prop :=
  ∀ user, state.users.read process userId = some user → user.deletedAt ≠ none

/-- A deletion holds no account but its own, which a soft one has marked. -/
structure Marks (state : MemberState) (process : Nat) (deletion : Deletion) : Prop where
  users : ∀ {userId}, state.users.holder userId = some process → userId = deletion.userId
  marked : deletion.hard = false → state.Gone process deletion.userId
  held : state.users.holder deletion.userId = some process → state.Gone process deletion.userId

/-- A hand-over found a live manager, promoted an heir, or found nobody. -/
def Covered (state : MemberState) (userId : Uuid) (heirId : Option Uuid) : Prop :=
  state.Spared userId ∨ heirId.isSome ∨ ∀ other, other ≠ userId → ¬ state.LiveMember other

/-- The heir's row, promoted. -/
structure Inherits (state : MemberState) (process : Nat) (userId heirId : Uuid) : Prop where
  other : heirId ≠ userId
  holds : state.members.holder heirId = some process
  promoted : IsManager (state.members.read process heirId)
  active : ∃ member, state.members.committed heirId = some member ∧ member.state = .active

/-- A hand-over that is over. -/
structure HandsOver (state : MemberState) (process : Nat) (deletion : Deletion) (manages : Bool)
    (heirId : Option Uuid) : Prop where
  marks : state.Marks process deletion
  covered : manages = true → state.locked = some process ∧ state.Covered deletion.userId heirId
  heir : ∀ heir, heirId = some heir → manages = true ∧
    state.Inherits process deletion.userId heir
  members : ∀ {userId}, state.members.holder userId = some process →
    heirId = some userId ∨
      userId = deletion.userId ∧ state.members.read process userId = none

def Owes (state : MemberState) (process : Nat) : MemberProcess → Prop
  | .idle | .raised _ | .lockOrganization _ | .loadUser _ | .markDeleted _ => state.Rests process
  | .requireManager _ | .findUser _ | .findMember _ _ =>
    state.locked = some process ∧ state.Rests process
  | .requireRemover request targetId member | .guardLastManager request targetId member =>
    state.locked = some process ∧ state.Rests process ∧
      (request.verb = .changeRole .member ∨ request.verb = .removeMember) ∧
      member.state = .active ∧
      ∀ row, state.members.committed targetId = some row → row = member
  | .writeMember request targetId =>
    state.locked = some process ∧ state.Rests process ∧ state.Ready targetId request.verb
  | .commitMember targetId =>
    state.locked = some process ∧ state.users.Holdless process ∧
      (∀ userId, state.members.holder userId = some process ↔ userId = targetId) ∧
      (IsManager (state.members.read process targetId) ∨
        (∃ member, state.members.committed targetId = some member) ∧
          state.Dispensable targetId)
  | .readRoles deletion | .lockHandOver deletion =>
    state.members.Holdless process ∧ state.Marks process deletion
  | .readManagers deletion | .readHeir deletion =>
    state.locked = some process ∧ state.members.Holdless process ∧ state.Marks process deletion
  | .promoteHeir deletion heirId =>
    state.locked = some process ∧ state.members.Holdless process ∧ state.Marks process deletion ∧
      heirId ≠ deletion.userId ∧
      ∀ member, state.members.committed heirId = some member → member.state = .active
  | .dropUser deletion manages heirId =>
    state.HandsOver process deletion manages heirId
  | .commitDeletion deletion manages heirId =>
    state.HandsOver process deletion manages heirId ∧ state.Gone process deletion.userId

/-- The invariant of every run whose deletions are on time. -/
structure Sound (state : MemberState) : Prop where
  indexed : state.members.Indexed
  owes : ∀ process, state.Owes process (state.processes process)

/-! ### What the others leave -/

/-- A step as one of the other processes sees it. -/
structure Evolves (actor : Nat) (state next : MemberState) : Prop where
  users : Table.StepBy actor state.users next.users
  members : Table.StepBy actor state.members next.members
  locked : ∀ {other}, other ≠ actor → (next.locked = some other ↔ state.locked = some other)
  /-- Nobody comes back to life. -/
  live : ∀ {userId}, next.LiveUser userId → state.LiveUser userId
  /-- Under another's lock, a row is deleted or stands. -/
  rows : ∀ {other userId member}, other ≠ actor → state.locked = some other →
    next.members.committed userId = some member →
      state.members.committed userId = some member
  /-- Under another's lock, a live manager stands. -/
  managers : ∀ {other userId}, other ≠ actor → state.locked = some other →
    state.LiveManager userId → next.LiveManager userId

theorem Spared.evolves {targetId : Uuid} (spared : state.Spared targetId)
    (evolves : Evolves actor state next) (other : process ≠ actor)
    (locked : state.locked = some process) : next.Spared targetId := by
  rcases spared with ⟨managerId, different, manager⟩
  exact ⟨managerId, different, evolves.managers other locked manager⟩

theorem Dispensable.evolves {targetId : Uuid} (dispensable : state.Dispensable targetId)
    (evolves : Evolves actor state next) (other : process ≠ actor)
    (locked : state.locked = some process) : next.Dispensable targetId := by
  intro member committed
  have before := dispensable member (evolves.rows other locked committed)
  exact ⟨before.1, fun manager => (before.2 manager).evolves evolves other locked⟩

theorem Ready.evolves {targetId : Uuid} {verb : MemberVerb} (ready : state.Ready targetId verb)
    (evolves : Evolves actor state next) (other : process ≠ actor)
    (locked : state.locked = some process) : next.Ready targetId verb := by
  match verb, ready with
  | .appointManager, _ => trivial
  | .changeRole .manager, active =>
      exact fun member committed => active member (evolves.rows other locked committed)
  | .changeRole .member, dispensable =>
      exact Dispensable.evolves dispensable evolves other locked
  | .removeMember, dispensable => exact Dispensable.evolves dispensable evolves other locked

theorem Gone.evolves {userId : Uuid} (gone : state.Gone process userId)
    (evolves : Evolves actor state next) (other : process ≠ actor) : next.Gone process userId := by
  intro user reads
  by_cases held : state.users.holder userId = some process
  · rw [evolves.users.read other held] at reads
    exact gone user reads
  · have heldAfter : next.users.holder userId ≠ some process := by
      rw [Ne, evolves.users.holder other]
      exact held
    rw [Table.read_of_holder_ne _ _ heldAfter] at reads
    intro live
    rcases evolves.live ⟨user, reads, live⟩ with ⟨before, committed, liveBefore⟩
    rw [← Table.read_of_holder_ne _ _ held] at committed
    exact gone before committed liveBefore

theorem Marks.evolves {deletion : Deletion} (marks : state.Marks process deletion)
    (evolves : Evolves actor state next) (other : process ≠ actor) :
    next.Marks process deletion where
  users held := marks.users ((evolves.users.holder other).mp held)
  marked soft := (marks.marked soft).evolves evolves other
  held held := (marks.held ((evolves.users.holder other).mp held)).evolves evolves other

theorem LiveMember.of_evolves {userId : Uuid} (member : next.LiveMember userId)
    (evolves : Evolves actor state next) (other : process ≠ actor)
    (locked : state.locked = some process) : state.LiveMember userId := by
  rcases member with ⟨live, row, committed, active⟩
  exact ⟨evolves.live live, row, evolves.rows other locked committed, active⟩

theorem HandsOver.evolves {deletion : Deletion} {manages : Bool} {heirId : Option Uuid}
    (handsOver : state.HandsOver process deletion manages heirId)
    (evolves : Evolves actor state next) (other : process ≠ actor) :
    next.HandsOver process deletion manages heirId := by
  refine ⟨handsOver.marks.evolves evolves other, ?_, ?_, ?_⟩
  · intro manages
    rcases handsOver.covered manages with ⟨locked, covered⟩
    refine ⟨(evolves.locked other).mpr locked, ?_⟩
    rcases covered with spared | inherited | nobody
    · exact .inl (spared.evolves evolves other locked)
    · exact .inr (.inl inherited)
    · exact .inr (.inr fun userId different member =>
        nobody userId different (member.of_evolves evolves other locked))
  · intro heir isHeir
    rcases handsOver.heir heir isHeir with ⟨manages, inherits⟩
    refine ⟨manages, inherits.other, (evolves.members.holder other).mpr inherits.holds, ?_, ?_⟩
    · rw [evolves.members.read other inherits.holds]
      exact inherits.promoted
    · rw [evolves.members.committed other inherits.holds]
      exact inherits.active
  · intro userId held
    have before := (evolves.members.holder other).mp held
    rw [evolves.members.read other before]
    exact handsOver.members before

/-- The steps of the others keep what a process has secured. -/
theorem Owes.evolves (evolves : Evolves actor state next) (other : process ≠ actor)
    (owes : state.Owes process running) : next.Owes process running := by
  have rests : state.Rests process → next.Rests process := fun rests =>
    ⟨evolves.users.holdless other rests.users, evolves.members.holdless other rests.members⟩
  have locked : state.locked = some process → next.locked = some process :=
    (evolves.locked other).mpr
  have members : state.members.Holdless process → next.members.Holdless process :=
    evolves.members.holdless other
  cases running with
  | idle | raised _ | lockOrganization _ | loadUser _ | markDeleted _ => exact rests owes
  | requireManager request | findUser request | findMember request targetId =>
      exact ⟨locked owes.1, rests owes.2⟩
  | requireRemover request targetId member | guardLastManager request targetId member =>
      refine ⟨locked owes.1, rests owes.2.1, owes.2.2.1, owes.2.2.2.1, ?_⟩
      exact fun row committed => owes.2.2.2.2 row (evolves.rows other owes.1 committed)
  | writeMember request targetId =>
      exact ⟨locked owes.1, rests owes.2.1, owes.2.2.evolves evolves other owes.1⟩
  | commitMember targetId =>
      rcases owes with ⟨isLocked, users, holds, result⟩
      have held := (holds targetId).mpr rfl
      refine ⟨locked isLocked, evolves.users.holdless other users,
        fun userId => (evolves.members.holder other).trans (holds userId), ?_⟩
      rw [evolves.members.read other held, evolves.members.committed other held]
      exact result.imp_right fun rest => ⟨rest.1, rest.2.evolves evolves other isLocked⟩
  | readRoles deletion | lockHandOver deletion =>
      exact ⟨members owes.1, owes.2.evolves evolves other⟩
  | readManagers deletion | readHeir deletion =>
      exact ⟨locked owes.1, members owes.2.1, owes.2.2.evolves evolves other⟩
  | promoteHeir deletion heirId =>
      refine ⟨locked owes.1, members owes.2.1, owes.2.2.1.evolves evolves other, owes.2.2.2.1, ?_⟩
      exact fun member committed => owes.2.2.2.2 member (evolves.rows other owes.1 committed)
  | dropUser deletion manages heirId => exact HandsOver.evolves owes evolves other
  | commitDeletion deletion manages heirId =>
      exact ⟨owes.1.evolves evolves other, owes.2.evolves evolves other⟩

/-! ### Steps -/

/-- Where there is a live member, there is a live manager. -/
def Managed (state : MemberState) : Prop :=
  (∃ memberId, state.LiveMember memberId) → ∃ managerId, state.LiveManager managerId

/-- A step keeps the invariant, and the manager of a managed organization. -/
structure Advances (state next : MemberState) : Prop where
  sound : next.Sound
  managed : state.Managed → next.Managed

theorem setProcess_self (state : MemberState) (process : Nat) (running : MemberProcess) :
    (state.setProcess process running).processes process = running :=
  Function.update_self ..

theorem setProcess_of_ne (state : MemberState) {process other : Nat} (different : other ≠ process)
    (running : MemberProcess) :
    (state.setProcess process running).processes other = state.processes other :=
  Function.update_of_ne different ..

/-- A step of one process is sound when what it writes and secures is. -/
theorem Sound.acts (sound : state.Sound) (process : Nat)
    (turns : next.processes = (state.setProcess process running).processes)
    (evolves : Evolves process state next) (indexed : next.members.Indexed)
    (owes : next.Owes process running) : next.Sound := by
  refine ⟨indexed, ?_⟩
  intro other
  by_cases mine : other = process
  · subst mine
    rw [turns, setProcess_self]
    exact owes
  · rw [turns, setProcess_of_ne state mine]
    exact (sound.owes other).evolves evolves mine

/-- A step that commits nothing. -/
structure Quiet (actor : Nat) (state next : MemberState) : Prop where
  users : Table.StepBy actor state.users next.users
  members : Table.StepBy actor state.members next.members
  committedUsers : ∀ userId, next.users.committed userId = state.users.committed userId
  committedMembers : ∀ userId, next.members.committed userId = state.members.committed userId
  locked : ∀ {other}, other ≠ actor → (next.locked = some other ↔ state.locked = some other)

theorem Quiet.liveUser (quiet : Quiet actor state next) {userId : Uuid} :
    next.LiveUser userId ↔ state.LiveUser userId := by
  unfold LiveUser
  rw [quiet.committedUsers]

theorem Quiet.liveMember (quiet : Quiet actor state next) {userId : Uuid} :
    next.LiveMember userId ↔ state.LiveMember userId := by
  unfold LiveMember
  rw [quiet.liveUser, quiet.committedMembers]

theorem Quiet.liveManager (quiet : Quiet actor state next) {userId : Uuid} :
    next.LiveManager userId ↔ state.LiveManager userId := by
  unfold LiveManager
  rw [quiet.liveUser, quiet.committedMembers]

theorem Quiet.evolves (quiet : Quiet actor state next) : Evolves actor state next where
  users := quiet.users
  members := quiet.members
  locked := quiet.locked
  live := quiet.liveUser.mp
  rows _ _ committed := by
    rw [quiet.committedMembers] at committed
    exact committed
  managers _ _ manager := quiet.liveManager.mpr manager

theorem Quiet.managed (quiet : Quiet actor state next) (managed : state.Managed) :
    next.Managed := by
  rintro ⟨memberId, member⟩
  rcases managed ⟨memberId, quiet.liveMember.mp member⟩ with ⟨managerId, manager⟩
  exact ⟨managerId, quiet.liveManager.mpr manager⟩

/-- What only reads committed rows stands in a quiet step of the process itself. -/
theorem Quiet.spared (quiet : Quiet actor state next) {targetId : Uuid}
    (spared : state.Spared targetId) : next.Spared targetId := by
  rcases spared with ⟨managerId, different, manager⟩
  exact ⟨managerId, different, quiet.liveManager.mpr manager⟩

theorem Sound.quiet (sound : state.Sound) (process : Nat)
    (turns : next.processes = (state.setProcess process running).processes)
    (quiet : Quiet process state next) (indexed : next.members.Indexed)
    (owes : next.Owes process running) : Advances state next :=
  ⟨sound.acts process turns quiet.evolves indexed owes, quiet.managed⟩

theorem Quiet.refl (actor : Nat) (users : next.users = state.users)
    (members : next.members = state.members) (locked : next.locked = state.locked) :
    Quiet actor state next :=
  ⟨users ▸ .refl _, members ▸ .refl _, fun _ => users ▸ rfl, fun _ => members ▸ rfl,
    fun _ => locked ▸ Iff.rfl⟩

/-- What a process has secured stands while the tables and the lock do. -/
theorem Owes.of_tables (owes : state.Owes process running) (users : next.users = state.users)
    (members : next.members = state.members) (locked : next.locked = state.locked) :
    next.Owes process running :=
  owes.evolves (Quiet.refl (process + 1) users members locked).evolves
    (Nat.succ_ne_self process).symm

/-- A process moves on to a statement that needs no more than is secured. -/
theorem Sound.moves (sound : state.Sound) (process : Nat) {running : MemberProcess}
    (owes : state.Owes process running) : Advances state (state.setProcess process running) :=
  sound.quiet process rfl (.refl process rfl rfl rfl) sound.indexed (owes.of_tables rfl rfl rfl)

theorem unlocked_iff {other : Nat} (different : other ≠ process) :
    state.unlocked process = some other ↔ state.locked = some other := by
  unfold unlocked
  split
  · rename_i mine
    rw [mine]
    simp [different.symm]
  · exact Iff.rfl

theorem Sound.rollback (sound : state.Sound) (process : Nat) {running : MemberProcess}
    (ended : running.ended = true) : Advances state (state.rollback process running) := by
  refine sound.quiet process rfl ⟨.rollback _ _, .rollback _ _, Table.committed_rollback _ _,
    Table.committed_rollback _ _, unlocked_iff⟩ (sound.indexed.rollback process) ?_
  cases running with
  | idle | raised _ => exact ⟨Table.holdless_rollback _ _, Table.holdless_rollback _ _⟩
  | _ => contradiction

/-- A process takes the organization row. -/
theorem lock_advances (sound : state.Sound)
    (owes : ({ state.setProcess process running with locked := some process } :
      MemberState).Owes process running)
    (taken : state.lock process running = .ok next) : Advances state next := by
  unfold lock at taken
  split at taken
  · rename_i free
    cases taken
    refine sound.quiet process rfl ⟨.refl _, .refl _, fun _ => rfl, fun _ => rfl, ?_⟩ sound.indexed
      owes
    intro other different
    show some process = some other ↔ state.locked = some other
    rcases free with unheld | mine
    · rw [unheld]
      simp [different.symm]
    · rw [mine]
  · contradiction

/-! ### Commits -/

theorem rests_commit (state : MemberState) (process : Nat) (running : MemberProcess) :
    (state.commit process running).Rests process :=
  ⟨Table.holdless_commit _ _, Table.holdless_commit _ _⟩

/-- The commit of a process that holds nothing. -/
theorem Sound.commitNothing (sound : state.Sound) (rests : state.Rests process) :
    Advances state (state.commit process .idle) := by
  refine sound.quiet process rfl ⟨.commit _ _, .commit _ _, ?_, ?_, unlocked_iff⟩
    (sound.indexed.commit process) (rests_commit state process .idle)
  · exact fun userId => (Table.committed_commit ..).trans
      (Table.read_of_holdless _ _ rests.users userId)
  · exact fun userId => (Table.committed_commit ..).trans
      (Table.read_of_holdless _ _ rests.members userId)

/-- The commit of a role change, a removal or an appointment. -/
theorem commitMember_advances (sound : state.Sound) {targetId : Uuid}
    (here : state.processes process = .commitMember targetId) :
    Advances state (state.commit process .idle) := by
  have owes := sound.owes process
  rw [here] at owes
  rcases owes with ⟨locked, users, holds, result⟩
  have sameUsers : ∀ userId, (state.commit process .idle).users.committed userId =
      state.users.committed userId := fun userId =>
    (Table.committed_commit ..).trans (Table.read_of_holdless _ _ users userId)
  have sameLive : ∀ {userId}, (state.commit process .idle).LiveUser userId ↔
      state.LiveUser userId := by
    intro userId
    unfold LiveUser
    rw [sameUsers]
  have sameMembers : ∀ {userId}, userId ≠ targetId →
      (state.commit process .idle).members.committed userId = state.members.committed userId := by
    intro userId different
    refine (Table.committed_commit ..).trans (Table.read_of_holder_ne _ _ ?_)
    exact fun held => different ((holds userId).mp held)
  have stands : ∀ {userId}, userId ≠ targetId → state.LiveManager userId →
      (state.commit process .idle).LiveManager userId := by
    rintro userId different ⟨live, member, committed, manages⟩
    exact ⟨sameLive.mpr live, member, (sameMembers different).trans committed, manages⟩
  have evolves : Evolves process state (state.commit process .idle) := by
    refine ⟨.commit _ _, .commit _ _, unlocked_iff, sameLive.mp, ?_, ?_⟩
    · intro other userId member different isLocked
      rw [locked] at isLocked
      exact absurd (Option.some.inj isLocked).symm different
    · intro other userId different isLocked
      rw [locked] at isLocked
      exact absurd (Option.some.inj isLocked).symm different
  refine ⟨sound.acts process rfl evolves (sound.indexed.commit process)
    (rests_commit state process .idle), ?_⟩
  rintro managed ⟨memberId, live, member, committed, active⟩
  rcases result with promoted | ⟨⟨old, isOld⟩, dispensable⟩
  · by_cases targetLive : state.LiveUser targetId
    · rcases promoted with ⟨row, reads, isManager⟩
      exact ⟨targetId, sameLive.mpr targetLive, row, (Table.committed_commit ..).trans reads,
        isManager⟩
    · -- the target is dead, so the member and its manager are others
      have different : memberId ≠ targetId := by
        rintro rfl
        exact targetLive (sameLive.mp live)
      rw [sameMembers different] at committed
      rcases managed ⟨memberId, sameLive.mp live, member, committed, active⟩ with
        ⟨managerId, manager⟩
      refine ⟨managerId, stands ?_ manager⟩
      rintro rfl
      exact targetLive manager.1
  · have before : state.LiveMember memberId := by
      refine ⟨sameLive.mp live, ?_⟩
      by_cases here : memberId = targetId
      · rw [here]
        exact ⟨old, isOld, (dispensable old isOld).1⟩
      · rw [sameMembers here] at committed
        exact ⟨member, committed, active⟩
    rcases managed ⟨memberId, before⟩ with ⟨managerId, manager⟩
    by_cases same : managerId = targetId
    · subst same
      rcases manager.2 with ⟨row, isRow, _, role⟩
      rcases (dispensable row isRow).2 role with ⟨other, different, isManager⟩
      exact ⟨other, stands different isManager⟩
    · exact ⟨managerId, stands same manager⟩

/-- The commit of a deletion that is on time. -/
theorem commitDeletion_advances (sound : state.Sound) {deletion : Deletion} {manages : Bool}
    {heirId : Option Uuid}
    (here : state.processes process = .commitDeletion deletion manages heirId)
    (onTime : (state.LiveManager deletion.userId → manages = true) ∧
      ∀ heir, heirId = some heir → state.LiveUser heir) :
    Advances state (state.commit process .idle) := by
  have owes := sound.owes process
  rw [here] at owes
  rcases owes with ⟨handsOver, gone⟩
  have sameUsers : ∀ {userId}, userId ≠ deletion.userId →
      ((state.commit process .idle).LiveUser userId ↔ state.LiveUser userId) := by
    intro userId different
    have same : (state.commit process .idle).users.committed userId =
        state.users.committed userId := by
      refine (Table.committed_commit ..).trans (Table.read_of_holder_ne _ _ ?_)
      exact fun held => different (handsOver.marks.users held)
    unfold LiveUser
    rw [same]
  have dead : ¬ (state.commit process .idle).LiveUser deletion.userId := by
    rintro ⟨user, committed, live⟩
    exact gone user ((Table.committed_commit ..).symm.trans committed) live
  have different_of_live : ∀ {userId}, (state.commit process .idle).LiveUser userId →
      userId ≠ deletion.userId := by
    rintro userId live rfl
    exact dead live
  have sameMembers : ∀ {userId}, userId ≠ deletion.userId → heirId ≠ some userId →
      (state.commit process .idle).members.committed userId = state.members.committed userId := by
    intro userId different notHeir
    refine (Table.committed_commit ..).trans (Table.read_of_holder_ne _ _ ?_)
    intro held
    rcases handsOver.members held with isHeir | ⟨same, _⟩
    · exact notHeir isHeir
    · exact different same
  have inherits : ∀ {heir}, heirId = some heir →
      (state.commit process .idle).LiveManager heir := by
    intro heir isHeir
    rcases handsOver.heir heir isHeir with ⟨_, inherited⟩
    rcases inherited.promoted with ⟨row, reads, isManager⟩
    exact ⟨(sameUsers inherited.other).mpr (onTime.2 heir isHeir), row,
      (Table.committed_commit ..).trans reads, isManager⟩
  have stands : ∀ {userId}, userId ≠ deletion.userId → state.LiveManager userId →
      (state.commit process .idle).LiveManager userId := by
    intro userId different manager
    by_cases isHeir : heirId = some userId
    · exact inherits isHeir
    · rcases manager with ⟨live, member, committed, isManager⟩
      exact ⟨(sameUsers different).mpr live, member,
        (sameMembers different isHeir).trans committed, isManager⟩
  have unmanaged : ∀ {other}, other ≠ process → state.locked = some other →
      manages = false := by
    intro other different locked
    cases isManages : manages with
    | false => rfl
    | true =>
        have mine := (handsOver.covered isManages).1
        rw [locked] at mine
        exact absurd (Option.some.inj mine) different
  have noHeir : manages = false → ∀ userId, heirId ≠ some userId := by
    intro isFalse userId isHeir
    have isTrue := (handsOver.heir userId isHeir).1
    rw [isFalse] at isTrue
    contradiction
  have evolves : Evolves process state (state.commit process .idle) := by
    refine ⟨.commit _ _, .commit _ _, unlocked_iff,
      fun live => (sameUsers (different_of_live live)).mp live, ?_, ?_⟩
    · intro other userId member different locked committed
      have notHeir := noHeir (unmanaged different locked) userId
      have reads := (Table.committed_commit state.members process userId).symm.trans committed
      by_cases held : state.members.holder userId = some process
      · rcases handsOver.members held with isHeir | ⟨_, deleted⟩
        · exact absurd isHeir notHeir
        · rw [deleted] at reads
          contradiction
      · rw [Table.read_of_holder_ne _ _ held] at reads
        exact reads
    · intro other userId different locked manager
      refine stands ?_ manager
      rintro rfl
      have isTrue := onTime.1 manager
      rw [unmanaged different locked] at isTrue
      contradiction
  refine ⟨sound.acts process rfl evolves (sound.indexed.commit process)
    (rests_commit state process .idle), ?_⟩
  rintro managed ⟨memberId, live, member, committed, active⟩
  have different := different_of_live live
  have before : state.LiveMember memberId := by
    refine ⟨(sameUsers different).mp live, ?_⟩
    by_cases isHeir : heirId = some memberId
    · exact (handsOver.heir memberId isHeir).2.active
    · rw [sameMembers different isHeir] at committed
      exact ⟨member, committed, active⟩
  rcases managed ⟨memberId, before⟩ with ⟨managerId, manager⟩
  by_cases same : managerId = deletion.userId
  · subst same
    rcases (handsOver.covered (onTime.1 manager)).2 with ⟨other, isOther, isManager⟩ | some | nobody
    · exact ⟨other, stands isOther isManager⟩
    · rcases Option.isSome_iff_exists.mp some with ⟨heir, isHeir⟩
      exact ⟨heir, inherits isHeir⟩
    · exact absurd before (nobody memberId different)
  · exact ⟨managerId, stands same manager⟩

/-! ### Roles -/

theorem mem_liveMembers {wanted : Uuid → OrganizationMember → Bool} {userId : Uuid} :
    userId ∈ state.liveMembers process wanted ↔ userId ∈ state.members.keys ∧
      (∃ member, state.members.read process userId = some member ∧ member.state = .active ∧
        wanted userId member) ∧
      ∃ user, state.users.read process userId = some user ∧ user.deletedAt = none := by
  unfold liveMembers
  rw [Table.mem_select]
  constructor
  · rintro ⟨listed, member, reads, holds⟩
    simp only [Bool.and_eq_true, decide_eq_true_eq, Option.any_eq_true] at holds
    exact ⟨listed, ⟨member, reads, holds.1.1, holds.2⟩, holds.1.2⟩
  · rintro ⟨listed, ⟨member, reads, active, isWanted⟩, live⟩
    refine ⟨listed, member, reads, ?_⟩
    simp only [Bool.and_eq_true, decide_eq_true_eq, Option.any_eq_true]
    exact ⟨⟨active, live⟩, isWanted⟩

/-- Two live managers, so one besides the target. -/
theorem spared_of_count (rests : state.Rests process) (indexed : state.members.Indexed)
    (many : 1 < state.liveManagerCount process) (targetId : Uuid) : state.Spared targetId := by
  have manager : ∀ userId ∈ state.liveMembers process fun _ member => member.role = .manager,
      state.LiveManager userId := by
    intro userId isMember
    rcases mem_liveMembers.mp isMember with ⟨_, ⟨member, reads, active, role⟩, user, isUser, live⟩
    rw [Table.read_of_holdless _ _ rests.members] at reads
    rw [Table.read_of_holdless _ _ rests.users] at isUser
    exact ⟨⟨user, isUser, live⟩, member, reads, active, by simpa using role⟩
  by_contra alone
  have only : state.liveMembers process (fun _ member => member.role = .manager) ⊆ [targetId] := by
    intro userId isMember
    by_contra different
    exact alone ⟨userId, by simpa using different, manager userId isMember⟩
  have nodup : (state.liveMembers process fun _ member => member.role = .manager).Nodup :=
    indexed.select _
  have few := (List.Nodup.subperm nodup only).length_le
  exact absurd (lt_of_lt_of_le many few) (lt_irrefl _)

theorem require_advances (sound : state.Sound) (request : MemberRequest)
    (owes : state.Owes process running) :
    Advances state (state.require process request running) := by
  unfold require
  split
  · exact sound.moves process owes
  · exact sound.rollback process rfl

theorem findUser_advances (sound : state.Sound) {request : MemberRequest}
    (here : state.processes process = .findUser request) :
    Advances state (state.findUser process request) := by
  have owes := sound.owes process
  rw [here] at owes
  unfold findUser
  split
  · exact sound.rollback process rfl
  · exact sound.moves process owes

/-- The membership a process reads under the lock is the committed row, and active. -/
theorem of_membership (rests : state.Rests process) {targetId : Uuid} {member : OrganizationMember}
    (found : state.membership process targetId = some member) :
    member.state = .active ∧
      ∀ row, state.members.committed targetId = some row → row = member := by
  unfold membership at found
  rcases Option.filter_eq_some_iff.mp found with ⟨reads, active⟩
  rw [Table.read_of_holdless _ _ rests.members] at reads
  refine ⟨by simpa using active, ?_⟩
  intro row committed
  rw [reads] at committed
  exact (Option.some.inj committed).symm

theorem findMember_advances (sound : state.Sound) {request : MemberRequest} {targetId : Uuid}
    (here : state.processes process = .findMember request targetId) :
    Advances state (state.findMember process request targetId) := by
  have owes := sound.owes process
  rw [here] at owes
  rcases owes with ⟨locked, rests⟩
  unfold findMember
  split
  · rename_i verb
    exact sound.moves process ⟨locked, rests, by rw [verb]; trivial⟩
  · rename_i role verb
    split
    · exact sound.rollback process rfl
    · rename_i member found
      have facts := of_membership rests found
      apply sound.moves process
      cases role with
      | member => exact ⟨locked, rests, .inl verb, facts.1, facts.2⟩
      | manager =>
          refine ⟨locked, rests, ?_⟩
          rw [verb]
          intro row committed
          rw [facts.2 row committed]
          exact facts.1
  · rename_i verb
    split
    · exact sound.rollback process rfl
    · rename_i member found
      have facts := of_membership rests found
      apply sound.moves process
      split
      · exact ⟨locked, rests, .inr verb, facts.1, facts.2⟩
      · exact ⟨locked, rests, .inr verb, facts.1, facts.2⟩

theorem guardLastManager_advances (sound : state.Sound) {request : MemberRequest} {targetId : Uuid}
    {member : OrganizationMember}
    (here : state.processes process = .guardLastManager request targetId member) :
    Advances state (state.guardLastManager process request targetId member) := by
  have owes := sound.owes process
  rw [here] at owes
  rcases owes with ⟨locked, rests, verb, active, row⟩
  unfold guardLastManager
  split
  · exact sound.rollback process rfl
  · rename_i passes
    apply sound.moves process
    have dispensable : state.Dispensable targetId := by
      intro other committed
      rw [row other committed]
      refine ⟨active, fun role => ?_⟩
      apply spared_of_count rests sound.indexed
      by_contra few
      exact passes ⟨role, not_lt.mp few⟩
    refine ⟨locked, rests, ?_⟩
    rcases verb with isRole | isRemoval
    · rw [isRole]
      exact dispensable
    · rw [isRemoval]
      exact dispensable

theorem Quiet.dispensable (quiet : Quiet actor state next) {targetId : Uuid}
    (dispensable : state.Dispensable targetId) : next.Dispensable targetId := by
  intro member committed
  rw [quiet.committedMembers] at committed
  have before := dispensable member committed
  exact ⟨before.1, fun role => quiet.spared (before.2 role)⟩

theorem isManager_appointed (now : Instant) (row : Option OrganizationMember) :
    IsManager (some (appointed now row)) := by
  refine ⟨_, rfl, ?_⟩
  unfold appointed
  split
  · exact ⟨rfl, rfl⟩
  · split
    · rename_i active
      exact ⟨active, rfl⟩
    · exact ⟨rfl, rfl⟩

/-- A write of the target's row that keeps a live manager. -/
theorem writes_advances (sound : state.Sound) {targetId : Uuid} (locked : state.locked = some process)
    (rests : state.Rests process) (free : state.members.Free process targetId)
    (value : Option OrganizationMember)
    (result : IsManager value ∨
      (∃ member, state.members.committed targetId = some member) ∧
        state.Dispensable targetId) :
    Advances state { state.setProcess process (.commitMember targetId) with
      members := state.members.write process targetId value } := by
  have quiet : Quiet process state { state.setProcess process (.commitMember targetId) with
      members := state.members.write process targetId value } :=
    ⟨.refl _, .write _ free, fun _ => rfl, Table.committed_write _ _ _ _, fun _ => Iff.rfl⟩
  refine sound.quiet process rfl quiet (sound.indexed.write _ _) ⟨locked, rests.users, ?_, ?_⟩
  · intro userId
    show (state.members.write process targetId value).holder userId = some process ↔ _
    rw [Table.holder_write]
    split
    · rename_i same
      simp [same]
    · rename_i different
      simp [different, rests.members userId]
  · rcases result with promoted | ⟨⟨member, committed⟩, dispensable⟩
    · left
      rw [Table.read_write_self]
      exact promoted
    · exact .inr ⟨⟨member, (Table.committed_write ..).trans committed⟩,
        quiet.dispensable dispensable⟩

theorem writeMember_advances (sound : state.Sound) {request : MemberRequest} {targetId : Uuid}
    (here : state.processes process = .writeMember request targetId)
    (wrote : state.writeMember process request targetId = .ok next) : Advances state next := by
  have owes := sound.owes process
  rw [here] at owes
  rcases owes with ⟨locked, rests, ready⟩
  unfold writeMember at wrote
  dsimp only at wrote
  split at wrote
  · contradiction
  rename_i isFree
  have free := not_not.mp isFree
  have committed : ∀ member, state.members.read process targetId = some member →
      state.members.committed targetId = some member := by
    intro member reads
    rw [← Table.read_of_holdless _ _ rests.members]
    exact reads
  split at wrote
  · cases wrote
    exact sound.rollback process rfl
  · rename_i role member verb reads
    cases wrote
    rw [verb] at ready
    apply writes_advances sound locked rests free
    cases role with
    | manager => exact .inl ⟨_, rfl, ready member (committed member reads), rfl⟩
    | member => exact .inr ⟨⟨member, committed member reads⟩, ready⟩
  · cases wrote
    exact sound.commitNothing rests
  · rename_i member verb reads
    cases wrote
    rw [verb] at ready
    exact writes_advances sound locked rests free none
      (.inr ⟨⟨member, committed member reads⟩, ready⟩)
  · cases wrote
    exact writes_advances sound locked rests free _ (.inl (isManager_appointed _ _))
  · split at wrote
    · cases wrote
      exact sound.rollback process rfl
    · cases wrote
      exact writes_advances sound locked rests free _ (.inl (isManager_appointed _ _))

/-! ### Deletions -/

theorem loadUser_advances (sound : state.Sound) {deletion : Deletion}
    (here : state.processes process = .loadUser deletion) :
    Advances state (state.loadUser process deletion) := by
  have rests : state.Rests process := by
    have owes := sound.owes process
    rw [here] at owes
    exact owes
  unfold loadUser
  split
  · exact sound.rollback process rfl
  · split
    · rename_i hard
      refine sound.moves process ⟨rests.members, fun held => absurd held (rests.users _), ?_,
        fun held => absurd held (rests.users _)⟩
      intro soft
      rw [hard] at soft
      contradiction
    · split
      · exact sound.rollback process rfl
      · exact sound.moves process rests

theorem markDeleted_advances (sound : state.Sound) {deletion : Deletion}
    (here : state.processes process = .markDeleted deletion)
    (marked : state.markDeleted process deletion = .ok next) : Advances state next := by
  have rests : state.Rests process := by
    have owes := sound.owes process
    rw [here] at owes
    exact owes
  unfold markDeleted at marked
  split at marked
  · contradiction
  rename_i free
  split at marked
  · cases marked
    exact sound.rollback process rfl
  · rename_i user reads
    cases marked
    have gone : ({ state.setProcess process (.readRoles deletion) with
        users := state.users.write process deletion.userId
          (some { user with deletedAt := some state.now }) } : MemberState).Gone process
          deletion.userId := by
      intro row isRow
      rw [Table.read_write_self] at isRow
      rw [← Option.some.inj isRow]
      exact Option.some_ne_none _
    refine sound.quiet process rfl ⟨.write _ (not_not.mp free), .refl _,
      Table.committed_write _ _ _ _, fun _ => rfl, fun _ => Iff.rfl⟩ sound.indexed
      ⟨rests.members, ?_, fun _ => gone, fun _ => gone⟩
    intro userId held
    have holder := (Table.holder_write ..).symm.trans held
    split at holder
    · assumption
    · exact absurd holder (rests.users userId)

/-- After a hand-over, the deletion owes what it handed over. -/
theorem HandsOver.owes {deletion : Deletion} {manages : Bool} {heirId : Option Uuid}
    (handsOver : state.HandsOver process deletion manages heirId) :
    state.Owes process (afterHandOver deletion manages heirId) := by
  unfold afterHandOver
  split
  · exact handsOver
  · rename_i soft
    exact ⟨handsOver, handsOver.marks.marked (by simpa using soft)⟩

theorem readRoles_advances (sound : state.Sound) {deletion : Deletion}
    (here : state.processes process = .readRoles deletion) :
    Advances state (state.setProcess process
      (if state.isOrganizationManager process deletion.userId then .lockHandOver deletion
      else afterHandOver deletion false none)) := by
  have owes := sound.owes process
  rw [here] at owes
  rcases owes with ⟨members, marks⟩
  apply sound.moves process
  split
  · exact ⟨members, marks⟩
  · refine HandsOver.owes ⟨marks, fun manages => ?_, fun heir isHeir => ?_,
      fun held => absurd held (members _)⟩
    · contradiction
    · contradiction

/-- A deletion reads every account but its own as committed. -/
theorem read_of_marks {deletion : Deletion} (marks : state.Marks process deletion) {userId : Uuid}
    (different : userId ≠ deletion.userId) :
    state.users.read process userId = state.users.committed userId :=
  Table.read_of_holder_ne _ _ fun held => different (marks.users held)

theorem readManagers_advances (sound : state.Sound) {deletion : Deletion}
    (here : state.processes process = .readManagers deletion) :
    Advances state (state.setProcess process
      (if (state.liveMembers process fun userId member =>
          userId ≠ deletion.userId && member.role = .manager) ≠ [] then
        afterHandOver deletion true none
      else .readHeir deletion)) := by
  have owes := sound.owes process
  rw [here] at owes
  rcases owes with ⟨locked, members, marks⟩
  apply sound.moves process
  split
  · rename_i found
    rcases List.exists_mem_of_ne_nil _ found with ⟨other, isMember⟩
    rcases mem_liveMembers.mp isMember with
      ⟨_, ⟨member, reads, active, wanted⟩, user, isUser, live⟩
    simp only [Bool.and_eq_true, decide_eq_true_eq] at wanted
    rw [Table.read_of_holdless _ _ members] at reads
    rw [read_of_marks marks wanted.1] at isUser
    have spared : state.Spared deletion.userId :=
      ⟨other, wanted.1, ⟨user, isUser, live⟩, member, reads, active, wanted.2⟩
    refine HandsOver.owes ⟨marks, fun _ => ⟨locked, .inl spared⟩, fun heir isHeir => ?_,
      fun held => absurd held (members _)⟩
    contradiction
  · exact ⟨locked, members, marks⟩

theorem readHeir_advances (sound : state.Sound) {deletion : Deletion}
    (here : state.processes process = .readHeir deletion) :
    Advances state (state.setProcess process (match state.heir? process deletion.userId with
      | none => afterHandOver deletion true none
      | some heirId => .promoteHeir deletion heirId)) := by
  have owes := sound.owes process
  rw [here] at owes
  rcases owes with ⟨locked, members, marks⟩
  apply sound.moves process
  split
  · rename_i noHeir
    have nobody : ∀ other, other ≠ deletion.userId → ¬ state.LiveMember other := by
      rintro other different ⟨⟨user, isUser, live⟩, member, committed, active⟩
      have isMember : other ∈ state.liveMembers process fun userId _ =>
          userId ≠ deletion.userId := by
        refine mem_liveMembers.mpr ⟨sound.indexed.listed _ _ (.of_committed committed),
          ⟨member, ?_, active, by simpa using different⟩, user, ?_, live⟩
        · rw [Table.read_of_holdless _ _ members]
          exact committed
        · rw [read_of_marks marks different]
          exact isUser
      have isSorted : other ∈ sortedBy (state.joinedFirst process) _ := mem_sortedBy.mpr isMember
      rw [List.head?_eq_none_iff.mp noHeir] at isSorted
      contradiction
    refine HandsOver.owes ⟨marks, fun _ => ⟨locked, .inr (.inr nobody)⟩, fun heir isHeir => ?_,
      fun held => absurd held (members _)⟩
    contradiction
  · rename_i heirId isHeir
    have isMember := mem_sortedBy.mp (List.mem_of_head? isHeir)
    rcases mem_liveMembers.mp isMember with ⟨_, ⟨member, reads, active, wanted⟩, _⟩
    rw [Table.read_of_holdless _ _ members] at reads
    refine ⟨locked, members, marks, by simpa using wanted, ?_⟩
    intro row committed
    rw [reads] at committed
    rw [← Option.some.inj committed]
    exact active

theorem promoteHeir_advances (sound : state.Sound) {deletion : Deletion} {heirId : Uuid}
    (here : state.processes process = .promoteHeir deletion heirId)
    (promoted : state.promoteHeir process deletion heirId = .ok next) : Advances state next := by
  have owes := sound.owes process
  rw [here] at owes
  rcases owes with ⟨locked, members, marks, different, isActive⟩
  unfold promoteHeir at promoted
  split at promoted
  · contradiction
  rename_i free
  split at promoted
  · cases promoted
    exact sound.rollback process rfl
  · rename_i member reads
    cases promoted
    rw [Table.read_of_holdless _ _ members] at reads
    have active := isActive member reads
    refine sound.quiet process rfl ⟨.refl _, .write _ (not_not.mp free), fun _ => rfl,
      Table.committed_write _ _ _ _, fun _ => Iff.rfl⟩ (sound.indexed.write _ _)
      (HandsOver.owes ⟨⟨marks.users, marks.marked, marks.held⟩,
        fun _ => ⟨locked, .inr (.inl rfl)⟩, ?_, ?_⟩)
    · intro heir isHeir
      cases isHeir
      refine ⟨rfl, different, (Table.holder_write ..).trans (if_pos rfl), ?_, member,
        (Table.committed_write ..).trans reads, active⟩
      rw [Table.read_write_self]
      exact ⟨_, rfl, active, rfl⟩
    · intro userId held
      have holder := (Table.holder_write ..).symm.trans held
      split at holder
      · rename_i same
        rw [same]
        exact .inl rfl
      · exact absurd holder (members userId)

theorem dropUser_advances (sound : state.Sound) {deletion : Deletion} {manages : Bool}
    {heirId : Option Uuid} (here : state.processes process = .dropUser deletion manages heirId)
    (dropped : state.dropUser process deletion manages heirId = .ok next) :
    Advances state next := by
  have handsOver : state.HandsOver process deletion manages heirId := by
    have owes := sound.owes process
    rw [here] at owes
    exact owes
  unfold dropUser at dropped
  split at dropped
  · contradiction
  rename_i isFree
  push Not at isFree
  cases dropped
  have quiet : Quiet process state
      { state.setProcess process (.commitDeletion deletion manages heirId) with
        users := state.users.write process deletion.userId none
        members := state.members.write process deletion.userId none } :=
    ⟨.write _ isFree.1, .write _ isFree.2, Table.committed_write _ _ _ _,
      Table.committed_write _ _ _ _, fun _ => Iff.rfl⟩
  have gone : ({ state.setProcess process (.commitDeletion deletion manages heirId) with
        users := state.users.write process deletion.userId none
        members := state.members.write process deletion.userId none } : MemberState).Gone process
          deletion.userId := by
    intro user reads
    rw [Table.read_write_self] at reads
    contradiction
  refine sound.quiet process rfl quiet (sound.indexed.write _ _)
    ⟨⟨⟨?_, fun _ => gone, fun _ => gone⟩, ?_, ?_, ?_⟩, gone⟩
  · intro userId held
    have holder := (Table.holder_write ..).symm.trans held
    split at holder
    · assumption
    · exact handsOver.marks.users holder
  · intro isManages
    rcases handsOver.covered isManages with ⟨locked, covered⟩
    refine ⟨locked, covered.imp quiet.spared (Or.imp_right fun nobody other different member => ?_)⟩
    exact nobody other different (quiet.liveMember.mp member)
  · intro heir isHeir
    rcases handsOver.heir heir isHeir with ⟨isManages, inherits⟩
    refine ⟨isManages, inherits.other,
      (Table.holder_write ..).trans ((if_neg inherits.other).trans inherits.holds), ?_, ?_⟩
    · rw [Table.read_write, if_neg inherits.other]
      exact inherits.promoted
    · rw [quiet.committedMembers]
      exact inherits.active
  · intro userId held
    have holder := (Table.holder_write ..).symm.trans held
    split at holder
    · rename_i same
      subst same
      exact .inr ⟨rfl, Table.read_write_self ..⟩
    · rename_i different
      rcases handsOver.members holder with isHeir | ⟨same, _⟩
      · exact .inl isHeir
      · exact absurd same different

/-! ### Every step -/

theorem start_advances (sound : state.Sound) {running : MemberProcess}
    (owes : state.Rests process → state.Owes process running)
    (started : state.start process running = .ok next) : Advances state next := by
  unfold start at started
  split at started
  · rename_i ended
    cases started
    apply sound.moves process
    have rests := sound.owes process
    cases here : state.processes process with
    | idle | raised refusal =>
        rw [here] at rests
        exact owes rests
    | _ =>
        rw [here] at ended
        contradiction
  · contradiction

/-- The next statement of a process. -/
theorem runProcess_advances (sound : state.Sound) (onTime : state.OnTime (.run process))
    (ran : state.runProcess process = .ok next) : Advances state next := by
  have owes := sound.owes process
  unfold runProcess at ran
  cases here : state.processes process with
  | idle | raised refusal =>
      rw [here] at ran
      contradiction
  | lockOrganization request =>
      rw [here] at ran owes
      refine lock_advances sound ?_ ran
      split
      · exact ⟨rfl, owes.users, owes.members⟩
      · exact ⟨rfl, owes.users, owes.members⟩
      · exact ⟨rfl, owes.users, owes.members⟩
  | requireManager request =>
      rw [here] at ran owes
      cases ran
      exact require_advances sound request owes
  | findUser request =>
      rw [here] at ran
      cases ran
      exact findUser_advances sound here
  | findMember request targetId =>
      rw [here] at ran
      cases ran
      exact findMember_advances sound here
  | requireRemover request targetId member =>
      rw [here] at ran owes
      cases ran
      exact require_advances sound request owes
  | guardLastManager request targetId member =>
      rw [here] at ran
      cases ran
      exact guardLastManager_advances sound here
  | writeMember request targetId =>
      rw [here] at ran
      exact writeMember_advances sound here ran
  | commitMember targetId =>
      rw [here] at ran
      cases ran
      exact commitMember_advances sound here
  | loadUser deletion =>
      rw [here] at ran
      cases ran
      exact loadUser_advances sound here
  | markDeleted deletion =>
      rw [here] at ran
      exact markDeleted_advances sound here ran
  | readRoles deletion =>
      rw [here] at ran
      cases ran
      exact readRoles_advances sound here
  | lockHandOver deletion =>
      rw [here] at ran owes
      refine lock_advances sound ?_ ran
      exact ⟨rfl, owes.1, owes.2.users, owes.2.marked, owes.2.held⟩
  | readManagers deletion =>
      rw [here] at ran
      cases ran
      exact readManagers_advances sound here
  | readHeir deletion =>
      rw [here] at ran
      cases ran
      exact readHeir_advances sound here
  | promoteHeir deletion heirId =>
      rw [here] at ran
      exact promoteHeir_advances sound here ran
  | dropUser deletion manages heirId =>
      rw [here] at ran
      exact dropUser_advances sound here ran
  | commitDeletion deletion manages heirId =>
      rw [here] at ran
      cases ran
      exact commitDeletion_advances sound here (onTime rfl here)

theorem Sound.step {label : MemberLabel} (sound : state.Sound) (onTime : state.OnTime label)
    (stepped : MemberState.step label state = .ok next) : Advances state next := by
  cases label with
  | tick later =>
      simp only [MemberState.step] at stepped
      split at stepped
      · contradiction
      · cases stepped
        have quiet : Quiet 0 state { state with now := later } := .refl 0 rfl rfl rfl
        exact ⟨⟨sound.indexed, fun process => (sound.owes process).of_tables rfl rfl rfl⟩,
          quiet.managed⟩
  | request process request => exact start_advances sound id stepped
  | delete process deletion => exact start_advances sound id stepped
  | run process => exact runProcess_advances sound onTime stepped
  | fail process =>
      cases stepped
      exact sound.rollback process rfl

theorem Initial.sound (initial : state.Initial) : state.Sound := by
  have rests : ∀ process, state.Rests process := by
    intro process
    refine ⟨fun userId => ?_, fun userId => ?_⟩
    · rw [initial.users]
      exact (Option.some_ne_none _).symm
    · rw [initial.members]
      exact (Option.some_ne_none _).symm
  refine ⟨⟨Table.listed_of_unheld initial.members initial.keys.2, initial.keys.1⟩, ?_⟩
  intro process
  have ended := initial.ended process
  cases here : state.processes process with
  | idle | raised refusal => exact rests process
  | _ =>
      rw [here] at ended
      contradiction

theorem sound_of_reachable
    (reachable : (memberSystem.restrict OnTime).Reachable state) : state.Sound := by
  refine System.Reachable.invariant Initial.sound ?_ reachable
  exact fun sound stepped => (sound.step stepped.1 stepped.2).sound

end MemberState

open MemberState

/-- In every run whose deletions commit on what they read, an organization keeps a manager. -/
theorem keepsManager_of_onTime {start : MemberState} (initial : start.Initial) :
    KeepsManager ((memberSystem.restrict OnTime).startingAt start) := by
  intro state final started run hasManager member
  have reachable : (memberSystem.restrict OnTime).Reachable state := started.of_startingAt initial
  obtain ⟨managerId, manager⟩ := hasManager
  have kept : ∀ {before label after}, before.Sound ∧ before.Managed →
      (memberSystem.restrict OnTime).Step before label after → after.Sound ∧ after.Managed := by
    rintro before label after ⟨sound, managed⟩ stepped
    have advances := sound.step stepped.1 stepped.2
    exact ⟨advances.sound, advances.managed managed⟩
  exact (System.Run.preserves kept run
    ⟨sound_of_reachable reachable, fun _ => ⟨managerId, manager⟩⟩).2 member

/-! ### A promotion after the roles were read -/

namespace Promoted

def analyst (id : Uuid) (username : Str) : User where
  id := id
  username := username
  email := username
  passwordHash := str "hash"
  isActive := true
  isAdmin := false
  lastSeenAt := none
  deletedAt := none
  tokenVersion := 0

/-- A manager, and two members. -/
def start : MemberState where
  now := 0
  users := .ofRows [1, 2, 3] fun id =>
    if id = 1 then some (analyst 1 (str "first"))
    else if id = 2 then some (analyst 2 (str "second"))
    else if id = 3 then some (analyst 3 (str "third"))
    else none
  members := .ofRows [1, 2, 3] fun id =>
    if id = 1 then some ⟨.active, .manager, none, some 0⟩
    else if id = 2 then some ⟨.active, .member, none, some 1⟩
    else if id = 3 then some ⟨.active, .member, none, some 2⟩
    else none
  locked := none
  processes := fun _ => .idle

/-- A deletion of member 2 reads their roles; the manager promotes member 2 and
leaves; the deletion commits. -/
def promotedMeanwhile : List MemberLabel :=
  [.delete 0 ⟨false, 2⟩, .run 0, .run 0, .run 0,
    .request 1 ⟨.changeRole .manager, 1, false, str "second"⟩, .run 1, .run 1, .run 1, .run 1,
    .run 1, .run 1,
    .request 1 ⟨.removeMember, 1, false, str "first"⟩, .run 1, .run 1, .run 1, .run 1, .run 1,
    .run 1, .run 0]

theorem start_initial : start.Initial := by
  refine ⟨fun _ => rfl, rfl, fun _ => rfl, fun _ => rfl, by decide, ?_⟩
  intro userId member committed
  simp only [start, Table.ofRows, Table.committed] at committed
  split at committed
  · simp_all [start, Table.ofRows]
  · split at committed
    · simp_all [start, Table.ofRows]
    · split at committed
      · simp_all [start, Table.ofRows]
      · contradiction

theorem keepsManager_start :
    KeepsManager ((memberSystem.restrict OnTime).startingAt start) :=
  keepsManager_of_onTime start_initial

/-- The organization keeps a live member, and no live manager. -/
theorem keepsManager_fails : ¬ KeepsManager memberSystem := by
  intro promise
  have run : ∃ final, System.runLabels MemberState.step promotedMeanwhile start = .ok final ∧
      final.members.committed 0 = none ∧ final.members.committed 1 = none ∧
      (∃ user, final.users.committed 2 = some user ∧ user.deletedAt = some 0) ∧
      final.LiveUser 3 ∧ final.members.committed 3 = some ⟨.active, .member, none, some 2⟩ ∧
      ∀ rest, final.members.committed (rest + 4) = none :=
    ⟨_, rfl, rfl, rfl, ⟨_, rfl, rfl⟩, ⟨_, rfl, rfl⟩, rfl, fun _ => rfl⟩
  rcases run with ⟨final, reached, zero, first, second, third, member, others⟩
  have manager : ∃ managerId, start.LiveManager managerId :=
    ⟨1, ⟨_, rfl, rfl⟩, _, rfl, rfl, rfl⟩
  rcases promise (.init start_initial) (System.Run.of_runLabels reached) manager
    ⟨3, third, _, member, rfl⟩ with ⟨managerId, live, row, isRow, _, role⟩
  match managerId with
  | 0 =>
      rw [zero] at isRow
      contradiction
  | 1 =>
      rw [first] at isRow
      contradiction
  | 2 =>
      rcases second with ⟨user, isUser, deleted⟩
      rcases live with ⟨other, isOther, live⟩
      rw [isUser] at isOther
      cases isOther
      rw [deleted] at live
      contradiction
  | 3 =>
      rw [member] at isRow
      cases isRow
      contradiction
  | rest + 4 =>
      rw [others] at isRow
      contradiction

end Promoted

end Vidit.Organizations
