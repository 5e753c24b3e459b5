import Vidit.Accounts.User
import Vidit.Library.RowLock
import Vidit.Library.Transition

/-!
Contract: the members of one organization, interleaved statement by statement.

A role change, a removal and an appointment lock the organization row first. A
deletion of an account reads the account's roles, and locks the organization only
if the account manages it.

Owns:
- `change_role`, `remove_member` and `appoint_manager` under the lock of their
  routes, over all rows;
- `hand_over_manager_roles` on this organization, inside `soft_delete_user` and
  `hard_delete_user`;
- the system of their interleavings.

Does not own: the events, sessions and files a deletion ends, the invitations, the
audit rows and the notifications.
-/

namespace Vidit.Organizations

open Vidit.Python Vidit.Accounts Vidit.Library

inductive OrganizationRole where
  | manager
  | member
deriving DecidableEq, Repr

inductive OrganizationMemberState where
  | invited
  | active
deriving DecidableEq, Repr

/-- An `organization_members` row of the organization, under its `user_id`. -/
structure OrganizationMember where
  state : OrganizationMemberState
  role : OrganizationRole
  invitedAt : Option Instant
  joinedAt : Option Instant
deriving DecidableEq, Repr

/-- The `code` of a refusal. -/
inductive OrganizationError where
  | userNotFound
  | memberNotFound
  | notOrganizationManager
  | lastManager
  /-- An UPDATE of a row that is gone. -/
  | staleData
  | integrity
deriving DecidableEq, Repr

/-- What a request does to one member. -/
inductive MemberVerb where
  | changeRole (role : OrganizationRole)
  | removeMember
  | appointManager
deriving DecidableEq, Repr

structure MemberRequest where
  verb : MemberVerb
  actorId : Uuid
  actorIsAdmin : Bool
  username : Str
deriving DecidableEq, Repr

/-- A deletion of an account. -/
structure Deletion where
  hard : Bool
  userId : Uuid
deriving DecidableEq, Repr

/-- What a request does next. -/
inductive MemberProcess where
  | idle
  | raised (refusal : OrganizationError)
  /-- `get_by_slug(lock=True)`. -/
  | lockOrganization (request : MemberRequest)
  /-- `require_manager` of a role change. -/
  | requireManager (request : MemberRequest)
  /-- `_live_user`. -/
  | findUser (request : MemberRequest)
  /-- `_membership`, or the row of an appointment. -/
  | findMember (request : MemberRequest) (targetId : Uuid)
  /-- `require_manager` of a removal of someone else. -/
  | requireRemover (request : MemberRequest) (targetId : Uuid) (member : OrganizationMember)
  /-- `_guard_last_manager`. -/
  | guardLastManager (request : MemberRequest) (targetId : Uuid) (member : OrganizationMember)
  /-- The INSERT, UPDATE or DELETE of the target's row. -/
  | writeMember (request : MemberRequest) (targetId : Uuid)
  | commitMember (targetId : Uuid)
  /-- A deletion before it reads the account. -/
  | loadUser (deletion : Deletion)
  /-- The UPDATE of `deleted_at`, flushed ahead of the role query. -/
  | markDeleted (deletion : Deletion)
  /-- The role query of `hand_over_manager_roles`. -/
  | readRoles (deletion : Deletion)
  | lockHandOver (deletion : Deletion)
  | readManagers (deletion : Deletion)
  | readHeir (deletion : Deletion)
  | promoteHeir (deletion : Deletion) (heirId : Uuid)
  /-- The DELETE of the account, with the cascade. -/
  | dropUser (deletion : Deletion) (manages : Bool) (heirId : Option Uuid)
  | commitDeletion (deletion : Deletion) (manages : Bool) (heirId : Option Uuid)
deriving DecidableEq, Repr

/-- The request has returned or raised. -/
def MemberProcess.ended : MemberProcess → Bool
  | .idle | .raised _ => true
  | _ => false

structure MemberState where
  now : Instant
  users : Table Nat Uuid User
  members : Table Nat Uuid OrganizationMember
  /-- Who holds the organization row. -/
  locked : Option Nat
  processes : Nat → MemberProcess

inductive MemberLabel where
  | tick (later : Instant)
  | request (process : Nat) (request : MemberRequest)
  | delete (process : Nat) (deletion : Deletion)
  | run (process : Nat)
  | fail (process : Nat)
deriving DecidableEq, Repr

/-- Why a step is not possible. -/
inductive MemberBlocked where
  | clockRunsForward
  | busy
  | ended
  | rowLocked
deriving DecidableEq, Repr

namespace MemberState

def setProcess (state : MemberState) (process : Nat) (next : MemberProcess) : MemberState :=
  { state with processes := Function.update state.processes process next }

/-- The organization row after a transaction ends. -/
def unlocked (state : MemberState) (process : Nat) : Option Nat :=
  if state.locked = some process then none else state.locked

/-- The transaction of a process ends without a trace. -/
def rollback (state : MemberState) (process : Nat) (next : MemberProcess) : MemberState :=
  { state.setProcess process next with
    users := state.users.rollback process
    members := state.members.rollback process
    locked := state.unlocked process }

/-- The transaction of a process ends, and its rows stand. -/
def commit (state : MemberState) (process : Nat) (next : MemberProcess) : MemberState :=
  { state.setProcess process next with
    users := state.users.commit process
    members := state.members.commit process
    locked := state.unlocked process }

/-- The FOR UPDATE of the organization row. -/
def lock (state : MemberState) (process : Nat) (next : MemberProcess) :
    Except MemberBlocked MemberState :=
  if state.locked = none ∨ state.locked = some process then
    .ok { state.setProcess process next with locked := some process }
  else .error .rowLocked

/-! ### What a transaction reads -/

def OrganizationMember.manages (member : OrganizationMember) : Bool :=
  member.state = .active && member.role = .manager

/-- `_membership`: the row of an active member. -/
def membership (state : MemberState) (process : Nat) (userId : Uuid) :
    Option OrganizationMember :=
  (state.members.read process userId).filter fun member => member.state = .active

/-- `is_organization_manager`. -/
def isOrganizationManager (state : MemberState) (process : Nat) (userId : Uuid) : Bool :=
  (state.membership process userId).any fun member => member.role = .manager

/-- `_live_members`, narrowed to the rows wanted. -/
def liveMembers (state : MemberState) (process : Nat)
    (wanted : Uuid → OrganizationMember → Bool) : List Uuid :=
  state.members.select process fun userId member => member.state = .active &&
    (state.users.read process userId).any (fun user => user.deletedAt = none) &&
    wanted userId member

/-- `_live_manager_count`. -/
def liveManagerCount (state : MemberState) (process : Nat) : Nat :=
  (state.liveMembers process fun _ member => member.role = .manager).length

/-- The live member who joined first: `ORDER BY joined_at, user_id`. -/
def joinedFirst (state : MemberState) (process : Nat) (left right : Uuid) : Bool :=
  let joined (userId : Uuid) : Option Instant :=
    (state.members.read process userId).bind OrganizationMember.joinedAt
  match joined left, joined right with
  | some earlier, some later => earlier < later || (earlier = later && left ≤ right)
  | none, some _ => false
  | some _, none => true
  | none, none => left ≤ right

/-- The heir of `hand_over_manager_roles`. -/
def heir? (state : MemberState) (process : Nat) (leavingId : Uuid) : Option Uuid :=
  (sortedBy (state.joinedFirst process)
    (state.liveMembers process fun userId _ => userId ≠ leavingId)).head?

/-! ### Roles -/

/-- `_live_user`. -/
def findUser (state : MemberState) (process : Nat) (request : MemberRequest) : MemberState :=
  match (state.users.select process fun _ user =>
    user.username = request.username && user.deletedAt = none).head? with
  | none => state.rollback process (.raised .userNotFound)
  | some targetId => state.setProcess process (.findMember request targetId)

/-- The target's row: the verbs but an appointment need an active one. -/
def findMember (state : MemberState) (process : Nat) (request : MemberRequest)
    (targetId : Uuid) : MemberState :=
  match request.verb with
  | .appointManager => state.setProcess process (.writeMember request targetId)
  | .changeRole role =>
    match state.membership process targetId with
    | none => state.rollback process (.raised .memberNotFound)
    | some member =>
      state.setProcess process (match role with
        | .member => .guardLastManager request targetId member
        | .manager => .writeMember request targetId)
  | .removeMember =>
    match state.membership process targetId with
    | none => state.rollback process (.raised .memberNotFound)
    | some member =>
      state.setProcess process (if targetId = request.actorId then
          .guardLastManager request targetId member
        else .requireRemover request targetId member)

/-- `require_manager`. -/
def require (state : MemberState) (process : Nat) (request : MemberRequest)
    (next : MemberProcess) : MemberState :=
  if request.actorIsAdmin || state.isOrganizationManager process request.actorId then
    state.setProcess process next
  else state.rollback process (.raised .notOrganizationManager)

/-- `_guard_last_manager`. -/
def guardLastManager (state : MemberState) (process : Nat) (request : MemberRequest)
    (targetId : Uuid) (member : OrganizationMember) : MemberState :=
  if member.role = .manager ∧ state.liveManagerCount process ≤ 1 then
    state.rollback process (.raised .lastManager)
  else state.setProcess process (.writeMember request targetId)

/-- The target's row as `appoint_manager` leaves it. -/
def appointed (now : Instant) : Option OrganizationMember → OrganizationMember
  | none => ⟨.active, .manager, none, some now⟩
  | some member =>
    if member.state = .active then { member with role := .manager }
    else { member with state := .active, joinedAt := some now, role := .manager }

/-- The write of a verb: an UPDATE needs its row, a DELETE does not, and an INSERT
needs the account. -/
def writeMember (state : MemberState) (process : Nat) (request : MemberRequest)
    (targetId : Uuid) : Except MemberBlocked MemberState :=
  let write (value : Option OrganizationMember) : MemberState :=
    { state.setProcess process (.commitMember targetId) with
      members := state.members.write process targetId value }
  if ¬ state.members.Free process targetId then .error .rowLocked
  else
    match request.verb, state.members.read process targetId with
    | .changeRole _, none => .ok (state.rollback process (.raised .staleData))
    | .changeRole role, some member => .ok (write (some { member with role := role }))
    | .removeMember, none => .ok (state.commit process .idle)
    | .removeMember, some _ => .ok (write none)
    | .appointManager, some member => .ok (write (some (appointed state.now (some member))))
    | .appointManager, none =>
      if (state.users.read process targetId).isNone then
        .ok (state.rollback process (.raised .integrity))
      else .ok (write (some (appointed state.now none)))

/-! ### Deletions -/

/-- A soft deletion of a deleted account returns. -/
def loadUser (state : MemberState) (process : Nat) (deletion : Deletion) : MemberState :=
  match state.users.read process deletion.userId with
  | none => state.rollback process (.raised .userNotFound)
  | some user =>
    if deletion.hard then state.setProcess process (.readRoles deletion)
    else if user.deletedAt ≠ none then state.rollback process .idle
    else state.setProcess process (.markDeleted deletion)

/-- The UPDATE of `deleted_at`. -/
def markDeleted (state : MemberState) (process : Nat) (deletion : Deletion) :
    Except MemberBlocked MemberState :=
  if ¬ state.users.Free process deletion.userId then .error .rowLocked
  else
    match state.users.read process deletion.userId with
    | none => .ok (state.rollback process (.raised .staleData))
    | some user =>
      .ok { state.setProcess process (.readRoles deletion) with
            users := state.users.write process deletion.userId
              (some { user with deletedAt := some state.now }) }

/-- What follows the hand-over: a hard deletion drops the account. -/
def afterHandOver (deletion : Deletion) (manages : Bool) (heirId : Option Uuid) :
    MemberProcess :=
  if deletion.hard then .dropUser deletion manages heirId
  else .commitDeletion deletion manages heirId

/-- The UPDATE of the heir's role. -/
def promoteHeir (state : MemberState) (process : Nat) (deletion : Deletion) (heirId : Uuid) :
    Except MemberBlocked MemberState :=
  if ¬ state.members.Free process heirId then .error .rowLocked
  else
    match state.members.read process heirId with
    | none => .ok (state.rollback process (.raised .staleData))
    | some member =>
      .ok { state.setProcess process (afterHandOver deletion true (some heirId)) with
            members := state.members.write process heirId
              (some { member with role := .manager }) }

/-- The DELETE of the account waits for whoever shares its key or holds its row. -/
def dropUser (state : MemberState) (process : Nat) (deletion : Deletion) (manages : Bool)
    (heirId : Option Uuid) : Except MemberBlocked MemberState :=
  if ¬ state.users.Free process deletion.userId ∨ ¬ state.members.Free process deletion.userId then
    .error .rowLocked
  else
    .ok { state.setProcess process (.commitDeletion deletion manages heirId) with
          users := state.users.write process deletion.userId none
          members := state.members.write process deletion.userId none }

/-! ### The system -/

/-- The next statement of one process. -/
def runProcess (state : MemberState) (process : Nat) : Except MemberBlocked MemberState :=
  match state.processes process with
  | .idle | .raised _ => .error .ended
  | .lockOrganization request =>
    state.lock process (match request.verb with
      | .changeRole _ => .requireManager request
      | .removeMember | .appointManager => .findUser request)
  | .requireManager request => .ok (state.require process request (.findUser request))
  | .findUser request => .ok (state.findUser process request)
  | .findMember request targetId => .ok (state.findMember process request targetId)
  | .requireRemover request targetId member =>
    .ok (state.require process request (.guardLastManager request targetId member))
  | .guardLastManager request targetId member =>
    .ok (state.guardLastManager process request targetId member)
  | .writeMember request targetId => state.writeMember process request targetId
  | .commitMember _ => .ok (state.commit process .idle)
  | .loadUser deletion => .ok (state.loadUser process deletion)
  | .markDeleted deletion => state.markDeleted process deletion
  | .readRoles deletion =>
    .ok (state.setProcess process (if state.isOrganizationManager process deletion.userId then
        .lockHandOver deletion
      else afterHandOver deletion false none))
  | .lockHandOver deletion => state.lock process (.readManagers deletion)
  | .readManagers deletion =>
    .ok (state.setProcess process (if (state.liveMembers process fun userId member =>
          userId ≠ deletion.userId && member.role = .manager) ≠ [] then
        afterHandOver deletion true none
      else .readHeir deletion))
  | .readHeir deletion =>
    .ok (state.setProcess process (match state.heir? process deletion.userId with
      | none => afterHandOver deletion true none
      | some heirId => .promoteHeir deletion heirId))
  | .promoteHeir deletion heirId => state.promoteHeir process deletion heirId
  | .dropUser deletion manages heirId => state.dropUser process deletion manages heirId
  | .commitDeletion _ _ _ => .ok (state.commit process .idle)

/-- A request arrives. -/
def start (state : MemberState) (process : Nat) (next : MemberProcess) :
    Except MemberBlocked MemberState :=
  if (state.processes process).ended then .ok (state.setProcess process next) else .error .busy

/-- One step: time passes, a request arrives, or a process runs or fails its next
statement. -/
def step (label : MemberLabel) (state : MemberState) : Except MemberBlocked MemberState :=
  match label with
  | .tick later =>
    if later < state.now then .error .clockRunsForward else .ok { state with now := later }
  | .request process request => state.start process (.lockOrganization request)
  | .delete process deletion => state.start process (.loadUser deletion)
  | .run process => state.runProcess process
  | .fail process => .ok (state.rollback process .idle)

/-! ### Live members -/

/-- The account stands and is not soft-deleted, in the committed rows. -/
def LiveUser (state : MemberState) (userId : Uuid) : Prop :=
  ∃ user, state.users.committed userId = some user ∧ user.deletedAt = none

def LiveMember (state : MemberState) (userId : Uuid) : Prop :=
  state.LiveUser userId ∧
    ∃ member, state.members.committed userId = some member ∧ member.state = .active

def LiveManager (state : MemberState) (userId : Uuid) : Prop :=
  state.LiveUser userId ∧ ∃ member, state.members.committed userId = some member ∧
    member.state = .active ∧ member.role = .manager

/-- Nothing runs, and nothing is locked. -/
structure Initial (state : MemberState) : Prop where
  ended : ∀ process, (state.processes process).ended = true
  unlocked : state.locked = none
  users : ∀ userId, state.users.holder userId = none
  members : ∀ userId, state.members.holder userId = none
  keys : state.members.keys.Nodup ∧
    ∀ userId member, state.members.committed userId = some member → userId ∈ state.members.keys

end MemberState

/-- Every interleaving of role changes, removals, appointments and deletions. -/
def memberSystem : System MemberState MemberLabel :=
  System.ofStep MemberState.Initial MemberState.step

end Vidit.Organizations
