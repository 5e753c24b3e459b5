import Vidit.Events.Transaction
import Vidit.Library.Checks

/-!
Contract: who is credited on an event, and who may approve it.

Owns:
- `_credit_geolocator`, and the invitation, answer, removal and hand-over writes
  on one locked event;
- `ever_credited_ids`, and `approve` with the rule that a credited analyst never
  approves.

Does not own: the notifications those writes send.
-/

namespace Vidit.Events

open Vidit.Python Vidit.Accounts Vidit.Library

/-! ### Reading -/

/-- The `event_geolocators` row of one analyst. -/
def Event.geolocator? (geo : Event) (userId : Uuid) : Option EventGeolocator :=
  geo.geolocators.find? fun row => row.userId = userId

/-- `get_live_by_username`. -/
def Transaction.liveByUsername (tx : Transaction) (username : Str) : Option User :=
  tx.users.find? fun user => user.username = username ∧ user.deletedAt = none

/-- A row counts as past credit unless it is an invitation of someone new. -/
def EventGeolocator.everActive (row : EventGeolocator) : Bool :=
  row.state ≠ .invited || row.departedAt ≠ none

/-- `ever_credited_ids`. -/
def Event.everCreditedIds (geo : Event) : List Uuid :=
  geo.ownerId :: (geo.geolocators.filter EventGeolocator.everActive).map
    EventGeolocator.userId

/-- The credited analysts: `active` rows. -/
def Event.activeIds (geo : Event) : List Uuid :=
  (geo.geolocators.filter fun row => row.state = .active).map EventGeolocator.userId

/-- `ensure_owner`. -/
def ensureOwner (geo : Event) (user : User) : Except EventError Unit :=
  require (geo.ownerId = user.id) .notAuthorized

/-! ### Writing rows -/

/-- Store the row of one analyst, in place when there is one. -/
def Event.setGeolocator (geo : Event) (row : EventGeolocator) : Event :=
  { geo with
    geolocators :=
      if (geo.geolocator? row.userId).isSome then
        geo.geolocators.map fun stored => if stored.userId = row.userId then row else stored
      else geo.geolocators ++ [row] }

/-- `_credit_geolocator`: make `userId` the owner and credit them. -/
def creditGeolocator (geo : Event) (userId : Uuid) (now : Instant) : Event :=
  let geo := { geo with ownerId := userId }
  let row := (geo.geolocator? userId).getD ⟨userId, .active, none, none, none⟩
  geo.setGeolocator { row with state := .active, joinedAt := some now }

/-! ### Invitations -/

/-- Rows that count against the ceiling: invited or active, of a live account. -/
def heldCredits (tx : Transaction) (geo : Event) : Nat :=
  (geo.geolocators.filter fun row =>
    row.state ≠ .departed ∧
      ∃ user ∈ tx.users, user.id = row.userId ∧ user.deletedAt = none).length

/-- `_stage_invite` on a locked event whose owner invites. -/
def stageInvite (tx : Transaction) (geo : Event) (username : Str) : Except EventError Event := do
  require (geo.status = .geolocated) (.credit .eventNotPublished)
  let invitee ← orRefuse (tx.liveByUsername username) (.credit .inviteeNotFound)
  let state := (geo.geolocator? invitee.id).map EventGeolocator.state
  require (¬ (invitee.id = geo.ownerId ∨ state = some .active)) (.credit .alreadyGeolocator)
  require (state ≠ some .invited) (.credit .alreadyInvited)
  require (heldCredits tx geo < maxEventGeolocators) (.credit .tooManyGeolocators)
  let row := (geo.geolocator? invitee.id).getD ⟨invitee.id, .invited, none, none, none⟩
  pure (geo.setGeolocator { row with state := .invited, invitedAt := some tx.now })

/-- `invite_on_publish`. -/
def inviteOnPublish (tx : Transaction) : Event → List Str → Except EventError Event
  | geo, [] => pure geo
  | geo, username :: usernames => do
    let geo ← stageInvite tx geo username
    inviteOnPublish tx geo usernames

/-- `invite`. -/
def invite (tx : Transaction) (geo : Event) (owner : User) (username : Str) :
    Except EventError Event := do
  ensureOwner geo owner
  stageInvite tx geo username

/-- `_invite_row`. -/
def inviteRow (geo : Event) (userId : Uuid) : Except EventError EventGeolocator := do
  let row ← orRefuse (geo.geolocator? userId) (.credit .inviteNotFound)
  require (row.state = .invited) (.credit .inviteNotFound)
  pure row

/-- `_end_invitation`. -/
def endInvitation (geo : Event) (row : EventGeolocator) : Event :=
  if row.departedAt ≠ none then geo.setGeolocator { row with state := .departed }
  else { geo with geolocators := geo.geolocators.filter fun stored => stored.userId ≠ row.userId }

/-- `withdraw`. -/
def withdraw (tx : Transaction) (geo : Event) (owner : User) (username : Str) :
    Except EventError Event := do
  ensureOwner geo owner
  let invitee ← orRefuse (tx.liveByUsername username) (.credit .inviteNotFound)
  let row ← inviteRow geo invitee.id
  pure (endInvitation geo row)

/-- `decline`. -/
def decline (geo : Event) (user : User) : Except EventError Event := do
  let row ← inviteRow geo user.id
  pure (endInvitation geo row)

/-- `delete_approvals_on_join`. -/
def deleteApprovalsOnJoin (geo : Event) (userId : Uuid) : Event :=
  { geo with
    approvals := geo.approvals.filter fun approval => approval.reviewerId ≠ some userId }

/-- `accept`. -/
def accept (tx : Transaction) (geo : Event) (user : User) : Except EventError Event := do
  let row ← inviteRow geo user.id
  require (geo.status = .geolocated) (.credit .eventNotPublished)
  let joined := geo.setGeolocator { row with state := .active, joinedAt := some tx.now }
  let joined := deleteApprovalsOnJoin joined user.id
  pure { joined with
    approvalRequests := joined.approvalRequests.filter fun request =>
      ¬ (request.targetUserId = some user.id ∧ request.status = .open) }

/-- Resolve the open requests that `resolves` picks. -/
def Event.resolveRequests (geo : Event) (resolves : ApprovalRequest → Bool)
    (status : ApprovalRequestStatus) (now : Instant) : Event :=
  { geo with
    approvalRequests := geo.approvalRequests.map fun request =>
      if resolves request ∧ request.status = .open then
        { request with status := status, resolvedAt := some now }
      else request }

/-- An analyst may leave; removing someone else is the owner's. -/
def ensureMayRemove (geo : Event) (actor target : User) : Except EventError Unit :=
  if target.id = actor.id then pure () else ensureOwner geo actor

/-- `remove`: the owner removes a co-geolocator, or one leaves. -/
def remove (tx : Transaction) (geo : Event) (actor : User) (username : Str) :
    Except EventError Event := do
  let target ← orRefuse (tx.users.find? fun user => user.username = username)
    (.credit .geolocatorNotFound)
  let credit ← orRefuse (geo.geolocator? target.id) (.credit .geolocatorNotFound)
  require (credit.state = .active) (.credit .geolocatorNotFound)
  require (target.id ≠ geo.ownerId) (.credit .ownerCannotLeave)
  ensureMayRemove geo actor target
  let departed := geo.setGeolocator
    { credit with state := .departed, departedAt := some (credit.departedAt.getD tx.now) }
  let departed := departed.resolveRequests
    (fun request => request.requesterId = target.id) .withdrawn tx.now
  pure { departed with
    collectionItems := departed.collectionItems.filter fun item => item.ownerId ≠ target.id }

/-! ### Hand-over -/

/-- `ORDER BY joined_at, user_id`. -/
def heirLe (left right : EventGeolocator) : Bool :=
  match left.joinedAt, right.joinedAt with
  | some earlier, some later =>
    earlier < later || (earlier = later && left.userId ≤ right.userId)
  | none, some _ => false
  | some _, none => true
  | none, none => left.userId ≤ right.userId

/-- The earliest other live analyst credited on the event. -/
def heir? (users : List User) (owner : User) (geo : Event) : Option Uuid :=
  (sortedBy heirLe (geo.geolocators.filter fun row =>
    row.userId ≠ owner.id ∧ row.state = .active ∧
      ∃ user ∈ users, user.id = row.userId ∧ user.deletedAt = none)).head?.map
        EventGeolocator.userId

/-- An event `hand_over_owned_events` treats as live: not deleted, or deleted
with its owner's own ban. -/
def livesWithOwner (owner : User) (geo : Event) : Bool :=
  geo.deletedAt = none || (owner.deletedAt ≠ none && geo.deletedAt = owner.deletedAt)

/-- The heir `hand_over_owned_events` passes an owned event to. -/
def handOverHeir (users : List User) (owner : User) (geo : Event) : Option Uuid :=
  if livesWithOwner owner geo then heir? users owner geo else none

/-- `hand_over_owned_events` on one event. -/
def handOver (users : List User) (owner : User) (geo : Event) : Event :=
  match handOverHeir users owner geo with
  | some heirId => { geo with ownerId := heirId, deletedAt := none }
  | none => geo

/-! ### Approvals -/

structure Organization where
  id : Uuid
  name : Str
deriving DecidableEq, Repr

/-- `may_approve` for a signed-in analyst. -/
def mayApprove (geo : Event) (user : User) : Bool :=
  geo.status = .geolocated && user.id ∉ geo.everCreditedIds

/-- The approvals that stand in the way of another of the same kind. -/
def sameApprovals (geo : Event) (reviewer : User) (versionNo : Nat)
    (organization : Option Organization) : List EventApproval :=
  geo.approvals.filter fun approval =>
    approval.versionNo = versionNo &&
      match organization with
      | none => approval.reviewerId = some reviewer.id && approval.organizationId = none
      | some organization => approval.organizationId = some organization.id

/-- `approve`. -/
def approve (tx : Transaction) (geo : Event) (reviewer : User) (versionNo : Nat)
    (organization : Option Organization) : Except EventError Event := do
  require (geo.status = .geolocated) (.approval .eventNotApprovable)
  require (∀ org ∈ organization, ⟨org.id, reviewer.id⟩ ∈ tx.memberships)
    (.approval .notOrganizationMember)
  require (reviewer.id ∉ geo.everCreditedIds) (.approval .geolocatorCannotApprove)
  require (versionNo = geo.versionNo) (.approval (.versionMismatch geo.versionNo))
  require (sameApprovals geo reviewer versionNo organization = [])
    (.approval (match organization with
      | none => .alreadyApproved
      | some organization => .organizationAlreadyApproved organization.name))
  let approval : EventApproval :=
    ⟨tx.uuid 0, versionNo, some reviewer.id, organization.map Organization.id, tx.now⟩
  let approved := { geo with approvals := geo.approvals ++ [approval] }
  pure (approved.resolveRequests (fun request =>
    match organization with
    | none => request.targetUserId = some reviewer.id
    | some organization => request.targetOrganizationId = some organization.id) .approved tx.now)

end Vidit.Events
