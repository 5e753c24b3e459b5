import Vidit.Accounts.Credentials
import Vidit.Events.Credit

/-!
Contract: asking for an approval, and refusing to give one.

Owns:
- `request_approval` with its checks on the requester, the target and the daily
  cap, and `decline`, on one locked event;
- the typed failures of both.

Does not own: the audience a target chose, which the caller supplies, the picker
that suggests targets, and the notifications those writes send.
-/

namespace Vidit.Events

open Vidit.Python Vidit.Accounts Vidit.Library

/-- Why an approval request write is refused, with its `code`. -/
inductive ApprovalRequestError where
  /-- Off `geolocated`: `invalid_state`. -/
  | eventNotReviewable
  | notAGeolocator
  | targetNotFound
  | organizationNotFound
  | targetIsGeolocator
  | requestsNotAccepted
  /-- `already_approved`. -/
  | targetAlreadyReviewed
  | alreadyRequested
  | recentlyDeclined
  | dailyCapReached (cap : Nat)
  | approvalRequestNotFound
  | alreadyResolved
  /-- A refusal of another write on the event. -/
  | event (refusal : EventError)
deriving DecidableEq

/-- `DECLINE_COOLDOWN`. -/
def declineCooldown : Int := minutes (7 * 24 * 60)

/-- The trailing day of the cap. -/
def capWindow : Int := minutes (24 * 60)

/-- Who is asked: an analyst by username, or the organization under a slug. -/
inductive ApprovalTarget where
  | analyst (username : Str)
  | organization (found : Option Organization)
deriving DecidableEq, Repr

/-- `is_geolocator`. -/
def isGeolocator (geo : Event) (userId : Uuid) : Bool :=
  geo.ownerId = userId || (geo.geolocator? userId).any fun credit => credit.state = .active

/-- `_require_requester`. -/
def requireRequester (geo : Event) (requester : User) : Except ApprovalRequestError Unit := do
  require (geo.status = .geolocated) .eventNotReviewable
  require (isGeolocator geo requester.id) .notAGeolocator

/-- The requests of one requester to the target `toTarget` matches. -/
def ApprovalRequest.isFrom (requester : User) (toTarget : ApprovalRequest → Bool)
    (request : ApprovalRequest) : Bool :=
  request.requesterId = requester.id && toTarget request

/-- `_asked`. -/
def asked (geo : Event) (requester : User) (toTarget : ApprovalRequest → Bool) : Bool :=
  geo.approvalRequests.any fun request => request.isFrom requester toTarget && request.status = .open

/-- `_declined_recently`. -/
def declinedRecently (now : Instant) (geo : Event) (requester : User)
    (toTarget : ApprovalRequest → Bool) : Bool :=
  geo.approvalRequests.any fun request => request.isFrom requester toTarget &&
    request.status = .declined && request.resolvedAt.any (now - declineCooldown ≤ ·)

/-- The checks the two kinds of target share, the audience first. -/
def checkTarget (now : Instant) (geo : Event) (requester : User) (admitted reviewed : Bool)
    (toTarget : ApprovalRequest → Bool) : Except ApprovalRequestError Unit := do
  require (admitted = true) .requestsNotAccepted
  require (reviewed = false) .targetAlreadyReviewed
  require (asked geo requester toTarget = false) .alreadyRequested
  require (declinedRecently now geo requester toTarget = false) .recentlyDeclined

/-- The analyst a request asks. -/
def toAnalyst (targetId : Uuid) (request : ApprovalRequest) : Bool :=
  request.targetUserId = some targetId

/-- The organization a request asks. -/
def toOrganization (organizationId : Uuid) (request : ApprovalRequest) : Bool :=
  request.targetOrganizationId = some organizationId

/-- `approved_reviewer_ids` holds the analyst. -/
def approvedBy (geo : Event) (reviewerId : Uuid) : Bool :=
  geo.approvals.any fun approval => approval.versionNo = geo.versionNo &&
    approval.organizationId = none && approval.reviewerId = some reviewerId

/-- `approved_organization_ids` holds the organization. -/
def approvedFor (geo : Event) (organizationId : Uuid) : Bool :=
  geo.approvals.any fun approval => approval.versionNo = geo.versionNo &&
    approval.organizationId = some organizationId

/-- `_check_analyst_target`. -/
def checkAnalystTarget (tx : Transaction) (geo : Event) (requester : User) (username : Str)
    (admitted : Bool) : Except ApprovalRequestError User := do
  let target ← orRefuse (tx.liveByUsername username) .targetNotFound
  require (target.isActive = true) .targetNotFound
  require (target.id ∉ geo.everCreditedIds) .targetIsGeolocator
  checkTarget tx.now geo requester admitted (approvedBy geo target.id) (toAnalyst target.id)
  pure target

/-- `_can_act_for`: a live member who was never credited. -/
def canActFor (tx : Transaction) (geo : Event) (organizationId : Uuid) : Bool :=
  tx.memberships.any fun member => member.organizationId = organizationId &&
    member.userId ∉ geo.everCreditedIds &&
      tx.users.any fun user => user.id = member.userId && user.deletedAt = none

/-- `_check_organization_target`. -/
def checkOrganizationTarget (tx : Transaction) (geo : Event) (requester : User)
    (found : Option Organization) (admitted : Bool) :
    Except ApprovalRequestError Organization := do
  let org ← orRefuse found .organizationNotFound
  require (canActFor tx geo org.id) .targetIsGeolocator
  checkTarget tx.now geo requester admitted (approvedFor geo org.id) (toOrganization org.id)
  pure org

/-- `_check_daily_cap`, given the requests the requester sent in the window. -/
def checkDailyCap (sentToday cap : Nat) : Except ApprovalRequestError Unit :=
  require (sentToday < cap) (.dailyCapReached cap)

/-- The row `request_approval` adds. -/
def newRequest (tx : Transaction) (geo : Event) (requester : User)
    (targetUserId targetOrganizationId : Option Uuid) : ApprovalRequest where
  id := tx.uuid 0
  versionNo := geo.versionNo
  requesterId := requester.id
  targetUserId := targetUserId
  targetOrganizationId := targetOrganizationId
  status := .open
  createdAt := tx.now
  resolvedAt := none

/-- `request_approval`. -/
def requestApproval (tx : Transaction) (geo : Event) (requester : User) (target : ApprovalTarget)
    (admitted : Bool) (sentToday cap : Nat) : Except ApprovalRequestError Event := do
  requireRequester geo requester
  match target with
  | .organization found =>
    let org ← checkOrganizationTarget tx geo requester found admitted
    checkDailyCap sentToday cap
    pure { geo with
      approvalRequests := geo.approvalRequests ++ [newRequest tx geo requester none (some org.id)] }
  | .analyst username =>
    let analyst ← checkAnalystTarget tx geo requester username admitted
    checkDailyCap sentToday cap
    pure { geo with
      approvalRequests :=
        geo.approvalRequests ++ [newRequest tx geo requester (some analyst.id) none] }

/-- `user` answers the request, for themselves or for an organization of theirs. -/
def answerable (tx : Transaction) (user : User) (request : ApprovalRequest) : Bool :=
  request.targetUserId = some user.id ||
    request.targetOrganizationId.any fun organizationId =>
      ⟨organizationId, user.id⟩ ∈ tx.memberships

/-- `decline` of an approval request. -/
def declineRequest (tx : Transaction) (geo : Event) (requestId : Uuid) (user : User) :
    Except ApprovalRequestError Event := do
  let row ← orRefuse (geo.approvalRequests.find? fun request => request.id = requestId)
    .approvalRequestNotFound
  require (answerable tx user row) .approvalRequestNotFound
  require (row.status = .open) .alreadyResolved
  pure (geo.resolveRequests (fun request => request.id = requestId) .declined tx.now)

/-! ### Inverting the writes -/

variable {tx : Transaction} {geo : Event} {requester user : User}

theorem checkTarget_ok {now : Instant} {admitted reviewed : Bool}
    {toTarget : ApprovalRequest → Bool} {checked : Unit}
    (checks : checkTarget now geo requester admitted reviewed toTarget = .ok checked) :
    ∀ request ∈ geo.approvalRequests, request.status = .open →
      request.requesterId = requester.id → toTarget request = false := by
  unfold checkTarget at checks
  simp only [bind_eq_ok, require_eq_ok] at checks
  rcases checks with ⟨_, _, _, _, _, unasked, _⟩
  intro request member standing sent
  have absent := List.any_eq_false.mp unasked request member
  simpa [ApprovalRequest.isFrom, standing, sent] using absent

/-- A new request is from a credited analyst, to nobody ever credited, and has no
open twin. -/
theorem requestApproval_ok {target : ApprovalTarget} {admitted : Bool} {sentToday cap : Nat}
    {requested : Event}
    (requesting : requestApproval tx geo requester target admitted sentToday cap =
      .ok requested) :
    ∃ targetUserId targetOrganizationId, geo.status = .geolocated ∧
      isGeolocator geo requester.id = true ∧
      (∀ userId, targetUserId = some userId → userId ∉ geo.everCreditedIds) ∧
      (∀ request ∈ geo.approvalRequests, request.status = .open →
        request.requesterId = requester.id → request.targetUserId = targetUserId →
          request.targetOrganizationId ≠ targetOrganizationId) ∧
      requested = { geo with approvalRequests := geo.approvalRequests ++
        [newRequest tx geo requester targetUserId targetOrganizationId] } := by
  unfold requestApproval requireRequester at requesting
  simp only [bind_eq_ok, require_eq_ok] at requesting
  rcases requesting with ⟨_, ⟨_, published, credited⟩, asking⟩
  cases target with
  | organization found =>
      simp only [checkOrganizationTarget, bind_eq_ok, pure_eq_ok] at asking
      rcases asking with ⟨org, ⟨_, _, _, _, _, checks, rfl⟩, _, _, rfl⟩
      refine ⟨none, some _, published, credited, fun _ none => by contradiction, ?_, rfl⟩
      intro request member standing sent _ same
      have other := checkTarget_ok checks request member standing sent
      simp [toOrganization, same] at other
  | analyst username =>
      simp only [checkAnalystTarget, bind_eq_ok, require_eq_ok, pure_eq_ok] at asking
      rcases asking with ⟨analyst, ⟨_, _, _, _, _, stranger, _, checks, rfl⟩, _, _, rfl⟩
      refine ⟨some _, none, published, credited, ?_, ?_, rfl⟩
      · rintro _ ⟨⟩
        exact stranger
      · intro request member standing sent same _
        have other := checkTarget_ok checks request member standing sent
        simp [toAnalyst, same] at other

theorem declineRequest_ok {requestId : Uuid} {declined : Event}
    (declining : declineRequest tx geo requestId user = .ok declined) :
    declined = geo.resolveRequests (fun request => request.id = requestId) .declined tx.now := by
  unfold declineRequest at declining
  simp only [bind_eq_ok, pure_eq_ok] at declining
  rcases declining with ⟨_, _, _, _, _, _, rfl⟩
  rfl

end Vidit.Events
