import Vidit.Events.ApprovalRequests
import Vidit.Library.Ranked
import Vidit.Organizations.Members

/-!
Contract: whom the picker of approval requests suggests, and whom a request may ask.

The picker filters, orders and cuts the rows of two tables. The request checks one
row after the other. Both read the state below, rows in the order the database
returns them.

Owns:
- the audiences of analysts and organizations;
- `eligible_targets` with its two statements and its refusal;
- `request_approval` on that state.

Does not own: avatars, the texts of the refusals, the row a request adds.
-/

namespace Vidit.Reviews

open Vidit.Python Vidit.Accounts Vidit.Events Vidit.Library

/-- `ApprovalRequestAudience`. -/
inductive Audience where
  | following
  | everyone
  | nobody
deriving DecidableEq, Repr

/-- `APPROVAL_REQUEST_AUDIENCE_DEFAULT`. -/
def audienceDefault : Audience := .following

/-- A `user_preferences` row. -/
structure UserPreferences where
  userId : Uuid
  approvalRequestAudience : Audience
deriving DecidableEq, Repr

/-- A `follows` row. -/
structure Follow where
  followerId : Uuid
  followedId : Uuid
deriving DecidableEq, Repr

/-- An `organizations` row. -/
structure OrganizationRow extends Organization where
  slug : Str
  approvalRequestAudience : Audience
deriving DecidableEq, Repr

/-- An `organization_members` row. -/
structure MemberRow where
  organizationId : Uuid
  userId : Uuid
  state : Organizations.OrganizationMemberState
  role : Organizations.OrganizationRole
deriving DecidableEq, Repr

/-- What one transaction of the picker, or of a request, finds. -/
structure Tables where
  now : Instant
  geo : Event
  /-- The requests about other events. -/
  elsewhere : List ApprovalRequest
  users : List User
  preferences : List UserPreferences
  follows : List Follow
  organizations : List OrganizationRow
  members : List MemberRow
  userIds : (users.map User.id).Nodup
  usernames : (users.map User.username).Nodup
  organizationIds : (organizations.map fun org => org.id).Nodup
  slugs : (organizations.map OrganizationRow.slug).Nodup
  /-- `ck_event_approvals_reviewer`. -/
  reviewers : ∀ approval ∈ geo.approvals, approval.reviewerId = none →
    approval.organizationId ≠ none

/-- The text functions of the database, under its locale. -/
structure Locale (κ : Type*) where
  /-- `lower(·)`. -/
  lower : Str → Str
  /-- The sort key of the collation. -/
  collate : Str → κ

/-- `icontains(·, autoescape=True)`. -/
def Locale.icontains {κ : Type*} (db : Locale κ) (text part : Str) : Bool :=
  db.lower part <:+: db.lower text

/-- `istartswith(·, autoescape=True)`. -/
def Locale.istartswith {κ : Type*} (db : Locale κ) (text part : Str) : Bool :=
  db.lower part <+: db.lower text

/-- `NOT IN` of a list that may hold NULL. -/
def notIn (id : Uuid) (ids : List (Option Uuid)) : Bool :=
  none ∉ ids && some id ∉ ids

/-- `approved_reviewer_ids`. -/
def approvedReviewerIds (geo : Event) : List (Option Uuid) :=
  (geo.approvals.filter fun approval =>
    approval.versionNo = geo.versionNo && approval.organizationId = none).map
      EventApproval.reviewerId

/-- `approved_organization_ids`. -/
def approvedOrganizationIds (geo : Event) : List (Option Uuid) :=
  (geo.approvals.filter fun approval =>
    approval.versionNo = geo.versionNo && approval.organizationId ≠ none).map
      EventApproval.organizationId

namespace Tables

/-- The tables as the checks of a request read them. -/
def transaction (tables : Tables) : Events.Transaction where
  now := tables.now
  uuid := id
  users := tables.users
  memberships := (tables.members.filter fun member => member.state = .active).map
    fun member => ⟨member.organizationId, member.userId⟩
  tags := []
  conflicts := []
  uploads := []

/-- `_audience`. -/
def audience (tables : Tables) (user : User) : Audience :=
  ((tables.preferences.find? fun row => row.userId = user.id).map
    UserPreferences.approvalRequestAudience).getD audienceDefault

/-- `_follows`. -/
def follows? (tables : Tables) (followerId requesterId : Uuid) : Bool :=
  ⟨followerId, requesterId⟩ ∈ tables.follows

/-- `live_manager_ids`. -/
def liveManagerIds (tables : Tables) (organizationId : Uuid) : List Uuid :=
  (tables.members.filter fun member => member.organizationId = organizationId &&
    member.state = .active && member.role = .manager &&
      tables.users.any fun user => user.id = member.userId && user.deletedAt = none).map
        MemberRow.userId

/-- `_followed_by_an_admin`. -/
def followedByAnAdmin (tables : Tables) (organizationId requesterId : Uuid) : Bool :=
  (tables.liveManagerIds organizationId).any (tables.follows? · requesterId)

/-- `accepts_requests_from`. -/
def acceptsRequestsFrom (tables : Tables) (requester user : User) : Bool :=
  tables.audience user = .everyone ||
    tables.audience user = .following && tables.follows? user.id requester.id

/-- `organization_accepts_requests_from`. -/
def organizationAcceptsRequestsFrom (tables : Tables) (requester : User)
    (org : OrganizationRow) : Bool :=
  org.approvalRequestAudience = .everyone ||
    org.approvalRequestAudience = .following && tables.followedByAnAdmin org.id requester.id

variable {κ : Type*} (unicode : Unicode) (db : Locale κ)

/-- `func.lower(·) == q.lower()`. -/
def isNamed (name q : Str) : Bool :=
  db.lower name = unicode.lower q

/-- `_suggested_analyst`. -/
def suggestedAnalyst (tables : Tables) (requester : User) (q : Str) (user : User) : Bool :=
  tables.audience user ≠ .nobody && tables.follows? user.id requester.id ||
    isNamed unicode db user.username q

/-- `_suggested_organization`. -/
def suggestedOrganization (tables : Tables) (requester : User) (q : Str)
    (org : OrganizationRow) : Bool :=
  org.approvalRequestAudience ≠ .nobody && tables.followedByAnAdmin org.id requester.id ||
    isNamed unicode db org.slug q

/-- The analyst can be asked, whatever their audience. -/
def openAnalyst (tables : Tables) (requester user : User) : Bool :=
  user.deletedAt = none && user.isActive &&
    notIn user.id (tables.geo.everCreditedIds.map some) &&
    notIn user.id (approvedReviewerIds tables.geo) &&
    !asked tables.geo requester (toAnalyst user.id) &&
    !declinedRecently tables.now tables.geo requester (toAnalyst user.id)

/-- The organization can be asked, whatever its audience. -/
def openOrganization (tables : Tables) (requester : User) (org : OrganizationRow) : Bool :=
  canActFor tables.transaction tables.geo org.id &&
    notIn org.id (approvedOrganizationIds tables.geo) &&
    !asked tables.geo requester (toOrganization org.id) &&
    !declinedRecently tables.now tables.geo requester (toOrganization org.id)

/-- The `WHERE` of `_eligible_analysts`. -/
def analystCandidates (tables : Tables) (requester : User) (q : Str) : List User :=
  tables.users.filter fun user => tables.openAnalyst requester user &&
    suggestedAnalyst unicode db tables requester q user &&
      (q = [] || db.icontains user.username q)

/-- The `WHERE` of `_eligible_organizations`. -/
def organizationCandidates (tables : Tables) (requester : User) (q : Str) :
    List OrganizationRow :=
  tables.organizations.filter fun org => tables.openOrganization requester org &&
    suggestedOrganization unicode db tables requester q org &&
      (q = [] || db.icontains org.name q || db.icontains org.slug q)

/-- The `ORDER BY` of `_eligible_analysts`: prefix matches first. -/
def analystKey (q : Str) (user : User) : Bool ×ₗ κ :=
  toLex (q ≠ [] && !db.istartswith user.username q, db.collate user.username)

/-- The `ORDER BY` of `_eligible_organizations`. -/
def organizationKey (org : OrganizationRow) : κ :=
  db.collate org.name

end Tables

/-- `MAX_TARGET_SUGGESTIONS`. -/
def maxTargetSuggestions : Nat := 20

structure AuthorRef where
  id : Uuid
  username : Str
deriving DecidableEq, Repr

structure OrganizationRef where
  slug : Str
  name : Str
deriving DecidableEq, Repr

def authorRef (user : User) : AuthorRef := ⟨user.id, user.username⟩

def organizationRef (org : OrganizationRow) : OrganizationRef := ⟨org.slug, org.name⟩

/-- `ApprovalRequestTargetList`. -/
structure TargetList where
  analysts : List AuthorRef
  organizations : List OrganizationRef
  refusal : Option ApprovalRequestError
deriving DecidableEq

namespace Tables

variable {κ : Type*} [LinearOrder κ] (unicode : Unicode) (db : Locale κ)

/-- `_eligible_analysts`. -/
def eligibleAnalysts (tables : Tables) (requester : User) (q : Str) : List User :=
  (sortedOn (analystKey db q) (analystCandidates unicode db tables requester q)).take
    maxTargetSuggestions

/-- `_eligible_organizations`. -/
def eligibleOrganizations (tables : Tables) (requester : User) (q : Str) :
    List OrganizationRow :=
  (sortedOn (organizationKey db) (organizationCandidates unicode db tables requester q)).take
    maxTargetSuggestions

/-- `_check_analyst_target`. -/
def checkAnalyst (tables : Tables) (requester : User) (username : Str) (checkAudience : Bool) :
    Except ApprovalRequestError User :=
  checkAnalystTarget tables.transaction tables.geo requester username
    (!checkAudience || (tables.transaction.liveByUsername username).any
      (tables.acceptsRequestsFrom requester))

/-- `_check_organization_target`. -/
def checkOrganization (tables : Tables) (requester : User) (slug : Str) (checkAudience : Bool) :
    Except ApprovalRequestError Organization :=
  let found := tables.organizations.find? fun org => org.slug = slug
  checkOrganizationTarget tables.transaction tables.geo requester
    (found.map OrganizationRow.toOrganization)
    (!checkAudience || found.any (tables.organizationAcceptsRequestsFrom requester))

/-- The live active analyst whose username is `exact`, up to case. -/
def analystNamed (tables : Tables) (exact : Str) : Option User :=
  tables.users.find? fun user => isNamed unicode db user.username exact &&
    (user.deletedAt = none && user.isActive)

/-- The organization whose slug is `exact`, up to case. -/
def organizationNamed (tables : Tables) (exact : Str) : Option OrganizationRow :=
  tables.organizations.find? fun org => isNamed unicode db org.slug exact

/-- `_exact_refusal`. -/
def exactRefusal (tables : Tables) (requester : User) (exact : Str) :
    Option ApprovalRequestError :=
  match analystNamed unicode db tables exact, organizationNamed unicode db tables exact with
  | some user, _ => refusalOf (tables.checkAnalyst requester user.username false)
  | none, some org => refusalOf (tables.checkOrganization requester org.slug false)
  | none, none => none
where
  /-- The `except` of `_exact_refusal`. -/
  refusalOf {α : Type} : Except ApprovalRequestError α → Option ApprovalRequestError
    | .error refusal => some refusal
    | .ok _ => none

/-- `eligible_targets`. -/
def eligibleTargets (tables : Tables) (requester : User) (query : Str) :
    Except ApprovalRequestError TargetList := do
  requireRequester tables.geo requester
  let exact := strip query
  let analysts := eligibleAnalysts unicode db tables requester exact
  let organizations := eligibleOrganizations unicode db tables requester exact
  let listed := analysts.map (fun user => unicode.lower user.username) ++
    organizations.map fun org => unicode.lower org.slug
  pure {
    analysts := analysts.map authorRef
    organizations := organizations.map organizationRef
    refusal :=
      if exact ≠ [] ∧ unicode.lower exact ∉ listed then
        exactRefusal unicode db tables requester exact
      else none }

/-- The count of `_check_daily_cap`. -/
def sentToday (tables : Tables) (requester : User) : Nat :=
  ((tables.geo.approvalRequests ++ tables.elsewhere).filter fun request =>
    request.requesterId = requester.id && tables.now - capWindow ≤ request.createdAt).length

/-- `request_approval` of an analyst. -/
def requestAnalyst (tables : Tables) (requester : User) (username : Str) (cap : Nat) :
    Except ApprovalRequestError Event :=
  requestApproval tables.transaction tables.geo requester (.analyst username)
    ((tables.transaction.liveByUsername username).any (tables.acceptsRequestsFrom requester))
    (tables.sentToday requester) cap

/-- `request_approval` of an organization. -/
def requestOrganization (tables : Tables) (requester : User) (slug : Str) (cap : Nat) :
    Except ApprovalRequestError Event :=
  let found := tables.organizations.find? fun org => org.slug = slug
  requestApproval tables.transaction tables.geo requester
    (.organization (found.map OrganizationRow.toOrganization))
    (found.any (tables.organizationAcceptsRequestsFrom requester))
    (tables.sentToday requester) cap

end Tables

end Vidit.Reviews
