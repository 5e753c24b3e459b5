import Mathlib.Data.List.Lex
import Vidit.Library.Rows
import Vidit.Reviews.Picker

/-!
Contract: the picker of approval requests against the requests themselves.

The picker's `WHERE` and the request's checks agree row by row; the order and the
limit decide which rows are left, and the names of those rows decide whether a
refusal is looked up.

Owns:
- what is offered, and what a refusal answers, in terms of the tables;
- `OffersAgree`: every target offered may be asked, every exact name is answered,
  and no audience of a stranger shows;
- when the picker agrees, and a name it leaves without an answer.

Does not own: unpublished events, where the picker is refused before it reads a row.
-/

namespace Vidit.Reviews

open Vidit.Python Vidit.Accounts Vidit.Events Vidit.Library

namespace Tables

variable {tables : Tables} {requester user : User} {org : OrganizationRow}

/-! ### The rows of the tables -/

theorem keyedBy_of_nodup {ρ κ : Type*} {key : ρ → κ} {rows : List ρ}
    (nodup : (rows.map key).Nodup) : KeyedBy key rows :=
  fun _ left _ right same => List.inj_on_of_nodup_map nodup left right same

theorem liveByUsername_of_mem (member : user ∈ tables.users) (live : user.deletedAt = none) :
    tables.transaction.liveByUsername user.username = some user := by
  unfold Events.Transaction.liveByUsername
  cases found : tables.transaction.users.find? fun other =>
      other.username = user.username ∧ other.deletedAt = none with
  | none =>
      have missed := List.find?_eq_none.mp found user member
      simp [live] at missed
  | some other =>
      have same := List.find?_some found
      simp only [decide_eq_true_eq] at same
      rw [keyedBy_of_nodup tables.usernames other (List.mem_of_find?_eq_some found) user member
        same.1]

theorem organization_of_mem (member : org ∈ tables.organizations) :
    tables.organizations.find? (fun other => other.slug = org.slug) = some org :=
  (keyedBy_of_nodup tables.slugs).find?_eq member

/-! ### The filters and the checks, row by row -/

@[simp] theorem notIn_map_some {id : Uuid} {ids : List Uuid} :
    notIn id (ids.map some) = decide (id ∉ ids) := by
  unfold notIn
  simp

theorem notIn_approvedReviewerIds (tables : Tables) (id : Uuid) :
    notIn id (approvedReviewerIds tables.geo) = !approvedBy tables.geo id := by
  have named : none ∉ approvedReviewerIds tables.geo := by
    unfold approvedReviewerIds
    rw [List.mem_map]
    rintro ⟨approval, member, unnamed⟩
    rw [List.mem_filter, Bool.and_eq_true, decide_eq_true_eq, decide_eq_true_eq] at member
    exact tables.reviewers approval member.1 unnamed member.2.2
  have same : some id ∈ approvedReviewerIds tables.geo ↔ approvedBy tables.geo id = true := by
    unfold approvedReviewerIds approvedBy
    simp [and_assoc]
  unfold notIn
  rw [decide_eq_true named, Bool.true_and, Bool.eq_iff_iff, decide_eq_true_eq, same]
  simp

theorem notIn_approvedOrganizationIds (geo : Event) (id : Uuid) :
    notIn id (approvedOrganizationIds geo) = !approvedFor geo id := by
  have named : none ∉ approvedOrganizationIds geo := by
    unfold approvedOrganizationIds
    simp
  have same : some id ∈ approvedOrganizationIds geo ↔ approvedFor geo id = true := by
    unfold approvedOrganizationIds approvedFor
    rw [List.mem_map, List.any_eq_true]
    constructor
    · rintro ⟨approval, member, here⟩
      rw [List.mem_filter, Bool.and_eq_true, decide_eq_true_eq, decide_eq_true_eq] at member
      exact ⟨approval, member.1, by simp [member.2.1, here]⟩
    · rintro ⟨approval, member, here⟩
      rw [Bool.and_eq_true, decide_eq_true_eq, decide_eq_true_eq] at here
      exact ⟨approval, List.mem_filter.mpr ⟨member, by simp [here]⟩, here.2⟩
  unfold notIn
  rw [decide_eq_true named, Bool.true_and, Bool.eq_iff_iff, decide_eq_true_eq, same]
  simp

/-- The shared checks pass where the audience admits and nothing stands in the way. -/
theorem checkTarget_eq (now : Instant) (admitted : Bool) {geo : Event} {reviewed : Bool}
    {toTarget : ApprovalRequest → Bool}
    (clear : (!reviewed && !asked geo requester toTarget &&
      !declinedRecently now geo requester toTarget) = true) :
    checkTarget now geo requester admitted reviewed toTarget =
      if admitted = true then .ok ⟨⟩ else .error .requestsNotAccepted := by
  simp only [Bool.and_eq_true, Bool.not_eq_true'] at clear
  unfold checkTarget
  cases admitted <;> simp [require, clear, bind, Except.bind]

theorem checkTarget_refuses {now : Instant} {geo : Event} {reviewed : Bool}
    {toTarget : ApprovalRequest → Bool}
    (barred : (!reviewed && !asked geo requester toTarget &&
      !declinedRecently now geo requester toTarget) = false) :
    ∃ refusal, checkTarget now geo requester true reviewed toTarget = .error refusal := by
  cases checked : checkTarget now geo requester true reviewed toTarget with
  | error refusal => exact ⟨refusal, rfl⟩
  | ok _ =>
      unfold checkTarget at checked
      simp only [bind_eq_ok, require_eq_ok] at checked
      obtain ⟨_, _, _, unreviewed, _, unasked, undeclined⟩ := checked
      simp [unreviewed, unasked, undeclined] at barred

/-- The picker's filter on an analyst, as the request checks them. -/
theorem openAnalyst_iff : tables.openAnalyst requester user = true ↔
    user.IsLive ∧ user.id ∉ tables.geo.everCreditedIds ∧
      (!approvedBy tables.geo user.id && !asked tables.geo requester (toAnalyst user.id) &&
        !declinedRecently tables.now tables.geo requester (toAnalyst user.id)) = true := by
  unfold openAnalyst User.IsLive
  rw [notIn_map_some, notIn_approvedReviewerIds]
  simp only [Bool.and_eq_true, decide_eq_true_eq]
  tauto

theorem openOrganization_iff : tables.openOrganization requester org = true ↔
    canActFor tables.transaction tables.geo org.id = true ∧
      (!approvedFor tables.geo org.id && !asked tables.geo requester (toOrganization org.id) &&
        !declinedRecently tables.now tables.geo requester (toOrganization org.id)) = true := by
  unfold openOrganization
  rw [notIn_approvedOrganizationIds]
  simp only [Bool.and_eq_true]
  tauto

theorem checkAnalystTarget_of_open (member : user ∈ tables.users)
    (isOpen : tables.openAnalyst requester user = true) (admitted : Bool) :
    checkAnalystTarget tables.transaction tables.geo requester user.username admitted =
      if admitted = true then .ok user else .error .requestsNotAccepted := by
  obtain ⟨live, stranger, clear⟩ := openAnalyst_iff.mp isOpen
  unfold checkAnalystTarget
  rw [liveByUsername_of_mem member live.2]
  have checked := checkTarget_eq tables.now admitted clear
  have now : tables.transaction.now = tables.now := rfl
  cases admitted <;>
    simp [orRefuse, require, bind, Except.bind, pure, Except.pure, live.1, stranger, now, checked]

theorem checkOrganizationTarget_of_open
    (isOpen : tables.openOrganization requester org = true) (admitted : Bool) :
    checkOrganizationTarget tables.transaction tables.geo requester (some org.toOrganization)
        admitted =
      if admitted = true then .ok org.toOrganization else .error .requestsNotAccepted := by
  obtain ⟨acts, clear⟩ := openOrganization_iff.mp isOpen
  unfold checkOrganizationTarget
  have checked := checkTarget_eq tables.now admitted clear
  have now : tables.transaction.now = tables.now := rfl
  cases admitted <;>
    simp [orRefuse, require, bind, Except.bind, pure, Except.pure, acts, now, checked]

/-- Without the audience, an analyst who cannot be asked is refused. -/
theorem checkAnalyst_refuses (member : user ∈ tables.users) (live : user.IsLive)
    (closed : tables.openAnalyst requester user = false) :
    ∃ refusal, tables.checkAnalyst requester user.username false = .error refusal := by
  cases checked : tables.checkAnalyst requester user.username false with
  | error refusal => exact ⟨refusal, rfl⟩
  | ok target =>
      unfold checkAnalyst checkAnalystTarget at checked
      rw [liveByUsername_of_mem member live.2] at checked
      simp only [bind_eq_ok, orRefuse_eq_ok, require_eq_ok] at checked
      obtain ⟨_, ⟨⟩, _, _, _, stranger, _, passed, _⟩ := checked
      by_cases clear : (!approvedBy tables.geo user.id &&
          !asked tables.geo requester (toAnalyst user.id) &&
            !declinedRecently tables.now tables.geo requester (toAnalyst user.id)) = true
      · rw [openAnalyst_iff.mpr ⟨live, stranger, clear⟩] at closed
        cases closed
      · obtain ⟨refusal, refused⟩ := checkTarget_refuses (Bool.not_eq_true _ ▸ clear)
        have now : tables.transaction.now = tables.now := rfl
        rw [Bool.not_false, Bool.true_or, now, refused] at passed
        cases passed

theorem checkOrganization_refuses (member : org ∈ tables.organizations)
    (closed : tables.openOrganization requester org = false) :
    ∃ refusal, tables.checkOrganization requester org.slug false = .error refusal := by
  cases checked : tables.checkOrganization requester org.slug false with
  | error refusal => exact ⟨refusal, rfl⟩
  | ok target =>
      unfold checkOrganization checkOrganizationTarget at checked
      rw [organization_of_mem member] at checked
      simp only [Option.map_some, bind_eq_ok, orRefuse_eq_ok, require_eq_ok] at checked
      obtain ⟨_, ⟨⟩, _, acts, _, passed, _⟩ := checked
      by_cases clear : (!approvedFor tables.geo org.id &&
          !asked tables.geo requester (toOrganization org.id) &&
            !declinedRecently tables.now tables.geo requester (toOrganization org.id)) = true
      · rw [openOrganization_iff.mpr ⟨acts, clear⟩] at closed
        cases closed
      · obtain ⟨refusal, refused⟩ := checkTarget_refuses (Bool.not_eq_true _ ▸ clear)
        have now : tables.transaction.now = tables.now := rfl
        rw [Bool.not_false, Bool.true_or, now, refused] at passed
        cases passed

/-! ### What is offered -/

variable {κ : Type*} [LinearOrder κ] {unicode : Unicode} {db : Locale κ} {query q : Str}

/-- The picker would suggest the analyst, and fewer suggestions than its limit come first. -/
def OffersAnalyst (unicode : Unicode) (db : Locale κ) (tables : Tables) (requester : User) (q : Str)
    (user : User) : Prop :=
  let candidates := analystCandidates unicode db tables requester q
  user ∈ candidates ∧
    candidates.countP (sortsBefore (analystKey db q) candidates · user) < maxTargetSuggestions

/-- The picker would suggest the organization, and fewer suggestions than its limit come first. -/
def OffersOrganization (unicode : Unicode) (db : Locale κ) (tables : Tables) (requester : User)
    (q : Str) (org : OrganizationRow) : Prop :=
  let candidates := organizationCandidates unicode db tables requester q
  org ∈ candidates ∧
    candidates.countP (sortsBefore (organizationKey db) candidates · org) < maxTargetSuggestions

instance : Decidable (OffersAnalyst unicode db tables requester q user) := by
  unfold OffersAnalyst
  infer_instance

instance : Decidable (OffersOrganization unicode db tables requester q org) := by
  unfold OffersOrganization
  infer_instance

theorem mem_eligibleAnalysts : user ∈ eligibleAnalysts unicode db tables requester q ↔
    OffersAnalyst unicode db tables requester q user :=
  mem_take_sortedOn ((List.Nodup.of_map _ tables.userIds).filter _)

theorem mem_eligibleOrganizations : org ∈ eligibleOrganizations unicode db tables requester q ↔
    OffersOrganization unicode db tables requester q org :=
  mem_take_sortedOn ((List.Nodup.of_map _ tables.slugs).filter _)

/-- An analyst offered is a row that can be asked. -/
theorem OffersAnalyst.open (offers : OffersAnalyst unicode db tables requester q user) :
    user ∈ tables.users ∧ tables.openAnalyst requester user = true := by
  have member := List.mem_filter.mp offers.1
  rw [Bool.and_eq_true, Bool.and_eq_true] at member
  exact ⟨member.1, member.2.1.1⟩

theorem OffersOrganization.open (offers : OffersOrganization unicode db tables requester q org) :
    org ∈ tables.organizations ∧ tables.openOrganization requester org = true := by
  have member := List.mem_filter.mp offers.1
  rw [Bool.and_eq_true, Bool.and_eq_true] at member
  exact ⟨member.1, member.2.1.1⟩

/-- A reference in the list is the row's own. -/
theorem authorRef_mem_iff (member : user ∈ tables.users) :
    authorRef user ∈ (eligibleAnalysts unicode db tables requester q).map authorRef ↔
      OffersAnalyst unicode db tables requester q user := by
  rw [← mem_eligibleAnalysts, List.mem_map]
  constructor
  · rintro ⟨other, kept, same⟩
    have inTable := (mem_eligibleAnalysts.mp kept).open.1
    rw [← keyedBy_of_nodup tables.userIds other inTable user member (congrArg AuthorRef.id same)]
    exact kept
  · intro kept
    exact ⟨user, kept, rfl⟩

theorem organizationRef_mem_iff (member : org ∈ tables.organizations) :
    organizationRef org ∈
        (eligibleOrganizations unicode db tables requester q).map organizationRef ↔
      OffersOrganization unicode db tables requester q org := by
  rw [← mem_eligibleOrganizations, List.mem_map]
  constructor
  · rintro ⟨other, kept, same⟩
    have inTable := (mem_eligibleOrganizations.mp kept).open.1
    rw [← keyedBy_of_nodup tables.slugs other inTable org member
      (congrArg OrganizationRef.slug same)]
    exact kept
  · intro kept
    exact ⟨org, kept, rfl⟩

/-! ### What a refusal answers -/

/-- The account `_exact_refusal` looks up cannot be asked. -/
def NamedIsClosed (unicode : Unicode) (db : Locale κ) (tables : Tables) (requester : User)
    (exact : Str) : Prop :=
  match analystNamed unicode db tables exact, organizationNamed unicode db tables exact with
  | some user, _ => tables.openAnalyst requester user = false
  | none, some org => tables.openOrganization requester org = false
  | none, none => False

omit [LinearOrder κ] in
theorem exactRefusal_ne_none : exactRefusal unicode db tables requester q ≠ none ↔
    NamedIsClosed unicode db tables requester q := by
  unfold exactRefusal NamedIsClosed
  cases analyst : analystNamed unicode db tables q with
  | some user =>
      have member := List.mem_of_find?_eq_some analyst
      have found := List.find?_some analyst
      simp only [Bool.and_eq_true, decide_eq_true_eq] at found
      cases isOpen : tables.openAnalyst requester user with
      | true =>
          have passes := checkAnalystTarget_of_open member isOpen true
          simp [checkAnalyst, passes, exactRefusal.refusalOf, isOpen]
      | false =>
          obtain ⟨refusal, refused⟩ := checkAnalyst_refuses member ⟨found.2.2, found.2.1⟩ isOpen
          simp [refused, exactRefusal.refusalOf, isOpen]
  | none =>
      cases organization : organizationNamed unicode db tables q with
      | none => simp
      | some org =>
          have member := List.mem_of_find?_eq_some organization
          cases isOpen : tables.openOrganization requester org with
          | true =>
              have passes := checkOrganizationTarget_of_open isOpen true
              simp [checkOrganization, organization_of_mem member, passes, exactRefusal.refusalOf,
                isOpen]
          | false =>
              obtain ⟨refusal, refused⟩ := checkOrganization_refuses member isOpen
              simp [refused, exactRefusal.refusalOf, isOpen]

/-- No account offered has the name, and the account looked up under it cannot be asked. -/
def Explains (unicode : Unicode) (db : Locale κ) (tables : Tables) (requester : User)
    (exact : Str) : Prop :=
  exact ≠ [] ∧
    (∀ user, OffersAnalyst unicode db tables requester exact user →
      unicode.lower user.username ≠ unicode.lower exact) ∧
    (∀ org, OffersOrganization unicode db tables requester exact org →
      unicode.lower org.slug ≠ unicode.lower exact) ∧
    NamedIsClosed unicode db tables requester exact

/-- The names `eligible_targets` compares the query with. -/
def listedNames (unicode : Unicode) (db : Locale κ) (tables : Tables) (requester : User)
    (exact : Str) : List Str :=
  (eligibleAnalysts unicode db tables requester exact).map (fun user =>
      unicode.lower user.username) ++
    (eligibleOrganizations unicode db tables requester exact).map fun org => unicode.lower org.slug

theorem not_mem_listedNames : unicode.lower q ∉ listedNames unicode db tables requester q ↔
    (∀ user, OffersAnalyst unicode db tables requester q user →
      unicode.lower user.username ≠ unicode.lower q) ∧
    ∀ org, OffersOrganization unicode db tables requester q org →
      unicode.lower org.slug ≠ unicode.lower q := by
  unfold listedNames
  rw [List.mem_append, not_or, List.mem_map, List.mem_map]
  simp only [mem_eligibleAnalysts, mem_eligibleOrganizations, not_exists, not_and, ne_eq]

/-- What `eligible_targets` returns to a credited analyst of a published event. -/
theorem eligibleTargets_ok {offered : TargetList}
    (returned : eligibleTargets unicode db tables requester query = .ok offered) :
    offered.analysts = (eligibleAnalysts unicode db tables requester (strip query)).map authorRef ∧
      offered.organizations =
        (eligibleOrganizations unicode db tables requester (strip query)).map organizationRef ∧
      (offered.refusal ≠ none ↔ Explains unicode db tables requester (strip query)) := by
  unfold eligibleTargets at returned
  simp only [bind_eq_ok, pure_eq_ok] at returned
  obtain ⟨_, _, rfl⟩ := returned
  refine ⟨rfl, rfl, ?_⟩
  show (if strip query ≠ [] ∧
      unicode.lower (strip query) ∉ listedNames unicode db tables requester (strip query) then
        exactRefusal unicode db tables requester (strip query) else none) ≠ none ↔ _
  unfold Explains
  rw [← exactRefusal_ne_none, ← and_assoc, ← and_assoc, and_assoc (a := strip query ≠ []),
    ← not_mem_listedNames]
  by_cases looked : strip query ≠ [] ∧
      unicode.lower (strip query) ∉ listedNames unicode db tables requester (strip query)
  · rw [if_pos looked]
    exact (and_iff_right looked).symm
  · rw [if_neg looked]
    constructor
    · intro given
      exact absurd rfl given
    · intro read
      exact absurd read.1 looked

theorem eligibleTargets_returns (unicode : Unicode) (db : Locale κ) (query : Str)
    (published : tables.geo.status = .geolocated)
    (credited : isGeolocator tables.geo requester.id = true) :
    ∃ offered, eligibleTargets unicode db tables requester query = .ok offered := by
  unfold eligibleTargets requireRequester require
  simp [published, credited, bind, Except.bind, pure, Except.pure]

/-! ### Requests -/

/-- The request went through, or only the target's audience or the cap refused it. -/
def Acceptable : Except ApprovalRequestError Event → Prop
  | .ok _ => True
  | .error .requestsNotAccepted => True
  | .error (.dailyCapReached _) => True
  | .error _ => False

/-- Past the target's checks, only the cap can refuse. -/
theorem acceptable_of_checked {α : Type} {checked : Except ApprovalRequestError α}
    {target : α} {admitted : Bool} {sent cap : Nat} {add : α → Event}
    (passes : checked = if admitted = true then .ok target else .error .requestsNotAccepted) :
    Acceptable (checked >>= fun target => checkDailyCap sent cap >>= fun _ => pure (add target)) := by
  rw [passes]
  cases admitted with
  | false => exact True.intro
  | true =>
      unfold checkDailyCap require
      by_cases under : sent < cap
      · rw [if_pos under]
        exact True.intro
      · rw [if_neg under]
        exact True.intro

theorem acceptable_requestAnalyst (published : tables.geo.status = .geolocated)
    (credited : isGeolocator tables.geo requester.id = true) (member : user ∈ tables.users)
    (isOpen : tables.openAnalyst requester user = true) (cap : Nat) :
    Acceptable (tables.requestAnalyst requester user.username cap) := by
  unfold requestAnalyst requestApproval requireRequester require
  rw [if_pos published, if_pos credited]
  exact acceptable_of_checked (checkAnalystTarget_of_open member isOpen _)

theorem acceptable_requestOrganization (published : tables.geo.status = .geolocated)
    (credited : isGeolocator tables.geo requester.id = true)
    (member : org ∈ tables.organizations)
    (isOpen : tables.openOrganization requester org = true) (cap : Nat) :
    Acceptable (tables.requestOrganization requester org.slug cap) := by
  unfold requestOrganization requestApproval requireRequester require
  rw [if_pos published, if_pos credited, organization_of_mem member]
  exact acceptable_of_checked (checkOrganizationTarget_of_open isOpen _)

/-! ### Audiences of strangers -/

def resetAudience (setting : Uuid → Audience) (org : OrganizationRow) : OrganizationRow :=
  { org with approvalRequestAudience := setting org.id }

/-- The tables under other audiences. -/
def withAudiences (tables : Tables) (preferences : List UserPreferences)
    (setting : Uuid → Audience) : Tables :=
  { tables with
    preferences := preferences
    organizations := tables.organizations.map (resetAudience setting)
    organizationIds := by
      rw [List.map_map]
      exact tables.organizationIds
    slugs := by
      rw [List.map_map]
      exact tables.slugs }

/-- The audiences of those who follow the requester stay. -/
structure KeepsFollowers (tables : Tables) (requester : User) (preferences : List UserPreferences)
    (setting : Uuid → Audience) : Prop where
  analysts : ∀ user ∈ tables.users, tables.follows? user.id requester.id = true →
    (tables.withAudiences preferences setting).audience user = tables.audience user
  organizations : ∀ org ∈ tables.organizations,
    tables.followedByAnAdmin org.id requester.id = true →
      setting org.id = org.approvalRequestAudience

variable {preferences : List UserPreferences} {setting : Uuid → Audience}

omit [LinearOrder κ] in
theorem analystCandidates_withAudiences
    (keeps : KeepsFollowers tables requester preferences setting) :
    analystCandidates unicode db (tables.withAudiences preferences setting) requester q =
      analystCandidates unicode db tables requester q := by
  unfold analystCandidates
  apply List.filter_congr
  intro user member
  have suggested : suggestedAnalyst unicode db (tables.withAudiences preferences setting)
      requester q user = suggestedAnalyst unicode db tables requester q user := by
    show (decide ((tables.withAudiences preferences setting).audience user ≠ .nobody) &&
      tables.follows? user.id requester.id || isNamed unicode db user.username q) = _
    unfold suggestedAnalyst
    cases follows : tables.follows? user.id requester.id with
    | false => rw [Bool.and_false, Bool.and_false]
    | true => rw [keeps.analysts user member follows]
  rw [suggested]
  rfl

omit [LinearOrder κ] in
theorem organizationCandidates_withAudiences
    (keeps : KeepsFollowers tables requester preferences setting) :
    organizationCandidates unicode db (tables.withAudiences preferences setting) requester q =
      (organizationCandidates unicode db tables requester q).map (resetAudience setting) := by
  unfold organizationCandidates
  show List.filter _ (tables.organizations.map (resetAudience setting)) = _
  rw [List.filter_map]
  congr 1
  apply List.filter_congr
  intro org member
  have suggested : suggestedOrganization unicode db (tables.withAudiences preferences setting)
      requester q (resetAudience setting org) =
        suggestedOrganization unicode db tables requester q org := by
    show (decide (setting org.id ≠ .nobody) && tables.followedByAnAdmin org.id requester.id ||
      isNamed unicode db org.slug q) = _
    unfold suggestedOrganization
    cases followed : tables.followedByAnAdmin org.id requester.id with
    | false => rw [Bool.and_false, Bool.and_false]
    | true => rw [keeps.organizations org member followed]
  rw [Function.comp_apply, suggested]
  rfl

theorem eligibleAnalysts_withAudiences
    (keeps : KeepsFollowers tables requester preferences setting) :
    eligibleAnalysts unicode db (tables.withAudiences preferences setting) requester q =
      eligibleAnalysts unicode db tables requester q := by
  unfold eligibleAnalysts
  rw [analystCandidates_withAudiences keeps]

theorem eligibleOrganizations_withAudiences
    (keeps : KeepsFollowers tables requester preferences setting) :
    eligibleOrganizations unicode db (tables.withAudiences preferences setting) requester q =
      (eligibleOrganizations unicode db tables requester q).map (resetAudience setting) := by
  have kept : ∀ org, organizationKey db (resetAudience setting org) = organizationKey db org :=
    fun _ => rfl
  unfold eligibleOrganizations
  rw [organizationCandidates_withAudiences keeps, sortedOn_map kept, List.map_take]

omit [LinearOrder κ] in
/-- The refusal is looked up without the audience. -/
theorem exactRefusal_withAudiences :
    exactRefusal unicode db (tables.withAudiences preferences setting) requester q =
      exactRefusal unicode db tables requester q := by
  have named : organizationNamed unicode db (tables.withAudiences preferences setting) q =
      (organizationNamed unicode db tables q).map (resetAudience setting) := by
    unfold organizationNamed
    exact List.find?_map
  have checked : ∀ slug, (tables.withAudiences preferences setting).checkOrganization requester slug
      false = tables.checkOrganization requester slug false := by
    intro slug
    unfold checkOrganization
    have found : (tables.withAudiences preferences setting).organizations.find?
        (fun org => org.slug = slug) =
          (tables.organizations.find? fun org => org.slug = slug).map
            (resetAudience setting) := List.find?_map
    simp only [found, Option.map_map, Bool.not_false, Bool.true_or]
    rfl
  unfold exactRefusal
  rw [named]
  show (match analystNamed unicode db tables q, (organizationNamed unicode db tables q).map
    (resetAudience setting) with | some user, _ => _ | none, some org => _ | none, none => _) = _
  cases analystNamed unicode db tables q with
  | some user => rfl
  | none =>
      cases organizationNamed unicode db tables q with
      | none => rfl
      | some org => exact congrArg exactRefusal.refusalOf (checked org.slug)

/-- No audience of a stranger shows in the picker. -/
theorem eligibleTargets_withAudiences
    (keeps : KeepsFollowers tables requester preferences setting) :
    eligibleTargets unicode db (tables.withAudiences preferences setting) requester query =
      eligibleTargets unicode db tables requester query := by
  unfold eligibleTargets
  simp only [eligibleAnalysts_withAudiences keeps, eligibleOrganizations_withAudiences keeps,
    exactRefusal_withAudiences, List.map_map]
  rfl

/-! ### The picker and the requests -/

/-- What the picker promises about one query. -/
structure OffersAgree (unicode : Unicode) (db : Locale κ) (cap : Nat) (tables : Tables)
    (requester : User) (query : Str) : Prop where
  /-- A target in the list may be asked. -/
  accepted : ∀ offered, eligibleTargets unicode db tables requester query = .ok offered →
    (∀ author ∈ offered.analysts,
      Acceptable (tables.requestAnalyst requester author.username cap)) ∧
    ∀ organization ∈ offered.organizations,
      Acceptable (tables.requestOrganization requester organization.slug cap)
  /-- A target named by the query is in the list, or the query comes back with a refusal. -/
  answered : ∀ offered, eligibleTargets unicode db tables requester query = .ok offered →
    (∀ user ∈ tables.users, user.IsLive → user.username = query →
      authorRef user ∈ offered.analysts ∨ offered.refusal ≠ none) ∧
    ∀ org ∈ tables.organizations, org.slug = query →
      organizationRef org ∈ offered.organizations ∨ offered.refusal ≠ none
  /-- No audience of a stranger shows. -/
  silent : ∀ preferences setting, KeepsFollowers tables requester preferences setting →
    eligibleTargets unicode db (tables.withAudiences preferences setting) requester query =
      eligibleTargets unicode db tables requester query

/-- On a published event, the account the query names is offered under the stripped query,
or no account offered has that name and the one looked up under it cannot be asked. -/
def AnswersNames (unicode : Unicode) (db : Locale κ) (tables : Tables) (requester : User)
    (query : Str) : Prop :=
  tables.geo.status = .geolocated →
    (∀ user ∈ tables.users, user.IsLive → user.username = query →
      OffersAnalyst unicode db tables requester (strip query) user ∨
        Explains unicode db tables requester (strip query)) ∧
    ∀ org ∈ tables.organizations, org.slug = query →
      OffersOrganization unicode db tables requester (strip query) org ∨
        Explains unicode db tables requester (strip query)

theorem offersAgree_iff (unicode : Unicode) (db : Locale κ) (cap : Nat) (tables : Tables)
    (requester : User) (query : Str) (credited : isGeolocator tables.geo requester.id = true) :
    OffersAgree unicode db cap tables requester query ↔
      AnswersNames unicode db tables requester query := by
  constructor
  · intro agrees published
    obtain ⟨offered, returned⟩ := eligibleTargets_returns unicode db query published credited
    obtain ⟨analysts, organizations, refusal⟩ := eligibleTargets_ok returned
    have answered := agrees.answered offered returned
    rw [analysts, organizations, refusal] at answered
    constructor
    · intro user member live named
      rw [← authorRef_mem_iff member]
      exact answered.1 user member live named
    · intro org member named
      rw [← organizationRef_mem_iff member]
      exact answered.2 org member named
  · intro answers
    have published : ∀ offered, eligibleTargets unicode db tables requester query = .ok offered →
        tables.geo.status = .geolocated := by
      intro offered returned
      unfold eligibleTargets requireRequester at returned
      simp only [bind_eq_ok, require_eq_ok] at returned
      exact returned.choose_spec.1.choose_spec.1
    refine ⟨?_, ?_, fun _ _ => eligibleTargets_withAudiences⟩
    · intro offered returned
      obtain ⟨analysts, organizations, _⟩ := eligibleTargets_ok returned
      rw [analysts, organizations]
      constructor
      · intro author member
        obtain ⟨user, kept, rfl⟩ := List.mem_map.mp member
        have offers := mem_eligibleAnalysts.mp kept
        exact acceptable_requestAnalyst (published offered returned) credited offers.open.1
          offers.open.2 cap
      · intro organization member
        obtain ⟨org, kept, rfl⟩ := List.mem_map.mp member
        have offers := mem_eligibleOrganizations.mp kept
        exact acceptable_requestOrganization (published offered returned) credited offers.open.1
          offers.open.2 cap
    · intro offered returned
      obtain ⟨analysts, organizations, refusal⟩ := eligibleTargets_ok returned
      rw [analysts, organizations, refusal]
      have answered := answers (published offered returned)
      constructor
      · intro user member live named
        rw [authorRef_mem_iff member]
        exact answered.1 user member live named
      · intro org member named
        rw [organizationRef_mem_iff member]
        exact answered.2 org member named

end Tables

/-! ### An analyst and an organization of one name -/

namespace SharedName

open Tables

/-- Code points compared in lower case. -/
def locale : Locale (List Nat) where
  lower := asciiLower
  collate := asciiLower

def analyst (id : Uuid) (username : Str) : User where
  id := id
  username := username
  email := []
  passwordHash := []
  isActive := true
  isAdmin := false
  lastSeenAt := none
  deletedAt := none
  tokenVersion := 0

def requester : User := analyst 1 (str "olena")

def reviewer : User := analyst 2 (str "kyiv")

def manager : User := analyst 3 (str "maria")

def organization : OrganizationRow where
  id := 10
  name := str "Kyiv"
  slug := str "kyiv"
  approvalRequestAudience := .following

/-- A published event the analyst of the name has approved. -/
def geo : Event where
  id := 7
  ownerId := 1
  requestedById := none
  title := []
  coords := none
  proof := []
  occurredDate := none
  occurredTime := none
  requestedAt := none
  detectedAt := none
  geolocatedAt := some 0
  status := .geolocated
  createdAt := 0
  closedAt := none
  closeReason := none
  beforeClosedStatus := none
  deletedAt := none
  hiddenAt := none
  versionNo := 1
  media := []
  sources := []
  tags := []
  conflicts := []
  geolocators := [⟨1, .active, none, some 0, none⟩]
  detection := none
  versions := []
  approvals := [⟨20, 1, some 2, none, 0⟩]
  approvalRequests := []
  collectionItems := []

def tables : Tables where
  now := 0
  geo := geo
  elsewhere := []
  users := [requester, reviewer, manager]
  preferences := []
  follows := []
  organizations := [organization]
  members := [⟨10, 3, .active, .manager⟩]
  userIds := by decide
  usernames := by decide
  organizationIds := by decide
  slugs := by decide
  reviewers := by decide

theorem offersAgree_maria :
    OffersAgree Unicode.ascii locale 20 tables requester (str "maria") := by
  apply (offersAgree_iff Unicode.ascii locale 20 tables requester (str "maria") (by decide)).mpr
  intro _
  have offered : ∀ user ∈ tables.users, user.username = str "maria" →
      OffersAnalyst Unicode.ascii locale tables requester (strip (str "maria")) user := by decide
  have noSlug : ∀ org ∈ tables.organizations, org.slug ≠ str "maria" := by decide
  constructor
  · intro user member _ named
    exact Or.inl (offered user member named)
  · intro org member named
    exact absurd named (noSlug org member)

/-- The organization of the name is listed, so the analyst of the name is left out in silence. -/
theorem reviewer_unanswered :
    ¬ OffersAgree Unicode.ascii locale 20 tables requester (str "kyiv") := by
  intro agrees
  have published : tables.geo.status = .geolocated := rfl
  have credited : isGeolocator tables.geo requester.id = true := by decide
  obtain ⟨offered, returned⟩ :=
    eligibleTargets_returns Unicode.ascii locale (str "kyiv") published credited
  have member : reviewer ∈ tables.users := by decide
  have live : reviewer.IsLive := ⟨rfl, rfl⟩
  obtain ⟨analysts, _, refusal⟩ := eligibleTargets_ok returned
  have answered := (agrees.answered offered returned).1 reviewer member live rfl
  rw [analysts, refusal, authorRef_mem_iff member] at answered
  obtain offers | explains := answered
  · have unlisted : ¬ OffersAnalyst Unicode.ascii locale tables requester (strip (str "kyiv"))
        reviewer := by decide
    exact unlisted offers
  · have listed : OffersOrganization Unicode.ascii locale tables requester (strip (str "kyiv"))
        organization := by decide
    exact explains.2.2.1 organization listed rfl

end SharedName

end Vidit.Reviews
