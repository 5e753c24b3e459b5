import Vidit.Library.Review
import Vidit.World.History

/-!
Contract: who is credited on an event and who may review it, over every run.

Owns:
- an event read as a reviewed piece of work (`reviewOf`), and that every write on
  an event is a run of its steps;
- that the owner of a published event is credited, that nobody who was credited
  is forgotten while their account exists, and that no approval is by anyone who
  ever was.

Does not own: the notifications those writes send.
-/

namespace Vidit.World

open Vidit.Python Vidit.Accounts Vidit.Evidence Vidit.Events Vidit.Library

variable {config : Config} {state next final : State} {survivors : List User}
variable {geo : Event} {row : EventGeolocator} {userId : Uuid}

/-! ### Geolocator rows -/

/-- An analyst the event credits. -/
def IsActive (geo : Event) (userId : Uuid) : Prop :=
  ∃ row ∈ geo.geolocators, row.userId = userId ∧ row.state = .active

/-- An analyst the event credits or once credited. -/
def WasActive (geo : Event) (userId : Uuid) : Prop :=
  ∃ row ∈ geo.geolocators, row.userId = userId ∧ row.everActive = true

theorem mem_activeIds : userId ∈ geo.activeIds ↔ IsActive geo userId := by
  unfold Event.activeIds IsActive
  constructor
  · intro member
    rcases List.mem_map.mp member with ⟨row, inActive, same⟩
    rw [List.mem_filter, decide_eq_true_eq] at inActive
    exact ⟨row, inActive.1, same, inActive.2⟩
  · rintro ⟨row, inRows, rfl, active⟩
    exact List.mem_map_of_mem (List.mem_filter.mpr ⟨inRows, by simpa using active⟩)

theorem mem_everCreditedIds :
    userId ∈ geo.everCreditedIds ↔ userId = geo.ownerId ∨ WasActive geo userId := by
  unfold Event.everCreditedIds WasActive
  rw [List.mem_cons]
  apply or_congr_right
  constructor
  · intro member
    rcases List.mem_map.mp member with ⟨row, inRows, same⟩
    rw [List.mem_filter] at inRows
    exact ⟨row, inRows.1, same, inRows.2⟩
  · rintro ⟨row, inRows, rfl, ever⟩
    exact List.mem_map_of_mem (List.mem_filter.mpr ⟨inRows, ever⟩)

theorem everActive_of_active (active : row.state = .active) : row.everActive = true := by
  simp [EventGeolocator.everActive, active]

theorem IsActive.wasActive (active : IsActive geo userId) : WasActive geo userId := by
  rcases active with ⟨row, inRows, same, standing⟩
  exact ⟨row, inRows, same, everActive_of_active standing⟩

/-- One row for each analyst, and a departed one is stamped. -/
structure RowsKept (geo : Event) : Prop where
  single : (geo.geolocators.map EventGeolocator.userId).Nodup
  stamped : ∀ row ∈ geo.geolocators, row.state = .departed → row.departedAt ≠ none

theorem geolocator?_some (found : geo.geolocator? userId = some row) :
    row ∈ geo.geolocators ∧ row.userId = userId :=
  ⟨List.mem_of_find?_eq_some found, by simpa using List.find?_some found⟩

theorem geolocator?_none (absent : geo.geolocator? userId = none) :
    ∀ row ∈ geo.geolocators, row.userId ≠ userId := by
  intro row inRows same
  have none := List.find?_eq_none.mp absent row inRows
  simp [same] at none

theorem RowsKept.eq_of_same (kept : RowsKept geo) (found : geo.geolocator? userId = some row)
    {other : EventGeolocator} (inRows : other ∈ geo.geolocators) (same : other.userId = userId) :
    other = row := by
  have standing := geolocator?_some found
  exact List.inj_on_of_nodup_map kept.single inRows standing.1 (same.trans standing.2.symm)

theorem mem_setGeolocator {stored : EventGeolocator} :
    stored ∈ (geo.setGeolocator row).geolocators ↔
      stored = row ∨ stored ∈ geo.geolocators ∧ stored.userId ≠ row.userId := by
  unfold Event.setGeolocator
  cases found : geo.geolocator? row.userId with
  | none =>
      have others := geolocator?_none found
      simp only [Option.isSome_none, Bool.false_eq_true, if_false, List.mem_append,
        List.mem_singleton]
      constructor
      · rintro (old | new)
        · exact .inr ⟨old, others stored old⟩
        · exact .inl new
      · rintro (new | ⟨old, _⟩)
        · exact .inr new
        · exact .inl old
  | some current =>
      have standing := geolocator?_some found
      simp only [Option.isSome_some, if_true, List.mem_map]
      constructor
      · rintro ⟨old, inRows, rfl⟩
        split
        · exact .inl rfl
        · rename_i other
          exact .inr ⟨inRows, other⟩
      · rintro (rfl | ⟨old, other⟩)
        · exact ⟨current, standing.1, if_pos standing.2⟩
        · exact ⟨stored, old, if_neg other⟩

theorem RowsKept.setGeolocator (kept : RowsKept geo)
    (stamped : row.state = .departed → row.departedAt ≠ none) :
    RowsKept (geo.setGeolocator row) where
  single := by
    unfold Event.setGeolocator
    cases found : geo.geolocator? row.userId with
    | none =>
        simp only [Option.isSome_none, Bool.false_eq_true, if_false, List.map_append,
          List.map_cons, List.map_nil]
        refine List.Nodup.append kept.single (List.nodup_singleton _) ?_
        intro id old new
        rcases List.mem_map.mp old with ⟨stored, inRows, same⟩
        exact geolocator?_none found stored inRows (same.trans (List.mem_singleton.mp new))
    | some current =>
        simp only [Option.isSome_some, if_true, List.map_map]
        have same : ∀ stored ∈ geo.geolocators, (EventGeolocator.userId ∘ fun stored =>
            if stored.userId = row.userId then row else stored) stored = stored.userId := by
          intro stored _
          simp only [Function.comp_apply]
          split
          · rename_i equal
            exact equal.symm
          · rfl
        rw [List.map_congr_left same]
        exact kept.single
  stamped stored member := by
    rcases mem_setGeolocator.mp member with rfl | ⟨old, _⟩
    · exact stamped
    · exact kept.stamped stored old

theorem isActive_setGeolocator : IsActive (geo.setGeolocator row) userId ↔
    (row.userId = userId ∧ row.state = .active) ∨
      (row.userId ≠ userId ∧ IsActive geo userId) := by
  unfold IsActive
  constructor
  · rintro ⟨stored, member, same, active⟩
    rcases mem_setGeolocator.mp member with rfl | ⟨old, other⟩
    · exact .inl ⟨same, active⟩
    · exact .inr ⟨fun equal => other (same.trans equal.symm), stored, old, same, active⟩
  · rintro (⟨same, active⟩ | ⟨other, stored, old, same, active⟩)
    · exact ⟨row, mem_setGeolocator.mpr (.inl rfl), same, active⟩
    · exact ⟨stored, mem_setGeolocator.mpr (.inr ⟨old, fun equal => other (equal ▸ same)⟩),
        same, active⟩

theorem wasActive_setGeolocator : WasActive (geo.setGeolocator row) userId ↔
    (row.userId = userId ∧ row.everActive = true) ∨
      (row.userId ≠ userId ∧ WasActive geo userId) := by
  unfold WasActive
  constructor
  · rintro ⟨stored, member, same, ever⟩
    rcases mem_setGeolocator.mp member with rfl | ⟨old, other⟩
    · exact .inl ⟨same, ever⟩
    · exact .inr ⟨fun equal => other (same.trans equal.symm), stored, old, same, ever⟩
  · rintro (⟨same, ever⟩ | ⟨other, stored, old, same, ever⟩)
    · exact ⟨row, mem_setGeolocator.mpr (.inl rfl), same, ever⟩
    · exact ⟨stored, mem_setGeolocator.mpr (.inr ⟨old, fun equal => other (equal ▸ same)⟩),
        same, ever⟩

/-- The row a write takes for an analyst: the stored one, or a new one. -/
theorem geolocator?_getD_userId (geo : Event) (fresh : EventGeolocator)
    (own : fresh.userId = userId) :
    ((geo.geolocator? userId).getD fresh).userId = userId := by
  cases found : geo.geolocator? userId with
  | none => exact own
  | some row => exact (geolocator?_some found).2

theorem RowsKept.filter (kept : RowsKept geo) (keep : EventGeolocator → Bool) :
    RowsKept { geo with geolocators := geo.geolocators.filter keep } where
  single := kept.single.sublist (List.filter_sublist.map _)
  stamped stored member := kept.stamped stored (List.mem_of_mem_filter member)

/-! ### An event as reviewed work -/

def markOf (approval : EventApproval) : Mark Uuid Uuid :=
  ⟨approval.versionNo, approval.reviewerId, approval.organizationId⟩

def reviewOf (geo : Event) : Review Uuid Uuid where
  published := !isUnpublished geo.openStatus
  current := geo.versionNo
  owner := geo.ownerId
  active := { userId | IsActive geo userId }
  ever := { userId | WasActive geo userId }
  marks := geo.approvals.map markOf

/-- An account of the deployment. -/
def Known (state : State) (userId : Uuid) : Prop :=
  ∃ user ∈ state.users, user.id = userId

/-- No account of `survivors`. -/
def Gone (survivors : List User) (userId : Uuid) : Prop :=
  ∀ user ∈ survivors, user.id ≠ userId

/-- What a write that credits nobody leaves of the review. -/
theorem reviewOf_edit {row geo : Event} (owner : geo.ownerId = row.ownerId)
    (geolocators : geo.geolocators = row.geolocators) (approvals : geo.approvals = row.approvals)
    (status : isUnpublished geo.openStatus = isUnpublished row.openStatus) :
    reviewOf geo = { reviewOf row with current := geo.versionNo } := by
  unfold reviewOf IsActive WasActive
  simp only [owner, geolocators, approvals, status]

/-- A write on the rows that leaves who is credited, and who ever was. -/
theorem reviewOf_same {row geo : Event} (owner : geo.ownerId = row.ownerId)
    (approvals : geo.approvals = row.approvals) (versionNo : geo.versionNo = row.versionNo)
    (status : geo.openStatus = row.openStatus)
    (active : ∀ userId, IsActive geo userId ↔ IsActive row userId)
    (ever : ∀ userId, WasActive geo userId ↔ WasActive row userId) :
    reviewOf geo = reviewOf row := by
  unfold reviewOf
  simp only [owner, approvals, versionNo, status, active, ever]

/-! ### Publishing -/

/-- `_credit_geolocator` credits the user it makes the owner. -/
theorem isActive_creditGeolocator {author : Uuid} {now : Instant} :
    IsActive (creditGeolocator geo author now) userId ↔ userId = author ∨ IsActive geo userId := by
  have own := geolocator?_getD_userId { geo with ownerId := author }
    ⟨author, .active, none, none, none⟩ rfl
  unfold creditGeolocator
  rw [isActive_setGeolocator]
  simp only [own, and_true]
  have same : IsActive { geo with ownerId := author } userId ↔ IsActive geo userId := Iff.rfl
  rw [same]
  by_cases equal : author = userId
  · simp [equal]
  · simp [equal, Ne.symm equal]

theorem wasActive_creditGeolocator {author : Uuid} {now : Instant} :
    WasActive (creditGeolocator geo author now) userId ↔ userId = author ∨ WasActive geo userId := by
  have own := geolocator?_getD_userId { geo with ownerId := author }
    ⟨author, .active, none, none, none⟩ rfl
  unfold creditGeolocator
  rw [wasActive_setGeolocator]
  have same : WasActive { geo with ownerId := author } userId ↔ WasActive geo userId := Iff.rfl
  rw [same, everActive_of_active rfl]
  simp only [own, and_true]
  by_cases equal : author = userId
  · simp [equal]
  · simp [equal, Ne.symm equal]

theorem RowsKept.creditGeolocator {author : Uuid} {now : Instant} (kept : RowsKept geo) :
    RowsKept (creditGeolocator geo author now) := by
  have owned : RowsKept { geo with ownerId := author } := ⟨kept.single, kept.stamped⟩
  exact owned.setGeolocator fun departed => by simp at departed

theorem reviewOf_creditGeolocator {author : Uuid} {now : Instant} :
    reviewOf (creditGeolocator geo author now) = { reviewOf geo with
      owner := author
      active := insert author (reviewOf geo).active
      ever := insert author (reviewOf geo).ever } := by
  have active : { userId | IsActive (creditGeolocator geo author now) userId } =
      insert author { userId | IsActive geo userId } :=
    Set.ext fun userId => isActive_creditGeolocator
  have ever : { userId | WasActive (creditGeolocator geo author now) userId } =
      insert author { userId | WasActive geo userId } :=
    Set.ext fun userId => wasActive_creditGeolocator
  unfold reviewOf
  simp only [active, ever]
  rfl

/-! ### Invitations -/

/-- A write on the row of someone not credited, which credits nobody. -/
theorem setGeolocator_review (kept : RowsKept geo)
    (stamped : row.state = .departed → row.departedAt ≠ none)
    (idle : ¬ IsActive geo row.userId) (inactive : row.state ≠ .active)
    (ever : row.everActive = true ↔ WasActive geo row.userId) :
    RowsKept (geo.setGeolocator row) ∧ reviewOf (geo.setGeolocator row) = reviewOf geo := by
  refine ⟨kept.setGeolocator stamped, reviewOf_same rfl rfl rfl rfl ?_ ?_⟩
  · intro userId
    rw [isActive_setGeolocator]
    constructor
    · rintro (⟨_, active⟩ | ⟨_, active⟩)
      · exact absurd active inactive
      · exact active
    · intro active
      exact .inr ⟨fun same => idle (same ▸ active), active⟩
  · intro userId
    rw [wasActive_setGeolocator, ever]
    constructor
    · rintro (⟨rfl, was⟩ | ⟨_, was⟩) <;> exact was
    · intro was
      by_cases same : row.userId = userId
      · exact .inl ⟨same, same ▸ was⟩
      · exact .inr ⟨same, was⟩

/-- An invitation credits nobody, and forgets nobody who was credited before. -/
theorem stageInvite_review {tx : Events.Transaction} {username : Str} {invited : Event}
    (kept : RowsKept geo) (staging : stageInvite tx geo username = .ok invited) :
    RowsKept invited ∧ reviewOf invited = reviewOf geo := by
  rcases stageInvite_ok staging with ⟨invitee, _, row, _, _, fresh, departed, rfl⟩
  have own : row.userId = invitee.id := by
    rw [fresh]
    exact geolocator?_getD_userId _ _ rfl
  apply setGeolocator_review kept
  · intro departed
    simp at departed
  · rintro ⟨stored, inRows, same, active⟩
    simp only [own] at same
    cases found : geo.geolocator? invitee.id with
    | none => exact geolocator?_none found stored inRows same
    | some current =>
        have left := departed current found
        rw [← kept.eq_of_same found inRows same, active] at left
        contradiction
  · simp
  · simp only [own, EventGeolocator.everActive]
    cases found : geo.geolocator? invitee.id with
    | none =>
        rw [found, Option.getD_none] at fresh
        rw [fresh]
        constructor
        · intro ever
          simp at ever
        · rintro ⟨stored, inRows, same, _⟩
          exact absurd same (geolocator?_none found stored inRows)
    | some current =>
        rw [found, Option.getD_some] at fresh
        have standing := geolocator?_some found
        have left := departed current found
        have stamp := kept.stamped current standing.1 left
        rw [fresh]
        constructor
        · intro _
          exact ⟨current, standing.1, standing.2, by simp [EventGeolocator.everActive, left]⟩
        · intro _
          simp [stamp]

theorem inviteOnPublish_review {tx : Events.Transaction} {usernames : List Str} {invited : Event}
    (kept : RowsKept geo) (inviting : inviteOnPublish tx geo usernames = .ok invited) :
    RowsKept invited ∧ reviewOf invited = reviewOf geo := by
  induction usernames generalizing geo with
  | nil =>
      simp only [inviteOnPublish, pure_eq_ok] at inviting
      subst inviting
      exact ⟨kept, rfl⟩
  | cons username usernames inductionHypothesis =>
      simp only [inviteOnPublish, bind_eq_ok] at inviting
      rcases inviting with ⟨middle, staging, inviting⟩
      have staged := stageInvite_review kept staging
      have later := inductionHypothesis staged.1 inviting
      exact ⟨later.1, later.2.trans staged.2⟩

/-- Deleting rows of people never credited moves nothing of the credit. -/
theorem filter_review (kept : RowsKept geo) (keep : EventGeolocator → Bool)
    (unseen : ∀ row ∈ geo.geolocators, keep row = false → row.everActive = false) :
    RowsKept { geo with geolocators := geo.geolocators.filter keep } ∧
      reviewOf { geo with geolocators := geo.geolocators.filter keep } = reviewOf geo := by
  have stays : ∀ row ∈ geo.geolocators, row.everActive = true →
      row ∈ geo.geolocators.filter keep := by
    intro row inRows ever
    rw [List.mem_filter]
    refine ⟨inRows, ?_⟩
    cases kept : keep row with
    | true => rfl
    | false =>
        rw [unseen row inRows kept] at ever
        contradiction
  refine ⟨kept.filter keep, reviewOf_same rfl rfl rfl rfl ?_ ?_⟩
  · intro userId
    constructor
    · rintro ⟨row, inRows, same, active⟩
      exact ⟨row, List.mem_of_mem_filter inRows, same, active⟩
    · rintro ⟨row, inRows, same, active⟩
      exact ⟨row, stays row inRows (everActive_of_active active), same, active⟩
  · intro userId
    constructor
    · rintro ⟨row, inRows, same, ever⟩
      exact ⟨row, List.mem_of_mem_filter inRows, same, ever⟩
    · rintro ⟨row, inRows, same, ever⟩
      exact ⟨row, stays row inRows ever, same, ever⟩

/-- An invitation that ends leaves the credit as it was before it. -/
theorem endInvitation_review (kept : RowsKept geo) (found : geo.geolocator? userId = some row)
    (invited : row.state = .invited) :
    RowsKept (endInvitation geo row) ∧ reviewOf (endInvitation geo row) = reviewOf geo := by
  have standing := geolocator?_some found
  have own := standing.2
  subst own
  unfold endInvitation
  split
  · rename_i stamped
    refine setGeolocator_review kept (fun _ => stamped) ?_ (by simp) ?_
    · rintro ⟨stored, inRows, same, active⟩
      rw [kept.eq_of_same found inRows same, invited] at active
      contradiction
    · simp only [EventGeolocator.everActive]
      constructor
      · intro _
        exact ⟨row, standing.1, rfl, by simp [EventGeolocator.everActive, stamped]⟩
      · intro _
        simp
  · rename_i fresh
    apply filter_review kept
    intro stored inRows dropped
    simp only [ne_eq, decide_not, Bool.not_eq_false', decide_eq_true_eq] at dropped
    rw [kept.eq_of_same found inRows dropped]
    simp [EventGeolocator.everActive, invited, not_not.mp fresh]

/-! ### Joining, leaving, approving -/

/-- What a write leaves of the review: its rows, and a run of review steps. -/
structure Credited (state : State) (survivors : List User) (row geo : Event) : Prop where
  kept : RowsKept geo
  run : Review.Run (Known state) (Gone survivors) (reviewOf row) (reviewOf geo)

/-- A write the review does not see. -/
theorem Credited.of_same {row geo : Event} (kept : RowsKept geo)
    (same : reviewOf geo = reviewOf row) : Credited state survivors row geo where
  kept := kept
  run := same ▸ .refl

/-- Who accepts is credited, and their approvals go. -/
theorem accept_review {tx : Events.Transaction} {user : User} {joined : Event} (kept : RowsKept geo)
    (accepting : accept tx geo user = .ok joined) :
    RowsKept joined ∧ reviewOf joined = { reviewOf geo with
      active := insert user.id (reviewOf geo).active
      ever := insert user.id (reviewOf geo).ever
      marks := (reviewOf geo).marks.filter fun mark => mark.reviewer ≠ some user.id } := by
  rcases accept_ok accepting with ⟨row, requests, finding, _, rfl⟩
  have found := geolocator?_some (inviteRow_ok finding).1
  have joins : RowsKept (geo.setGeolocator { row with
      state := .active, joinedAt := some tx.now }) := kept.setGeolocator (by simp)
  refine ⟨⟨joins.single, joins.stamped⟩, Review.ext rfl rfl rfl ?_ ?_ ?_⟩
  · ext userId
    refine isActive_setGeolocator.trans ?_
    simp only [found.2, and_true, reviewOf, Set.mem_insert_iff, Set.mem_ofPred_eq]
    by_cases same : user.id = userId
    · simp [same]
    · simp [same, Ne.symm same]
  · ext userId
    refine wasActive_setGeolocator.trans ?_
    simp only [found.2, everActive_of_active, and_true, reviewOf, Set.mem_insert_iff,
      Set.mem_ofPred_eq]
    by_cases same : user.id = userId
    · simp [same]
    · simp [same, Ne.symm same]
  · simp only [reviewOf, deleteApprovalsOnJoin, Event.setGeolocator, List.filter_map]
    rfl

theorem accept_credited {tx : Events.Transaction} {user : User} {joined : Event} (kept : RowsKept geo)
    (standing : user ∈ state.users) (accepting : accept tx geo user = .ok joined) :
    Credited state survivors geo joined := by
  have review := accept_review kept accepting
  refine ⟨review.1, .single ?_⟩
  rw [review.2]
  exact .join user.id ⟨user, standing, rfl⟩

/-- Who leaves is credited no longer, asks no longer, and is remembered. -/
theorem remove_review {tx : Events.Transaction} {user : User} {username : Str} {left : Event}
    (kept : RowsKept geo) (removing : remove tx geo user username = .ok left) :
    ∃ userId, userId ≠ geo.ownerId ∧ RowsKept left ∧
      left.approvalRequests = (geo.resolveRequests (fun request => request.requesterId = userId)
        .withdrawn tx.now).approvalRequests ∧
      reviewOf left = { reviewOf geo with active := (reviewOf geo).active \ {userId} } := by
  rcases remove_ok removing with ⟨credit, items, found, active, notOwner, rfl⟩
  have standing := geolocator?_some found
  have leaves : RowsKept (geo.setGeolocator { credit with
      state := .departed, departedAt := some (credit.departedAt.getD tx.now) }) :=
    kept.setGeolocator (by simp)
  refine ⟨credit.userId, notOwner, ⟨leaves.single, leaves.stamped⟩, rfl,
    Review.ext rfl rfl rfl ?_ ?_ ?_⟩
  · ext userId
    refine isActive_setGeolocator.trans ?_
    simp [reviewOf, and_comm, eq_comm]
  · ext userId
    refine wasActive_setGeolocator.trans ?_
    simp only [reviewOf, Set.mem_ofPred_eq]
    by_cases same : credit.userId = userId
    · subst same
      simp only [EventGeolocator.everActive, true_and, ne_eq, not_true_eq_false, false_and,
        or_false]
      constructor
      · intro _
        exact ⟨credit, standing.1, rfl, everActive_of_active active⟩
      · intro _
        simp
    · simp [same]
  · rfl

theorem remove_credited {tx : Events.Transaction} {user : User} {username : Str} {left : Event}
    (kept : RowsKept geo) (removing : remove tx geo user username = .ok left) :
    Credited state survivors geo left := by
  rcases remove_review kept removing with ⟨userId, notOwner, rows, _, review⟩
  refine ⟨rows, .single ?_⟩
  rw [review]
  exact .leave userId notOwner

/-- The approvals `approve` looks for are the rivals of the one it adds. -/
theorem not_rivals_of_sameApprovals {user : User} {organization : Option Organization}
    (unapproved : sameApprovals geo user geo.versionNo organization = []) :
    ∀ mark ∈ (reviewOf geo).marks, ¬ mark.Rivals
      ⟨geo.versionNo, some user.id, organization.map Organization.id⟩ := by
  intro mark member rivals
  rcases List.mem_map.mp member with ⟨approval, inRows, rfl⟩
  unfold sameApprovals at unapproved
  have absent := List.filter_eq_nil_iff.mp unapproved approval inRows
  cases organization with
  | none =>
      rcases rivals with ⟨version, ⟨_, _, shared⟩ | ⟨own, _, reviewer, name, same⟩⟩
      · contradiction
      · simp only [markOf] at version own name
        simp [version, own, name, ← Option.some.inj same] at absent
  | some organization =>
      rcases rivals with ⟨version, ⟨shared, left, right⟩ | ⟨_, own, _⟩⟩
      · simp only [markOf, Option.map_some, Option.some.injEq] at version left right
        simp [version, left, right] at absent
      · contradiction

theorem approve_credited {tx : Events.Transaction} {user : User} {versionNo : Nat}
    {organization : Option Organization} {approved : Event} (kept : RowsKept geo)
    (opened : geo.openStatus = geo.status)
    (approving : approve tx geo user versionNo organization = .ok approved) :
    Credited state survivors geo approved := by
  rcases approve_ok approving with ⟨requests, published, independent, unapproved, rfl⟩
  refine ⟨⟨kept.single, kept.stamped⟩, .single ?_⟩
  have review : reviewOf { geo with
      approvals := geo.approvals ++
        [⟨tx.uuid 0, geo.versionNo, some user.id, organization.map Organization.id, tx.now⟩]
      approvalRequests := requests } = { reviewOf geo with
      marks := (reviewOf geo).marks ++
        [⟨(reviewOf geo).current, some user.id, organization.map Organization.id⟩] } := by
    refine Review.ext rfl rfl rfl rfl rfl ?_
    simp only [reviewOf, List.map_append, List.map_cons, List.map_nil, markOf]
  rw [review]
  rw [mem_everCreditedIds, not_or] at independent
  refine .approve user.id _ ?_ independent.1 independent.2 (not_rivals_of_sameApprovals unapproved)
  simp [reviewOf, opened, published, isUnpublished]

/-! ### Handing over and forgetting -/

theorem handOver_credited {ownerId : Uuid} (deletedAt : Option Instant) (kept : RowsKept geo)
    (inherits : ownerId = geo.ownerId ∨ ownerId ∈ geo.activeIds) :
    Credited state survivors geo { geo with ownerId := ownerId, deletedAt := deletedAt } := by
  refine ⟨⟨kept.single, kept.stamped⟩, ?_⟩
  rcases inherits with rfl | active
  · exact .refl
  · exact .single (.inherit ownerId (mem_activeIds.mp active))

theorem forgetUser_credited (kept : RowsKept geo) (gone : Gone survivors userId)
    (other : geo.ownerId ≠ userId) : Credited state survivors geo (forgetUser userId geo) := by
  have rows := kept.filter fun row => row.userId ≠ userId
  refine ⟨⟨rows.single, rows.stamped⟩, .single ?_⟩
  have review : reviewOf (forgetUser userId geo) = { reviewOf geo with
      active := (reviewOf geo).active \ {userId}
      ever := (reviewOf geo).ever \ {userId}
      marks := ((reviewOf geo).marks.filter fun mark => !Review.goesWith userId mark).map
        (Review.anonymise userId) } := by
    refine Review.ext rfl rfl rfl ?_ ?_ ?_
    · ext person
      simp only [reviewOf, IsActive, forgetUser, List.mem_filter, Set.mem_ofPred_eq, Set.mem_sdiff,
        Set.mem_singleton_iff, decide_eq_true_eq]
      constructor
      · rintro ⟨row, ⟨inRows, others⟩, rfl, active⟩
        exact ⟨⟨row, inRows, rfl, active⟩, others⟩
      · rintro ⟨⟨row, inRows, rfl, active⟩, others⟩
        exact ⟨row, ⟨inRows, others⟩, rfl, active⟩
    · ext person
      simp only [reviewOf, WasActive, forgetUser, List.mem_filter, Set.mem_ofPred_eq, Set.mem_sdiff,
        Set.mem_singleton_iff, decide_eq_true_eq]
      constructor
      · rintro ⟨row, ⟨inRows, others⟩, rfl, ever⟩
        exact ⟨⟨row, inRows, rfl, ever⟩, others⟩
      · rintro ⟨⟨row, inRows, rfl, ever⟩, others⟩
        exact ⟨row, ⟨inRows, others⟩, rfl, ever⟩
    · simp only [reviewOf, forgetUser, List.filter_map, List.map_map]
      have same : (fun approval : EventApproval => decide (¬ (approval.reviewerId = some userId ∧
          approval.organizationId = none))) =
            ((fun mark => !Review.goesWith userId mark) ∘ markOf) := by
        funext approval
        cases organization : approval.organizationId <;>
          simp [Review.goesWith, markOf, organization]
      rw [same]
      rfl
  rw [review]
  exact .forget userId gone other

theorem Credited.trans {first middle last : Event} (earlier : Credited state survivors first middle)
    (later : Credited state survivors middle last) : Credited state survivors first last :=
  ⟨later.kept, earlier.run.trans later.run⟩

/-! ### Every write is a run of the review -/

/-- A write on a published event, or on a draft it leaves one. -/
theorem Credited.of_edit {row geo : Event} (kept : RowsKept row)
    (owner : geo.ownerId = row.ownerId) (geolocators : geo.geolocators = row.geolocators)
    (approvals : geo.approvals = row.approvals)
    (status : isUnpublished geo.openStatus = isUnpublished row.openStatus)
    (later : row.versionNo ≤ geo.versionNo) : Credited state survivors row geo where
  kept := ⟨by rw [geolocators]; exact kept.single, by rw [geolocators]; exact kept.stamped⟩
  run := by
    rw [reviewOf_edit owner geolocators approvals status]
    exact .single (.edit _ later)

/-- A publish: the version is filed, its author credited, and others invited. -/
theorem Credited.of_publish {row filed credited : Event} {tx : Events.Transaction} {user : User}
    {now : Instant} {usernames : List Str} (kept : RowsKept row) (standing : user ∈ state.users)
    (inviting : inviteOnPublish tx (creditGeolocator filed user.id now) usernames = .ok credited)
    (draft : isUnpublished row.openStatus = true) (owner : filed.ownerId = row.ownerId)
    (geolocators : filed.geolocators = row.geolocators)
    (approvals : filed.approvals = row.approvals)
    (published : isUnpublished filed.openStatus = false)
    (later : filed.versionNo = row.versionNo + 1) :
    Credited state survivors row credited := by
  have rows : RowsKept filed :=
    ⟨by rw [geolocators]; exact kept.single, by rw [geolocators]; exact kept.stamped⟩
  have invited := inviteOnPublish_review rows.creditGeolocator inviting
  refine ⟨invited.1, ?_⟩
  have review : reviewOf filed = { reviewOf row with
      published := true, current := row.versionNo + 1 } := by
    unfold reviewOf IsActive WasActive
    simp only [owner, geolocators, approvals, published, later, Bool.not_false]
  rw [invited.2, reviewOf_creditGeolocator, review]
  exact .single (.publish user.id ⟨user, standing, rfl⟩ (by simp [reviewOf, draft]) _
    (Nat.succ_pos _) (Nat.le_succ _))

theorem Edited.keeps_credit {row : Event} {written : Written} (phased : Phased row)
    (kept : RowsKept row) (edited : Edited config state row written) :
    Credited state survivors row written.event := by
  cases edited with
  | updated _ updating =>
      rcases updateRequest_ok updating with ⟨_, _, _, _, _, _, finishing⟩
      rcases finishWrite_event finishing with ⟨_, _, _, event⟩
      rw [event]
      exact .of_edit kept rfl rfl rfl rfl (le_refl _)
  | saved standing saving =>
      rcases saveVersion_ok saving with ⟨_, _, credited, opened, _, crediting, finishing⟩
      rcases finishWrite_event finishing with ⟨_, _, _, event⟩
      have left := phased.opened opened
      have after : Credited state survivors row credited := by
        unfold creditOnPublish at crediting
        split at crediting
        · rename_i publishing
          refine .of_publish kept standing crediting ?_ rfl rfl rfl ?_ rfl
          · rw [phased.openStatus opened]
            exact publishing
          · simp only [Event.openStatus, editFields, filedEvent, left, publishing, if_true,
              Option.getD_none]
            rfl
        · rename_i published
          rw [pure_eq_ok] at crediting
          subst crediting
          refine .of_edit kept rfl rfl rfl ?_ (Nat.le_succ _)
          simp [Event.openStatus, editFields, filedEvent, left, published]
      rw [event]
      exact after.trans (.of_same ⟨after.kept.single, after.kept.stamped⟩ rfl)

theorem CreditVerb.keeps_credit {tx : Events.Transaction} {row geo : Event} {user : User} {verb : CreditVerb}
    (kept : RowsKept row) (standing : user ∈ state.users)
    (running : verb.run tx row user = .ok geo) : Credited state survivors row geo := by
  have ending : ∀ {userId : Uuid} {stored : EventGeolocator},
      inviteRow row userId = .ok stored →
        Credited state survivors row (endInvitation row stored) := by
    intro userId stored finding
    have found := inviteRow_ok finding
    have ended := endInvitation_review kept found.1 found.2
    exact .of_same ended.1 ended.2
  cases verb with
  | invite username =>
      have staged := stageInvite_review kept (invite_ok running)
      exact .of_same staged.1 staged.2
  | withdraw username =>
      rcases withdraw_ok running with ⟨_, stored, finding, rfl⟩
      exact ending finding
  | decline =>
      rcases decline_ok running with ⟨stored, finding, rfl⟩
      exact ending finding
  | accept => exact accept_credited kept standing running
  | remove username => exact remove_credited kept running

theorem Moved.keeps_credit {row geo : Event} (phased : Phased row) (kept : RowsKept row)
    (moved : Moved config state row geo) : Credited state survivors row geo := by
  cases moved with
  | published standing publishing =>
      rcases publishDetection_ok publishing with ⟨_, _, detected, rfl⟩
      have opened : row.status ≠ .closed := by simp [detected]
      have left := phased.opened opened
      refine .of_publish kept standing (inviteOnPublish.eq_1
        (state.transaction config) _) ?_ rfl rfl rfl ?_ rfl
      · rw [phased.openStatus opened, detected]
        rfl
      · simp [Event.openStatus, filedEvent, left, isUnpublished]
  | closed closing =>
      rcases close_ok closing with ⟨_, opened, rfl⟩
      refine .of_edit kept rfl rfl rfl ?_ (le_refl _)
      rw [phased.openStatus opened]
      rfl
  | credited standing crediting => exact CreditVerb.keeps_credit kept standing crediting
  | approved standing approving =>
      have published := (approve_ok approving).choose_spec.1
      exact approve_credited kept (phased.openStatus (by simp [published])) approving
  | hidden withholding =>
      rcases setHidden_event withholding with ⟨_, rfl⟩
      exact .of_edit kept rfl rfl rfl rfl (le_refl _)
  | deleted => exact .of_edit kept rfl rfl rfl rfl (le_refl _)

theorem Change.keeps_credit {row geo : Event} (phased : Phased row) (kept : RowsKept row)
    (change : Change config state survivors row geo) : Credited state survivors row geo := by
  cases change with
  | edited edited => exact edited.keeps_credit phased kept
  | upserted upserting =>
      rcases (upsertOne_ok upserting).2 with ⟨_, _, _, _, _, event⟩ | ⟨_, _, rfl⟩
      · rw [event]
        exact .of_edit kept rfl rfl rfl rfl (le_refl _)
      · exact .of_edit kept rfl rfl rfl rfl (le_refl _)
  | redacted redacting =>
      rcases redactVersion_ok redacting with ⟨_, _, _, rfl⟩
      exact .of_edit kept rfl rfl rfl rfl (le_refl _)
  | moved moved => exact moved.keeps_credit phased kept
  | banned user =>
      rcases banEvent_event state.users user state.now row with ⟨_, _, inherits, event⟩
      rw [event]
      exact handOver_credited _ kept inherits
  | restored user =>
      rcases restoreWith_event user row with ⟨_, event⟩
      rw [event]
      exact .of_edit kept rfl rfl rfl rfl (le_refl _)
  | forgotten _ gone lives =>
      rcases passOn_event lives with ⟨ownerId, deletedAt, other, inherits, event⟩
      rw [event]
      have passed : Credited state survivors row { row with
          ownerId := ownerId, deletedAt := deletedAt } := handOver_credited deletedAt kept inherits
      exact passed.trans (forgetUser_credited passed.kept gone other)

/-- An event is born a draft, or published from one. -/
theorem Born.credit {geo : Event} (born : Born config state geo) :
    RowsKept geo ∧ ∃ owner, Review.Run (Known state) (fun _ => False) (Review.draft owner)
      (reviewOf geo) := by
  have blank : ∀ {geo : Event}, geo.geolocators = [] → RowsKept geo := by
    intro geo empty
    exact ⟨by simp [empty], by simp [empty]⟩
  have drafted : ∀ {geo : Event}, geo.geolocators = [] → geo.approvals = [] →
      geo.versionNo = 0 → isUnpublished geo.openStatus = true →
        reviewOf geo = Review.draft geo.ownerId := by
    intro geo geolocators approvals versionNo status
    simp [reviewOf, Review.draft, IsActive, WasActive, geolocators, approvals, versionNo, status]
  cases born with
  | drafted written =>
      cases written with
      | @created user form lat lng _ _ standing creating =>
          rcases createWithEvidence_ok creating with ⟨_, _, credited, _, inviting, finishing⟩
          rcases finishWrite_event finishing with ⟨_, _, _, event⟩
          rw [event]
          have rows := inviteOnPublish_review (blank rfl).creditGeolocator inviting
          refine ⟨⟨rows.1.single, rows.1.stamped⟩, user.id, ?_⟩
          show Review.Run _ _ _ (reviewOf credited)
          rw [rows.2, reviewOf_creditGeolocator]
          have filed : ∀ geo : Event, geo.geolocators = [] → geo.approvals = [] →
              geo.versionNo = 1 → isUnpublished geo.openStatus = false →
                reviewOf geo = ⟨true, 1, geo.ownerId, ∅, ∅, []⟩ := by
            intro geo geolocators approvals versionNo status
            simp [reviewOf, IsActive, WasActive, geolocators, approvals, versionNo, status]
          rw [filed _ rfl rfl rfl rfl]
          exact .single (.publish user.id ⟨user, standing, rfl⟩ rfl 1 Nat.one_pos (Nat.zero_le _))
      | requested _ creating =>
          rcases createRequest_ok creating with ⟨_, _, _, _, finishing⟩
          rcases finishWrite_event finishing with ⟨_, _, _, event⟩
          rw [event]
          exact ⟨blank rfl, _, by rw [drafted rfl rfl rfl rfl]⟩
  | persisted _ persisting =>
      rcases persistOne_ok persisting with ⟨_, rfl⟩
      exact ⟨blank rfl, _, by rw [drafted rfl rfl rfl rfl]⟩

/-! ### Every reachable state -/

theorem review_of_reachable (reachable : (system config).Reachable state) (member : geo ∈ state.events) :
    RowsKept geo ∧ (reviewOf geo).Sound := by
  refine event_invariant (fun geo => RowsKept geo ∧ (reviewOf geo).Sound) ?_ ?_ reachable member
  · intro _ _ _ born
    rcases born.credit with ⟨kept, owner, run⟩
    exact ⟨kept, (Review.Sound.draft owner).run run⟩
  · intro _ _ _ _ reachable inRows kept change
    have credited := change.keeps_credit (phased_of_reachable reachable inRows) kept.1
    exact ⟨credited.kept, kept.2.run credited.run⟩

/-- Approvals stay independent of the credit: none is by the owner or by anyone the
event credits or ever credited, none repeats another of its kind, and each names a
version the event has reached. -/
theorem approvals_independent (reachable : (system config).Reachable state)
    (member : geo ∈ state.events) :
    (∀ approval ∈ geo.approvals, ∀ reviewerId, approval.reviewerId = some reviewerId →
      reviewerId ∉ geo.everCreditedIds) ∧
    (∀ versionNo reviewerId, (geo.approvals.filter fun approval =>
      approval.versionNo = versionNo ∧ approval.reviewerId = some reviewerId ∧
        approval.organizationId = none).length ≤ 1) ∧
    (∀ versionNo organizationId, (geo.approvals.filter fun approval =>
      approval.versionNo = versionNo ∧
        approval.organizationId = some organizationId).length ≤ 1) ∧
    ∀ approval ∈ geo.approvals,
      approval.versionNo ∈ versionNumbers geo ∨ approval.versionNo = geo.versionNo := by
  have sound := (review_of_reachable reachable member).2
  have single : ∀ keep : Mark Uuid Uuid → Bool,
      (∀ left right, keep left = true → keep right = true → left.Rivals right) →
        (geo.approvals.filter (keep ∘ markOf)).length ≤ 1 := by
    intro keep rivals
    have one := sound.filter_length_le_one keep rivals
    simp only [reviewOf, List.filter_map, List.length_map] at one
    exact one
  refine ⟨?_, ?_, ?_, ?_⟩
  · intro approval inRows reviewerId named
    have stranger := sound.independent (markOf approval) (List.mem_map_of_mem inRows) reviewerId
      named
    rw [mem_everCreditedIds]
    rintro (owner | credited)
    · exact stranger.1 owner
    · exact stranger.2 credited
  · intro versionNo reviewerId
    refine single (fun mark => mark.version = versionNo ∧ mark.reviewer = some reviewerId ∧
      mark.organization = none) ?_
    intro left right isLeft isRight
    rw [decide_eq_true_eq] at isLeft isRight
    exact ⟨isLeft.1.trans isRight.1.symm, .inr ⟨isLeft.2.2, isRight.2.2, reviewerId,
      isLeft.2.1, isRight.2.1⟩⟩
  · intro versionNo organizationId
    refine single (fun mark => mark.version = versionNo ∧
      mark.organization = some organizationId) ?_
    intro left right isLeft isRight
    rw [decide_eq_true_eq] at isLeft isRight
    exact ⟨isLeft.1.trans isRight.1.symm, .inl ⟨organizationId, isLeft.2, isRight.2⟩⟩
  · intro approval inRows
    have reached := sound.reached (markOf approval) (List.mem_map_of_mem inRows)
    rcases wellFormed_of_reachable reachable member with ⟨first, small, wellFormed⟩
    rw [← eventLog_numbers, wellFormed.numbers, List.mem_range'_1]
    simp only [markOf, reviewOf] at reached
    simp only [eventLog]
    omega

/-- An analyst (id 12) approves the published event 4, and is then invited to it. -/
def smallReview : List Request :=
  smallSetup ++ [smallDraft, smallPublish] ++
    [.signUp (str "bob") (str "bob@example.org") [], .approve 4 12 1 none,
      .credit 4 0 (.invite (str "bob"))]

/-- The approval of an analyst who is only invited stands. -/
theorem approvals_independent_of_invited :
    ∃ geo ∈ (smallState smallReview).events, ∃ approval ∈ geo.approvals,
      approval.reviewerId = some 12 ∧ 12 ∉ geo.everCreditedIds := by
  have independent := approvals_independent (smallState_reachable (by decide +kernel))
    (firstEvent_mem (smallState smallReview) (by decide +kernel))
  have approved : ∃ approval ∈
      (firstEvent (smallState smallReview) (by decide +kernel)).approvals,
        approval.reviewerId = some 12 := by decide +kernel
  rcases approved with ⟨approval, inRows, reviewer⟩
  exact ⟨_, firstEvent_mem _ (by decide +kernel), approval, inRows, reviewer,
    independent.1 approval inRows 12 reviewer⟩

/-! ### Nobody is forgotten -/

/-- The analysts an event credits have accounts, drawn by now. -/
structure CreditDrawn (config : Config) (state : State) : Prop where
  reachable : (system config).Reachable state
  active : ∀ geo ∈ state.events, ∀ userId, IsActive geo userId →
    IsDrawn config state.drawn userId

theorem CreditDrawn.step {label : Label} (drawn : CreditDrawn config state)
    (stepped : step config label state = .ok next) : CreditDrawn config next where
  reachable := drawn.reachable.step stepped
  active geo member userId active := by
    have reachable := drawn.reachable
    have below := step_drawn_le stepped
    have known : Known state userId → IsDrawn config next.drawn userId := by
      rintro ⟨user, standing, rfl⟩
      exact ((identified_of_reachable reachable).users user standing).mono below
    rcases step_events stepped member with ⟨row, inRows, rfl | change⟩ | born
    · exact (drawn.active geo inRows userId active).mono below
    · have kept := (review_of_reachable reachable inRows).1
      have credited := change.keeps_credit (phased_of_reachable reachable inRows) kept
      rcases credited.run.active_known active with old | standing
      · exact (drawn.active row inRows userId old).mono below
      · exact known standing
    · rcases born.credit.2 with ⟨owner, run⟩
      rcases run.active_known active with none | standing
      · exact absurd none (Set.notMem_empty _)
      · exact known standing

theorem creditDrawn_of_reachable (reachable : (system config).Reachable state) :
    CreditDrawn config state := by
  refine System.Reachable.invariant ?_ CreditDrawn.step reachable
  intro start init
  refine ⟨.init init, ?_⟩
  rcases init with ⟨now, rfl⟩
  simp [initial]

/-- An account that stands after a step stood before it, or is newer. -/
theorem known_of_step {label : Label} (stepped : step config label state = .ok next)
    (drawn : IsDrawn config state.drawn userId) (standing : Known next userId) :
    Known state userId := by
  rcases standing with ⟨user, member, rfl⟩
  rcases step_ok stepped with ⟨left, outcome, ⟨_, rfl⟩ | ⟨_, rfl⟩⟩
  · rcases outcome.users member with ⟨old, inUsers, same⟩ | ⟨fresh, _⟩
    · exact ⟨old, inUsers, same⟩
    · exact absurd (fresh ▸ drawn) (not_isDrawn_draw config state.drawn)
  · exact ⟨user, member, rfl⟩

/-- Along a run, an analyst who was credited stays remembered while the account
stands. -/
theorem wasActive_run {first last : Event} (reachable : (system config).Reachable state)
    (run : (system config).Run state final) (inState : first ∈ state.events)
    (drawn : IsDrawn config state.drawn userId) (was : WasActive first userId)
    (inFinal : last ∈ final.events) (sameId : last.id = first.id)
    (standing : Known final userId) : WasActive last userId := by
  induction run generalizing last with
  | refl =>
      have unique := (identified_of_reachable reachable).unique
      rw [List.inj_on_of_nodup_map unique inFinal inState sameId]
      exact was
  | @tail middle final earlier stepped inductionHypothesis =>
      rcases stepped with ⟨label, stepped⟩
      have reachableMiddle := reachable.run earlier
      have below : state.drawn ≤ middle.drawn := System.Run.monotone step_drawn_le earlier
      have stood := known_of_step stepped (drawn.mono below) standing
      rcases step_events stepped inFinal with ⟨row, inRows, rfl | change⟩ | born
      · exact inductionHypothesis inRows sameId stood
      · have before' := inductionHypothesis inRows (change.id.symm.trans sameId) stood
        have kept := (review_of_reachable reachableMiddle inRows).1
        have credited := change.keeps_credit (phased_of_reachable reachableMiddle inRows) kept
        refine credited.run.ever_mono before' ?_
        intro gone
        rcases standing with ⟨user, member, same⟩
        exact gone user member same
      · -- a new event has an id no earlier event has
        exfalso
        have firstDrawn := (identified_of_reachable reachable).events first inState
        rw [← sameId, born.id] at firstDrawn
        exact not_isDrawn_draw config middle.drawn (firstDrawn.mono below)

/-- The owner of a published event, or of one closed after it was published, is
credited on it; and whoever it credits once is among those it ever credited in every
later state the account reaches. -/
theorem owner_credited (reachable : (system config).Reachable state)
    (member : geo ∈ state.events) :
    (geo.status = .geolocated ∨
        geo.status = .closed ∧ geo.beforeClosedStatus = some .geolocated →
      ∃ row ∈ geo.geolocators, row.userId = geo.ownerId ∧ row.state = .active) ∧
    ∀ userId ∈ geo.activeIds, ∀ {final : State} {last : Event},
      (system config).Run state final → last ∈ final.events → last.id = geo.id →
        (∃ user ∈ final.users, user.id = userId) → userId ∈ last.everCreditedIds := by
  refine ⟨?_, ?_⟩
  · intro published
    have phased := phased_of_reachable reachable member
    have openStatus : geo.openStatus = .geolocated := by
      rcases published with live | ⟨_, left⟩
      · rw [phased.openStatus (by simp [live]), live]
      · unfold Event.openStatus
        rw [left]
        rfl
    exact (review_of_reachable reachable member).2.owned (by simp [reviewOf, openStatus, isUnpublished])
  · intro userId credited final last run inFinal sameId standing
    have active := mem_activeIds.mp credited
    have drawn := (creditDrawn_of_reachable reachable).active geo member userId active
    rw [mem_everCreditedIds]
    exact .inr (wasActive_run reachable run member drawn active.wasActive inFinal sameId standing)

/-- The analyst accepts the invitation, and leaves: the event remembers them. -/
theorem owner_credited_of_departed :
    ∃ geo ∈ (smallState (smallReview ++ [.credit 4 12 .accept] ++
      [.credit 4 12 (.remove (str "bob"))])).events,
        12 ∉ geo.activeIds ∧ 12 ∈ geo.everCreditedIds := by
  have left : (runSmall (smallReview ++ [.credit 4 12 .accept] ++
      [.credit 4 12 (.remove (str "bob"))])).isOk = true := by decide +kernel
  have credited := owner_credited (smallState_reachable (by decide +kernel))
    (firstEvent_mem (smallState (smallReview ++ [.credit 4 12 .accept])) (by decide +kernel))
  exact ⟨_, firstEvent_mem _ (by decide +kernel), by decide +kernel,
    credited.2 12 (by decide +kernel) (smallState_run _ left)
      (firstEvent_mem _ (by decide +kernel)) (by decide +kernel) (by decide +kernel)⟩

end Vidit.World
