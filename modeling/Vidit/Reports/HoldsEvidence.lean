import Vidit.Reports.Verdicts

/-!
Contract: a collection its owner deleted is held while an open report names it, and no
longer.

Owns:
- what a process knows of the rows it has locked, and the rule that the steps of the
  other processes leave it so;
- that the only writes are a stamp, a report, a verdict and an erasure, each by a
  process that has locked the rows it decides on;
- in every reachable state a deleted collection has an open report, and every erasure
  leaves no report open that named the collection.

Proof shape: one step is inverted into an `Effect`; the rows' invariant is read off the
effect, and so is what every other process keeps.
-/

namespace Vidit.Reports

open Vidit.Python Vidit.Accounts Vidit.Library

/-! ### Open reports -/

theorem hasOpenReport_iff {reports : List ContentReport} {collectionId : Uuid} :
    hasOpenReport reports collectionId = true ↔
      ∃ report ∈ reports, report.Names collectionId ∧ report.verdict = none := by
  simp [hasOpenReport]

theorem mem_resolved {reports : List ContentReport} {reportId : Uuid} {verdict : Verdict}
    {report : ContentReport} :
    report ∈ resolved reports reportId verdict ↔
      (report ∈ reports ∧ report.id ≠ reportId) ∨
        ∃ earlier ∈ reports, earlier.id = reportId ∧
          report = { earlier with verdict := some verdict } := by
  unfold resolved
  constructor
  · intro member
    rcases List.mem_map.mp member with ⟨earlier, earlierMember, same⟩
    split at same
    · rename_i here
      exact .inr ⟨earlier, earlierMember, here, same.symm⟩
    · rename_i different
      subst same
      exact .inl ⟨earlierMember, different⟩
  · rintro (⟨member, different⟩ | ⟨earlier, member, here, rfl⟩)
    · exact List.mem_map.mpr ⟨report, member, by rw [if_neg different]⟩
    · exact List.mem_map.mpr ⟨earlier, member, by rw [if_pos here]⟩

theorem mem_unnamed {reports : List ContentReport} {collectionId : Uuid}
    {report : ContentReport} :
    report ∈ unnamed reports collectionId ↔
      (report ∈ reports ∧ ¬ report.Names collectionId) ∨
        ∃ earlier ∈ reports, earlier.Names collectionId ∧
          report = { earlier with target := none } := by
  unfold unnamed
  constructor
  · intro member
    rcases List.mem_map.mp member with ⟨earlier, earlierMember, same⟩
    split at same
    · rename_i names
      exact .inr ⟨earlier, earlierMember, names, same.symm⟩
    · rename_i others
      subst same
      exact .inl ⟨earlierMember, others⟩
  · rintro (⟨member, others⟩ | ⟨earlier, member, names, rfl⟩)
    · exact List.mem_map.mpr ⟨report, member, by rw [if_neg others]⟩
    · exact List.mem_map.mpr ⟨earlier, member, by rw [if_pos names]⟩

/-- A report names one collection. -/
theorem ContentReport.Names.unique {report : ContentReport} {left right : Uuid}
    (namesLeft : report.Names left) (namesRight : report.Names right) : left = right := by
  unfold ContentReport.Names at namesLeft namesRight
  rw [namesLeft] at namesRight
  cases namesRight
  rfl

theorem hasOpenReport_congr {left right : List ContentReport} {collectionId : Uuid}
    (named : ∀ {report : ContentReport}, report.Names collectionId →
      (report ∈ left ↔ report ∈ right)) :
    hasOpenReport left collectionId = hasOpenReport right collectionId := by
  rw [Bool.eq_iff_iff, hasOpenReport_iff, hasOpenReport_iff]
  constructor
  · rintro ⟨report, member, names, isOpen⟩
    exact ⟨report, (named names).mp member, names, isOpen⟩
  · rintro ⟨report, member, names, isOpen⟩
    exact ⟨report, (named names).mpr member, names, isOpen⟩

/-- A write that keeps every id keeps the primary key. -/
theorem primaryKey_map {reports : List ContentReport} {write : ContentReport → ContentReport}
    (sameId : ∀ report, (write report).id = report.id)
    (primaryKey : ∀ left ∈ reports, ∀ right ∈ reports, left.id = right.id → left = right) :
    ∀ left ∈ reports.map write, ∀ right ∈ reports.map write, left.id = right.id →
      left = right := by
  intro left leftMember right rightMember same
  rcases List.mem_map.mp leftMember with ⟨first, firstMember, rfl⟩
  rcases List.mem_map.mp rightMember with ⟨second, secondMember, rfl⟩
  rw [sameId, sameId] at same
  rw [primaryKey first firstMember second secondMember same]

theorem primaryKey_resolved {reports : List ContentReport} (reportId : Uuid) (verdict : Verdict)
    (primaryKey : ∀ left ∈ reports, ∀ right ∈ reports, left.id = right.id → left = right) :
    ∀ left ∈ resolved reports reportId verdict, ∀ right ∈ resolved reports reportId verdict,
      left.id = right.id → left = right := by
  refine primaryKey_map ?_ primaryKey
  intro report
  split <;> rfl

theorem primaryKey_unnamed {reports : List ContentReport} (collectionId : Uuid)
    (primaryKey : ∀ left ∈ reports, ∀ right ∈ reports, left.id = right.id → left = right) :
    ∀ left ∈ unnamed reports collectionId, ∀ right ∈ unnamed reports collectionId,
      left.id = right.id → left = right := by
  refine primaryKey_map ?_ primaryKey
  intro report
  split <;> rfl

/-- A verdict keeps what a report names. -/
theorem names_of_mem_resolved {reports : List ContentReport} {reportId collectionId : Uuid}
    {verdict : Verdict} {report : ContentReport}
    (member : report ∈ resolved reports reportId verdict) (names : report.Names collectionId) :
    ∃ earlier ∈ reports, earlier.id = report.id ∧ earlier.Names collectionId := by
  rcases mem_resolved.mp member with ⟨earlierMember, _⟩ | ⟨earlier, earlierMember, _, rfl⟩
  · exact ⟨report, earlierMember, rfl, names⟩
  · exact ⟨earlier, earlierMember, rfl, names⟩

/-- An erasure leaves the reports on the other collections as they are. -/
theorem mem_unnamed_iff {reports : List ContentReport} {collectionId other : Uuid}
    {report : ContentReport} (names : report.Names other) (different : other ≠ collectionId) :
    report ∈ unnamed reports collectionId ↔ report ∈ reports := by
  rw [mem_unnamed]
  constructor
  · rintro (⟨member, _⟩ | ⟨earlier, _, _, rfl⟩)
    · exact member
    · contradiction
  · intro member
    exact .inl ⟨member, fun here => different (names.unique here)⟩

namespace State

/-- The collection stands, and its owner has deleted it. -/
def Deleted (state : State) (collectionId : Uuid) : Prop :=
  ∃ collection ∈ state.collections, collection.id = collectionId ∧ collection.deletedAt ≠ none

/-- The process holds the collection `FOR UPDATE`. -/
def HoldsCollection (state : State) (process : Nat) (collectionId : Uuid) : Prop :=
  state.locks.exclusive (.target (.collection collectionId)) = some process

def HoldsReport (state : State) (process : Nat) (reportId : Uuid) : Prop :=
  state.locks.exclusive (.report reportId) = some process

/-- The foreign key of a report in flight shares the collection. -/
def SharesCollection (state : State) (process : Nat) (collectionId : Uuid) : Prop :=
  state.locks.Shares process (.target (.collection collectionId))

/-- The report is open, and as the process that locked it read it. -/
structure Judges (state : State) (process : Nat) (report : ContentReport) : Prop where
  locked : state.HoldsReport process report.id
  stored : report ∈ state.reports
  isOpen : report.verdict = none

/-- The verdict's process holds the collection the report names. -/
structure Rules (state : State) (process : Nat) (report : ContentReport) : Prop
    extends state.Judges process report where
  collection : ∀ {collectionId}, report.Names collectionId →
    state.HoldsCollection process collectionId

/-- A report in flight: its key is taken and new, and its collection shared. -/
structure Files (state : State) (process : Nat) (report : ContentReport) (collectionId : Uuid) :
    Prop where
  names : report.Names collectionId
  isOpen : report.verdict = none
  locked : state.HoldsReport process report.id
  shares : state.SharesCollection process collectionId
  stands : state.Stands (.collection collectionId)
  new : ∀ other ∈ state.reports, other.id ≠ report.id

/-- What a process knows at each statement. -/
def Holds (state : State) (process : Nat) : Process → Prop
  | .readReports collectionId => state.HoldsCollection process collectionId
  | .stamp collectionId => state.HoldsCollection process collectionId ∧
      hasOpenReport state.reports collectionId = true
  | .erase collectionId => state.HoldsCollection process collectionId ∧
      hasOpenReport state.reports collectionId = false
  | .insertReport report collectionId => report.Names collectionId ∧ report.verdict = none
  | .commitReport report collectionId => state.Files process report collectionId
  | .lockTarget report _ _ => state.Judges process report
  | .release report _ => state.Rules process report
  | .commitVerdict report verdict erases => state.Rules process report ∧
      erases = state.erases report verdict
  | _ => True

/-- The two keys of a report, and the open report of a deleted collection. -/
structure Sound (state : State) : Prop where
  primaryKey : ∀ left ∈ state.reports, ∀ right ∈ state.reports, left.id = right.id → left = right
  foreignKey : ∀ report ∈ state.reports, ∀ {collectionId}, report.Names collectionId →
    state.Stands (.collection collectionId)
  reported : ∀ {collectionId}, state.Deleted collectionId →
    hasOpenReport state.reports collectionId = true
  holds : ∀ process, state.Holds process (state.processes process)

/-- The same collections stand, and the same are deleted. -/
structure SameCollections (state next : State) : Prop where
  stands : ∀ collectionId, next.Stands (.collection collectionId) ↔
    state.Stands (.collection collectionId)
  deleted : ∀ collectionId, next.Deleted collectionId ↔ state.Deleted collectionId

/-- What one step of a process writes, and what it has locked to do so. -/
inductive Effect (state next : State) (process : Nat) : Prop where
  | nothing (collections : state.SameCollections next) (reports : next.reports = state.reports)
  | stamped (collectionId : Uuid)
      (locked : state.HoldsCollection process collectionId)
      (isReported : hasOpenReport state.reports collectionId = true)
      (stands : ∀ other, next.Stands (.collection other) ↔ state.Stands (.collection other))
      (deleted : ∀ other, other ≠ collectionId → (next.Deleted other ↔ state.Deleted other))
      (reports : next.reports = state.reports)
  | filed (report : ContentReport) (collectionId : Uuid)
      (files : state.Files process report collectionId)
      (collections : state.SameCollections next)
      (reports : next.reports = state.reports ++ [report])
  | judged (report : ContentReport) (verdict : Verdict)
      (rules : state.Rules process report)
      (released : ∀ {collectionId}, report.Names collectionId → state.Deleted collectionId →
        hasOpenReport (resolved state.reports report.id verdict) collectionId = true)
      (collections : state.SameCollections next)
      (reports : next.reports = resolved state.reports report.id verdict)
  | erased (collectionId : Uuid) (earlier : List ContentReport)
      (locked : state.HoldsCollection process collectionId)
      (flushed : earlier = state.reports ∨ ∃ report verdict, state.Rules process report ∧
        report.Names collectionId ∧ earlier = resolved state.reports report.id verdict)
      (isReleased : hasOpenReport earlier collectionId = false)
      (unlocked : ∀ report ∈ earlier, report.Names collectionId →
        state.locks.exclusive (.report report.id) = none ∨ state.HoldsReport process report.id)
      (stands : ∀ other, next.Stands (.collection other) ↔
        state.Stands (.collection other) ∧ other ≠ collectionId)
      (deleted : ∀ other, next.Deleted other ↔ state.Deleted other ∧ other ≠ collectionId)
      (reports : next.reports = unnamed earlier collectionId)

variable {state next : State} {process : Nat}

/-! ### What a step writes -/

/-- A verdict leaves the reports on the other collections as they are. -/
theorem Judges.mem_resolved_iff {report other : ContentReport} {collectionId : Uuid}
    {verdict : Verdict} (judges : state.Judges process report) (sound : state.Sound)
    (elsewhere : ¬ report.Names collectionId) (names : other.Names collectionId) :
    other ∈ resolved state.reports report.id verdict ↔ other ∈ state.reports := by
  have differ : ∀ earlier ∈ state.reports, earlier.Names collectionId →
      earlier.id ≠ report.id := by
    intro earlier member named same
    exact elsewhere (sound.primaryKey earlier member report judges.stored same ▸ named)
  rw [mem_resolved]
  constructor
  · rintro (⟨member, _⟩ | ⟨earlier, member, here, rfl⟩)
    · exact member
    · exact absurd here (differ earlier member names)
  · intro member
    exact .inl ⟨member, differ other member names⟩

/-- What was flushed before an erasure is on the erased collection alone. -/
theorem mem_flushed_iff {collectionId elsewhere : Uuid} {earlier : List ContentReport}
    {other : ContentReport} (sound : state.Sound)
    (flushed : earlier = state.reports ∨ ∃ report verdict, state.Rules process report ∧
      report.Names collectionId ∧ earlier = resolved state.reports report.id verdict)
    (names : other.Names elsewhere) (different : elsewhere ≠ collectionId) :
    other ∈ earlier ↔ other ∈ state.reports := by
  rcases flushed with rfl | ⟨report, verdict, rules, here, rfl⟩
  · exact Iff.rfl
  · exact rules.toJudges.mem_resolved_iff sound
      (fun also => different (also.unique here)) names

theorem Effect.primaryKey (effect : Effect state next process) (sound : state.Sound) :
    ∀ left ∈ next.reports, ∀ right ∈ next.reports, left.id = right.id → left = right := by
  cases effect with
  | nothing _ reports => exact reports ▸ sound.primaryKey
  | stamped _ _ _ _ _ reports => exact reports ▸ sound.primaryKey
  | filed report _ files _ reports =>
      rw [reports]
      intro left leftMember right rightMember same
      rcases List.mem_append.mp leftMember with earlierLeft | newLeft <;>
        rcases List.mem_append.mp rightMember with earlierRight | newRight
      · exact sound.primaryKey left earlierLeft right earlierRight same
      · rw [List.mem_singleton.mp newRight] at same
        exact absurd same (files.new left earlierLeft)
      · rw [List.mem_singleton.mp newLeft] at same
        exact absurd same.symm (files.new right earlierRight)
      · rw [List.mem_singleton.mp newLeft, List.mem_singleton.mp newRight]
  | judged report verdict _ _ _ reports =>
      exact reports ▸ primaryKey_resolved report.id verdict sound.primaryKey
  | erased collectionId earlier _ flushed _ _ _ _ reports =>
      rw [reports]
      refine primaryKey_unnamed collectionId ?_
      rcases flushed with rfl | ⟨report, verdict, _, _, rfl⟩
      · exact sound.primaryKey
      · exact primaryKey_resolved report.id verdict sound.primaryKey

theorem Effect.foreignKey (effect : Effect state next process) (sound : state.Sound)
    {report : ContentReport} (member : report ∈ next.reports) {collectionId : Uuid}
    (names : report.Names collectionId) : next.Stands (.collection collectionId) := by
  cases effect with
  | nothing collections reports =>
      exact (collections.stands _).mpr (sound.foreignKey report (reports ▸ member) names)
  | stamped _ _ _ stands _ reports =>
      exact (stands _).mpr (sound.foreignKey report (reports ▸ member) names)
  | filed filed shared files collections reports =>
      rw [reports] at member
      refine (collections.stands _).mpr ?_
      rcases List.mem_append.mp member with earlier | new
      · exact sound.foreignKey report earlier names
      · rw [List.mem_singleton.mp new] at names
        exact names.unique files.names ▸ files.stands
  | judged judged verdict _ _ collections reports =>
      rw [reports] at member
      rcases names_of_mem_resolved member names with ⟨earlier, earlierMember, _, earlierNames⟩
      exact (collections.stands _).mpr (sound.foreignKey earlier earlierMember earlierNames)
  | erased erasedId earlier _ flushed _ _ stands _ reports =>
      rw [reports] at member
      rcases mem_unnamed.mp member with ⟨earlierMember, others⟩ | ⟨_, _, _, rfl⟩
      · have different : collectionId ≠ erasedId := by
          rintro rfl
          exact others names
        have stored := (mem_flushed_iff sound flushed names different).mp earlierMember
        exact (stands _).mpr ⟨sound.foreignKey report stored names, different⟩
      · contradiction

theorem Effect.reported (effect : Effect state next process) (sound : state.Sound)
    {collectionId : Uuid} (deleted : next.Deleted collectionId) :
    hasOpenReport next.reports collectionId = true := by
  cases effect with
  | nothing collections reports =>
      exact reports ▸ sound.reported ((collections.deleted _).mp deleted)
  | stamped stampedId _ isReported _ elsewhere reports =>
      rw [reports]
      by_cases here : collectionId = stampedId
      · exact here ▸ isReported
      · exact sound.reported ((elsewhere _ here).mp deleted)
  | filed report _ _ collections reports =>
      have earlier := sound.reported ((collections.deleted _).mp deleted)
      rcases hasOpenReport_iff.mp earlier with ⟨other, member, names, isOpen⟩
      rw [reports, hasOpenReport_iff]
      exact ⟨other, List.mem_append.mpr (.inl member), names, isOpen⟩
  | judged report verdict rules released collections reports =>
      rw [reports]
      have before := (collections.deleted _).mp deleted
      by_cases names : report.Names collectionId
      · exact released names before
      · rw [hasOpenReport_congr (rules.toJudges.mem_resolved_iff sound names)]
        exact sound.reported before
  | erased erasedId earlier _ flushed _ _ _ remains reports =>
      rcases (remains _).mp deleted with ⟨before, different⟩
      rw [reports, hasOpenReport_congr fun names => (mem_unnamed_iff names different).trans
        (mem_flushed_iff sound flushed names different)]
      exact sound.reported before

/-! ### What a step leaves to the others -/

/-- A collection, and the reports that name it, as they were. -/
structure Undisturbed (state next : State) (collectionId : Uuid) : Prop where
  named : ∀ {report : ContentReport}, report.Names collectionId →
    (report ∈ next.reports ↔ report ∈ state.reports)
  deleted : next.Deleted collectionId ↔ state.Deleted collectionId

/-- A process writes only under collections it has locked or shares. -/
theorem Effect.undisturbed (effect : Effect state next process) (sound : state.Sound)
    {collectionId : Uuid} (unlocked : ¬ state.HoldsCollection process collectionId)
    (unshared : ¬ state.SharesCollection process collectionId) :
    Undisturbed state next collectionId := by
  cases effect with
  | nothing collections reports =>
      exact ⟨fun _ => by rw [reports], collections.deleted _⟩
  | stamped stampedId locked _ _ deleted reports =>
      have different : collectionId ≠ stampedId := by
        rintro rfl
        exact unlocked locked
      exact ⟨fun _ => by rw [reports], deleted _ different⟩
  | filed report sharedId files collections reports =>
      refine ⟨?_, collections.deleted _⟩
      intro other names
      have different : other ≠ report := by
        rintro rfl
        exact unshared (names.unique files.names ▸ files.shares)
      simp [reports, different]
  | judged report verdict rules _ collections reports =>
      refine ⟨?_, collections.deleted _⟩
      intro other names
      rw [reports]
      exact rules.toJudges.mem_resolved_iff sound (fun here => unlocked (rules.collection here))
        names
  | erased erasedId earlier locked flushed _ _ _ deleted reports =>
      have different : collectionId ≠ erasedId := by
        rintro rfl
        exact unlocked locked
      refine ⟨?_, (deleted _).trans (and_iff_left different)⟩
      intro other names
      rw [reports]
      exact (mem_unnamed_iff names different).trans
        (mem_flushed_iff sound flushed names different)

/-- A report that another process has locked is as it was. -/
theorem Effect.sameReport (effect : Effect state next process) {holder : Nat}
    (others : holder ≠ process) {report : ContentReport}
    (locked : state.HoldsReport holder report.id) :
    report ∈ next.reports ↔ report ∈ state.reports := by
  have differs : ∀ {other : ContentReport}, state.HoldsReport process other.id →
      report.id ≠ other.id := by
    intro other held same
    unfold HoldsReport at locked held
    rw [same, held] at locked
    exact others (Option.some.inj locked).symm
  have elsewhere : ∀ {other : ContentReport} {verdict : Verdict}, state.Judges process other →
      (report ∈ resolved state.reports other.id verdict ↔ report ∈ state.reports) := by
    intro other verdict judges
    rw [mem_resolved]
    constructor
    · rintro (⟨member, _⟩ | ⟨earlier, _, here, rfl⟩)
      · exact member
      · exact absurd here (differs judges.locked)
    · intro member
      exact .inl ⟨member, differs judges.locked⟩
  cases effect with
  | nothing _ reports => rw [reports]
  | stamped _ _ _ _ _ reports => rw [reports]
  | filed filed _ files _ reports =>
      have different : report ≠ filed := by
        rintro rfl
        exact differs files.locked rfl
      simp [reports, different]
  | judged judged verdict rules _ _ reports =>
      rw [reports]
      exact elsewhere rules.toJudges
  | erased erasedId earlier _ flushed _ free _ _ reports =>
      have flushedIff : report ∈ earlier ↔ report ∈ state.reports := by
        rcases flushed with rfl | ⟨judged, verdict, rules, _, rfl⟩
        · exact Iff.rfl
        · exact elsewhere rules.toJudges
      have unnamedHere : report ∈ earlier → ¬ report.Names erasedId := by
        intro member names
        rcases free report member names with unheld | own
        · unfold HoldsReport at locked
          rw [unheld] at locked
          contradiction
        · exact differs own rfl
      rw [reports, mem_unnamed, ← flushedIff]
      constructor
      · rintro (⟨member, _⟩ | ⟨other, member, names, rfl⟩)
        · exact member
        · rcases free other member names with unheld | own
          · unfold HoldsReport at locked
            rw [unheld] at locked
            contradiction
          · exact absurd rfl (differs own)
      · intro member
        exact .inl ⟨member, unnamedHere member⟩

theorem Rules.keeps {holder : Nat} {report : ContentReport} (rules : state.Rules holder report)
    (effect : Effect state next process) (others : holder ≠ process)
    (locks : ∀ {row}, state.locks.exclusive row = some holder →
      next.locks.exclusive row = some holder) :
    next.Rules holder report where
  locked := locks rules.locked
  stored := (effect.sameReport others rules.locked).mpr rules.stored
  isOpen := rules.isOpen
  collection names := locks (rules.collection names)

theorem Rules.of_same {report : ContentReport} (rules : state.Rules process report)
    (reports : next.reports = state.reports) (locks : next.locks = state.locks) :
    next.Rules process report where
  locked := by
    unfold HoldsReport
    exact locks ▸ rules.locked
  stored := reports ▸ rules.stored
  isOpen := rules.isOpen
  collection names := by
    unfold HoldsCollection
    exact locks ▸ rules.collection names

theorem erases_iff {report : ContentReport} {verdict : Verdict} :
    state.erases report verdict = true ↔
      ∃ collectionId, report.Names collectionId ∧ state.Deleted collectionId ∧
        hasOpenReport (resolved state.reports report.id verdict) collectionId = false := by
  unfold erases ContentReport.Names Deleted
  split
  · rename_i named target
    simp only [Bool.and_eq_true, Bool.not_eq_true', List.any_eq_true, decide_eq_true_eq]
    constructor
    · rintro ⟨deleted, isReleased⟩
      exact ⟨named, target, deleted, isReleased⟩
    · rintro ⟨collectionId, here, deleted, isReleased⟩
      rw [target] at here
      cases here
      exact ⟨deleted, isReleased⟩
  · rename_i others
    simp only [Bool.false_eq_true, false_iff, not_exists, not_and]
    intro collectionId target
    exact absurd target (others collectionId)

theorem hasOpenReport_resolved_congr {left right : List ContentReport} {collectionId : Uuid}
    {reportId : Uuid} {verdict : Verdict}
    (named : ∀ {report : ContentReport}, report.Names collectionId →
      (report ∈ left ↔ report ∈ right)) :
    hasOpenReport (resolved left reportId verdict) collectionId =
      hasOpenReport (resolved right reportId verdict) collectionId := by
  refine hasOpenReport_congr ?_
  intro report names
  rw [mem_resolved, mem_resolved, named names]
  refine or_congr_right (exists_congr fun earlier => ?_)
  constructor
  · rintro ⟨member, here, rfl⟩
    have earlierNames : earlier.Names collectionId := names
    exact ⟨(named earlierNames).mp member, here, rfl⟩
  · rintro ⟨member, here, rfl⟩
    have earlierNames : earlier.Names collectionId := names
    exact ⟨(named earlierNames).mpr member, here, rfl⟩

/-- The holder of a collection excludes the writers of the reports on it. -/
theorem undisturbed_of_held (sound : state.Sound) (effect : Effect state next process)
    {holder : Nat} (others : holder ≠ process) {collectionId : Uuid}
    (held : state.HoldsCollection holder collectionId) :
    Undisturbed state next collectionId := by
  refine effect.undisturbed sound ?_ ?_
  · intro also
    exact others (Option.some.inj (held.symm.trans also))
  · intro shares
    exact others (KeyLocks.shares_apart held shares).symm

/-- One step of a process: its own place, and what the others keep. -/
structure Moves (state next : State) (process : Nat) : Prop where
  others : ∀ {other}, other ≠ process → next.processes other = state.processes other
  locks : state.locks.Leaves next.locks process
  effect : Effect state next process
  own : next.Holds process (next.processes process)

/-- What a process knows of the rows it has locked stays so under the steps of the others. -/
theorem Sound.holds_of_effect (sound : state.Sound) (locks : state.locks.Leaves next.locks process)
    (effect : Effect state next process) {holder : Nat} (others : holder ≠ process)
    {place : Process} (holds : state.Holds holder place) : next.Holds holder place := by
  cases place with
  | readReports collectionId => exact locks.exclusive others holds
  | stamp collectionId =>
      rcases holds with ⟨held, isReported⟩
      have same := undisturbed_of_held sound effect others held
      exact ⟨locks.exclusive others held, (hasOpenReport_congr same.named).trans isReported⟩
  | erase collectionId =>
      rcases holds with ⟨held, isReleased⟩
      have same := undisturbed_of_held sound effect others held
      exact ⟨locks.exclusive others held, (hasOpenReport_congr same.named).trans isReleased⟩
  | insertReport report collectionId => exact holds
  | commitReport report collectionId =>
      refine ⟨holds.names, holds.isOpen, locks.exclusive others holds.locked,
        locks.shares others holds.shares, ?_, ?_⟩
      · -- an erasure locks the collection that this process shares
        cases effect with
        | nothing collections _ => exact (collections.stands _).mpr holds.stands
        | stamped _ _ _ stands _ _ => exact (stands _).mpr holds.stands
        | filed _ _ _ collections _ => exact (collections.stands _).mpr holds.stands
        | judged _ _ _ _ collections _ => exact (collections.stands _).mpr holds.stands
        | erased erasedId _ locked _ _ _ stands _ _ =>
            refine (stands _).mpr ⟨holds.stands, ?_⟩
            rintro rfl
            exact others (KeyLocks.shares_apart locked holds.shares)
      · intro other member same
        have locked : state.HoldsReport holder other.id := same ▸ holds.locked
        exact holds.new other ((effect.sameReport others locked).mp member) same
  | lockTarget report resolution actorId =>
      exact ⟨locks.exclusive others holds.locked,
        (effect.sameReport others holds.locked).mpr holds.stored, holds.isOpen⟩
  | release report verdict =>
      exact holds.keeps effect others fun held => locks.exclusive others held
  | commitVerdict report verdict erases =>
      rcases holds with ⟨rules, decided⟩
      refine ⟨rules.keeps effect others fun held => locks.exclusive others held, ?_⟩
      rw [decided, Bool.eq_iff_iff, erases_iff, erases_iff]
      refine exists_congr fun collectionId => and_congr_right fun names => ?_
      have same := undisturbed_of_held sound effect others (rules.collection names)
      rw [same.deleted, hasOpenReport_resolved_congr same.named]
  | _ => trivial

theorem Sound.moves (sound : state.Sound) (moves : Moves state next process) : next.Sound where
  primaryKey := moves.effect.primaryKey sound
  foreignKey report member _ names := moves.effect.foreignKey sound member names
  reported deleted := moves.effect.reported sound deleted
  holds := by
    intro other
    by_cases here : other = process
    · exact here ▸ moves.own
    · rw [moves.others here]
      exact sound.holds_of_effect moves.locks moves.effect here (sound.holds other)

/-! ### Each statement -/

theorem exists_mem_map_iff {collections : List Collection} {write : Collection → Collection}
    (sameId : ∀ collection, (write collection).id = collection.id) {collectionId : Uuid}
    {P : Collection → Prop} :
    (∃ collection ∈ collections.map write, collection.id = collectionId ∧ P collection) ↔
      ∃ collection ∈ collections, collection.id = collectionId ∧ P (write collection) := by
  constructor
  · rintro ⟨_, member, here, holds⟩
    rcases List.mem_map.mp member with ⟨collection, collectionMember, rfl⟩
    exact ⟨collection, collectionMember, sameId collection ▸ here, holds⟩
  · rintro ⟨collection, member, here, holds⟩
    exact ⟨write collection, List.mem_map_of_mem member, (sameId collection).trans here, holds⟩

theorem stands_iff {collectionId : Uuid} :
    state.Stands (.collection collectionId) ↔
      ∃ collection ∈ state.collections, collection.id = collectionId ∧ True := by
  simp only [Stands, and_true]

/-- A process goes to its next place, under the locks it has taken or let go. -/
theorem Moves.placed (place : Process)
    (processes : next.processes = Function.update state.processes process place)
    (locks : state.locks.Leaves next.locks process) (effect : Effect state next process)
    (own : next.Holds process place) : Moves state next process where
  others different := by rw [processes, Function.update_of_ne different]
  locks := locks
  effect := effect
  own := by rwa [processes, Function.update_self]

/-- A transaction that ends without a write. -/
theorem moves_finish {place : Process} (ended : place.ended = true) :
    Moves state (state.finish process place) process := by
  refine .placed _ rfl (KeyLocks.leaves_release ..)
    (.nothing ⟨fun _ => Iff.rfl, fun _ => Iff.rfl⟩ rfl) ?_
  cases place <;> trivial

/-- A statement that takes locks and writes nothing. -/
theorem moves_locked {place : Process} {locks : KeyLocks Nat Row}
    (leaves : state.locks.Leaves locks process)
    (own : ({ state.setProcess process place with locks := locks } : State).Holds process place) :
    Moves state { state.setProcess process place with locks := locks } process :=
  .placed _ rfl leaves (.nothing ⟨fun _ => Iff.rfl, fun _ => Iff.rfl⟩ rfl) own

/-- A statement that only reads. -/
theorem moves_setProcess {place : Process}
    (own : (state.setProcess process place).Holds process place) :
    Moves state (state.setProcess process place) process :=
  .placed _ rfl (.refl ..) (.nothing ⟨fun _ => Iff.rfl, fun _ => Iff.rfl⟩ rfl) own

theorem moves_openCollection {collectionId : Uuid} {user : User} :
    Moves state (state.openCollection process collectionId user) process := by
  unfold openCollection
  repeat' split
  all_goals first
    | exact moves_finish rfl
    | exact moves_setProcess trivial

theorem moves_lockCollection {collectionId : Uuid}
    (locked : state.lockCollection process collectionId = .ok next) :
    Moves state next process := by
  unfold lockCollection at locked
  split at locked
  · contradiction
  · rename_i locks taken
    split at locked <;> cases locked
    · exact moves_locked (KeyLocks.leaves_of_lock taken) (KeyLocks.exclusive_of_lock taken)
    · exact moves_finish rfl

theorem moves_readReports {collectionId : Uuid} (held : state.HoldsCollection process collectionId) :
    Moves state (state.readReports process collectionId) process := by
  unfold readReports
  split
  · rename_i isReported
    exact moves_setProcess ⟨held, isReported⟩
  · rename_i isReleased
    exact moves_setProcess ⟨held, Bool.not_eq_true _ ▸ isReleased⟩

theorem moves_stampCollection {collectionId : Uuid}
    (held : state.HoldsCollection process collectionId)
    (isReported : hasOpenReport state.reports collectionId = true) :
    Moves state (state.stampCollection process collectionId) process := by
  have sameId : ∀ collection : Collection,
      (if collection.id = collectionId then
        { collection with deletedAt := withheld collection.deletedAt state.now }
      else collection).id = collection.id := by
    intro collection
    split <;> rfl
  refine .placed .idle rfl (KeyLocks.leaves_release ..)
    (.stamped collectionId held isReported ?_ ?_ rfl) trivial
  · intro other
    rw [stands_iff, stands_iff]
    exact exists_mem_map_iff sameId
  · intro other different
    refine (exists_mem_map_iff sameId).trans (exists_congr fun collection =>
      and_congr_right fun _ => and_congr_right fun here => ?_)
    rw [if_neg (here ▸ different)]

theorem moves_eraseCollection {collectionId : Uuid} {earlier : List ContentReport}
    (held : state.HoldsCollection process collectionId)
    (flushed : earlier = state.reports ∨ ∃ report verdict, state.Rules process report ∧
      report.Names collectionId ∧ earlier = resolved state.reports report.id verdict)
    (isReleased : hasOpenReport earlier collectionId = false)
    (erased : state.eraseCollection process collectionId earlier = .ok next) :
    Moves state next process := by
  have remains : ∀ {other : Uuid} {P : Collection → Prop},
      (∃ collection ∈ state.collections.filter fun collection => collection.id ≠ collectionId,
        collection.id = other ∧ P collection) ↔
      (∃ collection ∈ state.collections, collection.id = other ∧ P collection) ∧
        other ≠ collectionId := by
    intro other P
    constructor
    · rintro ⟨collection, member, rfl, holds⟩
      rcases List.mem_filter.mp member with ⟨stored, different⟩
      exact ⟨⟨collection, stored, rfl, holds⟩, of_decide_eq_true different⟩
    · rintro ⟨⟨collection, stored, rfl, holds⟩, different⟩
      exact ⟨collection, List.mem_filter.mpr ⟨stored, decide_eq_true different⟩, rfl, holds⟩
  unfold eraseCollection at erased
  split at erased <;> cases erased
  rename_i unlocked
  refine .placed .idle rfl (KeyLocks.leaves_release ..)
    (.erased collectionId earlier held flushed isReleased unlocked ?_ ?_ rfl) trivial
  · intro other
    rw [stands_iff, stands_iff]
    exact remains
  · intro other
    exact remains

theorem moves_openReport {report : ContentReport} {collectionId : Uuid}
    (names : report.Names collectionId) (isOpen : report.verdict = none) :
    Moves state (state.openReport process report collectionId) process := by
  unfold openReport
  split
  · exact moves_setProcess ⟨names, isOpen⟩
  · exact moves_finish rfl

theorem moves_insertReport {report : ContentReport} {collectionId : Uuid}
    (names : report.Names collectionId) (isOpen : report.verdict = none)
    (inserted : state.insertReport process report collectionId = .ok next) :
    Moves state next process := by
  unfold insertReport at inserted
  split at inserted
  · contradiction
  · rename_i keyed keyTaken
    split at inserted
    · contradiction
    · rename_i shared shareTaken
      split at inserted <;> cases inserted
      · rename_i accepted
        rcases accepted with ⟨new, stands⟩
        have keyHeld : shared.exclusive (.report report.id) = some process := by
          rw [KeyLocks.exclusive_of_share shareTaken]
          exact KeyLocks.exclusive_of_lock keyTaken
        refine moves_locked ((KeyLocks.leaves_of_lock keyTaken).trans
          (KeyLocks.leaves_of_share shareTaken)) ⟨names, isOpen, keyHeld,
            (KeyLocks.shares_of_share shareTaken).mpr (.inl ⟨rfl, rfl⟩), stands, ?_⟩
        intro other member same
        have absent := List.find?_eq_none.mp new other member
        exact absent (decide_eq_true same)
      · exact moves_finish rfl

theorem moves_commitReport {report : ContentReport} {collectionId : Uuid}
    (files : state.Files process report collectionId) :
    Moves state (state.commitReport process report) process :=
  .placed .idle rfl (KeyLocks.leaves_release ..)
    (.filed report collectionId files ⟨fun _ => Iff.rfl, fun _ => Iff.rfl⟩ rfl) trivial

theorem moves_lockReport {reportId : Uuid} {resolution : ContentReportResolution} {actorId : Uuid}
    (locked : state.lockReport process reportId resolution actorId = .ok next) :
    Moves state next process := by
  unfold lockReport at locked
  split at locked
  · contradiction
  · rename_i locks taken
    split at locked
    · cases locked
      exact moves_finish rfl
    · rename_i report found
      have stored : report ∈ state.reports := List.mem_of_find?_eq_some found
      have here : report.id = reportId := by simpa using List.find?_some found
      split at locked <;> cases locked
      · exact moves_finish rfl
      · rename_i unresolved
        refine moves_locked (KeyLocks.leaves_of_lock taken) ⟨?_, stored, not_not.mp unresolved⟩
        exact here ▸ KeyLocks.exclusive_of_lock taken

/-- A named collection is locked whatever the verdict. -/
theorem lockedTarget_of_names {report : ContentReport} {collectionId : Uuid}
    (names : report.Names collectionId) (resolution : ContentReportResolution) :
    lockedTarget report.target resolution = some (.collection collectionId) := by
  unfold ContentReport.Names at names
  rw [names]
  rfl

theorem moves_lockTarget {report : ContentReport} {resolution : ContentReportResolution}
    {actorId : Uuid} (judges : state.Judges process report)
    (locked : state.lockTarget process report resolution actorId = .ok next) :
    Moves state next process := by
  unfold lockTarget at locked
  split at locked
  · rename_i unlocked
    cases locked
    unfold judge
    split
    · exact moves_finish rfl
    · refine moves_setProcess ⟨⟨judges.locked, judges.stored, judges.isOpen⟩, ?_⟩
      intro collectionId names
      rw [lockedTarget_of_names names] at unlocked
      contradiction
  · rename_i target isLocked
    split at locked
    · contradiction
    · rename_i locks taken
      split at locked <;> cases locked
      · unfold judge
        split
        · refine .placed _ rfl (KeyLocks.leaves_of_lock taken |>.trans
            (KeyLocks.leaves_release ..)) (.nothing ⟨fun _ => Iff.rfl, fun _ => Iff.rfl⟩ rfl) ?_
          exact trivial
        · refine moves_locked (KeyLocks.leaves_of_lock taken) ⟨⟨?_, judges.stored,
            judges.isOpen⟩, ?_⟩
          · exact KeyLocks.exclusive_lock_of_held taken judges.locked
          · intro collectionId names
            rw [lockedTarget_of_names names] at isLocked
            cases isLocked
            exact KeyLocks.exclusive_of_lock taken
      · exact moves_finish rfl

/-- A verdict hides its target and deletes none. -/
theorem sameCollections_applyVerdict (target : Option ReportTarget) (verdict : Verdict) :
    SameCollections state (state.applyVerdict target verdict) := by
  unfold applyVerdict
  split
  case h_3 collectionId resolution =>
    have sameId : ∀ collection : Collection,
        (if collection.id = collectionId then
          { collection with hiddenAt := withheld collection.hiddenAt verdict.resolvedAt }
        else collection).id = collection.id := by
      intro collection
      split <;> rfl
    constructor
    · intro other
      rw [stands_iff, stands_iff]
      exact exists_mem_map_iff sameId
    · intro other
      refine (exists_mem_map_iff sameId).trans (exists_congr fun collection =>
        and_congr_right fun _ => and_congr_right fun _ => ?_)
      split <;> rfl
  all_goals exact ⟨fun _ => Iff.rfl, fun _ => Iff.rfl⟩

theorem applyVerdict_locks (target : Option ReportTarget) (verdict : Verdict) :
    (state.applyVerdict target verdict).locks = state.locks := by
  unfold applyVerdict
  split <;> rfl

theorem applyVerdict_processes (target : Option ReportTarget) (verdict : Verdict) :
    (state.applyVerdict target verdict).processes = state.processes := by
  unfold applyVerdict
  split <;> rfl

theorem moves_commitVerdict {report : ContentReport} {verdict : Verdict} {released : Bool}
    (rules : state.Rules process report) (decided : released = state.erases report verdict)
    (committed : state.commitVerdict process report verdict released = .ok next) :
    Moves state next process := by
  unfold commitVerdict at committed
  dsimp only at committed
  split at committed
  · rename_i collectionId names
    rcases erases_iff.mp decided.symm with ⟨named, namesToo, _, isReleased⟩
    cases ContentReport.Names.unique namesToo names
    exact moves_eraseCollection (rules.collection names)
      (.inr ⟨report, verdict, rules, names, rfl⟩) isReleased committed
  · rename_i released _ _ kept
    cases committed
    refine .placed .idle ?_ ?_ (.judged report verdict rules ?_
      ⟨(sameCollections_applyVerdict report.target verdict).stands,
        (sameCollections_applyVerdict report.target verdict).deleted⟩ rfl) trivial
    · show Function.update (state.applyVerdict report.target verdict).processes _ _ = _
      rw [applyVerdict_processes]
    · show state.locks.Leaves ((state.applyVerdict report.target verdict).locks.release process) _
      rw [applyVerdict_locks]
      exact KeyLocks.leaves_release ..
    · intro collectionId names deleted
      by_contra isReleased
      have erased : released = true := decided.trans (erases_iff.mpr
        ⟨collectionId, names, deleted, Bool.not_eq_true _ ▸ isReleased⟩)
      exact kept collectionId names erased

/-- Every statement writes under its own locks, and leaves the others' knowledge true. -/
theorem moves_run (sound : state.Sound) (ran : state.run process = .ok next) :
    Moves state next process := by
  have holds := sound.holds process
  unfold run at ran
  split at ran <;> rename_i place <;> simp only [place, Holds] at holds
  case h_1 | h_2 => contradiction
  case h_3 collectionId => exact moves_lockCollection ran
  case h_4 collectionId =>
    cases ran
    exact moves_readReports holds
  case h_5 collectionId =>
    cases ran
    exact moves_stampCollection holds.1 holds.2
  case h_6 collectionId =>
    exact moves_eraseCollection holds.1 (.inl rfl) holds.2 ran
  case h_7 report collectionId => exact moves_insertReport holds.1 holds.2 ran
  case h_8 report collectionId =>
    cases ran
    exact moves_commitReport holds
  case h_9 reportId resolution actorId => exact moves_lockReport ran
  case h_10 report resolution actorId => exact moves_lockTarget holds ran
  case h_11 report verdict =>
    cases ran
    exact moves_setProcess ⟨holds.of_same rfl rfl, rfl⟩
  case h_12 report verdict erases => exact moves_commitVerdict holds.1 holds.2 ran

end State

open State

variable {state next : State}

/-- What a label does: it moves one process, or no row of this system. -/
theorem moves_of_step {label : Label} (sound : state.Sound) (stepped : step label state = .ok next) :
    (∃ process, Moves state next process) ∨
      (next.collections = state.collections ∧ next.reports = state.reports ∧
        next.locks = state.locks ∧ next.processes = state.processes) := by
  cases label with
  | tick now =>
      cases stepped
      exact .inr ⟨rfl, rfl, rfl, rfl⟩
  | account user =>
      cases stepped
      exact .inr ⟨rfl, rfl, rfl, rfl⟩
  | deleteCollection process collectionId user =>
      simp only [step, start] at stepped
      split at stepped <;> cases stepped
      exact .inl ⟨process, moves_openCollection⟩
  | createCollectionReport process reportId collectionId reason details reporterId =>
      simp only [step, start] at stepped
      split at stepped <;> cases stepped
      exact .inl ⟨process, moves_openReport rfl rfl⟩
  | resolveReport process reportId resolution actorId =>
      simp only [step, start] at stepped
      split at stepped <;> cases stepped
      exact .inl ⟨process, moves_setProcess trivial⟩
  | run process => exact .inl ⟨process, moves_run sound stepped⟩
  | fail process =>
      simp only [step] at stepped
      split at stepped <;> cases stepped
      exact .inl ⟨process, moves_finish rfl⟩

theorem State.Sound.step {label : Label} (sound : state.Sound)
    (stepped : Reports.step label state = .ok next) : next.Sound := by
  rcases moves_of_step sound stepped with ⟨process, moves⟩ | ⟨collections, reports, locks, places⟩
  · exact sound.moves moves
  · refine ⟨reports ▸ sound.primaryKey, ?_, ?_, ?_⟩
    · intro report member collectionId names
      rw [Stands, collections]
      exact sound.foreignKey report (reports ▸ member) names
    · intro collectionId deleted
      rw [Deleted, collections] at deleted
      rw [reports]
      exact sound.reported deleted
    · -- no process moved, so each knows what it knew after a step of another
      intro process
      rw [places]
      have another : process ≠ process + 1 := (Nat.succ_ne_self process).symm
      exact sound.holds_of_effect (locks ▸ .refl ..)
        (.nothing ⟨fun _ => by rw [Stands, Stands, collections],
          fun _ => by rw [Deleted, Deleted, collections]⟩ reports)
        another (sound.holds process)

theorem Initial.sound (initial : Initial state) : state.Sound where
  primaryKey := initial.primaryKey
  foreignKey report member collectionId names :=
    initial.foreignKey report member collectionId names
  reported := by
    rintro collectionId ⟨collection, member, rfl, deleted⟩
    exact initial.reported collection member deleted
  holds process := by
    rw [initial.idle process]
    trivial

theorem sound_of_reachable (reachable : system.Reachable state) : state.Sound :=
  reachable.invariant Initial.sound fun sound stepped => sound.step stepped

/-! ### What every run keeps -/

/-- An erasure leaves every report that named the collection resolved. -/
theorem resolved_of_erased {label : Label} (sound : state.Sound)
    (stepped : step label state = .ok next) {report : ContentReport}
    (member : report ∈ state.reports) {collectionId : Uuid} (names : report.Names collectionId)
    (erased : ¬ next.Stands (.collection collectionId)) :
    ∃ after ∈ next.reports, after.id = report.id ∧ after.verdict ≠ none := by
  have stood := sound.foreignKey report member names
  rcases moves_of_step sound stepped with ⟨process, moves⟩ | ⟨collections, _⟩
  · cases moves.effect with
    | nothing collections _ => exact absurd ((collections.stands _).mpr stood) erased
    | stamped _ _ _ stands _ _ => exact absurd ((stands _).mpr stood) erased
    | filed _ _ _ collections _ => exact absurd ((collections.stands _).mpr stood) erased
    | judged _ _ _ _ collections _ => exact absurd ((collections.stands _).mpr stood) erased
    | erased erasedId earlier _ flushed isReleased _ stands _ reports =>
        have here : collectionId = erasedId := by
          by_contra different
          exact erased ((stands _).mpr ⟨stood, different⟩)
        subst here
        have flushedReport : ∃ between ∈ earlier, between.id = report.id ∧
            between.Names collectionId := by
          rcases flushed with rfl | ⟨judged, verdict, _, _, rfl⟩
          · exact ⟨report, member, rfl, names⟩
          · by_cases own : report.id = judged.id
            · exact ⟨_, mem_resolved.mpr (.inr ⟨report, member, own, rfl⟩), rfl, names⟩
            · exact ⟨report, mem_resolved.mpr (.inl ⟨member, own⟩), rfl, names⟩
        rcases flushedReport with ⟨between, betweenMember, sameId, betweenNames⟩
        refine ⟨{ between with target := none }, ?_, sameId, ?_⟩
        · rw [reports]
          exact mem_unnamed.mpr (.inr ⟨between, betweenMember, betweenNames, rfl⟩)
        · intro isOpen
          have isReported := hasOpenReport_iff.mpr ⟨between, betweenMember, betweenNames, isOpen⟩
          rw [isReported] at isReleased
          contradiction
  · rw [Stands, collections] at erased
    exact absurd stood erased

/-- What the delete and the verdicts owe the moderators, over every run. -/
structure HoldsEvidence (moderation : System State Label) : Prop where
  /-- A collection its owner deleted stands only under an open report, whether or not a
  transaction is in flight. -/
  reported : ∀ {state}, moderation.Reachable state → ∀ collection ∈ state.collections,
    collection.deletedAt ≠ none →
      ∃ report ∈ state.reports, report.Names collection.id ∧ report.verdict = none
  /-- The step that erases a collection leaves no report open that named it. -/
  released : ∀ {state label next}, moderation.Reachable state → moderation.Step state label next →
    ∀ report ∈ state.reports, ∀ collectionId, report.Names collectionId →
      ¬ next.Stands (.collection collectionId) →
        ∃ after ∈ next.reports, after.id = report.id ∧ after.verdict ≠ none
  /-- What a report names stands. -/
  named : ∀ {state}, moderation.Reachable state → ∀ report ∈ state.reports, ∀ collectionId,
    report.Names collectionId → state.Stands (.collection collectionId)

/-- Every interleaving of deletes, reports and verdicts holds the evidence, and no longer. -/
theorem holdsEvidence : HoldsEvidence system where
  reported reachable collection member deleted :=
    hasOpenReport_iff.mp ((sound_of_reachable reachable).reported ⟨collection, member, rfl, deleted⟩)
  released reachable stepped _ member _ names erased :=
    resolved_of_erased (sound_of_reachable reachable) stepped member names erased
  named reachable report member _ names :=
    (sound_of_reachable reachable).foreignKey report member names

/-! ### A delete under a report, and the verdict that erases -/

namespace Reported

def owner : User := ⟨1, [], [], [], true, false, none, none, 0⟩

def start : State where
  now := 0
  users := [owner]
  collections := [⟨2, 1, none, none⟩]
  events := []
  sites := []
  reports := []
  locks := .none
  processes _ := .idle

def labels : List Label :=
  [.createCollectionReport 0 3 2 .privacy none none, .run 0, .deleteCollection 1 2 owner, .run 0,
    .run 1, .run 1, .resolveReport 0 3 .hidden 9, .run 1, .run 0, .run 0, .run 0]

/-- The delete only stamps; the verdict then takes the collection with it. -/
example : ∃ stamped erased, System.runLabels step labels start = .ok stamped ∧
    stamped.collections = [⟨2, 1, none, some 0⟩] ∧ step (.run 0) stamped = .ok erased ∧
    erased.collections = [] ∧ erased.reports.map ContentReport.target = [none] :=
  ⟨_, _, rfl, rfl, rfl, rfl, rfl⟩

end Reported

end Vidit.Reports
