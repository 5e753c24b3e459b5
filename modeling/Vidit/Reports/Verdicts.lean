import Vidit.Accounts.User
import Vidit.Library.KeyLock
import Vidit.Library.Transition

/-!
Contract: an owner's delete of a collection, the reports filed on it and the
verdicts on them, interleaved statement by statement.

A delete and a verdict lock the collection `FOR UPDATE`; a new report shares its key
with the foreign key. Nobody else reads an uncommitted row, so each transaction takes
its locks where its statements do and makes its writes where it commits.

Owns:
- `delete_collection`, `create_collection_report` and `resolve_report`;
- the system of their interleavings.

Does not own: reports filed on events and sites (a verdict on one is modelled, for
they share the queue), the audit log, the notification of the moderators, and the
items of a collection.
-/

namespace Vidit.Reports

open Vidit.Python Vidit.Accounts Vidit.Library

inductive ContentReportReason where
  | illegalContent
  | graphicNotFlagged
  | copyright
  | privacy
  | other
deriving DecidableEq, Repr

inductive ContentReportResolution where
  | markedGraphic
  | hidden
  | dismissed
deriving DecidableEq, Repr

/-- The one id a report names (`ck_content_reports_one_target`). -/
inductive ReportTarget where
  | event (eventId : Uuid)
  | collection (collectionId : Uuid)
  | site (siteId : Uuid)
deriving DecidableEq, Repr

/-- The columns a resolve writes together (`ck_content_reports_resolution_stamp`). -/
structure Verdict where
  resolution : ContentReportResolution
  resolvedAt : Instant
  resolvedById : Uuid
deriving DecidableEq, Repr

structure ContentReport where
  id : Uuid
  /-- Empty once the target is gone: each of its keys is `ON DELETE SET NULL`. -/
  target : Option ReportTarget
  reason : ContentReportReason
  details : Option Str
  reporterId : Option Uuid
  createdAt : Instant
  verdict : Option Verdict
deriving DecidableEq, Repr

structure Collection where
  id : Uuid
  ownerId : Uuid
  hiddenAt : Option Instant
  deletedAt : Option Instant
deriving DecidableEq, Repr

/-- What a verdict writes on an `events` row: the takedown, and the graphic flag of each source. -/
structure Event where
  id : Uuid
  hiddenAt : Option Instant
  isGraphic : List Bool
deriving DecidableEq, Repr

structure Site where
  id : Uuid
  hiddenAt : Option Instant
deriving DecidableEq, Repr

/-- The `code` of a refusal, or the exception a statement raises. -/
inductive ReportError where
  | collectionNotFound
  /-- `ensure_owner`. -/
  | notAuthorized
  | reportNotFound
  | reportAlreadyResolved
  | reportTargetGone
  | reportVerdictNotApplicable
  /-- A key the statement violates. -/
  | integrity
  /-- `.one()` on no row. -/
  | noResultFound
  /-- A lock wait that timed out, or a connection lost. -/
  | operational
deriving DecidableEq, Repr

/-- A row that a statement locks. -/
inductive Row where
  | report (reportId : Uuid)
  | target (target : ReportTarget)
deriving DecidableEq, Repr

/-- What a request does next. -/
inductive Process where
  | idle
  | raised (refusal : ReportError)
  /-- `delete_collection` before its `FOR UPDATE`. -/
  | lockCollection (collectionId : Uuid)
  /-- Its `_has_open_report`. -/
  | readReports (collectionId : Uuid)
  | stamp (collectionId : Uuid)
  | erase (collectionId : Uuid)
  /-- `_file_report` before its INSERT. -/
  | insertReport (report : ContentReport) (collectionId : Uuid)
  | commitReport (report : ContentReport) (collectionId : Uuid)
  /-- `resolve_report` before it locks the report. -/
  | lockReport (reportId : Uuid) (resolution : ContentReportResolution) (actorId : Uuid)
  /-- The lock on what the report names, and the refusals that follow it. -/
  | lockTarget (report : ContentReport) (resolution : ContentReportResolution) (actorId : Uuid)
  /-- The flush of the verdict, and the `_has_open_report` of `erase_if_released`. -/
  | release (report : ContentReport) (verdict : Verdict)
  | commitVerdict (report : ContentReport) (verdict : Verdict) (erases : Bool)
deriving DecidableEq, Repr

/-- The request has returned or raised. -/
def Process.ended : Process → Bool
  | .idle | .raised _ => true
  | _ => false

structure State where
  now : Instant
  users : List User
  collections : List Collection
  events : List Event
  sites : List Site
  reports : List ContentReport
  locks : KeyLocks Nat Row
  processes : Nat → Process

inductive Label where
  | tick (now : Instant)
  /-- Another session writes an account. -/
  | account (user : User)
  | deleteCollection (process : Nat) (collectionId : Uuid) (user : User)
  | createCollectionReport (process : Nat) (reportId collectionId : Uuid)
      (reason : ContentReportReason) (details : Option Str) (reporterId : Option Uuid)
  | resolveReport (process : Nat) (reportId : Uuid) (resolution : ContentReportResolution)
      (actorId : Uuid)
  | run (process : Nat)
  | fail (process : Nat)
deriving DecidableEq, Repr

/-- Why a step is not possible. -/
inductive Blocked where
  | busy
  | ended
  | rowLocked
deriving DecidableEq, Repr

/-! ### Rows -/

/-- The report names the collection. -/
def ContentReport.Names (report : ContentReport) (collectionId : Uuid) : Prop :=
  report.target = some (.collection collectionId)

instance (report : ContentReport) (collectionId : Uuid) :
    Decidable (report.Names collectionId) := by
  unfold ContentReport.Names
  infer_instance

/-- `_has_open_report`. -/
def hasOpenReport (reports : List ContentReport) (collectionId : Uuid) : Bool :=
  reports.any fun report => report.Names collectionId ∧ report.verdict = none

/-- The reports once one of them is resolved. -/
def resolved (reports : List ContentReport) (reportId : Uuid) (verdict : Verdict) :
    List ContentReport :=
  reports.map fun report =>
    if report.id = reportId then { report with verdict := some verdict } else report

/-- The reports once the collection is gone. -/
def unnamed (reports : List ContentReport) (collectionId : Uuid) : List ContentReport :=
  reports.map fun report =>
    if report.Names collectionId then { report with target := none } else report

/-- Stamp a takedown that does not stand. -/
def withheld (hiddenAt : Option Instant) (now : Instant) : Option Instant :=
  hiddenAt.orElse fun _ => some now

/-- The target a resolve locks: a collection whatever the verdict, and nothing else when it
is `dismissed`. -/
def lockedTarget (target : Option ReportTarget) (resolution : ContentReportResolution) :
    Option ReportTarget :=
  match target with
  | some (.collection collectionId) => some (.collection collectionId)
  | target => if resolution = .dismissed then none else target

/-- The verdicts a target does not take. -/
def verdictRefusal (target : Option ReportTarget) (resolution : ContentReportResolution) :
    Option ReportError :=
  if resolution = .dismissed then none
  else
    match target with
    | some (.event _) => none
    | some (.collection _) | some (.site _) =>
      if resolution = .markedGraphic then some .reportVerdictNotApplicable else none
    | none => some .reportTargetGone

namespace State

def collection? (state : State) (collectionId : Uuid) : Option Collection :=
  state.collections.find? fun collection => collection.id = collectionId

def report? (state : State) (reportId : Uuid) : Option ContentReport :=
  state.reports.find? fun report => report.id = reportId

/-- The row a target names stands. -/
def Stands (state : State) : ReportTarget → Prop
  | .event eventId => ∃ event ∈ state.events, event.id = eventId
  | .collection collectionId => ∃ collection ∈ state.collections, collection.id = collectionId
  | .site siteId => ∃ site ∈ state.sites, site.id = siteId

instance (state : State) (target : ReportTarget) : Decidable (state.Stands target) := by
  cases target <;> (unfold Stands; infer_instance)

/-- `visible_collections`. -/
def visible (state : State) (collection : Collection) : Bool :=
  collection.hiddenAt = none && collection.deletedAt = none &&
    state.users.any fun user => user.id = collection.ownerId && user.deletedAt = none

def setProcess (state : State) (process : Nat) (next : Process) : State :=
  { state with processes := Function.update state.processes process next }

/-- The transaction of a process ends: its locks go. -/
def finish (state : State) (process : Nat) (next : Process) : State :=
  { state.setProcess process next with locks := state.locks.release process }

/-! ### Deleting a collection -/

/-- `resolve_collection`, then `ensure_owned_live`. -/
def openCollection (state : State) (process : Nat) (collectionId : Uuid) (user : User) : State :=
  match state.collection? collectionId with
  | none => state.finish process (.raised .collectionNotFound)
  | some collection =>
    if ¬ (user.isAdmin ∨ state.visible collection) then
      state.finish process (.raised .collectionNotFound)
    else if collection.ownerId ≠ user.id then state.finish process (.raised .notAuthorized)
    else if collection.deletedAt ≠ none then
      state.finish process (.raised .collectionNotFound)
    else state.setProcess process (.lockCollection collectionId)

def lockCollection (state : State) (process : Nat) (collectionId : Uuid) :
    Except Blocked State :=
  match state.locks.lock? process (.target (.collection collectionId)) with
  | none => .error .rowLocked
  | some locks =>
    if state.Stands (.collection collectionId) then
      .ok { state.setProcess process (.readReports collectionId) with locks := locks }
    else .ok (state.finish process .idle)

def readReports (state : State) (process : Nat) (collectionId : Uuid) : State :=
  if hasOpenReport state.reports collectionId then
    state.setProcess process (.stamp collectionId)
  else state.setProcess process (.erase collectionId)

def stampCollection (state : State) (process : Nat) (collectionId : Uuid) : State :=
  { state.finish process .idle with
    collections := state.collections.map fun collection =>
      if collection.id = collectionId then
        { collection with deletedAt := withheld collection.deletedAt state.now }
      else collection }

/-- The DELETE, whose foreign keys empty the reports' target and wait for their locks. -/
def eraseCollection (state : State) (process : Nat) (collectionId : Uuid)
    (reports : List ContentReport) : Except Blocked State :=
  if ∀ report ∈ reports, report.Names collectionId →
      state.locks.exclusive (.report report.id) = none ∨
        state.locks.exclusive (.report report.id) = some process then
    .ok { state.finish process .idle with
          collections := state.collections.filter fun collection => collection.id ≠ collectionId
          reports := unnamed reports collectionId }
  else .error .rowLocked

/-! ### Reporting a collection -/

/-- `create_collection_report` up to its write. -/
def openReport (state : State) (process : Nat) (report : ContentReport) (collectionId : Uuid) :
    State :=
  if (state.collection? collectionId).any state.visible then
    state.setProcess process (.insertReport report collectionId)
  else state.finish process (.raised .collectionNotFound)

/-- The INSERT: the primary key waits for a like one in flight, the foreign key shares the
collection. -/
def insertReport (state : State) (process : Nat) (report : ContentReport) (collectionId : Uuid) :
    Except Blocked State :=
  match state.locks.lock? process (.report report.id) with
  | none => .error .rowLocked
  | some locks =>
    match locks.share? process (.target (.collection collectionId)) with
    | none => .error .rowLocked
    | some locks =>
      if state.report? report.id = none ∧ state.Stands (.collection collectionId) then
        .ok { state.setProcess process (.commitReport report collectionId) with locks := locks }
      else .ok (state.finish process (.raised .integrity))

def commitReport (state : State) (process : Nat) (report : ContentReport) : State :=
  { state.finish process .idle with reports := state.reports ++ [report] }

/-! ### Resolving a report -/

def lockReport (state : State) (process : Nat) (reportId : Uuid)
    (resolution : ContentReportResolution) (actorId : Uuid) : Except Blocked State :=
  match state.locks.lock? process (.report reportId) with
  | none => .error .rowLocked
  | some locks =>
    match state.report? reportId with
    | none => .ok (state.finish process (.raised .reportNotFound))
    | some report =>
      if report.verdict ≠ none then
        .ok (state.finish process (.raised .reportAlreadyResolved))
      else
        .ok { state.setProcess process (.lockTarget report resolution actorId) with
              locks := locks }

/-- The refusals once the target is locked, and the verdict. -/
def judge (state : State) (process : Nat) (report : ContentReport)
    (resolution : ContentReportResolution) (actorId : Uuid) : State :=
  match verdictRefusal report.target resolution with
  | some refusal => state.finish process (.raised refusal)
  | none => state.setProcess process (.release report ⟨resolution, state.now, actorId⟩)

def lockTarget (state : State) (process : Nat) (report : ContentReport)
    (resolution : ContentReportResolution) (actorId : Uuid) : Except Blocked State :=
  match lockedTarget report.target resolution with
  | none => .ok (state.judge process report resolution actorId)
  | some target =>
    match state.locks.lock? process (.target target) with
    | none => .error .rowLocked
    | some locks =>
      if state.Stands target then
        .ok ({ state with locks := locks }.judge process report resolution actorId)
      else .ok (state.finish process (.raised .noResultFound))

/-- Whether `erase_if_released` erases, once the verdict is flushed. -/
def erases (state : State) (report : ContentReport) (verdict : Verdict) : Bool :=
  match report.target with
  | some (.collection collectionId) =>
    (state.collections.any fun collection =>
      collection.id = collectionId && collection.deletedAt ≠ none) &&
        !hasOpenReport (resolved state.reports report.id verdict) collectionId
  | _ => false

/-- What the verdict writes on its target: `_mark_graphic`, `_set_hidden`,
`withhold_collection` or `move_site_takedown`. -/
def applyVerdict (state : State) (target : Option ReportTarget) (verdict : Verdict) : State :=
  match target, verdict.resolution with
  | some (.event eventId), .markedGraphic =>
    { state with events := state.events.map fun event =>
        if event.id = eventId then
          { event with isGraphic := event.isGraphic.map fun _ => true }
        else event }
  | some (.event eventId), .hidden =>
    { state with events := state.events.map fun event =>
        if event.id = eventId then
          { event with hiddenAt := withheld event.hiddenAt verdict.resolvedAt }
        else event }
  | some (.collection collectionId), .hidden =>
    { state with collections := state.collections.map fun collection =>
        if collection.id = collectionId then
          { collection with hiddenAt := withheld collection.hiddenAt verdict.resolvedAt }
        else collection }
  | some (.site siteId), .hidden =>
    { state with sites := state.sites.map fun site =>
        if site.id = siteId then
          { site with hiddenAt := withheld site.hiddenAt verdict.resolvedAt }
        else site }
  | _, _ => state

def commitVerdict (state : State) (process : Nat) (report : ContentReport) (verdict : Verdict)
    (erases : Bool) : Except Blocked State :=
  let reports := resolved state.reports report.id verdict
  match report.target, erases with
  | some (.collection collectionId), true => state.eraseCollection process collectionId reports
  | _, _ =>
    .ok { (state.applyVerdict report.target verdict).finish process .idle with
          reports := reports }

/-! ### The system -/

/-- The next statement of a process. -/
def run (state : State) (process : Nat) : Except Blocked State :=
  match state.processes process with
  | .idle | .raised _ => .error .ended
  | .lockCollection collectionId => state.lockCollection process collectionId
  | .readReports collectionId => .ok (state.readReports process collectionId)
  | .stamp collectionId => .ok (state.stampCollection process collectionId)
  | .erase collectionId => state.eraseCollection process collectionId state.reports
  | .insertReport report collectionId => state.insertReport process report collectionId
  | .commitReport report _ => .ok (state.commitReport process report)
  | .lockReport reportId resolution actorId =>
    state.lockReport process reportId resolution actorId
  | .lockTarget report resolution actorId => state.lockTarget process report resolution actorId
  | .release report verdict =>
    .ok (state.setProcess process
      (.commitVerdict report verdict (state.erases report verdict)))
  | .commitVerdict report verdict erases => state.commitVerdict process report verdict erases

end State

/-- A request starts on a process whose last one has ended. -/
def start (state : State) (process : Nat) (next : State) : Except Blocked State :=
  if (state.processes process).ended then .ok next else .error .busy

def step : Label → State → Except Blocked State
  | .tick now, state => .ok { state with now := now }
  | .account user, state =>
    .ok { state with users := user :: state.users.filter fun other => other.id ≠ user.id }
  | .deleteCollection process collectionId user, state =>
    start state process (state.openCollection process collectionId user)
  | .createCollectionReport process reportId collectionId reason details reporterId, state =>
    start state process (state.openReport process
      ⟨reportId, some (.collection collectionId), reason, details, reporterId, state.now, none⟩
      collectionId)
  | .resolveReport process reportId resolution actorId, state =>
    start state process (state.setProcess process (.lockReport reportId resolution actorId))
  | .run process, state => state.run process
  | .fail process, state =>
    if (state.processes process).ended then .error .ended
    else .ok (state.finish process (.raised .operational))

/-- Nobody has begun, the keys of the `content_reports` table hold, and a collection its
owner deleted is named by an open report. -/
structure Initial (state : State) : Prop where
  idle : ∀ process, state.processes process = .idle
  primaryKey : ∀ left ∈ state.reports, ∀ right ∈ state.reports, left.id = right.id → left = right
  foreignKey : ∀ report ∈ state.reports, ∀ collectionId, report.Names collectionId →
    state.Stands (.collection collectionId)
  reported : ∀ collection ∈ state.collections, collection.deletedAt ≠ none →
    hasOpenReport state.reports collection.id

def system : System State Label :=
  .ofStep Initial step

end Vidit.Reports
