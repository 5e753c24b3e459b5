import Vidit.Library.Window
import Vidit.Notifications.Sending

/-!
Contract: the daily cap on the emails of one user.

A claim counts the rows of each user that may have been sent in the last day,
through their notifications. The provider calls are logged here beside the queue.

Owns:
- the log of the provider calls of a run, with the single worker's system;
- `KeepsCap`, the cap over any trailing day, and `CapStands`, when a deletion or
  a claim keeps it;
- `keepsCap_of_capStands`, and the run that deletes a notification.

Does not own: the cap over all users.

Proof shape: a call that was not refused leaves a row that stands for it
(`Stands`), so the rows a claim counts are no fewer than the calls of the day; the
worker is alone, so the room its claim found is still there when it calls.
-/

namespace Vidit.Notifications

open Vidit.Python Vidit.Accounts Vidit.Library Vidit.Library.Window

/-- A provider call for a delivery, the `number`-th one. -/
structure Call where
  delivery : Uuid
  number : Nat
  userId : Uuid
  at' : Instant
  refused : Bool
deriving DecidableEq, Repr

/-- The queue, with every provider call so far, newest first. -/
structure CapState where
  queue : QueueState
  calls : List Call

/-- The worker a label is a step of. -/
def QueueLabel.worker? : QueueLabel → Option Nat
  | .tick _ | .emit _ _ _ _ | .unqueue _ | .erase _ => none
  | .drain worker | .expire worker _ | .expired worker | .count worker | .claim worker _
  | .finish worker | .load worker | .attempt worker _ | .answer worker _ | .land worker
  | .landFails worker | .reload worker | .recount worker | .crash worker => some worker

namespace CapState

/-- The recipient of a delivery. -/
def recipientOf (queue : QueueState) (id : Uuid) : Option Uuid :=
  (queue.rows id).bind queue.userOf

/-- The next call for a delivery. -/
def newCall (queue : QueueState) (id userId : Uuid) : Call where
  delivery := id
  number := queue.handed id + 1
  userId := userId
  at' := queue.now
  refused := false

/-- The call under way for a delivery turns out refused. -/
def refuse (queue : QueueState) (id : Uuid) (calls : List Call) : List Call :=
  calls.map fun call =>
    if call.delivery = id ∧ call.number = queue.handed id then { call with refused := true }
    else call

/-- The calls after a step of the queue. -/
def logged (settings : DeliverySettings) (label : QueueLabel) (queue : QueueState)
    (calls : List Call) : List Call :=
  match label with
  | .attempt worker reading =>
    match queue.workers worker with
    | .loaded id _ =>
      match attempt settings ((queue.rows id).bind (·.notificationId)) reading,
          recipientOf queue id with
      | .calls, some userId => newCall queue id userId :: calls
      | _, _ => calls
    | _ => calls
  | .answer worker reply =>
    match queue.workers worker with
    | .calling id _ => if answered reply = .refused then refuse queue id calls else calls
    | _ => calls
  | _ => calls

def step (settings : DeliverySettings) (label : QueueLabel) (state : CapState) :
    Except QueueBlocked CapState :=
  match QueueState.step settings label state.queue with
  | .ok queue => .ok { queue, calls := logged settings label state.queue state.calls }
  | .error refusal => .error refusal

structure Initial (state : CapState) : Prop where
  queue : state.queue.Initial
  calls : state.calls = []

end CapState

/-- Every run of emits, deletions and one worker. -/
def cappedSystem (settings : DeliverySettings) : System CapState QueueLabel :=
  (System.ofStep CapState.Initial (CapState.step settings)).restrict
    fun _ label => ∀ worker ∈ label.worker?, worker = 0

/-- The calls to a user that were not refused. -/
def callsTo (userId : Uuid) (calls : List Call) : List Call :=
  calls.filter fun call => call.userId = userId && !call.refused

/-- In no trailing day are more emails handed over for one user than the cap. -/
def KeepsCap (settings : DeliverySettings) (system : System CapState QueueLabel) : Prop :=
  ∀ ⦃state⦄, system.Reachable state → ∀ userId hour,
    trailing Call.at' capWindow hour (callsTo userId state.calls) ≤
      settings.notificationEmailDailyCapPerUser

/-- A notification is deleted only when no email of it was handed over within the day, and a
row is claimed only when every email handed over within the day has a claim within it, under
a cap that allows an email at all. -/
def CapStands (settings : DeliverySettings) (state : CapState) : QueueLabel → Prop
  | .erase notification => ∀ call ∈ state.calls, call.refused = false →
      state.queue.now - capWindow ≤ call.at' → ∀ row,
        state.queue.rows call.delivery = some row → row.notificationId ≠ some notification
  | .claim worker _ => 0 < settings.notificationEmailDailyCapPerUser ∧
      ∀ asOf, state.queue.workers worker = .counted asOf →
        ∀ call ∈ state.calls, call.refused = false → asOf - capWindow ≤ call.at' → ∀ row,
          state.queue.rows call.delivery = some row → row.status ≠ .done →
            row.claimedAt.all (asOf - capWindow ≤ ·)
  | _ => True

namespace CapState

variable {settings : DeliverySettings} {state next : CapState} {queue after : QueueState}
  {calls : List Call} {label : QueueLabel}

/-! ### Calls that were not refused -/

/-- The row of a call that was not refused still stands for it. -/
def Stands (hour : Instant) (row : NotificationDelivery) : Prop :=
  (row.status = .done ∧ ∃ sent, row.sentAt = some sent ∧ hour ≤ sent) ∨
    ((row.status = .running ∨ row.status = .failed) ∧ row.attemptCount < maxAttempts ∧
      row.claimedAt ≠ none)

theorem Stands.not_queued {hour : Instant} {row : NotificationDelivery} (stands : Stands hour row) :
    row.status ≠ .queued ∧ row.status ≠ .skipped := by
  rcases stands with ⟨status, _⟩ | ⟨status | status, _⟩ <;> rw [status] <;>
    exact ⟨by decide, by decide⟩

theorem mem_callsTo {userId : Uuid} {call : Call} :
    call ∈ callsTo userId calls ↔ call ∈ calls ∧ call.userId = userId ∧ call.refused = false := by
  unfold callsTo
  rw [List.mem_filter, Bool.and_eq_true, decide_eq_true_eq, Bool.not_eq_true']

/-- A row's notification is there. -/
def Known (queue : QueueState) : Prop :=
  ∀ id row notification, queue.rows id = some row → row.notificationId = some notification →
    queue.notifications notification ≠ none

/-- The worker is about to call with room under the cap. -/
def Ready (settings : DeliverySettings) (queue : QueueState) (calls : List Call) : Worker → Prop
  | .counted asOf => asOf ≤ queue.now
  | .claimed id | .loaded id _ => ∀ row, queue.rows id = some row →
      row.status = .running ∧ row.claimedAt ≠ none ∧ ∀ userId, queue.userOf row = some userId →
        since Call.at' (queue.now - capWindow) (callsTo userId calls) <
          settings.notificationEmailDailyCapPerUser
  | _ => True

/-- The invariant of the runs that keep the cap. -/
structure Tracked (settings : DeliverySettings) (queue : QueueState) (calls : List Call) :
    Prop where
  sound : queue.Sound
  known : Known queue
  apart : (calls.filter fun call => !call.refused).Pairwise
    fun first second => first.delivery ≠ second.delivery
  opened : ∀ call ∈ calls, call.refused = false →
    queue.refusals call.delivery < queue.handed call.delivery ∧
      call.number = queue.handed call.delivery
  stands : ∀ call ∈ calls, call.refused = false → call.at' ≤ queue.now ∧
    ∃ row, queue.rows call.delivery = some row ∧ Stands call.at' row
  linked : ∀ call ∈ calls, call.refused = false → queue.now - capWindow ≤ call.at' →
    recipientOf queue call.delivery = some call.userId
  ready : Ready settings queue calls (queue.workers 0)
  kept : ∀ userId, Kept Call.at' capWindow settings.notificationEmailDailyCapPerUser queue.now
    (callsTo userId calls)

/-- A delivery with no open call has no call that was not refused. -/
theorem Tracked.refused_of_settled (tracked : Tracked settings queue calls) {id : Uuid}
    (settled : queue.refusals id = queue.handed id) {call : Call} (member : call ∈ calls)
    (open' : call.refused = false) : call.delivery ≠ id := by
  rintro rfl
  have opened := (tracked.opened call member open').1
  omega

/-- What a step that makes no call and hears no refusal leaves of the open calls. -/
structure Carries (queue after : QueueState) (calls : List Call) : Prop where
  forward : queue.now ≤ after.now
  known : Known queue → Known after
  counts : ∀ call ∈ calls, call.refused = false →
    after.refusals call.delivery = queue.refusals call.delivery ∧
      after.handed call.delivery = queue.handed call.delivery
  row : ∀ call ∈ calls, call.refused = false → call.at' ≤ queue.now → ∀ row,
    queue.rows call.delivery = some row → Stands call.at' row →
      ∃ left, after.rows call.delivery = some left ∧ Stands call.at' left
  recipient : ∀ call ∈ calls, call.refused = false → after.now - capWindow ≤ call.at' →
    recipientOf queue call.delivery = some call.userId →
      recipientOf after call.delivery = some call.userId

theorem Carries.of_same (forward : queue.now ≤ after.now) (rows : after.rows = queue.rows)
    (notifications : after.notifications = queue.notifications)
    (handed : after.handed = queue.handed) (refusals : after.refusals = queue.refusals) :
    Carries queue after calls where
  forward := forward
  known := by
    unfold Known
    rw [rows, notifications]
    exact id
  counts := by
    intro call _ _
    rw [handed, refusals]
    exact ⟨rfl, rfl⟩
  row := by
    intro call _ _ _ row isRow stands
    exact ⟨row, by rw [rows]; exact isRow, stands⟩
  recipient := by
    intro call _ _ _ isRecipient
    unfold recipientOf QueueState.userOf at isRecipient ⊢
    rw [rows, notifications]
    exact isRecipient

/-- A step that writes one row, whose open calls it still stands for. -/
theorem Carries.of_setRow {id : Uuid} {value : Option NotificationDelivery}
    (now : after.now = queue.now) (rows : after.rows = Function.update queue.rows id value)
    (notifications : after.notifications = queue.notifications)
    (handed : after.handed = queue.handed) (refusals : after.refusals = queue.refusals)
    (written : ∀ call ∈ calls, call.refused = false → call.delivery = id →
      call.at' ≤ queue.now → ∀ row, queue.rows id = some row → Stands call.at' row →
        ∃ left, value = some left ∧ Stands call.at' left ∧
          left.notificationId = row.notificationId)
    (linked : ∀ left, value = some left → ∃ row, queue.rows id = some row ∧
      left.notificationId = row.notificationId)
    (stands : ∀ call ∈ calls, call.refused = false → call.at' ≤ queue.now ∧
      ∃ row, queue.rows call.delivery = some row ∧ Stands call.at' row) :
    Carries queue after calls where
  forward := le_of_eq now.symm
  known := by
    intro known other row notification isRow isLinked
    rw [notifications]
    rw [rows] at isRow
    by_cases here : other = id
    · subst here
      rw [Function.update_self] at isRow
      rcases linked row isRow with ⟨before, isBefore, same⟩
      exact known other before notification isBefore (same ▸ isLinked)
    · rw [Function.update_of_ne here] at isRow
      exact known other row notification isRow isLinked
  counts := by
    intro call _ _
    rw [handed, refusals]
    exact ⟨rfl, rfl⟩
  row := by
    intro call member isOpen past row isRow stands
    rw [rows]
    by_cases here : call.delivery = id
    · rw [here] at isRow ⊢
      rcases written call member isOpen here past row isRow stands with ⟨left, isLeft, still, _⟩
      exact ⟨left, by rw [Function.update_self]; exact isLeft, still⟩
    · exact ⟨row, by rw [Function.update_of_ne here]; exact isRow, stands⟩
  recipient := by
    intro call member isOpen _ isRecipient
    unfold recipientOf QueueState.userOf at isRecipient ⊢
    rw [rows, notifications]
    by_cases here : call.delivery = id
    · rcases stands call member isOpen with ⟨past, row, isRow, standing⟩
      rw [here] at isRow isRecipient ⊢
      rcases written call member isOpen here past row isRow standing with ⟨left, isLeft, _, same⟩
      rw [Function.update_self, isLeft]
      rw [isRow] at isRecipient
      simp only [Option.bind_some] at isRecipient ⊢
      rw [same]
      exact isRecipient
    · rw [Function.update_of_ne here]
      exact isRecipient

theorem Tracked.carried (tracked : Tracked settings queue calls) (sound : after.Sound)
    (carries : Carries queue after calls) (ready : Ready settings after calls (after.workers 0)) :
    Tracked settings after calls where
  sound := sound
  known := carries.known tracked.known
  apart := tracked.apart
  opened := by
    intro call member isOpen
    rcases carries.counts call member isOpen with ⟨refusals, handed⟩
    rw [refusals, handed]
    exact tracked.opened call member isOpen
  stands := by
    intro call member isOpen
    rcases tracked.stands call member isOpen with ⟨past, row, isRow, stands⟩
    exact ⟨le_trans past carries.forward, carries.row call member isOpen past row isRow stands⟩
  linked := by
    intro call member isOpen recent
    refine carries.recipient call member isOpen recent ?_
    exact tracked.linked call member isOpen
      (le_trans (Int.sub_le_sub_right carries.forward _) recent)
  ready := ready
  kept userId := (tracked.kept userId).later carries.forward

/-- A step of nobody's, after which the worker's row reads as before. -/
theorem Ready.carried {worker : Worker} (ready : Ready settings queue calls worker)
    (forward : queue.now ≤ after.now)
    (row : ∀ id, worker.holds = some id → ∀ left, after.rows id = some left →
      ∃ row, queue.rows id = some row ∧ left.status = row.status ∧
        left.claimedAt = row.claimedAt ∧ ∀ userId, after.userOf left = some userId →
          queue.userOf row = some userId) : Ready settings after calls worker := by
  have held : ∀ id, worker.holds = some id →
      (∀ row, queue.rows id = some row → row.status = .running ∧ row.claimedAt ≠ none ∧
        ∀ userId, queue.userOf row = some userId →
          since Call.at' (queue.now - capWindow) (callsTo userId calls) <
            settings.notificationEmailDailyCapPerUser) →
      ∀ left, after.rows id = some left → left.status = .running ∧ left.claimedAt ≠ none ∧
        ∀ userId, after.userOf left = some userId →
          since Call.at' (after.now - capWindow) (callsTo userId calls) <
            settings.notificationEmailDailyCapPerUser := by
    intro id holds before left isLeft
    rcases row id holds left isLeft with ⟨earlier, isEarlier, status, claimedAt, users⟩
    rcases before earlier isEarlier with ⟨running, stamped, room⟩
    refine ⟨status.trans running, claimedAt ▸ stamped, ?_⟩
    intro userId isUser
    exact lt_of_le_of_lt (since_antitone (Int.sub_le_sub_right forward _))
      (room userId (users userId isUser))
  cases worker with
  | counted asOf => exact le_trans ready forward
  | claimed id => exact held id rfl ready
  | loaded id attemptCount => exact held id rfl ready
  | _ => trivial

/-! ### Steps that start and end calls -/

/-- Marking a call refused only takes it off the open ones. -/
theorem filter_refuse_sublist (id : Uuid) {counts : Call → Bool}
    (open' : ∀ call, counts call = true → call.refused = false) (calls : List Call) :
    ((refuse queue id calls).filter counts).Sublist (calls.filter counts) := by
  unfold refuse
  induction calls with
  | nil => exact .refl _
  | cons call calls inductionHypothesis =>
      rw [List.map_cons]
      split
      · have dropped : counts { call with refused := true } = false := by
          by_contra kept
          have isOpen := open' _ (Bool.eq_true_of_not_eq_false kept)
          contradiction
        rw [List.filter_cons_of_neg (by rw [dropped]; decide)]
        exact inductionHypothesis.trans ((List.sublist_cons_self call calls).filter _)
      · rw [List.filter_cons, List.filter_cons]
        split
        · exact inductionHypothesis.cons_cons call
        · exact inductionHypothesis

theorem mem_refuse {id : Uuid} {call : Call} (member : call ∈ refuse queue id calls)
    (open' : call.refused = false) :
    call ∈ calls ∧ ¬(call.delivery = id ∧ call.number = queue.handed id) := by
  unfold refuse at member
  rw [List.mem_map] at member
  rcases member with ⟨earlier, isEarlier, rfl⟩
  split at open'
  · contradiction
  · rename_i other
    rw [if_neg other]
    exact ⟨isEarlier, other⟩

theorem Tracked.refuses (tracked : Tracked settings queue calls) {id : Uuid}
    {attemptCount : Nat} {reply : Option Nat} (refused : answered reply = .refused)
    (sound : (queue.answer 0 id attemptCount reply).Sound) :
    Tracked settings (queue.answer 0 id attemptCount reply) (refuse queue id calls) := by
  have others : ∀ {call}, call ∈ refuse queue id calls → call.refused = false →
      call ∈ calls ∧ call.delivery ≠ id := by
    intro call member open'
    rcases mem_refuse member open' with ⟨earlier, other⟩
    refine ⟨earlier, ?_⟩
    intro same
    refine other ⟨same, ?_⟩
    rw [← same]
    exact (tracked.opened call earlier open').2
  have phase : (queue.answer 0 id attemptCount reply).workers 0 =
      .landing id attemptCount (answered reply) :=
    QueueState.setWorker_self queue 0 (.landing id attemptCount (answered reply))
  refine ⟨sound, tracked.known, ?_, ?_, ?_, ?_, ?_, ?_⟩
  · exact tracked.apart.sublist (filter_refuse_sublist id (fun call isOpen =>
      (Bool.not_eq_true' _).mp isOpen) calls)
  · intro call member open'
    rcases others member open' with ⟨earlier, different⟩
    have refusals : (queue.answer 0 id attemptCount reply).refusals call.delivery =
        queue.refusals call.delivery := by
      unfold QueueState.answer
      rw [if_pos refused]
      exact Function.update_of_ne different ..
    rw [refusals]
    exact tracked.opened call earlier open'
  · intro call member open'
    exact tracked.stands call (others member open').1 open'
  · intro call member open' recent
    exact tracked.linked call (others member open').1 open' recent
  · rw [phase]
    trivial
  · intro userId
    refine (tracked.kept userId).sublist (filter_refuse_sublist id ?_ calls)
    intro call isOpen
    rw [Bool.and_eq_true, Bool.not_eq_true'] at isOpen
    exact isOpen.2

/-- The call of a claimed row, for which its claim found room. -/
theorem Tracked.starts (tracked : Tracked settings queue calls) {id userId : Uuid}
    {attemptCount : Nat} (here : queue.workers 0 = .loaded id attemptCount)
    (isRecipient : recipientOf queue id = some userId)
    (now : after.now = queue.now) (rows : after.rows = queue.rows)
    (notifications : after.notifications = queue.notifications)
    (handed : after.handed = Function.update queue.handed id (queue.handed id + 1))
    (refusals : after.refusals = queue.refusals)
    (phase : after.workers 0 = .calling id attemptCount) (sound : after.Sound) :
    Tracked settings after (newCall queue id userId :: calls) := by
  have owes := tracked.sound.owes 0
  rw [here] at owes
  rcases owes with ⟨⟨within, claimed⟩, settled, _⟩
  have different : ∀ {call}, call ∈ calls → call.refused = false → call.delivery ≠ id :=
    fun member open' => tracked.refused_of_settled settled member open'
  rcases Option.bind_eq_some_iff.mp isRecipient with ⟨row, isRow, isUser⟩
  have ready := tracked.ready
  rw [here] at ready
  rcases ready row isRow with ⟨running, stamped, room⟩
  have sameRecipient : ∀ other, recipientOf after other = recipientOf queue other := by
    intro other
    unfold recipientOf QueueState.userOf
    rw [rows, notifications]
  refine ⟨sound, ?_, ?_, ?_, ?_, ?_, ?_, ?_⟩
  · unfold Known
    rw [rows, notifications]
    exact tracked.known
  · rw [List.filter_cons_of_pos (by rfl), List.pairwise_cons]
    refine ⟨?_, tracked.apart⟩
    intro call member same
    rw [List.mem_filter, Bool.not_eq_true'] at member
    exact different member.1 member.2 same.symm
  · intro call member open'
    rw [handed, refusals]
    rcases List.mem_cons.mp member with rfl | earlier
    · show queue.refusals id < Function.update queue.handed id (queue.handed id + 1) id ∧
        queue.handed id + 1 = Function.update queue.handed id (queue.handed id + 1) id
      rw [Function.update_self, settled]
      exact ⟨Nat.lt_succ_self _, rfl⟩
    · rw [Function.update_of_ne (different earlier open')]
      exact tracked.opened call earlier open'
  · intro call member open'
    rw [now, rows]
    rcases List.mem_cons.mp member with rfl | earlier
    · refine ⟨le_refl _, row, isRow, .inr ⟨.inl running, ?_, stamped⟩⟩
      rw [(claimed row isRow).2]
      exact within
    · exact tracked.stands call earlier open'
  · intro call member open' recent
    rw [sameRecipient]
    rcases List.mem_cons.mp member with rfl | earlier
    · exact isRecipient
    · exact tracked.linked call earlier open' (now ▸ recent)
  · rw [phase]
    trivial
  · intro other
    rw [now]
    by_cases same : other = userId
    · subst same
      have cons : callsTo other (newCall queue id other :: calls) =
          newCall queue id other :: callsTo other calls := by
        unfold callsTo
        rw [List.filter_cons_of_pos]
        exact Bool.and_eq_true _ _ |>.mpr ⟨decide_eq_true rfl, rfl⟩
      rw [cons]
      exact (tracked.kept other).cons rfl (room other isUser)
    · have skip : callsTo other (newCall queue id userId :: calls) = callsTo other calls := by
        unfold callsTo
        rw [List.filter_cons_of_neg]
        rw [Bool.and_eq_true, decide_eq_true_eq]
        exact fun both => same both.1.symm
      rw [skip]
      exact tracked.kept other

/-! ### The room a claim finds -/

/-- The rows the cap counts for a user. -/
def countedRows (queue : QueueState) (asOf : Instant) (userId : Uuid) : List Uuid :=
  queue.ids.filter fun id => (queue.rows id).any fun row =>
    queue.userOf row = some userId && possiblySentSince (asOf - capWindow) row

/-- A user who is not capped has room. -/
theorem length_countedRows_lt {asOf : Instant} {userId : Uuid}
    (allows : 0 < settings.notificationEmailDailyCapPerUser)
    (uncapped : queue.capped settings asOf userId = false) :
    (countedRows queue asOf userId).length < settings.notificationEmailDailyCapPerUser := by
  unfold QueueState.capped at uncapped
  rw [Bool.and_eq_false_iff] at uncapped
  rcases uncapped with below | nobody
  · rw [decide_eq_false_iff_not, not_le] at below
    exact below
  · have empty : countedRows queue asOf userId = [] := by
      unfold countedRows
      rw [List.filter_eq_nil_iff]
      rw [List.any_eq_false] at nobody
      exact nobody
    rw [empty]
    exact allows

/-- Every call of the day is to a counted row. -/
theorem Tracked.since_lt (tracked : Tracked settings queue calls) {asOf : Instant} {userId : Uuid}
    (before : asOf ≤ queue.now) (allows : 0 < settings.notificationEmailDailyCapPerUser)
    (uncapped : queue.capped settings asOf userId = false)
    (claimedSince : ∀ call ∈ calls, call.refused = false → asOf - capWindow ≤ call.at' →
      ∀ row, queue.rows call.delivery = some row → row.status ≠ .done →
        row.claimedAt.all (asOf - capWindow ≤ ·)) :
    since Call.at' (queue.now - capWindow) (callsTo userId calls) <
      settings.notificationEmailDailyCapPerUser := by
  refine lt_of_le_of_lt ?_ (length_countedRows_lt allows uncapped)
  refine since_le_of_rows Call.delivery ?_ ?_
  · have sublist : ((callsTo userId calls).filter fun call =>
        decide (queue.now - capWindow ≤ call.at')).Sublist
          (calls.filter fun call => !call.refused) := by
      refine List.filter_sublist.trans ?_
      unfold callsTo
      refine List.monotone_filter_right calls ?_
      intro call both
      rw [Bool.and_eq_true] at both
      exact both.2
    exact tracked.apart.sublist sublist
  · intro call member recent
    rcases mem_callsTo.mp member with ⟨inLog, isUser, open'⟩
    rcases tracked.stands call inLog open' with ⟨past, row, isRow, stands⟩
    have isRecipient := tracked.linked call inLog open' recent
    unfold recipientOf at isRecipient
    rw [isRow, Option.bind_some, isUser] at isRecipient
    have young : asOf - capWindow ≤ call.at' := le_trans (Int.sub_le_sub_right before _) recent
    unfold countedRows
    rw [List.mem_filter]
    constructor
    · by_contra unknown
      rw [(tracked.sound.fresh _ unknown).1] at isRow
      contradiction
    · rw [isRow, Option.any_some, isRecipient, decide_eq_true rfl, Bool.true_and]
      unfold possiblySentSince
      rw [Bool.or_eq_true]
      rcases stands with ⟨isDone, sent, isSent, later⟩ | ⟨status, within, stamped⟩
      · refine .inl ?_
        rw [isDone, isSent]
        exact decide_eq_true (le_trans young later)
      · refine .inr ?_
        have notDone : row.status ≠ .done := by
          rcases status with status | status <;> rw [status] <;> decide
        have recentClaim := claimedSince call inLog open' young row isRow notDone
        cases isClaimed : row.claimedAt with
        | none => exact absurd isClaimed stamped
        | some hour =>
            rw [isClaimed] at recentClaim
            simp only [Option.all_some, Option.any_some] at recentClaim ⊢
            rw [recentClaim]
            simp only [Bool.and_true, Bool.and_eq_true, Bool.or_eq_true, decide_eq_true_eq]
            exact ⟨status, within⟩

/-! ### The steps of a run -/

/-- The worker moves on without a call, to a place where it owes no room. -/
theorem Tracked.moved (tracked : Tracked settings queue calls) {running : Worker}
    (sound : (queue.setWorker 0 running).Sound)
    (ready : Ready settings queue calls running) :
    Tracked settings (queue.setWorker 0 running) calls := by
  refine tracked.carried sound (.of_same (le_refl _) rfl rfl rfl rfl) ?_
  rw [QueueState.setWorker_self]
  cases running <;> exact ready

/-- The worker lands a row, and is ready for the next. -/
theorem Tracked.landed (tracked : Tracked settings queue calls) {id : Uuid}
    {row : NotificationDelivery}
    (sound : ((queue.setWorker 0 .ready).setRow id (some row)).Sound)
    (written : ∀ call ∈ calls, call.refused = false → call.delivery = id →
      call.at' ≤ queue.now → ∀ before, queue.rows id = some before → Stands call.at' before →
        ∃ left, some row = some left ∧ Stands call.at' left ∧
          left.notificationId = before.notificationId)
    (linked : ∃ before, queue.rows id = some before ∧
      row.notificationId = before.notificationId) :
    Tracked settings ((queue.setWorker 0 .ready).setRow id (some row)) calls := by
  refine tracked.carried sound
    (.of_setRow rfl rfl rfl rfl rfl written ?_ tracked.stands) ?_
  · intro left isLeft
    rw [Option.some.injEq] at isLeft
    exact isLeft ▸ linked
  have phase : ((queue.setWorker 0 .ready).setRow id (some row)).workers 0 = .ready :=
    QueueState.setWorker_self queue 0 .ready
  rw [phase]
  trivial

theorem Tracked.lands (tracked : Tracked settings queue calls) {id : Uuid} {attemptCount : Nat}
    {outcome : DeliveryOutcome} (here : queue.workers 0 = .landing id attemptCount outcome)
    (sound : (queue.land 0 id attemptCount outcome).Sound) :
    Tracked settings (queue.land 0 id attemptCount outcome) calls := by
  have owes := tracked.sound.owes 0
  rw [here] at owes
  rcases owes with ⟨⟨within, claimed⟩, _, settled⟩
  unfold QueueState.land at sound ⊢
  cases isRow : queue.rows id with
  | none =>
      rw [isRow] at sound
      simp only [QueueState.landFails] at sound ⊢
      split at sound
      · rename_i left
        rw [if_pos left]
        exact tracked.moved sound trivial
      · rename_i raised
        rw [if_neg raised]
        exact tracked.moved sound trivial
  | some row =>
      rw [isRow] at sound
      have linked : (Notifications.land queue.now attemptCount row outcome).notificationId =
          row.notificationId := by
        cases outcome <;> rfl
      refine tracked.landed sound ?_ ⟨row, isRow, linked⟩
      intro call member isOpen same past before isBefore stands
      rw [isRow, Option.some.injEq] at isBefore
      subst isBefore
      refine ⟨_, rfl, ?_⟩
      cases outcome with
      | sent => exact ⟨.inl ⟨rfl, queue.now, rfl, past⟩, rfl⟩
      | unknown => exact ⟨stands, rfl⟩
      | skipped =>
          exact absurd same (tracked.refused_of_settled (settled (.inr rfl)) member isOpen)
      | refused =>
          exact absurd same (tracked.refused_of_settled (settled (.inl rfl)) member isOpen)

/-- A claim of a row whose user has room. -/
theorem Tracked.claims (tracked : Tracked settings queue calls) {id : Uuid} {asOf : Instant}
    {row : NotificationDelivery} (here : queue.workers 0 = .counted asOf)
    (isRow : queue.rows id = some row) (claimable : queue.claimable settings asOf row = true)
    (stands : CapStands settings { queue, calls } (.claim 0 id))
    (sound : ((queue.setWorker 0 (.claimed id)).setRow id
      (some { row with status := .running, claimedAt := some asOf })).Sound) :
    Tracked settings ((queue.setWorker 0 (.claimed id)).setRow id
      (some { row with status := .running, claimedAt := some asOf })) calls := by
  rcases stands with ⟨allows, claimedSince⟩
  have before := tracked.ready
  rw [here] at before
  simp only [QueueState.claimable, Bool.and_eq_true, decide_eq_true_eq, Option.any_eq_true,
    Bool.not_eq_true'] at claimable
  rcases claimable with ⟨⟨⟨userId, isUser, uncapped⟩, queued⟩, _⟩
  have room := tracked.since_lt before allows uncapped (claimedSince asOf here)
  refine tracked.carried sound (.of_setRow rfl rfl rfl rfl rfl ?_ ?_ tracked.stands) ?_
  · intro call _ _ _ _ found isFound standing
    rw [isRow, Option.some.injEq] at isFound
    subst isFound
    exact absurd queued standing.not_queued.1
  · rintro _ ⟨⟩
    exact ⟨row, isRow, rfl⟩
  · have phase : ((queue.setWorker 0 (.claimed id)).setRow id
        (some { row with status := .running, claimedAt := some asOf })).workers 0 =
          .claimed id := QueueState.setWorker_self queue 0 (.claimed id)
    rw [phase]
    intro left isLeft
    rw [QueueState.setRow_self, Option.some.injEq] at isLeft
    subst isLeft
    refine ⟨rfl, Option.some_ne_none _, ?_⟩
    intro other isOther
    have same : userId = other := Option.some.inj (isUser.symm.trans isOther)
    exact same ▸ room

/-- An attempt calls with the room its claim found, or not at all. -/
theorem Tracked.attempts (tracked : Tracked settings queue calls) {id : Uuid}
    {attemptCount : Nat} {reading : Reading} (here : queue.workers 0 = .loaded id attemptCount)
    (sound : (queue.attempt settings 0 id attemptCount reading).Sound) :
    Tracked settings (queue.attempt settings 0 id attemptCount reading)
      (logged settings (.attempt 0 reading) queue calls) := by
  have owes := tracked.sound.owes 0
  rw [here] at owes
  have settled := owes.2.1
  simp only [logged, here]
  unfold QueueState.attempt at sound ⊢
  cases comes : Notifications.attempt settings ((queue.rows id).bind (·.notificationId)) reading with
  | raised =>
      rw [comes] at sound
      exact tracked.moved sound trivial
  | ended outcome =>
      rw [comes] at sound
      exact tracked.moved sound trivial
  | calls =>
      rw [comes] at sound
      cases isRecipient : recipientOf queue id with
      | some userId =>
          exact tracked.starts here isRecipient rfl rfl rfl rfl rfl
            (QueueState.setWorker_self queue 0 _) sound
      | none =>
          refine tracked.carried sound ⟨le_refl _, fun known => known, ?_, ?_, ?_⟩ ?_
          · intro call member isOpen
            refine ⟨rfl, Function.update_of_ne ?_ ..⟩
            exact tracked.refused_of_settled settled member isOpen
          · intro call _ _ _ row isRow stands
            exact ⟨row, isRow, stands⟩
          · intro call _ _ _ isCall
            exact isCall
          · have phase : (queue.setWorker 0 (.calling id attemptCount)).workers 0 =
                .calling id attemptCount := QueueState.setWorker_self queue 0 _
            show Ready settings _ calls ((queue.setWorker 0 (.calling id attemptCount)).workers 0)
            rw [phase]
            trivial

theorem Tracked.runs (tracked : Tracked settings queue calls)
    (mine : ∀ worker ∈ label.worker?, worker = 0)
    (stands : CapStands settings { queue, calls } label)
    (stepped : queue.runWorker settings label = .ok after) :
    Tracked settings after (logged settings label queue calls) := by
  have sound := tracked.sound.runs stepped
  cases label with
  | tick _ | emit _ _ _ _ | unqueue _ | erase _ => contradiction
  | drain worker | expired worker | finish worker =>
      cases mine worker rfl
      simp only [QueueState.runWorker] at stepped
      split at stepped
      · cases stepped
        exact tracked.moved sound trivial
      · contradiction
  | expire worker id =>
      cases mine worker rfl
      simp only [QueueState.runWorker] at stepped
      split at stepped
      · rename_i asOf row here isRow
        split at stepped
        · contradiction
        · rename_i expired isExpired
          cases stepped
          have linked : expired.notificationId = row.notificationId := by
            unfold Notifications.expire at isExpired
            split at isExpired
            · cases isExpired
              rfl
            · split at isExpired
              · cases isExpired
                rfl
              · contradiction
          refine tracked.carried sound (.of_setRow rfl rfl rfl rfl rfl ?_ ?_ tracked.stands) ?_
          · intro call _ _ _ _ before isBefore standing
            rw [isRow, Option.some.injEq] at isBefore
            subst isBefore
            refine ⟨expired, rfl, ?_⟩
            unfold Notifications.expire at isExpired
            split at isExpired
            · cases isExpired
              rename_i running
              rcases standing with ⟨isDone, _⟩ | ⟨_, rest⟩
              · rw [running.1] at isDone
                contradiction
              · exact ⟨.inr ⟨.inr rfl, rest⟩, rfl⟩
            · split at isExpired
              · rename_i queued
                exact absurd queued.1 standing.not_queued.1
              · contradiction
          · rintro _ ⟨⟩
            exact ⟨row, isRow, linked⟩
          · show Ready settings _ calls (queue.workers 0)
            rw [here]
            trivial
      · contradiction
  | count worker =>
      cases mine worker rfl
      simp only [QueueState.runWorker] at stepped
      split at stepped
      · split at stepped
        · cases stepped
          exact tracked.moved sound trivial
        · cases stepped
          exact tracked.moved sound (le_refl queue.now)
      · contradiction
  | claim worker id =>
      cases mine worker rfl
      simp only [QueueState.runWorker] at stepped
      split at stepped
      · rename_i asOf row here isRow
        split at stepped
        · rename_i claimable
          cases stepped
          exact tracked.claims here isRow claimable stands sound
        · contradiction
      · contradiction
  | load worker =>
      cases mine worker rfl
      simp only [QueueState.runWorker] at stepped
      split at stepped
      · rename_i id here
        split at stepped
        · cases stepped
          exact tracked.moved sound trivial
        · rename_i row isRow
          cases stepped
          have ready := tracked.ready
          rw [here] at ready
          exact tracked.moved sound ready
      · contradiction
  | attempt worker reading =>
      cases mine worker rfl
      simp only [QueueState.runWorker] at stepped
      split at stepped
      · rename_i id attemptCount here
        cases stepped
        exact tracked.attempts here sound
      · contradiction
  | answer worker reply =>
      cases mine worker rfl
      simp only [QueueState.runWorker] at stepped
      split at stepped
      · rename_i id attemptCount here
        cases stepped
        simp only [logged, here]
        split
        · rename_i refused
          exact tracked.refuses refused sound
        · rename_i kept
          unfold QueueState.answer at sound ⊢
          rw [if_neg kept] at sound ⊢
          exact tracked.moved sound trivial
      · contradiction
  | land worker =>
      cases mine worker rfl
      simp only [QueueState.runWorker] at stepped
      split at stepped
      · rename_i id attemptCount outcome here
        cases stepped
        exact tracked.lands here sound
      · contradiction
  | landFails worker =>
      cases mine worker rfl
      simp only [QueueState.runWorker] at stepped
      split at stepped
      · cases stepped
        unfold QueueState.landFails at sound ⊢
        split at sound
        · rename_i left
          rw [if_pos left]
          exact tracked.moved sound trivial
        · rename_i raised
          rw [if_neg raised]
          exact tracked.moved sound trivial
      · contradiction
  | reload worker =>
      cases mine worker rfl
      simp only [QueueState.runWorker] at stepped
      split at stepped
      · split at stepped
        · cases stepped
          exact tracked.moved sound trivial
        · cases stepped
          exact tracked.moved sound trivial
      · contradiction
  | recount worker =>
      cases mine worker rfl
      simp only [QueueState.runWorker] at stepped
      split at stepped
      · rename_i id attemptCount here
        have owes := tracked.sound.owes 0
        rw [here] at owes
        split at stepped
        · cases stepped
          exact tracked.moved sound trivial
        · cases stepped
          rename_i row isRow
          refine tracked.landed sound ?_ ⟨row, isRow, rfl⟩
          intro call member isOpen same
          exact absurd same (tracked.refused_of_settled owes.2.2 member isOpen)
      · contradiction
  | crash worker =>
      cases mine worker rfl
      cases stepped
      exact tracked.moved sound trivial

/-- A step of nobody's: the worker's row is as it was. -/
theorem Tracked.beside (tracked : Tracked settings queue calls) (sound : after.Sound)
    (carries : Carries queue after calls) (workers : after.workers = queue.workers)
    (row : ∀ id, (queue.workers 0).holds = some id → ∀ left, after.rows id = some left →
      ∃ row, queue.rows id = some row ∧ left.status = row.status ∧
        left.claimedAt = row.claimedAt ∧ ∀ userId, after.userOf left = some userId →
          queue.userOf row = some userId) : Tracked settings after calls := by
  refine tracked.carried sound carries ?_
  rw [workers]
  exact tracked.ready.carried carries.forward row

theorem Tracked.emits (tracked : Tracked settings queue calls) {notification userId : Uuid}
    {delivery : Option Uuid} {createdAt : Instant}
    (fresh : queue.notifications notification = none)
    (unknown : ∀ id ∈ delivery, id ∉ queue.ids)
    (sound : (queue.emit notification userId delivery createdAt).Sound) :
    Tracked settings (queue.emit notification userId delivery createdAt) calls := by
  have isId : ∀ {id row}, queue.rows id = some row → id ∈ queue.ids := by
    intro id row isRow
    by_contra missing
    rw [(tracked.sound.fresh id missing).1] at isRow
    contradiction
  have rows : ∀ {id}, id ∈ queue.ids →
      (queue.emit notification userId delivery createdAt).rows id = queue.rows id := by
    intro id member
    cases delivery with
    | none => rfl
    | some other =>
        refine Function.update_of_ne ?_ ..
        rintro rfl
        exact unknown id rfl member
  have notifications : (queue.emit notification userId delivery createdAt).notifications =
      Function.update queue.notifications notification (some userId) := by
    cases delivery <;> rfl
  have counts : (queue.emit notification userId delivery createdAt).handed = queue.handed ∧
      (queue.emit notification userId delivery createdAt).refusals = queue.refusals ∧
      (queue.emit notification userId delivery createdAt).now = queue.now ∧
      (queue.emit notification userId delivery createdAt).workers = queue.workers := by
    cases delivery <;> exact ⟨rfl, rfl, rfl, rfl⟩
  -- the notification is new, so no row's recipient changes
  have users : ∀ {id row}, queue.rows id = some row →
      (queue.emit notification userId delivery createdAt).userOf row = queue.userOf row := by
    intro id row isRow
    unfold QueueState.userOf
    cases isLinked : row.notificationId with
    | none => rfl
    | some other =>
        have different : other ≠ notification := by
          rintro rfl
          exact tracked.known id row other isRow isLinked fresh
        rw [Option.bind_some, Option.bind_some, notifications, Function.update_of_ne different]
  refine tracked.beside sound ⟨le_of_eq counts.2.2.1.symm, ?_, ?_, ?_, ?_⟩ counts.2.2.2 ?_
  · intro known id row other isRow isLinked
    rw [notifications]
    by_cases same : other = notification
    · rw [same, Function.update_self]
      exact Option.some_ne_none _
    · rw [Function.update_of_ne same]
      cases delivery with
      | none => exact known id row other isRow isLinked
      | some added =>
          by_cases isNew : id = added
          · subst isNew
            have here : (queue.emit notification userId (some id) createdAt).rows id = some _ :=
              Function.update_self ..
            rw [here, Option.some.injEq] at isRow
            rw [← isRow, Option.some.injEq] at isLinked
            exact absurd isLinked.symm same
          · have there : (queue.emit notification userId (some added) createdAt).rows id =
                queue.rows id := Function.update_of_ne isNew ..
            rw [there] at isRow
            exact known id row other isRow isLinked
  · intro call _ _
    rw [counts.1, counts.2.1]
    exact ⟨rfl, rfl⟩
  · intro call _ _ _ row isRow stands
    exact ⟨row, (rows (isId isRow)).trans isRow, stands⟩
  · intro call member isOpen _ isCall
    rcases tracked.stands call member isOpen with ⟨_, row, isRow, _⟩
    unfold recipientOf at isCall ⊢
    rw [rows (isId isRow)]
    rw [isRow, Option.bind_some] at isCall ⊢
    rw [users isRow]
    exact isCall
  · intro id holds left isLeft
    have member := tracked.sound.known 0 id holds
    rw [rows member] at isLeft
    refine ⟨left, isLeft, rfl, rfl, ?_⟩
    intro user isUser
    rw [users isLeft] at isUser
    exact isUser

theorem Tracked.unqueues (tracked : Tracked settings queue calls) {id : Uuid}
    {row : NotificationDelivery} (isRow : queue.rows id = some row)
    (unsent : row.status = .queued ∨ row.status = .skipped)
    (sound : (queue.setRow id none).Sound) : Tracked settings (queue.setRow id none) calls := by
  refine tracked.beside sound (.of_setRow rfl rfl rfl rfl rfl ?_ ?_ tracked.stands) rfl ?_
  · intro call _ _ _ _ found isFound standing
    rw [isRow, Option.some.injEq] at isFound
    subst isFound
    rcases unsent with queued | skipped
    · exact absurd queued standing.not_queued.1
    · exact absurd skipped standing.not_queued.2
  · intro left isLeft
    contradiction
  · intro other _ left isLeft
    by_cases same : other = id
    · subst same
      rw [QueueState.setRow_self] at isLeft
      contradiction
    · rw [QueueState.setRow_of_ne queue same] at isLeft
      exact ⟨left, isLeft, rfl, rfl, fun _ isUser => isUser⟩

/-- A deletion whose emails all left longer ago than the window. -/
theorem Tracked.erases (tracked : Tracked settings queue calls) {notification : Uuid}
    (stands : CapStands settings { queue, calls } (.erase notification))
    (sound : (queue.erase notification).Sound) :
    Tracked settings (queue.erase notification) calls := by
  have users : ∀ {row user}, (queue.erase notification).userOf row = some user →
      queue.userOf row = some user := by
    intro row user isUser
    unfold QueueState.userOf at isUser ⊢
    rcases Option.bind_eq_some_iff.mp isUser with ⟨other, isOther, isFound⟩
    rw [isOther, Option.bind_some]
    have different : other ≠ notification := by
      rintro rfl
      have gone : (queue.erase other).notifications other = none := Function.update_self ..
      rw [gone] at isFound
      contradiction
    exact (Function.update_of_ne different ..).symm.trans isFound
  refine tracked.beside sound ⟨le_refl _, ?_, ?_, ?_, ?_⟩ rfl ?_
  · intro known id row other isRow isLinked
    rcases Option.map_eq_some_iff.mp isRow with ⟨before, isBefore, rfl⟩
    split at isLinked
    · contradiction
    · rename_i kept
      have different : other ≠ notification := fun same => kept (same ▸ isLinked)
      have there : (queue.erase notification).notifications other =
          queue.notifications other := Function.update_of_ne different ..
      rw [there]
      exact known id before other isBefore isLinked
  · intro call _ _
    exact ⟨rfl, rfl⟩
  · intro call _ _ _ row isRow standing
    refine ⟨_, by
      show (queue.rows call.delivery).map _ = _
      rw [isRow, Option.map_some], ?_⟩
    split
    · exact standing
    · exact standing
  · intro call member isOpen recent isCall
    rcases Option.bind_eq_some_iff.mp isCall with ⟨row, isRow, isUser⟩
    have kept := stands call member isOpen recent row isRow
    have there : (queue.erase notification).rows call.delivery = some row := by
      show (queue.rows call.delivery).map _ = _
      rw [isRow, Option.map_some, if_neg kept]
    unfold recipientOf
    rw [there, Option.bind_some]
    unfold QueueState.userOf at isUser ⊢
    rcases Option.bind_eq_some_iff.mp isUser with ⟨other, isOther, isFound⟩
    rw [isOther, Option.bind_some]
    have different : other ≠ notification := fun same => kept (same ▸ isOther)
    exact (Function.update_of_ne different ..).trans isFound
  · intro id _ left isLeft
    rcases Option.map_eq_some_iff.mp isLeft with ⟨before, isBefore, rfl⟩
    refine ⟨before, isBefore, ?_, ?_, ?_⟩
    · split <;> rfl
    · split <;> rfl
    · intro user isUser
      split at isUser
      · contradiction
      · exact users isUser

theorem Tracked.step (tracked : Tracked settings queue calls)
    (mine : ∀ worker ∈ label.worker?, worker = 0)
    (stands : CapStands settings { queue, calls } label)
    (stepped : queue.step settings label = .ok after) :
    Tracked settings after (logged settings label queue calls) := by
  have sound := tracked.sound.step stepped
  unfold QueueState.step at stepped
  split at stepped
  · split at stepped
    · contradiction
    · rename_i forward
      cases stepped
      exact tracked.beside sound (.of_same (not_lt.mp forward) rfl rfl rfl rfl) rfl
        (fun id _ left isLeft => ⟨left, isLeft, rfl, rfl, fun _ isUser => isUser⟩)
  · split at stepped
    · contradiction
    · rename_i fresh
      cases stepped
      rw [not_or, not_or, not_not] at fresh
      refine tracked.emits fresh.1 ?_ sound
      intro id member known
      exact fresh.2.1 ⟨id, member, known⟩
  · split at stepped
    · contradiction
    · rename_i row isRow
      split at stepped
      · rename_i unsent
        cases stepped
        exact tracked.unqueues isRow unsent.2 sound
      · contradiction
  · cases stepped
    exact tracked.erases stands sound
  · exact tracked.runs mine stands stepped

theorem Initial.tracked (initial : state.Initial) : Tracked settings state.queue state.calls := by
  have empty : ∀ {call : Call}, call ∉ state.calls := by
    intro call member
    rw [initial.calls] at member
    exact absurd member List.not_mem_nil
  refine ⟨initial.queue.sound, ?_, ?_, ?_, ?_, ?_, ?_, ?_⟩
  · intro id row notification isRow
    rw [initial.queue.rows] at isRow
    contradiction
  · rw [initial.calls]
    exact .nil
  · exact fun call member => absurd member empty
  · exact fun call member => absurd member empty
  · exact fun call member => absurd member empty
  · rw [initial.queue.workers]
    trivial
  · intro userId
    rw [initial.calls]
    exact .nil

/-- The invariant over the states of the capped system. -/
def Tracks (settings : DeliverySettings) (state : CapState) : Prop :=
  Tracked settings state.queue state.calls

theorem tracks_of_reachable
    (reachable : ((cappedSystem settings).restrict (CapStands settings)).Reachable state) :
    Tracks settings state := by
  refine System.Reachable.invariant ?_ ?_ reachable
  · intro start initial
    exact Initial.tracked initial
  · rintro before label after tracked ⟨stands, mine, stepped⟩
    have ran : CapState.step settings label before = .ok after := stepped
    unfold CapState.step at ran
    split at ran
    · rename_i queue isQueue
      cases ran
      exact Tracked.step tracked mine stands isQueue
    · contradiction

end CapState

open CapState

/-- Where deletions and claims leave the day's emails counted, the cap holds in every trailing
day. -/
theorem keepsCap_of_capStands (settings : DeliverySettings) :
    KeepsCap settings ((cappedSystem settings).restrict (CapStands settings)) := by
  intro state reachable userId hour
  exact ((tracks_of_reachable reachable).kept userId).within hour

/-! ### A deletion between two sends -/

namespace Erasure

def settings : DeliverySettings where
  emailProvider := .resend
  resendApiKey := str "k"
  notificationEmailDailyCap := 50
  notificationEmailDailyCapPerUser := 10

def start : CapState where
  queue :=
    { now := 0, notifications := fun _ => none, ids := [], rows := fun _ => none
      workers := fun _ => .idle, handed := fun _ => 0, refusals := fun _ => 0 }
  calls := []

def recipient : User where
  id := 1
  username := str "osint"
  email := str "osint@x.org"
  passwordHash := str "h"
  isActive := true
  isAdmin := false
  lastSeenAt := none
  deletedAt := none
  tokenVersion := 0

def reading : Reading where
  recipient := some recipient
  emailEnabled := true
  isVisible := true
  composes := true

/-- A notification is emitted, and its email sent. -/
def sends (notification : Uuid) : List QueueLabel :=
  [.emit notification recipient.id (some notification) 0, .count 0, .claim 0 notification, .load 0,
    .attempt 0 reading, .answer 0 (some 200), .land 0]

/-- Ten emails, a deletion, and the eleventh email. -/
def run : List QueueLabel :=
  [.drain 0, .expired 0] ++ (List.range' 10 10).flatMap sends ++ [.erase 10] ++ sends 20

theorem start_initial : start.Initial :=
  ⟨⟨rfl, fun _ => rfl, fun _ => rfl, fun _ => rfl, fun _ => rfl⟩, rfl⟩

theorem run_runs : ∃ final, System.runLabels (CapState.step settings) run start = .ok final ∧
    trailing Call.at' capWindow 0 (callsTo recipient.id final.calls) = 11 :=
  ⟨_, rfl, rfl⟩

theorem run_mine : ∀ label ∈ run, ∀ worker ∈ label.worker?, worker = 0 := by
  decide

/-- The claim fails: the user deletes a notification, and the cap forgets its email. -/
theorem keepsCap_fails : ¬ KeepsCap settings (cappedSystem settings) := by
  intro keeps
  rcases run_runs with ⟨final, computed, count⟩
  have reachable : (cappedSystem settings).Reachable final :=
    ⟨start, start_initial,
      System.Run.restrict_of_runLabels (fun label member _ => run_mine label member) computed⟩
  have within := keeps reachable recipient.id 0
  rw [count] at within
  exact absurd within (by decide)

end Erasure

end Vidit.Notifications
