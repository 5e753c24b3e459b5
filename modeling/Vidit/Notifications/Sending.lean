import Vidit.Notifications.Delivery

/-!
Contract: a delivery never reaches the provider twice after a possible send.

Owns:
- what a worker owes on the row it has claimed (`Owes`), and the invariant of
  every run (`Sound`);
- `sendsOnce`, that only refused calls are ever repeated, up to the limit.

Proof shape: a row leaves `queued` only into one worker's hands and comes back
only with its last call refused; the others only let a row fade (`Fades`).
-/

namespace Vidit.Notifications

open Vidit.Python Vidit.Accounts Vidit.Library

namespace NotificationDelivery

/-- A row as the steps of the others leave it: no attempt is forgotten, and no
row comes back into the queue. -/
structure Fades (before after : NotificationDelivery) : Prop where
  attempts : after.attemptCount = before.attemptCount
  queued : after.status = .queued → before.status = .queued

theorem Fades.refl (row : NotificationDelivery) : row.Fades row :=
  ⟨rfl, id⟩

theorem Fades.expire {asOf : Instant} {row after : NotificationDelivery}
    (expired : Notifications.expire asOf row = some after) : row.Fades after := by
  unfold Notifications.expire at expired
  split at expired
  · cases expired
    exact ⟨rfl, fun queued => by contradiction⟩
  · split at expired
    · cases expired
      exact ⟨rfl, fun queued => by contradiction⟩
    · contradiction

end NotificationDelivery

namespace QueueState

open NotificationDelivery

/-- Every call for the delivery was refused, and counted. -/
def Settled (state : QueueState) (id : Uuid) (attemptCount : Nat) : Prop :=
  state.refusals id = state.handed id ∧ state.handed id ≤ attemptCount ∧
    attemptCount < maxAttempts

/-- The delivery is out of the queue, with the attempts its worker read. -/
def Claimed (state : QueueState) (id : Uuid) (attemptCount : Nat) : Prop :=
  attemptCount < maxAttempts ∧ ∀ row, state.rows id = some row →
    row.status ≠ .queued ∧ row.attemptCount = attemptCount

/-- What is true of the calls for a row while a worker has it in hand. -/
def Owes (state : QueueState) : Worker → Prop
  | .claimed id => ∃ attemptCount, state.Claimed id attemptCount ∧ state.Settled id attemptCount
  | .loaded id attemptCount => state.Claimed id attemptCount ∧ state.Settled id attemptCount
  | .calling id attemptCount => state.Claimed id attemptCount ∧
      state.refusals id + 1 = state.handed id ∧ state.handed id ≤ attemptCount + 1
  | .landing id attemptCount outcome => state.Claimed id attemptCount ∧
      state.handed id ≤ attemptCount + 1 ∧
      (outcome = .refused ∨ outcome = .skipped → state.refusals id = state.handed id)
  | .raised id => ∃ attemptCount, state.Claimed id attemptCount ∧
      state.handed id ≤ attemptCount + 1 ∧ state.refusals id = state.handed id
  | .counting id attemptCount => state.Claimed id attemptCount ∧
      state.handed id ≤ attemptCount + 1 ∧ state.refusals id = state.handed id
  | .idle | .expiring _ | .ready | .counted _ => True

/-- The invariant of every run. -/
structure Sound (state : QueueState) : Prop where
  fresh : ∀ id ∉ state.ids, state.rows id = none ∧ state.handed id = 0 ∧ state.refusals id = 0
  known : ∀ worker id, (state.workers worker).holds = some id → id ∈ state.ids
  one : ∀ worker other id, (state.workers worker).holds = some id →
    (state.workers other).holds = some id → worker = other
  queued : ∀ id row, state.rows id = some row → row.status = .queued →
    state.Settled id row.attemptCount
  limit : ∀ id, state.handed id ≤ maxAttempts
  owes : ∀ worker, state.Owes (state.workers worker)

variable {state next : QueueState}

/-! ### What the others leave -/

/-- A row as a worker that holds it finds it after a step of the others. -/
structure Keeps (state next : QueueState) (id : Uuid) : Prop where
  row : ∀ {after}, next.rows id = some after → ∃ row, state.rows id = some row ∧ row.Fades after
  handed : next.handed id = state.handed id
  refusals : next.refusals id = state.refusals id

theorem Keeps.of_same {id : Uuid} (rows : next.rows id = state.rows id)
    (handed : next.handed id = state.handed id)
    (refusals : next.refusals id = state.refusals id) : Keeps state next id :=
  ⟨fun {after} isAfter => ⟨after, rows ▸ isAfter, .refl after⟩, handed, refusals⟩

theorem Keeps.settled {id : Uuid} (keeps : Keeps state next id) {attemptCount : Nat}
    (settled : state.Settled id attemptCount) : next.Settled id attemptCount := by
  unfold Settled
  rw [keeps.handed, keeps.refusals]
  exact settled

theorem Keeps.claimed {id : Uuid} (keeps : Keeps state next id) {attemptCount : Nat}
    (claimed : state.Claimed id attemptCount) : next.Claimed id attemptCount := by
  refine ⟨claimed.1, ?_⟩
  intro after isAfter
  rcases keeps.row isAfter with ⟨row, isRow, fades⟩
  rcases claimed.2 row isRow with ⟨unqueued, attempts⟩
  exact ⟨fun queued => unqueued (fades.queued queued), fades.attempts.trans attempts⟩

theorem Keeps.owes {running : Worker} (owes : state.Owes running)
    (keeps : ∀ id, running.holds = some id → Keeps state next id) : next.Owes running := by
  cases running with
  | idle | expiring _ | ready | counted _ => trivial
  | claimed id =>
      rcases owes with ⟨attemptCount, claimed, settled⟩
      exact ⟨attemptCount, (keeps id rfl).claimed claimed, (keeps id rfl).settled settled⟩
  | loaded id attemptCount =>
      exact ⟨(keeps id rfl).claimed owes.1, (keeps id rfl).settled owes.2⟩
  | calling id attemptCount =>
      refine ⟨(keeps id rfl).claimed owes.1, ?_⟩
      rw [(keeps id rfl).handed, (keeps id rfl).refusals]
      exact owes.2
  | landing id attemptCount outcome =>
      refine ⟨(keeps id rfl).claimed owes.1, ?_⟩
      rw [(keeps id rfl).handed, (keeps id rfl).refusals]
      exact owes.2
  | raised id =>
      rcases owes with ⟨attemptCount, claimed, owed⟩
      refine ⟨attemptCount, (keeps id rfl).claimed claimed, ?_⟩
      rw [(keeps id rfl).handed, (keeps id rfl).refusals]
      exact owed
  | counting id attemptCount =>
      refine ⟨(keeps id rfl).claimed owes.1, ?_⟩
      rw [(keeps id rfl).handed, (keeps id rfl).refusals]
      exact owes.2

/-- A row in a worker's hands is out of the queue. -/
theorem Owes.unqueued {running : Worker} (owes : state.Owes running) {id : Uuid}
    (holds : running.holds = some id) {row : NotificationDelivery}
    (isRow : state.rows id = some row) : row.status ≠ .queued := by
  cases running with
  | idle | expiring _ | ready | counted _ => contradiction
  | claimed other | raised other =>
      cases holds
      rcases owes with ⟨_, claimed, _⟩
      exact (claimed.2 row isRow).1
  | loaded other _ | calling other _ | landing other _ _ | counting other _ =>
      cases holds
      exact (owes.1.2 row isRow).1

/-! ### Steps beside the workers -/

/-- Rows fade, and no call starts or ends. -/
theorem Sound.fades (sound : state.Sound) (ids : next.ids = state.ids)
    (workers : next.workers = state.workers) (keeps : ∀ id, Keeps state next id) :
    next.Sound := by
  refine ⟨?_, ?_, ?_, ?_, ?_, ?_⟩
  · intro id unknown
    rw [ids] at unknown
    rcases sound.fresh id unknown with ⟨absent, handed, refusals⟩
    refine ⟨?_, (keeps id).handed.trans handed, (keeps id).refusals.trans refusals⟩
    cases row : next.rows id with
    | none => rfl
    | some after =>
        rcases (keeps id).row row with ⟨before, isBefore, _⟩
        rw [absent] at isBefore
        contradiction
  · rw [ids, workers]
    exact sound.known
  · rw [workers]
    exact sound.one
  · intro id after isAfter queued
    rcases (keeps id).row isAfter with ⟨row, isRow, fades⟩
    rw [fades.attempts]
    exact (keeps id).settled (sound.queued id row isRow (fades.queued queued))
  · intro id
    rw [(keeps id).handed]
    exact sound.limit id
  · intro worker
    rw [workers]
    exact Keeps.owes (sound.owes worker) fun id _ => keeps id

theorem setRow_self (state : QueueState) (id : Uuid) (row : Option NotificationDelivery) :
    (state.setRow id row).rows id = row :=
  Function.update_self ..

theorem setRow_of_ne (state : QueueState) {id other : Uuid} (different : other ≠ id)
    (row : Option NotificationDelivery) : (state.setRow id row).rows other = state.rows other :=
  Function.update_of_ne different ..

theorem keeps_setRow {id : Uuid} {value : Option NotificationDelivery}
    (fades : ∀ after, value = some after → ∃ row, state.rows id = some row ∧ row.Fades after)
    (other : Uuid) : Keeps state (state.setRow id value) other := by
  refine ⟨?_, rfl, rfl⟩
  intro after isAfter
  by_cases here : other = id
  · subst here
    rw [setRow_self] at isAfter
    exact fades after isAfter
  · rw [setRow_of_ne state here] at isAfter
    exact ⟨after, isAfter, .refl after⟩

theorem keeps_erase (notification delivery : Uuid) :
    Keeps state (state.erase notification) delivery := by
  refine ⟨?_, rfl, rfl⟩
  intro after isAfter
  rcases Option.map_eq_some_iff.mp isAfter with ⟨row, isRow, rfl⟩
  refine ⟨row, isRow, ?_⟩
  split
  · exact ⟨rfl, id⟩
  · exact .refl row

/-- A delivery under a fresh id waits with no call made. -/
theorem Sound.emit (sound : state.Sound) (notification userId : Uuid) {delivery : Option Uuid}
    (createdAt : Instant) (fresh : ∀ id ∈ delivery, id ∉ state.ids) :
    (state.emit notification userId delivery createdAt).Sound := by
  cases delivery with
  | none => exact sound.fades rfl rfl fun _ => .of_same rfl rfl rfl
  | some id =>
      have unknown : id ∉ state.ids := fresh id rfl
      rcases sound.fresh id unknown with ⟨absent, handed, refusals⟩
      have elsewhere : ∀ {other}, other ≠ id →
          (state.emit notification userId (some id) createdAt).rows other = state.rows other :=
        fun different => Function.update_of_ne different ..
      have here : (state.emit notification userId (some id) createdAt).rows id = some _ :=
        Function.update_self ..
      refine ⟨?_, ?_, sound.one, ?_, sound.limit, ?_⟩
      · intro other missing
        have different : other ≠ id := fun same => missing (same ▸ List.mem_cons_self)
        rw [elsewhere different]
        exact sound.fresh other fun member => missing (List.mem_cons_of_mem _ member)
      · intro worker other holds
        exact List.mem_cons_of_mem _ (sound.known worker other holds)
      · intro other row isRow queued
        by_cases same : other = id
        · subst same
          rw [here] at isRow
          cases isRow
          refine ⟨?_, ?_, Nat.zero_lt_succ 2⟩
          · show state.refusals other = state.handed other
            rw [handed, refusals]
          · exact Nat.le_of_eq handed
        · rw [elsewhere same] at isRow
          exact sound.queued other row isRow queued
      · intro worker
        refine Keeps.owes (sound.owes worker) ?_
        intro other holds
        have different : other ≠ id := by
          rintro rfl
          exact unknown (sound.known worker other holds)
        exact .of_same (elsewhere different) rfl rfl

/-! ### Steps of a worker -/

/-- A worker touches only the row it holds after the step, or held before. -/
theorem Sound.acts (sound : state.Sound) (worker : Nat) (ids : next.ids = state.ids)
    (others : ∀ other, other ≠ worker → next.workers other = state.workers other)
    (holds : ∀ id, (next.workers worker).holds = some id → id ∈ state.ids ∧
      ∀ other, other ≠ worker → (state.workers other).holds ≠ some id)
    (keeps : ∀ other, other ≠ worker → ∀ id, (state.workers other).holds = some id →
      Keeps state next id)
    (fresh : ∀ id ∉ state.ids, next.rows id = none ∧ next.handed id = 0 ∧ next.refusals id = 0)
    (queued : ∀ id row, next.rows id = some row → row.status = .queued →
      next.Settled id row.attemptCount)
    (limit : ∀ id, next.handed id ≤ maxAttempts)
    (owes : next.Owes (next.workers worker)) : next.Sound := by
  refine ⟨ids ▸ fresh, ?_, ?_, queued, limit, ?_⟩
  · intro other id held
    rw [ids]
    by_cases mine : other = worker
    · subst mine
      exact (holds id held).1
    · rw [others other mine] at held
      exact sound.known other id held
  · intro left right id leftHolds rightHolds
    by_cases leftMine : left = worker <;> by_cases rightMine : right = worker
    · rw [leftMine, rightMine]
    · subst leftMine
      rw [others right rightMine] at rightHolds
      exact absurd rightHolds ((holds id leftHolds).2 right rightMine)
    · subst rightMine
      rw [others left leftMine] at leftHolds
      exact absurd leftHolds ((holds id rightHolds).2 left leftMine)
    · rw [others left leftMine] at leftHolds
      rw [others right rightMine] at rightHolds
      exact sound.one left right id leftHolds rightHolds
  · intro other
    by_cases mine : other = worker
    · subst mine
      exact owes
    · rw [others other mine]
      exact Keeps.owes (sound.owes other) (keeps other mine)

theorem setWorker_self (state : QueueState) (worker : Nat) (running : Worker) :
    (state.setWorker worker running).workers worker = running :=
  Function.update_self ..

theorem setWorker_of_ne (state : QueueState) {worker other : Nat} (different : other ≠ worker)
    (running : Worker) : (state.setWorker worker running).workers other = state.workers other :=
  Function.update_of_ne different ..

/-- A worker moves on without a write. -/
theorem Sound.moves (sound : state.Sound) (worker : Nat) {running : Worker}
    (holds : ∀ id, running.holds = some id → (state.workers worker).holds = some id)
    (owes : state.Owes running) : (state.setWorker worker running).Sound := by
  refine sound.acts worker rfl (fun other different => setWorker_of_ne state different running)
    ?_ (fun _ _ _ _ => .of_same rfl rfl rfl) sound.fresh
    sound.queued sound.limit ?_
  · intro id held
    rw [setWorker_self] at held
    refine ⟨sound.known worker id (holds id held), ?_⟩
    intro other different otherHolds
    exact different (sound.one other worker id otherHolds (holds id held))
  · rw [setWorker_self]
    cases running <;> exact owes

/-- A worker writes the row it holds, and lets go of it. -/
theorem Sound.lands (sound : state.Sound) (worker : Nat) {id : Uuid}
    (holds : (state.workers worker).holds = some id) {row : NotificationDelivery}
    (settled : row.status = .queued → state.Settled id row.attemptCount) :
    ((state.setWorker worker .ready).setRow id (some row)).Sound := by
  have elsewhere : ∀ {other}, other ≠ id →
      ((state.setWorker worker .ready).setRow id (some row)).rows other = state.rows other :=
    fun different => Function.update_of_ne different ..
  have here : ((state.setWorker worker .ready).setRow id (some row)).rows id = some row :=
    Function.update_self ..
  have now : ((state.setWorker worker .ready).setRow id (some row)).workers worker = .ready :=
    setWorker_self state worker .ready
  refine sound.acts worker rfl (fun other different => setWorker_of_ne state different .ready)
    ?_ ?_ ?_ ?_ sound.limit ?_
  · intro other held
    rw [now] at held
    contradiction
  · intro other different otherId otherHolds
    have apart : otherId ≠ id := by
      rintro rfl
      exact different (sound.one other worker otherId otherHolds holds)
    exact .of_same (elsewhere apart) rfl rfl
  · intro other unknown
    have apart : other ≠ id := by
      rintro rfl
      exact unknown (sound.known worker other holds)
    rw [elsewhere apart]
    exact sound.fresh other unknown
  · intro other after isAfter queued
    by_cases same : other = id
    · subst same
      rw [here] at isAfter
      cases isAfter
      exact settled queued
    · rw [elsewhere same] at isAfter
      exact sound.queued other after isAfter queued
  · rw [now]
    trivial

/-- A claim takes a queued row nobody holds. -/
theorem Sound.claims (sound : state.Sound) (worker : Nat) {id : Uuid}
    {row : NotificationDelivery} (isRow : state.rows id = some row)
    (queued : row.status = .queued) (asOf : Instant) :
    ((state.setWorker worker (.claimed id)).setRow id
      (some { row with status := .running, claimedAt := some asOf })).Sound := by
  have settled := sound.queued id row isRow queued
  -- a row in somebody's hands is out of the queue
  have free : ∀ other, (state.workers other).holds ≠ some id := by
    intro other holds
    exact (sound.owes other).unqueued holds isRow queued
  have known : id ∈ state.ids := by
    by_contra unknown
    rw [(sound.fresh id unknown).1] at isRow
    contradiction
  have elsewhere : ∀ {other}, other ≠ id → ((state.setWorker worker (.claimed id)).setRow id
      (some { row with status := .running, claimedAt := some asOf })).rows other =
        state.rows other :=
    fun different => Function.update_of_ne different ..
  have here : ((state.setWorker worker (.claimed id)).setRow id
      (some { row with status := .running, claimedAt := some asOf })).rows id = some _ :=
    Function.update_self ..
  have now : ((state.setWorker worker (.claimed id)).setRow id
      (some { row with status := .running, claimedAt := some asOf })).workers worker =
        .claimed id :=
    setWorker_self state worker (.claimed id)
  refine sound.acts worker rfl
    (fun other different => setWorker_of_ne state different (.claimed id)) ?_ ?_ ?_ ?_
    sound.limit ?_
  · intro other held
    rw [now] at held
    cases held
    exact ⟨known, fun holder _ => free holder⟩
  · intro other _ otherId otherHolds
    have apart : otherId ≠ id := by
      rintro rfl
      exact free other otherHolds
    exact .of_same (elsewhere apart) rfl rfl
  · intro other unknown
    have apart : other ≠ id := by
      rintro rfl
      exact unknown known
    rw [elsewhere apart]
    exact sound.fresh other unknown
  · intro other after isAfter stillQueued
    by_cases same : other = id
    · subst same
      rw [here] at isAfter
      cases isAfter
      contradiction
    · rw [elsewhere same] at isAfter
      exact sound.queued other after isAfter stillQueued
  · rw [now]
    refine ⟨row.attemptCount, ⟨settled.2.2, ?_⟩, settled⟩
    intro after isAfter
    rw [here] at isAfter
    cases isAfter
    exact ⟨by simp, rfl⟩

/-- A call that starts or ends counts for its own row only. -/
theorem Sound.calls (sound : state.Sound) (worker : Nat) {id : Uuid} (running : Worker)
    (holds : (state.workers worker).holds = some id) (stays : running.holds = some id)
    (ids : next.ids = state.ids) (rows : next.rows = state.rows)
    (workers : next.workers = Function.update state.workers worker running)
    (counts : ∀ other, other ≠ id → next.handed other = state.handed other ∧
      next.refusals other = state.refusals other)
    (limit : next.handed id ≤ maxAttempts) (owes : next.Owes running) : next.Sound := by
  have now : next.workers worker = running := by
    rw [workers]
    exact Function.update_self ..
  have keeps : ∀ {other}, other ≠ id → Keeps state next other := by
    intro other apart
    exact .of_same (by rw [rows]) (counts other apart).1 (counts other apart).2
  refine sound.acts worker ids ?_ ?_ ?_ ?_ ?_ ?_ ?_
  · intro other different
    rw [workers]
    exact Function.update_of_ne different ..
  · intro other held
    rw [now, stays] at held
    cases held
    refine ⟨sound.known worker id holds, ?_⟩
    intro holder different otherHolds
    exact different (sound.one holder worker id otherHolds holds)
  · intro other different otherId otherHolds
    refine keeps ?_
    rintro rfl
    exact different (sound.one other worker otherId otherHolds holds)
  · intro other unknown
    have apart : other ≠ id := by
      rintro rfl
      exact unknown (sound.known worker other holds)
    rw [rows, (counts other apart).1, (counts other apart).2]
    exact sound.fresh other unknown
  · intro other row isRow queued
    rw [rows] at isRow
    have apart : other ≠ id := by
      rintro rfl
      exact (sound.owes worker).unqueued holds isRow queued
    exact (keeps apart).settled (sound.queued other row isRow queued)
  · intro other
    by_cases same : other = id
    · rw [same]
      exact limit
    · rw [(counts other same).1]
      exact sound.limit other
  · rw [now]
    exact owes

theorem Sound.attempt (sound : state.Sound) (settings : DeliverySettings) {worker : Nat}
    {id : Uuid} {attemptCount : Nat} (here : state.workers worker = .loaded id attemptCount)
    (reading : Reading) :
    (state.attempt settings worker id attemptCount reading).Sound := by
  have owed := sound.owes worker
  rw [here] at owed
  rcases owed with ⟨claimed, refused, counted, below⟩
  have holds : (state.workers worker).holds = some id := by
    rw [here]
    rfl
  unfold QueueState.attempt
  split
  · refine sound.moves worker (fun other held => held ▸ holds) ?_
    exact ⟨attemptCount, claimed, Nat.le_succ_of_le counted, refused⟩
  · refine sound.moves worker (fun other held => held ▸ holds) ?_
    exact ⟨claimed, Nat.le_succ_of_le counted, fun _ => refused⟩
  · have handed : Function.update state.handed id (state.handed id + 1) id =
        state.handed id + 1 :=
      Function.update_self ..
    refine sound.calls worker (.calling id attemptCount) holds rfl rfl rfl rfl ?_ ?_ ?_
    · intro other apart
      exact ⟨Function.update_of_ne apart .., rfl⟩
    · show Function.update state.handed id (state.handed id + 1) id ≤ maxAttempts
      rw [handed]
      omega
    · refine ⟨claimed, ?_, ?_⟩
      · show state.refusals id + 1 = Function.update state.handed id (state.handed id + 1) id
        rw [handed, refused]
      · show Function.update state.handed id (state.handed id + 1) id ≤ attemptCount + 1
        rw [handed]
        omega

theorem Sound.answer (sound : state.Sound) {worker : Nat} {id : Uuid} {attemptCount : Nat}
    (here : state.workers worker = .calling id attemptCount) (reply : Option Nat) :
    (state.answer worker id attemptCount reply).Sound := by
  have owed := sound.owes worker
  rw [here] at owed
  rcases owed with ⟨claimed, open', counted⟩
  have holds : (state.workers worker).holds = some id := by
    rw [here]
    rfl
  unfold QueueState.answer
  refine sound.calls worker (.landing id attemptCount (answered reply)) holds rfl rfl rfl rfl
    ?_ (sound.limit id) ⟨claimed, counted, ?_⟩
  · intro other apart
    refine ⟨rfl, ?_⟩
    dsimp only
    split
    · exact Function.update_of_ne apart ..
    · rfl
  · intro known
    have refused : answered reply = .refused := by
      rcases known with refused | skipped
      · exact refused
      · unfold answered at skipped
        split at skipped
        · contradiction
        · split at skipped <;> contradiction
    dsimp only
    rw [if_pos refused]
    exact (Function.update_self ..).trans open'

theorem Sound.landFails (sound : state.Sound) {worker : Nat} {id : Uuid} {attemptCount : Nat}
    {outcome : DeliveryOutcome}
    (here : state.workers worker = .landing id attemptCount outcome) :
    (state.landFails worker id outcome).Sound := by
  have owed := sound.owes worker
  rw [here] at owed
  rcases owed with ⟨claimed, counted, refused⟩
  unfold QueueState.landFails
  split
  · exact sound.moves worker (fun _ held => by contradiction) trivial
  · rename_i certain
    refine sound.moves worker (fun other held => ?_) ⟨attemptCount, claimed, counted, ?_⟩
    · rw [here]
      exact held
    · cases outcome with
      | sent => exact absurd (.inl rfl) certain
      | skipped => exact refused (.inr rfl)
      | refused => exact refused (.inl rfl)
      | unknown => exact absurd (.inr rfl) certain

/-- A counted refusal settles the row it puts back into the queue. -/
theorem settled_countFailure {id : Uuid} {attemptCount : Nat}
    (counted : state.handed id ≤ attemptCount + 1)
    (refused : state.refusals id = state.handed id) {row : NotificationDelivery}
    (queued : (countFailure attemptCount row).status = .queued) :
    state.Settled id (countFailure attemptCount row).attemptCount := by
  refine ⟨refused, counted, ?_⟩
  by_contra reached
  have limit : maxAttempts ≤ attemptCount + 1 := Nat.le_of_not_lt reached
  simp [countFailure, limit] at queued

theorem Sound.land (sound : state.Sound) {worker : Nat} {id : Uuid} {attemptCount : Nat}
    {outcome : DeliveryOutcome}
    (here : state.workers worker = .landing id attemptCount outcome) :
    (state.land worker id attemptCount outcome).Sound := by
  have owed := sound.owes worker
  rw [here] at owed
  rcases owed with ⟨claimed, counted, refused⟩
  unfold QueueState.land
  split
  · exact sound.landFails here
  · rename_i row isRow
    have holds : (state.workers worker).holds = some id := by
      rw [here]
      rfl
    refine sound.lands worker holds ?_
    intro queued
    cases outcome with
    | sent | skipped => contradiction
    | refused => exact settled_countFailure counted (refused (.inl rfl)) queued
    | unknown => exact absurd queued (claimed.2 row isRow).1

theorem Sound.runs {settings : DeliverySettings} {label : QueueLabel} (sound : state.Sound)
    (stepped : state.runWorker settings label = .ok next) : next.Sound := by
  cases label with
  | tick _ | emit _ _ _ _ | unqueue _ | erase _ => contradiction
  | drain worker =>
      simp only [runWorker] at stepped
      split at stepped
      · cases stepped
        exact sound.moves worker (fun _ held => by contradiction) trivial
      · contradiction
  | expire worker id =>
      simp only [runWorker] at stepped
      split at stepped
      · rename_i asOf row _ isRow
        split at stepped
        · contradiction
        · rename_i after expired
          cases stepped
          refine sound.fades rfl rfl (keeps_setRow ?_)
          rintro _ ⟨⟩
          exact ⟨row, isRow, .expire expired⟩
      · contradiction
  | expired worker =>
      simp only [runWorker] at stepped
      split at stepped
      · cases stepped
        exact sound.moves worker (fun _ held => by contradiction) trivial
      · contradiction
  | count worker =>
      simp only [runWorker] at stepped
      split at stepped
      · split at stepped <;>
        · cases stepped
          exact sound.moves worker (fun _ held => by contradiction) trivial
      · contradiction
  | claim worker id =>
      simp only [runWorker] at stepped
      split at stepped
      · rename_i asOf row _ isRow
        split at stepped
        · rename_i claimable
          cases stepped
          simp only [QueueState.claimable, Bool.and_eq_true, decide_eq_true_eq] at claimable
          exact sound.claims worker isRow claimable.1.2 asOf
        · contradiction
      · contradiction
  | finish worker =>
      simp only [runWorker] at stepped
      split at stepped
      · cases stepped
        exact sound.moves worker (fun _ held => by contradiction) trivial
      · contradiction
  | load worker =>
      simp only [runWorker] at stepped
      split at stepped
      · rename_i id here
        split at stepped
        · cases stepped
          exact sound.moves worker (fun _ held => by contradiction) trivial
        · rename_i row isRow
          cases stepped
          have owed := sound.owes worker
          rw [here] at owed
          rcases owed with ⟨attemptCount, claimed, settled⟩
          rw [(claimed.2 row isRow).2]
          refine sound.moves worker (fun other held => ?_) ⟨claimed, settled⟩
          rw [here]
          exact held
      · contradiction
  | attempt worker reading =>
      simp only [runWorker] at stepped
      split at stepped
      · rename_i id attemptCount here
        cases stepped
        exact sound.attempt settings here reading
      · contradiction
  | answer worker reply =>
      simp only [runWorker] at stepped
      split at stepped
      · rename_i id attemptCount here
        cases stepped
        exact sound.answer here reply
      · contradiction
  | land worker =>
      simp only [runWorker] at stepped
      split at stepped
      · rename_i id attemptCount outcome here
        cases stepped
        exact sound.land here
      · contradiction
  | landFails worker =>
      simp only [runWorker] at stepped
      split at stepped
      · rename_i id attemptCount outcome here
        cases stepped
        exact sound.landFails here
      · contradiction
  | reload worker =>
      simp only [runWorker] at stepped
      split at stepped
      · rename_i id here
        split at stepped
        · cases stepped
          exact sound.moves worker (fun _ held => by contradiction) trivial
        · rename_i row isRow
          cases stepped
          have owed := sound.owes worker
          rw [here] at owed
          rcases owed with ⟨attemptCount, claimed, owed⟩
          rw [(claimed.2 row isRow).2]
          refine sound.moves worker (fun other held => ?_) ⟨claimed, owed⟩
          rw [here]
          exact held
      · contradiction
  | recount worker =>
      simp only [runWorker] at stepped
      split at stepped
      · rename_i id attemptCount here
        split at stepped
        · cases stepped
          exact sound.moves worker (fun _ held => by contradiction) trivial
        · rename_i row isRow
          cases stepped
          have owed := sound.owes worker
          rw [here] at owed
          rcases owed with ⟨_, counted, refused⟩
          have holds : (state.workers worker).holds = some id := by
            rw [here]
            rfl
          exact sound.lands worker holds (settled_countFailure counted refused)
      · contradiction
  | crash worker =>
      cases stepped
      exact sound.moves worker (fun _ held => by contradiction) trivial

theorem Sound.step {settings : DeliverySettings} {label : QueueLabel} (sound : state.Sound)
    (stepped : step settings label state = .ok next) : next.Sound := by
  unfold QueueState.step at stepped
  split at stepped
  · split at stepped
    · contradiction
    · cases stepped
      exact sound.fades rfl rfl fun _ => .of_same rfl rfl rfl
  · rename_i notification userId delivery createdAt
    split at stepped
    · contradiction
    · rename_i fresh
      cases stepped
      refine sound.emit notification userId createdAt ?_
      intro id member known
      exact fresh (.inr (.inl ⟨id, member, known⟩))
  · split at stepped
    · contradiction
    · split at stepped
      · cases stepped
        exact sound.fades rfl rfl (keeps_setRow fun _ none => by contradiction)
      · contradiction
  · rename_i notification
    cases stepped
    exact sound.fades rfl rfl (keeps_erase notification)
  · exact sound.runs stepped

theorem Initial.sound (initial : state.Initial) : state.Sound := by
  refine ⟨fun id _ => ⟨initial.rows id, initial.handed id, initial.refusals id⟩, ?_, ?_, ?_, ?_, ?_⟩
  · intro worker id holds
    rw [initial.workers] at holds
    contradiction
  · intro worker other id holds
    rw [initial.workers] at holds
    contradiction
  · intro id row isRow
    rw [initial.rows] at isRow
    contradiction
  · intro id
    rw [initial.handed]
    exact Nat.zero_le _
  · intro worker
    rw [initial.workers]
    trivial

theorem sound_of_reachable {settings : DeliverySettings}
    (reachable : (deliverySystem settings).Reachable state) : state.Sound := by
  refine System.Reachable.invariant ?_ ?_ reachable
  · intro start initial
    exact initial.sound
  · intro before after label sound stepped
    exact sound.step stepped

/-! ### Where calls start -/

theorem handed_emit (state : QueueState) (notification userId : Uuid) (delivery : Option Uuid)
    (createdAt : Instant) :
    (state.emit notification userId delivery createdAt).handed = state.handed := by
  cases delivery <;> rfl

theorem handed_landFails (state : QueueState) (worker : Nat) (id : Uuid)
    (outcome : DeliveryOutcome) : (state.landFails worker id outcome).handed = state.handed := by
  unfold QueueState.landFails
  split <;> rfl

theorem handed_land (state : QueueState) (worker : Nat) (id : Uuid) (attemptCount : Nat)
    (outcome : DeliveryOutcome) :
    (state.land worker id attemptCount outcome).handed = state.handed := by
  unfold QueueState.land
  split
  · exact handed_landFails ..
  · rfl

theorem handed_attempt (settings : DeliverySettings) (worker : Nat) {id other : Uuid}
    (attemptCount : Nat) (reading : Reading) (apart : other ≠ id) :
    (state.attempt settings worker id attemptCount reading).handed other =
      state.handed other := by
  unfold QueueState.attempt
  split
  · rfl
  · rfl
  · exact Function.update_of_ne apart ..

/-- Only the attempt of a loaded row starts a call. -/
theorem loaded_of_handed {settings : DeliverySettings} {label : QueueLabel} {id : Uuid}
    (stepped : step settings label state = .ok next) (handed : state.handed id < next.handed id) :
    ∃ worker attemptCount, state.workers worker = .loaded id attemptCount := by
  cases label with
  | attempt worker reading =>
      simp only [QueueState.step, runWorker] at stepped
      split at stepped
      · rename_i claimed attemptCount here
        cases stepped
        have same : id = claimed := by
          by_contra apart
          exact absurd handed (handed_attempt settings worker attemptCount reading apart).not_gt
        exact ⟨worker, attemptCount, same ▸ here⟩
      · contradiction
  | emit notification userId delivery createdAt =>
      simp only [QueueState.step] at stepped
      split at stepped
      · contradiction
      · cases stepped
        rw [handed_emit] at handed
        exact absurd handed (Nat.lt_irrefl _)
  | land worker =>
      simp only [QueueState.step, runWorker] at stepped
      split at stepped
      · cases stepped
        rw [handed_land] at handed
        exact absurd handed (Nat.lt_irrefl _)
      · contradiction
  | landFails worker =>
      simp only [QueueState.step, runWorker] at stepped
      split at stepped
      · cases stepped
        rw [handed_landFails] at handed
        exact absurd handed (Nat.lt_irrefl _)
      · contradiction
  | _ =>
      exfalso
      simp only [QueueState.step, runWorker] at stepped
      repeat' split at stepped
      all_goals first
        | contradiction
        | cases stepped
          exact absurd handed (Nat.lt_irrefl _)

end QueueState

open QueueState

/-- A delivery is never handed over again after a call that was not refused. -/
theorem sendsOnce (settings : DeliverySettings) : SendsOnce (deliverySystem settings) := by
  refine ⟨?_, fun {_ id} reachable => (sound_of_reachable reachable).limit id⟩
  intro state next label id reachable stepped handed
  rcases loaded_of_handed stepped handed with ⟨worker, attemptCount, here⟩
  have owed := (sound_of_reachable reachable).owes worker
  rw [here] at owed
  exact owed.2.1

end Vidit.Notifications
