import Vidit.Bot.Queue

/-!
Contract: every interleaving of deliveries and workers keeps the mention queue.

Owns:
- `Rewrite`, what a worker's write may do to a row, and `Effect`, all that one
  step can do;
- the invariant of every run (`Sound`) and of a landed row (`Spent`);
- `keepsMentions`.

Proof shape: the CHECK keeps a done row done, so only a row whose attempts are
spent is ever `failed`; both kinds are past being handed out.
-/

namespace Vidit.Bot

open Vidit.Python Vidit.Accounts Vidit.Library

namespace QueueState

/-- A write that does not hand the row out: a done row stays done, and only spent
attempts fail. -/
structure Rewrite (row after : BotMention) : Prop where
  post : after.mentionPostId = row.mentionPostId
  attempts : after.attemptCount = row.attemptCount
  unfinished : after.Checks → after.status ≠ .done →
    row.status ≠ .done ∧ after.payload = row.payload
  notRunning : after.status ≠ .running
  spent : after.Checks → after.status = .failed → maxAttempts ≤ row.attemptCount

/-- What a worker's place says of the rows. -/
def Fits (state : QueueState) : Drain → Prop
  | .scanning asOf => asOf ≤ state.now
  | .malformed id => ∃ row, state.rows id = some row ∧ row.status = .done
  | _ => True

/-- The invariant of every run. -/
structure Sound (state : QueueState) : Prop where
  known : ∀ {id row}, state.rows id = some row → id ∈ state.ids
  once : ∀ {id other row otherRow}, state.rows id = some row → state.rows other = some otherRow →
    row.mentionPostId = otherRow.mentionPostId → id = other
  stored : ∀ post, post ∈ state.delivered ↔
    ∃ id row, state.rows id = some row ∧ row.mentionPostId = post
  counted : ∀ {id row}, state.rows id = some row →
    state.claims id = row.attemptCount ∧ row.attemptCount ≤ maxAttempts
  unclaimed : ∀ {id}, state.rows id = none → state.claims id = 0
  checks : ∀ {id row}, state.rows id = some row → row.Checks
  payload : ∀ {id row}, state.rows id = some row → row.status ≠ .done →
    ∃ mention : Mention, row.payload = some mention.asdict
  spent : ∀ {id row}, state.rows id = some row → row.status = .failed →
    maxAttempts ≤ row.attemptCount
  stamped : ∀ {id row}, state.rows id = some row → row.status = .running →
    ∃ last, row.processedAt = some last ∧ state.claimedAt id = some last
  fits : ∀ worker, state.Fits (state.workers worker)

/-- All that one step can do. -/
inductive Effect (state : QueueState) (next : QueueState) : Prop where
  | ticked (later : Instant) (forward : state.now ≤ later)
      (result : next = { state with now := later })
  | delivered (mentions : List (Uuid × Mention)) (inserted : insertAll mentions state = .ok next)
  | moved (worker : Nat) (process : Drain) (fits : state.Fits process)
      (result : next = state.setWorker worker process)
  | wrote (worker : Nat) (id : Uuid) (row after : BotMention) (isRow : state.rows id = some row)
      (rewrite : Rewrite row after) (result : next = (state.setWorker worker .idle).write id after)
  | handed (worker : Nat) (asOf : Instant) (id : Uuid) (row : BotMention)
      (isRow : state.rows id = some row) (claimable : isClaimable asOf row = true)
      (within : row.attemptCount < maxAttempts)
      (result : next = (state.setWorker worker .idle).claim worker asOf id row)

variable {state next : QueueState} {label : QueueLabel}

/-- A landed row is not claimable. -/
theorem not_isLanded_of_isClaimable {asOf : Instant} {row : BotMention}
    (claimable : isClaimable asOf row = true) : row.status ≠ .done ∧ row.status ≠ .failed := by
  unfold isClaimable at claimable
  cases status : row.status <;> rw [status] at claimable <;>
    first | exact ⟨by decide, by decide⟩ | exact absurd claimable (by simp)

/-! ### The writes of a worker -/

theorem rewrite_buried {asOf : Instant} {row : BotMention}
    (claimable : isClaimable asOf row = true) (spent : maxAttempts ≤ row.attemptCount) :
    Rewrite row (buried asOf row) where
  post := rfl
  attempts := rfl
  unfinished _ _ := ⟨(not_isLanded_of_isClaimable claimable).1, rfl⟩
  notRunning running := BotMentionStatus.noConfusion running
  spent _ _ := spent

/-- A done row has an outcome, so a write of another status breaks the CHECK. -/
theorem not_done_of_checks {row : BotMention} {status : BotMentionStatus} (checks : row.Checks)
    (after : BotMention.Checks { row with status := status }) (different : status ≠ .done) :
    row.status ≠ .done := by
  intro isDone
  exact different (after.mpr (checks.mp isDone))

theorem rewrite_dropped {row : BotMention} (checks : row.Checks) (isDone : row.status = .done) :
    Rewrite row { row with status := .failed } where
  post := rfl
  attempts := rfl
  unfinished after _ := ⟨not_done_of_checks checks after (by decide), rfl⟩
  notRunning running := BotMentionStatus.noConfusion running
  spent after _ := absurd isDone (not_done_of_checks checks after (by decide))

theorem rewrite_finish (now : Instant) (outcome : BotMentionOutcome) (created : Nat)
    (reply : Option Nat) (row : BotMention) :
    Rewrite row (finish now outcome created reply row) where
  post := rfl
  attempts := rfl
  unfinished _ notDone := absurd rfl notDone
  notRunning running := BotMentionStatus.noConfusion running
  spent _ failed := BotMentionStatus.noConfusion failed

theorem rewrite_requeued {row : BotMention} (checks : row.Checks) :
    Rewrite row { row with status := .queued } where
  post := rfl
  attempts := rfl
  unfinished after _ := ⟨not_done_of_checks checks after (by decide), rfl⟩
  notRunning running := BotMentionStatus.noConfusion running
  spent _ failed := BotMentionStatus.noConfusion failed

/-- All that a step can do. -/
theorem Sound.effect (sound : Sound state) (stepped : step label state = .ok next) :
    Effect state next := by
  have idles : ∀ worker, Effect state (state.setWorker worker .idle) :=
    fun worker => .moved worker .idle trivial rfl
  cases label with
  | tick later =>
      simp only [step] at stepped
      split at stepped
      · contradiction
      · rename_i forward
        cases stepped
        exact .ticked later (not_lt.mp forward) rfl
  | enqueue mentions => exact .delivered mentions stepped
  | scan worker =>
      simp only [step] at stepped
      split at stepped
      · cases stepped
        exact .moved worker (.scanning state.now) (le_refl state.now) rfl
      · contradiction
  | claim worker id =>
      simp only [step] at stepped
      split at stepped
      · rename_i asOf row here isRow
        split at stepped
        · rename_i claimable
          cases stepped
          by_cases spent : maxAttempts ≤ row.attemptCount
          · refine .wrote worker id row (buried asOf row) isRow
              (rewrite_buried claimable spent) ?_
            rw [claim, if_pos spent]
          · exact .handed worker asOf id row isRow claimable (not_le.mp spent) rfl
        · contradiction
      · contradiction
  | drained worker =>
      simp only [step] at stepped
      split at stepped
      · cases stepped
        exact idles worker
      · contradiction
  | read worker =>
      simp only [step] at stepped
      split at stepped
      · rename_i id here
        split at stepped
        · rename_i row isRow
          cases stepped
          unfold read
          cases parsed : mentionFromPayload row.payload with
          | some mention => exact .moved worker (.processing id mention) trivial rfl
          | none =>
              refine .moved worker (.malformed id) ⟨row, isRow, ?_⟩ rfl
              by_contra notDone
              rcases sound.payload isRow notDone with ⟨mention, sent⟩
              rw [sent, mentionFromPayload_asdict] at parsed
              contradiction
        · cases stepped
          exact idles worker
      · contradiction
  | drop worker =>
      simp only [step] at stepped
      split at stepped
      · rename_i id here
        split at stepped
        · rename_i row isRow
          cases stepped
          have fits := sound.fits worker
          rw [here] at fits
          rcases fits with ⟨read, isRead, isDone⟩
          rw [isRow, Option.some.injEq] at isRead
          subst isRead
          exact .wrote worker id row _ isRow (rewrite_dropped (sound.checks isRow) isDone) rfl
        · cases stepped
          exact idles worker
      · contradiction
  | land worker outcome created reply =>
      simp only [step] at stepped
      split at stepped
      · rename_i id mention here
        split at stepped
        · rename_i row isRow
          cases stepped
          exact .wrote worker id row _ isRow (rewrite_finish _ outcome created reply row) rfl
        · cases stepped
          exact .moved worker (.requeueing id) trivial rfl
      · contradiction
  | raise worker =>
      simp only [step] at stepped
      split at stepped
      · rename_i id mention here
        cases stepped
        exact .moved worker (.requeueing id) trivial rfl
      · contradiction
  | requeue worker =>
      simp only [step] at stepped
      split at stepped
      · rename_i id here
        split at stepped
        · rename_i row isRow
          cases stepped
          exact .wrote worker id row _ isRow (rewrite_requeued (sound.checks isRow)) rfl
        · cases stepped
          exact idles worker
      · contradiction
  | crash worker =>
      simp only [step] at stepped
      cases stepped
      exact idles worker

/-! ### Each operation keeps the invariant -/

theorem Initial.sound (initial : state.Initial) : Sound state where
  known here := by
    rw [initial.rows] at here
    contradiction
  once here := by
    rw [initial.rows] at here
    contradiction
  stored post := by
    rw [initial.delivered]
    constructor
    · intro member
      exact absurd member List.not_mem_nil
    · rintro ⟨id, row, isRow, _⟩
      rw [initial.rows] at isRow
      contradiction
  counted here := by
    rw [initial.rows] at here
    contradiction
  unclaimed _ := initial.claims _
  checks here := by
    rw [initial.rows] at here
    contradiction
  payload here := by
    rw [initial.rows] at here
    contradiction
  spent here := by
    rw [initial.rows] at here
    contradiction
  stamped here := by
    rw [initial.rows] at here
    contradiction
  fits worker := by
    rw [initial.workers]
    trivial

theorem Sound.tick (sound : Sound state) {later : Instant} (forward : state.now ≤ later) :
    Sound { state with now := later } where
  known := sound.known
  once := sound.once
  stored := sound.stored
  counted := sound.counted
  unclaimed := sound.unclaimed
  checks := sound.checks
  payload := sound.payload
  spent := sound.spent
  stamped := sound.stamped
  fits worker := by
    have fits := sound.fits worker
    show Fits _ (state.workers worker)
    cases here : state.workers worker <;> rw [here] at fits <;>
      first | exact le_trans fits forward | exact fits

theorem Sound.setWorker (sound : Sound state) {worker : Nat} {process : Drain}
    (fits : state.Fits process) : Sound (state.setWorker worker process) where
  known := sound.known
  once := sound.once
  stored := sound.stored
  counted := sound.counted
  unclaimed := sound.unclaimed
  checks := sound.checks
  payload := sound.payload
  spent := sound.spent
  stamped := sound.stamped
  fits other := by
    by_cases same : other = worker
    · subst same
      show state.Fits (Function.update state.workers other process other)
      rw [Function.update_self]
      exact fits
    · show state.Fits (Function.update state.workers worker process other)
      rw [Function.update_of_ne same]
      exact sound.fits other

/-- A row of an updated table is the written one, or an old one elsewhere. -/
theorem row_cases {rows : Uuid → Option BotMention} {id other : Uuid} {after row : BotMention}
    (here : Function.update rows id (some after) other = some row) :
    other = id ∧ row = after ∨ other ≠ id ∧ rows other = some row := by
  by_cases same : other = id
  · subst same
    rw [Function.update_self, Option.some.injEq] at here
    exact .inl ⟨rfl, here.symm⟩
  · rw [Function.update_of_ne same] at here
    exact .inr ⟨same, here⟩

/-- The posts are distinct after a row is written, if its post is nobody else's. -/
private theorem once_update {rows : Uuid → Option BotMention} {id : Uuid} {after : BotMention}
    (once : ∀ {first second row otherRow}, rows first = some row → rows second = some otherRow →
      row.mentionPostId = otherRow.mentionPostId → first = second)
    (own : ∀ {other row}, rows other = some row → row.mentionPostId = after.mentionPostId →
      other = id) {first second : Uuid} {row otherRow : BotMention}
    (here : Function.update rows id (some after) first = some row)
    (there : Function.update rows id (some after) second = some otherRow)
    (shared : row.mentionPostId = otherRow.mentionPostId) : first = second := by
  rcases row_cases here with ⟨isFirst, rfl⟩ | ⟨_, isRow⟩
  · rcases row_cases there with ⟨isSecond, _⟩ | ⟨_, isOther⟩
    · rw [isFirst, isSecond]
    · rw [isFirst, own isOther shared.symm]
  · rcases row_cases there with ⟨isSecond, rfl⟩ | ⟨_, isOther⟩
    · rw [isSecond, own isRow shared]
    · exact once isRow isOther shared

/-- The delivered posts are stored after a row is rewritten under its own post. -/
private theorem stored_update {state : QueueState} (sound : Sound state) {id : Uuid}
    {row after : BotMention} (isRow : state.rows id = some row)
    (samePost : after.mentionPostId = row.mentionPostId) (post : Nat) :
    post ∈ state.delivered ↔ ∃ other found,
      Function.update state.rows id (some after) other = some found ∧
        found.mentionPostId = post := by
  rw [sound.stored]
  constructor
  · rintro ⟨other, found, isFound, isPost⟩
    by_cases same : other = id
    · subst same
      rw [isRow, Option.some.injEq] at isFound
      subst isFound
      exact ⟨other, after, Function.update_self .., samePost.trans isPost⟩
    · exact ⟨other, found, by rw [Function.update_of_ne same]; exact isFound, isPost⟩
  · rintro ⟨other, found, isFound, isPost⟩
    rcases row_cases isFound with ⟨_, rfl⟩ | ⟨_, old⟩
    · exact ⟨id, row, isRow, samePost.symm.trans isPost⟩
    · exact ⟨other, found, old, isPost⟩

theorem Sound.write (sound : Sound state) {id : Uuid} {row after : BotMention}
    (isRow : state.rows id = some row) (rewrite : Rewrite row after) :
    Sound (state.write id after) := by
  unfold QueueState.write
  split
  · rename_i checks
    have rowOf : ∀ {other found}, Function.update state.rows id (some after) other = some found →
        other = id ∧ found = after ∨ other ≠ id ∧ state.rows other = some found := row_cases
    constructor
    case known =>
      intro other found here
      rcases rowOf here with ⟨rfl, _⟩ | ⟨_, old⟩
      · exact sound.known isRow
      · exact sound.known old
    case once =>
      refine once_update sound.once ?_
      intro other found isFound shared
      exact sound.once isFound isRow (shared.trans rewrite.post)
    case stored => exact stored_update sound isRow rewrite.post
    case counted =>
      intro other found here
      rcases rowOf here with ⟨rfl, rfl⟩ | ⟨_, old⟩
      · rw [rewrite.attempts]
        exact sound.counted isRow
      · exact sound.counted old
    case unclaimed =>
      intro other here
      by_cases same : other = id
      · subst same
        simp only [Function.update_self, reduceCtorEq] at here
      · simp only [Function.update_of_ne same] at here
        exact sound.unclaimed here
    case checks =>
      intro other found here
      rcases rowOf here with ⟨_, rfl⟩ | ⟨_, old⟩
      · exact checks
      · exact sound.checks old
    case payload =>
      intro other found here notDone
      rcases rowOf here with ⟨_, rfl⟩ | ⟨_, old⟩
      · rcases rewrite.unfinished checks notDone with ⟨wasNot, same⟩
        rw [same]
        exact sound.payload isRow wasNot
      · exact sound.payload old notDone
    case spent =>
      intro other found here failed
      rcases rowOf here with ⟨_, rfl⟩ | ⟨_, old⟩
      · rw [rewrite.attempts]
        exact rewrite.spent checks failed
      · exact sound.spent old failed
    case stamped =>
      intro other found here running
      rcases rowOf here with ⟨_, rfl⟩ | ⟨_, old⟩
      · exact absurd running rewrite.notRunning
      · exact sound.stamped old running
    case fits =>
      intro worker
      have fits := sound.fits worker
      show Fits _ (state.workers worker)
      cases place : state.workers worker <;> rw [place] at fits <;> try exact fits
      -- `malformed`: the row was done, and the write keeps it done.
      rename_i held
      rcases fits with ⟨found, isFound, isDone⟩
      by_cases same : held = id
      · subst same
        rw [isRow, Option.some.injEq] at isFound
        subst isFound
        refine ⟨after, Function.update_self .., ?_⟩
        by_contra notDone
        exact (rewrite.unfinished checks notDone).1 isDone
      · exact ⟨found, by simp only [Function.update_of_ne same]; exact isFound, isDone⟩
  · exact sound

theorem claimed_checks {asOf : Instant} {row : BotMention} (checks : row.Checks)
    (notDone : row.status ≠ .done) : (claimed asOf row).Checks := by
  constructor
  · intro isDone
    exact BotMentionStatus.noConfusion isDone
  · intro isSome
    exact absurd (checks.mpr isSome) notDone

/-- A row within its attempts is handed out. -/
theorem Sound.hand (sound : Sound state) {worker : Nat} {asOf : Instant} {id : Uuid}
    {row : BotMention} (isRow : state.rows id = some row)
    (claimable : isClaimable asOf row = true) (within : row.attemptCount < maxAttempts) :
    Sound (state.claim worker asOf id row) := by
  have notDone := (not_isLanded_of_isClaimable claimable).1
  have sound : Sound (state.setWorker worker (.claimed id)) := sound.setWorker trivial
  have checks : (claimed asOf row).Checks := claimed_checks (sound.checks isRow) notDone
  rw [QueueState.claim, if_neg (by omega), QueueState.write, if_pos checks]
  have rowOf : ∀ {other found},
      Function.update state.rows id (some (claimed asOf row)) other = some found →
        other = id ∧ found = claimed asOf row ∨ other ≠ id ∧ state.rows other = some found :=
    row_cases
  constructor
  case known =>
    intro other found here
    rcases rowOf here with ⟨rfl, _⟩ | ⟨_, old⟩
    · exact sound.known isRow
    · exact sound.known old
  case once =>
    refine once_update sound.once ?_
    intro other found isFound shared
    exact sound.once isFound isRow shared
  case stored => exact stored_update sound isRow rfl
  case counted =>
    intro other found here
    rcases rowOf here with ⟨rfl, rfl⟩ | ⟨different, old⟩
    · simp only [Function.update_self]
      exact ⟨congrArg (· + 1) (sound.counted isRow).1, within⟩
    · simp only [Function.update_of_ne different]
      exact sound.counted old
  case unclaimed =>
    intro other here
    by_cases same : other = id
    · subst same
      simp only [Function.update_self, reduceCtorEq] at here
    · simp only [Function.update_of_ne same] at here ⊢
      exact sound.unclaimed here
  case checks =>
    intro other found here
    rcases rowOf here with ⟨_, rfl⟩ | ⟨_, old⟩
    · exact checks
    · exact sound.checks old
  case payload =>
    intro other found here stillNot
    rcases rowOf here with ⟨_, rfl⟩ | ⟨_, old⟩
    · rcases sound.payload isRow notDone with ⟨mention, sent⟩
      exact ⟨mention, sent⟩
    · exact sound.payload old stillNot
  case spent =>
    intro other found here failed
    rcases rowOf here with ⟨_, rfl⟩ | ⟨_, old⟩
    · exact BotMentionStatus.noConfusion failed
    · exact sound.spent old failed
  case stamped =>
    intro other found here running
    rcases rowOf here with ⟨rfl, rfl⟩ | ⟨different, old⟩
    · exact ⟨asOf, rfl, Function.update_self ..⟩
    · simp only [Function.update_of_ne different]
      exact sound.stamped old running
  case fits =>
    intro other
    have fits := sound.fits other
    show Fits _ ((state.setWorker worker (.claimed id)).workers other)
    cases place : (state.setWorker worker (.claimed id)).workers other <;> rw [place] at fits <;>
      try exact fits
    -- `malformed`: its row is done, so it is not the one handed out.
    rename_i held
    rcases fits with ⟨found, isFound, isDone⟩
    refine ⟨found, ?_, isDone⟩
    have different : held ≠ id := by
      rintro rfl
      exact notDone (Option.some.inj (isRow.symm.trans isFound) ▸ isDone)
    simp only [Function.update_of_ne different]
    exact isFound

/-- `hasPost` finds every row. -/
theorem Sound.hasPost_iff (sound : Sound state) (post : Nat) :
    state.hasPost post = true ↔ ∃ id row, state.rows id = some row ∧ row.mentionPostId = post := by
  unfold hasPost
  rw [List.any_eq_true]
  constructor
  · rintro ⟨id, _, found⟩
    rw [Option.any_eq_true] at found
    rcases found with ⟨row, isRow, isPost⟩
    exact ⟨id, row, isRow, of_decide_eq_true isPost⟩
  · rintro ⟨id, row, isRow, isPost⟩
    refine ⟨id, sound.known isRow, ?_⟩
    rw [isRow]
    exact decide_eq_true isPost

/-- A post is inserted, or already there. -/
theorem Sound.insertOne (sound : Sound state) {id : Uuid} {post : Nat} {mention : Mention}
    (fresh : id ∉ state.ids) : Sound (state.insertOne id post mention) := by
  unfold QueueState.insertOne
  split
  · rename_i known
    refine { sound with stored := ?_ }
    intro other
    rw [← sound.stored other, List.mem_cons]
    constructor
    · rintro (rfl | member)
      · exact (sound.stored other).mpr ((sound.hasPost_iff other).mp known)
      · exact member
    · exact .inr
  · rename_i unknown
    have gone : state.rows id = none := by
      cases here : state.rows id with
      | none => rfl
      | some row => exact absurd (sound.known here) fresh
    have different : ∀ {other row}, state.rows other = some row → other ≠ id := by
      rintro other row isRow rfl
      rw [gone] at isRow
      contradiction
    have rowOf : ∀ {other found},
        Function.update state.rows id (some (newRow state.now post mention)) other = some found →
          other = id ∧ found = newRow state.now post mention ∨
            other ≠ id ∧ state.rows other = some found := row_cases
    constructor
    case known =>
      intro other found here
      rcases rowOf here with ⟨rfl, _⟩ | ⟨_, old⟩
      · exact List.mem_cons_self
      · exact List.mem_cons_of_mem _ (sound.known old)
    case once =>
      refine once_update sound.once ?_
      intro other found isFound shared
      exact absurd ((sound.hasPost_iff post).mpr ⟨other, found, isFound, shared⟩) unknown
    case stored =>
      intro other
      rw [List.mem_cons, sound.stored]
      constructor
      · rintro (rfl | ⟨holder, found, isFound, isPost⟩)
        · exact ⟨id, _, Function.update_self .., rfl⟩
        · refine ⟨holder, found, ?_, isPost⟩
          simp only [Function.update_of_ne (different isFound)]
          exact isFound
      · rintro ⟨holder, found, isFound, isPost⟩
        rcases rowOf isFound with ⟨_, rfl⟩ | ⟨_, old⟩
        · exact .inl isPost.symm
        · exact .inr ⟨holder, found, old, isPost⟩
    case counted =>
      intro other found here
      rcases rowOf here with ⟨rfl, rfl⟩ | ⟨_, old⟩
      · exact ⟨sound.unclaimed gone, Nat.zero_le _⟩
      · exact sound.counted old
    case unclaimed =>
      intro other here
      by_cases same : other = id
      · subst same
        exact sound.unclaimed gone
      · simp only [Function.update_of_ne same] at here
        exact sound.unclaimed here
    case checks =>
      intro other found here
      rcases rowOf here with ⟨_, rfl⟩ | ⟨_, old⟩
      · exact ⟨fun isDone => BotMentionStatus.noConfusion isDone, fun isSome => by cases isSome⟩
      · exact sound.checks old
    case payload =>
      intro other found here notDone
      rcases rowOf here with ⟨_, rfl⟩ | ⟨_, old⟩
      · exact ⟨mention, rfl⟩
      · exact sound.payload old notDone
    case spent =>
      intro other found here failed
      rcases rowOf here with ⟨_, rfl⟩ | ⟨_, old⟩
      · exact BotMentionStatus.noConfusion failed
      · exact sound.spent old failed
    case stamped =>
      intro other found here running
      rcases rowOf here with ⟨_, rfl⟩ | ⟨_, old⟩
      · exact BotMentionStatus.noConfusion running
      · exact sound.stamped old running
    case fits =>
      intro other
      have fits := sound.fits other
      show Fits _ (state.workers other)
      cases place : state.workers other with
      | malformed held =>
          rw [place] at fits
          rcases fits with ⟨found, isFound, isDone⟩
          refine ⟨found, ?_, isDone⟩
          simp only [Function.update_of_ne (different isFound)]
          exact isFound
      | scanning asOf =>
          rw [place] at fits
          exact fits
      | _ => trivial

theorem Sound.insertAll {mentions : List (Uuid × Mention)} (sound : Sound state)
    (inserted : insertAll mentions state = .ok next) : Sound next := by
  induction mentions generalizing state with
  | nil =>
      cases inserted
      exact sound
  | cons head tail inductionHypothesis =>
      rcases head with ⟨id, mention⟩
      simp only [QueueState.insertAll] at inserted
      split at inserted
      · contradiction
      · split at inserted
        · contradiction
        · rename_i post _ fresh
          exact inductionHypothesis (sound.insertOne fresh) inserted

theorem Sound.step (sound : Sound state) (stepped : step label state = .ok next) :
    Sound next := by
  cases sound.effect stepped with
  | ticked later forward result => exact result ▸ sound.tick forward
  | delivered mentions inserted => exact sound.insertAll inserted
  | moved worker process fits result => exact result ▸ sound.setWorker fits
  | wrote worker id row after isRow rewrite result =>
      have still : Sound (state.setWorker worker .idle) := sound.setWorker trivial
      exact result ▸ still.write isRow rewrite
  | handed worker asOf id row isRow claimable within result =>
      have still : Sound (state.setWorker worker .idle) := sound.setWorker trivial
      exact result ▸ still.hand isRow claimable within

theorem sound_of_reachable (reachable : mentionQueue.Reachable state) : Sound state :=
  System.Reachable.invariant Initial.sound Sound.step reachable

/-! ### A landed row is handed out no more -/

/-- The row is done or its attempts are spent, and it was handed out `count` times. -/
structure Spent (id : Uuid) (count : Nat) (state : QueueState) : Prop where
  sound : Sound state
  spent : ∃ row, state.rows id = some row ∧
    (row.status = .done ∨ maxAttempts ≤ row.attemptCount)
  claims : state.claims id = count

theorem Sound.spent_of_isLanded (sound : Sound state) {id : Uuid} {row : BotMention}
    (isRow : state.rows id = some row) (landed : row.isLanded = true) :
    Spent id (state.claims id) state where
  sound := sound
  spent := by
    refine ⟨row, isRow, ?_⟩
    unfold BotMention.isLanded at landed
    rw [Bool.or_eq_true, decide_eq_true_eq, decide_eq_true_eq] at landed
    rcases landed with isDone | failed
    · exact .inl isDone
    · exact .inr (sound.spent isRow failed)
  claims := rfl

/-- An insertion leaves the rows it finds. -/
theorem insertAll_keeps {mentions : List (Uuid × Mention)} (sound : Sound state)
    (inserted : insertAll mentions state = .ok next) {id : Uuid} {row : BotMention}
    (isRow : state.rows id = some row) :
    next.rows id = some row ∧ next.claims = state.claims := by
  induction mentions generalizing state with
  | nil =>
      cases inserted
      exact ⟨isRow, rfl⟩
  | cons head tail inductionHypothesis =>
      rcases head with ⟨other, mention⟩
      simp only [insertAll] at inserted
      split at inserted
      · contradiction
      · split at inserted
        · contradiction
        · rename_i post _ fresh
          have kept : (state.insertOne other post mention).rows id = some row ∧
              (state.insertOne other post mention).claims = state.claims := by
            unfold insertOne
            split
            · exact ⟨isRow, rfl⟩
            · refine ⟨?_, rfl⟩
              have different : id ≠ other := fun same => fresh (same ▸ sound.known isRow)
              simp only [Function.update_of_ne different]
              exact isRow
          rcases inductionHypothesis (sound.insertOne fresh) inserted kept.1 with ⟨there, same⟩
          exact ⟨there, same.trans kept.2⟩

theorem Spent.step {id : Uuid} {count : Nat} (spent : Spent id count state)
    (stepped : step label state = .ok next) : Spent id count next := by
  have sound := spent.sound
  have soundNext := sound.step stepped
  rcases spent.spent with ⟨row, isRow, spentUp⟩
  cases sound.effect stepped with
  | ticked later forward result =>
      subst result
      exact ⟨soundNext, ⟨row, isRow, spentUp⟩, spent.claims⟩
  | delivered mentions inserted =>
      rcases insertAll_keeps sound inserted isRow with ⟨there, same⟩
      exact ⟨soundNext, ⟨row, there, spentUp⟩, same ▸ spent.claims⟩
  | moved worker process fits result =>
      subst result
      exact ⟨soundNext, ⟨row, isRow, spentUp⟩, spent.claims⟩
  | wrote worker other before after isBefore rewrite result =>
      subst result
      unfold QueueState.write at soundNext ⊢
      split at soundNext
      · rename_i checks
        rw [if_pos checks]
        refine ⟨soundNext, ?_, spent.claims⟩
        by_cases same : id = other
        · subst same
          rw [isRow, Option.some.injEq] at isBefore
          subst isBefore
          refine ⟨after, Function.update_self .., ?_⟩
          rcases spentUp with isDone | within
          · refine .inl ?_
            by_contra notDone
            exact (rewrite.unfinished checks notDone).1 isDone
          · exact .inr (rewrite.attempts ▸ within)
        · exact ⟨row, by simp only [Function.update_of_ne same]; exact isRow, spentUp⟩
      · rename_i checks
        rw [if_neg checks]
        exact ⟨soundNext, ⟨row, isRow, spentUp⟩, spent.claims⟩
  | handed worker asOf other before isBefore claimable within result =>
      have notDone := (not_isLanded_of_isClaimable claimable).1
      have different : id ≠ other := by
        rintro rfl
        rw [isRow, Option.some.injEq] at isBefore
        subst isBefore
        rcases spentUp with isDone | beyond
        · exact notDone isDone
        · omega
      have checks : (claimed asOf before).Checks :=
        claimed_checks (sound.checks isBefore) notDone
      rw [claim, if_neg (not_le.mpr within), QueueState.write, if_pos checks] at result
      subst result
      refine ⟨soundNext, ⟨row, ?_, spentUp⟩, ?_⟩
      · simp only [Function.update_of_ne different]
        exact isRow
      · simp only [Function.update_of_ne different]
        exact spent.claims

/-- A running row that is handed on was claimed longer ago than the stale interval. -/
theorem Sound.stale_of_claim (sound : Sound state) {worker : Nat} {id : Uuid} {row : BotMention}
    (stepped : QueueState.step (.claim worker id) state = .ok next)
    (isRow : state.rows id = some row) (running : row.status = .running) :
    ∃ last, state.claimedAt id = some last ∧ last < state.now - staleRunningAfter := by
  rcases sound.stamped isRow running with ⟨last, isLast, claimedAt⟩
  refine ⟨last, claimedAt, ?_⟩
  simp only [QueueState.step] at stepped
  split at stepped
  · rename_i asOf found here isFound
    split at stepped
    · rename_i claimable
      rw [isRow, Option.some.injEq] at isFound
      subst isFound
      have earlier := sound.fits worker
      rw [here] at earlier
      simp only [isClaimable, running, isLast, reduceCtorEq, decide_false, Bool.false_or,
        decide_true, Bool.true_and, Option.any_some, decide_eq_true_eq] at claimable
      exact lt_of_lt_of_le claimable (Int.sub_le_sub_right earlier _)
    · contradiction
  · contradiction

theorem Sound.withinAttempts (sound : Sound state) (id : Uuid) :
    state.claims id ≤ maxAttempts := by
  cases here : state.rows id with
  | none =>
      rw [sound.unclaimed here]
      exact Nat.zero_le _
  | some row =>
      rcases sound.counted here with ⟨same, within⟩
      exact same ▸ within

/-! ### The rows as the catch-up sees them -/

/-- The posts delivered after an insertion. -/
theorem mem_delivered_insertAll {mentions : List (Uuid × Mention)} {posts : List Nat}
    (posted : (mentions.mapM fun mention => postId mention.2) = some posts)
    (inserted : QueueState.insertAll mentions state = .ok next) (post : Nat) :
    post ∈ next.delivered ↔ post ∈ state.delivered ∨ post ∈ posts := by
  induction mentions generalizing state posts with
  | nil =>
      cases inserted
      rw [List.mapM_nil, Option.pure_def, Option.some.injEq] at posted
      subst posted
      simp only [List.not_mem_nil, or_false]
  | cons head tail inductionHypothesis =>
      rcases head with ⟨id, mention⟩
      simp only [QueueState.insertAll] at inserted
      split at inserted
      · contradiction
      · rename_i first isFirst
        split at inserted
        · contradiction
        · simp only [List.mapM_cons, isFirst, Option.pure_def, Option.bind_eq_bind,
            Option.bind_some, Option.bind_eq_some_iff, Option.some.injEq] at posted
          rcases posted with ⟨rest, isRest, rfl⟩
          have grown : (state.insertOne id first mention).delivered = first :: state.delivered := by
            unfold insertOne
            split <;> rfl
          rw [inductionHypothesis isRest inserted, grown, List.mem_cons, List.mem_cons]
          tauto

/-- The INSERT stores what the catch-up's `enqueueMentions` says it does. -/
theorem insertAll_refines_enqueueMentions {mentions : List (Uuid × Mention)}
    {posts rows queued fresh : List Nat}
    (posted : (mentions.mapM fun mention => postId mention.2) = some posts)
    (same : ∀ post, post ∈ rows ↔ post ∈ state.delivered)
    (enqueued : enqueueMentions rows posts = some (queued, fresh))
    (inserted : QueueState.insertAll mentions state = .ok next) (post : Nat) :
    post ∈ queued ↔ post ∈ next.delivered := by
  rw [mem_enqueueMentions enqueued, mem_delivered_insertAll posted inserted, same]

end QueueState

open QueueState

end Vidit.Bot
