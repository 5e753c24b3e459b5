import Vidit.Imports.Queue

/-!
Contract: archive jobs run safely where no request and no worker is overtaken.

Owns:
- `RowStep`, all that one step can do to the rows and the claims;
- the invariant of every run (`Sound`) and the one of unrivalled runs (`OneEach`);
- `runsSafely_of_unrivalled`, and the two runs that break the property otherwise.

Proof shape: each invariant is read off `RowStep`; a landed row can only be
stamped, since a claim needs a runnable one and a landing a running one.
-/

namespace Vidit.Imports

open Vidit.Python Vidit.Accounts Vidit.Library

namespace JobState

/-- What one step does to the rows. -/
inductive RowStep (state : JobState) (label : JobLabel) (next : JobState) : Prop where
  | still (ids : next.ids = state.ids) (jobs : next.jobs = state.jobs)
      (claims : next.claims = state.claims)
  | inserted (request : Nat) (uploadKey : Str) (id : Uuid) (isInsert : label = .insert request id)
      (checked : state.requests request = .checked uploadKey) (fresh : id ∉ state.ids)
      (ids : next.ids = id :: state.ids)
      (jobs : next.jobs = Function.update state.jobs id (some (newJob uploadKey)))
      (claims : next.claims = state.claims)
  | handed (asOf : Instant) (id : Uuid) (job : ArchiveImportJob)
      (isJob : state.jobs id = some job) (runnable : isRunnable asOf job = true)
      (within : job.attemptCount < maxAttempts) (ids : next.ids = state.ids)
      (jobs : next.jobs = Function.update state.jobs id (some (claimed asOf job)))
      (claims : next.claims = Function.update state.claims id (state.claims id + 1))
  | buried (asOf : Instant) (id : Uuid) (job : ArchiveImportJob)
      (isJob : state.jobs id = some job) (runnable : isRunnable asOf job = true)
      (ids : next.ids = state.ids)
      (jobs : next.jobs = Function.update state.jobs id
        (some (finish state.now .failed (some (str "attempt budget spent")) job)))
      (claims : next.claims = state.claims)
  | landed (worker : Nat) (id : Uuid) (job : ArchiveImportJob) (status : ArchiveImportJobStatus)
      (error : Option Str) (isFinish : label = .finish worker)
      (holds : (state.workers worker).holds = some id) (isJob : state.jobs id = some job)
      (ids : next.ids = state.ids)
      (jobs : next.jobs =
        Function.update state.jobs id (some (finish state.now status error job)))
      (claims : next.claims = state.claims)
  | stamped (id : Uuid) (job : ArchiveImportJob) (at' : Instant)
      (isJob : state.jobs id = some job) (ids : next.ids = state.ids)
      (jobs : next.jobs = Function.update state.jobs id (some { job with startedAt := some at' }))
      (claims : next.claims = state.claims)

variable {state next : JobState} {label : JobLabel}

theorem rowStep_runRequest (stepped : state.runRequest label = .ok next) :
    RowStep state label next := by
  cases label with
  | enqueue request uploadKey =>
      simp only [runRequest] at stepped
      split at stepped
      · cases stepped
        exact .still rfl rfl rfl
      · cases stepped
        exact .still rfl rfl rfl
      · contradiction
  | check request =>
      simp only [runRequest] at stepped
      split at stepped
      · split at stepped
        · cases stepped
          exact .still rfl rfl rfl
        · cases stepped
          exact .still rfl rfl rfl
      · contradiction
  | insert request id =>
      simp only [runRequest] at stepped
      split at stepped
      · rename_i uploadKey checked
        split at stepped
        · contradiction
        · rename_i fresh
          cases stepped
          exact .inserted request uploadKey id rfl checked fresh rfl rfl rfl
      · contradiction
  | _ => contradiction

theorem rowStep_runHeart (stepped : state.runHeart label = .ok next) :
    RowStep state label next := by
  cases label with
  | beat heart =>
      simp only [runHeart] at stepped
      split at stepped
      · cases stepped
        exact .still rfl rfl rfl
      · contradiction
  | stamp heart =>
      simp only [runHeart] at stepped
      split at stepped
      · rename_i id at' stopped here
        cases stepped
        unfold stamp
        cases isJob : state.jobs id with
        | none => exact .still rfl rfl rfl
        | some job => exact .stamped id job at' isJob rfl rfl rfl
      · contradiction
  | _ => contradiction

theorem rowStep_land {worker : Nat} {id : Uuid} (status : ArchiveImportJobStatus)
    (error : Option Str) (holds : (state.workers worker).holds = some id)
    (ids : next.ids = (state.land worker id status error).ids)
    (jobs : next.jobs = (state.land worker id status error).jobs)
    (claims : next.claims = (state.land worker id status error).claims) :
    RowStep state (.finish worker) next := by
  unfold land at ids jobs claims
  cases isJob : state.jobs id with
  | none =>
      rw [isJob] at ids jobs claims
      exact .still ids jobs claims
  | some job =>
      rw [isJob] at ids jobs claims
      exact .landed worker id job status error rfl holds isJob ids jobs claims

theorem rowStep_runWorker (stepped : state.runWorker label = .ok next) :
    RowStep state label next := by
  cases label with
  | scan worker =>
      simp only [runWorker] at stepped
      split at stepped
      · cases stepped
        exact .still rfl rfl rfl
      · contradiction
  | claim worker id =>
      simp only [runWorker] at stepped
      split at stepped
      · rename_i asOf job here isJob
        split at stepped
        · rename_i runnable
          cases stepped
          unfold claim
          split
          · exact .buried asOf id job isJob runnable rfl rfl rfl
          · rename_i within
            exact .handed asOf id job isJob runnable (by omega) rfl rfl rfl
        · contradiction
      · contradiction
  | drained worker =>
      simp only [runWorker] at stepped
      split at stepped
      · cases stepped
        exact .still rfl rfl rfl
      · contradiction
  | begin worker owner size heart =>
      simp only [runWorker] at stepped
      split at stepped
      · unfold begin at stepped
        split at stepped
        · cases stepped
          exact .still rfl rfl rfl
        · split at stepped
          · cases stepped
            exact .still rfl rfl rfl
          · contradiction
      · contradiction
  | complete worker =>
      simp only [runWorker] at stepped
      split at stepped
      · cases stepped
        exact .still rfl rfl rfl
      · contradiction
  | raise worker error =>
      simp only [runWorker] at stepped
      split at stepped
      · cases stepped
        exact .still rfl rfl rfl
      · contradiction
  | finish worker =>
      simp only [runWorker] at stepped
      split at stepped
      · rename_i id here
        cases stepped
        exact rowStep_land .done none (by rw [here]; rfl) rfl rfl rfl
      · rename_i id error here
        cases stepped
        exact rowStep_land .failed (some error) (by rw [here]; rfl) rfl rfl rfl
      · rename_i id error heart here
        cases stepped
        exact rowStep_land .failed (some error) (by rw [here]; rfl) rfl rfl rfl
      · contradiction
  | crash worker =>
      simp only [runWorker] at stepped
      cases stepped
      unfold crash
      split <;> exact .still rfl rfl rfl
  | _ => contradiction

/-- All that a step can do to the rows. -/
theorem step_rows (stepped : step label state = .ok next) : RowStep state label next := by
  unfold step at stepped
  split at stepped
  · split at stepped
    · contradiction
    · cases stepped
      exact .still rfl rfl rfl
  · exact rowStep_runRequest stepped
  · exact rowStep_runRequest stepped
  · exact rowStep_runRequest stepped
  · exact rowStep_runHeart stepped
  · exact rowStep_runHeart stepped
  · exact rowStep_runWorker stepped

/-- The clock runs forward, and a worker scans as of the hour it began. -/
theorem step_scanning (stepped : step label state = .ok next) :
    state.now ≤ next.now ∧ ∀ worker asOf, next.workers worker = .scanning asOf →
      state.workers worker = .scanning asOf ∨ asOf = state.now := by
  have same : ∀ {after : JobState}, after.now = state.now → after.workers = state.workers →
      state.now ≤ after.now ∧ ∀ worker asOf, after.workers worker = .scanning asOf →
        state.workers worker = .scanning asOf ∨ asOf = state.now := by
    intro after now workers
    refine ⟨now ▸ le_refl _, ?_⟩
    intro worker asOf here
    exact .inl (workers ▸ here)
  have moved : ∀ {after : JobState} (mover : Nat) (process : Worker), after.now = state.now →
      after.workers = Function.update state.workers mover process →
      (∀ asOf, process = .scanning asOf → asOf = state.now) →
      state.now ≤ after.now ∧ ∀ worker asOf, after.workers worker = .scanning asOf →
        state.workers worker = .scanning asOf ∨ asOf = state.now := by
    intro after mover process now workers begins
    refine ⟨now ▸ le_refl _, ?_⟩
    intro worker asOf here
    rw [workers] at here
    by_cases isMover : worker = mover
    · subst isMover
      rw [Function.update_self] at here
      exact .inr (begins asOf here)
    · rw [Function.update_of_ne isMover] at here
      exact .inl here
  have landing : ∀ (mover : Nat) (id : Uuid) (status : ArchiveImportJobStatus)
      (error : Option Str), (state.land mover id status error).now = state.now ∧
        (state.land mover id status error).workers =
          Function.update state.workers mover .idle := by
    intro mover id status error
    unfold land
    split <;> exact ⟨rfl, rfl⟩
  cases label with
  | tick later =>
      simp only [step] at stepped
      split at stepped
      · contradiction
      · rename_i forward
        cases stepped
        exact ⟨not_lt.mp forward, fun worker asOf here => .inl here⟩
  | enqueue request uploadKey =>
      simp only [step, runRequest] at stepped
      split at stepped
      · cases stepped
        exact same rfl rfl
      · cases stepped
        exact same rfl rfl
      · contradiction
  | check request =>
      simp only [step, runRequest] at stepped
      split at stepped
      · split at stepped
        · cases stepped
          exact same rfl rfl
        · cases stepped
          exact same rfl rfl
      · contradiction
  | insert request id =>
      simp only [step, runRequest] at stepped
      split at stepped
      · split at stepped
        · contradiction
        · cases stepped
          exact same rfl rfl
      · contradiction
  | beat heart =>
      simp only [step, runHeart] at stepped
      split at stepped
      · cases stepped
        exact same rfl rfl
      · contradiction
  | stamp heart =>
      simp only [step, runHeart] at stepped
      split at stepped
      · rename_i id at' stopped here
        cases stepped
        unfold stamp
        cases state.jobs id with
        | none => exact same rfl rfl
        | some job => exact same rfl rfl
      · contradiction
  | scan worker =>
      simp only [step, runWorker] at stepped
      split at stepped
      · cases stepped
        exact moved worker (.scanning state.now) rfl rfl
          (fun asOf isScan => (Worker.scanning.inj isScan).symm)
      · contradiction
  | claim worker id =>
      simp only [step, runWorker] at stepped
      split at stepped
      · split at stepped
        · cases stepped
          unfold claim
          split
          · exact moved worker .idle rfl rfl (fun _ isScan => Worker.noConfusion isScan)
          · exact moved worker (.claimed id) rfl rfl (fun _ isScan => Worker.noConfusion isScan)
        · contradiction
      · contradiction
  | drained worker =>
      simp only [step, runWorker] at stepped
      split at stepped
      · cases stepped
        exact moved worker .idle rfl rfl (fun _ isScan => Worker.noConfusion isScan)
      · contradiction
  | begin worker owner size heart =>
      simp only [step, runWorker] at stepped
      split at stepped
      · rename_i id here
        unfold begin at stepped
        split at stepped
        · rename_i error refused
          cases stepped
          exact moved worker (.failing id error none) rfl rfl
            (fun _ isScan => Worker.noConfusion isScan)
        · split at stepped
          · cases stepped
            exact moved worker (.working id heart) rfl rfl
              (fun _ isScan => Worker.noConfusion isScan)
          · contradiction
      · contradiction
  | complete worker =>
      simp only [step, runWorker] at stepped
      split at stepped
      · rename_i id heart here
        cases stepped
        exact moved worker (.completing id) rfl rfl (fun _ isScan => Worker.noConfusion isScan)
      · contradiction
  | raise worker error =>
      simp only [step, runWorker] at stepped
      split at stepped
      · rename_i id heart here
        cases stepped
        exact moved worker (.failing id error (some heart)) rfl rfl
          (fun _ isScan => Worker.noConfusion isScan)
      · contradiction
  | finish worker =>
      simp only [step, runWorker] at stepped
      split at stepped
      · rename_i id here
        cases stepped
        exact moved worker .idle (landing worker id .done none).1 (landing worker id .done none).2
          (fun _ isScan => Worker.noConfusion isScan)
      · rename_i id error here
        cases stepped
        exact moved worker .idle (landing worker id .failed (some error)).1
          (landing worker id .failed (some error)).2 (fun _ isScan => Worker.noConfusion isScan)
      · rename_i id error heart here
        cases stepped
        exact moved worker .idle (landing worker id .failed (some error)).1
          (landing worker id .failed (some error)).2 (fun _ isScan => Worker.noConfusion isScan)
      · contradiction
  | crash worker =>
      simp only [step, runWorker] at stepped
      cases stepped
      unfold crash
      split <;> exact moved worker .idle rfl rfl (fun _ isScan => Worker.noConfusion isScan)

/-! ### What every run keeps -/

/-- The invariant of every run. -/
structure Sound (state : JobState) : Prop where
  known : ∀ {id job}, state.jobs id = some job → id ∈ state.ids
  counted : ∀ {id job}, state.jobs id = some job →
    state.claims id = job.attemptCount ∧ job.attemptCount ≤ maxAttempts
  unclaimed : ∀ {id}, state.jobs id = none → state.claims id = 0
  scanned : ∀ {worker asOf}, state.workers worker = .scanning asOf → asOf ≤ state.now

theorem Initial.sound (initial : state.Initial) : Sound state where
  known here := by
    rw [initial.jobs] at here
    contradiction
  counted here := by
    rw [initial.jobs] at here
    contradiction
  unclaimed _ := initial.claims _
  scanned here := by
    rw [initial.workers] at here
    contradiction

/-- A row rewritten with its attempts as they were. -/
private theorem Sound.rewritten (sound : Sound state) {id : Uuid} {job after : ArchiveImportJob}
    (isJob : state.jobs id = some job) (ids : next.ids = state.ids)
    (jobs : next.jobs = Function.update state.jobs id (some after))
    (attempts : after.attemptCount = job.attemptCount) (claims : next.claims = state.claims)
    (scanned : ∀ {worker asOf}, next.workers worker = .scanning asOf → asOf ≤ next.now) :
    Sound next where
  known := by
    intro other row here
    rw [ids]
    rw [jobs] at here
    by_cases same : other = id
    · subst same
      exact sound.known isJob
    · rw [Function.update_of_ne same] at here
      exact sound.known here
  counted := by
    intro other row here
    rw [claims]
    rw [jobs] at here
    by_cases same : other = id
    · subst same
      rw [Function.update_self, Option.some.injEq] at here
      subst here
      rw [attempts]
      exact sound.counted isJob
    · rw [Function.update_of_ne same] at here
      exact sound.counted here
  unclaimed := by
    intro other here
    rw [claims]
    rw [jobs] at here
    by_cases same : other = id
    · subst same
      rw [Function.update_self] at here
      contradiction
    · rw [Function.update_of_ne same] at here
      exact sound.unclaimed here
  scanned := scanned

theorem Sound.step (sound : Sound state) (stepped : step label state = .ok next) :
    Sound next := by
  have scanned : ∀ {worker asOf}, next.workers worker = .scanning asOf → asOf ≤ next.now := by
    intro worker asOf here
    rcases step_scanning stepped with ⟨forward, scans⟩
    rcases scans worker asOf here with before | begins
    · exact le_trans (sound.scanned before) forward
    · exact begins ▸ forward
  cases step_rows stepped with
  | still ids jobs claims =>
      refine ⟨?_, ?_, ?_, scanned⟩
      · intro id job here
        rw [jobs] at here
        exact ids ▸ sound.known here
      · intro id job here
        rw [jobs] at here
        rw [claims]
        exact sound.counted here
      · intro id here
        rw [jobs] at here
        rw [claims]
        exact sound.unclaimed here
  | inserted request uploadKey id _ _ fresh ids jobs claims =>
      have gone : state.jobs id = none := by
        cases here : state.jobs id with
        | none => rfl
        | some job => exact absurd (sound.known here) fresh
      refine ⟨?_, ?_, ?_, scanned⟩
      · intro other job here
        rw [ids]
        rw [jobs] at here
        by_cases same : other = id
        · exact same ▸ List.mem_cons_self
        · rw [Function.update_of_ne same] at here
          exact List.mem_cons_of_mem _ (sound.known here)
      · intro other job here
        rw [claims]
        rw [jobs] at here
        by_cases same : other = id
        · subst same
          rw [Function.update_self, Option.some.injEq] at here
          subst here
          exact ⟨sound.unclaimed gone, Nat.zero_le _⟩
        · rw [Function.update_of_ne same] at here
          exact sound.counted here
      · intro other here
        rw [claims]
        rw [jobs] at here
        by_cases same : other = id
        · exact same ▸ sound.unclaimed gone
        · rw [Function.update_of_ne same] at here
          exact sound.unclaimed here
  | handed asOf id job isJob _ within ids jobs claims =>
      refine ⟨?_, ?_, ?_, scanned⟩
      · intro other row here
        rw [ids]
        rw [jobs] at here
        by_cases same : other = id
        · exact same ▸ sound.known isJob
        · rw [Function.update_of_ne same] at here
          exact sound.known here
      · intro other row here
        rw [claims]
        rw [jobs] at here
        by_cases same : other = id
        · subst same
          rw [Function.update_self, Option.some.injEq] at here
          subst here
          rw [Function.update_self, (sound.counted isJob).1]
          exact ⟨rfl, within⟩
        · rw [Function.update_of_ne same] at here
          rw [Function.update_of_ne same]
          exact sound.counted here
      · intro other here
        rw [claims]
        rw [jobs] at here
        by_cases same : other = id
        · subst same
          rw [Function.update_self] at here
          contradiction
        · rw [Function.update_of_ne same] at here
          rw [Function.update_of_ne same]
          exact sound.unclaimed here
  | buried asOf id job isJob _ ids jobs claims =>
      exact sound.rewritten isJob ids jobs rfl claims scanned
  | landed worker id job status error _ _ isJob ids jobs claims =>
      exact sound.rewritten isJob ids jobs rfl claims scanned
  | stamped id job at' isJob ids jobs claims =>
      exact sound.rewritten isJob ids jobs rfl claims scanned

theorem sound_of_reachable (reachable : jobSystem.Reachable state) : Sound state :=
  System.Reachable.invariant Initial.sound Sound.step reachable

theorem Sound.withinAttempts (sound : Sound state) (id : Uuid) :
    state.claims id ≤ maxAttempts := by
  cases here : state.jobs id with
  | none =>
      rw [sound.unclaimed here]
      exact Nat.zero_le _
  | some job =>
      rcases sound.counted here with ⟨same, within⟩
      exact same ▸ within

/-- A running row that is claimed has a stale stamp. -/
theorem Sound.stale_of_claim (sound : Sound state) {worker : Nat} {id : Uuid}
    {job : ArchiveImportJob} (stepped : JobState.step (.claim worker id) state = .ok next)
    (isJob : state.jobs id = some job) (running : job.status = .running) :
    job.startedAt.any (· < state.now - staleRunningAfter) := by
  simp only [JobState.step, runWorker] at stepped
  split at stepped
  · rename_i asOf row here isRow
    split at stepped
    · rename_i runnable
      rw [isJob, Option.some.injEq] at isRow
      subst isRow
      have earlier := sound.scanned here
      simp only [isRunnable, running, reduceCtorEq, decide_false, Bool.false_or, decide_true,
        Bool.true_and] at runnable
      rw [Option.any_eq_true] at runnable ⊢
      rcases runnable with ⟨started, isStarted, old⟩
      refine ⟨started, isStarted, ?_⟩
      rw [decide_eq_true_eq] at old ⊢
      exact lt_of_lt_of_le old (Int.sub_le_sub_right earlier _)
    · contradiction
  · contradiction

/-! ### What unrivalled runs keep -/

/-- No two rows share a key. -/
def OneEach (state : JobState) : Prop :=
  ∀ ⦃id other job otherJob⦄, state.jobs id = some job → state.jobs other = some otherJob →
    job.zipKey = otherJob.zipKey → id = other

theorem hasKey_of_job (sound : Sound state) {id : Uuid} {job : ArchiveImportJob}
    (isJob : state.jobs id = some job) : state.hasKey job.zipKey = true := by
  unfold hasKey
  rw [List.any_eq_true]
  refine ⟨id, sound.known isJob, ?_⟩
  rw [isJob]
  exact decide_eq_true rfl

/-- A row rewritten under its own key. -/
private theorem OneEach.rewritten (oneEach : OneEach state) {id : Uuid}
    {job after : ArchiveImportJob} (isJob : state.jobs id = some job)
    (jobs : next.jobs = Function.update state.jobs id (some after))
    (sameKey : after.zipKey = job.zipKey) : OneEach next := by
  have before : ∀ {other row}, next.jobs other = some row →
      ∃ earlier, state.jobs other = some earlier ∧ earlier.zipKey = row.zipKey := by
    intro other row here
    rw [jobs] at here
    by_cases same : other = id
    · subst same
      rw [Function.update_self, Option.some.injEq] at here
      subst here
      exact ⟨job, isJob, sameKey.symm⟩
    · rw [Function.update_of_ne same] at here
      exact ⟨row, here, rfl⟩
  intro first second row otherRow here there shared
  rcases before here with ⟨earlier, isEarlier, sameFirst⟩
  rcases before there with ⟨otherEarlier, isOther, sameSecond⟩
  exact oneEach isEarlier isOther (by rw [sameFirst, shared, sameSecond])

theorem OneEach.step (oneEach : OneEach state) (sound : Sound state)
    (unrivalled : Unrivalled state label) (stepped : step label state = .ok next) :
    OneEach next := by
  cases step_rows stepped with
  | still _ jobs _ =>
      intro id other job otherJob here there shared
      rw [jobs] at here there
      exact oneEach here there shared
  | inserted request uploadKey id isInsert checked fresh _ jobs _ =>
      subst isInsert
      have unused : ∀ {other row}, state.jobs other = some row → row.zipKey ≠ uploadKey := by
        intro other row here shared
        have used := hasKey_of_job sound here
        rw [shared, unrivalled uploadKey checked] at used
        contradiction
      intro first second row otherRow here there shared
      rw [jobs] at here there
      by_cases isFirst : first = id
      · by_cases isSecond : second = id
        · rw [isFirst, isSecond]
        · subst isFirst
          rw [Function.update_self, Option.some.injEq] at here
          rw [Function.update_of_ne isSecond] at there
          subst here
          exact absurd shared.symm (unused there)
      · rw [Function.update_of_ne isFirst] at here
        by_cases isSecond : second = id
        · subst isSecond
          rw [Function.update_self, Option.some.injEq] at there
          subst there
          exact absurd shared (unused here)
        · rw [Function.update_of_ne isSecond] at there
          exact oneEach here there shared
  | handed asOf id job isJob _ _ _ jobs _ => exact oneEach.rewritten isJob jobs rfl
  | buried asOf id job isJob _ _ jobs _ => exact oneEach.rewritten isJob jobs rfl
  | landed worker id job status error _ _ isJob _ jobs _ =>
      exact oneEach.rewritten isJob jobs rfl
  | stamped id job at' isJob _ jobs _ => exact oneEach.rewritten isJob jobs rfl

/-- A landed row is not runnable. -/
theorem not_isRunnable_of_isLanded {asOf : Instant} {job : ArchiveImportJob}
    (landed : job.isLanded = true) : isRunnable asOf job = false := by
  unfold ArchiveImportJob.isLanded at landed
  unfold isRunnable
  cases status : job.status <;> rw [status] at landed <;>
    first | rfl | exact absurd landed (by decide)

/-- The row has landed with the status. -/
def LandedAs (id : Uuid) (status : ArchiveImportJobStatus) (state : JobState) : Prop :=
  ∃ job, state.jobs id = some job ∧ job.isLanded = true ∧ job.status = status

/-- Nothing but a stamp reaches a landed row. -/
theorem LandedAs.step {id : Uuid} {status : ArchiveImportJobStatus}
    (landedAs : LandedAs id status state) (sound : Sound state)
    (unrivalled : Unrivalled state label) (stepped : step label state = .ok next) :
    LandedAs id status next := by
  rcases landedAs with ⟨job, isJob, landed, isStatus⟩
  have elsewhere : ∀ {other : Uuid} {after : ArchiveImportJob},
      next.jobs = Function.update state.jobs other (some after) → id ≠ other →
      LandedAs id status next := by
    intro other after jobs different
    refine ⟨job, ?_, landed, isStatus⟩
    rw [jobs, Function.update_of_ne different]
    exact isJob
  have notRunnable : ∀ {asOf : Instant} {other : Uuid} {row : ArchiveImportJob},
      state.jobs other = some row → isRunnable asOf row = true → id ≠ other := by
    intro asOf other row isRow runnable same
    subst same
    rw [isJob, Option.some.injEq] at isRow
    subst isRow
    rw [not_isRunnable_of_isLanded landed] at runnable
    contradiction
  cases step_rows stepped with
  | still _ jobs _ => exact ⟨job, by rw [jobs]; exact isJob, landed, isStatus⟩
  | inserted request uploadKey other _ _ fresh _ jobs _ =>
      refine elsewhere jobs ?_
      intro same
      exact fresh (same ▸ sound.known isJob)
  | handed asOf other row isRow runnable _ _ jobs _ =>
      exact elsewhere jobs (notRunnable isRow runnable)
  | buried asOf other row isRow runnable _ jobs _ =>
      exact elsewhere jobs (notRunnable isRow runnable)
  | landed worker other row _ error isFinish holds isRow _ jobs _ =>
      refine elsewhere jobs ?_
      intro same
      subst isFinish same
      rw [isJob, Option.some.injEq] at isRow
      subst isRow
      have running := unrivalled id job holds isJob
      rw [ArchiveImportJob.isLanded, running] at landed
      contradiction
  | stamped other row at' isRow _ jobs _ =>
      by_cases same : id = other
      · subst same
        rw [isJob, Option.some.injEq] at isRow
        subst isRow
        exact ⟨{ job with startedAt := some at' }, by rw [jobs, Function.update_self], landed,
          isStatus⟩
      · exact elsewhere jobs same

/-- The two invariants of an unrivalled run. -/
structure Kept (state : JobState) : Prop where
  sound : Sound state
  oneEach : OneEach state

theorem kept_of_reachable (reachable : (jobSystem.restrict Unrivalled).Reachable state) :
    Kept state := by
  refine System.Reachable.invariant ?_ ?_ reachable
  · intro start initial
    refine ⟨Initial.sound initial, ?_⟩
    intro id other job otherJob here
    rw [Initial.jobs initial] at here
    contradiction
  · rintro before label after kept ⟨unrivalled, stepped⟩
    exact ⟨kept.sound.step stepped, kept.oneEach.step kept.sound unrivalled stepped⟩

/-- A landed row of an unrivalled run. -/
structure KeptAs (id : Uuid) (status : ArchiveImportJobStatus) (state : JobState) : Prop where
  sound : Sound state
  landedAs : LandedAs id status state

theorem landedAs_of_run {id : Uuid} {status : ArchiveImportJobStatus} {final : JobState}
    (sound : Sound state) (landedAs : LandedAs id status state)
    (run : (jobSystem.restrict Unrivalled).Run state final) : LandedAs id status final := by
  have kept : KeptAs id status final := by
    refine System.Run.preserves ?_ run ⟨sound, landedAs⟩
    rintro before label after kept ⟨unrivalled, stepped⟩
    exact ⟨kept.sound.step stepped, kept.landedAs.step kept.sound unrivalled stepped⟩
  exact kept.landedAs

end JobState

open JobState

/-- In every run where no enqueue and no landing is overtaken, the jobs run safely. -/
theorem runsSafely_of_unrivalled {start : JobState} (initial : start.Initial) :
    RunsSafely ((jobSystem.restrict Unrivalled).startingAt start) where
  oneJobPerKey started := fun here there =>
    (kept_of_reachable (started.of_startingAt initial)).oneEach here there
  withinAttempts started id :=
    (sound_of_reachable (started.of_startingAt initial).of_restrict).withinAttempts id
  freshKept started stepped isJob running :=
    (sound_of_reachable (started.of_startingAt initial).of_restrict).stale_of_claim stepped.2
      isJob running
  landedStays := by
    intro state final id job started run isJob landed
    have sound := sound_of_reachable (started.of_startingAt initial).of_restrict
    rcases landedAs_of_run sound ⟨job, isJob, landed, rfl⟩ run with
      ⟨after, isAfter, _, status⟩
    exact ⟨after, isAfter, status⟩

/-! ### Two requests on one key, and a worker that wakes late -/

namespace Rivals

def uploadKey : Str := str "archives/a.zip"

def owner : ImportOwner where
  user :=
    { id := 1, username := str "osint", email := str "osint@x.org", passwordHash := str "h",
      isActive := true, isAdmin := false, lastSeenAt := none, deletedAt := none,
      tokenVersion := 0 }
  xHandle := some (str "osint")

def start : JobState where
  now := 0
  ids := []
  jobs := fun _ => none
  requests := fun _ => .idle
  workers := fun _ => .idle
  hearts := fun _ => .off
  claims := fun _ => 0

theorem start_initial : start.Initial := by
  constructor <;> first | rfl | exact fun _ => rfl

theorem runsSafely_start : RunsSafely ((jobSystem.restrict Unrivalled).startingAt start) :=
  runsSafely_of_unrivalled start_initial

/-- Both requests check before either inserts. -/
def doubled : List JobLabel :=
  [.enqueue 0 uploadKey, .enqueue 1 uploadKey, .check 0, .check 1, .insert 0 10, .insert 1 11]

theorem doubled_runs : ∃ final, System.runLabels step doubled start = .ok final ∧
    final.jobs 10 = some (newJob uploadKey) ∧ final.jobs 11 = some (newJob uploadKey) :=
  ⟨_, rfl, rfl, rfl⟩

/-- The claim fails: two requests enqueue one key. -/
theorem runsSafely_fails : ¬ RunsSafely jobSystem := by
  intro safe
  rcases doubled_runs with ⟨final, computed, first, second⟩
  have reachable : jobSystem.Reachable final :=
    ⟨start, start_initial, System.Run.of_runLabels computed⟩
  have same := safe.oneJobPerKey reachable first second rfl
  exact absurd same (by decide)

/-- Worker 0 claims and stalls past the window, worker 1 claims and completes. -/
def overtaken : List JobLabel :=
  [.enqueue 0 uploadKey, .check 0, .insert 0 10, .scan 0, .claim 0 10,
    .tick (staleRunningAfter + 1), .scan 1, .claim 1 10, .begin 1 (some owner) (some 5) 0,
    .complete 1, .finish 1]

/-- Worker 0 wakes and finds the staged object gone. -/
def woken : List JobLabel :=
  [.begin 0 (some owner) none 1, .finish 0]

theorem overtaken_runs : ∃ final, System.runLabels step overtaken start = .ok final ∧
    (final.jobs 10).map ArchiveImportJob.status = some .done ∧
    ∃ last, System.runLabels step woken final = .ok last ∧
      (last.jobs 10).map ArchiveImportJob.status = some .failed :=
  ⟨_, rfl, rfl, _, rfl, rfl⟩

/-- A landed job lands again, with another status. -/
theorem landedStays_fails : ∃ state final job after,
    jobSystem.Reachable state ∧ jobSystem.Run state final ∧
      state.jobs 10 = some job ∧ job.status = .done ∧
      final.jobs 10 = some after ∧ after.status = .failed := by
  rcases overtaken_runs with ⟨state, computed, isDone, final, woke, isFailed⟩
  rw [Option.map_eq_some_iff] at isDone isFailed
  rcases isDone with ⟨job, isJob, done⟩
  rcases isFailed with ⟨after, isAfter, failed⟩
  exact ⟨state, final, job, after, ⟨start, start_initial, System.Run.of_runLabels computed⟩,
    System.Run.of_runLabels woke, isJob, done, isAfter, failed⟩

end Rivals

end Vidit.Imports
