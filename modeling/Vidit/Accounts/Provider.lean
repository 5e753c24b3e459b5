import Vidit.Library.Transition

/-!
Contract: what the pages of a tab know of the session, while requests are answered late.

Owns:
- `AuthProvider`: the reads of `/auth/me`, the retry, the recheck after a rejected call, the
  sign-in and the sign-out, each answered in any order;
- `KeepsView`: a late answer changes nothing, a hiccup signs nobody out, an end is told, and who
  `loading` waits for.

Does not own: the server, the display cache, other tabs and a browser that blocks its storage. A
signed-in session is the user `/auth/me` or `/auth/login` answered with.

Proof shape: the steps keep `Sound`. A read knows the version it was sent under, so after a
sign-in or a sign-out the reads in flight are behind, and stay so until another one starts.
-/

namespace Vidit.Accounts

open Vidit.Library

/-- A read of `/auth/me` in flight: the version it was sent under, and whether a hiccup is
retried. -/
structure MeRead where
  version : Nat
  retryOnTransient : Bool
deriving DecidableEq, Repr

/-- How a call was answered: with a user, with the status of an `ApiError`, or not at all. -/
inductive MeAnswer (User : Type) where
  | ok (me : User)
  | status (code : Nat)
  | noAnswer

/-- The state of `AuthProvider`, its refs, `HELD_KEY`, whether the session cookie shows, and what
is in flight. -/
structure AuthProvider (User : Type) where
  user : Option User
  loading : Bool
  sessionEnded : Bool
  stateVersion : Nat
  signedIn : Bool
  rechecking : Bool
  sessionHeld : Bool
  sessionCookie : Bool
  reads : List MeRead
  retries : Nat
  rechecks : List Nat
  logins : Nat
  logouts : Nat

/-- What happens to it. -/
inductive AuthEvent (User : Type) where
  /-- A document load. -/
  | load
  | refresh
  | retryFires
  | readSettles (read : MeRead) (answer : MeAnswer User)
  /-- A call that needs the session got a 401. -/
  | rejected
  | recheckSettles (version : Nat) (answer : MeAnswer User)
  | login
  | loginSettles (answer : MeAnswer User)
  | logout
  | logoutSettles
  | dismissSessionEnded
  /-- The cookies change: a server answer sets or clears them, or they expire. -/
  | cookieChanges (present : Bool)

namespace AuthProvider

variable {User : Type}

/-- `setUser`. -/
def setUser (next : Option User) (auth : AuthProvider User) : AuthProvider User :=
  { auth with
    user := next
    signedIn := next.isSome
    sessionHeld := next.isSome || auth.sessionHeld }

/-- `settleSignedOut`, with `takeEndedSession`. -/
def settleSignedOut (auth : AuthProvider User) : AuthProvider User :=
  { auth.setUser none with
    sessionEnded := auth.sessionHeld || auth.sessionEnded
    sessionHeld := false }

/-- `fetchUser`, up to its request. -/
def fetchUser (retryOnTransient : Bool) (auth : AuthProvider User) : AuthProvider User :=
  if auth.sessionCookie then
    { auth with reads := auth.reads ++ [⟨auth.stateVersion, retryOnTransient⟩] }
  else { auth.settleSignedOut with loading := false }

/-- `fetchUser`, once it is answered. -/
def readAnswered (read : MeRead) (answer : MeAnswer User) (auth : AuthProvider User) :
    AuthProvider User :=
  if read.version ≠ auth.stateVersion then auth
  else
    match answer with
    | .ok me => { auth.setUser (some me) with loading := false }
    | .status code =>
      if code = 401 ∨ code = 403 then { auth.settleSignedOut with loading := false }
      else if read.retryOnTransient then { auth with retries := auth.retries + 1 }
      else { auth with loading := false }
    | .noAnswer =>
      if read.retryOnTransient then { auth with retries := auth.retries + 1 }
      else { auth with loading := false }

/-- The listener of `onSessionRejected`. -/
def sessionRejected (auth : AuthProvider User) : AuthProvider User :=
  if !auth.signedIn then auth
  else if auth.rechecking then auth
  else { auth with rechecking := true, rechecks := auth.rechecks ++ [auth.stateVersion] }

/-- The recheck, once it is answered. -/
def recheckAnswered (version : Nat) (answer : MeAnswer User) (auth : AuthProvider User) :
    AuthProvider User :=
  let settled :=
    if version ≠ auth.stateVersion then auth
    else
      match answer with
      | .ok me => auth.setUser (some me)
      | .status code =>
        if code = 401 then
          { auth.setUser none with
            stateVersion := auth.stateVersion + 1
            sessionHeld := false
            sessionEnded := true }
        else auth
      | .noAnswer => auth
  { settled with rechecking := false }

/-- `login`, once it is answered. -/
def loginAnswered (answer : MeAnswer User) (auth : AuthProvider User) : AuthProvider User :=
  match answer with
  | .ok me =>
    { auth.setUser (some me) with
      stateVersion := auth.stateVersion + 1
      sessionEnded := false }
  | _ => auth

/-- `logout`, whatever the server answered. -/
def logoutAnswered (auth : AuthProvider User) : AuthProvider User :=
  { auth.setUser none with
    stateVersion := auth.stateVersion + 1
    sessionHeld := false }

/-- A document load mounts the provider, whose effect reads the session. -/
def mount (sessionHeld sessionCookie : Bool) : AuthProvider User :=
  fetchUser true
    { user := none
      loading := true
      sessionEnded := false
      stateVersion := 0
      signedIn := false
      rechecking := false
      sessionHeld
      sessionCookie
      reads := []
      retries := 0
      rechecks := []
      logins := 0
      logouts := 0 }

/-- One event; what is not in flight does not settle. -/
def step (event : AuthEvent User) (auth : AuthProvider User) : Except Unit (AuthProvider User) :=
  match event with
  | .load => .ok (mount auth.sessionHeld auth.sessionCookie)
  | .refresh => .ok (auth.fetchUser true)
  | .retryFires =>
    if 0 < auth.retries then .ok ({ auth with retries := auth.retries - 1 }.fetchUser false)
    else .error ()
  | .readSettles read answer =>
    if read ∈ auth.reads then
      .ok ({ auth with reads := auth.reads.erase read }.readAnswered read answer)
    else .error ()
  | .rejected => .ok auth.sessionRejected
  | .recheckSettles version answer =>
    if version ∈ auth.rechecks then
      .ok ({ auth with rechecks := auth.rechecks.erase version }.recheckAnswered version answer)
    else .error ()
  | .login => .ok { auth with logins := auth.logins + 1 }
  | .loginSettles answer =>
    if 0 < auth.logins then .ok ({ auth with logins := auth.logins - 1 }.loginAnswered answer)
    else .error ()
  | .logout => .ok { auth with logouts := auth.logouts + 1 }
  | .logoutSettles =>
    if 0 < auth.logouts then .ok { auth with logouts := auth.logouts - 1 }.logoutAnswered
    else .error ()
  | .dismissSessionEnded => .ok { auth with sessionEnded := false }
  | .cookieChanges present => .ok { auth with sessionCookie := present }

variable (User) in
/-- A tab through its events. -/
def system : System (AuthProvider User) (AuthEvent User) :=
  System.ofStep (fun auth => ∃ held cookie, auth = mount held cookie) step

/-! ### What the pages may rely on -/

/-- The event starts a read, or changes the account by itself. -/
def Starts : AuthEvent User → Prop
  | .load | .refresh | .retryFires | .rejected => True
  | .loginSettles answer => ∃ me, answer = .ok me
  | .logoutSettles => True
  | _ => False

/-- The event starts a read. -/
def Reads : AuthEvent User → Prop
  | .load | .refresh | .retryFires => True
  | _ => False

/-- The server refuses nothing, nobody signs out, and the cookies are there when they are read. -/
def Calm (auth : AuthProvider User) : AuthEvent User → Prop
  | .load => False
  | .refresh | .retryFires => auth.sessionCookie = true
  | .readSettles _ answer => answer ≠ .status 401 ∧ answer ≠ .status 403
  | .recheckSettles _ answer => answer ≠ .status 401
  | .logoutSettles => False
  | _ => True

/-- The event signs in or out while the first read is awaited. -/
def Overtakes (auth : AuthProvider User) (event : AuthEvent User) : Prop :=
  auth.loading = true ∧ ((∃ me, event = .loginSettles (.ok me)) ∨ event = .logoutSettles)

structure KeepsView (User : Type) : Prop where
  /-- An answer to a read sent before a sign-in, a sign-out or an end changes the user no more. -/
  late : ∀ before event after final, (system User).Reachable before →
    (system User).Step before event after → before.stateVersion < after.stateVersion →
    ((system User).restrict fun _ event => ¬ Starts event).Run after final →
      final.user = after.user
  /-- Only a refusal, a sign-out or lost cookies sign a reader out. -/
  calm : ∀ before after, (system User).Reachable before →
    ((system User).restrict Calm).Run before after →
      before.user.isSome = true → after.user.isSome = true
  /-- A session that ends unseen is told on the next load. -/
  told : ∀ before after, (system User).Reachable before → before.user.isSome = true →
    before.sessionCookie = false → (system User).Step before .load after →
      after.sessionEnded = true ∧ after.loading = false
  /-- However many calls fail together, one recheck is in flight. -/
  once : ∀ auth, (system User).Reachable auth →
    auth.rechecks.length = if auth.rechecking then 1 else 0
  /-- While the pages wait, a read of the current version or its retry is on its way, unless a
  sign-in or a sign-out overtook the first read. -/
  awaited : ∀ auth,
    ((system User).restrict fun auth event => ¬ Overtakes auth event).Reachable auth →
      auth.loading = true →
        (∃ read ∈ auth.reads, read.version = auth.stateVersion) ∨ 0 < auth.retries
  /-- Once one did, the pages wait until another read starts. -/
  overtaken : ∀ before event after final, (system User).Reachable before →
    Overtakes before event → (system User).Step before event after →
    ((system User).restrict fun _ event => ¬ Reads event).Run after final →
      final.loading = true

/-! ### The invariant -/

/-- What holds between two events. -/
structure Sound (auth : AuthProvider User) : Prop where
  readsBehind : ∀ read ∈ auth.reads, read.version ≤ auth.stateVersion
  rechecksBehind : ∀ version ∈ auth.rechecks, version ≤ auth.stateVersion
  signed : auth.signedIn = auth.user.isSome
  held : auth.user.isSome = true → auth.sessionHeld = true
  once : auth.rechecks.length = if auth.rechecking then 1 else 0

/-- What settles was in flight. -/
private theorem settled {InFlight : Prop} [Decidable InFlight] {value after : AuthProvider User}
    (stepped : (if InFlight then .ok value else .error () : Except Unit (AuthProvider User)) =
      .ok after) : InFlight ∧ value = after := by
  split at stepped
  · rename_i inFlight
    exact ⟨inFlight, Except.ok.inj stepped⟩
  · contradiction

@[simp]
theorem fetchUser_stateVersion (retryOnTransient : Bool) (auth : AuthProvider User) :
    (auth.fetchUser retryOnTransient).stateVersion = auth.stateVersion := by
  unfold fetchUser
  split
  · rfl
  · rfl

@[simp]
theorem sessionRejected_stateVersion (auth : AuthProvider User) :
    auth.sessionRejected.stateVersion = auth.stateVersion := by
  unfold sessionRejected
  split
  · rfl
  · split
    · rfl
    · rfl

/-- An answer to `/auth/me` moves none of these. -/
theorem readAnswered_frame (read : MeRead) (answer : MeAnswer User) (auth : AuthProvider User) :
    (auth.readAnswered read answer).reads = auth.reads ∧
      (auth.readAnswered read answer).rechecks = auth.rechecks ∧
      (auth.readAnswered read answer).rechecking = auth.rechecking ∧
      (auth.readAnswered read answer).stateVersion = auth.stateVersion := by
  unfold readAnswered
  split
  · exact ⟨rfl, rfl, rfl, rfl⟩
  · cases answer with
    | ok me => exact ⟨rfl, rfl, rfl, rfl⟩
    | status code =>
        dsimp only
        split
        · exact ⟨rfl, rfl, rfl, rfl⟩
        · split
          · exact ⟨rfl, rfl, rfl, rfl⟩
          · exact ⟨rfl, rfl, rfl, rfl⟩
    | noAnswer =>
        dsimp only
        split
        · exact ⟨rfl, rfl, rfl, rfl⟩
        · exact ⟨rfl, rfl, rfl, rfl⟩

theorem recheckAnswered_frame (version : Nat) (answer : MeAnswer User)
    (auth : AuthProvider User) :
    (auth.recheckAnswered version answer).reads = auth.reads ∧
      (auth.recheckAnswered version answer).rechecks = auth.rechecks ∧
      (auth.recheckAnswered version answer).loading = auth.loading ∧
      auth.stateVersion ≤ (auth.recheckAnswered version answer).stateVersion := by
  unfold recheckAnswered
  dsimp only
  split
  · exact ⟨rfl, rfl, rfl, Nat.le_refl _⟩
  · cases answer with
    | ok me => exact ⟨rfl, rfl, rfl, Nat.le_refl _⟩
    | status code =>
        dsimp only
        split
        · exact ⟨rfl, rfl, rfl, Nat.le_succ _⟩
        · exact ⟨rfl, rfl, rfl, Nat.le_refl _⟩
    | noAnswer => exact ⟨rfl, rfl, rfl, Nat.le_refl _⟩

theorem readAnswered_of_behind {read : MeRead} {auth : AuthProvider User}
    (behind : read.version < auth.stateVersion) (answer : MeAnswer User) :
    auth.readAnswered read answer = auth := by
  unfold readAnswered
  rw [if_pos (Nat.ne_of_lt behind)]

theorem recheckAnswered_of_behind {version : Nat} {auth : AuthProvider User}
    (behind : version < auth.stateVersion) (answer : MeAnswer User) :
    auth.recheckAnswered version answer = { auth with rechecking := false } := by
  unfold recheckAnswered
  rw [if_pos (Nat.ne_of_lt behind)]

/-- Who is shown after an answer to `/auth/me`. -/
theorem readAnswered_user (read : MeRead) (answer : MeAnswer User) (auth : AuthProvider User) :
    (auth.readAnswered read answer).user = auth.user ∨
      (∃ me, (auth.readAnswered read answer).user = some me) ∨
        (answer = .status 401 ∨ answer = .status 403) := by
  unfold readAnswered
  split
  · exact .inl rfl
  · cases answer with
    | ok me => exact .inr (.inl ⟨me, rfl⟩)
    | status code =>
        dsimp only
        split
        · rename_i refused
          rcases refused with rfl | rfl
          · exact .inr (.inr (.inl rfl))
          · exact .inr (.inr (.inr rfl))
        · split
          · exact .inl rfl
          · exact .inl rfl
    | noAnswer =>
        dsimp only
        split
        · exact .inl rfl
        · exact .inl rfl

/-- What an answer of the current version leaves to wait for. -/
theorem readAnswered_loading (read : MeRead) (answer : MeAnswer User) (auth : AuthProvider User) :
    (auth.readAnswered read answer).loading = false ∨
      (auth.readAnswered read answer).loading = auth.loading ∧
        (auth.readAnswered read answer).user = auth.user ∧
        (read.version ≠ auth.stateVersion ∧
            (auth.readAnswered read answer).retries = auth.retries ∨
          0 < (auth.readAnswered read answer).retries) := by
  unfold readAnswered
  split
  · rename_i other
    exact .inr ⟨rfl, rfl, .inl ⟨other, rfl⟩⟩
  · cases answer with
    | ok me => exact .inl rfl
    | status code =>
        dsimp only
        split
        · exact .inl rfl
        · split
          · exact .inr ⟨rfl, rfl, .inr (Nat.succ_pos _)⟩
          · exact .inl rfl
    | noAnswer =>
        dsimp only
        split
        · exact .inr ⟨rfl, rfl, .inr (Nat.succ_pos _)⟩
        · exact .inl rfl

section Sound

variable {auth : AuthProvider User}

theorem Sound.setUser (sound : auth.Sound) (next : Option User) : (auth.setUser next).Sound where
  readsBehind := sound.readsBehind
  rechecksBehind := sound.rechecksBehind
  signed := rfl
  held shown := by
    have some : next.isSome = true := shown
    simp [AuthProvider.setUser, some]
  once := sound.once

theorem Sound.settleSignedOut (sound : auth.Sound) : auth.settleSignedOut.Sound where
  readsBehind := sound.readsBehind
  rechecksBehind := sound.rechecksBehind
  signed := rfl
  held shown := by simp [AuthProvider.settleSignedOut, AuthProvider.setUser] at shown
  once := sound.once

theorem Sound.fetchUser (sound : auth.Sound) (retryOnTransient : Bool) :
    (auth.fetchUser retryOnTransient).Sound := by
  unfold AuthProvider.fetchUser
  split
  · refine ⟨?_, sound.rechecksBehind, sound.signed, sound.held, sound.once⟩
    intro read member
    rcases List.mem_append.mp member with earlier | here
    · exact sound.readsBehind read earlier
    · have same := List.mem_singleton.mp here
      subst same
      exact Nat.le_refl _
  · exact { sound.settleSignedOut with }

theorem Sound.readAnswered (sound : auth.Sound) (read : MeRead) (answer : MeAnswer User) :
    (auth.readAnswered read answer).Sound := by
  unfold AuthProvider.readAnswered
  split
  · exact sound
  · cases answer with
    | ok me => exact { sound.setUser (some me) with }
    | status code =>
        dsimp only
        split
        · exact { sound.settleSignedOut with }
        · split
          · exact { sound with }
          · exact { sound with }
    | noAnswer =>
        dsimp only
        split
        · exact { sound with }
        · exact { sound with }

/-- The listener starts a recheck only when none is in flight. -/
theorem Sound.sessionRejected (sound : auth.Sound) : auth.sessionRejected.Sound := by
  unfold AuthProvider.sessionRejected
  split
  · exact sound
  · split
    · exact sound
    · rename_i idle
      have alone := sound.once
      rw [if_neg idle] at alone
      refine ⟨sound.readsBehind, ?_, sound.signed, sound.held, ?_⟩
      · intro version member
        rcases List.mem_append.mp member with earlier | here
        · exact sound.rechecksBehind version earlier
        · have same := List.mem_singleton.mp here
          subst same
          exact Nat.le_refl _
      · rw [List.length_append, alone]
        rfl

/-- The state once its only recheck is answered. -/
theorem Sound.recheckAnswered {version : Nat} (sound : auth.Sound)
    (listed : version ∈ auth.rechecks) (answer : MeAnswer User) :
    ({ auth with rechecks := auth.rechecks.erase version }.recheckAnswered version
      answer).Sound := by
  have alone : auth.rechecks = [version] := by
    have length := sound.once
    have positive := List.length_pos_of_mem listed
    have one : auth.rechecks.length = 1 := by
      split at length
      · exact length
      · omega
    obtain ⟨only, single⟩ := List.length_eq_one_iff.mp one
    rw [single] at listed ⊢
    rw [List.mem_singleton.mp listed]
  have emptied : auth.rechecks.erase version = [] := by
    rw [alone, List.erase_cons_head]
  rw [emptied]
  have idle : Sound { auth with rechecks := [], rechecking := false } :=
    ⟨sound.readsBehind, by simp, sound.signed, sound.held, rfl⟩
  unfold AuthProvider.recheckAnswered
  dsimp only
  split
  · exact idle
  · cases answer with
    | ok me => exact { idle.setUser (some me) with }
    | status code =>
        dsimp only
        split
        · refine ⟨?_, by simp [AuthProvider.setUser], rfl, by simp [AuthProvider.setUser], rfl⟩
          intro read member
          exact Nat.le_succ_of_le (sound.readsBehind read member)
        · exact idle
    | noAnswer => exact idle

/-- Another version puts everything in flight behind. -/
theorem Sound.advance (sound : auth.Sound) :
    Sound { auth with stateVersion := auth.stateVersion + 1 } where
  readsBehind read member := Nat.le_succ_of_le (sound.readsBehind read member)
  rechecksBehind version member := Nat.le_succ_of_le (sound.rechecksBehind version member)
  signed := sound.signed
  held := sound.held
  once := sound.once

theorem Sound.loginAnswered (sound : auth.Sound) (answer : MeAnswer User) :
    (auth.loginAnswered answer).Sound := by
  cases answer with
  | ok me => exact { (sound.setUser (some me)).advance with }
  | status code => exact sound
  | noAnswer => exact sound

theorem Sound.logoutAnswered (sound : auth.Sound) : auth.logoutAnswered.Sound where
  readsBehind := sound.advance.readsBehind
  rechecksBehind := sound.advance.rechecksBehind
  signed := rfl
  held shown := by simp [AuthProvider.logoutAnswered, AuthProvider.setUser] at shown
  once := sound.once

end Sound

theorem sound_mount (sessionHeld sessionCookie : Bool) :
    (mount sessionHeld sessionCookie : AuthProvider User).Sound := by
  unfold mount
  apply Sound.fetchUser
  exact ⟨by simp, by simp, rfl, by simp, rfl⟩

/-- Every event keeps the invariant. -/
theorem sound_step {event : AuthEvent User} {before after : AuthProvider User}
    (sound : before.Sound) (stepped : step event before = .ok after) : after.Sound := by
  cases event with
  | load =>
      cases stepped
      exact sound_mount _ _
  | refresh =>
      cases stepped
      exact sound.fetchUser true
  | retryFires =>
      obtain ⟨_, rfl⟩ := settled stepped
      apply Sound.fetchUser
      exact { sound with }
  | readSettles read answer =>
      obtain ⟨_, rfl⟩ := settled stepped
      apply Sound.readAnswered
      refine { sound with readsBehind := ?_ }
      intro other member
      exact sound.readsBehind other (List.mem_of_mem_erase member)
  | rejected =>
      cases stepped
      exact sound.sessionRejected
  | recheckSettles version answer =>
      obtain ⟨listed, rfl⟩ := settled stepped
      exact sound.recheckAnswered listed answer
  | loginSettles answer =>
      obtain ⟨_, rfl⟩ := settled stepped
      apply Sound.loginAnswered
      exact { sound with }
  | logoutSettles =>
      obtain ⟨_, rfl⟩ := settled stepped
      apply Sound.logoutAnswered
      exact { sound with }
  | login =>
      cases stepped
      exact { sound with }
  | logout =>
      cases stepped
      exact { sound with }
  | dismissSessionEnded =>
      cases stepped
      exact { sound with }
  | cookieChanges present =>
      cases stepped
      exact { sound with }

theorem sound_of_reachable {auth : AuthProvider User} (reachable : (system User).Reachable auth) :
    auth.Sound := by
  apply System.Reachable.invariant _ _ reachable
  · intro start initial
    obtain ⟨held, cookie, rfl⟩ := initial
    exact sound_mount held cookie
  · intro before event after sound stepped
    exact sound_step sound stepped

/-! ### Late answers -/

/-- Everything in flight was sent under an earlier version. -/
structure Behind (auth : AuthProvider User) : Prop where
  reads : ∀ read ∈ auth.reads, read.version < auth.stateVersion
  rechecks : ∀ version ∈ auth.rechecks, version < auth.stateVersion

theorem Sound.behind {auth after : AuthProvider User} (sound : auth.Sound)
    (reads : after.reads = auth.reads) (rechecks : ∀ version ∈ after.rechecks,
      version ∈ auth.rechecks) (advanced : auth.stateVersion < after.stateVersion) :
    after.Behind where
  reads read member := by
    rw [reads] at member
    exact Nat.lt_of_le_of_lt (sound.readsBehind read member) advanced
  rechecks version member :=
    Nat.lt_of_le_of_lt (sound.rechecksBehind version (rechecks version member)) advanced

/-- What moves the version leaves the requests in flight behind. -/
theorem behind_of_advance {event : AuthEvent User} {before after : AuthProvider User}
    (sound : before.Sound) (stepped : step event before = .ok after)
    (advanced : before.stateVersion < after.stateVersion) : after.Behind := by
  cases event with
  | load =>
      cases stepped
      simp [mount] at advanced
  | refresh =>
      cases stepped
      simp at advanced
  | retryFires =>
      obtain ⟨_, rfl⟩ := settled stepped
      simp at advanced
  | readSettles read answer =>
      obtain ⟨_, rfl⟩ := settled stepped
      rw [(readAnswered_frame _ _ _).2.2.2] at advanced
      exact absurd advanced (Nat.lt_irrefl _)
  | rejected =>
      cases stepped
      simp at advanced
  | recheckSettles version answer =>
      obtain ⟨_, rfl⟩ := settled stepped
      have frame := recheckAnswered_frame version answer
        { before with rechecks := before.rechecks.erase version }
      apply sound.behind frame.1 _ advanced
      intro other member
      rw [frame.2.1] at member
      exact List.mem_of_mem_erase member
  | loginSettles answer =>
      obtain ⟨_, rfl⟩ := settled stepped
      cases answer with
      | ok me => exact sound.behind rfl (fun _ member => member) advanced
      | status code => exact absurd advanced (Nat.lt_irrefl _)
      | noAnswer => exact absurd advanced (Nat.lt_irrefl _)
  | logoutSettles =>
      obtain ⟨_, rfl⟩ := settled stepped
      exact sound.behind rfl (fun _ member => member) advanced
  | login =>
      cases stepped
      exact absurd advanced (Nat.lt_irrefl _)
  | logout =>
      cases stepped
      exact absurd advanced (Nat.lt_irrefl _)
  | dismissSessionEnded =>
      cases stepped
      exact absurd advanced (Nat.lt_irrefl _)
  | cookieChanges present =>
      cases stepped
      exact absurd advanced (Nat.lt_irrefl _)

/-- Until another read starts, what was sent before changes the user no more. -/
theorem behind_step {event : AuthEvent User} {before after : AuthProvider User}
    (behind : before.Behind) (quiet : ¬ Starts event) (stepped : step event before = .ok after) :
    after.Behind ∧ after.user = before.user := by
  cases event with
  | load => exact absurd trivial quiet
  | refresh => exact absurd trivial quiet
  | retryFires => exact absurd trivial quiet
  | rejected => exact absurd trivial quiet
  | logoutSettles => exact absurd trivial quiet
  | readSettles read answer =>
      obtain ⟨listed, rfl⟩ := settled stepped
      have late : read.version <
          ({ before with reads := before.reads.erase read } : AuthProvider User).stateVersion :=
        behind.reads read listed
      rw [readAnswered_of_behind late]
      refine ⟨{ behind with reads := ?_ }, rfl⟩
      intro other member
      exact behind.reads other (List.mem_of_mem_erase member)
  | recheckSettles version answer =>
      obtain ⟨listed, rfl⟩ := settled stepped
      have late : version < ({ before with rechecks := before.rechecks.erase version } :
          AuthProvider User).stateVersion :=
        behind.rechecks version listed
      rw [recheckAnswered_of_behind late]
      refine ⟨{ behind with rechecks := ?_ }, rfl⟩
      intro other member
      exact behind.rechecks other (List.mem_of_mem_erase member)
  | loginSettles answer =>
      obtain ⟨_, rfl⟩ := settled stepped
      cases answer with
      | ok me => exact absurd ⟨me, rfl⟩ quiet
      | status code => exact ⟨{ behind with }, rfl⟩
      | noAnswer => exact ⟨{ behind with }, rfl⟩
  | login =>
      cases stepped
      exact ⟨{ behind with }, rfl⟩
  | logout =>
      cases stepped
      exact ⟨{ behind with }, rfl⟩
  | dismissSessionEnded =>
      cases stepped
      exact ⟨{ behind with }, rfl⟩
  | cookieChanges present =>
      cases stepped
      exact ⟨{ behind with }, rfl⟩

/-! ### Hiccups -/

theorem fetchUser_user {auth : AuthProvider User} (present : auth.sessionCookie = true)
    (retryOnTransient : Bool) : (auth.fetchUser retryOnTransient).user = auth.user := by
  unfold fetchUser
  rw [if_pos present]

/-- A calm event signs nobody out. -/
theorem calm_step {event : AuthEvent User} {before after : AuthProvider User}
    (calm : Calm before event) (stepped : step event before = .ok after)
    (shown : before.user.isSome = true) : after.user.isSome = true := by
  cases event with
  | load => exact calm.elim
  | logoutSettles => exact calm.elim
  | refresh =>
      cases stepped
      rw [fetchUser_user calm]
      exact shown
  | retryFires =>
      obtain ⟨_, rfl⟩ := settled stepped
      have present : ({ before with retries := before.retries - 1 } :
          AuthProvider User).sessionCookie = true := calm
      rw [fetchUser_user present]
      exact shown
  | readSettles read answer =>
      obtain ⟨_, rfl⟩ := settled stepped
      rcases readAnswered_user read answer { before with reads := before.reads.erase read } with
        same | ⟨me, some⟩ | refused
      · rw [same]
        exact shown
      · rw [some]
        rfl
      · rcases refused with unauthorized | forbidden
        · exact absurd unauthorized calm.1
        · exact absurd forbidden calm.2
  | rejected =>
      cases stepped
      unfold sessionRejected
      split
      · exact shown
      · split
        · exact shown
        · exact shown
  | recheckSettles version answer =>
      obtain ⟨_, rfl⟩ := settled stepped
      unfold recheckAnswered
      dsimp only
      split
      · exact shown
      · cases answer with
        | ok me => rfl
        | noAnswer => exact shown
        | status code =>
            have other : code ≠ 401 := by
              intro refused
              exact calm (congrArg MeAnswer.status refused)
            dsimp only
            rw [if_neg other]
            exact shown
  | loginSettles answer =>
      obtain ⟨_, rfl⟩ := settled stepped
      cases answer with
      | ok me => rfl
      | status code => exact shown
      | noAnswer => exact shown
  | login =>
      cases stepped
      exact shown
  | logout =>
      cases stepped
      exact shown
  | dismissSessionEnded =>
      cases stepped
      exact shown
  | cookieChanges present =>
      cases stepped
      exact shown

/-! ### Waiting -/

/-- While the pages wait, nobody is shown and a read is on its way. -/
structure Awaits (auth : AuthProvider User) : Prop where
  sound : auth.Sound
  waits : auth.loading = true →
    (∃ read ∈ auth.reads, read.version = auth.stateVersion) ∨ 0 < auth.retries
  nobody : auth.loading = true → auth.user = none
  idle : auth.loading = true → auth.rechecks = []

/-- Without `loading` there is nothing to wait for. -/
theorem Sound.awaits {auth : AuthProvider User} (sound : auth.Sound)
    (done : auth.loading ≠ true) : auth.Awaits :=
  ⟨sound, fun waiting => absurd waiting done, fun waiting => absurd waiting done,
    fun waiting => absurd waiting done⟩

theorem Sound.awaits_fetchUser {auth : AuthProvider User} (sound : auth.Sound)
    (nobody : auth.loading = true → auth.user = none)
    (idle : auth.loading = true → auth.rechecks = []) (retryOnTransient : Bool) :
    (auth.fetchUser retryOnTransient).Awaits := by
  have kept := sound.fetchUser retryOnTransient
  unfold AuthProvider.fetchUser at kept ⊢
  split
  · rename_i present
    rw [if_pos present] at kept
    refine ⟨kept, ?_, nobody, idle⟩
    intro _
    left
    exact ⟨⟨auth.stateVersion, retryOnTransient⟩, by simp, rfl⟩
  · rename_i absent
    rw [if_neg absent] at kept
    exact kept.awaits Bool.false_ne_true

theorem awaits_mount (sessionHeld sessionCookie : Bool) :
    (mount sessionHeld sessionCookie : AuthProvider User).Awaits := by
  unfold mount
  apply Sound.awaits_fetchUser
  · exact ⟨by simp, by simp, rfl, by simp, rfl⟩
  · exact fun _ => rfl
  · exact fun _ => rfl

/-- An event that overtakes nothing keeps the wait. -/
theorem awaits_step {event : AuthEvent User} {before after : AuthProvider User}
    (awaits : before.Awaits) (inTurn : ¬ Overtakes before event)
    (stepped : step event before = .ok after) : after.Awaits := by
  have sound := sound_step awaits.sound stepped
  cases event with
  | load =>
      cases stepped
      exact awaits_mount _ _
  | refresh =>
      cases stepped
      exact awaits.sound.awaits_fetchUser awaits.nobody awaits.idle true
  | retryFires =>
      obtain ⟨_, rfl⟩ := settled stepped
      apply Sound.awaits_fetchUser
      · exact { awaits.sound with }
      · exact awaits.nobody
      · exact awaits.idle
  | readSettles read answer =>
      obtain ⟨_, rfl⟩ := settled stepped
      have frame := readAnswered_frame read answer
        { before with reads := before.reads.erase read }
      rcases readAnswered_loading read answer
        { before with reads := before.reads.erase read } with done | ⟨loading, user, pending⟩
      · apply sound.awaits
        rw [done]
        exact Bool.false_ne_true
      · refine ⟨sound, ?_, ?_, ?_⟩
        · intro waiting
          rw [loading] at waiting
          rcases pending with ⟨other, retries⟩ | retried
          · rw [frame.1, frame.2.2.2, retries]
            rcases awaits.waits waiting with ⟨current, listed, version⟩ | retry
            · left
              refine ⟨current, ?_, version⟩
              apply (List.mem_erase_of_ne _).mpr listed
              intro same
              exact other (same ▸ version)
            · right
              exact retry
          · right
            exact retried
        · intro waiting
          rw [loading] at waiting
          rw [user]
          exact awaits.nobody waiting
        · intro waiting
          rw [loading] at waiting
          rw [frame.2.1]
          exact awaits.idle waiting
  | rejected =>
      cases stepped
      by_cases waiting : before.loading = true
      · have signedOut : before.signedIn = false := by
          rw [awaits.sound.signed, awaits.nobody waiting]
          rfl
        have ignored : before.sessionRejected = before := by
          unfold sessionRejected
          rw [signedOut]
          rfl
        rw [ignored]
        exact awaits
      · apply sound.awaits
        unfold sessionRejected
        split
        · exact waiting
        · split
          · exact waiting
          · exact waiting
  | recheckSettles version answer =>
      obtain ⟨listed, rfl⟩ := settled stepped
      apply sound.awaits
      rw [(recheckAnswered_frame _ _ _).2.2.1]
      intro waiting
      rw [awaits.idle waiting] at listed
      exact List.not_mem_nil listed
  | loginSettles answer =>
      obtain ⟨_, rfl⟩ := settled stepped
      cases answer with
      | ok me =>
          apply sound.awaits
          intro waiting
          exact inTurn ⟨waiting, .inl ⟨me, rfl⟩⟩
      | status code => exact ⟨sound, awaits.waits, awaits.nobody, awaits.idle⟩
      | noAnswer => exact ⟨sound, awaits.waits, awaits.nobody, awaits.idle⟩
  | logoutSettles =>
      obtain ⟨_, rfl⟩ := settled stepped
      apply sound.awaits
      intro waiting
      exact inTurn ⟨waiting, .inr rfl⟩
  | login =>
      cases stepped
      exact ⟨sound, awaits.waits, awaits.nobody, awaits.idle⟩
  | logout =>
      cases stepped
      exact ⟨sound, awaits.waits, awaits.nobody, awaits.idle⟩
  | dismissSessionEnded =>
      cases stepped
      exact ⟨sound, awaits.waits, awaits.nobody, awaits.idle⟩
  | cookieChanges present =>
      cases stepped
      exact ⟨sound, awaits.waits, awaits.nobody, awaits.idle⟩

theorem awaits_of_reachable {auth : AuthProvider User}
    (reachable : ((system User).restrict fun auth event => ¬ Overtakes auth event).Reachable
      auth) : auth.Awaits := by
  apply System.Reachable.invariant _ _ reachable
  · intro start initial
    obtain ⟨held, cookie, rfl⟩ := initial
    exact awaits_mount held cookie
  · intro before event after awaits stepped
    exact awaits_step awaits stepped.1 stepped.2

/-- The pages wait for reads of an earlier version, whose answers are dropped. -/
structure Stuck (auth : AuthProvider User) : Prop where
  loading : auth.loading = true
  reads : ∀ read ∈ auth.reads, read.version < auth.stateVersion

theorem stuck_step {event : AuthEvent User} {before after : AuthProvider User}
    (stuck : before.Stuck) (quiet : ¬ Reads event) (stepped : step event before = .ok after) :
    after.Stuck := by
  cases event with
  | load => exact absurd trivial quiet
  | refresh => exact absurd trivial quiet
  | retryFires => exact absurd trivial quiet
  | readSettles read answer =>
      obtain ⟨listed, rfl⟩ := settled stepped
      have late : read.version <
          ({ before with reads := before.reads.erase read } : AuthProvider User).stateVersion :=
        stuck.reads read listed
      rw [readAnswered_of_behind late]
      refine ⟨stuck.loading, ?_⟩
      intro other member
      exact stuck.reads other (List.mem_of_mem_erase member)
  | rejected =>
      cases stepped
      unfold sessionRejected
      split
      · exact stuck
      · split
        · exact stuck
        · exact ⟨stuck.loading, stuck.reads⟩
  | recheckSettles version answer =>
      obtain ⟨_, rfl⟩ := settled stepped
      have frame := recheckAnswered_frame version answer
        { before with rechecks := before.rechecks.erase version }
      refine ⟨?_, ?_⟩
      · rw [frame.2.2.1]
        exact stuck.loading
      · intro read member
        rw [frame.1] at member
        exact Nat.lt_of_lt_of_le (stuck.reads read member) frame.2.2.2
  | loginSettles answer =>
      obtain ⟨_, rfl⟩ := settled stepped
      cases answer with
      | ok me => exact ⟨stuck.loading, fun read member =>
          Nat.lt_succ_of_lt (stuck.reads read member)⟩
      | status code => exact ⟨stuck.loading, stuck.reads⟩
      | noAnswer => exact ⟨stuck.loading, stuck.reads⟩
  | logoutSettles =>
      obtain ⟨_, rfl⟩ := settled stepped
      exact ⟨stuck.loading, fun read member => Nat.lt_succ_of_lt (stuck.reads read member)⟩
  | login =>
      cases stepped
      exact ⟨stuck.loading, stuck.reads⟩
  | logout =>
      cases stepped
      exact ⟨stuck.loading, stuck.reads⟩
  | dismissSessionEnded =>
      cases stepped
      exact ⟨stuck.loading, stuck.reads⟩
  | cookieChanges present =>
      cases stepped
      exact ⟨stuck.loading, stuck.reads⟩

/-- A sign-in or a sign-out that overtakes the first read leaves the pages waiting. -/
theorem stuck_of_overtakes {event : AuthEvent User} {before after : AuthProvider User}
    (sound : before.Sound) (overtakes : Overtakes before event)
    (stepped : step event before = .ok after) : after.Stuck := by
  obtain ⟨waiting, ⟨me, rfl⟩ | rfl⟩ := overtakes
  · obtain ⟨_, rfl⟩ := settled stepped
    exact ⟨waiting, fun read member => Nat.lt_succ_of_le (sound.readsBehind read member)⟩
  · obtain ⟨_, rfl⟩ := settled stepped
    exact ⟨waiting, fun read member => Nat.lt_succ_of_le (sound.readsBehind read member)⟩

/-! ### The view -/

end AuthProvider

end Vidit.Accounts
