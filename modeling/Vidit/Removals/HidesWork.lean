import Vidit.Removals.Steps
import Vidit.World.Step

/-!
Contract: a removed account owns no live event that is not withheld, in every run whose
hand-overs find their heir standing.

The heir is chosen under a lock on the event alone. A removal of the heir that hides its
events between the choice and the commit of the hand-over leaves the event live with a
removed owner.

Owns:
- what a process knows of the rows it has locked, and that the steps of the others leave
  it so;
- what each commit writes, and that it keeps the work of removed accounts out of sight;
- the run of two removals that does not.

Proof shape: one step is inverted into an `Effect`; what it writes on an event is an
`EventWrite` under the writer's locks, from which the others' knowledge follows.
-/

namespace Vidit.Removals

open Vidit.Python Vidit.Accounts Vidit.Events Vidit.Library Vidit.World

/-! ### What a process knows -/

/-- The hand-overs that have committed since a statement saw `seen` of them. -/
def recent (seen : Nat) (transfers : List Heir) : List Heir :=
  transfers.take (transfers.length - seen)

theorem mem_recent_append {seen : Nat} {new transfers : List Heir} {heir : Heir}
    (within : seen ≤ transfers.length) :
    heir ∈ recent seen (new ++ transfers) ↔ heir ∈ new ∨ heir ∈ recent seen transfers := by
  unfold recent
  have split : (new ++ transfers).length - seen = new.length + (transfers.length - seen) := by
    rw [List.length_append]
    omega
  rw [split, List.take_length_add_append, List.mem_append]

namespace State

def HoldsEvent (state : State) (process : Nat) (eventId : Uuid) : Prop :=
  state.locks.exclusive (.event eventId) = some process

def HoldsUser (state : State) (process : Nat) (userId : Uuid) : Prop :=
  state.locks.exclusive (.user userId) = some process

def HoldsKey (state : State) (process : Nat) (userId : Uuid) : Prop :=
  state.locks.exclusive (.userKey userId) = some process

/-- A foreign key in flight shares the account's key. -/
def SharesKey (state : State) (process : Nat) (userId : Uuid) : Prop :=
  state.locks.Shares process (.userKey userId)

def Stands (state : State) (userId : Uuid) : Prop :=
  ∃ user ∈ state.users, user.id = userId

/-- The rows a statement took are locked, and as it matched them. -/
def Taken (state : State) (process : Nat) (scan : Scan) (taken : List Uuid) : Prop :=
  ∀ eventId ∈ taken, state.HoldsEvent process eventId ∧
    ∀ geo ∈ state.events, geo.id = eventId → scan.wanted geo = true

/-- The events that pass on are locked, and pass to someone else. -/
structure Chosen (state : State) (process : Nat) (user : User) (heirs : List Heir) : Prop where
  locked : ∀ heir ∈ heirs, state.HoldsEvent process heir.1
  other : ∀ heir ∈ heirs, heir.2 ≠ user.id

/-- The flushed foreign keys hold the heirs' accounts in place. -/
structure Flushed (state : State) (process : Nat) (heirs : List Heir) : Prop where
  shares : ∀ heir ∈ heirs, state.SharesKey process heir.2
  stands : ∀ heir ∈ heirs, state.Stands heir.2

/-- Every live event of the account is under the statement, passes on, or was handed to it
since the statement began. -/
def Covers (state : State) (user : User) (heirs : List Heir) (seen : Nat)
    (under : List Uuid) : Prop :=
  ∀ geo ∈ state.events, geo.ownerId = user.id → geo.deletedAt = none →
    geo.id ∈ under ∨ geo.id ∈ heirs.map Prod.fst ∨ (geo.id, user.id) ∈ recent seen state.transfers

/-- A soft deletion from its cascade on. -/
structure Cascades (state : State) (process : Nat) (user : User) (heirs : List Heir)
    (seen : Nat) (under : List Uuid) : Prop where
  chosen : state.Chosen process user heirs
  flushed : state.Flushed process heirs
  locked : state.HoldsUser process user.id
  within : seen ≤ state.transfers.length
  covers : state.Covers user heirs seen under

/-- What a statement knows beside the rows it took. -/
def ScanHolds (state : State) (process : Nat) (under : List Uuid) : Scan → Prop
  | .owned _ => True
  | .cascade user heirs _ seen => state.Cascades process user heirs seen under
  | .restored user => state.HoldsUser process user.id

/-- What a process knows at each statement. -/
def Holds (state : State) (process : Nat) : Process → Prop
  | .scanning scan waiting taken =>
    state.Taken process scan taken ∧ state.ScanHolds process (waiting ++ taken) scan
  | .readHeirs removal owned => state.Taken process (.owned removal) owned
  | .flush removal owned heirs pending =>
    state.Taken process (.owned removal) owned ∧ state.Chosen process removal.user heirs ∧
      ∀ heir ∈ heirs, heir ∈ pending ∨ state.Flushed process [heir]
  | .writeUser removal owned heirs =>
    state.Taken process (.owned removal) owned ∧ state.Chosen process removal.user heirs ∧
      state.Flushed process heirs
  | .startCascade user heirs _ =>
    state.Chosen process user heirs ∧ state.Flushed process heirs ∧
      state.HoldsUser process user.id
  | .commitSoft user heirs stamp seen hidden =>
    state.Taken process (.cascade user heirs stamp seen) hidden ∧
      state.Cascades process user heirs seen hidden
  | .commitHard user owned heirs =>
    state.Taken process (.owned ⟨.hard, user⟩) owned ∧ state.Chosen process user heirs ∧
      state.Flushed process heirs ∧ state.HoldsKey process user.id ∧
      ∀ geo ∈ state.events, geo.ownerId = user.id → geo.id ∈ owned
  | .commitRestore user restored =>
    state.Taken process (.restored user) restored ∧ state.HoldsUser process user.id
  | _ => True

structure Sound (state : State) : Prop where
  primaryKey : KeyedBy Event.id state.events
  foreignKey : ∀ geo ∈ state.events, state.Stands geo.ownerId
  holds : ∀ process, state.Holds process (state.processes process)

/-! ### What a step leaves to the others -/

variable {state next : State} {process holder : Nat}

/-- What a process writes on an event, and under which locks. -/
inductive EventWrite (state next : State) (process : Nat) (row geo : Event) : Prop where
  | kept (owner : geo.ownerId = row.ownerId) (deletedAt : geo.deletedAt = row.deletedAt)
  | passed (locked : state.HoldsEvent process row.id)
      (shares : state.SharesKey process geo.ownerId)
      (logged : ∀ seen ≤ state.transfers.length,
        (geo.id, geo.ownerId) ∈ recent seen next.transfers)
  | hidden (locked : state.HoldsEvent process row.id) (owner : geo.ownerId = row.ownerId)
      (deleted : geo.deletedAt ≠ none)
  | restored (locked : state.HoldsEvent process row.id) (owner : geo.ownerId = row.ownerId)
      (held : state.HoldsUser process geo.ownerId)

/-- What one step writes. -/
structure Writes (state next : State) (process : Nat) : Prop where
  events : ∀ geo ∈ next.events, ∃ row ∈ state.events, row.id = geo.id ∧
    EventWrite state next process row geo
  users : ∀ {userId}, state.Stands userId →
    next.Stands userId ∨ state.HoldsKey process userId
  transfers : ∃ new, next.transfers = new ++ state.transfers

theorem Scan.wanted_congr (scan : Scan) {row geo : Event} (id : geo.id = row.id)
    (owner : geo.ownerId = row.ownerId) (deletedAt : geo.deletedAt = row.deletedAt) :
    scan.wanted geo = scan.wanted row := by
  cases scan <;> simp only [Scan.wanted, id, owner, deletedAt]

/-- Only the holder of an event's row moves its owner or its stamp. -/
theorem EventWrite.kept_of_held {row geo : Event} (write : EventWrite state next process row geo)
    (others : holder ≠ process) (held : state.HoldsEvent holder row.id) :
    geo.ownerId = row.ownerId ∧ geo.deletedAt = row.deletedAt := by
  have apart : ¬ state.HoldsEvent process row.id := fun also =>
    others (Option.some.inj (held.symm.trans also))
  cases write with
  | kept owner deletedAt => exact ⟨owner, deletedAt⟩
  | passed locked _ _ => exact absurd locked apart
  | hidden locked _ _ => exact absurd locked apart
  | restored locked _ _ => exact absurd locked apart

section Rely

variable (locks : state.locks.Leaves next.locks process) (writes : Writes state next process)
  (others : holder ≠ process)

include locks writes others

theorem Taken.keeps {scan : Scan} {taken : List Uuid} (holds : state.Taken holder scan taken) :
    next.Taken holder scan taken := by
  intro eventId member
  rcases holds eventId member with ⟨held, wanted⟩
  refine ⟨locks.exclusive others held, ?_⟩
  intro geo inEvents here
  rcases writes.events geo inEvents with ⟨row, inRows, sameId, write⟩
  have rowHere : row.id = eventId := sameId.trans here
  have kept := write.kept_of_held others (rowHere ▸ held)
  rw [Scan.wanted_congr scan sameId.symm kept.1 kept.2]
  exact wanted row inRows rowHere

omit writes in
theorem Chosen.keeps {user : User} {heirs : List Heir} (holds : state.Chosen holder user heirs) :
    next.Chosen holder user heirs where
  locked heir member := locks.exclusive others (holds.locked heir member)
  other := holds.other

theorem Flushed.keeps {heirs : List Heir} (holds : state.Flushed holder heirs) :
    next.Flushed holder heirs where
  shares heir member := locks.shares others (holds.shares heir member)
  stands heir member := by
    rcases writes.users (holds.stands heir member) with stands | erased
    · exact stands
    · exact absurd (KeyLocks.shares_apart erased (holds.shares heir member)) others

theorem Cascades.keeps {user : User} {heirs : List Heir} {seen : Nat} {under : List Uuid}
    (holds : state.Cascades holder user heirs seen under) :
    next.Cascades holder user heirs seen under := by
  rcases writes.transfers with ⟨new, transfers⟩
  have within : seen ≤ next.transfers.length := by
    rw [transfers, List.length_append]
    exact le_trans holds.within (Nat.le_add_left _ _)
  refine ⟨holds.chosen.keeps locks others, holds.flushed.keeps locks writes others,
    locks.exclusive others holds.locked, within, ?_⟩
  intro geo inEvents owns live
  rcases writes.events geo inEvents with ⟨row, inRows, sameId, write⟩
  cases write with
  | kept owner deletedAt =>
      have before' := holds.covers row inRows (owner ▸ owns) (deletedAt ▸ live)
      rw [sameId] at before'
      refine before'.imp_right (Or.imp_right fun earlier => ?_)
      rw [transfers]
      exact (mem_recent_append holds.within).mpr (.inr earlier)
  | passed _ _ logged => exact .inr (.inr (owns ▸ logged seen holds.within))
  | hidden _ _ deleted => exact absurd live deleted
  | restored _ _ held =>
      -- the restore of this account waits for the row this removal holds
      rw [owns] at held
      exact absurd (Option.some.inj (holds.locked.symm.trans held)) others

/-- What a process knows stays so under the steps of the others. -/
theorem Holds.keeps {place : Process} (holds : state.Holds holder place) :
    next.Holds holder place := by
  cases place with
  | scanning scan waiting taken =>
      refine ⟨holds.1.keeps locks writes others, ?_⟩
      cases scan with
      | owned removal => trivial
      | cascade user heirs stamp seen => exact Cascades.keeps locks writes others holds.2
      | restored user => exact locks.exclusive others holds.2
  | readHeirs removal owned => exact Taken.keeps locks writes others holds
  | flush removal owned heirs pending =>
      rcases holds with ⟨taken, chosen, flushed⟩
      exact ⟨taken.keeps locks writes others, chosen.keeps locks others, fun heir member =>
        (flushed heir member).imp_right fun kept => kept.keeps locks writes others⟩
  | writeUser removal owned heirs =>
      rcases holds with ⟨taken, chosen, flushed⟩
      exact ⟨taken.keeps locks writes others, chosen.keeps locks others,
        flushed.keeps locks writes others⟩
  | startCascade user heirs stamp =>
      rcases holds with ⟨chosen, flushed, held⟩
      exact ⟨chosen.keeps locks others, flushed.keeps locks writes others,
        locks.exclusive others held⟩
  | commitSoft user heirs stamp seen hidden =>
      exact ⟨holds.1.keeps locks writes others, holds.2.keeps locks writes others⟩
  | commitHard user owned heirs =>
      rcases holds with ⟨taken, chosen, flushed, key, all⟩
      refine ⟨taken.keeps locks writes others, chosen.keeps locks others,
        flushed.keeps locks writes others, locks.exclusive others key, ?_⟩
      intro geo inEvents owns
      rcases writes.events geo inEvents with ⟨row, inRows, sameId, write⟩
      rw [← sameId]
      cases write with
      | kept owner _ => exact all row inRows (owner ▸ owns)
      | passed _ shares _ =>
          -- a hand-over to the account shares the key that this erasure holds
          rw [owns] at shares
          exact absurd (KeyLocks.shares_apart key shares).symm others
      | hidden _ owner _ => exact all row inRows (owner ▸ owns)
      | restored _ owner _ => exact all row inRows (owner ▸ owns)
  | commitRestore user restored =>
      exact ⟨holds.1.keeps locks writes others, locks.exclusive others holds.2⟩
  | _ => trivial

end Rely

/-! ### What each statement does -/

/-- One step of a process: its own place, what it writes, and what the others keep. -/
structure Moves (state next : State) (process : Nat) : Prop where
  others : ∀ {other}, other ≠ process → next.processes other = state.processes other
  locks : state.locks.Leaves next.locks process
  writes : Writes state next process
  primaryKey : KeyedBy Event.id next.events
  foreignKey : ∀ geo ∈ next.events, next.Stands geo.ownerId
  own : next.Holds process (next.processes process)

theorem Sound.moves (sound : state.Sound) (moves : Moves state next process) : next.Sound where
  primaryKey := moves.primaryKey
  foreignKey := moves.foreignKey
  holds other := by
    by_cases here : other = process
    · exact here ▸ moves.own
    · rw [moves.others here]
      exact (sound.holds other).keeps moves.locks moves.writes here

theorem Writes.none (events : next.events = state.events) (users : next.users = state.users)
    (transfers : next.transfers = state.transfers) : Writes state next process where
  events geo inEvents := ⟨geo, events ▸ inEvents, rfl, .kept rfl rfl⟩
  users stands := .inl (by rwa [Stands, users])
  transfers := ⟨[], by rw [transfers, List.nil_append]⟩

/-- A statement that writes no row goes to its next place under the locks it has taken or
let go. -/
theorem Moves.unwritten (sound : state.Sound) {place : Process}
    (processes : next.processes = Function.update state.processes process place)
    (locks : state.locks.Leaves next.locks process) (events : next.events = state.events)
    (users : next.users = state.users) (transfers : next.transfers = state.transfers)
    (own : next.Holds process place) : Moves state next process where
  others different := by rw [processes, Function.update_of_ne different]
  locks := locks
  writes := .none events users transfers
  primaryKey := events ▸ sound.primaryKey
  foreignKey geo inEvents := by
    rw [Stands, users]
    exact sound.foreignKey geo (events ▸ inEvents)
  own := by rwa [processes, Function.update_self]

/-- A transaction that ends without a write. -/
theorem moves_finish (sound : state.Sound) {place : Process} (ended : place.ended = true) :
    Moves state (state.finish process place) process := by
  refine .unwritten sound rfl (KeyLocks.leaves_release ..) rfl rfl rfl ?_
  cases place <;> trivial

theorem event?_eq (sound : state.Sound) {geo : Event} (inEvents : geo ∈ state.events) :
    state.event? geo.id = some geo := by
  cases found : state.event? geo.id with
  | none =>
      have absent := List.find?_eq_none.mp found geo inEvents
      exact absurd (decide_eq_true rfl) absent
  | some other =>
      have same : other.id = geo.id := by simpa using List.find?_some found
      rw [sound.primaryKey other (List.mem_of_find?_eq_some found) geo inEvents same]

theorem user?_stands {userId : Uuid} (found : state.user? userId ≠ none) :
    state.Stands userId := by
  cases isUser : state.user? userId with
  | none => exact absurd isUser found
  | some user =>
      exact ⟨user, List.mem_of_find?_eq_some isUser, by simpa using List.find?_some isUser⟩

/-- The snapshot of a statement. -/
theorem moves_startScan (sound : state.Sound) {scan : Scan} {locks : KeyLocks Nat Row}
    (leaves : state.locks.Leaves locks process)
    (holds : ({ state.startScan process scan with locks := locks } : State).ScanHolds process
      (((state.events.filter scan.wanted).map Event.id) ++ []) scan) :
    Moves state { state.startScan process scan with locks := locks } process :=
  .unwritten sound rfl leaves rfl rfl rfl ⟨fun _ member => absurd member List.not_mem_nil, holds⟩

/-- A row is locked, and kept under the statement when it still matches. -/
theorem moves_scanRow (sound : state.Sound) {scan : Scan} {waiting taken : List Uuid}
    (holds : state.Holds process (.scanning scan waiting taken))
    (scanned : state.scanRow process scan waiting taken = .ok next) :
    Moves state next process := by
  rcases holds with ⟨tookRows, scanHolds⟩
  unfold scanRow at scanned
  split at scanned
  · cases scanned
    refine .unwritten sound rfl (.refl ..) rfl rfl rfl ?_
    cases scan with
    | owned removal => exact tookRows
    | cascade user heirs stamp seen =>
        rcases scanHolds with ⟨chosen, flushed, locked, within, covers⟩
        exact ⟨tookRows, ⟨chosen.locked, chosen.other⟩, ⟨flushed.shares, flushed.stands⟩, locked,
          within, covers⟩
    | restored user => exact ⟨tookRows, scanHolds⟩
  · rename_i eventId rest
    split at scanned
    · contradiction
    · rename_i locks granted
      cases scanned
      refine .unwritten sound rfl (KeyLocks.leaves_of_lock granted) rfl rfl rfl ⟨?_, ?_⟩
      · intro other member
        have earlier : other ∈ taken → locks.exclusive (.event other) = some process ∧
            ∀ geo ∈ state.events, geo.id = other → scan.wanted geo = true := fun old =>
          ⟨KeyLocks.exclusive_lock_of_held granted (tookRows other old).1,
            (tookRows other old).2⟩
        split at member
        · rename_i matched
          rcases List.mem_append.mp member with old | new
          · exact earlier old
          · rw [List.mem_singleton.mp new]
            refine ⟨KeyLocks.exclusive_of_lock granted, ?_⟩
            intro geo inEvents here
            rw [← here, event?_eq sound inEvents] at matched
            exact matched
        · exact earlier member
      · cases scan with
        | owned removal => trivial
        | restored user => exact KeyLocks.exclusive_lock_of_held granted scanHolds
        | cascade user heirs stamp seen =>
            rcases scanHolds with ⟨chosen, flushed, locked, within, covers⟩
            refine ⟨⟨fun heir member => KeyLocks.exclusive_lock_of_held granted
                (chosen.locked heir member), chosen.other⟩,
              ⟨fun heir member => (KeyLocks.shares_lock_iff granted).mpr
                (flushed.shares heir member), flushed.stands⟩,
              KeyLocks.exclusive_lock_of_held granted locked, within, ?_⟩
            intro geo inEvents owns live
            rcases covers geo inEvents owns live with under | passes
            · by_cases passing : geo.id ∈ heirs.map Prod.fst
              · exact .inr (.inl passing)
              · refine .inl ?_
                rcases List.mem_append.mp under with waits | old
                · rcases List.mem_cons.mp waits with here | later
                  · -- the row just locked still matches
                    have matched : (state.event? eventId).any
                        (Scan.cascade user heirs stamp seen).wanted = true := by
                      rw [← here, event?_eq sound inEvents]
                      simp [Scan.wanted, owns, live, passing]
                    rw [if_pos matched]
                    simp [here]
                  · exact List.mem_append.mpr (.inl later)
                · refine List.mem_append.mpr (.inr ?_)
                  split
                  · exact List.mem_append.mpr (.inl old)
                  · exact old
            · exact .inr passes

theorem moves_readUser (sound : state.Sound) {kind : RemovalKind} {userId : Uuid} :
    Moves state (state.readUser process kind userId) process := by
  unfold readUser
  split
  · exact moves_finish sound rfl
  · split
    · exact moves_finish sound rfl
    · exact moves_startScan sound (.refl ..) trivial

/-- The heirs are of owned events, and none is the account itself. -/
theorem moves_readHeirs (sound : state.Sound) {removal : Removal} {owned : List Uuid}
    (took : state.Taken process (.owned removal) owned) :
    Moves state (state.readHeirs process removal owned) process := by
  refine .unwritten sound rfl (.refl ..) rfl rfl rfl ⟨took, ⟨?_, ?_⟩, fun _ => .inl⟩
  all_goals
    intro heir member
    rcases List.mem_filterMap.mp member with ⟨eventId, inOwned, chosen⟩
    rcases Option.bind_eq_some_iff.mp chosen with ⟨geo, _, inherits⟩
    rcases Option.map_eq_some_iff.mp inherits with ⟨heirId, isHeir, rfl⟩
  · exact (took eventId inOwned).1
  · exact (handOverHeir_active isHeir).1

theorem moves_flush (sound : state.Sound) {removal : Removal} {owned : List Uuid}
    {heirs pending : List Heir}
    (holds : state.Holds process (.flush removal owned heirs pending))
    (flushing : state.flush process removal owned heirs pending = .ok next) :
    Moves state next process := by
  rcases holds with ⟨took, chosen, flushed⟩
  unfold flush at flushing
  split at flushing
  · cases flushing
    refine .unwritten sound rfl (.refl ..) rfl rfl rfl
      ⟨took, ⟨chosen.locked, chosen.other⟩, ?_, ?_⟩
    all_goals
      intro heir member
      have done := (flushed heir member).resolve_left List.not_mem_nil
    · exact done.shares heir (List.mem_singleton.mpr rfl)
    · exact done.stands heir (List.mem_singleton.mpr rfl)
  · rename_i heir rest
    split at flushing
    · contradiction
    · rename_i locks granted
      split at flushing
      · cases flushing
        exact moves_finish sound rfl
      · rename_i found
        cases flushing
        have exclusive := KeyLocks.exclusive_of_share granted
        refine .unwritten sound rfl (KeyLocks.leaves_of_share granted) rfl rfl rfl
          ⟨?_, ⟨?_, chosen.other⟩, ?_⟩
        · intro eventId member
          refine ⟨?_, (took eventId member).2⟩
          show locks.exclusive _ = _
          rw [exclusive]
          exact (took eventId member).1
        · intro other member
          show locks.exclusive _ = _
          rw [exclusive]
          exact chosen.locked other member
        · intro other member
          rcases flushed other member with waits | done
          · rcases List.mem_cons.mp waits with rfl | later
            · refine .inr ⟨?_, ?_⟩
              all_goals
                intro only isOnly
                rw [List.mem_singleton.mp isOnly]
              · exact (KeyLocks.shares_of_share granted).mpr (.inl ⟨rfl, rfl⟩)
              · exact user?_stands found
            · exact .inl later
          · exact .inr ⟨fun only isOnly => (KeyLocks.shares_of_share granted).mpr
              (.inr (done.shares only isOnly)), done.stands⟩

/-- The account's row is held from its UPDATE on. -/
theorem moves_softenUser (sound : state.Sound) {user : User} {heirs : List Heir}
    (chosen : state.Chosen process user heirs) (flushed : state.Flushed process heirs)
    (softened : state.softenUser process user heirs = .ok next) : Moves state next process := by
  have kept : ∀ {locks : KeyLocks Nat Row}, state.locks.Leaves locks process →
      (∀ {row}, state.locks.exclusive row = some process → locks.exclusive row = some process) →
      (∀ {row}, state.locks.Shares process row → locks.Shares process row) →
      locks.exclusive (.user user.id) = some process →
      Moves state { state.setProcess process (.startCascade user heirs state.now) with
        locks := locks } process := by
    intro locks leaves exclusive shares held
    exact .unwritten sound rfl leaves rfl rfl rfl
      ⟨⟨fun heir member => exclusive (chosen.locked heir member), chosen.other⟩,
        ⟨fun heir member => shares (flushed.shares heir member), flushed.stands⟩, held⟩
  unfold softenUser at softened
  split at softened
  · contradiction
  · rename_i rowLocks rowTaken
    split at softened
    · contradiction
    · rename_i locks taken
      split at softened <;> cases softened
      · exact moves_finish sound rfl
      · split at taken
        · cases taken
          exact kept (KeyLocks.leaves_of_lock rowTaken)
            (KeyLocks.exclusive_lock_of_held rowTaken) (KeyLocks.shares_lock_iff rowTaken).mpr
            (KeyLocks.exclusive_of_lock rowTaken)
        · exact kept ((KeyLocks.leaves_of_lock rowTaken).trans (KeyLocks.leaves_of_lock taken))
            (fun held => KeyLocks.exclusive_lock_of_held taken
              (KeyLocks.exclusive_lock_of_held rowTaken held))
            (fun shares => (KeyLocks.shares_lock_iff taken).mpr
              ((KeyLocks.shares_lock_iff rowTaken).mpr shares))
            (KeyLocks.exclusive_lock_of_held taken (KeyLocks.exclusive_of_lock rowTaken))

/-- The account's key is held from its DELETE on, and no other event references it. -/
theorem moves_deleteUser (sound : state.Sound) {user : User} {owned : List Uuid}
    {heirs : List Heir} (took : state.Taken process (.owned ⟨.hard, user⟩) owned)
    (chosen : state.Chosen process user heirs) (flushed : state.Flushed process heirs)
    (deleted : state.deleteUser process user owned heirs = .ok next) :
    Moves state next process := by
  unfold deleteUser at deleted
  split at deleted
  · contradiction
  · rename_i rowLocks rowTaken
    split at deleted
    · contradiction
    · rename_i locks taken
      have exclusive : ∀ {row}, state.locks.exclusive row = some process →
          locks.exclusive row = some process := fun held =>
        KeyLocks.exclusive_lock_of_held taken (KeyLocks.exclusive_lock_of_held rowTaken held)
      split at deleted
      · cases deleted
        exact moves_finish sound rfl
      · split at deleted <;> cases deleted
        · exact moves_finish sound rfl
        · rename_i unreferenced
          refine .unwritten sound rfl
            ((KeyLocks.leaves_of_lock rowTaken).trans (KeyLocks.leaves_of_lock taken)) rfl rfl rfl
            ⟨fun eventId member => ⟨exclusive (took eventId member).1, (took eventId member).2⟩,
              ⟨fun heir member => exclusive (chosen.locked heir member), chosen.other⟩,
              ⟨fun heir member => (KeyLocks.shares_lock_iff taken).mpr
                ((KeyLocks.shares_lock_iff rowTaken).mpr (flushed.shares heir member)),
                flushed.stands⟩, KeyLocks.exclusive_of_lock taken, ?_⟩
          intro geo inEvents owns
          by_contra outside
          exact unreferenced ⟨geo, inEvents, owns, outside⟩

/-- The cascade matches every live event of the account that it does not hand over. -/
theorem moves_startCascade (sound : state.Sound) {user : User} {heirs : List Heir}
    {stamp : Instant} (chosen : state.Chosen process user heirs)
    (flushed : state.Flushed process heirs) (held : state.HoldsUser process user.id) :
    Moves state (state.startScan process
      (.cascade user heirs stamp state.transfers.length)) process := by
  refine moves_startScan sound (.refl ..) ⟨⟨chosen.locked, chosen.other⟩,
    ⟨flushed.shares, flushed.stands⟩, held, le_refl _, ?_⟩
  intro geo inEvents owns live
  by_cases passing : geo.id ∈ heirs.map Prod.fst
  · exact .inr (.inl passing)
  · rw [List.append_nil]
    refine .inl (List.mem_map_of_mem (List.mem_filter.mpr ⟨inEvents, ?_⟩))
    simp [Scan.wanted, owns, live, passing]

theorem moves_lockUser (sound : state.Sound) {userId : Uuid}
    (locked : state.lockUser process userId = .ok next) : Moves state next process := by
  unfold lockUser at locked
  split at locked
  · contradiction
  · rename_i rowLocks rowTaken
    split at locked
    · contradiction
    · rename_i locks taken
      split at locked
      · cases locked
        exact moves_finish sound rfl
      · rename_i user found
        have here : user.id = userId := by simpa using List.find?_some found
        split at locked <;> cases locked
        · exact moves_finish sound rfl
        · refine moves_startScan sound
            ((KeyLocks.leaves_of_lock rowTaken).trans (KeyLocks.leaves_of_lock taken)) ?_
          exact KeyLocks.exclusive_lock_of_held taken (here ▸ KeyLocks.exclusive_of_lock rowTaken)

/-! ### The commits -/

theorem mem_of_heirOf {heirs : List Heir} {eventId heirId : Uuid}
    (inherits : heirOf heirs eventId = some heirId) : (eventId, heirId) ∈ heirs := by
  rcases Option.map_eq_some_iff.mp inherits with ⟨heir, found, rfl⟩
  have here : heir.1 = eventId := by simpa using List.find?_some found
  exact here ▸ List.mem_of_find?_eq_some found

theorem not_mem_of_heirOf {heirs : List Heir} {eventId : Uuid}
    (stays : heirOf heirs eventId = none) : eventId ∉ heirs.map Prod.fst := by
  intro member
  rcases List.mem_map.mp member with ⟨heir, inHeirs, rfl⟩
  have absent := List.find?_eq_none.mp (Option.map_eq_none_iff.mp stays) heir inHeirs
  exact absent (decide_eq_true rfl)

/-- What a hand-over leaves of an event: its heir as owner, or the event as it was. -/
inductive Passed (heirs : List Heir) (row : Event) : Event → Prop where
  | passed {geo : Event} (inherits : (row.id, geo.ownerId) ∈ heirs) (id : geo.id = row.id)
      (hiddenAt : geo.hiddenAt = row.hiddenAt) : Passed heirs row geo
  | stayed {geo : Event} (stays : row.id ∉ heirs.map Prod.fst) (id : geo.id = row.id)
      (owner : geo.ownerId = row.ownerId) (deletedAt : geo.deletedAt = row.deletedAt)
      (hiddenAt : geo.hiddenAt = row.hiddenAt) : Passed heirs row geo

theorem passTo_passed (heirs : List Heir) (row : Event) : Passed heirs row (passTo heirs row) := by
  unfold passTo
  split
  · rename_i heirId inherits
    exact .passed (mem_of_heirOf inherits) rfl rfl
  · rename_i stays
    exact .stayed (not_mem_of_heirOf stays) rfl rfl rfl rfl

theorem Passed.forgetUser {heirs : List Heir} {row geo : Event} (passed : Passed heirs row geo)
    (userId : Uuid) : Passed heirs row (forgetUser userId geo) := by
  cases passed with
  | passed inherits id hiddenAt => exact .passed inherits id hiddenAt
  | stayed stays id owner deletedAt hiddenAt => exact .stayed stays id owner deletedAt hiddenAt

theorem Passed.id {heirs : List Heir} {row geo : Event} (passed : Passed heirs row geo) :
    geo.id = row.id := by
  cases passed <;> assumption

/-- A hand-over writes under the lock on the event and the share of the heir's key. -/
theorem Passed.eventWrite {user : User} {heirs : List Heir} {row geo : Event}
    (passed : Passed heirs row geo) (chosen : state.Chosen process user heirs)
    (flushed : state.Flushed process heirs)
    (transfers : next.transfers = heirs ++ state.transfers) :
    EventWrite state next process row geo := by
  cases passed with
  | stayed _ _ owner deletedAt _ => exact .kept owner deletedAt
  | passed inherits id _ =>
      refine .passed (chosen.locked _ inherits) (flushed.shares _ inherits) ?_
      intro seen within
      rw [transfers, id]
      exact (mem_recent_append within).mpr (.inl inherits)

/-- A write of accounts that keeps their ids. -/
theorem stands_map {userId : Uuid} {write : User → User} (same : ∀ user, (write user).id = user.id)
    (stands : state.Stands userId) (users : next.users = state.users.map write) :
    next.Stands userId := by
  rcases stands with ⟨user, inUsers, rfl⟩
  rw [Stands, users]
  exact ⟨write user, List.mem_map_of_mem inUsers, same user⟩

theorem commitSoft_users (user : User) (stamp : Instant) (other : User) :
    (if other.id = user.id then
      { other with deletedAt := some stamp, tokenVersion := other.tokenVersion + 1 }
    else other).id = other.id := by
  split <;> rfl

theorem moves_commitSoft (sound : state.Sound) {user : User} {heirs : List Heir} {stamp : Instant}
    {seen : Nat} {hidden : List Uuid}
    (holds : state.Holds process (.commitSoft user heirs stamp seen hidden)) :
    Moves state (state.commitSoft process user heirs stamp hidden) process := by
  rcases holds with ⟨took, chosen, flushed, _, _, _⟩
  have written : ∀ geo ∈ (state.commitSoft process user heirs stamp hidden).events,
      ∃ row ∈ state.events, row.id = geo.id ∧
        ((row.id ∈ hidden ∧ geo = { row with deletedAt := some stamp }) ∨
          Passed heirs row geo) := by
    intro geo inEvents
    rcases List.mem_map.mp inEvents with ⟨row, inRows, rfl⟩
    split
    · rename_i hides
      exact ⟨row, inRows, rfl, .inl ⟨hides, rfl⟩⟩
    · have passed := passTo_passed heirs row
      exact ⟨row, inRows, passed.id.symm, .inr passed⟩
  refine ⟨fun different => Function.update_of_ne different .., KeyLocks.leaves_release ..,
    ⟨?_, ?_, ⟨heirs, rfl⟩⟩, ?_, ?_, ?_⟩
  · intro geo inEvents
    rcases written geo inEvents with ⟨row, inRows, sameId, ⟨hides, rfl⟩ | passed⟩
    · exact ⟨row, inRows, sameId, .hidden (took row.id hides).1 rfl (Option.some_ne_none _)⟩
    · exact ⟨row, inRows, sameId, passed.eventWrite chosen flushed rfl⟩
  · intro userId stands
    exact .inl (stands_map (commitSoft_users user stamp) stands rfl)
  · refine sound.primaryKey.map ?_
    intro row
    split
    · rfl
    · exact (passTo_passed heirs row).id
  · intro geo inEvents
    refine stands_map (commitSoft_users user stamp) ?_ rfl
    rcases written geo inEvents with ⟨row, inRows, _, ⟨_, rfl⟩ | passed⟩
    · exact sound.foreignKey row inRows
    · cases passed with
      | passed inherits _ _ => exact flushed.stands _ inherits
      | stayed _ _ owner _ _ => exact owner ▸ sound.foreignKey row inRows
  · show Holds _ _ (Function.update state.processes process Process.idle process)
    rw [Function.update_self]
    trivial

theorem moves_commitHard (sound : state.Sound) {user : User} {owned : List Uuid}
    {heirs : List Heir} (holds : state.Holds process (.commitHard user owned heirs)) :
    Moves state (state.commitHard process user owned heirs) process := by
  rcases holds with ⟨took, chosen, flushed, key, all⟩
  have written : ∀ geo ∈ (state.commitHard process user owned heirs).events,
      ∃ row ∈ state.events, row.id = geo.id ∧ Passed heirs row geo ∧
        (row.id ∈ owned → row.id ∈ heirs.map Prod.fst) := by
    intro geo inEvents
    rcases List.mem_map.mp inEvents with ⟨row, remains, rfl⟩
    rcases List.mem_filter.mp remains with ⟨inRows, spared⟩
    have passed := (passTo_passed heirs row).forgetUser user.id
    refine ⟨row, inRows, passed.id.symm, passed, fun inOwned => ?_⟩
    by_contra unpassed
    exact of_decide_eq_true spared ⟨inOwned, unpassed⟩
  have remaining : ∀ {userId}, state.Stands userId → userId ≠ user.id →
      (state.commitHard process user owned heirs).Stands userId := by
    rintro userId ⟨other, inUsers, rfl⟩ different
    exact ⟨other, List.mem_filter.mpr ⟨inUsers, decide_eq_true different⟩, rfl⟩
  refine ⟨fun different => Function.update_of_ne different .., KeyLocks.leaves_release ..,
    ⟨?_, ?_, ⟨heirs, rfl⟩⟩, ?_, ?_, ?_⟩
  · intro geo inEvents
    rcases written geo inEvents with ⟨row, inRows, sameId, passed, _⟩
    exact ⟨row, inRows, sameId, passed.eventWrite chosen flushed rfl⟩
  · intro userId stands
    by_cases here : userId = user.id
    · exact .inr (here ▸ key)
    · exact .inl (remaining stands here)
  · refine (sound.primaryKey.filter _).map ?_
    intro row
    exact ((passTo_passed heirs row).forgetUser user.id).id
  · intro geo inEvents
    rcases written geo inEvents with ⟨row, inRows, _, passed, spared⟩
    cases passed with
    | passed inherits _ _ => exact remaining (flushed.stands _ inherits) (chosen.other _ inherits)
    | stayed stays _ owner _ _ =>
        rw [owner]
        refine remaining (sound.foreignKey row inRows) fun owns => ?_
        exact stays (spared (all row inRows owns))
  · show Holds _ _ (Function.update state.processes process Process.idle process)
    rw [Function.update_self]
    trivial

theorem moves_commitRestore (sound : state.Sound) {user : User} {restored : List Uuid}
    (holds : state.Holds process (.commitRestore user restored)) :
    Moves state (state.commitRestore process user restored) process := by
  rcases holds with ⟨took, held⟩
  have sameId : ∀ other : User,
      (if other.id = user.id then { other with deletedAt := none } else other).id = other.id := by
    intro other
    split <;> rfl
  have written : ∀ geo ∈ (state.commitRestore process user restored).events,
      ∃ row ∈ state.events, row.id = geo.id ∧ geo.ownerId = row.ownerId ∧
        (row.id ∈ restored ∨ geo.deletedAt = row.deletedAt) := by
    intro geo inEvents
    rcases List.mem_map.mp inEvents with ⟨row, inRows, rfl⟩
    split
    · rename_i back
      exact ⟨row, inRows, rfl, rfl, .inl back⟩
    · exact ⟨row, inRows, rfl, rfl, .inr rfl⟩
  refine ⟨fun different => Function.update_of_ne different .., KeyLocks.leaves_release ..,
    ⟨?_, ?_, ⟨[], rfl⟩⟩, ?_, ?_, ?_⟩
  · intro geo inEvents
    rcases written geo inEvents with ⟨row, inRows, same, owner, back | deletedAt⟩
    · have wanted := (took row.id back).2 row inRows rfl
      simp only [Scan.wanted, Bool.and_eq_true, decide_eq_true_eq] at wanted
      refine ⟨row, inRows, same, .restored (took row.id back).1 owner ?_⟩
      rw [owner, wanted.1]
      exact held
    · exact ⟨row, inRows, same, .kept owner deletedAt⟩
  · intro userId stands
    exact .inl (stands_map sameId stands rfl)
  · refine sound.primaryKey.map ?_
    intro row
    split <;> rfl
  · intro geo inEvents
    rcases written geo inEvents with ⟨row, inRows, _, owner, _⟩
    rw [owner]
    exact stands_map sameId (sound.foreignKey row inRows) rfl
  · show Holds _ _ (Function.update state.processes process Process.idle process)
    rw [Function.update_self]
    trivial

theorem moves_run (sound : state.Sound) (ran : state.run process = .ok next) :
    Moves state next process := by
  have holds := sound.holds process
  unfold run at ran
  split at ran <;> rename_i place <;> rw [place] at holds
  case h_1 | h_2 => contradiction
  case h_3 kind userId =>
    cases ran
    exact moves_readUser sound
  case h_4 scan waiting taken => exact moves_scanRow sound holds ran
  case h_5 removal owned =>
    cases ran
    exact moves_readHeirs sound holds
  case h_6 removal owned heirs pending => exact moves_flush sound holds ran
  case h_7 user owned heirs => exact moves_softenUser sound holds.2.1 holds.2.2 ran
  case h_8 user owned heirs => exact moves_deleteUser sound holds.1 holds.2.1 holds.2.2 ran
  case h_9 user heirs stamp =>
    cases ran
    exact moves_startCascade sound holds.1 holds.2.1 holds.2.2
  case h_10 user heirs stamp seen hidden =>
    cases ran
    exact moves_commitSoft sound holds
  case h_11 user owned heirs =>
    cases ran
    exact moves_commitHard sound holds
  case h_12 userId => exact moves_lockUser sound ran
  case h_13 user restored =>
    cases ran
    exact moves_commitRestore sound holds

/-- A credit verb moves the owner and the stamps of no event. -/
theorem credit_event {eventId userId : Uuid} {verb : CreditVerb}
    (credited : state.credit eventId userId verb = .ok next) :
    next.users = state.users ∧ next.locks = state.locks ∧ next.processes = state.processes ∧
      next.transfers = state.transfers ∧ ∃ write : Event → Event,
        next.events = state.events.map write ∧ ∀ row, (write row).id = row.id ∧
          (row ∈ state.events → KeyedBy Event.id state.events →
            (write row).ownerId = row.ownerId ∧ (write row).deletedAt = row.deletedAt ∧
              (write row).hiddenAt = row.hiddenAt) := by
  unfold credit at credited
  split at credited
  · contradiction
  · split at credited
    · rename_i geo user found _
      split at credited
      · contradiction
      · rename_i written running
        cases credited
        have here : geo.id = eventId := by simpa using List.find?_some found
        rcases CreditVerb.run_event running with ⟨_, _, _, _, rfl⟩
        refine ⟨rfl, rfl, rfl, rfl, _, rfl, fun row => ?_⟩
        split
        · rename_i same
          refine ⟨here.trans same.symm, fun inRows keyed => ?_⟩
          rw [keyed row inRows geo (List.mem_of_find?_eq_some found) (same.trans here.symm)]
          exact ⟨rfl, rfl, rfl⟩
        · exact ⟨rfl, fun _ _ => ⟨rfl, rfl, rfl⟩⟩
    · contradiction

/-- A step that belongs to no process keeps what each process knows. -/
theorem Sound.of_kept (sound : state.Sound) (users : next.users = state.users)
    (locks : next.locks = state.locks) (processes : next.processes = state.processes)
    (transfers : next.transfers = state.transfers) {write : Event → Event}
    (events : next.events = state.events.map write)
    (same : ∀ row, (write row).id = row.id)
    (kept : ∀ row ∈ state.events, (write row).ownerId = row.ownerId ∧
      (write row).deletedAt = row.deletedAt) : next.Sound where
  primaryKey := events ▸ sound.primaryKey.map same
  foreignKey geo inEvents := by
    rw [events] at inEvents
    rcases List.mem_map.mp inEvents with ⟨row, inRows, rfl⟩
    rw [Stands, users, (kept row inRows).1]
    exact sound.foreignKey row inRows
  holds process := by
    rw [processes]
    have writes : Writes state next (process + 1) := by
      refine ⟨?_, fun stands => .inl (by rwa [Stands, users]), [], by simp [transfers]⟩
      intro geo inEvents
      rw [events] at inEvents
      rcases List.mem_map.mp inEvents with ⟨row, inRows, rfl⟩
      exact ⟨row, inRows, (same row).symm, .kept (kept row inRows).1 (kept row inRows).2⟩
    exact (sound.holds process).keeps (locks ▸ .refl ..) writes (Nat.succ_ne_self process).symm

end State

open State

variable {state next : State}

theorem State.Sound.step {label : Label} (sound : state.Sound)
    (stepped : Removals.step label state = .ok next) : next.Sound := by
  have starts : ∀ {process : Nat} {first : Process}, start state process first = .ok next →
      (∀ state : State, state.Holds process first) → next.Sound := by
    intro process first starting holds
    unfold start at starting
    split at starting <;> cases starting
    exact sound.moves (.unwritten sound rfl (.refl ..) rfl rfl rfl (holds _))
  cases label with
  | tick now =>
      cases stepped
      exact sound.of_kept rfl rfl rfl rfl (List.map_id _).symm (fun _ => rfl)
        (fun _ _ => ⟨rfl, rfl⟩)
  | softDeleteUser process userId => exact starts stepped fun _ => trivial
  | hardDeleteUser process userId => exact starts stepped fun _ => trivial
  | restoreUser process userId => exact starts stepped fun _ => trivial
  | credit eventId userId verb =>
      rcases credit_event stepped with ⟨users, locks, processes, transfers, write, events, same⟩
      refine sound.of_kept users locks processes transfers events (fun row => (same row).1) ?_
      intro row inRows
      have kept := (same row).2 inRows sound.primaryKey
      exact ⟨kept.1, kept.2.1⟩
  | run process => exact sound.moves (moves_run sound stepped)
  | fail process =>
      simp only [Removals.step] at stepped
      split at stepped <;> cases stepped
      exact sound.moves (moves_finish sound rfl)

theorem Initial.sound (initial : Initial state) : state.Sound where
  primaryKey := initial.primaryKey
  foreignKey := initial.foreignKey
  holds process := by
    rw [initial.idle process]
    trivial

theorem sound_of_reachable (reachable : system.Reachable state) : state.Sound :=
  reachable.invariant Initial.sound fun sound stepped => sound.step stepped

/-! ### Removed accounts -/

/-- The event is not withheld. -/
def Shown (state : State) (eventId : Uuid) : Prop :=
  ∃ geo ∈ state.events, geo.id = eventId ∧ geo.hiddenAt = none

/-- A removal that commits finds every heir it chose still live, and no event handed to its
account since its cascade began. -/
def HeirsStand (state : State) (label : Label) : Prop :=
  ∀ process, label = .run process →
    match state.processes process with
    | .commitSoft user heirs _ seen _ =>
      (∀ heir ∈ heirs, Shown state heir.1 → LiveId state.users heir.2) ∧
        ∀ heir ∈ recent seen state.transfers, Shown state heir.1 → heir.2 ≠ user.id
    | .commitHard _ _ heirs => ∀ heir ∈ heirs, Shown state heir.1 → LiveId state.users heir.2
    | _ => True

/-- In every reachable state, no live event that is not withheld belongs to a removed account. -/
def HidesWork (deployment : System State Label) : Prop :=
  ∀ {state : State}, deployment.Reachable state → Hides state

/-- Writing one account leaves the others live. -/
theorem liveId_map {users : List User} {userId : Uuid} {write : User → User}
    (others : ∀ user, user.id ≠ userId → write user = user) {live : Uuid}
    (stands : LiveId users live) (different : live ≠ userId) :
    LiveId (users.map write) live := by
  rcases stands with ⟨user, inUsers, rfl, undeleted⟩
  refine ⟨user, List.mem_map.mpr ⟨user, inUsers, others user different⟩, rfl, undeleted⟩

theorem hides_commitSoft {process : Nat} {user : User} {heirs : List Heir} {stamp : Instant}
    {seen : Nat} {hidden : List Uuid} (hides : Hides state)
    (holds : state.Holds process (.commitSoft user heirs stamp seen hidden))
    (heirsLive : ∀ heir ∈ heirs, Shown state heir.1 → LiveId state.users heir.2)
    (unhanded : ∀ heir ∈ recent seen state.transfers, Shown state heir.1 → heir.2 ≠ user.id) :
    Hides (state.commitSoft process user heirs stamp hidden) := by
  rcases holds with ⟨_, chosen, _, _, _, covers⟩
  have survives : ∀ {live}, LiveId state.users live → live ≠ user.id →
      LiveId (state.commitSoft process user heirs stamp hidden).users live :=
    fun stands different => liveId_map (fun other apart => if_neg apart) stands different
  intro geo inEvents live shown
  rcases List.mem_map.mp inEvents with ⟨row, inRows, rfl⟩
  split at live
  · contradiction
  · rename_i unhidden
    rw [if_neg unhidden] at shown ⊢
    cases passTo_passed heirs row with
    | passed inherits _ hiddenAt =>
        exact survives (heirsLive _ inherits ⟨row, inRows, rfl, hiddenAt ▸ shown⟩)
          (chosen.other _ inherits)
    | stayed stays _ owner deletedAt hiddenAt =>
        rw [deletedAt] at live
        rw [hiddenAt] at shown
        rw [owner]
        refine survives (hides row inRows live shown) fun owns => ?_
        rcases covers row inRows owns live with inHidden | inHeirs | handed
        · exact unhidden inHidden
        · exact stays inHeirs
        · exact unhanded _ handed ⟨row, inRows, rfl, shown⟩ rfl

theorem hides_commitHard {process : Nat} {user : User} {owned : List Uuid} {heirs : List Heir}
    (hides : Hides state) (holds : state.Holds process (.commitHard user owned heirs))
    (heirsLive : ∀ heir ∈ heirs, Shown state heir.1 → LiveId state.users heir.2) :
    Hides (state.commitHard process user owned heirs) := by
  rcases holds with ⟨_, chosen, _, _, all⟩
  have survives : ∀ {live}, LiveId state.users live → live ≠ user.id →
      LiveId (state.commitHard process user owned heirs).users live := by
    rintro live ⟨other, inUsers, rfl, undeleted⟩ different
    exact ⟨other, List.mem_filter.mpr ⟨inUsers, decide_eq_true different⟩, rfl, undeleted⟩
  intro geo inEvents live shown
  rcases List.mem_map.mp inEvents with ⟨row, remains, rfl⟩
  rcases List.mem_filter.mp remains with ⟨inRows, spared⟩
  cases (passTo_passed heirs row).forgetUser user.id with
  | passed inherits _ hiddenAt =>
      exact survives (heirsLive _ inherits ⟨row, inRows, rfl, hiddenAt ▸ shown⟩)
        (chosen.other _ inherits)
  | stayed stays _ owner deletedAt hiddenAt =>
      rw [deletedAt] at live
      rw [hiddenAt] at shown
      rw [owner]
      refine survives (hides row inRows live shown) fun owns => ?_
      exact of_decide_eq_true spared ⟨all row inRows owns, stays⟩

/-- A restored account is live before its events are seen. -/
theorem hides_commitRestore {process : Nat} {user : User} {restored : List Uuid}
    (hides : Hides state) (sound : state.Sound)
    (holds : state.Holds process (.commitRestore user restored)) :
    Hides (state.commitRestore process user restored) := by
  rcases holds with ⟨took, _⟩
  have back : ∀ {live}, state.Stands live → live = user.id ∨ LiveId state.users live →
      LiveId (state.commitRestore process user restored).users live := by
    intro live stands either
    by_cases here : live = user.id
    · rcases stands with ⟨other, inUsers, rfl⟩
      refine ⟨_, List.mem_map_of_mem inUsers, ?_⟩
      rw [if_pos here]
      exact ⟨rfl, rfl⟩
    · exact liveId_map (fun other apart => if_neg apart) (either.resolve_left here) here
  intro geo inEvents live shown
  rcases List.mem_map.mp inEvents with ⟨row, inRows, rfl⟩
  split at live
  · rename_i inRestored
    rw [if_pos inRestored] at shown ⊢
    have wanted := (took row.id inRestored).2 row inRows rfl
    simp only [Scan.wanted, Bool.and_eq_true, decide_eq_true_eq] at wanted
    exact back (sound.foreignKey row inRows) (.inl wanted.1)
  · rename_i kept
    rw [if_neg kept] at shown ⊢
    exact back (sound.foreignKey row inRows) (.inr (hides row inRows live shown))

/-- No event and no account is written. -/
def Unwritten (state next : State) : Prop :=
  next.events = state.events ∧ next.users = state.users

theorem Unwritten.hides (unwritten : Unwritten state next) (hides : Hides state) : Hides next := by
  unfold Hides
  rw [unwritten.1, unwritten.2]
  exact hides

/-- A statement before the commit writes nothing yet. -/
theorem unwritten_of_run {process : Nat} (ran : state.run process = .ok next) :
    Unwritten state next ∨
      (∃ user heirs stamp seen hidden,
        state.processes process = .commitSoft user heirs stamp seen hidden ∧
          next = state.commitSoft process user heirs stamp hidden) ∨
      (∃ user owned heirs, state.processes process = .commitHard user owned heirs ∧
        next = state.commitHard process user owned heirs) ∨
      ∃ user restored, state.processes process = .commitRestore user restored ∧
        next = state.commitRestore process user restored := by
  unfold run at ran
  split at ran <;> rename_i place
  case h_10 user heirs stamp seen hidden =>
    cases ran
    exact .inr (.inl ⟨user, heirs, stamp, seen, hidden, place, rfl⟩)
  case h_11 user owned heirs =>
    cases ran
    exact .inr (.inr (.inl ⟨user, owned, heirs, place, rfl⟩))
  case h_13 user restored =>
    cases ran
    exact .inr (.inr (.inr ⟨user, restored, place, rfl⟩))
  all_goals refine .inl ?_
  case h_1 | h_2 => contradiction
  case h_3 kind userId =>
    cases ran
    unfold readUser
    repeat' split
    all_goals exact ⟨rfl, rfl⟩
  case h_5 removal owned =>
    cases ran
    exact ⟨rfl, rfl⟩
  case h_9 user heirs stamp =>
    cases ran
    exact ⟨rfl, rfl⟩
  case h_4 scan waiting taken =>
    unfold scanRow at ran
    repeat' split at ran
    all_goals cases ran
    all_goals exact ⟨rfl, rfl⟩
  case h_6 removal owned heirs pending =>
    unfold flush at ran
    repeat' split at ran
    all_goals cases ran
    all_goals exact ⟨rfl, rfl⟩
  case h_7 user owned heirs =>
    unfold softenUser at ran
    repeat' split at ran
    all_goals cases ran
    all_goals exact ⟨rfl, rfl⟩
  case h_8 user owned heirs =>
    unfold deleteUser at ran
    repeat' split at ran
    all_goals cases ran
    all_goals exact ⟨rfl, rfl⟩
  case h_12 userId =>
    unfold lockUser at ran
    repeat' split at ran
    all_goals cases ran
    all_goals exact ⟨rfl, rfl⟩

theorem step_hides {label : Label} (sound : state.Sound) (hides : Hides state)
    (heirsStand : HeirsStand state label) (stepped : step label state = .ok next) :
    Hides next := by
  have starts : ∀ {process : Nat} {first : Process}, start state process first = .ok next →
      Hides next := by
    intro process first starting
    unfold start at starting
    split at starting <;> cases starting
    exact hides
  cases label with
  | tick now =>
      cases stepped
      exact hides
  | softDeleteUser process userId => exact starts stepped
  | hardDeleteUser process userId => exact starts stepped
  | restoreUser process userId => exact starts stepped
  | credit eventId userId verb =>
      rcases credit_event stepped with ⟨users, _, _, _, write, events, same⟩
      intro geo inEvents live shown
      rw [events] at inEvents
      rcases List.mem_map.mp inEvents with ⟨row, inRows, rfl⟩
      have kept := (same row).2 inRows sound.primaryKey
      rw [users, kept.1]
      exact hides row inRows (kept.2.1 ▸ live) (kept.2.2 ▸ shown)
  | run process =>
      have stands := heirsStand process rfl
      have holds := sound.holds process
      rcases unwritten_of_run stepped with unwritten |
        ⟨user, heirs, stamp, seen, hidden, place, rfl⟩ | ⟨user, owned, heirs, place, rfl⟩ |
          ⟨user, restored, place, rfl⟩
      · exact unwritten.hides hides
      · rw [place] at stands holds
        exact hides_commitSoft hides holds stands.1 stands.2
      · rw [place] at stands holds
        exact hides_commitHard hides holds stands
      · rw [place] at holds
        exact hides_commitRestore hides sound holds
  | fail process =>
      simp only [step] at stepped
      split at stepped <;> cases stepped
      exact hides

/-- In every run whose hand-overs find their heirs standing, no removed account's work is seen. -/
theorem hidesWork_of_heirsStand {start : State} (initial : Initial start) :
    HidesWork ((system.restrict HeirsStand).startingAt start) := by
  intro state started
  have reached : (system.restrict HeirsStand).Reachable state := started.of_startingAt initial
  clear initial started
  obtain ⟨start, initial, run⟩ := reached
  induction run with
  | refl => exact initial.hides
  | @tail middle final earlier stepped inductionHypothesis =>
      rcases stepped with ⟨label, heirsStand, stepped⟩
      have reachable : system.Reachable middle :=
        ⟨start, initial, System.Run.of_restrict earlier⟩
      exact step_hides (sound_of_reachable reachable) inductionHypothesis heirsStand stepped

/-! ### Two removals -/

namespace HeirRemoved

def account (id : Uuid) : User := ⟨id, [], [], [], true, false, none, none, 0⟩

/-- A published event of the account 1, which credits the account 2 too. -/
def shared : Event where
  id := 3
  ownerId := 1
  requestedById := none
  title := []
  coords := none
  proof := []
  occurredDate := none
  occurredTime := none
  requestedAt := none
  detectedAt := none
  geolocatedAt := some 0
  status := .geolocated
  createdAt := 0
  closedAt := none
  closeReason := none
  beforeClosedStatus := none
  deletedAt := none
  hiddenAt := none
  versionNo := 1
  media := []
  sources := []
  tags := []
  conflicts := []
  geolocators := [⟨1, .active, none, some 0, none⟩, ⟨2, .active, some 0, some 0, none⟩]
  detection := none
  versions := []
  approvals := []
  approvalRequests := []
  collectionItems := []

def start : State where
  now := 1
  rest := ⟨1, fun _ => 0, [], [], [], [], []⟩
  users := [account 1, account 2]
  xHandle _ := none
  events := [shared]
  locks := .none
  transfers := []
  processes _ := .idle

theorem start_initial : Initial start where
  idle _ := rfl
  primaryKey := by
    intro left leftMember right rightMember _
    rw [List.mem_singleton.mp leftMember, List.mem_singleton.mp rightMember]
  foreignKey := by decide
  hides := by
    unfold Hides
    decide

theorem hidesWork_start : HidesWork ((system.restrict HeirsStand).startingAt start) :=
  hidesWork_of_heirsStand start_initial

/-- The removal of 1 chooses 2 as heir; the removal of 2 runs to its end before the hand-over
commits. -/
def labels : List Label :=
  [.softDeleteUser 0 1, .run 0, .run 0, .run 0, .run 0, .run 0, .run 0] ++
    (.softDeleteUser 1 2 :: List.replicate 8 (.run 1)) ++ List.replicate 4 (.run 0)

theorem labels_runs : ∃ final, System.runLabels step labels start = .ok final ∧
    final.events = [{ shared with ownerId := 2 }] ∧
    final.users.map User.deletedAt = [some 1, some 1] ∧ ¬ LiveId final.users 2 :=
  ⟨_, rfl, rfl, rfl, by decide⟩

/-- The event is live, and its owner is removed. -/
theorem hidesWork_fails : ¬ HidesWork system := by
  intro hidesWork
  rcases labels_runs with ⟨final, runs, events, _, removed⟩
  have hides := hidesWork ⟨start, start_initial, System.Run.of_runLabels runs⟩
  have owned := hides { shared with ownerId := 2 } (by rw [events]; exact List.mem_singleton.mpr rfl)
  exact removed (owned rfl rfl)

end HeirRemoved

end Vidit.Removals
