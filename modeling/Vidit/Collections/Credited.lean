import Vidit.Collections.Shelving
import Vidit.Library.Checks

/-!
Contract: what a collection holds, its owner is credited on.

Owns:
- `CollectionsCredited`, the promise, and `Unraced`, the condition under which it
  holds;
- `collectionsCredited_of_unraced`, that every run whose inserts are not overtaken
  by a removal keeps the promise;
- a run that breaks it when a removal commits between the check and the insert.

Proof shape: a writer shares the key of each event it inserts, and a removal holds
its event alone, so while either is in flight the other cannot commit on the same
event (`Evolves.shared`, `Evolves.locked`).
-/

namespace Vidit.Collections

open Vidit.Python Vidit.Accounts Vidit.Events Vidit.Library

/-- With no transaction in flight, a collection holds only events its owner is
credited on. -/
def CollectionsCredited (system : System ShelfState ShelfLabel) : Prop :=
  ∀ {state}, system.Reachable state → (∀ process, (state.processes process).ended) →
    state.HoldsCredited

namespace ShelfState

/-- No removal of the writer's owner from the event has committed between the
writer's check and its insert. -/
def Unraced (state : ShelfState) (label : ShelfLabel) : Prop :=
  ∀ {process shelf seen eventId eventIds}, label = .run process →
    state.processes process = .insertItems shelf seen (eventId :: eventIds) →
    (eventId, shelf.userId) ∉ state.removals.take (state.removals.length - seen)

variable {settings : ShelfSettings} {state next : ShelfState} {actor process : Nat}
  {running : ShelfProcess}

/-! ### What a process owes -/

/-- The process holds no row. -/
structure Rests (state : ShelfState) (process : Nat) : Prop where
  geolocators : state.geolocators.Holdless process
  collections : state.collections.Holdless process
  items : state.items.Holdless process

/-- The collection stands, or will once the process commits. -/
def HasCollection (state : ShelfState) (process : Nat) (collectionId : Uuid)
    (collection : Collection) : Prop :=
  state.collections.committed collectionId = some collection ∨
    state.collections.holder collectionId = some process ∧
      state.collections.read process collectionId = some collection

/-- The process has a collection of the user's, and holds nothing else but items
of events it shares and the owner is credited on. -/
structure Shelves (state : ShelfState) (process : Nat) : Prop where
  geolocators : state.geolocators.Holdless process
  inserted : ∀ {collectionId eventId}, state.items.holder (collectionId, eventId) = some process →
    state.locks.Shares process eventId ∧ ∃ collection,
      state.HasCollection process collectionId collection ∧
        state.Credited collection.ownerId eventId

/-- The writer's collection is its user's. -/
def OwnShelf (state : ShelfState) (process : Nat) (shelf : Shelf) : Prop :=
  ∃ collection, state.HasCollection process shelf.collectionId collection ∧
    collection.ownerId = shelf.userId

/-- The events a writer has left to insert were credited when it checked. -/
structure Checked (state : ShelfState) (userId : Uuid) (seen : Nat) (eventIds : List Uuid) :
    Prop where
  past : seen ≤ state.removals.length
  credited : ∀ eventId ∈ eventIds, state.Credited userId eventId ∨
    (eventId, userId) ∈ state.removals.take (state.removals.length - seen)

/-- The process removes the analyst's credit on the event, under the event's lock. -/
structure Removes (state : ShelfState) (process : Nat) (eventId targetId : Uuid) : Prop where
  locked : state.locks.exclusive eventId = some process
  ends : ∀ {key}, state.geolocators.holder key = some process → key = (eventId, targetId)
  collections : state.collections.Holdless process

/-- The item is on a collection of the owner's. -/
def OnCollectionOf (state : ShelfState) (ownerId : Uuid) (key : Uuid × Uuid) : Prop :=
  (state.items.committed key).isSome ∧
    ∃ collection, state.collections.committed key.1 = some collection ∧
      collection.ownerId = ownerId

def Owes (state : ShelfState) (process : Nat) : ShelfProcess → Prop
  | .idle | .raised _ | .open _ _ | .flush _ _ _ | .remove _ _ _ => state.Rests process
  | .readEligibility shelf _ =>
    state.geolocators.Holdless process ∧ state.items.Holdless process ∧
      state.OwnShelf process shelf
  | .insertItems shelf seen eventIds =>
    state.Shelves process ∧ state.OwnShelf process shelf ∧
      state.Checked shelf.userId seen eventIds
  | .commitItems => state.Shelves process
  | .endCredit eventId _ _ => state.locks.exclusive eventId = some process ∧ state.Rests process
  | .dropItems eventId targetId =>
    state.Removes process eventId targetId ∧ state.items.Holdless process
  | .dropRows eventId targetId matched =>
    state.Removes process eventId targetId ∧ state.items.Holdless process ∧
      ∀ collectionId, state.OnCollectionOf targetId (collectionId, eventId) →
        (collectionId, eventId) ∈ matched
  | .commitRemoval eventId targetId =>
    state.Removes process eventId targetId ∧
      (∀ {key}, state.items.holder key = some process → state.items.read process key = none) ∧
      ∀ collectionId, state.OnCollectionOf targetId (collectionId, eventId) →
        state.items.holder (collectionId, eventId) = some process

/-- The invariant of every run whose inserts are unraced. -/
structure Sound (state : ShelfState) : Prop where
  credited : state.HoldsCredited
  listed : state.items.Listed
  /-- No transaction changes a collection that stands. -/
  stands : ∀ {process collectionId collection},
    state.collections.committed collectionId = some collection →
      state.collections.read process collectionId = some collection
  owes : ∀ process, state.Owes process (state.processes process)

/-! ### What the others leave -/

/-- A step as one of the other processes sees it. -/
structure Evolves (actor : Nat) (state next : ShelfState) : Prop where
  geolocators : Table.StepBy actor state.geolocators next.geolocators
  collections : Table.StepBy actor state.collections next.collections
  items : Table.StepBy actor state.items next.items
  exclusive : ∀ {other eventId}, other ≠ actor →
    (next.locks.exclusive eventId = some other ↔ state.locks.exclusive eventId = some other)
  shares : ∀ {other eventId}, other ≠ actor →
    (next.locks.Shares other eventId ↔ state.locks.Shares other eventId)
  removals : ∃ removed, next.removals = removed ++ state.removals ∧
    ∀ {userId eventId}, state.Credited userId eventId →
      next.Credited userId eventId ∨ (eventId, userId) ∈ removed
  /-- A credit on an event another process shares stands. -/
  shared : ∀ {other userId eventId}, other ≠ actor → state.locks.Shares other eventId →
    state.Credited userId eventId → next.Credited userId eventId
  /-- An event another process has locked gets no item. -/
  locked : ∀ {other collectionId eventId}, other ≠ actor →
    state.locks.exclusive eventId = some other →
    (next.items.committed (collectionId, eventId)).isSome →
      (state.items.committed (collectionId, eventId)).isSome
  stands : ∀ {collectionId collection}, state.collections.committed collectionId = some collection →
    next.collections.committed collectionId = some collection

theorem HasCollection.evolves {collectionId : Uuid} {collection : Collection}
    (has : state.HasCollection process collectionId collection)
    (evolves : Evolves actor state next) (other : process ≠ actor) :
    next.HasCollection process collectionId collection := by
  rcases has with committed | ⟨holds, reads⟩
  · exact .inl (evolves.stands committed)
  · refine .inr ⟨(evolves.collections.holder other).mpr holds, ?_⟩
    rw [evolves.collections.read other holds]
    exact reads

theorem OwnShelf.evolves {shelf : Shelf} (own : state.OwnShelf process shelf)
    (evolves : Evolves actor state next) (other : process ≠ actor) :
    next.OwnShelf process shelf := by
  rcases own with ⟨collection, has, owner⟩
  exact ⟨collection, has.evolves evolves other, owner⟩

theorem Shelves.evolves (shelves : state.Shelves process) (evolves : Evolves actor state next)
    (other : process ≠ actor) : next.Shelves process := by
  refine ⟨evolves.geolocators.holdless other shelves.geolocators, ?_⟩
  intro collectionId eventId held
  rcases shelves.inserted ((evolves.items.holder other).mp held) with
    ⟨shares, collection, has, credited⟩
  exact ⟨(evolves.shares other).mpr shares, collection, has.evolves evolves other,
    evolves.shared other shares credited⟩

theorem Checked.evolves {userId : Uuid} {seen : Nat} {eventIds : List Uuid}
    (checked : state.Checked userId seen eventIds) (evolves : Evolves actor state next) :
    next.Checked userId seen eventIds := by
  rcases evolves.removals with ⟨removed, removals, credits⟩
  have earlier := checked.past
  have length : next.removals.length - seen =
      removed.length + (state.removals.length - seen) := by
    rw [removals, List.length_append]
    omega
  have taken : next.removals.take (next.removals.length - seen) =
      removed ++ state.removals.take (state.removals.length - seen) := by
    rw [length, removals, List.take_length_add_append]
  refine ⟨?_, ?_⟩
  · rw [removals, List.length_append]
    omega
  · intro eventId member
    rw [taken, List.mem_append]
    rcases checked.credited eventId member with credited | wasRemoved
    · rcases credits credited with still | isRemoved
      · exact .inl still
      · exact .inr (.inl isRemoved)
    · exact .inr (.inr wasRemoved)

theorem Removes.evolves {eventId targetId : Uuid} (removes : state.Removes process eventId targetId)
    (evolves : Evolves actor state next) (other : process ≠ actor) :
    next.Removes process eventId targetId where
  locked := (evolves.exclusive other).mpr removes.locked
  ends held := removes.ends ((evolves.geolocators.holder other).mp held)
  collections := evolves.collections.holdless other removes.collections

/-- No item joins the owner's collections while another process has the event. -/
theorem OnCollectionOf.evolves {ownerId collectionId eventId : Uuid} (credited : state.HoldsCredited)
    (evolves : Evolves actor state next) (other : process ≠ actor)
    (locked : state.locks.exclusive eventId = some process)
    (on : next.OnCollectionOf ownerId (collectionId, eventId)) :
    state.OnCollectionOf ownerId (collectionId, eventId) := by
  rcases on with ⟨present, collection, isCollection, owner⟩
  have before := evolves.locked other locked present
  rcases credited collectionId eventId before with ⟨earlier, isEarlier, _⟩
  have same := (evolves.stands isEarlier).symm.trans isCollection
  cases same
  exact ⟨before, collection, isEarlier, owner⟩

/-- The steps of the others keep what a process has secured. -/
theorem Owes.evolves (credited : state.HoldsCredited) (evolves : Evolves actor state next)
    (other : process ≠ actor) (owes : state.Owes process running) : next.Owes process running := by
  have rests : state.Rests process → next.Rests process := fun rests =>
    ⟨evolves.geolocators.holdless other rests.geolocators,
      evolves.collections.holdless other rests.collections,
      evolves.items.holdless other rests.items⟩
  cases running with
  | idle | raised _ | «open» _ _ | flush _ _ _ | remove _ _ _ => exact rests owes
  | readEligibility shelf selection =>
      exact ⟨evolves.geolocators.holdless other owes.1, evolves.items.holdless other owes.2.1,
        owes.2.2.evolves evolves other⟩
  | insertItems shelf seen eventIds =>
      exact ⟨owes.1.evolves evolves other, owes.2.1.evolves evolves other,
        owes.2.2.evolves evolves⟩
  | commitItems => exact Shelves.evolves owes evolves other
  | endCredit eventId actorId username =>
      exact ⟨(evolves.exclusive other).mpr owes.1, rests owes.2⟩
  | dropItems eventId targetId =>
      exact ⟨owes.1.evolves evolves other, evolves.items.holdless other owes.2⟩
  | dropRows eventId targetId matched =>
      refine ⟨owes.1.evolves evolves other, evolves.items.holdless other owes.2.1, ?_⟩
      intro collectionId on
      exact owes.2.2 collectionId (on.evolves credited evolves other owes.1.locked)
  | commitRemoval eventId targetId =>
      refine ⟨owes.1.evolves evolves other, ?_, ?_⟩
      · intro key held
        have before := (evolves.items.holder other).mp held
        rw [evolves.items.read other before]
        exact owes.2.1 before
      · intro collectionId on
        exact (evolves.items.holder other).mpr
          (owes.2.2 collectionId (on.evolves credited evolves other owes.1.locked))

/-! ### Steps -/

theorem setProcess_self (state : ShelfState) (process : Nat) (running : ShelfProcess) :
    (state.setProcess process running).processes process = running :=
  Function.update_self ..

theorem setProcess_of_ne (state : ShelfState) {process other : Nat} (different : other ≠ process)
    (running : ShelfProcess) :
    (state.setProcess process running).processes other = state.processes other :=
  Function.update_of_ne different ..

/-- A step of one process is sound when what it writes and secures is. -/
theorem Sound.acts (sound : state.Sound) (process : Nat)
    (turns : next.processes = (state.setProcess process running).processes)
    (evolves : Evolves process state next) (credited : next.HoldsCredited)
    (listed : next.items.Listed)
    (stands : ∀ {collectionId collection},
      next.collections.committed collectionId = some collection →
        next.collections.read process collectionId = some collection)
    (owes : next.Owes process running) : next.Sound := by
  refine ⟨credited, listed, ?_, ?_⟩
  · intro reader collectionId collection committed
    by_cases mine : reader = process
    · subst mine
      exact stands committed
    · by_cases held : state.collections.holder collectionId = some reader
      · rw [evolves.collections.committed mine held] at committed
        rw [evolves.collections.read mine held]
        exact sound.stands committed
      · have heldAfter : next.collections.holder collectionId ≠ some reader := by
          rw [Ne, evolves.collections.holder mine]
          exact held
        rw [Table.read_of_holder_ne _ _ heldAfter]
        exact committed
  · intro other
    by_cases mine : other = process
    · subst mine
      rw [turns, setProcess_self]
      exact owes
    · rw [turns, setProcess_of_ne state mine]
      exact (sound.owes other).evolves sound.credited evolves mine

/-- A step that commits nothing, and leaves the others' locks. -/
structure Quiet (actor : Nat) (state next : ShelfState) : Prop where
  events : next.events = state.events
  removals : next.removals = state.removals
  geolocators : Table.StepBy actor state.geolocators next.geolocators
  collections : Table.StepBy actor state.collections next.collections
  items : Table.StepBy actor state.items next.items
  committedGeolocators : ∀ key, next.geolocators.committed key = state.geolocators.committed key
  committedCollections : ∀ key, next.collections.committed key = state.collections.committed key
  committedItems : ∀ key, next.items.committed key = state.items.committed key
  exclusive : ∀ {other eventId}, other ≠ actor →
    (next.locks.exclusive eventId = some other ↔ state.locks.exclusive eventId = some other)
  shares : ∀ {other eventId}, other ≠ actor →
    (next.locks.Shares other eventId ↔ state.locks.Shares other eventId)

theorem Credited.of_geolocators {userId eventId : Uuid} (credited : state.Credited userId eventId)
    (events : next.events = state.events)
    (same : next.geolocators.committed (eventId, userId) =
      state.geolocators.committed (eventId, userId)) : next.Credited userId eventId := by
  rcases credited with ⟨event, found, reason⟩
  refine ⟨event, ?_, ?_⟩
  · unfold event? at *
    rw [events]
    exact found
  · rw [same]
    exact reason

theorem Quiet.evolves (quiet : Quiet actor state next) : Evolves actor state next where
  geolocators := quiet.geolocators
  collections := quiet.collections
  items := quiet.items
  exclusive := quiet.exclusive
  shares := quiet.shares
  removals := ⟨[], quiet.removals, fun credited =>
    .inl (credited.of_geolocators quiet.events (quiet.committedGeolocators _))⟩
  shared _ _ credited := credited.of_geolocators quiet.events (quiet.committedGeolocators _)
  locked _ _ present := by
    rw [quiet.committedItems] at present
    exact present
  stands committed := by
    rw [quiet.committedCollections]
    exact committed

theorem Quiet.credited (quiet : Quiet actor state next) (credited : state.HoldsCredited) :
    next.HoldsCredited := by
  intro collectionId eventId present
  rw [quiet.committedItems] at present
  rcases credited collectionId eventId present with ⟨collection, committed, isCredited⟩
  refine ⟨collection, ?_, isCredited.of_geolocators quiet.events (quiet.committedGeolocators _)⟩
  rw [quiet.committedCollections]
  exact committed

/-- A step that commits nothing is sound when what it secures is. -/
theorem Sound.quiet (sound : state.Sound) (process : Nat)
    (turns : next.processes = (state.setProcess process running).processes)
    (quiet : Quiet process state next) (listed : next.items.Listed)
    (reads : ∀ collectionId, (state.collections.committed collectionId).isSome →
      next.collections.read process collectionId = state.collections.read process collectionId)
    (owes : next.Owes process running) : next.Sound := by
  refine sound.acts process turns quiet.evolves (quiet.credited sound.credited) listed ?_ owes
  intro collectionId collection committed
  rw [quiet.committedCollections] at committed
  rw [reads collectionId (by rw [committed]; rfl)]
  exact sound.stands committed

theorem Quiet.refl (actor : Nat) (events : next.events = state.events)
    (removals : next.removals = state.removals) (locks : next.locks = state.locks)
    (geolocators : next.geolocators = state.geolocators)
    (collections : next.collections = state.collections) (items : next.items = state.items) :
    Quiet actor state next := by
  refine ⟨events, removals, geolocators ▸ .refl _, collections ▸ .refl _, items ▸ .refl _, ?_, ?_,
    ?_, ?_, ?_⟩
  · rw [geolocators]
    exact fun _ => rfl
  · rw [collections]
    exact fun _ => rfl
  · rw [items]
    exact fun _ => rfl
  · rw [locks]
    exact fun _ => Iff.rfl
  · rw [locks]
    exact fun _ => Iff.rfl

/-- What a process has secured stands while the tables and locks do. -/
theorem Owes.of_tables {running : ShelfProcess} (owes : state.Owes process running)
    (credited : state.HoldsCredited) (events : next.events = state.events)
    (removals : next.removals = state.removals) (locks : next.locks = state.locks)
    (geolocators : next.geolocators = state.geolocators)
    (collections : next.collections = state.collections) (items : next.items = state.items) :
    next.Owes process running :=
  owes.evolves credited
    (Quiet.refl (process + 1) events removals locks geolocators collections items).evolves
    (Nat.succ_ne_self process).symm

/-- A process moves on to a statement that needs no more than is secured. -/
theorem Sound.moves (sound : state.Sound) (process : Nat) {running : ShelfProcess}
    (owes : state.Owes process running) : (state.setProcess process running).Sound :=
  sound.quiet process rfl (.refl process rfl rfl rfl rfl rfl rfl) sound.listed (fun _ _ => rfl)
    (owes.of_tables sound.credited rfl rfl rfl rfl rfl rfl)

theorem Sound.rollback (sound : state.Sound) (process : Nat) {running : ShelfProcess}
    (ended : running.ended = true) : (state.rollback process running).Sound := by
  have rests : (state.rollback process running).Rests process :=
    ⟨Table.holdless_rollback _ _, Table.holdless_rollback _ _, Table.holdless_rollback _ _⟩
  have quiet : Quiet process state (state.rollback process running) :=
    ⟨rfl, rfl, .rollback _ _, .rollback _ _, .rollback _ _, Table.committed_rollback _ _,
      Table.committed_rollback _ _, Table.committed_rollback _ _,
      KeyLocks.exclusive_release_iff, KeyLocks.shares_release_iff⟩
  refine sound.acts process rfl quiet.evolves (quiet.credited sound.credited)
    (sound.listed.rollback process) ?_ ?_
  · intro collectionId collection committed
    rw [Table.read_of_holdless _ _ rests.collections]
    exact committed
  · cases running with
    | idle | raised _ => exact rests
    | _ => contradiction

/-! ### Commits -/

theorem rests_commit (state : ShelfState) (process : Nat) (running : ShelfProcess) :
    (state.commit process running).Rests process :=
  ⟨Table.holdless_commit _ _, Table.holdless_commit _ _, Table.holdless_commit _ _⟩

theorem HasCollection.commit {collectionId : Uuid} {collection : Collection}
    (has : state.HasCollection process collectionId collection) (sound : state.Sound)
    (running : ShelfProcess) :
    (state.commit process running).collections.committed collectionId = some collection := by
  refine (Table.committed_commit ..).trans ?_
  rcases has with committed | ⟨_, reads⟩
  · exact sound.stands committed
  · exact reads

/-- The commit of a writer: what it inserted is credited. -/
theorem Sound.commitShelves (sound : state.Sound) (shelves : state.Shelves process) :
    (state.commit process .idle).Sound := by
  have sameCredits : ∀ key, (state.commit process .idle).geolocators.committed key =
      state.geolocators.committed key := fun key =>
    (Table.committed_commit ..).trans (Table.read_of_holdless _ _ shelves.geolocators key)
  have rests := rests_commit state process .idle
  have evolves : Evolves process state (state.commit process .idle) := by
    refine ⟨.commit _ _, .commit _ _, .commit _ _, KeyLocks.exclusive_release_iff,
      KeyLocks.shares_release_iff, ⟨[], rfl, ?_⟩, ?_, ?_, ?_⟩
    · exact fun credited => .inl (credited.of_geolocators rfl (sameCredits _))
    · exact fun _ _ credited => credited.of_geolocators rfl (sameCredits _)
    · intro other collectionId eventId different locked present
      by_cases held : state.items.holder (collectionId, eventId) = some process
      · -- the writer shares the event, so nobody else has locked it
        have shares := (shelves.inserted held).1
        exact absurd (KeyLocks.shares_apart locked shares).symm different
      · have same : (state.commit process .idle).items.committed (collectionId, eventId) =
            state.items.committed (collectionId, eventId) :=
          (Table.committed_commit ..).trans (Table.read_of_holder_ne _ _ held)
        rw [same] at present
        exact present
    · exact fun committed => (Table.committed_commit ..).trans (sound.stands committed)
  refine sound.acts process rfl evolves ?_ (sound.listed.commit process) ?_ rests
  · intro collectionId eventId present
    by_cases held : state.items.holder (collectionId, eventId) = some process
    · rcases (shelves.inserted held).2 with ⟨collection, has, credited⟩
      exact ⟨collection, has.commit sound .idle, credited.of_geolocators rfl (sameCredits _)⟩
    · have same : (state.commit process .idle).items.committed (collectionId, eventId) =
          state.items.committed (collectionId, eventId) :=
        (Table.committed_commit ..).trans (Table.read_of_holder_ne _ _ held)
      rw [same] at present
      rcases sound.credited collectionId eventId present with ⟨collection, committed, credited⟩
      exact ⟨collection, evolves.stands committed, credited.of_geolocators rfl (sameCredits _)⟩
  · intro collectionId collection committed
    rw [Table.read_of_holdless _ _ rests.collections]
    exact committed

/-- The commit of a removal: the items of the ended credit go with it. -/
theorem commitRemoval_sound (sound : state.Sound) {eventId targetId : Uuid}
    (here : state.processes process = .commitRemoval eventId targetId) :
    (state.commitRemoval process eventId targetId).Sound := by
  have owes := sound.owes process
  rw [here] at owes
  rcases owes with ⟨removes, deletes, covers⟩
  have rests := rests_commit state process .idle
  have credits : ∀ {userId other}, ¬ (other = eventId ∧ userId = targetId) →
      state.Credited userId other →
      (state.commitRemoval process eventId targetId).Credited userId other := by
    intro userId other different credited
    refine credited.of_geolocators rfl ?_
    refine (Table.committed_commit ..).trans (Table.read_of_holder_ne _ _ ?_)
    intro held
    have same := Prod.mk.inj (removes.ends held)
    exact different ⟨same.1, same.2⟩
  have items : ∀ {key},
      ((state.commitRemoval process eventId targetId).items.committed key).isSome →
      state.items.holder key ≠ some process ∧ (state.items.committed key).isSome := by
    intro key present
    have reads : (state.items.read process key).isSome :=
      (Table.committed_commit state.items process key) ▸ present
    by_cases held : state.items.holder key = some process
    · rw [deletes held] at reads
      contradiction
    · rw [Table.read_of_holder_ne _ _ held] at reads
      exact ⟨held, reads⟩
  have evolves : Evolves process state (state.commitRemoval process eventId targetId) := by
    refine ⟨.commit _ _, .commit _ _, .commit _ _, KeyLocks.exclusive_release_iff,
      KeyLocks.shares_release_iff, ⟨[(eventId, targetId)], rfl, ?_⟩, ?_, ?_, ?_⟩
    · intro userId other credited
      by_cases ended : other = eventId ∧ userId = targetId
      · right
        rw [ended.1, ended.2]
        exact List.mem_singleton_self _
      · exact .inl (credits ended credited)
    · intro other userId event different shares credited
      refine credits ?_ credited
      rintro ⟨rfl, _⟩
      exact different (KeyLocks.shares_apart removes.locked shares)
    · exact fun _ _ present => (items present).2
    · exact fun committed => (Table.committed_commit ..).trans (sound.stands committed)
  refine sound.acts process rfl evolves ?_ (sound.listed.commit process) ?_
    ⟨rests.geolocators, rests.collections, rests.items⟩
  · intro collectionId other present
    rcases items present with ⟨unheld, before⟩
    rcases sound.credited collectionId other before with ⟨collection, committed, credited⟩
    refine ⟨collection, evolves.stands committed, credits ?_ credited⟩
    rintro ⟨rfl, owner⟩
    exact unheld (covers collectionId ⟨before, collection, committed, owner⟩)
  · intro collectionId collection committed
    exact (Table.read_of_holdless _ _ rests.collections collectionId).trans committed

/-! ### Which events -/

theorem creditedTo_iff (holdless : state.geolocators.Holdless process) {userId eventId : Uuid}
    {event : ShelvedEvent} (found : state.event? eventId = some event)
    (credited : state.creditedTo process userId event = true) : state.Credited userId eventId := by
  have isEvent : event.id = eventId := by
    simpa using List.find?_some found
  refine ⟨event, found, ?_⟩
  simp only [creditedTo, Bool.or_eq_true, decide_eq_true_eq, Option.any_eq_true] at credited
  rw [Table.read_of_holdless _ _ holdless, isEvent] at credited
  exact credited

theorem credited_of_known (holdless : state.geolocators.Holdless process) {userId eventId : Uuid}
    {collectable : Bool} (isKnown : state.known process userId eventId = .ok collectable) :
    state.Credited userId eventId := by
  unfold known eligibility at isKnown
  cases found : state.event? eventId with
  | none =>
      rw [found] at isKnown
      contradiction
  | some event =>
      rw [found] at isKnown
      simp only [Option.map_some] at isKnown
      split at isKnown
      · rename_i credited
        exact creditedTo_iff holdless found credited
      · contradiction

theorem credited_of_ensureCollectable (holdless : state.geolocators.Holdless process)
    {userId : Uuid} {eventIds : List Uuid}
    (ensured : state.ensureCollectable process userId eventIds = .ok ()) :
    ∀ eventId ∈ eventIds, state.Credited userId eventId := by
  induction eventIds with
  | nil => exact fun _ member => absurd member List.not_mem_nil
  | cons head tail inductionHypothesis =>
      unfold ensureCollectable at ensured
      split at ensured
      · contradiction
      · contradiction
      · rename_i isKnown
        intro eventId member
        rcases List.mem_cons.mp member with rfl | later
        · exact credited_of_known holdless isKnown
        · exact inductionHypothesis ensured eventId later

theorem credited_of_splitCollectable (holdless : state.geolocators.Holdless process)
    {userId : Uuid} {eventIds split : List Uuid}
    (isSplit : state.splitCollectable process userId eventIds = .ok split) :
    ∀ eventId ∈ split, state.Credited userId eventId := by
  induction eventIds generalizing split with
  | nil =>
      cases isSplit
      exact fun _ member => absurd member List.not_mem_nil
  | cons head tail inductionHypothesis =>
      unfold splitCollectable at isSplit
      split at isSplit
      · contradiction
      · rename_i collectable isKnown
        split at isSplit
        · contradiction
        · rename_i rest isRest
          cases isSplit
          intro eventId member
          split at member
          · rcases List.mem_cons.mp member with rfl | later
            · exact credited_of_known holdless isKnown
            · exact inductionHypothesis isRest eventId later
          · exact inductionHypothesis isRest eventId member

/-- What a writer may insert, its owner is credited on. -/
theorem credited_of_eligible (holdless : state.geolocators.Holdless process) {shelf : Shelf}
    {selection : Selection} {eventIds : List Uuid}
    (isEligible : state.eligible settings process shelf selection = .ok eventIds) :
    ∀ eventId ∈ eventIds, state.Credited shelf.userId eventId := by
  cases selection with
  | ids requested =>
      simp only [eligible] at isEligible
      cases writer : shelf.writer with
      | addEvent | createCollection =>
          simp only [writer] at isEligible
          split at isEligible
          · contradiction
          · rename_i ensured
            cases isEligible
            exact credited_of_ensureCollectable holdless ensured
      | addEvents =>
          simp only [writer] at isEligible
          split at isEligible
          · contradiction
          · exact credited_of_splitCollectable holdless isEligible
  | search match' excluded =>
      simp only [eligible] at isEligible
      split at isEligible
      · contradiction
      · split at isEligible
        · contradiction
        · split at isEligible
          · contradiction
          · cases isEligible
            intro eventId member
            have listed := (List.mem_filter.mp member).2
            simp only [Bool.and_eq_true, decide_eq_true_eq] at listed
            have isKnown : state.known process shelf.userId eventId = .ok true := by
              unfold known
              rw [listed.1.1]
              rfl
            exact credited_of_known holdless isKnown

/-! ### Shelving -/

theorem openShelf_sound (sound : state.Sound) {shelf : Shelf} {selection : Selection}
    (here : state.processes process = .open shelf selection) :
    (state.openShelf process shelf selection).Sound := by
  have rests : state.Rests process := by
    have owes := sound.owes process
    rw [here] at owes
    exact owes
  unfold openShelf
  split
  · exact sound.rollback process rfl
  · rename_i collection reads
    rw [Table.read_of_holdless _ _ rests.collections] at reads
    split
    · exact sound.rollback process rfl
    · rename_i owner
      split
      · exact sound.rollback process rfl
      · exact sound.moves process
          ⟨rests.geolocators, rests.items, collection, .inl reads, not_not.mp owner⟩

theorem flush_sound (sound : state.Sound) {collectionId : Uuid} {collection : Collection}
    {eventIds : List Uuid} (here : state.processes process = .flush collectionId collection eventIds)
    (flushed : state.flush process collectionId collection eventIds = .ok next) : next.Sound := by
  have rests : state.Rests process := by
    have owes := sound.owes process
    rw [here] at owes
    exact owes
  unfold flush at flushed
  split at flushed
  · contradiction
  · rename_i free
    split at flushed
    · cases flushed
      exact sound.rollback process rfl
    · rename_i absent
      cases flushed
      refine sound.quiet process rfl ⟨rfl, rfl, .refl _, .write _ (not_not.mp free), .refl _,
        fun _ => rfl, Table.committed_write _ _ _ _, fun _ => rfl, fun _ => Iff.rfl,
        fun _ => Iff.rfl⟩ sound.listed ?_ ⟨rests.geolocators, rests.items, collection,
          .inr ⟨(Table.holder_write ..).trans (if_pos rfl), Table.read_write_self ..⟩, rfl⟩
      intro other stands
      rcases Option.isSome_iff_exists.mp stands with ⟨standing, committed⟩
      have reads : state.collections.read process other = some standing :=
        sound.stands committed
      have elsewhere : other ≠ collectionId := by
        rintro rfl
        rw [reads] at absent
        exact absent (Option.some_ne_none _)
      exact (Table.read_write ..).trans (if_neg elsewhere)

theorem readEligibility_sound (sound : state.Sound) {shelf : Shelf} {selection : Selection}
    (here : state.processes process = .readEligibility shelf selection) :
    (state.readEligibility settings process shelf selection).Sound := by
  have owes := sound.owes process
  rw [here] at owes
  rcases owes with ⟨geolocators, items, own⟩
  unfold readEligibility
  split
  · exact sound.rollback process rfl
  · rename_i eventIds isEligible
    refine sound.moves process ⟨⟨geolocators, fun held => absurd held (items _)⟩, own,
      ⟨le_refl _, ?_⟩⟩
    intro eventId member
    exact .inl (credited_of_eligible geolocators isEligible eventId member)

theorem insertItem_sound (sound : state.Sound) {shelf : Shelf} {seen : Nat} {eventId : Uuid}
    {eventIds : List Uuid}
    (here : state.processes process = .insertItems shelf seen (eventId :: eventIds))
    (unraced : (eventId, shelf.userId) ∉ state.removals.take (state.removals.length - seen))
    (inserted : state.insertItem process shelf seen eventId eventIds = .ok next) :
    next.Sound := by
  have owes := sound.owes process
  rw [here] at owes
  rcases owes with ⟨shelves, own, checked⟩
  have rest : state.Checked shelf.userId seen eventIds :=
    ⟨checked.past, fun other member => checked.credited other (List.mem_cons_of_mem _ member)⟩
  have credited : state.Credited shelf.userId eventId :=
    (checked.credited eventId List.mem_cons_self).resolve_right unraced
  unfold insertItem at inserted
  split at inserted
  · contradiction
  · rename_i free
    split at inserted
    · cases inserted
      unfold itemExists
      split
      · exact sound.rollback process rfl
      · exact sound.rollback process rfl
      · exact sound.moves process ⟨shelves, own, rest⟩
    · split at inserted
      · cases inserted
        exact sound.rollback process rfl
      · split at inserted
        · contradiction
        · rename_i locks shared
          cases inserted
          rcases own with ⟨collection, has, owner⟩
          refine sound.quiet process rfl ⟨rfl, rfl, .refl _, .refl _, .write _ (not_not.mp free),
            fun _ => rfl, fun _ => rfl, Table.committed_write _ _ _ _, ?_, ?_⟩
            (sound.listed.write _ _) (fun _ _ => rfl)
            ⟨⟨shelves.geolocators, ?_⟩, ⟨collection, has, owner⟩, ⟨rest.past, ?_⟩⟩
          · intro other row _
            show locks.exclusive row = some other ↔ _
            rw [KeyLocks.exclusive_of_share shared]
          · intro other row different
            refine (KeyLocks.shares_of_share shared).trans ?_
            simp [different]
          · intro collectionId row held
            have holder := (Table.holder_write ..).symm.trans held
            split at holder
            · rename_i same
              cases same
              exact ⟨(KeyLocks.shares_of_share shared).mpr (.inl ⟨rfl, rfl⟩), collection, has,
                owner ▸ credited.of_geolocators rfl rfl⟩
            · rcases shelves.inserted holder with ⟨shares, other, hasOther, isCredited⟩
              exact ⟨(KeyLocks.shares_of_share shared).mpr (.inr shares), other, hasOther,
                isCredited.of_geolocators rfl rfl⟩
          · intro other member
            rcases rest.credited other member with still | removed
            · exact .inl (still.of_geolocators rfl rfl)
            · exact .inr removed

/-! ### Removing a credit -/

theorem lockEvent_sound (sound : state.Sound) {eventId actorId : Uuid} {username : Str}
    (here : state.processes process = .remove eventId actorId username)
    (locked : state.lockEvent process eventId actorId username = .ok next) : next.Sound := by
  have rests : state.Rests process := by
    have owes := sound.owes process
    rw [here] at owes
    exact owes
  unfold lockEvent at locked
  split at locked
  · cases locked
    exact sound.rollback process rfl
  · split at locked
    · contradiction
    · rename_i locks taken
      cases locked
      exact sound.quiet process rfl ⟨rfl, rfl, .refl _, .refl _, .refl _, fun _ => rfl,
        fun _ => rfl, fun _ => rfl, KeyLocks.exclusive_lock_iff taken,
        fun _ => KeyLocks.shares_lock_iff taken⟩ sound.listed (fun _ _ => rfl)
        ⟨KeyLocks.exclusive_of_lock taken, rests.geolocators, rests.collections, rests.items⟩

theorem endCredit_sound (sound : state.Sound) {eventId actorId : Uuid} {username : Str}
    (here : state.processes process = .endCredit eventId actorId username)
    (ended : state.endCredit process eventId actorId username = .ok next) : next.Sound := by
  have owes := sound.owes process
  rw [here] at owes
  rcases owes with ⟨locked, rests⟩
  have refused : ∀ refusal, (state.rollback process (.raised refusal)).Sound :=
    fun _ => sound.rollback process rfl
  unfold endCredit at ended
  split at ended
  · cases ended
    exact refused _
  split at ended
  · cases ended
    exact refused _
  split at ended
  · cases ended
    exact refused _
  split at ended
  · cases ended
    exact refused _
  split at ended
  · cases ended
    exact refused _
  split at ended
  · cases ended
    exact refused _
  split at ended
  · contradiction
  rename_i free
  cases ended
  refine sound.quiet process rfl ⟨rfl, rfl, .write _ (not_not.mp free), .refl _, .refl _,
    Table.committed_write _ _ _ _, fun _ => rfl, fun _ => rfl, fun _ => Iff.rfl,
    fun _ => Iff.rfl⟩ sound.listed (fun _ _ => rfl)
    ⟨⟨locked, ?_, rests.collections⟩, rests.items⟩
  intro key held
  have holder := (Table.holder_write ..).symm.trans held
  split at holder
  · assumption
  · exact absurd holder (rests.geolocators key)

theorem dropItems_sound (sound : state.Sound) {eventId targetId : Uuid}
    (here : state.processes process = .dropItems eventId targetId) :
    (state.setProcess process (.dropRows eventId targetId
      (state.itemsOf process eventId targetId))).Sound := by
  have owes := sound.owes process
  rw [here] at owes
  rcases owes with ⟨removes, items⟩
  refine sound.moves process ⟨removes, items, ?_⟩
  rintro collectionId ⟨present, collection, committed, owner⟩
  rcases Option.isSome_iff_exists.mp present with ⟨item, isItem⟩
  refine Table.mem_select.mpr ⟨sound.listed _ _ (.of_committed isItem), item, ?_, ?_⟩
  · rw [Table.read_of_holdless _ _ items]
    exact isItem
  · rw [Table.read_of_holdless _ _ removes.collections, committed]
    simp [owner]

theorem dropRows_sound (sound : state.Sound) {eventId targetId : Uuid}
    {matched : List (Uuid × Uuid)}
    (here : state.processes process = .dropRows eventId targetId matched)
    (dropped : state.dropRows process eventId targetId matched = .ok next) : next.Sound := by
  have owes := sound.owes process
  rw [here] at owes
  rcases owes with ⟨removes, items, covers⟩
  unfold dropRows at dropped
  split at dropped
  · rename_i free
    cases dropped
    refine sound.quiet process rfl ⟨rfl, rfl, .refl _, .refl _, .writeAll _ free, fun _ => rfl,
      fun _ => rfl, Table.committed_writeAll _ _ _ _, fun _ => Iff.rfl, fun _ => Iff.rfl⟩
      (sound.listed.writeAll _ _) (fun _ _ => rfl)
      ⟨⟨removes.locked, removes.ends, removes.collections⟩, ?_, ?_⟩
    · intro key held
      have holder := (Table.holder_writeAll ..).symm.trans held
      split at holder
      · rename_i member
        refine (Table.read_writeAll ..).trans ?_
        rw [if_pos member.1]
        exact Option.bind_fun_none _
      · exact absurd holder (items key)
    · rintro collectionId ⟨present, rows⟩
      have before : (state.items.committed (collectionId, eventId)).isSome :=
        (Table.committed_writeAll state.items ..) ▸ present
      refine (Table.holder_writeAll ..).trans (if_pos ⟨covers collectionId ⟨before, rows⟩, ?_⟩)
      rw [Table.read_of_holdless _ _ items]
      exact before
  · contradiction

/-! ### Every step -/

theorem answer_sound (sound : state.Sound) {eventId userId : Uuid} {row : EventGeolocator}
    (answered : state.answer eventId userId row = .ok next) : next.Sound := by
  unfold answer at answered
  split at answered
  · contradiction
  rename_i free
  split at answered
  · contradiction
  rename_i keeps
  cases answered
  push Not at free
  have credits : ∀ {analystId other}, state.Credited analystId other →
      ({ state with geolocators := state.geolocators.put (eventId, userId) (some row) } :
        ShelfState).Credited analystId other := by
    rintro analystId other ⟨event, found, reason⟩
    refine ⟨event, found, reason.imp_right ?_⟩
    rintro ⟨old, committed, active⟩
    simp only [Table.committed_put]
    by_cases here : (other, analystId) = (eventId, userId)
    · rw [if_pos here]
      refine ⟨row, rfl, ?_⟩
      by_contra inactive
      rw [here] at committed
      exact keeps ⟨by rw [committed]; simpa using active, inactive⟩
    · rw [if_neg here]
      exact ⟨old, committed, active⟩
  have evolves : ∀ actor, Evolves actor state
      { state with geolocators := state.geolocators.put (eventId, userId) (some row) } := by
    intro actor
    exact ⟨.put free.2.2 _ actor, .refl _, .refl _, fun _ => Iff.rfl, fun _ => Iff.rfl,
      ⟨[], rfl, fun credited => .inl (credits credited)⟩, fun _ _ credited => credits credited,
      fun _ _ present => present, fun committed => committed⟩
  refine ⟨?_, sound.listed, sound.stands, ?_⟩
  · intro collectionId other present
    rcases sound.credited collectionId other present with ⟨collection, committed, credited⟩
    exact ⟨collection, committed, credits credited⟩
  · intro process
    exact (sound.owes process).evolves sound.credited (evolves (process + 1))
      (Nat.succ_ne_self process).symm

theorem start_sound (sound : state.Sound) {running : ShelfProcess}
    (owes : state.Rests process → state.Owes process running)
    (started : state.start process running = .ok next) : next.Sound := by
  unfold start at started
  split at started
  · rename_i ended
    cases started
    apply sound.moves process
    have rests := sound.owes process
    cases here : state.processes process with
    | idle | raised refusal =>
        rw [here] at rests
        exact owes rests
    | _ =>
        rw [here] at ended
        contradiction
  · contradiction

theorem create_sound (sound : state.Sound) {ownerId : Uuid} {title description : Str}
    {eventIds : List Uuid}
    (created : state.create settings process ownerId title description eventIds = .ok next) :
    next.Sound := by
  unfold create at created
  split at created
  · exact start_sound sound id created
  · have drawn : ({ state with idsDrawn := state.idsDrawn + 1 } : ShelfState).Sound :=
      ⟨sound.credited, sound.listed, sound.stands, fun other =>
        (sound.owes other).of_tables sound.credited rfl rfl rfl rfl rfl rfl⟩
    exact start_sound drawn id created

/-- The next statement of a process keeps the invariant. -/
theorem runProcess_sound (sound : state.Sound) (unraced : state.Unraced (.run process))
    (ran : state.runProcess settings process = .ok next) : next.Sound := by
  have owes := sound.owes process
  unfold runProcess at ran
  cases here : state.processes process with
  | idle | raised refusal =>
      rw [here] at ran
      contradiction
  | «open» shelf selection =>
      rw [here] at ran
      cases ran
      exact openShelf_sound sound here
  | flush collectionId collection eventIds =>
      rw [here] at ran
      exact flush_sound sound here ran
  | readEligibility shelf selection =>
      rw [here] at ran
      cases ran
      exact readEligibility_sound sound here
  | insertItems shelf seen eventIds =>
      rw [here] at ran owes
      cases eventIds with
      | nil =>
          cases ran
          exact sound.moves process owes.1
      | cons eventId rest => exact insertItem_sound sound here (unraced rfl here) ran
  | commitItems =>
      rw [here] at ran owes
      cases ran
      exact sound.commitShelves owes
  | remove eventId actorId username =>
      rw [here] at ran
      exact lockEvent_sound sound here ran
  | endCredit eventId actorId username =>
      rw [here] at ran
      exact endCredit_sound sound here ran
  | dropItems eventId targetId =>
      rw [here] at ran
      cases ran
      exact dropItems_sound sound here
  | dropRows eventId targetId matched =>
      rw [here] at ran
      exact dropRows_sound sound here ran
  | commitRemoval eventId targetId =>
      rw [here] at ran
      cases ran
      exact commitRemoval_sound sound here

theorem Sound.step {label : ShelfLabel} (sound : state.Sound) (unraced : state.Unraced label)
    (stepped : ShelfState.step settings label state = .ok next) : next.Sound := by
  cases label with
  | answer eventId userId row => exact answer_sound sound stepped
  | addEvent process collectionId eventId userId => exact start_sound sound id stepped
  | createCollection process ownerId title description eventIds =>
      exact create_sound sound stepped
  | addEvents process collectionId userId selection => exact start_sound sound id stepped
  | remove process eventId actorId username => exact start_sound sound id stepped
  | run process => exact runProcess_sound sound unraced stepped
  | fail process =>
      cases stepped
      exact sound.rollback process rfl

theorem Initial.sound (initial : state.Initial) : state.Sound := by
  have rests : ∀ process, state.Rests process := by
    intro process
    refine ⟨fun key => ?_, fun key => ?_, fun key => ?_⟩
    · rw [initial.geolocators]
      exact (Option.some_ne_none _).symm
    · rw [initial.collections]
      exact (Option.some_ne_none _).symm
    · rw [initial.items]
      exact (Option.some_ne_none _).symm
  refine ⟨initial.credited, ?_, ?_, ?_⟩
  · apply Table.listed_of_unheld initial.items
    intro key row committed
    exact initial.keys key (by rw [committed]; rfl)
  · intro process collectionId collection committed
    rw [Table.read_of_holdless _ _ (rests process).collections]
    exact committed
  · intro process
    have ended := initial.ended process
    cases here : state.processes process with
    | idle | raised refusal => exact rests process
    | _ =>
        rw [here] at ended
        contradiction

theorem sound_of_reachable
    (reachable : ((shelfSystem settings).restrict Unraced).Reachable state) : state.Sound := by
  refine System.Reachable.invariant Initial.sound ?_ reachable
  exact fun sound stepped => sound.step stepped.1 stepped.2

end ShelfState

open ShelfState

/-- Where no removal overtakes a writer between its check and its insert, collections
hold only credited work. -/
theorem collectionsCredited_of_unraced (settings : ShelfSettings) :
    CollectionsCredited ((shelfSystem settings).restrict Unraced) :=
  fun reachable _ => (sound_of_reachable reachable).credited

/-! ### A removal between the check and the insert -/

namespace Overtaken

def settings : ShelfSettings where
  checkedDescription := fun description => some (description, description)
  validates := fun _ => true
  lists := fun _ _ => true
  uuid := id

def analyst (id : Uuid) (username : Str) : User where
  id := id
  username := username
  email := username
  passwordHash := str "hash"
  isActive := true
  isAdmin := false
  lastSeenAt := none
  deletedAt := none
  tokenVersion := 0

/-- Analyst 2 is credited on the event of analyst 1, and has an empty collection. -/
def start : ShelfState where
  now := 0
  idsDrawn := 10
  users := [analyst 1 (str "owner"), analyst 2 (str "second")]
  events := [⟨7, 1, .geolocated, none, none⟩]
  locks := .none
  geolocators := .ofRows [(7, 2)] fun key =>
    if key = (7, 2) then some ⟨2, .active, some 0, some 0, none⟩ else none
  collections := .ofRows [3] fun id =>
    if id = 3 then some ⟨2, str "Mine", str "Work", str "Work", none⟩ else none
  items := .ofRows [] fun _ => none
  processes := fun _ => .idle
  removals := []

/-- `add_event` checks, a removal runs through, and `add_event` inserts. -/
def removalBetween : List ShelfLabel :=
  [.addEvent 0 3 7 2, .run 0, .run 0, .remove 1 7 1 (str "second"), .run 1, .run 1, .run 1,
    .run 1, .run 1, .run 0, .run 0, .run 0]

theorem start_initial : start.Initial := by
  refine ⟨fun _ => rfl, ⟨fun _ => rfl, rfl⟩, fun _ => rfl, fun _ => rfl, fun _ => rfl, ?_, ?_⟩
  · intro key present
    contradiction
  · intro collectionId eventId present
    contradiction

/-- A collection holds an event its owner is no longer credited on. -/
theorem collectionsCredited_fails : ¬ CollectionsCredited (shelfSystem settings) := by
  intro promise
  have run : ∃ final, System.runLabels (ShelfState.step settings) removalBetween start =
      .ok final ∧ (∀ process, (final.processes process).ended = true) ∧
      (final.items.committed (3, 7)).isSome ∧
      final.event? 7 = some ⟨7, 1, .geolocated, none, none⟩ ∧
      final.collections.committed 3 = start.collections.committed 3 ∧
      final.geolocators.committed (7, 2) =
        some ⟨2, .departed, some 0, some 0, some 0⟩ := by
    refine ⟨_, rfl, ?_, rfl, rfl, rfl, rfl⟩
    intro process
    rcases process with _ | _ | rest <;> rfl
  rcases run with ⟨final, reached, ended, present, found, sameCollection, departed⟩
  have reachable : (shelfSystem settings).Reachable final :=
    ⟨start, start_initial, System.Run.of_runLabels reached⟩
  rcases promise reachable ended 3 7 present with ⟨collection, committed, event, isEvent, reason⟩
  rw [sameCollection] at committed
  cases committed
  rw [found] at isEvent
  cases isEvent
  rcases reason with owner | ⟨row, isRow, active⟩
  · exact absurd owner (by decide)
  · rw [departed] at isRow
    cases isRow
    contradiction

end Overtaken

end Vidit.Collections
