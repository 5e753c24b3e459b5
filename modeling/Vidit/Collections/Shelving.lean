import Vidit.Events.Schema
import Vidit.Library.KeyLock
import Vidit.Library.RowLock
import Vidit.Library.Transition

/-!
Contract: shelving events on collections, interleaved statement by statement with the
removal of a geolocator's credit.

A writer reads which events its owner may shelve, then inserts the items, then
commits. Each insert shares the event's key with its foreign key; a removal locks
the event row, and waits for those who share it.

Owns:
- `add_event`, `create_collection` and the bulk `add_events`, over all rows;
- `geolocator_credit.remove`, as far as it ends a credit and drops the items;
- the system of their interleavings.

Does not own: the approval requests and the notification of a removal, the
matching of a search, and the sanitising of a description.
-/

namespace Vidit.Collections

open Vidit.Python Vidit.Accounts Vidit.Events Vidit.Library

/-- The columns of an `events` row that shelving reads. -/
structure ShelvedEvent where
  id : Uuid
  ownerId : Uuid
  status : Status
  deletedAt : Option Instant
  hiddenAt : Option Instant
deriving DecidableEq, Repr

/-- `collectable_events`. -/
def ShelvedEvent.collectable (event : ShelvedEvent) : Bool :=
  event.deletedAt = none && event.hiddenAt = none &&
    (event.status = .geolocated || event.status = .detected)

structure Collection where
  ownerId : Uuid
  title : Str
  description : Str
  descriptionText : Str
  deletedAt : Option Instant
deriving DecidableEq, Repr

/-- A `collection_events` row, under its collection and event. -/
structure CollectionEvent where
  addedAt : Instant
deriving DecidableEq, Repr

/-- The search of a bulk add. -/
structure SearchMatch where
  q : Str
  filters : List (Str × Str)
deriving DecidableEq, Repr

/-- What shelving calls and does not define. -/
structure ShelfSettings where
  /-- `_checked_description`: the HTML and its text. -/
  checkedDescription : Str → Option (Str × Str)
  /-- Whether the filters of a search pass `validate`. -/
  validates : SearchMatch → Bool
  /-- Whether a search lists an event. -/
  lists : SearchMatch → Uuid → Bool
  uuid : Nat → Uuid

/-- `MAX_CREATE_EVENTS`. -/
def maxCreateEvents : Nat := 500

/-- The `code` of a refusal. -/
inductive ShelfError where
  | notAuthorized
  | collectionNotFound
  | eventNotFound
  | eventNotCollectable
  | notCredited
  | invalidDescription
  | invalidFilters
  | tooManyEvents
  /-- `remove`. -/
  | geolocatorNotFound
  | ownerCannotLeave
  /-- A constraint the statement violates. -/
  | integrity
deriving DecidableEq, Repr

/-- The three writers. -/
inductive ShelfWriter where
  | addEvent
  | createCollection
  | addEvents
deriving DecidableEq, Repr

/-- The events a writer is asked to shelve. -/
inductive Selection where
  | ids (eventIds : List Uuid)
  | search (match' : SearchMatch) (excluded : List Uuid)
deriving DecidableEq, Repr

/-- A write in progress on one collection. -/
structure Shelf where
  writer : ShelfWriter
  collectionId : Uuid
  userId : Uuid
deriving DecidableEq, Repr

/-- What a request does next. -/
inductive ShelfProcess where
  | idle
  | raised (refusal : ShelfError)
  /-- `ensure_owned_live`. -/
  | open (shelf : Shelf) (selection : Selection)
  /-- The flush of a new collection. -/
  | flush (collectionId : Uuid) (collection : Collection) (eventIds : List Uuid)
  /-- The SELECT of the events its owner may shelve. -/
  | readEligibility (shelf : Shelf) (selection : Selection)
  /-- The INSERT, one row at a time, after so many removals were seen. -/
  | insertItems (shelf : Shelf) (seen : Nat) (eventIds : List Uuid)
  | commitItems
  /-- `remove` before `lock_event`. -/
  | remove (eventId actorId : Uuid) (username : Str)
  | endCredit (eventId actorId : Uuid) (username : Str)
  | dropItems (eventId targetId : Uuid)
  | dropRows (eventId targetId : Uuid) (matched : List (Uuid × Uuid))
  | commitRemoval (eventId targetId : Uuid)
deriving DecidableEq, Repr

/-- The request has returned or raised. -/
def ShelfProcess.ended : ShelfProcess → Bool
  | .idle | .raised _ => true
  | _ => false

structure ShelfState where
  now : Instant
  /-- How many ids have been drawn. -/
  idsDrawn : Nat
  users : List User
  events : List ShelvedEvent
  /-- The locks on `events` rows. -/
  locks : KeyLocks Nat Uuid
  /-- The `event_geolocators` rows, under their event and analyst. -/
  geolocators : Table Nat (Uuid × Uuid) EventGeolocator
  collections : Table Nat Uuid Collection
  items : Table Nat (Uuid × Uuid) CollectionEvent
  processes : Nat → ShelfProcess
  /-- The event and the analyst of each removal that has committed, newest first. -/
  removals : List (Uuid × Uuid)

inductive ShelfLabel where
  /-- An invitation or its answer, which ends no credit. -/
  | answer (eventId userId : Uuid) (row : EventGeolocator)
  | addEvent (process : Nat) (collectionId eventId userId : Uuid)
  | createCollection (process : Nat) (ownerId : Uuid) (title description : Str)
      (eventIds : List Uuid)
  | addEvents (process : Nat) (collectionId userId : Uuid) (selection : Selection)
  | remove (process : Nat) (eventId actorId : Uuid) (username : Str)
  | run (process : Nat)
  | fail (process : Nat)
deriving DecidableEq, Repr

/-- Why a step is not possible. -/
inductive ShelfBlocked where
  | busy
  | ended
  | rowLocked
  | endsCredit
deriving DecidableEq, Repr

namespace ShelfState

def event? (state : ShelfState) (eventId : Uuid) : Option ShelvedEvent :=
  state.events.find? fun event => event.id = eventId

/-- `credited_to`, as a transaction reads it: owned, or geolocated with them. -/
def creditedTo (state : ShelfState) (process : Nat) (userId : Uuid) (event : ShelvedEvent) :
    Bool :=
  event.ownerId = userId ||
    (state.geolocators.read process (event.id, userId)).any fun row => row.state = .active

def setProcess (state : ShelfState) (process : Nat) (next : ShelfProcess) : ShelfState :=
  { state with processes := Function.update state.processes process next }

/-- The transaction of a process ends without a trace. -/
def rollback (state : ShelfState) (process : Nat) (next : ShelfProcess) : ShelfState :=
  { state.setProcess process next with
    locks := state.locks.release process
    geolocators := state.geolocators.rollback process
    collections := state.collections.rollback process
    items := state.items.rollback process }

/-- The transaction of a process ends, and its rows stand. -/
def commit (state : ShelfState) (process : Nat) (next : ShelfProcess) : ShelfState :=
  { state.setProcess process next with
    locks := state.locks.release process
    geolocators := state.geolocators.commit process
    collections := state.collections.commit process
    items := state.items.commit process }

/-! ### Which events -/

/-- `_eligibility` of one id: whether it is credited, and collectable. -/
def eligibility (state : ShelfState) (process : Nat) (userId eventId : Uuid) :
    Option (Bool × Bool) :=
  (state.event? eventId).map fun event =>
    (state.creditedTo process userId event, event.collectable)

/-- `_known`: whether an event the user is credited on is collectable. -/
def known (state : ShelfState) (process : Nat) (userId eventId : Uuid) :
    Except ShelfError Bool :=
  match state.eligibility process userId eventId with
  | none => .error .eventNotFound
  | some (credited, collectable) => if credited then .ok collectable else .error .notCredited

/-- `ensure_collectable`. -/
def ensureCollectable (state : ShelfState) (process : Nat) (userId : Uuid) :
    List Uuid → Except ShelfError Unit
  | [] => .ok ()
  | eventId :: eventIds =>
    match state.known process userId eventId with
    | .error refusal => .error refusal
    | .ok false => .error .eventNotCollectable
    | .ok true => state.ensureCollectable process userId eventIds

/-- `split_collectable`, without the count. -/
def splitCollectable (state : ShelfState) (process : Nat) (userId : Uuid) :
    List Uuid → Except ShelfError (List Uuid)
  | [] => .ok []
  | eventId :: eventIds =>
    match state.known process userId eventId with
    | .error refusal => .error refusal
    | .ok collectable =>
      match state.splitCollectable process userId eventIds with
      | .error refusal => .error refusal
      | .ok rest => .ok (if collectable then eventId :: rest else rest)

/-- `collectable_matches`, less the excluded ids. -/
def collectableMatches (settings : ShelfSettings) (state : ShelfState) (process : Nat)
    (userId : Uuid) (match' : SearchMatch) (excluded : List Uuid) : List Uuid :=
  (state.events.map ShelvedEvent.id).filter fun eventId =>
    state.eligibility process userId eventId = some (true, true) &&
      settings.lists match' eventId && eventId ∉ excluded

/-- The ids a writer inserts. -/
def eligible (settings : ShelfSettings) (state : ShelfState) (process : Nat) (shelf : Shelf) :
    Selection → Except ShelfError (List Uuid)
  | .ids eventIds =>
    match shelf.writer with
    | .addEvent | .createCollection =>
      match state.ensureCollectable process shelf.userId eventIds with
      | .error refusal => .error refusal
      | .ok () => .ok eventIds
    | .addEvents =>
      if maxCreateEvents < eventIds.length then .error .tooManyEvents
      else state.splitCollectable process shelf.userId eventIds
  | .search match' excluded =>
    let eventIds := state.collectableMatches settings process shelf.userId match' excluded
    if ¬ settings.validates match' then .error .invalidFilters
    else if maxCreateEvents < excluded.length then .error .tooManyEvents
    else if maxCreateEvents < eventIds.length then .error .tooManyEvents
    else .ok eventIds

/-! ### Shelving -/

/-- `ensure_owned_live` on the collection the request loads. -/
def openShelf (state : ShelfState) (process : Nat) (shelf : Shelf) (selection : Selection) :
    ShelfState :=
  match state.collections.read process shelf.collectionId with
  | none => state.rollback process (.raised .collectionNotFound)
  | some collection =>
    if collection.ownerId ≠ shelf.userId then state.rollback process (.raised .notAuthorized)
    else if collection.deletedAt ≠ none then
      state.rollback process (.raised .collectionNotFound)
    else state.setProcess process (.readEligibility shelf selection)

/-- The flush of `create_collection`. -/
def flush (state : ShelfState) (process : Nat) (collectionId : Uuid) (collection : Collection)
    (eventIds : List Uuid) : Except ShelfBlocked ShelfState :=
  if ¬ state.collections.Free process collectionId then .error .rowLocked
  else if state.collections.read process collectionId ≠ none then
    .ok (state.rollback process (.raised .integrity))
  else
    .ok { state.setProcess process (.readEligibility
            ⟨.createCollection, collectionId, collection.ownerId⟩ (.ids eventIds)) with
          collections := state.collections.write process collectionId (some collection) }

/-- The refusals of a writer, and the ids it will insert. -/
def readEligibility (settings : ShelfSettings) (state : ShelfState) (process : Nat)
    (shelf : Shelf) (selection : Selection) : ShelfState :=
  match state.eligible settings process shelf selection with
  | .error refusal => state.rollback process (.raised refusal)
  | .ok eventIds =>
    state.setProcess process (.insertItems shelf state.removals.length eventIds)

/-- An item that is there already: `add_event` returns, `add_events` skips it. -/
def itemExists (state : ShelfState) (process : Nat) (shelf : Shelf) (seen : Nat)
    (eventIds : List Uuid) : ShelfState :=
  match shelf.writer with
  | .addEvent => state.rollback process .idle
  | .createCollection => state.rollback process (.raised .integrity)
  | .addEvents => state.setProcess process (.insertItems shelf seen eventIds)

/-- The INSERT of one item, whose foreign key shares the event's row. -/
def insertItem (state : ShelfState) (process : Nat) (shelf : Shelf) (seen : Nat)
    (eventId : Uuid) (eventIds : List Uuid) : Except ShelfBlocked ShelfState :=
  if ¬ state.items.Free process (shelf.collectionId, eventId) then .error .rowLocked
  else if state.items.read process (shelf.collectionId, eventId) ≠ none then
    .ok (state.itemExists process shelf seen eventIds)
  else if state.event? eventId = none ∨
      state.collections.read process shelf.collectionId = none then
    -- the foreign keys
    .ok (state.rollback process (.raised .integrity))
  else
    match state.locks.share? process eventId with
    | none => .error .rowLocked
    | some locks =>
      .ok { state.setProcess process (.insertItems shelf seen eventIds) with
            locks := locks
            items := state.items.write process (shelf.collectionId, eventId)
              (some ⟨state.now⟩) }

/-! ### Removing a credit -/

/-- `lock_event`. -/
def lockEvent (state : ShelfState) (process : Nat) (eventId actorId : Uuid) (username : Str) :
    Except ShelfBlocked ShelfState :=
  if state.event? eventId = none then .ok (state.rollback process (.raised .eventNotFound))
  else
    match state.locks.lock? process eventId with
    | none => .error .rowLocked
    | some locks =>
      .ok { state.setProcess process (.endCredit eventId actorId username) with locks := locks }

/-- The checks of `remove`, and the UPDATE of the credit. -/
def endCredit (state : ShelfState) (process : Nat) (eventId actorId : Uuid) (username : Str) :
    Except ShelfBlocked ShelfState :=
  match state.event? eventId with
  | none => .ok (state.rollback process (.raised .eventNotFound))
  | some event =>
    match state.users.find? fun user => user.username = username with
    | none => .ok (state.rollback process (.raised .geolocatorNotFound))
    | some target =>
      match state.geolocators.read process (eventId, target.id) with
      | none => .ok (state.rollback process (.raised .geolocatorNotFound))
      | some credit =>
        if credit.state ≠ .active then
          .ok (state.rollback process (.raised .geolocatorNotFound))
        else if target.id = event.ownerId then
          .ok (state.rollback process (.raised .ownerCannotLeave))
        else if target.id ≠ actorId ∧ event.ownerId ≠ actorId then
          .ok (state.rollback process (.raised .notAuthorized))
        else if ¬ state.geolocators.Free process (eventId, target.id) then .error .rowLocked
        else
          .ok { state.setProcess process (.dropItems eventId target.id) with
                geolocators := state.geolocators.write process (eventId, target.id)
                  (some { credit with
                    state := .departed
                    departedAt := some (credit.departedAt.getD state.now) }) }

/-- The items of an event on the collections of one owner. -/
def itemsOf (state : ShelfState) (process : Nat) (eventId ownerId : Uuid) :
    List (Uuid × Uuid) :=
  state.items.select process fun key _ => key.2 = eventId &&
    (state.collections.read process key.1).any fun collection => collection.ownerId = ownerId

/-- The DELETE of the items, once every row it found is free. -/
def dropRows (state : ShelfState) (process : Nat) (eventId targetId : Uuid)
    (matched : List (Uuid × Uuid)) : Except ShelfBlocked ShelfState :=
  if ∀ key ∈ matched, state.items.Free process key then
    .ok { state.setProcess process (.commitRemoval eventId targetId) with
          items := state.items.writeAll process matched fun _ _ => none }
  else .error .rowLocked

def commitRemoval (state : ShelfState) (process : Nat) (eventId targetId : Uuid) : ShelfState :=
  { state.commit process .idle with removals := (eventId, targetId) :: state.removals }

/-! ### The system -/

/-- The next statement of one process. -/
def runProcess (settings : ShelfSettings) (state : ShelfState) (process : Nat) :
    Except ShelfBlocked ShelfState :=
  match state.processes process with
  | .idle | .raised _ => .error .ended
  | .open shelf selection => .ok (state.openShelf process shelf selection)
  | .flush collectionId collection eventIds =>
    state.flush process collectionId collection eventIds
  | .readEligibility shelf selection =>
    .ok (state.readEligibility settings process shelf selection)
  | .insertItems _ _ [] => .ok (state.setProcess process .commitItems)
  | .insertItems shelf seen (eventId :: eventIds) =>
    state.insertItem process shelf seen eventId eventIds
  | .commitItems => .ok (state.commit process .idle)
  | .remove eventId actorId username => state.lockEvent process eventId actorId username
  | .endCredit eventId actorId username => state.endCredit process eventId actorId username
  | .dropItems eventId targetId =>
    .ok (state.setProcess process (.dropRows eventId targetId
      (state.itemsOf process eventId targetId)))
  | .dropRows eventId targetId matched => state.dropRows process eventId targetId matched
  | .commitRemoval eventId targetId => .ok (state.commitRemoval process eventId targetId)

/-- A request arrives. -/
def start (state : ShelfState) (process : Nat) (next : ShelfProcess) :
    Except ShelfBlocked ShelfState :=
  if (state.processes process).ended then .ok (state.setProcess process next) else .error .busy

/-- `create_collection` up to its flush. -/
def create (settings : ShelfSettings) (state : ShelfState) (process : Nat) (ownerId : Uuid)
    (title description : Str) (eventIds : List Uuid) : Except ShelfBlocked ShelfState :=
  match settings.checkedDescription description with
  | none => state.start process (.raised .invalidDescription)
  | some (html, text) =>
    ({ state with idsDrawn := state.idsDrawn + 1 } : ShelfState).start process
      (.flush (settings.uuid state.idsDrawn) ⟨ownerId, title, html, text, none⟩ eventIds)

/-- An invitation or its answer by another path, under the event's lock. -/
def answer (state : ShelfState) (eventId userId : Uuid) (row : EventGeolocator) :
    Except ShelfBlocked ShelfState :=
  if state.locks.exclusive eventId ≠ none ∨ (∃ share ∈ state.locks.shares, share.2 = eventId) ∨
      state.geolocators.holder (eventId, userId) ≠ none then .error .rowLocked
  else if (state.geolocators.committed (eventId, userId)).any (fun old => old.state = .active) ∧
      row.state ≠ .active then .error .endsCredit
  else
    .ok { state with geolocators := state.geolocators.put (eventId, userId) (some row) }

/-- One step: a request arrives, a process runs or fails its next statement, or another
path answers an invitation. -/
def step (settings : ShelfSettings) (label : ShelfLabel) (state : ShelfState) :
    Except ShelfBlocked ShelfState :=
  match label with
  | .answer eventId userId row => state.answer eventId userId row
  | .addEvent process collectionId eventId userId =>
    state.start process (.open ⟨.addEvent, collectionId, userId⟩ (.ids [eventId]))
  | .createCollection process ownerId title description eventIds =>
    state.create settings process ownerId title description eventIds
  | .addEvents process collectionId userId selection =>
    state.start process (.open ⟨.addEvents, collectionId, userId⟩ selection)
  | .remove process eventId actorId username =>
    state.start process (.remove eventId actorId username)
  | .run process => state.runProcess settings process
  | .fail process => .ok (state.rollback process .idle)

/-- The user is credited on the event, in the committed rows. -/
def Credited (state : ShelfState) (userId eventId : Uuid) : Prop :=
  ∃ event, state.event? eventId = some event ∧ (event.ownerId = userId ∨
    ∃ row, state.geolocators.committed (eventId, userId) = some row ∧ row.state = .active)

/-- Every item is of an event its collection's owner is credited on. -/
def HoldsCredited (state : ShelfState) : Prop :=
  ∀ collectionId eventId, (state.items.committed (collectionId, eventId)).isSome →
    ∃ collection, state.collections.committed collectionId = some collection ∧
      state.Credited collection.ownerId eventId

/-- Nothing runs, and every item is credited. -/
structure Initial (state : ShelfState) : Prop where
  ended : ∀ process, (state.processes process).ended = true
  locks : (∀ eventId, state.locks.exclusive eventId = none) ∧ state.locks.shares = []
  geolocators : ∀ key, state.geolocators.holder key = none
  collections : ∀ key, state.collections.holder key = none
  items : ∀ key, state.items.holder key = none
  keys : ∀ key, (state.items.committed key).isSome → key ∈ state.items.keys
  credited : state.HoldsCredited

end ShelfState

/-- Every interleaving of the writers and the removals. -/
def shelfSystem (settings : ShelfSettings) : System ShelfState ShelfLabel :=
  System.ofStep ShelfState.Initial (ShelfState.step settings)

end Vidit.Collections
