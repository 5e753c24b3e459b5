import Vidit.Library.Keyset
import Vidit.Library.Transition
import Vidit.Python.Uuid

/-!
Contract: a list a page reads cursor by cursor, while its query changes.

Owns:
- `useCursorList`: the walks it starts, the requests it has in flight, and what each answer does
  to the rows it shows;
- the system of its events, in any order: another query, a reload, a click on *load more*, the
  answer of a request;
- that the rows are those of one walk of the current query, page after page.

Does not own: `apiFetchPage`, and what the server answers. A caller's query builder is given by
its first path. React renders between two events, so a handler sees the last state.

Proof shape: one invariant, `Sound`, kept by every event. What happens to a request depends on
whether it was aborted, so the invariant speaks of the requests that were not.
-/

namespace Vidit.Pagination

open Vidit.Python Vidit.Library

variable {Row : Type}

/-- What the hook is rendered with: `buildPath(null)`, and the body of a `POST`. -/
structure ListQuery where
  firstPath : Option Str
  body : Option Str
deriving DecidableEq, Repr

/-- `PagedResult`. -/
structure PagedResult (Row : Type) where
  items : List Row
  cursor : Option Str
  error : Option Str
  generation : Int

/-- A request in flight, with the controller that aborts it. -/
structure PageRequest where
  controller : Nat
  path : Str
  body : Option Str
  generation : Nat
  aborted : Bool
deriving DecidableEq, Repr

/-- A page that landed, and what it was asked with. -/
structure LandedPage (Row : Type) where
  path : Str
  body : Option Str
  generation : Nat
  page : Page Row Str

/-- The state of the hook. `landed` records the pages that reached it. -/
structure CursorList (Row : Type) where
  query : ListQuery
  result : PagedResult Row
  loadingMore : Bool
  reloadToken : Nat
  walkKey : Str
  generation : Nat
  /-- The controller of the first-page effect, while it has one. -/
  firstRequest : Option Nat
  moreRequest : Option Nat
  nextController : Nat
  firsts : List PageRequest
  mores : List PageRequest
  landed : List (LandedPage Row)

/-- What happens to a list. -/
inductive ListEvent (Row : Type) where
  | render (query : ListQuery)
  | reload
  | loadMore
  | firstSettles (controller : Nat) (answer : Except Str (Page Row Str))
  | moreSettles (controller : Nat) (answer : Except Str (Page Row Str))

/-- `${reloadToken}:${firstPath}:${body ?? ""}`. -/
def walkKeyOf (reloadToken : Nat) (query : ListQuery) : Str :=
  natText reloadToken ++ str ":" ++ query.firstPath.getD (str "null") ++ str ":" ++
    query.body.getD []

def PageRequest.abort (controller : Option Nat) (request : PageRequest) : PageRequest :=
  if controller = some request.controller then { request with aborted := true } else request

namespace CursorList

section Hook

variable (withCursor : Str → Str → Str)

/-- `buildPath`. -/
def buildPath (query : ListQuery) : Option Str → Option Str
  | none => query.firstPath
  | some cursor => query.firstPath.map fun path => withCursor path cursor

/-- The result, when it answers the current walk. -/
def fresh? (list : CursorList Row) : Option (PagedResult Row) :=
  if list.result.generation = list.generation then some list.result else none

def cursor (list : CursorList Row) : Option Str :=
  list.fresh?.bind PagedResult.cursor

def items (list : CursorList Row) : List Row :=
  (list.fresh?.map PagedResult.items).getD []

def loading (list : CursorList Row) : Bool :=
  list.query.firstPath.isSome && list.fresh?.isNone

def hasMore (list : CursorList Row) : Bool :=
  list.cursor.isSome

/-- The cleanup of the first-page effect. -/
def cleanup (list : CursorList Row) : CursorList Row :=
  if list.firstRequest.isSome then
    { list with
      firsts := list.firsts.map (PageRequest.abort list.firstRequest)
      mores := list.mores.map (PageRequest.abort list.moreRequest)
      firstRequest := none
      moreRequest := none }
  else list

/-- The first-page effect. -/
def startWalk (list : CursorList Row) : CursorList Row :=
  match list.query.firstPath with
  | none => list
  | some path =>
    { list with
      firstRequest := some list.nextController
      nextController := list.nextController + 1
      firsts := list.firsts ++
        [⟨list.nextController, path, list.query.body, list.generation, false⟩] }

/-- A render: another walk key is another generation, and another path, generation or body runs
the first-page effect again. -/
def render (list : CursorList Row) (reloadToken : Nat) (query : ListQuery) : CursorList Row :=
  let key := walkKeyOf reloadToken query
  let generation := if key = list.walkKey then list.generation else list.generation + 1
  let rendered := { list with reloadToken, query, walkKey := key, generation }
  if query.firstPath = list.query.firstPath ∧ query.body = list.query.body ∧
      generation = list.generation then rendered
  else ({ list.cleanup with reloadToken, query, walkKey := key, generation }).startWalk

/-- The hook once it is mounted. -/
def mount (query : ListQuery) : CursorList Row :=
  startWalk
    { query
      result := ⟨[], none, none, -1⟩
      loadingMore := false
      reloadToken := 0
      walkKey := walkKeyOf 0 query
      generation := 0
      firstRequest := none
      moreRequest := none
      nextController := 0
      firsts := []
      mores := []
      landed := [] }

/-- `loadMore`. -/
def loadMore (list : CursorList Row) : CursorList Row :=
  match list.cursor.bind fun cursor => buildPath withCursor list.query (some cursor) with
  | none => list
  | some path =>
    if list.loadingMore then list
    else
      { list with
        moreRequest := some list.nextController
        nextController := list.nextController + 1
        loadingMore := true
        mores := list.mores ++
          [⟨list.nextController, path, list.query.body, list.generation, false⟩] }

/-- The page of a request reaches the hook. -/
def land (list : CursorList Row) (request : PageRequest) (page : Page Row Str) :
    CursorList Row :=
  { list with landed := list.landed ++
      [⟨request.path, request.body, request.generation, page⟩] }

/-- The first-page request settles. -/
def settleFirst (list : CursorList Row) (request : PageRequest)
    (answer : Except Str (Page Row Str)) : CursorList Row :=
  if request.aborted then list
  else
    match answer with
    | .ok page =>
      { list.land request page with
        result := ⟨page.rows, page.next, none, request.generation⟩ }
    | .error error => { list with result := ⟨[], none, some error, request.generation⟩ }

/-- The request of a `loadMore` settles, up to its `finally`. -/
def settleMore (list : CursorList Row) (request : PageRequest)
    (answer : Except Str (Page Row Str)) : CursorList Row :=
  if request.aborted ∨ list.result.generation ≠ request.generation then list
  else
    match answer with
    | .ok page =>
      { list.land request page with
        result := { list.result with
          items := list.result.items ++ page.rows, cursor := page.next, error := none } }
    | .error error => { list with result := { list.result with error := some error } }

/-- `finally`. -/
def finishMore (list : CursorList Row) (controller : Nat) : CursorList Row :=
  { list with
    moreRequest := if list.moreRequest = some controller then none else list.moreRequest
    loadingMore := false }

/-- One event; a request settles once. -/
def step (event : ListEvent Row) (list : CursorList Row) : Except Unit (CursorList Row) :=
  match event with
  | .render query => .ok (list.render list.reloadToken query)
  | .reload => .ok (list.render (list.reloadToken + 1) list.query)
  | .loadMore => .ok (list.loadMore withCursor)
  | .firstSettles controller answer =>
    match list.firsts.find? fun request => request.controller = controller with
    | none => .error ()
    | some request =>
      .ok (settleFirst { list with firsts := list.firsts.erase request } request answer)
  | .moreSettles controller answer =>
    match list.mores.find? fun request => request.controller = controller with
    | none => .error ()
    | some request =>
      .ok ((settleMore { list with mores := list.mores.erase request } request
        answer).finishMore controller)

/-- A list through its events. -/
def system : System (CursorList Row) (ListEvent Row) :=
  System.ofStep (fun list => ∃ query, list = mount query) (step withCursor)

/-- Another query makes another walk key. -/
def Apart (list : CursorList Row) : ListEvent Row → Prop
  | .render query =>
    walkKeyOf list.reloadToken query = walkKeyOf list.reloadToken list.query → query = list.query
  | _ => True

/-! ### Walks -/

/-- The pages are those of a walk of the query from a cursor on, each asked with the cursor of
the page before it, the last of them leaving `next`. -/
def IsWalk (query : ListQuery) (generation : Nat) :
    Option Str → List (LandedPage Row) → Option Str → Prop
  | _, [], _ => False
  | cursor, [last], next =>
    buildPath withCursor query cursor = some last.path ∧ last.body = query.body ∧
      last.generation = generation ∧ last.page.next = next
  | cursor, landed :: rest, next =>
    (buildPath withCursor query cursor = some landed.path ∧ landed.body = query.body ∧
      landed.generation = generation) ∧
      ∃ later, landed.page.next = some later ∧ IsWalk query generation (some later) rest next

/-- What a list shows and what it waits for. -/
structure ShowsWalk (list : CursorList Row) : Prop where
  /-- The rows shown are those of the pages of one walk of the current query, in order, all of
  them landed in this walk. -/
  rows : list.fresh?.isSome → list.items = [] ∧ list.cursor = none ∨
    ∃ pages, pages <:+ list.landed ∧ IsWalk withCursor list.query list.generation none pages
      list.cursor ∧ list.items = pages.flatMap fun landed => landed.page.rows
  /-- While it loads, the first page of the current walk is on its way. -/
  waits : list.loading = true → ∃ request ∈ list.firsts, request.aborted = false ∧
    list.query.firstPath = some request.path ∧ request.body = list.query.body ∧
      request.generation = list.generation
  /-- One *load more* is in flight while it says so, and none otherwise. -/
  single : list.mores.length = if list.loadingMore then 1 else 0

/-! ### The invariant -/

/-- A first-page request that was not aborted is that of the current walk, which waits for it. -/
structure FirstOf (list : CursorList Row) (request : PageRequest) : Prop where
  current : list.firstRequest = some request.controller
  path : list.query.firstPath = some request.path
  body : request.body = list.query.body
  generation : request.generation = list.generation
  waiting : list.result.generation ≠ list.generation

/-- A *load more* that was not aborted asks for the page after the rows shown. -/
structure MoreOf (list : CursorList Row) (request : PageRequest) : Prop where
  current : list.moreRequest = some request.controller
  shown : list.result.generation = list.generation
  generation : request.generation = list.generation
  body : request.body = list.query.body
  asked : ∃ cursor, list.result.cursor = some cursor ∧
    buildPath withCursor list.query (some cursor) = some request.path

/-- What holds between two events. -/
structure Sound (list : CursorList Row) : Prop where
  shows : ShowsWalk withCursor list
  key : list.walkKey = walkKeyOf list.reloadToken list.query
  past : list.result.generation ≤ list.generation
  effect : list.firstRequest.isSome = list.query.firstPath.isSome
  firsts : ∀ request ∈ list.firsts, request.aborted = false → FirstOf list request
  mores : ∀ request ∈ list.mores, request.aborted = false → MoreOf withCursor list request
  numbered : ∀ request ∈ list.firsts, request.controller < list.nextController
  distinct : (list.firsts.map PageRequest.controller).Nodup

section Fresh

variable {list : CursorList Row}

theorem fresh?_of_eq (shown : list.result.generation = list.generation) :
    list.fresh? = some list.result :=
  if_pos shown

theorem fresh?_of_ne (waiting : list.result.generation ≠ list.generation) :
    list.fresh? = none :=
  if_neg waiting

theorem fresh?_isSome_iff :
    list.fresh?.isSome = true ↔ list.result.generation = list.generation := by
  unfold fresh?
  split <;> simp_all

end Fresh

/-! ### Another walk -/

section Rendering

variable {withCursor : Str → Str → Str} {list : CursorList Row}

/-- Without a path nothing is asked for. -/
theorem Sound.path_of_unaborted (sound : list.Sound withCursor) {request : PageRequest}
    (alive : request.aborted = false) (member : request ∈ list.firsts ∨ request ∈ list.mores) :
    list.query.firstPath.isSome = true := by
  rcases member with inFirsts | inMores
  · rw [(sound.firsts request inFirsts alive).path]
    rfl
  · obtain ⟨cursor, _, asked⟩ := (sound.mores request inMores alive).asked
    unfold buildPath at asked
    rw [Option.map_eq_some_iff] at asked
    obtain ⟨path, read, _⟩ := asked
    rw [read]
    rfl

theorem abort_aborted {controller : Option Nat} {request : PageRequest}
    (held : request.aborted = false → controller = some request.controller) :
    (request.abort controller).aborted = true := by
  unfold PageRequest.abort
  by_cases alive : request.aborted = false
  · rw [if_pos (held alive)]
  · split
    · rfl
    · simpa using alive

theorem abort_controller (controller : Option Nat) (request : PageRequest) :
    (request.abort controller).controller = request.controller := by
  unfold PageRequest.abort
  split
  · rfl
  · rfl

/-- The cleanup aborts every request. -/
theorem Sound.aborted_cleanup (sound : list.Sound withCursor) :
    (∀ request ∈ list.cleanup.firsts, request.aborted = true) ∧
      ∀ request ∈ list.cleanup.mores, request.aborted = true := by
  unfold cleanup
  by_cases effect : list.firstRequest.isSome = true
  · rw [if_pos effect]
    constructor
    · intro request member
      obtain ⟨before, inFirsts, rfl⟩ := List.mem_map.mp member
      exact abort_aborted fun alive => (sound.firsts before inFirsts alive).current
    · intro request member
      obtain ⟨before, inMores, rfl⟩ := List.mem_map.mp member
      exact abort_aborted fun alive => (sound.mores before inMores alive).current
  · rw [if_neg effect]
    have pathless : list.query.firstPath.isSome ≠ true := by
      rw [← sound.effect]
      exact effect
    constructor
    · intro request member
      by_contra alive
      exact pathless (sound.path_of_unaborted (by simpa using alive) (.inl member))
    · intro request member
      by_contra alive
      exact pathless (sound.path_of_unaborted (by simpa using alive) (.inr member))

theorem controllers_cleanup (list : CursorList Row) :
    list.cleanup.firsts.map PageRequest.controller = list.firsts.map PageRequest.controller := by
  unfold cleanup
  split
  · rw [List.map_map]
    exact List.map_congr_left fun request _ => abort_controller list.firstRequest request
  · rfl

theorem length_mores_cleanup (list : CursorList Row) :
    list.cleanup.mores.length = list.mores.length := by
  unfold cleanup
  split
  · exact List.length_map _
  · rfl

/-- What a cleanup leaves alone. -/
theorem cleanup_fields (list : CursorList Row) :
    list.cleanup.result = list.result ∧ list.cleanup.loadingMore = list.loadingMore ∧
      list.cleanup.nextController = list.nextController ∧
      list.cleanup.landed = list.landed := by
  unfold cleanup
  split
  · exact ⟨rfl, rfl, rfl, rfl⟩
  · exact ⟨rfl, rfl, rfl, rfl⟩

/-- A list whose requests are all aborted, at a generation nothing answered. -/
structure Cleaned (list : CursorList Row) : Prop where
  key : list.walkKey = walkKeyOf list.reloadToken list.query
  past : list.result.generation < list.generation
  firsts : ∀ request ∈ list.firsts, request.aborted = true
  mores : ∀ request ∈ list.mores, request.aborted = true
  single : list.mores.length = if list.loadingMore then 1 else 0
  numbered : ∀ request ∈ list.firsts, request.controller < list.nextController
  distinct : (list.firsts.map PageRequest.controller).Nodup
  effect : list.firstRequest = none

theorem Cleaned.fresh? (cleaned : list.Cleaned) : list.fresh? = none :=
  fresh?_of_ne (Int.ne_of_lt cleaned.past)

/-- The first-page effect of a cleaned list. -/
theorem Cleaned.startWalk (cleaned : list.Cleaned) : list.startWalk.Sound withCursor := by
  have waiting := Int.ne_of_lt cleaned.past
  unfold CursorList.startWalk
  cases path : list.query.firstPath with
  | none =>
      refine ⟨⟨?_, ?_, cleaned.single⟩, cleaned.key, Int.le_of_lt cleaned.past, ?_, ?_, ?_,
        cleaned.numbered, cleaned.distinct⟩
      · intro fresh
        rw [cleaned.fresh?] at fresh
        cases fresh
      · intro loading
        unfold CursorList.loading at loading
        rw [path] at loading
        cases loading
      · rw [cleaned.effect, path]
        rfl
      · intro request member alive
        rw [cleaned.firsts request member] at alive
        cases alive
      · intro request member alive
        rw [cleaned.mores request member] at alive
        cases alive
  | some path' =>
      refine ⟨⟨?_, ?_, cleaned.single⟩, cleaned.key, Int.le_of_lt cleaned.past, ?_, ?_, ?_, ?_, ?_⟩
      · intro fresh
        exact absurd (fresh?_isSome_iff.mp fresh) waiting
      · intro _
        exact ⟨_, List.mem_append_right _ List.mem_cons_self, rfl, path, rfl, rfl⟩
      · show true = list.query.firstPath.isSome
        rw [path]
        rfl
      · intro request member alive
        rcases List.mem_append.mp member with before | new
        · rw [cleaned.firsts request before] at alive
          cases alive
        · rw [List.mem_singleton.mp new]
          exact ⟨rfl, path, rfl, rfl, waiting⟩
      · intro request member alive
        rw [cleaned.mores request member] at alive
        cases alive
      · intro request member
        rcases List.mem_append.mp member with before | new
        · exact Nat.lt_succ_of_lt (cleaned.numbered request before)
        · rw [List.mem_singleton.mp new]
          exact Nat.lt_succ_self _
      · show ((list.firsts ++ [_]).map PageRequest.controller).Nodup
        rw [List.map_append, List.nodup_append]
        refine ⟨cleaned.distinct, List.nodup_singleton _, ?_⟩
        intro used member new isNew same
        obtain ⟨request, inFirsts, rfl⟩ := List.mem_map.mp member
        have older := cleaned.numbered request inFirsts
        have number := List.mem_singleton.mp isNew
        simp only at number
        omega

theorem sound_mount (query : ListQuery) : (mount query : CursorList Row).Sound withCursor := by
  apply Cleaned.startWalk
  exact ⟨rfl, Int.negSucc_lt_zero 0, by simp, by simp, rfl, by simp, List.nodup_nil, rfl⟩

/-- A render with another key starts another walk; with the same one it leaves the list alone. -/
theorem Sound.render (sound : list.Sound withCursor) (reloadToken : Nat) (query : ListQuery)
    (apart : walkKeyOf reloadToken query = list.walkKey → query = list.query) :
    (list.render reloadToken query).Sound withCursor := by
  unfold CursorList.render
  by_cases kept : walkKeyOf reloadToken query = list.walkKey
  · have same := apart kept
    subst same
    simp only [if_pos kept, and_self, if_true]
    exact ⟨⟨sound.shows.rows, sound.shows.waits, sound.shows.single⟩, rfl, sound.past,
      sound.effect, fun request member alive =>
        let own := sound.firsts request member alive
        ⟨own.current, own.path, own.body, own.generation, own.waiting⟩,
      fun request member alive =>
        let own := sound.mores request member alive
        ⟨own.current, own.shown, own.generation, own.body, own.asked⟩,
      sound.numbered, sound.distinct⟩
  · have later : ¬ (query.firstPath = list.query.firstPath ∧ query.body = list.query.body ∧
        list.generation + 1 = list.generation) := by
      rintro ⟨_, _, same⟩
      omega
    simp only [if_neg kept, if_neg later]
    obtain ⟨result, loadingMore, nextController, _⟩ := cleanup_fields list
    have aborted := sound.aborted_cleanup
    apply Cleaned.startWalk
    refine ⟨rfl, ?_, aborted.1, aborted.2, ?_, ?_, ?_, ?_⟩
    · show list.cleanup.result.generation < ((list.generation + 1 : Nat) : Int)
      rw [result]
      have past := sound.past
      omega
    · show list.cleanup.mores.length = if list.cleanup.loadingMore then 1 else 0
      rw [length_mores_cleanup, loadingMore]
      exact sound.shows.single
    · intro request member
      show request.controller < list.cleanup.nextController
      rw [nextController]
      have named : request.controller ∈ list.firsts.map PageRequest.controller := by
        rw [← controllers_cleanup]
        exact List.mem_map_of_mem member
      obtain ⟨before, inFirsts, same⟩ := List.mem_map.mp named
      rw [← same]
      exact sound.numbered before inFirsts
    · show (list.cleanup.firsts.map PageRequest.controller).Nodup
      rw [controllers_cleanup]
      exact sound.distinct
    · show list.cleanup.firstRequest = none
      unfold cleanup
      split
      · rfl
      · next effect => simpa using effect

end Rendering

/-! ### Answers -/

section Answers

variable {withCursor : Str → Str → Str} {list : CursorList Row} {request : PageRequest}

/-- The walk goes on with the page its last cursor asks for. -/
theorem IsWalk.concat {query : ListQuery} {generation : Nat} {cursor : Option Str}
    {pages : List (LandedPage Row)} {next : Str} {landed : LandedPage Row}
    (walk : IsWalk withCursor query generation cursor pages (some next))
    (asked : buildPath withCursor query (some next) = some landed.path)
    (body : landed.body = query.body) (own : landed.generation = generation) :
    IsWalk withCursor query generation cursor (pages ++ [landed]) landed.page.next := by
  induction pages generalizing cursor with
  | nil => cases walk
  | cons first rest inductionHypothesis =>
      cases rest with
      | nil =>
          obtain ⟨path, sameBody, sameGeneration, leaves⟩ := walk
          exact ⟨⟨path, sameBody, sameGeneration⟩, next, leaves, asked, body, own, rfl⟩
      | cons second rest =>
          obtain ⟨asks, later, leaves, walkLater⟩ := walk
          exact ⟨asks, later, leaves, inductionHypothesis walkLater⟩

/-- The list without a first-page request that settled. -/
def withoutFirst (list : CursorList Row) (request : PageRequest) : CursorList Row :=
  { list with firsts := list.firsts.erase request }

/-- The list without a *load more* that settled. -/
def withoutMore (list : CursorList Row) (request : PageRequest) : CursorList Row :=
  { list with mores := list.mores.erase request }

theorem Sound.nodup_firsts (sound : list.Sound withCursor) : list.firsts.Nodup :=
  List.Nodup.of_map _ sound.distinct

/-- An aborted request leaves the list as it was. -/
theorem Sound.drop_aborted (sound : list.Sound withCursor) (aborted : request.aborted = true) :
    (list.withoutFirst request).Sound withCursor where
  shows := by
    refine ⟨sound.shows.rows, ?_, sound.shows.single⟩
    intro loading
    obtain ⟨waited, member, alive, own⟩ := sound.shows.waits loading
    have different : waited ≠ request := by
      intro same
      rw [same, aborted] at alive
      cases alive
    exact ⟨waited, (List.mem_erase_of_ne different).mpr member, alive, own⟩
  key := sound.key
  past := sound.past
  effect := sound.effect
  firsts := by
    intro other member alive
    have own := sound.firsts other (List.mem_of_mem_erase member) alive
    exact ⟨own.current, own.path, own.body, own.generation, own.waiting⟩
  mores := by
    intro other member alive
    have own := sound.mores other member alive
    exact ⟨own.current, own.shown, own.generation, own.body, own.asked⟩
  numbered := fun other member => sound.numbered other (List.mem_of_mem_erase member)
  distinct := sound.distinct.sublist (List.erase_sublist.map _)

/-- The answer to the current first page leaves no request that was not aborted. -/
theorem Sound.answered_first (sound : list.Sound withCursor) (member : request ∈ list.firsts)
    (alive : request.aborted = false) :
    (∀ other ∈ list.firsts.erase request, other.aborted = true) ∧
      ∀ other ∈ list.mores, other.aborted = true := by
  have own := sound.firsts request member alive
  constructor
  · intro other inErased
    by_contra unaborted
    have otherOwn := sound.firsts other (List.mem_of_mem_erase inErased) (by simpa using unaborted)
    have same : other = request := by
      apply List.inj_on_of_nodup_map sound.distinct (List.mem_of_mem_erase inErased) member
      exact Option.some.inj (otherOwn.current.symm.trans own.current)
    rw [same] at inErased
    exact sound.nodup_firsts.not_mem_erase inErased
  · intro other inMores
    by_contra unaborted
    exact own.waiting (sound.mores other inMores (by simpa using unaborted)).shown

/-- A result for the current walk, once its first page was answered. -/
theorem Sound.answer_first (sound : list.Sound withCursor) (member : request ∈ list.firsts)
    (alive : request.aborted = false) (result : PagedResult Row) (landed : List (LandedPage Row))
    (current : result.generation = list.generation)
    (rows : result.items = [] ∧ result.cursor = none ∨
      ∃ pages, pages <:+ landed ∧ IsWalk withCursor list.query list.generation none pages
        result.cursor ∧ result.items = pages.flatMap fun landed => landed.page.rows) :
    ({ list.withoutFirst request with result, landed }).Sound withCursor := by
  obtain ⟨firstsAborted, moresAborted⟩ := sound.answered_first member alive
  have fresh : CursorList.fresh? { list.withoutFirst request with result, landed } = some result :=
    fresh?_of_eq current
  refine ⟨⟨?_, ?_, sound.shows.single⟩, sound.key, le_of_eq current, sound.effect, ?_, ?_,
    fun other inErased => sound.numbered other (List.mem_of_mem_erase inErased),
    sound.distinct.sublist (List.erase_sublist.map _)⟩
  · intro _
    unfold items cursor
    rw [fresh]
    exact rows
  · intro loading
    unfold CursorList.loading at loading
    rw [fresh] at loading
    simp at loading
  · intro other inErased unaborted
    rw [firstsAborted other inErased] at unaborted
    cases unaborted
  · intro other inMores unaborted
    rw [moresAborted other inMores] at unaborted
    cases unaborted

theorem Sound.settleFirst (sound : list.Sound withCursor) (member : request ∈ list.firsts)
    (answer : Except Str (Page Row Str)) :
    ((list.withoutFirst request).settleFirst request answer).Sound withCursor := by
  unfold CursorList.settleFirst
  by_cases aborted : request.aborted = true
  · rw [if_pos aborted]
    exact sound.drop_aborted aborted
  · have alive : request.aborted = false := by simpa using aborted
    have own := sound.firsts request member alive
    have current : ((request.generation : Nat) : Int) = list.generation := by
      rw [own.generation]
    rw [if_neg aborted]
    cases answer with
    | error error =>
        exact sound.answer_first member alive ⟨[], none, some error, request.generation⟩ _ current
          (.inl ⟨rfl, rfl⟩)
    | ok page =>
        refine sound.answer_first member alive ⟨page.rows, page.next, none, request.generation⟩ _
          current (.inr ⟨[⟨request.path, request.body, request.generation, page⟩], ?_, ?_, ?_⟩)
        · exact List.suffix_append _ _
        · exact ⟨own.path, own.body, own.generation, rfl⟩
        · simp

/-- What a *load more* that settles leaves, before its `finally`. -/
theorem Sound.finishMore (sound : list.Sound withCursor) (member : request ∈ list.mores)
    (result : PagedResult Row) (landed : List (LandedPage Row))
    (current : result.generation = list.result.generation)
    (rows : result.generation = list.generation → result.items = [] ∧ result.cursor = none ∨
      ∃ pages, pages <:+ landed ∧ IsWalk withCursor list.query list.generation none pages
        result.cursor ∧ result.items = pages.flatMap fun landed => landed.page.rows) :
    (({ list.withoutMore request with result, landed }).finishMore request.controller).Sound
      withCursor := by
  have settled : list.mores.erase request = [] := by
    have single := sound.shows.single
    have positive := List.length_pos_of_mem member
    apply List.eq_nil_of_length_eq_zero
    rw [List.length_erase_of_mem member]
    split at single
    · omega
    · omega
  refine ⟨⟨?_, ?_, ?_⟩, sound.key, ?_, sound.effect, ?_, ?_, sound.numbered, sound.distinct⟩
  · intro fresh
    have shown : result.generation = list.generation := fresh?_isSome_iff.mp fresh
    unfold items cursor
    rw [fresh?_of_eq shown]
    exact rows shown
  · intro loading
    have still : (list.query.firstPath.isSome && Option.isNone (if
        result.generation = list.generation then some result else Option.none)) = true := loading
    apply sound.shows.waits
    unfold CursorList.loading CursorList.fresh?
    rw [current] at still
    rw [Bool.and_eq_true] at still ⊢
    refine ⟨still.1, ?_⟩
    split
    · next shown =>
      rw [if_pos shown] at still
      exact still.2
    · rfl
  · show (list.mores.erase request).length = 0
    rw [settled]
    rfl
  · show result.generation ≤ list.generation
    rw [current]
    exact sound.past
  · intro other inFirsts alive
    have own := sound.firsts other inFirsts alive
    refine ⟨own.current, own.path, own.body, own.generation, ?_⟩
    show result.generation ≠ list.generation
    rw [current]
    exact own.waiting
  · intro other inMores
    have gone : other ∈ list.mores.erase request := inMores
    rw [settled] at gone
    cases gone

theorem Sound.settleMore (sound : list.Sound withCursor) (member : request ∈ list.mores)
    (answer : Except Str (Page Row Str)) :
    (((list.withoutMore request).settleMore request answer).finishMore request.controller).Sound
      withCursor := by
  have shown : list.result.generation = list.generation → list.result.items = [] ∧
      list.result.cursor = none ∨ ∃ pages, pages <:+ list.landed ∧
        IsWalk withCursor list.query list.generation none pages list.result.cursor ∧
          list.result.items = pages.flatMap fun landed => landed.page.rows := by
    intro fresh
    have rows := sound.shows.rows (fresh?_isSome_iff.mpr fresh)
    unfold items cursor at rows
    rw [fresh?_of_eq fresh] at rows
    exact rows
  unfold CursorList.settleMore
  by_cases stale : request.aborted = true ∨
      (list.withoutMore request).result.generation ≠ request.generation
  · rw [if_pos stale]
    exact sound.finishMore member list.result list.landed rfl shown
  · rw [if_neg stale]
    rw [not_or] at stale
    have own := sound.mores request member (by simpa using stale.1)
    obtain ⟨cursor, left, asked⟩ := own.asked
    cases answer with
    | error error =>
        exact sound.finishMore member { list.result with error := some error } list.landed rfl
          shown
    | ok page =>
        refine sound.finishMore member { list.result with
          items := list.result.items ++ page.rows, cursor := page.next, error := none } _ rfl ?_
        intro fresh
        rcases shown fresh with ⟨_, ended⟩ | ⟨pages, recent, walk, rows⟩
        · rw [left] at ended
          cases ended
        · rw [left] at walk
          refine .inr ⟨pages ++ [⟨request.path, request.body, request.generation, page⟩], ?_,
            walk.concat asked own.body own.generation, ?_⟩
          · obtain ⟨earlier, split⟩ := recent
            refine ⟨earlier, ?_⟩
            show _ = list.landed ++ [_]
            rw [← split, List.append_assoc]
          · show list.result.items ++ page.rows = _
            rw [rows, List.flatMap_append]
            simp

/-- A *load more* asks for the page after the rows shown, one at a time. -/
theorem Sound.loadMore (sound : list.Sound withCursor) :
    (list.loadMore withCursor).Sound withCursor := by
  unfold CursorList.loadMore
  cases asked : list.cursor.bind fun cursor => buildPath withCursor list.query (some cursor) with
  | none => exact sound
  | some path =>
      by_cases busy : list.loadingMore = true
      · simp only [busy, if_true]
        exact sound
      · obtain ⟨cursor, left, builds⟩ := Option.bind_eq_some_iff.mp asked
        have fresh : list.result.generation = list.generation := by
          by_contra waiting
          unfold CursorList.cursor at left
          rw [fresh?_of_ne waiting] at left
          cases left
        have idle : list.mores = [] := by
          have single := sound.shows.single
          rw [if_neg busy] at single
          exact List.eq_nil_of_length_eq_zero single
        have read : list.result.cursor = some cursor := by
          unfold CursorList.cursor at left
          rw [fresh?_of_eq fresh] at left
          exact left
        simp only [busy]
        refine ⟨⟨sound.shows.rows, sound.shows.waits, ?_⟩, sound.key, sound.past, sound.effect,
          ?_, ?_, ?_, sound.distinct⟩
        · show (list.mores ++ [_]).length = 1
          rw [idle]
          rfl
        · intro other inFirsts alive
          have own := sound.firsts other inFirsts alive
          exact ⟨own.current, own.path, own.body, own.generation, own.waiting⟩
        · intro other inMores alive
          have isNew : other ∈ list.mores ++ [_] := inMores
          rw [idle] at isNew
          rw [List.mem_singleton.mp isNew]
          exact ⟨rfl, fresh, rfl, rfl, cursor, read, builds⟩
        · intro other inFirsts
          exact Nat.lt_succ_of_lt (sound.numbered other inFirsts)

end Answers

/-! ### Queries and walks -/

/-- Two queries of a `GET` list have two walk keys. -/
theorem apart_of_get {list : CursorList Row} {query : ListQuery}
    (listGets : list.query.body = none) (gets : query.body = none)
    (listPath : list.query.firstPath ≠ some (str "null"))
    (path : query.firstPath ≠ some (str "null")) : list.Apart (.render query) := by
  intro same
  unfold walkKeyOf at same
  rw [listGets, gets, List.append_left_inj, List.append_left_inj, List.append_right_inj] at same
  have paths : query.firstPath = list.query.firstPath := by
    cases new : query.firstPath with
    | none =>
        cases old : list.query.firstPath with
        | none => rfl
        | some oldPath =>
            rw [new, old] at same
            exact absurd (old.trans (congrArg some same.symm)) listPath
    | some newPath =>
        cases old : list.query.firstPath with
        | none =>
            rw [new, old] at same
            exact absurd (new.trans (congrArg some same)) path
        | some oldPath =>
            rw [new, old] at same
            exact congrArg some same
  show query = list.query
  rcases query with ⟨queryPath, queryBody⟩
  rcases known : list.query with ⟨listedPath, listedBody⟩
  rw [known] at paths listGets
  cases paths
  cases gets
  cases listGets
  rfl

/-- The pages are what `fetch` answers, one fetch after the other. -/
def Served (fetch : Nat → Option Str → Except Unit (Page Row Str)) :
    Nat → Option Str → List (LandedPage Row) → Prop
  | _, _, [] => True
  | n, cursor, landed :: rest =>
    fetch n cursor = .ok landed.page ∧ Served fetch (n + 1) landed.page.next rest

/-- A walk that leaves no cursor is one of the pages a keyset list serves, whole. -/
theorem walk_of_isWalk {withCursor : Str → Str → Str} {query : ListQuery} {generation n : Nat}
    {fetch : Nat → Option Str → Except Unit (Page Row Str)} {cursor : Option Str}
    {pages : List (LandedPage Row)}
    (walk : IsWalk withCursor query generation cursor pages none)
    (served : Served fetch n cursor pages) :
    Walk fetch n cursor (pages.map LandedPage.page) := by
  induction pages generalizing n cursor with
  | nil => cases walk
  | cons first rest inductionHypothesis =>
      cases rest with
      | nil => exact .last served.1 walk.2.2.2
      | cons second rest =>
          obtain ⟨_, later, leaves, walkLater⟩ := walk
          have servedLater := served.2
          rw [leaves] at servedLater
          exact .more served.1 leaves (inductionHypothesis walkLater servedLater)

/-! ### Every run -/

theorem Sound.step {withCursor : Str → Str → Str} {list next : CursorList Row}
    {event : ListEvent Row} (sound : list.Sound withCursor) (apart : list.Apart event)
    (stepped : step withCursor event list = .ok next) : next.Sound withCursor := by
  cases event with
  | render query =>
      cases stepped
      exact sound.render list.reloadToken query fun same => apart (same.trans sound.key)
  | reload =>
      cases stepped
      exact sound.render (list.reloadToken + 1) list.query fun _ => rfl
  | loadMore =>
      cases stepped
      exact sound.loadMore
  | firstSettles controller answer =>
      unfold CursorList.step at stepped
      simp only at stepped
      cases found : list.firsts.find? fun request => request.controller = controller with
      | none =>
          rw [found] at stepped
          cases stepped
      | some request =>
          rw [found] at stepped
          cases stepped
          exact sound.settleFirst (List.mem_of_find?_eq_some found) answer
  | moreSettles controller answer =>
      unfold CursorList.step at stepped
      simp only at stepped
      cases found : list.mores.find? fun request => request.controller = controller with
      | none =>
          rw [found] at stepped
          cases stepped
      | some request =>
          have named := List.find?_some found
          simp only [decide_eq_true_eq] at named
          rw [found] at stepped
          cases stepped
          rw [← named]
          exact sound.settleMore (List.mem_of_find?_eq_some found) answer

theorem sound_of_reachable {list : CursorList Row}
    (reachable : ((system withCursor).restrict Apart).Reachable list) :
    list.Sound withCursor := by
  apply System.Reachable.invariant _ _ reachable
  · intro start initial
    obtain ⟨query, rfl⟩ := initial
    exact sound_mount query
  · intro before event after sound stepped
    exact sound.step stepped.1 stepped.2

variable (Row) in
/-- What the list shows in every order of renders, clicks and answers. -/
structure ShowsWalks : Prop where
  /-- One walk of its query. -/
  shows : ∀ list : CursorList Row, ((system withCursor).restrict Apart).Reachable list →
    ShowsWalk withCursor list
  /-- Once there is nothing more to load, the whole of it, as far as the pages that landed are
  those the server answers one after the other. -/
  whole : ∀ list : CursorList Row, ((system withCursor).restrict Apart).Reachable list →
    list.items ≠ [] → list.hasMore = false →
    ∀ fetch : Nat → Option Str → Except Unit (Page Row Str),
      (∀ pages, pages <:+ list.landed →
        IsWalk withCursor list.query list.generation none pages none →
          Served fetch 0 none pages) →
      ∃ pages, Walk fetch 0 none pages ∧ list.items = visited pages

end Hook

end CursorList

end Vidit.Pagination
