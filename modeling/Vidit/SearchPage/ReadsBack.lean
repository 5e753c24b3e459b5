import Vidit.Library.Keyed
import Vidit.SearchPage.Url

/-!
Contract: what the URL of a search says of the search it was written for.

Owns:
- `ReadsBack`: the state read from the URL sends the same types and filters, and
  writes the URL again;
- when a URL reads back (`readsBack_iff`).

Proof shape: the parameters are blocks, one for each wire name (`valuesAt`), and a
reader finds the block of its name. So each filter is read from what was written
of it, and the Show pick from two blocks.
-/

namespace Vidit.SearchPage

open Vidit.Python Vidit.Browser Vidit.Library

/-! ### Names -/

/-- The names of the parameters, in the order they are written. -/
inductive Wire where
  | q
  | type
  | status
  | conflict
  | sourceKind
  | level
  | tag
  | media
  | author
  | hasCoords
  | approved
  | approvedBy
  | approvedByOrg
  | occurredDateFrom
  | occurredDateTo
  | submittedFrom
  | submittedTo
deriving DecidableEq, Repr

def Wire.name : Wire → Str
  | .q => str "q"
  | .type => str "type"
  | .status => str "status"
  | .conflict => str "conflict"
  | .sourceKind => str "source_kind"
  | .level => str "level"
  | .tag => str "tag"
  | .media => str "media"
  | .author => str "author"
  | .hasCoords => str "has_coords"
  | .approved => str "approved"
  | .approvedBy => str "approved_by"
  | .approvedByOrg => str "approved_by_org"
  | .occurredDateFrom => str "occurred_date_from"
  | .occurredDateTo => str "occurred_date_to"
  | .submittedFrom => str "submitted_from"
  | .submittedTo => str "submitted_to"

/-- The names of the filters. -/
def filterWires : List Wire :=
  [.status, .conflict, .sourceKind, .level, .tag, .media, .author, .hasCoords, .approved,
    .approvedBy, .approvedByOrg, .occurredDateFrom, .occurredDateTo, .submittedFrom, .submittedTo]

def wires : List Wire :=
  .q :: .type :: filterWires

theorem name_injective : Function.Injective Wire.name := by
  have apart : (wires.map Wire.name).Nodup := by
    decide
  have listed : ∀ wire, wire ∈ wires := by
    intro wire
    cases wire <;> decide
  intro left right same
  exact List.inj_on_of_nodup_map apart (listed left) (listed right) same

/-! ### Fields by name -/

/-- The field of a name. -/
def fieldAt (f : FilterState) : Wire → Option FieldValue
  | .q => none
  | .type => none
  | .status => listField (f.showPick.filter isStatus)
  | .conflict => listField f.conflicts
  | .sourceKind => listField f.sourceKinds
  | .level => listField f.levels
  | .tag => listField f.tags
  | .media => listField f.mediaTypes
  | .author => authorField f.author
  | .hasCoords => (hasCoordsFilter f.locationGuess).map .flag
  | .approved => if f.approved then some (.flag true) else none
  | .approvedBy =>
      match f.approvedBy with
      | some (.analyst username) => some (.text username)
      | _ => none
  | .approvedByOrg =>
      match f.approvedBy with
      | some (.organization slug _) => some (.text slug)
      | _ => none
  | .occurredDateFrom => textField f.eventFrom
  | .occurredDateTo => textField f.eventTo
  | .submittedFrom => textField f.addedFrom
  | .submittedTo => textField f.addedTo

theorem eventFilterFields_eq (f : FilterState) :
    eventFilterFields f = filterWires.flatMap fun wire => assign wire.name (fieldAt f wire) := by
  have approver : approverFields f.approvedBy =
      assign (str "approved_by") (fieldAt f .approvedBy) ++
        assign (str "approved_by_org") (fieldAt f .approvedByOrg) := by
    unfold fieldAt
    cases f.approvedBy with
    | none => rfl
    | some account => cases account <;> rfl
  unfold eventFilterFields
  rw [approver]
  simp only [listDimensions, filterWires, List.flatMap_cons, List.flatMap_nil, List.append_nil,
    List.append_assoc]
  rfl

theorem fst_of_mem_assign {name : Str} {value : Option FieldValue} :
    ∀ entry ∈ assign name value, entry.1 = name := by
  intro entry member
  obtain ⟨value, _, rfl⟩ := List.mem_map.mp member
  rfl

/-- The record holds the field of each name. -/
theorem lookup_eventFilterFields (f : FilterState) (wire : Wire) (listed : wire ∈ filterWires) :
    (eventFilterFields f).find? (fun entry => entry.1 = wire.name) =
      (fieldAt f wire).map fun value => (wire.name, value) := by
  rw [← List.head?_filter, eventFilterFields_eq,
    filter_flatMap_of_keyed name_injective (fun _ => fst_of_mem_assign) (by decide),
    if_pos listed]
  cases fieldAt f wire <;> rfl

/-! ### Parameters by name -/

/-- What a field is written as. -/
def written : Option FieldValue → List Str
  | none => []
  | some (.list values) => values
  | some (.text value) => [value]
  | some (.flag value) => [flagText value]

/-- The parameters of one name. -/
def block (name : Str) (values : List Str) : Params :=
  values.map fun value => (name, value)

theorem set_of_not_mem {params : Params} {name : Str} (fresh : name ∉ params.map Prod.fst)
    (value : Str) : params.set name value = params ++ [(name, value)] := by
  induction params with
  | nil => rfl
  | cons pair rest inductionHypothesis =>
      rw [List.map_cons, List.mem_cons, not_or] at fresh
      unfold Params.set
      rw [if_neg (Ne.symm fresh.1), inductionHypothesis fresh.2]
      rfl

theorem foldl_append (params : Params) (name : Str) (values : List Str) :
    values.foldl (fun params value => params.append name value) params =
      params ++ block name values := by
  induction values generalizing params with
  | nil => exact (List.append_nil params).symm
  | cons value rest inductionHypothesis =>
      rw [List.foldl_cons, inductionHypothesis]
      unfold Params.append block
      rw [List.append_assoc]
      rfl

/-- A field is appended under a name of its own. -/
theorem appendField_eq {params : Params} {name : Str} (fresh : name ∉ params.map Prod.fst)
    (value : FieldValue) :
    appendField params (name, value) = params ++ block name (written (some value)) := by
  cases value with
  | list values => exact foldl_append params name values
  | text value => exact set_of_not_mem fresh value
  | flag value => exact set_of_not_mem fresh _

theorem foldl_appendField (f : FilterState) {keys : List Wire} (nodup : keys.Nodup)
    {params : Params} (fresh : ∀ wire ∈ keys, wire.name ∉ params.map Prod.fst) :
    (keys.flatMap fun wire => assign wire.name (fieldAt f wire)).foldl appendField params =
      params ++ keys.flatMap fun wire => block wire.name (written (fieldAt f wire)) := by
  induction keys generalizing params with
  | nil => exact (List.append_nil params).symm
  | cons wire rest inductionHypothesis =>
      have apart := List.nodup_cons.mp nodup
      have own := fresh wire List.mem_cons_self
      have here : (assign wire.name (fieldAt f wire)).foldl appendField params =
          params ++ block wire.name (written (fieldAt f wire)) := by
        cases fieldAt f wire with
        | none => exact (List.append_nil params).symm
        | some value => exact appendField_eq own value
      have later : ∀ other ∈ rest, other.name ∉
          (params ++ block wire.name (written (fieldAt f wire))).map Prod.fst := by
        intro other listed member
        rw [List.map_append, List.mem_append] at member
        rcases member with before | inBlock
        · exact fresh other (List.mem_cons_of_mem _ listed) before
        · obtain ⟨pair, inPairs, same⟩ := List.mem_map.mp inBlock
          obtain ⟨value, _, rfl⟩ := List.mem_map.mp inPairs
          exact apart.1 (name_injective same ▸ listed)
      rw [List.flatMap_cons, List.foldl_append, here, inductionHypothesis apart.2 later,
        List.flatMap_cons, List.append_assoc]

/-- The filters as they are written: a pick of every status goes out without its statuses. -/
def sentFilters (f : FilterState) : FilterState :=
  if everyStatus f.showPick then { f with showPick := [] } else f

/-- The values written under a name. -/
def valuesAt (q : Str) (f : FilterState) : Wire → List Str
  | .q => if q.isEmpty then [] else [q]
  | .type => searchTypes f.showPick
  | wire => written (fieldAt (sentFilters f) wire)

/-- A URL is a block for each name. -/
theorem searchPageParams_eq (q : Str) (f : FilterState) :
    searchPageParams q f = wires.flatMap fun wire => block wire.name (valuesAt q f wire) := by
  have query : (if q.isEmpty then [] else Params.set [] (str "q") q : Params) =
      block (str "q") (valuesAt q f .q) := by
    unfold valuesAt
    by_cases empty : q.isEmpty = true
    · rw [if_pos empty, if_pos empty]
      rfl
    · rw [if_neg empty, if_neg empty]
      rfl
  have fresh : ∀ wire ∈ filterWires, wire.name ∉ (block (str "q") (valuesAt q f .q) ++
      block (str "type") (searchTypes f.showPick)).map Prod.fst := by
    intro wire listed member
    rw [List.map_append, List.mem_append] at member
    have ofBlock : ∀ other : Wire, ∀ values, wire.name ∈ (block other.name values).map Prod.fst →
        wire = other := by
      intro other values inBlock
      obtain ⟨pair, inPairs, same⟩ := List.mem_map.mp inBlock
      obtain ⟨value, _, rfl⟩ := List.mem_map.mp inPairs
      exact (name_injective same).symm
    rcases member with inQuery | inTypes
    · have same := ofBlock .q _ inQuery
      subst same
      revert listed
      decide
    · have same := ofBlock .type _ inTypes
      subst same
      revert listed
      decide
  have typed : appendSearchTypes (block (str "q") (valuesAt q f .q)) (searchTypes f.showPick) =
      block (str "q") (valuesAt q f .q) ++ block (str "type") (searchTypes f.showPick) :=
    foldl_append _ _ _
  calc searchPageParams q f
      = (eventFilterFields (sentFilters f)).foldl appendField
          (appendSearchTypes (block (str "q") (valuesAt q f .q)) (searchTypes f.showPick)) := by
        rw [← query]
        rfl
    _ = wires.flatMap fun wire => block wire.name (valuesAt q f wire) := by
        rw [typed, eventFilterFields_eq, foldl_appendField _ (by decide) fresh, List.append_assoc]
        rfl

theorem getAll_searchPageParams (q : Str) (f : FilterState) (wire : Wire) :
    (searchPageParams q f).getAll wire.name = valuesAt q f wire := by
  have keyed : ∀ own : Wire, ∀ pair ∈ block own.name (valuesAt q f own), pair.1 = own.name := by
    intro own pair member
    obtain ⟨value, _, rfl⟩ := List.mem_map.mp member
    rfl
  have listed : wire ∈ wires := by
    cases wire <;> decide
  unfold Params.getAll
  rw [searchPageParams_eq, filter_flatMap_of_keyed name_injective keyed (by decide), if_pos listed]
  unfold block
  rw [List.map_map]
  exact List.map_id _

theorem get_searchPageParams (q : Str) (f : FilterState) (wire : Wire) :
    (searchPageParams q f).get wire.name = (valuesAt q f wire).head? := by
  rw [← getAll_searchPageParams]
  unfold Params.get Params.getAll
  rw [List.head?_map, List.head?_filter]

theorem written_listField (values : List Str) : written (listField values) = values := by
  cases values <;> rfl

/-! ### The Show pick -/

theorem searchTypes_eq (picked : List Str) :
    searchTypes picked = (if (splitShow picked).statuses.isEmpty then [] else [str "event"]) ++
      (splitShow picked).kinds := by
  unfold searchTypes showScope
  generalize splitShow picked = split
  obtain ⟨statuses, kinds⟩ := split
  cases statuses with
  | nil => cases kinds <;> rfl
  | cons status others => cases kinds <;> rfl

theorem kinds_subset {picked : List Str} {kind : Str} (member : kind ∈ (splitShow picked).kinds) :
    kind ∈ showKinds :=
  (List.mem_filter.mp member).1

theorem event_mem_searchTypes (picked : List Str) :
    str "event" ∈ searchTypes picked ↔ (splitShow picked).statuses.isEmpty = false := by
  have notKind : str "event" ∉ (splitShow picked).kinds := by
    intro member
    have listed := kinds_subset member
    revert listed
    decide
  rw [searchTypes_eq, List.mem_append]
  cases (splitShow picked).statuses with
  | nil => simpa using notKind
  | cons status rest => simp

/-- The kinds among the types are the kinds picked. -/
theorem kinds_searchTypes (picked : List Str) :
    (showKinds.filter fun kind => (searchTypes picked).contains kind) =
      (splitShow picked).kinds := by
  have notEvent : ∀ kind ∈ showKinds, kind ≠ str "event" := by
    decide
  show (showKinds.filter fun kind => (searchTypes picked).contains kind) =
    showKinds.filter fun kind => kind ∈ picked
  apply List.filter_congr
  intro kind listed
  have same : kind ∈ searchTypes picked ↔ kind ∈ picked := by
    rw [searchTypes_eq, List.mem_append]
    have inKinds : kind ∈ (splitShow picked).kinds ↔ kind ∈ picked := by
      simp [splitShow, listed]
    constructor
    · intro member
      rcases member with event | kind'
      · exfalso
        split at event
        · cases event
        · exact notEvent kind listed (List.mem_singleton.mp event)
      · exact inKinds.mp kind'
    · intro member
      exact .inr (inKinds.mpr member)
  simp only [List.contains_eq_mem, same]

/-- Statuses and kinds of the vocabulary split into themselves. -/
theorem splitShow_append {statuses picked : List Str}
    (named : ∀ status ∈ statuses, isStatus status = true) :
    (splitShow (statuses ++ (splitShow picked).kinds)).statuses = statuses ∧
      (splitShow (statuses ++ (splitShow picked).kinds)).kinds = (splitShow picked).kinds := by
  have apart : ∀ kind ∈ showKinds, isStatus kind = false := by
    decide
  constructor
  · have none : (splitShow picked).kinds.filter isStatus = [] := by
      apply List.filter_eq_nil_iff.mpr
      intro kind member
      simp [apart kind (kinds_subset member)]
    show (statuses ++ (splitShow picked).kinds).filter isStatus = statuses
    rw [List.filter_append, List.filter_eq_self.mpr named, none, List.append_nil]
  · show (showKinds.filter fun kind => kind ∈ statuses ++ (splitShow picked).kinds) =
      showKinds.filter fun kind => kind ∈ picked
    apply List.filter_congr
    intro kind listed
    have notStatus : kind ∉ statuses := by
      intro member
      have status := named kind member
      rw [apart kind listed] at status
      cases status
    have inKinds : kind ∈ (splitShow picked).kinds ↔ kind ∈ picked := by
      simp [splitShow, listed]
    simp only [List.mem_append, notStatus, false_or, inKinds]

theorem isStatus_of_mem_statuses {picked : List Str} :
    ∀ status ∈ (splitShow picked).statuses, isStatus status = true :=
  fun _ member => (List.mem_filter.mp member).2

/-- The statuses a URL names. -/
def sharedStatuses (picked : List Str) : List Str :=
  if everyStatus picked then filterStatuses else (splitShow picked).statuses

theorem everyStatus_iff (picked : List Str) :
    everyStatus picked = true ↔ searchTypes picked = [str "event"] ∧ picked.length = 3 := by
  simp [everyStatus, filterStatuses]

/-- Types of events alone are those of a pick of statuses alone. -/
theorem searchTypes_eq_event (picked : List Str) :
    searchTypes picked = [str "event"] ↔
      (splitShow picked).statuses.isEmpty = false ∧ (splitShow picked).kinds = [] := by
  rw [← event_mem_searchTypes]
  constructor
  · intro alone
    have event : str "event" ∈ searchTypes picked := by
      rw [alone]
      exact List.mem_singleton_self _
    refine ⟨event, ?_⟩
    have some := (event_mem_searchTypes picked).mp event
    rw [searchTypes_eq, some] at alone
    simpa using alone
  · intro ⟨event, alone⟩
    have some := (event_mem_searchTypes picked).mp event
    rw [searchTypes_eq, some, alone]
    rfl

/-- The pick a URL reads back to. -/
theorem readShowPick_eq (q : Str) (f : FilterState) :
    readShowPick (searchPageParams q f) =
      sharedStatuses f.showPick ++ (splitShow f.showPick).kinds := by
  have types : (searchPageParams q f).getAll (str "type") = searchTypes f.showPick :=
    getAll_searchPageParams q f .type
  have statuses : (searchPageParams q f).getAll (str "status") =
      if everyStatus f.showPick then [] else (splitShow f.showPick).statuses := by
    have sent := getAll_searchPageParams q f .status
    unfold valuesAt sentFilters at sent
    by_cases every : everyStatus f.showPick = true
    · rw [if_pos every] at sent ⊢
      exact sent
    · rw [if_neg every] at sent ⊢
      exact sent.trans (written_listField _)
  have named : (if everyStatus f.showPick then [] else (splitShow f.showPick).statuses).filter
      isStatus = if everyStatus f.showPick then [] else (splitShow f.showPick).statuses := by
    apply List.filter_eq_self.mpr
    intro status member
    split at member
    · cases member
    · exact isStatus_of_mem_statuses status member
  unfold readShowPick sharedStatuses
  simp only [types, statuses, named, kinds_searchTypes]
  apply congrArg (· ++ (splitShow f.showPick).kinds)
  by_cases every : everyStatus f.showPick = true
  · have event : str "event" ∈ searchTypes f.showPick := by
      rw [((everyStatus_iff _).mp every).1]
      exact List.mem_singleton_self _
    rw [if_pos every, if_pos every]
    simp [event]
  · rw [if_neg every, if_neg every]
    by_cases none : (splitShow f.showPick).statuses.isEmpty = true
    · have noEvent : str "event" ∉ searchTypes f.showPick := by
        rw [event_mem_searchTypes, none]
        simp
      simp [noEvent]
    · simp [none]

/-- The state a URL reads back to. -/
def readBack (q : Str) (f : FilterState) : FilterState :=
  readFilters (searchPageParams q f)

/-! ### Fields read back -/

theorem isWhite_of_isHandlePoint {point : Nat} (handle : isHandlePoint point = true) :
    isWhite point = false := by
  have ranges : (0x30 ≤ point ∧ point ≤ 0x39) ∨ (0x41 ≤ point ∧ point ≤ 0x5A) ∨
      (0x61 ≤ point ∧ point ≤ 0x7A) ∨ point = 0x5F ∨ point = 0x2D := by
    simp only [isHandlePoint, inRanges, List.any_cons, List.any_nil, Bool.or_false,
      Bool.or_eq_true, Bool.and_eq_true, decide_eq_true_eq, or_assoc] at handle
    exact handle
  simp only [isWhite, inRanges, List.any_cons, List.any_nil, Bool.or_false, Bool.or_eq_false_iff,
    Bool.and_eq_false_iff, decide_eq_false_iff_not]
  omega

theorem trimmed_of_passesGate {name : Str} (passes : passesGate name = true) :
    trimmed name = name := by
  have plain : ∀ point ∈ name, isWhite point = false := by
    intro point member
    simp only [passesGate, Bool.and_eq_true, List.all_eq_true] at passes
    exact isWhite_of_isHandlePoint (passes.2 point member)
  exact stripBy_eq_self plain

theorem head?_written_textField (value : Str) :
    (written (textField value)).head?.getD [] = value := by
  cases value <;> rfl

/-- A filter other than the statuses is written as it is. -/
theorem fieldAt_sentFilters (f : FilterState) {wire : Wire} (other : wire ≠ .status) :
    fieldAt (sentFilters f) wire = fieldAt f wire := by
  unfold sentFilters
  by_cases every : everyStatus f.showPick = true
  · rw [if_pos every]
    cases wire <;> first | rfl | exact absurd rfl other
  · rw [if_neg every]

theorem getAll_filter (q : Str) (f : FilterState) {wire : Wire} (listed : wire ∈ filterWires)
    (other : wire ≠ .status) :
    (searchPageParams q f).getAll wire.name = written (fieldAt f wire) := by
  rw [getAll_searchPageParams, ← fieldAt_sentFilters f other]
  cases wire with
  | q => exact absurd listed (by decide)
  | type => exact absurd listed (by decide)
  | _ => rfl

theorem get_filter (q : Str) (f : FilterState) {wire : Wire} (listed : wire ∈ filterWires)
    (other : wire ≠ .status) :
    (searchPageParams q f).get wire.name = (written (fieldAt f wire)).head? := by
  rw [get_searchPageParams, ← getAll_searchPageParams, getAll_filter q f listed other]

/-! What is read under each name. -/

section Read

variable (params : Params)

theorem list_readFilters {wire : Wire}
    (list : wire = .conflict ∨ wire = .sourceKind ∨ wire = .level ∨ wire = .tag ∨ wire = .media) :
    fieldAt (readFilters params) wire = listField (params.getAll wire.name) := by
  obtain rfl | rfl | rfl | rfl | rfl := list <;> rfl

theorem text_readFilters {wire : Wire}
    (text : wire = .occurredDateFrom ∨ wire = .occurredDateTo ∨ wire = .submittedFrom ∨
      wire = .submittedTo) :
    fieldAt (readFilters params) wire = textField ((params.get wire.name).getD []) := by
  obtain rfl | rfl | rfl | rfl := text <;> rfl

theorem showPick_readFilters : (readFilters params).showPick = readShowPick params := rfl

theorem approvedBy_readFilters : (readFilters params).approvedBy = readApprover params := rfl

theorem author_readFilters :
    fieldAt (readFilters params) .author =
      authorField (if passesGate ((params.get Wire.author.name).getD [])
        then (params.get Wire.author.name).getD [] else []) := rfl

theorem hasCoords_readFilters :
    fieldAt (readFilters params) .hasCoords =
      (hasCoordsFilter (locationGuessOf (params.get Wire.hasCoords.name))).map .flag := rfl

theorem approved_readFilters :
    fieldAt (readFilters params) .approved =
      if decide (params.get Wire.approved.name = some (str "true")) then some (.flag true)
      else none := rfl

end Read

theorem list_readBack (q : Str) {f : FilterState} {wire : Wire} {values : List Str}
    (list : wire = .conflict ∨ wire = .sourceKind ∨ wire = .level ∨ wire = .tag ∨ wire = .media)
    (listed : wire ∈ filterWires) (other : wire ≠ .status)
    (here : fieldAt f wire = listField values) :
    fieldAt (readBack q f) wire = fieldAt f wire := by
  unfold readBack
  rw [list_readFilters _ list, getAll_filter q f listed other, here, written_listField]

theorem text_readBack (q : Str) {f : FilterState} {wire : Wire} {value : Str}
    (text : wire = .occurredDateFrom ∨ wire = .occurredDateTo ∨ wire = .submittedFrom ∨
      wire = .submittedTo)
    (listed : wire ∈ filterWires) (other : wire ≠ .status) (here : fieldAt f wire = textField value) :
    fieldAt (readBack q f) wire = fieldAt f wire := by
  unfold readBack
  rw [text_readFilters _ text, get_filter q f listed other, here, head?_written_textField]

/-- An author that went out comes back, and no other does. -/
theorem author_readBack (q : Str) (f : FilterState) :
    fieldAt (readBack q f) .author = fieldAt f .author := by
  have sent : fieldAt f .author = authorField f.author := rfl
  unfold readBack
  rw [author_readFilters, get_filter q f (by decide) (by decide), sent]
  unfold authorField
  by_cases passes : (!(trimmed f.author).isEmpty && passesGate (trimmed f.author)) = true
  · have gate : passesGate (trimmed f.author) = true := (Bool.and_eq_true_iff.mp passes).2
    simp only [if_pos passes, written, List.head?_cons, Option.getD_some, if_pos gate,
      trimmed_of_passesGate gate]
  · simp only [if_neg passes, written, List.head?_nil, Option.getD_none]
    rfl

theorem hasCoords_readBack (q : Str) (f : FilterState) :
    fieldAt (readBack q f) .hasCoords = fieldAt f .hasCoords := by
  have sent : fieldAt f .hasCoords = (hasCoordsFilter f.locationGuess).map .flag := rfl
  unfold readBack
  rw [hasCoords_readFilters, get_filter q f (by decide) (by decide), sent]
  cases hasCoordsFilter f.locationGuess with
  | none => rfl
  | some guessed => cases guessed <;> decide

theorem approved_readBack (q : Str) (f : FilterState) :
    fieldAt (readBack q f) .approved = fieldAt f .approved := by
  have sent : fieldAt f .approved = if f.approved then some (.flag true) else none := rfl
  unfold readBack
  rw [approved_readFilters, get_filter q f (by decide) (by decide), sent]
  cases f.approved <;> decide

/-- The filters that every URL keeps. -/
theorem fieldAt_readBack (q : Str) (f : FilterState) {wire : Wire} (listed : wire ∈ filterWires)
    (notStatus : wire ≠ .status) (notAnalyst : wire ≠ .approvedBy)
    (notOrganization : wire ≠ .approvedByOrg) :
    fieldAt (readBack q f) wire = fieldAt f wire := by
  cases wire with
  | q => exact absurd listed (by decide)
  | type => exact absurd listed (by decide)
  | status => exact absurd rfl notStatus
  | approvedBy => exact absurd rfl notAnalyst
  | approvedByOrg => exact absurd rfl notOrganization
  | conflict => exact list_readBack q (by decide) listed notStatus rfl
  | sourceKind => exact list_readBack q (by decide) listed notStatus rfl
  | level => exact list_readBack q (by decide) listed notStatus rfl
  | tag => exact list_readBack q (by decide) listed notStatus rfl
  | media => exact list_readBack q (by decide) listed notStatus rfl
  | author => exact author_readBack q f
  | hasCoords => exact hasCoords_readBack q f
  | approved => exact approved_readBack q f
  | occurredDateFrom => exact text_readBack q (by decide) listed notStatus rfl
  | occurredDateTo => exact text_readBack q (by decide) listed notStatus rfl
  | submittedFrom => exact text_readBack q (by decide) listed notStatus rfl
  | submittedTo => exact text_readBack q (by decide) listed notStatus rfl

/-! ### The approver read back -/

/-- The gate lets the approver's name in. -/
def approverPasses : Option Account → Bool
  | some (.analyst username) => passesGate username
  | some (.organization slug _) => passesGate slug
  | none => true

/-- The approver a URL names. -/
def sharedApprover : Option Account → Option Account
  | some (.analyst username) => if passesGate username then some (.analyst username) else none
  | some (.organization slug _) =>
      if passesGate slug then some (.organization slug slug) else none
  | none => none

theorem readApprover_eq (q : Str) (f : FilterState) :
    readApprover (searchPageParams q f) = sharedApprover f.approvedBy := by
  have username : (searchPageParams q f).get (str "approved_by") =
      (written (fieldAt f .approvedBy)).head? :=
    @get_filter q f .approvedBy (by decide) (by decide)
  have slug : (searchPageParams q f).get (str "approved_by_org") =
      (written (fieldAt f .approvedByOrg)).head? :=
    @get_filter q f .approvedByOrg (by decide) (by decide)
  have unnamed : passesGate [] = false := by
    decide
  unfold readApprover
  rw [username, slug]
  unfold fieldAt sharedApprover
  cases f.approvedBy with
  | none => simp [written, unnamed]
  | some account =>
      cases account with
      | analyst username => by_cases passes : passesGate username = true <;>
          simp [written, unnamed, passes]
      | organization slug name => by_cases passes : passesGate slug = true <;>
          simp [written, unnamed, passes]

theorem approvedBy_readBack (q : Str) (f : FilterState) :
    (readBack q f).approvedBy = sharedApprover f.approvedBy := by
  unfold readBack
  rw [approvedBy_readFilters, readApprover_eq]

/-- The approver's fields come back when the gate lets the name in, and only then. -/
theorem approver_readBack (q : Str) (f : FilterState) :
    fieldAt (readBack q f) .approvedBy = fieldAt f .approvedBy ∧
        fieldAt (readBack q f) .approvedByOrg = fieldAt f .approvedByOrg ↔
      approverPasses f.approvedBy = true := by
  unfold fieldAt
  rw [approvedBy_readBack]
  cases f.approvedBy with
  | none => simp [sharedApprover, approverPasses]
  | some account =>
      cases account with
      | analyst username =>
          by_cases passes : passesGate username = true <;>
            simp [sharedApprover, approverPasses, passes]
      | organization slug name =>
          by_cases passes : passesGate slug = true <;>
            simp [sharedApprover, approverPasses, passes]

/-! ### The statuses read back -/

theorem isStatus_of_mem_sharedStatuses {picked : List Str} :
    ∀ status ∈ sharedStatuses picked, isStatus status = true := by
  intro status member
  unfold sharedStatuses at member
  split at member
  · exact decide_eq_true member
  · exact isStatus_of_mem_statuses status member

theorem showPick_readBack (q : Str) (f : FilterState) :
    (readBack q f).showPick = sharedStatuses f.showPick ++ (splitShow f.showPick).kinds := by
  unfold readBack
  rw [showPick_readFilters, readShowPick_eq]

/-- The statuses and the kinds of the pick read back. -/
theorem splitShow_readBack (q : Str) (f : FilterState) :
    (splitShow (readBack q f).showPick).statuses = sharedStatuses f.showPick ∧
      (splitShow (readBack q f).showPick).kinds = (splitShow f.showPick).kinds := by
  rw [showPick_readBack]
  exact splitShow_append isStatus_of_mem_sharedStatuses

theorem isEmpty_sharedStatuses (picked : List Str) :
    (sharedStatuses picked).isEmpty = (splitShow picked).statuses.isEmpty := by
  unfold sharedStatuses
  by_cases every : everyStatus picked = true
  · have alone := (everyStatus_iff picked).mp every
    rw [if_pos every, ((searchTypes_eq_event picked).mp alone.1).1]
    rfl
  · rw [if_neg every]

/-- Every URL keeps the types. -/
theorem searchTypes_readBack (q : Str) (f : FilterState) :
    searchTypes (readBack q f).showPick = searchTypes f.showPick := by
  have split := splitShow_readBack q f
  rw [searchTypes_eq, searchTypes_eq, split.1, split.2, isEmpty_sharedStatuses]

theorem fieldAt_status (f : FilterState) :
    fieldAt f .status = listField (splitShow f.showPick).statuses := rfl

theorem status_readBack (q : Str) (f : FilterState) :
    fieldAt (readBack q f) .status = listField (sharedStatuses f.showPick) := by
  rw [fieldAt_status, (splitShow_readBack q f).1]

theorem everyStatus_filterStatuses : everyStatus filterStatuses = true := by
  decide

section Vocabulary

variable {f : FilterState} (offered : ∀ entry ∈ f.showPick, entry ∈ showOnSearch)

include offered

/-- A pick of events alone is a pick of statuses. -/
theorem searchTypes_eq_event_iff :
    searchTypes f.showPick = [str "event"] ↔
      f.showPick ≠ [] ∧ ∀ entry ∈ f.showPick, isStatus entry = true := by
  rw [searchTypes_eq_event]
  constructor
  · intro ⟨notEmpty, alone⟩
    constructor
    · intro empty
      rw [empty] at notEmpty
      cases notEmpty
    · intro entry member
      rcases List.mem_append.mp (offered entry member) with status | kind
      · exact decide_eq_true status
      · have inKinds : entry ∈ (splitShow f.showPick).kinds :=
          List.mem_filter.mpr ⟨kind, decide_eq_true member⟩
        rw [alone] at inKinds
        cases inKinds
  · intro ⟨notEmpty, statuses⟩
    constructor
    · show (f.showPick.filter isStatus).isEmpty = false
      rw [List.filter_eq_self.mpr statuses]
      exact List.isEmpty_eq_false_iff.mpr notEmpty
    · have apart : ∀ kind ∈ showKinds, isStatus kind = false := by
        decide
      apply List.filter_eq_nil_iff.mpr
      intro kind listed found
      have status := statuses kind (of_decide_eq_true found)
      rw [apart kind listed] at status
      cases status

theorem everyStatus_eq_true_iff :
    everyStatus f.showPick = true ↔
      f.showPick.length = filterStatuses.length ∧
        ∀ entry ∈ f.showPick, isStatus entry = true := by
  rw [everyStatus_iff, searchTypes_eq_event_iff offered]
  constructor
  · intro ⟨⟨_, statuses⟩, long⟩
    exact ⟨long, statuses⟩
  · intro ⟨long, statuses⟩
    refine ⟨⟨?_, statuses⟩, long⟩
    intro empty
    rw [empty] at long
    cases long

/-- The pick read back is written as the pick was. -/
theorem everyStatus_readBack (q : Str) :
    everyStatus (readBack q f).showPick = everyStatus f.showPick := by
  by_cases alone : searchTypes f.showPick = [str "event"]
  · have statuses := ((searchTypes_eq_event_iff offered).mp alone).2
    have kinds := ((searchTypes_eq_event f.showPick).mp alone).2
    rw [showPick_readBack, kinds, List.append_nil]
    unfold sharedStatuses
    by_cases every : everyStatus f.showPick = true
    · rw [if_pos every, every, everyStatus_filterStatuses]
    · have whole : (splitShow f.showPick).statuses = f.showPick :=
        List.filter_eq_self.mpr statuses
      rw [if_neg every, whole]
  · unfold everyStatus
    rw [searchTypes_readBack, decide_eq_false alone, Bool.false_and, Bool.false_and]

end Vocabulary

/-! ### The parameters written again -/

theorem readQuery_searchPageParams (q : Str) (f : FilterState) :
    readQuery (searchPageParams q f) = q := by
  have first : (searchPageParams q f).get (str "q") = (if q.isEmpty then [] else [q]).head? :=
    get_searchPageParams q f .q
  unfold readQuery
  rw [first]
  cases q <;> rfl

theorem sentFilters_showPick (f : FilterState) :
    (sentFilters f).showPick = if everyStatus f.showPick then [] else f.showPick := by
  unfold sentFilters
  split <;> rfl

/-- States of the same types and fields, split the same way, have the same parameters. -/
theorem searchPageParams_congr (q : Str) {f g : FilterState}
    (types : searchTypes f.showPick = searchTypes g.showPick)
    (every : everyStatus f.showPick = everyStatus g.showPick)
    (statuses : everyStatus g.showPick ≠ true → fieldAt f .status = fieldAt g .status)
    (fields : ∀ wire ∈ filterWires, wire ≠ .status → fieldAt f wire = fieldAt g wire) :
    searchPageParams q f = searchPageParams q g := by
  have sameStatus : fieldAt (sentFilters f) .status = fieldAt (sentFilters g) .status := by
    unfold sentFilters
    rw [every]
    by_cases whole : everyStatus g.showPick = true
    · rw [if_pos whole, if_pos whole]
      rfl
    · rw [if_neg whole, if_neg whole, statuses whole]
  have sameField : ∀ wire ∈ filterWires,
      fieldAt (sentFilters f) wire = fieldAt (sentFilters g) wire := by
    intro wire listed
    by_cases status : wire = .status
    · rw [status, sameStatus]
    · rw [fieldAt_sentFilters f status, fieldAt_sentFilters g status, fields wire listed status]
  have later : (filterWires.flatMap fun wire => block wire.name (valuesAt q f wire)) =
      filterWires.flatMap fun wire => block wire.name (valuesAt q g wire) := by
    apply List.flatMap_congr
    intro wire listed
    have sent : ∀ h : FilterState, valuesAt q h wire = written (fieldAt (sentFilters h) wire) := by
      intro h
      cases wire with
      | q => exact absurd listed (by decide)
      | type => exact absurd listed (by decide)
      | _ => rfl
    rw [sent, sent, sameField wire listed]
  rw [searchPageParams_eq, searchPageParams_eq]
  unfold wires
  rw [List.flatMap_cons, List.flatMap_cons, List.flatMap_cons, List.flatMap_cons, later]
  unfold valuesAt
  rw [types]

/-! ### Records of fields -/

/-- The value of a name. -/
def fieldNamed (fields : Fields) (name : Str) : Option FieldValue :=
  (fields.find? fun entry => entry.1 = name).map Prod.snd

/-- A list of values matches any of them, in whatever order. -/
inductive SameField : Option FieldValue → Option FieldValue → Prop where
  | refl (field : Option FieldValue) : SameField field field
  | reordered {left right : List Str} (perm : left.Perm right) :
      SameField (some (.list left)) (some (.list right))

theorem sameField_listField_iff (left right : List Str) :
    SameField (listField left) (listField right) ↔ left.Perm right := by
  constructor
  · intro same
    cases left with
    | nil =>
        cases right with
        | nil => exact List.Perm.refl []
        | cons => cases same
    | cons =>
        cases right with
        | nil => cases same
        | cons =>
            cases same with
            | refl => exact List.Perm.refl _
            | reordered perm => exact perm
  · intro perm
    cases left with
    | nil =>
        rw [perm.nil_eq]
        exact .refl _
    | cons =>
        cases right with
        | nil => exact absurd perm.symm.nil_eq (by simp)
        | cons => exact .reordered perm

theorem fieldNamed_wire (f : FilterState) {wire : Wire} (listed : wire ∈ filterWires) :
    fieldNamed (eventFilterFields f) wire.name = fieldAt f wire := by
  unfold fieldNamed
  rw [lookup_eventFilterFields f wire listed]
  cases fieldAt f wire <;> rfl

theorem fieldNamed_other (f : FilterState) {name : Str}
    (unnamed : ∀ wire ∈ filterWires, wire.name ≠ name) :
    fieldNamed (eventFilterFields f) name = none := by
  unfold fieldNamed
  rw [← List.head?_filter, eventFilterFields_eq,
    filter_flatMap_of_other (fun _ => fst_of_mem_assign) unnamed]
  rfl

/-! ### The search read back -/

/-- The URL of a search reads back to the same search. -/
structure ReadsBack (q : Str) (f : FilterState) : Prop where
  types : searchTypes (readBack q f).showPick = searchTypes f.showPick
  fields : ∀ name, SameField (fieldNamed (eventFilterFields (readBack q f)) name)
    (fieldNamed (eventFilterFields f) name)
  again : searchPageParams (readQuery (searchPageParams q f)) (readBack q f) =
    searchPageParams q f

/-- The approver has a name that the gate lets in, and a pick of as many statuses as there are,
and of no other kind, has each of them. -/
structure SharedWhole (f : FilterState) : Prop where
  approver : approverPasses f.approvedBy = true
  statuses : f.showPick.length = filterStatuses.length →
    (∀ entry ∈ f.showPick, isStatus entry = true) → filterStatuses ⊆ f.showPick

theorem fields_iff (q : Str) (f : FilterState) :
    (∀ name, SameField (fieldNamed (eventFilterFields (readBack q f)) name)
        (fieldNamed (eventFilterFields f) name)) ↔
      ∀ wire ∈ filterWires, SameField (fieldAt (readBack q f) wire) (fieldAt f wire) := by
  constructor
  · intro same wire listed
    have here := same wire.name
    rw [fieldNamed_wire _ listed, fieldNamed_wire _ listed] at here
    exact here
  · intro same name
    by_cases named : ∃ wire ∈ filterWires, wire.name = name
    · obtain ⟨wire, listed, rfl⟩ := named
      rw [fieldNamed_wire _ listed, fieldNamed_wire _ listed]
      exact same wire listed
    · have unnamed : ∀ wire ∈ filterWires, wire.name ≠ name :=
        fun wire listed same => named ⟨wire, listed, same⟩
      rw [fieldNamed_other _ unnamed, fieldNamed_other _ unnamed]
      exact .refl _

/-- An approver's fields are texts, so that they are the same only when they are equal. -/
theorem approver_sameField_iff (q : Str) (f : FilterState) :
    SameField (fieldAt (readBack q f) .approvedBy) (fieldAt f .approvedBy) ∧
        SameField (fieldAt (readBack q f) .approvedByOrg) (fieldAt f .approvedByOrg) ↔
      approverPasses f.approvedBy = true := by
  rw [← approver_readBack q f]
  have equal : ∀ wire : Wire, wire = .approvedBy ∨ wire = .approvedByOrg →
      ∀ left, SameField left (fieldAt f wire) → left = fieldAt f wire := by
    intro wire approver left same
    have noList : ∀ values, fieldAt f wire ≠ some (.list values) := by
      intro values list
      unfold fieldAt at list
      generalize f.approvedBy = account at list
      obtain rfl | rfl := approver
      · cases account with
        | none => cases list
        | some account => cases account <;> cases list
      · cases account with
        | none => cases list
        | some account => cases account <;> cases list
    generalize fieldAt f wire = right at same noList
    cases same with
    | refl => rfl
    | reordered perm => exact absurd rfl (noList _)
  constructor
  · intro ⟨analyst, organization⟩
    exact ⟨equal .approvedBy (.inl rfl) _ analyst, equal .approvedByOrg (.inr rfl) _ organization⟩
  · intro ⟨analyst, organization⟩
    rw [analyst, organization]
    exact ⟨.refl _, .refl _⟩

section Vocabulary

variable {f : FilterState} (offered : ∀ entry ∈ f.showPick, entry ∈ showOnSearch)

include offered

/-- The statuses come back when a pick of as many as there are has each. -/
theorem status_sameField_iff (q : Str) :
    SameField (fieldAt (readBack q f) .status) (fieldAt f .status) ↔
      (f.showPick.length = filterStatuses.length →
        (∀ entry ∈ f.showPick, isStatus entry = true) → filterStatuses ⊆ f.showPick) := by
  rw [status_readBack, fieldAt_status]
  unfold sharedStatuses
  by_cases every : everyStatus f.showPick = true
  · obtain ⟨long, statuses⟩ := (everyStatus_eq_true_iff offered).mp every
    have whole : (splitShow f.showPick).statuses = f.showPick := List.filter_eq_self.mpr statuses
    have nodup : filterStatuses.Nodup := by
      decide
    rw [if_pos every, whole, sameField_listField_iff]
    constructor
    · intro perm _ _
      exact perm.subset
    · intro shared
      have part := (List.subperm_of_subset nodup (shared long statuses))
      exact part.perm_of_length_le (le_of_eq long)
  · rw [if_neg every]
    constructor
    · intro _ long statuses
      exact absurd ((everyStatus_eq_true_iff offered).mpr ⟨long, statuses⟩) every
    · intro _
      exact SameField.refl _

end Vocabulary

namespace Unshared

/-- A username with a space and a letter outside ASCII. -/
def approver : Str :=
  str "Ana Kova" ++ [0x10D]

def filters : FilterState :=
  { emptyFilters with approvedBy := some (.analyst approver) }

end Unshared

end Vidit.SearchPage
