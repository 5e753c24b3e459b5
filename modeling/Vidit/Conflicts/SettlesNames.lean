import Vidit.Conflicts.Sync
import Vidit.World.State

/-!
Contract: what a conflict sync leaves, and what a second one on the same page changes.

Owns:
- that a pass keeps names and QIDs unique and deletes no row;
- how a row whose QID the page does not carry can change;
- that a second pass changes nothing exactly when every title of the page names a row, and a
  page whose renames pass a name along in an order that leaves one free.

Proof shape: `Upsert` says what one turn does; each invariant is kept by a turn, by case on it, and
by the fold. `Visited` is what an entry's own turn leaves and no later turn undoes.
-/

namespace Vidit.Conflicts

open Vidit.Python Vidit.Accounts Vidit.Library Vidit.World

variable {uuids : UuidSource} {now : Instant} {rows later : List Conflict} {drawn next : Nat}
  {entry : PageEntry} {qid : Str} {pass : Pass} {page : List Resolved}

/-! ### The constraints of the table -/

/-- The primary key and the two unique columns. -/
structure Constraints (rows : List Conflict) : Prop where
  ids : (rows.map Conflict.id).Nodup
  names : KeyedBy Conflict.name rows
  qids : ∀ left ∈ rows, ∀ right ∈ rows, ∀ qid, left.wikidataId = some qid →
    right.wikidataId = some qid → left = right

/-- The UUIDs not drawn yet are on no row. -/
def Undrawn (uuids : UuidSource) (rows : List Conflict) (drawn : Nat) : Prop :=
  ∀ draw, drawn ≤ draw → uuids.draw draw ∉ rows.map Conflict.id

theorem Constraints.keyed (constraints : Constraints rows) : KeyedBy Conflict.id rows := by
  intro left inLeft right inRight same
  exact List.inj_on_of_nodup_map constraints.ids inLeft inRight same

theorem put_ids (written : Conflict) :
    (put rows written).map Conflict.id = rows.map Conflict.id := by
  unfold put
  rw [List.map_map]
  apply List.map_congr_left
  intro row _
  simp only [Function.comp_apply]
  split
  · rename_i same
    exact same.symm
  · rfl

/-- The rows after a write: the written one, and the others. -/
theorem mem_put {row written : Conflict} :
    row ∈ put rows written ↔
      (row = written ∧ ∃ old ∈ rows, old.id = written.id) ∨ (row ∈ rows ∧ row.id ≠ written.id) := by
  unfold put
  rw [List.mem_map]
  constructor
  · intro found
    obtain ⟨old, inRows, rfl⟩ := found
    by_cases same : old.id = written.id
    · rw [if_pos same]
      exact .inl ⟨rfl, old, inRows, same⟩
    · rw [if_neg same]
      exact .inr ⟨inRows, same⟩
  · intro cases
    obtain ⟨rfl, old, inRows, same⟩ | ⟨inRows, other⟩ := cases
    · exact ⟨old, inRows, if_pos same⟩
    · exact ⟨row, inRows, if_neg other⟩

/-- A write of a name and a QID that no other row has. -/
theorem Constraints.put (constraints : Constraints rows) {written : Conflict}
    (name : ∀ other ∈ rows, other.name = written.name → other.id = written.id)
    (qid : ∀ other ∈ rows, ∀ qid, other.wikidataId = some qid → written.wikidataId = some qid →
      other.id = written.id) : Constraints (put rows written) where
  ids := by
    rw [put_ids]
    exact constraints.ids
  names := by
    intro left inLeft right inRight same
    obtain ⟨rfl, _⟩ | ⟨leftRow, leftOther⟩ := mem_put.mp inLeft
    · obtain ⟨rfl, _⟩ | ⟨rightRow, rightOther⟩ := mem_put.mp inRight
      · rfl
      · exact absurd (name right rightRow same.symm) rightOther
    · obtain ⟨rfl, _⟩ | ⟨rightRow, _⟩ := mem_put.mp inRight
      · exact absurd (name left leftRow same) leftOther
      · exact constraints.names left leftRow right rightRow same
  qids := by
    intro left inLeft right inRight found leftFound rightFound
    obtain ⟨rfl, _⟩ | ⟨leftRow, leftOther⟩ := mem_put.mp inLeft
    · obtain ⟨rfl, _⟩ | ⟨rightRow, rightOther⟩ := mem_put.mp inRight
      · rfl
      · exact absurd (qid right rightRow found rightFound leftFound) rightOther
    · obtain ⟨rfl, _⟩ | ⟨rightRow, _⟩ := mem_put.mp inRight
      · exact absurd (qid left leftRow found leftFound rightFound) leftOther
      · exact constraints.qids left leftRow right rightRow found leftFound rightFound

theorem Constraints.concat (constraints : Constraints rows) {row : Conflict}
    (id : row.id ∉ rows.map Conflict.id) (name : ∀ other ∈ rows, other.name ≠ row.name)
    (qid : ∀ other ∈ rows, ∀ qid, other.wikidataId = some qid → row.wikidataId ≠ some qid) :
    Constraints (rows ++ [row]) where
  ids := by
    rw [List.map_append, List.nodup_append]
    refine ⟨constraints.ids, List.nodup_singleton _, ?_⟩
    intro old inIds new isNew same
    rw [same, List.mem_singleton.mp isNew] at inIds
    exact id inIds
  names := constraints.names.concat name
  qids := by
    intro left inLeft right inRight found leftFound rightFound
    obtain leftRow | leftNew := List.mem_append.mp inLeft
    · obtain rightRow | rightNew := List.mem_append.mp inRight
      · exact constraints.qids left leftRow right rightRow found leftFound rightFound
      · rw [List.mem_singleton.mp rightNew] at rightFound
        exact absurd rightFound (qid left leftRow found leftFound)
    · rw [List.mem_singleton.mp leftNew] at leftFound ⊢
      obtain rightRow | rightNew := List.mem_append.mp inRight
      · exact absurd leftFound (qid right rightRow found rightFound)
      · exact (List.mem_singleton.mp rightNew).symm

theorem Upsert.constraints (upsert : Upsert uuids now rows drawn entry qid later next)
    (constraints : Constraints rows) (undrawn : Undrawn uuids rows drawn) :
    Constraints later ∧ Undrawn uuids later next := by
  have kept : ∀ written : Conflict, Undrawn uuids (put rows written) drawn := by
    intro written draw above
    rw [put_ids]
    exact undrawn draw above
  cases upsert with
  | refused _ _ _ _ => exact ⟨constraints, undrawn⟩
  | @seen row listed known _ =>
      refine ⟨constraints.put ?_ ?_, kept _⟩
      · intro other inRows same
        show other.id = row.id
        rw [constraints.names other inRows row listed same]
      · intro other inRows found otherFound rowFound
        show other.id = row.id
        rw [constraints.qids other inRows row listed found otherFound rowFound]
  | @renamed row listed known _ free =>
      refine ⟨constraints.put free ?_, kept _⟩
      intro other inRows found otherFound rowFound
      show other.id = row.id
      rw [constraints.qids other inRows row listed found otherFound rowFound]
  | @adopted row listed _ _ absent =>
      refine ⟨constraints.put ?_ ?_, kept _⟩
      · intro other inRows same
        show other.id = row.id
        rw [constraints.names other inRows row listed same]
      · intro other inRows found otherFound rowFound
        rw [← rowFound] at otherFound
        exact absurd otherFound (absent other inRows)
  | created absent free =>
      refine ⟨constraints.concat (undrawn drawn le_rfl) free ?_, ?_⟩
      · intro other inRows found otherFound rowFound
        rw [← rowFound] at otherFound
        exact absurd otherFound (absent other inRows)
      · intro draw above member
        rw [List.map_append, List.mem_append] at member
        obtain old | new := member
        · exact undrawn draw (by omega) old
        · have same := uuids.draw_injective (List.mem_singleton.mp new)
          omega

/-! ### Rows that stay -/

/-- A row that is not the entry's and not adopted by it is not touched. -/
theorem Upsert.kept (upsert : Upsert uuids now rows drawn entry qid later next)
    (constraints : Constraints rows) {row : Conflict} (member : row ∈ rows)
    (other : row.wikidataId ≠ some qid) (owned : row.wikidataId = none → row.name ≠ entry.name) :
    row ∈ later := by
  have apart : ∀ {target : Conflict}, target ∈ rows → target.wikidataId = some qid →
      row.id ≠ target.id := by
    intro target listed known same
    rw [constraints.keyed row member target listed same] at other
    exact other known
  cases upsert with
  | refused _ _ _ _ => exact member
  | @seen target listed known _ =>
      have different : row.id ≠ target.id := apart listed known
      exact mem_put.mpr (.inr ⟨member, different⟩)
  | @renamed target listed known _ _ =>
      have different : row.id ≠ target.id := apart listed known
      exact mem_put.mpr (.inr ⟨member, different⟩)
  | @adopted target listed named unowned _ =>
      apply mem_put.mpr
      refine .inr ⟨member, ?_⟩
      intro same
      have equal := constraints.keyed row member target listed same
      rw [equal] at owned
      exact owned unowned named
  | created _ _ => exact List.mem_append_left _ member

/-- Every row of a turn was there under its key, or was created. -/
theorem Upsert.ids_subset (upsert : Upsert uuids now rows drawn entry qid later next) :
    ∀ id ∈ rows.map Conflict.id, id ∈ later.map Conflict.id := by
  intro id member
  cases upsert with
  | refused _ _ _ _ => exact member
  | seen _ _ _ | renamed _ _ _ _ | adopted _ _ _ _ =>
      rw [put_ids]
      exact member
  | created _ _ =>
      rw [List.map_append]
      exact List.mem_append_left _ member

/-- A row after a turn was there before, or has the entry's QID. -/
theorem Upsert.mem (upsert : Upsert uuids now rows drawn entry qid later next) {row : Conflict}
    (member : row ∈ later) : row ∈ rows ∨ row.wikidataId = some qid := by
  cases upsert with
  | refused _ _ _ _ => exact .inl member
  | seen _ known _ | renamed _ known _ _ =>
      obtain ⟨rfl, _⟩ | ⟨old, _⟩ := mem_put.mp member
      · exact .inr known
      · exact .inl old
  | adopted _ _ _ _ =>
      obtain ⟨rfl, _⟩ | ⟨old, _⟩ := mem_put.mp member
      · exact .inr rfl
      · exact .inl old
  | created _ _ =>
      obtain old | new := List.mem_append.mp member
      · exact .inl old
      · rw [List.mem_singleton.mp new]
        exact .inr rfl

/-! ### An entry that had its turn -/

@[simp] theorem refresh_refresh (row : Conflict) :
    (row.refresh entry now).refresh entry now = row.refresh entry now := by
  unfold Conflict.refresh
  cases row.startYear <;> simp

/-- The row of the entry's QID is as the entry leaves it, or no row has the QID and the name is
another's. -/
def Visited (now : Instant) (rows : List Conflict) (entry : PageEntry) (qid : Str) : Prop :=
  (∃ row ∈ rows, row.wikidataId = some qid ∧ row.refresh entry now = row) ∨
    (∀ row ∈ rows, row.wikidataId ≠ some qid) ∧
      ∀ row ∈ rows, row.name = entry.name → row.wikidataId ≠ none

/-- An entry's own turn. -/
theorem Upsert.visited (upsert : Upsert uuids now rows drawn entry qid later next)
    (constraints : Constraints rows) : Visited now later entry qid := by
  cases upsert with
  | refused listed named owned absent =>
      right
      refine ⟨absent, ?_⟩
      intro row member same
      rw [constraints.names row member _ listed (same.trans named.symm)]
      exact owned
  | @seen row listed known _ =>
      exact .inl ⟨_, mem_put.mpr (.inl ⟨rfl, row, listed, rfl⟩), known, refresh_refresh _⟩
  | @renamed row listed known _ _ =>
      exact .inl ⟨_, mem_put.mpr (.inl ⟨rfl, row, listed, rfl⟩), known, refresh_refresh _⟩
  | @adopted row listed _ _ _ =>
      exact .inl ⟨_, mem_put.mpr (.inl ⟨rfl, row, listed, rfl⟩), rfl, refresh_refresh _⟩
  | created _ _ =>
      exact .inl ⟨_, List.mem_append_right _ (List.mem_singleton.mpr rfl), rfl, refresh_refresh _⟩

/-- The turn of another QID. -/
theorem Visited.step {seen : PageEntry} {known : Str} (visited : Visited now rows seen known)
    (upsert : Upsert uuids now rows drawn entry qid later next) (constraints : Constraints rows)
    (different : known ≠ qid) : Visited now later seen known := by
  obtain ⟨row, member, found, refreshed⟩ | ⟨absent, owned⟩ := visited
  · left
    refine ⟨row, upsert.kept constraints member ?_ ?_, found, refreshed⟩
    · rw [found]
      exact fun same => different (Option.some.inj same)
    · rw [found]
      exact fun none => absurd none (Option.some_ne_none _)
  · right
    constructor
    · intro row member
      obtain old | new := upsert.mem member
      · exact absent row old
      · rw [new]
        exact fun same => different (Option.some.inj same).symm
    · intro row member named
      obtain old | new := upsert.mem member
      · exact owned row old named
      · rw [new]
        exact Option.some_ne_none _

/-- In its own turn an entry finds its name, or takes it. -/
theorem Upsert.named (upsert : Upsert uuids now rows drawn entry qid later next) :
    (∃ row ∈ rows, row.name = entry.name) ∨
      ∃ row ∈ later, row.name = entry.name ∧ row.wikidataId = some qid ∧
        row.refresh entry now = row := by
  cases upsert with
  | refused listed named _ _ | adopted listed named _ _ => exact .inl ⟨_, listed, named⟩
  | seen listed _ stays =>
      obtain same | ⟨other, inRows, named, _⟩ := stays
      · exact .inl ⟨_, listed, same⟩
      · exact .inl ⟨other, inRows, named⟩
  | @renamed row listed known _ _ =>
      right
      exact ⟨_, mem_put.mpr (.inl ⟨rfl, row, listed, rfl⟩), rfl, known, refresh_refresh _⟩
  | created _ _ =>
      right
      exact ⟨_, List.mem_append_right _ (List.mem_singleton.mpr rfl), rfl, rfl, refresh_refresh _⟩

theorem put_self {row : Conflict} (constraints : Constraints rows) (member : row ∈ rows) :
    put rows row = rows := by
  unfold put
  calc
    _ = rows.map id := by
        apply List.map_congr_left
        intro other inRows
        split
        · rename_i same
          exact constraints.keyed row member other inRows same.symm
        · rfl
    _ = rows := List.map_id _

/-- A second turn changes nothing, where the name is still some row's. -/
theorem Upsert.still (upsert : Upsert uuids now rows drawn entry qid later next)
    (constraints : Constraints rows) (visited : Visited now rows entry qid)
    (held : ∃ row ∈ rows, row.name = entry.name) : later = rows := by
  obtain ⟨holder, inRows, named⟩ := held
  cases upsert with
  | refused _ _ _ _ => rfl
  | @seen row listed known _ =>
      obtain ⟨same, member, found, refreshed⟩ | ⟨absent, _⟩ := visited
      · have equal := constraints.qids same member row listed qid found known
        rw [equal] at refreshed
        rw [refreshed]
        exact put_self constraints listed
      · exact absurd known (absent row listed)
  | @renamed row listed _ differs free =>
      have equal := constraints.keyed holder inRows row listed (free holder inRows named)
      rw [equal] at named
      exact absurd named differs
  | @adopted row listed same unowned absent =>
      obtain ⟨other, member, found, _⟩ | ⟨_, owned⟩ := visited
      · exact absurd found (absent other member)
      · exact absurd unowned (owned row listed same)
  | created _ free => exact absurd named (free holder inRows)

/-! ### The loop -/

/-- The QIDs of a list of entries. -/
def qidsOf (items : List Resolved) : List Str :=
  items.filterMap Prod.snd

theorem mem_qidsOf {items : List Resolved} :
    qid ∈ qidsOf items ↔ ∃ entry, (entry, some qid) ∈ items := by
  unfold qidsOf
  rw [List.mem_filterMap]
  constructor
  · intro found
    obtain ⟨⟨entry, _⟩, member, rfl⟩ := found
    exact ⟨entry, member⟩
  · intro found
    obtain ⟨entry, member⟩ := found
    exact ⟨_, member, rfl⟩

/-- What holds of the entries visited so far, and of the rows no entry carries. -/
structure Swept (now : Instant) (turns : List Resolved) (before rows : List Conflict) : Prop where
  ids : ∀ id ∈ before.map Conflict.id, id ∈ rows.map Conflict.id
  visited : ∀ entry qid, (entry, some qid) ∈ turns → Visited now rows entry qid
  untouched : ∀ row ∈ before, (∀ qid ∈ qidsOf turns, row.wikidataId ≠ some qid) →
    row ∈ rows ∨ row.wikidataId = none ∧ ∃ entry qid, (entry, some qid) ∈ turns ∧
      row.name = entry.name ∧ { row with wikidataId := some qid }.refresh entry now ∈ rows

theorem Swept.step {visited : List Resolved} {before : List Conflict}
    (swept : Swept now visited before rows)
    (upsert : Upsert uuids now rows drawn entry qid later next) (constraints : Constraints rows)
    (new : qid ∉ qidsOf visited) : Swept now (visited ++ [(entry, some qid)]) before later := by
  have qids : qidsOf (visited ++ [(entry, some qid)]) = qidsOf visited ++ [qid] := by
    unfold qidsOf
    rw [List.filterMap_append]
    rfl
  constructor
  · intro id member
    exact upsert.ids_subset id (swept.ids id member)
  · intro other known member
    obtain old | this := List.mem_append.mp member
    · apply (swept.visited other known old).step upsert constraints
      intro same
      exact new (same ▸ mem_qidsOf.mpr ⟨other, old⟩)
    · cases List.mem_singleton.mp this
      exact upsert.visited constraints
  · intro row member uncarried
    rw [qids] at uncarried
    have notThis : row.wikidataId ≠ some qid := uncarried qid (by simp)
    have earlier : ∀ old ∈ qidsOf visited, row.wikidataId ≠ some old := by
      intro old inOld
      exact uncarried old (List.mem_append_left _ inOld)
    obtain kept | ⟨none, adopter, known, inVisited, named, adopted⟩ :=
      swept.untouched row member earlier
    · by_cases adopts : row.wikidataId = none ∧ row.name = entry.name
      · -- the entry's own row, or the row it adopts
        obtain ⟨unowned, named⟩ := adopts
        by_cases stays : row ∈ later
        · exact .inl stays
        · right
          refine ⟨unowned, entry, qid, by simp, named, ?_⟩
          cases upsert with
          | refused _ _ _ _ => exact absurd kept stays
          | @seen target listed known _ | @renamed target listed known _ _ =>
              exfalso
              apply stays
              apply mem_put.mpr
              refine .inr ⟨kept, ?_⟩
              intro same
              have equal := constraints.keyed row kept target listed same
              rw [equal, known] at unowned
              cases unowned
          | @adopted target listed targetNamed _ _ =>
              have equal := constraints.names row kept target listed (named.trans targetNamed.symm)
              rw [equal]
              exact mem_put.mpr (.inl ⟨rfl, target, listed, rfl⟩)
          | created _ _ => exact absurd (List.mem_append_left _ kept) stays
      · left
        apply upsert.kept constraints kept notThis
        intro unowned named
        exact adopts ⟨unowned, named⟩
    · right
      refine ⟨none, adopter, known, List.mem_append_left _ inVisited, named, ?_⟩
      apply upsert.kept constraints adopted
      · intro same
        rw [Conflict.refresh_wikidataId, Option.some.injEq] at same
        exact new (same ▸ mem_qidsOf.mpr ⟨adopter, inVisited⟩)
      · intro absurdity
        cases absurdity

/-- The state of a pass over the entries `visited`. -/
structure Sweeping (uuids : UuidSource) (now : Instant) (before : List Conflict)
    (visited : List Resolved) (pass : Pass) : Prop where
  constraints : Constraints pass.rows
  undrawn : Undrawn uuids pass.rows pass.drawn
  swept : Swept now visited before pass.rows

theorem Sweeping.step {before : List Conflict} {visited : List Resolved} {item : Resolved}
    (sweeping : Sweeping uuids now before visited pass)
    (new : ∀ qid, item.2 = some qid → qid ∉ qidsOf visited) :
    Sweeping uuids now before (visited ++ [item]) (syncEntry uuids now pass item) := by
  obtain ⟨entry, known⟩ := item
  cases known with
  | none =>
      have same : qidsOf (visited ++ [(entry, none)]) = qidsOf visited := by
        unfold qidsOf
        rw [List.filterMap_append]
        exact List.append_nil _
      refine ⟨sweeping.constraints, sweeping.undrawn, sweeping.swept.ids, ?_, ?_⟩
      · intro other qid member
        obtain old | this := List.mem_append.mp member
        · exact sweeping.swept.visited other qid old
        · cases List.mem_singleton.mp this
      · intro row member uncarried
        rw [same] at uncarried
        obtain kept | ⟨none, adopter, qid, inVisited, adopted⟩ :=
          sweeping.swept.untouched row member uncarried
        · exact .inl kept
        · exact .inr ⟨none, adopter, qid, List.mem_append_left _ inVisited, adopted⟩
  | some qid =>
      have upsert := syncEntry_upsert uuids now pass entry qid
      have keeps := upsert.constraints sweeping.constraints sweeping.undrawn
      exact ⟨keeps.1, keeps.2, sweeping.swept.step upsert sweeping.constraints (new qid rfl)⟩

theorem Sweeping.run {before : List Conflict} {visited items : List Resolved}
    (sweeping : Sweeping uuids now before visited pass)
    (once : (qidsOf (visited ++ items)).Nodup) :
    Sweeping uuids now before (visited ++ items) (items.foldl (syncEntry uuids now) pass) := by
  induction items generalizing visited pass with
  | nil =>
      rw [List.append_nil]
      exact sweeping
  | cons item rest inductionHypothesis =>
      have next : visited ++ item :: rest = (visited ++ [item]) ++ rest := by simp
      rw [next] at once ⊢
      rw [List.foldl_cons]
      apply inductionHypothesis _ once
      apply sweeping.step
      intro qid found inVisited
      unfold qidsOf at once inVisited
      rw [List.filterMap_append, List.filterMap_append, List.append_assoc, List.nodup_append] at once
      apply once.2.2 qid inVisited qid _ rfl
      apply List.mem_append_left
      rw [List.mem_filterMap]
      exact ⟨item, List.mem_singleton.mpr rfl, found⟩

theorem Sweeping.start (constraints : Constraints rows) (undrawn : Undrawn uuids rows drawn)
    (seen : Nat) : Sweeping uuids now rows [] (Pass.start seen rows drawn) where
  constraints := constraints
  undrawn := undrawn
  swept := ⟨fun _ member => member, by simp, fun _ member _ => .inl member⟩

/-- The turns of entries whose names are held, after they had theirs, change nothing. -/
theorem run_still {items : List Resolved} (constraints : Constraints pass.rows)
    (visited : ∀ entry qid, (entry, some qid) ∈ items → Visited now pass.rows entry qid)
    (held : ∀ entry qid, (entry, some qid) ∈ items → ∃ row ∈ pass.rows, row.name = entry.name) :
    (items.foldl (syncEntry uuids now) pass).rows = pass.rows := by
  induction items generalizing pass with
  | nil => rfl
  | cons item rest inductionHypothesis =>
      obtain ⟨entry, known⟩ := item
      have same : (syncEntry uuids now pass (entry, known)).rows = pass.rows := by
        cases known with
        | none => rfl
        | some qid =>
            exact (syncEntry_upsert uuids now pass entry qid).still constraints (visited entry qid List.mem_cons_self)
              (held entry qid List.mem_cons_self)
      rw [List.foldl_cons, ← same]
      apply inductionHypothesis
      · rw [same]
        exact constraints
      · intro other qid member
        rw [same]
        exact visited other qid (List.mem_cons_of_mem _ member)
      · intro other qid member
        rw [same]
        exact held other qid (List.mem_cons_of_mem _ member)

/-- A row with its QID stays through the turns of other QIDs. -/
theorem run_keeps {items : List Resolved} {row : Conflict} (constraints : Constraints pass.rows)
    (undrawn : Undrawn uuids pass.rows pass.drawn) (member : row ∈ pass.rows)
    (found : row.wikidataId = some qid) (other : qid ∉ qidsOf items) :
    row ∈ (items.foldl (syncEntry uuids now) pass).rows := by
  induction items generalizing pass with
  | nil => exact member
  | cons item rest inductionHypothesis =>
      obtain ⟨entry, known⟩ := item
      rw [List.foldl_cons]
      have later : qid ∉ qidsOf rest := by
        intro inRest
        obtain ⟨entry, inRest⟩ := mem_qidsOf.mp inRest
        exact other (mem_qidsOf.mpr ⟨entry, List.mem_cons_of_mem _ inRest⟩)
      cases known with
      | none => exact inductionHypothesis constraints undrawn member later
      | some known =>
          have upsert := syncEntry_upsert uuids now pass entry known
          have keeps := upsert.constraints constraints undrawn
          apply inductionHypothesis keeps.1 keeps.2 _ later
          apply upsert.kept constraints member
          · rw [found]
            intro same
            apply other
            rw [Option.some.inj same]
            exact mem_qidsOf.mpr ⟨entry, List.mem_cons_self⟩
          · rw [found]
            exact fun none => absurd none (Option.some_ne_none _)

/-- Where a name is no row's, a turn gives it to a row. -/
theorem run_takes {items : List Resolved} (constraints : Constraints pass.rows)
    (undrawn : Undrawn uuids pass.rows pass.drawn) (distinct : (qidsOf items).Nodup)
    (visited : ∀ entry qid, (entry, some qid) ∈ items → Visited now pass.rows entry qid)
    (listed : (entry, some qid) ∈ items) (free : ∀ row ∈ pass.rows, row.name ≠ entry.name) :
    ∃ row ∈ (items.foldl (syncEntry uuids now) pass).rows, row ∉ pass.rows ∧
      ∃ seen, row.refresh seen now = row := by
  induction items generalizing pass with
  | nil => cases listed
  | cons item rest inductionHypothesis =>
      obtain ⟨head, known⟩ := item
      rw [List.foldl_cons]
      cases known with
      | none =>
          have later := (List.mem_cons.mp listed).resolve_left (by simp)
          have skipped : (syncEntry uuids now pass (head, none)).rows = pass.rows := rfl
          rw [← skipped] at constraints visited free ⊢
          apply inductionHypothesis constraints undrawn distinct _ later free
          intro other known member
          exact visited other known (List.mem_cons_of_mem _ member)
      | some known =>
          have upsert := syncEntry_upsert uuids now pass head known
          have keeps := upsert.constraints constraints undrawn
          obtain ⟨new, distinct⟩ := List.nodup_cons.mp distinct
          by_cases held : ∃ row ∈ pass.rows, row.name = head.name
          · -- the turn changes nothing, and the free name is a later entry's
            have same := upsert.still constraints (visited head known List.mem_cons_self) held
            rw [← same]
            rw [← same] at visited free
            apply inductionHypothesis keeps.1 keeps.2 distinct _ _ free
            · intro other known member
              exact visited other known (List.mem_cons_of_mem _ member)
            · obtain here | later := List.mem_cons.mp listed
              · cases here
                obtain ⟨row, member, named⟩ := held
                rw [← same] at member
                exact absurd named (free row member)
              · exact later
          · obtain old | ⟨row, member, named, found, refreshed⟩ := upsert.named
            · exact absurd old held
            · refine ⟨row, run_keeps keeps.1 keeps.2 member found new, ?_, head, refreshed⟩
              exact fun old => held ⟨row, old, named⟩

/-! ### The grace-period sweep -/

@[simp] theorem age_id (row : Conflict) : (row.age now).id = row.id := by
  unfold Conflict.age
  split <;> rfl

@[simp] theorem age_name (row : Conflict) : (row.age now).name = row.name := by
  unfold Conflict.age
  split <;> rfl

@[simp] theorem age_wikidataId (row : Conflict) : (row.age now).wikidataId = row.wikidataId := by
  unfold Conflict.age
  split <;> rfl

@[simp] theorem age_age (row : Conflict) : (row.age now).age now = row.age now := by
  cases expired : row.isExpired now with
  | true =>
      have aged : row.age now = { row with isOngoing := false } := by
        unfold Conflict.age
        rw [if_pos expired]
      rw [aged]
      rfl
  | false =>
      have same : row.age now = row := by
        unfold Conflict.age
        rw [if_neg (by simp [expired])]
      rw [same, same]

/-- A row seen in the pass is not past the grace period. -/
theorem age_refresh {row : Conflict} (refreshed : row.refresh entry now = row) :
    row.age now = row := by
  have seen : row.lastSeenAt = some now := congrArg Conflict.lastSeenAt refreshed.symm
  unfold Conflict.age Conflict.isExpired
  rw [seen]
  have positive : 0 < gracePeriod := by decide
  have recent : ¬ now < now - gracePeriod := not_lt.mpr (Int.sub_le_self now positive.le)
  simp [recent]

theorem Constraints.age (constraints : Constraints rows) :
    Constraints (rows.map (Conflict.age now)) where
  ids := by
    rw [List.map_map]
    have same : Conflict.id ∘ Conflict.age now = Conflict.id := by
      funext row
      exact age_id row
    rw [same]
    exact constraints.ids
  names := constraints.names.map age_name
  qids := by
    intro left inLeft right inRight qid leftFound rightFound
    obtain ⟨first, inFirst, rfl⟩ := List.mem_map.mp inLeft
    obtain ⟨second, inSecond, rfl⟩ := List.mem_map.mp inRight
    rw [age_wikidataId] at leftFound rightFound
    rw [constraints.qids first inFirst second inSecond qid leftFound rightFound]

theorem undrawn_age (undrawn : Undrawn uuids rows drawn) :
    Undrawn uuids (rows.map (Conflict.age now)) drawn := by
  intro draw above member
  apply undrawn draw above
  rw [List.map_map] at member
  obtain ⟨row, inRows, same⟩ := List.mem_map.mp member
  rw [Function.comp_apply, age_id] at same
  exact List.mem_map.mpr ⟨row, inRows, same⟩

theorem Visited.age (visited : Visited now rows entry qid) :
    Visited now (rows.map (Conflict.age now)) entry qid := by
  obtain ⟨row, member, found, refreshed⟩ | ⟨absent, owned⟩ := visited
  · exact .inl ⟨row, List.mem_map.mpr ⟨row, member, age_refresh refreshed⟩, found, refreshed⟩
  · right
    constructor
    · intro row member
      obtain ⟨old, inRows, rfl⟩ := List.mem_map.mp member
      rw [age_wikidataId]
      exact absent old inRows
    · intro row member named
      obtain ⟨old, inRows, rfl⟩ := List.mem_map.mp member
      rw [age_name] at named
      rw [age_wikidataId]
      exact owned old inRows named

/-! ### The page -/

theorem dedupe_subset {seen : List Str} {item : Resolved} (member : item ∈ dedupe page seen) :
    item ∈ page := by
  induction page generalizing seen with
  | nil => exact member
  | cons head rest inductionHypothesis =>
      obtain ⟨entry, known⟩ := head
      cases known with
      | none =>
          rw [dedupe] at member
          obtain here | later := List.mem_cons.mp member
          · exact here ▸ List.mem_cons_self
          · exact List.mem_cons_of_mem _ (inductionHypothesis later)
      | some qid =>
          rw [dedupe] at member
          split at member
          · exact List.mem_cons_of_mem _ (inductionHypothesis member)
          · obtain here | later := List.mem_cons.mp member
            · exact here ▸ List.mem_cons_self
            · exact List.mem_cons_of_mem _ (inductionHypothesis later)

theorem dedupe_once (seen : List Str) :
    (qidsOf (dedupe page seen)).Nodup ∧ ∀ qid ∈ qidsOf (dedupe page seen), qid ∉ seen := by
  induction page generalizing seen with
  | nil => exact ⟨List.nodup_nil, by simp [dedupe, qidsOf]⟩
  | cons head rest inductionHypothesis =>
      obtain ⟨entry, known⟩ := head
      cases known with
      | none =>
          rw [dedupe]
          exact inductionHypothesis seen
      | some qid =>
          rw [dedupe]
          split
          · exact inductionHypothesis seen
          · rename_i new
            have later := inductionHypothesis (qid :: seen)
            have split : qidsOf ((entry, some qid) :: dedupe rest (qid :: seen)) =
                qid :: qidsOf (dedupe rest (qid :: seen)) := rfl
            rw [split]
            constructor
            · rw [List.nodup_cons]
              exact ⟨fun again => later.2 qid again List.mem_cons_self, later.1⟩
            · intro other member
              obtain rfl | inRest := List.mem_cons.mp member
              · exact new
              · exact fun old => later.2 other inRest (List.mem_cons_of_mem _ old)

/-- A page of distinct QIDs is visited whole. -/
theorem dedupe_distinct {seen : List Str} (distinct : (qidsOf page).Nodup)
    (new : ∀ qid ∈ qidsOf page, qid ∉ seen) : dedupe page seen = page := by
  induction page generalizing seen with
  | nil => rfl
  | cons head rest inductionHypothesis =>
      obtain ⟨entry, known⟩ := head
      cases known with
      | none =>
          rw [dedupe, inductionHypothesis distinct new]
      | some qid =>
          have split : qidsOf ((entry, some qid) :: rest) = qid :: qidsOf rest := rfl
          rw [split] at distinct new
          rw [List.nodup_cons] at distinct
          rw [dedupe, if_neg (new qid List.mem_cons_self)]
          rw [inductionHypothesis distinct.2]
          intro other inRest inSeen
          obtain rfl | old := List.mem_cons.mp inSeen
          · exact distinct.1 inRest
          · exact new other (List.mem_cons_of_mem _ inRest) old

/-! ### The law of a pass -/

/-- What a pass leaves: unique names and QIDs, every row, and of a row the page does not carry
only an adoption or the grace-period sweep; and when the next pass leaves it as it is. -/
structure SyncLaw (uuids : UuidSource) (now : Instant) (page : List Resolved)
    (rows : List Conflict) (after : Pass) : Prop where
  constraints : Constraints after.rows
  undeleted : ∀ row ∈ rows, row.id ∈ after.rows.map Conflict.id
  untouched : ∀ row ∈ rows, (∀ qid ∈ qidsOf page, row.wikidataId ≠ some qid) →
    row.age now ∈ after.rows ∨ row.wikidataId = none ∧ ∃ entry qid, (entry, some qid) ∈ page ∧
      row.name = entry.name ∧ { row with wikidataId := some qid }.refresh entry now ∈ after.rows
  again : ∃ second, syncConflicts uuids now page after.rows after.drawn = .ok second ∧
    (second.rows = after.rows ↔
      ∀ entry qid, (entry, some qid) ∈ page → ∃ row ∈ after.rows, row.name = entry.name)

theorem syncConflicts_ok {after : Pass}
    (synced : syncConflicts uuids now page rows drawn = .ok after) :
    minExpected ≤ (page.filter fun item => item.2.isSome).length ∧
      after = ((dedupe page []).foldl (syncEntry uuids now)
        (Pass.start page.length rows drawn)).deactivate now := by
  unfold syncConflicts at synced
  simp only [bind_eq_ok, require_eq_ok, pure_eq_ok] at synced
  obtain ⟨_, enough, rfl⟩ := synced
  exact ⟨enough, rfl⟩

theorem syncConflicts_of_enough
    (enough : minExpected ≤ (page.filter fun item => item.2.isSome).length) :
    syncConflicts uuids now page rows drawn =
      .ok (((dedupe page []).foldl (syncEntry uuids now)
        (Pass.start page.length rows drawn)).deactivate now) := by
  unfold syncConflicts
  simp only [bind_eq_ok, require_eq_ok, pure_eq_ok]
  exact ⟨⟨⟩, enough, trivial⟩

/-- A pass over a page of distinct QIDs keeps its law: a second one changes nothing exactly when
each title of the page names a row after the first. -/
theorem syncConflicts_law {after : Pass} (constraints : Constraints rows)
    (undrawn : Undrawn uuids rows drawn) (distinct : (qidsOf page).Nodup)
    (synced : syncConflicts uuids now page rows drawn = .ok after) :
    SyncLaw uuids now page rows after := by
  obtain ⟨enough, rfl⟩ := syncConflicts_ok synced
  rw [dedupe_distinct distinct (by simp)]
  have sweeping : Sweeping uuids now rows page _ :=
    (Sweeping.start constraints undrawn page.length).run distinct
  generalize page.foldl (syncEntry uuids now) (Pass.start page.length rows drawn) = pass
    at sweeping ⊢
  have aged : Constraints (pass.deactivate now).rows := sweeping.constraints.age
  have visited : ∀ entry qid, (entry, some qid) ∈ page →
      Visited now (pass.deactivate now).rows entry qid := fun entry qid member =>
    (sweeping.swept.visited entry qid member).age
  constructor
  · exact aged
  · intro row member
    have kept := sweeping.swept.ids row.id (List.mem_map_of_mem member)
    obtain ⟨later, inRows, same⟩ := List.mem_map.mp kept
    rw [← same]
    exact List.mem_map.mpr ⟨later.age now, List.mem_map_of_mem inRows, age_id later⟩
  · intro row member uncarried
    obtain kept | ⟨none, entry, qid, inPage, named, adopted⟩ :=
      sweeping.swept.untouched row member uncarried
    · exact .inl (List.mem_map_of_mem kept)
    · right
      refine ⟨none, entry, qid, inPage, named, ?_⟩
      rw [← age_refresh (refresh_refresh { row with wikidataId := some qid })]
      exact List.mem_map_of_mem adopted
  · refine ⟨_, syncConflicts_of_enough enough, ?_⟩
    rw [dedupe_distinct distinct (by simp)]
    have undrawn : Undrawn uuids (pass.deactivate now).rows (pass.deactivate now).drawn :=
      undrawn_age sweeping.undrawn
    constructor
    · intro unchanged entry qid listed
      by_contra unheld
      have free : ∀ row ∈ (pass.deactivate now).rows, row.name ≠ entry.name :=
        fun row member named => unheld ⟨row, member, named⟩
      obtain ⟨row, member, new, seen, refreshed⟩ :
          ∃ row ∈ (page.foldl (syncEntry uuids now) (Pass.start page.length _ _)).rows,
            row ∉ (pass.deactivate now).rows ∧ ∃ seen, row.refresh seen now = row :=
        run_takes aged undrawn distinct visited listed free
      apply new
      rw [← unchanged]
      exact List.mem_map.mpr ⟨row, member, age_refresh refreshed⟩
    · intro held
      have still : (page.foldl (syncEntry uuids now)
          (Pass.start page.length _ (pass.deactivate now).drawn)).rows = (pass.deactivate now).rows :=
        run_still aged visited held
      calc
        _ = (pass.rows.map (Conflict.age now)).map (Conflict.age now) :=
            congrArg (List.map (Conflict.age now)) still
        _ = pass.rows.map (Conflict.age now) := ?_
      rw [List.map_map]
      apply List.map_congr_left
      intro row _
      exact age_age row

namespace PassedAlong

/-! ### A name passed along against the page's order -/

def listed (key : Nat) : Conflict where
  id := key
  name := natText key
  wikidataId := some (chr 'Q' :: natText key)
  startYear := none
  tier := some .conflict
  isOngoing := true
  lastSeenAt := some 0
  origin := .sync

/-- Rows 0 to 14, and one that left the page before the grace period. -/
def table : List Conflict :=
  (List.range 15).map listed ++ [listed 15]

def line (key : Nat) (title : Str) : Resolved :=
  (⟨title, .conflict, none⟩, some (chr 'Q' :: natText key))

/-- The name of 1 goes to 0, listed first, and 1 takes a new one. -/
def lines : List Resolved :=
  line 0 (natText 1) :: line 1 (str "renamed") ::
    ((List.range 15).drop 2).map fun key => line key (natText key)

def today : Instant := gracePeriod + 1

theorem table_constraints : Constraints table where
  ids := by decide
  names := by
    unfold KeyedBy
    decide
  qids := by
    have distinct : ∀ left ∈ table, ∀ right ∈ table,
        left.wikidataId = right.wikidataId → left = right := by decide
    intro left inLeft right inRight qid leftFound rightFound
    exact distinct left inLeft right inRight (leftFound.trans rightFound.symm)

theorem table_undrawn : Undrawn smallUuids table 16 := by
  intro draw above member
  have ids : table.map Conflict.id = List.range 16 := by decide
  rw [ids] at member
  have below : draw < 16 := List.mem_range.mp member
  omega

theorem lines_distinct : (qidsOf lines).Nodup := by decide

/-- A row the page does not carry is deactivated, and a second pass renames a row the first did
not. -/
theorem passed_along : Constraints table ∧ (qidsOf lines).Nodup ∧
    listed 15 ∈ table ∧ chr 'Q' :: natText 15 ∉ qidsOf lines ∧
    ∃ once twice, syncConflicts smallUuids today lines table 16 = .ok once ∧
      syncConflicts smallUuids today lines once.rows once.drawn = .ok twice ∧
      listed 15 ∉ once.rows ∧ twice.rows ≠ once.rows := by
  refine ⟨table_constraints, lines_distinct, by decide, by decide, _, _, rfl, rfl, ?_, ?_⟩
  · decide
  · decide

theorem passed_along_lawful : ∃ once,
    syncConflicts smallUuids today lines table 16 = .ok once ∧
      SyncLaw smallUuids today lines table once :=
  ⟨_, rfl, syncConflicts_law table_constraints table_undrawn lines_distinct rfl⟩

end PassedAlong

end Vidit.Conflicts
