import Mathlib.Logic.Function.Basic

/-!
Contract: one table as transactions at READ COMMITTED see it, under row locks.

A row has a committed value and at most one transaction that holds its lock,
with the value that transaction would commit. A transaction reads its own
values and the committed ones; nobody else reads an uncommitted value.

Owns:
- the table, its reads and its writes;
- commit and rollback, and what each does to the committed rows and to what the
  other transactions read.

Does not own: statements, their order, or the tables of any program.
-/

namespace Vidit.Library

universe u v w

/-- A row: its committed value, and the transaction that holds its lock with
the value it would commit. -/
structure Cell (τ : Type u) (ρ : Type v) where
  committed : Option ρ
  held : Option (τ × Option ρ)
deriving DecidableEq, Repr

structure Table (τ : Type u) (κ : Type w) (ρ : Type v) where
  /-- The keys any transaction has written so far. -/
  keys : List κ
  cell : κ → Cell τ ρ

namespace Table

variable {τ : Type u} {κ : Type w} {ρ : Type v}

/-- The table of committed rows that nobody holds. -/
def ofRows (keys : List κ) (row : κ → Option ρ) : Table τ κ ρ where
  keys := keys
  cell key := ⟨row key, none⟩

def committed (table : Table τ κ ρ) (key : κ) : Option ρ :=
  (table.cell key).committed

/-- The transaction that holds the row's lock. -/
def holder (table : Table τ κ ρ) (key : κ) : Option τ :=
  (table.cell key).held.map Prod.fst

section Reads

variable [DecidableEq τ] (table : Table τ κ ρ) (transaction : τ) (key : κ)

/-- What a transaction reads: its own value, else the committed one. -/
def read : Option ρ :=
  match (table.cell key).held with
  | some (holder, value) => if holder = transaction then value else (table.cell key).committed
  | none => (table.cell key).committed

/-- No other transaction holds the row. -/
def Free : Prop :=
  table.holder key = none ∨ table.holder key = some transaction

instance : Decidable (table.Free transaction key) := by
  unfold Free
  infer_instance

/-- The keys of the rows a transaction reads that meet a predicate. -/
def select (wanted : κ → ρ → Bool) : List κ :=
  table.keys.filter fun key => (table.read transaction key).any (wanted key)

/-- End a transaction, keeping the values it holds. -/
def commit : Table τ κ ρ :=
  { table with cell := fun key =>
      if table.holder key = some transaction then ⟨table.read transaction key, none⟩
      else table.cell key }

/-- End a transaction, dropping the values it holds. -/
def rollback : Table τ κ ρ :=
  { table with cell := fun key =>
      if table.holder key = some transaction then ⟨table.committed key, none⟩
      else table.cell key }

/-- The transaction holds no row. -/
def Holdless : Prop :=
  ∀ key, table.holder key ≠ some transaction

/-- An insert of a row that `clashes` under a unique constraint waits for this
key: another transaction holds it, and its row clashes before or after. -/
def AwaitsAt (clashes : ρ → Bool) : Bool :=
  match (table.cell key).held with
  | some (holder, value) => holder ≠ transaction &&
      (value.any clashes || (table.cell key).committed.any clashes)
  | none => false

/-- An insert waits for some row. -/
def Awaits (clashes : ρ → Bool) : Bool :=
  table.keys.any fun key => table.AwaitsAt transaction key clashes

/-- An insert violates a unique constraint. -/
def Clashes (clashes : ρ → Bool) : Bool :=
  table.keys.any fun key => (table.read transaction key).any clashes

end Reads

/-- A row some transaction may read under the key. -/
def Shows [DecidableEq τ] (table : Table τ κ ρ) (key : κ) (row : ρ) : Prop :=
  table.committed key = some row ∨ ∃ transaction, table.read transaction key = some row

/-- Every row any transaction may read is under a listed key. -/
def Listed [DecidableEq τ] (table : Table τ κ ρ) : Prop :=
  ∀ key row, table.Shows key row → key ∈ table.keys

/-- Every key is listed once, and every row any transaction may read is under one. -/
structure Indexed [DecidableEq τ] (table : Table τ κ ρ) : Prop where
  listed : table.Listed
  nodup : table.keys.Nodup

/-- Commit one row that nobody holds, at once. -/
def put [DecidableEq κ] (table : Table τ κ ρ) (key : κ) (value : Option ρ) : Table τ κ ρ where
  keys := key :: table.keys
  cell := Function.update table.cell key ⟨value, none⟩

/-- Take the row's lock with the value to commit. -/
def write [DecidableEq κ] (table : Table τ κ ρ) (transaction : τ) (key : κ)
    (value : Option ρ) : Table τ κ ρ where
  keys := if key ∈ table.keys then table.keys else table.keys ++ [key]
  cell := Function.update table.cell key ⟨table.committed key, some (transaction, value)⟩

/-- Take the row's lock and change nothing. -/
def lock [DecidableEq τ] [DecidableEq κ] (table : Table τ κ ρ) (transaction : τ) (key : κ) :
    Table τ κ ρ :=
  table.write transaction key (table.read transaction key)

/-- Write each of several rows the transaction reads. -/
def writeAll [DecidableEq τ] [DecidableEq κ] (table : Table τ κ ρ) (transaction : τ)
    (keys : List κ) (change : κ → ρ → Option ρ) : Table τ κ ρ :=
  { table with cell := fun key =>
      match table.read transaction key with
      | some row =>
        if key ∈ keys then ⟨table.committed key, some (transaction, change key row)⟩
        else table.cell key
      | none => table.cell key }

/-- A row that is read as locked stays as it is read. -/
theorem read_lock [DecidableEq τ] [DecidableEq κ] (table : Table τ κ ρ) (transaction : τ)
    (target key : κ) :
    (table.lock transaction target).read transaction key = table.read transaction key := by
  unfold lock write
  by_cases here : key = target
  · subst here
    simp [read]
  · simp [read, here]

theorem mem_select [DecidableEq τ] {table : Table τ κ ρ} {transaction : τ}
    {wanted : κ → ρ → Bool} {key : κ} :
    key ∈ table.select transaction wanted ↔
      key ∈ table.keys ∧ ∃ row, table.read transaction key = some row ∧ wanted key row := by
  simp only [select, List.mem_filter, Option.any_eq_true]

/-! ### What a write changes -/

section Write

variable [DecidableEq κ] (table : Table τ κ ρ) (transaction : τ) (key : κ) (value : Option ρ)

@[simp] theorem committed_write (other : κ) :
    (table.write transaction key value).committed other = table.committed other := by
  unfold write committed
  by_cases here : other = key
  · subst here
    simp only [Function.update_self]
  · simp only [Function.update_of_ne here]

theorem holder_write (other : κ) :
    (table.write transaction key value).holder other =
      if other = key then some transaction else table.holder other := by
  unfold write holder
  by_cases here : other = key
  · subst here
    simp
  · simp [here]

theorem mem_keys_write {other : κ} :
    other ∈ (table.write transaction key value).keys ↔ other ∈ table.keys ∨ other = key := by
  simp only [write]
  split
  · constructor
    · exact .inl
    · rintro (member | rfl)
      · exact member
      · assumption
  · simp

variable [DecidableEq τ]

theorem read_write (reader : τ) (other : κ) :
    (table.write transaction key value).read reader other =
      if other = key then if transaction = reader then value else table.committed key
      else table.read reader other := by
  by_cases here : other = key
  · subst here
    simp [write, read, committed]
  · simp [write, read, here]

@[simp] theorem read_write_self :
    (table.write transaction key value).read transaction key = value := by
  rw [read_write, if_pos rfl, if_pos rfl]

/-- A write to a free row is invisible to every other transaction. -/
theorem read_write_of_ne {reader : τ} (free : table.Free transaction key)
    (other : transaction ≠ reader) (row : κ) :
    (table.write transaction key value).read reader row = table.read reader row := by
  rw [read_write]
  by_cases here : row = key
  · subst here
    rw [if_pos rfl, if_neg other]
    unfold Free holder at free
    unfold read committed
    cases held : (table.cell row).held with
    | none => rfl
    | some pair =>
        rcases pair with ⟨holds, pending⟩
        simp only [held, Option.map_some, reduceCtorEq, Option.some.injEq, false_or] at free
        subst free
        simp [other]
  · rw [if_neg here]

end Write

section WriteAll

variable [DecidableEq τ] [DecidableEq κ] (table : Table τ κ ρ) (transaction : τ) (keys : List κ)
  (change : κ → ρ → Option ρ)

@[simp] theorem keys_writeAll : (table.writeAll transaction keys change).keys = table.keys := rfl

@[simp] theorem committed_writeAll (key : κ) :
    (table.writeAll transaction keys change).committed key = table.committed key := by
  show ((table.writeAll transaction keys change).cell key).committed = _
  unfold writeAll
  dsimp only
  split
  · split <;> rfl
  · rfl

theorem holder_writeAll (key : κ) :
    (table.writeAll transaction keys change).holder key =
      if key ∈ keys ∧ (table.read transaction key).isSome then some transaction
      else table.holder key := by
  show ((table.writeAll transaction keys change).cell key).held.map Prod.fst = _
  unfold writeAll
  dsimp only
  split
  · rename_i row reads
    by_cases member : key ∈ keys
    · simp [member, reads]
    · simp [member, holder]
  · rename_i reads
    simp [reads, holder]

theorem read_writeAll (key : κ) :
    (table.writeAll transaction keys change).read transaction key =
      if key ∈ keys then (table.read transaction key).bind (change key)
      else table.read transaction key := by
  have cell : (table.writeAll transaction keys change).cell key =
      match table.read transaction key with
      | some row =>
        if key ∈ keys then ⟨table.committed key, some (transaction, change key row)⟩
        else table.cell key
      | none => table.cell key := rfl
  cases reads : table.read transaction key with
  | none =>
      have same : (table.writeAll transaction keys change).read transaction key =
          table.read transaction key := by
        unfold read
        rw [cell, reads]
      simp [same, reads]
  | some row =>
      rw [reads] at cell
      by_cases member : key ∈ keys
      · rw [if_pos member, Option.bind_some]
        unfold read
        simp only [cell, member, ↓reduceIte]
      · have same : (table.writeAll transaction keys change).read transaction key =
            table.read transaction key := by
          unfold read
          simp only [cell, member, ↓reduceIte]
        simp [same, reads, member]

end WriteAll

section Put

variable [DecidableEq κ] (table : Table τ κ ρ) (key : κ) (value : Option ρ)

theorem committed_put (other : κ) :
    (table.put key value).committed other = if other = key then value else table.committed other := by
  unfold put committed
  by_cases here : other = key
  · subst here
    simp only [Function.update_self, ↓reduceIte]
  · simp only [Function.update_of_ne here, if_neg here]

theorem read_put [DecidableEq τ] (reader : τ) (other : κ) :
    (table.put key value).read reader other =
      if other = key then value else table.read reader other := by
  by_cases here : other = key
  · subst here
    simp [put, read]
  · simp [put, read, here]

end Put

/-! ### What the end of a transaction changes -/

section End

variable [DecidableEq τ] (table : Table τ κ ρ) (transaction : τ)

theorem read_of_holder_ne {key : κ} (other : table.holder key ≠ some transaction) :
    table.read transaction key = table.committed key := by
  unfold read committed
  unfold holder at other
  split
  · rename_i holds value held
    rw [if_neg]
    rintro rfl
    exact other (by rw [held]; rfl)
  · rfl

/-- What a transaction read of its rows is committed when it commits. -/
@[simp] theorem committed_commit (key : κ) :
    (table.commit transaction).committed key = table.read transaction key := by
  by_cases holds : table.holder key = some transaction
  · simp [commit, committed, holds]
  · rw [read_of_holder_ne table transaction holds]
    simp [commit, committed, holds]

@[simp] theorem committed_rollback (key : κ) :
    (table.rollback transaction).committed key = table.committed key := by
  by_cases holds : table.holder key = some transaction <;>
    simp [rollback, committed, holds]

theorem holder_commit (key : κ) :
    (table.commit transaction).holder key =
      if table.holder key = some transaction then none else table.holder key := by
  show ((table.commit transaction).cell key).held.map Prod.fst = _
  unfold commit
  by_cases holds : table.holder key = some transaction
  · simp only [if_pos holds, Option.map_none]
  · simp only [if_neg holds]
    rfl

theorem holder_rollback (key : κ) :
    (table.rollback transaction).holder key =
      if table.holder key = some transaction then none else table.holder key := by
  show ((table.rollback transaction).cell key).held.map Prod.fst = _
  unfold rollback
  by_cases holds : table.holder key = some transaction
  · simp only [if_pos holds, Option.map_none]
  · simp only [if_neg holds]
    rfl

theorem holdless_commit : (table.commit transaction).Holdless transaction := by
  intro key
  rw [holder_commit]
  split
  · simp
  · assumption

theorem holdless_rollback : (table.rollback transaction).Holdless transaction := by
  intro key
  rw [holder_rollback]
  split
  · simp
  · assumption

theorem read_of_holdless (holdless : table.Holdless transaction) (key : κ) :
    table.read transaction key = table.committed key :=
  read_of_holder_ne table transaction (holdless key)

/-- A transaction that has ended reads the committed row. -/
theorem read_commit_self (key : κ) :
    (table.commit transaction).read transaction key =
      (table.commit transaction).committed key := by
  apply read_of_holder_ne
  rw [holder_commit]
  split
  · simp
  · assumption

@[simp] theorem keys_commit : (table.commit transaction).keys = table.keys := rfl

@[simp] theorem keys_rollback : (table.rollback transaction).keys = table.keys := rfl

end End

/-! ### What a table shows -/

section Shows

variable [DecidableEq τ] {table : Table τ κ ρ} {transaction : τ} {key : κ} {row : ρ}

theorem Shows.of_read (reads : table.read transaction key = some row) : table.Shows key row :=
  .inr ⟨transaction, reads⟩

theorem Shows.of_committed (committed : table.committed key = some row) : table.Shows key row :=
  .inl committed

/-- A write shows its own value, and otherwise what the table showed. -/
theorem Shows.write [DecidableEq κ] {target : κ} {value : Option ρ}
    (shows' : (table.write transaction target value).Shows key row) :
    table.Shows key row ∨ key = target ∧ value = some row := by
  rcases shows' with committed | ⟨reader, reads⟩
  · rw [committed_write] at committed
    exact .inl (.of_committed committed)
  · rw [read_write] at reads
    split at reads
    · rename_i here
      split at reads
      · exact .inr ⟨here, reads⟩
      · rw [← here] at reads
        exact .inl (.of_committed reads)
    · exact .inl (.of_read reads)

/-- A row put in place is shown instead of what was there. -/
theorem Shows.put [DecidableEq κ] {target : κ} {value : Option ρ}
    (shows' : (table.put target value).Shows key row) :
    key = target ∧ value = some row ∨ key ≠ target ∧ table.Shows key row := by
  by_cases here : key = target
  · refine .inl ⟨here, ?_⟩
    rcases shows' with committed | ⟨reader, reads⟩
    · rw [committed_put, if_pos here] at committed
      exact committed
    · rw [read_put, if_pos here] at reads
      exact reads
  · refine .inr ⟨here, ?_⟩
    rcases shows' with committed | ⟨reader, reads⟩
    · rw [committed_put, if_neg here] at committed
      exact .of_committed committed
    · rw [read_put, if_neg here] at reads
      exact .of_read reads

theorem Shows.writeAll [DecidableEq κ] {keys : List κ} {change : κ → ρ → Option ρ}
    (shows' : (table.writeAll transaction keys change).Shows key row) :
    table.Shows key row ∨ ∃ before, table.read transaction key = some before ∧
      change key before = some row := by
  rcases shows' with committed | ⟨reader, reads⟩
  · rw [committed_writeAll] at committed
    exact .inl (.of_committed committed)
  · unfold Table.read at reads
    have cell : (table.writeAll transaction keys change).cell key =
        match table.read transaction key with
        | some before =>
          if key ∈ keys then ⟨table.committed key, some (transaction, change key before)⟩
          else table.cell key
        | none => table.cell key := rfl
    rw [cell] at reads
    cases own : table.read transaction key with
    | none =>
        simp only [own] at reads
        exact .inl (.of_read reads)
    | some before =>
        simp only [own] at reads
        by_cases member : key ∈ keys
        · simp only [if_pos member] at reads
          split at reads
          · exact .inr ⟨before, rfl, reads⟩
          · exact .inl (.of_committed reads)
        · simp only [if_neg member] at reads
          exact .inl (.of_read reads)

theorem Shows.commit (shows' : (table.commit transaction).Shows key row) :
    table.Shows key row := by
  rcases shows' with committed | ⟨reader, reads⟩
  · rw [committed_commit] at committed
    exact .of_read committed
  · by_cases held : table.holder key = some transaction
    · have released : (table.commit transaction).holder key ≠ some reader := by
        rw [holder_commit, if_pos held]
        simp
      rw [read_of_holder_ne _ _ released, committed_commit] at reads
      exact .of_read reads
    · have same : (table.commit transaction).cell key = table.cell key := by
        simp [Table.commit, held]
      unfold Table.read at reads
      rw [same] at reads
      exact .of_read reads

theorem Shows.rollback (shows' : (table.rollback transaction).Shows key row) :
    table.Shows key row := by
  rcases shows' with committed | ⟨reader, reads⟩
  · rw [committed_rollback] at committed
    exact .of_committed committed
  · by_cases held : table.holder key = some transaction
    · have released : (table.rollback transaction).holder key ≠ some reader := by
        rw [holder_rollback, if_pos held]
        simp
      rw [read_of_holder_ne _ _ released, committed_rollback] at reads
      exact .of_committed reads
    · have same : (table.rollback transaction).cell key = table.cell key := by
        simp [Table.rollback, held]
      unfold Table.read at reads
      rw [same] at reads
      exact .of_read reads

theorem Listed.write [DecidableEq κ] (listed : table.Listed) (target : κ) (value : Option ρ) :
    (table.write transaction target value).Listed := by
  intro key row shows'
  rw [mem_keys_write]
  rcases shows'.write with before | ⟨here, _⟩
  · exact .inl (listed key row before)
  · exact .inr here

theorem Listed.writeAll [DecidableEq κ] (listed : table.Listed) (keys : List κ)
    (change : κ → ρ → Option ρ) : (table.writeAll transaction keys change).Listed := by
  intro key row shows'
  rw [keys_writeAll]
  rcases shows'.writeAll with before | ⟨earlier, reads, _⟩
  · exact listed key row before
  · exact listed key earlier (.of_read reads)

theorem Listed.commit (listed : table.Listed) (transaction : τ) :
    (table.commit transaction).Listed :=
  fun key row shows' => listed key row shows'.commit

theorem Listed.rollback (listed : table.Listed) (transaction : τ) :
    (table.rollback transaction).Listed :=
  fun key row shows' => listed key row shows'.rollback

theorem Indexed.write [DecidableEq κ] (indexed : table.Indexed) (target : κ)
    (value : Option ρ) : (table.write transaction target value).Indexed := by
  refine ⟨indexed.listed.write target value, ?_⟩
  simp only [Table.write]
  split
  · exact indexed.nodup
  · rename_i absent
    refine List.nodup_append.mpr ⟨indexed.nodup, by simp, ?_⟩
    rintro key member other isTarget rfl
    rw [List.mem_singleton.mp isTarget] at member
    exact absent member

/-- A write to a row some transaction may read lists no new key. -/
theorem Listed.mem_keys_write [DecidableEq κ] (listed : table.Listed) {target : κ} {before : ρ}
    (shown : table.Shows target before) (transaction : τ) (value : Option ρ)
    (member : key ∈ (table.write transaction target value).keys) : key ∈ table.keys := by
  rcases (Table.mem_keys_write ..).mp member with old | rfl
  · exact old
  · exact listed key before shown

theorem Indexed.put [DecidableEq κ] (indexed : table.Indexed) {target : κ}
    (fresh : target ∉ table.keys) (value : Option ρ) : (table.put target value).Indexed := by
  refine ⟨?_, List.nodup_cons.mpr ⟨fresh, indexed.nodup⟩⟩
  intro key row shown
  rcases shown.put with ⟨rfl, _⟩ | ⟨_, before⟩
  · exact List.mem_cons_self
  · exact List.mem_cons_of_mem _ (indexed.listed key row before)

theorem Indexed.commit (indexed : table.Indexed) (transaction : τ) :
    (table.commit transaction).Indexed :=
  ⟨indexed.listed.commit transaction, indexed.nodup⟩

theorem Indexed.rollback (indexed : table.Indexed) (transaction : τ) :
    (table.rollback transaction).Indexed :=
  ⟨indexed.listed.rollback transaction, indexed.nodup⟩

theorem Indexed.select (indexed : table.Indexed) (wanted : κ → ρ → Bool) :
    (table.select transaction wanted).Nodup :=
  indexed.nodup.filter _

theorem listed_of_unheld (unheld : ∀ key, table.holder key = none)
    (listed : ∀ key row, table.committed key = some row → key ∈ table.keys) : table.Listed := by
  rintro key row (committed | ⟨reader, reads⟩)
  · exact listed key row committed
  · rw [read_of_holder_ne _ _ (by rw [unheld]; simp)] at reads
    exact listed key row reads

/-- A commit replaces what the rows it held show. -/
theorem Shows.commit_held (held : table.holder key = some transaction)
    (shows' : (table.commit transaction).Shows key row) :
    table.read transaction key = some row := by
  rcases shows' with committed | ⟨reader, reads⟩
  · rw [committed_commit] at committed
    exact committed
  · have released : (table.commit transaction).holder key ≠ some reader := by
      rw [holder_commit, if_pos held]
      simp
    rw [read_of_holder_ne _ _ released, committed_commit] at reads
    exact reads

end Shows

/-! ### What the others keep -/

/-- A change of the table by one transaction: the others keep the rows they
hold, and gain none. -/
structure StepBy (transaction : τ) (before after : Table τ κ ρ) : Prop where
  keeps : ∀ {key other}, other ≠ transaction → before.holder key = some other →
    after.cell key = before.cell key
  gains : ∀ {key other}, other ≠ transaction → after.holder key = some other →
    before.holder key = some other

namespace StepBy

variable {transaction : τ} {before after : Table τ κ ρ}

theorem refl (table : Table τ κ ρ) : StepBy transaction table table :=
  ⟨fun _ _ => rfl, fun _ held => held⟩

theorem holder (by' : StepBy transaction before after) {key : κ} {other : τ}
    (different : other ≠ transaction) :
    after.holder key = some other ↔ before.holder key = some other := by
  constructor
  · exact by'.gains different
  · intro held
    unfold Table.holder
    rw [by'.keeps different held]
    exact held

theorem committed (by' : StepBy transaction before after) {key : κ} {other : τ}
    (different : other ≠ transaction) (held : before.holder key = some other) :
    after.committed key = before.committed key := by
  unfold Table.committed
  rw [by'.keeps different held]

theorem trans {later : Table τ κ ρ} (first : StepBy transaction before after)
    (second : StepBy transaction after later) : StepBy transaction before later := by
  constructor
  · intro key other different held
    rw [second.keeps different ((first.holder different).mpr held), first.keeps different held]
  · intro key other different held
    exact first.gains different (second.gains different held)

theorem write [DecidableEq κ] {table : Table τ κ ρ} {key : κ} (value : Option ρ)
    (free : table.Free transaction key) :
    StepBy transaction table (table.write transaction key value) := by
  constructor
  · intro row other different held
    have elsewhere : row ≠ key := by
      rintro rfl
      rcases free with none | own
      · simp [none] at held
      · rw [own] at held
        exact different (Option.some.inj held).symm
    simp [Table.write, elsewhere]
  · intro row other different held
    rw [holder_write] at held
    split at held
    · exact absurd (Option.some.inj held).symm different
    · exact held

/-- A row nobody holds is committed by nobody in particular. -/
theorem put [DecidableEq κ] {table : Table τ κ ρ} {key : κ} (unheld : table.holder key = none)
    (value : Option ρ) (transaction : τ) : StepBy transaction table (table.put key value) := by
  constructor
  · intro row other _ held
    refine Function.update_of_ne ?_ ..
    rintro rfl
    rw [unheld] at held
    contradiction
  · intro row other _ held
    by_cases here : row = key
    · subst here
      simp [Table.put, Table.holder] at held
    · simpa [Table.put, Table.holder, here] using held

theorem holdless {other : τ} (by' : StepBy transaction before after)
    (different : other ≠ transaction) (holdless : before.Holdless other) :
    after.Holdless other :=
  fun key held => holdless key (by'.gains different held)

variable [DecidableEq τ]

theorem read (by' : StepBy transaction before after) {key : κ} {other : τ}
    (different : other ≠ transaction) (held : before.holder key = some other) :
    after.read other key = before.read other key := by
  unfold Table.read
  rw [by'.keeps different held]

theorem commit (table : Table τ κ ρ) (transaction : τ) :
    StepBy transaction table (table.commit transaction) := by
  constructor
  · intro key other different held
    have kept : table.holder key ≠ some transaction := by
      rw [held]
      exact fun same => different (Option.some.inj same)
    simp [Table.commit, kept]
  · intro key other different held
    rw [holder_commit] at held
    split at held
    · contradiction
    · exact held

theorem rollback (table : Table τ κ ρ) (transaction : τ) :
    StepBy transaction table (table.rollback transaction) := by
  constructor
  · intro key other different held
    have kept : table.holder key ≠ some transaction := by
      rw [held]
      exact fun same => different (Option.some.inj same)
    simp [Table.rollback, kept]
  · intro key other different held
    rw [holder_rollback] at held
    split at held
    · contradiction
    · exact held

theorem writeAll [DecidableEq κ] {table : Table τ κ ρ} {keys : List κ} (change : κ → ρ → Option ρ)
    (free : ∀ key ∈ keys, table.Free transaction key) :
    StepBy transaction table (table.writeAll transaction keys change) := by
  constructor
  · intro key other different held
    have elsewhere : key ∉ keys := by
      intro member
      rcases free key member with none | own
      · simp [none] at held
      · rw [own] at held
        exact different (Option.some.inj held).symm
    simp only [Table.writeAll, elsewhere, ↓reduceIte]
    split <;> rfl
  · intro key other different held
    have cases : (table.writeAll transaction keys change).holder key = some transaction ∨
        (table.writeAll transaction keys change).holder key = table.holder key := by
      show ((table.writeAll transaction keys change).cell key).held.map Prod.fst = _ ∨
        ((table.writeAll transaction keys change).cell key).held.map Prod.fst = _
      unfold Table.writeAll
      dsimp only
      split
      · split
        · exact .inl rfl
        · exact .inr rfl
      · exact .inr rfl
    rcases cases with own | same
    · rw [own] at held
      exact absurd (Option.some.inj held).symm different
    · rw [← same]
      exact held

end StepBy

end Table

end Vidit.Library
