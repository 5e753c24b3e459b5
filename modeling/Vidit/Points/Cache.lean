import Vidit.Library.Recency
import Vidit.Python.Str

/-!
Contract: the in-memory cache of the map's points.

Owns:
- `TTLCache`: `get`, `set` and `invalidate`, each one critical section of its lock;
- what a read answers after any sequence of calls: only the value last set, within its time, and
  that value for as long as fewer than `max_size` other keys are used between two of its uses.

Does not own: the payloads and how their keys are made.
-/

namespace Vidit.Points

open Vidit.Python Vidit.Library

variable {β : Type}

/-- `(expires_at, value)`. -/
structure CacheEntry (β : Type) where
  expiresAt : Int
  value : β
deriving DecidableEq, Repr

/-- `TTLCache`; the store is an `OrderedDict`. -/
structure TtlCache (β : Type) where
  store : Recency Str (CacheEntry β)
  defaultTtl : Int
  maxSize : Nat

namespace TtlCache

def new (defaultTtl : Int) (maxSize : Nat) : TtlCache β :=
  ⟨[], defaultTtl, maxSize⟩

/-- `ttl or self._default_ttl`. -/
def ttlOf (defaultTtl : Int) : Option Int → Int
  | some 0 => defaultTtl
  | some ttl => ttl
  | none => defaultTtl

/-- `get`, at `now`. -/
def get (cache : TtlCache β) (now : Int) (key : Str) : Option β × TtlCache β :=
  match cache.store.held key with
  | none => (none, cache)
  | some entry =>
    if entry.expiresAt < now then
      (none, { cache with store := cache.store.keep fun other => other ≠ key })
    else (some entry.value, { cache with store := cache.store.use key entry })

/-- `set`, at `now`. -/
def set (cache : TtlCache β) (now : Int) (key : Str) (value : β) (ttl : Option Int) :
    TtlCache β :=
  let entry : CacheEntry β := ⟨now + ttlOf cache.defaultTtl ttl, value⟩
  { cache with store := (cache.store.use key entry).newest cache.maxSize }

/-- `invalidate`. -/
def invalidate (cache : TtlCache β) (start : Str) : TtlCache β :=
  if start = [] then { cache with store := [] }
  else { cache with store := cache.store.keep fun key => !startsWith key start }

end TtlCache

/-- `points_cache`. -/
def pointsCache : TtlCache β :=
  TtlCache.new 60 512

/-! ### Sequences of calls -/

/-- A call of the cache, with the time it reads. -/
inductive CacheCall (β : Type) where
  | get (now : Int) (key : Str)
  | set (now : Int) (key : Str) (value : β) (ttl : Option Int)
  | invalidate (start : Str)

namespace CacheCall

/-- The key a call uses. -/
def key? : CacheCall β → Option Str
  | .get _ key => some key
  | .set _ key _ _ => some key
  | .invalidate _ => none

/-- The call puts another value under the key, or drops it whatever its time. -/
def Overwrites (key : Str) : CacheCall β → Prop
  | .get _ _ => False
  | .set _ other _ _ => other = key
  | .invalidate start => startsWith key start = true

/-- The call reads the clock by `now`. -/
def By (now : Int) : CacheCall β → Prop
  | .get time _ => time ≤ now
  | .set time _ _ _ => time ≤ now
  | .invalidate _ => True

def apply (cache : TtlCache β) : CacheCall β → TtlCache β
  | .get now key => (cache.get now key).2
  | .set now key value ttl => cache.set now key value ttl
  | .invalidate start => cache.invalidate start

end CacheCall

/-- The cache after some calls. -/
def TtlCache.after (cache : TtlCache β) (calls : List (CacheCall β)) : TtlCache β :=
  calls.foldl CacheCall.apply cache

/-- The keys some calls use. -/
def usedKeys (calls : List (CacheCall β)) : List Str :=
  calls.filterMap CacheCall.key?

/-- Between two uses of the key, fewer than `size` other keys are used. -/
def UsedOften (size : Nat) (key : Str) (calls : List (CacheCall β)) : Prop :=
  ∀ stretch, stretch <:+: calls → key ∉ usedKeys stretch →
    (usedKeys stretch).dedup.length < size

/-- The last write of a key, and the calls since. -/
structure LastSet (calls : List (CacheCall β)) (key : Str) (setAt : Int) (value : β)
    (ttl : Option Int) (since : List (CacheCall β)) : Prop where
  written : ∃ earlier, calls = earlier ++ .set setAt key value ttl :: since
  untouched : ∀ call ∈ since, ¬ call.Overwrites key

/-- What the reads of a cache answer. -/
structure AnswersLastSet (defaultTtl : Int) (maxSize : Nat) (calls : List (CacheCall β)) :
    Prop where
  bounded : ((TtlCache.new defaultTtl maxSize).after calls).store.length ≤ maxSize
  /-- A read answers the value last set, within its time. -/
  sound : ∀ now key value,
    (((TtlCache.new defaultTtl maxSize).after calls).get now key).1 = some value →
      ∃ setAt ttl since, LastSet calls key setAt value ttl since ∧
        now ≤ setAt + TtlCache.ttlOf defaultTtl ttl
  /-- It does so while the key is used often enough, by a clock that never runs back. -/
  complete : ∀ now key setAt value ttl since, LastSet calls key setAt value ttl since →
    UsedOften maxSize key since → (∀ call ∈ since, call.By now) →
      now ≤ setAt + TtlCache.ttlOf defaultTtl ttl →
        (((TtlCache.new defaultTtl maxSize).after calls).get now key).1 = some value

/-! ### Entries are last writes -/

section Sound

variable {calls : List (CacheCall β)} {cache : TtlCache β} {defaultTtl : Int} {maxSize : Nat}

/-- What holds of a cache after some calls. -/
structure Traced (defaultTtl : Int) (maxSize : Nat) (calls : List (CacheCall β))
    (cache : TtlCache β) : Prop where
  ttl : cache.defaultTtl = defaultTtl
  size : cache.maxSize = maxSize
  nodup : cache.store.keys.Nodup
  bounded : cache.store.length ≤ maxSize
  written : ∀ key entry, (key, entry) ∈ cache.store → ∃ setAt ttl since,
    LastSet calls key setAt entry.value ttl since ∧
      entry.expiresAt = setAt + TtlCache.ttlOf defaultTtl ttl

theorem LastSet.concat {key : Str} {setAt : Int} {value : β} {ttl : Option Int}
    {since : List (CacheCall β)} (last : LastSet calls key setAt value ttl since)
    {call : CacheCall β} (leaves : ¬ call.Overwrites key) :
    LastSet (calls ++ [call]) key setAt value ttl (since ++ [call]) where
  written := by
    obtain ⟨earlier, split⟩ := last.written
    exact ⟨earlier, by rw [split, List.append_assoc, List.cons_append]⟩
  untouched := by
    intro other member
    rcases List.mem_append.mp member with inSince | isCall
    · exact last.untouched other inSince
    · rw [List.mem_singleton.mp isCall]
      exact leaves

/-- The entries a call leaves as they are keep their last write. -/
theorem Traced.written_concat (traced : Traced defaultTtl maxSize calls cache)
    {call : CacheCall β} {key : Str} {entry : CacheEntry β} (held : (key, entry) ∈ cache.store)
    (leaves : ¬ call.Overwrites key) : ∃ setAt ttl since,
      LastSet (calls ++ [call]) key setAt entry.value ttl since ∧
        entry.expiresAt = setAt + TtlCache.ttlOf defaultTtl ttl := by
  obtain ⟨setAt, ttl, since, last, expires⟩ := traced.written key entry held
  exact ⟨setAt, ttl, since ++ [call], last.concat leaves, expires⟩

/-- A call that only drops keys. -/
theorem Traced.keep (traced : Traced defaultTtl maxSize calls cache) (passes : Str → Bool)
    {call : CacheCall β} (leaves : ∀ key, passes key = true → ¬ call.Overwrites key) :
    Traced defaultTtl maxSize (calls ++ [call])
      { cache with store := cache.store.keep passes } where
  ttl := traced.ttl
  size := traced.size
  nodup := Recency.nodup_keep traced.nodup passes
  bounded := Nat.le_trans (List.length_filter_le _ _) traced.bounded
  written := by
    intro key entry held
    have stood := Recency.mem_keep.mp (show (key, entry) ∈ cache.store.keep passes from held)
    exact traced.written_concat stood.1 (leaves key stood.2)

theorem Traced.get (traced : Traced defaultTtl maxSize calls cache) (now : Int) (key : Str) :
    Traced defaultTtl maxSize (calls ++ [.get now key]) (cache.get now key).2 := by
  have leaves : ∀ other, ¬ (CacheCall.get now key : CacheCall β).Overwrites other := fun _ => id
  unfold TtlCache.get
  cases read : cache.store.held key with
  | none =>
      exact ⟨traced.ttl, traced.size, traced.nodup, traced.bounded,
        fun other entry held => traced.written_concat held (leaves other)⟩
  | some entry =>
      have member := (Recency.held_eq_some_iff traced.nodup).mp read
      by_cases expired : entry.expiresAt < now
      · simp only [expired, if_true]
        exact traced.keep _ fun other _ => leaves other
      · simp only [expired, if_false]
        have nodup := Recency.nodup_use traced.nodup key entry
        refine ⟨traced.ttl, traced.size, nodup, ?_, ?_⟩
        · exact Nat.le_trans (Recency.length_use_le_of_mem member) traced.bounded
        · intro other kept held
          by_cases same : other = key
          · subst same
            rw [Recency.mem_use_self held]
            exact traced.written_concat member (leaves other)
          · exact traced.written_concat (Recency.mem_use_of_ne same held) (leaves other)

theorem Traced.set (traced : Traced defaultTtl maxSize calls cache) (now : Int) (key : Str)
    (value : β) (ttl : Option Int) :
    Traced defaultTtl maxSize (calls ++ [.set now key value ttl])
      (cache.set now key value ttl) where
  ttl := traced.ttl
  size := traced.size
  nodup := Recency.nodup_newest (Recency.nodup_use traced.nodup _ _) _
  bounded := by
    have cut := Recency.length_newest_le cache.maxSize
      (cache.store.use key ⟨now + TtlCache.ttlOf cache.defaultTtl ttl, value⟩)
    rw [traced.size] at cut
    unfold TtlCache.set
    rw [traced.size]
    exact cut
  written := by
    intro other entry held
    have inUsed := Recency.mem_of_mem_newest held
    by_cases same : other = key
    · subst same
      rw [Recency.mem_use_self inUsed]
      exact ⟨now, ttl, [], ⟨⟨calls, rfl⟩, by simp⟩, by rw [traced.ttl]⟩
    · exact traced.written_concat (Recency.mem_use_of_ne same inUsed) (Ne.symm same)

theorem Traced.invalidate (traced : Traced defaultTtl maxSize calls cache) (start : Str) :
    Traced defaultTtl maxSize (calls ++ [.invalidate start]) (cache.invalidate start) := by
  unfold TtlCache.invalidate
  by_cases whole : start = []
  · rw [if_pos whole]
    exact ⟨traced.ttl, traced.size, List.nodup_nil, Nat.zero_le _, by simp⟩
  · rw [if_neg whole]
    apply traced.keep
    intro key spared dropped
    have starts : startsWith key start = true := dropped
    rw [starts] at spared
    cases spared

theorem Traced.apply (traced : Traced defaultTtl maxSize calls cache) (call : CacheCall β) :
    Traced defaultTtl maxSize (calls ++ [call]) (call.apply cache) := by
  cases call with
  | get now key => exact traced.get now key
  | set now key value ttl => exact traced.set now key value ttl
  | invalidate start => exact traced.invalidate start

theorem traced_after (defaultTtl : Int) (maxSize : Nat) (calls : List (CacheCall β)) :
    Traced defaultTtl maxSize calls ((TtlCache.new defaultTtl maxSize).after calls) := by
  induction calls using List.reverseRecOn with
  | nil => exact ⟨rfl, rfl, List.nodup_nil, Nat.zero_le _, by intro _ _ held; cases held⟩
  | append_singleton calls call inductionHypothesis =>
      have stepped := inductionHypothesis.apply call
      unfold TtlCache.after at stepped ⊢
      rw [List.foldl_append]
      exact stepped

end Sound

/-! ### A used key stays -/

section Complete

variable {calls since stretch : List (CacheCall β)} {cache : TtlCache β} {key : Str}
  {entry : CacheEntry β} {now : Int} {maxSize : Nat}

/-- An entry that is read within its time is the last one used. -/
theorem behind_get_self (nodup : cache.store.keys.Nodup) {used : List Str}
    (behind : cache.store.Behind key entry used) {time : Int} (fresh : time ≤ entry.expiresAt) :
    (cache.get time key).1 = some entry.value ∧
      (cache.get time key).2.store.Behind key entry [] := by
  have read := (Recency.held_eq_some_iff nodup).mpr behind.mem
  have alive : ¬ entry.expiresAt < time := Int.not_lt.mpr fresh
  unfold TtlCache.get
  rw [read]
  simp only
  rw [if_neg alive]
  exact ⟨rfl, Recency.Behind.use_self _ _ _⟩

/-- A read of another key puts at most that key behind the entry. -/
theorem behind_get_other {used : List Str} (behind : cache.store.Behind key entry used)
    {time : Int} {other : Str} (different : key ≠ other) :
    (cache.get time other).2.store.Behind key entry (used ++ [other]) := by
  have stays : cache.store.Behind key entry (used ++ [other]) :=
    behind.mono fun _ member => List.mem_append_left _ member
  unfold TtlCache.get
  cases cache.store.held other with
  | none => exact stays
  | some read =>
      by_cases expired : read.expiresAt < time
      · simp only
        rw [if_pos expired]
        exact stays.keep (fun key => key ≠ other) (by simpa using different)
      · simp only
        rw [if_neg expired]
        exact behind.use_other different _

/-- A written entry is the last one used, where the cache holds any. -/
theorem behind_set_self (nodup : cache.store.keys.Nodup) (room : 0 < cache.maxSize) (time : Int)
    (key : Str) (value : β) (ttl : Option Int) : (cache.set time key value ttl).store.Behind key
      ⟨time + TtlCache.ttlOf cache.defaultTtl ttl, value⟩ [] :=
  (Recency.Behind.use_self _ _ _).newest (Recency.nodup_use nodup _ _) room

/-- A write of another key does, and evicts neither while few keys were used. -/
theorem behind_set_other (nodup : cache.store.keys.Nodup) {used : List Str}
    (behind : cache.store.Behind key entry used) {time : Int} {other : Str} {value : β}
    {ttl : Option Int} (different : key ≠ other)
    (few : (used ++ [other]).dedup.length < cache.maxSize) :
    (cache.set time other value ttl).store.Behind key entry (used ++ [other]) :=
  (behind.use_other different _).newest (Recency.nodup_use nodup _ _) few

theorem behind_invalidate {used : List Str} (behind : cache.store.Behind key entry used)
    {start : Str} (spared : startsWith key start = false) :
    (cache.invalidate start).store.Behind key entry used := by
  have named : start ≠ [] := by
    rintro rfl
    cases spared
  unfold TtlCache.invalidate
  rw [if_neg named]
  exact behind.keep (fun key => !startsWith key start) (by rw [spared]; rfl)

theorem maxSize_get (cache : TtlCache β) (now : Int) (key : Str) :
    (cache.get now key).2.maxSize = cache.maxSize := by
  unfold TtlCache.get
  split
  · rfl
  · split
    · rfl
    · rfl

theorem maxSize_apply (cache : TtlCache β) (call : CacheCall β) :
    (call.apply cache).maxSize = cache.maxSize := by
  cases call with
  | get now key => exact maxSize_get cache now key
  | set now key value ttl => rfl
  | invalidate start =>
      show (cache.invalidate start).maxSize = cache.maxSize
      unfold TtlCache.invalidate
      split
      · rfl
      · rfl

/-- What the calls since the last use leave: the entry, behind the keys they use. -/
structure Stays (maxSize : Nat) (cache : TtlCache β) (key : Str) (entry : CacheEntry β)
    (stretch : List (CacheCall β)) : Prop where
  size : cache.maxSize = maxSize
  nodup : cache.store.keys.Nodup
  apart : key ∉ usedKeys stretch
  behind : cache.store.Behind key entry (usedKeys stretch)

theorem usedKeys_concat (stretch : List (CacheCall β)) (call : CacheCall β) :
    usedKeys (stretch ++ [call]) = usedKeys stretch ++ call.key?.toList := by
  unfold usedKeys
  rw [List.filterMap_append]
  cases named : call.key? with
  | none => rw [List.filterMap_cons_none named]; rfl
  | some key => rw [List.filterMap_cons_some named]; rfl

/-- One call since the last use. -/
theorem Stays.apply (stays : Stays maxSize cache key entry stretch) {call : CacheCall β}
    (nodup : (call.apply cache).store.keys.Nodup) (untouched : ¬ call.Overwrites key)
    (clocked : call.By now) (fresh : now ≤ entry.expiresAt)
    (often : key ∉ usedKeys (stretch ++ [call]) →
      (usedKeys (stretch ++ [call])).dedup.length < maxSize) :
    Stays maxSize (call.apply cache) key entry (stretch ++ [call]) ∨
      Stays maxSize (call.apply cache) key entry [] := by
  have size : (call.apply cache).maxSize = maxSize := by
    rw [maxSize_apply, stays.size]
  cases call with
  | get time other =>
      by_cases same : other = key
      · subst same
        refine .inr ⟨size, nodup, by simp [usedKeys], ?_⟩
        exact (behind_get_self stays.nodup stays.behind (Int.le_trans clocked fresh)).2
      · have listed := usedKeys_concat stretch (.get time other)
        refine .inl ⟨size, nodup, ?_, ?_⟩
        · rw [listed]
          simpa [CacheCall.key?, Ne.symm same] using stays.apart
        · rw [listed]
          exact behind_get_other stays.behind (Ne.symm same)
  | set time other value ttl =>
      have different : key ≠ other := fun same => untouched same.symm
      have listed := usedKeys_concat stretch (.set time other value ttl)
      have apart : key ∉ usedKeys (stretch ++ [.set time other value ttl]) := by
        rw [listed]
        simpa [CacheCall.key?, different] using stays.apart
      refine .inl ⟨size, nodup, apart, ?_⟩
      have few := often apart
      rw [listed] at few ⊢
      rw [← stays.size] at few
      exact behind_set_other stays.nodup stays.behind different few
  | invalidate start =>
      have listed := usedKeys_concat stretch (.invalidate start)
      have spared : startsWith key start = false := by
        simpa [CacheCall.Overwrites] using untouched
      refine .inl ⟨size, nodup, ?_, ?_⟩
      · rw [listed]
        simpa [CacheCall.key?] using stays.apart
      · rw [listed]
        have left := behind_invalidate stays.behind spared
        simpa [CacheCall.key?, CacheCall.apply] using left

theorem Stays.after {size : Nat} (stays : Stays size cache key entry stretch)
    (sound : ∀ done later, since = done ++ later → (cache.after done).store.keys.Nodup)
    (often : UsedOften size key (stretch ++ since))
    (untouched : ∀ call ∈ since, ¬ call.Overwrites key)
    (clocked : ∀ call ∈ since, call.By now) (fresh : now ≤ entry.expiresAt) :
    ∃ last, Stays size (cache.after since) key entry last := by
  induction since generalizing cache stretch with
  | nil => exact ⟨stretch, stays⟩
  | cons call since inductionHypothesis =>
      have nodup : (call.apply cache).store.keys.Nodup := sound [call] since rfl
      have few : key ∉ usedKeys (stretch ++ [call]) →
          (usedKeys (stretch ++ [call])).dedup.length < size := by
        apply often
        exact ⟨[], since, by simp⟩
      have later : ∀ done rest, since = done ++ rest →
          ((call.apply cache).after done).store.keys.Nodup := by
        intro done rest split
        exact sound (call :: done) rest (by rw [split]; rfl)
      have untouchedLater : ∀ other ∈ since, ¬ other.Overwrites key := fun other member =>
        untouched other (List.mem_cons_of_mem _ member)
      have clockedLater : ∀ other ∈ since, other.By now := fun other member =>
        clocked other (List.mem_cons_of_mem _ member)
      rcases stays.apply nodup (untouched call List.mem_cons_self)
        (clocked call List.mem_cons_self) fresh few with longer | renewed
      · apply inductionHypothesis longer later _ untouchedLater clockedLater
        simpa using often
      · apply inductionHypothesis renewed later _ untouchedLater clockedLater
        intro part within
        exact often part (within.trans ⟨stretch ++ [call], [], by simp⟩)

end Complete

/-! ### What reads answer -/

theorem after_append (cache : TtlCache β) (earlier later : List (CacheCall β)) :
    cache.after (earlier ++ later) = (cache.after earlier).after later :=
  List.foldl_append

/-- After any calls, a cache answers the value last set within its time, and never another. -/
theorem answersLastSet (defaultTtl : Int) (maxSize : Nat) (calls : List (CacheCall β)) :
    AnswersLastSet defaultTtl maxSize calls where
  bounded := (traced_after defaultTtl maxSize calls).bounded
  sound := by
    intro now key value answered
    have traced := traced_after defaultTtl maxSize calls
    unfold TtlCache.get at answered
    cases read : ((TtlCache.new defaultTtl maxSize).after calls).store.held key with
    | none =>
        rw [read] at answered
        cases answered
    | some entry =>
        rw [read] at answered
        simp only at answered
        by_cases expired : entry.expiresAt < now
        · rw [if_pos expired] at answered
          cases answered
        · rw [if_neg expired] at answered
          cases answered
          have member := (Recency.held_eq_some_iff traced.nodup).mp read
          obtain ⟨setAt, ttl, since, last, expires⟩ := traced.written key entry member
          exact ⟨setAt, ttl, since, last, by omega⟩
  complete := by
    intro now key setAt value ttl since last often clocked fresh
    obtain ⟨earlier, split⟩ := last.written
    have traced := traced_after (β := β) defaultTtl maxSize
    have room : 0 < maxSize := often [] List.nil_infix (by simp [usedKeys])
    have start : Stays maxSize ((TtlCache.new defaultTtl maxSize).after
        (earlier ++ [.set setAt key value ttl])) key
        ⟨setAt + TtlCache.ttlOf defaultTtl ttl, value⟩ [] := by
      have before := traced earlier
      have behind := behind_set_self before.nodup (by rw [before.size]; exact room) setAt key
        value ttl
      rw [before.ttl] at behind
      have written := traced (earlier ++ [.set setAt key value ttl])
      refine ⟨written.size, written.nodup, by simp [usedKeys], ?_⟩
      rw [after_append]
      exact behind
    have whole : calls = (earlier ++ [.set setAt key value ttl]) ++ since := by
      rw [split, List.append_assoc]
      rfl
    obtain ⟨stretch, stays⟩ := start.after
      (fun done later _ => by rw [← after_append]; exact (traced _).nodup)
      (by simpa using often) last.untouched clocked fresh
    rw [whole, after_append]
    exact (behind_get_self stays.nodup stays.behind fresh).1

end Vidit.Points
