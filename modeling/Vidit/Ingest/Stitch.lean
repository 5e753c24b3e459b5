import Mathlib.Data.Prod.Lex
import Vidit.Ingest.Threads
import Vidit.Library.Buckets
import Vidit.Library.Checks
import Vidit.Library.Forest
import Vidit.Library.Latest

/-!
Contract: the records of an export recombined into threads.

Owns:
- `stitch` and `_chronological`, with the keys that raise;
- `Stitched`, what the threads are: the parts the reply edges connect, each in the
  order of its keys;
- `stitchesThreads`, that `stitch` makes them or names an id that is not a number.

Does not own: how an export is read, and what a thread resolves to.

Proof shape: the unions add one reply edge each (`Forest.Tells.unite`), the finds of
the grouping move no root, and a stable sort orders each group.
-/

namespace Vidit.Ingest

open Vidit.Python Vidit.Library

/-- The order of a thread: the time written, whether the id is digits, and the id. -/
abbrev ThreadKey : Type :=
  Str ×ₗ Nat ×ₗ Nat

/-- `created_at[0].isdigit()`, of a time that is there. -/
def isTimed (createdAt : Str) : Bool :=
  createdAt.head?.any isDigitPoint

/-- `_chronological`. `int` raises on digits that are not decimal, and on too many. -/
def chronological (record : TweetRecord) : Except PyError ThreadKey :=
  let time := if isTimed record.createdAt then record.createdAt else [0xFFFF]
  if isDigit record.tweetId then
    match intOfDigits record.tweetId with
    | some number => .ok (toLex (time, toLex (0, number)))
    | none => .error .valueError
  else .ok (toLex (time, toLex (1, 0)))

/-- `sorted` by a key that may raise: the keys are all taken first. -/
def sortedByKey {α κ : Type} [LinearOrder κ] (key : α → Except PyError κ) (members : List α) :
    Except PyError (List α) := do
  let keys ← members.mapM key
  pure ((sortedOn Prod.fst (keys.zip members)).map Prod.snd)

variable (records : List TweetRecord)

/-- `id_to_idx`: of two records of one id the last. -/
def idToIdx (id : Str) : Option Nat :=
  (records.zipIdx.reverse.find? fun entry => entry.1.tweetId = id).map Prod.snd

/-- The record an entry replies to, when it is one of the batch. -/
def repliedTo (record : TweetRecord) : Option Nat :=
  record.inReplyToStatusId.bind (idToIdx records)

/-- One reply edge. -/
def uniteReply (forest : Forest Nat) (entry : TweetRecord × Nat) : Forest Nat :=
  match repliedTo records entry.1 with
  | some parent => forest.unite parent entry.2
  | none => forest

def unitedReplies : Forest Nat :=
  records.zipIdx.foldl (uniteReply records) Forest.apart

/-- `groups.setdefault(find(i), []).append(r)`. -/
def groupRecord (state : Forest Nat × List (Nat × List TweetRecord))
    (entry : TweetRecord × Nat) : Forest Nat × List (Nat × List TweetRecord) :=
  let found := state.1.halve entry.2
  (found.1, pour found.2 [entry.1] state.2)

def stitch : Except PyError (List (List TweetRecord)) :=
  let groups := records.zipIdx.foldl groupRecord (unitedReplies records, [])
  groups.2.mapM fun group => sortedByKey chronological group.2

/-! ### What the threads are -/

/-- One record of the batch replies to another. -/
def Replies (child parent : Nat) : Prop :=
  ∃ record, records[child]? = some record ∧ repliedTo records record = some parent

/-- One record comes before another in a thread: by its key, then by its place in the batch. -/
def Before (left right : Nat) : Prop :=
  ∃ first second one other, records[left]? = some first ∧ records[right]? = some second ∧
    chronological first = .ok one ∧ chronological second = .ok other ∧
      (one < other ∨ one = other ∧ left < right)

/-- Threads, by the places of their records in the batch. -/
structure Stitched (threads : List (List Nat)) : Prop where
  /-- Every record is in one thread, once. -/
  all : threads.flatten.Perm (List.range records.length)
  /-- Two records are in one thread when reply edges connect them. -/
  connected : ∀ left < records.length, ∀ right < records.length,
    (∃ thread ∈ threads, left ∈ thread ∧ right ∈ thread) ↔
      Relation.EqvGen (Replies records) left right
  /-- A thread is in order. -/
  ordered : ∀ thread ∈ threads, thread.Pairwise (Before records)
  /-- The threads are in the order of their first records in the batch. -/
  appearing : threads.Pairwise fun thread later =>
    ∃ first ∈ thread, ∀ other ∈ later, first < other

/-- An id of digits that `int` does not read. -/
def hasUnreadableId : Prop :=
  ∃ record ∈ records, isDigit record.tweetId = true ∧ intOfDigits record.tweetId = none

/-- `stitch` makes the threads of every batch whose ids it can read. -/
def StitchesThreads : Prop :=
  ∀ records,
    (¬ hasUnreadableId records → ∃ threads, Stitched records threads ∧
      stitch records = .ok (threads.map fun thread => thread.filterMap (records[·]?))) ∧
    (hasUnreadableId records → stitch records = .error .valueError)

/-! ### Keys -/

/-- The key of a record whose id is read. -/
def threadKey (record : TweetRecord) : ThreadKey :=
  let time := if isTimed record.createdAt then record.createdAt else [0xFFFF]
  if isDigit record.tweetId then toLex (time, toLex (0, (intOfDigits record.tweetId).getD 0))
  else toLex (time, toLex (1, 0))

theorem chronological_eq {record : TweetRecord}
    (readable : isDigit record.tweetId = true → intOfDigits record.tweetId ≠ none) :
    chronological record = .ok (threadKey record) := by
  unfold chronological threadKey
  by_cases digits : isDigit record.tweetId = true
  · simp only [digits, if_true]
    cases number : intOfDigits record.tweetId with
    | none => exact absurd number (readable digits)
    | some value => rfl
  · simp only [digits]
    rfl

theorem chronological_eq_error {record : TweetRecord} {raised : PyError}
    (failed : chronological record = .error raised) : raised = .valueError := by
  unfold chronological at failed
  by_cases digits : isDigit record.tweetId = true
  · simp only [digits, if_true] at failed
    cases number : intOfDigits record.tweetId with
    | none =>
        simp only [number] at failed
        cases failed
        rfl
    | some value =>
        simp only [number] at failed
        cases failed
  · simp only [digits] at failed
    cases failed

theorem chronological_unreadable {record : TweetRecord} (digits : isDigit record.tweetId = true)
    (unreadable : intOfDigits record.tweetId = none) :
    chronological record = .error .valueError := by
  unfold chronological
  simp only [digits, if_true, unreadable]

/-- A sort whose keys are all read is one by the keys. -/
theorem sortedByKey_eq {members : List TweetRecord}
    (read : ∀ record ∈ members, chronological record = .ok (threadKey record)) :
    sortedByKey chronological members = .ok (sortedOn threadKey members) := by
  have zipped : (members.map threadKey).zip members =
      members.map fun record => (threadKey record, record) := by
    rw [← List.zip_map', List.map_id']
  unfold sortedByKey
  rw [mapM_eq_of_ok read]
  simp only [bind, Except.bind, pure, Except.pure]
  rw [zipped]
  unfold sortedOn
  rw [← List.map_insertionSort (r := fun left right => threadKey left ≤ threadKey right)]
  · rw [List.map_map]
    exact congrArg _ (List.map_id _)
  · intro left _ right _
    rfl

/-! ### Replies -/

theorem uniteReply_none {entry : TweetRecord × Nat} (reply : repliedTo records entry.1 = none)
    (forest : Forest Nat) : uniteReply records forest entry = forest := by
  unfold uniteReply
  rw [reply]

theorem uniteReply_some {entry : TweetRecord × Nat} {parent : Nat}
    (reply : repliedTo records entry.1 = some parent) (forest : Forest Nat) :
    uniteReply records forest entry = forest.unite parent entry.2 := by
  unfold uniteReply
  rw [reply]

/-- The edges of some entries. -/
theorem tells_replies (entries : List (TweetRecord × Nat)) :
    (entries.foldl (uniteReply records) Forest.apart).Tells fun child parent =>
      ∃ entry ∈ entries, entry.2 = child ∧ repliedTo records entry.1 = some parent := by
  induction entries using List.reverseRecOn with
  | nil =>
      intro left right
      have nothing := Forest.tells_apart left right
      simpa using nothing
  | append_singleton entries entry inductionHypothesis =>
      rw [List.foldl_append, List.foldl_cons, List.foldl_nil]
      intro left right
      cases reply : repliedTo records entry.1 with
      | none =>
          rw [uniteReply_none records reply]
          have kept := inductionHypothesis left right
          simpa [or_and_right, exists_or, reply] using kept
      | some parent =>
          rw [uniteReply_some records reply]
          have united := inductionHypothesis.unite parent entry.2 left right
          have edges : (fun child above => (∃ other ∈ entries, other.2 = child ∧
              repliedTo records other.1 = some above) ∨ child = entry.2 ∧ above = parent) =
              fun child above => ∃ other ∈ entries ++ [entry], other.2 = child ∧
                repliedTo records other.1 = some above := by
            funext child above
            apply propext
            simp [or_and_right, exists_or, reply, eq_comm]
          rw [edges] at united
          exact united

theorem tells_unitedReplies : (unitedReplies records).Tells (Replies records) := by
  have edges : (fun child parent => ∃ entry ∈ records.zipIdx, entry.2 = child ∧
      repliedTo records entry.1 = some parent) = Replies records := by
    funext child parent
    apply propext
    constructor
    · intro edge
      obtain ⟨entry, member, isChild, reply⟩ := edge
      rw [List.mem_zipIdx_iff_getElem?, isChild] at member
      exact ⟨entry.1, member, reply⟩
    · intro edge
      obtain ⟨record, here, reply⟩ := edge
      exact ⟨(record, child), List.mk_mem_zipIdx_iff_getElem?.mpr here, rfl, reply⟩
  have told := tells_replies records records.zipIdx
  rw [edges] at told
  exact told

/-! ### Groups -/

/-- The entries of each group. -/
def groupEntries : List (Nat × List (TweetRecord × Nat)) :=
  gather (fun entry => (unitedReplies records).find entry.2) (fun entry => [entry])
    records.zipIdx

/-- The finds of the grouping move no root. -/
theorem foldl_groupRecord (entries : List (TweetRecord × Nat)) (forest : Forest Nat)
    (groups : List (Nat × List TweetRecord)) :
    (entries.foldl groupRecord (forest, groups)).2 =
      entries.foldl (fun groups entry => pour (forest.find entry.2) [entry.1] groups) groups := by
  induction entries generalizing forest groups with
  | nil => rfl
  | cons entry rest inductionHypothesis =>
      rw [List.foldl_cons, List.foldl_cons, groupRecord]
      simp only [inductionHypothesis, Forest.halve_find, Forest.halve_root]

theorem groups_eq :
    (records.zipIdx.foldl groupRecord (unitedReplies records, [])).2 =
      (groupEntries records).map fun group => (group.1, group.2.map Prod.fst) := by
  rw [foldl_groupRecord, groupEntries, ← gather_map]
  rfl

variable {records}

theorem mem_groupEntries {group : Nat × List (TweetRecord × Nat)}
    (member : group ∈ groupEntries records) :
    group.2 ≠ [] ∧ group.2 =
      records.zipIdx.filter fun entry => (unitedReplies records).find entry.2 = group.1 := by
  obtain ⟨root, entries⟩ := group
  unfold groupEntries at member
  rw [mem_gather_iff] at member
  obtain ⟨⟨entry, inRecords, isRoot⟩, held⟩ := member
  rw [List.flatMap_singleton'] at held
  refine ⟨?_, held⟩
  rw [held]
  exact List.ne_nil_of_mem (List.mem_filter.mpr ⟨inRecords, by simpa using isRoot⟩)

/-- The entries of a group are listed as in the batch. -/
theorem pairwise_group {group : Nat × List (TweetRecord × Nat)}
    (member : group ∈ groupEntries records) :
    group.2.Pairwise fun left right => left.2 < right.2 := by
  rw [(mem_groupEntries member).2]
  apply List.Pairwise.filter
  rw [← List.pairwise_map (f := Prod.snd), List.zipIdx_map_snd]
  exact List.pairwise_lt_range'

theorem getElem_of_mem_group {group : Nat × List (TweetRecord × Nat)}
    (member : group ∈ groupEntries records) {entry : TweetRecord × Nat} (inGroup : entry ∈ group.2) :
    records[entry.2]? = some entry.1 := by
  rw [(mem_groupEntries member).2, List.mem_filter] at inGroup
  exact List.mem_zipIdx_iff_getElem?.mp inGroup.1

/-- A group as a thread, by places. -/
def threadPlaces (group : Nat × List (TweetRecord × Nat)) : List Nat :=
  (sortedOn (fun entry => threadKey entry.1) group.2).map Prod.snd

theorem mem_threadPlaces {group : Nat × List (TweetRecord × Nat)}
    (member : group ∈ groupEntries records) {place : Nat} :
    place ∈ threadPlaces group ↔
      place < records.length ∧ (unitedReplies records).find place = group.1 := by
  unfold threadPlaces
  rw [List.mem_map]
  constructor
  · intro inThread
    obtain ⟨entry, sorted, rfl⟩ := inThread
    rw [mem_sortedOn, (mem_groupEntries member).2, List.mem_filter,
      List.mem_zipIdx_iff_getElem?] at sorted
    exact ⟨(List.getElem?_eq_some_iff.mp sorted.1).1, by simpa using sorted.2⟩
  · intro here
    obtain ⟨record, found⟩ : ∃ record, records[place]? = some record :=
      ⟨_, List.getElem?_eq_getElem here.1⟩
    refine ⟨(record, place), ?_, rfl⟩
    rw [mem_sortedOn, (mem_groupEntries member).2, List.mem_filter]
    exact ⟨List.mk_mem_zipIdx_iff_getElem?.mpr found, by simpa using here.2⟩

theorem exists_group {place : Nat} (inBatch : place < records.length) :
    ∃ group ∈ groupEntries records, group.1 = (unitedReplies records).find place := by
  have found := List.getElem?_eq_getElem inBatch
  have isKey : (unitedReplies records).find place ∈ (groupEntries records).map Prod.fst := by
    unfold groupEntries
    rw [mem_keys_gather]
    exact ⟨(_, place), List.mk_mem_zipIdx_iff_getElem?.mpr found, rfl⟩
  exact List.mem_map.mp isKey

/-- The first entry of a group comes before every entry of a later group. -/
theorem pairwise_groupEntries :
    (groupEntries records).Pairwise fun group later =>
      ∃ first ∈ group.2, ∀ other ∈ later.2, first.2 < other.2 := by
  have places : records.zipIdx.Pairwise fun left right => left.2 < right.2 := by
    rw [← List.pairwise_map (f := Prod.snd), List.zipIdx_map_snd]
    exact List.pairwise_lt_range'
  have listed : (records.zipIdx.map fun entry => [entry].head?).Pairwise
      fun left right => ∀ first, left = some first → ∀ other, right = some other →
        first.2 < other.2 := by
    rw [List.pairwise_map]
    apply places.imp
    intro left right before first isFirst other isOther
    cases isFirst
    cases isOther
    exact before
  have heads := listed.sublist (head_gather_sublist
    (fun entry => (unitedReplies records).find entry.2) (fun entry => [entry]) records.zipIdx
    fun entry => List.cons_ne_nil entry [])
  rw [List.pairwise_map] at heads
  apply List.Pairwise.imp_of_mem _ heads
  intro group later member laterMember before
  obtain ⟨first, rest, filled⟩ := List.exists_cons_of_ne_nil (mem_groupEntries member).1
  obtain ⟨head, tail, laterFilled⟩ :=
    List.exists_cons_of_ne_nil (mem_groupEntries laterMember).1
  have headBefore : first.2 < head.2 := by
    apply before
    · rw [filled]
      rfl
    · rw [laterFilled]
      rfl
  have ascending := pairwise_group laterMember
  rw [laterFilled, List.pairwise_cons] at ascending
  rw [filled, laterFilled]
  refine ⟨first, List.mem_cons_self, ?_⟩
  intro other inLater
  rcases List.mem_cons.mp inLater with rfl | inTail
  · exact headBefore
  · exact headBefore.trans (ascending.1 other inTail)

/-! ### The result -/

section Read

variable (read : ∀ record ∈ records, chronological record = .ok (threadKey record))

include read

theorem stitched_threadPlaces :
    Stitched records ((groupEntries records).map threadPlaces) where
  all := by
    have gathered : ((groupEntries records).flatMap Prod.snd).Perm records.zipIdx := by
      have poured := perm_gather (fun entry => (unitedReplies records).find entry.2)
        (fun entry => [entry]) records.zipIdx
      rw [List.flatMap_singleton'] at poured
      exact poured
    have places := gathered.map Prod.snd
    rw [List.map_flatMap, List.zipIdx_map_snd, ← List.range_eq_range'] at places
    rw [← List.flatMap_def]
    apply List.Perm.trans _ places
    apply List.Perm.flatMap_left
    intro group _
    exact (List.perm_insertionSort _ _).map _
  connected := by
    intro left leftIn right rightIn
    rw [← tells_unitedReplies records left right]
    constructor
    · intro together
      obtain ⟨thread, isThread, leftHere, rightHere⟩ := together
      obtain ⟨group, member, rfl⟩ := List.mem_map.mp isThread
      exact ((mem_threadPlaces member).mp leftHere).2.trans
        ((mem_threadPlaces member).mp rightHere).2.symm
    · intro same
      obtain ⟨group, member, isRoot⟩ := exists_group leftIn
      refine ⟨threadPlaces group, List.mem_map_of_mem member, ?_, ?_⟩
      · exact (mem_threadPlaces member).mpr ⟨leftIn, isRoot.symm⟩
      · exact (mem_threadPlaces member).mpr ⟨rightIn, same.symm.trans isRoot.symm⟩
  ordered := by
    intro thread isThread
    obtain ⟨group, member, rfl⟩ := List.mem_map.mp isThread
    have sorted : (sortedOn (fun entry : TweetRecord × Nat => threadKey entry.1) group.2).Pairwise
        fun left right => threadKey left.1 < threadKey right.1 ∨
          threadKey left.1 = threadKey right.1 ∧ left.2 < right.2 :=
      pairwise_sortedOn_stable (pairwise_group member)
    unfold threadPlaces
    rw [List.pairwise_map]
    apply List.Pairwise.imp_of_mem _ sorted
    intro left right leftIn rightIn before
    rw [mem_sortedOn] at leftIn rightIn
    have leftRecord := getElem_of_mem_group member leftIn
    have rightRecord := getElem_of_mem_group member rightIn
    exact ⟨left.1, right.1, _, _, leftRecord, rightRecord,
      read _ (List.mem_of_getElem? leftRecord), read _ (List.mem_of_getElem? rightRecord), before⟩
  appearing := by
    rw [List.pairwise_map]
    apply pairwise_groupEntries.imp
    intro group later before
    obtain ⟨first, inGroup, least⟩ := before
    refine ⟨first.2, List.mem_map_of_mem (mem_sortedOn.mpr inGroup), ?_⟩
    intro other inLater
    obtain ⟨entry, sorted, rfl⟩ := List.mem_map.mp inLater
    exact least entry (mem_sortedOn.mp sorted)

/-- A group is sorted into the records of its places. -/
theorem sortedByKey_group {group : Nat × List (TweetRecord × Nat)}
    (member : group ∈ groupEntries records) :
    sortedByKey chronological (group.2.map Prod.fst) =
      .ok ((threadPlaces group).filterMap (records[·]?)) := by
  have keyed : ∀ record ∈ group.2.map Prod.fst, chronological record = .ok (threadKey record) := by
    intro record inGroup
    obtain ⟨entry, inEntries, rfl⟩ := List.mem_map.mp inGroup
    exact read _ (List.mem_of_getElem? (getElem_of_mem_group member inEntries))
  have found : ∀ entry ∈ sortedOn (fun entry : TweetRecord × Nat => threadKey entry.1) group.2,
      records[entry.2]? = some entry.1 := by
    intro entry sorted
    exact getElem_of_mem_group member (mem_sortedOn.mp sorted)
  have listed : (threadPlaces group).filterMap (records[·]?) =
      (sortedOn (fun entry : TweetRecord × Nat => threadKey entry.1) group.2).map Prod.fst := by
    unfold threadPlaces
    rw [List.filterMap_map, ← List.filterMap_eq_map]
    exact List.filterMap_congr found
  rw [sortedByKey_eq keyed, listed]
  unfold sortedOn
  rw [List.map_insertionSort
    (r := fun left right : TweetRecord × Nat => threadKey left.1 ≤ threadKey right.1)
    (s := fun left right => threadKey left ≤ threadKey right)]
  intro left _ right _
  rfl

theorem stitch_eq :
    stitch records = .ok (((groupEntries records).map threadPlaces).map fun thread =>
      thread.filterMap (records[·]?)) := by
  unfold stitch
  simp only [groups_eq]
  rw [List.mapM_map, List.map_map]
  apply mapM_eq_of_ok
  intro group member
  exact sortedByKey_group read member

end Read

theorem stitch_eq_error (unreadable : hasUnreadableId records) :
    stitch records = .error .valueError := by
  obtain ⟨record, member, digits, unread⟩ := unreadable
  unfold stitch
  simp only [groups_eq]
  cases ran : ((groupEntries records).map fun group => (group.1, group.2.map Prod.fst)).mapM
      fun group => sortedByKey chronological group.2 with
  | ok threads =>
      obtain ⟨place, found⟩ := List.mem_iff_getElem?.mp member
      have inBatch := (List.getElem?_eq_some_iff.mp found).1
      obtain ⟨group, isGroup, isRoot⟩ := exists_group inBatch
      have inGroup : (record, place) ∈ group.2 := by
        rw [(mem_groupEntries isGroup).2, List.mem_filter]
        exact ⟨List.mk_mem_zipIdx_iff_getElem?.mpr found, by simpa using isRoot.symm⟩
      obtain ⟨thread, _, sorted⟩ := exists_output_of_mapM_eq_ok ran (List.mem_map_of_mem isGroup)
      unfold sortedByKey at sorted
      rw [bind_eq_ok] at sorted
      obtain ⟨keys, keyed, _⟩ := sorted
      obtain ⟨key, _, taken⟩ := exists_output_of_mapM_eq_ok keyed (List.mem_map_of_mem inGroup)
      rw [chronological_unreadable digits unread] at taken
      contradiction
  | error raised =>
      obtain ⟨group, _, failed⟩ := exists_of_mapM_eq_error ran
      unfold sortedByKey at failed
      obtain keyed | ⟨keys, _, impossible⟩ := bind_eq_error.mp failed
      · obtain ⟨first, _, unkeyed⟩ := exists_of_mapM_eq_error keyed
        rw [chronological_eq_error unkeyed]
      · contradiction

/-- An export is recombined into the threads its reply edges make. -/
theorem stitchesThreads : StitchesThreads := by
  intro records
  constructor
  · intro readable
    have read : ∀ record ∈ records, chronological record = .ok (threadKey record) := by
      intro record member
      apply chronological_eq
      intro digits unread
      exact readable ⟨record, member, digits, unread⟩
    exact ⟨_, stitched_threadPlaces read, stitch_eq read⟩
  · intro unreadable
    exact stitch_eq_error unreadable

end Vidit.Ingest
