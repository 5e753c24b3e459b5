import Mathlib.Data.List.Chain
import Vidit.Ingest.ScansSoundly
import Vidit.Ingest.Threads

/-!
Contract: the posts read above a tagged or pasted post.

Owns:
- `acquire_from_post`: the one hop, the climb of a bare tag, and the chase that follows;
- `AcquiresThreads`: the posts read are the nearest of one author's reply chain, within
  three fetches, with one coordinate at most, and a read that met none says whether it
  was cut;
- that a post X would not serve only leaves out posts above it;
- that a thread spends one chase, which changes only the posts that declare its target.

Does not own: the body of a post as JSON, the retries of a fetch, and what a chaser
fetches. X answers one id alike through one acquisition, from its cache.

Proof shape: one recursion on the fetches left carries what a climb holds (`Climbs`), a
second the fetches it spent, and a third compares two climbs, one served more than the
other.
-/

namespace Vidit.Ingest

open Vidit.Python

/-! ### Posts -/

/-- `TweetNotAccessible`, and `TweetFetchFailed` with its subclasses. -/
inductive FetchError where
  | notAccessible
  | fetchFailed
deriving DecidableEq, Repr

/-- A post as syndication serves it, each field as its reader takes it. -/
structure SyndicationPost where
  screenName : Option Str
  text : Option Str
  createdAt : Option Str
  media : List ParsedMedia
  inReplyToStatusId : Option Str
  quoted : Option QuotedTweet
  quotedStatusId : Option Str
  externalSources : List SourceLink
deriving DecidableEq, Repr

/-- `fetch_syndication`. -/
abbrev Syndication : Type :=
  Str → Except FetchError SyndicationPost

/-- `record_by_id`: the handle is the author's when the post names none. -/
def recordById (served : Syndication) (tweetId handle : Str) : Except FetchError TweetRecord := do
  let body ← served tweetId
  pure
    { tweetId := tweetId
      handle := body.screenName.getD handle
      text := body.text.getD []
      createdAt := body.createdAt.getD []
      media := body.media
      inReplyToStatusId := body.inReplyToStatusId
      quoted := body.quoted
      quotedStatusId := body.quotedStatusId
      telegram := none
      externalSources := body.externalSources
      chaseOutcome := none }

/-! ### Texts -/

/-- `text.replace(part, other)`, past what is left of a part just replaced. -/
def replaceFrom (part other : Str) : Nat → Str → Str
  | _, [] => []
  | skip + 1, _ :: rest => replaceFrom part other skip rest
  | 0, point :: rest =>
    if part.isPrefixOf (point :: rest) then
      other ++ replaceFrom part other (part.length - 1) rest
    else point :: replaceFrom part other 0 rest

/-- `expand_shortlinks`. -/
def expandShortlinks (text : Str) (links : List SourceLink) : Str :=
  links.foldl (fun text link =>
    match link.shortlink with
    | none => text
    | some shortlink => if shortlink = [] then text else replaceFrom shortlink link.url 0 text)
    text

def isMentionPoint (point : Nat) : Bool :=
  isAsciiAlnum point || point = chr '_'

/-- `_MENTION_RE`. -/
def mentionRe : Regex :=
  .seq (.one fun point => point = chr '@') (.group 1 (.run isMentionPoint 1 (some 15) true))

/-- `regex.sub("", text)`, from a place on. -/
def dropMatches (text : Str) : List Match → Nat → Str
  | [], place => text.drop place
  | found :: rest, place =>
    Python.slice text place found.span.start ++ dropMatches text rest found.span.stop

/-- `is_mentions_only`. -/
def isMentionsOnly (text : Str) : Bool :=
  strip (dropMatches text (finditer text mentionRe) 0) = []

/-- `_is_bare_tag`. -/
def isBareTag (post : TweetRecord) : Bool :=
  post.media = [] && post.quotedStatusId = none && isMentionsOnly post.text

section Acquiring

variable {Double : Type} [DecidableEq Double] (doubles : Doubles Double) (unicode : Unicode)
  (served : Syndication)

/-- `_carries_coordinate`. -/
def carriesCoordinate (record : TweetRecord) : Except PyError Bool := do
  let scan ← scanCoords doubles unicode (expandShortlinks record.text record.externalSources)
  pure (!scan.coords.isEmpty || scan.outOfBounds)

/-- `_self_reply_parent`: a gone parent is none, and so is one of another author. -/
def selfReplyParent (post : TweetRecord) : Except FetchError (Option TweetRecord) :=
  match post.inReplyToStatusId with
  | none => .ok none
  | some id =>
    match recordById served id post.handle with
    | .error .notAccessible => .ok none
    | .error .fetchFailed => .error .fetchFailed
    | .ok parent =>
      if unicode.lower parent.handle = unicode.lower post.handle then .ok (some parent)
      else .ok none

/-! ### The climb -/

/-- The locals of `_climb_to_coords` after its loop, the posts nearest first. -/
structure Climb where
  climbed : List TweetRecord
  current : TweetRecord
  remaining : Nat
  anchored : Bool
  truncated : Bool
deriving DecidableEq, Repr

/-- `_BARE_TAG_MAX_CLIMB`. -/
def bareTagMaxClimb : Nat := 3

/-- The loop, with so many fetches left. -/
def climbFrom : Nat → TweetRecord → Except PyError Climb
  | 0, current => .ok ⟨[], current, 0, false, current.inReplyToStatusId ≠ none⟩
  | remaining + 1, current =>
    match selfReplyParent unicode served current with
    | .error _ => .ok ⟨[], current, remaining, false, true⟩
    | .ok none => .ok ⟨[], current, remaining, false, false⟩
    | .ok (some parent) => do
      if ← carriesCoordinate doubles unicode parent then
        pure ⟨[parent], parent, remaining, true, false⟩
      else
        let above ← climbFrom remaining parent
        pure { above with climbed := parent :: above.climbed }

/-- The footage post above an anchor without media, when a fetch is left for it. -/
def footageAbove (climb : Climb) : Except PyError (List TweetRecord) :=
  if climb.anchored ∧ climb.current.media = [] ∧ 0 < climb.remaining then
    match selfReplyParent unicode served climb.current with
    | .ok (some above) => do
      let carries ← carriesCoordinate doubles unicode above
      pure (if above.media ≠ [] ∧ carries = false then [above] else [])
    | _ => .ok []
  else .ok []

/-- `_climb_to_coords`. -/
def climbToCoords (post : TweetRecord) : Except PyError (List TweetRecord × Bool) := do
  let climb ← climbFrom doubles unicode served bareTagMaxClimb post
  let footage ← footageAbove doubles unicode served climb
  pure ((climb.climbed ++ footage).reverse, climb.truncated)

/-- What is read above a post: the climb of a bare tag, one hop for any other. -/
def readAbove (post : TweetRecord) : Except PyError (List TweetRecord × Bool) :=
  if isBareTag post then climbToCoords doubles unicode served post
  else
    match selfReplyParent unicode served post with
    | .error _ => .ok ([], true)
    | .ok parent => .ok (parent.toList, false)

/-! ### The chase -/

/-- `ChasedPost`. -/
structure ChasedPost where
  url : Str
  postedAt : Option Str
  media : List ParsedMedia
  author : Option Str
  text : Str
  statusId : Option Str
deriving DecidableEq, Repr

/-- `ChaseResult`. -/
structure ChaseResult where
  outcome : ChaseOutcome
  post : Option ChasedPost
deriving DecidableEq, Repr

/-- `apply_chase`. -/
def applyChase (record : TweetRecord) (chased : ChasedPost) : TweetRecord :=
  match chased.statusId with
  | some statusId =>
    { record with
      quoted := record.quoted.or (some
        { tweetId := statusId
          handle := chased.author.getD []
          text := chased.text
          createdAt := chased.postedAt.getD []
          media := chased.media
          externalSources := [] }) }
  | none => { record with telegram := some ⟨chased.url, chased.postedAt, chased.media⟩ }

/-- `_declares`. -/
def declares (record : TweetRecord) (target : Str) : Bool :=
  record.quotedStatusId = some target ||
    record.externalSources.any fun link => link.url = target

/-- The target of `chase_thread`: the first quoted id, else the only source. -/
def chaseTarget (records : List TweetRecord) : Except PyError (Option Str) :=
  match records.findSome? TweetRecord.quotedStatusId with
  | some quotedId => .ok (some quotedId)
  | none => soleCandidate unicode records

/-- What `chase_thread` does with a chase. A link to the thread's own author is no footage. -/
def placeChase (records : List TweetRecord) (target : Str) (result : ChaseResult) :
    List TweetRecord :=
  match result.post with
  | none => records.map fun record =>
      if declares record target then { record with chaseOutcome := some result.outcome }
      else record
  | some chased =>
    let ownHandle := (records.head?.map fun record => unicode.lower record.handle).getD []
    if records.findSome? TweetRecord.quotedStatusId = none ∧
        unicode.lower (chased.author.getD []) = ownHandle then records
    else records.map fun record =>
      if declares record target then applyChase record chased else record

/-- `chase_thread`. -/
def chaseThread (chasePost : Str → ChaseResult) (records : List TweetRecord) :
    Except PyError (List TweetRecord) :=
  if records.any fun record => record.quoted.isSome then .ok records
  else do
    match ← chaseTarget unicode records with
    | none => pure records
    | some target => pure (placeChase unicode records target (chasePost target))

/-- `AcquiredThread`. -/
structure AcquiredThread where
  records : List TweetRecord
  post : TweetRecord
  truncated : Bool
deriving DecidableEq, Repr

/-- `acquire_from_post`. -/
def acquireFromPost (chasePost : Str → ChaseResult) (post : TweetRecord) :
    Except PyError AcquiredThread := do
  let (above, truncated) ← readAbove doubles unicode served post
  let records ← chaseThread unicode chasePost (above ++ [post])
  pure ⟨records, post, truncated⟩

/-! ### What is acquired -/

/-- A post as read, and as a chase of one target leaves it. -/
structure Chased (target : Str) (read chased : TweetRecord) : Prop where
  /-- Only what a chase finds is written. -/
  same : chased = { read with
    quoted := chased.quoted, telegram := chased.telegram, chaseOutcome := chased.chaseOutcome }
  /-- A quote the post came with stays. -/
  quoted : read.quoted ≠ none → chased.quoted = read.quoted
  /-- A post that does not declare the target is as it was read. -/
  declared : declares read target = false → chased = read

/-- A post its author wrote a coordinate in. -/
def WritesCoordinate (record : TweetRecord) : Prop :=
  carriesCoordinate doubles unicode record = .ok true

/-- What is read above a post, earliest first, and whether the read was cut. -/
structure ReadsChain (post : TweetRecord) (above : List TweetRecord) (truncated : Bool) :
    Prop where
  /-- Each post is the parent of the next, by the same author. -/
  linked : (above ++ [post]).IsChain fun parent child =>
    selfReplyParent unicode served child = .ok (some parent)
  /-- A bare tag reads three posts at most, any other post one. -/
  short : above.length ≤ if isBareTag post then bareTagMaxClimb else 1
  /-- A bare tag reads up to the nearest coordinate, and past it one post of footage at most. -/
  nearest : isBareTag post = true →
    (∀ record ∈ above, ¬ WritesCoordinate doubles unicode record) ∨
      ∃ footage anchor below, above = footage ++ anchor :: below ∧
        WritesCoordinate doubles unicode anchor ∧
        (∀ record ∈ footage ++ below, ¬ WritesCoordinate doubles unicode record) ∧
        footage.length ≤ 1 ∧ ∀ record ∈ footage, record.media ≠ [] ∧ anchor.media = []
  /-- A read that met no coordinate and was not cut ends where the chain does. -/
  whole : truncated = false → (∀ record ∈ above, ¬ WritesCoordinate doubles unicode record) →
    isBareTag post = true → ∀ top, (above ++ [post]).head? = some top →
      selfReplyParent unicode served top = .ok none
  /-- A read that was cut met no coordinate: a fetch failed, or the fetches ran out. -/
  cut : truncated = true → (∀ record ∈ above, ¬ WritesCoordinate doubles unicode record) ∧
    ∃ top, (above ++ [post]).head? = some top ∧
      (selfReplyParent unicode served top = .error .fetchFailed ∨
        isBareTag post = true ∧ above.length = bareTagMaxClimb ∧ top.inReplyToStatusId ≠ none)

end Acquiring

/-- One service answers what the other does, and may answer where the other fails. -/
def ServesMore (served better : Syndication) : Prop :=
  ∀ id, served id ≠ .error .fetchFailed → better id = served id

/-- The acquisition of every post, whatever X serves. -/
structure AcquiresThreads {Double : Type} [DecidableEq Double] (doubles : Doubles Double)
    (unicode : Unicode) : Prop where
  /-- The read above a post returns, with the nearest posts of its chain. -/
  reads : ∀ served post, ∃ above truncated,
    readAbove doubles unicode served post = .ok (above, truncated) ∧
      ReadsChain doubles unicode served post above truncated
  /-- A post of another author is never read into the thread. -/
  oneAuthor : ∀ served post above truncated,
    readAbove doubles unicode served post = .ok (above, truncated) →
    ∀ record ∈ above, unicode.lower record.handle = unicode.lower post.handle
  /-- A bare tag spends three fetches at most, any other post one. -/
  spends : ∀ served post, ∃ ids : List Str,
    ids.length ≤ (if isBareTag post then bareTagMaxClimb else 1) ∧
      ∀ other : Syndication, (∀ id ∈ ids, other id = served id) →
        readAbove doubles unicode other post = readAbove doubles unicode served post
  /-- The posts read are chased, and no other post joins them. -/
  chases : ∀ served chasePost post acquired,
    acquireFromPost doubles unicode served chasePost post = .ok acquired →
    ∃ above target, readAbove doubles unicode served post = .ok (above, acquired.truncated) ∧
      acquired.post = post ∧ List.Forall₂ (Chased target) (above ++ [post]) acquired.records
  /-- A thread spends one chase at most. -/
  chasesOnce : ∀ served chasePost post, ∃ target, ∀ other : Str → ChaseResult,
    other target = chasePost target →
    acquireFromPost doubles unicode served other post =
      acquireFromPost doubles unicode served chasePost post
  /-- Only a source of the thread that cannot be read raises. -/
  raises : ∀ served chasePost post raised,
    acquireFromPost doubles unicode served chasePost post = .error raised →
    ∃ above truncated, readAbove doubles unicode served post = .ok (above, truncated) ∧
      soleCandidate unicode (above ++ [post]) = .error raised
  /-- A fetch that fails leaves out posts above it and changes none below. -/
  failsSoft : ∀ served better post above truncated, ServesMore served better →
    readAbove doubles unicode served post = .ok (above, truncated) →
    ∃ more truncated', readAbove doubles unicode better post = .ok (more ++ above, truncated')

/-! ### Parents -/

section Proofs

variable {Double : Type} [DecidableEq Double] {doubles : Doubles Double} {unicode : Unicode}
  {served better : Syndication}

variable (doubles unicode) in
theorem carriesCoordinate_returns (record : TweetRecord) :
    ∃ carries, carriesCoordinate doubles unicode record = .ok carries := by
  unfold carriesCoordinate
  rw [scanCoords_eq]
  exact ⟨_, rfl⟩

theorem not_carries {record : TweetRecord}
    (read : carriesCoordinate doubles unicode record = .ok false) :
    ¬ WritesCoordinate doubles unicode record := by
  intro carries
  rw [WritesCoordinate, read] at carries
  cases carries

theorem selfReplyParent_root {post : TweetRecord} (root : post.inReplyToStatusId = none) :
    selfReplyParent unicode served post = .ok none := by
  unfold selfReplyParent
  rw [root]

/-- A gone parent is no error: only a fetch that failed is one. -/
theorem selfReplyParent_error {post : TweetRecord} {error : FetchError}
    (failed : selfReplyParent unicode served post = .error error) : error = .fetchFailed := by
  unfold selfReplyParent at failed
  split at failed
  case h_1 => cases failed
  case h_2 =>
    split at failed
    case h_1 => cases failed
    case h_2 =>
      cases failed
      rfl
    case h_3 => split at failed <;> cases failed

theorem ServesMore.record (more : ServesMore served better) {id handle : Str}
    (found : recordById served id handle ≠ .error .fetchFailed) :
    recordById better id handle = recordById served id handle := by
  have same : better id = served id := by
    apply more
    intro failed
    apply found
    rw [recordById, failed]
    rfl
  rw [recordById, same]
  rfl

/-- A parent that was served still is. -/
theorem ServesMore.parent (more : ServesMore served better) {post : TweetRecord}
    {parent : Option TweetRecord} (found : selfReplyParent unicode served post = .ok parent) :
    selfReplyParent unicode better post = .ok parent := by
  rw [← found]
  unfold selfReplyParent at found ⊢
  cases reply : post.inReplyToStatusId with
  | none => rfl
  | some id =>
      have kept : recordById better id post.handle = recordById served id post.handle := by
        apply more.record
        intro failed
        simp only [reply, failed] at found
        cases found
      simp only [kept]

/-- A parent is read from one fetch. -/
theorem selfReplyParent_congr {post : TweetRecord} {other : Syndication}
    (agrees : ∀ id ∈ post.inReplyToStatusId.toList, other id = served id) :
    selfReplyParent unicode other post = selfReplyParent unicode served post := by
  unfold selfReplyParent
  cases reply : post.inReplyToStatusId with
  | none => rfl
  | some id =>
      have same : other id = served id := by
        apply agrees
        rw [reply]
        exact List.mem_singleton_self id
      simp only [recordById, same]

theorem selfReplyParent_author {post parent : TweetRecord}
    (reply : selfReplyParent unicode served post = .ok (some parent)) :
    unicode.lower parent.handle = unicode.lower post.handle := by
  unfold selfReplyParent at reply
  split at reply
  case h_1 => cases reply
  case h_2 =>
    split at reply
    case h_1 => cases reply
    case h_2 => cases reply
    case h_3 =>
      split at reply
      case isTrue same =>
        cases reply
        exact same
      case isFalse => cases reply

/-! ### The climb -/

theorem climbFrom_anchored {remaining : Nat} {current parent : TweetRecord}
    (reply : selfReplyParent unicode served current = .ok (some parent))
    (carries : carriesCoordinate doubles unicode parent = .ok true) :
    climbFrom doubles unicode served (remaining + 1) current =
      .ok ⟨[parent], parent, remaining, true, false⟩ := by
  rw [climbFrom]
  simp only [reply, carries]
  rfl

theorem climbFrom_past {remaining : Nat} {current parent : TweetRecord} {above : Climb}
    (reply : selfReplyParent unicode served current = .ok (some parent))
    (carries : carriesCoordinate doubles unicode parent = .ok false)
    (climbed : climbFrom doubles unicode served remaining parent = .ok above) :
    climbFrom doubles unicode served (remaining + 1) current =
      .ok { above with climbed := parent :: above.climbed } := by
  rw [climbFrom]
  simp only [reply, carries]
  simp only [bind, Except.bind, climbed]
  rfl

variable (doubles unicode served) in
/-- What a climb from a post holds, with so many fetches to spend. -/
structure Climbs (fetches : Nat) (post : TweetRecord) (climb : Climb) : Prop where
  linked : (post :: climb.climbed).IsChain fun child parent =>
    selfReplyParent unicode served child = .ok (some parent)
  last : (post :: climb.climbed).getLast? = some climb.current
  spent : climb.climbed.length + climb.remaining ≤ fetches
  anchor : climb.anchored = true → climb.truncated = false ∧
    ∃ below, climb.climbed = below ++ [climb.current] ∧
      WritesCoordinate doubles unicode climb.current ∧
      ∀ record ∈ below, ¬ WritesCoordinate doubles unicode record
  bare : climb.anchored = false →
    ∀ record ∈ climb.climbed, ¬ WritesCoordinate doubles unicode record
  ended : climb.anchored = false → climb.truncated = false →
    selfReplyParent unicode served climb.current = .ok none
  cut : climb.truncated = true →
    selfReplyParent unicode served climb.current = .error .fetchFailed ∨
      climb.climbed.length = fetches ∧ climb.current.inReplyToStatusId ≠ none

/-- One post below a climb that went past its first parent. -/
theorem Climbs.cons {fetches : Nat} {post parent : TweetRecord} {above : Climb}
    (climbs : Climbs doubles unicode served fetches parent above)
    (reply : selfReplyParent unicode served post = .ok (some parent))
    (past : ¬ WritesCoordinate doubles unicode parent) :
    Climbs doubles unicode served (fetches + 1) post
      { above with climbed := parent :: above.climbed } where
  linked := List.IsChain.cons_cons reply climbs.linked
  last := by
    rw [List.getLast?_cons_cons]
    exact climbs.last
  spent := by
    have spent := climbs.spent
    simp only [List.length_cons]
    omega
  anchor := by
    intro anchored
    obtain ⟨uncut, below, climbed, carries, others⟩ := climbs.anchor anchored
    refine ⟨uncut, parent :: below, ?_, carries, ?_⟩
    · simp only [climbed, List.cons_append]
    · exact List.forall_mem_cons.mpr ⟨past, others⟩
  bare := by
    intro unanchored
    exact List.forall_mem_cons.mpr ⟨past, climbs.bare unanchored⟩
  ended := climbs.ended
  cut := by
    intro truncated
    refine (climbs.cut truncated).imp_right ?_
    intro spent
    exact ⟨congrArg (· + 1) spent.1, spent.2⟩

/-- A climb that reads no parent. -/
theorem climbs_nothing {fetches remaining : Nat} {post : TweetRecord} {truncated : Bool}
    (left : remaining ≤ fetches)
    (ended : truncated = false → selfReplyParent unicode served post = .ok none)
    (cut : truncated = true → selfReplyParent unicode served post = .error .fetchFailed ∨
      0 = fetches ∧ post.inReplyToStatusId ≠ none) :
    Climbs doubles unicode served fetches post ⟨[], post, remaining, false, truncated⟩ where
  linked := List.isChain_singleton post
  last := rfl
  spent := by
    rw [List.length_nil, Nat.zero_add]
    exact left
  anchor := by
    intro anchored
    cases anchored
  bare := by
    intro _ record member
    cases member
  ended := fun _ => ended
  cut := cut

variable (doubles unicode served) in
/-- The climb returns: each fetch spent is one parent read or the end of the climb. -/
theorem climbFrom_climbs (fetches : Nat) (post : TweetRecord) :
    ∃ climb, climbFrom doubles unicode served fetches post = .ok climb ∧
      Climbs doubles unicode served fetches post climb := by
  induction fetches generalizing post with
  | zero =>
      refine ⟨_, rfl, climbs_nothing (Nat.le_refl 0) ?_ ?_⟩
      · intro uncut
        apply selfReplyParent_root
        simpa using uncut
      · intro truncated
        exact .inr ⟨rfl, by simpa using truncated⟩
  | succ fetches inductionHypothesis =>
      cases reply : selfReplyParent unicode served post with
      | error error =>
          cases selfReplyParent_error reply
          refine ⟨⟨[], post, fetches, false, true⟩, by rw [climbFrom, reply], ?_⟩
          apply climbs_nothing (Nat.le_succ fetches)
          · intro uncut
            cases uncut
          · intro _
            exact .inl reply
      | ok parent =>
          cases parent with
          | none =>
              refine ⟨⟨[], post, fetches, false, false⟩, by rw [climbFrom, reply], ?_⟩
              apply climbs_nothing (Nat.le_succ fetches)
              · intro _
                exact reply
              · intro truncated
                cases truncated
          | some parent =>
              obtain ⟨carries, carried⟩ := carriesCoordinate_returns doubles unicode parent
              cases carries with
              | true =>
                  refine ⟨_, climbFrom_anchored reply carried, ?_⟩
                  constructor
                  · exact List.isChain_pair.mpr reply
                  · rfl
                  · simp only [List.length_singleton]
                    omega
                  · intro _
                    exact ⟨rfl, [], rfl, carried, fun _ member => by cases member⟩
                  · intro unanchored
                    cases unanchored
                  · intro unanchored
                    cases unanchored
                  · intro truncated
                    cases truncated
              | false =>
                  obtain ⟨above, climbed, climbs⟩ := inductionHypothesis parent
                  exact ⟨_, climbFrom_past reply carried climbed,
                    climbs.cons reply (not_carries carried)⟩

/-- A climb reads what was served for the fetches it spent, and nothing else. -/
theorem climbFrom_spends (fetches : Nat) (post : TweetRecord) {climb : Climb}
    (climbed : climbFrom doubles unicode served fetches post = .ok climb) :
    ∃ ids : List Str, ids.length + climb.remaining ≤ fetches ∧
      ∀ other : Syndication, (∀ id ∈ ids, other id = served id) →
        climbFrom doubles unicode other fetches post = .ok climb := by
  induction fetches generalizing post climb with
  | zero =>
      cases climbed
      exact ⟨[], Nat.le_refl 0, fun _ _ => rfl⟩
  | succ fetches inductionHypothesis =>
      have one : post.inReplyToStatusId.toList.length ≤ 1 := Option.length_toList_le
      cases reply : selfReplyParent unicode served post with
      | error error =>
          rw [climbFrom, reply] at climbed
          cases climbed
          refine ⟨post.inReplyToStatusId.toList, by dsimp only; omega, ?_⟩
          intro other agrees
          rw [climbFrom, selfReplyParent_congr agrees, reply]
      | ok parent =>
          cases parent with
          | none =>
              rw [climbFrom, reply] at climbed
              cases climbed
              refine ⟨post.inReplyToStatusId.toList, by dsimp only; omega, ?_⟩
              intro other agrees
              rw [climbFrom, selfReplyParent_congr agrees, reply]
          | some parent =>
              obtain ⟨carries, carried⟩ := carriesCoordinate_returns doubles unicode parent
              cases carries with
              | true =>
                  rw [climbFrom_anchored reply carried] at climbed
                  cases climbed
                  refine ⟨post.inReplyToStatusId.toList, by dsimp only; omega, ?_⟩
                  intro other agrees
                  exact climbFrom_anchored ((selfReplyParent_congr agrees).trans reply) carried
              | false =>
                  obtain ⟨above, found, _⟩ := climbFrom_climbs doubles unicode served fetches parent
                  rw [climbFrom_past reply carried found] at climbed
                  cases climbed
                  obtain ⟨ids, spent, again⟩ := inductionHypothesis parent found
                  refine ⟨post.inReplyToStatusId.toList ++ ids, ?_, ?_⟩
                  · rw [List.length_append]
                    dsimp only
                    omega
                  · intro other agrees
                    obtain ⟨agreesHere, agreesAbove⟩ := List.forall_mem_append.mp agrees
                    exact climbFrom_past ((selfReplyParent_congr agreesHere).trans reply) carried
                      (again other agreesAbove)

/-- A better served climb has read at least as much, and the same where it met a coordinate. -/
theorem climbFrom_more (more : ServesMore served better) (fetches : Nat) (post : TweetRecord)
    {climb : Climb} (climbed : climbFrom doubles unicode served fetches post = .ok climb) :
    ∃ further rest, climbFrom doubles unicode better fetches post = .ok further ∧
      further.climbed = climb.climbed ++ rest ∧ (climb.anchored = true → further = climb) := by
  induction fetches generalizing post climb with
  | zero =>
      cases climbed
      exact ⟨_, [], rfl, rfl, fun _ => rfl⟩
  | succ fetches inductionHypothesis =>
      cases reply : selfReplyParent unicode served post with
      | error error =>
          rw [climbFrom, reply] at climbed
          cases climbed
          obtain ⟨further, found, _⟩ := climbFrom_climbs doubles unicode better (fetches + 1) post
          exact ⟨further, further.climbed, found, rfl, fun anchored => by cases anchored⟩
      | ok parent =>
          have kept := more.parent reply
          cases parent with
          | none =>
              rw [climbFrom, reply] at climbed
              cases climbed
              refine ⟨_, [], by rw [climbFrom, kept], rfl, fun _ => rfl⟩
          | some parent =>
              obtain ⟨carries, carried⟩ := carriesCoordinate_returns doubles unicode parent
              cases carries with
              | true =>
                  rw [climbFrom_anchored reply carried] at climbed
                  cases climbed
                  exact ⟨_, [], climbFrom_anchored kept carried, rfl, fun _ => rfl⟩
              | false =>
                  obtain ⟨above, found, _⟩ := climbFrom_climbs doubles unicode served fetches parent
                  rw [climbFrom_past reply carried found] at climbed
                  cases climbed
                  obtain ⟨further, rest, again, longer, same⟩ := inductionHypothesis parent found
                  refine ⟨_, rest, climbFrom_past kept carried again, ?_, ?_⟩
                  · simp only [longer, List.cons_append]
                  · intro anchored
                    rw [same anchored]

/-! ### The footage -/

theorem footageAbove_skipped {climb : Climb}
    (skipped : ¬(climb.anchored = true ∧ climb.current.media = [] ∧ 0 < climb.remaining)) :
    footageAbove doubles unicode served climb = .ok [] := by
  unfold footageAbove
  rw [if_neg skipped]

variable (doubles unicode served) in
/-- What joins a climb above its anchor: nothing, or one post of footage. -/
inductive Joins (climb : Climb) : List TweetRecord → Prop where
  | nothing : Joins climb []
  | footage {above : TweetRecord} (anchored : climb.anchored = true)
      (empty : climb.current.media = []) (left : 0 < climb.remaining)
      (filled : above.media ≠ []) (bare : ¬ WritesCoordinate doubles unicode above)
      (reply : selfReplyParent unicode served climb.current = .ok (some above)) :
      Joins climb [above]

variable (doubles unicode served) in
/-- A post above an anchor without media joins only with media and no coordinate. -/
theorem footageAbove_returns (climb : Climb) :
    ∃ footage, footageAbove doubles unicode served climb = .ok footage ∧
      Joins doubles unicode served climb footage := by
  by_cases sought : climb.anchored = true ∧ climb.current.media = [] ∧ 0 < climb.remaining
  · obtain ⟨anchored, empty, left⟩ := sought
    unfold footageAbove
    rw [if_pos ⟨anchored, empty, left⟩]
    cases reply : selfReplyParent unicode served climb.current with
    | error error => exact ⟨[], rfl, .nothing⟩
    | ok parent =>
        cases parent with
        | none => exact ⟨[], rfl, .nothing⟩
        | some above =>
            obtain ⟨carries, carried⟩ := carriesCoordinate_returns doubles unicode above
            simp only [carried, bind, Except.bind, pure, Except.pure]
            by_cases joins : above.media ≠ [] ∧ carries = false
            · rw [if_pos joins]
              rw [joins.2] at carried
              exact ⟨_, rfl, .footage anchored empty left joins.1 (not_carries carried) reply⟩
            · rw [if_neg joins]
              exact ⟨[], rfl, .nothing⟩
  · exact ⟨[], footageAbove_skipped sought, .nothing⟩

theorem footageAbove_more (more : ServesMore served better) {climb : Climb}
    {footage : List TweetRecord}
    (found : footageAbove doubles unicode served climb = .ok footage) :
    ∃ rest, footageAbove doubles unicode better climb = .ok (footage ++ rest) := by
  cases reply : selfReplyParent unicode served climb.current with
  | ok parent =>
      refine ⟨[], ?_⟩
      rw [List.append_nil, ← found]
      unfold footageAbove
      rw [reply, more.parent reply]
  | error error =>
      have nothing : footage = [] := by
        unfold footageAbove at found
        rw [reply] at found
        split at found <;> cases found <;> rfl
      obtain ⟨rest, again, _⟩ := footageAbove_returns doubles unicode better climb
      rw [nothing]
      exact ⟨rest, again⟩

/-! ### The read above -/

theorem climbToCoords_eq {post : TweetRecord} {climb : Climb} {footage : List TweetRecord}
    (climbed : climbFrom doubles unicode served bareTagMaxClimb post = .ok climb)
    (found : footageAbove doubles unicode served climb = .ok footage) :
    climbToCoords doubles unicode served post =
      .ok ((climb.climbed ++ footage).reverse, climb.truncated) := by
  unfold climbToCoords
  simp only [climbed, found, bind, Except.bind, pure, Except.pure]

section Joined

variable {fetches : Nat} {post : TweetRecord} {climb : Climb} {footage : List TweetRecord}

theorem Joins.eq_nil (joined : Joins doubles unicode served climb footage)
    (unanchored : climb.anchored = false) : footage = [] := by
  cases joined with
  | nothing => rfl
  | footage anchored =>
      rw [unanchored] at anchored
      cases anchored

variable (climbs : Climbs doubles unicode served fetches post climb)
  (joined : Joins doubles unicode served climb footage)

include climbs

theorem Climbs.unanchored_of_cut (truncated : climb.truncated = true) :
    climb.anchored = false := by
  cases anchored : climb.anchored with
  | false => rfl
  | true =>
      have whole := (climbs.anchor anchored).1
      rw [truncated] at whole
      cases whole

theorem Climbs.unanchored_of_bare
    (bare : ∀ record ∈ climb.climbed, ¬ WritesCoordinate doubles unicode record) :
    climb.anchored = false := by
  cases anchored : climb.anchored with
  | false => rfl
  | true =>
      obtain ⟨_, below, climbed, carries, _⟩ := climbs.anchor anchored
      have member : climb.current ∈ climb.climbed := by
        rw [climbed]
        exact List.mem_append_right below (List.mem_singleton_self _)
      exact absurd carries (bare _ member)

include joined

/-- A climb and the footage above it are one chain. -/
theorem Climbs.linked_joined :
    (post :: climb.climbed ++ footage).IsChain fun child parent =>
      selfReplyParent unicode served child = .ok (some parent) := by
  cases joined with
  | nothing =>
      rw [List.append_nil]
      exact climbs.linked
  | @footage above _ _ _ _ _ reply =>
      apply climbs.linked.append (List.isChain_singleton above)
      intro last isLast first isFirst
      rw [climbs.last] at isLast
      cases isLast
      cases isFirst
      exact reply

theorem Climbs.length_joined : (climb.climbed ++ footage).length ≤ fetches := by
  have spent := climbs.spent
  cases joined with
  | nothing =>
      rw [List.append_nil]
      omega
  | footage anchored empty left =>
      rw [List.length_append, List.length_singleton]
      omega

/-- The anchor is the only post of a climb with a coordinate, and what joins has none. -/
theorem Climbs.nearest_joined (anchored : climb.anchored = true) :
    ∃ footage' anchor below, (climb.climbed ++ footage).reverse = footage' ++ anchor :: below ∧
      WritesCoordinate doubles unicode anchor ∧
      (∀ record ∈ footage' ++ below, ¬ WritesCoordinate doubles unicode record) ∧
      footage'.length ≤ 1 ∧ ∀ record ∈ footage', record.media ≠ [] ∧ anchor.media = [] := by
  obtain ⟨_, below, climbed, carries, others⟩ := climbs.anchor anchored
  have othersReversed : ∀ record ∈ below.reverse, ¬ WritesCoordinate doubles unicode record := by
    intro record member
    exact others record (List.mem_reverse.mp member)
  cases joined with
  | nothing =>
      refine ⟨[], climb.current, below.reverse, ?_, carries, othersReversed, Nat.zero_le 1, ?_⟩
      · rw [climbed, List.append_nil, List.reverse_concat']
        rfl
      · intro record member
        cases member
  | @footage above _ empty _ filled bare _ =>
      refine ⟨[above], climb.current, below.reverse, ?_, carries, ?_, Nat.le_refl 1, ?_⟩
      · rw [climbed, List.reverse_concat', List.reverse_concat']
        rfl
      · exact List.forall_mem_cons.mpr ⟨bare, othersReversed⟩
      · intro record member
        rw [List.mem_singleton.mp member]
        exact ⟨filled, empty⟩

end Joined

theorem readsChain_of_climbs {post : TweetRecord} {climb : Climb} {footage : List TweetRecord}
    (isBare : isBareTag post = true)
    (climbs : Climbs doubles unicode served bareTagMaxClimb post climb)
    (joined : Joins doubles unicode served climb footage) :
    ReadsChain doubles unicode served post (climb.climbed ++ footage).reverse
      climb.truncated := by
  have reversed : (climb.climbed ++ footage).reverse ++ [post] =
      (post :: climb.climbed ++ footage).reverse := by
    rw [List.cons_append, List.reverse_cons]
  have top : climb.anchored = false →
      ((climb.climbed ++ footage).reverse ++ [post]).head? = some climb.current := by
    intro unanchored
    rw [reversed, joined.eq_nil unanchored, List.append_nil, List.head?_reverse]
    exact climbs.last
  have bare : climb.anchored = false →
      ∀ record ∈ (climb.climbed ++ footage).reverse,
        ¬ WritesCoordinate doubles unicode record := by
    intro unanchored record member
    rw [joined.eq_nil unanchored, List.append_nil, List.mem_reverse] at member
    exact climbs.bare unanchored record member
  constructor
  · rw [reversed, List.isChain_reverse]
    exact climbs.linked_joined joined
  · rw [if_pos isBare, List.length_reverse]
    exact climbs.length_joined joined
  · intro _
    cases anchored : climb.anchored with
    | false => exact .inl (bare anchored)
    | true => exact .inr (climbs.nearest_joined joined anchored)
  · intro whole others _ first isFirst
    have unanchored : climb.anchored = false := by
      apply climbs.unanchored_of_bare
      intro record member
      exact others record (List.mem_reverse.mpr (List.mem_append_left footage member))
    rw [top unanchored] at isFirst
    cases isFirst
    exact climbs.ended unanchored whole
  · intro truncated
    have unanchored := climbs.unanchored_of_cut truncated
    refine ⟨bare unanchored, climb.current, top unanchored, ?_⟩
    apply (climbs.cut truncated).imp_right
    intro spent
    refine ⟨isBare, ?_, spent.2⟩
    rw [joined.eq_nil unanchored, List.append_nil, List.length_reverse]
    exact spent.1

variable (doubles unicode served) in
theorem readAbove_reads (post : TweetRecord) :
    ∃ above truncated, readAbove doubles unicode served post = .ok (above, truncated) ∧
      ReadsChain doubles unicode served post above truncated := by
  unfold readAbove
  cases isBare : isBareTag post with
  | true =>
      obtain ⟨climb, climbed, climbs⟩ :=
        climbFrom_climbs doubles unicode served bareTagMaxClimb post
      obtain ⟨footage, found, joined⟩ := footageAbove_returns doubles unicode served climb
      refine ⟨_, _, ?_, readsChain_of_climbs isBare climbs joined⟩
      rw [if_pos rfl, climbToCoords_eq climbed found]
  | false =>
      rw [if_neg Bool.false_ne_true]
      cases reply : selfReplyParent unicode served post with
      | error error =>
          cases selfReplyParent_error reply
          refine ⟨[], true, rfl, ?_⟩
          constructor
          · exact List.isChain_singleton post
          · simp
          · simp [isBare]
          · intro whole
            cases whole
          · intro _
            exact ⟨fun _ member => (List.not_mem_nil member).elim, post, rfl, .inl reply⟩
      | ok parent =>
          refine ⟨parent.toList, false, rfl, ?_⟩
          constructor
          · cases parent with
            | none => exact List.isChain_singleton post
            | some above => exact List.isChain_pair.mpr reply
          · cases parent <;> simp [isBare]
          · simp [isBare]
          · simp [isBare]
          · intro truncated
            cases truncated

/-- One author wrote a whole chain. -/
theorem ReadsChain.oneAuthor {post : TweetRecord} {above : List TweetRecord} {truncated : Bool}
    (reads : ReadsChain doubles unicode served post above truncated) :
    ∀ record ∈ above, unicode.lower record.handle = unicode.lower post.handle := by
  have linked := reads.linked.imp fun parent child reply => selfReplyParent_author reply
  have authors : ((above ++ [post]).map fun record => unicode.lower record.handle).IsChain Eq :=
    (List.isChain_map _).mpr linked
  rw [List.isChain_iff_pairwise, List.map_append, List.pairwise_append] at authors
  intro record member
  exact authors.2.2 _ (List.mem_map_of_mem member) _ (List.mem_singleton_self _)

theorem footageAbove_spends {climb : Climb} {footage : List TweetRecord}
    (found : footageAbove doubles unicode served climb = .ok footage) :
    ∃ ids : List Str, ids.length ≤ climb.remaining ∧
      ∀ other : Syndication, (∀ id ∈ ids, other id = served id) →
        footageAbove doubles unicode other climb = .ok footage := by
  by_cases sought : climb.anchored = true ∧ climb.current.media = [] ∧ 0 < climb.remaining
  · refine ⟨climb.current.inReplyToStatusId.toList,
      Option.length_toList_le.trans sought.2.2, ?_⟩
    intro other agrees
    rw [← found]
    unfold footageAbove
    rw [selfReplyParent_congr agrees]
  · refine ⟨[], Nat.zero_le _, ?_⟩
    intro other _
    rw [← found, footageAbove_skipped sought, footageAbove_skipped sought]

theorem readAbove_spends (post : TweetRecord) :
    ∃ ids : List Str, ids.length ≤ (if isBareTag post then bareTagMaxClimb else 1) ∧
      ∀ other : Syndication, (∀ id ∈ ids, other id = served id) →
        readAbove doubles unicode other post = readAbove doubles unicode served post := by
  unfold readAbove
  cases isBare : isBareTag post with
  | true =>
      simp only [if_true]
      obtain ⟨climb, climbed, _⟩ := climbFrom_climbs doubles unicode served bareTagMaxClimb post
      obtain ⟨footage, found, _⟩ := footageAbove_returns doubles unicode served climb
      obtain ⟨ids, spent, again⟩ := climbFrom_spends _ _ climbed
      obtain ⟨last, lastSpent, lastAgain⟩ := footageAbove_spends found
      refine ⟨ids ++ last, ?_, ?_⟩
      · rw [List.length_append]
        omega
      · intro other agrees
        obtain ⟨agreesClimb, agreesFootage⟩ := List.forall_mem_append.mp agrees
        rw [climbToCoords_eq climbed found,
          climbToCoords_eq (again other agreesClimb) (lastAgain other agreesFootage)]
  | false =>
      simp only [Bool.false_eq_true, if_false]
      refine ⟨post.inReplyToStatusId.toList, Option.length_toList_le, ?_⟩
      intro other agrees
      rw [selfReplyParent_congr agrees]

theorem readAbove_more (more : ServesMore served better) {post : TweetRecord}
    {above : List TweetRecord} {truncated : Bool}
    (read : readAbove doubles unicode served post = .ok (above, truncated)) :
    ∃ further cut, readAbove doubles unicode better post = .ok (further ++ above, cut) := by
  unfold readAbove at read ⊢
  cases isBare : isBareTag post with
  | true =>
      rw [isBare, if_pos rfl] at read
      rw [if_pos rfl]
      obtain ⟨climb, climbed, climbs⟩ :=
        climbFrom_climbs doubles unicode served bareTagMaxClimb post
      obtain ⟨footage, found, joined⟩ := footageAbove_returns doubles unicode served climb
      rw [climbToCoords_eq climbed found] at read
      cases read
      obtain ⟨longer, rest, again, climbedMore, same⟩ := climbFrom_more more _ _ climbed
      cases anchored : climb.anchored with
      | true =>
          obtain ⟨joinedMore, foundMore⟩ := footageAbove_more more found
          rw [same anchored] at again
          refine ⟨joinedMore.reverse, climb.truncated, ?_⟩
          rw [climbToCoords_eq again foundMore, ← List.append_assoc, List.reverse_append]
      | false =>
          have nothing : footage = [] := by
            rw [footageAbove_skipped (by simp [anchored])] at found
            cases found
            rfl
          obtain ⟨joinedMore, foundMore, _⟩ := footageAbove_returns doubles unicode better longer
          refine ⟨(rest ++ joinedMore).reverse, longer.truncated, ?_⟩
          rw [climbToCoords_eq again foundMore, climbedMore, nothing, List.append_nil,
            List.append_assoc, List.reverse_append]
  | false =>
      rw [isBare, if_neg Bool.false_ne_true] at read
      rw [if_neg Bool.false_ne_true]
      cases reply : selfReplyParent unicode served post with
      | ok parent =>
          rw [reply] at read
          cases read
          rw [more.parent reply]
          exact ⟨[], false, rfl⟩
      | error error =>
          rw [reply] at read
          cases read
          cases again : selfReplyParent unicode better post with
          | error error => exact ⟨[], true, rfl⟩
          | ok parent => exact ⟨parent.toList, false, by rw [List.append_nil]⟩

/-! ### The chase -/

theorem Chased.refl (target : Str) (record : TweetRecord) : Chased target record record where
  same := rfl
  quoted := fun _ => rfl
  declared := fun _ => rfl

theorem chased_applyChase {target : Str} {record : TweetRecord} (chased : ChasedPost)
    (declared : declares record target = true) :
    Chased target record (applyChase record chased) where
  same := by
    unfold applyChase
    split <;> rfl
  quoted := by
    intro quoted
    obtain ⟨quote, found⟩ := Option.ne_none_iff_exists'.mp quoted
    unfold applyChase
    split <;> simp [found]
  declared := by
    intro undeclared
    rw [declared] at undeclared
    cases undeclared

/-- A record is changed only where it declares the target. -/
theorem forall₂_chased {target : Str} (records : List TweetRecord)
    {place : TweetRecord → TweetRecord}
    (placed : ∀ record, declares record target = true → Chased target record (place record)) :
    List.Forall₂ (Chased target) records
      (records.map fun record => if declares record target then place record else record) := by
  rw [List.forall₂_map_right_iff]
  apply List.forall₂_same.mpr
  intro record _
  cases declared : declares record target with
  | true => exact placed record declared
  | false => exact Chased.refl target record

theorem placeChase_chased (records : List TweetRecord) (target : Str) (result : ChaseResult) :
    List.Forall₂ (Chased target) records (placeChase unicode records target result) := by
  unfold placeChase
  split
  case h_1 =>
    apply forall₂_chased
    intro record declared
    exact ⟨rfl, fun _ => rfl, fun undeclared => by rw [declared] at undeclared; cases undeclared⟩
  case h_2 chased _ =>
    dsimp only
    split
    case isTrue => exact List.forall₂_same.mpr fun record _ => Chased.refl target record
    case isFalse => exact forall₂_chased records fun _ => chased_applyChase chased

variable (unicode) in
/-- A chase asks for one target at most, whatever it would find for others. -/
theorem chaseThread_cases (records : List TweetRecord) :
    (∀ chasePost, chaseThread unicode chasePost records = .ok records) ∨
      (∃ target, ∀ chasePost, chaseThread unicode chasePost records =
        .ok (placeChase unicode records target (chasePost target))) ∨
      ∃ raised, soleCandidate unicode records = .error raised ∧
        ∀ chasePost, chaseThread unicode chasePost records = .error raised := by
  unfold chaseThread
  by_cases quoted : (records.any fun record => record.quoted.isSome) = true
  · exact .inl fun _ => by rw [if_pos quoted]
  · simp only [if_neg quoted]
    cases found : chaseTarget unicode records with
    | error raised =>
        refine .inr (.inr ⟨raised, ?_, fun _ => rfl⟩)
        unfold chaseTarget at found
        split at found
        case h_1 => cases found
        case h_2 => exact found
    | ok target =>
        cases target with
        | none => exact .inl fun _ => rfl
        | some target => exact .inr (.inl ⟨target, fun _ => rfl⟩)

theorem acquireFromPost_eq {chasePost : Str → ChaseResult} {post : TweetRecord}
    {above : List TweetRecord} {truncated : Bool}
    (read : readAbove doubles unicode served post = .ok (above, truncated)) :
    acquireFromPost doubles unicode served chasePost post =
      (chaseThread unicode chasePost (above ++ [post])).map fun records =>
        ⟨records, post, truncated⟩ := by
  unfold acquireFromPost
  rw [read]
  simp only [bind, Except.bind, pure, Except.pure]
  cases chaseThread unicode chasePost (above ++ [post]) <;> rfl

end Proofs

end Vidit.Ingest
