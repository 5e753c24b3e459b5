import Vidit.Events.Errors
import Vidit.Ingest.Links

/-!
Contract: what one thread of posts names as its source.

A thread is a list of posts read one way or another, each with its media, the post
it quotes, the links of its text and what a chase found. Everything below reads
that list and nothing else.

Owns:
- the footage candidates and the context links, one of each identity;
- `resolve_source`, `split_media` and `resolve_secondary_sources`.

Does not own: the coordinates, titles and texts of a thread, and the fetches.
-/

namespace Vidit.Ingest

open Vidit.Python Vidit.Accounts Vidit.Events

/-! ### Records -/

inductive MediaKind where
  | image
  | video
deriving DecidableEq, Repr

inductive MediaOrigin where
  | op
  | quote
deriving DecidableEq, Repr

structure ParsedMedia where
  kind : MediaKind
  remoteUrl : Str
  origin : MediaOrigin
deriving DecidableEq, Repr

structure SourceLink where
  url : Str
  shortlink : Option Str
deriving DecidableEq, Repr

structure QuotedTweet where
  tweetId : Str
  handle : Str
  text : Str
  createdAt : Str
  media : List ParsedMedia
  externalSources : List SourceLink
deriving DecidableEq, Repr

/-- A Telegram or TikTok post, chased from its public embed. -/
structure TelegramFootage where
  url : Str
  postedAt : Option Str
  media : List ParsedMedia
deriving DecidableEq, Repr

inductive ChaseOutcome where
  | chased
  | notAccessible
  | transientFailure
  | noTarget
deriving DecidableEq, Repr

structure TweetRecord where
  tweetId : Str
  handle : Str
  text : Str
  createdAt : Str
  media : List ParsedMedia
  inReplyToStatusId : Option Str
  quoted : Option QuotedTweet
  quotedStatusId : Option Str
  telegram : Option TelegramFootage
  externalSources : List SourceLink
  chaseOutcome : Option ChaseOutcome
deriving DecidableEq, Repr

/-! ### Quotes -/

/-- `quoted_posts` past the ids seen. -/
def quotedPostsFrom (seen : List Str) : List TweetRecord → List QuotedTweet
  | [] => []
  | record :: rest =>
    match record.quoted with
    | none => quotedPostsFrom seen rest
    | some quoted =>
      if quoted.tweetId ∈ seen then quotedPostsFrom seen rest
      else quoted :: quotedPostsFrom (quoted.tweetId :: seen) rest

/-- `quoted_posts`. -/
def quotedPosts (thread : List TweetRecord) : List QuotedTweet :=
  quotedPostsFrom [] thread

/-- The only element of a list. -/
def sole {α : Type} : List α → Option α
  | [only] => some only
  | _ => none

/-- `sole_quote`. -/
def soleQuote (thread : List TweetRecord) : Option QuotedTweet :=
  sole (quotedPosts thread)

/-- `_thread_links`: the quoted permalinks, then the links. -/
def threadLinks (thread : List TweetRecord) : List Str :=
  (quotedPosts thread).map (fun post => canonicalTweetUrl post.tweetId post.handle) ++
    thread.flatMap fun record => record.externalSources.map SourceLink.url

/-- The handle of the head. -/
def ownerHandle (thread : List TweetRecord) : Str :=
  (thread.head?.map TweetRecord.handle).getD []

section Threads

variable (unicode : Unicode)

/-! ### Candidates -/

/-- A link is kept unless its kind is left out, once for each identity. -/
def keepFrom (isLeftOut : Str → Except PyError Bool) (seen : List Str) :
    List Str → Except PyError (List Str)
  | [] => .ok []
  | url :: rest => do
    if ← isLeftOut url then keepFrom isLeftOut seen rest
    else do
      let key ← linkIdentity unicode url
      if key ∈ seen then keepFrom isLeftOut seen rest
      else do
        let kept ← keepFrom isLeftOut (key :: seen) rest
        pure (url :: kept)

/-- The links `source_candidates` leaves out. -/
def isNoFootage (ownerHandle url : Str) : Except PyError Bool :=
  if isOwnStatusLink unicode url ownerHandle || isNonStatusXLink unicode url then .ok true
  else do
    if ← isCoordinateLink unicode url then pure true
    else pure (contextHost unicode url).isSome

/-- `source_candidates`. -/
def sourceCandidates (ownerHandle : Str) (urls : List Str) : Except PyError (List Str) :=
  keepFrom unicode (isNoFootage unicode ownerHandle) [] urls

/-- The links `context_links` leaves out. -/
def isNoContext (url : Str) : Except PyError Bool := do
  if ← isCoordinateLink unicode url then pure true
  else pure (contextHost unicode url).isNone

/-- `context_links`. -/
def contextLinks (urls : List Str) : Except PyError (List Str) :=
  keepFrom unicode (isNoContext unicode) [] urls

/-- `thread_candidates`. -/
def threadCandidates (thread : List TweetRecord) : Except PyError (List Str) :=
  sourceCandidates unicode (ownerHandle thread) (threadLinks thread)

/-- `sole_candidate`. -/
def soleCandidate (thread : List TweetRecord) : Except PyError (Option Str) := do
  let candidates ← threadCandidates unicode thread
  pure (sole candidates)

/-- `_chased_footage`: the first chase filed under the link as written. -/
def chasedFootage (thread : List TweetRecord) (link : Str) : Option TelegramFootage :=
  thread.findSome? fun record => record.telegram.filter fun footage => footage.url = link

/-! ### The source -/

/-- A `datetime` as read: the time it shows, and its offset from UTC when it has one. -/
structure ShownTime where
  shown : Instant
  utcOffset : Option Int
deriving DecidableEq, Repr

/-- What times are read with: the clock, and `datetime.fromisoformat`, `none` for a
`ValueError`. -/
structure Clock where
  now : Instant
  fromisoformat : Str → Option ShownTime

/-- The first instant of the year 1. -/
def firstInstant : Instant := -62135596800 * 1000000

/-- The last instant of the year 9999. -/
def lastInstant : Instant := lastSecond * 1000000 + 999999

variable (clock : Clock)

/-- `_posted_at`: `astimezone` raises past the years a `datetime` holds. -/
def postedAt (createdAt : Str) : Except PyError (Option Instant) :=
  match clock.fromisoformat
      (createdAt.flatMap fun point => if point = chr 'Z' then str "+00:00" else [point]) with
  | none => .ok none
  | some parsed =>
    match parsed.utcOffset with
    | none => .ok (some parsed.shown)
    | some offset =>
      if firstInstant ≤ parsed.shown - offset ∧ parsed.shown - offset ≤ lastInstant then
        .ok (some (parsed.shown - offset))
      else .error .overflowError

/-- `_source_posted_at`. -/
def sourcePostedAt (url : Str) (served : Option Str) : Except PyError (Option Instant) := do
  match ← xStatusPostedAt unicode clock.now url with
  | some postedAt => pure (some postedAt)
  | none =>
    match served with
    | none => pure none
    | some text => if text = [] then pure none else postedAt clock text

/-- `resolve_source`. -/
def resolveSource (thread : List TweetRecord) :
    Except PyError (Option Str × Option Instant) :=
  match soleQuote thread with
  | some quote => do
    let url := canonicalTweetUrl quote.tweetId quote.handle
    let postedAt ← sourcePostedAt unicode clock url (some quote.createdAt)
    pure (some url, postedAt)
  | none =>
    if quotedPosts thread ≠ [] then .ok (none, none)
    else do
      match ← soleCandidate unicode thread with
      | none => pure (none, none)
      | some link => do
        let served := (chasedFootage thread link).bind TelegramFootage.postedAt
        let postedAt ← sourcePostedAt unicode clock link served
        pure (some link, postedAt)

/-! ### Media -/

/-- The media of the thread's own posts. -/
def ownMedia (thread : List TweetRecord) : List ParsedMedia :=
  thread.flatMap TweetRecord.media

/-- `first_own_video_index`. -/
def firstOwnVideoIndex (media : List ParsedMedia) : Option Nat :=
  media.findIdx? fun item => item.kind = .video

/-- The split of a thread whose source served no media: the first own video leaves the
proof. -/
def promoteVideo (own : List ParsedMedia) : List ParsedMedia × List ParsedMedia :=
  match firstOwnVideoIndex own with
  | none => ([], own)
  | some index => (own[index]?.toList, own.take index ++ own.drop (index + 1))

/-- `split_media`: the media of the source, and of the proof. -/
def splitMedia (thread : List TweetRecord) :
    Except PyError (List ParsedMedia × List ParsedMedia) :=
  let own := ownMedia thread
  if quotedPosts thread ≠ [] then
    .ok (((soleQuote thread).map QuotedTweet.media).getD [], own)
  else do
    match ← soleCandidate unicode thread with
    | none => pure (promoteVideo own)
    | some link =>
      match chasedFootage thread link with
      | some footage => pure (footage.media, own)
      | none => pure (promoteVideo own)

/-! ### The links beside the source -/

inductive LinkLevel where
  | direct
  | context
deriving DecidableEq, Repr

inductive LinkKind where
  | unknown
  | of (kind : ContextKind)
deriving DecidableEq, Repr

structure LinkSource where
  url : Str
  postedAt : Option Instant
  level : LinkLevel
  kind : LinkKind
  title : Str
deriving DecidableEq, Repr

/-- `_link_source`. -/
def linkSource (url : Str) : Except PyError LinkSource :=
  match contextHost unicode url with
  | some host =>
    .ok { url, postedAt := none, level := .context, kind := .of host.kind, title := host.title }
  | none => do
    let postedAt ← xStatusPostedAt unicode clock.now url
    pure { url, postedAt, level := .direct, kind := .unknown, title := [] }

/-- The loop of `resolve_secondary_sources` that strips the links, past the ones kept. -/
def cleanFrom (source : Str) (cleaned : List Str) : List Str → List Str
  | [] => cleaned
  | raw :: rest =>
    if strip raw ≠ [] ∧ strip raw ≠ source ∧ strip raw ∉ cleaned then
      cleanFrom source (cleaned ++ [strip raw]) rest
    else cleanFrom source cleaned rest

/-- `link_identity(source_url) if source_url else None`. -/
def primaryIdentity (sourceUrl : Option Str) : Except PyError (Option Str) :=
  match sourceUrl with
  | none => .ok none
  | some url => if url = [] then .ok none else some <$> linkIdentity unicode url

/-- The links beside the source, before the cut. -/
def secondaryLinks (thread : List TweetRecord) (sourceUrl : Option Str) :
    Except PyError (List Str) := do
  let primary ← primaryIdentity unicode sourceUrl
  let links := threadLinks thread
  let candidates ← sourceCandidates unicode (ownerHandle thread) links
  let identities ← candidates.mapM (linkIdentity unicode)
  let beside := ((candidates.zip identities).filter fun pair => some pair.2 ≠ primary).map Prod.fst
  let context ← contextLinks unicode links
  pure (cleanFrom (strip (sourceUrl.getD [])) [] (beside ++ context))

/-- `resolve_secondary_sources`. -/
def resolveSecondarySources (thread : List TweetRecord) (sourceUrl : Option Str) :
    Except PyError (List LinkSource) := do
  let cleaned ← secondaryLinks unicode thread sourceUrl
  (cleaned.take (maxSourcesPerEvent - 1)).mapM (linkSource unicode clock)

end Threads

end Vidit.Ingest
