import Mathlib.Data.List.Nodup
import Mathlib.Data.List.Perm.Basic
import Mathlib.Logic.Basic
import Vidit.Ingest.Threads
import Vidit.Library.Checks

/-!
Contract: the media of a thread against the source the thread names.

The source is named in one function and the media are split in another; both
branch on the quotes, then on the sole candidate, then on its chase.

Owns:
- `MediaFollow`: the source's media are those of the post named, or the first own
  video, every own file lands on one side, and no file lands twice;
- when a split keeps that.

Does not own: what the media are fetched as.
-/

namespace Vidit.Ingest

open Vidit.Python Vidit.Library

variable {unicode : Unicode} {clock : Clock} {thread : List TweetRecord}
  {own : List ParsedMedia} {split : List ParsedMedia × List ParsedMedia}

/-- The files of a list of media. -/
def files (media : List ParsedMedia) : List Str :=
  media.map ParsedMedia.remoteUrl

@[simp] theorem files_append (left right : List ParsedMedia) :
    files (left ++ right) = files left ++ files right :=
  List.map_append

/-! ### The first own video -/

/-- The video is the first of the media. -/
def IsFirstVideo (video : ParsedMedia) (media : List ParsedMedia) : Prop :=
  ∃ before after, media = before ++ video :: after ∧ video.kind = .video ∧
    ∀ item ∈ before, item.kind ≠ .video

/-- A promotion takes nothing, or the first video and nothing else. -/
theorem promoteVideo_cases (own : List ParsedMedia) :
    promoteVideo own = ([], own) ∨
      ∃ video before after, own = before ++ video :: after ∧ video.kind = .video ∧
        (∀ item ∈ before, item.kind ≠ .video) ∧ promoteVideo own = ([video], before ++ after) := by
  unfold promoteVideo firstOwnVideoIndex
  cases found : own.findIdx? fun item => item.kind = .video with
  | none => exact Or.inl rfl
  | some index =>
      obtain ⟨inside, isVideo, earlier⟩ := List.findIdx?_eq_some_iff_getElem.mp found
      refine Or.inr ⟨own[index], own.take index, own.drop (index + 1), ?_, by simpa using isVideo,
        ?_, ?_⟩
      · rw [List.getElem_cons_drop, List.take_append_drop]
      · intro item member
        obtain ⟨place, before, rfl⟩ := List.mem_take_iff_getElem.mp member
        have other := earlier place (by omega)
        simpa using other
      · simp [List.getElem?_eq_getElem inside]

theorem promoteVideo_perm (own : List ParsedMedia) :
    ((promoteVideo own).1 ++ (promoteVideo own).2).Perm own := by
  obtain kept | ⟨video, before, after, rfl, _, _, promoted⟩ := promoteVideo_cases own
  · rw [kept]
    exact List.Perm.refl own
  · have moved : (before ++ video :: after).Perm (video :: (before ++ after)) :=
      List.perm_middle
    rw [promoted]
    exact moved.symm

/-! ### The split -/

theorem quotedPosts_of_soleQuote {quote : QuotedTweet} (sole : soleQuote thread = some quote) :
    quotedPosts thread ≠ [] := by
  intro none
  unfold soleQuote at sole
  rw [none] at sole
  cases sole

/-- What a split takes for the source, and the rule that takes it. -/
inductive Takes (unicode : Unicode) (thread : List TweetRecord) :
    List ParsedMedia × List ParsedMedia → Prop where
  | quote (quote : QuotedTweet) (sole : soleQuote thread = some quote) :
      Takes unicode thread (quote.media, ownMedia thread)
  | quotes (several : quotedPosts thread ≠ []) (notSole : soleQuote thread = none) :
      Takes unicode thread ([], ownMedia thread)
  | chased (link : Str) (footage : TelegramFootage) (unquoted : quotedPosts thread = [])
      (sole : soleCandidate unicode thread = .ok (some link))
      (chase : chasedFootage thread link = some footage) :
      Takes unicode thread (footage.media, ownMedia thread)
  | own (candidate : Option Str) (unquoted : quotedPosts thread = [])
      (read : soleCandidate unicode thread = .ok candidate)
      (unchased : ∀ link, candidate = some link → chasedFootage thread link = none) :
      Takes unicode thread (promoteVideo (ownMedia thread))

theorem takes_of_splitMedia (returned : splitMedia unicode thread = .ok split) :
    Takes unicode thread split := by
  unfold splitMedia at returned
  by_cases quoted : quotedPosts thread ≠ []
  · rw [if_pos quoted] at returned
    cases returned
    cases sole : soleQuote thread with
    | some quote => exact .quote quote sole
    | none => exact .quotes quoted sole
  · rw [if_neg quoted] at returned
    rw [ne_eq, not_not] at quoted
    rw [bind_eq_ok] at returned
    obtain ⟨candidate, read, rest⟩ := returned
    cases candidate with
    | none =>
        cases rest
        exact .own none quoted read (by simp)
    | some link =>
        cases chase : chasedFootage thread link with
        | some footage =>
            simp only [chase, pure_eq_ok] at rest
            subst rest
            exact .chased link footage quoted read chase
        | none =>
            simp only [chase, pure_eq_ok] at rest
            subst rest
            apply Takes.own (some link) quoted read
            rintro _ ⟨⟩
            exact chase

/-- The split returns unless reading the sole candidate raises. -/
theorem splitMedia_returns (readable : quotedPosts thread ≠ [] ∨
      ∃ candidate, soleCandidate unicode thread = .ok candidate) :
    ∃ split, splitMedia unicode thread = .ok split := by
  unfold splitMedia
  by_cases quoted : quotedPosts thread ≠ []
  · rw [if_pos quoted]
    exact ⟨_, rfl⟩
  · obtain ⟨candidate, read⟩ := readable.resolve_left quoted
    rw [if_neg quoted, read]
    cases candidate with
    | none => exact ⟨_, rfl⟩
    | some link =>
        cases chase : chasedFootage thread link with
        | none =>
            exact ⟨promoteVideo (ownMedia thread),
              by simp [bind, Except.bind, chase, pure, Except.pure]⟩
        | some footage =>
            exact ⟨(footage.media, ownMedia thread),
              by simp [bind, Except.bind, chase, pure, Except.pure]⟩

/-! ### The source -/

theorem chasedFootage_some {link : Str} {footage : TelegramFootage}
    (chase : chasedFootage thread link = some footage) :
    footage.url = link ∧ ∃ record ∈ thread, record.telegram = some footage := by
  unfold chasedFootage at chase
  obtain ⟨record, member, filed⟩ := List.exists_of_findSome?_eq_some chase
  rw [Option.filter_eq_some_iff] at filed
  exact ⟨by simpa using filed.2, record, member, filed.1⟩

theorem resolveSource_quote {quote : QuotedTweet} {named : Option Str × Option Accounts.Instant}
    (sole : soleQuote thread = some quote)
    (resolved : resolveSource unicode clock thread = .ok named) :
    named.1 = some (canonicalTweetUrl quote.tweetId quote.handle) := by
  unfold resolveSource at resolved
  simp only [sole, bind_eq_ok, pure_eq_ok] at resolved
  obtain ⟨_, _, rfl⟩ := resolved
  rfl

/-- Without a quote the source is the sole candidate. -/
theorem resolveSource_link {candidate : Option Str} {named : Option Str × Option Accounts.Instant}
    (unquoted : quotedPosts thread = []) (read : soleCandidate unicode thread = .ok candidate)
    (resolved : resolveSource unicode clock thread = .ok named) : named.1 = candidate := by
  have notSole : soleQuote thread = none := by
    unfold soleQuote
    rw [unquoted]
    rfl
  unfold resolveSource at resolved
  rw [notSole] at resolved
  simp only [unquoted, ne_eq, not_true_eq_false, if_false, bind_eq_ok, read, Except.ok.injEq]
    at resolved
  obtain ⟨_, rfl, resolved⟩ := resolved
  cases candidate with
  | none =>
      cases resolved
      rfl
  | some link =>
      simp only [bind_eq_ok, pure_eq_ok] at resolved
      obtain ⟨_, _, rfl⟩ := resolved
      rfl

/-! ### Media and their source -/

/-- Whose media the source's are. -/
inductive OfSource (thread : List TweetRecord) : Option Str → List ParsedMedia → Prop where
  | nothing (named : Option Str) : OfSource thread named []
  /-- The media of the one post the thread quotes, which the source names. -/
  | quote (quote : QuotedTweet) (sole : soleQuote thread = some quote) :
      OfSource thread (some (canonicalTweetUrl quote.tweetId quote.handle)) quote.media
  /-- The media of the chased post the source names, in a thread without a quote. -/
  | chased (record : TweetRecord) (footage : TelegramFootage) (member : record ∈ thread)
      (unquoted : quotedPosts thread = []) (chase : record.telegram = some footage) :
      OfSource thread (some footage.url) footage.media
  /-- The first own video, in a thread without a quote whose source was not chased. -/
  | own (named : Option Str) (video : ParsedMedia) (unquoted : quotedPosts thread = [])
      (unchased : ∀ record ∈ thread, ∀ footage, record.telegram = some footage →
        named ≠ some footage.url)
      (first : IsFirstVideo video (ownMedia thread)) : OfSource thread named [video]

theorem ofSource_of_takes {named : Option Str × Option Accounts.Instant}
    (takes : Takes unicode thread split)
    (resolved : resolveSource unicode clock thread = .ok named) :
    OfSource thread named.1 split.1 := by
  cases takes with
  | quote quote sole =>
      rw [resolveSource_quote sole resolved]
      exact .quote quote sole
  | quotes several notSole => exact .nothing named.1
  | chased link footage unquoted sole chase =>
      obtain ⟨rfl, record, member, filed⟩ := chasedFootage_some chase
      rw [resolveSource_link unquoted sole resolved]
      exact .chased record footage member unquoted filed
  | own candidate unquoted read unchased =>
      obtain kept | ⟨video, before, after, split, isVideo, earlier, promoted⟩ :=
        promoteVideo_cases (ownMedia thread)
      · rw [kept]
        exact .nothing named.1
      · rw [promoted, resolveSource_link unquoted read resolved]
        apply OfSource.own candidate video unquoted
        · intro record member footage filed same
          have missed := unchased footage.url same
          unfold chasedFootage at missed
          have unfiled := List.findSome?_eq_none_iff.mp missed record member
          simp [filed] at unfiled
        · exact ⟨before, after, split, isVideo, earlier⟩

/-- Every file of a split is one of the source or of the proof. -/
theorem landed_of_takes (takes : Takes unicode thread split) :
    ∀ media ∈ ownMedia thread, media ∈ split.1 ++ split.2 := by
  intro media member
  cases takes with
  | quote quote sole => exact List.mem_append_right _ member
  | quotes several notSole => exact member
  | chased link footage unquoted sole chase => exact List.mem_append_right _ member
  | own candidate unquoted read unchased => exact (promoteVideo_perm _).mem_iff.mpr member

/-- What a split promises of one thread. -/
structure MediaFollow (unicode : Unicode) (clock : Clock) (thread : List TweetRecord) : Prop where
  /-- The source's media belong to the post named, or are the first own video. -/
  ofSource : ∀ split, splitMedia unicode thread = .ok split →
    ∀ named, resolveSource unicode clock thread = .ok named → OfSource thread named.1 split.1
  /-- A file of an own post lands on one side. -/
  landed : ∀ split, splitMedia unicode thread = .ok split → ∀ media ∈ ownMedia thread,
    Xor (media.remoteUrl ∈ files split.1) (media.remoteUrl ∈ files split.2)
  /-- No file lands twice. -/
  once : ∀ split, splitMedia unicode thread = .ok split → (files (split.1 ++ split.2)).Nodup

/-- The media list no file twice, and none of the own posts. -/
def AreOthers (own media : List ParsedMedia) : Prop :=
  (files media).Nodup ∧ (files media).Disjoint (files own)

/-- Where the links can be read, the own posts list no file twice, and the post taken as the
source lists none twice and none of theirs. -/
structure DistinctFiles (unicode : Unicode) (thread : List TweetRecord) : Prop where
  own : (quotedPosts thread ≠ [] ∨ ∃ candidate, soleCandidate unicode thread = .ok candidate) →
    (files (ownMedia thread)).Nodup
  quote : ∀ quote, soleQuote thread = some quote → AreOthers (ownMedia thread) quote.media
  chased : quotedPosts thread = [] → ∀ link footage,
    soleCandidate unicode thread = .ok (some link) → chasedFootage thread link = some footage →
      AreOthers (ownMedia thread) footage.media

theorem nodup_files_append {media : List ParsedMedia} :
    (files (media ++ own)).Nodup ↔ (files own).Nodup ∧ AreOthers own media := by
  rw [files_append, List.nodup_append']
  unfold AreOthers
  tauto

theorem nodup_files_of_takes (distinct : DistinctFiles unicode thread)
    (takes : Takes unicode thread split) : (files (split.1 ++ split.2)).Nodup := by
  cases takes with
  | quote quote sole =>
      exact nodup_files_append.mpr
        ⟨distinct.own (Or.inl (quotedPosts_of_soleQuote sole)), distinct.quote quote sole⟩
  | quotes several notSole => exact distinct.own (Or.inl several)
  | chased link footage unquoted sole chase =>
      exact nodup_files_append.mpr
        ⟨distinct.own (Or.inr ⟨_, sole⟩), distinct.chased unquoted link footage sole chase⟩
  | own candidate unquoted read unchased =>
      have permuted := (promoteVideo_perm (ownMedia thread)).map ParsedMedia.remoteUrl
      exact permuted.nodup_iff.mpr (distinct.own (Or.inr ⟨_, read⟩))

theorem landed_of_nodup {media : ParsedMedia} (nodup : (files (split.1 ++ split.2)).Nodup)
    (member : media ∈ split.1 ++ split.2) :
    Xor (media.remoteUrl ∈ files split.1) (media.remoteUrl ∈ files split.2) := by
  rw [files_append, List.nodup_append'] at nodup
  obtain inSource | inProof := List.mem_append.mp member
  · have here : media.remoteUrl ∈ files split.1 := List.mem_map_of_mem inSource
    exact Or.inl ⟨here, fun there => nodup.2.2 here there⟩
  · have here : media.remoteUrl ∈ files split.2 := List.mem_map_of_mem inProof
    exact Or.inr ⟨here, fun there => nodup.2.2 there here⟩

theorem mediaFollow_iff (unicode : Unicode) (clock : Clock) (thread : List TweetRecord) :
    MediaFollow unicode clock thread ↔ DistinctFiles unicode thread := by
  constructor
  · intro follows
    refine ⟨?_, ?_, ?_⟩
    · intro readable
      obtain ⟨split, returned⟩ := splitMedia_returns readable
      have nodup := follows.once split returned
      cases takes_of_splitMedia returned with
      | quote quote sole => exact (nodup_files_append.mp nodup).1
      | quotes several notSole => exact nodup
      | chased link footage unquoted sole chase => exact (nodup_files_append.mp nodup).1
      | own candidate unquoted read unchased =>
          exact ((promoteVideo_perm (ownMedia thread)).map ParsedMedia.remoteUrl).nodup_iff.mp nodup
    · intro quote sole
      have returned : splitMedia unicode thread = .ok (quote.media, ownMedia thread) := by
        unfold splitMedia
        rw [if_pos (quotedPosts_of_soleQuote sole), sole]
        rfl
      exact (nodup_files_append.mp (follows.once _ returned)).2
    · intro unquoted link footage sole chase
      have returned : splitMedia unicode thread = .ok (footage.media, ownMedia thread) := by
        unfold splitMedia
        simp [unquoted, sole, chase, bind, Except.bind, pure, Except.pure]
      exact (nodup_files_append.mp (follows.once _ returned)).2
  · intro distinct
    refine ⟨?_, ?_, ?_⟩
    · intro split returned named resolved
      exact ofSource_of_takes (takes_of_splitMedia returned) resolved
    · intro split returned media member
      have takes := takes_of_splitMedia returned
      exact landed_of_nodup (nodup_files_of_takes distinct takes) (landed_of_takes takes media member)
    · intro split returned
      exact nodup_files_of_takes distinct (takes_of_splitMedia returned)

/-! ### A reply that quotes its own thread -/

namespace QuotesItself

/-- The photo of the head, as the export stores it. -/
def photo : ParsedMedia := ⟨.image, str "tweets_media/100-a.jpg", .op⟩

def post (tweetId : Str) (media : List ParsedMedia) (quoted : Option QuotedTweet) : TweetRecord where
  tweetId := tweetId
  handle := str "olena"
  text := []
  createdAt := str "2025-11-12T14:33:00+00:00"
  media := media
  inReplyToStatusId := none
  quoted := quoted
  quotedStatusId := quoted.map QuotedTweet.tweetId
  telegram := none
  externalSources := []
  chaseOutcome := none

/-- The head, quoted. -/
def quotedHead : QuotedTweet where
  tweetId := str "100"
  handle := str "olena"
  text := []
  createdAt := str "2025-11-12T14:33:00+00:00"
  media := [photo]
  externalSources := []

def selfQuote : List TweetRecord :=
  [post (str "100") [photo] none, post (str "101") [] (some quotedHead)]

/-- A day after the posts; every time read is theirs. -/
def reader : Clock where
  now := 1763044380 * 1000000
  fromisoformat := fun _ => some ⟨1762957980 * 1000000, some 0⟩

/-- The head's photo is filed as the source and as the proof. -/
theorem photo_twice : ¬ MediaFollow Unicode.ascii reader selfQuote := by
  intro follows
  have returned : splitMedia Unicode.ascii selfQuote = .ok ([photo], [photo]) := rfl
  have once := follows.once _ returned
  have twice : ¬ (files ([photo] ++ [photo])).Nodup := by decide
  exact twice once

end QuotesItself

end Vidit.Ingest
