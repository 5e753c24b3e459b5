import Mathlib.Data.Prod.Lex
import Mathlib.Order.WithBot
import Vidit.Browser.Times
import Vidit.Library.Latest
import Vidit.Python.Uuid

/-!
Contract: the contour of a site that holds on a day, as each reader picks it.

Owns:
- `zones_at`, the contour `_linked_events` measures against, the current contour of
  `build_version_reads`, and the browser's `contourOn` on the contours as read;
- what each of them picks, and when they pick the same.

Does not own: the zones, the events, and how a contour comes to be superseded.

Proof shape: each pick is the first or the last row of a sort, so that it is a greatest one by the
key of its reader; the readers agree where one contour is past the others by both keys.
-/

namespace Vidit.Sites.Zones

open Vidit.Python Vidit.Calendar Vidit.Library Vidit.Browser

/-- A contour, joined to the source it is drawn on. -/
structure Contour where
  id : Uuid
  siteId : Uuid
  capturedAt : Datetime
  createdAt : Datetime
  supersededAt : Option Datetime
deriving DecidableEq

/-- `live_contours`. -/
def Contour.isLive (contour : Contour) : Bool :=
  contour.supersededAt = none

/-- `_captured_date` is on or before the day, where there is one. -/
def Contour.capturedBy (contour : Contour) (asOf : Option Date) : Bool :=
  asOf.all fun day => contour.capturedAt.date ≤ day

/-! ### The picks -/

/-- The ORDER BY of `zones_at`. -/
def zoneKey (contour : Contour) : Uuid ×ₗ Datetimeᵒᵈ ×ₗ Datetimeᵒᵈ :=
  toLex (contour.siteId, toLex (.toDual contour.capturedAt, .toDual contour.createdAt))

/-- DISTINCT ON the site. -/
def distinctSites (seen : List Uuid) : List Contour → List Contour
  | [] => []
  | contour :: rest =>
    if contour.siteId ∈ seen then distinctSites seen rest
    else contour :: distinctSites (contour.siteId :: seen) rest

/-- `zones_at`, of the rows in the order they are scanned. -/
def zonesAt (scan : List Contour) (asOf : Option Date) : List Contour :=
  distinctSites [] (sortedOn zoneKey (scan.filter fun contour =>
    contour.isLive && contour.capturedBy asOf))

def zoneAt (scan : List Contour) (asOf : Option Date) (siteId : Uuid) : Option Contour :=
  (zonesAt scan asOf).find? fun contour => contour.siteId = siteId

/-- The ORDER BY of `measured`; a time that does not hold comes last. -/
def measuredKey (occurred : Option Date) (contour : Contour) :
    Boolᵒᵈ ×ₗ WithTop Datetimeᵒᵈ ×ₗ WithTop Datetimeᵒᵈ ×ₗ Datetime ×ₗ Datetime :=
  let valid := contour.capturedBy occurred
  let case (time : Datetime) : WithTop Datetimeᵒᵈ := if valid then ↑(OrderDual.toDual time) else ⊤
  toLex (.toDual valid, toLex (case contour.capturedAt, toLex (case contour.createdAt,
    toLex (contour.capturedAt, contour.createdAt))))

/-- The contour `_linked_events` measures an event of that date against. -/
def measuredContour (scan : List Contour) (siteId : Uuid) (occurred : Option Date) :
    Option Contour :=
  (sortedOn (measuredKey occurred) (scan.filter fun contour =>
    contour.siteId = siteId && contour.isLive)).head?

/-- `_contour_order`, also the ORDER BY of `_contours`. -/
def contourOrderKey (contour : Contour) : Datetime ×ₗ Datetime ×ₗ Uuid :=
  toLex (contour.capturedAt, toLex (contour.createdAt, contour.id))

/-- `current`, in `build_version_reads`. -/
def currentContour (contours : List Contour) : Option Contour :=
  (sortedOn contourOrderKey contours).getLast?

/-- The contours of a `SiteRead`. -/
def readContours (scan : List Contour) (siteId : Uuid) : List Contour :=
  sortedOn contourOrderKey (scan.filter fun contour => contour.siteId = siteId && contour.isLive)

/-- `contourKey`. -/
def contourKey (contour : Contour) : Str :=
  serialised contour.capturedAt ++ chr ' ' :: serialised contour.createdAt

/-- `contourOrder`. -/
def contourOrder (contours : List Contour) : List Contour :=
  sortedOn (fun contour => collated (contourKey contour)) contours

/-- `utcDay`. -/
def utcDay (time : Datetime) : Str :=
  time.date.isoformat

/-- `contourOn`. -/
def contourOn (contours : List Contour) (day : Str) : Option Contour :=
  (contourOrder contours).foldl
    (fun valid contour => if decide (utcDay contour.capturedAt ≤ day) = true then some contour
      else valid) none

/-! ### What is picked -/

/-- A live contour of the site, captured by the day. -/
def Holds (asOf : Option Date) (siteId : Uuid) (contour : Contour) : Prop :=
  contour.siteId = siteId ∧ contour.isLive = true ∧ contour.capturedBy asOf = true

/-- When a contour starts to hold. -/
def momentKey (contour : Contour) : Datetime ×ₗ Datetime :=
  toLex (contour.capturedAt, contour.createdAt)

variable {scan rest rows : List Contour} {asOf : Option Date} {siteId : Uuid}
  {contour other : Contour} {day : Date}

theorem find_distinctSites (seen : List Uuid) (new : siteId ∉ seen) (contours : List Contour) :
    ((distinctSites seen contours).find? fun contour => contour.siteId = siteId) =
      contours.find? fun contour => contour.siteId = siteId := by
  induction contours generalizing seen with
  | nil => rfl
  | cons first rest inductionHypothesis =>
      unfold distinctSites
      by_cases here : first.siteId = siteId
      · rw [if_neg (here ▸ new), List.find?_cons_of_pos (by simp [here]),
          List.find?_cons_of_pos (by simp [here])]
      · rw [List.find?_cons_of_neg (by simp [here])]
        split
        · exact inductionHypothesis seen new
        · rw [List.find?_cons_of_neg (by simp [here])]
          apply inductionHypothesis
          rw [List.mem_cons]
          exact fun member => member.elim (fun same => here same.symm) new

theorem zoneKey_le_iff (same : contour.siteId = other.siteId) :
    zoneKey contour ≤ zoneKey other ↔ momentKey other ≤ momentKey contour := by
  unfold zoneKey momentKey
  rw [Prod.Lex.toLex_le_toLex, Prod.Lex.toLex_le_toLex, Prod.Lex.toLex_le_toLex]
  simp only [same, lt_irrefl, true_and, false_or, OrderDual.toDual_lt_toDual,
    OrderDual.toDual_le_toDual, OrderDual.toDual_inj]
  rw [@eq_comm _ contour.capturedAt]

/-- `zones_at` picks a contour no other is past. -/
theorem zoneAt_some (picked : zoneAt scan asOf siteId = some contour) :
    contour ∈ scan ∧ Holds asOf siteId contour ∧
      ∀ other ∈ scan, Holds asOf siteId other → momentKey other ≤ momentKey contour := by
  unfold zoneAt zonesAt at picked
  rw [find_distinctSites [] List.not_mem_nil] at picked
  obtain ⟨member, passes, least⟩ := find_sortedOn picked
  rw [List.mem_filter, Bool.and_eq_true] at member
  rw [decide_eq_true_eq] at passes
  refine ⟨member.1, ⟨passes, member.2.1, member.2.2⟩, ?_⟩
  intro other inScan holds
  have ordered := least other
    (List.mem_filter.mpr ⟨inScan, by rw [holds.2.1, holds.2.2]; rfl⟩) (decide_eq_true holds.1)
  exact (zoneKey_le_iff (passes.trans holds.1.symm)).mp ordered

theorem exists_zoneAt (member : contour ∈ scan) (holds : Holds asOf siteId contour) :
    ∃ picked, zoneAt scan asOf siteId = some picked := by
  unfold zoneAt zonesAt
  rw [find_distinctSites [] List.not_mem_nil]
  have listed : contour ∈ scan.filter fun contour => contour.isLive && contour.capturedBy asOf :=
    List.mem_filter.mpr ⟨member, by rw [holds.2.1, holds.2.2]; rfl⟩
  exact exists_find_sortedOn listed (decide_eq_true holds.1)

/-- Of the contours no other is past, the one scanned first is picked. -/
theorem zoneAt_cons (holds : Holds asOf siteId contour)
    (last : ∀ other ∈ rest, Holds asOf siteId other → momentKey other ≤ momentKey contour) :
    zoneAt (contour :: rest) asOf siteId = some contour := by
  unfold zoneAt zonesAt
  rw [find_distinctSites [] List.not_mem_nil,
    List.filter_cons_of_pos (by rw [holds.2.1, holds.2.2]; rfl)]
  apply find_sortedOn_cons
  · exact decide_eq_true holds.1
  intro other member passes
  rw [List.mem_filter, Bool.and_eq_true] at member
  rw [decide_eq_true_eq] at passes
  rw [zoneKey_le_iff (holds.1.trans passes.symm)]
  exact last other member.1 ⟨passes, member.2.1, member.2.2⟩

theorem measuredKey_le (passes : other.capturedBy asOf = true)
    (ordered : measuredKey asOf contour ≤ measuredKey asOf other) :
    contour.capturedBy asOf = true ∧ momentKey other ≤ momentKey contour := by
  unfold measuredKey at ordered
  rw [passes] at ordered
  cases valid : contour.capturedBy asOf with
  | false =>
      rw [valid, Prod.Lex.toLex_le_toLex] at ordered
      obtain less | ⟨same, _⟩ := ordered
      · exact absurd (OrderDual.toDual_lt_toDual.mp less) (by decide)
      · cases same
  | true =>
      refine ⟨rfl, ?_⟩
      rw [valid] at ordered
      simp only [if_true, Prod.Lex.toLex_le_toLex, lt_irrefl, true_and, false_or,
        WithTop.coe_lt_coe, WithTop.coe_eq_coe, OrderDual.toDual_lt_toDual,
        OrderDual.toDual_inj] at ordered
      unfold momentKey
      rw [Prod.Lex.toLex_le_toLex]
      obtain captured | ⟨sameCapture, later⟩ := ordered
      · exact .inl captured
      · refine .inr ⟨sameCapture.symm, ?_⟩
        obtain created | ⟨sameCreation, _⟩ := later
        · exact created.le
        · exact sameCreation.ge

/-- Where a contour holds, an event is measured against one no other is past. -/
theorem measuredContour_some (member : other ∈ scan) (holds : Holds asOf siteId other) :
    ∃ contour, measuredContour scan siteId asOf = some contour ∧ contour ∈ scan ∧
      Holds asOf siteId contour ∧
        ∀ other ∈ scan, Holds asOf siteId other → momentKey other ≤ momentKey contour := by
  have listed : ∀ {other}, other ∈ scan → Holds asOf siteId other → other ∈
      scan.filter fun contour => contour.siteId = siteId && contour.isLive := by
    intro other inScan holds
    rw [List.mem_filter, holds.1, holds.2.1]
    exact ⟨inScan, by simp⟩
  have first : ∀ contours : List Contour, contours.head? = contours.find? fun _ => true := by
    intro contours
    cases contours <;> rfl
  unfold measuredContour
  rw [first]
  obtain ⟨contour, found⟩ : ∃ contour, (sortedOn (measuredKey asOf) (scan.filter fun contour =>
      contour.siteId = siteId && contour.isLive)).find? (fun _ => true) = some contour :=
    exists_find_sortedOn (listed member holds) rfl
  obtain ⟨inScan, _, least⟩ := find_sortedOn found
  rw [List.mem_filter, Bool.and_eq_true, decide_eq_true_eq] at inScan
  have valid := (measuredKey_le holds.2.2 (least other (listed member holds) rfl)).1
  refine ⟨contour, found, inScan.1, ⟨inScan.2.1, inScan.2.2, valid⟩, ?_⟩
  intro other member holds
  exact (measuredKey_le holds.2.2 (least other (listed member holds) rfl)).2

theorem currentContour_some {contours : List Contour} (member : other ∈ contours) :
    ∃ contour, currentContour contours = some contour ∧ contour ∈ contours ∧
      ∀ other ∈ contours, momentKey other ≤ momentKey contour := by
  unfold currentContour
  obtain ⟨contour, last⟩ : ∃ contour, (sortedOn contourOrderKey contours).getLast? = some contour :=
    exists_getLast_sortedOn member
  obtain ⟨listed, greatest⟩ := getLast_sortedOn last
  refine ⟨contour, last, listed, ?_⟩
  intro other member
  have ordered := greatest other member
  unfold contourOrderKey at ordered
  unfold momentKey
  rw [Prod.Lex.toLex_le_toLex, Prod.Lex.toLex_le_toLex] at ordered
  rw [Prod.Lex.toLex_le_toLex]
  obtain captured | ⟨sameCapture, later⟩ := ordered
  · exact .inl captured
  · refine .inr ⟨sameCapture, ?_⟩
    obtain created | ⟨sameCreation, _⟩ := later
    · exact created.le
    · exact sameCreation.le

/-- What the browser orders contours by. -/
def textOrder (contour : Contour) : List Nat :=
  collated (contourKey contour)

theorem contourOn_eq (contours : List Contour) :
    contourOn contours day.isoformat =
      ((contourOrder contours).filter fun contour => contour.capturedBy (some day)).getLast? := by
  have passes : ∀ contour : Contour, decide (utcDay contour.capturedAt ≤ day.isoformat) =
      contour.capturedBy (some day) := by
    intro contour
    unfold utcDay Contour.capturedBy
    rw [Option.all_some, decide_eq_decide]
    exact isoformat_le_iff
  unfold contourOn
  simp only [passes]
  rw [foldl_keep_last, Option.or_none]

theorem mem_readContours :
    contour ∈ readContours scan siteId ↔
      contour ∈ scan ∧ contour.siteId = siteId ∧ contour.isLive = true := by
  unfold readContours
  rw [mem_sortedOn, List.mem_filter, Bool.and_eq_true, decide_eq_true_eq]

/-- The browser picks a contour whose text no other is past. -/
theorem contourOn_some
    (picked : contourOn (readContours scan siteId) day.isoformat = some contour) :
    contour ∈ scan ∧ Holds (some day) siteId contour ∧
      ∀ other ∈ scan, Holds (some day) siteId other → textOrder other ≤ textOrder contour := by
  rw [contourOn_eq] at picked
  obtain ⟨listed, passes, greatest⟩ := keep_last_sortedOn picked
  rw [mem_readContours] at listed
  refine ⟨listed.1, ⟨listed.2.1, listed.2.2, passes⟩, ?_⟩
  intro other member holds
  exact greatest other (mem_readContours.mpr ⟨member, holds.1, holds.2.1⟩) holds.2.2

theorem exists_contourOn (member : other ∈ scan) (holds : Holds (some day) siteId other) :
    ∃ contour, contourOn (readContours scan siteId) day.isoformat = some contour := by
  rw [contourOn_eq]
  exact exists_keep_last_sortedOn (mem_readContours.mpr ⟨member, holds.1, holds.2.1⟩) holds.2.2

/-! ### The two orders -/

/-- The text of the earlier contour is past the later one's: a time of it is the whole second the
other's is a fraction past. -/
def Overtakes (earlier later : Contour) : Prop :=
  IsWholeSecondOf earlier.capturedAt later.capturedAt ∨
    earlier.capturedAt = later.capturedAt ∧ IsWholeSecondOf earlier.createdAt later.createdAt

theorem textOrder_lt (less : textKey contour.capturedAt < textKey other.capturedAt ∨
      contour.capturedAt = other.capturedAt ∧
        textKey contour.createdAt < textKey other.createdAt) :
    textOrder contour < textOrder other := by
  unfold textOrder contourKey collated
  rw [List.map_append, List.map_append, List.map_cons, List.map_cons]
  apply serialised_lt
  obtain captured | ⟨sameCapture, created⟩ := less
  · exact .inl captured
  · refine .inr ⟨sameCapture, List.cons_lt_cons_iff.mpr (.inr ⟨rfl, ?_⟩)⟩
    have texts := serialised_lt (x := []) (y := []) (.inl created)
    rw [List.append_nil, List.append_nil] at texts
    exact texts

theorem textOrder_of_overtakes (overtakes : Overtakes contour other) :
    textOrder other < textOrder contour := by
  obtain captured | ⟨sameCapture, created⟩ := overtakes
  · exact textOrder_lt (.inl (textKey_of_wholeSecond captured))
  · exact textOrder_lt (.inr ⟨sameCapture.symm, textKey_of_wholeSecond created⟩)

/-- The texts have the order of the moments, but where one overtakes. -/
theorem textOrder_lt_iff (less : momentKey contour < momentKey other) :
    textOrder contour < textOrder other ↔ ¬ Overtakes contour other := by
  constructor
  · intro texts overtakes
    exact absurd texts (not_lt.mpr (textOrder_of_overtakes overtakes).le)
  · intro clear
    unfold momentKey at less
    rw [Prod.Lex.toLex_lt_toLex] at less
    obtain captured | ⟨sameCapture, created⟩ := less
    · exact textOrder_lt (.inl ((textKey_lt_iff_of_lt captured).mpr fun whole =>
        clear (.inl whole)))
    · exact textOrder_lt (.inr ⟨sameCapture, (textKey_lt_iff_of_lt created).mpr fun whole =>
        clear (.inr ⟨sameCapture, whole⟩)⟩)

/-! ### The law -/

/-- One zone per site and day, in whatever order each query scans the rows. -/
structure OneZone (rows : List Contour) (siteId : Uuid) : Prop where
  dated : ∀ day, (∃ contour ∈ rows, Holds (some day) siteId contour) →
    ∀ scan other read : List Contour, scan.Perm rows → other.Perm rows → read.Perm rows →
      ∃ contour, zoneAt scan (some day) siteId = some contour ∧
        measuredContour other siteId (some day) = some contour ∧
        contourOn (readContours read siteId) day.isoformat = some contour
  undated : (∃ contour ∈ rows, Holds none siteId contour) →
    ∀ scan contours : List Contour, scan.Perm rows →
      contours.Perm (rows.filter fun contour => contour.siteId = siteId && contour.isLive) →
      ∃ contour, zoneAt scan none siteId = some contour ∧ currentContour contours = some contour
  live : ∀ scan : List Contour, scan.Perm rows → ∀ contour,
    ((∃ asOf, zoneAt scan asOf siteId = some contour) ∨
      (∃ occurred, measuredContour scan siteId occurred = some contour) ∨
      ∃ day, contourOn (readContours scan siteId) day = some contour) → contour.isLive = true

/-- One of the contours that hold on the day starts after every other, and its text is past
theirs. -/
def TopClear (rows : List Contour) (siteId : Uuid) (day : Date) : Prop :=
  ∃ top ∈ rows, Holds (some day) siteId top ∧
    ∀ other ∈ rows, Holds (some day) siteId other → other ≠ top →
      momentKey other < momentKey top ∧ ¬ Overtakes other top

theorem isLive_of_picked
    (picked : (∃ asOf, zoneAt scan asOf siteId = some contour) ∨
      (∃ occurred, measuredContour scan siteId occurred = some contour) ∨
      ∃ day, contourOn (readContours scan siteId) day = some contour) : contour.isLive = true := by
  obtain ⟨asOf, picked⟩ | ⟨occurred, picked⟩ | ⟨day, picked⟩ := picked
  · exact (zoneAt_some picked).2.1.2.1
  · have member := List.mem_of_mem_head? picked
    rw [mem_sortedOn, List.mem_filter, Bool.and_eq_true] at member
    exact member.2.2
  · unfold contourOn at picked
    rw [foldl_keep_last, Option.or_none] at picked
    obtain ⟨listed, _⟩ := keep_last_sortedOn picked
    exact (mem_readContours.mp listed).2.2

/-- Two contours are past each other only where they are the same. -/
theorem eq_of_top {top : Contour} {key : Contour → κ} [LinearOrder κ]
    (clear : ∀ other ∈ rows, Holds asOf siteId other → other ≠ top → key other < key top)
    (member : contour ∈ rows) (holds : Holds asOf siteId contour)
    (past : key top ≤ key contour) : contour = top := by
  by_contra different
  exact absurd past (not_le.mpr (clear contour member holds different))

theorem date_le_of_momentKey_le (ordered : momentKey contour ≤ momentKey other) :
    contour.capturedAt.date ≤ other.capturedAt.date := by
  unfold momentKey at ordered
  rw [Prod.Lex.toLex_le_toLex] at ordered
  obtain captured | ⟨sameCapture, _⟩ := ordered
  · obtain date | ⟨sameDate, _⟩ := datetime_lt_iff.mp captured
    · exact date.le
    · exact sameDate.le
  · exact (congrArg Datetime.date sameCapture).le

/-- By the day of the last capture every live contour holds. -/
theorem exists_lastDay (held : ∃ contour ∈ rows, Holds none siteId contour) :
    ∃ day, (∃ contour ∈ rows, Holds (some day) siteId contour) ∧
      ∀ contour ∈ rows, Holds none siteId contour → Holds (some day) siteId contour := by
  obtain ⟨contour, member, holds⟩ := held
  obtain ⟨last, picked⟩ := exists_zoneAt member holds
  obtain ⟨listed, lastHolds, greatest⟩ := zoneAt_some picked
  have all : ∀ contour ∈ rows, Holds none siteId contour →
      Holds (some last.capturedAt.date) siteId contour := by
    intro contour inRows holds
    have captured := date_le_of_momentKey_le (greatest contour inRows holds)
    exact ⟨holds.1, holds.2.1, decide_eq_true captured⟩
  exact ⟨_, ⟨last, listed, all last listed lastHolds⟩, all⟩

theorem OneZone.of_topClear
    (clear : ∀ day, (∃ contour ∈ rows, Holds (some day) siteId contour) →
      TopClear rows siteId day) : OneZone rows siteId where
  dated := by
    intro day held scan other read scanned others reads
    obtain ⟨top, member, holds, past⟩ := clear day held
    have moments := fun other inRows held different => (past other inRows held different).1
    refine ⟨top, ?_, ?_, ?_⟩
    · obtain ⟨picked, found⟩ := exists_zoneAt (scanned.mem_iff.mpr member) holds
      obtain ⟨inScan, valid, greatest⟩ := zoneAt_some found
      rw [found, eq_of_top moments (scanned.mem_iff.mp inScan) valid
        (greatest top (scanned.mem_iff.mpr member) holds)]
    · obtain ⟨picked, found, inScan, valid, greatest⟩ :=
        measuredContour_some (others.mem_iff.mpr member) holds
      rw [found, eq_of_top moments (others.mem_iff.mp inScan) valid
        (greatest top (others.mem_iff.mpr member) holds)]
    · have texts : ∀ other ∈ rows, Holds (some day) siteId other → other ≠ top →
          textOrder other < textOrder top := by
        intro other inRows held different
        obtain ⟨before, clear⟩ := past other inRows held different
        exact (textOrder_lt_iff before).mpr clear
      obtain ⟨picked, found⟩ := exists_contourOn (reads.mem_iff.mpr member) holds
      obtain ⟨inRead, valid, greatest⟩ := contourOn_some found
      rw [found, eq_of_top texts (reads.mem_iff.mp inRead) valid
        (greatest top (reads.mem_iff.mpr member) holds)]
  undated := by
    intro held scan contours scanned lists
    obtain ⟨day, heldThen, all⟩ := exists_lastDay held
    obtain ⟨top, member, holds, past⟩ := clear day heldThen
    have moments : ∀ other ∈ rows, Holds none siteId other → other ≠ top →
        momentKey other < momentKey top := fun other inRows held different =>
      (past other inRows (all other inRows held) different).1
    have holdsNow : Holds none siteId top := ⟨holds.1, holds.2.1, rfl⟩
    refine ⟨top, ?_, ?_⟩
    · obtain ⟨picked, found⟩ := exists_zoneAt (scanned.mem_iff.mpr member) holdsNow
      obtain ⟨inScan, valid, greatest⟩ := zoneAt_some found
      rw [found, eq_of_top moments (scanned.mem_iff.mp inScan) valid
        (greatest top (scanned.mem_iff.mpr member) holdsNow)]
    · have listed : ∀ {contour}, contour ∈ contours ↔
          contour ∈ rows ∧ contour.siteId = siteId ∧ contour.isLive = true := by
        intro contour
        rw [lists.mem_iff, List.mem_filter, Bool.and_eq_true, decide_eq_true_eq]
      have inContours := listed.mpr ⟨member, holds.1, holds.2.1⟩
      obtain ⟨picked, found, inList, greatest⟩ := currentContour_some inContours
      obtain ⟨inRows, ofSite, isLive⟩ := listed.mp inList
      rw [found, eq_of_top moments inRows ⟨ofSite, isLive, rfl⟩ (greatest top inContours)]
  live scan _ contour picked := isLive_of_picked picked

/-- The readers pick one contour on every day exactly when one is past the others on each. -/
theorem oneZone_iff (rows : List Contour) (siteId : Uuid) :
    OneZone rows siteId ↔ ∀ day, (∃ contour ∈ rows, Holds (some day) siteId contour) →
      TopClear rows siteId day := by
  refine ⟨?_, OneZone.of_topClear⟩
  intro one day held
  obtain ⟨top, zone, _, browser⟩ := one.dated day held rows rows rows (.refl _) (.refl _) (.refl _)
  obtain ⟨member, holds, greatest⟩ := zoneAt_some zone
  refine ⟨top, member, holds, ?_⟩
  intro other inRows otherHolds different
  constructor
  · apply lt_of_le_of_ne (greatest other inRows otherHolds)
    intro tied
    -- scanned first, the tied contour is the one picked
    have scanned : (other :: rows.erase other).Perm rows := (List.perm_cons_erase inRows).symm
    have picked : zoneAt (other :: rows.erase other) (some day) siteId = some other :=
      zoneAt_cons otherHolds fun third inRest holdsThird =>
        tied ▸ greatest third (List.mem_of_mem_erase inRest) holdsThird
    obtain ⟨agreed, zoneThen, _, browserThen⟩ :=
      one.dated day held _ rows rows scanned (.refl _) (.refl _)
    rw [picked] at zoneThen
    rw [browser] at browserThen
    exact different ((Option.some.inj zoneThen).trans (Option.some.inj browserThen).symm)
  · intro overtakes
    have texts := (contourOn_some browser).2.2 other inRows otherHolds
    exact absurd texts (not_le.mpr (textOrder_of_overtakes overtakes))

namespace SameSecond

/-! ### Two captures of one second -/

def capturedAt (microsecond : Nat) (isTime : IsTime 12 0 0 microsecond) : Datetime :=
  ⟨⟨2026, 6, 18, by decide⟩, ⟨12, 0, 0, microsecond, isTime⟩⟩

def whole : Contour :=
  ⟨1, 7, capturedAt 0 (by decide), capturedAt 0 (by decide), none⟩

def half : Contour :=
  ⟨2, 7, capturedAt 500000 (by decide), capturedAt 0 (by decide), none⟩

/-- On their day the map shows the later contour, and the browser the earlier one. -/
theorem split_zone :
    zoneAt [whole, half] (some whole.capturedAt.date) 7 = some half ∧
      measuredContour [whole, half] 7 (some whole.capturedAt.date) = some half ∧
      contourOn (readContours [whole, half] 7) (utcDay whole.capturedAt) = some whole := by
  refine ⟨?_, ?_, ?_⟩
  · decide +kernel
  · decide +kernel
  · decide +kernel

end SameSecond

end Vidit.Sites.Zones
