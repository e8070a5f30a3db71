import VtopEngine.Lib.Spans
import VtopEngine.State.Models

/-! # The coverage audit

Which bytes or offsets of a source the archive holds, which failed, which are still
pending and which nothing explains (`coverage.rs`).

* `unitRanges`, `rotationUnproven` — what a row's markers prove, and what they cannot
  place.
* `Generations` — which content of a file a row was read from.
* `audit`, `auditUnit` — the report of every source unit.
* `ledgerRows` — the rows of a unit, as the ledger has them.
* `audit_accounts` — every range of a ledger row lands in one unit, and the holes and
  pending entries of a judged unit divide the line between its first and its last
  committed position.
* `failedHoles_name_iff` — when a failed hole names exactly the rows that failed there.
-/

namespace VtopEngine.Cli.Coverage

open VtopEngine.Core State Lib List
open Spans (gaps gaps_spec overlapping spans spans_merges uncovered)
open Lib.Spans (Piece Span)

/-! ## Source units -/

/-- The scope within which committed ranges must tile (`Unit`). -/
inductive SourceUnit
  | Kafka (topic : String) (partition : Int) (consumerGroup : String)
  | File (path : String) (inode : Option Nat) (generation : Nat)
  | SyslogSpool (path : String) (inode : Option Nat)
  deriving DecidableEq, Repr

namespace SourceUnit

/-- Ranges of a file without an inode cannot be told from those of another file at the same path. -/
def judgeable : SourceUnit → Bool
  | .File _ none _ | .SyslogSpool _ none => false
  | _ => true

/-- The unit, whichever content of its file it is. -/
def source : SourceUnit → SourceUnit
  | .File path inode _ => .File path inode 0
  | unit => unit

end SourceUnit

/-- One end of a range whose upper bound is unknown. -/
def END_OF_FILE : Nat := UInt64.size - 1

/-- A file's range: from the window's start if both markers name one file, and over the last read if the window
spans a rotation. -/
def fileLike (startPath : String) (startInode : Option Nat) (startByte : Nat) (path : String) (inode : Option Nat)
    (lastReadStart endByte : Nat) (make : String → Option Nat → SourceUnit) : List (SourceUnit × Nat × Nat) :=
  if startPath = path ∧ startInode = inode then [(make path inode, startByte, endByte)]
  else [(make path inode, lastReadStart, endByte)]

/-- A batch's units and half-open ranges. -/
def unitRanges (record : BatchRecord) : List (SourceUnit × Nat × Nat) :=
  match record.progressStart, record.progressEnd with
  | .Kafka startTopic startPartition startOffset _ _, .Kafka topic partition lastReadStart endOffset consumerGroup =>
    let start := if startTopic = topic ∧ startPartition = partition then startOffset else lastReadStart
    if start < 0 ∨ endOffset < 0 then [] else [(.Kafka topic partition consumerGroup, start.toNat, endOffset.toNat + 1)]
  | .File startPath startInode startByte _ _ _, .File path inode lastReadStart endByte _ _ =>
    fileLike startPath startInode startByte path inode lastReadStart endByte fun path inode => .File path inode 0
  | .SyslogSpool _ startPath startInode startByte _ _ _, .SyslogSpool _ path inode lastReadStart endByte _ _ =>
    fileLike startPath startInode startByte path inode lastReadStart endByte .SyslogSpool
  | _, _ => []

/-- The stretches a window that spans a rotation cannot place: the rest of the old file, and the start of the new one
below the last read. -/
def rotationStretches (startPath : String) (startInode : Option Nat) (startByte : Nat) (path : String)
    (inode : Option Nat) (lastReadStart : Nat) (make : String → Option Nat → SourceUnit) : List (SourceUnit × Nat × Nat) :=
  if startPath = path ∧ startInode = inode then []
  else
    (make startPath startInode, startByte, END_OF_FILE)
      :: if 0 < lastReadStart then [(make path inode, 0, lastReadStart)] else []

def rotationUnproven (record : BatchRecord) : List (SourceUnit × Nat × Nat) :=
  match record.progressStart, record.progressEnd with
  | .File startPath startInode windowStart _ _ _, .File path inode startByte _ _ _ =>
    rotationStretches startPath startInode windowStart path inode startByte fun path inode => .File path inode 0
  | .SyslogSpool _ startPath startInode windowStart _ _ _, .SyslogSpool _ path inode startByte _ _ _ =>
    rotationStretches startPath startInode windowStart path inode startByte .SyslogSpool
  | _, _ => []

/-- The size a row's read saw the file at. -/
def observedSize (record : BatchRecord) : SourceUnit → Option Nat
  | .File path inode _ =>
    [record.progressEnd, record.progressStart].findSome? fun
      | .File readPath readInode _ _ fileSize _ => if readPath = path ∧ readInode = inode then some fileSize else none
      | _ => none
  | _ => none

/-! ## Generations of a file -/

/-- For each path and inode its generation, and the highest end read in it. -/
abbrev Generations := List ((String × Option Nat) × Nat × Nat)

namespace Generations

def find (generations : Generations) (path : String) (inode : Option Nat) : Nat × Nat :=
  ((generations.find? fun entry => entry.1 = (path, inode)).map Prod.snd).getD (0, 0)

/-- A unit in its generation, for a read that ends at `stop`: a file seen smaller than it has been read is new
content. -/
def place (generations : Generations) (unit : SourceUnit) (observed : Option Nat) (stop : Nat) : Generations × SourceUnit :=
  match unit with
  | .File path inode _ =>
    let (generation, readTo) := generations.find path inode
    let (generation, readTo) :=
      if observed.any fun size => 0 < size ∧ size < readTo then (generation + 1, 0) else (generation, readTo)
    (((path, inode), generation, max readTo stop) :: generations, .File path inode generation)
  | unit => (generations, unit)

/-- A unit in the generation its file is in now. -/
def current (generations : Generations) : SourceUnit → SourceUnit
  | .File path inode _ => .File path inode (generations.find path inode).1
  | unit => unit

end Generations

/-! ## Reports -/

structure Hole where
  (start stop : Nat)
  failedBatches : List String
  deriving DecidableEq, Repr

structure Pending where
  batchId : String
  state : BatchState
  (start stop : Nat)
  deriving DecidableEq, Repr

structure UnitReport where
  unit : SourceUnit
  (committed auditedFrom committedThrough : Nat)
  (failedHoles unexplainedHoles : List Hole)
  pending : List Pending
  unproven : List Hole
  duplicated : Nat
  notJudged : Option String
  deriving DecidableEq, Repr

/-- A row as the audit sees it: an empty read covers nothing and is no row. -/
structure Row where
  batchId : String
  state : BatchState
  (start stop : Nat)
  nonempty : start < stop
  deriving DecidableEq

namespace Row

def extent (row : Row) : Piece := ⟨row.start, row.stop⟩

theorem proper (row : Row) : row.extent.start < row.extent.stop := row.nonempty

def Committed (row : Row) : Prop := row.state = .SourceCommitted

def Failed (row : Row) : Prop := row.state = .Failed ∨ row.state = .ReplayRequired

def InFlight (row : Row) : Prop := ¬ row.Failed ∧ ¬ row.Committed

instance (row : Row) : Decidable row.Committed := inferInstanceAs (Decidable (_ = _))

instance (row : Row) : Decidable row.Failed := inferInstanceAs (Decidable (_ ∨ _))

instance (row : Row) : Decidable row.InFlight := inferInstanceAs (Decidable (_ ∧ _))

def Covers (row : Row) (position : Nat) : Prop := row.extent.Contains position

instance (row : Row) (position : Nat) : Decidable (row.Covers position) := inferInstanceAs (Decidable (row.extent.Contains _))

end Row

def Hole.extent (hole : Hole) : Piece := ⟨hole.start, hole.stop⟩

def Pending.extent (entry : Pending) : Piece := ⟨entry.start, entry.stop⟩

def batchIds (span : Span Row) : List String := span.rows.map Row.batchId

/-- The part of a span that lies in a window, as a hole. -/
def failedHole (start stop : Nat) (span : Span Row) : Hole := ⟨max span.start start, min span.stop stop, batchIds span⟩

def unexplainedHole (piece : Piece) : Hole := ⟨piece.start, piece.stop, []⟩

/-- The parts of in-flight rows that lie in a piece. -/
def pendingIn (inFlight : List (Span Row)) (piece : Piece) : List Pending :=
  (overlapping inFlight piece.start piece.stop).flatMap fun span =>
    (span.rows.filter fun row => row.start < piece.stop ∧ piece.start < row.stop).map fun row =>
      ⟨row.batchId, row.state, max row.start piece.start, min row.stop piece.stop⟩

/-- What a unit without a committed range still says about stretches that cannot be placed. -/
def unprovenOnly (unit : SourceUnit) (failed : List (Span Row)) (unproven : List (Nat × Nat)) : Option UnitReport :=
  if unproven.isEmpty ∨ unit.judgeable = false then none
  else
    some
      { unit, committed := 0, auditedFrom := 0, committedThrough := 0, failedHoles := [], unexplainedHoles := [],
        pending := [], duplicated := 0, notJudged := none
        unproven := unproven.flatMap fun (start, stop) => (uncovered start stop failed).map unexplainedHole }

/-- What cannot be placed outside the stretch that is judged, and is not covered by a committed or a failed row. -/
def unprovenOutside (committed failed : List (Span Row)) (auditedFrom committedThrough : Nat)
    (unproven : List (Nat × Nat)) : List Hole :=
  unproven.flatMap fun (start, stop) =>
    (uncovered start stop committed).flatMap fun piece =>
      [(piece.start, min piece.stop auditedFrom), (max piece.start committedThrough, piece.stop)].flatMap fun (start, stop) =>
        if stop ≤ start then [] else (uncovered start stop failed).map unexplainedHole

/-- Below the first committed span only what a failed row names is judged. -/
def holesBelow (failed : List (Span Row)) (auditedFrom : Nat) : List Hole :=
  (failed.takeWhile fun span => span.start < auditedFrom).map fun span =>
    ⟨span.start, min span.stop auditedFrom, batchIds span⟩

/-- What failed rows name in the gaps between committed spans. -/
def holesInGaps (committed failed : List (Span Row)) : List Hole :=
  (gaps committed).flatMap fun gap => (overlapping failed gap.start gap.stop).map (failedHole gap.start gap.stop)

/-- What failed rows leave of the gaps. -/
def piecesInGaps (committed failed : List (Span Row)) : List Piece :=
  (gaps committed).flatMap fun gap => uncovered gap.start gap.stop failed

/-- What in-flight rows leave of that. -/
def unexplainedIn (inFlight : List (Span Row)) (pieces : List Piece) : List Hole :=
  pieces.flatMap fun piece => (uncovered piece.start piece.stop inFlight).map unexplainedHole

/-- What is above the last committed position; the source will read it again. -/
def pendingAbove (rows : List Row) (committedThrough : Nat) : List Pending :=
  (rows.filter fun row => ¬ row.Committed ∧ committedThrough < row.stop).map fun row =>
    ⟨row.batchId, row.state, max row.start committedThrough, row.stop⟩

/-- The report of a unit; none if nothing of it was committed and nothing is unproven. -/
def auditUnit (unit : SourceUnit) (rows : List Row) (unproven : List (Nat × Nat)) : Option UnitReport :=
  let committed := spans Row.extent (rows.filter Row.Committed)
  let failed := spans Row.extent (rows.filter Row.Failed)
  match committed.head?, committed.getLast? with
  | some first, some last =>
    let total := ((committed.flatMap Span.rows).map fun row => row.stop - row.start).sum
    let merged := (committed.map fun span => span.stop - span.start).sum
    let inFlight := spans Row.extent (rows.filter Row.InFlight)
    let report : UnitReport :=
      { unit, committed := (committed.map fun span => span.rows.length).sum, auditedFrom := first.start
        committedThrough := last.stop, failedHoles := [], unexplainedHoles := [], pending := [], unproven := []
        duplicated := min (total - merged) (UInt64.size - 1), notJudged := none }
    if unit.judgeable = false then
      some { report with
        notJudged := some "rows without an inode: another file at the same path cannot be told apart" }
    else
      let failedHoles := holesBelow failed first.start ++ holesInGaps committed failed
      let pieces := piecesInGaps committed failed
      some { report with
        failedHoles
        unexplainedHoles := unexplainedIn inFlight pieces
        pending := pieces.flatMap (pendingIn inFlight) ++ pendingAbove rows last.stop
        unproven := unprovenOutside committed failed first.start last.stop unproven
        auditedFrom := (failedHoles.head?.map fun hole => min hole.start first.start).getD first.start }
  | _, _ => unprovenOnly unit failed unproven

/-! ## The audit -/

/-- The rows of every unit and the stretches that cannot be placed, as far as the records were walked. -/
structure Collected where
  generations : Generations
  rows : List (SourceUnit × Row)
  unproven : List (SourceUnit × Nat × Nat)

namespace Collected

def empty : Collected := ⟨[], [], []⟩

def rowsOf (collected : Collected) (unit : SourceUnit) : List Row :=
  (collected.rows.filter fun entry => entry.1 = unit).map Prod.snd

def unprovenOf (collected : Collected) (unit : SourceUnit) : List (Nat × Nat) :=
  (collected.unproven.filter fun entry => entry.1 = unit).map Prod.snd

/-- One range of a record.  A later generation is new content from its first byte, so what is below its first read
is unproven. -/
def addRange (record : BatchRecord) (collected : Collected) : SourceUnit × Nat × Nat → Collected
  | (unit, start, stop) =>
    if nonempty : start < stop then
      let (generations, unit) := collected.generations.place unit (observedSize record unit) stop
      let skipped :=
        match unit with
        | .File _ _ generation =>
          if 0 < generation ∧ 0 < start ∧ collected.rowsOf unit = [] then [(unit, 0, start)] else []
        | _ => []
      { generations
        rows := collected.rows ++ [(unit, ⟨record.batchId, record.state, start, stop, nonempty⟩)]
        unproven := collected.unproven ++ skipped }
    else collected

def addRecord (collected : Collected) (record : BatchRecord) : Collected :=
  let collected := (unitRanges record).foldl (addRange record) collected
  if record.state = .SourceCommitted then
    { collected with
      unproven := collected.unproven ++ (rotationUnproven record).filterMap fun (unit, start, stop) =>
        if start < stop then some (collected.generations.current unit, start, stop) else none }
  else collected

end Collected

/-- A batch that appears twice is counted once, by its first occurrence. -/
def distinct : List BatchRecord → List BatchRecord
  | [] => []
  | record :: records => record :: (distinct records).filter fun other => other.batchId ≠ record.batchId

/-- Creation order; a timestamp that names no instant comes first. -/
def createdBefore (first second : BatchRecord) : Bool :=
  match first.createdAt, second.createdAt with
  | none, _ => true
  | some _, none => false
  | some first, some second => first ≤ second

def collect (records : List BatchRecord) : Collected :=
  ((distinct records).insertionSort fun first second => createdBefore first second).foldl Collected.addRecord .empty

/-- Audit a set of ledger rows; the order of the reports is not part of the model. -/
def audit (records : List BatchRecord) : List UnitReport :=
  let collected := collect records
  ((collected.rows.map Prod.fst ++ collected.unproven.map Prod.fst).dedup).filterMap fun unit =>
    auditUnit unit (collected.rowsOf unit) (collected.unprovenOf unit)

/-! ## Where a ledger row lands -/

/-- A range that a record read, with the size it saw its file at. -/
structure LedgerRange where
  unit : SourceUnit
  row : Row
  observed : Option Nat

namespace LedgerRange

/-- The ranges of a record that are not empty. -/
def ofRanges (record : BatchRecord) (ranges : List (SourceUnit × Nat × Nat)) : List LedgerRange :=
  ranges.filterMap fun (unit, start, stop) =>
    if nonempty : start < stop then
      some ⟨unit, ⟨record.batchId, record.state, start, stop, nonempty⟩, observedSize record unit⟩
    else none

def ofRecord (record : BatchRecord) : List LedgerRange := ofRanges record (unitRanges record)

def entry (range : LedgerRange) : SourceUnit × Row := (range.unit.source, range.row)

/-- Every range is a row of one unit, in the generation its source is at. -/
def placeAll (generations : Generations) : List LedgerRange → List (SourceUnit × Row)
  | [] => []
  | range :: rest =>
    let (generations, unit) := generations.place range.unit range.observed range.row.stop
    (unit, range.row) :: placeAll generations rest

theorem placeAll_entries (generations ranges) :
    (placeAll generations ranges).map (Prod.map SourceUnit.source id) = ranges.map entry := by
  induction ranges generalizing generations with
  | nil => rfl
  | cons range ranges ih =>
    rw [placeAll, List.map_cons, ih, List.map_cons]
    obtain ⟨unit, row, observed⟩ := range
    cases unit <;> rfl

end LedgerRange

/-- What the distinct records read, in creation order. -/
def ledgerRanges (records : List BatchRecord) : List LedgerRange :=
  ((distinct records).insertionSort fun first second => createdBefore first second).flatMap LedgerRange.ofRecord

/-- The rows of a unit, as the ledger has them. -/
def ledgerRows (records : List BatchRecord) (unit : SourceUnit) : List Row :=
  ((LedgerRange.placeAll [] (ledgerRanges records)).filter fun entry => entry.1 = unit).map Prod.snd

namespace Collected

open LedgerRange

theorem foldl_addRange (record ranges) (collected : Collected) (rest) : (ranges.foldl (addRange record) collected).rows
        ++ placeAll (ranges.foldl (addRange record) collected).generations rest
      = collected.rows ++ placeAll collected.generations (ofRanges record ranges ++ rest) := by
  induction ranges generalizing collected with
  | nil => rfl
  | cons range ranges ih =>
    obtain ⟨unit, start, stop⟩ := range
    rw [List.foldl_cons, ih]
    by_cases nonempty : start < stop <;> simp [addRange, ofRanges, placeAll, nonempty]

theorem foldl_addRecord (records : List BatchRecord) (collected : Collected) : (records.foldl addRecord collected).rows
      = collected.rows ++ placeAll collected.generations (records.flatMap ofRecord) := by
  induction records generalizing collected with
  | nil => simp [placeAll]
  | cons record records ih =>
    rw [List.foldl_cons, ih, List.flatMap_cons, ofRecord, ← foldl_addRange]
    unfold addRecord
    split <;> rfl

end Collected

theorem collect_rows (records) : (collect records).rows = LedgerRange.placeAll [] (ledgerRanges records) :=
  Collected.foldl_addRecord ..

/-- Every range of a distinct record that is not empty lands once, in a unit of its source, and nothing else does. -/
theorem collect_entries (records) : ((collect records).rows.map (Prod.map SourceUnit.source id)).Perm
    ((distinct records).flatMap fun record => (LedgerRange.ofRecord record).map LedgerRange.entry) := by
  rw [collect_rows, LedgerRange.placeAll_entries, ledgerRanges, ← List.map_flatMap]
  exact ((List.perm_insertionSort _ _).flatMap_right _).map _

/-! ## Every position is accounted for -/

section Accounts

variable (rows : List Row) (position : Nat)

/-- A row of a kind covers the position. -/
def CoveredBy (kind : Row → Prop) : Prop := ∃ row ∈ rows, kind row ∧ row.Covers position

instance (kind : Row → Prop) [DecidablePred kind] : Decidable (CoveredBy rows position kind) :=
  inferInstanceAs (Decidable (∃ row ∈ rows, kind row ∧ row.Covers position))

/-- Between the first and the last committed position. -/
def Between : Prop :=
  (∃ row ∈ rows, row.Committed ∧ row.start ≤ position) ∧ ∃ row ∈ rows, row.Committed ∧ position < row.stop

/-- How many of the holes contain the position. -/
def holesAt (holes : List Hole) : Nat := holes.countP fun hole => hole.extent.Contains position

/-- What a report has to say about the rows of its unit. -/
structure Accounts (report : UnitReport) : Prop where
  failed : ∀ position, Between rows position → holesAt position report.failedHoles
      = if ¬ CoveredBy rows position Row.Committed ∧ CoveredBy rows position Row.Failed then 1 else 0
  pending : ∀ position, Between rows position → ((∃ entry ∈ report.pending, entry.extent.Contains position)
      ↔ ¬ CoveredBy rows position Row.Committed ∧ ¬ CoveredBy rows position Row.Failed
        ∧ CoveredBy rows position Row.InFlight)
  unexplained : ∀ position, Between rows position → holesAt position report.unexplainedHoles
      = if ¬ CoveredBy rows position Row.Committed ∧ ¬ CoveredBy rows position Row.Failed
        ∧ ¬ CoveredBy rows position Row.InFlight then 1 else 0
  below : ∀ position, (∀ row ∈ rows, row.Committed → position < row.start) →
    ((∃ hole ∈ report.failedHoles, hole.extent.Contains position) ↔ CoveredBy rows position Row.Failed)
  duplicated : report.duplicated
    = min (∑ position ∈ (Finset.range report.committedThrough).filter fun position => CoveredBy rows position Row.Committed,
        ((rows.countP fun row => row.Committed ∧ row.Covers position) - 1)) (UInt64.size - 1)

end Accounts

section Sweeps

variable {rows : List Row} {committed failed inFlight : List (Span Row)} {position : Nat}

theorem exists_filter {kind : Row → Prop} [DecidablePred kind] :
    (∃ row ∈ rows.filter kind, row.extent.Contains position) ↔ CoveredBy rows position kind := by
  simp [CoveredBy, Row.Covers, and_assoc]

/-- A count of holes is a count of their extents. -/
theorem holesAt_eq (holes) (position) :
    holesAt position holes = (holes.map Hole.extent).countP fun piece => piece.Contains position := by
  rw [countP_map]
  rfl

theorem exists_extent {holes : List Hole} :
    (∃ piece ∈ holes.map Hole.extent, piece.Contains position) ↔ ∃ hole ∈ holes, hole.extent.Contains position := by
  simp

theorem holesAt_eq_zero {holes : List Hole} (outside : ¬ ∃ piece ∈ holes.map Hole.extent, piece.Contains position) :
    holesAt position holes = 0 := by
  rw [holesAt_eq]
  exact countP_eq_zero.mpr (by simpa using outside)

variable {first last : Span Row} {rest : List (Span Row)}
  (committedMerges : Spans.Merges Row.extent (first :: rest) (rows.filter Row.Committed))
  (failedMerges : Spans.Merges Row.extent failed (rows.filter Row.Failed))
  (inFlightMerges : Spans.Merges Row.extent inFlight (rows.filter Row.InFlight))
  (isLast : (first :: rest).getLast? = some last)

section Committed

include committedMerges isLast

theorem between_iff : Between rows position ↔ first.start ≤ position ∧ position < last.stop := by
  unfold Between
  rw [← committedMerges.starts_iff Row.proper, ← committedMerges.stops_iff Row.proper isLast]
  simp [Row.extent, and_assoc]

theorem inGap_iff : (∃ gap ∈ gaps (first :: rest), gap.Contains position)
    ↔ Between rows position ∧ ¬ CoveredBy rows position Row.Committed := by
  rw [(gaps_spec committedMerges.separated committedMerges.nonempty isLast).2.2, between_iff committedMerges isLast]
  refine and_congr_right fun _ => ?_
  rw [← exists_filter, ← committedMerges.covered]
  simp

end Committed

include committedMerges isLast in
/-- The lengths of the committed rows exceed those of the spans by what is covered again. -/
theorem duplicated_eq : (((first :: rest).flatMap Span.rows).map fun row => row.stop - row.start).sum
        - ((first :: rest).map fun span => span.stop - span.start).sum
      = ∑ position ∈ (Finset.range last.stop).filter fun position => CoveredBy rows position Row.Committed,
          ((rows.countP fun row => row.Committed ∧ row.Covers position) - 1) := by
  have bounded : ∀ row ∈ rows.filter Row.Committed, row.extent.stop ≤ last.stop := by
    intro row member
    refine Nat.le_of_not_lt fun beyond => ?_
    exact Nat.lt_irrefl _ ((committedMerges.stops_iff Row.proper isLast).mp ⟨row, member, beyond⟩)
  have total : (((first :: rest).flatMap Span.rows).map fun row => row.stop - row.start).sum
      = ((rows.filter Row.Committed).map fun row => row.extent.stop - row.extent.start).sum :=
    (committedMerges.rows.map _).sum_eq
  rw [total, committedMerges.duplicated bounded]
  refine Finset.sum_congr (Finset.filter_congr fun position _ => exists_filter) fun position _ => ?_
  rw [countP_filter]
  congr 2
  funext row
  rw [Bool.decide_and, Bool.and_comm]
  rfl

theorem holesInGaps_extent (committed failed) : (holesInGaps committed failed).map Hole.extent
      = (gaps committed).flatMap fun gap =>
        (overlapping failed gap.start gap.stop).map fun span => ⟨max span.start gap.start, min span.stop gap.stop⟩ := by
  simp [holesInGaps, map_flatMap, Function.comp_def, failedHole, Hole.extent]

theorem unexplainedIn_extent (inFlight) (pieces) : (unexplainedIn inFlight pieces).map Hole.extent
      = pieces.flatMap fun piece => uncovered piece.start piece.stop inFlight := by
  simp [unexplainedIn, map_flatMap, Function.comp_def, unexplainedHole, Hole.extent]

section Failed

include failedMerges

/-- Cut off at the first committed position, as pieces. -/
theorem holesBelow_extent (auditedFrom) : (holesBelow failed auditedFrom).map Hole.extent
      = (overlapping failed 0 auditedFrom).map fun span => ⟨max span.start 0, min span.stop auditedFrom⟩ := by
  rw [holesBelow, failedMerges.overlapping_zero, map_map]
  simp [Function.comp_def, Hole.extent]

include committedMerges isLast

/-- The failed holes ascend, and hold exactly what failed rows cover below and between the committed spans. -/
theorem failedHoles_spec :
    Spans.Ascending ((holesBelow failed first.start ++ holesInGaps (first :: rest) failed).map Hole.extent)
      ∧ ∀ position, (∃ piece ∈ (holesBelow failed first.start ++ holesInGaps (first :: rest) failed).map Hole.extent,
          piece.Contains position)
        ↔ (position < first.start ∨ (Between rows position ∧ ¬ CoveredBy rows position Row.Committed))
          ∧ CoveredBy rows position Row.Failed := by
  obtain ⟨gapsAscend, gapsAbove, -⟩ := gaps_spec committedMerges.separated committedMerges.nonempty isLast
  obtain ⟨ascending, inGaps⟩ := failedMerges.clipped_flatMap gapsAscend
  have proper := committedMerges.nonempty first mem_cons_self
  rw [map_append, holesBelow_extent failedMerges, holesInGaps_extent]
  refine ⟨pairwise_append.mpr ⟨failedMerges.clipped_ascending .., ascending, ?_⟩, fun position => ?_⟩
  · intro lower isLower upper isUpper
    obtain ⟨span, -, rfl⟩ := mem_map.mp isLower
    obtain ⟨gap, isGap, inGap⟩ := mem_flatMap.mp isUpper
    obtain ⟨span', -, rfl⟩ := mem_map.mp inGap
    have := gapsAbove gap isGap
    simp only
    omega
  · simp only [mem_append, or_and_right, exists_or]
    rw [failedMerges.clipped_contains 0 first.start position, inGaps, inGap_iff committedMerges isLast, exists_filter]
    simp

/-- What is left of the gaps holds exactly the positions no committed and no failed row covers. -/
theorem pieces_spec : Spans.Ascending (piecesInGaps (first :: rest) failed)
      ∧ ∀ position, (∃ piece ∈ piecesInGaps (first :: rest) failed, piece.Contains position)
        ↔ (Between rows position ∧ ¬ CoveredBy rows position Row.Committed) ∧ ¬ CoveredBy rows position Row.Failed := by
  obtain ⟨gapsAscend, -⟩ := gaps_spec committedMerges.separated committedMerges.nonempty isLast
  obtain ⟨ascending, contains⟩ := failedMerges.uncovered_flatMap gapsAscend
  refine ⟨ascending, fun position => ?_⟩
  rw [← inGap_iff committedMerges isLast, ← exists_filter]
  exact contains position

end Failed

include inFlightMerges in
theorem pending_contains (pieces : List Piece) (position : Nat) :
    (∃ entry ∈ pieces.flatMap (pendingIn inFlight), entry.extent.Contains position)
      ↔ (∃ piece ∈ pieces, piece.Contains position) ∧ CoveredBy rows position Row.InFlight := by
  rw [← exists_filter]
  constructor
  · rintro ⟨entry, member, contains⟩
    obtain ⟨piece, isPiece, inPiece⟩ := mem_flatMap.mp member
    obtain ⟨span, isSpan, ofSpan⟩ := mem_flatMap.mp inPiece
    obtain ⟨row, isRow, rfl⟩ := mem_map.mp ofSpan
    rw [inFlightMerges.overlapping_eq] at isSpan
    have isMember := inFlightMerges.row_mem (mem_of_mem_filter isSpan) (mem_of_mem_filter isRow)
    simp only [Pending.extent, Piece.contains_iff] at contains
    exact ⟨⟨piece, isPiece, by omega, by omega⟩, row, isMember, by simp only [Row.extent]; omega,
      by simp only [Row.extent]; omega⟩
  · rintro ⟨⟨piece, isPiece, inside⟩, row, isRow, covers⟩
    -- The row is in a span, and the span meets the piece where the row does.
    obtain ⟨span, isSpan, ofSpan⟩ := mem_flatMap.mp (inFlightMerges.rows.mem_iff.mpr isRow)
    have spanned := (inFlightMerges.contains span isSpan position).mpr ⟨row, ofSpan, covers⟩
    rw [Piece.contains_iff] at inside covers spanned
    simp only [Row.extent] at covers
    have meets : span ∈ overlapping inFlight piece.start piece.stop := by
      rw [inFlightMerges.overlapping_eq]
      exact mem_filter.mpr ⟨isSpan, by simp only [decide_eq_true_eq]; omega⟩
    have kept : row ∈ span.rows.filter fun row => row.start < piece.stop ∧ piece.start < row.stop :=
      mem_filter.mpr ⟨ofSpan, by simp only [decide_eq_true_eq]; omega⟩
    refine ⟨_, mem_flatMap.mpr ⟨piece, isPiece, mem_flatMap.mpr ⟨span, meets, mem_map_of_mem kept⟩⟩, ?_⟩
    simp only [Pending.extent, Piece.contains_iff]
    omega

end Sweeps

theorem auditUnit_accounts {unit : SourceUnit} (unproven)
    (judged : unit.judgeable = true) (committed : ∃ row ∈ rows, row.Committed) :
    ∃ report, auditUnit unit rows unproven = some report ∧ report.notJudged = none ∧ Accounts rows report := by
  have committedMerges := spans_merges Row.proper (rows.filter Row.Committed)
  have failedMerges := spans_merges Row.proper (rows.filter Row.Failed)
  have inFlightMerges := spans_merges Row.proper (rows.filter Row.InFlight)
  unfold auditUnit
  generalize spans Row.extent (rows.filter Row.Committed) = committedSpans at committedMerges
  generalize spans Row.extent (rows.filter Row.Failed) = failed at failedMerges
  generalize spans Row.extent (rows.filter Row.InFlight) = inFlight at inFlightMerges
  obtain ⟨first, rest, rfl⟩ : ∃ first rest, committedSpans = first :: rest := by
    refine exists_cons_of_ne_nil fun none => ?_
    obtain ⟨row, member, isCommitted⟩ := committed
    exact absurd isCommitted (by simpa using filter_eq_nil_iff.mp (committedMerges.eq_nil none) row member)
  obtain ⟨last, isLast⟩ : ∃ last, (first :: rest).getLast? = some last := ⟨_, getLast?_eq_some_getLast (cons_ne_nil _ _)⟩
  simp only [head?_cons, isLast, judged, Bool.true_eq_false, if_false]
  refine ⟨_, rfl, rfl, ?_⟩
  obtain ⟨failedAscend, inFailed⟩ := failedHoles_spec committedMerges failedMerges isLast
  obtain ⟨piecesAscend, inPieces⟩ := pieces_spec committedMerges failedMerges isLast
  obtain ⟨unexplainedAscend, inUnexplained⟩ := inFlightMerges.uncovered_flatMap piecesAscend
  rw [← unexplainedIn_extent] at unexplainedAscend inUnexplained
  have within {position : Nat} (between : Between rows position) : first.start ≤ position ∧ position < last.stop :=
    (between_iff committedMerges isLast).mp between
  refine ⟨fun position between => ?_, fun position between => ?_, fun position between => ?_, fun position below => ?_, ?_⟩
  · split
    case isTrue holds =>
      rw [holesAt_eq]
      exact failedAscend.countP_eq_one ((inFailed position).mpr ⟨.inr ⟨between, holds.1⟩, holds.2⟩)
    case isFalse fails =>
      refine holesAt_eq_zero fun inside => fails ?_
      obtain ⟨below | ⟨-, free⟩, failedRow⟩ := (inFailed position).mp inside
      · have := within between
        omega
      · exact ⟨free, failedRow⟩
  · -- What is pending above the last commit is not between commits.
    have above : ¬ ∃ entry ∈ pendingAbove rows last.stop, entry.extent.Contains position := by
      rintro ⟨entry, member, contains⟩
      obtain ⟨row, -, rfl⟩ := mem_map.mp member
      have := within between
      simp only [Pending.extent, Piece.contains_iff] at contains
      omega
    simp only [mem_append, or_and_right, exists_or, above, or_false]
    rw [pending_contains inFlightMerges, inPieces]
    simp [between, and_assoc]
  · have inside := (inUnexplained position).trans (and_congr (inPieces position) (not_congr exists_filter))
    split
    case isTrue holds =>
      rw [holesAt_eq]
      exact unexplainedAscend.countP_eq_one (inside.mpr ⟨⟨⟨between, holds.1⟩, holds.2.1⟩, holds.2.2⟩)
    case isFalse fails =>
      refine holesAt_eq_zero fun isInside => fails ?_
      obtain ⟨⟨⟨-, free⟩, unfailed⟩, unflown⟩ := inside.mp isInside
      exact ⟨free, unfailed, unflown⟩
  · have lower : position < first.start := by
      refine Nat.lt_of_not_le fun begun => ?_
      obtain ⟨row, member, starts⟩ := (committedMerges.starts_iff Row.proper).mpr begun
      have isCommitted := mem_filter.mp member
      have := below row isCommitted.1 (by simpa using isCommitted.2)
      simp only [Row.extent] at starts
      omega
    have holes := exists_extent.symm.trans (inFailed position)
    simpa only [lower, true_or, true_and] using holes
  · exact congrArg (min · _) (duplicated_eq committedMerges isLast)

/-- A report is about the unit it is made for. -/
theorem auditUnit_unit (audited : auditUnit unit rows unproven = some report) : report.unit = unit := by
  unfold auditUnit unprovenOnly at audited
  simp only at audited
  split at audited
  · split at audited <;> cases audited <;> rfl
  · split at audited
    · cases audited
    · cases audited
      rfl

theorem audit_accounts (records : List BatchRecord) (unit : SourceUnit) (judged : unit.judgeable = true)
    (committed : ∃ row ∈ ledgerRows records unit, row.Committed) :
    ((collect records).rows.map (Prod.map SourceUnit.source id)).Perm
        ((distinct records).flatMap fun record => (LedgerRange.ofRecord record).map LedgerRange.entry)
      ∧ ∃ report ∈ audit records, report.unit = unit ∧ report.notJudged = none ∧ Accounts (ledgerRows records unit) report
        ∧ ∀ other ∈ audit records, other.unit = unit → other = report := by
  obtain ⟨report, audited, unrefused, accounts⟩ := auditUnit_accounts ((collect records).unprovenOf unit) judged committed
  rw [ledgerRows, ← collect_rows] at audited committed
  have isUnit : unit ∈ (collect records).rows.map Prod.fst := by
    obtain ⟨row, member, -⟩ := committed
    simp only [List.mem_map, List.mem_filter, decide_eq_true_eq] at member
    obtain ⟨entry, ⟨isEntry, rfl⟩, -⟩ := member
    exact List.mem_map_of_mem isEntry
  have isKey : unit ∈ ((collect records).rows.map Prod.fst ++ (collect records).unproven.map Prod.fst).dedup :=
    List.mem_dedup.mpr (List.mem_append_left _ isUnit)
  refine ⟨collect_entries records, report, List.mem_filterMap.mpr ⟨unit, isKey, audited⟩, auditUnit_unit audited, unrefused,
    accounts, ?_⟩
  intro other isOther sameUnit
  obtain ⟨unit', -, audited'⟩ := List.mem_filterMap.mp isOther
  obtain rfl : unit' = unit := (auditUnit_unit audited').symm.trans sameUnit
  exact Option.some.inj (audited'.symm.trans audited)

/-! ## What a failed hole names -/

/-- The row shares a byte with the hole. -/
def Row.Meets (row : Row) (hole : Hole) : Prop := ∃ position, row.Covers position ∧ hole.extent.Contains position

section Named

variable (rows : List Row)

/-- Failed rows cover every position from the one row to the other, so that the audit merges the two. -/
def Chained (first second : Row) : Prop :=
  ∀ position, min first.start second.start ≤ position → position < max first.stop second.stop →
    CoveredBy rows position Row.Failed

/-- No committed row parts the two positions. -/
def SameGap (first second : Nat) : Prop :=
  ∀ position, min first second ≤ position → position ≤ max first second → ¬ CoveredBy rows position Row.Committed

/-- No committed row covers the position, and one ends above it. -/
def Missing (position : Nat) : Prop :=
  ¬ CoveredBy rows position Row.Committed ∧ ∃ row ∈ rows, row.Committed ∧ position < row.stop

/-- Each hole names the failed rows that meet it. -/
def NamesExactly (holes : List Hole) : Prop :=
  ∀ hole ∈ holes, ∀ batchId, batchId ∈ hole.failedBatches ↔ ∃ row ∈ rows, row.Failed ∧ row.batchId = batchId ∧ row.Meets hole

/-- A failed row meets every gap that a row chained to it meets. -/
def MeetsAlike : Prop :=
  ∀ row ∈ rows, row.Failed → ∀ other ∈ rows, other.Failed → Chained rows row other →
    ∀ position, row.Covers position → Missing rows position → ∃ another, other.Covers another ∧ SameGap rows position another

variable {rows} {failed : List (Span Row)} {first last : Span Row} {rest : List (Span Row)} {window : Piece} {span : Span Row}
  (committedMerges : Spans.Merges Row.extent (first :: rest) (rows.filter Row.Committed))
  (failedMerges : Spans.Merges Row.extent failed (rows.filter Row.Failed))
  (isLast : (first :: rest).getLast? = some last)

include failedMerges in
/-- Two failed rows are chained exactly if they are of one span. -/
theorem chained_iff (isSpan : span ∈ failed) (ofSpan : row ∈ span.rows) (isOther : other ∈ rows.filter Row.Failed) :
    Chained rows row other ↔ other ∈ span.rows := by
  have within {row : Row} (ofSpan : row ∈ span.rows) : span.start ≤ row.start ∧ row.stop ≤ span.stop := by
    have nonempty := row.nonempty
    have starts := (failedMerges.contains span isSpan row.start).mpr ⟨row, ofSpan, le_rfl, nonempty⟩
    have stops := (failedMerges.contains span isSpan (row.stop - 1)).mpr ⟨row, ofSpan,
      Nat.le_sub_one_of_lt nonempty, Nat.sub_one_lt_of_lt nonempty⟩
    rw [Piece.contains_iff] at starts stops
    omega
  have ⟨lower, upper⟩ := within ofSpan
  have proper := row.nonempty
  have proper' := other.nonempty
  constructor
  · intro chained
    obtain ⟨another, isAnother, ofAnother⟩ := mem_flatMap.mp (failedMerges.rows.mem_iff.mpr isOther)
    have starts := (failedMerges.contains another isAnother other.start).mpr ⟨other, ofAnother, le_rfl, proper'⟩
    -- Nothing covers the position after a span, nor the one before it.
    have free := failedMerges.separate isSpan
    have covers {position} (between : min row.start other.start ≤ position ∧ position < max row.stop other.stop) :=
      (failedMerges.covered position).mpr (exists_filter.mpr (chained position between.1 between.2))
    have notAbove : ¬ span.stop ≤ other.start := fun above => free.2 (covers (by omega))
    have notBelow : ¬ other.start < span.start := fun below => free.1 (by omega) (covers (by omega))
    obtain rfl := failedMerges.unique isSpan isAnother ⟨by omega, by omega⟩ starts
    exact ofAnother
  · intro ofSpan' position after before
    have ⟨lower', upper'⟩ := within ofSpan'
    exact exists_filter.mp ((failedMerges.covered position).mp ⟨span, isSpan, by omega, by omega⟩)

/-- The stretch below the first commit, and the gaps between commits. -/
def windows (committed : List (Span Row)) : List Piece :=
  (committed.head?.map fun first => ⟨0, first.start⟩).toList ++ gaps committed

include failedMerges in
theorem mem_failedHoles {hole} : hole ∈ holesBelow failed first.start ++ holesInGaps (first :: rest) failed
      ↔ ∃ window ∈ windows (first :: rest), ∃ span ∈ failed, (window.start < span.stop ∧ span.start < window.stop)
        ∧ failedHole window.start window.stop span = hole := by
  have below : holesBelow failed first.start = (overlapping failed 0 first.start).map (failedHole 0 first.start) := by
    rw [holesBelow, failedMerges.overlapping_zero]
    simp [failedHole]
  simp only [below, holesInGaps, failedMerges.overlapping_eq, windows, head?_cons, Option.map_some, Option.toList_some,
    mem_append, mem_flatMap, mem_map, mem_filter, decide_eq_true_eq, mem_singleton, or_and_right, exists_or, exists_eq_left,
    and_assoc]

include committedMerges

/-- A window begins at the start of the line or after a commit, and ends at a commit. -/
theorem window_ends (isWindow : window ∈ windows (first :: rest)) :
    (0 < window.start → window.start < window.stop ∧ CoveredBy rows (window.start - 1) Row.Committed)
      ∧ CoveredBy rows window.stop Row.Committed := by
  have commits {span : Span Row} (isSpan : span ∈ first :: rest) {position} (inside : span.Contains position) :=
    exists_filter.mp ((committedMerges.covered position).mp ⟨span, isSpan, inside⟩)
  rcases mem_append.mp isWindow with isFirst | isGap
  · obtain rfl : window = ⟨0, first.start⟩ := by simpa using isFirst
    exact ⟨fun positive => absurd positive (Nat.lt_irrefl 0),
      commits mem_cons_self ⟨le_rfl, committedMerges.nonempty first mem_cons_self⟩⟩
  · obtain ⟨lower, isLower, upper, isUpper, apart, rfl⟩ := Spans.mem_gaps committedMerges.separated isGap
    have proper := committedMerges.nonempty lower isLower
    exact ⟨fun _ => ⟨apart, commits isLower ⟨Nat.le_sub_one_of_lt proper, Nat.sub_one_lt_of_lt proper⟩⟩,
      commits isUpper ⟨le_rfl, committedMerges.nonempty upper isUpper⟩⟩

include isLast

theorem missing_iff : Missing rows position ↔ ∃ window ∈ windows (first :: rest), window.Contains position := by
  have inWindow : (∃ window ∈ windows (first :: rest), window.Contains position)
      ↔ position < first.start ∨ (Between rows position ∧ ¬ CoveredBy rows position Row.Committed) := by
    rw [← inGap_iff committedMerges isLast]
    simp [windows, Piece.contains_iff]
  rw [inWindow]
  constructor
  · rintro ⟨free, row, isRow, commits, below⟩
    refine (Nat.lt_or_ge position first.start).imp_right fun begun => ⟨⟨?_, row, isRow, commits, below⟩, free⟩
    obtain ⟨row, isRow, starts⟩ := (committedMerges.starts_iff Row.proper).mpr begun
    obtain ⟨isRow, commits⟩ := mem_filter.mp isRow
    exact ⟨row, isRow, of_decide_eq_true commits, starts⟩
  · rintro (below | ⟨between, free⟩)
    · have proper := committedMerges.nonempty first mem_cons_self
      obtain ⟨row, isRow, commits, covers⟩ :=
        exists_filter.mp ((committedMerges.covered first.start).mp ⟨first, mem_cons_self, le_rfl, proper⟩)
      refine ⟨fun covered => ?_, row, isRow, commits, Nat.lt_trans below covers.2⟩
      obtain ⟨row, isRow, covers⟩ := exists_filter.mpr covered
      exact absurd ((committedMerges.starts_iff Row.proper).mp ⟨row, isRow, covers.1⟩) (Nat.not_le.mpr below)
    · exact ⟨free, between.2⟩

theorem sameGap_iff (isWindow : window ∈ windows (first :: rest)) (inside : window.Contains position) :
    SameGap rows position another ↔ window.Contains another := by
  obtain ⟨lower, upper⟩ := window_ends committedMerges isWindow
  rw [Piece.contains_iff] at inside ⊢
  constructor
  · intro same
    have notAbove : ¬ window.stop ≤ another := fun above => same window.stop (by omega) (by omega) upper
    have notBelow : ¬ another < window.start := fun below => same (window.start - 1) (by omega) (by omega) (lower (by omega)).2
    omega
  · intro inside' between after before
    exact ((missing_iff committedMerges isLast).mpr ⟨window, isWindow, by omega, by omega⟩).1

include failedMerges in
theorem namesExactly_iff (unique : ∀ row ∈ rows, ∀ other ∈ rows, row.batchId = other.batchId → row = other) :
    NamesExactly rows (holesBelow failed first.start ++ holesInGaps (first :: rest) failed) ↔ MeetsAlike rows := by
  have isFailed {row : Row} : row ∈ rows.filter Row.Failed ↔ row ∈ rows ∧ row.Failed := by simp
  constructor
  · intro names row isRow fails other isOther otherFails chained position covers missing
    obtain ⟨window, isWindow, inWindow⟩ := (missing_iff committedMerges isLast).mp missing
    obtain ⟨span, isSpan, ofSpan⟩ := mem_flatMap.mp (failedMerges.rows.mem_iff.mpr (isFailed.mpr ⟨isRow, fails⟩))
    have inSpan := (failedMerges.contains span isSpan position).mpr ⟨row, ofSpan, covers⟩
    have ofSpan' := (chained_iff failedMerges isSpan ofSpan (isFailed.mpr ⟨isOther, otherFails⟩)).mp chained
    rw [Piece.contains_iff] at inSpan inWindow
    have isHole := (mem_failedHoles failedMerges).mpr ⟨window, isWindow, span, isSpan, by omega, rfl⟩
    obtain ⟨named, isNamed, -, sameId, another, covers', inHole⟩ := (names _ isHole other.batchId).mp (mem_map_of_mem ofSpan')
    obtain rfl := unique named isNamed other isOther sameId
    refine ⟨another, covers', (sameGap_iff committedMerges isLast isWindow inWindow).mpr ?_⟩
    simp only [failedHole, Hole.extent, Piece.contains_iff] at inHole ⊢
    omega
  · intro alike hole isHole batchId
    obtain ⟨window, isWindow, span, isSpan, meets, rfl⟩ := (mem_failedHoles failedMerges).mp isHole
    constructor
    · intro named
      obtain ⟨other, ofSpan', rfl⟩ := mem_map.mp named
      obtain ⟨isOther, otherFails⟩ := isFailed.mp (failedMerges.row_mem isSpan ofSpan')
      -- The window and the span share the larger of their starts, and some row of the span covers it.
      have proper := failedMerges.nonempty span isSpan
      have apart := (window_ends committedMerges isWindow).1
      have inSpan : span.Contains (max span.start window.start) := ⟨by omega, by omega⟩
      have inWindow : window.Contains (max span.start window.start) := ⟨by omega, by omega⟩
      obtain ⟨row, ofSpan, covers⟩ := (failedMerges.contains span isSpan _).mp inSpan
      obtain ⟨isRow, fails⟩ := isFailed.mp (failedMerges.row_mem isSpan ofSpan)
      have chained := (chained_iff failedMerges isSpan ofSpan (isFailed.mpr ⟨isOther, otherFails⟩)).mpr ofSpan'
      obtain ⟨another, covers', same⟩ := alike row isRow fails other isOther otherFails chained _ covers
        ((missing_iff committedMerges isLast).mpr ⟨window, isWindow, inWindow⟩)
      have inWindow' := (sameGap_iff committedMerges isLast isWindow inWindow).mp same
      have inSpan' := (failedMerges.contains span isSpan another).mpr ⟨other, ofSpan', covers'⟩
      refine ⟨other, isOther, otherFails, rfl, another, covers', ?_⟩
      simp only [failedHole, Hole.extent, Piece.contains_iff] at inWindow' inSpan' ⊢
      omega
    · rintro ⟨row, isRow, fails, rfl, position, covers, inHole⟩
      obtain ⟨other, isOther, ofOther⟩ := mem_flatMap.mp (failedMerges.rows.mem_iff.mpr (isFailed.mpr ⟨isRow, fails⟩))
      have inOther := (failedMerges.contains other isOther position).mpr ⟨row, ofOther, covers⟩
      have inSpan : span.Contains position := by
        simp only [failedHole, Hole.extent, Piece.contains_iff] at inHole ⊢
        omega
      obtain rfl := failedMerges.unique isSpan isOther inSpan inOther
      exact mem_map_of_mem ofOther

end Named

/-- A record has one range at most, so that its id names one row of a unit at most. -/
theorem ofRecord_ids (record) : ((LedgerRange.ofRecord record).map fun range => range.row.batchId) <+ [record.batchId] := by
  have one (unit start stop) :
      ((LedgerRange.ofRanges record [(unit, start, stop)]).map fun range => range.row.batchId) <+ [record.batchId] := by
    by_cases nonempty : start < stop <;> simp [LedgerRange.ofRanges, nonempty]
  simp only [LedgerRange.ofRecord, unitRanges, fileLike]
  repeat' split
  all_goals first | exact one .. | exact nil_sublist _

theorem distinct_ids (records) : ((distinct records).map BatchRecord.batchId).Nodup := by
  induction records with
  | nil => exact nodup_nil
  | cons record records ih =>
    rw [distinct, map_cons, nodup_cons]
    exact ⟨by simp, ih.sublist (filter_sublist.map _)⟩

theorem ledgerRows_ids (records unit) : ((ledgerRows records unit).map Row.batchId).Nodup := by
  have rows : (LedgerRange.placeAll [] (ledgerRanges records)).map Prod.snd = (ledgerRanges records).map LedgerRange.row := by
    have entries := congrArg (map Prod.snd) (LedgerRange.placeAll_entries [] (ledgerRanges records))
    rw [map_map, map_map] at entries
    exact entries
  have ids (records : List BatchRecord) : ((records.flatMap LedgerRange.ofRecord).map fun range => range.row.batchId)
      <+ records.map BatchRecord.batchId := by
    induction records with
    | nil => exact nil_sublist _
    | cons record records ih =>
      rw [flatMap_cons, map_append]
      exact (ofRecord_ids record).append ih
  have sorted := ((perm_insertionSort (fun first second => createdBefore first second) (distinct records)).map
    BatchRecord.batchId).nodup_iff.mpr (distinct_ids records)
  have ranged := sorted.sublist (ids _)
  rw [← ledgerRanges, ← Function.comp_def, ← map_map, ← rows] at ranged
  exact ranged.sublist ((filter_sublist.map _).map _)

theorem auditUnit_names {unit : SourceUnit} {rows : List Row} (judged : unit.judgeable = true)
    (audited : auditUnit unit rows unproven = some report)
    (unique : ∀ row ∈ rows, ∀ other ∈ rows, row.batchId = other.batchId → row = other) :
    NamesExactly rows report.failedHoles ↔ MeetsAlike rows := by
  have committedMerges := spans_merges Row.proper (rows.filter Row.Committed)
  have failedMerges := spans_merges Row.proper (rows.filter Row.Failed)
  unfold auditUnit unprovenOnly at audited
  simp only [judged, Bool.true_eq_false, if_false] at audited
  split at audited
  case h_1 first last isFirst isLast =>
    obtain ⟨rest, isSpans⟩ := head?_eq_some_iff.mp isFirst
    rw [isSpans] at committedMerges isLast audited
    cases audited
    exact namesExactly_iff committedMerges failedMerges isLast unique
  case h_2 none =>
    -- Nothing is committed, so that no hole is reported and nothing is missing.
    have noHoles : report.failedHoles = [] := by
      split at audited <;> cases audited
      rfl
    refine iff_of_true (by simp [NamesExactly, noHoles]) ?_
    rintro - - - - - - - - - ⟨-, row, isRow, commits, -⟩
    obtain ⟨span, isSpan, -⟩ := (committedMerges.covered row.start).mpr
      ⟨row, mem_filter.mpr ⟨isRow, decide_eq_true commits⟩, le_rfl, row.nonempty⟩
    have some := ne_nil_of_mem isSpan
    exact absurd (getLast?_eq_some_getLast some) (none _ _ (head?_eq_some_head some))

/-- The failed holes of a judged unit name exactly the rows that failed there, if and only if every failed row meets each
gap that a row chained to it meets. -/
theorem failedHoles_name_iff (records : List BatchRecord) (report : UnitReport) (member : report ∈ audit records)
    (judged : report.unit.judgeable = true) :
    NamesExactly (ledgerRows records report.unit) report.failedHoles ↔ MeetsAlike (ledgerRows records report.unit) := by
  obtain ⟨unit, -, audited⟩ := mem_filterMap.mp member
  obtain rfl := auditUnit_unit audited
  rw [Collected.rowsOf, collect_rows] at audited
  exact auditUnit_names judged audited fun row isRow other isOther =>
    inj_on_of_nodup_map (ledgerRows_ids records report.unit) isRow isOther

/-- A batch of one file. -/
def fileBatch (batchId : String) (state : BatchState) (startByte endByte : Nat) : BatchRecord :=
  let marker := ProgressMarker.File "/var/log/app.log" (some 7) startByte endByte 100 ""
  { batchId, sourceType := .File, sourceName := "app", state, progressStart := marker, progressEnd := marker
    objectUri := none, manifestUri := none, objectSha256 := none, manifestSha256 := none, manifestVersionId := none
    objectSizeBytes := none, recordCount := none, errorMessage := none, owner := none, leaseExpiresAt := none, createdAt := none
    updatedAt := 0 }

/-- Bytes ten to twelve are committed twice, twenty to thirty failed, thirty to forty are verified only, and nothing
names the next ten. -/
def gappedFile : List BatchRecord :=
  [fileBatch "a" .SourceCommitted 0 12, fileBatch "b" .SourceCommitted 10 20, fileBatch "c" .Failed 20 30,
    fileBatch "d" .Verified 25 40, fileBatch "e" .SourceCommitted 50 60]

theorem gapped_file_accounts : ∃ report ∈ audit gappedFile, report.duplicated = 2 ∧ report.failedHoles = [⟨20, 30, ["c"]⟩]
      ∧ report.pending = [⟨"d", .Verified, 30, 40⟩] ∧ report.unexplainedHoles = [⟨40, 50, []⟩]
      ∧ Accounts (ledgerRows gappedFile (.File "/var/log/app.log" (some 7) 0)) report := by
  obtain ⟨-, report, member, sameUnit, -, accounts, only⟩ :=
    audit_accounts gappedFile (.File "/var/log/app.log" (some 7) 0) rfl ⟨_, List.mem_cons_self, rfl⟩
  obtain rfl := only _ (List.mem_singleton_self _) rfl
  exact ⟨_, member, rfl, rfl, rfl, rfl, accounts⟩

def appLog : SourceUnit := .File "/var/log/app.log" (some 7) 0

/-- The first failed row is committed whole, but it touches the second, and that reaches out of the commit. -/
def touchingFile : List BatchRecord :=
  [fileBatch "a" .SourceCommitted 0 10, fileBatch "b" .SourceCommitted 20 30, fileBatch "c" .Failed 2 5,
    fileBatch "d" .Failed 5 15]

theorem touching_row_named : ∃ report ∈ audit touchingFile, report.unit = appLog
      ∧ report.failedHoles = [⟨10, 15, ["c", "d"]⟩] ∧ ¬ NamesExactly (ledgerRows touchingFile appLog) report.failedHoles := by
  refine ⟨_, mem_singleton_self _, rfl, rfl, fun names => ?_⟩
  obtain ⟨row, member, -, named, position, covers, inside⟩ := (names ⟨10, 15, ["c", "d"]⟩ mem_cons_self "c").mp mem_cons_self
  have ends : ∀ row ∈ ledgerRows touchingFile appLog, row.batchId = "c" → row.stop ≤ 5 := by decide
  have := ends row member named
  simp only [Row.Covers, Row.extent, Hole.extent, Piece.contains_iff] at covers inside
  omega

/-- One failed row meets every gap that it meets. -/
theorem gapped_file_names : NamesExactly (ledgerRows gappedFile appLog) [⟨20, 30, ["c"]⟩] := by
  refine (failedHoles_name_iff gappedFile _ (mem_singleton_self _ : _ ∈ audit gappedFile) rfl).mpr ?_
  intro row isRow fails other isOther otherFails _ position covers missing
  have one : ∀ row ∈ ledgerRows gappedFile appLog, row.Failed → ∀ other ∈ ledgerRows gappedFile appLog, other.Failed →
    row = other := by decide
  obtain rfl := one row isRow fails other isOther otherFails
  refine ⟨position, covers, fun between after before => ?_⟩
  obtain rfl : between = position := by omega
  exact missing.1

end VtopEngine.Cli.Coverage
