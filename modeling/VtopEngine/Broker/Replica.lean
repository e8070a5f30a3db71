import VtopEngine.Broker.FencingEpochs
import VtopEngine.Log.SegmentSet

/-! # One replica of a range

What a range's replica keeps, whether it serves as a follower (`InProcessFollower`) or
as the leader's broker (`LocalBroker`): the log, the fencing epoch it holds and the
vector of epochs, its view of the metadata lease, the producer epochs it has accepted,
and the cluster high-water mark it knows.

* `MetaLeaseState` — the lease view, which never goes back.
* `ProducerEpochJournal.accept` — older producer sessions are fenced.
* `Replica.adoptFencingEpoch`, `Replica.setFencingEpochJournal` — how the vector learns
  of an epoch.
-/

namespace VtopEngine.Broker

open Log
open Meta (Uuid)

structure RangeIdentity where
  topic : String
  topicEpoch : Nat
  rangeId : Uuid
  rangeGeneration : Nat
  deriving DecidableEq, Repr

inductive ErrorCode
  | InvalidRequest | UnsupportedVersion | Unauthorized | WrongCluster | WrongRange | Fenced | SequenceConflict
  | Overloaded | Storage | ProtocolViolation | CheckpointConflict | WrongLineage | OffsetRetained
  deriving DecidableEq, Repr

/-- The detail of an error: a text, or the text of an error of the log. -/
inductive Detail
  | text (message : String)
  | log (problem : SegmentError)
  deriving DecidableEq, Repr

inductive BrokerError
  | InvalidConfig (detail : Detail)
  | Io
  | EpochJournalCorrupt (detail : Detail)
  | BoundaryMarker (detail : Detail)
  | ProducerFenced (producerId : Uuid) (current actual : Nat)
  | TruncationBelowAcknowledged (requested highWatermark : Nat)
  | Segment (problem : SegmentError)
  deriving DecidableEq, Repr

/-- What a refusal says: a text of its own, the text of the error behind it, or which follower is offline. -/
inductive Reason
  | text (message : String)
  | broker (problem : BrokerError)
  | log (problem : SegmentError)
  | offline (nodeId : Uuid)
  deriving DecidableEq, Repr

abbrev Refusal := ErrorCode × Reason

/-- Version one folds the producer epoch into a derived producer id, by a hash that stays a parameter here. -/
inductive SegmentFormat
  | V1 (storageProducerId : Uuid → Nat → Uuid)
  | V2

/-- The identity a record is stored under. -/
def SegmentFormat.stored (format : SegmentFormat) (producerId : Uuid) (producerEpoch : Nat) : Uuid × Nat :=
  match format with
  | .V1 storageProducerId => (storageProducerId producerId producerEpoch, 0)
  | .V2 => (producerId, producerEpoch)

/-- The reserved producer of promotion markers: the bytes of `VTOP.PROMO.MARK1`. -/
def PROMOTION_MARKER_PRODUCER : Uuid := 0x56544F502E50524F4D4F2E4D41524B31#128

/-! ## The lease view -/

structure MetaLeaseState where
  fencingEpoch : Nat
  leaseActive : Bool
  releasedThrough : Nat
  deriving DecidableEq, Repr

namespace MetaLeaseState

def newInactive (epoch : Nat) : MetaLeaseState := { fencingEpoch := epoch, leaseActive := false, releasedThrough := 0 }

/-- Publish a grant; a stale one is ignored, and a released one stays inactive. -/
def set (view : MetaLeaseState) (epoch : Nat) : MetaLeaseState :=
  if epoch < view.fencingEpoch then view
  else { view with fencingEpoch := epoch, leaseActive := view.releasedThrough < epoch }

def suspend (view : MetaLeaseState) (expectedEpoch : Nat) : MetaLeaseState :=
  if view.fencingEpoch = expectedEpoch then { view with leaseActive := false } else view

/-- Publish a release. -/
def clearLease (view : MetaLeaseState) (expectedEpoch : Nat) : MetaLeaseState :=
  let view := { view with releasedThrough := max view.releasedThrough expectedEpoch }
  if view.fencingEpoch = expectedEpoch then { view with leaseActive := false }
  else if view.fencingEpoch < expectedEpoch then { view with fencingEpoch := expectedEpoch, leaseActive := false }
  else view

end MetaLeaseState

/-! ## Producer epochs -/

def EPOCH_HEADER_BYTES : Nat := 10

def EPOCH_ENTRY_BYTES : Nat := 16 + 8 + 32

def MAX_EPOCH_JOURNAL_BYTES : Nat := 64 * 1024 * 1024

/-- The producer epochs accepted, in the order they were written. -/
structure ProducerEpochJournal where
  entries : List (Uuid × Nat)
  poisoned : Bool
  nextWrite : FileWrite

namespace ProducerEpochJournal

def empty : ProducerEpochJournal := { entries := [], poisoned := false, nextWrite := .durable }

def current (journal : ProducerEpochJournal) (producerId : Uuid) : Option Nat :=
  (journal.entries.reverse.find? fun entry => entry.1 = producerId).map Prod.snd

def write (journal : ProducerEpochJournal) (producerId : Uuid) (epoch : Nat) :
    ProducerEpochJournal × Except BrokerError Unit :=
  if MAX_EPOCH_JOURNAL_BYTES < EPOCH_HEADER_BYTES + (journal.entries.length + 1) * EPOCH_ENTRY_BYTES then
    (journal, .error (.InvalidConfig (.text "producer epoch journal reached its explicit size ceiling")))
  else
    match journal.nextWrite with
    | .durable => ({ journal with entries := journal.entries ++ [(producerId, epoch)] }, .ok ())
    | _ => ({ journal with poisoned := true }, .error .Io)

/-- Fence older sessions before any record of a newer epoch can be acknowledged. -/
def accept (journal : ProducerEpochJournal) (producerId : Uuid) (epoch : Nat) :
    ProducerEpochJournal × Except BrokerError Unit :=
  if journal.poisoned then
    (journal, .error (.EpochJournalCorrupt
      (.text "journal writer is poisoned after an uncertain append; reopen and validate it")))
  else
    match journal.current producerId with
    | some current =>
      if epoch < current then (journal, .error (.ProducerFenced producerId current epoch))
      else if epoch = current then (journal, .ok ())
      else journal.write producerId epoch
    | none => journal.write producerId epoch

end ProducerEpochJournal

/-! ## The replica -/

/-- A replica of a range.  `online` and `holdFsync` are switches of the follower; `replicated` says whether the
broker has a replica set and a cluster mark at all. -/
structure Replica where
  nodeId : Uuid
  range : RangeIdentity
  heldFencingEpoch : Nat
  fencingEpochJournal : Option FencingEpochJournal
  fencingEpochHistoryBroken : Bool
  metaFencingEpoch : MetaLeaseState
  segmentFormat : SegmentFormat
  clusterCommitted : Nat
  segment : SegmentSet
  producerEpochs : ProducerEpochJournal
  (online holdFsync replicated : Bool)

namespace Replica

/-- A replica of an empty range that knows of no grant yet. -/
def fresh (nodeId : Uuid) (range : RangeIdentity) (segmentFormat : SegmentFormat) (maxSegmentRecords : Nat) : Replica :=
  { nodeId, range, heldFencingEpoch := 0, fencingEpochJournal := none, fencingEpochHistoryBroken := false,
    metaFencingEpoch := .newInactive 0, segmentFormat, clusterCommitted := 0, segment := .empty maxSegmentRecords,
    producerEpochs := .empty, online := true, holdFsync := false, replicated := true }

def nextOffset (replica : Replica) : Nat := replica.segment.nextOffset

/-- The replica's epoch history; empty means unknown. -/
def epochStarts (replica : Replica) : List EpochStart :=
  if replica.fencingEpochHistoryBroken then []
  else
    match replica.fencingEpochJournal with
    | some journal => journal.entries
    | none => []

/-- Change the journal if there is one; a failure breaks the history. -/
def updateJournal (replica : Replica)
    (update : FencingEpochJournal → FencingEpochJournal × Except JournalError Unit) : Replica :=
  match replica.fencingEpochJournal with
  | none => replica
  | some journal =>
    { replica with
      fencingEpochJournal := some (update journal).1
      fencingEpochHistoryBroken := replica.fencingEpochHistoryBroken || !(update journal).2.isOk }

def recordEpochStart (replica : Replica) (epoch startOffset : Nat) : Replica :=
  replica.updateJournal fun journal => journal.recordAdoption epoch startOffset

/-- Move to an epoch, after its start was recorded; an older epoch changes nothing. -/
def adoptFencingEpoch (replica : Replica) (epoch : Nat) : Replica :=
  let recorded :=
    if replica.heldFencingEpoch < epoch then replica.recordEpochStart epoch replica.nextOffset else replica
  { recorded with heldFencingEpoch := max replica.heldFencingEpoch epoch }

/-- Complete a truncation that a crash interrupted; false if that could not be made durable. -/
def attachEpochJournalToLog (journal : FencingEpochJournal) (nextOffset : Nat) : FencingEpochJournal × Bool :=
  if journal.latest.any fun entry => nextOffset < entry.startOffset then
    let (journal, truncated) := journal.truncateTo (nextOffset + 1)
    (journal, truncated.isOk)
  else (journal, true)

/-- Install a journal; the held epoch is seeded only over an empty vector and an empty log. -/
def setFencingEpochJournal (replica : Replica) (journal : FencingEpochJournal) : Replica :=
  let (attached, repaired) := attachEpochJournalToLog journal replica.nextOffset
  let (seeded, recorded) :=
    if attached.latest = none ∧ replica.nextOffset = 0 ∧ 0 < replica.heldFencingEpoch then
      attached.record replica.heldFencingEpoch 0
    else (attached, .ok ())
  { replica with
    fencingEpochJournal := some seeded
    fencingEpochHistoryBroken := replica.fencingEpochHistoryBroken || !repaired || !recorded.isOk }

/-- `ClusterCommittedOffset::advance_to`. -/
def advanceTo (replica : Replica) (offset : Nat) : Replica :=
  { replica with clusterCommitted := max replica.clusterCommitted offset }

/-- What an append may change: the log grows at its end, and producer epochs are written. -/
structure Appends (replica after : Replica) (added : List LogRecord) : Prop where
  frame : after = { replica with segment := after.segment, producerEpochs := after.producerEpochs }
  records : after.segment.records = replica.segment.records ++ added
  baseOffset : after.segment.baseOffset = replica.segment.baseOffset
  committed : replica.segment.committedOffset ≤ after.segment.committedOffset

section Appends

variable {replica after : Replica} {added : List LogRecord}

/-- Only the producer epochs changed. -/
theorem Appends.nothing (replica : Replica) (producerEpochs) : replica.Appends { replica with producerEpochs } [] :=
  ⟨rfl, (List.append_nil _).symm, rfl, Nat.le_refl _⟩

theorem Appends.refl (replica : Replica) : replica.Appends replica [] := .nothing replica replica.producerEpochs

theorem Appends.trans (first : replica.Appends middle added) (second : middle.Appends after more) :
    replica.Appends after (added ++ more) where
  frame := by rw [second.frame, first.frame]
  records := by rw [second.records, first.records, List.append_assoc]
  baseOffset := by rw [second.baseOffset, first.baseOffset]
  committed := Nat.le_trans first.committed second.committed

/-- An append of the log is an append of the replica. -/
theorem Appends.ofSegment {segment}
    (extended : replica.segment.Extends segment added durability) : replica.Appends { replica with segment } added :=
  ⟨rfl, extended.records, extended.baseOffset, extended.committed⟩

section

variable (appended : replica.Appends after added)

include appended

theorem Appends.epochStarts : after.epochStarts = replica.epochStarts := by
  rw [appended.frame]
  rfl

theorem Appends.heldFencingEpoch : after.heldFencingEpoch = replica.heldFencingEpoch := by rw [appended.frame]

theorem Appends.nextOffset : after.nextOffset = replica.nextOffset + added.length := by
  rw [Replica.nextOffset, SegmentSet.nextOffset, appended.records, List.length_append]
  rfl

end

end Appends

end Replica

/-! ## Requests -/

structure ProduceRecord where
  timestampMillis : Int
  (key value : List UInt8)
  deriving DecidableEq, Repr

structure ReplicaAppendRequest where
  range : RangeIdentity
  fencingEpoch : Nat
  leaderNodeId : Uuid
  expectedBaseOffset : Nat
  producerId : Uuid
  (producerEpoch firstSequence : Nat)
  records : List ProduceRecord
  deriving DecidableEq, Repr

structure CommittedHwmUpdate where
  range : RangeIdentity
  (fencingEpoch committedHighWatermark : Nat)
  deriving DecidableEq, Repr

/-- The records as they are stored, with consecutive sequences. -/
def recordsFromWire (records : List ProduceRecord) (stored : Uuid × Nat) (firstSequence : Nat) :
    Except String (List LogRecord) :=
  if records.zipIdx.any fun record => UInt64.size ≤ firstSequence + record.2 then
    .error "producer sequence range overflows u64"
  else
    .ok (records.zipIdx.map fun (record, index) =>
      { producerId := stored.1, producerEpoch := stored.2, sequence := firstSequence + index,
        timestampMillis := record.timestampMillis, key := record.key, value := record.value })

/-- The code of a failed append. -/
def appendErrorCode : SegmentError → ErrorCode
  | .FirstSequence .. | .SequenceGap .. | .SequenceConflict .. | .SequenceBelowWindow .. => .SequenceConflict
  | .ProducerFenced .. => .Fenced
  | _ => .Storage

/-- The code of a producer epoch that was not accepted. -/
def acceptErrorCode : BrokerError → ErrorCode
  | .ProducerFenced .. => .Fenced
  | _ => .Storage

end VtopEngine.Broker
