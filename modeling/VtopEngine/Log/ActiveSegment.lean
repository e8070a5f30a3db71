import VtopEngine.Log.ChunkTree
import VtopEngine.Log.Fetch
import VtopEngine.Log.RecordFrame

/-! # The active segment and its file

A segment that takes appends (`segment.rs`): its file behind the header, the commit boundary and
the producer sidecar beside it, and the state kept in memory.  The state grows with each group; a
recovery, a truncation and the opening of a sealed segment derive it from the file by one scan.

* `ActiveSegment.appendGroup`, `commit`, `truncateTo` — the operations of a writer.
* `scanRecords`, `recoverIn` — the state derived from the file.
-/

namespace VtopEngine.Log

open Lib
open Meta (Uuid)

/-- The two formats on disk; the second hashes its content in chunks. -/
inductive SegmentFormat
  | V1
  | V2 (chunkSize : Nat) (positive : 0 < chunkSize)
  deriving DecidableEq

def SegmentFormat.layout : SegmentFormat → FrameLayout
  | .V1 => layoutV1
  | .V2 .. => layoutV2

/-- The first format has no place for a producer epoch. -/
def SegmentFormat.Carries : SegmentFormat → LogRecord → Prop
  | .V1, record => record.producerEpoch = 0
  | .V2 .., _ => True

structure SegmentConfig where
  (maxRecordBytes maxGroupBytes maxSegmentBytes maxSegmentRecords indexStride : Nat)
  deriving DecidableEq, Repr

structure AnyHeader where
  format : SegmentFormat
  segmentId : Uuid
  baseOffset : Nat
  config : SegmentConfig
  /-- How many bytes the header takes in the file. -/
  headerLen : Nat

/-- A hasher is what it was fed; the second format's accumulator builds the chunk tree. -/
inductive ContentAccumulator (η : Type)
  | V1 (fed : Bytes)
  | V2 (builder : ChunkTreeBuilder η)

structure CommitBoundary where
  segmentId : Uuid
  (committedOffset contentBytes : Nat)
  deriving DecidableEq, Repr

structure ScanResult (η : Type) where
  (records validEnd nextOffset : Nat)
  producers : Producers η
  index : List IndexEntry
  accumulator : ContentAccumulator η

structure ActiveSegment (η : Type) where
  header : AnyHeader
  /-- The bytes behind the header. -/
  file : Bytes
  boundary : CommitBoundary
  sidecar : Option (ProducerSnapshot η)
  (nextOffset committedOffset recordCount contentBytes : Nat)
  producers : Producers η
  index : List IndexEntry
  accumulator : ContentAccumulator η
  inherited : ProducerSnapshot η

/-- A record as a producer sends it. -/
structure IncomingRecord where
  record : LogRecord
  attributes : Nat
  typed : record.Typed

structure TruncateOutcome where
  (recordsRemoved bytesRemoved nextOffset : Nat)
  deriving DecidableEq, Repr

variable {η : Type} [DecidableEq η] (blake : Blake3 η) (tree : TreeHash Bytes η)

namespace ContentAccumulator

def forHeader (header : AnyHeader) : ContentAccumulator η :=
  match header.format with
  | .V1 => .V1 []
  | .V2 chunkSize positive => .V2 (.new chunkSize positive)

def update (accumulator : ContentAccumulator η) (bytes : Bytes) : ContentAccumulator η :=
  match accumulator with
  | .V1 fed => .V1 (fed ++ bytes)
  | .V2 builder => .V2 (builder.update tree bytes)

end ContentAccumulator

/-! ## The scan -/

/-- What a scan knows before the first frame. -/
def ScanResult.start (header : AnyHeader) (inherited : ProducerSnapshot η) : ScanResult η :=
  { records := 0
    validEnd := header.headerLen
    nextOffset := header.baseOffset
    producers := inherited.inheritedStates
    index := []
    accumulator := .forHeader header }

/-- One more frame. -/
def ScanResult.add (header : AnyHeader) (scan : ScanResult η) (record : LogRecord) (encoded : Bytes) : ScanResult η :=
  { records := scan.records + 1
    validEnd := scan.validEnd + encoded.length
    nextOffset := scan.nextOffset + 1
    producers := scan.producers.rememberSequence record scan.nextOffset (recordContentHash blake record)
    index :=
      if scan.records % header.config.indexStride = 0 then scan.index ++ [⟨scan.nextOffset, scan.validEnd⟩]
      else scan.index
    accumulator := scan.accumulator.update tree encoded }

/-- The checks on a complete frame, and the scan with it. -/
def scanFrame (header : AnyHeader) (fileLen : Nat) (scan : ScanResult η) (frame : DecodedFrame) :
    Except FileError (ScanResult η) :=
  let position := scan.validEnd
  let encodedLen := frame.encoded.length
  let expected := scan.records
  let relativeOffset := frame.relativeOffset
  let maxBytes := header.config.maxSegmentBytes
  let maxRecords := header.config.maxSegmentRecords
  if fileLen < position + encodedLen then
    .error (.CommitBoundaryMismatch "commit boundary splits a record frame")
  else if maxBytes < position - header.headerLen + encodedLen then
    .error (.Corrupt position s!"segment exceeds configured byte limit {maxBytes}")
  else if maxRecords ≤ expected then
    .error (.Corrupt position s!"segment exceeds configured record limit {maxRecords}")
  else if relativeOffset ≠ expected then
    .error (.Corrupt position s!"record carries relative offset {relativeOffset}, expected {expected}")
  else
    match scan.producers.validateSequence frame.record (recordContentHash blake frame.record) with
    | .error problem => .error (.CorruptSequence position problem)
    | .ok (.Duplicate _) => .error (.Corrupt position "segment contains a duplicate producer sequence")
    | .ok .Append =>
      if UInt64.size ≤ scan.nextOffset + 1 then .error (.Corrupt (position + encodedLen) "segment offset space exhausted")
      else .ok (scan.add blake tree header frame.record frame.encoded)

/-- The loop of the scan; every frame takes at least a byte, so the file's length bounds its rounds. -/
def scanLoop (header : AnyHeader) (file : Bytes) (fileLen : Nat) (permitTornTail : Bool) :
    Nat → ScanResult η → Except FileError (ScanResult η)
  | 0, scan => .ok scan
  | rounds + 1, scan =>
    let position := scan.validEnd
    if position = fileLen then .ok scan
    else if fileLen < position then .error (.CommitBoundaryMismatch "commit boundary splits a record frame")
    else do
      match ← header.format.layout.readFrame blake position header.config.maxRecordBytes
          (file.drop (position - header.headerLen)) with
      | .End => .ok scan
      | .Torn =>
        if permitTornTail then .ok scan
        else .error (.Corrupt position "sealed segment ends with an incomplete record")
      | .Complete frame =>
        let scan ← scanFrame blake tree header fileLen scan frame
        scanLoop header file fileLen permitTornTail rounds scan

def scanRecords (header : AnyHeader) (file : Bytes) (logicalEnd : Option Nat) (permitTornTail : Bool)
    (inherited : ProducerSnapshot η) : Except FileError (ScanResult η) :=
  let actualLen := header.headerLen + file.length
  let fileLen := logicalEnd.getD actualLen
  let headerLen := header.headerLen
  if fileLen < headerLen ∨ actualLen < fileLen then
    .error (.CommitBoundaryMismatch s!"logical file end {fileLen} is outside {headerLen}..={actualLen}")
  else scanLoop blake tree header file fileLen permitTornTail (file.length + 1) (.start header inherited)

namespace ActiveSegment

/-! ## Opening -/

/-- A new segment that inherits a frontier, with the sidecar it is to be read from again. -/
def create (header : AnyHeader) (sidecar : Option (ProducerSnapshot η)) (inherited : ProducerSnapshot η) : ActiveSegment η :=
  { header
    file := []
    boundary := ⟨header.segmentId, header.baseOffset, 0⟩
    sidecar
    nextOffset := header.baseOffset
    committedOffset := header.baseOffset
    recordCount := 0
    contentBytes := 0
    producers := inherited.inheritedStates
    index := []
    accumulator := .forHeader header
    inherited }

/-- Scan up to the commit boundary, which must end on a frame. -/
def inspectActiveFile (header : AnyHeader) (file : Bytes) (boundary : CommitBoundary) (inherited : ProducerSnapshot η) :
    Except FileError (ScanResult η) := do
  if boundary.segmentId ≠ header.segmentId then
    throw (.CommitBoundaryMismatch "segment id differs from the active segment header")
  let committedEnd := header.headerLen + boundary.contentBytes
  let actualLen := header.headerLen + file.length
  if actualLen < committedEnd then
    throw (.CommitBoundaryMismatch s!"committed byte end {committedEnd} exceeds file length {actualLen}")
  let scan ← scanRecords blake tree header file (some committedEnd) false inherited
  if scan.nextOffset ≠ boundary.committedOffset ∨ scan.validEnd ≠ committedEnd then
    throw (.CommitBoundaryMismatch "offset or byte boundary does not end on the validated record frontier")
  return scan

/-- Recover a segment from its file, its commit boundary and its sidecar; bytes behind the boundary are cut off. -/
def recoverIn (header : AnyHeader) (file : Bytes) (boundary : CommitBoundary) (sidecar : Option (ProducerSnapshot η)) :
    Except FileError (ActiveSegment η) := do
  let inherited ← readProducerSnapshot sidecar
  let scan ← inspectActiveFile blake tree header file boundary inherited
  return {
    header
    file := file.take (scan.validEnd - header.headerLen)
    boundary
    sidecar
    nextOffset := scan.nextOffset
    committedOffset := scan.nextOffset
    recordCount := scan.records
    contentBytes := scan.validEnd - header.headerLen
    producers := scan.producers
    index := scan.index
    accumulator := scan.accumulator
    inherited }

/-! ## Appending -/

def commit (segment : ActiveSegment η) : ActiveSegment η :=
  { segment with
    boundary := ⟨segment.header.segmentId, segment.nextOffset, segment.contentBytes⟩
    committedOffset := segment.nextOffset }

/-- What a group without new records does: under `Fsync` it commits what was buffered. -/
def settle (segment : ActiveSegment η) : Durability → ActiveSegment η
  | .Fsync => segment.commit
  | .Buffered => segment

/-- A field the format has no place for. -/
def unsupportedField (header : AnyHeader) (incoming : IncomingRecord) : Option String :=
  if header.format = .V1 ∧ incoming.record.producerEpoch ≠ 0 then some "producer_epoch"
  else if incoming.attributes ≠ 0 then some "attributes"
  else none

/-- A group on its way: what it changes, and the frames it will write. -/
structure Staged (η : Type) where
  deltas : Producers η
  prospectiveNext : Nat
  outcomes : List AppendOutcome
  pending : List (Nat × Bytes)
  groupBytes : Nat

def stage (segment : ActiveSegment η) (staged : Staged η) (incoming : IncomingRecord) : Except FileError (Staged η) :=
  let record := incoming.record
  let hash := recordContentHash blake record
  let maxGroupBytes := segment.header.config.maxGroupBytes
  match segment.producers.validateSequenceWithDelta staged.deltas record hash with
  | .error problem => .error (.Refused problem)
  | .ok (.Duplicate offset) => .ok { staged with outcomes := staged.outcomes ++ [.Duplicate offset] }
  | .ok .Append =>
    let offset := staged.prospectiveNext
    if UInt64.size ≤ offset + 1 then .error (.InvalidDescriptor "segment offset space exhausted")
    else
      match segment.header.format.layout.encodeRecord blake record (offset - segment.header.baseOffset)
          segment.header.config.maxRecordBytes with
      | .error problem => .error problem
      | .ok encoded =>
        let groupBytes := staged.groupBytes + encoded.length
        if maxGroupBytes < groupBytes then .error (.GroupTooLarge groupBytes maxGroupBytes)
        else
          .ok
            { deltas := staged.deltas.rememberPendingSequence record offset hash
              prospectiveNext := offset + 1
              outcomes := staged.outcomes ++ [.Appended offset]
              pending := staged.pending ++ [(offset, encoded)]
              groupBytes }

/-- The index entries of frames that are written from a position on. -/
def indexOf (header : AnyHeader) : Nat → List (Nat × Bytes) → List IndexEntry
  | _, [] => []
  | position, (offset, encoded) :: rest =>
    let later := indexOf header (position + encoded.length) rest
    if (offset - header.baseOffset) % header.config.indexStride = 0 then ⟨offset, position⟩ :: later else later

/-- Write the frames of a group that fits, and take its changes over. -/
def write (segment : ActiveSegment η) (staged : Staged η) (durability : Durability) : ActiveSegment η :=
  let position := segment.header.headerLen + segment.file.length
  let contentBytes := segment.contentBytes + staged.groupBytes
  { segment with
    file := segment.file ++ (staged.pending.map Prod.snd).flatten
    boundary :=
      match durability with
      | .Fsync => ⟨segment.header.segmentId, staged.prospectiveNext, contentBytes⟩
      | .Buffered => segment.boundary
    nextOffset := staged.prospectiveNext
    committedOffset :=
      match durability with
      | .Fsync => staged.prospectiveNext
      | .Buffered => segment.committedOffset
    recordCount := segment.recordCount + staged.pending.length
    contentBytes
    producers := segment.producers.mergeProducerDeltas staged.deltas
    index := segment.index ++ indexOf segment.header position staged.pending
    accumulator := (staged.pending.map Prod.snd).foldl (ContentAccumulator.update tree) segment.accumulator }

/-- Append a group: all of it is validated before a byte is written. -/
def appendGroup (segment : ActiveSegment η) (group : List IncomingRecord) (durability : Durability) :
    Except FileError (ActiveSegment η × List AppendOutcome) := do
  if let some field := group.findSome? (unsupportedField segment.header) then throw (.UnsupportedRecordField field)
  let staged ← group.foldlM (segment.stage blake) ⟨.empty, segment.nextOffset, [], [], 0⟩
  if staged.pending.isEmpty then return (segment.settle durability, staged.outcomes)
  let config := segment.header.config
  let attemptedBytes := segment.contentBytes + staged.groupBytes
  if config.maxSegmentBytes < attemptedBytes then
    throw (.SegmentByteLimit segment.contentBytes attemptedBytes config.maxSegmentBytes)
  let attemptedRecords := segment.recordCount + staged.pending.length
  if config.maxSegmentRecords < attemptedRecords then
    throw (.Refused (.SegmentRecordLimit attemptedRecords config.maxSegmentRecords))
  return (segment.write tree staged durability, staged.outcomes)

/-! ## Truncating -/

/-- Walk frame by frame from an index entry to an offset. -/
def walkFrames (segment : ActiveSegment η) (target : Nat) : Nat → Nat → Nat → Except FileError Nat
  | 0, _, position => .ok position
  | remaining + 1, offset, position => do
    let expected := offset - segment.header.baseOffset
    match ← segment.header.format.layout.readFrame blake position segment.header.config.maxRecordBytes
        (segment.file.drop (position - segment.header.headerLen)) with
    | .Complete frame =>
      let relativeOffset := frame.relativeOffset
      if relativeOffset ≠ expected then
        .error (.Corrupt position s!"record carries relative offset {relativeOffset}, expected {expected}")
      else walkFrames segment target remaining (offset + 1) (position + frame.encoded.length)
    | .End | .Torn => .error (.Corrupt position s!"log ends at offset {offset} while locating truncation target {target}")

/-- The byte position at which an offset begins. -/
def positionOfOffset (segment : ActiveSegment η) (target : Nat) : Except FileError Nat :=
  if target ≤ segment.header.baseOffset then .ok segment.header.headerLen
  else
    let entry := (segment.index.reverse.find? fun entry => entry.offset ≤ target).getD
      ⟨segment.header.baseOffset, segment.header.headerLen⟩
    segment.walkFrames blake target (target - entry.offset) entry.offset entry.position

/-- Discard every record from an offset on; the state is read from what is left. -/
def truncateTo (segment : ActiveSegment η) (offset : Nat) : Except FileError (ActiveSegment η × TruncateOutcome) := do
  let base := segment.header.baseOffset
  if segment.nextOffset < offset then throw (.Refused (.TruncateBeyondTail offset segment.nextOffset))
  if offset < base then
    throw (.Refused (.InvalidConfig s!"cannot truncate to offset {offset}: this segment begins at {base}"))
  if offset = segment.nextOffset then return (segment, ⟨0, 0, segment.nextOffset⟩)
  let position ← segment.positionOfOffset blake offset
  let bytesRemoved := segment.header.headerLen + segment.contentBytes - position
  let file := segment.file.take (position - segment.header.headerLen)
  let scan ← scanRecords blake tree segment.header file (some position) false segment.inherited
  let left := scan.nextOffset
  if left ≠ offset then throw (.Corrupt position s!"truncation to offset {offset} left a log ending at {left}")
  return ({ segment with
      file
      boundary := ⟨segment.header.segmentId, offset, position - segment.header.headerLen⟩
      nextOffset := scan.nextOffset
      committedOffset := scan.nextOffset
      recordCount := scan.records
      contentBytes := position - segment.header.headerLen
      producers := scan.producers
      index := scan.index
      accumulator := scan.accumulator },
    ⟨segment.recordCount - scan.records, bytesRemoved, scan.nextOffset⟩)

end ActiveSegment

end VtopEngine.Log
