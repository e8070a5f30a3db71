import VtopEngine.Meta.State.Core

/-! # Sealed segments

A segment is registered by the leaseholder of its range and then verified
against its content root.
-/

namespace VtopEngine.Meta

open Lib Txn

variable {records : Records}

/-- A sealed parent publishes nothing past its barrier. -/
def barrierRefusal (sealedAt : Option SealedParent) (nextOffset : UInt64) : Option MetadataError :=
  match sealedAt with
  | none => none
  | some sealing =>
    if nextOffset > sealing.barrierOffset then
      some (.invalidTransition (s!"range is sealed at barrier {sealing.barrierOffset}: a segment ending at {nextOffset} "
        ++ "would publish past the lineage transition"))
    else
      none

def registerSealedSegment (args : Command.RegisterSealedSegment) : Handler := do
  rejectIf (args.segmentUuid = 0) (.invalidTransition
      "the nil segment id is reserved for unpinned cursors; a segment cannot register under it")
  let range ← need (·.range? args.topicUuid args.rangeUuid) .NotFound
  let lease ← need (fun _ => range.lease) (.invalidTransition "range holds no active lease to seal under")
  rejectIf (args.sealedByEpoch ≠ lease.fencingEpoch) (.EpochMismatch args.sealedByEpoch lease.fencingEpoch)
  rejectIf (range.generation ≠ args.expectedRangeGeneration)
    (.GenerationMismatch args.expectedRangeGeneration range.generation)
  rejectIf (args.nextOffset < args.baseOffset)
    (.invalidTransition s!"segment offsets regress: next {args.nextOffset} < base {args.baseOffset}")
  rejectSome (barrierRefusal range.sealedAt args.nextOffset)
  rejectIf ((← read (·.record (.Segment args.topicUuid args.rangeUuid args.segmentUuid))).isSome) .AlreadyExists
  write (·.put (.Segment args.topicUuid args.rangeUuid args.segmentUuid) (.Segment
    { segmentGeneration := args.segmentGeneration, baseOffset := args.baseOffset, nextOffset := args.nextOffset,
      contentRoot := args.contentRoot, state := .SealedUnverified, sealedByEpoch := args.sealedByEpoch }))
  write (·.put (.Range args.topicUuid args.rangeUuid) (.Range
    { range with generation := range.generation + 1 }))
  return .Ack (range.generation + 1)

inductive Command.RegisterSealedSegment.Accepted (args : RegisterSealedSegment) (records : Records) :
    MetadataResponse → Records → Prop
  | intro (real : args.segmentUuid ≠ 0)
      (found : records.range? args.topicUuid args.rangeUuid = some range) (held : range.lease = some lease)
      (epoch : args.sealedByEpoch = lease.fencingEpoch) (current : range.generation = args.expectedRangeGeneration)
      (ordered : args.baseOffset ≤ args.nextOffset) (inside : barrierRefusal range.sealedAt args.nextOffset = none)
      (absent : records.record (.Segment args.topicUuid args.rangeUuid args.segmentUuid) = none) :
      Accepted args records (.Ack (range.generation + 1))
        ((records.put (.Segment args.topicUuid args.rangeUuid args.segmentUuid) (.Segment
            { segmentGeneration := args.segmentGeneration, baseOffset := args.baseOffset,
              nextOffset := args.nextOffset, contentRoot := args.contentRoot, state := .SealedUnverified,
              sealedByEpoch := args.sealedByEpoch })).put
          (.Range args.topicUuid args.rangeUuid) (.Range { range with generation := range.generation + 1 }))

theorem registerSealedSegment_spec (args) : (registerSealedSegment args).Meets args.Accepted records := by
  refine rejectIf_keeps fun real => need_keeps fun range found => ?_
  refine need_keeps fun lease held => rejectIf_keeps fun epoch => ?_
  refine rejectIf_keeps fun current => rejectIf_keeps fun ordered => ?_
  refine rejectSome_keeps fun inside => wp_read_bind (rejectIf_keeps fun absent => ?_)
  exact .intro real found held (not_not.mp epoch) (not_not.mp current) (UInt64.not_lt.mp ordered) inside
    (Option.not_isSome_iff_eq_none.mp absent)

def markSegmentVerified (args : Command.MarkSegmentVerified) : Handler := do
  let segment ← need (·.segment? args.topicUuid args.rangeUuid args.segmentUuid) .NotFound
  rejectIf (segment.segmentGeneration ≠ args.expectedGeneration)
    (.GenerationMismatch args.expectedGeneration segment.segmentGeneration)
  rejectIf (segment.contentRoot ≠ args.contentRoot) (.invalidTransition "content root does not match the sealed segment")
  rejectIf (segment.state ≠ .SealedUnverified) (.invalidTransition "verification requires SEALED_UNVERIFIED")
  let nextGeneration ← need (fun _ => checkedSucc segment.segmentGeneration) (.limit "segment generation space is exhausted")
  write (·.put (.Segment args.topicUuid args.rangeUuid args.segmentUuid) (.Segment
    { segment with state := .Verified, segmentGeneration := nextGeneration }))
  return .Ack nextGeneration

inductive Command.MarkSegmentVerified.Accepted (args : MarkSegmentVerified) (records : Records) :
    MetadataResponse → Records → Prop
  | intro {segment : SegmentRecord}
      (found : records.segment? args.topicUuid args.rangeUuid args.segmentUuid = some segment)
      (current : segment.segmentGeneration = args.expectedGeneration) (root : segment.contentRoot = args.contentRoot)
      (state : segment.state = .SealedUnverified) (next : checkedSucc segment.segmentGeneration = some nextGeneration) :
      Accepted args records (.Ack nextGeneration)
        (records.put (.Segment args.topicUuid args.rangeUuid args.segmentUuid) (.Segment
          { segment with state := .Verified, segmentGeneration := nextGeneration }))

theorem markSegmentVerified_spec (args) : (markSegmentVerified args).Meets args.Accepted records := by
  refine need_keeps fun segment found => rejectIf_keeps fun current => ?_
  refine rejectIf_keeps fun root => rejectIf_keeps fun state => ?_
  refine need_keeps fun nextGeneration next => ?_
  exact .intro found (not_not.mp current) (not_not.mp root) (not_not.mp state) next

end VtopEngine.Meta
