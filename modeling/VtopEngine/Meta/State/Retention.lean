import VtopEngine.Meta.State.Core

/-! # Tier evidence and retention

Whole-segment deletion is authorised by `PlanRetention`, under the lease of the
range, and only where a pinned cold copy exists or the topic's policy allows
deletion without one.  Once authorised it cannot be cancelled.
-/

namespace VtopEngine.Meta

open Lib Command
open Txn (need need_keeps reject rejectIf rejectIf_keeps rejectSome wp_read_bind write)

variable {records : Records} {applyIndex : UInt64}

/-! ## Tier evidence and policies -/

def manifestVersionRefusal (versionId : String) : Option MetadataError :=
  if versionId.utf8ByteSize > MAX_TIER_VERSION_ID_BYTES then
    some (.limit (s!"tier manifest version id must be <= {MAX_TIER_VERSION_ID_BYTES} bytes, "
      ++ s!"got {versionId.utf8ByteSize}"))
  else
    none

def objectVersionRefusal (versionId : String) : Option MetadataError :=
  if versionId.isEmpty ∨ versionId.utf8ByteSize > MAX_TIER_VERSION_ID_BYTES then
    some (.limit (s!"tier object version id must be 1..={MAX_TIER_VERSION_ID_BYTES} bytes, "
      ++ s!"got {versionId.utf8ByteSize}"))
  else
    none

def Command.CommitTierEvidence.tierCopy (args : CommitTierEvidence) (applyIndex : UInt64) : TierCopyRecord :=
  { generation := 0, segmentGeneration := args.expectedSegmentGeneration, contentRoot := args.contentRoot,
    byteLength := args.byteLength, backendId := args.backendId, objectUri := args.objectUri,
    objectVersionId := args.objectVersionId, manifestVersionId := args.manifestVersionId,
    manifestCoreDigest := args.manifestCoreDigest, verificationMethod := args.verificationMethod,
    verifierNodeUuid := args.verifierNodeUuid, verifiedAtApplyIndex := applyIndex,
    verifiedTerm := args.verifiedTerm, fencingEpoch := args.fencingEpoch }

def commitTierEvidence (applyIndex : UInt64) (args : CommitTierEvidence) : Handler := do
  rejectIf (args.byteLength = 0) (.limit "tier byte length must be > 0")
  rejectIf (args.backendId.isEmpty ∨ args.backendId.utf8ByteSize > MAX_TIER_BACKEND_ID_BYTES)
    (.limit s!"tier backend id must be 1..={MAX_TIER_BACKEND_ID_BYTES} bytes, got {args.backendId.utf8ByteSize}")
  rejectIf (args.objectUri.isEmpty ∨ args.objectUri.utf8ByteSize > MAX_TIER_OBJECT_URI_BYTES)
    (.limit s!"tier object uri must be 1..={MAX_TIER_OBJECT_URI_BYTES} bytes, got {args.objectUri.utf8ByteSize}")
  rejectSome (args.manifestVersionId.bind manifestVersionRefusal)
  rejectSome (args.objectVersionId.bind objectVersionRefusal)
  rejectIf (args.verificationMethod ≠ .AuthenticatedContentRoot)
    (.invalidTransition "unsupported verification method for tier evidence")
  let range ← need (·.range? args.topicUuid args.rangeUuid) .NotFound
  let lease ← need (fun _ => range.lease) (.invalidTransition "range holds no active lease for tier evidence")
  rejectIf (args.fencingEpoch ≠ lease.fencingEpoch) (.EpochMismatch args.fencingEpoch lease.fencingEpoch)
  let segment ← need (·.segment? args.topicUuid args.rangeUuid args.segmentUuid) .NotFound
  rejectIf (segment.segmentGeneration ≠ args.expectedSegmentGeneration)
    (.GenerationMismatch args.expectedSegmentGeneration segment.segmentGeneration)
  rejectIf (segment.state ≠ .Verified) (.invalidTransition "tier evidence requires a verified segment")
  rejectIf (segment.contentRoot ≠ args.contentRoot)
    (.invalidTransition "tier evidence content root does not match the sealed segment")
  let verifier ← need (·.node? args.verifierNodeUuid) .NotFound
  rejectIf (verifier.state = .Dead) (.invalidTransition "tier evidence verifier node is dead")
  rejectIf ((← Txn.read (·.record (.SegmentTierCopy args.topicUuid args.rangeUuid args.segmentUuid))).isSome) .AlreadyExists
  write (·.put (.SegmentTierCopy args.topicUuid args.rangeUuid args.segmentUuid) (.TierCopy (args.tierCopy applyIndex)))
  return .Ack 0

/-- The bounds on the texts of tier evidence. -/
structure Command.CommitTierEvidence.TextsFit (args : CommitTierEvidence) : Prop where
  backend : args.backendId ≠ "" ∧ args.backendId.utf8ByteSize ≤ MAX_TIER_BACKEND_ID_BYTES
  object : args.objectUri ≠ "" ∧ args.objectUri.utf8ByteSize ≤ MAX_TIER_OBJECT_URI_BYTES
  manifestVersion : ∀ versionId, args.manifestVersionId = some versionId → versionId.utf8ByteSize ≤ MAX_TIER_VERSION_ID_BYTES
  objectVersion : ∀ versionId, args.objectVersionId = some versionId →
    versionId ≠ "" ∧ versionId.utf8ByteSize ≤ MAX_TIER_VERSION_ID_BYTES

inductive Command.CommitTierEvidence.Accepted (args : CommitTierEvidence) (applyIndex : UInt64)
    (records : Records) : MetadataResponse → Records → Prop
  | intro {segment : SegmentRecord}
      (positive : args.byteLength ≠ 0) (texts : args.TextsFit)
      (found : records.range? args.topicUuid args.rangeUuid = some range) (held : range.lease = some lease)
      (epoch : args.fencingEpoch = lease.fencingEpoch)
      (sealedSegment : records.segment? args.topicUuid args.rangeUuid args.segmentUuid = some segment)
      (state : segment.state = .Verified) (root : segment.contentRoot = args.contentRoot)
      (absent : records.record (.SegmentTierCopy args.topicUuid args.rangeUuid args.segmentUuid) = none) :
      Accepted args applyIndex records (.Ack 0)
        (records.put (.SegmentTierCopy args.topicUuid args.rangeUuid args.segmentUuid)
          (.TierCopy (args.tierCopy applyIndex)))

theorem commitTierEvidence_spec (args) : (commitTierEvidence applyIndex args).Meets (args.Accepted applyIndex) records := by
  refine rejectIf_keeps fun positive => rejectIf_keeps fun backend => ?_
  refine rejectIf_keeps fun object => Txn.rejectSome_keeps fun manifestVersion => ?_
  refine Txn.rejectSome_keeps fun objectVersion => rejectIf_keeps fun _ => ?_
  have texts : args.TextsFit := by
    refine ⟨by simpa using backend, by simpa using object, ?_, ?_⟩
    · rintro versionId given
      simpa [given, manifestVersionRefusal] using manifestVersion
    · rintro versionId given
      simpa [given, objectVersionRefusal] using objectVersion
  refine need_keeps fun range found => need_keeps fun lease held => ?_
  refine rejectIf_keeps fun epoch => need_keeps fun segment sealedSegment => ?_
  refine rejectIf_keeps fun _ => rejectIf_keeps fun state => rejectIf_keeps fun root => ?_
  refine need_keeps fun _ _ => rejectIf_keeps fun _ => ?_
  refine wp_read_bind (rejectIf_keeps fun absent => ?_)
  exact .intro positive texts found held (not_not.mp epoch) sealedSegment (not_not.mp state) (not_not.mp root)
    (Option.not_isSome_iff_eq_none.mp absent)

def setTopicRetentionPolicy (args : SetTopicRetentionPolicy) : Handler := do
  let _ ← need (·.topic? args.topicUuid) .NotFound
  let existing ← Txn.read (·.record (.TopicRetentionPolicy args.topicUuid))
  match existing, args.expectedGeneration with
  | none, none =>
    write (·.put (.TopicRetentionPolicy args.topicUuid) (.TopicRetentionPolicy
      { generation := 0, unarchivedDeletionAllowed := args.unarchivedDeletionAllowed }))
    return .Ack 0
  | none, some _ => reject .NotFound
  | some _, none => reject .AlreadyExists
  | some (.TopicRetentionPolicy policy), some expected =>
    rejectIf (policy.generation ≠ expected) (.GenerationMismatch expected policy.generation)
    let nextGeneration ← need (fun _ => checkedSucc policy.generation)
      (.limit "retention policy generation space is exhausted")
    write (·.put (.TopicRetentionPolicy args.topicUuid) (.TopicRetentionPolicy
      { generation := nextGeneration, unarchivedDeletionAllowed := args.unarchivedDeletionAllowed }))
    return .Ack nextGeneration
  | some _, some _ => Txn.unreachable "retention policy keys only ever hold policy records"

inductive Command.SetTopicRetentionPolicy.Accepted (args : SetTopicRetentionPolicy) (records : Records) :
    MetadataResponse → Records → Prop
  | intro (topic : records.topic? args.topicUuid ≠ none) :
      Accepted args records (.Ack generation) (records.put (.TopicRetentionPolicy args.topicUuid) (.TopicRetentionPolicy
          { generation, unarchivedDeletionAllowed := args.unarchivedDeletionAllowed }))

theorem setTopicRetentionPolicy_spec (args) : (setTopicRetentionPolicy args).Meets args.Accepted records := by
  refine need_keeps fun topic found => wp_read_bind ?_
  have exists_ : records.topic? args.topicUuid ≠ none := by simp [found]
  split
  · exact .intro exists_
  · exact Txn.reject_keeps
  · exact Txn.reject_keeps
  · exact rejectIf_keeps fun _ => need_keeps fun _ _ => .intro exists_
  · next value generation notPolicy stored expected =>
    refine Txn.unchanged_panicked fun healthy => ?_
    have kind := healthy.typed _ _ stored
    cases value <;> simp_all [keyMatchesValue]

/-! ## Retention -/

/-- A durable cursor of the range that still needs the segment. -/
def cursorRefusal (topicUuid rangeUuid : Uuid) (nextOffset : UInt64) (entry : Bytes × MetaValue) : Option MetadataError :=
  match MetaKey.decode entry.1, entry.2 with
  | .ok (.GroupCursor groupUuid cursorTopic cursorRange), .GroupCursor cursor =>
    if cursorTopic ≠ topicUuid ∨ cursorRange ≠ rangeUuid then
      none
    else if cursor.recordOffset < nextOffset then
      some (.invalidTransition (s!"group cursor {hyphenated groupUuid} at offset {cursor.recordOffset} "
        ++ s!"is below segment end {nextOffset}"))
    else
      none
  | _, _ => none

/-- The first cursor, in key order, that protects a segment ending at `nextOffset`. -/
def Records.protectingCursor (records : Records) (topicUuid rangeUuid : Uuid) (nextOffset : UInt64) : Option MetadataError :=
  records.entries.findSome? (cursorRefusal topicUuid rangeUuid nextOffset)

theorem Records.consumed_of_protectingCursor (unprotected : records.protectingCursor topic range nextOffset = none)
    (stored : records.cursor? group topic range = some cursor) : nextOffset ≤ cursor.recordOffset := by
  obtain ⟨value, found, seen⟩ := Option.bind_eq_some_iff.mp stored
  have unblocked := List.findSome?_eq_none_iff.mp unprotected _ (Records.mem_entries.mpr found)
  cases value <;> simp only [MetaValue.asGroupCursor, reduceCtorEq, Option.some.injEq] at seen
  subst seen
  have decoded : MetaKey.decode (MetaKey.GroupCursor group topic range).encode = .ok (.GroupCursor group topic range) :=
    MetaKey.decode_encode trivial
  simpa [cursorRefusal, decoded, UInt64.not_lt] using unblocked

def planRetention (args : PlanRetention) : Handler := do
  let range ← need (·.range? args.topicUuid args.rangeUuid) .NotFound
  let lease ← need (fun _ => range.lease) (.invalidTransition "range holds no active lease for retention planning")
  rejectIf (args.fencingEpoch ≠ lease.fencingEpoch) (.EpochMismatch args.fencingEpoch lease.fencingEpoch)
  let segment ← need (·.segment? args.topicUuid args.rangeUuid args.segmentUuid) .NotFound
  rejectIf (segment.segmentGeneration ≠ args.expectedSegmentGeneration)
    (.GenerationMismatch args.expectedSegmentGeneration segment.segmentGeneration)
  rejectIf (segment.state ≠ .Verified) (.invalidTransition "retention planning requires a verified segment")
  rejectIf ((← Txn.read (·.record (.SegmentRebalanceIntent args.topicUuid args.rangeUuid args.segmentUuid))).isSome)
    (.invalidTransition "segment has an active rebalance intent")
  rejectIf ((← Txn.read (·.record (.SegmentReplacementProof args.topicUuid args.rangeUuid args.segmentUuid))).isSome)
    (.invalidTransition "segment has a committed replacement proof; complete or resolve the replica retirement first")
  let evidence ← expect MetaValue.asTierCopy (.SegmentTierCopy args.topicUuid args.rangeUuid args.segmentUuid)
    "tier-copy keys only ever hold tier-copy records"
  rejectIf (∃ copy ∈ evidence, copy.contentRoot ≠ segment.contentRoot)
    (.invalidTransition "tier evidence content root does not match the sealed segment")
  -- unpinned evidence counts as none
  let archived := evidence.any (·.objectVersionId.isSome)
  let policy ← Txn.read (·.retentionPolicy? args.topicUuid)
  rejectIf (¬ archived ∧ ¬ policy.any (·.unarchivedDeletionAllowed))
    (.invalidTransition "retention requires pinned tier evidence or an explicit unarchived-deletion policy")
  rejectSome (← Txn.read (·.protectingCursor args.topicUuid args.rangeUuid segment.nextOffset))
  match ← Txn.read (·.segment? args.topicUuid args.rangeUuid args.segmentUuid) with
  | none => Txn.unreachable "segment record was present above and apply is single-threaded"
  | some segment =>
    let nextGeneration ← need (fun _ => checkedSucc segment.segmentGeneration)
      (.limit "segment generation space is exhausted")
    write (·.put (.Segment args.topicUuid args.rangeUuid args.segmentUuid) (.Segment
      { segment with state := .RetentionPlanned, segmentGeneration := nextGeneration }))
    return .Ack nextGeneration

/-- What lets the segment be deleted: a pinned cold copy of its bytes, or the
    topic's policy. -/
def Records.DeletionAuthorised (records : Records) (topic range segment : Uuid) (contentRoot : Bytes32) : Prop :=
  (∃ copy, records.tierCopy? topic range segment = some copy ∧ copy.contentRoot = contentRoot ∧ copy.objectVersionId.isSome)
    ∨ ∃ policy, records.retentionPolicy? topic = some policy ∧ policy.unarchivedDeletionAllowed = true

inductive Command.PlanRetention.Accepted (args : PlanRetention) (records : Records) :
    MetadataResponse → Records → Prop
  | intro {segment : SegmentRecord}
      (found : records.range? args.topicUuid args.rangeUuid = some range) (held : range.lease = some lease)
      (epoch : args.fencingEpoch = lease.fencingEpoch)
      (sealedSegment : records.segment? args.topicUuid args.rangeUuid args.segmentUuid = some segment)
      (state : segment.state = .Verified)
      (unlocked : records.record (.SegmentRebalanceIntent args.topicUuid args.rangeUuid args.segmentUuid) = none)
      (unproven : records.record (.SegmentReplacementProof args.topicUuid args.rangeUuid args.segmentUuid) = none)
      (authorised : records.DeletionAuthorised args.topicUuid args.rangeUuid args.segmentUuid segment.contentRoot)
      (consumed : ∀ group cursor, records.cursor? group args.topicUuid args.rangeUuid = some cursor →
        segment.nextOffset ≤ cursor.recordOffset)
      (next : checkedSucc segment.segmentGeneration = some nextGeneration) :
      Accepted args records (.Ack nextGeneration)
        (records.put (.Segment args.topicUuid args.rangeUuid args.segmentUuid) (.Segment
          { segment with state := .RetentionPlanned, segmentGeneration := nextGeneration }))

theorem planRetention_spec (args) : (planRetention args).Meets args.Accepted records := by
  refine need_keeps fun range found => need_keeps fun lease held => ?_
  refine rejectIf_keeps fun epoch => need_keeps fun segment sealedSegment => ?_
  refine rejectIf_keeps fun _ => rejectIf_keeps fun state => ?_
  refine wp_read_bind (rejectIf_keeps fun unlocked => ?_)
  refine wp_read_bind (rejectIf_keeps fun unproven => ?_)
  refine expect_keeps (by intro value; cases value <;> simp [keyMatchesValue]) ?_
  refine rejectIf_keeps fun matching => wp_read_bind (rejectIf_keeps fun allowed => ?_)
  refine wp_read_bind (Txn.rejectSome_keeps fun unprotected => wp_read_bind ?_)
  rw [sealedSegment]
  refine need_keeps fun nextGeneration next => ?_
  have authorised : records.DeletionAuthorised args.topicUuid args.rangeUuid args.segmentUuid segment.contentRoot := by
    rw [not_and_or, not_not, not_not, Option.any_eq_true, Option.any_eq_true] at allowed
    refine allowed.imp ?_ id
    rintro ⟨copy, stored, pinned⟩
    exact ⟨copy, stored, by_contra fun differs => matching ⟨copy, stored, differs⟩, pinned⟩
  exact .intro found held (not_not.mp epoch) sealedSegment (not_not.mp state)
    (Option.not_isSome_iff_eq_none.mp unlocked) (Option.not_isSome_iff_eq_none.mp unproven) authorised
    (fun _ _ => Records.consumed_of_protectingCursor unprotected) next

/-- The placement of a deleted segment: no replica left, the factor kept. -/
def SegmentPlacementRecord.cleared (placement : SegmentPlacementRecord) (generation applyIndex : UInt64) :
    SegmentPlacementRecord :=
  { placement with replicaNodes := [], generation, committedApplyIndex := applyIndex }

def confirmRetentionExpired (applyIndex : UInt64) (args : ConfirmRetentionExpired) : Handler := do
  let segment ← need (·.segment? args.topicUuid args.rangeUuid args.segmentUuid) .NotFound
  rejectIf (segment.segmentGeneration ≠ args.expectedSegmentGeneration)
    (.GenerationMismatch args.expectedSegmentGeneration segment.segmentGeneration)
  rejectIf (segment.state ≠ .RetentionPlanned) (.invalidTransition "retention confirmation requires RETENTION_PLANNED")
  let nextGeneration ← need (fun _ => checkedSucc segment.segmentGeneration) (.limit "segment generation space is exhausted")
  match ← Txn.read (·.placement? args.topicUuid args.rangeUuid args.segmentUuid) with
  | some placement =>
    let nextPlacementGeneration ← need (fun _ => checkedSucc placement.generation)
      (.limit "placement generation space is exhausted")
    write (·.put (.Segment args.topicUuid args.rangeUuid args.segmentUuid) (.Segment
      { segment with state := .RetentionExpired, segmentGeneration := nextGeneration }))
    write (·.put (.SegmentPlacement args.topicUuid args.rangeUuid args.segmentUuid) (.SegmentPlacement
      (placement.cleared nextPlacementGeneration applyIndex)))
    return .Ack nextGeneration
  | none =>
    write (·.put (.Segment args.topicUuid args.rangeUuid args.segmentUuid) (.Segment
      { segment with state := .RetentionExpired, segmentGeneration := nextGeneration }))
    return .Ack nextGeneration

inductive Command.ConfirmRetentionExpired.Accepted (args : ConfirmRetentionExpired) (applyIndex : UInt64)
    (records : Records) : MetadataResponse → Records → Prop
  | placed {segment : SegmentRecord}
      (found : records.segment? args.topicUuid args.rangeUuid args.segmentUuid = some segment)
      (state : segment.state = .RetentionPlanned)
      (next : checkedSucc segment.segmentGeneration = some nextGeneration)
      (placed : records.placement? args.topicUuid args.rangeUuid args.segmentUuid = some placement)
      (nextPlacement : checkedSucc placement.generation = some nextPlacementGeneration) :
      Accepted args applyIndex records (.Ack nextGeneration)
        ((records.put (.Segment args.topicUuid args.rangeUuid args.segmentUuid) (.Segment
            { segment with state := .RetentionExpired, segmentGeneration := nextGeneration })).put
          (.SegmentPlacement args.topicUuid args.rangeUuid args.segmentUuid) (.SegmentPlacement
            (placement.cleared nextPlacementGeneration applyIndex)))
  | unplaced {segment : SegmentRecord}
      (found : records.segment? args.topicUuid args.rangeUuid args.segmentUuid = some segment)
      (state : segment.state = .RetentionPlanned)
      (next : checkedSucc segment.segmentGeneration = some nextGeneration)
      (placeless : records.placement? args.topicUuid args.rangeUuid args.segmentUuid = none) :
      Accepted args applyIndex records (.Ack nextGeneration)
        (records.put (.Segment args.topicUuid args.rangeUuid args.segmentUuid) (.Segment
          { segment with state := .RetentionExpired, segmentGeneration := nextGeneration }))

theorem confirmRetentionExpired_spec (args) :
    (confirmRetentionExpired applyIndex args).Meets (args.Accepted applyIndex) records := by
  refine need_keeps fun segment found => rejectIf_keeps fun _ => ?_
  refine rejectIf_keeps fun state => need_keeps fun nextGeneration next => wp_read_bind ?_
  split
  · next placement placed =>
    refine need_keeps fun nextPlacementGeneration nextPlacement => ?_
    exact .placed found (not_not.mp state) next placed nextPlacement
  · next placeless => exact .unplaced found (not_not.mp state) next placeless

/-- Deprecated: every path rejects. -/
def cancelRetention (args : CancelRetention) : Handler := do
  let segment ← need (·.segment? args.topicUuid args.rangeUuid args.segmentUuid) .NotFound
  rejectIf (segment.segmentGeneration ≠ args.expectedSegmentGeneration)
    (.GenerationMismatch args.expectedSegmentGeneration segment.segmentGeneration)
  rejectIf (segment.state ≠ .RetentionPlanned) (.invalidTransition "retention cancellation requires RETENTION_PLANNED")
  reject (.invalidTransition "retention cannot be cancelled after deletion is authorized")

theorem cancelRetention_spec (args) : (cancelRetention args).wp (fun _ _ => False) (Clean records) records := by
  refine need_keeps fun _ _ => rejectIf_keeps fun _ => rejectIf_keeps fun _ => ?_
  exact Txn.reject_keeps

end VtopEngine.Meta
