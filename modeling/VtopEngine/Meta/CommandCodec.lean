import VtopEngine.Meta.CommandParts

/-! # Command codec

`MetadataCommand::encode` and `MetadataCommand::decode` (`command.rs`): a `u16`
kind, the envelope and the fields of the kind in order, with every string and list
bounded.  Each kind has its writer, its reader and the law between them; `Valid`
says what the reader demands beyond the types, where it demands anything.

* `MetadataCommand.decode_encode` — a valid command is what its encoding decodes to;
* `MetadataCommand.valid_of_decode` — whatever decodes is valid.
-/

namespace VtopEngine.Meta

open Lib Command CommitCursorArgs CommitSegmentPlacement
open Lib.Parser (fail failIf yields_bind yields_failIf yields_map yields_pure yields_skip)
open Reader (boundedStr bytes32 flag nonemptyStr nonemptyStr_append u16 u32 u64 u8 uuid yields_nonemptyStr)

/-! ## Kinds of commands -/

namespace Command

@[simp] def RegisterNode.encode (args : RegisterNode) : Except CodecError Bytes := do
  return encodeEnvelope args.env ++ putUuid args.nodeUuid ++ (← putBoundedStr args.addr MAX_NODE_ADDR_BYTES "node address")
    ++ encodeOptionalU64 args.expectedGeneration

@[simp] def RegisterNode.decode : Reader RegisterNode := do
  return {
    env := ← decodeEnvelope, nodeUuid := ← uuid "node uuid"
    addr := ← nonemptyStr MAX_NODE_ADDR_BYTES "node address"
    expectedGeneration := ← decodeOptionalU64 "expected generation" }

def RegisterNode.Valid (args : RegisterNode) : Prop := args.addr ≠ "" ∧ args.addr.utf8ByteSize ≤ MAX_NODE_ADDR_BYTES

theorem RegisterNode.yields_decode : decode.Yields Valid := by
  iterate 2 refine yields_skip fun _ => ?_
  exact yields_bind yields_nonemptyStr fun _ within => yields_skip fun _ => yields_pure within

@[simp] def SetNodeState.encode (args : SetNodeState) : Except CodecError Bytes := do
  return encodeEnvelope args.env ++ putUuid args.nodeUuid ++ putU8 args.state.wireTag ++ putU64 args.expectedGeneration

@[simp] def SetNodeState.decode : Reader SetNodeState := do
  return {
    env := ← decodeEnvelope, nodeUuid := ← uuid "node uuid", state := ← NodeState.fromWire (← u8 "node state")
    expectedGeneration := ← u64 "expected generation" }

@[simp] def CreateTopic.encode (args : CreateTopic) : Except CodecError Bytes := do
  return encodeEnvelope args.env ++ (← putBoundedStr args.name MAX_TOPIC_NAME_BYTES "topic name")
    ++ putUuid args.topicUuid ++ putUuid args.rootRangeUuid

@[simp] def CreateTopic.decode : Reader CreateTopic := do
  return {
    env := ← decodeEnvelope, name := ← nonemptyStr MAX_TOPIC_NAME_BYTES "topic name"
    topicUuid := ← uuid "topic uuid", rootRangeUuid := ← uuid "root range uuid" }

def CreateTopic.Valid (args : CreateTopic) : Prop := args.name ≠ "" ∧ args.name.utf8ByteSize ≤ MAX_TOPIC_NAME_BYTES

theorem CreateTopic.yields_decode : decode.Yields Valid := by
  refine yields_skip fun _ => ?_
  exact yields_bind yields_nonemptyStr fun _ within => yields_skip fun _ => yields_skip fun _ => yields_pure within

@[simp] def GrantRangeLease.encode (args : GrantRangeLease) : Except CodecError Bytes := do
  return encodeEnvelope args.env ++ putUuid args.topicUuid ++ putUuid args.rangeUuid
    ++ putUuid args.holderNodeUuid ++ putU64 args.expectedRangeGeneration

@[simp] def GrantRangeLease.decode : Reader GrantRangeLease := do
  return {
    env := ← decodeEnvelope, topicUuid := ← uuid "topic uuid", rangeUuid := ← uuid "range uuid"
    holderNodeUuid := ← uuid "holder node uuid", expectedRangeGeneration := ← u64 "expected range generation" }

@[simp] def ReleaseRangeLease.encode (args : ReleaseRangeLease) : Except CodecError Bytes := do
  return encodeEnvelope args.env ++ putUuid args.topicUuid ++ putUuid args.rangeUuid ++ putU64 args.expectedFencingEpoch

@[simp] def ReleaseRangeLease.decode : Reader ReleaseRangeLease := do
  return {
    env := ← decodeEnvelope, topicUuid := ← uuid "topic uuid", rangeUuid := ← uuid "range uuid"
    expectedFencingEpoch := ← u64 "expected fencing epoch" }

@[simp] def AcquireRangeLease.encode (args : AcquireRangeLease) : Except CodecError Bytes := do
  return encodeEnvelope args.env ++ putUuid args.topicUuid ++ putUuid args.rangeUuid
    ++ putUuid args.holderNodeUuid ++ putU64 args.expectedRangeGeneration ++ putU64 args.leaseDurationMs

@[simp] def AcquireRangeLease.decode : Reader AcquireRangeLease := do
  return {
    env := ← decodeEnvelope, topicUuid := ← uuid "topic uuid", rangeUuid := ← uuid "range uuid"
    holderNodeUuid := ← uuid "holder node uuid", expectedRangeGeneration := ← u64 "expected range generation"
    leaseDurationMs := ← u64 "lease duration ms" }

@[simp] def RenewRangeLease.encode (args : RenewRangeLease) : Except CodecError Bytes := do
  return encodeEnvelope args.env ++ putUuid args.topicUuid ++ putUuid args.rangeUuid
    ++ putUuid args.holderNodeUuid ++ putU64 args.expectedFencingEpoch ++ putU64 args.leaseDurationMs

@[simp] def RenewRangeLease.decode : Reader RenewRangeLease := do
  return {
    env := ← decodeEnvelope, topicUuid := ← uuid "topic uuid", rangeUuid := ← uuid "range uuid"
    holderNodeUuid := ← uuid "holder node uuid", expectedFencingEpoch := ← u64 "expected fencing epoch"
    leaseDurationMs := ← u64 "lease duration ms" }

def ReportPromotionOutcome.encode (args : ReportPromotionOutcome) : Except CodecError Bytes := do
  return encodeEnvelope args.env ++ putUuid args.topicUuid ++ putUuid args.rangeUuid
    ++ putUuid args.holderNodeUuid ++ putU64 args.fencingEpoch ++ (← encodePromotionOutcome args.outcome)

def ReportPromotionOutcome.decode : Reader ReportPromotionOutcome := do
  return {
    env := ← decodeEnvelope, topicUuid := ← uuid "topic uuid", rangeUuid := ← uuid "range uuid"
    holderNodeUuid := ← uuid "holder node uuid", fencingEpoch := ← u64 "fencing epoch"
    outcome := ← decodePromotionOutcome }

def ReportPromotionOutcome.Valid (args : ReportPromotionOutcome) : Prop := args.outcome.Bounded

theorem ReportPromotionOutcome.decode_encode {args : ReportPromotionOutcome} (valid : args.Valid) :
    decode.Undoes args.encode args := by
  obtain ⟨outcome, written, -, reads⟩ := PromotionOutcome.Bounded.reads valid
  exact ⟨_, by simp only [encode, written]; rfl, by simp [decode, reads, -List.append_nil]⟩

theorem ReportPromotionOutcome.yields_decode : decode.Yields Valid := by
  iterate 5 refine yields_skip fun _ => ?_
  exact yields_bind yields_decodePromotionOutcome fun _ bounded => yields_pure bounded

@[simp] def SplitRange.encode (args : SplitRange) : Except CodecError Bytes := do
  return encodeEnvelope args.env ++ putUuid args.topicUuid ++ putUuid args.parentRangeUuid
    ++ putUuid args.leftRangeUuid ++ putUuid args.rightRangeUuid ++ putUuid args.transitionId
    ++ putU64 args.barrierOffset ++ putU64 args.expectedRangeGeneration ++ putUuid args.holderNodeUuid
    ++ putU64 args.fencingEpoch

@[simp] def SplitRange.decode : Reader SplitRange := do
  return {
    env := ← decodeEnvelope, topicUuid := ← uuid "topic uuid", parentRangeUuid := ← uuid "parent range uuid"
    leftRangeUuid := ← uuid "left range uuid", rightRangeUuid := ← uuid "right range uuid"
    transitionId := ← uuid "transition id", barrierOffset := ← u64 "barrier offset"
    expectedRangeGeneration := ← u64 "expected range generation", holderNodeUuid := ← uuid "holder node uuid"
    fencingEpoch := ← u64 "fencing epoch" }

@[simp] def RegisterSealedSegment.encode (args : RegisterSealedSegment) : Except CodecError Bytes := do
  return encodeEnvelope args.env ++ putUuid args.topicUuid ++ putUuid args.rangeUuid ++ putUuid args.segmentUuid
    ++ putU64 args.segmentGeneration ++ putU64 args.baseOffset ++ putU64 args.nextOffset
    ++ putBytes32 args.contentRoot ++ putU64 args.sealedByEpoch ++ putU64 args.expectedRangeGeneration

@[simp] def RegisterSealedSegment.decode : Reader RegisterSealedSegment := do
  return {
    env := ← decodeEnvelope, topicUuid := ← uuid "topic uuid", rangeUuid := ← uuid "range uuid"
    segmentUuid := ← uuid "segment uuid", segmentGeneration := ← u64 "segment generation"
    baseOffset := ← u64 "base offset", nextOffset := ← u64 "next offset"
    contentRoot := ← bytes32 "content root", sealedByEpoch := ← u64 "sealed-by epoch"
    expectedRangeGeneration := ← u64 "expected range generation" }

@[simp] def MarkSegmentVerified.encode (args : MarkSegmentVerified) : Except CodecError Bytes := do
  return encodeEnvelope args.env ++ putUuid args.topicUuid ++ putUuid args.rangeUuid ++ putUuid args.segmentUuid
    ++ putBytes32 args.contentRoot ++ putU64 args.expectedGeneration

@[simp] def MarkSegmentVerified.decode : Reader MarkSegmentVerified := do
  return {
    env := ← decodeEnvelope, topicUuid := ← uuid "topic uuid", rangeUuid := ← uuid "range uuid"
    segmentUuid := ← uuid "segment uuid", contentRoot := ← bytes32 "content root"
    expectedGeneration := ← u64 "expected generation" }

@[simp] def PutKeyRecord.encode (args : PutKeyRecord) : Except CodecError Bytes := do
  return encodeEnvelope args.env ++ putUuid args.keyUuid ++ putU16 args.scheme ++ putBytes32 args.publicMaterialDigest

@[simp] def PutKeyRecord.decode : Reader PutKeyRecord := do
  return {
    env := ← decodeEnvelope, keyUuid := ← uuid "key uuid", scheme := ← u16 "key scheme"
    publicMaterialDigest := ← bytes32 "public material digest" }

@[simp] def CreateConsumerGroup.encode (args : CreateConsumerGroup) : Except CodecError Bytes := do
  return encodeEnvelope args.env ++ (← putBoundedStr args.name MAX_GROUP_NAME_BYTES "group name") ++ putUuid args.groupUuid

@[simp] def CreateConsumerGroup.decode : Reader CreateConsumerGroup := do
  return {
    env := ← decodeEnvelope, name := ← nonemptyStr MAX_GROUP_NAME_BYTES "group name"
    groupUuid := ← uuid "group uuid" }

def CreateConsumerGroup.Valid (args : CreateConsumerGroup) : Prop :=
  args.name ≠ "" ∧ args.name.utf8ByteSize ≤ MAX_GROUP_NAME_BYTES

theorem CreateConsumerGroup.yields_decode : decode.Yields Valid := by
  refine yields_skip fun _ => ?_
  exact yields_bind yields_nonemptyStr fun _ within => yields_skip fun _ => yields_pure within

@[simp] def JoinConsumerGroup.encode (args : JoinConsumerGroup) : Except CodecError Bytes := do
  return encodeEnvelope args.env ++ putUuid args.groupUuid ++ putUuid args.memberUuid ++ putU64 args.expectedGroupGeneration

@[simp] def JoinConsumerGroup.decode : Reader JoinConsumerGroup := do
  return {
    env := ← decodeEnvelope, groupUuid := ← uuid "group uuid", memberUuid := ← uuid "member uuid"
    expectedGroupGeneration := ← u64 "expected group generation" }

@[simp] def LeaveConsumerGroup.encode (args : LeaveConsumerGroup) : Except CodecError Bytes := do
  return encodeEnvelope args.env ++ putUuid args.groupUuid ++ putUuid args.memberUuid ++ putU64 args.expectedMemberGeneration

@[simp] def LeaveConsumerGroup.decode : Reader LeaveConsumerGroup := do
  return {
    env := ← decodeEnvelope, groupUuid := ← uuid "group uuid", memberUuid := ← uuid "member uuid"
    expectedMemberGeneration := ← u64 "expected member generation" }

@[simp] def AssignMemberRanges.encode (args : AssignMemberRanges) : Except CodecError Bytes := do
  return encodeEnvelope args.env ++ putUuid args.groupUuid ++ putUuid args.memberUuid
    ++ (← encodeRangeAssignments args.ranges) ++ putU64 args.expectedMemberGeneration

@[simp] def AssignMemberRanges.decode : Reader AssignMemberRanges := do
  return {
    env := ← decodeEnvelope, groupUuid := ← uuid "group uuid", memberUuid := ← uuid "member uuid"
    ranges := ← decodeRangeAssignments, expectedMemberGeneration := ← u64 "expected member generation" }

def AssignMemberRanges.Valid (args : AssignMemberRanges) : Prop := args.ranges.length ≤ MAX_ASSIGNED_RANGES

theorem AssignMemberRanges.decode_encode {args : AssignMemberRanges} (valid : args.Valid) :
    decode.Undoes args.encode args := by
  refine ⟨_, by simp only [encode, encodeRangeAssignments, putBoundedList_eq_ok valid]; rfl, ?_⟩
  simp [decode, decodeRangeAssignments_append valid, -List.append_nil]

theorem AssignMemberRanges.yields_decode : decode.Yields Valid := by
  iterate 3 refine yields_skip fun _ => ?_
  exact yields_bind Reader.yields_boundedList fun _ within => yields_skip fun _ => yields_pure within

@[simp] def CommitGroupCursor.encode (args : CommitGroupCursor) : Except CodecError Bytes := do
  return encodeEnvelope args.env ++ args.cursor.encodeTarget ++ args.cursor.encodeCheckpoint

@[simp] def CommitGroupCursor.decode : Reader CommitGroupCursor := do
  return {
    env := ← decodeEnvelope, cursor := ← decodeCheckpoint (← uuid "group uuid") (← uuid "member uuid")
      (← uuid "topic uuid") (← uuid "range uuid") }

@[simp] def HeartbeatMember.encode (args : HeartbeatMember) : Except CodecError Bytes := do
  return encodeEnvelope args.env ++ putUuid args.groupUuid ++ putUuid args.memberUuid

@[simp] def HeartbeatMember.decode : Reader HeartbeatMember := do
  return {
    env := ← decodeEnvelope, groupUuid := ← uuid "group uuid", memberUuid := ← uuid "member uuid" }

@[simp] def EnsureGroupMemberForRange.encode (args : EnsureGroupMemberForRange) : Except CodecError Bytes := do
  return encodeEnvelope args.env ++ (← putBoundedStr args.name MAX_GROUP_NAME_BYTES "group name")
    ++ putUuid args.groupUuid ++ putUuid args.memberUuid ++ putUuid args.topicUuid ++ putUuid args.rangeUuid
    ++ putUuid args.holderNodeUuid ++ putU64 args.fencingEpoch

@[simp] def EnsureGroupMemberForRange.decode : Reader EnsureGroupMemberForRange := do
  return {
    env := ← decodeEnvelope, name := ← nonemptyStr MAX_GROUP_NAME_BYTES "group name"
    groupUuid := ← uuid "group uuid", memberUuid := ← uuid "member uuid", topicUuid := ← uuid "topic uuid"
    rangeUuid := ← uuid "range uuid", holderNodeUuid := ← uuid "holder node uuid"
    fencingEpoch := ← u64 "fencing epoch" }

def EnsureGroupMemberForRange.Valid (args : EnsureGroupMemberForRange) : Prop :=
  args.name ≠ "" ∧ args.name.utf8ByteSize ≤ MAX_GROUP_NAME_BYTES

theorem EnsureGroupMemberForRange.yields_decode : decode.Yields Valid := by
  refine yields_skip fun _ => yields_bind yields_nonemptyStr fun _ within => ?_
  iterate 6 refine yields_skip fun _ => ?_
  exact yields_pure within

@[simp] def CommitGroupCursorFenced.encode (args : CommitGroupCursorFenced) : Except CodecError Bytes := do
  return encodeEnvelope args.env ++ args.cursor.encodeTarget ++ args.cursor.encodeCheckpoint
    ++ putUuid args.holderNodeUuid ++ putU64 args.fencingEpoch

@[simp] def CommitGroupCursorFenced.decode : Reader CommitGroupCursorFenced := do
  return {
    env := ← decodeEnvelope, cursor := ← decodeCheckpoint (← uuid "group uuid") (← uuid "member uuid")
      (← uuid "topic uuid") (← uuid "range uuid")
    holderNodeUuid := ← uuid "holder node uuid", fencingEpoch := ← u64 "fencing epoch" }

@[simp] def CommitGroupCursorCoordinated.encode (args : CommitGroupCursorCoordinated) : Except CodecError Bytes := do
  return encodeEnvelope args.env ++ args.cursor.encodeTarget ++ putUuid args.coordinatorTopicUuid
    ++ putUuid args.coordinatorRangeUuid ++ args.cursor.encodeCheckpoint ++ putUuid args.holderNodeUuid
    ++ putU64 args.fencingEpoch

@[simp] def CommitGroupCursorCoordinated.decode : Reader CommitGroupCursorCoordinated := do
  let env ← decodeEnvelope
  let groupUuid ← uuid "group uuid"
  let memberUuid ← uuid "member uuid"
  let topicUuid ← uuid "topic uuid"
  let rangeUuid ← uuid "range uuid"
  return {
    env
    coordinatorTopicUuid := ← uuid "coordinator topic uuid"
    coordinatorRangeUuid := ← uuid "coordinator range uuid"
    cursor := ← decodeCheckpoint groupUuid memberUuid topicUuid rangeUuid
    holderNodeUuid := ← uuid "holder node uuid", fencingEpoch := ← u64 "fencing epoch" }

@[simp] def EnsureGroupMemberCoordinated.encode (args : EnsureGroupMemberCoordinated) : Except CodecError Bytes := do
  return encodeEnvelope args.env ++ (← putBoundedStr args.name MAX_GROUP_NAME_BYTES "group name")
    ++ putUuid args.groupUuid ++ putUuid args.memberUuid ++ putUuid args.topicUuid ++ putUuid args.rangeUuid
    ++ putUuid args.coordinatorTopicUuid ++ putUuid args.coordinatorRangeUuid ++ putUuid args.holderNodeUuid
    ++ putU64 args.fencingEpoch

@[simp] def EnsureGroupMemberCoordinated.decode : Reader EnsureGroupMemberCoordinated := do
  return {
    env := ← decodeEnvelope, name := ← nonemptyStr MAX_GROUP_NAME_BYTES "group name"
    groupUuid := ← uuid "group uuid", memberUuid := ← uuid "member uuid", topicUuid := ← uuid "topic uuid"
    rangeUuid := ← uuid "range uuid", coordinatorTopicUuid := ← uuid "coordinator topic uuid"
    coordinatorRangeUuid := ← uuid "coordinator range uuid", holderNodeUuid := ← uuid "holder node uuid"
    fencingEpoch := ← u64 "fencing epoch" }

def EnsureGroupMemberCoordinated.Valid (args : EnsureGroupMemberCoordinated) : Prop :=
  args.name ≠ "" ∧ args.name.utf8ByteSize ≤ MAX_GROUP_NAME_BYTES

theorem EnsureGroupMemberCoordinated.yields_decode : decode.Yields Valid := by
  refine yields_skip fun _ => yields_bind yields_nonemptyStr fun _ within => ?_
  iterate 8 refine yields_skip fun _ => ?_
  exact yields_pure within

@[simp] def ExpireStaleMember.encode (args : ExpireStaleMember) : Except CodecError Bytes := do
  return encodeEnvelope args.env ++ putUuid args.groupUuid ++ putUuid args.memberUuid ++ putU64 args.staleBeforeApplyIndex

@[simp] def ExpireStaleMember.decode : Reader ExpireStaleMember := do
  return {
    env := ← decodeEnvelope, groupUuid := ← uuid "group uuid", memberUuid := ← uuid "member uuid"
    staleBeforeApplyIndex := ← u64 "stale-before apply index" }

@[simp] def SetNodePlacementAttrs.encode (args : SetNodePlacementAttrs) : Except CodecError Bytes := do
  return encodeEnvelope args.env ++ putUuid args.nodeUuid
    ++ (← putBoundedStr args.failureDomain MAX_FAILURE_DOMAIN_BYTES "failure domain")
    ++ putU32 args.placementWeight ++ putU64 args.expectedGeneration

@[simp] def SetNodePlacementAttrs.decode : Reader SetNodePlacementAttrs := do
  let env ← decodeEnvelope
  let nodeUuid ← uuid "node uuid"
  let failureDomain ← boundedStr MAX_FAILURE_DOMAIN_BYTES "failure domain"
  let placementWeight ← u32 "placement weight"
  failIf (placementWeight < MIN_PLACEMENT_WEIGHT) (.InvalidValue "placement weight" "must be >= 1")
  return { env, nodeUuid, failureDomain, placementWeight, expectedGeneration := ← u64 "expected generation" }

def SetNodePlacementAttrs.Valid (args : SetNodePlacementAttrs) : Prop :=
  args.failureDomain.utf8ByteSize ≤ MAX_FAILURE_DOMAIN_BYTES ∧ MIN_PLACEMENT_WEIGHT ≤ args.placementWeight

theorem SetNodePlacementAttrs.decode_encode {args : SetNodePlacementAttrs} (valid : args.Valid) :
    decode.Undoes args.encode args := by
  refine ⟨_, by simp only [encode, putBoundedStr_eq_ok valid.1]; rfl, ?_⟩
  have weighs : ¬ args.placementWeight < MIN_PLACEMENT_WEIGHT := UInt32.not_lt.mpr valid.2
  simp [decode, Reader.boundedStr_append valid.1 (by decide), Parser.run_failIf weighs, -List.append_nil]

theorem SetNodePlacementAttrs.yields_decode : decode.Yields Valid := by
  iterate 2 refine yields_skip fun _ => ?_
  refine yields_bind Reader.yields_boundedStr fun _ fits => yields_skip fun _ => ?_
  refine yields_bind yields_failIf fun _ weighs => yields_skip fun _ => ?_
  exact yields_pure ⟨fits, UInt32.not_lt.mp weighs⟩

def CommitSegmentPlacement.encode (args : CommitSegmentPlacement) : Except CodecError Bytes := do
  return encodeEnvelope args.env ++ putUuid args.topicUuid ++ putUuid args.rangeUuid ++ putUuid args.segmentUuid
    ++ putU8 args.replicationFactor ++ (← encodeUuidList args.replicaNodes MAX_REPLICAS "replica nodes")
    ++ putU64 args.expectedSegmentGeneration ++ encodeOptionalU64 args.expectedPlacementGeneration

def CommitSegmentPlacement.decode : Reader CommitSegmentPlacement := do
  let env ← decodeEnvelope
  let topicUuid ← uuid "topic uuid"
  let rangeUuid ← uuid "range uuid"
  let segmentUuid ← uuid "segment uuid"
  let replicationFactor ← u8 "replication factor"
  failIf (replicationFactor = 0 ∨ replicationFactor.toNat > MAX_REPLICAS)
    (.InvalidValue "replication factor" "must be 1..=MAX_REPLICAS")
  let replicaNodes ← decodeUuidList MAX_REPLICAS "replica nodes"
  failIf (replicaNodes.length ≠ replicationFactor.toNat)
    (.InvalidValue "replica nodes" "length must equal replication_factor")
  return {
    env, topicUuid, rangeUuid, segmentUuid, replicationFactor, replicaNodes
    expectedSegmentGeneration := ← u64 "expected segment generation"
    expectedPlacementGeneration := ← decodeOptionalU64 "expected placement generation" }

def CommitSegmentPlacement.Valid (args : CommitSegmentPlacement) : Prop :=
  args.replicationFactor ≠ 0 ∧ args.replicationFactor.toNat ≤ MAX_REPLICAS
    ∧ args.replicaNodes.length = args.replicationFactor.toNat

theorem CommitSegmentPlacement.decode_encode {args : CommitSegmentPlacement} (valid : args.Valid) :
    decode.Undoes args.encode args := by
  obtain ⟨positive, small, length⟩ := valid
  have fits : args.replicaNodes.length ≤ MAX_REPLICAS := length ▸ small
  refine ⟨_, by simp only [encode, encodeUuidList, putBoundedList_eq_ok fits]; rfl, ?_⟩
  simp [decode, decodeUuidList_append fits (by decide), positive, Nat.not_lt.mpr small, length, -List.append_nil]

theorem CommitSegmentPlacement.yields_decode : decode.Yields Valid := by
  iterate 5 refine yields_skip fun _ => ?_
  refine yields_bind yields_failIf fun _ factor => yields_skip fun _ => ?_
  refine yields_bind yields_failIf fun _ length => yields_skip fun _ => yields_skip fun _ => ?_
  obtain ⟨positive, small⟩ := not_or.mp factor
  exact yields_pure ⟨positive, Nat.not_lt.mp small, not_not.mp length⟩

@[simp] def CommitReplacementProof.encode (args : CommitReplacementProof) : Except CodecError Bytes := do
  return encodeEnvelope args.env ++ putUuid args.topicUuid ++ putUuid args.rangeUuid ++ putUuid args.segmentUuid
    ++ putU64 args.expectedSegmentGeneration ++ putBytes32 args.contentRoot ++ putU64 args.expectedLengthBytes
    ++ putUuid args.sourceNodeUuid ++ putUuid args.destinationNodeUuid ++ putU64 args.fencingEpoch
    ++ putU8 args.verificationMethod.wireTag ++ putUuid args.verifierNodeUuid ++ putU64 args.verifiedTerm

@[simp] def CommitReplacementProof.decode : Reader CommitReplacementProof := do
  return {
    env := ← decodeEnvelope, topicUuid := ← uuid "topic uuid", rangeUuid := ← uuid "range uuid"
    segmentUuid := ← uuid "segment uuid", expectedSegmentGeneration := ← u64 "expected segment generation"
    contentRoot := ← bytes32 "content root", expectedLengthBytes := ← u64 "expected length bytes"
    sourceNodeUuid := ← uuid "source node uuid", destinationNodeUuid := ← uuid "destination node uuid"
    fencingEpoch := ← u64 "fencing epoch"
    verificationMethod := ← VerificationMethod.fromWire (← u8 "verification method")
    verifierNodeUuid := ← uuid "verifier node uuid", verifiedTerm := ← u64 "verified term" }

@[simp] def PlanReplicaRetirement.encode (args : PlanReplicaRetirement) : Except CodecError Bytes := do
  return encodeEnvelope args.env ++ putUuid args.topicUuid ++ putUuid args.rangeUuid ++ putUuid args.segmentUuid
    ++ putUuid args.retiringNodeUuid ++ putU64 args.expectedSegmentGeneration ++ putU64 args.fencingEpoch

@[simp] def PlanReplicaRetirement.decode : Reader PlanReplicaRetirement := do
  return {
    env := ← decodeEnvelope, topicUuid := ← uuid "topic uuid", rangeUuid := ← uuid "range uuid"
    segmentUuid := ← uuid "segment uuid", retiringNodeUuid := ← uuid "retiring node uuid"
    expectedSegmentGeneration := ← u64 "expected segment generation", fencingEpoch := ← u64 "fencing epoch" }

@[simp] def ConfirmReplicaRetired.encode (args : ConfirmReplicaRetired) : Except CodecError Bytes := do
  return encodeEnvelope args.env ++ putUuid args.topicUuid ++ putUuid args.rangeUuid ++ putUuid args.segmentUuid
    ++ putUuid args.retiringNodeUuid ++ putU64 args.expectedSegmentGeneration

@[simp] def ConfirmReplicaRetired.decode : Reader ConfirmReplicaRetired := do
  return {
    env := ← decodeEnvelope, topicUuid := ← uuid "topic uuid", rangeUuid := ← uuid "range uuid"
    segmentUuid := ← uuid "segment uuid", retiringNodeUuid := ← uuid "retiring node uuid"
    expectedSegmentGeneration := ← u64 "expected segment generation" }

@[simp] def ProposeRebalance.encode (args : ProposeRebalance) : Except CodecError Bytes := do
  return encodeEnvelope args.env ++ putUuid args.topicUuid ++ putUuid args.rangeUuid ++ putUuid args.segmentUuid
    ++ putUuid args.fromNodeUuid ++ putUuid args.toNodeUuid ++ putU64 args.expectedPlacementGeneration

@[simp] def ProposeRebalance.decode : Reader ProposeRebalance := do
  return {
    env := ← decodeEnvelope, topicUuid := ← uuid "topic uuid", rangeUuid := ← uuid "range uuid"
    segmentUuid := ← uuid "segment uuid", fromNodeUuid := ← uuid "rebalance source node uuid"
    toNodeUuid := ← uuid "rebalance destination node uuid"
    expectedPlacementGeneration := ← u64 "expected placement generation" }

@[simp] def CancelRebalance.encode (args : CancelRebalance) : Except CodecError Bytes := do
  return encodeEnvelope args.env ++ putUuid args.topicUuid ++ putUuid args.rangeUuid ++ putUuid args.segmentUuid
    ++ putU64 args.expectedPlacementGeneration

@[simp] def CancelRebalance.decode : Reader CancelRebalance := do
  return {
    env := ← decodeEnvelope, topicUuid := ← uuid "topic uuid", rangeUuid := ← uuid "range uuid"
    segmentUuid := ← uuid "segment uuid", expectedPlacementGeneration := ← u64 "expected placement generation" }

def CommitTierEvidence.encode (args : CommitTierEvidence) : Except CodecError Bytes := do
  return encodeEnvelope args.env ++ putUuid args.topicUuid ++ putUuid args.rangeUuid ++ putUuid args.segmentUuid
    ++ putU64 args.expectedSegmentGeneration ++ putBytes32 args.contentRoot ++ putU64 args.byteLength
    ++ (← putBoundedStr args.backendId MAX_TIER_BACKEND_ID_BYTES "backend id")
    ++ (← putBoundedStr args.objectUri MAX_TIER_OBJECT_URI_BYTES "object uri")
    ++ (← putOptionalStr args.manifestVersionId MAX_TIER_VERSION_ID_BYTES "manifest version id")
    ++ putBytes32 args.manifestCoreDigest ++ putU8 args.verificationMethod.wireTag
    ++ putUuid args.verifierNodeUuid ++ putU64 args.fencingEpoch ++ putU64 args.verifiedTerm
    ++ (← putTrailingStr args.objectVersionId MAX_TIER_VERSION_ID_BYTES "object version id")

def CommitTierEvidence.decode : Reader CommitTierEvidence := do
  let env ← decodeEnvelope
  let topicUuid ← uuid "topic uuid"
  let rangeUuid ← uuid "range uuid"
  let segmentUuid ← uuid "segment uuid"
  let expectedSegmentGeneration ← u64 "expected segment generation"
  let contentRoot ← bytes32 "content root"
  let byteLength ← u64 "byte length"
  failIf (byteLength = 0) (.InvalidValue "byte length" "must be > 0")
  return {
    env, topicUuid, rangeUuid, segmentUuid, expectedSegmentGeneration, contentRoot, byteLength
    backendId := ← nonemptyStr MAX_TIER_BACKEND_ID_BYTES "backend id"
    objectUri := ← nonemptyStr MAX_TIER_OBJECT_URI_BYTES "object uri"
    manifestVersionId := ← Reader.optional "manifest version presence"
      (boundedStr MAX_TIER_VERSION_ID_BYTES "manifest version id")
    manifestCoreDigest := ← bytes32 "manifest core digest"
    verificationMethod := ← VerificationMethod.fromWire (← u8 "verification method")
    verifierNodeUuid := ← uuid "verifier node uuid", fencingEpoch := ← u64 "fencing epoch"
    verifiedTerm := ← u64 "verified term"
    objectVersionId := ← Reader.trailingStr "object version presence" MAX_TIER_VERSION_ID_BYTES
      "object version id" }

def CommitTierEvidence.Valid (args : CommitTierEvidence) : Prop :=
  args.byteLength ≠ 0 ∧ (args.backendId ≠ "" ∧ args.backendId.utf8ByteSize ≤ MAX_TIER_BACKEND_ID_BYTES)
    ∧ (args.objectUri ≠ "" ∧ args.objectUri.utf8ByteSize ≤ MAX_TIER_OBJECT_URI_BYTES)
    ∧ (∀ text, args.manifestVersionId = some text → text.utf8ByteSize ≤ MAX_TIER_VERSION_ID_BYTES)
    ∧ ∀ text, args.objectVersionId = some text → text.utf8ByteSize ≤ MAX_TIER_VERSION_ID_BYTES

theorem CommitTierEvidence.decode_encode {args : CommitTierEvidence} (valid : args.Valid) :
    decode.Undoes args.encode args := by
  obtain ⟨positive, ⟨backend, backendFits⟩, ⟨uri, uriFits⟩, manifest, version⟩ := valid
  obtain ⟨trailing, written, -, reads⟩ :=
    Reader.trailingStr_reads version (by decide) "object version presence" "object version id" "object version id"
  refine ⟨_, by simp only [encode, putBoundedStr_eq_ok backendFits, putBoundedStr_eq_ok uriFits,
    putOptionalStr_eq_ok manifest, written]; rfl, ?_⟩
  simp [decode, positive, nonemptyStr_append backend backendFits (by decide),
    nonemptyStr_append uri uriFits (by decide), Reader.optionalStr_append manifest (by decide), reads]

theorem CommitTierEvidence.yields_decode : decode.Yields Valid := by
  iterate 6 refine yields_skip fun _ => ?_
  refine yields_skip fun _ => yields_bind yields_failIf fun _ positive => ?_
  refine yields_bind yields_nonemptyStr fun _ backend => ?_
  refine yields_bind yields_nonemptyStr fun _ uri => ?_
  refine yields_bind (Reader.yields_optional Reader.yields_boundedStr) fun _ manifest => ?_
  iterate 6 refine yields_skip fun _ => ?_
  refine yields_bind Reader.yields_trailingStr fun _ version => ?_
  exact yields_pure ⟨positive, backend, uri, manifest, version⟩

@[simp] def SetTopicRetentionPolicy.encode (args : SetTopicRetentionPolicy) : Except CodecError Bytes := do
  return encodeEnvelope args.env ++ putUuid args.topicUuid ++ putFlag args.unarchivedDeletionAllowed
    ++ encodeOptionalU64 args.expectedGeneration

@[simp] def SetTopicRetentionPolicy.decode : Reader SetTopicRetentionPolicy := do
  return {
    env := ← decodeEnvelope, topicUuid := ← uuid "topic uuid"
    unarchivedDeletionAllowed := ← flag "unarchived deletion allowed"
    expectedGeneration := ← decodeOptionalU64 "expected generation" }

@[simp] def PlanRetention.encode (args : PlanRetention) : Except CodecError Bytes := do
  return encodeEnvelope args.env ++ putUuid args.topicUuid ++ putUuid args.rangeUuid ++ putUuid args.segmentUuid
    ++ putU64 args.expectedSegmentGeneration ++ putU64 args.fencingEpoch

@[simp] def PlanRetention.decode : Reader PlanRetention := do
  return {
    env := ← decodeEnvelope, topicUuid := ← uuid "topic uuid", rangeUuid := ← uuid "range uuid"
    segmentUuid := ← uuid "segment uuid", expectedSegmentGeneration := ← u64 "expected segment generation"
    fencingEpoch := ← u64 "fencing epoch" }

@[simp] def ConfirmRetentionExpired.encode (args : ConfirmRetentionExpired) : Except CodecError Bytes := do
  return encodeEnvelope args.env ++ putUuid args.topicUuid ++ putUuid args.rangeUuid ++ putUuid args.segmentUuid
    ++ putU64 args.expectedSegmentGeneration

@[simp] def ConfirmRetentionExpired.decode : Reader ConfirmRetentionExpired := do
  return {
    env := ← decodeEnvelope, topicUuid := ← uuid "topic uuid", rangeUuid := ← uuid "range uuid"
    segmentUuid := ← uuid "segment uuid", expectedSegmentGeneration := ← u64 "expected segment generation" }

@[simp] def CancelRetention.encode (args : CancelRetention) : Except CodecError Bytes := do
  return encodeEnvelope args.env ++ putUuid args.topicUuid ++ putUuid args.rangeUuid ++ putUuid args.segmentUuid
    ++ putU64 args.expectedSegmentGeneration

@[simp] def CancelRetention.decode : Reader CancelRetention := do
  return {
    env := ← decodeEnvelope, topicUuid := ← uuid "topic uuid", rangeUuid := ← uuid "range uuid"
    segmentUuid := ← uuid "segment uuid", expectedSegmentGeneration := ← u64 "expected segment generation" }

@[simp] def SetFeatureLevel.encode (args : SetFeatureLevel) : Except CodecError Bytes := do
  return encodeEnvelope args.env ++ putU32 args.featureLevel

@[simp] def SetFeatureLevel.decode : Reader SetFeatureLevel := do
  return {
    env := ← decodeEnvelope, featureLevel := ← u32 "feature level" }

@[simp] def SetRangeReplicaSet.encode (args : SetRangeReplicaSet) : Except CodecError Bytes := do
  return encodeEnvelope args.env ++ putUuid args.topicUuid ++ putUuid args.rangeUuid
    ++ (← encodeUuidList args.members MAX_REPLICAS "replica set members") ++ putU64 args.expectedGeneration

@[simp] def SetRangeReplicaSet.decode : Reader SetRangeReplicaSet := do
  return {
    env := ← decodeEnvelope, topicUuid := ← uuid "topic uuid", rangeUuid := ← uuid "range uuid"
    members := ← decodeUuidList MAX_REPLICAS "replica set members"
    expectedGeneration := ← u64 "expected replica set generation" }

def SetRangeReplicaSet.Valid (args : SetRangeReplicaSet) : Prop := args.members.length ≤ MAX_REPLICAS

theorem SetRangeReplicaSet.decode_encode {args : SetRangeReplicaSet} (valid : args.Valid) :
    decode.Undoes args.encode args := by
  refine ⟨_, by simp only [encode, encodeUuidList, putBoundedList_eq_ok valid]; rfl, ?_⟩
  simp [decode, decodeUuidList_append valid (by decide), -List.append_nil]

theorem SetRangeReplicaSet.yields_decode : decode.Yields Valid := by
  iterate 3 refine yields_skip fun _ => ?_
  exact yields_bind Reader.yields_boundedList fun _ within => yields_skip fun _ => yields_pure within

end Command

/-! ## Commands -/

namespace MetadataCommand

def kind : MetadataCommand → UInt16
  | RegisterNode _ => 1
  | SetNodeState _ => 2
  | CreateTopic _ => 3
  | GrantRangeLease _ => 4
  | ReleaseRangeLease _ => 5
  | RegisterSealedSegment _ => 6
  | MarkSegmentVerified _ => 7
  | PutKeyRecord _ => 8
  | CreateConsumerGroup _ => 9
  | JoinConsumerGroup _ => 10
  | LeaveConsumerGroup _ => 11
  | AssignMemberRanges _ => 12
  | CommitGroupCursor _ => 13
  | HeartbeatMember _ => 14
  | ExpireStaleMember _ => 15
  | SetNodePlacementAttrs _ => 16
  | CommitSegmentPlacement _ => 17
  | CommitReplacementProof _ => 18
  | PlanReplicaRetirement _ => 19
  | ConfirmReplicaRetired _ => 20
  | ProposeRebalance _ => 21
  | CancelRebalance _ => 22
  | CommitTierEvidence _ => 23
  | SetTopicRetentionPolicy _ => 24
  | PlanRetention _ => 25
  | ConfirmRetentionExpired _ => 26
  | CancelRetention _ => 27
  | AcquireRangeLease _ => 28
  | RenewRangeLease _ => 29
  | ReportPromotionOutcome _ => 30
  | CommitGroupCursorFenced _ => 31
  | EnsureGroupMemberForRange _ => 32
  | CommitGroupCursorCoordinated _ => 33
  | EnsureGroupMemberCoordinated _ => 34
  | SplitRange _ => 35
  | SetFeatureLevel _ => 36
  | SetRangeReplicaSet _ => 37

def encodeArgs : MetadataCommand → Except CodecError Bytes
  | RegisterNode args | SetNodeState args | CreateTopic args | GrantRangeLease args | ReleaseRangeLease args
  | AcquireRangeLease args | RenewRangeLease args | ReportPromotionOutcome args | SplitRange args
  | RegisterSealedSegment args | MarkSegmentVerified args | PutKeyRecord args | CreateConsumerGroup args
  | JoinConsumerGroup args | LeaveConsumerGroup args | AssignMemberRanges args | CommitGroupCursor args
  | HeartbeatMember args | EnsureGroupMemberForRange args | CommitGroupCursorFenced args
  | CommitGroupCursorCoordinated args | EnsureGroupMemberCoordinated args | ExpireStaleMember args
  | SetNodePlacementAttrs args | CommitSegmentPlacement args | CommitReplacementProof args | PlanReplicaRetirement args
  | ConfirmReplicaRetired args | ProposeRebalance args | CancelRebalance args | CommitTierEvidence args
  | SetTopicRetentionPolicy args | PlanRetention args | ConfirmRetentionExpired args | CancelRetention args
  | SetFeatureLevel args | SetRangeReplicaSet args => args.encode

def encode (command : MetadataCommand) : Except CodecError Bytes := do
  return putU16 command.kind ++ (← command.encodeArgs)

def decodeArgs (kind : UInt16) : Reader MetadataCommand :=
  match kind with
  | 1 => RegisterNode <$> RegisterNode.decode
  | 2 => SetNodeState <$> SetNodeState.decode
  | 3 => CreateTopic <$> CreateTopic.decode
  | 4 => GrantRangeLease <$> GrantRangeLease.decode
  | 5 => ReleaseRangeLease <$> ReleaseRangeLease.decode
  | 6 => RegisterSealedSegment <$> RegisterSealedSegment.decode
  | 7 => MarkSegmentVerified <$> MarkSegmentVerified.decode
  | 8 => PutKeyRecord <$> PutKeyRecord.decode
  | 9 => CreateConsumerGroup <$> CreateConsumerGroup.decode
  | 10 => JoinConsumerGroup <$> JoinConsumerGroup.decode
  | 11 => LeaveConsumerGroup <$> LeaveConsumerGroup.decode
  | 12 => AssignMemberRanges <$> AssignMemberRanges.decode
  | 13 => CommitGroupCursor <$> CommitGroupCursor.decode
  | 14 => HeartbeatMember <$> HeartbeatMember.decode
  | 15 => ExpireStaleMember <$> ExpireStaleMember.decode
  | 16 => SetNodePlacementAttrs <$> SetNodePlacementAttrs.decode
  | 17 => CommitSegmentPlacement <$> CommitSegmentPlacement.decode
  | 18 => CommitReplacementProof <$> CommitReplacementProof.decode
  | 19 => PlanReplicaRetirement <$> PlanReplicaRetirement.decode
  | 20 => ConfirmReplicaRetired <$> ConfirmReplicaRetired.decode
  | 21 => ProposeRebalance <$> ProposeRebalance.decode
  | 22 => CancelRebalance <$> CancelRebalance.decode
  | 23 => CommitTierEvidence <$> CommitTierEvidence.decode
  | 24 => SetTopicRetentionPolicy <$> SetTopicRetentionPolicy.decode
  | 25 => PlanRetention <$> PlanRetention.decode
  | 26 => ConfirmRetentionExpired <$> ConfirmRetentionExpired.decode
  | 27 => CancelRetention <$> CancelRetention.decode
  | 28 => AcquireRangeLease <$> AcquireRangeLease.decode
  | 29 => RenewRangeLease <$> RenewRangeLease.decode
  | 30 => ReportPromotionOutcome <$> ReportPromotionOutcome.decode
  | 31 => CommitGroupCursorFenced <$> CommitGroupCursorFenced.decode
  | 32 => EnsureGroupMemberForRange <$> EnsureGroupMemberForRange.decode
  | 33 => CommitGroupCursorCoordinated <$> CommitGroupCursorCoordinated.decode
  | 34 => EnsureGroupMemberCoordinated <$> EnsureGroupMemberCoordinated.decode
  | 35 => SplitRange <$> SplitRange.decode
  | 36 => SetFeatureLevel <$> SetFeatureLevel.decode
  | 37 => SetRangeReplicaSet <$> SetRangeReplicaSet.decode
  | other => fail (.UnknownTag "command kind" other.toUInt32)

def decode (bytes : Bytes) : Except CodecError MetadataCommand :=
  let reader : Reader MetadataCommand := do decodeArgs (← u16 "command kind")
  reader.decodeAll bytes

def Valid : MetadataCommand → Prop
  | RegisterNode args | CreateTopic args | CreateConsumerGroup args | AssignMemberRanges args
  | SetNodePlacementAttrs args | CommitSegmentPlacement args | CommitTierEvidence args | ReportPromotionOutcome args
  | EnsureGroupMemberForRange args | EnsureGroupMemberCoordinated args | SetRangeReplicaSet args => args.Valid
  | _ => True

theorem decodeArgs_encodeArgs (valid : command.Valid) : (decodeArgs command.kind).Undoes command.encodeArgs command := by
  cases command
  case AssignMemberRanges args => exact (AssignMemberRanges.decode_encode valid).map _
  case SetNodePlacementAttrs args => exact (SetNodePlacementAttrs.decode_encode valid).map _
  case CommitSegmentPlacement args => exact (decode_encode valid).map _
  case CommitTierEvidence args => exact (CommitTierEvidence.decode_encode valid).map _
  case ReportPromotionOutcome args => exact (ReportPromotionOutcome.decode_encode valid).map _
  case SetRangeReplicaSet args => exact (SetRangeReplicaSet.decode_encode valid).map _
  case RegisterNode args | CreateTopic args | CreateConsumerGroup args | EnsureGroupMemberForRange args
      | EnsureGroupMemberCoordinated args =>
    obtain ⟨nonempty, fits⟩ := valid
    refine Reader.Undoes.map ⟨_, by simp only [encodeArgs, Command.RegisterNode.encode, Command.CreateTopic.encode,
      Command.CreateConsumerGroup.encode, Command.EnsureGroupMemberForRange.encode,
      EnsureGroupMemberCoordinated.encode, putBoundedStr_eq_ok fits]; rfl, ?_⟩ _
    simp [nonemptyStr_append nonempty fits (by decide), -List.append_nil]
  -- The other kinds have no bound that a value could break.
  all_goals
    refine Reader.Undoes.map ⟨_, rfl, ?_⟩ _
    simp [CommitCursorArgs.encodeTarget, -List.append_nil]

theorem decode_encode (valid : command.Valid) : ∃ bytes, command.encode = .ok bytes ∧ decode bytes = .ok command := by
  obtain ⟨args, written, reads⟩ := decodeArgs_encodeArgs valid
  rw [List.append_nil] at reads
  refine ⟨_, by simp only [encode, written]; rfl, Reader.decodeAll_of_run ?_⟩
  simp [reads]

/-! ## What is accepted is well formed -/

theorem yields_decodeArgs (kind : UInt16) : (decodeArgs kind).Yields Valid := by
  unfold decodeArgs
  split
  case h_1 => exact yields_map RegisterNode.yields_decode
  case h_3 => exact yields_map CreateTopic.yields_decode
  case h_9 => exact yields_map CreateConsumerGroup.yields_decode
  case h_12 => exact yields_map AssignMemberRanges.yields_decode
  case h_16 => exact yields_map SetNodePlacementAttrs.yields_decode
  case h_17 => exact yields_map yields_decode
  case h_23 => exact yields_map CommitTierEvidence.yields_decode
  case h_30 => exact yields_map ReportPromotionOutcome.yields_decode
  case h_32 => exact yields_map EnsureGroupMemberForRange.yields_decode
  case h_34 => exact yields_map EnsureGroupMemberCoordinated.yields_decode
  case h_37 => exact yields_map SetRangeReplicaSet.yields_decode
  case h_38 => exact Parser.yields_fail
  all_goals exact yields_map Parser.yields_true

theorem valid_of_decode {bytes : Bytes} (decoded : decode bytes = .ok command) : command.Valid :=
  Reader.of_decodeAll (yields_skip fun kind => yields_decodeArgs kind) decoded

end MetadataCommand

end VtopEngine.Meta
