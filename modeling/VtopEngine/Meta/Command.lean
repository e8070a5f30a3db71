import VtopEngine.Meta.Keys

/-! # Metadata commands, responses and errors

The vocabulary of the replicated log (`command.rs`): the thirty-seven command
kinds with all their fields, the responses `apply` answers with, and the
deterministic rejections.  The codecs are in `VtopEngine.Meta.CommandCodec`.
-/

namespace VtopEngine.Meta

open Lib

def MAX_NODE_ADDR_BYTES : Nat := 256

def MAX_ERROR_DETAIL_BYTES : Nat := 256

def MAX_ASSIGNED_RANGES : Nat := 16

def MAX_TIER_BACKEND_ID_BYTES : Nat := 64

def MAX_TIER_OBJECT_URI_BYTES : Nat := 512

def MAX_TIER_VERSION_ID_BYTES : Nat := 128

def MAX_TRANSITION_QUORUM : Nat := 32

def MAX_REPLICAS : Nat := 8

/-- A placement may hold one replica more while a rebalance is in flight. -/
def MAX_TRANSIENT_REPLICAS : Nat := MAX_REPLICAS + 1

def MAX_FAILURE_DOMAIN_BYTES : Nat := 64

def DEFAULT_PLACEMENT_WEIGHT : UInt32 := 100

def MIN_PLACEMENT_WEIGHT : UInt32 := 1

def BASELINE_FEATURE_LEVEL : UInt32 := 3

def SUPPORTED_FEATURE_LEVEL : UInt32 := 5

def NOT_LEASEHOLDER : String := "the commit is not the range's leaseholder's at the current fencing epoch"

def NOT_ASSIGNED : String := "member is not assigned the cursor topic/range"

/-! ## Parts of commands -/

structure CommandEnvelope where
  requestId : Uuid
  issuedAtMs : Int64
  deriving DecidableEq, Repr

inductive NodeState
  | Active | Draining | Dead
  deriving DecidableEq, Repr

inductive VerificationMethod
  | AuthenticatedContentRoot
  deriving DecidableEq, Repr

structure RangeAssignment where
  (topicUuid rangeUuid : Uuid)
  deriving DecidableEq, Repr

/-- One fenced replica's answer at promotion. -/
structure QuorumAnswer where
  nodeUuid : Uuid
  offset : UInt64
  deriving DecidableEq, Repr

inductive PromotionRefusal
  | QuorumUnavailable | LeaderBehind | CandidateBehindVoters | BelowPublished
  deriving DecidableEq, Repr

inductive PromotionOutcome
  | Established (boundaryOffset sealedPrefixEnd : Option UInt64) (quorum : List QuorumAnswer)
      (votes required : UInt32)
  | Refused (reason : PromotionRefusal)
  deriving DecidableEq, Repr

/-- The fields the three cursor commits share. -/
structure CommitCursorArgs where
  (groupUuid memberUuid topicUuid rangeUuid : Uuid)
  (topicEpoch rangeGeneration : UInt64)
  segmentUuid : Uuid
  segmentGeneration : UInt64
  segmentRoot : Bytes32
  (recordOffset recordIndex : UInt64)
  lineageTransitionId : Option Uuid
  expectedCheckpointGeneration : Option UInt64
  deriving DecidableEq, Repr

/-! ## Commands -/

namespace Command

/-- First registration (`none`) or a CAS re-registration of an existing node. -/
structure RegisterNode where
  env : CommandEnvelope
  nodeUuid : Uuid
  addr : String
  expectedGeneration : Option UInt64
  deriving DecidableEq

structure SetNodeState where
  env : CommandEnvelope
  nodeUuid : Uuid
  state : NodeState
  expectedGeneration : UInt64
  deriving DecidableEq

structure CreateTopic where
  env : CommandEnvelope
  name : String
  (topicUuid rootRangeUuid : Uuid)
  deriving DecidableEq

/-- The administrative grant: it carries no expiry. -/
structure GrantRangeLease where
  env : CommandEnvelope
  (topicUuid rangeUuid holderNodeUuid : Uuid)
  expectedRangeGeneration : UInt64
  deriving DecidableEq

structure ReleaseRangeLease where
  env : CommandEnvelope
  (topicUuid rangeUuid : Uuid)
  expectedFencingEpoch : UInt64
  deriving DecidableEq

/-- The election path: it respects an unexpired lease held by someone else. -/
structure AcquireRangeLease where
  env : CommandEnvelope
  (topicUuid rangeUuid holderNodeUuid : Uuid)
  (expectedRangeGeneration leaseDurationMs : UInt64)
  deriving DecidableEq

/-- Extend the current holder's deadline without minting an epoch. -/
structure RenewRangeLease where
  env : CommandEnvelope
  (topicUuid rangeUuid holderNodeUuid : Uuid)
  (expectedFencingEpoch leaseDurationMs : UInt64)
  deriving DecidableEq

/-- The holder of `fencingEpoch` records what its grant became. -/
structure ReportPromotionOutcome where
  env : CommandEnvelope
  (topicUuid rangeUuid holderNodeUuid : Uuid)
  fencingEpoch : UInt64
  outcome : PromotionOutcome
  deriving DecidableEq

/-- Seal the parent at `barrierOffset` and halve its key interval between two children. -/
structure SplitRange where
  env : CommandEnvelope
  (topicUuid parentRangeUuid leftRangeUuid rightRangeUuid transitionId : Uuid)
  (barrierOffset expectedRangeGeneration : UInt64)
  holderNodeUuid : Uuid
  fencingEpoch : UInt64
  deriving DecidableEq

structure RegisterSealedSegment where
  env : CommandEnvelope
  (topicUuid rangeUuid segmentUuid : Uuid)
  (segmentGeneration baseOffset nextOffset : UInt64)
  contentRoot : Bytes32
  (sealedByEpoch expectedRangeGeneration : UInt64)
  deriving DecidableEq

structure MarkSegmentVerified where
  env : CommandEnvelope
  (topicUuid rangeUuid segmentUuid : Uuid)
  contentRoot : Bytes32
  expectedGeneration : UInt64
  deriving DecidableEq

structure PutKeyRecord where
  env : CommandEnvelope
  keyUuid : Uuid
  scheme : UInt16
  publicMaterialDigest : Bytes32
  deriving DecidableEq

structure CreateConsumerGroup where
  env : CommandEnvelope
  name : String
  groupUuid : Uuid
  deriving DecidableEq

structure JoinConsumerGroup where
  env : CommandEnvelope
  (groupUuid memberUuid : Uuid)
  expectedGroupGeneration : UInt64
  deriving DecidableEq

structure LeaveConsumerGroup where
  env : CommandEnvelope
  (groupUuid memberUuid : Uuid)
  expectedMemberGeneration : UInt64
  deriving DecidableEq

structure AssignMemberRanges where
  env : CommandEnvelope
  (groupUuid memberUuid : Uuid)
  ranges : List RangeAssignment
  expectedMemberGeneration : UInt64
  deriving DecidableEq

/-- Commit a cursor.  A nil segment is an unpinned cursor. -/
structure CommitGroupCursor where
  env : CommandEnvelope
  cursor : CommitCursorArgs
  deriving DecidableEq

structure HeartbeatMember where
  env : CommandEnvelope
  (groupUuid memberUuid : Uuid)
  deriving DecidableEq

/-- The group exists, the member is in it and holds the range, in one fenced step. -/
structure EnsureGroupMemberForRange where
  env : CommandEnvelope
  name : String
  (groupUuid memberUuid topicUuid rangeUuid holderNodeUuid : Uuid)
  fencingEpoch : UInt64
  deriving DecidableEq

/-- The same commit, from the leaseholder of the cursor's range. -/
structure CommitGroupCursorFenced where
  env : CommandEnvelope
  cursor : CommitCursorArgs
  holderNodeUuid : Uuid
  fencingEpoch : UInt64
  deriving DecidableEq

/-- The same commit, fenced by the lease of the coordinator's own range. -/
structure CommitGroupCursorCoordinated where
  env : CommandEnvelope
  cursor : CommitCursorArgs
  (coordinatorTopicUuid coordinatorRangeUuid holderNodeUuid : Uuid)
  fencingEpoch : UInt64
  deriving DecidableEq

/-- The same membership, fenced by the lease of the coordinator's own range. -/
structure EnsureGroupMemberCoordinated where
  env : CommandEnvelope
  name : String
  (groupUuid memberUuid topicUuid rangeUuid coordinatorTopicUuid coordinatorRangeUuid holderNodeUuid : Uuid)
  fencingEpoch : UInt64
  deriving DecidableEq

/-- Remove a member last heard of before `staleBeforeApplyIndex`. -/
structure ExpireStaleMember where
  env : CommandEnvelope
  (groupUuid memberUuid : Uuid)
  staleBeforeApplyIndex : UInt64
  deriving DecidableEq

structure SetNodePlacementAttrs where
  env : CommandEnvelope
  nodeUuid : Uuid
  failureDomain : String
  placementWeight : UInt32
  expectedGeneration : UInt64
  deriving DecidableEq

/-- Commit the deterministic replica selection; a CAS update if a placement exists. -/
structure CommitSegmentPlacement where
  env : CommandEnvelope
  (topicUuid rangeUuid segmentUuid : Uuid)
  replicationFactor : UInt8
  replicaNodes : List Uuid
  expectedSegmentGeneration : UInt64
  expectedPlacementGeneration : Option UInt64
  deriving DecidableEq

/-- Authenticated evidence that the destination holds the sealed bytes. -/
structure CommitReplacementProof where
  env : CommandEnvelope
  (topicUuid rangeUuid segmentUuid : Uuid)
  expectedSegmentGeneration : UInt64
  contentRoot : Bytes32
  expectedLengthBytes : UInt64
  (sourceNodeUuid destinationNodeUuid : Uuid)
  fencingEpoch : UInt64
  verificationMethod : VerificationMethod
  verifierNodeUuid : Uuid
  verifiedTerm : UInt64
  deriving DecidableEq

structure PlanReplicaRetirement where
  env : CommandEnvelope
  (topicUuid rangeUuid segmentUuid retiringNodeUuid : Uuid)
  (expectedSegmentGeneration fencingEpoch : UInt64)
  deriving DecidableEq

structure ConfirmReplicaRetired where
  env : CommandEnvelope
  (topicUuid rangeUuid segmentUuid retiringNodeUuid : Uuid)
  expectedSegmentGeneration : UInt64
  deriving DecidableEq

/-- Open the single in-flight move: the destination joins before the source leaves. -/
structure ProposeRebalance where
  env : CommandEnvelope
  (topicUuid rangeUuid segmentUuid fromNodeUuid toNodeUuid : Uuid)
  expectedPlacementGeneration : UInt64
  deriving DecidableEq

structure CancelRebalance where
  env : CommandEnvelope
  (topicUuid rangeUuid segmentUuid : Uuid)
  expectedPlacementGeneration : UInt64
  deriving DecidableEq

/-- Verified cold-tier copy evidence. -/
structure CommitTierEvidence where
  env : CommandEnvelope
  (topicUuid rangeUuid segmentUuid : Uuid)
  expectedSegmentGeneration : UInt64
  contentRoot : Bytes32
  byteLength : UInt64
  (backendId objectUri : String)
  (objectVersionId manifestVersionId : Option String)
  manifestCoreDigest : Bytes32
  verificationMethod : VerificationMethod
  verifierNodeUuid : Uuid
  (fencingEpoch verifiedTerm : UInt64)
  deriving DecidableEq

structure SetTopicRetentionPolicy where
  env : CommandEnvelope
  topicUuid : Uuid
  unarchivedDeletionAllowed : Bool
  expectedGeneration : Option UInt64
  deriving DecidableEq

/-- Authorise whole-segment deletion. -/
structure PlanRetention where
  env : CommandEnvelope
  (topicUuid rangeUuid segmentUuid : Uuid)
  (expectedSegmentGeneration fencingEpoch : UInt64)
  deriving DecidableEq

structure ConfirmRetentionExpired where
  env : CommandEnvelope
  (topicUuid rangeUuid segmentUuid : Uuid)
  expectedSegmentGeneration : UInt64
  deriving DecidableEq

/-- Always rejected; kept for wire compatibility. -/
structure CancelRetention where
  env : CommandEnvelope
  (topicUuid rangeUuid segmentUuid : Uuid)
  expectedSegmentGeneration : UInt64
  deriving DecidableEq

structure SetFeatureLevel where
  env : CommandEnvelope
  featureLevel : UInt32
  deriving DecidableEq

/-- Record the replica set a range's quorum is counted over. -/
structure SetRangeReplicaSet where
  env : CommandEnvelope
  (topicUuid rangeUuid : Uuid)
  members : List Uuid
  expectedGeneration : UInt64
  deriving DecidableEq

end Command

inductive MetadataCommand
  | RegisterNode (args : Command.RegisterNode)
  | SetNodeState (args : Command.SetNodeState)
  | CreateTopic (args : Command.CreateTopic)
  | GrantRangeLease (args : Command.GrantRangeLease)
  | ReleaseRangeLease (args : Command.ReleaseRangeLease)
  | AcquireRangeLease (args : Command.AcquireRangeLease)
  | RenewRangeLease (args : Command.RenewRangeLease)
  | ReportPromotionOutcome (args : Command.ReportPromotionOutcome)
  | SplitRange (args : Command.SplitRange)
  | RegisterSealedSegment (args : Command.RegisterSealedSegment)
  | MarkSegmentVerified (args : Command.MarkSegmentVerified)
  | PutKeyRecord (args : Command.PutKeyRecord)
  | CreateConsumerGroup (args : Command.CreateConsumerGroup)
  | JoinConsumerGroup (args : Command.JoinConsumerGroup)
  | LeaveConsumerGroup (args : Command.LeaveConsumerGroup)
  | AssignMemberRanges (args : Command.AssignMemberRanges)
  | CommitGroupCursor (args : Command.CommitGroupCursor)
  | HeartbeatMember (args : Command.HeartbeatMember)
  | EnsureGroupMemberForRange (args : Command.EnsureGroupMemberForRange)
  | CommitGroupCursorFenced (args : Command.CommitGroupCursorFenced)
  | CommitGroupCursorCoordinated (args : Command.CommitGroupCursorCoordinated)
  | EnsureGroupMemberCoordinated (args : Command.EnsureGroupMemberCoordinated)
  | ExpireStaleMember (args : Command.ExpireStaleMember)
  | SetNodePlacementAttrs (args : Command.SetNodePlacementAttrs)
  | CommitSegmentPlacement (args : Command.CommitSegmentPlacement)
  | CommitReplacementProof (args : Command.CommitReplacementProof)
  | PlanReplicaRetirement (args : Command.PlanReplicaRetirement)
  | ConfirmReplicaRetired (args : Command.ConfirmReplicaRetired)
  | ProposeRebalance (args : Command.ProposeRebalance)
  | CancelRebalance (args : Command.CancelRebalance)
  | CommitTierEvidence (args : Command.CommitTierEvidence)
  | SetTopicRetentionPolicy (args : Command.SetTopicRetentionPolicy)
  | PlanRetention (args : Command.PlanRetention)
  | ConfirmRetentionExpired (args : Command.ConfirmRetentionExpired)
  | CancelRetention (args : Command.CancelRetention)
  | SetFeatureLevel (args : Command.SetFeatureLevel)
  | SetRangeReplicaSet (args : Command.SetRangeReplicaSet)
  deriving DecidableEq

namespace MetadataCommand

def envelope : MetadataCommand → CommandEnvelope
  | RegisterNode args | SetNodeState args | CreateTopic args | GrantRangeLease args | ReleaseRangeLease args
  | AcquireRangeLease args | RenewRangeLease args | ReportPromotionOutcome args | SplitRange args
  | RegisterSealedSegment args | MarkSegmentVerified args | PutKeyRecord args | CreateConsumerGroup args
  | JoinConsumerGroup args | LeaveConsumerGroup args | AssignMemberRanges args | CommitGroupCursor args
  | HeartbeatMember args | EnsureGroupMemberForRange args | CommitGroupCursorFenced args
  | CommitGroupCursorCoordinated args | EnsureGroupMemberCoordinated args | ExpireStaleMember args
  | SetNodePlacementAttrs args | CommitSegmentPlacement args | CommitReplacementProof args | PlanReplicaRetirement args
  | ConfirmReplicaRetired args | ProposeRebalance args | CancelRebalance args | CommitTierEvidence args
  | SetTopicRetentionPolicy args | PlanRetention args | ConfirmRetentionExpired args | CancelRetention args
  | SetFeatureLevel args | SetRangeReplicaSet args => args.env

end MetadataCommand

/-! ## Errors and responses -/

/-- The text of an error, within the wire bound: an error always encodes. -/
abbrev Detail := { text : String // text.utf8ByteSize ≤ MAX_ERROR_DETAIL_BYTES }

inductive MetadataError
  | GenerationMismatch (expected actual : UInt64)
  | EpochMismatch (expected actual : UInt64)
  | LineageMismatch (expected actual : UInt64)
  | AlreadyExists
  | NotFound
  | InvalidTransition (detail : Detail)
  | Limit (detail : Detail)
  deriving DecidableEq, Repr

/-- The longest run of whole characters that fits in `budget` bytes. -/
def takeBytes : Nat → List Char → List Char
  | _, [] => []
  | budget, char :: rest =>
    if char.utf8Size ≤ budget then char :: takeBytes (budget - char.utf8Size) rest else []

theorem utf8ByteSize_takeBytes (budget : Nat) (chars : List Char) :
    (String.ofList (takeBytes budget chars)).utf8ByteSize ≤ budget := by
  fun_induction takeBytes budget chars with
  | case1 | case3 => exact Nat.zero_le _
  | case2 budget char rest fits ih =>
    rw [String.ofList_cons, String.utf8ByteSize_append, String.utf8ByteSize_singleton]
    omega

/-- Truncate to the wire bound, at the last character boundary at or below it. -/
def boundDetail (detail : String) : Detail :=
  if tooLong : detail.utf8ByteSize > MAX_ERROR_DETAIL_BYTES then
    ⟨String.ofList (takeBytes MAX_ERROR_DETAIL_BYTES detail.toList), utf8ByteSize_takeBytes ..⟩
  else
    ⟨detail, Nat.not_lt.mp tooLong⟩

def MetadataError.invalidTransition (detail : String) : MetadataError := .InvalidTransition (boundDetail detail)

def MetadataError.limit (detail : String) : MetadataError := .Limit (boundDetail detail)

/-- What `apply` answers and what the dedup table stores. -/
inductive MetadataResponse
  | Ack (generation : UInt64)
  | TopicCreated (topicUuid : Uuid) (topicEpoch : UInt64) (rootRangeUuid : Uuid)
  | LeaseGranted (fencingEpoch : UInt64)
  | GroupCreated (groupUuid : Uuid) (generation : UInt64)
  | MemberJoined (memberGeneration groupGeneration : UInt64)
  | CursorCommitted (checkpointGeneration : UInt64)
  | TransitionRecorded (fencingEpoch : UInt64)
  | Rejected (error : MetadataError)
  deriving DecidableEq, Repr

/-! ## Texts -/

/-- The hyphenated form a UUID is displayed in. -/
def hyphenated (value : Uuid) : String :=
  let hex (start count : Nat) : String :=
    String.ofList <| (List.range count).map fun index => Nat.digitChar (value.toNat / 16 ^ (31 - (start + index)) % 16)
  hex 0 8 ++ "-" ++ hex 8 4 ++ "-" ++ hex 12 4 ++ "-" ++ hex 16 4 ++ "-" ++ hex 20 12

end VtopEngine.Meta
