import VtopEngine.Meta.CommandParts
import VtopEngine.Meta.Records

/-! # Record codec

`MetaValue::encode` and `MetaValue::decode` (`state.rs`): a tag byte and the fields
of the kind in order.  Three kinds have older tags that are still read: nodes
without placement attributes, members without a heartbeat, and ranges, whose tag
depends on how much lineage they carry.

`MetaValue.Storable` is what a record must satisfy to be stored: it then encodes
within the snapshot's bound and is read back (`MetaValue.decode_encode`).
-/

namespace VtopEngine.Meta

open Lib Parser RangeReplicaSetRecord Reader RangeRecord
open Reader (boundedStr boundedStr_append bytes32 decodeAll flag i64 nonemptyStr optional u16 u32 u64 u8 uuid uuid_append)

def MAX_SNAPSHOT_VALUE_BYTES : Nat := 1024

/-- Written whole within `width` bytes, and read back. -/
def Reader.Stores {α : Type} (reader : Reader α) (written : Except CodecError Bytes) (width : Nat) (value : α) : Prop :=
  ∃ bytes, written = .ok bytes ∧ bytes.length ≤ width ∧ reader.run (bytes ++ []) = .ok (value, [])

theorem Reader.Stores.map {α β : Type} {reader : Reader α} {value}
    (stores : reader.Stores written width value) (change : α → β) :
    (change <$> reader).Stores written width (change value) := by
  obtain ⟨bytes, wrote, fits, reads⟩ := stores
  exact ⟨bytes, wrote, fits, by rw [StateT.run_map, reads]; rfl⟩

/-! ## Nodes, topics and groups -/

def NodeRecord.encode (node : NodeRecord) : Except CodecError Bytes := do
  return (← putBoundedStr node.addr MAX_NODE_ADDR_BYTES "node address") ++ putU8 node.state.wireTag
    ++ putU64 node.generation ++ (← putBoundedStr node.failureDomain MAX_FAILURE_DOMAIN_BYTES "failure domain")
    ++ putU32 node.placementWeight

/-- Pre-placement node records omit the attributes; the defaults stand in. -/
def NodeRecord.decodeLegacy : Reader NodeRecord := do
  return {
    addr := ← boundedStr MAX_NODE_ADDR_BYTES "node address", state := ← NodeState.fromWire (← u8 "node state")
    generation := ← u64 "node generation"
    failureDomain := ""
    placementWeight := DEFAULT_PLACEMENT_WEIGHT }

def NodeRecord.decode : Reader NodeRecord := do
  return {
    addr := ← boundedStr MAX_NODE_ADDR_BYTES "node address", state := ← NodeState.fromWire (← u8 "node state")
    generation := ← u64 "node generation"
    failureDomain := ← boundedStr MAX_FAILURE_DOMAIN_BYTES "failure domain"
    placementWeight := ← u32 "placement weight" }

def NodeRecord.Storable (node : NodeRecord) : Prop :=
  node.addr.utf8ByteSize ≤ MAX_NODE_ADDR_BYTES ∧ node.failureDomain.utf8ByteSize ≤ MAX_FAILURE_DOMAIN_BYTES

theorem NodeRecord.stores {node : NodeRecord} (storable : node.Storable) : decode.Stores node.encode 337 node := by
  obtain ⟨addr, domain⟩ := storable
  refine ⟨_, by simp only [encode, putBoundedStr_eq_ok addr, putBoundedStr_eq_ok domain]; rfl, ?_, ?_⟩
  · simp only [MAX_NODE_ADDR_BYTES, MAX_FAILURE_DOMAIN_BYTES] at addr domain
    simp only [List.length_append, length_putStr, length_putU8, length_putU64, length_putU32]
    omega
  · simp [decode, boundedStr_append addr (by decide), boundedStr_append domain (by decide), -List.append_nil]

def TopicRecord.encode (topic : TopicRecord) : Except CodecError Bytes := do
  return (← putBoundedStr topic.name MAX_TOPIC_NAME_BYTES "topic name") ++ putU64 topic.topicEpoch ++ putU64 topic.generation

def TopicRecord.decode : Reader TopicRecord := do
  return {
    name := ← boundedStr MAX_TOPIC_NAME_BYTES "topic name", topicEpoch := ← u64 "topic epoch"
    generation := ← u64 "topic generation" }

theorem TopicRecord.stores {topic : TopicRecord} (fits : topic.name.utf8ByteSize ≤ MAX_TOPIC_NAME_BYTES) :
    decode.Stores topic.encode 267 topic := by
  refine ⟨_, by simp only [encode, putBoundedStr_eq_ok fits]; rfl, ?_, ?_⟩
  · simp only [MAX_TOPIC_NAME_BYTES] at fits
    simp only [List.length_append, length_putStr, length_putU64]
    omega
  · simp [decode, boundedStr_append fits (by decide), -List.append_nil]

@[simp] def TopicNameRecord.encode (name : TopicNameRecord) : Bytes := putUuid name.topicUuid ++ putU64 name.latestEpoch

@[simp] def TopicNameRecord.decode : Reader TopicNameRecord := do
  return { topicUuid := ← uuid "topic uuid", latestEpoch := ← u64 "latest topic epoch" }

def ConsumerGroupRecord.encode (group : ConsumerGroupRecord) : Except CodecError Bytes := do
  return (← putBoundedStr group.name MAX_GROUP_NAME_BYTES "group name") ++ putU64 group.generation

def ConsumerGroupRecord.decode : Reader ConsumerGroupRecord := do
  return {
    name := ← boundedStr MAX_GROUP_NAME_BYTES "group name", generation := ← u64 "group generation" }

theorem ConsumerGroupRecord.stores {group : ConsumerGroupRecord}
    (fits : group.name.utf8ByteSize ≤ MAX_GROUP_NAME_BYTES) : decode.Stores group.encode 259 group := by
  refine ⟨_, by simp only [encode, putBoundedStr_eq_ok fits]; rfl, ?_, ?_⟩
  · simp only [MAX_GROUP_NAME_BYTES, MAX_TOPIC_NAME_BYTES] at fits
    simp only [List.length_append, length_putStr, length_putU64]
    omega
  · simp [decode, boundedStr_append fits (by decide), -List.append_nil]

def GroupMemberRecord.encode (member : GroupMemberRecord) : Except CodecError Bytes := do
  return putU64 member.generation ++ putU64 member.lastHeartbeatApplyIndex ++ (← encodeRangeAssignments member.assigned)

/-- Pre-heartbeat member records omit liveness: never heard of. -/
def GroupMemberRecord.decodeLegacy : Reader GroupMemberRecord := do
  return {
    generation := ← u64 "member generation"
    lastHeartbeatApplyIndex := 0
    assigned := ← decodeRangeAssignments }

def GroupMemberRecord.decode : Reader GroupMemberRecord := do
  return {
    generation := ← u64 "member generation"
    lastHeartbeatApplyIndex := ← u64 "member last heartbeat apply index", assigned := ← decodeRangeAssignments }

theorem GroupMemberRecord.stores {member : GroupMemberRecord} (fits : member.assigned.length ≤ MAX_ASSIGNED_RANGES) :
    decode.Stores member.encode 530 member := by
  refine ⟨_, by simp only [encode, encodeRangeAssignments, putBoundedList_eq_ok fits]; rfl, ?_, ?_⟩
  · have listed : (putList RangeAssignment.encode member.assigned).length = 2 + 32 * member.assigned.length :=
      length_putList (fun assignment => by simp [RangeAssignment.encode]) _
    simp only [MAX_ASSIGNED_RANGES] at fits
    simp only [List.length_append, length_putU64, listed]
    omega
  · simp [decode, decodeRangeAssignments_append fits, -List.append_nil]

/-! ## Ranges -/

namespace RangeRecord

/-- A child, or a sealed parent. -/
def lineageBearing (range : RangeRecord) : Bool := !range.parents.isEmpty || range.sealedAt.isSome

/-- A range without lineage keeps the legacy tag, one with a lineage generation the
    second, and one with parents or a seal the third. -/
def tag (range : RangeRecord) : UInt8 :=
  if range.lineageBearing then 20
  else if range.lineageGeneration = 0 then 4
  else 16

def encodeSealedAt : Option SealedParent → Bytes
  | none => putU8 0
  | some sealing => putU8 1 ++ putU64 sealing.barrierOffset ++ putUuid sealing.transitionId

/-- Presence byte 1 is the lease without a deadline, 2 the lease with one. -/
def encodeLease : Option LeaseRecord → Bytes
  | none => putU8 0
  | some lease =>
    (match lease.expiresAtMs with
      | none => putU8 1
      | some _ => putU8 2)
    ++ putUuid lease.holderNodeUuid ++ putU64 lease.fencingEpoch ++ putU64 lease.grantedApplyIndex
    ++ (match lease.expiresAtMs with
      | none => []
      | some expiresAtMs => putI64 expiresAtMs)

def encodeLineage (range : RangeRecord) : Bytes :=
  if range.lineageBearing then
    putU64 range.lineageGeneration ++ putU8 (UInt8.ofNat range.parents.length) ++ range.parents.flatMap putUuid
      ++ encodeSealedAt range.sealedAt
  else if range.lineageGeneration ≠ 0 then
    putU64 range.lineageGeneration
  else
    []

def encode (range : RangeRecord) : Bytes :=
  putU64 range.generation ++ putU64 range.keyPrefix ++ putU8 range.keyPrefixBits ++ putU64 range.fencingEpoch
    ++ range.encodeLineage ++ encodeLease range.lease

def decodeSealedAt : Reader (Option SealedParent) := do
  match ← u8 "seal presence" with
  | 0 => return none
  | 1 => return some { barrierOffset := ← u64 "barrier offset", transitionId := ← uuid "transition id" }
  | _ => fail (.InvalidValue "range seal presence" "seal presence must be 0 or 1")

def decodeLease : Reader (Option LeaseRecord) := do
  match ← u8 "lease presence" with
  | 0 => return none
  | 1 =>
    return some {
      holderNodeUuid := ← uuid "lease holder uuid"
      fencingEpoch := ← u64 "lease fencing epoch"
      grantedApplyIndex := ← u64 "lease apply index"
      expiresAtMs := none }
  | 2 =>
    return some {
      holderNodeUuid := ← uuid "lease holder uuid"
      fencingEpoch := ← u64 "lease fencing epoch"
      grantedApplyIndex := ← u64 "lease apply index"
      expiresAtMs := some (← i64 "lease expiry ms") }
  | _ => fail (.InvalidValue "lease presence" "lease presence byte must be 0, 1, or 2")

/-- The second tag exists for transitioned ranges only: a zero there would encode
    as the legacy tag again. -/
def decodeLineageGeneration (tag : UInt8) : Reader UInt64 := do
  if tag = 16 ∨ tag = 20 then
    let lineageGeneration ← u64 "lineage generation"
    failIf (lineageGeneration = 0 ∧ tag = 16)
      (.InvalidValue "range lineage generation" "v2 range records must carry a nonzero lineage generation")
    return lineageGeneration
  else
    return 0

def decodeParents (tag : UInt8) : Reader (List Uuid × Option SealedParent) := do
  if tag = 20 then
    let parentCount ← u8 "parent count"
    failIf (parentCount > 2) (.InvalidValue "range parents" "a range has at most two parents (a merge)")
    let parents ← times (uuid "parent range uuid") parentCount.toNat
    let sealedAt ← decodeSealedAt
    failIf (parents = [] ∧ sealedAt = none) (.InvalidValue "range lineage state"
      "v3 range records must carry parents or a seal; without either the record re-encodes as a legacy tag")
    return (parents, sealedAt)
  else
    return ([], none)

def decode (tag : UInt8) : Reader RangeRecord := do
  let generation ← u64 "range generation"
  let keyPrefix ← u64 "key prefix"
  let keyPrefixBits ← u8 "key prefix bits"
  let fencingEpoch ← u64 "fencing epoch"
  let lineageGeneration ← decodeLineageGeneration tag
  let (parents, sealedAt) ← decodeParents tag
  let lease ← decodeLease
  return { generation, keyPrefix, keyPrefixBits, fencingEpoch, lineageGeneration, parents, sealedAt, lease }

theorem decodeSealedAt_append (sealedAt rest) :
    decodeSealedAt.run (encodeSealedAt sealedAt ++ rest) = .ok (sealedAt, rest) := by
  cases sealedAt <;> simp [decodeSealedAt, encodeSealedAt]

theorem decodeLease_append (lease rest) : decodeLease.run (encodeLease lease ++ rest) = .ok (lease, rest) := by
  cases lease with
  | none => simp [decodeLease, encodeLease]
  | some lease =>
    obtain ⟨holder, epoch, granted, expires⟩ := lease
    cases expires <;> simp [decodeLease, encodeLease]

theorem length_encodeSealedAt (sealedAt) : (encodeSealedAt sealedAt).length ≤ 25 := by
  cases sealedAt <;> simp [encodeSealedAt]

theorem length_encodeLease (lease) : (encodeLease lease).length ≤ 41 := by
  cases lease with
  | none => simp [encodeLease]
  | some lease =>
    obtain ⟨holder, epoch, granted, expires⟩ := lease
    cases expires <;> simp [encodeLease]

variable {range : RangeRecord}

theorem lineageBearing_eq_false (plain : range.lineageBearing = false) : range.parents = [] ∧ range.sealedAt = none := by
  simpa [lineageBearing] using plain

theorem decodeParents_append (bearing : range.lineageBearing = true) (parents : range.parents.length ≤ 2) (rest) :
    (decodeParents 20).run (putU8 (UInt8.ofNat range.parents.length)
      ++ (range.parents.flatMap putUuid ++ (encodeSealedAt range.sealedAt ++ rest)))
      = .ok ((range.parents, range.sealedAt), rest) := by
  have count : (UInt8.ofNat range.parents.length).toNat = range.parents.length := by
    simp only [UInt8.toNat_ofNat']
    omega
  have few : ¬ UInt8.ofNat range.parents.length > 2 := by
    simp only [GT.gt, UInt8.lt_iff_toNat_lt, count]
    exact Nat.not_lt.mpr parents
  have bears : ¬ (range.parents = [] ∧ range.sealedAt = none) := by
    rintro ⟨orphan, unsealed⟩
    simp [lineageBearing, orphan, unsealed] at bearing
  have listed (rest : Bytes) :
      (times (uuid "parent range uuid") range.parents.length).run (range.parents.flatMap putUuid ++ rest)
        = .ok (range.parents, rest) :=
    times_append fun parent _ _ => uuid_append parent
  simp [decodeParents, run_failIf few, count, listed, decodeSealedAt_append, run_failIf bears]

section

variable (parents : range.parents.length ≤ 2)

include parents

/-- The three tags split the ranges by the lineage they carry, and each reader reads
    back what was written under its tag. -/
theorem reads (rest) : (decode range.tag).run (range.encode ++ rest) = .ok (range, rest) := by
  cases bearing : range.lineageBearing with
  | true =>
    have tagged : range.tag = 20 := by simp [tag, bearing]
    rw [tagged]
    simp [decode, encode, encodeLineage, bearing, decodeLineageGeneration, decodeParents_append bearing parents,
      decodeLease_append]
  | false =>
    obtain ⟨orphan, unsealed⟩ := lineageBearing_eq_false bearing
    by_cases initial : range.lineageGeneration = 0
    · have tagged : range.tag = 4 := by simp [tag, bearing, initial]
      rw [tagged]
      simp only [decode, encode, encodeLineage, bearing, initial]
      simp [decodeLineageGeneration, decodeParents, decodeLease_append, ← orphan, ← unsealed, ← initial]
    · have tagged : range.tag = 16 := by simp [tag, bearing, initial]
      have passes : ¬ (range.lineageGeneration = 0 ∧ (16 : UInt8) = 16) := by simp [initial]
      rw [tagged]
      simp [decode, encode, encodeLineage, bearing, initial, decodeLineageGeneration, run_failIf passes,
        decodeParents, decodeLease_append, ← orphan, ← unsealed]

theorem length_encode : range.encode.length ≤ 132 := by
  have sealedAt := length_encodeSealedAt range.sealedAt
  have lease := length_encodeLease range.lease
  have listed := length_flatMap_fixed length_putUuid range.parents
  have lineage : range.encodeLineage.length ≤ 66 := by
    unfold encodeLineage
    split
    · simp only [List.length_append, length_putU64, length_putU8, listed]
      omega
    · split <;> simp
  simp only [encode, List.length_append, length_putU64, length_putU8]
  omega

theorem stores : (decode range.tag).Stores (pure range.encode) 132 range := ⟨_, rfl, length_encode parents, reads parents []⟩

end

end RangeRecord

/-! ## Segments, keys and cursors -/

def SegmentState.wireTag : SegmentState → UInt8
  | SealedUnverified => 1
  | Verified => 2
  | Repairing => 3
  | RetirePlanned => 4
  | Retired => 5
  | Quarantined => 6
  | RetentionPlanned => 7
  | RetentionExpired => 8

def SegmentState.fromWire (tag : UInt8) : Reader SegmentState :=
  match tag with
  | 1 => return SealedUnverified
  | 2 => return Verified
  | 3 => return Repairing
  | 4 => return RetirePlanned
  | 5 => return Retired
  | 6 => return Quarantined
  | 7 => return RetentionPlanned
  | 8 => return RetentionExpired
  | other => fail (.UnknownTag "segment state" other.toUInt32)

@[simp] theorem SegmentState.fromWire_wireTag (state : SegmentState) (rest) :
    (fromWire state.wireTag).run rest = .ok (state, rest) := by
  cases state <;> rfl

@[simp] def SegmentRecord.encode (segment : SegmentRecord) : Bytes :=
  putU64 segment.segmentGeneration ++ putU64 segment.baseOffset ++ putU64 segment.nextOffset
    ++ putBytes32 segment.contentRoot ++ putU8 segment.state.wireTag ++ putU64 segment.sealedByEpoch

@[simp] def SegmentRecord.decode : Reader SegmentRecord := do
  return {
    segmentGeneration := ← u64 "segment generation", baseOffset := ← u64 "base offset"
    nextOffset := ← u64 "next offset", contentRoot := ← bytes32 "content root"
    state := ← SegmentState.fromWire (← u8 "segment state"), sealedByEpoch := ← u64 "sealed-by epoch" }

def KeyState.wireTag : KeyState → UInt8
  | Active => 1

def KeyState.fromWire (tag : UInt8) : Reader KeyState :=
  match tag with
  | 1 => return Active
  | other => fail (.UnknownTag "key state" other.toUInt32)

@[simp] theorem KeyState.fromWire_wireTag (state : KeyState) (rest) :
    (fromWire state.wireTag).run rest = .ok (state, rest) := by
  cases state
  rfl

@[simp] def KeyRecord.encode (key : KeyRecord) : Bytes :=
  putU16 key.scheme ++ putBytes32 key.publicMaterialDigest ++ putU8 key.state.wireTag

@[simp] def KeyRecord.decode : Reader KeyRecord := do
  return {
    scheme := ← u16 "key scheme", publicMaterialDigest := ← bytes32 "public material digest"
    state := ← KeyState.fromWire (← u8 "key state") }

def CursorCheckpointRecord.encode (cursor : CursorCheckpointRecord) : Bytes :=
  putU64 cursor.topicEpoch ++ putU64 cursor.rangeGeneration ++ putUuid cursor.segmentUuid
    ++ putU64 cursor.segmentGeneration ++ putBytes32 cursor.segmentRoot ++ putU64 cursor.recordOffset
    ++ putU64 cursor.recordIndex ++ putOptional putUuid cursor.lineageTransitionId
    ++ putU64 cursor.checkpointGeneration ++ putUuid cursor.committedByMember

def CursorCheckpointRecord.decode : Reader CursorCheckpointRecord := do
  return {
    topicEpoch := ← u64 "topic epoch", rangeGeneration := ← u64 "range generation"
    segmentUuid := ← uuid "segment uuid", segmentGeneration := ← u64 "segment generation"
    segmentRoot := ← bytes32 "segment root", recordOffset := ← u64 "record offset"
    recordIndex := ← u64 "record index"
    lineageTransitionId := ← optional "lineage transition presence" (uuid "lineage transition id")
    checkpointGeneration := ← u64 "checkpoint generation", committedByMember := ← uuid "committed-by member" }

theorem CursorCheckpointRecord.stores (cursor : CursorCheckpointRecord) : decode.Stores (pure cursor.encode) 129 cursor := by
  have lineage := length_putOptional_le (fun value => Nat.le_of_eq (length_putUuid value)) cursor.lineageTransitionId
  refine ⟨_, rfl, ?_, by simp [decode, encode, -List.append_nil]⟩
  simp only [encode, List.length_append, length_putU64, length_putUuid, length_putBytes32]
  omega

/-! ## Placements and moves -/

/-- `encode_replica_nodes`: room for the one replica more that a rebalance holds. -/
def encodeReplicaNodes (nodes : List Uuid) : Except CodecError Bytes :=
  putBoundedList putUuid nodes MAX_TRANSIENT_REPLICAS "replica nodes"

def decodeReplicaNodes : Reader (List Uuid) :=
  Reader.boundedList "replica node count" MAX_TRANSIENT_REPLICAS "replica nodes" (uuid "replica node uuid")

theorem decodeReplicaNodes_append {nodes : List Uuid} (fits : nodes.length ≤ MAX_TRANSIENT_REPLICAS) (rest) :
    decodeReplicaNodes.run (putList putUuid nodes ++ rest) = .ok (nodes, rest) :=
  boundedList_append fits (by decide) (fun _ _ _ => uuid_append _) ..

def SegmentPlacementRecord.encode (placement : SegmentPlacementRecord) : Except CodecError Bytes := do
  return putU64 placement.generation ++ putU8 placement.declaredReplicationFactor
    ++ putU64 placement.committedApplyIndex ++ (← encodeReplicaNodes placement.replicaNodes)

def SegmentPlacementRecord.decode : Reader SegmentPlacementRecord := do
  return {
    generation := ← u64 "placement generation", declaredReplicationFactor := ← u8 "replication factor"
    committedApplyIndex := ← u64 "placement apply index", replicaNodes := ← decodeReplicaNodes }

theorem SegmentPlacementRecord.stores {placement : SegmentPlacementRecord}
    (fits : placement.replicaNodes.length ≤ MAX_TRANSIENT_REPLICAS) :
    decode.Stores placement.encode 163 placement := by
  refine ⟨_, by simp only [encode, encodeReplicaNodes, putBoundedList_eq_ok fits]; rfl, ?_, ?_⟩
  · have listed := length_putList length_putUuid placement.replicaNodes
    simp only [MAX_TRANSIENT_REPLICAS, MAX_REPLICAS] at fits
    simp only [List.length_append, length_putU64, length_putU8, listed]
    omega
  · simp [decode, decodeReplicaNodes_append fits, -List.append_nil]

@[simp] def ReplacementProofRecord.encode (proof : ReplacementProofRecord) : Bytes :=
  putU64 proof.generation ++ putU64 proof.segmentGeneration ++ putBytes32 proof.contentRoot
    ++ putU64 proof.expectedLengthBytes ++ putUuid proof.sourceNodeUuid ++ putUuid proof.destinationNodeUuid
    ++ putU64 proof.fencingEpoch ++ putU8 proof.verificationMethod.wireTag ++ putUuid proof.verifierNodeUuid
    ++ putU64 proof.verifiedAtApplyIndex ++ putU64 proof.verifiedTerm

@[simp] def ReplacementProofRecord.decode : Reader ReplacementProofRecord := do
  return {
    generation := ← u64 "proof generation", segmentGeneration := ← u64 "proof segment generation"
    contentRoot := ← bytes32 "proof content root", expectedLengthBytes := ← u64 "proof expected length"
    sourceNodeUuid := ← uuid "proof source node", destinationNodeUuid := ← uuid "proof destination node"
    fencingEpoch := ← u64 "proof fencing epoch"
    verificationMethod := ← VerificationMethod.fromWire (← u8 "proof verification method")
    verifierNodeUuid := ← uuid "proof verifier node", verifiedAtApplyIndex := ← u64 "proof verified apply index"
    verifiedTerm := ← u64 "proof verified term" }

@[simp] def RebalanceIntentRecord.encode (intent : RebalanceIntentRecord) : Bytes :=
  putUuid intent.fromNodeUuid ++ putUuid intent.toNodeUuid ++ putU64 intent.proposedAtApplyIndex
    ++ putU64 intent.placementGenerationAtProposal

@[simp] def RebalanceIntentRecord.decode : Reader RebalanceIntentRecord := do
  return {
    fromNodeUuid := ← uuid "rebalance source node", toNodeUuid := ← uuid "rebalance destination node"
    proposedAtApplyIndex := ← u64 "rebalance proposed apply index"
    placementGenerationAtProposal := ← u64 "rebalance placement generation at proposal" }

/-! ## Tier copies -/

namespace TierCopyRecord

def encode (tier : TierCopyRecord) : Except CodecError Bytes := do
  return putU64 tier.generation ++ putU64 tier.segmentGeneration ++ putBytes32 tier.contentRoot
    ++ putU64 tier.byteLength ++ (← putBoundedStr tier.backendId MAX_TIER_BACKEND_ID_BYTES "tier backend id")
    ++ (← putBoundedStr tier.objectUri MAX_TIER_OBJECT_URI_BYTES "tier object uri")
    ++ (← putOptionalStr tier.manifestVersionId MAX_TIER_VERSION_ID_BYTES "tier manifest version id")
    ++ putBytes32 tier.manifestCoreDigest ++ putU8 tier.verificationMethod.wireTag ++ putUuid tier.verifierNodeUuid
    ++ putU64 tier.verifiedAtApplyIndex ++ putU64 tier.verifiedTerm ++ putU64 tier.fencingEpoch
    ++ (← putTrailingStr tier.objectVersionId MAX_TIER_VERSION_ID_BYTES "tier object version id")

def decode : Reader TierCopyRecord := do
  let generation ← u64 "tier generation"
  let segmentGeneration ← u64 "tier segment generation"
  let contentRoot ← bytes32 "tier content root"
  let byteLength ← u64 "tier byte length"
  failIf (byteLength = 0) (.InvalidValue "tier byte length" "must be > 0")
  return {
    generation, segmentGeneration, contentRoot, byteLength
    backendId := ← nonemptyStr MAX_TIER_BACKEND_ID_BYTES "tier backend id"
    objectUri := ← nonemptyStr MAX_TIER_OBJECT_URI_BYTES "tier object uri"
    manifestVersionId := ← optional "tier manifest version presence"
      (boundedStr MAX_TIER_VERSION_ID_BYTES "tier manifest version id")
    manifestCoreDigest := ← bytes32 "tier manifest core digest"
    verificationMethod := ← VerificationMethod.fromWire (← u8 "tier verification method")
    verifierNodeUuid := ← uuid "tier verifier node", verifiedAtApplyIndex := ← u64 "tier verified apply index"
    verifiedTerm := ← u64 "tier verified term", fencingEpoch := ← u64 "tier fencing epoch"
    objectVersionId := ← Reader.trailingStr "tier object version presence" MAX_TIER_VERSION_ID_BYTES
      "tier object version id" }

structure Storable (tier : TierCopyRecord) : Prop where
  positive : tier.byteLength ≠ 0
  backend : tier.backendId ≠ "" ∧ tier.backendId.utf8ByteSize ≤ MAX_TIER_BACKEND_ID_BYTES
  uri : tier.objectUri ≠ "" ∧ tier.objectUri.utf8ByteSize ≤ MAX_TIER_OBJECT_URI_BYTES
  manifest : ∀ text, tier.manifestVersionId = some text → text.utf8ByteSize ≤ MAX_TIER_VERSION_ID_BYTES
  version : ∀ text, tier.objectVersionId = some text → text.utf8ByteSize ≤ MAX_TIER_VERSION_ID_BYTES

theorem length_putOptional_putStr (fits : ∀ text, value = some text → text.utf8ByteSize ≤ maximum) :
    (putOptional putStr value).length ≤ 3 + maximum := by
  cases value with
  | none => simp only [putOptional, length_putU8]; omega
  | some text =>
    have := fits text rfl
    simp only [putOptional, List.length_append, length_putU8, length_putStr]
    omega

/-- The largest record: its three texts alone may take over eight hundred bytes. -/
theorem stores {tier : TierCopyRecord} (storable : tier.Storable) : decode.Stores tier.encode 971 tier := by
  obtain ⟨positive, ⟨backend, backendFits⟩, ⟨uri, uriFits⟩, manifest, version⟩ := storable
  obtain ⟨trailing, written, trailingFits, reads⟩ := trailingStr_reads version (by decide)
    "tier object version presence" "tier object version id" "tier object version id"
  refine ⟨_, by simp only [encode, putBoundedStr_eq_ok backendFits, putBoundedStr_eq_ok uriFits,
    putOptionalStr_eq_ok manifest, written]; rfl, ?_, ?_⟩
  · have manifestFits := length_putOptional_putStr manifest
    simp only [MAX_TIER_BACKEND_ID_BYTES, MAX_TIER_OBJECT_URI_BYTES, MAX_TIER_VERSION_ID_BYTES] at *
    simp only [List.length_append, length_putU64, length_putBytes32, length_putStr, length_putU8, length_putUuid]
    omega
  · simp [decode, positive, nonemptyStr_append backend backendFits (by decide),
      nonemptyStr_append uri uriFits (by decide), optionalStr_append manifest (by decide), reads]

end TierCopyRecord

/-! ## Transitions, policies and replica sets -/

@[simp] def LineageTransitionRecord.encode (transition : LineageTransitionRecord) : Bytes :=
  putUuid transition.parentRangeUuid ++ putU64 transition.barrierOffset ++ putUuid transition.leftRangeUuid
    ++ putUuid transition.rightRangeUuid ++ putU64 transition.sealedByEpoch ++ putI64 transition.issuedAtMs

@[simp] def LineageTransitionRecord.decode : Reader LineageTransitionRecord := do
  return {
    parentRangeUuid := ← uuid "parent range uuid", barrierOffset := ← u64 "barrier offset"
    leftRangeUuid := ← uuid "left range uuid", rightRangeUuid := ← uuid "right range uuid"
    sealedByEpoch := ← u64 "sealed-by epoch", issuedAtMs := ← i64 "issued-at ms" }

def GrantKind.wireTag : GrantKind → UInt8
  | Election => 1
  | Administrative => 2

def GrantKind.fromWire (tag : UInt8) : Reader GrantKind :=
  match tag with
  | 1 => return Election
  | 2 => return Administrative
  | other => fail (.UnknownTag "transition grant kind" other.toUInt32)

@[simp] theorem GrantKind.fromWire_wireTag (grant : GrantKind) (rest) :
    (fromWire grant.wireTag).run rest = .ok (grant, rest) := by
  cases grant <;> rfl

namespace TransitionOutcome

def encode : TransitionOutcome → Except CodecError Bytes
  | Pending => return putU8 0
  | Reported outcome reportedAtMs reportedApplyIndex => do
    return putU8 1 ++ (← encodePromotionOutcome outcome) ++ putI64 reportedAtMs ++ putU64 reportedApplyIndex

def decode : Reader TransitionOutcome := do
  if ← flag "transition outcome presence" then
    return Reported (← decodePromotionOutcome) (← i64 "transition reported at") (← u64 "transition reported apply index")
  else
    return Pending

def Bounded : TransitionOutcome → Prop
  | Pending => True
  | Reported outcome _ _ => outcome.Bounded

theorem stores {outcome : TransitionOutcome} (bounded : outcome.Bounded) : decode.Stores outcome.encode 814 outcome := by
  cases outcome with
  | Pending => exact ⟨_, rfl, by simp, rfl⟩
  | Reported outcome reportedAtMs reportedApplyIndex =>
    obtain ⟨bytes, written, fits, reads⟩ := PromotionOutcome.Bounded.reads bounded
    have present (rest : Bytes) : (flag "transition outcome presence").run (putU8 1 ++ rest) = .ok (true, rest) :=
      flag_append true
    refine ⟨_, by simp only [encode, written]; rfl, ?_, ?_⟩
    · simp only [List.length_append, length_putU8, length_putI64, length_putU64]
      omega
    · simp [decode, present, reads, -List.append_nil]

end TransitionOutcome

def RangeTransitionRecord.encode (transition : RangeTransitionRecord) : Except CodecError Bytes := do
  return putU64 transition.epochFrom ++ putU64 transition.epochTo ++ putOptional putUuid transition.holderFrom
    ++ putUuid transition.holderTo ++ putU8 transition.grant.wireTag ++ putI64 transition.grantedAtMs
    ++ putU64 transition.grantedApplyIndex ++ (← transition.outcome.encode)

def RangeTransitionRecord.decode : Reader RangeTransitionRecord := do
  return {
    epochFrom := ← u64 "transition epoch from", epochTo := ← u64 "transition epoch to"
    holderFrom := ← optional "transition holder-from presence" (uuid "transition holder from")
    holderTo := ← uuid "transition holder to", grant := ← GrantKind.fromWire (← u8 "transition grant kind")
    grantedAtMs := ← i64 "transition granted at", grantedApplyIndex := ← u64 "transition granted apply index"
    outcome := ← TransitionOutcome.decode }

theorem RangeTransitionRecord.stores {transition : RangeTransitionRecord} (bounded : transition.outcome.Bounded) :
    decode.Stores transition.encode 880 transition := by
  obtain ⟨bytes, written, fits, reads⟩ := TransitionOutcome.stores bounded
  have holder := length_putOptional_le (fun value => Nat.le_of_eq (length_putUuid value)) transition.holderFrom
  refine ⟨_, by simp only [encode, written]; rfl, ?_, ?_⟩
  · simp only [List.length_append, length_putU8, length_putI64, length_putU64, length_putUuid]
    omega
  · simp [decode, reads, -List.append_nil]

namespace RangeReplicaSetRecord

/-- The members `decode` refuses: none, too many, or not strictly ascending. -/
def improper (members : List Uuid) : Prop :=
  members = [] ∨ members.length > MAX_REPLICAS ∨ ∃ pair ∈ members.zip members.tail, pair.1 ≥ pair.2

instance (members : List Uuid) : Decidable (improper members) :=
  inferInstanceAs (Decidable (_ ∨ _ ∨ _))

def encode (set : RangeReplicaSetRecord) : Except CodecError Bytes := do
  return putU64 set.generation ++ putU64 set.recordedAtEpoch ++ (← encodeReplicaNodes set.members)

def decode : Reader RangeReplicaSetRecord := do
  let generation ← u64 "replica set generation"
  let recordedAtEpoch ← u64 "replica set recorded-at epoch"
  let members ← decodeReplicaNodes
  failIf (improper members) (.InvalidValue "replica set members" "must be 1 to MAX_REPLICAS distinct node ids, sorted")
  return { generation, members, recordedAtEpoch }

variable {set : RangeReplicaSetRecord}

theorem stores (proper : ¬ improper set.members) : decode.Stores set.encode 146 set := by
  have few : set.members.length ≤ MAX_REPLICAS := Nat.not_lt.mp fun many => proper (.inr (.inl many))
  have fits : set.members.length ≤ MAX_TRANSIENT_REPLICAS := Nat.le_succ_of_le few
  refine ⟨_, by simp only [encode, encodeReplicaNodes, putBoundedList_eq_ok fits]; rfl, ?_, ?_⟩
  · have listed := length_putList length_putUuid set.members
    simp only [MAX_REPLICAS] at few
    simp only [List.length_append, length_putU64, listed]
    omega
  · simp [decode, decodeReplicaNodes_append fits, run_failIf proper, -List.append_nil]

/-- The encoder's bound is one above the reader's: a set of nine members is written
    and refused when read. -/
theorem refuses (improper : improper set.members) (written : set.encode = .ok bytes) : bytes.length ≤ 162 ∧ decode.run bytes
      = .error (.InvalidValue "replica set members" "must be 1 to MAX_REPLICAS distinct node ids, sorted") := by
  obtain ⟨listed, listing, ⟨⟩⟩ := bind_eq_ok.mp written
  obtain ⟨fits, rfl⟩ := putBoundedList_fits listing
  have reads := decodeReplicaNodes_append fits []
  simp only [List.append_nil] at reads
  refine ⟨?_, by simp [decode, reads, run_failIf_fails improper]⟩
  have listed := length_putList length_putUuid set.members
  simp only [MAX_TRANSIENT_REPLICAS, MAX_REPLICAS] at fits
  simp only [List.length_append, length_putU64, listed]
  omega

end RangeReplicaSetRecord

/-! ## Values -/

namespace MetaValue

def tag : MetaValue → UInt8
  | Node _ => 12
  | Topic _ => 2
  | TopicName _ => 3
  | Range range => range.tag
  | Segment _ => 5
  | Key _ => 6
  | Group _ => 7
  | GroupName _ => 8
  | GroupMember _ => 11
  | GroupCursor _ => 10
  | SegmentPlacement _ => 13
  | ReplacementProof _ => 14
  | RebalanceIntent _ => 15
  | TierCopy _ => 17
  | TopicRetentionPolicy _ => 18
  | RangeTransition _ => 19
  | LineageTransition _ => 21
  | ClusterConfig _ => 22
  | RangeReplicaSet _ => 23

def encodeRecord : MetaValue → Except CodecError Bytes
  | Node node => node.encode
  | Topic topic => topic.encode
  | TopicName name => return name.encode
  | Range range => return range.encode
  | Segment segment => return segment.encode
  | Key key => return key.encode
  | Group group => group.encode
  | GroupName name => return putUuid name.groupUuid
  | GroupMember member => member.encode
  | GroupCursor cursor => return cursor.encode
  | SegmentPlacement placement => placement.encode
  | ReplacementProof proof => return proof.encode
  | RebalanceIntent intent => return intent.encode
  | TierCopy tier => tier.encode
  | TopicRetentionPolicy policy => return putU64 policy.generation ++ putFlag policy.unarchivedDeletionAllowed
  | RangeTransition transition => transition.encode
  | LineageTransition transition => return transition.encode
  | ClusterConfig config => return putU32 config.featureLevel
  | RangeReplicaSet set => set.encode

def encode (value : MetaValue) : Except CodecError Bytes := do
  return putU8 value.tag ++ (← value.encodeRecord)

def decodeRecord (tag : UInt8) : Reader MetaValue :=
  match tag with
  | 1 => Node <$> NodeRecord.decodeLegacy
  | 12 => Node <$> NodeRecord.decode
  | 2 => Topic <$> TopicRecord.decode
  | 3 => TopicName <$> TopicNameRecord.decode
  | 4 => Range <$> decode 4
  | 16 => Range <$> decode 16
  | 20 => Range <$> decode 20
  | 5 => Segment <$> SegmentRecord.decode
  | 6 => Key <$> KeyRecord.decode
  | 7 => Group <$> ConsumerGroupRecord.decode
  | 8 => (fun groupUuid => GroupName { groupUuid }) <$> uuid "group uuid"
  | 9 => GroupMember <$> GroupMemberRecord.decodeLegacy
  | 11 => GroupMember <$> GroupMemberRecord.decode
  | 10 => GroupCursor <$> CursorCheckpointRecord.decode
  | 13 => SegmentPlacement <$> SegmentPlacementRecord.decode
  | 14 => ReplacementProof <$> ReplacementProofRecord.decode
  | 15 => RebalanceIntent <$> RebalanceIntentRecord.decode
  | 17 => TierCopy <$> TierCopyRecord.decode
  | 18 => do
    return TopicRetentionPolicy {
      generation := ← u64 "retention policy generation"
      unarchivedDeletionAllowed := ← flag "unarchived deletion allowed" }
  | 19 => RangeTransition <$> RangeTransitionRecord.decode
  | 21 => LineageTransition <$> LineageTransitionRecord.decode
  | 22 => (fun featureLevel => ClusterConfig { featureLevel }) <$> u32 "feature level"
  | 23 => RangeReplicaSet <$> decode
  | other => fail (.UnknownTag "record value tag" other.toUInt32)

def decode (bytes : Bytes) : Except CodecError MetaValue := decodeAll (do decodeRecord (← u8 "record value tag")) bytes

/-- What a record keeps to so that a snapshot can carry it. -/
def Storable : MetaValue → Prop
  | Node node => node.Storable
  | Topic topic => topic.name.utf8ByteSize ≤ MAX_TOPIC_NAME_BYTES
  | Range range => range.parents.length ≤ 2
  | Group group => group.name.utf8ByteSize ≤ MAX_GROUP_NAME_BYTES
  | GroupMember member => member.assigned.length ≤ MAX_ASSIGNED_RANGES
  | SegmentPlacement placement => placement.replicaNodes.length ≤ MAX_TRANSIENT_REPLICAS
  | TierCopy tier => tier.Storable
  | RangeTransition transition => transition.outcome.Bounded
  | RangeReplicaSet set => ¬ improper set.members
  | TopicName _ | Segment _ | Key _ | GroupName _ | GroupCursor _ | ReplacementProof _ | RebalanceIntent _
  | TopicRetentionPolicy _ | LineageTransition _ | ClusterConfig _ => True

/-- The reader chosen by the tag stores the fields that follow it. -/
theorem stores {value : MetaValue} (storable : value.Storable) :
    (decodeRecord value.tag).Stores value.encodeRecord 971 value := by
  have widen {α : Type} {reader : Reader α} {written : Except CodecError Bytes} {width : Nat} {record : α}
      (wide : width ≤ 971) (stores : reader.Stores written width record) (change : α → MetaValue) :
      (change <$> reader).Stores written 971 (change record) := by
    obtain ⟨bytes, wrote, fits, reads⟩ := stores.map change
    exact ⟨bytes, wrote, Nat.le_trans fits wide, reads⟩
  cases value with
  | Range range =>
    have tagged : decodeRecord (Range range).tag = Range <$> RangeRecord.decode range.tag := by
      have oneOf : range.tag = 20 ∨ range.tag = 4 ∨ range.tag = 16 := by
        unfold RangeRecord.tag
        split
        · exact .inl rfl
        · split
          · exact .inr (.inl rfl)
          · exact .inr (.inr rfl)
      rcases oneOf with bearing | plain | moved
      · rw [tag, bearing]; rfl
      · rw [tag, plain]; rfl
      · rw [tag, moved]; rfl
    rw [tagged]
    exact widen (by decide) (RangeRecord.stores storable) Range
  | Node node => exact widen (by decide) (NodeRecord.stores storable) Node
  | Topic topic => exact widen (by decide) (TopicRecord.stores storable) Topic
  | Group group => exact widen (by decide) (ConsumerGroupRecord.stores storable) Group
  | GroupMember member => exact widen (by decide) (GroupMemberRecord.stores storable) GroupMember
  | GroupCursor cursor => exact widen (by decide) (CursorCheckpointRecord.stores cursor) GroupCursor
  | SegmentPlacement placement => exact widen (by decide) (SegmentPlacementRecord.stores storable) SegmentPlacement
  | TierCopy tier => exact widen (by decide) (TierCopyRecord.stores storable) TierCopy
  | RangeTransition transition => exact widen (by decide) (RangeTransitionRecord.stores storable) RangeTransition
  | RangeReplicaSet set => exact widen (by decide) (RangeReplicaSetRecord.stores storable) RangeReplicaSet
  -- The other kinds have fields of fixed width only.
  | _ => exact ⟨_, rfl, by simp, by simp [decodeRecord, tag, -List.append_nil]⟩

theorem decode_encode {value : MetaValue} (storable : value.Storable) :
    ∃ bytes, value.encode = .ok bytes ∧ bytes.length ≤ MAX_SNAPSHOT_VALUE_BYTES ∧ decode bytes = .ok value := by
  obtain ⟨bytes, written, fits, reads⟩ := stores storable
  refine ⟨_, by simp only [encode, written]; rfl, ?_, Reader.decodeAll_of_run ?_⟩
  · simp only [List.length_append, length_putU8, MAX_SNAPSHOT_VALUE_BYTES]
    omega
  · rw [List.append_nil] at reads
    simp [reads]

/-- A replica set that is not storable may be written, but is not read back. -/
theorem decode_encode_improper {set : RangeReplicaSetRecord}
    (improper : improper set.members) (written : (RangeReplicaSet set).encode = .ok bytes) :
    bytes.length ≤ MAX_SNAPSHOT_VALUE_BYTES ∧ decode bytes
      = .error (.InvalidValue "replica set members" "must be 1 to MAX_REPLICAS distinct node ids, sorted") := by
  obtain ⟨fields, encoded, ⟨⟩⟩ := bind_eq_ok.mp written
  obtain ⟨fits, refused⟩ := refuses improper encoded
  refine ⟨?_, by simp [decode, decodeAll, tag, decodeRecord, refused]⟩
  simp only [List.length_append, length_putU8, MAX_SNAPSHOT_VALUE_BYTES]
  omega

end MetaValue

end VtopEngine.Meta
