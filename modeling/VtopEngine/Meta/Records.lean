import VtopEngine.Meta.Command
import VtopEngine.Log.KeyRange

/-! # Metadata records

The record kinds of the metadata state machine and the map that holds them
(`state.rs`).  The map is keyed by encoded keys, as in the source; because
`MetaKey.encode` is injective it can be reasoned about through typed keys, and
everything above this module does so:

* `Records.record` — look a typed key up, `Records.put` / `Records.remove` write it;
* `Records.range?`, `Records.segment?`, … — the lookup of one record kind, which
  answers `none` for an absent key and for a value of another kind.
-/

namespace VtopEngine.Meta

open Lib Std.ExtTreeMap

/-! ## Record kinds -/

/-- The replica set a range's quorum is counted over. -/
structure RangeReplicaSetRecord where
  generation : UInt64
  members : List Uuid
  recordedAtEpoch : UInt64
  deriving DecidableEq, Repr

structure ClusterConfigRecord where
  featureLevel : UInt32
  deriving DecidableEq, Repr

structure NodeRecord where
  addr : String
  state : NodeState
  generation : UInt64
  failureDomain : String
  placementWeight : UInt32
  deriving DecidableEq, Repr

structure TopicRecord where
  name : String
  (topicEpoch generation : UInt64)
  deriving DecidableEq, Repr

structure TopicNameRecord where
  topicUuid : Uuid
  latestEpoch : UInt64
  deriving DecidableEq, Repr

/-- An outstanding lease; one without a deadline never expires. -/
structure LeaseRecord where
  holderNodeUuid : Uuid
  (fencingEpoch grantedApplyIndex : UInt64)
  expiresAtMs : Option Int64
  deriving DecidableEq, Repr

def LeaseRecord.isLiveAt (lease : LeaseRecord) (nowMs : Int64) : Bool :=
  match lease.expiresAtMs with
  | none => true
  | some deadline => nowMs < deadline

structure SealedParent where
  barrierOffset : UInt64
  transitionId : Uuid
  deriving DecidableEq, Repr

structure RangeRecord where
  (generation keyPrefix : UInt64)
  keyPrefixBits : UInt8
  (fencingEpoch lineageGeneration : UInt64)
  parents : List Uuid
  sealedAt : Option SealedParent
  lease : Option LeaseRecord
  deriving DecidableEq, Repr

def RangeRecord.keyRange (range : RangeRecord) : Log.KeyRange :=
  { keyPrefix := range.keyPrefix, prefixBits := range.keyPrefixBits }

inductive SegmentState
  | SealedUnverified | Verified | Repairing | RetirePlanned | Retired | Quarantined | RetentionPlanned
  | RetentionExpired
  deriving DecidableEq, Repr

structure SegmentRecord where
  (segmentGeneration baseOffset nextOffset : UInt64)
  contentRoot : Bytes32
  state : SegmentState
  sealedByEpoch : UInt64
  deriving DecidableEq, Repr

inductive KeyState
  | Active
  deriving DecidableEq, Repr

structure KeyRecord where
  scheme : UInt16
  publicMaterialDigest : Bytes32
  state : KeyState
  deriving DecidableEq, Repr

structure ConsumerGroupRecord where
  name : String
  generation : UInt64
  deriving DecidableEq, Repr

structure GroupNameRecord where
  groupUuid : Uuid
  deriving DecidableEq, Repr

structure GroupMemberRecord where
  (generation lastHeartbeatApplyIndex : UInt64)
  assigned : List RangeAssignment
  deriving DecidableEq, Repr

structure CursorCheckpointRecord where
  (topicEpoch rangeGeneration : UInt64)
  segmentUuid : Uuid
  segmentGeneration : UInt64
  segmentRoot : Bytes32
  (recordOffset recordIndex : UInt64)
  lineageTransitionId : Option Uuid
  checkpointGeneration : UInt64
  committedByMember : Uuid
  deriving DecidableEq, Repr

structure SegmentPlacementRecord where
  generation : UInt64
  declaredReplicationFactor : UInt8
  replicaNodes : List Uuid
  committedApplyIndex : UInt64
  deriving DecidableEq, Repr

structure RebalanceIntentRecord where
  (fromNodeUuid toNodeUuid : Uuid)
  (proposedAtApplyIndex placementGenerationAtProposal : UInt64)
  deriving DecidableEq, Repr

structure ReplacementProofRecord where
  (generation segmentGeneration : UInt64)
  contentRoot : Bytes32
  expectedLengthBytes : UInt64
  (sourceNodeUuid destinationNodeUuid : Uuid)
  fencingEpoch : UInt64
  verificationMethod : VerificationMethod
  verifierNodeUuid : Uuid
  (verifiedAtApplyIndex verifiedTerm : UInt64)
  deriving DecidableEq, Repr

structure TierCopyRecord where
  (generation segmentGeneration : UInt64)
  contentRoot : Bytes32
  byteLength : UInt64
  (backendId objectUri : String)
  (objectVersionId manifestVersionId : Option String)
  manifestCoreDigest : Bytes32
  verificationMethod : VerificationMethod
  verifierNodeUuid : Uuid
  (verifiedAtApplyIndex verifiedTerm fencingEpoch : UInt64)
  deriving DecidableEq, Repr

structure TopicRetentionPolicyRecord where
  generation : UInt64
  unarchivedDeletionAllowed : Bool
  deriving DecidableEq, Repr

inductive GrantKind
  | Election | Administrative
  deriving DecidableEq, Repr

/-- What the holder reported about its grant, if anything yet. -/
inductive TransitionOutcome
  | Pending
  | Reported (outcome : PromotionOutcome) (reportedAtMs : Int64) (reportedApplyIndex : UInt64)
  deriving DecidableEq, Repr

structure LineageTransitionRecord where
  parentRangeUuid : Uuid
  barrierOffset : UInt64
  (leftRangeUuid rightRangeUuid : Uuid)
  sealedByEpoch : UInt64
  issuedAtMs : Int64
  deriving DecidableEq, Repr

/-- One epoch transition of a range, minted with the epoch. -/
structure RangeTransitionRecord where
  (epochFrom epochTo : UInt64)
  holderFrom : Option Uuid
  holderTo : Uuid
  grant : GrantKind
  grantedAtMs : Int64
  grantedApplyIndex : UInt64
  outcome : TransitionOutcome
  deriving DecidableEq, Repr

inductive MetaValue
  | Node (record : NodeRecord)
  | Topic (record : TopicRecord)
  | TopicName (record : TopicNameRecord)
  | Range (record : RangeRecord)
  | Segment (record : SegmentRecord)
  | Key (record : KeyRecord)
  | Group (record : ConsumerGroupRecord)
  | GroupName (record : GroupNameRecord)
  | GroupMember (record : GroupMemberRecord)
  | GroupCursor (record : CursorCheckpointRecord)
  | SegmentPlacement (record : SegmentPlacementRecord)
  | ReplacementProof (record : ReplacementProofRecord)
  | RebalanceIntent (record : RebalanceIntentRecord)
  | TierCopy (record : TierCopyRecord)
  | TopicRetentionPolicy (record : TopicRetentionPolicyRecord)
  | RangeTransition (record : RangeTransitionRecord)
  | LineageTransition (record : LineageTransitionRecord)
  | ClusterConfig (record : ClusterConfigRecord)
  | RangeReplicaSet (record : RangeReplicaSetRecord)
  deriving DecidableEq, Repr

/-! ## Views of a value -/

namespace MetaValue

@[simp] def asNode : MetaValue → Option NodeRecord
  | Node record => some record
  | _ => none

@[simp] def asTopic : MetaValue → Option TopicRecord
  | Topic record => some record
  | _ => none

@[simp] def asTopicName : MetaValue → Option TopicNameRecord
  | TopicName record => some record
  | _ => none

@[simp] def asRange : MetaValue → Option RangeRecord
  | Range record => some record
  | _ => none

@[simp] def asSegment : MetaValue → Option SegmentRecord
  | Segment record => some record
  | _ => none

@[simp] def asGroup : MetaValue → Option ConsumerGroupRecord
  | Group record => some record
  | _ => none

@[simp] def asGroupName : MetaValue → Option GroupNameRecord
  | GroupName record => some record
  | _ => none

@[simp] def asGroupMember : MetaValue → Option GroupMemberRecord
  | GroupMember record => some record
  | _ => none

@[simp] def asGroupCursor : MetaValue → Option CursorCheckpointRecord
  | GroupCursor record => some record
  | _ => none

@[simp] def asSegmentPlacement : MetaValue → Option SegmentPlacementRecord
  | SegmentPlacement record => some record
  | _ => none

@[simp] def asReplacementProof : MetaValue → Option ReplacementProofRecord
  | ReplacementProof record => some record
  | _ => none

@[simp] def asRebalanceIntent : MetaValue → Option RebalanceIntentRecord
  | RebalanceIntent record => some record
  | _ => none

@[simp] def asTierCopy : MetaValue → Option TierCopyRecord
  | TierCopy record => some record
  | _ => none

@[simp] def asTopicRetentionPolicy : MetaValue → Option TopicRetentionPolicyRecord
  | TopicRetentionPolicy record => some record
  | _ => none

@[simp] def asRangeTransition : MetaValue → Option RangeTransitionRecord
  | RangeTransition record => some record
  | _ => none

@[simp] def asLineageTransition : MetaValue → Option LineageTransitionRecord
  | LineageTransition record => some record
  | _ => none

@[simp] def asRangeReplicaSet : MetaValue → Option RangeReplicaSetRecord
  | RangeReplicaSet record => some record
  | _ => none

end MetaValue

/-! ## The map -/

/-- The records, keyed by the encoded key. -/
structure Records where
  map : Std.ExtTreeMap Bytes MetaValue
  deriving DecidableEq

namespace Records

variable {α : Type}

def empty : Records := ⟨∅⟩

def record (records : Records) (key : MetaKey) : Option MetaValue := records.map[key.encode]?

def put (records : Records) (key : MetaKey) (value : MetaValue) : Records := ⟨records.map.insert key.encode value⟩

def remove (records : Records) (key : MetaKey) : Records := ⟨records.map.erase key.encode⟩

/-- The records in key order. -/
def entries (records : Records) : List (Bytes × MetaValue) := records.map.toList

/-- The records whose keys lie between `low` and `high`, both included. -/
def between (records : Records) (low high : Bytes) : List (Bytes × MetaValue) :=
  records.entries.filter fun entry => compare low entry.1 ≠ .gt ∧ compare entry.1 high ≠ .gt

def lookup (records : Records) (view : MetaValue → Option α) (key : MetaKey) : Option α := (records.record key).bind view

@[simp] theorem record_empty (key) : empty.record key = none := by simp [record, empty]

@[simp] theorem record_put (records : Records) (key key' value) :
    (records.put key value).record key' = if key = key' then some value else records.record key' := by
  simp [record, put, getElem?_insert]

@[simp] theorem record_remove (records : Records) (key key') :
    (records.remove key).record key' = if key = key' then none else records.record key' := by
  simp [record, remove, getElem?_erase]

@[simp] theorem put_put (records : Records) (key first second) :
    (records.put key first).put key second = records.put key second := by
  unfold put
  congr 1
  refine ext_getElem? fun bytes => ?_
  simp only [getElem?_insert]
  split <;> rfl

variable {records : Records} {value : MetaValue}

theorem put_of_record (stored : records.record key = some value) : records.put key value = records := by
  have same : records.map.insert key.encode value = records.map := by
    refine ext_getElem? fun bytes => ?_
    rw [getElem?_insert]
    split
    · next sameKey =>
      rw [← Std.LawfulEqCmp.eq_of_compare sameKey]
      exact stored.symm
    · rfl
  exact congrArg Records.mk same

theorem mem_entries : (bytes, value) ∈ records.entries ↔ records.map[bytes]? = some value :=
  mem_toList_iff_getElem?_eq_some

theorem lookup_of_absent {view : MetaValue → Option α} {key : MetaKey}
    (absent : records.record key = none) : records.lookup view key = none := by
  rw [lookup, absent]
  rfl

section

variable (records : Records) (view : MetaValue → Option α) (key key' : MetaKey)

theorem lookup_put (value) :
    (records.put key value).lookup view key' = if key = key' then view value else records.lookup view key' := by
  unfold lookup
  rw [record_put]
  split <;> rfl

theorem lookup_remove : (records.remove key).lookup view key' = if key = key' then none else records.lookup view key' := by
  unfold lookup
  rw [record_remove]
  split <;> rfl

end

/-! ## One lookup for each kind -/

def node? (records : Records) (node : Uuid) : Option NodeRecord := records.lookup MetaValue.asNode (.Node node)

def topic? (records : Records) (topic : Uuid) : Option TopicRecord := records.lookup MetaValue.asTopic (.Topic topic)

def topicName? (records : Records) (name : String) : Option TopicNameRecord :=
  records.lookup MetaValue.asTopicName (.TopicByName name)

def range? (records : Records) (topic range : Uuid) : Option RangeRecord :=
  records.lookup MetaValue.asRange (.Range topic range)

def segment? (records : Records) (topic range segment : Uuid) : Option SegmentRecord :=
  records.lookup MetaValue.asSegment (.Segment topic range segment)

def group? (records : Records) (group : Uuid) : Option ConsumerGroupRecord := records.lookup MetaValue.asGroup (.Group group)

def groupName? (records : Records) (name : String) : Option GroupNameRecord :=
  records.lookup MetaValue.asGroupName (.GroupByName name)

def member? (records : Records) (group member : Uuid) : Option GroupMemberRecord :=
  records.lookup MetaValue.asGroupMember (.GroupMember group member)

def cursor? (records : Records) (group topic range : Uuid) : Option CursorCheckpointRecord :=
  records.lookup MetaValue.asGroupCursor (.GroupCursor group topic range)

def placement? (records : Records) (topic range segment : Uuid) : Option SegmentPlacementRecord :=
  records.lookup MetaValue.asSegmentPlacement (.SegmentPlacement topic range segment)

def proof? (records : Records) (topic range segment : Uuid) : Option ReplacementProofRecord :=
  records.lookup MetaValue.asReplacementProof (.SegmentReplacementProof topic range segment)

def intent? (records : Records) (topic range segment : Uuid) : Option RebalanceIntentRecord :=
  records.lookup MetaValue.asRebalanceIntent (.SegmentRebalanceIntent topic range segment)

def tierCopy? (records : Records) (topic range segment : Uuid) : Option TierCopyRecord :=
  records.lookup MetaValue.asTierCopy (.SegmentTierCopy topic range segment)

def retentionPolicy? (records : Records) (topic : Uuid) : Option TopicRetentionPolicyRecord :=
  records.lookup MetaValue.asTopicRetentionPolicy (.TopicRetentionPolicy topic)

def transition? (records : Records) (topic range : Uuid) (epoch : UInt64) : Option RangeTransitionRecord :=
  records.lookup MetaValue.asRangeTransition (.RangeTransition topic range epoch)

def lineage? (records : Records) (topic transition : Uuid) : Option LineageTransitionRecord :=
  records.lookup MetaValue.asLineageTransition (.LineageTransition topic transition)

def replicaSet? (records : Records) (topic range : Uuid) : Option RangeReplicaSetRecord :=
  records.lookup MetaValue.asRangeReplicaSet (.RangeReplicaSet topic range)

section Writes

variable (records : Records) (written : MetaKey) (value : MetaValue)

@[simp] theorem topic?_put (topic) : (records.put written value).topic? topic =
    if written = .Topic topic then value.asTopic else records.topic? topic := lookup_put ..

@[simp] theorem topicName?_put (name) : (records.put written value).topicName? name =
    if written = .TopicByName name then value.asTopicName else records.topicName? name := lookup_put ..

@[simp] theorem range?_put (topic range) : (records.put written value).range? topic range =
    if written = .Range topic range then value.asRange else records.range? topic range := lookup_put ..

@[simp] theorem segment?_put (topic range segment) : (records.put written value).segment? topic range segment =
    if written = .Segment topic range segment then value.asSegment else records.segment? topic range segment := lookup_put ..

@[simp] theorem group?_put (group) : (records.put written value).group? group =
    if written = .Group group then value.asGroup else records.group? group := lookup_put ..

@[simp] theorem groupName?_put (name) : (records.put written value).groupName? name =
    if written = .GroupByName name then value.asGroupName else records.groupName? name := lookup_put ..

@[simp] theorem member?_put (group member) : (records.put written value).member? group member =
    if written = .GroupMember group member then value.asGroupMember else records.member? group member := lookup_put ..

@[simp] theorem cursor?_put (group topic range) : (records.put written value).cursor? group topic range =
    if written = .GroupCursor group topic range then value.asGroupCursor else records.cursor? group topic range := lookup_put ..

section

variable (topic range segment : Uuid)

@[simp] theorem placement?_put : (records.put written value).placement? topic range segment =
    if written = .SegmentPlacement topic range segment then value.asSegmentPlacement else records.placement? topic range segment := lookup_put ..

@[simp] theorem proof?_put : (records.put written value).proof? topic range segment =
    if written = .SegmentReplacementProof topic range segment then value.asReplacementProof else records.proof? topic range segment := lookup_put ..

@[simp] theorem intent?_put : (records.put written value).intent? topic range segment =
    if written = .SegmentRebalanceIntent topic range segment then value.asRebalanceIntent else records.intent? topic range segment := lookup_put ..

@[simp] theorem tierCopy?_put : (records.put written value).tierCopy? topic range segment =
    if written = .SegmentTierCopy topic range segment then value.asTierCopy else records.tierCopy? topic range segment := lookup_put ..

end

@[simp] theorem transition?_put (topic range epoch) : (records.put written value).transition? topic range epoch =
    if written = .RangeTransition topic range epoch then value.asRangeTransition else records.transition? topic range epoch := lookup_put ..

@[simp] theorem lineage?_put (topic transition) : (records.put written value).lineage? topic transition =
    if written = .LineageTransition topic transition then value.asLineageTransition else records.lineage? topic transition := lookup_put ..

@[simp] theorem replicaSet?_put (topic range) : (records.put written value).replicaSet? topic range =
    if written = .RangeReplicaSet topic range then value.asRangeReplicaSet else records.replicaSet? topic range := lookup_put ..

@[simp] theorem segment?_remove (topic range segment) : (records.remove written).segment? topic range segment =
    if written = .Segment topic range segment then none else records.segment? topic range segment := lookup_remove ..

@[simp] theorem group?_remove (group) : (records.remove written).group? group =
    if written = .Group group then none else records.group? group := lookup_remove ..

@[simp] theorem groupName?_remove (name) : (records.remove written).groupName? name =
    if written = .GroupByName name then none else records.groupName? name := lookup_remove ..

@[simp] theorem member?_remove (group member) : (records.remove written).member? group member =
    if written = .GroupMember group member then none else records.member? group member := lookup_remove ..

section

variable (topic range segment : Uuid)

@[simp] theorem placement?_remove : (records.remove written).placement? topic range segment =
    if written = .SegmentPlacement topic range segment then none else records.placement? topic range segment := lookup_remove ..

@[simp] theorem proof?_remove : (records.remove written).proof? topic range segment =
    if written = .SegmentReplacementProof topic range segment then none else records.proof? topic range segment := lookup_remove ..

@[simp] theorem intent?_remove : (records.remove written).intent? topic range segment =
    if written = .SegmentRebalanceIntent topic range segment then none else records.intent? topic range segment := lookup_remove ..

@[simp] theorem tierCopy?_remove : (records.remove written).tierCopy? topic range segment =
    if written = .SegmentTierCopy topic range segment then none else records.tierCopy? topic range segment := lookup_remove ..

end

end Writes

end Records

end VtopEngine.Meta
