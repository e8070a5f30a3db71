import VtopEngine.Meta.Wire

/-! # Typed metadata keys

Every record of the metadata state machine lives under a `MetaKey` (`keys.rs`).
The map, the snapshots and the range scans all order keys by their encoded
bytes, so the facts about `encode` proved here are the facts the state machine
rests on: it is injective, it round-trips through `decode`, and the transitions
of one range form an interval of the byte order.
-/

namespace VtopEngine.Meta

open Lib
open Reader (u16 u64 u8 utf8 uuid)

def META_SHARD_ID : UInt16 := 0

def MAX_TOPIC_NAME_BYTES : Nat := 249

def MAX_GROUP_NAME_BYTES : Nat := MAX_TOPIC_NAME_BYTES

inductive MetaKey
  | ClusterConfig
  | Node (nodeUuid : Uuid)
  | TopicByName (name : String)
  | Topic (topicUuid : Uuid)
  | Range (topicUuid rangeUuid : Uuid)
  | Segment (topicUuid rangeUuid segmentUuid : Uuid)
  | Key (keyUuid : Uuid)
  | Request (requestId : Uuid)
  | Group (groupUuid : Uuid)
  | GroupByName (name : String)
  | GroupMember (groupUuid memberUuid : Uuid)
  | GroupCursor (groupUuid topicUuid rangeUuid : Uuid)
  | SegmentPlacement (topicUuid rangeUuid segmentUuid : Uuid)
  | SegmentReplacementProof (topicUuid rangeUuid segmentUuid : Uuid)
  | SegmentRebalanceIntent (topicUuid rangeUuid segmentUuid : Uuid)
  | SegmentTierCopy (topicUuid rangeUuid segmentUuid : Uuid)
  | TopicRetentionPolicy (topicUuid : Uuid)
  | RangeTransition (topicUuid rangeUuid : Uuid) (fencingEpoch : UInt64)
  | LineageTransition (topicUuid transitionId : Uuid)
  | RangeReplicaSet (topicUuid rangeUuid : Uuid)
  deriving DecidableEq, Repr

/-- A name has 1 to `maximum` bytes. -/
def validateName (what : String) (maximum : Nat) (name : String) : Except CodecError Unit :=
  if name.isEmpty ∨ name.utf8ByteSize > maximum then
    .error (.BoundExceeded what name.utf8ByteSize maximum)
  else
    .ok ()

def validateTopicName (name : String) : Except CodecError Unit := validateName "topic name" MAX_TOPIC_NAME_BYTES name

def validateGroupName (name : String) : Except CodecError Unit := validateName "group name" MAX_GROUP_NAME_BYTES name

theorem validateName_isOk : (validateName what maximum name).isOk = true ↔ name ≠ "" ∧ name.utf8ByteSize ≤ maximum := by
  unfold validateName
  split
  · next bad =>
    refine ⟨fun impossible => (nomatch impossible), fun fits => absurd bad ?_⟩
    simp [fits.1, Nat.not_lt.mpr fits.2]
  · next good => simpa [Except.isOk, Except.toBool] using good

variable {first second : MetaKey}

namespace MetaKey

def category : MetaKey → UInt8
  | ClusterConfig => 1
  | Node .. => 2
  | TopicByName .. => 3
  | Topic .. => 4
  | Range .. => 5
  | Segment .. => 6
  | Key .. => 7
  | Request .. => 8
  | Group .. => 9
  | GroupByName .. => 10
  | GroupMember .. => 11
  | GroupCursor .. => 12
  | SegmentPlacement .. => 13
  | SegmentReplacementProof .. => 14
  | SegmentRebalanceIntent .. => 15
  | SegmentTierCopy .. => 16
  | TopicRetentionPolicy .. => 17
  | RangeTransition .. => 18
  | LineageTransition .. => 19
  | RangeReplicaSet .. => 20

/-- What follows the shard and the category: fixed-width ids, or the raw name
    bytes, whose length the key's length implies. -/
def body : MetaKey → Bytes
  | ClusterConfig => []
  | Node node => putUuid node
  | TopicByName name => strBytes name
  | Topic topic => putUuid topic
  | Range topic range => putUuid topic ++ putUuid range
  | Segment topic range segment => putUuid topic ++ putUuid range ++ putUuid segment
  | Key key => putUuid key
  | Request request => putUuid request
  | Group group => putUuid group
  | GroupByName name => strBytes name
  | GroupMember group member => putUuid group ++ putUuid member
  | GroupCursor group topic range => putUuid group ++ putUuid topic ++ putUuid range
  | SegmentPlacement topic range segment | SegmentReplacementProof topic range segment
  | SegmentRebalanceIntent topic range segment | SegmentTierCopy topic range segment =>
    putUuid topic ++ putUuid range ++ putUuid segment
  | TopicRetentionPolicy topic => putUuid topic
  | RangeTransition topic range epoch => putUuid topic ++ putUuid range ++ putU64 epoch
  | LineageTransition topic transition => putUuid topic ++ putUuid transition
  | RangeReplicaSet topic range => putUuid topic ++ putUuid range

def encode (key : MetaKey) : Bytes := putU16 META_SHARD_ID ++ putU8 key.category ++ key.body

/-- The rest of the key is a name of 1 to `maximum` bytes. -/
def readName (maximum : Nat) (what : String) : Reader String := do
  let raw ← Parser.remaining
  Parser.failIf (raw = 0 ∨ raw > maximum) (.BoundExceeded what raw maximum)
  utf8 raw what

def readBody (category : UInt8) : Reader MetaKey := do
  match category with
  | 1 => return ClusterConfig
  | 2 => return Node (← uuid "node uuid")
  | 3 => return TopicByName (← readName MAX_TOPIC_NAME_BYTES "topic name")
  | 4 => return Topic (← uuid "topic uuid")
  | 5 => return Range (← uuid "topic uuid") (← uuid "range uuid")
  | 6 => return Segment (← uuid "topic uuid") (← uuid "range uuid") (← uuid "segment uuid")
  | 7 => return Key (← uuid "key uuid")
  | 8 => return Request (← uuid "request id")
  | 9 => return Group (← uuid "group uuid")
  | 10 => return GroupByName (← readName MAX_GROUP_NAME_BYTES "group name")
  | 11 => return GroupMember (← uuid "group uuid") (← uuid "member uuid")
  | 12 => return GroupCursor (← uuid "group uuid") (← uuid "topic uuid") (← uuid "range uuid")
  | 13 => return SegmentPlacement (← uuid "topic uuid") (← uuid "range uuid") (← uuid "segment uuid")
  | 14 => return SegmentReplacementProof (← uuid "topic uuid") (← uuid "range uuid") (← uuid "segment uuid")
  | 15 => return SegmentRebalanceIntent (← uuid "topic uuid") (← uuid "range uuid") (← uuid "segment uuid")
  | 16 => return SegmentTierCopy (← uuid "topic uuid") (← uuid "range uuid") (← uuid "segment uuid")
  | 17 => return TopicRetentionPolicy (← uuid "topic uuid")
  | 18 => return RangeTransition (← uuid "topic uuid") (← uuid "range uuid") (← u64 "fencing epoch")
  | 19 => return LineageTransition (← uuid "topic uuid") (← uuid "transition id")
  | 20 => return RangeReplicaSet (← uuid "topic uuid") (← uuid "range uuid")
  | other => Parser.fail (.UnknownTag "meta key category" other.toUInt32)

def decode (bytes : Bytes) : Except CodecError MetaKey :=
  let reader : Reader MetaKey := do
    let shard ← u16 "meta key shard"
    Parser.failIf (shard ≠ META_SHARD_ID) (.InvalidValue "meta key shard" "only shard 0 exists in this format version")
    readBody (← u8 "meta key category")
  reader.decodeAll bytes

theorem category_of_encode_eq (same : first.encode = second.encode) :
    first.category = second.category ∧ first.body = second.body := by
  simp only [encode, List.append_assoc, List.append_cancel_left_eq] at same
  have split := List.append_inj same (by simp)
  exact ⟨UInt8.toNat_inj.mp (beBytes_injOn first.category.toNat_lt second.category.toNat_lt split.1), split.2⟩

end MetaKey

theorem putUuid_inj {first second} : putUuid first = putUuid second ↔ first = second := by
  constructor
  · intro same
    exact BitVec.eq_of_toNat_eq (beBytes_injOn first.isLt second.isLt same)
  · rintro rfl
    rfl

theorem putU64_inj {first second} : putU64 first = putU64 second ↔ first = second := by
  constructor
  · intro same
    exact UInt64.toNat_inj.mp (beBytes_injOn first.toNat_lt second.toNat_lt same)
  · rintro rfl
    rfl

theorem compare_putUuid (first second) : compare (putUuid first) (putUuid second) = compare first.toNat second.toNat :=
  compare_beBytes first.isLt second.isLt

theorem compare_putU64 (first second) : compare (putU64 first) (putU64 second) = compare first.toNat second.toNat :=
  compare_beBytes first.toNat_lt second.toNat_lt

theorem putUuid_append_inj {first second} :
    putUuid first ++ rest = putUuid second ++ rest' ↔ first = second ∧ rest = rest' := by
  rw [← putUuid_inj]
  constructor
  · exact fun same => List.append_inj same (by simp)
  · rintro ⟨same, rfl⟩
    rw [same]

namespace MetaKey

theorem encode_injective (same : first.encode = second.encode) : first = second := by
  obtain ⟨sameCategory, sameBody⟩ := category_of_encode_eq same
  cases first <;> cases second <;> first
    | (simp [category] at sameCategory; done)
    | simp_all [body, putUuid_append_inj, putUuid_inj, putU64_inj, strBytes_inj]

@[simp] theorem encode_inj : first.encode = second.encode ↔ first = second :=
  ⟨encode_injective, congrArg encode⟩

/-- The name in the key, if it has one, is one that `decode` accepts. -/
def NameFits : MetaKey → Prop
  | TopicByName name => name ≠ "" ∧ name.utf8ByteSize ≤ MAX_TOPIC_NAME_BYTES
  | GroupByName name => name ≠ "" ∧ name.utf8ByteSize ≤ MAX_GROUP_NAME_BYTES
  | _ => True

theorem readName_strBytes (nonempty : name ≠ "") (fits : name.utf8ByteSize ≤ maximum) :
    (readName maximum what).run (strBytes name) = .ok (name, []) := by
  have whole : (utf8 name.utf8ByteSize what).run (strBytes name) = .ok (name, []) := by
    have appended : (utf8 name.utf8ByteSize what).run (strBytes name ++ []) = .ok (name, []) := Reader.utf8_append name rfl
    simpa using appended
  simp [readName, nonempty, Nat.not_lt.mpr fits, whole]

variable {key : MetaKey}

theorem readBody_body (fits : key.NameFits) : (readBody key.category).run key.body = .ok (key, []) := by
  rw [← List.append_nil key.body]
  cases key with
  | TopicByName name | GroupByName name => simp [readBody, category, body, readName_strBytes fits.1 fits.2]
  | _ => simp [readBody, category, body, -List.append_nil]

theorem decode_encode (fits : key.NameFits) : decode key.encode = .ok key := by
  apply Reader.decodeAll_of_run
  simp [encode, readBody_body fits]

theorem length_encode (fits : key.NameFits) : key.encode.length ≤ 252 := by
  have header : key.encode.length = 3 + key.body.length := by
    simp only [encode, List.length_append, length_putU16, length_putU8]
  rw [header]
  cases key with
  | TopicByName name | GroupByName name => exact Nat.add_le_add_left fits.2 3
  | _ => simp [body]

/-- The transitions of a range from one epoch to another are an interval of the
    byte order, with no other transition's key inside it. -/
theorem rangeTransition_interval
    (above : compare (RangeTransition topic range low).encode (RangeTransition topic' range' epoch).encode ≠ .gt)
    (below : compare (RangeTransition topic' range' epoch).encode (RangeTransition topic range high).encode ≠ .gt) :
    topic' = topic ∧ range' = range ∧ low ≤ epoch ∧ epoch ≤ high := by
  simp only [encode, category, body, List.append_assoc, compare_append, length_putU16, length_putU8,
    length_putUuid, compare_putUuid, compare_putU64, Std.ReflCmp.compare_self, Ordering.eq_then,
    compare_then_ne_gt, Nat.compare_ne_gt] at above below
  have sameTopic : topic'.toNat = topic.toNat := by omega
  have sameRange : range'.toNat = range.toNat := by omega
  refine ⟨BitVec.eq_of_toNat_eq sameTopic, BitVec.eq_of_toNat_eq sameRange, ?_, ?_⟩ <;> rw [UInt64.le_iff_toNat_le] <;> omega

end MetaKey

end VtopEngine.Meta
