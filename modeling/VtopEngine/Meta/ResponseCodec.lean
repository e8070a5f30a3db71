import VtopEngine.Meta.Command

/-! # Response codec

`MetadataResponse::encode` and `MetadataResponse::decode`, and the codec of the
errors inside them (`command.rs`).  The text of an error carries its wire bound, so
every response encodes and is read back.
-/

namespace VtopEngine.Meta

open Lib
open Reader (u16 u64 uuid)

/-! ## Errors -/

namespace MetadataError

def encode : MetadataError → Except CodecError Bytes
  | GenerationMismatch expected actual => return putU16 1 ++ putU64 expected ++ putU64 actual
  | EpochMismatch expected actual => return putU16 2 ++ putU64 expected ++ putU64 actual
  | LineageMismatch expected actual => return putU16 7 ++ putU64 expected ++ putU64 actual
  | AlreadyExists => return putU16 3
  | NotFound => return putU16 4
  | InvalidTransition detail => do
    return putU16 5 ++ (← putBoundedStr detail.val MAX_ERROR_DETAIL_BYTES "error detail")
  | Limit detail => do return putU16 6 ++ (← putBoundedStr detail.val MAX_ERROR_DETAIL_BYTES "error detail")

/-- The text is within the bound when it has been read: `boundDetail` leaves it as it is. -/
def readDetail : Reader Detail := do
  return boundDetail (← Reader.boundedStr MAX_ERROR_DETAIL_BYTES "error detail")

def decode : Reader MetadataError := do
  match ← u16 "error kind" with
  | 1 => return GenerationMismatch (← u64 "expected generation") (← u64 "actual generation")
  | 2 => return EpochMismatch (← u64 "expected epoch") (← u64 "actual epoch")
  | 7 => return LineageMismatch (← u64 "expected lineage generation") (← u64 "actual lineage generation")
  | 3 => return AlreadyExists
  | 4 => return NotFound
  | 5 => return InvalidTransition (← readDetail)
  | 6 => return Limit (← readDetail)
  | other => Parser.fail (.UnknownTag "error kind" other.toUInt32)

theorem readDetail_append (detail : Detail) (rest : Bytes) :
    readDetail.run (putStr detail.val ++ rest) = .ok (detail, rest) := by
  have same : boundDetail detail.val = detail := dif_neg (Nat.not_lt.mpr detail.property)
  simp [readDetail, Reader.boundedStr_append detail.property (by decide), same]

theorem reads (error : MetadataError) :
    ∃ bytes, error.encode = .ok bytes ∧ bytes.length ≤ 260 ∧ decode.run (bytes ++ []) = .ok (error, []) := by
  have texts (detail : Detail) : (putStr detail.val).length ≤ 258 := by
    have fits : detail.val.utf8ByteSize ≤ 256 := detail.property
    rw [length_putStr]
    omega
  cases error with
  | InvalidTransition detail | Limit detail =>
    refine ⟨_, by simp only [encode, putBoundedStr_eq_ok detail.property]; rfl, ?_, ?_⟩
    · simpa using Nat.add_le_add_left (texts detail) 2
    · simp [decode, readDetail_append, -List.append_nil]
  | _ => exact ⟨_, rfl, by simp, by simp [decode, -List.append_nil]⟩

end MetadataError

/-! ## Responses -/

namespace MetadataResponse

def encode : MetadataResponse → Except CodecError Bytes
  | Ack generation => return putU16 1 ++ putU64 generation
  | TopicCreated topicUuid topicEpoch rootRangeUuid =>
    return putU16 2 ++ putUuid topicUuid ++ putU64 topicEpoch ++ putUuid rootRangeUuid
  | LeaseGranted fencingEpoch => return putU16 3 ++ putU64 fencingEpoch
  | TransitionRecorded fencingEpoch => return putU16 8 ++ putU64 fencingEpoch
  | GroupCreated groupUuid generation => return putU16 5 ++ putUuid groupUuid ++ putU64 generation
  | MemberJoined memberGeneration groupGeneration => return putU16 6 ++ putU64 memberGeneration ++ putU64 groupGeneration
  | CursorCommitted checkpointGeneration => return putU16 7 ++ putU64 checkpointGeneration
  | Rejected error => do return putU16 4 ++ (← error.encode)

def decodeFrom : Reader MetadataResponse := do
  match ← u16 "response kind" with
  | 1 => return Ack (← u64 "generation")
  | 2 => return TopicCreated (← uuid "topic uuid") (← u64 "topic epoch") (← uuid "root range uuid")
  | 3 => return LeaseGranted (← u64 "fencing epoch")
  | 8 => return TransitionRecorded (← u64 "fencing epoch")
  | 5 => return GroupCreated (← uuid "group uuid") (← u64 "group generation")
  | 6 => return MemberJoined (← u64 "member generation") (← u64 "group generation")
  | 7 => return CursorCommitted (← u64 "checkpoint generation")
  | 4 => return Rejected (← MetadataError.decode)
  | other => Parser.fail (.UnknownTag "response kind" other.toUInt32)

def decode (bytes : Bytes) : Except CodecError MetadataResponse := decodeFrom.decodeAll bytes

/-- Every response encodes, in at most 262 bytes, and is read back. -/
theorem decode_encode (response : MetadataResponse) :
    ∃ bytes, response.encode = .ok bytes ∧ bytes.length ≤ 262 ∧ decode bytes = .ok response := by
  suffices reads : ∃ bytes, response.encode = .ok bytes ∧ bytes.length ≤ 262
      ∧ decodeFrom.run (bytes ++ []) = .ok (response, []) by
    obtain ⟨bytes, written, fits, read⟩ := reads
    rw [List.append_nil] at read
    exact ⟨bytes, written, fits, Reader.decodeAll_of_run read⟩
  cases response with
  | Rejected error =>
    obtain ⟨bytes, written, fits, read⟩ := error.reads
    refine ⟨_, by simp only [encode, written]; rfl, ?_, ?_⟩
    · simpa using Nat.add_le_add_left fits 2
    · rw [List.append_nil] at read
      simp [decodeFrom, read]
  | _ => exact ⟨_, rfl, by simp, by simp [decodeFrom, -List.append_nil]⟩

end MetadataResponse

end VtopEngine.Meta
