import VtopEngine.Meta.Command

/-! # Codecs of the parts of commands

The tags, options, lists and texts that the command codec and the record codec are
both made of (`command.rs`), each with the law that reading undoes writing.
-/

namespace VtopEngine.Meta

open Lib QuorumAnswer
open Lib.Parser (fail yields_bind yields_fail yields_pure yields_skip)
open Reader (boundedList boundedList_append i64 optional_append u32 u64 u8 uuid uuid_append)

/-! ## Parts of commands -/

def NodeState.wireTag : NodeState → UInt8
  | Active => 1
  | Draining => 2
  | Dead => 3

def NodeState.fromWire (tag : UInt8) : Reader NodeState :=
  match tag with
  | 1 => return Active
  | 2 => return Draining
  | 3 => return Dead
  | other => fail (.UnknownTag "node state" other.toUInt32)

def VerificationMethod.wireTag : VerificationMethod → UInt8
  | AuthenticatedContentRoot => 1

def VerificationMethod.fromWire (tag : UInt8) : Reader VerificationMethod :=
  match tag with
  | 1 => return AuthenticatedContentRoot
  | other => fail (.UnknownTag "verification method" other.toUInt32)

def PromotionRefusal.wireTag : PromotionRefusal → UInt8
  | QuorumUnavailable => 1
  | LeaderBehind => 2
  | CandidateBehindVoters => 3
  | BelowPublished => 4

def PromotionRefusal.fromWire (tag : UInt8) : Reader PromotionRefusal :=
  match tag with
  | 1 => return QuorumUnavailable
  | 2 => return LeaderBehind
  | 3 => return CandidateBehindVoters
  | 4 => return BelowPublished
  | other => fail (.UnknownTag "promotion refusal" other.toUInt32)

def encodeEnvelope (env : CommandEnvelope) : Bytes := putUuid env.requestId ++ putI64 env.issuedAtMs

def decodeEnvelope : Reader CommandEnvelope := do
  return { requestId := ← uuid "request id", issuedAtMs := ← i64 "issued-at millis" }

def encodeOptionalU64 (value : Option UInt64) : Bytes := putOptional putU64 value

def decodeOptionalU64 (what : String) : Reader (Option UInt64) := Reader.optional what (u64 what)

def encodeOptionalUuid (value : Option Uuid) : Bytes := putOptional putUuid value

def decodeOptionalUuid (what : String) : Reader (Option Uuid) := Reader.optional what (uuid what)

def encodeUuidList (values : List Uuid) (maximum : Nat) (what : String) : Except CodecError Bytes :=
  putBoundedList putUuid values maximum what

def decodeUuidList (maximum : Nat) (what : String) : Reader (List Uuid) := boundedList what maximum what (uuid what)

def RangeAssignment.encode (assignment : RangeAssignment) : Bytes :=
  putUuid assignment.topicUuid ++ putUuid assignment.rangeUuid

def RangeAssignment.decode : Reader RangeAssignment := do
  return { topicUuid := ← uuid "assigned topic uuid", rangeUuid := ← uuid "assigned range uuid" }

/-- `encode_range_assignments`; the record codec's `encode_assigned_ranges` is the same. -/
def encodeRangeAssignments (ranges : List RangeAssignment) : Except CodecError Bytes :=
  putBoundedList RangeAssignment.encode ranges MAX_ASSIGNED_RANGES "assigned ranges"

def decodeRangeAssignments : Reader (List RangeAssignment) :=
  boundedList "assigned range count" MAX_ASSIGNED_RANGES "assigned ranges" RangeAssignment.decode

def QuorumAnswer.encode (answer : QuorumAnswer) : Bytes := putUuid answer.nodeUuid ++ putU64 answer.offset

def QuorumAnswer.decode : Reader QuorumAnswer := do
  return { nodeUuid := ← uuid "promotion quorum node", offset := ← u64 "promotion quorum offset" }

def encodePromotionOutcome : PromotionOutcome → Except CodecError Bytes
  | .Established boundaryOffset sealedPrefixEnd quorum votes required => do
    return putU8 1 ++ encodeOptionalU64 boundaryOffset ++ encodeOptionalU64 sealedPrefixEnd
      ++ (← putBoundedList encode quorum MAX_TRANSITION_QUORUM "promotion quorum answers")
      ++ putU32 votes ++ putU32 required
  | .Refused reason => return putU8 2 ++ putU8 reason.wireTag

def decodePromotionOutcome : Reader PromotionOutcome := do
  match ← u8 "promotion outcome" with
  | 1 =>
    return .Established (← decodeOptionalU64 "promotion boundary offset") (← decodeOptionalU64 "promotion sealed prefix end")
      (← boundedList "promotion quorum answer count" MAX_TRANSITION_QUORUM "promotion quorum answers" decode)
      (← u32 "promotion votes") (← u32 "promotion required votes")
  | 2 => return .Refused (← PromotionRefusal.fromWire (← u8 "promotion refusal"))
  | other => fail (.UnknownTag "promotion outcome" other.toUInt32)

/-- A bounded string that must not be empty. -/
def Reader.nonemptyStr (maximum : Nat) (what : String) : Reader String := do
  let value ← boundedStr maximum what
  Parser.failIf (value = "") (.InvalidValue what "must not be empty")
  return value

def putOptionalStr (value : Option String) (maximum : Nat) (what : String) : Except CodecError Bytes := do
  match value with
  | none => return putU8 0
  | some text => return putU8 1 ++ (← putBoundedStr text maximum what)

/-- The extension at the end of a message: absent, or present behind a flag that is then set. -/
def putTrailingStr (value : Option String) (maximum : Nat) (what : String) : Except CodecError Bytes := do
  match value with
  | none => return []
  | some text => return putU8 1 ++ (← putBoundedStr text maximum what)

def Reader.trailingStr (presence : String) (maximum : Nat) (what : String) : Reader (Option String) := do
  if (← Parser.remaining) = 0 then
    return none
  else if ← flag presence then
    return some (← boundedStr maximum what)
  else
    fail (.InvalidValue presence "legacy None must omit the extension")

/-- The ids every cursor commit starts with. -/
def CommitCursorArgs.encodeTarget (cursor : CommitCursorArgs) : Bytes :=
  putUuid cursor.groupUuid ++ putUuid cursor.memberUuid ++ putUuid cursor.topicUuid ++ putUuid cursor.rangeUuid

def CommitCursorArgs.encodeCheckpoint (cursor : CommitCursorArgs) : Bytes :=
  putU64 cursor.topicEpoch ++ putU64 cursor.rangeGeneration ++ putUuid cursor.segmentUuid
    ++ putU64 cursor.segmentGeneration ++ putBytes32 cursor.segmentRoot ++ putU64 cursor.recordOffset
    ++ putU64 cursor.recordIndex ++ encodeOptionalUuid cursor.lineageTransitionId
    ++ encodeOptionalU64 cursor.expectedCheckpointGeneration

def CommitCursorArgs.decodeCheckpoint (groupUuid memberUuid topicUuid rangeUuid : Uuid) : Reader CommitCursorArgs := do
  return {
    groupUuid, memberUuid, topicUuid, rangeUuid
    topicEpoch := ← u64 "topic epoch", rangeGeneration := ← u64 "range generation"
    segmentUuid := ← uuid "segment uuid", segmentGeneration := ← u64 "segment generation"
    segmentRoot := ← Reader.bytes32 "segment root", recordOffset := ← u64 "record offset"
    recordIndex := ← u64 "record index", lineageTransitionId := ← decodeOptionalUuid "lineage transition id"
    expectedCheckpointGeneration := ← decodeOptionalU64 "expected checkpoint generation" }

/-! ## Reading undoes writing -/

section Parts

variable {rest : Bytes} {what : String}

@[simp] theorem NodeState.fromWire_wireTag (state : NodeState) : (fromWire state.wireTag).run rest = .ok (state, rest) := by
  cases state <;> rfl

@[simp] theorem VerificationMethod.fromWire_wireTag (method : VerificationMethod) :
    (fromWire method.wireTag).run rest = .ok (method, rest) := by
  cases method
  rfl

@[simp] theorem PromotionRefusal.fromWire_wireTag (reason : PromotionRefusal) :
    (fromWire reason.wireTag).run rest = .ok (reason, rest) := by
  cases reason <;> rfl

@[simp] theorem decodeEnvelope_append (env) : decodeEnvelope.run (encodeEnvelope env ++ rest) = .ok (env, rest) := by
  simp [decodeEnvelope, encodeEnvelope]

@[simp] theorem decodeOptionalU64_append (value) :
    (decodeOptionalU64 what).run (encodeOptionalU64 value ++ rest) = .ok (value, rest) :=
  optional_append (fun _ _ _ => Reader.u64_append _) ..

@[simp] theorem Reader.optionalUuid_append (presence what value rest) :
    (optional presence (uuid what)).run (putOptional putUuid value ++ rest) = .ok (value, rest) :=
  optional_append (fun content _ _ => uuid_append content) ..

@[simp] theorem decodeOptionalUuid_append (value) :
    (decodeOptionalUuid what).run (encodeOptionalUuid value ++ rest) = .ok (value, rest) :=
  optional_append (fun _ _ _ => uuid_append _) ..

variable {maximum : Nat}

theorem decodeUuidList_append {values : List Uuid} (fits : values.length ≤ maximum) (bound : maximum < 2 ^ 16) (what rest) :
    (decodeUuidList maximum what).run (putList putUuid values ++ rest) = .ok (values, rest) :=
  boundedList_append fits bound (fun _ _ _ => uuid_append _) ..

theorem decodeRangeAssignments_append {ranges : List RangeAssignment} (fits : ranges.length ≤ MAX_ASSIGNED_RANGES)
    (rest) : decodeRangeAssignments.run (putList RangeAssignment.encode ranges ++ rest) = .ok (ranges, rest) :=
  boundedList_append fits (by decide) (fun _ _ _ => by simp [RangeAssignment.decode, RangeAssignment.encode]) ..

@[simp] theorem CommitCursorArgs.decodeCheckpoint_append (cursor : CommitCursorArgs) :
    (decodeCheckpoint cursor.groupUuid cursor.memberUuid cursor.topicUuid cursor.rangeUuid).run
      (cursor.encodeCheckpoint ++ rest) = .ok (cursor, rest) := by
  simp [decodeCheckpoint, encodeCheckpoint]

def PromotionOutcome.Bounded : PromotionOutcome → Prop
  | Established _ _ quorum _ _ => quorum.length ≤ MAX_TRANSITION_QUORUM
  | Refused _ => True

/-- A bounded outcome is read back, and takes at most 797 bytes. -/
theorem PromotionOutcome.Bounded.reads {outcome : PromotionOutcome} (bounded : outcome.Bounded) :
    ∃ bytes, encodePromotionOutcome outcome = .ok bytes ∧ bytes.length ≤ 797
      ∧ ∀ rest, decodePromotionOutcome.run (bytes ++ rest) = .ok (outcome, rest) := by
  cases outcome with
  | Established boundaryOffset sealedPrefixEnd quorum votes required =>
    have answers := boundedList_append bounded (by decide)
      (fun answer _ rest => show decode.run (answer.encode ++ rest) = .ok (answer, rest) by
        simp [decode, encode])
    refine ⟨_, by simp only [encodePromotionOutcome, putBoundedList_eq_ok bounded]; rfl, ?_, fun rest => ?_⟩
    · have listed : (putList encode quorum).length = 2 + 24 * quorum.length :=
        length_putList (fun answer => by simp [encode]) quorum
      have boundary := length_putOptional_le (fun value => Nat.le_of_eq (length_putU64 value)) boundaryOffset
      have ended := length_putOptional_le (fun value => Nat.le_of_eq (length_putU64 value)) sealedPrefixEnd
      simp only [List.length_append, length_putU8, length_putU32, listed, encodeOptionalU64]
      change quorum.length ≤ 32 at bounded
      omega
    · simp [decodePromotionOutcome, answers]
  | Refused reason => exact ⟨_, rfl, by simp, fun rest => by simp [decodePromotionOutcome]⟩

theorem Reader.nonemptyStr_append {value : String} (nonempty : value ≠ "")
    (fits : value.utf8ByteSize ≤ maximum) (bound : maximum < 2 ^ 16) (what rest) :
    (nonemptyStr maximum what).run (putStr value ++ rest) = .ok (value, rest) := by
  simp [nonemptyStr, boundedStr_append fits bound, nonempty]

section Texts

variable {value : Option String} {maximum : Nat} (fits : ∀ text, value = some text → text.utf8ByteSize ≤ maximum)
include fits

theorem putOptionalStr_eq_ok : putOptionalStr value maximum what = .ok (putOptional putStr value) := by
  cases value with
  | none => rfl
  | some text => simp [putOptionalStr, putOptional, putBoundedStr_eq_ok (fits text rfl)]

theorem Reader.optionalStr_append (bound : maximum < 2 ^ 16) (presence what rest) :
    (optional presence (boundedStr maximum what)).run (putOptional putStr value ++ rest) = .ok (value, rest) :=
  optional_append (fun text same => boundedStr_append (fits text same) bound what) ..

/-- The extension is read back at the end of a message, and only there. -/
theorem Reader.trailingStr_reads (bound : maximum < 2 ^ 16) (presence what what') :
    ∃ bytes, putTrailingStr value maximum what' = .ok bytes ∧ bytes.length ≤ 3 + maximum
      ∧ (trailingStr presence maximum what).run bytes = .ok (value, []) := by
  cases value with
  | none => exact ⟨[], rfl, Nat.zero_le _, by simp [trailingStr]⟩
  | some text =>
    have textFits := fits text rfl
    refine ⟨putU8 1 ++ putStr text, by simp [putTrailingStr, putBoundedStr_eq_ok textFits], ?_, ?_⟩
    · simp only [List.length_append, length_putU8, length_putStr]
      omega
    · have present : (flag presence).run (putU8 1 ++ putStr text) = .ok (true, putStr text) := flag_append true
      have whole := boundedStr_append textFits bound what []
      rw [List.append_nil] at whole
      simp [trailingStr, present, whole]

end Texts

/-! ## What is read is within its bounds -/

theorem yields_decodePromotionOutcome : decodePromotionOutcome.Yields PromotionOutcome.Bounded := by
  refine yields_skip fun tag => ?_
  split
  · iterate 2 refine yields_skip fun _ => ?_
    refine yields_bind Reader.yields_boundedList fun quorum fits => ?_
    iterate 2 refine yields_skip fun _ => ?_
    exact yields_pure fits
  · iterate 2 refine yields_skip fun _ => ?_
    exact yields_pure trivial
  · exact yields_fail

theorem Reader.yields_nonemptyStr :
    (nonemptyStr maximum what).Yields fun value => value ≠ "" ∧ value.utf8ByteSize ≤ maximum :=
  yields_bind yields_boundedStr fun _ fits => yields_bind Parser.yields_failIf fun _ nonempty => yields_pure ⟨nonempty, fits⟩

theorem Reader.yields_trailingStr :
    (trailingStr presence maximum what).Yields fun value => ∀ text, value = some text → text.utf8ByteSize ≤ maximum := by
  refine yields_skip fun remaining => ?_
  split
  · exact yields_pure fun _ impossible => nomatch impossible
  · refine yields_skip fun present => ?_
    split
    · refine yields_bind yields_boundedStr fun text fits => yields_pure ?_
      rintro _ ⟨⟩
      exact fits
    · exact yields_fail

end Parts

end VtopEngine.Meta
