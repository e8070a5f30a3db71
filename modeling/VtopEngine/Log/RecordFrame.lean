import VtopEngine.Lib.Hex
import VtopEngine.Log.ProducerState

/-! # Record frames

How a record lies in a segment's file (`codec.rs`, `codec_v2.rs`): magic, length, fixed fields, key,
value and a checksum over all of it.  The two formats differ in their magic and their fixed fields.

* `FrameLayout` — what a format says of its frames; `layoutV1`, `layoutV2`.
* `readFrame_encode` — a frame is read back whole, whatever follows it.
-/

namespace VtopEngine.Log

open Lib List UInt32
open Meta (putUuid length_putUuid)

def CHECKSUM_LEN : Nat := 32
def FRAME_PREFIX_LEN : Nat := 12

/-- BLAKE3 is known to be a function with digests of 32 bytes. -/
structure Blake3 (η : Type) where
  hash : Bytes → η
  asBytes : η → Bytes
  length_asBytes : ∀ digest, (asBytes digest).length = CHECKSUM_LEN

/-- The fields of a record fit the integers they are declared with. -/
structure LogRecord.Typed (record : LogRecord) : Prop where
  epoch : record.producerEpoch < UInt64.size
  sequence : record.sequence < UInt64.size
  timestamp : -2 ^ 63 ≤ record.timestampMillis ∧ record.timestampMillis < 2 ^ 63
  key : record.key.length < UInt64.size
  value : record.value.length < UInt64.size

def i64Bytes (value : Int) : Bytes := beBytes 8 (value % 2 ^ 64).toNat

def ofI64Bytes (bytes : Bytes) : Int :=
  let bits := ofBeBytes bytes
  if bits < 2 ^ 63 then bits else bits - 2 ^ 64

/-- The bytes of a body from `start`, `count` of them. -/
def slice (body : Bytes) (start count : Nat) : Bytes := (body.drop start).take count

/-- The content that duplicate detection compares; the epoch is part of the session and not of it. -/
def contentBytes (record : LogRecord) : Bytes :=
  putUuid record.producerId ++ beBytes 8 record.sequence ++ i64Bytes record.timestampMillis
    ++ beBytes 8 record.key.length ++ record.key ++ beBytes 8 record.value.length ++ record.value

def recordContentHash {η : Type} (blake : Blake3 η) (record : LogRecord) : η := blake.hash (contentBytes record)

structure FrameFields where
  relativeOffset : Nat
  producerId : Meta.Uuid
  (producerEpoch sequence : Nat)
  timestampMillis : Int
  (keyLen valueLen : Nat)

/-- What a format says of its frames. -/
structure FrameLayout where
  magic : Bytes
  fieldsLen : Nat
  fields : LogRecord → Nat → Bytes
  readFields : Bytes → Except String FrameFields

def layoutV1 : FrameLayout where
  magic := [86, 84, 79, 80, 82, 69, 67, 49] -- VTOPREC1
  fieldsLen := 48
  fields record relativeOffset :=
    beBytes 8 relativeOffset ++ putUuid record.producerId ++ beBytes 8 record.sequence
      ++ i64Bytes record.timestampMillis ++ beBytes 4 record.key.length ++ beBytes 4 record.value.length
  readFields body := .ok
    { relativeOffset := ofBeBytes (slice body 0 8)
      producerId := BitVec.ofNat 128 (ofBeBytes (slice body 8 16))
      producerEpoch := 0
      sequence := ofBeBytes (slice body 24 8)
      timestampMillis := ofI64Bytes (slice body 32 8)
      keyLen := ofBeBytes (slice body 40 4)
      valueLen := ofBeBytes (slice body 44 4) }

def layoutV2 : FrameLayout where
  magic := [86, 84, 79, 80, 82, 69, 67, 50] -- VTOPREC2
  fieldsLen := 58
  fields record relativeOffset :=
    beBytes 8 relativeOffset ++ putUuid record.producerId ++ beBytes 8 record.producerEpoch
      -- The attribute bits are reserved.
      ++ beBytes 8 record.sequence ++ beBytes 2 0
      ++ i64Bytes record.timestampMillis ++ beBytes 4 record.key.length ++ beBytes 4 record.value.length
  readFields body :=
    let attributes := slice body 40 2
    if ofBeBytes attributes ≠ 0 then
      let bits := hexEncode attributes
      .error s!"record attributes must be zero in schema v2, got 0x{bits}"
    else .ok
      { relativeOffset := ofBeBytes (slice body 0 8)
        producerId := BitVec.ofNat 128 (ofBeBytes (slice body 8 16))
        producerEpoch := ofBeBytes (slice body 24 8)
        sequence := ofBeBytes (slice body 32 8)
        timestampMillis := ofI64Bytes (slice body 42 8)
        keyLen := ofBeBytes (slice body 50 4)
        valueLen := ofBeBytes (slice body 54 4) }

structure DecodedFrame where
  relativeOffset : Nat
  record : LogRecord
  encoded : Bytes

inductive FrameRead
  | Complete (frame : DecodedFrame)
  | End
  | Torn

namespace FrameLayout

variable {η : Type} (blake : Blake3 η)

def fixedBodyLen (layout : FrameLayout) : Nat := layout.fieldsLen + CHECKSUM_LEN

def payloadLen (record : LogRecord) : Nat := record.key.length + record.value.length

/-- The bytes of a frame that its checksum covers. -/
def authenticated (layout : FrameLayout) (record : LogRecord) (relativeOffset : Nat) : Bytes :=
  layout.magic ++ beBytes 4 (layout.fixedBodyLen + payloadLen record) ++ layout.fields record relativeOffset
    ++ record.key ++ record.value

def encodeRecord (layout : FrameLayout) (record : LogRecord) (relativeOffset maximum : Nat) : Except FileError Bytes :=
  if maximum < payloadLen record then .error (.RecordTooLarge (payloadLen record) maximum)
  else if size ≤ record.key.length ∨ size ≤ record.value.length
      ∨ size ≤ layout.fixedBodyLen + payloadLen record then
    .error (.RecordTooLarge (payloadLen record) maximum)
  else
    let authenticated := layout.authenticated record relativeOffset
    .ok (authenticated ++ blake.asBytes (blake.hash authenticated))

/-- Take the fields, the key and the value out of a body whose checksum holds. -/
def decodeBody (layout : FrameLayout) (position : Nat) (start body : Bytes) : Except FileError FrameRead :=
  let payloadEnd := body.length - CHECKSUM_LEN
  match layout.readFields body with
  | .error reason => .error (.Corrupt position reason)
  | .ok fields =>
    if fields.keyLen + fields.valueLen ≠ payloadEnd - layout.fieldsLen then
      .error (.Corrupt position "record key/value lengths do not match the frame")
    else
      .ok (.Complete
        { relativeOffset := fields.relativeOffset
          record :=
            { producerId := fields.producerId
              producerEpoch := fields.producerEpoch
              sequence := fields.sequence
              timestampMillis := fields.timestampMillis
              key := slice body layout.fieldsLen fields.keyLen
              value := slice body (layout.fieldsLen + fields.keyLen) (payloadEnd - (layout.fieldsLen + fields.keyLen)) }
          encoded := start ++ body })

/-- Read the frame that starts where `bytes` start. -/
def readFrame (layout : FrameLayout) (position maximum : Nat) (bytes : Bytes) : Except FileError FrameRead :=
  let start := bytes.take FRAME_PREFIX_LEN
  if start.isEmpty then .ok .End
  else if start.length < FRAME_PREFIX_LEN then
    -- The file ends inside the prefix.
    let comparable := min start.length layout.magic.length
    if start.take comparable ≠ layout.magic.take comparable then
      .error (.Corrupt position "invalid record magic in incomplete frame")
    else .ok .Torn
  else if start.take layout.magic.length ≠ layout.magic then .error (.Corrupt position "invalid record magic")
  else
    let bodyLen := ofBeBytes (start.drop layout.magic.length)
    if bodyLen < layout.fixedBodyLen ∨ layout.fixedBodyLen + maximum < bodyLen then
      .error (.Corrupt position s!"invalid record frame length {bodyLen}")
    else
      let body := (bytes.drop FRAME_PREFIX_LEN).take bodyLen
      if body.length < bodyLen then .ok .Torn
      else
        let payloadEnd := bodyLen - CHECKSUM_LEN
        if blake.asBytes (blake.hash (start ++ body.take payloadEnd)) ≠ body.drop payloadEnd then
          .error (.Corrupt position "record checksum mismatch")
        else layout.decodeBody position start body

end FrameLayout

/-! ## The fixed fields are read back -/

theorem slice_append_left {first rest : Bytes} {count} (exact : first.length = count) :
    slice (first ++ rest) 0 count = first := by
  subst exact
  simp [slice]

theorem slice_append_right {first rest : Bytes} {count} (past : first.length ≤ start) :
    slice (first ++ rest) start count = slice rest (start - first.length) count := by
  simp [slice, drop_append, drop_eq_nil_of_le past]

@[simp] theorem length_i64Bytes (value) : (i64Bytes value).length = 8 := length_beBytes _ _

theorem ofBeBytes_beBytes_of_lt (fits : value < 256 ^ width) : ofBeBytes (beBytes width value) = value := by
  rw [ofBeBytes_beBytes, Nat.mod_eq_of_lt fits]

theorem ofBeBytes_putUuid (value) : BitVec.ofNat 128 (ofBeBytes (putUuid value)) = value := by
  rw [putUuid, ofBeBytes_beBytes_of_lt (Nat.lt_of_lt_of_le value.isLt (by decide)), BitVec.ofNat_toNat, BitVec.setWidth_eq]

theorem ofI64Bytes_i64Bytes (low : -2 ^ 63 ≤ value) (high : value < 2 ^ 63) : ofI64Bytes (i64Bytes value) = value := by
  have fits : (value % 2 ^ 64).toNat < 256 ^ 8 := by omega
  unfold ofI64Bytes i64Bytes
  rw [ofBeBytes_beBytes_of_lt fits]
  dsimp only
  split_ifs <;> omega

/-- What a layout must give for frames to be read back. -/
structure FrameLayout.Lawful (layout : FrameLayout) (accepts : LogRecord → Prop) : Prop where
  magicLength : layout.magic.length = 8
  length_fields : ∀ record relativeOffset, (layout.fields record relativeOffset).length = layout.fieldsLen
  readFields_fields : ∀ {record relativeOffset} (rest : Bytes), record.Typed → accepts record → relativeOffset < UInt64.size →
    record.key.length < size → record.value.length < size →
    layout.readFields (layout.fields record relativeOffset ++ rest) = .ok
      { relativeOffset
        producerId := record.producerId
        producerEpoch := record.producerEpoch
        sequence := record.sequence
        timestampMillis := record.timestampMillis
        keyLen := record.key.length
        valueLen := record.value.length }

theorem layoutV1_lawful : layoutV1.Lawful fun record => record.producerEpoch = 0 where
  magicLength := rfl
  length_fields _ _ := by simp [layoutV1]
  readFields_fields {record relativeOffset} rest typed epoch offsetFits keyFits valueFits := by
    simp (disch := simp) only [layoutV1, append_assoc, slice_append_left, slice_append_right, length_beBytes,
      length_putUuid, length_i64Bytes, Nat.reduceSub]
    rw [ofBeBytes_beBytes_of_lt offsetFits, ofBeBytes_putUuid, ofBeBytes_beBytes_of_lt typed.sequence,
      ofI64Bytes_i64Bytes typed.timestamp.1 typed.timestamp.2, ofBeBytes_beBytes_of_lt keyFits,
      ofBeBytes_beBytes_of_lt valueFits, epoch]

theorem layoutV2_lawful : layoutV2.Lawful fun _ => True where
  magicLength := rfl
  length_fields _ _ := by simp [layoutV2]
  readFields_fields {record relativeOffset} rest typed _ offsetFits keyFits valueFits := by
    simp (disch := simp) only [layoutV2, append_assoc, slice_append_left, slice_append_right, length_beBytes,
      length_putUuid, length_i64Bytes, Nat.reduceSub]
    rw [ofBeBytes_beBytes_of_lt (by decide), if_neg (by decide), ofBeBytes_beBytes_of_lt offsetFits, ofBeBytes_putUuid,
      ofBeBytes_beBytes_of_lt typed.epoch, ofBeBytes_beBytes_of_lt typed.sequence,
      ofI64Bytes_i64Bytes typed.timestamp.1 typed.timestamp.2, ofBeBytes_beBytes_of_lt keyFits,
      ofBeBytes_beBytes_of_lt valueFits]

/-! ## A frame is read back -/

namespace FrameLayout

variable {η : Type} {blake : Blake3 η} {layout : FrameLayout} {accepts : LogRecord → Prop} {record : LogRecord}
  {relativeOffset maximum : Nat}

/-- The body of a frame: everything behind its prefix. -/
def body (blake : Blake3 η) (layout : FrameLayout) (record : LogRecord) (relativeOffset : Nat) : Bytes :=
  layout.fields record relativeOffset ++ record.key ++ record.value
    ++ blake.asBytes (blake.hash (layout.authenticated record relativeOffset))

/-- A whole frame. -/
def frame (blake : Blake3 η) (layout : FrameLayout) (record : LogRecord) (relativeOffset : Nat) : Bytes :=
  layout.magic ++ beBytes 4 (layout.fixedBodyLen + payloadLen record) ++ layout.body blake record relativeOffset

/-- A record that a frame can hold. -/
structure Fits (layout : FrameLayout) (maximum : Nat) (record : LogRecord) : Prop where
  short : payloadLen record ≤ maximum
  keyFits : record.key.length < size
  valueFits : record.value.length < size
  bodyFits : layout.fixedBodyLen + payloadLen record < size

theorem encodeRecord_eq_ok : layout.encodeRecord blake record relativeOffset maximum = .ok encoded
      ↔ layout.Fits maximum record ∧ encoded = layout.frame blake record relativeOffset := by
  unfold encodeRecord
  split_ifs with long wide
  · refine ⟨fun ok => (by cases ok), fun ⟨fits, _⟩ => ?_⟩
    have := fits.short
    omega
  · refine ⟨fun ok => (by cases ok), fun ⟨fits, _⟩ => ?_⟩
    have := fits.keyFits
    have := fits.valueFits
    have := fits.bodyFits
    omega
  · have assembled : layout.authenticated record relativeOffset
        ++ blake.asBytes (blake.hash (layout.authenticated record relativeOffset))
        = layout.frame blake record relativeOffset := by
      rw [frame, body]
      generalize blake.asBytes (blake.hash (layout.authenticated record relativeOffset)) = digest
      simp only [authenticated, append_assoc]
    simp only [Except.ok.injEq, assembled]
    exact ⟨fun same => ⟨⟨by omega, by omega, by omega, by omega⟩, same.symm⟩, fun encodes => encodes.2.symm⟩

section

variable (lawful : layout.Lawful accepts)

include lawful

theorem Lawful.length_body : (layout.body blake record relativeOffset).length = layout.fixedBodyLen + payloadLen record := by
  simp only [body, length_append, lawful.length_fields, blake.length_asBytes, fixedBodyLen, payloadLen]
  omega

theorem Lawful.length_frame :
    (layout.frame blake record relativeOffset).length = FRAME_PREFIX_LEN + layout.fixedBodyLen + payloadLen record := by
  rw [frame, length_append, length_append, lawful.magicLength, length_beBytes, lawful.length_body, FRAME_PREFIX_LEN]
  omega

theorem Lawful.decodeBody (typed : record.Typed) (accepted : accepts record)
    (offsetFits : relativeOffset < UInt64.size) (fits : layout.Fits maximum record) (start) :
    layout.decodeBody position start (layout.body blake record relativeOffset)
      = .ok (.Complete ⟨relativeOffset, record, start ++ layout.body blake record relativeOffset⟩) := by
  have payloadEnd : (layout.body blake record relativeOffset).length - CHECKSUM_LEN
      = layout.fieldsLen + payloadLen record := by
    rw [lawful.length_body, fixedBodyLen]
    omega
  have fields : (layout.fields record relativeOffset).length ≤ layout.fieldsLen := by rw [lawful.length_fields]
  unfold FrameLayout.decodeBody
  rw [payloadEnd]
  unfold body
  generalize blake.asBytes (blake.hash (layout.authenticated record relativeOffset)) = digest
  simp only [append_assoc]
  rw [lawful.readFields_fields _ typed accepted offsetFits fits.keyFits fits.valueFits]
  dsimp only
  have key : slice (layout.fields record relativeOffset ++ (record.key ++ (record.value ++ digest)))
      layout.fieldsLen record.key.length = record.key := by
    rw [slice_append_right fields, lawful.length_fields, Nat.sub_self, slice_append_left rfl]
  have value : slice (layout.fields record relativeOffset ++ (record.key ++ (record.value ++ digest)))
      (layout.fieldsLen + record.key.length)
      (layout.fieldsLen + payloadLen record - (layout.fieldsLen + record.key.length)) = record.value := by
    have count : layout.fieldsLen + payloadLen record - (layout.fieldsLen + record.key.length) = record.value.length := by
      simp only [payloadLen]
      omega
    rw [count, slice_append_right (Nat.le_trans fields (Nat.le_add_right _ _)), lawful.length_fields,
      Nat.add_sub_cancel_left, slice_append_right (Nat.le_refl _), Nat.sub_self, slice_append_left rfl]
  rw [if_neg (by simp [payloadLen]), key, value]

/-- A frame is read back, whatever follows it. -/
theorem Lawful.readFrame_encode (typed : record.Typed) (accepted : accepts record)
    (offsetFits : relativeOffset < UInt64.size) (fits : layout.Fits maximum record) :
    layout.readFrame blake position maximum (layout.frame blake record relativeOffset ++ rest)
      = .ok (.Complete ⟨relativeOffset, record, layout.frame blake record relativeOffset⟩) := by
  have start : (layout.magic ++ beBytes 4 (layout.fixedBodyLen + payloadLen record)).length = FRAME_PREFIX_LEN := by
    rw [length_append, lawful.magicLength, length_beBytes, FRAME_PREFIX_LEN]
  have taken : (layout.frame blake record relativeOffset ++ rest).take FRAME_PREFIX_LEN
      = layout.magic ++ beBytes 4 (layout.fixedBodyLen + payloadLen record) := by
    rw [frame, ← start, append_assoc, take_left]
  have dropped : (layout.frame blake record relativeOffset ++ rest).drop FRAME_PREFIX_LEN
      = layout.body blake record relativeOffset ++ rest := by
    rw [frame, ← start, append_assoc, drop_left]
  have bodyTaken : (layout.body blake record relativeOffset ++ rest).take (layout.fixedBodyLen + payloadLen record)
      = layout.body blake record relativeOffset := by
    rw [← lawful.length_body, take_left]
  have bodyLen : ofBeBytes (beBytes 4 (layout.fixedBodyLen + payloadLen record))
      = layout.fixedBodyLen + payloadLen record := ofBeBytes_beBytes_of_lt fits.bodyFits
  have short := fits.short
  unfold FrameLayout.readFrame
  rw [taken, dropped]
  dsimp only
  rw [take_left, drop_left, bodyLen, bodyTaken, lawful.length_body]
  have nonempty : (layout.magic ++ beBytes 4 (layout.fixedBodyLen + payloadLen record)).isEmpty = false := by
    rw [isEmpty_eq_false_iff]
    intro empty
    simp [empty, FRAME_PREFIX_LEN] at start
  rw [nonempty, if_neg (by decide), if_neg (by rw [start]; exact Nat.lt_irrefl _), if_neg (not_not.mpr rfl),
    if_neg (by omega), if_neg (Nat.lt_irrefl _)]
  -- The checksum stands behind the payload and covers what is before it.
  have payloadEnd : layout.fixedBodyLen + payloadLen record - CHECKSUM_LEN
      = (layout.fields record relativeOffset ++ record.key ++ record.value).length := by
    simp only [length_append, lawful.length_fields, fixedBodyLen, payloadLen]
    omega
  have covered : layout.magic ++ beBytes 4 (layout.fixedBodyLen + payloadLen record)
      ++ (layout.body blake record relativeOffset).take (layout.fixedBodyLen + payloadLen record - CHECKSUM_LEN)
      = layout.authenticated record relativeOffset := by
    rw [payloadEnd, body, take_left, authenticated]
    simp only [append_assoc]
  have digest : (layout.body blake record relativeOffset).drop (layout.fixedBodyLen + payloadLen record - CHECKSUM_LEN)
      = blake.asBytes (blake.hash (layout.authenticated record relativeOffset)) := by
    rw [payloadEnd, body, drop_left]
  rw [covered, digest, if_neg (not_not.mpr rfl), lawful.decodeBody typed accepted offsetFits fits, frame]

end

end FrameLayout

end VtopEngine.Log
