import VtopEngine.Lib.ByteCodec

/-! # Bounded big-endian wire helpers

The writers and the reader that every codec of the metadata crate is made of
(`wire.rs`).  A writer returns the bytes it appends; the reader is a parser over
the bytes that remain.  Beside each pair stands the law that reading undoes
writing and leaves what follows.
-/

namespace VtopEngine.Meta

open Lib Parser

/-- A UUID is its 128 bits; its sixteen bytes are those bits in big-endian order. -/
abbrev Uuid := BitVec 128

instance : LawfulBEq Uuid := inferInstance

instance : Std.TransOrd Uuid := inferInstance

abbrev Bytes32 := Vector UInt8 32

inductive CodecError
  | Truncated (what : String)
  | Trailing (count : Nat)
  | UnknownTag (what : String) (tag : UInt32)
  | BoundExceeded (what : String) (actual maximum : Nat)
  | InvalidUtf8 (what : String)
  | InvalidValue (what reason : String)
  deriving DecidableEq, Repr

def strBytes (value : String) : Bytes := value.toUTF8.data.toList

def putU8 (value : UInt8) : Bytes := beBytes 1 value.toNat

def putU16 (value : UInt16) : Bytes := beBytes 2 value.toNat

def putU32 (value : UInt32) : Bytes := beBytes 4 value.toNat

def putU64 (value : UInt64) : Bytes := beBytes 8 value.toNat

def putI64 (value : Int64) : Bytes := beBytes 8 value.toUInt64.toNat

def putUuid (value : Uuid) : Bytes := beBytes 16 value.toNat

def putBytes32 (value : Bytes32) : Bytes := value.toList

def putFlag (value : Bool) : Bytes := putU8 (if value then 1 else 0)

def putStr (value : String) : Bytes := putU16 (UInt16.ofNat value.utf8ByteSize) ++ strBytes value

/-- A `u16`-length-delimited string, refused over `maximum`. -/
def putBoundedStr (value : String) (maximum : Nat) (what : String) : Except CodecError Bytes :=
  if value.utf8ByteSize > maximum then
    .error (.BoundExceeded what value.utf8ByteSize maximum)
  else
    .ok (putStr value)

variable {α : Type}

section Containers

/-- Presence byte, then the value only if present. -/
def putOptional (item : α → Bytes) : Option α → Bytes
  | none => putU8 0
  | some value => putU8 1 ++ item value

def putList (item : α → Bytes) (values : List α) : Bytes := putU16 (UInt16.ofNat values.length) ++ values.flatMap item

/-- A `u16`-counted list, refused over `maximum` elements. -/
def putBoundedList (item : α → Bytes) (values : List α) (maximum : Nat) (what : String) : Except CodecError Bytes :=
  if values.length > maximum then
    .error (.BoundExceeded what values.length maximum)
  else
    .ok (putList item values)

end Containers

abbrev Reader (α : Type) := Parser CodecError α

namespace Reader

def take (count : Nat) (what : String) : Reader Bytes := Parser.take count (.Truncated what)

def u8 (what : String) : Reader UInt8 := do return UInt8.ofNat (ofBeBytes (← take 1 what))

def u16 (what : String) : Reader UInt16 := do return UInt16.ofNat (ofBeBytes (← take 2 what))

def u32 (what : String) : Reader UInt32 := do return UInt32.ofNat (ofBeBytes (← take 4 what))

def u64 (what : String) : Reader UInt64 := do return UInt64.ofNat (ofBeBytes (← take 8 what))

def i64 (what : String) : Reader Int64 := do return (← u64 what).toInt64

def uuid (what : String) : Reader Uuid := do return BitVec.ofNat 128 (ofBeBytes (← take 16 what))

def bytes32 (what : String) : Reader Bytes32 := do
  let bytes ← take 32 what
  return Vector.ofFn fun index => bytes.getD index 0

/-- A strict boolean: only the bytes 0 and 1 are flags. -/
def flag (what : String) : Reader Bool := do
  match ← u8 what with
  | 0 => return false
  | 1 => return true
  | _ => Parser.fail (.InvalidValue what "flag byte must be 0 or 1")

/-- The next `length` bytes as a string. -/
def utf8 (length : Nat) (what : String) : Reader String := do
  let bytes ← take length what
  match String.fromUTF8? ⟨bytes.toArray⟩ with
  | some value => return value
  | none => Parser.fail (.InvalidUtf8 what)

def boundedStr (maximum : Nat) (what : String) : Reader String := do
  let length := (← u16 what).toNat
  Parser.failIf (length > maximum) (.BoundExceeded what length maximum)
  utf8 length what

def optional {α : Type} (presence : String) (item : Reader α) : Reader (Option α) := do
  if ← flag presence then
    return some (← item)
  else
    return none

def boundedList {α : Type} (count : String) (maximum : Nat) (what : String) (item : Reader α) : Reader (List α) := do
  let length := (← u16 count).toNat
  Parser.failIf (length > maximum) (.BoundExceeded what length maximum)
  Parser.times item length

def finish : Reader Unit := fun bytes =>
  if bytes.length ≠ 0 then .error (.Trailing bytes.length) else .ok ((), bytes)

/-- A top-level decode: one value and no trailing bytes. -/
def decodeAll {α : Type} (reader : Reader α) (bytes : Bytes) : Except CodecError α := do
  let (value, _) ← (do let value ← reader; finish; return value).run bytes
  return value

end Reader

/-! ## Reading undoes writing -/

@[simp] theorem length_strBytes (value) : (strBytes value).length = value.utf8ByteSize := rfl

theorem strBytes_inj : strBytes first = strBytes second ↔ first = second := by
  rw [← String.toByteArray_inj, ByteArray.ext_iff, ← Array.toList_inj]
  rfl

@[simp] theorem length_putU8 (value) : (putU8 value).length = 1 := length_beBytes _ _

@[simp] theorem length_putU16 (value) : (putU16 value).length = 2 := length_beBytes _ _

@[simp] theorem length_putU32 (value) : (putU32 value).length = 4 := length_beBytes _ _

@[simp] theorem length_putU64 (value) : (putU64 value).length = 8 := length_beBytes _ _

@[simp] theorem length_putI64 (value) : (putI64 value).length = 8 := length_beBytes _ _

@[simp] theorem length_putUuid (value) : (putUuid value).length = 16 := length_beBytes _ _

@[simp] theorem length_putBytes32 (value) : (putBytes32 value).length = 32 := by simp [putBytes32]

@[simp] theorem length_putFlag (value) : (putFlag value).length = 1 := length_beBytes _ _

@[simp] theorem length_putStr (value) : (putStr value).length = 2 + value.utf8ByteSize := by simp [putStr]

variable {what : String}

theorem putBoundedStr_eq_ok {value : String} (fits : value.utf8ByteSize ≤ maximum) :
    putBoundedStr value maximum what = .ok (putStr value) :=
  if_neg (Nat.not_lt.mpr fits)

section Containers

variable {item : α → Bytes}

theorem putBoundedList_eq_ok {values : List α} (fits : values.length ≤ maximum) :
    putBoundedList item values maximum what = .ok (putList item values) :=
  if_neg (Nat.not_lt.mpr fits)

theorem putBoundedList_fits (written : putBoundedList item values maximum what = .ok bytes) :
    values.length ≤ maximum ∧ bytes = putList item values := by
  unfold putBoundedList at written
  split at written
  · cases written
  · next fits =>
    cases written
    exact ⟨Nat.not_lt.mp fits, rfl⟩

theorem length_flatMap_fixed (fixed : ∀ value, (item value).length = width) (values : List α) :
    (values.flatMap item).length = width * values.length := by
  induction values with
  | nil => rfl
  | cons value values ih =>
    rw [List.flatMap_cons, List.length_append, fixed, ih, List.length_cons, Nat.mul_succ, Nat.add_comm]

theorem length_putList (fixed : ∀ value, (item value).length = width) (values) :
    (putList item values).length = 2 + width * values.length := by
  rw [putList, List.length_append, length_putU16, length_flatMap_fixed fixed]

theorem length_putOptional_le (fits : ∀ value, (item value).length ≤ width) (value) :
    (putOptional item value).length ≤ 1 + width := by
  cases value with
  | none => simp [putOptional]
  | some value => simpa [putOptional] using fits value

end Containers

namespace Reader

variable {rest : Bytes} {bytes : Bytes}

@[simp] theorem take_append (exact : bytes.length = count) : (take count what).run (bytes ++ rest) = .ok (bytes, rest) :=
  Parser.take_append exact

@[simp] theorem u8_append (value) : (u8 what).run (putU8 value ++ rest) = .ok (value, rest) := by
  simp [u8, putU8, ofBeBytes_beBytes]

@[simp] theorem u16_append (value) : (u16 what).run (putU16 value ++ rest) = .ok (value, rest) := by
  simp [u16, putU16, ofBeBytes_beBytes]

@[simp] theorem u32_append (value) : (u32 what).run (putU32 value ++ rest) = .ok (value, rest) := by
  simp [u32, putU32, ofBeBytes_beBytes]

@[simp] theorem u64_append (value) : (u64 what).run (putU64 value ++ rest) = .ok (value, rest) := by
  simp [u64, putU64, ofBeBytes_beBytes]

@[simp] theorem i64_append (value) : (i64 what).run (putI64 value ++ rest) = .ok (value, rest) := by
  have word : (u64 what).run (putI64 value ++ rest) = .ok (value.toUInt64, rest) := u64_append _
  simp [i64, word]

@[simp] theorem uuid_append (value) : (uuid what).run (putUuid value ++ rest) = .ok (value, rest) := by
  have fits : value.toNat < 256 ^ 16 := value.isLt
  have spelled : ofBeBytes (putUuid value) = value.toNat := by rw [putUuid, ofBeBytes_beBytes, Nat.mod_eq_of_lt fits]
  simp [uuid, spelled]

@[simp] theorem bytes32_append (value) : (bytes32 what).run (putBytes32 value ++ rest) = .ok (value, rest) := by
  have elements : (Vector.ofFn fun index : Fin 32 => (putBytes32 value).getD index 0) = value := by
    ext index bound
    simp [putBytes32]
  simp only [bytes32, StateT.run_bind, take_append (length_putBytes32 value), ok_bind, elements, StateT.run_pure, pure_eq_ok]

@[simp] theorem flag_append (value) : (flag what).run (putFlag value ++ rest) = .ok (value, rest) := by
  cases value <;> simp [flag, putFlag]

@[simp] theorem utf8_append (value : String) (exact : value.utf8ByteSize = length) :
    (utf8 length what).run (strBytes value ++ rest) = .ok (value, rest) := by
  have decoded : String.fromUTF8? ⟨(strBytes value).toArray⟩ = some value := by
    simp only [strBytes, Array.toArray_toList, String.fromUTF8?]
    exact dif_pos value.isValidUTF8
  simp [utf8, exact, decoded]

theorem boundedStr_append {value : String} (fits : value.utf8ByteSize ≤ maximum) (bound : maximum < 2 ^ 16) (what rest) :
    (boundedStr maximum what).run (putStr value ++ rest) = .ok (value, rest) := by
  have length : (UInt16.ofNat value.utf8ByteSize).toNat = value.utf8ByteSize := by
    simp only [UInt16.toNat_ofNat']
    omega
  simp [boundedStr, putStr, length, Nat.not_lt.mpr fits]

section Containers

variable {item : Reader α} {put : α → Bytes}

theorem optional_append
    (reads : ∀ content, value = some content → ∀ rest, item.run (put content ++ rest) = .ok (content, rest))
    (presence rest) : (optional presence item).run (putOptional put value ++ rest) = .ok (value, rest) := by
  cases value with
  | none => simp [optional, putOptional, flag]
  | some content => simp [optional, putOptional, flag, reads content rfl]

theorem boundedList_append {values : List α} (fits : values.length ≤ maximum) (bound : maximum < 2 ^ 16)
    (reads : ∀ value ∈ values, ∀ rest, item.run (put value ++ rest) = .ok (value, rest)) (count what rest) :
    (boundedList count maximum what item).run (putList put values ++ rest) = .ok (values, rest) := by
  have length : (UInt16.ofNat values.length).toNat = values.length := by
    simp only [UInt16.toNat_ofNat']
    omega
  simp [boundedList, putList, length, Nat.not_lt.mpr fits, times_append reads]

end Containers

/-- What was written, with nothing behind it, is read back whole. -/
def Undoes {α : Type} (reader : Reader α) (written : Except CodecError Bytes) (value : α) : Prop :=
  ∃ bytes, written = .ok bytes ∧ reader.run (bytes ++ []) = .ok (value, [])

theorem Undoes.map {α β : Type} {reader : Reader α} {value}
    (undoes : reader.Undoes written value) (change : α → β) : (change <$> reader).Undoes written (change value) := by
  obtain ⟨bytes, wrote, reads⟩ := undoes
  exact ⟨bytes, wrote, by rw [StateT.run_map, reads]; rfl⟩

theorem decodeAll_of_run {α : Type} {reader : Reader α} {value}
    (read : reader.run bytes = .ok (value, [])) : reader.decodeAll bytes = .ok value := by
  have finished : finish.run [] = .ok ((), []) := rfl
  simp [decodeAll, read, finished]

/-! ## What is read is within its bounds -/

theorem yields_utf8 : (utf8 length what).Yields fun value => value.utf8ByteSize = length := by
  refine yields_bind yields_take fun bytes exact => ?_
  split
  · next value decoded =>
    refine yields_pure ?_
    unfold String.fromUTF8? at decoded
    split at decoded
    · cases decoded
      exact exact
    · cases decoded
  · exact yields_fail

theorem yields_boundedStr : (boundedStr maximum what).Yields fun value => value.utf8ByteSize ≤ maximum := by
  refine yields_skip fun length => yields_bind yields_failIf fun _ fits => ?_
  intro bytes value rest ran
  rw [yields_utf8 bytes value rest ran]
  exact Nat.not_lt.mp fits

section Containers

theorem yields_boundedList : (boundedList count maximum what item).Yields fun values => values.length ≤ maximum := by
  refine yields_skip fun length => yields_bind yields_failIf fun _ fits => ?_
  intro bytes values rest ran
  rw [(yields_times yields_true _ bytes values rest ran).1]
  exact Nat.not_lt.mp fits

theorem yields_optional {accepted : α → Prop} (reads : item.Yields accepted) :
    (optional presence item).Yields fun value => ∀ content, value = some content → accepted content := by
  refine yields_skip fun present => ?_
  split
  · refine yields_bind reads fun content good => yields_pure ?_
    rintro _ ⟨⟩
    exact good
  · exact yields_pure fun _ impossible => nomatch impossible

end Containers

theorem of_decodeAll {α : Type} {reader : Reader α} {accepted : α → Prop} {value}
    (reads : reader.Yields accepted) (decoded : reader.decodeAll bytes = .ok value) : accepted value := by
  unfold decodeAll at decoded
  cases ran : (do let value ← reader; finish; return value : Reader α).run bytes with
  | error error =>
    rw [ran] at decoded
    cases decoded
  | ok answer =>
    obtain ⟨answer, rest⟩ := answer
    rw [ran] at decoded
    cases decoded
    refine yields_bind reads (fun read good => ?_) _ _ _ ran
    exact yields_skip fun _ => yields_pure good

end Reader

end VtopEngine.Meta
