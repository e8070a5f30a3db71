import VtopEngine.Meta.Machine
import VtopEngine.Meta.ResponseCodec
import VtopEngine.Meta.ValueCodec

/-! # Snapshots

`encode_snapshot` and `decode_snapshot` (`state.rs`): the version, the records in
key order, and the dedup FIFO with its responses.  The reader accepts a canonical
snapshot only: strictly ascending keys, each of the category of its value, every
length within its bound, no request listed twice and no trailing bytes.

* `MetaStateMachine.Carriable` — what the writer relies on;
* `MetaStateMachine.decodeSnapshot_encodeSnapshot` — a carriable machine with
  storable records is written and read back as it was;
* `MetaStateMachine.storable_of_restores` — a carriable machine that is written and
  read at all has storable records.
-/

namespace VtopEngine.Meta

open Lib List MetaValue Reader Std ExtTreeMap UInt32
open Lib.Parser (bind_eq_ok failIf run_failIf)

def SNAPSHOT_PAYLOAD_VERSION : UInt16 := 1

def MAX_SNAPSHOT_KEY_BYTES : Nat := 256

def MAX_SNAPSHOT_RESPONSE_BYTES : Nat := 1024

def MAX_SNAPSHOT_RECORDS : Nat := 2 ^ 24

/-! ## Writing -/

def encodeEntry (key : Bytes) (value : MetaValue) : Except CodecError Bytes :=
  if key.length > MAX_SNAPSHOT_KEY_BYTES then
    .error (.BoundExceeded "snapshot key" key.length MAX_SNAPSHOT_KEY_BYTES)
  else do
    let encoded ← value.encode
    return putU16 (UInt16.ofNat key.length) ++ key ++ putU32 (ofNat encoded.length) ++ encoded

def encodeEntries : List (Bytes × MetaValue) → Except CodecError Bytes
  | [] => return []
  | (key, value) :: rest => do return (← encodeEntry key value) ++ (← encodeEntries rest)

def encodeRecords (records : Records) : Except CodecError Bytes :=
  if records.map.size > MAX_SNAPSHOT_RECORDS then
    .error (.BoundExceeded "snapshot record count" records.map.size MAX_SNAPSHOT_RECORDS)
  else do
    return putU32 (ofNat records.map.size) ++ (← encodeEntries records.entries)

/-- The loop over the FIFO; a request without a response is the source's `expect`. -/
def encodeAnswers (responses : ExtTreeMap Uuid MetadataResponse) : List Uuid → Except (Abort CodecError) Bytes
  | [] => return []
  | requestId :: rest =>
    match responses[requestId]? with
    | none => .error (.panicked "dedup order and dedup responses always agree")
    | some response => do
      let encoded ← response.encode.mapError Abort.rejected
      return putUuid requestId ++ putU32 (ofNat encoded.length) ++ encoded ++ (← encodeAnswers responses rest)

def MetaStateMachine.encodeSnapshot (machine : MetaStateMachine) : Except (Abort CodecError) Bytes := do
  let records ← (encodeRecords machine.records).mapError Abort.rejected
  let answers ← encodeAnswers machine.dedupResponses machine.dedupOrder
  return putU16 SNAPSHOT_PAYLOAD_VERSION ++ records ++ putU32 (ofNat machine.dedupOrder.length) ++ answers

/-! ## Reading -/

/-- A transition's key names the epoch it minted, and a mint moves the epoch forward. -/
def epochsDisagree : MetaKey → MetaValue → Bool
  | .RangeTransition _ _ fencingEpoch, .RangeTransition transition =>
    transition.epochTo != fencingEpoch || transition.epochTo ≤ transition.epochFrom
  | _, _ => false

def notAfter (previousKey : Option Bytes) (key : Bytes) : Bool := previousKey.any fun prior => compare prior key != .lt

def decodeEntry (previousKey : Option Bytes) : Reader (Bytes × MetaValue) := do
  let keyLen := (← u16 "snapshot key length").toNat
  failIf (keyLen > MAX_SNAPSHOT_KEY_BYTES) (.BoundExceeded "snapshot key" keyLen MAX_SNAPSHOT_KEY_BYTES)
  let key ← take keyLen "snapshot key"
  failIf (notAfter previousKey key = true) (.InvalidValue "snapshot key order" "keys must be strictly ascending")
  let typedKey ← StateT.lift (MetaKey.decode key)
  let valueLen := (← u32 "snapshot value length").toNat
  failIf (valueLen > MAX_SNAPSHOT_VALUE_BYTES) (.BoundExceeded "snapshot value" valueLen MAX_SNAPSHOT_VALUE_BYTES)
  let value ← StateT.lift (decode (← take valueLen "snapshot value"))
  failIf (keyMatchesValue typedKey value = false)
    (.InvalidValue "snapshot record" "value type does not match its key category")
  failIf (epochsDisagree typedKey value = true)
    (.InvalidValue "snapshot record" "transition epochs disagree with the key or do not advance")
  return (key, value)

def decodeEntries : Nat → Option Bytes → Records → Reader Records
  | 0, _, records => return records
  | count + 1, previousKey, records => do
    let (key, value) ← decodeEntry previousKey
    decodeEntries count (some key) ⟨records.map.insert key value⟩

def decodeAnswer : Reader (Uuid × MetadataResponse) := do
  let requestId ← uuid "dedup request id"
  let responseLen := (← u32 "dedup response length").toNat
  failIf (responseLen > MAX_SNAPSHOT_RESPONSE_BYTES)
    (.BoundExceeded "dedup response" responseLen MAX_SNAPSHOT_RESPONSE_BYTES)
  let response ← StateT.lift (MetadataResponse.decode (← take responseLen "dedup response"))
  return (requestId, response)

def decodeAnswers : Nat → List Uuid → ExtTreeMap Uuid MetadataResponse →
    Reader (List Uuid × ExtTreeMap Uuid MetadataResponse)
  | 0, order, responses => return (order, responses)
  | count + 1, order, responses => do
    let (requestId, response) ← decodeAnswer
    failIf (requestId ∈ responses) (.InvalidValue "dedup entry" "request id appears twice in the FIFO")
    decodeAnswers count (order ++ [requestId]) (responses.insert requestId response)

def readSnapshot : Reader MetaStateMachine := do
  let version ← u16 "snapshot payload version"
  failIf (version ≠ SNAPSHOT_PAYLOAD_VERSION) (.UnknownTag "snapshot payload version" version.toUInt32)
  let recordCount := (← u32 "snapshot record count").toNat
  failIf (recordCount > MAX_SNAPSHOT_RECORDS) (.BoundExceeded "snapshot record count" recordCount MAX_SNAPSHOT_RECORDS)
  let records ← decodeEntries recordCount none .empty
  let dedupCount := (← u32 "dedup entry count").toNat
  failIf (dedupCount > DEDUP_CAPACITY) (.BoundExceeded "dedup entry count" dedupCount DEDUP_CAPACITY)
  let (dedupOrder, dedupResponses) ← decodeAnswers dedupCount [] ∅
  return { records, dedupOrder, dedupResponses }

def MetaStateMachine.decodeSnapshot (bytes : Bytes) : Except CodecError MetaStateMachine := readSnapshot.decodeAll bytes

/-! ## Entries -/

/-- An entry as the state machine stores it. -/
def EntryCarried (entry : Bytes × MetaValue) : Prop :=
  ∃ key : MetaKey, key.encode = entry.1 ∧ key.NameFits ∧ keyMatchesValue key entry.2 = true
    ∧ epochsDisagree key entry.2 = false

/-- A value that is storable, or a replica set that only the reader refuses. -/
def MetaValue.Writable (value : MetaValue) : Prop :=
  value.Storable ∨ ∃ set, value = .RangeReplicaSet set ∧ RangeReplicaSetRecord.improper set.members

variable {value : MetaValue} {previousKey : Option Bytes}

section Entry

theorem encodeEntry_inv (written : encodeEntry key value = .ok bytes) : ∃ encoded, value.encode = .ok encoded
      ∧ bytes = putU16 (UInt16.ofNat key.length) ++ key ++ putU32 (ofNat encoded.length) ++ encoded := by
  unfold encodeEntry at written
  split at written
  · cases written
  · obtain ⟨encoded, wrote, ⟨⟩⟩ := bind_eq_ok.mp written
    exact ⟨encoded, wrote, rfl⟩

theorem encodeEntry_eq (carried : EntryCarried (key, value)) (written : value.encode = .ok encoded) : encodeEntry key value
      = .ok (putU16 (UInt16.ofNat key.length) ++ key ++ putU32 (ofNat encoded.length) ++ encoded) := by
  obtain ⟨typedKey, rfl, fits, -, -⟩ := carried
  have bounded : ¬ typedKey.encode.length > MAX_SNAPSHOT_KEY_BYTES :=
    Nat.not_lt.mpr (Nat.le_trans (MetaKey.length_encode fits) (by decide))
  simp only [encodeEntry, if_neg bounded, written]
  rfl

/-- A count within its limit is read back as it was written, and passes the check. -/
theorem toNat_ofNat_within {count} (fits : count ≤ limit) (small : limit < 2 ^ 32) :
    (ofNat count).toNat = count ∧ ¬ (ofNat count).toNat > limit := by
  rw [toNat_ofNat']
  omega

/-- Reading an entry comes down to reading its value: everything before is as written. -/
theorem decodeEntry_append {typedKey : MetaKey} (nameFits : typedKey.NameFits)
    (ascends : notAfter previousKey typedKey.encode = false)
    (fits : encoded.length ≤ MAX_SNAPSHOT_VALUE_BYTES) (rest) :
    (decodeEntry previousKey).run (putU16 (UInt16.ofNat typedKey.encode.length) ++ typedKey.encode
        ++ putU32 (ofNat encoded.length) ++ encoded ++ rest)
      = (do
          let value ← StateT.lift (decode encoded)
          failIf (keyMatchesValue typedKey value = false)
            (.InvalidValue "snapshot record" "value type does not match its key category")
          failIf (epochsDisagree typedKey value = true)
            (.InvalidValue "snapshot record" "transition epochs disagree with the key or do not advance")
          return (typedKey.encode, value) : Reader (Bytes × MetaValue)).run rest := by
  have keyBounded := MetaKey.length_encode nameFits
  have keyLen : (UInt16.ofNat typedKey.encode.length).toNat = typedKey.encode.length := by
    rw [UInt16.toNat_ofNat']
    omega
  have keyFits : ¬ (UInt16.ofNat typedKey.encode.length).toNat > MAX_SNAPSHOT_KEY_BYTES := by
    rw [keyLen, MAX_SNAPSHOT_KEY_BYTES]
    omega
  obtain ⟨valueLen, valueFits⟩ := toNat_ofNat_within fits (by decide)
  have ordered : ¬ notAfter previousKey typedKey.encode = true := by simp [ascends]
  simp [decodeEntry, Reader.take, keyLen, run_failIf keyFits, run_failIf ordered,
    MetaKey.decode_encode nameFits, valueLen, run_failIf valueFits]

theorem decodeEntry_reads (carried : EntryCarried (key, value)) (ascends : notAfter previousKey key = false)
    (fits : encoded.length ≤ MAX_SNAPSHOT_VALUE_BYTES) (read : decode encoded = .ok value) (rest) :
    (decodeEntry previousKey).run
        (putU16 (UInt16.ofNat key.length) ++ key ++ putU32 (ofNat encoded.length) ++ encoded ++ rest)
      = .ok ((key, value), rest) := by
  obtain ⟨typedKey, rfl, nameFits, kind, epochs⟩ := carried
  rw [decodeEntry_append nameFits ascends fits]
  simp [read, kind, epochs]

theorem decodeEntry_refuses (carried : EntryCarried (key, value))
    (ascends : notAfter previousKey key = false) (fits : encoded.length ≤ MAX_SNAPSHOT_VALUE_BYTES)
    (refused : decode encoded = .error error) (rest) : (decodeEntry previousKey).run
        (putU16 (UInt16.ofNat key.length) ++ key ++ putU32 (ofNat encoded.length) ++ encoded ++ rest)
      = .error error := by
  obtain ⟨typedKey, rfl, nameFits, -, -⟩ := carried
  rw [decodeEntry_append nameFits ascends fits]
  simp [refused]

end Entry

/-! ## Records -/

section Entries

variable {entries : List (Bytes × MetaValue)}

/-- The entries from `previousKey` on, as a snapshot lists them. -/
structure Listed (previousKey : Option Bytes) (entries : List (Bytes × MetaValue)) : Prop where
  ordered : entries.Pairwise fun first second => compare first.1 second.1 = .lt
  ascends : ∀ prior ∈ previousKey, ∀ entry ∈ entries, compare prior entry.1 = .lt
  carried : ∀ entry ∈ entries, EntryCarried entry

theorem Listed.head (listed : Listed previousKey ((key, value) :: entries)) :
    EntryCarried (key, value) ∧ notAfter previousKey key = false := by
  refine ⟨listed.carried _ mem_cons_self, ?_⟩
  cases previousKey with
  | none => rfl
  | some prior => simp [notAfter, listed.ascends prior rfl _ mem_cons_self]

theorem Listed.tail (listed : Listed previousKey ((key, value) :: entries)) : Listed (some key) entries := by
  obtain ⟨first, rest⟩ := pairwise_cons.mp listed.ordered
  refine ⟨rest, ?_, fun entry member => listed.carried entry (mem_cons_of_mem _ member)⟩
  rintro prior ⟨⟩ entry member
  exact first entry member

/-- Storable entries are written, and read back into the map they came from. -/
theorem decodeEntries_append (listed : Listed previousKey entries)
    (storable : ∀ entry ∈ entries, entry.2.Storable) (records : Records) :
    ∃ bytes, encodeEntries entries = .ok bytes ∧ ∀ rest,
      (decodeEntries entries.length previousKey records).run (bytes ++ rest)
        = .ok (⟨records.map.insertMany entries⟩, rest) := by
  induction entries generalizing previousKey records with
  | nil => exact ⟨[], rfl, fun rest => by simp [decodeEntries]⟩
  | cons entry entries ih =>
    obtain ⟨key, value⟩ := entry
    obtain ⟨carried, ascends⟩ := listed.head
    obtain ⟨encoded, written, fits, read⟩ := decode_encode (storable _ mem_cons_self)
    obtain ⟨bytes, others, reads⟩ := ih listed.tail
      (fun entry member => storable entry (mem_cons_of_mem _ member)) ⟨records.map.insert key value⟩
    refine ⟨_, by simp only [encodeEntries, encodeEntry_eq carried written, others]; rfl, fun rest => ?_⟩
    rw [append_assoc, length_cons, decodeEntries, StateT.run_bind, decodeEntry_reads carried ascends fits read]
    simp [reads, insertMany_cons]

/-- Entries that are written and read at all are storable: what only the reader
    refuses stops it. -/
theorem storable_of_decodeEntries (listed : Listed previousKey entries)
    (writable : ∀ entry ∈ entries, entry.2.Writable) (written : encodeEntries entries = .ok bytes)
    (read : (decodeEntries entries.length previousKey records).run (bytes ++ rest) = .ok result) :
    ∀ entry ∈ entries, entry.2.Storable := by
  induction entries generalizing previousKey records bytes with
  | nil => exact fun entry member => absurd member not_mem_nil
  | cons entry entries ih =>
    obtain ⟨key, value⟩ := entry
    obtain ⟨carried, ascends⟩ := listed.head
    obtain ⟨first, wroteFirst, wroteRest⟩ := bind_eq_ok.mp written
    obtain ⟨others, wroteOthers, ⟨⟩⟩ := bind_eq_ok.mp wroteRest
    obtain ⟨encoded, wroteValue, rfl⟩ := encodeEntry_inv wroteFirst
    rw [append_assoc, length_cons, decodeEntries, StateT.run_bind] at read
    obtain storable | ⟨set, rfl, improper⟩ := writable _ mem_cons_self
    · obtain ⟨_, wroteAgain, fits, reads⟩ := decode_encode storable
      cases wroteValue.symm.trans wroteAgain
      rw [decodeEntry_reads carried ascends fits reads] at read
      exact forall_mem_cons.mpr ⟨storable, ih listed.tail
        (fun entry member => writable entry (mem_cons_of_mem _ member)) wroteOthers read⟩
    · obtain ⟨fits, refused⟩ := decode_encode_improper improper wroteValue
      rw [decodeEntry_refuses carried ascends fits refused] at read
      cases read

end Entries

/-! ## Answers -/

section Answers

theorem decodeAnswer_append {encoded : Bytes} (requestId)
    (fits : encoded.length ≤ 262) (read : MetadataResponse.decode encoded = .ok response) (rest) :
    decodeAnswer.run (putUuid requestId ++ putU32 (ofNat encoded.length) ++ encoded ++ rest)
      = .ok ((requestId, response), rest) := by
  have within : encoded.length ≤ MAX_SNAPSHOT_RESPONSE_BYTES := Nat.le_trans fits (by decide)
  obtain ⟨responseLen, bounded⟩ := toNat_ofNat_within within (by decide)
  simp [decodeAnswer, Reader.take, responseLen, run_failIf bounded, read]

/-- The FIFO is written, and read back in order with the answers it had. -/
theorem decodeAnswers_append (held : ∀ requestId ∈ requestIds, requestId ∈ table) (distinct : requestIds.Nodup)
    (isNew : ∀ requestId ∈ requestIds, requestId ∉ responses) (order) :
    ∃ bytes, encodeAnswers table requestIds = .ok bytes ∧ ∃ read : ExtTreeMap Uuid MetadataResponse,
      (∀ requestId, read[requestId]? = if requestId ∈ requestIds then table[requestId]? else responses[requestId]?)
        ∧ ∀ rest, (decodeAnswers requestIds.length order responses).run (bytes ++ rest)
          = .ok ((order ++ requestIds, read), rest) := by
  induction requestIds generalizing order responses with
  | nil => exact ⟨[], rfl, responses, by simp, by simp [decodeAnswers]⟩
  | cons requestId requestIds ih =>
    obtain ⟨response, found⟩ : ∃ response, table[requestId]? = some response :=
      Option.isSome_iff_exists.mp (mem_iff_isSome_getElem?.mp (held _ mem_cons_self))
    obtain ⟨encoded, written, fits, decoded⟩ := response.decode_encode
    obtain ⟨absent, distinct⟩ := nodup_cons.mp distinct
    have isNewRest : ∀ other ∈ requestIds, other ∉ responses.insert requestId response := by
      intro other member inserted
      obtain same | before := mem_insert.mp inserted
      · exact absent (LawfulEqCmp.eq_of_compare same ▸ member)
      · exact isNew other (mem_cons_of_mem _ member) before
    obtain ⟨bytes, others, read, lookups, reads⟩ := ih
      (fun other member => held other (mem_cons_of_mem _ member)) distinct isNewRest (order ++ [requestId])
    refine ⟨_, by simp only [encodeAnswers, found, written, others]; rfl, read, fun other => ?_, fun rest => ?_⟩
    · rw [lookups, ExtTreeMap.getElem?_insert]
      by_cases same : requestId = other
      · subst same
        simp [absent, found]
      · simp [same, Ne.symm same]
    · have fresh := isNew requestId mem_cons_self
      rw [append_assoc, length_cons, decodeAnswers, StateT.run_bind, decodeAnswer_append requestId fits decoded]
      simp [run_failIf fresh, reads]

end Answers

/-! ## Machines -/

namespace MetaStateMachine

/-- What the snapshot writer relies on: entries of the state machine's own making, and
    a FIFO whose requests are distinct, bounded in number and answered. -/
structure Carriable (machine : MetaStateMachine) : Prop where
  entries : ∀ entry ∈ machine.records.entries, EntryCarried entry
  distinct : machine.dedupOrder.Nodup
  bounded : machine.dedupOrder.length ≤ DEDUP_CAPACITY
  answered : ∀ requestId, requestId ∈ machine.dedupOrder ↔ requestId ∈ machine.dedupResponses

variable {machine : MetaStateMachine}

theorem Carriable.listed (carriable : machine.Carriable) : Listed none machine.records.entries where
  ordered := ordered_keys_toList
  ascends := fun _ impossible => nomatch impossible
  carried := carriable.entries

theorem insertMany_entries (records : Records) : (⟨Records.empty.map.insertMany records.entries⟩ : Records) = records := by
  refine congrArg Records.mk (ext_getElem? fun key => ?_)
  cases found : records.map[key]? with
  | some value =>
    exact getElem?_insertMany_list_of_mem ReflCmp.compare_self distinct_keys_toList (Records.mem_entries.mpr found)
  | none =>
    rw [getElem?_insertMany_list_of_contains_eq_false]
    · simp [Records.empty]
    · rw [contains_eq_mem, decide_eq_false_iff_not, mem_map]
      rintro ⟨⟨_, value⟩, member, rfl⟩
      rw [Records.mem_entries.mp member] at found
      cases found

theorem encodeRecords_eq {records : Records} (few : records.map.size ≤ MAX_SNAPSHOT_RECORDS)
    (written : encodeEntries records.entries = .ok entries) :
    encodeRecords records = .ok (putU32 (ofNat records.map.size) ++ entries) := by
  rw [encodeRecords, if_neg (Nat.not_lt.mpr few), written]
  rfl

/-- The parts a snapshot was put together from. -/
theorem encodeSnapshot_inv (written : machine.encodeSnapshot = .ok bytes) :
    machine.records.map.size ≤ MAX_SNAPSHOT_RECORDS ∧ ∃ entries answers, encodeEntries machine.records.entries = .ok entries
        ∧ encodeAnswers machine.dedupResponses machine.dedupOrder = .ok answers
        ∧ bytes = putU16 SNAPSHOT_PAYLOAD_VERSION ++ (putU32 (ofNat machine.records.map.size) ++ entries)
          ++ putU32 (ofNat machine.dedupOrder.length) ++ answers := by
  obtain ⟨records, wroteRecords, rest⟩ := bind_eq_ok.mp written
  obtain ⟨answers, wroteAnswers, ⟨⟩⟩ := bind_eq_ok.mp rest
  unfold encodeRecords at wroteRecords
  split at wroteRecords
  · cases wroteRecords
  · next few =>
    cases wroteEntries : encodeEntries machine.records.entries with
    | error error =>
      rw [wroteEntries] at wroteRecords
      cases wroteRecords
    | ok entries =>
      rw [wroteEntries] at wroteRecords
      cases wroteRecords
      exact ⟨Nat.not_lt.mp few, entries, answers, rfl, wroteAnswers, rfl⟩

/-- Reading a snapshot up to its records. -/
theorem readSnapshot_append {size} (few : size ≤ MAX_SNAPSHOT_RECORDS) (rest) :
    readSnapshot.run (putU16 SNAPSHOT_PAYLOAD_VERSION ++ (putU32 (ofNat size) ++ rest))
      = (do
          let records ← decodeEntries size none .empty
          let dedupCount := (← u32 "dedup entry count").toNat
          failIf (dedupCount > DEDUP_CAPACITY) (.BoundExceeded "dedup entry count" dedupCount DEDUP_CAPACITY)
          let (dedupOrder, dedupResponses) ← decodeAnswers dedupCount [] ∅
          return { records, dedupOrder, dedupResponses } : Reader MetaStateMachine).run rest := by
  obtain ⟨recordCount, bounded⟩ := toNat_ofNat_within few (by decide)
  simp [readSnapshot, run_failIf bounded, recordCount]

section

variable (carriable : machine.Carriable)

include carriable

/-- A carriable machine with storable records survives its snapshot. -/
theorem decodeSnapshot_encodeSnapshot (few : machine.records.map.size ≤ MAX_SNAPSHOT_RECORDS)
    (storable : ∀ entry ∈ machine.records.entries, entry.2.Storable) :
    ∃ bytes, machine.encodeSnapshot = .ok bytes ∧ decodeSnapshot bytes = .ok machine := by
  have absent : ∀ requestId ∈ machine.dedupOrder, requestId ∉ (∅ : ExtTreeMap Uuid MetadataResponse) := by simp
  obtain ⟨entries, wroteEntries, readsEntries⟩ := decodeEntries_append carriable.listed storable .empty
  obtain ⟨answers, wroteAnswers, responses, lookups, readsAnswers⟩ := decodeAnswers_append
    (fun requestId listed => (carriable.answered requestId).mp listed) carriable.distinct absent []
  have sameResponses : responses = machine.dedupResponses := by
    refine ext_getElem? fun requestId => ?_
    rw [lookups]
    split
    · rfl
    · next unlisted =>
      have unanswered := mt (carriable.answered requestId).mpr unlisted
      rw [getElem?_eq_none unanswered]
      simp
  refine ⟨_, by simp only [encodeSnapshot, encodeRecords_eq few wroteEntries, wroteAnswers]; rfl, ?_⟩
  refine decodeAll_of_run ?_
  obtain ⟨dedupCount, dedupBounded⟩ := toNat_ofNat_within carriable.bounded (by decide)
  have size : machine.records.entries.length = machine.records.map.size := length_toList
  rw [size, insertMany_entries] at readsEntries
  have readsAnswers := readsAnswers []
  rw [append_nil] at readsAnswers
  simp only [append_assoc, readSnapshot_append few]
  simp [readsEntries, run_failIf dedupBounded, dedupCount, readsAnswers, sameResponses]

section

variable (writable : ∀ entry ∈ machine.records.entries, entry.2.Writable)

include writable

/-- A carriable machine that is written and read at all has storable records. -/
theorem storable_of_restores {next} (written : machine.encodeSnapshot = .ok bytes)
    (restored : decodeSnapshot bytes = .ok next) :
    machine.records.map.size ≤ MAX_SNAPSHOT_RECORDS ∧ ∀ entry ∈ machine.records.entries, entry.2.Storable := by
  obtain ⟨few, entries, answers, wroteEntries, -, rfl⟩ := encodeSnapshot_inv written
  refine ⟨few, ?_⟩
  have size : machine.records.entries.length = machine.records.map.size := length_toList
  unfold decodeSnapshot decodeAll at restored
  obtain ⟨read, ran, -⟩ := bind_eq_ok.mp restored
  rw [StateT.run_bind] at ran
  obtain ⟨read, ran, -⟩ := bind_eq_ok.mp ran
  simp only [append_assoc, readSnapshot_append few, StateT.run_bind] at ran
  obtain ⟨read, ran, -⟩ := bind_eq_ok.mp ran
  rw [← size] at ran
  exact storable_of_decodeEntries carriable.listed writable wroteEntries ran

/-- So restoring a snapshot of such a machine gives the machine itself. -/
theorem eq_of_restores {next} (written : machine.encodeSnapshot = .ok bytes)
    (restored : decodeSnapshot bytes = .ok next) : next = machine := by
  obtain ⟨few, storable⟩ := storable_of_restores carriable writable written restored
  obtain ⟨_, wroteAgain, reads⟩ := decodeSnapshot_encodeSnapshot carriable few storable
  cases written.symm.trans wroteAgain
  cases restored.symm.trans reads
  rfl

end

end

end MetaStateMachine

end VtopEngine.Meta
