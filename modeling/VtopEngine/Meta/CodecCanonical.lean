import VtopEngine.Lib.Canonical
import VtopEngine.Meta.CommandCodec
import VtopEngine.Meta.ResponseCodec

/-! # The codecs are canonical

A command or a response has one encoding: whatever decodes encodes to the very
bytes it was decoded from.  Every primitive reader accepts one spelling of each
value, and a reader made of them is taken apart step by step against its writer.
-/

namespace VtopEngine.Meta

open Lib Parser Reader MetadataCommand MetadataResponse List
open Lib.Parser (bind_eq_ok reads_take spells_fail spells_failIf_bind
  spells_pure yields_fail yields_pure yields_skip yields_true)
open Lib.Parser.Reads (map_take of_pure spells_bind)

/-! ## Primitive readers -/

/-- A word that holds what its bytes spell is written as those bytes. -/
theorem beBytes_of_word {bytes : Bytes} (exact : bytes.length = width)
    (same : word = ofBeBytes bytes % 256 ^ width) : beBytes width word = bytes := by
  subst exact
  rw [same, Nat.mod_eq_of_lt (ofBeBytes_lt bytes), beBytes_ofBeBytes]

variable {what : String} {maximum : Nat}

namespace Reader

/-- A reader that takes every value from the one spelling it has. -/
class Exact {α : Type} (reader : Reader α) (put : outParam (α → Bytes)) : Prop where
  reads : reader.Reads (fun _ => True) put

@[simp] theorem Exact.spells {α β : Type} {reader : Reader α} {put : α → Bytes} [exact : Exact reader put]
    {before : Bytes} {write : β → Except CodecError Bytes} {next : α → Reader β} :
    (reader >>= next).Spells before write ↔ ∀ value, (next value).Spells (before ++ put value) write := by
  simpa using exact.reads.spells_bind

/-- The two directions of a reader together. -/
theorem Exact.of_append {α : Type} {reader : Reader α} {put}
    (undoes : ∀ value rest, reader.run (put value ++ rest) = .ok (value, rest))
    (spells : reader.Spells [] fun value => (.ok (put value) : Except CodecError Bytes)) : Exact reader put :=
  ⟨Reads.mk yields_true (fun value _ => undoes value) spells⟩

instance : Exact (u8 what) putU8 :=
  ⟨map_take length_putU8 (fun value => by simp [putU8, ofBeBytes_beBytes])
    fun bytes exact => beBytes_of_word exact (by simp)⟩

instance : Exact (u16 what) putU16 :=
  ⟨map_take length_putU16 (fun value => by simp [putU16, ofBeBytes_beBytes])
    fun bytes exact => beBytes_of_word exact (by simp)⟩

instance : Exact (u32 what) putU32 :=
  ⟨map_take length_putU32 (fun value => by simp [putU32, ofBeBytes_beBytes])
    fun bytes exact => beBytes_of_word exact (by simp)⟩

instance : Exact (u64 what) putU64 :=
  ⟨map_take length_putU64 (fun value => by simp [putU64, ofBeBytes_beBytes])
    fun bytes exact => beBytes_of_word exact (by simp)⟩

instance : Exact (uuid what) putUuid :=
  ⟨map_take length_putUuid
    (fun value => by
      have fits : value.toNat < 256 ^ 16 := value.isLt
      rw [putUuid, ofBeBytes_beBytes, Nat.mod_eq_of_lt fits, BitVec.ofNat_toNat, BitVec.setWidth_eq])
    fun bytes exact => beBytes_of_word exact (by simp)⟩

instance : Exact (i64 what) putI64 := by
  refine .of_append (fun value rest => i64_append value) (Exact.spells.mpr fun word => ?_)
  simp [putI64, putU64]

instance : Exact (bytes32 what) putBytes32 := by
  refine .of_append (fun value rest => bytes32_append value) ?_
  refine reads_take.spells_bind.mpr fun bytes exact => spells_pure.mpr (congrArg _ ?_)
  apply ext_getElem
  · simp [exact]
  · intro index _ within
    simp only [nil_append, id_eq] at within
    simp [putBytes32, getElem?_eq_getElem within]

instance : Exact (flag what) putFlag := by
  refine .of_append (fun value rest => flag_append value) (Exact.spells.mpr fun byte => ?_)
  split <;> simp [putFlag]

theorem reads_utf8 {length} : (utf8 length what).Reads (fun value => value.utf8ByteSize = length) strBytes := by
  refine Reads.mk yields_utf8 (fun value exact rest => utf8_append value exact) ?_
  refine reads_take.spells_bind.mpr fun bytes exact => ?_
  split
  · next value decoded =>
    unfold String.fromUTF8? at decoded
    split at decoded
    · cases decoded
      exact spells_pure.mpr rfl
    · cases decoded
  · exact spells_fail

theorem reads_boundedStr (bound : maximum < 2 ^ 16) :
    (boundedStr maximum what).Reads (fun value => value.utf8ByteSize ≤ maximum) putStr := by
  refine Reads.mk yields_boundedStr (fun value fits rest => boundedStr_append fits bound what rest) ?_
  refine Exact.spells.mpr fun length => spells_failIf_bind.mpr fun _ => ?_
  intro bytes value rest ran
  obtain ⟨size, same⟩ := (reads_utf8 _ _ _).mp ran
  refine ⟨_, rfl, ?_⟩
  simp [putStr, size, same]

section Containers

variable {α : Type} {item : Reader α} {put : α → Bytes}

theorem reads_optional (reads : item.Reads accepted put) :
    (optional presence item).Reads (fun value => ∀ content, value = some content → accepted content) (putOptional put) := by
  have accepts : item.Yields accepted := fun _ _ _ ran => ((reads _ _ _).mp ran).1
  refine Reads.mk (yields_optional accepts) (fun value good rest => ?_) ?_
  · exact optional_append (fun content same rest => (reads _ _ _).mpr ⟨good content same, rfl⟩) presence rest
  · refine Exact.spells.mpr fun present => ?_
    cases present with
    | false => simp [putOptional, putFlag]
    | true =>
      refine reads.spells_bind.mpr fun content _ => ?_
      simp [putOptional, putFlag]

theorem reads_boundedList {count} (bound : maximum < 2 ^ 16) [exact : Exact item put] :
    (boundedList count maximum what item).Reads (fun values => values.length ≤ maximum) (putList put) := by
  refine Reads.mk yields_boundedList (fun values fits rest => ?_) ?_
  · exact boundedList_append fits bound (fun value _ rest => (exact.reads _ _ _).mpr ⟨trivial, rfl⟩) count what rest
  · refine Exact.spells.mpr fun length => spells_failIf_bind.mpr fun _ => ?_
    intro bytes values rest ran
    obtain ⟨⟨size, -⟩, same⟩ := (exact.reads.times _ _ _ _).mp ran
    refine ⟨_, rfl, ?_⟩
    simp [putList, size, same]

instance {presence : String} [exact : Exact item put] : Exact (optional presence item) (putOptional put) :=
  ⟨by simpa using reads_optional exact.reads⟩

theorem spells_boundedList {count : String} (bound : maximum < 2 ^ 16) [Exact item put] {β : Type}
    {before : Bytes} {write : β → Except CodecError Bytes} {next : List α → Reader β} :
    (boundedList count maximum what item >>= next).Spells before write
      ↔ ∀ values, values.length ≤ maximum → (next values).Spells (before ++ putList put values) write :=
  (reads_boundedList bound).spells_bind

end Containers

end Reader

/-! ## Parts of commands -/

section Parts

variable {β : Type} {before : Bytes} {write : β → Except CodecError Bytes}

instance : Exact decodeEnvelope encodeEnvelope :=
  .of_append (fun env rest => decodeEnvelope_append env) (by simp [decodeEnvelope, encodeEnvelope, -bind_pure_comp])

instance : Exact (decodeOptionalU64 what) encodeOptionalU64 :=
  inferInstanceAs (Exact (optional _ _) _)

instance : Exact (decodeOptionalUuid what) encodeOptionalUuid :=
  inferInstanceAs (Exact (optional _ _) _)

instance : Exact RangeAssignment.decode RangeAssignment.encode := by
  refine .of_append (fun range rest => ?_) ?_
  · simp [RangeAssignment.decode, RangeAssignment.encode]
  · simp [RangeAssignment.decode, RangeAssignment.encode, -bind_pure_comp]

instance : Exact QuorumAnswer.decode QuorumAnswer.encode := by
  refine .of_append (fun answer rest => ?_) ?_
  · simp [QuorumAnswer.decode, QuorumAnswer.encode]
  · simp [QuorumAnswer.decode, QuorumAnswer.encode, -bind_pure_comp]

variable {next : String → Reader β}

theorem Reader.spells_boundedStr (bound : maximum < 2 ^ 16) : (boundedStr maximum what >>= next).Spells before write
      ↔ ∀ value, value.utf8ByteSize ≤ maximum → (next value).Spells (before ++ putStr value) write :=
  (reads_boundedStr bound).spells_bind

theorem Reader.spells_nonemptyStr (bound : maximum < 2 ^ 16) : (nonemptyStr maximum what >>= next).Spells before write
      ↔ ∀ value, value.utf8ByteSize ≤ maximum → value ≠ "" → (next value).Spells (before ++ putStr value) write := by
  simp only [nonemptyStr, bind_assoc, spells_boundedStr bound, spells_failIf_bind, pure_bind]

variable {next : Option String → Reader β}

theorem Reader.spells_optionalStr (bound : maximum < 2 ^ 16) :
    (optional presence (boundedStr maximum what) >>= next).Spells before write
      ↔ ∀ value, (∀ text, value = some text → text.utf8ByteSize ≤ maximum) →
        (next value).Spells (before ++ putOptional putStr value) write :=
  (reads_optional (reads_boundedStr bound)).spells_bind

/-- The extension is either left out or written behind a set flag: there is no second spelling of its absence. -/
theorem Reader.spells_trailingStr (bound : maximum < 2 ^ 16) (absent : (next none).Spells before write)
    (present : ∀ text, text.utf8ByteSize ≤ maximum → (next (some text)).Spells (before ++ (putU8 1 ++ putStr text)) write) :
    (trailingStr presence maximum what >>= next).Spells before write := by
  rw [trailingStr, bind_assoc]
  refine spells_remaining_bind fun count => ?_
  split
  · rwa [pure_bind]
  · rw [bind_assoc, Exact.spells]
    intro flagged
    cases flagged with
    | false =>
      intro _ _ _ ran
      cases ran
    | true =>
      simp only [if_true, bind_assoc, spells_boundedStr bound, pure_bind, append_assoc]
      exact present

/-- A tag is judged by the value it is the tag of. -/
theorem Reader.spells_tag {α : Type} {wireTag : α → UInt8} {fromWire : UInt8 → Reader α}
    (yields : ∀ tag, (fromWire tag).Yields fun value => tag = wireTag value)
    (judges : ∀ value, fromWire (wireTag value) = pure value) {next : α → Reader β} :
    (fromWire tag >>= next).Spells before write ↔ ∀ value, tag = wireTag value → (next value).Spells before write := by
  simpa using (of_pure (yields tag) fun value same => same ▸ judges value).spells_bind

@[simp] theorem NodeState.spells_fromWire {next} : (fromWire tag >>= next).Spells before write
      ↔ ∀ state : NodeState, tag = state.wireTag → (next state).Spells before write := by
  refine spells_tag (fun tag => ?_) fun state => by cases state <;> rfl
  unfold fromWire
  split <;> first | exact yields_pure rfl | exact yields_fail

@[simp] theorem VerificationMethod.spells_fromWire {next} : (fromWire tag >>= next).Spells before write
      ↔ ∀ method : VerificationMethod, tag = method.wireTag → (next method).Spells before write := by
  refine spells_tag (fun tag => ?_) fun method => by cases method; rfl
  unfold fromWire
  split <;> first | exact yields_pure rfl | exact yields_fail

@[simp] theorem PromotionRefusal.spells_fromWire {next} : (fromWire tag >>= next).Spells before write
      ↔ ∀ reason : PromotionRefusal, tag = reason.wireTag → (next reason).Spells before write := by
  refine spells_tag (fun tag => ?_) fun reason => by cases reason <;> rfl
  unfold fromWire
  split <;> first | exact yields_pure rfl | exact yields_fail

theorem spells_decodePromotionOutcome : decodePromotionOutcome.Spells [] encodePromotionOutcome := by
  refine Exact.spells.mpr fun tag => ?_
  split
  · simp +contextual [encodePromotionOutcome, spells_boundedList, putBoundedList_eq_ok, MAX_TRANSITION_QUORUM,
      -bind_pure_comp]
  · simp +contextual [encodePromotionOutcome, -bind_pure_comp]
  · exact spells_fail

theorem CommitCursorArgs.spells_decodeCheckpoint {groupUuid memberUuid topicUuid rangeUuid next} :
    (decodeCheckpoint groupUuid memberUuid topicUuid rangeUuid >>= next).Spells before write
      ↔ ∀ cursor : CommitCursorArgs, cursor.groupUuid = groupUuid ∧ cursor.memberUuid = memberUuid
          ∧ cursor.topicUuid = topicUuid ∧ cursor.rangeUuid = rangeUuid →
        (next cursor).Spells (before ++ cursor.encodeCheckpoint) write := by
  have yields : (decodeCheckpoint groupUuid memberUuid topicUuid rangeUuid).Yields fun cursor =>
      cursor.groupUuid = groupUuid ∧ cursor.memberUuid = memberUuid ∧ cursor.topicUuid = topicUuid
        ∧ cursor.rangeUuid = rangeUuid := by
    iterate 9 refine yields_skip fun _ => ?_
    exact yields_pure ⟨rfl, rfl, rfl, rfl⟩
  refine spells_bind (Reads.mk yields ?_ ?_)
  · rintro cursor ⟨rfl, rfl, rfl, rfl⟩ rest
    exact decodeCheckpoint_append cursor
  · simp [decodeCheckpoint, encodeCheckpoint, -bind_pure_comp]

end Parts

/-! ## Kinds of commands -/

namespace Command

@[simp] theorem ReportPromotionOutcome.spells_decode : decode.Spells [] encode := by
  simp only [decode, Exact.spells]
  intro env topic range holder epoch
  refine spells_decodePromotionOutcome.bind fun outcome bytes written => ?_
  simp [encode, written]

@[simp] theorem CommitSegmentPlacement.spells_decode : decode.Spells [] encode := by
  simp +contextual [decode, encode, decodeUuidList, spells_boundedList (by decide : MAX_REPLICAS < 2 ^ 16), encodeUuidList,
    putBoundedList_eq_ok, -bind_pure_comp]

@[simp] theorem CommitTierEvidence.spells_decode : decode.Spells [] encode := by
  simp only [decode, Exact.spells, spells_failIf_bind, VerificationMethod.spells_fromWire,
    spells_nonemptyStr (by decide : MAX_TIER_BACKEND_ID_BYTES < 2 ^ 16),
    spells_nonemptyStr (by decide : MAX_TIER_OBJECT_URI_BYTES < 2 ^ 16),
    spells_optionalStr (by decide : MAX_TIER_VERSION_ID_BYTES < 2 ^ 16)]
  intro env topic range segment generation root length _ backend backendFits _ uri uriFits _ manifest manifestFits
    digest tag method tagged verifier epoch term
  subst tagged
  refine spells_trailingStr (by decide) ?_ fun text textFits => ?_
  · simp [encode, putTrailingStr, putBoundedStr_eq_ok backendFits, putBoundedStr_eq_ok uriFits,
      putOptionalStr_eq_ok manifestFits]
  · simp [encode, putTrailingStr, putBoundedStr_eq_ok backendFits, putBoundedStr_eq_ok uriFits,
      putOptionalStr_eq_ok manifestFits, putBoundedStr_eq_ok textFits]

end Command

/-! ## Commands and responses -/

theorem Reader.encode_of_decodeAll {α : Type} {reader : Reader α} {encode : α → Except CodecError Bytes}
    (spells : reader.Spells [] encode) {bytes : Bytes} {value : α} (decoded : reader.decodeAll bytes = .ok value) :
    encode value = .ok bytes := by
  unfold decodeAll at decoded
  obtain ⟨⟨answer, rest⟩, ran, ⟨⟩⟩ := bind_eq_ok.mp decoded
  rw [StateT.run_bind] at ran
  obtain ⟨⟨read, behind⟩, readIt, finished⟩ := bind_eq_ok.mp ran
  obtain ⟨whole, written, same⟩ := spells _ _ _ readIt
  -- Nothing is left behind the value, so what it spells is the whole input.
  cases behind with
  | cons byte more => cases finished
  | nil =>
    cases finished
    rw [written, ← append_nil whole, ← same, nil_append]

theorem MetadataCommand.spells_decodeArgs (kind) : (decodeArgs kind).Spells (putU16 kind) encode := by
  unfold decodeArgs
  split
  case h_38 => exact spells_fail
  all_goals
    refine Spells.tagged ?_ fun _ => rfl
    simp +contextual [encodeArgs, CommitCursorArgs.spells_decodeCheckpoint, CommitCursorArgs.encodeTarget,
      spells_nonemptyStr, spells_boundedStr, spells_boundedList, decodeRangeAssignments,
      decodeUuidList, encodeRangeAssignments, encodeUuidList, putBoundedStr_eq_ok, putBoundedList_eq_ok,
      MAX_NODE_ADDR_BYTES, MAX_TOPIC_NAME_BYTES, MAX_GROUP_NAME_BYTES, MAX_FAILURE_DOMAIN_BYTES, MAX_ASSIGNED_RANGES,
      MAX_REPLICAS, -bind_pure_comp]

theorem MetadataError.reads_readDetail : readDetail.Reads (fun _ => True) fun detail => putStr detail.val := by
  refine Reads.mk yields_true (fun detail _ rest => readDetail_append detail rest) ?_
  refine (spells_boundedStr (by decide)).mpr fun value fits => spells_pure.mpr ?_
  have whole : boundDetail value = ⟨value, fits⟩ := dif_neg (Nat.not_lt.mpr fits)
  rw [whole]
  rfl

theorem MetadataError.spells_decode : decode.Spells [] encode := by
  refine Exact.spells.mpr fun kind => ?_
  split
  case h_6 | h_7 =>
    refine reads_readDetail.spells_bind.mpr fun detail _ => ?_
    simp [encode, putBoundedStr_eq_ok detail.property]
  case h_8 => exact spells_fail
  all_goals simp [encode, -bind_pure_comp]

theorem MetadataResponse.spells_decodeFrom : decodeFrom.Spells [] encode := by
  refine Exact.spells.mpr fun kind => ?_
  split
  case h_8 =>
    refine MetadataError.spells_decode.bind fun error bytes written => ?_
    simp [encode, written]
  case h_9 => exact spells_fail
  all_goals simp [encode, -bind_pure_comp]

theorem takeBytes_prefix (budget chars) : takeBytes budget chars <+: chars := by
  fun_induction takeBytes budget chars with
  | case1 => exact prefix_rfl
  | case2 budget char rest fits ih => exact cons_prefix_cons.mpr ⟨rfl, ih⟩
  | case3 => exact nil_prefix

/-- No character boundary within the budget lies behind the cut. -/
theorem prefix_takeBytes (starts : cut <+: chars)
    (fits : (String.ofList cut).utf8ByteSize ≤ budget) : cut <+: takeBytes budget chars := by
  induction cut generalizing budget chars with
  | nil => exact nil_prefix
  | cons char cut ih =>
    obtain ⟨rest, rfl⟩ := starts
    rw [String.ofList_cons, String.utf8ByteSize_append, String.utf8ByteSize_singleton] at fits
    rw [cons_append, takeBytes, if_pos (by omega)]
    exact cons_prefix_cons.mpr ⟨rfl, ih (prefix_append cut rest) (by omega)⟩

/-- The text cut at the last character boundary within the bound. -/
structure Truncates (text : String) (detail : Detail) : Prop where
  starts : detail.val.toList <+: text.toList
  longest : ∀ cut : List Char, cut <+: text.toList → (String.ofList cut).utf8ByteSize ≤ MAX_ERROR_DETAIL_BYTES →
    cut <+: detail.val.toList

theorem boundDetail_truncates (text) : Truncates text (boundDetail text) := by
  unfold boundDetail
  split
  · exact ⟨by simpa using takeBytes_prefix _ _, fun cut starts fits => by simpa using prefix_takeBytes starts fits⟩
  · exact ⟨prefix_rfl, fun cut starts _ => starts⟩

/-- Commands and responses each have one encoding, and the error texts built on the apply path are cut so that
they have one too. -/
theorem metadata_codec_canonical : CanonicalCodec Valid encode decode
      ∧ CanonicalCodec (fun _ => True) MetadataResponse.encode MetadataResponse.decode
      ∧ ∀ text, ∃ detail, Truncates text detail ∧ MetadataError.invalidTransition text = .InvalidTransition detail
          ∧ MetadataError.limit text = .Limit detail := by
  refine ⟨⟨valid_of_decode, ?_, decode_encode⟩, ⟨fun _ => trivial, ?_, ?_⟩, ?_⟩
  · exact encode_of_decodeAll (Exact.spells.mpr fun kind => spells_decodeArgs kind)
  · exact encode_of_decodeAll spells_decodeFrom
  · intro response _
    obtain ⟨bytes, written, -, read⟩ := response.decode_encode
    exact ⟨bytes, written, read⟩
  · exact fun text => ⟨boundDetail text, boundDetail_truncates text, rfl, rfl⟩

end VtopEngine.Meta
