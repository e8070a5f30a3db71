import VtopEngine.Core.Manifest
import VtopEngine.Lib.JsonText

/-! # Keyed manifests cannot be altered unnoticed

A manifest's hash and authenticator are over its compact JSON text with the two digests
blanked.  The text determines every field, the presence of an authenticator included, so
whoever cannot forge the keyed hash cannot alter a manifest.

* `VtopManifest.toJson` — the record as it is serialized, members in the order of its fields.
* `VtopManifest.toJson_injective` — the text determines the record.
* `Unforgeable` — the assumption on the keyed hash.
* `keyed_manifest_genuine` — a manifest that passes is a built one up to the case of its
  digests, and every built one passes.
-/

namespace VtopEngine.Core

open Lib ManifestMetadata ObjectMetadata ProgressMarker VtopManifest Function

/-! ## Serialization -/

def ProgressMarker.toJson : ProgressMarker → Json
  | .Kafka topic partition startOffset endOffset consumerGroup =>
    .object [("source_type", .str "kafka"), ("topic", .str topic), ("partition", .num partition),
      ("start_offset", .num startOffset), ("end_offset", .num endOffset), ("consumer_group", .str consumerGroup)]
  | .File path inode startByte endByte fileSize mtime =>
    .object [("source_type", .str "file"), ("path", .str path), ("inode", .optNum inode), ("start_byte", .num startByte),
      ("end_byte", .num endByte), ("file_size", .num fileSize), ("mtime", .str mtime)]
  | .SyslogSpool spoolId path inode startByte endByte receivedTimeStart receivedTimeEnd =>
    .object [("source_type", .str "syslog_spool"), ("spool_id", .str spoolId), ("path", .str path),
      ("inode", .optNum inode), ("start_byte", .num startByte), ("end_byte", .num endByte),
      ("received_time_start", .optStr receivedTimeStart), ("received_time_end", .optStr receivedTimeEnd)]

def ObjectMetadata.toJson (object : ObjectMetadata) : Json :=
  .object [("uri", .str object.uri), ("size_bytes", .num object.sizeBytes),
    ("checksum_algorithm", .str object.checksumAlgorithm), ("checksum", .str object.checksum)]

/-- An absent authenticator is left out. -/
def ManifestMetadata.toJson (metadata : ManifestMetadata) : Json :=
  .object ([("uri", .str metadata.uri), ("sha256", .str metadata.sha256)] ++
    metadata.mac.toList.map fun mac => ("mac", .str mac))

def PartitionMetadata.toJson (partitioning : PartitionMetadata) : Json :=
  .object [("path_template", .str partitioning.pathTemplate), ("resolved_prefix", .str partitioning.resolvedPrefix)]

def VerificationStatus.asStr : VerificationStatus → String
  | .NotVerified => "not_verified"
  | .Passed => "passed"
  | .Failed => "failed"
  | .BackendLimited => "backend_limited"

def BatchState.asStr : BatchState → String
  | .Discovered => "discovered"
  | .Batching => "batching"
  | .Sealed => "sealed"
  | .Compressed => "compressed"
  | .Checksummed => "checksummed"
  | .ObjectUploaded => "object_uploaded"
  | .ManifestUploaded => "manifest_uploaded"
  | .Verified => "verified"
  | .SourceCommitted => "source_committed"
  | .Failed => "failed"
  | .ReplayRequired => "replay_required"

def VtopManifest.toJson (manifest : VtopManifest) : Json :=
  .object [("protocol", .str manifest.protocol), ("version", .str manifest.version), ("batch_id", .str manifest.batchId),
    ("tenant", .str manifest.tenant), ("source_type", .str manifest.sourceType.asStr),
    ("source_name", .str manifest.sourceName), ("format", .str manifest.format.asStr),
    ("compression", .str manifest.compression.asStr), ("record_count", .num manifest.recordCount),
    ("first_timestamp", .optStr manifest.firstTimestamp), ("last_timestamp", .optStr manifest.lastTimestamp),
    ("source_progress", manifest.sourceProgress.toJson), ("object", manifest.object.toJson),
    ("manifest", manifest.manifest.toJson), ("partitioning", manifest.partitioning.toJson),
    ("upload_backend", .str manifest.uploadBackend), ("state", .str manifest.state.asStr),
    ("verification_status", .str manifest.verificationStatus.asStr), ("created_at", .str manifest.createdAt)]

/-- Manifests as they are hashed: JSON, under whatever the writer, the hashes and the reader are. -/
def jsonCodec (writer : JsonWriter) (fromSlice : List UInt8 → Except String VtopManifest) (sha256 : List UInt8 → String)
    (keyedHash : ManifestMacKey → List UInt8 → Vector UInt8 32) : ManifestCodec where
  toBytes manifest := writer.toVec manifest.toJson
  fromSlice
  sha256
  keyedHash

/-! ## The text determines the record -/

theorem SourceType.asStr_injective : Injective asStr := by
  intro first second same
  cases first <;> cases second <;> simp_all [asStr]

theorem TelemetryFormat.asStr_injective : Injective asStr := by
  intro first second same
  cases first <;> cases second <;> simp_all [asStr]

theorem CompressionType.asStr_injective : Injective asStr := by
  intro first second same
  cases first <;> cases second <;> simp_all [asStr]

theorem VerificationStatus.asStr_injective : Injective asStr := by
  intro first second same
  cases first <;> cases second <;> simp_all [asStr]

theorem BatchState.asStr_injective : Injective asStr := by
  intro first second same
  cases first <;> cases second <;> simp_all [asStr]

/-- The tag tells the variant, and each variant's members its fields. -/
theorem ProgressMarker.toJson_injective : Injective toJson := by
  intro first second same
  cases first <;> cases second <;> simp_all [toJson]

theorem ObjectMetadata.toJson_injective : Injective toJson := by
  intro first second same
  cases first
  cases second
  simp_all [toJson]

theorem ManifestMetadata.toJson_injective : Injective toJson := by
  rintro ⟨uri, sha256, mac⟩ ⟨uri', sha256', mac'⟩ same
  cases mac <;> cases mac' <;> simp_all [toJson]

theorem PartitionMetadata.toJson_injective : Injective toJson := by
  intro first second same
  cases first
  cases second
  simp_all [toJson]

theorem VtopManifest.toJson_injective : Injective toJson := by
  intro first second same
  simp only [toJson, Json.object_inj, List.cons.injEq, Prod.mk.injEq, true_and, and_true, Json.str.injEq,
    Json.num.injEq, Json.optStr_inj, SourceType.asStr_injective.eq_iff, TelemetryFormat.asStr_injective.eq_iff,
    CompressionType.asStr_injective.eq_iff, VerificationStatus.asStr_injective.eq_iff, BatchState.asStr_injective.eq_iff,
    ProgressMarker.toJson_injective.eq_iff, ObjectMetadata.toJson_injective.eq_iff,
    ManifestMetadata.toJson_injective.eq_iff, PartitionMetadata.toJson_injective.eq_iff, Int.natCast_inj] at same
  cases first
  cases second
  simp_all

/-! ## Authentication -/

namespace VtopManifest

/-- A manifest with both digests blanked; whether it has an authenticator stays. -/
def blanked (manifest : VtopManifest) : VtopManifest :=
  { manifest with manifest := { manifest.manifest with sha256 := "", mac := manifest.manifest.mac.map fun _ => "" } }

/-- Equal in every field but the two digests, which differ at most in the case of letters. -/
structure SameUpToCase (manifest genuine : VtopManifest) : Prop where
  fields : manifest.blanked = genuine.blanked
  sha256 : EqIgnoreAsciiCase manifest.manifest.sha256 genuine.manifest.sha256
  mac : ∃ mac ∈ manifest.manifest.mac, ∃ genuineMac ∈ genuine.manifest.mac, EqIgnoreAsciiCase mac genuineMac

end VtopManifest

section Keyed

variable {writer : JsonWriter} {fromSlice : List UInt8 → Except String VtopManifest} {sha256 : List UInt8 → String}
  {keyedHash : ManifestMacKey → List UInt8 → Vector UInt8 32} {key : ManifestMacKey} {manifest draft : VtopManifest}

/-- Of the tags that can be presented, the valid ones are those of the manifests that were built. -/
def Unforgeable (codec : ManifestCodec) (key : ManifestMacKey) (drafts : Set VtopManifest) (tags : Set (List UInt8)) : Prop :=
  ∀ bytes, (codec.keyedHash key bytes).toList ∈ tags →
    ∃ draft ∈ drafts, bytes = (buildWithMac codec draft (some key)).authBytes codec

variable {codec : ManifestCodec}

theorem verifySelfHash_eq_ok :
    manifest.verifySelfHash codec = .ok () ↔ EqIgnoreAsciiCase (manifest.selfHash codec) manifest.manifest.sha256 := by
  unfold verifySelfHash
  split <;> simp_all

/-- Under a key a manifest passes with its own hash, and the keyed hash of its bytes in either case. -/
theorem verifyAuthentication_eq_ok : manifest.verifyAuthentication codec (some key) = .ok () ↔
      EqIgnoreAsciiCase (manifest.selfHash codec) manifest.manifest.sha256 ∧ ∃ mac ∈ manifest.manifest.mac,
          hexDecode mac.toList = some (codec.keyedHash key (manifest.authBytes codec)).toList := by
  rw [← verifySelfHash_eq_ok]
  unfold verifyAuthentication
  cases manifest.verifySelfHash codec with
  | error problem => simp [bind, Except.bind]
  | ok _ =>
    cases manifest.manifest.mac with
    | none => simp [bind, Except.bind, throw, throwThe, MonadExceptOf.throw]
    | some mac =>
      cases isBytes : hexDecode mac.toList with
      | none => simp [bind, Except.bind, throw, throwThe, MonadExceptOf.throw, isBytes]
      | some bytes =>
        by_cases isTag : bytes = (codec.keyedHash key (manifest.authBytes codec)).toList
        · simp [bind, Except.bind, pure, Except.pure, isBytes, isTag]
        · by_cases sized : bytes.length = 32 <;>
            simp [bind, Except.bind, throw, throwThe, MonadExceptOf.throw, isBytes, isTag, sized]

theorem authBytes_buildWithMac (codec) :
    (buildWithMac codec draft (some key)).manifest.sha256 = (buildWithMac codec draft (some key)).selfHash codec ∧
      (buildWithMac codec draft (some key)).manifest.mac =
        some (hexEncode (codec.keyedHash key ((buildWithMac codec draft (some key)).authBytes codec)).toList) :=
  ⟨rfl, rfl⟩

theorem buildWithMac_passes (codec) :
    (buildWithMac codec draft (some key)).verifyAuthentication codec (some key) = .ok () := by
  obtain ⟨isHash, isMac⟩ := @authBytes_buildWithMac key draft codec
  rw [verifyAuthentication_eq_ok]
  exact ⟨congrArg (List.map Char.toLower ∘ String.toList) isHash.symm, _, isMac, hexDecode_hexEncode _⟩

theorem tag_of_built {mac}
    (isMac : mac ∈ (buildWithMac codec draft (some key)).manifest.mac) (isTag : hexDecode mac.toList = some tag) :
    tag = (codec.keyedHash key ((buildWithMac codec draft (some key)).authBytes codec)).toList := by
  rw [(authBytes_buildWithMac codec).2] at isMac
  obtain rfl := Option.some.inj isMac
  rw [hexDecode_hexEncode] at isTag
  exact (Option.some.inj isTag).symm

theorem authBytes_jsonCodec : manifest.authBytes (jsonCodec writer fromSlice sha256 keyedHash) =
    writer.toVec manifest.blanked.toJson :=
  rfl

theorem fields_eq_of_authBytes {first second : VtopManifest}
    (same : first.authBytes (jsonCodec writer fromSlice sha256 keyedHash)
      = second.authBytes (jsonCodec writer fromSlice sha256 keyedHash)) :
    first.blanked = second.blanked := by
  rw [authBytes_jsonCodec, authBytes_jsonCodec] at same
  exact VtopManifest.toJson_injective (writer.injective same)

end Keyed

/-- Whoever presents a manifest that passes under a key presents a built one, at most with letters of
its digests in the other case; and every built one passes. -/
theorem keyed_manifest_genuine (writer : JsonWriter) (fromSlice : List UInt8 → Except String VtopManifest)
    (sha256 : List UInt8 → String) (keyedHash : ManifestMacKey → List UInt8 → Vector UInt8 32)
    (key : ManifestMacKey) (drafts : Set VtopManifest)
    (tags : Set (List UInt8)) (unforgeable : Unforgeable (jsonCodec writer fromSlice sha256 keyedHash) key drafts tags) :
    (∀ manifest : VtopManifest, (∀ mac ∈ manifest.manifest.mac, ∀ tag, hexDecode mac.toList = some tag → tag ∈ tags) →
        manifest.verifyAuthentication (jsonCodec writer fromSlice sha256 keyedHash) (some key) = .ok () →
        ∃ draft ∈ drafts, manifest.SameUpToCase (buildWithMac (jsonCodec writer fromSlice sha256 keyedHash) draft (some key))) ∧
      ∀ draft ∈ drafts, (buildWithMac (jsonCodec writer fromSlice sha256 keyedHash) draft (some key)).verifyAuthentication
        (jsonCodec writer fromSlice sha256 keyedHash) (some key) = .ok () := by
  refine ⟨fun manifest presented passes => ?_, fun draft _ => buildWithMac_passes _⟩
  obtain ⟨isHash, mac, isMac, isTag⟩ := verifyAuthentication_eq_ok.mp passes
  obtain ⟨draft, built, sameBytes⟩ := unforgeable _ (presented mac isMac _ isTag)
  obtain ⟨genuineHash, genuineMac⟩ := @authBytes_buildWithMac key draft (jsonCodec writer fromSlice sha256 keyedHash)
  refine ⟨draft, built, fields_eq_of_authBytes sameBytes, ?_, mac, isMac, _, genuineMac, ?_⟩
  · rw [genuineHash, VtopManifest.selfHash, ← sameBytes]
    exact isHash.symm
  · -- Both texts are read as the same tag, and the built one is in lower case.
    have lower := toLower_of_hexDecode isTag
    rw [← sameBytes]
    exact lower.trans (toLower_of_hexDecode (hexDecode_hexEncode _)).symm

def emptyDraft : VtopManifest where
  protocol := VTOP_PROTOCOL
  version := VTOP_VERSION
  batchId := "batch"
  tenant := "tenant"
  sourceType := .File
  sourceName := "/log"
  format := .Raw
  compression := .None
  recordCount := 0
  firstTimestamp := none
  lastTimestamp := none
  sourceProgress := .File "/log" none 0 0 0 ""
  object := ⟨"s3://b/o", 0, "sha256", ""⟩
  manifest := ⟨"s3://b/m", "", some ""⟩
  partitioning := ⟨"", ""⟩
  uploadBackend := "mock"
  state := .ManifestUploaded
  verificationStatus := .NotVerified
  createdAt := ""

/-- A keyed hash that tells the draft's bytes from all others. -/
def drafted (_ : ManifestMacKey) (bytes : List UInt8) : Vector UInt8 32 :=
  if bytes = JsonWriter.compact.toVec emptyDraft.toJson then Vector.replicate 32 171 else Vector.replicate 32 0

def draftedCodec : ManifestCodec := jsonCodec .compact (fun _ => .error "unread") (fun _ => "Hash") drafted

def plainKey : ManifestMacKey := ⟨Vector.replicate 32 7⟩

theorem authBytes_emptyDraft :
    (buildWithMac draftedCodec emptyDraft (some plainKey)).authBytes draftedCodec = JsonWriter.compact.toVec emptyDraft.toJson := by
  have isBlank : (buildWithMac draftedCodec emptyDraft (some plainKey)).blanked = emptyDraft := by
    simp only [buildWithMac, blanked, Option.map_some]
    rfl
  have isBytes := @authBytes_jsonCodec .compact (fun _ => .error "unread") (fun _ => "Hash") drafted
    (buildWithMac draftedCodec emptyDraft (some plainKey))
  rwa [isBlank] at isBytes

theorem drafted_emptyDraft :
    (draftedCodec.keyedHash plainKey (JsonWriter.compact.toVec emptyDraft.toJson)).toList = List.replicate 32 171 := by
  simp only [draftedCodec, jsonCodec, drafted, ↓reduceIte]
  rfl

theorem built_manifest_genuine :
    ∃ draft ∈ ({emptyDraft} : Set VtopManifest), (buildWithMac draftedCodec emptyDraft (some plainKey)).SameUpToCase
      (buildWithMac draftedCodec draft (some plainKey)) := by
  have unforgeable : Unforgeable draftedCodec plainKey {emptyDraft} {List.replicate 32 171} := by
    intro bytes isTag
    by_cases isDraft : bytes = JsonWriter.compact.toVec emptyDraft.toJson
    · exact ⟨emptyDraft, rfl, isDraft.trans authBytes_emptyDraft.symm⟩
    · have isZero : draftedCodec.keyedHash plainKey bytes = Vector.replicate 32 0 := if_neg isDraft
      rw [isZero] at isTag
      exact absurd isTag (by decide)
  have genuine := keyed_manifest_genuine .compact (fun _ => .error "unread") (fun _ => "Hash") drafted plainKey {emptyDraft}
    {List.replicate 32 171} unforgeable
  refine genuine.1 _ (fun mac isMac tag isTag => ?_) (genuine.2 emptyDraft rfl)
  have isBuilt := tag_of_built isMac isTag
  rw [isBuilt, authBytes_emptyDraft, drafted_emptyDraft]
  rfl

end VtopEngine.Core
