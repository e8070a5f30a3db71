import VtopEngine.Adapters.ByteSource
import VtopEngine.State.Models
import VtopEngine.Upload.Multipart

/-! # What the engine asks of its surroundings

The calls of the archive engine (`engine.rs`) that leave the process or can fail: the
ledger, the object store, local files and the source adapters.

* `Request`, `Answer` — the calls, and what each is answered.
* `EngineConfig` — what the engine is configured with.
* `Vouched`, `Entitled`, `EngineConfig.rule` — what must have been heard before progress is
  committed, and before a commit is recorded.
-/

namespace VtopEngine.Cli

open Adapters VtopEngine.Core Lib State
open Upload (MultipartFence VerificationResult)

/-! ## Calls -/

/-- A compressed object on disk. -/
structure CompressedObject where
  path : String
  sizeBytes : Nat

/-- A call of the engine.  `commitProgress` names the batch it is made for, which the adapter is not told. -/
inductive Request
  | saveBatchState (record : BatchRecord)
  | updateBatchState (batchId : String) (target : BatchState) (patch : BatchPatch)
  | claimIncompleteBatches (owner : String) (now leaseUntil : Int)
  | committedCursors (source : SourceType)
  | compressBatch (batch : TelemetryBatch)
  | digestFile (algorithm : ChecksumAlgorithm) (path : String)
  | ensureBucket (bucket : String)
  | verifyBucketVersioning (bucket : String)
  | putObject (path uri : String) (checksum : Option ObjectChecksum)
  | uploadResumable (path uri : String) (checksum : Option ObjectChecksum) (fence : MultipartFence)
  | abortSession (uri : String) (fence : MultipartFence)
  | writeToFile (manifest : VtopManifest)
  | fileSize (path : String)
  | putManifest (path uri : String) (checksum : Option ObjectChecksum)
  | verifyObject (uri : String) (expectedSize : Nat) (expected : Option ObjectChecksum)
  | getManifest (uri : String) (version : Option String)
  | commitProgress (batchId : String) (source : SourceType) (marker : ProgressMarker)
  | seedCommitted (source : SourceType) (cursors : List CommittedCursor)
  | replayFromMarkers (source : SourceType) (markers : List ProgressMarker)
  | readPosition (source : SourceType) (marker : ProgressMarker)

/-- Every call but a rewind's can fail; a compression can fail or panic. -/
def Answer : Request → Type
  | .saveBatchState _ | .updateBatchState .. => Except String Unit
  | .claimIncompleteBatches .. => Except String (List BatchRecord)
  | .committedCursors _ => Except String (List CommittedCursor)
  | .compressBatch _ => Except String (Except String CompressedObject)
  | .digestFile .. => Except String String
  | .ensureBucket _ | .verifyBucketVersioning _ | .putObject .. | .uploadResumable .. | .abortSession .. =>
    Except String Unit
  | .writeToFile _ => Except String String
  | .fileSize _ => Except String Nat
  | .putManifest .. => Except String (Option String)
  | .verifyObject .. => Except String VerificationResult
  | .getManifest .. => Except String (List UInt8)
  | .commitProgress .. => Except String Unit
  | .seedCommitted .. => Unit
  | .replayFromMarkers .. => List (Except String Unit)
  | .readPosition .. => Option Int

abbrev EngineProc := Proc Request Answer

abbrev Heard := Set (Exchange Request Answer)

/-! ## Configuration -/

/-- Where a batch is stored. -/
structure Destination where
  (bucket objectUri manifestUri : String)

/-- What a manifest tells of a batch besides its source and its object. -/
structure ManifestDetail where
  tenant : String
  format : TelemetryFormat
  compression : CompressionType
  (firstTimestamp lastTimestamp : Option String)
  partitioning : PartitionMetadata
  createdAt : String

/-- The engine's configuration and its backend's fixed answers.  `destination` resolves the path template for a
source, a batch and the instant it was sealed, and `detail` what else its manifest tells. -/
structure EngineConfig where
  name : String
  algorithm : ChecksumAlgorithm
  (createBucket requireObjectVersioning requireStrongVerification : Bool)
  backendName : String
  supportsObjectVersions : Bool
  shouldMultipart : Nat → Bool
  manifestMacKey : Option ManifestMacKey
  codec : ManifestCodec
  destination : SourceType → String → String → Nat → Destination
  detail : SourceType → String → String → Nat → ManifestDetail
  adapters : List SourceType

/-! ## The commit rule -/

/-- The batch's manifest, built here or downloaded, is authentic, and the object it names was seen to have the size
and digest it records. -/
structure Vouched (config : EngineConfig) (known : Heard) (batchId : String) : Prop where
  manifest : ∃ manifest : VtopManifest, manifest.batchId = batchId ∧
    ((∃ path, ⟨.writeToFile manifest, Except.ok path⟩ ∈ known) ∨
      ∃ uri version bytes, ⟨.getManifest uri version, Except.ok bytes⟩ ∈ known ∧
        config.codec.fromSlice bytes = .ok manifest) ∧
    manifest.verifyAuthentication config.codec config.manifestMacKey = .ok () ∧
    ∃ result : VerificationResult,
      ⟨.verifyObject manifest.object.uri manifest.object.sizeBytes manifest.recordedChecksum, Except.ok result⟩ ∈ known ∧
        result.passed = true ∧ (config.requireStrongVerification = true → result.backendLimited = false)

/-- The process recorded the batch as verified itself, or claimed its row in that state. -/
inductive Entitled (known : Heard) (batchId : String) (source : SourceType) (marker : ProgressMarker) : Prop
  | verified (record : BatchRecord) (saved : ⟨.saveBatchState record, Except.ok ()⟩ ∈ known)
      (isBatch : record.batchId = batchId) (isSource : record.sourceType = source) (isEnd : record.progressEnd = marker)
      (recorded : ⟨.updateBatchState batchId .Verified .default, Except.ok ()⟩ ∈ known)
  | claimed (owner : String) (now leaseUntil : Int) (records : List BatchRecord)
      (claimed : ⟨.claimIncompleteBatches owner now leaseUntil, Except.ok records⟩ ∈ known) (record : BatchRecord)
      (member : record ∈ records) (isVerified : record.state = .Verified) (isBatch : record.batchId = batchId)
      (isSource : record.sourceType = source) (isEnd : record.progressEnd = marker)

/-- A batch begins as `BATCHING`; progress is committed for a batch that was recorded verified and is vouched for; the
commit is recorded after it succeeded. -/
def EngineConfig.rule (config : EngineConfig) (known : Heard) : Request → Prop
  | .saveBatchState record => record.state = .Batching
  | .commitProgress batchId source marker => Entitled known batchId source marker ∧ Vouched config known batchId
  | .updateBatchState batchId .SourceCommitted _ =>
    ∃ source marker, Entitled known batchId source marker ∧ ⟨.commitProgress batchId source marker, Except.ok ()⟩ ∈ known
  | _ => True

theorem Vouched.mono (vouched : Vouched config known batchId) (subset : known ⊆ more) : Vouched config more batchId := by
  obtain ⟨manifest, isBatch, source, authentic, result, verified, passed⟩ := vouched
  refine ⟨manifest, isBatch, ?_, authentic, result, subset verified, passed⟩
  rcases source with ⟨path, written⟩ | ⟨uri, version, bytes, downloaded, parsed⟩
  · exact .inl ⟨path, subset written⟩
  · exact .inr ⟨uri, version, bytes, subset downloaded, parsed⟩

theorem Entitled.mono
    (entitled : Entitled known batchId source marker) (subset : known ⊆ more) : Entitled more batchId source marker := by
  cases entitled with
  | verified record saved isBatch isSource isEnd recorded =>
    exact .verified record (subset saved) isBatch isSource isEnd (subset recorded)
  | claimed owner now leaseUntil records claimed record member isVerified isBatch isSource isEnd =>
    exact .claimed owner now leaseUntil records (subset claimed) record member isVerified isBatch isSource isEnd

theorem EngineConfig.lasting_rule (config : EngineConfig) : Proc.Lasting config.rule := by
  intro known more request subset allowed
  cases request with
  | saveBatchState record => exact allowed
  | commitProgress batchId source marker => exact ⟨allowed.1.mono subset, allowed.2.mono subset⟩
  | updateBatchState batchId target patch =>
    cases target with
    | SourceCommitted =>
      obtain ⟨source, marker, entitled, committed⟩ := allowed
      exact ⟨source, marker, entitled.mono subset, subset committed⟩
    | _ => trivial
  | _ => trivial

end VtopEngine.Cli
