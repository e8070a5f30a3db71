import VtopEngine.Cli.Requests

/-! # From a read to a committed batch

The pipeline of one batch (`Pipeline` of `engine.rs`): a read is sealed, compressed,
hashed, uploaded with its manifest and verified, the ledger following every state; only
then is source progress committed and the commit recorded.

* `processUntilVerified` — everything up to `VERIFIED`.
* `commitVerified` — `VERIFIED` to `SOURCE_COMMITTED`.
* `obeys_process` — whatever the calls are answered, the pipeline keeps the commit rule.
-/

namespace VtopEngine.Cli

open Adapters VtopEngine.Core Lib State Request
open Upload (MultipartFence VerificationResult)

/-! ## Outcomes -/

structure BatchOutcome where
  batchId : String
  finalState : BatchState
  committed : Bool
  recordCount : Nat
  objectUri : Option String

/-- A batch that waits only for its source commit. -/
structure VerifiedBatch where
  (batchId objectUri : String)
  progressEnd : ProgressMarker
  recordCount : Nat
  sourceType : SourceType

inductive VerifyStep
  | Verified (batch : VerifiedBatch)
  | Finished (outcome : BatchOutcome)

/-- Why the pipeline ends before `VERIFIED`: an error is passed on, or the batch was failed. -/
inductive Stop
  | propagated (error : String)
  | finished (outcome : BatchOutcome)

abbrev Stage := ExceptT Stop EngineProc

/-- What one batch is made of: the read, the id drawn for it, and the instants it is stamped with. -/
structure BatchInput where
  sourceType : SourceType
  sourceName : String
  read : ReadResult
  batchId : String
  now : Int
  sealedAt : Nat

/-- How long a claim stays exclusive. -/
def LEASE_TTL_SECS : Int := 600

/-- The row a batch starts as. -/
def BatchInput.record (input : BatchInput) (config : EngineConfig) : BatchRecord where
  batchId := input.batchId
  sourceType := input.sourceType
  sourceName := input.sourceName
  state := .Batching
  progressStart := input.read.progressStart
  progressEnd := input.read.progressEnd
  objectUri := none
  manifestUri := none
  objectSha256 := none
  manifestSha256 := none
  manifestVersionId := none
  objectSizeBytes := none
  recordCount := some input.read.records.length
  errorMessage := none
  owner := some config.name
  leaseExpiresAt := some (input.now + LEASE_TTL_SECS)
  createdAt := some input.now
  updatedAt := input.now

def BatchInput.batch (input : BatchInput) : TelemetryBatch where
  records := input.read.records
  recordCount := 0
  progressStart := input.read.progressStart
  progressEnd := input.read.progressEnd
  sealedAt := none
  state := .Batching
  verbatim := input.read.verbatim

/-! ## Stages -/

def orPropagate {α : Type} : Except String α → Stage α
  | .ok value => pure value
  | .error error => throw (.propagated error)

section Stages

variable (config : EngineConfig) (input : BatchInput)

def update (target : BatchState) (patch : BatchPatch) : Stage Unit := do
  orPropagate (← asking (updateBatchState input.batchId target patch))

/-- Fail the batch and end the pipeline. -/
def fail {α : Type} (message : String) : Stage α := do
  update input .Failed { BatchPatch.default with errorMessage := some message }
  throw (.finished ⟨input.batchId, .Failed, false, input.read.records.length, none⟩)

def orFail {α : Type} (message : String → String) : Except String α → Stage α
  | .ok value => pure value
  | .error error => fail input (message error)

/-- `DISCOVERED` to `SEALED`. -/
def startBatch : Stage TelemetryBatch := do
  orPropagate (← asking (saveBatchState (input.record config)))
  let batch ← orPropagate ((input.batch.sealAt input.sealedAt).mapError TransitionError.message)
  update input .Sealed .default
  return batch

/-- The digest of a file, where digests are enabled. -/
def digestFile (path : String) : Stage (Except String (Option String)) := do
  if config.algorithm.isEnabled then
    let digest ← asking (Request.digestFile config.algorithm path)
    return digest.map some
  else return .ok none

/-- `SEALED` to `CHECKSUMMED`. -/
def compressAndDigest (batch : TelemetryBatch) : Stage (CompressedObject × Option String) := do
  let compressed ← orPropagate (← asking (compressBatch batch))
  let compressed ← orFail input (fun error => s!"compression failed: {error}") compressed
  update input .Compressed .default
  let checksum ← orFail input (fun error => s!"checksum failed: {error}") (← digestFile config compressed.path)
  update input .Checksummed .default
  return (compressed, checksum)

/-- Provision the bucket on demand. -/
def ensureBucket (bucket : String) : Stage Unit := do
  if config.createBucket then
    orFail input (fun error => s!"ensure_bucket {bucket} failed: {error}") (← asking (Request.ensureBucket bucket))

/-- Refuse a bucket that discards overwritten versions, where the configuration asks for them. -/
def checkVersioning (bucket : String) : Stage Unit := do
  if config.requireObjectVersioning then
    if config.supportsObjectVersions then
      orFail input (fun error => s!"bucket versioning preflight failed: {error}") (← asking (verifyBucketVersioning bucket))
    else
      fail input (s!"require_object_versioning is set but backend {config.backendName} does not expose " ++
        "immutable object versions")

/-- What the backend is told of an optional digest. -/
def objectChecksum (checksum : Option String) : Option ObjectChecksum :=
  checksum.map fun hex => ⟨config.algorithm.asStr, hex⟩

/-- One put, or a resumable upload whose session is given up when it fails. -/
def uploadObject (compressed : CompressedObject) (checksum : Option String) (uri : String) : Stage Unit := do
  if config.shouldMultipart compressed.sizeBytes then
    let fence : MultipartFence := ⟨0, 0, checksum.getD "", config.algorithm.asStr, compressed.sizeBytes⟩
    match ← asking (uploadResumable compressed.path uri (objectChecksum config checksum) fence) with
    | .ok () => pure ()
    | .error error =>
      let _ ← asking (abortSession uri fence)
      fail input s!"object upload failed: {error}"
  else
    orFail input (fun error => s!"object upload failed: {error}")
      (← asking (putObject compressed.path uri (objectChecksum config checksum)))
  update input .ObjectUploaded { BatchPatch.default with
    objectUri := some uri
    objectSha256 := some (checksum.getD "")
    objectSizeBytes := some compressed.sizeBytes
    recordCount := some input.read.records.length }

/-- The manifest that binds the batch to its object. -/
def manifestOf (compressed : CompressedObject) (checksum : Option String) (destination : Destination) : VtopManifest :=
  let detail := config.detail input.sourceType input.sourceName input.batchId input.sealedAt
  buildWithMac config.codec
    { detail with
      protocol := VTOP_PROTOCOL
      version := VTOP_VERSION
      batchId := input.batchId
      sourceType := input.sourceType
      sourceName := input.sourceName
      recordCount := input.read.records.length
      sourceProgress := input.read.progressEnd
      object := ⟨destination.objectUri, compressed.sizeBytes, config.algorithm.asStr, checksum.getD ""⟩
      manifest := ⟨destination.manifestUri, "", none⟩
      uploadBackend := config.backendName
      state := .ManifestUploaded
      verificationStatus := .NotVerified }
    config.manifestMacKey

/-- A manifest as it was stored: its size and digest, and the version the store gave it. -/
structure StoredManifest where
  sizeBytes : Nat
  (checksum versionId : Option String)

/-- `OBJECT_UPLOADED` to `MANIFEST_UPLOADED`. -/
def uploadManifest (manifest : VtopManifest) : Stage StoredManifest := do
  let path ← orPropagate (← asking (writeToFile manifest))
  let checksum ← orPropagate (← digestFile config path)
  let size ← orPropagate (← asking (fileSize path))
  let version ← orFail input (fun error => s!"manifest upload failed: {error}")
    (← asking (putManifest path manifest.manifest.uri (objectChecksum config checksum)))
  if config.requireObjectVersioning && version.isNone then
    fail input "manifest upload returned no object version to pin (require_object_versioning is set)"
  update input .ManifestUploaded { BatchPatch.default with
    manifestUri := some manifest.manifest.uri
    manifestSha256 := some manifest.manifest.sha256
    manifestVersionId := version }
  return ⟨size, checksum, version⟩

/-- A stored object has the size and digest it should have. -/
def verifyStored (what uri : String) (size : Nat) (checksum : Option ObjectChecksum) : Stage VerificationResult := do
  let result ← orPropagate (← asking (verifyObject uri size checksum))
  if result.passed then return result else fail input s!"{what} verification failed: {result.message}"

/-- Under a key the stored manifest itself is authenticated. -/
def readBack (manifest : VtopManifest) (version : Option String) : Stage Unit := do
  match config.manifestMacKey with
  | none => return ()
  | some key =>
    let bytes ← orFail input (fun error => s!"stored manifest download failed: {error}")
      (← asking (getManifest manifest.manifest.uri version))
    let stored ← orFail input (fun error => s!"stored manifest parse failed: {error}") (config.codec.fromSlice bytes)
    if (stored.verifyAuthentication config.codec (some key)).toOption.isNone || stored.batchId ≠ input.batchId ||
        stored.manifest.uri ≠ manifest.manifest.uri || stored.object.uri ≠ manifest.object.uri then
      fail input "stored manifest authentication or batch binding failed"

/-- `MANIFEST_UPLOADED` to `VERIFIED`. -/
def verifyUpload (manifest : VtopManifest) (compressed : CompressedObject) (checksum : Option String)
    (stored : StoredManifest) : Stage Unit := do
  orFail input (fun error => s!"manifest authentication verification failed: {error}")
    (manifest.verifyAuthentication config.codec config.manifestMacKey)
  let object ← verifyStored input "object" manifest.object.uri compressed.sizeBytes (objectChecksum config checksum)
  let written ← verifyStored input "manifest" manifest.manifest.uri stored.sizeBytes (objectChecksum config stored.checksum)
  readBack config input manifest stored.versionId
  if (object.backendLimited || written.backendLimited) && config.requireStrongVerification then
    fail input (s!"strong verification required but backend only confirmed size/existence " ++
      s!"(object: {object.message}; manifest: {written.message})")
  update input .Verified .default

/-- The stages of a batch that has records. -/
def stages : Stage VerifiedBatch := do
  let batch ← startBatch config input
  let (compressed, checksum) ← compressAndDigest config input batch
  let destination := config.destination input.sourceType input.sourceName input.batchId input.sealedAt
  ensureBucket config input destination.bucket
  checkVersioning config input destination.bucket
  uploadObject config input compressed checksum destination.objectUri
  let manifest := manifestOf config input compressed checksum destination
  let stored ← uploadManifest config input manifest
  verifyUpload config input manifest compressed checksum stored
  return ⟨input.batchId, destination.objectUri, input.read.progressEnd, input.read.records.length, input.sourceType⟩

end Stages

/-- Everything up to and including `VERIFIED`; no adapter is touched. -/
def processUntilVerified (config : EngineConfig) (input : BatchInput) : EngineProc (Except String VerifyStep) := do
  if input.read.records.isEmpty then return .ok (.Finished ⟨"", .Discovered, false, 0, none⟩)
  match ← (stages config input).run with
  | .ok batch => return .ok (.Verified batch)
  | .error (.finished outcome) => return .ok (.Finished outcome)
  | .error (.propagated error) => return .error error

/-- `VERIFIED` to `SOURCE_COMMITTED`.  A commit that fails leaves the batch verified. -/
def commitVerified (batch : VerifiedBatch) : EngineProc (Except String BatchOutcome) := do
  match ← Proc.request (commitProgress batch.batchId batch.sourceType batch.progressEnd) with
  | .error _ => return .ok ⟨batch.batchId, .Verified, false, batch.recordCount, some batch.objectUri⟩
  | .ok () =>
    match ← Proc.request (updateBatchState batch.batchId .SourceCommitted .default) with
    | .error error => return .error error
    | .ok () => return .ok ⟨batch.batchId, .SourceCommitted, true, batch.recordCount, some batch.objectUri⟩

/-- One batch from end to end. -/
def process (config : EngineConfig) (input : BatchInput) : EngineProc (Except String BatchOutcome) := do
  match ← processUntilVerified config input with
  | .error error => return .error error
  | .ok (.Finished outcome) => return .ok outcome
  | .ok (.Verified batch) => commitVerified batch

/-! ## The pipeline keeps the commit rule -/

section Rule

variable {config : EngineConfig} {input : BatchInput} {known : Heard} {α : Type}

theorem keeps_orPropagate (result : Except String α) :
    Keeps config.rule (fun _ value => result = .ok value) known (orPropagate result) := by
  cases result with
  | ok value => exact keeps_pure value rfl
  | error error => exact keeps_throw _

/-- A write to any state but the committed one is free; where the pipeline goes on, it was answered well. -/
theorem keeps_update (patch) (uncommitted : target ≠ .SourceCommitted) :
    Keeps config.rule (fun more _ => ⟨.updateBatchState input.batchId target patch, Except.ok ()⟩ ∈ more) known
      (update input target patch) := by
  have allowed : config.rule known (.updateBatchState input.batchId target patch) := by
    cases target with
    | SourceCommitted => exact absurd rfl uncommitted
    | _ => trivial
  refine keeps_asking_bind _ allowed fun answer => ?_
  refine (keeps_orPropagate answer).imp fun more result subset isOk value returned => ?_
  obtain rfl : answer = .ok () := isOk value returned
  exact subset (Set.mem_insert _ _)

theorem keeps_fail {post : Heard → α → Prop} (message) : Keeps config.rule post known (fail input message : Stage α) :=
  keeps_bind (keeps_update _ (by decide)) fun _ _ _ _ => keeps_throw _

/-- Nothing runs after a failed batch. -/
theorem keeps_fail_bind {β : Type} {post : Heard → β → Prop} (message) {next} :
    Keeps config.rule post known ((fail input message : Stage α) >>= next) :=
  keeps_bind (@keeps_fail _ _ _ _ (fun _ _ => False) message) fun _ _ _ impossible => impossible.elim

theorem keeps_orFail (message : String → String) (result : Except String α) :
    Keeps config.rule (fun _ value => result = .ok value) known (orFail input message result) := by
  cases result with
  | ok value => exact keeps_pure value rfl
  | error error => exact keeps_fail _

theorem keeps_startBatch :
    Keeps config.rule (fun more _ => ⟨.saveBatchState (input.record config), Except.ok ()⟩ ∈ more) known
      (startBatch config input) := by
  refine keeps_asking_bind _ rfl fun answer => ?_
  refine keeps_bind (keeps_orPropagate answer) fun saved _ heard isOk => ?_
  obtain rfl : answer = .ok () := isOk
  refine keeps_bind (keeps_orPropagate _) fun checked batch heardMore _ => ?_
  refine keeps_bind (keeps_update _ (by decide)) fun more _ subset _ => ?_
  exact keeps_pure batch (subset (heardMore (heard (Set.mem_insert _ _))))

/-- A digest is passed on exactly as the manifest records it. -/
theorem keeps_digestFile (path) : Keeps config.rule (fun _ result => ∀ checksum, result = .ok checksum →
      objectChecksum config checksum = config.algorithm.objectChecksum (checksum.getD "")) known
      (digestFile config path) := by
  unfold digestFile
  split
  case isTrue enabled =>
    refine keeps_asking_bind _ trivial fun answer => ?_
    refine keeps_pure _ fun checksum isOk => ?_
    cases answer with
    | error error => cases isOk
    | ok hex =>
      obtain rfl : some hex = checksum := Except.ok.inj isOk
      simp [objectChecksum, ChecksumAlgorithm.objectChecksum, enabled]
  case isFalse disabled =>
    refine keeps_pure _ fun checksum isOk => ?_
    obtain rfl : none = checksum := Except.ok.inj isOk
    simp [objectChecksum, ChecksumAlgorithm.objectChecksum, disabled]

theorem keeps_compressAndDigest (batch) : Keeps config.rule (fun _ result =>
      objectChecksum config result.2 = config.algorithm.objectChecksum (result.2.getD "")) known
      (compressAndDigest config input batch) := by
  refine keeps_asking_bind _ trivial fun answer => ?_
  refine keeps_bind (keeps_orPropagate _) fun _ compressed _ _ => ?_
  refine keeps_bind (keeps_orFail _ compressed) fun _ compressed _ _ => ?_
  refine keeps_bind (keeps_update _ (by decide)) fun _ _ _ _ => ?_
  refine keeps_bind (keeps_digestFile _) fun _ result _ recorded => ?_
  refine keeps_bind (keeps_orFail _ result) fun _ checksum _ isOk => ?_
  refine keeps_bind (keeps_update _ (by decide)) fun _ _ _ _ => ?_
  exact keeps_pure _ (recorded checksum isOk)

theorem keeps_ensureBucket (bucket) : Keeps config.rule (fun _ _ => True) known (ensureBucket config input bucket) := by
  unfold ensureBucket
  split
  · refine keeps_asking_bind _ trivial fun answer => ?_
    exact (keeps_orFail _ answer).imp fun _ _ _ _ _ _ => trivial
  · exact keeps_pure _ trivial

theorem keeps_checkVersioning (bucket) :
    Keeps config.rule (fun _ _ => True) known (checkVersioning config input bucket) := by
  unfold checkVersioning
  split
  · split
    · refine keeps_asking_bind _ trivial fun answer => ?_
      exact (keeps_orFail _ answer).imp fun _ _ _ _ _ _ => trivial
    · exact keeps_fail _
  · exact keeps_pure _ trivial

theorem keeps_uploadObject (compressed checksum uri) :
    Keeps config.rule (fun _ _ => True) known (uploadObject config input compressed checksum uri) := by
  have recorded (known : Heard) (patch : BatchPatch) :
      Keeps config.rule (fun _ _ => True) known (update input .ObjectUploaded patch) :=
    (keeps_update patch (by decide)).imp fun _ _ _ _ _ _ => trivial
  unfold uploadObject
  split
  · refine keeps_asking_bind _ trivial fun answer => ?_
    cases answer with
    | ok _ => exact recorded _ _
    | error error =>
      refine keeps_asking_bind _ trivial fun aborted => ?_
      exact keeps_fail_bind _
  · refine keeps_asking_bind _ trivial fun answer => ?_
    exact keeps_bind (keeps_orFail _ answer) fun more _ _ _ => recorded more _

theorem keeps_uploadManifest (manifest) :
    Keeps config.rule (fun more _ => ∃ path, ⟨.writeToFile manifest, Except.ok path⟩ ∈ more) known
      (uploadManifest config input manifest) := by
  refine keeps_asking_bind _ trivial fun answer => ?_
  refine keeps_bind (keeps_orPropagate answer) fun known path written isOk => ?_
  obtain rfl : answer = .ok path := isOk
  have written := written (Set.mem_insert _ _)
  refine keeps_bind (keeps_digestFile _) fun known result heard _ => ?_
  have written := heard written
  refine keeps_bind (keeps_orPropagate _) fun known checksum heard _ => ?_
  have written := heard written
  refine keeps_asking_bind _ trivial fun answer => ?_
  refine keeps_bind (keeps_orPropagate answer) fun known size heard _ => ?_
  have written := heard (Set.mem_insert_of_mem _ written)
  refine keeps_asking_bind _ trivial fun answer => ?_
  refine keeps_bind (keeps_orFail _ answer) fun known version heard _ => ?_
  have written := heard (Set.mem_insert_of_mem _ written)
  split
  · exact keeps_fail_bind _
  · refine keeps_bind (keeps_update _ (by decide)) fun more _ subset _ => ?_
    exact keeps_pure _ ⟨path, subset written⟩

theorem keeps_verifyStored (what uri size checksum) : Keeps config.rule (fun more result =>
      ⟨.verifyObject uri size checksum, Except.ok result⟩ ∈ more ∧ result.passed = true) known
      (verifyStored input what uri size checksum) := by
  refine keeps_asking_bind _ trivial fun answer => ?_
  refine keeps_bind (keeps_orPropagate answer) fun more result subset isOk => ?_
  obtain rfl : answer = .ok result := isOk
  split
  case isTrue passed => exact keeps_pure _ ⟨subset (Set.mem_insert _ _), passed⟩
  case isFalse => exact keeps_fail _

theorem keeps_readBack (manifest version) :
    Keeps config.rule (fun _ _ => True) known (readBack config input manifest version) := by
  unfold readBack
  split
  · exact keeps_pure _ trivial
  · refine keeps_asking_bind _ trivial fun answer => ?_
    refine keeps_bind (keeps_orFail _ answer) fun _ bytes _ _ => ?_
    refine keeps_bind (keeps_orFail _ _) fun _ stored _ _ => ?_
    split
    · exact keeps_fail _
    · exact keeps_pure _ trivial

/-- A batch is recorded verified only after its manifest was authenticated and its object seen to match. -/
theorem keeps_verifyUpload (manifest : VtopManifest) (compressed : CompressedObject) (checksum stored) :
    Keeps config.rule (fun more _ => manifest.verifyAuthentication config.codec config.manifestMacKey = .ok () ∧
      (∃ result : VerificationResult, ⟨.verifyObject manifest.object.uri compressed.sizeBytes (objectChecksum config checksum),
          Except.ok result⟩ ∈ more ∧ result.passed = true ∧
        (config.requireStrongVerification = true → result.backendLimited = false)) ∧
      ⟨.updateBatchState input.batchId .Verified .default, Except.ok ()⟩ ∈ more) known
      (verifyUpload config input manifest compressed checksum stored) := by
  refine keeps_bind (keeps_orFail _ _) fun known _ _ authentic => ?_
  refine keeps_bind (keeps_verifyStored _ _ _ _) fun known object _ checked => ?_
  obtain ⟨heard, passed⟩ := checked
  refine keeps_bind (keeps_verifyStored _ _ _ _) fun known written subset _ => ?_
  have heard := subset heard
  refine keeps_bind (keeps_readBack _ _) fun known _ subset _ => ?_
  have heard := subset heard
  split
  case isTrue => exact keeps_fail_bind _
  case isFalse strong =>
    refine (keeps_update _ (by decide)).imp fun more _ subset recorded value returned => ?_
    refine ⟨authentic, ⟨object, subset heard, passed, fun required => ?_⟩, recorded value returned⟩
    simp only [required, Bool.and_true, Bool.or_eq_true, not_or, Bool.not_eq_true] at strong
    exact strong.1

/-- A batch that leaves the stages is entitled to its commit. -/
theorem keeps_stages : Keeps config.rule (fun more batch => Entitled more batch.batchId batch.sourceType batch.progressEnd ∧
      Vouched config more batch.batchId) known (stages config input) := by
  refine keeps_bind keeps_startBatch fun known batch _ saved => ?_
  refine keeps_bind (keeps_compressAndDigest _) fun known result subset recorded => ?_
  obtain ⟨compressed, checksum⟩ := result
  have saved := subset saved
  refine keeps_bind (keeps_ensureBucket _) fun known _ subset _ => ?_
  have saved := subset saved
  refine keeps_bind (keeps_checkVersioning _) fun known _ subset _ => ?_
  have saved := subset saved
  refine keeps_bind (keeps_uploadObject _ _ _) fun known _ subset _ => ?_
  have saved := subset saved
  refine keeps_bind (keeps_uploadManifest _) fun known stored subset written => ?_
  have saved := subset saved
  obtain ⟨path, written⟩ := written
  refine keeps_bind (keeps_verifyUpload _ _ _ _) fun more _ subset verified => ?_
  obtain ⟨authentic, ⟨result, heard, passed⟩, isVerified⟩ := verified
  refine keeps_pure _ ⟨.verified (input.record config) (subset saved) rfl rfl rfl isVerified, ?_⟩
  refine ⟨_, rfl, .inl ⟨path, subset written⟩, authentic, result, ?_, passed⟩
  have sameChecksum : (manifestOf config input compressed checksum
      (config.destination input.sourceType input.sourceName input.batchId input.sealedAt)).recordedChecksum =
        objectChecksum config checksum := by
    unfold VtopManifest.recordedChecksum
    simp only [manifestOf, buildWithMac_object, ChecksumAlgorithm.fromStr_asStr]
    exact recorded.symm
  rw [sameChecksum]
  exact heard

theorem obeys_processUntilVerified :
    (processUntilVerified config input).Obeys config.rule (fun more result => ∀ batch, result = .ok (.Verified batch) →
      Entitled more batch.batchId batch.sourceType batch.progressEnd ∧ Vouched config more batch.batchId) known := by
  unfold processUntilVerified
  split
  · rintro batch ⟨⟩
  · refine (Proc.obeys_bind _ _).mpr (keeps_stages.imp fun more result _ entitled => ?_)
    cases result with
    | ok batch =>
      rintro _ ⟨⟩
      exact entitled batch rfl
    | error stop =>
      cases stop with
      | finished outcome | propagated error => rintro batch ⟨⟩

theorem obeys_commitVerified {batch : VerifiedBatch}
    (entitled : Entitled known batch.batchId batch.sourceType batch.progressEnd)
    (vouched : Vouched config known batch.batchId) :
    (commitVerified batch).Obeys config.rule (fun _ _ => True) known := by
  refine ⟨⟨entitled, vouched⟩, fun answer => ?_⟩
  cases answer with
  | error error => trivial
  | ok _ =>
    refine ⟨⟨_, _, entitled.mono (Set.subset_insert _ _), Set.mem_insert _ _⟩, fun answer => ?_⟩
    cases answer <;> trivial

/-- Whatever it is answered, the pipeline keeps the commit rule. -/
theorem obeys_process : (process config input).Obeys config.rule (fun _ _ => True) known := by
  refine (Proc.obeys_bind _ _).mpr (obeys_processUntilVerified.imp fun more result _ verified => ?_)
  cases result with
  | error error => trivial
  | ok step =>
    cases step with
    | Finished outcome => trivial
    | Verified batch =>
      obtain ⟨entitled, vouched⟩ := verified batch rfl
      exact obeys_commitVerified entitled vouched

end Rule

end VtopEngine.Cli
