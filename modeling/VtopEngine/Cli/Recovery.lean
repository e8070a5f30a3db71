import VtopEngine.Cli.Pipeline
import VtopEngine.Cli.RewindPlan

/-! # Recovery

The scan an engine runs at startup (`Engine::recover`): adapters are seeded from committed
batches, every incomplete row is claimed, a row that is verified is checked against the
store again, every other row is handed back to its source, and what was checked is
committed unless it would strand a range below it.

* `storageStillVerified` — the check of a verified row against the store.
* `recover` — the scan.
* `keeps_recover` — whatever the calls are answered, recovery keeps the commit rule.
-/

namespace VtopEngine.Cli

open Adapters VtopEngine.Core Lib State Proc Request
open Upload (VerificationResult)

/-! ## The check against the store -/

/-- The row names a hash of the manifest and it is the manifest's own. -/
def ledgerManifestHashMatches (record : BatchRecord) (manifest : VtopManifest) : Bool :=
  record.manifestSha256.any fun want => want ≠ "" && decide (EqIgnoreAsciiCase want manifest.manifest.sha256)

/-- What the row says of the object is not what the manifest says. -/
def ledgerDisagrees (record : BatchRecord) (manifest : VtopManifest) : Bool :=
  (record.objectSizeBytes.any fun want => want < 0 || want.toNat ≠ manifest.object.sizeBytes) ||
    record.objectSha256.any fun want => want ≠ "" && !decide (EqIgnoreAsciiCase want manifest.object.checksum)

/-- The manifest authenticates and is the manifest of this row. -/
def boundToRow (config : EngineConfig) (record : BatchRecord) (objectUri manifestUri : String) (manifest : VtopManifest) :
    Bool :=
  (manifest.verifyAuthentication config.codec config.manifestMacKey).toOption.isSome &&
    manifest.batchId = record.batchId && manifest.manifest.uri = manifestUri && manifest.object.uri = objectUri &&
    ledgerManifestHashMatches record manifest && !ledgerDisagrees record manifest

/-- Ask the backend for the content the manifest records. -/
def checkContent (config : EngineConfig) (uri : String) (manifest : VtopManifest) : EngineProc Bool := do
  match ChecksumAlgorithm.fromStr manifest.object.checksumAlgorithm with
  | .error _ => return false
  | .ok algorithm =>
    if algorithm.isEnabled && manifest.object.checksum = "" then return false
    else
      match ← request
        (verifyObject uri manifest.object.sizeBytes (algorithm.objectChecksum manifest.object.checksum)) with
      | .error _ => return false
      | .ok result => return result.passed && (!result.backendLimited || !config.requireStrongVerification)

/-- Check a row against the manifest that was downloaded for it. -/
def checkManifest (config : EngineConfig) (record : BatchRecord) (uri manifestUri : String) (bytes : List UInt8) :
    EngineProc Bool :=
  match config.codec.fromSlice bytes with
  | .error _ => return false
  | .ok manifest =>
    if boundToRow config record uri manifestUri manifest then checkContent config uri manifest else return false

/-- Whether a row that is verified still checks out against the stored bytes. -/
def storageStillVerified (config : EngineConfig) (record : BatchRecord) : EngineProc Bool := do
  match record.objectUri, record.manifestUri with
  | some uri, some manifestUri =>
    match ← request (getManifest manifestUri record.manifestVersionId) with
    | .error _ => return false
    | .ok bytes => checkManifest config record uri manifestUri bytes
  | _, _ => return false

/-! ## The scan -/

structure RecoverySummary where
  (committed replayRequired stillPending : Nat)

/-- What the scan has gathered. -/
structure Scan where
  rewinds : RewindPlan
  verified : List BatchRecord
  summary : RecoverySummary

def Scan.default : Scan := ⟨.default, [], ⟨0, 0, 0⟩⟩

/-- Count a row that stays as it is. -/
def Scan.pending (scan : Scan) : Scan :=
  { scan with summary := { scan.summary with stillPending := scan.summary.stillPending + 1 } }

/-- The decision to replay is durable before the range is handed back: a write that fails leaves the row for the next
recovery. -/
def handBack (record : BatchRecord) (message : String) (scan : Scan) : EngineProc Scan := do
  match ← request (updateBatchState record.batchId .Failed
    { BatchPatch.default with errorMessage := some message }) with
  | .error _ => return scan.pending
  | .ok () =>
    match ← request (updateBatchState record.batchId .ReplayRequired .default) with
    | .error _ => return scan.pending
    | .ok () =>
      return { scan with
        rewinds := scan.rewinds.add record.progressStart
        summary := { scan.summary with replayRequired := scan.summary.replayRequired + 1 } }

inductive RecoveryAction
  | RetryCompression | RetryChecksum | RetryObjectUpload | RetryManifestUpload | RetryVerification
  | RetrySourceCommit | ReplayFromSource | None
  deriving DecidableEq

def nextRecoveryAction : BatchState → RecoveryAction
  | .Discovered | .Batching => .ReplayFromSource
  | .Sealed => .RetryCompression
  | .Compressed => .RetryChecksum
  | .Checksummed => .RetryObjectUpload
  | .ObjectUploaded => .RetryManifestUpload
  | .ManifestUploaded => .RetryVerification
  | .Verified => .RetrySourceCommit
  | .Failed | .ReplayRequired => .ReplayFromSource
  | .SourceCommitted => .None

/-- One incomplete row. -/
def scanRow (config : EngineConfig) (scan : Scan) (record : BatchRecord) : EngineProc Scan := do
  match nextRecoveryAction record.state with
  | .RetrySourceCommit =>
    if ← storageStillVerified config record then return { scan with verified := scan.verified ++ [record] }
    else handBack record "recovery: stale VERIFIED (storage re-check failed)" scan
  | .None => return scan
  | _ => handBack record "recovered: replay required" scan

/-! ## Commits and rewinds -/

abbrev Recovering := ExceptT String EngineProc

def seedAdapter (config : EngineConfig) (source : SourceType) (cursors : List CommittedCursor) : EngineProc Unit := do
  if source ∈ config.adapters then
    let _ ← request (seedCommitted source cursors)

def seedCommittedOffsets (config : EngineConfig) : Recovering Unit := do
  let fileCursors ← ExceptT.mk (request (committedCursors .File))
  let spoolCursors ← ExceptT.mk (request (committedCursors .SyslogSpool))
  ExceptT.lift (seedAdapter config .File fileCursors)
  ExceptT.lift (seedAdapter config .SyslogSpool spoolCursors)

/-- Note where the read head of a marker's unit is. -/
def noteLanding (source : SourceType) (landed : AList fun _ : String => Int) (marker : ProgressMarker) :
    EngineProc (AList fun _ : String => Int) := do
  match ← request (readPosition source marker) with
  | some position => return landed.insert (unitKey marker) position
  | none => return landed

/-- Rewind the ranges of one source and learn where each unit's read head lands. -/
def landing (config : EngineConfig) (landed : AList fun _ : String => Int) (group : SourceType × List ProgressMarker) :
    EngineProc (AList fun _ : String => Int) := do
  if group.1 ∈ config.adapters then
    let _ ← request (replayFromMarkers group.1 group.2)
    group.2.foldlM (noteLanding group.1) landed
  else return landed

/-- Commit the progress of a row that was just checked, and record it. -/
def commitRecovered (config : EngineConfig) (record : BatchRecord) (summary : RecoverySummary) :
    Recovering RecoverySummary := do
  if record.sourceType ∈ config.adapters then
    match ← asking (commitProgress record.batchId record.sourceType record.progressEnd) with
    | .ok () =>
      ExceptT.mk (request (updateBatchState record.batchId .SourceCommitted .default))
      return { summary with committed := summary.committed + 1 }
    | .error _ => return { summary with stillPending := summary.stillPending + 1 }
  else return { summary with stillPending := summary.stillPending + 1 }

/-- A verified row above a range that is about to be read again stays verified. -/
def commitUnlessHeldBack (config : EngineConfig) (rewinds : RewindPlan) (summary : RecoverySummary) (record : BatchRecord) :
    Recovering RecoverySummary := do
  if rewinds.holdsBack record.progressStart then return { summary with stillPending := summary.stillPending + 1 }
  else commitRecovered config record summary

/-- Hand the ranges of one source back for good. -/
def rewindSource (config : EngineConfig) (summary : RecoverySummary) (group : SourceType × List ProgressMarker) :
    EngineProc RecoverySummary := do
  if group.1 ∈ config.adapters then
    let results ← request (replayFromMarkers group.1 group.2)
    return { summary with
      stillPending := summary.stillPending + ((group.2.zip results).filter fun entry => entry.2.toOption.isNone).length }
  else return { summary with stillPending := summary.stillPending + group.2.length }

def recover (config : EngineConfig) (now : Int) : Recovering RecoverySummary := do
  seedCommittedOffsets config
  let incomplete ← ExceptT.mk (request (claimIncompleteBatches config.name now (now + LEASE_TTL_SECS)))
  let scan ← ExceptT.lift (incomplete.foldlM (scanRow config) .default)
  let groups := bySourceType scan.rewinds.markers
  -- The first rewinds only tell where each unit lands: not below what its source has committed.
  let landed ← ExceptT.lift (groups.foldlM (landing config) ∅)
  let summary ← scan.verified.foldlM (commitUnlessHeldBack config (scan.rewinds.rebase landed)) scan.summary
  -- The commits moved committed points up, and these rewinds are clamped to them.
  ExceptT.lift (groups.foldlM (rewindSource config) summary)

/-! ## Recovery keeps the commit rule -/

section Rule

variable {config : EngineConfig} {known : Heard} {record : BatchRecord} {records : List BatchRecord} {scan : Scan}

/-- A content check that passed asked for the size and digest the manifest records. -/
theorem obeys_checkContent (uri) (manifest : VtopManifest) :
    (checkContent config uri manifest).Obeys config.rule (fun more passed => passed = true → ∃ result : VerificationResult,
        ⟨.verifyObject uri manifest.object.sizeBytes manifest.recordedChecksum, Except.ok result⟩ ∈ more ∧
          result.passed = true ∧ (config.requireStrongVerification = true → result.backendLimited = false)) known := by
  unfold checkContent VtopManifest.recordedChecksum
  cases ChecksumAlgorithm.fromStr manifest.object.checksumAlgorithm with
  | error error => rintro ⟨⟩
  | ok algorithm =>
    simp only
    split
    · rintro ⟨⟩
    · refine ⟨trivial, fun answer => ?_⟩
      cases answer with
      | error error => rintro ⟨⟩
      | ok result =>
        intro passed
        obtain ⟨passed, strong⟩ := Bool.and_eq_true_iff.mp passed
        refine ⟨result, Set.mem_insert _ _, passed, fun required => ?_⟩
        simpa [required] using strong

theorem obeys_checkManifest (uri manifestUri bytes)
    (downloaded : ⟨.getManifest manifestUri record.manifestVersionId, Except.ok bytes⟩ ∈ known) :
    (checkManifest config record uri manifestUri bytes).Obeys config.rule
      (fun more verified => verified = true → Vouched config more record.batchId) known := by
  unfold checkManifest
  cases parsed : config.codec.fromSlice bytes with
  | error error => rintro ⟨⟩
  | ok manifest =>
    simp only
    split
    case isFalse => rintro ⟨⟩
    case isTrue bound =>
      refine (obeys_checkContent uri manifest).imp fun more passed heard checked isPassed => ?_
      obtain ⟨result, verified, passed⟩ := checked isPassed
      simp only [boundToRow, Bool.and_eq_true, decide_eq_true_eq] at bound
      obtain ⟨⟨⟨⟨⟨authentic, isBatch⟩, -⟩, rfl⟩, -⟩, -⟩ := bound
      have authentic : manifest.verifyAuthentication config.codec config.manifestMacKey = .ok () := by
        cases outcome : manifest.verifyAuthentication config.codec config.manifestMacKey with
        | ok => rfl
        | error error =>
          rw [outcome] at authentic
          cases authentic
      exact ⟨manifest, isBatch, .inr ⟨_, _, bytes, heard downloaded, parsed⟩, authentic, result, verified, passed⟩

/-- A row that still checks out is vouched for. -/
theorem obeys_storageStillVerified : (storageStillVerified config record).Obeys config.rule
      (fun more verified => verified = true → Vouched config more record.batchId) known := by
  unfold storageStillVerified
  split
  case h_2 => rintro ⟨⟩
  case h_1 uri manifestUri _ _ =>
    refine ⟨trivial, fun answer => ?_⟩
    cases answer with
    | error error => rintro ⟨⟩
    | ok bytes => exact obeys_checkManifest uri manifestUri bytes (Set.mem_insert _ _)

theorem obeys_handBack (message) :
    (handBack record message scan).Obeys config.rule (fun _ after => after.verified = scan.verified) known := by
  refine ⟨trivial, fun answer => ?_⟩
  cases answer with
  | error error => rfl
  | ok _ =>
    refine ⟨trivial, fun answer => ?_⟩
    cases answer <;> rfl

/-- Every row set aside for its commit was claimed verified and is vouched for. -/
def Scan.Sound (scan : Scan) (config : EngineConfig) (records : List BatchRecord) (known : Heard) : Prop :=
  ∀ record ∈ scan.verified, record ∈ records ∧ record.state = .Verified ∧ Vouched config known record.batchId

theorem Scan.Sound.mono (sound : scan.Sound config records known) (subset : known ⊆ more) :
    scan.Sound config records more := by
  intro record member
  obtain ⟨isRow, isVerified, vouched⟩ := sound record member
  exact ⟨isRow, isVerified, vouched.mono subset⟩

theorem obeys_scanRow (isRow : record ∈ records) (sound : scan.Sound config records known) :
    (scanRow config scan record).Obeys config.rule (fun more after => after.Sound config records more) known := by
  have handedBack (known : Heard) (message : String) (sound : scan.Sound config records known) :
      (handBack record message scan).Obeys config.rule (fun more after => after.Sound config records more) known := by
    refine (obeys_handBack message).imp fun more after subset same => ?_
    intro other member
    exact sound.mono subset other (same ▸ member)
  unfold scanRow
  split
  case h_1 isCommit =>
    have isVerified : record.state = .Verified := by
      cases isState : record.state <;> rw [isState] at isCommit <;> first | rfl | cases isCommit
    rw [obeys_bind]
    refine obeys_storageStillVerified.imp fun more verified subset vouched => ?_
    split
    case isTrue isTrue =>
      intro other member
      rcases List.mem_append.mp member with member | member
      · exact sound.mono subset other member
      · obtain rfl := List.mem_singleton.mp member
        exact ⟨isRow, isVerified, vouched isTrue⟩
    case isFalse => exact handedBack more _ (sound.mono subset)
  case h_2 => exact sound
  case h_3 => exact handedBack known _ sound

theorem obeys_landing (landed group) : (landing config landed group).Obeys config.rule (fun _ _ => True) known := by
  unfold landing
  split
  · refine ⟨trivial, fun answer => ?_⟩
    refine obeys_foldlM _ (fun known landed marker _ _ => ?_) _ trivial
    refine ⟨trivial, fun position => ?_⟩
    cases position <;> trivial
  · trivial

theorem obeys_rewindSource (summary group) :
    (rewindSource config summary group).Obeys config.rule (fun _ _ => True) known := by
  unfold rewindSource
  split
  · exact ⟨trivial, fun _ => trivial⟩
  · trivial

theorem obeys_seedAdapter (source cursors) :
    (seedAdapter config source cursors).Obeys config.rule (fun _ _ => True) known := by
  unfold seedAdapter
  split
  · exact ⟨trivial, fun _ => trivial⟩
  · trivial

theorem keeps_seedCommittedOffsets : Keeps config.rule (fun _ _ => True) known (seedCommittedOffsets config) := by
  refine ⟨trivial, fun answer => ?_⟩
  cases answer with
  | error error => exact keeps_throw _
  | ok fileCursors =>
    refine ⟨trivial, fun answer => ?_⟩
    cases answer with
    | error error => exact keeps_throw _
    | ok spoolCursors =>
      exact keeps_bind (keeps_lift (obeys_seedAdapter _ _)) fun _ _ _ _ => keeps_lift (obeys_seedAdapter _ _)

theorem keeps_commitRecovered (summary) (entitled : Entitled known record.batchId record.sourceType record.progressEnd)
    (vouched : Vouched config known record.batchId) :
    Keeps config.rule (fun _ _ => True) known (commitRecovered config record summary) := by
  unfold commitRecovered
  split
  · refine keeps_asking_bind _ ⟨entitled, vouched⟩ fun answer => ?_
    cases answer with
    | error error => exact keeps_pure _ trivial
    | ok _ =>
      refine ⟨⟨_, _, entitled.mono (Set.subset_insert _ _), Set.mem_insert _ _⟩, fun answer => ?_⟩
      cases answer with
      | error error => exact keeps_throw _
      | ok _ => exact keeps_pure _ trivial
  · exact keeps_pure _ trivial

/-- Recovery commits only rows it claimed verified and found in the store again. -/
theorem keeps_recover (now) : Keeps config.rule (fun _ _ => True) known (recover config now) := by
  refine keeps_bind keeps_seedCommittedOffsets fun known _ _ _ => ?_
  refine ⟨trivial, fun answer => ?_⟩
  cases answer with
  | error error => exact keeps_throw _
  | ok records =>
    have scanned : ((records.foldlM (scanRow config) .default)).Obeys config.rule
        (fun more scan => scan.Sound config records more)
        (insert ⟨.claimIncompleteBatches config.name now (now + LEASE_TTL_SECS), Except.ok records⟩ known) :=
      obeys_foldlM records (fun _ _ _ isRow sound => obeys_scanRow isRow sound) .default (by rintro _ ⟨⟩)
    refine keeps_bind (keeps_lift scanned) fun known scan heard sound => ?_
    have claimed := heard (Set.mem_insert _ _)
    have landings : ((bySourceType scan.rewinds.markers).foldlM (landing config) ∅).Obeys config.rule
        (fun _ _ => True) known :=
      obeys_foldlM _ (fun _ landed group _ _ => obeys_landing landed group) ∅ trivial
    refine keeps_bind (keeps_lift landings) fun known landed heard _ => ?_
    -- The commits know every row that was set aside as it was when the scan ended.
    have commits : Keeps config.rule (fun more _ => known ⊆ more) known
        (scan.verified.foldlM (commitUnlessHeldBack config (scan.rewinds.rebase landed)) scan.summary) := by
      refine keeps_foldlM scan.verified (fun more summary record member subset => ?_) scan.summary Set.Subset.rfl
      obtain ⟨isRow, isVerified, vouched⟩ := sound record member
      have entitled : Entitled more record.batchId record.sourceType record.progressEnd :=
        .claimed _ _ _ records (subset (heard claimed)) record isRow isVerified rfl rfl rfl
      unfold commitUnlessHeldBack
      split
      · exact keeps_pure _ subset
      · refine (keeps_commitRecovered summary entitled (vouched.mono (heard.trans subset))).imp ?_
        exact fun more _ grown _ _ _ => subset.trans grown
    refine keeps_bind commits fun known summary _ _ => keeps_lift ?_
    exact obeys_foldlM _ (fun _ summary group _ _ => obeys_rewindSource summary group) summary trivial

end Rule

end VtopEngine.Cli
