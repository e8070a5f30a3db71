import VtopEngine.Core.StateMachine
import VtopEngine.Core.Types
import VtopEngine.Lib.Hex

/-! # Manifests

The record written beside every object (`manifest.rs`): it names the object with its
size and digest, and carries a hash of itself and, under a key, an authenticator.  How a
manifest is serialized and hashed is left open.

* `ChecksumAlgorithm`, `ObjectChecksum` — the digest of an object.
* `VtopManifest.verifyAuthentication` — the hash, and under a key the authenticator too.
* `buildWithMac` — a manifest with both filled in.
-/

namespace VtopEngine.Core

open Lib

/-! ## Checksums -/

/-- Equal up to the case of the letters `A` to `Z`. -/
def EqIgnoreAsciiCase (left right : String) : Prop := left.toList.map Char.toLower = right.toList.map Char.toLower

instance (left right : String) : Decidable (EqIgnoreAsciiCase left right) := inferInstanceAs (Decidable (_ = _))

inductive ChecksumAlgorithm
  | Sha256 | Blake3 | None
  deriving DecidableEq, Repr

namespace ChecksumAlgorithm

def asStr : ChecksumAlgorithm → String
  | .Sha256 => "sha256"
  | .Blake3 => "blake3"
  | .None => "none"

/-- Whether it produces a digest. -/
def isEnabled (algorithm : ChecksumAlgorithm) : Bool := algorithm ≠ .None

def fromStr (text : String) : Except String ChecksumAlgorithm :=
  if EqIgnoreAsciiCase text "sha256" ∨ EqIgnoreAsciiCase text "sha-256" then .ok .Sha256
  else if EqIgnoreAsciiCase text "blake3" ∨ EqIgnoreAsciiCase text "blake-3" then .ok .Blake3
  else if EqIgnoreAsciiCase text "none" ∨ EqIgnoreAsciiCase text "disabled" ∨ EqIgnoreAsciiCase text "off" then .ok .None
  else .error s!"unknown checksum algorithm: {text}"

theorem fromStr_asStr (algorithm : ChecksumAlgorithm) : fromStr algorithm.asStr = .ok algorithm := by cases algorithm <;> rfl

end ChecksumAlgorithm

/-- A digest as a backend is told it. -/
structure ObjectChecksum where
  (algorithm hex : String)
  deriving DecidableEq, Repr

/-! ## The manifest -/

structure ObjectMetadata where
  uri : String
  sizeBytes : Nat
  (checksumAlgorithm checksum : String)
  deriving DecidableEq, Repr

structure ManifestMetadata where
  (uri sha256 : String)
  mac : Option String
  deriving DecidableEq, Repr

structure PartitionMetadata where
  (pathTemplate resolvedPrefix : String)
  deriving DecidableEq, Repr

inductive VerificationStatus
  | NotVerified | Passed | Failed | BackendLimited
  deriving DecidableEq, Repr

def VTOP_PROTOCOL : String := "VTOP"
def VTOP_VERSION : String := "0.2"

structure VtopManifest where
  (protocol version batchId tenant : String)
  sourceType : SourceType
  sourceName : String
  format : TelemetryFormat
  compression : CompressionType
  recordCount : Nat
  (firstTimestamp lastTimestamp : Option String)
  sourceProgress : ProgressMarker
  object : ObjectMetadata
  manifest : ManifestMetadata
  partitioning : PartitionMetadata
  uploadBackend : String
  state : BatchState
  verificationStatus : VerificationStatus
  createdAt : String
  deriving DecidableEq, Repr

/-- The digest an algorithm's result is passed on as. -/
def ChecksumAlgorithm.objectChecksum (algorithm : ChecksumAlgorithm) (checksum : String) : Option ObjectChecksum :=
  if algorithm.isEnabled then some ⟨algorithm.asStr, checksum⟩ else none

/-- A 32-byte key; hashes of 32 bytes come out of it. -/
structure ManifestMacKey where
  bytes : Vector UInt8 32

/-- What manifests are serialized, read back and hashed with. -/
structure ManifestCodec where
  toBytes : VtopManifest → List UInt8
  fromSlice : List UInt8 → Except String VtopManifest
  sha256 : List UInt8 → String
  keyedHash : ManifestMacKey → List UInt8 → Vector UInt8 32

namespace VtopManifest

variable (codec : ManifestCodec)

/-- The bytes both hashes are over: the values they fill in are blank, whether a MAC is there is not. -/
def authBytes (manifest : VtopManifest) : List UInt8 :=
  codec.toBytes { manifest with
    manifest := { manifest.manifest with sha256 := "", mac := manifest.manifest.mac.map fun _ => "" } }

def selfHash (manifest : VtopManifest) : String := codec.sha256 (manifest.authBytes codec)

def verifySelfHash (manifest : VtopManifest) : Except String Unit :=
  if EqIgnoreAsciiCase (manifest.selfHash codec) manifest.manifest.sha256 then .ok ()
  else
    .error (s!"checksum mismatch for {manifest.manifest.uri}: expected {manifest.selfHash codec}, " ++
      s!"got {manifest.manifest.sha256}")

/-- Under a key a manifest without a valid authenticator is refused. -/
def verifyAuthentication (manifest : VtopManifest) (key : Option ManifestMacKey) : Except String Unit := do
  manifest.verifySelfHash codec
  match key with
  | none => return ()
  | some key =>
    match manifest.manifest.mac with
    | none => throw "manifest MAC is required because manifest_mac_key_env is configured"
    | some actualHex =>
      match hexDecode actualHex.toList with
      | none => throw "manifest MAC is not valid hex"
      | some actual =>
        if actual.length ≠ 32 then throw "manifest MAC must be exactly 32 bytes"
        else if actual = (codec.keyedHash key (manifest.authBytes codec)).toList then return ()
        else throw "manifest MAC verification failed"

/-- The digest the manifest records for its object. -/
def recordedChecksum (manifest : VtopManifest) : Option ObjectChecksum :=
  match ChecksumAlgorithm.fromStr manifest.object.checksumAlgorithm with
  | .ok algorithm => algorithm.objectChecksum manifest.object.checksum
  | .error _ => none

end VtopManifest

/-- Fill in what every manifest begins with, its hash, and under a key its authenticator. -/
def buildWithMac (codec : ManifestCodec) (draft : VtopManifest) (key : Option ManifestMacKey) : VtopManifest :=
  let blank := { draft with
    protocol := VTOP_PROTOCOL
    version := VTOP_VERSION
    manifest := { draft.manifest with sha256 := "", mac := key.map fun _ => "" }
    state := .ManifestUploaded
    verificationStatus := .NotVerified }
  { blank with
    manifest := { blank.manifest with
      sha256 := blank.selfHash codec
      mac := key.map fun key => hexEncode (codec.keyedHash key (blank.authBytes codec)).toList } }

section

variable (codec : ManifestCodec) (draft : VtopManifest) (key : Option ManifestMacKey)

theorem buildWithMac_object :
    (buildWithMac codec draft key).object = draft.object := rfl

end

end VtopEngine.Core
