import VtopEngine.Core.Manifest
import VtopEngine.Lib.Process
import VtopEngine.Lib.SortedMap

/-! # Resumable multipart uploads

`upload_resumable` (`multipart.rs`) sends a file in parts and keeps a session file of the parts
that were sent, so that a later call goes on where one was interrupted.  Parts kept from earlier
calls are read again from the local file before they are named; a completion that fails is taken
to have happened if the store can verify the object.

* `UploadRequest` — the calls to the file system and to the store.
* `revalidatePersistedParts`, `uploadMissingParts`, `recoverCompleted` — the steps.
* `uploadResumable` — a call.
-/

namespace VtopEngine.Upload

open VtopEngine.Core Lib

/-! ## Sessions -/

/-- The tokens a resumable upload is resumed under. -/
structure MultipartFence where
  (expectedSegmentGeneration fencingEpoch : Nat)
  (contentDigestHex contentDigestAlgorithm : String)
  byteLength : Nat
  deriving DecidableEq

/-- What a verification of a stored object found. -/
structure VerificationResult where
  (passed backendLimited : Bool)
  message : String

structure PersistedPart where
  partNumber : Nat
  etag : String
  sizeBytes : Nat
  partDigestHex : String
  deriving DecidableEq

structure UploadedPart where
  partNumber : Nat
  etag : String
  deriving DecidableEq

structure StoredObject where
  versionId : Option String
  deriving DecidableEq

inductive MultipartSessionPhase
  | InProgress | Completed
  deriving DecidableEq

structure MultipartSession where
  schemaVersion : Nat
  (backendId objectUri localPath uploadId : String)
  partSizeBytes : Nat
  fence : MultipartFence
  phase : MultipartSessionPhase
  parts : SortedMap Nat PersistedPart
  (createdAtUnixSecs updatedAtUnixSecs : Nat)
  completedVersionId : Option String

def SESSION_SCHEMA : Nat := 1

def MAX_SEMAPHORE_PERMITS : Nat := (2 ^ 64 - 1) / 8

structure MultipartUploadConfig where
  (partSizeBytes maxParallelism : Nat)
  stateDir : String

/-- What a backend is known by. -/
structure Backend where
  supportsMultipart : Bool
  backendName : String

/-- The digest of a part, and the name that the session of an object and a fence is kept under. -/
structure UploadHashes where
  blake3 : List UInt8 → String
  sessionFileName : String → MultipartFence → String

set_option linter.dupNamespace false in
inductive VtopError
  | Config (message : String)
  | Upload (message : String)
  | NotFound (uri : String)
  deriving DecidableEq

/-! ## Calls -/

inductive UploadRequest
  | nowUnixSecs
  | fileLen (path : String)
  | readExact (path : String) (offset len : Nat)
  | loadSession (path : String)
  | saveSession (path : String) (session : MultipartSession)
  | deleteSession (path : String)
  | createMultipartUpload (uri : String) (checksum : Option ObjectChecksum)
  | uploadPart (uri uploadId : String) (partNumber : Nat) (data : List UInt8)
  | completeMultipartUpload (uri uploadId : String) (parts : List UploadedPart)
  | verifyObject (uri : String) (expectedSize : Nat) (expected : Option ObjectChecksum)
  | headObject (uri : String)

/-- A session that cannot be read or decoded counts as none. -/
def UploadAnswer : UploadRequest → Type
  | .nowUnixSecs => Nat
  | .fileLen _ => Except VtopError Nat
  | .readExact .. => Except VtopError (List UInt8)
  | .loadSession _ => Option MultipartSession
  | .saveSession .. | .deleteSession _ => Except VtopError Unit
  | .createMultipartUpload .. => Except VtopError String
  | .uploadPart .. => Except VtopError UploadedPart
  | .completeMultipartUpload .. => Except VtopError StoredObject
  | .verifyObject .. => Except VtopError VerificationResult
  | .headObject _ => Except VtopError Unit

open UploadRequest

abbrev UploadProc := Proc UploadRequest UploadAnswer

/-- A step that may stop the call. -/
abbrev UploadStep := ExceptT VtopError UploadProc

/-- Go on with an answer, or stop with its error. -/
def orStop {α : Type} : Except VtopError α → UploadStep α
  | .ok value => pure value
  | .error error => throw error

/-! ## The steps of a call -/

/-- How many parts an object has; a 32-bit count, at its largest where it would not fit. -/
def partCount (byteLength partSize : Nat) : Nat :=
  if byteLength = 0 then 0 else min ((byteLength + partSize - 1) / partSize) (2 ^ 32 - 1)

def partOffset (partSize partNumber : Nat) : Nat := (partNumber - 1) * partSize

namespace MultipartSession

def partLen (session : MultipartSession) (partNumber : Nat) : Nat :=
  min (session.fence.byteLength - partOffset session.partSizeBytes partNumber) session.partSizeBytes

end MultipartSession

def validateResume (backend : Backend) (session : MultipartSession) (objectUri localPath : String) (fence : MultipartFence) :
    Except VtopError Unit :=
  if session.schemaVersion ≠ SESSION_SCHEMA then
    .error (.Upload s!"unsupported multipart session schema {session.schemaVersion}")
  else if session.backendId ≠ backend.backendName then
    .error (.Upload s!"multipart session backend {session.backendId} does not match live backend {backend.backendName}")
  else if session.objectUri ≠ objectUri then .error (.Upload "multipart session object_uri mismatch (stale fence)")
  else if session.localPath ≠ localPath then
    .error (.Upload s!"multipart session local path {session.localPath} does not match {localPath}")
  else if session.fence ≠ fence then
    .error (.Upload ("multipart session fence mismatch: refusing to resume a stale generation " ++
      "(abort the abandoned upload and start a new session)"))
  else .ok ()

/-- Only a strong verification makes an object count as completed. -/
def recoverCompleted (objectUri : String) (checksum : Option ObjectChecksum) (byteLength : Nat) : UploadStep StoredObject := do
  let verification ← orStop (← asking (verifyObject objectUri byteLength checksum))
  if !verification.passed || verification.backendLimited then
    throw (.Upload (s!"idempotent multipart complete could not strongly verify {objectUri}: {verification.message}"))
  orStop (← asking (headObject objectUri))
  return ⟨none⟩

/-- A session that was completed before: the version it recorded, unless that is absent or empty. -/
def finishIdempotent (objectUri : String) (session : MultipartSession) (checksum : Option ObjectChecksum) :
    UploadStep StoredObject := do
  let stored ← recoverCompleted objectUri checksum session.fence.byteLength
  if session.completedVersionId.isSome && stored.versionId ≠ session.completedVersionId &&
      session.completedVersionId.any (!·.isEmpty) then
    return ⟨session.completedVersionId⟩
  return stored

section Steps

variable (hashes : UploadHashes)

/-- Note a part whose bytes, read again, have another digest. -/
def noteStale (localPath : String) (partSize : Nat) (stale : List Nat) (entry : Nat × PersistedPart) :
    UploadStep (List Nat) := do
  let bytes ← orStop (← asking (readExact localPath (partOffset partSize entry.2.partNumber) entry.2.sizeBytes))
  return if hashes.blake3 bytes ≠ entry.2.partDigestHex then stale ++ [entry.1] else stale

/-- Forget the kept parts that are no longer the local file's. -/
def revalidatePersistedParts (session : MultipartSession) (localPath : String) : UploadStep MultipartSession := do
  let stale ← session.parts.entries.foldlM (noteStale hashes localPath session.partSizeBytes) []
  let now ← asking nowUnixSecs
  return { session with parts := session.parts.filter fun number => !stale.contains number, updatedAtUnixSecs := now }

/-- A part that was sent: what the store calls it, and its bytes' number and digest. -/
structure SentPart where
  uploaded : UploadedPart
  len : Nat
  digest : String

/-- Read a part and send it. -/
def sendPart (session : MultipartSession) (localPath : String) (partNumber : Nat) : UploadProc (Except VtopError SentPart) := do
  let len := session.partLen partNumber
  match ← Proc.request (readExact localPath (partOffset session.partSizeBytes partNumber) len) with
  | .error error => return .error error
  | .ok data =>
    match ← Proc.request (uploadPart session.objectUri session.uploadId partNumber data) with
    | .error error => return .error error
    | .ok uploaded => return .ok ⟨uploaded, len, hashes.blake3 data⟩

/-- The parts of a wave are all sent before any result is looked at. -/
def sendWave (session : MultipartSession) (localPath : String) : List Nat → UploadProc (List (Except VtopError SentPart))
  | [] => return []
  | partNumber :: rest => do
    let sent ← sendPart hashes session localPath partNumber
    return sent :: (← sendWave session localPath rest)

/-- Keep a part that was sent; the first failure stops the call. -/
def keepPart (sessionPath : String) (session : MultipartSession) (result : Except VtopError SentPart) :
    UploadStep MultipartSession := do
  let sent ← orStop result
  let part : PersistedPart := ⟨sent.uploaded.partNumber, sent.uploaded.etag, sent.len, sent.digest⟩
  let now ← asking nowUnixSecs
  let session := { session with parts := session.parts.insert sent.uploaded.partNumber part, updatedAtUnixSecs := now }
  orStop (← asking (saveSession sessionPath session))
  return session

def chunks (size : Nat) (items : List Nat) : List (List Nat) :=
  (List.range ((items.length + size - 1) / size)).map fun index => (items.drop (index * size)).take size

def uploadWave (localPath sessionPath : String) (session : MultipartSession) (wave : List Nat) :
    UploadStep MultipartSession := do
  let results ← ExceptT.lift (sendWave hashes session localPath wave)
  results.foldlM (keepPart sessionPath) session

/-- Send the parts that are not kept, wave by wave. -/
def uploadMissingParts (config : MultipartUploadConfig) (session : MultipartSession) (localPath sessionPath : String) :
    UploadStep MultipartSession := do
  let total := partCount session.fence.byteLength session.partSizeBytes
  if total = 0 then throw (.Upload "multipart part count is zero")
  let pending := (List.range' 1 total).filter fun number => !session.parts.contains number
  let session ← (chunks (max config.maxParallelism 1) pending).foldlM (uploadWave hashes localPath sessionPath) session
  if session.parts.entries.length % 2 ^ 32 ≠ total then
    throw (.Upload s!"multipart incomplete: have {session.parts.entries.length} parts, need {total}")
  return session

end Steps

/-! ## A call -/

structure Call where
  config : MultipartUploadConfig
  (localPath objectUri : String)
  checksum : Option ObjectChecksum
  fence : MultipartFence

namespace Call

variable (hashes : UploadHashes) (backend : Backend) (call : Call)

def sessionPath : String := s!"{call.config.stateDir}/{hashes.sessionFileName call.objectUri call.fence}"

/-- The checks that come before any session. -/
def precheck (metaLen : Nat) : Except VtopError Unit :=
  if metaLen ≠ call.fence.byteLength then
    .error (.Upload s!"multipart fence byte_length {call.fence.byteLength} disagrees with local file {metaLen}")
  else if call.checksum.any fun checksum => checksum.hex ≠ call.fence.contentDigestHex ||
      !decide (EqIgnoreAsciiCase checksum.algorithm call.fence.contentDigestAlgorithm) then
    .error (.Upload "multipart fence content digest disagrees with upload checksum")
  else .ok ()

def checkConfig : Except VtopError Unit :=
  if !backend.supportsMultipart then
    .error (.Upload s!"backend {backend.backendName} does not support resumable multipart")
  else if call.config.partSizeBytes = 0 ∨ call.config.maxParallelism = 0 then
    .error (.Config "multipart part size and parallelism must be > 0")
  else if MAX_SEMAPHORE_PERMITS < call.config.maxParallelism then
    .error (.Config (s!"multipart parallelism {call.config.maxParallelism} exceeds the maximum permits a semaphore can hold " ++
      s!"({MAX_SEMAPHORE_PERMITS}); the value becomes a permit count and an oversized one panics rather than degrading"))
  else if call.fence.byteLength = 0 then .error (.Upload "refusing multipart upload of an empty object")
  else .ok ()

/-- A new session, saved before any part is sent. -/
def startSession : UploadStep MultipartSession := do
  let uploadId ← orStop (← asking (createMultipartUpload call.objectUri call.checksum))
  let now ← asking nowUnixSecs
  let session : MultipartSession :=
    { schemaVersion := SESSION_SCHEMA
      backendId := backend.backendName
      objectUri := call.objectUri
      localPath := call.localPath
      uploadId
      partSizeBytes := call.config.partSizeBytes
      fence := call.fence
      phase := .InProgress
      parts := .empty
      createdAtUnixSecs := now
      updatedAtUnixSecs := now
      completedVersionId := none }
  orStop (← asking (saveSession (call.sessionPath hashes) session))
  return session

/-- Name the parts; a completion that fails may have happened all the same. -/
def complete (session : MultipartSession) : UploadStep StoredObject := do
  let parts := session.parts.entries.map fun entry => (⟨entry.2.partNumber, entry.2.etag⟩ : UploadedPart)
  match ← asking (completeMultipartUpload call.objectUri session.uploadId parts) with
  | .ok stored => return stored
  | .error error =>
    try recoverCompleted call.objectUri call.checksum call.fence.byteLength
    catch _ => throw error

/-- Everything from the kept parts on. -/
def finish (session : MultipartSession) : UploadStep StoredObject := do
  let session ← revalidatePersistedParts hashes session call.localPath
  orStop (← asking (saveSession (call.sessionPath hashes) session))
  let session ← uploadMissingParts hashes call.config session call.localPath (call.sessionPath hashes)
  let stored ← call.complete session
  let now ← asking nowUnixSecs
  orStop (← asking (saveSession (call.sessionPath hashes)
    { session with phase := .Completed, completedVersionId := stored.versionId, updatedAtUnixSecs := now }))
  orStop (← asking (deleteSession (call.sessionPath hashes)))
  return stored

/-- Upload a local file, or go on with an upload that was interrupted. -/
def uploadResumable : UploadStep StoredObject := do
  orStop (call.checkConfig backend)
  let metaLen ← orStop (← asking (fileLen call.localPath))
  orStop (call.precheck metaLen)
  match ← asking (loadSession (call.sessionPath hashes)) with
  | some session =>
    orStop (validateResume backend session call.objectUri call.localPath call.fence)
    if session.phase = .Completed then
      let stored ← finishIdempotent call.objectUri session call.checksum
      orStop (← asking (deleteSession (call.sessionPath hashes)))
      return stored
    else call.finish hashes session
  | none =>
    let session ← call.startSession hashes backend
    call.finish hashes session

end Call

end VtopEngine.Upload
