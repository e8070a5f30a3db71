import VtopEngine.Lib.Runs
import VtopEngine.Lib.Worlds
import VtopEngine.Upload.Multipart

/-! # What a completed multipart upload is

Calls of `upload_resumable` against files that are rewritten, session files that are lost or
turn back into earlier ones, and a store that keeps the parts it was sent.  A call can end at any
point.

* `UploadWorld`, `Serves` — the surroundings, and how they answer; the store assembles the parts
  it is named, and a strong verification is right.
* `UploadStep`, `Step` — the calls, and what happens between them.
* `Sound` — what is true of every session that was ever saved.
* `multipart_completes_file` — under a digest of the file as it is, and with fewer than 2³² parts,
  a call that returns leaves the file at the URI; and every completion names the file's parts.
-/

namespace VtopEngine.Upload

open VtopEngine.Core Lib MultipartSession SortedMap Function List

/-! ## The surroundings -/

/-- A completion that was requested, with the files as they were then and those changed since the call began. -/
structure Completion where
  (objectUri uploadId : String)
  named : List UploadedPart
  files : String → List UInt8
  changed : Set String

/-- `saved` has every session that was ever written, `parts` what was ever sent under an upload, a number and a tag,
and `changed` the files that were rewritten since the present call began. -/
structure UploadWorld where
  files : String → List UInt8
  changed : Set String
  sessions : String → Option MultipartSession
  saved : Set MultipartSession
  parts : String → Nat → String → Option (List UInt8)
  objects : String → Option (List UInt8)
  completions : List Completion

def slice (file : List UInt8) (offset len : Nat) : List UInt8 := (file.drop offset).take len

namespace UploadWorld

/-- Some files are rewritten. -/
structure Touched (world now : UploadWorld) : Prop where
  files : ∀ path, path ∉ now.changed → now.files path = world.files path
  changed : world.changed ⊆ now.changed
  rest : now = { world with files := now.files, changed := now.changed }

/-- The store was sent a part; a tag it gave to other bytes under the same number is not given again. -/
def sent (world : UploadWorld) (uploadId : String) (number : Nat) (etag : String) (data : List UInt8) : UploadWorld :=
  { world with parts := fun upload part tag =>
      if upload = uploadId ∧ part = number ∧ tag = etag then some data else world.parts upload part tag }

def saving (world : UploadWorld) (path : String) (session : MultipartSession) : UploadWorld :=
  { world with
    sessions := fun other => if other = path then some session else world.sessions other
    saved := insert session world.saved }

def requesting (world : UploadWorld) (objectUri uploadId : String) (named : List UploadedPart) : UploadWorld :=
  { world with completions := ⟨objectUri, uploadId, named, world.files, world.changed⟩ :: world.completions }

def putting (world : UploadWorld) (objectUri : String) (bytes : List UInt8) : UploadWorld :=
  { world with objects := fun other => if other = objectUri then some bytes else world.objects other }

/-- The bytes of the parts that are named, in the order they are named. -/
def Assembles (world : UploadWorld) (uploadId : String) (named : List UploadedPart) (bytes : List UInt8) : Prop :=
  ∃ pieces : List (List UInt8), named.map (fun part => world.parts uploadId part.partNumber part.etag) = pieces.map some
    ∧ bytes = pieces.flatten

end UploadWorld

/-- How a request is answered, and what it changes.  Any call may fail, and one that fails may have had its effect. -/
def Answers (digest : String → List UInt8 → String) (world : UploadWorld) :
    (request : UploadRequest) → UploadAnswer request → UploadWorld → Prop
  | .nowUnixSecs, _, next => next = world
  | .fileLen path, answer, next => next = world ∧ ∀ len, answer = .ok len → len = (world.files path).length
  | .readExact path offset len, answer, next =>
    next = world ∧ ∀ bytes, answer = .ok bytes → bytes.length = len ∧
      (path ∉ world.changed → bytes = slice (world.files path) offset len)
  | .loadSession path, answer, next => next = world ∧ (answer = none ∨ answer = world.sessions path)
  | .saveSession path session, answer, next => next = world.saving path session ∨ (answer ≠ .ok () ∧ next = world)
  | .deleteSession path, _, next =>
    next = world ∨ next = { world with sessions := fun other => if other = path then none else world.sessions other }
  | .createMultipartUpload .., _, next => next = world
  | .uploadPart _ uploadId number data, answer, next =>
    (∃ etag, (∀ kept, world.parts uploadId number etag = some kept → kept = data) ∧
      next = world.sent uploadId number etag data ∧ ∀ uploaded, answer = .ok uploaded → uploaded = ⟨number, etag⟩) ∨
      ((∀ uploaded, answer ≠ .ok uploaded) ∧ next = world)
  | .completeMultipartUpload objectUri uploadId named, answer, next =>
    (∃ bytes, (world.requesting objectUri uploadId named).Assembles uploadId named bytes ∧
      next = (world.requesting objectUri uploadId named).putting objectUri bytes) ∨
      ((∀ stored, answer ≠ .ok stored) ∧ next = world.requesting objectUri uploadId named)
  | .verifyObject objectUri size checksum, answer, next =>
    next = world ∧ ∀ result, answer = .ok result → result.passed → !result.backendLimited →
      ∃ expected ∈ checksum, ∃ bytes, world.objects objectUri = some bytes ∧ bytes.length = size ∧
        EqIgnoreAsciiCase (digest expected.algorithm bytes) expected.hex
  | .headObject _, _, next => next = world

/-- Files may be rewritten at any time. -/
def Serves (digest : String → List UInt8 → String) (world : UploadWorld) (request : UploadRequest)
    (answer : UploadAnswer request) (next : UploadWorld) : Prop :=
  ∃ now, world.Touched now ∧ Answers digest now request answer next

/-! ## Calls, and what happens between them -/

/-- Between calls files are rewritten, session files are lost or turn back into earlier ones, the store is sent parts by
requests that were still under way, and objects change. -/
inductive UploadEvent
  | call (call : Call) (out : Option (Except VtopError StoredObject))
  | rewrite (path : String) (bytes : List UInt8)
  | session (path : String) (found : Option MultipartSession)
  | stray (uploadId : String) (number : Nat) (etag : String) (data : List UInt8)
  | object (objectUri : String) (bytes : Option (List UInt8))

section Steps

variable (hashes : UploadHashes) (backend : Backend) (digest : String → List UInt8 → String) (Made : Call → Prop)

/-- One step; the calls that are made are those that meet `Made`. -/
def Step (world : UploadWorld) : UploadEvent → UploadWorld → Prop
  | .call call out, next =>
    Made call ∧ (call.uploadResumable hashes backend).run.Runs (Serves digest) { world with changed := ∅ } out next
  | .rewrite path bytes, next =>
    next = { world with files := fun other => if other = path then bytes else world.files other }
  | .session path found, next =>
    (∀ session ∈ found, session ∈ world.saved) ∧
      next = { world with sessions := fun other => if other = path then found else world.sessions other }
  | .stray uploadId number etag data, next =>
    (∀ kept, world.parts uploadId number etag = some kept → kept = data) ∧ next = world.sent uploadId number etag data
  | .object objectUri bytes, next =>
    next = { world with objects := fun other => if other = objectUri then bytes else world.objects other }

def UploadWorld.start (files : String → List UInt8) : UploadWorld where
  files
  changed := ∅
  sessions _ := none
  saved := ∅
  parts _ _ _ := none
  objects _ := none
  completions := []

end Steps

/-! ## What lasts -/

/-- What is never taken back: parts that were sent, and sessions that were saved. -/
structure Grows (world next : UploadWorld) : Prop where
  parts : ∀ {uploadId number etag bytes}, world.parts uploadId number etag = some bytes →
    next.parts uploadId number etag = some bytes
  saved : world.saved ⊆ next.saved

/-- Within a call, files that have not changed are as they were too. -/
structure Evolves (world next : UploadWorld) : Prop extends Grows world next where
  changed : world.changed ⊆ next.changed
  files : ∀ path, path ∉ next.changed → next.files path = world.files path

theorem Evolves.refl (world) : Evolves world world := ⟨⟨id, subset_rfl⟩, subset_rfl, fun _ _ => rfl⟩

theorem Evolves.trans {first second third : UploadWorld} (earlier : Evolves first second) (later : Evolves second third) :
    Evolves first third where
  parts sent := later.parts (earlier.parts sent)
  saved := earlier.saved.trans later.saved
  changed := earlier.changed.trans later.changed
  files path unchanged := (later.files path unchanged).trans (earlier.files path fun member => unchanged (later.changed member))

open UploadWorld

variable {hashes : UploadHashes} {backend : Backend} {digest : String → List UInt8 → String} {world now next : UploadWorld}
  {request : UploadRequest} {answer : UploadAnswer request}

section Served

theorem UploadWorld.Touched.evolves (touched : world.Touched now) : Evolves world now where
  parts sent := by rw [touched.rest]; exact sent
  saved := by rw [touched.rest]
  changed := touched.changed
  files := touched.files

theorem UploadWorld.sent_evolves {uploadId : String} {number : Nat} {etag : String} {data : List UInt8}
    (same : ∀ kept, world.parts uploadId number etag = some kept → kept = data) :
    Evolves world (world.sent uploadId number etag data) where
  parts := by
    intro upload part tag bytes isBytes
    show (if _ then _ else _) = _
    split
    case isTrue here =>
      obtain ⟨rfl, rfl, rfl⟩ := here
      rw [same bytes isBytes]
    case isFalse => exact isBytes
  saved := subset_rfl
  changed := subset_rfl
  files _ _ := rfl

theorem Answers.evolves (answers : Answers digest world request answer next) : Evolves world next := by
  cases request with
  | nowUnixSecs | createMultipartUpload _ _ | headObject _ =>
    rw [show next = world from answers]
    exact .refl world
  | fileLen _ | readExact _ _ _ | loadSession _ | verifyObject _ _ _ =>
    rw [show next = world from answers.1]
    exact .refl world
  | saveSession path session =>
    obtain rfl | ⟨-, rfl⟩ := answers
    · exact ⟨⟨id, Set.subset_insert _ _⟩, subset_rfl, fun _ _ => rfl⟩
    · exact .refl _
  | deleteSession path =>
    obtain rfl | rfl := answers
    · exact .refl _
    · exact ⟨⟨id, subset_rfl⟩, subset_rfl, fun _ _ => rfl⟩
  | uploadPart _ uploadId number data =>
    obtain ⟨etag, same, rfl, -⟩ | ⟨-, rfl⟩ := answers
    · exact sent_evolves same
    · exact .refl _
  | completeMultipartUpload _ _ _ =>
    obtain ⟨bytes, -, rfl⟩ | ⟨-, rfl⟩ := answers
    · exact ⟨⟨id, subset_rfl⟩, subset_rfl, fun _ _ => rfl⟩
    · exact ⟨⟨id, subset_rfl⟩, subset_rfl, fun _ _ => rfl⟩

theorem Serves.evolves (served : Serves digest world request answer next) : Evolves world next := by
  obtain ⟨now, touched, answers⟩ := served
  exact touched.evolves.trans answers.evolves

theorem Serves.tracks : Tracks (Serves digest) Evolves := ⟨Evolves.refl, Evolves.trans, evolves⟩

end Served

/-! ## Sessions that were saved -/

/-- What a session says of its parts is true of the store: each was sent under its number, and has the length and the
digest that the session keeps. -/
structure Sound (hashes : UploadHashes) (world : UploadWorld) (session : MultipartSession) : Prop where
  partSize : 0 < session.partSizeBytes
  byteLength : 0 < session.fence.byteLength
  fits : (session.fence.byteLength + session.partSizeBytes - 1) / session.partSizeBytes < 2 ^ 32
  kept : ∀ entry ∈ session.parts.entries, entry.2.partNumber = entry.1 ∧ 1 ≤ entry.1 ∧
    entry.1 ≤ partCount session.fence.byteLength session.partSizeBytes ∧ entry.2.sizeBytes = session.partLen entry.1 ∧
    ∃ bytes, world.parts session.uploadId entry.1 entry.2.etag = some bytes ∧ bytes.length = session.partLen entry.1 ∧
      hashes.blake3 bytes = entry.2.partDigestHex

variable {session : MultipartSession}

theorem Sound.grows (sound : Sound hashes world session) (grows : Grows world next) : Sound hashes next session where
  partSize := sound.partSize
  byteLength := sound.byteLength
  fits := sound.fits
  kept entry member := by
    obtain ⟨isNumber, first, last, isLen, bytes, sent, isDigest⟩ := sound.kept entry member
    exact ⟨isNumber, first, last, isLen, bytes, grows.parts sent, isDigest⟩

/-- All parts of the session's file are named, from the first to the last and in order, each stored with its length: a
whole part, but for the last.  Where the file is unchanged they hold its bytes. -/
def NamesParts (world : UploadWorld) (session : MultipartSession) (named : List UploadedPart) : Prop :=
  let count := partCount session.fence.byteLength session.partSizeBytes
  named.map (·.partNumber) = range' 1 count ∧
    ∀ part ∈ named, ∃ bytes, world.parts session.uploadId part.partNumber part.etag = some bytes ∧
      bytes.length = session.partLen part.partNumber ∧ (part.partNumber < count → bytes.length = session.partSizeBytes) ∧
      (session.localPath ∉ world.changed → bytes =
        slice (world.files session.localPath) (partOffset session.partSizeBytes part.partNumber) session.partSizeBytes)

/-- A completion was requested for a session that was saved, and named the parts of its file. -/
def Completion.Right (world : UploadWorld) (completion : Completion) : Prop :=
  ∃ session ∈ world.saved, session.objectUri = completion.objectUri ∧ session.uploadId = completion.uploadId ∧
    NamesParts { world with files := completion.files, changed := completion.changed } session completion.named

theorem Completion.Right.grows {completion : Completion} (right : completion.Right world)
    (grows : Grows world next) : completion.Right next := by
  obtain ⟨session, saved, sameUri, sameUpload, numbers, holds⟩ := right
  refine ⟨session, grows.saved saved, sameUri, sameUpload, numbers, fun part member => ?_⟩
  obtain ⟨bytes, sent, isSlice⟩ := holds part member
  exact ⟨bytes, grows.parts sent, isSlice⟩

/-- What is true at every point of every call. -/
structure Kept (hashes : UploadHashes) (world : UploadWorld) : Prop where
  saved : ∀ session ∈ world.saved, Sound hashes world session
  sessions : ∀ path session, world.sessions path = some session → session ∈ world.saved
  completions : ∀ completion ∈ world.completions, completion.Right world

/-- What a call may ask, for that to stay true. -/
def Allowed (hashes : UploadHashes) (world : UploadWorld) : UploadRequest → Prop
  | .saveSession _ session => Sound hashes world session
  | .completeMultipartUpload objectUri uploadId named =>
    ∃ session ∈ world.saved, session.objectUri = objectUri ∧ session.uploadId = uploadId ∧ NamesParts world session named
  | _ => True

theorem NamesParts.touched (names : NamesParts world session named) (touched : world.Touched now) :
    NamesParts now session named := by
  refine ⟨names.1, fun part member => ?_⟩
  obtain ⟨bytes, sent, isLen, isWhole, isSlice⟩ := names.2 part member
  refine ⟨bytes, touched.evolves.parts sent, isLen, isWhole, fun unchanged => ?_⟩
  rw [touched.files session.localPath unchanged]
  exact isSlice fun earlier => unchanged (touched.changed earlier)

section Kept

section

variable (kept : Kept hashes world)

include kept

/-- Nothing but sessions, parts and files is different. -/
theorem Kept.grows (grows : Grows world next) (saved : next.saved = world.saved)
    (sessions : ∀ path session, next.sessions path = some session → session ∈ world.saved)
    (completions : next.completions = world.completions) : Kept hashes next where
  saved session member := (kept.saved session (saved ▸ member)).grows grows
  sessions path session found := saved ▸ sessions path session found
  completions completion member := (kept.completions completion (completions ▸ member)).grows grows

theorem Kept.touched (touched : world.Touched now) : Kept hashes now := by
  refine kept.grows touched.evolves.toGrows ?_ ?_ ?_
  · rw [touched.rest]
  · rw [touched.rest]
    exact kept.sessions
  · rw [touched.rest]

theorem Kept.saving (sound : Sound hashes world session) : Kept hashes (world.saving path session) := by
  have grows : Grows world (world.saving path session) := ⟨id, Set.subset_insert _ _⟩
  refine ⟨fun other member => ?_, fun other found isFound => ?_, fun completion member => ?_⟩
  · rcases Set.mem_insert_iff.mp member with rfl | earlier
    · exact sound.grows grows
    · exact (kept.saved other earlier).grows grows
  · simp only [UploadWorld.saving] at isFound
    split at isFound
    · exact .inl (Option.some.inj isFound).symm
    · exact .inr (kept.sessions other found isFound)
  · exact (kept.completions completion member).grows grows

theorem Kept.requesting {objectUri uploadId}
    (allowed : Allowed hashes world (.completeMultipartUpload objectUri uploadId named)) :
    Kept hashes (world.requesting objectUri uploadId named) := by
  have grows : Grows world (world.requesting objectUri uploadId named) := ⟨id, subset_rfl⟩
  refine ⟨fun session member => (kept.saved session member).grows grows, kept.sessions, fun completion member => ?_⟩
  rcases mem_cons.mp member with rfl | earlier
  · obtain ⟨session, saved, sameUri, sameUpload, names⟩ := allowed
    exact ⟨session, saved, sameUri, sameUpload, names⟩
  · exact (kept.completions completion earlier).grows grows

theorem Kept.answers (allowed : Allowed hashes world request)
    (answers : Answers digest world request answer next) : Kept hashes next := by
  have evolves := answers.evolves
  cases request with
  | nowUnixSecs | createMultipartUpload _ _ | headObject _ => exact (show next = world from answers) ▸ kept
  | fileLen _ | readExact _ _ _ | loadSession _ | verifyObject _ _ _ => exact (show next = world from answers.1) ▸ kept
  | saveSession path session =>
    obtain rfl | ⟨-, rfl⟩ := answers
    · exact kept.saving allowed
    · exact kept
  | deleteSession path =>
    obtain rfl | rfl := answers
    · exact kept
    · refine kept.grows evolves.toGrows rfl (fun other session found => ?_) rfl
      simp only at found
      split at found
      · cases found
      · exact kept.sessions other session found
  | uploadPart _ uploadId number data =>
    obtain ⟨etag, same, rfl, -⟩ | ⟨-, rfl⟩ := answers
    · exact kept.grows evolves.toGrows rfl kept.sessions rfl
    · exact kept
  | completeMultipartUpload objectUri uploadId named =>
    have requested := kept.requesting allowed
    obtain ⟨bytes, -, rfl⟩ | ⟨-, rfl⟩ := answers
    · exact requested.grows ⟨id, subset_rfl⟩ rfl requested.sessions rfl
    · exact requested

end

theorem Allowed.touched (allowed : Allowed hashes world request) (touched : world.Touched now) :
    Allowed hashes now request := by
  cases request with
  | saveSession path session => exact Sound.grows allowed touched.evolves.toGrows
  | completeMultipartUpload objectUri uploadId named =>
    obtain ⟨session, saved, sameUri, sameUpload, names⟩ := allowed
    exact ⟨session, touched.evolves.saved saved, sameUri, sameUpload, names.touched touched⟩
  | _ => trivial

/-- An allowed request keeps it, whatever happens meanwhile. -/
theorem Serves.keeps (served : Serves digest world request answer next) (kept : Kept hashes world)
    (allowed : Allowed hashes world request) : Kept hashes next := by
  obtain ⟨now, touched, answers⟩ := served
  exact (kept.touched touched).answers (allowed.touched touched) answers

end Kept

/-! ## The steps of a call -/

open Evolves

variable (hashes digest) in
/-- A step of a call is served in a kept world and leaves one. -/
abbrev Steps {α : Type} (post : α → UploadWorld → Prop) (world : UploadWorld) (program : UploadStep α) : Prop :=
  Returns (Serves digest) (Kept hashes) post world program

section Rules

variable {α β : Type} {after : β → UploadWorld → Prop} {next : α → UploadStep β}

theorem step_bind (first : Steps hashes digest post world program)
    (rest : ∀ value middle, Evolves world middle → Kept hashes middle → post value middle →
      Steps hashes digest after middle (next value)) :
    Steps hashes digest after world (program >>= next) :=
  returns_bind Serves.tracks first rest

theorem step_imp {weaker : α → UploadWorld → Prop} (returns : Steps hashes digest post world program)
    (implies : ∀ value next, Evolves world next → post value next → weaker value next) :
    Steps hashes digest weaker world program :=
  returns.imp Serves.tracks fun value next evolves _ => implies value next evolves

theorem step_ask {next} (kept : Kept hashes world) (allowed : Allowed hashes world request)
    (rest : ∀ answer middle, Serves digest world request answer middle → Evolves world middle → Kept hashes middle →
      Steps hashes digest after middle (next answer)) : Steps hashes digest after world (asking request >>= next) :=
  returns_asking_bind kept fun answer middle served => rest answer middle served served.evolves (served.keeps kept allowed)

theorem step_orStop (kept : Kept hashes world)
    (rest : ∀ value, outcome = .ok value → Steps hashes digest after world (next value)) :
    Steps hashes digest after world (orStop outcome >>= next) := by
  cases outcome with
  | ok value => exact rest value rfl
  | error error => exact returns_throw kept

/-- A read answers with the file's bytes, where the file is unchanged. -/
theorem Serves.read {bytes : List UInt8} {next : UploadWorld}
    (served : Serves digest world (.readExact path offset len) (.ok bytes) next) :
    bytes.length = len ∧ (path ∉ next.changed → bytes = slice (next.files path) offset len) := by
  obtain ⟨now, -, rfl, holds⟩ := served
  exact holds bytes rfl

end Rules

/-- Where the file is unchanged, the kept parts are its parts. -/
def Fresh (world : UploadWorld) (localPath : String) (session : MultipartSession) : Prop :=
  localPath ∉ world.changed → ∀ entry ∈ session.parts.entries, world.parts session.uploadId entry.1 entry.2.etag =
      some (slice (world.files localPath) (partOffset session.partSizeBytes entry.1) (session.partLen entry.1))

theorem Fresh.evolves {localPath}
    (fresh : Fresh world localPath session) (evolves : Evolves world next) : Fresh next localPath session := by
  intro unchanged entry member
  rw [evolves.files localPath unchanged]
  exact evolves.parts (fresh (fun earlier => unchanged (evolves.changed earlier)) entry member)

/-- A session goes on: it is for the same upload, whatever parts it keeps. -/
structure Continues (base session : MultipartSession) : Prop where
  uploadId : session.uploadId = base.uploadId
  partSizeBytes : session.partSizeBytes = base.partSizeBytes
  fence : session.fence = base.fence
  objectUri : session.objectUri = base.objectUri
  localPath : session.localPath = base.localPath

variable {base : MultipartSession}

theorem Continues.trans (first : Continues base middle) (second : Continues middle session) : Continues base session :=
  ⟨second.uploadId.trans first.uploadId, second.partSizeBytes.trans first.partSizeBytes, second.fence.trans first.fence,
    second.objectUri.trans first.objectUri, second.localPath.trans first.localPath⟩

theorem Continues.partLen (continues : Continues base session) (number) : session.partLen number = base.partLen number := by
  unfold MultipartSession.partLen
  rw [continues.partSizeBytes, continues.fence]

/-- Keeping fewer parts, or noting the time, a phase or a version, leaves a session sound. -/
theorem Sound.of_subset (sound : Sound hashes world base) (continues : Continues base session)
    (subset : ∀ entry ∈ session.parts.entries, entry ∈ base.parts.entries) : Sound hashes world session where
  partSize := continues.partSizeBytes ▸ sound.partSize
  byteLength := continues.fence ▸ sound.byteLength
  fits := by
    rw [continues.partSizeBytes, continues.fence]
    exact sound.fits
  kept entry member := by
    rw [continues.partSizeBytes, continues.fence, continues.partLen, continues.uploadId]
    exact sound.kept entry (subset entry member)

section Revalidate

variable {session : MultipartSession} {localPath : String}

/-- Of the kept parts, those that are not yet read again, those noted as stale, and those that have the digest of the
file's bytes. -/
def Revalidating (hashes : UploadHashes) (session : MultipartSession) (localPath : String)
    (rest : List (Nat × PersistedPart)) (stale : List Nat) (world : UploadWorld) : Prop :=
  localPath ∉ world.changed → ∀ entry ∈ session.parts.entries, entry ∈ rest ∨ entry.1 ∈ stale ∨
    hashes.blake3 (slice (world.files localPath) (partOffset session.partSizeBytes entry.2.partNumber) entry.2.sizeBytes) =
      entry.2.partDigestHex

theorem Revalidating.evolves
    (revalidating : Revalidating hashes session localPath rest stale world) (evolves : Evolves world next) :
    Revalidating hashes session localPath rest stale next := by
  intro unchanged
  rw [evolves.files localPath unchanged]
  exact revalidating fun earlier => unchanged (evolves.changed earlier)

theorem returns_noteStale
    (kept : Kept hashes world) (revalidating : Revalidating hashes session localPath (entry :: rest) stale world) :
    Steps hashes digest (Revalidating hashes session localPath rest) world
      (noteStale hashes localPath session.partSizeBytes stale entry) := by
  unfold noteStale
  refine step_ask kept trivial fun answer middle served evolves kept => step_orStop kept fun bytes isOk => ?_
  subst isOk
  refine returns_pure kept fun unchanged other member => ?_
  have isSlice := served.read.2 unchanged
  rcases revalidating.evolves evolves unchanged other member with inRest | isStale | isDigest
  · rcases mem_cons.mp inRest with rfl | later
    · by_cases same : hashes.blake3 bytes = other.2.partDigestHex
      · exact .inr (.inr (isSlice ▸ same))
      · rw [if_pos same]
        exact .inr (.inl (by simp))
    · exact .inl later
  · refine .inr (.inl ?_)
    split
    · exact mem_append_left _ isStale
    · exact isStale
  · exact .inr (.inr isDigest)

/-- The parts that are kept are the file's, since a digest is of one piece of bytes only. -/
theorem returns_revalidate (collisionFree : Injective hashes.blake3) (kept : Kept hashes world)
    (sound : Sound hashes world session) :
    Steps hashes digest
      (fun after world => Continues session after ∧ Sound hashes world after ∧ Fresh world localPath after) world
      (revalidatePersistedParts hashes session localPath) := by
  unfold revalidatePersistedParts
  have start : Revalidating hashes session localPath session.parts.entries [] world := fun _ entry member => .inl member
  refine step_bind (returns_foldlM session.parts.entries (fun entry rest stale world kept => returns_noteStale kept) kept start)
    fun stale middle evolves kept revalidated => ?_
  refine step_ask kept trivial fun now last _ later kept => returns_pure kept ?_
  have continues : Continues session
      { session with parts := session.parts.filter fun number => !stale.contains number, updatedAtUnixSecs := now } :=
    ⟨rfl, rfl, rfl, rfl, rfl⟩
  have soundNow := sound.grows (evolves.trans later).toGrows
  refine ⟨continues, soundNow.of_subset continues fun entry member => (SortedMap.mem_filter.mp member).1, ?_⟩
  intro unchanged entry member
  obtain ⟨ofSession, notStale⟩ := SortedMap.mem_filter.mp member
  obtain ⟨isNumber, -, -, isLen, bytes, sent, -, isDigest⟩ := soundNow.kept entry ofSession
  rcases revalidated.evolves later unchanged entry ofSession with none | isStale | sameDigest
  · cases none
  · simp [isStale] at notStale
  · rw [isNumber, isLen] at sameDigest
    rw [continues.partLen, ← collisionFree (isDigest.trans sameDigest.symm)]
    exact sent

end Revalidate

section Sending

variable {base session : MultipartSession} {localPath : String}

/-- A part that was sent: the store has its bytes under its number, with the length and the digest that were noted. -/
structure SentRight (hashes : UploadHashes) (base : MultipartSession) (localPath : String) (sent : SentPart)
    (world : UploadWorld) : Prop where
  first : 1 ≤ sent.uploaded.partNumber
  last : sent.uploaded.partNumber ≤ partCount base.fence.byteLength base.partSizeBytes
  len : sent.len = base.partLen sent.uploaded.partNumber
  stored : ∃ data, world.parts base.uploadId sent.uploaded.partNumber sent.uploaded.etag = some data ∧
    data.length = sent.len ∧ hashes.blake3 data = sent.digest ∧ (localPath ∉ world.changed →
      data = slice (world.files localPath) (partOffset base.partSizeBytes sent.uploaded.partNumber) sent.len)

theorem SentRight.evolves {sent : SentPart} (right : SentRight hashes base localPath sent world)
    (evolves : Evolves world next) : SentRight hashes base localPath sent next where
  first := right.first
  last := right.last
  len := right.len
  stored := by
    obtain ⟨data, stored, isLen, isDigest, isSlice⟩ := right.stored
    refine ⟨data, evolves.parts stored, isLen, isDigest, fun unchanged => ?_⟩
    rw [evolves.files localPath unchanged]
    exact isSlice fun earlier => unchanged (evolves.changed earlier)

/-- A number of the parts that an upload has. -/
def IsPart (base : MultipartSession) (number : Nat) : Prop :=
  1 ≤ number ∧ number ≤ partCount base.fence.byteLength base.partSizeBytes

theorem ensures_sendPart {number} (isPart : IsPart base number) (kept : Kept hashes world) :
    Ensures (Serves digest) (Kept hashes)
      (fun result world => ∀ sent, result = .ok sent → SentRight hashes base localPath sent world) world
      (sendPart hashes base localPath number) := by
  refine ⟨kept, fun answer middle served => ?_⟩
  have keptRead := served.keeps kept trivial
  cases answer with
  | error error => exact ⟨keptRead, by simp⟩
  | ok data =>
    refine ⟨keptRead, fun answer last sending => ?_⟩
    have keptSent := sending.keeps keptRead trivial
    cases answer with
    | error error => exact ⟨keptSent, by simp⟩
    | ok uploaded =>
      refine ⟨keptSent, ?_⟩
      rintro _ ⟨⟩
      have later := sending.evolves
      obtain ⟨now, -, ⟨etag, -, rfl, isUploaded⟩ | ⟨failed, -⟩⟩ := sending
      · obtain rfl := isUploaded uploaded rfl
        refine ⟨isPart.1, isPart.2, rfl, data, by simp [sent], served.read.1, rfl, fun unchanged => ?_⟩
        rw [later.files localPath unchanged]
        exact served.read.2 fun earlier => unchanged (later.changed earlier)
      · exact absurd rfl (failed uploaded)

theorem ensures_sendWave {wave} (areParts : ∀ number ∈ wave, IsPart base number) (kept : Kept hashes world) :
    Ensures (Serves digest) (Kept hashes)
      (fun results world => ∀ result ∈ results, ∀ sent, result = .ok sent → SentRight hashes base localPath sent world) world
      (sendWave hashes base localPath wave) := by
  induction wave generalizing world with
  | nil => exact ⟨kept, by simp⟩
  | cons number wave ih =>
    have first := @ensures_sendPart hashes digest world base localPath number (areParts number mem_cons_self) kept
    refine ensures_bind (first.imp Serves.tracks fun result middle _ kept isSent => ?_)
    have rest := ih (fun other member => areParts other (.tail _ member)) kept
    refine ensures_bind (rest.imp Serves.tracks fun results last later kept areSent => ?_)
    refine ⟨kept, fun other member sent isOk => ?_⟩
    rcases mem_cons.mp member with rfl | inRest
    · exact (isSent sent isOk).evolves later
    · exact areSent other inRest sent isOk

/-- What a session that sends its parts keeps. -/
structure Sending (hashes : UploadHashes) (base : MultipartSession) (localPath : String) (session : MultipartSession)
    (world : UploadWorld) : Prop where
  continues : Continues base session
  sound : Sound hashes world session
  fresh : Fresh world localPath session

theorem Sending.evolves (sending : Sending hashes base localPath session world)
    (evolves : Evolves world next) : Sending hashes base localPath session next :=
  ⟨sending.continues, sending.sound.grows evolves.toGrows, sending.fresh.evolves evolves⟩

/-- Another time of its last change makes no difference. -/
theorem Sending.insert {sent : SentPart} {now} (sending : Sending hashes base localPath session world)
    (right : SentRight hashes base localPath sent world) : Sending hashes base localPath { session with
        parts := session.parts.insert sent.uploaded.partNumber
          ⟨sent.uploaded.partNumber, sent.uploaded.etag, sent.len, sent.digest⟩
        updatedAtUnixSecs := now } world := by
  obtain ⟨data, stored, isLen, isDigest, isSlice⟩ := right.stored
  have same := sending.continues
  refine ⟨⟨same.uploadId, same.partSizeBytes, same.fence, same.objectUri, same.localPath⟩, ?_, ?_⟩
  · refine ⟨sending.sound.partSize, sending.sound.byteLength, sending.sound.fits, fun entry member => ?_⟩
    rcases mem_insert_of member with rfl | earlier
    · have len := right.len.trans (same.partLen _).symm
      refine ⟨rfl, right.first, ?_, len, data, ?_, isLen.trans len, isDigest⟩
      · rw [same.fence, same.partSizeBytes]
        exact right.last
      · rw [same.uploadId]
        exact stored
    · exact sending.sound.kept entry earlier
  · intro unchanged entry member
    rcases mem_insert_of member with rfl | earlier
    · show world.parts session.uploadId _ _ = some (slice _ (partOffset session.partSizeBytes _) (session.partLen _))
      rw [same.uploadId, same.partSizeBytes, same.partLen, ← right.len, ← isSlice unchanged]
      exact stored
    · exact sending.fresh unchanged entry earlier

theorem returns_keepPart (kept : Kept hashes world) (sending : Sending hashes base localPath session world)
    (right : ∀ sent, result = .ok sent → SentRight hashes base localPath sent world) :
    Steps hashes digest (Sending hashes base localPath) world (keepPart sessionPath session result) := by
  unfold keepPart
  refine step_orStop kept fun sent isSent => ?_
  refine step_ask kept trivial fun now middle _ evolves kept => ?_
  have inserted := @Sending.insert hashes middle base session localPath sent now (sending.evolves evolves)
    ((right sent isSent).evolves evolves)
  refine step_ask kept inserted.sound fun answer last _ later kept => step_orStop kept fun _ _ => ?_
  exact returns_pure kept (inserted.evolves later)

theorem returns_uploadWave (areParts : ∀ number ∈ wave, IsPart base number) (kept : Kept hashes world)
    (sending : Sending hashes base localPath session world) :
    Steps hashes digest (Sending hashes base localPath) world (uploadWave hashes localPath sessionPath session wave) := by
  have same := sending.continues
  have arePartsNow : ∀ number ∈ wave, IsPart session number := by
    intro number member
    unfold IsPart
    rw [same.fence, same.partSizeBytes]
    exact areParts number member
  have sendingNow : Sending hashes session localPath session world :=
    ⟨⟨rfl, rfl, rfl, rfl, rfl⟩, sending.sound, sending.fresh⟩
  unfold uploadWave
  refine step_bind (returns_lift (@ensures_sendWave hashes digest world session localPath wave arePartsNow kept))
    fun results middle evolves kept areSent => ?_
  -- Every round keeps what was sent in the wave for the rounds to come.
  have loop := @returns_foldlM _ _ _ _ _ _ (Serves digest) (Kept hashes) middle (keepPart sessionPath) results
    (fun rest current world => Sending hashes session localPath current world ∧
      ∀ result ∈ rest, ∀ sent, result = .ok sent → SentRight hashes session localPath sent world)
    (fun result rest current world kept holds =>
      step_imp (returns_keepPart kept holds.1 (holds.2 result mem_cons_self)) fun after next evolves sending =>
        ⟨sending, fun other member sent isSent => (holds.2 other (.tail _ member) sent isSent).evolves evolves⟩)
    session kept ⟨sendingNow.evolves evolves, areSent⟩
  exact step_imp loop fun after next _ holds => ⟨same.trans holds.1.continues, holds.1.sound, holds.1.fresh⟩

theorem mem_chunks (member : chunk ∈ chunks size items) (inChunk : item ∈ chunk) : item ∈ items := by
  obtain ⟨index, -, rfl⟩ := mem_map.mp member
  exact mem_of_mem_drop (mem_of_mem_take inChunk)

/-- Where the loop over the waves is done, every part is kept. -/
theorem returns_uploadMissingParts (kept : Kept hashes world) (sending : Sending hashes base localPath session world) :
    Steps hashes digest (fun after world => Sending hashes base localPath after world ∧
        after.parts.entries.length = partCount base.fence.byteLength base.partSizeBytes) world
      (uploadMissingParts hashes config session localPath sessionPath) := by
  have same := sending.continues
  unfold uploadMissingParts
  simp only
  split
  · exact returns_throw kept
  -- Between the waves: what is sent so far, and that the waves to come name parts only.
  have loop := @returns_foldlM _ _ _ _ _ _ (Serves digest) (Kept hashes) world (uploadWave hashes localPath sessionPath)
    (chunks (max config.maxParallelism 1) ((range' 1 (partCount session.fence.byteLength session.partSizeBytes)).filter
      fun number => !session.parts.contains number))
    (fun rest current world => Sending hashes base localPath current world ∧
      ∀ wave ∈ rest, ∀ number ∈ wave, IsPart base number)
    (fun wave rest current world kept holds =>
      step_imp (returns_uploadWave (holds.2 wave mem_cons_self) kept holds.1) fun after next _ sending =>
        ⟨sending, fun other member => holds.2 other (.tail _ member)⟩)
    session kept ⟨sending, fun wave member number inWave => ?_⟩
  · refine step_bind loop fun after middle _ kept holds => ?_
    split
    · exact returns_throw kept
    case isFalse counted =>
      refine returns_pure kept ⟨holds.1, ?_⟩
      have within := fun entry member => (holds.1.sound.kept entry member).2
      have atMost := (length_le fun entry member => ⟨(within entry member).1, (within entry member).2.1⟩).2
      -- The parts are counted in a u32, which the cap on their number does not exceed.
      have capped : partCount after.fence.byteLength after.partSizeBytes < 2 ^ 32 := by
        unfold partCount
        split <;> omega
      rw [Nat.mod_eq_of_lt (Nat.lt_of_le_of_lt atMost capped), same.fence, same.partSizeBytes] at counted
      exact not_not.mp counted
  · have inRange := mem_of_mem_filter (mem_chunks member inWave)
    rw [mem_range'_1, same.fence, same.partSizeBytes] at inRange
    exact ⟨inRange.1, by omega⟩

end Sending

/-! ## Completion -/

/-- The parts of a file, one after another, are what it begins with. -/
theorem slices_flatten (file : List UInt8) (partSize count) :
    ((range' 1 count).map fun number => slice file (partOffset partSize number) partSize).flatten =
      file.take (count * partSize) := by
  induction count with
  | zero => simp
  | succ count ih =>
    have isLast : partOffset partSize (1 + 1 * count) = count * partSize := by simp [partOffset, Nat.add_comm 1 count]
    rw [range'_concat, map_append, flatten_append, ih, map_singleton,
      flatten_singleton, isLast, slice, Nat.succ_mul, take_add]

theorem slice_min {file : List UInt8} (sized : file.length = byteLength) :
    slice file offset (min (byteLength - offset) len) = slice file offset len := by
  unfold slice
  rw [take_eq_take_iff, length_drop, sized]
  omega

section Completing

variable {base session : MultipartSession} {call : Call}

/-- Where the file is unchanged, it has the length of the fence. -/
def Sized (call : Call) (world : UploadWorld) : Prop :=
  call.localPath ∉ world.changed → (world.files call.localPath).length = call.fence.byteLength

theorem Sized.evolves (sized : Sized call world) (evolves : Evolves world next) : Sized call next := by
  intro unchanged
  rw [evolves.files _ unchanged]
  exact sized fun earlier => unchanged (evolves.changed earlier)

/-- The checksum of a call, if it has one, is of the file as it is. -/
def Described (digest : String → List UInt8 → String) (call : Call) (world : UploadWorld) : Prop :=
  ∀ checksum ∈ call.checksum, EqIgnoreAsciiCase (digest checksum.algorithm (world.files call.localPath)) checksum.hex

/-- The file, if it has not changed and is described by the checksum, is what the store has at the URI. -/
def Delivered (digest : String → List UInt8 → String) (call : Call) (world : UploadWorld) : Prop :=
  call.localPath ∉ world.changed → Described digest call world →
    world.objects call.objectUri = some (world.files call.localPath)

/-- Digests are of one content only, whatever the case of their letters. -/
def CollisionFree (digest : String → List UInt8 → String) : Prop :=
  ∀ algorithm first second, EqIgnoreAsciiCase (digest algorithm first) (digest algorithm second) → first = second

/-- A session that belongs to a call, with all its parts. -/
structure Full (hashes : UploadHashes) (call : Call) (base session : MultipartSession) (world : UploadWorld) : Prop where
  sending : Sending hashes base call.localPath session world
  count : session.parts.entries.length = partCount base.fence.byteLength base.partSizeBytes
  fence : base.fence = call.fence

section

variable (full : Full hashes call base session world)

include full

/-- A piece that is named is the file's, at its offset. -/
theorem Full.part (sized : Sized call world)
    (unchanged : call.localPath ∉ world.changed) {entry : Nat × PersistedPart} (member : entry ∈ session.parts.entries) :
    world.parts session.uploadId entry.2.partNumber entry.2.etag =
      some (slice (world.files call.localPath) (partOffset session.partSizeBytes entry.2.partNumber) session.partSizeBytes) := by
  have isNumber := (full.sending.sound.kept entry member).1
  have isLength : (world.files call.localPath).length = session.fence.byteLength := by
    rw [sized unchanged, full.sending.continues.fence, full.fence]
  rw [isNumber, full.sending.fresh unchanged entry member, partLen, slice_min isLength]

theorem Full.numbers : session.parts.entries.map (·.2.partNumber) =
      range' 1 (partCount session.fence.byteLength session.partSizeBytes) := by
  have kept := full.sending.sound.kept
  have keys := @keys_eq_range _ session.parts _ (fun entry member => ⟨(kept entry member).2.1, (kept entry member).2.2.1⟩)
    (by rw [full.sending.continues.fence, full.sending.continues.partSizeBytes, full.count])
  rw [← keys]
  exact map_congr_left fun entry member => (kept entry member).1

def MultipartSession.named (session : MultipartSession) : List UploadedPart :=
  session.parts.entries.map fun entry => ⟨entry.2.partNumber, entry.2.etag⟩

/-- A part before the last one ends within the file, so it is a whole one. -/
theorem Full.partLen_of_lt {entry : Nat × PersistedPart} (member : entry ∈ session.parts.entries)
    (before : entry.1 < partCount session.fence.byteLength session.partSizeBytes) :
    session.partLen entry.1 = session.partSizeBytes := by
  have positive := full.sending.sound.partSize
  obtain ⟨-, first, -⟩ := full.sending.sound.kept entry member
  obtain ⟨earlier, isEarlier⟩ : ∃ earlier, entry.1 = earlier + 1 := ⟨entry.1 - 1, by omega⟩
  rw [isEarlier] at before ⊢
  have below : earlier + 1 + 1 ≤ (session.fence.byteLength + session.partSizeBytes - 1) / session.partSizeBytes := by
    unfold partCount at before
    split at before <;> omega
  have product := (Nat.le_div_iff_mul_le positive).mp below
  rw [Nat.succ_mul, Nat.succ_mul] at product
  have offset : partOffset session.partSizeBytes (earlier + 1) = earlier * session.partSizeBytes := rfl
  rw [partLen, offset]
  omega

theorem Full.names (sized : Sized call world) (samePath : base.localPath = call.localPath) :
    NamesParts world session session.named := by
  have same := full.sending.continues
  refine ⟨?_, fun part member => ?_⟩
  · rw [← full.numbers, named, map_map]
    rfl
  · obtain ⟨entry, ofSession, rfl⟩ := mem_map.mp member
    obtain ⟨isNumber, -, -, -, bytes, stored, isLen, -⟩ := full.sending.sound.kept entry ofSession
    simp only [isNumber]
    refine ⟨bytes, stored, isLen, fun before => isLen.trans (full.partLen_of_lt ofSession before), fun unchanged => ?_⟩
    rw [same.localPath, samePath] at unchanged ⊢
    have isPart := full.part sized unchanged ofSession
    rw [isNumber, stored] at isPart
    exact Option.some.inj isPart

/-- The parts that are named, assembled, are the file. -/
theorem Full.assembles (sized : Sized call world) (unchanged : call.localPath ∉ world.changed)
    (assembled : world.Assembles session.uploadId session.named bytes) : bytes = world.files call.localPath := by
  obtain ⟨pieces, arePieces, rfl⟩ := assembled
  have isLength : (world.files call.localPath).length = session.fence.byteLength := by
    rw [sized unchanged, full.sending.continues.fence, full.fence]
  have sound := full.sending.sound
  have pieceOf : pieces = (range' 1 (partCount session.fence.byteLength session.partSizeBytes)).map fun number =>
      slice (world.files call.localPath) (partOffset session.partSizeBytes number) session.partSizeBytes := by
    refine map_injective_iff.mpr (Option.some_injective _) ?_
    rw [← arePieces, ← full.numbers, named, map_map, map_map, map_map]
    exact map_congr_left fun entry member => full.part sized unchanged member
  -- Fewer than 2³² parts reach the end of the file.
  have reaches : session.fence.byteLength ≤
      partCount session.fence.byteLength session.partSizeBytes * session.partSizeBytes := by
    have isCount : partCount session.fence.byteLength session.partSizeBytes =
        (session.fence.byteLength + session.partSizeBytes - 1) / session.partSizeBytes := by
      have fits := sound.fits
      have positive := sound.byteLength
      unfold partCount
      rw [if_neg (by omega), Nat.min_eq_left (by omega)]
    have below := @Nat.lt_div_mul_add (session.fence.byteLength + session.partSizeBytes - 1) _ sound.partSize
    have positive := sound.partSize
    rw [isCount]
    omega
  rw [pieceOf, slices_flatten, take_of_length_le (by omega)]

end

section

variable (collisionFree : CollisionFree digest)

include collisionFree

/-- A strong verification leaves no other content than the file's. -/
theorem returns_recoverCompleted (kept : Kept hashes world) : Steps hashes digest (fun _ => Delivered digest call) world
      (recoverCompleted call.objectUri call.checksum byteLength) := by
  unfold recoverCompleted
  refine step_ask kept trivial fun answer middle served evolves kept => step_orStop kept fun verification isOk => ?_
  subst isOk
  split
  · exact returns_throw kept
  case isFalse strong =>
    simp only [Bool.or_eq_true, Bool.not_eq_true', not_or, Bool.not_eq_false] at strong
    refine step_ask kept trivial fun answer last heading later kept => step_orStop kept fun _ _ => ?_
    refine returns_pure kept fun unchanged described => ?_
    obtain ⟨now, touched, rfl, right⟩ := served
    obtain ⟨checksum, given, bytes, isObject, isLength, isDigest⟩ := right verification rfl strong.1 (by simpa using strong.2)
    have same := collisionFree checksum.algorithm bytes (last.files call.localPath) (isDigest.trans (described checksum given).symm)
    have isKept : last.objects = middle.objects := by
      obtain ⟨_, touchedLast, rfl⟩ := heading
      rw [touchedLast.rest]
    rw [isKept, isObject, same]

theorem returns_finishIdempotent (kept : Kept hashes world) : Steps hashes digest (fun _ => Delivered digest call) world
      (finishIdempotent call.objectUri session call.checksum) := by
  unfold finishIdempotent
  refine step_bind (returns_recoverCompleted collisionFree kept) fun stored middle _ kept delivered => ?_
  split <;> exact returns_pure kept delivered

theorem returns_complete (kept : Kept hashes world) (sized : Sized call world)
    (full : Full hashes call base session world) (saved : base ∈ world.saved) (sameUri : base.objectUri = call.objectUri)
    (samePath : base.localPath = call.localPath) :
    Steps hashes digest (fun _ => Delivered digest call) world (call.complete session) := by
  have same := full.sending.continues
  have allowed : Allowed hashes world (.completeMultipartUpload call.objectUri session.uploadId session.named) := by
    refine ⟨base, saved, sameUri, same.uploadId.symm, ?_⟩
    have names := full.names sized samePath
    unfold NamesParts at names ⊢
    rwa [same.uploadId, same.fence, same.partSizeBytes, same.localPath, funext same.partLen] at names
  unfold Call.complete
  refine step_ask kept allowed fun answer middle served evolves kept => ?_
  cases answer with
  | error error => exact returns_catch (returns_recoverCompleted collisionFree kept)
  | ok stored =>
    refine returns_pure kept fun unchanged _ => ?_
    obtain ⟨now, touched, ⟨bytes, assembled, rfl⟩ | ⟨failed, -⟩⟩ := served
    · have fullNow : Full hashes call base session now := ⟨full.sending.evolves touched.evolves, full.count, full.fence⟩
      have isFile := fullNow.assembles (sized.evolves touched.evolves) unchanged assembled
      simp [putting, requesting, isFile]
    · exact absurd rfl (failed stored)

end

/-- Requests other than a completion leave the objects. -/
theorem Serves.objects (served : Serves digest world request answer next)
    (notComplete : ∀ objectUri uploadId named, request ≠ .completeMultipartUpload objectUri uploadId named) :
    next.objects = world.objects := by
  obtain ⟨now, touched, answers⟩ := served
  have isNow : now.objects = world.objects := by rw [touched.rest]
  rw [← isNow]
  cases request with
  | nowUnixSecs | createMultipartUpload _ _ | headObject _ => rw [show next = now from answers]
  | fileLen _ | readExact _ _ _ | loadSession _ | verifyObject _ _ _ => rw [show next = now from answers.1]
  | saveSession _ _ => obtain rfl | ⟨-, rfl⟩ := answers <;> rfl
  | deleteSession _ => obtain rfl | rfl := answers <;> rfl
  | uploadPart _ _ _ _ => obtain ⟨_, -, rfl, -⟩ | ⟨-, rfl⟩ := answers <;> rfl
  | completeMultipartUpload objectUri uploadId named => exact absurd rfl (notComplete objectUri uploadId named)

theorem Delivered.serves (delivered : Delivered digest call world) (served : Serves digest world request answer next)
    (notComplete : ∀ objectUri uploadId named, request ≠ .completeMultipartUpload objectUri uploadId named) :
    Delivered digest call next := by
  have evolves := served.evolves
  intro unchanged described
  have sameFile := evolves.files _ unchanged
  rw [served.objects notComplete, sameFile]
  refine delivered (fun earlier => unchanged (evolves.changed earlier)) fun checksum given => ?_
  rw [← sameFile]
  exact described checksum given

/-- What is known of a session that a call goes on with. -/
structure Ours (hashes : UploadHashes) (call : Call) (session : MultipartSession) (world : UploadWorld) : Prop where
  saved : session ∈ world.saved
  fence : session.fence = call.fence
  objectUri : session.objectUri = call.objectUri
  localPath : session.localPath = call.localPath

theorem returns_finish (blakeFree : Injective hashes.blake3) (collisionFree : CollisionFree digest)
    (kept : Kept hashes world) (sized : Sized call world) (ours : Ours hashes call session world) :
    Steps hashes digest (fun _ => Delivered digest call) world (call.finish hashes session) := by
  unfold Call.finish
  refine step_bind (returns_revalidate blakeFree kept (kept.saved session ours.saved))
    fun revalidated first evolvesFirst kept ⟨continues, sound, fresh⟩ => ?_
  refine step_ask kept sound fun answer second _ evolvesSecond kept => step_orStop kept fun _ _ => ?_
  have sending : Sending hashes session call.localPath revalidated second :=
    ⟨continues, sound.grows evolvesSecond.toGrows, fresh.evolves evolvesSecond⟩
  refine step_bind (returns_uploadMissingParts kept sending) fun sent third evolvesThird kept ⟨sending, count⟩ => ?_
  have evolves := evolvesFirst.trans (evolvesSecond.trans evolvesThird)
  refine step_bind (returns_complete collisionFree kept (sized.evolves evolves) ⟨sending, count, ours.fence⟩
    (evolves.saved ours.saved) ours.objectUri ours.localPath) fun stored fourth evolvesFourth kept delivered => ?_
  refine step_ask kept trivial fun now fifth timed evolvesFifth kept => ?_
  have completed : Sound hashes fifth
      { sent with phase := .Completed, completedVersionId := stored.versionId, updatedAtUnixSecs := now } :=
    (sending.sound.grows (evolvesFourth.trans evolvesFifth).toGrows).of_subset ⟨rfl, rfl, rfl, rfl, rfl⟩ fun _ member => member
  refine step_ask kept completed fun answer sixth saving _ kept => step_orStop kept fun _ _ => ?_
  refine step_ask kept trivial fun answer last deleting _ kept => step_orStop kept fun _ _ => ?_
  exact returns_pure kept (((delivered.serves timed (by simp)).serves saving (by simp)).serves deleting (by simp))

/-- The parts of a call's file, at the size it is configured with, are fewer than 2³². -/
def Call.Fits (call : Call) : Prop :=
  (call.fence.byteLength + call.config.partSizeBytes - 1) / call.config.partSizeBytes < 2 ^ 32

theorem returns_startSession (kept : Kept hashes world) (partSize : 0 < call.config.partSizeBytes)
    (byteLength : 0 < call.fence.byteLength) (fits : call.Fits) :
    Steps hashes digest (Ours hashes call) world (call.startSession hashes backend) := by
  unfold Call.startSession
  refine step_ask kept trivial fun answer first _ _ kept => step_orStop kept fun uploadId _ => ?_
  refine step_ask kept trivial fun now second _ _ kept => ?_
  have sound : Sound hashes second
      { schemaVersion := SESSION_SCHEMA, backendId := backend.backendName, objectUri := call.objectUri
        localPath := call.localPath, uploadId, partSizeBytes := call.config.partSizeBytes, fence := call.fence
        phase := .InProgress, parts := .empty, createdAtUnixSecs := now, updatedAtUnixSecs := now
        completedVersionId := none } :=
    ⟨partSize, byteLength, fits, fun entry member => nomatch member⟩
  refine step_ask kept sound fun answer last saving _ kept => step_orStop kept fun value isOk => ?_
  subst isOk
  refine returns_pure kept ⟨?_, rfl, rfl, rfl⟩
  obtain ⟨now, -, rfl | ⟨failed, -⟩⟩ := saving
  · exact Set.mem_insert _ _
  · exact absurd rfl failed

theorem returns_uploadResumable (blakeFree : Injective hashes.blake3) (collisionFree : CollisionFree digest)
    (kept : Kept hashes world) (fits : call.Fits) :
    Steps hashes digest (fun _ => Delivered digest call) world (call.uploadResumable hashes backend) := by
  unfold Call.uploadResumable
  refine step_orStop kept fun _ configured => ?_
  have positive : 0 < call.config.partSizeBytes ∧ 0 < call.fence.byteLength := by
    unfold Call.checkConfig at configured
    split_ifs at configured with unsupported unset permits empty
    omega
  refine step_ask kept trivial fun answer first statted _ kept => step_orStop kept fun metaLen isLen => ?_
  refine step_orStop kept fun _ checked => ?_
  have sized : Sized call first := by
    intro unchanged
    obtain ⟨now, -, rfl, holds⟩ := statted
    rw [← holds metaLen isLen]
    unfold Call.precheck at checked
    split_ifs at checked with differs
    exact not_not.mp differs
  refine step_ask kept trivial fun answer second loading evolves kept => ?_
  have sizedNow := sized.evolves evolves
  -- No session is saved, or one that this call may resume.
  cases answer with
  | none =>
    refine step_bind (returns_startSession kept positive.1 positive.2 fits) fun session third later kept ours => ?_
    exact returns_finish blakeFree collisionFree kept (sizedNow.evolves later) ours
  | some session =>
    refine step_orStop kept fun _ valid => ?_
    have ours : Ours hashes call session second := by
      unfold validateResume at valid
      split_ifs at valid with schema backendId objectUri localPath fence
      refine ⟨?_, not_not.mp fence, not_not.mp objectUri, not_not.mp localPath⟩
      obtain ⟨now, -, rfl, isNone | isSession⟩ := loading
      · cases isNone
      · exact kept.sessions _ _ isSession.symm
    split
    · refine step_bind (returns_finishIdempotent collisionFree kept) fun stored third _ kept delivered => ?_
      refine step_ask kept trivial fun answer last deleting _ kept => step_orStop kept fun _ _ => ?_
      exact returns_pure kept (delivered.serves deleting (by simp))
    · exact returns_finish blakeFree collisionFree kept sizedNow ours

end Completing

/-! ## Whole histories -/

section Histories

variable {Made : Call → Prop} {files : String → List UInt8}

/-- Between calls nothing is lost that the invariant speaks of. -/
theorem Step.kept (blakeFree : Injective hashes.blake3) (collisionFree : CollisionFree digest)
    (fits : ∀ call, Made call → call.Fits) (kept : Kept hashes world)
    (step : Step hashes backend digest Made world event next) : Kept hashes next := by
  cases event with
  | call call out =>
    have begun : Kept hashes { world with changed := ∅ } := kept.grows ⟨id, subset_rfl⟩ rfl kept.sessions rfl
    exact ((returns_uploadResumable blakeFree collisionFree begun (fits call step.1)).sound step.2).1
  | rewrite path bytes | object objectUri bytes =>
    obtain rfl := step
    exact kept.grows ⟨id, subset_rfl⟩ rfl kept.sessions rfl
  | session path found =>
    obtain ⟨known, rfl⟩ := step
    refine kept.grows ⟨id, subset_rfl⟩ rfl (fun other session isFound => ?_) rfl
    simp only at isFound
    split at isFound
    · exact known session isFound
    · exact kept.sessions other session isFound
  | stray uploadId number etag data =>
    obtain ⟨same, rfl⟩ := step
    exact kept.grows (sent_evolves same).toGrows rfl kept.sessions rfl

theorem Reachable.kept (blakeFree : Injective hashes.blake3) (collisionFree : CollisionFree digest)
    (fits : ∀ call, Made call → call.Fits)
    (reached : Reachable (Step hashes backend digest Made) (.start files) world) : Kept hashes world := by
  have start : Kept hashes (.start files) := by constructor <;> simp [start]
  exact reached.invariant (Kept hashes) start fun _ _ _ _ kept step => Step.kept blakeFree collisionFree fits kept step

/-- Whatever calls were made before, and however they ended: a call that returns, with its file unchanged and described by
its checksum, leaves the file at its URI; and every completion that was requested named the parts of its file. -/
theorem multipart_completes_file (blakeFree : Injective hashes.blake3) (collisionFree : CollisionFree digest)
    (fits : ∀ call, Made call → call.Fits)
    (reached : Reachable (Step hashes backend digest Made) (.start files) world) :
    (∀ completion ∈ world.completions, completion.Right world) ∧
      ∀ call stored next, Step hashes backend digest Made world (.call call (some (.ok stored))) next →
        call.localPath ∉ next.changed → Described digest call next →
        next.objects call.objectUri = some (next.files call.localPath) := by
  have kept := Reachable.kept blakeFree collisionFree fits reached
  refine ⟨kept.completions, fun call stored next step unchanged described => ?_⟩
  have begun : Kept hashes { world with changed := ∅ } := kept.grows ⟨id, subset_rfl⟩ rfl kept.sessions rfl
  have returns := @returns_uploadResumable hashes backend digest _ call blakeFree collisionFree begun (fits call step.1)
  exact (returns.sound step.2).2 stored rfl unchanged described

end Histories

/-! ## A store that answers at once -/

/-- Digests that are the bytes themselves, in hexadecimal. -/
def plainHashes : UploadHashes where
  blake3 := hexEncode
  sessionFileName _ _ := "session"

def plainBackend : Backend := ⟨true, "mock"⟩

def plainDigest (_ : String) (bytes : List UInt8) : String := hexEncode bytes

/-- A store that does what it is asked, and tags a part with its digest. -/
def plainServe (world : UploadWorld) : (request : UploadRequest) → UploadAnswer request × UploadWorld
  | .nowUnixSecs => ((0 : Nat), world)
  | .fileLen path => (.ok (world.files path).length, world)
  | .readExact path offset len =>
    if (slice (world.files path) offset len).length = len then (.ok (slice (world.files path) offset len), world)
    else (.error (.Upload "short read"), world)
  | .loadSession path => (world.sessions path, world)
  | .saveSession path session => (.ok (), world.saving path session)
  | .deleteSession path =>
    (.ok (), { world with sessions := fun other => if other = path then none else world.sessions other })
  | .createMultipartUpload _ _ => (.ok "upload", world)
  | .uploadPart _ uploadId number data =>
    if (world.parts uploadId number (hexEncode data)).all (· = data) then
      (.ok ⟨number, hexEncode data⟩, world.sent uploadId number (hexEncode data) data)
    else (.error (.Upload "tag taken"), world)
  | .completeMultipartUpload objectUri uploadId named =>
    match named.mapM fun part => world.parts uploadId part.partNumber part.etag with
    | some pieces => (.ok ⟨none⟩, (world.requesting objectUri uploadId named).putting objectUri pieces.flatten)
    | none => (.error (.Upload "no such part"), world.requesting objectUri uploadId named)
  | .verifyObject objectUri size checksum =>
    match world.objects objectUri, checksum with
    | some bytes, some expected =>
      (.ok ⟨bytes.length = size ∧ EqIgnoreAsciiCase (plainDigest expected.algorithm bytes) expected.hex, false, ""⟩, world)
    | _, _ => (.error (.NotFound objectUri), world)
  | .headObject _ => (.ok (), world)

theorem plainServe_serves (world request) :
    Serves plainDigest world request (plainServe world request).1 (plainServe world request).2 := by
  refine ⟨world, ⟨fun _ _ => rfl, subset_rfl, rfl⟩, ?_⟩
  cases request with
  | nowUnixSecs | createMultipartUpload _ _ | headObject _ => rfl
  | fileLen path =>
    refine ⟨rfl, ?_⟩
    rintro _ ⟨⟩
    rfl
  | readExact path offset len =>
    simp only [plainServe]
    split
    case isTrue whole =>
      refine ⟨rfl, ?_⟩
      rintro _ ⟨⟩
      exact ⟨whole, fun _ => rfl⟩
    case isFalse =>
      refine ⟨rfl, ?_⟩
      rintro _ ⟨⟩
  | loadSession path => exact ⟨rfl, .inr rfl⟩
  | saveSession path session => exact .inl rfl
  | deleteSession path => exact .inr rfl
  | uploadPart _ uploadId number data =>
    simp only [plainServe]
    split
    case isTrue free =>
      refine .inl ⟨hexEncode data, fun kept isKept => ?_, rfl, ?_⟩
      · simpa [isKept] using free
      · rintro _ ⟨⟩
        rfl
    case isFalse => exact .inr ⟨(by rintro _ ⟨⟩), rfl⟩
  | completeMultipartUpload objectUri uploadId named =>
    simp only [plainServe]
    split
    case h_1 pieces isPieces => exact .inl ⟨pieces.flatten, ⟨pieces, mapM_eq_some isPieces, rfl⟩, rfl⟩
    case h_2 => exact .inr ⟨(by rintro _ ⟨⟩), rfl⟩
  | verifyObject objectUri size checksum =>
    simp only [plainServe]
    split
    case h_1 bytes expected isObject =>
      refine ⟨rfl, ?_⟩
      rintro _ ⟨⟩ passed -
      have found := of_decide_eq_true passed
      exact ⟨expected, rfl, bytes, isObject, found.1, found.2⟩
    case h_2 =>
      refine ⟨rfl, ?_⟩
      rintro _ ⟨⟩

theorem plainHashes_injective : Injective plainHashes.blake3 := by
  intro first second same
  have read := congrArg (fun text => hexDecode text.toList) same
  simpa [plainHashes, hexDecode_hexEncode] using read

theorem plainDigest_collisionFree : CollisionFree plainDigest := by
  intro algorithm first second same
  have lower := toLower_of_hexDecode (hexDecode_hexEncode first)
  have lower' := toLower_of_hexDecode (hexDecode_hexEncode second)
  refine plainHashes_injective (String.toList_injective ?_)
  exact lower.symm.trans (same.trans lower')

/-- One byte, described by its digest. -/
def oneByteCall : Call where
  config := ⟨1, 1, "state"⟩
  localPath := "file"
  objectUri := "s3://b/o"
  checksum := some ⟨"sha256", "61"⟩
  fence := ⟨0, 0, "61", "sha256", 1⟩

def oneByteFiles (_ : String) : List UInt8 := [97]

/-- A call, cut short after so many requests. -/
def runCall (budget : Nat) (world : UploadWorld) : Option (Except VtopError StoredObject) × UploadWorld :=
  Proc.runFor plainServe budget { world with changed := ∅ } (oneByteCall.uploadResumable plainHashes plainBackend).run

theorem runCall_step (budget world) :
    Step plainHashes plainBackend plainDigest (· = oneByteCall) world (.call oneByteCall (runCall budget world).1)
      (runCall budget world).2 :=
  ⟨rfl, Proc.runs_runFor plainServe_serves budget _ _⟩

theorem oneByteCall_fits (call : Call) (isCall : call = oneByteCall) : call.Fits := by
  subst isCall
  show (1 + 1 - 1) / 1 < 2 ^ 32
  decide

theorem one_byte_completed : (runCall 15 (.start oneByteFiles)).1 = some (.ok ⟨none⟩) ∧
      (runCall 15 (.start oneByteFiles)).2.objects "s3://b/o" = some [97] := by
  have returned : (runCall 15 (.start oneByteFiles)).1 = some (.ok ⟨none⟩) := rfl
  have step := runCall_step 15 (.start oneByteFiles)
  rw [returned] at step
  have described : Described plainDigest oneByteCall (runCall 15 (.start oneByteFiles)).2 := by
    intro checksum given
    obtain rfl := Option.some.inj given
    rfl
  exact ⟨returned, (multipart_completes_file plainHashes_injective plainDigest_collisionFree oneByteCall_fits .refl).2
    oneByteCall ⟨none⟩ _ step (fun changed => changed) described⟩

/-- A call is cut short after it has recorded its completion; the file is rewritten; the same call again verifies the
object against the digest it is given, and returns. -/
def rewritten : UploadWorld :=
  { (runCall 14 (.start oneByteFiles)).2 with files := fun other => if other = "file" then [98] else oneByteFiles other }

theorem rewritten_file_not_sent :
    Reachable (Step plainHashes plainBackend plainDigest (· = oneByteCall)) (.start oneByteFiles) rewritten ∧
      Step plainHashes plainBackend plainDigest (· = oneByteCall) rewritten (.call oneByteCall (some (.ok ⟨none⟩)))
        (runCall 5 rewritten).2 ∧
      "file" ∉ (runCall 5 rewritten).2.changed ∧ (runCall 5 rewritten).2.files "file" = [98] ∧
      (runCall 5 rewritten).2.objects "s3://b/o" = some [97] := by
  have returned : (runCall 5 rewritten).1 = some (.ok ⟨none⟩) := rfl
  have step := runCall_step 5 rewritten
  rw [returned] at step
  have cut := Reachable.refl.step (runCall_step 14 (.start oneByteFiles))
  exact ⟨cut.step (show Step _ _ _ _ _ (.rewrite "file" [98]) rewritten from rfl), step, fun changed => changed, rfl, rfl⟩

end VtopEngine.Upload
