import VtopEngine.Core.StateMachine
import VtopEngine.Core.Types

/-! # Telemetry batches and the adaptive batcher

A batch collects the records of a stretch of its source (`batch.rs`).  The batcher
holds records until a threshold trips and then seals them into one batch.

* `TelemetryBatch.toRecordBytes` — the bytes of the object.
* `AdaptiveBatcher` — `push`, `shouldSeal`, `sealBatch`.
-/

namespace VtopEngine.Core

def newline : UInt8 := 10

/-- A sealed or open collection of records.  `sealedAt` is in milliseconds. -/
structure TelemetryBatch where
  records : List (List UInt8)
  recordCount : Nat
  (progressStart progressEnd : ProgressMarker)
  sealedAt : Option Nat
  state : BatchState
  verbatim : Bool

namespace TelemetryBatch

/-- Verbatim records are the object's bytes; a line gets back the newline it lost when it was read. -/
def toRecordBytes (batch : TelemetryBatch) : List UInt8 :=
  if batch.verbatim then batch.records.flatten
  else batch.records.flatMap fun record => if record.getLast? = some newline then record else record ++ [newline]

/-- Seal the batch, at the instant its contents were fixed. -/
def sealAt (batch : TelemetryBatch) (instant : Nat) : Except TransitionError TelemetryBatch :=
  (transition batch.state .Sealed).map fun state =>
    { batch with state, sealedAt := some instant, recordCount := batch.records.length }

end TelemetryBatch

/-- Why a batch was sealed. -/
inductive SealReason
  | MaxRecords | MaxBytes | MaxAge
  deriving DecidableEq, Repr

structure BatchLimits where
  (maxRecords maxBytes maxBatchAgeSeconds : Nat)
  deriving DecidableEq, Repr

/-- The records held for one source, and when the first came. -/
structure AdaptiveBatcher where
  limits : BatchLimits
  records : List (List UInt8) := []
  bytes : Nat := 0
  startedAt : Option Nat := none
  progressStart : Option ProgressMarker := none

namespace AdaptiveBatcher

/-- The first marker becomes the start of the batch. -/
def push (batcher : AdaptiveBatcher) (record : List UInt8) (startMarker : ProgressMarker) (now : Nat) : AdaptiveBatcher :=
  { batcher with
    records := batcher.records ++ [record]
    bytes := batcher.bytes + record.length
    startedAt := if batcher.progressStart.isNone then some now else batcher.startedAt
    progressStart := batcher.progressStart.or (some startMarker) }

def shouldSeal (batcher : AdaptiveBatcher) (now : Nat) : Option SealReason :=
  if batcher.records.isEmpty then none
  else if batcher.limits.maxRecords ≤ batcher.records.length then some .MaxRecords
  else if batcher.limits.maxBytes ≤ batcher.bytes then some .MaxBytes
  else if batcher.startedAt.any fun started => batcher.limits.maxBatchAgeSeconds ≤ (now - started) / 1000 then some .MaxAge
  else none

/-- The batch of the held records, up to `progressEnd`. -/
def sealBatch (batcher : AdaptiveBatcher) (progressEnd : ProgressMarker) (now : Nat) : Option TelemetryBatch := do
  let progressStart ← batcher.progressStart
  let batch : TelemetryBatch := ⟨batcher.records, batcher.records.length, progressStart, progressEnd, none, .Batching, false⟩
  (batch.sealAt now).toOption

variable (batcher : AdaptiveBatcher) (records : List (List UInt8)) (startMarker : ProgressMarker) (now : Nat)

/-- Pushing the records of a read appends them; the start is the first marker ever pushed. -/
theorem foldl_push :
    let pushed := records.foldl (fun batcher record => batcher.push record startMarker now) batcher
    pushed.records = batcher.records ++ records ∧
      pushed.progressStart = if records = [] then batcher.progressStart else batcher.progressStart.or (some startMarker) := by
  induction records generalizing batcher with
  | nil => simp
  | cons record records ih =>
    obtain ⟨isRecords, isStart⟩ := ih (batcher.push record startMarker now)
    refine ⟨by simpa [push] using isRecords, ?_⟩
    rw [List.foldl_cons, isStart]
    cases held : batcher.progressStart <;> simp [push, held]

theorem sealBatch_eq (progressEnd : ProgressMarker) :
    batcher.sealBatch progressEnd now = batcher.progressStart.map fun progressStart =>
      ⟨batcher.records, batcher.records.length, progressStart, progressEnd, some now, .Sealed, false⟩ := by
  unfold sealBatch
  cases batcher.progressStart <;> rfl

end AdaptiveBatcher

end VtopEngine.Core
