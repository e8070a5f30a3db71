import VtopEngine.Adapters.ByteSource

/-! # The accumulation buffer of a source

Records read in several cycles are held per source and flushed as one window
(`engine.rs`).

* `PendingBuffer.continues` — does a read pick up where the window ends.
* `PendingBuffer.append`, `PendingBuffer.drain` — hold a read; hand the window on.
* `batchOf` — the batch the pipeline makes of a window.
-/

namespace VtopEngine.Cli

open VtopEngine.Core Adapters

structure PendingBuffer where
  batcher : AdaptiveBatcher
  latestEnd : Option ProgressMarker := none
  verbatim : Bool := false

namespace PendingBuffer

def new (limits : BatchLimits) : PendingBuffer := { batcher := { limits } }

/-- An unknown inode on either side cannot prove a change of file. -/
def sameFile : Option Nat → Option Nat → Bool
  | some one, some other => one = other
  | _, _ => true

/-- Does a read that starts at the marker pick up where the window ends?  Kafka partitions are not judged. -/
def continues (buffer : PendingBuffer) (start : ProgressMarker) : Bool :=
  match buffer.latestEnd, start with
  | some (.File _ endInode _ endByte _ _), .File _ startInode startByte _ _ _
  | some (.SyslogSpool _ _ endInode _ endByte _ _), .SyslogSpool _ _ startInode startByte _ _ _ =>
    sameFile endInode startInode ∧ endByte = startByte
  | _, _ => true

/-- The first read's start is the window's; the latest read's end is its commit point. -/
def append (buffer : PendingBuffer) (read : ReadResult) (now : Nat) : PendingBuffer where
  batcher := read.records.foldl (fun batcher record => batcher.push record read.progressStart now) buffer.batcher
  latestEnd := some read.progressEnd
  verbatim := read.verbatim

def shouldSeal (buffer : PendingBuffer) (now : Nat) : Option SealReason := buffer.batcher.shouldSeal now

/-- The window as one read. -/
def drain (buffer : PendingBuffer) (now : Nat) : Option ReadResult := do
  let finish ← buffer.latestEnd
  let batch ← buffer.batcher.sealBatch finish now
  some ⟨batch.records, batch.progressStart, batch.progressEnd, buffer.verbatim⟩

end PendingBuffer

/-- The batch of a window, as the pipeline builds and seals it. -/
def batchOf (read : ReadResult) (sealedAt : Nat) : TelemetryBatch :=
  ⟨read.records, read.records.length, read.progressStart, read.progressEnd, some sealedAt, .Sealed, read.verbatim⟩

namespace PendingBuffer

variable {buffer : PendingBuffer} {read held : ReadResult} {now earlier later : Nat} {adapter : ByteAdapter} {path : String}

theorem drain_eq_some : buffer.drain now = some window ↔
    buffer.latestEnd = some window.progressEnd ∧ buffer.batcher.progressStart = some window.progressStart ∧
      buffer.batcher.records = window.records ∧ buffer.verbatim = window.verbatim := by
  obtain ⟨records, progressStart, progressEnd, verbatim⟩ := window
  simp only [drain, AdaptiveBatcher.sealBatch_eq, Option.bind_eq_bind, Option.bind_eq_some_iff, Option.map_eq_some_iff,
    Option.some.injEq, ReadResult.mk.injEq]
  constructor
  · rintro ⟨finish, isFinish, batch, ⟨start, isStart, rfl⟩, rfl, rfl, rfl, rfl⟩
    exact ⟨isFinish, isStart, rfl, rfl⟩
  · rintro ⟨isFinish, isStart, rfl, rfl⟩
    exact ⟨progressEnd, isFinish, _, ⟨progressStart, isStart, rfl⟩, rfl, rfl, rfl, rfl⟩

/-- A first read fills the window by itself. -/
theorem drain_new (limits) (records : read.records ≠ []) : ((new limits).append read now).drain later = some read := by
  obtain ⟨isRecords, isStart⟩ := AdaptiveBatcher.foldl_push { limits } read.records read.progressStart now
  exact drain_eq_some.mpr ⟨rfl, by simpa [append, new, records] using isStart, by simpa [append, new] using isRecords, rfl⟩

/-- A further read extends the window. -/
theorem drain_append (isHeld : buffer.drain earlier = some held) (records : read.records ≠ []) :
    (buffer.append read now).drain later =
      some ⟨held.records ++ read.records, held.progressStart, read.progressEnd, read.verbatim⟩ := by
  obtain ⟨-, heldStart, heldRecords, -⟩ := drain_eq_some.mp isHeld
  obtain ⟨isRecords, isStart⟩ := AdaptiveBatcher.foldl_push buffer.batcher read.records read.progressStart now
  refine drain_eq_some.mpr ⟨rfl, ?_, ?_, rfl⟩
  · simpa [append, heldStart, records] using isStart
  · simpa [append, heldRecords] using isRecords

/-- Of one file, a read continues the window that ends where it starts. -/
theorem continues_iff {ending starting : FileIdentity} (sameInode : ending.inode = starting.inode)
    (ends : buffer.latestEnd = some (adapter.markerFrom path ending begun finish)) :
    buffer.continues (adapter.markerFrom path starting start start) = true ↔ finish = start := by
  have same : sameFile ending.inode starting.inode = true := by
    rw [sameInode]
    cases starting.inode <;> simp [sameFile]
  unfold continues
  rw [ends]
  cases adapter <;> simp [ByteAdapter.markerFrom, same]

end PendingBuffer

end VtopEngine.Cli
