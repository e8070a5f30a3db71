import VtopEngine.Log.SegmentRecovery

/-! # Runs of a writer and what recovery finds

A writer appends, commits and truncates in any order.  Beside the live segment a run keeps the
segment as it was when the commit boundary was last written, and the records the segment holds.

* `Watched.Faithful` — live segment, boundary and records belong together, whatever the run did.
* `recovery_reproduces` — recovery from the boundary, over any bytes behind it, is that segment.
-/

namespace VtopEngine.Log

open Lib List ActiveSegment Nat
open IncomingRecord (record)

variable {η : Type} [DecidableEq η] (blake : Blake3 η) (tree : TreeHash Bytes η)

/-- What a writer may do to an active segment. -/
inductive WriterOp
  | appendGroup (group : List IncomingRecord) (durability : Durability)
  | commit
  | truncateTo (offset : Nat)

/-- A live segment, what it was when its commit boundary was last written, and the records it holds. -/
structure Watched (η : Type) where
  (live atBoundary : ActiveSegment η)
  log : List IncomingRecord

namespace Watched

/-- A new segment: its first boundary is written when it is created. -/
def start (header : AnyHeader) (sidecar : Option (ProducerSnapshot η)) (inherited : ProducerSnapshot η) : Watched η :=
  ⟨.create header sidecar inherited, .create header sidecar inherited, []⟩

/-- One operation; a refused one changes nothing. -/
def step (watched : Watched η) : WriterOp → Watched η
  | .appendGroup group durability =>
    match watched.live.appendGroup blake tree group durability with
    | .error _ => watched
    | .ok (live, outcomes) =>
      { live
        atBoundary :=
          match durability with
          | .Fsync => live
          | .Buffered => watched.atBoundary
        log := watched.log ++ appendedRecords group outcomes }
  | .commit => { watched with live := watched.live.commit, atBoundary := watched.live.commit }
  | .truncateTo offset =>
    match watched.live.truncateTo blake tree offset with
    | .error _ => watched
    | .ok (live, _) =>
      { live
        -- Cutting nothing off writes no boundary.
        atBoundary := if offset = watched.live.nextOffset then watched.atBoundary else live
        log := watched.log.take (offset - watched.live.header.baseOffset) }

variable {blake tree} {header : AnyHeader} {sidecar : Option (ProducerSnapshot η)} {inherited : ProducerSnapshot η}
  {watched : Watched η}

/-- The live segment holds the log, and the one at the boundary the part of it that is committed. -/
structure Faithful (blake : Blake3 η) (tree : TreeHash Bytes η) (header : AnyHeader)
    (sidecar : Option (ProducerSnapshot η)) (inherited : ProducerSnapshot η) (watched : Watched η) : Prop where
  admitted : Admitted blake header inherited (watched.log.map record)
  supported : ∀ incoming ∈ watched.log, ActiveSegment.unsupportedField header incoming = none
  holds : ∃ committed ≤ watched.log.length,
    watched.live = segmentOf blake tree header sidecar inherited (watched.log.map record) committed ∧
    watched.atBoundary = segmentOf blake tree header sidecar inherited ((watched.log.map record).take committed) committed

omit [DecidableEq η] in
theorem start_faithful (baseFits : header.baseOffset < UInt64.size) :
    Faithful blake tree header sidecar inherited (start header sidecar inherited) where
  admitted := .nil baseFits
  supported := by simp [start]
  holds := ⟨0, le_refl _, rfl, rfl⟩

section

variable (faithful : watched.Faithful blake tree header sidecar inherited)

include faithful

theorem Faithful.appendGroup (spanned : inherited.inheritedStates.Spanned) (group durability) :
    (watched.step blake tree (.appendGroup group durability)).Faithful blake tree header sidecar inherited := by
  obtain ⟨committed, within, isLive, isAtBoundary⟩ := faithful.holds
  have fewer : committed ≤ (watched.log.map record).length := by rwa [length_map]
  simp only [step]
  cases appended : watched.live.appendGroup blake tree group durability with
  | error problem => exact faithful
  | ok result =>
    obtain ⟨live, outcomes⟩ := result
    obtain ⟨supported, -⟩ := appendGroup_eq_ok appended
    rw [isLive] at appended supported
    obtain ⟨admitted, rfl⟩ := appendGroup_segmentOf faithful.admitted spanned fewer appended
    rw [← map_append] at admitted
    refine ⟨admitted, fun incoming member => ?_, ?_⟩
    · rcases mem_append.mp member with before | new
      · exact faithful.supported incoming before
      · exact findSome?_eq_none_iff.mp supported incoming (mem_appendedRecords new)
    · dsimp only
      rw [← map_append, length_map]
      cases durability with
      | Fsync =>
        refine ⟨_, le_refl _, rfl, ?_⟩
        rw [Durability.covers, take_of_length_le (by rw [length_map])]
      | Buffered =>
        refine ⟨committed, ?_, rfl, ?_⟩
        · rw [length_append]
          exact le_add_right_of_le within
        · rw [map_append, take_append_of_le_length fewer]
          exact isAtBoundary

theorem Faithful.commit : (watched.step blake tree .commit).Faithful blake tree header sidecar inherited := by
  obtain ⟨committed, within, isLive, -⟩ := faithful.holds
  refine ⟨faithful.admitted, faithful.supported, watched.log.length, le_refl _, ?_, ?_⟩
  · simp only [step, isLive, commit_segmentOf, length_map]
  · simp only [step, isLive, commit_segmentOf, length_map]
    rw [take_of_length_le (by rw [length_map])]

end

theorem truncateTo_bounds {segment after : ActiveSegment η}
    (ok : segment.truncateTo blake tree offset = .ok (after, outcome)) :
    segment.header.baseOffset ≤ offset ∧ offset ≤ segment.nextOffset ∧ (offset = segment.nextOffset → after = segment) := by
  simp only [truncateTo, bind, Except.bind, pure, Except.pure, throw, throwThe, MonadExceptOf.throw] at ok
  split_ifs at ok with beyond before atEnd
  · cases ok
    exact ⟨not_lt.mp before, not_lt.mp beyond, fun _ => rfl⟩
  · exact ⟨not_lt.mp before, not_lt.mp beyond, fun reaches => absurd reaches atEnd⟩

section

variable (faithful : watched.Faithful blake tree header sidecar inherited)

include faithful

/-- What a truncation that is answered did: nothing at the end of the log, and else a cut. -/
theorem Faithful.truncated {after} (ok : watched.live.truncateTo blake tree offset = .ok (after, outcome)) :
    (offset = watched.live.nextOffset ∧ offset - header.baseOffset = watched.log.length ∧ after = watched.live) ∨
      (offset ≠ watched.live.nextOffset ∧ offset - header.baseOffset < watched.log.length ∧
        after = segmentOf blake tree header sidecar inherited
          ((watched.log.map record).take (offset - header.baseOffset)) (offset - header.baseOffset)) := by
  obtain ⟨committed, -, isLive, -⟩ := faithful.holds
  obtain ⟨notBefore, notBeyond, atEnd⟩ := truncateTo_bounds ok
  have base : watched.live.header.baseOffset = header.baseOffset := by rw [isLive]; rfl
  have next : watched.live.nextOffset = header.baseOffset + watched.log.length := by rw [isLive, segmentOf, length_map]
  rw [base] at notBefore
  by_cases reaches : offset = watched.live.nextOffset
  · exact .inl ⟨reaches, by omega, atEnd reaches⟩
  · have within : offset - header.baseOffset < (watched.log.map record).length := by
      rw [length_map]
      omega
    have cut : (segmentOf blake tree header sidecar inherited (watched.log.map record) committed).truncateTo
        blake tree (header.baseOffset + (offset - header.baseOffset)) = _ := truncateTo_segmentOf faithful.admitted within
    rw [Nat.add_sub_cancel' notBefore, ← isLive, ok] at cut
    rw [length_map] at within
    exact .inr ⟨reaches, within, (Prod.mk.inj (Except.ok.inj cut)).1⟩

theorem Faithful.truncateTo (offset) :
    (watched.step blake tree (.truncateTo offset)).Faithful blake tree header sidecar inherited := by
  have base : watched.live.header.baseOffset = header.baseOffset := by
    obtain ⟨committed, -, isLive, -⟩ := faithful.holds
    rw [isLive]
    rfl
  simp only [step]
  cases truncated : watched.live.truncateTo blake tree offset with
  | error problem => exact faithful
  | ok result =>
    obtain ⟨after, outcome⟩ := result
    rcases faithful.truncated truncated with ⟨atEnd, all, rfl⟩ | ⟨notAtEnd, fewer, rfl⟩
    · dsimp only
      rw [if_pos atEnd, base, all, take_length]
      exact faithful
    · dsimp only
      rw [if_neg notAtEnd, base]
      refine ⟨?_, fun incoming member => faithful.supported incoming (mem_of_mem_take member), ?_⟩
      · rw [map_take]
        exact faithful.admitted.take _
      · refine ⟨offset - header.baseOffset, ?_, ?_, ?_⟩
        · rw [length_take]
          omega
        · rw [map_take]
        · rw [map_take, take_take, min_self]

theorem Faithful.step (spanned : inherited.inheritedStates.Spanned) (op) :
    (watched.step blake tree op).Faithful blake tree header sidecar inherited := by
  cases op with
  | appendGroup group durability => exact faithful.appendGroup spanned group durability
  | commit => exact faithful.commit
  | truncateTo offset => exact faithful.truncateTo offset

theorem Faithful.run (spanned : inherited.inheritedStates.Spanned) (ops : List WriterOp) :
    (ops.foldl (Watched.step blake tree) watched).Faithful blake tree header sidecar inherited := by
  induction ops generalizing watched with
  | nil => exact faithful
  | cons op ops ih => exact ih (faithful.step spanned op)

/-! ## Recovery -/

/-- The segment at the boundary is found again, whatever lies behind the boundary. -/
theorem Faithful.recovers (readable : readProducerSnapshot sidecar = .ok inherited) (torn) : recoverIn blake tree header
        (watched.live.file.take watched.live.boundary.contentBytes ++ torn) watched.live.boundary sidecar
      = .ok watched.atBoundary := by
  obtain ⟨committed, within, isLive, isAtBoundary⟩ := faithful.holds
  have length : ((watched.log.map record).take committed).length = committed := by
    rw [length_take, length_map]
    omega
  have survives : watched.live.file.take watched.live.boundary.contentBytes
      = content blake header 0 ((watched.log.map record).take committed) := by
    have split : content blake header 0 ((watched.log.map record).take committed
        ++ (watched.log.map record).drop committed) = _ := content_append
    rw [take_append_drop] at split
    rw [isLive, segmentOf, split, take_left]
  have boundary : watched.live.boundary = ⟨header.segmentId, header.baseOffset + committed,
      (content blake header 0 ((watched.log.map record).take committed)).length⟩ := by rw [isLive]; rfl
  have recovered : recoverIn blake tree header _ _ sidecar = _ :=
    recoverIn_segmentOf (faithful.admitted.take committed) readable torn
  rw [length] at recovered
  rw [survives, boundary, recovered, isAtBoundary]

end

end Watched

/-! ## Replaying -/

/-- Append records one by one, each as a group of its own. -/
def replay (durability : Durability) (segment : ActiveSegment η) (log : List IncomingRecord) :
    Except FileError (ActiveSegment η) :=
  log.foldlM (fun segment incoming => Prod.fst <$> segment.appendGroup blake tree [incoming] durability) segment

/-- A new segment receives records that are made durable and then records that are not. -/
def replayBoth (header : AnyHeader) (sidecar : Option (ProducerSnapshot η)) (inherited : ProducerSnapshot η)
    (fsynced buffered : List IncomingRecord) : Except FileError (ActiveSegment η) := do
  let segment ← replay blake tree .Fsync (.create header sidecar inherited) fsynced
  replay blake tree .Buffered segment buffered

variable {blake tree} {header : AnyHeader} {sidecar : Option (ProducerSnapshot η)} {inherited : ProducerSnapshot η}

theorem replay_segmentOf {records : List LogRecord} {durability : Durability}
    {log : List IncomingRecord} (spanned : inherited.inheritedStates.Spanned)
    (admitted : Admitted blake header inherited (records ++ log.map record))
    (supported : ∀ incoming ∈ log, unsupportedField header incoming = none)
    (within : committed ≤ records.length) (settled : durability.covers records.length committed = committed) :
    replay blake tree durability (segmentOf blake tree header sidecar inherited records committed) log
      = .ok (segmentOf blake tree header sidecar inherited (records ++ log.map record)
          (durability.covers (records ++ log.map record).length committed)) := by
  induction log generalizing records committed with
  | nil =>
    rw [map_nil, append_nil, settled]
    rfl
  | cons incoming log ih =>
    rw [map_cons, append_cons] at admitted
    have first : (segmentOf blake tree header sidecar inherited records committed).appendGroup blake tree [incoming]
        durability = _ :=
      appendGroup_single spanned admitted.of_append (supported incoming mem_cons_self) within durability
    have grown : committed ≤ (records ++ [incoming.record]).length := by
      rw [length_append]
      exact le_add_right_of_le within
    have rest := ih admitted (fun later member => supported later (mem_cons_of_mem _ member))
      (durability.covers_le grown) (durability.covers_covers _ _ _)
    rw [durability.covers_covers, ← append_cons] at rest
    rw [replay, foldlM_cons, first]
    exact rest

/-- The live segment is the one a new segment becomes when it receives the log, its tail buffered. -/
theorem Watched.Faithful.replays {watched : Watched η} (faithful : watched.Faithful blake tree header sidecar inherited)
    (spanned : inherited.inheritedStates.Spanned) :
    ∃ fsynced buffered, watched.log = fsynced ++ buffered ∧
      watched.live.committedOffset = header.baseOffset + fsynced.length ∧
      replayBoth blake tree header sidecar inherited fsynced buffered = .ok watched.live := by
  obtain ⟨committed, within, isLive, -⟩ := faithful.holds
  have split : watched.log.map record
      = (watched.log.take committed).map record ++ (watched.log.drop committed).map record := by
    rw [← map_append, take_append_drop]
  have length : ((watched.log.take committed).map record).length = committed := by
    rw [length_map, length_take]
    omega
  have admitted := faithful.admitted
  rw [split] at admitted
  have fsynced : replay blake tree .Fsync (segmentOf blake tree header sidecar inherited [] 0) (watched.log.take committed)
      = _ :=
    replay_segmentOf spanned admitted.of_append
      (fun incoming member => faithful.supported incoming (mem_of_mem_take member)) (le_refl 0) rfl
  rw [nil_append, Durability.covers, length] at fsynced
  have buffered : replay blake tree .Buffered (segmentOf blake tree header sidecar inherited
      ((watched.log.take committed).map record) committed) (watched.log.drop committed) = _ :=
    replay_segmentOf spanned admitted
      (fun incoming member => faithful.supported incoming (mem_of_mem_drop member)) (le_of_eq length.symm) rfl
  refine ⟨watched.log.take committed, watched.log.drop committed, (take_append_drop _ _).symm, ?_, ?_⟩
  · rw [length_map] at length
    rw [isLive, length]
    rfl
  · rw [replayBoth, create_eq_segmentOf, fsynced, isLive, split]
    exact buffered

/-- Whatever a run of appends, commits and truncations did: recovery from the commit boundary, over any
bytes that a crash left behind it, is the segment as it was when that boundary was written, and a
truncation leaves the segment that only ever received the records below its offset. -/
theorem recovery_reproduces (header : AnyHeader) (sidecar : Option (ProducerSnapshot η))
    (inherited : ProducerSnapshot η) (ops : List WriterOp) (baseFits : header.baseOffset < UInt64.size)
    (readable : readProducerSnapshot sidecar = .ok inherited) :
    let watched := ops.foldl (Watched.step blake tree) (.start header sidecar inherited)
    (∀ torn, recoverIn blake tree header
        (watched.live.file.take watched.live.boundary.contentBytes ++ torn) watched.live.boundary sidecar
      = .ok watched.atBoundary) ∧
    watched.atBoundary.boundary = watched.live.boundary ∧
    watched.atBoundary.nextOffset = watched.live.boundary.committedOffset ∧
    ∀ offset after outcome, watched.live.truncateTo blake tree offset = .ok (after, outcome) →
      ∃ fsynced buffered, watched.log.take (offset - header.baseOffset) = fsynced ++ buffered ∧
        replayBoth blake tree header sidecar inherited fsynced buffered = .ok after ∧
        (offset < watched.live.nextOffset → buffered = []) := by
  intro watched
  have spanned : inherited.inheritedStates.Spanned :=
    ProducerSnapshot.spanned_inheritedStates (ProducerSnapshot.problem_of_read readable)
  have faithful : watched.Faithful blake tree header sidecar inherited := (Watched.start_faithful baseFits).run spanned ops
  obtain ⟨committed, within, isLive, isAtBoundary⟩ := faithful.holds
  refine ⟨faithful.recovers readable, ?_, ?_, fun offset after outcome truncated => ?_⟩
  · rw [isAtBoundary, isLive]
    simp only [segmentOf, List.take_take, min_self]
  · rw [isAtBoundary, isLive]
    simp only [segmentOf, List.length_take, List.length_map, min_eq_left within]
  · -- A truncation is one more step of the watched writer, and its log is then the cut one.
    have stepped := (faithful.truncateTo offset).replays spanned
    have base : watched.live.header.baseOffset = header.baseOffset := by rw [isLive]; rfl
    simp only [Watched.step, truncated, base] at stepped
    obtain ⟨fsynced, buffered, split, durable, replays⟩ := stepped
    refine ⟨fsynced, buffered, split, replays, fun inside => ?_⟩
    rcases faithful.truncated truncated with ⟨atEnd, -, -⟩ | ⟨-, fewer, rfl⟩
    · omega
    · have lengths := congrArg List.length split
      rw [List.length_take, List.length_append] at lengths
      have cut : header.baseOffset + (offset - header.baseOffset) = header.baseOffset + fsynced.length := durable
      exact List.eq_nil_of_length_eq_zero (by omega)

/-- A digest that keeps what was hashed. -/
def plainBlake : Blake3 Bytes := ⟨id, fun _ => List.replicate CHECKSUM_LEN 0, fun _ => List.length_replicate⟩

def plainTree : TreeHash Bytes Bytes := ⟨id, fun left right => left ++ right, []⟩

def smallHeader : AnyHeader := ⟨.V1, 7, 5, ⟨64, 512, 1024, 4, 1⟩, 60⟩

/-- The records of one producer, of which the first is in the segment before. -/
def recordOf (sequence : Fin 3) : IncomingRecord :=
  ⟨⟨1, 0, sequence, 0, [1], [2, 3]⟩, 0, by constructor <;> simp [UInt64.size]; omega⟩

/-- What the segment before leaves to its successor. -/
def frontier : ProducerSnapshot Bytes :=
  snapshotOf ([WriterOp.appendGroup [recordOf 0] .Fsync].foldl (Watched.step plainBlake plainTree)
    (.start { smallHeader with baseOffset := 4 } none .empty)).live.producers

/-- A record in the file that no boundary covers is gone, and with it any torn bytes behind it. -/
theorem recovery_reproduces_buffered :
    let ops := [WriterOp.appendGroup [recordOf 1] .Fsync, .appendGroup [recordOf 2] .Buffered]
    let watched := ops.foldl (Watched.step plainBlake plainTree) (.start smallHeader (some frontier) frontier)
    smallHeader.baseOffset < UInt64.size ∧ watched.live.nextOffset = 7 ∧ watched.atBoundary.nextOffset = 6 ∧
      recoverIn plainBlake plainTree smallHeader
        (watched.live.file.take watched.live.boundary.contentBytes ++ [1, 2, 3]) watched.live.boundary (some frontier)
        = .ok watched.atBoundary :=
  ⟨by decide, by decide, by decide, (recovery_reproduces smallHeader (some frontier) frontier
    [.appendGroup [recordOf 1] .Fsync, .appendGroup [recordOf 2] .Buffered] (by decide) rfl).1 [1, 2, 3]⟩

end VtopEngine.Log
