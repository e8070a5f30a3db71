import Mathlib.Data.List.Chain
import VtopEngine.Cli.PendingBuffer
import VtopEngine.Lib.Runs

/-! # An archived object is the covered bytes of its source

A file or spool only grows.  Its reads are accumulated into windows, and a window
becomes one object.  `Growing.step` is one event of such a path: the file grows, a
read is made and routed to the buffer, the buffer is flushed, a window is handed
back.  The file may also grow while a read is under way.

* `Exact` — records that are exactly a stretch of the file.
* `windows_exact` — every window is; windows meet; a line-mode window ends after a
  newline; a line-mode read that finds no record found no newline.
-/

namespace VtopEngine.Cli

open VtopEngine.Core Adapters Lib ByteAdapter Cursor PendingBuffer List Option

/-! ## Records that are exactly a stretch of the file -/

/-- The bytes between two positions. -/
def bytesBetween (bytes : List UInt8) (start finish : Nat) : List UInt8 := (bytes.take finish).drop start

/-- The records are exactly the bytes between two positions; lines are whole and without their newline. -/
structure Exact (wholeFile : Bool) (bytes : List UInt8) (records : List (List UInt8)) (start finish : Nat) : Prop where
  ordered : start ≤ finish
  within : finish ≤ bytes.length
  covers : (if wholeFile then records.flatten else framed records) = bytesBetween bytes start finish
  lines : wholeFile = false → ∀ record ∈ records, newline ∉ record

section Exact

variable {wholeFile : Bool} {bytes more : List UInt8} {later : List (List UInt8)} {middle : Nat}

theorem bytesBetween_append (within : finish ≤ bytes.length) :
    bytesBetween (bytes ++ more) start finish = bytesBetween bytes start finish := by
  rw [bytesBetween, take_append_of_le_length within, bytesBetween]

theorem bytesBetween_meet (ordered : start ≤ middle) (later : middle ≤ finish) (within : finish ≤ bytes.length) :
    bytesBetween bytes start middle ++ bytesBetween bytes middle finish = bytesBetween bytes start finish := by
  unfold bytesBetween
  have split : bytes.take finish = bytes.take middle ++ (bytes.take finish).drop middle := by
    conv => lhs; rw [← take_append_drop middle (bytes.take finish), take_take, Nat.min_eq_left later]
  conv => rhs; rw [split]
  rw [drop_append_of_le_length (by rw [length_take]; omega)]

/-- What is appended to the file leaves its stretches as they are. -/
theorem Exact.grow (exact : Exact wholeFile bytes records start finish) (more : List UInt8) :
    Exact wholeFile (bytes ++ more) records start finish where
  ordered := exact.ordered
  within := by
    rw [length_append]
    exact Nat.le_add_right_of_le exact.within
  covers := by rw [bytesBetween_append exact.within, exact.covers]
  lines := exact.lines

/-- Stretches that meet are one stretch. -/
theorem Exact.append (first : Exact wholeFile bytes records start middle) (second : Exact wholeFile bytes later middle finish) :
    Exact wholeFile bytes (records ++ later) start finish where
  ordered := first.ordered.trans second.ordered
  within := second.within
  covers := by
    rw [← bytesBetween_meet first.ordered second.ordered second.within, ← first.covers, ← second.covers]
    cases wholeFile <;> simp [framed]
  lines isLines record member := by
    rcases mem_append.mp member with isFirst | isSecond
    · exact first.lines isLines record isFirst
    · exact second.lines isLines record isSecond

/-- The object of such records has exactly those bytes. -/
theorem Exact.toRecordBytes {batch : TelemetryBatch} (exact : Exact batch.verbatim bytes batch.records start finish) :
    batch.toRecordBytes = bytesBetween bytes start finish := by
  rw [← exact.covers, TelemetryBatch.toRecordBytes]
  cases isVerbatim : batch.verbatim with
  | true => rfl
  | false =>
    -- No line ends in a newline of its own, so each gets one back.
    simp only [Bool.false_eq_true, if_false, framed]
    refine flatMap_congr fun record member => if_neg fun ends => ?_
    exact exact.lines isVerbatim record member (mem_of_getLast? ends)

/-- Lines end right after a newline. -/
theorem Exact.newline_before (exact : Exact false bytes records start finish) (nonempty : records ≠ []) :
    bytes[finish - 1]? = some newline := by
  obtain ⟨front, last, rfl⟩ := (eq_nil_or_concat' records).resolve_left nonempty
  have isLast : (bytesBetween bytes start finish).getLast? = some newline := by
    rw [← exact.covers]
    simp [framed, flatMap_append]
  have within := exact.within
  rw [bytesBetween, getLast?_drop, getLast?_take] at isLast
  split at isLast
  case isTrue => cases isLast
  case isFalse =>
    split at isLast
    case isTrue => cases isLast
    case isFalse positive =>
      obtain ⟨byte, found⟩ : ∃ byte, bytes[finish - 1]? = some byte :=
        ⟨_, getElem?_eq_getElem (by omega)⟩
      rw [found] at isLast ⊢
      exact isLast

/-- A front of what follows a position is the stretch of its length. -/
theorem bytesBetween_of_prefix (isFront : taken <+: bytes.drop start) :
    bytesBetween bytes start (start + taken.length) = taken := by
  rw [bytesBetween, drop_take, Nat.add_sub_cancel_left]
  exact (prefix_iff_eq_take.mp isFront).symm

/-- What a read takes is exactly a stretch of the bytes it saw. -/
theorem exact_readRecords {adapter : ByteAdapter} {length}
    (isOk : adapter.readRecords path start budgets descriptor = .ok (records, length))
    (begins : start ≤ descriptor.bytes.length) :
    Exact adapter.wholeFile descriptor.bytes records start (start + length) := by
  -- In both modes what is taken is a front of the bytes that follow the position.
  have exact {taken : List UInt8} (isFront : taken <+: descriptor.bytes.drop start) (isLength : length = taken.length)
      (covers : (if adapter.wholeFile then records.flatten else framed records) = taken)
      (lines : adapter.wholeFile = false → ∀ record ∈ records, newline ∉ record) :
      Exact adapter.wholeFile descriptor.bytes records start (start + length) := by
    have fits := isFront.length_le
    rw [length_drop] at fits
    exact ⟨by omega, by omega, by rw [covers, isLength, bytesBetween_of_prefix isFront], lines⟩
  unfold readRecords at isOk
  split at isOk
  case isTrue whole =>
    unfold readWhole at isOk
    simp only at isOk
    split at isOk
    · cases isOk
    split at isOk
    · cases isOk
    obtain ⟨isRecords, isLength⟩ := Prod.mk.inj (Except.ok.inj isOk)
    refine exact (List.take_prefix _ _) isLength.symm ?_ (by simp [whole])
    rw [if_pos whole, ← isRecords]
    split
    case isTrue isEmpty => rw [isEmpty_iff.mp isEmpty, flatten_nil]
    case isFalse => rw [flatten_singleton]
  case isFalse isLines =>
    obtain ⟨lines, rfl, rfl, isFront, noNewlines⟩ := readLines_ok isOk
    exact exact isFront (by omega) (by simp [isLines]) fun _ => by simpa using noNewlines

end Exact

/-! ## A growing path -/

/-- A drained window, with how many hand-backs came before its first and before its last read. -/
structure Window where
  result : ReadResult
  (first last : Nat)

def Window.startByte (window : Window) : Nat := (byteRange window.result.progressStart).1

def Window.endByte (window : Window) : Nat := (byteRange window.result.progressEnd).2

/-- A buffer with the same two counts. -/
structure Buffered where
  buffer : PendingBuffer
  (first last : Nat)

/-- A growing file with its cursor and buffer. -/
structure Growing where
  bytes : List UInt8
  cursor : Cursor
  buffered : Option Buffered := none
  /-- Every window drained, oldest first. -/
  windows : List Window := []
  handBacks : Nat := 0

/-- What happens to the file during one read: the path's mtime if its `stat` answers; what is
    appended before the descriptor is open, and its mtime then; what is appended before the read
    meets the end of the file; what is appended before the last `fstat`, and the mtime then. -/
structure Moments where
  stat : Option String
  opened : Except String (List UInt8 × String)
  appended : List UInt8
  closed : Except String (List UInt8 × String)

inductive GrowingEvent
  | grow (more : List UInt8)
  | read (budgets : Budgets) (moments : Moments) (now : Nat)
  | flush (now : Nat)
  /-- A window is handed back; the answer of the `stat` it is judged by. -/
  | handBack (index : Nat) (stat : Except String String)

section Path

variable (adapter : ByteAdapter) (path : String) (inode : Option Nat) (limits : BatchLimits)

/-- What the descriptor of a read shows, for a file that had these bytes when the read began. -/
def Moments.descriptor (moments : Moments) (bytes : List UInt8) : Except String Descriptor :=
  moments.opened.map fun (grown, mtime) =>
    { opened := ⟨inode, (bytes ++ grown).length, mtime⟩
      bytes := bytes ++ grown ++ moments.appended
      closed := moments.closed.map fun (grownLast, mtime) =>
        ⟨inode, (bytes ++ grown ++ moments.appended ++ grownLast).length, mtime⟩ }

/-- What is appended to the file during the read. -/
def Moments.grown (moments : Moments) : List UInt8 :=
  (moments.opened.toOption.map Prod.fst).getD [] ++ moments.appended ++ (moments.closed.toOption.map Prod.fst).getD []

namespace Growing

/-- What the read finds. -/
def outcome (growing : Growing) (budgets : Budgets) (moments : Moments) : PassOutcome :=
  growing.cursor.look adapter path budgets (moments.stat.map fun mtime => ⟨inode, growing.bytes.length, mtime⟩)
    (moments.descriptor inode growing.bytes)

def drained (growing : Growing) (now : Nat) : List Window :=
  match growing.buffered with
  | some held => (held.buffer.drain now).toList.map (⟨·, held.first, held.last⟩)
  | none => []

/-- A read that does not continue the buffered window seals it first. -/
def route (growing : Growing) (read : ReadResult) (now : Nat) : Growing :=
  if read.records.isEmpty then growing else
    match growing.buffered.filter (·.buffer.continues read.progressStart) with
    | some held => { growing with buffered := some ⟨held.buffer.append read now, held.first, growing.handBacks⟩ }
    | none =>
      { growing with
        buffered := some ⟨(PendingBuffer.new limits).append read now, growing.handBacks, growing.handBacks⟩
        windows := growing.windows ++ growing.drained now }

def step (growing : Growing) : GrowingEvent → Option Growing
  | .grow more => some { growing with bytes := growing.bytes ++ more }
  | .read budgets moments now =>
    let (cursor, answer) :=
      growing.cursor.settleRead adapter path growing.cursor.readByte (growing.outcome adapter path inode budgets moments)
    let after := { growing with cursor, bytes := growing.bytes ++ moments.grown }
    match answer with
    | .ok read => some (after.route limits read now)
    | .error _ => some after
  | .flush now => some { growing with buffered := none, windows := growing.windows ++ growing.drained now }
  | .handBack index stat => do
    let window ← growing.windows[index]?
    match adapter.replayFromMarker growing.cursor window.result.progressStart
        (stat.map fun mtime => ⟨inode, growing.bytes.length, mtime⟩) with
    | .ok cursor => some { growing with cursor, handBacks := growing.handBacks + 1 }
    | .error _ => some growing

/-- The bytes a read looked at: those of the `stat` that let it skip, or those it met in the descriptor. -/
def lookedAt (growing : Growing) (budgets : Budgets) (moments : Moments) : List UInt8 :=
  match growing.outcome adapter path inode budgets moments, moments.descriptor inode growing.bytes with
  | .Read _, .ok descriptor => descriptor.bytes
  | _, _ => growing.bytes

/-- The windows drained, and the one in the buffer. -/
def chain (growing : Growing) : List Window := growing.windows ++ growing.drained 0

end Growing

/-- A window is exactly a stretch of the file, and its markers name the file. -/
structure Covers (bytes : List UInt8) (window : Window) : Prop where
  starts : ∃ identity : FileIdentity, identity.inode = inode ∧
    window.result.progressStart = adapter.markerFrom path identity window.startByte window.startByte
  ends : ∃ (identity : FileIdentity) (begun : Nat), identity.inode = inode ∧
    window.result.progressEnd = adapter.markerFrom path identity begun window.endByte
  nonempty : window.result.records ≠ []
  framing : window.result.verbatim = adapter.wholeFile
  exact : Exact adapter.wholeFile bytes window.result.records window.startByte window.endByte

/-- Without a hand-back between them, two windows meet. -/
def Meets (window next : Window) : Prop := window.last = next.first → window.endByte = next.startByte

/-- The cursor fits the file. -/
structure Fits (bytes : List UInt8) (cursor : Cursor) : Prop where
  read : cursor.readByte ≤ bytes.length
  committed : cursor.committedByte ≤ bytes.length
  seen : ∀ seen ∈ cursor.seen, (seen.inode = inode ∨ seen.inode = none) ∧ seen.fileSize ≤ bytes.length

structure Archives (growing : Growing) : Prop where
  fits : Fits inode growing.bytes growing.cursor
  covers : ∀ window ∈ growing.chain, Covers adapter path inode growing.bytes window
  meets : growing.chain.IsChain Meets
  counted : ∀ window ∈ growing.chain, window.last ≤ growing.handBacks
  atEnd : ∀ window ∈ growing.chain.getLast?, window.last = growing.handBacks → growing.cursor.readByte = window.endByte
  held : ∀ held ∈ growing.buffered, ∃ result, held.buffer.drain 0 = some result

end Path

open Growing

section Steps

variable {adapter : ByteAdapter} {path : String} {inode : Option Nat} {limits : BatchLimits} {growing next : Growing}
  {bytes : List UInt8} {cursor : Cursor} {window : Window} {read : ReadResult} {now : Nat}

theorem Covers.grow (covers : Covers adapter path inode bytes window) (more) :
    Covers adapter path inode (bytes ++ more) window :=
  ⟨covers.starts, covers.ends, covers.nonempty, covers.framing, covers.exact.grow more⟩

theorem Fits.grow (fits : Fits inode bytes cursor) (more) : Fits inode (bytes ++ more) cursor := by
  have longer : bytes.length ≤ (bytes ++ more).length := by simp
  exact ⟨fits.read.trans longer, fits.committed.trans longer, fun seen isSeen =>
    ⟨(fits.seen seen isSeen).1, (fits.seen seen isSeen).2.trans longer⟩⟩

theorem Archives.grow (archives : Archives adapter path inode growing) (more) :
    Archives adapter path inode { growing with bytes := growing.bytes ++ more } :=
  ⟨archives.fits.grow more, fun window member => (archives.covers window member).grow more, archives.meets,
    archives.counted, archives.atEnd, archives.held⟩

/-- When a buffer is drained does not matter to its window. -/
theorem Growing.drained_eq (growing : Growing) (now later) : growing.drained now = growing.drained later := by
  unfold drained
  split
  case h_1 held _ =>
    congr 2
    exact ext fun window => by simp only [drain_eq_some]
  case h_2 => rfl

theorem Archives.flush (archives : Archives adapter path inode growing) (now) :
    Archives adapter path inode { growing with buffered := none, windows := growing.windows ++ growing.drained now } := by
  have sameChain : chain { growing with buffered := none, windows := growing.windows ++ growing.drained now } =
      growing.chain := by
    show (growing.windows ++ growing.drained now) ++ [] = growing.windows ++ growing.drained 0
    rw [append_nil, growing.drained_eq now 0]
  refine ⟨archives.fits, ?_, ?_, ?_, ?_, fun held isHeld => by cases isHeld⟩
  all_goals rw [sameChain]
  · exact archives.covers
  · exact archives.meets
  · exact archives.counted
  · exact archives.atEnd

@[simp] theorem Growing.route_bytes : (growing.route limits read now).bytes = growing.bytes := by
  unfold route
  split
  · rfl
  · split <;> rfl

@[simp] theorem Growing.route_cursor : (growing.route limits read now).cursor = growing.cursor := by
  unfold route
  split
  · rfl
  · split <;> rfl

@[simp] theorem Growing.route_handBacks : (growing.route limits read now).handBacks = growing.handBacks := by
  unfold route
  split
  · rfl
  · split <;> rfl

/-- A read with records extends the last window or starts another. -/
theorem Growing.chain_route (held : ∀ held ∈ growing.buffered, ∃ result, held.buffer.drain 0 = some result)
    (records : read.records ≠ []) (limits now) :
    (∀ held ∈ (growing.route limits read now).buffered, ∃ result, held.buffer.drain 0 = some result) ∧
    ((growing.route limits read now).chain = growing.chain ++ [⟨read, growing.handBacks, growing.handBacks⟩] ∨
      ∃ before last, growing.chain = before ++ [last] ∧
        (∃ buffer : PendingBuffer, buffer.latestEnd = some last.result.progressEnd ∧
          buffer.continues read.progressStart = true) ∧ (growing.route limits read now).chain = before ++
          [⟨⟨last.result.records ++ read.records, last.result.progressStart, read.progressEnd, read.verbatim⟩,
            last.first, growing.handBacks⟩]) := by
  rw [route, if_neg (by rwa [List.isEmpty_iff])]
  split
  case h_1 continued isContinued =>
    obtain ⟨isHeld, continues⟩ := filter_eq_some_iff.mp isContinued
    obtain ⟨result, isDrained⟩ := held continued isHeld
    have extended := @drain_append _ read result now 0 0 isDrained records
    refine ⟨fun other isOther => ?_, .inr ⟨growing.windows, ⟨result, continued.first, continued.last⟩, ?_, ?_, ?_⟩⟩
    · obtain rfl := some.inj isOther
      exact ⟨_, extended⟩
    · simp [chain, drained, isHeld, isDrained]
    · exact ⟨_, (drain_eq_some.mp isDrained).1, continues⟩
    · simp [chain, drained, extended]
  case h_2 =>
    have started := @drain_new read now 0 limits records
    refine ⟨fun other isOther => ?_, .inl ?_⟩
    · obtain rfl := some.inj isOther
      exact ⟨_, started⟩
    · show (growing.windows ++ growing.drained now) ++ _ = (growing.windows ++ growing.drained 0) ++ _
      rw [growing.drained_eq now 0]
      simp [drained, started]

/-- A read of the file from the cursor's position, accumulated. -/
theorem Archives.routed (archives : Archives adapter path inode growing) (fits : Fits inode growing.bytes cursor)
    (covers : Covers adapter path inode growing.bytes ⟨read, growing.handBacks, growing.handBacks⟩)
    (begins : growing.cursor.readByte = (byteRange read.progressStart).1)
    (ends : cursor.readByte = (byteRange read.progressEnd).2) :
    Archives adapter path inode (route limits { growing with cursor } read now) := by
  obtain ⟨held, new | ⟨before, last, isChain, ⟨buffer, isEnd, continues⟩, extended⟩⟩ :=
    @chain_route { growing with cursor } read archives.held covers.nonempty limits now
  case inl =>
    have isChain : (route limits { growing with cursor } read now).chain = growing.chain ++ [_] := new
    refine ⟨by simpa using fits, ?_, ?_, ?_, ?_, held⟩
    · rw [isChain, route_bytes]
      exact forall_mem_append.mpr ⟨archives.covers, forall_mem_singleton.mpr covers⟩
    · rw [isChain]
      refine archives.meets.append (.singleton _) fun window isLast next isNext => ?_
      obtain rfl := some.inj isNext
      exact fun same => (archives.atEnd window isLast same).symm.trans begins
    · rw [isChain, route_handBacks]
      exact forall_mem_append.mpr ⟨archives.counted, forall_mem_singleton.mpr (le_refl _)⟩
    · rw [isChain, route_cursor]
      intro window isLast _
      obtain rfl : _ = window := by simpa using isLast
      exact ends
  case inr =>
    replace isChain : growing.chain = before ++ [last] := isChain
    have lastCovers := archives.covers last (by simp [isChain])
    -- The read starts where the last window ends, and the two are one stretch.
    have joined : last.endByte = (byteRange read.progressStart).1 := by
      obtain ⟨ending, begun, endInode, isEnding⟩ := lastCovers.ends
      obtain ⟨starting, startInode, isStarting⟩ := covers.starts
      rw [isEnding] at isEnd
      rw [isStarting] at continues
      exact (continues_iff (endInode.trans startInode.symm) isEnd).mp continues
    have covered : Covers adapter path inode growing.bytes
        ⟨⟨last.result.records ++ read.records, last.result.progressStart, read.progressEnd, read.verbatim⟩,
          last.first, growing.handBacks⟩ :=
      ⟨lastCovers.starts, covers.ends, by simp [covers.nonempty], covers.framing,
        lastCovers.exact.append (joined ▸ covers.exact)⟩
    refine ⟨by simpa using fits, ?_, ?_, ?_, ?_, held⟩
    · rw [extended, route_bytes]
      refine forall_mem_append.mpr ⟨fun window earlier => ?_, forall_mem_singleton.mpr covered⟩
      exact archives.covers window (by simp [isChain, earlier])
    · rw [extended]
      have meets := archives.meets
      rw [isChain, isChain_append] at meets
      refine meets.1.append (.singleton _) fun window isLast next isNext => ?_
      obtain rfl := some.inj isNext
      exact meets.2.2 window isLast last rfl
    · rw [extended, route_handBacks]
      refine forall_mem_append.mpr ⟨fun window earlier => ?_, forall_mem_singleton.mpr (le_refl _)⟩
      exact archives.counted window (by simp [isChain, earlier])
    · rw [extended, route_cursor]
      intro window isLast _
      obtain rfl : _ = window := by simpa using isLast
      exact ends

/-! ## Reads and hand-backs of a growing file -/

/-- A read of a growing file skips at the end of the file, fails without a restart, or takes a
    stretch from the cursor's position. -/
theorem Fits.look_cases (fits : Fits inode growing.bytes growing.cursor) (adapter) (path budgets) (moments) :
    (∃ current, growing.outcome adapter path inode budgets moments = .SkippedUnchanged current ∧
      growing.cursor.readByte = growing.bytes.length) ∨
    (∃ error, growing.outcome adapter path inode budgets moments = .Read (.error ⟨error, none⟩)) ∨
    ∃ records length identity descriptor, growing.outcome adapter path inode budgets moments =
        .Read (.ok ⟨records, growing.cursor.readByte, growing.cursor.readByte + length, adapter.wholeFile, identity, none⟩) ∧
      moments.descriptor inode growing.bytes = .ok descriptor ∧
      adapter.readRecords path growing.cursor.readByte budgets descriptor = .ok (records, length) ∧
      identity.inode = inode ∧ identity.fileSize = (growing.bytes ++ moments.grown).length ∧
      descriptor.bytes <+: growing.bytes ++ moments.grown ∧ growing.bytes <+: descriptor.bytes := by
  unfold outcome look
  split
  case h_1 current isCurrent =>
    obtain ⟨isStat, skips⟩ := filter_eq_some_iff.mp isCurrent
    obtain ⟨mtime, -, rfl⟩ := map_eq_some_iff.mp isStat
    refine .inl ⟨_, rfl, ?_⟩
    unfold canSkip at skips
    split at skips
    · cases skips
    · simpa using (of_decide_eq_true skips).2.2.2.2
  case h_2 =>
    refine .inr ?_
    obtain ⟨stat, opened, appended, closed⟩ := moments
    cases opened with
    | error error => exact .inl ⟨error, rfl⟩
    | ok opened =>
      obtain ⟨grown, mtime⟩ := opened
      -- The file has only grown since the cursor saw it, so the read goes on where it was.
      have continuous : check (growing.cursor.seen.map FileIdentity.observed) inode (growing.bytes ++ grown).length
          growing.cursor.readByte = none := by
        have fits := fits.grow grown
        refine check_grown ?_ ?_ fits.read
        all_goals
          intro observed isObserved
          obtain ⟨seen, isSeen, rfl⟩ := map_eq_some_iff.mp isObserved
        · exact (fits.seen seen isSeen).1
        · exact (fits.seen seen isSeen).2
      simp only [Moments.descriptor, Except.map, readSlice, continuous, isSome_none, Bool.false_eq_true,
        if_false, map_none]
      split
      case h_2 error _ => exact .inl ⟨error, rfl⟩
      case h_1 slice isRead =>
        obtain ⟨length, isRecords, isClosed, isSlice⟩ := readOpened_ok isRead
        cases closed with
        | error error => cases isClosed
        | ok closed =>
          have isIdentity := Except.ok.inj isClosed
          refine .inr ⟨slice.records, length, slice.identity, _, by rw [← isSlice], rfl, isRecords, ?_, ?_, ?_, ?_⟩
          · rw [← isIdentity]
          · rw [← isIdentity]
            simp [Moments.grown, Except.toOption]
          · exact ⟨closed.1, by simp [Moments.grown, Except.toOption]⟩
          · exact ⟨grown ++ appended, by simp⟩

section

variable (archives : Archives adapter path inode growing)

include archives

/-- A cursor that stays where it is keeps the windows exact. -/
theorem Archives.stay (fits : Fits inode growing.bytes cursor)
    (same : cursor.readByte = growing.cursor.readByte) : Archives adapter path inode { growing with cursor } :=
  ⟨fits, archives.covers, archives.meets, archives.counted,
    fun window isLast unmoved => same.trans (archives.atEnd window isLast unmoved), archives.held⟩

theorem Archives.readStep (stepped : growing.step adapter path inode limits (.read budgets moments now) = some next) :
    Archives adapter path inode next := by
  have grown := archives.grow moments.grown
  rcases archives.fits.look_cases adapter path budgets moments with
    ⟨current, isOutcome, -⟩ | ⟨error, isOutcome⟩ |
    ⟨records, length, identity, descriptor, isOutcome, -, isRecords, isInode, isSize, ⟨rest, isFront⟩, begins⟩
  · simp only [step, isOutcome, settleRead, route, isEmpty_nil, if_true] at stepped
    exact some.inj stepped ▸ grown
  · simp only [step, isOutcome, settleRead, applyFailedRead] at stepped
    exact some.inj stepped ▸ grown
  · simp only [step, isOutcome, settleRead] at stepped
    obtain rfl := some.inj stepped
    have exact := exact_readRecords isRecords (archives.fits.read.trans begins.length_le)
    replace exact := isFront ▸ exact.grow rest
    have fits : Fits inode (growing.bytes ++ moments.grown) (growing.cursor.applySlice
        ⟨records, growing.cursor.readByte, growing.cursor.readByte + length, adapter.wholeFile, identity, none⟩) := by
      refine ⟨exact.within, grown.fits.committed, fun seen isSeen => ?_⟩
      obtain rfl := some.inj isSeen
      exact ⟨.inl isInode, isSize.le⟩
    by_cases empty : records = []
    · -- Without a record the cursor stays.
      subst empty
      have unmoved : length = 0 := readRecords_nil isRecords
      simp only [route, isEmpty_nil, if_true]
      exact grown.stay fits (by rw [unmoved]; rfl)
    · refine grown.routed fits ?_ (by simp) (by simp [applySlice])
      refine ⟨⟨identity, isInode, ?_⟩, ⟨identity, growing.cursor.readByte, isInode, ?_⟩, empty, rfl, ?_⟩
      all_goals simp only [Window.startByte, Window.endByte, byteRange_markerFrom]
      exact exact

/-- A window that is handed back moves only the cursor, and starts another count. -/
theorem Archives.handBack (stepped : growing.step adapter path inode limits (.handBack index stat) = some next) :
    Archives adapter path inode next := by
  obtain ⟨window, found, stepped⟩ := bind_eq_some_iff.mp stepped
  split at stepped
  case h_2 => exact some.inj stepped ▸ archives
  case h_1 cursor isOk =>
    obtain rfl := some.inj stepped
    obtain ⟨⟨current, rfl⟩, -⟩ := replayFromMarker_ok isOk
    have covers := archives.covers window (mem_append_left _ (mem_of_getElem? found))
    have fits := archives.fits
    refine ⟨⟨?_, fits.committed, fits.seen⟩, archives.covers, archives.meets, ?_, ?_, archives.held⟩
    · exact Nat.max_le.mpr ⟨covers.exact.ordered.trans covers.exact.within, fits.committed⟩
    · exact fun window member => Nat.le_succ_of_le (archives.counted window member)
    · -- Every window was read before this hand-back.
      intro window isLast same
      have := archives.counted window (mem_of_getLast? isLast)
      exact absurd (show window.last = growing.handBacks + 1 from same) (by omega)

theorem Archives.step
    (stepped : growing.step adapter path inode limits event = some next) : Archives adapter path inode next := by
  cases event with
  | grow more => exact some.inj stepped ▸ archives.grow more
  | read budgets moments now => exact archives.readStep stepped
  | flush now => exact some.inj stepped ▸ archives.flush now
  | handBack index stat => exact archives.handBack stepped

end

/-- In line mode a read without a record met no newline. -/
theorem Fits.no_newline (fits : Fits inode growing.bytes growing.cursor) (isLines : adapter.wholeFile = false)
    {budgets : Budgets} (someRecords : 0 < budgets.maxRecords) (someBytes : 0 < budgets.maxBytes)
    (answered : (growing.cursor.settleRead adapter path growing.cursor.readByte
      (growing.outcome adapter path inode budgets moments)).2 = .ok read) (empty : read.records = []) :
    newline ∉ (growing.lookedAt adapter path inode budgets moments).drop growing.cursor.readByte := by
  rcases fits.look_cases adapter path budgets moments with
    ⟨current, isOutcome, atEnd⟩ | ⟨error, isOutcome⟩ | ⟨records, length, identity, descriptor, isOutcome, isOpen, isRecords, -⟩
  · simp [lookedAt, isOutcome, atEnd]
  · simp [isOutcome, settleRead] at answered
  · have isRead : read.records = records := by
      rw [isOutcome] at answered
      exact (congrArg ReadResult.records (Except.ok.inj answered)).symm
    rw [← isRead, empty] at isRecords
    obtain ⟨room, isRoom⟩ := Nat.exists_eq_add_one.mpr someRecords
    simp only [readRecords, isLines, Bool.false_eq_true, if_false, isRoom] at isRecords
    simpa [lookedAt, isOutcome, isOpen] using newline_notMem_of_readLines isRecords someBytes

end Steps

/-- An archived object is exactly the covered bytes of its source.  For every run of a growing
    file or spool: each window's object is the bytes between its markers; windows without a
    hand-back between them meet; a line-mode window ends right after a newline; and a line-mode
    read that answers without a record met no newline. -/
theorem windows_exact {adapter : ByteAdapter} {path : String} {inode : Option Nat} {limits : BatchLimits}
    {bytes : List UInt8} {cursor : Cursor} {growing : Growing} (fits : Fits inode bytes cursor)
    (reached : Reachable (fun before event after => Growing.step adapter path inode limits before event = some after)
      { bytes, cursor } growing) :
    (∀ window ∈ growing.windows, ∀ sealedAt,
      (batchOf window.result sealedAt).toRecordBytes = bytesBetween growing.bytes window.startByte window.endByte) ∧
    growing.windows.IsChain (fun window next => window.last = next.first → window.endByte = next.startByte) ∧
    (adapter.wholeFile = false → ∀ window ∈ growing.windows, growing.bytes[window.endByte - 1]? = some newline) ∧
    (adapter.wholeFile = false → ∀ budgets moments read, 0 < budgets.maxRecords → 0 < budgets.maxBytes →
      (growing.cursor.settleRead adapter path growing.cursor.readByte
        (growing.outcome adapter path inode budgets moments)).2 = .ok read → read.records = [] →
      newline ∉ (growing.lookedAt adapter path inode budgets moments).drop growing.cursor.readByte) := by
  have archives : Archives adapter path inode growing := by
    refine reached.invariant (Archives adapter path inode) ?_ fun _ _ _ _ archives stepped => archives.step stepped
    exact ⟨fits, by simp [Growing.chain, Growing.drained], by simp [Growing.chain, Growing.drained],
      by simp [Growing.chain, Growing.drained], by simp [Growing.chain, Growing.drained], by simp⟩
  have covers (window : Window) (member : window ∈ growing.windows) := archives.covers window (List.mem_append_left _ member)
  refine ⟨fun window member sealedAt => ?_, ?_, fun isLines window member => ?_,
    fun isLines budgets moments read someRecords someBytes answered empty =>
      archives.fits.no_newline isLines someRecords someBytes answered empty⟩
  · have exact := (covers window member).exact
    rw [← (covers window member).framing] at exact
    replace exact : Exact (batchOf window.result sealedAt).verbatim growing.bytes
      (batchOf window.result sealedAt).records window.startByte window.endByte := exact
    exact exact.toRecordBytes
  · exact (List.isChain_append.mp archives.meets).1
  · have exact := (covers window member).exact
    rw [isLines] at exact
    exact exact.newline_before (covers window member).nonempty

/-- The file does not change while it is read. -/
def unchanged : Moments := ⟨some "now", .ok ([], "now"), [], .ok ([], "now")⟩

/-- `a` and `bb` are read one by one into a window; `c` gets its newline and is read into another. -/
def twoWindows : List GrowingEvent :=
  [.read ⟨1, 64⟩ unchanged 0, .read ⟨1, 64⟩ unchanged 0, .read ⟨1, 64⟩ unchanged 0, .flush 0, .grow [10],
   .read ⟨1, 64⟩ unchanged 1, .flush 1]

theorem two_windows_exact : ∃ growing ∈ twoWindows.foldlM (Growing.step .spool "app.log" (some 7) ⟨9, 99, 9⟩)
        { bytes := [97, 10, 98, 98, 10, 99], cursor := {} },
      growing.windows.map (fun window => (window.startByte, window.endByte)) = [(0, 5), (5, 7)] ∧
      ∀ window ∈ growing.windows,
        (batchOf window.result 0).toRecordBytes = bytesBetween growing.bytes window.startByte window.endByte := by
  have run : ∃ growing ∈ twoWindows.foldlM (Growing.step .spool "app.log" (some 7) ⟨9, 99, 9⟩)
        { bytes := [97, 10, 98, 98, 10, 99], cursor := {} },
      growing.windows.map (fun window => (window.startByte, window.endByte)) = [(0, 5), (5, 7)] :=
    ⟨_, rfl, by decide⟩
  obtain ⟨growing, ran, isWindows⟩ := run
  have fits : Fits (some 7) [97, 10, 98, 98, 10, 99] {} := ⟨by decide, by decide, by simp⟩
  obtain ⟨exact, -⟩ := windows_exact fits (Reachable.refl.foldlM twoWindows ran)
  exact ⟨growing, ran, isWindows, fun window member => exact window member 0⟩

end VtopEngine.Cli
