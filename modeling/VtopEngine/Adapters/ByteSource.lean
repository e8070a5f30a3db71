import VtopEngine.Adapters.Continuity
import VtopEngine.Core.Batch

/-! # The byte-offset adapters

The file adapter and the syslog-spool adapter read append-only files, keep a
cursor per path and move it when a batch is committed or handed back
(`file_source.rs`, `syslog_spool_source.rs`).  They share one shape; where they
differ the function takes the adapter, or each has its own.

What the file system answers is an argument: a `stat` of the path, and for a read
the descriptor it goes through, with the bytes the read saw.

* `readSlice`, `Cursor.look`, `Cursor.settleRead` — one read of a path.
* `Cursor.commit`, `commitProgress` — a batch was committed.
* `replayFromMarker` — a range is handed back.
-/

namespace VtopEngine.Adapters

open VtopEngine.Core (ProgressMarker newline)

/-- The two adapters, with the settings of the file adapter. -/
inductive ByteAdapter
  | file (wholeFile deleteAfterCommit : Bool)
  | spool
  deriving DecidableEq, Repr

def ByteAdapter.wholeFile : ByteAdapter → Bool
  | .file wholeFile _ => wholeFile
  | .spool => false

/-- Inode, size and mtime, as a `stat` or `fstat` reports them.  An unknown mtime is empty. -/
structure FileIdentity where
  inode : Option Nat
  fileSize : Nat
  mtime : String
  deriving DecidableEq, Repr

def FileIdentity.observed (identity : FileIdentity) : Observed := ⟨identity.inode, identity.fileSize⟩

/-- The read and commit position of one path. -/
structure Cursor where
  readByte : Nat := 0
  committedByte : Nat := 0
  seen : Option FileIdentity := none
  generations : Generations := {}
  rewoundFor : Option (Nat × Nat) := none
  deriving DecidableEq, Repr

/-- The limits of one read. -/
structure Budgets where
  (maxRecords maxBytes : Nat)
  deriving DecidableEq, Repr

/-- What one read of a source hands to the engine. -/
structure ReadResult where
  records : List (List UInt8)
  (progressStart progressEnd : ProgressMarker)
  verbatim : Bool
  deriving DecidableEq, Repr

/-! ## Markers -/

/-- The file name of a spool, or its path if it has none. -/
def spoolId (path : String) : String :=
  match ((path.splitOn "/").filter fun part => part ≠ "" ∧ part ≠ ".").getLast? with
  | some name => if name = ".." then path else name
  | none => path

/-- The marker of a range, under the identity of the file whose bytes were read. -/
def ByteAdapter.markerFrom (adapter : ByteAdapter) (path : String) (identity : FileIdentity) (start finish : Nat) :
    ProgressMarker :=
  match adapter with
  | .file .. => .File path identity.inode start finish identity.fileSize identity.mtime
  | .spool => .SyslogSpool (spoolId path) path identity.inode start finish none none

/-- The byte range of a marker. -/
def byteRange : ProgressMarker → Nat × Nat
  | .File _ _ start finish _ _ | .SyslogSpool _ _ _ start finish _ _ => (start, finish)
  | .Kafka .. => (0, 0)

/-- The inode a marker was read from, where it records one. -/
def markerInode : ProgressMarker → Option Nat
  | .File _ inode .. | .SyslogSpool _ _ inode .. => inode
  | .Kafka .. => none

@[simp] theorem byteRange_markerFrom (adapter : ByteAdapter) (path identity start finish) :
    byteRange (adapter.markerFrom path identity start finish) = (start, finish) := by
  cases adapter <;> rfl

/-! ## Reading -/

/-- At most `limit` bytes, through the first newline among them. -/
def readUntil : Nat → List UInt8 → List UInt8
  | 0, _ | _, [] => []
  | limit + 1, byte :: bytes => if byte = newline then [byte] else byte :: readUntil limit bytes

/-- The line loop: `room` records may still be taken.  A line without its newline is left for
    a later read; the first record alone over the byte budget is an error. -/
def readLines (path : String) (maxBytes : Nat) :
    Nat → List (List UInt8) → Nat → List UInt8 → Except String (List (List UInt8) × Nat)
  | 0, records, bytesRead, _ => .ok (records, bytesRead)
  | room + 1, records, bytesRead, unread =>
    if maxBytes ≤ bytesRead then .ok (records, bytesRead) else
      let remaining := maxBytes - bytesRead
      let line := readUntil (remaining + 1) unread
      if line.length = 0 then .ok (records, bytesRead)
      else if remaining < line.length then
        if records.isEmpty then .error s!"record in {path} exceeds max_bytes={maxBytes}"
        else .ok (records, bytesRead)
      else if line.getLast? ≠ some newline then .ok (records, bytesRead)
      else readLines path maxBytes room (records ++ [line.dropLast]) (bytesRead + line.length)
        (unread.drop line.length)

/-- An open descriptor: what it was when opened, the bytes the read finds in it, and what it is
    after the read, unless the read fails. -/
structure Descriptor where
  opened : FileIdentity
  bytes : List UInt8
  closed : Except String FileIdentity

structure SliceRead where
  records : List (List UInt8)
  (start finish : Nat)
  verbatim : Bool
  identity : FileIdentity
  discontinuity : Option Discontinuity
  deriving DecidableEq, Repr

/-- A failed read, and the restart it had already found to be due. -/
structure SliceError where
  error : String
  restart : Option (Discontinuity × FileIdentity)
  deriving DecidableEq, Repr

/-- The whole remaining file as one record. -/
def readWhole (path : String) (start maxBytes fsize : Nat) (bytes : List UInt8) : Except String (List (List UInt8) × Nat) :=
  let remaining := fsize - start
  if maxBytes < remaining then
    .error s!"whole-file record in {path} is {remaining} bytes, exceeding max_bytes={maxBytes}"
  else
    let data := (bytes.drop start).take (maxBytes + 1)
    if maxBytes < data.length then
      .error s!"whole-file record in {path} grew beyond max_bytes={maxBytes} while being read"
    else .ok (if data.isEmpty then [] else [data], data.length)

/-- The records of a read from `start`, and how many bytes they take. -/
def ByteAdapter.readRecords (adapter : ByteAdapter) (path : String) (start : Nat) (budgets : Budgets)
    (descriptor : Descriptor) : Except String (List (List UInt8) × Nat) :=
  if adapter.wholeFile then readWhole path start budgets.maxBytes descriptor.opened.fileSize descriptor.bytes
  else readLines path budgets.maxBytes budgets.maxRecords [] 0 (descriptor.bytes.drop start)

def ByteAdapter.readOpened (adapter : ByteAdapter) (path : String) (start : Nat) (budgets : Budgets)
    (descriptor : Descriptor) (discontinuity : Option Discontinuity) : Except String SliceRead :=
  match adapter.readRecords path start budgets descriptor, descriptor.closed with
  | .error error, _ | .ok _, .error error => .error error
  | .ok (records, length), .ok identity => .ok ⟨records, start, start + length, adapter.wholeFile, identity, discontinuity⟩

/-- Read one path from `start`.  The descriptor is judged before any byte is read, and a failure
    after that still reports what the judgement found. -/
def ByteAdapter.readSlice (adapter : ByteAdapter) (path : String) (start : Nat) (budgets : Budgets)
    (lastSeen : Option Observed) (descriptor : Except String Descriptor) : Except SliceError SliceRead :=
  match descriptor with
  | .error error => .error ⟨error, none⟩
  | .ok descriptor =>
    let discontinuity := check lastSeen descriptor.opened.inode descriptor.opened.fileSize start
    let start := if discontinuity.isSome then 0 else start
    match adapter.readOpened path start budgets descriptor discontinuity with
    | .ok slice => .ok slice
    | .error error => .error ⟨error, discontinuity.map fun why => (why, descriptor.opened)⟩

namespace Cursor

/-- An unchanged, fully read file is not opened.  An unknown mtime never matches. -/
def canSkip (cursor : Cursor) (current : FileIdentity) : Bool :=
  match cursor.seen with
  | none => false
  | some seen =>
    seen.inode = current.inode ∧ seen.fileSize = current.fileSize ∧ seen.mtime ≠ "" ∧
      seen.mtime = current.mtime ∧ cursor.readByte = current.fileSize

end Cursor

inductive PassOutcome
  | SkippedUnchanged (current : FileIdentity)
  | Read (slice : Except SliceError SliceRead)

/-- What a read finds, by the cursor as it was when the read began. -/
def Cursor.look (cursor : Cursor) (adapter : ByteAdapter) (path : String) (budgets : Budgets)
    (stat : Option FileIdentity) (descriptor : Except String Descriptor) : PassOutcome :=
  match stat.filter cursor.canSkip with
  | some current => .SkippedUnchanged current
  | none => .Read (adapter.readSlice path cursor.readByte budgets (cursor.seen.map FileIdentity.observed) descriptor)

/-- The file under the cursor was replaced or truncated: nothing of the new content is committed. -/
def Cursor.restarted (cursor : Cursor) : Cursor :=
  { cursor with committedByte := 0, generations := cursor.generations.discontinuity }

/-- Fold a completed read into the cursor. -/
def Cursor.applySlice (cursor : Cursor) (slice : SliceRead) : Cursor :=
  let cursor := if slice.discontinuity.isSome then cursor.restarted else cursor
  { cursor with
    generations := cursor.generations.issue slice.start slice.finish
    readByte := slice.finish
    seen := some slice.identity }

/-- A read failed; a discontinuity it had found restarts the cursor all the same. -/
def Cursor.applyFailedRead (cursor : Cursor) (failed : SliceError) : Cursor :=
  match failed.restart with
  | some (_, opened) => { cursor.restarted with readByte := 0, seen := some opened }
  | none => cursor

/-- The cursor after a read that began at `start`, and the answer. -/
def Cursor.settleRead (cursor : Cursor) (adapter : ByteAdapter) (path : String) (start : Nat) :
    PassOutcome → Cursor × Except String ReadResult
  | .SkippedUnchanged current =>
    let here := adapter.markerFrom path current start start
    (cursor, .ok ⟨[], here, here, false⟩)
  | .Read (.ok slice) =>
    (cursor.applySlice slice, .ok ⟨slice.records, adapter.markerFrom path slice.identity slice.start slice.start,
        adapter.markerFrom path slice.identity slice.start slice.finish, slice.verbatim⟩)
  | .Read (.error failed) => (cursor.applyFailedRead failed, .error failed.error)

/-! ## Commit and hand-back -/

/-- The cursor's part of a commit: is the range still of the file at the path, and where is the
    cursor then.  `seenSize` is the length the marker records. -/
def Cursor.commit (cursor : Cursor) (markerInode : Option Nat) (startByte endByte seenSize : Nat)
    (stat : Option FileIdentity) : Bool × Cursor :=
  let currentInode := stat.bind FileIdentity.inode
  let currentSize := (stat.map FileIdentity.fileSize).getD 0
  let (generation, generations) := cursor.generations.settle startByte endByte
  let cursor := { cursor with generations }
  if generation ≠ .Stale ∧ commitIsCurrent markerInode currentInode currentSize endByte then
    let cursor := { cursor with committedByte := endByte }
    (true,
      if cursor.readByte < endByte then { cursor with readByte := endByte }
      else if generation = .Unknown ∧ endByte < cursor.readByte then
        -- No record in this process: a head above the range came from the startup seed.
        { cursor with readByte := endByte, seen := some ⟨markerInode.or currentInode, seenSize, ""⟩ }
      else cursor)
  else (false, cursor)

/-- What the file system answers to a commit: the path's `stat`, and for the delete a second one
    and whether the file went. -/
structure CommitAnswers where
  stat : Option FileIdentity
  statForDelete : Option FileIdentity := none
  removed : Bool := false
  deriving DecidableEq, Repr

/-- The file is deleted only while it is the file that was read, through its last byte. -/
def deletable (markerInode : Option Nat) (endByte : Nat) (stat : Option FileIdentity) : Bool :=
  let identityOk := match markerInode, stat.bind FileIdentity.inode with
    | some marker, some current => decide (marker = current)
    | none, none => true
    | _, _ => false
  identityOk && decide ((stat.map FileIdentity.fileSize).getD 0 ≤ endByte)

/-- A batch that ends at the marker was committed.  A deleted file takes its cursor with it. -/
def ByteAdapter.commitProgress (adapter : ByteAdapter) (cursor : Cursor) (marker : ProgressMarker)
    (answers : CommitAnswers) : Except String (Option Cursor) :=
  match adapter, marker with
  | .file _ deleteAfterCommit, .File _ inode startByte endByte fileSize _ =>
    let committed := cursor.commit inode startByte endByte fileSize answers.stat
    let deleted := deleteAfterCommit && committed.1 && deletable inode endByte answers.statForDelete && answers.removed
    .ok (if deleted then none else some committed.2)
  | .file .., _ => .error "file adapter given non-file marker"
  | .spool, .SyslogSpool _ _ inode startByte endByte _ _ =>
    .ok (some (cursor.commit inode startByte endByte 0 answers.stat).2)
  | .spool, _ => .error "spool adapter given non-spool marker"

/-- The read head is put at a position; the bytes above it are handed out again. -/
def Cursor.rewound (cursor : Cursor) (position : Nat) (currentInode : Option Nat) : Cursor :=
  { cursor with
    readByte := position
    rewoundFor := currentInode.map (·, position)
    generations := cursor.generations.reissueFrom position }

/-- The file adapter hands a range back by its path's `stat`, which may fail. -/
def fileReplay (cursor : Cursor) (path : String) (markerInode : Option Nat) (startByte sizeWhenRead : Nat)
    (stat : Option FileIdentity) : Except String Cursor :=
  let currentInode := stat.bind FileIdentity.inode
  let currentSize := (stat.map FileIdentity.fileSize).getD 0
  if markerInode.isSome ∧ currentInode.isSome ∧ currentInode ≠ markerInode then
    .error s!"cannot replay file {path}: file identity changed (rotation/replacement)"
  else if currentSize < startByte ∨ currentSize < sizeWhenRead then
    .error s!"cannot replay file {path} at byte {startByte}: file length is {currentSize} (truncated; it was {sizeWhenRead} when this range was read)"
  else .ok (cursor.rewound (max startByte cursor.committedByte) currentInode)

/-- The spool adapter opens the spool; its markers record no length. -/
def spoolReplay (cursor : Cursor) (path : String) (markerInode : Option Nat) (startByte : Nat)
    (stat : Except String FileIdentity) : Except String Cursor :=
  match stat with
  | .error error => .error error
  | .ok current =>
    let replayByte := max startByte cursor.committedByte
    let length := current.fileSize
    if markerInode.isSome ∧ markerInode ≠ current.inode then
      .error s!"cannot replay syslog spool {path}: file identity changed (rotation/replacement)"
    else if length < replayByte then
      .error s!"cannot replay syslog spool {path} at byte {replayByte}: file length is {length} (truncated)"
    else .ok (cursor.rewound replayByte current.inode)

/-- A range that starts at the marker is handed back to be read again. -/
def ByteAdapter.replayFromMarker (adapter : ByteAdapter) (cursor : Cursor) (marker : ProgressMarker)
    (stat : Except String FileIdentity) : Except String Cursor :=
  match adapter, marker with
  | .file .., .File path inode startByte _ fileSize _ => fileReplay cursor path inode startByte fileSize stat.toOption
  | .file .., _ => .error "file adapter given non-file marker"
  | .spool, .SyslogSpool _ path inode startByte _ _ _ => spoolReplay cursor path inode startByte stat
  | .spool, _ => .error "spool adapter given non-spool marker"

/-! ## What a read finds -/

/-- Lines, each under its newline. -/
def framed (lines : List (List UInt8)) : List UInt8 := lines.flatMap (· ++ [newline])

/-- The bytes taken run through the first newline, or hold none and are all there are or all that may be taken. -/
theorem readUntil_cases (limit bytes) :
    (∃ line rest, bytes = line ++ newline :: rest ∧ newline ∉ line ∧ readUntil limit bytes = line ++ [newline]) ∨
    newline ∉ readUntil limit bytes ∧ (readUntil limit bytes = bytes ∨ (readUntil limit bytes).length = limit) := by
  induction limit, bytes using readUntil.induct with
  | case1 bytes => exact .inr (by simp [readUntil])
  | case2 limit notZero => exact .inr (by cases limit <;> simp [readUntil])
  | case3 limit rest => exact .inl ⟨[], rest, by simp [readUntil]⟩
  | case4 limit byte bytes notNewline ih =>
    simp only [readUntil, if_neg notNewline]
    rcases ih with ⟨line, rest, rfl, notMem, taken⟩ | ⟨notMem, ended⟩
    · exact .inl ⟨byte :: line, rest, by simp [taken, notMem, Ne.symm notNewline]⟩
    · refine .inr ⟨by simp [notMem, Ne.symm notNewline], ?_⟩
      rcases ended with all | full
      · exact .inl (by rw [all])
      · exact .inr (by simp [full])

/-- The line loop takes whole lines off the front. -/
theorem readLines_ok (isOk : readLines path maxBytes room records bytesRead unread = .ok (taken, total)) :
    ∃ lines, taken = records ++ lines ∧ total = bytesRead + (framed lines).length ∧ framed lines <+: unread ∧
      ∀ line ∈ lines, newline ∉ line := by
  induction room generalizing records bytesRead unread with
  | zero =>
    cases isOk
    exact ⟨[], by simp [framed]⟩
  | succ room ih =>
    -- Every way out of the loop keeps what was taken before.
    have stops (same : Except.ok (records, bytesRead) = (.ok (taken, total) : Except String _)) :
        ∃ lines, taken = records ++ lines ∧ total = bytesRead + (framed lines).length ∧ framed lines <+: unread ∧
          ∀ line ∈ lines, newline ∉ line := by
      cases same
      exact ⟨[], by simp [framed]⟩
    simp only [readLines] at isOk
    split at isOk
    case isTrue => exact stops isOk
    split at isOk
    case isTrue => exact stops isOk
    split at isOk
    case isTrue =>
      split at isOk
      · cases isOk
      · exact stops isOk
    split at isOk
    case isTrue => exact stops isOk
    case isFalse complete =>
      rw [Decidable.not_not] at complete
      rcases readUntil_cases (maxBytes - bytesRead + 1) unread with ⟨line, rest, rfl, notMem, isLine⟩ | ⟨notMem, -⟩
      · rw [isLine] at isOk
        obtain ⟨lines, rfl, rfl, isFramed, noNewlines⟩ := ih isOk
        refine ⟨line :: lines, by simp, ?_, ?_, ?_⟩
        · simp only [framed, List.flatMap_cons, List.length_append]
          omega
        · rw [List.append_cons line newline rest, List.drop_left] at isFramed
          simpa [framed] using isFramed
        · simpa using ⟨notMem, noNewlines⟩
      · exact absurd (List.mem_of_getLast? complete) notMem

/-- With room for a line, the loop answers without one only where there is no newline. -/
theorem newline_notMem_of_readLines
    (isOk : readLines path maxBytes (room + 1) [] 0 unread = .ok ([], total)) (positive : 0 < maxBytes) :
    newline ∉ unread := by
  simp only [readLines] at isOk
  rw [if_neg (by omega)] at isOk
  rcases readUntil_cases (maxBytes - 0 + 1) unread with ⟨line, rest, rfl, notMem, isLine⟩ | ⟨notMem, ended⟩
  · rw [isLine] at isOk
    split at isOk
    case isTrue empty => simp at empty
    split at isOk
    case isTrue => simp at isOk
    rw [if_neg (by simp)] at isOk
    obtain ⟨lines, isTaken, -⟩ := readLines_ok isOk
    simp at isTaken
  · split at isOk
    case isTrue empty =>
      rcases ended with all | full
      · exact all ▸ notMem
      · omega
    split at isOk
    case isTrue => simp at isOk
    rcases ended with all | full
    · exact all ▸ notMem
    · omega

/-! ## What each operation does to the positions -/

variable {adapter : ByteAdapter}

theorem ByteAdapter.readOpened_ok (isOk : adapter.readOpened path start budgets descriptor discontinuity = .ok slice) :
    ∃ length, adapter.readRecords path start budgets descriptor = .ok (slice.records, length) ∧
      descriptor.closed = .ok slice.identity ∧
      slice = ⟨slice.records, start, start + length, adapter.wholeFile, slice.identity, discontinuity⟩ := by
  unfold readOpened at isOk
  split at isOk <;> cases isOk
  exact ⟨_, ‹_›, ‹_›, rfl⟩

/-- A read without records took no bytes. -/
theorem ByteAdapter.readRecords_nil
    (isOk : adapter.readRecords path start budgets descriptor = .ok ([], length)) : length = 0 := by
  unfold readRecords at isOk
  split at isOk
  case isTrue =>
    unfold readWhole at isOk
    simp only at isOk
    split at isOk
    · cases isOk
    · split at isOk
      · cases isOk
      · obtain ⟨isData, rfl⟩ := Prod.mk.inj (Except.ok.inj isOk)
        split at isData
        case isTrue isEmpty => rw [List.isEmpty_iff.mp isEmpty, List.length_nil]
        case isFalse => cases isData
  case isFalse =>
    obtain ⟨lines, isNil, rfl, -⟩ := readLines_ok isOk
    obtain rfl : lines = [] := by simpa using isNil.symm
    rfl

/-- A read that is answered began at the position, or at the first byte of other content. -/
theorem ByteAdapter.readSlice_ok {descriptor} (isOk : adapter.readSlice path start budgets lastSeen descriptor = .ok slice) :
    ∃ opened, descriptor = .ok opened ∧
      slice.discontinuity = check lastSeen opened.opened.inode opened.opened.fileSize start ∧
      slice.start = (if slice.discontinuity.isSome then 0 else start) ∧
      adapter.readOpened path slice.start budgets opened slice.discontinuity = .ok slice := by
  unfold readSlice at isOk
  split at isOk
  case h_1 => cases isOk
  case h_2 opened =>
    simp only at isOk
    split at isOk <;> cases isOk
    rename_i isRead
    obtain ⟨length, -, -, isSlice⟩ := readOpened_ok isRead
    have isStart := congrArg SliceRead.start isSlice
    have isFound := congrArg SliceRead.discontinuity isSlice
    simp only at isStart isFound
    refine ⟨opened, rfl, isFound, isFound ▸ isStart, ?_⟩
    rwa [isStart, isFound]

theorem ByteAdapter.commitProgress_ok {answers : CommitAnswers}
    (isOk : adapter.commitProgress cursor marker answers = .ok after) : after = none ∨ ∃ seenSize, after =
      some (cursor.commit (markerInode marker) (byteRange marker).1 (byteRange marker).2 seenSize answers.stat).2 := by
  unfold commitProgress at isOk
  split at isOk
  case h_1 =>
    obtain rfl := Except.ok.inj isOk
    exact (ite_eq_or_eq _ _ _).imp id fun kept => ⟨_, kept⟩
  case h_3 =>
    obtain rfl := Except.ok.inj isOk
    exact .inr ⟨_, rfl⟩
  all_goals cases isOk

/-- A commit moves the cursor only for a range that is not stale and describes the file at the path. -/
theorem Cursor.commit_cases (cursor : Cursor) (markerInode : Option Nat) (startByte endByte seenSize : Nat)
    (stat : Option FileIdentity) :
    let settled := (cursor.generations.settle startByte endByte).1
    let after := (cursor.commit markerInode startByte endByte seenSize stat).2
    after.generations = (cursor.generations.settle startByte endByte).2 ∧
    (after.readByte = cursor.readByte ∧ after.committedByte = cursor.committedByte ∧ after.seen = cursor.seen ∨
      settled ≠ .Stale ∧
      commitIsCurrent markerInode (stat.bind FileIdentity.inode) ((stat.map FileIdentity.fileSize).getD 0) endByte = true ∧
      after.committedByte = endByte ∧
      (after.readByte = endByte ∨ endByte ≤ cursor.readByte ∧ after.readByte = cursor.readByte)) := by
  simp only [commit]
  split
  case isFalse => exact ⟨rfl, .inl ⟨rfl, rfl, rfl⟩⟩
  case isTrue current =>
    simp only at current ⊢
    split
    case isTrue => exact ⟨rfl, .inr ⟨current.1, current.2, rfl, .inl rfl⟩⟩
    case isFalse notBelow =>
      split
      case isTrue => exact ⟨rfl, .inr ⟨current.1, current.2, rfl, .inl rfl⟩⟩
      case isFalse => exact ⟨rfl, .inr ⟨current.1, current.2, rfl, .inr ⟨by simpa using notBelow, rfl⟩⟩⟩

/-- A file passes for the one a marker was read from: its inode is not another, and it is as long as the marker needs it
to be. -/
def FileIdentity.passesFor (file : FileIdentity) (marker : ProgressMarker) (length : Nat) : Bool :=
  (markerInode marker = none ∨ file.inode = none ∨ file.inode = markerInode marker) ∧ length ≤ file.fileSize

/-- A commit is taken of a file that passes for the one it was read from. -/
theorem commitIsCurrent_passes {stat : Option FileIdentity} (isCurrent : commitIsCurrent (markerInode marker)
      (stat.bind FileIdentity.inode) ((stat.map FileIdentity.fileSize).getD 0) finish = true) :
    finish = 0 ∨ ∃ file ∈ stat, file.passesFor marker finish = true := by
  unfold commitIsCurrent at isCurrent
  cases stat with
  | none => cases isMarker : markerInode marker <;> simp_all
  | some file =>
    refine .inr ⟨file, rfl, ?_⟩
    cases isMarker : markerInode marker <;> cases isFile : file.inode <;> simp_all [FileIdentity.passesFor]

/-- A range is handed back at its start, or at the committed point above it, to a file that passes for its own. -/
theorem ByteAdapter.replayFromMarker_ok (isOk : adapter.replayFromMarker cursor marker stat = .ok after) :
    (∃ inode, after = cursor.rewound (max (byteRange marker).1 cursor.committedByte) inode)
      ∧ ((byteRange marker).1 = 0 ∨ ∃ file ∈ stat.toOption, file.passesFor marker (byteRange marker).1 = true) := by
  unfold replayFromMarker at isOk
  split at isOk
  case h_1 path markerInode startByte _ fileSize _ =>
    unfold fileReplay at isOk
    simp only at isOk
    split at isOk
    · cases isOk
    case isFalse sameFile =>
      split at isOk <;> cases isOk
      refine ⟨⟨_, rfl⟩, ?_⟩
      cases stat with
      | error problem => simp_all [byteRange, Except.toOption]
      | ok file =>
        refine .inr ⟨file, rfl, ?_⟩
        cases markerInode <;> cases isFile : file.inode <;>
          simp_all [FileIdentity.passesFor, byteRange, Adapters.markerInode, Except.toOption]
  case h_3 markerInode _ _ _ _ =>
    unfold spoolReplay at isOk
    split at isOk
    · cases isOk
    case h_2 file =>
      simp only at isOk
      split at isOk
      · cases isOk
      case isFalse sameFile =>
        split at isOk <;> cases isOk
        case isFalse longEnough =>
          refine ⟨⟨_, rfl⟩, .inr ⟨file, rfl, ?_⟩⟩
          have long := le_trans (le_max_left _ _) (not_lt.mp longEnough)
          cases markerInode <;> simp_all [FileIdentity.passesFor, byteRange, Adapters.markerInode]
  all_goals cases isOk

end VtopEngine.Adapters
