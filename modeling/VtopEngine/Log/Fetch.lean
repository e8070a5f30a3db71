import Mathlib.Order.Bounds.Basic
import VtopEngine.Log.SegmentSet

/-! # Reading a range's log

Fetching from the segment files of a log (`segment.rs`, `segment_set.rs`): a read seeks by
the sparse index of the segment that holds the offset, skips the frames below it, and goes
on from segment to segment until a budget or the high-water mark stops it.

* `readFrames`, `fetchFromFile` — one segment file.
* `SegmentSet.fetchThrough` — the loop over segments.
* `fetchThrough_reads` — a fetch answers with the log's own records, from the offset asked
  for to the next offset it names, and goes on until a budget or the mark stops it.
* `fetchThrough_layout` — how the log is split into segments does not show.
-/

namespace VtopEngine.Log

open SegmentSet List

/-! ## Segment files -/

/-- The bytes around a record in its frame, the bytes of the file's header, and how far apart the index entries of the
segment at a base offset are. -/
structure Framing where
  (overhead headerLen : Nat)
  indexStride : Nat → Nat
  framed : 0 < overhead

def Framing.encodedLen (framing : Framing) (record : LogRecord) : Nat :=
  framing.overhead + record.key.length + record.value.length

structure IndexEntry where
  (offset position : Nat)
  deriving DecidableEq, Repr

structure FetchedRecord where
  offset : Nat
  record : LogRecord
  deriving DecidableEq, Repr

structure FetchBatch where
  records : List FetchedRecord
  (encodedBytes nextOffset highWatermark : Nat)
  deriving DecidableEq, Repr

/-- The errors of the log that reads answer with. -/
inductive FetchError
  | OffsetBelowRange (requested earliest : Nat)
  | InvalidCursor (message : String)
  | Corrupt (position : Nat) (reason : String)
  deriving DecidableEq, Repr

def FetchError.text : FetchError → String
  | .OffsetBelowRange requested earliest =>
    s!"offset {requested} is below this range's earliest offset {earliest}; the records before {earliest} were reclaimed by retention"
  | .InvalidCursor message => s!"invalid segment cursor: {message}"
  | .Corrupt position reason => s!"corrupt segment at byte {position}: {reason}"

/-- A segment file: the frame at index `k` carries the relative offset `k`. -/
structure SegmentFile where
  baseOffset : Nat
  frames : List LogRecord

/-- The sparse index, as appending and scanning build it. -/
def scanIndex (framing : Framing) (baseOffset : Nat) : Nat → Nat → List LogRecord → List IndexEntry
  | _, _, [] => []
  | relative, position, record :: frames =>
    let rest := scanIndex framing baseOffset (relative + 1) (position + framing.encodedLen record) frames
    if relative % framing.indexStride baseOffset = 0 then ⟨baseOffset + relative, position⟩ :: rest else rest

/-- The frames from a byte position on, with their relative offsets. -/
def framesFrom (framing : Framing) (wanted : Nat) : Nat → Nat → List LogRecord → List (LogRecord × Nat)
  | _, _, [] => []
  | relative, position, record :: frames =>
    if position = wanted then (record :: frames).zipIdx relative
    else framesFrom framing wanted (relative + 1) (position + framing.encodedLen record) frames

/-- What a read of one file is asked for. -/
structure ReadRequest where
  (baseOffset highWatermark requested maxBytes maxRecords : Nat)

/-- The loop of a read: skip below the offset asked for, and collect until a budget or the mark stops it. -/
def readFrames (framing : Framing) (request : ReadRequest) : List (LogRecord × Nat) → Nat → Nat → List FetchedRecord → Nat →
    Except FetchError FetchBatch
  | [], offset, position, records, encodedBytes =>
    if offset < request.highWatermark ∧ records.length < request.maxRecords then
      .error (.Corrupt position "record disappeared below the high watermark")
    else .ok ⟨records, encodedBytes, offset, request.highWatermark⟩
  | (record, relative) :: frames, offset, position, records, encodedBytes =>
    if offset < request.highWatermark ∧ records.length < request.maxRecords then
      let encodedLen := framing.encodedLen record
      let expected := offset - request.baseOffset
      if relative ≠ expected then
        .error (.Corrupt (position + encodedLen) s!"record carries relative offset {relative}, expected {expected}")
      else if offset < request.requested then
        readFrames framing request frames (offset + 1) (position + encodedLen) records encodedBytes
      else if request.maxBytes < encodedBytes + encodedLen then
        .ok ⟨records, encodedBytes, offset, request.highWatermark⟩
      else
        readFrames framing request frames (offset + 1) (position + encodedLen) (records ++ [⟨offset, record⟩])
          (encodedBytes + encodedLen)
    else .ok ⟨records, encodedBytes, offset, request.highWatermark⟩

def fetchFromFile (framing : Framing) (file : SegmentFile) (highWatermark startOffset maxBytes maxRecords : Nat) :
    Except FetchError FetchBatch :=
  if maxBytes = 0 ∨ maxRecords = 0 ∨ highWatermark ≤ startOffset then
    .ok ⟨[], 0, min (max startOffset file.baseOffset) highWatermark, highWatermark⟩
  else
    let requested := max startOffset file.baseOffset
    let index := scanIndex framing file.baseOffset 0 framing.headerLen file.frames
    let entry := (index.reverse.find? fun entry => entry.offset ≤ requested).getD ⟨file.baseOffset, framing.headerLen⟩
    readFrames framing ⟨file.baseOffset, highWatermark, requested, maxBytes, maxRecords⟩
      (framesFrom framing entry.position 0 framing.headerLen file.frames) entry.offset entry.position [] 0

namespace SegmentSet

/-- Where each sealed segment begins and ends. -/
def sealedSpans (set : SegmentSet) : List (Nat × Nat) := set.sealed.zip (set.sealed.tail ++ [set.tailBase])

def segmentFile (set : SegmentSet) (baseOffset nextOffset : Nat) : SegmentFile :=
  ⟨baseOffset, (set.records.take nextOffset).drop baseOffset⟩

/-- Read from whichever segment holds the offset; a segment caps the mark at its own end. -/
def fetchOne (set : SegmentSet) (framing : Framing) (offset maxBytes maxRecords highWatermark : Nat) :
    Except FetchError FetchBatch :=
  if set.tailBase ≤ offset then
    fetchFromFile framing (set.segmentFile set.tailBase set.nextOffset) (min highWatermark set.committedOffset) offset
      maxBytes maxRecords
  else
    match set.sealedSpans.find? fun span => offset < span.2 with
    | none => .error (.InvalidCursor s!"offset {offset} is not in this range")
    | some (baseOffset, nextOffset) =>
      fetchFromFile framing (set.segmentFile baseOffset nextOffset) (min highWatermark nextOffset) offset maxBytes maxRecords

/-- The loop over segments.  Every round that goes on moves the cursor, so the distance to the mark bounds them. -/
def fetchLoop (set : SegmentSet) (framing : Framing) (maxBytes maxRecords highWatermark : Nat) :
    Nat → FetchBatch → Except FetchError FetchBatch
  | 0, sofar => .ok sofar
  | rounds + 1, sofar =>
    if sofar.nextOffset < highWatermark ∧ sofar.records.length < maxRecords ∧ sofar.encodedBytes < maxBytes then
      match set.fetchOne framing sofar.nextOffset (maxBytes - sofar.encodedBytes) (maxRecords - sofar.records.length)
          highWatermark with
      | .error problem => .error problem
      | .ok batch =>
        if batch.records.isEmpty then .ok sofar
        else
          set.fetchLoop framing maxBytes maxRecords highWatermark rounds
            { records := sofar.records ++ batch.records
              encodedBytes := sofar.encodedBytes + batch.encodedBytes
              nextOffset := batch.nextOffset
              highWatermark }
    else .ok sofar

/-- Read from an offset, across segments, never above the mark or the durable frontier. -/
def fetchThrough (set : SegmentSet) (framing : Framing) (startOffset maxBytes maxRecords highWatermark : Nat) :
    Except FetchError FetchBatch :=
  if startOffset < set.baseOffset then .error (.OffsetBelowRange startOffset set.baseOffset)
  else
    let highWatermark := min highWatermark set.committedOffset
    set.fetchLoop framing maxBytes maxRecords highWatermark (highWatermark - startOffset) ⟨[], 0, startOffset, highWatermark⟩

end SegmentSet

/-! ## Stretches of a log -/

/-- The records from one offset up to another, with their offsets. -/
def recordsBetween (records : List LogRecord) (first last : Nat) : List FetchedRecord :=
  (((records.take last).drop first).zipIdx first).map fun entry => ⟨entry.2, entry.1⟩

section Between

variable {records : List LogRecord} {first last : Nat}

theorem recordsBetween_self (records offset) : recordsBetween records offset offset = [] := by
  unfold recordsBetween
  rw [drop_eq_nil_of_le (by simp)]
  rfl

theorem recordsBetween_append (ordered : first ≤ middle) (within : middle ≤ last) (bound : middle ≤ records.length) :
    recordsBetween records first middle ++ recordsBetween records middle last = recordsBetween records first last := by
  unfold recordsBetween
  have split : (records.take last).drop first = (records.take middle).drop first ++ (records.take last).drop middle := by
    rw [← take_append_drop (middle - first) ((records.take last).drop first), drop_drop,
      take_drop, take_take, Nat.add_sub_cancel' ordered, Nat.min_eq_left within]
  rw [split, zipIdx_append, map_append]
  congr 3
  rw [length_drop, length_take, min_eq_left bound]
  omega

theorem recordsBetween_succ (found : records[offset]? = some record) :
    recordsBetween records offset (offset + 1) = [⟨offset, record⟩] := by
  unfold recordsBetween
  have bound := (List.getElem?_eq_some_iff.mp found).1
  have isRecord := (List.getElem?_eq_some_iff.mp found).2
  rw [drop_take]
  simp [drop_eq_getElem_cons bound, isRecord]

theorem recordsBetween_length (within : last ≤ records.length) :
    (recordsBetween records first last).length = last - first := by
  simp [recordsBetween, min_eq_left within]

/-- Only the records from the first offset on matter. -/
theorem recordsBetween_congr {others : List LogRecord} (same : others.drop first = records.drop first) (last) :
    recordsBetween others first last = recordsBetween records first last := by
  unfold recordsBetween
  rw [drop_take, drop_take, same]

theorem recordsBetween_ordered (records first last) :
    (recordsBetween records first last).Pairwise fun earlier later => earlier.offset < later.offset := by
  refine Pairwise.of_map FetchedRecord.offset (fun _ _ => id) ?_
  have offsets : (recordsBetween records first last).map FetchedRecord.offset
      = range' first ((records.take last).drop first).length := by
    rw [recordsBetween, map_map]
    exact zipIdx_map_snd first _
  rw [offsets]
  exact pairwise_lt_range'

theorem mem_recordsBetween : fetched ∈ recordsBetween records first last ↔
      first ≤ fetched.offset ∧ fetched.offset < last ∧ records[fetched.offset]? = some fetched.record := by
  obtain ⟨offset, record⟩ := fetched
  have isEntry : ⟨offset, record⟩ ∈ recordsBetween records first last
      ↔ (record, offset) ∈ ((records.take last).drop first).zipIdx first := by
    simp [recordsBetween]
  rw [isEntry, mk_mem_zipIdx_iff_le_and_getElem?_sub, getElem?_drop, getElem?_take]
  constructor
  · rintro ⟨above, isRecord⟩
    rw [Nat.add_sub_cancel' above] at isRecord
    split at isRecord
    case isTrue below => exact ⟨above, below, isRecord⟩
    case isFalse => cases isRecord
  · rintro ⟨above, below, isRecord⟩
    rw [Nat.add_sub_cancel' above, if_pos below]
    exact ⟨above, isRecord⟩

end Between

/-! ## What one file answers -/

section Files

variable {framing : Framing} {request : ReadRequest} {log frames : List LogRecord}
  {baseOffset nextOffset position offset : Nat}

theorem Framing.encodedLen_pos (framing : Framing) (record) : 0 < framing.encodedLen record := by
  have := framing.framed
  unfold encodedLen
  omega

/-- An index entry leads to the frame of its offset. -/
theorem scanIndex_leads (member : entry ∈ scanIndex framing baseOffset relative position frames) :
    position ≤ entry.position ∧ ∃ skipped, entry.offset = baseOffset + (relative + skipped) ∧
      framesFrom framing entry.position relative position frames = (frames.drop skipped).zipIdx (relative + skipped) := by
  induction frames generalizing relative position with
  | nil => cases member
  | cons record frames ih =>
    have grows := framing.encodedLen_pos record
    have later : entry ∈ scanIndex framing baseOffset (relative + 1) (position + framing.encodedLen record) frames →
        position ≤ entry.position ∧ ∃ skipped, entry.offset = baseOffset + (relative + skipped) ∧
          framesFrom framing entry.position relative position (record :: frames)
            = ((record :: frames).drop skipped).zipIdx (relative + skipped) := by
      intro member
      obtain ⟨above, skipped, isOffset, leads⟩ := ih member
      refine ⟨by omega, skipped + 1, by omega, ?_⟩
      rw [framesFrom, if_neg (by omega), leads, drop_succ_cons, add_right_comm, add_assoc]
    unfold scanIndex at member
    split at member
    · rcases mem_cons.mp member with rfl | member
      · exact ⟨le_refl _, 0, rfl, by rw [framesFrom, if_pos rfl]; rfl⟩
      · exact later member
    · exact later member

/-- A read begins at or below the offset asked for, at the frame of the offset it begins with. -/
theorem seek_leads (framing : Framing) (file : SegmentFile) {requested : Nat} (reaches : file.baseOffset ≤ requested) :
    ∃ skipped, let entry := ((scanIndex framing file.baseOffset 0 framing.headerLen file.frames).reverse.find? fun entry =>
        entry.offset ≤ requested).getD ⟨file.baseOffset, framing.headerLen⟩
      entry.offset = file.baseOffset + skipped ∧ file.baseOffset + skipped ≤ requested ∧
      framesFrom framing entry.position 0 framing.headerLen file.frames = (file.frames.drop skipped).zipIdx skipped := by
  cases found : (scanIndex framing file.baseOffset 0 framing.headerLen file.frames).reverse.find? fun entry =>
      entry.offset ≤ requested with
  | none =>
    refine ⟨0, rfl, reaches, ?_⟩
    cases frames : file.frames with
    | nil => rfl
    | cons record rest =>
      show framesFrom framing framing.headerLen 0 framing.headerLen (record :: rest) = _
      rw [framesFrom, if_pos rfl]
      rfl
  | some entry =>
    have below : entry.offset ≤ requested := by simpa using find?_some found
    have member := mem_reverse.mp (mem_of_find?_eq_some found)
    obtain ⟨-, skipped, isOffset, leads⟩ := scanIndex_leads member
    rw [zero_add] at isOffset leads
    exact ⟨skipped, isOffset, isOffset ▸ below, leads⟩

/-- The frames of a stretch of the log, from one of its offsets on. -/
def framesAt (log : List LogRecord) (baseOffset nextOffset offset : Nat) : List (LogRecord × Nat) :=
  ((log.take nextOffset).drop offset).zipIdx (offset - baseOffset)

theorem framesAt_cons (reaches : baseOffset ≤ offset) (below : offset < nextOffset)
    (found : log[offset]? = some record) : framesAt log baseOffset nextOffset offset
      = (record, offset - baseOffset) :: framesAt log baseOffset nextOffset (offset + 1) := by
  have bound := (List.getElem?_eq_some_iff.mp found).1
  have isRecord := (List.getElem?_eq_some_iff.mp found).2
  have bound' : offset < (log.take nextOffset).length := by
    rw [length_take]
    omega
  unfold framesAt
  rw [drop_eq_getElem_cons bound', zipIdx_cons, getElem_take, isRecord]
  congr 2
  omega

/-- Frames below the offset asked for are skipped. -/
theorem readFrames_skip (reaches : request.baseOffset ≤ offset) (upto : offset ≤ request.requested)
    (below : request.requested < request.highWatermark) (within : request.highWatermark ≤ nextOffset)
    (bound : nextOffset ≤ log.length) (some : 0 < request.maxRecords) (position) :
    ∃ position', readFrames framing request (framesAt log request.baseOffset nextOffset offset) offset position [] 0
      = readFrames framing request (framesAt log request.baseOffset nextOffset request.requested) request.requested
          position' [] 0 := by
  induction distance : request.requested - offset generalizing offset position with
  | zero =>
    obtain rfl : offset = request.requested := by omega
    exact ⟨position, rfl⟩
  | succ distance ih =>
    have found := getElem?_eq_getElem (show offset < log.length by omega)
    have entered : offset < request.highWatermark ∧ ([] : List FetchedRecord).length < request.maxRecords := ⟨by omega, some⟩
    obtain ⟨position', skipped⟩ := ih (Nat.le_succ_of_le reaches) (by omega)
      (position + framing.encodedLen log[offset]) (by omega)
    refine ⟨position', ?_⟩
    rw [framesAt_cons reaches (by omega) found, readFrames, if_pos entered]
    simp only [ne_eq, not_true_eq_false, if_false]
    rw [if_pos (by omega), skipped]

end Files

def runBytes (framing : Framing) (records : List FetchedRecord) : Nat :=
  (records.map fun fetched => framing.encodedLen fetched.record).sum

/-- The log's records from the offset asked for to the next one, within the budgets of a fetch and below its mark. -/
structure Run (framing : Framing) (log : List LogRecord) (startOffset highWatermark maxBytes maxRecords : Nat)
    (batch : FetchBatch) : Prop where
  reached : startOffset ≤ batch.nextOffset
  bounded : batch.nextOffset ≤ highWatermark
  records : batch.records = recordsBetween log startOffset batch.nextOffset
  encodedBytes : batch.encodedBytes = runBytes framing batch.records
  mark : batch.highWatermark = highWatermark
  few : batch.records.length ≤ maxRecords
  small : batch.encodedBytes ≤ maxBytes

/-- What a fetch answers with: a run that ends at the mark, with the budget of records, or before a record too many. -/
structure Reads (framing : Framing) (log : List LogRecord) (startOffset highWatermark maxBytes maxRecords : Nat)
    (batch : FetchBatch) : Prop extends Run framing log startOffset highWatermark maxBytes maxRecords batch where
  stops : batch.nextOffset = highWatermark ∨ maxRecords ≤ batch.records.length ∨
    ∃ record ∈ log[batch.nextOffset]?, maxBytes < batch.encodedBytes + framing.encodedLen record

/-- The answer of so many records from an offset on. -/
def runOf (framing : Framing) (log : List LogRecord) (startOffset highWatermark count : Nat) : FetchBatch :=
  let records := recordsBetween log startOffset (startOffset + count)
  ⟨records, runBytes framing records, startOffset + count, highWatermark⟩

/-- So many records from an offset on stay within the budgets and below the mark. -/
def Within (framing : Framing) (log : List LogRecord) (startOffset highWatermark maxBytes maxRecords count : Nat) : Prop :=
  count ≤ maxRecords ∧ (runOf framing log startOffset highWatermark count).encodedBytes ≤ maxBytes ∧
    ∀ index < count, startOffset + index < highWatermark

section Runs

variable {framing : Framing} {log : List LogRecord} {startOffset highWatermark maxBytes maxRecords : Nat}
  {batch : FetchBatch}

theorem Run.start (upto : startOffset ≤ highWatermark) :
    Run framing log startOffset highWatermark maxBytes maxRecords ⟨[], 0, startOffset, highWatermark⟩ :=
  ⟨le_refl _, upto, (recordsBetween_self _ _).symm, rfl, rfl, Nat.zero_le _, Nat.zero_le _⟩

theorem Run.append (run : Run framing log startOffset highWatermark maxBytes maxRecords sofar)
    (next : Run framing log sofar.nextOffset limit (maxBytes - sofar.encodedBytes) (maxRecords - sofar.records.length) batch)
    (within : limit ≤ highWatermark) (bound : highWatermark ≤ log.length) :
    Run framing log startOffset highWatermark maxBytes maxRecords
      ⟨sofar.records ++ batch.records, sofar.encodedBytes + batch.encodedBytes, batch.nextOffset, highWatermark⟩ where
  reached := le_trans run.reached next.reached
  bounded := le_trans next.bounded within
  records := by
    rw [run.records, next.records]
    exact recordsBetween_append run.reached next.reached (le_trans run.bounded bound)
  encodedBytes := by simp [runBytes, run.encodedBytes, next.encodedBytes]
  mark := rfl
  few := by
    have := run.few
    have := next.few
    simp only [length_append]
    omega
  small := by
    have := run.small
    have := next.small
    simp only
    omega

section

variable (run : Run framing log startOffset highWatermark maxBytes maxRecords batch)

include run

theorem Run.eta : ⟨batch.records, batch.encodedBytes, batch.nextOffset, highWatermark⟩ = batch := by rw [← run.mark]

theorem Run.length (bound : highWatermark ≤ log.length) : startOffset + batch.records.length = batch.nextOffset := by
  have reached := run.reached
  rw [run.records, recordsBetween_length (le_trans run.bounded bound)]
  omega

end

section

variable (reads : Reads framing log startOffset highWatermark maxBytes maxRecords batch)

include reads

/-- It moves, unless there is nothing to read, no room at all, or no room for the first record. -/
theorem Reads.moves (stays : batch.nextOffset = startOffset) : startOffset = highWatermark ∨ maxRecords = 0 ∨
      ∃ record ∈ log[startOffset]?, maxBytes < framing.encodedLen record := by
  have nothing : batch.records = [] := by rw [reads.records, stays, recordsBetween_self]
  have stops := reads.stops
  rw [reads.encodedBytes, nothing, stays] at stops
  simpa [runBytes] using stops

/-- Where the loop stops, no longer run stays within the budgets and below the mark. -/
theorem Reads.longest (bound : highWatermark ≤ log.length) :
    runOf framing log startOffset highWatermark batch.records.length = batch ∧
      IsGreatest {count | Within framing log startOffset highWatermark maxBytes maxRecords count} batch.records.length := by
  have isNext := reads.length bound
  have upto := reads.bounded
  have isRun : runOf framing log startOffset highWatermark batch.records.length = batch := by
    simp only [runOf]
    rw [isNext, ← reads.records, ← reads.encodedBytes, reads.eta]
  refine ⟨isRun, ⟨reads.few, by rw [isRun]; exact reads.small, fun index below => by omega⟩, fun count within => ?_⟩
  obtain ⟨few, small, below⟩ := within
  by_contra more
  have unfinished := below batch.records.length (not_le.mp more)
  rcases reads.stops with done | full | ⟨record, found, oversize⟩
  · omega
  · omega
  · -- A longer run holds the record that did not fit.
    have last := below (count - 1) (by omega)
    have longer : recordsBetween log startOffset (startOffset + count)
        = batch.records ++ ([⟨batch.nextOffset, record⟩] ++ recordsBetween log (batch.nextOffset + 1) (startOffset + count)) := by
      rw [← recordsBetween_succ found, recordsBetween_append (Nat.le_succ _) (by omega) (by omega), reads.records,
        recordsBetween_append reads.reached (by omega) (by omega)]
    simp only [runOf, longer, runBytes, map_append, sum_append] at small
    rw [reads.encodedBytes, runBytes] at oversize
    simp at small
    omega

end

end Runs

section Reads

variable {framing : Framing} {set : SegmentSet} {offset maxBytes maxRecords highWatermark baseOffset nextOffset : Nat}

/-- From the offset asked for on, the frames are the answer's records, until the mark or a budget stops the loop. -/
theorem readFrames_collect {request : ReadRequest} {log : List LogRecord} {sofar}
    (reaches : request.baseOffset ≤ request.requested) (within : request.highWatermark ≤ nextOffset)
    (bound : nextOffset ≤ log.length)
    (run : Run framing log request.requested request.highWatermark request.maxBytes request.maxRecords sofar)
    (position) :
    ∃ batch, readFrames framing request (framesAt log request.baseOffset nextOffset sofar.nextOffset) sofar.nextOffset
        position sofar.records sofar.encodedBytes = .ok batch ∧
      Reads framing log request.requested request.highWatermark request.maxBytes request.maxRecords batch := by
  induction distance : request.highWatermark - sofar.nextOffset generalizing sofar position with
  | zero =>
    refine ⟨sofar, ?_, run, .inl (le_antisymm run.bounded (by omega))⟩
    cases framesAt log request.baseOffset nextOffset sofar.nextOffset <;>
      rw [readFrames, if_neg (by omega), run.eta]
  | succ distance ih =>
    have reached := run.reached
    obtain ⟨record, found⟩ : ∃ record, log[sofar.nextOffset]? = some record :=
      ⟨_, getElem?_eq_getElem (show sofar.nextOffset < log.length by omega)⟩
    rw [framesAt_cons (by omega) (by omega) found, readFrames, run.eta]
    split
    case isFalse full => exact ⟨sofar, rfl, run, .inr (.inl (by omega))⟩
    case isTrue entered =>
      simp only [ne_eq, not_true_eq_false, if_false]
      rw [if_neg (by omega)]
      split
      case isTrue oversize => exact ⟨sofar, rfl, run, .inr (.inr ⟨record, found, oversize⟩)⟩
      case isFalse =>
        -- The record that is read is a run of its own, behind what was collected.
        have one : Run framing log sofar.nextOffset request.highWatermark (request.maxBytes - sofar.encodedBytes)
            (request.maxRecords - sofar.records.length)
            ⟨[⟨sofar.nextOffset, record⟩], framing.encodedLen record, sofar.nextOffset + 1, request.highWatermark⟩ :=
          ⟨Nat.le_succ _, by simp only; omega, (recordsBetween_succ found).symm, by simp [runBytes], rfl,
            by simp only [length_singleton]; omega, by simp only; omega⟩
        exact ih (run.append one (le_refl _) (le_trans within bound)) (position + framing.encodedLen record)
          (by simp only; omega)

/-- A file that holds a stretch of the log answers with it. -/
theorem fetchFromFile_reads (reaches : baseOffset ≤ offset) (below : offset < highWatermark)
    (within : highWatermark ≤ nextOffset) (bound : nextOffset ≤ set.records.length) (room : 0 < maxBytes)
    (some : 0 < maxRecords) :
    ∃ batch, fetchFromFile framing (set.segmentFile baseOffset nextOffset) highWatermark offset maxBytes maxRecords
        = .ok batch ∧ Reads framing set.records offset highWatermark maxBytes maxRecords batch := by
  have requested : max offset baseOffset = offset := max_eq_left reaches
  unfold fetchFromFile
  rw [if_neg (by omega)]
  simp only [segmentFile, requested]
  obtain ⟨skipped, isOffset, upto, leads⟩ := seek_leads framing (set.segmentFile baseOffset nextOffset) reaches
  simp only [segmentFile] at isOffset upto leads
  have frames : ((set.records.take nextOffset).drop (baseOffset + skipped)).zipIdx skipped
      = framesAt set.records baseOffset nextOffset (baseOffset + skipped) := by
    rw [framesAt, Nat.add_sub_cancel_left]
  rw [leads, isOffset, drop_drop, frames]
  obtain ⟨position, skips⟩ := @readFrames_skip framing ⟨baseOffset, highWatermark, offset, maxBytes, maxRecords⟩
    set.records nextOffset (baseOffset + skipped) (Nat.le_add_right _ _) upto below within bound some _
  rw [skips]
  exact @readFrames_collect framing nextOffset ⟨baseOffset, highWatermark, offset, maxBytes, maxRecords⟩ set.records _
    reaches within bound (.start (le_of_lt below)) position

/-- The spans of consecutive segments leave no offset out. -/
theorem find_span (bases) (last) (layout : (bases ++ [last]).Pairwise (· < ·))
    (reaches : bases.head?.getD last ≤ offset) (below : offset < last) :
    ∃ span, (bases.zip (bases.tail ++ [last])).find? (fun span => offset < span.2) = some span ∧
      span.1 ≤ offset ∧ offset < span.2 ∧ span.2 ≤ last := by
  induction bases with
  | nil => exact absurd below (not_lt.mpr reaches)
  | cons first rest ih =>
    cases rest with
    | nil => exact ⟨(first, last), by simp [below], reaches, below, le_refl _⟩
    | cons second rest =>
      have later := (pairwise_cons.mp layout).2
      have upto : second ≤ last := le_of_lt ((pairwise_append.mp later).2.2 second mem_cons_self last mem_cons_self)
      simp only [tail_cons, cons_append, zip_cons_cons, find?_cons]
      by_cases here : offset < second
      · exact ⟨(first, second), by simp [here], reaches, here, upto⟩
      · obtain ⟨span, found, bounds⟩ := ih later (not_lt.mp here)
        exact ⟨span, by simpa [here] using found, bounds⟩

/-- The segment that holds an offset answers from there, up to its own end. -/
theorem fetchOne_reads (reaches : set.baseOffset ≤ offset) (below : offset < highWatermark)
    (durable : highWatermark ≤ set.committedOffset) (room : 0 < maxBytes) (some : 0 < maxRecords) :
    ∃ batch limit, set.fetchOne framing offset maxBytes maxRecords highWatermark = .ok batch ∧
      offset < limit ∧ limit ≤ highWatermark ∧ Reads framing set.records offset limit maxBytes maxRecords batch := by
  have held := set.durable
  unfold fetchOne
  split
  case isTrue inTail =>
    rw [min_eq_left durable]
    obtain ⟨batch, isOk, reads⟩ := @fetchFromFile_reads framing set _ _ _ _ _ _ inTail below (le_trans durable held)
      (le_refl _) room some
    exact ⟨batch, highWatermark, isOk, below, le_refl _, reads⟩
  case isFalse isSealed =>
    obtain ⟨⟨baseOffset, nextOffset⟩, found, from', within, upto⟩ :=
      find_span set.sealed set.tailBase set.layout reaches (not_le.mp isSealed)
    have stored := set.tailDurable
    have above : offset < min highWatermark nextOffset := Nat.lt_min.mpr ⟨below, within⟩
    rw [sealedSpans, found]
    obtain ⟨batch, isOk, reads⟩ := @fetchFromFile_reads framing set _ _ _ _ _ _ from' above (min_le_right _ _)
      (by omega) room some
    exact ⟨batch, _, isOk, above, min_le_left _ _, reads⟩

/-- The loop goes on from what it has read, to the mark or until a budget stops it. -/
theorem fetchLoop_reads {sofar : FetchBatch} (reaches : set.baseOffset ≤ startOffset)
    (durable : highWatermark ≤ set.committedOffset) (enough : highWatermark - sofar.nextOffset ≤ rounds)
    (run : Run framing set.records startOffset highWatermark maxBytes maxRecords sofar) :
    ∃ batch, set.fetchLoop framing maxBytes maxRecords highWatermark rounds sofar = .ok batch ∧
      Reads framing set.records startOffset highWatermark maxBytes maxRecords batch := by
  have held := le_trans durable set.durable
  induction rounds generalizing sofar with
  | zero => exact ⟨sofar, rfl, run, .inl (le_antisymm run.bounded (by omega))⟩
  | succ rounds ih =>
    have reached := run.reached
    have upto := run.bounded
    unfold fetchLoop
    split
    case isFalse stopped =>
      refine ⟨sofar, rfl, run, ?_⟩
      by_cases more : sofar.nextOffset < highWatermark ∧ sofar.records.length < maxRecords
      · -- Without a byte left no record fits.
        have found := getElem?_eq_getElem (show sofar.nextOffset < set.records.length by omega)
        have grows := framing.encodedLen_pos set.records[sofar.nextOffset]
        exact .inr (.inr ⟨_, found, by omega⟩)
      · have ends : sofar.nextOffset = highWatermark ∨ maxRecords ≤ sofar.records.length := by omega
        exact ends.imp_right .inl
    case isTrue entered =>
      obtain ⟨below, few, room⟩ := entered
      obtain ⟨batch, limit, isOk, above, within, reads⟩ := @fetchOne_reads framing set sofar.nextOffset
        (maxBytes - sofar.encodedBytes) (maxRecords - sofar.records.length) highWatermark (by omega) below durable (by omega)
        (by omega)
      have length := reads.length (le_trans within held)
      simp only [isOk, isEmpty_iff_length_eq_zero]
      split
      case isTrue nothing =>
        refine ⟨sofar, rfl, run, ?_⟩
        rcases reads.moves (by omega) with done | none | ⟨record, found, oversize⟩
        · omega
        · omega
        · exact .inr (.inr ⟨record, found, by omega⟩)
      case isFalse something => exact ih (by simp only; omega) (run.append reads.toRun within held)

variable {startOffset : Nat}

section

variable (reaches : set.baseOffset ≤ startOffset)

include reaches

/-- A fetch answers with the log's records from the offset asked for, below the mark and the durable frontier. -/
theorem fetchThrough_reads (upto : startOffset ≤ min highWatermark set.committedOffset) :
    ∃ batch, set.fetchThrough framing startOffset maxBytes maxRecords highWatermark = .ok batch ∧
      Reads framing set.records startOffset (min highWatermark set.committedOffset) maxBytes maxRecords batch := by
  unfold fetchThrough
  rw [if_neg (not_lt.mpr reaches)]
  exact fetchLoop_reads reaches (min_le_right _ _) (le_refl _) (.start upto)

/-- Above the mark or the durable frontier the loop does not begin. -/
theorem fetchThrough_past (past : min highWatermark set.committedOffset < startOffset) :
    set.fetchThrough framing startOffset maxBytes maxRecords highWatermark
      = .ok ⟨[], 0, startOffset, min highWatermark set.committedOffset⟩ := by
  unfold fetchThrough
  rw [if_neg (not_lt.mpr reaches)]
  simp only [Nat.sub_eq_zero_of_le (le_of_lt past), fetchLoop]

/-- A fetch answers with the longest run from the offset asked for. -/
theorem fetchThrough_longest :
    ∃ count, IsGreatest {count | Within framing set.records startOffset (min highWatermark set.committedOffset) maxBytes
        maxRecords count} count ∧
      set.fetchThrough framing startOffset maxBytes maxRecords highWatermark
        = .ok (runOf framing set.records startOffset (min highWatermark set.committedOffset) count) := by
  by_cases upto : startOffset ≤ min highWatermark set.committedOffset
  · obtain ⟨batch, isOk, reads⟩ := @fetchThrough_reads framing set maxBytes maxRecords _ _ reaches upto
    obtain ⟨isRun, greatest⟩ := reads.longest (le_trans (min_le_right _ _) set.durable)
    exact ⟨_, greatest, by rw [isRun, isOk]⟩
  · have nothing : runOf framing set.records startOffset (min highWatermark set.committedOffset) 0
        = ⟨[], 0, startOffset, min highWatermark set.committedOffset⟩ := by
      simp [runOf, runBytes, recordsBetween_self]
    refine ⟨0, ⟨⟨Nat.zero_le _, by simp [nothing], by simp⟩, fun count within => ?_⟩, ?_⟩
    · by_contra more
      exact upto (le_of_lt (within.2.2 0 (not_le.mp more)))
    · rw [nothing, fetchThrough_past reaches (not_le.mp upto)]

/-- Neither the segments a log is split into nor the strides of their indexes show in a fetch. -/
theorem fetchThrough_layout {other : SegmentSet} {framing' : Framing}
    (reaches' : other.baseOffset ≤ startOffset) (overhead : framing'.overhead = framing.overhead)
    (records : other.records.drop startOffset = set.records.drop startOffset)
    (committed : other.committedOffset = set.committedOffset) :
    other.fetchThrough framing' startOffset maxBytes maxRecords highWatermark
      = set.fetchThrough framing startOffset maxBytes maxRecords highWatermark := by
  obtain ⟨count, greatest, isOk⟩ := @fetchThrough_longest framing set maxBytes maxRecords highWatermark _ reaches
  obtain ⟨count', greatest', isOk'⟩ := @fetchThrough_longest framing' other maxBytes maxRecords highWatermark _ reaches'
  have sameRun : runOf framing' other.records startOffset = runOf framing set.records startOffset := by
    funext mark count
    unfold runOf runBytes Framing.encodedLen
    rw [recordsBetween_congr records, overhead]
  unfold Within at greatest greatest'
  rw [sameRun, committed] at isOk' greatest'
  rw [isOk, isOk', greatest.unique greatest']

end

/-- A fetch answers with the longest run from the offset asked for within its budgets, below the mark and the durable
frontier, and so does any other set with these records. -/
theorem fetch_ignores_layout (reaches : set.baseOffset ≤ startOffset) :
    ∃ count, IsGreatest {count | Within framing set.records startOffset (min highWatermark set.committedOffset) maxBytes
        maxRecords count} count ∧
      set.fetchThrough framing startOffset maxBytes maxRecords highWatermark
        = .ok (runOf framing set.records startOffset (min highWatermark set.committedOffset) count) ∧
      ∀ (other : SegmentSet) (framing' : Framing), other.baseOffset ≤ startOffset → framing'.overhead = framing.overhead →
        other.records.drop startOffset = set.records.drop startOffset → other.committedOffset = set.committedOffset →
        other.fetchThrough framing' startOffset maxBytes maxRecords highWatermark
          = set.fetchThrough framing startOffset maxBytes maxRecords highWatermark := by
  obtain ⟨count, greatest, isOk⟩ := @fetchThrough_longest framing set maxBytes maxRecords highWatermark _ reaches
  exact ⟨count, greatest, isOk, fun other framing' => fetchThrough_layout reaches⟩

/-- Three records, split into segments as told. -/
def threeRecords (sealed : List Nat) (tailBase : Nat) (layout : (sealed ++ [tailBase]).Pairwise (· < ·))
    (tailDurable : tailBase ≤ 3) : SegmentSet :=
  { records := replicate 3 ⟨40#128, 1, 0, 0, [], [1, 2]⟩
    sealed, tailBase, committedOffset := 3, maxSegmentRecords := 2, layout, tailDurable, durable := by decide }

theorem split_answers_as_whole :
    (threeRecords [0, 1] 2 (by decide) (by decide)).fetchThrough ⟨102, 40, fun base => base + 1, by decide⟩ 0 250 9 9
      = (threeRecords [] 0 (by decide) (by decide)).fetchThrough ⟨102, 40, fun _ => 2, by decide⟩ 0 250 9 9 :=
  let ⟨_, _, _, others⟩ := fetch_ignores_layout (Nat.le_refl 0)
  others _ _ (by decide) rfl rfl rfl

/-- Whatever is asked for, nothing at or above the mark or the durable frontier is read. -/
theorem fetchThrough_below (isOk : set.fetchThrough framing startOffset maxBytes maxRecords highWatermark = .ok batch)
    (member : fetched ∈ batch.records) : fetched.offset < min highWatermark set.committedOffset := by
  by_cases reaches : startOffset < set.baseOffset
  · simp [fetchThrough, reaches] at isOk
  by_cases upto : startOffset ≤ min highWatermark set.committedOffset
  · obtain ⟨read, isRead, reads⟩ := @fetchThrough_reads framing set maxBytes maxRecords highWatermark startOffset
      (not_lt.mp reaches) upto
    obtain rfl := Except.ok.inj (isOk.symm.trans isRead)
    rw [reads.records, mem_recordsBetween] at member
    exact lt_of_lt_of_le member.2.1 reads.bounded
  · rw [fetchThrough_past (not_lt.mp reaches) (not_le.mp upto)] at isOk
    obtain rfl := Except.ok.inj isOk
    cases member

end Reads

end VtopEngine.Log
