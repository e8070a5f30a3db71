import VtopEngine.Log.ActiveSegment

/-! # A segment is what a scan of its records yields

The state a live segment keeps was made group by group, under deltas and with bytes not yet durable;
a recovery makes it by one scan up to the commit boundary.

* `segmentOf` — the segment that holds given records, field by field what the scan yields.
* `scanRecords_content` — scanning the frames of records, whatever bytes follow.
* `appendGroup_segmentOf`, `truncateTo_segmentOf`, `recoverIn_segmentOf` — the operations on it.
-/

namespace VtopEngine.Log

open Lib ActiveSegment ContentAccumulator Producers ScanResult List IncomingRecord
open ActiveSegment (appendGroup create indexOf recoverIn truncateTo unsupportedField walkFrames write)

variable {η : Type} {blake : Blake3 η} {tree : TreeHash Bytes η} {header : AnyHeader}

theorem SegmentFormat.lawful (format : SegmentFormat) : format.layout.Lawful format.Carries := by
  cases format with
  | V1 => exact layoutV1_lawful
  | V2 chunkSize positive => exact layoutV2_lawful

/-! ## The frames of records -/

/-- The frames of records from a relative offset on, each with its offset. -/
def encodedFrames (blake : Blake3 η) (header : AnyHeader) : Nat → List LogRecord → List (Nat × Bytes)
  | _, [] => []
  | relative, record :: records =>
    (header.baseOffset + relative, header.format.layout.frame blake record relative)
      :: encodedFrames blake header (relative + 1) records

/-- The bytes of those frames. -/
def content (blake : Blake3 η) (header : AnyHeader) (relative : Nat) (records : List LogRecord) : Bytes :=
  ((encodedFrames blake header relative records).map Prod.snd).flatten

variable {first records : List LogRecord} {relative : Nat}

theorem encodedFrames_append : encodedFrames blake header relative (first ++ second)
    = encodedFrames blake header relative first ++ encodedFrames blake header (relative + first.length) second := by
  induction first generalizing relative with
  | nil => rfl
  | cons record rest ih =>
    rw [cons_append, encodedFrames, ih, encodedFrames, cons_append, length_cons]
    congr 3
    omega

theorem content_append : content blake header relative (first ++ second)
    = content blake header relative first ++ content blake header (relative + first.length) second := by
  rw [content, encodedFrames_append, map_append, flatten_append, content, content]

theorem content_cons {record} : content blake header relative (record :: records)
    = header.format.layout.frame blake record relative ++ content blake header (relative + 1) records := rfl

@[simp] theorem length_encodedFrames : (encodedFrames blake header relative records).length = records.length := by
  induction records generalizing relative with
  | nil => rfl
  | cons record rest ih => simp [encodedFrames, ih]

/-! ## The scan of records -/

/-- The scan with the frames of records. -/
def ScanResult.addAll (blake : Blake3 η) (tree : TreeHash Bytes η) (header : AnyHeader) (scan : ScanResult η)
    (records : List LogRecord) : ScanResult η :=
  records.foldl (fun scan record => scan.add blake tree header record (header.format.layout.frame blake record scan.records)) scan

variable {scan : ScanResult η}

theorem ScanResult.addAll_append : scan.addAll blake tree header (first ++ second)
    = (scan.addAll blake tree header first).addAll blake tree header second :=
  foldl_append

/-- What the scan of records comes to: each part as the append path makes it. -/
theorem ScanResult.addAll_eq (aligned : scan.nextOffset = header.baseOffset + scan.records) :
    scan.addAll blake tree header records =
      { records := scan.records + records.length
        validEnd := scan.validEnd + (content blake header scan.records records).length
        nextOffset := scan.nextOffset + records.length
        producers := scan.producers.rememberAll (recordContentHash blake) scan.nextOffset records
        index := scan.index ++ indexOf header scan.validEnd (encodedFrames blake header scan.records records)
        accumulator := ((encodedFrames blake header scan.records records).map Prod.snd).foldl
          (update tree) scan.accumulator } := by
  induction records generalizing scan with
  | nil => simp [addAll, encodedFrames, content, rememberAll, indexOf]
  | cons record rest ih =>
    have aligned' : (scan.add blake tree header record (header.format.layout.frame blake record scan.records)).nextOffset
        = header.baseOffset + (scan.add blake tree header record (header.format.layout.frame blake record scan.records)).records := by
      simp only [add, aligned]
      omega
    rw [addAll, foldl_cons, ← addAll, ih aligned']
    simp only [add, content_cons, length_cons, length_append, rememberAll, encodedFrames, map_cons,
      foldl_cons, indexOf, Nat.add_sub_cancel_left, aligned]
    congr 1
    · omega
    · omega
    · omega
    · split_ifs <;> simp

/-! ## Records that a segment may hold -/

/-- Every check of the append path and of the scan, for records that lie in one segment. -/
structure Admitted (blake : Blake3 η) (header : AnyHeader) (inherited : ProducerSnapshot η) (records : List LogRecord) :
    Prop where
  next : Producers.AllNext (recordContentHash blake) inherited.inheritedStates header.baseOffset records
  typed : ∀ record ∈ records, record.Typed
  carried : ∀ record ∈ records, header.format.Carries record
  fits : ∀ record ∈ records, header.format.layout.Fits header.config.maxRecordBytes record
  grouped : ∀ record ∈ records, ∀ relative,
    (header.format.layout.frame blake record relative).length ≤ header.config.maxGroupBytes
  bytes : (content blake header 0 records).length ≤ header.config.maxSegmentBytes
  count : records.length ≤ header.config.maxSegmentRecords
  offsets : header.baseOffset + records.length < UInt64.size

variable {inherited : ProducerSnapshot η}

theorem Admitted.nil (baseFits : header.baseOffset < UInt64.size) : Admitted blake header inherited [] where
  next := trivial
  typed := by simp
  carried := by simp
  fits := by simp
  grouped := by simp
  bytes := Nat.zero_le _
  count := Nat.zero_le _
  offsets := baseFits

theorem Admitted.of_append (admitted : Admitted blake header inherited (first ++ second)) :
    Admitted blake header inherited first where
  next := (allNext_append.mp admitted.next).1
  typed record member := admitted.typed record (mem_append_left _ member)
  carried record member := admitted.carried record (mem_append_left _ member)
  fits record member := admitted.fits record (mem_append_left _ member)
  grouped record member := admitted.grouped record (mem_append_left _ member)
  bytes := by
    have := admitted.bytes
    rw [content_append, length_append] at this
    omega
  count := by
    have := admitted.count
    rw [length_append] at this
    omega
  offsets := by
    have := admitted.offsets
    rw [length_append] at this
    omega

theorem Admitted.take (admitted : Admitted blake header inherited records) (count) :
    Admitted blake header inherited (records.take count) := by
  rw [← take_append_drop count records] at admitted
  exact admitted.of_append

/-- What the scan has reached after some records. -/
theorem addAll_start (records) : (start header inherited).addAll blake tree header records =
      { records := records.length
        validEnd := header.headerLen + (content blake header 0 records).length
        nextOffset := header.baseOffset + records.length
        producers := inherited.inheritedStates.rememberAll (recordContentHash blake) header.baseOffset records
        index := indexOf header header.headerLen (encodedFrames blake header 0 records)
        accumulator := ((encodedFrames blake header 0 records).map Prod.snd).foldl
          (update tree) (.forHeader header) } := by
  have aligned : (start header inherited).nextOffset
      = header.baseOffset + (start header inherited).records := rfl
  rw [addAll_eq aligned]
  simp [start]

theorem length_content (relative) (records : List LogRecord) :
    records.length ≤ (content blake header relative records).length := by
  induction records generalizing relative with
  | nil => exact Nat.zero_le _
  | cons record rest ih =>
    have := ih (relative + 1)
    have frame : (header.format.layout.frame blake record relative).length = _ := header.format.lawful.length_frame
    rw [content_cons, length_append, length_cons, frame, FRAME_PREFIX_LEN]
    omega

theorem length_frame_le {record} (member : record ∈ records) (relative other) :
    (header.format.layout.frame blake record other).length ≤ (content blake header relative records).length := by
  induction records generalizing relative with
  | nil => simp at member
  | cons first rest ih =>
    rw [content_cons, length_append]
    rcases mem_cons.mp member with rfl | later
    · rw [header.format.lawful.length_frame, header.format.lawful.length_frame]
      exact Nat.le_add_right _ _
    · exact Nat.le_trans (ih later (relative + 1)) (Nat.le_add_left _ _)

/-! ## The segment that holds records -/

/-- The segment that holds given records, the first `committed` of them below its commit boundary. -/
def segmentOf (blake : Blake3 η) (tree : TreeHash Bytes η) (header : AnyHeader) (sidecar : Option (ProducerSnapshot η))
    (inherited : ProducerSnapshot η) (records : List LogRecord) (committed : Nat) : ActiveSegment η :=
  { header
    file := content blake header 0 records
    boundary := ⟨header.segmentId, header.baseOffset + committed, (content blake header 0 (records.take committed)).length⟩
    sidecar
    nextOffset := header.baseOffset + records.length
    committedOffset := header.baseOffset + committed
    recordCount := records.length
    contentBytes := (content blake header 0 records).length
    producers := inherited.inheritedStates.rememberAll (recordContentHash blake) header.baseOffset records
    index := indexOf header header.headerLen (encodedFrames blake header 0 records)
    accumulator := ((encodedFrames blake header 0 records).map Prod.snd).foldl (ContentAccumulator.update tree)
      (.forHeader header)
    inherited }

variable {sidecar : Option (ProducerSnapshot η)}

theorem create_eq_segmentOf : create header sidecar inherited
    = segmentOf blake tree header sidecar inherited [] 0 := rfl

theorem commit_segmentOf : (segmentOf blake tree header sidecar inherited records committed).commit
    = segmentOf blake tree header sidecar inherited records records.length := by
  rw [segmentOf, segmentOf, take_length]
  rfl

/-! ## What a group adds -/

/-- How many records are below the commit boundary after an append. -/
def Durability.covers : Durability → Nat → Nat → Nat
  | .Fsync, all, _ => all
  | .Buffered, _, before => before

theorem Durability.covers_le (durability : Durability) {all} (fewer : before ≤ all) :
    durability.covers all before ≤ all := by
  cases durability with
  | Fsync => exact le_refl all
  | Buffered => exact fewer

theorem Durability.covers_covers (durability : Durability) (all earlier before) :
    durability.covers all (durability.covers earlier before) = durability.covers all before := by
  cases durability <;> rfl

/-- What a group on its way has added after `relative` records of the segment. -/
structure StagedBy (blake : Blake3 η) (header : AnyHeader) (producers : Producers η) (relative : Nat)
    (staged : ActiveSegment.Staged η) (added : List LogRecord) : Prop where
  pending : staged.pending = encodedFrames blake header relative added
  next : staged.prospectiveNext = header.baseOffset + relative + added.length
  merged : producers.mergeProducerDeltas staged.deltas
    = producers.rememberAll (recordContentHash blake) (header.baseOffset + relative) added
  deltas : Producers.Pending producers staged.deltas
  allNext : Producers.AllNext (recordContentHash blake) producers (header.baseOffset + relative) added
  fits : ∀ record ∈ added, header.format.layout.Fits header.config.maxRecordBytes record
  bytes : staged.groupBytes = (content blake header relative added).length
  grouped : staged.groupBytes ≤ header.config.maxGroupBytes
  offsets : header.baseOffset + relative + added.length < UInt64.size

/-- A group before its first record. -/
theorem StagedBy.start (admitted : Admitted blake header inherited records) (producers : Producers η) :
    StagedBy blake header producers records.length ⟨.empty, header.baseOffset + records.length, [], [], 0⟩ [] where
  pending := rfl
  next := rfl
  merged := rfl
  deltas := .empty
  allNext := trivial
  fits := by simp
  bytes := rfl
  grouped := Nat.zero_le _
  offsets := admitted.offsets

variable {added : List LogRecord} {staged : Staged η}

theorem Admitted.append (admitted : Admitted blake header inherited records) (stagedBy : StagedBy blake header
      (inherited.inheritedStates.rememberAll (recordContentHash blake) header.baseOffset records) records.length staged added)
    (typed : ∀ record ∈ added, record.Typed) (carried : ∀ record ∈ added, header.format.Carries record)
    (bytes : (content blake header 0 (records ++ added)).length ≤ header.config.maxSegmentBytes)
    (count : (records ++ added).length ≤ header.config.maxSegmentRecords) :
    Admitted blake header inherited (records ++ added) where
  next := allNext_append.mpr ⟨admitted.next, stagedBy.allNext⟩
  typed record member := (mem_append.mp member).elim (admitted.typed record) (typed record)
  carried record member := (mem_append.mp member).elim (admitted.carried record) (carried record)
  fits record member := (mem_append.mp member).elim (admitted.fits record) (stagedBy.fits record)
  grouped record member relative := by
    rcases mem_append.mp member with before | new
    · exact admitted.grouped record before relative
    · exact le_trans (length_frame_le new records.length relative) (stagedBy.bytes ▸ stagedBy.grouped)
  bytes := bytes
  count := count
  offsets := by
    rw [length_append, ← add_assoc]
    exact stagedBy.offsets

theorem indexOf_append (first second) (position) : indexOf header position (first ++ second) = indexOf header position first
      ++ indexOf header (position + (first.map Prod.snd).flatten.length) second := by
  induction first generalizing position with
  | nil => rfl
  | cons frame rest ih =>
    simp only [cons_append, indexOf, ih, map_cons, flatten_cons, length_append, add_assoc]
    split_ifs <;> rfl

variable {durability : Durability}

/-- Writing frames behind a segment's records is the segment with those records. -/
theorem write_segmentOf (within : committed ≤ records.length)
    (stagedBy : StagedBy blake header (segmentOf blake tree header sidecar inherited records committed).producers
      records.length staged added) :
    (segmentOf blake tree header sidecar inherited records committed).write tree staged durability
      = segmentOf blake tree header sidecar inherited (records ++ added)
          (durability.covers (records ++ added).length committed) := by
  have frames : encodedFrames blake header 0 (records ++ added)
      = encodedFrames blake header 0 records ++ encodedFrames blake header records.length added := by
    rw [encodedFrames_append, zero_add]
  have bytes : content blake header 0 (records ++ added)
      = content blake header 0 records ++ content blake header records.length added := by
    rw [content_append, zero_add]
  have boundary : (records ++ added).take committed = records.take committed := take_append_of_le_length within
  have next : staged.prospectiveNext = header.baseOffset + (records ++ added).length := by
    rw [stagedBy.next, length_append, add_assoc]
  have size : (content blake header 0 records).length + staged.groupBytes = (content blake header 0 (records ++ added)).length := by
    rw [stagedBy.bytes, bytes, length_append]
  have file : content blake header 0 records ++ (staged.pending.map Prod.snd).flatten
      = content blake header 0 (records ++ added) := by
    rw [stagedBy.pending, bytes]
    rfl
  have count : records.length + staged.pending.length = (records ++ added).length := by
    rw [stagedBy.pending, length_encodedFrames, length_append]
  have producers : (inherited.inheritedStates.rememberAll (recordContentHash blake) header.baseOffset
      records).mergeProducerDeltas staged.deltas
      = inherited.inheritedStates.rememberAll (recordContentHash blake) header.baseOffset (records ++ added) := by
    rw [rememberAll_append]
    exact stagedBy.merged
  have index : indexOf header header.headerLen (encodedFrames blake header 0 records)
      ++ indexOf header (header.headerLen + (content blake header 0 records).length) staged.pending
      = indexOf header header.headerLen (encodedFrames blake header 0 (records ++ added)) := by
    rw [frames, indexOf_append, stagedBy.pending]
    rfl
  have accumulator : (staged.pending.map Prod.snd).foldl (update tree)
      (((encodedFrames blake header 0 records).map Prod.snd).foldl (update tree) (.forHeader header))
      = ((encodedFrames blake header 0 (records ++ added)).map Prod.snd).foldl (update tree) (.forHeader header) := by
    rw [frames, map_append, foldl_append, stagedBy.pending]
  -- Each field is that of the longer segment; only the boundary depends on the durability.
  unfold write
  cases durability with
  | Fsync => simp only [segmentOf, Durability.covers, take_length, next, size, file, count, producers, index, accumulator]
  | Buffered => simp only [segmentOf, Durability.covers, boundary, next, size, file, count, producers, index, accumulator]

/-! ## Where an offset lies -/

/-- An index entry stands at the frame of its offset. -/
theorem mem_indexOf (member : entry ∈ indexOf header position (encodedFrames blake header relative records)) :
    ∃ count < records.length, entry.offset = header.baseOffset + (relative + count) ∧
      entry.position = position + (content blake header relative (records.take count)).length := by
  induction records generalizing relative position with
  | nil => simp [encodedFrames, indexOf] at member
  | cons record rest ih =>
    have later : entry ∈ indexOf header
          (position + (header.format.layout.frame blake record relative).length) (encodedFrames blake header (relative + 1) rest) →
        ∃ count < (record :: rest).length, entry.offset = header.baseOffset + (relative + count) ∧
          entry.position = position + (content blake header relative ((record :: rest).take count)).length := by
      intro member
      obtain ⟨count, below, offset, place⟩ := ih member
      refine ⟨count + 1, by simpa using below, by omega, ?_⟩
      rw [take_succ_cons, content_cons, length_append]
      omega
    rw [encodedFrames, indexOf] at member
    split_ifs at member with indexed
    · rcases mem_cons.mp member with rfl | further
      · exact ⟨0, by simp, rfl, rfl⟩
      · exact later further
    · exact later member

/-- Behind the frames of earlier records the next one's is read. -/
theorem Admitted.readFrame {record} (admitted : Admitted blake header inherited (done ++ record :: rest)) (position torn) :
    header.format.layout.readFrame blake position header.config.maxRecordBytes
        ((content blake header 0 (done ++ record :: rest) ++ torn).drop (content blake header 0 done).length)
      = .ok (.Complete ⟨done.length, record, header.format.layout.frame blake record done.length⟩) := by
  have member : record ∈ done ++ record :: rest := mem_append_right _ mem_cons_self
  have offsets := admitted.offsets
  rw [length_append, length_cons] at offsets
  rw [content_append, append_assoc, drop_left, zero_add, content_cons, append_assoc]
  exact header.format.lawful.readFrame_encode (admitted.typed _ member) (admitted.carried _ member) (by omega)
    (admitted.fits _ member)

/-- Walking over frames reaches the frame of a later offset. -/
theorem walkFrames_segmentOf (admitted : Admitted blake header inherited records) (target) {count}
    (within : count + remaining ≤ records.length) :
    (segmentOf blake tree header sidecar inherited records committed).walkFrames blake target remaining
        (header.baseOffset + count) (header.headerLen + (content blake header 0 (records.take count)).length)
      = .ok (header.headerLen + (content blake header 0 (records.take (count + remaining))).length) := by
  induction remaining generalizing count with
  | zero => rfl
  | succ remaining ih =>
    have more := @ih (count + 1) (by omega)
    -- The walk stands before `record`, behind the frames of `first`.
    obtain ⟨first, record, rest, rfl, rfl⟩ : ∃ first record rest, records = first ++ record :: rest ∧ first.length = count := by
      obtain ⟨record, rest, isRest⟩ : ∃ record rest, records.drop count = record :: rest :=
        exists_cons_of_ne_nil (by rw [ne_eq, drop_eq_nil_iff]; omega)
      exact ⟨records.take count, record, rest, by rw [← isRest, take_append_drop], by rw [length_take]; omega⟩
    have taken : (first ++ record :: rest).take (first.length + 1) = first ++ [record] := by
      rw [take_append, Nat.add_sub_cancel_left, take_of_length_le (Nat.le_succ _)]
      rfl
    rw [taken, content_append, length_append, Nat.zero_add] at more
    have read := admitted.readFrame (header.headerLen + (content blake header 0 first).length) []
    rw [append_nil] at read
    have single : (content blake header first.length [record]).length
        = (header.format.layout.frame blake record first.length).length := by
      rw [content_cons, content, encodedFrames]
      simp
    rw [take_left, walkFrames]
    simp only [segmentOf, Nat.add_sub_cancel_left, read, bind, Except.bind, ne_eq, not_true_eq_false, if_false]
    rw [single] at more
    have order : first.length + (remaining + 1) = first.length + 1 + remaining := by omega
    rw [order, Nat.add_assoc header.baseOffset, Nat.add_assoc header.headerLen]
    exact more

/-- The position of an offset is where its frame begins. -/
theorem positionOfOffset_segmentOf (admitted : Admitted blake header inherited records) {count}
    (within : count ≤ records.length) :
    (segmentOf blake tree header sidecar inherited records committed).positionOfOffset blake (header.baseOffset + count)
      = .ok (header.headerLen + (content blake header 0 (records.take count)).length) := by
  let segment := segmentOf blake tree header sidecar inherited records committed
  unfold positionOfOffset
  by_cases first : count = 0
  · subst first
    exact if_pos (le_refl _)
  · have past : ¬ header.baseOffset + count ≤ header.baseOffset := by omega
    refine (if_neg past).trans ?_
    -- Wherever the walk begins, it begins at a frame.
    have start : ∃ below ≤ count, (segment.index.reverse.find?
          fun entry => entry.offset ≤ header.baseOffset + count).getD ⟨header.baseOffset, header.headerLen⟩
          = ⟨header.baseOffset + below, header.headerLen + (content blake header 0 (records.take below)).length⟩ := by
      cases found : segment.index.reverse.find?
          fun entry => entry.offset ≤ header.baseOffset + count with
      | none => exact ⟨0, Nat.zero_le _, rfl⟩
      | some entry =>
        have indexed := mem_reverse.mp (mem_of_find?_eq_some found)
        have before : entry.offset ≤ header.baseOffset + count := by simpa using find?_some found
        obtain ⟨below, -, offset, place⟩ := mem_indexOf indexed
        refine ⟨below, by omega, ?_⟩
        rw [Option.getD_some, ← place, ← zero_add below, ← offset]
    obtain ⟨below, atMost, isStart⟩ := start
    change segment.walkFrames blake (header.baseOffset + count)
      (header.baseOffset + count - (Option.getD _ (IndexEntry.mk header.baseOffset header.headerLen)).offset)
      (Option.getD _ (IndexEntry.mk header.baseOffset header.headerLen)).offset
      (Option.getD _ (IndexEntry.mk header.baseOffset header.headerLen)).position = _
    have reaches : below + (count - below) = count := by omega
    rw [isStart, Nat.add_sub_add_left, walkFrames_segmentOf admitted _ (by omega), reaches]

/-! ## The scan of the file -/

variable [DecidableEq η]

theorem scanFrame_admitted {record} (admitted : Admitted blake header inherited (done ++ record :: rest))
    (reaches : header.headerLen + (content blake header 0 (done ++ record :: rest)).length ≤ fileLen) :
    scanFrame blake tree header fileLen ((start header inherited).addAll blake tree header done)
        ⟨done.length, record, header.format.layout.frame blake record done.length⟩
      = .ok ((start header inherited).addAll blake tree header (done ++ [record])) := by
  have bytes := admitted.bytes
  have count := admitted.count
  have offsets := admitted.offsets
  have next := (allNext_append.mp admitted.next).2.1
  rw [content_append, content_cons, length_append, length_append, zero_add] at reaches bytes
  rw [length_append, length_cons] at count offsets
  have state : (start header inherited).addAll blake tree header done = _ := addAll_start done
  have added : (start header inherited).addAll blake tree header (done ++ [record])
      = ((start header inherited).addAll blake tree header done).add blake tree header record
          (header.format.layout.frame blake record done.length) := by
    rw [addAll_append, state]
    rfl
  rw [added, state]
  unfold scanFrame
  dsimp only
  rw [if_neg (by omega), if_neg (by omega), if_neg (by omega), if_neg (by simp), validateSequence_eq_append.mpr next]
  dsimp only
  rw [if_neg (by omega)]

/-- From records that are scanned, the loop goes through the ones that follow to the end of the scan. -/
theorem scanLoop_admitted (admitted : Admitted blake header inherited (done ++ rest)) (enough : rest.length < rounds) :
    scanLoop blake tree header (content blake header 0 (done ++ rest) ++ torn)
        (header.headerLen + (content blake header 0 (done ++ rest)).length) permit rounds
        ((start header inherited).addAll blake tree header done)
      = .ok ((start header inherited).addAll blake tree header (done ++ rest)) := by
  induction rest generalizing done rounds with
  | nil =>
    obtain ⟨rounds, rfl⟩ : ∃ fewer, rounds = fewer + 1 := ⟨rounds - 1, by simp at enough; omega⟩
    have state : (start header inherited).addAll blake tree header done = _ := addAll_start done
    rw [append_nil, scanLoop, state]
    exact if_pos rfl
  | cons record rest ih =>
    obtain ⟨rounds, rfl⟩ : ∃ fewer, rounds = fewer + 1 := ⟨rounds - 1, by simp at enough; omega⟩
    have admitted' : Admitted blake header inherited ((done ++ [record]) ++ rest) := by rwa [append_assoc, singleton_append]
    have more := @ih (done ++ [record]) rounds admitted' (by simpa using enough)
    rw [append_assoc, singleton_append] at more
    have state : (start header inherited).addAll blake tree header done = _ := addAll_start done
    have validEnd : ((start header inherited).addAll blake tree header done).validEnd
        = header.headerLen + (content blake header 0 done).length := by rw [state]
    have split : content blake header 0 (done ++ record :: rest) = content blake header 0 done
        ++ (header.format.layout.frame blake record done.length ++ content blake header (done.length + 1) rest) := by
      rw [content_append, content_cons, zero_add]
    have frame : (header.format.layout.frame blake record done.length).length = _ := header.format.lawful.length_frame
    have length : (content blake header 0 (done ++ record :: rest)).length = (content blake header 0 done).length
        + (FRAME_PREFIX_LEN + header.format.layout.fixedBodyLen + FrameLayout.payloadLen record
          + (content blake header (done.length + 1) rest).length) := by
      rw [split, length_append, length_append, frame]
    have positive : 0 < FRAME_PREFIX_LEN := by decide
    -- Where the scan stands, the next record's frame begins.
    rw [scanLoop, validEnd, if_neg (by omega), if_neg (by omega), Nat.add_sub_cancel_left, admitted.readFrame]
    simp only [bind, Except.bind, scanFrame_admitted admitted (le_refl _)]
    exact more

/-- Scanning the frames of records yields what appending them one by one keeps, whatever bytes follow them. -/
theorem scanRecords_content (admitted : Admitted blake header inherited records) (torn permit) :
    scanRecords blake tree header (content blake header 0 records ++ torn)
        (some (header.headerLen + (content blake header 0 records).length)) permit inherited
      = .ok ((start header inherited).addAll blake tree header records) := by
  have enough : records.length < (content blake header 0 records ++ torn).length + 1 := by
    have bound : records.length ≤ (content blake header 0 records).length := length_content 0 records
    rw [length_append]
    omega
  unfold scanRecords
  dsimp only [Option.getD_some]
  rw [if_neg (by rw [length_append]; omega)]
  have loop : scanLoop blake tree header (content blake header 0 ([] ++ records) ++ torn) _ permit _
      ((start header inherited).addAll blake tree header []) = _ := scanLoop_admitted admitted enough
  exact loop

/-- Recovery yields the segment that holds the records below the boundary, whatever bytes lie behind it. -/
theorem recoverIn_segmentOf (admitted : Admitted blake header inherited records)
    (readable : readProducerSnapshot sidecar = .ok inherited) (torn) :
    recoverIn blake tree header (content blake header 0 records ++ torn)
        ⟨header.segmentId, header.baseOffset + records.length, (content blake header 0 records).length⟩ sidecar
      = .ok (segmentOf blake tree header sidecar inherited records records.length) := by
  have scanned : scanRecords blake tree header (content blake header 0 records ++ torn)
      (some (header.headerLen + (content blake header 0 records).length)) false inherited = _ :=
    scanRecords_content admitted torn false
  rw [addAll_start] at scanned
  unfold recoverIn inspectActiveFile
  have reaches : ¬ header.headerLen + (content blake header 0 records ++ torn).length
      < header.headerLen + (content blake header 0 records).length := by
    rw [length_append]
    omega
  simp only [readable, bind, Except.bind, ne_eq, not_true_eq_false, if_false, reaches, scanned, or_self,
    pure, Except.pure, Nat.add_sub_cancel_left, take_left, segmentOf, take_length]

/-! ## Appending -/

/-- The records of a group that were new. -/
def appendedRecords (group : List IncomingRecord) (outcomes : List AppendOutcome) : List IncomingRecord :=
  (group.zip outcomes).filterMap fun pair =>
    match pair.2 with
    | .Appended _ => some pair.1
    | .Duplicate _ => none

variable {incoming : IncomingRecord} {segment : ActiveSegment η}

theorem StagedBy.stage (spanned : segment.producers.Spanned)
    (stagedBy : StagedBy blake segment.header segment.producers relative staged added)
    (ok : segment.stage blake staged incoming = .ok staged') :
    (∃ offset, staged'.outcomes = staged.outcomes ++ [.Duplicate offset] ∧
        StagedBy blake segment.header segment.producers relative staged' added) ∨
      ∃ offset, staged'.outcomes = staged.outcomes ++ [.Appended offset] ∧
        StagedBy blake segment.header segment.producers relative staged' (added ++ [incoming.record]) := by
  unfold ActiveSegment.stage at ok
  cases decided : segment.producers.validateSequenceWithDelta staged.deltas incoming.record
      (recordContentHash blake incoming.record) with
  | error problem => simp [decided] at ok
  | ok decision =>
    simp only [decided] at ok
    have decided := stagedBy.deltas.validate decided
    cases decision with
    | Duplicate offset =>
      cases ok
      exact .inl ⟨offset, rfl, { stagedBy with }⟩
    | Append =>
      -- The decision holds over the log and the group together, which is what the record has to follow.
      have next := Producers.validateSequence_eq_append.mp decided
      dsimp only at ok
      split_ifs at ok with exhausted
      cases encoding : segment.header.format.layout.encodeRecord blake incoming.record
          (staged.prospectiveNext - segment.header.baseOffset) segment.header.config.maxRecordBytes with
      | error problem => simp [encoding] at ok
      | ok encoded =>
        simp only [encoding] at ok
        split_ifs at ok with large
        cases ok
        obtain ⟨fits, rfl⟩ := FrameLayout.encodeRecord_eq_ok.mp encoding
        have place : staged.prospectiveNext - segment.header.baseOffset = relative + added.length := by
          rw [stagedBy.next]
          omega
        refine .inr ⟨_, rfl, ?_⟩
        constructor
        case pending =>
          rw [encodedFrames_append, stagedBy.pending, place]
          simp only [encodedFrames, stagedBy.next, add_assoc]
        case next =>
          rw [stagedBy.next, length_append]
          rfl
        case merged =>
          show segment.producers.mergeProducerDeltas (staged.deltas.rememberSequence _ _ _) = _
          rw [stagedBy.deltas.merge_remember spanned next, stagedBy.merged, Producers.rememberAll_append, stagedBy.next]
          rfl
        case deltas => exact stagedBy.deltas.remember spanned next _ _
        case allNext =>
          rw [Producers.allNext_append, ← stagedBy.merged]
          exact ⟨stagedBy.allNext, next, trivial⟩
        case fits =>
          intro record member
          rcases mem_append.mp member with before | last
          · exact stagedBy.fits record before
          · exact mem_singleton.mp last ▸ fits
        case bytes =>
          rw [content_append, length_append, ← stagedBy.bytes, place]
          simp [content, encodedFrames]
        case grouped => exact not_lt.mp large
        case offsets =>
          rw [length_append, length_singleton, ← add_assoc, ← stagedBy.next]
          exact not_le.mp exhausted

variable {outcomes : List AppendOutcome}

theorem mem_appendedRecords (member : incoming ∈ appendedRecords group outcomes) : incoming ∈ group := by
  obtain ⟨pair, isPair, found⟩ := mem_filterMap.mp member
  have fromGroup := (of_mem_zip isPair).1
  cases outcome : pair.2 with
  | Appended offset =>
    rw [outcome, Option.some.injEq] at found
    exact found ▸ fromGroup
  | Duplicate offset => simp [outcome] at found

/-- What a whole group has added, and how its outcomes tell which records were new. -/
theorem StagedBy.group {group : List IncomingRecord} (spanned : segment.producers.Spanned)
    (stagedBy : StagedBy blake segment.header segment.producers relative staged added)
    (ok : group.foldlM (segment.stage blake) staged = .ok staged') :
    ∃ outcomes, staged'.outcomes = staged.outcomes ++ outcomes ∧ outcomes.length = group.length ∧
      StagedBy blake segment.header segment.producers relative staged'
        (added ++ (appendedRecords group outcomes).map record) := by
  induction group generalizing staged added with
  | nil =>
    cases ok
    exact ⟨[], by simp, rfl, by simpa [appendedRecords] using stagedBy⟩
  | cons incoming rest ih =>
    rw [foldlM_cons] at ok
    obtain ⟨middle, first, later⟩ := Parser.bind_eq_ok.mp ok
    rcases stagedBy.stage spanned first with ⟨offset, outcome, duplicate⟩ | ⟨offset, outcome, appended⟩
    · obtain ⟨outcomes, more, length, by'⟩ := ih duplicate later
      refine ⟨.Duplicate offset :: outcomes, by rw [more, outcome]; simp, by simp [length], ?_⟩
      exact by'
    · obtain ⟨outcomes, more, length, by'⟩ := ih appended later
      refine ⟨.Appended offset :: outcomes, by rw [more, outcome]; simp, by simp [length], ?_⟩
      rw [append_assoc] at by'
      exact by'

variable {after : ActiveSegment η}

/-- The ways a group is accepted. -/
theorem appendGroup_eq_ok (ok : segment.appendGroup blake tree group durability = .ok (after, outcomes)) :
    group.findSome? (unsupportedField segment.header) = none ∧
      ∃ staged, group.foldlM (segment.stage blake) ⟨.empty, segment.nextOffset, [], [], 0⟩ = .ok staged ∧
        outcomes = staged.outcomes ∧
        ((staged.pending = [] ∧ after = segment.settle durability) ∨
          segment.contentBytes + staged.groupBytes ≤ segment.header.config.maxSegmentBytes ∧
            segment.recordCount + staged.pending.length ≤ segment.header.config.maxSegmentRecords ∧
            after = segment.write tree staged durability) := by
  unfold appendGroup at ok
  cases unsupported : group.findSome? (unsupportedField segment.header) with
  | some field => simp [unsupported, bind, Except.bind, throw, throwThe, MonadExceptOf.throw] at ok
  | none =>
    cases folded : group.foldlM (segment.stage blake) ⟨.empty, segment.nextOffset, [], [], 0⟩ with
    | error problem => simp [unsupported, folded, bind, Except.bind] at ok
    | ok staged =>
      simp only [unsupported, folded, bind, Except.bind, pure, Except.pure, throw, throwThe, MonadExceptOf.throw] at ok
      refine ⟨rfl, staged, rfl, ?_⟩
      split_ifs at ok with none tooLong tooMany
      · obtain ⟨rfl, rfl⟩ := Prod.mk.inj (Except.ok.inj ok)
        exact ⟨rfl, .inl ⟨isEmpty_iff.mp none, rfl⟩⟩
      · cases ok
        exact ⟨rfl, .inr ⟨not_lt.mp tooLong, not_lt.mp tooMany, rfl⟩⟩

/-- A group that is staged and fits in the segment is written. -/
theorem appendGroup_of_staged (supported : group.findSome? (unsupportedField segment.header) = none)
    (folded : group.foldlM (segment.stage blake) ⟨.empty, segment.nextOffset, [], [], 0⟩ = .ok staged)
    (some : staged.pending ≠ []) (short : segment.contentBytes + staged.groupBytes ≤ segment.header.config.maxSegmentBytes)
    (few : segment.recordCount + staged.pending.length ≤ segment.header.config.maxSegmentRecords) :
    segment.appendGroup blake tree group durability = .ok (segment.write tree staged durability, staged.outcomes) := by
  unfold appendGroup
  simp only [supported, folded, bind, Except.bind, pure, Except.pure, List.isEmpty_iff, some, if_false,
    not_lt.mpr short, not_lt.mpr few]

theorem carries_of_supported
    (supported : unsupportedField header incoming = none) : header.format.Carries incoming.record := by
  unfold unsupportedField at supported
  cases format : header.format with
  | V1 =>
    split_ifs at supported with epoch
    have zero : incoming.record.producerEpoch = 0 := by simpa [format] using epoch
    exact zero
  | V2 => trivial

/-- An accepted group leaves the segment that holds its new records too. -/
theorem appendGroup_segmentOf (admitted : Admitted blake header inherited records)
    (spanned : inherited.inheritedStates.Spanned) (within : committed ≤ records.length)
    (ok : (segmentOf blake tree header sidecar inherited records committed).appendGroup blake tree group durability
      = .ok (after, outcomes)) :
    Admitted blake header inherited (records ++ (appendedRecords group outcomes).map record) ∧
      after = segmentOf blake tree header sidecar inherited (records ++ (appendedRecords group outcomes).map record)
        (durability.covers (records ++ (appendedRecords group outcomes).map IncomingRecord.record).length committed) := by
  obtain ⟨supported, staged, folded, rfl, result⟩ := appendGroup_eq_ok ok
  have spannedNow : (segmentOf blake tree header sidecar inherited records committed).producers.Spanned :=
    Producers.Spanned.rememberAll spanned admitted.next
  obtain ⟨outcomes, same, -, stagedBy⟩ := StagedBy.group spannedNow (.start admitted _) folded
  rw [nil_append] at same stagedBy
  have fromGroup : ∀ record ∈ (appendedRecords group outcomes).map IncomingRecord.record,
      record.Typed ∧ header.format.Carries record := by
    intro record member
    obtain ⟨incoming, appended, rfl⟩ := mem_map.mp member
    exact ⟨incoming.typed, carries_of_supported (findSome?_eq_none_iff.mp supported incoming (mem_appendedRecords appended))⟩
  rw [same]
  generalize (appendedRecords group outcomes).map record = added at stagedBy fromGroup ⊢
  have stagedBy : StagedBy blake header (segmentOf blake tree header sidecar inherited records committed).producers
      records.length staged added := stagedBy
  rcases result with ⟨none, rfl⟩ | ⟨shortEnough, fewEnough, rfl⟩
  · obtain rfl : added = [] := by
      have := stagedBy.pending
      rw [none] at this
      cases added with
      | nil => rfl
      | cons => cases this
    rw [append_nil]
    refine ⟨admitted, ?_⟩
    cases durability with
    | Fsync => exact commit_segmentOf
    | Buffered => rfl
  · refine ⟨admitted.append stagedBy (fun record member => (fromGroup record member).1)
      (fun record member => (fromGroup record member).2) ?_ ?_, write_segmentOf within stagedBy⟩
    · rw [content_append, length_append, zero_add, ← stagedBy.bytes]
      exact shortEnough
    · rw [stagedBy.pending, length_encodedFrames] at fewEnough
      rw [length_append]
      exact fewEnough

/-- A new record that fits is staged at the group's next offset. -/
theorem stage_append (place : staged.prospectiveNext = segment.header.baseOffset + relative)
    (decided : segment.producers.validateSequenceWithDelta staged.deltas incoming.record
      (recordContentHash blake incoming.record) = .ok .Append)
    (room : staged.prospectiveNext + 1 < UInt64.size)
    (fits : segment.header.format.layout.Fits segment.header.config.maxRecordBytes incoming.record)
    (grouped : staged.groupBytes + (segment.header.format.layout.frame blake incoming.record relative).length
      ≤ segment.header.config.maxGroupBytes) :
    segment.stage blake staged incoming = .ok
      { deltas := staged.deltas.rememberPendingSequence incoming.record staged.prospectiveNext
          (recordContentHash blake incoming.record)
        prospectiveNext := staged.prospectiveNext + 1
        outcomes := staged.outcomes ++ [.Appended staged.prospectiveNext]
        pending := staged.pending
          ++ [(staged.prospectiveNext, segment.header.format.layout.frame blake incoming.record relative)]
        groupBytes := staged.groupBytes + (segment.header.format.layout.frame blake incoming.record relative).length } := by
  have encoding : segment.header.format.layout.encodeRecord blake incoming.record
      (staged.prospectiveNext - segment.header.baseOffset) segment.header.config.maxRecordBytes
      = .ok (segment.header.format.layout.frame blake incoming.record relative) := by
    rw [place, Nat.add_sub_cancel_left]
    exact FrameLayout.encodeRecord_eq_ok.mpr ⟨fits, rfl⟩
  unfold stage
  simp only [decided, encoding, not_le.mpr room, not_lt.mpr grouped, if_false]

/-- A record that may follow is appended as a group of its own. -/
theorem appendGroup_single (spanned : inherited.inheritedStates.Spanned)
    (admitted : Admitted blake header inherited (records ++ [incoming.record]))
    (supported : unsupportedField header incoming = none) (within : committed ≤ records.length) (durability) :
    (segmentOf blake tree header sidecar inherited records committed).appendGroup blake tree [incoming] durability
      = .ok (segmentOf blake tree header sidecar inherited (records ++ [incoming.record])
            (durability.covers (records ++ [incoming.record]).length committed),
          [.Appended (header.baseOffset + records.length)]) := by
  let segment := segmentOf blake tree header sidecar inherited records committed
  have before := admitted.of_append
  have inRecords : incoming.record ∈ records ++ [incoming.record] := mem_append_right _ mem_cons_self
  have bytes := admitted.bytes
  have count := admitted.count
  have offsets := admitted.offsets
  rw [content_append, length_append, zero_add, content_cons, length_append] at bytes
  rw [length_append, length_singleton] at count offsets
  have grouped := admitted.grouped _ inRecords records.length
  have next := (allNext_append.mp admitted.next).2.1
  obtain ⟨staged, stages, pending, outcomes, size⟩ : ∃ staged, segment.stage blake
        ⟨.empty, header.baseOffset + records.length, [], [], 0⟩ incoming = .ok staged ∧ staged.pending.length = 1 ∧
      staged.outcomes = [.Appended (header.baseOffset + records.length)] ∧
      staged.groupBytes = (header.format.layout.frame blake incoming.record records.length).length :=
    ⟨_, stage_append rfl (validateSequence_eq_append.mpr next) (by simpa [add_assoc] using offsets) (admitted.fits _ inRecords)
      (le_trans (le_of_eq (zero_add _)) grouped), rfl, rfl, zero_add _⟩
  have stagedBy : StagedBy blake header segment.producers records.length staged [incoming.record] := by
    rcases (StagedBy.start before _).stage (Spanned.rememberAll spanned before.next) stages with
      ⟨offset, duplicate, -⟩ | ⟨offset, -, appended⟩
    · rw [outcomes] at duplicate
      cases duplicate
    · exact appended
  have written : segment.write tree staged durability = _ := write_segmentOf within stagedBy
  rw [← written, ← outcomes]
  have folded : [incoming].foldlM (segment.stage blake)
      ⟨.empty, header.baseOffset + records.length, [], [], 0⟩ = .ok staged := by
    rw [foldlM_cons, stages]
    rfl
  have allSupported : [incoming].findSome? (unsupportedField header) = none := by simpa using supported
  refine appendGroup_of_staged allSupported folded (fun none => by simp [none] at pending) ?_ ?_
  · show (content blake header 0 records).length + staged.groupBytes ≤ header.config.maxSegmentBytes
    omega
  · show records.length + staged.pending.length ≤ header.config.maxSegmentRecords
    omega

/-! ## Truncating -/

/-- Truncating inside the segment leaves the segment that holds the records below the cut. -/
theorem truncateTo_segmentOf (admitted : Admitted blake header inherited records) {count} (within : count < records.length) :
    (segmentOf blake tree header sidecar inherited records committed).truncateTo blake tree (header.baseOffset + count)
      = .ok (segmentOf blake tree header sidecar inherited (records.take count) count, ⟨records.length - count,
            (content blake header 0 records).length - (content blake header 0 (records.take count)).length,
            header.baseOffset + count⟩) := by
  have length : (records.take count).length = count := by
    rw [length_take]
    omega
  have file : (content blake header 0 records).take (content blake header 0 (records.take count)).length
      = content blake header 0 (records.take count) := by
    have split : content blake header 0 (records.take count ++ records.drop count) = _ := content_append
    rw [take_append_drop] at split
    rw [split, take_left]
  have scanned : scanRecords blake tree header (content blake header 0 (records.take count) ++ [])
      (some (header.headerLen + (content blake header 0 (records.take count)).length)) false inherited = _ :=
    scanRecords_content (admitted.take count) [] false
  rw [append_nil, addAll_start, length] at scanned
  have position : (segmentOf blake tree header sidecar inherited records committed).positionOfOffset blake
      (header.baseOffset + count) = _ := positionOfOffset_segmentOf admitted (Nat.le_of_lt within)
  have notBeyond : ¬ header.baseOffset + records.length < header.baseOffset + count := by omega
  have notBefore : ¬ header.baseOffset + count < header.baseOffset := by omega
  have notAtEnd : ¬ header.baseOffset + count = header.baseOffset + records.length := by omega
  have whole : (records.take count).take count = records.take count := by rw [take_take, Nat.min_self]
  unfold truncateTo
  rw [position]
  simp only [segmentOf, bind, Except.bind, pure, Except.pure, notBeyond, notBefore, notAtEnd, if_false, file, scanned,
    Nat.add_sub_add_left, whole, length, Nat.add_sub_cancel_left, ne_eq, not_true_eq_false]

end VtopEngine.Log
