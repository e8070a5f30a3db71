import VtopEngine.Broker.Follower
import VtopEngine.Broker.LocalBroker
import VtopEngine.Log.Fetch

/-! # Serving consumers

The two fetch surfaces of a range: the broker's wire handler (`lib.rs`) and the
follower's (`replication/mod.rs`).  Both refetch a single record when the byte budget
excludes even the first one, and both hide the promotion markers.

* `LocalBroker.fetch`, `InProcessFollower.fetch` — the surfaces.
* `follow` — a consumer that asks again at the next offset it was given.
* `consumers_see_each_record_once` — it reaches the high-water mark, and what it was
  given is every visible record below it, once and in order.
-/

namespace VtopEngine.Broker

open Log InProcessFollower LocalBroker

/-- What a session may do. -/
inductive SessionRole
  | Producer | Consumer | Peer | Administrator
  deriving DecidableEq, Repr

structure FetchRequest where
  range : RangeIdentity
  (fencingEpoch startOffset maxBytes maxRecords : Nat)
  deriving DecidableEq, Repr

/-- A record as the wire carries it. -/
structure WireRecord where
  offset : Nat
  timestampMillis : Int
  (key value : List UInt8)
  deriving DecidableEq, Repr

structure FetchResponse where
  records : List WireRecord
  (nextOffset committedHighWatermark : Nat)
  deriving DecidableEq, Repr

/-- Whether a record belongs to the consumer's view of the log. -/
def consumerVisible (record : LogRecord) : Bool := record.producerId ≠ PROMOTION_MARKER_PRODUCER

/-- `usize::MAX`. -/
def USIZE_MAX : Nat := UInt64.size - 1

/-- A fetch that refetches exactly one record if the byte budget excluded even the first. -/
def fetchProgressing (framing : Framing) (segment : SegmentSet) (startOffset maxBytes maxRecords highWatermark : Nat) :
    Except FetchError FetchBatch :=
  match segment.fetchThrough framing startOffset maxBytes maxRecords highWatermark with
  | .error problem => .error problem
  | .ok batch =>
    if batch.records.isEmpty ∧ batch.nextOffset = startOffset ∧ batch.nextOffset < batch.highWatermark then
      segment.fetchThrough framing startOffset USIZE_MAX 1 highWatermark
    else .ok batch

namespace LocalBroker

/-- What consumers may read up to: the cluster's mark if there is one, and never more than is durable here. -/
def fetchHwm (replica : Replica) : Nat :=
  if replica.replicated then min replica.clusterCommitted replica.segment.committedOffset
  else replica.segment.committedOffset

def fetchErrorCode : FetchError → ErrorCode
  | .OffsetBelowRange .. => .OffsetRetained
  | _ => .Storage

def toWire (fetched : FetchedRecord) : WireRecord :=
  { offset := fetched.offset, timestampMillis := fetched.record.timestampMillis, key := fetched.record.key
    value := fetched.record.value }

/-- The broker's answer to a fetch request. -/
def fetch (framing : Framing) (replica : Replica) (boundaryPending : Bool) (role : SessionRole) (request : FetchRequest) :
    Except (ErrorCode × String) FetchResponse :=
  if role ≠ .Consumer then .error (.Unauthorized, "session role cannot fetch")
  else if request.maxBytes = 0 ∨ request.maxRecords = 0 then .error (.InvalidRequest, "fetch limits must be non-zero")
  else
    match checkRange replica request.range request.fencingEpoch with
    | .error refusal => .error refusal
    | .ok () =>
      if boundaryPending then
        .error (.Overloaded, "promotion boundary not yet proven: this epoch's marker awaits a quorum; retry")
      else
        match fetchProgressing framing replica.segment request.startOffset request.maxBytes request.maxRecords
            (fetchHwm replica) with
        | .error problem => .error (fetchErrorCode problem, problem.text)
        | .ok batch =>
          .ok
            { records := (batch.records.filter fun fetched => consumerVisible fetched.record).map toWire
              nextOffset := batch.nextOffset
              committedHighWatermark := batch.highWatermark }

end LocalBroker

namespace InProcessFollower

def checkFollowerLease (replica : Replica) : Except BrokerError Unit :=
  if replica.metaFencingEpoch.leaseActive = false ∨ replica.metaFencingEpoch.fencingEpoch ≠ replica.heldFencingEpoch then
    .error (.InvalidConfig (.text "follower lease is inactive or fenced by a newer metadata grant"))
  else .ok ()

/-- The part of a fetch under the log's lock: read below a mark, and hide the markers. -/
def fetchBelow (framing : Framing) (replica : Replica) (startOffset maxBytes maxRecords highWatermark : Nat) :
    Except BrokerError FetchBatch :=
  match fetchProgressing framing replica.segment startOffset maxBytes maxRecords highWatermark with
  | .error problem => .error (.InvalidConfig (.text problem.text))
  | .ok batch => .ok { batch with records := batch.records.filter fun fetched => consumerVisible fetched.record }

/-- The follower's own fetch, capped at its cluster mark. -/
def fetch (framing : Framing) (replica : Replica) (startOffset maxBytes maxRecords : Nat) : Except BrokerError FetchBatch :=
  match checkFollowerLease replica with
  | .error problem => .error problem
  | .ok () => fetchBelow framing replica startOffset maxBytes maxRecords replica.clusterCommitted

end InProcessFollower

/-! ## One fetch -/

variable {startOffset maxBytes maxRecords highWatermark : Nat} {fetched : FetchedRecord} {batch : FetchBatch} {framing : Framing}

theorem fetchProgressing_below {segment}
    (isOk : fetchProgressing framing segment startOffset maxBytes maxRecords highWatermark = .ok batch)
    (member : fetched ∈ batch.records) : fetched.offset < min highWatermark segment.committedOffset := by
  unfold fetchProgressing at isOk
  split at isOk
  · cases isOk
  case h_2 first isFirst =>
    split at isOk
    · exact fetchThrough_below isOk member
    · obtain rfl := Except.ok.inj isOk
      exact fetchThrough_below isFirst member

/-- A follower reads below the mark it was given and below its durable frontier. -/
theorem InProcessFollower.fetchBelow_below
    (isOk : fetchBelow framing replica startOffset maxBytes maxRecords highWatermark = .ok batch)
    (member : fetched ∈ batch.records) : fetched.offset < min highWatermark replica.segment.committedOffset := by
  unfold fetchBelow at isOk
  split at isOk
  · cases isOk
  case h_2 read isRead =>
    obtain rfl := Except.ok.inj isOk
    exact fetchProgressing_below isRead (List.mem_of_mem_filter member)

/-- The records a consumer sees between two offsets. -/
def visibleBetween (records : List LogRecord) (first last : Nat) : List FetchedRecord :=
  (recordsBetween records first last).filter fun fetched => consumerVisible fetched.record

theorem visibleBetween_append {records : List LogRecord} (ordered : first ≤ middle)
    (within : middle ≤ last) (bound : middle ≤ records.length) :
    visibleBetween records first middle ++ visibleBetween records middle last = visibleBetween records first last := by
  unfold visibleBetween
  rw [← List.filter_append, recordsBetween_append ordered within bound]

/-- A range whose records all fit a frame, as encoding demands, and how its files frame them. -/
structure StoredRange where
  replica : Replica
  framing : Framing
  encodable : ∀ record ∈ replica.segment.records, framing.encodedLen record ≤ USIZE_MAX

section Progress

variable {range : StoredRange} {startOffset maxBytes maxRecords highWatermark : Nat}

/-- A fetch below the mark answers with the records up to an offset further on. -/
theorem fetchProgressing_moves (reaches : range.replica.segment.baseOffset ≤ startOffset)
    (upto : startOffset ≤ min highWatermark range.replica.segment.committedOffset) :
    ∃ batch, fetchProgressing range.framing range.replica.segment startOffset maxBytes maxRecords highWatermark = .ok batch ∧
      startOffset ≤ batch.nextOffset ∧ batch.nextOffset ≤ min highWatermark range.replica.segment.committedOffset ∧
      (startOffset < min highWatermark range.replica.segment.committedOffset → startOffset < batch.nextOffset) ∧
      batch.records = recordsBetween range.replica.segment.records startOffset batch.nextOffset ∧
      batch.highWatermark = min highWatermark range.replica.segment.committedOffset := by
  obtain ⟨batch, isOk, reads⟩ := @fetchThrough_reads range.framing range.replica.segment maxBytes maxRecords highWatermark
    startOffset reaches upto
  have started := reads.reached
  simp only [fetchProgressing, isOk]
  split
  case isTrue stuck =>
    obtain ⟨-, atStart, below⟩ := stuck
    obtain ⟨single, isSingle, readsSingle⟩ := @fetchThrough_reads range.framing range.replica.segment USIZE_MAX 1
      highWatermark startOffset reaches upto
    refine ⟨single, isSingle, readsSingle.reached, readsSingle.bounded, fun _ => ?_, readsSingle.records, readsSingle.mark⟩
    refine Nat.lt_of_le_of_ne readsSingle.reached fun stays => ?_
    -- A budget of one record without a byte limit fits the record that is there.
    rcases readsSingle.moves stays.symm with done | none | ⟨record, found, oversize⟩
    · omega
    · cases none
    · have fits := range.encodable record (List.mem_of_getElem? found)
      omega
  case isFalse moved =>
    refine ⟨batch, rfl, started, reads.bounded, fun below => ?_, reads.records, reads.mark⟩
    refine Nat.lt_of_le_of_ne started fun stays => moved ⟨?_, stays.symm, by rw [reads.mark]; omega⟩
    rw [reads.records, ← stays, recordsBetween_self]
    rfl

end Progress

/-! ## Following the next offset -/

/-- What a fetch gives a consumer: the records it sees, and where it goes on. -/
structure Delivery (ρ : Type) where
  records : List ρ
  nextOffset : Nat

/-- A consumer that fetches a number of times, each time from the next offset it was given; `none` if a fetch was
refused. -/
def follow {ρ : Type} (fetch : Nat → Option (Delivery ρ)) : Nat → Nat → Option (Delivery ρ)
  | 0, startOffset => some ⟨[], startOffset⟩
  | fetches + 1, startOffset =>
    match fetch startOffset with
    | none => none
    | some delivered =>
      (follow fetch fetches delivered.nextOffset).map fun rest => ⟨delivered.records ++ rest.records, rest.nextOffset⟩

/-- Every fetch of a range up to a mark: it is answered, it moves unless it is at the mark, and it brings what is
visible on the way. -/
def Delivers {ρ : Type} (fetch : Nat → Option (Delivery ρ)) (view : FetchedRecord → ρ) (records : List LogRecord)
    (baseOffset highWatermark : Nat) : Prop :=
  ∀ cursor, baseOffset ≤ cursor → cursor ≤ highWatermark → ∃ delivered, fetch cursor = some delivered ∧
    cursor ≤ delivered.nextOffset ∧ delivered.nextOffset ≤ highWatermark ∧
    (cursor < highWatermark → cursor < delivered.nextOffset) ∧
    delivered.records = (visibleBetween records cursor delivered.nextOffset).map view

/-- A consumer that is always answered and moved on reaches the mark, and has seen everything visible up to it. -/
theorem Delivers.follow {ρ : Type} {fetch : Nat → Option (Delivery ρ)} {view : FetchedRecord → ρ}
    {records : List LogRecord} {baseOffset highWatermark startOffset : Nat}
    (delivers : Delivers fetch view records baseOffset highWatermark) (within : highWatermark ≤ records.length)
    (reaches : baseOffset ≤ startOffset) (upto : startOffset ≤ highWatermark) :
    ∃ fetches ≤ highWatermark - startOffset, Broker.follow fetch fetches startOffset
      = some ⟨(visibleBetween records startOffset highWatermark).map view, highWatermark⟩ := by
  induction distance : highWatermark - startOffset using Nat.strong_induction_on generalizing startOffset with
  | _ distance ih =>
    rcases Nat.lt_or_eq_of_le upto with below | rfl
    · obtain ⟨delivered, isDelivered, reached, bounded, moves, isRecords⟩ := delivers startOffset reaches upto
      have moved := moves below
      obtain ⟨fetches, few, follows⟩ := ih (highWatermark - delivered.nextOffset) (by omega)
        (Nat.le_trans reaches reached) bounded rfl
      refine ⟨fetches + 1, by omega, ?_⟩
      simp only [Broker.follow, isDelivered, follows, Option.map_some, isRecords]
      rw [← List.map_append, visibleBetween_append reached bounded (Nat.le_trans bounded within)]
    · refine ⟨0, Nat.zero_le _, ?_⟩
      simp [Broker.follow, visibleBetween, recordsBetween_self]

/-- Every visible record of a stretch, once and in order, and nothing else. -/
structure SeesEachOnce (records : List LogRecord) (first last : Nat) (seen : List FetchedRecord) : Prop where
  ordered : seen.Pairwise fun earlier later => earlier.offset < later.offset
  exactly : ∀ fetched, fetched ∈ seen ↔ first ≤ fetched.offset ∧ fetched.offset < last ∧
    records[fetched.offset]? = some fetched.record ∧ consumerVisible fetched.record = true

theorem visibleBetween_sees (records : List LogRecord) (first last : Nat) :
    SeesEachOnce records first last (visibleBetween records first last) where
  ordered := (recordsBetween_ordered records first last).filter _
  exactly fetched := by rw [visibleBetween, List.mem_filter, mem_recordsBetween, and_assoc, and_assoc]

/-- The broker's surface, as a consumer with fixed limits uses it. -/
def LocalBroker.deliver (range : StoredRange) (request : FetchRequest) (cursor : Nat) : Option (Delivery WireRecord) :=
  match fetch range.framing range.replica false .Consumer { request with startOffset := cursor } with
  | .ok response => some ⟨response.records, response.nextOffset⟩
  | .error _ => none

/-- The follower's surface. -/
def InProcessFollower.deliver (range : StoredRange) (maxBytes maxRecords cursor : Nat) : Option (Delivery FetchedRecord) :=
  match fetch range.framing range.replica cursor maxBytes maxRecords with
  | .ok batch => some ⟨batch.records, batch.nextOffset⟩
  | .error _ => none

theorem LocalBroker.fetchHwm_le (replica) : fetchHwm replica ≤ replica.segment.committedOffset := by
  unfold fetchHwm
  split
  · exact Nat.min_le_right _ _
  · exact Nat.le_refl _

theorem LocalBroker.delivers {range : StoredRange} {request : FetchRequest} (bytes : 0 < request.maxBytes)
    (some : 0 < request.maxRecords)
    (current : checkRange range.replica request.range request.fencingEpoch = .ok ()) :
    Delivers (deliver range request) toWire range.replica.segment.records
      range.replica.segment.baseOffset (fetchHwm range.replica) := by
  intro cursor reaches upto
  have mark := Nat.min_eq_left (fetchHwm_le range.replica)
  obtain ⟨batch, isOk, reached, bounded, moves, records, -⟩ := @fetchProgressing_moves range cursor request.maxBytes
    request.maxRecords (fetchHwm range.replica) reaches (mark.symm ▸ upto)
  rw [mark] at bounded moves
  refine ⟨⟨(visibleBetween range.replica.segment.records cursor batch.nextOffset).map toWire,
    batch.nextOffset⟩, ?_, reached, bounded, moves, rfl⟩
  have limits : ¬(request.maxBytes = 0 ∨ request.maxRecords = 0) := by omega
  simp [deliver, fetch, limits, current, isOk, records, visibleBetween]

theorem InProcessFollower.delivers {range : StoredRange} {maxBytes maxRecords}
    (current : checkFollowerLease range.replica = .ok ()) :
    Delivers (deliver range maxBytes maxRecords) id range.replica.segment.records
      range.replica.segment.baseOffset (min range.replica.clusterCommitted range.replica.segment.committedOffset) := by
  intro cursor reaches upto
  obtain ⟨batch, isOk, reached, bounded, moves, records, -⟩ := @fetchProgressing_moves range cursor maxBytes maxRecords
    range.replica.clusterCommitted reaches upto
  refine ⟨⟨visibleBetween range.replica.segment.records cursor batch.nextOffset, batch.nextOffset⟩, ?_, reached, bounded,
    moves, by simp⟩
  simp [deliver, fetch, fetchBelow, current, isOk, records, visibleBetween]

/-- A consumer that starts anywhere between the base and the mark and follows the next offset, on either surface. -/
theorem consumers_see_each_record_once (range : StoredRange) (startOffset maxBytes maxRecords : Nat)
    (reaches : range.replica.segment.baseOffset ≤ startOffset) (bytes : 0 < maxBytes) (some : 0 < maxRecords) :
    (∀ identity fencingEpoch, checkRange range.replica identity fencingEpoch = .ok () →
      startOffset ≤ fetchHwm range.replica →
      let fetch := deliver range ⟨identity, fencingEpoch, startOffset, maxBytes, maxRecords⟩
      let mark := fetchHwm range.replica
      Delivers fetch toWire range.replica.segment.records range.replica.segment.baseOffset mark ∧
        ∃ seen, SeesEachOnce range.replica.segment.records startOffset mark seen ∧
          ∃ fetches ≤ mark - startOffset, follow fetch fetches startOffset = .some ⟨seen.map toWire, mark⟩) ∧
    (checkFollowerLease range.replica = .ok () →
      startOffset ≤ min range.replica.clusterCommitted range.replica.segment.committedOffset →
      let fetch := deliver range maxBytes maxRecords
      let mark := min range.replica.clusterCommitted range.replica.segment.committedOffset
      Delivers fetch id range.replica.segment.records range.replica.segment.baseOffset mark ∧
        ∃ seen, SeesEachOnce range.replica.segment.records startOffset mark seen ∧
          ∃ fetches ≤ mark - startOffset, follow fetch fetches startOffset = .some ⟨seen, mark⟩) := by
  have held := range.replica.segment.durable
  refine ⟨fun identity fencingEpoch current upto => ?_, fun current upto => ?_⟩
  · have delivers := @delivers range ⟨identity, fencingEpoch, startOffset, maxBytes, maxRecords⟩ bytes some current
    exact ⟨delivers, _, visibleBetween_sees _ _ _,
      delivers.follow (Nat.le_trans (fetchHwm_le range.replica) held) reaches upto⟩
  · have delivers := @delivers range maxBytes maxRecords current
    refine ⟨delivers, _, visibleBetween_sees _ _ _, ?_⟩
    simpa using delivers.follow (Nat.le_trans (Nat.min_le_right _ _) held) reaches upto

/-- Three segments whose second record is a promotion marker, and a mark below the durable frontier. -/
def markedReplica : Replica :=
  let record (sequence : Nat) : LogRecord :=
    { producerId := 40#128, producerEpoch := 1, sequence, timestampMillis := 0, key := [], value := [1, 2] }
  { Replica.fresh 1#128 ⟨"orders", 1, 7#128, 1⟩ .V2 2 with
    heldFencingEpoch := 1
    metaFencingEpoch := ⟨1, true, 0⟩
    clusterCommitted := 4
    segment :=
      { records := [record 0, markerRecord 1, record 1, record 2, record 3]
        sealed := [0, 2], tailBase := 4, committedOffset := 5, maxSegmentRecords := 2
        layout := by decide, tailDurable := by decide, durable := by decide } }

def markedRange : StoredRange :=
  { replica := markedReplica, framing := ⟨102, 40, fun _ => 16, by decide⟩, encodable := by decide }

/-- A budget of one byte never fits a record, so every record is refetched by itself. -/
theorem marked_range_delivered : ∃ seen, SeesEachOnce markedReplica.segment.records 1 4 seen ∧ ∃ fetches ≤ 3,
      follow (deliver markedRange ⟨⟨"orders", 1, 7#128, 1⟩, 1, 1, 1, 2⟩) fetches 1 = some ⟨seen.map toWire, 4⟩ :=
  ((consumers_see_each_record_once markedRange 1 1 2 (by decide) (by decide) (by decide)).1 ⟨"orders", 1, 7#128, 1⟩ 1 rfl
    (by decide)).2

end VtopEngine.Broker
