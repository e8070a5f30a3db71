import VtopEngine.Broker.Replica

/-! # The leader's broker

The leader's side of replication (`lib.rs`).  Each function that holds its locks only for
a part of its work is given part by part, so that what happens between the parts stays
visible: a produce group is prepared and published; a boundary marker
likewise; an adoption measures the tail, records it and only then publishes the epoch.

* `prepare` — `flush_produce_group`.
* `prepareMarker`, `markerRequest` — `publish_boundary_marker`.
-/

namespace VtopEngine.Broker

open Log
open Meta (Uuid)

inductive WireDurability
  | Buffered | LocalFsync | Quorum
  deriving DecidableEq, Repr

structure ProduceRequest where
  range : RangeIdentity
  fencingEpoch : Nat
  producerId : Uuid
  (producerEpoch firstSequence : Nat)
  durability : WireDurability
  records : List ProduceRecord
  deriving DecidableEq, Repr

/-- Durable acknowledgements of a fan-out, besides the leader's own. -/
structure ReplicaQuorumResult where
  (followerAcks replicationFactor : Nat)
  deriving DecidableEq, Repr

namespace ReplicaQuorumResult

def majority (result : ReplicaQuorumResult) : Nat := result.replicationFactor / 2 + 1

def hasQuorum (result : ReplicaQuorumResult) : Prop := result.majority ≤ 1 + result.followerAcks

instance (result : ReplicaQuorumResult) : Decidable result.hasQuorum :=
  inferInstanceAs (Decidable (_ ≤ _))

end ReplicaQuorumResult

namespace LocalBroker

def checkRange (replica : Replica) (range : RangeIdentity) (fencingEpoch : Nat) : Except (ErrorCode × String) Unit :=
  if range ≠ replica.range then .error (.WrongRange, "request range identity does not match this broker")
  else if fencingEpoch ≠ replica.heldFencingEpoch then
    .error (.Fenced, "request fencing epoch does not match this broker's lease")
  else if replica.metaFencingEpoch.leaseActive = false ∨ replica.metaFencingEpoch.fencingEpoch ≠ replica.heldFencingEpoch then
    .error (.Fenced, "broker lease is inactive or fenced by a newer metadata grant")
  else .ok ()

/-! ## Producing -/

/-- One member of a group: its records as they will be stored, or why it is refused. -/
def admitMember (replica : Replica) (request : ProduceRequest) : Replica × Except Refusal (List LogRecord) :=
  match checkRange replica request.range request.fencingEpoch with
  | .error (code, message) => (replica, .error (code, .text message))
  | .ok () =>
    match replica.producerEpochs.accept request.producerId request.producerEpoch with
    | (producerEpochs, .error problem) =>
      ({ replica with producerEpochs }, .error (acceptErrorCode problem, .broker problem))
    | (producerEpochs, .ok ()) =>
      let replica := { replica with producerEpochs }
      match recordsFromWire request.records (replica.segmentFormat.stored request.producerId request.producerEpoch)
          request.firstSequence with
      | .error message => (replica, .error (.InvalidRequest, .text message))
      | .ok records => (replica, .ok records)

def admitAll (replica : Replica) : List ProduceRequest → Replica × List (Except Refusal (List LogRecord))
  | [] => (replica, [])
  | request :: batch =>
    let (replica, admitted) := admitMember replica request
    let (replica, rest) := admitAll replica batch
    (replica, admitted :: rest)

/-- The records of the admitted members, in order. -/
def groupRecords : List (Except Refusal (List LogRecord)) → List LogRecord
  | [] => []
  | .error _ :: members => groupRecords members
  | .ok records :: members => records ++ groupRecords members

/-- Each admitted member's share of the group's outcomes. -/
def splitOutcomes : List (Except Refusal (List LogRecord)) → List AppendOutcome → List (Except Refusal (List AppendOutcome))
  | [], _ => []
  | .error refusal :: members, outcomes => .error refusal :: splitOutcomes members outcomes
  | .ok records :: members, outcomes =>
    .ok (outcomes.take records.length) :: splitOutcomes members (outcomes.drop records.length)

/-- What the locked part of a flush leaves for the fan-out. -/
structure Prepared where
  (tipBefore leaderCommitted : Nat)
  members : List (Except Refusal (List AppendOutcome))
  deriving DecidableEq

/-- The locked part of `flush_produce_group`: admit every member, and append what they bring as one group.  If nothing
is appended, every member has its refusal; a request without records was refused before it got here. -/
def prepare (replica : Replica) (batch : List ProduceRequest) : Replica × Except (List Refusal) Prepared :=
  let (admittedReplica, members) := admitAll replica batch
  let refusals (otherwise : Refusal) : List Refusal := members.map fun
    | .error refusal => refusal
    | .ok _ => otherwise
  let records := groupRecords members
  if records.isEmpty then
    (admittedReplica, .error (refusals (.InvalidRequest, .text "produce request has no records")))
  else
    match admittedReplica.segment.appendGroup records .Fsync with
    | .error problem => (admittedReplica, .error (refusals (appendErrorCode problem, .log problem)))
    | .ok (segment, outcomes) =>
      ({ admittedReplica with segment }, .ok
        { tipBefore := replica.nextOffset
          leaderCommitted := segment.committedOffset
          members := splitOutcomes members outcomes })

/-! ## Boundary markers -/

def markerKey : List UInt8 := "promotion-boundary".toUTF8.data.toList

def markerRecord (fencingEpoch : Nat) : LogRecord :=
  { producerId := PROMOTION_MARKER_PRODUCER, producerEpoch := fencingEpoch, sequence := 0, timestampMillis := 0,
    key := markerKey, value := [] }

/-- The locked part of `publish_boundary_marker`: append the marker, and say from where it is replicated. -/
def prepareMarker (replica : Replica) (fencingEpoch : Nat) : Replica × Except BrokerError (Nat × Nat) :=
  if replica.replicated = false then
    (replica, .error (.BoundaryMarker (.text
      "this broker replicates to nobody, so there is no quorum to convince and nothing this marker would prove")))
  else
    match replica.segmentFormat with
    | .V1 _ =>
      (replica, .error (.BoundaryMarker (.text
        "v1 frames store the producer identity merged with the epoch, so a marker written there could never be recognized for filtering; v1 ranges keep the pre-marker publication path")))
    | .V2 =>
      match checkRange replica replica.range fencingEpoch with
      | .error (_, message) => (replica, .error (.BoundaryMarker (.text message)))
      | .ok () =>
        let inherited := replica.clusterCommitted
        let held := replica.segment.committedOffset
        if held < inherited then
          (replica, .error (.BoundaryMarker (.text
            s!"the cluster watermark {inherited} exceeds this broker's committed tail {held}; a leader that does not hold the committed prefix cannot prove a boundary over it")))
        else
          match replica.producerEpochs.accept PROMOTION_MARKER_PRODUCER fencingEpoch with
          | (producerEpochs, .error problem) => ({ replica with producerEpochs }, .error problem)
          | (producerEpochs, .ok ()) =>
            let replica := { replica with producerEpochs }
            match replica.segment.appendGroup [markerRecord fencingEpoch] .Fsync with
            | .error problem => (replica, .error (.Segment problem))
            | .ok (segment, outcomes) =>
              let replicateFrom := ((outcomes.map AppendOutcome.offset).min?).getD (segment.nextOffset - 1)
              ({ replica with segment }, .ok (replicateFrom, segment.committedOffset))

def markerRequest (replica : Replica) (fencingEpoch replicateFrom : Nat) : ReplicaAppendRequest :=
  { range := replica.range, fencingEpoch, leaderNodeId := replica.nodeId, expectedBaseOffset := replicateFrom
    producerId := PROMOTION_MARKER_PRODUCER, producerEpoch := fencingEpoch, firstSequence := 0
    records := [{ timestampMillis := 0, key := markerKey, value := [] }] }

/-! ## What the broker's appends change -/

section Appends

theorem checkRange_ok (ok : checkRange replica range epoch = .ok ()) : epoch = replica.heldFencingEpoch := by
  unfold checkRange at ok
  split at ok
  · cases ok
  split at ok
  · cases ok
  case isFalse same => exact Decidable.not_not.mp same

theorem admitMember_appends (replica : Replica) (request : ProduceRequest) :
    replica.Appends (admitMember replica request).1 []
      ∧ ((admitMember replica request).2.isOk = true → request.fencingEpoch = replica.heldFencingEpoch) := by
  unfold admitMember
  split
  · exact ⟨.refl replica, nofun⟩
  case h_2 checked =>
    split
    case h_1 producerEpochs _ _ => exact ⟨.nothing replica producerEpochs, nofun⟩
    case h_2 producerEpochs _ =>
      simp only
      split <;> exact ⟨.nothing replica producerEpochs, fun _ => checkRange_ok checked⟩

theorem admitAll_appends (replica : Replica) (batch) : replica.Appends (admitAll replica batch).1 []
      ∧ (groupRecords (admitAll replica batch).2 ≠ [] →
        ∃ request ∈ batch, request.fencingEpoch = replica.heldFencingEpoch) := by
  induction batch generalizing replica with
  | nil => exact ⟨.refl replica, fun some => absurd rfl some⟩
  | cons request batch ih =>
    obtain ⟨appended, first⟩ := admitMember_appends replica request
    obtain ⟨appendedMore, rest⟩ := ih (admitMember replica request).1
    simp only [admitAll]
    refine ⟨appended.trans appendedMore, fun some => ?_⟩
    cases member : (admitMember replica request).2 with
    | error refusal =>
      rw [member, groupRecords] at some
      obtain ⟨other, isMember, same⟩ := rest some
      exact ⟨other, List.mem_cons_of_mem _ isMember, by rw [same, appended.heldFencingEpoch]⟩
    | ok records =>
      rw [member] at first
      exact ⟨request, List.mem_cons_self, first rfl⟩

/-- A group adds records at the end of the log, under the epoch of its requests. -/
theorem prepare_appends (replica : Replica) (batch) : ∃ added, replica.Appends (prepare replica batch).1 added
      ∧ (added ≠ [] → ∃ request ∈ batch, request.fencingEpoch = replica.heldFencingEpoch) := by
  obtain ⟨admitted, when⟩ := admitAll_appends replica batch
  unfold prepare
  simp only
  split
  · exact ⟨[], admitted, fun some => absurd rfl some⟩
  case isFalse some =>
    have when := when (fun empty => some (List.isEmpty_iff.mpr empty))
    split
    · exact ⟨[], admitted, fun _ => when⟩
    case h_2 segment outcomes appended =>
      obtain ⟨added, -, extended⟩ := SegmentSet.appendGroup_extends appended
      exact ⟨added, admitted.trans (.ofSegment extended), fun _ => when⟩

/-- A marker is appended under the epoch it is for. -/
theorem prepareMarker_appends (replica : Replica) (epoch) :
    ∃ added, replica.Appends (prepareMarker replica epoch).1 added ∧ (added ≠ [] → epoch = replica.heldFencingEpoch) := by
  have unchanged : ∃ added, replica.Appends replica added ∧ (added ≠ [] → epoch = replica.heldFencingEpoch) :=
    ⟨[], .refl replica, fun some => absurd rfl some⟩
  unfold prepareMarker
  split
  · exact unchanged
  split
  · exact unchanged
  split
  · exact unchanged
  case h_2 checked =>
    simp only
    split
    · exact unchanged
    split
    case h_1 producerEpochs _ _ => exact ⟨[], .nothing replica producerEpochs, fun some => absurd rfl some⟩
    case h_2 producerEpochs _ =>
      have accepted := Replica.Appends.nothing replica producerEpochs
      split
      · exact ⟨[], accepted, fun some => absurd rfl some⟩
      case h_2 segment outcomes appended =>
        obtain ⟨added, -, extended⟩ := SegmentSet.appendGroup_extends appended
        exact ⟨added, accepted.trans (.ofSegment extended), fun _ => checkRange_ok checked⟩

end Appends

end LocalBroker

end VtopEngine.Broker
