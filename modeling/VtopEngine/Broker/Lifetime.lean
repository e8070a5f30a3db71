import VtopEngine.Broker.LocalBroker
import VtopEngine.Broker.Reconciliation
import VtopEngine.Lib.Runs

/-! # The lifetime of one replica

Everything that can happen to a replica that started with an empty log, whoever asks for
it and in whatever order.

* `Operation`, `perform` — one thing that happens.
* `Lived` — what a replica can become.
* `Traceable` — a vector that is offered ends with the held epoch and stays within the log.
-/

namespace VtopEngine.Broker

open Lib Log Replica InProcessFollower
open Meta (Uuid)

inductive Operation
  | grant (epoch : Nat)
  | release (epoch : Nat)
  | suspend (epoch : Nat)
  | adopt (epoch : Nat)
  | produce (batch : List ProduceRequest)
  | marker (epoch : Nat)
  | replicate (requests : List ReplicaAppendRequest)
  | observe (update : CommittedHwmUpdate)
  | fence (epoch : Nat) (leaderEpochStarts : List EpochStart)
  | fenceLocally (epoch : Nat)
  | journalFile (nextWrite : FileWrite)

/-- The journal's file changes its behaviour. -/
def Replica.setNextWrite (replica : Replica) (nextWrite : FileWrite) : Replica :=
  { replica with fencingEpochJournal := replica.fencingEpochJournal.map fun journal => { journal with nextWrite } }

def perform (replica : Replica) : Operation → Replica
  | .grant epoch => { replica with metaFencingEpoch := replica.metaFencingEpoch.set epoch }
  | .release epoch => { replica with metaFencingEpoch := replica.metaFencingEpoch.clearLease epoch }
  | .suspend epoch => { replica with metaFencingEpoch := replica.metaFencingEpoch.suspend epoch }
  | .adopt epoch => replica.adoptFencingEpoch epoch
  | .produce batch => (LocalBroker.prepare replica batch).1
  | .marker epoch => (LocalBroker.prepareMarker replica epoch).1
  | .replicate requests => (applyAppendBatch replica requests).1
  | .observe update => (observeHwm replica update).1
  | .fence epoch leaderEpochStarts => (fence replica epoch leaderEpochStarts).1
  | .fenceLocally epoch => (fenceLocally replica epoch).1
  | .journalFile nextWrite => replica.setNextWrite nextWrite

/-- A replica as it starts: nothing in the log, and an empty journal. -/
def Replica.started (nodeId : Uuid) (range : RangeIdentity) (segmentFormat : SegmentFormat) (maxSegmentRecords : Nat) :
    Replica :=
  (fresh nodeId range segmentFormat maxSegmentRecords).setFencingEpochJournal (.opened .empty)

/-- What a replica can become. -/
def Lived (replica : Replica) : Prop :=
  ∃ nodeId range segmentFormat maxSegmentRecords, Reachable (fun before operation after => after = perform before operation)
      (started nodeId range segmentFormat maxSegmentRecords) replica

theorem Lived.of_operations (nodeId range segmentFormat maxSegmentRecords) (operations : List Operation) :
    Lived (operations.foldl perform (.started nodeId range segmentFormat maxSegmentRecords)) := by
  exact ⟨nodeId, range, segmentFormat, maxSegmentRecords, Reachable.refl.foldl operations⟩

theorem Lived.perform (lived : Lived replica) (operation) : Lived (perform replica operation) := by
  obtain ⟨nodeId, range, segmentFormat, maxSegmentRecords, reached⟩ := lived
  exact ⟨nodeId, range, segmentFormat, maxSegmentRecords, reached.step rfl⟩

/-- What every operation keeps: nothing is reclaimed, and an offered vector is known. -/
structure Traceable (replica : Replica) : Prop where
  whole : replica.segment.baseOffset = 0
  known : replica.epochStarts ≠ [] → replica.KnownHistory

namespace Traceable

variable {replica : Replica}

theorem started (nodeId range segmentFormat maxSegmentRecords) :
    Traceable (.started nodeId range segmentFormat maxSegmentRecords) :=
  ⟨rfl, fun offered => absurd rfl offered⟩

section

variable (traceable : Traceable replica)

include traceable

/-- Nothing that the vector and the log depend on changed. -/
theorem keep (sameSegment : after.segment = replica.segment) (sameStarts : after.epochStarts = replica.epochStarts)
    (sameHeld : after.heldFencingEpoch = replica.heldFencingEpoch) : Traceable after := by
  refine ⟨by rw [sameSegment, traceable.whole], fun offered => ?_⟩
  rw [sameStarts] at offered
  exact (traceable.known offered).grow sameStarts sameHeld (by rw [nextOffset, nextOffset, sameSegment])

theorem append (appended : replica.Appends after added) : Traceable after := by
  refine ⟨by rw [appended.baseOffset, traceable.whole], fun offered => ?_⟩
  rw [appended.epochStarts] at offered
  exact (traceable.known offered).grow appended.epochStarts appended.heldFencingEpoch
    (by rw [appended.nextOffset]; exact Nat.le_add_right _ _)

theorem adopt (epoch) : Traceable (replica.adoptFencingEpoch epoch) := by
  refine ⟨by rw [adopt_segment, traceable.whole], fun offered => ?_⟩
  by_cases known : replica.epochStarts = []
  · -- The first entry there is starts an empty log.
    rcases epochStarts_adopt replica epoch offered with ⟨same, -⟩ | ⟨pushed, empty, moves⟩
    · exact absurd (same.trans known) offered
    · refine ⟨⟨_, by rw [pushed, List.getLast?_concat], ?_⟩, fun entry member => ?_⟩
      · show epoch = max replica.heldFencingEpoch epoch
        omega
      · rw [pushed, known, List.nil_append, List.mem_singleton] at member
        simp [member, empty known]
  · by_cases forward : replica.heldFencingEpoch ≤ epoch
    · exact (traceable.known known).adopt forward offered
    · have same : replica.adoptFencingEpoch epoch = replica := by
        simp [adoptFencingEpoch, Nat.not_lt.mpr (Nat.le_of_not_le forward), Nat.max_eq_left (Nat.le_of_not_le forward)]
      rw [same]
      exact traceable.known known

theorem truncate
    (ok : truncateTo replica offset = .ok (after, removed)) (known : replica.epochStarts ≠ []) : Traceable after := by
  refine ⟨?_, fun offered => (truncateTo_known (traceable.known known) ok offered).1⟩
  obtain ⟨-, segment, cut, rfl⟩ := truncateTo_ok ok
  rw [Replica.updateJournal_segment, (SegmentSet.truncateTo_truncated cut).baseOffset (by rw [traceable.whole]; omega),
    traceable.whole]

theorem fence (epoch leaderEpochStarts) : Traceable (fence replica epoch leaderEpochStarts).1 := by
  have adopted := traceable.adopt epoch
  unfold InProcessFollower.fence
  simp only
  split
  · exact traceable
  split
  · exact traceable
  split
  · exact adopted
  case h_2 reconciled removed ok =>
    rcases reconcileWith_cases ok with ⟨rfl, -⟩ | ⟨divergence, diverges, -, -, cut⟩
    · exact adopted
    · refine adopted.truncate cut fun empty => ?_
      rw [empty, compareLineage_nil] at diverges
      cases diverges

theorem perform (operation) : Traceable (Broker.perform replica operation) := by
  cases operation with
  | grant epoch | release epoch | suspend epoch => exact traceable.keep rfl rfl rfl
  | adopt epoch => exact traceable.adopt epoch
  | produce batch =>
    obtain ⟨added, appended, -⟩ := LocalBroker.prepare_appends replica batch
    exact traceable.append appended
  | marker epoch =>
    obtain ⟨added, appended, -⟩ := LocalBroker.prepareMarker_appends replica epoch
    exact traceable.append appended
  | replicate requests =>
    obtain ⟨added, appended, -⟩ := applyAppendBatch_appends replica requests
    exact traceable.append appended
  | observe update =>
    simp only [Broker.perform, observeHwm]
    split
    · exact traceable
    · split
      · exact traceable
      · exact traceable.keep rfl rfl rfl
  | fence epoch leaderEpochStarts => exact traceable.fence epoch leaderEpochStarts
  | fenceLocally epoch =>
    simp only [Broker.perform, fenceLocally]
    split <;> exact traceable.adopt epoch
  | journalFile nextWrite =>
    refine traceable.keep rfl ?_ rfl
    unfold epochStarts
    simp only [Broker.perform, setNextWrite]
    cases replica.fencingEpochJournal <;> rfl

end

end Traceable

theorem Lived.traceable (lived : Lived replica) : Traceable replica := by
  obtain ⟨nodeId, range, segmentFormat, maxSegmentRecords, reached⟩ := lived
  refine reached.invariant Traceable (.started ..) fun before operation after _ traceable step => ?_
  rw [step]
  exact traceable.perform operation

/-! ## Fencing a replica whose history agrees -/

/-- A fence that takes nothing and does not turn the follower away over its records. -/
def Harmless (replica : Replica) (epoch : Nat) (leaderEpochStarts : List EpochStart) : Prop :=
  (fence replica epoch leaderEpochStarts).1.segment.records = replica.segment.records
    ∧ ∀ reason, (fence replica epoch leaderEpochStarts).2 ≠ .error (.InvalidRequest, reason)
      ∧ (fence replica epoch leaderEpochStarts).2 ≠ .error (.WrongLineage, reason)

open InProcessFollower in
/-- A fence by a caller is harmless exactly if both histories, as they are once the epoch is adopted, ascribe every record
of the follower alike, or if they part inside a sealed segment that the follower may not cut. -/
theorem fence_harmless_iff (follower caller : Replica) (epoch : Nat) (livedFollower : Lived follower)
    (livedCaller : Lived caller) (callerAdopted : caller.heldFencingEpoch = epoch)
    (usable : follower.heldFencingEpoch ≤ epoch) (granted : epoch ≤ follower.metaFencingEpoch.fencingEpoch) :
    Harmless follower epoch caller.epochStarts
      ↔ SameWriters (follower.adoptFencingEpoch epoch).epochStarts caller.epochStarts follower.nextOffset
        ∨ ∃ divergence, PartAt (follower.adoptFencingEpoch epoch).epochStarts caller.epochStarts divergence
          ∧ divergence < follower.nextOffset ∧ follower.clusterCommitted ≤ divergence
          ∧ divergence < follower.segment.tailBase ∧ divergence ∉ follower.segment.sealed := by
  have adopted := livedFollower.traceable.adopt epoch
  have held : (follower.adoptFencingEpoch epoch).heldFencingEpoch = epoch := by
    rw [adopt_heldFencingEpoch]
    omega
  have sameTail : (follower.adoptFencingEpoch epoch).nextOffset = follower.nextOffset := by
    rw [nextOffset, adopt_segment, nextOffset]
  have ends (offered : caller.epochStarts ≠ []) :
      caller.epochStarts.getLast?.map EpochStart.epoch = some (follower.adoptFencingEpoch epoch).heldFencingEpoch := by
    obtain ⟨last, isLast, heldByCaller⟩ := (livedCaller.traceable.known offered).latest
    rw [isLast, Option.map_some, heldByCaller, callerAdopted, held]
  have sealed {divergence} (parts : PartAt (follower.adoptFencingEpoch epoch).epochStarts caller.epochStarts divergence) :=
    reconcileWith_sealed adopted.whole adopted.known caller.epochStarts_ordered ends parts
  rw [sameTail, adopt_segment, adopt_clusterCommitted] at sealed
  unfold Harmless fence
  simp only [Nat.not_lt.mpr usable, Nat.not_lt.mpr granted, if_false]
  cases reconciles : reconcileWith (follower.adoptFencingEpoch epoch) caller.epochStarts with
  | ok result =>
    obtain ⟨after, removed⟩ := result
    have unchanged := reconcileWith_unchanged_iff adopted.whole adopted.known caller.epochStarts_ordered ends reconciles
    rw [sameTail, adopt_segment] at unchanged
    simp only [unchanged, reduceCtorEq, ne_eq, not_false_eq_true, and_self, implies_true, and_true]
    refine ⟨.inl, fun alike => alike.elim id ?_⟩
    rintro ⟨divergence, parts, below, above, inside⟩
    refine (sealed parts below above inside).resolve_right ?_
    rintro ⟨reason, failed⟩
    cases failed.symm.trans reconciles
  | error refusal =>
    obtain ⟨code, reason⟩ := refusal
    obtain ⟨divergence, diverges, below, codes⟩ := reconcileWith_error reconciles
    have mine := (follower.adoptFencingEpoch epoch).epochStarts_ordered
    have apart := not_sameWriters mine caller.epochStarts_ordered diverges (sameTail ▸ below)
    rw [adopt_clusterCommitted, adopt_segment] at codes
    rcases codes with rfl | ⟨rfl, above, inside⟩ | ⟨rfl, reclaimed⟩
    · refine ⟨fun harmless => absurd rfl (harmless.2 reason).1, fun alike => ?_⟩
      obtain ⟨divergence, parts, below, above, inside⟩ := alike.resolve_left apart
      obtain ⟨reason', failed⟩ := (sealed parts below above inside).resolve_left apart
      cases failed.symm.trans reconciles
    · refine ⟨fun _ => .inr ⟨divergence, ⟨fun offset => ?_, ?_⟩, sameTail ▸ below, above, inside⟩, fun _ => by simp⟩
      · exact epochOwning_eq_below mine caller.epochStarts_ordered diverges
      · exact epochOwning_ne_at mine caller.epochStarts_ordered diverges
    · rw [← adopt_segment follower epoch, adopted.whole] at reclaimed
      omega

section Example

def ordersRange : RangeIdentity := { topic := "orders", topicEpoch := 1, rangeId := 7#128, rangeGeneration := 1 }

/-- One producer's records from a sequence on, as the leader of an epoch sends them for an offset. -/
def ordersAppend (fencingEpoch offset : Nat) (values : List (List UInt8)) : ReplicaAppendRequest :=
  { range := ordersRange, fencingEpoch, leaderNodeId := 1#128, expectedBaseOffset := offset, producerId := 40#128
    producerEpoch := 1, firstSequence := offset
    records := values.map fun value => { timestampMillis := 0, key := [], value } }

/-- A replica that took both records under epoch one, and then adopted epoch two. -/
def servedReplica (nodeId : Uuid) : Replica :=
  [Operation.grant 1, .adopt 1, .replicate [ordersAppend 1 0 [[10], [20]]], .grant 2, .adopt 2, .grant 3].foldl perform
    (.started nodeId ordersRange .V2 16)

/-- One that was a record behind when it adopted epoch two, and took that record from the new leader. -/
def caughtUpReplica (nodeId : Uuid) : Replica :=
  [Operation.grant 1, .adopt 1, .replicate [ordersAppend 1 0 [[10]]], .grant 2, .adopt 2,
    .replicate [ordersAppend 2 1 [[20]]], .grant 3].foldl perform (.started nodeId ordersRange .V2 16)

/-- The two logs are the same, but each replica put epoch two where its own tail was; a fence at epoch three discards the
record between. -/
theorem fence_discards_agreeing_record :
    ∃ follower caller, Lived follower ∧ Lived caller ∧ caller.segment.records = follower.segment.records
      ∧ caller.heldFencingEpoch = 3 ∧ follower.heldFencingEpoch ≤ 3 ∧ 3 ≤ follower.metaFencingEpoch.fencingEpoch
      ∧ ¬ Harmless follower 3 caller.epochStarts :=
  ⟨servedReplica 2#128, perform (caughtUpReplica 3#128) (.adopt 3), .of_operations .., .perform (.of_operations ..) _,
    by decide, rfl, by decide, by decide, fun harmless => absurd harmless.1 (by decide)⟩

theorem fence_of_equal_log_harmless :
    Harmless (servedReplica 2#128) 3 (perform (servedReplica 3#128) (.adopt 3)).epochStarts :=
  (fence_harmless_iff (servedReplica 2#128) (perform (servedReplica 3#128) (.adopt 3)) 3 (.of_operations ..)
    (.perform (.of_operations ..) _) rfl (by decide) (by decide)).mpr (.inl (.inr (.inr (by decide))))

end Example

end VtopEngine.Broker
