import VtopEngine.Meta.Fencing
import VtopEngine.Meta.SegmentMoves

/-! # Replica moves

* `SegmentView.Disciplined` — what ties a segment's placement, its replacement proof
  and its rebalance intent together; every move keeps it.
* `replica_move_discipline` — so it holds of every reachable state, and only the
  confirmation of an expired retention empties a placement.
* `replica_leaves_with_evidence_iff` — which replicas leave a placement, and why.
-/

namespace VtopEngine.Meta

open Lib MetaStateMachine Records

variable {view next : SegmentView} {command : MetadataCommand}

/-! ## The invariant -/

/-- A rebalance under way: both ends are replicas, the segment is not on its way out,
    and the only proof there may be is the one of this move. -/
structure SegmentView.Moving (view : SegmentView) (intent : RebalanceIntentRecord) : Prop where
  distinct : intent.fromNodeUuid ≠ intent.toNodeUuid
  placed : ∃ placement, view.placement = some placement ∧ intent.fromNodeUuid ∈ placement.replicaNodes
    ∧ intent.toNodeUuid ∈ placement.replicaNodes
  state : ∃ segment, view.segment = some segment ∧ (segment.state = .Verified ∨ segment.state = .RetirePlanned)
  proof : ∀ proof, view.proof = some proof →
    proof.sourceNodeUuid = intent.fromNodeUuid ∧ proof.destinationNodeUuid = intent.toNodeUuid

structure SegmentView.Placed (view : SegmentView) (placement : SegmentPlacementRecord) : Prop where
  registered : view.segment ≠ none
  distinct : placement.replicaNodes.Nodup
  factor : placement.declaredReplicationFactor.toNat ≤ MAX_REPLICAS
  settled : view.intent = none → placement.replicaNodes.length ≤ placement.declaredReplicationFactor.toNat
  transient : placement.replicaNodes.length ≤ placement.declaredReplicationFactor.toNat + 1
  nonempty : ∀ segment, view.segment = some segment → segment.state ≠ .RetentionExpired → placement.replicaNodes ≠ []

structure SegmentView.Proven (view : SegmentView) (proof : ReplacementProofRecord) : Prop where
  distinct : proof.sourceNodeUuid ≠ proof.destinationNodeUuid
  rooted : ∃ segment, view.segment = some segment ∧ segment.contentRoot = proof.contentRoot

structure SegmentView.Disciplined (view : SegmentView) : Prop where
  placed : ∀ placement, view.placement = some placement → view.Placed placement
  proven : ∀ proof, view.proof = some proof → view.Proven proof
  moving : ∀ intent, view.intent = some intent → view.Moving intent

namespace SegmentView

theorem Disciplined.empty (topic range segment : Uuid) : (empty.segmentView topic range segment).Disciplined where
  placed _ found := by simp [segmentView, placement?, lookup] at found
  proven _ found := by simp [segmentView, proof?, lookup] at found
  moving _ found := by simp [segmentView, intent?, lookup] at found

variable {placement : SegmentPlacementRecord}

/-- Removing one of the replicas leaves one fewer. -/
theorem length_without (generation applyIndex) (member : node ∈ placement.replicaNodes) :
    (placement.without node generation applyIndex).replicaNodes.length < placement.replicaNodes.length :=
  List.length_filter_lt_length_iff_exists.mpr ⟨node, member, by simp⟩

theorem mem_without :
    other ∈ (placement.without node generation applyIndex).replicaNodes ↔ other ∈ placement.replicaNodes ∧ other ≠ node := by
  simp [SegmentPlacementRecord.without]

/-- A placement that gave up one replica and kept another. -/
theorem Placed.without
    (placed : view.Placed placement) (registered : next.segment ≠ none) (member : node ∈ placement.replicaNodes)
    (survives : survivor ∈ placement.replicaNodes) (different : survivor ≠ node) :
    next.Placed (placement.without node generation applyIndex) := by
  have fewer := length_without generation applyIndex member
  have settled := Nat.le_of_lt_succ (Nat.lt_of_lt_of_le fewer placed.transient)
  refine ⟨registered, placed.distinct.filter _, placed.factor, fun _ => settled, Nat.le_succ_of_le settled, ?_⟩
  intro _ _ _
  exact List.ne_nil_of_mem (mem_without.mpr ⟨survives, different⟩)

variable {segment : SegmentRecord}

/-- A segment that changes its state keeps its placement in order, unless it expires. -/
theorem Placed.restated (placed : view.Placed placement)
    (found : view.segment = some segment) (live : segment.state ≠ .RetentionExpired) (record) :
    { view with segment := some record }.Placed placement :=
  { placed with
    registered := by simp
    nonempty := fun _ _ _ => placed.nonempty segment found live }

theorem Proven.restated {proof record} (proven : view.Proven proof)
    (found : view.segment = some segment) (stored : next.segment = some record)
    (same : record.contentRoot = segment.contentRoot) : next.Proven proof := by
  obtain ⟨_, proved, root⟩ := proven.rooted
  cases found.symm.trans proved
  exact ⟨proven.distinct, record, stored, same.trans root⟩

/-- A retirement leaves no intent, if the only one there can be is the one its proof completes. -/
theorem none_of_completes {proof intent} (ended : view.completes proof → intent = none)
    (kept : ¬view.completes proof → intent = view.intent)
    (completes : ∀ moving, view.intent = some moving → view.completes proof) : intent = none := by
  cases intended : view.intent with
  | some moving => exact ended (completes moving intended)
  | none =>
    by_cases done : view.completes proof
    · exact ended done
    · rw [kept done, intended]

section

variable (inv : view.Disciplined)

include inv

/-- Without an intent nothing has to be said about moves. -/
theorem Disciplined.idle (found : view.segment = some segment)
    (state : segment.state ≠ .Verified ∧ segment.state ≠ .RetirePlanned) : view.intent = none := by
  cases intended : view.intent with
  | none => rfl
  | some intent =>
    obtain ⟨_, same, moving⟩ := (inv.moving intent intended).state
    cases found.symm.trans same
    exact absurd moving (not_or.mpr state)

/-- A segment that changes its state, where its move still agrees with the new one. -/
theorem Disciplined.restated {record} (found : view.segment = some segment) (live : segment.state ≠ .RetentionExpired)
    (same : record.contentRoot = segment.contentRoot)
    (moving : ∀ intent, view.intent = some intent → { view with segment := some record }.Moving intent) :
    { view with segment := some record }.Disciplined where
  placed placement placed := (inv.placed placement placed).restated found live record
  proven proof proven := (inv.proven proof proven).restated found rfl same
  moving := moving

theorem Disciplined.move (move : Move command topic range segmentUuid view next) : next.Disciplined := by
  cases move with
  | stay => exact inv
  | register _ _ _ absent =>
    have placeless (placement : SegmentPlacementRecord) : view.placement ≠ some placement :=
      fun placed => (inv.placed placement placed).registered absent
    refine ⟨fun placement placed => absurd placed (placeless placement), fun proof proven => ?_, fun intent intended => ?_⟩
    · obtain ⟨_, found, -⟩ := (inv.proven proof proven).rooted
      cases absent.symm.trans found
    obtain ⟨placement, placed, -⟩ := (inv.moving intent intended).placed
    exact absurd placed (placeless placement)
  | verify found state =>
    have idle := inv.idle found (by simp [state])
    refine inv.restated found (by simp [state]) rfl fun intent intended => ?_
    cases idle.symm.trans intended
  | place _ _ found state unlocked distinct length factor =>
    refine ⟨?_, fun proof proven => { inv.proven proof proven with }, fun intent intended => ?_⟩
    · rintro placement ⟨⟩
      refine ⟨by simp [found], distinct, factor.2, fun _ => Nat.le_of_eq length, Nat.le_succ_of_le (Nat.le_of_eq length), ?_⟩
      rintro _ _ _ empty
      rw [empty] at length
      exact absurd factor.1 (by rw [← length]; decide)
    · rw [show view.intent = some intent from intended] at unlocked
      cases unlocked
  | prove found state root distinct intended =>
    refine ⟨fun placement placed => { inv.placed placement placed with }, ?_, fun intent found => ?_⟩
    · rintro proof ⟨⟩
      exact ⟨distinct, _, ‹_›, root⟩
    · refine { inv.moving intent found with proof := ?_ }
      rintro proof ⟨⟩
      obtain ⟨source, destination⟩ := intended intent found
      exact ⟨source.symm, destination.symm⟩
  | planRetirement found state =>
    refine inv.restated found (by simp [state]) rfl fun intent intended => ?_
    exact { inv.moving intent intended with state := ⟨_, rfl, .inr rfl⟩ }
  | @retire _ _ proof _ _ _ intent found state proven placed source destination next ended kept =>
    -- An intent under way is the one the proof completes, so none is left.
    have idle : intent = none := none_of_completes ended kept fun moving intended => by
      obtain ⟨fromSource, toDestination⟩ := (inv.moving moving intended).proof proof proven
      exact ⟨moving, intended, fromSource.symm, toDestination.symm⟩
    refine ⟨?_, (fun _ impossible => nomatch impossible), fun moving intended => ?_⟩
    · rintro placement ⟨⟩
      exact (inv.placed _ placed).without (by simp) source destination (inv.proven proof proven).distinct.symm
    · cases idle.symm.trans intended
  | @retireUnplaced _ proof _ intent found state proven placeless next ended kept =>
    have idle : intent = none := none_of_completes ended kept fun moving intended => by
      obtain ⟨placement, placed, -⟩ := (inv.moving moving intended).placed
      cases placeless.symm.trans placed
    refine ⟨fun placement placed => ?_, (fun _ impossible => nomatch impossible), fun moving intended => ?_⟩
    · cases placeless.symm.trans placed
    · cases idle.symm.trans intended
  | @propose segment placement intent _ _ found state unproven unlocked placed distinct source destination =>
    have before := inv.placed placement placed
    have settled := before.settled unlocked
    refine ⟨?_, fun proof proven => { inv.proven proof proven with }, ?_⟩
    · rintro _ ⟨⟩
      have length : (placement.replicaNodes ++ [intent.toNodeUuid]).length = placement.replicaNodes.length + 1 := by simp
      have nodup : (placement.replicaNodes ++ [intent.toNodeUuid]).Nodup :=
        List.nodup_append.mpr ⟨before.distinct, List.nodup_singleton _, fun _ listed _ last =>
          List.mem_singleton.mp last ▸ ne_of_mem_of_not_mem listed destination⟩
      refine ⟨before.registered, nodup, before.factor, (fun idle => nomatch idle), ?_, fun _ _ _ => ?_⟩
      · exact length ▸ Nat.succ_le_succ settled
      · exact List.ne_nil_of_mem (List.mem_append_left _ source)
    · rintro intent ⟨⟩
      refine ⟨distinct, ⟨_, rfl, List.mem_append_left _ source, List.mem_append_right _ List.mem_cons_self⟩,
        ⟨segment, found, .inl state⟩, fun proof proven => ?_⟩
      cases unproven.symm.trans proven
  | @cancel _ placement intent _ _ cancels target intended placed unproven =>
    have moving := inv.moving intent intended
    obtain ⟨_, same, source, destination⟩ := moving.placed
    cases placed.symm.trans same
    refine ⟨?_, fun proof proven => { inv.proven proof proven with }, fun _ impossible => nomatch impossible⟩
    rintro placement ⟨⟩
    refine (inv.placed _ placed).without ?_ destination source moving.distinct
    exact (inv.placed _ placed).registered
  | archive =>
    exact ⟨fun placement placed => { inv.placed placement placed with }, fun proof proven => { inv.proven proof proven with },
      fun intent intended => { inv.moving intent intended with }⟩
  | planRetention _ _ found state unlocked =>
    refine inv.restated found (by simp [state]) rfl fun intent intended => ?_
    cases unlocked.symm.trans intended
  | expire expires target found state next cleared =>
    have idle := inv.idle found (by simp [state])
    refine ⟨fun placement placed => ?_, fun proof proven => ?_, fun intent intended => ?_⟩
    · obtain ⟨-, rfl⟩ | ⟨before, _, _, placedBefore, rfl⟩ := cleared
      · cases placed
      · cases placed
        refine ⟨by simp, List.nodup_nil, (inv.placed before placedBefore).factor, fun _ => Nat.zero_le _, Nat.zero_le _, ?_⟩
        rintro _ ⟨⟩ live
        exact absurd rfl live
    · exact (inv.proven proof proven).restated found rfl rfl
    · cases idle.symm.trans intended

/-- A placement is never removed, and only an expired retention empties it. -/
theorem Disciplined.last_replica (move : Move command topic range segmentUuid view next)
    (placed : view.placement = some placement) (nonempty : placement.replicaNodes ≠ []) :
    (∃ placement, next.placement = some placement ∧ placement.replicaNodes ≠ [])
      ∨ ∃ args : Command.ConfirmRetentionExpired, command = .ConfirmRetentionExpired args
        ∧ args.topicUuid = topic ∧ args.rangeUuid = range ∧ args.segmentUuid = segmentUuid := by
  have kept {placement' : SegmentPlacementRecord} {segment : SegmentRecord} (after : next.placement = some placement')
      (found : next.segment = some segment) (live : segment.state ≠ .RetentionExpired) :
      ∃ placement, next.placement = some placement ∧ placement.replicaNodes ≠ [] :=
    ⟨placement', after, ((inv.move move).placed placement' after).nonempty segment found live⟩
  cases move with
  | stay | register | verify | prove | planRetirement | retireUnplaced | archive | planRetention =>
    exact .inl ⟨placement, placed, nonempty⟩
  | place _ _ found state | propose found state => exact .inl (kept rfl found (by simp [state]))
  | retire => exact .inl (kept rfl rfl (by simp))
  | cancel _ _ intended =>
    obtain ⟨segment, found, state⟩ := (inv.moving _ intended).state
    exact .inl (kept rfl found (by rcases state with state | state <;> simp [state]))
  | expire expires target => exact .inr ⟨_, expires, target⟩

/-- The moves after which a node is no longer a replica. -/
inductive Left (command : MetadataCommand) (topic range segmentUuid : Uuid) (view next : SegmentView) (node : Uuid) : Prop
  | expired {record expired : SegmentRecord} (found : view.segment = some record)
      (live : record.state ≠ .RetentionExpired) (found' : next.segment = some expired)
      (gone : expired.state = .RetentionExpired)
  | cancelled {args : Command.CancelRebalance} {intent : RebalanceIntentRecord}
      (cancels : command = .CancelRebalance args)
      (target : args.topicUuid = topic ∧ args.rangeUuid = range ∧ args.segmentUuid = segmentUuid)
      (intended : view.intent = some intent) (added : intent.toNodeUuid = node)
  | replaced {proof : ReplacementProofRecord} {record : SegmentRecord} {placement : SegmentPlacementRecord}
      (proven : view.proof = some proof) (source : proof.sourceNodeUuid = node) (found : view.segment = some record)
      (root : record.contentRoot = proof.contentRoot) (placed : next.placement = some placement)
      (destination : proof.destinationNodeUuid ∈ placement.replicaNodes)
  | recommitted (commits : command = .CommitSegmentPlacement args)
      (target : args.topicUuid = topic ∧ args.rangeUuid = range ∧ args.segmentUuid = segmentUuid)

theorem Disciplined.left (move : Move command topic range segmentUuid view next)
    (placed : view.placement = some placement) (member : node ∈ placement.replicaNodes)
    (gone : ∀ placement, next.placement = some placement → node ∉ placement.replicaNodes) :
    Left command topic range segmentUuid view next node := by
  cases move with
  | stay | register | verify | prove | planRetirement | retireUnplaced | archive | planRetention =>
    exact absurd member (gone placement placed)
  | place commits target => exact .recommitted commits target
  | @retire _ _ proof _ _ _ _ found state proven placed' source destination =>
    cases placed.symm.trans placed'
    have same : proof.sourceNodeUuid = node := by
      by_contra different
      exact gone _ rfl (mem_without.mpr ⟨member, Ne.symm different⟩)
    obtain ⟨record, rooted, root⟩ := (inv.proven proof proven).rooted
    exact .replaced proven same rooted root rfl (mem_without.mpr ⟨destination, (inv.proven proof proven).distinct.symm⟩)
  | propose _ _ _ _ placed' =>
    cases placed.symm.trans placed'
    exact absurd (List.mem_append_left _ member) (gone _ rfl)
  | cancel cancels target intended placed' =>
    cases placed.symm.trans placed'
    refine .cancelled cancels target intended ?_
    by_contra different
    exact gone _ rfl (mem_without.mpr ⟨member, Ne.symm different⟩)
  | expire _ _ found state => exact .expired found (by simp [state]) rfl rfl

end

end SegmentView

/-! ## Reachable states -/

variable {machine after : MetaStateMachine} {event : Event}

section Reached

variable [External]

theorem MetaStateMachine.Reached.disciplined (reached : machine.Reached) (topic range segment) :
    (machine.records.segmentView topic range segment).Disciplined := by
  refine Reachable.invariant (fun machine => (machine.records.segmentView topic range segment).Disciplined) reached
    (SegmentView.Disciplined.empty topic range segment) ?_
  intro machine event next _ inv step
  exact inv.move (Step.segmentMove step topic range segment)

/-- In every reachable state a segment's placement, intent and proof agree, and no
    command but the confirmed expiry takes the last replica away. -/
theorem replica_move_discipline (reached : machine.Reached) (topic range segment : Uuid) :
    (∀ placement, machine.records.placement? topic range segment = some placement → placement.replicaNodes.Nodup
      ∧ (placement.replicaNodes = [] → ∃ record, machine.records.segment? topic range segment = some record
        ∧ record.state = .RetentionExpired)
      ∧ placement.declaredReplicationFactor.toNat ≤ 8
      ∧ (machine.records.intent? topic range segment = none →
        placement.replicaNodes.length ≤ placement.declaredReplicationFactor.toNat)
      ∧ placement.replicaNodes.length ≤ placement.declaredReplicationFactor.toNat + 1)
    ∧ (∀ intent, machine.records.intent? topic range segment = some intent → intent.fromNodeUuid ≠ intent.toNodeUuid
      ∧ (∃ placement, machine.records.placement? topic range segment = some placement
        ∧ intent.fromNodeUuid ∈ placement.replicaNodes ∧ intent.toNodeUuid ∈ placement.replicaNodes)
      ∧ (∃ record, machine.records.segment? topic range segment = some record
        ∧ (record.state = .Verified ∨ record.state = .RetirePlanned))
      ∧ ∀ proof, machine.records.proof? topic range segment = some proof →
        proof.sourceNodeUuid = intent.fromNodeUuid ∧ proof.destinationNodeUuid = intent.toNodeUuid)
    ∧ ∀ event after placement, machine.Step event after →
      machine.records.placement? topic range segment = some placement → placement.replicaNodes ≠ [] →
      (∃ placement', after.records.placement? topic range segment = some placement' ∧ placement'.replicaNodes ≠ [])
        ∨ ∃ args, event.command = .ConfirmRetentionExpired args
          ∧ args.topicUuid = topic ∧ args.rangeUuid = range ∧ args.segmentUuid = segment := by
  have inv := reached.disciplined topic range segment
  refine ⟨fun placement placed => ?_, fun intent intended => ?_, fun event after placement step placed nonempty => ?_⟩
  · have order := inv.placed placement placed
    refine ⟨order.distinct, fun empty => ?_, order.factor, order.settled, order.transient⟩
    obtain ⟨record, found⟩ := Option.ne_none_iff_exists'.mp order.registered
    refine ⟨record, found, ?_⟩
    by_contra live
    exact order.nonempty record found live empty
  · have moving := inv.moving intent intended
    exact ⟨moving.distinct, moving.placed, moving.state, moving.proof⟩
  · exact inv.last_replica (Step.segmentMove step topic range segment) placed nonempty

end Reached

section MovingSegment

attribute [local instance] External.plain

/-- A verified segment on its one replica, node 7. -/
def placedMachine : MetaStateMachine :=
  leasedMachine.afterLog [(4, .RegisterSealedSegment
        { env := ⟨4, 0⟩, topicUuid := 10, rangeUuid := 11, segmentUuid := 20, segmentGeneration := 0, baseOffset := 0,
          nextOffset := 9, contentRoot := Vector.replicate 32 1, sealedByEpoch := 1, expectedRangeGeneration := 1 }),
      (5, .MarkSegmentVerified
        { env := ⟨5, 0⟩, topicUuid := 10, rangeUuid := 11, segmentUuid := 20, contentRoot := Vector.replicate 32 1,
          expectedGeneration := 0 }),
      (6, .CommitSegmentPlacement
        { env := ⟨6, 0⟩, topicUuid := 10, rangeUuid := 11, segmentUuid := 20, replicationFactor := 1,
          replicaNodes := [7], expectedSegmentGeneration := 1, expectedPlacementGeneration := none })]

/-- The segment on its way from node 7 to a second node. -/
def movingMachine : MetaStateMachine :=
  placedMachine.afterLog
    [(7, .RegisterNode { env := ⟨7, 0⟩, nodeUuid := 8, addr := "second", expectedGeneration := none }), (8, .ProposeRebalance
        { env := ⟨8, 0⟩, topicUuid := 10, rangeUuid := 11, segmentUuid := 20, fromNodeUuid := 7, toNodeUuid := 8,
          expectedPlacementGeneration := 0 })]

theorem movingMachine_keeps_replica : (movingMachine.records.placement? 10 11 20).map (·.replicaNodes) = some [7, 8]
      ∧ (movingMachine.records.intent? 10 11 20).map (·.toNodeUuid) = some 8
      ∧ ∀ event after, movingMachine.Step event after →
        (∃ placement, after.records.placement? 10 11 20 = some placement ∧ placement.replicaNodes ≠ [])
          ∨ ∃ args, event.command = .ConfirmRetentionExpired args
            ∧ args.topicUuid = 10 ∧ args.rangeUuid = 11 ∧ args.segmentUuid = 20 := by
  have nodes : (movingMachine.records.placement? 10 11 20).map (·.replicaNodes) = some [7, 8] := by decide +kernel
  refine ⟨nodes, by decide +kernel, fun event after step => ?_⟩
  obtain ⟨placement, placed, replicas⟩ := Option.map_eq_some_iff.mp nodes
  have reached : movingMachine.Reached := (leasedMachine_reached.afterLog _).afterLog _
  exact (replica_move_discipline reached 10 11 20).2.2 event after placement step placed (by simp [replicas])

end MovingSegment

/-! ## Replicas that leave -/

/-- The nodes a segment is placed on. -/
def Records.replicas (records : Records) (topic range segment : Uuid) : List Uuid :=
  (records.placement? topic range segment).elim [] (·.replicaNodes)

section Leaving

variable [External] {topic range segment node : Uuid}

/-- Evidence that the destination of a committed move holds the segment's bytes,
    which the node need then hold no longer. -/
def Records.Replaced (records : Records) (topic range segment node : Uuid) (remaining : List Uuid) : Prop :=
  ∃ proof record, records.proof? topic range segment = some proof ∧ proof.sourceNodeUuid = node
    ∧ records.segment? topic range segment = some record ∧ proof.contentRoot = record.contentRoot
    ∧ proof.destinationNodeUuid ∈ remaining

/-- Why a replica may leave: the segment expired, the move that added the node was
    called off, or the node was replaced. -/
inductive MetaStateMachine.LeavesWithReason (machine : MetaStateMachine) (event : Event) (after : MetaStateMachine)
    (topic range segment node : Uuid) : Prop
  | expired {record expired : SegmentRecord} (found : machine.records.segment? topic range segment = some record)
      (live : record.state ≠ .RetentionExpired) (found' : after.records.segment? topic range segment = some expired)
      (gone : expired.state = .RetentionExpired)
  | cancelled
      (cancels : event.command = .CancelRebalance args)
      (target : args.topicUuid = topic ∧ args.rangeUuid = range ∧ args.segmentUuid = segment)
      (intended : machine.records.intent? topic range segment = some intent) (added : intent.toNodeUuid = node)
  | replaced (evidence : machine.records.Replaced topic range segment node (after.records.replicas topic range segment))

/-- The one way around the evidence: a placement committed anew, for the nodes that
    are active by then, while nothing was proven for a node it leaves out. -/
structure MetaStateMachine.DropsReplica (machine : MetaStateMachine) (command : MetadataCommand)
    (topic range segment node : Uuid) (args : Command.CommitSegmentPlacement) : Prop where
  commits : command = .CommitSegmentPlacement args
  target : args.topicUuid = topic ∧ args.rangeUuid = range ∧ args.segmentUuid = segment
  fresh : machine.appliedResponse command.envelope.requestId = none
  recommits : args.Recommits machine.records
  dropped : node ∉ args.replicaNodes
  unreplaced : ¬ machine.records.Replaced topic range segment node args.replicaNodes

omit [External] in
theorem Records.mem_replicas {records : Records} : node ∈ records.replicas topic range segment
      ↔ ∃ placement, records.placement? topic range segment = some placement ∧ node ∈ placement.replicaNodes := by
  unfold replicas
  cases records.placement? topic range segment <;> simp

/-- Over a placement that is there, a commit is replayed or refused, or it passes the checks of one committed anew and
    makes its nodes the replicas. -/
theorem MetaStateMachine.Step.commitsPlacement (step : machine.Step event after)
    (commits : event.command = .CommitSegmentPlacement args)
    (target : args.topicUuid = topic ∧ args.rangeUuid = range ∧ args.segmentUuid = segment)
    (placed : machine.records.placement? topic range segment = some placement) :
    after.records = machine.records
        ∧ (machine.appliedResponse event.command.envelope.requestId = none → ¬ args.Recommits machine.records)
      ∨ machine.appliedResponse event.command.envelope.requestId = none ∧ args.Recommits machine.records
        ∧ after.records.replicas topic range segment = args.replicaNodes
        ∧ after.records.segment? topic range segment = machine.records.segment? topic range segment := by
  obtain ⟨applyIndex, command, response⟩ := event
  obtain rfl : command = .CommitSegmentPlacement args := commits
  obtain ⟨rfl, rfl, rfl⟩ := target
  cases apply_cases step with
  | replayed remembered => exact .inl ⟨rfl, by simp [remembered]⟩
  | executed fresh effect =>
    rw [records_remember]
    cases effect with
    | refused error =>
      refine .inl ⟨rfl, fun _ recommits => ?_⟩
      obtain ⟨_, _, step', generation, rfl⟩ := step_of_wp applyIndex (.CommitSegmentPlacement args) fresh recommits.runs
      cases step.symm.trans step'
    | spilled spills => exact spills.elim
    | accepted accepts =>
      cases accepts with
      | first _ absent => cases (Records.lookup_of_absent absent).symm.trans placed
      | update admits stored expected next =>
        refine .inr ⟨fresh, ⟨admits, _, stored, expected, by simp [next]⟩, ?_, by simp⟩
        simp [replicas, Command.CommitSegmentPlacement.placement]

/-- A replica leaves for a reason exactly when the step does not drop it by a
    placement committed anew. -/
theorem replica_leaves_with_evidence_iff (reached : machine.Reached) (step : machine.Step event after)
    (member : node ∈ machine.records.replicas topic range segment) :
    (node ∉ after.records.replicas topic range segment → machine.LeavesWithReason event after topic range segment node)
      ↔ ∀ args, ¬ machine.DropsReplica event.command topic range segment node args := by
  obtain ⟨placement, placed, listed⟩ := Records.mem_replicas.mp member
  constructor
  · intro reasoned args drops
    obtain ⟨-, refused⟩ | ⟨-, -, replicas, same⟩ := Step.commitsPlacement step drops.commits drops.target placed
    · exact absurd drops.recommits (refused drops.fresh)
    rw [replicas] at reasoned
    cases reasoned drops.dropped with
    | expired found live found' gone =>
      cases (same ▸ found').symm.trans found
      exact live gone
    | cancelled cancels => cases drops.commits.symm.trans cancels
    | replaced evidence => exact drops.unreplaced (replicas ▸ evidence)
  · intro keeps gone
    have move := Step.segmentMove step topic range segment
    have left := (reached.disciplined topic range segment).left move placed listed fun placement' placed' listed' =>
      gone (Records.mem_replicas.mpr ⟨placement', placed', listed'⟩)
    cases left with
    | expired found live found' gone => exact .expired found live found' gone
    | cancelled cancels target intended added => exact .cancelled cancels target intended added
    | replaced proven source found root placed' destination =>
      exact .replaced ⟨_, _, proven, source, found, root.symm, Records.mem_replicas.mpr ⟨_, placed', destination⟩⟩
    | recommitted commits target =>
      obtain ⟨same, -⟩ | ⟨fresh, recommits, replicas, -⟩ := Step.commitsPlacement step commits target placed
      · exact absurd member (same ▸ gone)
      by_cases evidence : machine.records.Replaced topic range segment node (after.records.replicas topic range segment)
      · exact .replaced evidence
      · exact absurd ⟨commits, target, fresh, recommits, replicas ▸ gone, replicas ▸ evidence⟩ (keeps _)

end Leaving

section DrainedNode

attribute [local instance] External.plain

/-- The one replica is drained, so that a second node is the only active one. -/
def drainedMachine : MetaStateMachine :=
  placedMachine.afterLog
    [(7, .SetNodeState { env := ⟨7, 0⟩, nodeUuid := 7, state := .Draining, expectedGeneration := 0 }),
      (8, .RegisterNode { env := ⟨8, 0⟩, nodeUuid := 8, addr := "second", expectedGeneration := none })]

/-- The placement committed anew, with the generation it has. -/
def recommitRequest : MetadataCommand :=
  .CommitSegmentPlacement
    { env := ⟨9, 0⟩, topicUuid := 10, rangeUuid := 11, segmentUuid := 20, replicationFactor := 1,
      replicaNodes := [8], expectedSegmentGeneration := 1, expectedPlacementGeneration := some 0 }

def recommittedMachine : MetaStateMachine := drainedMachine.afterLog [(9, recommitRequest)]

/-- Node 7, which alone holds the segment, leaves; nobody has proven that node 8 holds it. -/
theorem recommit_drops_only_replica :
    drainedMachine.Reached ∧ drainedMachine.Step ⟨9, recommitRequest, .Ack 1⟩ recommittedMachine
      ∧ drainedMachine.records.replicas 10 11 20 = [7] ∧ recommittedMachine.records.replicas 10 11 20 = [8]
      ∧ ¬ drainedMachine.LeavesWithReason ⟨9, recommitRequest, .Ack 1⟩ recommittedMachine 10 11 20 7 := by
  have reached : drainedMachine.Reached := (leasedMachine_reached.afterLog _).afterLog _
  refine ⟨reached, rfl, by decide +kernel, by decide +kernel, fun reason => ?_⟩
  cases reason with
  | @expired _ record _ _ found' gone =>
    have state : (recommittedMachine.records.segment? 10 11 20).map (·.state) = some .Verified := by decide +kernel
    rw [found'] at state
    cases gone.symm.trans (Option.some.inj state)
  | cancelled cancels => cases cancels
  | replaced evidence =>
    obtain ⟨proof, _, proven, -⟩ := evidence
    have unproven : drainedMachine.records.proof? 10 11 20 = none := by decide +kernel
    cases unproven.symm.trans proven

def cancelRequest : MetadataCommand :=
  .CancelRebalance
    { env := ⟨9, 0⟩, topicUuid := 10, rangeUuid := 11, segmentUuid := 20, expectedPlacementGeneration := 1 }

/-- The destination of a move that is called off leaves for that reason. -/
theorem cancelled_destination_leaves_with_reason : 8 ∈ movingMachine.records.replicas 10 11 20
      ∧ 8 ∉ (movingMachine.afterLog [(9, cancelRequest)]).records.replicas 10 11 20
      ∧ movingMachine.LeavesWithReason ⟨9, cancelRequest, .Ack 2⟩ (movingMachine.afterLog [(9, cancelRequest)])
        10 11 20 8 := by
  have reached : movingMachine.Reached := (leasedMachine_reached.afterLog _).afterLog _
  have step : movingMachine.Step ⟨9, cancelRequest, .Ack 2⟩ (movingMachine.afterLog [(9, cancelRequest)]) := rfl
  have member : 8 ∈ movingMachine.records.replicas 10 11 20 := by decide +kernel
  have gone : 8 ∉ (movingMachine.afterLog [(9, cancelRequest)]).records.replicas 10 11 20 := by decide +kernel
  refine ⟨member, gone, (replica_leaves_with_evidence_iff reached step member).mpr (fun args drops => ?_) gone⟩
  cases drops.commits

end DrainedNode

end VtopEngine.Meta
