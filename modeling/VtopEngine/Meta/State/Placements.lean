import VtopEngine.Meta.State.Core
import VtopEngine.Meta.Placement

/-! # Segment placements and replica moves

A placement is the deterministic selection over the active nodes.  A replica
leaves it in three steps: evidence that another node holds the sealed bytes
(`CommitReplacementProof`), a plan, a confirmation.  A rebalance wraps these
three: it adds the destination first and locks the placement until the move is
confirmed or cancelled.
-/

namespace VtopEngine.Meta

open Lib Command
open Txn (need need_keeps reject rejectIf rejectIf_keeps wp_read_bind write)

variable {records : Records} {applyIndex : UInt64}

/-! ## Committing a placement -/

/-- The nodes a placement may be built from, in key order. -/
def Records.activePlacementCandidates (records : Records) : List PlacementCandidate :=
  records.entries.filterMap fun entry =>
    match MetaKey.decode entry.1, entry.2 with
    | .ok (.Node nodeUuid), .Node node =>
      if node.state ≠ .Active then
        none
      else if node.placementWeight < MIN_PLACEMENT_WEIGHT then
        none
      else
        some { nodeUuid, failureDomain := node.failureDomain, weight := node.placementWeight }
    | _, _ => none

/-- The placement record a commit writes. -/
def Command.CommitSegmentPlacement.placement (args : CommitSegmentPlacement) (generation applyIndex : UInt64) :
    SegmentPlacementRecord :=
  { generation, declaredReplicationFactor := args.replicationFactor, replicaNodes := args.replicaNodes,
    committedApplyIndex := applyIndex }

def commitSegmentPlacement [External] (applyIndex : UInt64) (args : CommitSegmentPlacement) : Handler := do
  let rf := args.replicationFactor.toNat
  rejectIf (rf < 1 ∨ rf > MAX_REPLICAS)
    (.limit s!"replication factor must be 1..={MAX_REPLICAS}, got {args.replicationFactor}")
  rejectIf (args.replicaNodes.length ≠ rf)
    (.invalidTransition (s!"replica set length {args.replicaNodes.length} does not match "
      ++ s!"replication_factor {args.replicationFactor}"))
  rejectIf (¬ args.replicaNodes.Nodup) (.invalidTransition "replica set contains duplicate node ids")
  let segment ← need (·.segment? args.topicUuid args.rangeUuid args.segmentUuid) .NotFound
  rejectIf (segment.segmentGeneration ≠ args.expectedSegmentGeneration)
    (.GenerationMismatch args.expectedSegmentGeneration segment.segmentGeneration)
  rejectIf (segment.state ≠ .Verified) (.invalidTransition "placement requires a verified segment")
  rejectIf ((← Txn.read (·.record (.SegmentRebalanceIntent args.topicUuid args.rangeUuid args.segmentUuid))).isSome)
    (.invalidTransition "placement is locked by an active rebalance intent")
  let selection ← Txn.read fun records => selectReplicas args.segmentUuid records.activePlacementCandidates rf (rf > 1)
  match selection with
  | .error error => reject (.invalidTransition error.display)
  | .ok expected =>
    rejectIf (args.replicaNodes ≠ expected)
      (.invalidTransition "proposed replica set does not match deterministic placement")
    let existing ← Txn.read (·.record (.SegmentPlacement args.topicUuid args.rangeUuid args.segmentUuid))
    match existing, args.expectedPlacementGeneration with
    | none, none =>
      write (·.put (.SegmentPlacement args.topicUuid args.rangeUuid args.segmentUuid)
        (.SegmentPlacement (args.placement 0 applyIndex)))
      return .Ack 0
    | none, some _ => reject .NotFound
    | some _, none => reject .AlreadyExists
    | some (.SegmentPlacement existing), some expectedGeneration =>
      rejectIf (existing.generation ≠ expectedGeneration) (.GenerationMismatch expectedGeneration existing.generation)
      let nextGeneration ← need (fun _ => checkedSucc existing.generation) (.limit "placement generation space is exhausted")
      write (·.put (.SegmentPlacement args.topicUuid args.rangeUuid args.segmentUuid)
        (.SegmentPlacement (args.placement nextGeneration applyIndex)))
      return .Ack nextGeneration
    | some _, some _ => Txn.unreachable "placement keys only ever hold placement records"

/-- What every accepted placement has passed, whether or not one was stored. -/
structure Command.CommitSegmentPlacement.Admits [External] (args : CommitSegmentPlacement) (records : Records) :
    Prop where
  factor : 1 ≤ args.replicationFactor.toNat ∧ args.replicationFactor.toNat ≤ MAX_REPLICAS
  length : args.replicaNodes.length = args.replicationFactor.toNat
  distinct : args.replicaNodes.Nodup
  verified : ∃ segment, records.segment? args.topicUuid args.rangeUuid args.segmentUuid = some segment
    ∧ segment.segmentGeneration = args.expectedSegmentGeneration ∧ segment.state = .Verified
  unlocked : records.record (.SegmentRebalanceIntent args.topicUuid args.rangeUuid args.segmentUuid) = none
  selected : selectReplicas args.segmentUuid records.activePlacementCandidates args.replicationFactor.toNat
    (args.replicationFactor.toNat > 1) = .ok args.replicaNodes

inductive Command.CommitSegmentPlacement.Accepted [External] (args : CommitSegmentPlacement) (applyIndex : UInt64)
    (records : Records) : MetadataResponse → Records → Prop
  | first (admits : args.Admits records)
      (absent : records.record (.SegmentPlacement args.topicUuid args.rangeUuid args.segmentUuid) = none) :
      Accepted args applyIndex records (.Ack 0)
        (records.put (.SegmentPlacement args.topicUuid args.rangeUuid args.segmentUuid)
          (.SegmentPlacement (args.placement 0 applyIndex)))
  | update (admits : args.Admits records)
      (stored : records.placement? args.topicUuid args.rangeUuid args.segmentUuid = some existing)
      (expected : args.expectedPlacementGeneration = some existing.generation)
      (next : checkedSucc existing.generation = some nextGeneration) :
      Accepted args applyIndex records (.Ack nextGeneration)
        (records.put (.SegmentPlacement args.topicUuid args.rangeUuid args.segmentUuid)
          (.SegmentPlacement (args.placement nextGeneration applyIndex)))

theorem commitSegmentPlacement_spec [External] (args) :
    (commitSegmentPlacement applyIndex args).Meets (args.Accepted applyIndex) records := by
  refine rejectIf_keeps fun factor => rejectIf_keeps fun length => ?_
  refine rejectIf_keeps fun distinct => need_keeps fun segment found => ?_
  refine rejectIf_keeps fun current => rejectIf_keeps fun verified => ?_
  refine wp_read_bind (rejectIf_keeps fun unlocked => wp_read_bind ?_)
  split
  · exact Txn.reject_keeps
  · next expected selected =>
    refine rejectIf_keeps fun proposed => wp_read_bind ?_
    obtain rfl := not_not.mp proposed
    have admits : args.Admits records :=
      ⟨by omega, not_not.mp length, not_not.mp distinct, ⟨segment, found, not_not.mp current, not_not.mp verified⟩,
        Option.not_isSome_iff_eq_none.mp unlocked, selected⟩
    split
    · next absent _ => exact .first admits absent
    · exact Txn.reject_keeps
    · exact Txn.reject_keeps
    · next existing generation stored expected =>
      refine rejectIf_keeps fun same => need_keeps fun nextGeneration next => ?_
      refine .update admits ?_ ((not_not.mp same) ▸ expected) next
      simp only [Records.placement?, Records.lookup, stored, Option.bind_some, MetaValue.asSegmentPlacement]
    · next value generation notPlacement stored expected =>
      refine Txn.unchanged_panicked fun healthy => ?_
      have kind := healthy.typed _ _ stored
      cases value <;> simp_all [keyMatchesValue]

/-- The checks of a placement that is committed anew, on what is stored before it. -/
structure Command.CommitSegmentPlacement.Recommits [External] (args : CommitSegmentPlacement) (records : Records) :
    Prop where
  admits : args.Admits records
  replaces : ∃ existing, records.placement? args.topicUuid args.rangeUuid args.segmentUuid = some existing
    ∧ args.expectedPlacementGeneration = some existing.generation ∧ checkedSucc existing.generation ≠ none

theorem Command.CommitSegmentPlacement.Recommits.runs [External] {args : CommitSegmentPlacement}
    (recommits : args.Recommits records) : (commitSegmentPlacement applyIndex args).wp
      (fun response _ => ∃ generation, response = .Ack generation) (fun _ _ => False) records := by
  obtain ⟨⟨factor, length, distinct, ⟨segment, found, current, verified⟩, unlocked, selected⟩, existing, placed, expected,
    room⟩ := recommits
  obtain ⟨next, succeeds⟩ := Option.ne_none_iff_exists'.mp room
  obtain ⟨value, stored, seen⟩ := Option.bind_eq_some_iff.mp placed
  cases value <;> simp only [MetaValue.asSegmentPlacement, reduceCtorEq, Option.some.injEq] at seen
  subst seen
  refine Txn.rejectIf_passes (by omega) (Txn.rejectIf_passes (not_not.mpr length) ?_)
  refine Txn.rejectIf_passes (not_not.mpr distinct) (Txn.need_found found (Txn.rejectIf_passes (not_not.mpr current) ?_))
  refine Txn.rejectIf_passes (not_not.mpr verified) (wp_read_bind (Txn.rejectIf_passes (by simp [unlocked]) ?_))
  refine wp_read_bind ?_
  rw [selected]
  refine Txn.rejectIf_passes (not_not.mpr rfl) (wp_read_bind ?_)
  rw [stored, expected]
  exact Txn.rejectIf_passes (by simp) (Txn.need_found succeeds ⟨_, rfl⟩)

/-! ## Replacement proofs -/

/-- The nodes a proof names must be registered and alive. -/
def Records.deadNodeRefusal (records : Records) : List Uuid → Option MetadataError
  | [] => none
  | nodeUuid :: rest =>
    match records.node? nodeUuid with
    | none => some .NotFound
    | some node =>
      if node.state = .Dead then
        some (.invalidTransition "replacement proof references a dead node")
      else
        records.deadNodeRefusal rest

/-- The stored proof is about the same bytes and the same move. -/
def Command.CommitReplacementProof.SameMove (args : CommitReplacementProof) (existing : ReplacementProofRecord) : Prop :=
  existing.segmentGeneration = args.expectedSegmentGeneration ∧ existing.contentRoot = args.contentRoot
    ∧ existing.expectedLengthBytes = args.expectedLengthBytes ∧ existing.sourceNodeUuid = args.sourceNodeUuid
    ∧ existing.destinationNodeUuid = args.destinationNodeUuid
    ∧ existing.verificationMethod = args.verificationMethod

instance (args : CommitReplacementProof) (existing : ReplacementProofRecord) : Decidable (args.SameMove existing) :=
  inferInstanceAs (Decidable (_ ∧ _))

/-- A stored proof may only be restated for its own move, under another epoch. -/
def proofGeneration (args : CommitReplacementProof) : Option ReplacementProofRecord → Txn Records MetadataError UInt64
  | none => return 0
  | some existing => do
    rejectIf (existing.fencingEpoch = args.fencingEpoch) .AlreadyExists
    rejectIf (¬ args.SameMove existing) (.invalidTransition "stale replacement proof identity does not match the new proof")
    need (fun _ => checkedSucc existing.generation) (.limit "replacement proof generation space is exhausted")

def Command.CommitReplacementProof.proof (args : CommitReplacementProof) (generation applyIndex : UInt64) :
    ReplacementProofRecord :=
  { generation, segmentGeneration := args.expectedSegmentGeneration, contentRoot := args.contentRoot,
    expectedLengthBytes := args.expectedLengthBytes, sourceNodeUuid := args.sourceNodeUuid,
    destinationNodeUuid := args.destinationNodeUuid, fencingEpoch := args.fencingEpoch,
    verificationMethod := args.verificationMethod, verifierNodeUuid := args.verifierNodeUuid,
    verifiedAtApplyIndex := applyIndex, verifiedTerm := args.verifiedTerm }

def commitReplacementProof (applyIndex : UInt64) (args : CommitReplacementProof) : Handler := do
  rejectIf (args.sourceNodeUuid = args.destinationNodeUuid)
    (.invalidTransition "replacement source and destination must differ")
  rejectIf (args.expectedLengthBytes = 0) (.limit "replacement expected length must be > 0")
  rejectIf (args.verificationMethod ≠ .AuthenticatedContentRoot)
    (.invalidTransition "unsupported verification method for replacement proof")
  let range ← need (·.range? args.topicUuid args.rangeUuid) .NotFound
  let lease ← need (fun _ => range.lease) (.invalidTransition "range holds no active lease for replacement proof")
  rejectIf (args.fencingEpoch ≠ lease.fencingEpoch) (.EpochMismatch args.fencingEpoch lease.fencingEpoch)
  let segment ← need (·.segment? args.topicUuid args.rangeUuid args.segmentUuid) .NotFound
  rejectIf (segment.segmentGeneration ≠ args.expectedSegmentGeneration)
    (.GenerationMismatch args.expectedSegmentGeneration segment.segmentGeneration)
  rejectIf (segment.state ≠ .Verified ∧ segment.state ≠ .Repairing)
    (.invalidTransition "replacement proof requires a verified or repairing segment")
  rejectIf (segment.contentRoot ≠ args.contentRoot)
    (.invalidTransition "replacement proof content root does not match sealed segment")
  Txn.rejectSome (← Txn.read (·.deadNodeRefusal [args.sourceNodeUuid, args.destinationNodeUuid, args.verifierNodeUuid]))
  let intent ← Txn.read (·.intent? args.topicUuid args.rangeUuid args.segmentUuid)
  rejectIf (∃ intent' ∈ intent, intent'.fromNodeUuid ≠ args.sourceNodeUuid ∨ intent'.toNodeUuid ≠ args.destinationNodeUuid)
    (.invalidTransition "replacement proof does not match the active rebalance intent")
  let existing ← expect MetaValue.asReplacementProof
    (.SegmentReplacementProof args.topicUuid args.rangeUuid args.segmentUuid)
    "replacement-proof keys only hold proof records"
  let generation ← proofGeneration args existing
  write (·.put (.SegmentReplacementProof args.topicUuid args.rangeUuid args.segmentUuid)
    (.ReplacementProof (args.proof generation applyIndex)))
  return .Ack generation

/-- The generation an accepted proof is stored under. -/
inductive Command.CommitReplacementProof.Restates (args : CommitReplacementProof) :
    Option ReplacementProofRecord → UInt64 → Prop
  | first : Restates args none 0
  | again (same : args.SameMove existing)
      (next : checkedSucc existing.generation = some generation) : Restates args (some existing) generation

theorem proofGeneration_spec (args existing) : (proofGeneration args existing).wp
      (fun generation reached => reached = records ∧ args.Restates existing generation) (Clean records) records := by
  cases existing with
  | none => exact ⟨rfl, .first⟩
  | some existing =>
    refine rejectIf_keeps fun _ => rejectIf_keeps fun same => ?_
    exact Txn.wp_need (fun _ next => ⟨rfl, .again (not_not.mp same) next⟩) fun _ => Txn.unchanged_rejected

inductive Command.CommitReplacementProof.Accepted (args : CommitReplacementProof) (applyIndex : UInt64)
    (records : Records) : MetadataResponse → Records → Prop
  | intro {segment : SegmentRecord}
      (distinct : args.sourceNodeUuid ≠ args.destinationNodeUuid)
      (found : records.range? args.topicUuid args.rangeUuid = some range) (held : range.lease = some lease)
      (epoch : args.fencingEpoch = lease.fencingEpoch)
      (sealedSegment : records.segment? args.topicUuid args.rangeUuid args.segmentUuid = some segment)
      (current : segment.segmentGeneration = args.expectedSegmentGeneration)
      (state : segment.state = .Verified ∨ segment.state = .Repairing)
      (root : segment.contentRoot = args.contentRoot)
      (intended : ∀ intent, records.intent? args.topicUuid args.rangeUuid args.segmentUuid = some intent →
        intent.fromNodeUuid = args.sourceNodeUuid ∧ intent.toNodeUuid = args.destinationNodeUuid)
      (restates : args.Restates (records.proof? args.topicUuid args.rangeUuid args.segmentUuid) generation) :
      Accepted args applyIndex records (.Ack generation)
        (records.put (.SegmentReplacementProof args.topicUuid args.rangeUuid args.segmentUuid)
          (.ReplacementProof (args.proof generation applyIndex)))

theorem commitReplacementProof_spec (args) :
    (commitReplacementProof applyIndex args).Meets (args.Accepted applyIndex) records := by
  refine rejectIf_keeps fun distinct => rejectIf_keeps fun _ => ?_
  refine rejectIf_keeps fun _ => need_keeps fun range found => ?_
  refine need_keeps fun lease held => rejectIf_keeps fun epoch => ?_
  refine need_keeps fun segment sealedSegment => rejectIf_keeps fun current => ?_
  refine rejectIf_keeps fun state => rejectIf_keeps fun root => ?_
  refine wp_read_bind (Txn.rejectSome_keeps fun _ => wp_read_bind ?_)
  refine rejectIf_keeps fun intended => ?_
  refine expect_keeps (by intro value; cases value <;> simp [keyMatchesValue]) ?_
  refine Txn.check_keeps (proofGeneration_spec args _) fun generation restates => ?_
  refine .intro distinct found held (not_not.mp epoch) sealedSegment (not_not.mp current) ?_ (not_not.mp root) ?_ restates
  · rwa [not_and_or, not_not, not_not] at state
  · intro intent stored
    have agrees : ¬ (_ ∨ _) := fun differs => intended ⟨intent, stored, differs⟩
    rwa [not_or, not_not, not_not] at agrees

/-! ## Retiring a replica -/

def planReplicaRetirement (args : PlanReplicaRetirement) : Handler := do
  let range ← need (·.range? args.topicUuid args.rangeUuid) .NotFound
  let lease ← need (fun _ => range.lease) (.invalidTransition "range holds no active lease for retirement planning")
  rejectIf (args.fencingEpoch ≠ lease.fencingEpoch) (.EpochMismatch args.fencingEpoch lease.fencingEpoch)
  let intent ← Txn.read (·.intent? args.topicUuid args.rangeUuid args.segmentUuid)
  rejectIf (∃ intent' ∈ intent, intent'.fromNodeUuid ≠ args.retiringNodeUuid)
    (.invalidTransition "segment has an active rebalance intent for a different node")
  let proof ← need (·.proof? args.topicUuid args.rangeUuid args.segmentUuid)
    (.invalidTransition "replica retirement requires a committed replacement proof")
  rejectIf (proof.segmentGeneration ≠ args.expectedSegmentGeneration)
    (.GenerationMismatch args.expectedSegmentGeneration proof.segmentGeneration)
  rejectIf (proof.fencingEpoch ≠ args.fencingEpoch) (.EpochMismatch args.fencingEpoch proof.fencingEpoch)
  rejectIf (proof.destinationNodeUuid = args.retiringNodeUuid)
    (.invalidTransition "cannot retire the verified replacement destination")
  rejectIf (proof.sourceNodeUuid ≠ args.retiringNodeUuid)
    (.invalidTransition "retiring node is not the replacement proof source")
  let placement ← need (·.placement? args.topicUuid args.rangeUuid args.segmentUuid)
    (.invalidTransition "replica retirement requires a committed segment placement")
  rejectIf (proof.destinationNodeUuid ∉ placement.replicaNodes)
    (.invalidTransition "placement does not contain the verified replacement destination")
  rejectIf (args.retiringNodeUuid ∉ placement.replicaNodes)
    (.invalidTransition "placement does not contain the retiring source replica")
  let segment ← need (·.segment? args.topicUuid args.rangeUuid args.segmentUuid) .NotFound
  rejectIf (segment.segmentGeneration ≠ args.expectedSegmentGeneration)
    (.GenerationMismatch args.expectedSegmentGeneration segment.segmentGeneration)
  rejectIf (segment.contentRoot ≠ proof.contentRoot)
    (.invalidTransition "segment content root no longer matches replacement proof")
  rejectIf (segment.state ≠ .Verified) (.invalidTransition "retirement planning requires a verified segment")
  let nextGeneration ← need (fun _ => checkedSucc segment.segmentGeneration) (.limit "segment generation space is exhausted")
  write (·.put (.Segment args.topicUuid args.rangeUuid args.segmentUuid) (.Segment
    { segment with state := .RetirePlanned, segmentGeneration := nextGeneration }))
  return .Ack nextGeneration

inductive Command.PlanReplicaRetirement.Accepted (args : PlanReplicaRetirement) (records : Records) :
    MetadataResponse → Records → Prop
  | intro {segment : SegmentRecord}
      (found : records.range? args.topicUuid args.rangeUuid = some range) (held : range.lease = some lease)
      (epoch : args.fencingEpoch = lease.fencingEpoch)
      (proven : records.proof? args.topicUuid args.rangeUuid args.segmentUuid = some proof)
      (source : proof.sourceNodeUuid = args.retiringNodeUuid)
      (placed : records.placement? args.topicUuid args.rangeUuid args.segmentUuid = some placement)
      (destination : proof.destinationNodeUuid ∈ placement.replicaNodes)
      (retiring : args.retiringNodeUuid ∈ placement.replicaNodes)
      (sealedSegment : records.segment? args.topicUuid args.rangeUuid args.segmentUuid = some segment)
      (root : segment.contentRoot = proof.contentRoot) (state : segment.state = .Verified)
      (next : checkedSucc segment.segmentGeneration = some nextGeneration) :
      Accepted args records (.Ack nextGeneration)
        (records.put (.Segment args.topicUuid args.rangeUuid args.segmentUuid) (.Segment
          { segment with state := .RetirePlanned, segmentGeneration := nextGeneration }))

theorem planReplicaRetirement_spec (args) : (planReplicaRetirement args).Meets args.Accepted records := by
  refine need_keeps fun range found => need_keeps fun lease held => ?_
  refine rejectIf_keeps fun epoch => wp_read_bind (rejectIf_keeps fun _ => ?_)
  refine need_keeps fun proof proven => rejectIf_keeps fun _ => ?_
  refine rejectIf_keeps fun _ => rejectIf_keeps fun _ => rejectIf_keeps fun source => ?_
  refine need_keeps fun placement placed => rejectIf_keeps fun destination => ?_
  refine rejectIf_keeps fun retiring => need_keeps fun segment sealedSegment => ?_
  refine rejectIf_keeps fun _ => rejectIf_keeps fun root => rejectIf_keeps fun state => ?_
  refine need_keeps fun nextGeneration next => ?_
  exact .intro found held (not_not.mp epoch) proven (not_not.mp source) placed (not_not.mp destination)
    (not_not.mp retiring) sealedSegment (not_not.mp root) (not_not.mp state) next

/-- The confirmed move is the one the rebalance intent asked for. -/
def Records.completesRebalance (records : Records) (args : ConfirmReplicaRetired) (destination : Uuid) : Bool :=
  match records.intent? args.topicUuid args.rangeUuid args.segmentUuid with
  | some intent => intent.fromNodeUuid = args.retiringNodeUuid ∧ intent.toNodeUuid = destination
  | none => false

/-- A confirmation consumes the proof, and the intent it completes. -/
def Command.ConfirmReplicaRetired.consume (args : ConfirmReplicaRetired) (completesRebalance : Bool)
    (records : Records) : Records :=
  (if completesRebalance then records.remove (.SegmentRebalanceIntent args.topicUuid args.rangeUuid args.segmentUuid)
    else records).remove (.SegmentReplacementProof args.topicUuid args.rangeUuid args.segmentUuid)

/-- The placement without one replica; the declared factor stays what it was. -/
def SegmentPlacementRecord.without (placement : SegmentPlacementRecord) (nodeUuid : Uuid)
    (generation applyIndex : UInt64) : SegmentPlacementRecord :=
  { placement with
    replicaNodes := placement.replicaNodes.filter (· ≠ nodeUuid)
    generation
    committedApplyIndex := applyIndex }

def confirmReplicaRetired (applyIndex : UInt64) (args : ConfirmReplicaRetired) : Handler := do
  let proof ← need (·.proof? args.topicUuid args.rangeUuid args.segmentUuid)
    (.invalidTransition "replica retirement confirmation requires a committed replacement proof")
  rejectIf (proof.sourceNodeUuid ≠ args.retiringNodeUuid)
    (.invalidTransition "retiring node is not the replacement proof source")
  let destination := proof.destinationNodeUuid
  let completesRebalance ← Txn.read (·.completesRebalance args destination)
  let segment ← need (·.segment? args.topicUuid args.rangeUuid args.segmentUuid) .NotFound
  rejectIf (segment.segmentGeneration ≠ args.expectedSegmentGeneration)
    (.GenerationMismatch args.expectedSegmentGeneration segment.segmentGeneration)
  rejectIf (segment.state ≠ .RetirePlanned) (.invalidTransition "retirement confirmation requires RETIRE_PLANNED")
  let nextGeneration ← need (fun _ => checkedSucc segment.segmentGeneration) (.limit "segment generation space is exhausted")
  match ← Txn.read (·.placement? args.topicUuid args.rangeUuid args.segmentUuid) with
  | some placement =>
    rejectIf (destination ∉ placement.replicaNodes)
      (.invalidTransition "placement no longer contains the verified replacement destination")
    rejectIf (args.retiringNodeUuid ∉ placement.replicaNodes)
      (.invalidTransition "placement no longer contains the retiring source replica")
    let nextPlacementGeneration ← need (fun _ => checkedSucc placement.generation)
      (.limit "placement generation space is exhausted")
    write (·.put (.Segment args.topicUuid args.rangeUuid args.segmentUuid) (.Segment
      { segment with state := .Verified, segmentGeneration := nextGeneration }))
    write (·.put (.SegmentPlacement args.topicUuid args.rangeUuid args.segmentUuid) (.SegmentPlacement
      (placement.without args.retiringNodeUuid nextPlacementGeneration applyIndex)))
    write (args.consume completesRebalance)
    return .Ack nextGeneration
  | none =>
    write (·.put (.Segment args.topicUuid args.rangeUuid args.segmentUuid) (.Segment
      { segment with state := .Retired, segmentGeneration := nextGeneration }))
    write (args.consume completesRebalance)
    return .Ack nextGeneration

/-- What both ways of confirming have passed. -/
structure Command.ConfirmReplicaRetired.Admits (args : ConfirmReplicaRetired) (records : Records)
    (proof : ReplacementProofRecord) (segment : SegmentRecord) (nextGeneration : UInt64) : Prop where
  proven : records.proof? args.topicUuid args.rangeUuid args.segmentUuid = some proof
  source : proof.sourceNodeUuid = args.retiringNodeUuid
  found : records.segment? args.topicUuid args.rangeUuid args.segmentUuid = some segment
  state : segment.state = .RetirePlanned
  next : checkedSucc segment.segmentGeneration = some nextGeneration

inductive Command.ConfirmReplicaRetired.Accepted (args : ConfirmReplicaRetired) (applyIndex : UInt64)
    (records : Records) : MetadataResponse → Records → Prop
  | surviving {segment : SegmentRecord} (admits : args.Admits records proof segment nextGeneration)
      (placed : records.placement? args.topicUuid args.rangeUuid args.segmentUuid = some placement)
      (destination : proof.destinationNodeUuid ∈ placement.replicaNodes)
      (retiring : args.retiringNodeUuid ∈ placement.replicaNodes)
      (nextPlacement : checkedSucc placement.generation = some nextPlacementGeneration) :
      Accepted args applyIndex records (.Ack nextGeneration)
        (args.consume (records.completesRebalance args proof.destinationNodeUuid)
          ((records.put (.Segment args.topicUuid args.rangeUuid args.segmentUuid) (.Segment
              { segment with state := .Verified, segmentGeneration := nextGeneration })).put
            (.SegmentPlacement args.topicUuid args.rangeUuid args.segmentUuid) (.SegmentPlacement
              (placement.without args.retiringNodeUuid nextPlacementGeneration applyIndex))))
  | unplaced {segment : SegmentRecord}
      (admits : args.Admits records proof segment nextGeneration)
      (placeless : records.placement? args.topicUuid args.rangeUuid args.segmentUuid = none) :
      Accepted args applyIndex records (.Ack nextGeneration)
        (args.consume (records.completesRebalance args proof.destinationNodeUuid)
          (records.put (.Segment args.topicUuid args.rangeUuid args.segmentUuid) (.Segment
            { segment with state := .Retired, segmentGeneration := nextGeneration })))

theorem confirmReplicaRetired_spec (args) :
    (confirmReplicaRetired applyIndex args).Meets (args.Accepted applyIndex) records := by
  refine need_keeps fun proof proven => rejectIf_keeps fun source => wp_read_bind ?_
  refine need_keeps fun segment found => rejectIf_keeps fun _ => ?_
  refine rejectIf_keeps fun state => need_keeps fun nextGeneration next => wp_read_bind ?_
  have admits : args.Admits records proof segment nextGeneration :=
    ⟨proven, not_not.mp source, found, not_not.mp state, next⟩
  split
  · next placement placed =>
    refine rejectIf_keeps fun destination => rejectIf_keeps fun retiring => ?_
    refine need_keeps fun nextPlacementGeneration nextPlacement => ?_
    exact .surviving admits placed (not_not.mp destination) (not_not.mp retiring) nextPlacement
  · next placeless => exact .unplaced admits placeless

/-! ## Rebalancing -/

/-- The destination must not share a failure domain with a replica that stays. -/
def Records.survivorRefusal [External] (records : Records) (toNode : NodeRecord) : List Uuid → Option MetadataError
  | [] => none
  | survivor :: rest =>
    match records.node? survivor with
    | none => some (.invalidTransition s!"surviving replica {hyphenated survivor} has no node record")
    | some survivorNode =>
      if survivorNode.failureDomain = toNode.failureDomain then
        some (.invalidTransition (s!"rebalance destination shares failure domain {External.debugStr toNode.failureDomain} "
            ++ s!"with surviving replica {hyphenated survivor}"))
      else
        records.survivorRefusal toNode rest

/-- The placement with the destination of a move added. -/
def SegmentPlacementRecord.including (placement : SegmentPlacementRecord) (nodeUuid : Uuid)
    (generation applyIndex : UInt64) : SegmentPlacementRecord :=
  { placement with
    replicaNodes := placement.replicaNodes ++ [nodeUuid]
    generation
    committedApplyIndex := applyIndex }

def Command.ProposeRebalance.intent (args : ProposeRebalance) (applyIndex : UInt64) : RebalanceIntentRecord :=
  { fromNodeUuid := args.fromNodeUuid, toNodeUuid := args.toNodeUuid, proposedAtApplyIndex := applyIndex,
    placementGenerationAtProposal := args.expectedPlacementGeneration }

def proposeRebalance [External] (applyIndex : UInt64) (args : ProposeRebalance) : Handler := do
  let segment ← need (·.segment? args.topicUuid args.rangeUuid args.segmentUuid) .NotFound
  let placement ← need (·.placement? args.topicUuid args.rangeUuid args.segmentUuid) .NotFound
  let toNode ← need (·.node? args.toNodeUuid) .NotFound
  rejectIf (placement.generation ≠ args.expectedPlacementGeneration)
    (.GenerationMismatch args.expectedPlacementGeneration placement.generation)
  rejectIf ((← Txn.read (·.record (.SegmentRebalanceIntent args.topicUuid args.rangeUuid args.segmentUuid))).isSome)
    .AlreadyExists
  rejectIf (segment.state ≠ .Verified) (.invalidTransition "rebalance requires a verified segment")
  rejectIf ((← Txn.read (·.record (.SegmentReplacementProof args.topicUuid args.rangeUuid args.segmentUuid))).isSome)
    (.invalidTransition "segment already has a committed replacement proof")
  rejectIf (args.fromNodeUuid = args.toNodeUuid) (.invalidTransition "rebalance source and destination must differ")
  rejectIf (args.fromNodeUuid ∉ placement.replicaNodes)
    (.invalidTransition "rebalance source is not in the current placement")
  rejectIf (args.toNodeUuid ∈ placement.replicaNodes)
    (.invalidTransition "rebalance destination is already in the placement")
  rejectIf (toNode.state ≠ .Active)
    (.invalidTransition s!"rebalance destination {hyphenated args.toNodeUuid} is {toNode.state.asStr}, not active")
  rejectIf (toNode.placementWeight < MIN_PLACEMENT_WEIGHT)
    (.invalidTransition "rebalance destination has no placement weight")
  rejectIf (placement.replicaNodes.length ≥ MAX_TRANSIENT_REPLICAS)
    (.limit s!"placement already holds {MAX_TRANSIENT_REPLICAS} replicas")
  let refusal ← Txn.read fun records =>
    if placement.declaredReplicationFactor.toNat > 1 then
      records.survivorRefusal toNode (placement.replicaNodes.filter (· ≠ args.fromNodeUuid))
    else
      none
  Txn.rejectSome refusal
  let nextPlacementGeneration ← need (fun _ => checkedSucc placement.generation)
    (.limit "placement generation space is exhausted")
  write (·.put (.SegmentRebalanceIntent args.topicUuid args.rangeUuid args.segmentUuid)
    (.RebalanceIntent (args.intent applyIndex)))
  match ← Txn.read (·.placement? args.topicUuid args.rangeUuid args.segmentUuid) with
  | none => Txn.unreachable "placement record was present above and apply is single-threaded"
  | some placement =>
    write (·.put (.SegmentPlacement args.topicUuid args.rangeUuid args.segmentUuid) (.SegmentPlacement
      (placement.including args.toNodeUuid nextPlacementGeneration applyIndex)))
    return .Ack nextPlacementGeneration

inductive Command.ProposeRebalance.Accepted (args : ProposeRebalance) (applyIndex : UInt64) (records : Records) :
    MetadataResponse → Records → Prop
  | intro {segment : SegmentRecord}
      (found : records.segment? args.topicUuid args.rangeUuid args.segmentUuid = some segment)
      (placed : records.placement? args.topicUuid args.rangeUuid args.segmentUuid = some placement)
      (unlocked : records.record (.SegmentRebalanceIntent args.topicUuid args.rangeUuid args.segmentUuid) = none)
      (state : segment.state = .Verified)
      (unproven : records.record (.SegmentReplacementProof args.topicUuid args.rangeUuid args.segmentUuid) = none)
      (distinct : args.fromNodeUuid ≠ args.toNodeUuid) (source : args.fromNodeUuid ∈ placement.replicaNodes)
      (destination : args.toNodeUuid ∉ placement.replicaNodes)
      (room : placement.replicaNodes.length < MAX_TRANSIENT_REPLICAS)
      (next : checkedSucc placement.generation = some nextPlacementGeneration) :
      Accepted args applyIndex records (.Ack nextPlacementGeneration)
        ((records.put (.SegmentRebalanceIntent args.topicUuid args.rangeUuid args.segmentUuid)
            (.RebalanceIntent (args.intent applyIndex))).put
          (.SegmentPlacement args.topicUuid args.rangeUuid args.segmentUuid) (.SegmentPlacement
            (placement.including args.toNodeUuid nextPlacementGeneration applyIndex)))

theorem proposeRebalance_spec [External] (args) :
    (proposeRebalance applyIndex args).Meets (args.Accepted applyIndex) records := by
  refine need_keeps fun segment found => need_keeps fun placement placed => ?_
  refine need_keeps fun toNode _ => rejectIf_keeps fun _ => ?_
  refine wp_read_bind (rejectIf_keeps fun unlocked => rejectIf_keeps fun state => ?_)
  refine wp_read_bind (rejectIf_keeps fun unproven => rejectIf_keeps fun distinct => ?_)
  refine rejectIf_keeps fun source => rejectIf_keeps fun destination => ?_
  refine rejectIf_keeps fun _ => rejectIf_keeps fun _ => rejectIf_keeps fun room => ?_
  refine wp_read_bind (Txn.rejectSome_keeps fun _ => need_keeps fun nextGeneration next => ?_)
  refine Txn.wp_write_bind (wp_read_bind ?_)
  rw [Records.placement?_put, if_neg (by simp), placed]
  exact .intro found placed (Option.not_isSome_iff_eq_none.mp unlocked) (not_not.mp state)
    (Option.not_isSome_iff_eq_none.mp unproven) distinct (not_not.mp source) destination (by omega) next

def cancelRebalance (applyIndex : UInt64) (args : CancelRebalance) : Handler := do
  let intent ← need (·.intent? args.topicUuid args.rangeUuid args.segmentUuid) .NotFound
  let placement ← need (·.placement? args.topicUuid args.rangeUuid args.segmentUuid) .NotFound
  rejectIf (placement.generation ≠ args.expectedPlacementGeneration)
    (.GenerationMismatch args.expectedPlacementGeneration placement.generation)
  let proof ← Txn.read (·.proof? args.topicUuid args.rangeUuid args.segmentUuid)
  rejectIf (∃ proof' ∈ proof, proof'.sourceNodeUuid = intent.fromNodeUuid ∧ proof'.destinationNodeUuid = intent.toNodeUuid)
    (.invalidTransition "cannot cancel a rebalance whose replacement proof is committed")
  let nextPlacementGeneration ← need (fun _ => checkedSucc placement.generation)
    (.limit "placement generation space is exhausted")
  write (·.remove (.SegmentRebalanceIntent args.topicUuid args.rangeUuid args.segmentUuid))
  match ← Txn.read (·.placement? args.topicUuid args.rangeUuid args.segmentUuid) with
  | none => Txn.unreachable "placement record was present above and apply is single-threaded"
  | some placement =>
    write (·.put (.SegmentPlacement args.topicUuid args.rangeUuid args.segmentUuid) (.SegmentPlacement
      (placement.without intent.toNodeUuid nextPlacementGeneration applyIndex)))
    return .Ack nextPlacementGeneration

inductive Command.CancelRebalance.Accepted (args : CancelRebalance) (applyIndex : UInt64) (records : Records) :
    MetadataResponse → Records → Prop
  | intro
      (intended : records.intent? args.topicUuid args.rangeUuid args.segmentUuid = some intent)
      (placed : records.placement? args.topicUuid args.rangeUuid args.segmentUuid = some placement)
      (unproven : ∀ proof, records.proof? args.topicUuid args.rangeUuid args.segmentUuid = some proof →
        ¬ (proof.sourceNodeUuid = intent.fromNodeUuid ∧ proof.destinationNodeUuid = intent.toNodeUuid))
      (next : checkedSucc placement.generation = some nextPlacementGeneration) :
      Accepted args applyIndex records (.Ack nextPlacementGeneration)
        ((records.remove (.SegmentRebalanceIntent args.topicUuid args.rangeUuid args.segmentUuid)).put
          (.SegmentPlacement args.topicUuid args.rangeUuid args.segmentUuid) (.SegmentPlacement
            (placement.without intent.toNodeUuid nextPlacementGeneration applyIndex)))

theorem cancelRebalance_spec (args) : (cancelRebalance applyIndex args).Meets (args.Accepted applyIndex) records := by
  refine need_keeps fun intent intended => need_keeps fun placement placed => ?_
  refine rejectIf_keeps fun _ => wp_read_bind (rejectIf_keeps fun unproven => ?_)
  refine need_keeps fun nextGeneration next => Txn.wp_write_bind (wp_read_bind ?_)
  rw [Records.placement?_remove, if_neg (by simp), placed]
  exact .intro intended placed (fun proof stored same => unproven ⟨proof, stored, same⟩) next

end VtopEngine.Meta
