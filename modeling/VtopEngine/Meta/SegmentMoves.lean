import VtopEngine.Meta.Reach

/-! # What can happen to one segment

The records about one segment — its registration, placement, replacement proof,
rebalance intent and tier copy — seen together (`SegmentView`), and everything one
command can do to them (`SegmentView.Move`).  Each move carries the checks the
handler made; the commands refine it (`MetadataCommand.Effect.segmentMove`), and
every law about segments is proved over moves.
-/

namespace VtopEngine.Meta

open Lib Records

structure SegmentView where
  segment : Option SegmentRecord
  placement : Option SegmentPlacementRecord
  proof : Option ReplacementProofRecord
  intent : Option RebalanceIntentRecord
  tierCopy : Option TierCopyRecord

def Records.segmentView (records : Records) (topic range segment : Uuid) : SegmentView where
  segment := records.segment? topic range segment
  placement := records.placement? topic range segment
  proof := records.proof? topic range segment
  intent := records.intent? topic range segment
  tierCopy := records.tierCopy? topic range segment

/-! ## Moves -/

/-- The move a retirement ends is the one the proof is about. -/
def SegmentView.completes (view : SegmentView) (proof : ReplacementProofRecord) : Prop :=
  ∃ intent, view.intent = some intent ∧ intent.fromNodeUuid = proof.sourceNodeUuid
    ∧ intent.toNodeUuid = proof.destinationNodeUuid

/-- One command, seen from the segment it may be about. -/
inductive SegmentView.Move (command : MetadataCommand) (topic range segmentUuid : Uuid) (view : SegmentView) :
    SegmentView → Prop
  | stay : Move command topic range segmentUuid view view
  | register {segment : SegmentRecord}
      (registers : command = .RegisterSealedSegment args)
      (target : args.topicUuid = topic ∧ args.rangeUuid = range ∧ args.segmentUuid = segmentUuid)
      (ends : segment.nextOffset = args.nextOffset) (absent : view.segment = none)
      (state : segment.state = .SealedUnverified) :
      Move command topic range segmentUuid view { view with segment := some segment }
  | verify {segment : SegmentRecord} {generation : UInt64} (found : view.segment = some segment)
      (state : segment.state = .SealedUnverified) (next : checkedSucc segment.segmentGeneration = some generation) :
      Move command topic range segmentUuid view
        { view with segment := some { segment with state := .Verified, segmentGeneration := generation } }
  | place {args : Command.CommitSegmentPlacement} {segment : SegmentRecord} {placement : SegmentPlacementRecord}
      (commits : command = .CommitSegmentPlacement args)
      (target : args.topicUuid = topic ∧ args.rangeUuid = range ∧ args.segmentUuid = segmentUuid)
      (found : view.segment = some segment) (state : segment.state = .Verified) (unlocked : view.intent = none)
      (distinct : placement.replicaNodes.Nodup)
      (length : placement.replicaNodes.length = placement.declaredReplicationFactor.toNat)
      (factor : 1 ≤ placement.declaredReplicationFactor.toNat ∧ placement.declaredReplicationFactor.toNat ≤ MAX_REPLICAS) :
      Move command topic range segmentUuid view { view with placement := some placement }
  | prove {segment : SegmentRecord} {proof : ReplacementProofRecord} (found : view.segment = some segment)
      (state : segment.state = .Verified ∨ segment.state = .Repairing) (root : segment.contentRoot = proof.contentRoot)
      (distinct : proof.sourceNodeUuid ≠ proof.destinationNodeUuid)
      (intended : ∀ intent, view.intent = some intent →
        intent.fromNodeUuid = proof.sourceNodeUuid ∧ intent.toNodeUuid = proof.destinationNodeUuid) :
      Move command topic range segmentUuid view { view with proof := some proof }
  | planRetirement {segment : SegmentRecord} {placement : SegmentPlacementRecord} {proof : ReplacementProofRecord}
      {generation : UInt64} (found : view.segment = some segment) (state : segment.state = .Verified)
      (proven : view.proof = some proof) (root : segment.contentRoot = proof.contentRoot)
      (placed : view.placement = some placement) (source : proof.sourceNodeUuid ∈ placement.replicaNodes)
      (destination : proof.destinationNodeUuid ∈ placement.replicaNodes)
      (next : checkedSucc segment.segmentGeneration = some generation) :
      Move command topic range segmentUuid view
        { view with segment := some { segment with state := .RetirePlanned, segmentGeneration := generation } }
  | retire {segment : SegmentRecord} {placement : SegmentPlacementRecord} {proof : ReplacementProofRecord}
      {generation placementGeneration applyIndex : UInt64} {intent : Option RebalanceIntentRecord}
      (found : view.segment = some segment) (state : segment.state = .RetirePlanned)
      (proven : view.proof = some proof) (placed : view.placement = some placement)
      (source : proof.sourceNodeUuid ∈ placement.replicaNodes)
      (destination : proof.destinationNodeUuid ∈ placement.replicaNodes)
      (next : checkedSucc segment.segmentGeneration = some generation)
      (ended : view.completes proof → intent = none) (kept : ¬ view.completes proof → intent = view.intent) :
      Move command topic range segmentUuid view
        { view with
          segment := some { segment with state := .Verified, segmentGeneration := generation }
          placement := some (placement.without proof.sourceNodeUuid placementGeneration applyIndex)
          proof := none
          intent }
  | retireUnplaced {segment : SegmentRecord} {proof : ReplacementProofRecord} {generation : UInt64}
      {intent : Option RebalanceIntentRecord} (found : view.segment = some segment)
      (state : segment.state = .RetirePlanned) (proven : view.proof = some proof) (placeless : view.placement = none)
      (next : checkedSucc segment.segmentGeneration = some generation)
      (ended : view.completes proof → intent = none) (kept : ¬ view.completes proof → intent = view.intent) :
      Move command topic range segmentUuid view
        { view with
          segment := some { segment with state := .Retired, segmentGeneration := generation }
          proof := none
          intent }
  | propose {segment : SegmentRecord} {placement : SegmentPlacementRecord} {intent : RebalanceIntentRecord}
      {placementGeneration applyIndex : UInt64} (found : view.segment = some segment)
      (state : segment.state = .Verified) (unproven : view.proof = none) (unlocked : view.intent = none)
      (placed : view.placement = some placement) (distinct : intent.fromNodeUuid ≠ intent.toNodeUuid)
      (source : intent.fromNodeUuid ∈ placement.replicaNodes)
      (destination : intent.toNodeUuid ∉ placement.replicaNodes) :
      Move command topic range segmentUuid view
        { view with
          placement := some (placement.including intent.toNodeUuid placementGeneration applyIndex)
          intent := some intent }
  | cancel {args : Command.CancelRebalance} {placement : SegmentPlacementRecord} {intent : RebalanceIntentRecord}
      {placementGeneration applyIndex : UInt64} (cancels : command = .CancelRebalance args)
      (target : args.topicUuid = topic ∧ args.rangeUuid = range ∧ args.segmentUuid = segmentUuid)
      (intended : view.intent = some intent) (placed : view.placement = some placement)
      (unproven : ∀ proof, view.proof = some proof →
        ¬ (proof.sourceNodeUuid = intent.fromNodeUuid ∧ proof.destinationNodeUuid = intent.toNodeUuid)) :
      Move command topic range segmentUuid view
        { view with
          placement := some (placement.without intent.toNodeUuid placementGeneration applyIndex)
          intent := none }
  | archive {tierCopy : TierCopyRecord} (absent : view.tierCopy = none) :
      Move command topic range segmentUuid view { view with tierCopy := some tierCopy }
  | planRetention {args : Command.PlanRetention} {segment : SegmentRecord} {generation : UInt64}
      (plans : command = .PlanRetention args)
      (target : args.topicUuid = topic ∧ args.rangeUuid = range ∧ args.segmentUuid = segmentUuid)
      (found : view.segment = some segment)
      (state : segment.state = .Verified) (unlocked : view.intent = none) (unproven : view.proof = none)
      (next : checkedSucc segment.segmentGeneration = some generation) :
      Move command topic range segmentUuid view
        { view with segment := some { segment with state := .RetentionPlanned, segmentGeneration := generation } }
  | expire {args : Command.ConfirmRetentionExpired} {segment : SegmentRecord} {generation : UInt64}
      {placement : Option SegmentPlacementRecord} (expires : command = .ConfirmRetentionExpired args)
      (target : args.topicUuid = topic ∧ args.rangeUuid = range ∧ args.segmentUuid = segmentUuid)
      (found : view.segment = some segment) (state : segment.state = .RetentionPlanned)
      (next : checkedSucc segment.segmentGeneration = some generation)
      (cleared : view.placement = none ∧ placement = none ∨ ∃ placed placementGeneration applyIndex,
        view.placement = some placed ∧ placement = some (placed.cleared placementGeneration applyIndex)) :
      Move command topic range segmentUuid view
        { view with
          segment := some { segment with state := .RetentionExpired, segmentGeneration := generation }
          placement }

/-! ## Writes, seen from one segment -/

namespace Records

variable (records : Records) (written : MetaKey) (topic range segment : Uuid)

@[simp] theorem segmentView_put (value : MetaValue) : (records.put written value).segmentView topic range segment
      = let view := records.segmentView topic range segment
        { segment := if written = .Segment topic range segment then value.asSegment else view.segment
          placement := if written = .SegmentPlacement topic range segment then value.asSegmentPlacement else view.placement
          proof := if written = .SegmentReplacementProof topic range segment then value.asReplacementProof else view.proof
          intent := if written = .SegmentRebalanceIntent topic range segment then value.asRebalanceIntent else view.intent
          tierCopy := if written = .SegmentTierCopy topic range segment then value.asTierCopy else view.tierCopy } := by
  simp only [segmentView, segment?_put, placement?_put, proof?_put, intent?_put, tierCopy?_put]

@[simp] theorem segmentView_remove : (records.remove written).segmentView topic range segment
      = let view := records.segmentView topic range segment
        { segment := if written = .Segment topic range segment then none else view.segment
          placement := if written = .SegmentPlacement topic range segment then none else view.placement
          proof := if written = .SegmentReplacementProof topic range segment then none else view.proof
          intent := if written = .SegmentRebalanceIntent topic range segment then none else view.intent
          tierCopy := if written = .SegmentTierCopy topic range segment then none else view.tierCopy } := by
  simp only [segmentView, segment?_remove, placement?_remove, proof?_remove, intent?_remove, tierCopy?_remove]

end Records

/-! ## The commands refine the moves -/

open SegmentView

section Refinement

variable {before : Records}

theorem Command.ConfirmReplicaRetired.segmentView_consume (args : ConfirmReplicaRetired) (completes)
    (records) (topic range segment) :
    (args.consume completes records).segmentView topic range segment
      = if args.topicUuid = topic ∧ args.rangeUuid = range ∧ args.segmentUuid = segment then
          { records.segmentView topic range segment with
            proof := none
            intent := if completes = true then none else records.intent? topic range segment }
        else records.segmentView topic range segment := by
  unfold consume
  cases completes with
  | false | true =>
    simp
    split <;> rfl

theorem Records.completesRebalance_iff {args : Command.ConfirmReplicaRetired} {proof : ReplacementProofRecord}
    (source : proof.sourceNodeUuid = args.retiringNodeUuid) :
    before.completesRebalance args proof.destinationNodeUuid = true
      ↔ (before.segmentView args.topicUuid args.rangeUuid args.segmentUuid).completes proof := by
  unfold completesRebalance completes segmentView
  dsimp only
  cases before.intent? args.topicUuid args.rangeUuid args.segmentUuid with
  | none => simp
  | some intent => simp [source]

theorem Command.ConfirmReplicaRetired.Accepted.segmentMove {args : ConfirmReplicaRetired}
    (accepts : args.Accepted applyIndex before response after) (topic range segment) :
    Move (.ConfirmReplicaRetired args) topic range segment (before.segmentView topic range segment)
      (after.segmentView topic range segment) := by
  cases accepts with
  | surviving admits placed destination retiring =>
    have completing := @completesRebalance_iff before _ _ admits.source
    rw [segmentView_consume]
    split
    · next target =>
      obtain ⟨rfl, rfl, rfl⟩ := target
      rw [← admits.source] at retiring ⊢
      simp only [segmentView_put, intent?_put, reduceCtorEq, if_false, if_true, MetaValue.asSegment,
        MetaValue.asSegmentPlacement]
      exact .retire admits.found admits.state admits.proven placed retiring destination admits.next
        (fun completes => if_pos (completing.mpr completes)) fun other => if_neg (mt completing.mp other)
    · next other =>
      simp [other]
      exact .stay
  | unplaced admits placeless =>
    have completing := @completesRebalance_iff before _ _ admits.source
    rw [segmentView_consume]
    split
    · next target =>
      obtain ⟨rfl, rfl, rfl⟩ := target
      simp only [segmentView_put, intent?_put, reduceCtorEq, if_false, if_true, MetaValue.asSegment]
      exact .retireUnplaced admits.found admits.state admits.proven placeless admits.next
        (fun completes => if_pos (completing.mpr completes)) fun other => if_neg (mt completing.mp other)
    · next other =>
      simp [other]
      exact .stay

variable [External]

theorem MetadataCommand.Accepted.segmentMove (accepts : command.Accepted applyIndex before response after)
    (topic range segment) :
    Move command topic range segment (before.segmentView topic range segment) (after.segmentView topic range segment) := by
  -- Only the commands that may write one of the five records are gone through.
  by_cases touches : ∃ kind ∈ [6, 13, 14, 15, 16], command.writes kind = true
  · cases command <;> simp [MetadataCommand.writes] at touches
    case RegisterSealedSegment args =>
      cases accepts with
      | intro _ _ _ _ _ _ _ absent =>
        simp
        split
        · next target =>
          obtain ⟨rfl, rfl, rfl⟩ := target
          exact .register rfl ⟨rfl, rfl, rfl⟩ rfl (lookup_of_absent absent) rfl
        · exact .stay
    case MarkSegmentVerified args =>
      obtain ⟨found, _, _, state, next⟩ := accepts
      simp
      split
      · next target =>
        obtain ⟨rfl, rfl, rfl⟩ := target
        exact .verify found state next
      · exact .stay
    case CommitSegmentPlacement args =>
      have placed (generation : UInt64) (admits : args.Admits before) :
          Move (.CommitSegmentPlacement args) topic range segment (before.segmentView topic range segment)
            ((before.put (.SegmentPlacement args.topicUuid args.rangeUuid args.segmentUuid)
              (.SegmentPlacement (args.placement generation applyIndex))).segmentView topic range segment) := by
        simp
        split
        · next target =>
          obtain ⟨rfl, rfl, rfl⟩ := target
          obtain ⟨record, found, _, state⟩ := admits.verified
          exact .place rfl ⟨rfl, rfl, rfl⟩ found state (lookup_of_absent admits.unlocked) admits.distinct
            admits.length admits.factor
        · exact .stay
      cases accepts with
      | first admits | update admits => exact placed _ admits
    case CommitReplacementProof args =>
      cases accepts with
      | intro distinct _ _ _ found _ state root intended =>
        simp
        split
        · next target =>
          obtain ⟨rfl, rfl, rfl⟩ := target
          exact .prove found state root distinct intended
        · exact .stay
    case PlanReplicaRetirement args =>
      cases accepts with
      | intro _ _ _ proven source placed destination retiring found root state next =>
        simp
        split
        · next target =>
          obtain ⟨rfl, rfl, rfl⟩ := target
          exact .planRetirement found state proven root placed (source ▸ retiring) destination next
        · exact .stay
    case ConfirmReplicaRetired args => exact Command.ConfirmReplicaRetired.Accepted.segmentMove accepts topic range segment
    case ProposeRebalance args =>
      cases accepts with
      | intro found placed unlocked state unproven distinct source destination =>
        simp
        split
        · next target =>
          obtain ⟨rfl, rfl, rfl⟩ := target
          have differ : (args.intent applyIndex).fromNodeUuid ≠ (args.intent applyIndex).toNodeUuid := distinct
          exact .propose found state (lookup_of_absent unproven) (lookup_of_absent unlocked) placed differ source destination
        · exact .stay
    case CancelRebalance args =>
      obtain ⟨intended, placed, unproven⟩ := accepts
      simp
      split
      · next target =>
        obtain ⟨rfl, rfl, rfl⟩ := target
        exact .cancel rfl ⟨rfl, rfl, rfl⟩ intended placed unproven
      · exact .stay
    case CommitTierEvidence args =>
      cases accepts with
      | intro _ _ _ _ _ _ _ _ absent =>
        simp
        split
        · next target =>
          obtain ⟨rfl, rfl, rfl⟩ := target
          exact .archive (lookup_of_absent absent)
        · exact .stay
    case PlanRetention args =>
      cases accepts with
      | intro _ _ _ found state unlocked unproven _ _ next =>
        simp
        split
        · next target =>
          obtain ⟨rfl, rfl, rfl⟩ := target
          exact .planRetention rfl ⟨rfl, rfl, rfl⟩ found state (lookup_of_absent unlocked) (lookup_of_absent unproven) next
        · exact .stay
    case ConfirmRetentionExpired args =>
      cases accepts with
      | placed found state next placed =>
        simp
        split
        · next target =>
          obtain ⟨rfl, rfl, rfl⟩ := target
          exact .expire rfl ⟨rfl, rfl, rfl⟩ found state next (.inr ⟨_, _, _, placed, rfl⟩)
        · exact .stay
      | unplaced found state next placeless =>
        simp
        split
        · next target =>
          obtain ⟨rfl, rfl, rfl⟩ := target
          exact .expire rfl ⟨rfl, rfl, rfl⟩ found state next (.inl ⟨placeless, placeless⟩)
        · exact .stay
  · have untouched (kind : UInt8) (listed : kind ∈ [6, 13, 14, 15, 16]) : command.writes kind = false := by
      by_contra writes
      exact touches ⟨kind, listed, Bool.not_eq_false _ |>.mp writes⟩
    have effect : command.Effect applyIndex before response after := .accepted accepts
    have same : after.segmentView topic range segment = before.segmentView topic range segment := by
      simp only [segmentView, SegmentView.mk.injEq]
      exact ⟨effect.lookup_eq (untouched 6 (by simp)), effect.lookup_eq (untouched 13 (by simp)),
        effect.lookup_eq (untouched 14 (by simp)), effect.lookup_eq (untouched 15 (by simp)),
        effect.lookup_eq (untouched 16 (by simp))⟩
    rw [same]
    exact .stay

theorem MetadataCommand.Effect.segmentMove (effect : command.Effect applyIndex before response after) (topic range segment) :
    Move command topic range segment (before.segmentView topic range segment) (after.segmentView topic range segment) := by
  cases effect with
  | accepted accepts => exact accepts.segmentMove topic range segment
  | refused => exact .stay
  | spilled spills =>
    have same : after.segmentView topic range segment = before.segmentView topic range segment := by
      simp only [segmentView, SegmentView.mk.injEq]
      exact ⟨spills.lookup_eq rfl, spills.lookup_eq rfl, spills.lookup_eq rfl, spills.lookup_eq rfl, spills.lookup_eq rfl⟩
    rw [same]
    exact .stay

theorem MetaStateMachine.Step.segmentMove {machine next : MetaStateMachine}
    (step : machine.Step event next) (topic range segment) :
    Move event.command topic range segment (machine.records.segmentView topic range segment)
      (next.records.segmentView topic range segment) := by
  cases MetaStateMachine.apply_cases step with
  | replayed => exact .stay
  | executed _ effect => simpa using effect.segmentMove topic range segment

end Refinement

end VtopEngine.Meta
