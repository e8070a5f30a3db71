import VtopEngine.Lib.FencedLease
import VtopEngine.Meta.RangeMoves
import VtopEngine.Meta.Reach

/-! # The fencing chain of a range

The fencing epoch, the lease and the transition records of one range are a
fenced lease in the sense of `VtopEngine.Lib.Fence`, and every command moves it
by one `Fence.Step` (`Effect.fenceMove`).  The chain of epochs, the finality of
an established transition and the powerlessness of a superseded leaseholder are
then the general facts about such registers, read back over the records.
-/

namespace VtopEngine.Meta

open Lib MetaStateMachine MetadataCommand RangeTransitionRecord Records UInt64 Option

/-! ## The register of a range -/

/-- Transition records by epoch, as a function on all naturals. -/
def Records.grants (records : Records) (topic range : Uuid) (epoch : Nat) : Option RangeTransitionRecord :=
  if epoch < 2 ^ 64 then records.transition? topic range (ofNat epoch) else none

/-- The register of a range; a range that is not there has minted nothing. -/
def Records.fence (records : Records) (topic range : Uuid) : Fence RangeTransitionRecord where
  epoch := match records.range? topic range with
    | some record => record.fencingEpoch.toNat
    | none => 0
  lease := (records.range? topic range).bind fun record => record.lease.map (·.fencingEpoch.toNat)
  grants := records.grants topic range

/-- A minted transition names its own epoch and the one before. -/
def RangeTransitionRecord.Mints (epoch : Nat) (transition : RangeTransitionRecord) : Prop :=
  transition.epochTo.toNat = epoch ∧ transition.epochFrom.toNat + 1 = epoch

/-- A report changes the outcome of a transition that is not established. -/
def RangeTransitionRecord.Amends (transition reported : RangeTransitionRecord) : Prop :=
  transition.outcome.isEstablished = false ∧ ∃ outcome, reported = { transition with outcome }

/-- What stays of a transition for good. -/
def RangeTransitionRecord.Keeps (transition later : RangeTransitionRecord) : Prop :=
  later.holderFrom = transition.holderFrom ∧ later.holderTo = transition.holderTo ∧ later.grant = transition.grant
    ∧ (transition.outcome.isEstablished = true → later.outcome = transition.outcome)

theorem RangeTransitionRecord.Keeps.refl (transition : RangeTransitionRecord) : transition.Keeps transition :=
  ⟨rfl, rfl, rfl, fun _ => rfl⟩

theorem RangeTransitionRecord.Keeps.trans (first second third : RangeTransitionRecord)
    (keeps : first.Keeps second) (keepsLater : second.Keeps third) : first.Keeps third := by
  obtain ⟨holderFrom, holderTo, grant, outcome⟩ := keeps
  obtain ⟨holderFrom', holderTo', grant', outcome'⟩ := keepsLater
  refine ⟨holderFrom'.trans holderFrom, holderTo'.trans holderTo, grant'.trans grant, fun established => ?_⟩
  have same := outcome established
  exact (outcome' (same ▸ established)).trans same

variable {transition : RangeTransitionRecord}

theorem RangeTransitionRecord.Amends.keeps (amends : transition.Amends reported) : transition.Keeps reported := by
  obtain ⟨unsettled, outcome, rfl⟩ := amends
  exact ⟨rfl, rfl, rfl, fun established => by simp [unsettled] at established⟩

abbrev FenceStep : Fence RangeTransitionRecord → Fence RangeTransitionRecord → Prop :=
  Fence.Step RangeTransitionRecord.Mints RangeTransitionRecord.Amends

variable {records before after : Records} {topic range : Uuid} {record : RangeRecord}

section Register

theorem Records.fence_of_range (found : records.range? topic range = some record) : records.fence topic range
      = { epoch := record.fencingEpoch.toNat, lease := record.lease.map (·.fencingEpoch.toNat),
          grants := records.grants topic range } := by
  simp only [fence, found, bind_some]

theorem Records.grants_toNat (records : Records) (topic range) (epoch : UInt64) :
    records.grants topic range epoch.toNat = records.transition? topic range epoch := by
  rw [grants, if_pos epoch.toNat_lt, UInt64.ofNat_toNat]

theorem Records.grants_congr
    (transitions : ∀ epoch, after.transition? topic range epoch = before.transition? topic range epoch) :
    after.grants topic range = before.grants topic range := by
  funext epoch
  simp only [grants, transitions]

/-- Writing one transition updates the grants at its epoch. -/
theorem Records.grants_update (transitions : ∀ epoch, after.transition? topic range epoch
      = if written = epoch then some transition else before.transition? topic range epoch) :
    after.grants topic range = Function.update (before.grants topic range) written.toNat (some transition) := by
  funext epoch
  obtain rfl | other := eq_or_ne epoch written.toNat
  · rw [Function.update_self, grants_toNat, transitions, if_pos rfl]
  · rw [Function.update_of_ne other]
    simp only [grants, transitions]
    split
    · next small =>
      rw [if_neg]
      rintro rfl
      exact other (toNat_ofNat_of_lt' small).symm
    · rfl

/-- What a command does to one range: a step of its register, and the range stays. -/
structure Records.FenceMove (topic range : Uuid) (before after : Records) : Prop where
  step : FenceStep (before.fence topic range) (after.fence topic range)
  stays : before.range? topic range ≠ none → after.range? topic range ≠ none

namespace Records.FenceMove

theorem of_frame (ranges : after.range? topic range = before.range? topic range)
    (transitions : ∀ epoch, after.transition? topic range epoch = before.transition? topic range epoch) :
    before.FenceMove topic range after := by
  refine ⟨?_, fun present => by rwa [ranges]⟩
  have same : after.fence topic range = before.fence topic range := by simp only [fence, ranges, grants_congr transitions]
  rw [same]
  exact .stay

/-- Short of a new lease, a range keeps its epoch, and its lease unless it is dropped. -/
theorem of_move (move : RangeRecord.Move command before topic range (after.range? topic range))
    (unleased : ¬ command.Leases topic range)
    (transitions : ∀ epoch, after.transition? topic range epoch = before.transition? topic range epoch) :
    before.FenceMove topic range after := by
  refine ⟨?_, fun present => ?_⟩
  · simp only [fence, grants_congr transitions]
    generalize after.range? topic range = next at move
    cases move with
    | stay => exact .stay
    | create _ absent epoch lease =>
      simp only [absent, epoch, bind_some, lease]
      exact .stay
    | lease _ leases => exact absurd leases unleased
    | renew found leased =>
      simp only [found]
      exact .hold (.inl (by simp [leased]))
    | release found =>
      simp only [found]
      exact .hold (.inr rfl)
    | register found | split found =>
      simp only [found]
      exact .stay
  · obtain ⟨record, found⟩ := ne_none_iff_exists'.mp present
    obtain ⟨later, written, -⟩ := move.keeps found
    simp [written]

/-- The range is leased under the next epoch, with the transition minted beside it. -/
theorem of_minted {record record' : RangeRecord}
    (found : before.range? topic range = some record) (mints : checkedSucc record.fencingEpoch = some next)
    (written : after.range? topic range = some record') (epoch : record'.fencingEpoch = next)
    (lease : record'.lease.map (·.fencingEpoch) = some next) (epochTo : transition.epochTo = next)
    (epochFrom : transition.epochFrom = record.fencingEpoch)
    (transitions : ∀ epoch, after.transition? topic range epoch
      = if next = epoch then some transition else before.transition? topic range epoch) :
    before.FenceMove topic range after := by
  refine ⟨?_, fun _ => by simp [written]⟩
  obtain ⟨-, successor⟩ := checkedSucc_eq_some mints
  have same : after.fence topic range = (before.fence topic range).mint transition := by
    rw [fence_of_range found, fence_of_range written, grants_update transitions]
    have leased := congrArg (Option.map toNat) lease
    rw [Option.map_map] at leased
    simp only [Fence.mint, epoch, successor, Fence.mk.injEq, and_true, true_and]
    rw [← successor]
    exact leased
  rw [same]
  refine .mint ⟨?_, ?_⟩
  · rw [epochTo, fence_of_range found, successor]
  · rw [epochFrom, fence_of_range found]

/-- A transition that is not established gets another outcome. -/
theorem of_reported (outcome) (ranges : after.range? topic range = before.range? topic range)
    (found : before.transition? topic range written = some transition)
    (unsettled : transition.outcome.isEstablished = false)
    (transitions : ∀ epoch, after.transition? topic range epoch
      = if written = epoch then some { transition with outcome } else before.transition? topic range epoch) :
    before.FenceMove topic range after := by
  refine ⟨?_, fun present => by rwa [ranges]⟩
  have same : after.fence topic range = (before.fence topic range).amend written.toNat { transition with outcome } := by
    simp only [fence, Fence.amend, ranges, grants_update transitions]
  rw [same]
  exact .amend ((grants_toNat ..).trans found) ⟨unsettled, outcome, rfl⟩

end Records.FenceMove

theorem Records.fence_leased {holder : Uuid} {next applyIndex : UInt64} {grant : GrantKind}
    {nowMs : Int64} {deadline : Option Int64} (found : records.range? topic range = some record)
    (mints : checkedSucc record.fencingEpoch = some next) :
    let leased := records.leased topic range holder record next applyIndex grant nowMs deadline
    next.toNat = (records.fence topic range).epoch + 1 ∧ (leased.fence topic range).epoch = next.toNat
      ∧ (leased.fence topic range).lease = some next.toNat := by
  have written : (records.leased topic range holder record next applyIndex grant nowMs deadline).range? topic range
      = some (record.leased holder next applyIndex deadline) := by simp [leased]
  intro leased
  rw [fence_of_range found, fence_of_range written]
  exact ⟨(checkedSucc_eq_some mints).2, rfl, rfl⟩

/-- A grant or an election leases one range under a new epoch. -/
theorem Records.fenceMove_leased {grant}
    (found : records.range? topic' range' = some record) (mints : checkedSucc record.fencingEpoch = some next) :
    records.FenceMove topic range (records.leased topic' range' holder record next applyIndex grant nowMs deadline) := by
  by_cases same : topic' = topic ∧ range' = range
  · obtain ⟨rfl, rfl⟩ := same
    have leased : (records.leased topic' range' holder record next applyIndex grant nowMs deadline).range? topic' range'
        = some (record.leased holder next applyIndex deadline) := by simp [leased]
    have minted : ∀ epoch, (records.leased topic' range' holder record next applyIndex grant nowMs deadline).transition?
        topic' range' epoch = if next = epoch then some (record.minted holder next applyIndex grant nowMs)
          else records.transition? topic' range' epoch := by
      intro epoch
      simp [Records.leased]
    exact .of_minted found mints leased rfl rfl rfl rfl minted
  · refine .of_frame ?_ fun epoch => ?_
    · simp [leased, same]
    · have apart : ¬ (topic' = topic ∧ range' = range ∧ next = epoch) := fun all => same ⟨all.1, all.2.1⟩
      simp [leased, apart]

end Register

variable {command : MetadataCommand}

section Refinement

theorem MetadataCommand.Accepted.fenceMove [External] (accepts : command.Accepted applyIndex before response after)
    (topic range) : before.FenceMove topic range after := by
  cases command with
  | GrantRangeLease args =>
    obtain ⟨_, _, found, _, mints⟩ := accepts
    exact fenceMove_leased found mints
  | AcquireRangeLease args =>
    obtain ⟨_, _, _, _, found, _, _, mints⟩ := accepts
    exact fenceMove_leased found mints
  | ReportPromotionOutcome args =>
    obtain ⟨_, found, _, unsettled⟩ := accepts
    by_cases same : args.topicUuid = topic ∧ args.rangeUuid = range
    · obtain ⟨rfl, rfl⟩ := same
      exact .of_reported (.Reported args.outcome args.env.issuedAtMs applyIndex) (by simp) found unsettled
        fun epoch => by simp
    · refine .of_frame (by simp) fun epoch => ?_
      have apart : ¬ (args.topicUuid = topic ∧ args.rangeUuid = range ∧ args.fencingEpoch = epoch) :=
        fun all => same ⟨all.1, all.2.1⟩
      simp [apart]
  | _ => exact .of_move (accepts.rangeMove topic range) id fun _ => (Effect.accepted accepts).lookup_eq rfl

/-- Every executed command is a step of the register of every range. -/
theorem MetadataCommand.Effect.fenceMove [External] (effect : command.Effect applyIndex before response after)
    (topic range) : before.FenceMove topic range after := by
  cases effect with
  | accepted accepts => exact accepts.fenceMove topic range
  | refused => exact .of_frame rfl fun _ => rfl
  | spilled spills => exact .of_frame (spills.lookup_eq rfl) fun _ => spills.lookup_eq rfl

end Refinement

/-! ## Runs -/

variable {epoch : UInt64}

section Runs

variable [External] {machine next later : MetaStateMachine} {events : List Event}

theorem MetaStateMachine.Reached.fence_wellFormed (reached : machine.Reached) (topic range) :
    (machine.records.fence topic range).WellFormed Mints := by
  refine reached.records_invariant (fun records => (records.fence topic range).WellFormed Mints) ?_ ?_
  · have fresh : empty.fence topic range = Fence.fresh := by
      simp [fence, Fence.fresh, grants, range?, transition?, lookup, funext_iff]
    rw [fresh]
    exact .fresh
  · intro machine applyIndex command response after _ formed effect
    refine formed.step (effect.fenceMove topic range).step ?_
    rintro epoch transition _ ⟨-, outcome, rfl⟩ mints
    exact mints

/-- Along a run epochs grow, ranges stay, and transitions keep what they must. -/
theorem MetaStateMachine.Reached.fence_extends (reached : machine.Reached)
    (run : Run Step machine events later) (topic range) :
    (machine.records.fence topic range).Extends Keeps (later.records.fence topic range)
      ∧ (machine.records.range? topic range ≠ none → later.records.range? topic range ≠ none) := by
  refine reached.records_evolve run (fun before after =>
    (before.fence topic range).Extends Keeps (after.fence topic range)
      ∧ (before.range? topic range ≠ none → after.range? topic range ≠ none)) ?_ ?_ ?_
  · exact fun records => ⟨.refl .refl, id⟩
  · rintro first second third ⟨grows, stays⟩ ⟨growsLater, staysLater⟩
    exact ⟨grows.trans .trans growsLater, staysLater ∘ stays⟩
  · intro machine applyIndex command response after reached effect
    have move := effect.fenceMove topic range
    exact ⟨(reached.fence_wellFormed topic range).extends move.step .refl fun _ _ => Amends.keeps, move.stays⟩

section Read

/-- The outstanding lease is at the range's epoch. -/
theorem MetaStateMachine.Reached.lease_epoch (reached : machine.Reached)
    (found : machine.records.range? topic range = some record)
    (held : record.lease = some lease) : lease.fencingEpoch = record.fencingEpoch := by
  have formed := reached.fence_wellFormed topic range
  rw [fence_of_range found] at formed
  exact UInt64.toNat_inj.mp (formed.current lease.fencingEpoch.toNat (by simp [held]))

/-- There is one transition for each epoch up to the range's, and none above. -/
theorem MetaStateMachine.Reached.transition_ne_none (reached : machine.Reached)
    (found : machine.records.range? topic range = some record) (epoch) :
    machine.records.transition? topic range epoch ≠ none ↔ 1 ≤ epoch ∧ epoch ≤ record.fencingEpoch := by
  have minted := (reached.fence_wellFormed topic range).minted epoch.toNat
  rw [fence_of_range found] at minted
  simp only [grants_toNat] at minted
  rw [minted, le_iff_toNat_le, le_iff_toNat_le]
  rfl

theorem MetaStateMachine.Reached.transition_epochs (reached : machine.Reached)
    (recorded : machine.records.transition? topic range epoch = some transition) :
    transition.epochTo = epoch ∧ transition.epochFrom = epoch - 1 := by
  obtain ⟨epochTo, epochFrom⟩ := (reached.fence_wellFormed topic range).good epoch.toNat transition
    ((grants_toNat ..).trans recorded)
  refine ⟨UInt64.toNat_inj.mp epochTo, UInt64.toNat_inj.mp ?_⟩
  rw [UInt64.toNat_sub_of_le _ _ (UInt64.le_iff_toNat_le.mpr (by simp; omega))]
  simp only [UInt64.reduceToNat]
  omega

end Read

/-! ## Grants -/

/-- The event is a request for a lease, executed and not repeated from the dedup
    table, that was answered with this epoch. -/
structure MetaStateMachine.Grants (machine : MetaStateMachine) (event : Event) (next : MetaStateMachine)
    (topic range : Uuid) (epoch : UInt64) : Prop where
  step : machine.Step event next
  fresh : machine.appliedResponse event.command.envelope.requestId = none
  leases : event.command.Leases topic range
  answer : event.response = .LeaseGranted epoch

variable {event : Event}

/-- A grant mints the epoch after the last one and leases the range under it. -/
theorem MetaStateMachine.Grants.minted (grants : machine.Grants event next topic range epoch) :
    epoch.toNat = (machine.records.fence topic range).epoch + 1 ∧ (next.records.fence topic range).epoch = epoch.toNat
      ∧ (next.records.fence topic range).lease = some epoch.toNat := by
  obtain ⟨applyIndex, command, response⟩ := event
  obtain ⟨step, fresh, leases, rfl⟩ := grants
  cases apply_cases step with
  | replayed remembered => simp [fresh] at remembered
  | executed _ effect =>
    simp only [records_remember]
    cases effect with
    | accepted accepts =>
      cases command with
      | GrantRangeLease args =>
        obtain ⟨rfl, rfl⟩ := leases
        obtain ⟨_, _, found, _, mints⟩ := accepts
        exact fence_leased found mints
      | AcquireRangeLease args =>
        obtain ⟨rfl, rfl⟩ := leases
        obtain ⟨_, _, _, _, found, _, _, mints⟩ := accepts
        exact fence_leased found mints
      | _ => exact leases.elim

/-- The fencing chain of every range: the lease is at the range's epoch, there is
    exactly one transition for each epoch up to it, epochs never decrease, later
    grants answer larger epochs, and what a transition says is final. -/
theorem fencing_chain (reached : machine.Reached) : (∀ topic range record, machine.records.range? topic range = some record →
      (∀ lease, record.lease = some lease → lease.fencingEpoch = record.fencingEpoch)
      ∧ (∀ epoch, machine.records.transition? topic range epoch ≠ none ↔ 1 ≤ epoch ∧ epoch ≤ record.fencingEpoch)
      ∧ ∀ epoch transition, machine.records.transition? topic range epoch = some transition →
          transition.epochTo = epoch ∧ transition.epochFrom = epoch - 1)
    ∧ (∀ events later, Run Step machine events later → ∀ topic range,
      (∀ record, machine.records.range? topic range = some record →
        ∃ record', later.records.range? topic range = some record' ∧ record.fencingEpoch ≤ record'.fencingEpoch)
      ∧ ∀ epoch transition, machine.records.transition? topic range epoch = some transition →
        ∃ transition', later.records.transition? topic range epoch = some transition'
          ∧ transition'.holderFrom = transition.holderFrom ∧ transition'.holderTo = transition.holderTo
          ∧ transition'.grant = transition.grant
          ∧ (transition.outcome.isEstablished = true → transition'.outcome = transition.outcome))
    ∧ ∀ topic range event next events later event' next' epoch epoch',
      machine.Grants event next topic range epoch → Run Step next events later →
        later.Grants event' next' topic range epoch' → epoch < epoch' := by
  refine ⟨fun topic range record found => ⟨fun lease held => ?_, fun epoch => ?_, fun epoch transition recorded => ?_⟩,
    fun events later run topic range => ?_, fun topic range event next events later event' next' epoch epoch' => ?_⟩
  · exact reached.lease_epoch found held
  · exact reached.transition_ne_none found epoch
  · exact reached.transition_epochs recorded
  · obtain ⟨grows, stays⟩ := reached.fence_extends run topic range
    refine ⟨fun record found => ?_, fun epoch transition recorded => ?_⟩
    · obtain ⟨record', found'⟩ := ne_none_iff_exists'.mp (stays (by simp [found]))
      refine ⟨record', found', le_iff_toNat_le.mpr ?_⟩
      simpa only [fence_of_range found, fence_of_range found'] using grows.epoch
    · obtain ⟨transition', recorded', keeps⟩ := grows.grants epoch.toNat transition ((grants_toNat ..).trans recorded)
      exact ⟨transition', (grants_toNat ..).symm.trans recorded', keeps⟩
  · intro first run second
    -- The first epoch was reached, epochs only grow, and the second grant mints the successor.
    obtain ⟨-, reachedEpoch, -⟩ := first.minted
    obtain ⟨successor, -, -⟩ := second.minted
    have grows := ((reached.step first.step).fence_extends run topic range).1.epoch
    rw [lt_iff_toNat_lt]
    omega

end Runs

section LeaseLog

attribute [local instance] External.plain

/-- A node and a topic with one range, ready to be leased. -/
def leaseLog : List (UInt64 × MetadataCommand) :=
  [(1, .RegisterNode { env := ⟨1, 0⟩, nodeUuid := 7, addr := "node", expectedGeneration := none }),
    (2, .CreateTopic { env := ⟨2, 0⟩, name := "topic", topicUuid := 10, rootRangeUuid := 11 })]

def leaseRequest : MetadataCommand :=
  .GrantRangeLease
    { env := ⟨3, 0⟩, topicUuid := 10, rangeUuid := 11, holderNodeUuid := 7, expectedRangeGeneration := 0 }

def leasedMachine : MetaStateMachine := new.afterLog (leaseLog ++ [(3, leaseRequest)])

theorem leasedMachine_reached : leasedMachine.Reached := Reached.afterLog Reachable.refl _

theorem fencing_chain_leasedMachine : (leasedMachine.records.range? 10 11).map (·.fencingEpoch) = some 1
      ∧ leasedMachine.records.transition? 10 11 1 ≠ none := by
  have epoch : (leasedMachine.records.range? 10 11).map (·.fencingEpoch) = some 1 := by decide +kernel
  obtain ⟨record, found, minted⟩ := map_eq_some_iff.mp epoch
  refine ⟨epoch, (((fencing_chain leasedMachine_reached).1 10 11 record found).2.1 1).mpr ?_⟩
  rw [minted]
  decide

/-- The same request applied again is answered from the dedup table, with the
    epoch it was granted the first time. -/
theorem replayed_grant_repeats_epoch : leaseRequest.Leases 10 11 ∧ (new.afterLog leaseLog).Reached
      ∧ (new.afterLog leaseLog).Step ⟨3, leaseRequest, .LeaseGranted 1⟩ leasedMachine
      ∧ leasedMachine.Step ⟨4, leaseRequest, .LeaseGranted 1⟩ leasedMachine :=
  ⟨⟨rfl, rfl⟩, Reached.afterLog Reachable.refl _, rfl, rfl⟩

end LeaseLog

/-! ## Superseded leaseholders -/

/-- The range and the epoch a command acts under, for the commands that must be
    its leaseholder's. -/
def MetadataCommand.authority : MetadataCommand → Option (Uuid × Uuid × UInt64)
  | .RegisterSealedSegment args => some (args.topicUuid, args.rangeUuid, args.sealedByEpoch)
  | .SplitRange args => some (args.topicUuid, args.parentRangeUuid, args.fencingEpoch)
  | .RenewRangeLease args | .ReleaseRangeLease args => some (args.topicUuid, args.rangeUuid, args.expectedFencingEpoch)
  | .CommitReplacementProof args | .PlanReplicaRetirement args | .CommitTierEvidence args | .PlanRetention args =>
    some (args.topicUuid, args.rangeUuid, args.fencingEpoch)
  | .CommitGroupCursorFenced args => some (args.cursor.topicUuid, args.cursor.rangeUuid, args.fencingEpoch)
  | .EnsureGroupMemberForRange args => some (args.topicUuid, args.rangeUuid, args.fencingEpoch)
  | .CommitGroupCursorCoordinated args | .EnsureGroupMemberCoordinated args =>
    some (args.coordinatorTopicUuid, args.coordinatorRangeUuid, args.fencingEpoch)
  | _ => none

/-- The range holds a lease at this epoch. -/
def Records.LeasedAt (records : Records) (topic range : Uuid) (epoch : UInt64) : Prop :=
  ∃ record lease, records.range? topic range = some record ∧ record.lease = some lease ∧ lease.fencingEpoch = epoch

section Superseded

theorem Records.HeldBy.leasedAt (held : records.HeldBy topic range holder epoch) : records.LeasedAt topic range epoch := by
  obtain ⟨record, lease, found, leased, -, same⟩ := held
  exact ⟨record, lease, found, leased, same⟩

theorem Records.leasedAt_iff : records.LeasedAt topic range epoch ↔ (records.fence topic range).lease = some epoch.toNat := by
  constructor
  · rintro ⟨record, lease, found, held, rfl⟩
    simp [fence_of_range found, held]
  · intro leased
    obtain ⟨record, found, seen⟩ := bind_eq_some_iff.mp leased
    obtain ⟨lease, held, same⟩ := map_eq_some_iff.mp seen
    exact ⟨record, lease, found, held, UInt64.toNat_inj.mp same⟩

/-- A command that names an epoch is accepted only under the lease at that epoch;
    a repeated split is acknowledged without it, and changes nothing. -/
theorem MetadataCommand.Accepted.leasedAt [External] (accepts : command.Accepted applyIndex records response after)
    (current : ∀ record lease, records.range? topic range = some record → record.lease = some lease →
      lease.fencingEpoch = record.fencingEpoch) (names : command.authority = some (topic, range, epoch)) :
    records.LeasedAt topic range epoch ∨ after = records := by
  cases command <;> simp only [authority, some.injEq, Prod.mk.injEq, reduceCtorEq] at names <;>
    obtain ⟨rfl, rfl, rfl⟩ := names
  case RegisterSealedSegment args | CommitReplacementProof args =>
    obtain ⟨_, found, held, same⟩ := accepts
    exact .inl ⟨_, _, found, held, same.symm⟩
  case SplitRange args =>
    cases accepts with
    | replay => exact .inr rfl
    | split _ _ _ _ _ held => exact .inl held.leasedAt
  case RenewRangeLease args =>
    obtain ⟨_, found, held, _, same⟩ := accepts
    exact .inl ⟨_, _, found, held, same⟩
  case ReleaseRangeLease args =>
    obtain ⟨found, same, held⟩ := accepts
    exact .inl ⟨_, _, found, held, (current _ _ found held).trans same⟩
  case PlanReplicaRetirement args | PlanRetention args =>
    obtain ⟨found, held, same⟩ := accepts
    exact .inl ⟨_, _, found, held, same.symm⟩
  case CommitTierEvidence args =>
    obtain ⟨_, _, found, held, same⟩ := accepts
    exact .inl ⟨_, _, found, held, same.symm⟩
  case CommitGroupCursorFenced args | EnsureGroupMemberForRange args | CommitGroupCursorCoordinated args
      | EnsureGroupMemberCoordinated args => exact .inl accepts.1.leasedAt

theorem MetadataCommand.Spilled.leasedAt (spills : command.Spilled applyIndex records error after)
    (names : command.authority = some (topic, range, epoch)) : records.LeasedAt topic range epoch := by
  cases command <;> simp only [authority, some.injEq, Prod.mk.injEq, reduceCtorEq] at names <;>
    obtain ⟨rfl, rfl, rfl⟩ := names
  case EnsureGroupMemberForRange args | EnsureGroupMemberCoordinated args => exact spills.1.leasedAt
  all_goals exact spills.elim

variable [External]

/-- Once the lease at a granted epoch is gone, no command that names the epoch
    changes a record, whatever runs in between. -/
theorem fenced_leaseholder_changes_nothing {granting granted gone later final : MetaStateMachine} {grant event : Event}
    {events events' : List Event} (reached : granting.Reached)
    (grants : granting.Grants grant granted topic range epoch)
    (run : Run Step granted events gone) (lost : ¬ gone.records.LeasedAt topic range epoch)
    (since : Run Step gone events' later) (step : later.Step event final)
    (names : event.command.authority = some (topic, range, epoch)) : final.records = later.records := by
  obtain ⟨index, command, response⟩ := event
  have reachedGone := (reached.step grants.step).run run
  have superseded : (gone.records.fence topic range).Superseded epoch.toNat := by
    obtain ⟨-, minted, -⟩ := grants.minted
    have grows := ((reached.step grants.step).fence_extends run topic range).1.epoch
    exact ⟨minted ▸ grows, fun leased => lost (leasedAt_iff.mpr leased)⟩
  have stays := reachedGone.records_evolve since (fun before after => (before.fence topic range).Superseded epoch.toNat →
      (after.fence topic range).Superseded epoch.toNat)
    (fun _ => id) (fun _ _ _ first second => second ∘ first)
    fun _ _ _ _ _ _ effect held => held.step (effect.fenceMove topic range).step
  have unleased : ¬ later.records.LeasedAt topic range epoch := fun leased => (stays superseded).2 (leasedAt_iff.mp leased)
  cases apply_cases step with
  | replayed => rfl
  | executed _ effect =>
    rw [records_remember]
    cases effect with
    | accepted accepts =>
      refine (accepts.leasedAt (fun record lease found held => ?_) names).resolve_left unleased
      exact (reachedGone.run since).lease_epoch found held
    | refused => rfl
    | spilled spills => exact absurd (spills.leasedAt names) unleased

end Superseded

section StaleHolder

attribute [local instance] External.plain

/-- The range granted once more, to the same node. -/
def regrantedMachine : MetaStateMachine :=
  leasedMachine.afterLog [(4, .GrantRangeLease
    { env := ⟨4, 0⟩, topicUuid := 10, rangeUuid := 11, holderNodeUuid := 7, expectedRangeGeneration := 1 })]

/-- The holder of epoch 1 seals a segment, with the generation the range has now. -/
def staleSeal : MetadataCommand :=
  .RegisterSealedSegment
    { env := ⟨5, 0⟩, topicUuid := 10, rangeUuid := 11, segmentUuid := 20, segmentGeneration := 0, baseOffset := 0,
      nextOffset := 9, contentRoot := Vector.replicate 32 1, sealedByEpoch := 1, expectedRangeGeneration := 2 }

theorem staleSeal_changes_nothing : (regrantedMachine.afterLog [(5, staleSeal)]).records = regrantedMachine.records := by
  have grants : (new.afterLog leaseLog).Grants ⟨3, leaseRequest, .LeaseGranted 1⟩ leasedMachine
      10 11 1 := ⟨rfl, rfl, ⟨rfl, rfl⟩, rfl⟩
  have regranted : leasedMachine.Step ⟨4, .GrantRangeLease
      { env := ⟨4, 0⟩, topicUuid := 10, rangeUuid := 11, holderNodeUuid := 7, expectedRangeGeneration := 1 },
      .LeaseGranted 2⟩ regrantedMachine := rfl
  have lost : ¬ regrantedMachine.records.LeasedAt 10 11 1 := by
    rw [leasedAt_iff]
    decide +kernel
  have stale : regrantedMachine.Step ⟨5, staleSeal, .Rejected (.EpochMismatch 1 2)⟩
      (regrantedMachine.afterLog [(5, staleSeal)]) := rfl
  exact fenced_leaseholder_changes_nothing (Reached.afterLog Reachable.refl _) grants (.single regranted) lost .nil stale rfl

end StaleHolder

end VtopEngine.Meta
