import VtopEngine.Lib.Majority
import VtopEngine.Meta.Fencing

/-! # Reconfiguring a replica set

A recorded replica set changes by one member, and only after a promotion under it
has shown its holder's whole log on a majority of it (`RangeReplicaSetRecord.provenBy`).
Majorities of sets one member apart meet, so every majority of the new set has a
node with that log (`reconfiguration_keeps_quorum`).
-/

namespace VtopEngine.Meta

open Lib List Records

/-! ## Recorded sets -/

/-- Every recorded set is sorted, without duplicates, and names someone. -/
def Records.SetsSorted (records : Records) : Prop :=
  ∀ topic range set, records.replicaSet? topic range = some set → set.members.Pairwise (· < ·) ∧ set.members ≠ []

variable {machine : MetaStateMachine}

section Sorted

variable [External]

theorem MetaStateMachine.Reached.setsSorted (reached : machine.Reached) : machine.records.SetsSorted := by
  refine reached.records_invariant Records.SetsSorted ?_ fun _ _ _ _ _ _ sorted effect => ?_
  · intro topic range set found
    simp [Records.replicaSet?, Records.lookup] at found
  · exact effect.replicaSets (fun members => members.Pairwise (· < ·) ∧ members ≠ []) sorted fun args _ nonempty _ =>
      ⟨sortedMembers_sorted args.members, nonempty⟩

end Sorted

/-! ## One member at a time -/

theorem nodup_of_sorted {members : List Uuid} (sorted : members.Pairwise (· < ·)) : members.Nodup :=
  sorted.imp fun below => BitVec.ne_of_lt below

theorem oneApart_of_changedMembers {members members' : List Uuid} (sorted : members.Pairwise (· < ·))
    (sorted' : members'.Pairwise (· < ·)) (changed : changedMembers members' members = 1) :
    OneApart members.toFinset members'.toFinset := by
  have left : (members.toFinset \ members'.toFinset).card = (members.filter fun node => node ∉ members').length := by
    rw [← toFinset_card_of_nodup ((nodup_of_sorted sorted).filter _)]
    congr 1
    ext node
    simp
  have right : (members'.toFinset \ members.toFinset).card = (members'.filter fun node => node ∉ members).length := by
    rw [← toFinset_card_of_nodup ((nodup_of_sorted sorted').filter _)]
    congr 1
    ext node
    simp
  have disjoint : Disjoint (members.toFinset \ members'.toFinset) (members'.toFinset \ members.toFinset) :=
    disjoint_sdiff_sdiff
  have parts : symmDiff members.toFinset members'.toFinset
      = (members.toFinset \ members'.toFinset) ∪ (members'.toFinset \ members.toFinset) := rfl
  rw [OneApart, parts, Finset.card_union_of_disjoint disjoint, left, right, Nat.add_comm]
  exact changed

/-! ## The evidence of a promotion -/

/-- The node is the promotion's holder, or answered it with everything the holder
    reported for itself. -/
def RangeTransitionRecord.ShownBy (transition : RangeTransitionRecord) (quorum : List QuorumAnswer) (node : Uuid) : Prop :=
  node = transition.holderTo ∨ ∃ own answer, (quorum.find? fun answer => answer.nodeUuid == transition.holderTo) = some own
      ∧ answer ∈ quorum ∧ answer.nodeUuid = node ∧ own.offset ≤ answer.offset

variable {transition : RangeTransitionRecord}

theorem shownBy_of_holding {quorum : List QuorumAnswer}
    (reported : (quorum.find? fun answer => answer.nodeUuid == transition.holderTo) = some own)
    (holds : node ∈ holding members quorum own.offset) : transition.ShownBy quorum node := by
  simp only [holding, mem_filter, any_eq_true, Bool.and_eq_true, beq_iff_eq, decide_eq_true_eq] at holds
  obtain ⟨-, answer, member, same, above⟩ := holds
  exact .inr ⟨own, answer, reported, member, same, above⟩

/-- A proving promotion is an established one, shown by a majority of the set. -/
theorem RangeReplicaSetRecord.provenBy_majority {set : RangeReplicaSetRecord}
    (distinct : set.members.Nodup) (proven : set.provenBy transition = true) :
    ∃ boundary sealedPrefixEnd quorum votes required reportedAtMs reportedApplyIndex part, transition.outcome
        = .Reported (.Established boundary sealedPrefixEnd quorum votes required) reportedAtMs reportedApplyIndex
      ∧ Majority set.members.toFinset part ∧ ∀ node ∈ part, transition.ShownBy quorum node := by
  unfold provenBy at proven
  split at proven
  · next boundary sealedPrefixEnd quorum votes required reportedAtMs reportedApplyIndex outcome =>
    refine ⟨boundary, sealedPrefixEnd, quorum, votes, required, reportedAtMs, reportedApplyIndex, ?_⟩
    split at proven
    · -- a standalone promotion: the holder is the whole set
      refine ⟨{transition.holderTo}, outcome, ⟨?_, ?_⟩, fun node member => .inl (Finset.mem_singleton.mp member)⟩
      · simp [beq_iff_eq.mp proven]
      · simp [beq_iff_eq.mp proven]
    · split at proven
      · cases proven
      · split at proven
        · cases proven
        · next own reported =>
          have most : set.members.length / 2 + 1 ≤ (holding set.members quorum own.offset).length := by simpa using proven
          refine ⟨(holding set.members quorum own.offset).toFinset, outcome, ⟨?_, ?_⟩, fun node member => ?_⟩
          · intro node member
            exact mem_toFinset.mpr (mem_of_mem_filter (mem_toFinset.mp member))
          · have distinct' : (holding set.members quorum own.offset).Nodup := distinct.filter _
            rw [toFinset_card_of_nodup distinct, toFinset_card_of_nodup distinct']
            omega
          · exact shownBy_of_holding reported (mem_toFinset.mp member)
  · cases proven

section Established

variable [External] {topic range : Uuid}

/-- The scan for a proving promotion finds one of the range's own transitions. -/
theorem MetaStateMachine.Reached.establishedUnder_inv (reached : machine.Reached) {set record}
    (found : machine.records.range? topic range = some record)
    (established : machine.records.establishedUnder topic range set = true) :
    ∃ epoch transition, set.recordedAtEpoch < epoch ∧ epoch ≤ record.fencingEpoch
      ∧ machine.records.transition? topic range epoch = some transition ∧ set.provenBy transition = true := by
  unfold establishedUnder at established
  split at established
  · cases established
  · next firstEpoch next =>
    obtain ⟨⟨bytes, value⟩, listed, proves⟩ := any_eq_true.mp established
    obtain ⟨member, above, below⟩ : (bytes, value) ∈ machine.records.entries ∧ _ ∧ _ := by
      simpa [between, mem_filter] using listed
    obtain ⟨key, rfl, -, stored⟩ := reached.encoded.mem_entries member
    have kind := reached.wellTyped key value stored
    cases value <;> simp only [Bool.false_eq_true] at proves
    case RangeTransition transition =>
      cases key <;> simp only [keyMatchesValue, Bool.false_eq_true] at kind
      case RangeTransition topic' range' epoch =>
        obtain ⟨rfl, rfl, least, -⟩ := MetaKey.rangeTransition_interval above below
        have recorded : machine.records.transition? topic' range' epoch = some transition := by
          simp [Records.transition?, Records.lookup, stored]
        have minted := (reached.transition_ne_none found epoch).mp (by simp [recorded])
        have after := (checkedSucc_eq_some next).2
        refine ⟨epoch, transition, ?_, minted.2, recorded, proves⟩
        rw [UInt64.lt_iff_toNat_lt]
        have := UInt64.le_iff_toNat_le.mp least
        omega

end Established

/-! ## Reconfigurations -/

theorem changeRefusal_eq_none {records : Records} {range}
     (allowed : records.changeRefusal topic range sorted current = none) :
    changedMembers sorted current.members = 1 ∧ records.establishedUnder topic range current = true := by
  unfold changeRefusal at allowed
  split at allowed
  · cases allowed
  · next one =>
    split at allowed
    · cases allowed
    · next established => exact ⟨not_not.mp one, not_not.mp established⟩

section Reconfiguration

variable [External] {after : MetaStateMachine} {event : Event} {args : Command.SetRangeReplicaSet}
  {set set' : RangeReplicaSetRecord}

/-- A command that replaced a recorded set was accepted as a change of it. -/
theorem MetaStateMachine.Step.changesSet (step : machine.Step event after)
    (command : event.command = .SetRangeReplicaSet args)
    (recorded : machine.records.replicaSet? args.topicUuid args.rangeUuid = some set)
    (recorded' : after.records.replicaSet? args.topicUuid args.rangeUuid = some set') (different : set' ≠ set) :
    ∃ range, machine.records.range? args.topicUuid args.rangeUuid = some range
      ∧ set' = { generation := set.generation + 1, members := sortedMembers args.members,
                 recordedAtEpoch := range.fencingEpoch }
      ∧ sortedMembers args.members ≠ []
      ∧ machine.records.changeRefusal args.topicUuid args.rangeUuid (sortedMembers args.members) set = none
      ∧ after.records.range? args.topicUuid args.rangeUuid = some range.unleased := by
  obtain ⟨applyIndex, command', response⟩ := event
  obtain rfl : command' = .SetRangeReplicaSet args := command
  have unchanged {records : Records} (same : records = machine.records)
      (found : records.replicaSet? args.topicUuid args.rangeUuid = some set') : False := by
    rw [same, recorded] at found
    exact different (Option.some.inj found).symm
  cases MetaStateMachine.apply_cases step with
  | replayed => exact (unchanged rfl recorded').elim
  | executed _ effect =>
    rw [MetaStateMachine.records_remember] at recorded' ⊢
    cases effect with
    | refused => exact (unchanged rfl recorded').elim
    | spilled spills => exact spills.elim
    | accepted accepts =>
      cases accepts with
      | same => exact (unchanged rfl recorded').elim
      | change found nonempty _ _ previous _ _ allowed =>
        cases recorded.symm.trans previous
        simp only [replicaSet?_put, if_true, MetaValue.asRangeReplicaSet, Option.some.injEq] at recorded'
        exact ⟨_, found, recorded'.symm, nonempty, allowed set rfl, by simp⟩

/-- An acknowledged change of a recorded set replaces one member, ends the lease, and
    rests on a promotion that every majority of the new set has a witness of. -/
theorem reconfiguration_keeps_quorum (reached : machine.Reached) (step : machine.Step event after)
    (command : event.command = .SetRangeReplicaSet args)
    (recorded : machine.records.replicaSet? args.topicUuid args.rangeUuid = some set)
    (recorded' : after.records.replicaSet? args.topicUuid args.rangeUuid = some set') (different : set' ≠ set) :
    OneApart set.members.toFinset set'.members.toFinset ∧ set'.members.Pairwise (· < ·) ∧ set'.members ≠ []
      ∧ set'.generation = set.generation + 1
      ∧ (∃ range, after.records.range? args.topicUuid args.rangeUuid = some range ∧ range.lease = none)
      ∧ ∃ range epoch transition boundary sealedPrefixEnd quorum votes required reportedAtMs reportedApplyIndex,
        machine.records.range? args.topicUuid args.rangeUuid = some range
        ∧ set.recordedAtEpoch < epoch ∧ epoch ≤ range.fencingEpoch
        ∧ machine.records.transition? args.topicUuid args.rangeUuid epoch = some transition
        ∧ transition.outcome
          = .Reported (.Established boundary sealedPrefixEnd quorum votes required) reportedAtMs reportedApplyIndex
        ∧ ∀ part, Majority set'.members.toFinset part → ∃ node ∈ part, transition.ShownBy quorum node := by
  obtain ⟨range, found, rfl, nonempty, allowed, ended⟩ :=
    MetaStateMachine.Step.changesSet step command recorded recorded' different
  obtain ⟨one, established⟩ := changeRefusal_eq_none allowed
  have sorted := (reached.setsSorted _ _ set recorded).1
  have sorted' := sortedMembers_sorted args.members
  have apart := oneApart_of_changedMembers sorted sorted' one
  refine ⟨apart, sorted', nonempty, rfl, ⟨_, ended, ?_⟩, ?_⟩
  · unfold RangeRecord.unleased
    split
    · rfl
    · next unheld => exact Option.not_isSome_iff_eq_none.mp unheld
  · obtain ⟨epoch, transition, above, below, minted, proven⟩ := reached.establishedUnder_inv found established
    obtain ⟨boundary, sealedPrefixEnd, quorum, votes, required, reportedAtMs, reportedApplyIndex, shown, outcome,
      majority, shows⟩ := RangeReplicaSetRecord.provenBy_majority (nodup_of_sorted sorted) proven
    refine ⟨range, epoch, transition, boundary, sealedPrefixEnd, quorum, votes, required, reportedAtMs,
      reportedApplyIndex, found, above, below, minted, outcome, fun part most => ?_⟩
    -- Majorities of sets that are one node apart meet.
    obtain ⟨node, inShown, inPart⟩ := Majority.meets_oneApart apart majority most
    exact ⟨node, inPart, shows node inShown⟩

end Reconfiguration

section GrownSet

attribute [local instance] External.plain

/-- A range led under its recorded set of three nodes, two of which voted for its boundary, with a fourth to add. -/
def ledMachine : MetaStateMachine :=
  leasedMachine.afterLog
    [(4, .RegisterNode { env := ⟨4, 0⟩, nodeUuid := 8, addr := "second", expectedGeneration := none }),
      (5, .RegisterNode { env := ⟨5, 0⟩, nodeUuid := 9, addr := "third", expectedGeneration := none }),
      (6, .RegisterNode { env := ⟨6, 0⟩, nodeUuid := 6, addr := "fourth", expectedGeneration := none }),
      (7, .SetRangeReplicaSet
        { env := ⟨7, 0⟩, topicUuid := 10, rangeUuid := 11, members := [7, 8, 9], expectedGeneration := 0 }),
      (8, .GrantRangeLease
        { env := ⟨8, 0⟩, topicUuid := 10, rangeUuid := 11, holderNodeUuid := 7, expectedRangeGeneration := 2 }),
      (9, .ReportPromotionOutcome
        { env := ⟨9, 0⟩, topicUuid := 10, rangeUuid := 11, holderNodeUuid := 7, fencingEpoch := 2,
          outcome := .Established (some 5) none [⟨7, 5⟩, ⟨8, 5⟩] 2 2 })]

def growRequest : MetadataCommand :=
  .SetRangeReplicaSet
    { env := ⟨10, 0⟩, topicUuid := 10, rangeUuid := 11, members := [9, 8, 7, 6], expectedGeneration := 1 }

theorem growRequest_keeps_quorum :
    ledMachine.records.replicaSet? 10 11 = some { generation := 1, members := [7, 8, 9], recordedAtEpoch := 1 }
      ∧ (ledMachine.afterLog [(10, growRequest)]).records.replicaSet? 10 11
        = some { generation := 2, members := [6, 7, 8, 9], recordedAtEpoch := 2 }
      ∧ OneApart {7, 8, 9} ({6, 7, 8, 9} : Finset Uuid)
      ∧ ∃ range, (ledMachine.afterLog [(10, growRequest)]).records.range? 10 11 = some range ∧ range.lease = none := by
  have before : ledMachine.records.replicaSet? 10 11
      = some { generation := 1, members := [7, 8, 9], recordedAtEpoch := 1 } := by decide +kernel
  have grown : (ledMachine.afterLog [(10, growRequest)]).records.replicaSet? 10 11
      = some { generation := 2, members := [6, 7, 8, 9], recordedAtEpoch := 2 } := by decide +kernel
  have reached : ledMachine.Reached := leasedMachine_reached.afterLog _
  have step : ledMachine.Step ⟨10, growRequest, .Ack 2⟩ (ledMachine.afterLog [(10, growRequest)]) := rfl
  obtain ⟨apart, -, -, -, unleased, -⟩ := reconfiguration_keeps_quorum reached step rfl before grown (by simp)
  exact ⟨before, grown, apart, unleased⟩

end GrownSet

end VtopEngine.Meta
