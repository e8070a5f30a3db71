import VtopEngine.Meta.Atomicity
import VtopEngine.Meta.Ownership

/-! # Membership made in one step

`ensureGroupMemberForRange` leaves alone what already stands, so that once it has
been acknowledged, doing it again refreshes a heartbeat and nothing else.  A group
that stands under another name is left alone too, and the name the command gives
leads nowhere (`othersName_acknowledged`); an answer from the dedup table says nothing
about what stands by now.  `membership_ensured` says that these are the only exceptions.
-/

namespace VtopEngine.Meta

open Lib Records MetaStateMachine

/-- The membership a command asks for, and the lease it has to be asked under. -/
def MetadataCommand.ensures : MetadataCommand → Option (EnsureMember × Uuid × Uuid × Uuid × UInt64)
  | .EnsureGroupMemberForRange args =>
    some (args.member, args.topicUuid, args.rangeUuid, args.holderNodeUuid, args.fencingEpoch)
  | .EnsureGroupMemberCoordinated args =>
    some (args.member, args.coordinatorTopicUuid, args.coordinatorRangeUuid, args.holderNodeUuid, args.fencingEpoch)
  | _ => none

/-- What an acknowledged membership leaves behind. -/
structure EnsureMember.Stands (args : EnsureMember) (generation : UInt64) (records : Records) : Prop where
  admits : args.Admits records
  group : ∃ group, records.group? args.groupUuid = some group ∧ group.generation = generation
  member : ∃ member, records.member? args.groupUuid args.memberUuid = some member ∧ args.assignment ∈ member.assigned

variable {applyIndex generation : UInt64} {args : EnsureMember}

section Handler

variable {records before after : Records}

theorem EnsureMember.Admits.grouped (admits : args.Admits records) : args.Admits (args.grouped records) := by
  unfold EnsureMember.grouped
  split
  · refine ⟨admits.nonempty, admits.fits, by simpa [withNewGroup] using admits.range, fun record named => ?_⟩
    obtain rfl : { groupUuid := args.groupUuid } = record := by simpa [withNewGroup] using named
    rfl
  · exact admits

theorem EnsureMember.Accepted.stands (accepts : args.Accepted applyIndex before (.Ack generation) after) :
    args.Stands generation after := by
  obtain ⟨nonempty, fits, range, named⟩ := accepts.admits.grouped
  cases accepts with
  | @held member group _ _ _ holds found =>
    refine ⟨⟨nonempty, fits, by simpa using range, by simpa using named⟩, ⟨group, by simpa using found, rfl⟩, ?_⟩
    exact ⟨member.heartbeatAt applyIndex, by simp, holds⟩
  | @grown member group _ _ _ grows found =>
    refine ⟨⟨nonempty, fits, by simpa using range, by simpa using named⟩, ⟨{ group with generation }, by simp, rfl⟩, ?_⟩
    refine ⟨member, by simp, ?_⟩
    cases grows with
    | extended | joined => simp

/-- A new group has the name asked for, one that was there keeps its own. -/
theorem EnsureMember.Accepted.nameOf (accepts : args.Accepted applyIndex before response after) :
    after.nameOf args.groupUuid = some ((before.nameOf args.groupUuid).getD args.name) := by
  have named : (args.grouped before).nameOf args.groupUuid = some ((before.nameOf args.groupUuid).getD args.name) := by
    unfold EnsureMember.grouped Records.nameOf
    cases found : before.group? args.groupUuid <;> simp [withNewGroup, found]
  cases accepts with
  | held => simpa [Records.nameOf] using named
  | grown _ _ _ found =>
    rw [← named]
    simp [Records.nameOf, found]

theorem EnsureMember.Stands.again (stands : args.Stands generation records)
    (exclusive : records.assignedElsewhere args.groupUuid args.memberUuid [args.assignment] = false)
    {member} (joined : records.member? args.groupUuid args.memberUuid = some member) :
    (ensureGroupMemberForRange applyIndex args).wp (fun response reached => response = .Ack generation
      ∧ reached = records.put (.GroupMember args.groupUuid args.memberUuid) (.GroupMember (member.heartbeatAt applyIndex)))
      (fun _ _ => False) records := by
  obtain ⟨admits, ⟨group, found, rfl⟩, ⟨member', joined', holds⟩⟩ := stands
  cases joined.symm.trans joined'
  refine ensure_wp admits exclusive found (Txn.wp_read_bind ?_)
  rw [joined]
  refine Txn.wp_write_bind ?_
  rw [if_pos holds]
  exact ⟨by simpa using found, rfl, rfl⟩

/-- Where holdings are exclusive, the holder finds nobody else holding the range. -/
theorem Records.not_assignedElsewhere (encoded : records.Encoded)
    (alone : ∀ other, assignment ∈ records.assignments group other → member = other) :
    records.assignedElsewhere group member [assignment] = false := by
  by_contra taken
  obtain ⟨other, record, joined, different, claimed⟩ := member_of_assignedElsewhere encoded (Bool.not_eq_false _ ▸ taken)
  refine different (alone other ?_).symm
  simpa [assignments, joined] using claimed

end Handler

section Machine

variable [External] {machine next : MetaStateMachine} {command : MetadataCommand} {topic range holder : Uuid}
  {epoch : UInt64}

theorem MetadataCommand.Accepted.ensured (accepts : command.Accepted applyIndex before response after)
    (ensures : command.ensures = some (args, topic, range, holder, epoch)) :
    after.HeldBy topic range holder epoch ∧ args.Accepted applyIndex before response after := by
  cases command <;> simp only [MetadataCommand.ensures, reduceCtorEq, Option.some.injEq, Prod.mk.injEq] at ensures
  all_goals
    obtain ⟨rfl, rfl, rfl, rfl, rfl⟩ := ensures
    have ranges (topic range : Uuid) : after.range? topic range = before.range? topic range :=
      (MetadataCommand.Effect.accepted accepts).lookup_eq rfl
    exact ⟨by simpa only [Records.HeldBy, ranges] using accepts.1, accepts.2⟩

section

variable (ensures : command.ensures = some (args, topic, range, holder, epoch))

include ensures

theorem applyInner_ensures :
    applyInner applyIndex command = fenced topic range holder epoch (ensureGroupMemberForRange applyIndex args) := by
  cases command <;> simp only [MetadataCommand.ensures, reduceCtorEq, Option.some.injEq, Prod.mk.injEq] at ensures
  all_goals
    obtain ⟨rfl, rfl, rfl, rfl, rfl⟩ := ensures
    rfl

/-- A new request that was acknowledged was accepted, and its lease is still held. -/
theorem MetaStateMachine.Step.ensured (fresh : machine.appliedResponse command.envelope.requestId = none)
    (step : machine.Step ⟨applyIndex, command, .Ack generation⟩ next) :
    next.records.HeldBy topic range holder epoch
      ∧ args.Accepted applyIndex machine.records (.Ack generation) next.records := by
  cases apply_cases step with
  | replayed remembered => simp [fresh] at remembered
  | executed _ effect =>
    rw [records_remember]
    cases effect with
    | accepted accepts => exact accepts.ensured ensures

end

/-- What is promised after an acknowledgement: the name leads to the group, the member holds the range, and, while the
    lease is held, asking once more is acknowledged with the same generation and changes no record but the heartbeat. -/
structure MetaStateMachine.Ensured (machine : MetaStateMachine) (args : EnsureMember) (generation : UInt64)
    (topic range holder : Uuid) (epoch : UInt64) : Prop where
  index : machine.records.groupName? args.name = some { groupUuid := args.groupUuid }
  group : ∃ group, machine.records.group? args.groupUuid = some group ∧ group.name = args.name
  member : ∃ member, machine.records.member? args.groupUuid args.memberUuid = some member
    ∧ args.assignment ∈ member.assigned ∧ (machine.records.HeldBy topic range holder epoch →
      ∀ again index, again.ensures = some (args, topic, range, holder, epoch) →
        machine.appliedResponse again.envelope.requestId = none →
        ∃ last, machine.Step ⟨index, again, .Ack generation⟩ last
          ∧ last.records = machine.records.put (.GroupMember args.groupUuid args.memberUuid)
            (.GroupMember (member.heartbeatAt index)))

/-- The membership is there under its name and, while the lease is held, its group at the generation. -/
structure EnsureMember.Kept (args : EnsureMember) (generation : UInt64) (topic range holder : Uuid) (epoch : UInt64)
    (records : Records) : Prop where
  named : records.nameOf args.groupUuid = some args.name
  member : ∃ member, records.member? args.groupUuid args.memberUuid = some member ∧ args.assignment ∈ member.assigned
  current : records.HeldBy topic range holder epoch →
    ∃ group, records.group? args.groupUuid = some group ∧ group.generation = generation

omit [External] in
theorem exists_fresh_uuid {used : List Uuid} (few : used.length < 2 ^ 128) : ∃ fresh, fresh ∉ used := by
  have fewer : (used.map BitVec.toNat).toFinset.card < (Finset.range (used.length + 1)).card := by
    have := (used.map BitVec.toNat).toFinset_card_le
    rw [Finset.card_range]
    rw [List.length_map] at this
    omega
  obtain ⟨number, isBelow, unused⟩ := Finset.exists_mem_notMem_of_card_lt_card fewer
  refine ⟨BitVec.ofNat 128 number, fun member => unused (List.mem_toFinset.mpr ?_)⟩
  have below := Finset.mem_range.mp isBelow
  have same : (BitVec.ofNat 128 number).toNat = number := by rw [BitVec.toNat_ofNat, Nat.mod_eq_of_lt (by omega)]
  exact same ▸ List.mem_map_of_mem member

section

variable (reached : machine.Reached)

include reached

theorem MetaStateMachine.Reached.exists_fresh_request : ∃ requestId, machine.appliedResponse requestId = none := by
  have consistent := reached.dedup_consistent
  obtain ⟨requestId, unused⟩ := exists_fresh_uuid (Nat.lt_of_le_of_lt consistent.bounded (by decide))
  refine ⟨requestId, ?_⟩
  cases held : machine.appliedResponse requestId with
  | none => rfl
  | some response =>
    refine absurd ((consistent.agree requestId).mpr ?_) unused
    exact Std.ExtTreeMap.mem_iff_isSome_getElem?.mpr (Option.isSome_of_eq_some held)

/-- What stands under a name would be admitted again. -/
theorem EnsureMember.Kept.admits (kept : args.Kept generation topic range holder epoch machine.records) :
    args.Admits machine.records := by
  obtain ⟨member, joined, holds⟩ := kept.member
  have indexed := (reached.groupsIndexed args.name args.groupUuid).mpr kept.named
  obtain ⟨value, stored, -⟩ := Option.bind_eq_some_iff.mp indexed
  obtain ⟨key, same, fits⟩ := reached.encoded _ value stored
  rw [MetaKey.encode_injective same] at fits
  refine ⟨fits.1, fits.2, ?_, fun record named => ?_⟩
  · refine (reached.holdings args.groupUuid).allowed args.memberUuid args.assignment ?_
    rwa [Records.assignments_of_member joined]
  · cases indexed.symm.trans named
    rfl

theorem EnsureMember.Kept.repeats (kept : args.Kept generation topic range holder epoch machine.records)
    {member} (joined : machine.records.member? args.groupUuid args.memberUuid = some member)
    (held : machine.records.HeldBy topic range holder epoch)
    (ensures : command.ensures = some (args, topic, range, holder, epoch))
    (fresh : machine.appliedResponse command.envelope.requestId = none) (index : UInt64) :
    ∃ last, machine.Step ⟨index, command, .Ack generation⟩ last
      ∧ last.records = machine.records.put (.GroupMember args.groupUuid args.memberUuid)
        (.GroupMember (member.heartbeatAt index)) := by
  have stands : args.Stands generation machine.records := ⟨kept.admits reached, kept.current held, kept.member⟩
  obtain ⟨_, joined', holds⟩ := kept.member
  cases joined.symm.trans joined'
  have exclusive := Records.not_assignedElsewhere reached.encoded fun other claimed =>
    (reached.holdings args.groupUuid).exclusive args.memberUuid other args.assignment
      (by rwa [Records.assignments_of_member joined]) claimed
  have runs : (applyInner index command).wp (fun response after => response = .Ack generation
      ∧ after = machine.records.put (.GroupMember args.groupUuid args.memberUuid) (.GroupMember (member.heartbeatAt index)))
      (fun _ _ => False) machine.records := by
    rw [applyInner_ensures ensures]
    exact fenced_runs held (stands.again exclusive joined)
  obtain ⟨_, last, step, rfl, written⟩ := step_of_wp index command fresh runs
  exact ⟨last, step, written⟩

/-- The promise is kept exactly where the membership is there. -/
theorem MetaStateMachine.Reached.ensured_iff (ensures : command.ensures = some (args, topic, range, holder, epoch)) :
    machine.Ensured args generation topic range holder epoch
      ↔ args.Kept generation topic range holder epoch machine.records := by
  constructor
  · rintro ⟨index, group, member, joined, holds, repeats⟩
    refine ⟨(reached.groupsIndexed _ _).mp index, ⟨member, joined, holds⟩, fun held => ?_⟩
    obtain ⟨requestId, fresh⟩ := reached.exists_fresh_request
    -- The same request under an id that is not remembered.
    obtain ⟨again, same, isId⟩ : ∃ again : MetadataCommand, again.ensures = command.ensures
        ∧ again.envelope.requestId = requestId := by
      cases command <;> simp only [MetadataCommand.ensures, reduceCtorEq] at ensures
      case EnsureGroupMemberForRange args =>
        exact ⟨.EnsureGroupMemberForRange { args with env := ⟨requestId, 0⟩ }, rfl, rfl⟩
      case EnsureGroupMemberCoordinated args =>
        exact ⟨.EnsureGroupMemberCoordinated { args with env := ⟨requestId, 0⟩ }, rfl, rfl⟩
    subst isId
    obtain ⟨last, step, written⟩ := repeats held again 0 (same.trans ensures) fresh
    obtain ⟨group, found, current⟩ := (Step.ensured (same.trans ensures) fresh step).2.stands.group
    rw [written] at found
    exact ⟨group, by simpa using found, current⟩
  · intro kept
    obtain ⟨member, joined, holds⟩ := kept.member
    refine ⟨(reached.groupsIndexed _ _).mpr kept.named, Option.map_eq_some_iff.mp kept.named, member, joined, holds, ?_⟩
    exact fun held again index same fresh => kept.repeats reached joined held same fresh index

end

/-- An acknowledgement of a command that was executed, whose lease is then still held, keeps its promise exactly if the
    group was not there under another name; one that was answered again, exactly if the membership is still there. -/
theorem membership_ensured (reached : machine.Reached) (ensures : command.ensures = some (args, topic, range, holder, epoch))
    (step : machine.Step ⟨applyIndex, command, .Ack generation⟩ next) :
    (machine.appliedResponse command.envelope.requestId = none → next.records.HeldBy topic range holder epoch)
    ∧ (next.Ensured args generation topic range holder epoch ↔
      if machine.appliedResponse command.envelope.requestId = none then
        ∀ group, machine.records.group? args.groupUuid = some group → group.name = args.name
      else args.Kept generation topic range holder epoch machine.records) := by
  rw [(reached.step step).ensured_iff ensures]
  by_cases fresh : machine.appliedResponse command.envelope.requestId = none
  · obtain ⟨held, accepted⟩ := Step.ensured ensures fresh step
    have stands := accepted.stands
    have named := accepted.nameOf
    refine ⟨fun _ => held, ?_⟩
    rw [if_pos fresh]
    constructor
    · intro kept group found
      rw [kept.named] at named
      simpa [Records.nameOf, found] using named.symm
    · intro known
      refine ⟨named.trans ?_, stands.member, fun _ => stands.group⟩
      cases found : machine.records.group? args.groupUuid with
      | none => simp [Records.nameOf, found]
      | some group => simp [Records.nameOf, found, known group found]
  · rw [if_neg fresh]
    refine ⟨fun isFresh => absurd isFresh fresh, ?_⟩
    cases apply_cases step with
    | replayed => rfl
    | executed isFresh => exact absurd isFresh fresh

end Machine

section EnsuredLog

attribute [local instance] External.plain

/-- The leaseholder asks for the member of group 30, under a name for the group. -/
def ensureMember (requestId : Uuid) (name : String) : MetadataCommand :=
  .EnsureGroupMemberForRange
    { env := ⟨requestId, 0⟩, name, groupUuid := 30, memberUuid := 31, topicUuid := 10, rangeUuid := 11,
      holderNodeUuid := 7, fencingEpoch := 1 }

theorem ensureMember_repeats :
    ∃ last, (leasedMachine.afterLog [(4, ensureMember 4 "group")]).Step ⟨5, ensureMember 5 "group", .Ack 1⟩ last := by
  have step : leasedMachine.Step ⟨4, ensureMember 4 "group", .Ack 1⟩
      (leasedMachine.afterLog [(4, ensureMember 4 "group")]) := rfl
  have absent : leasedMachine.records.group? 30 = none := by decide +kernel
  have fresh : leasedMachine.appliedResponse (ensureMember 4 "group").envelope.requestId = none := by decide +kernel
  obtain ⟨held, ensured⟩ := membership_ensured leasedMachine_reached rfl step
  rw [if_pos fresh] at ensured
  obtain ⟨member, -, -, repeats⟩ := (ensured.mpr fun group found => by cases absent.symm.trans found).member
  obtain ⟨last, step', -⟩ := repeats (held fresh) (ensureMember 5 "group") 5 rfl (by decide +kernel)
  exact ⟨last, step'⟩

/-- A group that is there under another name: the command is acknowledged, and the
    name it gave leads to no group. -/
theorem othersName_acknowledged : (new.afterLog consumedLog).Reached
      ∧ (new.afterLog consumedLog).Step ⟨7, ensureMember 7 "other", .Ack 2⟩
        (new.afterLog (consumedLog ++ [(7, ensureMember 7 "other")]))
      ∧ (new.afterLog (consumedLog ++ [(7, ensureMember 7 "other")])).records.groupName? "other" = none :=
  ⟨Reached.afterLog Reachable.refl _, rfl, by decide +kernel⟩

end EnsuredLog

end VtopEngine.Meta
