import VtopEngine.Meta.Reach

/-! # What a refused command leaves behind

A refusal is meant to leave the records as they were.  Two handlers refuse after
they have written:

* `assignMemberRanges` writes the member, then finds that the group's generation
  cannot advance;
* `ensureGroupMemberForRange` refreshes the member's heartbeat, then finds that the
  member cannot take the range, or that the group's generation cannot advance.

`MetadataCommand.PartialWrite` says when this happens, and `rejection_atomic_iff`
that it is the only way a refusal changes a record.  A third write before a check,
that of the group itself, is harmless: a range is taken by another member of the
group only if the group was there before.
-/

namespace VtopEngine.Meta

open Lib Records Txn MetaStateMachine Option

variable {records before after : Records} {applyIndex : UInt64} {command : MetadataCommand}

/-! ## Members have a group -/

def Records.MembersGrouped (records : Records) : Prop :=
  ∀ group member, records.member? group member ≠ none → records.group? group ≠ none

variable {group member : Uuid} {args : EnsureMember}

section Joins

theorem EnsureMember.Accepted.joins
    (accepts : args.Accepted applyIndex before response after) (absent : before.member? group member = none)
    (joined : after.member? group member ≠ none) : after.group? group ≠ none := by
  have present := args.group?_grouped before
  by_cases same : args.groupUuid = group
  · cases accepts <;> simp_all
  · cases accepts <;> simp_all

theorem EnsureMember.Spilled.joins
    (spills : args.Spilled applyIndex before error after) (absent : before.member? group member = none)
    (joined : after.member? group member ≠ none) : after.group? group ≠ none := by
  have present := args.group?_grouped before
  by_cases same : args.groupUuid = group
  · cases spills <;> simp_all
  · cases spills <;> simp_all

theorem MetadataCommand.Accepted.joins [External]
    (accepts : command.Accepted applyIndex before response after) (absent : before.member? group member = none)
    (joined : after.member? group member ≠ none) : after.group? group ≠ none := by
  have writes : command.writes 11 = true := by
    by_contra other
    have same : after.member? group member = before.member? group member :=
      (MetadataCommand.Effect.accepted accepts).lookup_eq (Bool.not_eq_true _ |>.mp other)
    exact joined (same.trans absent)
  cases command <;> simp [MetadataCommand.writes] at writes
  case JoinConsumerGroup args =>
    cases accepts
    by_cases same : args.groupUuid = group <;> simp_all
  case LeaveConsumerGroup args | ExpireStaleMember args =>
    cases accepts
    simp_all [withoutMember]
  case AssignMemberRanges args =>
    obtain ⟨⟨_, _, _, _, present⟩, _⟩ := accepts
    by_cases same : args.groupUuid = group ∧ args.memberUuid = member <;> simp_all
  case HeartbeatMember args =>
    obtain ⟨_, present⟩ := accepts
    by_cases same : args.groupUuid = group ∧ args.memberUuid = member <;> simp_all
  case EnsureGroupMemberForRange args | EnsureGroupMemberCoordinated args => exact accepts.2.joins absent joined

theorem MetadataCommand.Spilled.joins (spills : command.Spilled applyIndex before error after)
    (absent : before.member? group member = none) (joined : after.member? group member ≠ none) :
    after.group? group ≠ none := by
  cases command with
  | AssignMemberRanges args =>
    obtain ⟨⟨_, _, _, _, present⟩, _⟩ := spills
    by_cases same : args.groupUuid = group ∧ args.memberUuid = member <;> simp_all
  | EnsureGroupMemberForRange args | EnsureGroupMemberCoordinated args => exact spills.2.joins absent joined
  | _ => exact spills.elim

end Joins

theorem MetaStateMachine.Reached.membersGrouped [External] {machine : MetaStateMachine} (reached : machine.Reached) :
    machine.records.MembersGrouped := by
  refine reached.records_invariant MembersGrouped (fun _ _ joined => absurd rfl joined) ?_
  intro machine applyIndex command response after _ grouped effect group member joined
  by_cases absent : machine.records.member? group member = none
  · cases effect with
    | accepted accepts => exact accepts.joins absent joined
    | refused => exact absurd absent joined
    | spilled spills => exact spills.joins absent joined
  · refine effect.stays rfl (fun value kind => ?_) (grouped group member absent)
    cases value <;> simp_all [keyMatchesValue]

/-- Where a range is taken, another member of the group holds it. -/
theorem Records.member_of_assignedElsewhere
    (encoded : records.Encoded) (taken : records.assignedElsewhere group member ranges = true) :
    ∃ other record, records.member? group other = some record ∧ other ≠ member
      ∧ ∃ assignment ∈ ranges, assignment ∈ record.assigned := by
  obtain ⟨⟨bytes, value⟩, stored, holds⟩ := List.any_eq_true.mp taken
  obtain ⟨key, rfl, decoded, found⟩ := encoded.mem_entries stored
  simp only [heldByOther, decoded] at holds
  split at holds
  · next otherGroup other record sameKey =>
    cases sameKey
    simp only [Bool.and_eq_true, decide_eq_true_eq, List.any_eq_true] at holds
    obtain ⟨⟨rfl, different⟩, claimed⟩ := holds
    exact ⟨other, record, by simp [member?, lookup, found], different, claimed⟩
  · cases holds

/-! ## The refusals that come after a write -/

/-- Everything was checked and the member written; the group's generation is exhausted. -/
inductive Command.AssignMemberRanges.PartialWrite (args : AssignMemberRanges) (records : Records) : Prop
  | intro {group : ConsumerGroupRecord} {member : GroupMemberRecord} {nextMemberGeneration : UInt64}
      (passes : args.Passes records group member nextMemberGeneration)
      (exhausted : checkedSucc group.generation = none)

/-- The range is free, and the member that is to take it is written before the
    refusal: with a new heartbeat when it cannot take the range, and with the range
    when the group's generation is exhausted. -/
inductive EnsureMember.PartialWrite (args : EnsureMember) (applyIndex : UInt64) (records : Records) : Prop
  | heartbeat {member : GroupMemberRecord} (admits : args.Admits records)
      (exclusive : records.assignedElsewhere args.groupUuid args.memberUuid [args.assignment] = false)
      (joined : records.member? args.groupUuid args.memberUuid = some member)
      (lacks : args.assignment ∉ member.assigned)
      (stuck : MAX_ASSIGNED_RANGES ≤ member.assigned.length ∨ checkedSucc member.generation = none)
      (older : member.lastHeartbeatApplyIndex ≠ applyIndex)
  | groupExhausted {member : GroupMemberRecord} {group : ConsumerGroupRecord} (admits : args.Admits records)
      (exclusive : records.assignedElsewhere args.groupUuid args.memberUuid [args.assignment] = false)
      (grows : args.Grows applyIndex records member) (found : records.group? args.groupUuid = some group)
      (exhausted : checkedSucc group.generation = none)

/-- The command is refused with a record changed. -/
def MetadataCommand.PartialWrite (command : MetadataCommand) (applyIndex : UInt64) (records : Records) : Prop :=
  match command with
  | .AssignMemberRanges args => args.PartialWrite records
  | .EnsureGroupMemberForRange args =>
    records.HeldBy args.topicUuid args.rangeUuid args.holderNodeUuid args.fencingEpoch
      ∧ args.member.PartialWrite applyIndex records
  | .EnsureGroupMemberCoordinated args =>
    records.HeldBy args.coordinatorTopicUuid args.coordinatorRangeUuid args.holderNodeUuid args.fencingEpoch
      ∧ args.member.PartialWrite applyIndex records
  | _ => False

theorem EnsureMember.grouped_eq (present : records.group? args.groupUuid ≠ none) : args.grouped records = records :=
  if_neg (by simpa using present)

theorem EnsureMember.grouped_eq_of_joined {member}
    (grouped : records.MembersGrouped) (joined : records.member? args.groupUuid args.memberUuid = some member) :
    args.grouped records = records :=
  grouped_eq (grouped args.groupUuid args.memberUuid (by simp [joined]))

theorem Records.put_member {record} (joined : records.member? group member = some record) :
    records.put (.GroupMember group member) (.GroupMember record) = records := by
  obtain ⟨value, found, seen⟩ := bind_eq_some_iff.mp joined
  cases value <;> simp only [MetaValue.asGroupMember, reduceCtorEq, some.injEq] at seen
  subst seen
  exact put_of_record found

theorem Records.put_member_ne {record} (differs : records.member? group member ≠ some record) :
    records.put (.GroupMember group member) (.GroupMember record) ≠ records := by
  intro same
  apply differs
  rw [← same]
  simp

/-- What is left behind is what was there, except in the cases of `PartialWrite`. -/
theorem EnsureMember.Spilled.partialWrite
    (spills : args.Spilled applyIndex before error after) (grouped : before.MembersGrouped) (encoded : before.Encoded) :
    after = before ∨ args.PartialWrite applyIndex before := by
  cases spills with
  | elsewhere admits taken =>
    -- the other member is older than the group could be, had the command made it
    have rewrites : before.Rewrites (fun key _ => key.NameFits) (args.grouped before) :=
      EnsureMember.grouped_rewrites (fun _ => admits.nameFits) fun _ => trivial
    obtain ⟨other, record, joined, -⟩ := member_of_assignedElsewhere (rewrites.encoded (fun _ _ fits => fits) encoded) taken
    rw [EnsureMember.member?_grouped] at joined
    exact .inl (grouped_eq (grouped _ other (by simp [joined])))
  | @heartbeat member _ admits exclusive joined lacks stuck =>
    rw [grouped_eq_of_joined grouped joined] at exclusive ⊢
    by_cases older : member.lastHeartbeatApplyIndex = applyIndex
    · have same : member.heartbeatAt applyIndex = member := by
        subst older
        rfl
      rw [same]
      exact .inl (put_member joined)
    · exact .inr (.heartbeat admits exclusive joined lacks stuck older)
  | @groupExhausted _ group _ admits exclusive grows found exhausted =>
    by_cases absent : before.group? args.groupUuid = none
    · have made : group.generation = 0 := by
        simp only [EnsureMember.grouped, absent, isNone_none, if_true, withNewGroup, group?_put,
          MetaValue.asGroup, some.injEq] at found
        rw [← found]
      simp [made, checkedSucc] at exhausted
    · rw [grouped_eq absent] at exclusive found
      exact .inr (.groupExhausted admits exclusive grows found exhausted)

theorem MetadataCommand.Spilled.partialWrite
    (spills : command.Spilled applyIndex before error after) (grouped : before.MembersGrouped) (encoded : before.Encoded) :
    after = before ∨ command.PartialWrite applyIndex before := by
  cases command with
  | AssignMemberRanges args =>
    obtain ⟨passes, exhausted⟩ := spills
    exact .inr (.intro passes exhausted)
  | EnsureGroupMemberForRange args | EnsureGroupMemberCoordinated args =>
    exact (spills.2.partialWrite grouped encoded).imp_right fun partialWrite => ⟨spills.1, partialWrite⟩
  | _ => exact spills.elim

/-! ## They do change a record -/

theorem Command.AssignMemberRanges.PartialWrite.rejects {args : AssignMemberRanges}
    (partialWrite : args.PartialWrite records) :
    ∃ reached, (assignMemberRanges args).RejectsAt records reached ∧ reached ≠ records := by
  obtain @⟨group, member, next, passes, exhausted⟩ := partialWrite
  refine ⟨records.put (.GroupMember args.groupUuid args.memberUuid) (.GroupMember
    { member with assigned := args.ranges, generation := next }), ?_, fun same => ?_⟩
  · refine rejectIf_passes (Nat.not_lt.mpr passes.bounded) (wp_read_bind ?_)
    refine rejectSome_passes passes.ranges (wp_read_bind ?_)
    refine rejectIf_passes (by simp [passes.exclusive]) (need_found passes.found ?_)
    refine need_found passes.joined (rejectIf_passes (not_not.mpr passes.current) ?_)
    refine need_found passes.next (wp_write_bind ?_)
    exact wp_bind.mpr (wp_need (fun _ advances => by simp [exhausted] at advances) fun _ => ⟨⟨_, rfl⟩, rfl⟩)
  · -- the member's generation has moved
    refine put_member_ne (fun unmoved => ?_) same
    rw [passes.joined] at unmoved
    have moved := (checkedSucc_eq_some passes.next).2
    have stayed : member.generation = next := congrArg (·.generation) (some.inj unmoved)
    rw [stayed] at moved
    omega

/-- The checks before the first write, passed by a command whose group is there. -/
theorem EnsureMember.ensure_wp {post : MetadataResponse → Records → Prop}
    {fail : Abort MetadataError → Records → Prop} (admits : args.Admits records)
    (exclusive : records.assignedElsewhere args.groupUuid args.memberUuid [args.assignment] = false)
    {group} (found : records.group? args.groupUuid = some group)
    (assigns : (ensureAssignment applyIndex args).wp
      (fun changed reached => reached.group? args.groupUuid = some group ∧ match changed with
        | true => checkedSucc group.generation = none ∧ ∀ error, fail (.rejected error) reached
        | false => post (.Ack group.generation) reached) fail records) :
    (ensureGroupMemberForRange applyIndex args).wp post fail records := by
  obtain ⟨range, ranged⟩ := ne_none_iff_exists'.mp admits.range
  have named : ¬ (records.groupName? args.name).any (·.groupUuid ≠ args.groupUuid) = true := by
    cases seen : records.groupName? args.name with
    | none => simp
    | some record => simp [admits.named record seen]
  refine rejectIf_passes (not_not.mpr (validateName_isOk.mpr ⟨admits.nonempty, admits.fits⟩)) ?_
  refine need_found ranged (wp_read_bind (rejectIf_passes named (wp_write_bind ?_)))
  rw [grouped_eq (by simp [found])]
  refine wp_read_bind (rejectIf_passes (by simp [exclusive]) (wp_bind.mpr ?_))
  refine wp_mono assigns ?_ fun _ _ exits => exits
  rintro changed reached ⟨found, outcome⟩
  refine wp_read_bind ?_
  rw [found]
  cases changed with
  | true =>
    obtain ⟨exhausted, refused⟩ := outcome
    exact wp_bind.mpr (wp_need (fun _ advances => by simp [exhausted] at advances) fun _ => refused _)
  | false => exact outcome

theorem EnsureMember.PartialWrite.rejects (partialWrite : args.PartialWrite applyIndex records)
    (grouped : records.MembersGrouped) :
    ∃ reached, (ensureGroupMemberForRange applyIndex args).RejectsAt records reached ∧ reached ≠ records := by
  cases partialWrite with
  | @heartbeat member admits exclusive joined lacks stuck older =>
    -- The heartbeat is written before the room for another range is checked.
    refine ⟨records.put (.GroupMember args.groupUuid args.memberUuid) (.GroupMember (member.heartbeatAt applyIndex)), ?_,
      put_member_ne fun same => ?_⟩
    · obtain ⟨group, found⟩ := ne_none_iff_exists'.mp (grouped args.groupUuid args.memberUuid (by simp [joined]))
      refine ensure_wp admits exclusive found (wp_read_bind ?_)
      rw [joined]
      refine wp_write_bind ?_
      rw [if_neg lacks]
      refine rejectIf_bind (fun _ => ⟨⟨_, rfl⟩, rfl⟩) fun room => ?_
      have exhausted := stuck.resolve_left room
      exact wp_bind.mpr (wp_need (fun _ advances => by simp [exhausted] at advances) fun _ => ⟨⟨_, rfl⟩, rfl⟩)
    · rw [joined] at same
      exact older (congrArg (·.lastHeartbeatApplyIndex) (some.inj same))
  | @groupExhausted member group admits exclusive grows found exhausted =>
    -- The member is written before the generation of its group advances.
    refine ⟨records.put (.GroupMember args.groupUuid args.memberUuid) (.GroupMember member), ?_,
      put_member_ne fun same => ?_⟩
    · refine ensure_wp admits exclusive found (wp_read_bind ?_)
      have kept : (records.put (.GroupMember args.groupUuid args.memberUuid) (.GroupMember member)).group?
          args.groupUuid = some group := by simpa using found
      cases grows with
      | extended joined lacks room advances =>
        rw [joined]
        refine wp_write_bind ?_
        rw [if_neg lacks]
        refine rejectIf_passes (Nat.not_le.mpr room) (need_found advances (wp_write_bind ?_))
        rw [put_put]
        exact ⟨kept, exhausted, fun _ => ⟨⟨_, rfl⟩, rfl⟩⟩
      | joined absent =>
        rw [absent]
        exact wp_write_bind ⟨kept, exhausted, fun _ => ⟨⟨_, rfl⟩, rfl⟩⟩
    · cases grows with
      | @extended before next joined _ _ advances =>
        rw [joined] at same
        have moved := (checkedSucc_eq_some advances).2
        have stayed : before.generation = next := congrArg (·.generation) (some.inj same)
        rw [stayed] at moved
        omega
      | joined absent => simp [absent] at same

theorem fenced_rejectsAt {handler : Handler}
    (held : records.HeldBy topicUuid rangeUuid holderNodeUuid fencingEpoch) (rejects : handler.RejectsAt records after) :
    (fenced topicUuid rangeUuid holderNodeUuid fencingEpoch handler).RejectsAt records after :=
  wp_read_bind (rejectSome_passes (notTheLeaseholder_eq_none.mpr held) rejects)

theorem MetadataCommand.PartialWrite.rejects [External] (partialWrite : command.PartialWrite applyIndex records)
    (grouped : records.MembersGrouped) :
    ∃ reached, (applyInner applyIndex command).RejectsAt records reached ∧ reached ≠ records := by
  cases command with
  | AssignMemberRanges args => exact Command.AssignMemberRanges.PartialWrite.rejects partialWrite
  | EnsureGroupMemberForRange args | EnsureGroupMemberCoordinated args =>
    obtain ⟨reached, rejects, changed⟩ := partialWrite.2.rejects grouped
    exact ⟨reached, fenced_rejectsAt partialWrite.1 rejects, changed⟩
  | _ => exact partialWrite.elim

/-! ## Atomicity -/

section Atomicity

variable [External] {machine : MetaStateMachine}

/-- An accepted command is never answered with a refusal. -/
theorem MetadataCommand.Accepted.ne_rejected
    (accepts : command.Accepted applyIndex before response after) (error) : response ≠ .Rejected error := by
  rintro rfl
  cases command with
  | CancelRetention args => exact accepts.elim
  | EnsureGroupMemberForRange args | EnsureGroupMemberCoordinated args | CommitGroupCursorFenced args
      | CommitGroupCursorCoordinated args => exact nomatch accepts.2
  | _ => cases accepts

theorem MetaStateMachine.apply_rejects (fresh : machine.appliedResponse command.envelope.requestId = none)
    (rejects : (applyInner applyIndex command).RejectsAt machine.records after) :
    ∃ error next, machine.apply applyIndex command = .ok (.Rejected error, next) ∧ next.records = after := by
  obtain ⟨error, ran⟩ := rejects.run
  refine ⟨error, { machine with records := after }.remember command.envelope.requestId (.Rejected error), ?_, by simp⟩
  simp only [apply, fresh, ran]

/-- A refused command leaves every record as it was, unless it is one of the
    refusals that come after a write. -/
theorem rejection_atomic_iff (reached : machine.Reached)
    (fresh : machine.appliedResponse command.envelope.requestId = none) :
    (∀ error next, machine.apply applyIndex command = .ok (.Rejected error, next) → next.records = machine.records) ↔
      ¬ command.PartialWrite applyIndex machine.records := by
  constructor
  · intro atomic partialWrite
    obtain ⟨_, rejects, changed⟩ := partialWrite.rejects reached.membersGrouped
    obtain ⟨error, next, applied, rfl⟩ := apply_rejects fresh rejects
    exact changed (atomic error next applied)
  · intro whole error next applied
    cases apply_cases applied with
    | replayed => rfl
    | executed _ effect =>
      rw [records_remember]
      generalize answered : MetadataResponse.Rejected error = response at effect
      cases effect with
      | accepted accepts => exact absurd answered.symm (accepts.ne_rejected error)
      | refused => rfl
      | spilled spills => exact (spills.partialWrite reached.membersGrouped reached.encoded).resolve_right whole

end Atomicity

section FullMember

attribute [local instance] External.plain

/-- A member that holds as many ranges as it may, and one more range, leased to
    node 7 at epoch 1. -/
def fullMemberMachine : MetaStateMachine :=
  let topic (number : Nat) : Uuid := .ofNat 128 (100 + number)
  let range (number : Nat) : Uuid := .ofNat 128 (200 + number)
  new.afterLog <|
    [(1, .RegisterNode { env := ⟨1, 0⟩, nodeUuid := 7, addr := "node", expectedGeneration := none })]
    ++ ((List.range 17).map fun number => (2, .CreateTopic
        { env := ⟨topic number, 0⟩, name := s!"topic{number}", topicUuid := topic number, rootRangeUuid := range number }))
    ++ [(3, .GrantRangeLease
        { env := ⟨2, 0⟩, topicUuid := topic 16, rangeUuid := range 16, holderNodeUuid := 7, expectedRangeGeneration := 0 }),
      (4, .CreateConsumerGroup { env := ⟨3, 0⟩, name := "group", groupUuid := 8 }),
      (5, .JoinConsumerGroup { env := ⟨4, 0⟩, groupUuid := 8, memberUuid := 9, expectedGroupGeneration := 0 }),
      (6, .AssignMemberRanges
        { env := ⟨5, 0⟩, groupUuid := 8, memberUuid := 9, expectedMemberGeneration := 0,
          ranges := (List.range 16).map fun number => ⟨topic number, range number⟩ })]

theorem fullMemberMachine_reached : fullMemberMachine.Reached := Reached.afterLog Reachable.refl _

/-- The leaseholder asks for the seventeenth range. -/
def seventeenthRange : MetadataCommand :=
  .EnsureGroupMemberForRange
    { env := ⟨6, 0⟩, name := "group", groupUuid := 8, memberUuid := 9, topicUuid := 116, rangeUuid := 216,
      holderNodeUuid := 7, fencingEpoch := 1 }

/-- It is refused, and the member's heartbeat has moved from index 5 to 7. -/
theorem refused_ensure_moves_heartbeat :
    ∃ next, fullMemberMachine.Reached ∧ fullMemberMachine.appliedResponse seventeenthRange.envelope.requestId = none
      ∧ fullMemberMachine.apply 7 seventeenthRange = .ok (.Rejected (.limit "assigned ranges must be <= 16"), next)
      ∧ (fullMemberMachine.records.member? 8 9).map (·.lastHeartbeatApplyIndex) = some 5
      ∧ (next.records.member? 8 9).map (·.lastHeartbeatApplyIndex) = some 7 := by
  refine ⟨fullMemberMachine.afterLog [(7, seventeenthRange)], fullMemberMachine_reached, ?_⟩
  decide +kernel

end FullMember

section TakenTopic

attribute [local instance] External.plain

def topicMachine : MetaStateMachine :=
  new.afterLog
    [(1, .CreateTopic { env := ⟨1, 0⟩, name := "topic", topicUuid := 10, rootRangeUuid := 11 })]

/-- A topic under an id that is taken. -/
def takenTopic : MetadataCommand := .CreateTopic { env := ⟨2, 0⟩, name := "again", topicUuid := 10, rootRangeUuid := 12 }

theorem takenTopic_refused_atomically : (topicMachine.afterLog [(2, takenTopic)]).records = topicMachine.records := by
  have refused : topicMachine.apply 2 takenTopic
      = .ok (.Rejected .AlreadyExists, topicMachine.afterLog [(2, takenTopic)]) := rfl
  exact (rejection_atomic_iff (Reached.afterLog Reachable.refl _) rfl).mpr id .AlreadyExists _ refused

end TakenTopic

end VtopEngine.Meta
