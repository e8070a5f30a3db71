import VtopEngine.Meta.State.Core

/-! # Consumer-group membership

Groups, their members and the ranges members are assigned.

Two handlers write before their last check.  `assignMemberRanges` writes the
member before it knows that the group's generation can advance, and
`ensureGroupMemberForRange` creates the group and refreshes the heartbeat before
its limits are checked.  What such a refusal leaves behind is the relation
`Spilled` beside the handler.
-/

namespace VtopEngine.Meta

open Lib Command
open Txn (need need_bind need_keeps rejectIf rejectIf_bind rejectIf_keeps wp_bind wp_need wp_read_bind write)

variable {records : Records} {applyIndex : UInt64}

/-! ## Creating, joining and leaving -/

/-- The name is indexed before the group is written. -/
def Records.withNewGroup (records : Records) (name : String) (groupUuid : Uuid) : Records :=
  (records.put (.GroupByName name) (.GroupName { groupUuid })).put (.Group groupUuid) (.Group { name, generation := 0 })

def createConsumerGroup (args : CreateConsumerGroup) : Handler := do
  rejectIf (¬ (validateGroupName args.name).isOk)
    (.limit s!"group name must be 1..={MAX_GROUP_NAME_BYTES} bytes, got {args.name.utf8ByteSize}")
  rejectIf ((← Txn.read (·.record (.Group args.groupUuid))).isSome) .AlreadyExists
  rejectIf ((← Txn.read (·.record (.GroupByName args.name))).isSome) .AlreadyExists
  write (·.withNewGroup args.name args.groupUuid)
  return .GroupCreated args.groupUuid 0

inductive Command.CreateConsumerGroup.Accepted (args : CreateConsumerGroup) (records : Records) :
    MetadataResponse → Records → Prop
  | intro (nonempty : args.name ≠ "") (fits : args.name.utf8ByteSize ≤ MAX_GROUP_NAME_BYTES)
      (groupAbsent : records.record (.Group args.groupUuid) = none)
      (nameAbsent : records.record (.GroupByName args.name) = none) :
      Accepted args records (.GroupCreated args.groupUuid 0) (records.withNewGroup args.name args.groupUuid)

theorem createConsumerGroup_spec (args) : (createConsumerGroup args).Meets args.Accepted records := by
  refine rejectIf_keeps fun named => ?_
  obtain ⟨nonempty, fits⟩ := validateName_isOk.mp (not_not.mp named)
  refine wp_read_bind (rejectIf_keeps fun groupAbsent => ?_)
  refine wp_read_bind (rejectIf_keeps fun nameAbsent => ?_)
  exact .intro nonempty fits (Option.not_isSome_iff_eq_none.mp groupAbsent) (Option.not_isSome_iff_eq_none.mp nameAbsent)

def joinConsumerGroup (applyIndex : UInt64) (args : JoinConsumerGroup) : Handler := do
  let group ← need (·.group? args.groupUuid) .NotFound
  rejectIf (group.generation ≠ args.expectedGroupGeneration)
    (.GenerationMismatch args.expectedGroupGeneration group.generation)
  rejectIf ((← Txn.read (·.record (.GroupMember args.groupUuid args.memberUuid))).isSome) .AlreadyExists
  let nextGroupGeneration ← need (fun _ => checkedSucc group.generation) (.limit "group generation space is exhausted")
  write (·.put (.GroupMember args.groupUuid args.memberUuid) (.GroupMember
    { generation := 0, lastHeartbeatApplyIndex := applyIndex, assigned := [] }))
  write (·.put (.Group args.groupUuid) (.Group { group with generation := nextGroupGeneration }))
  return .MemberJoined 0 nextGroupGeneration

inductive Command.JoinConsumerGroup.Accepted (args : JoinConsumerGroup) (applyIndex : UInt64) (records : Records) :
    MetadataResponse → Records → Prop
  | intro
      (found : records.group? args.groupUuid = some group)
      (current : group.generation = args.expectedGroupGeneration)
      (absent : records.record (.GroupMember args.groupUuid args.memberUuid) = none)
      (next : checkedSucc group.generation = some nextGroupGeneration) :
      Accepted args applyIndex records (.MemberJoined 0 nextGroupGeneration)
        ((records.put (.GroupMember args.groupUuid args.memberUuid) (.GroupMember
            { generation := 0, lastHeartbeatApplyIndex := applyIndex, assigned := [] })).put
          (.Group args.groupUuid) (.Group { group with generation := nextGroupGeneration }))

theorem joinConsumerGroup_spec (args) : (joinConsumerGroup applyIndex args).Meets (args.Accepted applyIndex) records := by
  refine need_keeps fun group found => rejectIf_keeps fun current => ?_
  refine wp_read_bind (rejectIf_keeps fun absent => need_keeps fun _ next => ?_)
  exact .intro found (not_not.mp current) (Option.not_isSome_iff_eq_none.mp absent) next

/-- Drop a member and move the group on. -/
def Records.withoutMember (records : Records) (groupUuid memberUuid : Uuid) (group : ConsumerGroupRecord)
    (nextGroupGeneration : UInt64) : Records :=
  (records.remove (.GroupMember groupUuid memberUuid)).put (.Group groupUuid)
    (.Group { group with generation := nextGroupGeneration })

def leaveConsumerGroup (args : LeaveConsumerGroup) : Handler := do
  let group ← need (·.group? args.groupUuid) .NotFound
  let nextGroupGeneration ← need (fun _ => checkedSucc group.generation) (.limit "group generation space is exhausted")
  let member ← need (·.member? args.groupUuid args.memberUuid) .NotFound
  rejectIf (member.generation ≠ args.expectedMemberGeneration)
    (.GenerationMismatch args.expectedMemberGeneration member.generation)
  write (·.withoutMember args.groupUuid args.memberUuid group nextGroupGeneration)
  return .Ack nextGroupGeneration

inductive Command.LeaveConsumerGroup.Accepted (args : LeaveConsumerGroup) (records : Records) :
    MetadataResponse → Records → Prop
  | intro
      (found : records.group? args.groupUuid = some group)
      (next : checkedSucc group.generation = some nextGroupGeneration)
      (joined : records.member? args.groupUuid args.memberUuid = some member)
      (current : member.generation = args.expectedMemberGeneration) :
      Accepted args records (.Ack nextGroupGeneration)
        (records.withoutMember args.groupUuid args.memberUuid group nextGroupGeneration)

theorem leaveConsumerGroup_spec (args) : (leaveConsumerGroup args).Meets args.Accepted records := by
  refine need_keeps fun group found => need_keeps fun _ next => ?_
  refine need_keeps fun member joined => rejectIf_keeps fun current => ?_
  exact .intro found next joined (not_not.mp current)

def heartbeatMember (applyIndex : UInt64) (args : HeartbeatMember) : Handler := do
  let _ ← need (·.group? args.groupUuid) .NotFound
  let member ← need (·.member? args.groupUuid args.memberUuid) .NotFound
  rejectIf (applyIndex < member.lastHeartbeatApplyIndex)
    (.invalidTransition "heartbeat apply index would rewind member liveness")
  write (·.put (.GroupMember args.groupUuid args.memberUuid) (.GroupMember
    { member with lastHeartbeatApplyIndex := applyIndex }))
  return .Ack member.generation

inductive Command.HeartbeatMember.Accepted (args : HeartbeatMember) (applyIndex : UInt64) (records : Records) :
    MetadataResponse → Records → Prop
  | intro
      (found : records.group? args.groupUuid = some group)
      (joined : records.member? args.groupUuid args.memberUuid = some member)
      (forward : member.lastHeartbeatApplyIndex ≤ applyIndex) :
      Accepted args applyIndex records (.Ack member.generation)
        (records.put (.GroupMember args.groupUuid args.memberUuid) (.GroupMember
          { member with lastHeartbeatApplyIndex := applyIndex }))

theorem heartbeatMember_spec (args) : (heartbeatMember applyIndex args).Meets (args.Accepted applyIndex) records := by
  refine need_keeps fun group found => need_keeps fun member joined => ?_
  exact rejectIf_keeps fun forward => .intro found joined (UInt64.not_lt.mp forward)

def expireStaleMember (args : ExpireStaleMember) : Handler := do
  let group ← need (·.group? args.groupUuid) .NotFound
  let nextGroupGeneration ← need (fun _ => checkedSucc group.generation) (.limit "group generation space is exhausted")
  let member ← need (·.member? args.groupUuid args.memberUuid) .NotFound
  rejectIf (member.lastHeartbeatApplyIndex ≥ args.staleBeforeApplyIndex)
    (.invalidTransition "member heartbeat is still within the live window")
  write (·.withoutMember args.groupUuid args.memberUuid group nextGroupGeneration)
  return .Ack nextGroupGeneration

inductive Command.ExpireStaleMember.Accepted (args : ExpireStaleMember) (records : Records) :
    MetadataResponse → Records → Prop
  | intro
      (found : records.group? args.groupUuid = some group)
      (next : checkedSucc group.generation = some nextGroupGeneration)
      (joined : records.member? args.groupUuid args.memberUuid = some member)
      (stale : member.lastHeartbeatApplyIndex < args.staleBeforeApplyIndex) :
      Accepted args records (.Ack nextGroupGeneration)
        (records.withoutMember args.groupUuid args.memberUuid group nextGroupGeneration)

theorem expireStaleMember_spec (args) : (expireStaleMember args).Meets args.Accepted records := by
  refine need_keeps fun group found => need_keeps fun _ next => ?_
  refine need_keeps fun member joined => rejectIf_keeps fun stale => ?_
  exact .intro found next joined (UInt64.not_le.mp stale)

/-! ## Assignments -/

/-- The loop over the named ranges: each must exist, and no pair may repeat. -/
def Records.assignmentRefusal (records : Records) : List RangeAssignment → List RangeAssignment → Option MetadataError
  | [], _ => none
  | assignment :: rest, seen =>
    if (records.range? assignment.topicUuid assignment.rangeUuid).isNone then
      some .NotFound
    else if assignment ∈ seen then
      some (.invalidTransition "assigned ranges contain a duplicate topic/range pair")
    else
      records.assignmentRefusal rest (assignment :: seen)

/-- The entry is another member of the group that holds one of the ranges. -/
def heldByOther (groupUuid memberUuid : Uuid) (ranges : List RangeAssignment) (entry : Bytes × MetaValue) : Bool :=
  match MetaKey.decode entry.1, entry.2 with
  | .ok (.GroupMember otherGroup otherMember), .GroupMember other =>
    otherGroup = groupUuid && otherMember ≠ memberUuid && ranges.any fun assignment => assignment ∈ other.assigned
  | _, _ => false

/-- A range belongs to at most one live member of a group. -/
def Records.assignedElsewhere (records : Records) (groupUuid memberUuid : Uuid) (ranges : List RangeAssignment) : Bool :=
  records.entries.any (heldByOther groupUuid memberUuid ranges)

def assignMemberRanges (args : AssignMemberRanges) : Handler := do
  rejectIf (args.ranges.length > MAX_ASSIGNED_RANGES)
    (.limit s!"assigned ranges must be <= {MAX_ASSIGNED_RANGES}, got {args.ranges.length}")
  Txn.rejectSome (← Txn.read (·.assignmentRefusal args.ranges []))
  rejectIf (← Txn.read (·.assignedElsewhere args.groupUuid args.memberUuid args.ranges))
    (.invalidTransition "range is already assigned to another group member")
  let group ← need (·.group? args.groupUuid) .NotFound
  let member ← need (·.member? args.groupUuid args.memberUuid) .NotFound
  rejectIf (member.generation ≠ args.expectedMemberGeneration)
    (.GenerationMismatch args.expectedMemberGeneration member.generation)
  let nextMemberGeneration ← need (fun _ => checkedSucc member.generation) (.limit "member generation space is exhausted")
  write (·.put (.GroupMember args.groupUuid args.memberUuid) (.GroupMember
    { member with assigned := args.ranges, generation := nextMemberGeneration }))
  -- The member is written by now: a refusal from here on does not take it back.
  let nextGroupGeneration ← need (fun _ => checkedSucc group.generation) (.limit "group generation space is exhausted")
  write (·.put (.Group args.groupUuid) (.Group { group with generation := nextGroupGeneration }))
  return .Ack nextMemberGeneration

/-- Every check of an assignment that comes before its first write. -/
structure Command.AssignMemberRanges.Passes (args : AssignMemberRanges) (records : Records)
    (group : ConsumerGroupRecord) (member : GroupMemberRecord) (nextMemberGeneration : UInt64) : Prop where
  bounded : args.ranges.length ≤ MAX_ASSIGNED_RANGES
  ranges : records.assignmentRefusal args.ranges [] = none
  exclusive : records.assignedElsewhere args.groupUuid args.memberUuid args.ranges = false
  found : records.group? args.groupUuid = some group
  joined : records.member? args.groupUuid args.memberUuid = some member
  current : member.generation = args.expectedMemberGeneration
  next : checkedSucc member.generation = some nextMemberGeneration

inductive Command.AssignMemberRanges.Accepted (args : AssignMemberRanges) (records : Records) :
    MetadataResponse → Records → Prop
  | intro
      (passes : args.Passes records group member nextMemberGeneration)
      (nextGroup : checkedSucc group.generation = some nextGroupGeneration) :
      Accepted args records (.Ack nextMemberGeneration)
        ((records.put (.GroupMember args.groupUuid args.memberUuid) (.GroupMember
            { member with assigned := args.ranges, generation := nextMemberGeneration })).put
          (.Group args.groupUuid) (.Group { group with generation := nextGroupGeneration }))

inductive Command.AssignMemberRanges.Spilled (args : AssignMemberRanges) (records : Records) :
    MetadataError → Records → Prop
  | groupExhausted
      (passes : args.Passes records group member nextMemberGeneration)
      (exhausted : checkedSucc group.generation = none) :
      Spilled args records (.limit "group generation space is exhausted")
        (records.put (.GroupMember args.groupUuid args.memberUuid) (.GroupMember
          { member with assigned := args.ranges, generation := nextMemberGeneration }))

theorem assignMemberRanges_spec (args) :
    (assignMemberRanges args).wp (args.Accepted records) (CleanOr records (args.Spilled records)) records := by
  refine rejectIf_bind (fun _ => cleanOr_rejected) fun bounded => wp_read_bind ?_
  refine wp_bind.mpr (Txn.wp_rejectSome (fun ranges => ?_) fun _ _ => cleanOr_rejected)
  refine wp_read_bind (rejectIf_bind (fun _ => cleanOr_rejected) fun exclusive => ?_)
  refine need_bind cleanOr_rejected fun group found => need_bind cleanOr_rejected fun member joined => ?_
  refine rejectIf_bind (fun _ => cleanOr_rejected) fun current => need_bind cleanOr_rejected fun _ next => ?_
  have passes : args.Passes records group member _ :=
    ⟨Nat.le_of_not_lt bounded, ranges, Bool.not_eq_true _ |>.mp exclusive, found, joined, not_not.mp current, next⟩
  refine Txn.wp_write_bind (wp_bind.mpr (wp_need (fun _ nextGroup => ?_) fun exhausted => ?_))
  · exact .intro passes nextGroup
  · exact cleanOr_spilled (.groupExhausted passes exhausted)

/-! ## The membership a gateway needs -/

/-- What the two commands that ensure a membership ask for. -/
structure EnsureMember where
  name : String
  (groupUuid memberUuid topicUuid rangeUuid : Uuid)
  deriving DecidableEq

namespace EnsureMember

def assignment (args : EnsureMember) : RangeAssignment := { topicUuid := args.topicUuid, rangeUuid := args.rangeUuid }

/-- The records with the group in them, made if it was not there. -/
def grouped (args : EnsureMember) (records : Records) : Records :=
  if (records.group? args.groupUuid).isNone then records.withNewGroup args.name args.groupUuid else records

end EnsureMember

def GroupMemberRecord.heartbeatAt (member : GroupMemberRecord) (applyIndex : UInt64) : GroupMemberRecord :=
  { member with lastHeartbeatApplyIndex := applyIndex }

/-- Give the member the range; the answer is whether its assignment changed. -/
def ensureAssignment (applyIndex : UInt64) (args : EnsureMember) : Txn Records MetadataError Bool := do
  match ← Txn.read (·.member? args.groupUuid args.memberUuid) with
  | some member =>
    write (·.put (.GroupMember args.groupUuid args.memberUuid) (.GroupMember (member.heartbeatAt applyIndex)))
    if args.assignment ∈ member.assigned then
      return false
    else
      rejectIf (member.assigned.length ≥ MAX_ASSIGNED_RANGES) (.limit s!"assigned ranges must be <= {MAX_ASSIGNED_RANGES}")
      let next ← need (fun _ => checkedSucc member.generation) (.limit "member generation space is exhausted")
      write (·.put (.GroupMember args.groupUuid args.memberUuid) (.GroupMember
        { member.heartbeatAt applyIndex with assigned := member.assigned ++ [args.assignment], generation := next }))
      return true
  | none =>
    write (·.put (.GroupMember args.groupUuid args.memberUuid) (.GroupMember
      { generation := 0, lastHeartbeatApplyIndex := applyIndex, assigned := [args.assignment] }))
    return true

def ensureGroupMemberForRange (applyIndex : UInt64) (args : EnsureMember) : Handler := do
  rejectIf (¬ (validateGroupName args.name).isOk)
    (.limit s!"group name must be 1..={MAX_GROUP_NAME_BYTES} bytes, got {args.name.utf8ByteSize}")
  let _ ← need (·.range? args.topicUuid args.rangeUuid) .NotFound
  rejectIf ((← Txn.read (·.groupName? args.name)).any (·.groupUuid ≠ args.groupUuid)) .AlreadyExists
  write args.grouped
  rejectIf (← Txn.read (·.assignedElsewhere args.groupUuid args.memberUuid [args.assignment]))
    (.invalidTransition "range is already assigned to another group member")
  let changed ← ensureAssignment applyIndex args
  match ← Txn.read (·.group? args.groupUuid) with
  | none => Txn.unreachable "the group record was made or found above"
  | some group =>
    if changed then
      let next ← need (fun _ => checkedSucc group.generation) (.limit "group generation space is exhausted")
      write (·.put (.Group args.groupUuid) (.Group { group with generation := next }))
      return .Ack next
    else
      return .Ack group.generation

namespace EnsureMember

/-- The checks that come before the first write. -/
structure Admits (args : EnsureMember) (records : Records) : Prop where
  nonempty : args.name ≠ ""
  fits : args.name.utf8ByteSize ≤ MAX_GROUP_NAME_BYTES
  range : records.range? args.topicUuid args.rangeUuid ≠ none
  named : ∀ record, records.groupName? args.name = some record → record.groupUuid = args.groupUuid

/-- The member as the command leaves it when its assignment changes: extended by
    the range, or new. -/
inductive Grows (args : EnsureMember) (applyIndex : UInt64) (records : Records) : GroupMemberRecord → Prop
  | extended
      (joined : records.member? args.groupUuid args.memberUuid = some member)
      (lacks : args.assignment ∉ member.assigned) (room : member.assigned.length < MAX_ASSIGNED_RANGES)
      (advances : checkedSucc member.generation = some next) :
      Grows args applyIndex records
        { member.heartbeatAt applyIndex with assigned := member.assigned ++ [args.assignment], generation := next }
  | joined (absent : records.member? args.groupUuid args.memberUuid = none) :
      Grows args applyIndex records
        { generation := 0, lastHeartbeatApplyIndex := applyIndex, assigned := [args.assignment] }

inductive Accepted (args : EnsureMember) (applyIndex : UInt64) (records : Records) :
    MetadataResponse → Records → Prop
  | held (admits : args.Admits records)
      (exclusive : (args.grouped records).assignedElsewhere args.groupUuid args.memberUuid [args.assignment] = false)
      (joined : records.member? args.groupUuid args.memberUuid = some member)
      (holds : args.assignment ∈ member.assigned) (found : (args.grouped records).group? args.groupUuid = some group) :
      Accepted args applyIndex records (.Ack group.generation)
        ((args.grouped records).put (.GroupMember args.groupUuid args.memberUuid)
          (.GroupMember (member.heartbeatAt applyIndex)))
  | grown (admits : args.Admits records)
      (exclusive : (args.grouped records).assignedElsewhere args.groupUuid args.memberUuid [args.assignment] = false)
      (grows : args.Grows applyIndex records member)
      (found : (args.grouped records).group? args.groupUuid = some group)
      (advances : checkedSucc group.generation = some next) :
      Accepted args applyIndex records (.Ack next)
        (((args.grouped records).put (.GroupMember args.groupUuid args.memberUuid) (.GroupMember member)).put
          (.Group args.groupUuid) (.Group { group with generation := next }))

/-- What a refusal after the first write leaves behind. -/
inductive Spilled (args : EnsureMember) (applyIndex : UInt64) (records : Records) : MetadataError → Records → Prop
  | elsewhere (admits : args.Admits records)
      (taken : (args.grouped records).assignedElsewhere args.groupUuid args.memberUuid [args.assignment] = true) :
      Spilled args applyIndex records error (args.grouped records)
  | heartbeat (admits : args.Admits records)
      (exclusive : (args.grouped records).assignedElsewhere args.groupUuid args.memberUuid [args.assignment] = false)
      (joined : records.member? args.groupUuid args.memberUuid = some member)
      (lacks : args.assignment ∉ member.assigned)
      (stuck : MAX_ASSIGNED_RANGES ≤ member.assigned.length ∨ checkedSucc member.generation = none) :
      Spilled args applyIndex records error ((args.grouped records).put (.GroupMember args.groupUuid args.memberUuid)
          (.GroupMember (member.heartbeatAt applyIndex)))
  | groupExhausted
      (admits : args.Admits records)
      (exclusive : (args.grouped records).assignedElsewhere args.groupUuid args.memberUuid [args.assignment] = false)
      (grows : args.Grows applyIndex records member)
      (found : (args.grouped records).group? args.groupUuid = some group)
      (exhausted : checkedSucc group.generation = none) :
      Spilled args applyIndex records error
        ((args.grouped records).put (.GroupMember args.groupUuid args.memberUuid) (.GroupMember member))

variable {args : EnsureMember}

theorem Admits.nameFits (admits : args.Admits records) : (MetaKey.GroupByName args.name).NameFits :=
  ⟨admits.nonempty, admits.fits⟩

theorem Accepted.admits (accepts : args.Accepted applyIndex records response after) : args.Admits records := by
  cases accepts <;> assumption

theorem Spilled.admits (spills : args.Spilled applyIndex records error after) : args.Admits records := by
  cases spills <;> assumption

theorem group?_grouped (args : EnsureMember) (records) : (args.grouped records).group? args.groupUuid ≠ none := by
  unfold grouped
  split
  · simp [Records.withNewGroup]
  · next present => simpa using present

@[simp] theorem member?_grouped (args : EnsureMember) (records group member) :
    (args.grouped records).member? group member = records.member? group member := by
  unfold grouped
  split <;> simp [Records.withNewGroup]

/-- How the member part of the command ends, from the records with the group in them. -/
def Assigned (args : EnsureMember) (applyIndex : UInt64) (records : Records) (changed : Bool) (reached : Records) : Prop :=
  ∃ member, reached = (args.grouped records).put (.GroupMember args.groupUuid args.memberUuid) (.GroupMember member)
    ∧ match changed with
      | true => args.Grows applyIndex records member
      | false => ∃ before, records.member? args.groupUuid args.memberUuid = some before
          ∧ args.assignment ∈ before.assigned ∧ member = before.heartbeatAt applyIndex

theorem ensureAssignment_spec (admits : args.Admits records)
    (exclusive : (args.grouped records).assignedElsewhere args.groupUuid args.memberUuid [args.assignment] = false) :
    (ensureAssignment applyIndex args).wp (args.Assigned applyIndex records)
      (CleanOr records (args.Spilled applyIndex records)) (args.grouped records) := by
  refine wp_read_bind ?_
  rw [member?_grouped]
  split
  · next member joined =>
    refine Txn.wp_write_bind ?_
    split
    · next holds => exact ⟨_, rfl, member, joined, holds, rfl⟩
    · next lacks =>
      refine rejectIf_bind (fun full => cleanOr_spilled (.heartbeat admits exclusive joined lacks (.inl full))) fun room => ?_
      refine wp_bind.mpr (wp_need (fun next advances => ?_) fun stuck => ?_)
      · exact ⟨_, Records.put_put .., .extended joined lacks (Nat.lt_of_not_le room) advances⟩
      · exact cleanOr_spilled (.heartbeat admits exclusive joined lacks (.inr stuck))
  · next absent => exact ⟨_, rfl, .joined absent⟩

end EnsureMember

theorem ensureGroupMemberForRange_spec (args) :
    (ensureGroupMemberForRange applyIndex args).wp (args.Accepted applyIndex records)
      (CleanOr records (args.Spilled applyIndex records)) records := by
  refine rejectIf_bind (fun _ => cleanOr_rejected) fun valid => ?_
  obtain ⟨nonempty, fits⟩ := validateName_isOk.mp (not_not.mp valid)
  refine need_bind cleanOr_rejected fun range ranged => wp_read_bind ?_
  refine rejectIf_bind (fun _ => cleanOr_rejected) fun named => Txn.wp_write_bind (wp_read_bind ?_)
  have admits : args.Admits records := by
    refine ⟨nonempty, fits, by simp [ranged], fun record found => ?_⟩
    simpa [found] using named
  refine rejectIf_bind (fun taken => cleanOr_spilled (.elsewhere admits taken)) fun exclusive => ?_
  have exclusive := Bool.not_eq_true _ |>.mp exclusive
  refine wp_bind.mpr (Txn.wp_mono (EnsureMember.ensureAssignment_spec admits exclusive) ?_ fun _ _ exits => exits)
  rintro changed _ ⟨member, rfl, outcome⟩
  refine wp_read_bind ?_
  simp only [Records.group?_put, reduceCtorEq, if_false]
  split
  · next missing => exact absurd missing (args.group?_grouped records)
  · next group found =>
    cases changed with
    | true =>
      refine wp_bind.mpr (wp_need (fun next advances => ?_) fun exhausted => ?_)
      · exact .grown admits exclusive outcome found advances
      · exact cleanOr_spilled (.groupExhausted admits exclusive outcome found exhausted)
    | false =>
      obtain ⟨before, joined, holds, rfl⟩ := outcome
      exact .held admits exclusive joined holds found

end VtopEngine.Meta
