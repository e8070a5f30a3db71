import Mathlib.Data.Set.Card
import VtopEngine.Lib.Holdings
import VtopEngine.Meta.CursorDiscipline
import VtopEngine.Meta.Dedup

/-! # Who consumes what, and under which name

* `MetadataCommand.Effect.holdingsChange` — what a command may do to the ranges the
  members of a group hold; the holdings stay exclusive.
* `Records.GroupMove`, `Records.TopicMove` — what it may do to groups, topics and the
  indexes of their names.
* `ownership_and_names` — so ranges are held by one member, a group's name leads to it,
  and a topic's name leads to the latest topic, while its epochs fit 64 bits.
-/

namespace VtopEngine.Meta

open Lib MetaKey MetaStateMachine Records Option UInt64

/-! ## Assignments -/

/-- The assigned range is there. -/
def Records.Assignable (records : Records) (assignment : RangeAssignment) : Prop :=
  records.range? assignment.topicUuid assignment.rangeUuid ≠ none

namespace Records

variable (records : Records) (group member group' member' : Uuid)

@[simp] theorem assignments_put_member (record) :
    (records.put (.GroupMember group' member') (.GroupMember record)).assignments group member
      = if group' = group ∧ member' = member then record.assigned else records.assignments group member := by
  simp only [assignments, member?_put, GroupMember.injEq, MetaValue.asGroupMember]
  split <;> rfl

@[simp] theorem assignments_put_group (value) :
    (records.put (.Group group') value).assignments group member = records.assignments group member := by
  simp only [assignments, member?_put, reduceCtorEq, if_false]

@[simp] theorem assignments_grouped (args : EnsureMember) :
    (args.grouped records).assignments group member = records.assignments group member := by
  simp only [assignments, EnsureMember.member?_grouped]

@[simp] theorem assignments_withoutMember (record generation) :
    (records.withoutMember group' member' record generation).assignments group member
      = if group' = group ∧ member' = member then [] else records.assignments group member := by
  simp only [assignments, withoutMember, member?_put, member?_remove, GroupMember.injEq, reduceCtorEq, if_false]
  split <;> rfl

variable {records group member group' member'}

theorem assignments_of_member {record} (joined : records.member? group member = some record) :
    records.assignments group member = record.assigned := by
  simp [assignments, joined]

/-- A scan that finds no other holder has seen every member of the group. -/
theorem free_of_assignedElsewhere
    (exclusive : records.assignedElsewhere group member ranges = false) (different : other ≠ member)
    (claimed : assignment ∈ ranges) : assignment ∉ records.assignments group other := by
  intro held
  cases joined : records.member? group other with
  | none => simp [assignments, joined] at held
  | some record =>
    rw [assignments_of_member joined] at held
    obtain ⟨value, stored, seen⟩ := bind_eq_some_iff.mp joined
    cases value <;> simp only [MetaValue.asGroupMember, reduceCtorEq, some.injEq] at seen
    case GroupMember found =>
      obtain rfl := seen
      have listed : ((GroupMember group other).encode, MetaValue.GroupMember found) ∈ records.entries :=
        mem_entries.mpr stored
      have reads : decode (GroupMember group other).encode = .ok (.GroupMember group other) := decode_encode trivial
      have passed := List.any_eq_false.mp exclusive _ listed
      simp only [heldByOther, reads, different, decide_true, ne_eq, not_false_eq_true, Bool.true_and, List.any_eq_true,
        decide_eq_true_eq, not_exists, not_and] at passed
      exact passed assignment claimed held

/-- The loop over the ranges passes if each is there and none repeats. -/
theorem assignmentRefusal_eq_none (passes : records.assignmentRefusal ranges seen = none) :
    ranges.Nodup ∧ ∀ assignment ∈ ranges, records.Assignable assignment ∧ assignment ∉ seen := by
  induction ranges generalizing seen with
  | nil => simp
  | cons first rest ih =>
    unfold assignmentRefusal at passes
    split at passes
    · cases passes
    · next present =>
      split at passes
      · cases passes
      · next new =>
        obtain ⟨distinct, each⟩ := ih passes
        refine ⟨List.nodup_cons.mpr ⟨fun again => (each first again).2 List.mem_cons_self, distinct⟩, ?_⟩
        rintro assignment (_ | ⟨_, later⟩)
        · exact ⟨fun absent => present (by simp [absent]), new⟩
        · exact ⟨(each assignment later).1, fun before => (each assignment later).2 (List.mem_cons_of_mem _ before)⟩

/-- What every group's members hold changes as holdings may. -/
def HoldingsChange (before after : Records) : Prop :=
  ∀ group, Change MAX_ASSIGNED_RANGES before.Assignable (before.assignments group) (after.assignments group)

end Records

variable {before after : Records} {args : EnsureMember} {applyIndex : UInt64}

section Holdings

variable {group member : Uuid}

/-- Nobody's assignments change but the one member's, who lets go of everything or keeps what it had. -/
theorem change_of_release (assignments : ∀ group' member', after.assignments group' member'
      = if group = group' ∧ member = member' then assigned else before.assignments group' member')
    (released : Released (before.assignments group member) assigned) : before.HoldingsChange after := by
  refine fun group' => .release fun member' => ?_
  rw [assignments]
  split
  · next here =>
    obtain ⟨rfl, rfl⟩ := here
    exact released
  · exact .inl rfl

/-- The one member claims `added`. -/
theorem change_of_claim (assignments : ∀ group' member', after.assignments group' member'
      = if group = group' ∧ member = member' then kept ++ added else before.assignments group' member')
    (released : Released (before.assignments group member) kept) (distinct : added.Nodup)
    (fresh : ∀ assignment ∈ added, assignment ∉ kept)
    (free : ∀ other, other ≠ member → ∀ assignment ∈ added, assignment ∉ before.assignments group other)
    (admissible : ∀ assignment ∈ added, before.Assignable assignment)
    (fits : (kept ++ added).length ≤ MAX_ASSIGNED_RANGES) : before.HoldingsChange after := by
  intro group'
  by_cases here : group = group'
  · subst here
    have others {other : Uuid} (different : other ≠ member) :
        after.assignments group other = before.assignments group other := by
      rw [assignments, if_neg fun same => different same.2.symm]
    have claims : Claim MAX_ASSIGNED_RANGES before.Assignable (before.assignments group) (after.assignments group)
        member kept added :=
      { released, distinct, fresh, free, admissible, fits
        here := by simp [assignments]
        others := fun _ different => .inl (others different) }
    exact .claim claims
  · refine .release fun member' => .inl ?_
    rw [assignments, if_neg fun same => here same.1]

namespace EnsureMember

/-- The ensured range joins what the member has, or is the first of a new member. -/
theorem Grows.change {record} (grows : args.Grows applyIndex before record) (admits : args.Admits before)
    (exclusive : (args.grouped before).assignedElsewhere args.groupUuid args.memberUuid [args.assignment] = false)
    (assignments : ∀ group member, after.assignments group member
      = if args.groupUuid = group ∧ args.memberUuid = member then record.assigned else before.assignments group member) :
    before.HoldingsChange after := by
  have free (other : Uuid) (different : other ≠ args.memberUuid) :
      ∀ assignment ∈ [args.assignment], assignment ∉ before.assignments args.groupUuid other := by
    intro assignment claimed
    simpa using free_of_assignedElsewhere exclusive different claimed
  have admissible : ∀ assignment ∈ [args.assignment], before.Assignable assignment := by
    rintro assignment (_ | ⟨_, ⟨⟩⟩)
    exact admits.range
  cases grows with
  | extended joined lacks room =>
    refine change_of_claim assignments (.inl (assignments_of_member joined).symm) (List.nodup_singleton _) ?_
      free admissible ?_
    · rintro assignment (_ | ⟨_, ⟨⟩⟩)
      exact lacks
    · rw [List.length_append]
      exact room
  | joined absent =>
    refine change_of_claim assignments (.inr rfl) (List.nodup_singleton _) (fun _ _ => List.not_mem_nil)
      free admissible (by simp [MAX_ASSIGNED_RANGES])

theorem Accepted.holdingsChange (accepts : args.Accepted applyIndex before response after) :
    before.HoldingsChange after := by
  cases accepts with
  | held _ _ joined =>
    refine change_of_release (fun _ _ => by rw [assignments_put_member, assignments_grouped]) (.inl ?_)
    exact (assignments_of_member joined).symm
  | grown admits exclusive grows => exact grows.change admits exclusive fun _ _ => by simp

theorem Spilled.holdingsChange (spills : args.Spilled applyIndex before error after) : before.HoldingsChange after := by
  cases spills with
  | elsewhere => exact fun group => .release fun member => .inl (by simp)
  | heartbeat _ _ joined =>
    refine change_of_release (fun _ _ => by rw [assignments_put_member, assignments_grouped]) (.inl ?_)
    exact (assignments_of_member joined).symm
  | groupExhausted admits exclusive grows => exact grows.change admits exclusive fun _ _ => by simp

end EnsureMember

/-- An assignment replaces what the member had. -/
theorem Command.AssignMemberRanges.Passes.change {args : AssignMemberRanges} {record held generation}
    (passes : args.Passes before record held generation)
    (assignments : ∀ group member, after.assignments group member
      = if args.groupUuid = group ∧ args.memberUuid = member then args.ranges else before.assignments group member) :
    before.HoldingsChange after := by
  obtain ⟨distinct, each⟩ := assignmentRefusal_eq_none passes.ranges
  refine change_of_claim assignments (.inr rfl) distinct (fun _ _ => List.not_mem_nil)
    (fun other different assignment claimed => ?_) (fun assignment claimed => (each assignment claimed).1) passes.bounded
  exact free_of_assignedElsewhere passes.exclusive different claimed

end Holdings

variable {command : MetadataCommand} {response : MetadataResponse}

section Effect

variable [External]

theorem MetadataCommand.Accepted.holdingsChange (accepts : command.Accepted applyIndex before response after) :
    before.HoldingsChange after := by
  by_cases writes : command.writes 11 = true
  · cases command <;> simp [MetadataCommand.writes] at writes
    case JoinConsumerGroup args =>
      cases accepts with
      | intro => exact change_of_release (fun _ _ => (assignments_put_group ..).trans (assignments_put_member ..)) (.inr rfl)
    case LeaveConsumerGroup args | ExpireStaleMember args =>
      cases accepts with
      | intro => exact change_of_release (fun _ _ => assignments_withoutMember ..) (.inr rfl)
    case HeartbeatMember args =>
      cases accepts with
      | intro _ joined =>
        refine change_of_release (fun _ _ => assignments_put_member ..) (.inl ?_)
        exact (assignments_of_member joined).symm
    case AssignMemberRanges args =>
      cases accepts with
      | intro passes => exact passes.change fun _ _ => by simp
    case EnsureGroupMemberForRange args | EnsureGroupMemberCoordinated args => exact accepts.2.holdingsChange
  · have effect : command.Effect applyIndex before response after := .accepted accepts
    have untouched (group member : Uuid) : command.writes (MetaKey.GroupMember group member).category = false :=
      Bool.not_eq_true _ |>.mp writes
    refine fun group => .release fun member => .inl ?_
    have same : after.member? group member = before.member? group member := effect.lookup_eq (untouched group member)
    rw [assignments, same, assignments]

theorem MetadataCommand.Effect.holdingsChange (effect : command.Effect applyIndex before response after) :
    before.HoldingsChange after := by
  cases effect with
  | accepted accepts => exact accepts.holdingsChange
  | refused => exact fun _ => .release fun _ => .inl rfl
  | spilled spills =>
    cases command with
    | AssignMemberRanges args =>
      cases spills with
      | groupExhausted passes => exact passes.change fun _ _ => by simp
    | EnsureGroupMemberForRange args | EnsureGroupMemberCoordinated args => exact spills.2.holdingsChange
    | _ => exact spills.elim

theorem MetaStateMachine.Reached.holdings {machine : MetaStateMachine} (reached : machine.Reached) (group) :
    Held MAX_ASSIGNED_RANGES machine.records.Assignable (machine.records.assignments group) := by
  refine reached.records_invariant
    (fun records => Held MAX_ASSIGNED_RANGES records.Assignable (records.assignments group)) ?_ ?_
  · have nobody : empty.assignments group = fun _ => [] := by
      funext member
      simp [assignments, member?, lookup]
    rw [nobody]
    exact .empty
  · intro machine applyIndex command response after _ held effect
    refine (held.change (effect.holdingsChange group)).mono fun assignment present => ?_
    exact effect.stays rfl (by intro value; cases value <;> simp [keyMatchesValue]) present

end Effect

/-! ## Group names -/

def Records.nameOf (records : Records) (group : Uuid) : Option String := (records.group? group).map (·.name)

/-- What one command does to the groups and the index of their names. -/
inductive Records.GroupMove (before after : Records) : Prop
  | kept (names : ∀ name, after.groupName? name = before.groupName? name)
      (groups : ∀ group, after.nameOf group = before.nameOf group)
  | created (name : String) (group : Uuid) (absent : before.nameOf group = none)
      (free : ∀ record, before.groupName? name = some record → record.groupUuid = group)
      (names : ∀ name', after.groupName? name'
        = if name = name' then some { groupUuid := group } else before.groupName? name')
      (groups : ∀ group', after.nameOf group' = if group = group' then some name else before.nameOf group')

/-- A name leads to a group exactly if that is the group's name. -/
def Records.GroupsIndexed (records : Records) : Prop :=
  ∀ name group, records.groupName? name = some { groupUuid := group } ↔ records.nameOf group = some name

theorem Records.GroupMove.indexed {before after : Records} (move : before.GroupMove after) (indexed : before.GroupsIndexed) :
    after.GroupsIndexed := by
  intro name' group'
  cases move with
  | kept names groups => rw [names, groups, indexed]
  | created name group absent free names groups =>
    rw [names, groups]
    by_cases sameName : name = name' <;> by_cases sameGroup : group = group'
    · simp [sameName, sameGroup]
    · rw [if_pos sameName, if_neg sameGroup, ← indexed]
      subst sameName
      refine ⟨fun same => absurd (congrArg GroupNameRecord.groupUuid (some.inj same)) sameGroup, fun indexedBefore => ?_⟩
      exact absurd (free _ indexedBefore).symm sameGroup
    · -- the group is new, so no other name can have led to it
      subst sameGroup
      rw [if_neg sameName, if_pos rfl, indexed, absent]
      simp [sameName]
    · rw [if_neg sameName, if_neg sameGroup, indexed]

section Groups

theorem Records.GroupMove.withNewGroup (absent : before.group? group = none)
    (free : ∀ record, before.groupName? name = some record → record.groupUuid = group)
    (names : ∀ name', after.groupName? name' = (before.withNewGroup name group).groupName? name')
    (groups : ∀ group', after.nameOf group' = (before.withNewGroup name group).nameOf group') :
    before.GroupMove after := by
  refine .created name group (by simp [nameOf, absent]) free (fun name' => ?_) fun group' => ?_
  · simp [names, Records.withNewGroup]
  · rw [groups, Records.nameOf, Records.withNewGroup]
    by_cases same : group = group' <;> simp [same, Records.nameOf]

/-- A group that moves on keeps its name. -/
theorem Records.nameOf_put_group {records : Records} {record} (found : records.group? group = some record) (group') :
    (records.put (.Group group) (.Group { record with generation })).nameOf group' = records.nameOf group' := by
  simp only [nameOf, group?_put, Group.injEq, MetaValue.asGroup]
  split
  · next same =>
    subst same
    rw [found, map_some, map_some]
  · rfl

@[simp] theorem Records.nameOf_put_member {records : Records} (group') :
    (records.put (.GroupMember group member) value).nameOf group' = records.nameOf group' := by
  simp [nameOf]

theorem EnsureMember.groupMove (admits : args.Admits before)
    (names : ∀ name, after.groupName? name = (args.grouped before).groupName? name)
    (groups : ∀ group, after.nameOf group = (args.grouped before).nameOf group) : before.GroupMove after := by
  unfold grouped at names groups
  split at names
  · next missing =>
    rw [if_pos missing] at groups
    exact .withNewGroup (isNone_iff_eq_none.mp missing) admits.named names groups
  · next present =>
    rw [if_neg present] at groups
    exact .kept names groups

/-- A group that moves on, next to whatever happens to a member. -/
theorem Records.GroupMove.advanced {record} {middle : Records} (found : before.group? group = some record)
    (groups : ∀ group', middle.group? group' = before.group? group')
    (names : ∀ name, middle.groupName? name = before.groupName? name) :
    before.GroupMove (middle.put (.Group group) (.Group { record with generation })) := by
  refine .kept (fun name => by simp [names]) fun group' => ?_
  rw [nameOf_put_group ((groups group).trans found), nameOf, groups, nameOf]

theorem EnsureMember.Accepted.groupMove (accepts : args.Accepted applyIndex before response after) :
    before.GroupMove after := by
  cases accepts with
  | held admits => exact args.groupMove admits (fun _ => by simp) fun _ => nameOf_put_member _
  | grown admits _ _ found =>
    refine args.groupMove admits (fun _ => by simp) fun group => ?_
    rw [nameOf_put_group (by simpa using found), nameOf_put_member]

theorem EnsureMember.Spilled.groupMove (spills : args.Spilled applyIndex before error after) : before.GroupMove after := by
  cases spills with
  | elsewhere admits => exact args.groupMove admits (fun _ => rfl) fun _ => rfl
  | heartbeat admits | groupExhausted admits => exact args.groupMove admits (fun _ => by simp) fun _ => nameOf_put_member _

variable [External]

theorem MetadataCommand.Accepted.groupMove (accepts : command.Accepted applyIndex before response after) :
    before.GroupMove after := by
  by_cases writes : command.writes 9 = true ∨ command.writes 10 = true
  · cases command <;> simp [MetadataCommand.writes] at writes
    case CreateConsumerGroup args =>
      cases accepts with
      | intro _ _ groupAbsent nameAbsent =>
        refine .withNewGroup (lookup_of_absent groupAbsent) (fun record named => ?_) (fun _ => rfl) fun _ => rfl
        cases (lookup_of_absent nameAbsent).symm.trans named
    case JoinConsumerGroup args | LeaveConsumerGroup args | ExpireStaleMember args =>
      cases accepts with
      | intro found => exact .advanced found (fun _ => by simp) fun _ => by simp
    case AssignMemberRanges args =>
      cases accepts with
      | intro passes => exact .advanced passes.found (fun _ => by simp) fun _ => by simp
    case EnsureGroupMemberForRange args | EnsureGroupMemberCoordinated args => exact accepts.2.groupMove
  · obtain ⟨groups, names⟩ := not_or.mp writes
    have effect : command.Effect applyIndex before response after := .accepted accepts
    have groupsSame (group : Uuid) : after.group? group = before.group? group :=
      effect.lookup_eq (Bool.not_eq_true _ |>.mp groups)
    refine .kept (fun name => effect.lookup_eq (Bool.not_eq_true _ |>.mp names)) fun group => ?_
    rw [nameOf, groupsSame, nameOf]

theorem MetadataCommand.Effect.groupMove (effect : command.Effect applyIndex before response after) :
    before.GroupMove after := by
  cases effect with
  | accepted accepts => exact accepts.groupMove
  | refused => exact .kept (fun _ => rfl) fun _ => rfl
  | spilled spills =>
    cases command with
    | AssignMemberRanges args =>
      cases spills with
      | groupExhausted => exact .kept (fun _ => by simp) fun _ => nameOf_put_member _
    | EnsureGroupMemberForRange args | EnsureGroupMemberCoordinated args => exact spills.2.groupMove
    | _ => exact spills.elim

theorem MetaStateMachine.Reached.groupsIndexed {machine : MetaStateMachine} (reached : machine.Reached) :
    machine.records.GroupsIndexed := by
  refine reached.records_invariant GroupsIndexed ?_ fun _ _ _ _ _ _ indexed effect => effect.groupMove.indexed indexed
  intro name group
  simp [groupName?, nameOf, group?, lookup]

end Groups

/-! ## Topic names -/

/-- What one command does to the topics and the index of their names. -/
inductive Records.TopicMove (before after : Records) : Prop
  | kept (names : ∀ name, after.topicName? name = before.topicName? name)
      (topics : ∀ topic, after.topic? topic = before.topic? topic)
  | created (name : String) (topic : Uuid) (absent : before.topic? topic = none)
      (names : ∀ name', after.topicName? name'
        = if name = name' then some { topicUuid := topic, latestEpoch := before.priorEpoch name + 1 }
          else before.topicName? name')
      (topics : ∀ topic', after.topic? topic'
        = if topic = topic' then some { name, topicEpoch := before.priorEpoch name + 1, generation := 0 }
          else before.topic? topic')

/-- The topics of a name in the order of their creation: each was given the number of
    topics up to it as its epoch, counted in 64 bits, and the name leads to the last. -/
structure Records.Numbered (records : Records) (name : String) (created : List Uuid) : Prop where
  distinct : created.Nodup
  listed : ∀ topic, (∃ record, records.topic? topic = some record ∧ record.name = name) ↔ topic ∈ created
  epochs : ∀ index topic record, created[index]? = some topic → records.topic? topic = some record →
    record.topicEpoch = UInt64.ofNat (index + 1)
  latest : records.topicName? name = created.getLast?.map fun topic =>
    { topicUuid := topic, latestEpoch := UInt64.ofNat created.length }

variable {created : List Uuid} {name : String}

section Topics

theorem Records.Numbered.empty : Records.empty.Numbered name [] := by
  refine ⟨List.nodup_nil, fun topic => ?_, fun index topic record at_ => ?_, ?_⟩
  · simp [topic?, lookup]
  · simp at at_
  · simp [topicName?, lookup]

section

variable (numbered : before.Numbered name created)

include numbered

theorem Records.Numbered.priorEpoch : before.priorEpoch name = ofNat created.length := by
  rw [Records.priorEpoch, numbered.latest]
  cases last : created.getLast? with
  | none =>
    rw [List.getLast?_eq_none_iff.mp last]
    rfl
  | some topic => rfl

theorem Records.Numbered.unlisted (absent : before.topic? topic = none) : topic ∉ created := by
  intro member
  obtain ⟨_, found, -⟩ := (numbered.listed topic).mpr member
  cases absent.symm.trans found

/-- A topic that was none becomes the last of its name. -/
theorem Records.Numbered.create (absent : before.topic? topic = none)
    (named : after.topicName? name = some { topicUuid := topic, latestEpoch := before.priorEpoch name + 1 })
    (new : after.topic? topic = some { name, topicEpoch := before.priorEpoch name + 1, generation := 0 })
    (old : ∀ other, topic ≠ other → after.topic? other = before.topic? other) :
    after.Numbered name (created ++ [topic]) := by
  have unlisted := numbered.unlisted absent
  refine ⟨?_, fun other => ?_, fun index other record at_ found => ?_, ?_⟩
  · exact List.nodup_append.mpr ⟨numbered.distinct, List.nodup_singleton _, fun _ listed _ last =>
      List.mem_singleton.mp last ▸ ne_of_mem_of_not_mem listed unlisted⟩
  · by_cases here : topic = other
    · subst here
      simp [new]
    · rw [old other here, numbered.listed]
      simp [Ne.symm here]
  · rcases Nat.lt_trichotomy index created.length with earlier | rfl | beyond
    · rw [List.getElem?_append_left earlier] at at_
      have different : topic ≠ other := fun same => unlisted (same ▸ List.mem_of_getElem? at_)
      exact numbered.epochs index other record at_ ((old other different).symm.trans found)
    · obtain rfl : topic = other := by simpa using at_
      cases new.symm.trans found
      rw [numbered.priorEpoch, ofNat_add]
      rfl
    · rw [List.getElem?_eq_none (by simp; omega)] at at_
      cases at_
  · rw [named, numbered.priorEpoch, List.getLast?_concat, List.length_append, ofNat_add]
    rfl

theorem Records.Numbered.move (move : before.TopicMove after) : ∃ created', after.Numbered name created' := by
  cases move with
  | kept names topics =>
    exact ⟨created, numbered.distinct, fun topic => by rw [topics, numbered.listed],
      fun index topic record at_ found => numbered.epochs index topic record at_ ((topics topic).symm.trans found),
      (names name).trans numbered.latest⟩
  | created name' topic absent names topics =>
    have old (other : Uuid) (different : topic ≠ other) : after.topic? other = before.topic? other := by
      rw [topics, if_neg different]
    have new : after.topic? topic = some { name := name', topicEpoch := before.priorEpoch name' + 1, generation := 0 } := by
      rw [topics, if_pos rfl]
    by_cases same : name' = name
    · subst same
      exact ⟨_, numbered.create absent (by rw [names, if_pos rfl]) new old⟩
    · -- a topic of another name is none of these, old or new
      have unlisted := numbered.unlisted absent
      refine ⟨created, numbered.distinct, fun other => ?_, fun index other record at_ found => ?_, ?_⟩
      · by_cases here : topic = other
        · subst here
          simp [new, same, unlisted]
        · rw [old other here, numbered.listed]
      · have different : topic ≠ other := fun same => unlisted (same ▸ List.mem_of_getElem? at_)
        exact numbered.epochs index other record at_ ((old other different).symm.trans found)
      · rw [names, if_neg same, numbered.latest]

end

variable [External]

theorem MetadataCommand.Effect.topicMove (effect : command.Effect applyIndex before response after) :
    before.TopicMove after := by
  by_cases same : (∀ name, after.topicName? name = before.topicName? name)
      ∧ ∀ topic, after.topic? topic = before.topic? topic
  · exact .kept same.1 same.2
  · have accepts : (command.writes 3 = true ∨ command.writes 4 = true) ∧ command.Accepted applyIndex before response after := by
      rw [not_and_or, not_forall, not_forall] at same
      rcases same with ⟨name, changed⟩ | ⟨topic, changed⟩
      · exact (effect.accepted_of_changed rfl changed).imp .inl id
      · exact (effect.accepted_of_changed rfl changed).imp .inr id
    obtain ⟨writes, accepts⟩ := accepts
    cases command <;> simp [MetadataCommand.writes] at writes
    case CreateTopic args =>
      cases accepts with
      | intro _ _ absent =>
        refine .created args.name args.topicUuid (Records.lookup_of_absent absent) (fun name => ?_) fun topic => ?_
        · simp
        · simp

theorem MetaStateMachine.Reached.numbered {machine : MetaStateMachine} (reached : machine.Reached) (name) :
    ∃ created, machine.records.Numbered name created := by
  refine reached.records_invariant (fun records => ∃ created, records.Numbered name created) ⟨[], .empty⟩ ?_
  rintro machine applyIndex command response after - ⟨created, numbered⟩ effect
  exact numbered.move effect.topicMove

end Topics

/-! ## Reachable states -/

/-- The topics that have been created under a name; none is ever removed. -/
def Records.topicsNamed (records : Records) (name : String) : Set Uuid :=
  { topic | ∃ record, records.topic? topic = some record ∧ record.name = name }

namespace Records.Numbered

variable {records : Records}

section

variable (numbered : records.Numbered name created)

include numbered

theorem ncard : (records.topicsNamed name).ncard = created.length := by
  have listed : records.topicsNamed name = created.toFinset := by
    ext topic
    simp [topicsNamed, numbered.listed]
  rw [listed, Set.ncard_coe_finset, List.toFinset_card_of_nodup numbered.distinct]

/-- Where a topic of the name stands in the order of creation. -/
theorem index {record} (found : records.topic? topic = some record) (named : record.name = name) :
    ∃ index < created.length, created[index]? = some topic ∧ record.topicEpoch = ofNat (index + 1) := by
  obtain ⟨index, at_⟩ := List.mem_iff_getElem?.mp ((numbered.listed topic).mp ⟨record, found, named⟩)
  exact ⟨index, (List.getElem?_eq_some_iff.mp at_).1, at_, numbered.epochs index topic record at_ found⟩

/-- The name leads to the topic created last, at its epoch. -/
theorem current (found : records.topicName? name = some entry) :
    entry.latestEpoch = ofNat created.length ∧ ∃ record, records.topic? entry.topicUuid = some record ∧ record.name = name
        ∧ record.topicEpoch = entry.latestEpoch := by
  obtain ⟨topic, last, rfl⟩ := map_eq_some_iff.mp (numbered.latest.symm.trans found)
  obtain ⟨record, stored, named⟩ := (numbered.listed topic).mpr (List.mem_of_getLast? last)
  rw [List.getLast?_eq_getElem?] at last
  have nonempty : created.length ≠ 0 := by
    intro empty
    simp [List.eq_nil_of_length_eq_zero empty] at last
  refine ⟨rfl, record, stored, named, ?_⟩
  rw [numbered.epochs _ topic record last stored, Nat.sub_add_cancel (Nat.pos_of_ne_zero nonempty)]

end

end Records.Numbered

variable {machine : MetaStateMachine}

section Reached

variable [External]

/-- Members of a group hold ranges exclusively; group names and groups lead to each
    other; and a topic name leads to its latest topic, whose epoch is above those of
    all before it, while fewer than 2^64 topics have had the name. -/
theorem ownership_and_names (reached : machine.Reached) :
    (∀ group member record, machine.records.member? group member = some record →
      record.assigned.Nodup ∧ record.assigned.length ≤ 16
      ∧ (∀ assignment ∈ record.assigned,
        ∃ range, machine.records.range? assignment.topicUuid assignment.rangeUuid = some range)
      ∧ ∀ other record', machine.records.member? group other = some record' → other ≠ member →
        ∀ assignment ∈ record.assigned, assignment ∉ record'.assigned)
    ∧ (∀ name group, machine.records.groupName? name = some { groupUuid := group }
      ↔ ∃ record, machine.records.group? group = some record ∧ record.name = name)
    ∧ (∀ name entry, machine.records.topicName? name = some entry →
      ∃ record, machine.records.topic? entry.topicUuid = some record ∧ record.name = name
        ∧ record.topicEpoch = entry.latestEpoch)
    ∧ ∀ name, (machine.records.topicsNamed name).ncard < 2 ^ 64 →
      (∀ entry topic record, machine.records.topicName? name = some entry → machine.records.topic? topic = some record →
        record.name = name → record.topicEpoch ≤ entry.latestEpoch)
      ∧ ∀ topic topic' record record', machine.records.topic? topic = some record →
        machine.records.topic? topic' = some record' → record.name = name → record'.name = name →
        topic ≠ topic' → record.topicEpoch ≠ record'.topicEpoch := by
  refine ⟨fun group member record joined => ?_, fun name group => ?_, fun name entry found => ?_, fun name few => ?_⟩
  · have held := reached.holdings group
    have mine := assignments_of_member joined
    refine ⟨mine ▸ held.distinct member, mine ▸ held.bounded member, fun assignment listed => ?_, ?_⟩
    · exact ne_none_iff_exists'.mp (held.allowed member assignment (mine ▸ listed))
    · intro other record' joined' different assignment listed listed'
      exact different (held.exclusive other member assignment (assignments_of_member joined' ▸ listed') (mine ▸ listed))
  · rw [reached.groupsIndexed name group, nameOf, map_eq_some_iff]
  · obtain ⟨created, numbered⟩ := reached.numbered name
    exact (numbered.current found).2
  · obtain ⟨created, numbered⟩ := reached.numbered name
    rw [numbered.ncard] at few
    -- below 2^64 an epoch reads back as the number it was made from
    have read {number : Nat} (small : number ≤ created.length) : (ofNat number).toNat = number := by
      rw [toNat_ofNat', Nat.mod_eq_of_lt (Nat.lt_of_le_of_lt small few)]
    refine ⟨fun entry topic record found stored named => ?_, ?_⟩
    · obtain ⟨index, below, -, epoch⟩ := numbered.index stored named
      rw [epoch, (numbered.current found).1, le_iff_toNat_le, read below, read (Nat.le_refl _)]
      exact below
    · intro topic topic' record record' stored stored' named named' different same
      obtain ⟨index, below, at_, epoch⟩ := numbered.index stored named
      obtain ⟨index', below', at_', epoch'⟩ := numbered.index stored' named'
      rw [epoch, epoch', ← UInt64.toNat_inj, read below, read below'] at same
      obtain rfl : index = index' := Nat.succ.inj same
      exact different (some.inj (at_.symm.trans at_'))

end Reached

section ConsumedRange

attribute [local instance] External.plain

theorem consumedMachine_owns_range : ((new.afterLog consumedLog).records.member? 30 31).map (·.assigned) = some [⟨10, 11⟩]
      ∧ (∃ range, (new.afterLog consumedLog).records.range? 10 11 = some range)
      ∧ ∃ record, (new.afterLog consumedLog).records.group? 30 = some record ∧ record.name = "group" := by
  have assigned : ((new.afterLog consumedLog).records.member? 30 31).map (·.assigned)
      = some [⟨10, 11⟩] := by decide +kernel
  have indexed : (new.afterLog consumedLog).records.groupName? "group"
      = some { groupUuid := 30 } := by decide +kernel
  have reached : (new.afterLog consumedLog).Reached := Reached.afterLog Reachable.refl _
  obtain ⟨owned, names, -⟩ := ownership_and_names reached
  obtain ⟨record, joined, holds⟩ := map_eq_some_iff.mp assigned
  exact ⟨assigned, (owned 30 31 record joined).2.2.1 ⟨10, 11⟩ (by simp [holds]), (names "group" 30).mp indexed⟩

end ConsumedRange

end VtopEngine.Meta
