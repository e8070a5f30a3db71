import VtopEngine.Meta.CommandCodec
import VtopEngine.Meta.Dedup
import VtopEngine.Meta.Fencing
import VtopEngine.Meta.Snapshot

/-! # Reachable machines survive their snapshots

What the thirty-seven commands can write stays within what the snapshot reader
accepts.  One bound is not the state machine's own: the number of members of a
replica set is checked when the command is decoded, so it holds of runs of
decoded commands only; every other bound holds of every run.
-/

namespace VtopEngine.Meta

open Lib MetaStateMachine Records MetaValue

variable {records : Records} {command : MetadataCommand}

/-! ## What the commands write -/

/-- Every record is storable, or a replica set. -/
def Records.Writable (records : Records) : Prop := ∀ key value, records.record key = some value → value.Writable

theorem RangeReplicaSetRecord.writable (set) : (RangeReplicaSet set).Writable :=
  (em (improper set.members)).elim (fun refused => .inr ⟨set, rfl, refused⟩) .inl

namespace Records.Writable

variable {key : MetaKey}

theorem put {value : MetaValue} (writable : records.Writable) (fits : value.Writable) :
    (records.put key value).Writable := by
  intro other stored found
  rw [record_put] at found
  split at found
  · cases found
    exact fits
  · exact writable other stored found

theorem remove (writable : records.Writable) : (records.remove key).Writable := by
  intro other stored found
  rw [record_remove] at found
  split at found
  · cases found
  · exact writable other stored found

/-- What a stored record of one kind satisfies. -/
theorem lookup {α : Type} {view record} (bound : α → Prop)
    (writable : records.Writable) (found : records.lookup view key = some record)
    (reads : ∀ value, value.Writable → ∀ record, view value = some record → bound record) : bound record := by
  obtain ⟨value, stored, viewed⟩ := Option.bind_eq_some_iff.mp found
  exact reads value (writable key value stored) record viewed

variable (writable : records.Writable)
include writable

theorem node {node} (found : records.node? nodeUuid = some node) : node.Storable := by
  refine lookup NodeRecord.Storable writable found fun value fits record viewed => ?_
  cases value <;> simp_all [MetaValue.Writable, MetaValue.Storable]

theorem range {range record} (found : records.range? topic range = some record) : record.parents.length ≤ 2 := by
  refine lookup (·.parents.length ≤ 2) writable found fun value fits record viewed => ?_
  cases value <;> simp_all [MetaValue.Writable, MetaValue.Storable]

theorem group {group} (found : records.group? groupUuid = some group) : group.name.utf8ByteSize ≤ MAX_GROUP_NAME_BYTES := by
  refine lookup (·.name.utf8ByteSize ≤ MAX_GROUP_NAME_BYTES) writable found fun value fits record viewed => ?_
  cases value <;> simp_all [MetaValue.Writable, MetaValue.Storable]

theorem member {member}
    (found : records.member? groupUuid memberUuid = some member) : member.assigned.length ≤ MAX_ASSIGNED_RANGES := by
  refine lookup (·.assigned.length ≤ MAX_ASSIGNED_RANGES) writable found fun value fits record viewed => ?_
  cases value <;> simp_all [MetaValue.Writable, MetaValue.Storable]

theorem placement {range segment} {placement} (found : records.placement? topic range segment = some placement) :
    placement.replicaNodes.length ≤ MAX_TRANSIENT_REPLICAS := by
  refine lookup (·.replicaNodes.length ≤ MAX_TRANSIENT_REPLICAS) writable found fun value fits record viewed => ?_
  cases value <;> simp_all [MetaValue.Writable, MetaValue.Storable]

end Records.Writable

variable {args : EnsureMember}

theorem EnsureMember.grouped_writable (writable : records.Writable)
    (fits : args.name.utf8ByteSize ≤ MAX_GROUP_NAME_BYTES) : (args.grouped records).Writable := by
  unfold grouped
  split
  · exact .put (.put writable (.inl trivial)) (.inl fits)
  · exact writable

theorem EnsureMember.Grows.fits
    (grows : args.Grows applyIndex records member) : member.assigned.length ≤ MAX_ASSIGNED_RANGES := by
  cases grows with
  | extended joined lacks room =>
    rw [List.length_append]
    exact room
  | joined => exact Nat.le_of_ble_eq_true rfl

theorem EnsureMember.Accepted.writable
    (accepts : args.Accepted applyIndex records response after) (writable : records.Writable) : after.Writable := by
  have grouped := args.grouped_writable writable accepts.admits.fits
  cases accepts with
  | held _ _ joined =>
    have assigned := writable.member joined
    exact .put grouped (.inl assigned)
  | grown _ _ grows found =>
    have name := grouped.group found
    exact .put (.put grouped (.inl grows.fits)) (.inl name)

theorem EnsureMember.Spilled.writable
    (spills : args.Spilled applyIndex records error after) (writable : records.Writable) : after.Writable := by
  have grouped := args.grouped_writable writable spills.admits.fits
  cases spills with
  | elsewhere => exact grouped
  | heartbeat _ _ joined =>
    have assigned := writable.member joined
    exact .put grouped (.inl assigned)
  | groupExhausted _ _ grows => exact .put grouped (.inl grows.fits)

theorem Records.Writable.split {args} {parent : RangeRecord} {left right}
    (writable : records.Writable) (parents : parent.parents.length ≤ 2) :
    (records.split args parent left right).Writable := by
  have child (interval : Log.KeyRange) : (parent.child args.parentRangeUuid interval).parents.length ≤ 2 :=
    Nat.le_of_ble_eq_true rfl
  unfold Records.split Records.inheritSet
  refine .put ?_ (.inl trivial)
  cases (records.replicaSet? args.topicUuid args.parentRangeUuid).map (·.members) with
  | none => exact .put (.put (.put writable (.inl parents)) (.inl (child left))) (.inl (child right))
  | some members =>
    exact .put (.put (.put (.put (.put writable (.inl parents)) (.inl (child left))) (.inl (child right)))
      (RangeReplicaSetRecord.writable _)) (RangeReplicaSetRecord.writable _)

/-- Outcomes are bounded by the answers they list. -/
theorem PromotionOutcome.bounded_of_quorum {outcome : PromotionOutcome}
    (few : outcome.quorum.length ≤ MAX_TRANSITION_QUORUM) : outcome.Bounded := by
  cases outcome with
  | Established => exact few
  | Refused => trivial

theorem Command.ConfirmReplicaRetired.Accepted.writable {args : ConfirmReplicaRetired}
    (accepts : args.Accepted applyIndex records response after) (writable : records.Writable) : after.Writable := by
  have consumed (completes : Bool) {middle : Records} (writable : middle.Writable) :
      (args.consume completes middle).Writable := by
    unfold Command.ConfirmReplicaRetired.consume
    split
    · exact .remove (.remove writable)
    · exact .remove writable
  cases accepts with
  | surviving _ placed =>
    exact consumed _ (.put (.put writable (.inl trivial))
      (.inl (Nat.le_trans (List.length_filter_le ..) (writable.placement placed))))
  | unplaced => exact consumed _ (.put writable (.inl trivial))

theorem MetadataCommand.Accepted.writable [External]
    (accepts : command.Accepted applyIndex records response after) (writable : records.Writable) :
    after.Writable := by
  cases command with
  | RegisterNode args =>
    cases accepts with
    | first _ fits => exact .put writable (.inl ⟨fits, Nat.zero_le _⟩)
    | again _ fits found => exact .put writable (.inl ⟨fits, (writable.node found).2⟩)
  | SetNodeState args =>
    obtain ⟨found⟩ := accepts
    have texts := writable.node found
    exact .put writable (.inl texts)
  | SetNodePlacementAttrs args =>
    obtain ⟨fits, _, found⟩ := accepts
    exact .put writable (.inl ⟨(writable.node found).1, fits⟩)
  | CreateTopic args =>
    obtain ⟨_, fits⟩ := accepts
    exact .put (.put (.put writable (.inl trivial)) (.inl fits)) (.inl (Nat.zero_le _))
  | GrantRangeLease args =>
    obtain ⟨_, _, found⟩ := accepts
    have parents := writable.range found
    exact .put (.put writable (.inl parents)) (.inl trivial)
  | AcquireRangeLease args =>
    obtain ⟨_, _, _, _, found⟩ := accepts
    have parents := writable.range found
    exact .put (.put writable (.inl parents)) (.inl trivial)
  | RenewRangeLease args =>
    obtain ⟨_, found⟩ := accepts
    have parents := writable.range found
    exact .put writable (.inl parents)
  | ReleaseRangeLease args =>
    obtain ⟨found⟩ := accepts
    have parents := writable.range found
    exact .put writable (.inl parents)
  | ReportPromotionOutcome args =>
    obtain ⟨few⟩ := accepts
    exact .put writable (.inl (PromotionOutcome.bounded_of_quorum few))
  | SplitRange args =>
    cases accepts with
    | replay => exact writable
    | split _ _ _ found => exact writable.split (writable.range found)
  | RegisterSealedSegment args =>
    obtain ⟨_, found⟩ := accepts
    have parents := writable.range found
    exact .put (.put writable (.inl trivial)) (.inl parents)
  | CreateConsumerGroup args =>
    obtain ⟨_, fits⟩ := accepts
    exact .put (.put writable (.inl trivial)) (.inl fits)
  | JoinConsumerGroup args =>
    obtain ⟨found⟩ := accepts
    have name := writable.group found
    exact .put (.put writable (.inl (Nat.zero_le _))) (.inl name)
  | LeaveConsumerGroup args | ExpireStaleMember args =>
    obtain ⟨found⟩ := accepts
    have name := writable.group found
    exact .put (.remove writable) (.inl name)
  | HeartbeatMember args =>
    obtain ⟨_, joined⟩ := accepts
    have assigned := writable.member joined
    exact .put writable (.inl assigned)
  | AssignMemberRanges args =>
    obtain ⟨passes⟩ := accepts
    have name := writable.group passes.found
    exact .put (.put writable (.inl passes.bounded)) (.inl name)
  | EnsureGroupMemberForRange args | EnsureGroupMemberCoordinated args => exact accepts.2.writable writable
  | CommitGroupCursorFenced args | CommitGroupCursorCoordinated args =>
    obtain ⟨-, accepts⟩ := accepts
    cases accepts <;> exact .put writable (.inl trivial)
  | CommitSegmentPlacement args =>
    have fits (admits : args.Admits records) : args.replicaNodes.length ≤ MAX_TRANSIENT_REPLICAS :=
      Nat.le_succ_of_le (admits.length ▸ admits.factor.2)
    cases accepts with
    | first admits | update admits => exact .put writable (.inl (fits admits))
  | ConfirmReplicaRetired args => exact accepts.writable writable
  | ProposeRebalance args =>
    cases accepts with
    | intro _ placed _ _ _ _ _ _ room =>
      refine .put (.put writable (.inl trivial)) (.inl ?_)
      rw [Storable, SegmentPlacementRecord.including, List.length_append]
      exact room
  | CancelRebalance args =>
    obtain ⟨_, placed⟩ := accepts
    exact .put (.remove writable) (.inl (Nat.le_trans (List.length_filter_le ..) (writable.placement placed)))
  | CommitTierEvidence args =>
    obtain ⟨positive, texts⟩ := accepts
    exact .put writable (.inl ⟨positive, texts.backend, texts.object, texts.manifestVersion,
      fun versionId given => (texts.objectVersion versionId given).2⟩)
  | ConfirmRetentionExpired args =>
    cases accepts with
    | placed => exact .put (.put writable (.inl trivial)) (.inl (Nat.zero_le _))
    | unplaced => exact .put writable (.inl trivial)
  | CancelRetention args => exact accepts.elim
  | SetRangeReplicaSet args =>
    cases accepts with
    | same => exact writable
    | @change range _ found =>
      refine .put (.put writable (.inl ?_)) (RangeReplicaSetRecord.writable _)
      have parents := writable.range found
      unfold RangeRecord.unleased
      split <;> exact parents
  | _ =>
    -- the rest write segments, keys, cursors, proofs and policies
    cases accepts <;> first
      | exact writable
      | exact .put writable (.inl trivial)

section Runs

variable [External] {machine : MetaStateMachine}

section

variable (reached : machine.Reached)

include reached

theorem MetaStateMachine.Reached.writable : machine.records.Writable := by
  refine reached.records_invariant Writable (fun key value found => by simp at found) ?_
  intro machine applyIndex command response after _ writable effect
  cases effect with
  | accepted accepts => exact accepts.writable writable
  | refused => exact writable
  | spilled spills =>
    cases command with
    | AssignMemberRanges args =>
      obtain ⟨passes⟩ := spills
      exact .put writable (.inl passes.bounded)
    | EnsureGroupMemberForRange args | EnsureGroupMemberCoordinated args => exact spills.2.writable writable
    | _ => exact spills.elim

/-! ## Reachable machines are carriable -/

theorem MetaStateMachine.Reached.epochsAgree
    (stored : machine.records.record key = some value) : epochsDisagree key value = false := by
  unfold epochsDisagree
  split
  · next topic range epoch transition =>
    have recorded : machine.records.transition? topic range epoch = some transition := by simp [transition?, lookup, stored]
    obtain ⟨epochTo, epochFrom⟩ := (reached.fence_wellFormed topic range).good epoch.toNat transition
      ((grants_toNat ..).trans recorded)
    have advances : transition.epochFrom < epoch := by
      rw [UInt64.lt_iff_toNat_lt]
      omega
    simp [UInt64.toNat_inj.mp epochTo, advances]
  · rfl

theorem MetaStateMachine.Reached.carriable : machine.Carriable := by
  obtain ⟨distinct, bounded, agree⟩ := reached.dedup_consistent
  refine ⟨?_, distinct, bounded, agree⟩
  rintro ⟨bytes, value⟩ member
  have found := mem_entries.mp member
  obtain ⟨key, rfl, fits⟩ := reached.encoded bytes value found
  exact ⟨key, rfl, fits, reached.wellTyped key value found, reached.epochsAgree found⟩

theorem MetaStateMachine.Reached.entries_writable : ∀ entry ∈ machine.records.entries, entry.2.Writable := by
  rintro ⟨bytes, value⟩ member
  obtain ⟨key, -, -, found⟩ := reached.encoded.mem_entries member
  exact reached.writable key value found

end

/-! ## Runs of decoded commands -/

/-- A step whose command came off the wire. -/
def MetaStateMachine.DecodedStep (machine : MetaStateMachine) (event : Event) (next : MetaStateMachine) : Prop :=
  machine.Step event next ∧ ∃ bytes, MetadataCommand.decode bytes = .ok event.command

theorem MetaStateMachine.reached_of_decoded (reached : Reachable DecodedStep .new machine) : machine.Reached :=
  Reachable.invariant Reached reached Reachable.refl fun _ _ _ _ reached step => reached.step step.1

def Records.SetsProper (records : Records) : Prop :=
  ∀ topic range set, records.replicaSet? topic range = some set → ¬ RangeReplicaSetRecord.improper set.members

omit [External] in
theorem RangeReplicaSetRecord.proper_sortedMembers {members : List Uuid} (nonempty : sortedMembers members ≠ [])
    (few : (sortedMembers members).length ≤ MAX_REPLICAS) : ¬ improper (sortedMembers members) := by
  have ascends {nodes : List Uuid} (sorted : nodes.Pairwise (· < ·)) : ∀ pair ∈ nodes.zip nodes.tail, pair.1 < pair.2 := by
    induction nodes with
    | nil => simp
    | cons first nodes ih =>
      obtain ⟨smallest, sorted⟩ := List.pairwise_cons.mp sorted
      cases nodes with
      | nil => simp
      | cons second nodes =>
        rintro pair (_ | ⟨_, later⟩)
        · exact smallest second List.mem_cons_self
        · exact ih sorted pair later
  rintro (empty | many | ⟨pair, member, descends⟩)
  · exact nonempty empty
  · exact absurd few (Nat.not_le.mpr many)
  · exact absurd (ascends (sortedMembers_sorted members) pair member) (BitVec.not_lt.mpr descends)

theorem MetaStateMachine.setsProper_of_decoded (reached : Reachable DecodedStep .new machine) :
    machine.records.SetsProper := by
  refine Reachable.invariant (fun machine => machine.records.SetsProper) reached ?_ ?_
  · simp [Records.SetsProper, new, Records.replicaSet?, Records.lookup]
  rintro machine ⟨_, command, _⟩ next - proper ⟨step, bytes, decoded⟩
  cases apply_cases step with
  | replayed => exact proper
  | executed _ effect =>
    rw [records_remember]
    refine effect.replicaSets (¬ RangeReplicaSetRecord.improper ·) proper fun args isCommand nonempty distinct => ?_
    subst isCommand
    exact RangeReplicaSetRecord.proper_sortedMembers nonempty (distinct ▸ MetadataCommand.valid_of_decode decoded)

theorem MetaStateMachine.entries_storable_of_decoded (reached : Reachable DecodedStep .new machine) :
    ∀ entry ∈ machine.records.entries, entry.2.Storable := by
  rintro ⟨bytes, value⟩ member
  have plain := reached_of_decoded reached
  obtain ⟨key, -, -, found⟩ := plain.encoded.mem_entries member
  obtain storable | ⟨set, rfl, improper⟩ := plain.writable key value found
  · exact storable
  · have kind := plain.wellTyped key _ found
    cases key <;> simp [keyMatchesValue] at kind
    case RangeReplicaSet topic range =>
      exact setsProper_of_decoded reached topic range set (by simp [replicaSet?, lookup, found])

/-- Every machine that decoded commands reach, with no more records than a snapshot
    may hold, is written and read back as it was. -/
theorem snapshot_round_trip (reached : Reachable DecodedStep .new machine) (few : machine.records.map.size ≤ 2 ^ 24) :
    ∃ bytes, machine.encodeSnapshot = .ok bytes ∧ decodeSnapshot bytes = .ok machine :=
  decodeSnapshot_encodeSnapshot (reached_of_decoded reached).carriable few (entries_storable_of_decoded reached)

theorem MetaStateMachine.decoded_afterLog
    (reached : Reachable DecodedStep .new machine) (valid : ∀ entry ∈ log, entry.2.Valid) :
    Reachable DecodedStep .new (machine.afterLog log) := by
  induction log generalizing machine with
  | nil => exact reached
  | cons entry rest ih =>
    obtain ⟨applyIndex, command⟩ := entry
    obtain ⟨isValid, valid⟩ := List.forall_mem_cons.mp valid
    obtain ⟨bytes, -, decoded⟩ := MetadataCommand.decode_encode isValid
    unfold afterLog
    split
    · next response next applied =>
      have step : machine.DecodedStep { applyIndex, command, response } next := ⟨applied, bytes, decoded⟩
      exact ih (reached.step step) valid
    · exact reached

end Runs

section LeaseLog

attribute [local instance] External.plain

theorem leasedMachine_decoded : Reachable DecodedStep .new leasedMachine := by
  refine decoded_afterLog Reachable.refl ?_
  rintro entry (_ | ⟨_, _ | ⟨_, _ | ⟨_, impossible⟩⟩⟩)
  · exact ⟨by decide, by decide⟩
  · exact ⟨by decide, by decide⟩
  · trivial
  · cases impossible

theorem leasedMachine_size : leasedMachine.records.map.size = 5 := by decide +kernel

theorem leasedMachine_survives_snapshot :
    leasedMachine.records.map.size = 5 ∧ ∃ bytes, leasedMachine.encodeSnapshot = .ok bytes
      ∧ decodeSnapshot bytes = .ok leasedMachine :=
  ⟨leasedMachine_size, snapshot_round_trip leasedMachine_decoded (by rw [leasedMachine_size]; decide)⟩

end LeaseLog

end VtopEngine.Meta
