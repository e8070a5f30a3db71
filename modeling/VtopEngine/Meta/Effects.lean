import VtopEngine.Meta.Machine

/-! # What one command does to the records

The specifications of the handlers, put together over the dispatch:

* `MetadataCommand.Accepted`, `MetadataCommand.Spilled` — the handlers' relations;
* `MetadataCommand.Effect` — accepted, refused with nothing changed, or refused
  after a write; every executed command has an effect (`apply_cases`);
* `MetadataCommand.writes` — the kinds of keys a command may write; every other
  record is framed (`Effect.record_eq`).

Everything said about runs is derived from these.
-/

namespace VtopEngine.Meta

open Lib MetaKey MetaStateMachine MetadataCommand Records Txn

variable {records : Records} {applyIndex : UInt64} {command : MetadataCommand}

/-! ## The relations over the dispatch -/

/-- The command is accepted with this response and leaves these records. -/
def MetadataCommand.Accepted [External] (command : MetadataCommand) (applyIndex : UInt64) (records : Records) :
    MetadataResponse → Records → Prop :=
  match command with
  | .RegisterNode args | .SetNodeState args | .CreateTopic args | .ReleaseRangeLease args | .RenewRangeLease args
  | .SplitRange args | .RegisterSealedSegment args | .MarkSegmentVerified args | .PutKeyRecord args
  | .CreateConsumerGroup args | .LeaveConsumerGroup args | .AssignMemberRanges args | .ExpireStaleMember args
  | .SetNodePlacementAttrs args | .PlanReplicaRetirement args | .SetTopicRetentionPolicy args | .PlanRetention args
  | .SetFeatureLevel args | .SetRangeReplicaSet args => args.Accepted records
  | .GrantRangeLease args | .AcquireRangeLease args | .ReportPromotionOutcome args | .JoinConsumerGroup args
  | .HeartbeatMember args | .CommitSegmentPlacement args | .CommitReplacementProof args | .ConfirmReplicaRetired args
  | .ProposeRebalance args | .CancelRebalance args | .CommitTierEvidence args | .ConfirmRetentionExpired args =>
    args.Accepted applyIndex records
  | .CommitGroupCursor args => args.cursor.Accepted records
  | .EnsureGroupMemberForRange args => fun response reached =>
    records.HeldBy args.topicUuid args.rangeUuid args.holderNodeUuid args.fencingEpoch
      ∧ args.member.Accepted applyIndex records response reached
  | .CommitGroupCursorFenced args => fun response reached =>
    records.HeldBy args.cursor.topicUuid args.cursor.rangeUuid args.holderNodeUuid args.fencingEpoch
      ∧ args.cursor.Accepted records response reached
  | .CommitGroupCursorCoordinated args => fun response reached =>
    records.HeldBy args.coordinatorTopicUuid args.coordinatorRangeUuid args.holderNodeUuid args.fencingEpoch
      ∧ args.cursor.Accepted records response reached
  | .EnsureGroupMemberCoordinated args => fun response reached =>
    records.HeldBy args.coordinatorTopicUuid args.coordinatorRangeUuid args.holderNodeUuid args.fencingEpoch
      ∧ args.member.Accepted applyIndex records response reached
  | .CancelRetention _ => fun _ _ => False

/-- The command is refused after it has written. -/
def MetadataCommand.Spilled (command : MetadataCommand) (applyIndex : UInt64) (records : Records) :
    MetadataError → Records → Prop :=
  match command with
  | .AssignMemberRanges args => args.Spilled records
  | .EnsureGroupMemberForRange args => fun error reached =>
    records.HeldBy args.topicUuid args.rangeUuid args.holderNodeUuid args.fencingEpoch
      ∧ args.member.Spilled applyIndex records error reached
  | .EnsureGroupMemberCoordinated args => fun error reached =>
    records.HeldBy args.coordinatorTopicUuid args.coordinatorRangeUuid args.holderNodeUuid args.fencingEpoch
      ∧ args.member.Spilled applyIndex records error reached
  | _ => fun _ _ => False

variable {handler : Handler}

/-- A handler that exits cleanly spills nothing. -/
theorem Clean.cleanOr {spilled : MetadataError → Records → Prop} (spec : handler.wp post (Clean records) records) :
    handler.wp post (CleanOr records spilled) records :=
  wp_mono spec (fun _ _ holds => holds) fun _ _ exits => .inl exits

section Fenced

theorem fenced_spec {fail : Abort MetadataError → Records → Prop} (refused : ∀ error, fail (.rejected error) records)
    (spec : records.HeldBy topicUuid rangeUuid holderNodeUuid fencingEpoch → handler.wp post fail records) :
    (fenced topicUuid rangeUuid holderNodeUuid fencingEpoch handler).wp post fail records := by
  refine wp_read_bind (wp_bind.mpr (wp_rejectSome (fun passes => ?_) fun error _ => refused error))
  exact spec (notTheLeaseholder_eq_none.mp passes)

theorem fenced_runs (held : records.HeldBy topicUuid rangeUuid holderNodeUuid fencingEpoch)
    (runs : handler.wp post fail records) :
    (fenced topicUuid rangeUuid holderNodeUuid fencingEpoch handler).wp post fail records :=
  wp_read_bind (rejectSome_passes (notTheLeaseholder_eq_none.mpr held) runs)

theorem fencedCursor_spec (args) : (fenced topicUuid rangeUuid holderNodeUuid fencingEpoch (commitGroupCursor args)).wp
      (fun response reached => records.HeldBy topicUuid rangeUuid holderNodeUuid fencingEpoch
        ∧ args.Accepted records response reached) (Clean records) records :=
  fenced_spec (fun _ => unchanged_rejected) fun held =>
    wp_mono (commitGroupCursor_spec args) (fun _ _ accepts => ⟨held, accepts⟩) fun _ _ exits => exits

theorem fencedMember_spec (args) :
    (fenced topicUuid rangeUuid holderNodeUuid fencingEpoch (ensureGroupMemberForRange applyIndex args)).wp
      (fun response reached => records.HeldBy topicUuid rangeUuid holderNodeUuid fencingEpoch
        ∧ args.Accepted applyIndex records response reached)
      (CleanOr records fun error reached => records.HeldBy topicUuid rangeUuid holderNodeUuid fencingEpoch
        ∧ args.Spilled applyIndex records error reached) records := by
  refine fenced_spec (fun _ => cleanOr_rejected) fun held => ?_
  refine wp_mono (ensureGroupMemberForRange_spec args) (fun _ _ accepts => ⟨held, accepts⟩) ?_
  rintro abort reached (clean | ⟨error, rejected, spills⟩)
  · exact .inl clean
  · exact .inr ⟨error, rejected, held, spills⟩

end Fenced

open Clean (cleanOr)

theorem applyInner_spec [External] (applyIndex records) (command) :
    (applyInner applyIndex command).wp (command.Accepted applyIndex records)
      (CleanOr records (command.Spilled applyIndex records)) records := by
  cases command with
  | RegisterNode args => exact cleanOr (registerNode_spec args)
  | SetNodeState args => exact cleanOr (setNodeState_spec args)
  | CreateTopic args => exact cleanOr (createTopic_spec args)
  | GrantRangeLease args => exact cleanOr (grantRangeLease_spec args)
  | ReleaseRangeLease args => exact cleanOr (releaseRangeLease_spec args)
  | AcquireRangeLease args => exact cleanOr (acquireRangeLease_spec args)
  | RenewRangeLease args => exact cleanOr (renewRangeLease_spec args)
  | ReportPromotionOutcome args => exact cleanOr (reportPromotionOutcome_spec args)
  | SplitRange args => exact cleanOr (splitRange_spec args)
  | RegisterSealedSegment args => exact cleanOr (registerSealedSegment_spec args)
  | MarkSegmentVerified args => exact cleanOr (markSegmentVerified_spec args)
  | PutKeyRecord args => exact cleanOr (putKeyRecord_spec args)
  | CreateConsumerGroup args => exact cleanOr (createConsumerGroup_spec args)
  | JoinConsumerGroup args => exact cleanOr (joinConsumerGroup_spec args)
  | LeaveConsumerGroup args => exact cleanOr (leaveConsumerGroup_spec args)
  | AssignMemberRanges args => exact assignMemberRanges_spec args
  | CommitGroupCursor args => exact cleanOr (commitGroupCursor_spec args.cursor)
  | HeartbeatMember args => exact cleanOr (heartbeatMember_spec args)
  | EnsureGroupMemberForRange args | EnsureGroupMemberCoordinated args => exact fencedMember_spec args.member
  | CommitGroupCursorFenced args | CommitGroupCursorCoordinated args => exact cleanOr (fencedCursor_spec args.cursor)
  | ExpireStaleMember args => exact cleanOr (expireStaleMember_spec args)
  | SetNodePlacementAttrs args => exact cleanOr (setNodePlacementAttrs_spec args)
  | CommitSegmentPlacement args => exact cleanOr (commitSegmentPlacement_spec args)
  | CommitReplacementProof args => exact cleanOr (commitReplacementProof_spec args)
  | PlanReplicaRetirement args => exact cleanOr (planReplicaRetirement_spec args)
  | ConfirmReplicaRetired args => exact cleanOr (confirmReplicaRetired_spec args)
  | ProposeRebalance args => exact cleanOr (proposeRebalance_spec args)
  | CancelRebalance args => exact cleanOr (cancelRebalance_spec args)
  | CommitTierEvidence args => exact cleanOr (commitTierEvidence_spec args)
  | SetTopicRetentionPolicy args => exact cleanOr (setTopicRetentionPolicy_spec args)
  | PlanRetention args => exact cleanOr (planRetention_spec args)
  | ConfirmRetentionExpired args => exact cleanOr (confirmRetentionExpired_spec args)
  | CancelRetention args => exact cleanOr (cancelRetention_spec args)
  | SetFeatureLevel args => exact cleanOr (setFeatureLevel_spec args)
  | SetRangeReplicaSet args => exact cleanOr (setRangeReplicaSet_spec args)

/-! ## Effects -/

/-- What an executed command answered and left behind. -/
inductive MetadataCommand.Effect [External] (command : MetadataCommand) (applyIndex : UInt64) (before : Records) :
    MetadataResponse → Records → Prop
  | accepted {response : MetadataResponse} {after : Records}
      (accepts : command.Accepted applyIndex before response after) : Effect command applyIndex before response after
  | refused (error : MetadataError) : Effect command applyIndex before (.Rejected error) before
  | spilled {error : MetadataError} {after : Records} (spills : command.Spilled applyIndex before error after) :
      Effect command applyIndex before (.Rejected error) after

section Machine

variable [External] {machine : MetaStateMachine} {response : MetadataResponse}

/-- An applied command was remembered and repeats its answer, or was executed. -/
inductive MetaStateMachine.Applied (machine : MetaStateMachine) (applyIndex : UInt64) (command : MetadataCommand) :
    MetadataResponse → MetaStateMachine → Prop
  | replayed {response : MetadataResponse}
      (remembered : machine.appliedResponse command.envelope.requestId = some response) :
      Applied machine applyIndex command response machine
  | executed {response : MetadataResponse} {after : Records}
      (fresh : machine.appliedResponse command.envelope.requestId = none)
      (effect : command.Effect applyIndex machine.records response after) :
      Applied machine applyIndex command response
        ({ machine with records := after }.remember command.envelope.requestId response)

theorem MetaStateMachine.apply_cases (applied : machine.apply applyIndex command = .ok (response, next)) :
    machine.Applied applyIndex command response next := by
  unfold apply at applied
  split at applied
  · next original remembered =>
    cases applied
    exact .replayed remembered
  · next fresh =>
    have spec := applyInner_spec applyIndex machine.records command
    split at applied
    · next answer after ran =>
      cases applied
      exact .executed fresh (.accepted (wp_ok spec ran))
    · next error after ran =>
      cases applied
      obtain ⟨rfl, -⟩ | ⟨error', same, spills⟩ := wp_error spec ran
      · exact .executed fresh (.refused error)
      · cases same
        exact .executed fresh (.spilled spills)
    · cases applied

/-- A new request that cannot be refused is a step. -/
theorem MetaStateMachine.step_of_wp (applyIndex) (command : MetadataCommand)
    (fresh : machine.appliedResponse command.envelope.requestId = none)
    (runs : (applyInner applyIndex command).wp post (fun _ _ => False) machine.records) :
    ∃ response next, machine.Step ⟨applyIndex, command, response⟩ next ∧ post response next.records := by
  cases ran : applyInner applyIndex command machine.records with
  | mk result after =>
    cases result with
    | error abort => exact (wp_error runs ran).elim
    | ok response =>
      refine ⟨response, { machine with records := after }.remember command.envelope.requestId response, ?_, ?_⟩
      · simp only [Step, apply, fresh, ran]
      · simpa using wp_ok runs ran

/-- Only unhealthy records make `apply` panic. -/
theorem MetaStateMachine.unhealthy_of_panic
    (panics : machine.apply applyIndex command = .error message) : ¬ machine.records.Healthy := by
  unfold apply at panics
  split at panics
  · cases panics
  · have spec := applyInner_spec applyIndex machine.records command
    split at panics
    · cases panics
    · cases panics
    · next message after ran =>
      obtain ⟨-, cause⟩ | ⟨error, impossible, -⟩ := wp_error spec ran
      · exact cause message rfl
      · cases impossible

end Machine

/-! ## Frames -/

/-- Reached from `before` by writes and removals that `allowed` admits. -/
inductive Records.Rewrites (allowed : MetaKey → Option MetaValue → Prop) (before : Records) : Records → Prop
  | refl : Rewrites allowed before before
  | put {middle : Records} {key : MetaKey} {value : MetaValue} (earlier : Rewrites allowed before middle)
      (admitted : allowed key (some value)) : Rewrites allowed before (middle.put key value)
  | remove {middle : Records} {key : MetaKey} (earlier : Rewrites allowed before middle)
      (admitted : allowed key none) : Rewrites allowed before (middle.remove key)

/-- The kinds of keys, by category byte, that a command may write. -/
def MetadataCommand.writes (command : MetadataCommand) (kind : UInt8) : Bool :=
  match command with
  | .RegisterNode _ | .SetNodeState _ | .SetNodePlacementAttrs _ => kind ∈ [2]
  | .CreateTopic _ => kind ∈ [3, 4, 5]
  | .GrantRangeLease _ | .AcquireRangeLease _ => kind ∈ [5, 18]
  | .ReleaseRangeLease _ | .RenewRangeLease _ => kind ∈ [5]
  | .ReportPromotionOutcome _ => kind ∈ [18]
  | .SplitRange _ => kind ∈ [5, 19, 20]
  | .RegisterSealedSegment _ => kind ∈ [5, 6]
  | .MarkSegmentVerified _ | .PlanReplicaRetirement _ | .PlanRetention _ => kind ∈ [6]
  | .PutKeyRecord _ => kind ∈ [7]
  | .CreateConsumerGroup _ => kind ∈ [9, 10]
  | .JoinConsumerGroup _ | .LeaveConsumerGroup _ | .AssignMemberRanges _ | .ExpireStaleMember _ => kind ∈ [9, 11]
  | .CommitGroupCursor _ | .CommitGroupCursorFenced _ | .CommitGroupCursorCoordinated _ => kind ∈ [12]
  | .HeartbeatMember _ => kind ∈ [11]
  | .EnsureGroupMemberForRange _ | .EnsureGroupMemberCoordinated _ => kind ∈ [9, 10, 11]
  | .CommitSegmentPlacement _ => kind ∈ [13]
  | .CommitReplacementProof _ => kind ∈ [14]
  | .ConfirmReplicaRetired _ => kind ∈ [6, 13, 14, 15]
  | .ProposeRebalance _ | .CancelRebalance _ => kind ∈ [13, 15]
  | .CommitTierEvidence _ => kind ∈ [16]
  | .SetTopicRetentionPolicy _ => kind ∈ [17]
  | .ConfirmRetentionExpired _ => kind ∈ [6, 13]
  | .CancelRetention _ => false
  | .SetFeatureLevel _ => kind ∈ [1]
  | .SetRangeReplicaSet _ => kind ∈ [5, 20]

/-- Members leave, and a move ends; no record of another kind is ever removed. -/
def MetaKey.isRemovable : MetaKey → Bool
  | GroupMember .. | SegmentReplacementProof .. | SegmentRebalanceIntent .. => true
  | _ => false

/-- A command writes only keys of its own kinds, whose names were checked, and to
    each a value of that kind. -/
def MetadataCommand.MayWrite (command : MetadataCommand) (key : MetaKey) : Option MetaValue → Prop
  | some value => command.writes key.category = true ∧ keyMatchesValue key value = true ∧ key.NameFits
  | none => command.writes key.category = true ∧ key.isRemovable = true

section Frame

variable {before after : Records} {allowed : MetaKey → Option MetaValue → Prop}

namespace Records.Rewrites

section

variable (rewrites : before.Rewrites allowed after)

include rewrites

theorem record_eq (untouched : ∀ value, ¬ allowed key value) : after.record key = before.record key := by
  induction rewrites with
  | refl => rfl
  | @put _ written _ _ admitted ih =>
    rw [record_put, if_neg, ih]
    rintro rfl
    exact untouched _ admitted
  | @remove _ written _ admitted ih =>
    rw [record_remove, if_neg, ih]
    rintro rfl
    exact untouched _ admitted

/-- What every record has, and every written one, every record has afterwards. -/
theorem all {Good : MetaKey → MetaValue → Prop} (good : ∀ key value, allowed key (some value) → Good key value)
    (base : ∀ key value, before.record key = some value → Good key value) :
    ∀ key value, after.record key = some value → Good key value := by
  induction rewrites with
  | refl => exact base
  | @put _ written written' _ admitted ih =>
    intro key value found
    rw [record_put] at found
    split at found
    · next same =>
      cases same
      cases found
      exact good _ _ admitted
    · exact ih key value found
  | remove _ _ ih =>
    intro key value found
    rw [record_remove] at found
    split at found
    · cases found
    · exact ih key value found

/-- A key that is only ever written keeps having a record. -/
theorem stays {α : Type} {view : MetaValue → Option α} {key : MetaKey}
    (kept : ¬ allowed key none) (written : ∀ value, allowed key (some value) → view value ≠ none)
    (present : before.lookup view key ≠ none) : after.lookup view key ≠ none := by
  induction rewrites with
  | refl => exact present
  | put _ admitted ih =>
    rw [lookup_put]
    split
    · next same =>
      subst same
      exact written _ admitted
    · exact ih
  | remove _ admitted ih =>
    rw [lookup_remove, if_neg]
    · exact ih
    · rintro rfl
      exact kept admitted

end

end Records.Rewrites

section Ensured

variable {args : EnsureMember} (named : ∀ record, allowed (.GroupByName args.name) (some (.GroupName record)))
  (made : ∀ record, allowed (.Group args.groupUuid) (some (.Group record)))

include named made

/-- The ensure-member command writes the group, its name and the member, and nothing else. -/
theorem EnsureMember.grouped_rewrites : before.Rewrites allowed (args.grouped before) := by
  unfold grouped
  split
  · exact .put (.put .refl (named _)) (made _)
  · exact .refl

variable (joined : ∀ record, allowed (.GroupMember args.groupUuid args.memberUuid) (some (.GroupMember record)))

include joined

theorem EnsureMember.Accepted.rewrites (accepts : args.Accepted applyIndex before response after) :
    before.Rewrites allowed after := by
  cases accepts with
  | held => exact .put (grouped_rewrites named made) (joined _)
  | grown => exact .put (.put (grouped_rewrites named made) (joined _)) (made _)

theorem EnsureMember.Spilled.rewrites (spills : args.Spilled applyIndex before error after) :
    before.Rewrites allowed after := by
  cases spills with
  | elsewhere => exact grouped_rewrites named made
  | heartbeat | groupExhausted => exact .put (grouped_rewrites named made) (joined _)

end Ensured

theorem Records.split_rewrites {args : Command.SplitRange}
    (ranges : ∀ range record, allowed (.Range args.topicUuid range) (some (.Range record)))
    (sets : ∀ range record, allowed (.RangeReplicaSet args.topicUuid range) (some (.RangeReplicaSet record)))
    (transition : ∀ record, allowed (.LineageTransition args.topicUuid args.transitionId)
      (some (.LineageTransition record))) : before.Rewrites allowed (before.split args parent left right) := by
  unfold split inheritSet
  refine .put ?_ (transition _)
  cases (before.replicaSet? args.topicUuid args.parentRangeUuid).map (·.members) with
  | none => exact .put (.put (.put .refl (ranges ..)) (ranges ..)) (ranges ..)
  | some members => exact .put (.put (.put (.put (.put .refl (ranges ..)) (ranges ..)) (ranges ..)) (sets ..)) (sets ..)

theorem Command.ConfirmReplicaRetired.consume_rewrites {args : ConfirmReplicaRetired}
    (earlier : before.Rewrites allowed middle)
    (intent : allowed (.SegmentRebalanceIntent args.topicUuid args.rangeUuid args.segmentUuid) none)
    (proof : allowed (.SegmentReplacementProof args.topicUuid args.rangeUuid args.segmentUuid) none) :
    before.Rewrites allowed (args.consume completes middle) := by
  unfold consume
  refine .remove ?_ proof
  split
  · exact .remove earlier intent
  · exact earlier

theorem MetadataCommand.Accepted.rewrites [External]
    (accepts : command.Accepted applyIndex before response after) : before.Rewrites command.MayWrite after := by
  cases command with
  | CreateTopic args =>
    obtain ⟨nonempty, fits⟩ := accepts
    exact .put (.put (.put .refl ⟨rfl, rfl, nonempty, fits⟩) ⟨rfl, rfl, trivial⟩) ⟨rfl, rfl, trivial⟩
  | CreateConsumerGroup args =>
    obtain ⟨nonempty, fits⟩ := accepts
    exact .put (.put .refl ⟨rfl, rfl, nonempty, fits⟩) ⟨rfl, rfl, trivial⟩
  | SplitRange args =>
    cases accepts with
    | replay => exact .refl
    | split => exact split_rewrites (fun _ _ => ⟨rfl, rfl, trivial⟩) (fun _ _ => ⟨rfl, rfl, trivial⟩) fun _ => ⟨rfl, rfl, trivial⟩
  | EnsureGroupMemberForRange args | EnsureGroupMemberCoordinated args =>
    have named := accepts.2.admits.nameFits
    exact accepts.2.rewrites (fun _ => ⟨rfl, rfl, named⟩) (fun _ => ⟨rfl, rfl, trivial⟩) fun _ => ⟨rfl, rfl, trivial⟩
  | CommitGroupCursorFenced args | CommitGroupCursorCoordinated args =>
    obtain ⟨-, accepts⟩ := accepts
    cases accepts <;> exact .put .refl ⟨rfl, rfl, trivial⟩
  | ConfirmReplicaRetired args =>
    cases accepts with
    | surviving => exact args.consume_rewrites (.put (.put .refl ⟨rfl, rfl, trivial⟩) ⟨rfl, rfl, trivial⟩) ⟨rfl, rfl⟩ ⟨rfl, rfl⟩
    | unplaced => exact args.consume_rewrites (.put .refl ⟨rfl, rfl, trivial⟩) ⟨rfl, rfl⟩ ⟨rfl, rfl⟩
  | CancelRetention args => exact accepts.elim
  | _ =>
    -- the rest write one or two records, or remove one and write one
    cases accepts <;> first
      | exact .refl
      | exact .put .refl ⟨rfl, rfl, trivial⟩
      | exact .put (.put .refl ⟨rfl, rfl, trivial⟩) ⟨rfl, rfl, trivial⟩
      | exact .put (.remove .refl ⟨rfl, rfl⟩) ⟨rfl, rfl, trivial⟩

theorem MetadataCommand.Spilled.rewrites
    (spills : command.Spilled applyIndex before error after) : before.Rewrites command.MayWrite after := by
  cases command with
  | AssignMemberRanges args =>
    cases spills
    exact .put .refl ⟨rfl, rfl, trivial⟩
  | EnsureGroupMemberForRange args | EnsureGroupMemberCoordinated args =>
    have named := spills.2.admits.nameFits
    exact spills.2.rewrites (fun _ => ⟨rfl, rfl, named⟩) (fun _ => ⟨rfl, rfl, trivial⟩) fun _ => ⟨rfl, rfl, trivial⟩
  | _ => exact spills.elim

theorem MetadataCommand.Effect.rewrites [External]
    (effect : command.Effect applyIndex before response after) : before.Rewrites command.MayWrite after := by
  cases effect with
  | accepted accepts => exact accepts.rewrites
  | refused => exact .refl
  | spilled spills => exact spills.rewrites

/-- A record of a kind the command does not write is what it was. -/
theorem MetadataCommand.Effect.record_eq [External]
    (effect : command.Effect applyIndex before response after) (untouched : command.writes key.category = false) :
    after.record key = before.record key := by
  refine effect.rewrites.record_eq fun value admitted => ?_
  cases value <;> exact absurd admitted.1 (by simp [untouched])

theorem MetadataCommand.Effect.stays [External] (effect : command.Effect applyIndex before response after)
    (kept : key.isRemovable = false) (kind : ∀ value, keyMatchesValue key value = true → view value ≠ none)
    (present : before.lookup view key ≠ none) : after.lookup view key ≠ none :=
  effect.rewrites.stays (fun admitted => absurd admitted.2 (by simp [kept])) (fun _ admitted => kind _ admitted.2.1) present

theorem MetadataCommand.Effect.lookup_eq [External] (effect : command.Effect applyIndex before response after)
    (untouched : command.writes key.category = false) : after.lookup view key = before.lookup view key :=
  congrArg (·.bind view) (effect.record_eq untouched)

def MetaKey.isMembership : MetaKey → Bool
  | Group .. | GroupByName .. | GroupMember .. => true
  | _ => false

/-- A refusal that comes after a write has written groups, their names and members only. -/
theorem MetadataCommand.Spilled.record_eq
    (spills : command.Spilled applyIndex before error after) (other : key.isMembership = false) :
    after.record key = before.record key := by
  refine spills.rewrites.record_eq fun value admitted => ?_
  have written : command.writes key.category = true := by cases value <;> exact admitted.1
  cases command with
  | AssignMemberRanges args => cases key <;> simp_all [writes, category, isMembership]
  | EnsureGroupMemberForRange args | EnsureGroupMemberCoordinated args =>
    cases key <;> simp_all [writes, category, isMembership]
  | _ => exact spills.elim

theorem MetadataCommand.Spilled.lookup_eq (spills : command.Spilled applyIndex before error after)
    (other : key.isMembership = false) : after.lookup view key = before.lookup view key :=
  congrArg (·.bind view) (spills.record_eq other)

/-- Only an accepted command that writes the kind changes a record outside the groups. -/
theorem MetadataCommand.Effect.accepted_of_changed [External] (effect : command.Effect applyIndex before response after)
    (other : key.isMembership = false) (changed : after.lookup view key ≠ before.lookup view key) :
    command.writes key.category = true ∧ command.Accepted applyIndex before response after := by
  refine ⟨?_, ?_⟩
  · by_contra untouched
    exact changed (effect.lookup_eq (Bool.not_eq_true _ |>.mp untouched))
  · cases effect with
    | accepted accepts => exact accepts
    | refused => exact absurd rfl changed
    | spilled spills => exact absurd (spills.lookup_eq other) changed

/-- What holds of the members of every recorded set is kept, if it holds of those that the command records. -/
theorem MetadataCommand.Effect.replicaSets [External] (Fit : List Uuid → Prop)
    (effect : command.Effect applyIndex before response after)
    (fit : ∀ topic range set, before.replicaSet? topic range = some set → Fit set.members)
    (named : ∀ args, command = .SetRangeReplicaSet args → sortedMembers args.members ≠ [] →
      (sortedMembers args.members).length = args.members.length → Fit (sortedMembers args.members)) :
    ∀ topic range set, after.replicaSet? topic range = some set → Fit set.members := by
  intro topic range set found
  by_cases same : after.replicaSet? topic range = before.replicaSet? topic range
  · exact fit topic range set (same ▸ found)
  obtain ⟨writes, accepts⟩ := effect.accepted_of_changed rfl same
  cases command <;> simp [MetadataCommand.writes, MetaKey.category] at writes
  case SplitRange args =>
    cases accepts with
    | replay => exact absurd rfl same
    | split =>
      obtain earlier | ⟨inherited, recorded, members⟩ := replicaSet?_split _ _ _ _ _ _ _ found
      · exact fit topic range set earlier
      · exact members ▸ fit _ _ inherited recorded
  case SetRangeReplicaSet args =>
    cases accepts with
    | same => exact absurd rfl same
    | change _ nonempty distinct =>
      simp only [replicaSet?_put] at found
      split at found
      · cases found
        exact named args rfl nonempty distinct
      · exact fit topic range set (by simpa using found)

end Frame

end VtopEngine.Meta
