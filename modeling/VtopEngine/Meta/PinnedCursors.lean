import VtopEngine.Meta.Atomicity
import VtopEngine.Meta.Ownership
import VtopEngine.Meta.SegmentLifecycle

/-! # Pinned cursors and the life of their segment

A cursor pinned to a segment names the generation the segment had when it was
committed, and the next commit in the segment must name the same one, although it
must also name the one the segment has now.  So a commit that goes forward in the
segment is accepted exactly until the segment's life moves on
(`forward_commit_accepted_iff`, `verified_segment_strands`).
-/

namespace VtopEngine.Meta

open Lib MetaStateMachine Txn

/-! ## What a stored cursor goes on agreeing with -/

theorem MetadataCommand.Effect.topic_stays [External] {command : MetadataCommand}
    (effect : command.Effect applyIndex before response after) (found : before.topic? topic = some record) :
    after.topic? topic = some record := by
  cases effect.topicMove with
  | kept _ topics => exact (topics topic).trans found
  | created name topic' absent _ topics =>
    rw [topics, if_neg, found]
    rintro rfl
    cases absent.symm.trans found

/-- The cursor names its topic's epoch and, pinned, the root of its segment. -/
def Records.Agree (records : Records) (topic range : Uuid) (cursor : CursorCheckpointRecord) : Prop :=
  (∃ record ∈ records.topic? topic, record.topicEpoch = cursor.topicEpoch) ∧ (cursor.segmentUuid ≠ 0 →
      ∃ segment ∈ records.segment? topic range cursor.segmentUuid, segment.contentRoot = cursor.segmentRoot)

theorem MetaStateMachine.Reached.cursors_agree [External] {machine : MetaStateMachine} (reached : machine.Reached) :
    ∀ group topic range cursor, machine.records.cursor? group topic range = some cursor →
      machine.records.Agree topic range cursor := by
  refine reached.cursors_invariant Records.Agree ?_ ?_
  · refine fun records args record generation admits => ⟨admits.topic, fun pinned => ?_⟩
    obtain ⟨-, segment, registered, -, root, -⟩ := admits.pin.resolve_left fun unpinned => pinned unpinned.1
    exact ⟨segment, registered, root⟩
  · rintro machine applyIndex command response after topic range cursor - effect ⟨⟨record, found, epoch⟩, pin⟩
    refine ⟨⟨record, effect.topic_stays found, epoch⟩, fun pinned => ?_⟩
    obtain ⟨segment, registered, root⟩ := pin pinned
    obtain ⟨later, registered', continues⟩ :=
      (effect.segmentMove topic range cursor.segmentUuid).continues.segment segment registered
    exact ⟨later, registered', continues.contentRoot.trans root⟩

/-! ## Forward commits -/

/-- The commit moves a pinned cursor forward inside its segment, and everything it
    names is what is registered now. -/
@[mk_iff]
structure CommitCursorArgs.Forward (args : CommitCursorArgs) (records : Records) (existing : CursorCheckpointRecord)
    (segment : SegmentRecord) : Prop where
  stored : records.cursor? args.groupUuid args.topicUuid args.rangeUuid = some existing
  pinned : existing.segmentUuid ≠ 0
  owns : ∃ member ∈ records.member? args.groupUuid args.memberUuid, args.assignment ∈ member.assigned
  topic : ∃ topic ∈ records.topic? args.topicUuid, topic.topicEpoch = args.topicEpoch
  range : ∃ range ∈ records.range? args.topicUuid args.rangeUuid, range.lineageGeneration = args.rangeGeneration
  expected : args.expectedCheckpointGeneration = some existing.checkpointGeneration
  room : existing.checkpointGeneration < 0xFFFFFFFFFFFFFFFF
  same : args.segmentUuid = existing.segmentUuid
  registered : records.segment? args.topicUuid args.rangeUuid args.segmentUuid = some segment
  generation : segment.segmentGeneration = args.segmentGeneration
  root : segment.contentRoot = args.segmentRoot
  forward : existing.recordOffset < args.recordOffset
    ∨ existing.recordOffset = args.recordOffset ∧ existing.recordIndex ≤ args.recordIndex
  inside : segment.baseOffset ≤ args.recordOffset ∧ args.recordOffset ≤ segment.nextOffset

instance (args : CommitCursorArgs) (records : Records) (existing : CursorCheckpointRecord) (segment : SegmentRecord) :
    Decidable (args.Forward records existing segment) :=
  decidable_of_iff _ (args.forward_iff records existing segment).symm

section Forward

variable [External] {machine : MetaStateMachine} {args : CommitCursorArgs} {existing : CursorCheckpointRecord}
  {segment : SegmentRecord}

theorem CommitCursorArgs.Forward.advanceRefusal_iff (forward : args.Forward machine.records existing segment)
    (reached : machine.Reached) (legacy generation) :
    advanceRefusal existing args legacy generation = none ↔ existing.segmentGeneration = args.segmentGeneration := by
  obtain ⟨⟨topic, topical, epoch⟩, pin⟩ := reached.cursors_agree _ _ _ _ forward.stored
  obtain ⟨topic', topical', epoch'⟩ := forward.topic
  cases topical.symm.trans topical'
  obtain ⟨segment', registered', root'⟩ := pin forward.pinned
  have registered := forward.registered
  rw [forward.same] at registered
  cases registered.symm.trans registered'
  have back : ¬ (args.recordOffset < existing.recordOffset
      ∨ args.recordOffset = existing.recordOffset ∧ args.recordIndex < existing.recordIndex) := by
    have := forward.forward
    simp only [UInt64.lt_iff_toNat_lt, UInt64.le_iff_toNat_le, ← UInt64.toNat_inj] at this ⊢
    omega
  have sameEpoch : existing.topicEpoch = args.topicEpoch := epoch.symm.trans epoch'
  have sameRoot : args.segmentRoot = existing.segmentRoot := forward.root.symm.trans root'
  simp only [advanceRefusal, cursorIsForwardOrEqual, forward.same, forward.pinned, sameEpoch, sameRoot, if_neg back]
  -- all the comparison is left with is the generation
  by_cases generation : args.segmentGeneration = existing.segmentGeneration
  · simp [generation]
  · simp [generation, Ne.symm generation]

theorem CommitCursorArgs.Forward.passes_iff (forward : args.Forward machine.records existing segment)
    (reached : machine.Reached) : args.Passes machine.records ↔ existing.segmentGeneration = segment.segmentGeneration := by
  obtain ⟨value, stored, seen⟩ := Option.bind_eq_some_iff.mp forward.stored
  cases value <;> simp only [MetaValue.asGroupCursor, reduceCtorEq, Option.some.injEq] at seen
  subst seen
  rw [forward.generation, CommitCursorArgs.Passes, stored]
  constructor
  · rintro ⟨range, -, -, allowed, -⟩
    exact (forward.advanceRefusal_iff reached _ _).mp allowed
  · intro current
    obtain ⟨member, joined, -⟩ := forward.owns
    obtain ⟨range, ranged, lineage⟩ := forward.range
    have group := reached.membersGrouped _ _ (Option.ne_none_iff_exists'.mpr ⟨member, joined⟩)
    have pin : args.PinValid machine.records := .inr ⟨forward.same ▸ forward.pinned, segment, forward.registered,
      forward.generation, forward.root, forward.inside⟩
    refine ⟨range, ⟨group, forward.owns, forward.topic, ranged, .inl lineage, pin⟩, forward.expected,
      (forward.advanceRefusal_iff reached _ _).mpr current, ?_⟩
    simp [checkedSucc, UInt64.ne_of_lt forward.room]

end Forward

/-- A forward commit is acknowledged exactly if it was before and is answered again, or, executed and under the lease
    its kind asks for, if its segment still has the generation the cursor was pinned at. -/
theorem forward_commit_accepted_iff [External] {machine : MetaStateMachine} (reached : machine.Reached)
    {command : MetadataCommand} {args : CommitCursorArgs} (commits : command.cursorCommit = some args)
    {existing : CursorCheckpointRecord} {segment : SegmentRecord}
    (forward : args.Forward machine.records existing segment) (applyIndex : UInt64) :
    (∃ generation next, machine.Step ⟨applyIndex, command, .CursorCommitted generation⟩ next)
      ↔ (∃ generation, machine.appliedResponse command.envelope.requestId = some (.CursorCommitted generation))
        ∨ machine.appliedResponse command.envelope.requestId = none ∧ command.CursorGate machine.records
          ∧ existing.segmentGeneration = segment.segmentGeneration := by
  cases remembered : machine.appliedResponse command.envelope.requestId with
  | some original => simp [Step, apply, remembered]
  | none =>
    rw [← forward.passes_iff reached]
    constructor
    · rintro ⟨generation, next, step⟩
      exact .inr ⟨rfl, (step.commits_iff commits remembered).mp ⟨generation, rfl⟩⟩
    · rintro (⟨_, ⟨⟩⟩ | ⟨-, gate, passes⟩)
      obtain ⟨_, next, step, generation, rfl⟩ :=
        step_of_wp applyIndex command remembered (passes.runs_command commits gate applyIndex)
      exact ⟨generation, next, step⟩

section PinnedLog

attribute [local instance] External.plain

/-- A commit in segment 40 of the range. -/
def pinnedCommit (requestId : Uuid) (segmentGeneration recordOffset : UInt64) (expected : Option UInt64) :
    Command.CommitGroupCursor where
  env := ⟨requestId, 0⟩
  cursor :=
    { groupUuid := 30, memberUuid := 31, topicUuid := 10, rangeUuid := 11, topicEpoch := 1, rangeGeneration := 0,
      segmentUuid := 40, segmentGeneration, segmentRoot := Vector.replicate 32 0, recordOffset, recordIndex := 0,
      lineageTransitionId := none, expectedCheckpointGeneration := expected }

/-- The segment is sealed, and the group's cursor pinned to it. -/
def pinnedMachine : MetaStateMachine :=
  new.afterLog (consumedLog ++ [ (7, .RegisterSealedSegment
      { env := ⟨7, 0⟩, topicUuid := 10, rangeUuid := 11, segmentUuid := 40, segmentGeneration := 0, baseOffset := 0,
        nextOffset := 9, contentRoot := Vector.replicate 32 0, sealedByEpoch := 1, expectedRangeGeneration := 1 }),
    (8, .CommitGroupCursor (pinnedCommit 8 0 5 none))])

/-- The segment is then verified. -/
def verifiedMachine : MetaStateMachine :=
  pinnedMachine.afterLog [(9, .MarkSegmentVerified
    { env := ⟨9, 0⟩, topicUuid := 10, rangeUuid := 11, segmentUuid := 40, contentRoot := Vector.replicate 32 0,
      expectedGeneration := 0 })]

def pinnedSegment (state : SegmentState) (segmentGeneration : UInt64) : SegmentRecord :=
  { segmentGeneration, baseOffset := 0, nextOffset := 9, contentRoot := Vector.replicate 32 0, state, sealedByEpoch := 1 }

theorem pinnedCommit_accepted : ∃ generation next, pinnedMachine.Step
      ⟨10, .CommitGroupCursor (pinnedCommit 10 0 6 (some 0)), .CursorCommitted generation⟩ next :=
  (forward_commit_accepted_iff (Reached.afterLog Reachable.refl _) rfl
    (by decide +kernel : CommitCursorArgs.Forward _ _ ((pinnedCommit 8 0 5 none).cursor.checkpoint 0 0)
      (pinnedSegment .SealedUnverified 0)) 10).mpr (.inr ⟨by decide +kernel, trivial, rfl⟩)

/-- The same commit after the segment was verified, naming the generation it now has. -/
theorem verified_segment_strands : verifiedMachine.Reached
      ∧ (pinnedCommit 10 1 6 (some 0)).cursor.Forward verifiedMachine.records
        ((pinnedCommit 8 0 5 none).cursor.checkpoint 0 0) (pinnedSegment .Verified 1)
      ∧ ∃ next, verifiedMachine.Step ⟨10, .CommitGroupCursor (pinnedCommit 10 1 6 (some 0)),
        .Rejected (.invalidTransition "same segment identity changed generation or root")⟩ next :=
  ⟨Reached.afterLog (Reached.afterLog Reachable.refl _) _, by decide +kernel, _, rfl⟩

end PinnedLog

end VtopEngine.Meta
