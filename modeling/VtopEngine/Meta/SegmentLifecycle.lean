import VtopEngine.Meta.ReplicaMoves

/-! # The life of a segment

* `SegmentState.Edge` — the moves of a segment's state; no step takes another.
* `SegmentView.Continues` — what a registered segment and its tier copy keep; every
  step keeps it, so a whole run does.
* `segment_lifecycle` — both, and what deleting a segment takes.
-/

namespace VtopEngine.Meta

open Lib MetaStateMachine

inductive SegmentState.Edge : SegmentState → SegmentState → Prop
  | verify : Edge .SealedUnverified .Verified
  | planRetirement : Edge .Verified .RetirePlanned
  | survive : Edge .RetirePlanned .Verified
  | retire : Edge .RetirePlanned .Retired
  | planRetention : Edge .Verified .RetentionPlanned
  | expire : Edge .RetentionPlanned .RetentionExpired

/-- The same segment later: what was sealed is what it was, under a generation that
    only grows. -/
structure SegmentRecord.Continues (record later : SegmentRecord) : Prop where
  baseOffset : later.baseOffset = record.baseOffset
  nextOffset : later.nextOffset = record.nextOffset
  contentRoot : later.contentRoot = record.contentRoot
  sealedByEpoch : later.sealedByEpoch = record.sealedByEpoch
  segmentGeneration : record.segmentGeneration ≤ later.segmentGeneration

structure SegmentView.Continues (view later : SegmentView) : Prop where
  segment : ∀ record, view.segment = some record → ∃ record', later.segment = some record' ∧ record.Continues record'
  tierCopy : ∀ copy, view.tierCopy = some copy → later.tierCopy = some copy

variable {view next : SegmentView} {command : MetadataCommand} {topic range segment : Uuid}

theorem SegmentRecord.Continues.refl (record : SegmentRecord) : record.Continues record :=
  ⟨rfl, rfl, rfl, rfl, UInt64.le_refl _⟩

theorem SegmentRecord.Continues.trans {first second third : SegmentRecord} (earlier : first.Continues second)
    (later : second.Continues third) : first.Continues third where
  baseOffset := later.baseOffset.trans earlier.baseOffset
  nextOffset := later.nextOffset.trans earlier.nextOffset
  contentRoot := later.contentRoot.trans earlier.contentRoot
  sealedByEpoch := later.sealedByEpoch.trans earlier.sealedByEpoch
  segmentGeneration := UInt64.le_trans earlier.segmentGeneration later.segmentGeneration

theorem SegmentRecord.Continues.restated {record : SegmentRecord} {state}
    (next : checkedSucc record.segmentGeneration = some generation) :
    record.Continues { record with state, segmentGeneration := generation } := by
  refine ⟨rfl, rfl, rfl, rfl, UInt64.le_iff_toNat_le.mpr ?_⟩
  rw [(checkedSucc_eq_some next).2]
  exact Nat.le_succ _

namespace SegmentView

theorem Continues.refl (view : SegmentView) : view.Continues view :=
  ⟨fun record found => ⟨record, found, .refl record⟩, fun _ found => found⟩

theorem Continues.trans {first second third : SegmentView} (earlier : first.Continues second)
    (later : second.Continues third) : first.Continues third := by
  refine ⟨fun record found => ?_, fun copy found => later.tierCopy copy (earlier.tierCopy copy found)⟩
  obtain ⟨record', found', continues⟩ := earlier.segment record found
  obtain ⟨record'', found'', continues'⟩ := later.segment record' found'
  exact ⟨record'', found'', continues.trans continues'⟩

/-- A step that only restates the segment, under the next generation. -/
theorem Continues.restated
    (found : view.segment = some record) (next' : checkedSucc record.segmentGeneration = some generation)
    (stored : next.segment = some { record with state, segmentGeneration := generation })
    (archived : next.tierCopy = view.tierCopy) : view.Continues next := by
  refine ⟨fun record' found' => ?_, fun copy copied => archived.trans copied⟩
  cases found.symm.trans found'
  exact ⟨_, stored, .restated next'⟩

section

variable (move : Move command topic range segment view next)

include move

theorem Move.continues : view.Continues next := by
  cases move with
  | stay | place | prove | propose | cancel => exact { Continues.refl view with }
  | register _ _ _ absent =>
    refine ⟨fun record found => ?_, fun _ copied => copied⟩
    cases absent.symm.trans found
  | verify found _ next | planRetirement found _ _ _ _ _ _ next | retire found _ _ _ _ _ next
  | retireUnplaced found _ _ _ next | planRetention _ _ found _ _ _ next | expire _ _ found _ next =>
    exact .restated found next rfl rfl
  | archive absent =>
    refine ⟨fun record found => ⟨record, found, .refl record⟩, fun copy copied => ?_⟩
    cases absent.symm.trans copied

/-- A segment enters the table unverified, and then moves along the edges. -/
theorem Move.edge (found' : next.segment = some record') : view.segment = none ∧ record'.state = .SealedUnverified
      ∨ ∃ record, view.segment = some record ∧ (record'.state = record.state ∨ record.state.Edge record'.state) := by
  cases move with
  | stay | place | prove | propose | cancel | archive => exact .inr ⟨record', found', .inl rfl⟩
  | register _ _ _ absent state =>
    cases found'
    exact .inl ⟨absent, state⟩
  | verify found state =>
    cases found'
    exact .inr ⟨_, found, .inr (state ▸ .verify)⟩
  | planRetirement found state =>
    cases found'
    exact .inr ⟨_, found, .inr (state ▸ .planRetirement)⟩
  | retire found state =>
    cases found'
    exact .inr ⟨_, found, .inr (state ▸ .survive)⟩
  | retireUnplaced found state =>
    cases found'
    exact .inr ⟨_, found, .inr (state ▸ .retire)⟩
  | planRetention _ _ found state =>
    cases found'
    exact .inr ⟨_, found, .inr (state ▸ .planRetention)⟩
  | expire _ _ found state =>
    cases found'
    exact .inr ⟨_, found, .inr (state ▸ .expire)⟩

/-- Only `PlanRetention` plans a retention. -/
theorem Move.plansRetention (found' : next.segment = some record') (planned : record'.state = .RetentionPlanned) :
    view.segment = some record' ∨ ∃ args, command = .PlanRetention args ∧ args.topicUuid = topic ∧ args.rangeUuid = range
        ∧ args.segmentUuid = segment := by
  cases move with
  | stay | place | prove | propose | cancel | archive => exact .inl found'
  | planRetention plans target => exact .inr ⟨_, plans, target⟩
  | register _ _ _ _ state =>
    cases found'
    cases planned.symm.trans state
  | verify | planRetirement | retire | retireUnplaced | expire =>
    cases found'
    cases planned

end

end SegmentView

section Reached

variable [External] {machine after : MetaStateMachine} {event : Event} {events : List Event}

theorem MetaStateMachine.Reached.segment_continues (reached : machine.Reached)
    (run : Run Step machine events after) (topic range segment) :
    (machine.records.segmentView topic range segment).Continues (after.records.segmentView topic range segment) :=
  reached.records_evolve run
    (fun before after => (before.segmentView topic range segment).Continues (after.segmentView topic range segment))
    (fun _ => .refl _) (fun _ _ _ earlier later => earlier.trans later)
    fun _ _ _ _ _ _ effect => (effect.segmentMove topic range segment).continues

/-- Everything that has to be true for a segment's deletion to be authorised. -/
structure Records.MayPlanRetention (records : Records) (topic range segment : Uuid) (epoch : UInt64)
    (record : SegmentRecord) : Prop where
  found : records.segment? topic range segment = some record
  leased : records.LeasedAt topic range epoch
  unlocked : records.intent? topic range segment = none
  unproven : records.proof? topic range segment = none
  consumed : ∀ group cursor, records.cursor? group topic range = some cursor → record.nextOffset ≤ cursor.recordOffset
  authorised : records.DeletionAuthorised topic range segment record.contentRoot

theorem MetaStateMachine.Step.plansRetention (step : machine.Step event after)
    (plans : event.command = .PlanRetention args) : after.records = machine.records
      ∨ ∃ record, machine.records.MayPlanRetention args.topicUuid args.rangeUuid args.segmentUuid args.fencingEpoch
        record := by
  obtain ⟨applyIndex, command, response⟩ := event
  obtain rfl : command = .PlanRetention args := plans
  cases apply_cases step with
  | replayed => exact .inl rfl
  | executed _ effect =>
    rw [records_remember]
    cases effect with
    | refused => exact .inl rfl
    | spilled spills => exact spills.elim
    | accepted accepts =>
      cases accepts with
      | intro found held epoch sealedSegment _ unlocked unproven authorised consumed =>
        exact .inr ⟨_, sealedSegment, ⟨_, _, found, held, epoch.symm⟩, Records.lookup_of_absent unlocked,
          Records.lookup_of_absent unproven, consumed, authorised⟩

/-- Along every run a registered segment keeps what was sealed and its state moves
    along the edges; a tier copy stays as it was written; and retention is planned
    only for a segment that may be deleted. -/
theorem segment_lifecycle (reached : machine.Reached) (topic range segment : Uuid) :
    (∀ events after record, Run Step machine events after → machine.records.segment? topic range segment = some record →
      ∃ record', after.records.segment? topic range segment = some record'
        ∧ record'.baseOffset = record.baseOffset ∧ record'.nextOffset = record.nextOffset
        ∧ record'.contentRoot = record.contentRoot ∧ record'.sealedByEpoch = record.sealedByEpoch
        ∧ record.segmentGeneration ≤ record'.segmentGeneration)
    ∧ (∀ event after record record', machine.Step event after → machine.records.segment? topic range segment = some record →
      after.records.segment? topic range segment = some record' →
      record'.state = record.state ∨ record.state.Edge record'.state)
    ∧ (∀ event after record', machine.Step event after →
      after.records.segment? topic range segment = some record' → record'.state = .RetentionPlanned →
      machine.records.segment? topic range segment ≠ some record' →
      ∃ args record, event.command = .PlanRetention args
        ∧ machine.records.MayPlanRetention topic range segment args.fencingEpoch record)
    ∧ ∀ events after copy, Run Step machine events after → machine.records.tierCopy? topic range segment = some copy →
      after.records.tierCopy? topic range segment = some copy := by
  refine ⟨fun events after record run found => ?_, fun event after record record' step found found' => ?_,
    fun event after record' step found' planned new => ?_,
    fun events after copy run => (reached.segment_continues run topic range segment).tierCopy copy⟩
  · obtain ⟨record', found', continues⟩ := (reached.segment_continues run topic range segment).segment record found
    exact ⟨record', found', continues.1, continues.2, continues.3, continues.4, continues.5⟩
  · obtain ⟨absent, -⟩ | ⟨_, same, moved⟩ := (Step.segmentMove step topic range segment).edge found'
    · cases absent.symm.trans found
    · cases found.symm.trans same
      exact moved
  · obtain same | ⟨args, plans, rfl, rfl, rfl⟩ := (Step.segmentMove step topic range segment).plansRetention found' planned
    · exact absurd same new
    · obtain unchanged | ⟨record, may⟩ := Step.plansRetention step plans
      · exact absurd (unchanged ▸ found') new
      · exact ⟨args, record, plans, may⟩

end Reached

section PlannedSegment

attribute [local instance] External.plain

/-- The topic of the placed segment lets unarchived segments be deleted. -/
def deletableMachine : MetaStateMachine :=
  placedMachine.afterLog [(7, .SetTopicRetentionPolicy
    { env := ⟨7, 0⟩, topicUuid := 10, unarchivedDeletionAllowed := true, expectedGeneration := none })]

def planRequest : MetadataCommand :=
  .PlanRetention
    { env := ⟨8, 0⟩, topicUuid := 10, rangeUuid := 11, segmentUuid := 20, expectedSegmentGeneration := 1,
      fencingEpoch := 1 }

theorem planRequest_was_authorised :
    ((deletableMachine.afterLog [(8, planRequest)]).records.segment? 10 11 20).map (·.state) = some .RetentionPlanned
      ∧ ∃ record, deletableMachine.records.MayPlanRetention 10 11 20 1 record := by
  have planned : ((deletableMachine.afterLog [(8, planRequest)]).records.segment? 10 11 20).map (·.state)
      = some .RetentionPlanned := by decide +kernel
  have before : (deletableMachine.records.segment? 10 11 20).map (·.state) = some .Verified := by decide +kernel
  have reached : deletableMachine.Reached := (leasedMachine_reached.afterLog _).afterLog _
  have step : deletableMachine.Step ⟨8, planRequest, .Ack 2⟩ (deletableMachine.afterLog [(8, planRequest)]) := rfl
  obtain ⟨record', found', state⟩ := Option.map_eq_some_iff.mp planned
  have new : deletableMachine.records.segment? 10 11 20 ≠ some record' := by
    intro same
    rw [same] at before
    cases state.symm.trans (Option.some.inj before)
  obtain ⟨args, record, plans, may⟩ := (segment_lifecycle reached 10 11 20).2.2.1 _ _ record' step found' state new
  cases plans
  exact ⟨planned, record, may⟩

end PlannedSegment

end VtopEngine.Meta
