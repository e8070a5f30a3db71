import VtopEngine.Meta.Atomicity
import VtopEngine.Meta.CursorDiscipline
import VtopEngine.Meta.SegmentLifecycle

/-! # The barrier of a sealed range

A split seals its parent at a barrier above everything registered or committed
there, and no segment is registered past it.  A cursor commit is not held against
the barrier: an unpinned one may overrun it.  `sealed_history_ends_at_barrier` says
that this is the only way past.
-/

namespace VtopEngine.Meta

open Lib MetaKey MetaStateMachine

/-- The segments and cursors of a range end at the barrier. -/
structure Records.EndsAt (records : Records) (topic range : Uuid) (barrier : UInt64) : Prop where
  segments : ∀ segment record, records.segment? topic range segment = some record → record.nextOffset ≤ barrier
  cursors : ∀ group cursor, records.cursor? group topic range = some cursor → cursor.recordOffset ≤ barrier

/-- The history of every sealed range ends at its barrier. -/
def Records.EndsAtBarriers (records : Records) : Prop :=
  ∀ topic range record sealing, records.range? topic range = some record → record.sealedAt = some sealing →
    records.EndsAt topic range sealing.barrierOffset

/-! ## What a split has checked -/

theorem le_foldl_max {offsets : List UInt64} (among : offset ≤ start ∨ offset ∈ offsets) :
    offset ≤ offsets.foldl max start := by
  induction offsets generalizing start with
  | nil => simpa using among
  | cons first rest ih =>
    have larger : max start first = if start ≤ first then first else start := rfl
    refine ih ?_
    rcases among with below | (_ | ⟨_, later⟩)
    · left
      rw [larger]
      split
      · next above => exact UInt64.le_trans below above
      · exact below
    · left
      rw [larger]
      split
      · exact UInt64.le_refl _
      · next above => exact UInt64.le_of_lt (UInt64.not_le.mp above)
    · exact .inr later

theorem MetaKey.segment_interval (topic range segment) :
    compare (Segment topic range 0).encode (Segment topic range segment).encode ≠ .gt
      ∧ compare (Segment topic range segment).encode (Segment topic range (BitVec.allOnes 128)).encode ≠ .gt := by
  simp only [encode, category, body, List.append_assoc, compare_append, length_putU16, length_putU8, length_putUuid,
    compare_putUuid, Std.ReflCmp.compare_self, Ordering.eq_then, Nat.compare_ne_gt]
  have := segment.isLt
  refine ⟨Nat.zero_le _, ?_⟩
  rw [BitVec.toNat_allOnes]
  omega

/-- No registered segment ends above the registered coverage. -/
theorem Records.nextOffset_le_registeredEnd {records : Records} {segment} {record}
    (found : records.segment? topic range segment = some record) :
    record.nextOffset ≤ records.registeredEnd topic range := by
  obtain ⟨value, stored, seen⟩ := Option.bind_eq_some_iff.mp found
  refine le_foldl_max (.inr (List.mem_filterMap.mpr ⟨((Segment topic range segment).encode, value), ?_, ?_⟩))
  · refine List.mem_filter.mpr ⟨mem_entries.mpr stored, ?_⟩
    simpa using segment_interval topic range segment
  · exact Option.map_eq_some_iff.mpr ⟨record, seen, rfl⟩

/-- No cursor on the range is above the highest one the scan finds. -/
theorem Records.recordOffset_le_cursorEnd {records : Records}
    (stored : records.cursor? group topic range = some cursor) : cursor.recordOffset ≤ records.cursorEnd topic range := by
  obtain ⟨value, found, seen⟩ := Option.bind_eq_some_iff.mp stored
  refine le_foldl_max (.inr (List.mem_filterMap.mpr ⟨((GroupCursor group topic range).encode, value), ?_, ?_⟩))
  · exact mem_entries.mpr found
  · cases value <;> simp only [MetaValue.asGroupCursor, reduceCtorEq, Option.some.injEq] at seen
    subst seen
    have reads : decode (GroupCursor group topic range).encode = .ok (.GroupCursor group topic range) :=
      decode_encode trivial
    simp [cursorOffsetOn, reads]

/-! ## New seals -/

variable {command : MetadataCommand} {applyIndex : UInt64} {before after : Records} {response : MetadataResponse}
  {topic range : Uuid}

section Seals

variable [External]

/-- A range is sealed by a split only, at a barrier above all it holds. -/
theorem MetadataCommand.Accepted.seals (accepts : command.Accepted applyIndex before response after)
    (found : after.range? topic range = some record) (sealed : record.sealedAt = some sealing) :
    (∃ record, before.range? topic range = some record ∧ record.sealedAt = some sealing)
      ∨ ∃ args, command = .SplitRange args ∧ before.EndsAt topic range sealing.barrierOffset := by
  have move := accepts.rangeMove topic range
  generalize after.range? topic range = next at move found
  cases move with
  | stay => exact .inl ⟨record, found, sealed⟩
  | create _ _ _ _ unsealed =>
    cases found
    cases unsealed.symm.trans sealed
  | lease earlier | renew earlier | release earlier | register earlier =>
    cases found
    exact .inl ⟨_, earlier, sealed⟩
  | split _ splits _ coverage cursors =>
    cases found
    cases sealed
    exact .inr ⟨_, splits, fun _ _ found => UInt64.le_trans (Records.nextOffset_le_registeredEnd found) coverage,
      fun _ _ stored => UInt64.le_trans (Records.recordOffset_le_cursorEnd stored) cursors⟩

end Seals

/-! ## The only way past a barrier -/

/-- A segment that was not there is there because it was registered. -/
theorem SegmentView.Move.registers {segment}
    (move : SegmentView.Move command topic range segment view next) (absent : view.segment = none)
    (found : next.segment = some record) :
    ∃ args, command = .RegisterSealedSegment args ∧ args.topicUuid = topic ∧ args.rangeUuid = range
      ∧ record.nextOffset = args.nextOffset := by
  cases move with
  | register registers target ends =>
    cases found
    exact ⟨_, registers, target.1, target.2.1, ends⟩
  | stay | place | prove | propose | cancel | archive => cases absent.symm.trans found
  | verify present | planRetirement present | retire present | retireUnplaced present
  | planRetention _ _ present | expire _ _ present => cases absent.symm.trans present

/-- The command is an unpinned commit past the barrier of a sealed range. -/
structure CommitCursorArgs.Overruns (args : CommitCursorArgs) (records : Records) : Prop where
  unpinned : args.segmentUuid = 0
  past : ∃ record sealing, records.range? args.topicUuid args.rangeUuid = some record ∧ record.sealedAt = some sealing
    ∧ sealing.barrierOffset < args.recordOffset

section Overruns

variable [External]

section

variable (accepts : command.Accepted applyIndex before response after)

include accepts

section

variable (inside : ∀ args, command.cursorCommit = some args → ¬ args.Overruns before)

include inside

/-- Without an overrun a command leaves a sealed range inside its barrier. -/
theorem MetadataCommand.Accepted.endsAt (found : before.range? topic range = some record)
    (sealed : record.sealedAt = some sealing)
    (ends : before.EndsAt topic range sealing.barrierOffset) : after.EndsAt topic range sealing.barrierOffset := by
  have effect : command.Effect applyIndex before response after := .accepted accepts
  refine ⟨fun segment later registered => ?_, fun group cursor stored => ?_⟩
  · have move := effect.segmentMove topic range segment
    cases present : before.segment? topic range segment with
    | some earlier =>
      obtain ⟨_, same, continues⟩ := move.continues.segment earlier present
      cases registered.symm.trans same
      exact continues.nextOffset ▸ ends.segments segment earlier present
    | none =>
      obtain ⟨args, rfl, rfl, rfl, length⟩ := move.registers present registered
      obtain @⟨range', _, _, ranged, _, _, _, _, gate, _⟩ := accepts
      cases found.symm.trans ranged
      rw [sealed, barrierRefusal] at gate
      split at gate
      · cases gate
      · next below => exact length ▸ UInt64.not_lt.mp below
  · obtain same | ⟨args, commits, ⟨rfl, rfl, rfl⟩, accepted⟩ := effect.cursor_cases group topic range
    · exact ends.cursors group cursor (same ▸ stored)
    · obtain ⟨_, generation, admits, -, written⟩ := accepted.cursor?_eq args.groupUuid args.topicUuid args.rangeUuid
      rw [if_pos ⟨rfl, rfl, rfl⟩] at written
      cases written.symm.trans stored
      rcases admits.pin with ⟨unpinned, -⟩ | ⟨-, segment, pinned, _, _, _, below⟩
      · by_contra past
        exact inside args commits ⟨unpinned, record, sealing, found, sealed, UInt64.not_le.mp past⟩
      · -- a pinned cursor is inside its segment, which is inside the barrier
        exact UInt64.le_trans below (ends.segments _ segment pinned)

theorem MetadataCommand.Accepted.endsAtBarriers (ends : before.EndsAtBarriers) : after.EndsAtBarriers := by
  intro topic range record sealing found sealed
  obtain ⟨earlier, found', sealed'⟩ | ⟨args, rfl, within⟩ := accepts.seals found sealed
  · exact accepts.endsAt inside found' sealed' (ends topic range earlier sealing found' sealed')
  · -- the split itself registers and commits nothing
    have effect : (MetadataCommand.SplitRange args).Effect applyIndex before response after := .accepted accepts
    refine ⟨fun segment later registered => ?_, fun group cursor stored => ?_⟩
    · exact within.segments segment later ((effect.lookup_eq rfl).symm.trans registered)
    · exact within.cursors group cursor ((effect.lookup_eq rfl).symm.trans stored)

end

/-- An overrun that is accepted leaves a cursor past the barrier. -/
theorem MetadataCommand.Accepted.not_endsAtBarriers (commits : command.cursorCommit = some args)
    (overruns : args.Overruns before) : ¬ after.EndsAtBarriers := by
  intro ends
  obtain ⟨record, sealing, found, sealed, past⟩ := overruns.past
  have effect : command.Effect applyIndex before response after := .accepted accepts
  have ranges : command.writes (Range args.topicUuid args.rangeUuid).category = false := by
    cases command <;> first | rfl | cases commits
  have found' : after.range? args.topicUuid args.rangeUuid = some record := (effect.lookup_eq ranges).trans found
  obtain ⟨_, generation, -, -, written⟩ :=
    (accepts.cursorCommit commits).cursor?_eq args.groupUuid args.topicUuid args.rangeUuid
  rw [if_pos ⟨rfl, rfl, rfl⟩] at written
  exact UInt64.not_le.mpr past ((ends _ _ record sealing found' sealed).cursors _ _ written)

end

end Overruns

/-! ## Runs -/

section Runs

variable [External] {machine next : MetaStateMachine} {event : Event}

/-- The command is a new commit, unpinned and past the barrier of its range, that passes the lease gate and every
    check a commit is held against. -/
def MetaStateMachine.Overruns (machine : MetaStateMachine) (command : MetadataCommand) : Prop :=
  ∃ args, command.cursorCommit = some args ∧ args.Overruns machine.records
    ∧ machine.appliedResponse command.envelope.requestId = none
    ∧ command.CursorGate machine.records ∧ args.Passes machine.records

theorem MetaStateMachine.Step.endsAtBarriers_iff (step : machine.Step event next)
    (ends : machine.records.EndsAtBarriers) : next.records.EndsAtBarriers ↔ ¬ machine.Overruns event.command := by
  obtain ⟨applyIndex, command, response⟩ := event
  have committed : machine.Overruns command → ∃ generation, response = .CursorCommitted generation := by
    rintro ⟨args, commits, -, fresh, passes⟩
    exact (step.commits_iff commits fresh).mpr passes
  cases apply_cases step with
  | replayed remembered =>
    refine ⟨fun _ => ?_, fun _ => ends⟩
    rintro ⟨_, _, _, fresh, _⟩
    cases fresh.symm.trans remembered
  | executed fresh effect =>
    rw [records_remember]
    cases effect with
    | refused error =>
      refine ⟨fun _ overruns => ?_, fun _ => ends⟩
      cases (committed overruns).choose_spec
    | spilled spills =>
      -- a refusal that has written touches groups and members only
      refine ⟨fun _ overruns => ?_, fun _ topic range record sealing found sealed => ?_⟩
      · cases (committed overruns).choose_spec
      · have within := ends topic range record sealing ((spills.lookup_eq rfl).symm.trans found) sealed
        exact ⟨fun segment later registered => within.segments segment later ((spills.lookup_eq rfl).symm.trans registered),
          fun group cursor stored => within.cursors group cursor ((spills.lookup_eq rfl).symm.trans stored)⟩
    | accepted accepts =>
      constructor
      · rintro ends' ⟨args, commits, overruns, _, _⟩
        exact accepts.not_endsAtBarriers commits overruns ends'
      · intro inside
        refine accepts.endsAtBarriers (fun args commits overruns => inside ⟨args, commits, overruns, fresh, ?_⟩) ends
        exact ⟨accepts.cursorGate, (accepts.cursorCommit commits).passes⟩

/-- Steps that overrun no barrier. -/
def MetaStateMachine.InsideStep (machine : MetaStateMachine) (event : Event) (next : MetaStateMachine) : Prop :=
  machine.Step event next ∧ ¬ machine.Overruns event.command

/-- On every run without an overrun the history of each sealed range ends at its
    barrier, and the first step that is one breaks this. -/
theorem sealed_history_ends_at_barrier (reached : Reachable InsideStep .new machine) :
    (∀ topic range record sealing, machine.records.range? topic range = some record → record.sealedAt = some sealing →
      (∀ segment record, machine.records.segment? topic range segment = some record →
        record.nextOffset ≤ sealing.barrierOffset)
      ∧ ∀ group cursor, machine.records.cursor? group topic range = some cursor →
        cursor.recordOffset ≤ sealing.barrierOffset)
    ∧ ∀ event next, machine.Step event next → (next.records.EndsAtBarriers ↔ ¬ machine.Overruns event.command) := by
  have ends : machine.records.EndsAtBarriers := by
    refine Reachable.invariant (fun machine => machine.records.EndsAtBarriers) reached ?_ ?_
    · intro topic range record sealing found
      simp [new, Records.range?, Records.lookup] at found
    · intro machine event next _ ends step
      exact (Step.endsAtBarriers_iff step.1 ends).mpr step.2
  refine ⟨fun topic range record sealing found sealed => ?_, fun event next step => ?_⟩
  · have within := ends topic range record sealing found sealed
    exact ⟨within.segments, within.cursors⟩
  · exact Step.endsAtBarriers_iff step ends

/-- A log that commits no cursor overruns nothing. -/
theorem MetaStateMachine.inside_afterLog (reached : Reachable InsideStep .new machine)
    (other : ∀ entry ∈ log, entry.2.cursorCommit = none) : Reachable InsideStep .new (machine.afterLog log) := by
  induction log generalizing machine with
  | nil => exact reached
  | cons entry rest ih =>
    obtain ⟨applyIndex, command⟩ := entry
    unfold afterLog
    split
    · next response next applied =>
      have step : machine.InsideStep { applyIndex, command, response } next := by
        refine ⟨applied, ?_⟩
        rintro ⟨args, commits, _⟩
        cases (other (applyIndex, command) List.mem_cons_self).symm.trans commits
      exact ih (reached.step step) fun entry member => other entry (List.mem_cons_of_mem _ member)
    · exact reached

end Runs

section SealedRange

attribute [local instance] External.plain

/-- The consumed range, split at barrier 100. -/
def sealedMachine : MetaStateMachine :=
  new.afterLog (consumedLog ++ [(7, .SplitRange
    { env := ⟨7, 0⟩, topicUuid := 10, parentRangeUuid := 11, leftRangeUuid := 12, rightRangeUuid := 13,
      transitionId := 14, barrierOffset := 100, expectedRangeGeneration := 1, holderNodeUuid := 7, fencingEpoch := 1 })])

/-- The member that still holds the parent commits an unpinned cursor past the barrier. -/
theorem unpinned_commit_overruns_barrier : (sealedMachine.afterLog [(8, headCommit 8 101 none)]).Reached
      ∧ ((sealedMachine.afterLog [(8, headCommit 8 101 none)]).records.range? 10 11).bind (·.sealedAt)
        = some { barrierOffset := 100, transitionId := 14 }
      ∧ ((sealedMachine.afterLog [(8, headCommit 8 101 none)]).records.cursor? 30 10 11).map (·.recordOffset)
        = some 101 := by
  refine ⟨(Reached.afterLog Reachable.refl _).afterLog _, ?_⟩
  decide +kernel

/-- One inside the barrier leaves the history where it ends. -/
theorem commit_at_barrier_stays_inside :
    (sealedMachine.records.range? 10 11).bind (·.sealedAt) = some { barrierOffset := 100, transitionId := 14 }
      ∧ (sealedMachine.afterLog [(8, headCommit 8 100 none)]).records.EndsAtBarriers := by
  have sealed : (sealedMachine.records.range? 10 11).bind (·.sealedAt)
      = some { barrierOffset := 100, transitionId := 14 } := by decide +kernel
  have reached : Reachable InsideStep .new sealedMachine := inside_afterLog Reachable.refl (by decide +kernel)
  have step : sealedMachine.Step ⟨8, headCommit 8 100 none, .CursorCommitted 0⟩
      (sealedMachine.afterLog [(8, headCommit 8 100 none)]) := rfl
  refine ⟨sealed, ((sealed_history_ends_at_barrier reached).2 _ _ step).mpr ?_⟩
  rintro ⟨args, commits, ⟨-, record, sealing, found, sealed', past⟩, -⟩
  cases commits
  rw [show sealedMachine.records.range? 10 11 = some record from found, Option.bind_some, sealed'] at sealed
  cases sealed
  exact absurd past (by decide)

end SealedRange

end VtopEngine.Meta
