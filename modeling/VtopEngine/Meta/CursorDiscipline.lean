import VtopEngine.Meta.Fencing
import VtopEngine.Meta.KeySpace

/-! # Durable cursors over whole runs

* `MetadataCommand.cursorCommit` — the three commands that commit a cursor.
* `Effect.cursor_cases` — a cursor changes only by an accepted commit to it.
* `MetaStateMachine.cursorCommits` — the commits to one cursor that a log of
  commands gets accepted, in order.
* `durable_cursor_discipline` — they form one chain of generations, and what a
  stored cursor is bound to never changes.
-/

namespace VtopEngine.Meta

open Lib MetaStateMachine MetadataCommand Records
open MetaStateMachine (apply_cases new records_remember)

/-! ## Commits to a cursor -/

/-- What a plain, a fenced or a coordinated commit asks for. -/
def MetadataCommand.cursorCommit : MetadataCommand → Option CommitCursorArgs
  | .CommitGroupCursor args | .CommitGroupCursorFenced args | .CommitGroupCursorCoordinated args => some args.cursor
  | _ => none

/-- The commit is to this cursor. -/
abbrev CommitCursorArgs.Targets (args : CommitCursorArgs) (group topic range : Uuid) : Prop :=
  args.groupUuid = group ∧ args.topicUuid = topic ∧ args.rangeUuid = range

variable {command : MetadataCommand} {applyIndex : UInt64} {before : Records} {response : MetadataResponse}
  {group topic range : Uuid}

section Commits

variable [External] {args : CommitCursorArgs}

theorem MetadataCommand.Accepted.cursorCommit (accepts : command.Accepted applyIndex before response after)
    (commits : command.cursorCommit = some args) : args.Accepted before response after := by
  cases command <;> simp only [cursorCommit, reduceCtorEq, Option.some.injEq] at commits
  case CommitGroupCursor plain => exact commits ▸ accepts
  case CommitGroupCursorFenced fenced => exact commits ▸ accepts.2
  case CommitGroupCursorCoordinated coordinated => exact commits ▸ accepts.2

/-- The lease a fenced or a coordinated commit is held against. -/
def MetadataCommand.CursorGate (command : MetadataCommand) (records : Records) : Prop :=
  match command with
  | .CommitGroupCursorFenced args =>
    records.HeldBy args.cursor.topicUuid args.cursor.rangeUuid args.holderNodeUuid args.fencingEpoch
  | .CommitGroupCursorCoordinated args =>
    records.HeldBy args.coordinatorTopicUuid args.coordinatorRangeUuid args.holderNodeUuid args.fencingEpoch
  | _ => True

theorem MetadataCommand.Accepted.cursorGate (accepts : command.Accepted applyIndex before response after) :
    command.CursorGate before := by
  cases command with
  | CommitGroupCursorFenced | CommitGroupCursorCoordinated => exact accepts.1
  | _ => trivial

theorem CommitCursorArgs.Passes.runs_command (passes : args.Passes before) (commits : command.cursorCommit = some args)
    (gate : command.CursorGate before) (applyIndex) : (applyInner applyIndex command).wp
      (fun response _ => ∃ generation, response = .CursorCommitted generation) (fun _ _ => False) before := by
  cases command <;> simp only [cursorCommit, reduceCtorEq, Option.some.injEq] at commits <;> subst commits
  case CommitGroupCursor => exact passes.runs
  case CommitGroupCursorFenced | CommitGroupCursorCoordinated => exact fenced_runs gate passes.runs

/-- A commit that is executed is accepted exactly if it passes the gate and the checks. -/
theorem MetaStateMachine.Step.commits_iff {machine next : MetaStateMachine}
    (step : machine.Step ⟨applyIndex, command, response⟩ next) (commits : command.cursorCommit = some args)
    (fresh : machine.appliedResponse command.envelope.requestId = none) :
    (∃ generation, response = .CursorCommitted generation)
      ↔ command.CursorGate machine.records ∧ args.Passes machine.records := by
  constructor
  · rintro ⟨generation, rfl⟩
    cases apply_cases step with
    | replayed remembered => cases fresh.symm.trans remembered
    | executed _ effect =>
      cases effect with
      | accepted accepts => exact ⟨accepts.cursorGate, (accepts.cursorCommit commits).passes⟩
  · rintro ⟨gate, passes⟩
    obtain ⟨_, _, step', committed⟩ := step_of_wp applyIndex command fresh (passes.runs_command commits gate applyIndex)
    obtain ⟨rfl, -⟩ := Prod.mk.inj (Except.ok.inj (step.symm.trans step'))
    exact committed

omit [External] in
/-- What an accepted commit leaves in the cursor it is to. -/
theorem CommitCursorArgs.Accepted.cursor?_eq {records reached : Records} (accepts : args.Accepted records response reached)
    (group topic range : Uuid) :
    ∃ record generation, args.Admits records record ∧ response = .CursorCommitted generation
      ∧ reached.cursor? group topic range = if args.Targets group topic range then
          some (args.checkpoint record.lineageGeneration generation)
        else records.cursor? group topic range := by
  cases accepts with
  | first admits | advance admits => exact ⟨_, _, admits, rfl, by simp⟩

/-- A cursor changes only by an accepted commit to it. -/
theorem MetadataCommand.Effect.cursor_cases (effect : command.Effect applyIndex before response after)
    (group topic range) : after.cursor? group topic range = before.cursor? group topic range
      ∨ ∃ args, command.cursorCommit = some args ∧ args.Targets group topic range ∧ args.Accepted before response after := by
  by_cases same : after.cursor? group topic range = before.cursor? group topic range
  · exact .inl same
  obtain ⟨writes, accepts⟩ := effect.accepted_of_changed rfl same
  have commit {args : CommitCursorArgs} (commits : command.cursorCommit = some args) :
      ∃ args, command.cursorCommit = some args ∧ args.Targets group topic range ∧ args.Accepted before response after := by
    have accepted := accepts.cursorCommit commits
    refine ⟨args, commits, ?_, accepted⟩
    obtain ⟨_, _, -, -, stored⟩ := accepted.cursor?_eq group topic range
    by_contra elsewhere
    exact same (stored.trans (if_neg elsewhere))
  right
  cases command <;> simp [MetadataCommand.writes, MetaKey.category] at writes
  case CommitGroupCursor | CommitGroupCursorFenced | CommitGroupCursorCoordinated => exact commit rfl

end Commits

/-! ## What a stored cursor is bound to -/

/-- Every cursor carries the lineage generation of its range. -/
def Records.CursorsBound (records : Records) : Prop :=
  ∀ group topic range cursor, records.cursor? group topic range = some cursor →
    ∃ record, records.range? topic range = some record ∧ record.lineageGeneration = cursor.rangeGeneration

variable {machine : MetaStateMachine}

section Bound

variable [External]

/-- What is true of a cursor as it is committed, and stays true whatever is applied, is
    true of every stored cursor. -/
theorem MetaStateMachine.Reached.cursors_invariant (reached : machine.Reached)
    (Fact : Records → Uuid → Uuid → CursorCheckpointRecord → Prop)
    (commits : ∀ (records : Records) (args : CommitCursorArgs) record generation, args.Admits records record →
      Fact records args.topicUuid args.rangeUuid (args.checkpoint record.lineageGeneration generation))
    (keeps : ∀ (machine : MetaStateMachine) applyIndex (command : MetadataCommand) response after topic range cursor,
      machine.Reached → command.Effect applyIndex machine.records response after →
      Fact machine.records topic range cursor → Fact after topic range cursor) :
    ∀ group topic range cursor, machine.records.cursor? group topic range = some cursor →
      Fact machine.records topic range cursor := by
  refine reached.records_invariant (fun records => ∀ group topic range cursor,
    records.cursor? group topic range = some cursor → Fact records topic range cursor) ?_ ?_
  · intro group topic range cursor stored
    simp [cursor?, lookup] at stored
  · intro machine applyIndex command response after reached facts effect group topic range cursor stored
    refine keeps machine applyIndex command response after topic range cursor reached effect ?_
    obtain same | ⟨args, -, target, accepted⟩ := effect.cursor_cases group topic range
    · exact facts group topic range cursor (same ▸ stored)
    · obtain ⟨record, generation, admits, -, written⟩ := accepted.cursor?_eq group topic range
      rw [if_pos target] at written
      cases written.symm.trans stored
      obtain ⟨rfl, rfl, rfl⟩ := target
      exact commits machine.records args record generation admits

theorem MetaStateMachine.Reached.cursorsBound (reached : machine.Reached) : machine.records.CursorsBound := by
  refine reached.cursors_invariant (fun records topic range cursor => ∃ record, records.range? topic range = some record
      ∧ record.lineageGeneration = cursor.rangeGeneration) ?_ ?_
  · exact fun _ _ record _ admits => ⟨record, admits.found, rfl⟩
  · rintro machine applyIndex command response after topic range cursor - effect ⟨record, found, generation⟩
    obtain ⟨later, found', same, -⟩ := (effect.rangeMove topic range).keeps found
    exact ⟨later, found', same.trans generation⟩

end Bound

/-- The later cursor is bound as the earlier one was. -/
structure CursorCheckpointRecord.Rebinds (cursor later : CursorCheckpointRecord) : Prop where
  topicEpoch : later.topicEpoch = cursor.topicEpoch
  rangeGeneration : later.rangeGeneration = cursor.rangeGeneration

/-- Only two unpinned cursors let the offset go back. -/
theorem advanceRefusal_eq_none (allowed : advanceRefusal existing args legacy generation = none) :
    existing.topicEpoch = args.topicEpoch
      ∧ (args.recordOffset < existing.recordOffset → existing.segmentUuid = 0 ∧ args.segmentUuid = 0) := by
  unfold advanceRefusal at allowed
  by_cases epoch : existing.topicEpoch = args.topicEpoch
  · refine ⟨epoch, fun back => ?_⟩
    rw [if_neg (not_not.mpr epoch)] at allowed
    split at allowed
    · cases allowed
    split at allowed
    · next unpinned => exact ⟨unpinned.2, unpinned.1⟩
    split at allowed
    · -- one of the two is pinned: back is refused
      cases allowed
    · -- both are: within one segment, and across two
      unfold cursorIsForwardOrEqual at allowed
      split at allowed
      · cases allowed
      · next forward =>
        split at forward
        · split at forward
          · cases forward
          · rw [if_pos (.inl back)] at forward
            cases forward
        · rw [if_pos (UInt64.le_of_lt back)] at forward
          cases forward
  · rw [if_pos epoch] at allowed
    cases allowed

section Step

variable [External]

/-- One command: the cursor stays, bound as it was, and goes back only unpinned. -/
theorem MetadataCommand.Effect.cursor_step (effect : command.Effect applyIndex before response after)
    (bound : before.CursorsBound) (stored : before.cursor? group topic range = some cursor) :
    ∃ cursor', after.cursor? group topic range = some cursor' ∧ cursor.Rebinds cursor'
      ∧ (cursor'.recordOffset < cursor.recordOffset → cursor.segmentUuid = 0 ∧ cursor'.segmentUuid = 0) := by
  obtain same | ⟨args, -, ⟨rfl, rfl, rfl⟩, accepted⟩ := effect.cursor_cases group topic range
  · exact ⟨cursor, same.trans stored, ⟨rfl, rfl⟩, fun back => absurd back (UInt64.lt_irrefl _)⟩
  · cases accepted with
    | first _ absent =>
      rw [cursor?, lookup_of_absent absent] at stored
      cases stored
    | @advance record existing generation admits found _ allowed =>
      have same : before.cursor? args.groupUuid args.topicUuid args.rangeUuid = some existing := by
        simp [cursor?, lookup, found]
      cases stored.symm.trans same
      obtain ⟨record', found', lineage⟩ := bound _ _ _ cursor stored
      cases admits.found.symm.trans found'
      obtain ⟨epoch, forward⟩ := advanceRefusal_eq_none allowed
      refine ⟨args.checkpoint record.lineageGeneration generation, ?_, ⟨epoch.symm, lineage⟩, forward⟩
      simp

/-- A whole run: what the cursor is bound to is final. -/
theorem MetaStateMachine.Reached.cursor_rebinds (reached : machine.Reached)
    (run : Run Step machine events later) (group topic range) :
    ∀ cursor, machine.records.cursor? group topic range = some cursor →
      ∃ cursor', later.records.cursor? group topic range = some cursor' ∧ cursor.Rebinds cursor' := by
  refine reached.records_evolve run (fun before after => ∀ cursor, before.cursor? group topic range = some cursor →
    ∃ cursor', after.cursor? group topic range = some cursor' ∧ cursor.Rebinds cursor') ?_ ?_ ?_
  · exact fun _ cursor stored => ⟨cursor, stored, rfl, rfl⟩
  · intro first second third earlier later cursor stored
    obtain ⟨between, stored', rebinds⟩ := earlier cursor stored
    obtain ⟨last, stored'', rebinds'⟩ := later between stored'
    exact ⟨last, stored'', rebinds'.1.trans rebinds.1, rebinds'.2.trans rebinds.2⟩
  · intro machine applyIndex command response after reached effect cursor stored
    obtain ⟨cursor', stored', rebinds, -⟩ := effect.cursor_step reached.cursorsBound stored
    exact ⟨cursor', stored', rebinds⟩

end Step

/-! ## The chain of commits -/

/-- An accepted commit: what it asked for, the generation it was answered with, and
    what its member had assigned at that step. -/
structure CursorCommit where
  args : CommitCursorArgs
  generation : UInt64
  assigned : List RangeAssignment

/-- What a member has assigned, nothing if there is none. -/
def Records.assignments (records : Records) (group member : Uuid) : List RangeAssignment :=
  (records.member? group member).elim [] (·.assigned)

/-- The commit to this cursor that the command was executed and accepted as. -/
def MetaStateMachine.cursorCommit? (machine : MetaStateMachine) (group topic range : Uuid) (command : MetadataCommand)
    (response : MetadataResponse) : Option CursorCommit :=
  match machine.appliedResponse command.envelope.requestId, command.cursorCommit, response with
  | none, some args, .CursorCommitted generation =>
    if args.Targets group topic range then
      some { args, generation, assigned := machine.records.assignments group args.memberUuid }
    else
      none
  -- a repeated request, another command, or a refusal
  | _, _, _ => none

/-- The accepted commits to one cursor along a log, in order. -/
def MetaStateMachine.cursorCommits [External] (machine : MetaStateMachine) (group topic range : Uuid) :
    List (UInt64 × MetadataCommand) → List CursorCommit
  | [] => []
  | (applyIndex, command) :: rest =>
    match machine.apply applyIndex command with
    | .ok (response, next) =>
      (machine.cursorCommit? group topic range command response).toList ++ next.cursorCommits group topic range rest
    | .error _ => []

/-- Each commit names the generation before it and is answered with the next. -/
inductive CursorCommit.Chain : Option UInt64 → List CursorCommit → Prop
  | nil (stored : Option UInt64) : Chain stored []
  | cons {stored : Option UInt64} {commit : CursorCommit} {rest : List CursorCommit}
      (named : commit.args.expectedCheckpointGeneration = stored)
      (next : commit.generation.toNat = stored.elim 0 (·.toNat + 1))
      (held : commit.args.assignment ∈ commit.assigned) (later : Chain (some commit.generation) rest) :
      Chain stored (commit :: rest)

section Chain

variable {next : MetaStateMachine}

/-- The generation a cursor stands at. -/
def Records.cursorGeneration (records : Records) (group topic range : Uuid) : Option UInt64 :=
  (records.cursor? group topic range).map (·.checkpointGeneration)

theorem MetaStateMachine.cursorCommit?_rejected (command error) :
    machine.cursorCommit? group topic range command (.Rejected error) = none := by
  unfold cursorCommit?
  cases machine.appliedResponse command.envelope.requestId <;> cases command.cursorCommit <;> rfl

theorem Records.cursorGeneration_congr {records reached : Records}
    (same : reached.cursor? group topic range = records.cursor? group topic range) :
    reached.cursorGeneration group topic range = records.cursorGeneration group topic range := by
  rw [cursorGeneration, cursorGeneration, same]

/-- An accepted commit to the cursor extends the chain by one. -/
theorem CommitCursorArgs.Accepted.extends {args : CommitCursorArgs} {records}
     (accepted : args.Accepted records response reached) : ∃ generation, response = .CursorCommitted generation
      ∧ args.expectedCheckpointGeneration = records.cursorGeneration args.groupUuid args.topicUuid args.rangeUuid
      ∧ generation.toNat = (records.cursorGeneration args.groupUuid args.topicUuid args.rangeUuid).elim 0 (·.toNat + 1)
      ∧ args.assignment ∈ records.assignments args.groupUuid args.memberUuid
      ∧ reached.cursorGeneration args.groupUuid args.topicUuid args.rangeUuid = some generation := by
  have holds {record : RangeRecord} (admits : args.Admits records record) :
      args.assignment ∈ records.assignments args.groupUuid args.memberUuid := by
    obtain ⟨member, joined, owned⟩ := admits.owns
    simpa [assignments, joined] using owned
  cases accepted with
  | first admits absent expected =>
    have none_stored : records.cursorGeneration args.groupUuid args.topicUuid args.rangeUuid = none := by
      rw [cursorGeneration, cursor?, lookup_of_absent absent, Option.map_none]
    refine ⟨0, rfl, expected.trans none_stored.symm, by simp [none_stored], holds admits, ?_⟩
    simp [cursorGeneration, CommitCursorArgs.checkpoint]
  | @advance _ existing generation admits found expected _ next =>
    have stored : records.cursorGeneration args.groupUuid args.topicUuid args.rangeUuid
        = some existing.checkpointGeneration := by
      simp [cursorGeneration, cursor?, lookup, found]
    refine ⟨generation, rfl, expected.trans stored.symm, ?_, holds admits, ?_⟩
    · rw [stored]
      exact (checkedSucc_eq_some next).2
    · simp [cursorGeneration, CommitCursorArgs.checkpoint]

variable [External]

/-- One applied command: either it is no commit to the cursor, which then stays, or
    it extends the chain by one. -/
theorem MetaStateMachine.Step.cursorCommit?_cases (step : machine.Step event next)
    (group topic range) : (machine.cursorCommit? group topic range event.command event.response = none
        ∧ next.records.cursorGeneration group topic range = machine.records.cursorGeneration group topic range)
      ∨ ∃ commit, machine.cursorCommit? group topic range event.command event.response = some commit
        ∧ commit.args.expectedCheckpointGeneration = machine.records.cursorGeneration group topic range
        ∧ commit.generation.toNat = (machine.records.cursorGeneration group topic range).elim 0 (·.toNat + 1)
        ∧ commit.args.assignment ∈ commit.assigned
        ∧ next.records.cursorGeneration group topic range = some commit.generation := by
  obtain ⟨applyIndex, command, response⟩ := event
  cases apply_cases step with
  | replayed remembered => exact .inl ⟨by simp [cursorCommit?, remembered], rfl⟩
  | executed fresh effect =>
    rw [records_remember]
    cases effect with
    | refused error => exact .inl ⟨cursorCommit?_rejected command error, rfl⟩
    | spilled spills => exact .inl ⟨cursorCommit?_rejected command _, cursorGeneration_congr (spills.lookup_eq rfl)⟩
    | accepted accepts =>
      cases commits : command.cursorCommit with
      | none =>
        refine .inl ⟨by simp [cursorCommit?, fresh, commits], cursorGeneration_congr ?_⟩
        refine ((Effect.accepted accepts).cursor_cases group topic range).resolve_right ?_
        rintro ⟨args, committed, -⟩
        cases commits.symm.trans committed
      | some args =>
        have accepted := accepts.cursorCommit commits
        -- An accepted commit may be about another cursor.
        by_cases target : args.Targets group topic range
        · obtain ⟨rfl, rfl, rfl⟩ := target
          obtain ⟨generation, rfl, named, following, held, stored⟩ := accepted.extends
          let commit : CursorCommit :=
            { args, generation, assigned := machine.records.assignments args.groupUuid args.memberUuid }
          refine .inr ⟨commit, ?_, named, following, held, stored⟩
          simp only [cursorCommit?, fresh, commits]
          exact if_pos ⟨rfl, rfl, rfl⟩
        · obtain ⟨_, generation, -, rfl, stored⟩ := accepted.cursor?_eq group topic range
          refine .inl ⟨?_, cursorGeneration_congr (stored.trans (if_neg target))⟩
          simp only [cursorCommit?, fresh, commits, if_neg target]

/-- Along every log the accepted commits continue the chain from where the cursor stands. -/
theorem MetaStateMachine.Reached.cursorCommits_chain (reached : machine.Reached) (group topic range log) :
    CursorCommit.Chain (machine.records.cursorGeneration group topic range)
      (machine.cursorCommits group topic range log) := by
  induction log generalizing machine with
  | nil => exact .nil _
  | cons entry rest ih =>
    obtain ⟨applyIndex, command⟩ := entry
    obtain ⟨response, next, applied⟩ := reached.apply_ok applyIndex command
    have step : machine.Step ⟨applyIndex, command, response⟩ next := applied
    have later := ih (reached.step step)
    simp only [cursorCommits, applied]
    obtain ⟨other, same⟩ | ⟨commit, committed, named, following, held, stored⟩ :=
      Step.cursorCommit?_cases step group topic range
    · rw [other, ← same]
      exact later
    · rw [committed]
      exact .cons named following held (stored ▸ later)

omit [External] in
/-- The generations of a chain count up from where it starts. -/
theorem CursorCommit.Chain.get {stored : Option UInt64} {commits : List CursorCommit} (chain : Chain stored commits)
    {index : Nat} {commit : CursorCommit} (found : commits[index]? = some commit) :
    commit.generation.toNat = stored.elim 0 (·.toNat + 1) + index ∧ commit.args.expectedCheckpointGeneration
        = (if index = 0 then stored else (commits[index - 1]?).map (·.generation))
      ∧ commit.args.assignment ∈ commit.assigned := by
  induction chain generalizing index with
  | nil => simp at found
  | @cons stored first rest named next held later ih =>
    cases index with
    | zero =>
      obtain rfl : first = commit := by simpa using found
      exact ⟨next, named, held⟩
    | succ index =>
      obtain ⟨counted, named', held'⟩ := ih (by simpa using found)
      refine ⟨by simp only [Option.elim_some] at counted; omega, ?_, held'⟩
      -- the commit before the first of `rest` is `first` itself
      cases index with
      | zero | succ index => simpa using named'

/-- Over every log of commands: the accepted commits to a cursor carry the generations
    0, 1, 2, …, each names the one before it, and its member held the range; and from
    then on what the cursor is bound to is final, and it goes back only unpinned. -/
theorem durable_cursor_discipline (log : List (UInt64 × MetadataCommand)) (group topic range : Uuid) :
    (∀ index commit, (new.cursorCommits group topic range log)[index]? = some commit → commit.generation.toNat = index
      ∧ commit.args.expectedCheckpointGeneration = (if index = 0 then none
          else ((new.cursorCommits group topic range log)[index - 1]?).map (·.generation))
      ∧ commit.args.assignment ∈ commit.assigned)
    ∧ (∀ events later cursor, Run MetaStateMachine.Step (new.afterLog log) events later →
      (new.afterLog log).records.cursor? group topic range = some cursor →
      ∃ cursor', later.records.cursor? group topic range = some cursor' ∧ cursor'.topicEpoch = cursor.topicEpoch
        ∧ cursor'.rangeGeneration = cursor.rangeGeneration)
    ∧ ∀ event next cursor cursor', (new.afterLog log).Step event next →
      (new.afterLog log).records.cursor? group topic range = some cursor →
      next.records.cursor? group topic range = some cursor' → cursor'.recordOffset < cursor.recordOffset →
      cursor.segmentUuid = 0 ∧ cursor'.segmentUuid = 0 := by
  have reached : (new.afterLog log).Reached := MetaStateMachine.Reached.afterLog Reachable.refl log
  refine ⟨fun index commit found => ?_, fun events later cursor run stored => ?_,
    fun event next cursor cursor' step stored stored' back => ?_⟩
  · have chain := MetaStateMachine.Reached.cursorCommits_chain Reachable.refl group topic range log
    have start : new.records.cursorGeneration group topic range = none := by
      simp [new, Records.cursorGeneration, Records.cursor?, Records.lookup]
    rw [start] at chain
    simpa using chain.get found
  · obtain ⟨cursor', stored', rebinds⟩ := reached.cursor_rebinds run group topic range cursor stored
    exact ⟨cursor', stored', rebinds.topicEpoch, rebinds.rangeGeneration⟩
  · cases apply_cases step with
    | replayed =>
      cases stored.symm.trans stored'
      exact absurd back (UInt64.lt_irrefl _)
    | executed _ effect =>
      obtain ⟨_, found, -, forward⟩ := effect.cursor_step reached.cursorsBound stored
      rw [records_remember] at stored'
      cases stored'.symm.trans found
      exact forward back

end Chain

section ConsumedRange

attribute [local instance] External.plain

/-- A group whose one member is assigned the leased range. -/
def consumedLog : List (UInt64 × MetadataCommand) :=
  leaseLog ++ [(3, leaseRequest),
    (4, .CreateConsumerGroup { env := ⟨4, 0⟩, name := "group", groupUuid := 30 }),
    (5, .JoinConsumerGroup { env := ⟨5, 0⟩, groupUuid := 30, memberUuid := 31, expectedGroupGeneration := 0 }),
    (6, .AssignMemberRanges
      { env := ⟨6, 0⟩, groupUuid := 30, memberUuid := 31, ranges := [⟨10, 11⟩], expectedMemberGeneration := 0 })]

/-- The member commits an unpinned cursor. -/
def headCommit (requestId : Uuid) (recordOffset : UInt64) (expected : Option UInt64) : MetadataCommand :=
  .CommitGroupCursor
    { env := ⟨requestId, 0⟩
      cursor :=
        { groupUuid := 30, memberUuid := 31, topicUuid := 10, rangeUuid := 11, topicEpoch := 1, rangeGeneration := 0,
          segmentUuid := 0, segmentGeneration := 0, segmentRoot := Vector.replicate 32 0, recordOffset,
          recordIndex := 0, lineageTransitionId := none, expectedCheckpointGeneration := expected } }

-- the second commit is repeated under its own request id and then made by a stale writer
example : (new.cursorCommits 30 10 11 (consumedLog ++ [(7, headCommit 7 5 none),
    (8, headCommit 8 3 (some 0)), (9, headCommit 8 3 (some 0)), (10, headCommit 9 9 (some 0)),
    (11, headCommit 10 9 (some 1))])).map (·.generation) = [0, 1, 2] := by decide +kernel

end ConsumedRange

end VtopEngine.Meta
