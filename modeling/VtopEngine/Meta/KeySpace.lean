import VtopEngine.Lib.Cells
import VtopEngine.Meta.RangeMoves
import VtopEngine.Meta.Reach

/-! # The key space of a topic

A topic starts as one range over all routing hashes.  A split seals a range and
creates two that halve it; nothing else touches what routing and lineage depend
on.  So the unsealed ranges of a topic partition the hashes, and a sealed range
leads, through its lineage transition, to the two that replaced it.

* `Lineage` — the part of a range record that only a split writes.
* `Records.LineageMove` — all that a command can do to lineages.
* `Records.LineageInv` — the invariant over them.
-/

namespace VtopEngine.Meta

open Lib RangeRecord Records MetaStateMachine Log.KeyRange

/-! ## Lineages -/

/-- The interval of a range and its place in the tree of splits. -/
structure Lineage where
  interval : Log.KeyRange
  generation : UInt64
  parents : List Uuid
  sealedAt : Option SealedParent
  deriving DecidableEq

def RangeRecord.lineage (record : RangeRecord) : Lineage :=
  { interval := record.keyRange, generation := record.lineageGeneration, parents := record.parents,
    sealedAt := record.sealedAt }

/-- The lineage of a child that takes this half of its parent. -/
def Lineage.child (parent : Lineage) (parentRangeUuid : Uuid) (half : Log.KeyRange) : Lineage :=
  { interval := half, generation := parent.generation + 1, parents := [parentRangeUuid], sealedAt := none }

def Records.lineageOf (records : Records) (topic range : Uuid) : Option Lineage :=
  (records.range? topic range).map RangeRecord.lineage

/-- One range is sealed and two new ones take its halves, under a new lineage transition. -/
structure Records.SplitsRange (before after : Records) (topic parent left right id : Uuid) (whole : Lineage)
    (leftHalf rightHalf : Log.KeyRange) (transition : LineageTransitionRecord) : Prop where
  siblings : left ≠ right
  notLeft : left ≠ parent
  notRight : right ≠ parent
  found : before.lineageOf topic parent = some whole
  unsealed : whole.sealedAt = none
  halves : whole.interval.children = .ok (leftHalf, rightHalf)
  leftAbsent : before.lineageOf topic left = none
  rightAbsent : before.lineageOf topic right = none
  transitionAbsent : before.lineage? topic id = none
  names : transition.parentRangeUuid = parent ∧ transition.leftRangeUuid = left ∧ transition.rightRangeUuid = right
  topics : ∀ topic', after.topic? topic' = before.topic? topic'
  ranges : ∀ topic' range, after.lineageOf topic' range =
    if topic = topic' ∧ right = range then some (whole.child parent rightHalf)
    else if topic = topic' ∧ left = range then some (whole.child parent leftHalf)
    else if topic = topic' ∧ parent = range then
      some { whole with sealedAt := some { barrierOffset := transition.barrierOffset, transitionId := id } }
    else before.lineageOf topic' range
  transitions : ∀ topic' id', after.lineage? topic' id'
    = if topic = topic' ∧ id = id' then some transition else before.lineage? topic' id'

/-- What one command does to the lineages and lineage transitions. -/
inductive Records.LineageMove (before after : Records) : Prop
  | kept (topics : ∀ topic, after.topic? topic = before.topic? topic)
      (ranges : ∀ topic range, after.lineageOf topic range = before.lineageOf topic range)
      (transitions : ∀ topic id, after.lineage? topic id = before.lineage? topic id)
  | created (topic root : Uuid) (fresh : before.topic? topic = none)
      (topics : ∀ topic', after.topic? topic' ≠ none ↔ topic = topic' ∨ before.topic? topic' ≠ none)
      (ranges : ∀ topic' range, after.lineageOf topic' range
        = if topic = topic' ∧ root = range then some RangeRecord.root.lineage else before.lineageOf topic' range)
      (transitions : ∀ topic id, after.lineage? topic id = before.lineage? topic id)
  | split {topic parent left right id : Uuid} {whole : Lineage} {leftHalf rightHalf : Log.KeyRange}
      {transition : LineageTransitionRecord}
      (splits : before.SplitsRange after topic parent left right id whole leftHalf rightHalf transition)

variable {before after : Records}

section Moves

variable {command : MetadataCommand} {response : MetadataResponse}

theorem Command.SplitRange.Accepted.lineageMove {args : SplitRange} (accepts : args.Accepted before response after) :
    before.LineageMove after := by
  cases accepts with
  | replay => exact .kept (fun _ => rfl) (fun _ _ => rfl) fun _ _ => rfl
  | @split parent left right siblings notLeft notRight found unsealed _ _ _ _ halves leftAbsent rightAbsent absent =>
    have absentRange : ∀ {child}, before.record (.Range args.topicUuid child) = none →
        before.lineageOf args.topicUuid child = none := fun absent => by
      simp [lineageOf, range?, lookup, absent]
    have foundLineage : before.lineageOf args.topicUuid args.parentRangeUuid = some parent.lineage := by
      rw [lineageOf, found, Option.map_some]
    refine .split
      { siblings, notLeft, notRight, unsealed
        found := foundLineage
        halves := halves
        leftAbsent := absentRange leftAbsent
        rightAbsent := absentRange rightAbsent
        transitionAbsent := by simp [lineage?, lookup, absent]
        names := ⟨rfl, rfl, rfl⟩
        topics := topic?_split before args parent left right
        ranges := fun topic range => ?_
        transitions := lineage?_split before args parent left right }
    simp only [lineageOf, range?_split, apply_ite (Option.map lineage), Option.map_some]
    rfl

/-- Only a command that creates ranges writes a lineage. -/
theorem RangeRecord.Move.lineage_eq (move : Move command before topic range next) (creates : ¬ command.CreatesRange) :
    next.map lineage = before.lineageOf topic range := by
  unfold lineageOf
  cases move with
  | stay => rfl
  | create creating => exact absurd creating creates
  | lease found | renew found | release found | register found =>
    rw [found]
    rfl
  | split _ splits => exact absurd (splits ▸ trivial) creates

theorem MetadataCommand.Accepted.lineageMove [External] (accepts : command.Accepted applyIndex before response after) :
    before.LineageMove after := by
  cases command with
  | CreateTopic args =>
    obtain ⟨_, _, topicAbsent, rangeAbsent⟩ := accepts
    refine .created args.topicUuid args.rootRangeUuid ?_ (fun topic => ?_) (fun topic range => ?_) fun _ _ => by simp
    · simp [topic?, lookup, topicAbsent]
    · by_cases same : args.topicUuid = topic <;> simp [same]
    · by_cases same : args.topicUuid = topic ∧ args.rootRangeUuid = range <;> simp [lineageOf, same]
  | SplitRange args => exact Command.SplitRange.Accepted.lineageMove accepts
  | _ =>
    have effect := MetadataCommand.Effect.accepted accepts
    exact .kept (fun _ => effect.lookup_eq rfl) (fun topic range => (accepts.rangeMove topic range).lineage_eq id)
      fun _ _ => effect.lookup_eq rfl

theorem MetadataCommand.Effect.lineageMove [External] (effect : command.Effect applyIndex before response after) :
    before.LineageMove after := by
  cases effect with
  | accepted accepts => exact accepts.lineageMove
  | refused => exact .kept (fun _ => rfl) (fun _ _ => rfl) fun _ _ => rfl
  | spilled spills =>
    exact .kept (fun _ => spills.lookup_eq rfl)
      (fun _ _ => congrArg (Option.map lineage) (spills.lookup_eq rfl)) fun _ _ => spills.lookup_eq rfl

end Moves

/-! ## The invariant -/

/-- The hashes a range routes, while it is not sealed. -/
def Lineage.cell (lineage : Lineage) : Option (Set UInt64) :=
  match lineage.sealedAt with
  | none => some { hash | lineage.interval.contains hash = true }
  | some _ => none

def Records.cells (records : Records) (topic range : Uuid) : Option (Set UInt64) :=
  (records.lineageOf topic range).bind Lineage.cell

/-- The lineage transition a sealed range names is there, and names the two
    ranges that took its halves. -/
def Records.SplitRecorded (records : Records) (topic range : Uuid) (lineage : Lineage) (sealing : SealedParent) : Prop :=
  ∃ transition left right, records.lineage? topic sealing.transitionId = some transition
    ∧ transition.parentRangeUuid = range ∧ transition.barrierOffset = sealing.barrierOffset
    ∧ records.lineageOf topic transition.leftRangeUuid = some left
    ∧ records.lineageOf topic transition.rightRangeUuid = some right
    ∧ left.parents = [range] ∧ right.parents = [range]
    ∧ left.generation = lineage.generation + 1 ∧ right.generation = lineage.generation + 1
    ∧ lineage.interval.children = .ok (left.interval, right.interval)

structure Records.LineageInv (records : Records) : Prop where
  owned : ∀ topic range, records.lineageOf topic range ≠ none → records.topic? topic ≠ none
  depth : ∀ topic range lineage, records.lineageOf topic range = some lineage →
    lineage.generation.toNat = lineage.interval.prefixBits.toNat
  partition : ∀ topic, records.topic? topic ≠ none → Partitions (records.cells topic)
  recorded : ∀ topic range lineage sealing, records.lineageOf topic range = some lineage →
    lineage.sealedAt = some sealing → records.SplitRecorded topic range lineage sealing

namespace Records.LineageInv

theorem empty : empty.LineageInv where
  owned topic range present := absurd (by simp [lineageOf, range?, lookup]) present
  depth topic range lineage found := by simp [lineageOf, range?, lookup] at found
  partition topic present := absurd (by simp [topic?, lookup]) present
  recorded topic range lineage sealing found := by simp [lineageOf, range?, lookup] at found

theorem kept (inv : before.LineageInv) (topics : ∀ topic, after.topic? topic = before.topic? topic)
    (ranges : ∀ topic range, after.lineageOf topic range = before.lineageOf topic range)
    (transitions : ∀ topic id, after.lineage? topic id = before.lineage? topic id) : after.LineageInv := by
  refine ⟨fun topic range => ?_, fun topic range => ?_, fun topic => ?_, fun topic range lineage sealing => ?_⟩
  · rw [topics, ranges]
    exact inv.owned topic range
  · rw [ranges]
    exact inv.depth topic range
  · have cells : after.cells topic = before.cells topic := by
      funext range
      rw [cells, ranges, cells]
    rw [topics, cells]
    exact inv.partition topic
  · simp only [ranges, SplitRecorded, transitions]
    exact inv.recorded topic range lineage sealing

theorem created (inv : before.LineageInv) {root} (fresh : before.topic? topic = none)
    (topics : ∀ topic', after.topic? topic' ≠ none ↔ topic = topic' ∨ before.topic? topic' ≠ none)
    (ranges : ∀ topic' range, after.lineageOf topic' range
      = if topic = topic' ∧ root = range then some RangeRecord.root.lineage else before.lineageOf topic' range)
    (transitions : ∀ topic id, after.lineage? topic id = before.lineage? topic id) : after.LineageInv := by
  -- a topic without a record has no ranges
  have bare : ∀ range, before.lineageOf topic range = none := fun range => by
    by_contra present
    exact inv.owned topic range present fresh
  refine ⟨fun topic' range present => ?_, fun topic' range lineage found => ?_, fun topic' present => ?_,
    fun topic' range lineage sealing found sealed => ?_⟩
  · rw [topics]
    rw [ranges] at present
    split at present
    · next here => exact .inl here.1
    · exact .inr (inv.owned topic' range present)
  · rw [ranges] at found
    split at found
    · cases found
      rfl
    · exact inv.depth topic' range lineage found
  · by_cases here : topic = topic'
    · subst here
      refine .single root ?_ fun other different => ?_
      · rw [cells, ranges, if_pos ⟨rfl, rfl⟩]
        exact congrArg some (Set.eq_univ_of_forall full_contains)
      · rw [cells, ranges, if_neg fun same => different same.2.symm, bare]
        rfl
    · have cells : after.cells topic' = before.cells topic' := by
        funext range
        rw [cells, ranges, if_neg fun same => here same.1, cells]
      rw [cells]
      exact inv.partition topic' (((topics topic').mp present).resolve_left here)
  · rw [ranges] at found
    split at found
    · cases found
      cases sealed
    · next elsewhere =>
      have old := inv.recorded topic' range lineage sealing found sealed
      have apart : topic ≠ topic' := by
        rintro rfl
        simp [bare] at found
      obtain ⟨transition, left, right, stored, names⟩ := old
      refine ⟨transition, left, right, (transitions ..).trans stored, ?_⟩
      simpa only [ranges, apart, false_and, if_false] using names

section Split

variable {topic parent left right id : Uuid} {whole : Lineage} {leftHalf rightHalf : Log.KeyRange}
  {transition : LineageTransitionRecord}

theorem depth_child (halves : whole.interval.children = .ok (leftHalf, rightHalf))
    (deep : whole.generation.toNat = whole.interval.prefixBits.toNat) (isHalf : half = leftHalf ∨ half = rightHalf) :
    (whole.child parent half).generation.toNat = half.prefixBits.toNat := by
  obtain ⟨-, short, rfl, rfl⟩ := children_eq_ok halves
  have bits : half.prefixBits = whole.interval.prefixBits + 1 := by obtain rfl | rfl := isHalf <;> rfl
  rw [bits, childBits_toNat short, Lineage.child, UInt64.toNat_add, deep, UInt64.toNat_one]
  omega

section

variable (splits : before.SplitsRange after topic parent left right id whole leftHalf rightHalf transition)

include splits

/-- Retiring the parent for its halves is a split of the topic's cells. -/
theorem splitCells : SplitCells (before.cells topic) (after.cells topic) parent left right
      { hash | whole.interval.contains hash = true } { hash | leftHalf.contains hash = true }
      { hash | rightHalf.contains hash = true } where
  parentLive := by rw [cells, splits.found, Option.bind_some, Lineage.cell, splits.unsealed]
  leftFresh := by rw [cells, splits.leftAbsent, Option.bind_none]
  rightFresh := by rw [cells, splits.rightAbsent, Option.bind_none]
  covers hash := by
    simp only [Set.mem_ofPred_eq, left_contains splits.halves, right_contains splits.halves]
    cases bit hash whole.interval.splitIndex <;> simp
  apart hash inLeft inRight := by
    obtain ⟨-, low⟩ := (left_contains splits.halves).mp inLeft
    obtain ⟨-, high⟩ := (right_contains splits.halves).mp inRight
    simp [low] at high
  parentRetired := by
    rw [cells, splits.ranges, if_neg (fun same => splits.notRight same.2), if_neg (fun same => splits.notLeft same.2),
      if_pos ⟨rfl, rfl⟩]
    rfl
  leftLive := by
    rw [cells, splits.ranges, if_neg (fun same => splits.siblings same.2.symm), if_pos ⟨rfl, rfl⟩]
    rfl
  rightLive := by
    rw [cells, splits.ranges, if_pos ⟨rfl, rfl⟩]
    rfl
  others range isParent isLeft isRight := by
    rw [cells, splits.ranges, if_neg (fun same => isRight same.2.symm), if_neg (fun same => isLeft same.2.symm),
      if_neg (fun same => isParent same.2.symm), cells]

/-- A range that was there keeps its place; only its seal may be new. -/
theorem survives {lineage} (present : before.lineageOf topic' range = some lineage) :
    ∃ sealedAt, after.lineageOf topic' range = some { lineage with sealedAt } := by
  rw [splits.ranges]
  split
  · next here =>
    obtain ⟨rfl, rfl⟩ := here
    simp [splits.rightAbsent] at present
  split
  · next here =>
    obtain ⟨rfl, rfl⟩ := here
    simp [splits.leftAbsent] at present
  split
  · next here =>
    obtain ⟨rfl, rfl⟩ := here
    cases splits.found.symm.trans present
    exact ⟨_, rfl⟩
  · exact ⟨_, present⟩

end

theorem split (inv : before.LineageInv)
    (splits : before.SplitsRange after topic parent left right id whole leftHalf rightHalf transition) :
    after.LineageInv := by
  have parentOwned : before.topic? topic ≠ none := inv.owned topic parent (by simp [splits.found])
  refine ⟨fun topic' range present => ?_, fun topic' range lineage present => ?_, fun topic' present => ?_,
    fun topic' range lineage sealing present sealed => ?_⟩
  · rw [splits.topics]
    by_cases here : topic = topic'
    · exact here ▸ parentOwned
    · rw [splits.ranges] at present
      simp only [here, false_and, if_false] at present
      exact inv.owned topic' range present
  · have deep := inv.depth topic parent whole splits.found
    rw [splits.ranges] at present
    split at present
    · cases present
      exact depth_child splits.halves deep (.inr rfl)
    split at present
    · cases present
      exact depth_child splits.halves deep (.inl rfl)
    split at present
    · cases present
      exact deep
    · exact inv.depth topic' range lineage present
  · rw [splits.topics] at present
    by_cases here : topic = topic'
    · subst here
      exact (inv.partition topic present).split (splitCells splits)
    · have cells : after.cells topic' = before.cells topic' := by
        funext range
        rw [cells, splits.ranges, cells]
        simp only [here, false_and, if_false]
      rw [cells]
      exact inv.partition topic' present
  · rw [splits.ranges] at present
    split at present
    · cases present
      cases sealed
    split at present
    · cases present
      cases sealed
    split at present
    · next here =>
      -- the parent that was sealed just now
      obtain ⟨rfl, rfl⟩ := here
      cases present
      cases sealed
      obtain ⟨namesParent, namesLeft, namesRight⟩ := splits.names
      refine ⟨transition, whole.child parent leftHalf, whole.child parent rightHalf, ?_, namesParent, rfl,
        ?_, ?_, rfl, rfl, rfl, rfl, splits.halves⟩
      · rw [splits.transitions, if_pos ⟨rfl, rfl⟩]
      · rw [splits.ranges, namesLeft, if_neg (fun same => splits.siblings same.2.symm), if_pos ⟨rfl, rfl⟩]
      · rw [splits.ranges, namesRight, if_pos ⟨rfl, rfl⟩]
    · -- a seal set before: its transition is not the new one, and its children are still there
      obtain ⟨old, leftChild, rightChild, stored, namesParent, namesBarrier, hasLeft, hasRight, leftParents,
        rightParents, leftDepth, rightDepth, oldHalves⟩ := inv.recorded topic' range lineage sealing present sealed
      obtain ⟨leftSeal, hasLeft⟩ := survives splits hasLeft
      obtain ⟨rightSeal, hasRight⟩ := survives splits hasRight
      refine ⟨old, _, _, ?_, namesParent, namesBarrier, hasLeft, hasRight, leftParents, rightParents, leftDepth,
        rightDepth, oldHalves⟩
      rw [splits.transitions, if_neg]
      · exact stored
      · rintro ⟨rfl, rfl⟩
        simp [splits.transitionAbsent] at stored

end Split

theorem move (inv : before.LineageInv) (move : before.LineageMove after) : after.LineageInv := by
  cases move with
  | kept topics ranges transitions => exact inv.kept topics ranges transitions
  | created topic root fresh topics ranges transitions => exact inv.created fresh topics ranges transitions
  | split splits => exact inv.split splits

end Records.LineageInv

theorem Records.mem_cells {records : Records} {hash} :
    (∃ cell ∈ records.cells topic range, hash ∈ cell) ↔ ∃ record, records.range? topic range = some record
      ∧ record.sealedAt = none ∧ record.keyRange.contains hash = true := by
  cases found : records.range? topic range with
  | none => simp [cells, lineageOf, found]
  | some record => cases sealed : record.sealedAt <;> simp [cells, lineageOf, found, Lineage.cell, sealed, lineage]

theorem Records.lineageOf_eq_some {records : Records} {lineage} : records.lineageOf topic range = some lineage ↔
      ∃ record, records.range? topic range = some record ∧ record.lineage = lineage :=
  Option.map_eq_some_iff

/-! ## Runs -/

section Runs

variable [External] {machine : MetaStateMachine}

theorem MetaStateMachine.Reached.lineageInv (reached : machine.Reached) : machine.records.LineageInv := by
  refine reached.records_invariant LineageInv .empty ?_
  intro machine applyIndex command response after _ inv effect
  exact inv.move effect.lineageMove

/-- What the handlers rely on without checking holds of reachable records. -/
theorem MetaStateMachine.Reached.healthy (reached : machine.Reached) : machine.records.Healthy where
  typed := reached.wellTyped
  seals topic range record sealing found sealed := by
    obtain ⟨transition, _, _, stored, -⟩ := reached.lineageInv.recorded topic range record.lineage sealing
      (lineageOf_eq_some.mpr ⟨record, found, rfl⟩) sealed
    simp [stored]

/-- `apply` never panics on a reachable machine. -/
theorem MetaStateMachine.Reached.apply_ok (reached : machine.Reached) (applyIndex command) :
    ∃ response next, machine.apply applyIndex command = .ok (response, next) := by
  cases applied : machine.apply applyIndex command with
  | error message => exact absurd reached.healthy (unhealthy_of_panic applied)
  | ok outcome => exact ⟨outcome.1, outcome.2, rfl⟩

/-- The unsealed ranges of a topic partition the routing hashes; a sealed range
    is recorded as split into two that exist and halve it; a seal is final. -/
theorem key_space_partition (reached : machine.Reached) :
    (∀ topic, machine.records.topic? topic ≠ none → ∀ hash, ∃! range, ∃ record,
      machine.records.range? topic range = some record ∧ record.sealedAt = none ∧ record.keyRange.contains hash = true)
    ∧ (∀ topic range record sealing, machine.records.range? topic range = some record →
      record.sealedAt = some sealing → ∃ transition left right,
        machine.records.lineage? topic sealing.transitionId = some transition
        ∧ transition.parentRangeUuid = range ∧ transition.barrierOffset = sealing.barrierOffset
        ∧ machine.records.range? topic transition.leftRangeUuid = some left
        ∧ machine.records.range? topic transition.rightRangeUuid = some right
        ∧ left.parents = [range] ∧ right.parents = [range]
        ∧ left.lineageGeneration.toNat = record.lineageGeneration.toNat + 1
        ∧ right.lineageGeneration.toNat = record.lineageGeneration.toNat + 1
        ∧ record.keyRange.children = .ok (left.keyRange, right.keyRange)
        ∧ ∀ hash, (left.keyRange.contains hash = true ↔ record.keyRange.contains hash = true
              ∧ Log.KeyRange.bit hash record.keyRange.splitIndex = false)
            ∧ (right.keyRange.contains hash = true ↔ record.keyRange.contains hash = true
              ∧ Log.KeyRange.bit hash record.keyRange.splitIndex = true))
    ∧ ∀ events later, Run Step machine events later → ∀ topic range record sealing,
      machine.records.range? topic range = some record → record.sealedAt = some sealing →
        ∃ record', later.records.range? topic range = some record' ∧ record'.sealedAt = some sealing := by
  have inv := reached.lineageInv
  refine ⟨fun topic present hash => ?_, fun topic range record sealing found sealed => ?_,
    fun events later run topic range record sealing found sealed => ?_⟩
  · simpa only [Partitions, Records.mem_cells] using inv.partition topic present hash
  · have present := Records.lineageOf_eq_some.mpr ⟨record, found, rfl⟩
    obtain ⟨transition, left, right, stored, namesParent, namesBarrier, hasLeft, hasRight, leftParents, rightParents,
      -, -, halves⟩ := inv.recorded topic range record.lineage sealing present sealed
    -- A range's lineage generation is the length of its key prefix, and a child's prefix is one bit longer.
    have deep := inv.depth _ _ _ present
    have leftDeep := inv.depth _ _ _ hasLeft
    have rightDeep := inv.depth _ _ _ hasRight
    obtain ⟨leftRecord, foundLeft, rfl⟩ := Records.lineageOf_eq_some.mp hasLeft
    obtain ⟨rightRecord, foundRight, rfl⟩ := Records.lineageOf_eq_some.mp hasRight
    obtain ⟨-, short, leftHalf, rightHalf⟩ := children_eq_ok halves
    have bits := childBits_toNat short
    refine ⟨transition, leftRecord, rightRecord, stored, namesParent, namesBarrier, foundLeft, foundRight, leftParents,
      rightParents, ?_, ?_, halves, fun hash => ⟨left_contains halves, right_contains halves⟩⟩
    · change leftRecord.lineage.generation.toNat = record.lineage.generation.toNat + 1
      rw [leftDeep, leftHalf, deep, bits]
    · change rightRecord.lineage.generation.toNat = record.lineage.generation.toNat + 1
      rw [rightDeep, rightHalf, deep, bits]
  · -- A sealing survives one command, and so a run.
    have stays := reached.records_evolve run
      (fun before after => ∀ record, before.range? topic range = some record → record.sealedAt = some sealing →
        ∃ later, after.range? topic range = some later ∧ later.sealedAt = some sealing)
      (fun _ record present sealed => ⟨record, present, sealed⟩)
      (fun _ _ _ first second record present sealed => by
        obtain ⟨between, present, sealed⟩ := first record present sealed
        exact second between present sealed)
      fun _ _ _ _ _ _ effect record present sealed => by
        obtain ⟨later, found', -, kept⟩ := (effect.rangeMove topic range).keeps present
        exact ⟨later, found', kept sealing sealed⟩
    exact stays record found sealed

/-- Every log is applied to its end, each command at its index and with an answer. -/
theorem log_applies (log : List (UInt64 × MetadataCommand)) : ∃ events machine,
    events.map (fun event => (event.applyIndex, event.command)) = log ∧ Run Step .new events machine := by
  induction log using List.reverseRecOn with
  | nil => exact ⟨[], .new, rfl, .nil⟩
  | append_singleton log entry ih =>
    obtain ⟨events, machine, same, run⟩ := ih
    obtain ⟨response, next, applied⟩ := Reached.apply_ok ⟨events, run⟩ entry.1 entry.2
    have step : machine.Step ⟨entry.1, entry.2, response⟩ next := applied
    exact ⟨_, next, by simp [same], run.snoc step⟩

/-- Only members, replacement proofs and rebalance intents are ever removed: a key of another kind keeps a record. -/
theorem kept_records_stay (log more : List (UInt64 × MetadataCommand)) (key : MetaKey) (kept : key.isRemovable = false)
    (present : (new.afterLog log).records.record key ≠ none) :
    ((new.afterLog log).afterLog more).records.record key ≠ none := by
  generalize new.afterLog log = machine at present ⊢
  induction more generalizing machine with
  | nil => exact present
  | cons entry more ih =>
    obtain ⟨applyIndex, command⟩ := entry
    unfold MetaStateMachine.afterLog
    split
    · next response next applied =>
      refine ih next ?_
      cases apply_cases applied with
      | replayed => exact present
      | @executed after _ effect =>
        have stays : after.lookup some key ≠ none := effect.stays kept (fun _ _ => nofun) (by simpa [lookup] using present)
        simpa [lookup] using stays
    · exact present

end Runs

section SplitLog

attribute [local instance] External.plain

/-- A topic whose root range was leased and split in two. -/
def splitMachine : MetaStateMachine :=
  new.afterLog
    [(1, .RegisterNode { env := ⟨1, 0⟩, nodeUuid := 7, addr := "node", expectedGeneration := none }),
      (2, .CreateTopic { env := ⟨2, 0⟩, name := "topic", topicUuid := 10, rootRangeUuid := 11 }),
      (3, .GrantRangeLease
        { env := ⟨3, 0⟩, topicUuid := 10, rangeUuid := 11, holderNodeUuid := 7, expectedRangeGeneration := 0 }),
      (4, .SplitRange
        { env := ⟨4, 0⟩, topicUuid := 10, parentRangeUuid := 11, leftRangeUuid := 12, rightRangeUuid := 13,
          transitionId := 14, barrierOffset := 100, expectedRangeGeneration := 1, holderNodeUuid := 7,
          fencingEpoch := 1 })]

theorem key_space_partition_splitMachine :
    (splitMachine.records.range? 10 11).bind (·.sealedAt) = some { barrierOffset := 100, transitionId := 14 }
      ∧ ∃! range, ∃ record, splitMachine.records.range? 10 range = some record ∧ record.sealedAt = none
        ∧ record.keyRange.contains 5 = true := by
  have reached : splitMachine.Reached := Reached.afterLog Reachable.refl _
  exact ⟨by decide +kernel, (key_space_partition reached).1 10 (by decide +kernel) 5⟩

/-- The record of the range that was split stays. -/
theorem split_range_stays :
    (splitMachine.afterLog [(5, .RegisterNode { env := ⟨5, 0⟩, nodeUuid := 8, addr := "second", expectedGeneration := none })]
      ).records.record (.Range 10 11) ≠ none :=
  kept_records_stay _ _ (.Range 10 11) rfl (by decide +kernel)

end SplitLog

end VtopEngine.Meta
