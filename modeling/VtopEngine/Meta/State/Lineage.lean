import VtopEngine.Meta.State.Core

/-! # The lease gate and range splits

`notTheLeaseholder` is the gate the fenced commands share.  A split passes it,
seals the parent at the barrier its leaseholder names, and creates two children
that halve the parent's key interval.
-/

namespace VtopEngine.Meta

open Lib MetaKey Records Txn

variable {records : Records}

/-! ## The lease gate -/

def Records.notTheLeaseholder (records : Records) (topicUuid rangeUuid holderNodeUuid : Uuid)
    (fencingEpoch : UInt64) : Option MetadataError :=
  match records.range? topicUuid rangeUuid with
  | none => some .NotFound
  | some range =>
    match range.lease with
    | some lease =>
      if lease.holderNodeUuid = holderNodeUuid ∧ lease.fencingEpoch = fencingEpoch then none
      else some (.invalidTransition NOT_LEASEHOLDER)
    | none => some (.invalidTransition NOT_LEASEHOLDER)

/-- The range is leased to this node at this epoch. -/
def Records.HeldBy (records : Records) (topicUuid rangeUuid holderNodeUuid : Uuid) (fencingEpoch : UInt64) : Prop :=
  ∃ range lease, records.range? topicUuid rangeUuid = some range ∧ range.lease = some lease
    ∧ lease.holderNodeUuid = holderNodeUuid ∧ lease.fencingEpoch = fencingEpoch

theorem notTheLeaseholder_eq_none : records.notTheLeaseholder topicUuid rangeUuid holderNodeUuid fencingEpoch = none ↔
      records.HeldBy topicUuid rangeUuid holderNodeUuid fencingEpoch := by
  unfold notTheLeaseholder HeldBy
  cases found : records.range? topicUuid rangeUuid with
  | none => simp
  | some range => cases held : range.lease <;> simp [held]

/-! ## Splits -/

/-- Where the registered segments of a range end. -/
def Records.registeredEnd (records : Records) (topicUuid rangeUuid : Uuid) : UInt64 :=
  let start := MetaKey.Segment topicUuid rangeUuid 0
  let finish := MetaKey.Segment topicUuid rangeUuid (BitVec.allOnes 128)
  let ends := (records.between start.encode finish.encode).filterMap fun entry => entry.2.asSegment.map (·.nextOffset)
  ends.foldl max 0

/-- The cursor entry's offset, if the cursor is on the range. -/
def cursorOffsetOn (topicUuid rangeUuid : Uuid) (entry : Bytes × MetaValue) : Option UInt64 :=
  match entry.2, MetaKey.decode entry.1 with
  | .GroupCursor cursor, .ok (.GroupCursor _ cursorTopic cursorRange) =>
    if cursorTopic = topicUuid ∧ cursorRange = rangeUuid then some cursor.recordOffset else none
  | _, _ => none

/-- The highest durable cursor on a range, over a scan of every record. -/
def Records.cursorEnd (records : Records) (topicUuid rangeUuid : Uuid) : UInt64 :=
  (records.entries.filterMap (cursorOffsetOn topicUuid rangeUuid)).foldl max 0

/-- A child starts at epoch zero with no lease and a history of its own. -/
def RangeRecord.child (parent : RangeRecord) (parentRangeUuid : Uuid) (interval : Log.KeyRange) : RangeRecord :=
  { generation := 0, keyPrefix := interval.keyPrefix, keyPrefixBits := interval.prefixBits, fencingEpoch := 0,
    lineageGeneration := parent.lineageGeneration + 1, parents := [parentRangeUuid], sealedAt := none, lease := none }

/-- The children count their quorums over the parent's recorded set. -/
def Records.inheritSet (records : Records) (topicUuid leftRangeUuid rightRangeUuid : Uuid)
    (inherited : Option (List Uuid)) : Records :=
  match inherited with
  | none => records
  | some members =>
    let record := { generation := 1, members, recordedAtEpoch := 0 : RangeReplicaSetRecord }
    (records.put (.RangeReplicaSet topicUuid leftRangeUuid) (.RangeReplicaSet record)).put
      (.RangeReplicaSet topicUuid rightRangeUuid) (.RangeReplicaSet record)

/-- A command that names the recorded transition again: the same children and
    barrier are acknowledged, anything else is refused. -/
def replaySplit (args : Command.SplitRange) (parent : RangeRecord) (sealing : SealedParent) : Handler := do
  if sealing.transitionId = args.transitionId then
    match ← read (·.lineage? args.topicUuid args.transitionId) with
    | none => unreachable "a seal always writes its transition in the same apply"
    | some recorded =>
      rejectIf (recorded.leftRangeUuid ≠ args.leftRangeUuid ∨ recorded.rightRangeUuid ≠ args.rightRangeUuid
          ∨ recorded.barrierOffset ≠ args.barrierOffset)
        (.invalidTransition (s!"transition {hyphenated args.transitionId} is recorded with different "
          ++ "children or barrier; a replay must match what it replays"))
      return .Ack parent.generation
  else
    reject (.invalidTransition
      s!"range is already split under transition {hyphenated sealing.transitionId}; its key interval has moved on")

/-- The part of a split that comes after the replay check. -/
def splitUnsealed (args : Command.SplitRange) (parent : RangeRecord) : Handler := do
  rejectSome (← read (·.notTheLeaseholder args.topicUuid args.parentRangeUuid args.holderNodeUuid args.fencingEpoch))
  rejectIf (parent.generation ≠ args.expectedRangeGeneration)
    (.GenerationMismatch args.expectedRangeGeneration parent.generation)
  let registeredEnd ← read (·.registeredEnd args.topicUuid args.parentRangeUuid)
  rejectIf (args.barrierOffset < registeredEnd)
    (.invalidTransition (s!"barrier {args.barrierOffset} sits below already-registered segment "
      ++ s!"coverage ending at {registeredEnd}; the split would strand " ++ "durable records past the seal"))
  let cursorEnd ← read (·.cursorEnd args.topicUuid args.parentRangeUuid)
  rejectIf (args.barrierOffset < cursorEnd)
    (.invalidTransition (s!"barrier {args.barrierOffset} sits below a group's durable cursor at "
      ++ s!"{cursorEnd}; the split would retire history a committed " ++ "position still names"))
  match parent.keyRange.children with
  | .error error => reject (.invalidTransition s!"the parent's key interval cannot split: {error.display}")
  | .ok (leftInterval, rightInterval) =>
    rejectIf ((← read (·.record (.Range args.topicUuid args.leftRangeUuid))).isSome
        ∨ (← read (·.record (.Range args.topicUuid args.rightRangeUuid))).isSome
        ∨ (← read (·.record (.LineageTransition args.topicUuid args.transitionId))).isSome)
      .AlreadyExists
    let inherited ← read fun records => (records.replicaSet? args.topicUuid args.parentRangeUuid).map (·.members)
    write (·.put (.Range args.topicUuid args.parentRangeUuid) (.Range
      { parent with generation := parent.generation + 1
                    sealedAt := some { barrierOffset := args.barrierOffset, transitionId := args.transitionId } }))
    write (·.put (.Range args.topicUuid args.leftRangeUuid) (.Range (parent.child args.parentRangeUuid leftInterval)))
    write (·.put (.Range args.topicUuid args.rightRangeUuid) (.Range (parent.child args.parentRangeUuid rightInterval)))
    write (·.inheritSet args.topicUuid args.leftRangeUuid args.rightRangeUuid inherited)
    write (·.put (.LineageTransition args.topicUuid args.transitionId) (.LineageTransition
      { parentRangeUuid := args.parentRangeUuid, barrierOffset := args.barrierOffset,
        leftRangeUuid := args.leftRangeUuid, rightRangeUuid := args.rightRangeUuid,
        sealedByEpoch := args.fencingEpoch, issuedAtMs := args.env.issuedAtMs }))
    return .Ack (parent.generation + 1)

def splitRange (args : Command.SplitRange) : Handler := do
  rejectIf (args.leftRangeUuid = 0 ∨ args.rightRangeUuid = 0 ∨ args.transitionId = 0)
    (.invalidTransition "split names a nil id; child and transition ids must be real")
  rejectIf (args.leftRangeUuid = args.rightRangeUuid ∨ args.leftRangeUuid = args.parentRangeUuid
      ∨ args.rightRangeUuid = args.parentRangeUuid)
    (.invalidTransition "split ids must be three distinct ranges: a parent and two children")
  let parent ← need (·.range? args.topicUuid args.parentRangeUuid) .NotFound
  match parent.sealedAt with
  | some sealing => replaySplit args parent sealing
  | none => splitUnsealed args parent

/-- The state after a split. -/
def Records.split (records : Records) (args : Command.SplitRange) (parent : RangeRecord)
    (leftInterval rightInterval : Log.KeyRange) : Records :=
  let ranges := ((records.put (.Range args.topicUuid args.parentRangeUuid) (.Range
      { parent with generation := parent.generation + 1
                    sealedAt := some { barrierOffset := args.barrierOffset, transitionId := args.transitionId } })).put
    (.Range args.topicUuid args.leftRangeUuid) (.Range (parent.child args.parentRangeUuid leftInterval))).put
    (.Range args.topicUuid args.rightRangeUuid) (.Range (parent.child args.parentRangeUuid rightInterval))
  (ranges.inheritSet args.topicUuid args.leftRangeUuid args.rightRangeUuid
      ((records.replicaSet? args.topicUuid args.parentRangeUuid).map (·.members))).put
    (.LineageTransition args.topicUuid args.transitionId) (.LineageTransition
      { parentRangeUuid := args.parentRangeUuid, barrierOffset := args.barrierOffset,
        leftRangeUuid := args.leftRangeUuid, rightRangeUuid := args.rightRangeUuid,
        sealedByEpoch := args.fencingEpoch, issuedAtMs := args.env.issuedAtMs })

/-- Inheriting a set writes replica sets only. -/
theorem Records.lookup_inheritSet {α : Type} (records : Records) (view : MetaValue → Option α) {key : MetaKey}
    (other : key.category ≠ 20) (topicUuid leftRangeUuid rightRangeUuid : Uuid) (inherited : Option (List Uuid)) :
    (records.inheritSet topicUuid leftRangeUuid rightRangeUuid inherited).lookup view key = records.lookup view key := by
  have apart : ∀ topic range, RangeReplicaSet topic range ≠ key := by
    rintro topic range rfl
    exact other rfl
  cases inherited <;> simp [inheritSet, lookup_put, apart]

section Split

variable (records : Records) (args : Command.SplitRange) (parent : RangeRecord)
  (leftInterval rightInterval : Log.KeyRange) (topic range : Uuid)

/-- A set after a split was there before, or has the parent's members. -/
theorem Records.replicaSet?_split {set}
    (found : (records.split args parent leftInterval rightInterval).replicaSet? topic range = some set) :
    records.replicaSet? topic range = some set
      ∨ ∃ inherited, records.replicaSet? args.topicUuid args.parentRangeUuid = some inherited
        ∧ set.members = inherited.members := by
  unfold split inheritSet at found
  cases recorded : records.replicaSet? args.topicUuid args.parentRangeUuid with
  | none =>
    rw [recorded] at found
    exact .inl (by simpa using found)
  | some inherited =>
    simp only [recorded, Option.map_some, replicaSet?_put, reduceCtorEq, if_false] at found
    split at found
    · cases found
      exact .inr ⟨inherited, rfl, rfl⟩
    · split at found
      · cases found
        exact .inr ⟨inherited, rfl, rfl⟩
      · exact .inl found

theorem Records.range?_split : (records.split args parent leftInterval rightInterval).range? topic range =
      if args.topicUuid = topic ∧ args.rightRangeUuid = range then
        some (parent.child args.parentRangeUuid rightInterval)
      else if args.topicUuid = topic ∧ args.leftRangeUuid = range then
        some (parent.child args.parentRangeUuid leftInterval)
      else if args.topicUuid = topic ∧ args.parentRangeUuid = range then
        some { parent with
          generation := parent.generation + 1
          sealedAt := some { barrierOffset := args.barrierOffset, transitionId := args.transitionId } }
      else
        records.range? topic range := by
  simp only [split, range?, lookup_put, reduceCtorEq, if_false]
  rw [lookup_inheritSet _ _ (by simp [category])]
  simp only [lookup_put, Range.injEq, MetaValue.asRange]

theorem Records.lineage?_split (transitionId) :
    (records.split args parent leftInterval rightInterval).lineage? topic transitionId =
      if args.topicUuid = topic ∧ args.transitionId = transitionId then
        some { parentRangeUuid := args.parentRangeUuid, barrierOffset := args.barrierOffset,
               leftRangeUuid := args.leftRangeUuid, rightRangeUuid := args.rightRangeUuid,
               sealedByEpoch := args.fencingEpoch, issuedAtMs := args.env.issuedAtMs }
      else
        records.lineage? topic transitionId := by
  simp only [split, lineage?, lookup_put, LineageTransition.injEq, MetaValue.asLineageTransition]
  rw [lookup_inheritSet _ _ (by simp [category])]
  simp only [lookup_put, reduceCtorEq, if_false]

theorem Records.topic?_split :
    (records.split args parent leftInterval rightInterval).topic? topic = records.topic? topic := by
  simp only [split, topic?, lookup_put, reduceCtorEq, if_false]
  rw [lookup_inheritSet _ _ (by simp [category])]
  simp only [lookup_put, reduceCtorEq, if_false]

end Split

inductive Command.SplitRange.Accepted (args : SplitRange) (records : Records) :
    MetadataResponse → Records → Prop
  | replay
      (found : records.range? args.topicUuid args.parentRangeUuid = some parent)
      (sealed : parent.sealedAt = some sealing) (same : sealing.transitionId = args.transitionId)
      (transition : records.lineage? args.topicUuid args.transitionId = some recorded)
      (left : recorded.leftRangeUuid = args.leftRangeUuid) (right : recorded.rightRangeUuid = args.rightRangeUuid)
      (barrier : recorded.barrierOffset = args.barrierOffset) :
      Accepted args records (.Ack parent.generation) records
  | split
      (siblings : args.leftRangeUuid ≠ args.rightRangeUuid) (left : args.leftRangeUuid ≠ args.parentRangeUuid)
      (right : args.rightRangeUuid ≠ args.parentRangeUuid)
      (found : records.range? args.topicUuid args.parentRangeUuid = some parent)
      (unsealed : parent.sealedAt = none)
      (held : records.HeldBy args.topicUuid args.parentRangeUuid args.holderNodeUuid args.fencingEpoch)
      (current : parent.generation = args.expectedRangeGeneration)
      (coverage : records.registeredEnd args.topicUuid args.parentRangeUuid ≤ args.barrierOffset)
      (cursors : records.cursorEnd args.topicUuid args.parentRangeUuid ≤ args.barrierOffset)
      (halves : parent.keyRange.children = .ok (leftInterval, rightInterval))
      (leftAbsent : records.record (.Range args.topicUuid args.leftRangeUuid) = none)
      (rightAbsent : records.record (.Range args.topicUuid args.rightRangeUuid) = none)
      (transitionAbsent : records.record (.LineageTransition args.topicUuid args.transitionId) = none) :
      Accepted args records (.Ack (parent.generation + 1)) (records.split args parent leftInterval rightInterval)

theorem replaySplit_spec (args : Command.SplitRange)
    (found : records.range? args.topicUuid args.parentRangeUuid = some parent)
    (sealed : parent.sealedAt = some sealing) : (replaySplit args parent sealing).Meets args.Accepted records := by
  unfold replaySplit
  split
  · next same =>
    refine wp_read_bind ?_
    split
    · next missing =>
      refine unchanged_panicked fun healthy => ?_
      exact healthy.seals _ _ _ _ found sealed (same ▸ missing)
    · next recorded transition =>
      refine rejectIf_keeps fun matching => ?_
      simp only [ne_eq, not_or, not_not] at matching
      exact .replay found sealed same transition matching.1 matching.2.1 matching.2.2
  · exact reject_keeps

theorem splitRange_spec (args) : (splitRange args).Meets args.Accepted records := by
  refine rejectIf_keeps fun _ => rejectIf_keeps fun distinct => ?_
  rw [not_or, not_or] at distinct
  refine need_keeps fun parent found => ?_
  split
  · next sealing sealed => exact replaySplit_spec args found sealed
  · next unsealed =>
    refine wp_read_bind (rejectSome_keeps fun held => ?_)
    refine rejectIf_keeps fun current => wp_read_bind ?_
    refine rejectIf_keeps fun coverage => wp_read_bind ?_
    refine rejectIf_keeps fun cursors => ?_
    split
    · exact reject_keeps
    · next leftInterval rightInterval halves =>
      refine wp_read_bind (wp_read_bind (wp_read_bind (rejectIf_keeps fun absent => ?_)))
      simp only [not_or, Option.not_isSome_iff_eq_none] at absent
      exact .split distinct.1 distinct.2.1 distinct.2.2 found unsealed (notTheLeaseholder_eq_none.mp held)
        (not_not.mp current) (UInt64.not_lt.mp coverage) (UInt64.not_lt.mp cursors) halves absent.1 absent.2.1 absent.2.2

end VtopEngine.Meta
