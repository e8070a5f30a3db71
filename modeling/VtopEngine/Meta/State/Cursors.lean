import VtopEngine.Meta.State.Core

/-! # Durable cursors

A commit binds a cursor to the topic epoch and the range's lineage.  A pinned
cursor names a registered segment and only moves forward; an unpinned one (nil
segment) moves either way within its lineage.  A compare-and-set on the
checkpoint generation fences stale writers in both cases.
-/

namespace VtopEngine.Meta

open Lib Txn

variable {records : Records}

def cursorIsForwardOrEqual (existing : CursorCheckpointRecord) (args : CommitCursorArgs) : Except MetadataError Unit :=
  if args.segmentUuid = existing.segmentUuid then
    if args.segmentGeneration ≠ existing.segmentGeneration ∨ args.segmentRoot ≠ existing.segmentRoot then
      .error (.invalidTransition "same segment identity changed generation or root")
    else if args.recordOffset < existing.recordOffset
        ∨ args.recordOffset = existing.recordOffset ∧ args.recordIndex < existing.recordIndex then
      .error (.invalidTransition "cursor moved backward within the same segment")
    else
      .ok ()
  else if args.recordOffset ≤ existing.recordOffset then
    .error (.invalidTransition "cursor did not advance across segment identity change")
  else
    .ok ()

/-- A pre-lineage snapshot stored the range's CAS token; exactly that value is
    accepted once more and normalised. -/
def legacyCursorGeneration (existing : Option MetaValue) (range : RangeRecord) (args : CommitCursorArgs) : Bool :=
  match existing with
  | some (.GroupCursor existing) =>
    range.lineageGeneration = 0 ∧ args.rangeGeneration ≠ 0 ∧ existing.rangeGeneration = args.rangeGeneration
  | _ => false

/-- An unpinned cursor names nothing of a segment; a pinned one names a
    registered segment, its generation and root, and an offset inside it. -/
def checkPin (args : CommitCursorArgs) : Txn Records MetadataError Unit := do
  if args.segmentUuid = 0 then
    rejectIf ((← read (·.record (.Segment args.topicUuid args.rangeUuid 0))).isSome) (.invalidTransition
        "a segment registered under the reserved nil id cannot be pinned; nil marks an unpinned cursor")
    rejectIf (args.segmentGeneration ≠ 0 ∨ args.segmentRoot ≠ Vector.replicate 32 0 ∨ args.recordIndex ≠ 0)
      (.invalidTransition "an unpinned cursor (nil segment) carries no segment generation, root or record index")
  else
    let segment ← need (·.segment? args.topicUuid args.rangeUuid args.segmentUuid) .NotFound
    rejectIf (segment.segmentGeneration ≠ args.segmentGeneration)
      (.GenerationMismatch args.segmentGeneration segment.segmentGeneration)
    rejectIf (segment.contentRoot ≠ args.segmentRoot)
      (.invalidTransition "segment root does not match the registered segment")
    rejectIf (args.recordOffset < segment.baseOffset ∨ args.recordOffset > segment.nextOffset) (.invalidTransition
        s!"record offset {args.recordOffset} is outside sealed segment [{segment.baseOffset}, {segment.nextOffset}]")

/-- The checks of a commit over a stored cursor, after its generation matched. -/
def advanceRefusal (existing : CursorCheckpointRecord) (args : CommitCursorArgs) (legacy : Bool)
    (committedRangeGeneration : UInt64) : Option MetadataError :=
  if existing.topicEpoch ≠ args.topicEpoch then
    some (.EpochMismatch args.topicEpoch existing.topicEpoch)
  else if (args.segmentUuid = 0 ∨ existing.segmentUuid = 0) ∧ legacy = false
      ∧ existing.rangeGeneration ≠ committedRangeGeneration then
    some (.invalidTransition ("an unpinned cursor does not advance across a lineage change; "
      ++ "the transition rule that carries it is not served yet"))
  else if args.segmentUuid = 0 ∧ existing.segmentUuid = 0 then
    none
  else if (args.segmentUuid = 0) ≠ (existing.segmentUuid = 0) then
    if args.recordOffset < existing.recordOffset then
      some (.invalidTransition "cursor moved backward across a pin change")
    else
      none
  else
    match cursorIsForwardOrEqual existing args with
    | .error error => some error
    | .ok () => none

/-- The checkpoint a commit writes. -/
def CommitCursorArgs.checkpoint (args : CommitCursorArgs) (rangeGeneration checkpointGeneration : UInt64) :
    CursorCheckpointRecord :=
  { topicEpoch := args.topicEpoch, rangeGeneration, segmentUuid := args.segmentUuid,
    segmentGeneration := args.segmentGeneration, segmentRoot := args.segmentRoot, recordOffset := args.recordOffset,
    recordIndex := args.recordIndex, lineageTransitionId := args.lineageTransitionId, checkpointGeneration,
    committedByMember := args.memberUuid }

def CommitCursorArgs.assignment (args : CommitCursorArgs) : RangeAssignment :=
  { topicUuid := args.topicUuid, rangeUuid := args.rangeUuid }

def commitGroupCursor (args : CommitCursorArgs) : Handler := do
  let _ ← need (·.group? args.groupUuid) .NotFound
  let member ← need (·.member? args.groupUuid args.memberUuid) .NotFound
  rejectIf (args.assignment ∉ member.assigned) (.invalidTransition NOT_ASSIGNED)
  let topic ← need (·.topic? args.topicUuid) .NotFound
  rejectIf (topic.topicEpoch ≠ args.topicEpoch) (.EpochMismatch args.topicEpoch topic.topicEpoch)
  let range ← need (·.range? args.topicUuid args.rangeUuid) .NotFound
  let existing ← read (·.record (.GroupCursor args.groupUuid args.topicUuid args.rangeUuid))
  let legacy := legacyCursorGeneration existing range args
  rejectIf (range.lineageGeneration ≠ args.rangeGeneration ∧ legacy = false)
    (.LineageMismatch args.rangeGeneration range.lineageGeneration)
  checkPin args
  match existing, args.expectedCheckpointGeneration with
  | none, none =>
    write (·.put (.GroupCursor args.groupUuid args.topicUuid args.rangeUuid)
      (.GroupCursor (args.checkpoint range.lineageGeneration 0)))
    return .CursorCommitted 0
  | none, some _ => reject .NotFound
  | some _, none => reject .AlreadyExists
  | some (.GroupCursor existing), some expected =>
    rejectIf (existing.checkpointGeneration ≠ expected) (.GenerationMismatch expected existing.checkpointGeneration)
    rejectSome (advanceRefusal existing args legacy range.lineageGeneration)
    let nextGeneration ← need (fun _ => checkedSucc existing.checkpointGeneration)
      (.limit "checkpoint generation space is exhausted")
    write (·.put (.GroupCursor args.groupUuid args.topicUuid args.rangeUuid)
      (.GroupCursor (args.checkpoint range.lineageGeneration nextGeneration)))
    return .CursorCommitted nextGeneration
  | some _, some _ => unreachable "cursor keys only hold cursor records"

/-! ## What an accepted commit has passed -/

/-- What `checkPin` establishes. -/
def CommitCursorArgs.PinValid (args : CommitCursorArgs) (records : Records) : Prop :=
  (args.segmentUuid = 0 ∧ records.record (.Segment args.topicUuid args.rangeUuid 0) = none ∧ args.segmentGeneration = 0
    ∧ args.segmentRoot = Vector.replicate 32 0 ∧ args.recordIndex = 0)
  ∨ args.segmentUuid ≠ 0 ∧ ∃ segment, records.segment? args.topicUuid args.rangeUuid args.segmentUuid = some segment
    ∧ segment.segmentGeneration = args.segmentGeneration ∧ segment.contentRoot = args.segmentRoot
    ∧ segment.baseOffset ≤ args.recordOffset ∧ args.recordOffset ≤ segment.nextOffset

theorem checkPin_spec (args) :
    (checkPin args).wp (fun _ reached => reached = records ∧ args.PinValid records) (Clean records) records := by
  unfold checkPin
  split
  · next unpinned =>
    refine wp_read_bind (rejectIf_keeps fun unregistered => ?_)
    refine wp_rejectIf (fun empty => ⟨rfl, .inl ⟨unpinned, by simpa using unregistered, ?_⟩⟩) fun _ => unchanged_rejected
    simpa only [not_or, not_not] using empty
  · next pinned =>
    refine need_keeps fun segment found => rejectIf_keeps fun generation => ?_
    refine rejectIf_keeps fun root => wp_rejectIf (fun offsets => ?_) fun _ => unchanged_rejected
    rw [not_or, UInt64.not_lt, gt_iff_lt, UInt64.not_lt] at offsets
    exact ⟨rfl, .inr ⟨pinned, segment, found, not_not.mp generation, not_not.mp root, offsets.1, offsets.2⟩⟩

theorem CommitCursorArgs.PinValid.passes {args : CommitCursorArgs} (valid : args.PinValid records) :
    (checkPin args).wp (fun _ reached => reached = records) (fun _ _ => False) records := by
  unfold checkPin
  obtain ⟨unpinned, unregistered, empty⟩ | ⟨pinned, segment, found, generation, root, above, below⟩ := valid
  · rw [if_pos unpinned]
    refine wp_read_bind (rejectIf_passes (by rw [unregistered]; nofun) (wp_rejectIf (fun _ => rfl) fun carries => ?_))
    simp [empty] at carries
  · rw [if_neg pinned]
    refine need_found found (rejectIf_passes (not_not.mpr generation) (rejectIf_passes (not_not.mpr root) ?_))
    refine wp_rejectIf (fun _ => rfl) fun outside => outside.elim (UInt64.not_lt.mpr above) (UInt64.not_lt.mpr below)

/-- What every accepted commit has passed, whether or not a cursor was stored. -/
structure CommitCursorArgs.Admits (args : CommitCursorArgs) (records : Records) (range : RangeRecord) : Prop where
  group : records.group? args.groupUuid ≠ none
  owns : ∃ member, records.member? args.groupUuid args.memberUuid = some member ∧ args.assignment ∈ member.assigned
  topic : ∃ topic, records.topic? args.topicUuid = some topic ∧ topic.topicEpoch = args.topicEpoch
  found : records.range? args.topicUuid args.rangeUuid = some range
  lineage : range.lineageGeneration = args.rangeGeneration
    ∨ legacyCursorGeneration (records.record (.GroupCursor args.groupUuid args.topicUuid args.rangeUuid)) range args = true
  pin : args.PinValid records

inductive CommitCursorArgs.Accepted (args : CommitCursorArgs) (records : Records) : MetadataResponse → Records → Prop
  | first (admits : args.Admits records range)
      (absent : records.record (.GroupCursor args.groupUuid args.topicUuid args.rangeUuid) = none)
      (expected : args.expectedCheckpointGeneration = none) :
      Accepted args records (.CursorCommitted 0) (records.put (.GroupCursor args.groupUuid args.topicUuid args.rangeUuid)
          (.GroupCursor (args.checkpoint range.lineageGeneration 0)))
  | advance
      (admits : args.Admits records range)
      (stored : records.record (.GroupCursor args.groupUuid args.topicUuid args.rangeUuid) = some (.GroupCursor existing))
      (expected : args.expectedCheckpointGeneration = some existing.checkpointGeneration)
      (allowed : advanceRefusal existing args (legacyCursorGeneration (some (.GroupCursor existing)) range args)
        range.lineageGeneration = none)
      (next : checkedSucc existing.checkpointGeneration = some nextGeneration) :
      Accepted args records (.CursorCommitted nextGeneration)
        (records.put (.GroupCursor args.groupUuid args.topicUuid args.rangeUuid)
          (.GroupCursor (args.checkpoint range.lineageGeneration nextGeneration)))

theorem commitGroupCursor_spec (args) : (commitGroupCursor args).Meets args.Accepted records := by
  refine need_keeps fun group grouped => need_keeps fun member joined => ?_
  refine rejectIf_keeps fun owns => need_keeps fun topic topical => ?_
  refine rejectIf_keeps fun epoch => need_keeps fun range ranged => wp_read_bind ?_
  refine rejectIf_keeps fun lineage => check_keeps (checkPin_spec args) fun _ pin => ?_
  rw [not_and, Bool.not_eq_false] at lineage
  have admits : args.Admits records range :=
    ⟨by simp [grouped], ⟨member, joined, not_not.mp owns⟩, ⟨topic, topical, not_not.mp epoch⟩, ranged,
      or_iff_not_imp_left.mpr lineage, pin⟩
  split
  · next absent expected => exact .first admits absent expected
  · exact reject_keeps
  · exact reject_keeps
  · next existing generation stored expected =>
    refine rejectIf_keeps fun current => rejectSome_keeps fun allowed => ?_
    refine need_keeps fun nextGeneration next => ?_
    rw [stored] at allowed
    exact .advance admits stored ((not_not.mp current) ▸ expected) allowed next
  · next value generation notCursor stored expected =>
    refine unchanged_panicked fun healthy => ?_
    have kind := healthy.typed _ _ stored
    cases value <;> simp_all [keyMatchesValue]

/-! ## What makes a commit accepted -/

/-- The checks of a commit, on what is stored before it. -/
def CommitCursorArgs.Passes (args : CommitCursorArgs) (records : Records) : Prop :=
  ∃ range, args.Admits records range ∧
    match records.record (.GroupCursor args.groupUuid args.topicUuid args.rangeUuid) with
    | none => args.expectedCheckpointGeneration = none
    | some (.GroupCursor existing) => args.expectedCheckpointGeneration = some existing.checkpointGeneration
      ∧ advanceRefusal existing args (legacyCursorGeneration (some (.GroupCursor existing)) range args)
        range.lineageGeneration = none
      ∧ checkedSucc existing.checkpointGeneration ≠ none
    | some _ => False

theorem CommitCursorArgs.Accepted.passes {args : CommitCursorArgs} (accepts : args.Accepted records response after) :
    args.Passes records := by
  cases accepts with
  | first admits absent expected => exact ⟨_, admits, by rw [absent]; exact expected⟩
  | advance admits stored expected allowed next =>
    exact ⟨_, admits, by rw [stored]; exact ⟨expected, allowed, by simp [next]⟩⟩

theorem CommitCursorArgs.Passes.runs {args : CommitCursorArgs} (passes : args.Passes records) :
    (commitGroupCursor args).wp (fun response _ => ∃ generation, response = .CursorCommitted generation)
      (fun _ _ => False) records := by
  obtain ⟨range, admits, checkpoint⟩ := passes
  obtain ⟨group, found⟩ := Option.ne_none_iff_exists'.mp admits.group
  obtain ⟨member, joined, owned⟩ := admits.owns
  obtain ⟨topic, topical, epoch⟩ := admits.topic
  refine need_found found (need_found joined (rejectIf_passes (not_not.mpr owned) ?_))
  refine need_found topical (rejectIf_passes (not_not.mpr epoch) (need_found admits.found (wp_read_bind ?_)))
  refine rejectIf_passes (by rintro ⟨other, fresh⟩; exact admits.lineage.elim other (by simp [fresh])) (wp_bind.mpr ?_)
  refine wp_mono admits.pin.passes ?_ fun _ _ => id
  rintro _ _ rfl
  split at checkpoint
  · next absent =>
    rw [absent, checkpoint]
    exact ⟨_, rfl⟩
  · next existing stored =>
    obtain ⟨expected, allowed, room⟩ := checkpoint
    obtain ⟨next, succeeds⟩ := Option.ne_none_iff_exists'.mp room
    rw [stored, expected]
    exact rejectIf_passes (by simp) (rejectSome_passes allowed (need_found succeeds ⟨_, rfl⟩))
  · exact checkpoint.elim

end VtopEngine.Meta
