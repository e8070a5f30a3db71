import Mathlib.Data.List.TakeWhile
import VtopEngine.Meta.Wire

/-! # A range's log

The records of one replica as a sequence of segments (`segment.rs`, `segment_set.rs`):
groups are validated whole against the producers' sequences and appended to the tail,
which rolls at its bound; truncation cuts the tail, or whole segments.

The producer state a segment keeps is what scanning its records yields, so it is computed
from the records here.  Records below `baseOffset` were reclaimed; the producers' frontier
still covers them, which is why they stay in `records`.

* `SegmentSet` — the log, with the order of its offsets.
* `appendGroup_extends` — an append adds records at the end and nothing else.
* `truncateTo_truncated` — a truncation keeps exactly the records below the cut.
-/

namespace VtopEngine.Log

open List Nat

open Meta (Uuid)

/-- How many sequences of a session stay known for duplicate detection. -/
def PRODUCER_SEQUENCE_WINDOW : Nat := 65536

structure LogRecord where
  producerId : Uuid
  (producerEpoch sequence : Nat)
  timestampMillis : Int
  (key value : List UInt8)
  deriving DecidableEq, Repr

inductive Durability
  | Buffered | Fsync
  deriving DecidableEq, Repr

inductive AppendOutcome
  | Appended (offset : Nat)
  | Duplicate (offset : Nat)
  deriving DecidableEq, Repr

def AppendOutcome.offset : AppendOutcome → Nat
  | .Appended offset | .Duplicate offset => offset

/-- The errors of the log that appends and truncations answer with. -/
inductive SegmentError
  | FirstSequence (producerId : Uuid) (actual : Nat)
  | SequenceGap (producerId : Uuid) (expected actual : Nat)
  | SequenceConflict (producerId : Uuid) (sequence : Nat)
  | SequenceBelowWindow (producerId : Uuid) (producerEpoch sequence windowFloor : Nat)
  | ProducerFenced (producerId : Uuid) (latestEpoch actualEpoch : Nat)
  | SegmentRecordLimit (attempted maximum : Nat)
  | TruncateBeyondTail (requested nextOffset : Nat)
  | InvalidConfig (message : String)
  deriving DecidableEq, Repr

/-! ## Producer sequences -/

inductive SequenceDecision
  | Append
  | Duplicate (offset : Nat)
  deriving DecidableEq, Repr

/-- Records of one producer under one producer epoch. -/
def SameSession (first second : LogRecord) : Prop :=
  first.producerId = second.producerId ∧ first.producerEpoch = second.producerEpoch

instance (first second : LogRecord) : Decidable (SameSession first second) :=
  inferInstanceAs (Decidable (_ ∧ _))

def latestSequence (records : List LogRecord) (record : LogRecord) : Option Nat :=
  (records.reverse.find? fun earlier => SameSession earlier record).map LogRecord.sequence

def latestEpoch (records : List LogRecord) (producerId : Uuid) : Option Nat :=
  ((records.filter fun earlier => earlier.producerId = producerId).map LogRecord.producerEpoch).max?

def sequenceWindowFloor (latest : Nat) : Nat := latest - (PRODUCER_SEQUENCE_WINDOW - 1)

/-- Where a session's sequence was stored, and the record there, while the retry window remembers it. -/
def seen (records : List LogRecord) (record : LogRecord) : Option (LogRecord × Nat) :=
  match latestSequence records record with
  | none => none
  | some latest =>
    if record.sequence < sequenceWindowFloor latest then none
    else records.zipIdx.reverse.find? fun stored => SameSession stored.1 record ∧ stored.1.sequence = record.sequence

def sequenceBelowWindow (record : LogRecord) (latest : Nat) : Option SegmentError :=
  if record.sequence < sequenceWindowFloor latest then
    some (.SequenceBelowWindow record.producerId record.producerEpoch record.sequence (sequenceWindowFloor latest))
  else none

/-- A sequence that is remembered repeats its record or conflicts with it. -/
def decideSeen (record : LogRecord) (stored : LogRecord) (offset : Nat) : Except SegmentError SequenceDecision :=
  if record = stored then .ok (.Duplicate offset) else .error (.SequenceConflict record.producerId record.sequence)

def validateEpochNotFenced (latestEpoch : Option Nat) (record : LogRecord) : Except SegmentError Unit :=
  match latestEpoch with
  | some latest =>
    if record.producerEpoch < latest then .error (.ProducerFenced record.producerId latest record.producerEpoch)
    else .ok ()
  | none => .ok ()

/-- The frontier check: a new session starts at zero, and a known one goes on by one. -/
def validateNext (latest : Option Nat) (record : LogRecord) : Except SegmentError SequenceDecision :=
  match latest with
  | none => if record.sequence = 0 then .ok .Append else .error (.FirstSequence record.producerId record.sequence)
  | some latest =>
    match sequenceBelowWindow record latest with
    | some problem => .error problem
    | none =>
      if UInt64.size ≤ latest + 1 then .error (.SequenceGap record.producerId (UInt64.size - 1) record.sequence)
      else if record.sequence ≠ latest + 1 then .error (.SequenceGap record.producerId (latest + 1) record.sequence)
      else .ok .Append

/-- What a record of a group is, after the records stored before the group and the pending ones of the group. -/
def validateSequenceWithDelta (stored pending : List LogRecord) (record : LogRecord) :
    Except SegmentError SequenceDecision :=
  match seen pending record with
  | some (earlier, index) => decideSeen record earlier (stored.length + index)
  | none =>
    match (latestSequence pending record).bind (sequenceBelowWindow record) with
    | some problem => .error problem
    | none =>
      match seen stored record with
      | some (earlier, offset) => decideSeen record earlier offset
      | none => do
        validateEpochNotFenced ((latestEpoch pending record.producerId).or (latestEpoch stored record.producerId)) record
        validateNext ((latestSequence pending record).or (latestSequence stored record)) record

/-- A group is validated whole: the new records it adds after the pending ones, and an outcome for each of its records. -/
def validateGroup (stored : List LogRecord) : List LogRecord → List LogRecord →
    Except SegmentError (List LogRecord × List AppendOutcome)
  | pending, [] => .ok (pending, [])
  | pending, record :: group => do
    match ← validateSequenceWithDelta stored pending record with
    | .Duplicate offset => do
      let (added, outcomes) ← validateGroup stored pending group
      pure (added, .Duplicate offset :: outcomes)
    | .Append => do
      let (added, outcomes) ← validateGroup stored (pending ++ [record]) group
      pure (added, .Appended (stored.length + pending.length) :: outcomes)

/-! ## Segments -/

/-- The records from offset zero, where the sealed segments and the tail begin, and the durable frontier. -/
structure SegmentSet where
  records : List LogRecord
  sealed : List Nat
  (tailBase committedOffset maxSegmentRecords : Nat)
  layout : (sealed ++ [tailBase]).Pairwise (· < ·)
  tailDurable : tailBase ≤ committedOffset
  durable : committedOffset ≤ records.length

namespace SegmentSet

def empty (maxSegmentRecords : Nat) : SegmentSet :=
  { records := [], sealed := [], tailBase := 0, committedOffset := 0, maxSegmentRecords,
    layout := pairwise_singleton _ _, tailDurable := le_refl 0, durable := le_refl 0 }

/-- First offset the range still holds. -/
def baseOffset (set : SegmentSet) : Nat := set.sealed.head?.getD set.tailBase

def nextOffset (set : SegmentSet) : Nat := set.records.length

def commit (set : SegmentSet) : SegmentSet :=
  { set with
    committedOffset := set.nextOffset
    tailDurable := le_trans set.tailDurable set.durable
    durable := le_refl _ }

/-- Seal the tail, which makes it durable, and open a successor; an empty tail stays. -/
def roll (set : SegmentSet) : SegmentSet :=
  if grown : set.nextOffset = set.tailBase then set
  else
    { set with
      sealed := set.sealed ++ [set.tailBase]
      tailBase := set.nextOffset
      committedOffset := set.nextOffset
      layout := by
        refine pairwise_append.mpr ⟨set.layout, pairwise_singleton _ _, fun base member next isNext => ?_⟩
        obtain rfl := mem_singleton.mp isNext
        have below : base ≤ set.tailBase := by
          rcases mem_append.mp member with sealed | tail
          · exact le_of_lt ((pairwise_append.mp set.layout).2.2 base sealed _ mem_cons_self)
          · exact le_of_eq (mem_singleton.mp tail)
        have grows : set.tailBase ≤ set.nextOffset := le_trans set.tailDurable set.durable
        omega
      tailDurable := le_refl _
      durable := le_refl _ }

/-- The tail with validated records behind it. -/
def extend (set : SegmentSet) (added : List LogRecord) (durability : Durability) : SegmentSet :=
  { set with
    records := set.records ++ added
    committedOffset :=
      match durability with
      | .Fsync => set.nextOffset + added.length
      | .Buffered => set.committedOffset
    tailDurable := by
      have := set.tailDurable
      have := set.durable
      cases durability <;> simp only [nextOffset] <;> omega
    durable := by
      have := set.durable
      cases durability <;> simp only [nextOffset, length_append] <;> omega }

/-- Append a group to the tail, without rolling. -/
def appendGroupTailOnly (set : SegmentSet) (group : List LogRecord) (durability : Durability) :
    Except SegmentError (SegmentSet × List AppendOutcome) := do
  let (added, outcomes) ← validateGroup set.records [] group
  if added.isEmpty then
    pure (match durability with
      | .Fsync => set.commit
      | .Buffered => set, outcomes)
  else
    let attempted := set.nextOffset - set.tailBase + added.length
    if set.maxSegmentRecords < attempted then .error (.SegmentRecordLimit attempted set.maxSegmentRecords)
    else pure (set.extend added durability, outcomes)

/-- Append a group, rolling the tail if the group does not fit in it. -/
def appendGroup (set : SegmentSet) (group : List LogRecord) (durability : Durability) :
    Except SegmentError (SegmentSet × List AppendOutcome) :=
  match set.appendGroupTailOnly group durability with
  | .error (.SegmentRecordLimit _ _) =>
    if set.nextOffset = set.tailBase then set.appendGroupTailOnly group durability
    else set.roll.appendGroupTailOnly group durability
  | other => other

/-- Cut at an offset inside the tail, or at the base of a sealed segment, which becomes the tail's. -/
def cutAt (set : SegmentSet) (offset : Nat) (within : offset ≤ set.nextOffset) (sealed : List Nat) (tailBase : Nat)
    (layout : (sealed ++ [tailBase]).Pairwise (· < ·)) (reaches : tailBase ≤ offset) : SegmentSet :=
  { set with
    records := set.records.take offset
    sealed
    tailBase
    committedOffset := offset
    layout
    tailDurable := reaches
    durable := by
      rw [length_take]
      exact Nat.le_min.mpr ⟨Nat.le_refl _, within⟩ }

/-- The segments below a cut are a layout of their own with the cut as the tail. -/
theorem layout_below (set : SegmentSet) (offset : Nat) :
    (set.sealed.takeWhile (· < offset) ++ [offset]).Pairwise (· < ·) := by
  refine pairwise_append.mpr ⟨(pairwise_append.mp set.layout).1.sublist (takeWhile_sublist _),
    pairwise_singleton _ _, fun base member next isNext => ?_⟩
  obtain rfl := mem_singleton.mp isNext
  simpa using mem_takeWhile_imp member

/-- Discard every record at or above an offset, and say how many went. -/
def truncateTo (set : SegmentSet) (offset : Nat) : Except SegmentError (SegmentSet × Nat) :=
  if beyond : set.nextOffset < offset then .error (.TruncateBeyondTail offset set.nextOffset)
  else if across : offset < set.tailBase then
    if offset ∈ set.sealed then
      .ok (set.cutAt offset (not_lt.mp beyond) (set.sealed.takeWhile (· < offset)) offset (set.layout_below offset)
        (le_refl _), set.nextOffset - offset)
    else
      let start := set.tailBase
      .error (.InvalidConfig
        s!"cannot truncate to offset {offset}: it is below the active segment's start {start} and does not land on a sealed segment boundary; a cut inside a sealed segment would need the retained part of an immutable file rewritten, which is a different repair than deleting whole segments")
  else if offset = set.nextOffset then .ok (set, 0)
  else
    .ok (set.cutAt offset (not_lt.mp beyond) set.sealed set.tailBase set.layout (not_lt.mp across), set.nextOffset - offset)

/-! ## What the operations keep -/

variable {set after : SegmentSet} {durability : Durability} {offset removed : Nat}

/-- What an append leaves: the old records, then the new ones. -/
structure Extends (set after : SegmentSet) (added : List LogRecord) (durability : Durability) : Prop where
  records : after.records = set.records ++ added
  baseOffset : after.baseOffset = set.baseOffset
  committed : set.committedOffset ≤ after.committedOffset
  fsynced : durability = .Fsync → after.committedOffset = after.nextOffset

theorem commit_extends (set : SegmentSet) : set.Extends set.commit [] .Fsync :=
  ⟨(append_nil _).symm, rfl, set.durable, fun _ => rfl⟩

theorem roll_extends (set : SegmentSet) : set.Extends set.roll [] .Buffered := by
  unfold roll
  split
  · exact ⟨by simp, rfl, le_refl _, nofun⟩
  · refine ⟨by simp, ?_, set.durable, nofun⟩
    show (set.sealed ++ [set.tailBase]).head?.getD set.nextOffset = set.sealed.head?.getD set.tailBase
    rw [head?_append]
    cases set.sealed.head? <;> rfl

theorem appendGroupTailOnly_extends (ok : set.appendGroupTailOnly group durability = .ok (after, outcomes)) :
    ∃ added, validateGroup set.records [] group = .ok (added, outcomes) ∧ set.Extends after added durability := by
  unfold appendGroupTailOnly at ok
  cases valid : validateGroup set.records [] group with
  | error problem => simp [valid, bind, Except.bind] at ok
  | ok result =>
    obtain ⟨added, outcomes'⟩ := result
    simp only [valid, bind, Except.bind, pure, Except.pure] at ok
    split at ok
    case isTrue none =>
      obtain rfl : added = [] := isEmpty_iff.mp none
      cases durability with
      | Fsync =>
        cases ok
        exact ⟨[], rfl, set.commit_extends⟩
      | Buffered =>
        cases ok
        exact ⟨[], rfl, by simp, rfl, le_refl _, nofun⟩
    case isFalse =>
      split at ok
      · cases ok
      · cases ok
        refine ⟨added, rfl, rfl, rfl, ?_, fun fsync => ?_⟩
        · have := set.durable
          cases durability <;> simp only [extend, nextOffset] <;> omega
        · simp [fsync, extend, nextOffset]

/-- An append adds the records the group was found to bring, behind all the others. -/
theorem appendGroup_extends (ok : set.appendGroup group durability = .ok (after, outcomes)) :
    ∃ added, validateGroup set.records [] group = .ok (added, outcomes) ∧ set.Extends after added durability := by
  unfold appendGroup at ok
  split at ok
  case h_1 =>
    split at ok
    · exact appendGroupTailOnly_extends ok
    · -- The roll before the append leaves the records alone.
      obtain ⟨records, baseOffset, committed, -⟩ := set.roll_extends
      rw [append_nil] at records
      obtain ⟨added, valid, appended⟩ := appendGroupTailOnly_extends ok
      rw [records] at valid
      exact ⟨added, valid, by rw [appended.records, records], by rw [appended.baseOffset, baseOffset],
        le_trans committed appended.committed, appended.fsynced⟩
  case h_2 => exact appendGroupTailOnly_extends ok

/-- What a truncation leaves: the records below the cut, all of them durable if any record went. -/
structure Truncated (set after : SegmentSet) (offset removed : Nat) : Prop where
  within : offset ≤ set.nextOffset
  records : after.records = set.records.take offset
  baseOffset : set.baseOffset ≤ offset → after.baseOffset = set.baseOffset
  committed : min set.committedOffset offset ≤ after.committedOffset
  removed : removed = set.nextOffset - offset

/-- A cut within the log fails exactly inside a sealed segment. -/
theorem truncateTo_error_iff (within : offset ≤ set.nextOffset) :
    (∃ problem, set.truncateTo offset = .error problem) ↔ offset < set.tailBase ∧ offset ∉ set.sealed := by
  unfold truncateTo
  rw [dif_neg (not_lt.mpr within)]
  by_cases across : offset < set.tailBase
  · by_cases boundary : offset ∈ set.sealed <;> simp [across, boundary]
  · rw [dif_neg across]
    split <;> simp [across]

theorem truncateTo_truncated (ok : set.truncateTo offset = .ok (after, removed)) : set.Truncated after offset removed := by
  unfold truncateTo at ok
  split at ok
  · cases ok
  case isFalse beyond =>
    have within : offset ≤ set.nextOffset := not_lt.mp beyond
    split at ok
    case isTrue across =>
      split at ok
      case isTrue boundary =>
        cases ok
        refine ⟨within, rfl, fun reaches => ?_, min_le_right _ _, rfl⟩
        show (set.sealed.takeWhile (· < offset)).head?.getD offset = set.baseOffset
        unfold SegmentSet.baseOffset at reaches ⊢
        cases segments : set.sealed with
        | nil => simp [segments] at boundary
        | cons first rest =>
          simp only [segments, head?_cons, Option.getD_some] at reaches ⊢
          by_cases starts : first < offset
          · simp [takeWhile_cons_of_pos, starts]
          · simp [takeWhile_cons_of_neg, starts]
            omega
      case isFalse => cases ok
    case isFalse =>
      split at ok
      case isTrue atEnd =>
        cases ok
        subst atEnd
        exact ⟨le_refl _, (take_length ..).symm, fun _ => rfl, min_le_left _ _, by omega⟩
      case isFalse =>
        cases ok
        exact ⟨within, rfl, fun _ => rfl, min_le_right _ _, rfl⟩

theorem Truncated.nextOffset (truncated : set.Truncated after offset removed) : after.nextOffset = offset := by
  rw [SegmentSet.nextOffset, truncated.records, length_take]
  exact min_eq_left truncated.within

end SegmentSet

end VtopEngine.Log
