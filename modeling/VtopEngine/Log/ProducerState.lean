import Mathlib.Data.Prod.Lex
import VtopEngine.Lib.SortedMap
import VtopEngine.Log.SegmentSet
import VtopEngine.Meta.Command

/-! # What a segment remembers of its producers

Per producer and epoch a segment keeps the frontier of the sequences and the retry window
(`segment.rs`), a successor inherits both through a sidecar (`producer_snapshot.rs`), and a
group is validated against the kept state and the changes of the group so far.

* `Producers.validateSequence`, `rememberSequence` — the scan's own check and update.
* `Pending.validate`, `Pending.merge_remember` — the delta path decides and ends as the scan over
  the same records does.
-/

namespace VtopEngine.Log

open Lib Option
open SortedMap (ext_get? get?_extend get?_insert get?_mergeWith)
open Meta (hyphenated)

/-- The errors of a segment's file, beside those of its record sequence. -/
inductive FileError
  | Refused (problem : SegmentError)
  | UnsupportedRecordField (field : String)
  | RecordTooLarge (actual maximum : Nat)
  | GroupTooLarge (actual maximum : Nat)
  | SegmentByteLimit (current attempted maximum : Nat)
  | InvalidDescriptor (message : String)
  | Corrupt (position : Nat) (reason : String)
  | CorruptSequence (position : Nat) (problem : SegmentError)
  | CommitBoundaryMismatch (message : String)
  | ManifestMismatch (message : String)
  deriving DecidableEq, Repr

/-- One producer under one epoch.  A UUID stands as the number its bytes spell: the order of the bytes. -/
abbrev ProducerKey := Nat ×ₗ Nat

def LogRecord.producer (record : LogRecord) : Nat := record.producerId.toNat

def LogRecord.session (record : LogRecord) : ProducerKey := toLex (record.producer, record.producerEpoch)

structure SeenRecord (η : Type) where
  offset : Nat
  contentHash : η
  deriving DecidableEq

structure ProducerState (η : Type) where
  (latestSequence firstSequence recordCount : Nat)
  seen : SortedMap Nat (SeenRecord η)

/-- The producers' states, and the newest epoch of each producer. -/
@[ext] structure Producers (η : Type) where
  states : SortedMap ProducerKey (ProducerState η)
  epochs : SortedMap Nat Nat

variable {η : Type}

/-- Forget every sequence below the retry window; a floor of zero forgets none. -/
def evictBelowWindow (seen : SortedMap Nat (SeenRecord η)) (latestSequence : Nat) : SortedMap Nat (SeenRecord η) :=
  seen.filter (sequenceWindowFloor latestSequence ≤ ·)

namespace Producers

def empty : Producers η := ⟨.empty, .empty⟩

def seenAt (producers : Producers η) (record : LogRecord) : Option (SeenRecord η) :=
  (producers.states.get? record.session).bind fun state => state.seen.get? record.sequence

def latestOf (producers : Producers η) (record : LogRecord) : Option Nat :=
  (producers.states.get? record.session).map ProducerState.latestSequence

section Decisions

variable [DecidableEq η]

/-- A remembered sequence repeats its content or conflicts with it. -/
def decideSeen (record : LogRecord) (hash : η) (seen : SeenRecord η) : Except SegmentError SequenceDecision :=
  if hash = seen.contentHash then .ok (.Duplicate seen.offset)
  else .error (.SequenceConflict record.producerId record.sequence)

def validateSequence (producers : Producers η) (record : LogRecord) (hash : η) : Except SegmentError SequenceDecision :=
  match producers.seenAt record with
  | some seen => decideSeen record hash seen
  | none => do
    validateEpochNotFenced (producers.epochs.get? record.producer) record
    validateNext (producers.latestOf record) record

def validateSequenceWithDelta (producers deltas : Producers η) (record : LogRecord) (hash : η) :
    Except SegmentError SequenceDecision :=
  match deltas.seenAt record with
  | some seen => decideSeen record hash seen
  | none =>
    -- The group may have moved the window past what the kept state still remembers.
    match (deltas.latestOf record).bind (sequenceBelowWindow record) with
    | some problem => .error problem
    | none =>
      match producers.seenAt record with
      | some seen => decideSeen record hash seen
      | none => do
        validateEpochNotFenced ((deltas.epochs.get? record.producer).or (producers.epochs.get? record.producer)) record
        validateNext ((deltas.latestOf record).or (producers.latestOf record)) record

end Decisions

/-- A session after one more of its records. -/
def remembered (state : Option (ProducerState η)) (sequence : Nat) (seen : SeenRecord η) : ProducerState η :=
  match state with
  | some state =>
    { state with
      latestSequence := sequence
      recordCount := state.recordCount + 1
      seen := evictBelowWindow (state.seen.insert sequence seen) sequence }
  | none => ⟨sequence, sequence, 1, SortedMap.empty.insert sequence seen⟩

def rememberSequence (producers : Producers η) (record : LogRecord) (offset : Nat) (contentHash : η) : Producers η :=
  { states := producers.states.insert record.session
      (remembered (producers.states.get? record.session) record.sequence ⟨offset, contentHash⟩)
    epochs := producers.epochs.insert record.producer
      (max ((producers.epochs.get? record.producer).getD record.producerEpoch) record.producerEpoch) }

/-- The same update, of the changes a group has made so far. -/
def rememberPendingSequence (deltas : Producers η) (record : LogRecord) (offset : Nat) (contentHash : η) : Producers η :=
  deltas.rememberSequence record offset contentHash

/-- A session's state with the changes of a group. -/
def mergedState (state : Option (ProducerState η)) (delta : ProducerState η) : ProducerState η :=
  match state with
  | some state =>
    { latestSequence := delta.latestSequence
      firstSequence := min state.firstSequence delta.firstSequence
      recordCount := state.recordCount + delta.recordCount
      seen := evictBelowWindow (state.seen.extend delta.seen) delta.latestSequence }
  | none => delta

def mergeProducerDeltas (producers deltas : Producers η) : Producers η :=
  { states := producers.states.mergeWith mergedState deltas.states
    epochs := producers.epochs.mergeWith (fun latest epoch => max (latest.getD epoch) epoch) deltas.epochs }

/-! ## Lookups after an update -/

variable {producers deltas : Producers η} {record : LogRecord}

@[simp] theorem get?_evictBelowWindow (seen : SortedMap Nat (SeenRecord η)) (latest sequence) :
    (evictBelowWindow seen latest).get? sequence
      = if sequenceWindowFloor latest ≤ sequence then seen.get? sequence else none := by
  simp [evictBelowWindow]

theorem sequenceWindowFloor_le (latest) : sequenceWindowFloor latest ≤ latest := Nat.sub_le _ _

theorem sequenceWindowFloor_mono (below : first ≤ second) : sequenceWindowFloor first ≤ sequenceWindowFloor second :=
  Nat.sub_le_sub_right below _

/-- Merging the changes of a group after one more record is one more record after merging them. -/
theorem mergedState_remembered {state delta : Option (ProducerState η)} {sequence : Nat} {seen : SeenRecord η}
    (first : ∀ known, state = some known → known.firstSequence ≤ sequence)
    (grows : ∀ known, delta = some known → known.latestSequence ≤ sequence) :
    mergedState state (remembered delta sequence seen)
      = remembered (match delta with | none => state | some delta => some (mergedState state delta)) sequence seen := by
  cases state with
  | none => cases delta <;> rfl
  | some state =>
    cases delta with
    | none =>
      have first := first state rfl
      simp only [mergedState, remembered, ProducerState.mk.injEq, true_and]
      refine ⟨by omega, ext_get? fun wanted => ?_⟩
      by_cases same : wanted = sequence
      · simp [same]
      · simp [same]
    | some delta =>
      have floors := sequenceWindowFloor_mono (grows delta rfl)
      simp only [mergedState, remembered, ProducerState.mk.injEq, true_and]
      refine ⟨by omega, ext_get? fun wanted => ?_⟩
      simp only [get?_evictBelowWindow, get?_extend, get?_insert]
      by_cases kept : sequenceWindowFloor sequence ≤ wanted
      · have keptBefore : sequenceWindowFloor delta.latestSequence ≤ wanted := Nat.le_trans floors kept
        by_cases same : wanted = sequence
        · simp [same, sequenceWindowFloor_le]
        · simp [kept, keptBefore, same]
      · simp [kept]

theorem max_getD_max (latest : Option Nat) (known epoch) :
    max (latest.getD (max known epoch)) (max known epoch) = max (max (latest.getD known) known) epoch := by
  cases latest with
  | none => simp
  | some latest => simp [Nat.max_assoc]

variable {hash : η} {offset : Nat}

theorem merge_remember
    (first : ∀ known, producers.states.get? record.session = some known → known.firstSequence ≤ record.sequence)
    (grows : ∀ known, deltas.states.get? record.session = some known → known.latestSequence ≤ record.sequence) :
    producers.mergeProducerDeltas (deltas.rememberSequence record offset hash)
      = (producers.mergeProducerDeltas deltas).rememberSequence record offset hash := by
  apply Producers.ext
  · refine ext_get? fun wanted => ?_
    simp only [mergeProducerDeltas, rememberSequence, get?_mergeWith, get?_insert]
    by_cases same : wanted = record.session
    · subst same
      simp only [if_true, mergedState_remembered first grows]
      cases deltas.states.get? record.session <;> rfl
    · simp only [same, if_false]
  · refine ext_get? fun wanted => ?_
    simp only [mergeProducerDeltas, rememberSequence, get?_mergeWith, get?_insert]
    by_cases same : wanted = record.producer
    · subst same
      simp only [if_true]
      cases deltas.epochs.get? record.producer with
      | none => simp
      | some known => simp only [getD_some, max_getD_max]
    · simp only [same, if_false]

/-! ## Deciding with the changes of a group -/

/-- What the changes a group has made hold against the state they are for. -/
structure Pending (producers deltas : Producers η) : Prop where
  window : ∀ {session state}, deltas.states.get? session = some state → ∀ {sequence seen},
    state.seen.get? sequence = some seen → sequenceWindowFloor state.latestSequence ≤ sequence
  newer : ∀ {producer epoch}, deltas.epochs.get? producer = some epoch → ∀ {known},
    producers.epochs.get? producer = some known → known ≤ epoch
  ahead : ∀ {session state}, deltas.states.get? session = some state → ∀ {known},
    producers.states.get? session = some known → known.firstSequence ≤ state.latestSequence

theorem Pending.empty : Pending producers Producers.empty :=
  ⟨by simp [Producers.empty], by simp [Producers.empty], by simp [Producers.empty]⟩

@[simp] theorem merge_latestOf :
    (producers.mergeProducerDeltas deltas).latestOf record = (deltas.latestOf record).or (producers.latestOf record) := by
  simp only [latestOf, mergeProducerDeltas, get?_mergeWith]
  cases deltas.states.get? record.session with
  | none => rfl
  | some delta => cases producers.states.get? record.session <;> rfl

theorem Pending.merge_epochs (pending : Pending producers deltas) (producer) :
    (producers.mergeProducerDeltas deltas).epochs.get? producer
      = (deltas.epochs.get? producer).or (producers.epochs.get? producer) := by
  simp only [mergeProducerDeltas, get?_mergeWith]
  cases changed : deltas.epochs.get? producer with
  | none => rfl
  | some epoch =>
    cases known : producers.epochs.get? producer with
    | none => simp
    | some latest => simp [max_eq_right (pending.newer changed known)]

theorem merge_seenAt
    (within : ∀ latest, deltas.latestOf record = some latest → sequenceWindowFloor latest ≤ record.sequence) :
    (producers.mergeProducerDeltas deltas).seenAt record = (deltas.seenAt record).or (producers.seenAt record) := by
  simp only [seenAt, latestOf, mergeProducerDeltas, get?_mergeWith] at within ⊢
  cases changed : deltas.states.get? record.session with
  | none => simp
  | some delta =>
    have within := within delta.latestSequence (by rw [changed, map_some])
    cases producers.states.get? record.session with
    | some known =>
      simp only [mergedState, bind_some]
      rw [get?_evictBelowWindow, if_pos within, get?_extend]
    | none => simp [mergedState]

theorem sequenceBelowWindow_eq_none :
    sequenceBelowWindow record latest = none ↔ sequenceWindowFloor latest ≤ record.sequence := by
  simp [sequenceBelowWindow]

/-- What the delta path decides, the scan decides after the records before it. -/
theorem Pending.validate [DecidableEq η] (pending : Pending producers deltas)
    (ok : producers.validateSequenceWithDelta deltas record hash = .ok decision) :
    (producers.mergeProducerDeltas deltas).validateSequence record hash = .ok decision := by
  unfold validateSequenceWithDelta at ok
  cases changed : deltas.seenAt record with
  | some seen =>
    simp only [changed] at ok
    have within : ∀ latest, deltas.latestOf record = some latest → sequenceWindowFloor latest ≤ record.sequence := by
      intro latest isLatest
      obtain ⟨state, isState, found⟩ := bind_eq_some_iff.mp changed
      rw [latestOf, isState, map_some, some.injEq] at isLatest
      exact isLatest ▸ pending.window isState found
    rw [validateSequence, merge_seenAt within, changed]
    exact ok
  | none =>
    simp only [changed] at ok
    cases below : (deltas.latestOf record).bind (sequenceBelowWindow record) with
    | some problem => simp [below] at ok
    | none =>
      simp only [below] at ok
      have within : ∀ latest, deltas.latestOf record = some latest → sequenceWindowFloor latest ≤ record.sequence := by
        intro latest isLatest
        rw [isLatest, bind_some] at below
        exact sequenceBelowWindow_eq_none.mp below
      rw [validateSequence, merge_seenAt within, changed, none_or, pending.merge_epochs, merge_latestOf]
      exact ok

/-- When a sequence is new: it is not remembered, its epoch is not fenced, and it is the session's next. -/
structure IsNext (producers : Producers η) (record : LogRecord) : Prop where
  unseen : producers.seenAt record = none
  unfenced : ∀ epoch, producers.epochs.get? record.producer = some epoch → epoch ≤ record.producerEpoch
  next : (producers.latestOf record = none ∧ record.sequence = 0) ∨
    ∃ latest, producers.latestOf record = some latest ∧ record.sequence = latest + 1 ∧ latest + 1 < UInt64.size

theorem decideSeen_ne_append [DecidableEq η] (hash : η) (seen : SeenRecord η) :
    decideSeen record hash seen ≠ .ok .Append := by
  unfold decideSeen
  split <;> simp

variable {latest : Option Nat}

theorem validateEpochNotFenced_eq_ok :
    validateEpochNotFenced latest record = .ok () ↔ ∀ epoch, latest = some epoch → epoch ≤ record.producerEpoch := by
  cases latest with
  | none | some latest => simp [validateEpochNotFenced]

/-- The frontier check under any window check: the window's width is too large a number to compute with in a proof. -/
def validateNextWith (belowWindow : LogRecord → Nat → Option SegmentError) (latest : Option Nat) (record : LogRecord) :
    Except SegmentError SequenceDecision :=
  match latest with
  | none => if record.sequence = 0 then .ok .Append else .error (.FirstSequence record.producerId record.sequence)
  | some latest =>
    match belowWindow record latest with
    | some problem => .error problem
    | none =>
      if UInt64.size ≤ latest + 1 then .error (.SequenceGap record.producerId (UInt64.size - 1) record.sequence)
      else if record.sequence ≠ latest + 1 then .error (.SequenceGap record.producerId (latest + 1) record.sequence)
      else .ok .Append

theorem validateNext_eq_validateNextWith (latest) :
    validateNext latest record = validateNextWith sequenceBelowWindow latest record := by
  unfold validateNext validateNextWith
  generalize sequenceBelowWindow = belowWindow
  rfl

theorem validateNextWith_eq_ok (above : ∀ known, record.sequence = known + 1 → belowWindow record known = none) :
    validateNextWith belowWindow latest record = .ok decision ↔ decision = .Append ∧ ((latest = none ∧ record.sequence = 0) ∨
        ∃ known, latest = some known ∧ record.sequence = known + 1 ∧ known + 1 < UInt64.size) := by
  cases latest with
  | none =>
    simp only [validateNextWith]
    split_ifs with first
    · simp [first, eq_comm]
    · simp [first]
  | some known =>
    simp only [validateNextWith, reduceCtorEq, false_and, false_or, some.injEq, exists_eq_left']
    cases found : belowWindow record known with
    | some problem =>
      refine ⟨fun ok => (by cases ok), fun next => ?_⟩
      rw [above known next.2.1] at found
      cases found
    | none =>
      dsimp only
      split_ifs with full gap
      · refine ⟨fun ok => (by cases ok), fun next => ?_⟩
        omega
      · refine ⟨fun ok => (by cases ok), fun next => ?_⟩
        omega
      · refine ⟨fun ok => ?_, fun next => by rw [next.1]⟩
        cases ok
        exact ⟨rfl, not_not.mp gap, not_le.mp full⟩

theorem validateNext_eq_ok : validateNext latest record = .ok decision ↔ decision = .Append ∧
      ((latest = none ∧ record.sequence = 0) ∨
        ∃ known, latest = some known ∧ record.sequence = known + 1 ∧ known + 1 < UInt64.size) := by
  rw [validateNext_eq_validateNextWith]
  refine validateNextWith_eq_ok fun known next => sequenceBelowWindow_eq_none.mpr ?_
  have := sequenceWindowFloor_le known
  omega

theorem validateSequence_eq_append [DecidableEq η] :
    producers.validateSequence record hash = .ok .Append ↔ IsNext producers record := by
  unfold validateSequence
  cases found : producers.seenAt record with
  | some seen =>
    refine ⟨fun ok => absurd ok (decideSeen_ne_append _ _), fun next => ?_⟩
    rw [next.unseen] at found
    cases found
  | none =>
    simp only [bind, Except.bind]
    cases fence : validateEpochNotFenced (producers.epochs.get? record.producer) record with
    | error problem =>
      refine ⟨by simp, fun next => ?_⟩
      rw [validateEpochNotFenced_eq_ok.mpr next.unfenced] at fence
      cases fence
    | ok =>
      rw [validateNext_eq_ok]
      exact ⟨fun ok => ⟨found, validateEpochNotFenced_eq_ok.mp fence, ok.2⟩, fun next => ⟨rfl, next.next⟩⟩

/-! ## Records at consecutive offsets -/

/-- Every session is an unbroken run of sequences. -/
def Spanned (producers : Producers η) : Prop :=
  ∀ {session state}, producers.states.get? session = some state →
    1 ≤ state.recordCount ∧ state.firstSequence + state.recordCount = state.latestSequence + 1

@[simp] theorem get?_states_remember (session) :
    (producers.rememberSequence record offset hash).states.get? session = if session = record.session then
          some (remembered (producers.states.get? record.session) record.sequence ⟨offset, hash⟩)
        else producers.states.get? session :=
  get?_insert ..

@[simp] theorem get?_epochs_remember (producer) : (producers.rememberSequence record offset hash).epochs.get? producer
      = if producer = record.producer then
          some (max ((producers.epochs.get? record.producer).getD record.producerEpoch) record.producerEpoch)
        else producers.epochs.get? producer :=
  get?_insert ..

theorem IsNext.of_state (next : IsNext producers record)
    (known : producers.states.get? record.session = some state) : record.sequence = state.latestSequence + 1 := by
  rcases next.next with ⟨fresh, -⟩ | ⟨latest, isLatest, follows, -⟩
  · simp [latestOf, known] at fresh
  · rw [latestOf, known, map_some, some.injEq] at isLatest
    rw [follows, isLatest]

theorem Spanned.remember (spanned : producers.Spanned) (next : IsNext producers record) (offset hash) :
    (producers.rememberSequence record offset hash).Spanned := by
  intro session state found
  rw [get?_states_remember] at found
  split_ifs at found with same
  · obtain rfl := some.inj found
    cases known : producers.states.get? record.session with
    | none => exact ⟨le_refl _, rfl⟩
    | some state =>
      have spans := spanned known
      have follows := next.of_state known
      simp only [remembered]
      omega
  · exact spanned found

/-- The producers after records at consecutive offsets. -/
def rememberAll (contentHash : LogRecord → η) (producers : Producers η) : Nat → List LogRecord → Producers η
  | _, [] => producers
  | offset, record :: records =>
    rememberAll contentHash (producers.rememberSequence record offset (contentHash record)) (offset + 1) records

/-- Every record is the next of its session. -/
def AllNext (contentHash : LogRecord → η) : Producers η → Nat → List LogRecord → Prop
  | _, _, [] => True
  | producers, offset, record :: records =>
    producers.IsNext record ∧
      AllNext contentHash (producers.rememberSequence record offset (contentHash record)) (offset + 1) records

theorem rememberAll_append : rememberAll contentHash producers offset (first ++ second)
      = rememberAll contentHash (rememberAll contentHash producers offset first) (offset + first.length) second := by
  induction first generalizing producers offset with
  | nil => rfl
  | cons record records ih =>
    rw [List.cons_append, rememberAll, ih, rememberAll, List.length_cons]
    congr 1
    omega

theorem allNext_append :
    AllNext contentHash producers offset (first ++ second) ↔ AllNext contentHash producers offset first ∧
      AllNext contentHash (rememberAll contentHash producers offset first) (offset + first.length) second := by
  induction first generalizing producers offset with
  | nil => simp [AllNext, rememberAll]
  | cons record records ih =>
    rw [List.cons_append, AllNext, ih, AllNext, rememberAll, and_assoc, List.length_cons, add_right_comm, add_assoc]

theorem Spanned.rememberAll (spanned : producers.Spanned) (next : AllNext contentHash producers offset records) :
    (Producers.rememberAll contentHash producers offset records).Spanned := by
  induction records generalizing producers offset with
  | nil => exact spanned
  | cons record records ih => exact ih (spanned.remember next.1 _ _) next.2

/-! ## The changes of a group grow -/

section

variable (pending : Pending producers deltas)

include pending

section

variable (spanned : producers.Spanned)

include spanned

section

variable (next : IsNext (producers.mergeProducerDeltas deltas) record)

include next

theorem Pending.latest_lt :
    (∀ known, producers.states.get? record.session = some known → known.firstSequence ≤ record.sequence) ∧
      ∀ known, deltas.states.get? record.session = some known → known.latestSequence ≤ record.sequence := by
  have merged : ∀ wanted, (producers.mergeProducerDeltas deltas).states.get? wanted
      = match deltas.states.get? wanted with
        | none => producers.states.get? wanted
        | some delta => some (mergedState (producers.states.get? wanted) delta) :=
    fun wanted => by
      simp only [mergeProducerDeltas, get?_mergeWith]
      cases deltas.states.get? wanted <;> rfl
  cases changed : deltas.states.get? record.session with
  | none =>
    refine ⟨fun known isKnown => ?_, by simp⟩
    have state := merged record.session
    rw [changed, isKnown] at state
    have follows := next.of_state state
    have spans := spanned isKnown
    omega
  | some delta =>
    have state := merged record.session
    rw [changed] at state
    have follows := next.of_state state
    have latest : (mergedState (producers.states.get? record.session) delta).latestSequence = delta.latestSequence := by
      cases producers.states.get? record.session <;> rfl
    refine ⟨fun known isKnown => ?_, fun known isKnown => ?_⟩
    · have := pending.ahead changed isKnown
      omega
    · obtain rfl := some.inj isKnown
      omega

theorem Pending.merge_remember (offset hash) : producers.mergeProducerDeltas (deltas.rememberSequence record offset hash)
      = (producers.mergeProducerDeltas deltas).rememberSequence record offset hash := by
  obtain ⟨first, grows⟩ := pending.latest_lt spanned next
  exact Producers.merge_remember first grows

theorem Pending.remember (offset hash) : Pending producers (deltas.rememberSequence record offset hash) := by
  have latest : (remembered (deltas.states.get? record.session) record.sequence ⟨offset, hash⟩).latestSequence
      = record.sequence := by
    cases deltas.states.get? record.session <;> rfl
  constructor
  case window =>
    intro session state found sequence seen isSeen
    rw [get?_states_remember] at found
    split_ifs at found with same
    · obtain rfl := some.inj found
      cases known : deltas.states.get? record.session with
      | none =>
        have := sequenceWindowFloor_le record.sequence
        simp only [known, remembered, get?_insert, SortedMap.get?_empty] at isSeen ⊢
        split_ifs at isSeen with atNew
        omega
      | some delta =>
        simp only [known, remembered, get?_evictBelowWindow] at isSeen ⊢
        split_ifs at isSeen with kept
        exact kept
    · exact pending.window found isSeen
  case ahead =>
    intro session state found known isKnown
    rw [get?_states_remember] at found
    split_ifs at found with same
    · obtain rfl := some.inj found
      subst same
      rw [latest]
      exact (pending.latest_lt spanned next).1 known isKnown
    · exact pending.ahead found isKnown
  case newer =>
    intro producer epoch found known isKnown
    rw [get?_epochs_remember] at found
    split_ifs at found with same
    · obtain rfl := some.inj found
      subst same
      have unfenced := next.unfenced
      rw [pending.merge_epochs] at unfenced
      cases changed : deltas.epochs.get? record.producer with
      | none =>
        rw [changed, none_or] at unfenced
        exact le_trans (unfenced known isKnown) (le_max_right _ _)
      | some epoch =>
        rw [getD_some]
        exact le_trans (pending.newer changed isKnown) (le_max_left _ _)
    · exact pending.newer found isKnown

end

end

end

end Producers

/-! ## The sidecar a successor inherits -/

structure SnapshotSeen (η : Type) where
  (sequence offset : Nat)
  contentHash : η

structure SnapshotEntry (η : Type) where
  (latestSequence firstSequence recordCount : Nat)
  seen : List (SnapshotSeen η)

structure ProducerSnapshot (η : Type) where
  producers : SortedMap ProducerKey (SnapshotEntry η)
  epochs : SortedMap Nat Nat

def ProducerState.toEntry (state : ProducerState η) : SnapshotEntry η :=
  { latestSequence := state.latestSequence
    firstSequence := state.firstSequence
    recordCount := state.recordCount
    seen := state.seen.entries.map fun entry => ⟨entry.1, entry.2.offset, entry.2.contentHash⟩ }

def SnapshotEntry.toState (entry : SnapshotEntry η) : ProducerState η :=
  { latestSequence := entry.latestSequence
    firstSequence := entry.firstSequence
    recordCount := entry.recordCount
    seen := entry.seen.foldl
      (fun seen remembered => seen.insert remembered.sequence ⟨remembered.offset, remembered.contentHash⟩) .empty }

/-- The frontier a successor must inherit, taken from a live segment. -/
def snapshotOf (producers : Producers η) : ProducerSnapshot η :=
  ⟨producers.states.mapValues ProducerState.toEntry, producers.epochs⟩

namespace ProducerSnapshot

def empty : ProducerSnapshot η := ⟨.empty, .empty⟩

/-- The producer state a segment that inherited a frontier starts from. -/
def inheritedStates (snapshot : ProducerSnapshot η) : Producers η :=
  ⟨snapshot.producers.mapValues SnapshotEntry.toState, snapshot.epochs⟩

/-- The first sequence that does not ascend. -/
def descentIn : List Nat → Option Nat
  | first :: second :: rest => if second ≤ first then some second else descentIn (second :: rest)
  | _ => none

/-- What reading refuses in one producer's entry. -/
def entryProblem (session : ProducerKey) (entry : SnapshotEntry η) : Option String :=
  let producer := hyphenated (BitVec.ofNat 128 (ofLex session).1)
  let count := entry.seen.length
  let first := entry.firstSequence
  let latest := entry.latestSequence
  let records := entry.recordCount
  let span := latest - first + 1
  [ if PRODUCER_SEQUENCE_WINDOW < count then
      some s!"producer {producer} claims {count} retry-window entries; the bound is {PRODUCER_SEQUENCE_WINDOW}"
    else none,
    (descentIn (entry.seen.map SnapshotSeen.sequence)).map fun sequence =>
      s!"producer {producer} retry window does not ascend at sequence {sequence}",
    if latest < first then some s!"producer {producer} first sequence {first} is above its latest {latest}" else none,
    (entry.seen.head?.map SnapshotSeen.sequence).filter (· < first) |>.map fun sequence =>
      s!"producer {producer} remembers sequence {sequence} below its first {first}",
    (entry.seen.getLast?.map SnapshotSeen.sequence).filter (latest < ·) |>.map fun sequence =>
      s!"producer {producer} remembers sequence {sequence} above its latest {latest}",
    if UInt64.size ≤ span then some "producer sequence span overflows" else none,
    if records ≠ span then
      some s!"producer {producer} claims {records} records across sequences {first}..={latest}, which spans exactly {span}"
    else none ].findSome? id

/-- A session the epoch map does not cover: a superseded epoch would not be fenced. -/
def coverProblem (snapshot : ProducerSnapshot η) (session : ProducerKey) : Option String :=
  let producer := hyphenated (BitVec.ofNat 128 (ofLex session).1)
  let epoch := (ofLex session).2
  match snapshot.epochs.get? (ofLex session).1 with
  | none => some s!"producer {producer} has state at epoch {epoch} but no epoch entry"
  | some latest =>
    if latest < epoch then
      some s!"producer {producer} has state at epoch {epoch}, above its recorded latest epoch {latest}"
    else none

def problem (snapshot : ProducerSnapshot η) : Option String :=
  (snapshot.producers.entries.findSome? fun entry => entryProblem entry.1 entry.2).or
    (snapshot.producers.entries.findSome? fun entry => snapshot.coverProblem entry.1)

end ProducerSnapshot

/-- Read the frontier a segment inherited; a range's first segment has none. -/
def readProducerSnapshot : Option (ProducerSnapshot η) → Except FileError (ProducerSnapshot η)
  | none => .ok .empty
  | some snapshot =>
    match snapshot.problem with
    | some reason => .error (.Corrupt 0 s!"producer snapshot: {reason}")
    | none => .ok snapshot

namespace ProducerSnapshot

variable {snapshot : ProducerSnapshot η}

theorem entryProblem_eq_none {entry : SnapshotEntry η} :
    entryProblem session entry = none ↔ entry.seen.length ≤ PRODUCER_SEQUENCE_WINDOW ∧
      descentIn (entry.seen.map SnapshotSeen.sequence) = none ∧ entry.firstSequence ≤ entry.latestSequence ∧
      (∀ seen, entry.seen.head? = some seen → entry.firstSequence ≤ seen.sequence) ∧
      (∀ seen, entry.seen.getLast? = some seen → seen.sequence ≤ entry.latestSequence) ∧
      entry.latestSequence - entry.firstSequence + 1 < UInt64.size ∧
      entry.recordCount = entry.latestSequence - entry.firstSequence + 1 := by
  rw [entryProblem, List.findSome?_eq_none_iff]
  simp only [List.mem_cons, List.not_mem_nil, or_false, id_eq, forall_eq_or_imp, forall_eq, map_eq_none_iff,
    filter_eq_none_iff, map_eq_some_iff, decide_eq_true_eq, ite_eq_right_iff, reduceCtorEq, imp_false,
    forall_exists_index, and_imp, forall_apply_eq_imp_iff₂, not_lt, not_le, ne_eq, not_not]

/-- What reading accepts is unbroken in every session. -/
theorem spanned_inheritedStates (readable : snapshot.problem = none) : snapshot.inheritedStates.Spanned := by
  intro session state found
  obtain ⟨entry, member, isEntry⟩ := List.mem_map.mp (SortedMap.get?_eq_some.mp found)
  obtain ⟨rfl, rfl⟩ := Prod.mk.inj isEntry
  rw [problem, or_eq_none_iff, List.findSome?_eq_none_iff] at readable
  obtain ⟨-, -, ordered, -, -, -, counted⟩ := entryProblem_eq_none.mp (readable.1 entry member)
  show 1 ≤ entry.2.recordCount ∧ entry.2.firstSequence + entry.2.recordCount = entry.2.latestSequence + 1
  omega

theorem problem_of_read (ok : readProducerSnapshot sidecar = .ok snapshot) : snapshot.problem = none := by
  cases sidecar with
  | none =>
    cases ok
    rfl
  | some stored =>
    unfold readProducerSnapshot at ok
    cases problem : stored.problem with
    | some reason => simp [problem] at ok
    | none =>
      simp only [problem, Except.ok.injEq] at ok
      rw [← ok, problem]

end ProducerSnapshot

end VtopEngine.Log
