import VtopEngine.Broker.History

/-! # Reconciliation

What a fence leaves of a follower's log when the caller's history and the follower's are
compared.

* `fence_settles_disputes` — a fence that answers removes nothing below the cluster mark and
  leaves a vector within the log; of a follower whose vector ends with the epoch it holds it
  leaves no record that the two histories ascribe to different epochs.
* `reconcileWith_unchanged_iff` — a reconciliation that answers takes nothing exactly if
  both histories ascribe every record of the follower to the same epoch.
-/

namespace VtopEngine.Broker.InProcessFollower

open Lib Log Replica

variable {replica after : Replica} {leaderEpochStarts : List EpochStart}

section Reconcile

variable {removed : Nat}

theorem compareLineage_nil (theirs) : compareLineage [] theirs = .Unknown := by
  rw [compareLineage_eq]
  simp [Timeline.collapse, Timeline.firstDifference]

theorem lineageVerdict_eq (replica leaderEpochStarts) :
    lineageVerdict replica leaderEpochStarts = compareLineage replica.epochStarts leaderEpochStarts := by
  unfold lineageVerdict epochStarts
  split
  · rw [compareLineage_nil]
  · cases replica.fencingEpochJournal with
    | none => exact (compareLineage_nil _).symm
    | some journal => rfl

/-- The two ways a reconciliation answers: it changes nothing, and why, or it truncates at the divergence. -/
theorem reconcileWith_cases (ok : reconcileWith replica leaderEpochStarts = .ok (after, removed)) : (after = replica
      ∧ (leaderEpochStarts = [] ∨ compareLineage replica.epochStarts leaderEpochStarts = .Agreed
        ∨ compareLineage replica.epochStarts leaderEpochStarts = .Unknown
        ∨ ∃ divergence, compareLineage replica.epochStarts leaderEpochStarts = .DivergesAt divergence
          ∧ (replica.nextOffset ≤ divergence ∨ replica.nextOffset ≤ replica.segment.baseOffset
            ∨ (divergence < replica.segment.baseOffset ∧ disputeConfined replica leaderEpochStarts = true))))
    ∨ ∃ divergence, compareLineage replica.epochStarts leaderEpochStarts = .DivergesAt divergence
      ∧ replica.segment.baseOffset ≤ divergence ∧ divergence < replica.nextOffset
      ∧ truncateTo replica divergence = .ok (after, removed) := by
  unfold reconcileWith at ok
  rw [lineageVerdict_eq] at ok
  split at ok
  case isTrue empty =>
    cases ok
    exact .inl ⟨rfl, .inl (List.isEmpty_iff.mp empty)⟩
  split at ok
  case h_1 agreed =>
    cases ok
    exact .inl ⟨rfl, .inr (.inl agreed)⟩
  case h_2 unknown =>
    cases ok
    exact .inl ⟨rfl, .inr (.inr (.inl unknown))⟩
  case h_3 divergence diverges =>
    split at ok
    case isTrue beyond =>
      cases ok
      exact .inl ⟨rfl, .inr (.inr (.inr ⟨divergence, diverges, .inl beyond⟩))⟩
    simp only at ok
    split at ok
    case isTrue below =>
      split at ok
      case isTrue emptyWindow =>
        cases ok
        exact .inl ⟨rfl, .inr (.inr (.inr ⟨divergence, diverges, .inr (.inl emptyWindow)⟩))⟩
      split at ok
      case isTrue confined =>
        cases ok
        exact .inl ⟨rfl, .inr (.inr (.inr ⟨divergence, diverges, .inr (.inr ⟨below, confined⟩)⟩))⟩
      · cases ok
    case isFalse within held =>
      refine .inr ⟨divergence, diverges, Nat.not_lt.mp held, Nat.not_le.mp within, ?_⟩
      split at ok
      case h_1 truncated =>
        cases ok
        exact truncated
      · cases ok
      · cases ok

/-- A history can say who wrote the first record a replica retains. -/
def VouchesForBase (entries : List EpochStart) (replica : Replica) : Prop :=
  epochOwning entries replica.segment.baseOffset ≠ none

instance (entries : List EpochStart) (replica : Replica) : Decidable (VouchesForBase entries replica) :=
  inferInstanceAs (Decidable (_ ≠ _))

theorem disputeConfined_cases (known : replica.epochStarts ≠ [])
    (confined : disputeConfined replica leaderEpochStarts = true) :
    clampLineage replica.epochStarts replica.segment.baseOffset replica.nextOffset = []
      ∨ clampLineage leaderEpochStarts replica.segment.baseOffset replica.nextOffset = []
      ∨ clampLineage replica.epochStarts replica.segment.baseOffset replica.nextOffset
        = clampLineage leaderEpochStarts replica.segment.baseOffset replica.nextOffset := by
  unfold epochStarts disputeConfined at *
  split at known
  · exact absurd rfl known
  case isFalse unbroken =>
    cases journal? : replica.fencingEpochJournal with
    | none => simp [journal?] at known
    | some journal =>
      simp only [journal?, Bool.or_eq_true, List.isEmpty_iff, decide_eq_true_eq, or_assoc] at confined
      simpa [unbroken] using confined

/-- A known history that agrees with one that ends with the held epoch ascribes every record alike. -/
theorem epochOwning_of_agreed (known : replica.KnownHistory) (ordered : Ordered leaderEpochStarts)
    (ends : leaderEpochStarts.getLast?.map EpochStart.epoch = some replica.heldFencingEpoch)
    (agreed : compareLineage replica.epochStarts leaderEpochStarts = .Agreed) (position : Nat) :
    epochOwning replica.epochStarts position = epochOwning leaderEpochStarts position := by
  obtain ⟨last, isLast, held⟩ := known.latest
  refine epochOwning_eq_of_agreed replica.epochStarts_ordered ordered agreed ?_ position
  rw [isLast, Option.map_some, held, ends]

/-- After a reconciliation of a known history every record that is still there is ascribed alike, or one of the two
histories knows nothing of the base. -/
theorem reconcileWith_sameWriters (known : replica.KnownHistory) (ordered : Ordered leaderEpochStarts)
    (ends : leaderEpochStarts.getLast?.map EpochStart.epoch = some replica.heldFencingEpoch)
    (ok : reconcileWith replica leaderEpochStarts = .ok (after, removed)) (offered : after.epochStarts ≠ [])
    (retained : after.segment.baseOffset ≤ position) (held : position < after.nextOffset) :
    epochOwning after.epochStarts position = epochOwning leaderEpochStarts position
      ∨ ¬ VouchesForBase after.epochStarts after ∨ ¬ VouchesForBase leaderEpochStarts after := by
  obtain ⟨last, isLast, -⟩ := known.latest
  have mine : replica.epochStarts ≠ [] := fun empty => by simp [empty] at isLast
  have theirs : leaderEpochStarts ≠ [] := fun empty => by simp [empty] at ends
  rcases reconcileWith_cases ok with ⟨rfl, why⟩ | ⟨divergence, diverges, -, -, cut⟩
  · rcases why with empty | agreed | unknown | ⟨divergence, diverges, beyond | emptyWindow | ⟨-, confined⟩⟩
    · exact absurd empty theirs
    · exact .inl (epochOwning_of_agreed known ordered ends agreed position)
    · exact absurd (compareLineage_unknown.mp unknown) (by simp [mine, theirs])
    · exact .inl (epochOwning_eq_below after.epochStarts_ordered ordered diverges (by omega))
    · omega
    · have window : after.segment.baseOffset < after.nextOffset := by omega
      rcases disputeConfined_cases mine confined with empty | empty | same
      · exact .inr (.inl (fun vouches => vouches ((clampLineage_eq_nil window).mp empty)))
      · exact .inr (.inr (fun vouches => vouches ((clampLineage_eq_nil window).mp empty)))
      · by_cases empty : clampLineage after.epochStarts after.segment.baseOffset after.nextOffset = []
        · exact .inr (.inl (fun vouches => vouches ((clampLineage_eq_nil window).mp empty)))
        · exact .inl ((clampLineage_eq_iff after.epochStarts_ordered ordered empty (same ▸ empty)).mp same _ retained held)
  · -- What is left ends at the divergence, and below it the two histories agree.
    obtain ⟨-, kept⟩ := truncateTo_known known cut offered
    have next := truncateTo_nextOffset cut
    left
    rw [kept position (by omega)]
    exact epochOwning_eq_below replica.epochStarts_ordered ordered diverges (by omega)

section

variable (ok : reconcileWith replica leaderEpochStarts = .ok (after, removed))

include ok

/-- A reconciliation keeps every record below the cluster mark. -/
theorem reconcileWith_keeps
    (acknowledged : offset < replica.clusterCommitted) : after.segment.records[offset]? = replica.segment.records[offset]? := by
  rcases reconcileWith_cases ok with ⟨rfl, -⟩ | ⟨divergence, -, -, -, cut⟩
  · rfl
  · obtain ⟨above, segment, shorter, rfl⟩ := truncateTo_ok cut
    rw [updateJournal_segment, (SegmentSet.truncateTo_truncated shorter).records, List.getElem?_take_of_lt (by omega)]

/-- A reconciliation does not make up a history. -/
theorem reconcileWith_offered (offered : after.epochStarts ≠ []) : replica.epochStarts ≠ [] := by
  rcases reconcileWith_cases ok with ⟨rfl, -⟩ | ⟨divergence, diverges, -⟩
  · exact offered
  · intro empty
    rw [empty, compareLineage_nil] at diverges
    cases diverges

end

theorem reconcileWith_known (known : replica.KnownHistory)
    (ok : reconcileWith replica leaderEpochStarts = .ok (after, removed)) (offered : after.epochStarts ≠ []) :
    after.KnownHistory ∧ after.heldFencingEpoch = replica.heldFencingEpoch := by
  rcases reconcileWith_cases ok with ⟨rfl, -⟩ | ⟨divergence, -, -, -, cut⟩
  · exact ⟨known, rfl⟩
  · refine ⟨(truncateTo_known known cut offered).1, ?_⟩
    obtain ⟨-, segment, -, rfl⟩ := truncateTo_ok cut
    rw [updateJournal_heldFencingEpoch]

/-- Why a reconciliation fails: the histories part below the tail, and below the cluster mark, inside a sealed segment
or below the base. -/
theorem reconcileWith_error (failed : reconcileWith replica leaderEpochStarts = .error (code, reason)) :
    ∃ divergence, compareLineage replica.epochStarts leaderEpochStarts = .DivergesAt divergence
      ∧ divergence < replica.nextOffset
      ∧ (code = .InvalidRequest ∨ (code = .Storage ∧ replica.clusterCommitted ≤ divergence
          ∧ divergence < replica.segment.tailBase ∧ divergence ∉ replica.segment.sealed)
        ∨ (code = .WrongLineage ∧ divergence < replica.segment.baseOffset)) := by
  unfold reconcileWith at failed
  rw [lineageVerdict_eq] at failed
  split at failed
  · cases failed
  split at failed
  · cases failed
  · cases failed
  case h_3 divergence diverges =>
    split at failed
    · cases failed
    case isFalse within =>
      refine ⟨divergence, diverges, Nat.not_le.mp within, ?_⟩
      simp only at failed
      split at failed
      case isTrue below =>
        split at failed
        · cases failed
        split at failed
        · cases failed
        · cases failed
          exact .inr (.inr ⟨rfl, below⟩)
      case isFalse =>
        split at failed
        · cases failed
        · cases failed
          exact .inl rfl
        case h_3 problem other refused =>
          cases failed
          unfold truncateTo at refused
          split at refused
          · cases refused
            exact absurd rfl (other _ _)
          case isFalse above =>
            split at refused
            case h_1 problem cut =>
              have inside := (SegmentSet.truncateTo_error_iff (Nat.le_of_not_le within)).mp ⟨problem, cut⟩
              exact .inr (.inl ⟨rfl, Nat.not_lt.mp above, inside⟩)
            · cases refused

/-- Two histories ascribe every record below a tail to the same epoch, or one of them is unknown. -/
def SameWriters (mine theirs : List EpochStart) (tail : Nat) : Prop :=
  mine = [] ∨ theirs = [] ∨ ∀ offset < tail, epochOwning mine offset = epochOwning theirs offset

/-- Histories that part below a tail do not ascribe alike below it. -/
theorem not_sameWriters (ordered : Ordered mine)
    (ordered' : Ordered theirs) (diverges : compareLineage mine theirs = .DivergesAt divergence) (below : divergence < tail) :
    ¬ SameWriters mine theirs tail := by
  rintro (rfl | rfl | same)
  · rw [compareLineage_nil] at diverges
    cases diverges
  · rw [compareLineage_eq] at diverges
    simp [Timeline.collapse, Timeline.firstDifference] at diverges
  · exact epochOwning_ne_at ordered ordered' diverges (same divergence below)

/-- The first offset that two histories ascribe to different epochs. -/
structure PartAt (mine theirs : List EpochStart) (divergence : Nat) : Prop where
  same : ∀ offset < divergence, epochOwning mine offset = epochOwning theirs offset
  differs : epochOwning mine divergence ≠ epochOwning theirs divergence

/-- Where known histories part inside a sealed segment and above the cluster mark, the cut is turned away by the log. -/
theorem reconcileWith_sealed (whole : replica.segment.baseOffset = 0)
    (known : replica.epochStarts ≠ [] → replica.KnownHistory) (ordered : Ordered leaderEpochStarts)
    (ends : leaderEpochStarts ≠ [] → leaderEpochStarts.getLast?.map EpochStart.epoch = some replica.heldFencingEpoch)
    (parts : PartAt replica.epochStarts leaderEpochStarts divergence) (below : divergence < replica.nextOffset)
    (above : replica.clusterCommitted ≤ divergence)
    (inside : divergence < replica.segment.tailBase ∧ divergence ∉ replica.segment.sealed) :
    SameWriters replica.epochStarts leaderEpochStarts replica.nextOffset
      ∨ ∃ reason, reconcileWith replica leaderEpochStarts = .error (.Storage, reason) := by
  by_cases mine : replica.epochStarts = []
  · exact .inl (.inl mine)
  by_cases theirs : leaderEpochStarts = []
  · exact .inl (.inr (.inl theirs))
  have diverges : compareLineage replica.epochStarts leaderEpochStarts = .DivergesAt divergence := by
    cases verdict : compareLineage replica.epochStarts leaderEpochStarts with
    | Unknown => exact absurd (compareLineage_unknown.mp verdict) (by simp [mine, theirs])
    | Agreed => exact absurd (epochOwning_of_agreed (known mine) ordered (ends theirs) verdict divergence) parts.differs
    | DivergesAt first =>
      rcases Nat.lt_trichotomy first divergence with earlier | rfl | later
      · exact absurd (parts.same first earlier) (epochOwning_ne_at replica.epochStarts_ordered ordered verdict)
      · rfl
      · exact absurd (epochOwning_eq_below replica.epochStarts_ordered ordered verdict later) parts.differs
  obtain ⟨problem, refused⟩ := (SegmentSet.truncateTo_error_iff (Nat.le_of_lt below)).mpr inside
  have cut : truncateTo replica divergence = .error (.InvalidConfig (.log problem)) := by
    rw [truncateTo, if_neg (Nat.not_lt.mpr above), refused]
  right
  simp [reconcileWith, theirs, lineageVerdict_eq, diverges, Nat.not_le.mpr below, whole, cut]

/-- Where nothing was reclaimed, a reconciliation of a known history leaves the log as it is exactly if both
histories ascribe all of it alike. -/
theorem reconcileWith_unchanged_iff (whole : replica.segment.baseOffset = 0)
    (known : replica.epochStarts ≠ [] → replica.KnownHistory) (ordered : Ordered leaderEpochStarts)
    (ends : leaderEpochStarts ≠ [] → leaderEpochStarts.getLast?.map EpochStart.epoch = some replica.heldFencingEpoch)
    (ok : reconcileWith replica leaderEpochStarts = .ok (after, removed)) :
    after.segment.records = replica.segment.records
      ↔ SameWriters replica.epochStarts leaderEpochStarts replica.nextOffset := by
  rcases reconcileWith_cases ok with ⟨rfl, why⟩ | ⟨divergence, diverges, -, below, cut⟩
  · refine ⟨fun _ => ?_, fun _ => rfl⟩
    by_cases mine : after.epochStarts = []
    · exact .inl mine
    by_cases theirs : leaderEpochStarts = []
    · exact .inr (.inl theirs)
    refine .inr (.inr fun offset below => ?_)
    rcases why with empty | agreed | unknown | ⟨divergence, diverges, beyond | emptyWindow | ⟨below', -⟩⟩
    · exact absurd empty theirs
    · exact epochOwning_of_agreed (known mine) ordered (ends theirs) agreed offset
    · exact absurd (compareLineage_unknown.mp unknown) (by simp [mine, theirs])
    · exact epochOwning_eq_below after.epochStarts_ordered ordered diverges (by omega)
    · omega
    · omega
  · -- A cut below the tail takes a record, and the histories part there.
    obtain ⟨-, segment, shorter, rfl⟩ := truncateTo_ok cut
    refine ⟨fun same => ?_, fun alike => absurd alike (not_sameWriters replica.epochStarts_ordered ordered diverges below)⟩
    have shortened := congrArg List.length same
    rw [updateJournal_segment, (SegmentSet.truncateTo_truncated shorter).records, List.length_take] at shortened
    have : divergence < replica.segment.records.length := below
    omega

end Reconcile

/-! ## The fence -/

section Fence

variable {epoch : Nat} {outcome : FenceOutcome}

/-- A fence that answers adopted the epoch and reconciled. -/
theorem fence_ok (ok : fence replica epoch leaderEpochStarts = (after, .ok outcome)) :
    replica.heldFencingEpoch ≤ epoch ∧ epoch ≤ replica.metaFencingEpoch.fencingEpoch
      ∧ ∃ removed, reconcileWith (replica.adoptFencingEpoch epoch) leaderEpochStarts = .ok (after, removed)
        ∧ outcome.localCommittedOffset = after.segment.committedOffset := by
  unfold fence at ok
  simp only at ok
  split at ok
  · cases ok
  split at ok
  · cases ok
  case isFalse forward granted =>
    split at ok
    · cases ok
    case h_2 reconciled removed reconciles =>
      cases ok
      exact ⟨Nat.not_lt.mp forward, Nat.not_lt.mp granted, removed, reconciles, rfl⟩

/-- No epoch starts above the tail, before a fence and after it. -/
theorem fence_within (within : ∀ entry ∈ replica.epochStarts, entry.startOffset ≤ replica.nextOffset)
    (ok : fence replica epoch leaderEpochStarts = (after, .ok outcome)) :
    ∀ entry ∈ after.epochStarts, entry.startOffset ≤ after.nextOffset := by
  intro entry member
  obtain ⟨-, -, removed, reconciles, -⟩ := fence_ok ok
  have offered := reconcileWith_offered reconciles (List.ne_nil_of_mem member)
  rcases reconcileWith_cases reconciles with ⟨rfl, -⟩ | ⟨divergence, -, -, -, cut⟩
  · simpa [nextOffset] using adopt_within within offered entry member
  · exact InProcessFollower.truncateTo_within cut member

theorem fence_settles_disputes (replica after : Replica) (epoch : Nat) (leaderEpochStarts : List EpochStart)
    (outcome : FenceOutcome) (within : ∀ entry ∈ replica.epochStarts, entry.startOffset ≤ replica.nextOffset)
    (ordered : Ordered leaderEpochStarts) (ends : leaderEpochStarts.getLast?.map EpochStart.epoch = some epoch)
    (ok : fence replica epoch leaderEpochStarts = (after, .ok outcome)) :
    Ordered after.epochStarts ∧ (∀ entry ∈ after.epochStarts, entry.startOffset ≤ after.nextOffset)
      ∧ (∀ offset < replica.clusterCommitted, after.segment.records[offset]? = replica.segment.records[offset]?)
      ∧ (replica.epochStarts.getLast?.map EpochStart.epoch = some replica.heldFencingEpoch →
        (∀ position, after.segment.baseOffset ≤ position → position < after.nextOffset →
          epochOwning after.epochStarts position = epochOwning leaderEpochStarts position
            ∨ ¬ VouchesForBase after.epochStarts after ∨ ¬ VouchesForBase leaderEpochStarts after)
        ∧ (after.epochStarts ≠ [] → after.epochStarts.getLast?.map EpochStart.epoch = some epoch)) := by
  obtain ⟨forward, -, removed, reconciles, -⟩ := fence_ok ok
  refine ⟨after.epochStarts_ordered, fence_within within ok, fun offset acknowledged => ?_, fun latest => ?_⟩
  · rw [reconcileWith_keeps reconciles (by simpa using acknowledged), adopt_segment]
  have known : replica.KnownHistory := ⟨Option.map_eq_some_iff.mp latest, within⟩
  have adopted offered := known.adopt forward (reconcileWith_offered reconciles offered)
  have held : (replica.adoptFencingEpoch epoch).heldFencingEpoch = epoch := by
    rw [adopt_heldFencingEpoch]
    omega
  refine ⟨fun position retained below => ?_, fun offered => ?_⟩
  · by_cases offered : after.epochStarts = []
    · -- A vector that is unknown by now vouches for nothing.
      exact .inr (.inl fun vouches => vouches (by simp [offered, epochOwning]))
    · exact reconcileWith_sameWriters (adopted offered) ordered (by rw [ends, held]) reconciles offered retained below
  · obtain ⟨⟨⟨last, isLast, lastEpoch⟩, -⟩, sameHeld⟩ := reconcileWith_known (adopted offered) reconciles offered
    rw [isLast, Option.map_some, lastEpoch, sameHeld, held]

end Fence

section Example

/-- A follower with three records, all of them written under epoch one, that holds a given epoch, and whose next write of
the journal comes out as given. -/
def followerHolding (heldFencingEpoch : Nat) (nextWrite : FileWrite) : Replica :=
  { fresh 2#128 { topic := "orders", topicEpoch := 1, rangeId := 7#128, rangeGeneration := 1 } .V2 16 with
    heldFencingEpoch
    fencingEpochJournal := some { FencingEpochJournal.opened ⟨[⟨1, 0⟩], List.pairwise_singleton _ _⟩ with nextWrite }
    metaFencingEpoch := { fencingEpoch := 5, leaseActive := true, releasedThrough := 0 }
    segment := (SegmentSet.empty 16).extend ([0, 1, 2].map fun sequence =>
      { producerId := 40#128, producerEpoch := 1, sequence, timestampMillis := 0, key := [], value := [] }) .Fsync }

/-- A follower that was configured with an epoch it never recorded ends its vector with an older one.  Then a caller
that ascribes the records from one on to the newer epoch is found to agree.  And where the journal cannot be written the
fence is answered all the same, with a vector that ends with no epoch. -/
theorem fence_keeps_disputed_records : (∃ replica leaderEpochStarts, replica.epochStarts ≠ []
      ∧ (∀ entry ∈ replica.epochStarts, entry.startOffset ≤ replica.nextOffset)
      ∧ Ordered leaderEpochStarts ∧ leaderEpochStarts.getLast?.map EpochStart.epoch = some 5
      ∧ ∃ after outcome, fence replica 5 leaderEpochStarts = (after, .ok outcome)
        ∧ after.segment.baseOffset ≤ 2 ∧ 2 < after.nextOffset
        ∧ epochOwning after.epochStarts 2 ≠ epochOwning leaderEpochStarts 2
        ∧ VouchesForBase after.epochStarts after ∧ VouchesForBase leaderEpochStarts after)
    ∧ ∃ replica leaderEpochStarts, replica.KnownHistory
      ∧ Ordered leaderEpochStarts ∧ leaderEpochStarts.getLast?.map EpochStart.epoch = some 5
      ∧ ∃ after outcome, fence replica 5 leaderEpochStarts = (after, .ok outcome) ∧ after.epochStarts = [] :=
  ⟨⟨followerHolding 5 .durable, [⟨1, 0⟩, ⟨5, 1⟩], by decide, by decide, by decide, rfl, _, _, rfl, by decide, by decide,
    by decide, by decide, by decide⟩, followerHolding 1 .lost, [⟨1, 0⟩, ⟨5, 1⟩], ⟨⟨_, rfl, rfl⟩, by decide⟩, by decide, rfl,
    _, _, rfl, by decide⟩

/-- A follower that holds what its vector ends with discards the two records in dispute. -/
theorem fence_discards_disputed_records :
    ∃ after outcome, fence (followerHolding 1 .durable) 5 [⟨1, 0⟩, ⟨5, 1⟩] = (after, .ok outcome) ∧ after.nextOffset = 1
      ∧ after.epochStarts.getLast?.map EpochStart.epoch = some 5 := by
  refine ⟨_, _, rfl, by decide, ?_⟩
  obtain ⟨-, -, -, settles⟩ := fence_settles_disputes (followerHolding 1 .durable) _ 5 [⟨1, 0⟩, ⟨5, 1⟩] _ (by decide)
    (by decide) rfl rfl
  exact (settles rfl).2 (by decide)

end Example

end VtopEngine.Broker.InProcessFollower
