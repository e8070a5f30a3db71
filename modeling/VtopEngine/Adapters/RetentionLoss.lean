import Mathlib.Order.Interval.Finset.Nat

/-! # Records that retention removed

A Kafka source compares where it would read next with a partition's low watermark, and counts the records it can no
longer read (`kafka_source.rs`).  A count is delivered by the next pass that succeeds.

* `retentionGap`, `newlyLost`, `reportRetentionGap`, `takePendingLosses` — the check and the delivery.
* `lost_counted_once` — while the next offset does not go back, every lost record is counted once.
-/

namespace VtopEngine.Adapters.KafkaSource

open Finset

def saturatingSub (left right : Int) : Int := max (-2 ^ 63) (min (2 ^ 63 - 1) (left - right))

/-- A negative offset is a sentinel, not a position. -/
def retentionGap (desiredOffset : Option Int) (lowWatermark : Int) : Option Nat :=
  desiredOffset.bind fun desired =>
    if desired < 0 then none
    else if lowWatermark ≤ desired then none
    else some (saturatingSub lowWatermark desired).toNat

def newlyLost (desiredOffset : Option Int) (lowWatermark : Int) (reportedThrough : Option Int) : Nat :=
  match desiredOffset, retentionGap desiredOffset lowWatermark with
  | some desired, some _ => (saturatingSub lowWatermark (max (reportedThrough.getD desired) desired)).toNat
  | _, _ => 0

/-- What the source keeps of one partition; a topic's pending count is the sum over its partitions. -/
structure PartitionLoss where
  reportedLostThrough : Option Int
  pendingLost : Nat

def reportRetentionGap (loss : PartitionLoss) (nextOffset : Option Int) (lowWatermark : Int) : PartitionLoss :=
  if (retentionGap nextOffset lowWatermark).isNone then loss
  else
    { reportedLostThrough := some (max (loss.reportedLostThrough.getD lowWatermark) lowWatermark)
      pendingLost := loss.pendingLost + newlyLost nextOffset lowWatermark loss.reportedLostThrough }

def takePendingLosses (loss : PartitionLoss) : Nat × PartitionLoss := (loss.pendingLost, { loss with pendingLost := 0 })

/-! ## Passes -/

/-- The next offset and the low watermark a check observes. -/
structure RetentionCheck where
  (next low : Int)
  isPosition : 0 ≤ next
  fits : low < 2 ^ 63

/-- A pass need not check, by its interval or because the broker did not answer. -/
structure Pass where
  check : Option RetentionCheck
  succeeds : Bool

/-- The partition's losses and what was delivered of them. -/
structure Counted extends PartitionLoss where
  retentionLost : Nat

def readPass (counted : Counted) (pass : Pass) : Counted :=
  let loss := pass.check.elim counted.toPartitionLoss fun check =>
    reportRetentionGap counted.toPartitionLoss (some check.next) check.low
  if pass.succeeds then ⟨(takePendingLosses loss).2, counted.retentionLost + (takePendingLosses loss).1⟩
  else ⟨loss, counted.retentionLost⟩

/-- The offsets that at some check were not yet read and no longer there. -/
def lostOffsets (passes : List Pass) : Finset Nat :=
  passes.foldl (fun lost pass => lost ∪ pass.check.elim ∅ fun check => range check.low.toNat \ range check.next.toNat) ∅

/-- A gap that the pass finds starts at the offset or below. -/
def Pass.StartsBy (offset : Int) (pass : Pass) : Prop := ∀ check ∈ pass.check, check.next < check.low → check.next ≤ offset

def Forward (earlier later : Pass) : Prop := ∀ check ∈ later.check, earlier.StartsBy check.next

/-- From the next offsets observed so far on, what was lost lies below the bookmark. -/
structure Booked (passes : List Pass) (counted : Counted) : Prop where
  total : counted.retentionLost + counted.pendingLost = #(lostOffsets passes)
  marked : ∀ offset : Nat, (∀ pass ∈ passes, pass.StartsBy offset) →
    (offset ∈ lostOffsets passes ↔ ∃ through ∈ counted.reportedLostThrough, offset < through)

variable {passes : List Pass} {counted : Counted} {check : RetentionCheck} {succeeds : Bool}

theorem reportRetentionGap_eq (gap : check.next < check.low) (loss) : reportRetentionGap loss (some check.next) check.low =
      ⟨some (max (loss.reportedLostThrough.getD check.low) check.low),
        loss.pendingLost + (check.low - max (loss.reportedLostThrough.getD check.next) check.next).toNat⟩ := by
  have position := check.isPosition
  have fits := check.fits
  have found : retentionGap (some check.next) check.low = some (saturatingSub check.low check.next).toNat := by
    simp [retentionGap, not_lt.mpr position, not_le.mpr gap]
  simp only [reportRetentionGap, newlyLost, found, saturatingSub, PartitionLoss.mk.injEq, Option.isNone_some, Bool.false_eq_true,
    if_false, true_and]
  omega

/-- What a check finds anew lies from the bookmark on. -/
theorem Booked.new (booked : Booked passes counted) (forward : ∀ pass ∈ passes, Forward pass ⟨some check, succeeds⟩) :
    (range check.low.toNat \ range check.next.toNat) \ lostOffsets passes =
      range check.low.toNat \ range (max (counted.reportedLostThrough.getD check.next) check.next).toNat := by
  ext offset
  simp only [mem_sdiff, mem_range]
  by_cases later : check.next ≤ offset
  · have marked := booked.marked offset fun pass isPass before isBefore gap =>
      (forward pass isPass check rfl before isBefore gap).trans later
    rw [marked]
    cases counted.reportedLostThrough <;> simp
    all_goals omega
  · omega

theorem card_range_sdiff (stop start) : #(range stop \ range start) = stop - start := by
  have interval : range stop \ range start = Ico start stop := by
    ext
    simp [and_comm]
  rw [interval, Nat.card_Ico]

theorem Booked.reported (booked : Booked passes counted) (gap : check.next < check.low)
    (forward : ∀ pass ∈ passes, Forward pass ⟨some check, succeeds⟩) : Booked (passes ++ [⟨some check, succeeds⟩])
      ⟨reportRetentionGap counted.toPartitionLoss (some check.next) check.low, counted.retentionLost⟩ := by
  have added : lostOffsets (passes ++ [⟨some check, succeeds⟩]) =
      lostOffsets passes ∪ (range check.low.toNat \ range check.next.toNat) := List.foldl_append
  have position := check.isPosition
  rw [reportRetentionGap_eq gap]
  refine ⟨?_, fun offset starts => ?_⟩
  · rw [added, union_comm, ← card_sdiff_add_card, booked.new forward, card_range_sdiff, ← booked.total]
    dsimp only
    omega
  · have later : check.next ≤ offset := starts _ List.mem_concat_self check rfl gap
    rw [added, mem_union, booked.marked offset fun pass isPass => starts pass (by simp [isPass])]
    cases counted.reportedLostThrough <;> simp <;> omega

/-- A pass that finds no gap. -/
theorem Booked.passed {pass} (booked : Booked passes counted) (same : lostOffsets (passes ++ [pass]) = lostOffsets passes) :
    Booked (passes ++ [pass]) counted :=
  ⟨same ▸ booked.total, fun offset starts => same ▸ booked.marked offset fun pass isPass => starts pass (by simp [isPass])⟩

theorem Booked.readPass {pass} (booked : Booked passes counted) (forward : ∀ earlier ∈ passes, Forward earlier pass) :
    Booked (passes ++ [pass]) (readPass counted pass) := by
  obtain ⟨check, succeeds⟩ := pass
  have checked : Booked (passes ++ [⟨check, succeeds⟩]) ⟨check.elim counted.toPartitionLoss fun check =>
      reportRetentionGap counted.toPartitionLoss (some check.next) check.low, counted.retentionLost⟩ := by
    cases check with
    | none => exact booked.passed (by simp [lostOffsets])
    | some check =>
      by_cases gap : check.next < check.low
      · exact booked.reported gap forward
      · have unchanged : reportRetentionGap counted.toPartitionLoss (some check.next) check.low = counted.toPartitionLoss := by
          simp [reportRetentionGap, retentionGap, not_lt.mp gap]
        rw [Option.elim, unchanged]
        exact booked.passed (by simp [lostOffsets, sdiff_eq_empty_iff_subset.mpr, Int.toNat_le_toNat (not_lt.mp gap)])
  cases succeeds with
  | true => exact ⟨checked.total, checked.marked⟩
  | false => exact checked

theorem lost_counted_once (passes : List Pass) (forward : passes.Pairwise Forward) :
    let counted := passes.foldl readPass ⟨⟨none, 0⟩, 0⟩
    counted.retentionLost + counted.pendingLost = #(lostOffsets passes) := by
  suffices booked : Booked passes (passes.foldl readPass ⟨⟨none, 0⟩, 0⟩) from booked.total
  induction passes using List.reverseRecOn with
  | nil => exact ⟨rfl, by simp [lostOffsets]⟩
  | append_singleton passes pass ih =>
    obtain ⟨earlier, -, between⟩ := List.pairwise_append.mp forward
    rw [List.foldl_append]
    exact (ih earlier).readPass fun pass' isPass => between pass' isPass pass (List.mem_singleton_self _)

/-- A replay moved the next offset back, behind a gap that was counted. -/
def rewound : List Pass := [⟨some ⟨10, 20, by decide, by decide⟩, true⟩, ⟨some ⟨0, 20, by decide, by decide⟩, true⟩]

theorem rewound_loss_missed :
    let counted := rewound.foldl readPass ⟨⟨none, 0⟩, 0⟩
    counted.retentionLost + counted.pendingLost = 10 ∧ #(lostOffsets rewound) = 20 := by
  decide

/-- A gap that grows, seen first by a pass that fails. -/
def growingGap : List Pass := [⟨some ⟨0, 10, by decide, by decide⟩, false⟩, ⟨some ⟨0, 20, by decide, by decide⟩, true⟩]

theorem growingGap_counted : 20 = #(lostOffsets growingGap) :=
  lost_counted_once growingGap (by simp [growingGap, Forward, Pass.StartsBy])

end VtopEngine.Adapters.KafkaSource
