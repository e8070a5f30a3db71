import VtopEngine.Broker.Follower

/-! # A replica's history

What adoption, truncation and appends do to the vector a replica offers.

* `KnownHistory` — the vector ends with the epoch the replica holds, and no epoch starts
  above the replica's tail.
* `KnownHistory.adopt`, `KnownHistory.grow`, `truncateTo_known` — a vector that is
  still offered after an operation is known if it was known before; below a cut the
  writers are the same.
-/

namespace VtopEngine.Broker

open Lib Log List

variable {replica after : Replica}

namespace Replica

variable {epoch : Nat} {update : FencingEpochJournal → FencingEpochJournal × Except JournalError Unit}

theorem epochStarts_ordered (replica : Replica) : Ordered replica.epochStarts := by
  unfold epochStarts
  split
  · exact .nil
  split
  case h_1 journal _ => exact journal.vector.ordered
  case h_2 => exact .nil

/-- A vector that is offered after a change was offered before it, and the change succeeded. -/
theorem epochStarts_updateJournal (offered : (replica.updateJournal update).epochStarts ≠ []) :
    ∃ journal, replica.epochStarts = journal.entries ∧ (update journal).2.isOk = true
      ∧ (replica.updateJournal update).epochStarts = (update journal).1.entries := by
  unfold updateJournal at offered ⊢
  cases journal? : replica.fencingEpochJournal with
  | none => simp [epochStarts, journal?] at offered
  | some journal =>
    simp only [epochStarts, journal?] at offered ⊢
    split at offered
    · simp at offered
    case isFalse unbroken =>
      simp only [Bool.or_eq_true, Bool.not_eq_true', not_or, Bool.not_eq_true, Bool.not_eq_false] at unbroken
      exact ⟨journal, by simp [unbroken.1], unbroken.2, by simp [unbroken]⟩

/-- The vector ends with the held epoch, within the log. -/
structure KnownHistory (replica : Replica) : Prop where
  latest : ∃ last, replica.epochStarts.getLast? = some last ∧ last.epoch = replica.heldFencingEpoch
  within : ∀ entry ∈ replica.epochStarts, entry.startOffset ≤ replica.nextOffset

theorem KnownHistory.epoch_le (known : replica.KnownHistory) (member : entry ∈ replica.epochStarts) :
    entry.epoch ≤ replica.heldFencingEpoch := by
  obtain ⟨last, isLast, held⟩ := known.latest
  exact held ▸ (replica.epochStarts_ordered.le_last isLast member).1

/-- Adoption, seen from the vector: nothing changes, or the epoch starts at the tail. -/
theorem epochStarts_adopt (replica : Replica) (epoch) (offered : (replica.adoptFencingEpoch epoch).epochStarts ≠ []) :
    ((replica.adoptFencingEpoch epoch).epochStarts = replica.epochStarts
        ∧ (epoch ≤ replica.heldFencingEpoch ∨ ∃ entry ∈ replica.epochStarts, epoch ≤ entry.epoch))
      ∨ ((replica.adoptFencingEpoch epoch).epochStarts = replica.epochStarts ++ [⟨epoch, replica.nextOffset⟩]
        ∧ (replica.epochStarts = [] → replica.nextOffset = 0) ∧ replica.heldFencingEpoch < epoch) := by
  by_cases moves : replica.heldFencingEpoch < epoch
  · have adopts : (replica.adoptFencingEpoch epoch).epochStarts
        = (replica.updateJournal fun journal => journal.recordAdoption epoch replica.nextOffset).epochStarts := by
      simp [adoptFencingEpoch, recordEpochStart, moves, epochStarts]
    rw [adopts] at offered ⊢
    obtain ⟨journal, before, ok, after⟩ := epochStarts_updateJournal offered
    rw [after, before]
    rcases journal.recordAdoption_cases epoch replica.nextOffset with ⟨failed, -⟩ | ⟨same, why⟩ | ⟨admitted, starts, written⟩
    · simp [failed] at ok
    · rw [same]
      refine .inl ⟨rfl, .inr ?_⟩
      rcases why with ⟨empty, -⟩ | known
      · rw [after, same] at offered
        exact absurd empty offered
      · exact known
    · rw [written]
      exact .inr ⟨rfl, starts, moves⟩
  · have same : (replica.adoptFencingEpoch epoch).epochStarts = replica.epochStarts := by
      simp [adoptFencingEpoch, moves, epochStarts]
    exact .inl ⟨same, .inl (Nat.not_lt.mp moves)⟩

section Fields

variable (replica : Replica) (update : FencingEpochJournal → FencingEpochJournal × Except JournalError Unit) (epoch : Nat)

@[simp] theorem updateJournal_segment : (replica.updateJournal update).segment = replica.segment := by
  unfold updateJournal
  split <;> rfl

@[simp] theorem updateJournal_heldFencingEpoch :
    (replica.updateJournal update).heldFencingEpoch = replica.heldFencingEpoch := by
  unfold updateJournal
  split <;> rfl

@[simp] theorem updateJournal_clusterCommitted :
    (replica.updateJournal update).clusterCommitted = replica.clusterCommitted := by
  unfold updateJournal
  split <;> rfl

@[simp] theorem adopt_segment : (replica.adoptFencingEpoch epoch).segment = replica.segment := by
  unfold adoptFencingEpoch recordEpochStart
  split <;> simp

@[simp] theorem adopt_clusterCommitted : (replica.adoptFencingEpoch epoch).clusterCommitted = replica.clusterCommitted := by
  unfold adoptFencingEpoch recordEpochStart
  split <;> simp

@[simp] theorem adopt_heldFencingEpoch :
    (replica.adoptFencingEpoch epoch).heldFencingEpoch = max replica.heldFencingEpoch epoch := rfl

end Fields

/-- An adoption leaves every entry within the log. -/
theorem adopt_within (within : ∀ entry ∈ replica.epochStarts, entry.startOffset ≤ replica.nextOffset)
    (offered : (replica.adoptFencingEpoch epoch).epochStarts ≠ []) :
    ∀ entry ∈ (replica.adoptFencingEpoch epoch).epochStarts, entry.startOffset ≤ replica.nextOffset := by
  rcases epochStarts_adopt replica epoch offered with ⟨same, -⟩ | ⟨pushed, -⟩
  · rwa [same]
  · rw [pushed]
    intro entry member
    rcases mem_append.mp member with earlier | new
    · exact within entry earlier
    · rw [mem_singleton.mp new]

theorem KnownHistory.adopt (known : replica.KnownHistory) (forward : replica.heldFencingEpoch ≤ epoch)
    (offered : (replica.adoptFencingEpoch epoch).epochStarts ≠ []) : (replica.adoptFencingEpoch epoch).KnownHistory := by
  obtain ⟨last, isLast, held⟩ := known.latest
  refine ⟨?_, by simpa [nextOffset] using adopt_within known.within offered⟩
  rcases epochStarts_adopt replica epoch offered with ⟨same, known'⟩ | ⟨pushed, -, moves⟩
  · -- An epoch that is already in the vector is not above the held one.
    have same' : epoch = replica.heldFencingEpoch := by
      rcases known' with stale | ⟨entry, member, later⟩
      · omega
      · have := known.epoch_le member
        omega
    refine ⟨last, by rw [same, isLast], ?_⟩
    rw [held, adopt_heldFencingEpoch]
    omega
  · refine ⟨_, by rw [pushed, getLast?_concat], ?_⟩
    show epoch = max replica.heldFencingEpoch epoch
    omega

/-- An append leaves the vector alone, and its entries within the log. -/
theorem KnownHistory.grow (known : replica.KnownHistory) (sameStarts : after.epochStarts = replica.epochStarts)
    (sameHeld : after.heldFencingEpoch = replica.heldFencingEpoch) (grows : replica.nextOffset ≤ after.nextOffset) :
    after.KnownHistory := by
  obtain ⟨last, isLast, held⟩ := known.latest
  refine ⟨⟨last, by rw [sameStarts, isLast], by rw [held, sameHeld]⟩, fun entry member => ?_⟩
  rw [sameStarts] at member
  exact Nat.le_trans (known.within entry member) grows

end Replica

namespace InProcessFollower

theorem truncateTo_ok (ok : truncateTo replica offset = .ok (after, removed)) :
    replica.clusterCommitted ≤ offset ∧ ∃ segment, replica.segment.truncateTo offset = .ok (segment, removed)
      ∧ after = { replica with segment }.updateJournal (repairJournal replica.heldFencingEpoch offset) := by
  unfold truncateTo at ok
  split at ok
  · cases ok
  case isFalse above =>
    split at ok
    · cases ok
    case h_2 segment removed' cut =>
      cases ok
      exact ⟨Nat.not_lt.mp above, segment, cut, rfl⟩

/-- What the repair leaves if it succeeds: the entries below the cut, and the held epoch at the cut unless they end
with it. -/
theorem repairJournal_cases (held offset journal) : (repairJournal held offset journal).2.isOk = false
      ∨ ((repairJournal held offset journal).1.entries = (journal.vector.below offset).entries
        ∧ (repairJournal held offset journal).1.poisoned = false
        ∧ (held = 0 ∨ ∃ last, (journal.vector.below offset).latest = some last ∧ held ≤ last.epoch))
      ∨ ((repairJournal held offset journal).1.entries = (journal.vector.below offset).entries ++ [⟨held, offset⟩]
        ∧ (repairJournal held offset journal).1.poisoned = false) := by
  unfold repairJournal
  rcases journal.truncateTo_cases offset with ⟨failed, -⟩ | ⟨succeeded, kept, healthy⟩
  · split
    case h_1 outcome => simp [outcome, Except.isOk, Except.toBool] at failed
    case h_2 => exact .inl rfl
  · split
    case h_2 outcome => simp [outcome, Except.isOk, Except.toBool] at succeeded
    case h_1 truncated _ outcome =>
      rw [outcome] at kept
      obtain rfl : truncated = journal.rewritten (journal.vector.below offset) := kept
      rcases (journal.rewritten (journal.vector.below offset)).recordHeldEpochAt_cases held offset
        with ⟨failed, -⟩ | ⟨same, why⟩ | ⟨admitted, written⟩
      · exact .inl failed
      · rw [same]
        exact .inr (.inl ⟨rfl, healthy, why⟩)
      · rw [written]
        exact .inr (.inr ⟨rfl, healthy⟩)

/-- Truncation, seen from the vector: the entries below the cut stay, and the held epoch goes on at the cut unless
the vector ends with it. -/
theorem epochStarts_truncateTo (ok : truncateTo replica offset = .ok (after, removed)) (offered : after.epochStarts ≠ []) :
    (after.epochStarts = replica.epochStarts.takeWhile (fun entry => entry.startOffset < offset)
        ∧ (replica.heldFencingEpoch = 0 ∨ ∃ entry ∈ after.epochStarts, replica.heldFencingEpoch ≤ entry.epoch))
      ∨ after.epochStarts = replica.epochStarts.takeWhile (fun entry => entry.startOffset < offset)
          ++ [⟨replica.heldFencingEpoch, offset⟩] := by
  obtain ⟨-, segment, -, rfl⟩ := truncateTo_ok ok
  obtain ⟨journal, before, repaired, result⟩ := Replica.epochStarts_updateJournal offered
  have before : replica.epochStarts = journal.entries := before
  rw [result, before]
  rcases repairJournal_cases replica.heldFencingEpoch offset journal with failed | ⟨kept, -, why⟩ | ⟨kept, -⟩
  · simp [failed] at repaired
  · refine .inl ⟨kept, why.imp_right fun ⟨last, isLast, later⟩ => ⟨last, ?_, later⟩⟩
    rw [kept]
    exact mem_of_getLast? isLast
  · exact .inr kept

theorem truncateTo_nextOffset (ok : truncateTo replica offset = .ok (after, removed)) : after.nextOffset = offset := by
  obtain ⟨-, segment, cut, isAfter⟩ := truncateTo_ok ok
  rw [Replica.nextOffset, isAfter, Replica.updateJournal_segment]
  exact (SegmentSet.truncateTo_truncated cut).nextOffset

/-- No epoch starts above a cut. -/
theorem truncateTo_within (ok : truncateTo replica offset = .ok (after, removed)) (member : entry ∈ after.epochStarts) :
    entry.startOffset ≤ after.nextOffset := by
  have below : ∀ entry ∈ replica.epochStarts.takeWhile (fun entry => entry.startOffset < offset), entry.startOffset ≤ offset :=
    fun entry member => Nat.le_of_lt (by simpa using mem_takeWhile_imp member)
  rw [truncateTo_nextOffset ok]
  rcases epochStarts_truncateTo ok (ne_nil_of_mem member) with ⟨trimmed, -⟩ | reanchored
  · exact below entry (trimmed ▸ member)
  · rw [reanchored] at member
    rcases mem_append.mp member with earlier | new
    · exact below entry earlier
    · rw [mem_singleton.mp new]

/-- A vector that is still offered after a truncation ends with the held epoch, and below the cut it names the
writers it named before. -/
theorem truncateTo_known (known : replica.KnownHistory) (ok : truncateTo replica offset = .ok (after, removed))
    (offered : after.epochStarts ≠ []) :
    after.KnownHistory
      ∧ ∀ position < offset, epochOwning after.epochStarts position = epochOwning replica.epochStarts position := by
  have sameHeld : after.heldFencingEpoch = replica.heldFencingEpoch := by
    obtain ⟨-, segment, -, rfl⟩ := truncateTo_ok ok
    rw [Replica.updateJournal_heldFencingEpoch]
  have kept {position : Nat} (beneath : position < offset) :
      epochOwning (replica.epochStarts.takeWhile fun entry => entry.startOffset < offset) position
        = epochOwning replica.epochStarts position :=
    congrArg (Option.map EpochStart.epoch) (Timeline.owner_takeWhile replica.epochStarts_ordered.ascending beneath)
  -- The history is cut back, or cut back and anchored again at the cut under the held epoch.
  rcases epochStarts_truncateTo ok offered with ⟨trimmed, why⟩ | reanchored
  · refine ⟨⟨?_, fun entry => truncateTo_within ok⟩, fun position beneath => by rw [trimmed, kept beneath]⟩
    have isLast := getLast?_eq_some_getLast offered
    have bound : (after.epochStarts.getLast offered).epoch ≤ replica.heldFencingEpoch :=
      known.epoch_le ((trimmed ▸ takeWhile_sublist _ : after.epochStarts <+ replica.epochStarts).mem (getLast_mem offered))
    refine ⟨_, isLast, ?_⟩
    rcases why with zero | ⟨entry, member, later⟩
    · omega
    · have := (after.epochStarts_ordered.le_last isLast member).1
      omega
  · refine ⟨⟨⟨⟨replica.heldFencingEpoch, offset⟩, by rw [reanchored, getLast?_concat], sameHeld.symm⟩,
      fun entry => truncateTo_within ok⟩, fun position beneath => ?_⟩
    rw [reanchored, ← kept beneath]
    exact congrArg (Option.map EpochStart.epoch) (Timeline.owner_append_above (by simpa using beneath))

end InProcessFollower

end VtopEngine.Broker
