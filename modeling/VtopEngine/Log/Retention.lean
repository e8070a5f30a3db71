import VtopEngine.Log.Fetch

/-! # Retention

Reclaiming the oldest sealed segments of a log that exceeds its byte bound
(`segment_set.rs`): only segments that lie wholly below a floor go, so the base moves and
nothing else does.

* `SegmentSet.retain` — one pass.
-/

namespace VtopEngine.Log.SegmentSet

/-- The encoded bytes of the records between two offsets. -/
def contentBytes (set : SegmentSet) (framing : Framing) (baseOffset nextOffset : Nat) : Nat :=
  (((set.records.take nextOffset).drop baseOffset).map framing.encodedLen).sum

/-- How many of the oldest segments go, once so many bytes are to be removed with them. -/
def reclaimed (set : SegmentSet) (framing : Framing) (total maxTotalBytes floor : Nat) : Nat → List (Nat × Nat) → Nat
  | _, [] => 0
  | removed, (baseOffset, nextOffset) :: spans =>
    if total - removed ≤ maxTotalBytes ∨ floor < nextOffset then 0
    else 1 + reclaimed set framing total maxTotalBytes floor (removed + set.contentBytes framing baseOffset nextOffset) spans

/-- Reclaim the oldest sealed segments below a floor until the bound holds. -/
def retain (set : SegmentSet) (framing : Framing) (maxTotalBytes floor : Nat) : SegmentSet :=
  let total := set.contentBytes framing set.baseOffset set.nextOffset
  { set with
    sealed := set.sealed.drop (set.reclaimed framing total maxTotalBytes floor 0 set.sealedSpans)
    layout := set.layout.sublist ((List.drop_sublist _ _).append_right _) }

end VtopEngine.Log.SegmentSet
