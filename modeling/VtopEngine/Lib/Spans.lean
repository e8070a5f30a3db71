import Mathlib.Data.List.Sort
import Mathlib.Data.List.TakeWhile
import Mathlib.Algebra.BigOperators.Ring.Finset
import Mathlib.Algebra.Order.BigOperators.Group.Finset
import Mathlib.Order.Interval.Finset.Nat

/-! # Spans of a line

Half-open intervals of naturals, merged into disjoint spans, and what the spans leave of
a window.

* `spans` — rows sorted and merged where they overlap or touch.
* `overlapping` — the spans that meet a window.
* `uncovered` — the pieces of a window that no span covers.
* `Ascending` — pieces in order, none of which meets another: a position lies in at most
  one of them (`countP_le_one`).
* `sum_lengths` — the lengths of the rows count each position as often as it is covered.
-/

namespace VtopEngine.Lib.Spans

/-- A stretch of positions, from `start` up to but not including `stop`. -/
structure Piece where
  (start stop : Nat)
  deriving DecidableEq, Repr

namespace Piece

def Contains (piece : Piece) (position : Nat) : Prop := piece.start ≤ position ∧ position < piece.stop

instance (piece : Piece) (position : Nat) : Decidable (piece.Contains position) :=
  inferInstanceAs (Decidable (_ ∧ _))

theorem contains_iff {piece : Piece} {position} :
    piece.Contains position ↔ piece.start ≤ position ∧ position < piece.stop := Iff.rfl

end Piece

/-- Pieces in order, each of which ends before the next begins. -/
def Ascending (pieces : List Piece) : Prop := pieces.Pairwise fun first second => first.stop ≤ second.start

/-- A merged stretch, with the rows it came from. -/
structure Span (α : Type) extends Piece where
  rows : List α

variable {α : Type} (extent : α → Piece)

/-- Rows are ordered by where they start, and then by where they stop. -/
def Before (first second : α) : Prop :=
  (extent first).start < (extent second).start
    ∨ ((extent first).start = (extent second).start ∧ (extent first).stop ≤ (extent second).stop)

instance : DecidableRel (Before extent) := fun _ _ => inferInstanceAs (Decidable (_ ∨ _))

def single (row : α) : Span α := { extent row with rows := [row] }

/-- Merge sorted rows into the last span there is, or start another. -/
def gather (last : Span α) : List α → List (Span α)
  | [] => [last]
  | row :: rows =>
    if (extent row).start ≤ last.stop then
      gather { last with stop := max last.stop (extent row).stop, rows := last.rows ++ [row] } rows
    else last :: gather (single extent row) rows

def spans (rows : List α) : List (Span α) :=
  match rows.insertionSort (Before extent) with
  | [] => []
  | row :: rows => gather extent (single extent row) rows

/-- The spans that meet a window; those that end before it come first, and those that begin after it last. -/
def overlapping (spans : List (Span α)) (start stop : Nat) : List (Span α) :=
  (spans.dropWhile fun span => span.stop ≤ start).takeWhile fun span => span.start < stop

/-- The loop of `uncovered`. -/
def sweep (cursor stop : Nat) : List (Span α) → List Piece
  | [] => if cursor < stop then [⟨cursor, stop⟩] else []
  | span :: rest => (if cursor < span.start then [⟨cursor, span.start⟩] else []) ++ sweep (max cursor span.stop) stop rest

/-- A window less every span: the pieces that are left, in order. -/
def uncovered (start stop : Nat) (spans : List (Span α)) : List Piece := sweep start stop (overlapping spans start stop)

section

open List

/-! ## Merging -/

/-- Disjoint spans with gaps between them, each of which is exactly what its rows cover. -/
structure Merges (spans : List (Span α)) (rows : List α) : Prop where
  separated : spans.Pairwise fun first second => first.stop < second.start
  nonempty : ∀ span ∈ spans, span.start < span.stop
  contains : ∀ span ∈ spans, ∀ position, span.Contains position ↔ ∃ row ∈ span.rows, (extent row).Contains position
  rows : (spans.flatMap Span.rows).Perm rows

section Merge

variable {extent}

theorem single_contains (row position) :
    (single extent row).Contains position ↔ ∃ member ∈ (single extent row).rows, (extent member).Contains position := by
  simp [single, Piece.Contains]

theorem gather_merges (proper : ∀ row, (extent row).start < (extent row).stop) (last : Span α) (rows)
    (nonempty : last.start < last.stop)
    (contains : ∀ position, last.Contains position ↔ ∃ row ∈ last.rows, (extent row).Contains position)
    (after : ∀ row ∈ rows, last.start ≤ (extent row).start)
    (sorted : rows.Pairwise fun first second => (extent first).start ≤ (extent second).start) :
    Merges extent (gather extent last rows) (last.rows ++ rows)
      ∧ ∀ span ∈ gather extent last rows, last.start ≤ span.start := by
  induction rows generalizing last with
  | nil =>
    refine ⟨⟨pairwise_singleton _ _, ?_, ?_, by simp [gather]⟩, ?_⟩
    all_goals simp only [gather, mem_singleton, forall_eq]
    · exact nonempty
    · exact contains
    · exact le_refl _
  | cons row rows ih =>
    obtain ⟨later, sorted⟩ := pairwise_cons.mp sorted
    have startsAfter := after row mem_cons_self
    have rowProper := proper row
    unfold gather
    split
    case isTrue touches =>
      have grown := ih
        { last with stop := max last.stop (extent row).stop, rows := last.rows ++ [row] }
        (by simp only; omega) (fun position => ?_) (fun next member => after next (mem_cons_of_mem _ member)) sorted
      · obtain ⟨merges, starts⟩ := grown
        refine ⟨?_, starts⟩
        rw [show last.rows ++ row :: rows = (last.rows ++ [row]) ++ rows by simp]
        exact merges
      · -- The row begins within the span or where it ends, so nothing is left between them.
        have old := contains position
        simp only [Piece.Contains] at old ⊢
        simp only [mem_append, mem_singleton, or_and_right, exists_or, exists_eq_left, ← old]
        omega
    case isFalse apart =>
      obtain ⟨merges, starts⟩ := ih (single extent row) rowProper (single_contains row) later sorted
      have startsAbove : ∀ span ∈ gather extent (single extent row) rows, last.stop < span.start := by
        intro span member
        have := starts span member
        simp only [single] at this
        omega
      refine ⟨⟨?_, ?_, ?_, ?_⟩, ?_⟩
      · exact pairwise_cons.mpr ⟨startsAbove, merges.separated⟩
      · exact forall_mem_cons.mpr ⟨nonempty, merges.nonempty⟩
      · exact forall_mem_cons.mpr ⟨contains, merges.contains⟩
      · exact (merges.rows.append_left last.rows)
      · refine forall_mem_cons.mpr ⟨le_refl _, fun span member => ?_⟩
        have := startsAbove span member
        omega

theorem sorted_starts {rows : List α} (sorted : rows.Pairwise (Before extent)) :
    rows.Pairwise fun first second => (extent first).start ≤ (extent second).start := by
  refine sorted.imp fun {first second} before => ?_
  rcases before with earlier | ⟨same, -⟩
  · exact le_of_lt earlier
  · exact le_of_eq same

instance : Std.Total (Before extent) where
  total first second := by
    unfold Before
    omega

instance : IsTrans α (Before extent) where
  trans first second third before after := by
    unfold Before at *
    omega

theorem spans_merges (proper : ∀ row, (extent row).start < (extent row).stop) (rows) :
    Merges extent (spans extent rows) rows := by
  have sorted := sorted_starts (pairwise_insertionSort (Before extent) rows)
  have permuted := perm_insertionSort (Before extent) rows
  unfold spans
  cases isSorted : rows.insertionSort (Before extent) with
  | nil =>
    rw [isSorted] at permuted
    obtain rfl := permuted.symm.eq_nil
    exact ⟨.nil, nofun, nofun, .refl _⟩
  | cons row rest =>
    rw [isSorted] at sorted permuted
    obtain ⟨later, sorted⟩ := pairwise_cons.mp sorted
    obtain ⟨merges, -⟩ := gather_merges proper (single extent row) rest (proper row) (single_contains row) later sorted
    exact ⟨merges.separated, merges.nonempty, merges.contains, merges.rows.trans permuted⟩

end Merge

namespace Merges

variable {extent} {spans : List (Span α)} {rows : List α} (merges : Merges extent spans rows)

include merges

theorem covered (position) : (∃ span ∈ spans, span.Contains position) ↔ ∃ row ∈ rows, (extent row).Contains position := by
  constructor
  · rintro ⟨span, member, contains⟩
    obtain ⟨row, ofSpan, contains⟩ := (merges.contains span member position).mp contains
    exact ⟨row, merges.rows.mem_iff.mp (mem_flatMap.mpr ⟨span, member, ofSpan⟩), contains⟩
  · rintro ⟨row, member, contains⟩
    obtain ⟨span, isSpan, ofSpan⟩ := mem_flatMap.mp (merges.rows.mem_iff.mpr member)
    exact ⟨span, isSpan, (merges.contains span isSpan position).mpr ⟨row, ofSpan, contains⟩⟩

theorem row_mem {span} (member : span ∈ spans) (ofSpan : row ∈ span.rows) : row ∈ rows :=
  merges.rows.mem_iff.mp (mem_flatMap.mpr ⟨span, member, ofSpan⟩)

/-- Spans that come within a position of each other are one. -/
theorem eq_of_near {other span} (isOther : other ∈ spans) (member : span ∈ spans)
    (near : other.start ≤ span.stop ∧ span.start ≤ other.stop) : other = span := by
  let apart (first second : Span α) : Prop := first.stop < second.start ∨ second.stop < first.start
  have : Std.Symm apart := ⟨fun _ _ => Or.symm⟩
  have separated : spans.Pairwise apart := merges.separated.imp .inl
  by_contra differ
  have := separated.forall isOther member differ
  simp only [apart] at this
  omega

theorem unique (isFirst : first ∈ spans) (isSecond : second ∈ spans)
    (inFirst : first.Contains position) (inSecond : second.Contains position) : first = second := by
  rw [Piece.contains_iff] at inFirst inSecond
  exact merges.eq_of_near isFirst isSecond ⟨by omega, by omega⟩

/-- The positions next to a span are in no span. -/
theorem separate {span} (member : span ∈ spans) :
    (0 < span.start → ¬ ∃ other ∈ spans, other.Contains (span.start - 1)) ∧ ¬ ∃ other ∈ spans, other.Contains span.stop := by
  have proper := merges.nonempty span member
  refine ⟨fun positive => ?_, ?_⟩ <;> rintro ⟨other, isOther, inside⟩ <;> rw [Piece.contains_iff] at inside <;>
    obtain rfl := merges.eq_of_near isOther member ⟨by omega, by omega⟩ <;> omega

theorem eq_nil (none : spans = []) : rows = [] := by
  have permuted := merges.rows
  rw [none] at permuted
  exact permuted.symm.eq_nil

theorem overlapping_eq (start stop) :
    overlapping spans start stop = spans.filter fun span => start < span.stop ∧ span.start < stop := by
  obtain ⟨separated, nonempty, -, -⟩ := merges
  unfold overlapping
  induction spans with
  | nil => rfl
  | cons span rest ih =>
    obtain ⟨later, separated⟩ := pairwise_cons.mp separated
    obtain ⟨proper, nonempty⟩ := forall_mem_cons.mp nonempty
    have rest_eq := ih separated nonempty
    by_cases before : span.stop ≤ start
    · rw [dropWhile_cons_of_pos (by simpa using before), rest_eq, filter_cons_of_neg (by simp; omega)]
    · -- From here on every span ends inside or behind the window.
      have beyond : rest.dropWhile (fun span => span.stop ≤ start) = rest := by
        refine dropWhile_eq_self_iff.mpr fun nonnil => ?_
        have := later _ (getElem_mem nonnil)
        have := nonempty _ (getElem_mem nonnil)
        simp only [decide_eq_true_eq, not_le]
        omega
      rw [beyond] at rest_eq
      rw [dropWhile_cons_of_neg (by simpa using before)]
      by_cases begins : span.start < stop
      · rw [takeWhile_cons_of_pos (by simpa using begins), rest_eq, filter_cons_of_pos (by simp; omega)]
      · rw [takeWhile_cons_of_neg (by simpa using begins), filter_cons_of_neg (by simp; omega)]
        refine (filter_eq_nil_iff.mpr fun next member => ?_).symm
        have := later next member
        simp only [decide_eq_true_eq]
        omega

/-- From the beginning of the line on every span is in reach. -/
theorem overlapping_zero (stop) : overlapping spans 0 stop = spans.takeWhile fun span => span.start < stop := by
  have all : spans.dropWhile (fun span => span.stop ≤ 0) = spans := by
    refine dropWhile_eq_self_iff.mpr fun nonnil => ?_
    have := merges.nonempty _ (getElem_mem nonnil)
    simp only [decide_eq_true_eq]
    omega
  rw [overlapping, all]

end Merges

/-! ## What is left of a window -/

theorem Ascending.countP_le_one (ascending : Ascending pieces) (position) :
    pieces.countP (fun piece => piece.Contains position) ≤ 1 := by
  induction pieces with
  | nil => exact Nat.zero_le _
  | cons piece rest ih =>
    obtain ⟨later, ascending⟩ := pairwise_cons.mp ascending
    by_cases contains : piece.Contains position
    · have none : rest.countP (fun piece => piece.Contains position) = 0 := by
        refine countP_eq_zero.mpr fun next member => ?_
        have := later next member
        rw [Piece.contains_iff] at contains
        simp only [decide_eq_true_eq, Piece.contains_iff]
        omega
      rw [countP_cons_of_pos (by simpa using contains), none]
    · rw [countP_cons_of_neg (by simpa using contains)]
      exact ih ascending

variable {position : Nat}

/-- Where pieces ascend, a position that is in one of them is in exactly one. -/
theorem Ascending.countP_eq_one (ascending : Ascending pieces) (inside : ∃ piece ∈ pieces, piece.Contains position) :
    pieces.countP (fun piece => piece.Contains position) = 1 := by
  refine le_antisymm (ascending.countP_le_one position) (countP_pos_iff.mpr ?_)
  simpa using inside

variable {windows : List Piece}

/-- Pieces of windows that ascend, each within its window and made by one rule. -/
theorem Ascending.flatMap (ascending : Ascending windows) {Held : Nat → Prop} (inner : ∀ window, Ascending (pieces window))
    (within : ∀ window, ∀ piece ∈ pieces window, window.start ≤ piece.start ∧ piece.stop ≤ window.stop)
    (holds : ∀ window position, (∃ piece ∈ pieces window, piece.Contains position) ↔ window.Contains position ∧ Held position) :
    Ascending (windows.flatMap pieces) ∧ ∀ position, (∃ piece ∈ windows.flatMap pieces, piece.Contains position)
      ↔ (∃ window ∈ windows, window.Contains position) ∧ Held position := by
  refine ⟨?_, fun position => ⟨?_, ?_⟩⟩
  · induction windows with
    | nil => exact .nil
    | cons window rest ih =>
      obtain ⟨later, ascending⟩ := pairwise_cons.mp ascending
      rw [flatMap_cons]
      refine pairwise_append.mpr ⟨inner window, ih ascending, fun first inFirst second inRest => ?_⟩
      obtain ⟨next, isNext, inSecond⟩ := mem_flatMap.mp inRest
      have := (within window first inFirst).2
      have := (within next second inSecond).1
      have := later next isNext
      omega
  · rintro ⟨piece, member, contains⟩
    obtain ⟨window, isWindow, inWindow⟩ := mem_flatMap.mp member
    obtain ⟨inside, held⟩ := (holds window position).mp ⟨piece, inWindow, contains⟩
    exact ⟨⟨window, isWindow, inside⟩, held⟩
  · rintro ⟨⟨window, isWindow, inside⟩, held⟩
    obtain ⟨piece, member, contains⟩ := (holds window position).mpr ⟨inside, held⟩
    exact ⟨piece, mem_flatMap.mpr ⟨window, isWindow, member⟩, contains⟩

section Sweep

variable {spans : List (Span α)} {start stop : Nat}

/-- What the sweep leaves: ascending pieces of the window that hold exactly the positions no span covers. -/
theorem sweep_spec (separated : spans.Pairwise fun first second => first.stop < second.start)
    (nonempty : ∀ span ∈ spans, span.start < span.stop) (begins : ∀ span ∈ spans, span.start < stop) (cursor) :
    Ascending (sweep cursor stop spans)
      ∧ (∀ piece ∈ sweep cursor stop spans, cursor ≤ piece.start ∧ piece.start < piece.stop ∧ piece.stop ≤ stop)
      ∧ ∀ position, (∃ piece ∈ sweep cursor stop spans, piece.Contains position)
        ↔ (cursor ≤ position ∧ position < stop) ∧ ∀ span ∈ spans, ¬ span.Contains position := by
  induction spans generalizing cursor with
  | nil =>
    unfold sweep
    split
    · refine ⟨pairwise_singleton _ _, by simp; omega, fun position => ?_⟩
      simp [Piece.contains_iff]
    · refine ⟨.nil, nofun, fun position => ?_⟩
      simp
      omega
  | cons span rest ih =>
    obtain ⟨later, separated⟩ := pairwise_cons.mp separated
    obtain ⟨proper, nonempty⟩ := forall_mem_cons.mp nonempty
    obtain ⟨begin, begins⟩ := forall_mem_cons.mp begins
    obtain ⟨ascending, within, exact⟩ := ih separated nonempty begins (max cursor span.stop)
    -- The piece in front of the span, if there is one.
    have front (piece : Piece) : piece ∈ (if cursor < span.start then [(⟨cursor, span.start⟩ : Piece)] else [])
        ↔ piece = ⟨cursor, span.start⟩ ∧ cursor < span.start := by
      split <;> simp_all
    unfold sweep
    refine ⟨pairwise_append.mpr ⟨?_, ascending, fun first inFront second inRest => ?_⟩, fun piece member => ?_,
      fun position => ?_⟩
    · split
      · exact pairwise_singleton _ _
      · exact .nil
    · obtain ⟨rfl, -⟩ := (front first).mp inFront
      have := (within second inRest).1
      simp only
      omega
    · rcases mem_append.mp member with inFront | inRest
      · obtain ⟨rfl, room⟩ := (front piece).mp inFront
        exact ⟨le_refl _, room, le_of_lt begin⟩
      · have := within piece inRest
        omega
    · have above : position < span.start → ∀ next ∈ rest, ¬ next.Contains position := by
        intro below next member contains
        have := later next member
        rw [Piece.contains_iff] at contains
        omega
      simp only [mem_append, or_and_right, exists_or, exact, front, forall_mem_cons, and_assoc, exists_eq_left,
        @Piece.contains_iff span.toPiece, @Piece.contains_iff ⟨cursor, span.start⟩]
      constructor
      · rintro (⟨-, reached, below⟩ | ⟨reached, below, free⟩)
        · exact ⟨reached, by omega, by omega, above below⟩
        · exact ⟨by omega, below, by omega, free⟩
      · rintro ⟨reached, below, outside, free⟩
        by_cases inFront : position < span.start
        · exact .inl ⟨by omega, reached, inFront⟩
        · exact .inr ⟨by omega, below, free⟩

end Sweep

namespace Merges

variable {extent} {spans : List (Span α)} {rows : List α} (merges : Merges extent spans rows) (start stop : Nat)

include merges

theorem uncovered_spec : Ascending (uncovered start stop spans)
      ∧ (∀ piece ∈ uncovered start stop spans, start ≤ piece.start ∧ piece.start < piece.stop ∧ piece.stop ≤ stop)
      ∧ ∀ position, (∃ piece ∈ uncovered start stop spans, piece.Contains position)
        ↔ (start ≤ position ∧ position < stop) ∧ ∀ row ∈ rows, ¬ (extent row).Contains position := by
  have meets := merges.overlapping_eq start stop
  unfold uncovered
  have separated : (overlapping spans start stop).Pairwise fun first second => first.stop < second.start := by
    rw [meets]
    exact merges.separated.filter _
  have member : ∀ span ∈ overlapping spans start stop, span ∈ spans ∧ start < span.stop ∧ span.start < stop := by
    intro span member
    simpa [meets] using member
  obtain ⟨ascending, within, exact⟩ := sweep_spec separated (fun span isSpan => merges.nonempty span (member span isSpan).1)
    (fun span isSpan => (member span isSpan).2.2) start
  refine ⟨ascending, within, fun position => (exact position).trans (and_congr_right fun inside => ?_)⟩
  -- A span that is not looked at does not meet the window.
  have covered := not_congr (merges.covered position)
  simp only [not_exists, not_and] at covered
  rw [← covered, meets]
  simp only [mem_filter, decide_eq_true_eq, and_imp]
  refine ⟨fun free span isSpan contains => ?_, fun free span isSpan _ _ => free span isSpan⟩
  have bounds := Piece.contains_iff.mp contains
  exact free span isSpan (by omega) (by omega) contains

/-- The same for windows that ascend. -/
theorem uncovered_flatMap (ascending : Ascending windows) :
    Ascending (windows.flatMap fun window => uncovered window.start window.stop spans)
      ∧ ∀ position, (∃ piece ∈ windows.flatMap fun window => uncovered window.start window.stop spans, piece.Contains position)
        ↔ (∃ window ∈ windows, window.Contains position) ∧ ¬ ∃ row ∈ rows, (extent row).Contains position := by
  refine ascending.flatMap (fun window => (merges.uncovered_spec ..).1) (fun window piece member => ?_) fun window position => ?_
  · obtain ⟨lower, -, upper⟩ := (merges.uncovered_spec ..).2.1 piece member
    exact ⟨lower, upper⟩
  · simp only [not_exists, not_and]
    exact (merges.uncovered_spec window.start window.stop).2.2 position

/-- The spans that meet a window, cut to it, ascend. -/
theorem clipped_ascending :
    Ascending ((overlapping spans start stop).map fun span => ⟨max span.start start, min span.stop stop⟩) := by
  rw [merges.overlapping_eq, Ascending, pairwise_map]
  refine (merges.separated.filter _).imp fun {first second} apart => ?_
  simp only
  omega

/-- Cut to the window they cover what the rows cover of it. -/
theorem clipped_contains (position) :
    (∃ piece ∈ (overlapping spans start stop).map (fun span => (⟨max span.start start, min span.stop stop⟩ : Piece)),
        piece.Contains position)
      ↔ (start ≤ position ∧ position < stop) ∧ ∃ row ∈ rows, (extent row).Contains position := by
  rw [← merges.covered position, merges.overlapping_eq]
  simp only [mem_map, mem_filter, decide_eq_true_eq, Piece.contains_iff, exists_exists_and_eq_and]
  constructor
  · rintro ⟨span, ⟨isSpan, -, -⟩, lower, upper⟩
    exact ⟨by omega, span, isSpan, by omega⟩
  · rintro ⟨inside, span, isSpan, lower, upper⟩
    exact ⟨span, ⟨isSpan, by omega, by omega⟩, by omega⟩

/-- The same for windows that ascend. -/
theorem clipped_flatMap (ascending : Ascending windows) :
    Ascending (windows.flatMap fun window => (overlapping spans window.start window.stop).map fun span =>
        ⟨max span.start window.start, min span.stop window.stop⟩)
      ∧ ∀ position, (∃ piece ∈ windows.flatMap fun window => (overlapping spans window.start window.stop).map fun span =>
          (⟨max span.start window.start, min span.stop window.stop⟩ : Piece), piece.Contains position)
        ↔ (∃ window ∈ windows, window.Contains position) ∧ ∃ row ∈ rows, (extent row).Contains position := by
  refine ascending.flatMap (fun window => merges.clipped_ascending ..) (fun window piece member => ?_)
    fun window position => merges.clipped_contains window.start window.stop position
  obtain ⟨span, -, rfl⟩ := mem_map.mp member
  exact ⟨le_max_right _ _, min_le_right _ _⟩

end Merges

/-! ## The gaps between spans -/

def gaps : List (Span α) → List Piece
  | first :: second :: rest => ⟨first.stop, second.start⟩ :: gaps (second :: rest)
  | _ => []

/-- A gap has a span at either end. -/
theorem mem_gaps {spans : List (Span α)} {gap : Piece}
    (separated : spans.Pairwise fun first second => first.stop < second.start) (member : gap ∈ gaps spans) :
    ∃ lower ∈ spans, ∃ upper ∈ spans, lower.stop < upper.start ∧ gap = ⟨lower.stop, upper.start⟩ := by
  fun_induction gaps spans with
  | case1 first second rest ih =>
    obtain ⟨before, separated⟩ := pairwise_cons.mp separated
    rcases mem_cons.mp member with rfl | later
    · exact ⟨first, by simp, second, by simp, before second (by simp), rfl⟩
    · obtain ⟨lower, isLower, upper, isUpper, bounds⟩ := ih separated later
      exact ⟨lower, mem_cons_of_mem _ isLower, upper, mem_cons_of_mem _ isUpper, bounds⟩
  | case2 => cases member

/-- The gaps are what a sweep from the end of the first span to the end of the last leaves. -/
theorem gaps_eq_sweep {first last : Span α}
    (separated : (first :: rest).Pairwise fun first second => first.stop < second.start)
    (nonempty : ∀ span ∈ first :: rest, span.start < span.stop) (isLast : (first :: rest).getLast? = some last) :
    gaps (first :: rest) = sweep first.stop last.stop rest ∧ ∀ span ∈ rest, span.start < last.stop := by
  induction rest generalizing first with
  | nil =>
    obtain rfl : first = last := by simpa using isLast
    simp [gaps, sweep]
  | cons second rest ih =>
    obtain ⟨later, separated⟩ := pairwise_cons.mp separated
    obtain ⟨-, nonempty⟩ := forall_mem_cons.mp nonempty
    obtain ⟨isSweep, begins⟩ := ih separated nonempty (by simpa using isLast)
    have apart := later second mem_cons_self
    have proper := nonempty second mem_cons_self
    refine ⟨?_, forall_mem_cons.mpr ⟨?_, begins⟩⟩
    · rw [gaps, sweep, isSweep, if_pos apart, max_eq_right (by omega)]
      rfl
    · have isMember : last ∈ second :: rest := mem_of_getLast? (by simpa using isLast)
      rcases mem_cons.mp isMember with rfl | isRest
      · exact proper
      · have := (pairwise_cons.mp separated).1 last isRest
        have := nonempty last isMember
        omega

/-- The gaps ascend from the first span's end on; and between the first span and the end of the last a position is in a
span or in a gap, and not in both. -/
theorem gaps_spec {first last : Span α} (separated : (first :: rest).Pairwise fun first second => first.stop < second.start)
    (nonempty : ∀ span ∈ first :: rest, span.start < span.stop) (isLast : (first :: rest).getLast? = some last) :
    Ascending (gaps (first :: rest)) ∧ (∀ gap ∈ gaps (first :: rest), first.stop ≤ gap.start)
      ∧ ∀ position, (∃ gap ∈ gaps (first :: rest), gap.Contains position)
        ↔ (first.start ≤ position ∧ position < last.stop) ∧ ∀ span ∈ first :: rest, ¬ span.Contains position := by
  obtain ⟨isSweep, begins⟩ := gaps_eq_sweep separated nonempty isLast
  obtain ⟨later, apart⟩ := pairwise_cons.mp separated
  obtain ⟨proper, nonempty⟩ := forall_mem_cons.mp nonempty
  obtain ⟨ascending, within, contains⟩ := sweep_spec apart nonempty begins first.stop
  rw [isSweep]
  refine ⟨ascending, fun gap member => (within gap member).1, fun position => (contains position).trans ?_⟩
  rw [forall_mem_cons, Piece.contains_iff]
  constructor
  · rintro ⟨inside, free⟩
    exact ⟨by omega, by omega, free⟩
  · rintro ⟨inside, outside, free⟩
    exact ⟨by omega, free⟩

namespace Merges

variable {extent} {first last : Span α} {rest spans : List (Span α)} {rows : List α}

section

variable (proper : ∀ row, (extent row).start < (extent row).stop)

include proper

/-- The first span begins where the first row does. -/
theorem starts_iff (merges : Merges extent (first :: rest) rows) :
    (∃ row ∈ rows, (extent row).start ≤ position) ↔ first.start ≤ position := by
  constructor
  · rintro ⟨row, member, begun⟩
    have properRow := proper row
    obtain ⟨span, isSpan, contains⟩ := (merges.covered (extent row).start).mpr ⟨row, member, le_refl _, properRow⟩
    have lower := (Piece.contains_iff.mp contains).1
    rcases mem_cons.mp isSpan with rfl | later
    · omega
    · have := (pairwise_cons.mp merges.separated).1 span later
      have := merges.nonempty first mem_cons_self
      omega
  · intro begun
    have nonempty := merges.nonempty first mem_cons_self
    obtain ⟨row, member, contains⟩ := (merges.covered first.start).mp ⟨first, mem_cons_self, le_refl _, nonempty⟩
    exact ⟨row, member, by have := (Piece.contains_iff.mp contains).1; omega⟩

/-- The last span ends where the last row does. -/
theorem stops_iff (merges : Merges extent spans rows) (isLast : spans.getLast? = some last) :
    (∃ row ∈ rows, position < (extent row).stop) ↔ position < last.stop := by
  obtain ⟨before, rfl⟩ := getLast?_eq_some_iff.mp isLast
  have isMember : last ∈ before ++ [last] := by simp
  have nonempty := merges.nonempty last isMember
  constructor
  · rintro ⟨row, member, below⟩
    have properRow := proper row
    obtain ⟨span, isSpan, contains⟩ := (merges.covered ((extent row).stop - 1)).mpr ⟨row, member, by omega, by omega⟩
    have upper := (Piece.contains_iff.mp contains).2
    rcases mem_append.mp isSpan with earlier | same
    · have := (pairwise_append.mp merges.separated).2.2 span earlier last mem_cons_self
      omega
    · rw [mem_singleton.mp same] at upper
      omega
  · intro below
    obtain ⟨row, member, contains⟩ := (merges.covered (last.stop - 1)).mp ⟨last, isMember, by omega, by omega⟩
    exact ⟨row, member, by have := (Piece.contains_iff.mp contains).2; omega⟩

end

end Merges

end

/-! ## Counting positions -/

section Count

open Finset

/-- Each row counts every position it contains. -/
theorem sum_lengths {rows : List α} {extent : α → Piece} {bound : Nat} (within : ∀ row ∈ rows, (extent row).stop ≤ bound) :
    (rows.map fun row => (extent row).stop - (extent row).start).sum
      = ∑ position ∈ range bound, rows.countP fun row => (extent row).Contains position := by
  induction rows with
  | nil => simp
  | cons row rows ih =>
    obtain ⟨bounded, within⟩ := List.forall_mem_cons.mp within
    have own : (extent row).stop - (extent row).start
        = ∑ position ∈ range bound, if (extent row).Contains position then 1 else 0 := by
      rw [← card_filter, ← Nat.card_Ico]
      congr 1
      ext position
      simp only [mem_Ico, mem_filter, mem_range, Piece.contains_iff]
      omega
    rw [List.map_cons, List.sum_cons, ih within, own, ← sum_add_distrib]
    refine sum_congr rfl fun position _ => ?_
    rw [List.countP_cons, add_comm]
    simp

/-- What the rows cover more than once is what their lengths exceed the lengths of the spans by. -/
theorem Merges.duplicated {extent} {spans : List (Span α)} {rows : List α} (merges : Merges extent spans rows)
    {bound} (within : ∀ row ∈ rows, (extent row).stop ≤ bound) :
    (rows.map fun row => (extent row).stop - (extent row).start).sum - (spans.map fun span => span.stop - span.start).sum
      = ∑ position ∈ (range bound).filter (fun position => ∃ row ∈ rows, (extent row).Contains position),
          ((rows.countP fun row => (extent row).Contains position) - 1) := by
  have spanned : ∀ span ∈ spans, span.toPiece.stop ≤ bound := by
    intro span member
    have proper := merges.nonempty span member
    obtain ⟨row, ofSpan, contains⟩ := (merges.contains span member (span.stop - 1)).mp ⟨by omega, by omega⟩
    have := within row (merges.row_mem member ofSpan)
    rw [Piece.contains_iff] at contains
    omega
  -- A position is in at most one span, and in one exactly if a row covers it.
  have once (position : Nat) : spans.countP (fun span => span.Contains position)
      = if ∃ row ∈ rows, (extent row).Contains position then 1 else 0 := by
    have ascending : Ascending (spans.map Span.toPiece) := List.pairwise_map.mpr (merges.separated.imp le_of_lt)
    have mapped : (spans.map Span.toPiece).countP (fun piece => piece.Contains position)
        = spans.countP fun span => span.Contains position := List.countP_map ..
    rw [← mapped]
    split
    case isTrue covered =>
      refine ascending.countP_eq_one ?_
      simpa using (merges.covered position).mpr covered
    case isFalse free =>
      refine List.countP_eq_zero.mpr fun piece member => ?_
      obtain ⟨span, isSpan, rfl⟩ := List.mem_map.mp member
      simpa using fun contains => free ((merges.covered position).mp ⟨span, isSpan, contains⟩)
  have counted : (spans.map fun span => span.stop - span.start).sum
      = ∑ position ∈ range bound, if ∃ row ∈ rows, (extent row).Contains position then 1 else 0 :=
    (sum_lengths spanned).trans (sum_congr rfl fun position _ => once position)
  have least (position : Nat) : (if ∃ row ∈ rows, (extent row).Contains position then 1 else 0)
      ≤ rows.countP fun row => (extent row).Contains position := by
    split
    case isTrue covered => exact List.countP_pos_iff.mpr (by simpa using covered)
    case isFalse => exact Nat.zero_le _
  rw [sum_lengths within, counted, ← sum_tsub_distrib _ fun position _ => least position, sum_filter]
  refine sum_congr rfl fun position _ => ?_
  by_cases covered : ∃ row ∈ rows, (extent row).Contains position
  · rw [if_pos covered, if_pos covered]
  · rw [if_neg covered, if_neg covered, Nat.sub_zero]
    exact List.countP_eq_zero.mpr (by simpa using covered)

end Count

end VtopEngine.Lib.Spans
