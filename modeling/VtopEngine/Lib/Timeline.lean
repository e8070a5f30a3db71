import Mathlib.Data.List.Pairwise
import Mathlib.Data.List.Sort

/-! # Timelines

A timeline is a list of marks, each with the position it starts at.  A position is
owned by the last mark that starts at or below it, so the marks divide the positions
among them.

* `owner` — who owns a position.
* `collapse` — marks that own nothing, because the next mark starts where they do,
  are left out; owners stay the same (`owner_collapse`).
* `firstDifference` — where two timelines part: the owners agree below the smaller
  start of the two marks there, and not at it (`owner_eq_below`, `owner_ne_at`).
* `clamp` — the timeline of a window only; clamps are equal exactly if the owners
  inside the window are (`clamp_eq_iff`).
-/

namespace VtopEngine.Lib.Timeline

open List Option

variable {α : Type} (start : α → Nat)

def owner (marks : List α) (position : Nat) : Option α := marks.reverse.find? fun mark => start mark ≤ position

/-- Of marks that start at one position only the last is kept. -/
def collapse : List α → List α
  | [] => []
  | [mark] => [mark]
  | mark :: next :: rest =>
    if start mark = start next then collapse (next :: rest) else mark :: collapse (next :: rest)

/-- The first pair of marks in which two timelines differ. -/
def firstDifference [DecidableEq α] : List α → List α → Option (α × α)
  | mine :: restMine, theirs :: restTheirs =>
    if mine = theirs then firstDifference restMine restTheirs else some (mine, theirs)
  | _, _ => none

/-- Starts never go down. -/
def Ascending (marks : List α) : Prop := marks.Pairwise fun first second => start first ≤ start second

def StrictlyAscending (marks : List α) : Prop := marks.Pairwise fun first second => start first < start second

/-- Strictly ascending marks of which no two share a label. -/
structure Distinct {κ : Type} (label : α → κ) (marks : List α) : Prop where
  ascending : StrictlyAscending start marks
  labels : marks.Pairwise fun x y => label x ≠ label y

section Owner

variable {start} {marks before : List α} {mark : α} {position : Nat}

@[simp] theorem owner_nil : owner start [] position = none := rfl

theorem owner_append (before marks) :
    owner start (before ++ marks) position = (owner start marks position).or (owner start before position) := by
  simp [owner]

theorem owner_cons (mark marks) : owner start (mark :: marks) position
      = (owner start marks position).or (if start mark ≤ position then some mark else none) := by
  rw [← singleton_append, owner_append]
  by_cases starts : start mark ≤ position <;> simp [owner, starts]

theorem owner_eq_none : owner start marks position = none ↔ ∀ mark ∈ marks, position < start mark := by simp [owner]

theorem owner_eq_some (found : owner start marks position = some mark) : mark ∈ marks ∧ start mark ≤ position := by
  refine ⟨mem_reverse.mp (mem_of_find?_eq_some found), ?_⟩
  simpa using find?_some found

/-- Marks that start above a position do not matter to it. -/
theorem owner_append_above (above : ∀ mark ∈ marks, position < start mark) :
    owner start (before ++ marks) position = owner start before position := by
  rw [owner_append, owner_eq_none.mpr above, none_or]

/-- At its own start the last mark of that start owns. -/
theorem owner_at_start (ascending : StrictlyAscending start (mark :: marks)) :
    owner start (before ++ mark :: marks) (start mark) = some mark := by
  have above : owner start marks (start mark) = none := owner_eq_none.mpr (pairwise_cons.mp ascending).1
  rw [owner_append, owner_cons, above]
  simp

theorem owner_at_mem (ascending : StrictlyAscending start marks) (member : mark ∈ marks) :
    owner start marks (start mark) = some mark := by
  obtain ⟨before, after, rfl⟩ := append_of_mem member
  exact owner_at_start (pairwise_append.mp ascending).2.1

/-- A position below a cut keeps its owner when the marks at or above the cut are dropped. -/
theorem owner_takeWhile (ascending : Ascending start marks) (below : position < cut) :
    owner start (marks.takeWhile fun mark => start mark < cut) position = owner start marks position := by
  induction marks with
  | nil => rfl
  | cons mark rest ih =>
    obtain ⟨later, restAscending⟩ := pairwise_cons.mp ascending
    by_cases starts : start mark < cut
    · rw [takeWhile_cons_of_pos (by simpa using starts), owner_cons, owner_cons, ih restAscending]
    · have above : ∀ next ∈ mark :: rest, position < start next :=
        forall_mem_cons.mpr ⟨by omega, fun next member => by have := later next member; omega⟩
      rw [takeWhile_cons_of_neg (by simpa using starts), owner_nil, owner_eq_none.mpr above]

end Owner

section Collapse

variable {start} {marks : List α} {position : Nat}

theorem owner_collapse (marks position) : owner start (collapse start marks) position = owner start marks position := by
  fun_induction collapse start marks with
  | case1 | case2 => rfl
  | case3 mark next rest same ih =>
    -- The dropped mark is hidden by the next one, which starts where it does.
    rw [ih, owner_cons mark, owner_cons next, same]
    cases owner start rest position <;> split <;> simp
  | case4 mark next rest differs ih => rw [owner_cons, ih, ← owner_cons]

theorem collapse_sublist (marks) : (collapse start marks).Sublist marks := by
  fun_induction collapse start marks with
  | case1 => exact .slnil
  | case2 => exact .refl _
  | case3 mark next rest same ih => exact ih.cons _
  | case4 mark next rest differs ih => exact ih.cons_cons _

theorem collapse_strictlyAscending (ascending : Ascending start marks) : StrictlyAscending start (collapse start marks) := by
  fun_induction collapse start marks with
  | case1 => exact .nil
  | case2 => exact pairwise_singleton _ _
  | case3 mark next rest same ih => exact ih (pairwise_cons.mp ascending).2
  | case4 mark next rest differs ih =>
    obtain ⟨below, rest_ascending⟩ := pairwise_cons.mp ascending
    refine pairwise_cons.mpr ⟨fun later member => ?_, ih rest_ascending⟩
    have nextBelow : start mark < start next := lt_of_le_of_ne (below next mem_cons_self) differs
    rcases mem_cons.mp ((collapse_sublist _).mem member) with rfl | inRest
    · exact nextBelow
    · exact lt_of_lt_of_le nextBelow ((pairwise_cons.mp rest_ascending).1 later inRest)

theorem getLast?_collapse (marks) : (collapse start marks).getLast? = marks.getLast? := by
  fun_induction collapse start marks with
  | case1 | case2 => rfl
  | case3 mark next rest same ih => rw [ih, getLast?_cons_cons]
  | case4 mark next rest differs ih =>
    rw [getLast?_cons, ih, getLast?_cons_cons, getLast?_cons]
    simp

end Collapse

section Difference

variable {start} [DecidableEq α] {mine theirs : List α} {first second : α}

theorem firstDifference_eq_some (parts : firstDifference mine theirs = some (first, second)) :
    ∃ shared restMine restTheirs, mine = shared ++ first :: restMine ∧ theirs = shared ++ second :: restTheirs
      ∧ first ≠ second := by
  fun_induction firstDifference mine theirs with
  | case1 restMine mark restTheirs ih =>
    obtain ⟨shared, mine', theirs', rfl, rfl, differ⟩ := ih parts
    exact ⟨mark :: shared, mine', theirs', rfl, rfl, differ⟩
  | case2 mark restMine other restTheirs differs =>
    cases parts
    exact ⟨[], restMine, restTheirs, rfl, rfl, differs⟩
  | case3 => cases parts

theorem firstDifference_eq_none (agree : firstDifference mine theirs = none) : mine <+: theirs ∨ theirs <+: mine := by
  fun_induction firstDifference mine theirs with
  | case1 mark restMine restTheirs ih => exact (ih agree).imp (cons_prefix_cons.mpr ⟨rfl, ·⟩) (cons_prefix_cons.mpr ⟨rfl, ·⟩)
  | case2 => cases agree
  | case3 mine theirs noPair =>
    cases mine with
    | nil => exact .inl nil_prefix
    | cons mark restMine =>
      cases theirs with
      | nil => exact .inr nil_prefix
      | cons other restTheirs => exact absurd rfl (noPair mark restMine other restTheirs rfl)

theorem firstDifference_comm : firstDifference theirs mine = (firstDifference mine theirs).map Prod.swap := by
  fun_induction firstDifference mine theirs with
  | case1 mark restMine restTheirs ih => rw [firstDifference, if_pos rfl, ih]
  | case2 mine restMine theirs restTheirs differ => rw [firstDifference, if_neg (Ne.symm differ)]; rfl
  | case3 mine theirs noPair => unfold firstDifference; grind

/-- Below the place where they part the two timelines have the same owners. -/
theorem owner_eq_below (ascendingMine : Ascending start mine) (ascendingTheirs : Ascending start theirs)
    (parts : firstDifference mine theirs = some (first, second))
    (below : position < min (start first) (start second)) :
    owner start mine position = owner start theirs position := by
  obtain ⟨shared, restMine, restTheirs, rfl, rfl, -⟩ := firstDifference_eq_some parts
  have above {mark : α} {rest : List α} (ascending : Ascending start (shared ++ mark :: rest))
      (before : position < start mark) : ∀ later ∈ mark :: rest, position < start later := by
    obtain ⟨later, -⟩ := pairwise_cons.mp (pairwise_append.mp ascending).2.1
    exact forall_mem_cons.mpr ⟨before, fun next member => lt_of_lt_of_le before (later next member)⟩
  rw [owner_append_above (above ascendingMine (by omega)), owner_append_above (above ascendingTheirs (by omega))]

/-- Where they part, the owners are told apart by any labels that no two marks of one timeline share. -/
theorem owner_ne_at {κ : Type} {label : α → κ} (distinctMine : Distinct start label mine)
    (distinctTheirs : Distinct start label theirs) (told : ∀ x y : α, start x = start y → label x = label y → x = y)
    (parts : firstDifference mine theirs = some (first, second)) :
    (owner start mine (min (start first) (start second))).map label
      ≠ (owner start theirs (min (start first) (start second))).map label := by
  obtain ⟨shared, restMine, restTheirs, rfl, rfl, differ⟩ := firstDifference_eq_some parts
  have ownAt {mark : α} {rest : List α} (ascending : StrictlyAscending start (shared ++ mark :: rest)) :
      owner start (shared ++ mark :: rest) (start mark) = some mark :=
    owner_at_mem ascending (by simp)
  -- The timeline whose mark starts later is still in the shared part, where no label is the other mark's.
  have shares {mark other : α} {rest rest' : List α} (ascending : StrictlyAscending start (shared ++ other :: rest'))
      (labels : (shared ++ mark :: rest).Pairwise fun x y => label x ≠ label y) (earlier : start mark < start other) :
      (owner start (shared ++ other :: rest') (start mark)).map label ≠ some (label mark) := by
    have above : ∀ later ∈ other :: rest', start mark < start later := by
      obtain ⟨later, -⟩ := pairwise_cons.mp (pairwise_append.mp ascending).2.1
      exact forall_mem_cons.mpr ⟨earlier, fun next member => lt_trans earlier (later next member)⟩
    rw [owner_append_above above]
    intro same
    obtain ⟨mark', owns, sameLabel⟩ := map_eq_some_iff.mp same
    have inShared := (owner_eq_some owns).1
    exact (pairwise_append.mp labels).2.2 mark' inShared mark mem_cons_self sameLabel
  rcases lt_trichotomy (start first) (start second) with earlier | same | later
  · rw [min_eq_left (le_of_lt earlier), ownAt distinctMine.ascending]
    exact fun same => shares distinctTheirs.ascending distinctMine.labels earlier same.symm
  · rw [min_eq_left (le_of_eq same), ownAt distinctMine.ascending, same, ownAt distinctTheirs.ascending]
    exact fun sameLabel => differ (told _ _ same (some.inj sameLabel))
  · rw [min_eq_right (le_of_lt later), ownAt distinctTheirs.ascending]
    exact shares distinctMine.ascending distinctTheirs.labels later

end Difference

section Equality

variable {start} {κ : Type} {label : α → κ} {marks marks' : List α}

/-- A mark of one of two timelines that agree at their starts stands in the other too. -/
theorem mem_of_owner_eq (distinct : Distinct start label marks) (distinct' : Distinct start label marks')
    (told : ∀ x y : α, start x = start y → label x = label y → x = y) (agree : ∀ mark, mark ∈ marks ∨ mark ∈ marks' →
      (owner start marks (start mark)).map label = (owner start marks' (start mark)).map label) (member :
      mark ∈ marks) : mark ∈ marks' := by
  have atMark := agree mark (.inl member)
  rw [owner_at_mem distinct.ascending member, eq_comm, map_some] at atMark
  obtain ⟨other, owns, sameLabel⟩ := map_eq_some_iff.mp atMark
  obtain ⟨member', before⟩ := owner_eq_some owns
  have atOther := agree other (.inr member')
  rw [owner_at_mem distinct'.ascending member', map_some] at atOther
  obtain ⟨mine, owns', sameLabel'⟩ := map_eq_some_iff.mp atOther
  obtain ⟨inMine, before'⟩ := owner_eq_some owns'
  have : Std.Symm fun x y => label x ≠ label y := ⟨fun _ _ => Ne.symm⟩
  obtain rfl : mine = mark := by
    by_contra differ
    exact distinct.labels.forall inMine member differ (sameLabel'.trans sameLabel)
  rwa [told mine other (by omega) sameLabel.symm]

theorem eq_of_owner_eq (distinct : Distinct start label marks) (distinct' : Distinct start label marks')
    (told : ∀ x y : α, start x = start y → label x = label y → x = y)
    (agree : ∀ mark, mark ∈ marks ∨ mark ∈ marks' →
      (owner start marks (start mark)).map label = (owner start marks' (start mark)).map label) : marks = marks' := by
  have : Std.Irrefl fun x y : α => start x < start y := ⟨fun _ => lt_irrefl _⟩
  have : Std.Antisymm fun x y : α => start x < start y := ⟨fun _ _ below above => absurd below (lt_asymm above)⟩
  exact Subset.antisymm_of_pairwise distinct.ascending distinct'.ascending
    (fun _ => mem_of_owner_eq distinct distinct' told agree)
    fun _ => mem_of_owner_eq distinct' distinct told fun mark either => (agree mark either.symm).symm

end Equality

/-! ## Windows -/

section Window

variable (move : α → Nat → α)

/-- The timeline of the positions from `base` up to `tail`: the owner of `base`, moved to start there, and the
marks that start inside.  Empty if nobody owns `base` or there is no position in the window. -/
def clamp (marks : List α) (base tail : Nat) : List α :=
  if tail ≤ base then []
  else
    match owner start marks base with
    | none => []
    | some mark => move mark base :: collapse start (marks.filter fun mark => base < start mark ∧ start mark < tail)

variable {start} {move} {marks : List α} {base tail position : Nat}

theorem owner_in_window (ascending : Ascending start marks) (inside : base ≤ position) (within : position < tail) :
    owner start marks position = (owner start (marks.filter fun mark => base < start mark ∧ start mark < tail) position).or
          (owner start marks base) := by
  induction marks with
  | nil => rfl
  | cons mark rest ih =>
    obtain ⟨below, restAscending⟩ := pairwise_cons.mp ascending
    rw [owner_cons mark rest, owner_cons mark rest, ih restAscending]
    by_cases starts : start mark ≤ base
    · have reaches : start mark ≤ position := le_trans starts inside
      rw [filter_cons_of_neg (by simp [not_lt.mpr starts]), if_pos starts, if_pos reaches, Option.or_assoc]
    · -- The mark and all after it start above the base, so nobody owns the base yet.
      have unowned : owner start rest base = none :=
        owner_eq_none.mpr fun later member => lt_of_lt_of_le (not_le.mp starts) (below later member)
      rw [unowned, if_neg starts, or_none, or_none, or_none]
      by_cases ends : start mark < tail
      · rw [filter_cons_of_pos (by simp [ends, not_le.mp starts]), owner_cons]
      · rw [filter_cons_of_neg (by simp [ends]), if_neg (by omega), or_none]

theorem clamp_eq_nil (window : base < tail) : clamp start move marks base tail = [] ↔ owner start marks base = none := by
  unfold clamp
  rw [if_neg (not_le.mpr window)]
  cases owner start marks base <;> simp

variable {κ : Type} {label : α → κ} {marks' : List α} (moved : ∀ mark position, start (move mark position) = position)
  (labelled : ∀ mark position, label (move mark position) = label mark)

include moved labelled

theorem owner_clamp (ascending : Ascending start marks) (vouched : clamp start move marks base tail ≠ [])
    (inside : base ≤ position) (within : position < tail) :
    (owner start (clamp start move marks base tail) position).map label = (owner start marks position).map label := by
  have window : ¬ tail ≤ base := by omega
  cases owned : owner start marks base with
  | none => simp [clamp, window, owned] at vouched
  | some mark =>
    rw [owner_in_window ascending inside within, owned, clamp, if_neg window, owned]
    simp only [owner_cons, owner_collapse, moved, if_pos inside]
    cases owner start (marks.filter fun mark => base < start mark ∧ start mark < tail) position <;> simp [labelled]

theorem clamp_distinct (ascending : Ascending start marks) (labels : marks.Pairwise fun x y => label x ≠ label y)
    (vouched : clamp start move marks base tail ≠ []) :
    Distinct start label (clamp start move marks base tail) ∧
      ∀ mark ∈ clamp start move marks base tail, base ≤ start mark ∧ start mark < tail := by
  have window : ¬ tail ≤ base := fun empty => vouched (if_pos empty)
  have : Std.Symm fun x y => label x ≠ label y := ⟨fun _ _ => Ne.symm⟩
  cases owned : owner start marks base with
  | none => simp [clamp, window, owned] at vouched
  | some mark =>
    have inside {later : α} (among : later ∈ collapse start
        (marks.filter fun mark => base < start mark ∧ start mark < tail)) :
        later ∈ marks ∧ base < start later ∧ start later < tail := by
      simpa using (collapse_sublist _).mem among
    obtain ⟨member, before⟩ := owner_eq_some owned
    rw [clamp, if_neg window, owned]
    refine ⟨⟨?_, ?_⟩, ?_⟩
    · rw [StrictlyAscending, pairwise_cons, moved]
      exact ⟨fun later among => (inside among).2.1, collapse_strictlyAscending (ascending.filter _)⟩
    · rw [pairwise_cons, labelled]
      refine ⟨fun later among => labels.forall member (inside among).1 ?_,
        labels.sublist ((collapse_sublist _).trans filter_sublist)⟩
      rintro rfl
      have := inside among
      omega
    · rw [forall_mem_cons, moved]
      exact ⟨by omega, fun later among => by have := inside among; omega⟩

/-- Timelines of a window are equal exactly if they attribute every position in it alike. -/
theorem clamp_eq_iff (told : ∀ x y : α, start x = start y → label x = label y → x = y)
    (ascending : Ascending start marks) (ascending' : Ascending start marks')
    (labels : marks.Pairwise fun x y => label x ≠ label y) (labels' : marks'.Pairwise fun x y => label x ≠ label y)
    (vouched : clamp start move marks base tail ≠ []) (vouched' : clamp start move marks' base tail ≠ []) :
    clamp start move marks base tail = clamp start move marks' base tail ↔ ∀ position, base ≤ position → position < tail →
        (owner start marks position).map label = (owner start marks' position).map label := by
  constructor
  · intro same position above below
    rw [← owner_clamp moved labelled ascending vouched above below,
      ← owner_clamp moved labelled ascending' vouched' above below, same]
  · intro same
    obtain ⟨distinct, within⟩ := clamp_distinct moved labelled ascending labels vouched
    obtain ⟨distinct', within'⟩ := clamp_distinct moved labelled ascending' labels' vouched'
    refine eq_of_owner_eq distinct distinct' told fun mark either => ?_
    obtain ⟨above, below⟩ := either.elim (within mark) (within' mark)
    rw [owner_clamp moved labelled ascending vouched above below, owner_clamp moved labelled ascending' vouched' above below]
    exact same _ above below

end Window

end VtopEngine.Lib.Timeline
