import Mathlib.Data.Set.Basic

/-! # Partitions into live cells

A family of cells, some of them live, partitions a type when every point lies in
exactly one live cell.  Retiring a live cell for two new ones that halve it keeps
this; so a space that starts as one cell and is only ever split stays partitioned.
-/

namespace VtopEngine.Lib

variable {ι α : Type} {before after : ι → Option (Set α)}

/-- Every point is in exactly one live cell. -/
def Partitions (cells : ι → Option (Set α)) : Prop := ∀ point, ∃! index, ∃ cell ∈ cells index, point ∈ cell

theorem Partitions.single {cells : ι → Option (Set α)} (index : ι) (whole : cells index = some Set.univ)
    (others : ∀ other, other ≠ index → cells other = none) : Partitions cells := by
  intro point
  refine ⟨index, ⟨Set.univ, whole, Set.mem_univ point⟩, ?_⟩
  rintro other ⟨cell, live, -⟩
  by_contra different
  rw [others other different] at live
  cases live

/-- `parent` is retired, and `left` and `right` become live with a half each. -/
structure SplitCells (before after : ι → Option (Set α)) (parent left right : ι) (whole leftHalf rightHalf : Set α) :
    Prop where
  parentLive : before parent = some whole
  leftFresh : before left = none
  rightFresh : before right = none
  covers : ∀ point, point ∈ whole ↔ point ∈ leftHalf ∨ point ∈ rightHalf
  apart : ∀ point, point ∈ leftHalf → point ∉ rightHalf
  parentRetired : after parent = none
  leftLive : after left = some leftHalf
  rightLive : after right = some rightHalf
  others : ∀ index, index ≠ parent → index ≠ left → index ≠ right → after index = before index

variable {parent left right : ι} {whole leftHalf rightHalf : Set α}

/-- The points of a live cell after a split: its own, or those of the half it became. -/
theorem SplitCells.mem_after (split : SplitCells before after parent left right whole leftHalf rightHalf)
    (inside : ∃ cell ∈ after index, point ∈ cell) :
    index = left ∧ point ∈ leftHalf ∨ index = right ∧ point ∈ rightHalf
      ∨ index ≠ parent ∧ ∃ cell ∈ before index, point ∈ cell := by
  obtain ⟨cell, live, member⟩ := inside
  by_cases isParent : index = parent
  · rw [isParent, split.parentRetired] at live
    cases live
  by_cases isLeft : index = left
  · rw [isLeft, split.leftLive] at live
    cases live
    exact .inl ⟨isLeft, member⟩
  by_cases isRight : index = right
  · rw [isRight, split.rightLive] at live
    cases live
    exact .inr (.inl ⟨isRight, member⟩)
  · rw [split.others index isParent isLeft isRight] at live
    exact .inr (.inr ⟨isParent, cell, live, member⟩)

theorem Partitions.split (partition : Partitions before)
    (split : SplitCells before after parent left right whole leftHalf rightHalf) : Partitions after := by
  intro point
  obtain ⟨owner, ⟨cell, live, member⟩, unique⟩ := partition point
  by_cases isParent : owner = parent
  · -- the point was in the cell that is split: it is in exactly one half now
    have whole_eq : cell = whole := by
      rw [isParent, split.parentLive] at live
      exact (Option.some.inj live).symm
    subst whole_eq
    have elsewhere : ∀ index, index ≠ parent → ¬ ∃ cell ∈ before index, point ∈ cell := fun index different inside =>
      different ((unique index inside).trans isParent)
    obtain inLeft | inRight := (split.covers point).mp member
    · refine ⟨left, ⟨leftHalf, split.leftLive, inLeft⟩, fun index inside => ?_⟩
      obtain ⟨same, -⟩ | ⟨-, inRight⟩ | ⟨different, old⟩ := split.mem_after inside
      · exact same
      · exact absurd inRight (split.apart point inLeft)
      · exact absurd old (elsewhere index different)
    · refine ⟨right, ⟨rightHalf, split.rightLive, inRight⟩, fun index inside => ?_⟩
      obtain ⟨-, inLeft⟩ | ⟨same, -⟩ | ⟨different, old⟩ := split.mem_after inside
      · exact absurd inRight (split.apart point inLeft)
      · exact same
      · exact absurd old (elsewhere index different)
  · -- the point was elsewhere, and stays there
    have notLeft : owner ≠ left := by
      rintro rfl
      rw [split.leftFresh] at live
      cases live
    have notRight : owner ≠ right := by
      rintro rfl
      rw [split.rightFresh] at live
      cases live
    have outside : point ∉ whole := fun inside => isParent (unique parent ⟨whole, split.parentLive, inside⟩).symm
    refine ⟨owner, ⟨cell, (split.others owner isParent notLeft notRight).trans live, member⟩, fun index inside => ?_⟩
    obtain ⟨-, inLeft⟩ | ⟨-, inRight⟩ | ⟨-, old⟩ := split.mem_after inside
    · exact absurd ((split.covers point).mpr (.inl inLeft)) outside
    · exact absurd ((split.covers point).mpr (.inr inRight)) outside
    · exact unique index old

end VtopEngine.Lib
