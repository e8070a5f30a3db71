import Mathlib.Data.Finset.Card
import Mathlib.Data.Finset.SymmDiff

/-! # Majorities

* `Majority` — more than half of a finite set.
* `OneApart` — two sets that differ by one member.
* `Majority.meets` — two majorities of one set share a member, and so do
  majorities of two sets that are one member apart (`Majority.meets_oneApart`).
-/

namespace VtopEngine.Lib

open Finset

variable {α : Type} [DecidableEq α] {set next part part' : Finset α}

/-- More than half of `set`. -/
structure Majority (set part : Finset α) : Prop where
  subset : part ⊆ set
  most : set.card < 2 * part.card

def OneApart (set next : Finset α) : Prop := (symmDiff set next).card = 1

/-- The two sets together have one member more than they share. -/
theorem OneApart.card_union (apart : OneApart set next) : 2 * (set ∪ next).card = set.card + next.card + 1 := by
  have shared := card_union_add_card_inter set next
  have outside : (set ∪ next).card = (set ∩ next).card + 1 := by
    have parts : set ∪ next = (set ∩ next) ∪ symmDiff set next := by
      ext member
      simp only [mem_union, mem_inter, mem_symmDiff]
      tauto
    have disjoint : Disjoint (set ∩ next) (symmDiff set next) := (disjoint_symmDiff_inf set next).symm
    rw [parts, card_union_of_disjoint disjoint, apart]
  omega

theorem Majority.meets_within {union : Finset α} (first : part ⊆ union) (second : part' ⊆ union)
    (most : union.card < part.card + part'.card) : ∃ member ∈ part, member ∈ part' := by
  obtain ⟨member, shared⟩ := inter_nonempty_of_card_lt_card_add_card first second most
  exact ⟨member, mem_inter.mp shared⟩

theorem Majority.meets (first : Majority set part) (second : Majority set part') : ∃ member ∈ part, member ∈ part' :=
  meets_within first.subset second.subset (by have := first.most; have := second.most; omega)

theorem Majority.meets_oneApart (apart : OneApart set next) (first : Majority set part)
    (second : Majority next part') : ∃ member ∈ part, member ∈ part' := by
  refine meets_within (first.subset.trans subset_union_left) (second.subset.trans subset_union_right) ?_
  have union := apart.card_union
  have mostFirst := first.most
  have mostSecond := second.most
  omega

end VtopEngine.Lib
