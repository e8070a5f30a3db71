import Mathlib.Data.List.GetD
import Mathlib.Data.List.Sort

/-! # Order statistics of a list of numbers

* `kthLargest` — the `k`-th largest entry, found by sorting.
* `le_countP_kthLargest` — at least `k` entries reach it.
* `lastMaximum` — the last of the largest entries under a key.
-/

namespace VtopEngine.Lib

open List

def descending (entries : List Nat) : List Nat := entries.insertionSort fun first second => second ≤ first

/-- The entry at position `k - 1` of the entries in descending order. -/
def kthLargest (entries : List Nat) (k : Nat) : Nat := (descending entries).getD (k - 1) 0

section Ranks

variable {entries : List Nat} {k : Nat}

theorem descending_perm (entries) : (descending entries).Perm entries := perm_insertionSort _ _

theorem pairwise_descending (entries) : (descending entries).Pairwise fun first second => second ≤ first :=
  pairwise_insertionSort _ _

theorem kthLargest_eq (positive : 0 < k) (within : k ≤ entries.length) :
    ∃ bound : k - 1 < (descending entries).length, kthLargest entries k = (descending entries)[k - 1] := by
  have bound : k - 1 < (descending entries).length := by
    rw [(descending_perm entries).length_eq]
    omega
  exact ⟨bound, getD_eq_getElem _ _ bound⟩

theorem kthLargest_mem (positive : 0 < k) (within : k ≤ entries.length) : kthLargest entries k ∈ entries := by
  obtain ⟨bound, same⟩ := kthLargest_eq positive within
  rw [same]
  exact (descending_perm entries).mem_iff.mp (getElem_mem bound)

/-- The entries before the `k`-th in descending order all reach it. -/
theorem le_countP_kthLargest (positive : 0 < k) (within : k ≤ entries.length) :
    k ≤ entries.countP fun entry => kthLargest entries k ≤ entry := by
  obtain ⟨bound, same⟩ := kthLargest_eq positive within
  have reach : ∀ entry ∈ (descending entries).take k, kthLargest entries k ≤ entry := by
    intro entry member
    obtain ⟨index, inside, rfl⟩ := mem_take_iff_getElem.mp member
    rw [same]
    rcases Nat.lt_or_ge index (k - 1) with earlier | last
    · exact pairwise_iff_getElem.mp (pairwise_descending entries) index (k - 1) (by omega) bound earlier
    · have here : index = k - 1 := by omega
      subst here
      exact Nat.le_refl _
  calc k = ((descending entries).take k).length := by rw [length_take]; omega
    _ = ((descending entries).take k).countP fun entry => kthLargest entries k ≤ entry := by
        rw [countP_eq_length.mpr]
        exact fun entry member => decide_eq_true (reach entry member)
    _ ≤ (descending entries).countP fun entry => kthLargest entries k ≤ entry := (take_sublist k _).countP_le
    _ = entries.countP fun entry => kthLargest entries k ≤ entry := (descending_perm entries).countP_eq _

end Ranks

section Maximum

variable {α : Type} {key : α → Nat}

/-- The last entry whose key no other exceeds. -/
def lastMaximum (key : α → Nat) : List α → Option α
  | [] => none
  | entry :: rest =>
    match lastMaximum key rest with
    | none => some entry
    | some best => if key entry ≤ key best then some best else some entry

theorem lastMaximum_eq_none : lastMaximum key entries = none ↔ entries = [] := by
  cases entries with
  | nil => simp [lastMaximum]
  | cons entry rest =>
    simp only [lastMaximum, reduceCtorEq, iff_false]
    split
    · simp
    · split <;> simp

theorem lastMaximum_spec (found : lastMaximum key entries = some best) :
    best ∈ entries ∧ ∀ entry ∈ entries, key entry ≤ key best := by
  induction entries generalizing best with
  | nil => cases found
  | cons entry rest ih =>
    rw [lastMaximum] at found
    split at found
    · next alone =>
      cases found
      simp [lastMaximum_eq_none.mp alone]
    · next other isBest =>
      obtain ⟨member, largest⟩ := ih isBest
      split at found
      · next below =>
        cases found
        exact ⟨mem_cons_of_mem _ member, forall_mem_cons.mpr ⟨below, largest⟩⟩
      · next above =>
        cases found
        refine ⟨mem_cons_self, forall_mem_cons.mpr ⟨Nat.le_refl _, fun next inRest => ?_⟩⟩
        exact Nat.le_of_lt (Nat.lt_of_le_of_lt (largest next inRest) (Nat.not_le.mp above))

end Maximum

end VtopEngine.Lib
