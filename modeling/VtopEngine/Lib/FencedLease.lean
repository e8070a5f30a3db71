import Mathlib.Logic.Function.Basic
import Mathlib.Tactic.Common

/-! # Fenced leases

A register that hands out leases under increasing epochs and keeps a record of
each hand-out.  An epoch is minted with its lease; after that the lease can only
be dropped, and the record only amended.

* `Fence.Step` — the three things that can happen to a register.
* `Fence.WellFormed` — the outstanding lease is at the current epoch, and the
  records are exactly one for each epoch minted so far.
* `Fence.Extends` — epochs grow and no record is lost, along any number of steps.
* `Fence.Superseded` — an epoch whose lease is gone; it stays gone.
-/

namespace VtopEngine.Lib

open Function

/-- The register: the last epoch minted, the epoch of the outstanding lease, and
    what was recorded about each epoch. -/
@[ext] structure Fence (γ : Type) where
  epoch : Nat
  lease : Option Nat
  grants : Nat → Option γ

namespace Fence

variable {γ : Type} {Good : Nat → γ → Prop} {Amends Keeps : γ → γ → Prop} {fence before middle after : Fence γ}

def fresh : Fence γ := { epoch := 0, lease := none, grants := fun _ => none }

def mint (fence : Fence γ) (grant : γ) : Fence γ :=
  { epoch := fence.epoch + 1
    lease := some (fence.epoch + 1)
    grants := update fence.grants (fence.epoch + 1) (some grant) }

def amend (fence : Fence γ) (epoch : Nat) (grant : γ) : Fence γ :=
  { fence with grants := update fence.grants epoch (some grant) }

inductive Step (Good : Nat → γ → Prop) (Amends : γ → γ → Prop) (fence : Fence γ) : Fence γ → Prop
  | hold {lease : Option Nat} (kept : lease = fence.lease ∨ lease = none) : Step Good Amends fence { fence with lease }
  | mint (good : Good (fence.epoch + 1) grant) : Step Good Amends fence (fence.mint grant)
  | amend {epoch : Nat} {grant amended : γ} (found : fence.grants epoch = some grant)
      (amends : Amends grant amended) : Step Good Amends fence (fence.amend epoch amended)

theorem Step.stay : Step Good Amends fence fence := .hold (.inl rfl)

/-! ## One record for each epoch -/

structure WellFormed (Good : Nat → γ → Prop) (fence : Fence γ) : Prop where
  current : ∀ epoch, fence.lease = some epoch → epoch = fence.epoch
  minted : ∀ epoch, fence.grants epoch ≠ none ↔ 1 ≤ epoch ∧ epoch ≤ fence.epoch
  good : ∀ epoch grant, fence.grants epoch = some grant → Good epoch grant

theorem WellFormed.fresh : (fresh : Fence γ).WellFormed Good where
  current _ leased := nomatch leased
  minted epoch := by
    simp only [Fence.fresh, ne_eq, not_true_eq_false, false_iff, not_and]
    omega
  good _ _ found := nomatch found

theorem WellFormed.step (formed : before.WellFormed Good) (step : Step Good Amends before after)
    (keeps : ∀ epoch grant amended, Amends grant amended → Good epoch grant → Good epoch amended) :
    after.WellFormed Good := by
  cases step with
  | hold kept =>
    refine { formed with current := fun epoch leased => ?_ }
    obtain rfl | rfl := kept
    · exact formed.current epoch leased
    · cases leased
  | @mint grant good =>
    refine ⟨fun epoch leased => (Option.some.inj leased).symm, fun epoch => ?_, fun epoch found recorded => ?_⟩
    · simp only [Fence.mint]
      obtain rfl | other := eq_or_ne epoch (before.epoch + 1)
      · simp
      · rw [update_of_ne other, formed.minted epoch]
        omega
    · simp only [Fence.mint] at recorded
      obtain rfl | other := eq_or_ne epoch (before.epoch + 1)
      · rw [update_self] at recorded
        cases recorded
        exact good
      · rw [update_of_ne other] at recorded
        exact formed.good epoch found recorded
  | @amend amendedEpoch grant amended found amends =>
    refine ⟨formed.current, fun epoch => ?_, fun epoch seen recorded => ?_⟩
    · simp only [Fence.amend]
      obtain rfl | other := eq_or_ne epoch amendedEpoch
      · rw [update_self, ← formed.minted epoch]
        simp [found]
      · rw [update_of_ne other, formed.minted epoch]
    · simp only [Fence.amend] at recorded
      obtain rfl | other := eq_or_ne epoch amendedEpoch
      · rw [update_self] at recorded
        cases recorded
        exact keeps _ _ _ amends (formed.good _ _ found)
      · rw [update_of_ne other] at recorded
        exact formed.good epoch seen recorded

/-! ## Growth -/

/-- The epoch has not decreased, and every record is still there, changed only
    as `Keeps` allows. -/
structure Extends (Keeps : γ → γ → Prop) (before after : Fence γ) : Prop where
  epoch : before.epoch ≤ after.epoch
  grants : ∀ epoch grant, before.grants epoch = some grant → ∃ later, after.grants epoch = some later ∧ Keeps grant later

theorem Extends.refl (keepsRefl : ∀ grant, Keeps grant grant) : fence.Extends Keeps fence :=
  ⟨Nat.le_refl _, fun _ grant found => ⟨grant, found, keepsRefl grant⟩⟩

theorem Extends.trans (keepsTrans : ∀ first second third, Keeps first second → Keeps second third → Keeps first third)
    (first : before.Extends Keeps middle) (second : middle.Extends Keeps after) : before.Extends Keeps after := by
  refine ⟨Nat.le_trans first.epoch second.epoch, fun epoch grant found => ?_⟩
  obtain ⟨between, foundBetween, keeps⟩ := first.grants epoch grant found
  obtain ⟨later, foundLater, keepsLater⟩ := second.grants epoch between foundBetween
  exact ⟨later, foundLater, keepsTrans _ _ _ keeps keepsLater⟩

theorem WellFormed.extends (formed : before.WellFormed Good) (step : Step Good Amends before after)
    (keepsRefl : ∀ grant, Keeps grant grant) (keeps : ∀ grant amended, Amends grant amended → Keeps grant amended) :
    before.Extends Keeps after := by
  cases step with
  | hold kept => exact ⟨Nat.le_refl _, fun _ grant found => ⟨grant, found, keepsRefl grant⟩⟩
  | mint good =>
    refine ⟨Nat.le_succ _, fun epoch grant found => ⟨grant, ?_, keepsRefl grant⟩⟩
    have bounded := (formed.minted epoch).mp (by simp [found])
    simp only [Fence.mint]
    rwa [update_of_ne (by omega)]
  | @amend amendedEpoch grant amended found amends =>
    refine ⟨Nat.le_refl _, fun epoch seen recorded => ?_⟩
    simp only [Fence.amend]
    obtain rfl | other := eq_or_ne epoch amendedEpoch
    · rw [found] at recorded
      cases recorded
      exact ⟨amended, update_self .., keeps _ _ amends⟩
    · exact ⟨seen, by rwa [update_of_ne other], keepsRefl seen⟩

/-! ## Superseded epochs -/

/-- An epoch that was minted and whose lease is gone. -/
def Superseded (fence : Fence γ) (epoch : Nat) : Prop := epoch ≤ fence.epoch ∧ fence.lease ≠ some epoch

theorem Superseded.step {epoch : Nat} (superseded : before.Superseded epoch) (step : Step Good Amends before after) :
    after.Superseded epoch := by
  obtain ⟨bounded, unleased⟩ := superseded
  cases step with
  | hold kept =>
    refine ⟨bounded, ?_⟩
    obtain rfl | rfl := kept
    · exact unleased
    · simp
  | mint good =>
    refine ⟨Nat.le_succ_of_le bounded, ?_⟩
    simp only [Fence.mint, ne_eq, Option.some.injEq]
    omega
  | amend found amends => exact ⟨bounded, unleased⟩

end Fence

end VtopEngine.Lib
