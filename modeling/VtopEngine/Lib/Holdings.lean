import Mathlib.Data.List.Nodup

/-! # Exclusive holdings

Who holds what, when nothing is held twice.  A holder may let everything go, keep
what it has, or claim more: what it adds was free, is allowed, and fits.

* `Held` — nothing is held twice, everything held is allowed, nobody holds too much.
* `Change` — what one step may do to the holdings.
* `Held.change` — a change keeps them in order.
-/

namespace VtopEngine.Lib

variable {ι α : Type}

structure Held (limit : Nat) (allowed : α → Prop) (holdings : ι → List α) : Prop where
  distinct : ∀ holder, (holdings holder).Nodup
  exclusive : ∀ holder other item, item ∈ holdings holder → item ∈ holdings other → holder = other
  allowed : ∀ holder, ∀ item ∈ holdings holder, allowed item
  bounded : ∀ holder, (holdings holder).length ≤ limit

/-- One holder's holdings are kept or given up. -/
def Released (before after : List α) : Prop := after = before ∨ after = []

/-- One holder claims `added` on top of what it keeps. -/
structure Claim (limit : Nat) (allowed : α → Prop) (holdings next : ι → List α) (claimant : ι) (kept added : List α) :
    Prop where
  here : next claimant = kept ++ added
  released : Released (holdings claimant) kept
  distinct : added.Nodup
  fresh : ∀ item ∈ added, item ∉ kept
  free : ∀ other, other ≠ claimant → ∀ item ∈ added, item ∉ holdings other
  admissible : ∀ item ∈ added, allowed item
  fits : (kept ++ added).length ≤ limit
  others : ∀ other, other ≠ claimant → Released (holdings other) (next other)

inductive Change (limit : Nat) (allowed : α → Prop) (holdings next : ι → List α) : Prop
  | release (everyone : ∀ holder, Released (holdings holder) (next holder))
  | claim (claims : Claim limit allowed holdings next claimant kept added)

variable {limit : Nat} {allowed : α → Prop} {holdings next : ι → List α}

theorem Released.mem {before after : List α} (released : Released before after) {item : α} (held : item ∈ after) :
    item ∈ before := by
  rcases released with rfl | rfl
  · exact held
  · cases held

theorem Held.empty : Held limit allowed fun _ : ι => ([] : List α) where
  distinct _ := List.nodup_nil
  exclusive _ _ _ held := by cases held
  allowed _ _ held := by cases held
  bounded _ := Nat.zero_le _

/-- What is released is in order if it was before. -/
theorem Held.released (held : Held limit allowed holdings)
    (released : Released (holdings holder) after) : after.Nodup ∧ after.length ≤ limit := by
  rcases released with rfl | rfl
  · exact ⟨held.distinct holder, held.bounded holder⟩
  · exact ⟨List.nodup_nil, Nat.zero_le _⟩

/-- An item of the claimant's is new, or was its own before. -/
theorem Claim.mem (claims : Claim limit allowed holdings next claimant kept added) (held : item ∈ next claimant) :
    item ∈ holdings claimant ∨ item ∈ added := by
  rw [claims.here, List.mem_append] at held
  exact held.imp claims.released.mem id

section

variable (held : Held limit allowed holdings)

include held

theorem Held.claim {claimant : ι} {kept added : List α}
    (claims : Claim limit allowed holdings next claimant kept added) : Held limit allowed next where
  distinct holder := by
    by_cases here : holder = claimant
    · subst here
      rw [claims.here]
      refine List.nodup_append.mpr ⟨(held.released claims.released).1, claims.distinct, ?_⟩
      rintro first inKept second inAdded rfl
      exact claims.fresh first inAdded inKept
    · exact (held.released (claims.others holder here)).1
  exclusive holder other item first second := by
    -- two holders of the claimed item: the claimant, and someone it was not free of
    have settle {other : ι} (elsewhere : other ≠ claimant) (mine : item ∈ next claimant) (theirs : item ∈ next other) :
        False := by
      have before := (claims.others other elsewhere).mem theirs
      rcases claims.mem mine with was | new
      · exact elsewhere (held.exclusive other claimant item before was)
      · exact claims.free other elsewhere item new before
    by_cases here : holder = claimant <;> by_cases there : other = claimant
    · exact here.trans there.symm
    · exact (settle there (here ▸ first) second).elim
    · exact (settle here (there ▸ second) first).elim
    · exact held.exclusive holder other item ((claims.others holder here).mem first) ((claims.others other there).mem second)
  allowed holder item listed := by
    by_cases here : holder = claimant
    · subst here
      rcases claims.mem listed with was | new
      · exact held.allowed holder item was
      · exact claims.admissible item new
    · exact held.allowed holder item ((claims.others holder here).mem listed)
  bounded holder := by
    by_cases here : holder = claimant
    · subst here
      rw [claims.here]
      exact claims.fits
    · exact (held.released (claims.others holder here)).2

theorem Held.change (change : Change limit allowed holdings next) : Held limit allowed next := by
  cases change with
  | claim claims => exact held.claim claims
  | release everyone =>
    exact
      { distinct := fun holder => (held.released (everyone holder)).1
        exclusive := fun holder other item first second =>
          held.exclusive holder other item ((everyone holder).mem first) ((everyone other).mem second)
        allowed := fun holder item listed => held.allowed holder item ((everyone holder).mem listed)
        bounded := fun holder => (held.released (everyone holder)).2 }

theorem Held.mono {allowed' : α → Prop} (grows : ∀ item, allowed item → allowed' item) : Held limit allowed' holdings :=
  { held with allowed := fun holder item listed => grows item (held.allowed holder item listed) }

end

end VtopEngine.Lib
