import Mathlib.Data.List.Range
import Mathlib.Data.List.Sort
import Mathlib.Order.Defs.LinearOrder

/-! # Maps kept in the order of their keys

* `SortedMap` — entries with strictly ascending keys.
* `mem_insert_of`, `mem_filter` — the entries after an operation.
* `get?_insert`, `get?_filter`, `get?_mergeWith` — what a lookup finds after an operation.
* `SortedMap.ext_get?` — maps with the same lookups are the same.
* `SortedMap.keys_eq_range` — as many keys as a stretch of numbers has, all within it, are the stretch.
-/

namespace VtopEngine.Lib

open List

structure SortedMap (κ β : Type) [LinearOrder κ] where
  entries : List (κ × β)
  ascending : entries.Pairwise fun first second => first.1 < second.1

namespace SortedMap

variable {κ β : Type} [LinearOrder κ]

def empty : SortedMap κ β := ⟨[], .nil⟩

/-- Put an entry in its place; an entry under the same key gives way. -/
def insertEntry (key : κ) (value : β) : List (κ × β) → List (κ × β)
  | [] => [(key, value)]
  | entry :: rest =>
    if key < entry.1 then (key, value) :: entry :: rest
    else if key = entry.1 then (key, value) :: rest
    else entry :: insertEntry key value rest

variable {entries : List (κ × β)} {entry : κ × β} {value : β} {key : κ}

theorem mem_insertEntry_of (member : entry ∈ insertEntry key value entries) : entry = (key, value) ∨ entry ∈ entries := by
  induction entries with
  | nil => exact .inl (mem_singleton.mp member)
  | cons first rest ih =>
    unfold insertEntry at member
    split_ifs at member with before same
    · exact mem_cons.mp member
    · exact (mem_cons.mp member).imp_right (.tail _)
    · rcases mem_cons.mp member with rfl | later
      · exact .inr mem_cons_self
      · exact (ih later).imp_right (.tail _)

theorem insertEntry_ascending (key value) (ascending : entries.Pairwise fun first second => first.1 < second.1) :
    (insertEntry key value entries).Pairwise fun first second => first.1 < second.1 := by
  induction entries with
  | nil => exact pairwise_singleton _ _
  | cons first rest ih =>
    obtain ⟨below, later⟩ := pairwise_cons.mp ascending
    unfold insertEntry
    split_ifs with before same
    · refine pairwise_cons.mpr ⟨fun entry member => ?_, ascending⟩
      rcases mem_cons.mp member with rfl | inRest
      · exact before
      · exact lt_trans before (below entry inRest)
    · exact pairwise_cons.mpr ⟨fun entry member => same ▸ below entry member, later⟩
    · refine pairwise_cons.mpr ⟨fun entry member => ?_, ih later⟩
      rcases mem_insertEntry_of member with rfl | inRest
      · exact lt_of_le_of_ne (not_lt.mp before) (Ne.symm same)
      · exact below entry inRest

def insert (map : SortedMap κ β) (key : κ) (value : β) : SortedMap κ β :=
  ⟨insertEntry key value map.entries, insertEntry_ascending key value map.ascending⟩

/-- The entries that are kept. -/
def filter (map : SortedMap κ β) (kept : κ → Bool) : SortedMap κ β :=
  ⟨map.entries.filter fun entry => kept entry.1, map.ascending.filter _⟩

def contains (map : SortedMap κ β) (key : κ) : Bool := map.entries.any fun entry => entry.1 = key

variable {map : SortedMap κ β}

theorem mem_insert_of (member : entry ∈ (map.insert key value).entries) : entry = (key, value) ∨ entry ∈ map.entries :=
  mem_insertEntry_of member

theorem mem_filter : entry ∈ (map.filter kept).entries ↔ entry ∈ map.entries ∧ kept entry.1 :=
  List.mem_filter

theorem keys_nodup (map : SortedMap κ β) : (map.entries.map Prod.fst).Nodup :=
  List.pairwise_map.mpr (map.ascending.imp ne_of_lt)

/-! ## Lookups -/

def get? (map : SortedMap κ β) (key : κ) : Option β := (map.entries.find? fun entry => entry.1 = key).map Prod.snd

theorem get?_eq_some : map.get? key = some value ↔ (key, value) ∈ map.entries := by
  constructor
  · intro found
    obtain ⟨entry, first, rfl⟩ := Option.map_eq_some_iff.mp found
    obtain rfl : entry.1 = key := by simpa using find?_some first
    exact mem_of_find?_eq_some first
  · intro member
    have some : (map.entries.find? fun entry => entry.1 = key).isSome := find?_isSome.mpr ⟨(key, value), member, by simp⟩
    obtain ⟨entry, first⟩ := Option.isSome_iff_exists.mp some
    have same : entry.1 = key := by simpa using find?_some first
    have : entry = (key, value) := inj_on_of_nodup_map map.keys_nodup (mem_of_find?_eq_some first) member same
    rw [get?, first, this, Option.map_some]

@[simp] theorem get?_empty (key) : (empty : SortedMap κ β).get? key = none := rfl

theorem ext_get? {first second : SortedMap κ β} (same : ∀ key, first.get? key = second.get? key) : first = second := by
  have members : ∀ entry, entry ∈ first.entries ↔ entry ∈ second.entries := by
    intro ⟨key, value⟩
    rw [← get?_eq_some, ← get?_eq_some, same]
  have perm : first.entries.Perm second.entries :=
    (perm_ext_iff_of_nodup first.keys_nodup.of_map second.keys_nodup.of_map).mpr members
  have entries : first.entries = second.entries :=
    perm.eq_of_pairwise (fun _ _ _ _ below above => absurd below (lt_asymm above)) first.ascending second.ascending
  cases first
  cases second
  cases entries
  rfl

theorem mem_insertEntry (key value) (ascending : entries.Pairwise fun first second => first.1 < second.1) :
    entry ∈ insertEntry key value entries ↔ entry = (key, value) ∨ entry ∈ entries ∧ entry.1 ≠ key := by
  induction entries with
  | nil => simp [insertEntry]
  | cons first rest ih =>
    obtain ⟨below, later⟩ := pairwise_cons.mp ascending
    -- What stands behind the place of insertion has another key.
    have behind : ∀ other ∈ rest, first.1 < other.1 := below
    unfold insertEntry
    split_ifs with before same
    · have others : ∀ other ∈ first :: rest, other.1 ≠ key := by
        intro other member
        rcases mem_cons.mp member with rfl | inRest
        · exact ne_of_gt before
        · exact ne_of_gt (lt_trans before (behind other inRest))
      rw [mem_cons]
      exact or_congr_right ⟨fun member => ⟨member, others entry member⟩, And.left⟩
    · rw [mem_cons, mem_cons]
      refine or_congr_right ⟨fun member => ⟨.inr member, same ▸ ne_of_gt (behind entry member)⟩, ?_⟩
      rintro ⟨rfl | member, different⟩
      · exact absurd same.symm different
      · exact member
    · rw [mem_cons, mem_cons, ih later]
      constructor
      · rintro (rfl | rfl | ⟨member, different⟩)
        · exact .inr ⟨.inl rfl, Ne.symm same⟩
        · exact .inl rfl
        · exact .inr ⟨.inr member, different⟩
      · rintro (rfl | ⟨rfl | member, different⟩)
        · exact .inr (.inl rfl)
        · exact .inl rfl
        · exact .inr (.inr ⟨member, different⟩)

@[simp] theorem get?_insert (map : SortedMap κ β) (key value wanted) :
    (map.insert key value).get? wanted = if wanted = key then some value else map.get? wanted := by
  refine Option.ext fun found => ?_
  rw [get?_eq_some, insert, mem_insertEntry key value map.ascending]
  split_ifs with same
  · simp [same, eq_comm]
  · simp [same, get?_eq_some]

@[simp] theorem get?_filter (map : SortedMap κ β) (kept wanted) :
    (map.filter kept).get? wanted = if kept wanted then map.get? wanted else none := by
  refine Option.ext fun found => ?_
  rw [get?_eq_some, mem_filter]
  split_ifs with isKept
  · simp [isKept, get?_eq_some]
  · simp [isKept]

/-! ## One map worked into another -/

variable {γ : Type}

/-- Work the entries of `other` in, each with what stands under its key already. -/
def mergeWith (combine : Option β → γ → β) (map : SortedMap κ β) (other : SortedMap κ γ) : SortedMap κ β :=
  other.entries.foldl (fun merged entry => merged.insert entry.1 (combine (merged.get? entry.1) entry.2)) map

theorem get?_foldl_insert (combine : Option β → γ → β) {entries : List (κ × γ)} (map : SortedMap κ β) (wanted : κ)
    (distinct : (entries.map Prod.fst).Nodup) :
    (entries.foldl (fun merged entry => merged.insert entry.1 (combine (merged.get? entry.1) entry.2)) map).get? wanted
      = match (entries.find? fun entry => entry.1 = wanted).map Prod.snd with
        | none => map.get? wanted
        | some value => some (combine (map.get? wanted) value) := by
  induction entries generalizing map with
  | nil => rfl
  | cons entry rest ih =>
    obtain ⟨notLater, later⟩ := nodup_cons.mp distinct
    rw [foldl_cons, ih _ later]
    by_cases same : entry.1 = wanted
    · -- The key comes up here, and nowhere behind.
      have none : rest.find? (fun entry => entry.1 = wanted) = none := by
        refine find?_eq_none.mpr fun other member => ?_
        have : other.1 ≠ wanted := fun again => notLater (mem_map.mpr ⟨other, member, again.trans same.symm⟩)
        simpa using this
      simp [none, same]
    · simp [same, Ne.symm same]

theorem get?_mergeWith (combine) (map : SortedMap κ β) (other : SortedMap κ γ) (wanted) :
    (map.mergeWith combine other).get? wanted = match other.get? wanted with
      | none => map.get? wanted
      | some value => some (combine (map.get? wanted) value) :=
  get?_foldl_insert combine map wanted other.keys_nodup

/-- Put every entry of `other`. -/
def extend (map other : SortedMap κ β) : SortedMap κ β := map.mergeWith (fun _ value => value) other

@[simp] theorem get?_extend (map other : SortedMap κ β) (wanted) :
    (map.extend other).get? wanted = (other.get? wanted).or (map.get? wanted) := by
  rw [extend, get?_mergeWith]
  cases other.get? wanted <;> rfl

/-- Change the values. -/
def mapValues (change : β → γ) (map : SortedMap κ β) : SortedMap κ γ :=
  ⟨map.entries.map fun entry => (entry.1, change entry.2), List.pairwise_map.mpr map.ascending⟩

/-! ## Maps on numbers -/

/-- Keys between 1 and `count` are at most as many. -/
theorem length_le {map : SortedMap Nat β} {count} (within : ∀ entry ∈ map.entries, 1 ≤ entry.1 ∧ entry.1 ≤ count) :
    map.entries.map Prod.fst ⊆ range' 1 count ∧ map.entries.length ≤ count := by
  have subset : map.entries.map Prod.fst ⊆ range' 1 count := by
    intro key member
    obtain ⟨entry, ofMap, rfl⟩ := mem_map.mp member
    have bounds := within entry ofMap
    simp only [mem_range'_1]
    omega
  refine ⟨subset, ?_⟩
  simpa using (subperm_of_subset map.keys_nodup subset).length_le

/-- As many keys as there are numbers from 1 to `count`, each one of them: then they are those numbers, in order. -/
theorem keys_eq_range {map : SortedMap Nat β} {count} (within : ∀ entry ∈ map.entries, 1 ≤ entry.1 ∧ entry.1 ≤ count)
    (full : map.entries.length = count) : map.entries.map Prod.fst = range' 1 count := by
  have ascending : (map.entries.map Prod.fst).Pairwise (· < ·) := pairwise_map.mpr map.ascending
  have perm : (map.entries.map Prod.fst).Perm (range' 1 count) :=
    (subperm_of_subset map.keys_nodup (length_le within).1).perm_of_length_le (by simp [full])
  exact perm.eq_of_pairwise (fun first second _ _ below above => absurd below (Nat.lt_asymm above)) ascending
    pairwise_lt_range'

end SortedMap

end VtopEngine.Lib
