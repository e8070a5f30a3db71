import Mathlib.Data.List.Nodup
import Mathlib.Data.List.Dedup
import Mathlib.Tactic.Common

/-! # A bounded table that forgets its oldest key first

* `FifoTable` — values by key, and the keys in the order they were added.
* `FifoTable.remember` — add a key; a full table first forgets its oldest.
* `FifoTable.Consistent` — the order has no repetition, respects the capacity and
  lists the keys of the values; remembering a new key keeps it.
* `FifoTable.Holds` — a key is held with its value, and with the keys that came
  after it; it stays held until as many new keys as the capacity have come.
-/

namespace VtopEngine.Lib

open List Std.ExtTreeMap

variable {κ ν : Type} [Ord κ]

structure FifoTable (κ ν : Type) [Ord κ] where
  order : List κ
  values : Std.ExtTreeMap κ ν

namespace FifoTable

variable [Std.TransOrd κ]

def empty : FifoTable κ ν := { order := [], values := ∅ }

def forgetOldest (table : FifoTable κ ν) : FifoTable κ ν :=
  match table.order with
  | [] => table
  | oldest :: rest => { order := rest, values := table.values.erase oldest }

def makeRoom (table : FifoTable κ ν) (capacity : Nat) : FifoTable κ ν :=
  if table.order.length = capacity then table.forgetOldest else table

def remember (table : FifoTable κ ν) (capacity : Nat) (key : κ) (value : ν) : FifoTable κ ν :=
  { order := (table.makeRoom capacity).order ++ [key], values := (table.makeRoom capacity).values.insert key value }

structure Consistent (table : FifoTable κ ν) (capacity : Nat) : Prop where
  distinct : table.order.Nodup
  bounded : table.order.length ≤ capacity
  agree : ∀ key, key ∈ table.order ↔ key ∈ table.values

/-- `key` is held with `value`, and `newer` are the keys added since. -/
def Holds (table : FifoTable κ ν) (key : κ) (value : ν) (newer : List κ) : Prop :=
  (∃ older, table.order = older ++ key :: newer) ∧ table.values[key]? = some value

variable [Std.LawfulEqOrd κ] {table : FifoTable κ ν} {capacity : Nat} {key other : κ} {value : ν} {newer : List κ}

omit [Std.LawfulEqOrd κ] in
theorem Consistent.empty : (empty : FifoTable κ ν).Consistent capacity where
  distinct := nodup_nil
  bounded := Nat.zero_le _
  agree key := by simp [FifoTable.empty]

/-- Making room keeps the table consistent and leaves a place for one key. -/
theorem Consistent.makeRoom (consistent : table.Consistent capacity) (positive : 0 < capacity) :
    (table.makeRoom capacity).Consistent capacity ∧ (table.makeRoom capacity).order.length < capacity := by
  unfold FifoTable.makeRoom
  split
  · next full =>
    unfold forgetOldest
    split
    · next none =>
      rw [none] at full
      exact absurd full (Nat.ne_of_lt positive)
    · next oldest rest some =>
      obtain ⟨distinct, bounded, agree⟩ := consistent
      rw [some] at distinct bounded agree
      obtain ⟨gone, distinct⟩ := nodup_cons.mp distinct
      refine ⟨⟨distinct, Nat.le_of_succ_le bounded, fun key => ?_⟩, bounded⟩
      rw [mem_erase, ← agree, mem_cons]
      simp only [Std.LawfulEqCmp.compare_eq_iff_eq, ne_eq]
      constructor
      · intro kept
        exact ⟨fun same => gone (same ▸ kept), .inr kept⟩
      · rintro ⟨different, same | kept⟩
        · exact absurd same.symm different
        · exact kept
  · next room => exact ⟨consistent, Nat.lt_of_le_of_ne consistent.bounded room⟩

omit [Std.LawfulEqOrd κ] in
theorem mem_of_makeRoom (kept : key ∈ (table.makeRoom capacity).values) : key ∈ table.values := by
  unfold FifoTable.makeRoom forgetOldest at kept
  split at kept
  · split at kept
    · exact kept
    · exact (mem_erase.mp kept).2
  · exact kept

theorem Consistent.remember (consistent : table.Consistent capacity) (positive : 0 < capacity)
    (isNew : key ∉ table.values) : (table.remember capacity key value).Consistent capacity := by
  obtain ⟨⟨distinct, _, agree⟩, room⟩ := consistent.makeRoom positive
  have absent : key ∉ (table.makeRoom capacity).order := fun listed => isNew (mem_of_makeRoom ((agree key).mp listed))
  refine ⟨?_, ?_, fun other => ?_⟩
  · exact nodup_append.mpr ⟨distinct, nodup_singleton key, fun _ listed _ last =>
      mem_singleton.mp last ▸ ne_of_mem_of_not_mem listed absent⟩
  · rw [FifoTable.remember, length_append]
    exact room
  · simp only [FifoTable.remember, mem_append, mem_singleton, mem_insert, Std.LawfulEqCmp.compare_eq_iff_eq, agree]
    rw [or_comm, eq_comm]

theorem holds_remember (table : FifoTable κ ν) (capacity key value) :
    (table.remember capacity key value).Holds key value [] :=
  ⟨⟨_, rfl⟩, by simp [remember]⟩

/-- The keys added since push `key` towards the front; it leaves only when they fill
    the table. -/
theorem Holds.remember (holds : table.Holds key value newer) (consistent : table.Consistent capacity)
    (isNew : other ∉ table.values) (few : newer.length + 1 < capacity) (value') :
    (table.remember capacity other value').Holds key value (newer ++ [other]) := by
  obtain ⟨⟨older, listed⟩, found⟩ := holds
  have different : other ≠ key := by
    rintro rfl
    exact isNew (mem_iff_isSome_getElem?.mpr (by rw [found]; rfl))
  suffices kept : (table.makeRoom capacity).Holds key value newer by
    obtain ⟨⟨older, listed⟩, found⟩ := kept
    refine ⟨⟨older, by simp [FifoTable.remember, listed]⟩, ?_⟩
    rw [FifoTable.remember, Std.ExtTreeMap.getElem?_insert, if_neg (by simpa using different)]
    exact found
  unfold FifoTable.makeRoom
  split
  · next full =>
    -- A full table holds more than `newer` and `key`, so the oldest is another key.
    cases older with
    | nil =>
      rw [listed, nil_append, length_cons] at full
      exact absurd full (Nat.ne_of_lt few)
    | cons oldest older =>
      have others : oldest ≠ key := by
        have distinct := consistent.distinct
        rw [listed, cons_append] at distinct
        rintro rfl
        exact (nodup_cons.mp distinct).1 (mem_append_right _ mem_cons_self)
      refine ⟨⟨older, by simp [forgetOldest, listed]⟩, ?_⟩
      simp [forgetOldest, listed, getElem?_erase, others, found]
  · exact ⟨⟨older, listed⟩, found⟩

end FifoTable

end VtopEngine.Lib
