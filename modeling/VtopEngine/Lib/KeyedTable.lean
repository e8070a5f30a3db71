import Mathlib.Data.List.Nodup

/-! # Tables with a key

Rows with distinct keys, as a relational table keeps them: rows are looked up, changed
and deleted by a condition, and inserted under a key that is free.

* `KeyedTable` — the rows, with their keys distinct.
* `find_modify`, `find_keep`, `find_insert` — what a lookup finds after a statement.
-/

namespace VtopEngine.Lib

open List

variable {α κ : Type} [DecidableEq κ] {key : α → κ}

structure KeyedTable (key : α → κ) where
  rows : List α
  distinct : (rows.map key).Nodup

namespace KeyedTable

def empty : KeyedTable key := ⟨[], .nil⟩

def find (table : KeyedTable key) (wanted : κ) : Option α := table.rows.find? fun row => key row = wanted

/-- Change rows; none gets another key. -/
def modify (table : KeyedTable key) (change : α → α) (keeps : ∀ row, key (change row) = key row) : KeyedTable key :=
  ⟨table.rows.map change, by
    rw [List.map_map, show key ∘ change = key from funext keeps]
    exact table.distinct⟩

/-- Keep the rows that meet a condition. -/
def keep (table : KeyedTable key) (kept : α → Bool) : KeyedTable key :=
  ⟨table.rows.filter kept, table.distinct.sublist (List.filter_sublist.map key)⟩

def insert (table : KeyedTable key) (row : α) (free : table.find (key row) = none) : KeyedTable key :=
  ⟨table.rows ++ [row], by
    rw [List.map_append, List.nodup_append]
    refine ⟨table.distinct, List.nodup_singleton _, fun taken isTaken new isNew same => ?_⟩
    obtain ⟨other, member, rfl⟩ := List.mem_map.mp isTaken
    rw [List.map_singleton, List.mem_singleton] at isNew
    exact absurd (List.find?_eq_none.mp free other member) (by simpa using same.trans isNew)⟩

variable {table : KeyedTable key} {row : α} {wanted : κ}

theorem mem_of_find (found : table.find wanted = some row) : row ∈ table.rows ∧ key row = wanted :=
  ⟨mem_of_find?_eq_some found, by simpa using find?_some found⟩

/-- A key leads to one row. -/
theorem find_of_mem (member : row ∈ table.rows) : table.find (key row) = some row := by
  have found : (table.find (key row)).isSome := find?_isSome.mpr ⟨row, member, by simp⟩
  obtain ⟨other, isOther⟩ := Option.isSome_iff_exists.mp found
  obtain ⟨otherMember, sameKey⟩ := mem_of_find isOther
  rw [isOther, inj_on_of_nodup_map table.distinct otherMember member sameKey]

theorem find_empty (wanted) : (empty : KeyedTable key).find wanted = none := rfl

theorem find_modify (table : KeyedTable key) (change keeps wanted) :
    (table.modify change keeps).find wanted = (table.find wanted).map change := by
  unfold find modify
  rw [find?_map]
  congr 2
  funext row
  simp [keeps]

theorem find_keep (table : KeyedTable key) (kept wanted) :
    (table.keep kept).find wanted = (table.find wanted).filter kept := by
  cases found : table.find wanted with
  | none =>
    refine find?_eq_none.mpr fun row member => ?_
    exact find?_eq_none.mp found row (mem_of_mem_filter member)
  | some row =>
    obtain ⟨member, rfl⟩ := mem_of_find found
    rw [Option.filter_some]
    split
    case isTrue isKept =>
      have member : row ∈ (table.keep kept).rows := mem_filter.mpr ⟨member, isKept⟩
      exact find_of_mem member
    case isFalse dropped =>
      refine find?_eq_none.mpr fun other otherMember => ?_
      obtain ⟨otherMember, isKept⟩ := mem_filter.mp otherMember
      simp only [decide_eq_true_eq]
      intro sameKey
      have same := inj_on_of_nodup_map table.distinct otherMember member sameKey
      exact dropped (same ▸ isKept)

theorem find_insert (table : KeyedTable key) (row free wanted) :
    (table.insert row free).find wanted = if key row = wanted then some row else table.find wanted := by
  unfold insert find
  rw [find?_append]
  split
  case isTrue same =>
    subst same
    rw [show table.rows.find? _ = none from free]
    simp
  case isFalse other => simp [other]

end KeyedTable

end VtopEngine.Lib
