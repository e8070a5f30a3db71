import Mathlib.Data.List.Basic
import Mathlib.Data.Nat.Log
import Mathlib.Tactic.Ring

/-! # Left-balanced hash trees

A binary tree over a list of digests whose left subtree covers the largest power of two
strictly below the number of leaves, and the paths from a leaf to its root.  A digest is of
any type; what hashing must satisfy is an assumption.

* `TreeHash`, `TreeHash.Injective` — how leaves and nodes are hashed, and when no two of
  them share a digest.
* `root`, `siblings`, `climb` — the root, the path of a leaf, and what a path leads to.
* `climb_siblings` — the path of a leaf leads from it to the root.
* `climb_eq_root` — a path that leads from a leaf to the root is the path of some leaf, and
  starts at that leaf; `sides` tells which.
-/

namespace VtopEngine.Lib

open List

/-- How content, pairs of digests and nothing at all are hashed. -/
structure TreeHash (β δ : Type) where
  leaf : β → δ
  node : δ → δ → δ
  empty : δ

/-- No two different inputs share a digest. -/
structure TreeHash.Injective {β δ : Type} (hash : TreeHash β δ) : Prop where
  leaf : Function.Injective hash.leaf
  node : ∀ {left right left' right'}, hash.node left right = hash.node left' right' → left = left' ∧ right = right'
  leaf_ne_node : ∀ content left right, hash.leaf content ≠ hash.node left right
  leaf_ne_empty : ∀ content, hash.leaf content ≠ hash.empty
  node_ne_empty : ∀ left right, hash.node left right ≠ hash.empty

/-- Which side of a join a sibling sits on. -/
inductive Side
  | Left | Right
  deriving DecidableEq, Repr

namespace HashTree

variable {β δ : Type}

/-- The largest power of two strictly below `count`. -/
def leftLeaves (count : Nat) : Nat := 2 ^ Nat.log2 (count - 1)

theorem leftLeaves_pos (count) : 0 < leftLeaves count := Nat.two_pow_pos _

theorem leftLeaves_lt {count} (several : 2 ≤ count) : leftLeaves count < count := by
  have below : leftLeaves count ≤ count - 1 := Nat.log2_self_le (by omega)
  omega

/-- The root over digests of leaves. -/
def root (hash : TreeHash β δ) (leaves : List δ) : δ :=
  match leaves with
  | [] => hash.empty
  | [leaf] => leaf
  | first :: second :: rest =>
    let leaves := first :: second :: rest
    hash.node (root hash (leaves.take (leftLeaves leaves.length))) (root hash (leaves.drop (leftLeaves leaves.length)))
termination_by leaves.length
decreasing_by
  · have shorter := @leftLeaves_lt (rest.length + 1 + 1) (by omega)
    simp only [List.length_take, List.length_cons]
    omega
  · have positive := leftLeaves_pos (rest.length + 1 + 1)
    simp only [List.length_drop, List.length_cons]
    omega

section

variable (hash : TreeHash β δ)

include hash

theorem root_singleton (leaf) : root hash [leaf] = leaf := by rw [root]

theorem root_split {leaves : List δ} (several : 2 ≤ leaves.length) : root hash leaves =
      hash.node (root hash (leaves.take (leftLeaves leaves.length))) (root hash (leaves.drop (leftLeaves leaves.length))) := by
  match leaves, several with
  | first :: second :: rest, _ => rw [root]

/-- The siblings on the way from a leaf to the root. -/
def siblings (hash : TreeHash β δ) (leaves : List δ) (index : Nat) : List (δ × Side) :=
  if leaves.length < 2 then []
  else
    let split := leftLeaves leaves.length
    if index < split then siblings hash (leaves.take split) index ++ [(root hash (leaves.drop split), .Right)]
    else siblings hash (leaves.drop split) (index - split) ++ [(root hash (leaves.take split), .Left)]
termination_by leaves.length
decreasing_by
  · have shorter := @leftLeaves_lt leaves.length (by omega)
    simp only [List.length_take]
    omega
  · have positive := leftLeaves_pos leaves.length
    simp only [List.length_drop]
    omega

/-- Join a digest with a sibling. -/
def join (hash : TreeHash β δ) (current : δ) (sibling : δ × Side) : δ :=
  match sibling.2 with
  | .Left => hash.node sibling.1 current
  | .Right => hash.node current sibling.1

def climb (hash : TreeHash β δ) (start : δ) (path : List (δ × Side)) : δ := path.foldl (join hash) start

theorem climb_concat (start path sibling) :
    climb hash start (path ++ [sibling]) = join hash (climb hash start path) sibling := by
  simp [climb]

/-- How far a leaf is from the root. -/
def depth (count index : Nat) : Nat :=
  if count < 2 then 0
  else if index < leftLeaves count then 1 + depth (leftLeaves count) index
  else 1 + depth (count - leftLeaves count) (index - leftLeaves count)
termination_by count
decreasing_by
  · exact leftLeaves_lt (by omega)
  · have positive := leftLeaves_pos count
    omega

/-- The leaf that the sides of a path lead down to, from the root. -/
def position (count : Nat) : List Side → Nat
  | [] => 0
  | .Right :: rest => position (leftLeaves count) rest
  | .Left :: rest => leftLeaves count + position (count - leftLeaves count) rest

/-! ## Paths of leaves -/

/-- A leaf of a tree with several is in the left subtree or in the right one. -/
theorem siblings_split {leaves : List δ} {index} (several : 2 ≤ leaves.length) : siblings hash leaves index =
      if index < leftLeaves leaves.length then
        siblings hash (leaves.take (leftLeaves leaves.length)) index ++
          [(root hash (leaves.drop (leftLeaves leaves.length)), .Right)]
      else
        siblings hash (leaves.drop (leftLeaves leaves.length)) (index - leftLeaves leaves.length) ++
          [(root hash (leaves.take (leftLeaves leaves.length)), .Left)] := by
  rw [siblings, if_neg (by omega)]

theorem siblings_short {leaves : List δ} (short : leaves.length < 2) (index) : siblings hash leaves index = [] := by
  rw [siblings, if_pos short]

end

section

variable (hash : TreeHash β δ) (leaves : List δ) (index : Nat)

/-- The path of a leaf leads from it to the root. -/
theorem climb_siblings (leaf) (isLeaf : leaves[index]? = some leaf) :
    climb hash leaf (siblings hash leaves index) = root hash leaves := by
  induction isLength : leaves.length using Nat.strongRecOn generalizing leaves index with
  | ind length ih =>
    subst isLength
    by_cases several : 2 ≤ leaves.length
    · have shorter := leftLeaves_lt several
      have positive := leftLeaves_pos leaves.length
      rw [siblings_split hash several, root_split hash several]
      split
      case isTrue isLeft =>
        have inLeft : (leaves.take (leftLeaves leaves.length))[index]? = some leaf := by
          rw [getElem?_take_of_lt isLeft, isLeaf]
        rw [climb_concat, ih _ (by simp; omega) _ _ inLeft rfl]
        rfl
      case isFalse isRight =>
        have inRight : (leaves.drop (leftLeaves leaves.length))[index - leftLeaves leaves.length]? = some leaf := by
          rw [getElem?_drop, ← isLeaf]
          congr 1
          omega
        rw [climb_concat, ih _ (by simp; omega) _ _ inRight rfl]
        rfl
    · obtain ⟨inRange, rfl⟩ := List.getElem?_eq_some_iff.mp isLeaf
      obtain ⟨only, rfl⟩ := List.length_eq_one_iff.mp (show leaves.length = 1 by omega)
      obtain rfl : index = 0 := by simpa using inRange
      rw [siblings_short hash (by simp), root_singleton]
      rfl

theorem length_siblings : (siblings hash leaves index).length = depth leaves.length index := by
  induction isLength : leaves.length using Nat.strongRecOn generalizing leaves index with
  | ind length ih =>
    subst isLength
    rw [depth]
    by_cases several : 2 ≤ leaves.length
    · have shorter := leftLeaves_lt several
      have positive := leftLeaves_pos leaves.length
      rw [siblings_split hash several, if_neg (show ¬leaves.length < 2 by omega)]
      by_cases isLeft : index < leftLeaves leaves.length
      · have lengthLeft : (leaves.take (leftLeaves leaves.length)).length = leftLeaves leaves.length := by
          simp only [length_take]
          omega
        rw [if_pos isLeft, if_pos isLeft, length_append, ih _ shorter _ index lengthLeft, length_singleton, Nat.add_comm]
      · rw [if_neg isLeft, if_neg isLeft, length_append, ih _ (by omega) _ _ length_drop, length_singleton, Nat.add_comm]
    · rw [siblings_short hash (by omega), if_pos (by omega)]
      rfl

/-- The sides of a leaf's path lead back to it. -/
theorem position_siblings (inRange : index < leaves.length) :
    position leaves.length ((siblings hash leaves index).map Prod.snd).reverse = index := by
  induction isLength : leaves.length using Nat.strongRecOn generalizing leaves index with
  | ind length ih =>
    subst isLength
    by_cases several : 2 ≤ leaves.length
    · have shorter := leftLeaves_lt several
      have positive := leftLeaves_pos leaves.length
      rw [siblings_split hash several]
      split
      case isTrue isLeft =>
        have lengthLeft : (leaves.take (leftLeaves leaves.length)).length = leftLeaves leaves.length := by simp; omega
        have fromLeft := ih _ (by omega) _ index (by omega) lengthLeft
        simpa [position] using fromLeft
      case isFalse isRight =>
        have lengthRight : (leaves.drop (leftLeaves leaves.length)).length =
            leaves.length - leftLeaves leaves.length := by simp
        have fromRight := ih _ (by omega) _ (index - leftLeaves leaves.length) (by omega) lengthRight
        simp only [map_append, map_cons, map_nil, reverse_append, reverse_cons, reverse_nil,
          nil_append, cons_append, position, fromRight]
        omega
    · rw [siblings_short hash (by omega)]
      simp only [map_nil, reverse_nil, position]
      omega

end

/-! ## Any path that leads to the root -/

section Sound

variable {hash : TreeHash β δ} (injective : hash.Injective)
include injective

/-- A path from a leaf's digest to the root is the path of a leaf with that digest, whoever made it up. -/
theorem climb_eq_root {contents : List β} (nonempty : contents ≠ [])
    (leads : climb hash (hash.leaf content) path = root hash (contents.map hash.leaf)) :
    ∃ index, contents[index]? = some content ∧ path = siblings hash (contents.map hash.leaf) index := by
  induction isLength : contents.length using Nat.strongRecOn generalizing contents path with
  | ind length ih =>
    subst isLength
    -- The last step of a path is taken at the root; without it the path leads to the root of one half.
    by_cases several : 2 ≤ contents.length
    · have isSplit := root_split hash (show 2 ≤ (contents.map hash.leaf).length by simpa using several)
      rw [length_map] at isSplit
      have isPath (index : Nat) := @siblings_split _ _ hash (contents.map hash.leaf) index (by simpa using several)
      simp only [length_map] at isPath
      have shorter := leftLeaves_lt several
      have positive := leftLeaves_pos contents.length
      rw [isSplit] at leads
      rcases eq_nil_or_concat' path with rfl | ⟨earlier, ⟨sibling, side⟩, rfl⟩
      · exact absurd leads (injective.leaf_ne_node _ _ _)
      · rw [climb_concat] at leads
        cases side with
        | Right =>
          obtain ⟨fromLeft, rfl⟩ := injective.node leads
          rw [← map_take] at fromLeft
          obtain ⟨index, isContent, rfl⟩ :=
            ih _ (by simp; omega) (ne_nil_of_length_pos (by simp; omega)) fromLeft rfl
          have isLeft : index < leftLeaves contents.length := by
            obtain ⟨inRange, -⟩ := List.getElem?_eq_some_iff.mp isContent
            simp only [List.length_take] at inRange
            omega
          refine ⟨index, by rwa [getElem?_take_of_lt isLeft] at isContent, ?_⟩
          rw [isPath, if_pos isLeft, map_take]
        | Left =>
          obtain ⟨rfl, fromRight⟩ := injective.node leads
          rw [← map_drop] at fromRight
          obtain ⟨index, isContent, rfl⟩ :=
            ih _ (by simp; omega) (ne_nil_of_length_pos (by simp; omega)) fromRight rfl
          refine ⟨leftLeaves contents.length + index, by rwa [getElem?_drop] at isContent, ?_⟩
          rw [isPath, if_neg (by omega), map_drop, Nat.add_sub_cancel_left]
    · obtain ⟨only, rfl⟩ := length_eq_one_iff.mp
        (show contents.length = 1 by have := length_pos_iff.mpr nonempty; omega)
      rw [map_singleton, root_singleton] at leads
      rcases eq_nil_or_concat' path with rfl | ⟨earlier, ⟨sibling, side⟩, rfl⟩
      · exact ⟨0, by simpa using (injective.leaf leads).symm, (siblings_short hash (by simp) 0).symm⟩
      · rw [climb_concat] at leads
        cases side with
        | Right | Left => exact absurd leads.symm (injective.leaf_ne_node _ _ _)

end Sound

end HashTree

end VtopEngine.Lib
