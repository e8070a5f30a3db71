import VtopEngine.Lib.HashTree

/-! # Chunk proofs of sealed segments

A sealed segment commits to its content with the root of a left-balanced tree over chunks
of a fixed size (`proof.rs`).

* `ChunkTreeBuilder` — chunks and leaves of a byte stream, however it is fed.
* `proveChunk`, `verifyChunk` — the proof of a chunk, and its check.
* `chunk_proofs_bind_sides` — proofs verify; a proof that verifies is of the chunk its own
  sides lead to.
* `sibling_chunk_accepted` — so it can be offered for the index of another chunk.
-/

namespace VtopEngine.Log

open Lib HashTree List Nat

structure ChunkParams where
  (chunkSize chunkCount : Nat)
  deriving DecidableEq

/-- The siblings of one chunk, from the leaf to the root. -/
structure ChunkProof (δ : Type) where
  index : Nat
  path : List (δ × Side)

variable {δ : Type}

/-! ## The builder -/

/-- What of the stream is not yet a chunk is shorter than one. -/
structure ChunkTreeBuilder (δ : Type) where
  chunkSize : Nat
  pending : List UInt8
  leaves : List δ
  room : pending.length < chunkSize

namespace ChunkTreeBuilder

def new (chunkSize : Nat) (positive : 0 < chunkSize) : ChunkTreeBuilder δ := ⟨chunkSize, [], [], positive⟩

def update (hash : TreeHash (List UInt8) δ) (builder : ChunkTreeBuilder δ) (bytes : List UInt8) : ChunkTreeBuilder δ :=
  if bytes = [] then builder
  else
    let taken := min (builder.chunkSize - builder.pending.length) bytes.length
    let pending := builder.pending ++ bytes.take taken
    if full : pending.length = builder.chunkSize then
      update hash ⟨builder.chunkSize, [], builder.leaves ++ [hash.leaf pending], zero_lt_of_lt builder.room⟩ (bytes.drop taken)
    else
      have room : pending.length < builder.chunkSize := by
        have := builder.room
        simp only [pending, taken, List.length_append, List.length_take] at full ⊢
        omega
      update hash ⟨builder.chunkSize, pending, builder.leaves, room⟩ (bytes.drop taken)
termination_by bytes.length
decreasing_by
  all_goals
    have := builder.room
    have := List.length_pos_iff.mpr ‹¬bytes = []›
    simp only [List.length_drop]
    omega

/-- Hash what is left as the last chunk. -/
def finalize (hash : TreeHash (List UInt8) δ) (builder : ChunkTreeBuilder δ) : List δ × δ :=
  let leaves := if builder.pending = [] then builder.leaves else builder.leaves ++ [hash.leaf builder.pending]
  (leaves, root hash leaves)

end ChunkTreeBuilder

/-! ## Proofs -/

/-- The proof of the chunk at `index`; none beyond the last leaf. -/
def proveChunk (hash : TreeHash (List UInt8) δ) (leaves : List δ) (index : Nat) : Option (ChunkProof δ) :=
  if index < leaves.length then some ⟨index, siblings hash leaves index⟩ else none

/-- A chunk has the full size, unless it is the last one. -/
def validLength (params : ChunkParams) (index length : Nat) : Bool :=
  if index + 1 = params.chunkCount then 0 < length && length ≤ params.chunkSize else length = params.chunkSize

/-- The path has the length the index asks for; on which sides its siblings lie is the path's own word. -/
def verifyChunk [DecidableEq δ] (hash : TreeHash (List UInt8) δ) (root : δ) (params : ChunkParams) (index : Nat)
    (chunkBytes : List UInt8) (proof : ChunkProof δ) : Bool :=
  if proof.index ≠ index ∨ params.chunkCount ≤ index ∨ params.chunkSize = 0 then false
  else if validLength params index chunkBytes.length = false ∨
    proof.path.length ≠ depth params.chunkCount index then false
  else climb hash (hash.leaf chunkBytes) proof.path = root

/-! ## Chunks of a content -/

/-- The chunk at `index`, by its place in the content. -/
def chunkAt (chunkSize : Nat) (content : List UInt8) (index : Nat) : List UInt8 :=
  (content.drop (index * chunkSize)).take chunkSize

def chunkCount (chunkSize : Nat) (content : List UInt8) : Nat := (content.length + chunkSize - 1) / chunkSize

def chunks (chunkSize : Nat) (content : List UInt8) : List (List UInt8) :=
  (List.range (chunkCount chunkSize content)).map (chunkAt chunkSize content)

/-- The params of a content. -/
def paramsOf (chunkSize : Nat) (content : List UInt8) : ChunkParams := ⟨chunkSize, chunkCount chunkSize content⟩

/-- The chunk the sides of a proof lead to. -/
def ChunkProof.position (proof : ChunkProof δ) (count : Nat) : Nat :=
  HashTree.position count (proof.path.map Prod.snd).reverse

open ChunkTreeBuilder

variable {chunkSize : Nat} {content : List UInt8}

section Builder

variable {hash : TreeHash (List UInt8) δ} {builder : ChunkTreeBuilder δ}

/-- A builder has taken in a content: its leaves are the full chunks and the rest is pending. -/
structure Holds (hash : TreeHash (List UInt8) δ) (builder : ChunkTreeBuilder δ) (content : List UInt8) : Prop where
  length : builder.leaves.length * builder.chunkSize + builder.pending.length = content.length
  leaves : builder.leaves =
    (List.range builder.leaves.length).map fun index => hash.leaf (chunkAt builder.chunkSize content index)
  pending : builder.pending = content.drop (builder.leaves.length * builder.chunkSize)

/-- A chunk that is already full does not change as the content grows. -/
theorem chunkAt_append (more) (full : (index + 1) * chunkSize ≤ content.length) :
    chunkAt chunkSize (content ++ more) index = chunkAt chunkSize content index := by
  rw [add_mul, one_mul] at full
  unfold chunkAt
  rw [drop_append_of_le_length (by omega), take_append_of_le_length (by simp; omega)]

theorem map_chunkAt_append {count} (more) (full : count * chunkSize ≤ content.length) :
    (range count).map (fun index => hash.leaf (chunkAt chunkSize (content ++ more) index)) =
      (range count).map fun index => hash.leaf (chunkAt chunkSize content index) := by
  refine map_congr_left fun index member => ?_
  have below : index + 1 ≤ count := mem_range.mp member
  rw [chunkAt_append more ((mul_le_mul_right _ below).trans full)]

theorem holds_new (positive) : Holds hash (new chunkSize positive) [] := ⟨by simp [new], rfl, by simp [new]⟩

section

variable (holds : Holds hash builder content)

include holds

/-- Bytes that do not complete a chunk stay pending. -/
theorem Holds.extend (bytes room) :
    Holds hash ⟨builder.chunkSize, builder.pending ++ bytes, builder.leaves, room⟩ (content ++ bytes) := by
  have length := holds.length
  have within : builder.leaves.length * builder.chunkSize ≤ content.length := by omega
  refine ⟨?_, ?_, ?_⟩
  · simp only [length_append]
    omega
  · rw [map_chunkAt_append bytes within]
    exact holds.leaves
  · rw [drop_append_of_le_length within, ← holds.pending]

/-- Bytes that complete a chunk make a leaf of it. -/
theorem Holds.complete (bytes) (full : (builder.pending ++ bytes).length = builder.chunkSize) (positive) :
    Holds hash ⟨builder.chunkSize, [], builder.leaves ++ [hash.leaf (builder.pending ++ bytes)], positive⟩
      (content ++ bytes) := by
  have length := holds.length
  have isLength : (builder.leaves.length + 1) * builder.chunkSize = (content ++ bytes).length := by
    simp only [length_append, add_mul, one_mul] at full ⊢
    omega
  have isChunk : chunkAt builder.chunkSize (content ++ bytes) builder.leaves.length = builder.pending ++ bytes := by
    unfold chunkAt
    rw [drop_append_of_le_length (by omega), ← holds.pending, ← full, take_length]
  refine ⟨?_, ?_, ?_⟩
  · simpa using isLength
  · simp only [length_append, length_singleton, range_succ, map_append, map_singleton, isChunk]
    rw [map_chunkAt_append bytes (by omega), ← holds.leaves]
  · simp only [length_append, length_singleton] at isLength ⊢
    rw [isLength, ← length_append, drop_length]

theorem Holds.update (bytes) :
    Holds hash (builder.update hash bytes) (content ++ bytes) ∧ (builder.update hash bytes).chunkSize = builder.chunkSize := by
  induction isLength : bytes.length using Nat.strongRecOn generalizing builder content bytes with
  | ind length ih =>
    subst isLength
    rw [update]
    split
    case isTrue isNil =>
      subst isNil
      simpa using holds
    case isFalse nonempty =>
      have room := builder.room
      have positive := length_pos_iff.mpr nonempty
      have shorter : (bytes.drop (min (builder.chunkSize - builder.pending.length) bytes.length)).length < bytes.length := by
        simp only [length_drop]
        omega
      have isContent : content ++ bytes =
          content ++ bytes.take (min (builder.chunkSize - builder.pending.length) bytes.length) ++
            bytes.drop (min (builder.chunkSize - builder.pending.length) bytes.length) := by
        rw [append_assoc, take_append_drop]
      simp only
      rw [isContent]
      split
      case isTrue full => exact ih _ shorter (holds.complete _ full (zero_lt_of_lt room)) _ rfl
      case isFalse => exact ih _ shorter (holds.extend _ _) _ rfl

/-- Feeding a stream piece by piece. -/
theorem Holds.pieces (pieces : List (List UInt8)) :
    Holds hash (pieces.foldl (·.update hash) builder) (content ++ pieces.flatten) ∧
      (pieces.foldl (·.update hash) builder).chunkSize = builder.chunkSize := by
  induction pieces generalizing builder content with
  | nil => simpa using holds
  | cons piece pieces ih =>
    obtain ⟨fed, sameSize⟩ := holds.update piece
    obtain ⟨rest, restSize⟩ := ih fed
    rw [flatten_cons, ← append_assoc]
    exact ⟨rest, restSize.trans sameSize⟩

/-- The leaves are the digests of the content's chunks. -/
theorem Holds.finalize : builder.finalize hash =
      ((chunks builder.chunkSize content).map hash.leaf, root hash ((chunks builder.chunkSize content).map hash.leaf)) := by
  have length := holds.length
  have room := builder.room
  have isLeaves : (if builder.pending = [] then builder.leaves else builder.leaves ++ [hash.leaf builder.pending]) =
      (chunks builder.chunkSize content).map hash.leaf := by
    unfold chunks
    rw [map_map]
    split
    case isTrue isNil =>
      have isCount : chunkCount builder.chunkSize content = builder.leaves.length := by
        unfold chunkCount
        rw [← length, isNil, length_nil, Nat.add_zero, Nat.add_sub_assoc (by omega), Nat.mul_comm,
          mul_add_div (by omega), div_eq_of_lt (by omega), add_zero]
      rw [isCount]
      exact holds.leaves
    case isFalse nonempty =>
      have positive := length_pos_iff.mpr nonempty
      have isCount : chunkCount builder.chunkSize content = builder.leaves.length + 1 := by
        unfold chunkCount
        rw [← length, Nat.add_sub_assoc (by omega), Nat.add_assoc, Nat.mul_comm, Nat.mul_add_div (by omega),
          show builder.pending.length + (builder.chunkSize - 1) = builder.pending.length - 1 + builder.chunkSize by omega,
          add_div_right _ (by omega), div_eq_of_lt (by omega)]
      have isLast : chunkAt builder.chunkSize content builder.leaves.length = builder.pending := by
        unfold chunkAt
        rw [← holds.pending, take_of_length_le (by omega)]
      rw [isCount, range_succ, map_append, map_singleton, Function.comp_apply, isLast]
      exact congrArg (· ++ _) holds.leaves
  unfold ChunkTreeBuilder.finalize
  rw [isLeaves]

end

end Builder

/-! ## What a proof binds -/

section Proofs

variable {index : Nat} {hash : TreeHash (List UInt8) δ}

/-- The leaves and the root of a content. -/
def leavesOf (hash : TreeHash (List UInt8) δ) (chunkSize : Nat) (content : List UInt8) : List δ :=
  (chunks chunkSize content).map hash.leaf

def rootOf (hash : TreeHash (List UInt8) δ) (chunkSize : Nat) (content : List UInt8) : δ :=
  root hash (leavesOf hash chunkSize content)

theorem length_chunks : (chunks chunkSize content).length = chunkCount chunkSize content := by simp [chunks]

theorem length_leavesOf : (leavesOf hash chunkSize content).length = chunkCount chunkSize content := by
  simp [leavesOf, length_chunks]

theorem getElem?_chunks (inRange : index < chunkCount chunkSize content) :
    (chunks chunkSize content)[index]? = some (chunkAt chunkSize content index) := by
  simp [chunks, inRange]

theorem lt_chunkCount (positive : 0 < chunkSize) :
    index < chunkCount chunkSize content ↔ index * chunkSize < content.length := by
  unfold chunkCount
  rw [← succ_le_iff, le_div_iff_mul_le positive, succ_mul]
  omega

theorem length_chunkAt : (chunkAt chunkSize content index).length = min chunkSize (content.length - index * chunkSize) := by
  simp [chunkAt]

/-- Every chunk but the last is full, and the last is not empty. -/
theorem validLength_chunkAt (positive : 0 < chunkSize) (inRange : index < chunkCount chunkSize content) :
    validLength (paramsOf chunkSize content) index (chunkAt chunkSize content index).length = true := by
  have starts := (lt_chunkCount positive).mp inRange
  by_cases isLast : index + 1 = chunkCount chunkSize content
  · simp only [validLength, paramsOf, isLast, if_true, length_chunkAt, Bool.and_eq_true, decide_eq_true_eq]
    omega
  · have nextStarts : (index + 1) * chunkSize < content.length := (lt_chunkCount positive).mp (by omega)
    rw [add_mul, one_mul] at nextStarts
    simp only [validLength, paramsOf, isLast, if_false, length_chunkAt, decide_eq_true_eq]
    omega

variable [DecidableEq δ] {proof : ChunkProof δ} {bytes : List UInt8}

theorem verifyChunk_iff {root} {params : ChunkParams} : verifyChunk hash root params index bytes proof = true ↔
      (proof.index = index ∧ index < params.chunkCount ∧ params.chunkSize ≠ 0) ∧
      (validLength params index bytes.length = true ∧ proof.path.length = depth params.chunkCount index) ∧
      climb hash (hash.leaf bytes) proof.path = root := by
  unfold verifyChunk
  split
  case isTrue refused =>
    simp only [Bool.false_eq_true, false_iff, not_and]
    omega
  case isFalse sound =>
    split
    case isTrue refused =>
      simp only [Bool.false_eq_true, false_iff, not_and]
      rintro - ⟨valid, length⟩
      rcases refused with invalid | mismatch
      · simp [invalid] at valid
      · exact absurd length mismatch
    case isFalse valid =>
      simp only [not_or, not_not, Bool.not_eq_false, not_le] at sound valid
      simp [sound, valid]

/-- The proof of a chunk verifies. -/
theorem verifyChunk_proveChunk (positive : 0 < chunkSize) (inRange : index < chunkCount chunkSize content) :
    verifyChunk hash (rootOf hash chunkSize content) (paramsOf chunkSize content) index (chunkAt chunkSize content index)
      ⟨index, siblings hash (leavesOf hash chunkSize content) index⟩ = true := by
  rw [verifyChunk_iff]
  refine ⟨⟨rfl, inRange, by simpa [paramsOf] using positive.ne'⟩, ⟨validLength_chunkAt positive inRange, ?_⟩, ?_⟩
  · rw [length_siblings, length_leavesOf]
    rfl
  · refine climb_siblings hash _ index _ ?_
    rw [leavesOf, getElem?_map, getElem?_chunks inRange]
    rfl

/-- What a proof that verifies is a proof of: the chunk its sides lead to. -/
theorem chunk_of_verified (injective : hash.Injective)
    (verified : verifyChunk hash (rootOf hash chunkSize content) (paramsOf chunkSize content) index bytes proof = true) :
    proof.position (chunkCount chunkSize content) < chunkCount chunkSize content ∧
      bytes = chunkAt chunkSize content (proof.position (chunkCount chunkSize content)) := by
  obtain ⟨⟨-, inRange, -⟩, -, leads⟩ := verifyChunk_iff.mp verified
  have nonempty : chunks chunkSize content ≠ [] := ne_nil_of_length_pos (by rw [length_chunks]; exact zero_lt_of_lt inRange)
  obtain ⟨position, isChunk, isPath⟩ := climb_eq_root injective nonempty leads
  have positionInRange : position < chunkCount chunkSize content := by
    rw [← length_chunks]
    exact (List.getElem?_eq_some_iff.mp isChunk).1
  have isPosition : proof.position (chunkCount chunkSize content) = position := by
    have led := position_siblings hash (leavesOf hash chunkSize content) position (by rwa [length_leavesOf])
    unfold ChunkProof.position
    rw [isPath]
    rwa [length_leavesOf] at led
  rw [isPosition]
  refine ⟨positionInRange, ?_⟩
  rw [getElem?_chunks positionInRange] at isChunk
  exact (Option.some.inj isChunk).symm

/-- Leaves and root depend on the concatenated stream only, and the proof of every chunk verifies.  A proof that
verifies shows the chunk its own sides lead to: the bytes are the chunk at the index it was offered for if and only if
those two chunks are equal, as they are when its sides are those of the index. -/
theorem chunk_proofs_bind_sides (injective : hash.Injective) (positive : 0 < chunkSize) (content : List UInt8) :
    (∀ pieces : List (List UInt8), pieces.flatten = content →
      (pieces.foldl (·.update hash) (ChunkTreeBuilder.new chunkSize positive)).finalize hash =
        (leavesOf hash chunkSize content, rootOf hash chunkSize content)) ∧
    (∀ index < chunkCount chunkSize content, ∃ proof ∈ proveChunk hash (leavesOf hash chunkSize content) index,
      verifyChunk hash (rootOf hash chunkSize content) (paramsOf chunkSize content) index
        (chunkAt chunkSize content index) proof = true) ∧
    ∀ index bytes proof,
      verifyChunk hash (rootOf hash chunkSize content) (paramsOf chunkSize content) index bytes proof = true →
        (bytes = chunkAt chunkSize content index ↔
          chunkAt chunkSize content (proof.position (chunkCount chunkSize content)) = chunkAt chunkSize content index) ∧
        (proof.path.map Prod.snd = (siblings hash (leavesOf hash chunkSize content) index).map Prod.snd →
          bytes = chunkAt chunkSize content index) := by
  refine ⟨?_, ?_, ?_⟩
  · rintro pieces rfl
    obtain ⟨holds, sameSize⟩ := (holds_new positive : Holds hash _ _).pieces pieces
    rw [List.nil_append] at holds
    rw [holds.finalize, sameSize]
    rfl
  · intro index inRange
    refine ⟨_, ?_, verifyChunk_proveChunk positive inRange⟩
    simp [proveChunk, length_leavesOf, inRange]
  · intro index bytes proof verified
    obtain ⟨-, isChunk⟩ := chunk_of_verified injective verified
    refine ⟨by rw [isChunk], fun sameSides => ?_⟩
    have inRange : index < chunkCount chunkSize content := (verifyChunk_iff.mp verified).1.2.1
    have led := position_siblings hash (leavesOf hash chunkSize content) index (by rwa [length_leavesOf])
    rw [isChunk, ChunkProof.position, sameSides]
    rw [length_leavesOf] at led
    rw [led]

end Proofs

/-- Digests as terms: two of them are equal only if they hash the same thing. -/
inductive Digest
  | leaf (content : List UInt8)
  | node (left right : Digest)
  | empty
  deriving DecidableEq

def termHash : TreeHash (List UInt8) Digest := ⟨.leaf, .node, .empty⟩

theorem termHash_injective : termHash.Injective where
  leaf _ _ := Digest.leaf.inj
  node := Digest.node.inj
  leaf_ne_node _ _ _ := nofun
  leaf_ne_empty _ := nofun
  node_ne_empty _ _ := nofun

/-- The first of three chunks, proved and verified. -/
theorem first_of_three_verified : ∃ proof ∈ proveChunk termHash (leavesOf termHash 2 [1, 2, 3, 4, 5]) 0,
    verifyChunk termHash (rootOf termHash 2 [1, 2, 3, 4, 5]) (paramsOf 2 [1, 2, 3, 4, 5]) 0 [1, 2] proof = true :=
  (chunk_proofs_bind_sides termHash_injective (by decide) [1, 2, 3, 4, 5]).2.1 0 (by decide)

/-- The second of two chunks verifies as the first: the path's length is the same, and its side is not compared. -/
theorem sibling_chunk_accepted :
    verifyChunk termHash (rootOf termHash 1 [7, 8]) (paramsOf 1 [7, 8]) 0 [8] ⟨0, [(.leaf [7], .Left)]⟩ = true ∧
      chunkAt 1 [7, 8] 0 = [7] := by
  have isRoot : rootOf termHash 1 [7, 8] = .node (.leaf [7]) (.leaf [8]) := by
    show root termHash [.leaf [7], .leaf [8]] = _
    rw [root_split _ (by decide)]
    exact congrArg₂ _ (root_singleton _ _) (root_singleton _ _)
  have isDepth : depth 2 0 = 1 := by rw [depth, if_neg (by decide), if_pos (by decide), depth, if_pos (by decide)]
  refine ⟨?_, by decide⟩
  rw [verifyChunk_iff, isRoot]
  exact ⟨⟨rfl, by decide, by decide⟩, ⟨rfl, isDepth.symm⟩, rfl⟩

end VtopEngine.Log
