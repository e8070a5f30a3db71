import Mathlib.Data.List.Basic
import Mathlib.Data.List.TakeDrop
import Mathlib.Data.List.TakeWhile
import VtopEngine.Core.Types

/-! # Continuity of a file under a read position

A byte-offset adapter keeps one read position per path, and the position only
means something for the file it was taken from (`continuity.rs`).

* `check` — has the file under a position been replaced or truncated.
* `commitIsCurrent` — does a range still describe the file at the path.
* `Generations` — which ranges were handed out, and in which generation of the
  file each was read.  Every discontinuity the adapter acts on starts another.
-/

namespace VtopEngine.Adapters

open List

/-- A change of identity or length under a read position. -/
inductive Discontinuity
  | Rotated (previous current : Nat)
  | Truncated (readByte observed size : Nat)
  deriving DecidableEq, Repr

/-- What a cursor last observed of its file. -/
structure Observed where
  inode : Option Nat
  size : Nat
  deriving DecidableEq, Repr

/-- Can `readByte` still be applied to the file at the path?  An unknown inode on
    either side proves no rotation; the length tests need no identity. -/
def check (lastSeen : Option Observed) (currentInode : Option Nat) (currentSize readByte : Nat) : Option Discontinuity :=
  let shrunkBelow := (lastSeen.map Observed.size).getD 0
  let truncated :=
    if currentSize < max readByte shrunkBelow then some (.Truncated readByte shrunkBelow currentSize) else none
  match lastSeen.bind Observed.inode, currentInode with
  | some previous, some current => if previous ≠ current then some (.Rotated previous current) else truncated
  | _, _ => truncated

/-- Does a range that ends at `endByte` still describe the file at the path? -/
def commitIsCurrent (markerInode currentInode : Option Nat) (currentSize endByte : Nat) : Bool :=
  match markerInode, currentInode with
  | some marker, some current => marker = current ∧ endByte ≤ currentSize
  | _, _ => endByte ≤ currentSize

/-- A file that has only grown under its inode is continuous. -/
theorem check_grown (sameInode : ∀ seen ∈ lastSeen, seen.inode = inode ∨ seen.inode = none)
    (grown : ∀ seen ∈ lastSeen, seen.size ≤ size) (within : readByte ≤ size) :
    check lastSeen inode size readByte = none := by
  have notShrunk : ¬size < max readByte ((lastSeen.map Observed.size).getD 0) := by
    cases lastSeen with
    | none => simpa using within
    | some seen =>
      have grown := grown seen rfl
      simp only [Option.map_some, Option.getD_some]
      omega
  unfold check
  simp only [if_neg notShrunk]
  split
  case h_1 previous current isPrevious =>
    obtain ⟨seen, isSeen, isInode⟩ := Option.bind_eq_some_iff.mp isPrevious
    -- Both inodes are known, so the one last seen is the file's.
    have same : previous = current := by
      rcases sameInode seen isSeen with same | unknown
      · simpa [isInode] using same
      · simp [isInode] at unknown
    rw [if_neg (by simpa using same)]
  case h_2 => rfl

/-! ## Generations -/

/-- A range handed to the engine, and the generation it was read in. -/
structure Issued where
  (start finish generation : Nat)
  deriving DecidableEq, Repr

structure Generations where
  current : Nat := 0
  issued : List Issued := []
  deriving DecidableEq, Repr

/-- With more uncommitted ranges than this the oldest records are dropped. -/
def MAX_ISSUED : Nat := 256

/-- What a commit's range turned out to be. -/
inductive Settled
  | Current | Stale | Unknown
  deriving DecidableEq, Repr

namespace Generations

/-- The file under the cursor was replaced or truncated. -/
def discontinuity (generations : Generations) : Generations := { generations with current := generations.current + 1 }

/-- A range was handed to the engine, read in the current generation. -/
def issue (generations : Generations) (start finish : Nat) : Generations :=
  if finish ≤ start then generations else
    let kept :=
      if MAX_ISSUED ≤ generations.issued.length then generations.issued.drop 1 else generations.issued
    { generations with issued := kept ++ [⟨start, finish, generations.current⟩] }

/-- A rewind hands these bytes out again: forget the earlier issue. -/
def reissueFrom (generations : Generations) (start : Nat) : Generations :=
  { generations with issued := generations.issued.filter (·.start < start) }

/-- Settle a commit of a range.  The oldest matching record is taken, and with it the
    earlier ones of its generation. -/
def settle (generations : Generations) (start finish : Nat) : Settled × Generations :=
  match generations.issued.span fun issued => ¬(issued.start = start ∧ issued.finish = finish) with
  | (_, []) => (.Unknown, generations)
  | (before, issued :: after) =>
    (if issued.generation = generations.current then .Current else .Stale,
      { generations with issued := before.filter (·.generation ≠ issued.generation) ++ after })

variable {generations : Generations} {start finish : Nat}

section

variable (generations : Generations)

@[simp] theorem discontinuity_current :
    generations.discontinuity.current = generations.current + 1 := rfl

@[simp] theorem issue_current (start finish : Nat) : (generations.issue start finish).current = generations.current := by
  unfold issue
  split <;> rfl

@[simp] theorem settle_current (start finish : Nat) : (generations.settle start finish).2.current = generations.current := by
  unfold settle
  split <;> rfl

end

variable {issued : Issued}

/-- A new record is of the range and the current generation; the others were there. -/
theorem mem_issue (member : issued ∈ (generations.issue start finish).issued) :
    issued ∈ generations.issued ∨ start < finish ∧ issued = ⟨start, finish, generations.current⟩ := by
  unfold issue at member
  split at member
  case isTrue => exact .inl member
  case isFalse nonempty =>
    rw [mem_append, mem_singleton] at member
    rcases member with kept | rfl
    · split at kept
      · exact .inl (mem_of_mem_drop kept)
      · exact .inl kept
    · exact .inr ⟨by omega, rfl⟩

theorem mem_reissueFrom (member : issued ∈ (generations.reissueFrom start).issued) : issued ∈ generations.issued :=
  mem_of_mem_filter member

/-- A commit's range is on no record, or the oldest record of it is taken. -/
theorem settle_cases (generations : Generations) (start finish : Nat) :
    (generations.settle start finish = (.Unknown, generations) ∧
      ∀ issued ∈ generations.issued, ¬(issued.start = start ∧ issued.finish = finish)) ∨
    ∃ before generation after, generations.issued = before ++ ⟨start, finish, generation⟩ :: after ∧
      generations.settle start finish = (if generation = generations.current then .Current else .Stale,
          { generations with issued := before.filter (·.generation ≠ generation) ++ after }) := by
  have split := takeWhile_append_dropWhile
    (p := fun issued : Issued => ¬(issued.start = start ∧ issued.finish = finish)) (l := generations.issued)
  unfold settle
  rw [span_eq_takeWhile_dropWhile]
  cases found : generations.issued.dropWhile fun issued => ¬(issued.start = start ∧ issued.finish = finish) with
  | nil =>
    refine .inl ⟨rfl, fun issued member => ?_⟩
    exact of_decide_eq_true (dropWhile_eq_nil_iff.mp found issued member)
  | cons issued after =>
    have matching := head?_dropWhile_not (fun issued : Issued => ¬(issued.start = start ∧ issued.finish = finish))
      generations.issued
    rw [found] at matching
    obtain ⟨rfl, rfl⟩ : issued.start = start ∧ issued.finish = finish := by simpa using matching
    rw [found] at split
    exact .inr ⟨_, issued.generation, after, split.symm, rfl⟩

theorem mem_settle (member : issued ∈ (generations.settle start finish).2.issued) : issued ∈ generations.issued := by
  rcases generations.settle_cases start finish with ⟨isUnknown, -⟩ | ⟨before, generation, after, isIssued, settled⟩
  · rwa [isUnknown] at member
  · rw [settled] at member
    rw [isIssued]
    rcases mem_append.mp member with early | late
    · exact mem_append_left _ (mem_of_mem_filter early)
    · exact mem_append_right _ (mem_cons_of_mem _ late)

theorem settle_ne_unknown (member : issued ∈ generations.issued) (isStart : issued.start = start)
    (isFinish : issued.finish = finish) : (generations.settle start finish).1 ≠ .Unknown := by
  rcases generations.settle_cases start finish with ⟨-, none⟩ | ⟨before, generation, after, -, settled⟩
  · exact absurd ⟨isStart, isFinish⟩ (none issued member)
  · rw [settled]
    split <;> nofun

/-- A range settles as current only by a record of the current generation. -/
theorem mem_of_settle_current (isCurrent : (generations.settle start finish).1 = .Current) :
    ⟨start, finish, generations.current⟩ ∈ generations.issued := by
  rcases generations.settle_cases start finish with ⟨isUnknown, -⟩ | ⟨before, generation, after, isIssued, settled⟩
  · simp [isUnknown] at isCurrent
  · have sameGeneration : generation = generations.current := by
      by_contra differs
      simp [settled, differs] at isCurrent
    rw [isIssued, ← sameGeneration]
    exact mem_append_right _ mem_cons_self

end Generations

end VtopEngine.Adapters
