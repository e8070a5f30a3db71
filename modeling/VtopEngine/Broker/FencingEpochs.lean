import VtopEngine.Lib.Timeline

/-! # The fencing-epoch vector

Which fencing epoch wrote each stretch of a replica's log (`fencing_epochs.rs`): a
durable list of epochs with the offset each of them starts at, and how two replicas
compare their lists.

* `EpochVector` — the entries, with their order.
* `FencingEpochJournal` — the vector and the file it is kept in.
* `compareLineage`, `clampLineage` — the verdict on two histories, and the history of a
  window only.
* `epochOwning_eq_below`, `epochOwning_ne_at`, `epochOwning_eq_of_agreed` — what a verdict
  says about who wrote which offset.
* `lineage_verdicts` — all that the verdict on two histories and their clamps says.
-/

namespace VtopEngine.Broker

open Lib Timeline List

/-- The bound of the wire on one vector, and of the journal (`MAX_ENTRIES`). -/
def MAX_REPLICA_EPOCH_STARTS : Nat := 4096

/-- One epoch's first offset on a replica. -/
structure EpochStart where
  (epoch startOffset : Nat)
  deriving DecidableEq, Repr

inductive Lineage
  | Agreed
  | DivergesAt (offset : Nat)
  | Unknown
  deriving DecidableEq, Repr

inductive JournalError
  | EpochJournalCorrupt (message : String)
  | Io
  deriving DecidableEq, Repr

/-- Epochs go up, and no epoch starts below an earlier one. -/
def Ordered (entries : List EpochStart) : Prop :=
  entries.Pairwise fun first second => first.epoch < second.epoch ∧ first.startOffset ≤ second.startOffset

instance (entries : List EpochStart) : Decidable (Ordered entries) :=
  inferInstanceAs (Decidable (entries.Pairwise _))

/-! ## Comparing two histories -/

/-- An entry that starts where the last one does takes its place. -/
def absorb (canonical : List EpochStart) (entry : EpochStart) : List EpochStart :=
  match canonical.getLast? with
  | some last =>
    if last.startOffset = entry.startOffset then canonical.dropLast ++ [entry] else canonical ++ [entry]
  | none => canonical ++ [entry]

def canonicalizeLineage (entries : List EpochStart) : List EpochStart := entries.foldl absorb []

/-- The loop of `compareLineage`, with the number of pairs it found equal. -/
def compareFrom (compared : Nat) : List EpochStart → List EpochStart → Lineage
  | mine :: restMine, theirs :: restTheirs =>
    if mine.epoch ≠ theirs.epoch ∨ mine.startOffset ≠ theirs.startOffset then
      .DivergesAt (min mine.startOffset theirs.startOffset)
    else compareFrom (compared + 1) restMine restTheirs
  | _, _ => if compared = 0 then .Unknown else .Agreed

def compareLineage (entries other : List EpochStart) : Lineage :=
  compareFrom 0 (canonicalizeLineage entries) (canonicalizeLineage other)

/-- The history that governs exactly the offsets from `base` up to `tail`. -/
def clampLineage (entries : List EpochStart) (base tail : Nat) : List EpochStart :=
  if tail ≤ base then []
  else
    match entries.reverse.find? fun entry => entry.startOffset ≤ base with
    | none => []
    | some owner =>
      (entries.filter fun entry => base < entry.startOffset ∧ entry.startOffset < tail).foldl absorb
        [{ epoch := owner.epoch, startOffset := base }]

/-- Which epoch wrote the record at an offset, as far as the vector can say. -/
def epochOwning (entries : List EpochStart) (offset : Nat) : Option Nat :=
  (entries.reverse.find? fun entry => entry.startOffset ≤ offset).map EpochStart.epoch

/-! ## The vector and its file -/

theorem Ordered.le_last (ordered : Ordered entries) (isLast : entries.getLast? = some last) (member : entry ∈ entries) :
    entry.epoch ≤ last.epoch ∧ entry.startOffset ≤ last.startOffset := by
  obtain ⟨before, rfl⟩ := getLast?_eq_some_iff.mp isLast
  rcases mem_append.mp member with earlier | same
  · obtain ⟨epoch, start⟩ := (pairwise_append.mp ordered).2.2 entry earlier last mem_cons_self
    exact ⟨Nat.le_of_lt epoch, start⟩
  · rw [mem_singleton.mp same]
    exact ⟨Nat.le_refl _, Nat.le_refl _⟩

structure EpochVector where
  entries : List EpochStart
  ordered : Ordered entries

namespace EpochVector

def empty : EpochVector := ⟨[], .nil⟩

def latest (vector : EpochVector) : Option EpochStart := vector.entries.getLast?

/-- What the next entry has to advance on. -/
def Admits (vector : EpochVector) (entry : EpochStart) : Prop :=
  ∀ last, vector.latest = some last → last.epoch < entry.epoch ∧ last.startOffset ≤ entry.startOffset

theorem ordered_push {vector : EpochVector} (admitted : vector.Admits entry) : Ordered (vector.entries ++ [entry]) := by
  refine pairwise_append.mpr ⟨vector.ordered, pairwise_singleton _ _, fun earlier member later isEntry => ?_⟩
  obtain rfl := mem_singleton.mp isEntry
  have isLast := getLast?_eq_some_getLast (ne_nil_of_mem member)
  obtain ⟨epoch, start⟩ := vector.ordered.le_last isLast member
  obtain ⟨nextEpoch, nextStart⟩ := admitted _ isLast
  exact ⟨by omega, by omega⟩

def push (vector : EpochVector) (entry : EpochStart) (admitted : vector.Admits entry) : EpochVector :=
  ⟨vector.entries ++ [entry], ordered_push admitted⟩

/-- The entries that start below an offset; they are the first ones. -/
def below (vector : EpochVector) (offset : Nat) : EpochVector :=
  ⟨vector.entries.takeWhile fun entry => entry.startOffset < offset, vector.ordered.sublist (List.takeWhile_sublist _)⟩

end EpochVector

/-- What the next write to a file does: it is durable, or it fails with its bytes lost or already in the file. -/
inductive FileWrite
  | durable | lost | unsynced
  deriving DecidableEq, Repr

/-- The vector, and the whole entries its file holds.  A journal that was never poisoned has written what it says. -/
structure FencingEpochJournal where
  vector : EpochVector
  poisoned : Bool
  file : EpochVector
  nextWrite : FileWrite
  synced : poisoned = false → file = vector

namespace FencingEpochJournal

def entries (journal : FencingEpochJournal) : List EpochStart := journal.vector.entries

def latest (journal : FencingEpochJournal) : Option EpochStart := journal.vector.latest

/-- A journal over a file of whole entries: a fragment at its end was cut off. -/
def opened (file : EpochVector) : FencingEpochJournal :=
  { vector := file, poisoned := false, file, nextWrite := .durable, synced := fun _ => rfl }

def corrupt (message : String) : JournalError := .EpochJournalCorrupt ("fencing-epoch journal: " ++ message)

/-- Make a new vector durable, or poison the journal. -/
def replace (journal : FencingEpochJournal) (vector : EpochVector) : FencingEpochJournal × Except JournalError Unit :=
  match journal.nextWrite with
  | .durable => ({ journal with vector, file := vector, synced := fun _ => rfl }, .ok ())
  | .lost => ({ journal with poisoned := true, synced := nofun }, .error .Io)
  | .unsynced => ({ journal with poisoned := true, file := vector, synced := nofun }, .error .Io)

/-- The part of `record` that writes. -/
def append (journal : FencingEpochJournal) (entry : EpochStart) (admitted : journal.vector.Admits entry) :
    FencingEpochJournal × Except JournalError Unit :=
  if MAX_REPLICA_EPOCH_STARTS ≤ journal.entries.length then
    (journal, .error (corrupt
      s!"journal holds {MAX_REPLICA_EPOCH_STARTS} epochs; a range changing leadership this often needs an operator, not a larger file"))
  else journal.replace (journal.vector.push entry admitted)

def record (journal : FencingEpochJournal) (epoch startOffset : Nat) : FencingEpochJournal × Except JournalError Unit :=
  if journal.poisoned then
    (journal, .error (corrupt
      "a previous append failed; this journal may hold a partial record and must be reopened before it is written again"))
  else
    match isLatest : journal.latest with
    | none => journal.append ⟨epoch, startOffset⟩ fun last isLast => by cases isLatest.symm.trans isLast
    | some last =>
      if same : epoch = last.epoch then
        if startOffset ≠ last.startOffset then
          let recorded := last.startOffset
          (journal, .error (corrupt
            s!"epoch {epoch} already starts at {recorded} on this replica; refusing to re-record it at {startOffset}"))
        else (journal, .ok ())
      else if stale : epoch < last.epoch then (journal, .ok ())
      else if backwards : startOffset < last.startOffset then
        let (lastEpoch, lastStart) := (last.epoch, last.startOffset)
        (journal, .error (corrupt
          s!"epoch {epoch} would start at {startOffset}, below epoch {lastEpoch}'s start {lastStart}"))
      else
        journal.append ⟨epoch, startOffset⟩ fun last' isLast => by
          obtain rfl := Option.some.inj (isLatest.symm.trans isLast)
          exact ⟨Nat.lt_of_le_of_ne (Nat.not_lt.mp stale) (Ne.symm same), Nat.not_lt.mp backwards⟩

def recordAdoption (journal : FencingEpochJournal) (epoch startOffset : Nat) :
    FencingEpochJournal × Except JournalError Unit :=
  if journal.entries.any fun entry => entry.epoch = epoch then (journal, .ok ())
  else if journal.entries.isEmpty ∧ 0 < startOffset then (journal, .ok ())
  else journal.record epoch startOffset

/-- Drop every epoch that begins at or above an offset. -/
def truncateTo (journal : FencingEpochJournal) (offset : Nat) : FencingEpochJournal × Except JournalError Nat :=
  if journal.poisoned then
    (journal, .error (corrupt
      "a previous append failed; this journal may hold a partial record and must be reopened before it is rewritten"))
  else
    let kept := journal.vector.below offset
    let dropped := journal.entries.length - kept.entries.length
    if dropped = 0 then (journal, .ok 0)
    else
      let (journal', written) := journal.replace kept
      (journal', written.map fun _ => dropped)

/-- Record where the held epoch goes on, unless the vector says so already. -/
def recordHeldEpochAt (journal : FencingEpochJournal) (epoch offset : Nat) :
    FencingEpochJournal × Except JournalError Unit :=
  if epoch = 0 then (journal, .ok ())
  else if journal.latest.any fun last => epoch ≤ last.epoch then (journal, .ok ())
  else journal.record epoch offset

/-! What each operation can do.  A write that fails leaves the vector as it was. -/

variable {journal : FencingEpochJournal}

/-- The journal after a durable write. -/
def rewritten (journal : FencingEpochJournal) (vector : EpochVector) : FencingEpochJournal :=
  { journal with vector, file := vector, synced := fun _ => rfl }

section

variable (journal : FencingEpochJournal)

theorem replace_cases (vector) :
    ((journal.replace vector).2.isOk = false ∧ (journal.replace vector).1.vector = journal.vector)
      ∨ journal.replace vector = (journal.rewritten vector, .ok ()) := by
  unfold replace
  split
  case h_1 => exact .inr rfl
  case h_2 | h_3 => exact .inl ⟨rfl, rfl⟩

theorem record_cases (epoch startOffset) :
    ((journal.record epoch startOffset).2.isOk = false ∧ (journal.record epoch startOffset).1.vector = journal.vector)
      ∨ (journal.record epoch startOffset = (journal, .ok ()) ∧ ∃ last, journal.latest = some last ∧ epoch ≤ last.epoch)
      ∨ ∃ admitted, journal.record epoch startOffset
          = (journal.rewritten (journal.vector.push ⟨epoch, startOffset⟩ admitted), .ok ()) := by
  have appends (admitted : journal.vector.Admits ⟨epoch, startOffset⟩) :
      ((journal.append ⟨epoch, startOffset⟩ admitted).2.isOk = false
          ∧ (journal.append ⟨epoch, startOffset⟩ admitted).1.vector = journal.vector)
        ∨ ∃ admitted', journal.append ⟨epoch, startOffset⟩ admitted
          = (journal.rewritten (journal.vector.push ⟨epoch, startOffset⟩ admitted'), .ok ()) := by
    unfold append
    split
    · exact .inl ⟨rfl, rfl⟩
    · exact (replace_cases _ _).imp_right (⟨admitted, ·⟩)
  unfold record
  split
  · exact .inl ⟨rfl, rfl⟩
  split
  · exact (appends _).imp_right .inr
  case h_2 last isLatest =>
    split
    · split
      · exact .inl ⟨rfl, rfl⟩
      · exact .inr (.inl ⟨rfl, last, isLatest, by omega⟩)
    split
    · exact .inr (.inl ⟨rfl, last, isLatest, by omega⟩)
    split
    · exact .inl ⟨rfl, rfl⟩
    · exact (appends _).imp_right .inr

theorem recordAdoption_cases (epoch startOffset) : ((journal.recordAdoption epoch startOffset).2.isOk = false
        ∧ (journal.recordAdoption epoch startOffset).1.vector = journal.vector)
      ∨ (journal.recordAdoption epoch startOffset = (journal, .ok ())
        ∧ ((journal.entries = [] ∧ 0 < startOffset) ∨ ∃ entry ∈ journal.entries, epoch ≤ entry.epoch))
      ∨ ∃ admitted, (journal.entries = [] → startOffset = 0) ∧ journal.recordAdoption epoch startOffset
          = (journal.rewritten (journal.vector.push ⟨epoch, startOffset⟩ admitted), .ok ()) := by
  unfold recordAdoption
  split
  case isTrue known =>
    obtain ⟨entry, member, same⟩ := any_eq_true.mp known
    exact .inr (.inl ⟨rfl, .inr ⟨entry, member, by simpa using Nat.le_of_eq (Eq.symm (of_decide_eq_true same))⟩⟩)
  split
  case isTrue unknown => exact .inr (.inl ⟨rfl, .inl ⟨isEmpty_iff.mp unknown.1, unknown.2⟩⟩)
  case isFalse seeds =>
    have starts : journal.entries = [] → startOffset = 0 := by
      intro empty
      simpa [empty] using seeds
    rcases record_cases journal epoch startOffset with failed | ⟨same, last, isLast, later⟩ | ⟨admitted, written⟩
    · exact .inl failed
    · exact .inr (.inl ⟨same, .inr ⟨last, mem_of_getLast? isLast, later⟩⟩)
    · exact .inr (.inr ⟨admitted, starts, written⟩)

theorem recordHeldEpochAt_cases (epoch offset) : ((journal.recordHeldEpochAt epoch offset).2.isOk = false
        ∧ (journal.recordHeldEpochAt epoch offset).1.vector = journal.vector)
      ∨ (journal.recordHeldEpochAt epoch offset = (journal, .ok ())
        ∧ (epoch = 0 ∨ ∃ last, journal.latest = some last ∧ epoch ≤ last.epoch))
      ∨ ∃ admitted, journal.recordHeldEpochAt epoch offset
          = (journal.rewritten (journal.vector.push ⟨epoch, offset⟩ admitted), .ok ()) := by
  unfold recordHeldEpochAt
  split
  case isTrue none => exact .inr (.inl ⟨rfl, .inl none⟩)
  split
  case isTrue known =>
    cases isLast : journal.latest with
    | none => simp [isLast] at known
    | some last => exact .inr (.inl ⟨rfl, .inr ⟨last, rfl, by simpa [isLast] using known⟩⟩)
  case isFalse => exact (record_cases journal epoch offset).imp_right (.imp_left (.imp_right .inr))

/-- Truncation keeps exactly the entries below the cut, or fails. -/
theorem truncateTo_cases (offset) :
    ((journal.truncateTo offset).2.isOk = false ∧ (journal.truncateTo offset).1.vector = journal.vector)
      ∨ ((journal.truncateTo offset).2.isOk = true
        ∧ (journal.truncateTo offset).1 = journal.rewritten (journal.vector.below offset) ∧ journal.poisoned = false) := by
  unfold truncateTo
  split
  case isTrue => exact .inl ⟨rfl, rfl⟩
  case isFalse healthy =>
    have healthy : journal.poisoned = false := by simpa using healthy
    simp only
    split
    case isTrue none =>
      have whole : journal.vector.below offset = journal.vector := by
        have same : (journal.vector.below offset).entries = journal.vector.entries :=
          (takeWhile_sublist _).eq_of_length_le (Nat.le_of_sub_eq_zero none)
        cases below : journal.vector.below offset
        cases vector : journal.vector
        simp_all
      refine .inr ⟨rfl, ?_, healthy⟩
      rw [whole, rewritten]
      obtain ⟨vector, poisoned, file, nextWrite, synced⟩ := journal
      simp only [mk.injEq, and_true, true_and]
      exact synced healthy
    case isFalse =>
      rcases replace_cases journal (journal.vector.below offset) with ⟨failed, same⟩ | written
      · generalize journal.replace (journal.vector.below offset) = outcome at failed same
        obtain ⟨after, result⟩ := outcome
        cases result with
        | error problem => exact .inl ⟨rfl, same⟩
        | ok => cases failed
      · rw [written]
        exact .inr ⟨rfl, rfl, healthy⟩

end

end FencingEpochJournal

/-! ## What the verdicts say -/

open EpochStart

section Verdicts

variable {mine theirs : List EpochStart} {offset base tail : Nat}

theorem foldl_absorb (before last) (entries : List EpochStart) :
    entries.foldl absorb (before ++ [last]) = before ++ collapse startOffset (last :: entries) := by
  induction entries generalizing before last with
  | nil => rfl
  | cons entry rest ih =>
    rw [foldl_cons, absorb, getLast?_concat]
    by_cases same : last.startOffset = entry.startOffset
    · simp only [same, if_true, dropLast_concat, ih, collapse]
    · simp only [same, if_false]
      rw [ih, collapse, if_neg same, append_assoc, singleton_append]

theorem canonicalizeLineage_eq (entries) : canonicalizeLineage entries = collapse startOffset entries := by
  cases entries with
  | nil => rfl
  | cons entry rest => exact foldl_absorb [] entry rest

theorem clampLineage_eq (entries base tail) : clampLineage entries base tail
      = clamp startOffset (fun entry start => { entry with startOffset := start }) entries base tail := by
  unfold clampLineage clamp owner
  cases entries.reverse.find? fun entry => entry.startOffset ≤ base with
  | none => rfl
  | some owner =>
    simp only
    congr 1
    rw [← nil_append [_], foldl_absorb, nil_append]
    -- The anchor is not absorbed: what is left of the entries starts above the base.
    cases inside : entries.filter fun entry => base < entry.startOffset ∧ entry.startOffset < tail with
    | nil => rfl
    | cons next rest =>
      have above : next ∈ entries.filter fun entry => base < entry.startOffset ∧ entry.startOffset < tail := by
        rw [inside]
        exact mem_cons_self
      have starts : base < next.startOffset := by
        simp only [mem_filter, decide_eq_true_eq] at above
        exact above.2.1
      rw [collapse, if_neg (Nat.ne_of_lt starts)]

theorem compareFrom_eq (compared mine theirs) : compareFrom compared mine theirs
      = match firstDifference mine theirs with
        | some (first, second) => .DivergesAt (min first.startOffset second.startOffset)
        | none => if compared = 0 ∧ (mine = [] ∨ theirs = []) then .Unknown else .Agreed := by
  induction mine generalizing compared theirs with
  | nil => simp [compareFrom, firstDifference]
  | cons first restMine ih =>
    cases theirs with
    | nil => simp [compareFrom, firstDifference]
    | cons second restTheirs =>
      rw [compareFrom, firstDifference]
      by_cases same : first = second
      · subst same
        rw [if_neg (by simp), ih, if_pos rfl]
        simp
      · have differ : first.epoch ≠ second.epoch ∨ first.startOffset ≠ second.startOffset := by
          by_contra agree
          simp only [ne_eq, not_or, Decidable.not_not] at agree
          cases first
          cases second
          exact same (by simpa using agree)
        rw [if_pos differ, if_neg same]

theorem Ordered.ascending (ordered : Ordered mine) : Ascending startOffset mine := ordered.imp And.right

theorem Ordered.distinct (ordered : Ordered mine) : mine.Pairwise fun x y => x.epoch ≠ y.epoch :=
  ordered.imp fun later => Nat.ne_of_lt later.1

theorem EpochStart.told : ∀ x y : EpochStart, x.startOffset = y.startOffset → x.epoch = y.epoch → x = y
  | ⟨_, _⟩, ⟨_, _⟩, rfl, rfl => rfl

theorem Ordered.collapse (ordered : Ordered mine) : Ordered (collapse startOffset mine) :=
  ordered.sublist (collapse_sublist mine)

theorem Ordered.strictlyAscending (ordered : Ordered mine) :
    Timeline.StrictlyAscending startOffset (Timeline.collapse startOffset mine) :=
  Timeline.collapse_strictlyAscending ordered.ascending

theorem epochOwning_collapse (mine offset) : epochOwning (collapse startOffset mine) offset = epochOwning mine offset :=
  congrArg (Option.map epoch) (owner_collapse mine offset)

theorem compareLineage_eq (mine theirs) : compareLineage mine theirs
      = match firstDifference (collapse startOffset mine) (collapse startOffset theirs) with
        | some (first, second) => .DivergesAt (min first.startOffset second.startOffset)
        | none => if mine = [] ∨ theirs = [] then .Unknown else .Agreed := by
  have empty (entries : List EpochStart) : collapse startOffset entries = [] ↔ entries = [] := by
    rw [← getLast?_eq_none_iff, getLast?_collapse, getLast?_eq_none_iff]
  rw [compareLineage, canonicalizeLineage_eq, canonicalizeLineage_eq, compareFrom_eq]
  simp [empty]

variable {divergence : Nat}

theorem compareLineage_divergesAt (verdict : compareLineage mine theirs = .DivergesAt divergence) :
    ∃ first second, firstDifference (collapse startOffset mine) (collapse startOffset theirs) = some (first, second)
      ∧ divergence = min first.startOffset second.startOffset := by
  rw [compareLineage_eq] at verdict
  split at verdict
  case h_1 first second parts => exact ⟨first, second, parts, (Lineage.DivergesAt.inj verdict).symm⟩
  case h_2 => split at verdict <;> cases verdict

theorem compareLineage_unknown : compareLineage mine theirs = .Unknown ↔ mine = [] ∨ theirs = [] := by
  rw [compareLineage_eq]
  constructor
  · intro verdict
    split at verdict
    · cases verdict
    · by_contra known
      rw [if_neg known] at verdict
      cases verdict
  · rintro (rfl | rfl)
    · simp [collapse, firstDifference]
    · simp [collapse, firstDifference]

theorem compareLineage_agreed (verdict : compareLineage mine theirs = .Agreed) : firstDifference (collapse startOffset mine)
      (collapse startOffset theirs) = none ∧ mine ≠ [] ∧ theirs ≠ [] := by
  have known : ¬(mine = [] ∨ theirs = []) := fun unknown => by
    rw [compareLineage_unknown.mpr unknown] at verdict
    cases verdict
  rw [compareLineage_eq] at verdict
  split at verdict
  · cases verdict
  · exact ⟨‹_›, not_or.mp known⟩

/-- Neither side of a comparison matters more. -/
theorem compareLineage_comm (mine theirs) : compareLineage theirs mine = compareLineage mine theirs := by
  rw [compareLineage_eq, compareLineage_eq, firstDifference_comm]
  cases firstDifference (collapse startOffset mine) _ with
  | none => simp only [Option.map_none, or_comm]
  | some parts => exact congrArg Lineage.DivergesAt (Nat.min_comm _ _)

/-- Below the divergence both histories name the same writer. -/
theorem epochOwning_eq_below (ordered : Ordered mine) (ordered' : Ordered theirs)
    (verdict : compareLineage mine theirs = .DivergesAt divergence) (below : offset < divergence) :
    epochOwning mine offset = epochOwning theirs offset := by
  obtain ⟨first, second, parts, rfl⟩ := compareLineage_divergesAt verdict
  rw [← epochOwning_collapse mine, ← epochOwning_collapse theirs]
  exact congrArg (Option.map epoch) (owner_eq_below ordered.collapse.ascending ordered'.collapse.ascending parts below)

/-- At the divergence they do not. -/
theorem epochOwning_ne_at (ordered : Ordered mine) (ordered' : Ordered theirs)
    (verdict : compareLineage mine theirs = .DivergesAt divergence) :
    epochOwning mine divergence ≠ epochOwning theirs divergence := by
  obtain ⟨first, second, parts, rfl⟩ := compareLineage_divergesAt verdict
  rw [← epochOwning_collapse mine, ← epochOwning_collapse theirs]
  exact owner_ne_at ⟨ordered.strictlyAscending, ordered.collapse.distinct⟩
    ⟨ordered'.strictlyAscending, ordered'.collapse.distinct⟩ told parts

/-- A history that stops where its own last epoch does is the whole of the one it begins. -/
theorem Ordered.eq_of_prefix (ordered : Ordered theirs) (begins : mine <+: theirs) (known : mine ≠ [])
    (sameLast : mine.getLast?.map epoch = theirs.getLast?.map epoch) : mine = theirs := by
  obtain ⟨rest, rfl⟩ := begins
  cases rest with
  | nil => rw [append_nil]
  | cons next rest =>
    -- The last of the rest would be above the last of the beginning.
    have isLast := getLast?_eq_some_getLast known
    have restLast := getLast?_eq_some_getLast (cons_ne_nil next rest)
    have above := (pairwise_append.mp ordered).2.2 _ (getLast_mem known) _ (getLast_mem (cons_ne_nil next rest))
    rw [getLast?_append, restLast, isLast] at sameLast
    simp only [Option.map_some, Option.some_or, Option.some.injEq] at sameLast
    omega

/-- Two histories that agree and end with the same epoch name the same writer everywhere. -/
theorem epochOwning_eq_of_agreed (ordered : Ordered mine) (ordered' : Ordered theirs)
    (verdict : compareLineage mine theirs = .Agreed)
    (sameLast : mine.getLast?.map epoch = theirs.getLast?.map epoch) (offset) :
    epochOwning mine offset = epochOwning theirs offset := by
  obtain ⟨unparted, known, known'⟩ := compareLineage_agreed verdict
  have nonempty {entries : List EpochStart} (known : entries ≠ []) : collapse startOffset entries ≠ [] := by
    rwa [ne_eq, ← getLast?_eq_none_iff, getLast?_collapse, getLast?_eq_none_iff]
  have same : collapse startOffset mine = collapse startOffset theirs := by
    rcases firstDifference_eq_none unparted with begins | begins
    · exact ordered'.collapse.eq_of_prefix begins (nonempty known) (by simpa only [getLast?_collapse])
    · exact (ordered.collapse.eq_of_prefix begins (nonempty known')
        (by simpa only [getLast?_collapse] using sameLast.symm)).symm
  rw [← epochOwning_collapse mine, same, epochOwning_collapse]

/-- Histories of a window are equal exactly if they name the same writer in all of it. -/
theorem clampLineage_eq_iff (ordered : Ordered mine) (ordered' : Ordered theirs)
    (vouched : clampLineage mine base tail ≠ []) (vouched' : clampLineage theirs base tail ≠ []) :
    clampLineage mine base tail = clampLineage theirs base tail ↔
      ∀ offset, base ≤ offset → offset < tail → epochOwning mine offset = epochOwning theirs offset := by
  rw [clampLineage_eq] at vouched vouched'
  rw [clampLineage_eq, clampLineage_eq]
  exact clamp_eq_iff (fun _ _ => rfl) (fun _ _ => rfl) told ordered.ascending ordered'.ascending
    ordered.distinct ordered'.distinct vouched vouched'

theorem clampLineage_eq_nil (window : base < tail) : clampLineage mine base tail = [] ↔ epochOwning mine base = none := by
  rw [clampLineage_eq, clamp_eq_nil window]
  exact Option.map_eq_none_iff.symm

/-- The verdict on two histories, and what their clamps to a window say. -/
theorem lineage_verdicts (mine theirs : List EpochStart) (ordered : Ordered mine) (ordered' : Ordered theirs) :
    (compareLineage mine theirs = .Unknown ↔ mine = [] ∨ theirs = []) ∧
      (∀ divergence, compareLineage mine theirs = .DivergesAt divergence →
        epochOwning mine divergence ≠ epochOwning theirs divergence ∧
          ∀ offset < divergence, epochOwning mine offset = epochOwning theirs offset) ∧
      (compareLineage mine theirs = .Agreed → canonicalizeLineage mine <+: canonicalizeLineage theirs ∨
        canonicalizeLineage theirs <+: canonicalizeLineage mine) ∧
      compareLineage theirs mine = compareLineage mine theirs ∧
      ∀ base tail, base < tail → clampLineage mine base tail ≠ [] → clampLineage theirs base tail ≠ [] →
        (clampLineage mine base tail = clampLineage theirs base tail ↔
          ∀ offset, base ≤ offset → offset < tail → epochOwning mine offset = epochOwning theirs offset) := by
  refine ⟨compareLineage_unknown, fun divergence verdict => ⟨epochOwning_ne_at ordered ordered' verdict, fun offset =>
    epochOwning_eq_below ordered ordered' verdict⟩, fun verdict => ?_, compareLineage_comm mine theirs,
    fun base tail _ => clampLineage_eq_iff ordered ordered'⟩
  rw [canonicalizeLineage_eq, canonicalizeLineage_eq]
  exact Timeline.firstDifference_eq_none (compareLineage_agreed verdict).1

/-- One replica recorded an idle adoption that the other did not; a later epoch starts elsewhere. -/
theorem lineage_verdicts_idle : compareLineage [⟨1, 0⟩, ⟨2, 4⟩, ⟨3, 4⟩, ⟨5, 9⟩] [⟨1, 0⟩, ⟨3, 4⟩, ⟨5, 7⟩] = .DivergesAt 7 ∧
      epochOwning [⟨1, 0⟩, ⟨2, 4⟩, ⟨3, 4⟩, ⟨5, 9⟩] 7 ≠ epochOwning [⟨1, 0⟩, ⟨3, 4⟩, ⟨5, 7⟩] 7 :=
  ⟨by decide, ((lineage_verdicts _ _ (by decide) (by decide)).2.1 7 (by decide)).1⟩

end Verdicts

end VtopEngine.Broker
