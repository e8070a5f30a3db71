import Mathlib.Data.List.Basic
import VtopEngine.Lib.KeyedTable
import VtopEngine.Lib.Runs
import VtopEngine.State.ClaimFence

/-! # The batch ledger

The ledger shared by engine processes (`sqlite_store.rs`): every SQL statement is atomic,
and a process keeps the claim generations it holds in a fence of its own.  A store
operation is a task that runs section by section, a section being one statement or one
call on the fence; sections of any number of processes interleave, and a task can be
dropped between two of them.

* `Task.run` — one section of an operation.
* `Ledger.step` — one event of the ledger and its processes.
* `Owned` — a held generation is the row's own only for the process that claimed last.
* `Lawful` — what one event may do to a row.
-/

namespace VtopEngine.State

open VtopEngine.Core Lib Task KeyedTable List Option Function

/-! ## Rows and statements -/

/-- A row of `batches`; every claim raises its generation. -/
structure LedgerRow extends BatchRecord where
  claimGen : Nat
  deriving DecidableEq, Repr

abbrev Batches := KeyedTable fun row : LedgerRow => row.batchId

namespace LedgerRow

/-- The condition of the claiming statement. -/
def Claimable (row : LedgerRow) (owner : String) (now : Int) : Prop :=
  row.state ≠ .SourceCommitted ∧
    (row.owner = none ∨ row.owner = some owner ∨ row.leaseExpiresAt = none ∨ ∃ lease ∈ row.leaseExpiresAt, lease ≤ now)

instance (row : LedgerRow) (owner : String) (now : Int) : Decidable (row.Claimable owner now) :=
  inferInstanceAs (Decidable (_ ∧ _))

def claimed (row : LedgerRow) (owner : String) (now leaseUntil : Int) : LedgerRow :=
  if row.Claimable owner now then
    { row with
      owner := some owner, leaseExpiresAt := some leaseUntil, updatedAt := now, claimGen := row.claimGen + 1 }
  else row

/-- The condition of the updating statement: the state it was validated against and the generation held. -/
def Matches (row : LedgerRow) (batchId : String) (current : BatchState) (held : Nat) : Prop :=
  row.batchId = batchId ∧ row.state = current ∧ row.claimGen = held

instance (row : LedgerRow) (batchId : String) (current : BatchState) (held : Nat) :
    Decidable (row.Matches batchId current held) :=
  inferInstanceAs (Decidable (_ ∧ _))

/-- A column of the patch that is null leaves the row's. -/
def patched (row : LedgerRow) (target : BatchState) (patch : BatchPatch) (now : Int) : LedgerRow :=
  { row with
    state := target
    objectUri := patch.objectUri <|> row.objectUri
    manifestUri := patch.manifestUri <|> row.manifestUri
    objectSha256 := patch.objectSha256 <|> row.objectSha256
    manifestSha256 := patch.manifestSha256 <|> row.manifestSha256
    manifestVersionId := patch.manifestVersionId <|> row.manifestVersionId
    objectSizeBytes := patch.objectSizeBytes <|> row.objectSizeBytes
    recordCount := patch.recordCount <|> row.recordCount
    errorMessage := patch.errorMessage <|> row.errorMessage
    updatedAt := now }

def updated (row : LedgerRow) (batchId : String) (current target : BatchState) (patch : BatchPatch) (held : Nat)
    (now : Int) : LedgerRow :=
  if row.Matches batchId current held then row.patched target patch now else row

/-- The path of the end marker, else the source's name. -/
def sourcePath (row : LedgerRow) : String :=
  match row.progressEnd with
  | .Kafka .. => row.sourceName
  | .File path .. | .SyslogSpool _ path .. => path

/-- Created later; equal times are ordered by id. -/
def NewerThan (row older : LedgerRow) : Prop :=
  older.createdAt.getD 0 < row.createdAt.getD 0 ∨ row.createdAt = older.createdAt ∧ older.batchId < row.batchId

instance (row older : LedgerRow) : Decidable (row.NewerThan older) := inferInstanceAs (Decidable (_ ∨ _))

/-- A committed row is pruned only behind a newer committed row of its source. -/
def prunable (table : Batches) (olderThan : Int) (row : LedgerRow) : Bool :=
  row.state = .SourceCommitted && decide (row.updatedAt < olderThan) &&
    table.rows.any fun newer => newer.state = .SourceCommitted && newer.sourceType = row.sourceType &&
      newer.sourcePath = row.sourcePath && decide (newer.NewerThan row)

theorem claimed_batchId (row : LedgerRow) (owner now leaseUntil) :
    (row.claimed owner now leaseUntil).batchId = row.batchId := by
  unfold claimed
  split <;> rfl

theorem claimed_state (row : LedgerRow) (owner now leaseUntil) : (row.claimed owner now leaseUntil).state = row.state := by
  unfold claimed
  split <;> rfl

theorem updated_batchId (row : LedgerRow) (batchId current target patch held now) :
    (row.updated batchId current target patch held now).batchId = row.batchId := by
  unfold updated
  split <;> rfl

end LedgerRow

/-! ## Operations of the store -/

/-- How often a write that matched no row is retried while the claim is still held. -/
def MAX_CONFLICT_RETRIES : Nat := 5

/-- What is left of a store operation. -/
inductive Task
  | insert (record : BatchRecord)
  | created (batchId : String)
  | claim (owner : String) (now leaseUntil : Int)
  | claimed (rows : List (String × Nat))
  | update (batchId : String) (target : BatchState) (patch : BatchPatch)
  | read (batchId : String) (target : BatchState) (patch : BatchPatch) (held : Option Nat) (attempt : Nat)
  | write (batchId : String) (current target : BatchState) (legal : canTransition current target = true)
      (patch : BatchPatch) (held attempt : Nat)
  | wrote (batchId : String) (target : BatchState) (held : Nat)
  | check (batchId : String) (target : BatchState) (patch : BatchPatch) (held attempt : Nat)
  | lost (batchId : String) (held : Nat)
  | prune (olderThan : Int) (batchIds : List String)
  deriving DecidableEq

/-- The table, the fence and what is left of the operation; an operation that answers, or fails, leaves nothing. -/
structure Outcome where
  table : Batches
  fence : Held
  task : Option Task

theorem transition_legal (isOk : transition current target = .ok validated) : canTransition current validated = true := by
  unfold transition at isOk
  split at isOk
  · cases isOk
  · split at isOk
    case isTrue legal =>
      cases isOk
      exact legal
    case isFalse => cases isOk

/-- A transition that was accepted, with why it was. -/
def validated (current target : BatchState) : Option { state : BatchState // canTransition current state = true } :=
  match isOk : transition current target with
  | .ok state => some ⟨state, transition_legal isOk⟩
  | .error _ => none

/-- The conditional write of a transition. -/
def writeRow (table : Batches) (batchId : String) (current target : BatchState) (patch : BatchPatch) (held : Nat)
    (now : Int) : Batches :=
  table.modify (fun row => row.updated batchId current target patch held now)
    fun row => row.updated_batchId batchId current target patch held now

def claimRows (table : Batches) (owner : String) (now leaseUntil : Int) : Batches :=
  table.modify (fun row => row.claimed owner now leaseUntil) fun row => row.claimed_batchId owner now leaseUntil

/-- The rows a claim returns, with the generations it set. -/
def returning (table : Batches) (owner : String) (now : Int) : List (String × Nat) :=
  (table.rows.filter fun row => row.Claimable owner now).map fun row => (row.batchId, row.claimGen + 1)

/-- One section of an operation: a statement, or a call on the fence.  `clock` is the time it runs at. -/
def Task.run (table : Batches) (fence : Held) (clock : Int) : Task → Outcome
  | .insert record =>
    if free : table.find record.batchId = none then
      ⟨table.insert { record with claimGen := 0 } free, fence, some (.created record.batchId)⟩
    -- A duplicate id violates the primary key.
    else ⟨table, fence, none⟩
  | .created batchId => ⟨table, fence.created batchId, none⟩
  | .claim owner now leaseUntil => ⟨claimRows table owner now leaseUntil, fence, some (.claimed (returning table owner now))⟩
  | .claimed [] => ⟨table, fence, none⟩
  | .claimed ((batchId, generation) :: rows) => ⟨table, fence.claimed batchId generation, some (.claimed rows)⟩
  | .update batchId target patch => ⟨table, fence, some (.read batchId target patch (fence.held batchId) 0)⟩
  | .read batchId target patch held attempt =>
    match table.find batchId with
    | none => ⟨table, fence, none⟩
    | some row =>
      match validated row.state target, held with
      | some ⟨validated, legal⟩, some held =>
        ⟨table, fence, some (.write batchId row.state validated legal patch held attempt)⟩
      -- The transition is illegal, or the process holds no token for the row.
      | _, _ => ⟨table, fence, none⟩
  | .write batchId current target _ patch held attempt =>
    if table.rows.any fun row => row.Matches batchId current held then
      ⟨writeRow table batchId current target patch held clock, fence, some (.wrote batchId target held)⟩
    else ⟨table, fence, some (.check batchId target patch held attempt)⟩
  | .wrote batchId target held => ⟨table, fence.wrote batchId target held, none⟩
  | .check batchId target patch held attempt =>
    match table.find batchId with
    | none => ⟨table, fence, none⟩
    | some row =>
      if held ≠ row.claimGen then ⟨table, fence, some (.lost batchId held)⟩
      else if MAX_CONFLICT_RETRIES < attempt + 1 then ⟨table, fence, none⟩
      else ⟨table, fence, some (.read batchId target patch (some held) (attempt + 1))⟩
  | .lost batchId held => ⟨table, fence.lost batchId held, none⟩
  | .prune olderThan batchIds =>
    ⟨table.keep fun row => !(batchIds.contains row.batchId && LedgerRow.prunable table olderThan row), fence, none⟩

/-! ## Processes -/

/-- The tokens a process holds and its operations in flight. -/
structure Process where
  fence : Held
  tasks : List Task

/-- The ledger and its processes.  `claimant` is the process of a row's most recent claim, or of its
insertion while it was never claimed; `inserted` holds every id inserted so far. -/
structure Ledger where
  table : Batches
  process : Nat → Process
  claimant : String → Nat
  inserted : List String

def Ledger.initial : Ledger := { table := .empty, process := fun _ => ⟨.empty, []⟩, claimant := fun _ => 0, inserted := [] }

/-- The operations the engine starts. -/
def Task.starts : Task → Bool
  -- A batch is inserted in its first state.
  | .insert record => record.state = .Batching
  | .claim .. | .update .. | .prune .. => true
  | _ => false

/-- An event of one process: an operation starts, runs one section, or is dropped at an await; the process
stops and loses its tokens. -/
inductive LedgerEvent
  | start (process : Nat) (task : Task)
  | advance (process : Nat) (task : Task) (clock : Int)
  | drop (process : Nat) (task : Task)
  | stop (process : Nat)

namespace Ledger

def set (ledger : Ledger) (process : Nat) (state : Process) : Ledger :=
  { ledger with process := update ledger.process process state }

/-- The process a section makes the claimant of a row. -/
def claimantAfter (ledger : Ledger) (process : Nat) (task : Task) (batchId : String) : Nat :=
  match task with
  | .insert record =>
    if record.batchId = batchId ∧ ledger.table.find batchId = none then process else ledger.claimant batchId
  | .claim owner now _ =>
    if ∃ row ∈ ledger.table.find batchId, row.Claimable owner now then process else ledger.claimant batchId
  | _ => ledger.claimant batchId

def insertedAfter (ledger : Ledger) : Task → List String
  | .insert record => record.batchId :: ledger.inserted
  | _ => ledger.inserted

/-- An id is minted once, with random digits at its end: an insertion that names an id used before finds the
row still there, and fails; it does not name a row that was pruned. -/
def mints (ledger : Ledger) : Task → Bool
  | .insert record => (ledger.table.find record.batchId).isSome || !ledger.inserted.contains record.batchId
  | _ => true

/-- One section of an operation of `process`. -/
def advanced (ledger : Ledger) (process : Nat) (task : Task) (clock : Int) : Ledger :=
  let outcome := task.run ledger.table (ledger.process process).fence clock
  let tasks := outcome.task.toList ++ (ledger.process process).tasks.erase task
  { table := outcome.table
    process := update ledger.process process ⟨outcome.fence, tasks⟩
    claimant := ledger.claimantAfter process task
    inserted := ledger.insertedAfter task }

def step (ledger : Ledger) : LedgerEvent → Option Ledger
  | .start process task =>
    if task.starts then
      some (ledger.set process { ledger.process process with tasks := task :: (ledger.process process).tasks })
    else none
  | .advance process task clock =>
    if task ∈ (ledger.process process).tasks ∧ ledger.mints task then some (ledger.advanced process task clock)
    else none
  | .drop process task =>
    some (ledger.set process { ledger.process process with tasks := (ledger.process process).tasks.erase task })
  | .stop process => some (ledger.set process ⟨.empty, []⟩)

end Ledger

/-! ## What one section does to a row -/

/-- What a section of `process` can make of the row `batchId` and of its claimant. -/
inductive RowChange (ledger : Ledger) (process : Nat) (task : Task) (clock : Int) (batchId : String) :
    Option LedgerRow → Nat → Prop
  | same : RowChange ledger process task clock batchId (ledger.table.find batchId) (ledger.claimant batchId)
  | inserted (record : BatchRecord) (isInsert : task = .insert record) (isId : record.batchId = batchId)
      (absent : ledger.table.find batchId = none) :
      RowChange ledger process task clock batchId (some { record with claimGen := 0 }) process
  | claimed (owner : String) (now leaseUntil : Int) (row : LedgerRow) (isClaim : task = .claim owner now leaseUntil)
      (found : ledger.table.find batchId = some row) (claimable : row.Claimable owner now) :
      RowChange ledger process task clock batchId (some (row.claimed owner now leaseUntil)) process
  | written (current target : BatchState) (legal : canTransition current target = true) (patch : BatchPatch)
      (held attempt : Nat) (row : LedgerRow) (isWrite : task = .write batchId current target legal patch held attempt)
      (found : ledger.table.find batchId = some row) (isMatch : row.Matches batchId current held) :
      RowChange ledger process task clock batchId (some (row.patched target patch clock)) (ledger.claimant batchId)
  | pruned (olderThan : Int) (batchIds : List String) (row : LedgerRow) (isPrune : task = .prune olderThan batchIds)
      (found : ledger.table.find batchId = some row) (committed : row.state = .SourceCommitted) :
      RowChange ledger process task clock batchId none (ledger.claimant batchId)

open LedgerRow

variable {ledger : Ledger} {clock : Int} {batchId : String}

section RowChange

theorem RowChange.of_same (sameTable : table = ledger.table) (sameClaimant : claimant = ledger.claimant batchId) :
    RowChange ledger process task clock batchId (table.find batchId) claimant := by
  rw [sameTable, sameClaimant]
  exact .same

theorem rowChange_insert (record) : RowChange ledger process (.insert record) clock batchId
      ((Task.run ledger.table fence clock (.insert record)).table.find batchId)
      (ledger.claimantAfter process (.insert record) batchId) := by
  simp only [Task.run, Ledger.claimantAfter]
  split
  case isTrue free =>
    rw [find_insert]
    by_cases isId : record.batchId = batchId
    · have absent : ledger.table.find batchId = none := isId ▸ free
      rw [if_pos isId, if_pos ⟨isId, absent⟩]
      exact .inserted record rfl isId absent
    · rw [if_neg isId, if_neg fun both => isId both.1]
      exact .same
  case isFalse taken =>
    refine .of_same rfl (if_neg ?_)
    rintro ⟨rfl, absent⟩
    exact taken absent

theorem rowChange_claim (owner now leaseUntil) : RowChange ledger process (.claim owner now leaseUntil) clock batchId
      ((Task.run ledger.table fence clock (.claim owner now leaseUntil)).table.find batchId)
      (ledger.claimantAfter process (.claim owner now leaseUntil) batchId) := by
  simp only [Task.run, Ledger.claimantAfter, claimRows, KeyedTable.find_modify]
  cases found : ledger.table.find batchId with
  | none =>
    rw [if_neg (by simp), map_none, ← found]
    exact .same
  | some row =>
    rw [map_some]
    by_cases claimable : row.Claimable owner now
    · rw [if_pos ⟨row, rfl, claimable⟩]
      exact .claimed owner now leaseUntil row rfl found claimable
    · rw [if_neg (by simpa using claimable), claimed, if_neg claimable, ← found]
      exact .same

theorem rowChange_write (written current target legal patch held attempt) :
    RowChange ledger process (.write written current target legal patch held attempt) clock batchId
      ((Task.run ledger.table fence clock (.write written current target legal patch held attempt)).table.find batchId)
      (ledger.claimant batchId) := by
  simp only [Task.run]
  split
  case isFalse => exact .same
  case isTrue =>
    simp only [writeRow, find_modify]
    cases found : ledger.table.find batchId with
    | none =>
      rw [map_none, ← found]
      exact .same
    | some row =>
      have isId : row.batchId = batchId := (mem_of_find found).2
      rw [map_some, updated]
      split
      case isTrue isMatch =>
        obtain rfl : written = batchId := isMatch.1.symm.trans isId
        exact .written current target legal patch held attempt row rfl found isMatch
      case isFalse =>
        rw [← found]
        exact .same

theorem rowChange_prune (olderThan batchIds) : RowChange ledger process (.prune olderThan batchIds) clock batchId
      ((Task.run ledger.table fence clock (.prune olderThan batchIds)).table.find batchId)
      (ledger.claimant batchId) := by
  simp only [Task.run, KeyedTable.find_keep]
  cases found : ledger.table.find batchId with
  | none =>
    rw [filter_none, ← found]
    exact .same
  | some row =>
    rw [filter_some]
    split
    case isTrue =>
      rw [← found]
      exact .same
    case isFalse isPruned =>
      have committed : row.state = .SourceCommitted := by
        simp only [Bool.not_eq_true, Bool.not_eq_false', Bool.and_eq_true, prunable, decide_eq_true_eq] at isPruned
        exact isPruned.2.1.1
      exact .pruned olderThan batchIds row rfl found committed

/-- No section changes the table but the four statements that write. -/
theorem rowChange_run (ledger) (process fence clock batchId) (task) :
    RowChange ledger process task clock batchId ((task.run ledger.table fence clock).table.find batchId)
      (ledger.claimantAfter process task batchId) := by
  cases task with
  | insert record => exact rowChange_insert record
  | claim owner now leaseUntil => exact rowChange_claim owner now leaseUntil
  | write written current target legal patch held attempt =>
    exact rowChange_write written current target legal patch held attempt
  | prune olderThan batchIds => exact rowChange_prune olderThan batchIds
  | created | update | wrote | lost => exact .same
  | claimed rows => cases rows <;> exact .same
  | read =>
    refine .of_same ?_ rfl
    simp only [Task.run]
    split
    · rfl
    · split <;> rfl
  | check =>
    refine .of_same ?_ rfl
    simp only [Task.run]
    split
    · rfl
    · split
      · rfl
      · split <;> rfl

end RowChange

/-! ## Whose a held generation is -/

/-- The generations an operation in flight carries. -/
def Task.Holds (batchId : String) (generation : Nat) : Task → Prop
  | .created id => id = batchId ∧ generation = 0
  | .claimed rows => (batchId, generation) ∈ rows
  | .read id _ _ held _ => id = batchId ∧ held = some generation
  | .write id _ _ _ _ held _ | .wrote id _ held | .check id _ _ held _ | .lost id held => id = batchId ∧ held = generation
  | _ => False

def Process.Holds (process : Process) (batchId : String) (generation : Nat) : Prop :=
  process.fence.held batchId = some generation ∨ ∃ task ∈ process.tasks, task.Holds batchId generation

/-- The generations a statement brings a process: those of the rows it inserted or claimed. -/
def Task.Acquires (table : Batches) (batchId : String) (generation : Nat) : Task → Prop
  | .insert record => record.batchId = batchId ∧ table.find batchId = none ∧ generation = 0
  | .claim owner now _ => (batchId, generation) ∈ returning table owner now
  | _ => False

def Task.Carries (known : String → Nat → Prop) (task : Task) : Prop :=
  ∀ batchId generation, task.Holds batchId generation → known batchId generation

variable {known : String → Nat → Prop}

theorem Task.none_holds : ∀ next ∈ (none : Option Task), next.Carries known :=
  fun _ isNext => nomatch isNext

theorem Task.some_holds {task : Task} (carried : task.Carries known) : ∀ next ∈ some task, next.Carries known := by
  rintro next ⟨⟩
  exact carried

/-- A process comes to hold only what it held and what its statement acquired. -/
theorem Task.run_holds {table} {fence : Held} {clock} {task : Task} (within : fence.Within known) (carried : task.Carries known)
    (acquired : ∀ batchId generation, task.Acquires table batchId generation → known batchId generation) :
    (task.run table fence clock).fence.Within known ∧ ∀ next ∈ (task.run table fence clock).task, next.Carries known := by
  cases task with
  | insert record =>
    simp only [run]
    split
    case isTrue free =>
      refine ⟨within, some_holds fun batchId generation holds => acquired batchId generation ?_⟩
      exact ⟨holds.1, holds.1 ▸ free, holds.2⟩
    case isFalse => exact ⟨within, none_holds⟩
  | created batchId =>
    simp only [run]
    exact ⟨within.activate (carried batchId 0 ⟨rfl, rfl⟩), none_holds⟩
  | claim owner now leaseUntil =>
    simp only [run]
    exact ⟨within, some_holds acquired⟩
  | claimed rows =>
    cases rows with
    | nil =>
      simp only [run]
      exact ⟨within, none_holds⟩
    | cons row rows =>
      obtain ⟨claimed, generation⟩ := row
      simp only [run]
      refine ⟨within.activate (carried claimed generation mem_cons_self), some_holds fun batchId other holds => ?_⟩
      exact carried batchId other (mem_cons_of_mem _ holds)
  | update updated target patch =>
    simp only [run]
    refine ⟨within, some_holds ?_⟩
    rintro _ generation ⟨rfl, held⟩
    exact within updated generation held
  | read read target patch held attempt =>
    simp only [run]
    split
    · exact ⟨within, none_holds⟩
    · split
      · refine ⟨within, some_holds fun batchId generation holds => carried batchId generation ?_⟩
        exact ⟨holds.1, congrArg some holds.2⟩
      · exact ⟨within, none_holds⟩
  | write =>
    simp only [run]
    split <;> exact ⟨within, some_holds carried⟩
  | wrote batchId target held =>
    simp only [run]
    exact ⟨within.wrote batchId target held, none_holds⟩
  | check =>
    simp only [run]
    split
    · exact ⟨within, none_holds⟩
    · split
      · exact ⟨within, some_holds carried⟩
      · split
        · exact ⟨within, none_holds⟩
        · refine ⟨within, some_holds fun batchId generation holds => carried batchId generation ?_⟩
          exact ⟨holds.1, some.inj holds.2⟩
  | lost batchId held =>
    simp only [run]
    exact ⟨within.park batchId held, none_holds⟩
  | prune =>
    simp only [run]
    exact ⟨within, none_holds⟩

/-- A generation that `process` may hold: the row was claimed since, or it is the row's claimant. -/
def Ledger.Backs (ledger : Ledger) (process : Nat) (batchId : String) (generation : Nat) : Prop :=
  batchId ∈ ledger.inserted ∧ ∀ row ∈ ledger.table.find batchId,
    generation < row.claimGen ∨ generation = row.claimGen ∧ ledger.claimant batchId = process

/-- A held generation is the row's own only for the process that claimed last. -/
structure Owned (ledger : Ledger) : Prop where
  inserted : ∀ batchId row, ledger.table.find batchId = some row → batchId ∈ ledger.inserted
  backed : ∀ process batchId generation,
    (ledger.process process).Holds batchId generation → ledger.Backs process batchId generation
  batching : ∀ process record, .insert record ∈ (ledger.process process).tasks → record.state = .Batching

section Owned

variable {process : Nat} {task : Task} {generation : Nat}

theorem inserted_subset (ledger : Ledger) (task) : ledger.inserted ⊆ ledger.insertedAfter task := by
  unfold Ledger.insertedAfter
  split
  · exact subset_cons_self _ _
  · exact Subset.refl _

/-- What any process holds stays backed: an insertion is of an id nobody holds, and a claim outdates it. -/
theorem Ledger.Backs.advanced (backs : ledger.Backs holder batchId generation)
    (mints : ledger.mints task) : (ledger.advanced process task clock).Backs holder batchId generation := by
  obtain ⟨wasInserted, current⟩ := backs
  refine ⟨inserted_subset ledger task wasInserted, fun row found => ?_⟩
  have change := rowChange_run ledger process (ledger.process process).fence clock batchId task
  simp only [Ledger.advanced] at found ⊢
  generalize ledger.claimantAfter process task batchId = claimant at change ⊢
  generalize (task.run ledger.table (ledger.process process).fence clock).table.find batchId = after at change found
  subst found
  generalize isRow : some row = after at change
  cases change with
  | same => exact current row isRow.symm
  | inserted record isInsert isId absent =>
    subst isInsert isId
    simp [Ledger.mints, absent, wasInserted] at mints
  | claimed owner now leaseUntil before isClaim found claimable =>
    left
    obtain rfl := some.inj isRow
    simp only [claimed, if_pos claimable]
    rcases current before found with older | ⟨same, -⟩ <;> omega
  | written source target legal patch held attempt before isWrite found isMatch =>
    obtain rfl := some.inj isRow
    exact current before found
  | pruned => cases isRow

/-- What a statement acquires is backed by what it wrote. -/
theorem Ledger.Backs.acquired (owned : Owned ledger) (acquires : task.Acquires ledger.table batchId generation) :
    (ledger.advanced process task clock).Backs process batchId generation := by
  cases task with
  | insert record =>
    obtain ⟨rfl, free, rfl⟩ := acquires
    refine ⟨mem_cons_self, fun row found => .inr ?_⟩
    simp only [Ledger.advanced, Task.run, dif_pos free, KeyedTable.find_insert, if_true, mem_def, some.injEq] at found
    simp only [Ledger.advanced, Ledger.claimantAfter, free, and_self, if_true, and_true]
    rw [← found]
  | claim owner now leaseUntil =>
    obtain ⟨row, member, isRow⟩ := mem_map.mp acquires
    obtain ⟨member, claimable⟩ := mem_filter.mp member
    obtain ⟨rfl, rfl⟩ := Prod.mk.inj isRow
    have claimable : row.Claimable owner now := by simpa using claimable
    have found : ledger.table.find row.batchId = some row := find_of_mem member
    refine ⟨owned.inserted row.batchId row found, fun after isAfter => .inr ?_⟩
    simp only [Ledger.advanced, Task.run, claimRows, KeyedTable.find_modify, found, map_some, mem_def,
      some.injEq, claimed, if_pos claimable] at isAfter
    refine ⟨by rw [← isAfter], ?_⟩
    simp only [Ledger.advanced, Ledger.claimantAfter]
    exact if_pos ⟨row, found, claimable⟩
  | _ => exact acquires.elim

theorem not_holds_idle (batchId generation) : ¬Process.Holds ⟨.empty, []⟩ batchId generation := by
  simp [Process.Holds, Held.held, Held.empty]

/-- A process that comes to hold nothing new. -/
theorem Owned.set (owned : Owned ledger) {state : Process}
    (kept : ∀ batchId generation, state.Holds batchId generation → (ledger.process process).Holds batchId generation)
    (batching : ∀ record, .insert record ∈ state.tasks → record.state = .Batching) : Owned (ledger.set process state) := by
  refine ⟨owned.inserted, fun holder batchId generation holds => ?_, fun holder record isTask => ?_⟩
  all_goals
    simp only [Ledger.set, update_apply] at *
    split at *
  case refine_1.isTrue isHolder => exact owned.backed holder batchId generation (isHolder ▸ kept batchId generation holds)
  case refine_1.isFalse => exact owned.backed holder batchId generation holds
  case refine_2.isTrue => exact batching record isTask
  case refine_2.isFalse => exact owned.batching holder record isTask

theorem Owned.start (owned : Owned ledger) (starts : task.starts = true) :
    Owned (ledger.set process { ledger.process process with tasks := task :: (ledger.process process).tasks }) := by
  refine owned.set (fun batchId generation holds => ?_) fun record isTask => ?_
  · rcases holds with inFence | ⟨holder, isTask, carries⟩
    · exact .inl inFence
    · rcases mem_cons.mp isTask with rfl | isTask
      -- An operation that only starts carries no generation yet.
      · cases holder <;> first | exact carries.elim | exact absurd starts (by simp [Task.starts])
      · exact .inr ⟨holder, isTask, carries⟩
  · rcases mem_cons.mp isTask with rfl | isTask
    · simpa [Task.starts] using starts
    · exact owned.batching process record isTask

/-- A section leaves no insertion behind. -/
theorem Task.run_insert : (task.run table fence clock).task ≠ some (.insert record) := by
  intro isInsert
  cases task with
  | claimed rows => cases rows <;> cases isInsert
  | insert | read | write | check =>
    simp only [run] at isInsert
    repeat' split at isInsert
    all_goals cases isInsert
  | _ => cases isInsert

/-- Rows come only from insertions, which are recorded. -/
theorem Owned.inserted_advanced (owned : Owned ledger)
    (found : (ledger.advanced process task clock).table.find batchId = some row) :
    batchId ∈ (ledger.advanced process task clock).inserted := by
  have change := rowChange_run ledger process (ledger.process process).fence clock batchId task
  simp only [Ledger.advanced] at found ⊢
  generalize ledger.claimantAfter process task batchId = claimant at change
  rw [found] at change
  generalize isRow : some row = after at change
  cases change with
  | same => exact inserted_subset ledger task (owned.inserted batchId row isRow.symm)
  | inserted record isInsert isId absent =>
    subst isInsert isId
    exact mem_cons_self
  | claimed owner now leaseUntil before isClaim found claimable
  | written source target legal patch held attempt before isWrite found isMatch =>
    exact inserted_subset ledger task (owned.inserted batchId before found)
  | pruned => cases isRow

theorem Owned.advanced (owned : Owned ledger) (isTask : task ∈ (ledger.process process).tasks)
    (mints : ledger.mints task) : Owned (ledger.advanced process task clock) := by
  have kept : ∀ holder batchId generation, (ledger.process holder).Holds batchId generation →
      (ledger.advanced process task clock).Backs holder batchId generation :=
    fun holder batchId generation holds => (owned.backed holder batchId generation holds).advanced mints
  obtain ⟨fence, next⟩ := @Task.run_holds
    (fun batchId generation => (ledger.advanced process task clock).Backs process batchId generation)
    ledger.table (ledger.process process).fence clock task
    (fun batchId generation held => kept process batchId generation (.inl held))
    (fun batchId generation carries => kept process batchId generation (.inr ⟨task, isTask, carries⟩))
    (fun batchId generation acquires => .acquired owned acquires)
  -- Another process holds what it held; this one, what its fence and its tasks have after the statement.
  refine ⟨fun batchId row => owned.inserted_advanced, fun holder batchId generation holds => ?_,
    fun holder record waits => ?_⟩
  · by_cases isHolder : holder = process
    · subst isHolder
      simp only [Ledger.advanced, update_self] at holds
      rcases holds with inFence | ⟨carrier, isCarrier, carries⟩
      · exact fence batchId generation inFence
      · rcases mem_append.mp isCarrier with isNext | remains
        · exact next carrier (mem_toList.mp isNext) batchId generation carries
        · exact kept holder batchId generation (.inr ⟨carrier, mem_of_mem_erase remains, carries⟩)
    · simp only [Ledger.advanced, update_of_ne isHolder] at holds
      exact kept holder batchId generation holds
  · by_cases isHolder : holder = process
    · subst isHolder
      simp only [Ledger.advanced, update_self] at waits
      rcases mem_append.mp waits with isNext | remains
      · exact absurd (mem_toList.mp isNext) Task.run_insert
      · exact owned.batching holder record (mem_of_mem_erase remains)
    · simp only [Ledger.advanced, update_of_ne isHolder] at waits
      exact owned.batching holder record waits

theorem Owned.step {next} (owned : Owned ledger) (stepped : ledger.step event = some next) : Owned next := by
  cases event with
  | start process task =>
    obtain ⟨starts, isNext⟩ := ite_none_right_eq_some.mp stepped
    exact some.inj isNext ▸ owned.start starts
  | advance process task clock =>
    obtain ⟨⟨isTask, mints⟩, isNext⟩ := ite_none_right_eq_some.mp stepped
    exact some.inj isNext ▸ owned.advanced isTask mints
  | drop process task =>
    obtain rfl := some.inj stepped
    refine owned.set (fun batchId generation holds => ?_)
      fun record isTask => owned.batching process record (mem_of_mem_erase isTask)
    exact holds.imp_right fun ⟨carrier, isCarrier, carries⟩ => ⟨carrier, mem_of_mem_erase isCarrier, carries⟩
  | stop process =>
    obtain rfl := some.inj stepped
    exact owned.set (fun batchId generation holds => absurd holds (not_holds_idle batchId generation))
      fun record isTask => absurd isTask not_mem_nil

theorem owned_initial : Owned .initial := by
  refine ⟨fun batchId row found => ?_, fun process batchId generation holds => ?_, fun process record isTask => ?_⟩
  · exact absurd found (by simp [Ledger.initial, find_empty])
  · exact absurd holds (not_holds_idle batchId generation)
  · exact absurd isTask not_mem_nil

end Owned

/-! ## Lawful changes -/

def LedgerEvent.process : LedgerEvent → Nat
  | .start process _ | .advance process _ _ | .drop process _ | .stop process => process

/-- What one event may do to the row of a batch. -/
structure LawfulRow (before : Ledger) (event : LedgerEvent) (after : Ledger) (batchId : String) : Prop where
  /-- The state moves by one legal transition, made by the process whose claim or insertion is the latest. -/
  moved : ∀ row ∈ before.table.find batchId, ∀ row' ∈ after.table.find batchId, row'.state ≠ row.state →
    canTransition row.state row'.state = true ∧ event.process = before.claimant batchId
  /-- The generation, the owner and the claimant change only by a claim, and no claim takes a row that another
  name owns under a lease that has not expired. -/
  claimed : ∀ row ∈ before.table.find batchId, ∀ row' ∈ after.table.find batchId,
    row'.claimGen ≠ row.claimGen ∨ row'.owner ≠ row.owner ∨ after.claimant batchId ≠ before.claimant batchId →
    ∃ owner now leaseUntil clock, event = .advance event.process (.claim owner now leaseUntil) clock ∧
      row'.claimGen = row.claimGen + 1 ∧ row'.owner = some owner ∧ row'.leaseExpiresAt = some leaseUntil ∧
      after.claimant batchId = event.process ∧
      ¬∃ name ∈ row.owner, name ≠ owner ∧ ∃ lease ∈ row.leaseExpiresAt, now < lease
  /-- A row appears by an insertion, never claimed and not committed. -/
  appeared : before.table.find batchId = none → ∀ row' ∈ after.table.find batchId,
    (∃ record clock, event = .advance event.process (.insert record) clock ∧ row' = { record with claimGen := 0 }) ∧
      row'.state = .Batching ∧ after.claimant batchId = event.process
  committed : ∀ row' ∈ after.table.find batchId, row'.state = .SourceCommitted →
    ∃ row ∈ before.table.find batchId, row.state = .Verified ∨ row = row'
  /-- A committed row stays as it is until it is pruned. -/
  final : ∀ row ∈ before.table.find batchId, row.state = .SourceCommitted →
    after.table.find batchId = some row ∨ after.table.find batchId = none ∧
      ∃ olderThan batchIds clock, event = .advance event.process (.prune olderThan batchIds) clock
  /-- No other row disappears. -/
  kept : ∀ row ∈ before.table.find batchId, row.state ≠ .SourceCommitted → (after.table.find batchId).isSome

theorem canTransition_committed (legal : canTransition source .SourceCommitted = true) : source = .Verified := by
  simpa [canTransition] using legal

theorem canTransition_of_committed (target) : canTransition .SourceCommitted target = false := by
  cases target <;> rfl

section Lawful

variable {before after : Ledger} {event : LedgerEvent}

/-- An event that leaves the row and its claimant. -/
theorem LawfulRow.same (sameRow : after.table.find batchId = before.table.find batchId)
    (sameClaimant : after.claimant batchId = before.claimant batchId) : LawfulRow before event after batchId where
  moved row found row' found' moved := by
    obtain rfl : row = row' := some.inj (found.symm.trans (sameRow.symm.trans found'))
    exact absurd rfl moved
  claimed row found row' found' claimed := by
    obtain rfl : row = row' := some.inj (found.symm.trans (sameRow.symm.trans found'))
    exact absurd sameClaimant (by simpa using claimed)
  appeared absent row' found' := by
    rw [sameRow, absent] at found'
    cases found'
  committed row' found' _ := ⟨row', sameRow ▸ found', .inr rfl⟩
  final row found _ := .inl (sameRow.trans found)
  kept row found _ := by simp [sameRow, show before.table.find batchId = some row from found]

variable {process : Nat}

theorem LawfulRow.inserted {record : BatchRecord} (batching : record.state = .Batching)
    (absent : before.table.find batchId = none)
    (isAfter : after.table.find batchId = some { record with claimGen := 0 })
    (isClaimant : after.claimant batchId = process) :
    LawfulRow before (.advance process (.insert record) clock) after batchId := by
  constructor
  case appeared =>
    intro _ row' found'
    obtain rfl := some.inj (isAfter.symm.trans found')
    exact ⟨⟨record, clock, rfl, rfl⟩, batching, isClaimant⟩
  case committed =>
    intro row' found' committed
    obtain rfl := some.inj (isAfter.symm.trans found')
    exact absurd (batching.symm.trans committed) (by decide)
  -- The rest is about a row that was there.
  all_goals
    intro row found
    cases absent.symm.trans found

variable {row : LedgerRow}

section

variable (isBefore : before.table.find batchId = some row)

include isBefore

theorem LawfulRow.ofClaimed {owner : String} {now leaseUntil : Int} (claimable : row.Claimable owner now)
    (isAfter : after.table.find batchId = some (row.claimed owner now leaseUntil))
    (isClaimant : after.claimant batchId = process) :
    LawfulRow before (.advance process (.claim owner now leaseUntil) clock) after batchId where
  moved other found row' found' moved := by
    obtain rfl := some.inj (isBefore.symm.trans found)
    obtain rfl := some.inj (isAfter.symm.trans found')
    exact absurd (row.claimed_state owner now leaseUntil) moved
  claimed other found row' found' _ := by
    obtain rfl := some.inj (isBefore.symm.trans found)
    obtain rfl := some.inj (isAfter.symm.trans found')
    refine ⟨owner, now, leaseUntil, clock, rfl, ?_⟩
    rw [LedgerRow.claimed, if_pos claimable]
    refine ⟨rfl, rfl, rfl, isClaimant, ?_⟩
    rintro ⟨name, isOwner, other, lease, isLease, running⟩
    -- Each way to be claimable contradicts a running lease of another owner.
    rcases claimable.2 with unowned | own | unleased | ⟨expiry, isExpiry, expired⟩
    · cases unowned.symm.trans isOwner
    · exact other (some.inj (own.symm.trans isOwner)).symm
    · cases unleased.symm.trans isLease
    · obtain rfl := some.inj (isExpiry.symm.trans isLease)
      omega
  appeared absent := by cases absent.symm.trans isBefore
  committed row' found' committed := by
    obtain rfl := some.inj (isAfter.symm.trans found')
    exact absurd ((row.claimed_state owner now leaseUntil).symm.trans committed) claimable.1
  final other found committed := by
    obtain rfl := some.inj (isBefore.symm.trans found)
    exact absurd committed claimable.1
  kept _ _ _ := by rw [isAfter]; rfl

theorem LawfulRow.written (isMatch : row.Matches batchId current held) (isHolder : before.claimant batchId = process)
    (isAfter : after.table.find batchId = some (row.patched target patch clock))
    (sameClaimant : after.claimant batchId = before.claimant batchId) :
    LawfulRow before (.advance process (.write batchId current target legal patch held attempt) clock) after batchId := by
  obtain ⟨-, isCurrent, -⟩ := isMatch
  constructor
  case moved =>
    intro other found row' found' _
    obtain rfl := some.inj (isBefore.symm.trans found)
    obtain rfl := some.inj (isAfter.symm.trans found')
    exact ⟨isCurrent ▸ legal, isHolder.symm⟩
  case claimed =>
    intro other found row' found' claimed
    obtain rfl := some.inj (isBefore.symm.trans found)
    obtain rfl := some.inj (isAfter.symm.trans found')
    exact absurd sameClaimant (by simpa [patched] using claimed)
  case appeared =>
    intro absent
    cases absent.symm.trans isBefore
  case committed =>
    intro row' found' committed
    obtain rfl := some.inj (isAfter.symm.trans found')
    obtain rfl : target = .SourceCommitted := committed
    exact ⟨row, isBefore, .inl (isCurrent.trans (canTransition_committed legal))⟩
  case final =>
    intro other found committed
    obtain rfl := some.inj (isBefore.symm.trans found)
    obtain rfl : current = .SourceCommitted := isCurrent.symm.trans committed
    cases legal.symm.trans (canTransition_of_committed target)
  case kept =>
    intro _ _ _
    rw [isAfter]
    rfl

theorem LawfulRow.pruned (committed : row.state = .SourceCommitted) (isAfter : after.table.find batchId = none) :
    LawfulRow before (.advance process (.prune olderThan batchIds) clock) after batchId := by
  constructor
  case final => exact fun _ _ _ => .inr ⟨isAfter, olderThan, batchIds, clock, rfl⟩
  case kept =>
    intro other found notCommitted
    obtain rfl := some.inj (isBefore.symm.trans found)
    exact absurd committed notCommitted
  case committed =>
    intro row' found'
    cases isAfter.symm.trans found'
  case appeared =>
    intro _ row' found'
    cases isAfter.symm.trans found'
  all_goals
    intro _ _ row' found'
    cases isAfter.symm.trans found'

end

/-- A section changes a row lawfully: a write carries the row's own generation, so its process is the claimant. -/
theorem LawfulRow.advanced (owned : Owned before) (isTask : task ∈ (before.process process).tasks) :
    LawfulRow before (.advance process task clock) (before.advanced process task clock) batchId := by
  have change := rowChange_run before process (before.process process).fence clock batchId task
  generalize isAfter : (task.run before.table (before.process process).fence clock).table.find batchId = row at change
  generalize isClaimant : before.claimantAfter process task batchId = claimant at change
  cases change with
  | same => exact .same isAfter isClaimant
  | inserted record isInsert isId absent =>
    subst isInsert
    exact .inserted (owned.batching process record isTask) absent isAfter isClaimant
  | claimed owner now leaseUntil row isClaim found claimable =>
    subst isClaim
    exact .ofClaimed found claimable isAfter isClaimant
  | written current target legal patch held attempt row isWrite found isMatch =>
    subst isWrite
    have holds : (before.process process).Holds batchId held := .inr ⟨_, isTask, rfl, rfl⟩
    have isHolder : before.claimant batchId = process := by
      rcases (owned.backed process batchId held holds).2 row found with older | ⟨-, isHolder⟩
      · exact absurd isMatch.2.2 (by omega)
      · exact isHolder
    exact .written found isMatch isHolder isAfter isClaimant
  | pruned olderThan batchIds row isPrune found committed =>
    subst isPrune
    exact .pruned found committed isAfter

/-- Only the latest claimant moves a batch, and only along legal transitions. -/
theorem ledger_lawful (reached : Reachable (fun before event after => before.step event = some after) .initial before)
    (stepped : before.step event = some after) (batchId : String) : LawfulRow before event after batchId := by
  have owned : Owned before := reached.invariant Owned owned_initial fun _ _ _ _ owned stepped => owned.step stepped
  cases event with
  | advance process task clock =>
    obtain ⟨⟨isTask, -⟩, isNext⟩ := Option.ite_none_right_eq_some.mp stepped
    exact Option.some.inj isNext ▸ .advanced owned isTask
  | start process task =>
    obtain ⟨-, isNext⟩ := Option.ite_none_right_eq_some.mp stepped
    exact Option.some.inj isNext ▸ .same rfl rfl
  | drop process task | stop process => exact Option.some.inj stepped ▸ .same rfl rfl

/-- A batch of one engine, just read. -/
def newBatch : BatchRecord :=
  { batchId := "b", sourceType := .File, sourceName := "app", state := .Batching
    progressStart := .File "/app.log" none 0 0 0 "0", progressEnd := .File "/app.log" none 0 10 10 "0"
    objectUri := none, manifestUri := none, objectSha256 := none, manifestSha256 := none, manifestVersionId := none
    objectSizeBytes := none, recordCount := none, errorMessage := none, owner := some "one", leaseExpiresAt := some 10
    createdAt := some 0, updatedAt := 0 }

/-- Engine one inserts a batch and reads its token to seal it; its lease expires and engine two claims the
batch; engine one's write matches no row. -/
def takeover : List LedgerEvent :=
  [.start 0 (.insert newBatch), .advance 0 (.insert newBatch) 0, .advance 0 (.created "b") 0,
    .start 0 (.update "b" .Sealed .default), .advance 0 (.update "b" .Sealed .default) 1,
    .start 1 (.claim "two" 20 40), .advance 1 (.claim "two" 20 40) 20, .advance 1 (.claimed [("b", 1)]) 20,
    .advance 0 (.read "b" .Sealed .default (some 0) 0) 21,
    .advance 0 (.write "b" .Batching .Sealed rfl .default 0 0) 22,
    .start 1 (.update "b" .Sealed .default), .advance 1 (.update "b" .Sealed .default) 23,
    .advance 1 (.read "b" .Sealed .default (some 1) 0) 24]

/-- Engine two seals it. -/
def sealing : LedgerEvent := .advance 1 (.write "b" .Batching .Sealed rfl .default 1 0) 25

theorem takeover_lawful : ∃ before ∈ takeover.foldlM Ledger.step .initial, ∃ after ∈ before.step sealing,
    (before.table.find "b").map (fun row => row.state) = some .Batching ∧
      (after.table.find "b").map (fun row => row.state) = some .Sealed ∧ LawfulRow before sealing after "b" :=
  ⟨_, rfl, _, rfl, by decide, by decide, ledger_lawful (.foldlM .refl takeover rfl) rfl "b"⟩

end Lawful

/-- At most one process, its calls in flight included, holds a row's generation, and none holds a higher one. -/
theorem claim_held_once (events : List LedgerEvent) : ∀ ledger ∈ events.foldlM Ledger.step .initial, ∀ batchId,
    ∀ row ∈ ledger.table.find batchId, {process | (ledger.process process).Holds batchId row.claimGen}.Subsingleton ∧
      ∀ process generation, (ledger.process process).Holds batchId generation → generation ≤ row.claimGen := by
  intro ledger isLedger batchId row isRow
  have reached : Reachable (fun before event after => before.step event = some after) .initial ledger :=
    .foldlM .refl events isLedger
  have owned : Owned ledger := reached.invariant Owned owned_initial fun _ _ _ _ owned stepped => owned.step stepped
  refine ⟨fun first isFirst second isSecond => ?_, fun process generation holds => ?_⟩
  · have isClaimant : ∀ process, (ledger.process process).Holds batchId row.claimGen → ledger.claimant batchId = process :=
      fun process holds => (((owned.backed _ _ _ holds).2 row isRow).resolve_left (lt_irrefl _)).2
    exact (isClaimant first isFirst).symm.trans (isClaimant second isSecond)
  · exact ((owned.backed _ _ _ holds).2 row isRow).elim Nat.le_of_lt fun same => same.1.le

theorem takeover_held_once : ∃ ledger ∈ takeover.foldlM Ledger.step .initial, ∃ row ∈ ledger.table.find "b",
    row.claimGen = 1 ∧ {process | (ledger.process process).Holds "b" row.claimGen}.Subsingleton :=
  ⟨_, rfl, _, rfl, rfl, (claim_held_once takeover _ rfl "b" _ rfl).1⟩

end VtopEngine.State
