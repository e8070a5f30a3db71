import VtopEngine.Cli.Recovery
import VtopEngine.State.Ledger

/-! # Source progress is committed only for what storage was seen to hold

Engines share a ledger and an object store.  Every process runs any number of pipelines
and recoveries at once; a call is answered by whatever the outside makes of it, a ledger
write that reports a failure may have been applied all the same, and a process can crash
at any of its calls.

* `Serves` — what the ledger makes of a call.
* `Step` — one event of the processes and the ledger.
* `Justified` — what must lie before a commit of source progress.
* `committed_only_when_verified` — every commit call is justified when it is made, and a
  row is `SOURCE_COMMITTED` only after its own call succeeded.
-/

namespace VtopEngine.Cli

open VtopEngine.Core Lib State List

/-! ## The ledger's part -/

def insertRow (table : Batches) (record : BatchRecord) : Option Batches :=
  if free : table.find record.batchId = none then some (table.insert { record with claimGen := 0 } free) else none

/-- A transition is validated against the row and written if it is legal. -/
def updateRow (table : Batches) (batchId : String) (target : BatchState) (patch : BatchPatch) (now : Int) :
    Option Batches := do
  let row ← table.find batchId
  if canTransition row.state target then return writeRow table batchId row.state target patch row.claimGen now else none

/-- The rows a claim returns, oldest first. -/
def claimedRecords (table : Batches) (owner : String) (now leaseUntil : Int) : List BatchRecord :=
  ((table.rows.filter fun row => row.Claimable owner now).map fun row =>
    (row.claimed owner now leaseUntil).toBatchRecord).insertionSort fun left right =>
      left.createdAt.getD 0 ≤ right.createdAt.getD 0

/-- One section of a store operation does to the table what one of these statements does, or deletes committed rows. -/
theorem run_table (table : Batches) (fence : Held) (clock : Int) (task : Task) :
    let after := (task.run table fence clock).table
    after = table ∨ (∃ record, insertRow table record = some after) ∨
      (∃ batchId target patch, updateRow table batchId target patch clock = some after) ∨
      (∃ owner now leaseUntil, after = claimRows table owner now leaseUntil) ∨
      ∃ kept : LedgerRow → Bool, (∀ row, kept row = false → row.state = .SourceCommitted) ∧ after = table.keep kept := by
  cases task with
  | insert record =>
    simp only [Task.run]
    split
    case isTrue free => exact .inr (.inl ⟨record, by simp [insertRow, free]⟩)
    case isFalse => exact .inl rfl
  | claim owner now leaseUntil => exact .inr (.inr (.inr (.inl ⟨owner, now, leaseUntil, rfl⟩)))
  | claimed rows => cases rows <;> exact .inl rfl
  | read batchId target patch held attempt =>
    simp only [Task.run]
    split
    · exact .inl rfl
    · split <;> exact .inl rfl
  | write batchId current target legal patch held attempt =>
    simp only [Task.run]
    split
    case isTrue matching =>
      obtain ⟨row, member, isRow⟩ := any_eq_true.mp matching
      obtain ⟨rfl, rfl, rfl⟩ := of_decide_eq_true isRow
      refine .inr (.inr (.inl ⟨row.batchId, target, patch, ?_⟩))
      simp [updateRow, KeyedTable.find_of_mem member, legal]
    case isFalse => exact .inl rfl
  | check batchId target patch held attempt =>
    simp only [Task.run]
    split
    · exact .inl rfl
    · split
      · exact .inl rfl
      · split <;> exact .inl rfl
  | prune olderThan batchIds =>
    refine .inr (.inr (.inr (.inr ⟨_, fun row dropped => ?_, rfl⟩)))
    simp only [LedgerRow.prunable, Bool.not_eq_eq_eq_not, Bool.not_false, Bool.and_eq_true, decide_eq_true_eq] at dropped
    exact dropped.2.1.1
  | created | update | wrote | lost => exact .inl rfl

/-- What happens, in order: a call is answered, a row is inserted, a transition is recorded. -/
inductive Happening
  | exchanged (process : Nat) (exchange : Exchange Request Answer)
  | inserted (record : BatchRecord)
  | recorded (batchId : String) (state : BatchState)

/-- The calls that change the ledger. -/
def Request.writes : Request → Bool
  | .saveBatchState _ | .updateBatchState .. | .claimIncompleteBatches .. => true
  | _ => false

/-- An effect on the ledger, and what is then known to have happened. -/
inductive Effect (log : List Happening) (table : Batches) : Request → Batches → List Happening → Prop
  | saved (record : BatchRecord) (after : Batches) (isInserted : insertRow table record = some after)
      -- Batch ids carry a random suffix: none is drawn twice.
      (fresh : ∀ earlier, .inserted earlier ∈ log → earlier.batchId ≠ record.batchId) :
      Effect log table (.saveBatchState record) after [.inserted record]
  | updated (batchId : String) (target : BatchState) (patch : BatchPatch) (now : Int) (after : Batches)
      (isUpdated : updateRow table batchId target patch now = some after) :
      Effect log table (.updateBatchState batchId target patch) after [.recorded batchId target]
  | claimed (owner : String) (now leaseUntil : Int) :
      Effect log table (.claimIncompleteBatches owner now leaseUntil) (claimRows table owner now leaseUntil) []

/-- A claim that is answered well is answered with the rows it claimed. -/
def Honest (table : Batches) : Exchange Request Answer → Prop
  | ⟨.claimIncompleteBatches owner now leaseUntil, .ok records⟩ => records = claimedRecords table owner now leaseUntil
  | _ => True

/-- A write that reports a failure. -/
def ReportsFailure : Exchange Request Answer → Prop
  | ⟨.saveBatchState _, .error _⟩ | ⟨.updateBatchState .., .error _⟩ | ⟨.claimIncompleteBatches .., .error _⟩ => True
  | _ => False

/-- What a call is answered and does to the ledger.  A write that was not applied reports a failure; one that was
applied may report one too. -/
inductive Serves (log : List Happening) (table : Batches) (exchange : Exchange Request Answer) :
    Batches → List Happening → Prop where
  | applied (after : Batches) (facts : List Happening) (effect : Effect log table exchange.1 after facts)
      (honest : Honest table exchange) : Serves log table exchange after facts
  | refused (failed : ReportsFailure exchange) : Serves log table exchange table []
  | other (isOther : exchange.1.writes = false) : Serves log table exchange table []

/-! ## Processes -/

/-- A pipeline or a recovery on its way, and the process it runs in. -/
structure Job where
  process : Nat
  rest : EngineProc Unit

/-- The ledger, what has happened, the processes that are alive and their jobs.  Process numbers are never reused. -/
structure Fleet where
  table : Batches
  log : List Happening
  alive : List Nat
  started : Nat
  jobs : List Job

def Fleet.initial : Fleet := ⟨.empty, [], [], 0, []⟩

inductive FleetEvent
  | start
  | process (process : Nat) (input : BatchInput)
  | recover (process : Nat) (now : Int)
  | call (process : Nat) (exchange : Exchange Request Answer)
  | crash (process : Nat)
  | prune

/-- A program whose result is dropped. -/
def discard {α : Type} (program : EngineProc α) : EngineProc Unit := program >>= fun _ => pure ()

/-- One event.  `configOf` is the configuration each process was started with. -/
inductive Step (configOf : Nat → EngineConfig) (fleet : Fleet) : FleetEvent → Fleet → Prop
  | start :
      Step configOf fleet .start { fleet with alive := fleet.started :: fleet.alive, started := fleet.started + 1 }
  | process (process : Nat) (input : BatchInput) (isAlive : process ∈ fleet.alive) :
      Step configOf fleet (.process process input)
        { fleet with jobs := fleet.jobs ++ [⟨process, discard (Cli.process (configOf process) input)⟩] }
  | recover (process : Nat) (now : Int) (isAlive : process ∈ fleet.alive) :
      Step configOf fleet (.recover process now)
        { fleet with jobs := fleet.jobs ++ [⟨process, discard (Cli.recover (configOf process) now).run⟩] }
  | call (process : Nat) (request : Request) (resume : Answer request → EngineProc Unit) (answer : Answer request)
      (after : Batches) (facts : List Happening) (before behind : List Job)
      (isJob : fleet.jobs = before ++ ⟨process, .ask request resume⟩ :: behind)
      (served : Serves fleet.log fleet.table ⟨request, answer⟩ after facts) :
      Step configOf fleet (.call process ⟨request, answer⟩)
        { fleet with
          table := after
          log := fleet.log ++ facts ++ [.exchanged process ⟨request, answer⟩]
          jobs := before ++ ⟨process, resume answer⟩ :: behind }
  | crash (process : Nat) :
      Step configOf fleet (.crash process)
        { fleet with
          alive := fleet.alive.filter fun other => other ≠ process
          jobs := fleet.jobs.filter fun job => job.process ≠ process }
  | prune (kept : LedgerRow → Bool) (onlyCommitted : ∀ row, kept row = false → row.state = .SourceCommitted) :
      Step configOf fleet .prune { fleet with table := fleet.table.keep kept }

/-- What a process has heard. -/
def heardBy (log : List Happening) (process : Nat) : Heard := { exchange | .exchanged process exchange ∈ log }

/-- What must lie before a commit of a batch's progress: the batch was begun with this end marker, the ledger recorded
it verified, and the process that commits has the evidence. -/
structure Justified (configOf : Nat → EngineConfig) (log : List Happening) (process : Nat) (batchId : String)
    (source : SourceType) (marker : ProgressMarker) : Prop where
  batch : ∃ record, .inserted record ∈ log ∧ record.batchId = batchId ∧ record.sourceType = source ∧
    record.progressEnd = marker
  recorded : .recorded batchId .Verified ∈ log
  vouched : Vouched (configOf process) (heardBy log process) batchId

/-! ## What every event keeps -/

/-- A row is of a batch that was begun, and is verified only if that was recorded. -/
structure KnownRow (log : List Happening) (row : BatchRecord) : Prop where
  inserted : ∃ record, .inserted record ∈ log ∧ record.batchId = row.batchId ∧ record.sourceType = row.sourceType ∧
    record.progressEnd = row.progressEnd
  recorded : row.state = .Verified → .recorded row.batchId .Verified ∈ log

/-- What a good answer tells of the ledger. -/
def Truthful (log : List Happening) : Exchange Request Answer → Prop
  | ⟨.saveBatchState record, .ok ()⟩ => .inserted record ∈ log
  | ⟨.updateBatchState batchId target _, .ok ()⟩ => .recorded batchId target ∈ log
  | ⟨.claimIncompleteBatches .., .ok records⟩ => ∀ record ∈ records, KnownRow log record
  | _ => True

structure Upheld (configOf : Nat → EngineConfig) (fleet : Fleet) : Prop where
  obeying : ∀ job ∈ fleet.jobs, job.rest.Obeys (configOf job.process).rule (fun _ _ => True) (heardBy fleet.log job.process)
  truthful : ∀ process exchange, .exchanged process exchange ∈ fleet.log → Truthful fleet.log exchange
  unique : ∀ first second, .inserted first ∈ fleet.log → .inserted second ∈ fleet.log →
    first.batchId = second.batchId → first = second
  rows : ∀ row ∈ fleet.table.rows, KnownRow fleet.log row.toBatchRecord
  commits : ∀ earlier later process batchId source marker answer,
    fleet.log = earlier ++ .exchanged process ⟨.commitProgress batchId source marker, answer⟩ :: later →
      Justified configOf earlier process batchId source marker
  committed : ∀ row ∈ fleet.table.rows, row.state = .SourceCommitted →
    ∃ process, .exchanged process ⟨.commitProgress row.batchId row.sourceType row.progressEnd, Except.ok ()⟩ ∈ fleet.log

variable {log : List Happening}

section Log

variable {process : Nat}

theorem heardBy_mono (subset : log ⊆ more) : heardBy log process ⊆ heardBy more process := fun _ heard => subset heard

theorem KnownRow.mono (isKnown : KnownRow log row) (subset : log ⊆ more) : KnownRow more row := by
  obtain ⟨⟨record, inserted, same⟩, recorded⟩ := isKnown
  exact ⟨⟨record, subset inserted, same⟩, fun isVerified => subset (recorded isVerified)⟩

theorem Truthful.mono (truthful : Truthful log exchange) (subset : log ⊆ more) : Truthful more exchange := by
  unfold Truthful at truthful ⊢
  split at truthful
  · exact subset truthful
  · exact subset truthful
  · exact fun record member => (truthful record member).mono subset
  · trivial

end Log

variable {facts : List Happening} {after : Batches} {exchange : Exchange Request Answer}

section Rows

variable {table : Batches}

variable {row : LedgerRow}

theorem mem_insertRow (isInserted : insertRow table record = some after)
    (member : row ∈ after.rows) : row ∈ table.rows ∨ row = { record with claimGen := 0 } := by
  unfold insertRow at isInserted
  split at isInserted
  · cases isInserted
    simpa [KeyedTable.insert] using member
  · cases isInserted

/-- After a write a row is as it was, or was patched and has the state that was written. -/
theorem mem_updateRow (isUpdated : updateRow table batchId target patch now = some after) (member : row ∈ after.rows) :
    row ∈ table.rows ∨ ∃ old ∈ table.rows, old.batchId = batchId ∧ row = old.patched target patch now := by
  unfold updateRow at isUpdated
  obtain ⟨held, isHeld, written⟩ := Option.bind_eq_some_iff.mp isUpdated
  split at written
  · cases written
    obtain ⟨old, isOld, rfl⟩ := mem_map.mp member
    unfold LedgerRow.updated
    split
    case isTrue matching => exact .inr ⟨old, isOld, matching.1, rfl⟩
    case isFalse => exact .inl isOld
  · cases written

theorem mem_claimRows (member : row ∈ (claimRows table owner now leaseUntil).rows) :
    ∃ old ∈ table.rows, row = old.claimed owner now leaseUntil := by
  obtain ⟨old, isOld, rfl⟩ := mem_map.mp member
  exact ⟨old, isOld, rfl⟩

/-- The batch a row is of: its id, its source and the marker it ends at. -/
def SameBatch (left right : BatchRecord) : Prop :=
  left.batchId = right.batchId ∧ left.sourceType = right.sourceType ∧ left.progressEnd = right.progressEnd

theorem claimed_sameBatch (row : LedgerRow) (owner now leaseUntil) :
    SameBatch row.toBatchRecord (row.claimed owner now leaseUntil).toBatchRecord := by
  unfold LedgerRow.claimed
  split <;> exact ⟨rfl, rfl, rfl⟩

theorem KnownRow.of_sameBatch {old row : BatchRecord} (isKnown : KnownRow log old) (same : SameBatch old row)
    (recorded : row.state = .Verified → .recorded row.batchId .Verified ∈ log) : KnownRow log row := by
  obtain ⟨record, inserted, isBatch, isSource, isEnd⟩ := isKnown.inserted
  exact ⟨⟨record, inserted, isBatch.trans same.1, isSource.trans same.2.1, isEnd.trans same.2.2⟩, recorded⟩

theorem knownRow_claimed (isKnown : KnownRow log row.toBatchRecord) (owner now leaseUntil) :
    KnownRow log (row.claimed owner now leaseUntil).toBatchRecord := by
  refine isKnown.of_sameBatch (claimed_sameBatch row owner now leaseUntil) fun isVerified => ?_
  rw [LedgerRow.claimed_batchId]
  exact isKnown.recorded ((row.claimed_state owner now leaseUntil).symm.trans isVerified)

/-- The rows of the ledger stay known: a row that a write makes verified is recorded as such. -/
theorem Effect.knownRows {config : EngineConfig}
    (effect : Effect log table request after facts) (allowed : config.rule known request)
    (rows : ∀ row ∈ table.rows, KnownRow log row.toBatchRecord) :
    ∀ row ∈ after.rows, KnownRow (log ++ facts) row.toBatchRecord := by
  intro row member
  cases effect with
  | saved record after isInserted fresh =>
    rcases mem_insertRow isInserted member with isOld | rfl
    · exact (rows row isOld).mono (subset_append_left _ _)
    · refine ⟨⟨record, by simp, rfl, rfl, rfl⟩, fun isVerified => ?_⟩
      have isBatching : record.state = .Batching := allowed
      rw [show record.state = .Verified from isVerified] at isBatching
      cases isBatching
  | updated batchId target patch now after isUpdated =>
    rcases mem_updateRow isUpdated member with isOld | ⟨old, isOld, rfl, rfl⟩
    · exact (rows row isOld).mono (subset_append_left _ _)
    · refine ((rows old isOld).mono (subset_append_left _ _)).of_sameBatch ⟨rfl, rfl, rfl⟩ fun isVerified => ?_
      obtain rfl : target = .Verified := isVerified
      simp [LedgerRow.patched]
  | claimed owner now leaseUntil =>
    obtain ⟨old, isOld, rfl⟩ := mem_claimRows member
    rw [append_nil]
    exact knownRow_claimed (rows old isOld) owner now leaseUntil

/-- A row is committed that was so before, or by this write. -/
theorem Effect.committedRows {config : EngineConfig}
    (effect : Effect log table request after facts) (allowed : config.rule known request) (member : row ∈ after.rows)
    (isCommitted : row.state = .SourceCommitted) : ∃ old ∈ table.rows, SameBatch old.toBatchRecord row.toBatchRecord ∧
      (old.state = .SourceCommitted ∨ ∃ patch, request = .updateBatchState row.batchId .SourceCommitted patch) := by
  cases effect with
  | saved record after isInserted fresh =>
    rcases mem_insertRow isInserted member with isOld | rfl
    · exact ⟨row, isOld, ⟨rfl, rfl, rfl⟩, .inl isCommitted⟩
    · have isBatching : record.state = .Batching := allowed
      rw [show record.state = .SourceCommitted from isCommitted] at isBatching
      cases isBatching
  | updated batchId target patch now after isUpdated =>
    rcases mem_updateRow isUpdated member with isOld | ⟨old, isOld, rfl, rfl⟩
    · exact ⟨row, isOld, ⟨rfl, rfl, rfl⟩, .inl isCommitted⟩
    · obtain rfl : target = .SourceCommitted := isCommitted
      exact ⟨old, isOld, ⟨rfl, rfl, rfl⟩, .inr ⟨patch, rfl⟩⟩
  | claimed owner now leaseUntil =>
    obtain ⟨old, isOld, rfl⟩ := mem_claimRows member
    refine ⟨old, isOld, claimed_sameBatch old owner now leaseUntil, .inl ?_⟩
    exact (old.claimed_state owner now leaseUntil).symm.trans isCommitted

/-- The rows a claim answers with are rows of the ledger. -/
theorem knownRow_claimedRecords (rows : ∀ row ∈ table.rows, KnownRow log row.toBatchRecord) :
    ∀ record ∈ claimedRecords table owner now leaseUntil, KnownRow log record := by
  intro record member
  obtain ⟨row, isRow, rfl⟩ := mem_map.mp ((mem_insertionSort _).mp member)
  exact knownRow_claimed (rows row (mem_of_mem_filter isRow)) owner now leaseUntil

section

variable (served : Serves log table exchange after facts)

include served

/-- A call adds at most one fact, and an id is begun once. -/
theorem Serves.facts_cases : facts = [] ∨ (∃ record, facts = [.inserted record] ∧
      ∀ earlier, .inserted earlier ∈ log → earlier.batchId ≠ record.batchId) ∨
    ∃ batchId state, facts = [.recorded batchId state] := by
  obtain ⟨request, answer⟩ := exchange
  cases served with
  | applied after facts effect honest =>
    cases effect with
    | saved record after isInserted fresh => exact .inr (.inl ⟨record, rfl, fresh⟩)
    | updated batchId target patch now after isUpdated => exact .inr (.inr ⟨batchId, target, rfl⟩)
    | claimed owner now leaseUntil => exact .inl rfl
  | refused failed | other isOther => exact .inl rfl

theorem Serves.no_exchange (process other) : .exchanged process other ∉ facts := by
  rcases served.facts_cases with rfl | ⟨record, rfl, -⟩ | ⟨batchId, state, rfl⟩ <;> simp

/-- A good answer is true of the ledger. -/
theorem Serves.truthful (rows : ∀ row ∈ table.rows, KnownRow log row.toBatchRecord) : Truthful (log ++ facts) exchange := by
  cases served with
  | applied after facts effect honest =>
    obtain ⟨request, answer⟩ := exchange
    cases effect with
    | saved record after isInserted fresh | updated batchId target patch now after isUpdated =>
      cases answer <;> simp [Truthful]
    | claimed owner now leaseUntil =>
      cases answer with
      | error error => trivial
      | ok records =>
        obtain rfl : records = claimedRecords table owner now leaseUntil := honest
        rw [append_nil]
        exact knownRow_claimedRecords rows
  | refused failed =>
    unfold ReportsFailure at failed
    split at failed
    · trivial
    · trivial
    · trivial
    · exact failed.elim
  | other isOther =>
    obtain ⟨request, answer⟩ := exchange
    cases request with
    | saveBatchState record | updateBatchState batchId target patch | claimIncompleteBatches owner now leaseUntil =>
      cases isOther
    | _ => trivial

end

end Rows

section Steps

variable {configOf : Nat → EngineConfig} {fleet next : Fleet} {process : Nat}

/-- A process that is entitled to a commit knows the batch from the ledger. -/
theorem Upheld.entitled (upheld : Upheld configOf fleet)
    (entitled : Entitled (heardBy fleet.log process) batchId source marker) :
    (∃ record, .inserted record ∈ fleet.log ∧ record.batchId = batchId ∧ record.sourceType = source ∧
      record.progressEnd = marker) ∧ .recorded batchId .Verified ∈ fleet.log := by
  cases entitled with
  | verified record saved isBatch isSource isEnd recorded =>
    have inserted : .inserted record ∈ fleet.log := upheld.truthful process _ saved
    exact ⟨⟨record, inserted, isBatch, isSource, isEnd⟩, upheld.truthful process _ recorded⟩
  | claimed owner now leaseUntil records claimed record member isVerified isBatch isSource isEnd =>
    have known : ∀ record ∈ records, KnownRow fleet.log record := upheld.truthful process _ claimed
    obtain ⟨⟨begun, inserted, sameId, sameSource, sameEnd⟩, recorded⟩ := known record member
    subst isBatch isSource isEnd
    exact ⟨⟨begun, inserted, sameId, sameSource, sameEnd⟩, recorded isVerified⟩

theorem Upheld.justified (upheld : Upheld configOf fleet)
    (allowed : (configOf process).rule (heardBy fleet.log process) (.commitProgress batchId source marker)) :
    Justified configOf fleet.log process batchId source marker := by
  obtain ⟨batch, recorded⟩ := upheld.entitled allowed.1
  exact ⟨batch, recorded, allowed.2⟩

theorem Justified.mono (justified : Justified configOf log process batchId source marker)
    (subset : log ⊆ more) : Justified configOf more process batchId source marker := by
  obtain ⟨⟨record, inserted, same⟩, recorded, vouched⟩ := justified
  exact ⟨⟨record, subset inserted, same⟩, subset recorded, vouched.mono (heardBy_mono subset)⟩

/-- Where the first part of a list ends, if an element does not come from the second. -/
theorem append_split {α : Type} {first second earlier later : List α} {entry : α}
    (split : first ++ second = earlier ++ entry :: later) (notSecond : entry ∉ second) :
    ∃ rest, first = earlier ++ entry :: rest := by
  rcases append_eq_append_iff.mp split with ⟨middle, rfl, rfl⟩ | ⟨middle, rfl, isRest⟩
  · simp at notSecond
  · cases middle with
    | nil =>
      rw [nil_append] at isRest
      simp [← isRest] at notSecond
    | cons head rest =>
      obtain ⟨rfl, -⟩ := cons.inj isRest
      exact ⟨rest, rfl⟩

section Call

section

variable (upheld : Upheld configOf fleet)

include upheld

theorem Upheld.commits_call (allowed : (configOf process).rule (heardBy fleet.log process) exchange.1)
    (served : Serves fleet.log fleet.table exchange after facts)
    (split : fleet.log ++ facts ++ [.exchanged process exchange] =
      earlier ++ .exchanged caller ⟨.commitProgress batchId source marker, answer⟩ :: later) :
    Justified configOf earlier caller batchId source marker := by
  rcases eq_nil_or_concat' later with rfl | ⟨before, last, rfl⟩
  · -- The call itself: what the rule asks for is what justifies it.
    obtain ⟨rfl, isLast⟩ := append_inj' split rfl
    obtain ⟨rfl, rfl⟩ : process = caller ∧ exchange = ⟨.commitProgress batchId source marker, answer⟩ := by
      simpa using isLast
    exact (upheld.justified allowed).mono (subset_append_left _ _)
  · rw [← cons_append, ← append_assoc] at split
    obtain ⟨earlierSplit, -⟩ := append_inj' split rfl
    obtain ⟨rest, isLog⟩ := append_split earlierSplit (served.no_exchange _ _)
    exact upheld.commits earlier rest caller batchId source marker answer isLog

theorem Upheld.unique_call (served : Serves fleet.log fleet.table exchange after facts) {first second : BatchRecord}
    (isFirst : .inserted first ∈ fleet.log ++ facts) (isSecond : .inserted second ∈ fleet.log ++ facts)
    (same : first.batchId = second.batchId) : first = second := by
  rcases served.facts_cases with rfl | ⟨record, rfl, fresh⟩ | ⟨batchId, state, rfl⟩
  · rw [append_nil] at isFirst isSecond
    exact upheld.unique first second isFirst isSecond same
  · simp only [mem_append, mem_singleton, Happening.inserted.injEq] at isFirst isSecond
    rcases isFirst with isFirst | rfl <;> rcases isSecond with isSecond | rfl
    · exact upheld.unique first second isFirst isSecond same
    · exact absurd same (fresh first isFirst)
    · exact absurd same.symm (fresh second isSecond)
    · rfl
  · simp only [mem_append, mem_singleton, reduceCtorEq, or_false] at isFirst isSecond
    exact upheld.unique first second isFirst isSecond same

/-- A row that this call commits belongs to a batch whose commit the caller made. -/
theorem Upheld.committed_call (allowed : (configOf process).rule (heardBy fleet.log process) exchange.1)
    (served : Serves fleet.log fleet.table exchange after facts) {row : LedgerRow} (member : row ∈ after.rows)
    (isCommitted : row.state = .SourceCommitted) :
    ∃ process, .exchanged process ⟨.commitProgress row.batchId row.sourceType row.progressEnd, Except.ok ()⟩ ∈ fleet.log := by
  have unchanged (isOld : row ∈ fleet.table.rows) := upheld.committed row isOld isCommitted
  cases served with
  | refused failed | other isOther => exact unchanged member
  | applied after facts effect honest =>
    obtain ⟨old, isOld, ⟨sameId, sameSource, sameEnd⟩, wasCommitted | ⟨patch, isWrite⟩⟩ :=
      effect.committedRows allowed member isCommitted
    · rw [← sameId, ← sameSource, ← sameEnd]
      exact upheld.committed old isOld wasCommitted
    · rw [isWrite] at allowed
      obtain ⟨source, marker, entitled, committed⟩ := allowed
      obtain ⟨⟨record, inserted, isId, rfl, rfl⟩, -⟩ := upheld.entitled entitled
      obtain ⟨begun, begunInserted, begunId, begunSource, begunEnd⟩ := (upheld.rows old isOld).inserted
      obtain rfl : begun = record := upheld.unique _ _ begunInserted inserted ((begunId.trans sameId).trans isId.symm)
      refine ⟨process, ?_⟩
      rw [← sameSource, ← sameEnd, ← begunSource, ← begunEnd]
      exact committed

end

end Call

theorem Upheld.call (upheld : Upheld configOf fleet)
    (isJob : fleet.jobs = before ++ ⟨process, .ask request resume⟩ :: behind)
    (served : Serves fleet.log fleet.table ⟨request, answer⟩ after facts) : Upheld configOf { fleet with
      table := after
      log := fleet.log ++ facts ++ [.exchanged process ⟨request, answer⟩]
      jobs := before ++ ⟨process, resume answer⟩ :: behind } := by
  have grown : fleet.log ⊆ fleet.log ++ facts ++ [.exchanged process ⟨request, answer⟩] := by
    rw [append_assoc]
    exact subset_append_left _ _
  have factsGrown : fleet.log ++ facts ⊆ fleet.log ++ facts ++ [.exchanged process ⟨request, answer⟩] :=
    subset_append_left _ _
  obtain ⟨allowed, rest⟩ := upheld.obeying ⟨process, .ask request resume⟩ (by simp [isJob])
  refine ⟨?_, ?_, ?_, ?_, ?_, ?_⟩
  · -- The caller goes on with one more answer heard, the others with what they had heard.
    intro job member
    have others (isOther : job ∈ before ++ behind) :
        job.rest.Obeys (configOf job.process).rule (fun _ _ => True) (heardBy _ job.process) :=
      have isOld : job ∈ fleet.jobs := by
        rw [isJob]
        simp only [mem_append, mem_cons] at isOther ⊢
        tauto
      (upheld.obeying job isOld).mono (configOf job.process).lasting_rule (fun _ _ _ _ _ => trivial) (heardBy_mono grown)
    simp only [mem_append, mem_cons] at member others
    rcases member with member | rfl | member
    · exact others (.inl member)
    · refine (rest answer).mono (configOf process).lasting_rule (fun _ _ _ _ _ => trivial) ?_
      exact Set.insert_subset (by simp [heardBy]) (heardBy_mono grown)
    · exact others (.inr member)
  · intro caller exchange member
    simp only [mem_append, mem_singleton, Happening.exchanged.injEq] at member
    rcases member with (member | member) | ⟨rfl, rfl⟩
    · exact (upheld.truthful caller exchange member).mono grown
    · exact absurd member (served.no_exchange caller exchange)
    · exact (served.truthful upheld.rows).mono factsGrown
  · intro first second isFirst isSecond same
    exact upheld.unique_call served (by simpa using isFirst) (by simpa using isSecond) same
  · intro row member
    have known : KnownRow (fleet.log ++ facts) row.toBatchRecord := by
      cases served with
      | applied after facts effect honest => exact effect.knownRows allowed upheld.rows row member
      | refused failed | other isOther => exact (upheld.rows row member).mono (subset_append_left _ _)
    exact known.mono factsGrown
  · intro earlier later caller batchId source marker answer split
    exact upheld.commits_call allowed served split
  · intro row member isCommitted
    obtain ⟨caller, committed⟩ := upheld.committed_call allowed served member isCommitted
    exact ⟨caller, grown committed⟩

/-- A job of a program that keeps the commit rule may be started. -/
theorem Upheld.spawn {program : EngineProc Unit} (upheld : Upheld configOf fleet)
    (obeys : program.Obeys (configOf process).rule (fun _ _ => True) (heardBy fleet.log process)) :
    Upheld configOf { fleet with jobs := fleet.jobs ++ [⟨process, program⟩] } := by
  refine { upheld with obeying := fun job member => ?_ }
  rcases mem_append.mp member with member | member
  · exact upheld.obeying job member
  · obtain rfl := mem_singleton.mp member
    exact obeys

theorem obeys_discard {α : Type} {program : EngineProc α} {post : Heard → α → Prop} {config : EngineConfig}
    (obeys : program.Obeys config.rule post known) : (discard program).Obeys config.rule (fun _ _ => True) known :=
  (Proc.obeys_bind _ _).mpr (obeys.imp fun _ _ _ _ => trivial)

theorem Upheld.step (upheld : Upheld configOf fleet) (stepped : Step configOf fleet event next) : Upheld configOf next := by
  cases stepped with
  | start => exact { upheld with }
  | process process input isAlive => exact upheld.spawn (obeys_discard obeys_process)
  | recover process now isAlive => exact upheld.spawn (obeys_discard (keeps_recover now))
  | call process request resume answer after facts before behind isJob served => exact upheld.call isJob served
  | crash process => exact { upheld with obeying := fun job member => upheld.obeying job (mem_of_mem_filter member) }
  | prune kept onlyCommitted =>
    exact { upheld with
      rows := fun row member => upheld.rows row (mem_of_mem_filter member)
      committed := fun row member => upheld.committed row (mem_of_mem_filter member) }

theorem upheld_initial : Upheld configOf .initial where
  obeying := by rintro _ ⟨⟩
  truthful := by rintro _ _ ⟨⟩
  unique := by rintro _ _ ⟨⟩
  rows := by rintro _ ⟨⟩
  commits := by
    intro earlier later _ _ _ _ _ split
    exact absurd split (by simp [Fleet.initial])
  committed := by rintro _ ⟨⟩

end Steps

/-- A process calls `commit_progress` for a batch only when the ledger has recorded it verified and the process has
seen the batch's object match an authentic manifest; and a row is `SOURCE_COMMITTED` only after such a call for it
succeeded. -/
theorem committed_only_when_verified {configOf : Nat → EngineConfig} {fleet : Fleet}
    (reached : Reachable (Step configOf) .initial fleet) :
    (∀ process batchId source marker resume, ⟨process, .ask (.commitProgress batchId source marker) resume⟩ ∈ fleet.jobs →
      Justified configOf fleet.log process batchId source marker) ∧
    ∀ row ∈ fleet.table.rows, row.state = .SourceCommitted → ∃ process earlier later,
      fleet.log = earlier ++ .exchanged process
        ⟨.commitProgress row.batchId row.sourceType row.progressEnd, Except.ok ()⟩ :: later ∧
      Justified configOf earlier process row.batchId row.sourceType row.progressEnd := by
  have upheld : Upheld configOf fleet :=
    reached.invariant (Upheld configOf) upheld_initial fun _ _ _ _ upheld stepped => upheld.step stepped
  constructor
  · intro process batchId source marker resume member
    exact upheld.justified (upheld.obeying _ member).1
  · intro row member isCommitted
    obtain ⟨process, committed⟩ := upheld.committed row member isCommitted
    obtain ⟨earlier, later, split⟩ := List.append_of_mem committed
    exact ⟨process, earlier, later, split, upheld.commits _ _ _ _ _ _ _ split⟩

/-- The effect of a call on the ledger, where it has one and can be applied. -/
def effectOf (log : List Happening) (table : Batches) (now : Int) : Request → Option (Batches × List Happening)
  | .saveBatchState record =>
    if log.all fun | .inserted earlier => earlier.batchId ≠ record.batchId | _ => true then
      (insertRow table record).map fun after => (after, [.inserted record])
    else none
  | .updateBatchState batchId target patch =>
    (updateRow table batchId target patch now).map fun after => (after, [.recorded batchId target])
  | .claimIncompleteBatches .. => none
  | _ => some (table, [])

/-- Answer the first job's call, writes being applied. -/
def Fleet.answered (fleet : Fleet) (answer : (request : Request) → Answer request) : Option Fleet :=
  match fleet.jobs with
  | ⟨process, .ask request resume⟩ :: behind =>
    (effectOf fleet.log fleet.table 0 request).map fun effect =>
      { fleet with
        table := effect.1
        log := fleet.log ++ effect.2 ++ [.exchanged process ⟨request, answer request⟩]
        jobs := ⟨process, resume (answer request)⟩ :: behind }
  | _ => none

theorem serves_effectOf (answer) (effect : effectOf log table now request = some (after, facts)) :
    Serves log table ⟨request, answer⟩ after facts := by
  cases request with
  | saveBatchState record =>
    simp only [effectOf, Option.ite_none_right_eq_some, Option.map_eq_some_iff, Prod.mk.injEq] at effect
    obtain ⟨unused, _, isInserted, rfl, rfl⟩ := effect
    refine .applied _ _ (.saved record _ isInserted fun earlier begun => ?_) ?_
    · simpa using all_eq_true.mp unused _ begun
    · cases answer <;> trivial
  | updateBatchState batchId target patch =>
    simp only [effectOf, Option.map_eq_some_iff, Prod.mk.injEq] at effect
    obtain ⟨_, isUpdated, rfl, rfl⟩ := effect
    exact .applied _ _ (.updated batchId target patch now _ isUpdated) (by cases answer <;> trivial)
  | claimIncompleteBatches owner now leaseUntil => cases effect
  | _ =>
    obtain ⟨rfl, rfl⟩ := Prod.mk.inj (Option.some.inj effect)
    exact .other rfl

theorem Fleet.answered_reachable {fleet next : Fleet} (reached : Reachable (Step configOf) .initial fleet)
    (isNext : fleet.answered answer = some next) : Reachable (Step configOf) .initial next := by
  unfold Fleet.answered at isNext
  split at isNext
  case h_1 process request resume behind isJob =>
    obtain ⟨⟨after, facts⟩, effect, rfl⟩ := Option.map_eq_some_iff.mp isNext
    exact reached.step (.call process request resume (answer request) after facts [] behind isJob
      (serves_effectOf (answer request) effect))
  case h_2 => cases isNext

def plainCodec : ManifestCodec where
  toBytes _ := []
  fromSlice _ := .error "unread"
  sha256 _ := "h"
  keyedHash _ _ := Vector.replicate 32 0

def plainConfig : EngineConfig where
  name := "engine"
  algorithm := .Sha256
  createBucket := false
  requireObjectVersioning := false
  requireStrongVerification := true
  backendName := "mock"
  supportsObjectVersions := false
  shouldMultipart _ := false
  manifestMacKey := none
  codec := plainCodec
  destination _ _ _ _ := ⟨"b", "s3://b/o", "s3://b/m"⟩
  detail _ _ _ _ := ⟨"t", .Raw, .None, none, none, ⟨"", ""⟩, ""⟩
  adapters := [.File]

def oneLine : BatchInput where
  sourceType := .File
  sourceName := "/log"
  read := ⟨[[97]], .File "/log" none 0 2 2 "", .File "/log" none 0 2 2 "", false⟩
  batchId := "batch"
  now := 0
  sealedAt := 0

def everyCallSucceeds : (request : Request) → Answer request
  | .saveBatchState _ | .updateBatchState .. => .ok ()
  | .claimIncompleteBatches .. | .committedCursors _ => .ok []
  | .compressBatch _ => .ok (.ok ⟨"o", 2⟩)
  | .digestFile .. => .ok "d"
  | .ensureBucket _ | .verifyBucketVersioning _ | .putObject .. | .uploadResumable .. | .abortSession .. => .ok ()
  | .writeToFile _ => .ok "m"
  | .fileSize _ => .ok 3
  | .putManifest .. => .ok none
  | .verifyObject .. => .ok ⟨true, false, ""⟩
  | .getManifest .. => .ok []
  | .commitProgress .. => .ok ()
  | .seedCommitted .. => ()
  | .replayFromMarkers .. => []
  | .readPosition .. => none

def oneJob : Fleet := { Fleet.initial with alive := [0], started := 1, jobs := [⟨0, discard (process plainConfig oneLine)⟩] }

/-- The fleet after so many of the batch's calls. -/
def afterCalls : Nat → Option Fleet
  | 0 => some oneJob
  | count + 1 => (afterCalls count).bind fun fleet => fleet.answered everyCallSucceeds

theorem afterCalls_reachable {count fleet} (isAfter : afterCalls count = some fleet) :
    Reachable (Step fun _ => plainConfig) .initial fleet := by
  induction count generalizing fleet with
  | zero =>
    obtain rfl : oneJob = fleet := Option.some.inj isAfter
    have started : Reachable (Step fun _ => plainConfig) .initial { Fleet.initial with alive := [0], started := 1 } :=
      Reachable.refl.step .start
    exact started.step (.process 0 oneLine (by decide))
  | succ count ih =>
    obtain ⟨before, isBefore, isNext⟩ := Option.bind_eq_some_iff.mp isAfter
    exact Fleet.answered_reachable (ih isBefore) isNext

/-- All the calls of one batch succeed: its row is committed, after a commit that was justified. -/
theorem one_batch_committed : ∃ fleet ∈ afterCalls 18, ∃ row ∈ fleet.table.rows, row.state = .SourceCommitted ∧
    ∃ process earlier later, fleet.log = earlier ++ .exchanged process
        ⟨.commitProgress row.batchId row.sourceType row.progressEnd, Except.ok ()⟩ :: later ∧
      Justified (fun _ => plainConfig) earlier process row.batchId row.sourceType row.progressEnd := by
  refine ⟨_, rfl, _, List.mem_singleton.mpr rfl, by decide, ?_⟩
  exact (committed_only_when_verified (@afterCalls_reachable 18 _ rfl)).2 _ (List.mem_singleton.mpr rfl) (by decide)

end VtopEngine.Cli
