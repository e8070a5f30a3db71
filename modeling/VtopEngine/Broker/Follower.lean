import VtopEngine.Broker.Replica

/-! # The follower

A follower's side of replication (`replication/mod.rs`): it is fenced and reconciles its
log with the caller's history, it applies the leader's appends, and it observes the
cluster high-water mark.

* `fence`, `reconcileWith`, `truncateTo` — stop at an epoch, and discard what the caller's
  history disputes.
* `applyAppend`, `applyAppendBatch` — take the leader's records at the offset it names.
* `observeHwm` — the mark, never above the follower's own durability.
-/

namespace VtopEngine.Broker.InProcessFollower

open Log

/-! ## Fencing and reconciliation -/

/-- What a replica held at the instant it was fenced. -/
structure FenceOutcome where
  (fencingEpoch localCommittedOffset nextOffset : Nat)
  epochStarts : List EpochStart
  truncatedRecords : Nat
  deriving DecidableEq, Repr

/-- The vector's part of a truncation: drop what was cut, and say where the held epoch goes on. -/
def repairJournal (held offset : Nat) (journal : FencingEpochJournal) : FencingEpochJournal × Except JournalError Unit :=
  match journal.truncateTo offset with
  | (truncated, .ok _) => truncated.recordHeldEpochAt held offset
  | (truncated, .error problem) => (truncated, .error problem)

/-- Discard every record at or above an offset, unless one of them was acknowledged. -/
def truncateTo (replica : Replica) (offset : Nat) : Except BrokerError (Replica × Nat) :=
  if offset < replica.clusterCommitted then
    .error (.TruncationBelowAcknowledged offset replica.clusterCommitted)
  else
    match replica.segment.truncateTo offset with
    | .error problem => .error (.InvalidConfig (.log problem))
    | .ok (segment, removed) =>
      .ok ({ replica with segment }.updateJournal (repairJournal replica.heldFencingEpoch offset), removed)

def lineageVerdict (replica : Replica) (leaderEpochStarts : List EpochStart) : Lineage :=
  if replica.fencingEpochHistoryBroken then .Unknown
  else
    match replica.fencingEpochJournal with
    | none => .Unknown
    | some journal => compareLineage journal.entries leaderEpochStarts

/-- Whether a dispute that began in reclaimed records leaves the retained ones alone. -/
def disputeConfined (replica : Replica) (leaderEpochStarts : List EpochStart) : Bool :=
  match replica.fencingEpochJournal with
  | none => true
  | some journal =>
    let base := replica.segment.baseOffset
    let tail := replica.nextOffset
    let mine := clampLineage journal.entries base tail
    let theirs := clampLineage leaderEpochStarts base tail
    mine.isEmpty || theirs.isEmpty || mine = theirs

/-- Discard what was written under a leadership the caller's history does not share, and say how much. -/
def reconcileWith (replica : Replica) (leaderEpochStarts : List EpochStart) : Except Refusal (Replica × Nat) :=
  if leaderEpochStarts.isEmpty then .ok (replica, 0)
  else
    match lineageVerdict replica leaderEpochStarts with
    | .Agreed | .Unknown => .ok (replica, 0)
    | .DivergesAt divergence =>
      if replica.nextOffset ≤ divergence then .ok (replica, 0)
      else
        let baseOffset := replica.segment.baseOffset
        if divergence < baseOffset then
          if replica.nextOffset ≤ baseOffset then .ok (replica, 0)
          else if disputeConfined replica leaderEpochStarts then .ok (replica, 0)
          else
            .error (.WrongLineage, .text
              s!"the caller's history and this replica's disagree about who wrote records this replica still retains (base offset {baseOffset}); the dispute is not confined to reclaimed records, so nothing can be silently admitted — this replica needs repair")
        else
          match truncateTo replica divergence with
          | .ok outcome => .ok outcome
          | .error (.TruncationBelowAcknowledged requested highWatermark) =>
            .error (.InvalidRequest, .text
              s!"reconciling with the caller would discard acknowledged records: it puts divergence at {requested}, below this replica's high-water mark {highWatermark}")
          | .error problem => .error (.Storage, .broker problem)

/-- Fence this replica at an epoch, reconcile it while it is stopped, and report what it holds. -/
def fence (replica : Replica) (epoch : Nat) (leaderEpochStarts : List EpochStart) : Replica × Except Refusal FenceOutcome :=
  let held := replica.heldFencingEpoch
  let granted := replica.metaFencingEpoch.fencingEpoch
  if epoch < held then
    (replica, .error (.Fenced, .text s!"fence request at epoch {epoch} is below this replica's held epoch {held}"))
  else if granted < epoch then
    (replica, .error (.Fenced, .text
      s!"this replica has not observed a grant for epoch {epoch}; its metadata view is at {granted}. Retry once it catches up — a replica must not fence itself on a caller's word alone"))
  else
    let adopted := replica.adoptFencingEpoch epoch
    match reconcileWith adopted leaderEpochStarts with
    | .error refusal => (adopted, .error refusal)
    | .ok (reconciled, truncatedRecords) =>
      (reconciled, .ok
        { fencingEpoch := reconciled.heldFencingEpoch
          localCommittedOffset := reconciled.segment.committedOffset
          nextOffset := reconciled.nextOffset
          epochStarts := reconciled.epochStarts
          truncatedRecords })

/-- Stop this replica's own log at an epoch; the answer is its vote. -/
def fenceLocally (replica : Replica) (epoch : Nat) : Replica × Except Refusal Nat :=
  let adopted := replica.adoptFencingEpoch epoch
  let held := adopted.heldFencingEpoch
  if held ≠ epoch then
    (adopted, .error (.Fenced, .text s!"local fence at epoch {epoch} was overtaken by this replica's held epoch {held}"))
  else (adopted, .ok adopted.segment.committedOffset)

/-! ## Replication -/

def checkFollowerFencing (replica : Replica) (requestEpoch : Nat) : Except (ErrorCode × String) Unit :=
  if requestEpoch ≠ replica.heldFencingEpoch then
    .error (.Fenced, "replica request fencing epoch does not match this follower's lease")
  else if replica.metaFencingEpoch.leaseActive = false ∨ replica.metaFencingEpoch.fencingEpoch ≠ replica.heldFencingEpoch then
    .error (.Fenced, "follower lease is inactive or fenced by a newer metadata grant")
  else .ok ()

/-- Store a request that names this follower's end: the producer's epoch first, then the records. -/
def storeAppend (replica : Replica) (request : ReplicaAppendRequest) (durability : Durability) :
    Replica × Except Refusal Unit :=
  match replica.producerEpochs.accept request.producerId request.producerEpoch with
  | (producerEpochs, .error problem) => ({ replica with producerEpochs }, .error (acceptErrorCode problem, .broker problem))
  | (producerEpochs, .ok ()) =>
    let replica := { replica with producerEpochs }
    match replica.segmentFormat, decide (request.producerId = PROMOTION_MARKER_PRODUCER) with
    | .V1 _, true =>
      (replica, .error (.InvalidRequest, .text
        "a v1-format follower cannot store the promotion marker under its recognizable identity, so it refuses the marker rather than hide the loss"))
    | format, _ =>
      match recordsFromWire request.records (format.stored request.producerId request.producerEpoch)
          request.firstSequence with
      | .error message => (replica, .error (.InvalidRequest, .text message))
      | .ok records =>
        match if replica.holdFsync then replica.segment.appendGroupTailOnly records durability
            else replica.segment.appendGroup records durability with
        | .error problem => (replica, .error (appendErrorCode problem, .log problem))
        | .ok (segment, _) => ({ replica with segment }, .ok ())

/-- One request of the leader: it is stored if it begins where this follower ends; a follower that is already past
it acknowledges on its durability alone. -/
def placeAppend (replica : Replica) (request : ReplicaAppendRequest) (durability : Durability) :
    Replica × Except Refusal Unit :=
  if request.range ≠ replica.range then
    (replica, .error (.WrongRange, .text "replica append range identity does not match this follower"))
  else
    match checkFollowerFencing replica request.fencingEpoch with
    | .error (code, message) => (replica, .error (code, .text message))
    | .ok () =>
      let tip := replica.nextOffset
      let expected := request.expectedBaseOffset
      let batchEnd := expected + request.records.length
      if expected < tip then
        if UInt64.size ≤ batchEnd then
          (replica, .error (.InvalidRequest, .text "replica append batch end overflows u64"))
        else if batchEnd ≤ replica.segment.committedOffset then (replica, .ok ())
        else
          (replica, .error (.InvalidRequest, .text
            s!"follower next_offset {tip} is ahead of expected_base_offset {expected} but not durable through {batchEnd}"))
      else if tip ≠ expected then
        (replica, .error (.InvalidRequest, .text
          s!"follower next_offset {tip} does not match expected_base_offset {expected}"))
      else storeAppend replica request durability

def applyAppend (replica : Replica) (request : ReplicaAppendRequest) : Replica × Except Refusal Nat :=
  if replica.online = false then (replica, .error (.Overloaded, .offline replica.nodeId))
  else
    let durability := if replica.holdFsync then .Buffered else .Fsync
    match placeAppend replica request durability with
    | (placed, .error refusal) => (placed, .error refusal)
    | (placed, .ok ()) => (placed, .ok placed.segment.committedOffset)

/-- The loop of `applyAppendBatch`: it stops at the first request that is refused. -/
def placeAll (replica : Replica) : List ReplicaAppendRequest → Replica × Except Refusal Unit
  | [] => (replica, .ok ())
  | request :: requests =>
    match placeAppend replica request .Buffered with
    | (placed, .error refusal) => (placed, .error refusal)
    | (placed, .ok ()) => placeAll placed requests

/-- Apply an ordered group with one durability barrier. -/
def applyAppendBatch (replica : Replica) (requests : List ReplicaAppendRequest) : Replica × Except Refusal Nat :=
  match requests with
  | [] => (replica, .ok replica.segment.committedOffset)
  | [request] => applyAppend replica request
  | requests =>
    if replica.online = false then (replica, .error (.Overloaded, .offline replica.nodeId))
    else
      match placeAll replica requests with
      | (placed, .error refusal) => (placed, .error refusal)
      | (placed, .ok ()) =>
        if placed.holdFsync then (placed, .ok placed.segment.committedOffset)
        else
          let committed := { placed with segment := placed.segment.commit }
          (committed, .ok committed.segment.committedOffset)

def observeHwm (replica : Replica) (update : CommittedHwmUpdate) : Replica × Except Refusal Unit :=
  if update.range ≠ replica.range then
    (replica, .error (.WrongRange, .text "committed HWM update range identity does not match this follower"))
  else
    match checkFollowerFencing replica update.fencingEpoch with
    | .error (code, message) => (replica, .error (code, .text message))
    | .ok () => (replica.advanceTo (min update.committedHighWatermark replica.segment.committedOffset), .ok ())

/-! ## What replication changes -/

section Appends

variable {replica : Replica} {request : ReplicaAppendRequest} {durability : Durability}

theorem checkFollowerFencing_ok (ok : checkFollowerFencing replica epoch = .ok ()) : epoch = replica.heldFencingEpoch := by
  unfold checkFollowerFencing at ok
  split at ok
  · cases ok
  case isFalse same => exact Decidable.not_not.mp same

section

variable (replica : Replica) (request : ReplicaAppendRequest) (durability : Durability)

theorem storeAppend_appends : ∃ added, replica.Appends (storeAppend replica request durability).1 added := by
  unfold storeAppend
  split
  case h_1 producerEpochs _ _ => exact ⟨[], .nothing replica producerEpochs⟩
  case h_2 producerEpochs _ =>
    have accepted := Replica.Appends.nothing replica producerEpochs
    simp only
    split
    · exact ⟨[], accepted⟩
    · split
      · exact ⟨[], accepted⟩
      case h_2 records _ =>
        cases appended : (if replica.holdFsync then replica.segment.appendGroupTailOnly records durability
            else replica.segment.appendGroup records durability) with
        | error problem => exact ⟨[], accepted⟩
        | ok result =>
          obtain ⟨segment, outcomes⟩ := result
          have extended : ∃ added, replica.segment.Extends segment added durability := by
            split at appended
            · exact (SegmentSet.appendGroupTailOnly_extends appended).imp fun _ => And.right
            · exact (SegmentSet.appendGroup_extends appended).imp fun _ => And.right
          obtain ⟨added, extended⟩ := extended
          exact ⟨added, accepted.trans (.ofSegment extended)⟩

/-- A request adds records only to a follower that holds the epoch it carries. -/
theorem placeAppend_appends : ∃ added, replica.Appends (placeAppend replica request durability).1 added
      ∧ (added ≠ [] → request.fencingEpoch = replica.heldFencingEpoch
        ∧ request.expectedBaseOffset = replica.nextOffset) := by
  have unchanged : ∃ added, replica.Appends replica added
      ∧ (added ≠ [] → request.fencingEpoch = replica.heldFencingEpoch ∧ request.expectedBaseOffset = replica.nextOffset) :=
    ⟨[], .refl replica, fun some => absurd rfl some⟩
  unfold placeAppend
  split
  · exact unchanged
  split
  · exact unchanged
  case h_2 fenced =>
    simp only
    split
    · split
      · exact unchanged
      · split <;> exact unchanged
    split
    · exact unchanged
    case isFalse atTip =>
      obtain ⟨added, appended⟩ := storeAppend_appends replica request durability
      exact ⟨added, appended, fun _ => ⟨checkFollowerFencing_ok fenced, (Decidable.not_not.mp atTip).symm⟩⟩

end

theorem placeAll_appends (replica : Replica) (requests) : ∃ added, replica.Appends (placeAll replica requests).1 added
      ∧ (added ≠ [] → ∃ request ∈ requests, request.fencingEpoch = replica.heldFencingEpoch) := by
  induction requests generalizing replica with
  | nil => exact ⟨[], .refl replica, fun some => absurd rfl some⟩
  | cons request requests ih =>
    obtain ⟨added, appended, when⟩ := placeAppend_appends replica request .Buffered
    have first : added ≠ [] → ∃ other ∈ request :: requests, other.fencingEpoch = replica.heldFencingEpoch :=
      fun some => ⟨request, List.mem_cons_self, (when some).1⟩
    unfold placeAll
    split
    case h_1 placed _ outcome =>
      rw [outcome] at appended
      exact ⟨added, appended, first⟩
    case h_2 placed outcome =>
      rw [outcome] at appended
      obtain ⟨more, appendedMore, whenMore⟩ := ih placed
      refine ⟨added ++ more, appended.trans appendedMore, fun some => ?_⟩
      by_cases none : added = []
      · obtain ⟨other, member, same⟩ := whenMore (by simpa [none] using some)
        exact ⟨other, List.mem_cons_of_mem _ member, by rw [same, appended.heldFencingEpoch]⟩
      · exact first none

/-- Replication adds records at the end of the log, under the epoch of a request. -/
theorem applyAppendBatch_appends (replica : Replica) (requests) :
    ∃ added, replica.Appends (applyAppendBatch replica requests).1 added
      ∧ (added ≠ [] → ∃ request ∈ requests, request.fencingEpoch = replica.heldFencingEpoch) := by
  have unchanged : ∃ added, replica.Appends replica added
      ∧ (added ≠ [] → ∃ request ∈ requests, request.fencingEpoch = replica.heldFencingEpoch) :=
    ⟨[], .refl replica, fun some => absurd rfl some⟩
  unfold applyAppendBatch
  split
  · exact unchanged
  case h_2 request =>
    unfold applyAppend
    split
    · exact unchanged
    · simp only
      obtain ⟨added, appended, when⟩ := placeAppend_appends replica request (if replica.holdFsync then .Buffered else .Fsync)
      split
      all_goals
        rename_i outcome
        rw [outcome] at appended
        exact ⟨added, appended, fun some => ⟨request, List.mem_singleton_self _, (when some).1⟩⟩
  · split
    · exact unchanged
    · obtain ⟨added, appended, when⟩ := placeAll_appends replica requests
      split
      case h_1 outcome =>
        rw [outcome] at appended
        exact ⟨added, appended, when⟩
      case h_2 placed outcome =>
        rw [outcome] at appended
        split
        · exact ⟨added, appended, when⟩
        · have committed : placed.Appends { placed with segment := placed.segment.commit } [] :=
            .ofSegment placed.segment.commit_extends
          exact ⟨added, by simpa using appended.trans committed, when⟩

end Appends

end VtopEngine.Broker.InProcessFollower
