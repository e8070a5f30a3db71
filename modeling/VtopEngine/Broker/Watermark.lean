import VtopEngine.Broker.Fetch
import VtopEngine.Broker.LeaseView
import VtopEngine.Broker.Lifetime
import VtopEngine.Log.Retention

/-! # A follower's watermark

One follower whose operations interleave by the sections their locks make.  An append is
one section, under the metadata lock and the log's.  Observing a mark holds the metadata
lock throughout but measures the log's durability under a lock of its own before it raises
the mark; a truncation compares with the mark before it takes the log's lock to cut.

* `FollowerTask.next`, `followStep` — one section of an operation, and one event.
* `Watermarked`, `LawfulSection` — the mark and the log, and what one event may do to them.
* `InOrder` — a schedule in which a raise does not overtake a cut below it, nor a cut a raise above it.
* `watermark_kept` — the mark and the log hold along every run in that order.
* `truncation_overtaken` — a cut below a mark that was raised after the comparison.
-/

namespace VtopEngine.Broker

open Lib Log Option
open InProcessFollower (applyAppend applyAppendBatch applyAppendBatch_appends checkFollowerFencing
  fetchBelow fetchBelow_below lineageVerdict placeAll placeAppend repairJournal)

/-- An operation in flight, by the section it enters next: an adoption, and what follows if a fence made it, which carries
the caller's history; a truncation; a mark that is observed and then raised; a fetch that is checked and then read. -/
inductive FollowerTask
  | adopt (epoch : Nat) (fence : Option (List EpochStart))
  | measure (epoch : Nat) (fence : Option (List EpochStart))
  | record (epoch startOffset : Nat) (fence : Option (List EpochStart))
  | publish (epoch : Nat) (fence : Option (List EpochStart))
  | reconcile (leaderEpochStarts : List EpochStart)
  | dispute (divergence : Nat)
  | truncate (offset : Nat)
  | cut (offset : Nat)
  | trim (offset : Nat)
  | observe (update : CommittedHwmUpdate)
  | raise (visible : Nat)
  | fetch (startOffset maxBytes maxRecords : Nat)
  | read (startOffset maxBytes maxRecords highWatermark : Nat)
  deriving DecidableEq

open FollowerTask

namespace FollowerTask

/-- One section: what it makes of the replica, and the section that follows. -/
def next (replica : Replica) : FollowerTask → Replica × Option FollowerTask
  | .adopt epoch fence =>
    (replica, some (if replica.heldFencingEpoch < epoch then .measure epoch fence else .publish epoch fence))
  | .measure epoch fence => (replica, some (.record epoch replica.nextOffset fence))
  | .record epoch startOffset fence => (replica.recordEpochStart epoch startOffset, some (.publish epoch fence))
  | .publish epoch fence =>
    ({ replica with heldFencingEpoch := max replica.heldFencingEpoch epoch }, fence.map reconcile)
  | .reconcile leaderEpochStarts =>
    if leaderEpochStarts.isEmpty then (replica, none)
    else
      match lineageVerdict replica leaderEpochStarts with
      | .Agreed | .Unknown => (replica, none)
      | .DivergesAt divergence => (replica, some (.dispute divergence))
  | .dispute divergence =>
    if replica.nextOffset ≤ divergence ∨ divergence < replica.segment.baseOffset then (replica, none)
    else (replica, some (.truncate divergence))
  | .truncate offset =>
    if offset < replica.clusterCommitted then (replica, none) else (replica, some (.cut offset))
  | .cut offset =>
    match replica.segment.truncateTo offset with
    | .error _ => (replica, none)
    | .ok (segment, _) => ({ replica with segment }, some (.trim offset))
  | .trim offset => (replica.updateJournal (repairJournal replica.heldFencingEpoch offset), none)
  | .observe update =>
    if update.range ≠ replica.range then (replica, none)
    else
      match checkFollowerFencing replica update.fencingEpoch with
      | .error _ => (replica, none)
      | .ok () => (replica, some (.raise (min update.committedHighWatermark replica.segment.committedOffset)))
  | .raise visible => (replica.advanceTo visible, none)
  | .fetch startOffset maxBytes maxRecords =>
    match InProcessFollower.checkFollowerLease replica with
    | .error _ => (replica, none)
    | .ok () => (replica, some (.read startOffset maxBytes maxRecords replica.clusterCommitted))
  | .read .. => (replica, none)

/-- The sections before which the metadata lock is held. -/
def holdsLock : FollowerTask → Bool
  | .measure .. | .record .. | .publish .. | .raise _ | .read .. => true
  | _ => false

/-- The sections that begin by taking it. -/
def takesLock : FollowerTask → Bool
  | .adopt .. | .observe _ | .fetch .. => true
  | _ => false

/-- What a caller can start. -/
def starts (replica : Replica) : FollowerTask → Bool
  | .adopt _ none | .truncate _ | .observe _ | .fetch .. => true
  | .adopt epoch (some _) =>
    -- A fence is refused below the held epoch and above the grant this replica knows of.
    replica.heldFencingEpoch ≤ epoch && epoch ≤ replica.metaFencingEpoch.fencingEpoch
  | _ => false

end FollowerTask

structure FollowerServer where
  replica : Replica
  tasks : List FollowerTask

inductive FollowerEvent
  | append (requests : List ReplicaAppendRequest)
  | lease (change : LeaseEvent)
  | retain (framing : Framing) (maxTotalBytes : Nat)
  | start (task : FollowerTask)
  | advance (task : FollowerTask)

namespace FollowerServer

def lockHeld (server : FollowerServer) : Bool := server.tasks.any FollowerTask.holdsLock

/-- One event.  Retention runs with appends and observations, under the log's lock; here it may run at any time. -/
def followStep (server : FollowerServer) : FollowerEvent → Option FollowerServer
  | .append requests =>
    if server.lockHeld then none
    else some { server with replica := (applyAppendBatch server.replica requests).1 }
  | .lease change =>
    if server.lockHeld then none
    else some { server with
      replica := { server.replica with metaFencingEpoch := server.replica.metaFencingEpoch.step change } }
  | .retain framing maxTotalBytes =>
    let floor := min server.replica.clusterCommitted server.replica.segment.committedOffset
    some { server with
      replica := { server.replica with segment := server.replica.segment.retain framing maxTotalBytes floor } }
  | .start task => if task.starts server.replica then some { server with tasks := task :: server.tasks } else none
  | .advance task =>
    if task ∈ server.tasks ∧ ¬(task.takesLock ∧ server.lockHeld) then
      some ⟨(task.next server.replica).1, (task.next server.replica).2.toList ++ server.tasks.erase task⟩
    else none

end FollowerServer

/-! ## What the watermark promises -/

/-- A request or an update that the fencing refuses. -/
def Replica.Refuses (replica : Replica) (epoch : Nat) : Prop :=
  epoch ≠ replica.heldFencingEpoch ∨ replica.metaFencingEpoch.leaseActive = false ∨
    replica.metaFencingEpoch.fencingEpoch ≠ replica.heldFencingEpoch

instance (replica : Replica) (epoch : Nat) : Decidable (replica.Refuses epoch) :=
  inferInstanceAs (Decidable (_ ∨ _))

/-- What the requests before the first refused one make of the replica. -/
def Replica.acceptedPart (replica : Replica) (requests : List ReplicaAppendRequest) : Replica :=
  if replica.online then
    (placeAll replica (requests.takeWhile fun request => ¬replica.Refuses request.fencingEpoch)).1
  else replica

/-- The mark is never above the log's own durability. -/
def Watermarked (replica : Replica) : Prop := replica.clusterCommitted ≤ replica.segment.committedOffset

instance (replica : Replica) : Decidable (Watermarked replica) := inferInstanceAs (Decidable (_ ≤ _))

/-- What one event may do. -/
structure LawfulSection (before : FollowerServer) (event : FollowerEvent) (after : FollowerServer) : Prop where
  markRises : before.replica.clusterCommitted ≤ after.replica.clusterCommitted
  epochRises : before.replica.heldFencingEpoch ≤ after.replica.heldFencingEpoch
  /-- No record below the mark goes. -/
  kept : ∀ offset < before.replica.clusterCommitted,
    after.replica.segment.records[offset]? = before.replica.segment.records[offset]?
  /-- A fetch reads below the mark and below the durable frontier. -/
  read : ∀ framing startOffset maxBytes maxRecords highWatermark batch,
    event = .advance (.read startOffset maxBytes maxRecords highWatermark) →
    fetchBelow framing before.replica startOffset maxBytes maxRecords highWatermark = .ok batch →
    ∀ fetched ∈ batch.records, fetched.offset < before.replica.clusterCommitted ∧
      fetched.offset < before.replica.segment.committedOffset
  /-- A group with a refused request does to the log what its requests before that one do, and nothing to the mark. -/
  refusedAppend : ∀ requests, event = .append requests →
    (∃ request ∈ requests, before.replica.Refuses request.fencingEpoch) →
    after.replica.clusterCommitted = before.replica.clusterCommitted ∧
      after.replica.segment = (before.replica.acceptedPart requests).segment
  /-- A refused update ends there. -/
  refusedUpdate : ∀ update, event = .advance (.observe update) → before.replica.Refuses update.fencingEpoch →
    after.replica = before.replica ∧ after.tasks = before.tasks.erase (.observe update)

/-- A compared cut below a measured raise: whichever of them runs first, the other acts on what is no longer so. -/
def FollowerTask.Crosses : FollowerTask → FollowerTask → Bool
  | .cut offset, .raise visible | .raise visible, .cut offset => offset < visible
  | _, _ => false

/-- The order of a schedule: a cut does not run while a raise above it waits, nor a raise while a cut below it does. -/
def InOrder (server : FollowerServer) : FollowerEvent → Prop
  | .advance task => ∀ waiting ∈ server.tasks, task.Crosses waiting = false
  | _ => True

instance (server : FollowerServer) : ∀ event, Decidable (InOrder server event)
  | .advance _ => inferInstanceAs (Decidable (∀ _ ∈ _, _))
  | .append _ | .lease _ | .retain .. | .start _ => inferInstanceAs (Decidable True)

def inOrderStep (server : FollowerServer) (event : FollowerEvent) : Option FollowerServer :=
  if InOrder server event then server.followStep event else none

/-- What holds of a follower between events: its mark, that what is in flight was compared with it or measured against
the log's durability, and that fetches in flight read below it. -/
structure Marked (server : FollowerServer) : Prop where
  durable : Watermarked server.replica
  cuts : ∀ offset, .cut offset ∈ server.tasks → server.replica.clusterCommitted ≤ offset
  raises : ∀ visible, .raise visible ∈ server.tasks → visible ≤ server.replica.segment.committedOffset
  reads : ∀ startOffset maxBytes maxRecords highWatermark,
    .read startOffset maxBytes maxRecords highWatermark ∈ server.tasks → highWatermark ≤ server.replica.clusterCommitted

/-! ## What each section keeps -/

/-- The mark and the held epoch rise, what is below the mark stays, and the mark stays below durability. -/
structure KeepsMark (before after : Replica) : Prop where
  mark : before.clusterCommitted ≤ after.clusterCommitted
  epoch : before.heldFencingEpoch ≤ after.heldFencingEpoch
  kept : ∀ offset < before.clusterCommitted, after.segment.records[offset]? = before.segment.records[offset]?
  durable : Watermarked after

section Keeps

variable {before : Replica}

section

variable (durable : Watermarked before)

include durable

/-- Neither the log nor the mark changed. -/
theorem KeepsMark.same (segment : after.segment = before.segment)
    (mark : after.clusterCommitted = before.clusterCommitted) (epoch : before.heldFencingEpoch ≤ after.heldFencingEpoch) :
    KeepsMark before after :=
  ⟨le_of_eq mark.symm, epoch, fun _ _ => by rw [segment], by rw [Watermarked, mark, segment]; exact durable⟩

theorem KeepsMark.refl : KeepsMark before before := .same durable rfl rfl (le_refl _)

theorem KeepsMark.appends (appended : before.Appends after added) : KeepsMark before after := by
  have mark : after.clusterCommitted = before.clusterCommitted := by rw [appended.frame]
  refine ⟨le_of_eq mark.symm, le_of_eq appended.heldFencingEpoch.symm, fun offset below => ?_, ?_⟩
  · have within : offset < before.segment.records.length := lt_of_lt_of_le below (le_trans durable before.segment.durable)
    rw [appended.records, List.getElem?_append_left within]
  · rw [Watermarked, mark]
    exact le_trans durable appended.committed

/-- A cut at or above the mark. -/
theorem KeepsMark.truncated {segment}
    (above : before.clusterCommitted ≤ offset) (truncated : before.segment.Truncated segment offset removed) :
    KeepsMark before { before with segment } := by
  refine ⟨le_refl _, le_refl _, fun position below => ?_, ?_⟩
  · rw [truncated.records, List.getElem?_take, if_pos (lt_of_lt_of_le below above)]
  · exact Nat.le_trans (Nat.le_min.mpr ⟨durable, above⟩) truncated.committed

end

/-- Only a cut changes the log and only a raise the mark. -/
theorem next_cases (replica : Replica) (task : FollowerTask) :
    (∃ offset, task = .cut offset) ∨ (∃ visible, task = .raise visible) ∨
      (task.next replica).1.segment = replica.segment ∧ (task.next replica).1.clusterCommitted = replica.clusterCommitted
        ∧ replica.heldFencingEpoch ≤ (task.next replica).1.heldFencingEpoch := by
  cases task with
  | cut offset => exact .inl ⟨offset, rfl⟩
  | raise visible => exact .inr (.inl ⟨visible, rfl⟩)
  | adopt | measure | read => exact .inr (.inr ⟨rfl, rfl, le_refl _⟩)
  | record epoch startOffset fence | trim offset =>
    exact .inr (.inr ⟨replica.updateJournal_segment _, replica.updateJournal_clusterCommitted _,
      le_of_eq (replica.updateJournal_heldFencingEpoch _).symm⟩)
  | publish epoch fence => exact .inr (.inr ⟨rfl, rfl, le_max_left _ _⟩)
  | reconcile | dispute | truncate | observe | fetch =>
    right; right
    simp only [FollowerTask.next]
    repeat' split
    all_goals exact ⟨rfl, rfl, le_refl _⟩

section

variable {server : FollowerServer} (marked : Marked server)

include marked

/-- A cut was compared with the mark, and a raise measured against durability. -/
theorem KeepsMark.next {task} (isTask : task ∈ server.tasks) : KeepsMark server.replica (task.next server.replica).1 := by
  rcases next_cases server.replica task with ⟨offset, rfl⟩ | ⟨visible, rfl⟩ | ⟨segment, mark, epoch⟩
  · simp only [FollowerTask.next]
    split
    · exact .refl marked.durable
    case h_2 segment removed cut =>
      exact .truncated marked.durable (marked.cuts offset isTask) (SegmentSet.truncateTo_truncated cut)
  · refine ⟨le_max_left _ _, le_refl _, fun _ _ => rfl, ?_⟩
    exact Nat.max_le.mpr ⟨marked.durable, marked.raises visible isTask⟩
  · exact .same marked.durable segment mark epoch

/-- In order, a section leaves every waiting cut at or above the mark, and every waiting raise at or below durability. -/
theorem Marked.waiting {task} (inOrder : InOrder server (.advance task)) :
    (∀ offset, .cut offset ∈ server.tasks → (task.next server.replica).1.clusterCommitted ≤ offset) ∧
      ∀ visible, .raise visible ∈ server.tasks → visible ≤ (task.next server.replica).1.segment.committedOffset := by
  rcases next_cases server.replica task with ⟨cut, rfl⟩ | ⟨raised, rfl⟩ | ⟨segment, mark, -⟩
  · simp only [FollowerTask.next]
    split
    · exact ⟨marked.cuts, marked.raises⟩
    case h_2 segment removed isCut =>
      refine ⟨marked.cuts, fun visible waits => ?_⟩
      have within : visible ≤ cut := by simpa [FollowerTask.Crosses] using inOrder _ waits
      exact Nat.le_trans (Nat.le_min.mpr ⟨marked.raises visible waits, within⟩)
        (SegmentSet.truncateTo_truncated isCut).committed
  · refine ⟨fun offset waits => ?_, marked.raises⟩
    have within : raised ≤ offset := by simpa [FollowerTask.Crosses] using inOrder _ waits
    exact Nat.max_le.mpr ⟨marked.cuts offset waits, within⟩
  · rw [segment, mark]
    exact ⟨marked.cuts, marked.raises⟩

theorem KeepsMark.step {next : FollowerServer} (stepped : inOrderStep server event = some next) :
    KeepsMark server.replica next.replica := by
  obtain ⟨-, stepped⟩ := ite_none_right_eq_some.mp stepped
  cases event with
  | append requests =>
    obtain ⟨-, isNext⟩ := ite_none_left_eq_some.mp stepped
    obtain ⟨added, appended, -⟩ := applyAppendBatch_appends server.replica requests
    exact some.inj isNext ▸ .appends marked.durable appended
  | lease =>
    obtain ⟨-, isNext⟩ := ite_none_left_eq_some.mp stepped
    exact some.inj isNext ▸ .same marked.durable rfl rfl (le_refl _)
  | retain framing maxTotalBytes =>
    obtain rfl := some.inj stepped
    exact ⟨le_refl _, le_refl _, fun _ _ => rfl, marked.durable⟩
  | start task =>
    obtain ⟨-, isNext⟩ := ite_none_right_eq_some.mp stepped
    exact some.inj isNext ▸ .refl marked.durable
  | advance task =>
    obtain ⟨⟨isTask, -⟩, isNext⟩ := ite_none_right_eq_some.mp stepped
    exact some.inj isNext ▸ .next marked isTask

end

end Keeps

/-! ## Refusals -/

section Refusals

variable {replica : Replica} {requests : List ReplicaAppendRequest} {request : ReplicaAppendRequest}

theorem checkFollowerFencing_refuses (refuses : replica.Refuses epoch) :
    ∃ refusal, checkFollowerFencing replica epoch = .error refusal := by
  unfold checkFollowerFencing
  split
  · exact ⟨_, rfl⟩
  case isFalse same =>
    rw [if_pos (refuses.resolve_left same)]
    exact ⟨_, rfl⟩

theorem placeAppend_refuses {durability} (refuses : replica.Refuses request.fencingEpoch) :
    ∃ refusal, placeAppend replica request durability = (replica, .error refusal) := by
  unfold placeAppend
  split
  · exact ⟨_, rfl⟩
  · obtain ⟨refusal, refused⟩ := checkFollowerFencing_refuses refuses
    rw [refused]
    exact ⟨_, rfl⟩

theorem Refuses.appends (appended : replica.Appends after added) : after.Refuses epoch ↔ replica.Refuses epoch := by
  rw [appended.frame]
  rfl

section

variable (refused : ∃ request ∈ requests, replica.Refuses request.fencingEpoch)

include refused

/-- The loop over a group ends at the first refused request. -/
theorem placeAll_refuses : (∃ refusal, (placeAll replica requests).2 = .error refusal) ∧ (placeAll replica requests).1
        = (placeAll replica (requests.takeWhile fun request => ¬replica.Refuses request.fencingEpoch)).1 := by
  induction requests generalizing replica with
  | nil =>
    obtain ⟨_, member, _⟩ := refused
    cases member
  | cons request requests ih =>
    by_cases refuses : replica.Refuses request.fencingEpoch
    · obtain ⟨refusal, isRefused⟩ := @placeAppend_refuses replica request .Buffered refuses
      simp [placeAll, isRefused, refuses]
    · have later : ∃ request ∈ requests, replica.Refuses request.fencingEpoch := by
        obtain ⟨other, member, isRefused⟩ := refused
        rcases List.mem_cons.mp member with rfl | member
        · exact absurd isRefused refuses
        · exact ⟨other, member, isRefused⟩
      rw [List.takeWhile_cons_of_pos (by simpa using refuses), placeAll, placeAll]
      obtain ⟨added, appended, -⟩ := InProcessFollower.placeAppend_appends replica request .Buffered
      split
      case h_1 => exact ⟨⟨_, rfl⟩, rfl⟩
      case h_2 placed isPlaced =>
        rw [isPlaced] at appended
        have same : ∀ epoch, placed.Refuses epoch ↔ replica.Refuses epoch := fun _ => Refuses.appends appended
        have rest := @ih placed (by simpa [same] using later)
        simpa [same] using rest

theorem applyAppendBatch_refuses : (applyAppendBatch replica requests).1 = replica.acceptedPart requests := by
  unfold applyAppendBatch
  split
  · obtain ⟨_, member, _⟩ := refused
    cases member
  case h_2 request =>
    obtain ⟨other, member, refuses⟩ := refused
    obtain rfl := List.mem_singleton.mp member
    unfold applyAppend Replica.acceptedPart
    obtain ⟨refusal, isRefused⟩ := @placeAppend_refuses replica other (if replica.holdFsync then .Buffered else .Fsync)
      refuses
    simp only [isRefused, refuses, not_true_eq_false, decide_false, Bool.false_eq_true, not_false_eq_true,
      List.takeWhile_cons_of_neg, placeAll]
    split <;> split <;> rfl
  case h_3 =>
    unfold Replica.acceptedPart
    obtain ⟨⟨refusal, isRefused⟩, accepted⟩ := placeAll_refuses refused
    cases online : replica.online with
    | false => rfl
    | true =>
      rw [if_neg (by decide), if_pos rfl, ← accepted]
      generalize placeAll replica requests = outcome at isRefused ⊢
      obtain ⟨placed, result⟩ := outcome
      simp only at isRefused
      subst isRefused
      rfl

end

theorem observe_refuses {update : CommittedHwmUpdate} (refuses : replica.Refuses update.fencingEpoch) :
    (observe update).next replica = (replica, none) := by
  simp only [next]
  split
  · rfl
  · obtain ⟨refusal, refused⟩ := checkFollowerFencing_refuses refuses
    rw [refused]

end Refusals

/-! ## Whole runs -/

section Runs

variable {server next : FollowerServer} {event : FollowerEvent}

/-- What a section leaves to be done: a cut that was just compared, a raise just measured, a read whose fetch just took
the mark. -/
def JustTaken (replica : Replica) : FollowerTask → Prop
  | .cut offset => replica.clusterCommitted ≤ offset
  | .raise visible => visible ≤ replica.segment.committedOffset
  | .read _ _ _ highWatermark => highWatermark = replica.clusterCommitted
  | _ => True

theorem next_justTaken {task after : FollowerTask} (isNext : (task.next replica).2 = some after) :
    JustTaken (task.next replica).1 after := by
  cases task with
  | raise | read | trim => cases isNext
  | adopt =>
    cases isNext
    split <;> trivial
  | measure | record =>
    cases isNext
    trivial
  | publish epoch fence =>
    obtain ⟨_, _, rfl⟩ := map_eq_some_iff.mp isNext
    trivial
  | truncate offset =>
    simp only [next] at isNext ⊢
    split at isNext
    · cases isNext
    case isFalse above =>
      cases isNext
      rw [if_neg above]
      exact Nat.not_lt.mp above
  | reconcile | dispute | cut | observe | fetch =>
    simp only [next] at isNext ⊢
    repeat' split at isNext
    all_goals cases isNext
    all_goals simp_all [JustTaken]

/-- Where the mark and durability only rise and nothing new waits. -/
theorem Marked.rises (marked : Marked server) (keeps : KeepsMark server.replica next.replica)
    (mark : next.replica.clusterCommitted = server.replica.clusterCommitted)
    (committed : server.replica.segment.committedOffset ≤ next.replica.segment.committedOffset)
    (waiting : ∀ task ∈ next.tasks, task ∈ server.tasks ∨ task.starts server.replica = true) : Marked next where
  durable := keeps.durable
  cuts offset waits := mark ▸ marked.cuts offset ((waiting _ waits).resolve_right nofun)
  raises visible waits := le_trans (marked.raises visible ((waiting _ waits).resolve_right nofun)) committed
  reads _ _ _ _ waits := mark ▸ marked.reads _ _ _ _ ((waiting _ waits).resolve_right nofun)

theorem Marked.step (marked : Marked server) (stepped : inOrderStep server event = some next) : Marked next := by
  have keeps := KeepsMark.step marked stepped
  obtain ⟨inOrder, stepped⟩ := ite_none_right_eq_some.mp stepped
  cases event with
  | append requests =>
    obtain ⟨-, isNext⟩ := ite_none_left_eq_some.mp stepped
    obtain rfl := some.inj isNext
    obtain ⟨added, appended, -⟩ := applyAppendBatch_appends server.replica requests
    exact marked.rises keeps (by rw [appended.frame]) appended.committed fun _ => .inl
  | lease =>
    obtain ⟨-, isNext⟩ := ite_none_left_eq_some.mp stepped
    obtain rfl := some.inj isNext
    exact marked.rises keeps rfl (le_refl _) fun _ => .inl
  | retain =>
    obtain rfl := some.inj stepped
    exact marked.rises keeps rfl (le_refl _) fun _ => .inl
  | start task =>
    obtain ⟨starts, isNext⟩ := ite_none_right_eq_some.mp stepped
    obtain rfl := some.inj isNext
    refine marked.rises keeps rfl (le_refl _) fun other waits => ?_
    exact (List.mem_cons.mp waits).elim (fun same => .inr (same ▸ starts)) .inl
  | advance task =>
    obtain ⟨-, isNext⟩ := ite_none_right_eq_some.mp stepped
    obtain rfl := some.inj isNext
    obtain ⟨cuts, raises⟩ := marked.waiting inOrder
    -- What waits is what the section left to be done, or was waiting before.
    have waiting {waits} (isTask : waits ∈ (task.next server.replica).2.toList ++ server.tasks.erase task) :
        JustTaken (task.next server.replica).1 waits ∨ waits ∈ server.tasks :=
      (List.mem_append.mp isTask).imp (fun isNew => next_justTaken (mem_toList.mp isNew)) List.mem_of_mem_erase
    refine ⟨keeps.durable, fun offset waits => ?_, fun visible waits => ?_, fun _ _ _ _ waits => ?_⟩
    · exact (waiting waits).elim id (cuts offset)
    · exact (waiting waits).elim id (raises visible)
    · exact (waiting waits).elim le_of_eq fun earlier => le_trans (marked.reads _ _ _ _ earlier) keeps.mark

theorem Marked.lawful (marked : Marked server) (stepped : inOrderStep server event = some next) :
    LawfulSection server event next := by
  have keeps := KeepsMark.step marked stepped
  obtain ⟨-, stepped⟩ := ite_none_right_eq_some.mp stepped
  refine ⟨keeps.mark, keeps.epoch, keeps.kept, ?_, ?_, ?_⟩
  · intro framing startOffset maxBytes maxRecords highWatermark batch isRead isOk fetched member
    subst isRead
    obtain ⟨⟨isTask, -⟩, -⟩ := ite_none_right_eq_some.mp stepped
    have below := fetchBelow_below isOk member
    have marked := marked.reads _ _ _ _ isTask
    omega
  · intro requests isAppend refused
    subst isAppend
    obtain ⟨-, isNext⟩ := ite_none_left_eq_some.mp stepped
    obtain rfl := some.inj isNext
    obtain ⟨added, appended, -⟩ := applyAppendBatch_appends server.replica requests
    exact ⟨by rw [appended.frame], by rw [applyAppendBatch_refuses refused]⟩
  · intro update isObserve refuses
    subst isObserve
    obtain ⟨-, isNext⟩ := ite_none_right_eq_some.mp stepped
    obtain rfl := some.inj isNext
    rw [observe_refuses refuses]
    exact ⟨rfl, rfl⟩

/-- A follower whose mark starts below its durability, along every run in which cuts and raises come in order. -/
theorem watermark_kept (start : Replica) (below : Watermarked start)
    (reached : Reachable (fun before event after => inOrderStep before event = some after) ⟨start, []⟩ server) :
    Watermarked server.replica ∧ ∀ event next, inOrderStep server event = some next → LawfulSection server event next := by
  have marked : Marked server :=
    reached.invariant Marked ⟨below, nofun, nofun, nofun⟩ fun _ _ _ _ marked stepped => marked.step stepped
  exact ⟨marked.durable, fun event next stepped => marked.lawful stepped⟩

/-- A follower of epoch one that took two records and knows of no mark yet. -/
def twoRecords : Replica :=
  [Operation.grant 1, .adopt 1, .replicate [ordersAppend 1 0 [[10], [20]]]].foldl perform (.started 2#128 ordersRange .V2 16)

/-- The leader's mark covers both records. -/
def bothAcknowledged : FollowerTask := .observe { range := ordersRange, fencingEpoch := 1, committedHighWatermark := 2 }

/-- The mark is observed and raised after the second record was discarded, so it covers the first only. -/
def truncatedFirst : List FollowerEvent :=
  [.start (.truncate 1), .advance (.truncate 1), .advance (.cut 1),
    .start bothAcknowledged, .advance bothAcknowledged, .advance (.raise 1)]

theorem truncated_first_kept : ∃ server ∈ truncatedFirst.foldlM inOrderStep ⟨twoRecords, []⟩,
      server.replica.clusterCommitted = 1 ∧ Watermarked server.replica :=
  ⟨_, rfl, rfl, (watermark_kept twoRecords (by decide) (.foldlM .refl truncatedFirst rfl)).1⟩

/-- The mark is raised between the comparison and the cut. -/
def raisedBetween : List FollowerEvent :=
  [.start (.truncate 1), .advance (.truncate 1), .start bothAcknowledged,
    .advance bothAcknowledged, .advance (.raise 2)]

/-- A record below the mark goes, and the mark is left above the durable frontier. -/
theorem truncation_overtaken : Watermarked twoRecords ∧ ∃ before after : FollowerServer,
      Reachable (fun before event after => FollowerServer.followStep before event = some after) ⟨twoRecords, []⟩ before ∧
      before.followStep (.advance (.cut 1)) = some after ∧
      1 < before.replica.clusterCommitted ∧ before.replica.segment.records[1]? ≠ none ∧
      after.replica.segment.records[1]? = none ∧ ¬Watermarked after.replica := by
  have run : ∃ before ∈ raisedBetween.foldlM FollowerServer.followStep ⟨twoRecords, []⟩,
      ∃ after ∈ before.followStep (.advance (.cut 1)), 1 < before.replica.clusterCommitted ∧
        before.replica.segment.records[1]? ≠ none ∧ after.replica.segment.records[1]? = none ∧
        ¬Watermarked after.replica :=
    ⟨_, rfl, _, rfl, by decide, by decide, by decide, by decide⟩
  obtain ⟨before, reached, after, stepped, facts⟩ := run
  exact ⟨by decide, before, after, .foldlM .refl raisedBetween reached, stepped, facts⟩

end Runs

end VtopEngine.Broker
