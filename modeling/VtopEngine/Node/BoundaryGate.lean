import VtopEngine.Broker.Fetch
import VtopEngine.Broker.Lifetime

/-! # The gate of an unproven boundary

A promotion raises a gate on the broker's fetches until a marker of its epoch is held by a
quorum (`lease_agent.rs`).  Promotions, demotions, suspensions, publication attempts and
fetches interleave statement by statement; the metadata lock is held by a fetch from its
lease check on, and the marker's lock from a change of the pending marker to the change of
the gate that goes with it.

* `GateTask.next`, `gateStep` — one statement, and one event.
* `Guarded` — what the statements keep between the lease, the gate and the pending marker.
* `served_proven` — a fetch let through was of a published epoch, along every run in which
  the gate is lowered in order.
* `late_clear_opens_gate` — an attempt for the older epoch lowers the gate that the next
  promotion has raised and not yet pended its marker for.
-/

namespace VtopEngine.Node

open Lib Broker LocalBroker MetaLeaseState List Option

/-- A call in flight, by the statement it makes next.  A promotion raises the gate, adopts, activates, compares and
pends its marker, or restores the gate if it was stale; an attempt reads the pending epoch, appends, replicates,
revalidates and clears. -/
inductive GateTask
  | promote (epoch : Nat) (committedOffset : Option Nat)
  | adopt (epoch : Nat)
  | activate (epoch : Nat)
  | compare (epoch : Nat)
  | readGate (epoch : Nat)
  | restore (epoch : Nat) (pending : Bool)
  | pend (epoch : Nat)
  | demote (epoch : Nat)
  | suspend (epoch : Nat)
  | retire (epoch : Nat)
  | attempt
  | append (epoch : Nat)
  | replicate (epoch leaderCommitted : Nat)
  | revalidate (epoch leaderCommitted : Nat)
  | clear (epoch : Nat)
  | check (request : FetchRequest)
  | gate (epoch : Nat)
  deriving DecidableEq

/-- What the holder of the marker's lock has yet to do: lower the gate for an epoch whose marker it dropped, published or
retired, or raise it for one that it pended. -/
inductive GateSection
  | lower (epoch : Nat) (isPublished : Bool)
  | raise
  deriving DecidableEq

/-- The broker with its gate and the publisher's pending marker.  `published` holds the epochs whose marker was
published, `served` the epochs fetches were let through at. -/
structure GateServer where
  broker : Replica
  boundaryPending : Bool
  pendingMarker : Option Nat
  locked : Option GateSection
  tasks : List GateTask
  (published served : List Nat)

/-- Only a replicated range of the second format publishes through a marker. -/
def gatesOnMarker (broker : Replica) : Bool :=
  match broker.segmentFormat with
  | .V1 _ => false
  | .V2 => broker.replicated

namespace GateServer

def setBoundaryPending (server : GateServer) (pending : Bool) : GateServer := { server with boundaryPending := pending }

/-- Pend an epoch's marker unless a newer epoch's is pending; the gate is raised under the same lock. -/
def pendMarker (server : GateServer) (epoch : Nat) : GateServer :=
  if server.pendingMarker.any (epoch < ·) then server
  else { server with pendingMarker := some epoch, locked := some .raise }

/-- Drop the pending marker if it is this epoch's; the gate is lowered under the same lock. -/
def dropMarker (server : GateServer) (epoch : Nat) (isPublished : Bool) : GateServer :=
  if server.pendingMarker = some epoch then
    { server with pendingMarker := none, locked := some (.lower epoch isPublished) }
  else server

def retireMarker (server : GateServer) (epoch : Nat) : GateServer := server.dropMarker epoch false

/-- The change of the gate that the holder of the marker's lock has yet to make. -/
def finish (server : GateServer) : Option GateServer :=
  server.locked.map fun
    | .lower .. => { server.setBoundaryPending false with locked := none }
    | .raise => { server.setBoundaryPending true with locked := none }

def view (server : GateServer) : MetaLeaseState := server.broker.metaFencingEpoch

def setView (server : GateServer) (view : MetaLeaseState) : GateServer :=
  { server with broker := { server.broker with metaFencingEpoch := view } }

end GateServer

/-- One statement: what it makes of the server, and the statement that follows.  `answer` is what the replica set says
to an attempt's fan-out. -/
def GateTask.next (server : GateServer) (answer : ReplicaQuorumResult) : GateTask → GateServer × Option GateTask
  | .promote epoch committedOffset =>
    if gatesOnMarker server.broker then (server.setBoundaryPending true, some (.adopt epoch))
    else
      -- Without a marker the candidate boundary is published at once.
      match committedOffset, server.broker.replicated with
      | some offset, true => ({ server with broker := server.broker.advanceTo offset }, some (.adopt epoch))
      | _, _ => (server, some (.adopt epoch))
  | .adopt epoch => ({ server with broker := server.broker.adoptFencingEpoch epoch }, some (.activate epoch))
  | .activate epoch =>
    (server.setView (server.view.set epoch), if gatesOnMarker server.broker then some (.compare epoch) else none)
  | .compare epoch => (server, some (if server.broker.heldFencingEpoch ≠ epoch then .readGate epoch else .pend epoch))
  | .readGate epoch => (server, some (.restore epoch server.pendingMarker.isSome))
  | .restore _ pending => (server.setBoundaryPending pending, none)
  | .pend epoch => (server.pendMarker epoch, none)
  | .demote epoch => (server.setView (server.view.clearLease epoch), some (.retire epoch))
  | .suspend epoch => (server.setView (server.view.suspend epoch), some (.retire epoch))
  | .retire epoch => (server.retireMarker epoch, none)
  | .attempt => (server, server.pendingMarker.map .append)
  | .append epoch =>
    match LocalBroker.prepareMarker server.broker epoch with
    | (broker, .error _) => ({ server with broker }, none)
    | (broker, .ok (_, leaderCommitted)) => ({ server with broker }, some (.replicate epoch leaderCommitted))
  | .replicate epoch leaderCommitted => (server, if answer.hasQuorum then some (.revalidate epoch leaderCommitted) else none)
  | .revalidate epoch leaderCommitted =>
    match LocalBroker.checkRange server.broker server.broker.range epoch with
    | .error _ => (server, none)
    | .ok () =>
      ({ server with broker := server.broker.advanceTo leaderCommitted, published := epoch :: server.published },
        some (.clear epoch))
  | .clear epoch => (server.dropMarker epoch true, none)
  | .check request =>
    match LocalBroker.checkRange server.broker request.range request.fencingEpoch with
    | .error _ => (server, none)
    | .ok () => (server, some (.gate request.fencingEpoch))
  | .gate epoch => (if server.boundaryPending then server else { server with served := epoch :: server.served }, none)

namespace GateTask

/-- A fetch past its lease check holds the metadata lock. -/
def holdsLock : GateTask → Bool
  | .gate _ => true
  | _ => false

/-- The statements that take it. -/
def takesLock : GateTask → Bool
  | .activate _ | .demote _ | .suspend _ | .append _ | .revalidate .. | .check _ => true
  | _ => false

/-- The statements that take the lock of the pending marker. -/
def takesMarker : GateTask → Bool
  | .readGate _ | .pend _ | .retire _ | .attempt | .clear _ => true
  | _ => false

/-- What is called from outside. -/
def starts : GateTask → Bool
  | .promote .. | .demote _ | .suspend _ | .attempt | .check _ => true
  | _ => false

/-- The epoch of a promotion that has raised the gate and not yet pended its marker. -/
def promoting : GateTask → Option Nat
  | .adopt epoch | .activate epoch | .compare epoch | .readGate epoch | .restore epoch _ | .pend epoch => some epoch
  | _ => none

end GateTask

inductive GateEvent
  | start (task : GateTask)
  | advance (task : GateTask) (answer : ReplicaQuorumResult)
  | finish

def GateServer.lockHeld (server : GateServer) : Bool := server.tasks.any GateTask.holdsLock

/-- The calls in flight after one of them made a statement. -/
def GateServer.remaining (server : GateServer) (task : GateTask) (follows : Option GateTask) : List GateTask :=
  follows.toList ++ server.tasks.erase task

def gateStep (server : GateServer) : GateEvent → Option GateServer
  | .start task => if task.starts then some { server with tasks := task :: server.tasks } else none
  | .advance task answer =>
    if task ∈ server.tasks ∧ ¬(task.takesLock ∧ server.lockHeld) ∧ ¬(task.takesMarker ∧ server.locked.isSome) then
      some { (task.next server answer).1 with tasks := server.remaining task (task.next server answer).2 }
    else none
  | .finish => server.finish

/-! ## Lowering the gate in order -/

/-- No promotion but those of the given tasks is between raising the gate and pending its marker. -/
def NonePromoting (tasks : List GateTask) : Prop := ∀ task ∈ tasks, task.promoting = none

instance (tasks : List GateTask) : Decidable (NonePromoting tasks) :=
  inferInstanceAs (Decidable (∀ task ∈ tasks, _))

/-- What the lowering of the gate has to find: no promotion that still relies on it; for a retirement, that its epoch was
not activated again. -/
def GateSection.InOrder (server : GateServer) : GateSection → Prop
  | .lower epoch isPublished => NonePromoting server.tasks ∧
      (isPublished = false → ¬(server.view.leaseActive = true ∧ server.view.fencingEpoch = epoch))
  | .raise => True

/-- The gate that a stale promotion is about to restore. -/
def GateTask.restores : GateTask → Option Bool
  | .restore _ pending => some pending
  | _ => none

/-- A stale promotion has to find the pending marker as it was read and, to lower the gate, that no other promotion relies on
it and no marker is being dropped. -/
def InOrder (server : GateServer) : GateEvent → Prop
  | .start _ => True
  | .advance task _ => ∀ pending ∈ task.restores, pending = server.pendingMarker.isSome ∧
      (pending = false → NonePromoting (server.tasks.erase task) ∧ server.locked = none)
  | .finish => ∀ rest ∈ server.locked, rest.InOrder server

instance (server : GateServer) : DecidablePred (GateSection.InOrder server)
  | .lower .. => inferInstanceAs (Decidable (_ ∧ _))
  | .raise => inferInstanceAs (Decidable True)

instance (server : GateServer) : ∀ event, Decidable (InOrder server event)
  | .start _ => inferInstanceAs (Decidable True)
  | .advance task _ => inferInstanceAs (Decidable (∀ pending ∈ task.restores, _))
  | .finish => inferInstanceAs (Decidable (∀ rest ∈ server.locked, _))

def orderlyStep (server : GateServer) (event : GateEvent) : Option GateServer :=
  if InOrder server event then gateStep server event else none

/-! ## What the statements keep -/

/-- What is known of a call by the statement it makes next. -/
def GateTask.Fits (server : GateServer) : GateTask → Prop
  | .activate epoch => epoch ≤ server.broker.heldFencingEpoch
  | .compare epoch => epoch ≤ server.broker.heldFencingEpoch ∧ epoch ≤ server.view.fencingEpoch
  | .readGate epoch | .restore epoch _ => epoch < server.broker.heldFencingEpoch ∧ epoch ≤ server.view.fencingEpoch
  | .pend epoch => epoch ≤ server.view.fencingEpoch
  | .clear epoch => epoch ∈ server.published
  | .gate epoch => server.view.leaseActive = true ∧ server.view.fencingEpoch = epoch
  | _ => True

/-- Either the pending marker is the epoch's own, or was and is being dropped, or a promotion of that epoch or a later one
is still to pend. -/
def GateServer.Owed (server : GateServer) (epoch : Nat) : Prop :=
  (server.pendingMarker = some epoch ∨ ∃ isPublished, server.locked = some (.lower epoch isPublished)) ∨
    ∃ task ∈ server.tasks, ∃ promoted ∈ task.promoting, epoch ≤ promoted

structure Guarded (server : GateServer) : Prop where
  gated : gatesOnMarker server.broker = true
  fits : ∀ task ∈ server.tasks, task.Fits server
  /-- The gate is up while a promotion is between raising it and pending its marker. -/
  raised : ¬NonePromoting server.tasks → server.boundaryPending = true
  /-- A held epoch that the view has not seen is about to be activated. -/
  activating : server.view.fencingEpoch < server.broker.heldFencingEpoch →
    .activate server.broker.heldFencingEpoch ∈ server.tasks
  pending : ∀ epoch ∈ server.pendingMarker, epoch ≤ server.view.fencingEpoch
  dropping : ∀ epoch isPublished, server.locked = some (.lower epoch isPublished) →
    server.pendingMarker = none ∧ (isPublished = true → epoch ∈ server.published)
  /-- An active epoch that was not published is behind the gate. -/
  closed : server.view.leaseActive = true → server.view.fencingEpoch ∉ server.published →
    server.boundaryPending = true ∧ server.Owed server.view.fencingEpoch
  proven : ∀ epoch ∈ server.served, epoch ∈ server.published

open GateServer

section Keeps

variable {server after : GateServer} {task : GateTask} {follows : Option GateTask} {answer : ReplicaQuorumResult} {epoch : Nat}

/-- What is known of a call stays known while epochs and publications only grow, and the view stays for a fetch that
holds the lock. -/
theorem GateTask.Fits.mono (fits : task.Fits server) (held : server.broker.heldFencingEpoch ≤ after.broker.heldFencingEpoch)
    (view : server.view.fencingEpoch ≤ after.view.fencingEpoch) (published : server.published ⊆ after.published)
    (locked : task.holdsLock = true → after.view = server.view) : task.Fits after := by
  cases task with
  | activate => exact le_trans fits held
  | compare => exact ⟨le_trans fits.1 held, le_trans fits.2 view⟩
  | readGate | restore => exact ⟨lt_of_lt_of_le fits.1 held, le_trans fits.2 view⟩
  | pend => exact le_trans fits view
  | clear => exact published fits
  | gate =>
    unfold Fits at fits ⊢
    rw [locked rfl]
    exact fits
  | _ => trivial

theorem mem_remaining (isTask : other ∈ server.tasks) (different : other ≠ task) : other ∈ server.remaining task follows :=
  mem_append_right _ ((mem_erase_of_ne different).mpr isTask)

/-- A promotion in flight is still in flight, or it was the one that made the statement. -/
theorem Owed.promoting (isTask : ∃ other ∈ server.tasks, ∃ epoch ∈ other.promoting, promoted ≤ epoch)
    (kept : ∀ epoch ∈ task.promoting, ∃ next ∈ follows, epoch ∈ next.promoting) :
    ∃ other ∈ server.remaining task follows, ∃ epoch ∈ other.promoting, promoted ≤ epoch := by
  obtain ⟨other, isOther, epoch, promotes, below⟩ := isTask
  by_cases same : other = task
  · obtain ⟨next, isNext, goesOn⟩ := kept epoch (same ▸ promotes)
    exact ⟨next, mem_append_left _ (mem_toList.mpr isNext), epoch, goesOn, below⟩
  · exact ⟨other, mem_remaining isOther same, epoch, promotes, below⟩

theorem NonePromoting.of_remaining (none : NonePromoting server.tasks) (quiet : ∀ next ∈ follows, next.promoting = .none) :
    NonePromoting (server.remaining task follows) := by
  intro other isOther
  rcases mem_append.mp isOther with isNext | remains
  · exact quiet other (mem_toList.mp isNext)
  · exact none other (mem_of_mem_erase remains)

theorem Guarded.raised_by (guarded : Guarded server) (isTask : task ∈ server.tasks) (promotes : task.promoting ≠ none) :
    server.boundaryPending = true :=
  guarded.raised fun none => promotes (none _ isTask)

/-- A statement that leaves the epochs and the pending marker, and may raise the gate or publish. -/
theorem Guarded.quiet (guarded : Guarded server) (notActivate : ∀ epoch, task ≠ .activate epoch)
    (tasks : after.tasks = server.remaining task follows) (gated : gatesOnMarker after.broker = true)
    (held : after.broker.heldFencingEpoch = server.broker.heldFencingEpoch) (view : after.view = server.view)
    (pending : after.pendingMarker = server.pendingMarker) (locked : after.locked = server.locked)
    (boundary : server.boundaryPending = true → after.boundaryPending = true)
    (published : server.published ⊆ after.published) (proven : ∀ epoch ∈ after.served, epoch ∈ after.published)
    (kept : ∀ epoch ∈ task.promoting, ∃ next ∈ follows, epoch ∈ next.promoting)
    (fits : ∀ next ∈ follows, next.Fits after ∧ (next.promoting ≠ none → after.boundaryPending = true)) :
    Guarded after := by
  refine ⟨gated, ?_, ?_, ?_, ?_, ?_, ?_, proven⟩
  · intro other isOther
    rw [tasks] at isOther
    rcases mem_append.mp isOther with isNext | remains
    · exact (fits other (mem_toList.mp isNext)).1
    · exact (guarded.fits other (mem_of_mem_erase remains)).mono (le_of_eq held.symm)
        (le_of_eq (by rw [view])) published fun _ => view
  · intro promoting
    by_cases raised : server.boundaryPending = true
    · exact boundary raised
    · -- Before the statement no promotion was in flight, so the one there is now raised the gate.
      rw [tasks] at promoting
      have none : NonePromoting server.tasks := by
        by_contra some
        exact raised (guarded.raised some)
      by_contra lowered
      exact promoting (none.of_remaining fun next isNext => by_contra fun promotes => lowered ((fits next isNext).2 promotes))
  · rw [view, held, tasks]
    exact fun below => mem_remaining (guarded.activating below) (notActivate _).symm
  · rw [pending, view]
    exact guarded.pending
  · rw [pending, locked]
    exact fun epoch isPublished drops => (guarded.dropping epoch isPublished drops).imp_right fun known ofAttempt =>
      published (known ofAttempt)
  · rw [view]
    intro active unpublished
    obtain ⟨raised, owed⟩ := guarded.closed active fun isPublished => unpublished (published isPublished)
    refine ⟨boundary raised, ?_⟩
    unfold Owed
    rw [pending, locked, tasks]
    exact owed.imp_right fun promoting => Owed.promoting promoting kept

/-- A statement that only goes on to the next one, or ends its call. -/
theorem Guarded.passes (guarded : Guarded server) (notActivate : ∀ epoch, task ≠ .activate epoch)
    (kept : ∀ epoch ∈ task.promoting, ∃ next ∈ follows, epoch ∈ next.promoting)
    (fits : ∀ next ∈ follows, next.Fits server ∧ (next.promoting ≠ none → server.boundaryPending = true)) :
    Guarded { server with tasks := server.remaining task follows } :=
  guarded.quiet notActivate rfl guarded.gated rfl rfl rfl rfl id (Subset.refl _) guarded.proven kept fits

theorem Guarded.ends (guarded : Guarded server) (notActivate : ∀ epoch, task ≠ .activate epoch)
    (idle : task.promoting = none) : Guarded { server with tasks := server.remaining task none } :=
  guarded.passes notActivate (by simp [idle]) (by simp)

/-- While no fetch holds the lock, no call in flight depends on the view. -/
theorem holdsLock_of_unlocked (unlocked : server.lockHeld = false) (isTask : task ∈ server.tasks) :
    task.holdsLock = false := by
  simpa using any_eq_false.mp unlocked task isTask

/-- A statement that deactivates the view, or moves it on inactive. -/
theorem Guarded.deactivated (guarded : Guarded server) {view : MetaLeaseState} (unlocked : server.lockHeld = false)
    (notActivate : ∀ epoch, task ≠ .activate epoch) (ends : task.promoting = none)
    (rises : server.view.fencingEpoch ≤ view.fencingEpoch)
    (active : view.leaseActive = true → server.view.leaseActive = true ∧ view.fencingEpoch = server.view.fencingEpoch) :
    Guarded { server.setView view with tasks := server.remaining task (some (.retire epoch)) } := by
  have fits : ∀ other ∈ server.remaining task (some (.retire epoch)), other = .retire epoch ∨ other ∈ server.tasks := by
    intro other isOther
    rcases mem_append.mp isOther with isNext | remains
    · exact .inl (some.inj (mem_toList.mp isNext)).symm
    · exact .inr (mem_of_mem_erase remains)
  refine ⟨guarded.gated, ?_, ?_, ?_, ?_, guarded.dropping, ?_, guarded.proven⟩
  · intro other isOther
    rcases fits other isOther with rfl | isOther
    · trivial
    · refine (guarded.fits other isOther).mono (le_refl _) rises (Subset.refl _) fun locked => ?_
      rw [holdsLock_of_unlocked unlocked isOther] at locked
      cases locked
  · intro promoting
    refine guarded.raised fun none => promoting ?_
    exact none.of_remaining fun next isNext => by rw [← some.inj isNext]; rfl
  · intro below
    exact mem_remaining (guarded.activating (lt_of_le_of_lt rises below)) (notActivate _).symm
  · exact fun pending isPending => le_trans (guarded.pending pending isPending) rises
  · intro isActive unpublished
    obtain ⟨wasActive, same⟩ := active isActive
    have unpublished : view.fencingEpoch ∉ server.published := unpublished
    obtain ⟨raised, owed⟩ := guarded.closed wasActive (same ▸ unpublished)
    refine ⟨raised, ?_⟩
    show Owed _ view.fencingEpoch
    rw [same]
    exact owed.imp_right fun promoting => Owed.promoting promoting (by simp [ends])

/-- A statement that drops the pending marker; the gate stays until the holder of the lock lowers it. -/
theorem Guarded.dropped (guarded : Guarded server) (isPending : server.pendingMarker = some epoch)
    (notActivate : ∀ epoch, task ≠ .activate epoch) (idle : task.promoting = none)
    (known : isPublished = true → epoch ∈ server.published) :
    Guarded { server with
      pendingMarker := .none, locked := some (.lower epoch isPublished), tasks := server.remaining task .none } := by
  refine ⟨guarded.gated, fun other isOther => ?_, fun promoting => guarded.raised fun none => promoting ?_, ?_, nofun, ?_, ?_,
    guarded.proven⟩
  · exact (guarded.fits other (mem_of_mem_erase isOther)).mono (le_refl _) (le_refl _) (Subset.refl _) fun _ => rfl
  · exact none.of_remaining nofun
  · exact fun below => mem_remaining (guarded.activating below) (notActivate _).symm
  · intro dropped ofAttempt drops
    cases drops
    exact ⟨rfl, known⟩
  · intro active unpublished
    obtain ⟨raised, owed⟩ := guarded.closed active unpublished
    refine ⟨raised, owed.imp (fun owed => .inr ?_) fun promoting => Owed.promoting promoting (by simp [idle])⟩
    -- The marker that was owed is the one that is dropped: a drop in progress leaves none pending.
    rcases owed with isOwed | ⟨earlier, drops⟩
    · have same : epoch = server.view.fencingEpoch := some.inj (isPending.symm.trans isOwed)
      exact ⟨isPublished, congrArg (fun epoch => some (GateSection.lower epoch isPublished)) same⟩
    · cases (guarded.dropping _ _ drops).1.symm.trans isPending

/-- The holder of the marker's lock changes the gate and lets go. -/
theorem Guarded.finished (guarded : Guarded server) (inOrder : ∀ rest ∈ server.locked, rest.InOrder server)
    (finished : server.finish = some after) : Guarded after := by
  obtain ⟨rest, isLocked, rfl⟩ := map_eq_some_iff.mp finished
  have fits {boundaryPending : Bool} : ∀ task ∈ server.tasks, task.Fits { server with boundaryPending, locked := none } :=
    fun task isTask => (guarded.fits task isTask).mono (le_refl _) (le_refl _) (Subset.refl _) fun _ => rfl
  cases rest with
  | raise =>
    refine ⟨guarded.gated, fits, fun _ => rfl, guarded.activating, guarded.pending, nofun, fun active unpublished => ⟨rfl, ?_⟩,
      guarded.proven⟩
    refine (guarded.closed active unpublished).2.imp_left fun owed => .inl (owed.resolve_right ?_)
    rintro ⟨isPublished, drops⟩
    cases drops.symm.trans isLocked
  | lower epoch isPublished =>
    obtain ⟨none, inactive⟩ : NonePromoting server.tasks ∧
      (isPublished = false → ¬(server.view.leaseActive = true ∧ server.view.fencingEpoch = epoch)) := inOrder _ isLocked
    obtain ⟨unpending, known⟩ := guarded.dropping epoch isPublished isLocked
    refine ⟨guarded.gated, fits, fun some => absurd none some, guarded.activating, guarded.pending, nofun,
      fun active unpublished => ?_, guarded.proven⟩
    -- Nothing is owed but the marker that was dropped, and that was published or is not active.
    rcases (guarded.closed active unpublished).2 with (isOwed | ⟨ofAttempt, drops⟩) | ⟨other, isOther, promoted, promotes, -⟩
    · cases unpending.symm.trans isOwed
    · cases drops.symm.trans isLocked
      cases isPublished with
      | true => exact absurd (known rfl) unpublished
      | false => exact absurd ⟨active, rfl⟩ (inactive rfl)
    · rw [none other isOther] at promotes
      cases promotes

/-- An adoption writes the vector and the held epoch. -/
theorem adoptFencingEpoch_frame (broker : Replica) (epoch) :
    (broker.adoptFencingEpoch epoch).metaFencingEpoch = broker.metaFencingEpoch ∧
      gatesOnMarker (broker.adoptFencingEpoch epoch) = gatesOnMarker broker ∧
      (broker.adoptFencingEpoch epoch).heldFencingEpoch = max broker.heldFencingEpoch epoch := by
  unfold Replica.adoptFencingEpoch Replica.recordEpochStart Replica.updateJournal
  split
  · split <;> exact ⟨rfl, rfl, rfl⟩
  · exact ⟨rfl, rfl, rfl⟩

section

variable (guarded : Guarded server)

include guarded

theorem Guarded.adopted (isTask : .adopt epoch ∈ server.tasks) :
    Guarded { server with
      broker := server.broker.adoptFencingEpoch epoch
      tasks := server.remaining (.adopt epoch) (some (.activate epoch)) } := by
  obtain ⟨view, gates, held⟩ := adoptFencingEpoch_frame server.broker epoch
  have kept : ∀ promoted ∈ (GateTask.adopt epoch).promoting,
      ∃ next ∈ some (GateTask.activate epoch), promoted ∈ next.promoting :=
    fun promoted promotes => ⟨_, rfl, promotes⟩
  have raised := guarded.raised_by isTask (nofun)
  have sameView : GateServer.view { server with
      broker := server.broker.adoptFencingEpoch epoch
      tasks := server.remaining (.adopt epoch) (some (.activate epoch)) } = server.view := view
  refine ⟨gates.trans guarded.gated, ?_, fun _ => raised, ?_, ?_, guarded.dropping, ?_, guarded.proven⟩
  · intro other isOther
    rcases mem_append.mp isOther with isNext | remains
    · obtain rfl := some.inj (mem_toList.mp isNext)
      show epoch ≤ (server.broker.adoptFencingEpoch epoch).heldFencingEpoch
      rw [held]
      exact le_max_right _ _
    · exact (guarded.fits other (mem_of_mem_erase remains)).mono (held ▸ le_max_left _ _)
        (le_of_eq (by rw [sameView])) (Subset.refl _) fun _ => sameView
  · rw [sameView]
    simp only [held]
    intro below
    by_cases newer : server.broker.heldFencingEpoch < epoch
    · rw [max_eq_right (le_of_lt newer)]
      exact mem_cons_self
    · rw [max_eq_left (not_lt.mp newer)] at below ⊢
      exact mem_remaining (guarded.activating below) nofun
  · rw [sameView]
    exact guarded.pending
  · rw [sameView]
    intro active unpublished
    exact ⟨raised, (guarded.closed active unpublished).2.imp_right fun promoting => Owed.promoting promoting kept⟩

theorem Guarded.activated (unlocked : server.lockHeld = false) (isTask : .activate epoch ∈ server.tasks) :
    Guarded { server.setView (server.view.set epoch) with
      tasks := server.remaining (.activate epoch) (some (.compare epoch)) } := by
  have raised := guarded.raised_by isTask (nofun)
  have adopted : epoch ≤ server.broker.heldFencingEpoch := guarded.fits _ isTask
  have kept : ∀ promoted ∈ (GateTask.activate epoch).promoting,
      ∃ next ∈ some (GateTask.compare epoch), promoted ∈ next.promoting :=
    fun promoted promotes => ⟨_, rfl, promotes⟩
  -- The grant is taken unless the view is already past it.
  have taken : epoch < server.view.fencingEpoch ∧ server.view.set epoch = server.view ∨
      server.view.fencingEpoch ≤ epoch ∧ (server.view.set epoch).fencingEpoch = epoch := by
    unfold MetaLeaseState.set
    split
    case isTrue stale => exact .inl ⟨stale, rfl⟩
    case isFalse current => exact .inr ⟨not_lt.mp current, rfl⟩
  have rises : server.view.fencingEpoch ≤ (server.view.set epoch).fencingEpoch := by
    rcases taken with ⟨-, same⟩ | ⟨above, now⟩
    · rw [same]
    · rw [now]
      exact above
  have covers : epoch ≤ (server.view.set epoch).fencingEpoch := by
    rcases taken with ⟨stale, same⟩ | ⟨-, now⟩
    · rw [same]
      exact le_of_lt stale
    · exact le_of_eq now.symm
  refine ⟨guarded.gated, ?_, fun _ => raised, ?_, ?_, guarded.dropping, ?_, guarded.proven⟩
  · intro other isOther
    rcases mem_append.mp isOther with isNext | remains
    · obtain rfl := some.inj (mem_toList.mp isNext)
      exact ⟨adopted, covers⟩
    · refine (guarded.fits other (mem_of_mem_erase remains)).mono (le_refl _) rises (Subset.refl _) fun locked => ?_
      rw [holdsLock_of_unlocked unlocked (mem_of_mem_erase remains)] at locked
      cases locked
  · intro below
    have below : (server.view.set epoch).fencingEpoch < server.broker.heldFencingEpoch := below
    refine mem_remaining (guarded.activating (lt_of_le_of_lt rises below)) fun same => ?_
    have same : server.broker.heldFencingEpoch = epoch := GateTask.activate.inj same
    omega
  · exact fun pending isPending => le_trans (guarded.pending pending isPending) rises
  · intro active unpublished
    refine ⟨raised, ?_⟩
    rcases taken with ⟨stale, same⟩ | ⟨-, now⟩
    · have sameView : view { server.setView (server.view.set epoch) with
          tasks := server.remaining (.activate epoch) (some (.compare epoch)) } = server.view := same
      rw [sameView] at active unpublished ⊢
      exact (guarded.closed active unpublished).2.imp_right fun promoting => Owed.promoting promoting kept
    · exact .inr ⟨_, mem_cons_self, epoch, rfl, le_of_eq now⟩

/-- A promotion that pends leaves its epoch's marker pending, or a newer one that the view has already reached. -/
theorem Guarded.pended (isTask : .pend epoch ∈ server.tasks) (free : server.locked = none) :
    Guarded { server.pendMarker epoch with tasks := server.remaining (.pend epoch) none } := by
  have raised := guarded.raised_by isTask (nofun)
  have activated : epoch ≤ server.view.fencingEpoch := guarded.fits _ isTask
  have fits : ∀ other ∈ server.remaining (.pend epoch) none, other ∈ server.tasks :=
    fun other isOther => mem_of_mem_erase isOther
  have others : ∀ promoted, (∃ other ∈ server.tasks, ∃ epoch ∈ other.promoting, promoted ≤ epoch) →
      promoted ≤ epoch ∨ ∃ other ∈ server.remaining (.pend epoch) none, ∃ epoch ∈ other.promoting, promoted ≤ epoch := by
    rintro promoted ⟨other, isOther, later, promotes, below⟩
    by_cases same : other = .pend epoch
    · subst same
      exact .inl (some.inj promotes ▸ below)
    · exact .inr ⟨other, mem_remaining isOther same, later, promotes, below⟩
  unfold pendMarker
  split
  case isTrue newer =>
    refine ⟨guarded.gated, fun other isOther => guarded.fits other (fits other isOther), fun _ => raised,
      fun below => mem_remaining (guarded.activating below) nofun, guarded.pending, guarded.dropping,
      fun active unpublished => ⟨raised, ?_⟩, guarded.proven⟩
    obtain ⟨pending, isPending, above⟩ : ∃ pending, server.pendingMarker = some pending ∧ epoch < pending := by
      cases isPending : server.pendingMarker with
      | none => simp [isPending] at newer
      | some pending => exact ⟨pending, rfl, by simpa [isPending] using newer⟩
    have reached := guarded.pending pending isPending
    rcases (guarded.closed active unpublished).2 with isOwed | promoting
    · exact .inl isOwed
    · rcases others _ promoting with below | other
      · omega
      · exact .inr other
  case isFalse notNewer =>
    refine ⟨guarded.gated, fun other isOther => (guarded.fits other (fits other isOther)).mono (le_refl _)
      (le_refl _) (Subset.refl _) fun _ => rfl, fun _ => raised, fun below => mem_remaining (guarded.activating below) nofun,
      fun pending isPending => some.inj isPending ▸ activated, nofun, fun active unpublished => ⟨raised, ?_⟩, guarded.proven⟩
    rcases (guarded.closed active unpublished).2 with (isOwed | ⟨isPublished, drops⟩) | promoting
    · -- The active epoch's own marker was pending, and this one is not older.
      have notBelow : ¬epoch < server.view.fencingEpoch := by simpa [isOwed] using notNewer
      exact .inl (.inl (congrArg some (le_antisymm activated (not_lt.mp notBelow))))
    · cases free.symm.trans drops
    · rcases others _ promoting with below | other
      · exact .inl (.inl (congrArg some (le_antisymm activated below)))
      · exact .inr other

/-- A stale promotion restores the gate: the promotion that overtook it still relies on it, or a marker is pending. -/
theorem Guarded.restored {pending} (isTask : .restore epoch pending ∈ server.tasks)
    (current : pending = server.pendingMarker.isSome)
    (alone : pending = false → NonePromoting (server.tasks.erase (.restore epoch pending)) ∧ server.locked = none) :
    Guarded { server.setBoundaryPending pending with tasks := server.remaining (.restore epoch pending) none } := by
  obtain ⟨overtaken, activated⟩ : epoch < server.broker.heldFencingEpoch ∧ epoch ≤ server.view.fencingEpoch :=
    guarded.fits _ isTask
  have raisedFor : ∀ promoted, (∃ other ∈ server.tasks.erase (.restore epoch pending), ∃ epoch ∈ other.promoting,
      promoted ≤ epoch) → pending = true := by
    rintro promoted ⟨other, isOther, later, promotes, -⟩
    by_contra lowered
    rw [(alone (by simpa using lowered)).1 other isOther] at promotes
    cases promotes
  refine ⟨guarded.gated, fun other isOther => (guarded.fits other (mem_of_mem_erase isOther)).mono (le_refl _)
      (le_refl _) (Subset.refl _) fun _ => rfl, fun promoting => ?_,
    fun below => mem_remaining (guarded.activating below) nofun, guarded.pending, guarded.dropping,
    fun active unpublished => ?_, guarded.proven⟩
  · by_contra lowered
    exact promoting (alone (by simpa [setBoundaryPending] using lowered)).1
  · rcases (guarded.closed active unpublished).2 with owed | ⟨other, isOther, later, promotes, below⟩
    · refine ⟨?_, .inl owed⟩
      show pending = true
      rcases owed with isOwed | ⟨isPublished, drops⟩
      · rw [current, show server.pendingMarker = _ from isOwed]
        rfl
      · by_contra lowered
        cases (alone (by simpa using lowered)).2.symm.trans drops
    · -- If the promotion that is owed was this one, the epoch that overtook it is about to be activated.
      have another : ∃ other ∈ server.tasks.erase (.restore epoch pending), ∃ epoch ∈ other.promoting,
          server.view.fencingEpoch ≤ epoch := by
        by_cases same : other = .restore epoch pending
        · subst same
          obtain rfl : epoch = later := some.inj promotes
          have activating := guarded.activating (lt_of_le_of_lt below overtaken)
          exact ⟨.activate server.broker.heldFencingEpoch, (mem_erase_of_ne (by simp)).mpr activating, _, rfl,
            le_of_lt (lt_of_le_of_lt below overtaken)⟩
        · exact ⟨other, (mem_erase_of_ne same).mpr isOther, later, promotes, below⟩
      exact ⟨raisedFor _ another, .inr another⟩

end

theorem prepareMarker_frame (broker epoch) : (prepareMarker broker epoch).1.metaFencingEpoch = broker.metaFencingEpoch ∧
      gatesOnMarker (prepareMarker broker epoch).1 = gatesOnMarker broker ∧
      (prepareMarker broker epoch).1.heldFencingEpoch = broker.heldFencingEpoch := by
  obtain ⟨added, appended, -⟩ := prepareMarker_appends broker epoch
  rw [appended.frame]
  exact ⟨rfl, rfl, rfl⟩

theorem checkRange_active {broker range} (isOk : checkRange broker range epoch = .ok ()) :
    broker.metaFencingEpoch.leaseActive = true ∧ broker.metaFencingEpoch.fencingEpoch = epoch := by
  have held := checkRange_ok isOk
  unfold checkRange at isOk
  split at isOk
  · cases isOk
  split at isOk
  · cases isOk
  split at isOk
  · cases isOk
  case isFalse current =>
    rw [not_or, Bool.not_eq_false, not_not] at current
    exact ⟨current.1, current.2.trans held.symm⟩

/-- The statements of an attempt up to its publication, and those of a fetch, leave the gate to the others. -/
theorem Guarded.advance (guarded : Guarded server) (isTask : task ∈ server.tasks)
    (unlocked : task.takesLock = true → server.lockHeld = false) (free : task.takesMarker = true → server.locked = none)
    (inOrder : InOrder server (.advance task answer)) :
    Guarded { (task.next server answer).1 with tasks := server.remaining task (task.next server answer).2 } := by
  cases task with
  | promote epoch committedOffset =>
    simp only [GateTask.next, guarded.gated, if_true]
    refine guarded.quiet (by simp) rfl guarded.gated rfl rfl rfl rfl (fun _ => rfl) (Subset.refl _) guarded.proven
      (by simp [GateTask.promoting]) fun next isNext => ?_
    obtain rfl := some.inj isNext
    exact ⟨trivial, fun _ => rfl⟩
  | adopt epoch => exact guarded.adopted isTask
  | activate epoch =>
    simp only [GateTask.next, guarded.gated, if_true]
    exact guarded.activated (unlocked rfl) isTask
  | compare epoch =>
    have raised := guarded.raised_by isTask (nofun)
    obtain ⟨adopted, activated⟩ : epoch ≤ server.broker.heldFencingEpoch ∧ epoch ≤ server.view.fencingEpoch :=
      guarded.fits _ isTask
    simp only [GateTask.next]
    refine guarded.passes (by simp) (fun promoted promotes => ⟨_, rfl, ?_⟩) fun next isNext => ⟨?_, fun _ => raised⟩
    · split <;> exact promotes
    · obtain rfl := some.inj isNext
      split
      case isTrue different => exact ⟨lt_of_le_of_ne adopted (Ne.symm different), activated⟩
      case isFalse => exact activated
  | readGate epoch =>
    have raised := guarded.raised_by isTask (nofun)
    simp only [GateTask.next]
    refine guarded.passes (by simp) (fun promoted promotes => ⟨_, rfl, promotes⟩) fun next isNext => ⟨?_, fun _ => raised⟩
    obtain rfl := some.inj isNext
    exact guarded.fits (.readGate epoch) isTask
  | restore epoch pending =>
    obtain ⟨current, alone⟩ := inOrder pending rfl
    exact guarded.restored isTask current alone
  | pend epoch => exact guarded.pended isTask (free rfl)
  | demote epoch =>
    refine guarded.deactivated (unlocked rfl) (by simp) rfl ?_ ?_
    · simp only [clearLease]
      split
      · exact le_refl _
      · split
        case isTrue below => exact le_of_lt below
        case isFalse => exact le_refl _
    · simp only [clearLease]
      split
      · exact nofun
      · split
        · exact nofun
        · exact fun active => ⟨active, rfl⟩
  | suspend epoch =>
    refine guarded.deactivated (unlocked rfl) (by simp) rfl ?_ ?_
    · unfold suspend
      split <;> exact le_refl _
    · unfold suspend
      split
      · exact nofun
      · exact fun active => ⟨active, rfl⟩
  | retire epoch =>
    simp only [GateTask.next, retireMarker, dropMarker]
    split
    case isTrue isPending => exact guarded.dropped isPending (by simp) rfl nofun
    case isFalse => exact guarded.ends (by simp) rfl
  | clear epoch =>
    simp only [GateTask.next, dropMarker]
    split
    case isTrue isPending => exact guarded.dropped isPending (by simp) rfl fun _ => guarded.fits _ isTask
    case isFalse => exact guarded.ends (by simp) rfl
  | attempt =>
    refine guarded.passes (by simp) (by simp [GateTask.promoting]) fun next isNext => ?_
    obtain ⟨_, -, rfl⟩ := map_eq_some_iff.mp isNext
    exact ⟨trivial, nofun⟩
  | append epoch =>
    obtain ⟨view, gates, held⟩ := prepareMarker_frame server.broker epoch
    simp only [GateTask.next]
    split
    case h_1 broker _ prepared =>
      rw [prepared] at view gates held
      exact guarded.quiet (by simp) rfl (gates.trans guarded.gated) held view rfl rfl id (Subset.refl _) guarded.proven
        (by simp [GateTask.promoting]) (by simp)
    case h_2 broker _ leaderCommitted prepared =>
      rw [prepared] at view gates held
      refine guarded.quiet (by simp) rfl (gates.trans guarded.gated) held view rfl rfl id (Subset.refl _) guarded.proven
        (by simp [GateTask.promoting]) fun next isNext => ?_
      obtain rfl := some.inj isNext
      exact ⟨trivial, nofun⟩
  | replicate epoch leaderCommitted =>
    refine guarded.passes (by simp) (by simp [GateTask.promoting]) fun next isNext => ?_
    obtain ⟨-, isNext⟩ := ite_none_right_eq_some.mp isNext
    obtain rfl := some.inj isNext
    exact ⟨trivial, nofun⟩
  | revalidate epoch leaderCommitted =>
    simp only [GateTask.next]
    split
    · exact guarded.ends (by simp) rfl
    · refine guarded.quiet (by simp) rfl guarded.gated rfl rfl rfl rfl id (subset_cons_self _ _)
        (fun served isServed => mem_cons_of_mem _ (guarded.proven served isServed)) (by simp [GateTask.promoting])
        fun next isNext => ?_
      obtain rfl := some.inj isNext
      exact ⟨mem_cons_self, nofun⟩
  | check request =>
    simp only [GateTask.next]
    split
    · exact guarded.ends (by simp) rfl
    case h_2 checked =>
      refine guarded.passes (by simp) (by simp [GateTask.promoting]) fun next isNext => ?_
      obtain rfl := some.inj isNext
      exact ⟨checkRange_active checked, nofun⟩
  | gate epoch =>
    obtain ⟨active, isEpoch⟩ : server.view.leaseActive = true ∧ server.view.fencingEpoch = epoch := guarded.fits _ isTask
    simp only [GateTask.next]
    split
    case isTrue => exact guarded.ends (by simp) rfl
    case isFalse lowered =>
      refine guarded.quiet (by simp) rfl guarded.gated rfl rfl rfl rfl id (Subset.refl _) (fun served isServed => ?_)
        (by simp [GateTask.promoting]) (by simp)
      rcases mem_cons.mp isServed with rfl | earlier
      · -- An active epoch that was not published would be behind the gate.
        by_contra unpublished
        exact lowered (guarded.closed active (isEpoch ▸ unpublished)).1
      · exact guarded.proven served earlier

theorem Guarded.start (guarded : Guarded server) (starts : task.starts = true) :
    Guarded { server with tasks := task :: server.tasks } := by
  have quiet : task.promoting = none ∧ task.Fits { server with tasks := task :: server.tasks } := by
    cases task <;> first | exact ⟨rfl, trivial⟩ | cases starts
  refine ⟨guarded.gated, ?_, fun promoting => guarded.raised fun none => promoting ?_,
    fun below => mem_cons_of_mem _ (guarded.activating below), guarded.pending, guarded.dropping, ?_, guarded.proven⟩
  · intro other isOther
    rcases mem_cons.mp isOther with rfl | isOther
    · exact quiet.2
    · exact (guarded.fits other isOther).mono (le_refl _) (le_refl _) (Subset.refl _) fun _ => rfl
  · intro other isOther
    rcases mem_cons.mp isOther with rfl | isOther
    · exact quiet.1
    · exact none other isOther
  · intro active unpublished
    obtain ⟨raised, owed⟩ := guarded.closed active unpublished
    exact ⟨raised, owed.imp_right fun ⟨other, isOther, promoting⟩ => ⟨other, mem_cons_of_mem _ isOther, promoting⟩⟩

theorem Guarded.step (guarded : Guarded server) (stepped : orderlyStep server event = some after) : Guarded after := by
  obtain ⟨inOrder, stepped⟩ := ite_none_right_eq_some.mp stepped
  cases event with
  | start task =>
    obtain ⟨starts, isAfter⟩ := ite_none_right_eq_some.mp stepped
    exact some.inj isAfter ▸ guarded.start starts
  | advance task answer =>
    obtain ⟨⟨isTask, free, unmarked⟩, isAfter⟩ := ite_none_right_eq_some.mp stepped
    refine some.inj isAfter ▸ guarded.advance isTask (fun takes => ?_) (fun takes => ?_) inOrder
    · exact Bool.eq_false_iff.mpr fun locked => free ⟨takes, locked⟩
    · simpa using fun locked => unmarked ⟨takes, locked⟩
  | finish => exact guarded.finished inOrder stepped

end Keeps

/-- A broker as its process starts: nothing is pending, and nothing was published or served. -/
def GateServer.started (broker : Replica) : GateServer :=
  { broker, boundaryPending := false, pendingMarker := none, locked := none, tasks := [], published := [], served := [] }

/-- A fetch that was let through at an epoch came after that epoch's marker was published, along every run in which
the gate is lowered in order. -/
theorem served_proven (broker : Replica) (gates : gatesOnMarker broker = true)
    (inactive : broker.metaFencingEpoch.leaseActive = false)
    (current : broker.heldFencingEpoch ≤ broker.metaFencingEpoch.fencingEpoch) {server : GateServer}
    (reached : Reachable (fun before event after => orderlyStep before event = some after) (.started broker) server) :
    ∀ epoch ∈ server.served, epoch ∈ server.published := by
  have started : Guarded (.started broker) := by
    refine ⟨gates, nofun, fun promoting => absurd nofun promoting, fun below => ?_, nofun, nofun, fun active => ?_, nofun⟩
    · exact absurd below (Nat.not_lt.mpr current)
    · cases inactive.symm.trans active
  exact (reached.invariant Guarded started fun _ _ _ _ guarded stepped => guarded.step stepped).proven

/-- A promotion, statement by statement. -/
def promotion (epoch : Nat) : List GateEvent :=
  let answer : ReplicaQuorumResult := ⟨0, 3⟩
  [.start (.promote epoch none), .advance (.promote epoch none) answer, .advance (.adopt epoch) answer,
    .advance (.activate epoch) answer, .advance (.compare epoch) answer, .advance (.pend epoch) answer, .finish]

/-- An attempt for epoch one that one of two followers acknowledges, up to its publication. -/
def attemptForOne : List GateEvent :=
  let answer : ReplicaQuorumResult := ⟨1, 3⟩
  [.start .attempt, .advance .attempt answer, .advance (.append 1) answer, .advance (.replicate 1 1) answer,
    .advance (.revalidate 1 1) answer]

def fetchAt (epoch : Nat) : List GateEvent :=
  let request : FetchRequest := ⟨ordersRange, epoch, 0, 1, 1⟩
  let answer : ReplicaQuorumResult := ⟨0, 3⟩
  [.start (.check request), .advance (.check request) answer, .advance (.gate epoch) answer]

def freshBroker : Replica := .fresh 1#128 ordersRange .V2 16

/-- An epoch that was promoted, published and cleared is served. -/
def promotedAndServed : List GateEvent := promotion 1 ++ attemptForOne ++ [.advance (.clear 1) ⟨0, 3⟩, .finish] ++ fetchAt 1

theorem promoted_and_served : ∃ server ∈ promotedAndServed.foldlM orderlyStep (.started freshBroker), 1 ∈ server.served ∧
      ∀ epoch ∈ server.served, epoch ∈ server.published :=
  ⟨_, rfl, by decide, served_proven freshBroker rfl rfl (by decide) (.foldlM .refl promotedAndServed rfl)⟩

/-- The second promotion raises the gate; the attempt for the first epoch then clears its own marker, and the gate with
it; the second promotion activates its epoch. -/
def lateClear : List GateEvent :=
  promotion 1 ++ attemptForOne ++ (promotion 2).take 2 ++ [.advance (.clear 1) ⟨0, 3⟩, .finish] ++ ((promotion 2).drop 2).take 2
    ++ fetchAt 2

theorem late_clear_opens_gate :
    ∃ server, Reachable (fun before event after => gateStep before event = some after) (.started freshBroker) server ∧
      2 ∈ server.served ∧ 2 ∉ server.published := by
  have run : ∃ server ∈ lateClear.foldlM gateStep (.started freshBroker), 2 ∈ server.served ∧ 2 ∉ server.published :=
    ⟨_, rfl, by decide, by decide⟩
  obtain ⟨server, reached, served⟩ := run
  exact ⟨server, .foldlM .refl lateClear reached, served⟩

/-! ## What an acknowledged marker says -/

section Acknowledged

open Log InProcessFollower

variable {leader published follower after : Replica} {request : ReplicaAppendRequest} {durability : Durability}

theorem storeAppend_ok (stored : storeAppend follower request durability = (after, .ok ())) :
    ∃ records outcomes, recordsFromWire request.records
        (follower.segmentFormat.stored request.producerId request.producerEpoch) request.firstSequence = .ok records ∧
      (follower.segment.appendGroupTailOnly records durability = .ok (after.segment, outcomes) ∨
        follower.segment.appendGroup records durability = .ok (after.segment, outcomes)) := by
  unfold storeAppend at stored
  grind

theorem applyAppend_ok (isOk : applyAppend follower request = (after, .ok durable)) :
    request.expectedBaseOffset < follower.nextOffset ∧ after = follower ∨
      ∃ durability, storeAppend follower request durability = (after, .ok ()) := by
  unfold applyAppend placeAppend at isOk
  grind

theorem prepareMarker_ok (prepared : prepareMarker leader epoch = (published, .ok (replicateFrom, committed))) :
    ∃ outcomes, leader.segment.appendGroup [markerRecord epoch] .Fsync = .ok (published.segment, outcomes) ∧
      replicateFrom = ((outcomes.map AppendOutcome.offset).min?).getD (published.segment.nextOffset - 1) := by
  unfold prepareMarker at prepared
  grind

/-- A follower that had the leader's log and acknowledges the leader's marker has the leader's log again, whether it
stored the marker or knew it. -/
theorem acknowledged_marker_agrees (sameLog : follower.segment.records = leader.segment.records)
    (secondFormat : follower.segmentFormat = .V2)
    (prepared : prepareMarker leader epoch = (published, .ok (replicateFrom, committed)))
    (acknowledged : applyAppend follower (markerRequest published epoch replicateFrom) = (after, .ok durable)) :
    after.segment.records = published.segment.records := by
  obtain ⟨outcomes, appended, isFrom⟩ := prepareMarker_ok prepared
  obtain ⟨added, valid, extended⟩ := SegmentSet.appendGroup_extends appended
  rw [extended.records]
  rcases applyAppend_ok acknowledged with ⟨past, rfl⟩ | ⟨durability, stored⟩
  · -- The leader names its old end unless its log had the marker.
    have sameEnd : after.nextOffset = leader.segment.records.length := congrArg length sameLog
    simp only [validateGroup, bind, Except.bind, pure, Except.pure] at valid
    split at valid
    · cases valid
    split at valid
    · cases valid
      rw [sameLog, append_nil]
    · cases valid
      exact absurd past (by simp [markerRequest, isFrom, sameEnd, AppendOutcome.offset])
  · obtain ⟨records, outcomes', isRecords, stored⟩ := storeAppend_ok stored
    rw [secondFormat] at isRecords
    obtain rfl : [markerRecord epoch] = records := Except.ok.inj isRecords
    obtain ⟨added', valid', extended'⟩ := stored.elim SegmentSet.appendGroupTailOnly_extends SegmentSet.appendGroup_extends
    rw [sameLog, valid] at valid'
    cases valid'
    rw [extended'.records, sameLog]

/-- A replica that took two records under epoch one, as the leader and as its follower. -/
def grantedReplica : Replica :=
  [Operation.grant 1, .adopt 1, .replicate [ordersAppend 1 0 [[10], [20]]]].foldl perform (.started 1#128 ordersRange .V2 16)

theorem marker_agrees_granted : ∃ after, after.segment.records = grantedReplica.segment.records ++ [markerRecord 1] ∧
    applyAppend grantedReplica (markerRequest (prepareMarker grantedReplica 1).1 1 2) = (after, .ok 3) := by
  have prepared : prepareMarker grantedReplica 1 = ((prepareMarker grantedReplica 1).1, .ok (2, 3)) := rfl
  have acknowledged : applyAppend grantedReplica (markerRequest (prepareMarker grantedReplica 1).1 1 2) = (_, .ok 3) := rfl
  exact ⟨_, acknowledged_marker_agrees rfl rfl prepared acknowledged, acknowledged⟩

end Acknowledged

end VtopEngine.Node
