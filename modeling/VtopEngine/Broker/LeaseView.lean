import Mathlib.Data.List.Induction
import VtopEngine.Broker.Replica

/-! # The lease view under unordered delivery

Grants and releases reach the view in any order and any number of times.

* `Settled` — the view is a function of the set of events.
* `leaseView_settles` — what every run leaves, with suspensions and without, as long as epoch zero is not granted anew.
* `grant_of_zero_stays_inactive` — a grant of epoch zero counts as released from the start.
-/

namespace VtopEngine.Broker

inductive LeaseEvent
  | set (epoch : Nat)
  | clearLease (epoch : Nat)
  | suspend (epoch : Nat)
  deriving DecidableEq, Repr

namespace LeaseEvent

def epoch : LeaseEvent → Nat
  | set epoch | clearLease epoch | suspend epoch => epoch

/-- Grants and releases come from metadata; a suspension is local. -/
def published : LeaseEvent → Bool
  | set _ | clearLease _ => true
  | suspend _ => false

end LeaseEvent

open LeaseEvent

namespace MetaLeaseState

/-- A view with an active lease. -/
def new (epoch : Nat) : MetaLeaseState := { fencingEpoch := epoch, leaseActive := true, releasedThrough := 0 }

def initial (active : Bool) (epoch : Nat) : MetaLeaseState := if active then new epoch else newInactive epoch

def step (view : MetaLeaseState) : LeaseEvent → MetaLeaseState
  | .set epoch => view.set epoch
  | .clearLease epoch => view.clearLease epoch
  | .suspend epoch => view.suspend epoch

def run (view : MetaLeaseState) (events : List LeaseEvent) : MetaLeaseState := events.foldl step view

/-- The newest epoch named initially or by an event. -/
def newest (epoch : Nat) (events : List LeaseEvent) : Nat := (events.map LeaseEvent.epoch).foldl max epoch

variable {view other : MetaLeaseState} {events : List LeaseEvent} {active : Bool} {epoch : Nat}

theorem run_append (later) : view.run (events ++ later) = (view.run events).run later := List.foldl_append

/-! ## Without suspensions -/

/-- What the view says once `events` were published to it. -/
structure Settled (active : Bool) (epoch : Nat) (events : List LeaseEvent) (view : MetaLeaseState) : Prop where
  newest : view.fencingEpoch = newest epoch events
  bound : ∀ event ∈ events, event.epoch ≤ view.fencingEpoch
  released : ∀ bound, view.releasedThrough ≤ bound ↔ ∀ epoch, .clearLease epoch ∈ events → epoch ≤ bound
  active : 0 < view.fencingEpoch ∨ .set 0 ∉ events → (view.leaseActive = true ↔
    (.set view.fencingEpoch ∈ events ∨ active = true ∧ epoch = view.fencingEpoch) ∧ .clearLease view.fencingEpoch ∉ events)

theorem Settled.initial : Settled active epoch [] (initial active epoch) := by
  cases active <;> constructor <;> simp [MetaLeaseState.initial, new, newInactive, MetaLeaseState.newest]

theorem Settled.step (settled : Settled active epoch events view) {event : LeaseEvent}
    (published : event.published = true) : Settled active epoch (events ++ [event]) (view.step event) := by
  obtain ⟨newest, bound, released, isActive⟩ := settled
  have newer : MetaLeaseState.newest epoch (events ++ [event]) = max view.fencingEpoch event.epoch := by
    simp [newest, MetaLeaseState.newest]
  cases event with
  | set granted =>
    -- Every release is of an epoch the view had reached, so one that covers the grant names it.
    have covered := released (granted - 1)
    have reached (epoch : Nat) := bound (.clearLease epoch)
    simp only [LeaseEvent.epoch] at newer reached
    constructor <;> simp only [MetaLeaseState.step, set] <;> grind [LeaseEvent.epoch]
  | clearLease freed =>
    have covers (bound : Nat) : max view.releasedThrough freed ≤ bound ↔
        ∀ epoch, .clearLease epoch ∈ events ++ [.clearLease freed] → epoch ≤ bound := by
      simp [released, or_imp, forall_and]
    constructor <;> simp only [MetaLeaseState.step, clearLease] <;> grind [epoch]
  | suspend => cases published

theorem settled_run (published : ∀ event ∈ events, event.published = true) :
    Settled active epoch events ((initial active epoch).run events) := by
  -- The last event is the outermost step, so the induction is on the list from its end.
  induction events using List.reverseRecOn with
  | nil => exact .initial
  | append_singleton events event ih =>
    rw [run_append]
    exact (ih fun event among => published event (List.mem_append_left _ among)).step (published event (by simp))

/-! ## With suspensions -/

/-- The same view, but for a lease that may be suspended. -/
structure Dimmed (view other : MetaLeaseState) : Prop where
  fencingEpoch : view.fencingEpoch = other.fencingEpoch
  releasedThrough : view.releasedThrough = other.releasedThrough
  active : view.leaseActive = true → other.leaseActive = true

theorem Dimmed.step (dimmed : Dimmed view other) (event) :
    Dimmed (view.step event) (if event.published = true then other.step event else other) := by
  obtain ⟨epoch, released, active⟩ := dimmed
  cases event <;> constructor <;>
    simp only [MetaLeaseState.step, set, clearLease, suspend, published] <;> grind

theorem Dimmed.run (dimmed : Dimmed view other) : Dimmed (view.run events) (other.run (events.filter published)) := by
  induction events generalizing view other with
  | nil => exact dimmed
  | cons event events ih =>
    have next := ih (dimmed.step event)
    rw [List.filter_cons]
    split_ifs at next ⊢ <;> exact next

/-- Only a grant at the view's epoch or above makes an inactive view active. -/
theorem exists_grant_of_active (inactive : view.leaseActive = false) (ends : (view.run events).leaseActive = true) :
    ∃ granted, .set granted ∈ events ∧ view.fencingEpoch ≤ granted := by
  induction events generalizing view with
  | nil => simp [run, inactive] at ends
  | cons event events ih =>
    by_cases lifted : ∃ granted, event = .set granted ∧ view.fencingEpoch ≤ granted
    · obtain ⟨granted, rfl, above⟩ := lifted
      exact ⟨granted, List.mem_cons_self, above⟩
    · have still : (view.step event).leaseActive = false ∧ view.fencingEpoch ≤ (view.step event).fencingEpoch := by
        cases event <;> simp only [step, set, clearLease, suspend] <;> grind
      obtain ⟨granted, later, above⟩ := ih still.1 ends
      exact ⟨granted, List.mem_cons_of_mem _ later, Nat.le_trans still.2 above⟩

/-- Every run of grants and releases, in any order, ends at the newest epoch, and active exactly if that epoch was
granted and not released; suspensions only dim it, and one of the current epoch is lifted only by a later grant. -/
theorem leaseView_settles (active : Bool) (epoch : Nat) (events : List LeaseEvent)
    (nonzero : 0 < newest epoch (events.filter LeaseEvent.published) ∨ .set 0 ∉ events) :
    let start := initial active epoch
    let view := start.run (events.filter LeaseEvent.published)
    let newest := newest epoch (events.filter LeaseEvent.published)
    view.fencingEpoch = newest ∧ (view.leaseActive = true ↔
        (.set newest ∈ events ∨ active = true ∧ epoch = newest) ∧ .clearLease newest ∉ events) ∧
      ((start.run events).leaseActive = true → view.leaseActive = true) ∧
      ∀ before after, events = before ++ .suspend (start.run before).fencingEpoch :: after →
        (start.run events).leaseActive = true →
        ∃ granted, .set granted ∈ after ∧ (start.run before).fencingEpoch ≤ granted := by
  intro start view newest
  have settled : Settled active epoch (events.filter LeaseEvent.published) view :=
    settled_run fun event among => (List.mem_filter.mp among).2
  have reached : view.fencingEpoch = newest := settled.newest
  refine ⟨reached, ?_, Dimmed.active (Dimmed.run ⟨rfl, rfl, id⟩), fun before after split ends => ?_⟩
  · have isActive := settled.active
    simp only [reached, List.mem_filter, LeaseEvent.published, and_true] at isActive
    exact isActive nonzero
  · rw [split, run_append] at ends
    have lifted : ∃ granted, .set granted ∈ after ∧
        ((start.run before).suspend (start.run before).fencingEpoch).fencingEpoch ≤ granted :=
      exists_grant_of_active (by simp [suspend]) ends
    simpa [suspend] using lifted

/-- A release that arrives before its own grant. -/
theorem release_before_grant : ((initial false 0).run [.clearLease 2, .set 2]).leaseActive = false :=
  Bool.eq_false_iff.mpr fun isActive =>
    absurd (((leaseView_settles false 0 [.clearLease 2, .set 2] (by decide)).2.1.mp isActive).2) (by decide)

/-- A grant of epoch zero, the epoch the view started at, is taken for released although no release named it. -/
theorem grant_of_zero_stays_inactive :
    (initial false 0).run [.set 0] = newInactive 0 ∧ (initial true 0).run [.set 0] = newInactive 0 ∧
      newest 0 [.set 0] = 0 := by
  decide

end MetaLeaseState

end VtopEngine.Broker
