import Mathlib.Data.Finset.Card
import VtopEngine.Meta.Storable

/-! # Exactly-once apply, across restores

A machine is live through commands and through restores from its own snapshot.
A restore gives back the machine it was taken of, so a live machine is one that
`apply` alone reaches; and a request stays answered by the table until as many new
requests as the table holds have been executed after it.
-/

namespace VtopEngine.Meta

open Lib MetaStateMachine List
open MetaStateMachine (apply_cases apply_of_holds decodeSnapshot dedup_remember eq_of_restores new not_mem_dedup)

variable {machine next : MetaStateMachine}

section Live

variable [External]

/-- What happens to a live machine: a request its table does not know is executed,
    one it knows is answered again, or the machine is restored from its snapshot. -/
inductive Occurrence
  | executed (event : Event)
  | replayed (event : Event)
  | restored (bytes : Bytes)

def MetaStateMachine.Lives (machine : MetaStateMachine) (occurrence : Occurrence) (next : MetaStateMachine) : Prop :=
  match occurrence with
  | .executed event => machine.appliedResponse event.command.envelope.requestId = none ∧ machine.Step event next
  | .replayed event => machine.appliedResponse event.command.envelope.requestId ≠ none ∧ machine.Step event next
  | .restored bytes => machine.encodeSnapshot = .ok bytes ∧ decodeSnapshot bytes = .ok next

/-- The request ids that were executed, in order. -/
def newRequests (occurrences : List Occurrence) : List Uuid :=
  occurrences.filterMap fun occurrence =>
    match occurrence with
    | .executed event => some event.command.envelope.requestId
    | _ => none

theorem MetaStateMachine.Reached.restores (reached : machine.Reached)
    (written : machine.encodeSnapshot = .ok bytes) (restored : decodeSnapshot bytes = .ok next) : next = machine :=
  eq_of_restores reached.carriable reached.entries_writable written restored

theorem MetaStateMachine.Reached.lives (reached : machine.Reached)
    (lives : machine.Lives occurrence next) : next.Reached := by
  cases occurrence with
  | executed event | replayed event => exact reached.step lives.2
  | restored bytes =>
    rw [reached.restores lives.1 lives.2]
    exact reached

theorem MetaStateMachine.reached_of_lives (live : Reachable Lives .new machine) : machine.Reached :=
  Reachable.invariant Reached live Reachable.refl fun _ _ _ _ reached lives => reached.lives lives

theorem MetaStateMachine.Reached.lives_run (reached : start.Reached)
    (run : Run Lives start later machine) : machine.Reached := by
  induction run with
  | nil => exact reached
  | snoc _ lives ih => exact ih.lives lives

/-- Commands alone also keep a machine live. -/
theorem MetaStateMachine.Reached.live (reached : machine.Reached) : Reachable Lives .new machine := by
  refine Reachable.invariant (Reachable Lives .new) reached Reachable.refl ?_
  intro state event next _ live step
  by_cases fresh : state.appliedResponse event.command.envelope.requestId = none
  · have lives : state.Lives (.executed event) next := ⟨fresh, step⟩
    exact live.step lives
  · have lives : state.Lives (.replayed event) next := ⟨fresh, step⟩
    exact live.step lives

/-! ## The window -/

/-- A request that was just executed is the newest the table holds. -/
theorem MetaStateMachine.holds_executed {event : Event}
    (fresh : machine.appliedResponse event.command.envelope.requestId = none) (step : machine.Step event next) :
    next.dedup.Holds event.command.envelope.requestId event.response [] := by
  obtain ⟨applyIndex, command, response⟩ := event
  cases apply_cases step with
  | replayed remembered =>
    rw [fresh] at remembered
    cases remembered
  | executed =>
    rw [dedup_remember]
    exact FifoTable.holds_remember ..

omit [External] in
theorem newRequests_append (earlier later : List Occurrence) :
    newRequests (earlier ++ later) = newRequests earlier ++ newRequests later :=
  filterMap_append

variable {response : MetadataResponse} {requestId : Uuid}

omit [External] in
theorem MetaStateMachine.newer_nodup {newer : List Uuid}
    (consistent : machine.dedup.Consistent DEDUP_CAPACITY) (holds : machine.dedup.Holds requestId response newer) :
    newer.Nodup := by
  obtain ⟨⟨older, listed⟩, -⟩ := holds
  have distinct := consistent.distinct
  rw [listed] at distinct
  exact (nodup_cons.mp (nodup_append.mp distinct).2.1).2

/-- One step of the window: only an executed request enters the table. -/
theorem MetaStateMachine.Reached.holds_step (reached : machine.Reached) (lives : machine.Lives occurrence next)
    (holds : machine.dedup.Holds requestId response newer)
    (few : (newer ++ newRequests [occurrence]).dedup.length < DEDUP_CAPACITY) :
    next.dedup.Holds requestId response (newer ++ newRequests [occurrence]) := by
  cases occurrence with
  | executed event =>
    obtain ⟨fresh, step⟩ := lives
    have isNew := not_mem_dedup fresh
    have consistent := reached.dedup_consistent
    have absent : event.command.envelope.requestId ∉ newer := by
      intro listed
      obtain ⟨⟨older, order⟩, -⟩ := holds
      refine isNew ((consistent.agree _).mp ?_)
      rw [order]
      exact mem_append_right _ (mem_cons_of_mem _ listed)
    -- The new ids are distinct, so counting them without repetition is counting them.
    have distinct : (newer ++ newRequests [.executed event]).Nodup :=
      nodup_append.mpr ⟨newer_nodup consistent holds, nodup_singleton _, fun _ listed _ last =>
        mem_singleton.mp last ▸ ne_of_mem_of_not_mem listed absent⟩
    rw [dedup_eq_self.mpr distinct, length_append] at few
    obtain ⟨applyIndex, command, answer⟩ := event
    cases apply_cases step with
    | replayed remembered =>
      rw [fresh] at remembered
      cases remembered
    | executed =>
      rw [dedup_remember]
      exact FifoTable.Holds.remember holds consistent isNew few _
  | replayed event =>
    obtain ⟨known, step⟩ := lives
    obtain ⟨applyIndex, command, answer⟩ := event
    cases apply_cases step with
    | replayed => simpa [newRequests] using holds
    | executed fresh => exact absurd fresh known
  | restored bytes =>
    rw [reached.restores lives.1 lives.2]
    simpa [newRequests] using holds

/-- A request stays held while fewer new requests than the capacity were executed. -/
theorem MetaStateMachine.Reached.holds_run (reached : start.Reached) (holds : start.dedup.Holds requestId response [])
    (run : Run Lives start later machine) (few : (newRequests later).dedup.length < DEDUP_CAPACITY) :
    machine.dedup.Holds requestId response (newRequests later) := by
  induction run with
  | nil => exact holds
  | @snoc earlier middle occurrence last run lives ih =>
    rw [newRequests_append] at few ⊢
    have fewer : (newRequests earlier).dedup.length < DEDUP_CAPACITY := by
      refine Nat.lt_of_le_of_lt ?_ few
      rw [← card_toFinset, ← card_toFinset]
      refine Finset.card_le_card fun requestId member => ?_
      rw [mem_toFinset] at member ⊢
      exact mem_append_left _ member
    exact (reached.lives_run run).holds_step lives (ih fewer) few

/-- While fewer new requests than the table holds have been executed since a request,
    any command with its id is answered with the response it was given and changes
    nothing; and the table's two halves always agree. -/
theorem exactly_once_across_snapshots : (∀ machine, Reachable Lives .new machine →
      machine.dedupOrder.Nodup ∧ machine.dedupOrder.length ≤ DEDUP_CAPACITY
        ∧ ∀ requestId, requestId ∈ machine.dedupOrder ↔ requestId ∈ machine.dedupResponses)
      ∧ ∀ before event after later machine, Reachable Lives .new before →
        before.Lives (.executed event) after → Run Lives after later machine →
        (newRequests later).dedup.length < DEDUP_CAPACITY →
        ∀ applyIndex command, command.envelope.requestId = event.command.envelope.requestId →
          machine.apply applyIndex command = .ok (event.response, machine) := by
  refine ⟨fun machine live => ?_, fun before event after later machine live executed run few => ?_⟩
  · obtain ⟨distinct, bounded, agree⟩ := (reached_of_lives live).dedup_consistent
    exact ⟨distinct, bounded, agree⟩
  · intro applyIndex command same
    have reached := (reached_of_lives live).lives executed
    have holds := reached.holds_run (holds_executed executed.1 executed.2) run few
    exact apply_of_holds holds applyIndex same

end Live

section LeaseLog

attribute [local instance] External.plain

/-- The grant, then a restore: a command of another kind with the grant's id is
    answered with the grant. -/
theorem leaseRequest_answered_after_restore : ∃ bytes, leasedMachine.Lives (.restored bytes) leasedMachine
      ∧ leasedMachine.apply 9 (.PutKeyRecord
          { env := ⟨3, 5⟩, keyUuid := 1, scheme := 1, publicMaterialDigest := Vector.replicate 32 0 })
        = .ok (.LeaseGranted 1, leasedMachine) := by
  obtain ⟨bytes, written, restored⟩ := decodeSnapshot_encodeSnapshot
    (reached_of_decoded leasedMachine_decoded).carriable (by rw [leasedMachine_size]; decide)
    (entries_storable_of_decoded leasedMachine_decoded)
  have lives : leasedMachine.Lives (.restored bytes) leasedMachine := ⟨written, restored⟩
  have executed : (new.afterLog leaseLog).Lives
      (.executed ⟨3, leaseRequest, .LeaseGranted 1⟩) leasedMachine := ⟨by decide +kernel, rfl⟩
  have reached : (new.afterLog leaseLog).Reached := Reached.afterLog Reachable.refl _
  exact ⟨bytes, lives, exactly_once_across_snapshots.2 _ _ _ _ _ reached.live executed (.single lives)
    (by simp [newRequests, DEDUP_CAPACITY]) 9 _ rfl⟩

end LeaseLog

end VtopEngine.Meta
