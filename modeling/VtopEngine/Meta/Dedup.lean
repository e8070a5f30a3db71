import VtopEngine.Lib.FifoTable
import VtopEngine.Meta.Effects

/-! # The table of answered requests

`dedup_order` and `dedup_responses` are one bounded table that forgets its oldest
request first (`MetaStateMachine.dedup`).  It stays consistent along every run, and
a request it holds is answered from it without touching the machine.
-/

namespace VtopEngine.Meta

open Lib MetaStateMachine

variable {machine : MetaStateMachine}

/-- The two dedup fields as one table. -/
def MetaStateMachine.dedup (machine : MetaStateMachine) : FifoTable Uuid MetadataResponse :=
  { order := machine.dedupOrder, values := machine.dedupResponses }

theorem MetaStateMachine.dedup_remember :
    (machine.remember requestId response).dedup = machine.dedup.remember DEDUP_CAPACITY requestId response := by
  obtain ⟨records, order, responses⟩ := machine
  unfold remember FifoTable.remember FifoTable.makeRoom
  by_cases full : order.length = DEDUP_CAPACITY
  · simp only [dedup, full, if_true]
    cases order <;> rfl
  · simp only [dedup, full, if_false]

theorem MetaStateMachine.not_mem_dedup (fresh : machine.appliedResponse requestId = none) :
    requestId ∉ machine.dedup.values := by
  intro held
  have absent := Std.ExtTreeMap.mem_iff_isSome_getElem?.mp held
  rw [show machine.dedup.values[requestId]? = none from fresh] at absent
  cases absent

section Runs

variable [External]

theorem MetaStateMachine.Step.dedup_consistent (consistent : machine.dedup.Consistent DEDUP_CAPACITY)
    (step : machine.Step event next) : next.dedup.Consistent DEDUP_CAPACITY := by
  cases apply_cases step with
  | replayed => exact consistent
  | executed fresh =>
    rw [dedup_remember]
    exact FifoTable.Consistent.remember consistent (by decide) (not_mem_dedup fresh)

theorem MetaStateMachine.Reached.dedup_consistent (reached : machine.Reached) : machine.dedup.Consistent DEDUP_CAPACITY :=
  Reachable.invariant (fun machine => machine.dedup.Consistent DEDUP_CAPACITY) reached FifoTable.Consistent.empty
    fun _ _ _ _ consistent step => step.dedup_consistent consistent

/-- A request the table holds is answered from it, and nothing changes. -/
theorem MetaStateMachine.apply_of_holds {newer : List Uuid} (holds : machine.dedup.Holds requestId response newer)
    (applyIndex : UInt64) {command : MetadataCommand} (same : command.envelope.requestId = requestId) :
    machine.apply applyIndex command = .ok (response, machine) := by
  have remembered : machine.appliedResponse command.envelope.requestId = some response := same ▸ holds.2
  simp only [apply, remembered]

end Runs

end VtopEngine.Meta
