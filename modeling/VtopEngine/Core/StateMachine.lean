import Mathlib.Tactic.Common

/-! # The states of a batch

The lifecycle of a telemetry batch (`state_machine.rs`): source progress may be committed
only once the batch is verified.

* `canTransition` — the transition relation.
* `transition` — the only way the ledger changes a state.
-/

namespace VtopEngine.Core

inductive BatchState
  | Discovered | Batching | Sealed | Compressed | Checksummed | ObjectUploaded | ManifestUploaded | Verified
  | SourceCommitted | Failed | ReplayRequired
  deriving DecidableEq, Repr

/-- The errors of a refused transition. -/
inductive TransitionError
  | CommitBeforeVerified (actual : BatchState)
  | IllegalStateTransition (source target : BatchState)
  deriving DecidableEq, Repr

/-- A state as error texts write it. -/
def BatchState.debugName : BatchState → String
  | .Discovered => "Discovered"
  | .Batching => "Batching"
  | .Sealed => "Sealed"
  | .Compressed => "Compressed"
  | .Checksummed => "Checksummed"
  | .ObjectUploaded => "ObjectUploaded"
  | .ManifestUploaded => "ManifestUploaded"
  | .Verified => "Verified"
  | .SourceCommitted => "SourceCommitted"
  | .Failed => "Failed"
  | .ReplayRequired => "ReplayRequired"

def TransitionError.message : TransitionError → String
  | .CommitBeforeVerified actual => s!"commit forbidden: batch is in {actual.debugName}, SOURCE_COMMITTED requires VERIFIED"
  | .IllegalStateTransition source target => s!"illegal state transition: {source.debugName} -> {target.debugName}"

open BatchState in
def canTransition (source target : BatchState) : Bool :=
  -- Any state but the committed one may fail.
  if target = Failed ∧ source ≠ SourceCommitted then true
  else if target = SourceCommitted then source = Verified
  else
    match source, target with
    | Discovered, Batching
    | Batching, Sealed
    | Sealed, Compressed
    | Compressed, Checksummed
    | Checksummed, ObjectUploaded
    | ObjectUploaded, ManifestUploaded
    | ManifestUploaded, Verified
    | Verified, SourceCommitted
    | Failed, ReplayRequired
    | ReplayRequired, Batching => true
    | _, _ => false

def transition (source target : BatchState) : Except TransitionError BatchState :=
  if target = .SourceCommitted ∧ source ≠ .Verified then .error (.CommitBeforeVerified source)
  else if canTransition source target then .ok target
  else .error (.IllegalStateTransition source target)

end VtopEngine.Core
