import VtopEngine.Core.StateMachine
import VtopEngine.Core.Types

/-! # Rows of the ledger

A batch as the state store keeps it (`models.rs`).  Timestamps are the instants their
texts name.
-/

namespace VtopEngine.State

open VtopEngine.Core

/-- A row of the ledger.  `createdAt` is `none` where the text names no instant. -/
structure BatchRecord where
  batchId : String
  sourceType : SourceType
  sourceName : String
  state : BatchState
  (progressStart progressEnd : ProgressMarker)
  (objectUri manifestUri objectSha256 manifestSha256 manifestVersionId : Option String)
  (objectSizeBytes recordCount : Option Int)
  (errorMessage owner : Option String)
  (leaseExpiresAt createdAt : Option Int)
  updatedAt : Int
  deriving DecidableEq, Repr

/-- What a transition writes besides the state; `none` leaves a column as it is. -/
structure BatchPatch where
  (objectUri manifestUri objectSha256 manifestSha256 manifestVersionId : Option String)
  (objectSizeBytes recordCount : Option Int)
  errorMessage : Option String
  deriving DecidableEq, Repr

def BatchPatch.default : BatchPatch := ⟨none, none, none, none, none, none, none, none⟩

/-- Where the newest committed batch of a path ended, and what it saw of the file. -/
structure CommittedCursor where
  path : String
  inode : Option Nat
  endByte : Nat
  observedSize : Option Nat
  deriving DecidableEq, Repr

end VtopEngine.State
