import VtopEngine.Lib.Txn
import VtopEngine.Meta.Records

/-! # Command handlers: what they share

Each `MetaStateMachine` method is a transaction over the records.  It exits
through `reject` with whatever it has written so far still written, and panics
through `unreachable` where the source finds a record of another kind; a record
that the source reads a second time is read once.

Beside each handler stands a relation `Accepted` that lists the ways the command
can be accepted, with everything checked on the way and the state it leaves.  A
lemma `…_spec` ties the two: the handler ends in `Accepted`, or exits `Clean`.

Arithmetic is that of a release build: `+ 1` on a `u64` wraps.
-/

namespace VtopEngine.Meta

open Lib

/-- The kind a record must have under its key. -/
def keyMatchesValue : MetaKey → MetaValue → Bool
  | .Node .., .Node _ | .Topic .., .Topic _ | .TopicByName .., .TopicName _ | .Range .., .Range _
  | .Segment .., .Segment _ | .Key .., .Key _ | .Group .., .Group _ | .GroupByName .., .GroupName _
  | .GroupMember .., .GroupMember _ | .GroupCursor .., .GroupCursor _ | .SegmentPlacement .., .SegmentPlacement _
  | .SegmentReplacementProof .., .ReplacementProof _ | .SegmentRebalanceIntent .., .RebalanceIntent _
  | .LineageTransition .., .LineageTransition _ | .SegmentTierCopy .., .TierCopy _
  | .TopicRetentionPolicy .., .TopicRetentionPolicy _ | .RangeTransition .., .RangeTransition _
  | .ClusterConfig, .ClusterConfig _ | .RangeReplicaSet .., .RangeReplicaSet _ => true
  | _, _ => false

/-- Every record is of the kind its key names. -/
def Records.WellTyped (records : Records) : Prop :=
  ∀ key value, records.record key = some value → keyMatchesValue key value = true

/-- What the handlers rely on without checking: the kinds of records, and that a
    sealed range has the lineage transition it was sealed by. -/
structure Records.Healthy (records : Records) : Prop where
  typed : records.WellTyped
  seals : ∀ topic range record sealing, records.range? topic range = some record → record.sealedAt = some sealing →
    records.lineage? topic sealing.transitionId ≠ none

/-! ## Arithmetic and texts -/

/-- `u64::checked_add(1)` -/
def checkedSucc (value : UInt64) : Option UInt64 :=
  if value = 0xFFFFFFFFFFFFFFFF then none else some (value + 1)

/-- `i64::checked_add_unsigned` -/
def checkedAddUnsigned (value : Int64) (amount : UInt64) : Option Int64 :=
  let sum := value.toInt + amount.toNat
  if sum ≤ Int64.maxValue.toInt then some (Int64.ofInt sum) else none

theorem checkedSucc_eq_some {value next : UInt64} (succeeds : checkedSucc value = some next) :
    next = value + 1 ∧ next.toNat = value.toNat + 1 := by
  unfold checkedSucc at succeeds
  split at succeeds
  · cases succeeds
  · next below =>
    cases succeeds
    have : value.toNat ≠ 2 ^ 64 - 1 := fun same => below (UInt64.toNat_inj.mp same)
    have := value.toNat_lt
    refine ⟨rfl, ?_⟩
    simp only [UInt64.toNat_add, UInt64.reduceToNat]
    omega

def NodeState.asStr : NodeState → String
  | Active => "active"
  | Draining => "draining"
  | Dead => "dead"

/-! ## Shared steps -/

abbrev Handler := Txn Records MetadataError MetadataResponse

/-- A rejected command left the records alone, and only unhealthy records make a
    handler panic. -/
abbrev Clean (records : Records) : Abort MetadataError → Records → Prop := Txn.Unchanged records (¬ records.Healthy)

/-- A handler accepts as is said, or exits cleanly. -/
abbrev Handler.Meets (handler : Handler) (accepted : Records → MetadataResponse → Records → Prop) (records : Records) : Prop :=
  handler.wp (accepted records) (Clean records) records

/-- The exits of a handler that may be refused after it has written. -/
def CleanOr (records : Records) (spilled : MetadataError → Records → Prop) (abort : Abort MetadataError)
    (reached : Records) : Prop :=
  Clean records abort reached ∨ ∃ error, abort = .rejected error ∧ spilled error reached

/-- Read a key that the source expects to hold one kind of record only. -/
def expect {α : Type} (view : MetaValue → Option α) (key : MetaKey) (message : String) :
    Txn Records MetadataError (Option α) := fun records =>
  match records.record key with
  | none => (.ok none, records)
  | some value =>
    match view value with
    | some record => (.ok (some record), records)
    | none => (.error (.panicked message), records)

/-- The node a lease is for must be registered and active. -/
def requireActive (role : String) (nodeUuid : Uuid) : Txn Records MetadataError Unit := do
  let node ← expect MetaValue.asNode (.Node nodeUuid) "node keys only ever hold node records"
  match node with
  | none => Txn.reject .NotFound
  | some node =>
    Txn.rejectIf (node.state ≠ .Active)
      (.invalidTransition s!"lease {role} {hyphenated nodeUuid} is {node.state.asStr}, not active")

section Rules

theorem expect_bind {fail : Abort MetadataError → Records → Prop}
    (kind : ∀ value, keyMatchesValue key value = true → view value ≠ none)
    (panics : ¬ records.Healthy → fail (.panicked message) records)
    (continues : (next (records.lookup view key)).wp post fail records) :
    (expect view key message >>= next).wp post fail records := by
  refine Txn.wp_bind.mpr ?_
  cases found : records.record key with
  | none =>
    refine Txn.wp_of_ok (by simp only [expect, found]; rfl) ?_
    simpa only [Records.lookup, found, Option.bind_none] using continues
  | some value =>
    cases seen : view value with
    | none =>
      refine Txn.wp_of_error (by simp only [expect, found, seen]; rfl) ?_
      exact panics fun healthy => kind value (healthy.typed key value found) seen
    | some record =>
      refine Txn.wp_of_ok (by simp only [expect, found, seen]; rfl) ?_
      simpa only [Records.lookup, found, seen, Option.bind_some] using continues

theorem expect_keeps (kind : ∀ value, keyMatchesValue key value = true → view value ≠ none)
    (continues : (next (records.lookup view key)).wp post (Clean records) records) :
    (expect view key message >>= next).wp post (Clean records) records :=
  expect_bind kind (fun unhealthy => Txn.unchanged_panicked unhealthy) continues

theorem cleanOr_rejected : CleanOr records spilled (.rejected error) records := .inl Txn.unchanged_rejected

theorem cleanOr_spilled (spills : spilled error reached) : CleanOr records spilled (.rejected error) reached :=
  .inr ⟨error, rfl, spills⟩

theorem requireActive_spec : (requireActive role nodeUuid).wp
      (fun _ reached => reached = records ∧ ∃ node, records.node? nodeUuid = some node ∧ node.state = .Active)
      (Clean records) records := by
  refine expect_keeps (by intro value; cases value <;> simp [keyMatchesValue]) ?_
  change Txn.wp (match records.node? nodeUuid with | none => _ | some node => _) _ _ _
  cases found : records.node? nodeUuid with
  | none => exact Txn.reject_keeps
  | some node => refine Txn.wp_rejectIf (fun active => ⟨rfl, node, rfl, not_not.mp active⟩) fun _ => Txn.unchanged_rejected

end Rules

end VtopEngine.Meta
