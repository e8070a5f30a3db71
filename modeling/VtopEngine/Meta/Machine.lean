import VtopEngine.Lib.Runs
import VtopEngine.Meta.State.Cluster
import VtopEngine.Meta.State.Ranges
import VtopEngine.Meta.State.ReplicaSets
import VtopEngine.Meta.State.Lineage
import VtopEngine.Meta.State.Segments
import VtopEngine.Meta.State.Groups
import VtopEngine.Meta.State.Cursors
import VtopEngine.Meta.State.Placements
import VtopEngine.Meta.State.Retention

/-! # The replicated state machine

`MetaStateMachine.apply`: the dispatch over the thirty-seven commands, and the
bounded table of responses that makes a repeated request answer what it answered
the first time.  A run is a sequence of applied commands; a panic ends it.
-/

namespace VtopEngine.Meta

open Lib

/-- The dedup table's bound; the oldest request is forgotten first. -/
def DEDUP_CAPACITY : Nat := 65536

structure MetaStateMachine where
  records : Records
  dedupOrder : List Uuid
  dedupResponses : Std.ExtTreeMap Uuid MetadataResponse
  deriving DecidableEq

def Command.EnsureGroupMemberForRange.member (args : EnsureGroupMemberForRange) : EnsureMember :=
  { name := args.name, groupUuid := args.groupUuid, memberUuid := args.memberUuid, topicUuid := args.topicUuid,
    rangeUuid := args.rangeUuid }

def Command.EnsureGroupMemberCoordinated.member (args : EnsureGroupMemberCoordinated) : EnsureMember :=
  { name := args.name, groupUuid := args.groupUuid, memberUuid := args.memberUuid, topicUuid := args.topicUuid,
    rangeUuid := args.rangeUuid }

/-- Run the handler only for the leaseholder of the range. -/
def fenced (topicUuid rangeUuid holderNodeUuid : Uuid) (fencingEpoch : UInt64) (handler : Handler) : Handler := do
  Txn.rejectSome (← Txn.read (·.notTheLeaseholder topicUuid rangeUuid holderNodeUuid fencingEpoch))
  handler

def applyInner [External] (applyIndex : UInt64) : MetadataCommand → Handler
  | .RegisterNode args => registerNode args
  | .SetNodeState args => setNodeState args
  | .CreateTopic args => createTopic args
  | .GrantRangeLease args => grantRangeLease applyIndex args
  | .ReleaseRangeLease args => releaseRangeLease args
  | .AcquireRangeLease args => acquireRangeLease applyIndex args
  | .RenewRangeLease args => renewRangeLease args
  | .ReportPromotionOutcome args => reportPromotionOutcome applyIndex args
  | .SplitRange args => splitRange args
  | .RegisterSealedSegment args => registerSealedSegment args
  | .MarkSegmentVerified args => markSegmentVerified args
  | .PutKeyRecord args => putKeyRecord args
  | .CreateConsumerGroup args => createConsumerGroup args
  | .JoinConsumerGroup args => joinConsumerGroup applyIndex args
  | .LeaveConsumerGroup args => leaveConsumerGroup args
  | .AssignMemberRanges args => assignMemberRanges args
  | .CommitGroupCursor args => commitGroupCursor args.cursor
  | .HeartbeatMember args => heartbeatMember applyIndex args
  | .EnsureGroupMemberForRange args =>
    fenced args.topicUuid args.rangeUuid args.holderNodeUuid args.fencingEpoch
      (ensureGroupMemberForRange applyIndex args.member)
  | .CommitGroupCursorFenced args =>
    fenced args.cursor.topicUuid args.cursor.rangeUuid args.holderNodeUuid args.fencingEpoch (commitGroupCursor args.cursor)
  | .CommitGroupCursorCoordinated args =>
    fenced args.coordinatorTopicUuid args.coordinatorRangeUuid args.holderNodeUuid args.fencingEpoch
      (commitGroupCursor args.cursor)
  | .EnsureGroupMemberCoordinated args =>
    fenced args.coordinatorTopicUuid args.coordinatorRangeUuid args.holderNodeUuid args.fencingEpoch
      (ensureGroupMemberForRange applyIndex args.member)
  | .ExpireStaleMember args => expireStaleMember args
  | .SetNodePlacementAttrs args => setNodePlacementAttrs args
  | .CommitSegmentPlacement args => commitSegmentPlacement applyIndex args
  | .CommitReplacementProof args => commitReplacementProof applyIndex args
  | .PlanReplicaRetirement args => planReplicaRetirement args
  | .ConfirmReplicaRetired args => confirmReplicaRetired applyIndex args
  | .ProposeRebalance args => proposeRebalance applyIndex args
  | .CancelRebalance args => cancelRebalance applyIndex args
  | .CommitTierEvidence args => commitTierEvidence applyIndex args
  | .SetTopicRetentionPolicy args => setTopicRetentionPolicy args
  | .PlanRetention args => planRetention args
  | .ConfirmRetentionExpired args => confirmRetentionExpired applyIndex args
  | .CancelRetention args => cancelRetention args
  | .SetFeatureLevel args => setFeatureLevel args
  | .SetRangeReplicaSet args => setRangeReplicaSet args

namespace MetaStateMachine

def new : MetaStateMachine := { records := .empty, dedupOrder := [], dedupResponses := ∅ }

/-- Forget the request remembered longest. -/
def evictOldest (machine : MetaStateMachine) : MetaStateMachine :=
  match machine.dedupOrder with
  | [] => machine
  | evicted :: rest => { machine with dedupOrder := rest, dedupResponses := machine.dedupResponses.erase evicted }

def remember (machine : MetaStateMachine) (requestId : Uuid) (response : MetadataResponse) : MetaStateMachine :=
  let machine := if machine.dedupOrder.length = DEDUP_CAPACITY then machine.evictOldest else machine
  { machine with
    dedupOrder := machine.dedupOrder ++ [requestId]
    dedupResponses := machine.dedupResponses.insert requestId response }

@[simp] theorem records_remember (machine : MetaStateMachine) (requestId response) :
    (machine.remember requestId response).records = machine.records := by
  unfold remember evictOldest
  dsimp only
  split <;> [split; skip] <;> rfl

/-- The response the request was applied with, while the table remembers it. -/
def appliedResponse (machine : MetaStateMachine) (requestId : Uuid) : Option MetadataResponse :=
  machine.dedupResponses[requestId]?

/-- Apply one command: the response and the machine after it, or the panic. -/
def apply [External] (machine : MetaStateMachine) (applyIndex : UInt64) (command : MetadataCommand) :
    Except String (MetadataResponse × MetaStateMachine) :=
  match machine.appliedResponse command.envelope.requestId with
  | some original => .ok (original, machine)
  | none =>
    match applyInner applyIndex command machine.records with
    | (.ok response, records) => .ok (response, { machine with records }.remember command.envelope.requestId response)
    | (.error (.rejected error), records) =>
      .ok (.Rejected error, { machine with records }.remember command.envelope.requestId (.Rejected error))
    | (.error (.panicked message), _) => .error message

/-- The machine after a log of commands, each with its apply index. -/
def afterLog [External] (machine : MetaStateMachine) : List (UInt64 × MetadataCommand) → MetaStateMachine
  | [] => machine
  | (applyIndex, command) :: rest =>
    match machine.apply applyIndex command with
    | .ok (_, next) => next.afterLog rest
    | .error _ => machine

end MetaStateMachine

/-! ## Runs -/

/-- A command as it was applied, with the answer it got. -/
structure Event where
  applyIndex : UInt64
  command : MetadataCommand
  response : MetadataResponse

def MetaStateMachine.Step [External] (machine : MetaStateMachine) (event : Event) (next : MetaStateMachine) : Prop :=
  machine.apply event.applyIndex event.command = .ok (event.response, next)

/-- The machines `apply` reaches from a new one. -/
def MetaStateMachine.Reached [External] (machine : MetaStateMachine) : Prop := Reachable Step .new machine

variable {machine next : MetaStateMachine}

theorem MetaStateMachine.Reached.step [External]
    (reached : machine.Reached) (step : machine.Step event next) : next.Reached :=
  Reachable.step reached step

theorem MetaStateMachine.Reached.run [External]
    (reached : machine.Reached) (run : Run MetaStateMachine.Step machine events next) : next.Reached :=
  Reachable.run reached run

theorem MetaStateMachine.Reached.afterLog [External] (reached : machine.Reached) (log) : (machine.afterLog log).Reached := by
  induction log generalizing machine with
  | nil => exact reached
  | cons entry rest ih =>
    obtain ⟨applyIndex, command⟩ := entry
    unfold MetaStateMachine.afterLog
    split
    · next response next applied =>
      have step : machine.Step { applyIndex, command, response } next := applied
      exact ih (reached.step step)
    · exact reached

end VtopEngine.Meta
