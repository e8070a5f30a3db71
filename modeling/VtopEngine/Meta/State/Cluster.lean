import VtopEngine.Meta.State.Core

/-! # Nodes, keys and the feature level

Handlers of the records that belong to the cluster rather than to a topic.
-/

namespace VtopEngine.Meta

open Lib Command Txn

variable {records : Records}

/-! ## Nodes -/

def registerNode (args : RegisterNode) : Handler := do
  rejectIf (args.addr.isEmpty ∨ args.addr.utf8ByteSize > MAX_NODE_ADDR_BYTES)
    (.limit s!"node address must be 1..={MAX_NODE_ADDR_BYTES} bytes, got {args.addr.utf8ByteSize}")
  match ← read (·.record (.Node args.nodeUuid)), args.expectedGeneration with
  | none, none =>
    write (·.put (.Node args.nodeUuid) (.Node
      { addr := args.addr, state := .Active, generation := 0, failureDomain := "",
        placementWeight := DEFAULT_PLACEMENT_WEIGHT }))
    return .Ack 0
  | none, some _ => reject .NotFound
  | some _, none => reject .AlreadyExists
  | some (.Node node), some expected =>
    rejectIf (node.generation ≠ expected) (.GenerationMismatch expected node.generation)
    write (·.put (.Node args.nodeUuid) (.Node
      { node with addr := args.addr, state := .Active, generation := node.generation + 1 }))
    return .Ack (node.generation + 1)
  | some _, some _ => unreachable "node keys only ever hold node records"

inductive Command.RegisterNode.Accepted (args : RegisterNode) (records : Records) :
    MetadataResponse → Records → Prop
  | first (nonempty : args.addr ≠ "") (fits : args.addr.utf8ByteSize ≤ MAX_NODE_ADDR_BYTES)
      (absent : records.record (.Node args.nodeUuid) = none) (expected : args.expectedGeneration = none) :
      Accepted args records (.Ack 0) (records.put (.Node args.nodeUuid) (.Node
        { addr := args.addr, state := .Active, generation := 0, failureDomain := "",
          placementWeight := DEFAULT_PLACEMENT_WEIGHT }))
  | again (nonempty : args.addr ≠ "") (fits : args.addr.utf8ByteSize ≤ MAX_NODE_ADDR_BYTES)
      (found : records.node? args.nodeUuid = some node) (expected : args.expectedGeneration = some node.generation) :
      Accepted args records (.Ack (node.generation + 1)) (records.put (.Node args.nodeUuid) (.Node
        { node with addr := args.addr, state := .Active, generation := node.generation + 1 }))

theorem registerNode_spec (args) : (registerNode args).Meets args.Accepted records := by
  refine rejectIf_keeps fun addrFits => wp_read_bind ?_
  simp only [String.isEmpty_iff, not_or, Nat.not_lt, gt_iff_lt] at addrFits
  split
  · next absent expected => exact .first addrFits.1 addrFits.2 absent expected
  · exact reject_keeps
  · exact reject_keeps
  · next node generation found expected =>
    refine rejectIf_keeps fun current => ?_
    have same : node.generation = generation := not_not.mp current
    exact .again addrFits.1 addrFits.2 (by simp [Records.node?, Records.lookup, found]) (same ▸ expected)
  · next value generation notNode found expected =>
    refine unchanged_panicked fun healthy => ?_
    have kind := healthy.typed _ _ found
    cases value <;> simp_all [keyMatchesValue]

/-- Dead is terminal, and a state is never written over itself. -/
def NodeState.allowed : NodeState → NodeState → Bool
  | Active, Draining | Active, Dead | Draining, Active | Draining, Dead => true
  | _, _ => false

def setNodeState (args : SetNodeState) : Handler := do
  let node ← need (·.node? args.nodeUuid) .NotFound
  rejectIf (node.generation ≠ args.expectedGeneration) (.GenerationMismatch args.expectedGeneration node.generation)
  rejectIf (¬ node.state.allowed args.state)
    (.invalidTransition s!"node state {node.state.asStr} -> {args.state.asStr} is not allowed")
  write (·.put (.Node args.nodeUuid) (.Node
    { node with state := args.state, generation := node.generation + 1 }))
  return .Ack (node.generation + 1)

inductive Command.SetNodeState.Accepted (args : SetNodeState) (records : Records) :
    MetadataResponse → Records → Prop
  | intro (found : records.node? args.nodeUuid = some node)
      (current : node.generation = args.expectedGeneration) (allowed : node.state.allowed args.state = true) :
      Accepted args records (.Ack (node.generation + 1)) (records.put (.Node args.nodeUuid) (.Node
        { node with state := args.state, generation := node.generation + 1 }))

theorem setNodeState_spec (args) : (setNodeState args).Meets args.Accepted records := by
  refine need_keeps fun node found => ?_
  refine rejectIf_keeps fun current => rejectIf_keeps fun allowed => ?_
  exact .intro found (not_not.mp current) (not_not.mp allowed)

def setNodePlacementAttrs (args : SetNodePlacementAttrs) : Handler := do
  rejectIf (args.failureDomain.utf8ByteSize > MAX_FAILURE_DOMAIN_BYTES)
    (.limit s!"failure domain must be 0..={MAX_FAILURE_DOMAIN_BYTES} bytes, got {args.failureDomain.utf8ByteSize}")
  rejectIf (args.placementWeight < MIN_PLACEMENT_WEIGHT) (.limit s!"placement weight must be >= {MIN_PLACEMENT_WEIGHT}")
  let node ← need (·.node? args.nodeUuid) .NotFound
  rejectIf (node.generation ≠ args.expectedGeneration) (.GenerationMismatch args.expectedGeneration node.generation)
  write (·.put (.Node args.nodeUuid) (.Node
    { node with failureDomain := args.failureDomain, placementWeight := args.placementWeight,
                generation := node.generation + 1 }))
  return .Ack (node.generation + 1)

inductive Command.SetNodePlacementAttrs.Accepted (args : SetNodePlacementAttrs) (records : Records) :
    MetadataResponse → Records → Prop
  | intro (fits : args.failureDomain.utf8ByteSize ≤ MAX_FAILURE_DOMAIN_BYTES)
      (weight : MIN_PLACEMENT_WEIGHT ≤ args.placementWeight) (found : records.node? args.nodeUuid = some node)
      (current : node.generation = args.expectedGeneration) :
      Accepted args records (.Ack (node.generation + 1)) (records.put (.Node args.nodeUuid) (.Node
        { node with failureDomain := args.failureDomain, placementWeight := args.placementWeight,
                    generation := node.generation + 1 }))

theorem setNodePlacementAttrs_spec (args) : (setNodePlacementAttrs args).Meets args.Accepted records := by
  refine rejectIf_keeps fun fits => rejectIf_keeps fun weight => ?_
  refine need_keeps fun node found => rejectIf_keeps fun current => ?_
  exact .intro (Nat.le_of_not_lt fits) (UInt32.not_lt.mp weight) found (not_not.mp current)

/-! ## Public keys -/

def putKeyRecord (args : PutKeyRecord) : Handler := do
  rejectIf ((← read (·.record (.Key args.keyUuid))).isSome) .AlreadyExists
  write (·.put (.Key args.keyUuid) (.Key
    { scheme := args.scheme, publicMaterialDigest := args.publicMaterialDigest, state := .Active }))
  return .Ack 0

inductive Command.PutKeyRecord.Accepted (args : PutKeyRecord) (records : Records) :
    MetadataResponse → Records → Prop
  | intro (absent : records.record (.Key args.keyUuid) = none) :
      Accepted args records (.Ack 0) (records.put (.Key args.keyUuid) (.Key
        { scheme := args.scheme, publicMaterialDigest := args.publicMaterialDigest, state := .Active }))

theorem putKeyRecord_spec (args) : (putKeyRecord args).Meets args.Accepted records := by
  refine wp_read_bind (rejectIf_keeps fun absent => ?_)
  exact .intro (Option.not_isSome_iff_eq_none.mp absent)

/-! ## The feature level -/

/-- The level the cluster runs at; one that never recorded a level is at the baseline. -/
def Records.featureLevel (records : Records) : UInt32 :=
  match records.record .ClusterConfig with
  | some (.ClusterConfig config) => config.featureLevel
  | _ => BASELINE_FEATURE_LEVEL

def setFeatureLevel (args : SetFeatureLevel) : Handler := do
  rejectIf (args.featureLevel > SUPPORTED_FEATURE_LEVEL) (.invalidTransition
      s!"feature level {args.featureLevel} is newer than this release supports ({SUPPORTED_FEATURE_LEVEL})")
  let current ← read Records.featureLevel
  if args.featureLevel > current then
    write (·.put .ClusterConfig (.ClusterConfig { featureLevel := args.featureLevel }))
  return .Ack (← read Records.featureLevel).toUInt64

inductive Command.SetFeatureLevel.Accepted (args : SetFeatureLevel) (records : Records) :
    MetadataResponse → Records → Prop
  | raise (supported : args.featureLevel ≤ SUPPORTED_FEATURE_LEVEL) (above : records.featureLevel < args.featureLevel) :
      Accepted args records (.Ack args.featureLevel.toUInt64)
        (records.put .ClusterConfig (.ClusterConfig { featureLevel := args.featureLevel }))
  | keep (supported : args.featureLevel ≤ SUPPORTED_FEATURE_LEVEL) (reached : args.featureLevel ≤ records.featureLevel) :
      Accepted args records (.Ack records.featureLevel.toUInt64) records

theorem setFeatureLevel_spec (args) : (setFeatureLevel args).Meets args.Accepted records := by
  refine rejectIf_keeps fun supported => wp_read_bind ?_
  have supported := UInt32.not_lt.mp supported
  split
  · next above =>
    have recorded : (records.put .ClusterConfig (.ClusterConfig { featureLevel := args.featureLevel })).featureLevel
        = args.featureLevel := by simp [Records.featureLevel]
    refine wp_write_bind (wp_read_bind ?_)
    rw [recorded]
    exact .raise supported above
  · next reached => exact .keep supported (UInt32.not_lt.mp reached)

end VtopEngine.Meta
