import VtopEngine.Meta.State.Core

/-! # Topics, leases and promotion reports

A topic is created with one root range over the whole key space.  A lease on a
range is granted by an operator or won by election; both mint the next fencing
epoch and its transition record in the same step.
-/

namespace VtopEngine.Meta

open Lib Command
open Txn (need need_keeps rejectIf rejectIf_keeps write)

variable {records : Records} {applyIndex : UInt64}

/-! ## Topics -/

/-- The root range covers the full key interval and has no history. -/
def RangeRecord.root : RangeRecord :=
  { generation := 0, keyPrefix := 0, keyPrefixBits := 0, fencingEpoch := 0, lineageGeneration := 0,
    parents := [], sealedAt := none, lease := none }

def createTopic (args : CreateTopic) : Handler := do
  rejectIf (¬ (validateTopicName args.name).isOk)
    (.limit s!"topic name must be 1..={MAX_TOPIC_NAME_BYTES} bytes, got {args.name.utf8ByteSize}")
  rejectIf ((← Txn.read (·.record (.Topic args.topicUuid))).isSome) .AlreadyExists
  rejectIf ((← Txn.read (·.record (.Range args.topicUuid args.rootRangeUuid))).isSome) .AlreadyExists
  let prior ← expect MetaValue.asTopicName (.TopicByName args.name) "topic-name keys only ever hold name records"
  let priorEpoch := match prior with
    | some record => record.latestEpoch
    | none => 0
  let topicEpoch := priorEpoch + 1
  write (·.put (.TopicByName args.name) (.TopicName { topicUuid := args.topicUuid, latestEpoch := topicEpoch }))
  write (·.put (.Topic args.topicUuid) (.Topic
    { name := args.name, topicEpoch := topicEpoch, generation := 0 }))
  write (·.put (.Range args.topicUuid args.rootRangeUuid) (.Range .root))
  return .TopicCreated args.topicUuid topicEpoch args.rootRangeUuid

/-- The highest epoch ever allocated for a topic name. -/
def Records.priorEpoch (records : Records) (name : String) : UInt64 :=
  match records.topicName? name with
  | some record => record.latestEpoch
  | none => 0

inductive Command.CreateTopic.Accepted (args : CreateTopic) (records : Records) :
    MetadataResponse → Records → Prop
  | intro (nonempty : args.name ≠ "") (fits : args.name.utf8ByteSize ≤ MAX_TOPIC_NAME_BYTES)
      (topicAbsent : records.record (.Topic args.topicUuid) = none)
      (rangeAbsent : records.record (.Range args.topicUuid args.rootRangeUuid) = none) :
      Accepted args records (.TopicCreated args.topicUuid (records.priorEpoch args.name + 1) args.rootRangeUuid)
        (((records.put (.TopicByName args.name)
            (.TopicName { topicUuid := args.topicUuid, latestEpoch := records.priorEpoch args.name + 1 })).put
          (.Topic args.topicUuid)
            (.Topic { name := args.name, topicEpoch := records.priorEpoch args.name + 1, generation := 0 })).put
          (.Range args.topicUuid args.rootRangeUuid) (.Range .root))

theorem createTopic_spec (args) : (createTopic args).Meets args.Accepted records := by
  refine rejectIf_keeps fun named => ?_
  obtain ⟨nonempty, fits⟩ := validateName_isOk.mp (not_not.mp named)
  refine Txn.wp_read_bind (rejectIf_keeps fun topicAbsent => ?_)
  refine Txn.wp_read_bind (rejectIf_keeps fun rangeAbsent => ?_)
  refine expect_keeps (by intro value; cases value <;> simp [keyMatchesValue]) ?_
  exact .intro nonempty fits (Option.not_isSome_iff_eq_none.mp topicAbsent) (Option.not_isSome_iff_eq_none.mp rangeAbsent)

/-! ## Leases -/

/-- The range under a lease that was just granted at `fencingEpoch`. -/
def RangeRecord.leased (range : RangeRecord) (holderNodeUuid : Uuid) (fencingEpoch applyIndex : UInt64)
    (expiresAtMs : Option Int64) : RangeRecord :=
  { range with
    fencingEpoch := fencingEpoch
    lease := some { holderNodeUuid, fencingEpoch, grantedApplyIndex := applyIndex, expiresAtMs }
    generation := range.generation + 1 }

/-- The transition record a mint writes. -/
def RangeRecord.minted (range : RangeRecord) (holderNodeUuid : Uuid) (fencingEpoch applyIndex : UInt64)
    (grant : GrantKind) (nowMs : Int64) : RangeTransitionRecord :=
  { epochFrom := range.fencingEpoch
    epochTo := fencingEpoch
    holderFrom := range.lease.map (·.holderNodeUuid)
    holderTo := holderNodeUuid
    grant
    grantedAtMs := nowMs
    grantedApplyIndex := applyIndex
    outcome := .Pending }

def mintTransition (topicUuid rangeUuid : Uuid) (transition : RangeTransitionRecord) : Txn Records MetadataError Unit :=
  write (·.put (.RangeTransition topicUuid rangeUuid transition.epochTo) (.RangeTransition transition))

/-- The end of a grant and of an acquisition: mint the next epoch, lease the
    range under it and record the transition. -/
def installLease (applyIndex : UInt64) (nowMs : Int64) (topicUuid rangeUuid holderNodeUuid : Uuid)
    (range : RangeRecord) (grant : GrantKind) (expiresAtMs : Option Int64) : Handler := do
  let fencingEpoch ← need (fun _ => checkedSucc range.fencingEpoch) (.limit "fencing epoch space is exhausted")
  write (·.put (.Range topicUuid rangeUuid) (.Range (range.leased holderNodeUuid fencingEpoch applyIndex expiresAtMs)))
  mintTransition topicUuid rangeUuid (range.minted holderNodeUuid fencingEpoch applyIndex grant nowMs)
  return .LeaseGranted fencingEpoch

def grantRangeLease (applyIndex : UInt64) (args : GrantRangeLease) : Handler := do
  requireActive "holder" args.holderNodeUuid
  let range ← need (·.range? args.topicUuid args.rangeUuid) .NotFound
  rejectIf (range.generation ≠ args.expectedRangeGeneration)
    (.GenerationMismatch args.expectedRangeGeneration range.generation)
  installLease applyIndex args.env.issuedAtMs args.topicUuid args.rangeUuid args.holderNodeUuid range .Administrative none

/-- Why an election may not take the range from the lease it finds. -/
def electionRefusal (lease : Option LeaseRecord) (holderNodeUuid : Uuid) (nowMs : Int64) : Option MetadataError :=
  match lease with
  | none => none
  | some existing =>
    if existing.expiresAtMs.isNone then
      some (.invalidTransition ("range holds an administrative lease with no deadline; it cannot "
        ++ "be acquired by election, only released or re-granted"))
    else if existing.holderNodeUuid ≠ holderNodeUuid ∧ existing.isLiveAt nowMs then
      some (.invalidTransition s!"range lease is held by {hyphenated existing.holderNodeUuid} and is still live")
    else
      none

def acquireRangeLease (applyIndex : UInt64) (args : AcquireRangeLease) : Handler := do
  rejectIf (args.leaseDurationMs = 0) (.invalidTransition ("lease duration must be greater than zero; a zero-length lease "
      ++ "would expire before its holder could renew it"))
  requireActive "candidate" args.holderNodeUuid
  let expiresAtMs ← need (fun _ => checkedAddUnsigned args.env.issuedAtMs args.leaseDurationMs)
    (.limit "lease deadline overflows the representable time range")
  let range ← need (·.range? args.topicUuid args.rangeUuid) .NotFound
  rejectIf (range.generation ≠ args.expectedRangeGeneration)
    (.GenerationMismatch args.expectedRangeGeneration range.generation)
  Txn.rejectSome (electionRefusal range.lease args.holderNodeUuid args.env.issuedAtMs)
  installLease applyIndex args.env.issuedAtMs args.topicUuid args.rangeUuid args.holderNodeUuid range
    .Election (some expiresAtMs)

/-- The state after a lease was installed. -/
def Records.leased (records : Records) (topicUuid rangeUuid holderNodeUuid : Uuid) (range : RangeRecord)
    (fencingEpoch applyIndex : UInt64) (grant : GrantKind) (nowMs : Int64) (expiresAtMs : Option Int64) : Records :=
  (records.put (.Range topicUuid rangeUuid) (.Range (range.leased holderNodeUuid fencingEpoch applyIndex expiresAtMs))).put
    (.RangeTransition topicUuid rangeUuid fencingEpoch)
      (.RangeTransition (range.minted holderNodeUuid fencingEpoch applyIndex grant nowMs))

inductive Command.GrantRangeLease.Accepted (args : GrantRangeLease) (applyIndex : UInt64) (records : Records) :
    MetadataResponse → Records → Prop
  | intro
      (holder : records.node? args.holderNodeUuid = some node) (active : node.state = .Active)
      (found : records.range? args.topicUuid args.rangeUuid = some range)
      (current : range.generation = args.expectedRangeGeneration)
      (mints : checkedSucc range.fencingEpoch = some fencingEpoch) :
      Accepted args applyIndex records (.LeaseGranted fencingEpoch)
        (records.leased args.topicUuid args.rangeUuid args.holderNodeUuid range fencingEpoch applyIndex
          .Administrative args.env.issuedAtMs none)

theorem grantRangeLease_spec (args) : (grantRangeLease applyIndex args).Meets (args.Accepted applyIndex) records := by
  refine Txn.check_keeps requireActive_spec fun _ ⟨node, holder, active⟩ => ?_
  refine need_keeps fun range found => rejectIf_keeps fun current => ?_
  refine need_keeps fun fencingEpoch mints => ?_
  exact .intro holder active found (not_not.mp current) mints

inductive Command.AcquireRangeLease.Accepted (args : AcquireRangeLease) (applyIndex : UInt64) (records : Records) :
    MetadataResponse → Records → Prop
  | intro
      (lasting : args.leaseDurationMs ≠ 0)
      (holder : records.node? args.holderNodeUuid = some node) (active : node.state = .Active)
      (deadline : checkedAddUnsigned args.env.issuedAtMs args.leaseDurationMs = some expiresAtMs)
      (found : records.range? args.topicUuid args.rangeUuid = some range)
      (current : range.generation = args.expectedRangeGeneration)
      (electable : electionRefusal range.lease args.holderNodeUuid args.env.issuedAtMs = none)
      (mints : checkedSucc range.fencingEpoch = some fencingEpoch) :
      Accepted args applyIndex records (.LeaseGranted fencingEpoch)
        (records.leased args.topicUuid args.rangeUuid args.holderNodeUuid range fencingEpoch applyIndex
          .Election args.env.issuedAtMs (some expiresAtMs))

theorem acquireRangeLease_spec (args) : (acquireRangeLease applyIndex args).Meets (args.Accepted applyIndex) records := by
  refine rejectIf_keeps fun lasting => ?_
  refine Txn.check_keeps requireActive_spec fun _ ⟨node, holder, active⟩ => ?_
  refine need_keeps fun expiresAtMs deadline => need_keeps fun range found => ?_
  refine rejectIf_keeps fun current => Txn.rejectSome_keeps fun electable => ?_
  refine need_keeps fun fencingEpoch mints => ?_
  exact .intro lasting holder active deadline found (not_not.mp current) electable mints

def renewRangeLease (args : RenewRangeLease) : Handler := do
  rejectIf (args.leaseDurationMs = 0) (.invalidTransition "lease duration must be greater than zero")
  let expiresAtMs ← need (fun _ => checkedAddUnsigned args.env.issuedAtMs args.leaseDurationMs)
    (.limit "lease deadline overflows the representable time range")
  let range ← need (·.range? args.topicUuid args.rangeUuid) .NotFound
  let lease ← need (fun _ => range.lease) (.invalidTransition "range holds no lease to renew")
  rejectIf (lease.holderNodeUuid ≠ args.holderNodeUuid) (.invalidTransition
      s!"range lease is held by {hyphenated lease.holderNodeUuid}, not {hyphenated args.holderNodeUuid}")
  rejectIf (lease.fencingEpoch ≠ args.expectedFencingEpoch) (.EpochMismatch args.expectedFencingEpoch lease.fencingEpoch)
  let currentDeadline ← need (fun _ => lease.expiresAtMs)
    (.invalidTransition ("range holds an administrative lease with no deadline; it cannot be "
      ++ "renewed, only released or re-granted"))
  rejectIf (args.env.issuedAtMs ≥ currentDeadline)
    (.invalidTransition s!"range lease expired at {currentDeadline}; acquire it instead of renewing")
  requireActive "holder" args.holderNodeUuid
  -- Never shorten: a renewal behind a longer one must not pull the deadline in.
  let extended := if currentDeadline < expiresAtMs then expiresAtMs else currentDeadline
  write (·.put (.Range args.topicUuid args.rangeUuid) (.Range
    { range with lease := some { lease with expiresAtMs := some extended } }))
  return .LeaseGranted args.expectedFencingEpoch

/-- A renewal moves a deadline that is there, and never back. -/
def LeaseRecord.Renews (lease : LeaseRecord) (deadline : Option Int64) : Prop :=
  ∃ current extended, lease.expiresAtMs = some current ∧ current ≤ extended ∧ deadline = some extended

inductive Command.RenewRangeLease.Accepted (args : RenewRangeLease) (records : Records) :
    MetadataResponse → Records → Prop
  | intro (deadline : Option Int64)
      (found : records.range? args.topicUuid args.rangeUuid = some range) (held : range.lease = some lease)
      (holder : lease.holderNodeUuid = args.holderNodeUuid)
      (epoch : lease.fencingEpoch = args.expectedFencingEpoch) (renews : lease.Renews deadline) :
      Accepted args records (.LeaseGranted args.expectedFencingEpoch)
        (records.put (.Range args.topicUuid args.rangeUuid) (.Range
          { range with lease := some { lease with expiresAtMs := deadline } }))

theorem renewRangeLease_spec (args) : (renewRangeLease args).Meets args.Accepted records := by
  refine rejectIf_keeps fun _ => need_keeps fun _ _ => ?_
  refine need_keeps fun range found => need_keeps fun lease held => ?_
  refine rejectIf_keeps fun holder => rejectIf_keeps fun epoch => ?_
  refine need_keeps fun current expires => rejectIf_keeps fun _ => ?_
  refine Txn.check_keeps requireActive_spec fun _ _ => ?_
  refine .intro _ found held (not_not.mp holder) (not_not.mp epoch) ⟨current, _, expires, ?_, rfl⟩
  split
  · next longer => exact Int64.le_of_lt longer
  · exact Int64.le_refl current

def releaseRangeLease (args : ReleaseRangeLease) : Handler := do
  let range ← need (·.range? args.topicUuid args.rangeUuid) .NotFound
  rejectIf (range.fencingEpoch ≠ args.expectedFencingEpoch) (.EpochMismatch args.expectedFencingEpoch range.fencingEpoch)
  rejectIf (range.lease.isNone) (.invalidTransition "range holds no lease to release")
  write (·.put (.Range args.topicUuid args.rangeUuid) (.Range
    { range with lease := none, generation := range.generation + 1 }))
  return .Ack (range.generation + 1)

inductive Command.ReleaseRangeLease.Accepted (args : ReleaseRangeLease) (records : Records) :
    MetadataResponse → Records → Prop
  | intro
      (found : records.range? args.topicUuid args.rangeUuid = some range)
      (epoch : range.fencingEpoch = args.expectedFencingEpoch) (held : range.lease = some lease) :
      Accepted args records (.Ack (range.generation + 1)) (records.put (.Range args.topicUuid args.rangeUuid) (.Range
          { range with lease := none, generation := range.generation + 1 }))

theorem releaseRangeLease_spec (args) : (releaseRangeLease args).Meets args.Accepted records := by
  refine need_keeps fun range found => rejectIf_keeps fun epoch => ?_
  refine rejectIf_keeps fun held => ?_
  obtain ⟨lease, held⟩ := Option.ne_none_iff_exists'.mp (by simpa using held)
  exact .intro found (not_not.mp epoch) held

/-! ## Promotion reports -/

def PromotionOutcome.quorum : PromotionOutcome → List QuorumAnswer
  | Established _ _ quorum _ _ => quorum
  | Refused _ => []

def TransitionOutcome.isEstablished : TransitionOutcome → Bool
  | Reported (.Established ..) .. => true
  | _ => false

def reportPromotionOutcome (applyIndex : UInt64) (args : ReportPromotionOutcome) : Handler := do
  rejectIf (args.outcome.quorum.length > MAX_TRANSITION_QUORUM)
    (.limit s!"a promotion report may carry at most {MAX_TRANSITION_QUORUM} quorum answers")
  let transition ← need (·.transition? args.topicUuid args.rangeUuid args.fencingEpoch) .NotFound
  rejectIf (transition.holderTo ≠ args.holderNodeUuid) (.invalidTransition
      s!"epoch {args.fencingEpoch} was granted to {hyphenated transition.holderTo}, not {hyphenated args.holderNodeUuid}")
  rejectIf (transition.outcome.isEstablished) (.invalidTransition
      s!"epoch {args.fencingEpoch} is already recorded as established; an established transition is final")
  write (·.put (.RangeTransition args.topicUuid args.rangeUuid args.fencingEpoch) (.RangeTransition
    { transition with outcome := .Reported args.outcome args.env.issuedAtMs applyIndex }))
  return .TransitionRecorded args.fencingEpoch

inductive Command.ReportPromotionOutcome.Accepted (args : ReportPromotionOutcome) (applyIndex : UInt64)
    (records : Records) : MetadataResponse → Records → Prop
  | intro (bounded : args.outcome.quorum.length ≤ MAX_TRANSITION_QUORUM)
      (found : records.transition? args.topicUuid args.rangeUuid args.fencingEpoch = some transition)
      (holder : transition.holderTo = args.holderNodeUuid) (unsettled : transition.outcome.isEstablished = false) :
      Accepted args applyIndex records (.TransitionRecorded args.fencingEpoch)
        (records.put (.RangeTransition args.topicUuid args.rangeUuid args.fencingEpoch) (.RangeTransition
          { transition with outcome := .Reported args.outcome args.env.issuedAtMs applyIndex }))

theorem reportPromotionOutcome_spec (args) :
    (reportPromotionOutcome applyIndex args).Meets (args.Accepted applyIndex) records := by
  refine rejectIf_keeps fun bounded => need_keeps fun transition found => ?_
  refine rejectIf_keeps fun holder => rejectIf_keeps fun unsettled => ?_
  exact .intro (Nat.le_of_not_lt bounded) found (not_not.mp holder) (Bool.not_eq_true _ |>.mp unsettled)

end VtopEngine.Meta
