import Mathlib.Data.List.Sort
import Mathlib.Data.List.Dedup
import VtopEngine.Meta.State.Core

/-! # Recorded replica sets

`SetRangeReplicaSet` records the set a range's quorum is counted over.  A
recorded set changes by one member at a time, and only after a promotion under
it has shown the leader's whole log on a majority of it.
-/

namespace VtopEngine.Meta

open Lib

variable {records : Records}

/-- `sort_unstable` then `dedup`: on a sorted list all duplicates are adjacent. -/
def sortedMembers (members : List Uuid) : List Uuid := (members.insertionSort (· ≤ ·)).dedup

theorem sortedMembers_sorted (members) : (sortedMembers members).Pairwise (· < ·) := by
  have sorted : (members.insertionSort (· ≤ ·)).Pairwise (· ≤ ·) := List.pairwise_insertionSort _ _
  refine ((sorted.sublist (List.dedup_sublist _)).and (List.nodup_dedup _)).imp ?_
  rintro first second ⟨ordered, different⟩
  exact BitVec.lt_of_le_ne ordered different

/-- How many nodes are in one of the sets and not in the other. -/
def changedMembers (sorted current : List Uuid) : Nat :=
  (sorted.filter fun node => node ∉ current).length + (current.filter fun node => node ∉ sorted).length

/-- The members that answered the fence at or above the holder's own offset. -/
def holding (members : List Uuid) (quorum : List QuorumAnswer) (own : UInt64) : List Uuid :=
  members.filter fun member => quorum.any fun answer => answer.nodeUuid == member && own ≤ answer.offset

/-- The promotion shows its holder's whole log on a majority of `set`.  One
    without a quorum counts only for a set of its holder alone. -/
def RangeReplicaSetRecord.provenBy (set : RangeReplicaSetRecord) (transition : RangeTransitionRecord) : Bool :=
  match transition.outcome with
  | .Reported (.Established _ _ quorum _ _) _ _ =>
    if quorum.isEmpty then
      set.members == [transition.holderTo]
    else if transition.holderTo ∉ set.members then
      false
    else
      match quorum.find? fun answer => answer.nodeUuid == transition.holderTo with
      | none => false
      | some own => (holding set.members quorum own.offset).length ≥ set.members.length / 2 + 1
  | _ => false

/-- Whether the range has been led under `set`: some transition above the epoch
    the set was recorded at proves it. -/
def Records.establishedUnder (records : Records) (topicUuid rangeUuid : Uuid) (set : RangeReplicaSetRecord) : Bool :=
  match checkedSucc set.recordedAtEpoch with
  | none => false
  | some firstEpoch =>
    let start := MetaKey.RangeTransition topicUuid rangeUuid firstEpoch
    let finish := MetaKey.RangeTransition topicUuid rangeUuid 0xFFFFFFFFFFFFFFFF
    (records.between start.encode finish.encode).any fun entry =>
      match entry.2 with
      | .RangeTransition transition => set.provenBy transition
      | _ => false

/-- The checks on replacing `current` by another set. -/
def Records.changeRefusal (records : Records) (topicUuid rangeUuid : Uuid) (sorted : List Uuid)
    (current : RangeReplicaSetRecord) : Option MetadataError :=
  if changedMembers sorted current.members ≠ 1 then
    some (.invalidTransition (s!"a replica set changes by one member at a time; this change adds or "
      ++ s!"removes {changedMembers sorted current.members}"))
  else if ¬ records.establishedUnder topicUuid rangeUuid current then
    some (.invalidTransition ("the range has not been led under the current replica set (recorded at "
      ++ s!"fencing epoch {current.recordedAtEpoch}) with its leader's whole log on a majority of it; wait "
      ++ "for a promotion under it, and if one was established while its leader "
      ++ "was ahead of the replicas, restart that leader once it has caught them "
      ++ "up so the next promotion proves it, then retry"))
  else
    none

/-- Clearing a lease counts as a mutation of the range. -/
def RangeRecord.unleased (range : RangeRecord) : RangeRecord :=
  if range.lease.isSome then { range with lease := none, generation := range.generation + 1 } else range

def setRangeReplicaSet (args : Command.SetRangeReplicaSet) : Handler := do
  let range ← Txn.need (·.range? args.topicUuid args.rangeUuid) .NotFound
  let sorted := sortedMembers args.members
  Txn.rejectIf (sorted.isEmpty ∨ sorted.length ≠ args.members.length)
    (.invalidTransition "a replica set names one or more distinct nodes")
  let missing ← Txn.read fun records => sorted.find? fun node => (records.record (.Node node)).isNone
  Txn.rejectSome (missing.map fun missing =>
    .invalidTransition s!"replica set member {hyphenated missing} is not a registered node")
  let current ← Txn.read (·.replicaSet? args.topicUuid args.rangeUuid)
  let actualGeneration := match current with
    | some set => set.generation
    | none => 0
  Txn.rejectIf (args.expectedGeneration ≠ actualGeneration) (.GenerationMismatch args.expectedGeneration actualGeneration)
  if current.map (·.members) = some sorted then
    return .Ack actualGeneration
  else
    let refusal ← Txn.read fun records => current.bind (records.changeRefusal args.topicUuid args.rangeUuid sorted)
    Txn.rejectSome refusal
    Txn.write (·.put (.Range args.topicUuid args.rangeUuid) (.Range range.unleased))
    Txn.write (·.put (.RangeReplicaSet args.topicUuid args.rangeUuid) (.RangeReplicaSet
      { generation := actualGeneration + 1, members := sorted, recordedAtEpoch := range.fencingEpoch }))
    return .Ack (actualGeneration + 1)

/-- The generation a change of the set must name. -/
def replicaSetGeneration : Option RangeReplicaSetRecord → UInt64
  | some set => set.generation
  | none => 0

inductive Command.SetRangeReplicaSet.Accepted (args : SetRangeReplicaSet) (records : Records) :
    MetadataResponse → Records → Prop
  | same
      (recorded : records.replicaSet? args.topicUuid args.rangeUuid = some current)
      (unchanged : current.members = sortedMembers args.members) :
      Accepted args records (.Ack current.generation) records
  | change
      (found : records.range? args.topicUuid args.rangeUuid = some range)
      (nonempty : sortedMembers args.members ≠ [])
      (distinct : (sortedMembers args.members).length = args.members.length)
      (registered : ∀ node ∈ sortedMembers args.members, records.record (.Node node) ≠ none)
      (recorded : records.replicaSet? args.topicUuid args.rangeUuid = previous)
      (current : args.expectedGeneration = replicaSetGeneration previous)
      (differs : ∀ set, previous = some set → set.members ≠ sortedMembers args.members)
      (allowed : ∀ set, previous = some set →
        records.changeRefusal args.topicUuid args.rangeUuid (sortedMembers args.members) set = none) :
      Accepted args records (.Ack (replicaSetGeneration previous + 1))
        ((records.put (.Range args.topicUuid args.rangeUuid) (.Range range.unleased)).put
          (.RangeReplicaSet args.topicUuid args.rangeUuid) (.RangeReplicaSet
            { generation := replicaSetGeneration previous + 1, members := sortedMembers args.members,
              recordedAtEpoch := range.fencingEpoch }))

theorem setRangeReplicaSet_spec (args) : (setRangeReplicaSet args).Meets args.Accepted records := by
  refine Txn.need_keeps fun range found => Txn.rejectIf_keeps fun proper => ?_
  rw [not_or, List.isEmpty_iff, not_not] at proper
  refine Txn.wp_read_bind (Txn.rejectSome_keeps fun registered => Txn.wp_read_bind ?_)
  rw [Option.map_eq_none_iff, List.find?_eq_none] at registered
  refine Txn.rejectIf_keeps fun current => ?_
  split
  · next same =>
    obtain ⟨set, recorded, unchanged⟩ := Option.map_eq_some_iff.mp same
    rw [recorded]
    exact .same recorded unchanged
  · next differs =>
    refine Txn.wp_read_bind (Txn.rejectSome_keeps fun allowed => ?_)
    refine .change found proper.1 proper.2 (fun node member => ?_) rfl (not_not.mp current) ?_ ?_
    · simpa using registered node member
    · intro set recorded unchanged
      exact differs (by rw [recorded, ← unchanged]; rfl)
    · intro set recorded
      simpa only [recorded, Option.bind_some] using allowed

end VtopEngine.Meta
