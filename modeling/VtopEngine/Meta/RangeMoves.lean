import VtopEngine.Meta.Effects

/-! # What can happen to one range

Everything one command can do to the record of one range (`RangeRecord.Move`), with
the checks the handler made.  Its lineage, its fencing epoch, its seal and its
lease are followed over moves.
-/

namespace VtopEngine.Meta

open Lib RangeRecord Records

/-- The command asks for a lease on this range. -/
def MetadataCommand.Leases (command : MetadataCommand) (topic range : Uuid) : Prop :=
  match command with
  | .GrantRangeLease args | .AcquireRangeLease args => args.topicUuid = topic ∧ args.rangeUuid = range
  | _ => False

/-- A grant, a release or a new replica set, which may end any lease of the range. -/
def MetadataCommand.Reassigns (topic range : Uuid) : MetadataCommand → Prop
  | .GrantRangeLease args | .ReleaseRangeLease args | .SetRangeReplicaSet args =>
    args.topicUuid = topic ∧ args.rangeUuid = range
  | _ => False

def MetadataCommand.CreatesRange : MetadataCommand → Prop
  | .CreateTopic _ | .SplitRange _ => True
  | _ => False

/-- One command, seen from the range it may be about. -/
inductive RangeRecord.Move (command : MetadataCommand) (records : Records) (topic range : Uuid) :
    Option RangeRecord → Prop
  | stay : Move command records topic range (records.range? topic range)
  | create {record : RangeRecord} (creates : command.CreatesRange) (absent : records.range? topic range = none)
      (epoch : record.fencingEpoch = 0) (lease : record.lease = none) (unsealed : record.sealedAt = none) :
      Move command records topic range (some record)
  | lease {record : RangeRecord}
      (found : records.range? topic range = some record) (leases : command.Leases topic range)
      (electable : ∀ args, command = .AcquireRangeLease args →
        electionRefusal record.lease args.holderNodeUuid args.env.issuedAtMs = none) :
      Move command records topic range (some (record.leased holder next applyIndex deadline))
  | renew {record : RangeRecord} {lease : LeaseRecord}
      (found : records.range? topic range = some record) (leased : record.lease = some lease)
      (renews : lease.Renews deadline) :
      Move command records topic range (some { record with lease := some { lease with expiresAtMs := deadline } })
  | release {record : RangeRecord} (found : records.range? topic range = some record)
      (releases : command.Reassigns topic range) :
      Move command records topic range (some { record with lease := none, generation := record.generation + 1 })
  | register {record : RangeRecord} (found : records.range? topic range = some record) :
      Move command records topic range (some { record with generation := record.generation + 1 })
  | split {record : RangeRecord} {args : Command.SplitRange} (found : records.range? topic range = some record)
      (splits : command = .SplitRange args) (unsealed : record.sealedAt = none)
      (coverage : records.registeredEnd topic range ≤ args.barrierOffset)
      (cursors : records.cursorEnd topic range ≤ args.barrierOffset) :
      Move command records topic range (some { record with
        generation := record.generation + 1
        sealedAt := some { barrierOffset := args.barrierOffset, transitionId := args.transitionId } })

/-- A range that is there stays, with its lineage generation and, once it is sealed, its seal. -/
theorem RangeRecord.Move.keeps {record} (move : Move command records topic range next)
    (found : records.range? topic range = some record) :
    ∃ later, next = some later ∧ later.lineageGeneration = record.lineageGeneration
      ∧ ∀ sealing, record.sealedAt = some sealing → later.sealedAt = some sealing := by
  cases move with
  | stay => exact ⟨record, found, rfl, fun _ => id⟩
  | create _ absent => cases absent.symm.trans found
  | lease found' | renew found' | release found' | register found' =>
    cases found'.symm.trans found
    exact ⟨_, rfl, rfl, fun _ => id⟩
  | split found' _ unsealed =>
    cases found'.symm.trans found
    exact ⟨_, rfl, rfl, fun _ sealed => nomatch unsealed.symm.trans sealed⟩

section Refinement

/-- A write to one range, seen from another or from the same. -/
theorem RangeRecord.Move.ite (moves : topic' = topic ∧ range' = range → Move command before topic range written) :
    Move command before topic range (if topic' = topic ∧ range' = range then written else before.range? topic range) := by
  split
  · next here => exact moves here
  · exact .stay

theorem MetadataCommand.Accepted.rangeMove [External] (accepts : command.Accepted applyIndex before response after)
    (topic range) : Move command before topic range (after.range? topic range) := by
  cases command with
  | CreateTopic args =>
    obtain ⟨_, _, _, absent⟩ := accepts
    simp
    apply Move.ite
    rintro ⟨rfl, rfl⟩
    exact .create trivial (lookup_of_absent absent) rfl rfl rfl
  | GrantRangeLease args =>
    obtain ⟨_, _, found⟩ := accepts
    simp [Records.leased]
    apply RangeRecord.Move.ite
    rintro ⟨rfl, rfl⟩
    exact .lease found ⟨rfl, rfl⟩ fun _ same => by cases same
  | AcquireRangeLease args =>
    obtain ⟨_, _, _, _, found, _, electable⟩ := accepts
    simp [Records.leased]
    apply RangeRecord.Move.ite
    rintro ⟨rfl, rfl⟩
    refine .lease found ⟨rfl, rfl⟩ fun _ same => ?_
    cases same
    exact electable
  | RenewRangeLease args =>
    obtain ⟨_, found, leased, _, _, renews⟩ := accepts
    simp
    apply Move.ite
    rintro ⟨rfl, rfl⟩
    exact .renew found leased renews
  | ReleaseRangeLease args =>
    obtain ⟨found⟩ := accepts
    simp
    apply Move.ite
    rintro ⟨rfl, rfl⟩
    exact .release found ⟨rfl, rfl⟩
  | RegisterSealedSegment args =>
    obtain ⟨_, found⟩ := accepts
    simp
    apply Move.ite
    rintro ⟨rfl, rfl⟩
    exact .register found
  | SetRangeReplicaSet args =>
    cases accepts with
    | same => exact .stay
    | change found =>
      simp
      apply Move.ite
      rintro ⟨rfl, rfl⟩
      -- a new set drops the lease, if there is one
      unfold unleased
      split
      · exact .release found ⟨rfl, rfl⟩
      · exact found ▸ .stay
  | SplitRange args =>
    cases accepts with
    | replay => exact .stay
    | split _ _ _ found unsealed _ _ coverage cursors _ leftAbsent rightAbsent =>
      -- the two children are new ranges, the parent is sealed
      rw [range?_split]
      split
      · next here =>
        obtain ⟨rfl, rfl⟩ := here
        exact .create trivial (lookup_of_absent rightAbsent) rfl rfl rfl
      split
      · next here =>
        obtain ⟨rfl, rfl⟩ := here
        exact .create trivial (lookup_of_absent leftAbsent) rfl rfl rfl
      apply Move.ite
      rintro ⟨rfl, rfl⟩
      exact .split found rfl unsealed coverage cursors
  | _ =>
    have same : after.range? topic range = before.range? topic range :=
      (MetadataCommand.Effect.accepted accepts).lookup_eq rfl
    exact same ▸ .stay

theorem MetadataCommand.Effect.rangeMove [External] (effect : command.Effect applyIndex before response after)
    (topic range) : Move command before topic range (after.range? topic range) := by
  cases effect with
  | accepted accepts => exact accepts.rangeMove topic range
  | refused => exact .stay
  | spilled spills =>
    have same : after.range? topic range = before.range? topic range := spills.lookup_eq rfl
    exact same ▸ .stay

end Refinement

end VtopEngine.Meta
