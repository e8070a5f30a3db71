import VtopEngine.Meta.Fencing

/-! # The term of a lease

Short of a command that reassigns the range, only an election a lease does not
withstand ends it, and a renewal only moves its deadline on
(`RangeRecord.Move.lease_continues`).  `lease_term` is what that comes to over a run.
-/

namespace VtopEngine.Meta

open Lib MetaStateMachine

def Records.lease? (records : Records) (topic range : Uuid) : Option LeaseRecord :=
  (records.range? topic range).bind (·.lease)

/-- The command is an election for the range, by this candidate at this time. -/
def MetadataCommand.Elects (topic range candidate : Uuid) (nowMs : Int64) : MetadataCommand → Prop
  | .AcquireRangeLease args =>
    args.topicUuid = topic ∧ args.rangeUuid = range ∧ args.holderNodeUuid = candidate ∧ args.env.issuedAtMs = nowMs
  | _ => False

/-- The lease `later` is `lease`, its deadline kept or moved on. -/
def LeaseRecord.Continues (lease later : LeaseRecord) : Prop :=
  later = lease ∨ ∃ deadline, lease.Renews deadline ∧ later = { lease with expiresAtMs := deadline }

namespace LeaseRecord.Continues

variable {lease later : LeaseRecord}

theorem trans (first : lease.Continues later) (second : later.Continues last) : lease.Continues last := by
  obtain rfl | ⟨_, ⟨current, extended, expires, longer, rfl⟩, rfl⟩ := first
  · exact second
  obtain rfl | ⟨_, ⟨middle, further, expires', longer', rfl⟩, rfl⟩ := second
  · exact .inr ⟨_, ⟨current, extended, expires, longer, rfl⟩, rfl⟩
  · obtain rfl : extended = middle := Option.some.inj expires'
    exact .inr ⟨_, ⟨current, further, expires, Int64.le_trans longer longer', rfl⟩, rfl⟩

section

variable (continues : lease.Continues later)

include continues

theorem deadline {deadline} (expires : lease.expiresAtMs = some deadline) :
    later.holderNodeUuid = lease.holderNodeUuid ∧ later.fencingEpoch = lease.fencingEpoch
      ∧ ∃ extended, later.expiresAtMs = some extended ∧ deadline ≤ extended := by
  obtain rfl | ⟨_, ⟨current, extended, expires', longer, rfl⟩, rfl⟩ := continues
  · exact ⟨rfl, rfl, deadline, expires, Int64.le_refl deadline⟩
  · obtain rfl : deadline = current := Option.some.inj (expires.symm.trans expires')
    exact ⟨rfl, rfl, extended, rfl, longer⟩

/-- There is nothing to renew about a lease with no deadline. -/
theorem administrative (lasting : lease.expiresAtMs = none) : later = lease := by
  obtain same | ⟨_, ⟨_, _, expires, _⟩, _⟩ := continues
  · exact same
  · simp [lasting] at expires

/-- A candidate other than the holder has to wait for the deadline. -/
theorem refuses_early {deadline}
    (expires : lease.expiresAtMs = some deadline) (other : candidate ≠ lease.holderNodeUuid) (early : nowMs < deadline) :
    electionRefusal (some later) candidate nowMs ≠ none := by
  obtain ⟨holder, -, extended, expires', longer⟩ := continues.deadline expires
  have live : nowMs < extended := Int64.lt_of_lt_of_le early longer
  simp [electionRefusal, expires', holder, Ne.symm other, LeaseRecord.isLiveAt, live]

theorem refuses_election (lasting : lease.expiresAtMs = none) (candidate nowMs) :
    electionRefusal (some later) candidate nowMs ≠ none := by
  simp [electionRefusal, continues.administrative lasting, lasting]

end

end LeaseRecord.Continues

/-- One command continues a lease it does not reassign and that withstands it. -/
theorem RangeRecord.Move.lease_continues {records} {lease} (move : RangeRecord.Move command records topic range next)
    (held : records.lease? topic range = some lease) (seated : ¬ command.Reassigns topic range)
    (withstands : ∀ candidate nowMs, command.Elects topic range candidate nowMs →
      electionRefusal (some lease) candidate nowMs ≠ none) :
    ∃ later, next.bind (·.lease) = some later ∧ lease.Continues later := by
  unfold Records.lease? at held
  cases move with
  | stay => exact ⟨lease, held, .inl rfl⟩
  | create _ absent => simp [absent] at held
  | lease found leases electable =>
    simp only [found, Option.bind_some] at held
    cases command with
    | GrantRangeLease args => exact absurd leases seated
    | AcquireRangeLease args =>
      -- the handler let the election through, which the lease withstands
      exact absurd (held ▸ electable args rfl) (withstands _ _ ⟨leases.1, leases.2, rfl, rfl⟩)
    | _ => exact leases.elim
  | renew found leased renews =>
    simp only [found, Option.bind_some, leased, Option.some.injEq] at held
    subst held
    exact ⟨_, rfl, .inr ⟨_, renews, rfl⟩⟩
  | release _ releases => exact absurd releases seated
  | register found | split found =>
    rw [found] at held
    exact ⟨lease, held, .inl rfl⟩

section Runs

variable [External] {machine later : MetaStateMachine} {events : List Event} {topic range : Uuid} {lease : LeaseRecord}

/-- A lease no election of the run is a match for lasts through the run. -/
theorem Run.lease_continues (run : Run Step machine events later) (held : machine.records.lease? topic range = some lease)
    (seated : ∀ event ∈ events, ¬ event.command.Reassigns topic range)
    (withstands : ∀ event ∈ events, ∀ candidate nowMs, event.command.Elects topic range candidate nowMs →
      ∀ later, lease.Continues later → electionRefusal (some later) candidate nowMs ≠ none) :
    ∃ last, later.records.lease? topic range = some last ∧ lease.Continues last := by
  induction run with
  | nil => exact ⟨lease, held, .inl rfl⟩
  | @snoc events middle event last _ step ih =>
    simp only [List.mem_append, List.mem_singleton] at seated withstands
    obtain ⟨current, holds, continues⟩ := ih (fun event member => seated event (.inl member))
      fun event member => withstands event (.inl member)
    cases apply_cases step with
    | replayed => exact ⟨current, holds, continues⟩
    | executed _ effect =>
      rw [records_remember]
      obtain ⟨next, held', continues'⟩ := (effect.rangeMove topic range).lease_continues holds (seated event (.inr rfl))
        fun candidate nowMs elects => withstands event (.inr rfl) candidate nowMs elects current continues
      exact ⟨next, held', continues.trans continues'⟩

/-- An elected lease outlives every run in which nobody reassigns the range, its
    holder does not stand for election and every other candidate comes before
    its deadline; a lease without a deadline outlives every election. -/
theorem lease_term (held : machine.records.lease? topic range = some lease) (run : Run Step machine events later)
    (seated : ∀ event ∈ events, ¬ event.command.Reassigns topic range) :
    (∀ deadline, lease.expiresAtMs = some deadline →
      (∀ event ∈ events, ∀ candidate nowMs, event.command.Elects topic range candidate nowMs →
        candidate ≠ lease.holderNodeUuid ∧ nowMs < deadline) →
      ∃ last, later.records.lease? topic range = some last ∧ last.holderNodeUuid = lease.holderNodeUuid
        ∧ last.fencingEpoch = lease.fencingEpoch ∧ ∃ extended, last.expiresAtMs = some extended ∧ deadline ≤ extended)
    ∧ (lease.expiresAtMs = none → later.records.lease? topic range = some lease) := by
  refine ⟨fun deadline expires early => ?_, fun lasting => ?_⟩
  · obtain ⟨last, holds, continues⟩ := Run.lease_continues run held seated
      fun event member candidate nowMs elects current continues =>
        let ⟨other, earlier⟩ := early event member candidate nowMs elects
        continues.refuses_early expires other earlier
    exact ⟨last, holds, continues.deadline expires⟩
  · obtain ⟨last, holds, continues⟩ := Run.lease_continues run held seated
      fun _ _ candidate nowMs _ _ continues => continues.refuses_election lasting candidate nowMs
    rwa [continues.administrative lasting] at holds

end Runs

section ElectionLog

attribute [local instance] External.plain

def electedMachine : MetaStateMachine :=
  new.afterLog (leaseLog ++ [(3, .AcquireRangeLease
    { env := ⟨3, 100⟩, topicUuid := 10, rangeUuid := 11, holderNodeUuid := 7, leaseDurationMs := 50,
      expectedRangeGeneration := 0 })])

/-- A renewal that asks for less than the holder already has. -/
def shortRenewal : MetadataCommand :=
  .RenewRangeLease
    { env := ⟨4, 120⟩, topicUuid := 10, rangeUuid := 11, holderNodeUuid := 7, leaseDurationMs := 10,
      expectedFencingEpoch := 1 }

theorem shortRenewal_keeps_term :
    ∃ lease last, electedMachine.records.lease? 10 11 = some lease ∧ lease.expiresAtMs = some 150
      ∧ (electedMachine.afterLog [(4, shortRenewal)]).records.lease? 10 11 = some last
      ∧ last.holderNodeUuid = lease.holderNodeUuid
      ∧ ∃ extended, last.expiresAtMs = some extended ∧ 150 ≤ extended := by
  have deadline : (electedMachine.records.lease? 10 11).map (·.expiresAtMs) = some (some 150) := by decide +kernel
  obtain ⟨lease, held, expires⟩ := Option.map_eq_some_iff.mp deadline
  have step : electedMachine.Step ⟨4, shortRenewal, .LeaseGranted 1⟩ (electedMachine.afterLog [(4, shortRenewal)]) := rfl
  obtain ⟨term, -⟩ := lease_term held (Run.single step) (by simp [shortRenewal, MetadataCommand.Reassigns])
  obtain ⟨last, holds, holder, -, longer⟩ := term 150 expires (by simp [shortRenewal, MetadataCommand.Elects])
  exact ⟨lease, last, held, expires, holds, holder, longer⟩

end ElectionLog

end VtopEngine.Meta
