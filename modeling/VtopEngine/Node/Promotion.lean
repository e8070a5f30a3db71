import VtopEngine.Lib.Majority
import VtopEngine.Lib.Ranks
import VtopEngine.Meta.Wire

/-! # Verified promotion

What a new range leader establishes from the replicas it probed (`promotion.rs`):
the boundary a majority can prove, never below the published floor, held by the
candidate itself, and only if a majority of the probed replicas is at or below it.

* `promotion_arithmetic` — an established boundary is safe against everything the
  silent replicas might hold, and the most complete replica can always be
  established unless it is below the floor.
-/

namespace VtopEngine.Node

open Lib List Prod
open Meta (Uuid)

/-- What one replica reported, or that it did not answer. -/
structure ReplicaProbe where
  nodeId : Uuid
  localCommittedOffset : Option Nat
  deriving DecidableEq, Repr

/-- The answers by node, in the order of the node ids. -/
abbrev Answers := List (Uuid × Nat)

inductive Promotion
  | Established (committedOffset : Nat) (answered : Answers)
  | QuorumUnavailable (answered required : Nat)
  | LeaderBehind (committedOffset : Nat) (leaderCommittedOffset : Option Nat)
  | CandidateBehindVoters (candidateOffset votes required : Nat) (mostComplete : Uuid × Nat)
  | BelowPublished (committedOffset publishedFloor : Nat) (mostComplete : Uuid × Nat)
  deriving DecidableEq, Repr

/-- Majority of a replica set, the leader included. -/
def majority (replicaCount : Nat) : Nat := replicaCount / 2 + 1

namespace Answers

/-- A later answer of the same node replaces the earlier one. -/
def insert (node : Uuid) (offset : Nat) : Answers → Answers
  | [] => [(node, offset)]
  | (other, held) :: rest =>
    if node < other then (node, offset) :: (other, held) :: rest
    else if node = other then (node, offset) :: rest
    else (other, held) :: insert node offset rest

def get (answers : Answers) (node : Uuid) : Option Nat := (answers.find? fun answer => answer.1 = node).map snd

def record (answers : Answers) (probe : ReplicaProbe) : Answers :=
  match probe.localCommittedOffset with
  | some offset => answers.insert probe.nodeId offset
  | none => answers

def of (probes : List ReplicaProbe) : Answers := probes.foldl record []

/-- The replica with the largest offset, the last of them in node order. -/
def mostComplete (answers : Answers) (leaderId : Uuid) : Uuid × Nat := (lastMaximum snd answers).getD (leaderId, 0)

def votes (answers : Answers) (candidateOffset : Nat) : Nat := answers.countP fun answer => answer.2 ≤ candidateOffset

end Answers

/-- The boundary to publish: a proven one below the published floor is raised to the floor for a candidate
that holds the floor, and refused for any other. -/
def raiseToFloor (answers : Answers) (leaderId : Uuid) (publishedFloor : Option Nat) (committedOffset : Nat) :
    Except Promotion Nat :=
  match publishedFloor with
  | none => .ok committedOffset
  | some floor =>
    if committedOffset < floor then
      if (answers.get leaderId).any fun held => floor ≤ held then .ok floor
      else .error (.BelowPublished committedOffset floor (answers.mostComplete leaderId))
    else .ok committedOffset

/-- The gates on the candidate itself: it holds the boundary, and a majority is at or below it. -/
def admitBoundary (answers : Answers) (required : Nat) (leaderId : Uuid) (committedOffset : Nat) : Promotion :=
  match answers.get leaderId with
  | none => .LeaderBehind committedOffset none
  | some candidateOffset =>
    if candidateOffset < committedOffset then .LeaderBehind committedOffset (some candidateOffset)
    else if answers.votes candidateOffset < required then
      .CandidateBehindVoters candidateOffset (answers.votes candidateOffset) required (answers.mostComplete leaderId)
    else .Established committedOffset answers

def establish (probes : List ReplicaProbe) (replicationFactor : Nat) (leaderId : Uuid)
    (publishedFloor : Option Nat) : Promotion :=
  let required := majority replicationFactor
  let answers := Answers.of probes
  if answers.length < required then .QuorumUnavailable answers.length required
  else
    match raiseToFloor answers leaderId publishedFloor (kthLargest (answers.map snd) required) with
    | .error refusal => refusal
    | .ok committedOffset => admitBoundary answers required leaderId committedOffset

/-! ## The answers -/

variable {answers : Answers} {probes : List ReplicaProbe}

namespace Answers

def Distinct (answers : Answers) : Prop := (answers.map fst).Nodup

theorem insert_perm (fresh : node ∉ answers.map fst) : (answers.insert node offset).Perm ((node, offset) :: answers) := by
  induction answers with
  | nil => rfl
  | cons answer rest ih =>
    obtain ⟨other, held⟩ := answer
    obtain ⟨differs, freshRest⟩ := not_or.mp (mem_cons.not.mp fresh)
    rw [insert, if_neg (show node ≠ other from differs)]
    split
    · rfl
    · exact ((ih freshRest).cons _).trans (Perm.swap ..)

theorem get_eq_some (distinct : answers.Distinct) : answers.get node = some offset ↔ (node, offset) ∈ answers := by
  unfold get
  constructor
  · intro found
    obtain ⟨answer, first, rfl⟩ := Option.map_eq_some_iff.mp found
    have isNode : answer.1 = node := by simpa using find?_some first
    exact isNode ▸ mem_of_find?_eq_some first
  · intro member
    induction answers with
    | nil => cases member
    | cons answer rest ih =>
      obtain ⟨notRest, distinctRest⟩ := nodup_cons.mp distinct
      rw [find?_cons]
      rcases mem_cons.mp member with rfl | inRest
      · simp
      · have differs : answer.1 ≠ node := fun same => notRest (same ▸ mem_map_of_mem inRest)
        simp only [differs, decide_false]
        exact ih distinctRest inRest

section

variable (distinct : (probes.map ReplicaProbe.nodeId).Nodup)

include distinct

theorem foldl_record_perm (fresh : ∀ probe ∈ probes, probe.nodeId ∉ answers.map fst) : (probes.foldl record answers).Perm
      (probes.filterMap (fun probe => probe.localCommittedOffset.map (probe.nodeId, ·)) ++ answers) := by
  induction probes generalizing answers with
  | nil => rfl
  | cons probe rest ih =>
    obtain ⟨notRest, distinctRest⟩ := nodup_cons.mp distinct
    have freshRest := (forall_mem_cons.mp fresh).2
    rw [foldl_cons, filterMap_cons]
    cases answer : probe.localCommittedOffset with
    | none => simpa [record, answer] using ih distinctRest freshRest
    | some offset =>
      have inserted : (answers.insert probe.nodeId offset).Perm ((probe.nodeId, offset) :: answers) :=
        insert_perm (fresh probe mem_cons_self)
      have stillFresh : ∀ next ∈ rest, next.nodeId ∉ (answers.insert probe.nodeId offset).map fst := by
        intro next inRest
        rw [(inserted.map fst).mem_iff, map_cons, mem_cons, not_or]
        exact ⟨fun same => notRest (mem_map.mpr ⟨next, inRest, same⟩), freshRest next inRest⟩
      simp only [record, answer, Option.map_some]
      refine (ih distinctRest stillFresh).trans ?_
      exact (inserted.append_left _).trans perm_middle

theorem of_perm : (of probes).Perm (probes.filterMap fun probe => probe.localCommittedOffset.map (probe.nodeId, ·)) := by
  simpa [of] using foldl_record_perm distinct (fun _ _ member => nomatch member : ∀ probe ∈ probes,
    probe.nodeId ∉ ([] : Answers).map fst)

theorem mem_of : (node, offset) ∈ of probes ↔ ⟨node, some offset⟩ ∈ probes := by
  rw [(of_perm distinct).mem_iff, mem_filterMap]
  constructor
  · rintro ⟨⟨_, answer⟩, member, same⟩
    obtain ⟨_, rfl, ⟨⟩⟩ := Option.map_eq_some_iff.mp same
    exact member
  · intro member
    exact ⟨_, member, rfl⟩

theorem of_distinct : (of probes).Distinct := by
  have answering : Sublist ((probes.filterMap fun probe => probe.localCommittedOffset.map (probe.nodeId, ·)).map fst)
      (probes.map ReplicaProbe.nodeId) := by
    clear distinct
    induction probes with
    | nil => exact Sublist.slnil
    | cons probe rest ih =>
      cases answer : probe.localCommittedOffset with
      | none => simpa [answer] using ih.cons probe.nodeId
      | some offset => simpa [answer] using ih
  exact ((of_perm distinct).map fst).nodup_iff.mpr (answering.nodup distinct)

/-- Answers are counted as the probes that gave them. -/
theorem countP_of (reaches) : (of probes).countP (fun answer => reaches answer.2)
      = probes.countP fun probe => probe.localCommittedOffset.any reaches := by
  rw [(of_perm distinct).countP_eq, countP_filterMap]
  congr 1
  funext probe
  cases probe.localCommittedOffset <;> simp

end

theorem mostComplete_spec (nonempty : answers ≠ []) (leaderId) :
    answers.mostComplete leaderId ∈ answers ∧ ∀ answer ∈ answers, answer.2 ≤ (answers.mostComplete leaderId).2 := by
  unfold mostComplete
  cases found : lastMaximum snd answers with
  | none => exact absurd (lastMaximum_eq_none.mp found) nonempty
  | some best => exact lastMaximum_spec found

end Answers

/-! ## What an established boundary says -/

variable {publishedFloor : Option Nat}

section Established

theorem admitBoundary_eq_established
    (established : admitBoundary answers required leaderId committedOffset = .Established result recorded) :
    result = committedOffset ∧ recorded = answers ∧ ∃ held, answers.get leaderId = some held ∧ committedOffset ≤ held
      ∧ required ≤ answers.votes held := by
  unfold admitBoundary at established
  split at established
  · cases established
  · next held answered =>
    split at established
    · cases established
    · next holds =>
      split at established
      · cases established
      · next enough =>
        cases established
        exact ⟨rfl, rfl, held, answered, not_lt.mp holds, not_lt.mp enough⟩

theorem raiseToFloor_eq_ok (raised : raiseToFloor answers leaderId publishedFloor committedOffset = .ok result) :
    committedOffset ≤ result ∧ (∀ floor, publishedFloor = some floor → floor ≤ result)
      ∧ (result = committedOffset ∨ publishedFloor = some result) := by
  unfold raiseToFloor at raised
  split at raised
  · cases raised
    exact ⟨le_refl _, (fun _ impossible => nomatch impossible), .inl rfl⟩
  · next floor =>
    split at raised
    · next below =>
      split at raised
      · cases raised
        refine ⟨le_of_lt below, ?_, .inr rfl⟩
        rintro _ ⟨⟩
        exact le_refl _
      · cases raised
    · next reaches =>
      cases raised
      refine ⟨le_refl _, ?_, .inl rfl⟩
      rintro _ ⟨⟩
      exact not_lt.mp reaches

theorem raiseToFloor_refuses (other : ∀ committed floor best, refusal ≠ .BelowPublished committed floor best) :
    raiseToFloor answers leaderId publishedFloor committedOffset ≠ .error refusal := by
  unfold raiseToFloor
  split
  · nofun
  · split
    · split
      · nofun
      · rintro ⟨⟩
        exact other _ _ _ rfl
    · nofun

/-- The boundary of a candidate that holds everything any answer holds stands or falls with the floor. -/
theorem raiseToFloor_of_largest (answered : answers.get leaderId = some held) (largest : committedOffset ≤ held) :
    (∃ result, raiseToFloor answers leaderId publishedFloor committedOffset = .ok result ∧ result ≤ held)
      ↔ ∀ floor, publishedFloor = some floor → floor ≤ held := by
  unfold raiseToFloor
  cases publishedFloor with
  | none => simp [largest]
  | some floor =>
    by_cases below : committedOffset < floor
    · by_cases holds : floor ≤ held
      · simp [below, answered, holds]
      · simp [below, answered, holds]
    · simp [below, largest, le_trans (not_lt.mp below) largest]

theorem admitBoundary_of_largest (answered : answers.get leaderId = some held) (holds : committedOffset ≤ held)
    (largest : ∀ answer ∈ answers, answer.2 ≤ held) (enough : required ≤ answers.length) :
    admitBoundary answers required leaderId committedOffset = .Established committedOffset answers := by
  have everyone : answers.votes held = answers.length :=
    countP_eq_length.mpr fun answer member => decide_eq_true (largest answer member)
  simp [admitBoundary, answered, not_lt.mpr holds, everyone, not_lt.mpr enough]

end Established

/-- The replica set a promotion speaks for: `replicationFactor` nodes with the offsets they really hold, the
probed ones among them, each answer being what its node holds. -/
structure ReplicaOffsets (probes : List ReplicaProbe) (replicationFactor : Nat) (members : Finset Uuid)
    (offset : Uuid → Nat) : Prop where
  size : members.card = replicationFactor
  probed : ∀ probe ∈ probes, probe.nodeId ∈ members
  truthful : ∀ probe ∈ probes, ∀ answer, probe.localCommittedOffset = some answer → answer = offset probe.nodeId

open Answers

section Safety

theorem majority_iff {set part : Finset Uuid} (within : part ⊆ set) : Majority set part ↔ majority set.card ≤ part.card := by
  constructor
  · intro most
    have := most.most
    unfold majority
    omega
  · intro enough
    refine ⟨within, ?_⟩
    unfold majority at enough
    omega

/-- Whatever the silent replicas hold, the candidate reaches every offset that a majority of all replicas holds. -/
theorem candidate_reaches (distinct : (probes.map ReplicaProbe.nodeId).Nodup)
    (votes : majority replicationFactor ≤ (of probes).votes held)
    (replicas : ReplicaOffsets probes replicationFactor members offset)
    (holders : majority replicationFactor ≤ (members.filter fun node => reached ≤ offset node).card) :
    reached ≤ held := by
  have truthful {node : Uuid} {answer : Nat} (member : (node, answer) ∈ of probes) :
      node ∈ members ∧ answer = offset node := by
    have probed := (mem_of distinct).mp member
    exact ⟨replicas.probed _ probed, replicas.truthful _ probed _ rfl⟩
  let voters := ((of probes).filter fun answer => answer.2 ≤ held).map fst
  have counted : voters.toFinset.card = (of probes).votes held := by
    have distinctVoters : voters.Nodup := ((filter_sublist (l := of probes)).map fst).nodup (of_distinct distinct)
    rw [toFinset_card_of_nodup distinctVoters, length_map, Answers.votes, countP_eq_length_filter]
  have within : voters.toFinset ⊆ members := by
    intro node member
    obtain ⟨answer, voted, rfl⟩ := mem_map.mp (mem_toFinset.mp member)
    exact (truthful (mem_of_mem_filter voted)).1
  -- A voter is also a holder: it sits between what the majority holds and what the candidate answered.
  rw [← replicas.size] at votes holders
  have most := (majority_iff within).mpr (counted ▸ votes)
  have mostHold := (majority_iff (Finset.filter_subset ..)).mpr holders
  obtain ⟨node, voter, holder⟩ := most.meets mostHold
  obtain ⟨answer, voted, rfl⟩ := mem_map.mp (mem_toFinset.mp voter)
  obtain ⟨member, below⟩ := mem_filter.mp voted
  rw [decide_eq_true_eq, (truthful member).2] at below
  exact le_trans (Finset.mem_filter.mp holder).2 below

theorem establish_of_quorum (enough : majority replicationFactor ≤ (of probes).length) :
    establish probes replicationFactor leaderId publishedFloor = match raiseToFloor (of probes) leaderId publishedFloor
            (kthLargest ((of probes).map snd) (majority replicationFactor)) with
        | .error refusal => refusal
        | .ok committedOffset => admitBoundary (of probes) (majority replicationFactor) leaderId committedOffset :=
  if_neg (not_lt.mpr enough)

section

variable (distinct : (probes.map ReplicaProbe.nodeId).Nodup)

include distinct

/-- The replica that holds the most is established unless it is below the floor. -/
theorem establish_largest (enough : majority replicationFactor ≤ (of probes).length)
    (answered : (largest, held) ∈ of probes) (most : ∀ answer ∈ of probes, answer.2 ≤ held) :
    (∃ committedOffset answers, establish probes replicationFactor largest publishedFloor
        = .Established committedOffset answers) ↔ ∀ floor, publishedFloor = some floor → floor ≤ held := by
  have got := (get_eq_some (of_distinct distinct)).mpr answered
  have positive : 0 < majority replicationFactor := Nat.succ_pos _
  have proven : kthLargest ((of probes).map snd) (majority replicationFactor) ≤ held := by
    obtain ⟨answer, member, same⟩ := mem_map.mp
      (kthLargest_mem positive (show _ ≤ ((of probes).map snd).length by rwa [length_map]))
    exact same ▸ most answer member
  rw [← raiseToFloor_of_largest got proven, establish_of_quorum enough]
  constructor
  · rintro ⟨committedOffset, answers, established⟩
    split at established
    · next refusal refused =>
      subst established
      exact absurd refused (raiseToFloor_refuses nofun)
    · next raised ok =>
      obtain ⟨_, _, held', got', holds, _⟩ := admitBoundary_eq_established established
      rw [got] at got'
      cases got'
      exact ⟨raised, ok, holds⟩
  · rintro ⟨raised, ok, holds⟩
    exact ⟨raised, _, by rw [ok]; exact admitBoundary_of_largest got holds most enough⟩

/-- The boundary is held by the candidate and by a majority, or it is the floor. -/
theorem established_boundary
    (established : establish probes replicationFactor candidate publishedFloor = .Established committedOffset answered) :
    ∃ held, (candidate, held) ∈ of probes ∧ committedOffset ≤ held ∧ majority replicationFactor ≤ (of probes).votes held
      ∧ (∀ floor, publishedFloor = some floor → floor ≤ committedOffset)
      ∧ (majority replicationFactor ≤ (of probes).countP (fun answer => committedOffset ≤ answer.2)
          ∨ publishedFloor = some committedOffset) := by
  by_cases enough : majority replicationFactor ≤ (of probes).length
  · rw [establish_of_quorum enough] at established
    split at established
    · next refusal refused =>
      subst established
      exact absurd refused (raiseToFloor_refuses nofun)
    · next raised ok =>
      obtain ⟨rfl, _, held, got, holds, votes⟩ := admitBoundary_eq_established established
      obtain ⟨_, reachesFloor, same⟩ := raiseToFloor_eq_ok ok
      refine ⟨held, (get_eq_some (of_distinct distinct)).mp got, holds, votes, reachesFloor, ?_⟩
      refine same.imp (fun proven => ?_) id
      have reached := le_countP_kthLargest (Nat.succ_pos (replicationFactor / 2))
        (show _ ≤ ((of probes).map snd).length by rwa [length_map])
      rw [countP_map] at reached
      rw [proven]
      exact reached
  · rw [establish, if_pos (Nat.not_le.mp enough)] at established
    cases established

/-- A refusal for want of votes names a replica that holds the most, and the floor with it. -/
theorem behindVoters_names {votes} (refused : establish probes replicationFactor candidate publishedFloor
      = .CandidateBehindVoters candidateOffset votes required best) :
    majority replicationFactor ≤ (of probes).length ∧ best ∈ of probes
      ∧ (∀ answer ∈ of probes, answer.2 ≤ best.2) ∧ ∀ floor, publishedFloor = some floor → floor ≤ best.2 := by
  by_cases enough : majority replicationFactor ≤ (of probes).length
  · rw [establish_of_quorum enough] at refused
    split at refused
    · next refusal below =>
      subst refused
      exact absurd below (raiseToFloor_refuses nofun)
    · next raised ok =>
      unfold admitBoundary at refused
      split at refused
      · cases refused
      · next held got =>
        split at refused
        · cases refused
        · next holds =>
          split at refused
          · cases refused
            have nonempty : of probes ≠ [] := fun empty => by
              rw [empty] at enough
              exact absurd enough (by simp [majority])
            obtain ⟨member, largest⟩ := mostComplete_spec nonempty candidate
            have answer := (get_eq_some (of_distinct distinct)).mp got
            refine ⟨enough, member, largest, fun floor isFloor => ?_⟩
            have raisedReaches := (raiseToFloor_eq_ok ok).2.1 floor isFloor
            exact (raisedReaches.trans (not_lt.mp holds)).trans (largest _ answer)
          · cases refused
  · rw [establish, if_pos (not_le.mp enough)] at refused
    cases refused

end

end Safety

/-- An established boundary is one its candidate and a majority hold, or the floor, and no offset a majority of
all replicas holds is above the candidate; and the most complete replica is established unless the floor is above
it, so a refusal for want of votes names a replica that would be established. -/
theorem promotion_arithmetic (probes : List ReplicaProbe) (replicationFactor : Nat) (publishedFloor : Option Nat)
    (distinct : (probes.map ReplicaProbe.nodeId).Nodup) :
    (∀ candidate committedOffset answered,
        establish probes replicationFactor candidate publishedFloor = .Established committedOffset answered →
      ∃ held, ⟨candidate, some held⟩ ∈ probes ∧ committedOffset ≤ held
        ∧ (∀ floor, publishedFloor = some floor → floor ≤ committedOffset)
        ∧ (majority replicationFactor
              ≤ probes.countP (fun probe => probe.localCommittedOffset.any fun answer => committedOffset ≤ answer)
            ∨ publishedFloor = some committedOffset)
        ∧ ∀ members offset, ReplicaOffsets probes replicationFactor members offset → ∀ reached,
            majority replicationFactor ≤ (members.filter fun node => reached ≤ offset node).card → reached ≤ held)
    ∧ (∀ largest held, ⟨largest, some held⟩ ∈ probes → (∀ node answer, ⟨node, some answer⟩ ∈ probes → answer ≤ held) →
        majority replicationFactor ≤ probes.countP (fun probe => probe.localCommittedOffset.isSome) →
      ((∃ committedOffset answered,
          establish probes replicationFactor largest publishedFloor = .Established committedOffset answered)
        ↔ ∀ floor, publishedFloor = some floor → floor ≤ held))
    ∧ (∀ candidate candidateOffset votes required node held, establish probes replicationFactor candidate publishedFloor
          = .CandidateBehindVoters candidateOffset votes required (node, held) →
      ⟨node, some held⟩ ∈ probes ∧ ∃ committedOffset answered,
        establish probes replicationFactor node publishedFloor = .Established committedOffset answered) := by
  refine ⟨?_, ?_, ?_⟩
  · intro candidate committedOffset answered established
    obtain ⟨held, answer, holds, votes, reachesFloor, proven⟩ := established_boundary distinct established
    rw [Answers.countP_of distinct fun answer => decide (committedOffset ≤ answer)] at proven
    refine ⟨held, (Answers.mem_of distinct).mp answer, holds, reachesFloor, proven, ?_⟩
    exact fun members offset replicas reached holders => candidate_reaches distinct votes replicas holders
  · intro largest held answer most enough
    have counted : (Answers.of probes).length = probes.countP fun probe => probe.localCommittedOffset.isSome := by
      have everyone := Answers.countP_of distinct fun _ => true
      simpa using everyone
    exact establish_largest distinct (counted ▸ enough) ((Answers.mem_of distinct).mpr answer)
      fun answer member => most answer.1 answer.2 ((Answers.mem_of distinct).mp member)
  · intro candidate candidateOffset votes required node held refused
    obtain ⟨enough, member, largest, reachesFloor⟩ := behindVoters_names distinct refused
    exact ⟨(Answers.mem_of distinct).mp member, (establish_largest distinct enough member largest).mpr reachesFloor⟩

/-- Three replicas, the third of them silent and the second ahead of the candidate. -/
def straddledProbes : List ReplicaProbe := [⟨1, some 100⟩, ⟨2, some 101⟩, ⟨3, none⟩]

theorem straddledProbes_name_the_holder : establish straddledProbes 3 1 none = .CandidateBehindVoters 100 1 2 (2, 101)
      ∧ ∃ committedOffset answered, establish straddledProbes 3 2 none = .Established committedOffset answered :=
  have refused : establish straddledProbes 3 1 none = .CandidateBehindVoters 100 1 2 (2, 101) := by decide +kernel
  ⟨refused, ((promotion_arithmetic straddledProbes 3 none (by decide)).2.2 1 100 1 2 2 101 refused).2⟩

end VtopEngine.Node
