import Mathlib.Data.Finset.Card
import Mathlib.Data.List.Sort
import VtopEngine.Meta.Command

/-! # Deterministic replica placement

Hard constraints filter first, then weighted rendezvous hashing ranks the
survivors (`placement.rs`).  The digest is a parameter of the model: nothing
proved about a selection depends on which nodes the hash prefers.
-/

namespace VtopEngine.Meta

open Lib List

/-- What the code takes from other crates: the BLAKE3 derive-key digest and the
    quoted `Debug` form of a string. -/
class External where
  deriveKeyDigest : String → Bytes → Bytes32
  debugStr : String → String

/-- Stand-ins with which a log of commands can be evaluated. -/
abbrev External.plain : External where
  deriveKeyDigest _ _ := Vector.replicate 32 0
  debugStr text := text

structure PlacementCandidate where
  nodeUuid : Uuid
  failureDomain : String
  weight : UInt32
  deriving DecidableEq, Repr

inductive PlacementError
  | InvalidReplicationFactor (replicationFactor : Nat)
  | InsufficientEligibleNodes (requested available : Nat)
  deriving DecidableEq, Repr

def PlacementError.display : PlacementError → String
  | InvalidReplicationFactor replicationFactor => s!"replication factor {replicationFactor} must be 1..={MAX_REPLICAS}"
  | InsufficientEligibleNodes requested available => s!"need {requested} eligible replica(s), only {available} available"

def RENDEZVOUS_DERIVE_KEY : String := "vtop-meta/placement/rendezvous/v1"

section Selection

variable [External]

/-- The high 64 bits of the digest of `(segment, node)`, scaled by the weight. -/
def rendezvousScore (segmentUuid nodeUuid : Uuid) (weight : UInt32) : BitVec 128 :=
  let weight := if weight < MIN_PLACEMENT_WEIGHT then MIN_PLACEMENT_WEIGHT else weight
  let digest := External.deriveKeyDigest RENDEZVOUS_DERIVE_KEY (putUuid segmentUuid ++ putUuid nodeUuid)
  let hash := ofBeBytes (digest.toList.take 8)
  BitVec.ofNat 128 hash * BitVec.ofNat 128 weight.toNat

structure Ranked where
  score : BitVec 128
  nodeUuid : Uuid
  failureDomain : String
  deriving DecidableEq, Repr

/-- Descending score, then ascending node. -/
def Ranked.Before (left right : Ranked) : Prop :=
  right.score < left.score ∨ right.score = left.score ∧ left.nodeUuid ≤ right.nodeUuid

instance : DecidableRel Ranked.Before := fun _ _ => inferInstanceAs (Decidable (_ ∨ _))

/-- The selection loop: a node already taken, or of a domain already used when
    domains must differ, is passed over. -/
def selectLoop (replicationFactor : Nat) (requireDistinctFailureDomains : Bool) :
    List Ranked → List Uuid → List String → Except PlacementError (List Uuid)
  | [], selected, _ => .error (.InsufficientEligibleNodes replicationFactor selected.length)
  | candidate :: rest, selected, usedDomains =>
    if candidate.nodeUuid ∈ selected then
      selectLoop replicationFactor requireDistinctFailureDomains rest selected usedDomains
    else if requireDistinctFailureDomains ∧ candidate.failureDomain ∈ usedDomains then
      selectLoop replicationFactor requireDistinctFailureDomains rest selected usedDomains
    else
      let selected := selected ++ [candidate.nodeUuid]
      let usedDomains := usedDomains ++ [candidate.failureDomain]
      if selected.length = replicationFactor then
        .ok selected
      else
        selectLoop replicationFactor requireDistinctFailureDomains rest selected usedDomains

def selectReplicas (segmentUuid : Uuid) (candidates : List PlacementCandidate) (replicationFactor : Nat)
    (requireDistinctFailureDomains : Bool) : Except PlacementError (List Uuid) :=
  if ¬ (1 ≤ replicationFactor ∧ replicationFactor ≤ MAX_REPLICAS) then
    .error (.InvalidReplicationFactor replicationFactor)
  else
    let eligible := candidates.filter fun candidate => candidate.weight ≥ MIN_PLACEMENT_WEIGHT
    let ranked := eligible.map fun candidate =>
      { score := rendezvousScore segmentUuid candidate.nodeUuid candidate.weight
        nodeUuid := candidate.nodeUuid
        failureDomain := candidate.failureDomain : Ranked }
    selectLoop replicationFactor requireDistinctFailureDomains (ranked.insertionSort Ranked.Before) [] []

end Selection

/-! ## The order of the candidates -/

instance : Std.Total Ranked.Before where
  total left right := by
    unfold Ranked.Before
    bv_omega

instance : IsTrans Ranked Ranked.Before where
  trans left middle right := by
    unfold Ranked.Before
    bv_omega

/-- Nodes that differ are ranked one way. -/
theorem insertionSort_eq {first second : List Ranked} (same : first.Perm second) (nodup : (second.map (·.nodeUuid)).Nodup) :
    first.insertionSort Ranked.Before = second.insertionSort Ranked.Before := by
  have perm := ((perm_insertionSort Ranked.Before first).trans same).trans (perm_insertionSort Ranked.Before second).symm
  refine perm.eq_of_pairwise (fun left right isLeft isRight before after => ?_)
    (pairwise_insertionSort _ _) (pairwise_insertionSort _ _)
  have sameNode : left.nodeUuid = right.nodeUuid := by
    unfold Ranked.Before at before after
    bv_omega
  have isLeft := same.mem_iff.mp ((mem_insertionSort _).mp isLeft)
  exact inj_on_of_nodup_map nodup isLeft ((mem_insertionSort _).mp isRight) sameNode

/-! ## What a selection is -/

section Loop

variable {factor : Nat} {distinct : Bool} {ranked : List Ranked} {selected chosen : List Uuid}
  {usedDomains : List String}

/-- A selection goes on with ranked candidates, of domains that differ from the used ones and from each other. -/
theorem selectLoop_ok (selects : selectLoop factor distinct ranked selected usedDomains = .ok chosen) :
    ∃ picked : List Ranked, picked.Sublist ranked ∧ chosen = selected ++ picked.map (·.nodeUuid) ∧ chosen.length = factor ∧
      (selected.Nodup → chosen.Nodup) ∧
      (distinct = true → usedDomains.Nodup → (usedDomains ++ picked.map (·.failureDomain)).Nodup) := by
  induction ranked generalizing selected usedDomains with
  | nil => cases selects
  | cons candidate rest ih =>
    simp only [selectLoop] at selects
    split at selects
    · obtain ⟨picked, isSublist, found⟩ := ih selects
      exact ⟨picked, isSublist.cons _, found⟩
    case isFalse fresh =>
      split at selects
      · obtain ⟨picked, isSublist, found⟩ := ih selects
        exact ⟨picked, isSublist.cons _, found⟩
      case isFalse unused =>
        have nodup : selected.Nodup → (selected ++ [candidate.nodeUuid]).Nodup :=
          fun nodup => by simpa using nodup.concat fresh
        have domains : distinct = true → usedDomains.Nodup → (usedDomains ++ [candidate.failureDomain]).Nodup :=
          fun required nodup => by simpa using nodup.concat fun used => unused ⟨required, used⟩
        split at selects
        case isTrue full =>
          cases selects
          exact ⟨[candidate], by simp, rfl, full, nodup, domains⟩
        case isFalse =>
          obtain ⟨picked, isSublist, rfl, length, distinctNodes, distinctDomains⟩ := ih selects
          refine ⟨candidate :: picked, isSublist.cons_cons _, by simp, length, distinctNodes ∘ nodup, fun required used => ?_⟩
          simpa using distinctDomains required (domains required used)

/-- A candidate that was not selected makes no difference. -/
theorem selectLoop_erase {candidate : Ranked} (selects : selectLoop factor distinct ranked selected usedDomains = .ok chosen)
    (unselected : candidate.nodeUuid ∉ chosen) :
    selectLoop factor distinct (ranked.erase candidate) selected usedDomains = .ok chosen := by
  induction ranked generalizing selected usedDomains with
  | nil => cases selects
  | cons head rest ih =>
    by_cases same : head = candidate
    · subst same
      rw [erase_cons_head]
      simp only [selectLoop] at selects
      split at selects
      · exact selects
      split at selects
      · exact selects
      -- A candidate that the loop takes is in what it selects.
      have taken : head.nodeUuid ∈ chosen := by
        split at selects
        · cases selects
          simp
        · obtain ⟨picked, -, rfl, -⟩ := selectLoop_ok selects
          simp
      exact absurd taken unselected
    · rw [erase_cons_tail (by simpa using same)]
      simp only [selectLoop] at selects ⊢
      split_ifs at selects ⊢ <;> first | exact selects | exact ih selects

/-- How many more candidates the loop can take. -/
def freshCount (distinct : Bool) (ranked : List Ranked) (usedDomains : List String) : Nat :=
  if distinct then ((ranked.map (·.failureDomain)).toFinset \ usedDomains.toFinset).card else ranked.length

variable {candidate : Ranked}

theorem freshCount_used (used : distinct = true ∧ candidate.failureDomain ∈ usedDomains) :
    freshCount distinct (candidate :: ranked) usedDomains = freshCount distinct ranked usedDomains := by
  simp [freshCount, used.1, Finset.insert_sdiff_of_mem, used.2]

theorem freshCount_taken (fresh : ¬(distinct = true ∧ candidate.failureDomain ∈ usedDomains)) :
    freshCount distinct (candidate :: ranked) usedDomains =
      freshCount distinct ranked (usedDomains ++ [candidate.failureDomain]) + 1 := by
  cases distinct with
  | false => rfl
  | true =>
    have unused : candidate.failureDomain ∉ usedDomains := fun used => fresh ⟨rfl, used⟩
    have split : ((candidate :: ranked).map (·.failureDomain)).toFinset \ usedDomains.toFinset =
        insert candidate.failureDomain
          ((ranked.map (·.failureDomain)).toFinset \ (usedDomains ++ [candidate.failureDomain]).toFinset) := by
      ext domain
      by_cases same : domain = candidate.failureDomain
      · simp [same, unused]
      · simp [same]
    simp only [freshCount, if_true]
    rw [split, Finset.card_insert_of_notMem (by simp)]

/-- The loop comes to its end only where too few are left. -/
theorem selectLoop_isOk (short : selected.length < factor) (nodup : (ranked.map (·.nodeUuid)).Nodup)
    (apart : ∀ candidate ∈ ranked, candidate.nodeUuid ∉ selected) :
    (∃ chosen, selectLoop factor distinct ranked selected usedDomains = .ok chosen) ↔
      factor ≤ selected.length + freshCount distinct ranked usedDomains := by
  induction ranked generalizing selected usedDomains with
  | nil => simp [selectLoop, freshCount, short]
  | cons candidate rest ih =>
    obtain ⟨notLater, nodup⟩ := nodup_cons.mp nodup
    have apartRest := fun other member => apart other (mem_cons_of_mem _ member)
    rw [selectLoop, if_neg (apart candidate mem_cons_self)]
    split
    case isTrue used => rw [freshCount_used used, ih short nodup apartRest]
    case isFalse fresh =>
      rw [freshCount_taken fresh]
      have length : (selected ++ [candidate.nodeUuid]).length = selected.length + 1 := by simp
      simp only
      split
      case isTrue full => exact ⟨fun _ => by omega, fun _ => ⟨_, rfl⟩⟩
      case isFalse notFull =>
        rw [ih (by omega) nodup, length]
        · omega
        · intro other member
          rw [mem_append, mem_singleton, not_or]
          exact ⟨apartRest other member, fun same => notLater (mem_map.mpr ⟨other, member, same⟩)⟩

end Loop

theorem exists_of_subset_map {α β : Type} {f : α → β} {items : List α} {images : List β} (subset : images ⊆ items.map f) :
    ∃ chosen ⊆ items, images = chosen.map f := by
  induction images with
  | nil => exact ⟨[], by simp, rfl⟩
  | cons image rest ih =>
    obtain ⟨item, member, rfl⟩ := mem_map.mp (subset mem_cons_self)
    obtain ⟨chosen, inItems, rfl⟩ := ih fun _ later => subset (.tail _ later)
    exact ⟨item :: chosen, cons_subset.mpr ⟨member, inItems⟩, rfl⟩

section Candidates

variable [External]

def eligible (candidates : List PlacementCandidate) : List PlacementCandidate :=
  candidates.filter fun candidate => candidate.weight ≥ MIN_PLACEMENT_WEIGHT

def rank (segment : Uuid) (candidate : PlacementCandidate) : Ranked :=
  ⟨rendezvousScore segment candidate.nodeUuid candidate.weight, candidate.nodeUuid, candidate.failureDomain⟩

theorem selectReplicas_eq (segment candidates factor distinct) : selectReplicas segment candidates factor distinct =
      if ¬(1 ≤ factor ∧ factor ≤ MAX_REPLICAS) then .error (.InvalidReplicationFactor factor)
      else selectLoop factor distinct
        (((eligible candidates).map (rank segment)).insertionSort Ranked.Before) [] [] :=
  rfl

variable {segment : Uuid} {candidates : List PlacementCandidate} {factor : Nat} {distinct : Bool}
  {chosen : List Uuid}

theorem nodup_ranked (nodes : (candidates.map (·.nodeUuid)).Nodup) :
    (((eligible candidates).map (rank segment)).map (·.nodeUuid)).Nodup := by
  rw [map_map]
  exact nodes.sublist (filter_sublist.map _)

theorem selectReplicas_perm {other : List PlacementCandidate} (same : other.Perm candidates)
    (nodes : (candidates.map (·.nodeUuid)).Nodup) :
    selectReplicas segment other factor distinct = selectReplicas segment candidates factor distinct := by
  have sameRanked : ((eligible other).map (rank segment)).Perm ((eligible candidates).map (rank segment)) :=
    (same.filter _).map _
  rw [selectReplicas_eq, selectReplicas_eq, insertionSort_eq sameRanked (nodup_ranked nodes)]

/-- Deleting a candidate that was not selected leaves the selection. -/
theorem selectReplicas_erase (nodes : (candidates.map (·.nodeUuid)).Nodup)
    (selects : selectReplicas segment candidates factor distinct = .ok chosen)
    {candidate} (member : candidate ∈ candidates) (unselected : candidate.nodeUuid ∉ chosen) :
    selectReplicas segment (candidates.erase candidate) factor distinct = .ok chosen := by
  have first := perm_cons_erase member
  rw [← selectReplicas_perm first.symm nodes, selectReplicas_eq] at selects
  rw [selectReplicas_eq]
  split at selects
  · cases selects
  case isFalse valid =>
    rw [if_neg valid]
    by_cases weighs : candidate.weight ≥ MIN_PLACEMENT_WEIGHT
    · rw [eligible, filter_cons_of_pos (by simpa using weighs), map_cons, insertionSort_cons] at selects
      have erased := @selectLoop_erase _ _ _ _ _ _ (rank segment candidate) selects unselected
      rw [erase_orderedInsert] at erased
      exact erased
    · rw [eligible, filter_cons_of_neg (by simpa using weighs)] at selects
      exact selects

/-- A selection is the same for every order of the candidates; there is one where enough nodes, or domains, are eligible;
it names as many distinct nodes as the factor asks for, in distinct domains if these must differ; and it depends on the
nodes it names alone. -/
theorem selectReplicas_selects (nodes : (candidates.map (·.nodeUuid)).Nodup) :
    (∀ other, other.Perm candidates → selectReplicas segment other factor distinct =
      selectReplicas segment candidates factor distinct) ∧
    ((∃ chosen, selectReplicas segment candidates factor distinct = .ok chosen) ↔
      (1 ≤ factor ∧ factor ≤ MAX_REPLICAS) ∧ factor ≤
        if distinct then ((eligible candidates).map (·.failureDomain)).toFinset.card else (eligible candidates).length) ∧
    ∀ chosen, selectReplicas segment candidates factor distinct = .ok chosen → chosen.length = factor ∧ chosen.Nodup ∧
      (∃ picked : List PlacementCandidate, picked ⊆ eligible candidates ∧ chosen = picked.map (·.nodeUuid) ∧
        (distinct = true → (picked.map (·.failureDomain)).Nodup)) ∧
      ∀ candidate ∈ candidates, candidate.nodeUuid ∉ chosen →
        selectReplicas segment (candidates.erase candidate) factor distinct = .ok chosen := by
  have sorts := perm_insertionSort Ranked.Before ((eligible candidates).map (rank segment))
  refine ⟨fun other same => selectReplicas_perm same nodes, ?_, fun chosen selects => ?_⟩
  · rw [selectReplicas_eq]
    split
    case isTrue invalid => simp [invalid]
    case isFalse valid =>
      have count := @selectLoop_isOk factor distinct _ [] [] (by simp; omega)
        ((sorts.map _).nodup_iff.mpr (nodup_ranked nodes)) (by simp)
      rw [count, freshCount, toFinset_eq_of_perm _ _ (sorts.map _), sorts.length_eq, map_map]
      simp [not_not.mp valid, rank, Function.comp_def]
  · have erases := fun candidate member => @selectReplicas_erase _ _ _ _ _ _ nodes selects candidate member
    rw [selectReplicas_eq] at selects
    split at selects
    · cases selects
    -- The loop picks a sublist of the ranking, which permutes the eligible candidates.
    obtain ⟨picked, isSublist, rfl, length, nodup, domains⟩ := selectLoop_ok selects
    obtain ⟨nodes, areEligible, rfl⟩ := exists_of_subset_map (Subset.trans isSublist.subset sorts.subset)
    refine ⟨length, nodup nodup_nil, ⟨nodes, areEligible, map_map, fun required => ?_⟩, erases⟩
    simpa [rank, Function.comp_def] using domains required nodup_nil

end Candidates

/-- Two nodes of two domains. -/
def twoNodes : List PlacementCandidate := [⟨1#128, "a", 1⟩, ⟨2#128, "b", 1⟩]

theorem selectReplicas_selects_both : ∃ chosen, @selectReplicas .plain 0#128 twoNodes 2 true = .ok chosen :=
  (@selectReplicas_selects .plain 0#128 twoNodes 2 true (by decide)).2.1.mpr (by decide)

end VtopEngine.Meta
