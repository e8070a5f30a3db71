import Mathlib.Data.Finset.Card
import VtopEngine.State.Models

/-! # Claim tokens

The claim generations a process holds for rows of the ledger (`fence.rs`).  Tokens of
work in flight are never dropped; those of work that stopped without ending are parked,
and the oldest parked ones go first.

* `Held` — the tokens and the order they were parked in.
* `Held.Within` — where every token an operation leaves comes from.
* `Held.Orderly` — the counter and the order agree with the tokens, after any calls.
-/

namespace VtopEngine.State

open VtopEngine.Core Function

/-- The most parked tokens kept. -/
def MAX_PARKED : Nat := 65536

/-- A generation; `parked` is its place in the order of parking while it is parked. -/
structure Token where
  generation : Nat
  parked : Option Nat
  deriving DecidableEq, Repr

/-- `parkedOrder` may hold places of tokens that were since released, claimed again or parked again. -/
structure Held where
  tokens : String → Option Token
  parkedOrder : List (String × Nat)
  (parked nextSeq : Nat)

namespace Held

def empty : Held := { tokens := fun _ => none, parkedOrder := [], parked := 0, nextSeq := 0 }

/-- The generation held for a batch. -/
def held (fence : Held) (batchId : String) : Option Nat := (fence.tokens batchId).map Token.generation

/-- The place a batch is parked at. -/
def parkedAt (fence : Held) (batchId : String) : Option Nat := (fence.tokens batchId).bind Token.parked

/-- Drop stale places once they outnumber the parked tokens. -/
def compact (fence : Held) : Held :=
  if 2 * fence.parked + 1024 < fence.parkedOrder.length then
    { fence with parkedOrder := fence.parkedOrder.filter fun entry => fence.parkedAt entry.1 = some entry.2 }
  else fence

/-- A row this process created or claimed: the highest generation seen wins. -/
def activate (fence : Held) (batchId : String) (generation : Nat) : Held :=
  match fence.tokens batchId with
  | some token =>
    compact { fence with
      tokens := update fence.tokens batchId (some ⟨max token.generation generation, none⟩)
      parked := if token.parked.isSome then fence.parked - 1 else fence.parked }
  | none => compact { fence with tokens := update fence.tokens batchId (some ⟨generation, none⟩) }

def created (fence : Held) (batchId : String) : Held := fence.activate batchId 0

def claimed (fence : Held) (batchId : String) (generation : Nat) : Held := fence.activate batchId generation

/-- Forget a token, if it is still the one of that generation. -/
def release (fence : Held) (batchId : String) (generation : Nat) : Held :=
  match fence.tokens batchId with
  | some token =>
    if token.generation = generation then
      compact { fence with
        tokens := update fence.tokens batchId none
        parked := if token.parked.isSome then fence.parked - 1 else fence.parked }
    else fence
  | none => fence

/-- Drop the oldest parked tokens while there are too many; places that are stale are skipped. -/
def evict (fence : Held) : List (String × Nat) → Held
  | [] => { fence with parkedOrder := [] }
  | (oldest, seq) :: order =>
    if MAX_PARKED < fence.parked then
      if fence.parkedAt oldest = some seq then
        evict { fence with tokens := update fence.tokens oldest none, parked := fence.parked - 1 } order
      else evict fence order
    else { fence with parkedOrder := (oldest, seq) :: order }

/-- Park a token, if it is still the one of that generation. -/
def park (fence : Held) (batchId : String) (generation : Nat) : Held :=
  match fence.tokens batchId with
  | some token =>
    if token.generation = generation then
      let seq := fence.nextSeq
      let parked := { fence with
        tokens := update fence.tokens batchId (some { token with parked := some seq })
        parked := if token.parked.isNone then fence.parked + 1 else fence.parked
        nextSeq := seq + 1 }
      (parked.evict (fence.parkedOrder ++ [(batchId, seq)])).compact
    else fence
  | none => fence

/-- Record a transition made while holding a generation. -/
def wrote (fence : Held) (batchId : String) (target : BatchState) (generation : Nat) : Held :=
  match target with
  | .SourceCommitted | .ReplayRequired => fence.release batchId generation
  | .Failed => fence.park batchId generation
  | _ => fence

/-- A write was refused because the claim moved on. -/
def lost (fence : Held) (batchId : String) (generation : Nat) : Held := fence.park batchId generation

/-! ## Where tokens come from -/

/-- Every generation held for a batch is one of those given. -/
def Within (fence : Held) (known : String → Nat → Prop) : Prop :=
  ∀ batchId generation, fence.held batchId = some generation → known batchId generation

variable {fence : Held} {known : String → Nat → Prop} {batchId : String} {generation : Nat}

theorem compact_tokens (fence : Held) : fence.compact.tokens = fence.tokens := by
  unfold compact
  split <;> rfl

section

variable (within : fence.Within known)

include within

/-- A token replaced by one that is known, or dropped. -/
theorem Within.update {token : Option Token}
    (isKnown : ∀ replaced, token = some replaced → known batchId replaced.generation) {after : Held}
    (tokens : after.tokens = update fence.tokens batchId token) : after.Within known := by
  intro other generation held
  rw [Held.held, tokens] at held
  by_cases same : other = batchId
  · subst same
    rw [update_self] at held
    obtain ⟨replaced, isToken, rfl⟩ := Option.map_eq_some_iff.mp held
    exact isKnown replaced isToken
  · rw [update_of_ne same] at held
    exact within other generation held

theorem Within.drop {after : Held}
    (tokens : after.tokens = Function.update fence.tokens batchId none) : after.Within known :=
  within.update (by simp) tokens

theorem Within.activate (isKnown : known batchId generation) : (fence.activate batchId generation).Within known := by
  unfold Held.activate
  split
  case h_1 token isToken =>
    refine within.update (fun replaced isReplaced => ?_) (compact_tokens _)
    obtain rfl := Option.some.inj isReplaced
    -- The token keeps the higher of two known generations.
    have old : known batchId token.generation := within batchId token.generation (by rw [held, isToken]; rfl)
    rcases Nat.le_total token.generation generation with below | above
    · rw [Nat.max_eq_right below]
      exact isKnown
    · rw [Nat.max_eq_left above]
      exact old
  case h_2 =>
    refine within.update (fun replaced isReplaced => ?_) (compact_tokens _)
    obtain rfl := Option.some.inj isReplaced
    exact isKnown

theorem Within.release (batchId : String) (generation : Nat) : (fence.release batchId generation).Within known := by
  unfold Held.release
  split
  · split
    · exact within.drop (compact_tokens _)
    · exact within
  · exact within

theorem Within.evict (order : List (String × Nat)) : (fence.evict order).Within known := by
  induction order generalizing fence with
  | nil => exact within
  | cons entry order ih =>
    unfold Held.evict
    split
    · split
      · exact ih (within.drop rfl)
      · exact ih within
    · exact within

theorem Within.park (batchId : String) (generation : Nat) : (fence.park batchId generation).Within known := by
  unfold Held.park
  split
  case h_1 token isToken =>
    split
    · have kept : known batchId token.generation := within batchId token.generation (by rw [held, isToken]; rfl)
      have parked : Held.Within { fence with
          tokens := Function.update fence.tokens batchId (some { token with parked := some fence.nextSeq })
          parked := if token.parked.isNone then fence.parked + 1 else fence.parked
          nextSeq := fence.nextSeq + 1 } known :=
        within.update (fun replaced isReplaced => by rw [← Option.some.inj isReplaced]; exact kept) rfl
      intro other generation' isHeld
      rw [held, compact_tokens] at isHeld
      exact parked.evict _ other generation' isHeld
    · exact within
  case h_2 => exact within

theorem Within.wrote (batchId : String) (target : BatchState) (generation : Nat) :
    (fence.wrote batchId target generation).Within known := by
  unfold Held.wrote
  split
  · exact within.release batchId generation
  · exact within.release batchId generation
  · exact within.park batchId generation
  · exact within

end

/-! ## The table over all calls -/

inductive Call
  | created (batchId : String)
  | claimed (batchId : String) (generation : Nat)
  | wrote (batchId : String) (target : BatchState) (generation : Nat)
  | lost (batchId : String) (generation : Nat)

def call (fence : Held) : Call → Held
  | .created batchId => fence.created batchId
  | .claimed batchId generation => fence.claimed batchId generation
  | .wrote batchId target generation => fence.wrote batchId target generation
  | .lost batchId generation => fence.lost batchId generation

/-- The counter counts the parked tokens, and the order lists each at its place; other entries are stale. -/
structure Queued (fence : Held) (order : List (String × Nat)) : Prop where
  rising : order.Pairwise (·.2 < ·.2)
  below : ∀ entry ∈ order, entry.2 < fence.nextSeq
  listed : ∀ batchId seq, fence.parkedAt batchId = some seq → (batchId, seq) ∈ order
  counted : ∃ ids : Finset String, ids.card = fence.parked ∧ ∀ batchId, batchId ∈ ids ↔ (fence.parkedAt batchId).isSome

structure Orderly (fence : Held) : Prop extends Queued fence fence.parkedOrder where
  few : fence.parked ≤ MAX_PARKED
  short : fence.parkedOrder.length ≤ 2 * fence.parked + 1024

variable {after : Held} {order : List (String × Nat)} {now : Option Token} {next : Call}

theorem parkedAt_compact (fence : Held) : fence.compact.parkedAt = fence.parkedAt := by
  funext batchId
  rw [parkedAt, compact_tokens]
  rfl

section

variable (tokens : after.tokens = update fence.tokens batchId now)

include tokens

theorem parkedAt_update : after.parkedAt = update fence.parkedAt batchId (now.bind Token.parked) := by
  funext other
  by_cases same : other = batchId <;> simp [parkedAt, tokens, same]

theorem Queued.unpark (queued : fence.Queued order) (unparked : now.bind Token.parked = none)
    (sameSeq : after.nextSeq = fence.nextSeq)
    (count : after.parked = if (fence.parkedAt batchId).isSome then fence.parked - 1 else fence.parked) :
    after.Queued order := by
  have places := unparked ▸ parkedAt_update tokens
  obtain ⟨ids, card, isIds⟩ := queued.counted
  refine ⟨queued.rising, sameSeq ▸ queued.below, fun other seq isParked => ?_, ids.erase batchId, ?_, fun other => ?_⟩
  · by_cases same : other = batchId
    · simp [places, same] at isParked
    · exact queued.listed other seq (by simpa [places, same] using isParked)
  · simp only [Finset.card_erase_eq_ite, isIds, card, count]
  · by_cases same : other = batchId <;> simp [places, same, isIds]

/-- A token parked again leaves its old place. -/
theorem Queued.push (queued : fence.Queued order) (place : now.bind Token.parked = some fence.nextSeq)
    (nextSeq : after.nextSeq = fence.nextSeq + 1)
    (count : after.parked = if (fence.parkedAt batchId).isSome then fence.parked else fence.parked + 1) :
    after.Queued (order ++ [(batchId, fence.nextSeq)]) := by
  have places := place ▸ parkedAt_update tokens
  obtain ⟨ids, card, isIds⟩ := queued.counted
  refine ⟨?_, fun entry isEntry => ?_, fun other seq isParked => ?_, insert batchId ids, ?_, fun other => ?_⟩
  · exact List.pairwise_append.mpr ⟨queued.rising, List.pairwise_singleton _ _, by simpa using queued.below⟩
  · rcases List.mem_append.mp isEntry with earlier | last
    · exact nextSeq ▸ Nat.lt_succ_of_lt (queued.below entry earlier)
    · simp_all
  · by_cases same : other = batchId
    · simp_all
    · exact List.mem_append_left _ (queued.listed other seq (by simpa [places, same] using isParked))
  · simp only [Finset.card_insert_eq_ite, isIds, card, count]
  · by_cases same : other = batchId <;> simp [places, same, isIds]

end

namespace Queued

theorem tail (queued : fence.Queued (entry :: order)) (stale : fence.parkedAt entry.1 ≠ some entry.2) :
    fence.Queued order := by
  refine ⟨queued.rising.tail, fun other isOther => queued.below other (.tail _ isOther), ?_, queued.counted⟩
  intro other seq isParked
  refine (List.mem_cons.mp (queued.listed other seq isParked)).resolve_left ?_
  rintro rfl
  exact stale isParked

theorem drop (queued : fence.Queued (entry :: order)) (isParked : fence.parkedAt entry.1 = some entry.2) :
    Queued { fence with tokens := update fence.tokens entry.1 none, parked := fence.parked - 1 } order :=
  tail (unpark rfl queued rfl rfl (by rw [isParked]; rfl)) (by simp [parkedAt])

variable (queued : fence.Queued order)

include queued

theorem current_le : (order.filter fun entry => fence.parkedAt entry.1 = some entry.2).length ≤ fence.parked := by
  obtain ⟨ids, card, isIds⟩ := queued.counted
  have nodup : ((order.filter fun entry => fence.parkedAt entry.1 = some entry.2).map Prod.fst).Nodup := by
    refine List.pairwise_map.mpr ((queued.rising.filter _).imp_of_mem fun isLeft isRight below same => ?_)
    -- Two entries that are current for one token are at one place.
    have left := of_decide_eq_true (List.mem_filter.mp isLeft).2
    have right := of_decide_eq_true (List.mem_filter.mp isRight).2
    simp_all
  rw [← card, ← List.length_map Prod.fst, ← List.toFinset_card_of_nodup nodup]
  refine Finset.card_le_card fun batchId isMember => ?_
  obtain ⟨entry, isEntry, rfl⟩ := List.mem_map.mp (List.mem_toFinset.mp isMember)
  simp [isIds, of_decide_eq_true (List.mem_filter.mp isEntry).2]

/-- The loop ends within the bound and drops no more than it has to. -/
theorem evict : (fence.evict order).Queued (fence.evict order).parkedOrder ∧ (fence.evict order).parked ≤ MAX_PARKED ∧
    min MAX_PARKED fence.parked ≤ (fence.evict order).parked ∧ (fence.evict order).nextSeq = fence.nextSeq := by
  induction order generalizing fence with
  | nil =>
    -- A parked token would have an entry, so there is none.
    obtain ⟨ids, card, isIds⟩ := queued.counted
    have noIds : ids = ∅ := Finset.eq_empty_of_forall_notMem fun batchId isId => by
      obtain ⟨seq, isParked⟩ := Option.isSome_iff_exists.mp ((isIds batchId).mp isId)
      exact List.not_mem_nil (queued.listed batchId seq isParked)
    have zero : fence.parked = 0 := by rw [← card, noIds, Finset.card_empty]
    exact ⟨⟨queued.1, queued.2, queued.3, queued.4⟩, zero ▸ Nat.zero_le _, Nat.min_le_right .., rfl⟩
  | cons entry order ih =>
    unfold Held.evict
    split
    case isFalse few => exact ⟨⟨queued.1, queued.2, queued.3, queued.4⟩, Nat.not_lt.mp few, Nat.min_le_right .., rfl⟩
    case isTrue above =>
      split
      case isFalse stale => exact ih (queued.tail stale)
      case isTrue isParked =>
        -- There were more than the bound, so at least the bound is left.
        obtain ⟨queued, few, many, nextSeq⟩ := ih (queued.drop isParked)
        exact ⟨queued, few, by simp only at many; omega, nextSeq⟩

/-- The tokens the loop drops were parked before all those it leaves. -/
theorem evict_tokens (other : String) : (fence.evict order).tokens other = fence.tokens other ∨
    (fence.evict order).tokens other = none ∧ MAX_PARKED < fence.parked ∧ ∃ seq, fence.parkedAt other = some seq ∧
      ∀ later place, (fence.evict order).parkedAt later = some place → seq < place := by
  induction order generalizing fence other with
  | nil => exact .inl rfl
  | cons entry order ih =>
    unfold Held.evict
    split
    case isFalse => exact .inl rfl
    case isTrue above =>
      split
      case isFalse stale => exact ih (queued.tail stale) other
      case isTrue isParked =>
        have dropped := queued.drop isParked
        by_cases same : other = entry.1
        · subst same
          refine .inr ⟨?_, above, entry.2, isParked, fun later place isLater => ?_⟩
          · exact (ih dropped entry.1).elim (fun kept => kept.trans (update_self ..)) And.left
          · -- What is left was parked before, and so has an entry behind the one just taken.
            refine List.rel_of_pairwise_cons queued.rising (dropped.listed later place ?_)
            rcases ih dropped later with kept | ⟨gone, _⟩
            · rwa [parkedAt, kept] at isLater
            · simp [parkedAt, gone] at isLater
        · refine (ih dropped other).imp (fun kept => kept.trans (update_of_ne same ..)) ?_
          rintro ⟨gone, _, seq, isSeq, oldest⟩
          exact ⟨gone, above, seq, by simpa [parkedAt, same] using isSeq, oldest⟩

/-- The token parked last outlives the loop: others are left, and none of them has a later place. -/
theorem evict_newest (isParked : fence.parkedAt batchId = some seq) (isLast : fence.nextSeq = seq + 1) :
    (fence.evict order).tokens batchId = fence.tokens batchId := by
  refine (queued.evict_tokens batchId).resolve_right ?_
  rintro ⟨gone, full, place, isPlace, oldest⟩
  obtain rfl : seq = place := Option.some.inj (isParked.symm.trans isPlace)
  obtain ⟨left, -, many, nextSeq⟩ := queued.evict
  obtain ⟨ids, card, isIds⟩ := left.counted
  have pos : 0 < ids.card := by
    rw [MAX_PARKED] at many full
    omega
  obtain ⟨later, isLater⟩ := Finset.card_pos.mp pos
  obtain ⟨last, isLast⟩ := Option.isSome_iff_exists.mp ((isIds later).mp isLater)
  have below := left.below _ (left.listed later last isLast)
  have above := oldest later last isLast
  omega

end Queued

theorem Queued.compact (queued : fence.Queued fence.parkedOrder) (few : fence.parked ≤ MAX_PARKED) :
    fence.compact.Orderly := by
  have current := queued.current_le
  unfold Held.compact
  split
  case isFalse short => exact ⟨queued, few, Nat.not_lt.mp short⟩
  case isTrue =>
    refine ⟨⟨queued.rising.filter _, fun entry isEntry => queued.below entry (List.mem_filter.mp isEntry).1,
      fun other seq isParked => ?_, queued.counted⟩, few, ?_⟩
    · exact List.mem_filter.mpr ⟨queued.listed other seq isParked, decide_eq_true isParked⟩
    · show (List.filter _ _).length ≤ 2 * fence.parked + 1024
      omega

/-- What a call makes of a token that was held. -/
inductive Fate (next : Call) (fence after : Held) (batchId : String) (token : Token) : Prop
  | kept (isToken : after.tokens batchId = some still) (rises : token.generation ≤ still.generation)
  | released (gone : after.tokens batchId = none) (isCall : next = .wrote batchId target token.generation)
      (ended : target = .SourceCommitted ∨ target = .ReplayRequired)
  | evicted (gone : after.tokens batchId = none) (isParked : token.parked = some seq) (full : fence.parked = MAX_PARKED)
      (oldest : ∀ later place, after.parkedAt later = some place → seq < place)

/-- A call keeps the table in order; a place it hands out is above all earlier ones. -/
structure Moved (next : Call) (fence after : Held) : Prop where
  orderly : after.Orderly
  placed : ∀ batchId seq, after.parkedAt batchId = some seq → fence.parkedAt batchId = some seq ∨ fence.nextSeq ≤ seq
  fate : ∀ batchId token, fence.tokens batchId = some token → Fate next fence after batchId token

namespace Orderly

variable (orderly : fence.Orderly)

include orderly

theorem same : Moved next fence fence :=
  ⟨orderly, fun _ _ isParked => .inl isParked, fun _ _ isToken => .kept isToken (Nat.le_refl _)⟩

theorem unpark (tokens : after.tokens = update fence.tokens batchId now) (unparked : now.bind Token.parked = none)
    (sameSeq : after.nextSeq = fence.nextSeq) (sameOrder : after.parkedOrder = fence.parkedOrder)
    (count : after.parked = if (fence.parkedAt batchId).isSome then fence.parked - 1 else fence.parked)
    (fate : ∀ token, fence.tokens batchId = some token → Fate next fence after.compact batchId token) :
    Moved next fence after.compact := by
  have few := orderly.few
  refine ⟨Queued.compact (sameOrder ▸ Queued.unpark tokens orderly.toQueued unparked sameSeq count) (by grind),
    fun other seq isParked => ?_, fun other token isToken => ?_⟩
  · -- No place is handed out.
    rw [parkedAt_compact, parkedAt_update tokens, unparked] at isParked
    by_cases same : other = batchId
    · simp [same] at isParked
    · exact .inl (by simpa [same] using isParked)
  · by_cases same : other = batchId
    · exact same ▸ fate token (same ▸ isToken)
    · exact .kept (by rw [compact_tokens, tokens, update_of_ne same, isToken]) (Nat.le_refl _)

theorem activate (batchId : String) (generation : Nat) : Moved next fence (fence.activate batchId generation) := by
  unfold Held.activate
  split
  case h_1 token isToken =>
    refine orderly.unpark rfl rfl rfl rfl (by simp [parkedAt, isToken]) fun held isHeld => ?_
    obtain rfl := Option.some.inj (isHeld.symm.trans isToken)
    exact .kept ((congrFun (compact_tokens _) _).trans (update_self ..)) (Nat.le_max_left ..)
  case h_2 isNone => exact orderly.unpark rfl rfl rfl rfl (by simp [parkedAt, isNone]) (by simp [isNone])

theorem release {target : BatchState} (ended : target = .SourceCommitted ∨ target = .ReplayRequired) :
    Moved (.wrote batchId target generation) fence (fence.release batchId generation) := by
  unfold Held.release
  split
  case h_1 token isToken =>
    split
    case isTrue same =>
      refine orderly.unpark rfl rfl rfl rfl (by simp [parkedAt, isToken]) fun held isHeld => ?_
      obtain rfl := Option.some.inj (isHeld.symm.trans isToken)
      -- The generation given is the token's own.
      exact .released ((congrFun (compact_tokens _) _).trans (update_self ..)) (same ▸ rfl) ended
    case isFalse => exact orderly.same
  case h_2 => exact orderly.same

theorem park (batchId : String) (generation : Nat) : Moved next fence (fence.park batchId generation) := by
  unfold Held.park
  split
  case h_2 => exact orderly.same
  case h_1 token isToken =>
    split
    case isFalse => exact orderly.same
    case isTrue =>
      extract_lets seq parked
      have few := orderly.few
      have tokens : parked.tokens = update fence.tokens batchId _ := rfl
      have places : parked.parkedAt = update fence.parkedAt batchId (some seq) := parkedAt_update tokens
      have queued : parked.Queued (fence.parkedOrder ++ [(batchId, seq)]) := by
        refine Queued.push tokens orderly.toQueued rfl rfl ?_
        cases isParked : token.parked <;> simp [parked, parkedAt, isToken, isParked]
      have above : parked.parked ≤ fence.parked + 1 := by grind
      obtain ⟨left, within, -, -⟩ := queued.evict
      refine ⟨left.compact within, fun other place isParked => ?_, fun other held isHeld => ?_⟩
      · have before : parked.parkedAt other = some place := by
          rw [parkedAt_compact, parkedAt] at isParked
          rcases queued.evict_tokens other with kept | ⟨gone, _⟩
          · rwa [kept] at isParked
          · simp [gone] at isParked
        rw [places] at before
        -- Only the token itself gets a new place.
        by_cases same : other = batchId
        · obtain rfl : seq = place := by simpa [same] using before
          exact .inr (Nat.le_refl _)
        · exact .inl (by simpa [same] using before)
      · -- Of the tokens held, the loop may drop all but this one.
        by_cases same : other = batchId
        · subst same
          obtain rfl := Option.some.inj (isHeld.symm.trans isToken)
          have kept := queued.evict_newest (by rw [places, update_self]) rfl
          exact .kept ((congrFun (compact_tokens _) other).trans (kept.trans (update_self ..))) (Nat.le_refl _)
        · have before : parked.tokens other = some held := (update_of_ne same ..).trans isHeld
          rcases queued.evict_tokens other with kept | ⟨gone, full, place, isPlace, oldest⟩
          · exact .kept ((congrFun (compact_tokens _) other).trans (kept.trans before)) (Nat.le_refl _)
          · rw [parkedAt, before] at isPlace
            -- One token more than the bound: the table was full before the call.
            exact .evicted ((congrFun (compact_tokens _) other).trans gone) isPlace (by omega) (by rwa [parkedAt_compact])

theorem call (next : Call) : Moved next fence (fence.call next) := by
  cases next with
  | created batchId => exact orderly.activate batchId 0
  | claimed batchId generation => exact orderly.activate batchId generation
  | lost batchId generation => exact orderly.park batchId generation
  | wrote batchId target generation =>
    show Moved _ fence (fence.wrote batchId target generation)
    unfold Held.wrote
    split
    · exact orderly.release (.inl rfl)
    · exact orderly.release (.inr rfl)
    · exact orderly.park batchId generation
    · exact orderly.same

end Orderly

theorem orderly_foldl (orderly : fence.Orderly) (calls : List Call) : (calls.foldl call fence).Orderly := by
  induction calls generalizing fence with
  | nil => exact orderly
  | cons next calls ih => exact ih (orderly.call next).orderly

theorem orderly_empty : empty.Orderly :=
  ⟨⟨.nil, by simp [empty], by simp [empty, parkedAt], ∅, rfl, by simp [empty, parkedAt]⟩, Nat.zero_le _, Nat.zero_le _⟩

/-- After any calls the table is bounded, and its counter and queue agree with its tokens; one more call drops a token
only when its work ended, or when it is parked, the table is full and the tokens left were all parked later. -/
theorem tokens_of_calls (calls : List Call) :
    let fence := calls.foldl call empty
    fence.Orderly ∧ ∀ next, Moved next fence (fence.call next) := by
  have orderly := orderly_foldl orderly_empty calls
  exact ⟨orderly, orderly.call⟩

end Held

end VtopEngine.State
