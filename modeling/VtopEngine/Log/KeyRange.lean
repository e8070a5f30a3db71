import Mathlib.Tactic.Common

/-! # Key ranges

A buddy-aligned prefix of the 64-bit routing-hash space (`vtop-log/src/types.rs`).
The code tests membership with a mask; here the mask test is shown to be what it
stands for, agreement with the prefix on its leading bits, and a split is shown
to send every hash of the parent to exactly one child.
-/

namespace VtopEngine.Log

inductive LogError
  | InvalidDescriptor (detail : String)
  deriving DecidableEq, Repr

def LogError.display : LogError → String
  | InvalidDescriptor detail => s!"invalid segment descriptor: {detail}"

structure KeyRange where
  keyPrefix : UInt64
  prefixBits : UInt8
  deriving DecidableEq, Repr

namespace KeyRange

def full : KeyRange := { keyPrefix := 0, prefixBits := 0 }

def mask (range : KeyRange) : UInt64 :=
  if range.prefixBits = 0 then 0 else 0xFFFFFFFFFFFFFFFF <<< (64 - range.prefixBits).toUInt64

def validate (range : KeyRange) : Except LogError Unit :=
  if range.prefixBits > 64 then
    .error (.InvalidDescriptor "key-range prefix length cannot exceed 64 bits")
  else if range.keyPrefix &&& ~~~range.mask ≠ 0 then
    .error (.InvalidDescriptor "key-range prefix has non-zero bits outside its prefix length")
  else
    .ok ()

def contains (range : KeyRange) (keyHash : UInt64) : Bool :=
  range.validate.isOk && (range.prefixBits == 0 || (keyHash &&& range.mask) == range.keyPrefix)

def children (range : KeyRange) : Except LogError (KeyRange × KeyRange) := do
  range.validate
  if range.prefixBits = 64 then
    throw (.InvalidDescriptor "a single-key range cannot be split")
  let childBits := range.prefixBits + 1
  let splitBit : UInt64 := 1 <<< (64 - childBits).toUInt64
  return ({ keyPrefix := range.keyPrefix, prefixBits := childBits },
    { keyPrefix := range.keyPrefix ||| splitBit, prefixBits := childBits })

/-! ## What the mask means -/

def bit (word : UInt64) (index : Nat) : Bool := word.toBitVec.getLsbD index

/-- The position of the lowest bit the prefix fixes. -/
def floor (range : KeyRange) : Nat := 64 - range.prefixBits.toNat

/-- The hash agrees with the prefix on every bit the prefix fixes. -/
def Routes (range : KeyRange) (keyHash : UInt64) : Prop :=
  ∀ index, range.floor ≤ index → index < 64 → bit keyHash index = bit range.keyPrefix index

/-- A prefix of at most 64 bits, zero below them. -/
structure Valid (range : KeyRange) : Prop where
  bits : range.prefixBits.toNat ≤ 64
  below : ∀ index, index < range.floor → bit range.keyPrefix index = false

theorem eq_of_bits (same : ∀ index, index < 64 → bit first index = bit second index) : first = second :=
  UInt64.toBitVec_inj.mp (BitVec.eq_of_getLsbD_eq same)

@[simp] theorem bit_and (first second index) : bit (first &&& second) index = (bit first index && bit second index) := by
  simp [bit]

@[simp] theorem bit_or (first second index) : bit (first ||| second) index = (bit first index || bit second index) := by
  simp [bit]

@[simp] theorem bit_zero (index) : bit 0 index = false := by simp [bit]

variable {index : Nat}

theorem bit_not (word) (inside : index < 64) : bit (~~~word) index = !bit word index := by simp [bit, inside]

theorem bit_shifted {amount : UInt8} (start) (positive : amount ≠ 0) (small : amount.toNat ≤ 64)
    (inside : index < 64) : bit (start <<< (64 - amount).toUInt64) index =
      (decide (64 - amount.toNat ≤ index) && bit start (index - (64 - amount.toNat))) := by
  have nonzero : amount.toNat ≠ 0 := fun zero => positive (UInt8.toNat_inj.mp zero)
  have shift : (18446744073709551616 - amount.toNat) % 64 = 64 - amount.toNat := by omega
  have low : (!decide (index < 64 - amount.toNat)) = decide (64 - amount.toNat ≤ index) := by
    rw [← decide_not, decide_eq_decide]
    omega
  have within : index - (64 - amount.toNat) < 64 := by omega
  simp [bit, inside, shift, low, BitVec.getLsbD_eq_getElem within]

variable {range : KeyRange}

theorem bit_mask (bits : range.prefixBits.toNat ≤ 64) (inside : index < 64) :
    bit range.mask index = decide (range.floor ≤ index) := by
  unfold mask floor
  split
  · next zero => simp [zero, bit, inside]
  · next positive =>
    have ones : ∀ position, position < 64 → bit 0xFFFFFFFFFFFFFFFF position = true := by decide
    rw [bit_shifted _ positive bits inside, ones _ (by omega), Bool.and_true]

theorem stray_eq_zero_iff (bits : range.prefixBits.toNat ≤ 64) :
    range.keyPrefix &&& ~~~range.mask = 0 ↔ ∀ index, index < range.floor → bit range.keyPrefix index = false := by
  have stray : ∀ index, index < 64 → bit (range.keyPrefix &&& ~~~range.mask) index
      = (bit range.keyPrefix index && !decide (range.floor ≤ index)) := by
    intro index inside
    rw [bit_and, bit_not _ inside, bit_mask bits inside]
  constructor
  · intro zero index low
    have inside : index < 64 := Nat.lt_of_lt_of_le low (Nat.sub_le _ _)
    simpa [zero, Nat.not_le.mpr low] using (stray index inside).symm
  · intro below
    refine eq_of_bits fun index inside => ?_
    rw [stray index inside, bit_zero]
    by_cases low : index < range.floor
    · rw [below index low, Bool.false_and]
    · simp [Nat.not_lt.mp low]

theorem validate_isOk_iff : range.validate.isOk = true ↔ range.Valid := by
  unfold validate
  split
  · next long =>
    refine ⟨fun accepted => (nomatch accepted), fun valid => absurd valid.bits ?_⟩
    exact Nat.not_le.mpr long
  · next short =>
    have bits : range.prefixBits.toNat ≤ 64 := Nat.le_of_not_lt short
    split
    · next outside =>
      exact ⟨fun accepted => (nomatch accepted), fun valid => absurd ((stray_eq_zero_iff bits).mpr valid.below) outside⟩
    · next inside => exact ⟨fun _ => ⟨bits, (stray_eq_zero_iff bits).mp (not_not.mp inside)⟩, fun _ => rfl⟩

/-- The mask test accepts exactly the hashes that agree with the prefix. -/
theorem contains_iff {keyHash} : range.contains keyHash = true ↔ range.Valid ∧ range.Routes keyHash := by
  simp only [contains, Bool.and_eq_true, validate_isOk_iff, Bool.or_eq_true, beq_iff_eq]
  refine and_congr_right fun valid => ?_
  have masked : ∀ index, index < 64 →
      bit (keyHash &&& range.mask) index = (bit keyHash index && decide (range.floor ≤ index)) := by
    intro index inside
    rw [bit_and, bit_mask valid.bits inside]
  constructor
  · rintro (zero | same) index high inside
    · have : range.floor = 64 := by simp [floor, zero]
      omega
    · simpa [same, high] using (masked index inside).symm
  · intro routes
    refine .inr (eq_of_bits fun index inside => ?_)
    rw [masked index inside]
    by_cases high : range.floor ≤ index
    · simp [high, routes index high inside]
    · simp [high, valid.below index (Nat.not_le.mp high)]

/-! ## Splitting -/

theorem full_contains (keyHash) : full.contains keyHash = true := rfl

section Children

variable {range left right : KeyRange}

theorem children_eq_ok (split : range.children = .ok (left, right)) : range.Valid ∧ range.prefixBits.toNat < 64
      ∧ left = { keyPrefix := range.keyPrefix, prefixBits := range.prefixBits + 1 }
      ∧ right = { keyPrefix := range.keyPrefix ||| 1 <<< (64 - (range.prefixBits + 1)).toUInt64,
                  prefixBits := range.prefixBits + 1 } := by
  unfold children at split
  cases checked : range.validate with
  | error error => simp [checked, bind, Except.bind] at split
  | ok passed =>
    have valid : range.Valid := validate_isOk_iff.mp (by rw [checked]; rfl)
    by_cases single : range.prefixBits = 64
    · simp [checked, single, bind, Except.bind] at split
    · simp only [checked, single, if_false, bind, Except.bind, pure, Except.pure, Except.ok.injEq, Prod.mk.injEq] at split
      have short : range.prefixBits.toNat ≠ 64 := fun same => single (UInt8.toNat_inj.mp same)
      exact ⟨valid, by have := valid.bits; omega, split.1.symm, split.2.symm⟩

/-- The bit a split decides on. -/
def splitIndex (range : KeyRange) : Nat := range.floor - 1

theorem childBits_toNat (short : range.prefixBits.toNat < 64) :
    (range.prefixBits + 1).toNat = range.prefixBits.toNat + 1 := by
  simp only [UInt8.toNat_add, UInt8.reduceToNat]
  omega

theorem bit_splitBit (short : range.prefixBits.toNat < 64) (inside : index < 64) :
    bit (1 <<< (64 - (range.prefixBits + 1)).toUInt64) index = decide (index = range.splitIndex) := by
  have one : ∀ position, position < 64 → bit 1 position = decide (position = 0) := by decide
  have bits := childBits_toNat short
  have positive : range.prefixBits + 1 ≠ 0 := fun zero => by simp [zero] at bits
  rw [bit_shifted _ positive (by omega) inside, one _ (by omega), ← Bool.decide_and, decide_eq_decide, splitIndex, floor]
  omega

theorem left_valid (split : range.children = .ok (left, right)) : left.Valid := by
  obtain ⟨valid, short, rfl, -⟩ := children_eq_ok split
  have bits := childBits_toNat short
  refine ⟨by simp only [bits]; omega, fun index low => valid.below index ?_⟩
  simp only [floor, bits] at low ⊢
  omega

theorem right_valid (split : range.children = .ok (left, right)) : right.Valid := by
  obtain ⟨valid, short, -, rfl⟩ := children_eq_ok split
  have bits := childBits_toNat short
  refine ⟨by simp only [bits]; omega, fun index low => ?_⟩
  simp only [floor, bits] at low
  rw [bit_or, bit_splitBit short (by omega), valid.below index (by rw [floor]; omega), Bool.false_or,
    decide_eq_false_iff_not, splitIndex, floor]
  omega

/-- A child's prefix fixes the parent's bits and the one the split decides on. -/
theorem routes_child {child : KeyRange} (short : range.prefixBits.toNat < 64)
    (bits : child.prefixBits = range.prefixBits + 1) (decides : bit child.keyPrefix range.splitIndex = decided)
    (keeps : ∀ index, range.floor ≤ index → index < 64 → bit child.keyPrefix index = bit range.keyPrefix index) :
    child.Routes keyHash ↔ range.Routes keyHash ∧ bit keyHash range.splitIndex = decided := by
  have childFloor : child.floor = range.splitIndex := by
    rw [floor, bits, childBits_toNat short, splitIndex, floor]
    omega
  have parentFloor : range.floor = range.splitIndex + 1 := by
    rw [splitIndex, floor]
    omega
  unfold Routes
  rw [childFloor]
  constructor
  · intro agrees
    refine ⟨fun index high inside => ?_, ?_⟩
    · rw [agrees index (by omega) inside, keeps index high inside]
    · rw [agrees _ (Nat.le_refl _) (by rw [splitIndex, floor]; omega), decides]
  · rintro ⟨agrees, chosen⟩ index high inside
    rcases Nat.lt_or_eq_of_le high with above | rfl
    · rw [agrees index (by omega) inside, keeps index (by omega) inside]
    · rw [chosen, decides]

section

variable (split : range.children = .ok (left, right))

include split

theorem left_routes : left.Routes keyHash ↔ range.Routes keyHash ∧ bit keyHash range.splitIndex = false := by
  obtain ⟨valid, short, rfl, -⟩ := children_eq_ok split
  exact routes_child short rfl (valid.below _ (by rw [splitIndex, floor]; omega)) fun _ _ _ => rfl

theorem right_routes : right.Routes keyHash ↔ range.Routes keyHash ∧ bit keyHash range.splitIndex = true := by
  obtain ⟨valid, short, -, rfl⟩ := children_eq_ok split
  refine routes_child short rfl ?_ fun index high inside => ?_
  · rw [bit_or, bit_splitBit short (by rw [splitIndex, floor]; omega)]
    simp
  · rw [bit_or, bit_splitBit short inside]
    have : index ≠ range.splitIndex := by rw [splitIndex]; rw [floor] at *; omega
    simp [this]

/-- The split bit decides between the children: the left one takes the hashes that have it clear. -/
theorem left_contains :
    left.contains keyHash = true ↔ range.contains keyHash = true ∧ bit keyHash range.splitIndex = false := by
  have valid := (children_eq_ok split).1
  simp only [contains_iff, left_routes split, valid, left_valid split, true_and]

theorem right_contains :
    right.contains keyHash = true ↔ range.contains keyHash = true ∧ bit keyHash range.splitIndex = true := by
  have valid := (children_eq_ok split).1
  simp only [contains_iff, right_routes split, valid, right_valid split, true_and]

end

end Children

end KeyRange

end VtopEngine.Log
