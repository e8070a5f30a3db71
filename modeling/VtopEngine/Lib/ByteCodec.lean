import Mathlib.Tactic.Common
import Mathlib.Tactic.Ring

/-! # Big-endian bytes and byte parsers

What every hand-written codec with fixed-width big-endian integers rests on.

* `beBytes` / `ofBeBytes` — a number as that many big-endian bytes and back,
  inverse to each other, with the byte order equal to the numeric order.
* `Parser` — a parser over the bytes that remain, with `take` and `times`.
  Round trips are stated on `bytes ++ rest`, so that parsers compose: a parser
  run on its own encoding leaves exactly what followed it.
* `Parser.Yields` — what is true of everything a parser accepts.
-/

namespace VtopEngine.Lib

open List Nat

abbrev Bytes := List UInt8

/-- The `width` low bytes of `value`, most significant first. -/
def beBytes : Nat → Nat → Bytes
  | 0, _ => []
  | width + 1, value => UInt8.ofNat (value / 256 ^ width) :: beBytes width value

def ofBeBytes : Bytes → Nat
  | [] => 0
  | byte :: rest => byte.toNat * 256 ^ rest.length + ofBeBytes rest

@[simp] theorem length_beBytes (width value) : (beBytes width value).length = width := by
  induction width with
  | zero => rfl
  | succ width ih => simp [beBytes, ih]

theorem ofBeBytes_lt (bytes) : ofBeBytes bytes < 256 ^ bytes.length := by
  induction bytes with
  | nil => simp [ofBeBytes]
  | cons byte rest ih =>
    have small : byte.toNat + 1 ≤ 256 := byte.toNat_lt
    calc byte.toNat * 256 ^ rest.length + ofBeBytes rest
        < (byte.toNat + 1) * 256 ^ rest.length := by rw [succ_mul]; omega
      _ ≤ 256 * 256 ^ rest.length := mul_le_mul_right _ small
      _ = 256 ^ (rest.length + 1) := by ring

theorem ofBeBytes_beBytes (width value) : ofBeBytes (beBytes width value) = value % 256 ^ width := by
  induction width with
  | zero => simp [ofBeBytes, beBytes, mod_one]
  | succ width ih =>
    have lead : (UInt8.ofNat (value / 256 ^ width)).toNat = value / 256 ^ width % 256 := by simp
    rw [beBytes, ofBeBytes, length_beBytes, ih, lead, pow_succ, mod_mul, mul_comm, add_comm]

theorem beBytes_ofBeBytes_add (bytes : Bytes) (above) :
    beBytes bytes.length (above * 256 ^ bytes.length + ofBeBytes bytes) = bytes := by
  induction bytes generalizing above with
  | nil => rfl
  | cons byte rest ih =>
    have lead : (above * 256 ^ (rest.length + 1) + (byte.toNat * 256 ^ rest.length + ofBeBytes rest))
        = (above * 256 + byte.toNat) * 256 ^ rest.length + ofBeBytes rest := by ring
    simp only [length_cons, beBytes, ofBeBytes, lead, ih]
    rw [Nat.mul_comm, Nat.mul_add_div (Nat.pow_pos (by decide)), div_eq_of_lt (ofBeBytes_lt rest), add_zero]
    congr 1
    apply UInt8.toNat_inj.mp
    have := byte.toNat_lt
    simp only [UInt8.toNat_ofNat']
    omega

@[simp] theorem beBytes_ofBeBytes (bytes : Bytes) : beBytes bytes.length (ofBeBytes bytes) = bytes := by
  simpa using beBytes_ofBeBytes_add bytes 0

theorem beBytes_injOn (firstFits : first < 256 ^ width)
    (secondFits : second < 256 ^ width) (same : beBytes width first = beBytes width second) : first = second := by
  have values := congrArg ofBeBytes same
  rwa [ofBeBytes_beBytes, ofBeBytes_beBytes, mod_eq_of_lt firstFits, mod_eq_of_lt secondFits] at values

theorem compare_toNat (first second : UInt8) : compare first second = compare first.toNat second.toNat := by
  simp only [compare, compareOfLessAndEq, UInt8.lt_iff_toNat_lt, ← UInt8.toNat_inj]

theorem compare_add_left (base first second : Nat) : compare (base + first) (base + second) = compare first second := by
  simp [compare, compareOfLessAndEq]

/-- Lists of one length compare as the numbers they spell. -/
theorem compare_eq_compare_ofBeBytes : ∀ first second : Bytes, first.length = second.length →
      compare first second = compare (ofBeBytes first) (ofBeBytes second)
  | [], [], _ => by simp [ofBeBytes]
  | byte :: rest, byte' :: rest', sameLength => by
    have tails : rest.length = rest'.length := by simpa using sameLength
    have fits := ofBeBytes_lt rest
    have fits' := ofBeBytes_lt rest'
    rw [← tails] at fits'
    rw [List.compare_cons_cons, compare_eq_compare_ofBeBytes rest rest' tails, compare_toNat, ofBeBytes, ofBeBytes, ← tails]
    -- The lead byte outweighs everything after it.
    rcases lt_trichotomy byte.toNat byte'.toNat with smaller | same | larger
    · have scaled := mul_le_mul_right (256 ^ rest.length) (succ_le_of_lt smaller)
      rw [succ_mul] at scaled
      have less : byte.toNat * 256 ^ rest.length + ofBeBytes rest
          < byte'.toNat * 256 ^ rest.length + ofBeBytes rest' := by omega
      rw [Nat.compare_eq_lt.mpr smaller, Nat.compare_eq_lt.mpr less]
      rfl
    · rw [same, compare_add_left, Nat.compare_eq_eq.mpr rfl, Ordering.then]
    · have scaled := mul_le_mul_right (256 ^ rest.length) (succ_le_of_lt larger)
      rw [succ_mul] at scaled
      have more : byte'.toNat * 256 ^ rest.length + ofBeBytes rest'
          < byte.toNat * 256 ^ rest.length + ofBeBytes rest := by omega
      rw [Nat.compare_eq_gt.mpr larger, Nat.compare_eq_gt.mpr more]
      rfl

theorem compare_beBytes (firstFits : first < 256 ^ width) (secondFits : second < 256 ^ width) :
    compare (beBytes width first) (beBytes width second) = compare first second := by
  rw [compare_eq_compare_ofBeBytes _ _ (by simp), ofBeBytes_beBytes, ofBeBytes_beBytes,
    mod_eq_of_lt firstFits, mod_eq_of_lt secondFits]

theorem compare_append : ∀ {first second : Bytes} (_ : first.length = second.length) {rest rest' : Bytes},
    compare (first ++ rest) (second ++ rest') = (compare first second).then (compare rest rest')
  | [], [], _, _, _ => by simp
  | byte :: first, byte' :: second, sameLength, rest, rest' => by
    have tails : first.length = second.length := by simpa using sameLength
    rw [List.cons_append, List.cons_append, List.compare_cons_cons, List.compare_cons_cons,
      compare_append tails, Ordering.then_assoc]

theorem compare_then_ne_gt {first second : Nat} {rest : Ordering} :
    (compare first second).then rest ≠ .gt ↔ first < second ∨ first = second ∧ rest ≠ .gt := by
  rcases lt_trichotomy first second with smaller | rfl | larger
  · simp [Nat.compare_eq_lt.mpr smaller, smaller]
  · simp
  · simp [Nat.compare_eq_gt.mpr larger, Nat.lt_asymm larger, Nat.ne_of_gt larger]

/-! ## Parsers -/

abbrev Parser (ε α : Type) := StateT Bytes (Except ε) α

namespace Parser

variable {ε α β : Type}

def fail (error : ε) : Parser ε α := fun _ => .error error

def failIf (condition : Prop) [Decidable condition] (error : ε) : Parser ε Unit :=
  if condition then fail error else pure ()

def take (count : Nat) (error : ε) : Parser ε Bytes := fun bytes =>
  if bytes.length < count then .error error else .ok (bytes.take count, bytes.drop count)

def remaining : Parser ε Nat := fun bytes => .ok (bytes.length, bytes)

/-- The bounded loop `for _ in 0..count`. -/
def times (item : Parser ε α) : Nat → Parser ε (List α)
  | 0 => pure []
  | more + 1 => do
    let first ← item
    let rest ← times item more
    return first :: rest

variable {next : α → Except ε β} {value : α}

@[simp] theorem ok_bind : (Except.ok value >>= next) = next value := (rfl)

variable {error : ε}

@[simp] theorem error_bind :
    (Except.error error >>= next) = .error error := rfl

@[simp] theorem pure_eq_ok : (pure value : Except ε α) = .ok value := (rfl)

theorem bind_eq_ok {value} : (first >>= next) = .ok value ↔ ∃ seen, first = .ok seen ∧ next seen = .ok value := by
  cases first with
  | error error | ok seen => simp

variable {bytes : Bytes} {condition : Prop}

@[simp] theorem run_failIf [Decidable condition]
    (passes : ¬ condition) : (failIf condition error : Parser ε Unit).run bytes = .ok ((), bytes) := by
  rw [failIf, if_neg passes]
  rfl

theorem run_failIf_fails [Decidable condition] (holds : condition) :
    (failIf condition error : Parser ε Unit).run bytes = .error error := by
  rw [failIf, if_pos holds]
  rfl

@[simp] theorem run_remaining :
    (remaining : Parser ε Nat).run bytes = .ok (bytes.length, bytes) := rfl

@[simp] theorem take_append {count} {bytes rest : Bytes} (exact : bytes.length = count) :
    (take count error).run (bytes ++ rest) = .ok (bytes, rest) := by
  subst exact
  simp [take, StateT.run]

variable {item : Parser ε α}

theorem times_append (reads : ∀ value ∈ values, ∀ rest, item.run (encode value ++ rest) = .ok (value, rest)) :
    (times item values.length).run (values.flatMap encode ++ rest) = .ok (values, rest) := by
  induction values with
  | nil => rfl
  | cons value values ih =>
    have tail := ih fun other member => reads other (mem_cons_of_mem _ member)
    simp only [times, length_cons, StateT.run_bind, flatMap_cons, append_assoc,
      reads value mem_cons_self, tail, ok_bind, StateT.run_pure, pure_eq_ok]

/-- Everything the parser accepts is in `accepted`. -/
def Yields (parser : Parser ε α) (accepted : α → Prop) : Prop :=
  ∀ bytes value rest, parser.run bytes = .ok (value, rest) → accepted value

variable {accepted : β → Prop} {next : α → Parser ε β} {first : Parser ε α} {seen : α → Prop}

theorem yields_bind (reads : first.Yields seen) (continues : ∀ value, seen value → (next value).Yields accepted) :
    (first >>= next).Yields accepted := by
  intro bytes value rest ran
  rw [StateT.run_bind] at ran
  cases outcome : first.run bytes with
  | error error => simp [outcome] at ran
  | ok answer =>
    rw [outcome] at ran
    exact continues _ (reads _ _ _ outcome) _ _ _ ran

theorem yields_pure {accepted : α → Prop} (holds : accepted value) : (pure value : Parser ε α).Yields accepted := by
  intro _ _ _ ran
  cases ran
  exact holds

theorem yields_fail {accepted : α → Prop} : (fail error : Parser ε α).Yields accepted := fun _ _ _ ran => nomatch ran

theorem yields_failIf [Decidable condition] : (failIf condition error : Parser ε Unit).Yields fun _ => ¬ condition := by
  unfold failIf
  split
  · exact yields_fail
  · next passes => exact yields_pure passes

variable {parser : Parser ε α}

theorem yields_map (yields : parser.Yields fun value => accepted (change value)) : (change <$> parser).Yields accepted := by
  intro bytes value rest ran
  rw [StateT.run_map] at ran
  cases outcome : parser.run bytes with
  | error error => simp [outcome] at ran
  | ok answer =>
    rw [outcome] at ran
    cases ran
    exact yields _ _ _ outcome

theorem yields_take {count} : (take count error).Yields fun bytes => bytes.length = count := by
  intro bytes value rest ran
  simp only [take, StateT.run] at ran
  split at ran
  · cases ran
  · next enough =>
    cases ran
    rw [length_take, min_eq_left (not_lt.mp enough)]

theorem yields_times (reads : item.Yields seen) (count) :
    (times item count).Yields fun values => values.length = count ∧ ∀ value ∈ values, seen value := by
  induction count with
  | zero => exact yields_pure ⟨rfl, fun _ member => nomatch member⟩
  | succ count ih =>
    refine yields_bind reads fun value good => yields_bind ih ?_
    rintro values ⟨length, all⟩
    exact yields_pure ⟨by simp [length], forall_mem_cons.mpr ⟨good, all⟩⟩

theorem yields_true : parser.Yields fun _ => True := fun _ _ _ _ => trivial

/-- A step whose answer does not matter. -/
theorem yields_skip (continues : ∀ value, (next value).Yields accepted) : (first >>= next).Yields accepted :=
  yields_bind yields_true fun value _ => continues value

end Parser

end VtopEngine.Lib
