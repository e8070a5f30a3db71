import VtopEngine.Lib.ByteCodec

/-! # Canonical parsers

A parser undoes a writer when it reads back what was written; it is canonical when
nothing else is read.  Two notions carry the second direction through a parser.

* `Parser.Reads` — the parser accepts exactly one spelling of each accepted value.
* `Parser.Spells` — behind the bytes already read, whatever the parser accepts is
  what the writer writes.  The bytes read so far are a parameter, so a parser is
  taken apart step by step until the writer's own bytes stand there.
-/

namespace VtopEngine.Lib

namespace Parser

variable {ε ε' α β : Type}

/-- The parser accepts the values in `accepted`, each from the one spelling `write` gives it. -/
def Reads (parser : Parser ε α) (accepted : α → Prop) (write : α → Bytes) : Prop :=
  ∀ bytes value rest, parser.run bytes = .ok (value, rest) ↔ accepted value ∧ bytes = write value ++ rest

/-- With `before` already read, every value the parser accepts is one whose writing is what was read. -/
def Spells (parser : Parser ε α) (before : Bytes) (write : α → Except ε' Bytes) : Prop :=
  ∀ bytes value rest, parser.run bytes = .ok (value, rest) →
    ∃ whole, write value = .ok whole ∧ before ++ bytes = whole ++ rest

variable {next : α → Parser ε β} {first : Parser ε α} {error : ε}

section Spelling

variable {before : Bytes}

variable {write : α → Except ε' Bytes}

@[simp] theorem spells_pure : (pure value : Parser ε α).Spells before write ↔ write value = .ok before := by
  constructor
  · intro spells
    obtain ⟨whole, written, same⟩ := spells [] value [] rfl
    rw [List.append_nil, List.append_nil] at same
    rw [written, same]
  · rintro written bytes _ _ ⟨⟩
    exact ⟨before, written, rfl⟩

@[simp] theorem spells_fail : (fail error : Parser ε α).Spells before write := fun _ _ _ ran => nomatch ran

/-- A step that reads one spelling adds it to what has been read. -/
theorem Reads.spells_bind {accepted : α → Prop} {put : α → Bytes}
    (reads : first.Reads accepted put) {write : β → Except ε' Bytes} :
    (first >>= next).Spells before write ↔ ∀ value, accepted value → (next value).Spells (before ++ put value) write := by
  constructor
  · intro spells value good bytes answer rest ran
    have whole : (first >>= next).run (put value ++ bytes) = .ok (answer, rest) := by
      rw [StateT.run_bind, (reads _ value bytes).mpr ⟨good, rfl⟩]
      exact ran
    simpa using spells _ _ _ whole
  · intro continues bytes answer rest ran
    rw [StateT.run_bind] at ran
    obtain ⟨⟨value, behind⟩, read, continued⟩ := bind_eq_ok.mp ran
    obtain ⟨good, same⟩ := (reads _ _ _).mp read
    simpa [same] using continues value good behind answer rest continued

@[simp] theorem spells_failIf_bind {condition : Prop} [Decidable condition] {next : Unit → Parser ε β}
    {write : β → Except ε' Bytes} :
    (failIf condition error >>= next).Spells before write ↔ (¬ condition → (next ()).Spells before write) := by
  by_cases holds : condition
  · simp only [holds, not_true, false_implies, iff_true]
    intro bytes value rest ran
    rw [StateT.run_bind, run_failIf_fails holds] at ran
    cases ran
  · have passes : (failIf condition error >>= next) = next () := by rw [failIf, if_neg holds, pure_bind]
    rw [passes, imp_iff_right holds]

/-- Looking at how much remains reads nothing. -/
theorem spells_remaining_bind {next : Nat → Parser ε β} {write : β → Except ε' Bytes}
    (continues : ∀ count, (next count).Spells before write) : (remaining >>= next).Spells before write :=
  fun bytes value rest ran => continues bytes.length bytes value rest ran

/-- A parser that spells its values spells them behind a tag too. -/
theorem Spells.tagged {parser : Parser ε α} (spells : parser.Spells [] write) {change : α → β} {encode : β → Except ε' Bytes}
    (tags : ∀ value, encode (change value) = (do return before ++ (← write value))) :
    (change <$> parser).Spells before encode := by
  intro bytes value rest ran
  rw [StateT.run_map] at ran
  cases outcome : parser.run bytes with
  | error error => simp [outcome] at ran
  | ok answer =>
    rw [outcome] at ran
    cases ran
    obtain ⟨whole, written, same⟩ := spells _ _ _ outcome
    exact ⟨before ++ whole, by rw [tags, written]; rfl, by rw [List.append_assoc, ← same, List.nil_append]⟩

end Spelling

variable {accepted : α → Prop} {put : α → Bytes} {parser : Parser ε α}

/-- The two directions of a codec together. -/
theorem Reads.mk (yields : parser.Yields accepted)
    (undoes : ∀ value, accepted value → ∀ rest, parser.run (put value ++ rest) = .ok (value, rest))
    (spells : parser.Spells [] fun value => (.ok (put value) : Except ε Bytes)) : parser.Reads accepted put := by
  intro bytes value rest
  constructor
  · intro ran
    obtain ⟨whole, ⟨⟩, same⟩ := spells _ _ _ ran
    exact ⟨yields _ _ _ ran, same⟩
  · rintro ⟨good, rfl⟩
    exact undoes value good rest

/-- A parser that only judges what was read before reads no bytes. -/
theorem Reads.of_pure (yields : parser.Yields accepted)
    (judges : ∀ value, accepted value → parser = pure value) : parser.Reads accepted fun _ => [] := by
  intro bytes value rest
  constructor
  · intro ran
    have good := yields _ _ _ ran
    rw [judges value good] at ran
    cases ran
    exact ⟨good, rfl⟩
  · rintro ⟨good, rfl⟩
    rw [judges value good]
    rfl

/-- A part whose writer may refuse: behind it stands what its writer wrote. -/
theorem Spells.bind {put : α → Except ε' Bytes} (spells : first.Spells [] put) {before : Bytes} {write : β → Except ε' Bytes}
    (continues : ∀ value bytes, put value = .ok bytes → (next value).Spells (before ++ bytes) write) :
    (first >>= next).Spells before write := by
  intro bytes answer rest ran
  rw [StateT.run_bind] at ran
  obtain ⟨⟨value, behind⟩, read, continued⟩ := bind_eq_ok.mp ran
  obtain ⟨part, written, same⟩ := spells _ _ _ read
  obtain ⟨whole, wrote, spelled⟩ := continues value part written behind answer rest continued
  refine ⟨whole, wrote, ?_⟩
  rw [← spelled, List.append_assoc, ← same, List.nil_append]

variable {count : Nat}

theorem reads_take : (take count error).Reads (fun bytes => bytes.length = count) id := by
  intro bytes value rest
  constructor
  · intro ran
    refine ⟨yields_take _ _ _ ran, ?_⟩
    simp only [take, StateT.run] at ran
    split at ran
    · cases ran
    · cases ran
      exact (List.take_append_drop count bytes).symm
  · rintro ⟨length, rfl⟩
    exact take_append length

/-- A reader of `count` bytes that reads the value they spell. -/
theorem Reads.map_take {value : Bytes → α}
    (length : ∀ content, (put content).length = count) (undoes : ∀ content, value (put content) = content)
    (spells : ∀ bytes, bytes.length = count → put (value bytes) = bytes) :
    (do return value (← take count error) : Parser ε α).Reads (fun _ => True) put := by
  refine Reads.mk yields_true (fun content _ rest => ?_) (reads_take.spells_bind.mpr fun bytes exact => ?_)
  · simp [length, undoes]
  · rw [spells_pure, spells bytes exact]
    rfl

theorem Reads.times {item : Parser ε α} (reads : item.Reads accepted put) (count) :
    (times item count).Reads (fun values => values.length = count ∧ ∀ value ∈ values, accepted value)
      (List.flatMap put) := by
  induction count with
  | zero =>
    intro bytes values rest
    constructor
    · rintro ⟨⟩
      simp
    · rintro ⟨⟨length, -⟩, rfl⟩
      rw [List.length_eq_zero_iff.mp length]
      rfl
  | succ count ih =>
    have accepts : item.Yields accepted := fun _ _ _ ran => ((reads _ _ _).mp ran).1
    refine Reads.mk (yields_times accepts _) (fun values good rest => ?_) ?_
    · rw [← good.1]
      exact times_append fun value member rest => (reads _ _ _).mpr ⟨good.2 value member, rfl⟩
    · refine reads.spells_bind.mpr fun first _ => ih.spells_bind.mpr fun values _ => ?_
      simp

end Parser

/-- A codec with one encoding for each valid value: what decodes is valid and encodes to the bytes it came
from, and a valid value is read back from its encoding. -/
structure CanonicalCodec {ε α : Type} (valid : α → Prop) (encode : α → Except ε Bytes)
    (decode : Bytes → Except ε α) : Prop where
  valid_of_decode : ∀ {bytes value}, decode bytes = .ok value → valid value
  encode_of_decode : ∀ {bytes value}, decode bytes = .ok value → encode value = .ok bytes
  decode_of_valid : ∀ {value}, valid value → ∃ bytes, encode value = .ok bytes ∧ decode bytes = .ok value

end VtopEngine.Lib
