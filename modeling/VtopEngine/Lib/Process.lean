import Mathlib.Data.Set.Insert

/-! # Programs that ask their environment

A program that does I/O, as a tree: it is done, or it asks and goes on with whatever it
is answered.  What it may ask is a rule over the exchanges it has had, so that a program
is checked once against every environment.

* `Proc` — a program; `bind` runs one after another.
* `Proc.Obeys` — every request is allowed by what was heard before it, and what is known
  at the end meets a postcondition.
* `Proc.obeys_bind`, `Proc.Obeys.mono`, `Proc.Obeys.imp` — the rules of that judgement.
* `Keeps` — the same of a program that may stop early, with `keeps_bind`.
-/

namespace VtopEngine.Lib

variable {Request : Type} {Answer : Request → Type} {α β : Type}

inductive Proc (Request : Type) (Answer : Request → Type) (α : Type)
  | done (result : α)
  | ask (request : Request) (resume : Answer request → Proc Request Answer α)

/-- A request and its answer. -/
abbrev Exchange (Request : Type) (Answer : Request → Type) := (request : Request) × Answer request

namespace Proc

def bind : Proc Request Answer α → (α → Proc Request Answer β) → Proc Request Answer β
  | .done result, next => next result
  | .ask request resume, next => .ask request fun answer => (resume answer).bind next

instance : Monad (Proc Request Answer) where
  pure := .done
  bind := bind

/-- Ask once and return the answer. -/
def request (wanted : Request) : Proc Request Answer (Answer wanted) := .ask wanted .done

/-! ## Rules on what a program asks -/

/-- Every request is allowed by what is known then; the result and what is known at the end meet `post`. -/
def Obeys (rule : Set (Exchange Request Answer) → Request → Prop)
    (post : Set (Exchange Request Answer) → α → Prop) : Set (Exchange Request Answer) → Proc Request Answer α → Prop
  | known, .done result => post known result
  | known, .ask request resume =>
    rule known request ∧ ∀ answer, (resume answer).Obeys rule post (insert ⟨request, answer⟩ known)

variable {rule : Set (Exchange Request Answer) → Request → Prop}
  {post : Set (Exchange Request Answer) → α → Prop} {after : Set (Exchange Request Answer) → β → Prop}
  {known more : Set (Exchange Request Answer)} {program : Proc Request Answer α}

theorem obeys_bind (program : Proc Request Answer α) (next) : (program >>= next).Obeys rule after known ↔
      program.Obeys rule (fun known result => (next result).Obeys rule after known) known := by
  induction program generalizing known with
  | done result => rfl
  | ask wanted resume ih =>
    constructor
    · rintro ⟨allowed, rest⟩
      exact ⟨allowed, fun answer => (ih answer).mp (rest answer)⟩
    · rintro ⟨allowed, rest⟩
      exact ⟨allowed, fun answer => (ih answer).mpr (rest answer)⟩

/-- A rule that knowing more cannot break. -/
def Lasting (rule : Set (Exchange Request Answer) → α → Prop) : Prop :=
  ∀ ⦃known more⦄ subject, known ⊆ more → rule known subject → rule more subject

variable {weaker : Set (Exchange Request Answer) → α → Prop}

/-- What a program obeyed it obeys with more known, and for a weaker postcondition. -/
theorem Obeys.mono (lasting : Lasting rule)
    (implies : ∀ known more result, known ⊆ more → post known result → weaker more result)
    (obeys : program.Obeys rule post known) (subset : known ⊆ more) : program.Obeys rule weaker more := by
  induction program generalizing known more with
  | done result => exact implies known more result subset obeys
  | ask wanted resume ih =>
    refine ⟨lasting wanted subset obeys.1, fun answer => ?_⟩
    exact ih answer (obeys.2 answer) (Set.insert_subset_insert subset)

theorem Obeys.imp (obeys : program.Obeys rule post known)
    (implies : ∀ more result, known ⊆ more → post more result → weaker more result) :
    program.Obeys rule weaker known := by
  induction program generalizing known with
  | done result => exact implies known result Set.Subset.rfl obeys
  | ask wanted resume ih =>
    refine ⟨obeys.1, fun answer => ih answer (obeys.2 answer) fun more result subset => ?_⟩
    exact implies more result ((Set.subset_insert _ _).trans subset)

/-- What every round of a loop keeps, the loop keeps. -/
theorem obeys_foldlM {γ : Type} {round : α → γ → Proc Request Answer α} (items : List γ)
    (rounds : ∀ known acc item, item ∈ items → post known acc → (round acc item).Obeys rule post known)
    (start : α) (holds : post known start) : (items.foldlM round start).Obeys rule post known := by
  induction items generalizing known start with
  | nil => exact holds
  | cons item items ih =>
    rw [List.foldlM_cons, obeys_bind]
    have first := rounds known start item List.mem_cons_self holds
    refine first.imp fun more acc _ holds => ?_
    exact ih (fun known acc item member => rounds known acc item (List.mem_cons_of_mem _ member)) acc holds

end Proc

/-! ## Programs that may stop early -/

section Fallible

variable {ε : Type} {rule : Set (Exchange Request Answer) → Request → Prop}
  {post : Set (Exchange Request Answer) → α → Prop} {after : Set (Exchange Request Answer) → β → Prop}
  {known more : Set (Exchange Request Answer)}

/-- Ask once, in a program that may stop. -/
def asking (wanted : Request) : ExceptT ε (Proc Request Answer) (Answer wanted) := ExceptT.lift (Proc.request wanted)

/-- The program obeys the rule, and where it returns a value that value meets `post`; a stop need not. -/
def Keeps (rule : Set (Exchange Request Answer) → Request → Prop) (post : Set (Exchange Request Answer) → α → Prop)
    (known : Set (Exchange Request Answer)) (program : ExceptT ε (Proc Request Answer) α) : Prop :=
  program.run.Obeys rule (fun known result => ∀ value, result = .ok value → post known value) known

theorem keeps_pure (value) (holds : post known value) :
    Keeps rule post known (pure value : ExceptT ε (Proc Request Answer) α) := by
  rintro _ ⟨⟩
  exact holds

theorem keeps_throw (stop) : Keeps rule post known (throw stop : ExceptT ε (Proc Request Answer) α) := by rintro _ ⟨⟩

theorem keeps_bind {program : ExceptT ε (Proc Request Answer) α} {next : α → ExceptT ε (Proc Request Answer) β}
    (first : Keeps rule post known program)
    (rest : ∀ more value, known ⊆ more → post more value → Keeps rule after more (next value)) :
    Keeps rule after known (program >>= next) := by
  show Proc.Obeys rule _ known (program.run >>= fun result => ExceptT.bindCont next result)
  rw [Proc.obeys_bind]
  refine first.imp fun more result subset holds => ?_
  cases result with
  | ok value => exact rest more value subset (holds value rfl)
  | error stop => exact keeps_throw stop

/-- Ask, then go on with the answer. -/
theorem keeps_asking_bind (wanted : Request) {next : Answer wanted → ExceptT ε (Proc Request Answer) β}
    (allowed : rule known wanted)
    (rest : ∀ answer, Keeps rule after (insert ⟨wanted, answer⟩ known) (next answer)) :
    Keeps rule after known (asking wanted >>= next) :=
  ⟨allowed, rest⟩

theorem keeps_foldlM {γ : Type} {round : α → γ → ExceptT ε (Proc Request Answer) α} (items : List γ)
    (rounds : ∀ known acc item, item ∈ items → post known acc → Keeps rule post known (round acc item))
    (start : α) (holds : post known start) : Keeps rule post known (items.foldlM round start) := by
  induction items generalizing known start with
  | nil => exact keeps_pure start holds
  | cons item items ih =>
    rw [List.foldlM_cons]
    refine keeps_bind (rounds known start item List.mem_cons_self holds) fun more acc _ holds => ?_
    exact ih (fun known acc item member => rounds known acc item (List.mem_cons_of_mem _ member)) acc holds

/-- A program without stops of its own, inside one that may stop. -/
theorem keeps_lift {program : Proc Request Answer α} (obeys : program.Obeys rule post known) :
    Keeps rule post known (ExceptT.lift program : ExceptT ε (Proc Request Answer) α) := by
  show Proc.Obeys rule _ known (program >>= fun value => pure (Except.ok value))
  rw [Proc.obeys_bind]
  refine obeys.imp fun more value _ holds => ?_
  rintro _ ⟨⟩
  exact holds

end Fallible

end VtopEngine.Lib
