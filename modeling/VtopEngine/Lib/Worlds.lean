import VtopEngine.Lib.Process

/-! # Programs in a world

A program that asks, run against a world that answers and changes.  A run may end before any
request: what is left then is a world after a crash.

* `Proc.Runs` — the runs of a program, with what it returned if it was not cut short.
* `Ensures` — a program keeps an invariant at every point where it can be cut short, and its
  result meets a postcondition; `Ensures.sound` says that of runs.
* `Returns` — the same of a program that may stop early, with `returns_bind` and `returns_foldlM`.
* `Proc.runFor` — a run against a world that answers by a function, cut short after so many requests.
-/

namespace VtopEngine.Lib

variable {Request : Type} {Answer : Request → Type} {World α β : Type}

/-- The runs of a program: cut short, done, or a request served and the rest. -/
inductive Proc.Runs (Serves : World → (request : Request) → Answer request → World → Prop) :
    World → Proc Request Answer α → Option α → World → Prop
  | crash (world : World) (program : Proc Request Answer α) : Runs Serves world program none world
  | done (world : World) (result : α) : Runs Serves world (.done result) (some result) world
  | ask {world middle last : World} {request : Request} {answer : Answer request}
      {resume : Answer request → Proc Request Answer α} {out : Option α} (served : Serves world request answer middle)
      (rest : Runs Serves middle (resume answer) out last) : Runs Serves world (.ask request resume) out last

section Judgement

variable {Serves : World → (request : Request) → Answer request → World → Prop} {always : World → Prop}
  {post : α → World → Prop} {after : β → World → Prop} {world : World} {program : Proc Request Answer α}

/-- Whatever the world answers, `always` holds at every point, and `post` of the result at the end. -/
def Ensures (Serves : World → (request : Request) → Answer request → World → Prop) (always : World → Prop)
    (post : α → World → Prop) : World → Proc Request Answer α → Prop
  | world, .done result => always world ∧ post result world
  | world, .ask request resume =>
    always world ∧ ∀ answer next, Serves world request answer next → Ensures Serves always post next (resume answer)

theorem Ensures.now (ensures : Ensures Serves always post world program) : always world := by
  cases program with
  | done result | ask request resume => exact ensures.1

theorem Ensures.sound (ensures : Ensures Serves always post world program)
    (runs : program.Runs Serves world out last) : always last ∧ ∀ result ∈ out, post result last := by
  induction runs with
  | crash world program => exact ⟨ensures.now, by simp⟩
  | done world result =>
    refine ⟨ensures.1, fun returned isReturned => ?_⟩
    obtain rfl := Option.some.inj isReturned
    exact ensures.2
  | ask served _ ih => exact ih (ensures.2 _ _ served)

theorem ensures_bind
    (first : Ensures Serves always (fun value world => Ensures Serves always after world (next value)) world program) :
    Ensures Serves always after world (program >>= next) := by
  induction program generalizing world with
  | done result => exact first.2
  | ask request resume ih => exact ⟨first.1, fun answer middle served => ih answer (first.2 answer middle served)⟩

/-- What every served request relates, and every run of them. -/
structure Tracks (Serves : World → (request : Request) → Answer request → World → Prop) (Evolves : World → World → Prop) :
    Prop where
  refl : ∀ world, Evolves world world
  trans : ∀ {first second third}, Evolves first second → Evolves second third → Evolves first third
  serves : ∀ {world request answer next}, Serves world request answer next → Evolves world next

theorem Tracks.any : Tracks Serves fun _ _ => True := ⟨fun _ => trivial, fun _ _ => trivial, fun _ => trivial⟩

/-- A postcondition may be weakened by what every served request relates. -/
theorem Ensures.imp {weaker : α → World → Prop} {Evolves : World → World → Prop}
    (ensures : Ensures Serves always post world program) (tracks : Tracks Serves Evolves)
    (implies : ∀ value next, Evolves world next → always next → post value next → weaker value next) :
    Ensures Serves always weaker world program := by
  induction program generalizing world with
  | done result => exact ⟨ensures.1, implies result world (tracks.refl world) ensures.1 ensures.2⟩
  | ask request resume ih =>
    refine ⟨ensures.1, fun answer next served => ih answer (ensures.2 answer next served) ?_⟩
    exact fun value last evolves holds isPost => implies value last (tracks.trans (tracks.serves served) evolves) holds isPost

end Judgement

/-! ## Programs that may stop early -/

section Fallible

variable {ε γ : Type} {Serves : World → (request : Request) → Answer request → World → Prop} {always : World → Prop}
  {post : α → World → Prop} {after : β → World → Prop} {world : World}

/-- `always` holds at every point, and `post` of a value that is returned; a stop need not meet it. -/
def Returns (Serves : World → (request : Request) → Answer request → World → Prop) (always : World → Prop)
    (post : α → World → Prop) (world : World) (program : ExceptT ε (Proc Request Answer) α) : Prop :=
  Ensures Serves always (fun result world => ∀ value, result = .ok value → post value world) world program.run

variable {program : ExceptT ε (Proc Request Answer) α}

theorem Returns.sound (returns : Returns Serves always post world program) (runs : program.run.Runs Serves world out last) :
    always last ∧ ∀ value, some (Except.ok value) = out → post value last := by
  obtain ⟨holds, results⟩ := Ensures.sound returns runs
  exact ⟨holds, fun value isOk => results _ isOk.symm value rfl⟩

theorem returns_pure (holds : always world) (isPost : post value world) :
    Returns Serves always post world (pure value : ExceptT ε (Proc Request Answer) α) := by
  refine ⟨holds, ?_⟩
  rintro _ ⟨⟩
  exact isPost

theorem returns_throw (holds : always world) :
    Returns Serves always post world (throw stop : ExceptT ε (Proc Request Answer) α) := by
  refine ⟨holds, ?_⟩
  rintro _ ⟨⟩

/-- Ask, then go on with the answer. -/
theorem returns_asking_bind {request : Request} {next : Answer request → ExceptT ε (Proc Request Answer) β}
    (holds : always world)
    (rest : ∀ answer middle, Serves world request answer middle → Returns Serves always after middle (next answer)) :
    Returns Serves always after world (asking request >>= next) :=
  ⟨holds, rest⟩

variable {Evolves : World → World → Prop}

theorem returns_bind (tracks : Tracks Serves Evolves) (first : Returns Serves always post world program)
    (rest : ∀ value middle, Evolves world middle → always middle → post value middle →
      Returns Serves always after middle (next value)) : Returns Serves always after world (program >>= next) := by
  show Ensures Serves always _ world (program.run >>= fun result => ExceptT.bindCont next result)
  refine ensures_bind (first.imp tracks fun result middle evolves holds isPost => ?_)
  cases result with
  | ok value => exact rest value middle evolves holds (isPost value rfl)
  | error stop => exact returns_throw holds

/-- A postcondition may be weakened by what every served request relates. -/
theorem Returns.imp {weaker : α → World → Prop} (returns : Returns Serves always post world program)
    (tracks : Tracks Serves Evolves)
    (implies : ∀ value next, Evolves world next → always next → post value next → weaker value next) :
    Returns Serves always weaker world program :=
  Ensures.imp returns tracks fun _ next evolves holds isPost value isOk =>
    implies value next evolves holds (isPost value isOk)

/-- A program without stops of its own, inside one that may stop. -/
theorem returns_lift {program} (ensures : Ensures Serves always post world program) :
    Returns Serves always post world (ExceptT.lift program : ExceptT ε (Proc Request Answer) α) := by
  show Ensures Serves always _ world (program >>= fun value => pure (Except.ok value))
  refine ensures_bind (ensures.imp .any fun value next _ holds isPost => ?_)
  exact returns_pure holds isPost

/-- Another error in place of the program's own. -/
theorem returns_catch (returns : Returns Serves always post world program) :
    Returns Serves always post world (tryCatch program fun _ => throw stop) := by
  show Ensures Serves always _ world (program.run >>= _)
  refine ensures_bind (Ensures.imp returns .any fun result next _ holds isPost => ?_)
  cases result with
  | ok value => exact returns_pure holds (isPost value rfl)
  | error error => exact returns_throw holds

/-- What every round of a loop keeps, the loop keeps. -/
theorem returns_foldlM {round : α → γ → ExceptT ε (Proc Request Answer) α} (items : List γ) {inv : List γ → α → World → Prop}
    (rounds : ∀ item rest acc world, always world → inv (item :: rest) acc world →
      Returns Serves always (inv rest) world (round acc item))
    {start : α} (holds : always world) (isInv : inv items start world) :
    Returns Serves always (inv []) world (items.foldlM round start) := by
  induction items generalizing world start with
  | nil => exact returns_pure holds isInv
  | cons item items ih =>
    rw [List.foldlM_cons]
    refine returns_bind .any (rounds item items start world holds isInv) ?_
    exact fun acc middle _ holds isInv => ih holds isInv

end Fallible

/-! ## Runs against a world that answers by a function -/

/-- The run that is cut short after so many requests, if it is not done before. -/
def Proc.runFor (serve : World → (request : Request) → Answer request × World) :
    Nat → World → Proc Request Answer α → Option α × World
  | _, world, .done result => (some result, world)
  | 0, world, .ask _ _ => (none, world)
  | budget + 1, world, .ask request resume =>
    runFor serve budget (serve world request).2 (resume (serve world request).1)

theorem Proc.runs_runFor {Serves : World → (request : Request) → Answer request → World → Prop}
    (serves : ∀ world request, Serves world request (serve world request).1 (serve world request).2) (budget world)
    (program : Proc Request Answer α) :
    program.Runs Serves world (runFor serve budget world program).1 (runFor serve budget world program).2 := by
  induction budget generalizing world program with
  | zero =>
    cases program with
    | done result => exact .done world result
    | ask request resume => exact .crash world _
  | succ budget ih =>
    cases program with
    | done result => exact .done world result
    | ask request resume => exact .ask (serves world request) (ih _ _)

end VtopEngine.Lib
