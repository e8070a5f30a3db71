import Mathlib.Tactic.Common

/-! # Runs of a labelled transition relation

* `Run` — a finite run, with the events along it in order.
* `Reachable` — the states a run from the initial state ends in.
* `Reachable.invariant` — what the initial state has and every step keeps holds
  of every reachable state; the step may use an invariant proved before.
* `Run.evolves` — what every step from a reachable state relates, reflexively and
  transitively, a whole run relates.
-/

namespace VtopEngine.Lib

variable {σ ε : Type}

/-- A run from `start`: the events along it, and the state it ends in. -/
inductive Run (Step : σ → ε → σ → Prop) (start : σ) : List ε → σ → Prop
  | nil : Run Step start [] start
  | snoc (earlier : Run Step start events middle)
      (step : Step middle event last) : Run Step start (events ++ [event]) last

def Reachable (Step : σ → ε → σ → Prop) (initial state : σ) : Prop := ∃ events, Run Step initial events state

variable {Step : σ → ε → σ → Prop} {initial start middle last : σ} {events later : List ε} {event : ε}

theorem Run.append (first : Run Step start events middle) (second : Run Step middle later last) :
    Run Step start (events ++ later) last := by
  induction second with
  | nil => simpa using first
  | snoc _ step ih =>
    rw [← List.append_assoc]
    exact .snoc ih step

theorem Run.single (step : Step start event last) : Run Step start [event] last := .snoc .nil step

theorem Reachable.refl : Reachable Step initial initial := ⟨[], .nil⟩

theorem Reachable.run (reached : Reachable Step initial start) (run : Run Step start events last) :
    Reachable Step initial last := by
  obtain ⟨earlier, first⟩ := reached
  exact ⟨earlier ++ events, first.append run⟩

theorem Reachable.step (reached : Reachable Step initial start) (step : Step start event last) :
    Reachable Step initial last :=
  reached.run (.single step)

/-- A deterministic system reaches what a list of events makes of a reachable state. -/
theorem Reachable.foldl (reached : Reachable (fun before event after => after = act before event) initial start)
    (events : List ε) : Reachable (fun before event after => after = act before event) initial (events.foldl act start) := by
  induction events generalizing start with
  | nil => exact reached
  | cons event events ih =>
    have stepped : Reachable (fun before event after => after = act before event) initial (act start event) :=
      reached.run (.single (show act start event = act start event from rfl))
    exact ih stepped

variable {act : σ → ε → Option σ}

/-- So does one whose steps may be refused. -/
theorem Reachable.foldlM_step {events : List ε} (accepted : events.foldlM act start = some last)
    (steps : ∀ before event after, event ∈ events → act before event = some after → Step before event after)
    (reached : Reachable Step initial start) : Reachable Step initial last := by
  induction events generalizing start with
  | nil =>
    obtain rfl : start = last := by simpa using accepted
    exact reached
  | cons event events ih =>
    obtain ⟨next, stepped, rest⟩ : ∃ next, act start event = some next ∧ events.foldlM act next = some last := by
      simpa [List.foldlM_cons, Option.bind_eq_some_iff] using accepted
    exact ih rest (fun before event after member => steps before event after (.tail _ member))
      (reached.step (steps start event next (.head _) stepped))

theorem Reachable.foldlM (reached : Reachable (fun before event after => act before event = some after) initial start)
    (events : List ε) (accepted : events.foldlM act start = some last) :
    Reachable (fun before event after => act before event = some after) initial last :=
  foldlM_step accepted (fun _ _ _ _ => id) reached

theorem Reachable.invariant (Inv : σ → Prop) (reached : Reachable Step initial last) (base : Inv initial)
    (keeps : ∀ state event next, Reachable Step initial state → Inv state → Step state event next → Inv next) :
    Inv last := by
  obtain ⟨events, run⟩ := reached
  induction run with
  | nil => exact base
  | snoc earlier step ih => exact keeps _ _ _ ⟨_, earlier⟩ ih step

theorem Run.evolves (Related : σ → σ → Prop) (run : Run Step start events last)
    (reached : Reachable Step initial start) (refl : ∀ state, Related state state)
    (trans : ∀ first second third, Related first second → Related second third → Related first third)
    (steps : ∀ state event next, Reachable Step initial state → Step state event next → Related state next) :
    Related start last := by
  induction run with
  | nil => exact refl _
  | snoc earlier step ih => exact trans _ _ _ ih (steps _ _ _ (reached.run earlier) step)

/-- A lookup of every item of a list, where each finds something. -/
theorem mapM_eq_some {α β : Type} {lookup : α → Option β} {items : List α} {found : List β}
    (isFound : items.mapM lookup = some found) : items.map lookup = found.map some := by
  induction items generalizing found with
  | nil =>
    obtain rfl : [] = found := Option.some.inj isFound
    rfl
  | cons item items ih =>
    simp only [List.mapM_cons, Option.bind_eq_bind, Option.bind_eq_some_iff, Option.pure_def, Option.some.injEq] at isFound
    obtain ⟨first, isFirst, rest, isRest, rfl⟩ := isFound
    simp [isFirst, ih isRest]

end VtopEngine.Lib
