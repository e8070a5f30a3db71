import Mathlib.Tactic.Common

/-! # Transactions with early exits

A method that mutates its receiver and may return early is a function from the
state to an answer *and* the state it had reached when it returned.  A refusal
does not roll anything back: what was written before it stays written, so that
"a refused call changes nothing" is something to prove and not something the
model grants.

* `Abort` — the two ways out that are not an answer: a refusal and a panic.
* `Txn` — the monad, with `read`, `write`, `need`, `rejectIf`, `rejectSome`.
* `Txn.wp` — the states and answers a transaction can end in, with one rule for
  every primitive.
* `Unchanged` — the postcondition of a clean exit, with the same rules
  specialised to it: under it a guard costs nothing.
-/

namespace VtopEngine.Lib

/-- Why a transaction gave no answer. -/
inductive Abort (ε : Type)
  | rejected (error : ε)
  | panicked (message : String)
  deriving DecidableEq, Repr

/-- A transaction over `σ`: it answers an `α` or aborts, and in both cases
    leaves the state it had reached. -/
def Txn (σ ε α : Type) : Type := σ → Except (Abort ε) α × σ

namespace Txn

variable {σ ε α β : Type}

instance : Monad (Txn σ ε) where
  pure answer := fun state => (.ok answer, state)
  bind first next := fun state =>
    match first state with
    | (.ok answer, reached) => next answer reached
    | (.error abort, reached) => (.error abort, reached)

def reject (error : ε) : Txn σ ε α := fun state => (.error (.rejected error), state)

def unreachable (message : String) : Txn σ ε α := fun state => (.error (.panicked message), state)

def read (view : σ → α) : Txn σ ε α := fun state => (.ok (view state), state)

def write (change : σ → σ) : Txn σ ε Unit := fun state => (.ok (), change state)

/-- Read something that has to be there. -/
def need (view : σ → Option α) (error : ε) : Txn σ ε α := fun state =>
  match view state with
  | some answer => (.ok answer, state)
  | none => (.error (.rejected error), state)

def rejectIf (condition : Prop) [Decidable condition] (error : ε) : Txn σ ε Unit := fun state =>
  if condition then (.error (.rejected error), state) else (.ok (), state)

def rejectSome (refusal : Option ε) : Txn σ ε Unit := fun state =>
  match refusal with
  | some error => (.error (.rejected error), state)
  | none => (.ok (), state)

/-! ## Weakest preconditions -/

/-- Run from `state`, the transaction answers inside `post` or aborts inside `fail`. -/
def wp (txn : Txn σ ε α) (post : α → σ → Prop) (fail : Abort ε → σ → Prop) (state : σ) : Prop :=
  match txn state with
  | (.ok answer, reached) => post answer reached
  | (.error abort, reached) => fail abort reached

variable {post post' : α → σ → Prop} {postB : β → σ → Prop} {fail fail' : Abort ε → σ → Prop}
variable {state reached : σ}

variable {txn : Txn σ ε α} {answer : α}

theorem wp_ok (holds : txn.wp post fail state) (ran : txn state = (.ok answer, reached)) : post answer reached := by
  simpa only [wp, ran] using holds

theorem wp_error (holds : txn.wp post fail state) (ran : txn state = (.error abort, reached)) : fail abort reached := by
  simpa only [wp, ran] using holds

theorem wp_of_ok (ran : txn state = (.ok answer, reached)) (holds : post answer reached) : txn.wp post fail state := by
  simpa only [wp, ran] using holds

theorem wp_of_error (ran : txn state = (.error abort, reached)) (holds : fail abort reached) : txn.wp post fail state := by
  simpa only [wp, ran] using holds

theorem wp_mono (holds : txn.wp post fail state) (weaker : ∀ answer reached, post answer reached → post' answer reached)
    (weakerFail : ∀ abort reached, fail abort reached → fail' abort reached) :
    txn.wp post' fail' state := by
  unfold wp at holds ⊢
  split at holds
  · exact weaker _ _ holds
  · exact weakerFail _ _ holds

theorem wp_bind {first : Txn σ ε α} : (first >>= next).wp postB fail state ↔
      first.wp (fun answer reached => (next answer).wp postB fail reached) fail state := by
  change (match (match first state with
      | (.ok answer, reached) => next answer reached
      | (.error abort, reached) => (.error abort, reached)) with
    | (.ok answer, reached) => postB answer reached
    | (.error abort, reached) => fail abort reached) ↔ _
  unfold wp
  generalize first state = outcome
  obtain ⟨result, reached⟩ := outcome
  cases result <;> exact Iff.rfl

variable {error : ε} {view : σ → Option α}

theorem wp_need (found : ∀ answer, view state = some answer → post answer state)
    (missing : view state = none → fail (.rejected error) state) :
    (need view error : Txn σ ε α).wp post fail state := by
  unfold wp need
  cases seen : view state with
  | none => exact missing seen
  | some answer => exact found answer seen

variable {condition : Prop}

theorem wp_rejectIf [Decidable condition] {post : Unit → σ → Prop}
    (passes : ¬ condition → post () state) (refused : condition → fail (.rejected error) state) :
    (rejectIf condition error : Txn σ ε Unit).wp post fail state := by
  unfold wp rejectIf
  by_cases holds : condition
  · simpa only [if_pos holds] using refused holds
  · simpa only [if_neg holds] using passes holds

variable {refusal : Option ε}

theorem wp_rejectSome {post : Unit → σ → Prop} (passes : refusal = none → post () state)
    (refused : ∀ error, refusal = some error → fail (.rejected error) state) :
    (rejectSome refusal : Txn σ ε Unit).wp post fail state := by
  unfold wp rejectSome
  cases refusal with
  | none => exact passes rfl
  | some error => exact refused error rfl

theorem wp_read_bind {view : σ → α} {next : α → Txn σ ε β} (holds : (next (view state)).wp postB fail state) :
    (read view >>= next).wp postB fail state := holds

variable {next : Unit → Txn σ ε β}

theorem wp_write_bind (holds : (next ()).wp postB fail (change state)) :
    (write change >>= next).wp postB fail state := holds

theorem need_bind {next} (refused : fail (.rejected error) state)
    (found : ∀ answer, view state = some answer → (next answer).wp postB fail state) :
    (need view error >>= next).wp postB fail state :=
  wp_bind.mpr (wp_need found fun _ => refused)

theorem rejectIf_bind [Decidable condition] (refused : condition → fail (.rejected error) state)
    (passes : ¬ condition → (next ()).wp postB fail state) :
    (rejectIf condition error >>= next).wp postB fail state :=
  wp_bind.mpr (wp_rejectIf passes refused)

theorem rejectSome_bind (refused : ∀ error, refusal = some error → fail (.rejected error) state)
    (passes : refusal = none → (next ()).wp postB fail state) :
    (rejectSome refusal >>= next).wp postB fail state :=
  wp_bind.mpr (wp_rejectSome passes refused)

/-- The same rules forwards, for a step whose outcome is known. -/
theorem need_found {next} (found : view state = some answer) (holds : (next answer).wp postB fail state) :
    (need view error >>= next).wp postB fail state := by
  refine wp_bind.mpr (wp_need (fun seen same => ?_) fun missing => ?_)
  · rw [found] at same
    cases same
    exact holds
  · simp [found] at missing

theorem rejectIf_passes [Decidable condition] (passes : ¬ condition) (holds : (next ()).wp postB fail state) :
    (rejectIf condition error >>= next).wp postB fail state :=
  rejectIf_bind (fun refused => absurd refused passes) fun _ => holds

theorem rejectSome_passes (passes : refusal = none)
    (holds : (next ()).wp postB fail state) : (rejectSome refusal >>= next).wp postB fail state :=
  rejectSome_bind (fun error refused => by simp [passes] at refused) fun _ => holds

/-- The transaction is refused, and leaves exactly `reached`. -/
def RejectsAt (txn : Txn σ ε α) (state reached : σ) : Prop :=
  txn.wp (fun _ _ => False) (fun abort state' => (∃ error, abort = .rejected error) ∧ state' = reached) state

theorem RejectsAt.run (rejects : txn.RejectsAt state reached) :
    ∃ error, txn state = (.error (.rejected error), reached) := by
  unfold RejectsAt wp at rejects
  split at rejects
  · exact rejects.elim
  · next abort state' ran =>
    obtain ⟨⟨error, rfl⟩, rfl⟩ := rejects
    exact ⟨error, ran⟩

/-! ## Clean exits -/

/-- The exit left the state as it was, and a panic happens only in a `broken` one. -/
def Unchanged (state : σ) (broken : Prop) (abort : Abort ε) (reached : σ) : Prop :=
  reached = state ∧ ∀ message, abort = .panicked message → broken

variable {broken : Prop}

theorem unchanged_rejected : Unchanged state broken (.rejected error) state := ⟨rfl, fun _ impossible => nomatch impossible⟩

theorem unchanged_panicked (cause : broken) : Unchanged (ε := ε) state broken (.panicked message) state :=
  ⟨rfl, fun _ _ => cause⟩

/-- A step that only reads and checks, followed by the rest. -/
theorem check_keeps {first : Txn σ ε α} {next} {checked : α → Prop}
    (checks : first.wp (fun answer reached => reached = state ∧ checked answer) (Unchanged state broken) state)
    (continues : ∀ answer, checked answer → (next answer).wp postB (Unchanged state broken) state) :
    (first >>= next).wp postB (Unchanged state broken) state := by
  refine wp_bind.mpr (wp_mono checks ?_ fun _ _ exits => exits)
  rintro answer _ ⟨rfl, holds⟩
  exact continues answer holds

theorem need_keeps {next} (found : ∀ answer, view state = some answer →
      (next answer).wp postB (Unchanged state broken) state) :
    (need view error >>= next).wp postB (Unchanged state broken) state :=
  need_bind unchanged_rejected found

theorem rejectIf_keeps [Decidable condition] (passes : ¬ condition → (next ()).wp postB (Unchanged state broken) state) :
    (rejectIf condition error >>= next).wp postB (Unchanged state broken) state :=
  rejectIf_bind (fun _ => unchanged_rejected) passes

theorem rejectSome_keeps (passes : refusal = none → (next ()).wp postB (Unchanged state broken) state) :
    (rejectSome refusal >>= next).wp postB (Unchanged state broken) state :=
  wp_bind.mpr (wp_rejectSome passes fun _ _ => unchanged_rejected)

theorem reject_keeps : (reject error : Txn σ ε α).wp post (Unchanged state broken) state := unchanged_rejected

end Txn

end VtopEngine.Lib
