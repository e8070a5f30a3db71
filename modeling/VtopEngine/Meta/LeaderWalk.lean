import Mathlib.Data.Finset.Card
import VtopEngine.Meta.AdminAuthz

/-! # The admin client's walk to the leader

A request to the metadata group has to reach its leader (`admin.rs`).  The client asks its candidates one after
another, steered by the redirects it is answered with.

* `nextUnvisited`, `walk`, `roundTripIndexed` — the walk.
* `Refused` — the candidates that were asked in vain, and the error that is kept of them.
* `leader_walk` — no candidate is asked twice, the first answer that is no redirect is returned, and a request fails
  only after every candidate was asked, with a redirect for its error exactly if the last one answered.
-/

namespace VtopEngine.Meta

open List

namespace AdminClient

structure NotLeaderHint where
  leader : Option UInt64

structure AdminError where
  message : String
  notLeader : Option NotLeaderHint

/-- `Transport` is whatever keeps a candidate from being reached, written to or read from. -/
inductive TransportError
  | NotLeader (message : String) (leader : Option UInt64)
  | Protocol (message : String)
  | Transport (message : String)

/-- What an attempt may fail with; that a candidate is not the leader is an answer of its own. -/
inductive AttemptError
  | Protocol (message : String)
  | Transport (message : String)

def AttemptError.toTransportError : AttemptError → TransportError
  | Protocol message => .Protocol message
  | Transport message => .Transport message

structure AdminCandidate where
  nodeId : Option UInt64
  endpoint : String

end AdminClient

structure AdminClient where
  candidates : List AdminClient.AdminCandidate
  (preferred redirects : Nat)

namespace AdminClient

def KIND_ADMIN_ERROR : UInt16 := 14

variable (decode : List UInt8 → Except CodecError AdminError) (candidates : List AdminCandidate)

/-- The redirect an error frame carries; a frame that cannot be read is none. -/
def redirectOf (frame : VtpmFrame) : Option NotLeaderHint :=
  if frame.kind ≠ KIND_ADMIN_ERROR then none else (decode frame.payload).toOption.bind AdminError.notLeader

/-- The start if it has not been asked, else the next candidate in ring order that has not been. -/
def nextUnvisited (start : Nat) (visited : List Nat) : Option Nat :=
  ((range candidates.length).map fun offset => (start + offset) % candidates.length).find? (· ∉ visited)

def indexOf (leader : UInt64) : Option Nat := candidates.findIdx? (·.nodeId = some leader)

def notLeader (index : Nat) (hint : NotLeaderHint) : TransportError :=
  .NotLeader ((candidates[index]?.elim "" AdminCandidate.endpoint) ++ " is not the metadata leader" ++
      hint.leader.elim "; and knows of no leader" fun id => s!"; it named node {id}") hint.leader

theorem nextUnvisited_some
    (found : nextUnvisited candidates start visited = some current) : current < candidates.length ∧ current ∉ visited := by
  obtain ⟨offset, isOffset, rfl⟩ := mem_map.mp (mem_of_find?_eq_some found)
  exact ⟨Nat.mod_lt _ (Nat.zero_lt_of_lt (mem_range.mp isOffset)), by simpa using find?_some found⟩

/-- Around the ring every candidate is at some distance from the start. -/
theorem exists_offset {count} (below : index < count) (start : Nat) :
    ∃ offset < count, (start + offset) % count = index := by
  have remainder := Nat.mod_lt start (Nat.zero_lt_of_lt below)
  refine ⟨(index + (count - start % count)) % count, Nat.mod_lt _ (Nat.zero_lt_of_lt below), ?_⟩
  have whole : start % count + (index + (count - start % count)) = index + count := by omega
  rw [Nat.add_mod_mod, ← Nat.mod_add_mod, whole, Nat.add_mod_right, Nat.mod_eq_of_lt below]

theorem nextUnvisited_none (none : nextUnvisited candidates start visited = none)
    (isCandidate : index < candidates.length) : index ∈ visited := by
  obtain ⟨offset, inRange, reaches⟩ := exists_offset isCandidate start
  simpa using find?_eq_none.mp none index (mem_map.mpr ⟨offset, mem_range.mpr inRange, reaches⟩)

/-! ## The walk -/

/-- What a request comes to; the candidates it asked are listed from the latest on. -/
structure Walk where
  visited : List Nat
  redirects : Nat
  outcome : Except TransportError (Nat × VtpmFrame)

variable (attempt : List Nat → Nat → Except AttemptError VtpmFrame)

/-- How a candidate answers may depend on those that were asked before it. -/
def walk (index : Nat) (visited : List Nat) (redirects : Nat) (lastError : Option TransportError) : Walk :=
  match _found : nextUnvisited candidates index visited with
  | none => ⟨visited, redirects, .error (lastError.getD (.Protocol "no metadata endpoint could be reached"))⟩
  | some current =>
    match attempt visited current with
    | .error error => walk current (current :: visited) redirects (some error.toTransportError)
    | .ok frame =>
      match redirectOf decode frame with
      | none => ⟨current :: visited, redirects, .ok (current, frame)⟩
      | some hint =>
        let named := (hint.leader.bind (indexOf candidates)).filter (· ∉ current :: visited)
        walk (named.getD current) (current :: visited) (redirects + 1) (some (notLeader candidates current hint))
termination_by (Finset.range candidates.length \ visited.toFinset).card
decreasing_by
  all_goals
    obtain ⟨isCandidate, new⟩ := nextUnvisited_some candidates _found
    rw [toFinset_cons, Finset.sdiff_insert]
    exact Finset.card_erase_lt_of_mem (by simp [isCandidate, new])

/-- Who answered is asked first the next time. -/
def roundTripIndexed (client : AdminClient) : Walk × AdminClient :=
  let walk := walk decode client.candidates attempt (client.preferred % client.candidates.length) [] client.redirects none
  let preferred := walk.outcome.toOption.elim client.preferred Prod.fst
  (walk, { client with preferred, redirects := walk.redirects })

/-! ## What a walk comes to -/

/-- The error that is kept of an answer that is not returned. -/
def refusal (index : Nat) : Except AttemptError VtpmFrame → Option TransportError
  | .error error => some error.toTransportError
  | .ok frame => (redirectOf decode frame).map (notLeader candidates index)

/-- The candidates, from the latest on, were asked once each, and none gave an answer to return. -/
def Refused : List Nat → Prop
  | [] => True
  | index :: earlier =>
    (index ∉ earlier ∧ (refusal decode candidates index (attempt earlier index)).isSome) ∧ Refused earlier

/-- The error that is kept is that of the latest. -/
def kept : List Nat → Option TransportError
  | [] => none
  | index :: earlier => refusal decode candidates index (attempt earlier index)

structure Led (walk : Walk) : Prop where
  once : walk.visited.Nodup
  answered : ∀ index frame, walk.outcome = .ok (index, frame) → ∃ earlier, walk.visited = index :: earlier
    ∧ Refused decode candidates attempt earlier ∧ attempt earlier index = .ok frame ∧ redirectOf decode frame = none
  failed : ∀ error, walk.outcome = .error error → (∀ index < candidates.length, index ∈ walk.visited)
    ∧ Refused decode candidates attempt walk.visited ∧ ((∃ message leader, error = .NotLeader message leader) ↔
      ∃ index earlier frame, walk.visited = index :: earlier ∧ attempt earlier index = .ok frame)

variable {decode candidates attempt} {visited : List Nat} {last : Option TransportError}

theorem Refused.nodup (refused : Refused decode candidates attempt visited) : visited.Nodup := by
  induction visited with
  | nil => exact nodup_nil
  | cons index earlier ih => exact nodup_cons.mpr ⟨refused.1.1, ih refused.2⟩

/-- Of the candidate asked last the client keeps a redirect exactly if it answered. -/
theorem Refused.redirect_iff (refused : Refused decode candidates attempt visited) (other : String) :
    (∃ message leader, (kept decode candidates attempt visited).getD (.Protocol other) = .NotLeader message leader) ↔
      ∃ index earlier frame, visited = index :: earlier ∧ attempt earlier index = .ok frame := by
  cases visited with
  | nil => simp [kept]
  | cons index earlier =>
    obtain ⟨error, refuses⟩ := Option.isSome_iff_exists.mp refused.1.2
    rw [kept, refuses, Option.getD_some]
    cases answer : attempt earlier index with
    | error unreached =>
      rw [answer] at refuses
      obtain rfl := Option.some.inj refuses
      cases unreached <;> simp [AttemptError.toTransportError, answer]
    | ok frame =>
      rw [answer] at refuses
      obtain ⟨hint, -, rfl⟩ := Option.map_eq_some_iff.mp refuses
      exact ⟨fun _ => ⟨index, earlier, frame, rfl, answer⟩, fun _ => ⟨_, _, rfl⟩⟩

theorem walk_led (refused : Refused decode candidates attempt visited) (isLast : last = kept decode candidates attempt visited)
    (index redirects : Nat) : Led decode candidates attempt (walk decode candidates attempt index visited redirects last) := by
  fun_induction walk decode candidates attempt index visited redirects last with
  | case1 _ _ _ _ none =>
    refine ⟨refused.nodup, nofun, ?_⟩
    rintro _ ⟨⟩
    refine ⟨fun _ isCandidate => nextUnvisited_none candidates none isCandidate, refused, ?_⟩
    rw [isLast]
    exact refused.redirect_iff _
  | case2 _ _ _ _ _ found _ fails ih =>
    refine ih ⟨⟨(nextUnvisited_some candidates found).2, ?_⟩, refused⟩ ?_
    · rw [fails]
      rfl
    · rw [kept, fails, refusal]
  | case3 _ _ _ _ _ found _ answers final =>
    refine ⟨nodup_cons.mpr ⟨(nextUnvisited_some candidates found).2, refused.nodup⟩, ?_, nofun⟩
    rintro _ _ ⟨⟩
    exact ⟨_, rfl, refused, answers, final⟩
  | case4 _ _ _ _ _ found _ answers _ redirects _ ih =>
    refine ih ⟨⟨(nextUnvisited_some candidates found).2, ?_⟩, refused⟩ ?_
    · rw [answers, refusal, redirects]
      rfl
    · rw [kept, answers, refusal, redirects, Option.map_some]

theorem leader_walk (decode : List UInt8 → Except CodecError AdminError)
    (attempt : List Nat → Nat → Except AttemptError VtpmFrame) (client : AdminClient) :
    Led decode client.candidates attempt (client.roundTripIndexed decode attempt).1 :=
  @walk_led _ _ _ [] _ trivial rfl _ _

/-- The first candidate redirects to no one and the second cannot be reached. -/
def twoCandidates : AdminClient := ⟨[⟨some 1, "10.0.0.1:7400"⟩, ⟨some 2, "10.0.0.2:7400"⟩], 0, 0⟩

def redirectThenGone (visited : List Nat) (_ : Nat) : Except AttemptError VtpmFrame :=
  if visited = [] then .ok ⟨KIND_ADMIN_ERROR, []⟩ else .error (.Transport "connection refused")

theorem redirect_not_reported :
    let walk := (twoCandidates.roundTripIndexed (fun _ => .ok ⟨"", some ⟨none⟩⟩) redirectThenGone).1
    walk.redirects = 1 ∧ walk.outcome = .error (.Transport "connection refused") := by
  simp only [roundTripIndexed]
  rw [walk]
  show (walk _ _ _ 0 [0] 1 _).redirects = 1 ∧ (walk _ _ _ 0 [0] 1 _).outcome = _
  rw [walk]
  show (walk _ _ _ 1 [1, 0] 1 _).redirects = 1 ∧ (walk _ _ _ 1 [1, 0] 1 _).outcome = _
  rw [walk]
  exact ⟨rfl, rfl⟩

end AdminClient

end VtopEngine.Meta
