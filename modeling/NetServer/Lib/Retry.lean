import Mathlib.Data.Nat.Find
import Mathlib.Tactic.Common

/-!
# Loops over a stream of outcomes

A loop that makes a call in each pass and decides by the outcome of the call whether it goes on. The
outcomes come from an infinite stream, so nothing makes the loop end by itself. Its state while it
goes on is often known in advance; then it returns exactly when some outcome makes it stop.
-/

namespace NetServer.Lib

variable {σ α ρ : Type}

/-- The state of a loop behind some calls, or the result it has returned. -/
def attempts (step : σ → α → σ ⊕ ρ) (stream : Nat → α) (start : σ) : Nat → σ ⊕ ρ
  | 0 => .inl start
  | calls + 1 =>
    match attempts step stream start calls with
    | .inl state => step state (stream calls)
    | .inr result => .inr result

/-- A loop returns a result after finitely many calls. -/
def ReturnsWith (step : σ → α → σ ⊕ ρ) (stream : Nat → α) (start : σ) (result : ρ) : Prop :=
  ∃ calls, attempts step stream start calls = .inr result

/-- A loop returns after finitely many calls. -/
def Returns (step : σ → α → σ ⊕ ρ) (stream : Nat → α) (start : σ) : Prop :=
  ∃ result, ReturnsWith step stream start result

variable {step : σ → α → σ ⊕ ρ} {stream : Nat → α} {start : σ}

/-- A loop keeps its result. -/
theorem attempts_mono {calls later : Nat} {result : ρ}
    (returned : attempts step stream start calls = .inr result) (behind : calls ≤ later) :
    attempts step stream start later = .inr result := by
  obtain ⟨more, rfl⟩ := Nat.exists_eq_add_of_le behind
  induction more with
  | zero => exact returned
  | succ more ih => rw [← Nat.add_assoc, attempts, ih (Nat.le_add_right calls more)]

/-- A loop has one result. -/
theorem ReturnsWith.unique {one other : ρ} (isOne : ReturnsWith step stream start one)
    (isOther : ReturnsWith step stream start other) : one = other := by
  obtain ⟨calls, returned⟩ := isOne
  obtain ⟨calls', returned'⟩ := isOther
  have late := attempts_mono returned (Nat.le_max_left calls calls')
  rw [attempts_mono returned' (Nat.le_max_right calls calls')] at late
  exact (Sum.inr.inj late).symm

/-- Among the calls up to one that stops there is a first one. -/
theorem exists_first {stops : Nat → Prop} {call : Nat} (stopped : stops call) :
    ∃ first ≤ call, (∀ earlier < first, ¬stops earlier) ∧ stops first := by
  classical
  have some : ∃ call, stops call := ⟨call, stopped⟩
  exact ⟨Nat.find some, Nat.find_min' some stopped, fun earlier before => Nat.find_min some before,
    Nat.find_spec some⟩

/-- What a loop does on a stream when its states are known in advance: it goes on up to the first
outcome that stops it, and then has the result known for that outcome. -/
structure Foreseen (step : σ → α → σ ⊕ ρ) (stream : Nat → α) (start : σ) (states : Nat → σ)
    (stops : Nat → Prop) (results : Nat → ρ) : Prop where
  first : states 0 = start
  goes : ∀ calls, ¬stops calls → step (states calls) (stream calls) = .inl (states (calls + 1))
  ends : ∀ calls, stops calls → step (states calls) (stream calls) = .inr (results calls)

namespace Foreseen

variable {states : Nat → σ} {stops : Nat → Prop} {results : Nat → ρ}

/-- As long as no outcome stops the loop, its state is the one known in advance. -/
theorem attempts_eq (foreseen : Foreseen step stream start states stops results) {calls : Nat}
    (going : ∀ earlier < calls, ¬stops earlier) :
    attempts step stream start calls = .inl (states calls) := by
  induction calls with
  | zero => rw [attempts, foreseen.first]
  | succ calls ih =>
    rw [attempts, ih fun earlier before => going earlier (Nat.lt_succ_of_lt before)]
    exact foreseen.goes calls (going calls (Nat.lt_succ_self calls))

/-- Behind the first outcome that stops it, the loop has its result. -/
theorem attempts_first (foreseen : Foreseen step stream start states stops results) {calls : Nat}
    (going : ∀ earlier < calls, ¬stops earlier) (stopped : stops calls) :
    attempts step stream start (calls + 1) = .inr (results calls) := by
  rw [attempts, foreseen.attempts_eq going]
  exact foreseen.ends calls stopped

/-- The loop returns at the first outcome that stops it. -/
theorem returnsWith (foreseen : Foreseen step stream start states stops results) {calls : Nat}
    (going : ∀ earlier < calls, ¬stops earlier) (stopped : stops calls) :
    ReturnsWith step stream start (results calls) :=
  ⟨calls + 1, foreseen.attempts_first going stopped⟩

/-- The loop returns exactly when an outcome stops it. -/
theorem returns_iff (foreseen : Foreseen step stream start states stops results) :
    Returns step stream start ↔ ∃ calls, stops calls := by
  constructor
  · rintro ⟨result, calls, returned⟩
    by_contra never
    push Not at never
    rw [foreseen.attempts_eq fun earlier _ => never earlier] at returned
    cases returned
  · rintro ⟨call, stopped⟩
    obtain ⟨first, -, going, stops⟩ := exists_first stopped
    exact ⟨_, foreseen.returnsWith going stops⟩

/-- A loop that has returned stopped at the first outcome that stops it, with the result known for
that outcome. -/
theorem attempts_eq_inr (foreseen : Foreseen step stream start states stops results) {calls : Nat}
    {result : ρ} (returned : attempts step stream start calls = .inr result) :
    ∃ first < calls, (∀ earlier < first, ¬stops earlier) ∧ stops first ∧
      results first = result := by
  obtain ⟨call, stopped⟩ := foreseen.returns_iff.mp ⟨result, calls, returned⟩
  obtain ⟨first, -, going, stops⟩ := exists_first stopped
  have isResult : results first = result :=
    (foreseen.returnsWith going stops).unique ⟨calls, returned⟩
  refine ⟨first, ?_, going, stops, isResult⟩
  by_contra late
  have goingSoFar : ∀ earlier < calls, ¬_ := fun earlier before => going earlier (by omega)
  have inside := foreseen.attempts_eq goingSoFar
  rw [returned] at inside
  cases inside

end Foreseen

end NetServer.Lib
