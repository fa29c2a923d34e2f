import Mathlib.Tactic.Common

/-!
# Loops with early exit

A loop body either continues with a new state, returns a result, or throws. The loop of a
body whose continuing iterations shrink a natural measure is total, so a function built from
it needs no fuel and no partiality. Its three unfolding equations are the only facts the
callers use. `Passes` lists the states its passes start in, for results about what a loop does
on its way, and `loopWithin` bounds how many there are. `bind_eq_ok` and `bind_eq_error` take
a fallible computation apart.
-/

namespace NetServer.Lib

variable {σ ρ ε : Type}

/-- A computation in two parts succeeds when both parts do. -/
theorem bind_eq_ok {first : Except ε σ} {second : σ → Except ε ρ} {result : ρ} :
    (first >>= second) = .ok result ↔ ∃ value, first = .ok value ∧ second value = .ok result := by
  cases first <;> simp [bind, Except.bind]

/-- A computation in two parts throws what its first part throws, or its second one behind it. -/
theorem bind_eq_error {first : Except ε σ} {second : σ → Except ε ρ} {e : ε} :
    (first >>= second) = .error e ↔ first = .error e ∨ ∃ value, first = .ok value ∧
      second value = .error e := by
  cases first <;> simp [bind, Except.bind]

/-- Repeat a loop body until it returns or throws. -/
def loop (body : σ → Except ε (σ ⊕ ρ)) (size : σ → Nat)
    (shrinks : ∀ state next, body state = .ok (.inl next) → size next < size state)
    (state : σ) : Except ε ρ :=
  match _taken : body state with
  | .error e => .error e
  | .ok (.inr result) => .ok result
  | .ok (.inl next) => loop body size shrinks next
termination_by size state
decreasing_by exact shrinks state next _taken

section

variable {body : σ → Except ε (σ ⊕ ρ)} {size : σ → Nat}
  {shrinks : ∀ state next, body state = .ok (.inl next) → size next < size state} {state : σ}

/-- A throwing iteration ends the loop with its exception. -/
theorem loop_error {e : ε} (thrown : body state = .error e) :
    loop body size shrinks state = .error e := by
  rw [loop]
  split <;> simp_all

/-- A returning iteration ends the loop with its result. -/
theorem loop_return {result : ρ} (returned : body state = .ok (.inr result)) :
    loop body size shrinks state = .ok result := by
  rw [loop]
  split <;> simp_all

/-- A continuing iteration hands the loop its new state. -/
theorem loop_continue {next : σ} (continued : body state = .ok (.inl next)) :
    loop body size shrinks state = loop body size shrinks next := by
  rw [loop]
  split <;> simp_all

/-- What every continuing iteration keeps, and every returning one turns into a fact about the
result, gives that fact for the loop. -/
theorem loop_preserved {keeps : σ → Prop} {ends : ρ → Prop} {result : ρ} (holds : keeps state)
    (continues : ∀ state next, keeps state → body state = .ok (.inl next) → keeps next)
    (returns : ∀ state result, keeps state → body state = .ok (.inr result) → ends result)
    (returned : loop body size shrinks state = .ok result) : ends result := by
  induction state using loop.induct body size shrinks with
  | case1 state e thrown =>
    rw [loop_error thrown] at returned
    cases returned
  | case2 state last taken =>
    rw [loop_return taken] at returned
    cases returned
    exact returns state _ holds taken
  | case3 state next taken ih =>
    rw [loop_continue taken] at returned
    exact ih (continues state next holds taken) returned

/-- Repeat a loop body until it returns or throws, but no more often than `passes` times. -/
def loopWithin (body : σ → Except ε (σ ⊕ ρ)) : Nat → σ → Option (Except ε ρ)
  | 0, _ => none
  | passes + 1, state =>
    match body state with
    | .error e => some (.error e)
    | .ok (.inr result) => some (.ok result)
    | .ok (.inl next) => loopWithin body passes next

/-- A loop whose continuing iterations shrink the measure by `drop` or more ends within as many
passes as the measure has room for. -/
theorem loopWithin_eq_loop {drop passes : Nat} (enough : size state < drop * passes)
    (drops : ∀ state next, body state = .ok (.inl next) → size next + drop ≤ size state) :
    loopWithin body passes state = some (loop body size shrinks state) := by
  induction passes generalizing state with
  | zero => exact absurd enough (Nat.not_lt_zero _)
  | succ passes ih =>
    unfold loopWithin
    match taken : body state with
    | .error e => exact congrArg some (loop_error taken).symm
    | .ok (.inr result) => exact congrArg some (loop_return taken).symm
    | .ok (.inl next) =>
      have shorter := drops state next taken
      have room : size next < drop * passes := by
        rw [Nat.mul_succ] at enough
        omega
      exact (ih room).trans (congrArg some (loop_continue taken).symm)

end

/-! ## Passes -/

/-- A loop that returns a result, with the states its passes start in. -/
inductive Passes (body : σ → Except ε (σ ⊕ ρ)) : σ → List σ → ρ → Prop
  | last {state : σ} {result : ρ} (returned : body state = .ok (.inr result)) :
    Passes body state [state] result
  | more {state next : σ} {states : List σ} {result : ρ} (continued : body state = .ok (.inl next))
    (rest : Passes body next states result) : Passes body state (state :: states) result

namespace Passes

variable {body : σ → Except ε (σ ⊕ ρ)} {state : σ} {states states' : List σ} {result result' : ρ}

/-- The passes of a loop are determined by its first state. -/
theorem unique (one : Passes body state states result) (other : Passes body state states' result') :
    states = states' ∧ result = result' := by
  induction one generalizing states' with
  | last returned =>
    cases other with
    | last returned' =>
      rw [returned] at returned'
      cases returned'
      exact ⟨rfl, rfl⟩
    | more continued' _ =>
      rw [returned] at continued'
      cases continued'
  | more continued _ ih =>
    cases other with
    | last returned' =>
      rw [continued] at returned'
      cases returned'
    | more continued' rest' =>
      rw [continued] at continued'
      cases continued'
      obtain ⟨rfl, rfl⟩ := ih rest'
      exact ⟨rfl, rfl⟩

/-- Passes that end with a result make the loop return it. -/
theorem loop_eq {size : σ → Nat}
    {shrinks : ∀ state next, body state = .ok (.inl next) → size next < size state}
    (passes : Passes body state states result) : loop body size shrinks state = .ok result := by
  induction passes with
  | last returned => exact loop_return returned
  | more continued _ ih => rw [loop_continue continued, ih]

end Passes

end NetServer.Lib
