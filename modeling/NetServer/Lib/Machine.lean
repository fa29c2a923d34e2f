import Mathlib.Tactic.Common

/-!
# Runs of state machines

A machine takes an event when the event can happen, and either answers it and moves to a new
state or faults. A run records the events with their answers. Two inductions carry the safety
results: what each step preserves holds behind every run (`Run.preserved`), and a property that
a step keeps exactly when it meets a condition holds along exactly the runs whose steps all meet
it (`Run.always_iff`). When a property that is lost does not come back, it is enough to look at
the last state (`Run.last_iff`).
-/

namespace NetServer.Lib

/-- A machine with states `σ`, events `α`, answers `ο` and faults `ε`. -/
structure Machine (σ α ο ε : Type) where
  /-- The state every run starts in. -/
  init : σ
  /-- Whether an event can happen. -/
  enabled : σ → α → Bool
  /-- The effect of an event. -/
  step : σ → α → Except ε (σ × ο)

namespace Machine

variable {σ α ο ε : Type} (machine : Machine σ α ο ε)

/-- One event that can happen and does not fault. -/
def Steps (state : σ) (event : α) (answer : ο) (next : σ) : Prop :=
  machine.enabled state event = true ∧ machine.step state event = .ok (next, answer)

/-- A run from one state to another, with its events and their answers. -/
inductive Run : σ → List (α × ο) → σ → Prop
  | nil (state : σ) : Run state [] state
  | cons {state next last : σ} {event : α} {answer : ο} {trace : List (α × ο)}
    (first : machine.Steps state event answer next) (rest : Run next trace last) :
    Run state ((event, answer) :: trace) last

/-- Every step of the runs along a trace happens in a state that meets a condition. -/
def Throughout (condition : σ → α → Prop) (state : σ) (trace : List (α × ο)) : Prop :=
  ∀ front event answer, front ++ [(event, answer)] <+: trace →
    ∀ before, machine.Run state front before → condition before event

/-- Every state of the runs along a trace meets a condition. -/
def Always (property : σ → Prop) (state : σ) (trace : List (α × ο)) : Prop :=
  ∀ front, front <+: trace → ∀ reached, machine.Run state front reached → property reached

/-- Take events as long as they can happen and do not fault, collecting the answers. -/
def exec (state : σ) : List α → Option (σ × List (α × ο))
  | [] => some (state, [])
  | event :: events =>
    if machine.enabled state event then
      match machine.step state event with
      | .ok (next, answer) =>
        (exec next events).map fun (last, trace) => (last, (event, answer) :: trace)
      | .error _ => none
    else none

/-- Check each event in the state it happens in. -/
def checkAll (check : σ → α → Bool) (state : σ) : List α → Bool
  | [] => true
  | event :: events =>
    check state event &&
      match machine.step state event with
      | .ok (next, _) => checkAll check next events
      | .error _ => true

variable {machine} {state next middle last last' : σ} {event : α} {answer : ο}
  {trace front back : List (α × ο)}

/-- A step has one outcome. -/
theorem Steps.unique {answer' : ο} {next' : σ} (one : machine.Steps state event answer next)
    (other : machine.Steps state event answer' next') : next = next' ∧ answer = answer' := by
  have same := one.2.symm.trans other.2
  simp only [Except.ok.injEq, Prod.mk.injEq] at same
  exact same

/-- A trace leads to one state. -/
theorem Run.unique (one : machine.Run state trace last) (other : machine.Run state trace last') :
    last = last' := by
  induction one with
  | nil => cases other; rfl
  | cons first rest ih =>
    cases other with
    | cons first' rest' =>
      obtain ⟨rfl, -⟩ := first.unique first'
      exact ih rest'

/-- A run passes through a state behind each of its fronts. -/
theorem Run.split (ran : machine.Run state (front ++ back) last) :
    ∃ middle, machine.Run state front middle ∧ machine.Run middle back last := by
  induction front generalizing state with
  | nil => exact ⟨state, .nil state, ran⟩
  | cons step front ih =>
    cases ran with
    | cons first rest =>
      obtain ⟨middle, before, behind⟩ := ih rest
      exact ⟨middle, .cons first before, behind⟩

/-- A run of one step. -/
theorem Run.single (first : machine.Steps state event answer next) :
    machine.Run state [(event, answer)] next :=
  .cons first (.nil next)

/-- Runs follow each other. -/
theorem Run.append (one : machine.Run state front middle) (other : machine.Run middle back last) :
    machine.Run state (front ++ back) last := by
  induction one with
  | nil => exact other
  | cons first rest ih => exact .cons first (ih other)

/-- What every step preserves, holds behind every run. -/
theorem Run.preserved {property : σ → Prop}
    (preserved : ∀ {state event answer next}, property state →
      machine.Steps state event answer next → property next)
    (ran : machine.Run state trace last) (holds : property state) : property last := by
  induction ran with
  | nil => exact holds
  | cons first rest ih => exact ih (preserved holds first)

/-- Every state of a run is its first one or one behind its first step. -/
theorem always_cons {property : σ → Prop} (first : machine.Steps state event answer next) :
    machine.Always property state ((event, answer) :: trace) ↔
      property state ∧ machine.Always property next trace := by
  constructor
  · intro always
    refine ⟨always [] List.nil_prefix state (.nil state), fun front shorter reached ran => ?_⟩
    obtain ⟨tail, rfl⟩ := shorter
    exact always ((event, answer) :: front) ⟨tail, rfl⟩ reached (.cons first ran)
  · intro both front shorter reached ran
    cases ran with
    | nil => exact both.1
    | cons step rest =>
      obtain ⟨tail, isTrace⟩ := shorter
      cases isTrace
      obtain ⟨rfl, -⟩ := first.unique step
      exact both.2 _ ⟨tail, rfl⟩ reached rest

/-- There is no step to meet a condition without events. -/
theorem throughout_nil {condition : σ → α → Prop} (state : σ) :
    machine.Throughout condition state [] := by
  intro front event answer shorter
  have nonempty := List.IsPrefix.length_le shorter
  simp at nonempty

/-- Every step of a run is its first one or one behind it. -/
theorem throughout_cons {condition : σ → α → Prop} (first : machine.Steps state event answer next) :
    machine.Throughout condition state ((event, answer) :: trace) ↔
      condition state event ∧ machine.Throughout condition next trace := by
  constructor
  · intro meets
    refine ⟨meets [] event answer ⟨trace, rfl⟩ state (.nil state),
      fun front event' answer' shorter => ?_⟩
    obtain ⟨tail, rfl⟩ := shorter
    intro before ran
    exact meets ((event, answer) :: front) event' answer' ⟨tail, rfl⟩ before (.cons first ran)
  · intro both front event' answer' shorter before ran
    obtain ⟨tail, isTrace⟩ := shorter
    cases ran with
    | nil =>
      cases isTrace
      exact both.1
    | cons step rest =>
      cases isTrace
      obtain ⟨rfl, -⟩ := first.unique step
      exact both.2 _ event' answer' ⟨tail, rfl⟩ before rest

/-- What every step that meets a condition preserves, holds behind every run of such steps. -/
theorem Run.preserved_throughout {property : σ → Prop} {condition : σ → α → Prop}
    (preserved : ∀ {state event answer next}, property state → condition state event →
      machine.Steps state event answer next → property next)
    (ran : machine.Run state trace last) (meets : machine.Throughout condition state trace)
    (holds : property state) : property last := by
  induction ran with
  | nil => exact holds
  | cons first rest ih =>
    obtain ⟨here, behind⟩ := (throughout_cons first).mp meets
    exact ih behind (preserved holds here first)

/-- A rank that every step lowers bounds the length of a run. -/
theorem Run.length_le_rank {sound : σ → Prop} {condition : α → Prop} {rank : σ → Nat}
    (kept : ∀ {state event answer next}, sound state → condition event →
      machine.Steps state event answer next → sound next)
    (lowers : ∀ {state event answer next}, sound state → condition event →
      machine.Steps state event answer next → rank next < rank state)
    (ran : machine.Run state trace last) (meets : ∀ entry ∈ trace, condition entry.1)
    (isSound : sound state) : trace.length + rank last ≤ rank state := by
  induction ran with
  | nil => simp
  | cons first rest ih =>
    rw [List.forall_mem_cons] at meets
    have lower := lowers isSound meets.1 first
    have behind := ih meets.2 (kept isSound meets.1 first)
    rw [List.length_cons]
    omega

/-- If a step keeps a property exactly when it meets a condition, then a run always has the
property exactly when all its steps meet the condition. -/
theorem Run.always_iff {sound property : σ → Prop} {condition : σ → α → Prop}
    (kept : ∀ {state event answer next}, sound state →
      machine.Steps state event answer next → sound next)
    (precise : ∀ {state event answer next}, sound state → property state →
      machine.Steps state event answer next → (property next ↔ condition state event))
    (ran : machine.Run state trace last) (isSound : sound state) (holds : property state) :
    machine.Always property state trace ↔ machine.Throughout condition state trace := by
  induction ran with
  | nil state =>
    constructor
    · intro _
      exact throughout_nil state
    · intro _ front shorter reached ran
      have empty := List.prefix_nil.mp shorter
      subst empty
      cases ran
      exact holds
  | cons first rest ih =>
    have step := precise isSound holds first
    rw [always_cons first, throughout_cons first]
    constructor
    · intro always
      have after := always.2 [] List.nil_prefix _ (.nil _)
      exact ⟨step.mp after, (ih (kept isSound first) after).mp always.2⟩
    · intro meets
      have after := step.mpr meets.1
      exact ⟨holds, (ih (kept isSound first) after).mpr meets.2⟩

/-- If a step leads to a property exactly when the property held before it and the step meets a
condition, then a run ends with the property exactly when it started with it and all its steps
meet the condition. -/
theorem Run.last_iff {sound property : σ → Prop} {condition : σ → α → Prop}
    (kept : ∀ {state event answer next}, sound state →
      machine.Steps state event answer next → sound next)
    (precise : ∀ {state event answer next}, sound state → machine.Steps state event answer next →
      (property next ↔ property state ∧ condition state event))
    (ran : machine.Run state trace last) (isSound : sound state) :
    property last ↔ property state ∧ machine.Throughout condition state trace := by
  induction ran with
  | nil state => exact (and_iff_left (throughout_nil state)).symm
  | cons first rest ih =>
    rw [ih (kept isSound first), precise isSound first, throughout_cons first, and_assoc]

/-- A condition on the events alone can be read off the trace. -/
theorem Run.throughout_events {condition : α → Prop} (ran : machine.Run state trace last) :
    machine.Throughout (fun _ event => condition event) state trace ↔
      ∀ entry ∈ trace, condition entry.1 := by
  induction ran with
  | nil state =>
    constructor
    · intro _ entry inEmpty
      cases inEmpty
    · intro _
      exact throughout_nil state
  | cons first rest ih => rw [throughout_cons first, ih, List.forall_mem_cons]

/-- A condition on states and events can be checked along the events. -/
theorem Run.throughout_of_checkAll {condition : σ → α → Prop} (check : σ → α → Bool)
    (precise : ∀ state event, check state event = true → condition state event)
    (ran : machine.Run state trace last)
    (checked : machine.checkAll check state (trace.map Prod.fst) = true) :
    machine.Throughout condition state trace := by
  induction ran with
  | nil state => exact throughout_nil state
  | cons first rest ih =>
    rw [List.map_cons, checkAll, first.2, Bool.and_eq_true] at checked
    exact (throughout_cons first).mpr ⟨precise _ _ checked.1, ih checked.2⟩

/-- The collected answers come from a run. -/
theorem run_of_exec {events : List α} (executed : machine.exec state events = some (last, trace)) :
    machine.Run state trace last ∧ trace.map Prod.fst = events := by
  induction events generalizing state trace with
  | nil =>
    cases executed
    exact ⟨.nil _, rfl⟩
  | cons event events ih =>
    rw [exec] at executed
    split at executed
    · rename_i possible
      split at executed
      · rename_i next answer taken
        obtain ⟨⟨last', trace'⟩, rest, same⟩ := Option.map_eq_some_iff.mp executed
        cases same
        obtain ⟨ran, taken'⟩ := ih rest
        exact ⟨.cons ⟨possible, taken⟩ ran, by simp [taken']⟩
      · cases executed
    · cases executed

/-- A check of what some events lead to is one of a run. -/
theorem run_of_exec_check {events : List α} (check : σ → List (α × ο) → Bool)
    (checked : (machine.exec state events).any (fun result => check result.1 result.2) = true) :
    ∃ trace last, machine.Run state trace last ∧ trace.map Prod.fst = events ∧
      check last trace = true := by
  cases executed : machine.exec state events with
  | none =>
    rw [executed] at checked
    cases checked
  | some result =>
    obtain ⟨ran, taken⟩ := run_of_exec executed
    rw [executed] at checked
    exact ⟨result.2, result.1, ran, taken, checked⟩

/-- A check of the state behind some events is one of the state behind a run. -/
theorem run_of_exec_any {events : List α} (check : σ → Bool)
    (checked : (machine.exec state events).any (fun result => check result.1) = true) :
    ∃ trace last, machine.Run state trace last ∧ trace.map Prod.fst = events ∧ check last = true :=
  run_of_exec_check (fun last _ => check last) checked

end Machine

end NetServer.Lib
