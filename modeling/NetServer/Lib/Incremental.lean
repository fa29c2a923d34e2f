import NetServer.Lib.Text

/-!
# Readers that are fed in pieces

A reader takes input apart step by step. A step consumes what it used and may give an output, it
waits when there is not enough input in front of it, or it gives up. A step that does not wait must
not look behind what it consumes (`Incremental.stable`). Then a reader that waits can go on with
what arrives later as if everything had been there from the start (`next_append`, `run_append`), so
its outputs do not depend on the pieces in which the input arrives. Searching for a pattern is such
a step (`find_append`). What every step keeps at the places that the reader comes to, holds where it
ends (`run_preserved_visits`).
-/

namespace NetServer.Lib

variable {κ β ω ε : Type}

/-- What a step makes of the input in front of it. -/
inductive Reading (κ β ω ε : Type) where
  /-- There is not enough input. -/
  | wait
  /-- The step consumed some input. -/
  | go (state : κ) (rest : List β)
  /-- The step consumed some input and gave an output. -/
  | emit (output : ω) (state : κ) (rest : List β)
  /-- The step gave up, whatever follows. -/
  | stop (reason : ε)

/-- A step with more input behind what it saw. -/
def Reading.append (more : List β) : Reading κ β ω ε → Reading κ β ω ε
  | .wait => .wait
  | .go state rest => .go state (rest ++ more)
  | .emit output state rest => .emit output state (rest ++ more)
  | .stop reason => .stop reason

/-- The input that a step leaves. -/
def Reading.rest? : Reading κ β ω ε → Option (List β)
  | .go _ rest | .emit _ _ rest => some rest
  | .wait | .stop _ => none

/-- A reader with states `κ`, input `β`, outputs `ω` and reasons to give up `ε`. -/
structure Incremental (κ β ω ε : Type) where
  /-- One step. -/
  read : κ → List β → Reading κ β ω ε
  /-- A step that does not wait is the same with more input behind it. -/
  stable : ∀ state input more, read state input ≠ .wait →
    read state (input ++ more) = (read state input).append more
  /-- A step that leaves input consumes some. -/
  consumes : ∀ state input rest, (read state input).rest? = some rest → rest.length < input.length

/-- What a reader has come to when it stops to look at its input. -/
inductive Outcome (κ β ω ε : Type) where
  /-- It waits, with the input it has not consumed. -/
  | pause (state : κ) (rest : List β)
  /-- It gave an output. -/
  | emit (output : ω) (state : κ) (rest : List β)
  /-- It gave up. -/
  | stop (reason : ε)

/-- A step leads to states that keep something, or gives up for a reason that is meant. -/
def Reading.Keeps (kept : κ → List β → Prop) (meant : ε → Prop) : Reading κ β ω ε → Prop
  | .wait => True
  | .go state rest | .emit _ state rest => kept state rest
  | .stop reason => meant reason

/-- A reader comes to a state that keeps something, or gives up for a reason that is meant. -/
def Outcome.Keeps (kept : κ → List β → Prop) (meant : ε → Prop) : Outcome κ β ω ε → Prop
  | .pause state rest | .emit _ state rest => kept state rest
  | .stop reason => meant reason

namespace Incremental

variable (reader : Incremental κ β ω ε)

/-- Read until there is an output, or no step can be made. -/
def next (state : κ) (input : List β) : Outcome κ β ω ε :=
  match _taken : reader.read state input with
  | .wait => .pause state input
  | .go state' rest => next state' rest
  | .emit output state' rest => .emit output state' rest
  | .stop reason => .stop reason
termination_by input.length
decreasing_by exact reader.consumes state input rest (by rw [_taken]; rfl)

variable {reader} {state state' : κ} {input rest more : List β} {output : ω} {reason : ε}

/-- A reader that waits stays where it is. -/
theorem next_wait (waits : reader.read state input = .wait) :
    reader.next state input = .pause state input := by
  rw [next]
  split <;> simp_all

/-- A step leads to what comes behind it. -/
theorem next_go (goes : reader.read state input = .go state' rest) :
    reader.next state input = reader.next state' rest := by
  rw [next]
  split <;> simp_all

/-- A step with an output is the last one. -/
theorem next_emit (emits : reader.read state input = .emit output state' rest) :
    reader.next state input = .emit output state' rest := by
  rw [next]
  split <;> simp_all

/-- A step that gives up is the last one. -/
theorem next_stop (stops : reader.read state input = .stop reason) :
    reader.next state input = .stop reason := by
  rw [next]
  split <;> simp_all

/-- A reader that paused waits there. -/
theorem read_of_pause (paused : reader.next state input = .pause state' rest) :
    reader.read state' rest = .wait := by
  induction state, input using next.induct reader with
  | case1 state input waits =>
    rw [next_wait waits] at paused
    cases paused
    exact waits
  | case2 state input next' rest' goes ih => exact ih ((next_go goes).symm.trans paused)
  | case3 state input output' next' rest' emits =>
    rw [next_emit emits] at paused
    cases paused
  | case4 state input reason' stops =>
    rw [next_stop stops] at paused
    cases paused

/-- A reader that waits with some input waits without it. -/
theorem read_nil_of_wait (waits : reader.read state input = .wait) :
    reader.read state [] = .wait := by
  by_contra goes
  have longer := reader.stable state [] input goes
  rw [List.nil_append, waits] at longer
  cases without : reader.read state [] with
  | wait => exact goes without
  | go _ _ | emit _ _ _ | stop _ =>
    rw [without] at longer
    cases longer

/-- A reader that gave an output consumed input. -/
theorem length_lt_of_emit (emitted : reader.next state input = .emit output state' rest) :
    rest.length < input.length := by
  induction state, input using next.induct reader with
  | case1 state input waits =>
    rw [next_wait waits] at emitted
    cases emitted
  | case2 state input next' rest' goes ih =>
    have shorter := reader.consumes state input rest' (by rw [goes]; rfl)
    have behind := ih ((next_go goes).symm.trans emitted)
    omega
  | case3 state input output' next' rest' emits =>
    rw [next_emit emits] at emitted
    cases emitted
    exact reader.consumes state input rest (by rw [emits]; rfl)
  | case4 state input reason' stops =>
    rw [next_stop stops] at emitted
    cases emitted

variable (reader) in
/-- With more input behind it a reader comes to the same, and goes on from where it paused. -/
theorem next_append (state : κ) (input more : List β) : reader.next state (input ++ more) =
    match reader.next state input with
    | .pause state' rest => reader.next state' (rest ++ more)
    | .emit output state' rest => .emit output state' (rest ++ more)
    | .stop reason => .stop reason := by
  induction state, input using next.induct reader with
  | case1 state input waits => rw [next_wait waits]
  | case2 state input state' rest goes ih =>
    have longer := reader.stable state input more (by rw [goes]; exact nofun)
    rw [goes] at longer
    rw [next_go goes, next_go longer, ih]
  | case3 state input output state' rest emits =>
    have longer := reader.stable state input more (by rw [emits]; exact nofun)
    rw [emits] at longer
    rw [next_emit emits, next_emit longer]
  | case4 state input reason stops =>
    have longer := reader.stable state input more (by rw [stops]; exact nofun)
    rw [stops] at longer
    rw [next_stop stops, next_stop longer]

/-! ## What every step keeps -/

variable {kept : κ → List β → Prop} {meant : ε → Prop}

/-- What every step keeps, holds where the reader comes to, and it gives up for one of the reasons
that the steps have. -/
theorem next_preserved
    (steps : ∀ state input, kept state input → (reader.read state input).Keeps kept meant)
    (holds : kept state input) : (reader.next state input).Keeps kept meant := by
  induction state, input using next.induct reader with
  | case1 state input waits =>
    rw [next_wait waits]
    exact holds
  | case2 state input state' rest goes ih =>
    have step := steps state input holds
    rw [goes] at step
    rw [next_go goes]
    exact ih step
  | case3 state input output state' rest emits =>
    have step := steps state input holds
    rw [emits] at step
    rw [next_emit emits]
    exact step
  | case4 state input reason stops =>
    have step := steps state input holds
    rw [stops] at step
    rw [next_stop stops]
    exact step

/-- A reader leaves no more input than it finds. -/
theorem length_le_of_pause (paused : reader.next state input = .pause state' rest) :
    rest.length ≤ input.length := by
  have keeps : (reader.next state input).Keeps (fun _ left => left.length ≤ input.length) (fun _ =>
      True) := by
    apply next_preserved
    · intro state left before
      cases step : reader.read state left with
      | wait | stop _ => trivial
      | go _ rest | emit _ _ rest =>
        have shorter := reader.consumes state left rest (by rw [step]; rfl)
        change rest.length ≤ _
        omega
    · exact Nat.le_refl _
  rw [paused] at keeps
  exact keeps

/-! ## All outputs -/

/-- What a reader reaches, with outputs that were given before. -/
def behind (outputs : List ω) (reached : List ω × Except ε (κ × List β)) :
    List ω × Except ε (κ × List β) :=
  (outputs ++ reached.1, reached.2)

/-- Outputs in front of outputs are put together. -/
theorem behind_behind (outputs more : List ω) (reached : List ω × Except ε (κ × List β)) :
    behind outputs (behind more reached) = behind (outputs ++ more) reached :=
  congrArg (fun all => (all, reached.2)) (List.append_assoc outputs more reached.1).symm

variable (reader) in
/-- Read as far as the input allows. The reader then waits in a state with the rest of the input, or
it gave up. -/
def run (state : κ) (input : List β) : List ω × Except ε (κ × List β) :=
  match _came : reader.next state input with
  | .pause state' rest => ([], .ok (state', rest))
  | .emit output state' rest => behind [output] (run state' rest)
  | .stop reason => ([], .error reason)
termination_by input.length
decreasing_by exact length_lt_of_emit _came

/-- A reader that pauses is where its input ends. -/
theorem run_pause (paused : reader.next state input = .pause state' rest) :
    reader.run state input = ([], .ok (state', rest)) := by
  rw [run]
  split <;> simp_all

/-- An output comes before those behind it. -/
theorem run_emit (emitted : reader.next state input = .emit output state' rest) :
    reader.run state input = behind [output] (reader.run state' rest) := by
  rw [run]
  split <;> simp_all

/-- A reader that gives up gives no output any more. -/
theorem run_stop (stopped : reader.next state input = .stop reason) :
    reader.run state input = ([], .error reason) := by
  rw [run]
  split <;> simp_all

/-- What is read depends on what comes next only. -/
theorem run_congr {other : κ} {input' : List β}
    (same : reader.next state input = reader.next other input') :
    reader.run state input = reader.run other input' := by
  cases came : reader.next other input' with
  | pause _ _ => rw [run_pause came, run_pause (same.trans came)]
  | emit _ _ _ => rw [run_emit came, run_emit (same.trans came)]
  | stop _ => rw [run_stop came, run_stop (same.trans came)]

/-- What every step keeps, holds where the input ends. -/
theorem run_preserved
    (steps : ∀ state input, kept state input → (reader.read state input).Keeps kept meant)
    (holds : kept state input) : match (reader.run state input).2 with
    | .ok (state', rest) => kept state' rest
    | .error reason => meant reason := by
  induction state, input using run.induct reader with
  | case1 state input state' rest paused =>
    have keeps := next_preserved steps holds
    rw [paused] at keeps
    rw [run_pause paused]
    exact keeps
  | case2 state input output state' rest emitted ih =>
    have keeps := next_preserved steps holds
    rw [emitted] at keeps
    rw [run_emit emitted]
    exact ih keeps
  | case3 state input reason stopped =>
    have keeps := next_preserved steps holds
    rw [stopped] at keeps
    rw [run_stop stopped]
    exact keeps

variable (reader) in
/-- The places that a reader comes to, its first one included, and at most `count` of them. -/
def visits : Nat → κ → List β → List (κ × List β)
  | 0, _, _ => []
  | count + 1, state, input =>
    (state, input) ::
      match reader.read state input with
      | .go state' rest | .emit _ state' rest => visits count state' rest
      | .wait | .stop _ => []

/-- What a step keeps at every place that the reader comes to, holds where the input ends. A reader
has no more places than there is input, and one more. -/
theorem run_preserved_visits {count : Nat} (enough : input.length < count)
    (steps : ∀ place ∈ reader.visits count state input,
      kept place.1 place.2 → (reader.read place.1 place.2).Keeps kept meant)
    (holds : kept state input) :
    match (reader.run state input).2 with
    | .ok (state', rest) => kept state' rest
    | .error reason => meant reason := by
  -- The places behind one that was come to are among all of them.
  have kept_visits : ∀ state' rest,
      (kept state' rest ∧ ∃ left, rest.length < left ∧
        reader.visits left state' rest ⊆ reader.visits count state input) →
      (reader.read state' rest).Keeps (fun state' rest => kept state' rest ∧
        ∃ left, rest.length < left ∧
          reader.visits left state' rest ⊆ reader.visits count state input) meant := by
    rintro state' rest ⟨here, left, longer, among⟩
    obtain ⟨left, rfl⟩ : ∃ less, left = less + 1 := ⟨left - 1, by omega⟩
    have step := steps (state', rest) (among List.mem_cons_self) here
    cases taken : reader.read state' rest with
    | wait => trivial
    | stop reason =>
      rw [taken] at step
      exact step
    | go next less | emit output next less =>
      rw [taken] at step
      have shorter := reader.consumes state' rest less (by rw [taken]; rfl)
      refine ⟨step, left, by omega, fun place listed => among ?_⟩
      rw [visits, taken]
      exact List.mem_cons_of_mem _ listed
  have ends := run_preserved kept_visits ⟨holds, count, enough, List.Subset.refl _⟩
  cases ended : (reader.run state input).2 with
  | ok place =>
    rw [ended] at ends
    exact ends.1
  | error reason =>
    rw [ended] at ends
    exact ends

/-- A reader that pauses goes on from where it is. -/
theorem run_of_pause (paused : reader.next state input = .pause state' rest) :
    reader.run state input = reader.run state' rest :=
  run_congr (paused.trans (next_wait (read_of_pause paused)).symm)

variable (reader) in
/-- Go on with a piece of input that arrives. -/
def feed (reached : List ω × Except ε (κ × List β)) (piece : List β) :
    List ω × Except ε (κ × List β) :=
  match reached.2 with
  | .ok (state, rest) => behind reached.1 (reader.run state (rest ++ piece))
  | .error reason => (reached.1, .error reason)

/-- Outputs that were given stay given. -/
theorem feed_behind (outputs : List ω) (reached : List ω × Except ε (κ × List β)) (piece : List β) :
    reader.feed (behind outputs reached) piece = behind outputs (reader.feed reached piece) := by
  obtain ⟨given, reason | ⟨state, rest⟩⟩ := reached
  · rfl
  · exact (behind_behind outputs given _).symm

/-- Reading a piece behind what was read is reading both. -/
theorem run_append (state : κ) (input more : List β) :
    reader.run state (input ++ more) = reader.feed (reader.run state input) more := by
  induction state, input using run.induct reader with
  | case1 state input state' rest paused =>
    have longer := next_append reader state input more
    rw [paused] at longer
    rw [run_pause paused, run_congr longer]
    rfl
  | case2 state input output state' rest emitted ih =>
    have longer := next_append reader state input more
    rw [emitted] at longer
    rw [run_emit emitted, run_emit longer, ih, feed_behind]
  | case3 state input reason stopped =>
    have longer := next_append reader state input more
    rw [stopped] at longer
    rw [run_stop stopped, run_stop longer]
    rfl

/-- Outputs stay when a piece arrives. -/
theorem run_prefix_append (state : κ) (input more : List β) :
    (reader.run state input).1 <+: (reader.run state (input ++ more)).1 := by
  rw [run_append]
  obtain ⟨given, reason | ⟨state', rest⟩⟩ := reader.run state input
  · exact List.prefix_rfl
  · exact List.prefix_append _ _

/-- A reader that came to a state goes on from there when a piece arrives. -/
theorem run_behind_append {outputs : List ω}
    (came : reader.run state input = behind outputs (reader.run state' rest)) (more : List β) :
    reader.run state (input ++ more) = behind outputs (reader.run state' (rest ++ more)) := by
  rw [run_append, came, feed_behind, run_append]

end Incremental

/-- What was found is found in the same place when more input follows. -/
theorem find_append [DecidableEq β] {pattern text : List β} {position : Nat}
    (nonempty : pattern ≠ []) (found : find pattern text = some position) (more : List β) :
    find pattern (text ++ more) = some position := by
  induction text generalizing position with
  | nil => simp [find, nonempty] at found
  | cons head rest ih =>
    obtain ⟨before, after, split, -, -⟩ := find_eq_some nonempty found
    have short : pattern.length ≤ (head :: rest).length := by
      rw [split, List.length_append, List.length_append]
      omega
    -- A pattern at the front that fits the text does not reach behind it.
    have front : pattern <+: head :: (rest ++ more) ↔ pattern <+: head :: rest := by
      constructor
      · intro longer
        exact List.prefix_of_prefix_length_le longer (List.prefix_append (head :: rest) more) short
      · intro early
        exact early.trans (List.prefix_append (head :: rest) more)
    rw [List.cons_append, find]
    rw [find] at found
    simp only [List.isPrefixOf_iff_prefix, front] at found ⊢
    split_ifs at found ⊢ with early
    · exact found
    · obtain ⟨inner, foundInner, rfl⟩ := Option.map_eq_some_iff.mp found
      rw [ih foundInner]
      rfl

end NetServer.Lib
