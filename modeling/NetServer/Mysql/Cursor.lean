import NetServer.Mysql.RecordSet

/-!
# The cursor of a record set

`IsEof` compares the cursor with the number of records for equality. `MoveNext` has no bound, and
`MoveLast` and `Move` compute the number of records less one, which is the greatest `unsigned long`
when there are none. A cursor that has left the range is not at the end for `IsEof`, and the record
at it is read from behind the vector. It stays in the range exactly when `MoveNext` is not called at
the end, and neither `MoveLast` nor `Move` forward on an empty set.
-/

namespace NetServer

open Lib

namespace RecordSet

/-- The cursor is at a record or at the end, and a record is read only where there is one. -/
structure CursorSafe (set : RecordSet) : Prop where
  within : set.pos ≤ set.s.length
  eof : set.isEof = false → set.pos < set.s.length
  reads : set.isEof = false → ∀ sFieldName, ∃ value, set.getCurrentFieldValue sFieldName = .ok value

/-- A call that keeps the cursor in its range. -/
def Guarded (set : RecordSet) : RecordSetCall → Prop
  | .executeSQL _ | .moveFirst => True
  | .moveNext => set.isEof = false
  | .moveLast => set.s ≠ []
  | .move length => set.s ≠ [] ∨ toInt (set.pos + length) < 0

instance (set : RecordSet) (call : RecordSetCall) : Decidable (set.Guarded call) :=
  match call with
  | .executeSQL _ | .moveFirst => isTrue trivial
  | .moveNext => inferInstanceAs (Decidable (_ = _))
  | .moveLast => inferInstanceAs (Decidable (_ ≠ _))
  | .move _ => inferInstanceAs (Decidable (_ ∨ _))

variable {set next : RecordSet}

/-- The cursor is at the end when it equals the number of records. -/
theorem isEof_eq_false_iff : set.isEof = false ↔ set.pos ≠ set.s.length := by
  rw [isEof, beq_eq_false_iff_ne]

/-- The range of the cursor is all that is needed. -/
theorem cursorSafe_iff : set.CursorSafe ↔ set.pos ≤ set.s.length := by
  constructor
  · intro safe
    exact safe.within
  · intro within
    have inside (going : set.isEof = false) : set.pos < set.s.length := by
      have apart := isEof_eq_false_iff.mp going
      omega
    refine ⟨within, inside, fun going sFieldName => ?_⟩
    rw [getCurrentFieldValue, List.getElem?_eq_getElem (inside going)]
    exact ⟨_, rfl⟩

/-- A vector can hold the records. -/
def Holdable (set : RecordSet) : Prop := set.s.length ≤ maxRecords

/-- The last position is that of the last record, if there is one. -/
theorem lastPos_le_iff (small : set.Holdable) : set.lastPos ≤ set.s.length ↔ set.s ≠ [] := by
  rw [Holdable, maxRecords] at small
  rw [lastPos, ← List.length_pos_iff]
  constructor
  · intro within
    by_contra empty
    have none : set.s.length = 0 := by omega
    rw [none] at within
    revert within
    decide
  · intro some
    rw [sizeT_of_nonneg (by omega) (by omega)]
    omega

/-- `ExecuteSQL` adds records, as many as fit, and leaves the cursor. -/
theorem executeSQL_ok {outcome : QueryOutcome} {returned : Int}
    (ran : set.executeSQL outcome = .ok (returned, next)) :
    next.pos = set.pos ∧ set.s.length ≤ next.s.length ∧ (set.Holdable → next.Holdable) := by
  cases outcome with
  | failed =>
    cases ran
    exact ⟨rfl, le_refl _, id⟩
  | noResult => cases ran
  | stored result =>
    simp only [executeSQL] at ran
    split_ifs at ran with tooMany
    rw [Except.ok.injEq, Prod.mk.injEq] at ran
    rw [← ran.2]
    refine ⟨rfl, ?_, fun _ => not_lt.mp tooMany⟩
    rw [List.length_append]
    exact Nat.le_add_right _ _

/-- Where a call leaves the cursor. -/
def nextPos (set : RecordSet) : RecordSetCall → Nat
  | .executeSQL _ => set.pos
  | .moveFirst => 0
  | .moveLast => set.lastPos
  | .moveNext => sizeT (set.pos + 1)
  | .move length => (set.move length).2.pos

variable {recordcount fieldNum answer : Int} {call : RecordSetCall}

/-- `Move` changes the cursor alone. -/
theorem move_eq (set : RecordSet) (length : Int) :
    (set.move length).2 = { set with pos := set.nextPos (.move length) } := by
  unfold nextPos move
  dsimp only
  split_ifs <;> rfl

/-- A call is a query that returns, or it changes the cursor alone. -/
theorem step_cases (steps : (recordSetMachine recordcount fieldNum).Steps set call answer next) :
    (∃ outcome, call = .executeSQL outcome ∧ set.executeSQL outcome = .ok (answer, next)) ∨
      (∀ outcome, call ≠ .executeSQL outcome) ∧ next = { set with pos := set.nextPos call } := by
  have stepped := steps.2
  cases call with
  | executeSQL outcome =>
    cases ran : set.executeSQL outcome with
    | error fault =>
      simp only [recordSetMachine, ran, Except.map] at stepped
      cases stepped
    | ok result =>
      simp only [recordSetMachine, ran, Except.map] at stepped
      cases stepped
      exact .inl ⟨outcome, rfl, ran⟩
  | moveFirst | moveLast | moveNext =>
    cases stepped
    exact .inr ⟨nofun, rfl⟩
  | move length =>
    obtain ⟨same, -⟩ := Prod.mk.inj (Except.ok.inj stepped)
    rw [← same]
    exact .inr ⟨nofun, set.move_eq length⟩

/-- A vector does not outgrow its limit. -/
theorem Holdable.step (small : set.Holdable)
    (steps : (recordSetMachine recordcount fieldNum).Steps set call answer next) :
    next.Holdable := by
  rcases step_cases steps with ⟨outcome, -, ran⟩ | ⟨-, rfl⟩
  · exact (executeSQL_ok ran).2.2 small
  · exact small

/-- Where a call but `ExecuteSQL` leaves the cursor, it is in its range exactly when the call is
guarded. -/
theorem nextPos_le_iff (small : set.Holdable) (within : set.pos ≤ set.s.length)
    (moves : ∀ outcome, call ≠ .executeSQL outcome) :
    set.nextPos call ≤ set.s.length ↔ set.Guarded call := by
  cases call with
  | executeSQL outcome => exact absurd rfl (moves outcome)
  | moveFirst => exact iff_of_true (Nat.zero_le _) trivial
  | moveLast => exact lastPos_le_iff small
  | moveNext =>
    have counted : sizeT ((set.pos : Int) + 1) = set.pos + 1 := by
      rw [Holdable, maxRecords] at small
      rw [sizeT_of_nonneg (by omega) (by omega)]
      omega
    rw [nextPos, counted, Guarded, isEof_eq_false_iff]
    omega
  | move length =>
    unfold nextPos move Guarded
    dsimp only
    split_ifs with back far
    · exact iff_of_true (Nat.zero_le _) (.inr back)
    · rw [or_iff_left back]
      exact lastPos_le_iff small
    · have some : set.s ≠ [] := by
        rw [← List.length_pos_iff]
        omega
      refine iff_of_true ?_ (.inl some)
      change (toInt (set.pos + length)).toNat ≤ set.s.length
      omega

/-- A call keeps the cursor in its range exactly when it is guarded. -/
theorem cursorSafe_step (small : set.Holdable) (safe : set.CursorSafe)
    (steps : (recordSetMachine recordcount fieldNum).Steps set call answer next) :
    next.CursorSafe ↔ set.Guarded call := by
  rw [cursorSafe_iff] at safe ⊢
  rcases step_cases steps with ⟨outcome, rfl, ran⟩ | ⟨moves, rfl⟩
  · obtain ⟨isPos, more, -⟩ := executeSQL_ok ran
    exact iff_of_true (isPos.trans_le (safe.trans more)) trivial
  · exact nextPos_le_iff small safe moves

end RecordSet

/-- For every history of queries and moves: the cursor never exceeds the number of records, is not
at the end for `IsEof` only where there is a record, and a read that `IsEof` guards finds one,
exactly when `MoveNext` is never called at the end, `MoveLast` never on an empty set, and `Move` on
an empty set only to a negative position. -/
theorem cursor_safe_iff {recordcount fieldNum : Int} {trace : List (RecordSetCall × Int)}
    {last : RecordSet}
    (ran : (recordSetMachine recordcount fieldNum).Run
      (recordSetMachine recordcount fieldNum).init trace last) :
    (recordSetMachine recordcount fieldNum).Always RecordSet.CursorSafe
        (recordSetMachine recordcount fieldNum).init trace ↔
      (recordSetMachine recordcount fieldNum).Throughout RecordSet.Guarded
        (recordSetMachine recordcount fieldNum).init trace := by
  have empty : (RecordSet.new recordcount fieldNum).Holdable := Nat.zero_le maxRecords
  have atStart : (RecordSet.new recordcount fieldNum).CursorSafe :=
    RecordSet.cursorSafe_iff.mpr (Nat.le_refl 0)
  exact ran.always_iff (fun small steps => small.step steps)
    (fun small safe steps => RecordSet.cursorSafe_step small safe steps) empty atStart

/-- A table of two rows of a name and a number that may be missing. -/
def twoRows : QueryResult where
  columns := [⟨bytes "name", 253, by decide⟩, ⟨bytes "number", 3, by decide⟩]
  rows := [[some (bytes "a"), some (bytes "1")], [some (bytes "b"), none]]
  nonempty := by decide
  few := by decide
  width := by decide

/-- Two rows are walked to the end, and back. -/
theorem cursor_safe_two_rows : ∃ trace last,
    (recordSetMachine 0 0).Run (recordSetMachine 0 0).init trace last ∧ last.pos = 1 ∧
      (recordSetMachine 0 0).Always RecordSet.CursorSafe (recordSetMachine 0 0).init trace := by
  obtain ⟨trace, last, ran, events, facts⟩ := Machine.run_of_exec_any
    (fun last : RecordSet => decide (last.pos = 1))
    (show ((recordSetMachine 0 0).exec (recordSetMachine 0 0).init
      [.executeSQL (.stored twoRows), .moveNext, .moveNext, .move 5]).any _ = true by
      decide +kernel)
  refine ⟨trace, last, ran, of_decide_eq_true facts, (cursor_safe_iff ran).mpr ?_⟩
  have checked : (recordSetMachine 0 0).checkAll (fun set call =>
    decide (set.Guarded call)) (recordSetMachine 0 0).init
      (trace.map Prod.fst) = true := by
    rw [events]
    decide +kernel
  exact ran.throughout_of_checkAll _ (fun set call guarded => of_decide_eq_true guarded) checked

/-- `MoveLast` on an empty set puts the cursor far behind the end, which `IsEof` does not see, and
the guarded read fails; so does a `MoveNext` at the end of a set with records. -/
theorem cursor_leaves_range :
    (∃ trace last, (recordSetMachine 0 0).Run (recordSetMachine 0 0).init trace last ∧
      last.pos = 2 ^ 64 - 1 ∧ last.isEof = false ∧ last.getCurrentFieldValue (bytes "name") =
        .error .outOfRange) ∧
    ∃ trace last, (recordSetMachine 0 0).Run (recordSetMachine 0 0).init trace last ∧
      last.pos = 3 ∧ last.s.length = 2 ∧ last.isEof = false ∧
        last.getCurrentFieldValue (bytes "name") = .error .outOfRange := by
  constructor
  · obtain ⟨trace, last, ran, -, facts⟩ := Machine.run_of_exec_any
      (fun last : RecordSet => decide (last.pos = 2 ^ 64 - 1 ∧ last.isEof = false ∧
        last.getCurrentFieldValue (bytes "name") = .error .outOfRange))
      (show ((recordSetMachine 0 0).exec (recordSetMachine 0 0).init [.moveLast]).any _ =
        true by decide +kernel)
    exact ⟨trace, last, ran, of_decide_eq_true facts⟩
  · obtain ⟨trace, last, ran, -, facts⟩ := Machine.run_of_exec_any
      (fun last : RecordSet => decide (last.pos = 3 ∧ last.s.length = 2 ∧ last.isEof = false ∧
        last.getCurrentFieldValue (bytes "name") = .error .outOfRange))
      (show ((recordSetMachine 0 0).exec (recordSetMachine 0 0).init
        [.executeSQL (.stored twoRows), .moveNext, .moveNext, .moveNext]).any _ = true by
        decide +kernel)
    exact ⟨trace, last, ran, of_decide_eq_true facts⟩

end NetServer
