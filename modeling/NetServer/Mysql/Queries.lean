import NetServer.Mysql.Cursor

/-!
# A record set and its last query

`ExecuteSQL` sets the counts of a record set to those of the query, but it adds the rows and the
columns to those of the queries before. A set is its last query exactly when no other query has
succeeded on it, the rows are few enough for an `int`, and no cell has a null, at which the text
that is kept of it ends.
-/

namespace NetServer

open Lib

namespace RecordSet

/-- What a record set is behind a query: its rows, its columns and its cells, by number and by
name. -/
structure IsResult (result : QueryResult) (returned : Int) (set : RecordSet) : Prop where
  recordCount : set.getRecordCount = result.rows.length
  returned : returned = result.rows.length
  names : set.field.names = result.columns.map Column.name
  types : set.field.types = result.columns.map Column.type
  widths : ∀ r : Nat, r < result.rows.length → ((set.atNumber r).rs.length : Int) = set.getFieldNum
  byNumber : ∀ (r k : Nat) row cell, result.rows[r]? = some row → row[k]? = some cell →
    (set.atNumber r).atNumber k = cell.getD []
  byName : (result.columns.map Column.name).Nodup → ∀ (r k : Nat) row cell column,
    result.rows[r]? = some row →
    row[k]? = some cell → result.columns[k]? = some column →
      (set.atNumber r).atName set.field column.name = cell.getD []

/-- The rows of a result can be counted by an `int`, and its cells are C strings. -/
structure Readable (result : QueryResult) : Prop where
  countable : result.rows.length < 2 ^ 31
  clean : ∀ row ∈ result.rows, ∀ text, some text ∈ row → 0 ∉ text

/-- The record that is kept of a row. -/
def recordOf (row : List (Option Bytes)) : Record := ⟨row.map cellText, true⟩

/-! ## One query -/

/-- The loop over the cells of a row adds their texts. -/
theorem foldl_setData (cells : List (Option Bytes)) (temp : Record) :
    cells.foldl (fun temp cell => temp.setData (cellText cell)) temp =
      { temp with rs := temp.rs ++ cells.map cellText } := by
  induction cells generalizing temp with
  | nil => rw [List.map_nil, List.append_nil, List.foldl_nil]
  | cons cell cells ih =>
    rw [List.foldl_cons, ih, Record.setData, List.append_assoc, List.map_cons, List.cons_append,
      List.nil_append]

/-- The number of columns is an `int`. -/
theorem toInt_columns (result : QueryResult) :
    toInt result.columns.length = result.columns.length := by
  have few := result.few
  exact toInt_of_range (by omega) (by omega)

/-- The record of a row has the texts of all its cells. -/
theorem readRow_eq {result : QueryResult} {row : List (Option Bytes)} (listed : row ∈ result.rows) :
    readRow (toInt result.columns.length) row = recordOf row := by
  have all : row.take result.columns.length = row :=
    List.take_of_length_le (result.width row listed).le
  rw [readRow, toInt_columns, Int.toNat_natCast, all, foldl_setData, List.nil_append]
  rfl

/-- The names of columns are stored as they are. -/
theorem columnNames_eq (columns : List Column) :
    (columns.map fun fd => cString fd.name) = columns.map Column.name :=
  List.map_congr_left fun fd _ => cString_eq_self.mpr fd.noNull

variable {set next : RecordSet} {result : QueryResult} {returned : Int}

/-- What a query that succeeds adds. -/
theorem executeSQL_stored (ran : set.executeSQL (.stored result) = .ok (returned, next)) :
    returned = toInt (set.s ++ result.rows.map recordOf).length ∧
      (set.s ++ result.rows.map recordOf).length ≤ maxRecords ∧
      next =
        { set with
          s := set.s ++ result.rows.map recordOf
          fieldNum := result.columns.length
          recordcount := toInt result.rows.length
          field := ⟨set.field.names ++ result.columns.map Column.name,
            set.field.types ++ result.columns.map Column.type⟩ } := by
  have rows : result.rows.map (readRow (toInt result.columns.length)) = result.rows.map recordOf :=
    List.map_congr_left fun row listed => readRow_eq listed
  simp only [executeSQL] at ran
  rw [rows, columnNames_eq, toInt_columns] at ran
  split_ifs at ran with tooMany
  rw [Except.ok.injEq, Prod.mk.injEq] at ran
  exact ⟨ran.1.symm, not_lt.mp tooMany, ran.2.symm⟩

/-- A record set that no query has filled. -/
def Unfilled (set : RecordSet) : Prop := set.s = [] ∧ set.field = ⟨[], []⟩

/-- The record at a number. -/
theorem atNumber_eq {r : Nat} {record : Record} (found : set.s[r]? = some record) :
    set.atNumber r = record := by
  have inside : r < set.s.length := (List.getElem?_eq_some_iff.mp found).1
  rw [atNumber, if_neg (by omega), Int.toNat_natCast, List.getD_eq_getElem?_getD, found,
    Option.getD_some]

/-- The value at a number. -/
theorem recordOf_atNumber {row : List (Option Bytes)} {k : Nat} {cell : Option Bytes}
    (found : row[k]? = some cell) : (recordOf row).atNumber k = cellText cell := by
  have inside : k < row.length := (List.getElem?_eq_some_iff.mp found).1
  have kept : (row.map cellText)[k]? = some (cellText cell) := by
    rw [List.getElem?_map, found, Option.map_some]
  have wide : ¬((k : Int) < 0 ∨ (k : Int) ≥ (row.map cellText).length) := by
    rw [List.length_map]
    omega
  rw [Record.atNumber, recordOf, if_neg wide, Int.toNat_natCast, List.getD_eq_getElem?_getD, kept,
    Option.getD_some]

/-- The number of a column, when no other has its name. -/
theorem getFieldNo_eq (distinct : (result.columns.map Column.name).Nodup) {k : Nat}
    {column : Column} (found : result.columns[k]? = some column) (types : List Nat) :
    (Field.mk (result.columns.map Column.name) types).getFieldNo column.name = k := by
  have few := result.few
  obtain ⟨inside, isColumn⟩ := List.getElem?_eq_some_iff.mp found
  have first : (result.columns.map Column.name).findIdx? (· == column.name) = some k := by
    have bound : k < (result.columns.map Column.name).length := by
      rw [List.length_map]
      exact inside
    rw [List.findIdx?_eq_some_iff_getElem]
    refine ⟨bound, ?_, fun j before => ?_⟩
    · rw [List.getElem_map, isColumn, beq_self_eq_true]
    · intro same
      have equal : (result.columns.map Column.name)[j] = (result.columns.map Column.name)[k] := by
        rw [eq_of_beq same, List.getElem_map, isColumn]
      have index := (List.Nodup.getElem_inj_iff distinct).mp equal
      omega
  rw [Field.getFieldNo, first]
  exact toInt_of_range (by omega) (by omega)

/-- The text that is kept of a cell is its own exactly when it has no null. -/
theorem cellText_eq_iff (cell : Option Bytes) :
    cellText cell = cell.getD [] ↔ ∀ text, cell = some text → 0 ∉ text := by
  cases cell with
  | none => exact iff_of_true rfl nofun
  | some text =>
    rw [cellText, Option.getD_some, cString_eq_self]
    constructor
    · intro clean text' same
      cases same
      exact clean
    · intro clean
      exact clean text rfl

/-- The first query of a record set is what the set holds, if its result is readable. -/
theorem isResult_of_readable (unfilled : set.Unfilled)
    (ran : set.executeSQL (.stored result) = .ok (returned, next)) (readable : Readable result) :
    IsResult result returned next := by
  obtain ⟨isReturned, -, isNext⟩ := executeSQL_stored ran
  rw [unfilled.1, List.nil_append] at isReturned
  rw [unfilled.1, unfilled.2, List.nil_append] at isNext
  have countable := readable.countable
  have count : toInt result.rows.length = result.rows.length := toInt_of_range (by omega) (by omega)
  have record {r : Nat} {row} (found : result.rows[r]? = some row) :
      next.atNumber r = recordOf row := by
    apply atNumber_eq
    rw [isNext, List.getElem?_map, found, Option.map_some]
  have kept {r k : Nat} {row cell} (isRow : result.rows[r]? = some row)
    (isCell : row[k]? = some cell) :
      cellText cell = cell.getD [] := by
    refine (cellText_eq_iff cell).mpr fun text isText => ?_
    apply readable.clean row (List.mem_of_getElem? isRow)
    rw [← isText]
    exact List.mem_of_getElem? isCell
  refine ⟨?_, ?_, ?_, ?_, fun r inside => ?_, fun r k row cell isRow isCell => ?_,
    fun distinct r k row cell column isRow isCell isColumn => ?_⟩
  · rw [getRecordCount, isNext, count]
  · rw [isReturned, List.length_map, count]
  · rw [isNext]
    exact List.nil_append _
  · rw [isNext]
    exact List.nil_append _
  · have isRow := List.getElem?_eq_getElem inside
    rw [record isRow, isNext, recordOf, List.length_map]
    exact congrArg Nat.cast (result.width _ (List.getElem_mem inside))
  · rw [record isRow, recordOf_atNumber isCell, kept isRow isCell]
  · rw [record isRow, isNext, List.nil_append, Record.atName, getFieldNo_eq distinct isColumn,
      recordOf_atNumber isCell, kept isRow isCell]
    rfl

/-- The first query of a record set is what the set holds only if its result is readable. -/
theorem IsResult.readable (unfilled : set.Unfilled)
    (ran : set.executeSQL (.stored result) = .ok (returned, next))
    (isResult : IsResult result returned next) : Readable result := by
  obtain ⟨-, -, isNext⟩ := executeSQL_stored ran
  rw [unfilled.1, List.nil_append] at isNext
  constructor
  · have count := isResult.recordCount
    have range := toInt_range result.rows.length
    rw [getRecordCount, isNext] at count
    dsimp only at count
    omega
  · intro row listed text isText
    obtain ⟨r, inside, isRow⟩ := List.mem_iff_getElem.mp listed
    obtain ⟨k, within, isCell⟩ := List.mem_iff_getElem.mp isText
    have row? : result.rows[r]? = some row := by rw [List.getElem?_eq_getElem inside, isRow]
    have cell? : row[k]? = some (some text) := by rw [List.getElem?_eq_getElem within, isCell]
    have record : next.atNumber r = recordOf row := by
      apply atNumber_eq
      rw [isNext, List.getElem?_map, row?, Option.map_some]
    have same := isResult.byNumber r k row (some text) row? cell?
    rw [record, recordOf_atNumber cell?] at same
    exact (cellText_eq_iff (some text)).mp same text rfl

/-! ## Histories -/

/-- The results of the queries of a history that succeeded. -/
def storedResults (trace : List (RecordSetCall × Int)) : List QueryResult :=
  trace.filterMap fun entry =>
    match entry.1 with
    | .executeSQL (.stored result) => some result
    | _ => none

variable {recordcount fieldNum answer : Int} {call : RecordSetCall}
  {trace : List (RecordSetCall × Int)}

/-- The rows and the columns of a record set are those of some results, in their order. -/
structure Filled (set : RecordSet) (results : List QueryResult) : Prop where
  s : set.s = results.flatMap fun result => result.rows.map recordOf
  names : set.field.names = results.flatMap fun result => result.columns.map Column.name
  types : set.field.types = results.flatMap fun result => result.columns.map Column.type

/-- A call adds the result of the query that it stores, and nothing else. -/
theorem Filled.step {results : List QueryResult} (filled : set.Filled results)
    (steps : (recordSetMachine recordcount fieldNum).Steps set call answer next) :
    next.Filled (results ++ storedResults [(call, answer)]) := by
  rcases step_cases steps with ⟨outcome, rfl, ran⟩ | ⟨moves, rfl⟩
  · cases outcome with
    | failed =>
      cases ran
      exact (List.append_nil results).symm ▸ filled
    | noResult => cases ran
    | stored result =>
      obtain ⟨-, -, isNext⟩ := executeSQL_stored ran
      have added : storedResults [(.executeSQL (.stored result), answer)] = [result] := rfl
      rw [added, isNext]
      constructor
      · rw [List.flatMap_append, ← filled.s, List.flatMap_singleton]
      · rw [List.flatMap_append, ← filled.names, List.flatMap_singleton]
      · rw [List.flatMap_append, ← filled.types, List.flatMap_singleton]
  · have nothing : storedResults [(call, answer)] = [] := by
      cases call with
      | executeSQL outcome => exact absurd rfl (moves outcome)
      | moveFirst | moveLast | moveNext | move => rfl
    rw [nothing, List.append_nil]
    exact ⟨filled.s, filled.names, filled.types⟩

/-- A history adds the results of all its queries. -/
theorem Filled.run {results : List QueryResult} {last : RecordSet}
    (ran : (recordSetMachine recordcount fieldNum).Run set trace last)
    (filled : set.Filled results) : last.Filled (results ++ storedResults trace) := by
  induction ran generalizing results with
  | nil => exact (List.append_nil results).symm ▸ filled
  | @cons state next last event answer trace first rest ih =>
    have split : storedResults ([(event, answer)] ++ trace) =
        storedResults [(event, answer)] ++ storedResults trace :=
      List.filterMap_append
    rw [← List.singleton_append, split, ← List.append_assoc]
    exact ih (filled.step first)

/-- A set with a result has a column. -/
theorem Filled.names_ne_nil {results : List QueryResult} (filled : set.Filled results)
    (some : results ≠ []) : set.field.names ≠ [] := by
  obtain ⟨result, results', rfl⟩ := List.exists_cons_of_ne_nil some
  rw [filled.names, List.flatMap_cons, Ne, List.append_eq_nil_iff, List.map_eq_nil_iff]
  intro none
  exact result.nonempty none.1

end RecordSet

/-- For every history of queries and moves, and every query that succeeds behind it: the record
count and the return value are the number of its rows, the fields are its columns, and each record
has its cells, by number and by name, exactly when no query succeeded before, there are fewer than
`2 ^ 31` rows, and no cell has a null. -/
theorem is_last_query_iff {recordcount fieldNum : Int} {trace : List (RecordSetCall × Int)}
    {set next : RecordSet} {result : QueryResult} {returned : Int}
    (ran : (recordSetMachine recordcount fieldNum).Run (recordSetMachine recordcount fieldNum).init
      trace set) (called : set.executeSQL (.stored result) = .ok (returned, next)) :
    RecordSet.IsResult result returned next ↔
      RecordSet.storedResults trace = [] ∧ RecordSet.Readable result := by
  have start : (RecordSet.new recordcount fieldNum).Filled [] := ⟨rfl, rfl, rfl⟩
  have filled : set.Filled (RecordSet.storedResults trace) := start.run ran
  by_cases first : RecordSet.storedResults trace = []
  · have unfilled : set.Unfilled := by
      rw [first] at filled
      exact ⟨filled.s, congrArg₂ Field.mk filled.names filled.types⟩
    rw [and_iff_right first]
    constructor
    · exact RecordSet.IsResult.readable unfilled called
    · exact RecordSet.isResult_of_readable unfilled called
  · refine iff_of_false (fun isResult => ?_) fun isFirst => first isFirst.1
    obtain ⟨-, -, isNext⟩ := RecordSet.executeSQL_stored called
    have names := isResult.names
    rw [isNext, List.append_left_eq_self] at names
    exact filled.names_ne_nil first names

/-- A query that failed leaves the next one to be the first, and its table is what the set holds. -/
theorem is_last_query_two_rows :
    ∃ trace set returned next,
      (recordSetMachine 0 0).Run (recordSetMachine 0 0).init trace set ∧ trace ≠ [] ∧
        set.executeSQL (.stored twoRows) = .ok (returned, next) ∧
        RecordSet.IsResult twoRows returned next := by
  have failing : (recordSetMachine 0 0).Steps (.new 0 0) (.executeSQL .failed) (-1) (.new 0 0) :=
    ⟨rfl, rfl⟩
  have ran : (recordSetMachine 0 0).Run (recordSetMachine 0 0).init [(.executeSQL .failed, -1)]
      (.new 0 0) :=
    .single failing
  obtain ⟨returned, next, called⟩ : ∃ returned next,
      (RecordSet.new 0 0).executeSQL (.stored twoRows) = .ok (returned, next) := ⟨_, _, rfl⟩
  have clean : ∀ row ∈ twoRows.rows, ∀ text, some text ∈ row → 0 ∉ text := by
    intro row listed text isText
    simp only [twoRows, List.mem_cons, List.not_mem_nil, or_false] at listed
    rcases listed with rfl | rfl
    all_goals
      simp only [List.mem_cons, Option.some.injEq, List.not_mem_nil, or_false, reduceCtorEq]
        at isText
      revert isText
      rintro (rfl | rfl) <;> decide
  exact ⟨_, _, returned, next, ran, nofun, called,
    (is_last_query_iff ran called).mpr ⟨rfl, by decide, clean⟩⟩

/-- The table of one row and one column of another query. -/
def oneRow : QueryResult where
  columns := [⟨bytes "total", 3, by decide⟩]
  rows := [[some (bytes "7")]]
  nonempty := by decide
  few := by decide
  width := by decide

/-- A set holds the two rows of a query before. -/
def filledTwice : RecordSet → Bool := fun set =>
  match set.executeSQL (.stored oneRow) with
  | .ok (returned, next) =>
    decide (returned = 3 ∧ next.getRecordCount = 1 ∧ next.field.names.length = 3 ∧
      (next.atNumber 0).rs = [bytes "a", bytes "1"] ∧
      (next.atNumber 0).atName next.field (bytes "total") = [])
  | .error _ => false

/-- The second of two queries has one row of one column. The record count says so, but three is
returned and there are three fields, the first record is that of the first query, and the column of
the second is not found in it. -/
theorem second_query_is_not_held :
    ∃ trace set returned next, (recordSetMachine 0 0).Run (recordSetMachine 0 0).init trace set ∧
      set.executeSQL (.stored oneRow) = .ok (returned, next) ∧ returned = 3 ∧
      next.getRecordCount = 1 ∧
      next.field.names.length = 3 ∧ (next.atNumber 0).rs = [bytes "a", bytes "1"] ∧
      (next.atNumber 0).atName next.field (bytes "total") = [] := by
  obtain ⟨trace, set, ran, -, facts⟩ := Machine.run_of_exec_any filledTwice
    (show ((recordSetMachine 0 0).exec (recordSetMachine 0 0).init
        [.executeSQL (.stored twoRows)]).any _ = true by
      decide +kernel)
  unfold filledTwice at facts
  split at facts
  · next returned next called =>
      exact ⟨trace, set, returned, next, ran, called, of_decide_eq_true facts⟩
  · cases facts

end NetServer
