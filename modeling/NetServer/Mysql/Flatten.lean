import NetServer.Lib.Loop
import NetServer.Lib.Rows
import NetServer.Mysql.Client
import NetServer.Mysql.Queries

/-!
# Results in one string, `CSqlClient::ExecSqlCmd(sql, result)`

The cells of the result sets of a query are appended to one string. A semicolon stands between the
cells of a row, and nothing between rows or result sets. A cell that is `NULL` is appended as a null
pointer.
-/

namespace NetServer

open Lib

/-- A null pointer is appended to a string. -/
inductive ResultFault where
  | nullCell
  deriving DecidableEq, Repr

namespace SqlClient

/-- The loop over the columns of a row, from column `j` on. -/
def appendCells (result : Bytes) (j : Nat) : List (Option Bytes) → Except ResultFault Bytes
  | [] => .ok result
  | cell :: cells =>
    let result := if j > 0 then result ++ bytes ";" else result
    match cell with
    | none => .error .nullCell
    | some text => appendCells (result ++ cString text) (j + 1) cells

/-- The loop over the rows of a result set. -/
def appendRows (result : Bytes) (resPtr : QueryResult) : Except ResultFault Bytes :=
  let iTableRow := toInt resPtr.rows.length
  let iTableCol := toInt resPtr.columns.length
  (resPtr.rows.take iTableRow.toNat).foldlM (fun result sqlrow =>
    appendCells result 0 (sqlrow.take iTableCol.toNat)) result

/-- The loop over the result sets. A statement without a result has none. -/
def appendSets (result : Bytes) (sets : List (Option QueryResult)) : Except ResultFault Bytes :=
  sets.foldlM (fun result set => set.elim (.ok result) (appendRows result)) result

/-- `CSqlClient::ExecSqlCmd(sql, result)`, where `mysql_query` returns `query`, and then there is
one result set and `mysql_next_result` goes on to some others. -/
def execSqlCmdResult (client : SqlClient) (query : Int) (set : Option QueryResult)
    (others : List (Option QueryResult)) (result : Bytes) : Except ResultFault (Int × Bytes) :=
  if client.sqlHandle then
    if query ≠ 0 then .ok (query, result) else (appendSets result (set :: others)).map fun result =>
      (0, result)
  else .ok (-1, result)

/-! ## What is appended -/

/-- The texts of cells. -/
def texts (rows : List (List (Option Bytes))) : List (List Bytes) :=
  rows.map fun row => row.map (·.getD [])

variable {result text : Bytes} {row : List (Option Bytes)} {rows : List (List (Option Bytes))}

/-- Cells behind the first are appended with a semicolon before each, if all have a text. -/
theorem appendCells_succ (clean : ∀ text, some text ∈ row → 0 ∉ text) (j : Nat) :
    appendCells result (j + 1) row = .ok text ↔
      none ∉ row ∧ text = result ++ (row.map (·.getD [])).flatMap fun cell => 59 :: cell := by
  induction row generalizing result j with
  | nil => simp [appendCells, eq_comm]
  | cons cell cells ih =>
    cases cell with
    | none => simp [appendCells]
    | some cell =>
      have whole : cString cell = cell := cString_eq_self.mpr (clean cell List.mem_cons_self)
      have semicolon : bytes ";" = [59] := rfl
      rw [appendCells, if_pos j.succ_pos,
        ih (fun text listed => clean text (List.mem_cons_of_mem _ listed)), whole, semicolon]
      simp

/-- The cells of a row are appended with semicolons between them, if all have a text. -/
theorem appendCells_eq_ok (clean : ∀ text, some text ∈ row → 0 ∉ text) :
    appendCells result 0 row = .ok text ↔
      none ∉ row ∧ text = result ++ rowText 59 (row.map (·.getD [])) := by
  cases row with
  | nil => simp [appendCells, rowText, eq_comm]
  | cons cell cells =>
    cases cell with
    | none => simp [appendCells]
    | some cell =>
      have whole : cString cell = cell := cString_eq_self.mpr (clean cell List.mem_cons_self)
      rw [appendCells, if_neg (lt_irrefl 0),
        appendCells_succ (fun text listed => clean text (List.mem_cons_of_mem _ listed)), whole,
        List.map_cons, rowText_eq]
      simp

/-- The rows are appended with nothing between them. -/
theorem foldlM_appendCells {iTableCol : Nat} (whole : ∀ row ∈ rows, row.length = iTableCol)
    (clean : ∀ row ∈ rows, ∀ text, some text ∈ row → 0 ∉ text) :
    rows.foldlM (fun result row => appendCells result 0 (row.take iTableCol)) result = .ok text ↔
      (∀ row ∈ rows, none ∉ row) ∧ text = result ++ tableText 59 (texts rows) := by
  induction rows generalizing result with
  | nil => simp [texts, tableText, pure, Except.pure, eq_comm]
  | cons row rows ih =>
    rw [List.forall_mem_cons] at clean whole
    rw [List.foldlM_cons, List.take_of_length_le whole.1.le, bind_eq_ok, List.forall_mem_cons,
      texts, List.map_cons, tableText_cons, ← texts]
    constructor
    · rintro ⟨middle, isMiddle, isText⟩
      obtain ⟨some, rfl⟩ := (appendCells_eq_ok clean.1).mp isMiddle
      obtain ⟨others, rfl⟩ := (ih whole.2 clean.2).mp isText
      exact ⟨⟨some, others⟩, List.append_assoc _ _ _⟩
    · rintro ⟨⟨some, others⟩, rfl⟩
      refine ⟨_, (appendCells_eq_ok clean.1).mpr ⟨some, rfl⟩, (ih whole.2 clean.2).mpr ⟨others, ?_⟩⟩
      rw [List.append_assoc]

variable {client : SqlClient} {resPtr other : QueryResult}

/-- The rows that are read: all of them, or those of a count that has wrapped. -/
def rowsRead (resPtr : QueryResult) : List (List (Option Bytes)) :=
  resPtr.rows.take (toInt resPtr.rows.length).toNat

/-- A row that is read is a row of the result. -/
theorem mem_of_mem_rowsRead (listed : row ∈ rowsRead resPtr) : row ∈ resPtr.rows :=
  List.mem_of_mem_take listed

/-- Cells that are `NULL` or C strings, not empty and without a semicolon. -/
def Plain (resPtr : QueryResult) : Prop :=
  ∀ row ∈ resPtr.rows, ∀ text, some text ∈ row → text ≠ [] ∧ 59 ∉ text ∧ 0 ∉ text

/-- What a query with one result set appends to an empty string, and when it does. -/
theorem execSqlCmdResult_eq_ok (connected : client.sqlHandle = true) (plain : Plain resPtr) :
    client.execSqlCmdResult 0 (some resPtr) [] [] = .ok (0, text) ↔
      (∀ row ∈ rowsRead resPtr, none ∉ row) ∧ text = tableText 59 (texts (rowsRead resPtr)) := by
  have whole : ∀ row ∈ rowsRead resPtr, row.length = (toInt resPtr.columns.length).toNat := by
    intro row listed
    rw [RecordSet.toInt_columns, Int.toNat_natCast]
    exact resPtr.width row (mem_of_mem_rowsRead listed)
  have clean : ∀ row ∈ rowsRead resPtr, ∀ text, some text ∈ row → 0 ∉ text :=
      fun row listed text isText =>
    (plain row (mem_of_mem_rowsRead listed) text isText).2.2
  have sets : appendSets [] [some resPtr] = appendRows [] resPtr := by
    rw [appendSets, List.foldlM_cons, Option.elim_some]
    exact bind_pure (appendRows [] resPtr)
  have read := @foldlM_appendCells [] text _ _ whole clean
  rw [List.nil_append] at read
  rw [← read, execSqlCmdResult, if_pos connected, if_neg (not_not.mpr rfl), sets]
  change (appendRows [] resPtr).map _ = _ ↔ appendRows [] resPtr = _
  cases appendRows [] resPtr with
  | error fault => simp [Except.map]
  | ok text' => simp [Except.map]

/-! ## Reading tables back -/

/-- The result set is told apart from every other one with as many columns and a count of rows that
an `int` holds. -/
def Unambiguous (client : SqlClient) (resPtr : QueryResult) : Prop :=
  ∃ text, client.execSqlCmdResult 0 (some resPtr) [] [] = .ok (0, text) ∧
    ∀ other : QueryResult, Plain other → other.columns.length = resPtr.columns.length →
    other.rows.length < 2 ^ 31 →
      client.execSqlCmdResult 0 (some other) [] [] = .ok (0, text) → other.rows = resPtr.rows

/-- An `int` holds the count of rows, no cell is `NULL`, and rows meet in one byte on each side. -/
structure Recoverable (resPtr : QueryResult) : Prop where
  countable : resPtr.rows.length < 2 ^ 31
  noNull : ∀ row ∈ resPtr.rows, none ∉ row
  tight : TightRows resPtr.columns.length (texts resPtr.rows)

/-- All rows are read when an `int` holds their count. -/
theorem rowsRead_eq (countable : resPtr.rows.length < 2 ^ 31) : rowsRead resPtr = resPtr.rows := by
  rw [rowsRead, toInt_of_range (by omega) (by omega), Int.toNat_natCast, List.take_length]

/-- Cells with a text are their texts. -/
theorem map_some_texts (noNull : ∀ row ∈ rows, none ∉ row) :
    (texts rows).map (·.map some) = rows := by
  rw [texts, List.map_map]
  conv_rhs => rw [← List.map_id rows]
  apply List.map_congr_left
  intro row listed
  rw [Function.comp_apply, List.map_map, id]
  conv_rhs => rw [← List.map_id row]
  apply List.map_congr_left
  intro cell isCell
  cases cell with
  | none => exact absurd isCell (noNull row listed)
  | some text => rfl

/-- A table without NULL is read as it is. -/
theorem texts_map_some (words : List (List Bytes)) : texts (words.map (·.map some)) = words := by
  simp [texts, Function.comp_def]

/-- The texts of plain cells that are not `NULL` are words of a table. -/
theorem Plain.isTable (plain : Plain resPtr) (noNull : ∀ row ∈ resPtr.rows, none ∉ row) :
    IsTable 59 resPtr.columns.length (texts resPtr.rows) := by
  constructor
  · intro row' listed
    obtain ⟨row, isRow, rfl⟩ := List.mem_map.mp listed
    rw [List.length_map]
    exact resPtr.width row isRow
  · intro row' listed word isWord
    obtain ⟨row, isRow, rfl⟩ := List.mem_map.mp listed
    obtain ⟨cell, isCell, rfl⟩ := List.mem_map.mp isWord
    cases cell with
    | none => exact absurd isCell (noNull row isRow)
    | some text =>
      have cellPlain := plain row isRow text isCell
      exact ⟨cellPlain.1, cellPlain.2.1⟩

/-- A recoverable result set is told apart from every other. -/
theorem Recoverable.unambiguous (connected : client.sqlHandle = true) (plain : Plain resPtr)
    (recoverable : Recoverable resPtr) : Unambiguous client resPtr := by
  have all := rowsRead_eq recoverable.countable
  refine ⟨_, (execSqlCmdResult_eq_ok connected plain).mpr ⟨all.symm ▸ recoverable.noNull, rfl⟩, ?_⟩
  intro other plain' columns countable' same
  have all' := rowsRead_eq countable'
  obtain ⟨noNull', isText⟩ := (execSqlCmdResult_eq_ok connected plain').mp same
  rw [all'] at noNull'
  rw [all, all'] at isText
  have table' := plain'.isTable noNull'
  rw [columns] at table'
  have equal :=
    recoverable.tight.eq (List.length_pos_iff.mpr resPtr.nonempty)
        (plain.isTable recoverable.noNull) table'
      isText
  rw [← map_some_texts noNull', ← equal, map_some_texts recoverable.noNull]

/-- A result set with other rows. -/
def withRows (resPtr : QueryResult) (rows : List (List (Option Bytes)))
    (width : ∀ row ∈ rows, row.length = resPtr.columns.length) : QueryResult :=
  { resPtr with rows, width }

/-- Other rows keep the columns. -/
theorem withRows_columns (width : ∀ row ∈ rows, row.length = resPtr.columns.length) :
    (withRows resPtr rows width).columns = resPtr.columns := rfl

/-- The result has the rows that are put in. -/
theorem withRows_rows (width : ∀ row ∈ rows, row.length = resPtr.columns.length) :
    (withRows resPtr rows width).rows = rows := rfl

/-- Result sets that are told apart have no more rows than an `int` holds: those that are not read
may be missing. -/
theorem Unambiguous.countable (connected : client.sqlHandle = true) (plain : Plain resPtr)
    (unambiguous : Unambiguous client resPtr) : resPtr.rows.length < 2 ^ 31 := by
  by_contra many
  obtain ⟨text, isText, only⟩ := unambiguous
  have range := toInt_range resPtr.rows.length
  have count : (rowsRead resPtr).length = (toInt resPtr.rows.length).toNat := by
    rw [rowsRead, List.length_take]
    omega
  obtain ⟨read, columns, isRead⟩ : ∃ read : QueryResult, read.columns = resPtr.columns ∧
      read.rows = rowsRead resPtr :=
    ⟨_, withRows_columns _, withRows_rows fun row listed =>
      resPtr.width row (mem_of_mem_rowsRead listed)⟩
  have short : read.rows.length < 2 ^ 31 := by
    rw [isRead]
    omega
  have plain' : Plain read := by
    intro row listed
    rw [isRead] at listed
    exact plain row (mem_of_mem_rowsRead listed)
  have same : client.execSqlCmdResult 0 (some read) [] [] = .ok (0, text) := by
    rw [execSqlCmdResult_eq_ok connected plain', rowsRead_eq short, isRead]
    exact (execSqlCmdResult_eq_ok connected plain).mp isText
  have length := congrArg List.length (only read plain' (congrArg List.length columns) short same)
  rw [isRead] at length
  omega

/-- Result sets that are told apart are recoverable. -/
theorem Unambiguous.recoverable (connected : client.sqlHandle = true) (plain : Plain resPtr)
    (unambiguous : Unambiguous client resPtr) : Recoverable resPtr := by
  have countable := unambiguous.countable connected plain
  obtain ⟨text, isText, only⟩ := unambiguous
  rw [execSqlCmdResult_eq_ok connected plain, rowsRead_eq countable] at isText
  have table := plain.isTable isText.1
  refine ⟨countable, isText.1, ?_⟩
  by_contra loose
  obtain ⟨words, table', number, different, same⟩ :=
    exists_other_of_not_tight (List.length_pos_iff.mpr resPtr.nonempty) loose table
  -- The other words have no null, as they are in a text that has none.
  have clean : 0 ∉ tableText 59 words := by
    rw [same, mem_tableText (by decide)]
    rintro ⟨row', isRow', word, isWord, isNull⟩
    obtain ⟨row, isRow, rfl⟩ := List.mem_map.mp isRow'
    obtain ⟨cell, isCell, rfl⟩ := List.mem_map.mp isWord
    cases cell with
    | none => exact isText.1 row isRow isCell
    | some cell => exact (plain row isRow cell isCell).2.2 isNull
  have width : ∀ row ∈ words.map (·.map some), row.length = resPtr.columns.length := by
    intro row listed
    obtain ⟨row', isRow, rfl⟩ := List.mem_map.mp listed
    rw [List.length_map]
    exact table'.width row' isRow
  let other := withRows resPtr (words.map (·.map some)) width
  have plain' : Plain other := by
    intro row listed cell isCell
    obtain ⟨row', isRow, rfl⟩ := List.mem_map.mp listed
    rw [List.mem_map_of_injective fun _ _ => Option.some.inj] at isCell
    obtain ⟨nonempty, noSemicolon⟩ := table'.words row' isRow cell isCell
    refine ⟨nonempty, noSemicolon, fun isNull => clean ?_⟩
    exact (mem_tableText (by decide)).mpr ⟨row', isRow, cell, isCell, isNull⟩
  have short : other.rows.length < 2 ^ 31 := by
    rw [texts, List.length_map] at number
    rw [withRows_rows, List.length_map]
    omega
  have noNull' : ∀ row ∈ other.rows, none ∉ row := by
    intro row listed isNone
    obtain ⟨row', -, rfl⟩ := List.mem_map.mp listed
    simp at isNone
  have texts' : texts other.rows = words := texts_map_some words
  have equal : other.rows = resPtr.rows := by
    apply only other plain' rfl short
    rw [execSqlCmdResult_eq_ok connected plain', rowsRead_eq short, texts', same]
    exact ⟨noNull', isText.2⟩
  rw [← equal, texts'] at different
  exact different rfl

end SqlClient

/-- For every client with a connection and every result set whose cells are `NULL` or C strings, not
empty and without a semicolon: the result string is defined and no other result set with as many
columns gives it, exactly when there are fewer than `2 ^ 31` rows, no cell is `NULL`, and the last
cell of each row and the first of the next have one byte each; with a single column, when there is
one byte in all, or none. -/
theorem unambiguous_iff {client : SqlClient} {resPtr : QueryResult}
    (connected : client.sqlHandle = true) (plain : SqlClient.Plain resPtr) :
    SqlClient.Unambiguous client resPtr ↔ SqlClient.Recoverable resPtr := by
  constructor
  · intro unambiguous
    exact unambiguous.recoverable connected plain
  · intro recoverable
    exact recoverable.unambiguous connected plain

/-- A client with a connection. -/
def connectedClient : SqlClient := { SqlClient.new 3306 0 with sqlHandle := true }

/-- The table of a name and a number with some cells. -/
def numbered (rows : List (Bytes × Bytes)) : QueryResult where
  columns := twoRows.columns
  rows := rows.map fun row => [some row.1, some row.2]
  nonempty := by decide
  few := by decide
  width := by
    intro row listed
    obtain ⟨cells, -, rfl⟩ := List.mem_map.mp listed
    rfl

/-- Two rows that meet in single letters are read back from their string. -/
theorem unambiguous_letters :
    SqlClient.Unambiguous connectedClient (numbered [(bytes "ab", bytes "1"),
      (bytes "b", bytes "23")]) := by
  have plain : SqlClient.Plain (numbered [(bytes "ab", bytes "1"), (bytes "b", bytes "23")]) := by
    intro row listed text isText
    simp only [numbered, List.map_cons, List.map_nil, List.mem_cons, List.not_mem_nil, or_false]
      at listed
    rcases listed with rfl | rfl
    all_goals
      simp only [List.mem_cons, Option.some.injEq, List.not_mem_nil, or_false] at isText
      rcases isText with rfl | rfl <;> decide
  refine (unambiguous_iff rfl plain).mpr ⟨by decide, by decide, ?_⟩
  unfold TightRows
  rw [if_neg (by decide)]
  intro row next meet
  have same := meet.eq_of_length rfl
  cases same
  decide

/-- A `NULL` cell is appended as a null pointer, and two tables that have another boundary between
their rows give one string. -/
theorem rows_flatten_alike :
    connectedClient.execSqlCmdResult 0 (some twoRows) [] [] = .error .nullCell ∧
      connectedClient.execSqlCmdResult 0
        (some (numbered [(bytes "a", bytes "12"), (bytes "3b", bytes "4")])) [] [] =
        .ok (0, bytes "a;123b;4") ∧
      connectedClient.execSqlCmdResult 0
        (some (numbered [(bytes "a", bytes "1"), (bytes "23b", bytes "4")])) [] [] =
        .ok (0, bytes "a;123b;4") := by
  refine ⟨?_, ?_, ?_⟩
  all_goals decide +kernel

end NetServer
