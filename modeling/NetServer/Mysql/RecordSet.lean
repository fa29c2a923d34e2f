import NetServer.Common.Printf
import NetServer.Lib.Machine

/-!
# Records of a query, `CRecordSet`

A record set runs queries, keeps the rows of their results with the names and types of the columns,
and has a cursor. What the server answers is input: a query fails, or it has no result, or
`mysql_store_result` gives one. `ExecuteSQL` adds to what the earlier queries left, and the cursor
is an `unsigned long` that each operation moves in its own way.
-/

namespace NetServer

open Lib

/-! ## Results -/

/-- A column of a result. A name of a column has no null. -/
structure Column where
  name : Bytes
  type : Nat
  noNull : 0 ∉ name
  deriving DecidableEq, Repr

/-- A result of a query. The server has no results without columns and none with more than 4096. -/
structure QueryResult where
  columns : List Column
  rows : List (List (Option Bytes))
  nonempty : columns ≠ []
  few : columns.length ≤ 4096
  width : ∀ row ∈ rows, row.length = columns.length
  deriving DecidableEq, Repr

/-- What comes of `mysql_real_query` and `mysql_store_result`. -/
inductive QueryOutcome where
  | failed
  | noResult
  | stored (result : QueryResult)
  deriving DecidableEq, Repr

/-- What a record set must not do. -/
inductive RecordSetFault where
  /-- `mysql_num_rows` of a null pointer. -/
  | nullResult
  /-- There are more records than a vector can hold. -/
  | lengthError
  /-- `m_s` is indexed behind its end. -/
  | outOfRange
  deriving DecidableEq, Repr

/-! ## Fields and records -/

/-- The fields of `CField`. -/
structure Field where
  names : List Bytes
  types : List Nat
  deriving DecidableEq, Repr

/-- `CField::GetField_NO`. -/
def Field.getFieldNo (field : Field) (fieldName : Bytes) : Int :=
  match field.names.findIdx? (· == fieldName) with
  | some i => toInt i
  | none => -1

/-- The fields of `CRecord`, with `hasField` for whether its pointer to the fields is set. -/
structure Record where
  rs : List Bytes
  hasField : Bool
  deriving DecidableEq, Repr

namespace Record

variable (record : Record)

/-- `CRecord::SetData`. -/
def setData (value : Bytes) : Record := { record with rs := record.rs ++ [value] }

/-- `CRecord::operator[](int)`. -/
def atNumber (num : Int) : Bytes :=
  if num < 0 ∨ num ≥ record.rs.length then [] else record.rs.getD num.toNat []

/-- `CRecord::operator[](string)`. -/
def atName (field : Field) (s : Bytes) : Bytes :=
  if record.hasField then record.atNumber (field.getFieldNo s) else []

end Record

/-- The fields of `CRecordSet`. An `unsigned long` is as wide as a `size_t`. -/
structure RecordSet where
  s : List Record
  pos : Nat
  recordcount : Int
  fieldNum : Int
  field : Field
  deriving DecidableEq, Repr

/-- The size of `m_s` that the library allows, for records of 32 bytes. -/
def maxRecords : Nat := 2 ^ 58 - 1

namespace RecordSet

/-- The constructor `CRecordSet::CRecordSet`, which leaves the counts as they are in memory. -/
def new (recordcount fieldNum : Int) : RecordSet := ⟨[], 0, recordcount, fieldNum, ⟨[], []⟩⟩

variable (set : RecordSet)

/-- What is stored of a cell. -/
def cellText (cell : Option Bytes) : Bytes :=
  match cell with
  | none => []
  | some text => cString text

/-- The record of a row: the loop of `ExecuteSQL` over its first cells. -/
def readRow (fieldNum : Int) (row : List (Option Bytes)) : Record :=
  (row.take fieldNum.toNat).foldl (fun temp cell => temp.setData (cellText cell)) ⟨[], true⟩

/-- `CRecordSet::ExecuteSQL`. -/
def executeSQL : QueryOutcome → Except RecordSetFault (Int × RecordSet)
  | .failed => .ok (-1, set)
  | .noResult => .error .nullResult
  | .stored result =>
    let fieldNum := toInt result.columns.length
    let s := set.s ++ result.rows.map (readRow fieldNum)
    if maxRecords < s.length then .error .lengthError
    else
      .ok (toInt s.length,
        { set with
          s, fieldNum
          recordcount := toInt result.rows.length
          field :=
            ⟨set.field.names ++ result.columns.map fun fd => cString fd.name,
              set.field.types ++ result.columns.map Column.type⟩ })

/-- `CRecordSet::MoveNext`, which returns the new cursor as a `long`. -/
def moveNext : Int × RecordSet :=
  let pos := sizeT (set.pos + 1)
  (toLong pos, { set with pos })

/-- `m_s.size()-1`, which is the greatest `unsigned long` when there are no records. -/
def lastPos : Nat := sizeT ((set.s.length : Int) - 1)

/-- `CRecordSet::Move`, which computes in `int` and returns the new cursor as a `long`: −1 when
there are no records. -/
def move (length : Int) : Int × RecordSet :=
  let l := toInt (set.pos + length)
  if l < 0 then (0, { set with pos := 0 })
  else if l ≥ set.s.length then (toLong set.lastPos, { set with pos := set.lastPos })
  else (l, { set with pos := l.toNat })

/-- `CRecordSet::MoveFirst`. -/
def moveFirst : Bool × RecordSet := (true, { set with pos := 0 })

/-- `CRecordSet::MoveLast`. -/
def moveLast : Bool × RecordSet := (true, { set with pos := set.lastPos })

/-- `CRecordSet::IsEof`. -/
def isEof : Bool := set.pos == set.s.length

/-- `CRecordSet::GetRecordCount`. -/
def getRecordCount : Int := set.recordcount

/-- `CRecordSet::GetFieldNum`. -/
def getFieldNum : Int := set.fieldNum

/-- `CRecordSet::operator[]`. -/
def atNumber (num : Int) : Record :=
  if num < 0 ∨ num ≥ set.s.length then ⟨[], false⟩ else set.s.getD num.toNat ⟨[], false⟩

/-- `CRecordSet::GetCurrentFieldValue` of a name. -/
def getCurrentFieldValue (sFieldName : Bytes) : Except RecordSetFault Bytes :=
  match set.s[set.pos]? with
  | some record => .ok (record.atName set.field sFieldName)
  | none => .error .outOfRange

end RecordSet

/-! ## Histories -/

/-- A call of a record set. -/
inductive RecordSetCall where
  | executeSQL (outcome : QueryOutcome)
  | moveFirst
  | moveLast
  | moveNext
  | move (length : Int)
  deriving DecidableEq, Repr

/-- All histories of a record set, with what its calls return. -/
def recordSetMachine (recordcount fieldNum : Int) :
    Machine RecordSet RecordSetCall Int RecordSetFault where
  init := .new recordcount fieldNum
  enabled _ _ := true
  step set
    | .executeSQL outcome => (set.executeSQL outcome).map Prod.swap
    | .moveFirst => .ok (set.moveFirst.2, set.moveFirst.1.toNat)
    | .moveLast => .ok (set.moveLast.2, set.moveLast.1.toNat)
    | .moveNext => .ok set.moveNext.swap
    | .move length => .ok (set.move length).swap

end NetServer
