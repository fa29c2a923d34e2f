import NetServer.Common.Uid
import NetServer.Lib.SqlText
import NetServer.Records.LogClient

/-!
# The statements that are built from a request

The functions of `CUtilSql` print the parameters of a request between quotes, into a buffer of 1024
bytes. They escape nothing, so a statement has the parameters as its literals exactly when they are
plain, and fit (`sqlCall_carried_iff`).
-/

namespace NetServer

open Lib (SqlFormat SqlToken Plain readSql sprintf render)

/-! ## Formats -/

/-- `LOG_ESIGN_FORMAT`, in pieces of the lines of its literal. -/
def logEsignFormat : SqlFormat :=
  .ofText (["('%s','%s','%s','%s','%s','%s','%s','%s','%s','%s',",
    "\t'%s','%s','%s','%s','%s','%s','%s','%s','%s','%s',",
    "\t'%s','%s','%s','%s','%s','%s','%s','SRC000','%s',",
    "\tNULL,NOW())"].flatMap bytes) 28 (by
    simp only [List.flatMap_cons, List.flatMap_nil]
    repeat rw [bytes_ofList]
    decide +kernel)

/-- `LOG_SIGNREVOKE_FORMAT`. -/
def logSignrevokeFormat : SqlFormat :=
  .ofText (["('%s','%s','%s','%s','%s','%s','%s','%s','%s','%s',",
    "\tNULL,",
    "\t'%s','%s','%s','%s','%s','%s','%s','%s','%s','%s','SRC000',NOW())"].flatMap bytes) 20 (by
    simp only [List.flatMap_cons, List.flatMap_nil]
    repeat rw [bytes_ofList]
    decide +kernel)

/-- `LOG_SIGNVERIFY_FORMAT`. -/
def logSignverifyFormat : SqlFormat :=
  .ofText (["('%s','%s','%s','%s','%s','%s','%s','%s','%s','%s',",
    "\t'%s','%s','%s','%s','%s','%s','%s',NOW(),0,'%s',",
    "\tNULL,'SRC000')"].flatMap bytes) 18 (by
    simp only [List.flatMap_cons, List.flatMap_nil]
    repeat rw [bytes_ofList]
    decide +kernel)

/-- `INSERT_ESEAL_FORMAT`. -/
def insertEsealFormat : SqlFormat :=
  .ofText (["('%s','%s','%s','%s','%s','%s','%s',",
    "\tNULL,NOW(),",
    "\t(SELECT  (DATE_ADD(NOW(),INTERVAL 3 MONTH))),",
    "\t'%s','%s','%s','%s','%s','%s','%s','%s','%s','%s','%s','%s',4,NOW(),NOW())"].flatMap bytes)
    19 (by
    simp only [List.flatMap_cons, List.flatMap_nil]
    repeat rw [bytes_ofList]
    decide +kernel)

/-- `LOG_PRODUCEESEAL_ESEAL_FORMAT`. -/
def logProduceesealEsealFormat : SqlFormat :=
  .ofText (["('%s','%s','%s','%s','%s','%s','%s','%s','%s',",
    "\t'%s','%s','%s','%s','%s','%s','%s','%s',",
    "\t'%s','%s','%s','%s',NULL,0,NOW(),'%s')"].flatMap bytes) 22 (by
    simp only [List.flatMap_cons, List.flatMap_nil]
    repeat rw [bytes_ofList]
    decide +kernel)

/-- `UPDATE_ESEAL_FORMAT`. -/
def updateEsealFormat : SqlFormat :=
  .ofText
    (["UPDATE eseal SET ESEL_STATUS = 4 ,ESEL_HASH = '%s',ESEL_keysn = '%s',ESEL_keytype= '%s',",
    "\tesel_updatedate = NOW(),ESEL_OPERATOR = '%s',ESEL_OPERATORUID='%s' ",
    "\tWHERE ESEL_sealcode = '%s';"].flatMap bytes) 6 (by
    simp only [List.flatMap_cons, List.flatMap_nil]
    repeat rw [bytes_ofList]
    decide +kernel)

/-- `SELECT_ESEAL_FORMAT`. -/
def selectEsealFormat : SqlFormat :=
  .ofText (["SELECT CASE WHEN NOW()>esel_expiredate THEN 9  ELSE esel_status END,",
    "IFNULL(esel_expiredate,''),IFNULL(esel_revokedate,'') FROM ESEAL ",
    "WHERE esel_sealcode = '%s'"].flatMap bytes) 1 (by
    simp only [List.flatMap_cons, List.flatMap_nil]
    repeat rw [bytes_ofList]
    decide +kernel)

/-- `SRC_ESTATUS_OK`. -/
def srcEstatusOk : Bytes := bytes "SRC000"

/-! ## The functions -/

/-- The fields of `ComProtocol` that a statement is built from. -/
structure ComProtocol where
  strAreaCode : Bytes
  szDataParam : Fin 32 → Bytes

/-- The C strings of some of the parameters of a request. -/
def ComProtocol.values (request : ComProtocol) (indices : List (Fin 32)) : List Bytes :=
  indices.map fun index => cString (request.szDataParam index)

/-- The C string of the area code of a request. -/
def ComProtocol.area (request : ComProtocol) : Bytes := cString request.strAreaCode

/-- What makes a function's behaviour undefined. -/
inductive SqlFault where
  | bufferOverflow
  | absentArgument
  deriving DecidableEq, Repr

/-- Print arguments into a buffer of 1024 bytes, and put the string in it behind a header. -/
def makeSql (header : Bytes) (format : SqlFormat) (args : List Bytes) : Except SqlFault Bytes :=
  match sprintf format.text args with
  | none => .error .absentArgument
  | some sqlBuf =>
    if sqlBuf.length < 1024 then .ok (header ++ cString sqlBuf) else .error .bufferOverflow

/-- The parameters of `CUtilSql::MakeInsertESealSql`. -/
def insertESealParams (objRequest : ComProtocol) : List Bytes :=
  objRequest.values [0, 1, 2, 3, 4, 5] ++ objRequest.area ::
    objRequest.values [6, 7, 8, 9, 10, 11, 12, 15, 16, 17, 18, 19]

/-- `CUtilSql::MakeInsertESealSql`. -/
def makeInsertESealSql (objRequest : ComProtocol) : Except SqlFault Bytes :=
  makeSql insertEseal insertEsealFormat (insertESealParams objRequest)

/-- The parameters of `CUtilSql::MakeInsertLogProduceEsealSql`. -/
def insertLogProduceEsealParams (objRequest : ComProtocol) : List Bytes :=
  objRequest.values [0, 1, 2, 3, 4, 5, 11, 12, 13, 14, 15, 16, 18, 19, 20, 21, 22, 23,
    24] ++ [objRequest.area]

/-- `CUtilSql::MakeInsertLogProduceEsealSql`. -/
def makeInsertLogProduceEsealSql (objRequest : ComProtocol) (uu : Fin 16 → UInt8) :
    Except SqlFault Bytes :=
  makeSql insertLogProduceeseal logProduceesealEsealFormat
    (getUid uu :: insertLogProduceEsealParams objRequest ++ [srcEstatusOk])

/-- The parameters of `CUtilSql::MakeInsertLogESignSql`. -/
def insertLogESignParams (objRequest : ComProtocol) : List Bytes :=
  objRequest.values [0, 1, 2, 3, 4, 5, 6, 7, 8, 9, 10, 11, 12, 13, 14, 15, 16, 17, 18, 19, 20, 21,
    22, 23, 24, 25] ++
    [objRequest.area]

/-- `CUtilSql::MakeInsertLogESignSql`. -/
def makeInsertLogESignSql (objRequest : ComProtocol) (uu : Fin 16 → UInt8) :
    Except SqlFault Bytes :=
  makeSql [] logEsignFormat (getUid uu :: insertLogESignParams objRequest)

/-- The parameters of `CUtilSql::MakeInsertLogSignRevokeSql`. -/
def insertLogSignRevokeParams (objRequest : ComProtocol) : List Bytes :=
  objRequest.values [0, 1, 2, 3, 4, 5, 6, 7, 8] ++ objRequest.area ::
    objRequest.values [11, 12, 15, 16, 19, 20, 21, 22, 23]

/-- `CUtilSql::MakeInsertLogSignRevokeSql`. -/
def makeInsertLogSignRevokeSql (objRequest : ComProtocol) (uu : Fin 16 → UInt8) :
    Except SqlFault Bytes :=
  makeSql [] logSignrevokeFormat (getUid uu :: insertLogSignRevokeParams objRequest)

/-- The parameters of `CUtilSql::MakeInsertLogSignVerifySql`. -/
def insertLogSignVerifyParams (objRequest : ComProtocol) : List Bytes :=
  objRequest.values [0, 1, 2, 3, 4, 5, 6, 7, 8, 9, 10, 11, 12, 13, 14, 15] ++ [objRequest.area]

/-- `CUtilSql::MakeInsertLogSignVerifySql`. -/
def makeInsertLogSignVerifySql (objRequest : ComProtocol) (uu : Fin 16 → UInt8) :
    Except SqlFault Bytes :=
  makeSql [] logSignverifyFormat (getUid uu :: insertLogSignVerifyParams objRequest)

/-- The parameters of `CUtilSql::MakeUpdateESealSql`. -/
def updateESealParams (objRequest : ComProtocol) : List Bytes :=
  objRequest.values [2, 11, 12, 15, 16, 0]

/-- `CUtilSql::MakeUpdateESealSql`. -/
def makeUpdateESealSql (objRequest : ComProtocol) : Except SqlFault Bytes :=
  makeSql [] updateEsealFormat (updateESealParams objRequest)

/-- `CUtilSql::MakeSelectESealSql`. -/
def makeSelectESealSql (key : Bytes) : Except SqlFault Bytes :=
  makeSql [] selectEsealFormat [cString key]

/-- A call of one of the functions. -/
inductive SqlCall where
  | insertESeal (objRequest : ComProtocol)
  | insertLogProduceEseal (objRequest : ComProtocol) (uu : Fin 16 → UInt8)
  | insertLogESign (objRequest : ComProtocol) (uu : Fin 16 → UInt8)
  | insertLogSignRevoke (objRequest : ComProtocol) (uu : Fin 16 → UInt8)
  | insertLogSignVerify (objRequest : ComProtocol) (uu : Fin 16 → UInt8)
  | updateESeal (objRequest : ComProtocol)
  | selectESeal (key : Bytes)

namespace SqlCall

/-- What the function returns. -/
def made : SqlCall → Except SqlFault Bytes
  | insertESeal objRequest => makeInsertESealSql objRequest
  | insertLogProduceEseal objRequest uu => makeInsertLogProduceEsealSql objRequest uu
  | insertLogESign objRequest uu => makeInsertLogESignSql objRequest uu
  | insertLogSignRevoke objRequest uu => makeInsertLogSignRevokeSql objRequest uu
  | insertLogSignVerify objRequest uu => makeInsertLogSignVerifySql objRequest uu
  | updateESeal objRequest => makeUpdateESealSql objRequest
  | selectESeal key => makeSelectESealSql key

/-- What stands in front of the printed text. -/
def header : SqlCall → Bytes
  | insertESeal _ => insertEseal
  | insertLogProduceEseal _ _ => insertLogProduceeseal
  | _ => []

/-- The format of the function. -/
def format : SqlCall → SqlFormat
  | insertESeal _ => insertEsealFormat
  | insertLogProduceEseal _ _ => logProduceesealEsealFormat
  | insertLogESign _ _ => logEsignFormat
  | insertLogSignRevoke _ _ => logSignrevokeFormat
  | insertLogSignVerify _ _ => logSignverifyFormat
  | updateESeal _ => updateEsealFormat
  | selectESeal _ => selectEsealFormat

/-- The arguments that come from the caller, as C strings. -/
def params : SqlCall → List Bytes
  | insertESeal objRequest => insertESealParams objRequest
  | insertLogProduceEseal objRequest _ => insertLogProduceEsealParams objRequest
  | insertLogESign objRequest _ => insertLogESignParams objRequest
  | insertLogSignRevoke objRequest _ => insertLogSignRevokeParams objRequest
  | insertLogSignVerify objRequest _ => insertLogSignVerifyParams objRequest
  | updateESeal objRequest => updateESealParams objRequest
  | selectESeal key => [cString key]

/-- All arguments behind the format. -/
def args : SqlCall → List Bytes
  | insertLogProduceEseal objRequest uu =>
    getUid uu :: insertLogProduceEsealParams objRequest ++ [srcEstatusOk]
  | insertLogESign objRequest uu => getUid uu :: insertLogESignParams objRequest
  | insertLogSignRevoke objRequest uu => getUid uu :: insertLogSignRevokeParams objRequest
  | insertLogSignVerify objRequest uu => getUid uu :: insertLogSignVerifyParams objRequest
  | call => call.params

/-- The text is made, and read by the rules for quoted literals it is the header and the format,
with the arguments as the literals in their places. -/
def Carried (call : SqlCall) : Prop :=
  ∃ text, call.made = .ok text ∧
    readSql none text = some (call.header.map .outside ++ call.format.filled call.args)

end SqlCall

/-! ## What is printed -/

/-- What the function of a call does. -/
theorem SqlCall.made_eq (call : SqlCall) :
    call.made = makeSql call.header call.format call.args := by
  cases call <;> rfl

/-- Every function has as many arguments as its format takes. -/
theorem SqlCall.arity_eq (call : SqlCall) : call.format.arity = call.args.length := by
  cases call <;> rfl

/-- No header has a quote. -/
theorem SqlCall.quote_not_mem_header (call : SqlCall) : 39 ∉ call.header := by
  cases call with
  | insertESeal objRequest =>
    rw [header, insertEseal]
    simp only [List.flatMap_cons, List.flatMap_nil]
    repeat rw [bytes_ofList]
    decide +kernel
  | insertLogProduceEseal objRequest uu =>
    rw [header, insertLogProduceeseal]
    simp only [List.flatMap_cons, List.flatMap_nil]
    repeat rw [bytes_ofList]
    decide +kernel
  | _ => exact List.not_mem_nil

/-- The parameters of a call are C strings. -/
theorem SqlCall.zero_not_mem_params (call : SqlCall) : ∀ arg ∈ call.params, 0 ∉ arg := by
  have values (request : ComProtocol) (indices : List (Fin 32)) : ∀ arg ∈ request.values indices,
      0 ∉ arg := by
    intro arg isIn
    obtain ⟨index, -, rfl⟩ := List.mem_map.1 isIn
    exact zero_not_mem_cString _
  have behind (request : ComProtocol) (indices : List (Fin 32)) :
      ∀ arg ∈ request.area :: request.values indices, 0 ∉ arg :=
    List.forall_mem_cons.2 ⟨zero_not_mem_cString _, values request indices⟩
  cases call with
  | insertESeal objRequest =>
    exact List.forall_mem_append.2 ⟨values objRequest _, behind objRequest _⟩
  | insertLogProduceEseal objRequest uu =>
    exact List.forall_mem_append.2 ⟨values objRequest _, behind objRequest []⟩
  | insertLogESign objRequest uu =>
    exact List.forall_mem_append.2 ⟨values objRequest _, behind objRequest []⟩
  | insertLogSignRevoke objRequest uu =>
    exact List.forall_mem_append.2 ⟨values objRequest _, behind objRequest _⟩
  | insertLogSignVerify objRequest uu =>
    exact List.forall_mem_append.2 ⟨values objRequest _, behind objRequest []⟩
  | updateESeal objRequest => exact values objRequest _
  | selectESeal key => exact List.forall_mem_singleton.2 (zero_not_mem_cString key)

/-- What holds of every identifier and of the status code holds of the arguments of a call exactly
when it holds of its parameters. -/
theorem SqlCall.forall_args_iff {property : Bytes → Prop} (uid : ∀ uu, property (getUid uu))
    (status : property srcEstatusOk) (call : SqlCall) :
    (∀ arg ∈ call.args, property arg) ↔ ∀ arg ∈ call.params, property arg := by
  cases call with
  | insertLogProduceEseal objRequest uu =>
    rw [args, List.forall_mem_append, List.forall_mem_cons, List.forall_mem_singleton, params]
    exact ⟨fun each => each.1.2, fun each => ⟨⟨uid uu, each⟩, status⟩⟩
  | insertLogESign objRequest uu => exact List.forall_mem_cons.trans (and_iff_right (uid uu))
  | insertLogSignRevoke objRequest uu => exact List.forall_mem_cons.trans (and_iff_right (uid uu))
  | insertLogSignVerify objRequest uu => exact List.forall_mem_cons.trans (and_iff_right (uid uu))
  | insertESeal | updateESeal | selectESeal => exact Iff.rfl

/-- The arguments of a call are C strings. -/
theorem SqlCall.zero_not_mem_args (call : SqlCall) : ∀ arg ∈ call.args, 0 ∉ arg :=
  (SqlCall.forall_args_iff (fun uu isIn =>
    (getUid_text uu 0 isIn).2.2 rfl) (by decide +kernel) call).2
    call.zero_not_mem_params

/-! ## Statements -/

/-- A function whose printed text is shorter than the buffer returns it behind its header. -/
theorem SqlCall.made_ok_iff {call : SqlCall} {text : Bytes} :
    call.made = .ok text ↔ text = call.header ++ render (call.format.filled call.args) ∧
      (render (call.format.filled call.args)).length < 1024 := by
  have given := call.arity_eq
  have noZero : cString (render (call.format.filled call.args)) =
      render (call.format.filled call.args) :=
    cString_eq_self.2 (call.format.zero_not_mem_filled given call.zero_not_mem_args)
  rw [call.made_eq]
  simp only [makeSql, call.format.sprintf_text given, noZero]
  split_ifs with fits
  · rw [Except.ok.injEq, and_iff_left fits, eq_comm]
  · exact ⟨fun made => (nomatch made), fun both => absurd both.2 fits⟩

/-- A text that is made from arguments has them as its literals exactly when they are plain and
fit. -/
theorem makeSql_iff {header : Bytes} {format : SqlFormat} {args : List Bytes}
    (noQuote : 39 ∉ header) (given : format.arity = args.length)
    (argsText : ∀ arg ∈ args, 0 ∉ arg) :
    (∃ text, makeSql header format args = .ok text ∧
      readSql none text = some (header.map .outside ++ format.filled args)) ↔
    (∀ arg ∈ args, Plain arg) ∧ format.fixed + (args.map List.length).sum < 1024 := by
  have noZero : cString (render (format.filled args)) = render (format.filled args) :=
    cString_eq_self.2 (format.zero_not_mem_filled given argsText)
  have reads : readSql none (header ++ render (format.filled args)) =
      some (header.map .outside ++ format.filled args) ↔ ∀ arg ∈ args, Plain arg := by
    rw [Lib.readSql_outside noQuote, Option.map_eq_some_iff, ← format.read_filled_iff given]
    exact ⟨fun ⟨tokens, read, same⟩ => read.trans (congrArg some (List.append_cancel_left same)),
      fun read => ⟨_, read, rfl⟩⟩
  simp only [makeSql, format.sprintf_text given, noZero, format.length_filled given]
  by_cases fits : format.fixed + (args.map List.length).sum < 1024
  · rw [if_pos fits, ← reads, and_iff_left fits]
    exact ⟨fun ⟨text, made, read⟩ => Except.ok.inj made ▸ read, fun read => ⟨_, rfl, read⟩⟩
  · rw [if_neg fits]
    exact ⟨fun ⟨text, made, _⟩ => (nomatch made), fun both => absurd both.2 fits⟩

/-- A statement carries its parameters as its literals exactly when none of them has a quote, or a
backslash other than in front of `%` and `_`, and the printed text is shorter than the buffer. -/
theorem sqlCall_carried_iff (call : SqlCall) :
    call.Carried ↔
      (∀ param ∈ call.params, Plain param) ∧ call.format.fixed + (call.args.map List.length).sum <
        1024 := by
  have plain : (∀ arg ∈ call.args, Plain arg) ↔ ∀ param ∈ call.params, Plain param :=
    SqlCall.forall_args_iff
      (fun uu => Lib.plain_of_forall fun c isIn =>
        ⟨(getUid_text uu c isIn).1, (getUid_text uu c isIn).2.1⟩)
      (by decide +kernel) call
  rw [SqlCall.Carried, call.made_eq, ← plain]
  exact makeSql_iff call.quote_not_mem_header call.arity_eq call.zero_not_mem_args

/-- What a call's text is read as. -/
theorem SqlCall.Carried.read {call : SqlCall} (carried : call.Carried) :
    call.made.toOption.bind (readSql none) =
      some (call.header.map .outside ++ call.format.filled call.args) := by
  obtain ⟨text, made, read⟩ := carried
  rw [made]
  exact read

/-- A key with a quote ends its literal, so that the condition of the selection becomes one that
every row meets, and a long key overflows the buffer. -/
theorem key_ends_literal :
    ¬(SqlCall.selectESeal (bytes "x' OR '1'='1")).Carried ∧
      (SqlCall.selectESeal (List.replicate 900 65)).made = .error .bufferOverflow :=
  ⟨fun carried => absurd carried.read (by decide +kernel), by decide +kernel⟩

end NetServer
