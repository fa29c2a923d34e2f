import NetServer.Common.Base64
import NetServer.Lib.Machine
import NetServer.Mysql.Client

/-!
# Storing the records of a zone, `CRcdLogClient`

A thread moves records from six sets of a Redis server, one for each kind of record, into MySQL. It
takes the kinds in turn, and `ProccessTargetKey` pops the records of one kind and executes them in
batches behind a common header, or alone when it gets no header. The pointers to the two clients
are set once `OnInit` has succeeded. The state of a client when it is used, the replies of the Redis
server and the result of a query are input: the server may give no reply, and then has done nothing.
Producers add records at any time, so a run interleaves their `SADD` commands with the commands and
queries of the thread. `usleep` and the wait at the end of a round change nothing.
-/

namespace NetServer

open Lib

/-! ## Keys and headers -/

/-- `CUtilRedis::MakeOneKey`. -/
def makeOneKey (header arg : Bytes) : Bytes := header.take 4 ++ arg

/-- `CRcdLogClient::OnKeysInit`. -/
def onKeysInit (areaCode : Bytes) : List Bytes :=
  [makeOneKey areaCode (bytes "_INSERT_LOG_ESIGN"),
    makeOneKey areaCode (bytes "_INSERT_LOG_SIGNVERIFY"),
    makeOneKey areaCode (bytes "_INSERT_LOG_SIGNREVOKE"),
    makeOneKey areaCode (bytes "_INSERT_LOG_PRODUCEESEAL"),
    makeOneKey areaCode (bytes "_INSERT_ESEAL"), makeOneKey areaCode (bytes "_UPDATE_ESEAL")]

/-- `INSERT_LOG_ESIGN`, in pieces of the lines of its literal. -/
def insertLogEsign : Bytes :=
  ["INSERT INTO log_esign ",
    "\t(lges_uid,LGES_SIGNSN,LGES_DOCHASH,LGES_DOCID,LGES_docname,LGES_sealcode,LGES_sealname,",
    "LGES_sealhash,LGES_compname,LGES_compcode,",
    "\tLGES_signdate,LGES_dochashsign,LGES_keysn,LGES_keytype,LGES_certsn,LGES_certhash,",
    "LGES_doctype,LGES_docversion,LGES_clientversion,LGES_ip,",
    "\tLGES_mac,LGES_info,LGES_clientos,LGES_DOCPAGES,LGES_signpage,LGES_signx,LGES_signy,",
    "LGES_RETURNCODE,LGES_AREACODE,",
    "\tLGES_AREANAME,LGES_LOGDATE) ",
    "\tVALUES"].flatMap bytes

/-- `INSERT_LOG_SIGNVERIFY`. -/
def insertLogSignverify : Bytes :=
  ["INSERT INTO log_signverify ",
    "\t(lgsv_uid,lgsv_SIGNSN,lgsv_DOCHASH,LGSV_SIGNHASH,lgsv_DOCID,lgsv_docname,lgsv_sealcode,",
    "lgsv_sealname,lgsv_sealhash,lgsv_compname,",
    "\tlgsv_compcode,lgsv_signdate,lgsv_clientversion,lgsv_ip,lgsv_mac,lgsv_info,lgsv_clientos,",
    "LGSV_SVDATE,LGSV_LEVEL,",
    "\tLGSV_AREACODE,LGSV_AREANAME,LGSV_RETURNCODE) ",
    "\tVALUES"].flatMap bytes

/-- `INSERT_LOG_SIGNREVOKE`. -/
def insertLogSignrevoke : Bytes :=
  ["INSERT INTO log_signrevoke ",
    "\t(lgsr_uid,lgsr_SIGNSN,lgsr_DOCHASH,lgsr_DOCID,lgsr_docname,lgsr_sealcode,lgsr_sealname,",
    "LGSR_SEALHASH,lgsr_compname,lgsr_compcode,",
    "\tlgsr_areaname,lgsr_areacode,lgsr_keysn,lgsr_keytype,LGSR_SIGNHASH,lgsr_signdate,",
    "lgsr_clientversion,",
    "\tlgsr_ip,lgsr_mac,lgsr_info,lgsr_clientos,LGSR_RETURNCODE,LGSR_REVOKEDATE) ",
    "\tVALUES"].flatMap bytes

/-- `INSERT_LOG_PRODUCEESEAL`. -/
def insertLogProduceeseal : Bytes :=
  ["INSERT INTO log_produceeseal ",
    "\t(LGPE_UID,LGPE_sealcode,LGPE_sealname,LGPE_SEALHASH,LGPE_compname,LGPE_compcode,",
    "LGPE_SEALTYPE,",
    "\tLGPE_keysn,LGPE_keytype,LGPE_puunit,LGPE_puunitcode,LGPE_puname,LGPE_puaccount,",
    "\tLGPE_CERTSN,LGPE_CERTHASH,LGPE_ip,LGPE_mac,LGPE_info,LGPE_clientos,LGPE_clientversion,",
    "\tLGPE_AREACODE,LGPE_AREANAME,LGPE_LEVEL,LGPE_LOGDATE,LGPE_RETURNCODE)",
    "\tVALUES"].flatMap bytes

/-- `INSERT_ESEAL`. -/
def insertEseal : Bytes :=
  ["INSERT INTO eseal ",
    "\t(ESEL_sealcode,ESEL_sealname,ESEL_HASH,ESEL_compname,ESEL_compcode,ESEL_TYPE,ESEL_AREACODE,",
    "\tESEL_AREANAME,ESEL_APPLYDATE,ESEL_EXPIREDATE,ESEL_description,ESEL_height,ESEL_width, ",
    "\tESEL_size,ESEL_ext,ESEL_keysn,ESEL_keytype,ESEL_OPERATOR,ESEL_OPERATORUID,ESEL_CERTUID,",
    "\tESEL_CERTSN,ESEL_CERTHASH,ESEL_STATUS,ESEL_CREATEDATE,ESEL_UPDATEDATE) \t",
    "\tVALUES"].flatMap bytes

/-- `CRcdLogClient::GetSqlHeader`, which leaves the header as it is for the updates. -/
def getSqlHeader (index : Nat) (header : Bytes) : Bool × Bytes :=
  match index with
  | 0 => (true, insertLogEsign)
  | 1 => (true, insertLogSignverify)
  | 2 => (true, insertLogSignrevoke)
  | 3 => (true, insertLogProduceeseal)
  | 4 => (true, insertEseal)
  | 5 => (true, header)
  | _ => (false, header)

/-! ## The servers -/

/-- What ends a run of the thread. -/
inductive RecordFault where
  /-- A fault of a client. -/
  | client (fault : ClientFault)
  /-- A fault of `Common::Decode`. -/
  | decode (fault : Base64.DecodeFault)
  deriving DecidableEq, Repr

/-- A call of `ExecSqlCmd`: the key whose records it stores, the statement as the server sees it,
the result, and the records that were put into the statement, each with the length of the text up to
its end. -/
structure Statement where
  strInKey : Bytes
  text : Bytes
  iret : Int
  records : List (Bytes × Nat)
  deriving DecidableEq, Repr

/-- The Redis sets by key, with the records that were added during the run, the statements that were
executed, and the records that were popped and had no text. -/
structure Stores where
  sets : Bytes → List Bytes
  added : List (Bytes × Bytes)
  statements : List Statement
  dropped : List Bytes

namespace Stores

variable (stores : Stores)

/-- `SADD`, which adds a member that is not there. -/
def sadd (key member : Bytes) : Stores :=
  if member ∈ stores.sets key then stores
  else
    { stores with
      sets := Function.update stores.sets key (stores.sets key ++ [member])
      added := stores.added ++ [(key, member)] }

/-- The reply to `SCARD`. -/
def scard (key : Bytes) (answered : Bool) : Option RedisReply :=
  if answered then some (.integer (stores.sets key).length) else none

/-- `SPOP`, where the server picks a member: the reply and the member, which is removed. -/
def spop (key : Bytes) (answered : Bool) (member : Bytes) :
    Option RedisReply × Option Bytes × Stores :=
  if answered then
    if stores.sets key = [] then (some .nil, none, stores)
    else (some (.string (some member)), some member,
      { stores with sets := Function.update stores.sets key ((stores.sets key).erase member) })
  else (none, none, stores)

/-- A popped record has no text. -/
def drop (popped : Option Bytes) : Stores :=
  { stores with dropped := stores.dropped ++ popped.toList }

/-- A statement is executed. -/
def execute (statement : Statement) : Stores :=
  { stores with statements := stores.statements ++ [statement] }

end Stores

/-- `CRcdLogClient::GetRedisCount` with the reply to its command. -/
def getRedisCount (client : RedisClient) (reply : Option RedisReply) : Except RecordFault Int :=
  match client.execInt reply 0 with
  | .ok (_, count) => .ok count
  | .error fault => .error (.client fault)

/-- `Common::Decode` of a reply, as `RecordFromRedis` calls it. -/
def decodeReply (redisReply : Bytes) : Except RecordFault Bytes :=
  match Base64.decode (redisReply ++ [0]) (toInt redisReply.length) none with
  | .ok (value, _) => .ok value
  | .error fault => .error (.decode fault)

/-- A reply that `Decode` decodes. -/
theorem decodeReply_ok {redisReply value : Bytes} {nByte : Option Int}
    (decoded : Base64.decode (redisReply ++ [0]) (toInt redisReply.length) none =
      .ok (value, nByte)) : decodeReply redisReply = .ok value := by
  -- an equation of functions: applied to a reply, the kernel would try to run the loop
  have unfolded : decodeReply = fun redisReply =>
      match Base64.decode (redisReply ++ [0]) (toInt redisReply.length) none with
      | .ok (value, _) => .ok value
      | .error fault => .error (.decode fault) := rfl
  rw [unfolded]
  simp only [decoded]

/-- `CRcdLogClient::RecordFromRedis` with the reply to its command. -/
def recordFromRedis (client : RedisClient) (reply : Option RedisReply) : Except RecordFault Bytes :=
  match client.execString reply [] with
  | .ok (_, redisReply) => decodeReply redisReply
  | .error fault => .error (.client fault)

/-- `CRcdLogClient::RecordToMysql`, where `mysql_real_query` returns `query`. -/
def recordToMysql (client : SqlClient) (query : Int) : Int := client.execSqlCmd query

/-! ## `ProccessTargetKey` -/

/-- The variables of the loops of `CRcdLogClient::ProccessTargetKey`, with the records whose text
`sql` holds and the length of `sql` behind each of them. -/
structure Batch where
  strInKey : Bytes
  savesql : Bytes
  sql : Bytes
  isDone : Bool
  redisCount : Int
  runCount : Int
  iMaxFlag : Int
  i : Int
  iMax : Int
  records : List (Bytes × Nat)
  deriving DecidableEq, Repr

/-- Where a call of `ProccessTargetKey` is: at one of its calls of `RecordFromRedis`,
`RecordToMysql` or `GetRedisCount`. -/
inductive TargetCall where
  /-- It pops the record of an update. -/
  | popUpdate (strInKey : Bytes)
  /-- It executes an update, with the record that was popped. -/
  | execUpdate (strInKey temp : Bytes) (popped : Option Bytes)
  /-- It counts the records at the head of the outer loop. -/
  | count (batch : Batch)
  /-- It pops a record in the inner loop. -/
  | pop (batch : Batch)
  /-- It executes a batch. -/
  | exec (batch : Batch)
  deriving DecidableEq, Repr

namespace Batch

variable (batch : Batch)

/-- What follows the inner loop: the batch is executed, or the outer loop goes on or ends. The call
returns the string behind its reference argument `sql`. -/
def afterFor : TargetCall ⊕ Bytes :=
  if batch.redisCount > 0 then .inl (.exec batch)
  else if batch.isDone then .inr batch.sql
  else .inl (.count batch)

/-- The head of the inner loop. -/
def forLoop : TargetCall ⊕ Bytes :=
  if batch.i < batch.iMax then .inl (.pop batch) else batch.afterFor

/-- The start of a pass of the outer loop. -/
def onCount (iCount : Int) : TargetCall ⊕ Bytes :=
  { batch with
    isDone := !decide (iCount > 0), iMax := if iCount > 20 then 20 else iCount, i := 0 }.forLoop

/-- A record without a text is skipped. -/
def skip : TargetCall ⊕ Bytes := { batch with i := batch.i + 1 }.forLoop

/-- The text of a record goes behind those before it. -/
def extend (temp : Bytes) (popped : Option Bytes) : Batch :=
  let sql := (if batch.redisCount > 0 then batch.sql ++ bytes "," else batch.sql) ++ temp
  { batch with
    sql
    redisCount := batch.redisCount + 1
    records := batch.records ++ popped.toList.map fun member => (member, sql.length) }

/-- What follows the execution of a batch. -/
def onExec : TargetCall ⊕ Bytes :=
  let next :=
    { batch with
      redisCount := 0, sql := batch.savesql, runCount := batch.runCount + 1, records := [] }
  if batch.runCount > batch.iMaxFlag then .inr next.sql
  else if batch.isDone then .inr next.sql
  else .inl (.count next)

end Batch

/-- The start of `CRcdLogClient::ProccessTargetKey`. -/
def proccessTargetKey (insertCount : Int) (sql strInKey : Bytes) : TargetCall ⊕ Bytes :=
  if strInKey = [] then .inr sql
  else if sql = [] then .inl (.popUpdate strInKey)
  else
    .inl (.count { strInKey, savesql := sql, sql, isDone := false, redisCount := 0, runCount := 0,
                   iMaxFlag := insertCount.tdiv 20, i := 0, iMax := 0, records := [] })

/-- What happens: a producer adds a record, or the thread gets on with a command or a query. The
state of the client that is used, whether the server answers, the member it picks, and the result of
the query are input. -/
inductive RecordEvent where
  | sadd (key member : Bytes)
  | scard (client : RedisClient) (answered : Bool)
  | spop (client : RedisClient) (answered : Bool) (member : Bytes)
  | query (client : SqlClient) (result : Int)
  deriving DecidableEq, Repr

/-- A call gets on. -/
def TargetCall.step (stores : Stores) :
    TargetCall → RecordEvent → Except RecordFault (Stores × (TargetCall ⊕ Bytes))
  | .popUpdate strInKey, .spop client answered member =>
    let (reply, popped, stores) := stores.spop strInKey answered member
    do
      let temp ← recordFromRedis client reply
      if temp = [] then return (stores.drop popped, .inr [])
      else return (stores, .inl (.execUpdate strInKey temp popped))
  | .execUpdate strInKey temp popped, .query client result =>
    let iret := recordToMysql client result
    return (stores.execute ⟨strInKey, cString temp, iret, popped.toList.map fun member =>
      (member, temp.length)⟩, .inr [])
  | .count batch, .scard client answered => do
    let iCount ← getRedisCount client (stores.scard batch.strInKey answered)
    return (stores, batch.onCount iCount)
  | .pop batch, .spop client answered member =>
    let (reply, popped, stores) := stores.spop batch.strInKey answered member
    do
      let temp ← recordFromRedis client reply
      if temp.length < 1 then return (stores.drop popped, batch.skip)
      else return (stores, (batch.extend temp popped).skip)
  | .exec batch, .query client result =>
    let iret := recordToMysql client result
    return (stores.execute ⟨batch.strInKey, cString batch.sql, iret, batch.records⟩, batch.onExec)
  | call, _ => return (stores, .inl call)

/-- Whether a call waits for what an event brings; the server picks a member of the set. -/
def TargetCall.waitsFor (stores : Stores) : TargetCall → RecordEvent → Bool
  | .popUpdate strInKey, .spop _ answered member =>
    !answered || decide (stores.sets strInKey = []) || decide (member ∈ stores.sets strInKey)
  | .execUpdate _ _ _, .query _ _ => true
  | .count _, .scard _ _ => true
  | .pop batch, .spop _ answered member =>
    !answered || decide (stores.sets batch.strInKey = []) ||
      decide (member ∈ stores.sets batch.strInKey)
  | .exec _, .query _ _ => true
  | _, _ => false

/-- A call of `ProccessTargetKey` and the servers; `.inr` when it has returned. -/
structure Target where
  stores : Stores
  call : TargetCall ⊕ Bytes

/-- All runs of a call of `ProccessTargetKey` from some contents of the Redis server. -/
def targetMachine (insertCount : Int) (sql strInKey : Bytes) (sets : Bytes → List Bytes) :
    Machine Target RecordEvent Unit RecordFault where
  init := ⟨⟨sets, [], [], []⟩, proccessTargetKey insertCount sql strInKey⟩
  enabled target event :=
    match event, target.call with
    | .sadd _ _, _ => true
    | event, .inl call => call.waitsFor target.stores event
    | _, .inr _ => false
  step target event :=
    match event, target.call with
    | .sadd key member, _ => .ok ({ target with stores := target.stores.sadd key member }, ())
    | event, .inl call => do
      let (stores, call) ← call.step target.stores event
      return (⟨stores, call⟩, ())
    | _, .inr _ => .ok (target, ())

/-! ## `OnThreadWorker` -/

/-- Where the thread is: before it counts the records of a key, or in a call of `ProccessTargetKey`
for one. -/
inductive Worker where
  | count (i : Nat) (sqlStr : Bytes)
  | call (i : Nat) (call : TargetCall)
  deriving DecidableEq, Repr

/-- The thread goes on to the next key, or to the next round, which clears `sqlStr`. -/
def Worker.next (keys i : Nat) (sqlStr : Bytes) : Worker :=
  if i + 1 < keys then .count (i + 1) sqlStr else .count 0 []

/-- The thread is in a call, or behind one that has returned. -/
def Worker.enter (keys i : Nat) : TargetCall ⊕ Bytes → Worker
  | .inl inside => .call i inside
  | .inr sqlStr => .next keys i sqlStr

/-- The thread of a `CRcdLogClient` and the servers. -/
structure Rounds where
  stores : Stores
  worker : Worker

/-- What the thread does when it has counted the records of a key. -/
def Worker.onCount (insertCount : Int) (keyList : List Bytes) (i : Nat) (sqlStr : Bytes)
    (iCount : Int) : Worker :=
  if iCount > 0 then
    match getSqlHeader i sqlStr with
    | (true, sqlStr) =>
      .enter keyList.length i (proccessTargetKey insertCount sqlStr (keyList.getD i []))
    | (false, sqlStr) => .next keyList.length i sqlStr
  else .next keyList.length i sqlStr

/-- All runs of the thread of a `CRcdLogClient` from some contents of the Redis server. -/
def threadMachine (areaCode : Bytes) (insertCount : Int) (sets : Bytes → List Bytes) :
    Machine Rounds RecordEvent Unit RecordFault where
  init := ⟨⟨sets, [], [], []⟩, .count 0 []⟩
  enabled rounds event :=
    match event, rounds.worker with
    | .sadd _ _, _ => true
    | .scard _ _, .count _ _ => true
    | event, .call _ call => call.waitsFor rounds.stores event
    | _, .count _ _ => false
  step rounds event :=
    match event, rounds.worker with
    | .sadd key member, _ => .ok ({ rounds with stores := rounds.stores.sadd key member }, ())
    | .scard client answered, .count i sqlStr => do
      let key := (onKeysInit areaCode).getD i []
      let iCount ← getRedisCount client (rounds.stores.scard key answered)
      return ({ rounds with worker := .onCount insertCount (onKeysInit areaCode) i sqlStr iCount },
        ())
    | event, .call i call => do
      let (stores, call) ← call.step rounds.stores event
      return (⟨stores, .enter (onKeysInit areaCode).length i call⟩, ())
    | _, .count _ _ => .ok (rounds, ())

end NetServer
