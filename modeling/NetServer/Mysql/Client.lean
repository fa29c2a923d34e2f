import NetServer.Redis.Client

/-!
# A client of a MySQL server, `CSqlClient`

What the server and its client library do is input: the outcomes of the calls that connect, and
the results of `mysql_ping` and `mysql_real_query`.
-/

namespace NetServer

/-- Conversion to a 32-bit `unsigned int`. -/
def toUint (value : Int) : Nat := (value % 2 ^ 32).toNat

/-- The outcomes of the library's calls in `CSqlClient::OnConnect`: whether `mysql_init` gave a
handle, whether `mysql_real_connect` succeeded, and what `mysql_select_db` returned. -/
structure SqlConnect where
  init : Bool
  realConnect : Bool
  selectDb : Int
  deriving DecidableEq, Repr

/-- Whether connecting ends with a handle. -/
def SqlConnect.succeeds (connect : SqlConnect) : Bool :=
  connect.init && connect.realConnect && !decide (connect.selectDb < 0)

/-- The fields of `CSqlClient`, with `sqlHandle` for whether that pointer is set. -/
structure SqlClient where
  port : Nat
  address : Bytes
  user : Bytes
  password : Bytes
  dbName : Bytes
  flag : Nat
  iReconnectCount : Int
  sqlHandle : Bool
  deriving DecidableEq, Repr

namespace SqlClient

/-- The constructor `CSqlClient::CSqlClient`, which leaves the port and the flag as they are in
memory. -/
def new (port flag : Nat) : SqlClient := ⟨port, [], [], [], [], flag, 0, false⟩

variable (client : SqlClient)

/-- `CSqlClient::OnConnect`. -/
def onConnect (connect : SqlConnect) : Bool × SqlClient :=
  if connect.init then
    if connect.realConnect then
      if connect.selectDb < 0 then (false, { client with sqlHandle := false })
      else (true, { client with sqlHandle := true })
    else (false, { client with sqlHandle := false })
  else (false, { client with sqlHandle := false })

/-- `CSqlClient::OnInit`. -/
def onInit (address : Bytes) (port : Nat) (user password dbName : Bytes) (flag : Nat)
    (connect : SqlConnect) : Bool × SqlClient :=
  { client with port, address, dbName, flag, user, password }.onConnect connect

/-- `CSqlClient::OnDisConnect`. -/
def onDisConnect : SqlClient := { client with sqlHandle := false }

/-- `CSqlClient::ReConnect`. -/
def reConnect (connect : SqlConnect) : Bool × SqlClient := client.onDisConnect.onConnect connect

/-- `CSqlClient::ExecSqlCmd(sql)`, where `mysql_real_query` returns `query`. -/
def execSqlCmd (query : Int) : Int :=
  if client.sqlHandle then if query = 0 then 0 else -1 else -1

/-- `CSqlClient::TestOnline` with the result of `mysql_ping`. -/
def testOnline (ping : Int) (connect : SqlConnect) : Tested SqlClient :=
  if client.sqlHandle then
    if ping ≠ 0 then
      let (isOnline, client) := client.reConnect connect
      if isOnline then ⟨{ client with iReconnectCount := 0 }, true, true⟩
      else
        let iReconnectCount := toInt (client.iReconnectCount + 1)
        ⟨{ client with iReconnectCount }, true, !decide (iReconnectCount > 3)⟩
    else ⟨{ client with iReconnectCount := 0 }, false, true⟩
  else ⟨client, false, false⟩

/-- Connecting sets the handle when all its calls succeed. -/
theorem onConnect_eq (connect : SqlConnect) :
    client.onConnect connect =
      (connect.succeeds, { client with sqlHandle := connect.succeeds }) := by
  unfold onConnect SqlConnect.succeeds
  cases connect.init <;> cases connect.realConnect <;> by_cases failed : connect.selectDb < 0 <;>
    simp [failed]

section

variable {client} {ping : Int} {connect : SqlConnect}

/-- A client without a handle reports itself offline. -/
theorem testOnline_offline (offline : client.sqlHandle = false) :
    client.testOnline ping connect = ⟨client, false, false⟩ := by
  simp [testOnline, offline]

/-- An answered ping resets the count. -/
theorem testOnline_answered (handle : client.sqlHandle = true) :
    client.testOnline 0 connect = ⟨{ client with iReconnectCount := 0 }, false, true⟩ := by
  simp [testOnline, handle]

/-- A lost connection that is made again resets the count. -/
theorem testOnline_reconnected (handle : client.sqlHandle = true) (lost : ping ≠ 0)
    (connects : connect.succeeds = true) :
    client.testOnline ping connect =
      ⟨{ client with iReconnectCount := 0, sqlHandle := true }, true, true⟩ := by
  simp [testOnline, reConnect, onDisConnect, onConnect_eq, handle, lost, connects]

/-- A lost connection that is not made again is counted and leaves no handle. -/
theorem testOnline_failed (handle : client.sqlHandle = true) (lost : ping ≠ 0)
    (refused : connect.succeeds = false) :
    client.testOnline ping connect =
      ⟨{ client with iReconnectCount := toInt (client.iReconnectCount + 1), sqlHandle := false },
        true,
        !decide (toInt (client.iReconnectCount + 1) > 3)⟩ := by
  simp [testOnline, reConnect, onDisConnect, onConnect_eq, handle, lost, refused]

end

end SqlClient

/-- A client that is connected to an address and port. -/
def connectedSql : SqlClient :=
  ⟨3306, bytes "10.0.0.1", bytes "seal", bytes "secret", bytes "sealdb", 0, 0, true⟩

end NetServer
