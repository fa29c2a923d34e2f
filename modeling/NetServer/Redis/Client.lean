import NetServer.Common.CStd

/-!
# A client of a Redis server, `CRedisClient`

What the server and hiredis do is input: the reply that `redisCommand` returns, none when the
connection is lost, and the outcome of connecting. hiredis writes every command into the buffer
of its context before anything else, so a command on a null context is a fault.
-/

namespace NetServer

/-- `redisReply`, by its type. -/
inductive RedisReply where
  | string (str : Option Bytes)
  | array (element : List (Option RedisReply))
  | integer (integer : Int)
  | nil
  | status (str : Bytes)
  | error (str : Bytes)

/-- What `redisConnectWithTimeout` returns: nothing, a context with its error set, or a context. -/
inductive RedisConnect where
  | noContext
  | err
  | connected
  deriving DecidableEq, Repr

/-- What a client of a data source must not do. -/
inductive ClientFault where
  /-- `redisCommand` is called on a null context. -/
  | nullContext
  /-- A client is used after its deletion. -/
  | deleted
  deriving DecidableEq, Repr

/-- The outcome of a `TestOnline`: the client behind it, whether it called `ReConnect`, and what it
returned. -/
structure Tested (κ : Type) where
  client : κ
  reConnects : Bool
  returns : Bool
  deriving DecidableEq, Repr

/-- The fields of `CRedisClient`, with `pRedisContext` for whether that pointer is set. -/
structure RedisClient where
  address : Bytes
  port : Int
  pRedisContext : Bool
  iReconnectCount : Int
  deriving DecidableEq, Repr

namespace RedisClient

/-- The constructor `CRedisClient::CRedisClient`, which leaves the port and the count as they are in
memory. -/
def new (port iReconnectCount : Int) : RedisClient := ⟨[], port, false, iReconnectCount⟩

variable (client : RedisClient)

/-- `CRedisClient::OnConnect`. -/
def onConnect : RedisConnect → Bool × RedisClient
  | .connected => (true, { client with pRedisContext := true })
  | .err | .noContext => (false, { client with pRedisContext := false })

/-- `CRedisClient::OnInit`. -/
def onInit (address : Bytes) (port : Int) (connect : RedisConnect) : Bool × RedisClient :=
  { client with address, port }.onConnect connect

/-- `CRedisClient::ReConnect`. -/
def reConnect (connect : RedisConnect) : Bool × RedisClient :=
  { client with pRedisContext := false }.onConnect connect

/-- `redisCommand` on the context of a client, to which a connected server answers with `reply`. -/
def redisCommand (reply : Option RedisReply) : Except ClientFault (Option RedisReply) :=
  if client.pRedisContext then .ok reply else .error .nullContext

/-- `CRedisClient::TestOnline` with the reply to its `PING`. -/
def testOnline (ping : Option RedisReply) (connect : RedisConnect) :
    Except ClientFault (Tested RedisClient) := do
  match ← client.redisCommand ping with
  | some _ => return ⟨client, false, true⟩
  | none =>
    let (isOnline, client) := client.reConnect connect
    if isOnline then return ⟨{ client with iReconnectCount := 0 }, true, true⟩
    else
      let iReconnectCount := toInt (client.iReconnectCount + 1)
      return ⟨{ client with iReconnectCount }, true, !decide (iReconnectCount > 3)⟩

section

variable {client} {ping : Option RedisReply} {connect : RedisConnect}

/-- Connecting sets the context when it succeeds. -/
theorem onConnect_eq :
    client.onConnect connect =
      (decide (connect = .connected),
        { client with pRedisContext := decide (connect = .connected) }) := by
  cases connect <;> rfl

/-- Without a context no test returns. -/
theorem testOnline_null (null : client.pRedisContext = false) :
    client.testOnline ping connect = .error .nullContext := by
  simp only [testOnline, redisCommand, null, Bool.false_eq_true, ↓reduceIte]
  rfl

/-- An answered ping changes nothing. -/
theorem testOnline_answered (context : client.pRedisContext = true) (reply : RedisReply) :
    client.testOnline (some reply) connect = .ok ⟨client, false, true⟩ := by
  simp only [testOnline, redisCommand, context, ↓reduceIte]
  rfl

/-- A lost connection that is made again resets the count. -/
theorem testOnline_reconnected (context : client.pRedisContext = true) :
    client.testOnline none .connected =
      .ok ⟨{ client with iReconnectCount := 0, pRedisContext := true }, true, true⟩ := by
  simp only [testOnline, redisCommand, context, ↓reduceIte]
  rfl

/-- A lost connection that is not made again is counted and leaves no context. -/
theorem testOnline_failed (context : client.pRedisContext = true) (refused : connect ≠ .connected) :
    client.testOnline none connect =
      .ok ⟨{ client with
        iReconnectCount := toInt (client.iReconnectCount + 1), pRedisContext := false }, true,
        !decide (toInt (client.iReconnectCount + 1) > 3)⟩ := by
  simp only [testOnline, redisCommand, context, ↓reduceIte]
  cases connect with
  | connected => exact absurd rfl refused
  | err | noContext => rfl

end

/-- `CRedisClient::ExecCommand(cmd)`. -/
def execCommand (reply : Option RedisReply) : Except ClientFault Int := do
  match ← client.redisCommand reply with
  | some _ => return 0
  | none => return -1

/-- `CRedisClient::ExecCommand(cmd, std::string&)`. -/
def execString (reply : Option RedisReply) (result : Bytes) : Except ClientFault (Int × Bytes) := do
  match ← client.redisCommand reply with
  | some (.string (some str)) => return (0, cString str)
  | _ => return (-1, result)

/-- The string of a reply is stored up to its first null, and nothing is stored otherwise. -/
theorem execString_ok {client : RedisClient} {reply : Option RedisReply} {result stored : Bytes}
    {iRet : Int} (ran : client.execString reply result = .ok (iRet, stored)) :
    (∃ str, reply = some (.string (some str)) ∧ stored = cString str) ∨
      (∀ str, reply ≠ some (.string (some str))) ∧ stored = result := by
  unfold execString redisCommand at ran
  split at ran
  · rcases reply with _ | ((_ | str) | _ | _ | _ | _ | _)
    case some.string.some =>
      cases ran
      exact .inl ⟨str, rfl, rfl⟩
    all_goals
      cases ran
      exact .inr ⟨by simp, rfl⟩
  · cases ran

/-- A string is stored up to its first null. -/
theorem execString_string {client : RedisClient} (connected : client.pRedisContext = true)
    (str result : Bytes) :
    client.execString (some (.string (some str))) result = .ok (0, cString str) := by
  rw [execString, redisCommand, if_pos connected]
  rfl

/-- `CRedisClient::ExecCommand(cmd, int&)`. -/
def execInt (reply : Option RedisReply) (result : Int) : Except ClientFault (Int × Int) := do
  match ← client.redisCommand reply with
  | some (.integer integer) => return (0, toInt integer)
  | _ => return (-1, result)

/-- The integer of a reply is stored, and nothing is stored otherwise. -/
theorem execInt_ok {client : RedisClient} {reply : Option RedisReply} {result stored iRet : Int}
    (ran : client.execInt reply result = .ok (iRet, stored)) :
    (∃ integer, reply = some (.integer integer) ∧ stored = toInt integer) ∨ stored = result := by
  unfold execInt redisCommand at ran
  split at ran
  · rcases reply with _ | (_ | _ | _ | integer | _ | _)
    case some.integer =>
      cases ran
      exact .inl ⟨_, rfl, rfl⟩
    all_goals
      cases ran
      exact .inr rfl
  · cases ran

/-- `CRedisClient::ExecCommand(cmd, std::vector<int>&)`, which empties its result first. -/
def execInts (reply : Option RedisReply) : Except ClientFault (Int × List Int) := do
  match ← client.redisCommand reply with
  | some (.array element) =>
    return (0, element.filterMap fun
      | some (.integer integer) => some (toInt integer)
      | _ => none)
  | _ => return (-1, [])

/-- `CRedisClient::ExecCommand(cmd, std::vector<std::string>&)`, which adds to its result and
succeeds when it added something. -/
def execStrings (reply : Option RedisReply) (result : List Bytes) :
    Except ClientFault (Int × List Bytes) := do
  match ← client.redisCommand reply with
  | some (.array element) =>
    let added := element.filterMap fun
      | some (.string (some str)) => some (cString str)
      | _ => none
    return (if added = [] then -1 else 0, result ++ added)
  | _ => return (-1, result)

end RedisClient

/-- A client that is connected to an address and port. -/
def connectedRedis : RedisClient := ⟨bytes "10.0.0.1", 6379, true, 0⟩

end NetServer
