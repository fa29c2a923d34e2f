import NetServer.Redis.Connect
import NetServer.Redis.Session

/-!
# A `CRedisClient` over all its connections

Threads share a client. A call of `ExecCommand` holds its lock from the first to the last use of the
context, but `TestOnline` releases it between its `PING` and `ReConnect`, so that other calls come
in between, and other tests too. Behind `ReConnect` it reads and writes `m_iReconnectCount` without
the lock. Meanwhile the rest of the process opens and closes descriptors.

In `clientMachine` a step is what a thread does while it holds the lock, or one access to the count
without it; the accesses of several threads come in any order, one behind the other. Every
connection is a session with a server of its own (`sessionMachine`).
-/

namespace NetServer

open Lib ReplyState RedisContext

/-- `m_pRedisContext`: null, with the objects in memory, or a context, whose reader has them. -/
inductive ContextPointer where
  | null (objects : Heap ReplyObject)
  | points (link : RedisLink)
  deriving DecidableEq, Repr

/-- The calls of `TestOnline` whose `PING` failed, by where they stand. -/
structure Tests where
  /-- They have not called `ReConnect` yet. -/
  lost : Nat
  /-- `ReConnect` succeeded. -/
  online : Nat
  /-- `ReConnect` failed. -/
  offline : Nat
  /-- `m_iReconnectCount++` has read the count, which was this. -/
  loaded : List Int
  /-- It has written the count, which is still to be compared. -/
  stored : Nat
  deriving DecidableEq, Repr

namespace Tests

/-- No test. -/
def none : Tests := ⟨0, 0, 0, [], 0⟩

variable (tests : Tests)

/-- All tests that stand anywhere. -/
def total : Nat := tests.lost + tests.online + tests.offline + tests.loaded.length + tests.stored

/-- A test is behind its `ReConnect`. -/
def reconnected : Bool → Tests
  | true => { tests with lost := tests.lost - 1, online := tests.online + 1 }
  | false => { tests with lost := tests.lost - 1, offline := tests.offline + 1 }

end Tests

/-- An access to `m_iReconnectCount`, in the order in which a test makes them. -/
inductive CountAccess where
  /-- A test that has reconnected sets the count to 0 and returns. -/
  | reset
  /-- `m_iReconnectCount++` of a test that has not reads the count, -/
  | load
  /-- and writes it, one higher than it was read. -/
  | store (value : Int)
  /-- The test compares the count and returns. -/
  | compare
  deriving DecidableEq, Repr

/-- The fields of `CRedisClient`, and what belongs to them: the open descriptors of the process, the
tests whose `PING` failed, the connections that were made, and the commands that were run on the
last of them. -/
structure LiveClient where
  address : Bytes
  port : Int
  pRedisContext : ContextPointer
  iReconnectCount : Int
  opened : List Int
  tests : Tests
  connections : Nat
  commands : Nat
  deriving DecidableEq, Repr

/-- What happens. -/
inductive ClientEvent where
  /-- `OnInit`. -/
  | onInit (address : Bytes) (port : Int) (calls : ConnectCalls)
  /-- `ExecCommand`. -/
  | exec (call : CommandCall)
  /-- `TestOnline` up to the end of its `PING`. -/
  | ping (writes : List WriteOutcome) (reads : List ReadOutcome)
  /-- `ReConnect` in a `TestOnline` whose `PING` failed. -/
  | reConnect (calls : ConnectCalls)
  /-- A test behind its `ReConnect` accesses the count. -/
  | count (access : CountAccess)
  /-- Another part of the process opens a descriptor. -/
  | opens (fd : Int)
  /-- Another part of the process closes one of its descriptors. -/
  | closes (fd : Int)
  deriving DecidableEq, Repr

/-- What the events return. A command returns the reply it took its result from, and is known by the
number of its connection and its own on that connection. -/
inductive ClientAnswer where
  | initialised (isOnline : Bool)
  | executed (connection command : Nat) (reply : Option (Option ReplyTree))
  | reconnected (isOnline : Bool)
  /-- The test goes on. -/
  | counting
  | tested (isOnline : Bool)
  | elsewhere

namespace LiveClient

/-- The constructor, which leaves the port and the count as they are in memory. -/
def new (port iReconnectCount : Int) (opened : List Int) (objects : Heap ReplyObject) :
    LiveClient :=
  ⟨[], port, .null objects, iReconnectCount, opened, .none, 0, 0⟩

variable (client : LiveClient)

/-- The context, if there is one. -/
def link? : Option RedisLink :=
  match client.pRedisContext with
  | .null _ => none
  | .points link => some link

/-- The objects in memory. -/
def objects : Heap ReplyObject :=
  match client.pRedisContext with
  | .null objects => objects
  | .points link => link.c.reader.objects

/-- The descriptors of the client. -/
def own : List Int := client.link?.toList.map RedisLink.fd

/-- `redisFree` on the context of the client. -/
def free : Except ClientEnd LiveClient :=
  match client.pRedisContext with
  | .null _ => .ok client
  | .points link => do
    let (opened, objects) ← link.redisFree client.opened
    return { client with pRedisContext := .null objects, opened }

/-- `CRedisClient::OnConnect`. -/
def onConnect (calls : ConnectCalls) : Except ClientEnd (Bool × LiveClient) := do
  let (opened, link) ← redisConnectWithTimeout client.opened client.objects client.address calls
  let client := { client with pRedisContext := .points link, opened }
  if link.c.err.isSome then
    let client ← client.free
    return (false, client)
  else return (true, { client with connections := client.connections + 1, commands := 0 })

/-- `CRedisClient::OnInit`. -/
def onInit (address : Bytes) (port : Int) (calls : ConnectCalls) :
    Except ClientEnd (Bool × LiveClient) :=
  { client with address, port }.onConnect calls

/-- `CRedisClient::ReConnect`. -/
def reConnect (calls : ConnectCalls) : Except ClientEnd (Bool × LiveClient) := do
  let client ← client.free
  client.onConnect calls

/-- `CRedisClient::ExecCommand`, with the reply it takes its result from. -/
def execCommand (call : CommandCall) : Except ClientEnd (LiveClient × Option (Option ReplyTree)) :=
  match client.pRedisContext with
  | .null _ => .error .nullContext
  | .points link =>
    match call.run link.c with
    | .error reason => .error (.call reason)
    | .ok (c, reply) =>
      .ok ({ client with
        pRedisContext := .points { link with c }, commands := client.commands + 1 }, reply)

/-- The command of a test. -/
def pingCmd : Bytes := bytes "PING"

/-- `CRedisClient::TestOnline` up to the end of its `PING`. The source frees the reply when it has
released the lock; here it is freed in the same step, which nothing else can tell, as no other
thread has the reply. -/
def ping (writes : List WriteOutcome) (reads : List ReadOutcome) :
    Except ClientEnd (LiveClient × Option (Option ReplyTree)) := do
  let (client, reply) ← client.execCommand ⟨pingCmd, writes, reads⟩
  match reply with
  | some _ => return (client, reply)
  | none => return ({ client with tests.lost := client.tests.lost + 1 }, reply)

/-- `ReConnect` in a `TestOnline` whose `PING` failed. -/
def testReConnect (calls : ConnectCalls) : Except ClientEnd (Bool × LiveClient) := do
  let (isOnline, client) ← client.reConnect calls
  return (isOnline, { client with tests := client.tests.reconnected isOnline })

/-- The rest of `CRedisClient::TestOnline`, one access to the count after the other, and what the
test returns behind the last one. -/
def count : CountAccess → LiveClient × Option Bool
  | .reset =>
    ({ client with iReconnectCount := 0, tests.online := client.tests.online - 1 }, some true)
  | .load =>
    ({ client with
        tests.offline := client.tests.offline - 1
        tests.loaded := client.iReconnectCount :: client.tests.loaded }, none)
  | .store value =>
    ({ client with
        iReconnectCount := toInt (value + 1)
        tests.loaded := client.tests.loaded.erase value
        tests.stored := client.tests.stored + 1 }, none)
  | .compare =>
    ({ client with tests.stored := client.tests.stored - 1 },
      some (!decide (client.iReconnectCount > 3)))

/-- `CRedisClient::~CRedisClient`, with the open descriptors and the objects that are left. -/
def delete : Except ClientEnd (List Int × Heap ReplyObject) := do
  let client ← client.free
  return (client.opened, client.objects)

/-- The effect of an event. -/
def step : ClientEvent → Except ClientEnd (LiveClient × ClientAnswer)
  | .onInit address port calls => do
    let (isOnline, client) ← client.onInit address port calls
    return (client, .initialised isOnline)
  | .exec call => do
    let (next, reply) ← client.execCommand call
    return (next, .executed client.connections client.commands reply)
  | .ping writes reads => do
    let (next, reply) ← client.ping writes reads
    return (next, .executed client.connections client.commands reply)
  | .reConnect calls => do
    let (isOnline, client) ← client.testReConnect calls
    return (client, .reconnected isOnline)
  | .count access =>
    let (client, returns) := client.count access
    .ok (client, (returns.map ClientAnswer.tested).getD .counting)
  | .opens fd => .ok ({ client with opened := fd :: client.opened }, .elsewhere)
  | .closes fd => .ok ({ client with opened := client.opened.erase fd }, .elsewhere)

/-- A test stands in front of an access to the count. -/
def accesses : CountAccess → Bool
  | .reset => decide (0 < client.tests.online)
  | .load => decide (0 < client.tests.offline)
  | .store value => decide (value ∈ client.tests.loaded)
  | .compare => decide (0 < client.tests.stored)

/-- What the threads and the kernel can do. `OnInit` comes first. A descriptor that the kernel gives
out is not open when it does, which is behind `redisFree` in a test. -/
def possible : ClientEvent → Bool
  | .onInit _ _ calls =>
    client.link?.isNone && decide (client.connections = 0 ∧ calls.Fresh client.opened)
  | .exec call => decide (arguments call.format ≠ some [])
  | .ping _ _ => true
  | .reConnect calls => decide (0 < client.tests.lost) &&
      match client.free with
      | .ok client => decide (calls.Fresh client.opened)
      | .error _ => true
  | .count access => client.accesses access
  | .opens fd => decide (0 ≤ fd ∧ fd ∉ client.opened)
  | .closes fd => decide (fd ∈ client.opened ∧ fd ∉ client.own)

/-- What was received on the connection are bytes of the replies to commands that were sent
completely. -/
def Delivers (server : Nat → Nat → ReplyTree) : Prop :=
  ∀ link ∈ client.link?, Delivered (server client.connections) link.c

instance (server : Nat → Nat → ReplyTree) : Decidable (client.Delivers server) :=
  inferInstanceAs (Decidable (∀ link ∈ _, _))

end LiveClient

/-- All uses of a client, with the servers of its connections. -/
def clientMachine (first : LiveClient) (server : Nat → Nat → ReplyTree) :
    Machine LiveClient ClientEvent ClientAnswer ClientEnd where
  init := first
  enabled client event :=
    client.possible event &&
      match client.step event with
      | .ok (next, _) => decide (next.Delivers server)
      | .error _ => true
  step client event := client.step event

namespace LiveClient

variable {client next freed : LiveClient} {calls : ConnectCalls} {reply : Option (Option ReplyTree)}

/-! ## What the calls do -/

/-- Freeing the context changes nothing else. -/
theorem free_ok (ran : client.free = .ok freed) :
    freed = { client with pRedisContext := .null freed.objects, opened := freed.opened } := by
  unfold free at ran
  cases pointer : client.pRedisContext with
  | null held =>
    rw [pointer] at ran
    cases ran
    have same : client.objects = held := by rw [objects, pointer]
    rw [same, ← pointer]
  | points link =>
    rw [pointer] at ran
    obtain ⟨result, -, same⟩ := bind_eq_ok.mp ran
    cases same
    rfl

/-- A client behind a connection that was made. -/
def connect (client : LiveClient) (s : Int) : LiveClient :=
  { client with
    pRedisContext := .points ⟨s, .connected client.objects⟩, opened := s :: client.opened
    connections := client.connections + 1, commands := 0 }

/-- A connection is made or not, unless `FD_SET` writes behind the set. -/
theorem onConnect_spec (client : LiveClient) (calls : ConnectCalls) :
    (calls.overflows = true ∧ client.onConnect calls = .error .wildSet) ∨
    (calls.overflows = false ∧ calls.succeeds = true ∧ ∃ s, calls.socket = .ok s ∧
      client.onConnect calls = .ok (true, client.connect s)) ∨
    (calls.overflows = false ∧ calls.succeeds = false ∧
      client.onConnect calls =
        .ok (false, { client with pRedisContext := .null client.objects })) := by
  unfold onConnect
  rcases redisConnectWithTimeout_spec client.opened client.objects client.address calls with
    ⟨wild, ended⟩ | ⟨fits, succeeds, s, socket, ended⟩ | ⟨fits, fails, err, errstr, ended⟩
  · rw [ended]
    exact .inl ⟨wild, rfl⟩
  · rw [ended]
    exact .inr (.inl ⟨fits, succeeds, s, socket, rfl⟩)
  · rw [ended]
    exact .inr (.inr ⟨fits, fails, rfl⟩)

/-- A command runs on the context. -/
theorem execCommand_ok {call : CommandCall} (ran : client.execCommand call = .ok (next, reply)) :
    ∃ link c, client.pRedisContext = .points link ∧ call.run link.c = .ok (c, reply) ∧
      next = { client with
        pRedisContext := .points { link with c }, commands := client.commands + 1 } := by
  unfold execCommand at ran
  cases pointer : client.pRedisContext with
  | null objects =>
    rw [pointer] at ran
    cases ran
  | points link =>
    rw [pointer] at ran
    cases called : call.run link.c with
    | error reason =>
      simp only [called] at ran
      cases ran
    | ok result =>
      simp only [called] at ran
      cases ran
      exact ⟨link, _, rfl, called, rfl⟩

/-- A `PING` is a command, behind which a test goes on when it failed. -/
theorem ping_ok {writes : List WriteOutcome} {reads : List ReadOutcome}
    (ran : client.ping writes reads = .ok (next, reply)) :
    ∃ behind, client.execCommand ⟨pingCmd, writes, reads⟩ = .ok (behind, reply) ∧
      next = { behind with
        tests.lost := behind.tests.lost + if reply.isNone then 1 else 0 } := by
  obtain ⟨⟨behind, answer⟩, called, looked⟩ := bind_eq_ok.mp ran
  cases answer with
  | none =>
    cases looked
    exact ⟨behind, called, rfl⟩
  | some found =>
    cases looked
    exact ⟨next, called, rfl⟩

/-- A test reconnects, or it finds the server offline. -/
theorem testReConnect_ok {isOnline : Bool}
    (ran : client.testReConnect calls = .ok (isOnline, next)) :
    ∃ freed, client.free = .ok freed ∧
      ((calls.succeeds = true ∧ ∃ s, calls.socket = .ok s ∧ isOnline = true ∧
          next = { freed.connect s with tests := client.tests.reconnected true }) ∨
        (calls.succeeds = false ∧ isOnline = false ∧
          next = { freed with tests := client.tests.reconnected false })) := by
  obtain ⟨⟨connected, behind⟩, reconnected, moved⟩ := bind_eq_ok.mp ran
  obtain ⟨freed, freeing, connecting⟩ := bind_eq_ok.mp reconnected
  have kept := free_ok freeing
  refine ⟨freed, freeing, ?_⟩
  rcases onConnect_spec freed calls with
    ⟨-, ended⟩ | ⟨-, succeeds, s, socket, ended⟩ | ⟨-, fails, ended⟩
  · cases ended.symm.trans connecting
  · cases ended.symm.trans connecting
    cases moved
    rw [kept]
    exact .inl ⟨succeeds, s, socket, rfl, rfl⟩
  · cases ended.symm.trans connecting
    cases moved
    rw [kept]
    exact .inr ⟨fails, rfl, rfl⟩

/-- What an event does. -/
inductive Moves (client : LiveClient) : ClientEvent → ClientAnswer → LiveClient → Prop
  | connects {address : Bytes} {port : Int} {calls : ConnectCalls} {s : Int}
    (succeeds : calls.succeeds = true)
    (socket : calls.socket = .ok s) :
    Moves client (.onInit address port calls) (.initialised true)
      ({ client with address, port }.connect s)
  | refused {address : Bytes} {port : Int} {calls : ConnectCalls} (fails : calls.succeeds = false) :
    Moves client (.onInit address port calls) (.initialised false)
      { client with address, port, pRedisContext := .null client.objects }
  | executes {call : CommandCall} {link : RedisLink} {c : RedisContext}
    {reply : Option (Option ReplyTree)}
    (pointer : client.pRedisContext = .points link) (called : call.run link.c = .ok (c, reply)) :
    Moves client (.exec call) (.executed client.connections client.commands reply)
      { client with pRedisContext := .points { link with c }, commands := client.commands + 1 }
  | pings {writes : List WriteOutcome} {reads : List ReadOutcome} {link : RedisLink}
    {c : RedisContext}
    {reply : Option (Option ReplyTree)} (pointer : client.pRedisContext = .points link)
    (called : CommandCall.run ⟨pingCmd, writes, reads⟩ link.c = .ok (c, reply)) :
    Moves client (.ping writes reads) (.executed client.connections client.commands reply)
      { client with
        pRedisContext := .points { link with c }
        commands := client.commands + 1
        tests.lost := client.tests.lost + if reply.isNone then 1 else 0 }
  | reconnects {calls : ConnectCalls} {freed : LiveClient} {s : Int}
    (freeing : client.free = .ok freed)
    (succeeds : calls.succeeds = true) (socket : calls.socket = .ok s) :
    Moves client (.reConnect calls) (.reconnected true)
      { freed.connect s with tests := client.tests.reconnected true }
  | loses {calls : ConnectCalls} {freed : LiveClient} (freeing : client.free = .ok freed)
    (fails : calls.succeeds = false) :
    Moves client (.reConnect calls) (.reconnected false)
      { freed with tests := client.tests.reconnected false }
  | counts {access : CountAccess} {iReconnectCount : Int} {tests : Tests} {returns : Option Bool}
    {answer : ClientAnswer}
    (isCount : client.count access = ({ client with iReconnectCount, tests }, returns))
    (isAnswer : answer = (returns.map ClientAnswer.tested).getD .counting) :
    Moves client (.count access) answer { client with iReconnectCount, tests }
  | opens (fd : Int) :
    Moves client (.opens fd) .elsewhere { client with opened := fd :: client.opened }
  | closes (fd : Int) :
    Moves client (.closes fd) .elsewhere { client with opened := client.opened.erase fd }

/-- Every event does one of these things. -/
theorem moves_of_step {event : ClientEvent} {answer : ClientAnswer}
    (ran : client.step event = .ok (next, answer)) : Moves client event answer next := by
  cases event with
  | onInit address port calls =>
    obtain ⟨⟨isOnline, behind⟩, connecting, returned⟩ := bind_eq_ok.mp ran
    cases returned
    rcases onConnect_spec { client with address, port } calls with
      ⟨-, ended⟩ | ⟨-, succeeds, s, socket, ended⟩ | ⟨-, fails, ended⟩
    · cases ended.symm.trans connecting
    · cases ended.symm.trans connecting
      exact .connects succeeds socket
    · cases ended.symm.trans connecting
      exact .refused fails
  | exec call =>
    obtain ⟨⟨behind, reply⟩, executed, returned⟩ := bind_eq_ok.mp ran
    cases returned
    obtain ⟨link, c, pointer, called, rfl⟩ := execCommand_ok executed
    exact .executes pointer called
  | ping writes reads =>
    obtain ⟨⟨behind, reply⟩, pinged, returned⟩ := bind_eq_ok.mp ran
    cases returned
    obtain ⟨behind, executed, rfl⟩ := ping_ok pinged
    obtain ⟨link, c, pointer, called, rfl⟩ := execCommand_ok executed
    exact .pings pointer called
  | reConnect calls =>
    obtain ⟨⟨isOnline, behind⟩, finished, returned⟩ := bind_eq_ok.mp ran
    cases returned
    obtain ⟨freed, freeing, ⟨succeeds, s, socket, rfl, rfl⟩ | ⟨fails, rfl, rfl⟩⟩ :=
      testReConnect_ok finished
    · exact .reconnects freeing succeeds socket
    · exact .loses freeing fails
  | count access =>
    cases ran
    cases access <;> exact .counts rfl rfl
  | opens fd =>
    cases ran
    exact .opens fd
  | closes fd =>
    cases ran
    exact .closes fd

/-! ## Descriptors -/

/-- The descriptors of the other parts of the process behind an event. -/
def othersBehind (others : List Int) : ClientEvent → List Int
  | .opens fd => fd :: others
  | .closes fd => others.erase fd
  | _ => others

/-- The open descriptors are those of the other parts of the process, standard input among them, and
the one of the context. -/
structure Accounts (others : List Int) (client : LiveClient) : Prop where
  opened : client.opened.Perm (others ++ client.own)
  nodup : client.opened.Nodup
  nonneg : ∀ fd ∈ client.opened, 0 ≤ fd
  stdin : 0 ∈ others

section

variable {others : List Int}

/-- The descriptor of a context is not 0. -/
theorem Accounts.pos (accounts : Accounts others client) {link : RedisLink}
    (pointer : client.pRedisContext = .points link) :
    0 < link.fd ∧ link.fd ∈ client.opened ∧ (client.opened.erase link.fd).Perm others := by
  have own : client.own = [link.fd] := by rw [own, link?, pointer]; rfl
  have opened := accounts.opened
  rw [own] at opened
  have apart : link.fd ∉ others := by
    have nodup := opened.nodup_iff.mp accounts.nodup
    rw [List.nodup_append] at nodup
    exact fun shared => nodup.2.2 _ shared _ (List.mem_singleton_self _) rfl
  have inside : link.fd ∈ client.opened :=
    opened.mem_iff.mpr (List.mem_append_right _ (List.mem_singleton_self _))
  have nonneg := accounts.nonneg _ inside
  have nonzero : link.fd ≠ 0 := fun zero => apart (zero ▸ accounts.stdin)
  refine ⟨by omega, inside, ?_⟩
  have erased := opened.erase link.fd
  rw [List.erase_append_right _ apart, List.erase_cons_head, List.append_nil] at erased
  exact erased

/-- The descriptor of a context is closed with it, and it is one that is open. -/
theorem Accounts.free (accounts : Accounts others client) :
    client.free ≠ .error .badClose ∧ ∀ {freed}, client.free = .ok freed → Accounts others freed ∧
      freed.own = [] := by
  unfold LiveClient.free
  cases pointer : client.pRedisContext with
  | null objects =>
    have own : client.own = [] := by rw [own, link?, pointer]; rfl
    constructor
    · intro ended
      cases ended
    · intro freed ran
      cases ran
      exact ⟨accounts, own⟩
  | points link =>
    obtain ⟨positive, inside, erased⟩ := accounts.pos pointer
    unfold RedisLink.redisFree RedisLink.closes closeDescriptor
    dsimp only
    rw [if_pos positive, if_pos inside]
    cases link.c.redisFree with
    | error fault =>
      constructor
      · intro ended
        cases ended
      · intro freed ran
        cases ran
    | ok objects =>
      constructor
      · intro ended
        cases ended
      · intro freed ran
        cases ran
        refine ⟨⟨?_, accounts.nodup.erase _, ?_, accounts.stdin⟩, rfl⟩
        · show (client.opened.erase link.fd).Perm (others ++ [])
          rwa [List.append_nil]
        · exact fun fd listed => accounts.nonneg fd (List.mem_of_mem_erase listed)

/-- A new connection has a descriptor of its own. -/
theorem Accounts.connect (accounts : Accounts others client) (none' : client.own = [])
    (fresh : calls.Fresh client.opened) {s : Int} (socket : calls.socket = .ok s) :
    Accounts others (client.connect s) := by
  obtain ⟨nonneg, unused⟩ := fresh s (by rw [socket]; rfl)
  have opened := accounts.opened
  rw [none', List.append_nil] at opened
  refine ⟨?_, List.nodup_cons.mpr ⟨unused, accounts.nodup⟩, ?_, accounts.stdin⟩
  · show (s :: client.opened).Perm (others ++ [s])
    exact (opened.cons s).trans (List.perm_append_singleton s others).symm
  · show ∀ fd ∈ s :: client.opened, 0 ≤ fd
    exact List.forall_mem_cons.mpr ⟨nonneg, accounts.nonneg⟩

/-- The accounts depend on the descriptors alone. -/
theorem Accounts.congr (accounts : Accounts others client) (opened : next.opened = client.opened)
    (own : next.own = client.own) : Accounts others next := by
  constructor
  · rw [opened, own]
    exact accounts.opened
  · rw [opened]
    exact accounts.nodup
  · rw [opened]
    exact accounts.nonneg
  · exact accounts.stdin

/-- Every event keeps the accounts but the end of standard input. -/
theorem Accounts.step {event : ClientEvent} {answer : ClientAnswer}
    (accounts : Accounts others client) (stays : event ≠ .closes 0)
    (possible : client.possible event = true) (moves : Moves client event answer next) :
    Accounts (othersBehind others event) next := by
  cases moves with
  | connects succeeds socket =>
    obtain ⟨unlinked, fresh⟩ := Bool.and_eq_true_iff.mp possible
    have own : client.own = [] := by rw [own, Option.isNone_iff_eq_none.mp unlinked]; rfl
    have connected := accounts.connect own (of_decide_eq_true fresh).2 socket
    exact ⟨connected.opened, connected.nodup, connected.nonneg, connected.stdin⟩
  | refused fails =>
    obtain ⟨unlinked, -⟩ := Bool.and_eq_true_iff.mp possible
    have own : client.own = [] := by rw [own, Option.isNone_iff_eq_none.mp unlinked]; rfl
    apply accounts.congr
    · rfl
    · exact own.symm
  | executes pointer called | pings pointer called =>
    apply accounts.congr
    · rfl
    · rw [own, own, link?, link?, pointer]
      rfl
  | reconnects freeing succeeds socket =>
    obtain ⟨accounts', own⟩ := accounts.free.2 freeing
    have fresh := (Bool.and_eq_true_iff.mp possible).2
    rw [freeing] at fresh
    have connected := accounts'.connect own (of_decide_eq_true fresh) socket
    exact ⟨connected.opened, connected.nodup, connected.nonneg, connected.stdin⟩
  | loses freeing fails =>
    obtain ⟨accounts', -⟩ := accounts.free.2 freeing
    exact ⟨accounts'.opened, accounts'.nodup, accounts'.nonneg, accounts'.stdin⟩
  | counts => exact accounts.congr rfl rfl
  | opens fd =>
    obtain ⟨nonneg, unused⟩ := of_decide_eq_true possible
    exact ⟨accounts.opened.cons fd, List.nodup_cons.mpr ⟨unused, accounts.nodup⟩,
      List.forall_mem_cons.mpr ⟨nonneg, accounts.nonneg⟩, List.mem_cons_of_mem _ accounts.stdin⟩
  | closes fd =>
    obtain ⟨opened, foreign⟩ := of_decide_eq_true possible
    have listed : fd ∈ others := by
      rcases List.mem_append.mp (accounts.opened.mem_iff.mp opened) with listed | listed
      · exact listed
      · exact absurd listed foreign
    refine ⟨?_, accounts.nodup.erase _, fun other kept =>
      accounts.nonneg other (List.mem_of_mem_erase kept), ?_⟩
    · have erased := accounts.opened.erase fd
      rw [List.erase_append_left _ listed] at erased
      exact erased
    · show 0 ∈ others.erase fd
      rw [List.mem_erase_of_ne]
      · exact accounts.stdin
      · rintro rfl
        exact stays rfl

/-- `OnConnect` closes no context. -/
theorem onConnect_ne_badClose (client : LiveClient) (calls : ConnectCalls) :
    client.onConnect calls ≠ .error .badClose := by
  intro ran
  rcases onConnect_spec client calls with ⟨-, ended⟩ | ⟨-, -, s, -, ended⟩ | ⟨-, -, ended⟩
  all_goals cases ended.symm.trans ran

/-- `ExecCommand` closes no context. -/
theorem execCommand_ne_badClose (client : LiveClient) (call : CommandCall) :
    client.execCommand call ≠ .error .badClose := by
  intro ran
  unfold execCommand at ran
  split at ran
  · cases ran
  · split at ran <;> cases ran

/-- No event closes a descriptor that is not open. -/
theorem Accounts.step_ne_badClose (accounts : Accounts others client) (event : ClientEvent) :
    client.step event ≠ .error .badClose := by
  intro ran
  cases event with
  | onInit address port calls =>
    rcases bind_eq_error.mp ran with connecting | ⟨result, -, returned⟩
    · exact onConnect_ne_badClose _ calls connecting
    · cases returned
  | exec call =>
    rcases bind_eq_error.mp ran with executing | ⟨result, -, returned⟩
    · exact execCommand_ne_badClose client call executing
    · cases returned
  | ping writes reads =>
    rcases bind_eq_error.mp ran with pinging | ⟨result, -, returned⟩
    · rcases bind_eq_error.mp pinging with executing | ⟨⟨behind, _ | reply⟩, -, looked⟩
      · exact execCommand_ne_badClose client _ executing
      · cases looked
      · cases looked
    · cases returned
  | reConnect calls =>
    rcases bind_eq_error.mp ran with finishing | ⟨result, -, returned⟩
    · rcases bind_eq_error.mp finishing with reconnecting | ⟨result, -, moved⟩
      · rcases bind_eq_error.mp reconnecting with freeing | ⟨freed, -, connecting⟩
        · exact accounts.free.1 freeing
        · exact onConnect_ne_badClose freed calls connecting
      · cases moved
    · cases returned
  | count access => cases ran
  | opens fd => cases ran
  | closes fd => cases ran

end

/-! ## Sessions -/

/-- The context is in a session with the server of its connection, and without it nothing is left of
any reply. -/
structure Sessions (server : Nat → Nat → ReplyTree) (values : List ReplyObject)
    (client : LiveClient) : Prop where
  null : ∀ {objects}, client.pRedisContext = .null objects → objects.values = values
  points : ∀ {link}, client.pRedisContext = .points link → ∃ past trace,
    past.reduceOption = values ∧
    (sessionMachine past (server client.connections)).Run
      (sessionMachine past (server client.connections)).init trace link.c ∧
    trace.length = client.commands

section

variable {server : Nat → Nat → ReplyTree} {values : List ReplyObject}

/-- A new connection is a new session. -/
theorem sessions_connect (clean : client.objects.values = values) (s : Int) :
    Sessions server values (client.connect s) := by
  constructor
  · intro objects pointer
    cases pointer
  · intro link pointer
    cases pointer
    exact ⟨client.objects.slots, [], clean, .nil _, rfl⟩

/-- Without a context there is no reply object of the client. -/
theorem Sessions.objects (sessions : Sessions server values client)
    (unlinked : client.link?.isNone) : client.objects.values = values := by
  unfold LiveClient.objects
  unfold link? at unlinked
  cases pointer : client.pRedisContext with
  | null objects => exact sessions.null pointer
  | points link =>
    rw [pointer] at unlinked
    cases unlinked

/-- Freeing the context leaves nothing of its replies. -/
theorem Sessions.redisFree (sessions : Sessions server values client)
    (replies : ∀ connection index, (server connection index).Sendable 2) {link : RedisLink}
    (pointer : client.pRedisContext = .points link) :
    ∃ objects, link.c.redisFree = .ok objects ∧ objects.values = values := by
  obtain ⟨past, trace, rfl, ran, -⟩ := sessions.points pointer
  exact (talks_of_run (replies client.connections) ran).free

/-- When the client frees its context, nothing of its replies is left. -/
theorem Sessions.free (sessions : Sessions server values client)
    (replies : ∀ connection index, (server connection index).Sendable 2)
    (freeing : client.free = .ok freed) : freed.objects.values = values := by
  unfold LiveClient.free at freeing
  cases pointer : client.pRedisContext with
  | null objects =>
    rw [pointer] at freeing
    cases freeing
    exact sessions.objects (by rw [link?, pointer]; rfl)
  | points link =>
    rw [pointer] at freeing
    obtain ⟨⟨opened, objects⟩, closed, returned⟩ := bind_eq_ok.mp freeing
    cases returned
    obtain ⟨objects', freed', clean⟩ := sessions.redisFree replies pointer
    obtain ⟨left, -, freeing⟩ := bind_eq_ok.mp closed
    rw [freed'] at freeing
    cases freeing
    exact clean

/-- The command of `PING` has an argument. -/
theorem ping_nonblank : arguments (pingCmd) ≠ some [] := by decide +kernel

/-- A command goes on with the session. -/
theorem Sessions.command {call : CommandCall} {link : RedisLink} {c : RedisContext}
    (sessions : Sessions server values client) (pointer : client.pRedisContext = .points link)
    (called : call.run link.c = .ok (c, reply)) (nonblank : arguments call.format ≠ some [])
    (delivers : Delivered (server client.connections) c) (tests : Tests) :
    Sessions server values { client with
      pRedisContext := .points { link with c }, commands := client.commands + 1, tests } := by
  obtain ⟨past, trace, same, ran, counted⟩ := sessions.points pointer
  constructor
  · intro objects pointer
    cases pointer
  · intro link pointer
    cases pointer
    have steps : (sessionMachine past (server client.connections)).Steps _ call reply c :=
      steps_iff.mpr ⟨nonblank, delivers, called⟩
    refine ⟨past, trace ++ [(call, reply)], same, ran.append (.single steps), ?_⟩
    rw [List.length_append, counted]
    rfl

/-- A reply is the server's to the command, which has the same number among those that the server
has read. -/
theorem Sessions.answers {call : CommandCall} {link : RedisLink} {c : RedisContext}
    {found : Option ReplyTree} (sessions : Sessions server values client)
    (replies : ∀ connection index, (server connection index).Sendable 2)
    (pointer : client.pRedisContext = .points link) (called : call.run link.c = .ok (c, some found))
    (nonblank : arguments call.format ≠ some [])
    (delivers : Delivered (server client.connections) c) :
    found = some (server client.connections client.commands) ∧
      (replyReader.run start c.sent).1[client.commands]? =
        (arguments call.format).map commandTree := by
  obtain ⟨past, trace, -, ran, counted⟩ := sessions.points pointer
  have steps : (sessionMachine past (server client.connections)).Steps link.c call (some found) c :=
    steps_iff.mpr ⟨nonblank, delivers, called⟩
  rw [← counted]
  exact reply_of_run (replies _) ran steps

/-- The context can be freed. -/
theorem Sessions.exists_free {others : List Int} (sessions : Sessions server values client)
    (replies : ∀ connection index, (server connection index).Sendable 2)
    (accounts : Accounts others client) : ∃ freed, client.free = .ok freed := by
  unfold LiveClient.free
  cases pointer : client.pRedisContext with
  | null objects => exact ⟨client, rfl⟩
  | points link =>
    obtain ⟨positive, inside, -⟩ := accounts.pos pointer
    obtain ⟨objects, freed, -⟩ := sessions.redisFree replies pointer
    unfold RedisLink.redisFree RedisLink.closes closeDescriptor
    dsimp only
    rw [if_pos positive, if_pos inside, freed]
    exact ⟨_, rfl⟩

/-- Every event goes on with the session or begins a new one. -/
theorem Sessions.step {event : ClientEvent} {answer : ClientAnswer}
    (sessions : Sessions server values client)
    (replies : ∀ connection index, (server connection index).Sendable 2)
    (possible : client.possible event = true) (delivers : next.Delivers server)
    (moves : Moves client event answer next) : Sessions server values next := by
  cases moves with
  | @connects _ _ _ s =>
    have clean := sessions.objects (Bool.and_eq_true_iff.mp possible).1
    have fresh : Sessions server values (client.connect s) := sessions_connect clean s
    exact ⟨fresh.null, fresh.points⟩
  | refused fails =>
    have clean := sessions.objects (Bool.and_eq_true_iff.mp possible).1
    constructor
    · intro objects pointer
      cases pointer
      exact clean
    · intro link pointer
      cases pointer
  | executes pointer called =>
    exact sessions.command pointer called (of_decide_eq_true possible) (delivers _ rfl) _
  | pings pointer called => exact sessions.command pointer called ping_nonblank (delivers _ rfl) _
  | @reconnects _ freed s freeing =>
    have clean := sessions.free replies freeing
    have fresh : Sessions server values (freed.connect s) := sessions_connect clean s
    exact ⟨fresh.null, fresh.points⟩
  | loses freeing fails =>
    have clean := sessions.free replies freeing
    have unlinked := congrArg pRedisContext (free_ok freeing)
    constructor
    · intro objects pointer
      cases pointer.symm.trans unlinked
      exact clean
    · intro link pointer
      cases pointer.symm.trans unlinked
  | counts | opens | closes => exact ⟨sessions.null, sessions.points⟩

end

end LiveClient

/-! ## Runs -/

open LiveClient

/-- The text of a command. -/
def ClientEvent.format? : ClientEvent → Option Bytes
  | .exec call => some call.format
  | .ping _ _ => some (pingCmd)
  | _ => none

/-- The descriptors of the other parts of the process behind a run. -/
def elsewhere (others : List Int) (trace : List (ClientEvent × ClientAnswer)) : List Int :=
  trace.foldl (fun others entry => othersBehind others entry.1) others

section

variable {first client next last : LiveClient} {server : Nat → Nat → ReplyTree}
  {event : ClientEvent} {answer : ClientAnswer} {trace : List (ClientEvent × ClientAnswer)}
  {port iReconnectCount : Int} {opened others : List Int} {objects : Heap ReplyObject}
  {values : List ReplyObject}

/-- What a step of the machine is. -/
theorem moves_of_steps (steps : (clientMachine first server).Steps client event answer next) :
    client.possible event = true ∧ next.Delivers server ∧ Moves client event answer next := by
  obtain ⟨enabled, ran⟩ := steps
  obtain ⟨possible, delivers⟩ := Bool.and_eq_true_iff.mp enabled
  change client.step event = _ at ran
  rw [ran] at delivers
  exact ⟨possible, of_decide_eq_true delivers, moves_of_step ran⟩

/-- While standard input stays open, every run keeps the accounts. -/
theorem LiveClient.Accounts.run (accounts : Accounts others client)
    (ran : (clientMachine first server).Run client trace last)
    (stays : ∀ entry ∈ trace, entry.1 ≠ .closes 0) : Accounts (elsewhere others trace) last := by
  induction ran generalizing others with
  | nil => exact accounts
  | cons step rest ih =>
    rw [List.forall_mem_cons] at stays
    obtain ⟨possible, -, moves⟩ := moves_of_steps step
    exact ih (accounts.step stays.1 possible moves) stays.2

/-- A new client has no descriptor. -/
theorem accounts_of_run (nodup : opened.Nodup) (nonneg : ∀ fd ∈ opened, 0 ≤ fd)
    (stdin : 0 ∈ opened) (stays : ∀ entry ∈ trace, entry.1 ≠ .closes 0)
    (ran : (clientMachine first server).Run (.new port iReconnectCount opened objects) trace last) :
    Accounts (elsewhere opened trace) last := by
  have none' : Accounts opened (.new port iReconnectCount opened objects) := by
    refine ⟨?_, nodup, nonneg, stdin⟩
    rw [show (LiveClient.new port iReconnectCount opened objects).own = [] from rfl,
      List.append_nil]
    exact .refl _
  exact none'.run ran stays

/-- The commands of a run are sessions, one for each connection. -/
theorem sessions_of_run (replies : ∀ connection index, (server connection index).Sendable 2)
    (ran : (clientMachine first server).Run (.new port iReconnectCount opened objects) trace last) :
    Sessions server objects.values last := by
  apply ran.preserved
  · intro state event answer next sessions step
    obtain ⟨possible, delivers, moves⟩ := moves_of_steps step
    exact sessions.step replies possible delivers moves
  · constructor
    · intro objects pointer
      cases pointer
      rfl
    · intro link pointer
      cases pointer

/-- Calls that get a descriptor for a connection. -/
def reaches (s : Int) (connect : ConnectResult) : ConnectCalls :=
  ⟨.ok s, none, none, none, true, false, connect, none, none, none⟩

/-- A new client in a process that has only standard input open, and a `PONG` for every command. -/
abbrev pongMachine : Machine LiveClient ClientEvent ClientAnswer ClientEnd :=
  clientMachine (.new 0 0 [0] ⟨[]⟩) fun _ => pong

/-- A command is answered. Then the connection is lost during a test, a command fails before the
test goes on, another part of the process opens a descriptor, and the test reconnects. The next test
gets its reply on the new connection. -/
def lostAndFound : List ClientEvent :=
  [.onInit [49] 6379 (reaches 4 .connects),
    .exec ⟨[80, 73, 78, 71], [.takes 100], [.finds [43, 80, 79, 78, 71, 13, 10]]⟩,
    .ping [.takes 5, .takes 100] [.finds [43], .finds []], .exec ⟨[80, 73, 78, 71], [], []⟩,
    .opens 5,
    .reConnect (reaches 4 (.inProgress (.ok true))), .count .reset,
    .ping [.takes 100] [.finds [43, 80, 79, 78, 71, 13, 10]]]

/-- A reply on the second connection. -/
def ClientAnswer.isSecond : ClientAnswer → Bool
  | .executed 2 0 (some _) => true
  | _ => false

/-- `lostAndFound` runs, and ends with a reply on the second connection. -/
theorem exists_run_lostAndFound :
    ∃ trace last, pongMachine.Run pongMachine.init trace last ∧ trace.map Prod.fst = lostAndFound ∧
      ((trace.map Prod.snd).getLast?.any ClientAnswer.isSecond && decide (last.own = [4])) = true :=
  Machine.run_of_exec_check (fun (last : LiveClient) trace =>
    (trace.map Prod.snd).getLast?.any ClientAnswer.isSecond && decide (last.own = [4]))
    (by decide +kernel)

/-- The reply that a command takes its result from is the server's to this very command: among the
commands that the server has read on the connection it has the same number. -/
theorem clientMachine_replies (replies : ∀ connection index, (server connection index).Sendable 2)
    {connection command : Nat} {reply : Option ReplyTree}
    (ran : (clientMachine (.new port iReconnectCount opened objects) server).Run
      (clientMachine (.new port iReconnectCount opened objects) server).init
      (trace ++ [(event, .executed connection command (some reply))]) last) :
    reply = some (server connection command) ∧ ∃ link, last.pRedisContext = .points link ∧
      (replyReader.run start link.c.sent).1[command]? =
        (event.format?.bind arguments).map commandTree := by
  obtain ⟨client, before, lastStep⟩ := ran.split
  have sessions := sessions_of_run replies before
  cases lastStep with
  | cons steps rest =>
    cases rest
    obtain ⟨possible, delivers, moves⟩ := moves_of_steps steps
    cases moves with
    | executes pointer called =>
      obtain ⟨same, sent⟩ :=
        sessions.answers replies pointer called (of_decide_eq_true possible) (delivers _ rfl)
      exact ⟨same, _, rfl, sent⟩
    | pings pointer called =>
      obtain ⟨same, sent⟩ := sessions.answers replies pointer called ping_nonblank (delivers _ rfl)
      refine ⟨same, _, rfl, ?_⟩
      rw [sent, ClientEvent.format?, Option.bind_some]
    | @counts access _ _ _ _ isCount isAnswer =>
      cases access <;> cases isCount <;> cases isAnswer

/-- The command behind the second connection gets that connection's first reply. -/
theorem clientMachine_replies_found :
    ∃ trace event reply last,
      pongMachine.Run pongMachine.init (trace ++ [(event, .executed 2 0 (some reply))]) last ∧
        reply = some (pong 0) := by
  obtain ⟨trace, last, ran, -, facts⟩ := exists_run_lostAndFound
  have second := (Bool.and_eq_true_iff.mp facts).1
  rcases trace.eq_nil_or_concat with rfl | ⟨front, ⟨event, answer⟩, rfl⟩
  · cases second
  · rw [List.concat_eq_append] at ran second
    rw [List.map_append, List.map_singleton, List.getLast?_concat] at second
    unfold Option.any ClientAnswer.isSecond at second
    dsimp only at second
    split at second
    · exact ⟨front, event, _, last, ran, (clientMachine_replies (fun _ => pong_sendable) ran).1⟩
    · cases second

/-- As long as standard input is open: the open descriptors are those of the other parts of the
process and the one of the context, and nothing closes a descriptor that is not open. -/
theorem clientMachine_descriptors (nodup : opened.Nodup) (nonneg : ∀ fd ∈ opened, 0 ≤ fd)
    (stdin : 0 ∈ opened) (stays : ∀ entry ∈ trace, entry.1 ≠ .closes 0)
    (ran : (clientMachine (.new port iReconnectCount opened objects) server).Run
      (clientMachine (.new port iReconnectCount opened objects) server).init trace last) :
    last.opened.Perm (elsewhere opened trace ++ last.own) ∧
      ∀ event, last.step event ≠ .error .badClose := by
  have accounts := accounts_of_run nodup nonneg stdin stays ran
  exact ⟨accounts.opened, accounts.step_ne_badClose⟩

/-- Standard input stays open there. -/
theorem stays_lostAndFound (events : trace.map Prod.fst = lostAndFound) :
    ∀ entry ∈ trace, entry.1 ≠ .closes 0 := by
  have all : ∀ event ∈ trace.map Prod.fst, event ≠ .closes 0 := by
    rw [events]
    decide
  exact fun entry listed => all entry.1 (List.mem_map_of_mem listed)

/-- The context that was replaced had its descriptor closed. -/
theorem clientMachine_descriptors_found : ∃ trace last,
    pongMachine.Run pongMachine.init trace last ∧ trace.map Prod.fst = lostAndFound ∧
      last.own = [4] ∧ last.opened.Perm (elsewhere [0] trace ++ last.own) := by
  obtain ⟨trace, last, ran, events, facts⟩ := exists_run_lostAndFound
  have own := of_decide_eq_true (Bool.and_eq_true_iff.mp facts).2
  have accounts := clientMachine_descriptors (by decide) (by decide) (by decide)
    (stays_lostAndFound events) ran
  exact ⟨trace, last, ran, events, own, accounts.1⟩

/-- As long as standard input is open: behind every run the destructor gives back everything, the
descriptor of the context and all objects of its replies. -/
theorem clientMachine_delete (replies : ∀ connection index, (server connection index).Sendable 2)
    (nodup : opened.Nodup) (nonneg : ∀ fd ∈ opened, 0 ≤ fd) (stdin : 0 ∈ opened)
    (stays : ∀ entry ∈ trace, entry.1 ≠ .closes 0)
    (ran : (clientMachine (.new port iReconnectCount opened objects) server).Run
      (clientMachine (.new port iReconnectCount opened objects) server).init trace last) :
    ∃ opened' objects', last.delete = .ok (opened', objects') ∧
      opened'.Perm (elsewhere opened trace) ∧ objects'.values = objects.values := by
  have accounts := accounts_of_run nodup nonneg stdin stays ran
  have sessions := sessions_of_run replies ran
  obtain ⟨freed, freeing⟩ := sessions.exists_free replies accounts
  obtain ⟨accounts', own⟩ := accounts.free.2 freeing
  refine ⟨freed.opened, freed.objects, ?_, ?_, sessions.free replies freeing⟩
  · rw [delete, freeing]
    rfl
  · have left := accounts'.opened
    rwa [own, List.append_nil] at left

/-- Only standard input and the descriptor of the other part of the process stay open. -/
theorem clientMachine_delete_found : ∃ trace last, pongMachine.Run pongMachine.init trace last ∧
    trace.map Prod.fst = lostAndFound ∧ ∃ opened objects, last.delete = .ok (opened, objects) ∧
      opened.Perm (elsewhere [0] trace) ∧ objects.values = [] := by
  obtain ⟨trace, last, ran, events, -⟩ := exists_run_lostAndFound
  exact ⟨trace, last, ran, events, clientMachine_delete (fun _ => pong_sendable) (by decide)
    (by decide) (by decide) (stays_lostAndFound events) ran⟩

-- When standard input is closed, the kernel gives its number to a connection, and `redisFree`,
-- which closes descriptors above 0 only, leaves it open.
example : (pongMachine.exec pongMachine.init
    [.closes 0, .onInit [49] 6379 (reaches 0 .connects)]).any
      (fun result => decide (result.1.delete = .ok ([0], ⟨[]⟩))) = true := by
  decide +kernel

/-! ## Tests -/

/-- The attempt to connect of an event. -/
def ClientEvent.calls? : ClientEvent → Option ConnectCalls
  | .onInit _ _ calls | .reConnect calls => some calls
  | .exec _ | .ping _ _ | .count _ | .opens _ | .closes _ => none

/-- The attempts to connect of a run. -/
def dialled (trace : List (ClientEvent × ClientAnswer)) : List ConnectCalls :=
  trace.flatMap fun entry => entry.1.calls?.toList

/-- There is a context when the last attempt to connect succeeded. -/
def IsLinked (client : LiveClient) (past : List ConnectCalls) : Prop :=
  client.link?.isSome = past.getLast?.any ConnectCalls.succeeds

/-- In every step the last attempt to connect decides whether there is a context. -/
theorem IsLinked.step {past : List ConnectCalls} (isLinked : IsLinked client past)
    (moves : Moves client event answer next) : IsLinked next (past ++ event.calls?.toList) := by
  unfold IsLinked
  cases moves with
  | connects succeeds | reconnects _ succeeds =>
    rw [ClientEvent.calls?, Option.toList_some, List.getLast?_concat, Option.any_some, succeeds]
    rfl
  | refused fails =>
    rw [ClientEvent.calls?, Option.toList_some, List.getLast?_concat, Option.any_some, fails]
    rfl
  | loses freeing fails =>
    rw [ClientEvent.calls?, Option.toList_some, List.getLast?_concat, Option.any_some, fails,
      free_ok freeing]
    rfl
  | executes pointer | pings pointer =>
    rw [ClientEvent.calls?, Option.toList_none, List.append_nil, ← isLinked, link?, link?, pointer]
    rfl
  | counts | opens | closes =>
    rw [ClientEvent.calls?, Option.toList_none, List.append_nil, ← isLinked]
    rfl

/-- In every run the last attempt to connect decides whether there is a context. -/
theorem IsLinked.run {past : List ConnectCalls} (isLinked : IsLinked client past)
    (ran : (clientMachine first server).Run client trace last) :
    IsLinked last (past ++ dialled trace) := by
  induction ran generalizing past with
  | nil => rwa [dialled, List.flatMap_nil, List.append_nil]
  | cons step rest ih =>
    have behind := ih (isLinked.step (moves_of_steps step).2.2)
    rwa [List.append_assoc] at behind

/-- A command gets a null context exactly when the last attempt to connect failed. One whose pending
connection can be written to has not, whatever the server does with it. -/
theorem clientMachine_nullContext_iff
    (ran : (clientMachine (.new port iReconnectCount opened objects) server).Run
      (clientMachine (.new port iReconnectCount opened objects) server).init trace last)
    (call : CommandCall) :
    last.step (.exec call) = .error .nullContext ↔
      (dialled trace).getLast?.any ConnectCalls.succeeds = false := by
  have first : IsLinked (.new port iReconnectCount opened objects) [] := rfl
  have isLinked := first.run ran
  rw [List.nil_append] at isLinked
  rw [← isLinked]
  change (last.execCommand call >>= _) = _ ↔ _
  unfold execCommand link?
  cases last.pRedisContext with
  | null objects => exact ⟨fun _ => rfl, fun _ => rfl⟩
  | points link =>
    constructor
    · intro ended
      dsimp only at ended
      cases called : call.run link.c with
      | error reason =>
        rw [called] at ended
        cases ended
      | ok result =>
        rw [called] at ended
        cases ended
    · intro unlinked
      cases unlinked

/-- The attempts to connect depend on the events only. -/
theorem dialled_eq (trace : List (ClientEvent × ClientAnswer)) :
    dialled trace = (trace.map Prod.fst).flatMap fun event => event.calls?.toList := by
  rw [List.flatMap_map]
  rfl

/-- A command behind a refused reconnection uses the null context. -/
theorem clientMachine_nullContext_iff_refused :
    ∃ trace last, pongMachine.Run pongMachine.init trace last ∧
      trace.map Prod.fst = [.onInit [49] 6379 (reaches 4 .connects), .ping [.takes 100] [.finds []],
        .reConnect (reaches 4 (.fails []))] ∧
        last.step (.exec ⟨pingCmd, [], []⟩) = .error .nullContext := by
  obtain ⟨trace, last, ran, events, -⟩ := Machine.run_of_exec_any (fun _ : LiveClient => true)
    (by decide +kernel : (pongMachine.exec pongMachine.init
      [.onInit [49] 6379 (reaches 4 .connects), .ping [.takes 100] [.finds []],
      .reConnect (reaches 4 (.fails []))]).any (fun _ => true) = true)
  have failed : (dialled trace).getLast?.any ConnectCalls.succeeds = false := by
    rw [dialled_eq, events]
    rfl
  exact ⟨trace, last, ran, events, (clientMachine_nullContext_iff ran _).mpr failed⟩

/-- A test in which the server is reached again. -/
def ClientEvent.reconnects : ClientEvent → Bool
  | .reConnect calls => calls.succeeds
  | .onInit _ _ _ | .exec _ | .ping _ _ | .count _ | .opens _ | .closes _ => false

/-- What the count has been set to: 0 when a test has reconnected, and what memory held before. -/
def countBase (iReconnectCount : Int) (isReset : Bool) : Int :=
  if isReset then 0 else iReconnectCount

/-- A client whose tests do not overlap, from a count in memory and with or without a test that has
reconnected. A test that finds the server offline leaves no context, so that none comes behind it,
and the count that it reads is the one that was set last. -/
structure Counted (memory : Int) (isReset : Bool) (client : LiveClient) : Prop where
  unused : client.connections = 0 →
    client.tests = .none ∧ client.iReconnectCount = memory ∧ isReset = false
  used : client.link?.isSome → 0 < client.connections
  linked : client.link?.isSome →
    client.tests.offline = 0 ∧ client.tests.loaded = [] ∧ client.tests.stored = 0
  unlinked : client.link?.isNone → client.tests.lost = 0 ∧ client.tests.online = 0
  idle : client.link?.isSome → client.tests.online = 0 →
    client.iReconnectCount = countBase memory isReset
  online : 0 < client.tests.online → isReset = true
  offline : 0 < client.tests.offline → client.iReconnectCount = countBase memory isReset
  loaded : ∀ value ∈ client.tests.loaded, value = countBase memory isReset
  stored : 0 < client.tests.stored →
    client.iReconnectCount = toInt (countBase memory isReset + 1)

variable {memory : Int} {isReset : Bool}

/-- A client with a test that lost its connection, or that is back online, has a context. -/
theorem Counted.isSome_link? (counted : Counted memory isReset client)
    (behind : 0 < client.tests.lost ∨ 0 < client.tests.online) : client.link?.isSome := by
  by_contra unlinked
  have none' := counted.unlinked (Option.not_isSome_iff_eq_none.mp unlinked ▸ rfl)
  omega

/-- A client with a test that is offline has none. -/
theorem Counted.link?_eq_none (counted : Counted memory isReset client)
    (behind : 0 < client.tests.offline ∨ client.tests.loaded ≠ [] ∨ 0 < client.tests.stored) :
    client.link? = none := by
  by_contra isLinked
  obtain ⟨offline, loaded, stored⟩ := counted.linked (Option.isSome_iff_ne_none.mpr isLinked)
  rcases behind with some' | some' | some'
  · omega
  · exact some' loaded
  · omega

/-- All this depends on the context, the tests and the count. -/
theorem Counted.congr (counted : Counted memory isReset client)
    (connections : next.connections = client.connections)
    (isLinked : next.link?.isSome = client.link?.isSome) (tests : next.tests = client.tests)
    (count : next.iReconnectCount = client.iReconnectCount) : Counted memory isReset next := by
  have isNone : next.link?.isNone = client.link?.isNone := by
    rw [← Option.not_isSome, ← Option.not_isSome, isLinked]
  constructor
  · rw [connections, tests, count]
    exact counted.unused
  · rw [isLinked, connections]
    exact counted.used
  · rw [isLinked, tests]
    exact counted.linked
  · rw [isNone, tests]
    exact counted.unlinked
  · rw [isLinked, tests, count]
    exact counted.idle
  · rw [tests]
    exact counted.online
  · rw [tests, count]
    exact counted.offline
  · rw [tests]
    exact counted.loaded
  · rw [tests, count]
    exact counted.stored

/-- The first connection is made before any test. -/
theorem Counted.connect (counted : Counted memory isReset client) (first : client.connections = 0)
    (address : Bytes) (port s : Int) :
    Counted memory isReset ({ client with address, port }.connect s) := by
  obtain ⟨tests, count, rfl⟩ := counted.unused first
  have none' : ({ client with address, port }.connect s).tests = .none := tests
  constructor
  · exact fun zero => absurd zero (Nat.succ_ne_zero _)
  · exact fun _ => Nat.succ_pos _
  · rw [none']
    exact fun _ => ⟨rfl, rfl, rfl⟩
  · exact nofun
  · exact fun _ _ => count
  · rw [none']
    exact nofun
  · rw [none']
    exact nofun
  · rw [none']
    exact fun _ listed => absurd listed List.not_mem_nil
  · rw [none']
    exact nofun

/-- A test begins on a connection. -/
theorem Counted.ping (counted : Counted memory isReset client) {link : RedisLink}
    (pointer : client.pRedisContext = .points link) (c : RedisContext) (lost : Nat) :
    Counted memory isReset
      { client with
        pRedisContext := .points { link with c }
        commands := client.commands + 1
        tests.lost := lost } := by
  have isLinked : client.link?.isSome := by rw [link?, pointer]; rfl
  have used := counted.used isLinked
  constructor
  · intro zero
    change client.connections = 0 at zero
    omega
  · exact fun _ => used
  · exact fun _ => counted.linked isLinked
  · exact nofun
  · exact fun _ => counted.idle isLinked
  · exact counted.online
  · exact counted.offline
  · exact counted.loaded
  · exact counted.stored

/-- A test reconnects, whatever the count is. -/
theorem Counted.reconnect (counted : Counted memory isReset client) (lost : 0 < client.tests.lost)
    (freed : LiveClient) (s : Int) :
    Counted memory true { freed.connect s with tests := client.tests.reconnected true } := by
  obtain ⟨offline, loaded, stored⟩ := counted.linked (counted.isSome_link? (.inl lost))
  constructor
  · exact fun zero => absurd zero (Nat.succ_ne_zero _)
  · exact fun _ => Nat.succ_pos _
  · exact fun _ => ⟨offline, loaded, stored⟩
  · exact nofun
  · exact fun _ zero => absurd zero (Nat.succ_ne_zero _)
  · exact fun _ => rfl
  · intro some'
    change 0 < client.tests.offline at some'
    omega
  · intro value listed
    change value ∈ client.tests.loaded at listed
    rw [loaded] at listed
    cases listed
  · intro some'
    change 0 < client.tests.stored at some'
    omega

/-- The only test that is in progress finds the server offline. -/
theorem Counted.lose (counted : Counted memory isReset client) (lost : 0 < client.tests.lost)
    (few : client.tests.total ≤ 1) {freed : LiveClient} (freeing : client.free = .ok freed) :
    Counted memory isReset { freed with tests := client.tests.reconnected false } := by
  have isLinked := counted.isSome_link? (.inl lost)
  have used := counted.used isLinked
  obtain ⟨offline, loaded, stored⟩ := counted.linked isLinked
  have alone : client.tests.lost = 1 ∧ client.tests.online = 0 := by
    unfold Tests.total at few
    omega
  have count := counted.idle isLinked alone.2
  rw [free_ok freeing]
  constructor
  · intro zero
    change client.connections = 0 at zero
    omega
  · exact nofun
  · exact nofun
  · intro _
    change client.tests.lost - 1 = 0 ∧ client.tests.online = 0
    omega
  · exact nofun
  · intro some'
    change 0 < client.tests.online at some'
    omega
  · exact fun _ => count
  · intro value listed
    change value ∈ client.tests.loaded at listed
    rw [loaded] at listed
    cases listed
  · intro some'
    change 0 < client.tests.stored at some'
    omega

/-- The only test that is in progress sets the count back. -/
theorem Counted.reset (counted : Counted memory isReset client) (few : client.tests.total ≤ 1)
    (online : 0 < client.tests.online) : Counted memory isReset (client.count .reset).1 := by
  unfold Tests.total at few
  have used := counted.used (counted.isSome_link? (.inr online))
  have reset := counted.online online
  subst reset
  constructor
  · intro zero
    change client.connections = 0 at zero
    omega
  · exact counted.used
  · exact counted.linked
  · intro unlinked
    have none' := counted.unlinked unlinked
    omega
  · exact fun _ _ => rfl
  · exact fun _ => rfl
  · intro offline
    change 0 < client.tests.offline at offline
    omega
  · exact counted.loaded
  · intro stored
    change 0 < client.tests.stored at stored
    omega

/-- The only test that is in progress reads the count. -/
theorem Counted.load (counted : Counted memory isReset client) (few : client.tests.total ≤ 1)
    (offline : 0 < client.tests.offline) : Counted memory isReset (client.count .load).1 := by
  unfold Tests.total at few
  have unlinked := counted.link?_eq_none (.inl offline)
  have count := counted.offline offline
  have nothing : client.tests.loaded = [] := List.length_eq_zero_iff.mp (by omega)
  constructor
  · intro zero
    have none' := congrArg Tests.offline (counted.unused zero).1
    change client.tests.offline = 0 at none'
    omega
  · exact counted.used
  · intro isLinked
    change client.link?.isSome at isLinked
    rw [unlinked] at isLinked
    cases isLinked
  · exact counted.unlinked
  · exact counted.idle
  · exact counted.online
  · intro more
    change 0 < client.tests.offline - 1 at more
    omega
  · intro value listed
    change value ∈ client.iReconnectCount :: client.tests.loaded at listed
    rw [nothing, List.mem_singleton] at listed
    rw [listed, count]
  · exact counted.stored

/-- The only test that is in progress writes the count that it read, plus one. -/
theorem Counted.store (counted : Counted memory isReset client) (few : client.tests.total ≤ 1)
    {value : Int} (listed : value ∈ client.tests.loaded) :
    Counted memory isReset (client.count (.store value)).1 := by
  unfold Tests.total at few
  have nonempty := List.ne_nil_of_mem listed
  have long := List.length_pos_iff.mpr nonempty
  have unlinked := counted.link?_eq_none (.inr (.inl nonempty))
  have loaded := counted.loaded value listed
  constructor
  · intro zero
    exact absurd (congrArg Tests.loaded (counted.unused zero).1) nonempty
  · exact counted.used
  · intro isLinked
    change client.link?.isSome at isLinked
    rw [unlinked] at isLinked
    cases isLinked
  · exact counted.unlinked
  · intro isLinked
    change client.link?.isSome at isLinked
    rw [unlinked] at isLinked
    cases isLinked
  · exact counted.online
  · intro offline
    change 0 < client.tests.offline at offline
    omega
  · intro other others
    exact counted.loaded other (List.mem_of_mem_erase others)
  · intro _
    change toInt (value + 1) = _
    rw [loaded]

/-- The only test that is in progress looks at the count, and ends. -/
theorem Counted.compare (counted : Counted memory isReset client) (few : client.tests.total ≤ 1)
    (stored : 0 < client.tests.stored) : Counted memory isReset (client.count .compare).1 := by
  unfold Tests.total at few
  constructor
  · intro zero
    have none' := congrArg Tests.stored (counted.unused zero).1
    change client.tests.stored = 0 at none'
    omega
  · exact counted.used
  · intro isLinked
    have none' := (counted.linked isLinked).2.2
    omega
  · exact counted.unlinked
  · exact counted.idle
  · exact counted.online
  · exact counted.offline
  · exact counted.loaded
  · intro more
    change 0 < client.tests.stored - 1 at more
    omega

/-- The only test that is in progress accesses the count. -/
theorem Counted.access (counted : Counted memory isReset client) (few : client.tests.total ≤ 1)
    {access : CountAccess} (accesses : client.accesses access = true) :
    Counted memory isReset (client.count access).1 := by
  cases access with
  | reset => exact counted.reset few (of_decide_eq_true accesses)
  | load => exact counted.load few (of_decide_eq_true accesses)
  | store value => exact counted.store few (of_decide_eq_true accesses)
  | compare => exact counted.compare few (of_decide_eq_true accesses)

/-- While tests do not overlap, every step keeps the count in this way. -/
theorem Counted.step (counted : Counted memory isReset client) (few : client.tests.total ≤ 1)
    (possible : client.possible event = true) (moves : Moves client event answer next) :
    Counted memory (isReset || event.reconnects) next := by
  have lost : ∀ {calls}, event = .reConnect calls → 0 < client.tests.lost := by
    rintro calls rfl
    exact of_decide_eq_true (Bool.and_eq_true_iff.mp possible).1
  cases moves with
  | @connects address port calls s succeeds socket =>
    rw [ClientEvent.reconnects, Bool.or_false]
    exact counted.connect (of_decide_eq_true (Bool.and_eq_true_iff.mp possible).2).1 address port s
  | refused fails =>
    have unlinked := Option.isNone_iff_eq_none.mp (Bool.and_eq_true_iff.mp possible).1
    rw [ClientEvent.reconnects, Bool.or_false]
    apply counted.congr
    · rfl
    · rw [unlinked]
      rfl
    · rfl
    · rfl
  | executes pointer called =>
    rw [ClientEvent.reconnects, Bool.or_false]
    apply counted.congr
    · rfl
    · rw [link?, link?, pointer]
      rfl
    · rfl
    · rfl
  | pings pointer called =>
    rw [ClientEvent.reconnects, Bool.or_false]
    exact counted.ping pointer _ _
  | reconnects freeing succeeds socket =>
    rw [ClientEvent.reconnects, succeeds, Bool.or_true]
    exact counted.reconnect (lost rfl) _ _
  | loses freeing fails =>
    rw [ClientEvent.reconnects, fails, Bool.or_false]
    exact counted.lose (lost rfl) few freeing
  | counts isCount =>
    have behind := counted.access few possible
    rw [isCount] at behind
    rwa [ClientEvent.reconnects, Bool.or_false]
  | opens fd | closes fd =>
    rw [ClientEvent.reconnects, Bool.or_false]
    exact counted.congr rfl rfl rfl rfl

/-- While tests do not overlap, every run keeps the count in this way. -/
theorem Counted.run (counted : Counted memory isReset client)
    (ran : (clientMachine first server).Run client trace last)
    (single : (clientMachine first server).Throughout (fun client _ => client.tests.total ≤ 1)
      client trace) :
    Counted memory (isReset || trace.any fun entry => entry.1.reconnects) last := by
  induction ran generalizing isReset with
  | nil => rwa [List.any_nil, Bool.or_false]
  | cons step rest ih =>
    obtain ⟨few, behind⟩ := (Machine.throughout_cons step).mp single
    obtain ⟨possible, -, moves⟩ := moves_of_steps step
    rw [List.any_cons, ← Bool.or_assoc]
    exact ih (counted.step few possible moves) behind

/-- A new client has counted nothing. -/
theorem counted_new (port memory : Int) (opened : List Int) (objects : Heap ReplyObject) :
    Counted memory false (.new port memory opened objects) where
  unused := fun _ => ⟨rfl, rfl, rfl⟩
  used := nofun
  linked := nofun
  unlinked := fun _ => ⟨rfl, rfl⟩
  idle := nofun
  online := nofun
  offline := nofun
  loaded := fun _ listed => absurd listed List.not_mem_nil
  stored := nofun

/-- As long as tests do not overlap, a test reports the server offline exactly when it has counted,
no test before it has reconnected, and memory held 3 or more as `m_iReconnectCount`, which the
constructor does not set, but not the greatest `int`. -/
theorem clientMachine_tests (low : -2 ^ 31 ≤ iReconnectCount) (high : iReconnectCount < 2 ^ 31)
    {isOnline : Bool} (ran : (clientMachine (.new port iReconnectCount opened objects) server).Run
      (clientMachine (.new port iReconnectCount opened objects) server).init
      (trace ++ [(event, .tested isOnline)]) last)
    (single : (clientMachine (.new port iReconnectCount opened objects) server).Throughout
      (fun client _ => client.tests.total ≤ 1)
      (clientMachine (.new port iReconnectCount opened objects) server).init
      (trace ++ [(event, .tested isOnline)])) :
    isOnline = false ↔ event = .count .compare ∧ (∀ entry ∈ trace, entry.1.reconnects = false) ∧
      3 ≤ iReconnectCount ∧ iReconnectCount < 2 ^ 31 - 1 := by
  obtain ⟨client, before, lastStep⟩ := ran.split
  have early : (clientMachine (.new port iReconnectCount opened objects) server).Throughout
      (fun client _ => client.tests.total ≤ 1) (.new port iReconnectCount opened objects) trace :=
    fun front event answer shorter =>
      single front event answer (shorter.trans (List.prefix_append _ _))
  have counted := (counted_new port iReconnectCount opened objects).run before early
  rw [Bool.false_or] at counted
  cases lastStep with
  | cons step rest =>
    obtain ⟨possible, -, moves⟩ := moves_of_steps step
    generalize isAnswer : ClientAnswer.tested isOnline = answer at moves
    cases moves with
    | connects | refused | executes | pings | reconnects | loses | opens | closes => cases isAnswer
    | @counts access count tests returns _ isCount isCounted =>
      cases access with
      | load | store =>
        cases isCount
        cases isAnswer.trans isCounted
      | reset =>
        cases isCount
        cases isAnswer.trans isCounted
        exact iff_of_false nofun fun both => by cases both.1
      | compare =>
        cases isCount
        cases isAnswer.trans isCounted
        have count := counted.stored (of_decide_eq_true possible)
        rw [Bool.not_eq_false', decide_eq_true_iff, count, and_iff_right rfl]
        by_cases reset : ∀ entry ∈ trace, entry.1.reconnects = false
        · have never : (trace.any fun entry => entry.1.reconnects) = false := by
            rw [List.any_eq_false]
            intro entry listed
            rw [reset entry listed]
            exact Bool.false_ne_true
          rw [never, and_iff_right reset, countBase, toInt, Int.bmod]
          simp only [Bool.false_eq_true, ↓reduceIte]
          omega
        · have once : (trace.any fun entry => entry.1.reconnects) = true := by
            by_contra never
            refine reset fun entry listed => ?_
            by_contra isTrue
            exact never (List.any_eq_true.mpr ⟨entry, listed, by simpa using isTrue⟩)
          rw [once]
          refine iff_of_false ?_ fun both => reset both.1
          change ¬toInt (0 + 1) > 3
          decide

/-- An answer of a test that gives up. -/
def ClientAnswer.isOffline : ClientAnswer → Bool
  | .tested false => true
  | .initialised _ | .executed _ _ _ | .reconnected _ | .counting | .tested true | .elsewhere =>
    false

/-- A test loses its connection and finds the server offline. -/
def lostOnce : List ClientEvent :=
  [.onInit [49] 6379 (reaches 4 .connects), .ping [.takes 100] [.finds []],
    .reConnect (reaches 4 (.fails [])), .count .load, .count (.store 3), .count .compare]

/-- Where memory held 3, the first test that finds the server offline says so. -/
theorem clientMachine_tests_garbage : ∃ trace event last,
    (clientMachine (.new 0 3 [0] ⟨[]⟩) fun _ => pong).Run (.new 0 3 [0] ⟨[]⟩)
      (trace ++ [(event, .tested false)]) last ∧
      event = .count .compare ∧ ∀ entry ∈ trace, entry.1.reconnects = false := by
  obtain ⟨trace, last, ran, events, offline⟩ := Machine.run_of_exec_check
    (fun (_ : LiveClient) trace => (trace.map Prod.snd).getLast?.any ClientAnswer.isOffline)
    (by decide +kernel : ((clientMachine (.new 0 3 [0] ⟨[]⟩) fun _ => pong).exec
      (.new 0 3 [0] ⟨[]⟩) lostOnce).any
        (fun result => (result.2.map Prod.snd).getLast?.any ClientAnswer.isOffline) = true)
  have single : (clientMachine (.new 0 3 [0] ⟨[]⟩) fun _ => pong).Throughout
      (fun client _ => client.tests.total ≤ 1) (.new 0 3 [0] ⟨[]⟩) trace := by
    refine ran.throughout_of_checkAll (fun client _ => decide (client.tests.total ≤ 1)) ?_ ?_
    · intro client event checked
      exact of_decide_eq_true checked
    · rw [events]
      decide +kernel
  rcases trace.eq_nil_or_concat with rfl | ⟨front, ⟨event, answer⟩, rfl⟩
  · cases offline
  · rw [List.concat_eq_append] at ran single offline
    rw [List.map_append, List.map_singleton, List.getLast?_concat] at offline
    unfold Option.any ClientAnswer.isOffline at offline
    dsimp only at offline
    split at offline
    · obtain ⟨compares, never, -⟩ :=
        (clientMachine_tests (by decide) (by decide) ran single).mp rfl
      exact ⟨front, event, last, ran, compares, never⟩
    all_goals cases offline

/-- Two tests overlap on a connection that is lost. The first one does not reach the server, the
second one does, and what it sets the count to is overwritten by what the first one read before. -/
def twoTests (value : Int) : List ClientEvent :=
  [.ping [.takes 100] [.finds []], .ping [] [], .reConnect (reaches 4 (.fails [])),
    .reConnect (reaches 4 .connects), .count .load, .count .reset, .count (.store value),
    .count .compare]

-- Tests that overlap report the server offline when this happens four times, although every
-- connection that is lost is replaced.
example : (pongMachine.exec pongMachine.init
    (.onInit [49] 6379 (reaches 4 .connects) ::
      (twoTests 0 ++ twoTests 1 ++ twoTests 2 ++ twoTests 3))).any
    (fun result => (result.2.map Prod.snd).getLast?.any ClientAnswer.isOffline &&
      decide (result.1.own = [4])) = true := by
  decide +kernel

-- A server that refuses late: its connections can be written to, no command is answered, and the
-- tests find it online.
example : (pongMachine.exec pongMachine.init
    [.onInit [49] 6379 (reaches 4 (.inProgress (.ok true))), .ping [.fails false []] [],
      .reConnect (reaches 4 (.inProgress (.ok true))), .count .reset, .ping [.fails false []] [],
      .reConnect (reaches 4 (.inProgress (.ok true))), .count .reset]).any
    (fun result => result.2.all fun entry => !entry.2.isOffline) = true := by
  decide +kernel

end

end NetServer
