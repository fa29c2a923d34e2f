import NetServer.Redis.Overloads
import NetServer.Redis.Reconnect

/-!
# Results of `ExecCommand` from the memory of its reply

The forms of `ExecCommand` follow the pointers of the reply that hiredis made, take their result
from the objects there and free them. Read from memory, a reply gives the result that it gives as a
value (`look_layout`), and so a command returns what the client returns for the server's reply to it
(`clientMachine_results`). An array with a count but without a vector, which no server sends, would
be read through a null pointer.
-/

namespace NetServer

open Lib

/-- What the reader of a reply must not do. -/
inductive LookFault where
  /-- The vector of an array is null. -/
  | null
  /-- The vector has no such element. -/
  | outside
  /-- An object that was freed is read. -/
  | dangling
  deriving DecidableEq, Repr

/-- The object that `pReply->element[i]` points to, none when it is null. -/
def elementAt (objects : Heap ReplyObject) (element : Option (List (Option Nat))) (i : Nat) :
    Except LookFault (Option ReplyObject) :=
  match element with
  | none => .error .null
  | some vector =>
    match vector[i]? with
    | none => .error .outside
    | some none => .ok none
    | some (some id) =>
      match objects.get? id with
      | none => .error .dangling
      | some object => .ok (some object)

/-- A loop over the elements of an array. -/
def forElements {ρ : Type} (objects : Heap ReplyObject) (element : Option (List (Option Nat)))
    (elements : Nat) (visit : ρ → Option ReplyObject → ρ) (result : ρ) : Except LookFault ρ :=
  (List.range elements).foldlM (fun result i => do
    return visit result (← elementAt objects element i)) result

/-- An element in `ExecCommand(cmd, std::vector<int>&)`. -/
def pushInt (result : List Int) : Option ReplyObject → List Int
  | some (.integer integer) => result ++ [toInt integer]
  | _ => result

/-- An element in `ExecCommand(cmd, std::vector<std::string>&)`. -/
def pushString (result : Int × List Bytes) : Option ReplyObject → Int × List Bytes
  | some (.string str) => (0, result.2 ++ [cString str])
  | _ => result

namespace Overload

/-- What the forms take from the object of a reply. -/
def look (objects : Heap ReplyObject) : (overload : Overload) → ReplyObject → overload.Result →
    Except LookFault (Int × overload.Result)
  | plain, _, _ => .ok (0, ())
  | string, .string str, _ => .ok (0, cString str)
  | string, _, result => .ok (-1, result)
  | int, .integer integer, _ => .ok (0, toInt integer)
  | int, _, result => .ok (-1, result)
  | ints, .array elements element, _ =>
    do return (0, ← forElements objects element elements pushInt [])
  | ints, _, _ => .ok (-1, ([] : List Int))
  | strings, .array elements element, result =>
    forElements objects element elements pushString (-1, result)
  | strings, _, result => .ok (-1, result)

/-- What the forms return without a reply. -/
def missed : (overload : Overload) → overload.Result → Int × overload.Result
  | ints, _ => (-1, ([] : List Int))
  | _, result => (-1, result)

end Overload

/-- Why `ExecCommand` does not return. -/
inductive ExecEnd where
  | call (reason : CallEnd)
  | look (fault : LookFault)
  deriving DecidableEq, Repr

/-- A form of `ExecCommand` on its context. -/
def Overload.execCommand (overload : Overload) (result : overload.Result) (call : CommandCall)
    (c : RedisContext) : Except ExecEnd ((Int × overload.Result) × RedisContext) :=
  match c.redisCommand call.format call.writes call.reads with
  | .error reason => .error (.call reason)
  | .ok (none, c) => .ok (overload.missed result, c)
  | .ok (some reply, c) =>
    match c.reader.objects.get? reply with
    | none => .error (.look .dangling)
    | some object =>
      match overload.look c.reader.objects object result,
          freeReplyObject c.reader.objects reply with
      | .error fault, _ => .error (.look fault)
      | .ok _, .error fault => .error (.call (.fault fault))
      | .ok value, .ok objects => .ok (value, { c with reader := { c.reader with objects } })

/-! ## Replies as values -/

/-- An item without elements as a value. -/
def ReplyLeaf.reply : ReplyLeaf → RedisReply
  | .string str => .string (some str)
  | .hollow _ => .array []
  | .blank others => .array (List.replicate (others + 1) none)
  | .integer value => .integer value
  | .nil => .nil
  | .status str => .status str
  | .error str => .error str

mutual

/-- A reply as a value. -/
def ReplyTree.reply : ReplyTree → RedisReply
  | .leaf item => item.reply
  | .array element => .array (replies element)

/-- The replies of items in their order. -/
def ReplyTree.replies : List ReplyTree → List (Option RedisReply)
  | [] => []
  | item :: items => some item.reply :: replies items

end

namespace ReplyTree

/-- The first object of an item. -/
def root (base : Nat) : ReplyTree → ReplyObject
  | .leaf item => item.object
  | .array element => .array element.length (some ((identities (base + 1) element).map some))

/-- The first objects of items that lie behind each other. -/
def roots (base : Nat) : List ReplyTree → List ReplyObject
  | [] => []
  | item :: items => item.root base :: roots (base + (item.layout base).length) items

/-- Every item has one first object. -/
theorem length_roots (base : Nat) (items : List ReplyTree) :
    (roots base items).length = items.length := by
  induction items generalizing base with
  | nil => rfl
  | cons item items ih => rw [roots, List.length_cons, ih, List.length_cons]

/-- An item begins with its first object. -/
theorem layout_eq_root (base : Nat) (item : ReplyTree) :
    ∃ others, item.layout base = item.root base :: others := by
  cases item with
  | leaf item => exact ⟨[], rfl⟩
  | array element => exact ⟨layouts (base + 1) element, rfl⟩

/-- The elements of a vector point to the first objects of the items. -/
theorem elementAt_layouts (items : List ReplyTree) (front back : List (Option ReplyObject))
    (i : Nat) {object : ReplyObject} (listed : (roots front.length items)[i]? = some object) :
    elementAt ⟨front ++ (live (layouts front.length items) ++ back)⟩
      (some ((identities front.length items).map some)) i =
      .ok (some object) := by
  induction items generalizing front i with
  | nil => cases listed
  | cons item items ih =>
    rw [identities, layouts, live_append, List.append_assoc]
    cases i with
    | zero =>
      cases listed
      obtain ⟨others, first⟩ := layout_eq_root front.length item
      have found : (Heap.mk (front ++ (live (item.layout front.length) ++
          (live (layouts (front.length + (item.layout front.length).length) items) ++ back)))).get?
          front.length =
          some (item.root front.length) := by
        rw [first, live_cons]
        exact Heap.get?_append
      simp only [elementAt, List.map_cons, List.getElem?_cons_zero, found]
    | succ i =>
      have size : (front ++ live (item.layout front.length)).length =
          front.length + (item.layout front.length).length := by
        rw [List.length_append, length_live]
      have others := ih (front ++ live (item.layout front.length)) i (by rw [size]; exact listed)
      rw [size, List.append_assoc] at others
      exact others

end ReplyTree

/-- A loop over elements that are all there. -/
theorem forElements_eq {ρ : Type} {objects : Heap ReplyObject}
    {element : Option (List (Option Nat))} (visit : ρ → Option ReplyObject → ρ) (result : ρ)
    (found : List (Option ReplyObject))
    (each : ∀ i object, found[i]? = some object → elementAt objects element i = .ok object) :
    forElements objects element found.length visit result = .ok (found.foldl visit result) := by
  -- The last element is the last one visited.
  induction found using List.reverseRecOn with
  | nil => rfl
  | append_singleton found object ih =>
    have before := ih fun i object listed => by
      apply each i object
      rw [List.getElem?_append_left (List.getElem?_eq_some_iff.mp listed).1]
      exact listed
    have last := each found.length object List.getElem?_concat_length
    unfold forElements at before ⊢
    rw [List.length_append, List.length_singleton, List.range_succ, List.foldlM_append, before,
      List.foldl_append]
    show (elementAt objects element found.length >>= _) >>= _ = _
    rw [last]
    rfl

section

open ReplyTree Overload

/-- The numbers of the elements. -/
theorem foldl_pushInt (base : Nat) (items : List ReplyTree) (result : List Int) :
    ((roots base items).map some).foldl pushInt result =
      result ++ ((replies items).filterMap integer?).map toInt := by
  induction items generalizing base result with
  | nil => exact (List.append_nil result).symm
  | cons item items ih =>
    rw [roots, List.map_cons, List.foldl_cons, ih, replies]
    rcases item with (_ | _ | _ | _ | _ | _ | _) | _
    case leaf.integer =>
      show (result ++ [_]) ++ _ = result ++ (_ :: _)
      rw [List.append_assoc]
      rfl
    all_goals rfl

/-- The strings of the elements. -/
theorem foldl_pushString (base : Nat) (items : List ReplyTree) (iRet : Int) (result : List Bytes) :
    ((roots base items).map some).foldl pushString (iRet, result) =
      (if (replies items).filterMap str? = [] then
        iRet else 0, result ++ ((replies items).filterMap str?).map cString) := by
  induction items generalizing base iRet result with
  | nil => exact congrArg (Prod.mk iRet) (List.append_nil result).symm
  | cons item items ih =>
    rw [roots, List.map_cons, List.foldl_cons, replies]
    rcases item with (str | _ | _ | _ | _ | _ | _) | _
    case leaf.string =>
      have others :=
        ih (base + (layout base (.leaf (.string str))).length) 0 (result ++ [cString str])
      rw [ite_self, List.append_assoc] at others
      exact others
    all_goals exact ih _ iRet result

/-- With a context the command returns what the library returns. -/
theorem redisCommand_connected {client : RedisClient} (connected : client.pRedisContext = true)
    (reply : Option RedisReply) : client.redisCommand reply = .ok reply := if_pos connected

/-- An array in memory, the elements of which can be visited, gives every form the result that it
gives as a value. -/
theorem look_array {client : RedisClient} (connected : client.pRedisContext = true)
    (overload : Overload) (result : overload.Result) {objects : Heap ReplyObject} {elements : Nat}
    {element : Option (List (Option Nat))} (base : Nat) (items : List ReplyTree)
    (visits : ∀ {ρ : Type} (visit : ρ → Option ReplyObject → ρ) (first : ρ),
      forElements objects element elements visit first =
        .ok (((roots base items).map some).foldl visit first)) :
    ∃ value, overload.look objects (.array elements element) result = .ok value ∧
      overload.exec client (some (.array (replies items))) result = .ok value := by
  cases overload with
  | plain | string | int =>
    refine ⟨_, rfl, ?_⟩
    simp only [exec, RedisClient.execCommand, RedisClient.execString, RedisClient.execInt,
      redisCommand_connected connected]
    rfl
  | ints =>
    refine ⟨_, ?_, execInts_array connected (replies items)⟩
    show (forElements objects element elements pushInt [] >>= _) = _
    rw [visits, foldl_pushInt, List.nil_append]
    rfl
  | strings =>
    refine ⟨_, ?_, execStrings_array connected (replies items) result⟩
    exact (visits pushString (-1, result)).trans
      (congrArg Except.ok (foldl_pushString base items (-1) result))

/-- A reply in memory gives every form the result that it gives as a value. -/
theorem look_layout {client : RedisClient} (connected : client.pRedisContext = true)
    (overload : Overload) (result : overload.Result) {tree : ReplyTree} {depth : Nat}
    (sendable : tree.Sendable depth) (front back : List (Option ReplyObject)) :
    ∃ value, overload.look ⟨front ++ (live (tree.layout front.length) ++ back)⟩
      (tree.root front.length) result = .ok value ∧
      overload.exec client (some tree.reply) result = .ok value := by
  cases sendable with
  | @leaf _ item sendable =>
    cases item with
    | hollow elements | blank others => exact sendable.elim
    | string str | integer value | nil | status str | error str =>
      cases overload
      all_goals
        refine ⟨_, rfl, ?_⟩
        simp only [exec, RedisClient.execCommand, RedisClient.execString, RedisClient.execInt,
          RedisClient.execInts, RedisClient.execStrings, redisCommand_connected connected]
        rfl
  | empty => exact look_array connected overload result 0 [] fun visit first => rfl
  | @array _ element nonempty few each =>
    apply look_array connected overload result (front.length + 1) element
    intro ρ visit first
    have size : (front ++ [some (root front.length (.array element))]).length = front.length + 1 :=
      List.length_append
    have visits := forElements_eq visit first ((roots (front.length + 1) element).map some) (by
      intro i object listed
      rw [List.getElem?_map] at listed
      obtain ⟨first, isRoot, rfl⟩ := Option.map_eq_some_iff.mp listed
      have found := elementAt_layouts element (front ++ [some (root front.length (.array element))])
        back i (by
        rw [size]
        exact isRoot)
      rwa [size, List.append_assoc] at found)
    rw [List.length_map, length_roots] at visits
    exact visits

/-- Without a reply every form returns what it does as a value. -/
theorem exec_missed {client : RedisClient} (connected : client.pRedisContext = true)
    (overload : Overload) (result : overload.Result) :
    overload.exec client none result = .ok (overload.missed result) := by
  cases overload
  all_goals
    simp only [exec, RedisClient.execCommand, RedisClient.execString, RedisClient.execInt,
      RedisClient.execInts, RedisClient.execStrings, redisCommand_connected connected]
    rfl

/-- A form returns what it returns for the reply as a value, and leaves the context as reading and
freeing the reply does. -/
theorem execCommand_spec {client : RedisClient} (connected : client.pRedisContext = true)
    {server : Nat → ReplyTree} {values : List ReplyObject} {commands : List (List Bytes)}
    {answers : List (Option (Option ReplyTree))} {c c' : RedisContext}
    (talks : Talks server values commands answers c) {call : CommandCall}
    {answer : Option (Option ReplyTree)} (ran : call.run c = .ok (c', answer)) {tree : ReplyTree}
    (isReply : ∀ found ∈ answer, found = some tree) (sendable : tree.Sendable 2)
    (overload : Overload) (result : overload.Result) :
    ∃ value, overload.execCommand result call c = .ok (value, c') ∧
      overload.exec client (answer.map fun _ => tree.reply) result = .ok value := by
  obtain ⟨⟨reply, behind⟩, called, looked⟩ := bind_eq_ok.mp ran
  unfold Overload.execCommand
  rw [called]
  cases reply with
  | none =>
    cases looked
    exact ⟨_, rfl, exec_missed connected overload result⟩
  | some reply =>
    obtain ⟨past, tree', rfl, objects⟩ := talks.called called
    dsimp only at looked
    rw [objects, loadReply_layout, freeReplyObject_layout] at looked
    cases looked
    obtain ⟨rfl⟩ := Option.some.inj (isReply _ rfl)
    obtain ⟨value, looks, executes⟩ := look_layout connected overload result sendable past []
    have found : (Heap.mk (past ++ (live (tree.layout past.length) ++ []))).get? past.length =
        some (tree.root past.length) := by
      obtain ⟨others, first⟩ := layout_eq_root past.length tree
      rw [first, live_cons]
      exact Heap.get?_append
    refine ⟨value, ?_, executes⟩
    simp only [objects, found, looks, freeReplyObject_layout]

end

/-! ## Results of commands -/

/-- A client as `TestOnline` and the forms of `ExecCommand` see it, with hiredis left out. -/
def LiveClient.toClient (client : LiveClient) : RedisClient :=
  ⟨client.address, client.port, client.link?.isSome, client.iReconnectCount⟩

section

open LiveClient

variable {client next : LiveClient} {server : Nat → Nat → ReplyTree}
  {trace : List (ClientEvent × ClientAnswer)} {port iReconnectCount : Int} {opened : List Int}
  {objects : Heap ReplyObject} {call : CommandCall} {connection command : Nat}
  {answer : Option (Option ReplyTree)}

/-- A context that points somewhere is seen as one. -/
theorem toClient_connected {link : RedisLink} (pointer : client.pRedisContext = .points link) :
    client.toClient.pRedisContext = true := by
  show client.link?.isSome = true
  rw [link?, pointer]
  rfl

/-- The accesses to the count of a test behind its `ReConnect`. -/
def LiveClient.testAccesses (client : LiveClient) (isOnline : Bool) : List CountAccess :=
  if isOnline then [.reset] else [.load, .store client.iReconnectCount, .compare]

/-- `CRedisClient::TestOnline` when no other call comes in between. -/
def LiveClient.testOnline (client : LiveClient) (writes : List WriteOutcome)
    (reads : List ReadOutcome) (calls : ConnectCalls) :
    Except ClientEnd (LiveClient × Option Bool) := do
  let (client, reply) ← client.ping writes reads
  match reply with
  | some _ => return (client, some true)
  | none =>
    let (isOnline, client) ← client.testReConnect calls
    return (client.testAccesses isOnline).foldl (fun tested access => tested.1.count access)
      (client, none)

/-- What an attempt to connect comes to for the client. -/
def ConnectCalls.outcome (calls : ConnectCalls) : RedisConnect :=
  if calls.succeeds then .connected else .err

/-- A test over hiredis is the test of the client for which the reply and the outcome of connecting
are input. -/
theorem testOnline_refines {isOnline : Bool} {writes : List WriteOutcome} {reads : List ReadOutcome}
    {calls : ConnectCalls}
    (ran : client.testOnline writes reads calls = .ok (next, some isOnline)) :
    ∃ ping, client.toClient.testOnline ping calls.outcome =
      .ok ⟨next.toClient, ping.isNone, isOnline⟩ := by
  obtain ⟨⟨behind, reply⟩, pinged, tested⟩ := bind_eq_ok.mp ran
  obtain ⟨executed, exec, rfl⟩ := ping_ok pinged
  obtain ⟨link, c, pointer, -, rfl⟩ := execCommand_ok exec
  have connected := toClient_connected pointer
  cases reply with
  | some found =>
    cases tested
    refine ⟨some .nil, ?_⟩
    rw [RedisClient.testOnline_answered connected]
    have same : client.toClient = ⟨client.address, client.port, true, client.iReconnectCount⟩ := by
      rw [← connected]
      rfl
    exact congrArg (fun client => Except.ok (Tested.mk client false true)) same
  | none =>
    refine ⟨none, ?_⟩
    obtain ⟨⟨connects, behind⟩, reconnected, counted⟩ := bind_eq_ok.mp tested
    obtain ⟨freed, freeing, ended⟩ := testReConnect_ok reconnected
    have kept := free_ok freeing
    rcases ended with ⟨succeeds, s, -, rfl, rfl⟩ | ⟨fails, rfl, rfl⟩
    · cases counted
      rw [ConnectCalls.outcome, if_pos succeeds, RedisClient.testOnline_reconnected connected, kept]
      rfl
    · have refused : calls.outcome ≠ .connected := by
        rw [ConnectCalls.outcome, fails]
        decide
      cases counted
      rw [RedisClient.testOnline_failed connected refused, kept]
      rfl

/-- Whatever happened to the client before, a form of `ExecCommand` takes from memory what it
returns for the server's reply to this very command, and what it returns without a reply when it has
none. -/
theorem clientMachine_results (replies : ∀ connection index, (server connection index).Sendable 2)
    (ran : (clientMachine (.new port iReconnectCount opened objects) server).Run
      (clientMachine (.new port iReconnectCount opened objects) server).init trace client)
    (steps : (clientMachine (.new port iReconnectCount opened objects) server).Steps client
      (.exec call)
      (.executed connection command answer) next) (overload : Overload) (result : overload.Result) :
    ∃ link link' value, client.pRedisContext = .points link ∧ next.pRedisContext = .points link' ∧
      overload.execCommand result call link.c = .ok (value, link'.c) ∧
      overload.exec client.toClient (answer.map fun _ => (server connection command).reply) result =
        .ok value := by
  have sessions := sessions_of_run replies ran
  obtain ⟨possible, delivers, moves⟩ := moves_of_steps steps
  cases moves with
  | @executes _ link c _ pointer called =>
    have isReply : ∀ found ∈ answer, found = some (server client.connections client.commands) := by
      rintro found rfl
      exact (sessions.answers replies pointer called (of_decide_eq_true possible)
        (delivers _ rfl)).1
    obtain ⟨past, session, -, talked, -⟩ := sessions.points pointer
    obtain ⟨value, executed, same⟩ :=
      execCommand_spec (toClient_connected pointer) (talks_of_run (replies _) talked) called isReply
          (replies _ _)
        overload result
    exact ⟨link, _, value, pointer, rfl, executed, same⟩

/-- A server whose sets have two members. -/
def two (_ : Nat) : ReplyTree := .leaf (.integer 2)

/-- The server's answer can be sent. -/
theorem two_sendable (_ index : Nat) : (two index).Sendable 2 :=
  .leaf (by decide : ReplyLeaf.Sendable (.integer 2))

/-- `SCARD k`, answered at once. -/
def scardCall : CommandCall :=
  ⟨[83, 67, 65, 82, 68, 32, 107], [.takes 100], [.finds [58, 50, 13, 10]]⟩

/-- A reply to the first command. -/
def ClientAnswer.isFirst : ClientAnswer → Bool
  | .executed 1 0 (some _) => true
  | _ => false

/-- `SCARD` stores the two the server sends. -/
theorem clientMachine_results_scard :
    ∃ link link', Overload.int.execCommand (0 : Int) scardCall link =
      .ok ((0, (2 : Int)), link') := by
  obtain ⟨trace, last, ran, events, answered⟩ := Machine.run_of_exec_check
    (fun (_ : LiveClient) trace => (trace.map Prod.snd).getLast?.any ClientAnswer.isFirst)
    (by decide +kernel : ((clientMachine (.new 0 0 [0] ⟨[]⟩) fun _ => two).exec (.new 0 0 [0] ⟨[]⟩)
      [.onInit [49] 6379 (reaches 4 .connects), .exec scardCall]).any
        (fun result => (result.2.map Prod.snd).getLast?.any ClientAnswer.isFirst) = true)
  cases ran with
  | nil => cases events
  | cons first rest =>
    cases rest with
    | nil => cases events
    | cons second rest =>
      cases rest with
      | cons third rest => cases events
      | nil =>
        cases events
        unfold ClientAnswer.isFirst at answered
        simp only [List.map_cons, List.map_nil, List.getLast?_cons_cons, List.getLast?_singleton,
          Option.any_some] at answered
        split at answered
        · obtain ⟨link, link', value, pointer, -, executed, same⟩ :=
            clientMachine_results two_sendable (.single first) second .int (0 : Int)
          change RedisClient.execInt _ (some (.integer 2)) 0 = _ at same
          rw [RedisClient.execInt, redisCommand_connected (toClient_connected pointer)] at same
          cases same
          exact ⟨_, _, executed⟩
        · cases answered

end

end NetServer
