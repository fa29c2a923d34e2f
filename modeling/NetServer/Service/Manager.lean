import NetServer.Config.RoundTrip
import NetServer.Lib.Exclusive
import NetServer.Lib.Heap
import NetServer.Lib.Machine
import NetServer.Service.Online

/-!
# Clients by zone, `CRedisServiceMgr` and `CSqlServiceMgr`

The two managers are the same program over two kinds of clients. `OnInit` makes a client for every
configured zone, `Get…Client` looks a zone up and makes a client when it has none, and a thread
tests all clients and drops those that are offline. The map holds pointers, possibly null ones,
and the clients live in a heap, where nothing but a failed `Make…Client` deletes one. What happens
between two sections of the manager's lock is part of the later section, so a run interleaves
`OnInit`, calls of `Get…Client` by any number of threads and passes of `OnTestOnLine`.
-/

namespace NetServer

open Lib

/-! ## Making clients -/

/-- What the memory of a new `CRedisClient` holds where its constructor writes nothing, and the
outcome of connecting. -/
structure RedisMake where
  port : Int
  iReconnectCount : Int
  connect : RedisConnect
  deriving DecidableEq, Repr

/-- `CRedisServiceMgr::MakeRedisClient`. -/
def makeRedisClient (info : ConfigInfo) (outcome : RedisMake) : Option RedisClient :=
  match (RedisClient.new outcome.port outcome.iReconnectCount).onInit info.stAddress
    (atoi info.stPort)
      outcome.connect with
  | (true, client) => some client
  | (false, _) => none

/-- `CSqlServiceMgr::MakeSqlClient`. `OnInit` overwrites all that the constructor leaves as it
is. -/
def makeSqlClient (info : ConfigInfo) (connect : SqlConnect) : Option SqlClient :=
  match (SqlClient.new 0 0).onInit info.stAddress (toUint (atoi info.stPort)) info.stUsername
    info.stPassword
      info.stDbname 0 connect with
  | (true, client) => some client
  | (false, _) => none

/-- There is a client when the server can be reached. -/
theorem makeRedisClient_isSome (info : ConfigInfo) (outcome : RedisMake) :
    (makeRedisClient info outcome).isSome = decide (outcome.connect = .connected) := by
  rw [makeRedisClient, RedisClient.onInit, RedisClient.onConnect_eq]
  by_cases connects : outcome.connect = .connected <;> simp [connects]

@[inherit_doc makeRedisClient_isSome]
theorem makeSqlClient_isSome (info : ConfigInfo) (connect : SqlConnect) :
    (makeSqlClient info connect).isSome = connect.succeeds := by
  rw [makeSqlClient, SqlClient.onInit, SqlClient.onConnect_eq]
  cases connect.succeeds <;> rfl

/-- A kind of clients: whether `OnInit` reads the redis items, how a client is made and tested, and
when an attempt to connect succeeds. -/
structure Service (κ ω ι : Type) where
  isRedis : Bool
  make : ConfigInfo → ι → Option κ
  test : κ → ω → Except ClientFault (Tested κ)
  connects : ι → Bool
  make_isSome : ∀ info outcome, (make info outcome).isSome = connects outcome

/-- The clients of `CRedisServiceMgr`. -/
def redisService : Service RedisClient (Option RedisReply × RedisConnect) RedisMake where
  isRedis := true
  make := makeRedisClient
  test := redisTest.test
  connects outcome := decide (outcome.connect = .connected)
  make_isSome := makeRedisClient_isSome

/-- The clients of `CSqlServiceMgr`. -/
def sqlService : Service SqlClient (Int × SqlConnect) SqlConnect where
  isRedis := false
  make := makeSqlClient
  test := sqlTest.test
  connects := SqlConnect.succeeds
  make_isSome := makeSqlClient_isSome

/-! ## The managers -/

/-- The state of a manager: its map, the clients it made, what `OnInit` has still to make, and the
calls of `Get…Client` between their two sections, with their zones and what they connect to. -/
structure ServiceMgr (κ : Type) where
  clientMap : Std.ExtTreeMap Int (Option Nat)
  clients : Heap κ
  starting : List (Int × ConfigInfo)
  calls : Std.ExtTreeMap Nat (Int × ConfigInfo)

namespace ServiceMgr

variable {κ ω ι : Type} (service : Service κ ω ι) (configer : Configer) (mgr : ServiceMgr κ)

/-- A manager before `OnInit`, which takes the items of its kind in the order of their zones. -/
def new : ServiceMgr κ := ⟨∅, .empty, (configer.getConfigInfos service.isRedis).toList, ∅⟩

/-- `MakeRedisClient` and `MakeSqlClient`, which return a pointer. -/
def makeClient (info : ConfigInfo) (outcome : ι) : Option Nat × ServiceMgr κ :=
  match service.make info outcome with
  | some client => (some mgr.clients.next, { mgr with clients := mgr.clients.alloc client })
  | none => (none, mgr)

/-- `InsertRedisClient` and `InsertSqlClient`; `std::map::insert` keeps an entry that is there
already. -/
def insertClient (iZoneCode : Int) (pClient : Option Nat) : ServiceMgr κ :=
  { mgr with clientMap := mgr.clientMap.insertIfNew iZoneCode pClient }

/-- One pass of the loop of `OnInit`. -/
def initEntry (iZoneCode : Int) (info : ConfigInfo) (outcome : ι) : ServiceMgr κ :=
  match mgr.makeClient service info outcome with
  | (some pClient, mgr) => mgr.insertClient iZoneCode (some pClient)
  | (none, mgr) => mgr

/-- The first section of `GetRedisClient` and `GetSqlClient` and what follows it: the pointer that
is returned, or the item to connect to. Both read the redis items. -/
def lookup (iZoneCode : Int) : Option Nat ⊕ ConfigInfo :=
  match mgr.clientMap[iZoneCode]? with
  | some pClient => .inl pClient
  | none =>
    let info := configer.getConfigInfo iZoneCode ⟨[], [], [], [], []⟩ true
    if info.stAddress ≠ [] ∧ info.stPort ≠ [] then .inr info else .inl none

/-- The rest of `GetRedisClient` and `GetSqlClient`: connect, and the second section. -/
def connect (iZoneCode : Int) (info : ConfigInfo) (outcome : ι) : Option Nat × ServiceMgr κ :=
  let (pTmpClient, mgr) := mgr.makeClient service info outcome
  (pTmpClient, mgr.insertClient iZoneCode pTmpClient)

/-- One entry in a pass of `OnTestOnLine`. -/
def testEntry (outcomes : Int → ω) (mgr : ServiceMgr κ) (entry : Int × Option Nat) :
    Except ClientFault (ServiceMgr κ) :=
  match entry.2 with
  | none => .ok mgr
  | some pClient =>
    match mgr.clients.get? pClient with
    | none => .error .deleted
    | some client => do
      let tested ← service.test client (outcomes entry.1)
      let mgr := { mgr with clients := mgr.clients.set pClient tested.client }
      if tested.returns then return mgr
      else return { mgr with clientMap := mgr.clientMap.erase entry.1 }

/-- A pass of `OnTestOnLine`. -/
def onTestOnLine (outcomes : Int → ω) : Except ClientFault (ServiceMgr κ) :=
  mgr.clientMap.toList.foldlM (testEntry service outcomes) mgr

end ServiceMgr

/-- What happens to a manager. -/
inductive MgrEvent (ω ι : Type) where
  /-- `OnInit` makes the next client. -/
  | init (outcome : ι)
  /-- A thread calls `Get…Client` for a zone. -/
  | lookup (thread : Nat) (iZoneCode : Int)
  /-- The call of a thread that found nothing connects and returns. -/
  | connect (thread : Nat) (outcome : ι)
  /-- A pass of `OnTestOnLine`, with the outcome of the test of each zone's client. -/
  | testOnLine (outcomes : Int → ω)

namespace ServiceMgr

variable {κ ω ι : Type} (service : Service κ ω ι) (configer : Configer)

/-- The effect of an event, with the zone and the pointer of a call that returns. -/
def step (mgr : ServiceMgr κ) :
    MgrEvent ω ι → Except ClientFault (ServiceMgr κ × Option (Int × Option Nat))
  | .init outcome =>
    match mgr.starting with
    | [] => .ok (mgr, none)
    | (iZoneCode, info) :: starting =>
      .ok ({ mgr.initEntry service iZoneCode info outcome with starting }, none)
  | .lookup thread iZoneCode =>
    match mgr.lookup configer iZoneCode with
    | .inl pClient => .ok (mgr, some (iZoneCode, pClient))
    | .inr info => .ok ({ mgr with calls := mgr.calls.insert thread (iZoneCode, info) }, none)
  | .connect thread outcome =>
    match mgr.calls[thread]? with
    | none => .ok (mgr, none)
    | some (iZoneCode, info) =>
      let (pClient, mgr) := mgr.connect service iZoneCode info outcome
      .ok ({ mgr with calls := mgr.calls.erase thread }, some (iZoneCode, pClient))
  | .testOnLine outcomes => do
    let mgr ← mgr.onTestOnLine service outcomes
    return (mgr, none)

/-- `OnInit` goes on while it has items left, and a thread has one call at a time. -/
def enabled (mgr : ServiceMgr κ) : MgrEvent ω ι → Bool
  | .init _ => !mgr.starting.isEmpty
  | .lookup thread _ => (mgr.calls[thread]?).isNone
  | .connect thread _ => (mgr.calls[thread]?).isSome
  | .testOnLine _ => true

end ServiceMgr

/-- All runs of a manager. -/
def serviceMachine {κ ω ι : Type} (service : Service κ ω ι) (configer : Configer) :
    Machine (ServiceMgr κ) (MgrEvent ω ι) (Option (Int × Option Nat)) ClientFault where
  init := .new service configer
  enabled := ServiceMgr.enabled
  step := ServiceMgr.step service configer

namespace ServiceMgr

variable {κ ω ι : Type} {service : Service κ ω ι} {configer : Configer} {mgr next : ServiceMgr κ}

/-! ## A pass of `OnTestOnLine` -/

/-- What becomes of the manager when the client of a zone has been tested. -/
def afterTest (mgr : ServiceMgr κ) (iZoneCode : Int) (pClient : Nat) (tested : Tested κ) :
    ServiceMgr κ :=
  { mgr with
    clientMap := if tested.returns then mgr.clientMap else mgr.clientMap.erase iZoneCode
    clients := mgr.clients.set pClient tested.client }

/-- A client that is tested without a fault is live. -/
theorem testEntry_ok {outcomes : Int → ω} {iZoneCode : Int} {pClient : Nat}
    (ran : testEntry service outcomes mgr (iZoneCode, some pClient) = .ok next) :
    ∃ client tested, mgr.clients.get? pClient = some client ∧
      service.test client (outcomes iZoneCode) = .ok tested ∧
      next = mgr.afterTest iZoneCode pClient tested := by
  simp only [testEntry] at ran
  cases alive : mgr.clients.get? pClient with
  | none =>
    rw [alive] at ran
    cases ran
  | some client =>
    rw [alive] at ran
    obtain ⟨tested, test, rest⟩ := bind_eq_ok.mp ran
    refine ⟨client, tested, rfl, test, ?_⟩
    cases online : tested.returns <;> simp only [online] at rest <;> cases rest <;>
      simp [afterTest, online]

/-- What the loop of `OnTestOnLine` does to some entries of the map. -/
structure Passed (service : Service κ ω ι) (outcomes : Int → ω) (entries : List (Int × Option Nat))
    (mgr next : ServiceMgr κ) : Prop where
  starting : next.starting = mgr.starting
  calls : next.calls = mgr.calls
  tested : ∀ {zone pClient}, (zone, some pClient) ∈ entries → ∃ client tested,
    mgr.clients.get? pClient = some client ∧ service.test client (outcomes zone) = .ok tested ∧
      next.clients.get? pClient = some tested.client ∧
      next.clientMap[zone]? = if tested.returns then mgr.clientMap[zone]? else none
  otherZones : ∀ {zone}, (∀ pClient, (zone, some pClient) ∉ entries) →
    next.clientMap[zone]? = mgr.clientMap[zone]?
  otherClients : ∀ {pClient}, (∀ zone, (zone, some pClient) ∉ entries) →
    next.clients.get? pClient = mgr.clients.get? pClient

/-- The test of a client leaves the other zones alone. -/
theorem clientMap_afterTest_of_ne {first zone : Int} {pFirst : Nat} {tested : Tested κ}
    (other : zone ≠ first) :
    (mgr.afterTest first pFirst tested).clientMap[zone]? = mgr.clientMap[zone]? := by
  simp only [afterTest]
  split
  · rfl
  · rw [Std.ExtTreeMap.getElem?_erase, if_neg (by simpa using Ne.symm other)]

/-- The test of a client leaves the other clients alone. -/
theorem clients_afterTest_of_ne {first : Int} {pFirst pClient : Nat} {tested : Tested κ}
    (isLive : (mgr.clients.get? pFirst).isSome) (other : pClient ≠ pFirst) :
    (mgr.afterTest first pFirst tested).clients.get? pClient = mgr.clients.get? pClient := by
  simp only [afterTest, Heap.get?_set isLive, if_neg other]

/-- An entry whose pointer is null is passed over. -/
theorem Passed.cons_none {outcomes : Int → ω} {first : Int} {rest : List (Int × Option Nat)}
    (passed : Passed service outcomes rest mgr next) :
    Passed service outcomes ((first, none) :: rest) mgr next := by
  refine ⟨passed.starting, passed.calls, fun inEntries => ?_, fun {zone} absent => ?_,
    fun {pClient} absent => ?_⟩
  · rcases List.mem_cons.mp inEntries with same | inRest
    · cases same
    · exact passed.tested inRest
  · exact passed.otherZones fun pClient inRest => absent pClient (List.mem_cons_of_mem _ inRest)
  · exact passed.otherClients fun zone inRest => absent zone (List.mem_cons_of_mem _ inRest)

/-- The test of a client touches nothing that the tests of the other zones and clients read. -/
theorem Passed.cons_some {outcomes : Int → ω} {first : Int} {pFirst : Nat}
    {rest : List (Int × Option Nat)} {client : κ} {tested : Tested κ}
    (alive : mgr.clients.get? pFirst = some client)
    (test : service.test client (outcomes first) = .ok tested)
    (apart : ∀ entry ∈ rest, first ≠ entry.1) (absent : ∀ zone, (zone, some pFirst) ∉ rest)
    (passed : Passed service outcomes rest (mgr.afterTest first pFirst tested) next) :
    Passed service outcomes ((first, some pFirst) :: rest) mgr next := by
  have isLive : (mgr.clients.get? pFirst).isSome := by rw [alive]; rfl
  refine ⟨passed.starting, passed.calls, fun {zone pClient} inEntries => ?_,
    fun {zone} notListed => ?_, fun {pClient} notListed => ?_⟩
  · rcases List.mem_cons.mp inEntries with same | inRest
    · cases same
      refine ⟨client, tested, alive, test, ?_, ?_⟩
      · rw [passed.otherClients absent]
        simp only [afterTest, Heap.get?_set isLive, ↓reduceIte]
      · rw [passed.otherZones fun pClient inRest => apart _ inRest rfl]
        simp only [afterTest]
        split <;> simp
    · have otherZone : zone ≠ first := Ne.symm (apart _ inRest)
      have otherClient : pClient ≠ pFirst := by
        rintro rfl
        exact absent zone inRest
      obtain ⟨client', tested', alive', result⟩ := passed.tested inRest
      rw [clients_afterTest_of_ne isLive otherClient] at alive'
      rw [clientMap_afterTest_of_ne otherZone] at result
      exact ⟨client', tested', alive', result⟩
  · have other : zone ≠ first := by
      rintro rfl
      exact notListed pFirst List.mem_cons_self
    rw [passed.otherZones fun pClient inRest => notListed pClient (List.mem_cons_of_mem _ inRest)]
    exact clientMap_afterTest_of_ne other
  · have other : pClient ≠ pFirst := by
      rintro rfl
      exact notListed first List.mem_cons_self
    rw [passed.otherClients fun zone inRest => notListed zone (List.mem_cons_of_mem _ inRest)]
    exact clients_afterTest_of_ne isLive other

/-- The loop tests every client once when no zone and no client occurs twice. The induction is on
the entries. -/
theorem passed_of_foldlM {outcomes : Int → ω} {entries : List (Int × Option Nat)}
    (zones : entries.Pairwise fun entry other => entry.1 ≠ other.1)
    (unique : ∀ {zone zone' pClient}, (zone, some pClient) ∈ entries →
      (zone', some pClient) ∈ entries →
      zone = zone') (ran : entries.foldlM (testEntry service outcomes) mgr = .ok next) :
    Passed service outcomes entries mgr next := by
  induction entries generalizing mgr with
  | nil =>
    cases ran
    exact ⟨rfl, rfl, fun inEmpty => (nomatch inEmpty), fun _ => rfl, fun _ => rfl⟩
  | cons entry rest ih =>
    obtain ⟨first, pFirst⟩ := entry
    rw [List.foldlM_cons] at ran
    obtain ⟨middle, test, ran⟩ := bind_eq_ok.mp ran
    have apart := (List.pairwise_cons.mp zones).1
    have unique' : ∀ {zone zone' pClient}, (zone, some pClient) ∈ rest →
      (zone', some pClient) ∈ rest →
        zone = zone' :=
      fun one other => unique (List.mem_cons_of_mem _ one) (List.mem_cons_of_mem _ other)
    have passed := ih (List.pairwise_cons.mp zones).2 unique' ran
    cases pFirst with
    | none =>
      cases test
      exact passed.cons_none
    | some pFirst =>
      obtain ⟨client, tested, alive, test', rfl⟩ := testEntry_ok test
      refine Passed.cons_some alive test' apart (fun zone inRest => ?_) passed
      exact apart _ inRest (unique List.mem_cons_self (List.mem_cons_of_mem _ inRest))

/-! ## What the map holds -/

/-- The client of a zone, when its pointer is not null. -/
def holds (mgr : ServiceMgr κ) (iZoneCode : Int) : Option Nat := mgr.clientMap[iZoneCode]?.join

/-- A client that was made and not deleted. -/
def Live (mgr : ServiceMgr κ) (pClient : Nat) : Prop := (mgr.clients.get? pClient).isSome

/-- A zone holds a client when that is its entry. -/
theorem holds_eq_some {iZoneCode : Int} {pClient : Nat} :
    mgr.holds iZoneCode = some pClient ↔ mgr.clientMap[iZoneCode]? = some (some pClient) := by
  rw [holds, Option.join_eq_some_iff]

/-- What holds in every run: the map holds live clients only, and none twice. -/
structure Sound (mgr : ServiceMgr κ) : Prop where
  live : ∀ {zone pClient}, mgr.holds zone = some pClient → mgr.Live pClient
  unique : ∀ {zone zone' pClient}, mgr.holds zone = some pClient → mgr.holds zone' = some pClient →
    zone = zone'

/-- A pass tests the client of every zone that holds one and drops those that are offline. -/
theorem Sound.passed {outcomes : Int → ω} (sound : mgr.Sound)
    (ran : mgr.onTestOnLine service outcomes = .ok next) :
    Passed service outcomes mgr.clientMap.toList mgr next := by
  have listed : ∀ {zone pClient}, (zone, some pClient) ∈ mgr.clientMap.toList →
      mgr.holds zone = some pClient :=
    fun inMap => holds_eq_some.mpr (Std.ExtTreeMap.mem_toList_iff_getElem?_eq_some.mp inMap)
  have distinct : mgr.clientMap.toList.Pairwise fun entry other => entry.1 ≠ other.1 :=
    Std.ExtTreeMap.distinct_keys_toList.imp fun apart => by simpa using apart
  exact passed_of_foldlM distinct (fun one other => sound.unique (listed one) (listed other)) ran

/-! ## Steps -/

/-- What becomes of the manager when a client is made and inserted. -/
def made (mgr : ServiceMgr κ) (iZoneCode : Int) (client : κ) : ServiceMgr κ :=
  { mgr with
    clientMap := mgr.clientMap.insertIfNew iZoneCode (some mgr.clients.next)
    clients := mgr.clients.alloc client }

/-- What becomes of the manager when a null pointer is inserted. -/
def refused (mgr : ServiceMgr κ) (iZoneCode : Int) : ServiceMgr κ :=
  { mgr with clientMap := mgr.clientMap.insertIfNew iZoneCode none }

/-- An item that `Get…Client` connects to. -/
def ConnectsTo (info : ConfigInfo) : Prop := info.stAddress ≠ [] ∧ info.stPort ≠ []

/-- The item that `Get…Client` reads for a zone. -/
def lazyInfo (configer : Configer) (iZoneCode : Int) : ConfigInfo :=
  configer.getConfigInfo iZoneCode ⟨[], [], [], [], []⟩ true

/-- What the events do to a manager. -/
inductive Effect (service : Service κ ω ι) (configer : Configer) (mgr : ServiceMgr κ) :
    MgrEvent ω ι → Option (Int × Option Nat) → ServiceMgr κ → Prop
  | initMade {outcome : ι} {zone : Int} {info : ConfigInfo} {starting : List (Int × ConfigInfo)}
    {client : κ}
    (first : mgr.starting = (zone, info) :: starting)
    (make : service.make info outcome = some client) :
    Effect service configer mgr (.init outcome) none { mgr.made zone client with starting }
  | initFailed {outcome : ι} {zone : Int} {info : ConfigInfo} {starting : List (Int × ConfigInfo)}
    (first : mgr.starting = (zone, info) :: starting) (make : service.make info outcome = none) :
    Effect service configer mgr (.init outcome) none { mgr with starting }
  | found {thread : Nat} {zone : Int} {pClient : Option Nat}
    (entry : mgr.clientMap[zone]? = some pClient) :
    Effect service configer mgr (.lookup thread zone) (some (zone, pClient)) mgr
  | unconfigured {thread : Nat} {zone : Int} (absent : mgr.clientMap[zone]? = none)
    (nowhere : ¬ConnectsTo (lazyInfo configer zone)) :
    Effect service configer mgr (.lookup thread zone) (some (zone, none)) mgr
  | pending {thread : Nat} {zone : Int} (absent : mgr.clientMap[zone]? = none)
    (somewhere : ConnectsTo (lazyInfo configer zone)) :
    Effect service configer mgr (.lookup thread zone) none
      { mgr with calls := mgr.calls.insert thread (zone, lazyInfo configer zone) }
  | connected {thread : Nat} {outcome : ι} {zone : Int} {info : ConfigInfo} {client : κ}
    (call : mgr.calls[thread]? = some (zone, info))
    (make : service.make info outcome = some client) :
    Effect service configer mgr (.connect thread outcome) (some (zone, some mgr.clients.next))
      { mgr.made zone client with calls := mgr.calls.erase thread }
  | refused {thread : Nat} {outcome : ι} {zone : Int} {info : ConfigInfo}
    (call : mgr.calls[thread]? = some (zone, info)) (make : service.make info outcome = none) :
    Effect service configer mgr (.connect thread outcome) (some (zone, none))
      { mgr.refused zone with calls := mgr.calls.erase thread }
  | tested {outcomes : Int → ω} {next : ServiceMgr κ}
    (ran : mgr.onTestOnLine service outcomes = .ok next) :
    Effect service configer mgr (.testOnLine outcomes) none next

variable {event : MgrEvent ω ι} {answer : Option (Int × Option Nat)}

/-- Every step has one of these effects. -/
theorem effect_of_steps (steps : (serviceMachine service configer).Steps mgr event answer next) :
    Effect service configer mgr event answer next := by
  obtain ⟨possible, ran⟩ := steps
  simp only [serviceMachine] at possible ran
  cases event with
  | init outcome =>
    cases first : mgr.starting with
    | nil => simp [enabled, first] at possible
    | cons entry starting =>
      simp only [step, first, initEntry, makeClient] at ran
      cases make : service.make entry.2 outcome with
      | some client =>
        rw [make] at ran
        cases ran
        exact .initMade first make
      | none =>
        rw [make] at ran
        cases ran
        exact .initFailed first make
  | lookup thread zone =>
    cases entry : mgr.clientMap[zone]? with
    | some pClient =>
      simp only [step, lookup, entry] at ran
      cases ran
      exact .found entry
    | none =>
      by_cases somewhere : ConnectsTo (lazyInfo configer zone)
      · have reads : mgr.lookup configer zone = .inr (lazyInfo configer zone) := by
          simp only [lookup, entry]
          exact if_pos somewhere
        simp only [step, reads] at ran
        cases ran
        exact .pending entry somewhere
      · have reads : mgr.lookup configer zone = .inl none := by
          simp only [lookup, entry]
          exact if_neg somewhere
        simp only [step, reads] at ran
        cases ran
        exact .unconfigured entry somewhere
  | connect thread outcome =>
    cases call : mgr.calls[thread]? with
    | none => simp [enabled, call] at possible
    | some target =>
      obtain ⟨zone, info⟩ := target
      simp only [step, call, connect, makeClient] at ran
      cases make : service.make info outcome with
      | some client =>
        rw [make] at ran
        cases ran
        exact .connected call make
      | none =>
        rw [make] at ran
        cases ran
        exact .refused call make
  | testOnLine outcomes =>
    obtain ⟨after, passed, rest⟩ := bind_eq_ok.mp ran
    cases rest
    exact .tested passed

/-- A call that connects returns the client it made. -/
theorem steps_connect {thread : Nat} {outcome : ι} {zone : Int} {info : ConfigInfo} {client : κ}
    (call : mgr.calls[thread]? = some (zone, info))
    (make : service.make info outcome = some client) :
    (serviceMachine service configer).Steps mgr (.connect thread outcome)
      (some (zone, some mgr.clients.next))
      { mgr.made zone client with calls := mgr.calls.erase thread } := by
  constructor
  · simp [serviceMachine, enabled, call]
  · simp only [serviceMachine, step, call, connect, makeClient, make]
    rfl

/-- A new client does not displace the entry of its zone. -/
theorem holds_made_present {zone : Int} {entry : Option Nat} (client : κ)
    (present : mgr.clientMap[zone]? = some entry) : (mgr.made zone client).holds = mgr.holds := by
  funext other
  simp only [holds, made, Std.ExtTreeMap.getElem?_insertIfNew, Std.compare_eq_iff_eq]
  split
  · rename_i absent
    obtain ⟨rfl, missing⟩ := absent
    exact absurd (Std.ExtTreeMap.mem_iff_isSome_getElem?.mpr (by rw [present]; rfl)) missing
  · rfl

/-- A new client is held by a zone without an entry. -/
theorem holds_made_absent {zone : Int} (client : κ) (absent : mgr.clientMap[zone]? = none) :
    (mgr.made zone client).holds = Function.update mgr.holds zone (some mgr.clients.next) := by
  funext other
  have missing : zone ∉ mgr.clientMap := by
    rw [Std.ExtTreeMap.mem_iff_isSome_getElem?, absent]
    simp
  simp only [holds, made, Std.ExtTreeMap.getElem?_insertIfNew, Std.compare_eq_iff_eq, missing,
    not_false_eq_true, and_true]
  by_cases same : other = zone
  · subst same
    simp
  · rw [if_neg (Ne.symm same), Function.update_of_ne same]
    rfl

/-- A null pointer holds nothing. -/
theorem holds_refused {zone : Int} : (mgr.refused zone).holds = mgr.holds := by
  funext other
  simp only [holds, refused, Std.ExtTreeMap.getElem?_insertIfNew, Std.compare_eq_iff_eq]
  split
  · rename_i absent
    obtain ⟨rfl, missing⟩ := absent
    rw [Std.ExtTreeMap.getElem?_eq_none missing]
    rfl
  · rfl

/-- A new client is live. -/
theorem live_made {zone : Int} {client : κ} {pClient : Nat} :
    (mgr.made zone client).Live pClient ↔ pClient = mgr.clients.next ∨ mgr.Live pClient := by
  simp only [Live, made, Heap.get?_alloc]
  split
  · rename_i same
    simp [same]
  · rename_i other
    simp [other]

/-- The next client is not held yet. -/
theorem Sound.not_holds_next (sound : mgr.Sound) {zone : Int} :
    mgr.holds zone ≠ some mgr.clients.next := by
  intro held
  have alive := sound.live held
  rw [Live, Heap.get?_next] at alive
  cases alive

namespace Passed

variable {outcomes : Int → ω}

/-- A pass keeps every client alive. -/
theorem live (passed : Passed service outcomes mgr.clientMap.toList mgr next) {pClient : Nat} :
    next.Live pClient ↔ mgr.Live pClient := by
  by_cases listed : ∃ zone, (zone, some pClient) ∈ mgr.clientMap.toList
  · obtain ⟨zone, inMap⟩ := listed
    obtain ⟨client, tested, alive, -, alive', -⟩ := passed.tested inMap
    rw [Live, Live, alive, alive']
    simp
  · rw [Live, Live, passed.otherClients fun zone inMap => listed ⟨zone, inMap⟩]

/-- What a zone holds behind a pass, it held before. -/
theorem holds (passed : Passed service outcomes mgr.clientMap.toList mgr next) {zone : Int}
    {pClient : Nat} (held : next.holds zone = some pClient) : mgr.holds zone = some pClient := by
  rw [holds_eq_some] at held ⊢
  by_cases listed : ∃ pOther, (zone, some pOther) ∈ mgr.clientMap.toList
  · obtain ⟨pOther, inMap⟩ := listed
    obtain ⟨client, tested, -, -, -, entry⟩ := passed.tested inMap
    rw [entry] at held
    split at held
    · exact held
    · cases held
  · rwa [passed.otherZones fun pOther inMap => listed ⟨pOther, inMap⟩] at held

end Passed

/-- A client that is held by its own zone only stays so when another is made. -/
theorem Sound.made (sound : mgr.Sound) (zone : Int) (client : κ) :
    (mgr.made zone client).Sound := by
  cases entry : mgr.clientMap[zone]? with
  | some pClient =>
    have same := holds_made_present client entry
    constructor
    · intro zone' pOther held
      rw [same] at held
      exact live_made.mpr (.inr (sound.live held))
    · intro zone' zone'' pOther one other
      rw [same] at one other
      exact sound.unique one other
  | none =>
    have updated := holds_made_absent client entry
    have held_cases : ∀ {zone' pOther}, (mgr.made zone client).holds zone' = some pOther →
        zone' = zone ∧ pOther = mgr.clients.next ∨ mgr.holds zone' = some pOther := by
      intro zone' pOther held
      rw [updated] at held
      by_cases here : zone' = zone
      · subst here
        rw [Function.update_self] at held
        exact .inl ⟨rfl, (Option.some.inj held).symm⟩
      · rw [Function.update_of_ne here] at held
        exact .inr held
    constructor
    · intro zone' pOther held
      rcases held_cases held with ⟨-, isNew⟩ | old
      · exact live_made.mpr (.inl isNew)
      · exact live_made.mpr (.inr (sound.live old))
    · intro zone' zone'' pOther one other
      rcases held_cases one with ⟨rfl, rfl⟩ | oldOne
      · rcases held_cases other with ⟨rfl, -⟩ | oldOther
        · rfl
        · exact absurd oldOther sound.not_holds_next
      · rcases held_cases other with ⟨rfl, rfl⟩ | oldOther
        · exact absurd oldOne sound.not_holds_next
        · exact sound.unique oldOne oldOther

/-- Soundness depends on what is held and on what is live. -/
theorem Sound.congr (sound : mgr.Sound) (held : next.holds = mgr.holds)
    (live : ∀ pClient, next.Live pClient ↔ mgr.Live pClient) : next.Sound := by
  constructor
  · intro zone pClient here
    rw [held] at here
    exact (live pClient).mpr (sound.live here)
  · intro zone zone' pClient one other
    rw [held] at one other
    exact sound.unique one other

/-- Every step keeps the map sound. -/
theorem Sound.step (sound : mgr.Sound)
    (steps : (serviceMachine service configer).Steps mgr event answer next) : next.Sound := by
  cases effect_of_steps steps with
  | initMade first make => exact (sound.made _ _).congr rfl fun _ => Iff.rfl
  | connected call make => exact (sound.made _ _).congr rfl fun _ => Iff.rfl
  | initFailed first make => exact sound.congr rfl fun _ => Iff.rfl
  | found entry => exact sound
  | unconfigured absent nowhere => exact sound
  | pending absent somewhere => exact sound.congr rfl fun _ => Iff.rfl
  | refused call make => exact sound.congr holds_refused fun _ => Iff.rfl
  | tested ran =>
    have passed := sound.passed ran
    exact ⟨fun held => passed.live.mpr (sound.live (passed.holds held)),
      fun one other => sound.unique (passed.holds one) (passed.holds other)⟩

/-- A manager before `OnInit` holds nothing. -/
theorem sound_new : (new service configer).Sound := by
  have empty : ∀ zone, (new service configer).holds zone = none := by
    intro zone
    simp [holds, new]
  constructor
  · intro zone pClient held
    rw [empty] at held
    cases held
  · intro zone zone' pClient held
    rw [empty] at held
    cases held

end ServiceMgr

end NetServer
