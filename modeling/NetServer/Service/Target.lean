import NetServer.Service.Zones

/-!
# The server of a zone's SQL client

`OnInit` of `CSqlServiceMgr` connects every zone to its mysql item. `GetSqlClient`, for a zone that
has no client, asks `GetConfigInfo` for the redis item instead. A zone therefore talks to its own
MySQL server in every run exactly when its redis item, if it can be connected to at all, names that
server too, with an empty database name.
-/

namespace NetServer

open Lib

/-- What a `CSqlClient` connects to. -/
structure SqlTarget where
  address : Bytes
  port : Int
  user : Bytes
  password : Bytes
  dbName : Bytes
  deriving DecidableEq, Repr

/-- The server that an item names. -/
def ConfigInfo.sqlTarget (info : ConfigInfo) : SqlTarget :=
  ⟨info.stAddress, toUint (atoi info.stPort), info.stUsername, info.stPassword, info.stDbname⟩

/-- The server that a client was initialised with. -/
def SqlClient.target (client : SqlClient) : SqlTarget :=
  ⟨client.address, client.port, client.user, client.password, client.dbName⟩

/-- A new client is initialised with its item. -/
theorem makeSqlClient_target {info : ConfigInfo} {connect : SqlConnect} {client : SqlClient}
    (make : makeSqlClient info connect = some client) : client.target = info.sqlTarget := by
  rw [makeSqlClient, SqlClient.onInit, SqlClient.onConnect_eq] at make
  cases succeeds : connect.succeeds with
  | false =>
    rw [succeeds] at make
    cases make
  | true =>
    rw [succeeds] at make
    cases make
    rfl

/-- A test does not change what a client connects to. -/
theorem sqlTest_target {client : SqlClient} {outcome : Int × SqlConnect} {tested : Tested SqlClient}
    (test : sqlTest.test client outcome = .ok tested) : tested.client.target = client.target := by
  cases test
  cases handle : client.sqlHandle with
  | false => rw [SqlClient.testOnline_offline handle]
  | true =>
    by_cases answered : outcome.1 = 0
    · rw [answered, SqlClient.testOnline_answered handle]
      rfl
    · cases connects : outcome.2.succeeds with
      | true =>
        rw [SqlClient.testOnline_reconnected handle answered connects]
        rfl
      | false =>
        rw [SqlClient.testOnline_failed handle answered connects]
        rfl

namespace ServiceMgr

variable (configer : Configer) (zone : Int)

/-- In every run, a client that `GetSqlClient` returns for the zone was initialised with the mysql
item of the zone, and without such an item no call connects and all of them return a null
pointer. -/
structure TalksToOwnServer : Prop where
  own : ∀ {trace last event pClient next},
    (serviceMachine sqlService configer).Run (.new sqlService configer) trace last →
    (serviceMachine sqlService configer).Steps last event (some (zone, some pClient)) next →
    ∃ client item, next.clients.get? pClient = some client ∧ configer.configMysqlMap[zone]? =
      some item ∧
      client.target = item.sqlTarget
  stranger : ∀ {trace last}, configer.configMysqlMap[zone]? = none →
    (serviceMachine sqlService configer).Run (.new sqlService configer) trace last →
    (∀ (thread : Nat) (info : ConfigInfo), last.calls[thread]? ≠ some (zone, info)) ∧
      ∀ event pClient next,
        (serviceMachine sqlService configer).Steps last event (some (zone, pClient)) next →
        pClient = none

/-- The redis item of the zone, if it has an address and a port, names the server of its mysql
item. -/
def RedisItemAgrees : Prop :=
  ∀ item, configer.configRedisMap[zone]? = some item → ConnectsTo item →
    ∃ own, configer.configMysqlMap[zone]? = some own ∧
    own.sqlTarget = { item with stDbname := [] }.sqlTarget

/-- A server is the one that the mysql item of the zone names. -/
def IsOwn (target : SqlTarget) : Prop :=
  ∃ own, configer.configMysqlMap[zone]? = some own ∧ target = own.sqlTarget

/-- What holds in every run when the items agree. -/
structure Aimed (mgr : ServiceMgr SqlClient) : Prop where
  sound : mgr.Sound
  starting : ∀ {info}, (zone, info) ∈ mgr.starting → IsOwn configer zone info.sqlTarget
  calls : ∀ {thread : Nat} {info}, mgr.calls[thread]? = some (zone, info) →
    IsOwn configer zone info.sqlTarget
  held : ∀ {pClient client}, mgr.holds zone = some pClient →
    mgr.clients.get? pClient = some client →
    IsOwn configer zone client.target

variable {configer zone} {mgr next : ServiceMgr SqlClient}
  {event : MgrEvent (Int × SqlConnect) SqlConnect} {answer : Option (Int × Option Nat)}

/-- A manager before `OnInit` starts with the mysql items. -/
theorem aimed_new : Aimed configer zone (new sqlService configer) where
  sound := sound_new
  starting := by
    intro info inStarting
    have copied : configer.getConfigInfos false = configer.configMysqlMap :=
      foldl_insertIfNew_eq (List.Perm.refl _)
    rw [new, sqlService, copied, Std.ExtTreeMap.mem_toList_iff_getElem?_eq_some] at inStarting
    exact ⟨info, inStarting, rfl⟩
  calls := by
    intro thread info call
    simp [new] at call
  held := by
    intro pClient client held
    simp [new, holds] at held

/-- What `GetSqlClient` connects to when the items agree. -/
theorem RedisItemAgrees.lazyInfo (agrees : RedisItemAgrees configer zone)
    (somewhere : ConnectsTo (lazyInfo configer zone)) :
    IsOwn configer zone (ServiceMgr.lazyInfo configer zone).sqlTarget := by
  cases configured : configer.configRedisMap[zone]? with
  | none =>
    have reads : ServiceMgr.lazyInfo configer zone = ⟨[], [], [], [], []⟩ := by
      simp [ServiceMgr.lazyInfo, Configer.getConfigInfo, configured]
    rw [reads] at somewhere
    exact absurd rfl somewhere.1
  | some item =>
    have reads : ServiceMgr.lazyInfo configer zone = { item with stDbname := [] } := by
      simp [ServiceMgr.lazyInfo, Configer.getConfigInfo, configured]
    rw [reads] at somewhere ⊢
    obtain ⟨own, isItem, same⟩ := agrees item configured somewhere
    exact ⟨own, isItem, same.symm⟩

/-- The clients of the zone behind a new one, whose own zone may be another. -/
theorem Aimed.held_made (aimed : Aimed configer zone mgr) {zone' : Int} {client : SqlClient}
    (isOwn : zone' = zone → IsOwn configer zone client.target) {pClient : Nat} {client' : SqlClient}
    (held : (mgr.made zone' client).holds zone = some pClient)
    (alive : (mgr.made zone' client).clients.get? pClient = some client') :
    IsOwn configer zone client'.target := by
  have old : mgr.holds zone = some pClient → IsOwn configer zone client'.target := by
    intro heldBefore
    have other : pClient ≠ mgr.clients.next := by
      rintro rfl
      exact aimed.sound.not_holds_next heldBefore
    simp only [made, Heap.get?_alloc, if_neg other] at alive
    exact aimed.held heldBefore alive
  cases entry : mgr.clientMap[zone']? with
  | some pOld =>
    rw [holds_made_present client entry] at held
    exact old held
  | none =>
    rw [holds_made_absent client entry] at held
    by_cases here : zone = zone'
    · subst here
      rw [Function.update_self] at held
      cases held
      simp only [made, Heap.get?_alloc, ↓reduceIte] at alive
      cases alive
      exact isOwn rfl
    · rw [Function.update_of_ne here] at held
      exact old held

/-- Every step keeps that when the items agree. -/
theorem Aimed.step (aimed : Aimed configer zone mgr) (agrees : RedisItemAgrees configer zone)
    (steps : (serviceMachine sqlService configer).Steps mgr event answer next) :
    Aimed configer zone next := by
  have sound := aimed.sound.step steps
  have erased : ∀ {thread thread' : Nat} {info}, (mgr.calls.erase thread)[thread']? =
    some (zone, info) →
      IsOwn configer zone info.sqlTarget := by
    intro thread thread' info call
    rw [Std.ExtTreeMap.getElem?_erase] at call
    split at call
    · cases call
    · exact aimed.calls call
  cases effect_of_steps steps with
  | @initMade outcome zone' info starting client first make =>
    refine ⟨sound, fun inRest => aimed.starting (first ▸ List.mem_cons_of_mem _ inRest),
      aimed.calls, aimed.held_made ?_⟩
    rintro rfl
    rw [makeSqlClient_target make]
    exact aimed.starting (first ▸ List.mem_cons_self)
  | initFailed first make =>
    exact ⟨sound, fun inRest => aimed.starting (first ▸ List.mem_cons_of_mem _ inRest), aimed.calls,
      aimed.held⟩
  | found entry => exact aimed
  | unconfigured absent nowhere => exact aimed
  | @pending thread zone' absent somewhere =>
    refine ⟨sound, aimed.starting, fun {thread' info} call => ?_, aimed.held⟩
    rw [Std.ExtTreeMap.getElem?_insert] at call
    split at call
    · cases call
      exact agrees.lazyInfo somewhere
    · exact aimed.calls call
  | @connected thread outcome zone' info client call make =>
    refine ⟨sound, aimed.starting, erased, aimed.held_made ?_⟩
    rintro rfl
    rw [makeSqlClient_target make]
    exact aimed.calls call
  | refused call make =>
    refine ⟨sound, aimed.starting, erased, fun held alive => ?_⟩
    exact aimed.held ((congrFun holds_refused zone).symm.trans held) alive
  | tested ran =>
    have passed := aimed.sound.passed ran
    refine ⟨sound, ?_, ?_, fun {pClient client'} held alive => ?_⟩
    · rw [passed.starting]
      exact aimed.starting
    · rw [passed.calls]
      exact aimed.calls
    · have heldBefore := passed.holds held
      obtain ⟨client, tested, aliveBefore, test, after, -⟩ :=
        passed.tested (Std.ExtTreeMap.mem_toList_iff_getElem?_eq_some.mpr
          (holds_eq_some.mp heldBefore))
      rw [after] at alive
      cases alive
      rw [sqlTest_target test]
      exact aimed.held heldBefore aliveBefore

/-- A client that is returned for the zone is connected to the server of the zone. -/
theorem Aimed.returned (aimed : Aimed configer zone mgr) {pClient : Nat}
    (steps : (serviceMachine sqlService configer).Steps mgr event
      (some (zone, some pClient)) next) :
    ∃ client, next.clients.get? pClient = some client ∧ IsOwn configer zone client.target := by
  cases effect_of_steps steps with
  | found entry =>
    have held : mgr.holds zone = some pClient := holds_eq_some.mpr entry
    obtain ⟨client, alive⟩ := Option.isSome_iff_exists.mp (aimed.sound.live held)
    exact ⟨client, alive, aimed.held held alive⟩
  | @connected thread outcome _ info client call make =>
    refine ⟨client, by simp [made, Heap.get?_alloc], ?_⟩
    rw [makeSqlClient_target make]
    exact aimed.calls call

/-- A call of `GetSqlClient` that finds no client connects to the redis item of its zone. -/
theorem lazy_run {item : ConfigInfo} (configured : configer.configRedisMap[zone]? = some item)
    (somewhere : ConnectsTo item) :
    ∃ trace middle last client,
      (serviceMachine sqlService configer).Run (.new sqlService configer) trace middle ∧
      (serviceMachine sqlService configer).Steps middle (.connect 0 ⟨true, true, 0⟩)
        (some (zone, some 0)) last ∧
      last.clients.get? 0 = some client ∧
      client.target = { item with stDbname := [] }.sqlTarget := by
  have reads : lazyInfo configer zone = { item with stDbname := [] } := by
    simp [lazyInfo, Configer.getConfigInfo, configured]
  have goes : ConnectsTo (lazyInfo configer zone) := by
    rw [reads]
    exact somewhere
  have found : (new sqlService configer).lookup configer zone = .inr (lazyInfo configer zone) :=
    if_pos goes
  have looked :
    (serviceMachine sqlService configer).Steps (.new sqlService configer) (.lookup 0 zone) none
      { new sqlService configer with
        calls := (new sqlService configer).calls.insert 0 (zone, lazyInfo configer zone) } := by
    constructor
    · simp [serviceMachine, enabled, new]
    · simp only [serviceMachine, step, found]
  have makes : (makeSqlClient (lazyInfo configer zone) ⟨true, true, 0⟩).isSome = true :=
    makeSqlClient_isSome _ _
  obtain ⟨client, make⟩ := Option.isSome_iff_exists.mp makes
  refine ⟨_, _, _, client, .single looked, steps_connect Std.ExtTreeMap.getElem?_insert_self make,
    ?_, ?_⟩
  · exact Heap.get?_alloc
  · rw [← reads]
    exact makeSqlClient_target make

/-- A zone talks to its own MySQL server in every run exactly when its redis item does not name
another one. -/
theorem talksToOwnServer_iff (configer : Configer) (zone : Int) :
    TalksToOwnServer configer zone ↔ RedisItemAgrees configer zone := by
  constructor
  · intro talks item configured somewhere
    obtain ⟨trace, middle, last, client, ran, steps, alive, target⟩ := lazy_run configured somewhere
    obtain ⟨client', own, alive', isItem, same⟩ := talks.own ran steps
    rw [alive] at alive'
    cases alive'
    exact ⟨own, isItem, same.symm.trans target⟩
  · intro agrees
    have aimed : ∀ {trace last},
        (serviceMachine sqlService configer).Run (.new sqlService configer) trace last →
        Aimed configer zone last :=
      fun ran => ran.preserved (fun aimed steps => aimed.step agrees steps) aimed_new
    constructor
    · intro trace last event pClient next ran steps
      obtain ⟨client, alive, item, isItem, same⟩ := (aimed ran).returned steps
      exact ⟨client, item, alive, isItem, same⟩
    · intro trace last unlisted ran
      have never : ∀ {target}, ¬IsOwn configer zone target := by
        rintro target ⟨own, isItem, -⟩
        rw [unlisted] at isItem
        cases isItem
      refine ⟨fun thread info call => never ((aimed ran).calls call),
        fun event pClient next steps => ?_⟩
      cases pClient with
      | none => rfl
      | some pClient =>
        obtain ⟨client, -, isOwn⟩ := (aimed ran).returned steps
        exact absurd isOwn never

/-- A zone whose connection fails in `OnInit` gets a client for its redis server, and later calls
return it. -/
theorem lazy_client_of_redis_item : ∃ trace last, ∃ client : SqlClient,
    (serviceMachine sqlService twoItems).Run (.new sqlService twoItems) trace last ∧
      trace.map Prod.fst = [.init ⟨true, false, 0⟩, .lookup 0 1, .connect 0 ⟨true, true, 0⟩] ∧
      (serviceMachine sqlService twoItems).Steps last (.lookup 0 1) (some (1, some 0)) last ∧
      last.clients.get? 0 = some client ∧
      client.target = ⟨bytes "10.0.0.2", 6379, bytes "cache", bytes "other", []⟩ ∧
      ¬TalksToOwnServer twoItems 1 := by
  obtain ⟨trace, last, ran, events, facts⟩ := Machine.run_of_exec_any
    (fun last => last.clientMap[(1 : Int)]? == some (some 0) && last.calls[(0 : Nat)]? == none &&
      (last.clients.get? 0).map SqlClient.target ==
        some ⟨bytes "10.0.0.2", 6379, bytes "cache", bytes "other", []⟩)
    (show ((serviceMachine sqlService twoItems).exec (.new sqlService twoItems)
      [.init ⟨true, false, 0⟩, .lookup 0 1, .connect 0 ⟨true, true, 0⟩]).any _ = true by
      decide +kernel)
  simp only [Bool.and_eq_true, beq_iff_eq, Option.map_eq_some_iff] at facts
  obtain ⟨⟨entry, idle⟩, client, alive, target⟩ := facts
  have steps :
      (serviceMachine sqlService twoItems).Steps last (.lookup 0 1) (some (1, some 0)) last := by
    constructor
    · simp [serviceMachine, enabled, idle]
    · simp [serviceMachine, step, lookup, entry]
  refine ⟨trace, last, client, ran, events, steps, alive, target, fun talks => ?_⟩
  obtain ⟨client', item, alive', isItem, same⟩ := talks.own ran steps
  rw [alive] at alive'
  cases alive'
  have address : twoItems.configMysqlMap[(1 : Int)]?.map ConfigInfo.sqlTarget =
      some ⟨bytes "10.0.0.1", 3306, bytes "seal", bytes "secret", bytes "sealdb"⟩ := by
        decide +kernel
  rw [isItem, Option.map_some, ← same, target] at address
  revert address
  decide +kernel

end ServiceMgr

end NetServer
