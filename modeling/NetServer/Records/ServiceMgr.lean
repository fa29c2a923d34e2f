import NetServer.Common.Printf
import NetServer.Records.LogClient
import NetServer.Service.Target

/-!
# A client for the records of each zone, `CRcdServiceMgr`

`OnInit` copies the mysql and the redis items of the configuration, compares their numbers and walks
both maps in lock step. As the maps are ordered, this finds every zone that has only one of the two
items, and pairs the items of each zone. A zone whose servers cannot be reached gets no client. The
outcomes of connecting are input, one for each zone.
-/

namespace NetServer

open Lib

/-! ## `CRcdLogClient` -/

/-- The outcomes of connecting to the two servers of a zone. -/
structure RcdConnect where
  sql : SqlConnect
  redis : RedisMake
  deriving DecidableEq, Repr

/-- Both servers can be reached. -/
def RcdConnect.succeeds (connect : RcdConnect) : Bool :=
  connect.sql.succeeds && decide (connect.redis.connect = .connected)

/-- The fields of `CRcdLogClient`, with `isStarted` for whether its thread was created. -/
structure RcdLogClient where
  areaCode : Bytes
  pSqlClient : Option SqlClient
  pRedisClient : Option RedisClient
  insertWait : Int
  insertCount : Int
  keyList : List Bytes
  isStarted : Bool
  deriving DecidableEq, Repr

namespace RcdLogClient

/-- The constructor `CRcdLogClient::CRcdLogClient`. -/
def new (configer : Configer) : RcdLogClient where
  areaCode := []
  pSqlClient := none
  pRedisClient := none
  insertWait := configer.getInsertWait
  insertCount := configer.getInsertCount
  keyList := []
  isStarted := false

/-- `CRcdLogClient::MakeRedisClient`. -/
def makeRedisClient (address : Bytes) (port : Int) (outcome : RedisMake) : Option RedisClient :=
  match (RedisClient.new outcome.port outcome.iReconnectCount).onInit address port
      outcome.connect with
  | (true, client) => some client
  | (false, _) => none

/-- `CRcdLogClient::MakeSqlClient`. -/
def makeSqlClient (info : ConfigInfo) (connect : SqlConnect) : Option SqlClient :=
  NetServer.makeSqlClient info connect

variable (client : RcdLogClient)

/-- `CRcdLogClient::OnInit`. -/
def onInit (areaCode : Bytes) (mysqlInfo redisInfo : ConfigInfo) (connect : RcdConnect) :
    Bool × RcdLogClient :=
  let pSqlClient := makeSqlClient mysqlInfo connect.sql
  let pRedisClient := makeRedisClient redisInfo.stAddress (atoi redisInfo.stPort) connect.redis
  if pRedisClient = none ∨ pSqlClient = none then
    (false, { client with areaCode, pSqlClient := none, pRedisClient := none })
  else (true, { client with areaCode, pSqlClient, pRedisClient })

/-- `CRcdLogClient::OnStart`. -/
def onStart : RcdLogClient :=
  { client with keyList := onKeysInit client.areaCode, isStarted := true }

end RcdLogClient

/-! ## `CRcdServiceMgr` -/

/-- The fields of `CRcdServiceMgr`, with the zones for which `MakeRcdLogClient` was called and the
clients that were started, in this order. -/
structure RcdServiceMgr where
  rcdLogClientMap : Std.ExtTreeMap Int RcdLogClient
  redisConfigs : Std.ExtTreeMap Int ConfigInfo
  mysqlConfigs : Std.ExtTreeMap Int ConfigInfo
  tried : List Int
  started : List (Int × RcdLogClient)

/-- `CRcdServiceMgr::MakeRcdLogClient`. -/
def makeRcdLogClient (configer : Configer) (iareaCode : Int) (mysqlInfo redisInfo : ConfigInfo)
    (connect : RcdConnect) : Option RcdLogClient :=
  match (RcdLogClient.new configer).onInit (decimalInt iareaCode) mysqlInfo redisInfo connect with
  | (true, client) => some client
  | (false, _) => none

namespace RcdServiceMgr

variable (configer : Configer) (connect : Int → RcdConnect)

/-- One pass of the loop of `CRcdServiceMgr::OnInit`, for a zone that both maps have. -/
def initZone (mgr : RcdServiceMgr) (iareaCode : Int) (mysqlInfo redisInfo : ConfigInfo) :
    RcdServiceMgr :=
  let mgr := { mgr with tried := mgr.tried ++ [iareaCode] }
  match makeRcdLogClient configer iareaCode mysqlInfo redisInfo (connect iareaCode) with
  | some client =>
    { mgr with
      rcdLogClientMap := mgr.rcdLogClientMap.insertIfNew iareaCode client.onStart
      started := mgr.started ++ [(iareaCode, client.onStart)] }
  | none => mgr

/-- The loop of `CRcdServiceMgr::OnInit` over the entries of both maps. -/
def initLoop :
    List (Int × ConfigInfo) → List (Int × ConfigInfo) → RcdServiceMgr → Bool × RcdServiceMgr
  | (zone, mysqlInfo) :: it, (zone2, redisInfo) :: it2, mgr =>
    if zone ≠ zone2 then (false, mgr)
    else initLoop it it2 (mgr.initZone configer connect zone mysqlInfo redisInfo)
  | _, _, mgr => (true, mgr)

/-- `CRcdServiceMgr::OnInit` of a manager that may have clients already. -/
def onInitFrom (mgr : RcdServiceMgr) : Bool × RcdServiceMgr :=
  let mgr := { mgr with
    redisConfigs := configer.getConfigInfos true, mysqlConfigs := configer.getConfigInfos false }
  if mgr.redisConfigs.size ≠ mgr.mysqlConfigs.size then (false, mgr)
  else initLoop configer connect mgr.mysqlConfigs.toList mgr.redisConfigs.toList mgr

/-- `CRcdServiceMgr::OnInit` of a new manager. -/
def onInit : Bool × RcdServiceMgr := onInitFrom configer connect ⟨∅, ∅, ∅, [], []⟩

end RcdServiceMgr

/-! ## Copies of the items -/

section

variable (configer : Configer)

/-- `GetConfigInfos` copies the mysql items. -/
theorem getConfigInfos_mysql : configer.getConfigInfos false = configer.configMysqlMap :=
  foldl_insertIfNew_eq (List.Perm.refl _)

/-- `GetConfigInfos` copies the redis items without a name of a database. -/
theorem getConfigInfos_redis :
    configer.getConfigInfos true = configer.configRedisMap.map fun _ item =>
      { item with stDbname := [] } := by
  have copied := foldl_insertIfNew_eq
    (List.Perm.refl (configer.configRedisMap.map fun _ item => { item with stDbname := [] }).toList)
  rw [Std.ExtTreeMap.toList_map, List.foldl_map] at copied
  exact copied

end

/-- The zones of a map come in order. -/
theorem pairwise_keys {β : Type} (map : Std.ExtTreeMap Int β) : map.keys.Pairwise (· < ·) := by
  have ordered : map.keys.Pairwise fun zone other => compare zone other = .lt :=
    Std.ExtTreeMap.ordered_keys
  exact ordered.imp fun less => compare_lt_iff_lt.mp less

/-- Two maps have the same zones exactly when the ordered lists of their zones are the same. -/
theorem keys_eq_iff {β γ : Type} (one : Std.ExtTreeMap Int β) (other : Std.ExtTreeMap Int γ) :
    one.keys = other.keys ↔ ∀ zone : Int, zone ∈ one ↔ zone ∈ other := by
  constructor
  · intro same zone
    rw [← Std.ExtTreeMap.mem_keys, same, Std.ExtTreeMap.mem_keys]
  · intro same
    apply (pairwise_keys one).eq_of_mem_iff (pairwise_keys other)
    intro zone
    rw [Std.ExtTreeMap.mem_keys, Std.ExtTreeMap.mem_keys]
    exact same zone

/-! ## The walk -/

/-- The client that `OnInit` starts for a zone, if both maps have an item for it and its servers can
be reached. -/
def clientFor (configer : Configer) (connect : Int → RcdConnect)
    (mysql redis : Std.ExtTreeMap Int ConfigInfo) (zone : Int) : Option (Int × RcdLogClient) := do
  let mysqlInfo ← mysql[zone]?
  let redisInfo ← redis[zone]?
  let client ← makeRcdLogClient configer zone mysqlInfo redisInfo (connect zone)
  some (zone, client.onStart)

namespace RcdServiceMgr

variable {configer : Configer} {connect : Int → RcdConnect}

/-- What a pass adds for a zone. -/
theorem initZone_eq (mgr : RcdServiceMgr) {mysql redis : Std.ExtTreeMap Int ConfigInfo} {zone : Int}
    {mysqlInfo redisInfo : ConfigInfo} (isMysql : mysql[zone]? = some mysqlInfo)
    (isRedis : redis[zone]? = some redisInfo) :
    (mgr.initZone configer connect zone mysqlInfo redisInfo).tried = mgr.tried ++ [zone] ∧
      (mgr.initZone configer connect zone mysqlInfo redisInfo).started =
        mgr.started ++ (clientFor configer connect mysql redis zone).toList ∧
      (mgr.initZone configer connect zone mysqlInfo redisInfo).rcdLogClientMap =
        (clientFor configer connect mysql redis zone).toList.foldl (fun map entry =>
          map.insertIfNew entry.1 entry.2)
          mgr.rcdLogClientMap := by
  unfold initZone clientFor
  rw [isMysql, isRedis]
  cases made : makeRcdLogClient configer zone mysqlInfo redisInfo (connect zone) with
  | none => simp [made]
  | some client => simp [made]

/-- The walk over two lists of the same length ends with success exactly when their zones are the
same. -/
theorem initLoop_true_iff (it it2 : List (Int × ConfigInfo)) (mgr : RcdServiceMgr)
    (length : it.length = it2.length) :
    (initLoop configer connect it it2 mgr).1 = true ↔ it.map Prod.fst = it2.map Prod.fst := by
  induction it generalizing it2 mgr with
  | nil =>
    cases it2 with
    | nil => simp [initLoop]
    | cons entry it2 => cases length
  | cons entry it ih =>
    cases it2 with
    | nil => cases length
    | cons entry2 it2 =>
      rw [initLoop, List.map_cons, List.map_cons, List.cons.injEq]
      by_cases same : entry.1 = entry2.1
      · rw [if_neg (not_not_intro same), ih it2 _ (Nat.succ.inj length)]
        exact (and_iff_right same).symm
      · rw [if_pos same]
        simp [same]

/-- What the walk over entries of two maps with the same zones adds. -/
theorem initLoop_eq {mysql redis : Std.ExtTreeMap Int ConfigInfo} (it it2 : List (Int × ConfigInfo))
    (mgr : RcdServiceMgr) (zones : it.map Prod.fst = it2.map Prod.fst)
    (isMysql : ∀ entry ∈ it, mysql[entry.1]? = some entry.2)
    (isRedis : ∀ entry ∈ it2, redis[entry.1]? = some entry.2) :
    (initLoop configer connect it it2 mgr).2.tried = mgr.tried ++ it.map Prod.fst ∧
      (initLoop configer connect it it2 mgr).2.started =
        mgr.started ++ (it.map Prod.fst).filterMap (clientFor configer connect mysql redis) ∧
      (initLoop configer connect it it2 mgr).2.rcdLogClientMap =
        ((it.map Prod.fst).filterMap (clientFor configer connect mysql redis)).foldl
          (fun map entry => map.insertIfNew entry.1 entry.2) mgr.rcdLogClientMap := by
  induction it generalizing it2 mgr with
  | nil =>
    cases it2 with
    | nil => simp [initLoop]
    | cons entry it2 => cases zones
  | cons entry it ih =>
    cases it2 with
    | nil => cases zones
    | cons entry2 it2 =>
      rw [List.map_cons, List.map_cons, List.cons.injEq] at zones
      rw [List.forall_mem_cons] at isMysql isRedis
      obtain ⟨zone, mysqlInfo⟩ := entry
      obtain ⟨zone2, redisInfo⟩ := entry2
      obtain rfl : zone = zone2 := zones.1
      obtain ⟨tried, started, clients⟩ :=
        @initZone_eq configer connect mgr _ _ _ _ _ isMysql.1 isRedis.1
      obtain ⟨tried', started', clients'⟩ :=
        ih it2 (mgr.initZone configer connect zone mysqlInfo redisInfo) zones.2
          isMysql.2 isRedis.2
      rw [initLoop, if_neg (not_not_intro rfl), tried', started', clients', tried, started, clients,
        List.map_cons]
      cases made : clientFor configer connect mysql redis zone with
      | none => simp [made]
      | some client => simp [made]

end RcdServiceMgr

/-! ## Pairs of items -/

/-- The name of the database of a redis item is not used. -/
theorem makeRcdLogClient_unnamed (configer : Configer) (zone : Int)
    (mysqlInfo redisInfo : ConfigInfo) (connect : RcdConnect) :
    makeRcdLogClient configer zone mysqlInfo { redisInfo with stDbname := [] } connect =
      makeRcdLogClient configer zone mysqlInfo redisInfo connect := rfl

/-- The client of a zone, from the items of the configuration. -/
theorem clientFor_getConfigInfos (configer : Configer) (connect : Int → RcdConnect) :
    clientFor configer connect (configer.getConfigInfos false) (configer.getConfigInfos true) =
      clientFor configer connect configer.configMysqlMap configer.configRedisMap := by
  funext zone
  unfold clientFor
  rw [getConfigInfos_mysql, getConfigInfos_redis, Std.ExtTreeMap.getElem?_map]
  cases configer.configRedisMap[zone]? with
  | none => rfl
  | some item =>
    simp only [Option.map_some, Option.bind_eq_bind, Option.bind_some, makeRcdLogClient_unnamed]

/-- The first entry of a zone among those that a function gives for different zones. -/
theorem find?_filterMap {β : Type} (give : Int → Option (Int × β))
    (own : ∀ zone entry, give zone = some entry → entry.1 = zone) (zones : List Int) (zone : Int) :
    (zones.filterMap give).find? (fun entry => entry.1 = zone) = if zone ∈ zones then
      give zone else none := by
  induction zones with
  | nil => rfl
  | cons first zones ih =>
    cases given : give first with
    | none =>
      rw [List.filterMap_cons_none given, ih]
      by_cases same : zone = first
      · simp [same, given]
      · simp [same]
    | some entry =>
      have isOwn := own first entry given
      rw [List.filterMap_cons_some given, List.find?_cons]
      by_cases same : zone = first
      · simp [same, given, isOwn]
      · have other : ¬entry.1 = zone := fun equal => same (equal.symm.trans isOwn)
        simp [same, other, ih]

/-- A client that runs for a zone and was initialised with two items: it has the code of the zone
and its keys, its `CSqlClient` the server that the mysql item names, and its `CRedisClient` the
address and the port of the redis item. -/
structure RcdLogClient.RunsFor (client : RcdLogClient) (zone : Int)
    (mysqlInfo redisInfo : ConfigInfo) : Prop where
  areaCode : client.areaCode = decimalInt zone
  keyList : client.keyList = onKeysInit (decimalInt zone)
  isStarted : client.isStarted = true
  sql : client.pSqlClient.map SqlClient.target = some mysqlInfo.sqlTarget
  redis : client.pRedisClient.map (fun redis => (redis.address, redis.port)) =
    some (redisInfo.stAddress, atoi redisInfo.stPort)

/-- What `OnInit` leaves when every zone has both items: each zone was tried once, a client was
started for those whose servers can be reached, with the mysql item and the redis item of the zone,
and the clients that were started are in the map. -/
structure Paired (configer : Configer) (connect : Int → RcdConnect) (mgr : RcdServiceMgr) :
    Prop where
  once : mgr.tried.Nodup
  zones : ∀ zone, zone ∈ mgr.tried ↔ zone ∈ configer.configMysqlMap
  started : mgr.started.map Prod.fst = mgr.tried.filter fun zone => (connect zone).succeeds
  initialised : ∀ zone client, (zone, client) ∈ mgr.started → ∃ mysqlInfo redisInfo,
    configer.configMysqlMap[zone]? = some mysqlInfo ∧
      configer.configRedisMap[zone]? = some redisInfo ∧ client.RunsFor zone mysqlInfo redisInfo
  clients : ∀ zone client,
    mgr.rcdLogClientMap[zone]? = some client ↔ (zone, client) ∈ mgr.started

/-- A redis client is made when the server can be reached, with its address and its port. -/
theorem RcdLogClient.makeRedisClient_cases (address : Bytes) (port : Int) (outcome : RedisMake) :
    (∃ redis, makeRedisClient address port outcome = some redis ∧ redis.address = address ∧
        redis.port = port ∧ outcome.connect = .connected) ∨
      makeRedisClient address port outcome = none ∧ outcome.connect ≠ .connected := by
  rw [makeRedisClient, RedisClient.onInit, RedisClient.onConnect_eq]
  by_cases connects : outcome.connect = .connected
  · rw [connects]
    exact .inl ⟨_, rfl, rfl, rfl, rfl⟩
  · rw [decide_eq_false connects]
    exact .inr ⟨rfl, connects⟩

/-- A client is made when both servers can be reached, and started it runs for its zone. -/
theorem makeRcdLogClient_cases (configer : Configer) (zone : Int) (mysqlInfo redisInfo : ConfigInfo)
    (connect : RcdConnect) :
    (∃ client, makeRcdLogClient configer zone mysqlInfo redisInfo connect = some client ∧
        client.onStart.RunsFor zone mysqlInfo redisInfo ∧ connect.succeeds = true) ∨
      makeRcdLogClient configer zone mysqlInfo redisInfo connect = none ∧
        connect.succeeds = false := by
  have sqlMade := makeSqlClient_isSome mysqlInfo connect.sql
  rw [makeRcdLogClient, RcdLogClient.onInit, RcdConnect.succeeds, RcdLogClient.makeSqlClient,
    ← sqlMade]
  cases sql : makeSqlClient mysqlInfo connect.sql with
  | none => exact .inr ⟨by simp, rfl⟩
  | some pSqlClient =>
    have target := makeSqlClient_target sql
    rcases RcdLogClient.makeRedisClient_cases redisInfo.stAddress (atoi redisInfo.stPort)
      connect.redis with ⟨redis, made, address, port, connects⟩ | ⟨none, fails⟩
    · rw [made, connects]
      refine .inl ⟨_, rfl, ⟨rfl, rfl, rfl, ?_, ?_⟩, rfl⟩
      · exact congrArg some target
      · change some (redis.address, redis.port) = _
        rw [address, port]
    · rw [none, decide_eq_false fails]
      exact .inr ⟨rfl, rfl⟩

/-- A client is for its zone. -/
theorem clientFor_eq_some {configer : Configer} {connect : Int → RcdConnect}
    {mysql redis : Std.ExtTreeMap Int ConfigInfo} {zone : Int} {entry : Int × RcdLogClient}
    (given : clientFor configer connect mysql redis zone = some entry) :
    ∃ mysqlInfo redisInfo client, mysql[zone]? = some mysqlInfo ∧ redis[zone]? = some redisInfo ∧
      makeRcdLogClient configer zone mysqlInfo redisInfo (connect zone) = some client ∧
      entry = (zone, client.onStart) := by
  unfold clientFor at given
  obtain ⟨mysqlInfo, isMysql, given⟩ := Option.bind_eq_some_iff.mp given
  obtain ⟨redisInfo, isRedis, given⟩ := Option.bind_eq_some_iff.mp given
  obtain ⟨client, made, given⟩ := Option.bind_eq_some_iff.mp given
  cases given
  exact ⟨mysqlInfo, redisInfo, client, isMysql, isRedis, made, rfl⟩

/-- A zone with both items has a client exactly when its servers can be reached. -/
theorem clientFor_map_fst {configer : Configer} {connect : Int → RcdConnect}
    {mysql redis : Std.ExtTreeMap Int ConfigInfo} {zone : Int} (isMysql : zone ∈ mysql)
    (isRedis : zone ∈ redis) : (clientFor configer connect mysql redis zone).map Prod.fst =
      Option.guard (fun zone => (connect zone).succeeds) zone := by
  obtain ⟨mysqlInfo, mysqlItem⟩ :=
    Option.isSome_iff_exists.mp (Std.ExtTreeMap.mem_iff_isSome_getElem?.mp isMysql)
  obtain ⟨redisInfo, redisItem⟩ :=
    Option.isSome_iff_exists.mp (Std.ExtTreeMap.mem_iff_isSome_getElem?.mp isRedis)
  rw [clientFor, mysqlItem, redisItem]
  rcases makeRcdLogClient_cases configer zone mysqlInfo redisInfo (connect zone) with
    ⟨client, made, -, succeeds⟩ | ⟨made, fails⟩
  · simp [made, succeeds]
  · simp [made, Option.guard, fails]

section

variable {configer : Configer} {connect : Int → RcdConnect}
  {mysql redis : Std.ExtTreeMap Int ConfigInfo} {zone : Int}

/-- The client of a zone is listed under the zone. -/
theorem clientFor_fst {entry : Int × RcdLogClient}
    (given : clientFor configer connect mysql redis zone = some entry) : entry.1 = zone := by
  obtain ⟨-, -, -, -, -, -, rfl⟩ := clientFor_eq_some given
  rfl

/-- The client of a zone runs with the two items of the zone. -/
theorem clientFor_runsFor {client : RcdLogClient}
    (given : clientFor configer connect mysql redis zone = some (zone, client)) :
    ∃ mysqlInfo redisInfo, mysql[zone]? = some mysqlInfo ∧ redis[zone]? = some redisInfo ∧
      client.RunsFor zone mysqlInfo redisInfo := by
  obtain ⟨mysqlInfo, redisInfo, made, isMysql, isRedis, make, same⟩ := clientFor_eq_some given
  cases same
  rcases makeRcdLogClient_cases configer zone mysqlInfo redisInfo (connect zone) with
    ⟨client, make', runs, -⟩ | ⟨none, -⟩
  · rw [make] at make'
    cases make'
    exact ⟨mysqlInfo, redisInfo, isMysql, isRedis, runs⟩
  · rw [make] at none
    cases none

/-- A client is among those of some zones when it is the client of one of them. -/
theorem mem_filterMap_clientFor {zones : List Int} {client : RcdLogClient} :
    (zone, client) ∈ zones.filterMap (clientFor configer connect mysql redis) ↔
      zone ∈ zones ∧ clientFor configer connect mysql redis zone = some (zone, client) := by
  rw [List.mem_filterMap]
  constructor
  · rintro ⟨zone', listed, given⟩
    obtain rfl : zone = zone' := clientFor_fst given
    exact ⟨listed, given⟩
  · rintro ⟨listed, given⟩
    exact ⟨zone, listed, given⟩

/-- A map that the clients of some zones are inserted into finds each of them under its zone. -/
theorem getElem?_insert_clientFor {zones : List Int} {client : RcdLogClient} :
    ((zones.filterMap (clientFor configer connect mysql redis)).foldl
        (fun map entry => map.insertIfNew entry.1 entry.2)
        (∅ : Std.ExtTreeMap Int RcdLogClient))[zone]? = some client ↔
      (zone, client) ∈ zones.filterMap (clientFor configer connect mysql redis) := by
  rw [mem_filterMap_clientFor, getElem?_foldl_insertIfNew, Std.ExtTreeMap.getElem?_empty,
    Option.none_or, find?_filterMap _ fun _ _ => clientFor_fst]
  split_ifs with listed
  · rw [Option.map_eq_some_iff, and_iff_right listed]
    constructor
    · rintro ⟨⟨zone', client'⟩, given, rfl⟩
      obtain rfl : zone' = zone := clientFor_fst given
      exact given
    · intro given
      exact ⟨(zone, client), given, rfl⟩
  · apply iff_of_false
    · intro found
      cases found
    · exact fun both => listed both.1

end

/-- When the zones are the same, `OnInit` pairs their items. -/
theorem paired_of_zones {configer : Configer} {connect : Int → RcdConnect}
    (same : (configer.getConfigInfos false).keys = (configer.getConfigInfos true).keys)
    (mgr : RcdServiceMgr)
    (fresh : mgr.tried = [] ∧ mgr.started = [] ∧ mgr.rcdLogClientMap = ∅) :
    Paired configer connect (RcdServiceMgr.initLoop configer connect
      (configer.getConfigInfos false).toList (configer.getConfigInfos true).toList mgr).2 := by
  have zones : (configer.getConfigInfos false).toList.map Prod.fst =
      (configer.getConfigInfos true).toList.map Prod.fst := by
    rw [Std.ExtTreeMap.map_fst_toList_eq_keys, Std.ExtTreeMap.map_fst_toList_eq_keys, same]
  obtain ⟨tried, started, clients⟩ := @RcdServiceMgr.initLoop_eq configer connect _ _ _ _ mgr zones
    (fun entry listed => Std.ExtTreeMap.mem_toList_iff_getElem?_eq_some.mp listed)
    (fun entry listed => Std.ExtTreeMap.mem_toList_iff_getElem?_eq_some.mp listed)
  generalize (RcdServiceMgr.initLoop configer connect (configer.getConfigInfos false).toList
    (configer.getConfigInfos true).toList mgr).2 = last at *
  rw [fresh.1, List.nil_append, Std.ExtTreeMap.map_fst_toList_eq_keys, getConfigInfos_mysql]
    at tried
  rw [fresh.2.1, List.nil_append, Std.ExtTreeMap.map_fst_toList_eq_keys, clientFor_getConfigInfos,
    getConfigInfos_mysql, ← tried] at started
  rw [fresh.2.2, Std.ExtTreeMap.map_fst_toList_eq_keys, clientFor_getConfigInfos,
    getConfigInfos_mysql, ← tried] at clients
  refine ⟨?_, ?_, ?_, ?_, ?_⟩
  · rw [tried]
    exact Std.ExtTreeMap.nodup_keys
  · intro zone
    rw [tried]
    exact Std.ExtTreeMap.mem_keys
  · rw [started, List.map_filterMap, ← List.filterMap_eq_filter]
    apply List.filterMap_congr
    intro zone isTried
    rw [tried] at isTried
    have isRedis : zone ∈ (configer.getConfigInfos true).keys := by
      rw [← same, getConfigInfos_mysql]
      exact isTried
    rw [Std.ExtTreeMap.mem_keys, getConfigInfos_redis, Std.ExtTreeMap.mem_map] at isRedis
    exact clientFor_map_fst (Std.ExtTreeMap.mem_keys.mp isTried) isRedis
  · intro zone client isStarted
    rw [started, mem_filterMap_clientFor] at isStarted
    exact clientFor_runsFor isStarted.2
  · intro zone client
    rw [clients, started]
    exact getElem?_insert_clientFor

/-- For every configuration and whatever comes of connecting: `OnInit` succeeds exactly when the
mysql and the redis items are for the same zones, and then every zone was tried once, and every
client that was started for a zone runs with the mysql item and the redis item of that zone. -/
theorem onInit_pairs (configer : Configer) (connect : Int → RcdConnect) :
    ((RcdServiceMgr.onInit configer connect).1 = true ↔
      ∀ zone : Int, zone ∈ configer.configMysqlMap ↔ zone ∈ configer.configRedisMap) ∧
    ((RcdServiceMgr.onInit configer connect).1 = true →
      Paired configer connect (RcdServiceMgr.onInit configer connect).2) := by
  have zones : (configer.getConfigInfos false).keys = (configer.getConfigInfos true).keys ↔
      ∀ zone : Int, zone ∈ configer.configMysqlMap ↔ zone ∈ configer.configRedisMap := by
    rw [getConfigInfos_mysql, getConfigInfos_redis, Std.ExtTreeMap.keys_map]
    exact keys_eq_iff _ _
  unfold RcdServiceMgr.onInit RcdServiceMgr.onInitFrom
  dsimp only
  by_cases sizes : (configer.getConfigInfos true).size = (configer.getConfigInfos false).size
  · have succeeds :=
      @RcdServiceMgr.initLoop_true_iff configer connect (configer.getConfigInfos false).toList
        (configer.getConfigInfos true).toList ⟨∅, configer.getConfigInfos true,
          configer.getConfigInfos false, [], []⟩
        (by rw [Std.ExtTreeMap.length_toList, Std.ExtTreeMap.length_toList, sizes])
    rw [Std.ExtTreeMap.map_fst_toList_eq_keys, Std.ExtTreeMap.map_fst_toList_eq_keys] at succeeds
    rw [if_neg (not_not_intro sizes)]
    refine ⟨succeeds.trans zones, fun returned => ?_⟩
    exact paired_of_zones (succeeds.mp returned) _ ⟨rfl, rfl, rfl⟩
  · have differ : ¬(configer.getConfigInfos false).keys = (configer.getConfigInfos true).keys := by
      intro same
      have lengths := congrArg List.length same
      rw [Std.ExtTreeMap.length_keys, Std.ExtTreeMap.length_keys] at lengths
      exact sizes lengths.symm
    rw [if_pos sizes]
    have failed (returned : false = true) : False := nomatch returned
    exact ⟨⟨fun returned => (failed returned).elim, fun same => absurd (zones.mpr same) differ⟩,
      fun returned => (failed returned).elim⟩

/-- Two zones, each with a mysql item and a redis item. -/
def pairedZones : Configer :=
  { Configer.new with
    configMysqlMap := ((∅ : Std.ExtTreeMap Int ConfigInfo).insert 4301 sampleMysql).insert 4302
      sampleMysql
    configRedisMap := ((∅ : Std.ExtTreeMap Int ConfigInfo).insert 4301 sampleRedis).insert 4302
      sampleRedis }

/-- All servers can be reached. -/
def reachable (_ : Int) : RcdConnect := ⟨⟨true, true, 0⟩, ⟨0, 0, .connected⟩⟩

/-- Both zones get a client, and that of the second one runs with the items of its zone. -/
theorem onInit_pairs_reachable :
    (RcdServiceMgr.onInit pairedZones reachable).2.started.map Prod.fst = [4301, 4302] ∧
      ∃ client, (RcdServiceMgr.onInit pairedZones reachable).2.rcdLogClientMap[(4302 : Int)]? =
        some client ∧ client.RunsFor 4302 sampleMysql sampleRedis := by
  have succeeds : (RcdServiceMgr.onInit pairedZones reachable).1 = true := by decide +kernel
  have paired := (onInit_pairs pairedZones reachable).2 succeeds
  have started : (RcdServiceMgr.onInit pairedZones reachable).2.started.map Prod.fst =
      [4301, 4302] := by decide +kernel
  have listed : (4302 : Int) ∈
      (RcdServiceMgr.onInit pairedZones reachable).2.started.map Prod.fst := by
    rw [started]
    decide
  obtain ⟨⟨zone, client⟩, isStarted, rfl⟩ := List.mem_map.mp listed
  obtain ⟨mysqlInfo, redisInfo, isMysql, isRedis, runs⟩ := paired.initialised _ client isStarted
  rw [show pairedZones.configMysqlMap[(4302 : Int)]? = some sampleMysql by decide +kernel]
    at isMysql
  rw [show pairedZones.configRedisMap[(4302 : Int)]? = some sampleRedis by decide +kernel]
    at isRedis
  cases isMysql
  cases isRedis
  exact ⟨started, client, (paired.clients _ client).mpr isStarted, runs⟩

end NetServer
