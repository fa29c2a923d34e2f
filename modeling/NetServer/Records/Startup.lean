import NetServer.Records.ServiceMgr

/-!
# What a failed start leaves

`CRcdServiceMgr::OnInit` makes and starts the clients of the zones while it walks the two maps, and
it finds a zone that has only one of its items in the middle of this walk. The clients of the zones
before it are then running, and nothing stops them. A failed start leaves nothing exactly when no
zone before the first difference gets a client.
-/

namespace NetServer

/-! ## The front that two lists have in common -/

section

variable {α : Type} [LinearOrder α]

/-- The longest list that two lists both start with. -/
def commonFront : List α → List α → List α
  | one :: ones, other :: others => if one = other then one :: commonFront ones others else []
  | _, _ => []

/-- The first entry of an ordered list is the least one. -/
theorem head_le_of_mem {head entry : α} {rest : List α} (less : ∀ later ∈ rest, head < later)
    (listed : entry ∈ head :: rest) : head ≤ entry := by
  rcases List.mem_cons.mp listed with rfl | later
  · exact le_refl entry
  · exact (less entry later).le

/-- The common front of ordered lists has the entries up to which the lists have the same
entries. -/
theorem mem_commonFront {ones others : List α} (ordered : ones.Pairwise (· < ·))
    (ordered' : others.Pairwise (· < ·)) (entry : α) :
    entry ∈ commonFront ones others ↔ entry ∈ ones ∧ ∀ lower ≤ entry, lower ∈ ones ↔
      lower ∈ others := by
  induction ones generalizing others with
  | nil => simp [commonFront]
  | cons one ones ih =>
    cases others with
    | nil =>
      simp only [commonFront, List.not_mem_nil, iff_false, false_iff, not_and, not_forall]
      exact fun listed => ⟨entry, le_refl entry, not_not_intro listed⟩
    | cons other others =>
      rw [List.pairwise_cons] at ordered ordered'
      by_cases same : one = other
      · subst same
        rw [commonFront, if_pos rfl, List.mem_cons, ih ordered.2 ordered'.2, List.mem_cons]
        -- The first entry is below all others, so it is in neither of the two rests.
        have below {rest : List α} (less : ∀ later ∈ rest, one < later) {lower : α}
          (low : lower ≤ one) :
            lower ∉ rest := fun listed => absurd (less lower listed) (not_lt.mpr low)
        constructor
        · rintro (rfl | ⟨listed, agree⟩)
          · refine ⟨.inl rfl, fun lower low => ?_⟩
            simp only [List.mem_cons, below ordered.1 low, below ordered'.1 low]
          · refine ⟨.inr listed, fun lower low => ?_⟩
            rw [List.mem_cons, List.mem_cons, agree lower low]
        · rintro ⟨rfl | listed, agree⟩
          · exact .inl rfl
          · refine .inr ⟨listed, fun lower low => ?_⟩
            by_cases isFirst : lower = one
            · rw [isFirst]
              exact iff_of_false (below ordered.1 (le_refl one)) (below ordered'.1 (le_refl one))
            · have shared := agree lower low
              rw [List.mem_cons, List.mem_cons, or_iff_right isFirst, or_iff_right isFirst]
                at shared
              exact shared
      · rw [commonFront, if_neg same]
        simp only [List.not_mem_nil, false_iff, not_and, not_forall]
        intro listed
        -- The smaller one of the two first entries is in one list only.
        have least := head_le_of_mem ordered.1 listed
        rcases lt_or_gt_of_ne same with less | more
        · refine ⟨one, least, fun agree => ?_⟩
          exact absurd (head_le_of_mem ordered'.1 (agree.mp List.mem_cons_self)) (not_le.mpr less)
        · refine ⟨other, more.le.trans least, fun agree => ?_⟩
          exact absurd (head_le_of_mem ordered.1 (agree.mpr List.mem_cons_self)) (not_le.mpr more)

end

/-! ## The walk -/

namespace RcdServiceMgr

/-- The manager has the clients that it had before, and no other thread was started. -/
structure LeftAlone (before after : RcdServiceMgr) : Prop where
  clients : after.rcdLogClientMap = before.rcdLogClientMap
  started : after.started = before.started

variable {configer : Configer} {connect : Int → RcdConnect}

/-- What the walk over entries of two maps adds: the clients of the zones before the first
difference. -/
theorem initLoop_front {mysql redis : Std.ExtTreeMap Int ConfigInfo}
    (it it2 : List (Int × ConfigInfo)) (mgr : RcdServiceMgr)
    (isMysql : ∀ entry ∈ it, mysql[entry.1]? = some entry.2)
    (isRedis : ∀ entry ∈ it2, redis[entry.1]? = some entry.2) :
    let added := (commonFront (it.map Prod.fst) (it2.map Prod.fst)).filterMap
      (clientFor configer connect mysql redis)
    (initLoop configer connect it it2 mgr).2.started = mgr.started ++ added ∧
      (initLoop configer connect it it2 mgr).2.rcdLogClientMap =
        added.foldl (fun map entry => map.insertIfNew entry.1 entry.2) mgr.rcdLogClientMap := by
  induction it generalizing it2 mgr with
  | nil => simp [initLoop, commonFront]
  | cons entry it ih =>
    cases it2 with
    | nil => simp [initLoop, commonFront]
    | cons entry2 it2 =>
      obtain ⟨zone, mysqlInfo⟩ := entry
      obtain ⟨zone2, redisInfo⟩ := entry2
      rw [List.forall_mem_cons] at isMysql isRedis
      by_cases same : zone = zone2
      · subst same
        obtain ⟨-, started, clients⟩ :=
          @initZone_eq configer connect mgr _ _ _ _ _ isMysql.1 isRedis.1
        obtain ⟨started', clients'⟩ :=
          ih it2 (mgr.initZone configer connect zone mysqlInfo redisInfo) isMysql.2
            isRedis.2
        rw [initLoop, if_neg (not_not_intro rfl), started', clients', started, clients,
          List.map_cons, List.map_cons, commonFront, if_pos rfl]
        cases made : clientFor configer connect mysql redis zone with
        | none => simp [made]
        | some client => simp [made]
      · rw [initLoop, if_pos same]
        simp [commonFront, same]

/-- The walk leaves the manager alone exactly when no zone before the first difference has a
client. -/
theorem leftAlone_initLoop_iff {mysql redis : Std.ExtTreeMap Int ConfigInfo}
    {before mgr : RcdServiceMgr} (same : LeftAlone before mgr) :
    LeftAlone before (initLoop configer connect mysql.toList redis.toList mgr).2 ↔
      ∀ zone, (∀ lower ≤ zone, lower ∈ mysql ↔ lower ∈ redis) →
      clientFor configer connect mysql redis zone = none := by
  obtain ⟨started, clients⟩ :=
    @initLoop_front configer connect mysql redis mysql.toList redis.toList mgr
      (fun entry listed => Std.ExtTreeMap.mem_toList_iff_getElem?_eq_some.mp listed)
      (fun entry listed => Std.ExtTreeMap.mem_toList_iff_getElem?_eq_some.mp listed)
  rw [Std.ExtTreeMap.map_fst_toList_eq_keys, Std.ExtTreeMap.map_fst_toList_eq_keys, same.started]
    at started
  rw [Std.ExtTreeMap.map_fst_toList_eq_keys, Std.ExtTreeMap.map_fst_toList_eq_keys, same.clients]
    at clients
  have front (zone : Int) : zone ∈ commonFront mysql.keys redis.keys ↔
      zone ∈ mysql ∧ ∀ lower ≤ zone, lower ∈ mysql ↔ lower ∈ redis := by
    rw [mem_commonFront (pairwise_keys mysql) (pairwise_keys redis)]
    simp only [Std.ExtTreeMap.mem_keys]
  have nothing :
    (commonFront mysql.keys redis.keys).filterMap (clientFor configer connect mysql redis) = [] ↔
      ∀ zone, (∀ lower ≤ zone, lower ∈ mysql ↔ lower ∈ redis) →
      clientFor configer connect mysql redis zone = none := by
    rw [List.filterMap_eq_nil_iff]
    constructor
    · intro none zone agree
      by_cases listed : zone ∈ mysql
      · exact none zone ((front zone).mpr ⟨listed, agree⟩)
      · -- Without a mysql item there is no client.
        unfold clientFor
        rw [Std.ExtTreeMap.getElem?_eq_none listed]
        rfl
    · intro none zone inFront
      exact none zone ((front zone).mp inFront).2
  rw [← nothing]
  constructor
  · intro left
    exact List.append_right_eq_self.mp (started.symm.trans left.started)
  · intro empty
    rw [empty] at started clients
    exact ⟨clients, started.trans (List.append_nil _)⟩

end RcdServiceMgr

/-- For every configuration, whatever comes of connecting and whatever clients there are: a start
that fails leaves the clients as they were and starts no thread, exactly when the numbers of items
differ, or the zones are the same (and the start does not fail), or no zone before the first
difference gets a client. -/
theorem failed_start_leaves_iff (configer : Configer) (connect : Int → RcdConnect)
    (mgr : RcdServiceMgr) :
    ((RcdServiceMgr.onInitFrom configer connect mgr).1 = false →
      RcdServiceMgr.LeftAlone mgr (RcdServiceMgr.onInitFrom configer connect mgr).2) ↔
    (configer.configMysqlMap.size = configer.configRedisMap.size →
      (∃ zone : Int, ¬(zone ∈ configer.configMysqlMap ↔ zone ∈ configer.configRedisMap)) →
      ∀ zone : Int, (∀ lower ≤ zone, lower ∈ configer.configMysqlMap ↔
        lower ∈ configer.configRedisMap) →
        clientFor configer connect configer.configMysqlMap configer.configRedisMap zone =
          none) := by
  have sizes : (configer.getConfigInfos true).size = (configer.getConfigInfos false).size ↔
      configer.configMysqlMap.size = configer.configRedisMap.size := by
    rw [getConfigInfos_mysql, getConfigInfos_redis, Std.ExtTreeMap.size_map]
    exact eq_comm
  have zones (zone : Int) :
    (zone ∈ configer.getConfigInfos false ↔ zone ∈ configer.getConfigInfos true) ↔
      (zone ∈ configer.configMysqlMap ↔ zone ∈ configer.configRedisMap) := by
    rw [getConfigInfos_mysql, getConfigInfos_redis, Std.ExtTreeMap.mem_map]
  unfold RcdServiceMgr.onInitFrom
  dsimp only
  by_cases same : (configer.getConfigInfos true).size = (configer.getConfigInfos false).size
  · have succeeds :=
      @RcdServiceMgr.initLoop_true_iff configer connect (configer.getConfigInfos false).toList
        (configer.getConfigInfos true).toList
        { mgr with
          redisConfigs := configer.getConfigInfos true
          mysqlConfigs := configer.getConfigInfos false }
        (by rw [Std.ExtTreeMap.length_toList, Std.ExtTreeMap.length_toList, same])
    rw [Std.ExtTreeMap.map_fst_toList_eq_keys, Std.ExtTreeMap.map_fst_toList_eq_keys, keys_eq_iff]
      at succeeds
    have fails := not_congr succeeds
    rw [Bool.not_eq_true, not_forall] at fails
    have copied : RcdServiceMgr.LeftAlone mgr
        { mgr with
          redisConfigs := configer.getConfigInfos true
          mysqlConfigs := configer.getConfigInfos false } :=
      ⟨rfl, rfl⟩
    rw [if_neg (not_not_intro same), fails, RcdServiceMgr.leftAlone_initLoop_iff copied,
      clientFor_getConfigInfos]
    simp only [zones, sizes.mp same, forall_true_left]
  · rw [if_pos same]
    constructor
    · exact fun _ equal => absurd (sizes.mpr equal) same
    · exact fun _ _ => ⟨rfl, rfl⟩

/-- Two zones with a mysql item and two with a redis item, of which one has both. -/
def mismatched : Configer :=
  { Configer.new with
    configMysqlMap := ((∅ : Std.ExtTreeMap Int ConfigInfo).insert 4301 sampleMysql).insert 4302
      sampleMysql
    configRedisMap := ((∅ : Std.ExtTreeMap Int ConfigInfo).insert 4301 sampleRedis).insert 4303
      sampleRedis }

/-- A start that fails at the second zone leaves the client of the first one running. -/
theorem failed_start_runs :
    (RcdServiceMgr.onInitFrom mismatched reachable ⟨∅, ∅, ∅, [], []⟩).1 = false ∧
      (RcdServiceMgr.onInitFrom mismatched reachable ⟨∅, ∅, ∅, [], []⟩).2.rcdLogClientMap.keys =
        [4301] ∧
      (RcdServiceMgr.onInitFrom mismatched reachable ⟨∅, ∅, ∅, [], []⟩).2.started.map
        (fun entry => (entry.1, entry.2.isStarted)) = [(4301, true)] ∧
      ¬RcdServiceMgr.LeftAlone ⟨∅, ∅, ∅, [], []⟩
        (RcdServiceMgr.onInitFrom mismatched reachable ⟨∅, ∅, ∅, [], []⟩).2 := by
  have started : (RcdServiceMgr.onInitFrom mismatched reachable ⟨∅, ∅, ∅, [], []⟩).2.started.map
      (fun entry => (entry.1, entry.2.isStarted)) = [(4301, true)] := by decide +kernel
  refine ⟨by decide +kernel, by decide +kernel, started, fun left => ?_⟩
  rw [left.started] at started
  cases started

end NetServer
