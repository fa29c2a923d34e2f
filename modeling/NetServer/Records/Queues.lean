import NetServer.Records.Headers
import NetServer.Records.Losses
import NetServer.Records.ServiceMgr

/-!
# Queues of zones

The key of a queue starts with the code of its zone, printed in decimal and cut to four characters.
Two zones whose codes agree so far have the same keys for all six kinds, and a thread of one of them
takes the records of the other. Two zones whose codes differ so far have no key in common, whatever
the kinds, and a thread leaves the queues of the other zone alone.
-/

namespace NetServer

open Lib

/-! ## Keys -/

/-- The kinds of queues. -/
def kinds : List Bytes :=
  [bytes "_INSERT_LOG_ESIGN", bytes "_INSERT_LOG_SIGNVERIFY", bytes "_INSERT_LOG_SIGNREVOKE",
    bytes "_INSERT_LOG_PRODUCEESEAL", bytes "_INSERT_ESEAL", bytes "_UPDATE_ESEAL"]

/-- The keys of a zone have one part in common. -/
theorem onKeysInit_eq (areaCode : Bytes) : onKeysInit areaCode = kinds.map (areaCode.take 4 ++ ·) :=
  rfl

/-- A kind starts with an underscore. -/
theorem kind_underscore : ∀ kind ∈ kinds, ∃ rest, kind = 95 :: rest := by
  have heads : kinds.all (fun kind => kind.head? == some 95) = true := by decide +kernel
  intro kind listed
  have head := List.all_eq_true.mp heads kind listed
  exact List.head?_eq_some_iff.mp (eq_of_beq head)

/-- A zone code is printed without an underscore. -/
theorem underscore_not_mem_decimalInt (zone : Int) : 95 ∉ decimalInt zone := by
  have digits (number : Nat) : 95 ∉ decimal number := by
    intro listed
    have digit := isDigit_of_mem_decimal listed
    revert digit
    decide
  unfold decimalInt
  split
  · rw [List.mem_append, not_or]
    exact ⟨by decide, digits _⟩
  · exact digits _

/-- The part of a key before its kind. -/
theorem takeWhile_key {zone : Int} {kind : Bytes} (listed : kind ∈ kinds) :
    ((decimalInt zone).take 4 ++ kind).takeWhile (· != 95) = (decimalInt zone).take 4 := by
  obtain ⟨rest, rfl⟩ := kind_underscore kind listed
  have clean : ∀ c ∈ (decimalInt zone).take 4, (c != 95) = true := by
    intro c inZone
    rw [bne_iff_ne]
    rintro rfl
    exact underscore_not_mem_decimalInt zone (List.mem_of_mem_take inZone)
  rw [List.takeWhile_append_of_pos clean, List.takeWhile_cons_of_neg (by decide), List.append_nil]

/-- Two zones have no key in common exactly when their codes differ in the first four characters. -/
theorem keys_disjoint_iff (zone other : Int) :
    (∀ key ∈ onKeysInit (decimalInt zone), key ∉ onKeysInit (decimalInt other)) ↔
      (decimalInt zone).take 4 ≠ (decimalInt other).take 4 := by
  rw [onKeysInit_eq, onKeysInit_eq]
  constructor
  · intro disjoint same
    rw [same] at disjoint
    obtain ⟨kind, listed⟩ : ∃ kind, kind ∈ kinds := ⟨_, List.mem_cons_self⟩
    have isKey := List.mem_map_of_mem (f := ((decimalInt other).take 4 ++ ·)) listed
    exact disjoint _ isKey isKey
  · intro differ key isKey isOther
    obtain ⟨kind, listed, rfl⟩ := List.mem_map.mp isKey
    obtain ⟨kind', listed', same⟩ := List.mem_map.mp isOther
    have parts := congrArg (List.takeWhile (· != 95)) same
    rw [takeWhile_key listed, takeWhile_key listed'] at parts
    exact differ parts.symm

/-! ## Threads -/

/-- The queues of other keys are left alone: they hold what they held and what was added, and no
statement is for one of them. -/
structure LeavesAlone (keyList : List Bytes) (sets : Bytes → List Bytes) (stores : Stores) :
    Prop where
  queues : ∀ key ∉ keyList, ∀ member,
    (stores.sets key).count member = (sets key).count member + (stores.addedTo key).count member
  statements : ∀ statement ∈ stores.statements, statement.strInKey ∈ keyList

/-- A step of a call changes no other set. -/
theorem TargetCall.Does.other_sets {stores after : Stores} {call : TargetCall} {event : RecordEvent}
    {outcome : TargetCall ⊕ Bytes} {header key other : Bytes}
    (does : TargetCall.Does stores call event after outcome)
    (sound : CallSound header key (.inl call)) (apart : other ≠ key) :
    after.sets other = stores.sets other ∧ after.added = stores.added := by
  cases does with
  | updateNothing | updateDone | counted | popNothing | executed => exact ⟨rfl, rfl⟩
  | updateDropped listed empty =>
    obtain ⟨rfl, -⟩ := sound
    exact ⟨Function.update_of_ne apart .., rfl⟩
  | updateTaken listed text =>
    obtain ⟨rfl, -⟩ := sound
    exact ⟨Function.update_of_ne apart .., rfl⟩
  | popDropped listed empty =>
    obtain rfl := Batch.Sound.strInKey sound
    exact ⟨Function.update_of_ne apart .., rfl⟩
  | popTaken listed text =>
    obtain rfl := Batch.Sound.strInKey sound
    exact ⟨Function.update_of_ne apart .., rfl⟩

/-- Where a thread is, it is with one of its keys. -/
def WorkerKeyed (keyList : List Bytes) : Worker → Prop
  | .count i _ => i < keyList.length
  | .call i inside =>
    i < keyList.length ∧ ∃ header key, key ∈ keyList ∧ CallSound header key (.inl inside)

section

variable {areaCode : Bytes} {insertCount : Int} {sets : Bytes → List Bytes} {rounds next : Rounds}
  {event : RecordEvent} {answer : Unit}

/-- The thread goes on to a key. -/
theorem workerKeyed_next (i : Nat) (sqlStr : Bytes) :
    WorkerKeyed (onKeysInit areaCode) (.next (onKeysInit areaCode).length i sqlStr) := by
  unfold Worker.next
  split
  · rename_i more
    exact more
  · exact Nat.succ_pos 5

/-- The thread is in a call for one of its keys or behind it. -/
theorem workerKeyed_enter {i : Nat} {header key : Bytes} {outcome : TargetCall ⊕ Bytes}
    (small : i < (onKeysInit areaCode).length) (isKey : key ∈ onKeysInit areaCode)
    (sound : CallSound header key outcome) :
    WorkerKeyed (onKeysInit areaCode) (.enter (onKeysInit areaCode).length i outcome) := by
  cases outcome with
  | inl inside => exact ⟨small, header, key, isKey, sound⟩
  | inr sqlStr => exact workerKeyed_next i sqlStr

/-- Counting the records of a key leads into a call for the key or on to the next one. -/
theorem workerKeyed_onCount {i : Nat} {sqlStr : Bytes} {iCount : Int}
    (small : i < (onKeysInit areaCode).length) :
    WorkerKeyed (onKeysInit areaCode)
      (.onCount insertCount (onKeysInit areaCode) i sqlStr iCount) := by
  have isKey : (onKeysInit areaCode).getD i [] ∈ onKeysInit areaCode := by
    rw [List.getD_eq_getElem _ _ small]
    exact List.getElem_mem small
  unfold Worker.onCount
  split
  · split
    · rename_i sqlStr _
      exact workerKeyed_enter small isKey (callSound_start insertCount sqlStr _).1
    · exact workerKeyed_next i _
  · exact workerKeyed_next i sqlStr

/-- A thread with its keys, which leaves the other queues alone. -/
structure KeepsToKeys (areaCode : Bytes) (sets : Bytes → List Bytes) (rounds : Rounds) : Prop where
  worker : WorkerKeyed (onKeysInit areaCode) rounds.worker
  leaves : LeavesAlone (onKeysInit areaCode) sets rounds.stores

/-- Every step of a thread keeps to its keys. -/
theorem KeepsToKeys.step (keeps : KeepsToKeys areaCode sets rounds)
    (steps : (threadMachine areaCode insertCount sets).Steps rounds event answer next) :
    KeepsToKeys areaCode sets next := by
  obtain ⟨worker, queues, statements⟩ := keeps
  rcases thread_cases steps with ⟨key', member', rfl, rfl⟩ |
    ⟨i, sqlStr, client, answered, iCount, rfl, counting, counted,
      rfl⟩ | ⟨i, call, outcome, calling, does, entered⟩
  · refine ⟨worker, fun key other member => ?_, ?_⟩
    · have added := rounds.stores.count_sadd key key' member' member
      have before := queues key other member
      change ((rounds.stores.sadd key' member').sets key).count member =
        (sets key).count member + ((rounds.stores.sadd key' member').addedTo key).count member
      omega
    · change ∀ statement ∈ (rounds.stores.sadd key' member').statements, _
      rw [(rounds.stores.sadd_same key' member').1]
      exact statements
  · rw [counting] at worker
    exact ⟨workerKeyed_onCount worker, queues, statements⟩
  · rw [calling] at worker
    obtain ⟨small, header, key, isKey, sound⟩ := worker
    refine ⟨?_, fun other isOther member => ?_, fun statement executed => ?_⟩
    · rw [entered]
      exact workerKeyed_enter small isKey (does.callSound sound)
    · have apart : other ≠ key := fun same => isOther (same ▸ isKey)
      obtain ⟨sameSet, sameAdded⟩ := does.other_sets sound apart
      rw [sameSet, Stores.addedTo, sameAdded]
      exact queues other isOther member
    · rcases does.statements sound executed with before | framed
      · exact statements statement before
      · rw [framed.1]
        exact isKey

/-- A thread leaves the queues of all other keys alone, in every run. -/
theorem leavesAlone_run {trace : List (RecordEvent × Unit)}
    (ran : (threadMachine areaCode insertCount sets).Run
      (threadMachine areaCode insertCount sets).init trace rounds) :
    LeavesAlone (onKeysInit areaCode) sets rounds.stores := by
  have start : KeepsToKeys areaCode sets (threadMachine areaCode insertCount sets).init := by
    refine ⟨Nat.succ_pos 5, fun key other member => ?_, fun statement executed =>
      (nomatch executed)⟩
    simp [threadMachine, Stores.addedTo]
  exact (ran.preserved (fun keeps steps => keeps.step steps) start).leaves

end

/-! ## Zones -/

/-- The thread of a zone takes no record from a queue of another zone and stores none of them. -/
def Spares (zone other : Int) : Prop :=
  ∀ insertCount sets trace rounds,
    (threadMachine (decimalInt zone) insertCount sets).Run
      (threadMachine (decimalInt zone) insertCount sets).init trace
      rounds →
    ∀ key ∈ onKeysInit (decimalInt other),
      (∀ member, (rounds.stores.sets key).count member =
          (sets key).count member + (rounds.stores.addedTo key).count member) ∧
        ∀ statement ∈ rounds.stores.statements, statement.strInKey ≠ key

/-- Two zones do not share queues. -/
structure ZonesApart (zone other : Int) : Prop where
  keys : ∀ key ∈ onKeysInit (decimalInt zone), key ∉ onKeysInit (decimalInt other)
  spares : Spares zone other
  spared : Spares other zone

/-- A zone that has no key in common with another one spares it. -/
theorem spares_of_disjoint {zone other : Int}
    (disjoint : ∀ key ∈ onKeysInit (decimalInt other), key ∉ onKeysInit (decimalInt zone)) :
    Spares zone other := by
  intro insertCount sets trace rounds ran key isKey
  have leaves := leavesAlone_run ran
  have apart := disjoint key isKey
  refine ⟨leaves.queues key apart, fun statement executed same => ?_⟩
  exact apart (same ▸ leaves.statements statement executed)

/-- For every two zone codes: the zones do not share queues, whatever the kinds, and no thread of
one of them takes or stores records of the other, exactly when the codes differ in the first four
characters of their decimal text. -/
theorem zonesApart_iff (zone other : Int) :
    ZonesApart zone other ↔ (decimalInt zone).take 4 ≠ (decimalInt other).take 4 := by
  constructor
  · intro apart
    exact (keys_disjoint_iff zone other).mp apart.keys
  · intro differ
    have disjoint := (keys_disjoint_iff zone other).mpr differ
    have disjoint' := (keys_disjoint_iff other zone).mpr differ.symm
    exact ⟨disjoint, spares_of_disjoint disjoint', spares_of_disjoint disjoint⟩

/-- The zone of the first line of the sample in the source. -/
def huNan : Numeral := ⟨.none, bytes "431027", 0, by decide, by decide +kernel, by decide +kernel⟩

/-- The zone of the second line. -/
def guangXi : Numeral := ⟨.none, bytes "431028", 0, by decide, by decide +kernel, by decide +kernel⟩

/-- The lines of a configuration of both zones in front of the last one. -/
def neighbourLines : List (ConfigLine × Bool) :=
  [(.mysql (bytes "HuNan") huNan sampleMysql, false),
    (.redis (bytes "HuNan") huNan sampleRedis, false),
    (.mysql (bytes "GuangXi") guangXi sampleMysql, false)]

/-- The last line. -/
def neighbourLast : ConfigLine × Bool := (.redis (bytes "GuangXi") guangXi sampleRedis, false)

/-- Every line of the neighbouring file can be written. -/
theorem neighbourLines_valid : ∀ line ∈ neighbourLines ++ [neighbourLast], line.1.Valid := by
  have huNanClean : CleanName (bytes "HuNan") := cleanName_iff.2 (by decide +kernel)
  have guangXiClean : CleanName (bytes "GuangXi") := cleanName_iff.2 (by decide +kernel)
  have first := sample_valid huNanClean huNan
  have second := sample_valid guangXiClean guangXi
  simp only [neighbourLines, neighbourLast, List.cons_append, List.nil_append, List.forall_mem_cons]
  exact ⟨first.1, first.2, second.1, second.2, fun _ listed => absurd listed List.not_mem_nil⟩

/-- Every line of the neighbouring file fits into the line buffer. -/
theorem neighbourLines_short :
    ∀ line ∈ neighbourLines ++ [neighbourLast], (ConfigLine.body line).length ≤ 127 := by
  decide +kernel

/-- The neighbouring file has no five blank lines in a row. -/
theorem neighbourLines_runs :
    ¬List.replicate 5 ConfigLine.blank <:+: neighbourLines.map Prod.fst := by decide +kernel

/-- A configuration of both zones, with one Redis server. -/
def neighbours : ConfigFile where
  lines := neighbourLines
  last := neighbourLast
  valid := neighbourLines_valid
  short := neighbourLines_short
  runs := neighbourLines_runs

/-- The data sources of both zones. -/
def bothZones (info : ConfigInfo) : Std.ExtTreeMap Int ConfigInfo :=
  ((∅ : Std.ExtTreeMap Int ConfigInfo).insert 431027 info).insert 431028 info

/-- The key of the signatures of the second zone. -/
def guangXiKey : Bytes := makeOneKey (decimalInt 431028) (bytes "_INSERT_LOG_ESIGN")

/-- A Redis server with one signature of the second zone. -/
def guangXiRecord : Bytes → List Bytes := Function.update (fun _ => []) guangXiKey [bytes "KDEp"]

/-- The sample codes of the source are accepted together, and the thread of the first zone takes a
record from the queue of the second and stores it. -/
theorem neighbours_share :
    (∃ configer, Configer.new.onInit (some neighbours.text) = (true, configer) ∧
      configer.configMysqlMap = bothZones sampleMysql ∧
      configer.configRedisMap = bothZones sampleRedis) ∧
    (∃ trace last, (threadMachine (decimalInt 431027) 100 guangXiRecord).Run
        (threadMachine (decimalInt 431027) 100 guangXiRecord).init trace last ∧
      last.stores.sets guangXiKey = [] ∧
      last.stores.statements.map (fun statement =>
        (statement.strInKey, statement.members, statement.iret)) =
        [(guangXiKey, [bytes "KDEp"], 0)]) ∧
    ¬ZonesApart 431027 431028 := by
  have code : decimalInt 431027 = bytes "431027" := by decide +kernel
  have isKey : guangXiKey = bytes "4310_INSERT_LOG_ESIGN" := by decide +kernel
  refine ⟨⟨neighbours.result, neighbours.onInit_text _, ?_, ?_⟩, ?_, fun apart => ?_⟩
  · exact ConfigFile.result_map (by decide +kernel) rfl fun configer line =>
      (ConfigLine.apply_fields line configer).2.2.2.2.2.1
  · exact ConfigFile.result_map (by decide +kernel) rfl fun configer line =>
      (ConfigLine.apply_fields line configer).2.2.2.2.2.2
  · rw [guangXiRecord, isKey, code]
    obtain ⟨trace, last, ran, -, facts⟩ := Machine.run_of_exec_any
      (fun last : Rounds => decide (last.stores.sets (bytes "4310_INSERT_LOG_ESIGN") = [] ∧
        last.stores.statements.map (fun statement =>
          (statement.strInKey, statement.members, statement.iret)) =
          [(bytes "4310_INSERT_LOG_ESIGN", [bytes "KDEp"], 0)]))
      (show ((threadMachine (bytes "431027") 100
            (Function.update (fun _ => []) (bytes "4310_INSERT_LOG_ESIGN") [bytes "KDEp"])).exec
          (threadMachine (bytes "431027") 100
            (Function.update (fun _ => []) (bytes "4310_INSERT_LOG_ESIGN") [bytes "KDEp"])).init
        [.scard connectedRedis true, .scard connectedRedis true,
          .spop connectedRedis true (bytes "KDEp"), .query connectedSql 0]).any _ = true by
        decide +kernel)
    exact ⟨trace, last, ran, of_decide_eq_true facts⟩
  · have shared : guangXiKey ∈ onKeysInit (decimalInt 431027) := by
      rw [isKey, code]
      decide +kernel
    exact apart.keys guangXiKey shared List.mem_cons_self

end NetServer
