import NetServer.Records.Batch

/-!
# The header a record is executed under

`OnThreadWorker` keeps one string for the headers of all kinds of a round, and `GetSqlHeader` leaves
it as it is for the updates. When a kind of inserts had records earlier in a round, its header is
still there when the updates are counted, and they are executed in a batch behind it. As long as
that does not happen, every insert is executed behind the header of its kind and every update alone.
-/

namespace NetServer

open Lib

/-! ## Keys and headers -/

/-- The keys of the six kinds differ. -/
theorem onKeysInit_nodup (areaCode : Bytes) : (onKeysInit areaCode).Nodup := by
  have kinds : [bytes "_INSERT_LOG_ESIGN", bytes "_INSERT_LOG_SIGNVERIFY",
    bytes "_INSERT_LOG_SIGNREVOKE",
      bytes "_INSERT_LOG_PRODUCEESEAL", bytes "_INSERT_ESEAL", bytes "_UPDATE_ESEAL"].Nodup := by
    decide +kernel
  exact List.Nodup.map (List.append_right_injective (areaCode.take 4)) kinds

/-- The header of a kind; the updates have none. -/
def kindHeader (i : Nat) : Bytes := (getSqlHeader i []).2

/-- `GetSqlHeader` sets the header of a kind of inserts. -/
theorem getSqlHeader_insert {i : Nat} (insert : i < 5) (sqlStr : Bytes) :
    getSqlHeader i sqlStr = (true, kindHeader i) := by
  match i, insert with
  | 0, _ | 1, _ | 2, _ | 3, _ | 4, _ => simp only [kindHeader, getSqlHeader]

/-- The first letter and the length of a header, which is a C string. -/
theorem kindHeader_text {i : Nat} (insert : i < 5) :
    (kindHeader i).head? = some 73 ∧ (kindHeader i).length ≤ 1000 ∧ 0 ∉ kindHeader i := by
  match i, insert with
  | 0, _ | 1, _ | 2, _ | 3, _ | 4, _ =>
    simp only [kindHeader, getSqlHeader, insertLogEsign, insertLogSignverify, insertLogSignrevoke,
      insertLogProduceeseal, insertEseal, List.flatMap_cons, List.flatMap_nil]
    repeat rw [bytes_ofList]
    decide +kernel

/-- A header is not empty. -/
theorem kindHeader_ne_nil : ∀ i < 5, kindHeader i ≠ [] := by
  intro i insert none
  have letter := (kindHeader_text insert).1
  rw [none] at letter
  cases letter

/-- A header is a C string. -/
theorem kindHeader_clean {i : Nat} (insert : i < 5) : 0 ∉ kindHeader i :=
  (kindHeader_text insert).2.2

/-- The records of a statement run under their own header: those of a kind of inserts behind the
header of the kind, and an update alone. -/
structure Statement.OwnHeader (keyList : List Bytes) (statement : Statement) : Prop where
  listed : statement.strInKey ∈ keyList
  insert : ∀ i < 5, keyList[i]? = some statement.strInKey →
    statement.text = kindHeader i ++
      cString ((bytes ",").intercalate (statement.records.map fun record => recordText record.1))
  update : keyList[5]? = some statement.strInKey →
    ∃ record, statement.records = [record] ∧ statement.text = cString (recordText record.1)

/-- The header that is left from the inserts of a round when the updates are counted. -/
def Worker.leftHeader : Worker → Bytes
  | .count 5 sqlStr => sqlStr
  | _ => []

/-- When the updates are counted and there are some, no header is left. -/
def NoHeaderLeft (areaCode : Bytes) (rounds : Rounds) : RecordEvent → Prop
  | .scard _ answered =>
    answered = true → rounds.stores.sets (makeOneKey areaCode (bytes "_UPDATE_ESEAL")) ≠ [] →
      rounds.worker.leftHeader = []
  | .sadd _ _ | .spop _ _ _ | .query _ _ => True

instance (areaCode : Bytes) (rounds : Rounds) (event : RecordEvent) :
    Decidable (NoHeaderLeft areaCode rounds event) :=
  match event with
  | .scard _ answered => inferInstanceAs (Decidable (answered = true → _ ≠ _ → _ = _))
  | .sadd _ _ | .spop _ _ _ | .query _ _ => isTrue trivial

/-! ## Statements of a call -/

/-- What a statement of a call with some header and key is. -/
def Statement.Framed (header key : Bytes) (statement : Statement) : Prop :=
  statement.strInKey = key ∧
    if header = [] then ∃ record, statement.records = [record] ∧
    statement.text = cString (recordText record.1)
    else statement.text =
      cString (header ++ (bytes ",").intercalate (statement.records.map fun record =>
        recordText record.1))

/-- A step of a call executes at most one statement, with the header and key of the call. -/
theorem TargetCall.Does.statements {stores after : Stores} {call : TargetCall} {event : RecordEvent}
    {outcome : TargetCall ⊕ Bytes} {header key : Bytes}
    (does : TargetCall.Does stores call event after outcome)
    (sound : CallSound header key (.inl call)) {statement : Statement}
    (ran : statement ∈ after.statements) :
    statement ∈ stores.statements ∨ statement.Framed header key := by
  cases does with
  | updateNothing | updateDropped | updateTaken | counted | popNothing | popDropped | popTaken =>
    exact .inl ran
  | updateDone =>
    obtain ⟨rfl, rfl, member, rfl, rfl, -⟩ := sound
    refine (List.mem_append.mp ran).imp_right fun isNew => ?_
    rw [List.mem_singleton.mp isNew]
    exact ⟨rfl, by rw [if_pos rfl]; exact ⟨_, rfl, rfl⟩⟩
  | executed =>
    refine (List.mem_append.mp ran).imp_right fun isNew => ?_
    rw [List.mem_singleton.mp isNew]
    refine ⟨sound.1.strInKey, ?_⟩
    rw [if_neg sound.1.named, sound.1.sql]
    rfl

/-- A statement with the header and key of a kind runs under its own header. -/
theorem Statement.Framed.ownHeader {areaCode : Bytes} {i : Nat} {statement : Statement}
    {key : Bytes} (small : i < 6) (isKey : (onKeysInit areaCode)[i]? = some key)
    (framed : statement.Framed (kindHeader i) key) : statement.OwnHeader (onKeysInit areaCode) := by
  obtain ⟨rfl, text⟩ := framed
  -- The key tells the kind, since the keys differ.
  have kind : ∀ {j : Nat}, (onKeysInit areaCode)[j]? = some statement.strInKey → j = i := by
    intro j other
    exact ((List.getElem?_inj small (onKeysInit_nodup areaCode)).mp (isKey.trans other.symm)).symm
  refine ⟨List.mem_of_getElem? isKey, ?_, ?_⟩
  · intro j insert other
    obtain rfl := kind other
    rw [if_neg (kindHeader_ne_nil j insert)] at text
    rw [text, cString, List.takeWhile_append_of_pos]
    · rfl
    · exact List.takeWhile_eq_self_iff.mp (cString_eq_self.mpr (kindHeader_clean insert))
  · intro other
    obtain rfl := kind other
    have none : kindHeader 5 = [] := rfl
    rwa [if_pos none] at text

/-! ## Steps of the thread -/

/-- What holds between two steps of the thread: its call, if it is in one, has the header and key of
its kind. -/
def WorkerSound (areaCode : Bytes) : Worker → Prop
  | .count i _ => i < 6
  | .call i inside =>
    i < 6 ∧ ∃ key, (onKeysInit areaCode)[i]? = some key ∧ CallSound (kindHeader i) key (.inl inside)

variable {areaCode : Bytes} {insertCount : Int} {sets : Bytes → List Bytes} {rounds next : Rounds}
  {event : RecordEvent} {answer : Unit}

/-- The thread goes on to a key. -/
theorem workerSound_next (i : Nat) (sqlStr : Bytes) :
    WorkerSound areaCode (.next (onKeysInit areaCode).length i sqlStr) := by
  unfold Worker.next
  split
  · rename_i more
    exact more
  · exact Nat.succ_pos 5

/-- The thread is in a call of its kind or behind it. -/
theorem workerSound_enter {i : Nat} {key : Bytes} {outcome : TargetCall ⊕ Bytes} (small : i < 6)
    (isKey : (onKeysInit areaCode)[i]? = some key) (sound : CallSound (kindHeader i) key outcome) :
    WorkerSound areaCode (.enter (onKeysInit areaCode).length i outcome) := by
  cases outcome with
  | inl inside => exact ⟨small, key, isKey, sound⟩
  | inr sqlStr => exact workerSound_next i sqlStr

/-- There are records when some are counted. -/
theorem getRedisCount_pos {stores : Stores} {key : Bytes} {client : RedisClient} {answered : Bool}
    {iCount : Int} (counted : getRedisCount client (stores.scard key answered) = .ok iCount)
    (positive : iCount > 0) : answered = true ∧ stores.sets key ≠ [] := by
  unfold getRedisCount at counted
  cases ran : client.execInt (stores.scard key answered) 0 with
  | error fault =>
    rw [ran] at counted
    cases counted
  | ok stored =>
    rw [ran] at counted
    obtain rfl : stored.2 = iCount := Except.ok.inj counted
    rcases RedisClient.execInt_ok ran with ⟨integer, reply, same⟩ | nothing
    · cases answered with
      | false => cases reply
      | true =>
        refine ⟨rfl, fun empty => ?_⟩
        simp only [Stores.scard, empty] at reply
        cases reply
        rw [same] at positive
        exact absurd positive (by decide)
    · omega

/-- Counting the records of a kind leads into a call with its header, if no header is left for the
updates. -/
theorem workerSound_onCount {i : Nat} {sqlStr : Bytes} {iCount : Int} (small : i < 6)
    (left : iCount > 0 → i = 5 → sqlStr = []) :
    WorkerSound areaCode (.onCount insertCount (onKeysInit areaCode) i sqlStr iCount) := by
  obtain ⟨key, isKey⟩ : ∃ key, (onKeysInit areaCode)[i]? = some key :=
    ⟨_, List.getElem?_eq_getElem small⟩
  have getD : (onKeysInit areaCode).getD i [] = key := by
    rw [List.getD_eq_getElem?_getD, isKey]
    rfl
  unfold Worker.onCount
  split
  · rename_i positive
    have header : getSqlHeader i sqlStr = (true, kindHeader i) := by
      by_cases insert : i < 5
      · exact getSqlHeader_insert insert sqlStr
      · obtain rfl : i = 5 := by omega
        rw [left positive rfl]
        rfl
    rw [header, getD]
    exact workerSound_enter small isKey (callSound_start insertCount (kindHeader i) key).1
  · exact workerSound_next i sqlStr

/-- The thread and its statements. -/
structure RoundsSound (areaCode : Bytes) (rounds : Rounds) : Prop where
  worker : WorkerSound areaCode rounds.worker
  statements : ∀ statement ∈ rounds.stores.statements, statement.OwnHeader (onKeysInit areaCode)

/-- A step of the machine is one of a producer, a count of the thread or a step of its call. -/
theorem thread_cases
    (steps : (threadMachine areaCode insertCount sets).Steps rounds event answer next) :
    (∃ key member, event = .sadd key member ∧
      next = { rounds with stores := rounds.stores.sadd key member }) ∨
      (∃ i sqlStr client answered iCount, event = .scard client answered ∧
        rounds.worker = .count i sqlStr ∧
        getRedisCount client (rounds.stores.scard ((onKeysInit areaCode).getD i []) answered) =
          .ok iCount ∧
        next = { rounds with
          worker := .onCount insertCount (onKeysInit areaCode) i sqlStr iCount }) ∨
      ∃ i call outcome, rounds.worker = .call i call ∧
        TargetCall.Does rounds.stores call event next.stores outcome ∧
        next.worker = .enter (onKeysInit areaCode).length i outcome := by
  obtain ⟨possible, ran⟩ := steps
  simp only [threadMachine] at possible ran
  cases inside : rounds.worker with
  | count i sqlStr =>
    rw [inside] at possible ran
    cases event with
    | sadd key member =>
      cases ran
      exact .inl ⟨key, member, rfl, rfl⟩
    | scard client answered =>
      obtain ⟨iCount, counted, done⟩ := bind_eq_ok.mp ran
      cases done
      exact .inr (.inl ⟨i, sqlStr, client, answered, iCount, rfl, rfl, counted, rfl⟩)
    | spop | query => cases possible
  | call i inCall =>
    rw [inside] at possible ran
    cases event with
    | sadd key member =>
      cases ran
      exact .inl ⟨key, member, rfl, rfl⟩
    | scard | spop | query =>
      obtain ⟨⟨stores, outcome⟩, stepped, done⟩ := bind_eq_ok.mp ran
      cases done
      exact .inr (.inr ⟨i, inCall, outcome, rfl, TargetCall.does_of_step possible stepped, rfl⟩)

/-- Every step that meets the condition keeps this. -/
theorem RoundsSound.step (sound : RoundsSound areaCode rounds)
    (meets : NoHeaderLeft areaCode rounds event)
    (steps : (threadMachine areaCode insertCount sets).Steps rounds event answer next) :
    RoundsSound areaCode next := by
  have working := sound.worker
  rcases thread_cases steps with ⟨key, member, rfl, rfl⟩ |
    ⟨i, sqlStr, client, answered, iCount, rfl, counting, counted,
      rfl⟩ | ⟨i, call, outcome, calling, does, entered⟩
  · refine ⟨working, fun statement listed => sound.statements statement ?_⟩
    rwa [(rounds.stores.sadd_same key member).1] at listed
  · rw [counting] at working
    refine ⟨workerSound_onCount working fun positive update => ?_, sound.statements⟩
    subst update
    obtain ⟨isAnswered, some⟩ := getRedisCount_pos counted positive
    have none := meets isAnswered some
    rwa [counting] at none
  · rw [calling] at working
    obtain ⟨small, key, isKey, callSound⟩ := working
    refine ⟨?_, fun statement listed => ?_⟩
    · rw [entered]
      exact workerSound_enter small isKey (does.callSound callSound)
    · rcases does.statements callSound listed with before | framed
      · exact sound.statements statement before
      · exact framed.ownHeader small isKey

/-- For every content of the six sets, every number of rounds and whatever the producers and the
servers do: as long as no header is left from a kind of inserts when there are updates, the records
of a kind of inserts are executed behind the header of the kind, and each update is executed
alone. -/
theorem recordsOwnHeader {trace : List (RecordEvent × Unit)}
    (ran : (threadMachine areaCode insertCount sets).Run
      (threadMachine areaCode insertCount sets).init trace rounds)
    (meets : (threadMachine areaCode insertCount sets).Throughout (NoHeaderLeft areaCode)
      (threadMachine areaCode insertCount sets).init trace) :
    ∀ statement ∈ rounds.stores.statements, statement.OwnHeader (onKeysInit areaCode) := by
  have start : RoundsSound areaCode (threadMachine areaCode insertCount sets).init :=
    ⟨Nat.succ_pos 5, fun statement listed => (nomatch listed)⟩
  exact (ran.preserved_throughout (fun sound meets steps =>
    sound.step meets steps) meets start).statements

/-- A Redis server with a record of a signature and an update. -/
def signatureAndUpdate : Bytes → List Bytes :=
  Function.update (Function.update (fun _ => []) (bytes "4401_INSERT_LOG_ESIGN") [bytes "KDEp"])
    (bytes "4401_UPDATE_ESEAL") [bytes "VVBEQVRF"]

/-- The events of a round up to its last key: the signature is executed and the other sets of
inserts are empty. -/
def signatureRound : List RecordEvent :=
  [.scard connectedRedis true, .scard connectedRedis true, .spop connectedRedis true (bytes "KDEp"),
    .query connectedSql 0] ++ List.replicate 5 (.scard connectedRedis true)

/-- When the server gives no reply for the updates, the update is executed alone in the next
round. -/
theorem recordsOwnHeader_next_round :
    ∃ trace last, (threadMachine (bytes "4401") 100 signatureAndUpdate).Run
        (threadMachine (bytes "4401") 100 signatureAndUpdate).init trace last ∧
      last.stores.statements.map Statement.strInKey = [bytes "4401_INSERT_LOG_ESIGN",
        bytes "4401_UPDATE_ESEAL"] ∧
      ∀ statement ∈ last.stores.statements, statement.OwnHeader (onKeysInit (bytes "4401")) := by
  obtain ⟨trace, last, ran, events, facts⟩ := Machine.run_of_exec_any
    (fun last : Rounds => decide (last.stores.statements.map Statement.strInKey =
      [bytes "4401_INSERT_LOG_ESIGN", bytes "4401_UPDATE_ESEAL"]))
    (show ((threadMachine (bytes "4401") 100 signatureAndUpdate).exec
        (threadMachine (bytes "4401") 100 signatureAndUpdate).init
      (signatureRound ++ .scard connectedRedis false ::
        List.replicate 6 (.scard connectedRedis true) ++
        [.spop connectedRedis true (bytes "VVBEQVRF"), .query connectedSql 0])).any _ = true by
      decide +kernel)
  refine ⟨trace, last, ran, of_decide_eq_true facts, recordsOwnHeader ran ?_⟩
  refine ran.throughout_of_checkAll (fun rounds event =>
    decide (NoHeaderLeft (bytes "4401") rounds event))
    (fun rounds event met => of_decide_eq_true met) ?_
  rw [events]
  decide +kernel

/-- When both are there in one round, the update is executed behind the header of the signatures. -/
theorem update_behind_insert_header :
    ∃ trace last statement, (threadMachine (bytes "4401") 100 signatureAndUpdate).Run
        (threadMachine (bytes "4401") 100 signatureAndUpdate).init trace last ∧
      statement ∈ last.stores.statements ∧ statement.strInKey = bytes "4401_UPDATE_ESEAL" ∧
      statement.records.map Prod.fst = [bytes "VVBEQVRF"] ∧
      statement.text.take 11 = bytes "INSERT INTO" ∧
      ¬statement.OwnHeader (onKeysInit (bytes "4401")) := by
  obtain ⟨trace, last, ran, -, facts⟩ := Machine.run_of_exec_any
    (fun last : Rounds => last.stores.statements.any fun statement =>
      decide (statement.strInKey = bytes "4401_UPDATE_ESEAL" ∧
        statement.records.map Prod.fst = [bytes "VVBEQVRF"] ∧
        statement.text.take 11 = bytes "INSERT INTO"))
    (show ((threadMachine (bytes "4401") 100 signatureAndUpdate).exec
        (threadMachine (bytes "4401") 100 signatureAndUpdate).init
      (signatureRound ++ [.scard connectedRedis true, .scard connectedRedis true,
        .spop connectedRedis true (bytes "VVBEQVRF"), .query connectedSql 0])).any _ = true by
      decide +kernel)
  obtain ⟨statement, listed, checked⟩ := List.any_eq_true.mp facts
  obtain ⟨ofUpdates, members, front⟩ := of_decide_eq_true checked
  refine ⟨trace, last, statement, ran, listed, ofUpdates, members, front, fun own => ?_⟩
  obtain ⟨record, alone, text⟩ := own.update (by rw [ofUpdates]; decide +kernel)
  rw [alone] at members
  have member : record.1 = bytes "VVBEQVRF" := List.head_eq_of_cons_eq members
  rw [text, member] at front
  exact absurd front (by decide +kernel)

end NetServer
