import NetServer.Records.LogClient

/-!
# What a call of `ProccessTargetKey` does

`TargetCall.Does` lists what a call can do at each of its points, in terms of the texts of the
records and without the replies and clients that carry them. From it follows what a batch is at
every point: the header, then the texts of its records with commas between them.
-/

namespace NetServer

open Lib

/-! ## Texts of records -/

/-- The text that `RecordFromRedis` makes of a member of a set, if `Decode` does not fail. -/
def recordText (member : Bytes) : Bytes := (decodeReply (cString member)).toOption.getD []

/-- Without a reply there is no text. -/
theorem decodeReply_empty : decodeReply [] = .ok [] := by
  decide +kernel

/-- `RecordFromRedis` decodes what `ExecCommand` stores, which is empty at first. -/
theorem recordFromRedis_eq {client : RedisClient} {reply : Option RedisReply} {temp : Bytes}
    (read : recordFromRedis client reply = .ok temp) :
    ∃ iRet redisReply, client.execString reply [] = .ok (iRet, redisReply) ∧
      decodeReply redisReply = .ok temp := by
  unfold recordFromRedis at read
  cases stored : client.execString reply [] with
  | error fault =>
    rw [stored] at read
    cases read
  | ok result =>
    rw [stored] at read
    exact ⟨result.1, result.2, rfl, read⟩

/-- A reply with a member gives its text. -/
theorem recordFromRedis_member {client : RedisClient} {member temp : Bytes}
    (read : recordFromRedis client (some (.string (some member))) = .ok temp) :
    temp = recordText member := by
  obtain ⟨iRet, redisReply, stored, decoded⟩ := recordFromRedis_eq read
  rcases RedisClient.execString_ok stored with ⟨str, same, rfl⟩ | ⟨other, -⟩
  · cases same
    rw [recordText, decoded]
    rfl
  · exact absurd rfl (other member)

/-- Any other reply to `SPOP` gives none. -/
theorem recordFromRedis_nothing {client : RedisClient} {reply : Option RedisReply} {temp : Bytes}
    (none : ∀ member, reply ≠ some (.string (some member)))
    (read : recordFromRedis client reply = .ok temp) : temp = [] := by
  obtain ⟨iRet, redisReply, stored, decoded⟩ := recordFromRedis_eq read
  rcases RedisClient.execString_ok stored with ⟨str, same, -⟩ | ⟨-, rfl⟩
  · exact absurd same (none str)
  · rw [decodeReply_empty] at decoded
    exact (Except.ok.inj decoded).symm

/-! ## Steps of a call -/

/-- A member is removed from a set. -/
def Stores.take (stores : Stores) (key member : Bytes) : Stores :=
  { stores with sets := Function.update stores.sets key ((stores.sets key).erase member) }

/-- Nothing is dropped when nothing was popped. -/
theorem Stores.drop_none (stores : Stores) : stores.drop none = stores := by
  simp [drop]

/-- `SADD` changes neither the statements nor what was dropped. -/
theorem Stores.sadd_same (stores : Stores) (key member : Bytes) :
    (stores.sadd key member).statements = stores.statements ∧ (stores.sadd key member).dropped =
      stores.dropped := by
  unfold sadd
  split <;> exact ⟨rfl, rfl⟩

/-- What a call does at each of its points. -/
inductive TargetCall.Does (stores : Stores) :
    TargetCall → RecordEvent → Stores → TargetCall ⊕ Bytes → Prop
  | updateNothing {key member : Bytes} {client : RedisClient} {answered : Bool}
    (nothing : answered = false ∨ stores.sets key = []) :
    TargetCall.Does stores (.popUpdate key) (.spop client answered member) stores (.inr [])
  | updateDropped {key member : Bytes} {client : RedisClient} (listed : member ∈ stores.sets key)
    (empty : recordText member = []) :
    TargetCall.Does stores (.popUpdate key) (.spop client true member)
      ((stores.take key member).drop (some member))
      (.inr [])
  | updateTaken {key member : Bytes} {client : RedisClient} (listed : member ∈ stores.sets key)
    (text : recordText member ≠ []) :
    TargetCall.Does stores (.popUpdate key) (.spop client true member) (stores.take key member)
      (.inl (.execUpdate key (recordText member) (some member)))
  | updateDone {key temp : Bytes} {popped : Option Bytes} {client : SqlClient} {result : Int} :
    TargetCall.Does stores (.execUpdate key temp popped) (.query client result)
      (stores.execute ⟨key, cString temp, recordToMysql client result,
        popped.toList.map fun member => (member, temp.length)⟩) (.inr [])
  | counted {batch : Batch} {client : RedisClient} {answered : Bool} {iCount : Int} :
    TargetCall.Does stores (.count batch) (.scard client answered) stores (batch.onCount iCount)
  | popNothing {batch : Batch} {client : RedisClient} {answered : Bool} {member : Bytes}
    (nothing : answered = false ∨ stores.sets batch.strInKey = []) :
    TargetCall.Does stores (.pop batch) (.spop client answered member) stores batch.skip
  | popDropped {batch : Batch} {client : RedisClient} {member : Bytes}
    (listed : member ∈ stores.sets batch.strInKey) (empty : recordText member = []) :
    TargetCall.Does stores (.pop batch) (.spop client true member)
      ((stores.take batch.strInKey member).drop (some member)) batch.skip
  | popTaken {batch : Batch} {client : RedisClient} {member : Bytes}
    (listed : member ∈ stores.sets batch.strInKey) (text : recordText member ≠ []) :
    TargetCall.Does stores (.pop batch) (.spop client true member)
      (stores.take batch.strInKey member)
      (batch.extend (recordText member) (some member)).skip
  | executed {batch : Batch} {client : SqlClient} {result : Int} :
    TargetCall.Does stores (.exec batch) (.query client result)
      (stores.execute ⟨batch.strInKey, cString batch.sql, recordToMysql client result,
        batch.records⟩) batch.onExec

/-- What `SPOP` and `RecordFromRedis` give together: nothing, or a member of the set and its
text. -/
theorem Stores.spop_cases {stores after : Stores} {key member temp : Bytes} {answered : Bool}
    {client : RedisClient} {reply : Option RedisReply} {popped : Option Bytes}
    (pops : stores.spop key answered member = (reply, popped, after))
    (possible : answered = false ∨ stores.sets key = [] ∨ member ∈ stores.sets key)
    (read : recordFromRedis client reply = .ok temp) :
    (answered = false ∨ stores.sets key = []) ∧ temp = [] ∧ popped = none ∧ after = stores ∨
      answered = true ∧ member ∈ stores.sets key ∧ temp = recordText member ∧ popped = some member ∧
        after = stores.take key member := by
  unfold spop at pops
  cases answered with
  | false =>
    cases pops
    exact .inl ⟨.inl rfl, recordFromRedis_nothing (by simp) read, rfl, rfl⟩
  | true =>
    by_cases empty : stores.sets key = []
    · rw [if_pos rfl, if_pos empty] at pops
      cases pops
      exact .inl ⟨.inr empty, recordFromRedis_nothing (by simp) read, rfl, rfl⟩
    · rw [if_pos rfl, if_neg empty] at pops
      cases pops
      have listed : member ∈ stores.sets key := by
        rcases possible with unanswered | none | listed
        · cases unanswered
        · exact absurd none empty
        · exact listed
      exact .inr ⟨rfl, listed, recordFromRedis_member read, rfl, rfl⟩

/-- Every step of a call that waits for the event is one of these. -/
theorem TargetCall.does_of_step {stores after : Stores} {call : TargetCall} {event : RecordEvent}
    {outcome : TargetCall ⊕ Bytes} (waits : call.waitsFor stores event = true)
    (ran : call.step stores event = .ok (after, outcome)) :
    TargetCall.Does stores call event after outcome := by
  have possible : ∀ {answered : Bool} {key member : Bytes},
      (!answered || decide (stores.sets key = []) || decide (member ∈ stores.sets key)) = true →
      answered = false ∨ stores.sets key = [] ∨ member ∈ stores.sets key := by
    intro answered key member allowed
    simpa [or_assoc] using allowed
  cases call with
  | popUpdate key =>
    cases event with
    | spop client answered member =>
      cases pops : stores.spop key answered member with
      | mk reply rest =>
        obtain ⟨popped, middle⟩ := rest
        simp only [step, pops] at ran
        obtain ⟨temp, read, done⟩ := bind_eq_ok.mp ran
        rcases Stores.spop_cases pops (possible waits) read with
          ⟨nothing, rfl, rfl, rfl⟩ | ⟨rfl, listed, rfl, rfl, rfl⟩
        · rw [if_pos rfl, Stores.drop_none] at done
          cases done
          exact .updateNothing nothing
        · by_cases empty : recordText member = []
          · rw [if_pos empty] at done
            cases done
            exact .updateDropped listed empty
          · rw [if_neg empty] at done
            cases done
            exact .updateTaken listed empty
    | sadd | scard | query => cases waits
  | execUpdate key temp popped =>
    cases event with
    | query client result =>
      cases ran
      exact .updateDone
    | sadd | scard | spop => cases waits
  | count batch =>
    cases event with
    | scard client answered =>
      obtain ⟨iCount, -, done⟩ := bind_eq_ok.mp ran
      cases done
      exact .counted
    | sadd | spop | query => cases waits
  | pop batch =>
    cases event with
    | spop client answered member =>
      cases pops : stores.spop batch.strInKey answered member with
      | mk reply rest =>
        obtain ⟨popped, middle⟩ := rest
        simp only [step, pops] at ran
        obtain ⟨temp, read, done⟩ := bind_eq_ok.mp ran
        rcases Stores.spop_cases pops (possible waits) read with
          ⟨nothing, rfl, rfl, rfl⟩ | ⟨rfl, listed, rfl, rfl, rfl⟩
        · rw [if_pos (by decide), Stores.drop_none] at done
          cases done
          exact .popNothing nothing
        · by_cases empty : recordText member = []
          · rw [if_pos (by simp [empty])] at done
            cases done
            exact .popDropped listed empty
          · have long : ¬(recordText member).length < 1 := by
              have positive := List.length_pos_of_ne_nil empty
              omega
            rw [if_neg long] at done
            cases done
            exact .popTaken listed empty
    | sadd | scard | query => cases waits
  | exec batch =>
    cases event with
    | query client result =>
      cases ran
      exact .executed
    | sadd | scard | spop => cases waits

/-! ## Batches -/

namespace Batch

/-- The texts of the records of a batch. -/
def texts (batch : Batch) : List Bytes := batch.records.map fun record => recordText record.1

/-- What a batch is between two operations: a header and the texts of its records, each with its end
in `sql`. -/
structure Sound (header key : Bytes) (batch : Batch) : Prop where
  named : header ≠ []
  strInKey : batch.strInKey = key
  savesql : batch.savesql = header
  sql : batch.sql = header ++ (bytes ",").intercalate batch.texts
  redisCount : batch.redisCount = batch.records.length
  inside : ∀ record ∈ batch.records, record.2 ≤ batch.sql.length
  last : ∀ record ∈ batch.records.getLast?, record.2 = batch.sql.length

variable {header key : Bytes} {batch : Batch}

/-- Without records there is only the header. -/
theorem Sound.sql_header (sound : batch.Sound header key) (empty : batch.records = []) :
    batch.sql = header := by
  rw [sound.sql, texts, empty]
  simp

/-- There are records when some are counted. -/
theorem Sound.redisCount_pos (sound : batch.Sound header key) :
    batch.redisCount > 0 ↔ batch.records ≠ [] := by
  rw [sound.redisCount, ← List.length_pos_iff]
  omega

/-- A record with its text is added. -/
theorem Sound.extend (sound : batch.Sound header key) (member : Bytes) :
    (batch.extend (recordText member) (some member)).Sound header key := by
  have separated : (if batch.redisCount > 0 then batch.sql ++ bytes "," else batch.sql) =
      header ++ ((bytes ",").intercalate batch.texts ++ if batch.texts = [] then
        [] else bytes ",") := by
    have none : batch.texts = [] ↔ batch.records = [] := List.map_eq_nil_iff
    by_cases empty : batch.records = []
    · rw [if_neg (by rw [sound.redisCount_pos]; exact fun some => some empty),
        if_pos (none.mpr empty), List.append_nil, sound.sql]
    · rw [if_pos (sound.redisCount_pos.mpr empty), if_neg (fun absent => empty (none.mp absent)),
        sound.sql, List.append_assoc]
  have texts : (batch.extend (recordText member) (some member)).texts =
      batch.texts ++ [recordText member] := by
    simp [Batch.texts, Batch.extend]
  have sql : (batch.extend (recordText member) (some member)).sql =
      (if batch.redisCount > 0 then batch.sql ++ bytes "," else batch.sql) ++ recordText member :=
        rfl
  refine ⟨sound.named, sound.strInKey, sound.savesql, ?_, ?_, ?_, ?_⟩
  · rw [sql, separated, texts, intercalate_append_singleton, List.append_assoc]
  · simp [Batch.extend, sound.redisCount]
  · intro record inBatch
    rcases List.mem_append.mp inBatch with before | isNew
    · have earlier := sound.inside record before
      rw [sql, List.length_append]
      have longer : batch.sql.length ≤
          (if batch.redisCount > 0 then batch.sql ++ bytes "," else batch.sql).length := by
        split
        · rw [List.length_append]
          exact Nat.le_add_right _ _
        · exact Nat.le_refl _
      omega
    · rw [List.mem_singleton.mp isNew]
      exact Nat.le_refl _
  · intro record isLast
    simp only [Batch.extend, Option.toList_some, List.map_cons, List.map_nil, List.getLast?_concat,
      Option.mem_some_iff] at isLast
    rw [← isLast]
    rfl

end Batch

/-- The records that a call has popped and not executed yet. -/
def pending : TargetCall ⊕ Bytes → List Bytes
  | .inl (.execUpdate _ _ popped) => popped.toList
  | .inl (.count batch) | .inl (.pop batch) | .inl (.exec batch) => batch.records.map Prod.fst
  | .inl (.popUpdate _) | .inr _ => []

/-- What a call with some header and key is at each of its points, and what it returns. -/
def CallSound (header key : Bytes) : TargetCall ⊕ Bytes → Prop
  | .inl (.popUpdate strInKey) => strInKey = key ∧ header = []
  | .inl (.execUpdate strInKey temp popped) =>
    strInKey = key ∧ header = [] ∧ ∃ member, popped = some member ∧ temp = recordText member ∧
      temp ≠ []
  | .inl (.count batch) => batch.Sound header key ∧ batch.records = []
  | .inl (.pop batch) => batch.Sound header key
  | .inl (.exec batch) => batch.Sound header key ∧ batch.records ≠ []
  | .inr sql => sql = header

namespace Batch.Sound

variable {header key : Bytes} {batch : Batch}

/-- The loops keep the batch. -/
theorem forLoop (sound : batch.Sound header key) :
    CallSound header key batch.forLoop ∧ pending batch.forLoop = batch.records.map Prod.fst := by
  unfold Batch.forLoop Batch.afterFor
  split
  · exact ⟨sound, rfl⟩
  · split
    · rename_i some
      exact ⟨⟨sound, sound.redisCount_pos.mp some⟩, rfl⟩
    · rename_i none
      have empty : batch.records = [] := by
        by_contra nonempty
        exact none (sound.redisCount_pos.mpr nonempty)
      split
      · exact ⟨sound.sql_header empty, by rw [empty]; rfl⟩
      · exact ⟨⟨sound, empty⟩, rfl⟩

/-- Neither counting nor skipping changes a batch. -/
theorem onCount (sound : batch.Sound header key) (iCount : Int) :
    CallSound header key (batch.onCount iCount) ∧ pending (batch.onCount iCount) =
      batch.records.map Prod.fst :=
  Batch.Sound.forLoop { sound with }

@[inherit_doc onCount]
theorem skip (sound : batch.Sound header key) :
    CallSound header key batch.skip ∧ pending batch.skip = batch.records.map Prod.fst :=
  Batch.Sound.forLoop { sound with }

/-- Behind its execution a batch is empty again. -/
theorem onExec (sound : batch.Sound header key) :
    CallSound header key batch.onExec ∧ pending batch.onExec = [] := by
  unfold Batch.onExec
  dsimp only
  split
  · exact ⟨sound.savesql, rfl⟩
  · split
    · exact ⟨sound.savesql, rfl⟩
    · refine ⟨⟨⟨sound.named, sound.strInKey, sound.savesql, ?_, rfl, ?_, ?_⟩, rfl⟩, rfl⟩
      · simp [sound.savesql, Batch.texts]
      · intro record inEmpty
        cases inEmpty
      · intro record inEmpty
        cases inEmpty

end Batch.Sound

/-- A call starts with an empty batch. -/
theorem callSound_start (insertCount : Int) (sql strInKey : Bytes) :
    CallSound sql strInKey (proccessTargetKey insertCount sql strInKey) ∧
      pending (proccessTargetKey insertCount sql strInKey) = [] := by
  unfold proccessTargetKey
  split
  · exact ⟨rfl, rfl⟩
  · split
    · rename_i update
      exact ⟨⟨rfl, update⟩, rfl⟩
    · rename_i named
      refine ⟨⟨⟨named, rfl, rfl, by simp [Batch.texts], rfl, ?_, ?_⟩, rfl⟩, rfl⟩
      · intro record inEmpty
        cases inEmpty
      · intro record inEmpty
        cases inEmpty

/-- Every step of a call keeps this. -/
theorem TargetCall.Does.callSound {stores after : Stores} {call : TargetCall} {event : RecordEvent}
    {outcome : TargetCall ⊕ Bytes} {header key : Bytes}
    (does : TargetCall.Does stores call event after outcome)
    (sound : CallSound header key (.inl call)) : CallSound header key outcome := by
  cases does with
  | updateNothing nothing => exact sound.2.symm
  | updateDropped listed empty => exact sound.2.symm
  | updateTaken listed text => exact ⟨sound.1, sound.2, _, rfl, rfl, text⟩
  | updateDone => exact sound.2.1.symm
  | counted => exact (sound.1.onCount _).1
  | popNothing nothing => exact (Batch.Sound.skip sound).1
  | popDropped listed empty => exact (Batch.Sound.skip sound).1
  | @popTaken batch client member listed text => exact (Batch.Sound.extend sound member).skip.1
  | executed => exact sound.1.onExec.1

end NetServer
