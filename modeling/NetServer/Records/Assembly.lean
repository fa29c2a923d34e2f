import NetServer.Records.Losses

/-!
# The statements of a call of `ProccessTargetKey`

A call with a header takes the records of a set in passes of at most twenty. While no producer adds
records and the Redis server answers, a rank falls with every command and query: a call ends,
provided `Decode` can read every record. Its statements are then the header with the texts of the
records behind it, in the order in which they were popped, with one exception: `ExecSqlCmd` takes a
C string, so that a null in a text cuts the statement.
-/

namespace NetServer

open Lib

/-! ## What is asked of a call -/

/-- The Redis server carries out every command of the call, and no producer adds a record. -/
def RecordEvent.Served : RecordEvent → Prop
  | .sadd _ _ => False
  | .scard client answered => client.pRedisContext = true ∧ answered = true
  | .spop client answered _ => client.pRedisContext = true ∧ answered = true
  | .query _ _ => True

/-- The texts of the records that were popped, in this order, without the empty ones. -/
def poppedTexts (trace : List (RecordEvent × Unit)) : List Bytes :=
  trace.filterMap fun entry =>
    match entry.1 with
    | .spop _ _ member => if recordText member = [] then none else some (recordText member)
    | _ => none

/-- Statements that hold some texts in this order, in groups of up to twenty with commas between
them. -/
def Assembled (header : Bytes) (texts statements : List Bytes) : Prop :=
  ∃ groups : List (List Bytes),
    statements = groups.map (fun group => header ++ (bytes ",").intercalate group) ∧
      (∀ group ∈ groups, 1 ≤ group.length ∧ group.length ≤ 20) ∧ groups.flatten = texts

section

variable (insertCount : Int) (header key : Bytes) (sets : Bytes → List Bytes)

/-- A run of a call whose commands are carried out while no producer adds a record. -/
def ServedRun (trace : List (RecordEvent × Unit)) (target : Target) : Prop :=
  (targetMachine insertCount header key sets).Run (targetMachine insertCount header key sets).init
    trace target ∧
    ∀ entry ∈ trace, entry.1.Served

/-- A call ends, without a fault, and has assembled the records that it popped. -/
structure AssemblesStatements : Prop where
  /-- There is no endless run. -/
  bounded : ∃ bound, ∀ trace target, ServedRun insertCount header key sets trace target →
    trace.length ≤ bound
  /-- A call that has not returned can go on. -/
  goesOn : ∀ trace target call, ServedRun insertCount header key sets trace target →
    target.call = .inl call →
    ∃ event, event.Served ∧ (targetMachine insertCount header key sets).enabled target event = true
  /-- Nothing that can happen is a fault. -/
  safe : ∀ trace target event, ServedRun insertCount header key sets trace target → event.Served →
    (targetMachine insertCount header key sets).enabled target event = true →
    ∃ next, (targetMachine insertCount header key sets).Steps target event () next
  /-- Behind the call the statements hold what was popped. -/
  assembled : ∀ trace target sql, ServedRun insertCount header key sets trace target →
    target.call = .inr sql →
    Assembled header (poppedTexts trace) (target.stores.statements.map Statement.text)

end

/-- `Decode` can read a record, and neither its text nor the header has a null if the text is
executed. -/
def Insertable (header member : Bytes) : Prop :=
  ∃ text, decodeReply (cString member) = .ok text ∧ (text ≠ [] → 0 ∉ header ∧ 0 ∉ text)

/-! ## Passes of the outer loop -/

/-- How far a pass is, while a set has `size` records. -/
structure Batch.InPass (batch : Batch) (size : Nat) : Prop where
  records : (batch.records.length : Int) ≤ batch.i
  i : batch.i ≤ 20
  iMax : batch.iMax ≤ 20
  left : batch.iMax - batch.i ≤ size

/-- A call pops no more records than there are, and at most twenty for a statement. -/
def CallInPass (size : Nat) : TargetCall ⊕ Bytes → Prop
  | .inl (.pop batch) => batch.InPass size ∧ batch.i < batch.iMax
  | .inl (.exec batch) => batch.records.length ≤ 20
  | _ => True

/-- There may be more records. -/
theorem CallInPass.mono {size size' : Nat} {call : TargetCall ⊕ Bytes}
    (inPass : CallInPass size call) (more : size ≤ size') : CallInPass size' call := by
  match call, inPass with
  | .inl (.pop batch), ⟨⟨records, i, iMax, left⟩, inside⟩ =>
    exact ⟨⟨records, i, iMax, by omega⟩, inside⟩
  | .inl (.exec batch), few => exact few
  | .inl (.popUpdate _), _ | .inl (.execUpdate _ _ _), _ | .inl (.count _), _ | .inr _, _ => trivial

namespace Batch.InPass

variable {batch : Batch} {size : Nat}

/-- The loops keep to the pass. -/
theorem forLoop (inPass : batch.InPass size) : CallInPass size batch.forLoop := by
  unfold Batch.forLoop Batch.afterFor
  split
  · rename_i inside
    exact ⟨inPass, inside⟩
  · split
    · have records := inPass.records
      have few := inPass.i
      change batch.records.length ≤ 20
      omega
    · split <;> trivial

/-- A record is popped and has no text. -/
theorem skip (inPass : batch.InPass (size + 1)) (inside : batch.i < batch.iMax) :
    CallInPass size batch.skip := by
  obtain ⟨records, i, iMax, left⟩ := inPass
  apply forLoop
  constructor
  · change (batch.records.length : Int) ≤ batch.i + 1
    omega
  · change batch.i + 1 ≤ 20
    omega
  · exact iMax
  · change batch.iMax - (batch.i + 1) ≤ size
    omega

/-- A record is popped and its text is added. -/
theorem extend_skip (inPass : batch.InPass (size + 1)) (inside : batch.i < batch.iMax)
    (temp member : Bytes) : CallInPass size (batch.extend temp (some member)).skip := by
  obtain ⟨records, i, iMax, left⟩ := inPass
  apply forLoop
  constructor
  · change ((batch.records ++ [_]).length : Int) ≤ batch.i + 1
    rw [List.length_append, List.length_singleton]
    omega
  · change batch.i + 1 ≤ 20
    omega
  · exact iMax
  · change batch.iMax - (batch.i + 1) ≤ size
    omega

end Batch.InPass

/-- A pass starts when the records are counted. -/
theorem Batch.inPass_onCount {batch : Batch} {size : Nat} {iCount : Int}
    (empty : batch.records = []) (counted : iCount ≤ size) :
    CallInPass size (batch.onCount iCount) := by
  apply Batch.InPass.forLoop
  constructor
  · change (batch.records.length : Int) ≤ 0
    rw [empty]
    rfl
  · change (0 : Int) ≤ 20
    decide
  · change (if iCount > 20 then 20 else iCount) ≤ 20
    split <;> omega
  · change (if iCount > 20 then 20 else iCount) - 0 ≤ (size : Int)
    split <;> omega

/-- Behind a statement another pass may start. -/
theorem Batch.inPass_onExec (batch : Batch) (size : Nat) : CallInPass size batch.onExec := by
  unfold Batch.onExec
  dsimp only
  split
  · trivial
  · split <;> trivial

/-! ## Steps that are served -/

/-- `GetRedisCount` returns the number of records, as far as an `int` goes, or nothing. -/
theorem getRedisCount_cases {client : RedisClient} {stores : Stores} {key : Bytes} {answered : Bool}
    {iCount : Int} (counted : getRedisCount client (stores.scard key answered) = .ok iCount) :
    iCount = toInt (stores.sets key).length ∨ iCount = 0 := by
  unfold getRedisCount at counted
  cases ran : client.execInt (stores.scard key answered) 0 with
  | error fault =>
    rw [ran] at counted
    cases counted
  | ok result =>
    rw [ran] at counted
    obtain rfl : result.2 = iCount := Except.ok.inj counted
    rcases RedisClient.execInt_ok ran with ⟨integer, replied, stored⟩ | stored
    · unfold Stores.scard at replied
      split_ifs at replied
      rw [Option.some.injEq, RedisReply.integer.injEq] at replied
      rw [stored, ← replied]
      exact .inl rfl
    · exact .inr stored

/-- `GetRedisCount` returns at most the number of records. -/
theorem getRedisCount_le {client : RedisClient} {stores : Stores} {key : Bytes} {answered : Bool}
    {iCount : Int} (counted : getRedisCount client (stores.scard key answered) = .ok iCount) :
    iCount ≤ ((stores.sets key).length : Int) := by
  rcases getRedisCount_cases counted with whole | none
  · rw [whole]
    exact toInt_natCast_le _
  · rw [none]
    omega

/-- A server that answers has the number of records counted, as far as an `int` goes. -/
theorem getRedisCount_served {client : RedisClient} (connected : client.pRedisContext = true)
    (stores : Stores) (key : Bytes) :
    getRedisCount client (stores.scard key true) = .ok (toInt (stores.sets key).length) := by
  unfold getRedisCount RedisClient.execInt RedisClient.redisCommand Stores.scard
  rw [if_pos connected]
  rfl

/-- What a step of a call with a header does when it is served. -/
inductive Advance (key : Bytes) (target : Target) : RecordEvent → Target → Prop
  | counted {batch : Batch} {client : RedisClient} {answered : Bool} {iCount : Int}
    (inside : target.call = .inl (.count batch))
    (count : iCount = toInt (target.stores.sets key).length) :
    Advance key target (.scard client answered) { target with call := batch.onCount iCount }
  | skipped {batch : Batch} {client : RedisClient} {answered : Bool} {member : Bytes}
    (inside : target.call = .inl (.pop batch)) (listed : member ∈ target.stores.sets key)
    (empty : recordText member = []) :
    Advance key target (.spop client answered member)
      ⟨(target.stores.take key member).drop (some member), batch.skip⟩
  | taken {batch : Batch} {client : RedisClient} {answered : Bool} {member : Bytes}
    (inside : target.call = .inl (.pop batch)) (listed : member ∈ target.stores.sets key)
    (text : recordText member ≠ []) :
    Advance key target (.spop client answered member)
      ⟨target.stores.take key member, (batch.extend (recordText member) (some member)).skip⟩
  | executed {batch : Batch} {client : SqlClient} {result : Int}
    (inside : target.call = .inl (.exec batch)) :
    Advance key target (.query client result)
      ⟨target.stores.execute ⟨batch.strInKey, cString batch.sql, recordToMysql client result,
        batch.records⟩, batch.onExec⟩

section

variable {insertCount : Int} {header key : Bytes} {sets : Bytes → List Bytes} {target next : Target}
  {event : RecordEvent} {answer : Unit}

/-- A pass has records to pop. -/
theorem Batch.InPass.sets_ne_nil {batch : Batch} {records : List Bytes}
    (inPass : batch.InPass records.length) (inside : batch.i < batch.iMax) : records ≠ [] := by
  rintro rfl
  have left := inPass.left
  simp only [List.length_nil, Nat.cast_zero] at left
  omega

/-- A counting step has the number of records that `GetRedisCount` returned. -/
theorem counted_of_steps {batch : Batch} {client : RedisClient} {answered : Bool}
    (inside : target.call = .inl (.count batch))
    (steps : (targetMachine insertCount header key sets).Steps target (.scard client answered)
      answer next) :
    ∃ iCount, getRedisCount client (target.stores.scard batch.strInKey answered) = .ok iCount ∧
      next = { target with call := batch.onCount iCount } := by
  obtain ⟨-, ran⟩ := steps
  simp only [targetMachine, inside] at ran
  obtain ⟨⟨stores, outcome⟩, stepped, done⟩ := bind_eq_ok.mp ran
  obtain ⟨iCount, counted, same⟩ := bind_eq_ok.mp stepped
  cases same
  cases done
  exact ⟨iCount, counted, rfl⟩

/-- Every step of a call with a header that is served is one of these. -/
theorem advance_of_steps (named : header ≠ []) (sound : TargetSound header key target)
    (inPass : CallInPass (target.stores.sets key).length target.call) (served : event.Served)
    (steps : (targetMachine insertCount header key sets).Steps target event answer next) :
    Advance key target event next := by
  rcases target_cases steps with ⟨key', member, rfl, -⟩ | ⟨call, inside, does⟩
  · exact absurd served (fun never => never)
  obtain ⟨stores, point⟩ := target
  cases inside
  obtain ⟨after, outcome⟩ := next
  obtain ⟨callSound, -⟩ := sound
  cases does with
  | updateNothing | updateDropped | updateTaken => exact absurd callSound.2 named
  | updateDone => exact absurd callSound.2.1 named
  | @counted batch client answered iCount =>
    obtain ⟨connected, rfl⟩ := served
    obtain ⟨iCount', counts, isNext⟩ := counted_of_steps rfl steps
    rw [callSound.1.strInKey, getRedisCount_served connected] at counts
    rw [isNext]
    exact .counted rfl (Except.ok.inj counts).symm
  | @popNothing batch client answered member nothing =>
    have some := inPass.1.sets_ne_nil inPass.2
    rw [Batch.Sound.strInKey callSound, served.2] at nothing
    rcases nothing with unanswered | empty
    · cases unanswered
    · exact absurd empty some
  | popDropped listed empty =>
    obtain rfl := Batch.Sound.strInKey callSound
    exact .skipped rfl listed empty
  | popTaken listed text =>
    obtain rfl := Batch.Sound.strInKey callSound
    exact .taken rfl listed text
  | executed => exact .executed rfl

/-! ## A call that is served -/

/-- The records that a call may still pop can be inserted. -/
def CallReady (header : Bytes) (records : List Bytes) : TargetCall ⊕ Bytes → Prop
  | .inl (.count _) => 0 < toInt records.length → ∀ member ∈ records, Insertable header member
  | .inl _ => ∀ member ∈ records, Insertable header member
  | .inr _ => True

/-- A call with its invariant, whose records can be inserted and whose statements hold theirs. -/
structure Tidy (header key : Bytes) (target : Target) :
    Prop extends TargetSound header key target where
  inPass : CallInPass (target.stores.sets key).length target.call
  ready : CallReady header (target.stores.sets key) target.call
  carried : ∀ member ∈ pending target.call, 0 ∉ header ∧ 0 ∉ recordText member
  statements : ∀ statement ∈ target.stores.statements,
    statement.text = header ++ (bytes ",").intercalate (statement.members.map recordText) ∧
      1 ≤ statement.members.length ∧ statement.members.length ≤ 20

/-- What is left to do while a set has `size` records: at most three commands and queries for each
of them. -/
def callRank (size : Nat) : TargetCall ⊕ Bytes → Nat
  | .inl (.exec _) => 4 * size + 3
  | .inl (.pop _) => 4 * size + 1
  | .inl _ => 4 * size + 2
  | .inr _ => 0

/-- What is left to do for a call. -/
def rank (key : Bytes) (target : Target) : Nat :=
  callRank (target.stores.sets key).length target.call

/-- Nothing is more to do than a query. -/
theorem callRank_le (size : Nat) (call : TargetCall ⊕ Bytes) :
    callRank size call ≤ 4 * size + 3 := by
  unfold callRank
  split <;> omega

/-- Behind a count there is a record to pop, or the call returns. -/
theorem Batch.onCount_cases {batch : Batch} (iCount : Int) (empty : ¬batch.redisCount > 0) :
    (0 < iCount ∧ batch.onCount iCount =
      .inl (.pop { batch with
        isDone := false, iMax := if iCount > 20 then 20 else iCount, i := 0 })) ∨
      iCount ≤ 0 ∧ batch.onCount iCount = .inr batch.sql := by
  unfold Batch.onCount Batch.forLoop Batch.afterFor
  dsimp only
  rcases Int.lt_or_le 0 iCount with some | none
  · have inside : 0 < if iCount > 20 then 20 else iCount := by split <;> omega
    refine .inl ⟨some, ?_⟩
    rw [if_pos inside, decide_eq_true some, Bool.not_true]
  · have outside : ¬0 < if iCount > 20 then 20 else iCount := by split <;> omega
    refine .inr ⟨none, ?_⟩
    rw [if_neg outside, if_neg empty, if_pos (by simpa using none)]

/-- Behind a statement the records are counted, or the call returns. -/
theorem callRank_onExec (batch : Batch) (size : Nat) :
    callRank size batch.onExec ≤ 4 * size + 2 := by
  unfold Batch.onExec
  dsimp only
  split
  · exact Nat.zero_le _
  · split
    · exact Nat.zero_le _
    · exact Nat.le_refl _

/-- A record that can be inserted has its text without a null. -/
theorem Insertable.clean {member : Bytes} (insertable : Insertable header member)
    (text : recordText member ≠ []) : 0 ∉ header ∧ 0 ∉ recordText member := by
  obtain ⟨decoded, reads, clean⟩ := insertable
  have same : recordText member = decoded := by
    rw [recordText, reads]
    rfl
  rw [same] at text ⊢
  exact clean text

/-- A set has one record less when one is taken. -/
theorem Stores.length_take {stores : Stores} {member : Bytes} (listed : member ∈ stores.sets key) :
    ((stores.take key member).sets key).length + 1 = (stores.sets key).length := by
  have removed : (stores.take key member).sets key = (stores.sets key).erase member :=
    Function.update_self ..
  have positive := List.length_pos_of_mem listed
  rw [removed, List.length_erase_of_mem listed]
  omega

/-- What is in a set behind a step that takes a record was in it before. -/
theorem Stores.mem_of_mem_take {stores : Stores} {member other : Bytes}
    (listed : other ∈ (stores.take key member).sets key) : other ∈ stores.sets key := by
  have removed : (stores.take key member).sets key = (stores.sets key).erase member :=
    Function.update_self ..
  rw [removed] at listed
  exact List.mem_of_mem_erase listed

/-- The statement of a batch whose records have no null holds them all. -/
theorem Batch.Sound.cString_sql {batch : Batch} (sound : batch.Sound header key)
    (some : batch.records ≠ [])
    (clean : ∀ member ∈ batch.records.map Prod.fst, 0 ∉ header ∧ 0 ∉ recordText member) :
    cString batch.sql =
      header ++ (bytes ",").intercalate ((batch.records.map Prod.fst).map recordText) := by
  have texts : batch.texts = (batch.records.map Prod.fst).map recordText := by
    rw [Batch.texts, List.map_map]
    rfl
  have whole : 0 ∉ batch.sql := by
    rw [sound.sql, texts, List.mem_append, not_or, zero_not_mem_intercalate, List.forall_mem_map]
    obtain ⟨record, listed⟩ := List.exists_mem_of_ne_nil _ some
    exact ⟨(clean _ (List.mem_map_of_mem listed)).1, fun member listed => (clean member listed).2⟩
  rw [cString_eq_self.mpr whole, sound.sql, texts]

/-- `SADD` takes no record from a set. -/
theorem Stores.length_le_sadd (stores : Stores) (key key' member : Bytes) :
    (stores.sets key).length ≤ ((stores.sadd key' member).sets key).length := by
  unfold sadd
  split
  · exact Nat.le_refl _
  · by_cases same : key = key'
    · subst same
      simp
    · simp [Function.update_of_ne same]

/-- The pass goes on behind every step, also when the server does not answer or producers add
records. -/
theorem TargetSound.inPass_step (sound : TargetSound header key target)
    (inPass : CallInPass (target.stores.sets key).length target.call)
    (steps : (targetMachine insertCount header key sets).Steps target event answer next) :
    CallInPass (next.stores.sets key).length next.call := by
  rcases target_cases steps with ⟨key', member, -, rfl⟩ | ⟨call, inside, does⟩
  · exact inPass.mono (target.stores.length_le_sadd key key' member)
  obtain ⟨stores, point⟩ := target
  cases inside
  obtain ⟨after, outcome⟩ := next
  obtain ⟨callSound, -⟩ := sound
  cases does with
  | updateNothing | updateDropped | updateTaken | updateDone => trivial
  | counted =>
    obtain ⟨iCount, counts, isNext⟩ := counted_of_steps rfl steps
    rw [isNext]
    rw [callSound.1.strInKey] at counts
    exact Batch.inPass_onCount callSound.2 (getRedisCount_le counts)
  | @popNothing batch client answered member nothing =>
    have more := inPass.mono (Nat.le_succ _)
    exact more.1.skip more.2
  | popDropped listed empty =>
    obtain rfl := Batch.Sound.strInKey callSound
    rw [← Stores.length_take listed] at inPass
    exact inPass.1.skip inPass.2
  | popTaken listed text =>
    obtain rfl := Batch.Sound.strInKey callSound
    rw [← Stores.length_take listed] at inPass
    exact inPass.1.extend_skip inPass.2 _ _
  | executed => exact Batch.inPass_onExec _ _

/-- Between two passes nothing is counted. -/
theorem CallSound.not_redisCount_pos {batch : Batch}
    (sound : CallSound header key (.inl (.count batch))) : ¬batch.redisCount > 0 := by
  rw [sound.1.redisCount_pos]
  exact not_not_intro sound.2

/-- The records of a set can be popped when they can be inserted. -/
theorem callReady_of_forall {records : List Bytes}
    (insertable : ∀ member ∈ records, Insertable header member) (call : TargetCall ⊕ Bytes) :
    CallReady header records call := by
  match call with
  | .inl (.count _) => exact fun _ => insertable
  | .inl (.popUpdate _) | .inl (.execUpdate _ _ _) | .inl (.pop _) | .inl (.exec _) =>
    exact insertable
  | .inr _ => trivial

/-- The records that are left can still be inserted. -/
theorem Advance.ready (advance : Advance key target event next)
    (sound : TargetSound header key target)
    (ready : CallReady header (target.stores.sets key) target.call) :
    CallReady header (next.stores.sets key) next.call := by
  have callSound := sound.call
  cases advance with
  | @counted batch client answered iCount inside count =>
    rw [inside] at callSound ready
    rw [CallReady, ← count] at ready
    rcases Batch.onCount_cases iCount callSound.not_redisCount_pos with
      ⟨some, pops⟩ | ⟨none, returns⟩
    · rw [pops]
      exact ready some
    · rw [returns]
      trivial
  | skipped inside listed empty =>
    rw [inside] at ready
    exact callReady_of_forall (fun member left => ready member (Stores.mem_of_mem_take left)) _
  | taken inside listed text =>
    rw [inside] at ready
    exact callReady_of_forall (fun member left => ready member (Stores.mem_of_mem_take left)) _
  | executed inside =>
    rw [inside] at ready
    exact callReady_of_forall ready _

/-- Every step that is served keeps a call tidy. -/
theorem Tidy.step (named : header ≠ []) (tidy : Tidy header key target) (served : event.Served)
    (steps : (targetMachine insertCount header key sets).Steps target event answer next) :
    Tidy header key next := by
  have sound := tidy.toTargetSound
  have advance := advance_of_steps named sound tidy.inPass served steps
  have kept := sound.step steps
  have inPass' := sound.inPass_step tidy.inPass steps
  have ready' := advance.ready sound tidy.ready
  obtain ⟨⟨callSound, -⟩, inPass, ready, carried, statements⟩ := tidy
  cases advance with
  | @counted batch client answered iCount inside count =>
    rw [inside] at callSound carried
    have waits := (callSound.1.onCount iCount).2
    exact ⟨kept, inPass', ready', waits.symm ▸ carried, statements⟩
  | @skipped batch client answered member inside listed empty =>
    rw [inside] at callSound carried
    have waits := (Batch.Sound.skip callSound).2
    exact ⟨kept, inPass', ready', waits.symm ▸ carried, statements⟩
  | @taken batch client answered member inside listed text =>
    rw [inside] at callSound carried ready
    have waits : pending (batch.extend (recordText member) (some member)).skip =
        batch.records.map Prod.fst ++ [member] := by
      rw [(Batch.Sound.extend callSound member).skip.2]
      simp [Batch.extend]
    refine ⟨kept, inPass', ready', ?_, statements⟩
    intro other waiting
    rw [waits, List.mem_append, List.mem_singleton] at waiting
    rcases waiting with before | rfl
    · exact carried other before
    · exact (ready other listed).clean text
  | @executed batch client result inside =>
    rw [inside] at callSound inPass carried
    refine ⟨kept, inPass', ready', ?_, ?_⟩
    · intro member waiting
      rw [callSound.1.onExec.2] at waiting
      cases waiting
    · intro statement executed
      rcases List.mem_append.mp executed with before | isNew
      · exact statements statement before
      · have positive := List.length_pos_iff.mpr callSound.2
        rw [List.mem_singleton.mp isNew, Statement.members, List.length_map]
        exact ⟨callSound.1.cString_sql callSound.2 carried, positive, inPass⟩

/-- Every step that is served lowers the rank. -/
theorem Tidy.rank_lt (named : header ≠ []) (tidy : Tidy header key target) (served : event.Served)
    (steps : (targetMachine insertCount header key sets).Steps target event answer next) :
    rank key next < rank key target := by
  have sound := tidy.toTargetSound
  have advance := advance_of_steps named sound tidy.inPass served steps
  have callSound := sound.call
  unfold rank
  cases advance with
  | @counted batch client answered iCount inside count =>
    rw [inside] at callSound ⊢
    rcases Batch.onCount_cases iCount callSound.not_redisCount_pos with ⟨-, pops⟩ | ⟨-, returns⟩
    · rw [pops]
      exact Nat.lt_succ_self _
    · rw [returns]
      exact Nat.succ_pos _
  | @skipped batch client answered member inside listed empty =>
    have fewer := Stores.length_take listed
    have atMost := callRank_le ((target.stores.take key member).sets key).length batch.skip
    rw [inside]
    change callRank ((target.stores.take key member).sets key).length batch.skip <
      4 * (target.stores.sets key).length + 1
    omega
  | @taken batch client answered member inside listed text =>
    have fewer := Stores.length_take listed
    have atMost := callRank_le ((target.stores.take key member).sets key).length
      (batch.extend (recordText member) (some member)).skip
    rw [inside]
    change callRank ((target.stores.take key member).sets key).length
      (batch.extend (recordText member) (some member)).skip <
        4 * (target.stores.sets key).length + 1
    omega
  | @executed batch client result inside =>
    rw [inside]
    exact Nat.lt_succ_of_le (callRank_onExec batch _)

/-- The records that are in statements or wait for one are those that were popped with a text. -/
theorem Tidy.texts_step (named : header ≠ []) (tidy : Tidy header key target)
    (served : event.Served)
    (steps : (targetMachine insertCount header key sets).Steps target event answer next) :
    (next.stores.attempted ++ pending next.call).map recordText =
      (target.stores.attempted ++ pending target.call).map recordText ++
        poppedTexts [(event, answer)] := by
  have sound := tidy.toTargetSound
  have advance := advance_of_steps named sound tidy.inPass served steps
  have callSound := sound.call
  cases advance with
  | @counted batch client answered iCount inside count =>
    rw [inside] at callSound ⊢
    have waits := (callSound.1.onCount iCount).2
    rw [waits]
    simp [poppedTexts, pending]
  | @skipped batch client answered member inside listed empty =>
    rw [inside] at callSound ⊢
    have waits := (Batch.Sound.skip callSound).2
    rw [waits]
    simp [poppedTexts, pending, empty]
  | @taken batch client answered member inside listed text =>
    rw [inside] at callSound ⊢
    have waits := (Batch.Sound.extend callSound member).skip.2
    rw [waits]
    simp [poppedTexts, pending, text, Batch.extend]
  | @executed batch client result inside =>
    rw [inside] at callSound ⊢
    have waits := callSound.1.onExec.2
    rw [waits]
    simp [poppedTexts, pending, Statement.members]

/-- So they are behind every run. -/
theorem Tidy.texts_run {trace : List (RecordEvent × Unit)} (named : header ≠ [])
    (tidy : Tidy header key target)
    (ran : (targetMachine insertCount header key sets).Run target trace next)
    (served : ∀ entry ∈ trace, entry.1.Served) :
    (next.stores.attempted ++ pending next.call).map recordText =
      (target.stores.attempted ++ pending target.call).map recordText ++ poppedTexts trace := by
  induction ran with
  | nil => simp [poppedTexts]
  | @cons target middle last event answer trace first rest ih =>
    rw [List.forall_mem_cons] at served
    have split : poppedTexts ((event, answer) :: trace) =
        poppedTexts [(event, answer)] ++ poppedTexts trace := by
      rw [poppedTexts, poppedTexts, poppedTexts, ← List.filterMap_append]
      rfl
    rw [ih (tidy.step named served.1 first) served.2, tidy.texts_step named served.1 first, split,
      List.append_assoc]

/-! ## Progress -/

/-- What a call of the machine does, when it waits for the event. -/
theorem steps_of_step {call : TargetCall} {stores : Stores} {outcome : TargetCall ⊕ Bytes}
    (inside : target.call = .inl call) (waits : call.waitsFor target.stores event = true)
    (stepped : call.step target.stores event = .ok (stores, outcome)) :
    (targetMachine insertCount header key sets).Steps target event () ⟨stores, outcome⟩ := by
  cases event with
  | sadd key' member => cases call <;> cases waits
  | scard | spop | query =>
    simp only [Machine.Steps, targetMachine, inside]
    exact ⟨waits, by rw [stepped]; rfl⟩

/-- What can happen and is served is an event that the call waits for. -/
theorem waits_of_enabled (served : event.Served)
    (possible : (targetMachine insertCount header key sets).enabled target event = true) :
    ∃ call, target.call = .inl call ∧ call.waitsFor target.stores event = true := by
  cases event with
  | sadd key' member => exact absurd served (fun never => never)
  | scard | spop | query =>
    simp only [targetMachine] at possible
    cases inside : target.call with
    | inr sql =>
      rw [inside] at possible
      cases possible
    | inl call =>
      rw [inside] at possible
      exact ⟨call, rfl, possible⟩

/-- The record that `SPOP` takes is read as `Decode` reads it. -/
theorem recordFromRedis_served {client : RedisClient} (connected : client.pRedisContext = true)
    (member : Bytes) :
    recordFromRedis client (some (.string (some member))) = decodeReply (cString member) := by
  unfold recordFromRedis
  rw [RedisClient.execString_string connected]

/-- A pass pops a member of the set. -/
theorem spop_served {stores : Stores} {member : Bytes} (some : stores.sets key ≠ []) :
    stores.spop key true member =
      (.some (.string (.some member)), .some member, stores.take key member) := by
  unfold Stores.spop
  rw [if_pos rfl, if_neg some]
  rfl

/-- Popping a record that `Decode` can read is no fault. -/
theorem pop_step {stores : Stores} {batch : Batch} {client : RedisClient} {member text : Bytes}
    (connected : client.pRedisContext = true) (some : stores.sets batch.strInKey ≠ [])
    (decoded : decodeReply (cString member) = .ok text) :
    ∃ after outcome, (TargetCall.pop batch).step stores (.spop client true member) =
      .ok (after, outcome) := by
  simp only [TargetCall.step, spop_served some, recordFromRedis_served connected, decoded, bind,
    Except.bind]
  split
  · exact ⟨_, _, rfl⟩
  · exact ⟨_, _, rfl⟩

/-- Nothing that is served is a fault. -/
theorem Tidy.safe (named : header ≠ []) (tidy : Tidy header key target) (served : event.Served)
    (possible : (targetMachine insertCount header key sets).enabled target event = true) :
    ∃ next, (targetMachine insertCount header key sets).Steps target event () next := by
  obtain ⟨call, inside, waits⟩ := waits_of_enabled served possible
  have callSound := tidy.call
  have inPass := tidy.inPass
  have ready := tidy.ready
  rw [inside] at callSound inPass ready
  suffices ran : ∃ after outcome, call.step target.stores event = .ok (after, outcome) by
    obtain ⟨after, outcome, stepped⟩ := ran
    exact ⟨_, steps_of_step inside waits stepped⟩
  cases call with
  | popUpdate key' => exact absurd callSound.2 named
  | execUpdate key' temp popped => exact absurd callSound.2.1 named
  | count batch =>
    cases event with
    | scard client answered =>
      obtain ⟨connected, rfl⟩ := served
      refine ⟨target.stores, batch.onCount (toInt (target.stores.sets batch.strInKey).length), ?_⟩
      simp only [TargetCall.step, getRedisCount_served connected]
      rfl
    | sadd | spop | query => cases waits
  | pop batch =>
    cases event with
    | spop client answered member =>
      obtain ⟨connected, rfl⟩ := served
      obtain rfl := Batch.Sound.strInKey callSound
      have some := inPass.1.sets_ne_nil inPass.2
      have listed : member ∈ target.stores.sets batch.strInKey := by
        simpa [TargetCall.waitsFor, some] using waits
      obtain ⟨text, decoded, -⟩ := ready member listed
      exact pop_step connected some decoded
    | sadd | scard | query => cases waits
  | exec batch =>
    cases event with
    | query client result => exact ⟨_, _, rfl⟩
    | sadd | scard | spop => cases waits

/-- A call with a header that has not returned can go on. -/
theorem Tidy.goesOn {call : TargetCall} (named : header ≠ []) (tidy : Tidy header key target)
    (inside : target.call = .inl call) :
    ∃ event : RecordEvent, event.Served ∧
      (targetMachine insertCount header key sets).enabled target event = true := by
  have callSound := tidy.call
  have inPass := tidy.inPass
  rw [inside] at callSound inPass
  cases call with
  | popUpdate key' => exact absurd callSound.2 named
  | execUpdate key' temp popped => exact absurd callSound.2.1 named
  | count batch =>
    refine ⟨.scard connectedRedis true, ⟨rfl, rfl⟩, ?_⟩
    simp only [targetMachine, inside]
    rfl
  | pop batch =>
    obtain rfl := Batch.Sound.strInKey callSound
    obtain ⟨member, listed⟩ := List.exists_mem_of_ne_nil _ (inPass.1.sets_ne_nil inPass.2)
    refine ⟨.spop connectedRedis true member, ⟨rfl, rfl⟩, ?_⟩
    simp only [targetMachine, inside, TargetCall.waitsFor]
    simp [listed]
  | exec batch =>
    refine ⟨.query connectedSql 0, trivial, ?_⟩
    simp only [targetMachine, inside]
    rfl

end

/-! ## Whole calls -/

section

variable {insertCount : Int} {header key : Bytes} {sets : Bytes → List Bytes}

/-- The variables with which the loops of `ProccessTargetKey` start. -/
def Batch.start (insertCount : Int) (header key : Bytes) : Batch where
  strInKey := key
  savesql := header
  sql := header
  isDone := false
  redisCount := 0
  runCount := 0
  iMaxFlag := insertCount.tdiv 20
  i := 0
  iMax := 0
  records := []

/-- A call with a header and a key starts by counting the records. -/
theorem proccessTargetKey_named (named : header ≠ []) (keyed : key ≠ []) :
    proccessTargetKey insertCount header key = .inl (.count (.start insertCount header key)) := by
  unfold proccessTargetKey
  rw [if_neg keyed, if_neg named]
  rfl

/-- A call starts tidy when the records that it may pop can be inserted. -/
theorem tidy_start
    (insertable : key ≠ [] → 0 < toInt (sets key).length → ∀ member ∈ sets key,
      Insertable header member) (named : header ≠ []) :
    Tidy header key (targetMachine insertCount header key sets).init := by
  obtain ⟨start, -⟩ := target_start insertCount header key sets
  have none : pending (targetMachine insertCount header key sets).init.call = [] :=
    (callSound_start insertCount header key).2
  have calls : CallInPass (sets key).length (proccessTargetKey insertCount header key) ∧
      CallReady header (sets key) (proccessTargetKey insertCount header key) := by
    by_cases keyed : key = []
    · rw [proccessTargetKey, if_pos keyed]
      exact ⟨trivial, trivial⟩
    · rw [proccessTargetKey_named named keyed]
      exact ⟨trivial, insertable keyed⟩
  refine ⟨start.toTargetSound, calls.1, calls.2, ?_, fun statement executed => (nomatch executed)⟩
  rw [none]
  exact fun member waiting => (nomatch waiting)

/-- A call is tidy behind every run that is served. -/
theorem Tidy.run {trace : List (RecordEvent × Unit)} {target : Target} (named : header ≠ [])
    (start : Tidy header key (targetMachine insertCount header key sets).init)
    (ran : ServedRun insertCount header key sets trace target) : Tidy header key target := by
  apply ran.1.preserved_throughout (fun tidy served steps => tidy.step named served steps) _ start
  exact ran.1.throughout_events.mpr ran.2

/-- The statements of a tidy call that has returned hold the texts of the records that were
popped. -/
theorem Tidy.assembled {trace : List (RecordEvent × Unit)} {target : Target} {sql : Bytes}
    (named : header ≠ []) (start : Tidy header key (targetMachine insertCount header key sets).init)
    (ran : ServedRun insertCount header key sets trace target) (returned : target.call = .inr sql) :
    Assembled header (poppedTexts trace) (target.stores.statements.map Statement.text) := by
  have tidy := start.run named ran
  refine ⟨target.stores.statements.map fun statement => statement.members.map recordText,
    ?_, ?_, ?_⟩
  · rw [List.map_map]
    exact List.map_congr_left fun statement executed => (tidy.statements statement executed).1
  · rw [List.forall_mem_map]
    intro statement executed
    rw [List.length_map]
    exact (tidy.statements statement executed).2
  · have texts := start.texts_run named ran.1 ran.2
    have nothing : pending (targetMachine insertCount header key sets).init.call = [] :=
      (callSound_start insertCount header key).2
    have none : (targetMachine insertCount header key sets).init.stores.attempted = [] := rfl
    rw [nothing, none, returned, pending, List.append_nil, List.append_nil, List.map_nil,
      List.nil_append] at texts
    rw [← texts, Stores.attempted, List.map_flatMap, List.flatten_eq_flatMap, List.flatMap_map]
    rfl

/-- A call whose records can be inserted assembles them. -/
theorem Tidy.assembles (named : header ≠ [])
    (start : Tidy header key (targetMachine insertCount header key sets).init) :
    AssemblesStatements insertCount header key sets where
  bounded := by
    refine ⟨rank key (targetMachine insertCount header key sets).init, fun trace target ran => ?_⟩
    have short := ran.1.length_le_rank (fun tidy served steps => Tidy.step named tidy served steps)
      (fun tidy served steps => Tidy.rank_lt named tidy served steps) ran.2 start
    omega
  goesOn trace target call ran inside := (start.run named ran).goesOn named inside
  safe trace target event ran served possible := (start.run named ran).safe named served possible
  assembled trace target sql ran returned := start.assembled named ran returned

/-- One more step that is served. -/
theorem ServedRun.snoc {trace : List (RecordEvent × Unit)} {target next : Target}
    {event : RecordEvent} (ran : ServedRun insertCount header key sets trace target)
    (served : event.Served)
    (steps : (targetMachine insertCount header key sets).Steps target event () next) :
    ServedRun insertCount header key sets (trace ++ [(event, ())]) next := by
  refine ⟨ran.1.append (Machine.Run.single steps), ?_⟩
  intro entry listed
  rcases List.mem_append.mp listed with before | isNew
  · exact ran.2 entry before
  · rw [List.mem_singleton.mp isNew]
    exact served

/-- When a call ends without a fault, every run of it can be completed. -/
theorem AssemblesStatements.completes (assembles : AssemblesStatements insertCount header key sets)
    {trace : List (RecordEvent × Unit)} {target : Target}
    (ran : ServedRun insertCount header key sets trace target) :
    ∃ more last sql, ServedRun insertCount header key sets (trace ++ more) last ∧
      last.call = .inr sql := by
  obtain ⟨bound, bounded⟩ := assembles.bounded
  -- Induction on the steps that are left up to the bound.
  obtain ⟨left, room⟩ : ∃ left, bound - trace.length = left := ⟨_, rfl⟩
  induction left generalizing trace target with
  | zero =>
    cases inside : target.call with
    | inr sql => exact ⟨[], target, sql, by rwa [List.append_nil], inside⟩
    | inl call =>
      obtain ⟨event, served, possible⟩ := assembles.goesOn trace target call ran inside
      obtain ⟨next, steps⟩ := assembles.safe trace target event ran served possible
      have longer := bounded _ _ (ran.snoc served steps)
      rw [List.length_append, List.length_singleton] at longer
      omega
  | succ left ih =>
    cases inside : target.call with
    | inr sql => exact ⟨[], target, sql, by rwa [List.append_nil], inside⟩
    | inl call =>
      obtain ⟨event, served, possible⟩ := assembles.goesOn trace target call ran inside
      obtain ⟨next, steps⟩ := assembles.safe trace target event ran served possible
      obtain ⟨more, last, sql, completed, returned⟩ := ih (ran.snoc served steps)
        (by rw [List.length_append, List.length_singleton]; omega)
      exact ⟨(event, ()) :: more, last, sql, by rwa [List.append_assoc] at completed, returned⟩

/-- The statements that were executed have no null. -/
def NoNull (target : Target) : Prop := ∀ statement ∈ target.stores.statements, 0 ∉ statement.text

/-- `ExecSqlCmd` takes a C string. -/
theorem NoNull.execute {stores : Stores} {strInKey sql : Bytes} {iret : Int}
    {records : List (Bytes × Nat)} (clean : ∀ statement ∈ stores.statements, 0 ∉ statement.text) :
    ∀ statement ∈ (stores.execute ⟨strInKey, cString sql, iret, records⟩).statements,
      0 ∉ statement.text := by
  intro statement executed
  rcases List.mem_append.mp executed with before | isNew
  · exact clean statement before
  · rw [List.mem_singleton.mp isNew]
    exact zero_not_mem_cString sql

/-- No step executes a null. -/
theorem NoNull.step {target next : Target} {event : RecordEvent} {answer : Unit}
    (clean : NoNull target)
    (steps : (targetMachine insertCount header key sets).Steps target event answer next) :
    NoNull next := by
  obtain ⟨after, outcome⟩ := next
  rcases target_cases steps with ⟨key', member, -, same⟩ | ⟨call, -, does⟩
  · cases same
    unfold NoNull
    rw [(target.stores.sadd_same key' member).1]
    exact clean
  · obtain ⟨stores, point⟩ := target
    cases does with
    | updateNothing | updateDropped | updateTaken | counted | popNothing | popDropped | popTaken =>
      exact clean
    | updateDone => exact NoNull.execute clean
    | executed => exact NoNull.execute clean

/-- A call that counts some records goes on to pop one. -/
theorem servedRun_popping (named : header ≠ []) (keyed : key ≠ [])
    (some : 0 < toInt (sets key).length) :
    ∃ batch : Batch, batch.strInKey = key ∧
      ServedRun insertCount header key sets [(.scard connectedRedis true, ())]
      ⟨⟨sets, [], [], []⟩, .inl (.pop batch)⟩ := by
  obtain ⟨batch, pops, strInKey⟩ :
    ∃ batch, (Batch.start insertCount header key).onCount (toInt (sets key).length) =
      .inl (.pop batch) ∧ batch.strInKey = key := by
    have empty : ¬(Batch.start insertCount header key).redisCount > 0 := Int.lt_irrefl 0
    rcases Batch.onCount_cases (toInt (sets key).length) empty with ⟨-, pops⟩ | ⟨none, -⟩
    · exact ⟨_, pops, rfl⟩
    · omega
  have counts :
    (targetMachine insertCount header key sets).Steps
      (targetMachine insertCount header key sets).init
      (.scard connectedRedis true) () ⟨⟨sets, [], [], []⟩, .inl (.pop batch)⟩ := by
    apply steps_of_step (proccessTargetKey_named named keyed) rfl
    rw [← pops]
    simp only [TargetCall.step,
      getRedisCount_served (show connectedRedis.pRedisContext = true from rfl)]
    rfl
  have start :
      ServedRun insertCount header key sets [] (targetMachine insertCount header key sets).init :=
    ⟨.nil _, fun entry inEmpty => absurd inEmpty List.not_mem_nil⟩
  exact ⟨batch, strInKey,
    start.snoc (show (RecordEvent.scard connectedRedis true).Served from ⟨rfl, rfl⟩) counts⟩

/-- A call that assembles its records can pop each of them first, and one of its statements then
holds the text. -/
theorem AssemblesStatements.executes (assembles : AssemblesStatements insertCount header key sets)
    (named : header ≠ []) (keyed : key ≠ []) (some : 0 < toInt (sets key).length) {member : Bytes}
    (listed : member ∈ sets key) :
    ∃ text, decodeReply (cString member) = .ok text ∧ (text ≠ [] →
      ∃ trace last statement group, ServedRun insertCount header key sets trace last ∧
        statement ∈ last.stores.statements ∧
        statement.text = header ++ (bytes ",").intercalate group ∧
        text ∈ group) := by
  obtain ⟨batch, strInKey, popping⟩ :=
    @servedRun_popping insertCount header key sets named keyed some
  have served : (RecordEvent.spop connectedRedis true member).Served := ⟨rfl, rfl⟩
  have possible :
    (targetMachine insertCount header key sets).enabled ⟨⟨sets, [], [], []⟩, .inl (.pop batch)⟩
      (.spop connectedRedis true member) = true := by
    simp [targetMachine, TargetCall.waitsFor, strInKey, listed]
  obtain ⟨next, steps⟩ := assembles.safe _ _ _ popping served possible
  -- This is no fault, so the record can be decoded.
  obtain ⟨text, decoded⟩ : ∃ text, decodeReply (cString member) = .ok text := by
    have nonempty : (⟨sets, [], [], []⟩ : Stores).sets batch.strInKey ≠ [] :=
      strInKey.symm ▸ List.ne_nil_of_mem listed
    obtain ⟨-, ran⟩ := steps
    obtain ⟨result, stepped, -⟩ := bind_eq_ok.mp ran
    simp only [TargetCall.step, spop_served nonempty] at stepped
    obtain ⟨text, read, -⟩ := bind_eq_ok.mp stepped
    rw [recordFromRedis_served rfl] at read
    exact ⟨text, read⟩
  refine ⟨text, decoded, fun nonempty => ?_⟩
  have same : recordText member = text := by
    rw [recordText, decoded]
    rfl
  -- The run can be completed, and one of its statements holds the text.
  obtain ⟨more, last, sql, completed, returned⟩ := assembles.completes (popping.snoc served steps)
  obtain ⟨groups, statements, -, flat⟩ := assembles.assembled _ _ _ completed returned
  have popped : text ∈ groups.flatten := by
    rw [flat, poppedTexts]
    simp [same, nonempty]
  obtain ⟨group, isGroup, inGroup⟩ := List.mem_flatten.mp popped
  have executed : header ++ (bytes ",").intercalate group ∈
      last.stores.statements.map Statement.text := by
    rw [statements]
    exact List.mem_map_of_mem isGroup
  obtain ⟨statement, isStatement, isText⟩ := List.mem_map.mp executed
  exact ⟨_, last, statement, group, completed, isStatement, isText, inGroup⟩

/-- A call that assembles its records can insert each of them. -/
theorem AssemblesStatements.insertable (assembles : AssemblesStatements insertCount header key sets)
    (named : header ≠ []) (keyed : key ≠ []) (some : 0 < toInt (sets key).length) {member : Bytes}
    (listed : member ∈ sets key) : Insertable header member := by
  obtain ⟨text, decoded, executes⟩ := assembles.executes named keyed some listed
  refine ⟨text, decoded, fun nonempty => ?_⟩
  obtain ⟨trace, last, statement, group, completed, executed, isText, inGroup⟩ := executes nonempty
  have clean : NoNull last :=
    completed.1.preserved (fun clean steps => clean.step steps) (fun statement executed =>
      (nomatch executed))
  have whole := clean statement executed
  rw [isText, List.mem_append, not_or, zero_not_mem_intercalate] at whole
  exact ⟨whole.1, whole.2 text inGroup⟩

/-- For every content of the sets: while no producer adds records and the Redis server answers, a
call with a header ends without a fault and its statements are the header with the texts of the
records behind it, in the order in which they were popped, exactly when `Decode` can read every
record of the set and no null is in what is executed. -/
theorem assemblesStatements_iff (insertCount : Int) (header key : Bytes) (sets : Bytes → List Bytes)
    (named : header ≠ []) : AssemblesStatements insertCount header key sets ↔
      (key ≠ [] → 0 < toInt (sets key).length → ∀ member ∈ sets key, Insertable header member) := by
  constructor
  · intro assembles keyed some member listed
    exact assembles.insertable named keyed some listed
  · intro insertable
    exact (tidy_start insertable named).assembles named

end

/-- Two records are inserted in one statement. -/
theorem assemblesStatements_two_records :
    AssemblesStatements 100 (bytes "INSERT INTO t VALUES") (bytes "K") twoRecords := by
  refine (assemblesStatements_iff 100 (bytes "INSERT INTO t VALUES") (bytes "K") twoRecords
    (by decide)).mpr ?_
  have first : decodeReply (cString (bytes "KDEp")) = .ok (bytes "(1)") := by decide +kernel
  have second : decodeReply (cString (bytes "KDIp")) = .ok (bytes "(2)") := by decide +kernel
  intro keyed some member listed
  rw [show twoRecords (bytes "K") = [bytes "KDEp", bytes "KDIp"] from Function.update_self ..,
    List.mem_cons, List.mem_singleton] at listed
  rcases listed with rfl | rfl
  · exact ⟨_, first, fun _ => by decide⟩
  · exact ⟨_, second, fun _ => by decide⟩

/-- A Redis server with a record of three null bytes. -/
def nullRecord : Bytes → List Bytes := Function.update (fun _ => []) (bytes "K") [bytes "AAAA"]

/-- A text that starts with a null is popped, and the header alone is executed. -/
theorem null_record_cuts :
    ∃ trace last sql,
      ServedRun 100 (bytes "INSERT INTO t VALUES") (bytes "K") nullRecord trace last ∧
      last.call = .inr sql ∧ poppedTexts trace = [[0, 0, 0]] ∧
      last.stores.statements.map Statement.text = [bytes "INSERT INTO t VALUES"] ∧
      ¬Assembled (bytes "INSERT INTO t VALUES") (poppedTexts trace)
        (last.stores.statements.map Statement.text) := by
  obtain ⟨trace, last, ran, events, facts⟩ := Machine.run_of_exec_check
    (fun (last : Target) trace =>
      decide (last.call = .inr (bytes "INSERT INTO t VALUES") ∧ poppedTexts trace = [[0, 0, 0]] ∧
      last.stores.statements.map Statement.text = [bytes "INSERT INTO t VALUES"]))
    (show ((targetMachine 100 (bytes "INSERT INTO t VALUES") (bytes "K") nullRecord).exec
        (targetMachine 100 (bytes "INSERT INTO t VALUES") (bytes "K") nullRecord).init
      [.scard connectedRedis true, .spop connectedRedis true (bytes "AAAA"), .query connectedSql 0,
        .scard connectedRedis true]).any _ = true by
      decide +kernel)
  obtain ⟨returned, popped, text⟩ := of_decide_eq_true facts
  refine ⟨trace, last, bytes "INSERT INTO t VALUES", ⟨ran, ?_⟩, returned, popped, text, ?_⟩
  · have served : ∀ event ∈ trace.map Prod.fst, event.Served := by
      rw [events]
      simp [RecordEvent.Served, connectedRedis]
    exact List.forall_mem_map.mp served
  · rw [popped, text]
    rintro ⟨groups, statements, -, flat⟩
    obtain ⟨group, rfl, same⟩ := List.map_eq_singleton_iff.mp statements.symm
    rw [List.flatten_singleton] at flat
    rw [flat] at same
    exact absurd same (by decide)

end NetServer
