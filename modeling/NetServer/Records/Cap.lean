import NetServer.Records.Assembly
import NetServer.Records.Carriage

/-!
# How many records a call of `ProccessTargetKey` sends

The comment in the source says that a call ends behind `iMaxFlag * 20` records. It compares the
number of statements before the last one, `runCount++`, with `iMaxFlag`, and asks for more, so two
more statements are executed: `iMaxFlag + 2` in all, of twenty records each. Nothing else bounds
what a call sends but what the producers offer.
-/

namespace NetServer

open Lib

/-! ## Two statements more -/

/-- How many statements a call has executed, at each of its points. -/
def CallCapped (iMaxFlag : Int) (executed : Nat) : TargetCall ⊕ Bytes → Prop
  | .inl (.count batch) | .inl (.pop batch) | .inl (.exec batch) =>
    batch.iMaxFlag = iMaxFlag ∧ batch.runCount = executed ∧ batch.runCount ≤ iMaxFlag + 1
  | .inl (.popUpdate _) | .inl (.execUpdate _ _ _) => True
  | .inr _ => (executed : Int) ≤ iMaxFlag + 2

namespace Batch

variable {batch : Batch} {iMaxFlag : Int} {executed : Nat}

/-- The inner loop executes nothing. -/
theorem callCapped_forLoop (flag : batch.iMaxFlag = iMaxFlag) (runs : batch.runCount = executed)
    (few : batch.runCount ≤ iMaxFlag + 1) : CallCapped iMaxFlag executed batch.forLoop := by
  unfold Batch.forLoop Batch.afterFor
  split
  · exact ⟨flag, runs, few⟩
  · split
    · exact ⟨flag, runs, few⟩
    · split
      · change (executed : Int) ≤ iMaxFlag + 2
        omega
      · exact ⟨flag, runs, few⟩

/-- Behind a statement one more is executed. -/
theorem callCapped_onExec (flag : batch.iMaxFlag = iMaxFlag) (runs : batch.runCount = executed)
    (few : batch.runCount ≤ iMaxFlag + 1) : CallCapped iMaxFlag (executed + 1) batch.onExec := by
  unfold Batch.onExec
  dsimp only
  split
  · change ((executed + 1 : Nat) : Int) ≤ iMaxFlag + 2
    omega
  · split
    · change ((executed + 1 : Nat) : Int) ≤ iMaxFlag + 2
      omega
    · refine ⟨flag, ?_, ?_⟩
      · change batch.runCount + 1 = ((executed + 1 : Nat) : Int)
        omega
      · change batch.runCount + 1 ≤ iMaxFlag + 1
        omega

end Batch

/-- A call with its invariant, the number of its statements and the number of records in each. -/
structure Capped (iMaxFlag : Int) (header key : Bytes) (target : Target) :
    Prop extends TargetSound header key target where
  inPass : CallInPass (target.stores.sets key).length target.call
  capped : CallCapped iMaxFlag target.stores.statements.length target.call
  few : ∀ statement ∈ target.stores.statements, statement.members.length ≤ 20

section

variable {insertCount iMaxFlag : Int} {header key : Bytes} {sets : Bytes → List Bytes}
  {target next : Target} {event : RecordEvent} {answer : Unit}

/-- Every step keeps the number of statements below the cap. -/
theorem Capped.callCapped_step (named : header ≠ []) (capped : Capped iMaxFlag header key target)
    (steps : (targetMachine insertCount header key sets).Steps target event answer next) :
    CallCapped iMaxFlag next.stores.statements.length next.call ∧
      ∀ statement ∈ next.stores.statements, statement.members.length ≤ 20 := by
  obtain ⟨⟨callSound, -⟩, inPass, calls, few⟩ := capped
  rcases target_cases steps with ⟨key', member, -, rfl⟩ | ⟨call, inside, does⟩
  · change CallCapped iMaxFlag (target.stores.sadd key' member).statements.length target.call ∧
      ∀ statement ∈ (target.stores.sadd key' member).statements, statement.members.length ≤ 20
    rw [(target.stores.sadd_same key' member).1]
    exact ⟨calls, few⟩
  obtain ⟨stores, point⟩ := target
  cases inside
  obtain ⟨after, outcome⟩ := next
  cases does with
  | updateNothing | updateDropped | updateTaken => exact absurd callSound.2 named
  | updateDone => exact absurd callSound.2.1 named
  | counted => exact ⟨Batch.callCapped_forLoop calls.1 calls.2.1 calls.2.2, few⟩
  | popNothing nothing => exact ⟨Batch.callCapped_forLoop calls.1 calls.2.1 calls.2.2, few⟩
  | popDropped listed empty => exact ⟨Batch.callCapped_forLoop calls.1 calls.2.1 calls.2.2, few⟩
  | popTaken listed text => exact ⟨Batch.callCapped_forLoop calls.1 calls.2.1 calls.2.2, few⟩
  | @executed batch client result =>
    constructor
    · change CallCapped iMaxFlag (stores.statements ++ [_]).length batch.onExec
      rw [List.length_append, List.length_singleton]
      exact Batch.callCapped_onExec calls.1 calls.2.1 calls.2.2
    · intro statement executed
      rcases List.mem_append.mp executed with before | isNew
      · exact few statement before
      · rw [List.mem_singleton.mp isNew, Statement.members, List.length_map]
        exact inPass

/-- Every step keeps all of it. -/
theorem Capped.step (named : header ≠ []) (capped : Capped iMaxFlag header key target)
    (steps : (targetMachine insertCount header key sets).Steps target event answer next) :
    Capped iMaxFlag header key next := by
  obtain ⟨calls, few⟩ := capped.callCapped_step named steps
  have sound := capped.toTargetSound
  exact ⟨sound.step steps, sound.inPass_step capped.inPass steps, calls, few⟩

/-- A call starts without a statement. -/
theorem capped_start (nonneg : 0 ≤ insertCount.tdiv 20) (named : header ≠ []) :
    Capped (insertCount.tdiv 20) header key (targetMachine insertCount header key sets).init := by
  obtain ⟨start, -⟩ := target_start insertCount header key sets
  have calls : CallInPass (sets key).length (proccessTargetKey insertCount header key) ∧
      CallCapped (insertCount.tdiv 20) 0 (proccessTargetKey insertCount header key) := by
    by_cases keyed : key = []
    · rw [proccessTargetKey, if_pos keyed]
      refine ⟨trivial, ?_⟩
      change ((0 : Nat) : Int) ≤ insertCount.tdiv 20 + 2
      omega
    · rw [proccessTargetKey_named named keyed]
      refine ⟨trivial, rfl, rfl, ?_⟩
      change 0 ≤ insertCount.tdiv 20 + 1
      omega
  exact ⟨start.toTargetSound, calls.1, calls.2, fun statement executed =>
    absurd executed List.not_mem_nil⟩

/-- At each of its points a call has executed at most two statements more than `iMaxFlag`. -/
theorem Capped.statements_le (named : header ≠ []) (capped : Capped iMaxFlag header key target) :
    (target.stores.statements.length : Int) ≤ iMaxFlag + 2 := by
  have calls := capped.capped
  have callSound := capped.call
  match inside : target.call with
  | .inl (.popUpdate _) =>
    rw [inside] at callSound
    exact absurd callSound.2 named
  | .inl (.execUpdate _ _ _) =>
    rw [inside] at callSound
    exact absurd callSound.2.1 named
  | .inl (.count batch) | .inl (.pop batch) | .inl (.exec batch) =>
    rw [inside] at calls
    obtain ⟨-, runs, few⟩ := calls
    omega
  | .inr sql =>
    rw [inside] at calls
    exact calls

/-- The records in statements of at most twenty. -/
theorem Stores.length_attempted_le {stores : Stores}
    (few : ∀ statement ∈ stores.statements, statement.members.length ≤ 20) :
    stores.attempted.length ≤ 20 * stores.statements.length := by
  unfold attempted
  generalize stores.statements = statements at few ⊢
  induction statements with
  | nil => simp
  | cons first rest ih =>
    rw [List.forall_mem_cons] at few
    have behind := ih few.2
    rw [List.flatMap_cons, List.length_append, List.length_cons]
    omega

/-- A call sends at most twenty records for each of `iMaxFlag` statements, and forty more. -/
theorem attempted_le_cap {trace : List (RecordEvent × Unit)} (enough : 20 ≤ insertCount)
    (named : header ≠ [])
    (ran : (targetMachine insertCount header key sets).Run
      (targetMachine insertCount header key sets).init trace target) :
    (target.stores.attempted.length : Int) ≤ 20 * (insertCount / 20) + 40 := by
  have quotient : insertCount.tdiv 20 = insertCount / 20 := Int.tdiv_eq_ediv_of_nonneg (by omega)
  have start :
      Capped (insertCount.tdiv 20) header key (targetMachine insertCount header key sets).init :=
    capped_start (by omega) named
  have capped := ran.preserved (fun capped steps => Capped.step named capped steps) start
  have statements := capped.statements_le named
  have sent := Stores.length_attempted_le capped.few
  omega

/-! ## What is offered -/

/-- A call sends no record that was neither in the set nor added to it. -/
theorem attempted_le_offered {trace : List (RecordEvent × Unit)}
    (ran : (targetMachine insertCount header key sets).Run
      (targetMachine insertCount header key sets).init trace target) :
    target.stores.attempted.length ≤ (sets key).length + (target.stores.addedTo key).length := by
  obtain ⟨start, -⟩ := target_start insertCount header key sets
  have accounted : Accounted sets header key target :=
    ran.preserved (fun accounted steps => accounted.step steps) start
  have sent : target.stores.attempted.Subperm (sets key ++ target.stores.addedTo key) := by
    apply List.subperm_ext_iff.mpr
    intro member _
    have whole := accounted.balanced member
    rw [List.count_append]
    omega
  have fewer := sent.length_le
  rwa [List.length_append] at fewer

/-- Without a key a call does nothing. -/
def Idle (target : Target) : Prop := target.stores.statements = [] ∧ ∃ sql, target.call = .inr sql

/-- It stays so when producers add records. -/
theorem Idle.step (idle : Idle target)
    (steps : (targetMachine insertCount header key sets).Steps target event answer next) :
    Idle next := by
  obtain ⟨none, sql, returned⟩ := idle
  rcases target_cases steps with ⟨key', member, -, rfl⟩ | ⟨call, inside, -⟩
  · exact ⟨(target.stores.sadd_same key' member).1.trans none, sql, returned⟩
  · rw [returned] at inside
    cases inside

/-- Without a key a call sends nothing. -/
theorem attempted_of_no_key {trace : List (RecordEvent × Unit)}
    (ran : (targetMachine insertCount header [] sets).Run
      (targetMachine insertCount header [] sets).init trace target) :
    target.stores.attempted = [] := by
  have start : Idle (targetMachine insertCount header [] sets).init := ⟨rfl, header, rfl⟩
  have idle : Idle target := ran.preserved (fun idle steps => idle.step steps) start
  rw [Stores.attempted, idle.1]
  rfl

/-! ## Calls that send all that is offered -/

/-- A record that has a text. -/
def HasText (member : Bytes) : Prop := ∃ text, decodeReply (cString member) = .ok text ∧ text ≠ []

/-- A producer adds records that are not in the set. -/
theorem adds_run (call : TargetCall ⊕ Bytes) (members : List Bytes) (distinct : members.Nodup)
    (stores : Stores) (isNew : ∀ member ∈ members, member ∉ stores.sets key) :
    ∃ trace after,
      (targetMachine insertCount header key sets).Run ⟨stores, call⟩ trace ⟨after, call⟩ ∧
      after.sets key = stores.sets key ++ members ∧ after.statements = stores.statements ∧
      (after.addedTo key).length = (stores.addedTo key).length + members.length := by
  induction members generalizing stores with
  | nil => exact ⟨[], stores, .nil _, by simp, rfl, rfl⟩
  | cons member members ih =>
    rw [List.nodup_cons] at distinct
    rw [List.forall_mem_cons] at isNew
    have adds :
      (targetMachine insertCount header key sets).Steps ⟨stores, call⟩ (.sadd key member) ()
        ⟨stores.sadd key member, call⟩ := ⟨rfl, rfl⟩
    have added : stores.sadd key member =
        { stores with sets := Function.update stores.sets key (stores.sets key ++ [member]),
                      added := stores.added ++ [(key, member)] } := if_neg isNew.1
    have content : (stores.sadd key member).sets key = stores.sets key ++ [member] := by
      rw [added]
      exact Function.update_self ..
    obtain ⟨trace, after, ran, listed, same, longer⟩ := ih distinct.2 (stores.sadd key member) (by
      intro other inMembers
      rw [content, List.mem_append, List.mem_singleton, not_or]
      refine ⟨isNew.2 other inMembers, ?_⟩
      rintro rfl
      exact distinct.1 inMembers)
    refine ⟨_, after, .cons adds ran, ?_, ?_, ?_⟩
    · rw [listed, content, List.append_assoc, List.singleton_append]
    · rw [same, (stores.sadd_same key member).1]
    · rw [longer, added]
      simp [Stores.addedTo]
      omega

/-- The inner loop goes on. -/
theorem Batch.skip_inside {batch : Batch} (inside : batch.i + 1 < batch.iMax) :
    batch.skip = .inl (.pop { batch with i := batch.i + 1 }) := if_pos inside

/-- The inner loop ends with a batch that is executed. -/
theorem Batch.skip_outside {batch : Batch} (outside : ¬batch.i + 1 < batch.iMax)
    (counted : batch.redisCount > 0) : batch.skip = .inl (.exec { batch with i := batch.i + 1 }) :=
  (if_neg outside).trans (if_pos counted)

/-- A record with a text is popped and added to the batch. -/
theorem pop_steps {stores : Stores} {batch : Batch} {member : Bytes} (has : HasText member)
    (strInKey : batch.strInKey = key) (listed : member ∈ stores.sets key) :
    (targetMachine insertCount header key sets).Steps ⟨stores, .inl (.pop batch)⟩
      (.spop connectedRedis true member) ()
      ⟨stores.take key member, (batch.extend (recordText member) (some member)).skip⟩ := by
  obtain ⟨text, decoded, nonempty⟩ := has
  have same : recordText member = text := by
    rw [recordText, decoded]
    rfl
  have long : ¬text.length < 1 := by
    have positive := List.length_pos_of_ne_nil nonempty
    omega
  have waits : (TargetCall.pop batch).waitsFor stores (.spop connectedRedis true member) =
      true := by
    simp [TargetCall.waitsFor, strInKey, listed]
  apply steps_of_step rfl waits
  simp only [TargetCall.step, strInKey, spop_served (List.ne_nil_of_mem listed), decoded, bind,
    Except.bind, recordFromRedis_served (show connectedRedis.pRedisContext = true from rfl),
    if_neg long, same]
  rfl

/-- All records of a set are popped into one batch. -/
theorem pops_run (members : List Bytes) (texts : ∀ member ∈ members, HasText member)
    (some : members ≠ []) (stores : Stores) (content : stores.sets key = members) (batch : Batch)
    (sound : batch.Sound header key) (left : batch.iMax - batch.i = members.length) :
    ∃ trace after last,
      (targetMachine insertCount header key sets).Run ⟨stores, .inl (.pop batch)⟩ trace
        ⟨after, .inl (.exec last)⟩ ∧
      after.sets key = [] ∧ after.statements = stores.statements ∧ after.added = stores.added ∧
      last.Sound header key ∧ last.records.length = batch.records.length + members.length ∧
      last.runCount = batch.runCount ∧ last.iMaxFlag = batch.iMaxFlag ∧
      last.isDone = batch.isDone := by
  induction members generalizing stores batch with
  | nil => exact absurd rfl some
  | cons member members ih =>
    rw [List.forall_mem_cons] at texts
    rw [List.length_cons, Nat.cast_succ] at left
    have listed : member ∈ stores.sets key := content ▸ List.mem_cons_self
    have pops :=
      @pop_steps insertCount header key sets stores batch member texts.1 sound.strInKey listed
    have taken : (stores.take key member).sets key = members := by
      have removed : (stores.take key member).sets key = (stores.sets key).erase member :=
        Function.update_self ..
      rw [removed, content, List.erase_cons_head]
    have extended :
        { batch.extend (recordText member) (.some member) with i := batch.i + 1 }.Sound
          header key :=
      { sound.extend member with }
    have longer : (batch.extend (recordText member) (.some member)).records.length =
        batch.records.length + 1 := by
      simp [Batch.extend]
    by_cases last : members = []
    · -- The inner loop ends, and the batch is executed.
      subst last
      have outside : ¬batch.i + 1 < batch.iMax := by
        rw [List.length_nil, Nat.cast_zero] at left
        omega
      have counted : (batch.extend (recordText member) (.some member)).redisCount > 0 := by
        apply (sound.extend member).redisCount_pos.mpr
        rw [← List.length_pos_iff]
        omega
      rw [@Batch.skip_outside (batch.extend (recordText member) (.some member)) outside counted]
        at pops
      exact ⟨_, _, _, Machine.Run.single pops, taken, rfl, rfl, extended, longer, rfl, rfl, rfl⟩
    · have inside : batch.i + 1 < batch.iMax := by
        have positive := List.length_pos_iff.mpr last
        omega
      rw [@Batch.skip_inside (batch.extend (recordText member) (.some member)) inside] at pops
      obtain ⟨trace, after, final, ran, empty, statements, added, isSound, records, runs,
          flag, done⟩ :=
        ih texts.2 last (stores.take key member) taken _ extended (show batch.iMax - (batch.i + 1) =
          _ by omega)
      refine ⟨_, after, final, .cons pops ran, empty, statements, added, isSound, ?_, runs,
        flag, done⟩
      rw [records, List.length_cons]
      change (batch.extend (recordText member) (.some member)).records.length + members.length = _
      omega

/-- A call between two passes. -/
structure Between (insertCount : Int) (header key : Bytes) (stores : Stores) (batch : Batch) :
    Prop where
  sound : batch.Sound header key
  empty : batch.records = []
  content : stores.sets key = []
  flag : batch.iMaxFlag = insertCount.tdiv 20

/-- Up to twenty records are counted, and a pass for all of them starts. -/
theorem count_steps {stores : Stores} {batch : Batch} {members : List Bytes}
    (content : stores.sets key = members) (some : members ≠ []) (few : members.length ≤ 20)
    (sound : batch.Sound header key) (empty : batch.records = []) :
    (targetMachine insertCount header key sets).Steps ⟨stores, .inl (.count batch)⟩
      (.scard connectedRedis true) ()
      ⟨stores, .inl (.pop { batch with isDone := false, iMax := members.length, i := 0 })⟩ := by
  have positive := List.length_pos_iff.mpr some
  have counted : toInt (stores.sets key).length = members.length := by
    rw [content]
    exact toInt_of_range (by omega) (by omega)
  have pops : batch.onCount members.length =
      .inl (.pop { batch with isDone := false, iMax := members.length, i := 0 }) := by
    have none : ¬batch.redisCount > 0 := by
      rw [sound.redisCount_pos]
      exact not_not_intro empty
    rcases Batch.onCount_cases members.length none with ⟨-, pops⟩ | ⟨nothing, -⟩
    · rw [pops, if_neg (by omega)]
    · omega
  rw [← pops]
  apply steps_of_step rfl rfl
  simp only [TargetCall.step, sound.strInKey,
    getRedisCount_served (show connectedRedis.pRedisContext = true from rfl), counted]
  rfl

/-- The call goes on behind a batch: neither has it executed as many statements as it may, nor has
it seen the last records. -/
theorem Batch.onExec_goesOn {batch : Batch} (early : ¬batch.runCount > batch.iMaxFlag)
    (goesOn : ¬batch.isDone = true) :
    batch.onExec =
      .inl (.count { batch with
        redisCount := 0, sql := batch.savesql, runCount := batch.runCount + 1,
                                             records := [] }) :=
  (if_neg early).trans (if_neg goesOn)

/-- A producer adds up to twenty records, and the call sends them in one statement. -/
theorem round_run (members : List Bytes) (distinct : members.Nodup)
    (texts : ∀ member ∈ members, HasText member) (some : members ≠ []) (few : members.length ≤ 20)
    {stores : Stores} {batch : Batch} (between : Between insertCount header key stores batch)
    (early : batch.runCount ≤ insertCount.tdiv 20) :
    ∃ trace after next,
      (targetMachine insertCount header key sets).Run ⟨stores, .inl (.count batch)⟩ trace
        ⟨after, .inl (.count next)⟩ ∧
      Between insertCount header key after next ∧ next.runCount = batch.runCount + 1 ∧
      after.attempted.length = stores.attempted.length + members.length ∧
      (after.addedTo key).length = (stores.addedTo key).length + members.length := by
  obtain ⟨sound, empty, content, flag⟩ := between
  have isNew : ∀ member ∈ members, member ∉ stores.sets key := by
    rw [content]
    exact fun member _ => List.not_mem_nil
  obtain ⟨trace, offered, adds, listed, statements, longer⟩ :=
    @adds_run insertCount header key sets (.inl (.count batch)) members distinct stores isNew
  rw [content, List.nil_append] at listed
  have counts :=
    @count_steps insertCount header key sets offered batch members listed some few sound empty
  obtain ⟨more, popped, last, ran, nothing, executed, added, isSound, records, runs, flag', done⟩ :=
    @pops_run insertCount header key sets members texts some offered listed
      { batch with isDone := false, iMax := members.length, i := 0 } { sound with } (Int.sub_zero _)
  -- The batch is executed, and the call goes on.
  have goesOn : last.onExec = _ := Batch.onExec_goesOn
    (by rw [runs, flag']; change ¬batch.runCount > batch.iMaxFlag; omega)
    (by rw [done]; exact Bool.false_ne_true)
  have executes :
    (targetMachine insertCount header key sets).Steps ⟨popped, .inl (.exec last)⟩
      (.query connectedSql 0) ()
      ⟨popped.execute ⟨last.strInKey, cString last.sql, recordToMysql connectedSql 0, last.records⟩,
          last.onExec⟩ :=
    steps_of_step rfl rfl rfl
  have next := isSound.onExec.1
  rw [goesOn] at executes next
  have round := adds.append (.cons counts (ran.append (Machine.Run.single executes)))
  refine ⟨_, _, _, round, ⟨next.1, rfl, nothing, ?_⟩, ?_, ?_, ?_⟩
  · change last.iMaxFlag = insertCount.tdiv 20
    rw [flag']
    exact flag
  · change last.runCount + 1 = batch.runCount + 1
    rw [runs]
  · rw [Stores.attempted_execute, List.length_append, Statement.members, List.length_map, records,
      empty, Stores.attempted, executed, statements]
    simp [Stores.attempted]
  · rw [Stores.addedTo_execute, Stores.addedTo, added]
    exact longer

/-- A call goes on for as many statements as it may execute before the last one. -/
theorem rounds_run (members : List Bytes) (distinct : members.Nodup)
    (texts : ∀ member ∈ members, HasText member) (some : members ≠ []) (few : members.length ≤ 20)
    (rounds : Nat) {stores : Stores} {batch : Batch}
    (between : Between insertCount header key stores batch)
    (early : batch.runCount + rounds ≤ insertCount.tdiv 20 + 1) :
    ∃ trace after next,
      (targetMachine insertCount header key sets).Run ⟨stores, .inl (.count batch)⟩ trace
        ⟨after, .inl (.count next)⟩ ∧
      Between insertCount header key after next ∧ next.runCount = batch.runCount + rounds ∧
      after.attempted.length = stores.attempted.length + rounds * members.length ∧
      (after.addedTo key).length = (stores.addedTo key).length + rounds * members.length := by
  induction rounds generalizing stores batch with
  | zero => exact ⟨[], stores, batch, .nil _, between, by simp, by simp, by simp⟩
  | succ rounds ih =>
    rw [Nat.cast_succ] at early
    obtain ⟨front, middle, batch', first, between', runs, sent, added⟩ :=
      @round_run insertCount header key sets members distinct texts some few stores batch between
        (by omega)
    obtain ⟨back, after, next, rest, between'', runs', sent', added'⟩ := ih between' (by omega)
    refine ⟨front ++ back, after, next, first.append rest, between'', ?_, ?_, ?_⟩
    · rw [runs', runs, Nat.cast_succ]
      omega
    · rw [sent', sent, Nat.succ_mul]
      omega
    · rw [added', added, Nat.succ_mul]
      omega

/-- An encoded record has a text. -/
theorem hasText_encode {d : Bytes} (nonempty : d ≠ []) (fits : (Base64.encode d).length < 2 ^ 31) :
    HasText (Base64.encode d) := by
  have read := recordFromRedis_encode (show connectedRedis.pRedisContext = true from
    rfl) nonempty fits
  rw [recordFromRedis_served rfl] at read
  exact ⟨d, read, nonempty⟩

/-- Twenty records of one letter each. -/
def letters : List Bytes :=
  (List.range 20).map fun letter => Base64.encode [UInt8.ofNat (65 + letter)]

/-- The letters are different records. -/
theorem nodup_letters : letters.Nodup := by
  decide +kernel

/-- Each letter has a text. -/
theorem hasText_letters : ∀ member ∈ letters, HasText member := by
  intro member listed
  obtain ⟨letter, -, rfl⟩ := List.mem_map.mp listed
  have length : (Base64.encode [UInt8.ofNat (65 + letter)]).length = 4 := by
    rw [Base64.encode_eq]
    rfl
  exact hasText_encode (List.cons_ne_nil _ _) (by omega)

/-- Whatever the sets hold: when no more than `offered` records are in the set of a call or are
added to it, the call executes statements with at most `insertCount` records. -/
def SendsAtMost (insertCount : Int) (header key : Bytes) (offered : Nat) : Prop :=
  ∀ (sets : Bytes → List Bytes) (trace : List (RecordEvent × Unit)) (target : Target),
    (targetMachine insertCount header key sets).Run (targetMachine insertCount header key sets).init
      trace target →
    (sets key).length + (target.stores.addedTo key).length ≤ offered →
    (target.stores.attempted.length : Int) ≤ insertCount

/-- A call to which one record more than `insertCount` is offered can send all of them. -/
theorem sends_one_more (enough : 20 ≤ insertCount) (named : header ≠ []) (keyed : key ≠ []) :
    ∃ trace target, (targetMachine insertCount header key fun _ => []).Run
        (targetMachine insertCount header key fun _ => []).init trace target ∧
      (target.stores.attempted.length : Int) = insertCount + 1 ∧
      ((target.stores.addedTo key).length : Int) = insertCount + 1 := by
  have quotient : insertCount.tdiv 20 = insertCount / 20 := Int.tdiv_eq_ediv_of_nonneg (by omega)
  have start : Between insertCount header key ⟨fun _ =>
      [], [], [], []⟩ (.start insertCount header key) := by
    have sound := (callSound_start insertCount header key).1
    rw [proccessTargetKey_named named keyed] at sound
    exact ⟨sound.1, rfl, rfl, rfl⟩
  have many : letters.length = 20 := rfl
  obtain ⟨front, middle, batch, ran, between, runs, sent, added⟩ :=
    @rounds_run insertCount header key (fun _ =>
      []) letters nodup_letters hasText_letters (by decide) (by decide)
      (insertCount / 20).toNat _ _ start (show (0 : Int) + _ ≤ _ by omega)
  -- One more statement holds the rest, which is less than twenty records, and the record too many.
  obtain ⟨left, isLeft⟩ : ∃ left : Nat, (left : Int) = insertCount % 20 + 1 :=
    ⟨(insertCount % 20 + 1).toNat, by omega⟩
  have length : (letters.take left).length = left := by
    rw [List.length_take, many]
    omega
  have some : letters.take left ≠ [] := by
    rw [← List.length_pos_iff]
    omega
  have early : batch.runCount ≤ insertCount.tdiv 20 := by
    rw [runs]
    change (0 : Int) + _ ≤ _
    omega
  obtain ⟨back, after, next, last, -, -, sent', added'⟩ :=
    @round_run insertCount header key (fun _ =>
      []) (letters.take left) (nodup_letters.sublist (List.take_sublist _ _))
      (fun member listed => hasText_letters member (List.mem_of_mem_take listed)) some (by omega) _
        _ between early
  have starts : (targetMachine insertCount header key fun _ => []).init =
      ⟨⟨fun _ => [], [], [], []⟩, .inl (.count (.start insertCount header key))⟩ := by
    rw [← proccessTargetKey_named named keyed]
    rfl
  refine ⟨front ++ back, _, starts ▸ ran.append last, ?_, ?_⟩
  · rw [sent', sent, length, many]
    change ((0 + (insertCount / 20).toNat * 20 + left : Nat) : Int) = insertCount + 1
    omega
  · rw [added', added, length, many]
    change ((0 + (insertCount / 20).toNat * 20 + left : Nat) : Int) = insertCount + 1
    omega

/-- For every `insert_max_count` of twenty and more and every header: a call sends at most that many
records, whatever is in the set and whenever the producers add records, exactly when no more than
that are offered to it. -/
theorem sendsAtMost_iff (insertCount : Int) (header key : Bytes) (offered : Nat)
    (enough : 20 ≤ insertCount) (named : header ≠ []) :
    SendsAtMost insertCount header key offered ↔ key = [] ∨ (offered : Int) ≤ insertCount := by
  constructor
  · intro atMost
    by_contra neither
    obtain ⟨keyed, more⟩ := not_or.mp neither
    obtain ⟨trace, target, ran, sent, added⟩ := sends_one_more enough named keyed
    have few := atMost (fun _ => []) trace target ran (by rw [List.length_nil]; omega)
    omega
  · rintro (rfl | little) sets trace target ran fits
    · rw [attempted_of_no_key ran, List.length_nil]
      omega
    · have sent := attempted_le_offered ran
      omega

end

/-- Twenty records at most are sent of twenty. -/
theorem sendsAtMost_twenty : SendsAtMost 20 (bytes "INSERT INTO t VALUES") (bytes "K") 20 :=
  (sendsAtMost_iff 20 (bytes "INSERT INTO t VALUES") (bytes "K") 20 (by decide) (by decide)).mpr
    (.inr (by decide))

/-- Twenty-one records of one letter each. -/
def moreLetters : List Bytes := letters ++ [Base64.encode [97]]

/-- A Redis server with all of them in one of its sets. -/
def letterRecords : Bytes → List Bytes := Function.update (fun _ => []) (bytes "K") moreLetters

/-- With `insert_max_count` 20 a call stores all of twenty-one records, without a producer, and
returns. -/
theorem sends_twenty_one :
    ∃ trace last sql,
      (targetMachine 20 (bytes "INSERT INTO t VALUES") (bytes "K") letterRecords).Run
        (targetMachine 20 (bytes "INSERT INTO t VALUES") (bytes "K") letterRecords).init
          trace last ∧
      last.call = .inr sql ∧ last.stores.attempted = moreLetters ∧
      last.stores.delivered = moreLetters ∧
      moreLetters.length = 21 := by
  obtain ⟨trace, last, ran, -, facts⟩ := Machine.run_of_exec_any
    (fun last : Target =>
      decide (last.call = .inr (bytes "INSERT INTO t VALUES") ∧
        last.stores.attempted = moreLetters ∧
      last.stores.delivered = moreLetters))
    (show ((targetMachine 20 (bytes "INSERT INTO t VALUES") (bytes "K") letterRecords).exec
        (targetMachine 20 (bytes "INSERT INTO t VALUES") (bytes "K") letterRecords).init
      ([.scard connectedRedis true] ++ letters.map (.spop connectedRedis true) ++
        [.query connectedSql 0, .scard connectedRedis true,
          .spop connectedRedis true (Base64.encode [97]), .query connectedSql 0,
          .scard connectedRedis true])).any _ = true by
      decide +kernel)
  obtain ⟨returned, sent, stored⟩ := of_decide_eq_true facts
  exact ⟨trace, last, _, ran, returned, sent, stored, by decide +kernel⟩

end NetServer
