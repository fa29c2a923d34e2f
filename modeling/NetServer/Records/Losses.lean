import NetServer.Records.Batch

/-!
# Records that are lost

`ProccessTargetKey` removes a record from its set before it executes it, and goes on when the
execution fails. What it removes is therefore lost when `ExecSqlCmd` does not return 0, and also
when the record has no text or the statement, a C string, ends before the text does. Apart from
these cases every record of the set is afterwards still there or part of a statement that was
executed.
-/

namespace NetServer

open Lib

/-! ## Accounts -/

/-- The records whose texts a statement holds whole. -/
def Statement.parts (statement : Statement) : List Bytes :=
  (statement.records.filter fun record => record.2 ≤ statement.text.length).map Prod.fst

/-- The records that were put into a statement. -/
def Statement.members (statement : Statement) : List Bytes := statement.records.map Prod.fst

/-- The records that a statement stores. -/
def Statement.stored (statement : Statement) : List Bytes :=
  if statement.iret = 0 then statement.parts else []

namespace Stores

/-- The records that were added to a set. -/
def addedTo (stores : Stores) (key : Bytes) : List Bytes :=
  stores.added.filterMap fun entry => if entry.1 = key then some entry.2 else none

/-- The records that are part of a statement for which `ExecSqlCmd` returned 0. -/
def delivered (stores : Stores) : List Bytes := stores.statements.flatMap Statement.stored

/-- The records that were put into a statement. -/
def attempted (stores : Stores) : List Bytes := stores.statements.flatMap Statement.members

/-- Every record that was in the set of a key at the start or was added to it is still there or is
part of a statement for which `ExecSqlCmd` returned 0. A record that was popped and added again
counts twice. -/
def NoLoss (sets : Bytes → List Bytes) (key : Bytes) (stores : Stores) : Prop :=
  ∀ member, (sets key).count member + (stores.addedTo key).count member ≤
    (stores.sets key).count member + stores.delivered.count member

/-! What the operations do to the accounts. -/

variable (stores : Stores) (key member : Bytes) (popped : Option Bytes) (statement : Statement)

/-- A pop adds no record to a set. -/
@[simp] theorem addedTo_take (key' : Bytes) :
    (stores.take key member).addedTo key' = stores.addedTo key' := rfl

/-- A pop puts no record into a statement. -/
@[simp] theorem attempted_take : (stores.take key member).attempted = stores.attempted := rfl

/-- A pop by itself drops nothing. -/
@[simp] theorem dropped_take : (stores.take key member).dropped = stores.dropped := rfl

/-- A drop leaves the sets as they are. -/
@[simp] theorem sets_drop : (stores.drop popped).sets = stores.sets := rfl

/-- A drop adds no record to a set. -/
@[simp] theorem addedTo_drop : (stores.drop popped).addedTo key = stores.addedTo key := rfl

/-- A drop puts no record into a statement. -/
@[simp] theorem attempted_drop : (stores.drop popped).attempted = stores.attempted := rfl

/-- What is dropped is noted. -/
@[simp] theorem dropped_drop : (stores.drop popped).dropped = stores.dropped ++ popped.toList := rfl

/-- A statement leaves the sets as they are. -/
@[simp] theorem sets_execute : (stores.execute statement).sets = stores.sets := rfl

/-- A statement adds no record to a set. -/
@[simp] theorem addedTo_execute : (stores.execute statement).addedTo key = stores.addedTo key := rfl

/-- A statement drops nothing. -/
@[simp] theorem dropped_execute : (stores.execute statement).dropped = stores.dropped := rfl

/-- The members of a statement were put into it. -/
@[simp] theorem attempted_execute :
    (stores.execute statement).attempted = stores.attempted ++ statement.members := by
  simp [attempted, execute]

/-- What a statement stores is delivered. -/
@[simp] theorem delivered_execute :
    (stores.execute statement).delivered = stores.delivered ++ statement.stored := by
  simp [delivered, execute]

end Stores

/-- The text of a record can be executed behind a header: it is not empty, and neither of the two
contains a null. -/
def Carried (header member : Bytes) : Prop :=
  recordText member ≠ [] ∧ 0 ∉ header ∧ 0 ∉ recordText member

/-- A step loses no record: a query is executed, and a record that is popped can be carried. -/
def Keeps (header key : Bytes) (target : Target) : RecordEvent → Prop
  | .query client result => client.sqlHandle = true ∧ result = 0
  | .spop _ answered member =>
    answered = true → member ∈ target.stores.sets key → Carried header member
  | .sadd _ _ | .scard _ _ => True

/-! ## Statements -/

/-- `ExecSqlCmd` returns 0 when there is a handle and the query succeeds. -/
theorem recordToMysql_eq_zero {client : SqlClient} {result : Int} :
    recordToMysql client result = 0 ↔ client.sqlHandle = true ∧ result = 0 := by
  unfold recordToMysql SqlClient.execSqlCmd
  cases client.sqlHandle <;> by_cases zero : result = 0 <;> simp [zero]

/-- A C string is as long as its bytes exactly when there is no null among them. -/
theorem length_le_cString {text : Bytes} : text.length ≤ (cString text).length ↔ 0 ∉ text := by
  rw [← cString_eq_self]
  constructor
  · intro long
    exact (List.takeWhile_prefix _).eq_of_length_le long
  · intro whole
    rw [whole]

/-- A statement stores a part of what was put into it. -/
theorem Statement.stored_sublist (statement : Statement) :
    statement.stored.Sublist statement.members := by
  unfold stored
  split
  · exact List.filter_sublist.map _
  · exact List.nil_sublist _

/-- A statement holds all its records exactly when it is as long as each of them needs. -/
theorem Statement.parts_eq_iff (statement : Statement) :
    statement.parts = statement.members ↔ ∀ record ∈ statement.records,
      record.2 ≤ statement.text.length := by
  constructor
  · intro same record inStatement
    have lengths := congrArg List.length same
    simp only [parts, members, List.length_map] at lengths
    have whole : statement.records.filter (fun record => record.2 ≤ statement.text.length) =
        statement.records :=
      List.filter_sublist.eq_of_length lengths
    simpa using List.filter_eq_self.mp whole record inStatement
  · intro inside
    rw [parts, members, List.filter_eq_self.mpr (by simpa using inside)]

/-- A statement stores all its records exactly when it succeeds and holds them. -/
theorem Statement.stored_eq_iff {statement : Statement} (some : statement.records ≠ []) :
    statement.stored = statement.members ↔ statement.iret = 0 ∧
      statement.parts = statement.members := by
  unfold stored
  split
  · rename_i succeeds
    simp [succeeds]
  · rename_i fails
    constructor
    · intro same
      exact absurd (List.map_eq_nil_iff.mp same.symm) some
    · intro both
      exact absurd both.1 fails

/-- No null is in texts with commas between them exactly when none is in a text. -/
theorem zero_not_mem_intercalate (texts : List Bytes) :
    0 ∉ (bytes ",").intercalate texts ↔ ∀ text ∈ texts, 0 ∉ text := by
  have comma : bytes "," = [44] := rfl
  rw [comma, mem_intercalate (by decide)]
  push Not
  rfl

/-- The statement of a batch holds all its records exactly when each of them can be carried. -/
theorem Batch.Sound.parts_eq_iff {header key : Bytes} {batch : Batch}
    (sound : batch.Sound header key) (some : batch.records ≠ [])
    (texts : ∀ record ∈ batch.records, recordText record.1 ≠ []) (iret : Int) :
    (⟨batch.strInKey, cString batch.sql, iret, batch.records⟩ : Statement).parts =
      batch.records.map Prod.fst ↔
      ∀ member ∈ batch.records.map Prod.fst, Carried header member := by
  have whole : (∀ record ∈ batch.records, record.2 ≤ (cString batch.sql).length) ↔
      0 ∉ batch.sql := by
    rw [← length_le_cString]
    constructor
    · intro inside
      obtain ⟨record, isLast⟩ := Option.isSome_iff_exists.mp (List.getLast?_isSome.mpr some)
      have reached := inside record (List.mem_of_getLast? isLast)
      rwa [sound.last record isLast] at reached
    · intro long record inBatch
      exact Nat.le_trans (sound.inside record inBatch) long
  have clean : 0 ∉ batch.sql ↔ 0 ∉ header ∧ ∀ record ∈ batch.records, 0 ∉ recordText record.1 := by
    rw [sound.sql, List.mem_append, not_or, zero_not_mem_intercalate, Batch.texts,
      List.forall_mem_map]
  rw [show batch.records.map Prod.fst =
    (⟨batch.strInKey, cString batch.sql, iret, batch.records⟩ : Statement).members from rfl,
    Statement.parts_eq_iff, whole, clean, Statement.members, List.forall_mem_map]
  constructor
  · rintro ⟨headerClean, textsClean⟩ record inBatch
    exact ⟨texts record inBatch, headerClean, textsClean record inBatch⟩
  · intro carried
    obtain ⟨record, inBatch⟩ := List.exists_mem_of_ne_nil _ some
    exact ⟨(carried record inBatch).2.1, fun record inBatch => (carried record inBatch).2.2⟩

/-! ## Steps -/

/-- So far no record is lost: none had no text, the statements stored all that was put into them,
and the records that wait can be carried. -/
structure Kept (header : Bytes) (target : Target) : Prop where
  dropped : target.stores.dropped = []
  delivered : target.stores.delivered = target.stores.attempted
  pending : ∀ member ∈ pending target.call, Carried header member

/-- The statements store a part of what was put into them. -/
theorem Stores.delivered_sublist (stores : Stores) : stores.delivered.Sublist stores.attempted := by
  unfold delivered attempted
  induction stores.statements with
  | nil => exact List.nil_sublist _
  | cons first rest ih =>
    rw [List.flatMap_cons, List.flatMap_cons]
    exact first.stored_sublist.append ih

/-- Behind a statement all is stored exactly when it was before and the statement stores its
records. -/
theorem Stores.all_delivered_execute (stores : Stores) (statement : Statement) :
    (stores.execute statement).delivered = (stores.execute statement).attempted ↔
      stores.delivered = stores.attempted ∧ statement.stored = statement.members := by
  rw [delivered_execute, attempted_execute]
  constructor
  · intro same
    have lengths := congrArg List.length same
    have before := stores.delivered_sublist.length_le
    have here := statement.stored_sublist.length_le
    rw [List.length_append, List.length_append] at lengths
    exact ⟨stores.delivered_sublist.eq_of_length (by omega),
      statement.stored_sublist.eq_of_length (by omega)⟩
  · rintro ⟨before, here⟩
    rw [before, here]

/-- A call with its invariant, where the records that wait have texts. -/
structure TargetSound (header key : Bytes) (target : Target) : Prop where
  call : CallSound header key target.call
  texts : ∀ member ∈ pending target.call, recordText member ≠ []

/-- What a step does with the records: a producer adds one, nothing happens to them, one is popped
that has no text, one is popped that has, or all that wait are executed. -/
inductive Effect (header key : Bytes) (target : Target) : RecordEvent → Target → Prop
  | added {key' member : Bytes} :
    Effect header key target (.sadd key' member) { target with
      stores := target.stores.sadd key' member }
  | idle {event : RecordEvent} {call : TargetCall ⊕ Bytes} (keeps : Keeps header key target event)
    (waits : pending call = pending target.call) :
      Effect header key target event { target with call }
  | dropped {client : RedisClient} {member : Bytes} {call : TargetCall ⊕ Bytes}
    (listed : member ∈ target.stores.sets key) (empty : recordText member = [])
    (waits : pending call = pending target.call) :
    Effect header key target (.spop client true member)
      ⟨(target.stores.take key member).drop (some member), call⟩
  | taken {client : RedisClient} {member : Bytes} {call : TargetCall ⊕ Bytes}
    (listed : member ∈ target.stores.sets key) (text : recordText member ≠ [])
    (waits : pending call = pending target.call ++ [member]) :
    Effect header key target (.spop client true member) ⟨target.stores.take key member, call⟩
  | executed {client : SqlClient} {result : Int} {call : TargetCall ⊕ Bytes} {statement : Statement}
    (iret : statement.iret = recordToMysql client result)
    (members : statement.members = pending target.call)
    (some : pending target.call ≠ [])
    (parts : statement.parts = statement.members ↔ ∀ member ∈ pending target.call,
      Carried header member)
    (done : pending call = []) :
    Effect header key target (.query client result) ⟨target.stores.execute statement, call⟩

section

variable {insertCount : Int} {header key : Bytes} {sets : Bytes → List Bytes} {target next : Target}
  {event : RecordEvent} {answer : Unit}

/-- A step of the machine is a step of a producer or of the call. -/
theorem target_cases
    (steps : (targetMachine insertCount header key sets).Steps target event answer next) :
    (∃ key' member, event = .sadd key' member ∧
      next = { target with stores := target.stores.sadd key' member }) ∨
      ∃ call, target.call = .inl call ∧
      TargetCall.Does target.stores call event next.stores next.call := by
  obtain ⟨possible, ran⟩ := steps
  simp only [targetMachine] at possible ran
  cases event with
  | sadd key' member =>
    cases ran
    exact .inl ⟨key', member, rfl, rfl⟩
  | scard | spop | query =>
    right
    cases inside : target.call with
    | inr sql =>
      rw [inside] at possible
      cases possible
    | inl call =>
      rw [inside] at possible ran
      obtain ⟨⟨stores, outcome⟩, stepped, done⟩ := bind_eq_ok.mp ran
      cases done
      exact ⟨call, rfl, TargetCall.does_of_step possible stepped⟩

/-- `SPOP` does no harm when it pops nothing. -/
theorem keeps_of_nothing {client : RedisClient} {answered : Bool} {member : Bytes}
    (nothing : answered = false ∨ target.stores.sets key = []) :
    Keeps header key target (.spop client answered member) := by
  intro isAnswered listed
  rcases nothing with unanswered | empty
  · rw [isAnswered] at unanswered
    cases unanswered
  · rw [empty] at listed
    cases listed

/-- Every step of a call has one of these effects. -/
theorem TargetCall.Does.effect {stores after : Stores} {call : TargetCall}
    {outcome : TargetCall ⊕ Bytes} (does : TargetCall.Does stores call event after outcome)
    (sound : TargetSound header key ⟨stores, .inl call⟩) :
    Effect header key ⟨stores, .inl call⟩ event ⟨after, outcome⟩ := by
  obtain ⟨callSound, texts⟩ := sound
  cases does with
  | updateNothing nothing =>
    obtain ⟨rfl, -⟩ := callSound
    exact .idle (keeps_of_nothing nothing) rfl
  | updateDropped listed empty =>
    obtain ⟨rfl, -⟩ := callSound
    exact .dropped listed empty rfl
  | updateTaken listed text =>
    obtain ⟨rfl, -⟩ := callSound
    exact .taken listed text rfl
  | @updateDone key' temp popped client result =>
    obtain ⟨rfl, rfl, member, rfl, rfl, text⟩ := callSound
    refine .executed rfl rfl (List.cons_ne_nil _ _) ?_ rfl
    rw [Statement.parts_eq_iff]
    simp [pending, Carried, length_le_cString, text]
  | counted => exact .idle trivial (callSound.1.onCount _).2
  | popNothing nothing =>
    obtain rfl := Batch.Sound.strInKey callSound
    exact .idle (keeps_of_nothing nothing) (Batch.Sound.skip callSound).2
  | popDropped listed empty =>
    obtain rfl := Batch.Sound.strInKey callSound
    exact .dropped listed empty (Batch.Sound.skip callSound).2
  | @popTaken batch client member listed text =>
    obtain rfl := Batch.Sound.strInKey callSound
    refine .taken listed text ?_
    rw [(Batch.Sound.extend callSound member).skip.2]
    simp [Batch.extend, pending]
  | @executed batch client result =>
    obtain ⟨batchSound, some⟩ := callSound
    refine .executed rfl rfl (fun none => some (List.map_eq_nil_iff.mp none)) ?_ batchSound.onExec.2
    exact batchSound.parts_eq_iff some (fun record inBatch =>
      texts _ (List.mem_map_of_mem inBatch)) _

/-- Every step of the machine has one of these effects. -/
theorem effect_of_steps (sound : TargetSound header key target)
    (steps : (targetMachine insertCount header key sets).Steps target event answer next) :
    Effect header key target event next := by
  rcases target_cases steps with ⟨key', member, rfl, rfl⟩ | ⟨call, inside, does⟩
  · exact .added
  · obtain ⟨stores, point⟩ := target
    cases inside
    exact does.effect sound

/-- Every step keeps the invariant. -/
theorem TargetSound.step (sound : TargetSound header key target)
    (steps : (targetMachine insertCount header key sets).Steps target event answer next) :
    TargetSound header key next := by
  have call : CallSound header key next.call := by
    rcases target_cases steps with ⟨key', member, rfl, rfl⟩ | ⟨call, inside, does⟩
    · exact sound.call
    · exact does.callSound (inside ▸ sound.call)
  refine ⟨call, ?_⟩
  intro member waiting
  cases effect_of_steps sound steps with
  | added => exact sound.texts member waiting
  | idle keeps waits => exact sound.texts member (waits ▸ waiting)
  | dropped listed empty waits => exact sound.texts member (waits ▸ waiting)
  | taken listed text waits =>
    rcases List.mem_append.mp (waits ▸ waiting) with before | isNew
    · exact sound.texts member before
    · rwa [List.mem_singleton.mp isNew]
  | executed iret members some parts done =>
    rw [done] at waiting
    cases waiting

/-! ## What is kept -/

/-- Behind a step no record is lost exactly when none was and the step loses none. -/
theorem Effect.kept_iff (effect : Effect header key target event next) :
    Kept header next ↔ Kept header target ∧ Keeps header key target event := by
  cases effect with
  | @added key' member =>
    obtain ⟨statements, dropped⟩ := target.stores.sadd_same key' member
    constructor
    · intro kept
      refine ⟨⟨dropped ▸ kept.dropped, ?_, kept.pending⟩, trivial⟩
      simpa only [Stores.delivered, Stores.attempted, statements] using kept.delivered
    · rintro ⟨kept, -⟩
      refine ⟨dropped.trans kept.dropped, ?_, kept.pending⟩
      simpa only [Stores.delivered, Stores.attempted, statements] using kept.delivered
  | idle keeps waits =>
    constructor
    · intro kept
      exact ⟨⟨kept.dropped, kept.delivered, waits ▸ kept.pending⟩, keeps⟩
    · rintro ⟨kept, -⟩
      exact ⟨kept.dropped, kept.delivered, waits.symm ▸ kept.pending⟩
  | dropped listed empty waits =>
    constructor
    · intro kept
      have some := kept.dropped
      simp at some
    · rintro ⟨-, keeps⟩
      exact absurd empty (keeps rfl listed).1
  | @taken client member call listed text waits =>
    constructor
    · intro kept
      have carried : ∀ other ∈ pending target.call ++ [member], Carried header other :=
        waits ▸ kept.pending
      refine ⟨⟨kept.dropped, kept.delivered, fun other waiting => ?_⟩, fun _ _ => ?_⟩
      · exact carried other (List.mem_append_left _ waiting)
      · exact carried member (List.mem_append_right _ (List.mem_singleton_self member))
    · rintro ⟨kept, keeps⟩
      refine ⟨kept.dropped, kept.delivered, fun other waiting => ?_⟩
      rcases List.mem_append.mp (waits ▸ waiting) with before | isNew
      · exact kept.pending other before
      · rw [List.mem_singleton.mp isNew]
        exact keeps rfl listed
  | @executed client result call statement iret members some parts done =>
    have stored : statement.stored = statement.members ↔
        (client.sqlHandle = true ∧ result = 0) ∧ ∀ member ∈ pending target.call,
        Carried header member := by
      have records : statement.records ≠ [] := by
        intro none
        rw [Statement.members, none] at members
        exact some members.symm
      rw [Statement.stored_eq_iff records, iret, recordToMysql_eq_zero, parts]
    constructor
    · intro kept
      obtain ⟨before, here⟩ := (target.stores.all_delivered_execute statement).mp kept.delivered
      obtain ⟨succeeds, carried⟩ := stored.mp here
      exact ⟨⟨kept.dropped, before, carried⟩, succeeds⟩
    · rintro ⟨kept, succeeds⟩
      refine ⟨kept.dropped, ?_, ?_⟩
      · exact (target.stores.all_delivered_execute statement).mpr ⟨kept.delivered,
          stored.mpr ⟨succeeds, kept.pending⟩⟩
      · intro member waiting
        rw [done] at waiting
        cases waiting

/-- Every record is in its set, waits, was put into a statement or was dropped. -/
def Balanced (sets : Bytes → List Bytes) (key : Bytes) (target : Target) : Prop :=
  ∀ member, (sets key).count member + (target.stores.addedTo key).count member =
    (target.stores.sets key).count member + (pending target.call).count member +
      target.stores.attempted.count member + target.stores.dropped.count member

/-- A member that is taken leaves its set once. -/
theorem Stores.count_take {stores : Stores} {member : Bytes} (listed : member ∈ stores.sets key)
    (other : Bytes) :
    ((stores.take key member).sets key).count other + [member].count other =
      (stores.sets key).count other := by
  have removed : (stores.take key member).sets key = (stores.sets key).erase member :=
    Function.update_self ..
  rw [removed, ← List.count_append]
  exact (List.perm_append_singleton _ _ |>.trans (List.perm_cons_erase listed).symm).count_eq other

/-- `SADD` adds a record to the set when it adds one. -/
theorem Stores.count_sadd (stores : Stores) (key key' member other : Bytes) :
    ((stores.sadd key' member).sets key).count other + (stores.addedTo key).count other =
      (stores.sets key).count other + ((stores.sadd key' member).addedTo key).count other := by
  unfold sadd
  split
  · rfl
  · by_cases same : key' = key
    · subst same
      simp only [addedTo, Function.update_self, List.filterMap_append, List.count_append]
      simp [Nat.add_assoc, Nat.add_comm, Nat.add_left_comm]
    · have apart : key ≠ key' := fun equal => same equal.symm
      simp [addedTo, Function.update_of_ne apart, same]

/-- Every step keeps the balance. -/
theorem Effect.balanced (effect : Effect header key target event next)
    (balanced : Balanced sets key target) : Balanced sets key next := by
  intro other
  have before := balanced other
  cases effect with
  | @added key' member =>
    obtain ⟨statements, dropped⟩ := target.stores.sadd_same key' member
    have moved := target.stores.count_sadd key key' member other
    simp only [Stores.attempted, statements, dropped] at before ⊢
    omega
  | idle keeps waits =>
    simp only [waits]
    exact before
  | @dropped client member call listed empty waits =>
    have moved := Stores.count_take listed other
    simp only [waits, Stores.sets_drop, Stores.addedTo_drop, Stores.addedTo_take,
      Stores.attempted_drop, Stores.attempted_take, Stores.dropped_drop, Stores.dropped_take,
      Option.toList_some, List.count_append]
    omega
  | @taken client member call listed text waits =>
    have moved := Stores.count_take listed other
    simp only [waits, Stores.addedTo_take, Stores.attempted_take, Stores.dropped_take,
      List.count_append]
    omega
  | @executed client result call statement iret members some parts done =>
    simp only [done, Stores.sets_execute, Stores.addedTo_execute, Stores.attempted_execute,
      Stores.dropped_execute, members, List.count_append, List.count_nil]
    omega

/-! ## Whole calls -/

/-- A call with its invariant and its balance. -/
structure Accounted (sets : Bytes → List Bytes) (header key : Bytes) (target : Target) : Prop
    extends TargetSound header key target where
  balanced : Balanced sets key target

/-- Every step keeps both. -/
theorem Accounted.step (accounted : Accounted sets header key target)
    (steps : (targetMachine insertCount header key sets).Steps target event answer next) :
    Accounted sets header key next :=
  ⟨accounted.toTargetSound.step steps,
    (effect_of_steps accounted.toTargetSound steps).balanced accounted.balanced⟩

/-- At the start of a call the records are in their sets and none is lost. -/
theorem target_start (insertCount : Int) (header key : Bytes) (sets : Bytes → List Bytes) :
    Accounted sets header key (targetMachine insertCount header key sets).init ∧
      Kept header (targetMachine insertCount header key sets).init := by
  obtain ⟨call, none⟩ := callSound_start insertCount header key
  have nothing : pending (targetMachine insertCount header key sets).init.call = [] := none
  refine ⟨⟨⟨call, ?_⟩, ?_⟩, rfl, rfl, ?_⟩
  · rw [nothing]
    exact fun member waiting => (nomatch waiting)
  · intro member
    rw [nothing]
    simp [targetMachine, Stores.addedTo, Stores.attempted]
  · rw [nothing]
    exact fun member waiting => (nomatch waiting)

/-- Behind a call no record is missing exactly when none was lost on the way. -/
theorem Accounted.noLoss_iff_kept (accounted : Accounted sets header key target)
    (returned : pending target.call = []) : target.stores.NoLoss sets key ↔ Kept header target := by
  have account : ∀ member, (sets key).count member + (target.stores.addedTo key).count member =
      (target.stores.sets key).count member + target.stores.attempted.count member +
        target.stores.dropped.count member := by
    intro member
    have whole := accounted.balanced member
    rw [returned, List.count_nil] at whole
    omega
  constructor
  · intro noLoss
    have fewer : ∀ member,
      target.stores.attempted.count member + target.stores.dropped.count member ≤
        target.stores.delivered.count member := by
      intro member
      have here := noLoss member
      have whole := account member
      omega
    have attempted : ∀ member, target.stores.attempted.count member ≤
        target.stores.delivered.count member :=
      fun member => Nat.le_trans (Nat.le_add_right _ _) (fewer member)
    have delivered : target.stores.delivered = target.stores.attempted :=
      target.stores.delivered_sublist.eq_of_length_le (List.subperm_ext_iff.mpr fun member _ =>
        attempted member).length_le
    refine ⟨?_, delivered, ?_⟩
    · apply List.eq_nil_iff_forall_not_mem.mpr
      intro member wasDropped
      have positive := List.count_pos_iff.mpr wasDropped
      have here := fewer member
      rw [delivered] at here
      omega
    · rw [returned]
      exact fun member waiting => (nomatch waiting)
  · intro kept member
    have whole := account member
    rw [kept.dropped, ← kept.delivered, List.count_nil] at whole
    omega

/-- For every content of the sets and whatever the producers and the servers do: when a call of
`ProccessTargetKey` has returned, every record that was in its set or was added to it is still there
or is part of a statement for which `ExecSqlCmd` returned 0 exactly when every query found a handle
and succeeded and every record that was popped could be carried. -/
theorem proccessTargetKey_noLoss_iff {trace : List (RecordEvent × Unit)} {result : Bytes}
    (ran : (targetMachine insertCount header key sets).Run
      (targetMachine insertCount header key sets).init trace target)
    (returned : target.call = .inr result) :
    target.stores.NoLoss sets key ↔
      (targetMachine insertCount header key sets).Throughout (Keeps header key)
        (targetMachine insertCount header key sets).init trace := by
  obtain ⟨start, kept⟩ := target_start insertCount header key sets
  have atEnd : Accounted sets header key target :=
    ran.preserved (fun accounted steps => accounted.step steps) start
  have nothing : pending target.call = [] := by
    rw [returned]
    rfl
  rw [atEnd.noLoss_iff_kept nothing, ran.last_iff (fun sound steps => sound.step steps)
    (fun sound steps => (effect_of_steps sound steps).kept_iff) start.toTargetSound]
  exact and_iff_right kept

end

/-- A Redis server with two records in one of its sets. -/
def twoRecords : Bytes → List Bytes :=
  Function.update (fun _ => []) (bytes "K") [bytes "KDEp", bytes "KDIp"]

/-- Both records go into one statement, and none is lost when it succeeds. -/
theorem noLoss_two_records :
    ∃ trace last, (targetMachine 100 (bytes "INSERT INTO t VALUES") (bytes "K") twoRecords).Run
        (targetMachine 100 (bytes "INSERT INTO t VALUES") (bytes "K") twoRecords).init
          trace last ∧
      last.stores.statements.map Statement.text = [bytes "INSERT INTO t VALUES(1),(2)"] ∧
      (targetMachine 100 (bytes "INSERT INTO t VALUES") (bytes "K") twoRecords).Throughout
        (Keeps (bytes "INSERT INTO t VALUES") (bytes "K"))
        (targetMachine 100 (bytes "INSERT INTO t VALUES") (bytes "K") twoRecords).init trace := by
  obtain ⟨trace, last, ran, -, facts⟩ := Machine.run_of_exec_any
    (fun last : Target => decide (last.call = .inr (bytes "INSERT INTO t VALUES") ∧
      last.stores.statements.map Statement.text = [bytes "INSERT INTO t VALUES(1),(2)"] ∧
      last.stores.added = [] ∧
      last.stores.sets (bytes "K") = [] ∧ last.stores.delivered = twoRecords (bytes "K")))
    (show ((targetMachine 100 (bytes "INSERT INTO t VALUES") (bytes "K") twoRecords).exec
        (targetMachine 100 (bytes "INSERT INTO t VALUES") (bytes "K") twoRecords).init
      [.scard connectedRedis true, .spop connectedRedis true (bytes "KDEp"),
        .spop connectedRedis true (bytes "KDIp"), .query connectedSql 0,
        .scard connectedRedis true]).any _ = true by
      decide +kernel)
  obtain ⟨returned, text, noneAdded, empty, delivered⟩ := of_decide_eq_true facts
  refine ⟨trace, last, ran, text, (proccessTargetKey_noLoss_iff ran returned).mp ?_⟩
  intro member
  rw [Stores.addedTo, noneAdded, empty, delivered]
  simp

/-- When the query fails, the records that were popped for it are neither in the set nor in a
statement that succeeded. -/
theorem failed_query_loses :
    ∃ trace last result,
      (targetMachine 100 (bytes "INSERT INTO t VALUES") (bytes "K") twoRecords).Run
          (targetMachine 100 (bytes "INSERT INTO t VALUES") (bytes "K") twoRecords).init
            trace last ∧
        last.call = .inr result ∧ ¬last.stores.NoLoss twoRecords (bytes "K") := by
  obtain ⟨trace, last, ran, -, facts⟩ := Machine.run_of_exec_any
    (fun last : Target => decide (last.call = .inr (bytes "INSERT INTO t VALUES") ∧
      last.stores.sets (bytes "K") = [] ∧ last.stores.delivered = []))
    (show ((targetMachine 100 (bytes "INSERT INTO t VALUES") (bytes "K") twoRecords).exec
        (targetMachine 100 (bytes "INSERT INTO t VALUES") (bytes "K") twoRecords).init
      [.scard connectedRedis true, .spop connectedRedis true (bytes "KDEp"),
        .spop connectedRedis true (bytes "KDIp"), .query connectedSql 1,
        .scard connectedRedis true]).any _ = true by
      decide +kernel)
  obtain ⟨returned, empty, delivered⟩ := of_decide_eq_true facts
  refine ⟨trace, last, (bytes "INSERT INTO t VALUES"), ran, returned, fun noLoss => ?_⟩
  have first := noLoss (bytes "KDEp")
  have listed : (twoRecords (bytes "K")).count (bytes "KDEp") = 1 := by decide +kernel
  rw [empty, delivered, listed, List.count_nil] at first
  omega

end NetServer
