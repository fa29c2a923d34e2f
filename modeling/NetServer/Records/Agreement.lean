import NetServer.Mysql.Statements
import NetServer.Records.Cap
import NetServer.Records.Headers

/-!
# The records that the producers make and the statements of a call

A producer puts the text of a function of `CUtilSql` into the queue of its kind, and
`ProccessTargetKey` puts the header of the kind in front of the texts that it pops. Two of the
functions have put the header in front of their text already, so the statements of these two kinds
have it twice (`header_twice`). The other three make tuples, and the statements are inserts of
tuples (`isInsert_of_records`).
-/

namespace NetServer

open Lib

/-- The kinds of inserts. -/
inductive InsertKind where
  | logEsign
  | logSignverify
  | logSignrevoke
  | logProduceeseal
  | eseal
  deriving DecidableEq, Repr

namespace InsertKind

/-- The position of a kind in `m_keyList`. -/
def index : InsertKind → Nat
  | logEsign => 0
  | logSignverify => 1
  | logSignrevoke => 2
  | logProduceeseal => 3
  | eseal => 4

/-- The key of a kind. -/
def key (areaCode : Bytes) (kind : InsertKind) : Bytes := (onKeysInit areaCode).getD kind.index []

/-- The header of a kind. -/
def header (kind : InsertKind) : Bytes := kindHeader kind.index

/-- The function that makes a record of a kind. -/
def call (objRequest : ComProtocol) (uu : Fin 16 → UInt8) : InsertKind → SqlCall
  | logEsign => .insertLogESign objRequest uu
  | logSignverify => .insertLogSignVerify objRequest uu
  | logSignrevoke => .insertLogSignRevoke objRequest uu
  | logProduceeseal => .insertLogProduceEseal objRequest uu
  | eseal => .insertESeal objRequest

/-- The format of the tuples of a kind. -/
def format : InsertKind → SqlFormat
  | logEsign => logEsignFormat
  | logSignverify => logSignverifyFormat
  | logSignrevoke => logSignrevokeFormat
  | logProduceeseal => logProduceesealEsealFormat
  | eseal => insertEsealFormat

/-- Whether the function of a kind makes a tuple, without a header. -/
def MakesTuple (kind : InsertKind) : Prop :=
  kind = logEsign ∨ kind = logSignverify ∨ kind = logSignrevoke

/-- A tuple of a kind: it is printed with the format of the kind, and it is in parentheses. -/
structure IsTuple (kind : InsertKind) (text : Bytes) : Prop where
  printed : ∃ args, sprintf kind.format.text args = some text
  parentheses : ∃ body, text = bytes "(" ++ body ++ bytes ")"

/-- The header of a kind once, and tuples behind it with commas between them. -/
def IsInsert (kind : InsertKind) (text : Bytes) : Prop :=
  ∃ tuples, tuples ≠ [] ∧ (∀ tuple ∈ tuples, kind.IsTuple tuple) ∧
    text = kind.header ++ (bytes ",").intercalate tuples

/-- What a producer puts into the queue of a kind for a request. -/
def Makes (kind : InsertKind) (request : ComProtocol × (Fin 16 → UInt8)) (member : Bytes) : Prop :=
  ∃ text, (kind.call request.1 request.2).made = .ok text ∧ member = Base64.encode text

/-- A queue of a kind that holds the records of some requests. -/
structure Queued (kind : InsertKind) (requests : List (ComProtocol × (Fin 16 → UInt8)))
    (members : List Bytes) : Prop where
  some : requests ≠ []
  holds : ∀ request ∈ requests, ∃ member ∈ members, kind.Makes request member
  only : ∀ member ∈ members, ∃ request ∈ requests, kind.Makes request member

/-! ## Texts of records -/

/-- What the function of a kind puts in front of its tuple. -/
def front (kind : InsertKind) : Bytes := (kind.call ⟨[], fun _ => []⟩ fun _ => 0).header

variable {kind : InsertKind}

/-- It does not depend on the request, and neither does the format. -/
theorem call_eq (request : ComProtocol × (Fin 16 → UInt8)) :
    (kind.call request.1 request.2).header = kind.front ∧ (kind.call request.1 request.2).format =
      kind.format := by
  cases kind <;> exact ⟨rfl, rfl⟩

/-- Nothing is in front of a tuple, or the header of the kind. -/
theorem front_eq (kind : InsertKind) :
    kind.MakesTuple ∧ kind.front = [] ∨ ¬kind.MakesTuple ∧ kind.front = kind.header := by
  unfold MakesTuple
  cases kind with
  | logEsign | logSignverify | logSignrevoke => exact .inl ⟨by simp, rfl⟩
  | logProduceeseal | eseal =>
    refine .inr ⟨by simp, ?_⟩
    simp only [front, call, SqlCall.header, header, index, kindHeader, getSqlHeader]

/-- The ends and the length of the formats. -/
theorem format_ends (kind : InsertKind) : kind.format.text.head? = some 40 ∧
    kind.format.text.tail.getLast? = some 41 ∧ kind.format.text.length ≤ 500 := by
  cases kind
  case' logEsign => rw [format, logEsignFormat, SqlFormat.ofText]
  case' logSignverify => rw [format, logSignverifyFormat, SqlFormat.ofText]
  case' logSignrevoke => rw [format, logSignrevokeFormat, SqlFormat.ofText]
  case' logProduceeseal => rw [format, logProduceesealEsealFormat, SqlFormat.ofText]
  case' eseal => rw [format, insertEsealFormat, SqlFormat.ofText]
  all_goals
    simp only [List.flatMap_cons, List.flatMap_nil]
    repeat rw [bytes_ofList]
    decide +kernel

/-- Every kind has one of the five indices. -/
theorem index_lt (kind : InsertKind) : kind.index < 5 := by
  cases kind <;> decide

/-- All formats are in parentheses. -/
theorem format_enclosed (kind : InsertKind) :
    ∃ inner, kind.format.text = 40 :: (inner ++ [41]) := by
  obtain ⟨starts, ends, -⟩ := kind.format_ends
  obtain ⟨tail, isTail⟩ := List.head?_eq_some_iff.mp starts
  rw [isTail, List.tail_cons] at ends
  obtain ⟨inner, isInner⟩ := List.getLast?_eq_some_iff.mp ends
  exact ⟨inner, by rw [isTail, isInner]⟩

/-- The text of a record is a tuple behind what the function puts in front of it. -/
theorem Makes.text {request : ComProtocol × (Fin 16 → UInt8)} {member : Bytes}
    (made : kind.Makes request member) :
    ∃ tuple, kind.IsTuple tuple ∧ 0 ∉ tuple ∧ HasText member ∧
      recordText member = kind.front ++ tuple := by
  obtain ⟨text, made, rfl⟩ := made
  obtain ⟨isText, fits⟩ := SqlCall.made_ok_iff.mp made
  obtain ⟨isFront, isFormat⟩ := kind.call_eq request
  have given := (kind.call request.1 request.2).arity_eq
  have noZero :=
    SqlFormat.zero_not_mem_filled _ given (kind.call request.1 request.2).zero_not_mem_args
  rw [isFront, isFormat] at isText
  rw [isFormat] at given fits noZero
  obtain ⟨inner, around⟩ := kind.format_enclosed
  obtain ⟨body, isBody⟩ := kind.format.enclosed around (by decide) (by decide) given
  have isTuple : kind.IsTuple (render (kind.format.filled (kind.call request.1 request.2).args)) :=
    ⟨⟨_, kind.format.sprintf_text given⟩, body, isBody⟩
  have some : text ≠ [] := by
    rw [isText, isBody]
    exact List.append_ne_nil_of_right_ne_nil _ (List.cons_ne_nil _ _)
  have short : (Base64.encode text).length < 2 ^ 31 := by
    have small : kind.front.length ≤ 1000 := by
      rcases kind.front_eq with ⟨-, none⟩ | ⟨-, twice⟩
      · rw [none]
        exact Nat.zero_le _
      · rw [twice]
        exact (kindHeader_text kind.index_lt).2.1
    have longest := Base64.length_encode_le text
    have length := congrArg List.length isText
    rw [List.length_append] at length
    omega
  have read := recordFromRedis_encode (show connectedRedis.pRedisContext = true from rfl) some short
  exact ⟨_, isTuple, noZero, hasText_encode some short,
    (recordFromRedis_member read).symm.trans isText⟩

end InsertKind

/-! ## Statements of a call -/

section

variable {insertCount : Int} {header key : Bytes} {sets : Bytes → List Bytes} {target next : Target}
  {event : RecordEvent} {answer : Unit}

/-- A statement is the header and the texts of its records, of which there are some. -/
def Statement.Carries (header : Bytes) (statement : Statement) : Prop :=
  statement.members ≠ [] ∧
    statement.text = cString (header ++ (bytes ",").intercalate (statement.members.map recordText))

/-- Every step keeps this. -/
theorem carries_step (named : header ≠ []) (sound : TargetSound header key target)
    (carry : ∀ statement ∈ target.stores.statements, statement.Carries header)
    (steps : (targetMachine insertCount header key sets).Steps target event answer next) :
    ∀ statement ∈ next.stores.statements, statement.Carries header := by
  rcases target_cases steps with ⟨key', member, -, rfl⟩ | ⟨call, inside, does⟩
  · dsimp only
    rw [(target.stores.sadd_same key' member).1]
    exact carry
  obtain ⟨stores, point⟩ := target
  cases inside
  obtain ⟨after, outcome⟩ := next
  have callSound := sound.call
  cases does with
  | updateNothing | updateDropped | updateTaken => exact absurd callSound.2 named
  | updateDone => exact absurd callSound.2.1 named
  | counted | popNothing | popDropped | popTaken => exact carry
  | @executed batch client result =>
    intro statement executed
    rcases List.mem_append.mp executed with before | isNew
    · exact carry statement before
    · rw [List.mem_singleton.mp isNew]
      refine ⟨fun none => callSound.2 (List.map_eq_nil_iff.mp none), ?_⟩
      dsimp only
      rw [callSound.1.sql, Batch.texts, Statement.members, List.map_map]
      rfl

/-- A call with its account, whose statements carry their records. -/
structure Carrying (sets : Bytes → List Bytes) (header key : Bytes) (target : Target) : Prop
    extends Accounted sets header key target where
  carry : ∀ statement ∈ target.stores.statements, statement.Carries header

/-- The statements of a run are the header and the texts of records that were in the set or were
added to it. -/
theorem statements_carry (named : header ≠ []) {trace : List (RecordEvent × Unit)}
    (ran : (targetMachine insertCount header key sets).Run
      (targetMachine insertCount header key sets).init trace
      target) {statement : Statement} (executed : statement ∈ target.stores.statements) :
    statement.Carries header ∧ ∀ member ∈ statement.members,
      member ∈ sets key ++ target.stores.addedTo key := by
  have start : Carrying sets header key (targetMachine insertCount header key sets).init :=
    ⟨(target_start insertCount header key sets).1, fun statement executed => (nomatch executed)⟩
  have carrying : Carrying sets header key target := ran.preserved (fun carrying steps =>
    ⟨carrying.toAccounted.step steps,
      carries_step named carrying.toTargetSound carrying.carry steps⟩) start
  refine ⟨carrying.carry statement executed, fun member listed => ?_⟩
  have attempted : member ∈ target.stores.attempted :=
    List.mem_flatMap.mpr ⟨statement, executed, listed⟩
  have whole := carrying.balanced member
  have positive := List.count_pos_iff.mpr attempted
  rw [← List.count_pos_iff, List.count_append]
  omega

/-- No step of a call adds a record. -/
theorem TargetCall.Does.added {stores after : Stores} {call : TargetCall}
    {outcome : TargetCall ⊕ Bytes} (does : TargetCall.Does stores call event after outcome) :
    after.added = stores.added := by
  cases does <;> rfl

/-- No record was added. -/
def NothingAdded (target : Target) : Prop := target.stores.added = []

/-- Records are only added. -/
theorem nothingAdded_of_steps
    (steps : (targetMachine insertCount header key sets).Steps target event answer next)
    (none : NothingAdded next) : NothingAdded target := by
  unfold NothingAdded at none ⊢
  rcases target_cases steps with ⟨key', member, -, rfl⟩ | ⟨call, -, does⟩
  · dsimp only at none
    unfold Stores.sadd at none
    split_ifs at none
    · exact none
    · exact absurd none (List.append_ne_nil_of_right_ne_nil _ (List.cons_ne_nil _ _))
  · rw [← does.added, none]

/-- A run that is served adds no records. -/
theorem ServedRun.nothingAdded {trace : List (RecordEvent × Unit)}
    (ran : ServedRun insertCount header key sets trace target) : NothingAdded target := by
  have start : NothingAdded (targetMachine insertCount header key sets).init := rfl
  refine ran.1.preserved_throughout (fun {target event answer next} none served steps => ?_)
    (ran.1.throughout_events.mpr ran.2) start
  rcases target_cases steps with ⟨key', member, rfl, -⟩ | ⟨call, -, does⟩
  · exact absurd served (fun never => never)
  · exact does.added.trans none

/-- As long as no record is added, a call counts the records of the set as it was, or it has
returned. -/
def CountsNothing (insertCount : Int) (sets : Bytes → List Bytes) (header key : Bytes)
    (target : Target) : Prop :=
  NothingAdded target → target.stores.statements = [] ∧ target.stores.sets key = sets key ∧
    (target.call = .inl (.count (.start insertCount header key)) ∨ ∃ sql, target.call = .inr sql)

/-- A call that counts no records goes on to return. -/
theorem CountsNothing.step (few : toInt (sets key).length ≤ 0)
    (nothing : CountsNothing insertCount sets header key target)
    (steps : (targetMachine insertCount header key sets).Steps target event answer next) :
    CountsNothing insertCount sets header key next := by
  intro none
  obtain ⟨statements, content, point⟩ := nothing (nothingAdded_of_steps steps none)
  unfold NothingAdded at none
  rcases target_cases steps with ⟨key', member, -, rfl⟩ | ⟨call, inside, does⟩
  · have same : target.stores.sadd key' member = target.stores := by
      dsimp only at none
      unfold Stores.sadd at none ⊢
      split_ifs at none ⊢
      · rfl
      · exact absurd none (List.append_ne_nil_of_right_ne_nil _ (List.cons_ne_nil _ _))
    rw [same]
    exact ⟨statements, content, point⟩
  · rcases point with counting | ⟨sql, returned⟩
    · rw [counting] at inside
      cases inside
      obtain ⟨stores, outcome⟩ := target
      obtain ⟨after, next⟩ := next
      cases does with
      | @counted batch client answered iCount =>
        obtain ⟨iCount', counted, isNext⟩ := counted_of_steps counting steps
        rw [Target.mk.injEq] at isNext
        have strInKey : (Batch.start insertCount header key).strInKey = key := rfl
        rw [strInKey] at counted
        have nothing : iCount' ≤ 0 := by
          rcases getRedisCount_cases counted with whole | none
          · rw [whole, content]
            exact few
          · exact Int.le_of_eq none
        have empty : ¬(Batch.start insertCount header key).redisCount > 0 := Int.lt_irrefl 0
        rcases Batch.onCount_cases iCount' empty with ⟨some, -⟩ | ⟨-, returns⟩
        · omega
        · exact ⟨statements, content, .inr ⟨_, isNext.2.trans returns⟩⟩
    · rw [returned] at inside
      cases inside

/-- A call that counts no records executes nothing. -/
theorem statements_of_no_count (named : header ≠ []) (keyed : key ≠ [])
    (few : toInt (sets key).length ≤ 0) {trace : List (RecordEvent × Unit)}
    (ran : (targetMachine insertCount header key sets).Run
      (targetMachine insertCount header key sets).init trace
      target) (none : NothingAdded target) : target.stores.statements = [] := by
  have start :
      CountsNothing insertCount sets header key (targetMachine insertCount header key sets).init :=
    fun _ => ⟨rfl, rfl, .inl (proccessTargetKey_named named keyed)⟩
  have nothing : CountsNothing insertCount sets header key target :=
    ran.preserved (fun nothing steps => nothing.step few steps) start
  exact (nothing none).1

end

/-! ## Statements of a kind -/

namespace InsertKind

variable {kind : InsertKind} {areaCode : Bytes} {insertCount : Int} {sets : Bytes → List Bytes}
  {target : Target} {requests : List (ComProtocol × (Fin 16 → UInt8))}

/-- No kind has an empty queue name. -/
theorem key_ne_nil (areaCode : Bytes) (kind : InsertKind) : kind.key areaCode ≠ [] := by
  cases kind <;> exact List.append_ne_nil_of_right_ne_nil _ (by decide)

/-- No kind has an empty statement header. -/
theorem header_ne_nil (kind : InsertKind) : kind.header ≠ [] :=
  kindHeader_ne_nil kind.index kind.index_lt

/-- No statement header holds a NUL. -/
theorem zero_not_mem_header (kind : InsertKind) : 0 ∉ kind.header := kindHeader_clean kind.index_lt

/-- A text that a producer made has no null. -/
theorem Makes.zero_not_mem {request : ComProtocol × (Fin 16 → UInt8)} {member : Bytes}
    (made : kind.Makes request member) : 0 ∉ recordText member := by
  obtain ⟨tuple, -, noZero, -, isText⟩ := made.text
  rw [isText, List.mem_append, not_or]
  refine ⟨?_, noZero⟩
  rcases kind.front_eq with ⟨-, none⟩ | ⟨-, twice⟩
  · rw [none]
    exact List.not_mem_nil
  · rw [twice]
    exact kind.zero_not_mem_header

/-- A record that a producer made can be inserted. -/
theorem Makes.insertable {request : ComProtocol × (Fin 16 → UInt8)} {member : Bytes}
    (made : kind.Makes request member) : Insertable kind.header member := by
  obtain ⟨-, -, -, ⟨text, decoded, -⟩, -⟩ := made.text
  have isText : recordText member = text := by
    rw [recordText, decoded]
    rfl
  exact ⟨text, decoded, fun _ => ⟨kind.zero_not_mem_header, isText ▸ made.zero_not_mem⟩⟩

/-- The records of a queue are made by producers. -/
theorem Queued.makes {members : List Bytes} (queued : kind.Queued requests members) :
    ∀ member ∈ members, ∃ request, kind.Makes request member := by
  intro member listed
  obtain ⟨request, -, made⟩ := queued.only member listed
  exact ⟨request, made⟩

/-- The statements for records that producers made are their texts behind the header. -/
theorem text_of_records
    (made : ∀ member ∈ sets (kind.key areaCode) ++ target.stores.addedTo (kind.key areaCode),
      ∃ request, kind.Makes request member) {trace : List (RecordEvent × Unit)}
    (ran : (targetMachine insertCount kind.header (kind.key areaCode) sets).Run
      (targetMachine insertCount kind.header (kind.key areaCode) sets).init trace target)
    {statement : Statement} (executed : statement ∈ target.stores.statements) :
    ∃ members, members ≠ [] ∧ (∀ member ∈ members, ∃ request, kind.Makes request member) ∧
      statement.text = kind.header ++ (bytes ",").intercalate (members.map recordText) := by
  obtain ⟨⟨some, isText⟩, offered⟩ := statements_carry kind.header_ne_nil ran executed
  have made' (member : Bytes) (listed : member ∈ statement.members) :=
    made member (offered member listed)
  refine ⟨statement.members, some, made', ?_⟩
  rw [isText, cString_eq_self, List.mem_append, not_or, zero_not_mem_intercalate,
    List.forall_mem_map]
  refine ⟨kind.zero_not_mem_header, fun member listed => ?_⟩
  obtain ⟨request, made⟩ := made' member listed
  exact made.zero_not_mem

/-- Tuples behind the header are an insert. -/
theorem isInsert_of_records (tuples : kind.MakesTuple)
    (made : ∀ member ∈ sets (kind.key areaCode) ++ target.stores.addedTo (kind.key areaCode),
      ∃ request, kind.Makes request member) {trace : List (RecordEvent × Unit)}
    (ran : (targetMachine insertCount kind.header (kind.key areaCode) sets).Run
      (targetMachine insertCount kind.header (kind.key areaCode) sets).init trace target) :
    ∀ statement ∈ target.stores.statements, kind.IsInsert statement.text := by
  intro statement executed
  obtain ⟨members, some, made, isText⟩ := text_of_records made ran executed
  refine ⟨members.map recordText, fun none => some (List.map_eq_nil_iff.mp none), ?_, isText⟩
  rw [List.forall_mem_map]
  intro member listed
  obtain ⟨request, made⟩ := made member listed
  obtain ⟨tuple, isTuple, -, -, isTuple'⟩ := made.text
  have none : kind.front = [] := (kind.front_eq.resolve_right fun other => other.1 tuples).2
  rw [isTuple', none, List.nil_append]
  exact isTuple

/-- The first of some texts with separators between them is in front. -/
theorem exists_intercalate_cons (separator first : Bytes) (texts : List Bytes) :
    ∃ rest, separator.intercalate (first :: texts) = first ++ rest := by
  cases texts with
  | nil => exact ⟨[], by rw [List.intercalate_singleton, List.append_nil]⟩
  | cons second texts => exact ⟨_, List.intercalate_cons_cons.trans (List.append_assoc _ _ _)⟩

/-- A header does not start like a tuple. -/
theorem not_isInsert_of_twice {rest : Bytes} :
    ¬kind.IsInsert (kind.header ++ (kind.header ++ rest)) := by
  rintro ⟨tuples, some, areTuples, same⟩
  obtain ⟨tuple, tuples, rfl⟩ := List.exists_cons_of_ne_nil some
  obtain ⟨body, isTuple⟩ := (areTuples tuple List.mem_cons_self).parentheses
  obtain ⟨behind, isFirst⟩ := exists_intercalate_cons (bytes ",") tuple tuples
  have letter : kind.header.head? = .some 73 := (kindHeader_text kind.index_lt).1
  have parenthesis : bytes "(" = [40] := by decide
  have first := congrArg List.head? (List.append_cancel_left same)
  rw [List.head?_append, letter, isFirst, isTuple, parenthesis] at first
  exact absurd (Option.some.inj first) (by decide)

/-- The queue of a kind whose function writes the header too: a statement has it twice. -/
theorem header_twice (twice : ¬kind.MakesTuple)
    (queued : kind.Queued requests (sets (kind.key areaCode)))
    (counted : 0 < toInt (sets (kind.key areaCode)).length) (insertCount : Int) :
    ∃ trace target statement rest,
      (targetMachine insertCount kind.header (kind.key areaCode) sets).Run
        (targetMachine insertCount kind.header (kind.key areaCode) sets).init trace target ∧
      NothingAdded target ∧ statement ∈ target.stores.statements ∧
      statement.text = kind.header ++ (kind.header ++ rest) := by
  have insertable : ∀ member ∈ sets (kind.key areaCode), Insertable kind.header member := by
    intro member listed
    obtain ⟨request, made⟩ := queued.makes member listed
    exact made.insertable
  have assembles : AssemblesStatements insertCount kind.header (kind.key areaCode) sets :=
    (tidy_start (fun _ _ => insertable) kind.header_ne_nil).assembles kind.header_ne_nil
  -- A record of the first request is popped and executed.
  obtain ⟨request, isFirst⟩ := List.exists_mem_of_ne_nil _ queued.some
  obtain ⟨member, listed, isMade⟩ := queued.holds request isFirst
  obtain ⟨text, decoded, executes⟩ :=
    assembles.executes kind.header_ne_nil (kind.key_ne_nil areaCode) counted listed
  obtain ⟨-, -, -, ⟨text', decoded', some⟩, -⟩ := isMade.text
  obtain rfl : text = text' := Except.ok.inj (decoded.symm.trans decoded')
  obtain ⟨trace, target, statement, group, ran, executed, -, -⟩ := executes some
  -- All records of the statement have the header in front.
  have none : target.stores.addedTo (kind.key areaCode) = [] := by
    rw [Stores.addedTo, ran.nothingAdded]
    rfl
  have isMadeAll : ∀ member ∈ sets (kind.key areaCode) ++ target.stores.addedTo (kind.key areaCode),
      ∃ request, kind.Makes request member := by
    rw [none, List.append_nil]
    exact queued.makes
  obtain ⟨members, some', made', isText⟩ :=
    @text_of_records kind areaCode insertCount sets target isMadeAll trace ran.1 statement executed
  obtain ⟨first, members, rfl⟩ := List.exists_cons_of_ne_nil some'
  obtain ⟨request', made''⟩ := made' first List.mem_cons_self
  obtain ⟨tuple, -, -, -, isTuple⟩ := made''.text
  obtain ⟨rest, isRest⟩ :=
    exists_intercalate_cons (bytes ",") (recordText first) (members.map recordText)
  have front : kind.front = kind.header := (kind.front_eq.resolve_left fun other => twice other.1).2
  refine ⟨trace, target, statement, tuple ++ rest, ran.1, ran.nothingAdded, executed, ?_⟩
  rw [isText, List.map_cons, isRest, isTuple, front, List.append_assoc]

end InsertKind

/-- For each kind of inserts, every area code and every queue that holds the records of some
requests: all statements of all runs of a call, while no records are added, are inserts with the
header once exactly when the function of the kind makes a tuple without the header, or when the
count of the records is no positive `int`, and nothing is executed. -/
theorem record_formats_agree_iff (kind : InsertKind) (areaCode : Bytes) (insertCount : Int)
    {requests : List (ComProtocol × (Fin 16 → UInt8))} {sets : Bytes → List Bytes}
    (queued : kind.Queued requests (sets (kind.key areaCode))) :
    (∀ trace target, (targetMachine insertCount kind.header (kind.key areaCode) sets).Run
        (targetMachine insertCount kind.header (kind.key areaCode) sets).init trace target →
      NothingAdded target → ∀ statement ∈ target.stores.statements, kind.IsInsert statement.text) ↔
      kind.MakesTuple ∨ toInt (sets (kind.key areaCode)).length ≤ 0 := by
  constructor
  · intro inserts
    by_contra neither
    obtain ⟨twice, counted⟩ := not_or.mp neither
    obtain ⟨trace, target, statement, rest, ran, none, executed, isText⟩ :=
      InsertKind.header_twice twice queued (Int.not_le.mp counted) insertCount
    have insert := inserts trace target ran none statement executed
    rw [isText] at insert
    exact InsertKind.not_isInsert_of_twice insert
  · rintro (tuples | few) trace target ran none
    · refine InsertKind.isInsert_of_records tuples (fun member listed => ?_) ran
      have nothing : target.stores.addedTo (kind.key areaCode) = [] := by
        rw [Stores.addedTo, none]
        rfl
      rw [nothing, List.append_nil] at listed
      exact queued.makes member listed
    · rw [statements_of_no_count kind.header_ne_nil (kind.key_ne_nil areaCode) few ran none]
      exact fun statement executed => absurd executed List.not_mem_nil

/-- A request without parameters. -/
def emptyRequest : ComProtocol × (Fin 16 → UInt8) := (⟨[], fun _ => []⟩, fun _ => 0)

/-- The record of the request without parameters. -/
def emptyRecord (kind : InsertKind) : Bytes :=
  Base64.encode (kind.front ++
    render (kind.format.filled (kind.call emptyRequest.1 emptyRequest.2).args))

/-- A Redis server with that record in the queue of its kind. -/
def emptyQueue (kind : InsertKind) : Bytes → List Bytes :=
  Function.update (fun _ => []) (kind.key (bytes "4401")) [emptyRecord kind]

/-- The queue holds the record of the request. -/
theorem queued_emptyQueue (kind : InsertKind) :
    kind.Queued [emptyRequest] (emptyQueue kind (kind.key (bytes "4401"))) := by
  have content : emptyQueue kind (kind.key (bytes "4401")) = [emptyRecord kind] :=
    Function.update_self ..
  have makes : kind.Makes emptyRequest (emptyRecord kind) := by
    refine ⟨_, SqlCall.made_ok_iff.mpr ⟨rfl, ?_⟩, ?_⟩
    · have given := (kind.call emptyRequest.1 emptyRequest.2).arity_eq
      have few : ((kind.call emptyRequest.1 emptyRequest.2).args.map List.length).sum ≤ 100 := by
        cases kind <;> decide +kernel
      have short := kind.format_ends.2.2
      rw [SqlFormat.length_filled _ given, (kind.call_eq emptyRequest).2, SqlFormat.fixed]
      omega
    · rw [emptyRecord, (kind.call_eq emptyRequest).1, (kind.call_eq emptyRequest).2]
  rw [content]
  refine ⟨List.cons_ne_nil _ _, ?_, ?_⟩
  · intro request listed
    rw [List.mem_singleton.mp listed]
    exact ⟨emptyRecord kind, List.mem_singleton_self _, makes⟩
  · intro member listed
    rw [List.mem_singleton.mp listed]
    exact ⟨emptyRequest, List.mem_singleton_self _, makes⟩

/-- The record of a signature. -/
theorem record_formats_agree_esign :
    InsertKind.logEsign.Queued [emptyRequest]
      (emptyQueue .logEsign (InsertKind.logEsign.key (bytes "4401"))) ∧
      ∀ trace target,
      (targetMachine 100 InsertKind.logEsign.header (InsertKind.logEsign.key (bytes "4401"))
            (emptyQueue .logEsign)).Run
          (targetMachine 100 InsertKind.logEsign.header (InsertKind.logEsign.key (bytes "4401"))
            (emptyQueue .logEsign)).init trace target →
        NothingAdded target → ∀ statement ∈ target.stores.statements,
        InsertKind.logEsign.IsInsert statement.text :=
  ⟨queued_emptyQueue .logEsign,
    (record_formats_agree_iff .logEsign (bytes "4401") 100 (queued_emptyQueue .logEsign)).mpr
      (.inl (.inl rfl))⟩

/-- The record of a seal is executed behind its header twice. -/
theorem seal_record_has_header_twice :
    ∃ trace target statement rest,
      (targetMachine 100 insertEseal (bytes "4401_INSERT_ESEAL") (emptyQueue .eseal)).Run
          (targetMachine 100 insertEseal (bytes "4401_INSERT_ESEAL") (emptyQueue .eseal)).init
            trace target ∧
        InsertKind.eseal.Queued [emptyRequest] (emptyQueue .eseal (bytes "4401_INSERT_ESEAL")) ∧
        NothingAdded target ∧ statement ∈ target.stores.statements ∧
        statement.text = insertEseal ++ (insertEseal ++ rest) ∧
        ¬InsertKind.eseal.IsInsert statement.text := by
  have isKey : InsertKind.eseal.key (bytes "4401") = bytes "4401_INSERT_ESEAL" := by decide
  have queued := queued_emptyQueue .eseal
  have content : emptyQueue .eseal (InsertKind.eseal.key (bytes "4401")) = [emptyRecord .eseal] :=
    Function.update_self ..
  have counted : 0 < toInt (emptyQueue .eseal (InsertKind.eseal.key (bytes "4401"))).length := by
    rw [content]
    decide
  obtain ⟨trace, target, statement, rest, ran, none, executed, isText⟩ :=
    InsertKind.header_twice (show ¬InsertKind.eseal.MakesTuple by simp [InsertKind.MakesTuple])
      queued counted 100
  have notInsert : ¬InsertKind.eseal.IsInsert statement.text := by
    rw [isText]
    exact InsertKind.not_isInsert_of_twice
  rw [isKey] at ran queued
  exact ⟨trace, target, statement, rest, ran, queued, none, executed, isText, notInsert⟩

end NetServer
