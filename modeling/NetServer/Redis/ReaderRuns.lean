import NetServer.Lib.Machine
import NetServer.Redis.Refinement

/-!
# Whole runs of a reader

A user of a reader feeds it bytes as they arrive, takes replies from it, and frees the replies it
holds, in any order. `readerMachine` has all these runs. Behind every run the replies that were
returned lie in memory one behind the other, those that are still held as they were returned and the
others freed (`HasServed`), so

* the replies are those of the bytes in their order, however the bytes were cut into pieces
  (`readerMachine_replies`),
* the objects that are left when the reader is freed are those of the replies that are held
  (`readerMachine_memory`),
* nothing faults unless a count or the buffer is too large for an `int` (`readerMachine_safe`).
-/

namespace NetServer

open Lib ReplyState

/-! ## Replies that were returned -/

/-- A reply that was returned, and whether its user still holds it. -/
structure Returned where
  reply : ReplyTree
  held : Bool

namespace Returned

/-- Its objects, the first of them with the identity `base`. -/
def slots (base : Nat) (returned : Returned) : List (Option ReplyObject) :=
  if returned.held then
    live (returned.reply.layout base) else freed (returned.reply.layout base).length

/-- The objects of all replies that were returned, one behind the other. -/
def slotsOf (base : Nat) : List Returned → List (Option ReplyObject)
  | [] => []
  | returned :: others =>
    returned.slots base ++ slotsOf (base + (returned.reply.layout base).length) others

/-- The replies that are held, each with its identity. -/
def heldOf (base : Nat) : List Returned → List (Nat × Option ReplyTree)
  | [] => []
  | returned :: others =>
    let behind := heldOf (base + (returned.reply.layout base).length) others
    if returned.held then (base, some returned.reply) :: behind else behind

/-- A returned reply occupies as many blocks as it has objects. -/
theorem length_slots (base : Nat) (returned : Returned) :
    (returned.slots base).length = (returned.reply.layout base).length := by
  unfold slots
  split_ifs
  · exact length_live _
  · exact List.length_replicate

/-- The blocks of later replies start behind those of the earlier ones. -/
theorem slotsOf_append (base : Nat) (front back : List Returned) :
    slotsOf base (front ++ back) =
      slotsOf base front ++ slotsOf (base + (slotsOf base front).length) back := by
  induction front generalizing base with
  | nil => rfl
  | cons returned front ih =>
    rw [List.cons_append, slotsOf, slotsOf, ih, List.append_assoc, List.length_append, length_slots,
      Nat.add_assoc]

/-- The replies held of later calls start behind the blocks of the earlier ones. -/
theorem heldOf_append (base : Nat) (front back : List Returned) :
    heldOf base (front ++ back) =
      heldOf base front ++ heldOf (base + (slotsOf base front).length) back := by
  induction front generalizing base with
  | nil => rfl
  | cons returned front ih =>
    rw [List.cons_append, heldOf, heldOf, slotsOf, ih, List.length_append, length_slots,
      Nat.add_assoc]
    split_ifs
    · rfl
    · rfl

/-- The identities of the replies that are held lie in front of what was made later. -/
theorem lt_of_mem_heldOf {base id : Nat} {found : Option ReplyTree} {returned : List Returned}
    (isHeld : (id, found) ∈ heldOf base returned) : id < base + (slotsOf base returned).length := by
  induction returned generalizing base with
  | nil => exact absurd isHeld List.not_mem_nil
  | cons first others ih =>
    have nonempty := List.length_pos_iff.mpr (first.reply.layout_ne_nil base)
    have later (inOthers : (id, found) ∈ heldOf (base + (first.reply.layout base).length) others) :
        id < base + (slotsOf base (first :: others)).length := by
      have before := ih inOthers
      rw [slotsOf, List.length_append, length_slots]
      omega
    rw [heldOf] at isHeld
    split_ifs at isHeld
    · rw [List.mem_cons] at isHeld
      rcases isHeld with isFirst | inOthers
      · cases isFirst
        rw [slotsOf, List.length_append, length_slots]
        omega
      · exact later inOthers
    · exact later isHeld

/-- A reply that is held lies between those before and behind it. -/
theorem exists_of_mem_heldOf {base id : Nat} {found : Option ReplyTree} {returned : List Returned}
    (isHeld : (id, found) ∈ heldOf base returned) :
    ∃ front reply back, returned = front ++ ⟨reply, true⟩ :: back ∧
      id = base + (slotsOf base front).length ∧
      found = some reply := by
  induction returned generalizing base with
  | nil => exact absurd isHeld List.not_mem_nil
  | cons first others ih =>
    have later (inOthers : (id, found) ∈ heldOf (base + (first.reply.layout base).length) others) :
        ∃ front reply back, first :: others = front ++ ⟨reply, true⟩ :: back ∧
          id = base + (slotsOf base front).length ∧ found = some reply := by
      obtain ⟨front, reply, back, rfl, rfl, isFound⟩ := ih inOthers
      refine ⟨first :: front, reply, back, rfl, ?_, isFound⟩
      rw [slotsOf, List.length_append, length_slots, Nat.add_assoc]
    rw [heldOf] at isHeld
    split_ifs at isHeld with held
    · rw [List.mem_cons] at isHeld
      rcases isHeld with isFirst | inOthers
      · cases isFirst
        refine ⟨[], first.reply, others, ?_, rfl, rfl⟩
        rw [List.nil_append, ← held]
      · exact later inOthers
    · exact later isHeld

/-- The objects that are there are those of the replies that are held. -/
theorem reduceOption_slotsOf (base : Nat) (returned : List Returned) :
    (slotsOf base returned).reduceOption =
      (heldOf base returned).flatMap fun (id, found) =>
        (found.map (ReplyTree.layout id)).getD [] := by
  induction returned generalizing base with
  | nil => rfl
  | cons first others ih =>
    rw [slotsOf, heldOf, List.reduceOption_append, ih, slots]
    split_ifs
    · rw [List.flatMap_cons]
      congr 1
      change ((first.reply.layout base).map some).reduceOption = first.reply.layout base
      rw [List.reduceOption, List.filterMap_map]
      exact List.filterMap_some
    · rw [List.reduceOption_replicate_none]
      rfl

/-- A reply lies between those before and behind it. -/
theorem slotsOf_middle (front back : List Returned) (returned : Returned) :
    slotsOf 0 (front ++ returned :: back) =
      slotsOf 0 front ++ (returned.slots (slotsOf 0 front).length ++
      slotsOf ((slotsOf 0 front).length + (returned.reply.layout (slotsOf 0 front).length).length)
        back) := by
  rw [slotsOf_append, slotsOf, Nat.zero_add]

variable (front back : List Returned) (reply : ReplyTree)

/-- A reply takes its place whether it is held or not. -/
theorem length_slotsOf_middle :
    (slotsOf 0 (front ++ ⟨reply, false⟩ :: back)).length =
      (slotsOf 0 (front ++ ⟨reply, true⟩ :: back)).length := by
  simp only [slotsOf_middle, List.length_append, length_slots]

/-- Freeing a reply frees its objects. -/
theorem freeReplyObject_middle (tail : List (Option ReplyObject)) :
    freeReplyObject ⟨slotsOf 0 (front ++ ⟨reply, true⟩ :: back) ++ tail⟩ (slotsOf 0 front).length =
      .ok ⟨slotsOf 0 (front ++ ⟨reply, false⟩ :: back) ++ tail⟩ := by
  rw [slotsOf_middle, slotsOf_middle, List.append_assoc, List.append_assoc, List.append_assoc,
    List.append_assoc]
  exact freeReplyObject_layout _ _ reply

/-- A reply that is held is found. -/
theorem loadReply_middle (tail : List (Option ReplyObject)) :
    loadReply ⟨slotsOf 0 (front ++ ⟨reply, true⟩ :: back) ++ tail⟩ (slotsOf 0 front).length =
      some reply := by
  rw [slotsOf_middle, List.append_assoc, List.append_assoc]
  exact loadReply_layout _ _ reply

/-- A reply that is freed is not held any more. -/
theorem eraseP_heldOf :
    (heldOf 0 (front ++ ⟨reply, true⟩ :: back)).eraseP
      (fun entry => entry.1 = (slotsOf 0 front).length) =
        heldOf 0 (front ++ ⟨reply, false⟩ :: back) := by
  have others : ∀ entry ∈ heldOf 0 front, ¬decide (entry.1 = (slotsOf 0 front).length) := by
    intro entry listed same
    have before := lt_of_mem_heldOf listed
    rw [decide_eq_true_eq] at same
    omega
  rw [heldOf_append, heldOf_append, List.eraseP_append_right _ others, Nat.zero_add, heldOf, heldOf]
  exact congrArg _ (List.eraseP_cons_of_pos (decide_eq_true rfl))

end Returned

/-! ## The machine -/

/-- What the user of a reader does. -/
inductive ReaderEvent where
  | feed (buf : Bytes)
  | getReply
  | freeReply (reply : Nat)
  deriving DecidableEq, Repr

/-- What the user learns. A reply is looked at when it is returned. -/
inductive ReaderAnswer where
  | accepted
  | nothing
  | reply (reply : Nat) (found : Option ReplyTree)
  | failed
  | freed

/-- A reader and the replies that its user holds, as they were when they were returned. -/
structure ReaderUse where
  reader : RedisReader
  held : List (Nat × Option ReplyTree)

namespace ReaderUse

/-- The effect of an event. -/
def step (use : ReaderUse) : ReaderEvent → Except HiredisFault (ReaderUse × ReaderAnswer)
  | .feed buf => do
    let (ok, reader) ← use.reader.redisReaderFeed buf
    return ({ use with reader }, if ok then .accepted else .failed)
  | .getReply => do
    let (ok, reply, reader) ← use.reader.redisReaderGetReply
    if ¬ok then return ({ use with reader }, .failed)
    match reply with
    | none => return ({ use with reader }, .nothing)
    | some reply =>
      let found := loadReply reader.objects reply
      return (⟨reader, use.held ++ [(reply, found)]⟩, .reply reply found)
  | .freeReply reply => do
    let objects ← freeReplyObject use.reader.objects reply
    return (⟨{ use.reader with objects }, use.held.eraseP fun entry => entry.1 = reply⟩, .freed)

/-- Only replies that are held are freed. -/
def enabled (use : ReaderUse) : ReaderEvent → Bool
  | .feed _ | .getReply => true
  | .freeReply reply => use.held.any fun entry => entry.1 = reply

end ReaderUse

/-- All uses of a new reader. -/
def readerMachine : Machine ReaderUse ReaderEvent ReaderAnswer HiredisFault where
  init := ⟨.create .empty, []⟩
  enabled := ReaderUse.enabled
  step := ReaderUse.step

/-- The bytes that an event feeds. -/
def ReaderEvent.fed : ReaderEvent → Bytes
  | .feed buf => buf
  | .getReply | .freeReply _ => []

/-- The reply that an answer brings. -/
def ReaderAnswer.found : ReaderAnswer → List (Option ReplyTree)
  | .reply _ found => [found]
  | .accepted | .nothing | .failed | .freed => []

/-- All bytes that were fed. -/
def fedBytes (trace : List (ReaderEvent × ReaderAnswer)) : Bytes :=
  trace.flatMap fun (event, _) => event.fed

/-- The bytes fed depend on the events only. -/
theorem fedBytes_eq (trace : List (ReaderEvent × ReaderAnswer)) :
    fedBytes trace = (trace.map Prod.fst).flatMap ReaderEvent.fed := by
  rw [List.flatMap_map]
  rfl

/-- All replies that were returned. -/
def foundReplies (trace : List (ReaderEvent × ReaderAnswer)) : List (Option ReplyTree) :=
  trace.flatMap fun (_, answer) => answer.found

/-! ## What every step keeps -/

/-- A reader behind some bytes: it has returned the replies in them up to a place from which it goes
on, or it has returned all of them and given up. -/
def HasServed (fed : Bytes) (returned : List Returned) (use : ReaderUse) : Prop :=
  use.held = Returned.heldOf 0 returned ∧
  ((∃ state input, Reads (Returned.slotsOf 0 returned) use.reader state input ∧
    input.length ≤ fed.length ∧
      replyReader.run start fed =
        Incremental.behind (returned.map Returned.reply) (replyReader.run state input)) ∨
    ∃ errstr, Failed (Returned.slotsOf 0 returned) use.reader errstr ∧
      replyReader.run start fed = (returned.map Returned.reply, .error (.error errstr)))

/-- What an answer tells about the place that the bytes lead to, when some replies were returned:
behind all of them the reader waits, or it has given up. -/
def ReaderAnswer.Tells (replies : List ReplyTree)
    (reached : List ReplyTree × Except ReplyStop (ReplyState × Bytes)) : ReaderAnswer → Prop
  | .nothing => ∃ waiting, reached = (replies, .ok waiting)
  | .failed => ∃ errstr, reached = (replies, .error (.error errstr))
  | .accepted | .reply _ _ | .freed => True

/-- What a step may do: fault when a count or a buffer is too large, or serve. -/
def Continues (fed : Bytes) (returned : List Returned) (event : ReaderEvent)
    (result : Except HiredisFault (ReaderUse × ReaderAnswer)) : Prop :=
  match result with
  | .ok (use, answer) => ∃ returned', HasServed (fed ++ event.fed) returned' use ∧
      returned'.map (fun item => some item.reply) = returned.map (fun item => some item.reply) ++
      answer.found ∧
      answer.Tells (returned'.map Returned.reply) (replyReader.run start (fed ++ event.fed))
  | .error _ => (∃ fault, (replyReader.run start fed).2 = .error (.fault fault)) ∨
      2 ^ 30 ≤ 1024 + fed.length + event.fed.length

variable {fed : Bytes} {returned : List Returned} {use : ReaderUse}

/-- A new reader has served nothing. -/
theorem hasServed_init : HasServed [] [] readerMachine.init :=
  ⟨rfl, .inl ⟨start, [], reads_create [], Nat.le_refl 0, rfl⟩⟩

/-- More bytes are fed. -/
theorem HasServed.feed (serves : HasServed fed returned use) (buf : Bytes) :
    Continues fed returned (.feed buf) (use.step (.feed buf)) := by
  obtain ⟨held, ⟨state, input, reads, shorter, ran⟩ | ⟨errstr, failed, ran⟩⟩ := serves
  · rcases redisReaderFeed_spec reads buf with ⟨reader, fedOk, reads'⟩ | ⟨overflow, long⟩
    · rw [ReaderUse.step, fedOk]
      refine ⟨returned,
        ⟨held, .inl ⟨state, input ++ buf, reads', ?_, Incremental.run_behind_append ran buf⟩⟩,
        (List.append_nil _).symm, trivial⟩
      change (input ++ buf).length ≤ (fed ++ buf).length
      rw [List.length_append, List.length_append]
      omega
    · rw [ReaderUse.step, overflow]
      refine .inr ?_
      change _ ≤ 1024 + fed.length + buf.length
      omega
  · have refused : use.reader.redisReaderFeed buf = .ok (false, use.reader) :=
      if_pos (by rw [failed.err]; rfl)
    have same : replyReader.run start (fed ++ buf) =
        (returned.map Returned.reply, .error (.error errstr)) := by
      rw [Incremental.run_append, ran]
      rfl
    rw [ReaderUse.step, refused]
    exact ⟨returned, ⟨held, .inr ⟨errstr, failed, same⟩⟩, (List.append_nil _).symm, errstr, same⟩

/-- A reply is looked for. -/
theorem HasServed.getReply (serves : HasServed fed returned use) :
    Continues fed returned .getReply (use.step .getReply) := by
  have noBytes : fed ++ ReaderEvent.getReply.fed = fed := List.append_nil fed
  unfold Continues
  rw [noBytes]
  obtain ⟨held, ⟨state, input, reads, shorter, ran⟩ | ⟨errstr, failed, ran⟩⟩ := serves
  · have returns := redisReaderGetReply_spec reads
    unfold GetsReply at returns
    split at returns
    next state' rest paused =>
      obtain ⟨reader, got, reads'⟩ := returns
      have shorter' := Incremental.length_le_of_pause paused
      rw [ReaderUse.step, got]
      refine ⟨returned, ⟨held, .inl ⟨state', rest, reads', by omega, ?_⟩⟩, (List.append_nil _).symm,
        (state', rest), ?_⟩
      · rw [ran, Incremental.run_of_pause paused]
      · rw [ran, Incremental.run_pause paused]
        exact congrArg (fun all => (all, _)) (List.append_nil _)
    next reply after rest emitted =>
      obtain ⟨rfl, reader, got, reads'⟩ := returns
      have shorter' := Incremental.length_lt_of_emit emitted
      have laidOut : Returned.slotsOf 0 (returned ++ [⟨reply, true⟩]) =
          Returned.slotsOf 0 returned ++
          live (reply.layout (Returned.slotsOf 0 returned).length) := by
        rw [Returned.slotsOf_append, Nat.zero_add]
        exact congrArg _ (List.append_nil _)
      have objects : reader.objects =
          ⟨Returned.slotsOf 0 returned ++
            (live (reply.layout (Returned.slotsOf 0 returned).length) ++ [])⟩ := by
        rw [← List.append_assoc]
        exact reads'.represents.objects
      have found : loadReply reader.objects (Returned.slotsOf 0 returned).length = some reply := by
        rw [objects, loadReply_layout]
      rw [ReaderUse.step, got]
      refine ⟨returned ++ [⟨reply, true⟩], ⟨?_, .inl ⟨start, rest, ?_, by omega, ?_⟩⟩, ?_, trivial⟩
      · change use.held ++ [(_, loadReply reader.objects _)] = _
        rw [found, held, Returned.heldOf_append, Nat.zero_add]
        rfl
      · rw [laidOut]
        exact reads'
      · rw [ran, Incremental.run_emit emitted, Incremental.behind_behind, List.map_append]
        rfl
      · change _ = _ ++ [loadReply reader.objects _]
        rw [found, List.map_append]
        rfl
    next errstr stopped =>
      obtain ⟨reader, got, failed⟩ := returns
      have ended : replyReader.run start fed =
          (returned.map Returned.reply, .error (.error errstr)) := by
        rw [ran, Incremental.run_stop stopped]
        exact congrArg (fun all => (all, _)) (List.append_nil _)
      rw [ReaderUse.step, got]
      exact ⟨returned, ⟨held, .inr ⟨errstr, failed, ended⟩⟩, (List.append_nil _).symm,
        errstr, ended⟩
    next fault stopped =>
      rw [ReaderUse.step, returns]
      refine .inl ⟨fault, ?_⟩
      rw [ran, Incremental.run_stop stopped]
      rfl
  · have refused : use.reader.redisReaderGetReply = .ok (false, none, use.reader) :=
      if_pos (by rw [failed.err]; rfl)
    rw [ReaderUse.step, refused]
    exact ⟨returned, ⟨held, .inr ⟨errstr, failed, ran⟩⟩, (List.append_nil _).symm, errstr, ran⟩

/-- A reply that is held is freed. -/
theorem HasServed.freeReply (serves : HasServed fed returned use) {reply : Nat}
    (enabled : use.enabled (.freeReply reply) = true) :
    Continues fed returned (.freeReply reply) (use.step (.freeReply reply)) := by
  have noBytes : fed ++ (ReaderEvent.freeReply reply).fed = fed := List.append_nil fed
  unfold Continues
  rw [noBytes]
  obtain ⟨held, serves⟩ := serves
  have isHeld : ∃ found, (reply, found) ∈ use.held := by
    obtain ⟨⟨id, found⟩, listed, same⟩ := List.any_eq_true.mp enabled
    rw [decide_eq_true_eq] at same
    subst same
    exact ⟨found, listed⟩
  obtain ⟨found, listed⟩ := isHeld
  rw [held] at listed
  obtain ⟨front, tree, back, rfl, rfl, rfl⟩ := Returned.exists_of_mem_heldOf listed
  rw [Nat.zero_add] at enabled ⊢
  have length := Returned.length_slotsOf_middle front back tree
  have held' : use.held.eraseP (fun entry => entry.1 = (Returned.slotsOf 0 front).length) =
      Returned.heldOf 0 (front ++ ⟨tree, false⟩ :: back) := by
    rw [held, Returned.eraseP_heldOf]
  have sameReplies : (front ++ ⟨tree, false⟩ :: back).map Returned.reply =
      (front ++ ⟨tree, true⟩ :: back).map Returned.reply := by
    rw [List.map_append, List.map_append]
    rfl
  have sameFound : (front ++ ⟨tree, false⟩ :: back).map (fun item => some item.reply) =
      (front ++ ⟨tree, true⟩ :: back).map (fun item => some item.reply) ++ [] := by
    rw [List.append_nil, List.map_append, List.map_append]
    rfl
  rw [← sameReplies] at serves
  rcases serves with ⟨state, input, reads, shorter, ran⟩ | ⟨errstr, failed, ran⟩
  · have objects : use.reader.objects = _ := reads.represents.objects
    rw [ReaderUse.step, objects, Returned.freeReplyObject_middle]
    exact ⟨_, ⟨held', .inl ⟨state, input, reads.replace length, shorter, ran⟩⟩, sameFound, trivial⟩
  · obtain ⟨count, objects⟩ := failed.objects
    rw [ReaderUse.step, objects, Returned.freeReplyObject_middle]
    exact ⟨_,
      ⟨held', .inr ⟨errstr, ⟨failed.err, failed.errstr, failed.buf, failed.stack, failed.reply,
      count, rfl⟩, ran⟩⟩, sameFound, trivial⟩

/-- Every step serves, or it faults for a count or a buffer that is too large. -/
theorem HasServed.step (serves : HasServed fed returned use) {event : ReaderEvent}
    (enabled : readerMachine.enabled use event = true) :
    Continues fed returned event (readerMachine.step use event) := by
  cases event with
  | feed buf => exact serves.feed buf
  | getReply => exact serves.getReply
  | freeReply reply => exact serves.freeReply enabled

/-! ## Runs -/

variable {trace : List (ReaderEvent × ReaderAnswer)} {last : ReaderUse}

/-- Every run serves. -/
theorem HasServed.run (serves : HasServed fed returned use)
    (ran : readerMachine.Run use trace last) :
    ∃ returned', HasServed (fed ++ fedBytes trace) returned' last ∧
      returned'.map (fun item => some item.reply) = returned.map (fun item => some item.reply) ++
        foundReplies trace ∧
      ∀ answer ∈ trace.getLast?.map Prod.snd,
        answer.Tells (returned'.map Returned.reply)
          (replyReader.run start (fed ++ fedBytes trace)) := by
  induction ran generalizing fed returned with
  | nil =>
    refine ⟨returned, ?_, ?_, nofun⟩
    · rwa [fedBytes, List.flatMap_nil, List.append_nil]
    · rw [foundReplies, List.flatMap_nil, List.append_nil]
  | @cons use next last event answer trace first rest ih =>
    have continues := serves.step first.1
    rw [first.2] at continues
    obtain ⟨returned', serves', found, tells⟩ := continues
    have bytes : fed ++ fedBytes ((event, answer) :: trace) =
        fed ++ event.fed ++ fedBytes trace := by
      rw [fedBytes, List.flatMap_cons, ← List.append_assoc]
      rfl
    have replies : foundReplies ((event, answer) :: trace) = answer.found ++ foundReplies trace :=
      List.flatMap_cons
    rw [bytes, replies]
    cases rest with
    | nil =>
      have noBytes : fed ++ event.fed ++ fedBytes [] = fed ++ event.fed := List.append_nil _
      rw [noBytes]
      refine ⟨returned', serves', ?_, ?_⟩
      · rw [found]
        exact congrArg _ (List.append_nil _).symm
      · intro answer' isLast
        cases isLast
        exact tells
    | cons second others =>
      obtain ⟨returned'', serves'', found', tells'⟩ := ih serves'
      refine ⟨returned'', serves'', ?_, tells'⟩
      rw [found', found, List.append_assoc]

/-- The objects in memory, and those that are left when the reader is freed. -/
theorem HasServed.objects (serves : HasServed fed returned use) :
    (∃ tail, use.reader.objects = ⟨Returned.slotsOf 0 returned ++ tail⟩) ∧
      ∃ count, use.reader.free = .ok ⟨Returned.slotsOf 0 returned ++ freed count⟩ := by
  obtain ⟨-, ⟨state, input, reads, -, -⟩ | ⟨errstr, failed, -⟩⟩ := serves
  · exact ⟨⟨_, reads.represents.objects⟩, reads.represents.free⟩
  · obtain ⟨count, objects⟩ := failed.objects
    exact ⟨⟨_, objects⟩, failed.free⟩

/-- The replies that were returned are the first of those in the bytes. -/
theorem HasServed.replies (serves : HasServed fed returned use) :
    returned.map Returned.reply <+: (replyReader.run start fed).1 := by
  obtain ⟨-, ⟨state, input, -, -, came⟩ | ⟨errstr, -, came⟩⟩ := serves
  · rw [came]
    exact List.prefix_append _ _
  · rw [came]

/-- Every run of a new reader serves. -/
theorem exists_hasServed (ran : readerMachine.Run readerMachine.init trace last) :
    ∃ returned, HasServed (fedBytes trace) returned last ∧
      foundReplies trace = (returned.map Returned.reply).map some ∧
      ∀ answer ∈ trace.getLast?.map Prod.snd,
        answer.Tells (returned.map Returned.reply) (replyReader.run start (fedBytes trace)) := by
  obtain ⟨returned, serves, found, tells⟩ := hasServed_init.run ran
  rw [List.nil_append] at serves tells
  refine ⟨returned, serves, ?_, tells⟩
  rw [List.map_map]
  exact found.symm

/-- Two replies that arrive in two pieces. The first one is freed before the second one is looked
for. -/
def twoReplies : List ReaderEvent :=
  [.feed [42, 50, 13, 10, 43, 79, 75, 13], .getReply,
    .feed [10, 36, 49, 13, 10, 97, 13, 10, 58, 55, 13, 10], .getReply, .freeReply 0, .getReply,
    .getReply]

/-- `twoReplies` runs, and at its end the second reply is held. -/
theorem exists_run_twoReplies : ∃ trace last, readerMachine.Run readerMachine.init trace last ∧
    trace.map Prod.fst = twoReplies ∧ decide (last.held.map Prod.fst = [3]) = true :=
  Machine.run_of_exec_any (fun last : ReaderUse =>
    decide (last.held.map Prod.fst = [3])) (by decide +kernel)

/-- The replies that a reader returns are those of the bytes that it was fed, in their order and
from the first one on, however the bytes are cut into pieces and whatever else happens in between.
When it returns nothing or fails, it has returned all of them. -/
theorem readerMachine_replies (ran : readerMachine.Run readerMachine.init trace last) :
    foundReplies trace <+: (replyReader.run start (fedBytes trace)).1.map some ∧
      ∀ answer ∈ trace.getLast?.map Prod.snd,
        answer.Tells (foundReplies trace).reduceOption
          (replyReader.run start (fedBytes trace)) := by
  obtain ⟨returned, serves, found, tells⟩ := exists_hasServed ran
  have replies : (foundReplies trace).reduceOption = returned.map Returned.reply := by
    rw [found, List.reduceOption, List.filterMap_map]
    exact List.filterMap_some
  rw [replies]
  refine ⟨?_, tells⟩
  rw [found]
  exact serves.replies.map some

/-- The replies of `twoReplies` are those of the bytes fed. -/
theorem readerMachine_replies_twoReplies :
    ∃ trace last, readerMachine.Run readerMachine.init trace last ∧
      trace.map Prod.fst = twoReplies ∧
        foundReplies trace <+: (replyReader.run start (fedBytes trace)).1.map some := by
  obtain ⟨trace, last, ran, events, -⟩ := exists_run_twoReplies
  exact ⟨trace, last, ran, events, (readerMachine_replies ran).1⟩

/-- A reader never changes replies that its user holds, and the objects that are left behind it are
exactly theirs. -/
theorem readerMachine_memory (ran : readerMachine.Run readerMachine.init trace last) :
    (∀ entry ∈ last.held, entry.2.isSome ∧ loadReply last.reader.objects entry.1 = entry.2) ∧
      ∃ objects, last.reader.free = .ok objects ∧
        objects.values = last.held.flatMap fun (id, found) =>
          (found.map (ReplyTree.layout id)).getD [] := by
  obtain ⟨returned, serves, -, -⟩ := exists_hasServed ran
  obtain ⟨⟨tail, objects⟩, count, frees⟩ := serves.objects
  rw [objects, serves.1]
  constructor
  · rintro ⟨id, found⟩ isHeld
    obtain ⟨front, reply, back, rfl, rfl, rfl⟩ := Returned.exists_of_mem_heldOf isHeld
    refine ⟨rfl, ?_⟩
    rw [Nat.zero_add]
    exact Returned.loadReply_middle front back reply tail
  · refine ⟨_, frees, ?_⟩
    change (Returned.slotsOf 0 returned ++ freed count).reduceOption = _
    rw [List.reduceOption_append, List.reduceOption_replicate_none, List.append_nil,
      Returned.reduceOption_slotsOf]

/-- The reply still held at the end of `twoReplies` is the one returned. -/
theorem readerMachine_memory_twoReplies :
    ∃ trace last, readerMachine.Run readerMachine.init trace last ∧
      trace.map Prod.fst = twoReplies ∧ last.held.map Prod.fst = [3] ∧
        ∀ entry ∈ last.held, loadReply last.reader.objects entry.1 = entry.2 := by
  obtain ⟨trace, last, ran, events, held⟩ := exists_run_twoReplies
  exact ⟨trace, last, ran, events, of_decide_eq_true held,
    fun entry listed => ((readerMachine_memory ran).1 entry listed).2⟩

/-- A step faults only behind a fault that the bytes lead to, or when they are too many. -/
theorem exists_steps_of_noFault (ran : readerMachine.Run readerMachine.init trace last)
    (noFault : ∀ fault, (replyReader.run start (fedBytes trace)).2 ≠ .error (.fault fault))
    {event : ReaderEvent} (enabled : readerMachine.enabled last event = true)
    (short : 1024 + (fedBytes trace).length + event.fed.length < 2 ^ 30) :
    ∃ answer next, readerMachine.Steps last event answer next := by
  obtain ⟨returned, serves, -, -⟩ := exists_hasServed ran
  have continues := serves.step enabled
  cases stepped : readerMachine.step last event with
  | ok result => exact ⟨result.2, result.1, enabled, stepped⟩
  | error fault =>
    rw [stepped] at continues
    rcases continues with ⟨fault', faults⟩ | long
    · exact absurd faults (noFault fault')
    · omega

/-- A reader has no fault as long as no array is announced with more elements than an `int` can
count and the bytes that it is fed stay below 2 ^ 30 − 1024. -/
theorem readerMachine_safe (ran : readerMachine.Run readerMachine.init trace last)
    (fits : CountsFit (fedBytes trace)) {event : ReaderEvent}
    (enabled : readerMachine.enabled last event = true)
    (short : 1024 + (fedBytes trace).length + event.fed.length < 2 ^ 30) :
    ∃ answer next, readerMachine.Steps last event answer next :=
  exists_steps_of_noFault ran (run_countsFit fits) enabled short

/-- Behind `twoReplies` a further feed has its step. -/
theorem readerMachine_safe_twoReplies :
    ∃ trace last, readerMachine.Run readerMachine.init trace last ∧
      trace.map Prod.fst = twoReplies ∧ CountsFit (fedBytes trace) ∧
        ∃ answer next, readerMachine.Steps last (.feed [36]) answer next := by
  obtain ⟨trace, last, ran, events, -⟩ := exists_run_twoReplies
  have fits : CountsFit (fedBytes trace) := by
    rw [fedBytes_eq, events]
    decide +kernel
  have short : 1024 + (fedBytes trace).length + (ReaderEvent.feed [36]).fed.length < 2 ^ 30 := by
    rw [fedBytes_eq, events]
    decide
  exact ⟨trace, last, ran, events, fits, readerMachine_safe ran fits rfl short⟩

end NetServer
