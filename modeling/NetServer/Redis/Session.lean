import NetServer.Lib.Machine
import NetServer.Redis.Calls

/-!
# Commands and replies on a connection

`CRedisClient` runs one command at a time on its connection: it calls `redisCommand`, takes what it
needs from the reply and frees it. The server reads commands from the socket and writes one reply
for each of them, whenever it likes; the socket cuts both streams into pieces of any size and may
fail at any time. In `sessionMachine` a call brings the outcomes of its writes and reads, and what
it has received behind it are bytes of replies to commands that were sent completely (`Delivered`).

Then every reply that a call returns is the one to its own command, up to the first call that fails,
and behind that one no call returns a reply or sends anything (`sessionMachine_replies`,
`sessionMachine_commands`); nothing is left in memory (`sessionMachine_memory`).
-/

namespace NetServer

open Lib ReplyState RedisContext

/-! ## Commands as the server reads them -/

/-- The arguments of a command. -/
def arguments (format : Bytes) : Option (List Bytes) :=
  match redisvFormatCommand format with
  | .ok command => command.map RedisCommand.curargv
  | .error _ => none

/-- A command is an array of strings. -/
def commandTree (argv : List Bytes) : ReplyTree := .array (argv.map fun arg => .leaf (.string arg))

/-- Arguments go over the wire as bulk strings. -/
theorem wires_strings (argv : List Bytes) :
    ReplyTree.wires (argv.map fun arg => .leaf (.string arg)) =
      argv.flatMap fun arg => bytes "$" ++ decimal arg.length ++ crlf ++ arg ++ crlf := by
  induction argv with
  | nil => rfl
  | cons arg argv ih =>
    rw [List.map_cons, ReplyTree.wires, ih, List.flatMap_cons]
    simp only [ReplyTree.wire, ReplyLeaf.wire, List.append_assoc, List.cons_append]
    rfl

/-- The text of a command is what is written for the array of its arguments. -/
theorem wire_commandTree (argv : List Bytes) : (commandTree argv).wire = protocolText argv := by
  rw [commandTree, ReplyTree.wire, wires_strings, List.length_map, protocolText]
  rfl

/-- The command that was made of a format, with its size. -/
theorem redisvFormatCommand_some {format : Bytes} {command : RedisCommand}
    (formatted : redisvFormatCommand format = .ok (some command)) :
    command.cmd = protocolText command.curargv ∧ totalLength command.curargv + 1 < 2 ^ 31 := by
  obtain ⟨state, -, built⟩ := bind_eq_ok.mp formatted
  have short : totalLength state.flush.curargv + 1 < 2 ^ 31 := by
    by_contra long
    exact buildCommand_too_long (Nat.le_of_not_lt long) command built
  rw [buildCommand_fits short] at built
  cases built
  exact ⟨rfl, short⟩

/-- A command can be sent. -/
theorem sendable_commandTree {argv : List Bytes} (nonempty : argv ≠ [])
    (short : totalLength argv + 1 < 2 ^ 31) : (commandTree argv).Sendable 2 := by
  have few : argv.length ≤ (argv.map fun arg => bulklen arg.length).sum := by
    have counted := List.length_le_sum_of_one_le (argv.map fun arg => bulklen arg.length) ?_
    · rwa [List.length_map] at counted
    · intro size listed
      obtain ⟨arg, -, rfl⟩ := List.mem_map.mp listed
      exact Nat.le_add_left 1 _
  have each (arg : Bytes) (listed : arg ∈ argv) :
      arg.length ≤ (argv.map fun arg => bulklen arg.length).sum := by
    have size :=
      List.le_sum_of_mem (List.mem_map_of_mem (f := fun arg => bulklen arg.length) listed)
    rw [bulklen] at size
    omega
  unfold totalLength at short
  refine .array (fun empty => nonempty (List.map_eq_nil_iff.mp empty)) ?_ ?_
  · rw [List.length_map]
    omega
  · intro item listed
    obtain ⟨arg, isArg, rfl⟩ := List.mem_map.mp listed
    have size := each arg isArg
    refine .leaf ?_
    change arg.length < 2 ^ 63
    omega

/-- The texts of commands are read as their arguments. -/
theorem run_commands {argvs : List (List Bytes)}
    (sendable : ∀ argv ∈ argvs, (commandTree argv).Sendable 2) (rest : Bytes) :
    replyReader.run start (argvs.flatMap protocolText ++ rest) =
      Incremental.behind (argvs.map commandTree) (replyReader.run start rest) := by
  have texts : argvs.flatMap protocolText = ReplyTree.wires (argvs.map commandTree) := by
    induction argvs with
    | nil => rfl
    | cons argv argvs ih =>
      rw [List.forall_mem_cons] at sendable
      rw [List.flatMap_cons, List.map_cons, ReplyTree.wires, ih sendable.2, wire_commandTree]
  rw [texts]
  exact run_wires (List.forall_mem_map.mpr sendable) rest

/-- A server finds the commands in their texts. -/
theorem run_texts {argvs : List (List Bytes)}
    (sendable : ∀ argv ∈ argvs, (commandTree argv).Sendable 2) :
    (replyReader.run start (argvs.flatMap protocolText)).1 = argvs.map commandTree := by
  have all := run_commands sendable []
  rw [List.append_nil, run_nil] at all
  rw [all]
  exact List.append_nil _

/-- A server finds one command more in the text behind others. -/
theorem length_run_texts {argvs : List (List Bytes)} {argv : List Bytes}
    (sendable : ∀ other ∈ argvs ++ [argv], (commandTree other).Sendable 2) :
    (replyReader.run start (argvs.flatMap protocolText ++ protocolText argv)).1.length =
      argvs.length + 1 := by
  have texts := run_texts sendable
  rw [List.flatMap_append, List.flatMap_singleton] at texts
  rw [texts, List.length_map, List.length_append, List.length_singleton]

/-! ## The machine -/

/-- A call of `redisCommand`, with what its writes and reads come to. -/
structure CommandCall where
  format : Bytes
  writes : List WriteOutcome
  reads : List ReadOutcome
  deriving DecidableEq, Repr

/-- The replies of a server to the first commands, as they are written. -/
def repliesUpTo (server : Nat → ReplyTree) (count : Nat) : Bytes :=
  ReplyTree.wires ((List.range count).map server)

/-- What was received are bytes of the replies to commands that were sent completely. -/
def Delivered (server : Nat → ReplyTree) (c : RedisContext) : Prop :=
  c.received <+: repliesUpTo server (replyReader.run start c.sent).1.length

instance (server : Nat → ReplyTree) (c : RedisContext) : Decidable (Delivered server c) :=
  inferInstanceAs (Decidable (_ <+: _))

/-- A command is run, and its reply is looked at and freed. -/
def CommandCall.run (call : CommandCall) (c : RedisContext) :
    Except CallEnd (RedisContext × Option (Option ReplyTree)) := do
  let (reply, c) ← c.redisCommand call.format call.writes call.reads
  match reply with
  | none => return (c, none)
  | some reply =>
    let found := loadReply c.reader.objects reply
    let objects ← hiredis (freeReplyObject c.reader.objects reply)
    return ({ c with reader := { c.reader with objects } }, some found)

/-- All uses of a new connection to a server, among objects that are not its own. A command has a
word at least. -/
def sessionMachine (past : List (Option ReplyObject)) (server : Nat → ReplyTree) :
    Machine RedisContext CommandCall (Option (Option ReplyTree)) CallEnd where
  init := .connected ⟨past⟩
  enabled c call :=
    decide (arguments call.format ≠ some []) &&
      match call.run c with
      | .ok (c', _) => decide (Delivered server c')
      | .error _ => true
  step c call := call.run c

/-- The commands of a run. -/
def issued (trace : List (CommandCall × Option (Option ReplyTree))) : List (List Bytes) :=
  trace.flatMap fun (call, _) => (arguments call.format).toList

/-! ## What every call keeps -/

/-- A connection on which every command got its reply. -/
structure Aligned (server : Nat → ReplyTree) (past : List (Option ReplyObject))
    (argvs : List (List Bytes)) (c : RedisContext) : Prop where
  err : c.err = none
  block : c.block = true
  obuf : c.obuf.buf = []
  reader : Reads past c.reader start []
  sent : c.sent = argvs.flatMap protocolText
  received : c.received = repliesUpTo server argvs.length

variable {server : Nat → ReplyTree} {past : List (Option ReplyObject)} {argvs : List (List Bytes)}
  {c c' : RedisContext} {call : CommandCall} {answer : Option (Option ReplyTree)}

/-- What is received of a reply is all of it when there is a reply. -/
theorem reply_of_emit {reply tree : ReplyTree} {more rest : Bytes} (sendable : reply.Sendable 2)
    (part : more <+: reply.wire) (emitted : replyReader.next start more = .emit tree start rest) :
    more = reply.wire ∧ tree = reply ∧ rest = [] := by
  obtain ⟨missing, whole⟩ := part
  have longer := Incremental.next_append replyReader start more missing
  have read := next_reply sendable []
  rw [emitted, whole] at longer
  rw [List.append_nil, longer] at read
  have isReply := Outcome.emit.inj read
  obtain ⟨nothing, noneMissing⟩ := List.append_eq_nil_iff.mp isReply.2.2
  rw [noneMissing, List.append_nil] at whole
  exact ⟨whole, isReply.1, nothing⟩

/-- The next reply stands behind the earlier ones. -/
theorem repliesUpTo_succ (server : Nat → ReplyTree) (count : Nat) :
    repliesUpTo server (count + 1) = repliesUpTo server count ++ (server count).wire := by
  rw [repliesUpTo, List.range_succ, List.map_append, ReplyTree.wires_append]
  exact congrArg _ (List.append_nil _)

/-- A reply that was just returned is found, and freeing it leaves the reader as it is. -/
theorem Reads.takeReply {r : RedisReader} {tree : ReplyTree} {rest : Bytes}
    (reads : Reads (past ++ live (tree.layout past.length)) r start rest) :
    loadReply r.objects past.length = some tree ∧ ∃ count objects,
      freeReplyObject r.objects past.length = .ok objects ∧
      Reads (past ++ freed count) { r with objects } start rest := by
  have objects : r.objects = ⟨past ++ (live (tree.layout past.length) ++ [])⟩ := by
    rw [← List.append_assoc]
    exact reads.represents.objects
  have length : (past ++ freed (tree.layout past.length).length).length =
      (past ++ live (tree.layout past.length)).length := by
    rw [List.length_append, List.length_append, List.length_replicate, length_live]
  rw [objects, loadReply_layout, freeReplyObject_layout, ← List.append_assoc]
  exact ⟨rfl, (tree.layout past.length).length, _, rfl, reads.replace length⟩

/-- A command is put into the output buffer, and its reply is waited for. -/
theorem redisCommand_formatted {command : RedisCommand}
    (formatted : redisvFormatCommand call.format = .ok (some command)) {reply : Option Nat}
    (called : c.redisCommand call.format call.writes call.reads = .ok (reply, c')) :
    ∃ free, { c with obuf := ⟨c.obuf.buf ++ command.cmd, free⟩ }.redisBlockForReply call.writes
      call.reads = .ok (reply, c') := by
  obtain ⟨⟨ok, c1⟩, appended, waited⟩ := bind_eq_ok.mp called
  unfold RedisContext.redisvAppendCommand at appended
  rw [formatted] at appended
  obtain ⟨c2, put, returned⟩ := bind_eq_ok.mp appended
  obtain ⟨newbuf, grown, stored⟩ := bind_eq_ok.mp put
  cases stored
  cases returned
  rcases c.obuf.sdscatlen_spec command.cmd with ⟨free, cat, -⟩ | ⟨overflow, -⟩
  · have same := (hiredis_eq_ok.mp grown).symm.trans cat
    cases same
    exact ⟨free, waited⟩
  · have contra := (hiredis_eq_ok.mp grown).symm.trans overflow
    cases contra

/-- A command on a connection on which every command got its reply gets its reply, or the connection
is broken. -/
theorem Aligned.next (aligned : Aligned server past argvs c)
    (replies : ∀ index, (server index).Sendable 2) {command : RedisCommand}
    (formatted : redisvFormatCommand call.format = .ok (some command))
    (sendable : ∀ argv ∈ argvs ++ [command.curargv], (commandTree argv).Sendable 2)
    (ran : call.run c = .ok (c', answer)) (delivered : Delivered server c') :
    (answer = some (some (server argvs.length)) ∧
        ∃ count, Aligned server (past ++ freed count) (argvs ++ [command.curargv]) c') ∨
      answer = none ∧ Broken past c' ∧ c.sent <+: c'.sent ∧
      c'.sent <+: c.sent ++ protocolText command.curargv := by
  obtain ⟨⟨reply, c1⟩, called, looked⟩ := bind_eq_ok.mp ran
  obtain ⟨free, waited⟩ := redisCommand_formatted formatted called
  obtain ⟨grows, inside, ended⟩ :=
    redisBlockForReply_idle (c := { c with obuf := ⟨c.obuf.buf ++ command.cmd, free⟩ })
      aligned.err aligned.block aligned.reader waited
  have text : c.obuf.buf ++ command.cmd = protocolText command.curargv := by
    rw [aligned.obuf, List.nil_append, (redisvFormatCommand_some formatted).1]
  dsimp only at grows inside ended looked
  rw [text] at inside ended
  rcases ended with ⟨rfl, noError, block, obuf, sent, more, tree, rest, received, emitted,
    reads⟩ | ⟨rfl, broken⟩
  · obtain ⟨found, count, objects, freeing, reads'⟩ := reads.takeReply
    dsimp only at looked
    rw [freeing, found] at looked
    cases looked
    have part : more <+: (server argvs.length).wire := by
      change c1.received <+: repliesUpTo server (replyReader.run start c1.sent).1.length
        at delivered
      rw [sent, aligned.sent, length_run_texts sendable, repliesUpTo_succ, received,
        aligned.received] at delivered
      exact (List.prefix_append_right_inj _).mp delivered
    obtain ⟨rfl, rfl, rfl⟩ := reply_of_emit (replies _) part emitted
    refine .inl ⟨rfl, count, noError, block, obuf, reads', ?_, ?_⟩
    · rw [List.flatMap_append, List.flatMap_singleton, ← aligned.sent]
      exact sent
    · rw [List.length_append, List.length_singleton, repliesUpTo_succ, ← aligned.received]
      exact received
  · cases looked
    exact .inr ⟨rfl, broken, grows, inside⟩

/-- A format that makes no command sets the error. -/
theorem redisCommand_unformatted (formatted : redisvFormatCommand call.format = .ok none) :
    c.redisCommand call.format call.writes call.reads =
      .ok (none, c.redisSetError (some .oom) (bytes "Out of memory")) := by
  unfold RedisContext.redisCommand RedisContext.redisvAppendCommand
  rw [formatted]
  rfl

/-- A call that returns has read its format. -/
theorem exists_formatted (ran : call.run c = .ok (c', answer)) :
    ∃ command, redisvFormatCommand call.format = .ok command ∧
      arguments call.format = command.map RedisCommand.curargv := by
  obtain ⟨result, called, -⟩ := bind_eq_ok.mp ran
  unfold RedisContext.redisCommand RedisContext.redisvAppendCommand at called
  unfold arguments
  cases formatted : redisvFormatCommand call.format with
  | error fault =>
    rw [formatted] at called
    cases called
  | ok command => exact ⟨command, rfl, rfl⟩

/-- On a broken connection no command gets a reply, and nothing is sent. -/
theorem run_of_broken (broken : Broken past c) (ran : call.run c = .ok (c', answer)) :
    answer = none ∧ Broken past c' ∧ c'.sent = c.sent := by
  obtain ⟨command, formatted, -⟩ := exists_formatted ran
  obtain ⟨⟨reply, c1⟩, called, looked⟩ := bind_eq_ok.mp ran
  have ended : reply = none ∧ Broken past c1 ∧ c1.sent = c.sent := by
    cases command with
    | none =>
      rw [redisCommand_unformatted formatted] at called
      cases called
      exact ⟨rfl, ⟨rfl, broken.block, broken.reader⟩, rfl⟩
    | some command =>
      obtain ⟨free, waited⟩ := redisCommand_formatted formatted called
      have longer : Broken past { c with obuf := ⟨c.obuf.buf ++ command.cmd, free⟩ } :=
        ⟨broken.err, broken.block, broken.reader⟩
      obtain ⟨c2, refused, broken', sent⟩ := redisBlockForReply_broken longer
      have same := waited.symm.trans refused
      cases same
      exact ⟨rfl, broken', sent⟩
  obtain ⟨rfl, broken', sent⟩ := ended
  cases looked
  exact ⟨rfl, broken', sent⟩

/-- What was said on a connection: every command got its reply, or there was a first one that got
none, of which a part may have been sent, and none behind it got a reply. -/
def Talks (server : Nat → ReplyTree) (values : List ReplyObject) (commands : List (List Bytes))
    (answers : List (Option (Option ReplyTree))) (c : RedisContext) : Prop :=
  ∃ past : List (Option ReplyObject), past.reduceOption = values ∧
    (∀ argv ∈ commands, (commandTree argv).Sendable 2) ∧
    ((Aligned server past commands c ∧ answers = (List.range commands.length).map fun index =>
      some (some (server index))) ∨
      ∃ count lost, count ≤ commands.length ∧ 0 < lost ∧
        answers = ((List.range count).map fun index => some (some (server index))) ++
        List.replicate lost none ∧
        Broken past c ∧ (commands.take count).flatMap protocolText <+: c.sent ∧
        c.sent <+: (commands.take (count + 1)).flatMap protocolText)

variable {values : List ReplyObject} {commands : List (List Bytes)}
  {answers : List (Option (Option ReplyTree))}

/-- What a step of the machine is. -/
theorem steps_iff {objects : List (Option ReplyObject)} :
    (sessionMachine objects server).Steps c call answer c' ↔
      arguments call.format ≠ some [] ∧ Delivered server c' ∧ call.run c = .ok (c', answer) := by
  constructor
  · rintro ⟨enabled, ran⟩
    have both := Bool.and_eq_true_iff.mp enabled
    change call.run c = _ at ran
    rw [ran] at both
    exact ⟨of_decide_eq_true both.1, of_decide_eq_true both.2, ran⟩
  · rintro ⟨nonblank, delivered, ran⟩
    refine ⟨Bool.and_eq_true_iff.mpr ⟨decide_eq_true nonblank, ?_⟩, ran⟩
    rw [ran]
    exact decide_eq_true delivered

/-- A call goes on with what was said. -/
theorem Talks.next {objects : List (Option ReplyObject)}
    (talks : Talks server values commands answers c) (replies : ∀ index, (server index).Sendable 2)
    (steps : (sessionMachine objects server).Steps c call answer c') :
    Talks server values (commands ++ (arguments call.format).toList) (answers ++ [answer]) c' := by
  obtain ⟨nonblank, delivered, ran⟩ := steps_iff.mp steps
  obtain ⟨command, formatted, isCommand⟩ := exists_formatted ran
  obtain ⟨past, same, sendable, said⟩ := talks
  rw [isCommand] at nonblank ⊢
  have added : ∀ argv ∈ commands ++ (command.map RedisCommand.curargv).toList,
      (commandTree argv).Sendable 2 := by
    rw [List.forall_mem_append]
    refine ⟨sendable, fun argv listed => ?_⟩
    obtain ⟨made, rfl, rfl⟩ := Option.map_eq_some_iff.mp (Option.mem_toList.mp listed)
    exact sendable_commandTree (fun blank =>
      nonblank (congrArg some blank)) (redisvFormatCommand_some formatted).2
  rcases said with ⟨aligned, rfl⟩ | ⟨count, lost, inside, positive, rfl, broken, before, behind⟩
  · -- The first command without a reply is the last one so far.
    have fails (broken : Broken past c') (grows : c.sent <+: c'.sent)
        (inside : c'.sent <+:
          (commands ++ (command.map RedisCommand.curargv).toList).flatMap protocolText) :
        Talks server values (commands ++ (command.map RedisCommand.curargv).toList)
          (((List.range commands.length).map fun index => some (some (server index))) ++ [none])
              c' := by
      refine ⟨past, same, added, .inr ⟨commands.length, 1, ?_, Nat.one_pos, rfl, broken, ?_, ?_⟩⟩
      · rw [List.length_append]
        exact Nat.le_add_right _ _
      · rw [List.take_left, ← aligned.sent]
        exact grows
      · rwa [List.take_of_length_le]
        rw [List.length_append]
        exact Nat.add_le_add_left (Option.length_toList_le) _
    cases command with
    | none =>
      obtain ⟨⟨reply, c1⟩, called, looked⟩ := bind_eq_ok.mp ran
      rw [redisCommand_unformatted formatted] at called
      cases called
      cases looked
      refine fails ⟨rfl, aligned.block, .inl ⟨start, [], aligned.reader, rfl⟩⟩ List.prefix_rfl ?_
      change c.sent <+: _
      rw [aligned.sent, Option.map_none, Option.toList_none, List.append_nil]
    | some command =>
      rcases aligned.next replies formatted added ran delivered with
        ⟨rfl, count, aligned'⟩ | ⟨rfl, broken, grows, inside⟩
      · refine ⟨past ++ freed count, ?_, added, .inl ⟨aligned', ?_⟩⟩
        · rw [List.reduceOption_append, List.reduceOption_replicate_none, List.append_nil, same]
        · change _ = (List.range (commands ++ [command.curargv]).length).map _
          rw [List.length_append, List.length_singleton, List.range_succ, List.map_append]
          rfl
      · refine fails broken grows ?_
        rw [aligned.sent] at inside
        rw [List.flatMap_append]
        change _ <+: _ ++ (protocolText command.curargv ++ [])
        rwa [List.append_nil]
  · obtain ⟨rfl, broken', sent⟩ := run_of_broken broken ran
    refine ⟨past, same, added, .inr ⟨count, lost + 1, ?_, Nat.succ_pos lost, ?_, broken', ?_, ?_⟩⟩
    · rw [List.length_append]
      omega
    · rw [List.append_assoc, List.replicate_succ']
    · rw [sent, List.take_append_of_le_length inside]
      exact before
    · rw [sent]
      exact behind.trans (((List.prefix_append commands _).take _).flatMap protocolText)

/-! ## Runs -/

variable {trace : List (CommandCall × Option (Option ReplyTree))} {last : RedisContext}

/-- Every run goes on with what was said. -/
theorem Talks.run {objects : List (Option ReplyObject)}
    (talks : Talks server values commands answers c) (replies : ∀ index, (server index).Sendable 2)
    (ran : (sessionMachine objects server).Run c trace last) :
    Talks server values (commands ++ issued trace) (answers ++ trace.map Prod.snd) last := by
  induction ran generalizing commands answers with
  | nil => rwa [issued, List.flatMap_nil, List.map_nil, List.append_nil, List.append_nil]
  | @cons c next last call answer trace first rest ih =>
    have behind := ih (talks.next replies first)
    rw [List.append_assoc, List.append_assoc] at behind
    have one : issued ((call, answer) :: trace) = (arguments call.format).toList ++ issued trace :=
      List.flatMap_cons
    rwa [one]

/-- Every run of a new connection. -/
theorem talks_of_run (replies : ∀ index, (server index).Sendable 2)
    (ran : (sessionMachine past server).Run (sessionMachine past server).init trace last) :
    Talks server past.reduceOption (issued trace) (trace.map Prod.snd) last := by
  have first : Talks server past.reduceOption [] [] (RedisContext.connected ⟨past⟩) :=
    ⟨past, rfl, fun argv listed => absurd listed List.not_mem_nil,
      .inl ⟨⟨rfl, rfl, rfl, reads_create past, rfl, rfl⟩, rfl⟩⟩
  exact first.run replies ran

/-- The calls that got a reply, and what was sent. -/
theorem Talks.said (talks : Talks server values commands answers c) :
    (∀ argv ∈ commands, (commandTree argv).Sendable 2) ∧ ∃ count lost,
      answers = ((List.range count).map fun index => some (some (server index))) ++
        List.replicate lost none ∧
      (commands.take count).flatMap protocolText <+: c.sent ∧
      c.sent <+: (commands.take (count + 1)).flatMap protocolText := by
  obtain ⟨past, -, sendable,
    ⟨aligned, answers⟩ | ⟨count, lost, -, -, answers, -, before, behind⟩⟩ := talks
  · refine ⟨sendable, commands.length, 0, ?_, ?_, ?_⟩
    · rw [answers, List.replicate_zero, List.append_nil]
    · rw [List.take_length, aligned.sent]
    · rw [List.take_of_length_le (Nat.le_succ _), aligned.sent]
  · exact ⟨sendable, count, lost, answers, before, behind⟩

/-- Freeing a connection leaves nothing of its replies. -/
theorem Talks.free (talks : Talks server values commands answers c) :
    ∃ objects, c.redisFree = .ok objects ∧ objects.values = values := by
  obtain ⟨past, rfl, -, said⟩ := talks
  have left : ∃ count, c.reader.free = .ok ⟨past ++ freed count⟩ := by
    rcases said with ⟨aligned, -⟩ | ⟨count, lost, -, -, -, broken, -⟩
    · exact aligned.reader.represents.free
    · rcases broken.reader with ⟨state, input, reads, -⟩ | ⟨errstr, failed⟩
      · exact reads.represents.free
      · exact failed.free
  obtain ⟨count, left⟩ := left
  refine ⟨_, left, ?_⟩
  show (past ++ freed count).reduceOption = past.reduceOption
  rw [List.reduceOption_append, List.reduceOption_replicate_none, List.append_nil]

/-- A reply that a call returns lies behind all other objects. -/
theorem Talks.called {reply : Nat} {behind : RedisContext}
    (talks : Talks server values commands answers c)
    (called : c.redisCommand call.format call.writes call.reads = .ok (some reply, behind)) :
    ∃ (past : List (Option ReplyObject)) (tree : ReplyTree), reply = past.length ∧
      behind.reader.objects = ⟨past ++ (live (tree.layout past.length) ++ [])⟩ := by
  obtain ⟨past, -, -, said⟩ := talks
  cases formatted : redisvFormatCommand call.format with
  | error fault =>
    unfold RedisContext.redisCommand RedisContext.redisvAppendCommand at called
    rw [formatted] at called
    cases called
  | ok command =>
    cases command with
    | none =>
      rw [redisCommand_unformatted formatted] at called
      cases called
    | some command =>
      obtain ⟨free, waited⟩ := redisCommand_formatted formatted called
      rcases said with ⟨aligned, -⟩ | ⟨count, lost, -, -, -, broken, -⟩
      · obtain ⟨-, -, ended⟩ :=
          redisBlockForReply_idle (c := { c with obuf := ⟨c.obuf.buf ++ command.cmd, free⟩ })
            aligned.err aligned.block aligned.reader waited
        rcases ended with ⟨same, -, -, -, -, more, tree, rest, -, -, reads⟩ | ⟨contra, -⟩
        · refine ⟨past, tree, Option.some.inj same, ?_⟩
          rw [← List.append_assoc]
          exact reads.represents.objects
        · cases contra
      · obtain ⟨c2, refused, -⟩ :=
          redisBlockForReply_broken (c := { c with obuf := ⟨c.obuf.buf ++ command.cmd, free⟩ })
            ⟨broken.err, broken.block, broken.reader⟩
        have contra := waited.symm.trans refused
        cases contra

/-- The commands issued in two traces are issued in their order. -/
theorem issued_append (trace more : List (CommandCall × Option (Option ReplyTree))) :
    issued (trace ++ more) = issued trace ++ issued more := List.flatMap_append

/-- No more commands are issued than there are calls. -/
theorem length_issued_le (trace : List (CommandCall × Option (Option ReplyTree))) :
    (issued trace).length ≤ trace.length := by
  induction trace with
  | nil => exact Nat.le_refl 0
  | cons entry trace ih =>
    have one : issued (entry :: trace) = (arguments entry.1.format).toList ++ issued trace :=
      List.flatMap_cons
    have few : (arguments entry.1.format).toList.length ≤ 1 := Option.length_toList_le
    rw [one, List.length_append, List.length_cons]
    omega

/-- A reply is the one to the command behind all others, which the server has read. -/
theorem reply_of_run {found : Option ReplyTree} (replies : ∀ index, (server index).Sendable 2)
    (ran : (sessionMachine past server).Run (sessionMachine past server).init trace c)
    (steps : (sessionMachine past server).Steps c call (some found) c') :
    found = some (server trace.length) ∧
      (replyReader.run start c'.sent).1[trace.length]? =
        (arguments call.format).map commandTree := by
  have answered : (trace ++ [(call, some found)]).map Prod.snd =
    trace.map Prod.snd ++ [some found] := List.map_append
  obtain ⟨past', -, sendable, ⟨aligned, answers⟩ | ⟨count, lost, -, positive, answers, -⟩⟩ :=
    talks_of_run replies (ran.append (.single steps))
  · -- All commands got their replies, so every call had one.
    have counted := congrArg List.length answers
    have isIssued : issued (trace ++ [(call, some found)]) =
        issued trace ++ (arguments call.format).toList := by
      rw [issued_append]
      exact congrArg _ (List.append_nil _)
    have few := length_issued_le trace
    have one : (arguments call.format).toList.length ≤ 1 := Option.length_toList_le
    rw [isIssued] at sendable aligned answers counted
    rw [List.length_map, List.length_map, List.length_range, List.length_append,
      List.length_singleton] at counted
    rw [answered, ← counted, List.range_succ, List.map_append] at answers
    rw [List.length_append] at counted
    have all : (issued trace).length = trace.length := by omega
    constructor
    · have same := (List.append_inj' answers rfl).2
      exact Option.some.inj (List.singleton_inj.mp same)
    · rw [aligned.sent, run_texts sendable, List.getElem?_map,
        List.getElem?_append_right (by omega), all, Nat.sub_self]
      cases arguments call.format <;> rfl
  · obtain ⟨before, rfl⟩ := Nat.exists_eq_succ_of_ne_zero (Nat.ne_of_gt positive)
    rw [answered, List.replicate_succ', ← List.append_assoc] at answers
    have contra := List.singleton_inj.mp (List.append_inj' answers rfl).2
    cases contra

/-- Behind a call without a reply the connection is broken. -/
theorem Talks.broken (talks : Talks server values commands answers c) (failed : none ∈ answers) :
    ∃ past, Broken past c := by
  obtain ⟨past, -, -, ⟨-, rfl⟩ | ⟨count, lost, -, -, -, broken, -⟩⟩ := talks
  · obtain ⟨index, -, contra⟩ := List.mem_map.mp failed
    cases contra
  · exact ⟨past, broken⟩

/-- Nothing is sent on a broken connection any more. -/
theorem sent_of_broken {objects : List (Option ReplyObject)} (broken : Broken past c)
    (ran : (sessionMachine objects server).Run c trace last) : last.sent = c.sent := by
  induction ran with
  | nil => rfl
  | cons first rest ih =>
    obtain ⟨-, broken', sent⟩ := run_of_broken broken (steps_iff.mp first).2.2
    rw [ih broken', sent]

/-- A server that answers every command with `PONG`. -/
def pong (_ : Nat) : ReplyTree := .leaf (.status [80, 79, 78, 71])

/-- The server's answer can be sent. -/
theorem pong_sendable (index : Nat) : (pong index).Sendable 2 :=
  .leaf (by decide : ReplyLeaf.Sendable (.status [80, 79, 78, 71]))

/-- A `PING` is written and answered in two pieces, then the server closes the connection before it
answers another one, and a third one is not sent. -/
def pings : List CommandCall :=
  [⟨[80, 73, 78, 71], [.takes 5, .takes 100], [.finds [43, 80, 79], .finds [78, 71, 13, 10]]⟩,
    ⟨[80, 73, 78, 71], [.takes 100], [.finds [43], .finds []]⟩, ⟨[80, 73, 78, 71], [], []⟩]

/-- `pings` runs: the first call gets its reply, the others get none. -/
theorem exists_run_pings :
    ∃ trace last, (sessionMachine [] pong).Run (sessionMachine [] pong).init trace last ∧
      trace.map Prod.fst = pings ∧
        decide ((trace.map Prod.snd).map Option.isSome = [true, false, false]) = true :=
  Machine.run_of_exec_check (fun _ trace =>
    decide ((trace.map Prod.snd).map Option.isSome = [true, false, false]))
    (by decide +kernel)

/-- Up to some call every one returns the server's reply to its own command, and behind it none
returns a reply. -/
theorem sessionMachine_replies (replies : ∀ index, (server index).Sendable 2)
    (ran : (sessionMachine past server).Run (sessionMachine past server).init trace last) :
    ∃ count lost, trace.map Prod.snd =
      ((List.range count).map fun index => some (some (server index))) ++
        List.replicate lost none := by
  obtain ⟨-, count, lost, answers, -⟩ := (talks_of_run replies ran).said
  exact ⟨count, lost, answers⟩

/-- The replies of `pings` are those of the server until the connection breaks. -/
theorem sessionMachine_replies_pings :
    ∃ trace last, (sessionMachine [] pong).Run (sessionMachine [] pong).init trace last ∧
      trace.map Prod.fst = pings ∧
      ∃ count lost, trace.map Prod.snd =
        ((List.range count).map fun index => some (some (pong index))) ++
          List.replicate lost none := by
  obtain ⟨trace, last, ran, calls, -⟩ := exists_run_pings
  exact ⟨trace, last, ran, calls, sessionMachine_replies pong_sendable ran⟩

/-- The commands that the server reads are those of the calls, in their order and none of them
twice: all that got a reply, and of those that got none at most the first. Behind a call that got
none nothing is sent, not even a part of a command. -/
theorem sessionMachine_commands (replies : ∀ index, (server index).Sendable 2)
    (ran : (sessionMachine past server).Run (sessionMachine past server).init trace last)
    {answered : Nat} (isAnswered : answered = (trace.map Prod.snd).countP Option.isSome) :
    ((issued trace).take answered).map commandTree <+: (replyReader.run start last.sent).1 ∧
      (replyReader.run start last.sent).1 <+: ((issued trace).take (answered + 1)).map commandTree ∧
      ∀ front middle, front <+: trace →
        (sessionMachine past server).Run (sessionMachine past server).init front middle →
        none ∈ front.map Prod.snd → last.sent = middle.sent := by
  obtain ⟨sendable, count, lost, answers, ⟨part, before⟩, ⟨missing, behind⟩⟩ :=
    (talks_of_run replies ran).said
  have counted : answered = count := by
    rw [isAnswered, answers]
    simp [Function.comp_def]
  have some' (count : Nat) : ∀ argv ∈ (issued trace).take count, (commandTree argv).Sendable 2 :=
    fun argv listed => sendable argv (List.mem_of_mem_take listed)
  subst counted
  refine ⟨?_, ?_, ?_⟩
  · rw [← run_texts (some' answered), ← before]
    exact Incremental.run_prefix_append _ _ _
  · rw [← run_texts (some' (answered + 1)), ← behind]
    exact Incremental.run_prefix_append _ _ _
  · rintro front middle ⟨back, rfl⟩ early failed
    obtain ⟨middle', early', late⟩ := ran.split
    obtain rfl := early.unique early'
    obtain ⟨_, broken⟩ := (talks_of_run replies early).broken failed
    exact sent_of_broken broken late

/-- The server can read one of the three commands, or two, and the third one is not sent. -/
theorem sessionMachine_commands_pings : ∃ trace last,
    (sessionMachine [] pong).Run (sessionMachine [] pong).init trace last ∧
      trace.map Prod.fst = pings ∧
      ((issued trace).take 1).map commandTree <+: (replyReader.run start last.sent).1 ∧
      (replyReader.run start last.sent).1 <+: ((issued trace).take 2).map commandTree ∧
      ∀ front middle, front <+: trace →
        (sessionMachine [] pong).Run (sessionMachine [] pong).init front middle →
        none ∈ front.map Prod.snd → last.sent = middle.sent := by
  obtain ⟨trace, last, ran, calls, answered⟩ := exists_run_pings
  have one : 1 = (trace.map Prod.snd).countP Option.isSome := by
    have counted : ((trace.map Prod.snd).map Option.isSome).countP id = 1 := by
      rw [of_decide_eq_true answered]
      rfl
    rw [← counted, List.countP_map]
    rfl
  exact ⟨trace, last, ran, calls, sessionMachine_commands pong_sendable ran one⟩

/-- Nothing is left of the replies, those of calls that failed included. -/
theorem sessionMachine_memory (replies : ∀ index, (server index).Sendable 2)
    (ran : (sessionMachine past server).Run (sessionMachine past server).init trace last) :
    ∃ objects, last.redisFree = .ok objects ∧ objects.values = (Heap.mk past).values :=
  (talks_of_run replies ran).free

/-- Behind `pings` the context can be freed and leaves no reply object. -/
theorem sessionMachine_memory_pings :
    ∃ trace last, (sessionMachine [] pong).Run (sessionMachine [] pong).init trace last ∧
      trace.map Prod.fst = pings ∧
      ∃ objects, last.redisFree = .ok objects ∧ objects.values = [] := by
  obtain ⟨trace, last, ran, calls, -⟩ := exists_run_pings
  exact ⟨trace, last, ran, calls, sessionMachine_memory pong_sendable ran⟩

/-- Behind calls that all got their reply, the next one gets its reply when there is room for its
command and the bytes of the reply arrive, in pieces of any size. -/
theorem sessionMachine_returns (replies : ∀ index, (server index).Sendable 2)
    (ran : (sessionMachine past server).Run (sessionMachine past server).init trace last)
    (answered : ∀ entry ∈ trace, entry.2.isSome) {format : Bytes} {command : RedisCommand}
    (formatted : redisvFormatCommand format = .ok (some command)) (nonblank : command.curargv ≠ [])
    {rooms : List Nat} (enough : command.cmd.length ≤ rooms.sum) {pieces : List Bytes}
    (sizes : ∀ piece ∈ pieces, piece ≠ [] ∧ piece.length ≤ 2048)
    (arrives : pieces.flatten = (server trace.length).wire)
    (shortCommand : command.cmd.length < 2 ^ 30)
    (shortReply : 1024 + pieces.flatten.length < 2 ^ 30) :
    ∃ next, (sessionMachine past server).Steps last ⟨format, rooms.map .takes, pieces.map .finds⟩
      (some (some (server trace.length))) next := by
  obtain ⟨past', -, sendable, ⟨aligned, answers⟩ | ⟨count, lost, -, positive, answers, -⟩⟩ :=
    talks_of_run replies ran
  · have count := congrArg List.length answers
    rw [List.length_map, List.length_map, List.length_range] at count
    have text := (redisvFormatCommand_some formatted).1
    have stored : ∃ free, last.obuf.sdscatlen command.cmd = .ok ⟨command.cmd, free⟩ := by
      have spec := last.obuf.sdscatlen_spec command.cmd
      rw [aligned.obuf, List.nil_append, List.length_nil] at spec
      rcases spec with ⟨free, grown, -⟩ | ⟨-, long⟩
      · exact ⟨free, grown⟩
      · omega
    obtain ⟨free, stored⟩ := stored
    have emitted : replyReader.next start pieces.flatten =
        .emit (server trace.length) start [] := by
      have read := next_reply (replies trace.length) []
      rwa [List.append_nil, ← arrives] at read
    obtain ⟨c1, waited, sent, received, reads⟩ := redisBlockForReply_returns
      (c := { last with obuf := ⟨command.cmd, free⟩ }) aligned.err aligned.block aligned.reader
        enough sizes shortReply emitted
    obtain ⟨found, size, objects, freeing, -⟩ := reads.takeReply
    have called : last.redisCommand format (rooms.map .takes) (pieces.map .finds) =
        .ok (some past'.length, c1) := by
      unfold RedisContext.redisCommand RedisContext.redisvAppendCommand
        RedisContext.redisAppendCommand
      rw [formatted]
      dsimp only
      rw [stored]
      exact waited
    have ran' : CommandCall.run ⟨format, rooms.map .takes, pieces.map .finds⟩ last =
        .ok ({ c1 with reader := { c1.reader with objects } },
          some (some (server trace.length))) := by
      rw [CommandCall.run, called]
      change (hiredis (freeReplyObject c1.reader.objects past'.length) >>= _) = _
      rw [freeing, ← found]
      rfl
    have delivered : Delivered server { c1 with reader := { c1.reader with objects } } := by
      have added : ∀ argv ∈ issued trace ++ [command.curargv], (commandTree argv).Sendable 2 :=
        List.forall_mem_append.mpr ⟨sendable,
          List.forall_mem_singleton.mpr
            (sendable_commandTree nonblank (redisvFormatCommand_some formatted).2)⟩
      change c1.received <+: repliesUpTo server (replyReader.run start c1.sent).1.length
      rw [sent, received]
      change last.received ++ _ <+:
        repliesUpTo server (replyReader.run start (last.sent ++ command.cmd)).1.length
      rw [text, aligned.sent, length_run_texts added, repliesUpTo_succ, aligned.received,
        arrives, count]
    have isCommand : arguments format = some command.curargv := by
      rw [arguments, formatted]
      rfl
    refine ⟨_, steps_iff.mpr ⟨?_, delivered, ran'⟩⟩
    rw [isCommand]
    exact fun blank => nonblank (Option.some.inj blank)
  · have lostOne : none ∈ trace.map Prod.snd := by
      rw [answers]
      exact List.mem_append_right _ (List.mem_replicate.mpr ⟨Nat.ne_of_gt positive, rfl⟩)
    obtain ⟨entry, listed, isNone⟩ := List.mem_map.mp lostOne
    have some' := answered entry listed
    rw [isNone] at some'
    cases some'

/-- A `PING` sent in two parts and answered in two parts returns the reply. -/
theorem sessionMachine_returns_ping :
    ∃ next, (sessionMachine [] pong).Steps (sessionMachine [] pong).init
      ⟨[80, 73, 78, 71], [5, 100].map .takes,
        [[43, 80, 79], [78, 71, 13, 10]].map .finds⟩ (some (some (pong 0))) next := by
  have formatted : redisvFormatCommand [80, 73, 78, 71] =
      .ok (some ⟨[[80, 73, 78, 71]], protocolText [[80, 73, 78, 71]]⟩) := by decide +kernel
  have enough : (protocolText [[80, 73, 78, 71]]).length ≤ [5, 100].sum := by decide +kernel
  have short : (protocolText [[80, 73, 78, 71]]).length < 2 ^ 30 := by decide +kernel
  have arrives : [[43, 80, 79], [78, 71, 13, 10]].flatten = (pong 0).wire := by decide +kernel
  exact sessionMachine_returns pong_sendable (.nil _) (fun entry listed =>
    absurd listed List.not_mem_nil) formatted
    (List.cons_ne_nil _ _) enough (by decide) arrives short (by decide)

end NetServer
