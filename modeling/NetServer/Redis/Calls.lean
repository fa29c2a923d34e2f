import NetServer.Redis.Context
import NetServer.Redis.Refinement

/-!
# What calls on a connection come to

For every sequence of outcomes of `write` and `read`: the loop that writes moves bytes from the
output buffer to the socket and keeps their order (`writeLoop_sends`), and the loop that reads comes
to what the reader of trees makes of all bytes that it received (`readLoop_spec`). A context on
which a call failed has its error set and nothing to return.
-/

namespace NetServer

open Lib ReplyState

variable {α β : Type} {c c' : RedisContext} {ok : Bool} {past : List (Option ReplyObject)}

/-- A computation of the strings or the reader returns. -/
theorem hiredis_eq_ok {result : Except HiredisFault α} {value : α} :
    hiredis result = .ok value ↔ result = .ok value := by
  cases result <;> simp [hiredis]

namespace RedisContext

/-! ## Writing -/

/-- Some of the output went out. -/
structure Sends (c c' : RedisContext) : Prop where
  stream : c'.sent ++ c'.obuf.buf = c.sent ++ c.obuf.buf
  grows : c.sent <+: c'.sent
  reader : c'.reader = c.reader
  received : c'.received = c.received
  block : c'.block = c.block

/-- Writes that follow each other send like one. -/
theorem Sends.trans {c'' : RedisContext} (first : Sends c c') (second : Sends c' c'') :
    Sends c c'' :=
  ⟨second.stream.trans first.stream, first.grows.trans second.grows,
    second.reader.trans first.reader, second.received.trans first.received,
    second.block.trans first.block⟩

/-- What was written leaves the output buffer. -/
theorem obuf_behind (obuf : Sds) {nwritten : Nat} (inside : nwritten ≤ obuf.sdslen) :
    (if nwritten > 0 then if nwritten = obuf.sdslen then sdsempty else obuf.sdsrange nwritten (-1)
      else obuf).buf =
      obuf.buf.drop nwritten := by
  split_ifs with some' all
  · rw [all]
    exact List.drop_length.symm
  · exact Sds.sdsrange_tail inside
  · rw [Nat.eq_zero_of_not_pos some', List.drop_zero]

/-- A write moves bytes to the socket, or sets the error of a context that blocks. -/
theorem redisBufferWrite_sends {outcome : Option WriteOutcome} {wdone : Bool}
    (noError : c.err = none) (block : c.block = true)
    (wrote : c.redisBufferWrite outcome = .ok (ok, wdone, c')) :
    Sends c c' ∧ (c'.err.isSome ↔ ok = false) ∧
      (ok = true → (wdone = true ↔ c'.obuf.buf = [])) := by
  unfold redisBufferWrite at wrote
  rw [if_neg (by rw [noError]; decide)] at wrote
  by_cases pending : c.obuf.sdslen > 0
  · rw [if_pos pending] at wrote
    rcases outcome with _ | ⟨eagain, strerror⟩ | room
    · cases wrote
    · rw [block] at wrote
      simp only [not_true_eq_false, and_false, if_false] at wrote
      cases wrote
      exact ⟨⟨rfl, List.prefix_rfl, rfl, rfl, rfl⟩, iff_of_true rfl rfl, nofun⟩
    · have rest := obuf_behind c.obuf (Nat.min_le_right room c.obuf.sdslen)
      dsimp only at wrote
      generalize (if min room c.obuf.sdslen > 0 then _ else _ : Sds) = obuf at rest wrote
      cases wrote
      refine ⟨⟨?_, List.prefix_append _ _, rfl, rfl, rfl⟩, by simp [noError], fun _ => ?_⟩
      · change c.sent ++ c.obuf.buf.take _ ++ obuf.buf = _
        rw [rest, List.append_assoc, List.take_append_drop]
      · rw [decide_eq_true_eq]
        exact List.length_eq_zero_iff
  · rw [if_neg pending] at wrote
    have empty : c.obuf.buf = [] := List.length_eq_zero_iff.mp (Nat.eq_zero_of_not_pos pending)
    cases wrote
    exact ⟨⟨rfl, List.prefix_rfl, rfl, rfl, rfl⟩, by simp [noError], fun _ => iff_of_true rfl empty⟩

/-- Without an outcome of `write` only a buffer that is empty is written. -/
theorem redisBufferWrite_none {wdone : Bool}
    (wrote : c.redisBufferWrite none = .ok (ok, wdone, c')) : wdone = ok := by
  unfold redisBufferWrite at wrote
  split_ifs at wrote
  · cases wrote
    rfl
  · cases wrote
    rfl

/-- The loop that writes moves bytes to the socket: all of them if it succeeds, and otherwise the
error is set. -/
theorem writeLoop_sends {outcomes : List WriteOutcome} (noError : c.err = none)
    (block : c.block = true) (wrote : c.writeLoop outcomes = .ok (ok, c')) :
    Sends c c' ∧ (c'.err.isSome ↔ ok = false) ∧ (ok = true → c'.obuf.buf = []) := by
  induction outcomes generalizing c with
  | nil =>
    obtain ⟨⟨ok', wdone, c1⟩, first, rest⟩ := bind_eq_ok.mp wrote
    obtain ⟨sends, failed, done⟩ := redisBufferWrite_sends noError block first
    have isDone := redisBufferWrite_none first
    cases rest
    exact ⟨sends, failed, fun success => (done success).mp (isDone.trans success)⟩
  | cons outcome outcomes ih =>
    obtain ⟨⟨ok', wdone, c1⟩, first, rest⟩ := bind_eq_ok.mp wrote
    obtain ⟨sends, failed, done⟩ := redisBufferWrite_sends noError block first
    dsimp only at rest
    split_ifs at rest with more
    · have noError' : c1.err = none := by
        rw [← Option.not_isSome_iff_eq_none, failed, more.1]
        decide
      obtain ⟨sends', ended⟩ := ih noError' (sends.block.trans block) rest
      exact ⟨sends.trans sends', ended⟩
    · cases rest
      refine ⟨sends, failed, fun success => (done success).mp ?_⟩
      by_contra unfinished
      exact more ⟨success, unfinished⟩

/-! ## Reading -/

/-- A context that has failed, with nothing to return. -/
structure Broken (past : List (Option ReplyObject)) (c : RedisContext) : Prop where
  err : c.err.isSome
  block : c.block = true
  reader : (∃ state input, Reads past c.reader state input ∧ replyReader.read state input = .wait) ∨
    ∃ errstr, Failed past c.reader errstr

/-- What looking for a reply comes to, for what the reader of trees comes to. -/
def Finds (past : List (Option ReplyObject)) (c : RedisContext)
    (result : Except CallEnd (Bool × Option Nat × RedisContext))
    (outcome : Outcome ReplyState UInt8 ReplyTree ReplyStop) : Prop :=
  match outcome with
  | .pause state rest =>
    ∃ reader, result = .ok (true, none, { c with reader }) ∧ Reads past reader state rest
  | .emit reply after rest =>
    after = start ∧ ∃ reader, result = .ok (true, some past.length, { c with reader }) ∧
      Reads (past ++ live (reply.layout past.length)) reader start rest
  | .stop (.error errstr) =>
    ∃ reader, result = .ok (false, none, { c with reader }.redisSetError reader.err reader.errstr) ∧
      Failed past reader errstr
  | .stop (.fault fault) => result = .error (.fault fault)

/-- Looking for a reply is looking for it in the reader. -/
theorem redisGetReplyFromReader_spec {state : ReplyState} {input : Bytes}
    (reads : Reads past c.reader state input) :
    Finds past c c.redisGetReplyFromReader (replyReader.next state input) := by
  have returns := redisReaderGetReply_spec reads
  generalize replyReader.next state input = outcome at returns
  rcases outcome with ⟨state', rest⟩ | ⟨reply, after, rest⟩ | errstr | fault
  · obtain ⟨reader, got, reads'⟩ := returns
    refine ⟨reader, ?_, reads'⟩
    rw [redisGetReplyFromReader, got]
    rfl
  · obtain ⟨isStart, reader, got, reads'⟩ := returns
    refine ⟨isStart, reader, ?_, reads'⟩
    rw [redisGetReplyFromReader, got]
    rfl
  · obtain ⟨reader, got, failed⟩ := returns
    refine ⟨reader, ?_, failed⟩
    rw [redisGetReplyFromReader, got]
    rfl
  · have got : c.reader.redisReaderGetReply = .error fault := returns
    change _ = _
    rw [redisGetReplyFromReader, got]
    rfl

variable {state : ReplyState} {input : Bytes}

/-- A read puts bytes behind those that were not consumed, or sets the error of a context that
blocks. -/
theorem redisBufferRead_spec {outcome : Option ReadOutcome} (noError : c.err = none)
    (block : c.block = true) (reads : Reads past c.reader state input)
    (read : c.redisBufferRead outcome = .ok (ok, c')) :
    (ok = true ∧ ∃ buf reader, c' = { c with reader, received := c.received ++ buf } ∧
      Reads past reader state (input ++ buf)) ∨
    ok = false ∧ c'.err.isSome ∧ ∃ err errstr, c' = { c with err, errstr } := by
  unfold redisBufferRead at read
  rw [if_neg (by rw [noError]; decide)] at read
  rcases outcome with _ | ⟨eagain, strerror⟩ | available
  · cases read
  · rw [block] at read
    simp only [not_true_eq_false, and_false, if_false] at read
    cases read
    exact .inr ⟨rfl, rfl, _, _, rfl⟩
  · dsimp only at read
    split_ifs at read with closed
    · cases read
      refine .inr ⟨rfl, rfl, some .eof, (cString (bytes "Server closed the connection")).take 127,
        ?_⟩
      rw [closed, List.append_nil]
      rfl
    · obtain ⟨⟨fed, reader⟩, feeds, rest⟩ := bind_eq_ok.mp read
      rcases redisReaderFeed_spec reads (available.take 2048) with
        ⟨reader', fedOk, reads'⟩ | ⟨overflow, -⟩
      · have same := (hiredis_eq_ok.mp feeds).symm.trans fedOk
        cases same
        cases rest
        exact .inl ⟨rfl, available.take 2048, reader, rfl, reads'⟩
      · have contra := (hiredis_eq_ok.mp feeds).symm.trans overflow
        cases contra

/-- The loop that reads comes to what the reader of trees makes of the bytes that were received: a
reply, or an error that is set in the context. -/
theorem readLoop_spec {outcomes : List ReadOutcome} {reply : Option Nat} (noError : c.err = none)
    (block : c.block = true) (reads : Reads past c.reader state input)
    (waits : replyReader.read state input = .wait)
    (read : c.readLoop outcomes = .ok (ok, reply, c')) :
    c'.sent = c.sent ∧ c'.obuf = c.obuf ∧
    ((ok = true ∧ reply = some past.length ∧ c'.err = none ∧ c'.block = true ∧ ∃ more tree rest,
        c'.received = c.received ++ more ∧ replyReader.next state (input ++ more) =
          .emit tree start rest ∧
        Reads (past ++ live (tree.layout past.length)) c'.reader start rest) ∨
      ok = false ∧ reply = none ∧ Broken past c') := by
  induction outcomes generalizing c state input with
  | nil =>
    obtain ⟨⟨ok', c1⟩, first, rest⟩ := bind_eq_ok.mp read
    unfold redisBufferRead at first
    rw [if_neg (by rw [noError]; decide)] at first
    cases first
  | cons outcome outcomes ih =>
    obtain ⟨⟨ok', c1⟩, first, rest⟩ := bind_eq_ok.mp read
    rcases redisBufferRead_spec noError block reads first with
      ⟨rfl, buf, reader, rfl, reads'⟩ | ⟨rfl, failed, err, errstr, rfl⟩
    · dsimp only at rest
      rw [if_neg (not_not_intro rfl)] at rest
      obtain ⟨⟨ok'', aux, c2⟩, second, rest⟩ := bind_eq_ok.mp rest
      have finds :=
        redisGetReplyFromReader_spec (c := { c with reader, received := c.received ++ buf }) reads'
      rw [second] at finds
      cases came : replyReader.next state (input ++ buf) with
      | pause state' left =>
        rw [came] at finds
        obtain ⟨reader', got, reads''⟩ := finds
        cases got
        dsimp only at rest
        rw [if_pos ⟨rfl, rfl⟩] at rest
        obtain ⟨sent, obuf, ended⟩ :=
          ih (c := { c with reader := reader', received := c.received ++ buf }) noError block
            reads'' (Incremental.read_of_pause came) rest
        refine ⟨sent, obuf, ended.imp_left ?_⟩
        rintro ⟨isOk, isReply, noError', block', more, tree, behind, received, emitted, reads'⟩
        refine ⟨isOk, isReply, noError', block', buf ++ more, tree, behind, ?_, ?_, reads'⟩
        · rw [received, List.append_assoc]
        · have longer := Incremental.next_append replyReader state (input ++ buf) more
          rw [came] at longer
          rw [← List.append_assoc]
          exact longer.trans emitted
      | emit tree after left =>
        rw [came] at finds
        obtain ⟨rfl, reader', got, reads''⟩ := finds
        cases got
        cases rest
        exact ⟨rfl, rfl, .inl ⟨rfl, rfl, noError, block, buf, tree, left, rfl, came, reads''⟩⟩
      | stop reason =>
        rw [came] at finds
        cases reason with
        | error errstr =>
          obtain ⟨reader', got, failed⟩ := finds
          cases got
          cases rest
          have isError : reader'.err.isSome := by
            rw [failed.err]
            rfl
          exact ⟨rfl, rfl, .inr ⟨rfl, rfl, isError, block, .inr ⟨errstr, failed⟩⟩⟩
        | fault fault => cases finds
    · cases rest
      exact ⟨rfl, rfl, .inr ⟨rfl, rfl, failed, block, .inl ⟨state, input, reads, waits⟩⟩⟩

/-! ## Commands -/

variable {format : Bytes} {writes : List WriteOutcome} {reads : List ReadOutcome}
  {reply : Option Nat}

/-- A context that has failed finds no reply. -/
theorem redisGetReplyFromReader_broken (broken : Broken past c) :
    ∃ ok c', c.redisGetReplyFromReader = .ok (ok, none, c') ∧ Broken past c' ∧
      c'.sent = c.sent := by
  rcases broken.reader with ⟨state, input, reads, waits⟩ | ⟨errstr, failed⟩
  · have finds := redisGetReplyFromReader_spec reads
    rw [Incremental.next_wait waits] at finds
    obtain ⟨reader, got, reads'⟩ := finds
    exact ⟨true, _, got, ⟨broken.err, broken.block, .inl ⟨state, input, reads', waits⟩⟩, rfl⟩
  · have isError : c.reader.err.isSome := by
      rw [failed.err]
      rfl
    have got : c.reader.redisReaderGetReply = .ok (false, none, c.reader) := if_pos isError
    refine ⟨false, c.redisSetError c.reader.err c.reader.errstr, ?_,
      ⟨isError, broken.block, .inr ⟨errstr, failed⟩⟩, rfl⟩
    rw [redisGetReplyFromReader, got]
    rfl

/-- Nothing is written on a context with an error. -/
theorem writeLoop_error (failed : c.err.isSome) (outcomes : List WriteOutcome) :
    c.writeLoop outcomes = .ok (false, c) := by
  have refused (outcome : Option WriteOutcome) :
    c.redisBufferWrite outcome = .ok (false, false, c) := if_pos failed
  cases outcomes with
  | nil =>
    rw [writeLoop, refused]
    rfl
  | cons outcome outcomes =>
    rw [writeLoop, refused]
    rfl

/-- On a context that has failed a command gets no reply, and nothing is sent. -/
theorem redisBlockForReply_broken (broken : Broken past c) :
    ∃ c', c.redisBlockForReply writes reads = .ok (none, c') ∧ Broken past c' ∧
      c'.sent = c.sent := by
  obtain ⟨ok, c', got, broken', sent⟩ := redisGetReplyFromReader_broken broken
  refine ⟨c', ?_, broken', sent⟩
  rw [redisBlockForReply, if_pos broken.block, redisGetReply, got]
  cases ok with
  | false => rfl
  | true =>
    change (if true ∧ none = none ∧ c'.block then _ else _ : Except CallEnd _) >>= _ = _
    rw [if_pos ⟨rfl, rfl, broken'.block⟩, writeLoop_error broken'.err]
    rfl

/-- On a context between two commands the output is sent and a reply is read, or there is an
error. -/
theorem redisBlockForReply_idle (noError : c.err = none) (block : c.block = true)
    (reader : Reads past c.reader start [])
    (called : c.redisBlockForReply writes reads = .ok (reply, c')) :
    c.sent <+: c'.sent ∧ c'.sent <+: c.sent ++ c.obuf.buf ∧
    ((reply = some past.length ∧ c'.err = none ∧ c'.block = true ∧ c'.obuf.buf = [] ∧
        c'.sent = c.sent ++ c.obuf.buf ∧ ∃ more tree rest, c'.received = c.received ++ more ∧
          replyReader.next start more = .emit tree start rest ∧
          Reads (past ++ live (tree.layout past.length)) c'.reader start rest) ∨
      reply = none ∧ Broken past c') := by
  have finds := redisGetReplyFromReader_spec reader
  rw [Incremental.next_wait rfl] at finds
  obtain ⟨reader1, got, reads1⟩ := finds
  rw [redisBlockForReply, if_pos block, redisGetReply, got] at called
  change ((if true ∧ none = none ∧ c.block then _ else _ : Except CallEnd _) >>= _) = _ at called
  rw [if_pos ⟨rfl, rfl, block⟩] at called
  obtain ⟨⟨ok, aux, c3⟩, exchanged, rest⟩ := bind_eq_ok.mp called
  obtain ⟨⟨written, c2⟩, wrote, read⟩ := bind_eq_ok.mp exchanged
  obtain ⟨sends, failed, all⟩ :=
    writeLoop_sends (c := { c with reader := reader1 }) noError block wrote
  have inside : c2.sent <+: c.sent ++ c.obuf.buf := ⟨c2.obuf.buf, sends.stream⟩
  have reads2 : Reads past c2.reader start [] := by
    rw [sends.reader]
    exact reads1
  cases written with
  | false =>
    cases read
    cases rest
    exact ⟨sends.grows, inside,
      .inr ⟨rfl, failed.mpr rfl, sends.block.trans block, .inl ⟨start, [], reads2, rfl⟩⟩⟩
  | true =>
    have noError2 : c2.err = none := by
      rw [← Option.not_isSome_iff_eq_none, failed]
      decide
    have whole : c2.sent = c.sent ++ c.obuf.buf := by
      have stream := sends.stream
      rwa [all rfl, List.append_nil] at stream
    obtain ⟨sent, obuf, ended⟩ := readLoop_spec noError2 (sends.block.trans block) reads2 rfl read
    cases rest
    rw [sent]
    refine ⟨sends.grows, inside, ?_⟩
    rcases ended with ⟨rfl, rfl, noError3, block3, more, tree, left, received, emitted,
      reads3⟩ | ⟨rfl, rfl, broken⟩
    · refine .inl ⟨rfl, noError3, block3, ?_, whole, more, tree, left, ?_, emitted, reads3⟩
      · rw [obuf]
        exact all rfl
      · rw [received, sends.received]
    · exact .inr ⟨rfl, broken⟩

/-! ## Calls that return -/

/-- A write for which there is room. -/
theorem redisBufferWrite_takes (noError : c.err = none) (room : Nat) :
    ∃ obuf sent, c.redisBufferWrite (some (.takes room)) =
      .ok (true, obuf.sdslen = 0, { c with obuf, sent }) ∧
      obuf.sdslen = c.obuf.sdslen - room := by
  unfold redisBufferWrite
  rw [if_neg (by rw [noError]; decide)]
  by_cases pending : c.obuf.sdslen > 0
  · refine ⟨_, _, if_pos pending, ?_⟩
    rw [Sds.sdslen, obuf_behind c.obuf (Nat.min_le_right room c.obuf.sdslen), List.length_drop]
    change c.obuf.sdslen - _ = _
    omega
  · have empty : c.obuf.sdslen = 0 := Nat.eq_zero_of_not_pos pending
    refine ⟨c.obuf, c.sent, ?_, by omega⟩
    rw [if_neg pending, empty]
    rfl

/-- The loop that writes returns when there is room for all of the output. -/
theorem writeLoop_takes {rooms : List Nat} (noError : c.err = none)
    (enough : c.obuf.sdslen ≤ rooms.sum) :
    ∃ c', c.writeLoop (rooms.map .takes) = .ok (true, c') := by
  induction rooms generalizing c with
  | nil =>
    have empty : ¬c.obuf.sdslen > 0 := Nat.not_lt.mpr enough
    refine ⟨c, ?_⟩
    rw [List.map_nil, writeLoop, redisBufferWrite, if_neg (by rw [noError]; decide), if_neg empty]
    rfl
  | cons room rooms ih =>
    obtain ⟨obuf, sent, wrote, left⟩ := redisBufferWrite_takes noError room
    rw [List.sum_cons] at enough
    rw [List.map_cons, writeLoop, wrote]
    by_cases done : obuf.sdslen = 0
    · exact ⟨{ c with obuf, sent }, by simp [bind, Except.bind, pure, Except.pure, done]⟩
    · obtain ⟨c', behind⟩ :=
        ih (c := { c with obuf, sent }) noError (by change obuf.sdslen ≤ _; omega)
      exact ⟨c', by simpa [bind, Except.bind, done] using behind⟩

/-- A read that finds something puts it behind what was not consumed. -/
theorem redisBufferRead_finds {piece : Bytes} (noError : c.err = none)
    (reads : Reads past c.reader state input) (size : piece ≠ [] ∧ piece.length ≤ 2048)
    (short : 1024 + input.length + piece.length < 2 ^ 30) :
    ∃ reader, c.redisBufferRead (some (.finds piece)) =
      .ok (true, { c with reader, received := c.received ++ piece }) ∧
      Reads past reader state (input ++ piece) := by
  rcases redisReaderFeed_spec reads piece with ⟨reader, fed, reads'⟩ | ⟨-, long⟩
  · refine ⟨reader, ?_, reads'⟩
    unfold redisBufferRead
    rw [if_neg (by rw [noError]; decide)]
    simp only [List.take_of_length_le size.2, if_neg size.1, fed]
    rfl
  · omega

/-- The loop that reads returns the reply that arrives. -/
theorem readLoop_finds {pieces : List Bytes} {tree : ReplyTree} (noError : c.err = none)
    (block : c.block = true) (reads : Reads past c.reader state input)
    (waits : replyReader.read state input = .wait)
    (sizes : ∀ piece ∈ pieces, piece ≠ [] ∧ piece.length ≤ 2048)
    (short : 1024 + input.length + pieces.flatten.length < 2 ^ 30)
    (arrives : replyReader.next state (input ++ pieces.flatten) = .emit tree start []) :
    ∃ reader, c.readLoop (pieces.map .finds) =
        .ok (true, some past.length, { c with reader, received := c.received ++ pieces.flatten }) ∧
      Reads (past ++ live (tree.layout past.length)) reader start [] := by
  induction pieces generalizing c state input with
  | nil =>
    rw [List.flatten_nil, List.append_nil, Incremental.next_wait waits] at arrives
    cases arrives
  | cons piece pieces ih =>
    rw [List.forall_mem_cons] at sizes
    rw [List.flatten_cons, List.length_append] at short
    rw [List.flatten_cons, ← List.append_assoc] at arrives
    obtain ⟨reader, read, reads'⟩ := redisBufferRead_finds noError reads sizes.1 (by omega)
    have finds :=
      redisGetReplyFromReader_spec (c := { c with reader, received := c.received ++ piece }) reads'
    have longer := Incremental.next_append replyReader state (input ++ piece) pieces.flatten
    rw [arrives] at longer
    rw [List.map_cons, readLoop, read, List.flatten_cons, ← List.append_assoc]
    change ∃ reader, (RedisContext.redisGetReplyFromReader _ >>= _) =
      .ok (true, some past.length, _) ∧ _
    cases came : replyReader.next state (input ++ piece) with
    | pause state' left =>
      rw [came] at finds longer
      obtain ⟨reader', got, reads''⟩ := finds
      have shorter := Incremental.length_le_of_pause came
      rw [List.length_append] at shorter
      rw [got]
      exact ih (c := { c with reader := reader', received := c.received ++ piece }) noError
        block reads''
        (Incremental.read_of_pause came) sizes.2 (by omega) longer.symm
    | emit tree' after left =>
      rw [came] at finds longer
      obtain ⟨-, reader', got, reads''⟩ := finds
      have isReply := Outcome.emit.inj longer
      obtain ⟨nothing, noneMissing⟩ := List.append_eq_nil_iff.mp isReply.2.2.symm
      rw [nothing] at reads''
      rw [isReply.1, noneMissing, List.append_nil]
      exact ⟨reader', by rw [got]; rfl, reads''⟩
    | stop reason =>
      rw [came] at longer
      cases longer

/-- A command gets its reply when there is room for the output and the reply arrives. -/
theorem redisBlockForReply_returns {rooms : List Nat} {pieces : List Bytes} {tree : ReplyTree}
    (noError : c.err = none) (block : c.block = true) (reader : Reads past c.reader start [])
    (enough : c.obuf.sdslen ≤ rooms.sum)
    (sizes : ∀ piece ∈ pieces, piece ≠ [] ∧ piece.length ≤ 2048)
    (short : 1024 + pieces.flatten.length < 2 ^ 30)
    (arrives : replyReader.next start pieces.flatten = .emit tree start []) :
    ∃ c', c.redisBlockForReply (rooms.map .takes) (pieces.map .finds) = .ok (some past.length, c') ∧
      c'.sent = c.sent ++ c.obuf.buf ∧ c'.received = c.received ++ pieces.flatten ∧
      Reads (past ++ live (tree.layout past.length)) c'.reader start [] := by
  have finds := redisGetReplyFromReader_spec reader
  rw [Incremental.next_wait rfl] at finds
  obtain ⟨reader1, got, reads1⟩ := finds
  obtain ⟨c2, wrote⟩ := writeLoop_takes (c := { c with reader := reader1 }) noError enough
  obtain ⟨sends, failed, all⟩ :=
    writeLoop_sends (c := { c with reader := reader1 }) noError block wrote
  have noError2 : c2.err = none := by
    rw [← Option.not_isSome_iff_eq_none, failed]
    decide
  have reads2 : Reads past c2.reader start [] := by
    rw [sends.reader]
    exact reads1
  have whole : c2.sent = c.sent ++ c.obuf.buf := by
    have stream := sends.stream
    rwa [all rfl, List.append_nil] at stream
  obtain ⟨reader3, read, reads3⟩ :=
    readLoop_finds noError2 (sends.block.trans block) reads2 rfl sizes
      (by rw [List.length_nil]; omega) (by rw [List.nil_append]; exact arrives)
  refine ⟨{ c2 with reader := reader3, received := c2.received ++ pieces.flatten }, ?_, whole,
    ?_, reads3⟩
  · rw [redisBlockForReply, if_pos block, redisGetReply, got]
    change ((if true ∧ none = none ∧ c.block then _ else _ : Except CallEnd _) >>= _) = _
    rw [if_pos ⟨rfl, rfl, block⟩, wrote]
    change (c2.readLoop _ >>= _) = _
    rw [read]
    rfl
  · change c2.received ++ _ = _
    rw [sends.received]

end RedisContext

end NetServer
