import NetServer.Redis.Format
import NetServer.Redis.Reader

/-!
# A connection of hiredis, `redisContext`

A command is put into the output buffer of the context. For its reply the buffer is written to the
socket and the socket is read until the reader of the context has a reply, in as many calls of
`write` and `read` as it takes. What these calls come to is input, in the order in which they are
made; a call of hiredis that needs more of them than there are waits. `sent` and `received` are what
has passed through the socket.
-/

namespace NetServer

open Lib

/-- Why a call does not return. -/
inductive CallEnd where
  /-- It waits for the socket. -/
  | waits
  | format (fault : FormatFault)
  | fault (fault : HiredisFault)
  deriving DecidableEq, Repr

/-- What `write` comes to. -/
inductive WriteOutcome where
  /-- It fails, with whether `errno` is `EAGAIN` and the text of the error. -/
  | fails (eagain : Bool) (strerror : Bytes)
  /-- It takes the bytes for which there is room. -/
  | takes (room : Nat)
  deriving DecidableEq, Repr

/-- What `read` comes to. -/
inductive ReadOutcome where
  /-- It fails, with whether `errno` is `EAGAIN` and the text of the error. -/
  | fails (eagain : Bool) (strerror : Bytes)
  /-- It returns what is there, as far as the memory for it reaches, and nothing at the end of the
  stream. -/
  | finds (available : Bytes)
  deriving DecidableEq, Repr

/-- The fields of `redisContext`, with `block` for the flag `REDIS_BLOCK`, and the bytes that went
through `fd`. -/
structure RedisContext where
  err : Option RedisErr
  errstr : Bytes
  block : Bool
  obuf : Sds
  reader : RedisReader
  sent : Bytes
  received : Bytes
  deriving DecidableEq, Repr

/-- A fault of the strings or the reader is one of the call. -/
def hiredis {α : Type} : Except HiredisFault α → Except CallEnd α
  | .ok value => .ok value
  | .error fault => .error (.fault fault)

namespace RedisContext

/-- `redisContextInit` behind a connection that was made, as `redisConnectWithTimeout` leaves it. -/
def connected (objects : Heap ReplyObject) : RedisContext :=
  ⟨none, [], true, sdsempty, .create objects, [], []⟩

variable (c : RedisContext)

/-- `__redisSetError`. -/
def redisSetError (type : Option RedisErr) (str : Bytes) : RedisContext :=
  { c with err := type, errstr := (cString str).take 127 }

/-- `redisBufferRead`, where the result tells whether it returned `REDIS_OK`. -/
def redisBufferRead (outcome : Option ReadOutcome) : Except CallEnd (Bool × RedisContext) :=
  if c.err.isSome then .ok (false, c)
  else
    match outcome with
    | none => .error .waits
    | some (.fails eagain strerror) =>
      if eagain ∧ ¬c.block then .ok (true, c) else .ok (false, c.redisSetError (some .io) strerror)
    | some (.finds available) =>
      let buf := available.take 2048
      let c := { c with received := c.received ++ buf }
      if buf = [] then
        .ok (false, c.redisSetError (some .eof) (bytes "Server closed the connection"))
      else do
        let (ok, reader) ← hiredis (c.reader.redisReaderFeed buf)
        let c := { c with reader }
        if ok then return (true, c) else return (false, c.redisSetError reader.err reader.errstr)

/-- `redisBufferWrite`, where the result tells whether it returned `REDIS_OK`, and whether all was
written. -/
def redisBufferWrite (outcome : Option WriteOutcome) :
    Except CallEnd (Bool × Bool × RedisContext) :=
  if c.err.isSome then .ok (false, false, c)
  else if c.obuf.sdslen > 0 then
    match outcome with
    | none => .error .waits
    | some (.fails eagain strerror) =>
      if eagain ∧ ¬c.block then
        .ok (true, false, c) else .ok (false, false, c.redisSetError (some .io) strerror)
    | some (.takes room) =>
      let nwritten := min room c.obuf.sdslen
      let obuf :=
        if nwritten > 0 then
          if nwritten = c.obuf.sdslen then sdsempty else c.obuf.sdsrange nwritten (-1)
        else c.obuf
      .ok (true, obuf.sdslen = 0, { c with obuf, sent := c.sent ++ c.obuf.buf.take nwritten })
  else .ok (true, true, c)

/-- `redisGetReplyFromReader`, with what it returns and the reply it finds. -/
def redisGetReplyFromReader : Except CallEnd (Bool × Option Nat × RedisContext) := do
  let (ok, reply, reader) ← hiredis c.reader.redisReaderGetReply
  let c := { c with reader }
  if ok then return (true, reply, c)
    else return (false, none, c.redisSetError reader.err reader.errstr)

/-- The loop that writes until all is written. -/
def writeLoop (c : RedisContext) : List WriteOutcome → Except CallEnd (Bool × RedisContext)
  | [] => do
    let (ok, _, c) ← c.redisBufferWrite none
    return (ok, c)
  | outcome :: outcomes => do
    let (ok, wdone, c) ← c.redisBufferWrite (some outcome)
    if ok ∧ ¬wdone then c.writeLoop outcomes else return (ok, c)

/-- The loop that reads until there is a reply. -/
def readLoop (c : RedisContext) :
    List ReadOutcome → Except CallEnd (Bool × Option Nat × RedisContext)
  | [] => do
    let (_, c) ← c.redisBufferRead none
    return (false, none, c)
  | outcome :: outcomes => do
    let (ok, c) ← c.redisBufferRead (some outcome)
    if ¬ok then return (false, none, c)
    let (ok, aux, c) ← c.redisGetReplyFromReader
    if ok ∧ aux = none then c.readLoop outcomes else return (ok, aux, c)

/-- `redisGetReply`, with what it returns and the reply. -/
def redisGetReply (writes : List WriteOutcome) (reads : List ReadOutcome) :
    Except CallEnd (Bool × Option Nat × RedisContext) := do
  let (ok, aux, c) ← c.redisGetReplyFromReader
  if ok ∧ aux = none ∧ c.block then
    let (ok, c) ← c.writeLoop writes
    if ok then c.readLoop reads else return (false, none, c)
  else return (ok, aux, c)

/-- `__redisAppendCommand`, where memory that can be asked for is there. -/
def redisAppendCommand (cmd : Bytes) : Except CallEnd RedisContext := do
  let newbuf ← hiredis (c.obuf.sdscatlen cmd)
  return { c with obuf := newbuf }

/-- `redisvAppendCommand`, where the result tells whether it returned `REDIS_OK`. -/
def redisvAppendCommand (format : Bytes) : Except CallEnd (Bool × RedisContext) :=
  match redisvFormatCommand format with
  | .error fault => .error (.format fault)
  | .ok none => .ok (false, c.redisSetError (some .oom) (bytes "Out of memory"))
  | .ok (some command) => do
    let c ← c.redisAppendCommand command.cmd
    return (true, c)

/-- `__redisBlockForReply`. -/
def redisBlockForReply (writes : List WriteOutcome) (reads : List ReadOutcome) :
    Except CallEnd (Option Nat × RedisContext) :=
  if c.block then do
    let (ok, reply, c) ← c.redisGetReply writes reads
    return (if ok then reply else none, c)
  else .ok (none, c)

/-- `redisCommand` without arguments behind the format. -/
def redisCommand (format : Bytes) (writes : List WriteOutcome) (reads : List ReadOutcome) :
    Except CallEnd (Option Nat × RedisContext) := do
  let (ok, c) ← c.redisvAppendCommand format
  if ok then c.redisBlockForReply writes reads else return (none, c)

/-- `redisFree`, with the objects that are left. -/
def redisFree : Except HiredisFault (Heap ReplyObject) := c.reader.free

end RedisContext

end NetServer
