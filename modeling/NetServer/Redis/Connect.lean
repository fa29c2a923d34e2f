import NetServer.Redis.Context

/-!
# Making a connection, `net.c`

`redisContextConnectTcp` creates a socket, makes it non-blocking, connects it and makes it blocking
again. Whatever fails behind the creation of the socket closes it, and only a connection that was
made leaves its descriptor in the context (`redisConnectWithTimeout_spec`). A connection counts as
made when the socket of a pending `connect` can be written to, which it also can when the server
refused: `redisCheckSocketError`, which could tell, is not called. And `FD_SET` has no room for a
descriptor from `FD_SETSIZE` on.

What the calls of the system come to is input, with the text of `strerror_r` where they fail. The
open descriptors are those of the whole process.
-/

namespace NetServer

open Lib

/-- Why a call of a client does not return. -/
inductive ClientEnd where
  /-- A call on its context does not. -/
  | call (reason : CallEnd)
  /-- `redisCommand` gets a null context. -/
  | nullContext
  /-- `close` gets a descriptor that is not open. -/
  | badClose
  /-- `FD_SET` writes behind the set. -/
  | wildSet
  deriving DecidableEq, Repr

/-- What `connect` comes to. -/
inductive ConnectResult where
  | connects
  /-- `errno` is `EINPROGRESS`, and `select` fails or tells whether the socket can be written to in
  time. -/
  | inProgress (select : Except Bytes Bool)
  | fails (strerror : Bytes)
  deriving DecidableEq, Repr

/-- What the calls of `redisContextConnectTcp` come to. Those without a result have the text of
their error when they fail. -/
structure ConnectCalls where
  socket : Except Bytes Int
  reuseAddr : Option Bytes
  getfl : Option Bytes
  setfl : Option Bytes
  /-- Whether the address is a number. -/
  inetPton : Bool
  /-- Whether the address is the name of a host. -/
  gethostbyname : Bool
  connect : ConnectResult
  getflAgain : Option Bytes
  setflAgain : Option Bytes
  noDelay : Option Bytes
  deriving DecidableEq, Repr

/-- `FD_SETSIZE`. -/
def fdSetSize : Int := 1024

/-- `close`. -/
def closeDescriptor (opened : List Int) (fd : Int) : Except ClientEnd (List Int) :=
  if fd ∈ opened then .ok (opened.erase fd) else .error .badClose

/-- A fault of freeing is one of the call. -/
def freeing {α : Type} : Except HiredisFault α → Except ClientEnd α
  | .ok value => .ok value
  | .error fault => .error (.call (.fault fault))

/-- `__redisSetErrorFromErrno`. -/
def RedisContext.redisSetErrorFromErrno (c : RedisContext) (label : Option Bytes)
    (strerror : Bytes) : RedisContext :=
  let buf := match label with
    | none => strerror
    | some label => label ++ bytes ": " ++ strerror
  c.redisSetError (some .io) (buf.take 127)

/-- A context that is being connected, and the open descriptors. -/
structure Connecting where
  opened : List Int
  c : RedisContext

namespace Connecting

variable (state : Connecting)

/-- The error path of `net.c`: the error is set, the socket is closed and `REDIS_ERR` is
returned. -/
def refuse (fd : Int) (c : RedisContext) : Except ClientEnd (Bool × Connecting) := do
  let opened ← closeDescriptor state.opened fd
  return (false, ⟨opened, c⟩)

/-- A call that only succeeds or fails. -/
def attempt (fd : Int) (label : Option Bytes) : Option Bytes → Except ClientEnd (Bool × Connecting)
  | none => .ok (true, state)
  | some strerror => state.refuse fd (state.c.redisSetErrorFromErrno label strerror)

/-- Go on unless `REDIS_ERR` was returned. -/
def andThen (result : Except ClientEnd (Bool × Connecting))
    (next : Connecting → Except ClientEnd (Bool × Connecting)) :
    Except ClientEnd (Bool × Connecting) := do
  let (ok, state) ← result
  if ok then next state else return (false, state)

/-- `redisSetBlocking`. -/
def redisSetBlocking (fd : Int) (getfl setfl : Option Bytes) :
    Except ClientEnd (Bool × Connecting) :=
  andThen (state.attempt fd (bytes "fcntl(F_GETFL)") getfl) fun state =>
    state.attempt fd (bytes "fcntl(F_SETFL)") setfl

/-- `redisSetTcpNoDelay`. -/
def redisSetTcpNoDelay (fd : Int) (noDelay : Option Bytes) : Except ClientEnd (Bool × Connecting) :=
  state.attempt fd (bytes "setsockopt(TCP_NODELAY)") noDelay

/-- `gethostbyname` where the address is not a number. -/
def resolve (fd : Int) (addr : Bytes) (calls : ConnectCalls) :
    Except ClientEnd (Bool × Connecting) :=
  if calls.inetPton ∨ calls.gethostbyname then .ok (true, state)
  else state.refuse fd
    (state.c.redisSetError (some .other) ((bytes "Can't resolve: " ++ addr).take 127))

/-- `redisContextWaitReady` for a pending `connect`. -/
def awaitWritable (fd : Int) (select : Except Bytes Bool) : Except ClientEnd (Bool × Connecting) :=
  if fd < fdSetSize then
    match select with
    | .error strerror =>
      state.refuse fd (state.c.redisSetErrorFromErrno (bytes "select(2)") strerror)
    | .ok true => .ok (true, state)
    | .ok false =>
      state.refuse fd (state.c.redisSetErrorFromErrno none (bytes "Connection timed out"))
  else .error .wildSet

/-- `connect`, with `redisContextWaitReady` when it does not succeed at once. -/
def awaitConnect (fd : Int) : ConnectResult → Except ClientEnd (Bool × Connecting)
  | .connects => .ok (true, state)
  | .inProgress select => if state.c.block then state.awaitWritable fd select else .ok (true, state)
  | .fails strerror => state.refuse fd (state.c.redisSetErrorFromErrno none strerror)

/-- `redisCreateSocket`, with the descriptor when it does not return `REDIS_ERR`. -/
def redisCreateSocket (calls : ConnectCalls) : Except ClientEnd (Option Int × Connecting) :=
  match calls.socket with
  | .error strerror => .ok (none, { state with c := state.c.redisSetErrorFromErrno none strerror })
  | .ok s => do
    let (ok, state) ← { state with opened := s :: state.opened }.attempt s none calls.reuseAddr
    return (if ok then some s else none, state)

/-- `redisContextConnectTcp` behind the creation of the socket. -/
def connectSocket (s : Int) (addr : Bytes) (calls : ConnectCalls) :
    Except ClientEnd (Bool × Connecting) :=
  andThen (state.redisSetBlocking s calls.getfl calls.setfl) fun state =>
  andThen (state.resolve s addr calls) fun state =>
  andThen (state.awaitConnect s calls.connect) fun state =>
  andThen (if state.c.block then state.redisSetBlocking s calls.getflAgain calls.setflAgain
    else .ok (true, state))
    fun state => state.redisSetTcpNoDelay s calls.noDelay

/-- `redisContextConnectTcp`, with the descriptor of the connection when it returns `REDIS_OK`. -/
def redisContextConnectTcp (addr : Bytes) (calls : ConnectCalls) :
    Except ClientEnd (Option Int × Connecting) := do
  let (created, state) ← state.redisCreateSocket calls
  match created with
  | none => return (none, state)
  | some s =>
    let (ok, state) ← state.connectSocket s addr calls
    return (if ok then some s else none, state)

end Connecting

/-- A context with its descriptor. -/
structure RedisLink where
  fd : Int
  c : RedisContext
  deriving DecidableEq, Repr

/-- `redisConnectWithTimeout`, where memory for the context is there. The descriptor of a new
context is 0. -/
def redisConnectWithTimeout (opened : List Int) (objects : Heap ReplyObject) (addr : Bytes)
    (calls : ConnectCalls) : Except ClientEnd (List Int × RedisLink) := do
  let (s, state) ← Connecting.redisContextConnectTcp ⟨opened, .connected objects⟩ addr calls
  return (state.opened, ⟨s.getD 0, state.c⟩)

/-- `redisFree` of the descriptor. -/
def RedisLink.closes (opened : List Int) (link : RedisLink) : Except ClientEnd (List Int) :=
  if link.fd > 0 then closeDescriptor opened link.fd else .ok opened

/-- `redisFree`, with the open descriptors and the objects that are left. -/
def RedisLink.redisFree (opened : List Int) (link : RedisLink) :
    Except ClientEnd (List Int × Heap ReplyObject) := do
  let opened ← link.closes opened
  let objects ← freeing link.c.redisFree
  return (opened, objects)

/-! ## What making a connection comes to -/

/-- Whether the socket of a connection that waits for it can be used. -/
def ConnectResult.ready : ConnectResult → Bool
  | .connects => true
  | .inProgress select => match select with
    | .ok writable => writable
    | .error _ => false
  | .fails _ => false

/-- Whether `connect` is pending on a descriptor that does not fit into a set. -/
def ConnectResult.wild (s : Int) : ConnectResult → Bool
  | .inProgress _ => decide (fdSetSize ≤ s)
  | .connects | .fails _ => false

namespace ConnectCalls

variable (calls : ConnectCalls)

/-- The socket is made non-blocking, and the address of the server is found. -/
def addressed : Bool :=
  calls.getfl.isNone && calls.setfl.isNone && (calls.inetPton || calls.gethostbyname)

/-- The calls behind `connect` succeed. -/
def settled : Bool := calls.getflAgain.isNone && calls.setflAgain.isNone && calls.noDelay.isNone

/-- Every call succeeds, where a pending `connect` does when the socket can be written to. -/
def succeeds : Bool :=
  match calls.socket with
  | .ok _ => calls.reuseAddr.isNone && calls.addressed && calls.connect.ready && calls.settled
  | .error _ => false

/-- The descriptor of a pending `connect` does not fit into a set. -/
def overflows : Bool :=
  match calls.socket with
  | .ok s => calls.reuseAddr.isNone && calls.addressed && calls.connect.wild s
  | .error _ => false

/-- The kernel gives a descriptor that is not open. -/
def Fresh (opened : List Int) : Prop := ∀ s ∈ calls.socket.toOption, 0 ≤ s ∧ s ∉ opened

instance (opened : List Int) : Decidable (calls.Fresh opened) :=
  inferInstanceAs (Decidable (∀ s ∈ _, _))

end ConnectCalls

/-- A step on a new socket writes behind a set, leaves everything as it is, or sets an error and
closes the socket. -/
def Tries (opened : List Int) (c : RedisContext) (s : Int) (wild ready : Bool)
    (result : Except ClientEnd (Bool × Connecting)) : Prop :=
  match wild, ready with
  | true, _ => result = .error .wildSet
  | false, true => result = .ok (true, ⟨s :: opened, c⟩)
  | false, false => ∃ err errstr, result = .ok (false, ⟨opened, { c with err := some err, errstr }⟩)

section

variable {opened : List Int} {c : RedisContext} {s : Int}

/-- Steps follow each other. -/
theorem Tries.andThen {wild ready wild' ready' wilds readies : Bool}
    {result : Except ClientEnd (Bool × Connecting)}
    {next : Connecting → Except ClientEnd (Bool × Connecting)}
    (first : Tries opened c s wild ready result)
    (second : Tries opened c s wild' ready' (next ⟨s :: opened, c⟩))
    (isWild : wilds = (wild || (ready && wild'))) (isReady : readies = (ready && ready')) :
    Tries opened c s wilds readies (Connecting.andThen result next) := by
  subst isWild isReady
  cases wild with
  | true =>
    change result = _ at first
    rw [first]
    exact rfl
  | false =>
    cases ready with
    | true =>
      change result = _ at first
      rw [first]
      exact second
    | false =>
      obtain ⟨err, errstr, failed⟩ := first
      rw [failed]
      exact ⟨err, errstr, rfl⟩

/-- The error path closes the socket. -/
theorem tries_refuse (type : RedisErr) (str : Bytes) :
    Tries opened c s false false
      (Connecting.refuse ⟨s :: opened, c⟩ s (c.redisSetError (some type) str)) := by
  refine ⟨type, (cString str).take 127, ?_⟩
  unfold Connecting.refuse closeDescriptor
  rw [if_pos List.mem_cons_self, List.erase_cons_head]
  rfl

/-- A call that only needs to succeed closes the descriptor when it does not. -/
theorem tries_attempt (label strerror : Option Bytes) :
    Tries opened c s false strerror.isNone
      (Connecting.attempt ⟨s :: opened, c⟩ s label strerror) := by
  cases strerror with
  | none => exact rfl
  | some strerror => exact tries_refuse _ _

/-- `redisSetBlocking` succeeds when both of its `fcntl` calls do. -/
theorem tries_redisSetBlocking (getfl setfl : Option Bytes) :
    Tries opened c s false (getfl.isNone &&
      setfl.isNone) (Connecting.redisSetBlocking ⟨s :: opened, c⟩ s getfl setfl) := by
  apply Tries.andThen (tries_attempt _ getfl) (tries_attempt _ setfl)
  · rw [Bool.and_false, Bool.or_false]
  · rfl

/-- An address is found when it is a number or a name that resolves. -/
theorem tries_resolve (addr : Bytes) (calls : ConnectCalls) :
    Tries opened c s false (calls.inetPton ||
      calls.gethostbyname) (Connecting.resolve ⟨s :: opened, c⟩ s addr calls) := by
  unfold Connecting.resolve
  by_cases found : calls.inetPton ∨ calls.gethostbyname
  · rw [if_pos found, (Bool.or_eq_true _ _).mpr found]
    exact rfl
  · rw [if_neg found, Bool.eq_false_iff.mpr (mt (Bool.or_eq_true _ _).mp found)]
    exact tries_refuse _ _

/-- Waiting for the connection succeeds when the descriptor gets ready, and `FD_SET` runs wild for a
descriptor past the set. -/
theorem tries_awaitConnect (block : c.block = true) (connect : ConnectResult) :
    Tries opened c s (connect.wild s) connect.ready
      (Connecting.awaitConnect ⟨s :: opened, c⟩ s connect) := by
  cases connect with
  | connects => exact rfl
  | fails strerror => exact tries_refuse _ _
  | inProgress select =>
    change Tries opened c s (decide (fdSetSize ≤ s)) (ConnectResult.inProgress select).ready
      (if c.block then Connecting.awaitWritable ⟨s :: opened, c⟩ s select else _)
    unfold Connecting.awaitWritable
    rw [if_pos block]
    by_cases fits : s < fdSetSize
    · rw [if_pos fits, decide_eq_false (Int.not_le.mpr fits)]
      rcases select with strerror | writable
      · exact tries_refuse _ _
      · cases writable with
        | true => exact rfl
        | false => exact tries_refuse _ _
    · rw [if_neg fits, decide_eq_true (Int.not_lt.mp fits)]
      exact rfl

/-- The steps behind `socket` succeed when the address is found, the connection gets ready and the
options are set. -/
theorem tries_connectSocket (block : c.block = true) (addr : Bytes) (calls : ConnectCalls) :
    Tries opened c s (calls.addressed && calls.connect.wild s) (calls.addressed &&
      calls.connect.ready && calls.settled)
      (Connecting.connectSocket ⟨s :: opened, c⟩ s addr calls) := by
  have last : Tries opened c s false calls.settled (Connecting.andThen
      (if c.block then
        Connecting.redisSetBlocking ⟨s :: opened, c⟩ s calls.getflAgain calls.setflAgain
        else .ok (true, ⟨s :: opened, c⟩)) fun state =>
        state.redisSetTcpNoDelay s calls.noDelay) := by
    rw [if_pos block]
    apply Tries.andThen (tries_redisSetBlocking calls.getflAgain calls.setflAgain)
      (tries_attempt _ calls.noDelay)
    · rw [Bool.and_false, Bool.or_false]
    · rfl
  apply Tries.andThen (tries_redisSetBlocking calls.getfl calls.setfl)
  · apply Tries.andThen (tries_resolve addr calls)
    · apply Tries.andThen (tries_awaitConnect block calls.connect) last rfl rfl
    · rfl
    · rfl
  · simp [ConnectCalls.addressed, Bool.and_assoc]
  · simp [ConnectCalls.addressed, Bool.and_assoc]

/-- A socket that is created and connected is the descriptor of the connection. -/
theorem redisContextConnectTcp_eq {calls : ConnectCalls} (socket : calls.socket = .ok s)
    (addr : Bytes) :
    Connecting.redisContextConnectTcp ⟨opened, c⟩ addr calls =
      (Connecting.andThen (Connecting.attempt ⟨s :: opened, c⟩ s none calls.reuseAddr)
        (Connecting.connectSocket · s addr calls)).map fun result =>
          (if result.1 then some s else none, result.2) := by
  unfold Connecting.redisContextConnectTcp Connecting.redisCreateSocket
  rw [socket]
  change (Connecting.attempt ⟨s :: opened, c⟩ s none calls.reuseAddr >>= _) >>= _ = _
  rcases Connecting.attempt ⟨s :: opened, c⟩ s none calls.reuseAddr with fault | ⟨_ | _, state⟩
  · rfl
  · rfl
  · change state.connectSocket s addr calls >>= _ = (state.connectSocket s addr calls).map _
    cases state.connectSocket s addr calls <;> rfl

/-- What making a connection comes to: a write behind a set, a context with its descriptor, which is
open, or one with an error, which has no descriptor open. -/
theorem redisConnectWithTimeout_spec (opened : List Int) (objects : Heap ReplyObject) (addr : Bytes)
    (calls : ConnectCalls) :
    (calls.overflows = true ∧ redisConnectWithTimeout opened objects addr calls = .error .wildSet) ∨
    (calls.overflows = false ∧ calls.succeeds = true ∧ ∃ s, calls.socket = .ok s ∧
      redisConnectWithTimeout opened objects addr calls =
        .ok (s :: opened, ⟨s, .connected objects⟩)) ∨
    (calls.overflows = false ∧ calls.succeeds = false ∧ ∃ err errstr,
      redisConnectWithTimeout opened objects addr calls =
        .ok (opened, ⟨0, { RedisContext.connected objects with err := some err, errstr }⟩)) := by
  unfold redisConnectWithTimeout ConnectCalls.overflows ConnectCalls.succeeds
  cases socket : calls.socket with
  | error strerror =>
    unfold Connecting.redisContextConnectTcp Connecting.redisCreateSocket
    rw [socket]
    exact .inr (.inr ⟨rfl, rfl, .io, _, rfl⟩)
  | ok s =>
    have tries : Tries opened (.connected objects) s (calls.reuseAddr.isNone && calls.addressed &&
      calls.connect.wild s)
        (calls.reuseAddr.isNone && calls.addressed && calls.connect.ready && calls.settled)
        (Connecting.andThen
          (Connecting.attempt ⟨s :: opened, .connected objects⟩ s none calls.reuseAddr)
          (Connecting.connectSocket · s addr calls)) := by
      apply Tries.andThen (tries_attempt none calls.reuseAddr) (tries_connectSocket rfl addr calls)
      · rw [Bool.false_or, Bool.and_assoc]
      · rw [Bool.and_assoc, Bool.and_assoc, Bool.and_assoc]
    rw [redisContextConnectTcp_eq socket]
    dsimp only
    revert tries
    cases calls.reuseAddr.isNone && calls.addressed && calls.connect.wild s with
    | true =>
      intro wild
      rw [show _ = _ from wild]
      exact .inl ⟨rfl, rfl⟩
    | false =>
      cases calls.reuseAddr.isNone && calls.addressed && calls.connect.ready && calls.settled with
      | true =>
        intro ready
        rw [show _ = _ from ready]
        exact .inr (.inl ⟨rfl, rfl, s, rfl, rfl⟩)
      | false =>
        rintro ⟨err, errstr, failed⟩
        rw [failed]
        exact .inr (.inr ⟨rfl, rfl, err, errstr, rfl⟩)

end

end NetServer
