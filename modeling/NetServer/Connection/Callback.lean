import NetServer.Connection.Transport

/-!
# What a callback does with the answers of the transport

`EventCallBack` frees its context when `NormalRecv` or `SslRecv` returns nothing, and looks at the
sign of what `NormalSend` or `SslSend` returns. `SslRecv` also returns nothing when the first read
has to wait, so a connection is closed on which nothing went wrong (`frees_only_ended_iff`). The
loops that send return how many bytes were taken, which is never negative, so a reply that was cut
short is never reported (`sent_whole_iff`).
-/

namespace NetServer

open Lib

/-! ## Closing a connection -/

/-- The transport reports the end of the stream or a failure, in a call that the loop makes.
`SSL_get_error` reports the end of a stream as an error, `SSL_ERROR_ZERO_RETURN`. -/
def Incoming.Ends : Incoming → Prop
  | .normal stream => ∃ call, (∀ earlier < call, ¬RecvStops 4096 stream earlier) ∧
      (stream call = .data [] ∨ stream call = .failed)
  | .ssl stream =>
    ∃ call, (∀ earlier < call, ¬SslRecvStops 4096 stream earlier) ∧ stream call = .error .other

/-- The first read of a callback has to wait. -/
def Incoming.Waits : Incoming → Prop
  | .normal _ => False
  | .ssl stream => stream 0 = .error .wantRead ∨ stream 0 = .error .wantWrite

/-- A callback that reads these outcomes frees the context of its connection. -/
def Incoming.Frees (incoming : Incoming) (server : Server) (pCtx : Nat) : Prop :=
  ∃ received now memory answer next, incoming.Receives received ∧
    serverMachine.Steps server (.callback pCtx received now memory) answer next ∧
    next.ctxs.get? pCtx = none

/-- A callback that has received something frees no context. -/
theorem callback_keeps_ctxs {server next : Server} {pCtx : Nat} {received : Bytes} {now : Int}
    {memory : Bool} {answer : Option (HandReply × Bytes)} (some : received ≠ [])
    (steps : serverMachine.Steps server (.callback pCtx received now memory) answer next) :
    next.ctxs = server.ctxs := by
  have stepped : server.step (.callback pCtx received now memory) = .ok (next, answer) := steps.2
  cases live : server.ctxs.get? pCtx with
  | none =>
    simp only [Server.step, live] at stepped
    cases stepped
  | some ctx =>
    simp only [Server.step, live, Server.eventCallBack, if_neg some] at stepped
    obtain ⟨request, -, rest⟩ := bind_eq_ok.mp stepped
    obtain ⟨handled, -, done⟩ := bind_eq_ok.mp rest
    cases done
    rfl

/-- A callback frees its context only when it receives nothing. -/
theorem Incoming.Frees.receives {incoming : Incoming} {server : Server} {pCtx : Nat}
    (frees : incoming.Frees server pCtx) : incoming.Receives [] := by
  obtain ⟨received, now, memory, answer, next, receives, steps, freed⟩ := frees
  by_cases none : received = []
  · rw [none] at receives
    exact receives
  · have live : (server.ctxs.get? pCtx).isSome = true := (Bool.and_eq_true_iff.mp steps.1).1
    rw [callback_keeps_ctxs none steps] at freed
    rw [freed] at live
    cases live

/-- `NormalRecv` returns nothing only at the end of the stream or a failure. -/
theorem ends_of_normalRecv {stream : Nat → RecvOutcome}
    (receives : (Incoming.normal stream).Receives []) : (Incoming.normal stream).Ends := by
  obtain ⟨calls, returned⟩ := receives
  obtain ⟨first, -, going, stops, isEmpty⟩ :=
    (normalRecv_foreseen 4096 stream).attempts_eq_inr returned
  have nothing : gathered RecvOutcome.chunk stream (first + 1) = [] := by
    have lengths := congrArg List.length isEmpty
    rw [List.length_take, List.length_nil] at lengths
    apply List.eq_nil_of_length_eq_zero
    omega
  refine ⟨first, going, ?_⟩
  unfold RecvStops at stops
  cases outcome : stream first with
  | failed => exact .inr rfl
  | wouldBlock =>
    rw [outcome] at stops
    exact absurd stops not_false
  | data chunk =>
    rw [gathered_succ, outcome, RecvOutcome.chunk] at nothing
    have empty : chunk = [] := (List.append_eq_nil_iff.mp nothing).2
    rw [empty]
    exact .inl rfl

/-- `SslRecv` returns nothing exactly when its first read fails: any other read delivers
something. -/
theorem sslRecv_receives_nil_iff (stream : Nat → SslReadOutcome) :
    (Incoming.ssl stream).Receives [] ↔ ∃ nRes, stream 0 = .error nRes := by
  constructor
  · intro receives
    obtain ⟨calls, returned⟩ := receives
    obtain ⟨first, -, -, stops, isEmpty⟩ := (sslRecv_foreseen 4096 stream).attempts_eq_inr returned
    cases outcome : stream 0 with
    | error nRes => exact ⟨nRes, rfl⟩
    | data byte rest =>
      have some : 0 < (gathered SslReadOutcome.chunk stream (first + 1)).length := by
        rw [gathered, List.range_succ_eq_map, List.flatMap_cons, outcome, SslReadOutcome.chunk,
          List.length_append, List.length_cons]
        omega
      have lengths := congrArg List.length isEmpty
      rw [List.length_take, List.length_nil] at lengths
      omega
  · rintro ⟨nRes, failed⟩
    have stops : SslRecvStops 4096 stream 0 := by
      unfold SslRecvStops
      rw [failed]
      trivial
    have returned := (sslRecv_foreseen 4096 stream).returnsWith
      (fun earlier before => absurd before (Nat.not_lt_zero earlier)) stops
    rw [gathered_succ, gathered_zero, failed, SslReadOutcome.chunk] at returned
    exact returned

/-- The server with one connection. -/
def oneConnection : Server := { serverMachine.init with ctxs := serverMachine.init.ctxs.alloc ⟨7⟩ }

/-- A callback on that connection frees its context when it receives nothing. -/
theorem frees_oneConnection {incoming : Incoming} (receives : incoming.Receives []) :
    incoming.Frees oneConnection 0 := by
  refine ⟨[], 0, true, none, { oneConnection with ctxs := oneConnection.ctxs.free 0 }, receives,
    ⟨rfl, rfl⟩, ?_⟩
  rw [Heap.get?_free, if_pos rfl]

/-- Connections are closed only for cause exactly when a callback's first read does not have to
wait. -/
theorem frees_only_ended_iff (incoming : Incoming) :
    (∀ server pCtx, incoming.Frees server pCtx → incoming.Ends) ↔ ¬incoming.Waits := by
  cases incoming with
  | normal stream =>
    constructor
    · exact fun _ waits => waits
    · exact fun _ server pCtx frees => ends_of_normalRecv frees.receives
  | ssl stream =>
    constructor
    · intro caused waits
      have failed : ∃ nRes, stream 0 = .error nRes :=
        waits.elim (fun is => ⟨_, is⟩) (fun is => ⟨_, is⟩)
      have stops : SslRecvStops 4096 stream 0 := by
        obtain ⟨nRes, isError⟩ := failed
        unfold SslRecvStops
        rw [isError]
        trivial
      obtain ⟨call, going, ended⟩ :=
        caused oneConnection 0 (frees_oneConnection ((sslRecv_receives_nil_iff stream).mpr failed))
      -- the loop stops at its first call, so that call would have to report the end
      cases call with
      | zero =>
        rcases waits with isRead | isWrite
        · rw [ended] at isRead
          cases isRead
        · rw [ended] at isWrite
          cases isWrite
      | succ call => exact going 0 (Nat.succ_pos call) stops
    · intro prompt server pCtx frees
      obtain ⟨nRes, failed⟩ := (sslRecv_receives_nil_iff stream).mp frees.receives
      refine ⟨0, fun earlier before => absurd before (Nat.not_lt_zero earlier), ?_⟩
      cases nRes with
      | wantRead => exact absurd (.inl failed) prompt
      | wantWrite => exact absurd (.inr failed) prompt
      | other => exact failed

/-- A TLS record that comes in two segments. -/
def splitRecord : Nat → SslReadOutcome
  | 0 => .error .wantRead
  | _ => .data 71 []

/-- It closes the connection, as the first read has to wait for the second segment. -/
theorem split_record_closes :
    (Incoming.ssl splitRecord).Frees oneConnection 0 ∧ ¬(Incoming.ssl splitRecord).Ends := by
  constructor
  · exact frees_oneConnection ((sslRecv_receives_nil_iff _).mpr ⟨.wantRead, rfl⟩)
  · rintro ⟨call, -, ended⟩
    cases call with
    | zero => cases ended
    | succ call => cases ended

/-! ## Sending a reply -/

/-- The bytes that the first calls of a loop take, where a call is passed the reply behind what is
sent already. -/
def handedOver {α : Type} (step : Nat → α → Nat ⊕ Nat) (count : α → Nat) (stream : Nat → α)
    (reply : Bytes) : Nat → Bytes
  | 0 => []
  | calls + 1 =>
    handedOver step count stream reply calls ++
      match attempts step stream 0 calls with
      | .inl sent => (reply.drop sent).take (count (stream calls))
      | .inr _ => []

/-- The outcomes that `NormalSend` or `SslSend` of `ilen` bytes reads. No call takes more than it is
passed. -/
inductive Outgoing (ilen : Nat) where
  | normal (stream : Nat → SendOutcome)
    (within : ∀ call, (∀ earlier < call, ¬SendStops ilen stream earlier) →
      taken SendOutcome.count stream call + (stream call).count ≤ ilen)
  | ssl (stream : Nat → SslWriteOutcome)
    (within : ∀ call, (∀ earlier < call, ¬SslSendStops ilen stream earlier) →
      taken SslWriteOutcome.count stream call + (stream call).count ≤ ilen)

/-- The error branch of `EventCallBack` behind sending. -/
def sendReported (len : Int) : Bool := decide (len < 0)

namespace Outgoing

variable {ilen : Nat}

/-- The loop has returned a count behind some calls. -/
def Returned : Outgoing ilen → Nat → Nat → Prop
  | .normal stream _, calls, count => attempts (normalSend ilen) stream 0 calls = .inr count
  | .ssl stream _, calls, count => attempts (sslSend ilen) stream 0 calls = .inr count

/-- The bytes of a reply that the transport has taken behind some calls. -/
def handed : Outgoing ilen → Bytes → Nat → Bytes
  | .normal stream _, reply, calls =>
    NetServer.handedOver (normalSend ilen) SendOutcome.count stream reply calls
  | .ssl stream _, reply, calls =>
    NetServer.handedOver (sslSend ilen) SslWriteOutcome.count stream reply calls

/-- One of the calls reported an error other than that it would block. -/
def Failed : Outgoing ilen → Nat → Prop
  | .normal stream _, calls => ∃ call < calls, stream call = .failed
  | .ssl stream _, calls => ∃ call < calls, stream call = .error .other

/-- The calls that fail, for `SslSend` also those with `SSL_ERROR_WANT_WRITE`, come when all is
taken. -/
def Untroubled : Outgoing ilen → Prop
  | .normal stream _ => ∀ call, stream call = .failed → ilen ≤ taken SendOutcome.count stream call
  | .ssl stream _ => ∀ call nRes, stream call = .error nRes → nRes ≠ .wantRead →
      ilen ≤ taken SslWriteOutcome.count stream call

end Outgoing

/-- A reply is sent whole or reported: the transport gets as much of its front as is returned, and
that is all of it unless the transport failed and the caller reports it. -/
def Outgoing.SentWhole (reply : Bytes) (outgoing : Outgoing reply.length) : Prop :=
  ∀ calls count, outgoing.Returned calls count →
    outgoing.handed reply calls = reply.take count ∧
      (count = reply.length ∨ outgoing.Failed calls ∧ sendReported count = true)

section

variable {α : Type} {step : Nat → α → Nat ⊕ Nat} {count : α → Nat} {stream : Nat → α}
  {stops : Nat → Prop} {results : Nat → Nat}

/-- As long as the loop goes on, the transport has got the front of the reply. -/
theorem handedOver_going (foreseen : Foreseen step stream 0 (taken count stream) stops results)
    (reply : Bytes) {calls : Nat} (going : ∀ earlier < calls, ¬stops earlier) :
    handedOver step count stream reply calls = reply.take (taken count stream calls) := by
  induction calls with
  | zero => rfl
  | succ calls ih =>
    have before : ∀ earlier < calls, ¬stops earlier := fun earlier before =>
      going earlier (Nat.lt_succ_of_lt before)
    rw [handedOver, ih before, foreseen.attempts_eq before, taken_succ, List.take_add]

/-- When the loop has returned, the transport has got what the calls up to the last one took. -/
theorem handedOver_returned (foreseen : Foreseen step stream 0 (taken count stream) stops results)
    (reply : Bytes) {calls first : Nat} (inside : first < calls)
    (going : ∀ earlier < first, ¬stops earlier) (stopped : stops first) :
    handedOver step count stream reply calls = reply.take (taken count stream (first + 1)) := by
  obtain ⟨more, rfl⟩ := Nat.exists_eq_add_of_le inside
  induction more with
  | zero =>
    rw [Nat.add_zero, handedOver, handedOver_going foreseen reply going, foreseen.attempts_eq going,
      taken_succ, List.take_add]
  | succ more ih =>
    have still :=
      attempts_mono (foreseen.attempts_first going stopped) (Nat.le_add_right (first + 1) more)
    rw [← Nat.add_assoc, handedOver, ih (by omega), still, List.append_nil]

end

/-- What the calls take only grows. -/
theorem taken_mono {α : Type} (count : α → Nat) (stream : Nat → α) {calls later : Nat}
    (behind : calls ≤ later) : taken count stream calls ≤ taken count stream later := by
  obtain ⟨more, rfl⟩ := Nat.exists_eq_add_of_le behind
  induction more with
  | zero => exact Nat.le_refl _
  | succ more ih =>
    rw [← Nat.add_assoc, taken_succ]
    omega

/-- What is returned is never negative. -/
theorem sendReported_natCast (count : Nat) : sendReported count = false := by
  have nonneg : ¬(count : Int) < 0 := by omega
  exact decide_eq_false nonneg

/-- What a loop returns that sends a reply whole or reports it. -/
theorem Outgoing.SentWhole.count_eq {reply : Bytes} {outgoing : Outgoing reply.length}
    {calls count : Nat} (whole : outgoing.SentWhole reply)
    (returned : outgoing.Returned calls count) : count = reply.length := by
  rcases (whole calls count returned).2 with all | ⟨-, reported⟩
  · exact all
  · rw [sendReported_natCast] at reported
    cases reported

/-- `NormalSend` sends a reply whole or reports it exactly when no call fails before all is
taken. -/
theorem normal_sentWhole_iff (reply : Bytes) (stream : Nat → SendOutcome)
    (within : ∀ call, (∀ earlier < call, ¬SendStops reply.length stream earlier) →
      taken SendOutcome.count stream call + (stream call).count ≤ reply.length) :
    (Outgoing.normal stream within).SentWhole reply ↔
      (Outgoing.normal stream within).Untroubled := by
  have foreseen := normalSend_foreseen reply.length stream
  constructor
  · intro whole call failed
    have stopped : SendStops reply.length stream call := by
      unfold SendStops
      rw [failed]
      trivial
    obtain ⟨first, before, going, stops⟩ := exists_first stopped
    have all : taken SendOutcome.count stream (first + 1) = reply.length :=
      whole.count_eq (foreseen.attempts_first going stops)
    have grows := taken_mono SendOutcome.count stream (show first + 1 ≤ call + 1 by omega)
    rw [taken_succ _ _ call, failed, SendOutcome.count] at grows
    omega
  · intro untroubled calls count returned
    obtain ⟨first, inside, going, stops, rfl⟩ := foreseen.attempts_eq_inr returned
    have fits := within first going
    refine ⟨handedOver_returned foreseen reply inside going stops, .inl ?_⟩
    rw [taken_succ]
    unfold SendStops at stops
    cases outcome : stream first with
    | failed =>
      have all := untroubled first outcome
      rw [outcome] at fits
      omega
    | wouldBlock =>
      rw [outcome] at stops
      exact absurd stops not_false
    | sent ires =>
      rw [outcome, taken_succ, outcome] at stops
      rw [outcome] at fits
      omega

/-- `SslSend` sends a reply whole or reports it exactly when no call fails, or has to wait to write,
before all is taken. -/
theorem ssl_sentWhole_iff (reply : Bytes) (stream : Nat → SslWriteOutcome)
    (within : ∀ call, (∀ earlier < call, ¬SslSendStops reply.length stream earlier) →
      taken SslWriteOutcome.count stream call + (stream call).count ≤ reply.length) :
    (Outgoing.ssl stream within).SentWhole reply ↔ (Outgoing.ssl stream within).Untroubled := by
  have foreseen := sslSend_foreseen reply.length stream
  constructor
  · intro whole call nRes failed fatal
    have stopped : SslSendStops reply.length stream call := by
      unfold SslSendStops
      rw [failed]
      exact fatal
    obtain ⟨first, before, going, stops⟩ := exists_first stopped
    have all : taken SslWriteOutcome.count stream first = reply.length :=
      whole.count_eq (foreseen.attempts_first going stops)
    have grows := taken_mono SslWriteOutcome.count stream before
    omega
  · intro untroubled calls count returned
    obtain ⟨first, inside, going, stops, rfl⟩ := foreseen.attempts_eq_inr returned
    have fits := within first going
    -- the call at which the loop stops is passed nothing, so it takes nothing
    have last : reply.length ≤ taken SslWriteOutcome.count stream first := by
      unfold SslSendStops at stops
      cases outcome : stream first with
      | error nRes =>
        rw [outcome] at stops
        exact untroubled first nRes outcome stops
      | sent more =>
        rw [outcome] at stops
        exact stops
    have none : (stream first).count = 0 := by omega
    refine ⟨?_, .inl (by omega)⟩
    have got : (Outgoing.ssl stream within).handed reply calls = _ :=
      handedOver_returned foreseen reply inside going stops
    rw [got, taken_succ, none, Nat.add_zero]

/-- Replies are sent whole or reported exactly when no call fails, for `SslSend` also with
`SSL_ERROR_WANT_WRITE`, before the whole reply is taken. -/
theorem sent_whole_iff (reply : Bytes) (outgoing : Outgoing reply.length) :
    outgoing.SentWhole reply ↔ outgoing.Untroubled := by
  cases outgoing with
  | normal stream within => exact normal_sentWhole_iff reply stream within
  | ssl stream within => exact ssl_sentWhole_iff reply stream within

/-- Two bytes are sent, and then the connection is lost. -/
def lostBehindTwo : Nat → SendOutcome
  | 0 => .sent 2
  | _ => .failed

/-- Two bytes are sent, and then the buffer of the connection is full. -/
def fullBehindTwo : Nat → SslWriteOutcome
  | 0 => .sent 1
  | _ => .error .wantWrite

/-- What the calls take when none behind the first takes anything. -/
theorem taken_first {α : Type} {count : α → Nat} {stream : Nat → α}
    (rest : ∀ call, count (stream (call + 1)) = 0) (calls : Nat) :
    taken count stream calls + count (stream calls) = count (stream 0) := by
  induction calls with
  | zero => rw [taken_zero, Nat.zero_add]
  | succ calls ih => rw [taken_succ, ih, rest, Nat.add_zero]

/-- `NormalSend` and `SslSend` of five bytes return 2, which the caller takes as a success. -/
theorem cut_reply_unreported :
    (∃ within, ¬(Outgoing.normal lostBehindTwo within).SentWhole (bytes "ERROR")) ∧
      ∃ within, ¬(Outgoing.ssl fullBehindTwo within).SentWhole (bytes "ERROR") := by
  have five : (bytes "ERROR").length = 5 := by decide
  have normal (call : Nat) :
      taken SendOutcome.count lostBehindTwo call + (lostBehindTwo call).count = 2 :=
    taken_first (fun _ => rfl) call
  have ssl (call : Nat) :
      taken SslWriteOutcome.count fullBehindTwo call + (fullBehindTwo call).count = 2 :=
    taken_first (fun _ => rfl) call
  constructor
  · refine ⟨fun call _ => by rw [normal call, five]; decide, fun whole => ?_⟩
    have all : 2 = (bytes "ERROR").length :=
      whole.count_eq (show attempts (normalSend 5) lostBehindTwo 0 2 = .inr 2 from rfl)
    rw [five] at all
    cases all
  · refine ⟨fun call _ => by rw [ssl call, five]; decide, fun whole => ?_⟩
    have all : 2 = (bytes "ERROR").length :=
      whole.count_eq (show attempts (sslSend 5) fullBehindTwo 0 2 = .inr 2 from rfl)
    rw [five] at all
    cases all

end NetServer
