import NetServer.Connection.Server
import NetServer.Lib.Retry

/-!
# Receiving and sending, `NormalRecv`, `SslRecv`, `NormalSend`, `SslSend` and `CreateSSL`

Each of these functions calls the transport in a loop. What the transport answers is an infinite
stream of outcomes; a call that delivers data delivers no more than was asked for. `CEventBaseMgr`
and `CMainEventBase` have the same functions.
-/

namespace NetServer

open Lib

/-! ## Outcomes -/

/-- What `recv` does: it returns some bytes, none at the end of the stream, or fails, where
`EWOULDBLOCK` and `EAGAIN` are told from other errors. -/
inductive RecvOutcome where
  | data (chunk : Bytes)
  | wouldBlock
  | failed
  deriving DecidableEq, Repr

/-- What `send` does: it takes some bytes or fails. -/
inductive SendOutcome where
  | sent (count : Nat)
  | wouldBlock
  | failed
  deriving DecidableEq, Repr

/-- What `SSL_get_error` says of a call that did not succeed. -/
inductive SslError where
  | wantRead
  | wantWrite
  | other
  deriving DecidableEq, Repr

/-- What `SSL_read` does: `SSL_get_error` is `SSL_ERROR_NONE` exactly when it returned some
bytes. -/
inductive SslReadOutcome where
  | data (first : UInt8) (rest : Bytes)
  | error (nRes : SslError)
  deriving DecidableEq, Repr

/-- What `SSL_write` does: it took some bytes, one more than `more`, or fails. -/
inductive SslWriteOutcome where
  | sent (more : Nat)
  | error (nRes : SslError)
  deriving DecidableEq, Repr

/-- What `SSL_accept` does. -/
inductive SslAcceptOutcome where
  | accepted
  | error (iret : SslError)
  deriving DecidableEq, Repr

/-! ## The loops -/

/-- A pass of the loop of `NormalRecv`, with what the buffer of `ilen` bytes holds so far. -/
def normalRecv (ilen : Nat) (buffer : Bytes) : RecvOutcome → Bytes ⊕ Bytes
  | .wouldBlock => .inl buffer
  | .failed => .inr buffer
  | .data chunk =>
    let chunk := chunk.take (ilen - buffer.length)
    if chunk = [] then .inr buffer
    else if ilen ≤ (buffer ++ chunk).length then .inr (buffer ++ chunk)
    else .inl (buffer ++ chunk)

/-- A pass of the loop of `SslRecv`, which neither ends nor counts when nothing was read without an
error. -/
def sslRecv (ilen : Nat) (buffer : Bytes) : SslReadOutcome → Bytes ⊕ Bytes
  | .error _ => .inr buffer
  | .data first rest =>
    let chunk := (first :: rest).take (ilen - buffer.length)
    if chunk = [] then .inl buffer
    else if ilen ≤ (buffer ++ chunk).length then .inr (buffer ++ chunk)
    else .inl (buffer ++ chunk)

/-- A pass of the loop of `NormalSend` of `ilen` bytes, with how many are sent. -/
def normalSend (ilen : Nat) (count : Nat) : SendOutcome → Nat ⊕ Nat
  | .wouldBlock => .inl count
  | .failed => .inr count
  | .sent ires => if ilen ≤ count + ires then .inr (count + ires) else .inl (count + ires)

/-- A pass of the loop of `SslSend` of `ilen` bytes, which compares before it counts. -/
def sslSend (ilen : Nat) (count : Nat) : SslWriteOutcome → Nat ⊕ Nat
  | .sent more => if ilen ≤ count then .inr count else .inl (count + (more + 1))
  | .error .wantRead => .inl count
  | .error _ => .inr count

/-- A pass of the loop of `CreateSSL`: whether it returns a handle. -/
def createSslAccept (_ : Unit) : SslAcceptOutcome → Unit ⊕ Bool
  | .accepted => .inr true
  | .error .wantRead | .error .wantWrite => .inl ()
  | .error .other => .inr false

/-- `CreateSSL` returns: at once when SSL is disabled or the context or handle cannot be made, and
otherwise when its loop does. -/
def CreateSslReturns (enabled prepared : Bool) (stream : Nat → SslAcceptOutcome) : Prop :=
  enabled = true → prepared = true → Returns createSslAccept stream ()

/-! ## What the streams hold -/

/-- The bytes that `recv` delivers. -/
def RecvOutcome.chunk : RecvOutcome → Bytes
  | .data chunk => chunk
  | .wouldBlock | .failed => []

/-- The bytes that `SSL_read` delivers. -/
def SslReadOutcome.chunk : SslReadOutcome → Bytes
  | .data first rest => first :: rest
  | .error _ => []

/-- The number of bytes that `send` takes. -/
def SendOutcome.count : SendOutcome → Nat
  | .sent count => count
  | .wouldBlock | .failed => 0

/-- The number of bytes that `SSL_write` takes. -/
def SslWriteOutcome.count : SslWriteOutcome → Nat
  | .sent more => more + 1
  | .error _ => 0

/-- The bytes that the first calls deliver. -/
def gathered {α : Type} (chunk : α → Bytes) (stream : Nat → α) (calls : Nat) : Bytes :=
  (List.range calls).flatMap fun call => chunk (stream call)

/-- The number of bytes that the first calls take. -/
def taken {α : Type} (count : α → Nat) (stream : Nat → α) (calls : Nat) : Nat :=
  ((List.range calls).map fun call => count (stream call)).sum

section

variable {α : Type} (chunk : α → Bytes) (count : α → Nat) (stream : Nat → α) (calls : Nat)

/-- Before the first call nothing is gathered. -/
@[simp] theorem gathered_zero : gathered chunk stream 0 = [] := rfl

/-- One more call gathers one more chunk. -/
theorem gathered_succ :
    gathered chunk stream (calls + 1) = gathered chunk stream calls ++ chunk (stream calls) := by
  simp [gathered, List.range_succ]

/-- Before the first call nothing is taken. -/
@[simp] theorem taken_zero : taken count stream 0 = 0 := rfl

/-- One more call takes what it reports. -/
theorem taken_succ :
    taken count stream (calls + 1) = taken count stream calls + count (stream calls) := by
  simp [taken, List.range_succ]

end

/-- A call at which `NormalRecv` stops: nothing came or it failed, or the buffer is full. -/
def RecvStops (ilen : Nat) (stream : Nat → RecvOutcome) (call : Nat) : Prop :=
  match stream call with
  | .failed => True
  | .wouldBlock => False
  | .data chunk => chunk = [] ∨ ilen ≤ (gathered RecvOutcome.chunk stream (call + 1)).length

/-- A call at which `SslRecv` stops: it failed, or it filled the buffer. -/
def SslRecvStops (ilen : Nat) (stream : Nat → SslReadOutcome) (call : Nat) : Prop :=
  match stream call with
  | .error _ => True
  | .data _ _ =>
    (gathered SslReadOutcome.chunk stream call).length < ilen ∧
      ilen ≤ (gathered SslReadOutcome.chunk stream (call + 1)).length

/-- A call at which `NormalSend` stops: it failed, or all is sent. -/
def SendStops (ilen : Nat) (stream : Nat → SendOutcome) (call : Nat) : Prop :=
  match stream call with
  | .failed => True
  | .wouldBlock => False
  | .sent _ => ilen ≤ taken SendOutcome.count stream (call + 1)

/-- A call at which `SslSend` stops: it failed other than by `SSL_ERROR_WANT_READ`, or all was sent
before it. -/
def SslSendStops (ilen : Nat) (stream : Nat → SslWriteOutcome) (call : Nat) : Prop :=
  match stream call with
  | .error nRes => nRes ≠ .wantRead
  | .sent _ => ilen ≤ taken SslWriteOutcome.count stream call

/-! ## When the loops return -/

/-- What fits of some bytes behind what fits of others. -/
theorem take_append_room (buffer chunk : Bytes) (ilen : Nat) :
    buffer.take ilen ++ chunk.take (ilen - (buffer.take ilen).length) =
      (buffer ++ chunk).take ilen := by
  rw [List.take_append, List.length_take]
  congr 2
  omega

/-- `NormalRecv` gathers what the calls deliver up to the first one at which it stops. -/
theorem normalRecv_foreseen (ilen : Nat) (stream : Nat → RecvOutcome) :
    Foreseen (normalRecv ilen) stream [] (fun calls =>
      (gathered RecvOutcome.chunk stream calls).take ilen)
      (RecvStops ilen stream) (fun calls =>
        (gathered RecvOutcome.chunk stream (calls + 1)).take ilen) where
  first := by rw [gathered_zero, List.take_nil]
  goes calls goesOn := by
    have behind := gathered_succ RecvOutcome.chunk stream calls
    unfold RecvStops at goesOn
    cases outcome : stream calls with
    | failed =>
      rw [outcome] at goesOn
      exact absurd trivial goesOn
    | wouldBlock =>
      rw [outcome, RecvOutcome.chunk, List.append_nil] at behind
      rw [normalRecv, behind]
    | data chunk =>
      rw [outcome] at goesOn behind
      rw [RecvOutcome.chunk] at behind
      rw [behind] at goesOn
      obtain ⟨some, short⟩ := not_or.mp goesOn
      rw [behind, ← take_append_room, normalRecv, if_neg, if_neg]
      · rw [take_append_room, List.length_take]
        omega
      · have nonempty := List.length_pos_iff.mpr some
        rw [List.length_append] at short
        rw [← List.length_eq_zero_iff, List.length_take, List.length_take]
        omega
  ends calls stops := by
    have behind := gathered_succ RecvOutcome.chunk stream calls
    unfold RecvStops at stops
    cases outcome : stream calls with
    | failed =>
      rw [outcome, RecvOutcome.chunk, List.append_nil] at behind
      rw [normalRecv, behind]
    | wouldBlock =>
      rw [outcome] at stops
      exact absurd stops not_false
    | data chunk =>
      rw [outcome] at stops behind
      rw [RecvOutcome.chunk] at behind
      rw [behind, ← take_append_room, normalRecv]
      split_ifs with none full
      · rw [none, List.append_nil]
      · rfl
      · rw [take_append_room, List.length_take] at full
        rw [behind] at stops
        obtain rfl | stops := stops
        · exact absurd List.take_nil none
        · omega

/-- `SslRecv` gathers what the calls deliver up to the first one at which it stops. -/
theorem sslRecv_foreseen (ilen : Nat) (stream : Nat → SslReadOutcome) :
    Foreseen (sslRecv ilen) stream [] (fun calls =>
      (gathered SslReadOutcome.chunk stream calls).take ilen)
      (SslRecvStops ilen stream) (fun calls =>
        (gathered SslReadOutcome.chunk stream (calls + 1)).take ilen) where
  first := by rw [gathered_zero, List.take_nil]
  goes calls goesOn := by
    have behind := gathered_succ SslReadOutcome.chunk stream calls
    unfold SslRecvStops at goesOn
    cases outcome : stream calls with
    | error nRes =>
      rw [outcome] at goesOn
      exact absurd trivial goesOn
    | data first rest =>
      rw [outcome] at goesOn behind
      rw [SslReadOutcome.chunk] at behind
      rw [behind] at goesOn
      rw [behind, ← take_append_room, sslRecv]
      split_ifs with none full
      · rw [none, List.append_nil]
      · rw [← List.length_eq_zero_iff, List.length_take, List.length_take] at none
        rw [take_append_room, List.length_take] at full
        omega
      · rfl
  ends calls stops := by
    have behind := gathered_succ SslReadOutcome.chunk stream calls
    unfold SslRecvStops at stops
    cases outcome : stream calls with
    | error nRes =>
      rw [outcome, SslReadOutcome.chunk, List.append_nil] at behind
      rw [sslRecv, behind]
    | data first rest =>
      rw [outcome] at stops behind
      rw [SslReadOutcome.chunk] at behind
      rw [behind] at stops
      obtain ⟨room, full⟩ := stops
      rw [behind, ← take_append_room, sslRecv, if_neg, if_pos]
      · rw [take_append_room, List.length_take]
        omega
      · rw [← List.length_eq_zero_iff, List.length_take, List.length_take, List.length_cons]
        omega

/-- `NormalSend` counts what the calls take up to the first one at which it stops. -/
theorem normalSend_foreseen (ilen : Nat) (stream : Nat → SendOutcome) :
    Foreseen (normalSend ilen) stream 0 (taken SendOutcome.count stream) (SendStops ilen stream)
      (fun calls => taken SendOutcome.count stream (calls + 1)) where
  first := taken_zero _ _
  goes calls goesOn := by
    have behind := taken_succ SendOutcome.count stream calls
    unfold SendStops at goesOn
    cases outcome : stream calls with
    | failed =>
      rw [outcome] at goesOn
      exact absurd trivial goesOn
    | wouldBlock =>
      rw [outcome, SendOutcome.count] at behind
      rw [normalSend, behind, Nat.add_zero]
    | sent count =>
      rw [outcome] at goesOn behind
      rw [SendOutcome.count] at behind
      rw [behind] at goesOn
      rw [behind, normalSend, if_neg goesOn]
  ends calls stops := by
    have behind := taken_succ SendOutcome.count stream calls
    unfold SendStops at stops
    cases outcome : stream calls with
    | failed =>
      rw [outcome, SendOutcome.count] at behind
      rw [normalSend, behind, Nat.add_zero]
    | wouldBlock =>
      rw [outcome] at stops
      exact absurd stops not_false
    | sent count =>
      rw [outcome] at stops behind
      rw [SendOutcome.count] at behind
      rw [behind] at stops
      rw [behind, normalSend, if_pos stops]

/-- `SslSend` counts what the calls take up to the first one at which it stops, which it does not
count. -/
theorem sslSend_foreseen (ilen : Nat) (stream : Nat → SslWriteOutcome) :
    Foreseen (sslSend ilen) stream 0 (taken SslWriteOutcome.count stream) (SslSendStops ilen stream)
      (taken SslWriteOutcome.count stream) where
  first := taken_zero _ _
  goes calls goesOn := by
    have behind := taken_succ SslWriteOutcome.count stream calls
    unfold SslSendStops at goesOn
    cases outcome : stream calls with
    | error nRes =>
      rw [outcome] at goesOn
      obtain rfl := not_ne_iff.mp goesOn
      rw [outcome, SslWriteOutcome.count] at behind
      rw [sslSend, behind, Nat.add_zero]
    | sent more =>
      rw [outcome] at goesOn behind
      rw [behind, sslSend, if_neg goesOn, SslWriteOutcome.count]
  ends calls stops := by
    unfold SslSendStops at stops
    cases outcome : stream calls with
    | error nRes =>
      rw [outcome] at stops
      cases nRes with
      | wantRead => exact absurd rfl stops
      | wantWrite => rfl
      | other => rfl
    | sent more =>
      rw [outcome] at stops
      rw [sslSend, if_pos stops]

/-- A call at which `CreateSSL` stops: it is accepted, or fails for good. -/
def AcceptStops (stream : Nat → SslAcceptOutcome) (call : Nat) : Prop :=
  stream call = .accepted ∨ stream call = .error .other

/-- The accept loop repeats `SSL_accept` until a call stops it and reports whether that one
accepted. -/
theorem createSslAccept_foreseen (stream : Nat → SslAcceptOutcome) :
    Foreseen createSslAccept stream () (fun _ => ()) (AcceptStops stream)
      (fun calls => decide (stream calls = .accepted)) where
  first := rfl
  goes calls goesOn := by
    obtain ⟨notAccepted, notFailed⟩ := not_or.mp goesOn
    cases outcome : stream calls with
    | accepted => exact absurd outcome notAccepted
    | error iret =>
      cases iret with
      | wantRead => rfl
      | wantWrite => rfl
      | other => exact absurd outcome notFailed
  ends calls stops := by
    obtain accepted | failed := stops
    · rw [accepted]
      rfl
    · rw [failed]
      rfl

/-- `SslRecv` returns unless it has no room at all: every read without an error brings it nearer to
a full buffer. -/
theorem exists_sslRecvStops_iff (ilen : Nat) (stream : Nat → SslReadOutcome) :
    (∃ call, SslRecvStops ilen stream call) ↔ 0 < ilen ∨ ∃ call nRes,
      stream call = .error nRes := by
  constructor
  · rintro ⟨call, stops⟩
    unfold SslRecvStops at stops
    cases outcome : stream call with
    | error nRes => exact .inr ⟨call, nRes, outcome⟩
    | data first rest =>
      rw [outcome] at stops
      exact .inl (Nat.zero_lt_of_lt stops.1)
  · rintro (room | ⟨call, nRes, failed⟩)
    · by_contra never
      push Not at never
      have fills (calls : Nat) : calls ≤ (gathered SslReadOutcome.chunk stream calls).length ∧
          (gathered SslReadOutcome.chunk stream calls).length < ilen := by
        induction calls with
        | zero => exact ⟨Nat.le_refl 0, room⟩
        | succ calls ih =>
          have goesOn := never calls
          unfold SslRecvStops at goesOn
          have behind := congrArg List.length (gathered_succ SslReadOutcome.chunk stream calls)
          cases outcome : stream calls with
          | error nRes =>
            rw [outcome] at goesOn
            exact absurd trivial goesOn
          | data first rest =>
            rw [outcome] at goesOn
            rw [outcome, SslReadOutcome.chunk, List.length_append, List.length_cons] at behind
            exact ⟨by omega, Nat.lt_of_not_le fun full => goesOn ⟨ih.2, full⟩⟩
      exact Nat.lt_irrefl ilen (Nat.lt_of_le_of_lt (fills ilen).1 (fills ilen).2)
    · refine ⟨call, ?_⟩
      unfold SslRecvStops
      rw [failed]
      trivial

/-- `CreateSSL` returns at once without SSL or without a session, otherwise when a call of
`SSL_accept` stops its loop. -/
theorem createSslReturns_iff (enabled prepared : Bool) (stream : Nat → SslAcceptOutcome) :
    CreateSslReturns enabled prepared stream ↔
      enabled = false ∨ prepared = false ∨ ∃ call, AcceptStops stream call := by
  rw [CreateSslReturns, (createSslAccept_foreseen stream).returns_iff]
  cases enabled <;> cases prepared <;> simp

/-- When the functions return, whatever the transport answers. Only `SslRecv` returns by itself. -/
theorem transport_returns_iff (ilen : Nat) :
    (∀ enabled prepared stream, CreateSslReturns enabled prepared stream ↔
      enabled = false ∨ prepared = false ∨ ∃ call, AcceptStops stream call) ∧
    (∀ stream, Returns (normalRecv ilen) stream [] ↔ ∃ call, RecvStops ilen stream call) ∧
    (∀ stream, Returns (sslRecv ilen) stream [] ↔
      0 < ilen ∨ ∃ call nRes, stream call = .error nRes) ∧
    (∀ stream, Returns (normalSend ilen) stream 0 ↔ ∃ call, SendStops ilen stream call) ∧
    (∀ stream, Returns (sslSend ilen) stream 0 ↔ ∃ call, SslSendStops ilen stream call) :=
  ⟨createSslReturns_iff,
    fun stream => (normalRecv_foreseen ilen stream).returns_iff,
    fun stream =>
    (sslRecv_foreseen ilen stream).returns_iff.trans (exists_sslRecvStops_iff ilen stream),
    fun stream => (normalSend_foreseen ilen stream).returns_iff,
    fun stream => (sslSend_foreseen ilen stream).returns_iff⟩

/-- A peer that says nothing keeps the thread of its worker in each of the other functions. -/
theorem silent_peer_hangs :
    ¬CreateSslReturns true true (fun _ => .error .wantRead) ∧
    ¬Returns (normalRecv 4096) (fun _ => .wouldBlock) [] ∧
    ¬Returns (normalSend 5) (fun _ => .wouldBlock) 0 ∧
    ¬Returns (sslSend 5) (fun _ => .error .wantRead) 0 := by
  refine ⟨?_, ?_, ?_, ?_⟩
  · rw [createSslReturns_iff]
    rintro (off | off | ⟨call, accepted | failed⟩)
    · cases off
    · cases off
    · cases accepted
    · cases failed
  · rw [(normalRecv_foreseen 4096 _).returns_iff]
    rintro ⟨call, stops⟩
    exact stops
  · rw [(normalSend_foreseen 5 _).returns_iff]
    rintro ⟨call, stops⟩
    exact stops
  · rw [(sslSend_foreseen 5 _).returns_iff]
    rintro ⟨call, stops⟩
    exact stops rfl

/-! ## From the transport to the handler -/

/-- The outcomes that `EventCallBack` reads, with or without SSL. -/
inductive Incoming where
  | normal (stream : Nat → RecvOutcome)
  | ssl (stream : Nat → SslReadOutcome)

/-- The calls up to the first at which the loop stops deliver these bytes. -/
def Incoming.Delivers : Incoming → Bytes → Prop
  | .normal stream, delivered => ∃ calls, (∀ earlier < calls, ¬RecvStops 4096 stream earlier) ∧
      RecvStops 4096 stream calls ∧ gathered RecvOutcome.chunk stream (calls + 1) = delivered
  | .ssl stream, delivered => ∃ calls, (∀ earlier < calls, ¬SslRecvStops 4096 stream earlier) ∧
      SslRecvStops 4096 stream calls ∧ gathered SslReadOutcome.chunk stream (calls + 1) = delivered

/-- What the buffer of `EventCallBack` holds behind `SslRecv` or `NormalRecv`. -/
def Incoming.Receives : Incoming → Bytes → Prop
  | .normal stream, received => ReturnsWith (normalRecv 4096) stream [] received
  | .ssl stream, received => ReturnsWith (sslRecv 4096) stream [] received

/-- The string that `EventCallBack` passes to `HandleRequest`. -/
def Incoming.Passes (incoming : Incoming) (request : Bytes) : Prop :=
  ∃ received, incoming.Receives received ∧ received ≠ [] ∧ bufferText received = .ok request

/-- The buffer gets what the transport delivers. -/
theorem Incoming.Delivers.receives {incoming : Incoming} {delivered : Bytes}
    (delivers : incoming.Delivers delivered) (fits : delivered.length ≤ 4096) :
    incoming.Receives delivered := by
  cases incoming with
  | normal stream =>
    obtain ⟨calls, going, stops, rfl⟩ := delivers
    have returned := (normalRecv_foreseen 4096 stream).returnsWith going stops
    rw [List.take_of_length_le fits] at returned
    exact returned
  | ssl stream =>
    obtain ⟨calls, going, stops, rfl⟩ := delivers
    have returned := (sslRecv_foreseen 4096 stream).returnsWith going stops
    rw [List.take_of_length_le fits] at returned
    exact returned

/-- `EventCallBack` receives one thing. -/
theorem Incoming.Receives.unique {incoming : Incoming} {one other : Bytes}
    (isOne : incoming.Receives one) (isOther : incoming.Receives other) : one = other := by
  cases incoming with
  | normal stream => exact ReturnsWith.unique isOne isOther
  | ssl stream => exact ReturnsWith.unique isOne isOther

/-- The buffer is a C string. -/
theorem bufferText_eq_iff (received : Bytes) :
    bufferText received = .ok received ↔ 0 ∉ received ∧ received.length < 4096 := by
  have whole : received.takeWhile (· ≠ 0) = received ↔ 0 ∉ received := by
    rw [List.takeWhile_eq_self_iff]
    constructor
    · intro nonzero zero
      exact of_decide_eq_true (nonzero 0 zero) rfl
    · intro clean byte isByte
      exact decide_eq_true fun isZero => clean (isZero ▸ isByte)
  unfold bufferText
  split_ifs with bounded
  · rw [Except.ok.injEq, whole]
    constructor
    · intro clean
      exact ⟨clean, bounded.resolve_right clean⟩
    · exact fun clean => clean.1
  · constructor
    · intro passed
      cases passed
    · intro clean
      exact absurd (.inl clean.2) bounded

/-- What was received reaches the handler as it came exactly when it has no NUL byte and leaves room
for one in the buffer. -/
theorem passes_delivered_iff (incoming : Incoming) (delivered : Bytes)
    (delivers : incoming.Delivers delivered) (nonempty : 1 ≤ delivered.length)
    (fits : delivered.length ≤ 4096) :
    incoming.Passes delivered ↔ 0 ∉ delivered ∧ delivered.length < 4096 := by
  have receives := delivers.receives fits
  rw [← bufferText_eq_iff]
  constructor
  · rintro ⟨received, isReceived, -, passed⟩
    obtain rfl := receives.unique isReceived
    exact passed
  · intro passed
    exact ⟨delivered, receives, List.length_pos_iff.mp nonempty, passed⟩

/-- Two chunks with a call that would block between them, and then the end of the stream. -/
def twoChunks (one other : Bytes) : Nat → RecvOutcome
  | 0 => .data one
  | 1 => .wouldBlock
  | 2 => .data other
  | _ => .data []

/-- A text that arrives in two chunks is delivered whole. -/
theorem twoChunks_delivers {one other : Bytes} (someOne : one ≠ []) (someOther : other ≠ [])
    (short : (one ++ other).length < 4096) :
    (Incoming.normal (twoChunks one other)).Delivers (one ++ other) := by
  rw [List.length_append] at short
  refine ⟨3, ?_, .inl rfl, by simp [gathered, List.range_succ, twoChunks, RecvOutcome.chunk]⟩
  intro earlier before stops
  match earlier, before with
  | 0, _ =>
    obtain none | full := stops
    · exact someOne none
    · simp [gathered, List.range_succ, twoChunks, RecvOutcome.chunk] at full
      omega
  | 1, _ => exact stops
  | 2, _ =>
    obtain none | full := stops
    · exact someOther none
    · simp [gathered, List.range_succ, twoChunks, RecvOutcome.chunk] at full
      omega

/-- A request line that comes in two chunks. -/
theorem passes_two_chunks :
    (Incoming.normal (twoChunks (bytes "GE") (bytes "T"))).Passes (bytes "GET") :=
  (passes_delivered_iff (.normal (twoChunks (bytes "GE") (bytes "T"))) (bytes "GET")
    (twoChunks_delivers (by decide) (by decide) (by decide)) (by decide) (by decide)).mpr
      (by decide)

/-- A NUL byte cuts the request, and the handler reads past a full buffer. -/
theorem nul_and_full_buffer :
    ((Incoming.normal (twoChunks [71, 0] [69])).Delivers [71, 0, 69] ∧
      ¬(Incoming.normal (twoChunks [71, 0] [69])).Passes [71, 0, 69]) ∧
    ((Incoming.normal fun _ => .data (List.replicate 4096 71)).Delivers (List.replicate 4096 71) ∧
      bufferText (List.replicate 4096 71) = .error .readPast) := by
  have cut : (Incoming.normal (twoChunks [71, 0] [69])).Delivers [71, 0, 69] :=
    twoChunks_delivers (by decide) (by decide) (by decide)
  refine ⟨⟨cut, ?_⟩, ⟨0, fun _ before => absurd before (Nat.not_lt_zero _), .inr ?_, ?_⟩, ?_⟩
  · rintro ⟨received, receives, -, passed⟩
    obtain rfl := (cut.receives (by decide)).unique receives
    exact absurd ((bufferText_eq_iff _).mp passed).1 (by decide)
  · rw [gathered_succ, gathered_zero, List.nil_append, RecvOutcome.chunk, List.length_replicate]
  · rw [gathered_succ, gathered_zero, List.nil_append, RecvOutcome.chunk]
  · rw [bufferText, if_neg]
    rw [List.length_replicate, List.mem_replicate]
    decide

end NetServer
