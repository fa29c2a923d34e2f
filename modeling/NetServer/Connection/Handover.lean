import NetServer.Connection.Server

/-!
# From the acceptor to the workers, `CEventBaseMgr`

`DoAccept` hands every new descriptor to the worker that its number selects, through the worker's
pipe, and the worker registers it with its event base. The model adds to the server what the kernel
knows: the open descriptors and the contents of the pipes. A write to a pipe takes a whole
descriptor or is refused, and a pipe is read in the order it was written. A descriptor is closed
when its context is freed. When a write is refused or the handshake fails, nobody closes the
descriptor (`handover_leak_iff`); without such failures every descriptor is in one place and is
served by one worker (`handover_exactly_once`).
-/

namespace NetServer

open Lib

/-- What ends a run of the acceptor and the workers. -/
inductive HandoverFault where
  /-- A fault of the server. -/
  | server (fault : Fault)
  /-- `PushTask` divides by zero. -/
  | divideByZero
  /-- `PushTask` reads outside `m_pLibEvThreads`. -/
  | outOfBounds
  deriving DecidableEq, Repr

/-! ## The model -/

/-- The state of a `CEventBaseMgr` with its acceptor: the number of workers, the open descriptors,
the pipe of each worker, the worker whose event base each context was registered with, and the
server. -/
structure EventBaseMgr where
  iThreadnum : Int
  opened : List Int
  pipes : List (List Int)
  bases : List Nat
  server : Server

/-- What happens. -/
inductive HandoverEvent where
  /-- `DoAccept` gets a descriptor from the kernel and pushes it; the pipe may refuse the write. -/
  | accept (sockfd : Int) (written : Bool)
  /-- `PipeReadCallBack` of a worker, with the outcome of the handshake. -/
  | pipeRead (worker : Nat) (handshake : Bool)
  /-- A worker serves a connection or a timer. -/
  | serve (worker : Nat) (event : ServerEvent)
  deriving DecidableEq, Repr

/-- What the events return. -/
inductive HandoverAnswer where
  /-- What `PushTask` returned, which nobody reads. -/
  | pushed (written : Bool)
  /-- The descriptor that was registered. -/
  | registered (sockfd : Option Int)
  /-- What the server answered. -/
  | served (answer : Option (HandReply × Bytes))
  deriving DecidableEq, Repr

namespace EventBaseMgr

/-- `CEventBaseMgr::LibEvInit`. -/
def new (iNum : Int) : EventBaseMgr :=
  ⟨iNum, [], List.replicate iNum.toNat [], [], serverMachine.init⟩

/-- `CEventBaseMgr::PushTask`. -/
def pushTask (mgr : EventBaseMgr) (sockfd : Int) (written : Bool) :
    Except HandoverFault (Bool × EventBaseMgr) :=
  if sockfd < 0 then .ok (false, mgr)
  else if mgr.iThreadnum = 0 then .error .divideByZero
  else
    let index := (sockfd.tmod mgr.iThreadnum).toNat
    match mgr.pipes[index]? with
    | none => .error .outOfBounds
    | some pipe =>
      if written then .ok (true, { mgr with pipes := mgr.pipes.set index (pipe ++ [sockfd]) })
      else .ok (false, mgr)

/-- `CEventBaseMgr::OnPipeReadCallback`, with the descriptor it registers. `CreateSSL` returns null
when SSL is off and when the handshake fails. -/
def onPipeReadCallback (mgr : EventBaseMgr) (enablessl : Bool) (worker : Nat) (sockfd : Int)
    (handshake : Bool) : Option Int × EventBaseMgr :=
  if sockfd < 0 then (none, mgr)
  else if enablessl && !handshake then (none, mgr)
  else
    (some sockfd, { mgr with
      bases := mgr.bases ++ [worker]
      server := { mgr.server with ctxs := mgr.server.ctxs.alloc ⟨sockfd⟩ } })

/-- The descriptors of the contexts that a step of the server frees. -/
def closedBy (before after : Server) : List Int :=
  (List.range before.ctxs.next).filterMap fun pCtx =>
    if (after.ctxs.get? pCtx).isSome then none else (before.ctxs.get? pCtx).map EventCtx.sock

/-- The effect of an event. -/
def step (enablessl : Bool) (mgr : EventBaseMgr) :
    HandoverEvent → Except HandoverFault (EventBaseMgr × HandoverAnswer)
  | .accept sockfd written => do
    let (written, mgr) ← { mgr with opened := mgr.opened ++ [sockfd] }.pushTask sockfd written
    return (mgr, .pushed written)
  | .pipeRead worker handshake =>
    match mgr.pipes[worker]? with
    | some (sockfd :: rest) =>
      let (registered, mgr) :=
        { mgr with pipes := mgr.pipes.set worker rest }.onPipeReadCallback enablessl
          worker sockfd handshake
      .ok (mgr, .registered registered)
    | _ => .ok (mgr, .registered none)
  | .serve _ event =>
    match serverMachine.step mgr.server event with
    | .ok (server, answer) =>
      let closed := closedBy mgr.server server
      .ok ({ mgr with server, opened := mgr.opened.filter fun fd => fd ∉ closed }, .served answer)
    | .error fault => .error (.server fault)

/-- The kernel gives out a descriptor that is not open, a worker reads its pipe when there is
something in it, and it runs the callbacks of the contexts that are registered with its own event
base. -/
def enabled (mgr : EventBaseMgr) : HandoverEvent → Bool
  | .accept sockfd _ => decide (0 ≤ sockfd) && decide (sockfd ∉ mgr.opened)
  | .pipeRead worker _ => decide (mgr.pipes[worker]?.getD [] ≠ [])
  | .serve worker event =>
    decide (worker < mgr.pipes.length) && serverMachine.enabled mgr.server event &&
      match event with
      | .accept _ => false
      | .callback pCtx _ _ _ => decide (mgr.bases[pCtx]? = some worker)
      | .sweep _ | .release _ => true

end EventBaseMgr

/-- All runs of an acceptor and its workers. -/
def handoverMachine (iNum : Int) (enablessl : Bool) :
    Machine EventBaseMgr HandoverEvent HandoverAnswer HandoverFault where
  init := .new iNum
  enabled := EventBaseMgr.enabled
  step := EventBaseMgr.step enablessl

namespace EventBaseMgr

/-! ## Invariants -/

/-- The worker that a descriptor goes to. -/
def home (mgr : EventBaseMgr) (sockfd : Int) : Nat := (sockfd.tmod mgr.iThreadnum).toNat

/-- What is in the pipe of a worker. -/
def pipe (mgr : EventBaseMgr) (worker : Nat) : List Int := mgr.pipes[worker]?.getD []

/-- A live context has a descriptor. -/
def Registers (mgr : EventBaseMgr) (pCtx : Nat) (sockfd : Int) : Prop :=
  ∃ ctx, mgr.server.ctxs.get? pCtx = some ctx ∧ ctx.sock = sockfd

/-- What holds in every run, with and without failures. -/
structure Sound (mgr : EventBaseMgr) : Prop where
  server : mgr.server.Sound
  bases : mgr.bases.length = mgr.server.ctxs.next
  valid : ∀ {sockfd}, sockfd ∈ mgr.opened → 0 ≤ sockfd
  piped : ∀ {worker sockfd}, sockfd ∈ mgr.pipe worker →
    worker = mgr.home sockfd ∧ sockfd ∈ mgr.opened ∧ ∀ pCtx, ¬mgr.Registers pCtx sockfd
  once : ∀ worker, (mgr.pipe worker).Nodup
  registered : ∀ {pCtx sockfd}, mgr.Registers pCtx sockfd →
    sockfd ∈ mgr.opened ∧ mgr.bases[pCtx]? = some (mgr.home sockfd)

/-- A descriptor is registered once. -/
theorem Sound.registers_unique {mgr : EventBaseMgr} (sound : mgr.Sound) {pCtx pCtx' : Nat}
    {sockfd : Int} (one : mgr.Registers pCtx sockfd) (other : mgr.Registers pCtx' sockfd) :
    pCtx = pCtx' := by
  obtain ⟨ctx, alive, sock⟩ := one
  obtain ⟨ctx', alive', sock'⟩ := other
  exact sound.server.distinct alive alive' (sock.trans sock'.symm)

/-- The pipes are empty at the start. -/
theorem pipe_new (iNum : Int) (worker : Nat) : (new iNum).pipe worker = [] := by
  simp only [pipe, new, List.getElem?_replicate]
  split <;> rfl

/-- Nothing is open at the start. -/
theorem sound_new (iNum : Int) : (new iNum).Sound := by
  have none : ∀ {pCtx sockfd}, ¬(new iNum).Registers pCtx sockfd := by
    rintro pCtx sockfd ⟨ctx, alive, -⟩
    simp [new, serverMachine] at alive
  refine ⟨Server.sound_init, rfl, ?_, ?_, ?_, fun registers => absurd registers none⟩
  · intro sockfd isOpen
    cases isOpen
  · intro worker sockfd inPipe
    rw [pipe_new] at inPipe
    cases inPipe
  · intro worker
    rw [pipe_new]
    exact List.nodup_nil

/-! ## Steps -/

/-- A worker registers a descriptor. -/
def register (mgr : EventBaseMgr) (worker : Nat) (sockfd : Int) : EventBaseMgr :=
  { mgr with
    bases := mgr.bases ++ [worker]
    server := { mgr.server with ctxs := mgr.server.ctxs.alloc ⟨sockfd⟩ } }

/-- The pipe of a worker is replaced. -/
def setPipe (mgr : EventBaseMgr) (worker : Nat) (pipe : List Int) : EventBaseMgr :=
  { mgr with pipes := mgr.pipes.set worker pipe }

/-- The kernel opens a descriptor. -/
def opens (mgr : EventBaseMgr) (sockfd : Int) : EventBaseMgr :=
  { mgr with opened := mgr.opened ++ [sockfd] }

/-- The server moves on and closes some descriptors. -/
def serves (mgr : EventBaseMgr) (server : Server) : EventBaseMgr :=
  { mgr with server, opened := mgr.opened.filter fun fd => fd ∉ closedBy mgr.server server }

variable {mgr next : EventBaseMgr} {enablessl : Bool} {event : HandoverEvent}
  {answer : HandoverAnswer}

/-- All that a step can do. -/
inductive Effect (enablessl : Bool) (mgr : EventBaseMgr) :
    HandoverEvent → HandoverAnswer → EventBaseMgr → Prop
  | refused {sockfd : Int} (valid : 0 ≤ sockfd) (unused : sockfd ∉ mgr.opened) :
    Effect enablessl mgr (.accept sockfd false) (.pushed false) (mgr.opens sockfd)
  | pushed {sockfd : Int} (valid : 0 ≤ sockfd) (unused : sockfd ∉ mgr.opened)
    (inside : mgr.home sockfd < mgr.pipes.length) :
    Effect enablessl mgr (.accept sockfd true) (.pushed true)
      ((mgr.opens sockfd).setPipe (mgr.home sockfd) (mgr.pipe (mgr.home sockfd) ++ [sockfd]))
  | dropped {worker : Nat} {sockfd : Int} {rest : List Int} (inside : worker < mgr.pipes.length)
    (first : mgr.pipe worker = sockfd :: rest) (ssl : enablessl = true) :
    Effect enablessl mgr (.pipeRead worker false) (.registered none) (mgr.setPipe worker rest)
  | registered {worker : Nat} {sockfd : Int} {rest : List Int} {handshake : Bool}
    (inside : worker < mgr.pipes.length) (first : mgr.pipe worker = sockfd :: rest)
    (secure : enablessl = true → handshake = true) :
    Effect enablessl mgr (.pipeRead worker handshake) (.registered (some sockfd))
      ((mgr.setPipe worker rest).register worker sockfd)
  | served {worker : Nat} {event : ServerEvent} {answer : Option (HandReply × Bytes)}
    {server : Server}
    (steps : serverMachine.Steps mgr.server event answer server)
    (later : ∀ sockfd, event ≠ .accept sockfd)
    (own : ∀ pCtx received now memory, event = .callback pCtx received now memory →
      mgr.bases[pCtx]? = some worker) :
    Effect enablessl mgr (.serve worker event) (.served answer) (mgr.serves server)

/-- The pipe of a worker that exists. -/
theorem pipe_of_some {worker : Nat} {content : List Int}
    (here : mgr.pipes[worker]? = some content) :
    worker < mgr.pipes.length ∧ mgr.pipe worker = content := by
  obtain ⟨inside, -⟩ := List.getElem?_eq_some_iff.mp here
  exact ⟨inside, by rw [pipe, here]; rfl⟩

/-- Every step has one of these effects. -/
theorem Sound.effect {iNum : Int} (sound : mgr.Sound)
    (steps : (handoverMachine iNum enablessl).Steps mgr event answer next) :
    Effect enablessl mgr event answer next := by
  obtain ⟨possible, ran⟩ := steps
  simp only [handoverMachine] at possible ran
  cases event with
  | accept sockfd written =>
    simp only [enabled, Bool.and_eq_true, decide_eq_true_eq] at possible
    have valid : ¬sockfd < 0 := Int.not_lt.mpr possible.1
    obtain ⟨⟨written', after⟩, push, done⟩ := bind_eq_ok.mp ran
    simp only [pushTask, if_neg valid] at push
    split at push
    · cases push
    · split at push
      · cases push
      · rename_i content here
        obtain ⟨inside, isContent⟩ := pipe_of_some here
        cases written with
        | false =>
          cases push
          cases done
          exact .refused possible.1 possible.2
        | true =>
          cases push
          cases done
          rw [← isContent]
          exact .pushed possible.1 possible.2 inside
  | pipeRead worker handshake =>
    simp only [enabled, decide_eq_true_eq] at possible
    simp only [step] at ran
    split at ran
    · rename_i sockfd rest here
      obtain ⟨inside, first⟩ := pipe_of_some here
      have valid : ¬sockfd < 0 := by
        have inPipe : sockfd ∈ mgr.pipe worker := first ▸ List.mem_cons_self
        exact Int.not_lt.mpr (sound.valid (sound.piped inPipe).2.1)
      simp only [onPipeReadCallback, if_neg valid] at ran
      by_cases failed : (enablessl && !handshake) = true
      · rw [if_pos failed] at ran
        cases ran
        simp only [Bool.and_eq_true, Bool.not_eq_true'] at failed
        rw [failed.2]
        exact .dropped inside first failed.1
      · rw [if_neg failed] at ran
        cases ran
        refine .registered inside first fun ssl => ?_
        simpa [ssl] using failed
    · rename_i other
      cases content : mgr.pipes[worker]? with
      | none => simp [content] at possible
      | some waiting =>
        cases waiting with
        | nil => simp [content] at possible
        | cons sockfd rest => exact absurd content (other sockfd rest)
  | serve worker event =>
    simp only [enabled, Bool.and_eq_true, decide_eq_true_eq] at possible
    simp only [step] at ran
    cases stepped : serverMachine.step mgr.server event with
    | error fault =>
      rw [stepped] at ran
      cases ran
    | ok result =>
      rw [stepped] at ran
      cases ran
      refine .served ⟨possible.1.2, stepped⟩ ?_ ?_
      · rintro sockfd rfl
        simp at possible
      · rintro pCtx received now memory rfl
        simpa using possible.2

/-! ## What the steps do to the places of descriptors -/

/-- Only the pipe that is set changes. -/
theorem pipe_setPipe {worker : Nat} (inside : worker < mgr.pipes.length) (content : List Int)
    (other : Nat) :
    (mgr.setPipe worker content).pipe other = if other = worker then
      content else mgr.pipe other := by
  simp only [pipe, setPipe]
  by_cases same : other = worker
  · subst same
    simp [inside]
  · rw [List.getElem?_set_ne (Ne.symm same), if_neg same]

/-- A descriptor that is registered gets a new context. -/
theorem registers_register {worker pCtx : Nat} {sockfd other : Int} :
    (mgr.register worker sockfd).Registers pCtx other ↔
      pCtx = mgr.server.ctxs.next ∧ other = sockfd ∨ mgr.Registers pCtx other := by
  simp only [Registers, register, Heap.get?_alloc]
  by_cases new : pCtx = mgr.server.ctxs.next
  · subst new
    simp [eq_comm]
  · simp [new]

/-- The closed descriptors are those of the freed contexts. -/
theorem mem_closedBy {before after : Server} {sockfd : Int} :
    sockfd ∈ closedBy before after ↔
      ∃ pCtx ctx, before.ctxs.get? pCtx = some ctx ∧ after.ctxs.get? pCtx = none ∧
      ctx.sock = sockfd := by
  simp only [closedBy, List.mem_filterMap, List.mem_range]
  constructor
  · rintro ⟨pCtx, -, freed⟩
    split at freed
    · cases freed
    · rename_i gone
      obtain ⟨ctx, alive, sock⟩ := Option.map_eq_some_iff.mp freed
      exact ⟨pCtx, ctx, alive, by simpa using gone, sock⟩
  · rintro ⟨pCtx, ctx, alive, gone, sock⟩
    exact ⟨pCtx, Heap.lt_next_of_get? alive, by simp [gone, alive, sock]⟩

/-- A worker takes descriptors from its pipe that no context has. -/
theorem Sound.steps_accept (sound : mgr.Sound) {worker : Nat} {sockfd : Int}
    (inPipe : sockfd ∈ mgr.pipe worker) :
    serverMachine.Steps mgr.server (.accept sockfd) none
      { mgr.server with ctxs := mgr.server.ctxs.alloc ⟨sockfd⟩ } := by
  obtain ⟨-, isOpen, unregistered⟩ := sound.piped inPipe
  refine ⟨?_, rfl⟩
  simp only [serverMachine, Server.enabled, Bool.and_eq_true, decide_eq_true_eq, List.all_eq_true,
    bne_iff_ne]
  refine ⟨sound.valid isOpen, fun ctx listed sock => ?_⟩
  obtain ⟨pCtx, alive⟩ := Heap.mem_values.mp listed
  exact unregistered pCtx ⟨ctx, alive, sock⟩

/-- Opening a descriptor changes no place. -/
theorem Sound.opens (sound : mgr.Sound) {sockfd : Int} (valid : 0 ≤ sockfd) :
    (mgr.opens sockfd).Sound where
  server := sound.server
  bases := sound.bases
  valid := by
    intro other isOpen
    rcases List.mem_append.mp isOpen with before | isNew
    · exact sound.valid before
    · rwa [List.mem_singleton.mp isNew]
  piped := by
    intro worker other inPipe
    obtain ⟨isHome, isOpen, unregistered⟩ := sound.piped inPipe
    exact ⟨isHome, List.mem_append_left _ isOpen, unregistered⟩
  once := sound.once
  registered := by
    intro pCtx other registers
    obtain ⟨isOpen, isHome⟩ := sound.registered registers
    exact ⟨List.mem_append_left _ isOpen, isHome⟩

/-- An open descriptor that has no place yet goes into the pipe of its worker. -/
theorem Sound.push (sound : mgr.Sound) {sockfd : Int} (isOpen : sockfd ∈ mgr.opened)
    (nowhere : ∀ worker, sockfd ∉ mgr.pipe worker)
    (unregistered : ∀ pCtx, ¬mgr.Registers pCtx sockfd)
    (inside : mgr.home sockfd < mgr.pipes.length) :
    (mgr.setPipe (mgr.home sockfd) (mgr.pipe (mgr.home sockfd) ++ [sockfd])).Sound where
  server := sound.server
  bases := sound.bases
  valid := sound.valid
  piped := by
    intro worker other inPipe
    rw [pipe_setPipe inside] at inPipe
    split at inPipe
    · rename_i same
      rcases List.mem_append.mp inPipe with before | isNew
      · rw [same]
        exact sound.piped before
      · rw [List.mem_singleton.mp isNew]
        exact ⟨same, isOpen, unregistered⟩
    · exact sound.piped inPipe
  once := by
    intro worker
    rw [pipe_setPipe inside]
    split
    · apply List.Nodup.append (sound.once _) (List.nodup_singleton _)
      simp [nowhere]
    · exact sound.once worker
  registered := sound.registered

/-- A descriptor is taken from a pipe. -/
theorem Sound.take (sound : mgr.Sound) {worker : Nat} {sockfd : Int} {rest : List Int}
    (inside : worker < mgr.pipes.length) (first : mgr.pipe worker = sockfd :: rest) :
    (mgr.setPipe worker rest).Sound ∧ ∀ other, sockfd ∉ (mgr.setPipe worker rest).pipe other := by
  have once := sound.once worker
  rw [first, List.nodup_cons] at once
  have taken : sockfd ∈ mgr.pipe worker := first ▸ List.mem_cons_self
  refine ⟨⟨sound.server, sound.bases, sound.valid, ?_, ?_, sound.registered⟩, ?_⟩
  · intro other fd inPipe
    rw [pipe_setPipe inside] at inPipe
    split at inPipe
    · rename_i same
      rw [same]
      exact sound.piped (first ▸ List.mem_cons_of_mem _ inPipe)
    · exact sound.piped inPipe
  · intro other
    rw [pipe_setPipe inside]
    split
    · exact once.2
    · exact sound.once other
  · intro other inPipe
    rw [pipe_setPipe inside] at inPipe
    split at inPipe
    · exact once.1 inPipe
    · rename_i elsewhere
      exact elsewhere ((sound.piped inPipe).1.trans (sound.piped taken).1.symm)

/-- An open descriptor that has no place is registered. -/
theorem Sound.register (sound : mgr.Sound) {sockfd : Int} (isOpen : sockfd ∈ mgr.opened)
    (nowhere : ∀ worker, sockfd ∉ mgr.pipe worker)
    (steps : serverMachine.Steps mgr.server (.accept sockfd) none
      { mgr.server with ctxs := mgr.server.ctxs.alloc ⟨sockfd⟩ }) :
    (mgr.register (mgr.home sockfd) sockfd).Sound where
  server := sound.server.step steps
  bases := by
    simp only [EventBaseMgr.register, List.length_append, List.length_singleton, Heap.next_alloc,
      sound.bases]
  valid := sound.valid
  piped := by
    intro worker other inPipe
    have before : other ∈ mgr.pipe worker := inPipe
    obtain ⟨isHome, otherOpen, unregistered⟩ := sound.piped before
    refine ⟨isHome, otherOpen, fun pCtx registers => ?_⟩
    rcases registers_register.mp registers with ⟨-, same⟩ | old
    · exact nowhere worker (same ▸ before)
    · exact unregistered pCtx old
  once := sound.once
  registered := by
    intro pCtx other registers
    rcases registers_register.mp registers with ⟨isNew, same⟩ | old
    · refine ⟨same ▸ isOpen, ?_⟩
      rw [isNew, same, ← sound.bases]
      exact List.getElem?_concat_length
    · obtain ⟨otherOpen, isHome⟩ := sound.registered old
      refine ⟨otherOpen, ?_⟩
      obtain ⟨older, -⟩ := List.getElem?_eq_some_iff.mp isHome
      exact (List.getElem?_append_left older).trans isHome

section

variable {server : Server} {serverEvent : ServerEvent} {served : Option (HandReply × Bytes)}

/-- A step of the server that accepts nothing registers nothing. -/
theorem Sound.registers_serves (sound : mgr.Sound)
    (steps : serverMachine.Steps mgr.server serverEvent served server)
    (later : ∀ sockfd, serverEvent ≠ .accept sockfd) {pCtx : Nat} {sockfd : Int}
    (registers : (mgr.serves server).Registers pCtx sockfd) : mgr.Registers pCtx sockfd := by
  obtain ⟨ctx, alive, sock⟩ := registers
  exact ⟨ctx, (sound.server.ctxs_step steps later).2 alive, sock⟩

/-- A descriptor stays open exactly when it was open and its context, if it had one, is not
freed. -/
theorem mem_opened_serves {sockfd : Int} :
    sockfd ∈ (mgr.serves server).opened ↔ sockfd ∈ mgr.opened ∧
      ∀ pCtx, mgr.Registers pCtx sockfd → (server.ctxs.get? pCtx).isSome = true := by
  have closed : sockfd ∉ closedBy mgr.server server ↔
      ∀ pCtx, mgr.Registers pCtx sockfd → (server.ctxs.get? pCtx).isSome = true := by
    rw [mem_closedBy]
    constructor
    · rintro kept pCtx ⟨ctx, alive, sock⟩
      by_contra gone
      exact kept ⟨pCtx, ctx, alive, by simpa using gone, sock⟩
    · rintro kept ⟨pCtx, ctx, alive, gone, sock⟩
      have still := kept pCtx ⟨ctx, alive, sock⟩
      rw [gone] at still
      cases still
  simp only [serves, List.mem_filter, decide_not, Bool.not_eq_true', decide_eq_false_iff_not,
    closed]

/-- A step of the server closes just the descriptors whose contexts it frees. -/
theorem Sound.serves (sound : mgr.Sound)
    (steps : serverMachine.Steps mgr.server serverEvent served server)
    (later : ∀ sockfd, serverEvent ≠ .accept sockfd) : (mgr.serves server).Sound where
  server := sound.server.step steps
  bases := by
    rw [EventBaseMgr.serves, (sound.server.ctxs_step steps later).1]
    exact sound.bases
  valid := by
    intro sockfd isOpen
    exact sound.valid (mem_opened_serves.mp isOpen).1
  piped := by
    intro worker sockfd inPipe
    obtain ⟨isHome, isOpen, unregistered⟩ := sound.piped inPipe
    refine ⟨isHome, mem_opened_serves.mpr ⟨isOpen, fun pCtx registers => ?_⟩,
      fun pCtx registers => ?_⟩
    · exact absurd registers (unregistered pCtx)
    · exact unregistered pCtx (sound.registers_serves steps later registers)
  once := sound.once
  registered := by
    intro pCtx sockfd registers
    have before := sound.registers_serves steps later registers
    obtain ⟨isOpen, isHome⟩ := sound.registered before
    refine ⟨mem_opened_serves.mpr ⟨isOpen, fun pCtx' registers' => ?_⟩, isHome⟩
    -- the descriptor has no other context
    rw [sound.registers_unique registers' before]
    obtain ⟨ctx, alive, -⟩ := registers
    exact Option.isSome_iff_exists.mpr ⟨ctx, alive⟩

end

/-- A descriptor that is not open is nowhere. -/
theorem Sound.nowhere (sound : mgr.Sound) {sockfd : Int} (unused : sockfd ∉ mgr.opened) :
    (∀ worker, sockfd ∉ mgr.pipe worker) ∧ ∀ pCtx, ¬mgr.Registers pCtx sockfd :=
  ⟨fun _ inPipe => unused (sound.piped inPipe).2.1, fun _ registers =>
    unused (sound.registered registers).1⟩

/-- Every step keeps the places of descriptors apart. -/
theorem Sound.step {iNum : Int} (sound : mgr.Sound)
    (steps : (handoverMachine iNum enablessl).Steps mgr event answer next) : next.Sound := by
  cases sound.effect steps with
  | refused valid unused => exact sound.opens valid
  | @pushed sockfd valid unused inside =>
    obtain ⟨nowhere, unregistered⟩ := sound.nowhere unused
    exact (sound.opens valid).push (List.mem_append_right _ List.mem_cons_self) nowhere
      unregistered inside
  | dropped inside first ssl => exact (sound.take inside first).1
  | @registered worker sockfd rest handshake inside first secure =>
    have taken : sockfd ∈ mgr.pipe worker := first ▸ List.mem_cons_self
    obtain ⟨isHome, isOpen, -⟩ := sound.piped taken
    obtain ⟨sound', nowhere⟩ := sound.take inside first
    rw [isHome]
    rw [isHome] at sound' nowhere
    exact sound'.register isOpen nowhere (sound.steps_accept taken)
  | served served later own => exact sound.serves served later

/-- They are apart behind every run. -/
theorem sound_of_run {iNum : Int} {trace : List (HandoverEvent × HandoverAnswer)}
    (ran : (handoverMachine iNum enablessl).Run (.new iNum) trace mgr) : mgr.Sound :=
  ran.preserved Sound.step (sound_new iNum)

/-! ## Leaks -/

/-- A descriptor waits in a pipe or has a live context. -/
def Placed (mgr : EventBaseMgr) (sockfd : Int) : Prop :=
  (∃ worker, sockfd ∈ mgr.pipe worker) ∨ ∃ pCtx, mgr.Registers pCtx sockfd

/-- Every open descriptor does. -/
def NoLeak (mgr : EventBaseMgr) : Prop := ∀ sockfd ∈ mgr.opened, mgr.Placed sockfd

/-- The hand-over does not fail: the pipe takes the descriptor, and a handshake that is needed
succeeds. -/
def Smooth (enablessl : Bool) : HandoverEvent → Prop
  | .accept _ written => written = true
  | .pipeRead _ handshake => enablessl = true → handshake = true
  | .serve _ _ => True

/-- A pushed descriptor is placed, and the others stay where they are. -/
theorem noLeak_push {sockfd : Int} (unused : sockfd ∉ mgr.opened)
    (inside : mgr.home sockfd < mgr.pipes.length) :
    ((mgr.opens sockfd).setPipe (mgr.home sockfd) (mgr.pipe (mgr.home sockfd) ++ [sockfd])).NoLeak ↔
      mgr.NoLeak := by
  have piped :=
    @pipe_setPipe (mgr.opens sockfd) (mgr.home sockfd) inside
      (mgr.pipe (mgr.home sockfd) ++ [sockfd])
  constructor
  · intro noLeak other isOpen
    rcases noLeak other (List.mem_append_left _ isOpen) with ⟨worker, inPipe⟩ | registers
    · rw [piped] at inPipe
      split at inPipe
      · rcases List.mem_append.mp inPipe with before | isNew
        · exact .inl ⟨_, before⟩
        · exact absurd (List.mem_singleton.mp isNew ▸ isOpen) unused
      · exact .inl ⟨worker, inPipe⟩
    · exact .inr registers
  · intro noLeak other isOpen
    rcases List.mem_append.mp isOpen with before | isNew
    · rcases noLeak other before with ⟨worker, inPipe⟩ | registers
      · refine .inl ⟨worker, ?_⟩
        rw [piped]
        split
        · rename_i same
          exact List.mem_append_left _ (same ▸ inPipe)
        · exact inPipe
      · exact .inr registers
    · refine .inl ⟨mgr.home sockfd, ?_⟩
      rw [piped, if_pos rfl]
      exact List.mem_append_right _ isNew

/-- A descriptor that is taken from its pipe and registered stays placed. -/
theorem noLeak_register {worker : Nat} {sockfd : Int} {rest : List Int}
    (inside : worker < mgr.pipes.length) (first : mgr.pipe worker = sockfd :: rest) :
    ((mgr.setPipe worker rest).register worker sockfd).NoLeak ↔ mgr.NoLeak := by
  have piped := pipe_setPipe inside rest
  have placed : ∀ other, ((mgr.setPipe worker rest).register worker sockfd).Placed other ↔
      mgr.Placed other := by
    intro other
    constructor
    · rintro (⟨worker', inPipe⟩ | ⟨pCtx, registers⟩)
      · have inRest : other ∈ (mgr.setPipe worker rest).pipe worker' := inPipe
        rw [piped] at inRest
        split at inRest
        · exact .inl ⟨worker, first ▸ List.mem_cons_of_mem _ inRest⟩
        · exact .inl ⟨worker', inRest⟩
      · rcases registers_register.mp registers with ⟨-, same⟩ | old
        · exact .inl ⟨worker, by rw [first, same]; exact List.mem_cons_self⟩
        · exact .inr ⟨pCtx, old⟩
    · rintro (⟨worker', inPipe⟩ | ⟨pCtx, registers⟩)
      · by_cases here : worker' = worker
        · rw [here, first] at inPipe
          rcases List.mem_cons.mp inPipe with same | inRest
          · exact .inr ⟨_, registers_register.mpr (.inl ⟨rfl, same⟩)⟩
          · refine .inl ⟨worker, ?_⟩
            show other ∈ (mgr.setPipe worker rest).pipe worker
            rw [piped, if_pos rfl]
            exact inRest
        · refine .inl ⟨worker', ?_⟩
          show other ∈ (mgr.setPipe worker rest).pipe worker'
          rw [piped, if_neg here]
          exact inPipe
      · exact .inr ⟨pCtx, registers_register.mpr (.inr registers)⟩
  exact forall_congr' fun other => imp_congr Iff.rfl (placed other)

/-- The server closes the descriptors that lose their contexts. -/
theorem Sound.noLeak_serves {server : Server} {serverEvent : ServerEvent}
    {served : Option (HandReply × Bytes)} (sound : mgr.Sound)
    (steps : serverMachine.Steps mgr.server serverEvent served server)
    (later : ∀ sockfd, serverEvent ≠ .accept sockfd) : (mgr.serves server).NoLeak ↔ mgr.NoLeak := by
  constructor
  · intro noLeak sockfd isOpen
    by_cases registered : ∃ pCtx, mgr.Registers pCtx sockfd
    · exact .inr registered
    · have stays : sockfd ∈ (mgr.serves server).opened :=
        mem_opened_serves.mpr ⟨isOpen, fun pCtx registers => absurd ⟨pCtx, registers⟩ registered⟩
      rcases noLeak sockfd stays with inPipe | ⟨pCtx, registers⟩
      · exact .inl inPipe
      · exact .inr ⟨pCtx, sound.registers_serves steps later registers⟩
  · intro noLeak sockfd stays
    obtain ⟨isOpen, kept⟩ := mem_opened_serves.mp stays
    rcases noLeak sockfd isOpen with inPipe | ⟨pCtx, registers⟩
    · exact .inl inPipe
    · obtain ⟨ctx', alive'⟩ := Option.isSome_iff_exists.mp (kept pCtx registers)
      obtain ⟨ctx, alive, sock⟩ := registers
      have same := (sound.server.ctxs_step steps later).2 alive'
      rw [alive] at same
      cases same
      exact .inr ⟨pCtx, _, alive', sock⟩

/-- A step leaves no open descriptor without a place exactly when none was before and the hand-over
does not fail. -/
theorem Sound.noLeak_step {iNum : Int} (sound : mgr.Sound)
    (steps : (handoverMachine iNum enablessl).Steps mgr event answer next) :
    next.NoLeak ↔ mgr.NoLeak ∧ Smooth enablessl event := by
  cases sound.effect steps with
  | @refused sockfd valid unused =>
    constructor
    · intro noLeak
      obtain ⟨nowhere, unregistered⟩ := sound.nowhere unused
      rcases noLeak sockfd (List.mem_append_right _ List.mem_cons_self) with
        ⟨worker, inPipe⟩ | ⟨pCtx, registers⟩
      · exact absurd inPipe (nowhere worker)
      · exact absurd registers (unregistered pCtx)
    · intro both
      exact nomatch both.2
  | pushed valid unused inside =>
    rw [and_iff_left (show Smooth enablessl (.accept _ true) from rfl)]
    exact noLeak_push unused inside
  | @dropped worker sockfd rest inside first ssl =>
    constructor
    · intro noLeak
      have taken : sockfd ∈ mgr.pipe worker := first ▸ List.mem_cons_self
      obtain ⟨-, isOpen, unregistered⟩ := sound.piped taken
      rcases noLeak sockfd isOpen with ⟨other, inPipe⟩ | ⟨pCtx, registers⟩
      · exact absurd inPipe ((sound.take inside first).2 other)
      · exact absurd registers (unregistered pCtx)
    · intro both
      exact nomatch both.2 ssl
  | registered inside first secure =>
    rw [and_iff_left (show Smooth enablessl (.pipeRead _ _) from secure)]
    exact noLeak_register inside first
  | served served later own =>
    rw [and_iff_left (show Smooth enablessl (.serve _ _) from trivial)]
    exact sound.noLeak_serves served later

/-- No open descriptor is without a place behind exactly those runs in which no hand-over fails. -/
theorem noLeak_iff {iNum : Int} {trace : List (HandoverEvent × HandoverAnswer)}
    (ran : (handoverMachine iNum enablessl).Run (.new iNum) trace mgr) :
    mgr.NoLeak ↔ ∀ entry ∈ trace, Smooth enablessl entry.1 := by
  have start : (new iNum).NoLeak := fun sockfd isOpen => nomatch isOpen
  rw [ran.last_iff Sound.step Sound.noLeak_step (sound_new iNum), ran.throughout_events]
  exact and_iff_right start

/-! ## Order -/

/-- The worker with the number `f mod n`. -/
def workerOf (iNum sockfd : Int) : Nat := (sockfd % iNum).toNat

/-- For a valid descriptor, `PushTask` computes that. -/
theorem home_eq {sockfd : Int} (valid : 0 ≤ sockfd) :
    mgr.home sockfd = workerOf mgr.iThreadnum sockfd := by
  rw [home, workerOf, Int.tmod_eq_emod_of_nonneg valid]

/-- The descriptors that were pushed to a worker, in turn. -/
def pushedTo (iNum : Int) (worker : Nat) (trace : List (HandoverEvent × HandoverAnswer)) :
    List Int :=
  trace.filterMap fun
    | (.accept sockfd _, .pushed true) =>
      if workerOf iNum sockfd = worker then some sockfd else none
    | _ => none

/-- The descriptors that a worker registered, in turn. -/
def registeredBy (worker : Nat) (trace : List (HandoverEvent × HandoverAnswer)) : List Int :=
  trace.filterMap fun
    | (.pipeRead other _, .registered (some sockfd)) => if other = worker then some sockfd else none
    | _ => none

/-- A step does not change the number of workers. -/
theorem Sound.iThreadnum_step {iNum : Int} (sound : mgr.Sound)
    (steps : (handoverMachine iNum enablessl).Steps mgr event answer next) :
    next.iThreadnum = mgr.iThreadnum := by
  cases sound.effect steps <;> rfl

/-- What a worker registers comes from the front of its pipe, and what is pushed to it goes to the
end. -/
theorem Sound.fifo_step {iNum : Int} (sound : mgr.Sound)
    (steps : (handoverMachine iNum enablessl).Steps mgr event answer next)
    (smooth : Smooth enablessl event) (worker : Nat) :
    registeredBy worker [(event, answer)] ++ next.pipe worker =
      mgr.pipe worker ++ pushedTo mgr.iThreadnum worker [(event, answer)] := by
  cases sound.effect steps with
  | refused valid unused => cases smooth
  | @pushed sockfd valid unused inside =>
    have piped := @pipe_setPipe (mgr.opens sockfd) (mgr.home sockfd) inside
      (mgr.pipe (mgr.home sockfd) ++ [sockfd]) worker
    by_cases here : mgr.home sockfd = worker
    · have pushed : pushedTo mgr.iThreadnum worker [(.accept sockfd true, .pushed true)] =
          [sockfd] := by
        simp only [pushedTo, List.filterMap_cons, List.filterMap_nil]
        rw [← home_eq valid, if_pos here]
      rw [piped, if_pos here.symm, pushed, here]
      rfl
    · have pushed : pushedTo mgr.iThreadnum worker [(.accept sockfd true, .pushed true)] = [] := by
        simp only [pushedTo, List.filterMap_cons, List.filterMap_nil]
        rw [← home_eq valid, if_neg here]
      rw [piped, if_neg (Ne.symm here), pushed, List.append_nil]
      rfl
  | dropped inside first ssl => cases smooth ssl
  | @registered worker' sockfd rest handshake inside first secure =>
    have piped : ((mgr.setPipe worker' rest).register worker' sockfd).pipe worker =
        if worker = worker' then rest else mgr.pipe worker := pipe_setPipe inside rest worker
    by_cases here : worker = worker'
    · subst here
      simp [registeredBy, pushedTo, piped, first]
    · simp [registeredBy, pushedTo, piped, here, Ne.symm here]
  | served served later own => simp [registeredBy, pushedTo, EventBaseMgr.serves, pipe]

/-- Each worker registers what was pushed to it in the same order, and the rest is in its pipe. The
induction is on the run. -/
theorem Sound.fifo {iNum : Int} {trace : List (HandoverEvent × HandoverAnswer)} (sound : mgr.Sound)
    (ran : (handoverMachine iNum enablessl).Run mgr trace next)
    (smooth : ∀ entry ∈ trace, Smooth enablessl entry.1) (worker : Nat) :
    registeredBy worker trace ++ next.pipe worker =
      mgr.pipe worker ++ pushedTo mgr.iThreadnum worker trace := by
  induction ran with
  | nil => simp [registeredBy, pushedTo]
  | @cons mgr middle last event answer trace first rest ih =>
    have step := sound.fifo_step first (smooth _ List.mem_cons_self) worker
    have run := ih (sound.step first) fun entry inTrace =>
      smooth entry (List.mem_cons_of_mem _ inTrace)
    rw [sound.iThreadnum_step first] at run
    have registered : registeredBy worker ((event, answer) :: trace) =
        registeredBy worker [(event, answer)] ++ registeredBy worker trace :=
      List.filterMap_append (l := [(event, answer)])
    have pushed : pushedTo mgr.iThreadnum worker ((event, answer) :: trace) =
        pushedTo mgr.iThreadnum worker [(event, answer)] ++ pushedTo mgr.iThreadnum worker trace :=
      List.filterMap_append (l := [(event, answer)])
    calc registeredBy worker ((event, answer) :: trace) ++ last.pipe worker
        = registeredBy worker [(event, answer)] ++
            (registeredBy worker trace ++ last.pipe worker) := by
          rw [registered, List.append_assoc]
      _ = registeredBy worker [(event, answer)] ++ middle.pipe worker ++
            pushedTo mgr.iThreadnum worker trace := by rw [run, List.append_assoc]
      _ = mgr.pipe worker ++ pushedTo mgr.iThreadnum worker ((event, answer) :: trace) := by
          rw [step, pushed, List.append_assoc]

/-- The number of workers behind a run. -/
theorem iThreadnum_of_run {iNum : Int} {trace : List (HandoverEvent × HandoverAnswer)}
    (ran : (handoverMachine iNum enablessl).Run (.new iNum) trace mgr) : mgr.iThreadnum = iNum := by
  have preserved : ∀ {mgr event answer next}, mgr.Sound ∧ mgr.iThreadnum = iNum →
      (handoverMachine iNum enablessl).Steps mgr event answer next → next.Sound ∧
      next.iThreadnum = iNum :=
    fun both steps => ⟨both.1.step steps, (both.1.iThreadnum_step steps).trans both.2⟩
  exact (ran.preserved preserved ⟨sound_new iNum, rfl⟩).2

/-! ## The hand-over -/

/-- An open descriptor is once in the pipe of its worker or registered once by its worker, and
nowhere else. -/
structure InOnePlace (mgr : EventBaseMgr) (worker : Nat) (sockfd : Int) : Prop where
  onePlace : (mgr.pipe worker).count sockfd = 1 ∧ (∀ pCtx, ¬mgr.Registers pCtx sockfd) ∨
    (mgr.pipe worker).count sockfd = 0 ∧
      ∃ pCtx, mgr.bases[pCtx]? = some worker ∧ ∀ other, mgr.Registers other sockfd ↔ other = pCtx
  noOtherPipe : ∀ other, other ≠ worker → sockfd ∉ mgr.pipe other

/-- An open descriptor with a place has one place. -/
theorem Sound.inOnePlace (sound : mgr.Sound) {sockfd : Int} (placed : mgr.Placed sockfd) :
    mgr.InOnePlace (mgr.home sockfd) sockfd where
  onePlace := by
    rcases placed with ⟨worker, inPipe⟩ | ⟨pCtx, registers⟩
    · obtain ⟨isHome, -, unregistered⟩ := sound.piped inPipe
      rw [isHome] at inPipe
      exact .inl ⟨List.count_eq_one_of_mem (sound.once _) inPipe, unregistered⟩
    · refine .inr ⟨List.count_eq_zero.mpr fun inPipe => (sound.piped inPipe).2.2 pCtx registers,
        pCtx, (sound.registered registers).2, fun other => ?_⟩
      constructor
      · intro registers'
        exact sound.registers_unique registers' registers
      · rintro rfl
        exact registers
  noOtherPipe := by
    intro other elsewhere inPipe
    exact elsewhere (sound.piped inPipe).1

/-- Callbacks run on the worker of their descriptor. -/
theorem Sound.callback_home {iNum : Int} (sound : mgr.Sound) {worker pCtx : Nat} {received : Bytes}
    {now : Int} {memory : Bool}
    (steps : (handoverMachine iNum enablessl).Steps mgr
      (.serve worker (.callback pCtx received now memory)) answer next) :
    ∃ ctx, mgr.server.ctxs.get? pCtx = some ctx ∧ worker = mgr.home ctx.sock := by
  cases sound.effect steps with
  | served served later own =>
    have possible := served.1
    simp only [serverMachine, Server.enabled, Bool.and_eq_true] at possible
    obtain ⟨ctx, alive⟩ := Option.isSome_iff_exists.mp possible.1
    have base := (sound.registered ⟨ctx, alive, rfl⟩).2
    rw [own pCtx received now memory rfl] at base
    exact ⟨ctx, alive, Option.some.inj base⟩

end EventBaseMgr

open EventBaseMgr

/-- With at least one worker and no failure, in every state reached each open descriptor is once in
the pipe of worker `f mod n` or registered once by it, each worker registers what was pushed to it
in the order of the pushes, and the callbacks of a descriptor run on its worker. -/
theorem handover_exactly_once {iNum : Int} (workers : 1 ≤ iNum) {enablessl : Bool}
    {trace : List (HandoverEvent × HandoverAnswer)} {last : EventBaseMgr}
    (ran : (handoverMachine iNum enablessl).Run (.new iNum) trace last)
    (smooth : ∀ entry ∈ trace, Smooth enablessl entry.1) :
    (∀ sockfd ∈ last.opened, (workerOf iNum sockfd : Int) < iNum ∧
      last.InOnePlace (workerOf iNum sockfd) sockfd) ∧
    (∀ worker, registeredBy worker trace ++ last.pipe worker = pushedTo iNum worker trace) ∧
    (∀ worker pCtx received now memory answer next,
      (handoverMachine iNum enablessl).Steps last
        (.serve worker (.callback pCtx received now memory)) answer next →
      ∃ ctx, last.server.ctxs.get? pCtx = some ctx ∧ worker = workerOf iNum ctx.sock) := by
  have sound := sound_of_run ran
  have number := iThreadnum_of_run ran
  have noLeak : last.NoLeak := (noLeak_iff ran).mpr smooth
  refine ⟨fun sockfd isOpen => ⟨?_, ?_⟩, fun worker => ?_, ?_⟩
  · have below := Int.emod_lt_of_pos sockfd (show 0 < iNum by omega)
    have nonneg := Int.emod_nonneg sockfd (show iNum ≠ 0 by omega)
    simp only [workerOf]
    omega
  · have place := sound.inOnePlace (noLeak sockfd isOpen)
    rwa [home_eq (sound.valid isOpen), number] at place
  · have order := (sound_new iNum).fifo ran smooth worker
    rwa [pipe_new, List.nil_append] at order
  · intro worker pCtx received now memory answer next steps
    obtain ⟨ctx, alive, isHome⟩ := sound.callback_home steps
    refine ⟨ctx, alive, ?_⟩
    rw [isHome, home_eq (sound.valid (sound.registered ⟨ctx, alive, rfl⟩).1), number]

/-- Two workers, and a descriptor number that is used again while another waits. -/
def reusedNumber : List HandoverEvent :=
  [.accept 5 true, .accept 7 true, .pipeRead 1 true, .serve 1 (.callback 0 [] 100 true),
    .accept 5 true, .accept 8 true, .pipeRead 1 true]

/-- The hand-over of these. -/
theorem handover_exactly_once_reused : ∃ trace last,
    (handoverMachine 2 true).Run (.new 2) trace last ∧ trace.map Prod.fst = reusedNumber ∧
      last.opened = [7, 5, 8] ∧ last.InOnePlace 1 5 ∧
      registeredBy 1 trace ++ last.pipe 1 = pushedTo 2 1 trace := by
  obtain ⟨trace, last, ran, events, facts⟩ :=
    Machine.run_of_exec_any (fun last => last.opened == [7, 5, 8])
      (show ((handoverMachine 2 true).exec (.new 2) reusedNumber).any _ = true by decide +kernel)
  have smooth : ∀ entry ∈ trace, Smooth true entry.1 := by
    intro entry inTrace
    have inEvents : entry.1 ∈ reusedNumber := events ▸ List.mem_map_of_mem inTrace
    revert inEvents
    generalize entry.1 = event
    simp only [reusedNumber, List.mem_cons, List.not_mem_nil, or_false]
    rintro (rfl | rfl | rfl | rfl | rfl | rfl | rfl) <;> simp [Smooth]
  have opened := beq_iff_eq.mp facts
  obtain ⟨places, order, -⟩ := handover_exactly_once (show (1 : Int) ≤ 2 by decide) ran smooth
  exact ⟨trace, last, ran, events, opened, (places 5 (by rw [opened]; decide)).2, order 1⟩

/-- In the state behind a run every open descriptor waits in a pipe or has a live context exactly
when no write was refused and no handshake failed. When the pipes are empty, that is: every open
descriptor has a live context, registered with the event base of a worker. -/
theorem handover_leak_iff {iNum : Int} {enablessl : Bool}
    {trace : List (HandoverEvent × HandoverAnswer)} {last : EventBaseMgr}
    (ran : (handoverMachine iNum enablessl).Run (.new iNum) trace last) :
    (last.NoLeak ↔ ∀ entry ∈ trace, Smooth enablessl entry.1) ∧
    ((∀ worker, last.pipe worker = []) →
      ((∀ sockfd ∈ last.opened, ∃ pCtx worker, last.Registers pCtx sockfd ∧
        last.bases[pCtx]? = some worker) ↔
        ∀ entry ∈ trace, Smooth enablessl entry.1)) := by
  refine ⟨noLeak_iff ran, fun drained => ?_⟩
  rw [← noLeak_iff ran]
  constructor
  · intro registered sockfd isOpen
    obtain ⟨pCtx, worker, registers, -⟩ := registered sockfd isOpen
    exact .inr ⟨pCtx, registers⟩
  · intro noLeak sockfd isOpen
    rcases noLeak sockfd isOpen with ⟨worker, inPipe⟩ | ⟨pCtx, registers⟩
    · rw [drained] at inPipe
      cases inPipe
    · exact ⟨pCtx, _, registers, ((sound_of_run ran).registered registers).2⟩

/-- The equivalence for the descriptors above. -/
theorem handover_leak_iff_reused : ∃ trace last,
    (handoverMachine 2 true).Run (.new 2) trace last ∧ trace.map Prod.fst = reusedNumber ∧
      (last.NoLeak ↔ ∀ entry ∈ trace, Smooth true entry.1) := by
  obtain ⟨trace, last, ran, events, -⟩ := Machine.run_of_exec_any (fun _ => true)
    (show ((handoverMachine 2 true).exec (.new 2) reusedNumber).any _ = true by decide +kernel)
  exact ⟨trace, last, ran, events, (handover_leak_iff ran).1⟩

/-- A descriptor whose write is refused, and one whose handshake fails, stay open without an
owner. -/
theorem failed_handover_leaks :
    (∃ trace last, (handoverMachine 1 false).Run (.new 1) trace last ∧
      trace.map Prod.fst = [.accept 5 false] ∧ 5 ∈ last.opened ∧ ¬last.Placed 5) ∧
    (∃ trace last, (handoverMachine 1 true).Run (.new 1) trace last ∧
      trace.map Prod.fst = [.accept 5 true, .pipeRead 0 false] ∧ 5 ∈ last.opened ∧
      ¬last.Placed 5) := by
  have lost : ∀ {last : EventBaseMgr}, last.pipes = [[]] → last.server.ctxs = .empty →
      ¬last.Placed 5 := by
    rintro last pipes ctxs (⟨worker, inPipe⟩ | ⟨pCtx, ctx, alive, -⟩)
    · rw [pipe, pipes] at inPipe
      cases worker <;> simp at inPipe
    · rw [ctxs, Heap.get?_empty] at alive
      cases alive
  constructor
  · obtain ⟨trace, last, ran, events, facts⟩ := Machine.run_of_exec_any
      (fun last => last.opened == [5] && last.pipes == [[]] && last.server.ctxs == .empty)
      (show ((handoverMachine 1 false).exec (.new 1) [.accept 5 false]).any _ =
        true by decide +kernel)
    simp only [Bool.and_eq_true, beq_iff_eq] at facts
    exact ⟨trace, last, ran, events, by simp [facts.1.1], lost facts.1.2 facts.2⟩
  · obtain ⟨trace, last, ran, events, facts⟩ := Machine.run_of_exec_any
      (fun last => last.opened == [5] && last.pipes == [[]] && last.server.ctxs == .empty)
      (show ((handoverMachine 1 true).exec (.new 1) [.accept 5 true, .pipeRead 0 false]).any _ =
          true by
        decide +kernel)
    simp only [Bool.and_eq_true, beq_iff_eq] at facts
    exact ⟨trace, last, ran, events, by simp [facts.1.1], lost facts.1.2 facts.2⟩

end NetServer
