import NetServer.Request.Table

/-!
# Connections and the registry

A connection is an `EventCtx`, made when the connection is accepted and freed when the peer
closes it or an idle request is swept. The registry refers to contexts through the handlers of
unfinished requests. A run of the server is any sequence of accepts, callbacks, sweeps and
releases, one callback at a time; the kernel gives a new connection any descriptor that no live
context has. Closing a connection frees its context without looking at the registry, and
`registry_live_iff` says what that costs.
-/

namespace NetServer

open Lib

/-- The part of `EventCtx` that the request path reads. -/
structure EventCtx where
  sock : Int
  deriving DecidableEq, Repr

/-- The registry and the contexts of the connections. -/
structure Server where
  mgr : MgrRequest
  ctxs : Heap EventCtx

/-- What happens to the server. -/
inductive ServerEvent where
  /-- `OnPipeReadCallback` registers a connection that the kernel gave a descriptor. -/
  | accept (sockfd : Int)
  /-- `EventCallBack` runs for a context with the bytes it received, none when the peer closed
  the connection or the transport failed. -/
  | callback (pCtx : Nat) (received : Bytes) (now : Int) (memory : Bool)
  /-- A timer calls `OnCheckActiveTime`. -/
  | sweep (now : Int)
  /-- `ReleaseHandler` is called. -/
  | release (sockfd : Int)
  deriving DecidableEq, Repr

/-- `EventCtx_free`. -/
def freeCtx (ctxs : Heap EventCtx) (pCtx : Nat) : Except Fault (Heap EventCtx) :=
  if (ctxs.get? pCtx).isSome then .ok (ctxs.free pCtx) else .error .ctxFreed

/-- The string `EventCallBack` makes of its buffer of 4096 bytes, zeroed before the receive: the
bytes up to the first NUL. -/
def bufferText (received : Bytes) : Except Fault Bytes :=
  if received.length < 4096 ∨ 0 ∈ received then
    .ok (received.takeWhile (· ≠ 0)) else .error .readPast

/-- The buffer is the only source of this fault. -/
theorem bufferText_error {received : Bytes} {fault : Fault}
    (faulted : bufferText received = .error fault) : fault = .readPast := by
  unfold bufferText at faulted
  split at faulted <;> cases faulted
  rfl

namespace Server

/-- `CEventBaseMgr::EventCallBack` for a live context. -/
def eventCallBack (server : Server) (pCtx : Nat) (ctx : EventCtx) (received : Bytes) (now : Int)
    (memory : Bool) : Except Fault (Server × Option (HandReply × Bytes)) :=
  if received = [] then do
    let ctxs ← freeCtx server.ctxs pCtx
    return ({ server with ctxs }, none)
  else do
    let buffer ← bufferText received
    let (iret, reply, mgr) ←
      server.mgr.handleRequest pCtx ctx.sock buffer (bytes "ERROR") now memory
    return ({ server with mgr }, some (iret, reply))

/-- The effect of an event, with what `HandleRequest` answers. -/
def step (server : Server) : ServerEvent → Except Fault (Server × Option (HandReply × Bytes))
  | .accept sockfd => return ({ server with ctxs := server.ctxs.alloc ⟨sockfd⟩ }, none)
  | .callback pCtx received now memory =>
    match server.ctxs.get? pCtx with
    | some ctx => server.eventCallBack pCtx ctx received now memory
    | none => throw .ctxFreed
  | .sweep now => do
    let (freed, mgr) ← server.mgr.onCheckActiveTime now
    let ctxs ← freed.foldlM freeCtx server.ctxs
    return (⟨mgr, ctxs⟩, none)
  | .release sockfd => do
    let (_, freed, mgr) ← server.mgr.releaseHandler sockfd
    let ctxs ← freed.foldlM freeCtx server.ctxs
    return (⟨mgr, ctxs⟩, none)

/-- A descriptor is given out when it is valid and no live context has it; a callback runs only
while its context is live, since freeing a context deletes its event. -/
def enabled (server : Server) : ServerEvent → Bool
  | .accept sockfd => decide (0 ≤ sockfd) && server.ctxs.values.all fun ctx => ctx.sock != sockfd
  | .callback pCtx received _ _ =>
    (server.ctxs.get? pCtx).isSome && decide (received.length ≤ 4096)
  | .sweep _ | .release _ => true

end Server

/-- All runs of the server. -/
def serverMachine : Machine Server ServerEvent (Option (HandReply × Bytes)) Fault where
  init := ⟨.empty, .empty⟩
  enabled := Server.enabled
  step := Server.step

/-! ## Freeing contexts -/

/-- Freeing contexts one after another succeeds when all are live and none comes twice, and then
takes just these. -/
theorem freeAll_ok {ctxs : Heap EventCtx} (freed : List Nat)
    (live : ∀ pCtx ∈ freed, (ctxs.get? pCtx).isSome = true) (distinct : freed.Nodup) :
    ∃ left, freed.foldlM freeCtx ctxs = .ok left := by
  induction freed generalizing ctxs with
  | nil => exact ⟨ctxs, rfl⟩
  | cons pCtx rest ih =>
    have here := live pCtx List.mem_cons_self
    rw [List.foldlM_cons, freeCtx, if_pos here]
    refine ih (fun other inRest => ?_) (List.nodup_cons.mp distinct).2
    have ne : other ≠ pCtx := by
      intro same
      exact (List.nodup_cons.mp distinct).1 (same ▸ inRest)
    rw [Heap.get?_free, if_neg ne]
    exact live other (List.mem_cons_of_mem _ inRest)

/-- The contexts that are left when some have been freed. -/
theorem get?_freeAll {ctxs left : Heap EventCtx} {freed : List Nat}
    (done : freed.foldlM freeCtx ctxs = .ok left) (pCtx : Nat) :
    left.get? pCtx = (if pCtx ∈ freed then none else ctxs.get? pCtx) ∧ left.next = ctxs.next := by
  induction freed generalizing ctxs with
  | nil =>
    cases done
    simp
  | cons first rest ih =>
    rw [List.foldlM_cons] at done
    obtain ⟨after, freedFirst, freedRest⟩ := bind_eq_ok.mp done
    have isFree : after = ctxs.free first := by
      unfold freeCtx at freedFirst
      split at freedFirst
      · cases freedFirst
        rfl
      · cases freedFirst
    obtain ⟨rest', next⟩ := ih freedRest
    subst isFree
    refine ⟨?_, by simpa using next⟩
    rw [rest', Heap.get?_free]
    by_cases same : pCtx = first
    · simp [same]
    · simp [same]

/-! ## What a step does to the table and the contexts -/

namespace Server

/-- Ownership of handlers is exclusive, handlers refer to contexts that were made, and no two
live contexts share a descriptor. -/
structure Sound (server : Server) : Prop where
  owned : server.mgr.Owned
  made : ∀ {sockfd obj}, server.mgr.table sockfd = some obj → obj.arg < server.ctxs.next
  distinct : ∀ {pCtx pCtx' ctx ctx'}, server.ctxs.get? pCtx = some ctx →
    server.ctxs.get? pCtx' = some ctx' → ctx.sock = ctx'.sock → pCtx = pCtx'

/-- Some entries go, each with its handler and its context, and the others stay. -/
structure Evicts (server next : Server) (gone : Int → ReqHandlerObj → Prop) : Prop where
  owned : next.mgr.Owned
  table : ∀ {sockfd obj}, next.mgr.table sockfd = some obj ↔
    server.mgr.table sockfd = some obj ∧ ¬gone sockfd obj
  ctxs : ∀ {pCtx ctx}, next.ctxs.get? pCtx = some ctx ↔ server.ctxs.get? pCtx = some ctx ∧
    ¬∃ sockfd obj, server.mgr.table sockfd = some obj ∧ gone sockfd obj ∧ obj.arg = pCtx
  made : next.ctxs.next = server.ctxs.next

/-- All that a step can do. -/
inductive Effect (server : Server) : ServerEvent → Option (HandReply × Bytes) → Server → Prop
  | accept {sockfd : Int} (valid : 0 ≤ sockfd)
    (unused : ∀ {pCtx ctx}, server.ctxs.get? pCtx = some ctx → ctx.sock ≠ sockfd) :
    Effect server (.accept sockfd) none { server with ctxs := server.ctxs.alloc ⟨sockfd⟩ }
  | close {pCtx : Nat} {ctx : EventCtx} {now : Int} {memory : Bool}
    (live : server.ctxs.get? pCtx = some ctx) :
    Effect server (.callback pCtx [] now memory) none { server with ctxs := server.ctxs.free pCtx }
  | data {pCtx : Nat} {ctx : EventCtx} {received request reply : Bytes} {now : Int} {memory : Bool}
    {iret : HandReply} {mgr : MgrRequest} (live : server.ctxs.get? pCtx = some ctx)
    (nonempty : received ≠ []) (text : bufferText received = .ok request)
    (handled : Table.handle server.mgr.table pCtx ctx.sock request (bytes "ERROR") now memory =
      .ok (iret, reply, mgr.table)) (owned : mgr.Owned) :
    Effect server (.callback pCtx received now memory) (some (iret, reply)) { server with mgr }
  | sweep {now : Int} {next : Server}
    (evicts : server.Evicts next fun _ obj => MgrRequest.idle now obj = true) :
    Effect server (.sweep now) none next
  | release {sockfd : Int} {next : Server} (evicts : server.Evicts next fun fd _ => fd = sockfd) :
    Effect server (.release sockfd) none next

/-- The contexts a sweep frees are those of the idle entries. -/
theorem mem_idleContexts {mgr : MgrRequest} {now : Int} {pCtx : Nat} :
    pCtx ∈ Workers.idleContexts mgr now ↔
      ∃ sockfd obj, mgr.table sockfd = some obj ∧ MgrRequest.idle now obj = true ∧
      obj.arg = pCtx := by
  simp only [Workers.idleContexts, List.mem_filterMap, Option.map_eq_some_iff,
    Option.filter_eq_some_iff, Prod.exists, Std.ExtTreeMap.mem_toList_iff_getElem?_eq_some]
  constructor
  · intro listed
    obtain ⟨sockfd, pObj, -, obj, ⟨resolved, idle⟩, arg⟩ := listed
    exact ⟨sockfd, obj, resolved, idle, arg⟩
  · intro found
    obtain ⟨sockfd, obj, resolved, idle, arg⟩ := found
    obtain ⟨pObj, present, -⟩ := Option.bind_eq_some_iff.mp resolved
    exact ⟨sockfd, pObj, present, obj, ⟨resolved, idle⟩, arg⟩

/-- Every step has one of these effects. -/
theorem Sound.effect {server next : Server} {event : ServerEvent}
    {answer : Option (HandReply × Bytes)} (sound : server.Sound)
    (taken : serverMachine.Steps server event answer next) : server.Effect event answer next := by
  obtain ⟨possible, stepped⟩ := taken
  cases event with
  | accept sockfd =>
    have guard : (decide (0 ≤ sockfd) && server.ctxs.values.all fun ctx => ctx.sock != sockfd) =
        true :=
      possible
    simp only [Bool.and_eq_true, decide_eq_true_eq, List.all_eq_true, bne_iff_ne] at guard
    cases stepped
    exact .accept guard.1 fun live => guard.2 _ (Heap.mem_values.mpr ⟨_, live⟩)
  | callback pCtx received now memory =>
    have guard : ((server.ctxs.get? pCtx).isSome && decide (received.length ≤ 4096)) = true :=
      possible
    obtain ⟨ctx, live⟩ := Option.isSome_iff_exists.mp (Bool.and_eq_true_iff.mp guard).1
    simp only [serverMachine, step, live, eventCallBack] at stepped
    by_cases closed : received = []
    · subst closed
      simp only [↓reduceIte, freeCtx, live, Option.isSome_some] at stepped
      cases stepped
      exact .close live
    · rw [if_neg closed] at stepped
      obtain ⟨request, text, rest⟩ := bind_eq_ok.mp stepped
      obtain ⟨⟨iret, reply, mgr⟩, handled, done⟩ := bind_eq_ok.mp rest
      have refined :=
        MgrRequest.handleRequest_table sound.owned pCtx ctx.sock request (bytes "ERROR")
          now memory
      rw [handled] at refined
      cases done
      exact .data live closed text refined.symm (sound.owned.handleRequest handled)
  | sweep now =>
    obtain ⟨mgr, swept, owned, table⟩ := sound.owned.onCheckActiveTime now
    simp only [serverMachine, step, swept] at stepped
    obtain ⟨swept', isSwept, rest⟩ := bind_eq_ok.mp stepped
    cases isSwept
    obtain ⟨ctxs, freed, done⟩ := bind_eq_ok.mp rest
    cases done
    refine .sweep ⟨owned, ?_, ?_, (get?_freeAll freed 0).2⟩
    · intro sockfd obj
      simp [table, Option.filter_eq_some_iff]
    · intro pCtx ctx
      rw [(get?_freeAll freed pCtx).1, ← mem_idleContexts]
      by_cases listed : pCtx ∈ Workers.idleContexts server.mgr now
      · simp [listed]
      · simp [listed]
  | release sockfd =>
    obtain ⟨found, mgr, released, owned, table⟩ := sound.owned.releaseHandler sockfd
    simp only [serverMachine, step, released] at stepped
    obtain ⟨released', isReleased, rest⟩ := bind_eq_ok.mp stepped
    cases isReleased
    obtain ⟨ctxs, freed, done⟩ := bind_eq_ok.mp rest
    cases done
    refine .release ⟨owned, ?_, ?_, (get?_freeAll freed 0).2⟩
    · intro fd obj
      rw [table]
      by_cases same : fd = sockfd
      · simp [same]
      · simp [same]
    · intro pCtx ctx
      rw [(get?_freeAll freed pCtx).1]
      simp only [Option.mem_toList, Option.map_eq_some_iff]
      by_cases listed : ∃ obj, server.mgr.table sockfd = some obj ∧ obj.arg = pCtx
      · simp [listed]
      · simp [listed]

/-! ## Invariants -/

/-- Nothing is wrong before the first connection. -/
theorem sound_init : Sound ⟨.empty, .empty⟩ where
  owned := Workers.owned_init
  made := by
    intro sockfd obj resolved
    simp [MgrRequest.table, MgrRequest.empty] at resolved
  distinct := by
    intro pCtx pCtx' ctx ctx' live
    simp at live

section

variable {server next : Server} {event : ServerEvent} {answer : Option (HandReply × Bytes)}

/-- Entries that go leave a sound server. -/
theorem Evicts.sound {gone : Int → ReqHandlerObj → Prop} (evicts : server.Evicts next gone)
    (sound : server.Sound) : next.Sound where
  owned := evicts.owned
  made := by
    intro sockfd obj resolved
    rw [evicts.made]
    exact sound.made (evicts.table.mp resolved).1
  distinct := by
    intro pCtx pCtx' ctx ctx' live live' same
    exact sound.distinct (evicts.ctxs.mp live).1 (evicts.ctxs.mp live').1 same

/-- The entries behind a chunk of data refer to contexts that were made. -/
theorem Sound.made_handle {pCtx : Nat} {ctx : EventCtx} {request reply reply' : Bytes} {now : Int}
    {memory : Bool} {iret : HandReply} {entry : Option ReqHandlerObj} (sound : server.Sound)
    (live : server.ctxs.get? pCtx = some ctx)
    (handled : handleEntry (server.mgr.table ctx.sock) pCtx request reply now memory =
      .ok (iret, reply', entry)) {sockfd : Int} {obj : ReqHandlerObj}
    (resolved : Function.update server.mgr.table ctx.sock entry sockfd = some obj) :
    obj.arg < server.ctxs.next := by
  by_cases same : sockfd = ctx.sock
  · rw [same, Function.update_self] at resolved
    subst resolved
    rw [handleEntry_arg handled]
    cases before : server.mgr.table ctx.sock with
    | none => exact Heap.lt_next_of_get? live
    | some old => exact sound.made before
  · rw [Function.update_of_ne same] at resolved
    exact sound.made resolved

/-- Every step keeps ownership exclusive and the descriptors of live contexts distinct. -/
theorem Sound.step (sound : server.Sound) (taken : serverMachine.Steps server event answer next) :
    next.Sound := by
  cases sound.effect taken with
  | accept valid unused =>
    refine ⟨sound.owned, fun resolved => ?_, fun {pCtx pCtx' ctx ctx'} live live' same => ?_⟩
    · have older := sound.made resolved
      simp only [Heap.next_alloc]
      omega
    rw [Heap.get?_alloc] at live live'
    by_cases new : pCtx = server.ctxs.next
    · by_cases new' : pCtx' = server.ctxs.next
      · rw [new, new']
      · rw [if_pos new] at live
        rw [if_neg new'] at live'
        cases live
        exact absurd same.symm (unused live')
    · by_cases new' : pCtx' = server.ctxs.next
      · rw [if_neg new] at live
        rw [if_pos new'] at live'
        cases live'
        exact absurd same (unused live)
      · rw [if_neg new] at live
        rw [if_neg new'] at live'
        exact sound.distinct live live' same
  | close live =>
    refine ⟨sound.owned, fun resolved => by simpa using sound.made resolved,
      fun {pCtx pCtx' ctx ctx'} live live' same => ?_⟩
    rw [Heap.get?_free] at live live'
    split at live
    · cases live
    · split at live'
      · cases live'
      · exact sound.distinct live live' same
  | data live nonempty text handled owned =>
    refine ⟨owned, fun {sockfd obj} resolved => ?_, sound.distinct⟩
    obtain ⟨entry, handledEntry, updated⟩ := Table.handle_ok handled
    exact sound.made_handle live handledEntry (updated ▸ resolved)
  | sweep evicts => exact evicts.sound sound
  | release evicts => exact evicts.sound sound

/-- Only an accept makes a context; every other step keeps the contexts that it does not free. -/
theorem Sound.ctxs_step (sound : server.Sound)
    (taken : serverMachine.Steps server event answer next)
    (served : ∀ sockfd, event ≠ .accept sockfd) :
    next.ctxs.next = server.ctxs.next ∧
      ∀ {pCtx ctx}, next.ctxs.get? pCtx = some ctx → server.ctxs.get? pCtx = some ctx := by
  cases sound.effect taken with
  | accept valid unused => exact absurd rfl (served _)
  | close live =>
    refine ⟨Heap.next_free, fun {pCtx ctx} after => ?_⟩
    rw [Heap.get?_free] at after
    split at after
    · cases after
    · exact after
  | data live nonempty text handled owned => exact ⟨rfl, id⟩
  | sweep evicts => exact ⟨evicts.made, fun after => (evicts.ctxs.mp after).1⟩
  | release evicts => exact ⟨evicts.made, fun after => (evicts.ctxs.mp after).1⟩

/-- Ownership stays exclusive and descriptors distinct behind every run. -/
theorem sound_of_run {trace : List (ServerEvent × Option (HandReply × Bytes))}
    (ran : serverMachine.Run serverMachine.init trace server) : server.Sound :=
  ran.preserved Sound.step sound_init

/-- Every entry of the registry refers to a live context with the descriptor of the entry. -/
def RegistryLive (server : Server) : Prop :=
  ∀ sockfd pObj, server.mgr.reqHandlerMap[sockfd]? = some pObj →
    ∃ obj ctx, server.mgr.objects.get? pObj = some obj ∧ server.ctxs.get? obj.arg = some ctx ∧
      ctx.sock = sockfd

/-- The same of the table. -/
def TableLive (server : Server) : Prop :=
  ∀ {sockfd obj}, server.mgr.table sockfd = some obj →
    ∃ ctx, server.ctxs.get? obj.arg = some ctx ∧ ctx.sock = sockfd

/-- The registry and the table agree on that. -/
theorem Sound.registryLive_iff (sound : server.Sound) : server.RegistryLive ↔ server.TableLive := by
  constructor
  · intro live sockfd obj resolved
    obtain ⟨pObj, present, alive⟩ := Option.bind_eq_some_iff.mp resolved
    obtain ⟨obj', ctx, alive', open', sock⟩ := live sockfd pObj present
    rw [alive] at alive'
    cases alive'
    exact ⟨ctx, open', sock⟩
  · intro live sockfd pObj present
    obtain ⟨obj, alive, resolved⟩ := sound.owned.table_present present
    obtain ⟨ctx, open', sock⟩ := live resolved
    exact ⟨obj, ctx, alive, open', sock⟩

/-- The event, if it closes a connection, finds no entry for the connection's descriptor. -/
def ClosesClean (server : Server) (event : ServerEvent) : Prop :=
  ∀ pCtx ctx now memory, event = .callback pCtx [] now memory →
    server.ctxs.get? pCtx = some ctx → server.mgr.reqHandlerMap[ctx.sock]? = none

/-- Entries that go take no context of an entry that stays. -/
theorem Evicts.tableLive {gone : Int → ReqHandlerObj → Prop} (evicts : server.Evicts next gone)
    (live : server.TableLive) : next.TableLive := by
  intro sockfd obj resolved
  obtain ⟨before, stays⟩ := evicts.table.mp resolved
  obtain ⟨ctx, open', sock⟩ := live before
  refine ⟨ctx, evicts.ctxs.mpr ⟨open', fun freed => ?_⟩, sock⟩
  obtain ⟨fd, obj', other, goes, shared⟩ := freed
  obtain ⟨ctx', openOther, sock'⟩ := live other
  rw [shared, open'] at openOther
  cases openOther
  subst sock sock'
  rw [before] at other
  cases other
  exact stays goes

/-- Every step but an unclean close keeps the registry live. -/
theorem Sound.tableLive_step (sound : server.Sound) (live : server.TableLive)
    (clean : server.ClosesClean event) (taken : serverMachine.Steps server event answer next) :
    next.TableLive := by
  cases sound.effect taken with
  | accept valid unused =>
    intro sockfd obj resolved
    obtain ⟨ctx, open', sock⟩ := live resolved
    have older : obj.arg ≠ server.ctxs.next := Nat.ne_of_lt (Heap.lt_next_of_get? open')
    exact ⟨ctx, by rw [Heap.get?_alloc, if_neg older, open'], sock⟩
  | @close pCtx ctx now memory closing =>
    intro sockfd obj resolved
    obtain ⟨ctx', open', sock⟩ := live resolved
    have other : obj.arg ≠ pCtx := by
      intro same
      rw [same, closing] at open'
      cases open'
      have absent := clean pCtx ctx now memory rfl closing
      rw [sock] at absent
      simp [MgrRequest.table, absent] at resolved
    exact ⟨ctx', by rw [Heap.get?_free, if_neg other, open'], sock⟩
  | @data pCtx ctx received request reply now memory iret mgr receiving nonempty text
      handled owned =>
    intro sockfd obj resolved
    obtain ⟨entry', handledEntry, updated⟩ := Table.handle_ok handled
    rw [updated] at resolved
    by_cases same : sockfd = ctx.sock
    · subst same
      rw [Function.update_self] at resolved
      subst resolved
      have arg := handleEntry_arg handledEntry
      cases entry : server.mgr.table ctx.sock with
      | none =>
        rw [entry] at arg
        exact ⟨ctx, by rw [arg]; exact receiving, rfl⟩
      | some old =>
        rw [entry] at arg
        obtain ⟨ctx', open', sock⟩ := live entry
        exact ⟨ctx', by rw [arg]; exact open', sock⟩
    · rw [Function.update_of_ne same] at resolved
      exact live resolved
  | sweep evicts => exact evicts.tableLive live
  | release evicts => exact evicts.tableLive live

/-- A close that keeps the registry live found no entry. -/
theorem Sound.closesClean (sound : server.Sound) (live : server.TableLive)
    (taken : serverMachine.Steps server event answer next) (after : next.TableLive) :
    server.ClosesClean event := by
  intro pCtx ctx now memory isClose open'
  subst isClose
  cases entry : server.mgr.reqHandlerMap[ctx.sock]? with
  | none => rfl
  | some pObj =>
    obtain ⟨obj, -, resolved⟩ := sound.owned.table_present entry
    obtain ⟨ctx', openEntry, sock⟩ := live resolved
    have isClosed : obj.arg = pCtx := sound.distinct openEntry open' sock
    cases sound.effect taken with
    | close closing =>
      obtain ⟨ctx'', openAfter, -⟩ := after resolved
      rw [Heap.get?_free, if_pos isClosed] at openAfter
      cases openAfter
    | data receiving nonempty => exact absurd rfl nonempty

/-- The contexts of the idle entries are live and distinct. -/
theorem TableLive.nodup_idleContexts (live : server.TableLive) (now : Int) :
    (Workers.idleContexts server.mgr now).Nodup := by
  have distinct : server.mgr.reqHandlerMap.toList.Pairwise fun entry other => entry.1 ≠ other.1 :=
    Std.ExtTreeMap.distinct_keys_toList.imp fun apart => by simpa using apart
  apply List.pairwise_filterMap.mpr
  refine distinct.imp fun {entry other} apart pCtx isFirst pCtx' isSecond shared => apart ?_
  obtain ⟨obj, found, arg⟩ := Option.map_eq_some_iff.mp isFirst
  obtain ⟨obj', found', arg'⟩ := Option.map_eq_some_iff.mp isSecond
  obtain ⟨ctx, open', sock⟩ := live (Option.filter_eq_some_iff.mp found).1
  obtain ⟨ctx', open'', sock'⟩ := live (Option.filter_eq_some_iff.mp found').1
  rw [arg, shared, ← arg', open''] at open'
  cases open'
  rw [← sock, ← sock']

/-- With a live registry no event frees a context twice. -/
theorem Sound.noDoubleFree (sound : server.Sound) (live : server.TableLive)
    (possible : serverMachine.enabled server event = true) :
    serverMachine.step server event ≠ .error .ctxFreed := by
  intro faulted
  cases event with
  | accept sockfd => cases faulted
  | callback pCtx received now memory =>
    have guard : ((server.ctxs.get? pCtx).isSome && decide (received.length ≤ 4096)) = true :=
      possible
    obtain ⟨ctx, open'⟩ := Option.isSome_iff_exists.mp (Bool.and_eq_true_iff.mp guard).1
    simp only [serverMachine, Server.step, open', eventCallBack] at faulted
    by_cases closed : received = []
    · simp [closed, freeCtx, open', bind, Except.bind, pure, Except.pure] at faulted
    · rw [if_neg closed] at faulted
      cases text : bufferText received with
      | error fault =>
        have isReadPast := bufferText_error text
        subst isReadPast
        simp [text, bind, Except.bind] at faulted
      | ok request =>
        have refined :=
          MgrRequest.handleRequest_table sound.owned pCtx ctx.sock request (bytes "ERROR")
            now memory
        cases handled :
            server.mgr.handleRequest pCtx ctx.sock request (bytes "ERROR") now memory with
        | error fault =>
          rw [handled] at refined
          have isThrown := Table.handle_error refined.symm
          subst isThrown
          simp [text, handled, bind, Except.bind] at faulted
        | ok result => simp [text, handled, bind, Except.bind, pure, Except.pure] at faulted
  | sweep now =>
    obtain ⟨mgr, swept, -, -⟩ := sound.owned.onCheckActiveTime now
    have alive : ∀ pCtx ∈ Workers.idleContexts server.mgr now,
        (server.ctxs.get? pCtx).isSome = true := by
      intro pCtx listed
      obtain ⟨sockfd, obj, resolved, -, arg⟩ := mem_idleContexts.mp listed
      obtain ⟨ctx, open', -⟩ := live resolved
      rw [← arg, open']
      rfl
    obtain ⟨left, freed⟩ := freeAll_ok _ alive (live.nodup_idleContexts now)
    simp [serverMachine, Server.step, swept, freed, bind, Except.bind, pure, Except.pure] at faulted
  | release sockfd =>
    obtain ⟨found, mgr, released, -, -⟩ := sound.owned.releaseHandler sockfd
    have alive : ∀ pCtx ∈ ((server.mgr.table sockfd).map ReqHandlerObj.arg).toList,
        (server.ctxs.get? pCtx).isSome = true := by
      intro pCtx listed
      obtain ⟨obj, resolved, arg⟩ := Option.map_eq_some_iff.mp (Option.mem_toList.mp listed)
      obtain ⟨ctx, open', -⟩ := live resolved
      rw [← arg, open']
      rfl
    have single : ((server.mgr.table sockfd).map ReqHandlerObj.arg).toList.Nodup := by
      cases server.mgr.table sockfd <;> simp
    obtain ⟨left, freed⟩ := freeAll_ok _ alive single
    simp [serverMachine, Server.step, released, freed, bind, Except.bind, pure, Except.pure]
      at faulted

end

end Server

open Server

/-- Along a run, the registry stays live exactly if no connection is closed while the registry has
an entry for its descriptor. -/
theorem tableLive_always_iff {trace : List (ServerEvent × Option (HandReply × Bytes))}
    {server : Server} (ran : serverMachine.Run serverMachine.init trace server) :
    serverMachine.Always (fun state => state.TableLive) serverMachine.init trace ↔
      serverMachine.Throughout ClosesClean serverMachine.init trace := by
  refine ran.always_iff Sound.step ?_ sound_init ?_
  · intro state event answer next sound live taken
    exact ⟨sound.closesClean live taken, fun clean => sound.tableLive_step live clean taken⟩
  · intro sockfd obj resolved
    simp [serverMachine, MgrRequest.table, MgrRequest.empty] at resolved

/-- Along a run, every entry of the registry always refers to a live context with the entry's
descriptor, and no context is ever freed twice, exactly if no connection is closed while the
registry has an entry for its descriptor. -/
theorem registry_live_iff {trace : List (ServerEvent × Option (HandReply × Bytes))}
    {server : Server} (ran : serverMachine.Run serverMachine.init trace server) :
    serverMachine.Always (fun state => state.RegistryLive ∧
        ∀ event, serverMachine.enabled state event = true →
          serverMachine.step state event ≠ .error .ctxFreed) serverMachine.init trace ↔
      serverMachine.Throughout ClosesClean serverMachine.init trace := by
  rw [← tableLive_always_iff ran]
  constructor
  · intro always front shorter state reached
    exact (sound_of_run reached).registryLive_iff.mp (always front shorter state reached).1
  · intro always front shorter state reached
    have sound := sound_of_run reached
    have live : state.TableLive := always front shorter state reached
    exact ⟨sound.registryLive_iff.mpr live, fun event possible => sound.noDoubleFree live possible⟩

/-- A connection that sends a request in two parts and is closed when the request is done. -/
theorem registry_live_iff_finished : ∃ trace server,
    serverMachine.Run serverMachine.init trace server ∧
      trace.map Prod.fst = [.accept 5, .callback 0 (bytes "CONTENT_LENGHT: 5\r\nx\r\n") 100 true,
        .callback 0 (bytes "x\r\n") 101 true, .callback 0 [] 102 true] ∧
      (serverMachine.Always (fun state => state.RegistryLive ∧
          ∀ event, serverMachine.enabled state event = true →
            serverMachine.step state event ≠ .error .ctxFreed) serverMachine.init trace ↔
        serverMachine.Throughout ClosesClean serverMachine.init trace) := by
  have runs : (serverMachine.exec serverMachine.init
      [.accept 5, .callback 0 (bytes "CONTENT_LENGHT: 5\r\nx\r\n") 100 true,
        .callback 0 (bytes "x\r\n") 101 true, .callback 0 [] 102 true]).isSome = true := by
    decide +kernel
  obtain ⟨⟨server, trace⟩, executed⟩ := Option.isSome_iff_exists.mp runs
  obtain ⟨ran, events⟩ := Machine.run_of_exec executed
  exact ⟨trace, server, ran, events, registry_live_iff ran⟩

/-- A peer that closes its connection in the middle of a request leaves an entry behind whose
context is freed, and the sweep that finds the entry idle frees the context again. -/
theorem closed_connection_stays : ∃ trace server,
    serverMachine.Run serverMachine.init trace server ∧
      trace.map Prod.fst = [.accept 5, .callback 0 (bytes "CONTENT_LENGHT: 5\r\nx\r\n") 100 true,
        .callback 0 [] 101 true] ∧
      ¬server.RegistryLive ∧ serverMachine.step server (.sweep 115) = .error .ctxFreed := by
  have facts : (serverMachine.exec serverMachine.init
      [.accept 5, .callback 0 (bytes "CONTENT_LENGHT: 5\r\nx\r\n") 100 true,
        .callback 0 [] 101 true]).any (fun result =>
      result.1.mgr.reqHandlerMap[(5 : Int)]? == some 0 &&
      (result.1.mgr.objects.get? 0).map ReqHandlerObj.arg == some 0 &&
      result.1.ctxs.get? 0 == none &&
      match serverMachine.step result.1 (.sweep 115) with
      | .error .ctxFreed => true
      | _ => false) = true := by decide +kernel
  cases executed : serverMachine.exec serverMachine.init
      [.accept 5, .callback 0 (bytes "CONTENT_LENGHT: 5\r\nx\r\n") 100 true,
          .callback 0 [] 101 true] with
  | none => simp [executed] at facts
  | some result =>
    obtain ⟨server, trace⟩ := result
    obtain ⟨ran, events⟩ := Machine.run_of_exec executed
    simp only [executed, Option.any_some, Bool.and_eq_true, beq_iff_eq] at facts
    obtain ⟨⟨⟨entry, arg⟩, freed⟩, swept⟩ := facts
    refine ⟨trace, server, ran, events, fun live => ?_, ?_⟩
    · obtain ⟨obj, ctx, alive, open', -⟩ := live 5 0 entry
      rw [alive] at arg
      rw [Option.map_some, Option.some.injEq] at arg
      rw [arg, freed] at open'
      cases open'
    · split at swept
      · assumption
      · cases swept

end NetServer
