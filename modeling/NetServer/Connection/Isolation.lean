import NetServer.Connection.Server

/-!
# Isolation of connections

The answers on a connection are meant to depend on what its own peer sends. `connectionStep` is
a connection by itself: its own unfinished request, its own chunks, and the sweeps and releases
that can end it. A server whose registry had no entry for the descriptor when the connection
was accepted answers as the connection by itself does (`answersOn_eq`), whatever the other
connections do and did. An entry that an earlier connection left under the descriptor breaks
this: the new connection goes on with the earlier one's text.
-/

namespace NetServer

open Lib Server

/-- A trace of the server. -/
abbrev ServerTrace := List (ServerEvent × Option (HandReply × Bytes))

/-- The verdict and the reply an event gives on a connection. -/
def answerOn (pCtx : Nat) : ServerEvent × Option (HandReply × Bytes) → Option (HandReply × Bytes)
  | (.callback pCtx' _ _ _, answer) => if pCtx' = pCtx then answer else none
  | _ => none

/-- The verdicts and replies for the chunks received on a connection. -/
def answersOn (pCtx : Nat) (trace : ServerTrace) : List (HandReply × Bytes) :=
  trace.filterMap (answerOn pCtx)

/-- A connection by itself, with its unfinished request: what an event makes of it, nothing when
the connection ends, and what it answers. -/
def connectionStep (pCtx : Nat) (sockfd : Int) (entry : Option ReqHandlerObj) :
    ServerEvent → Option (Option ReqHandlerObj) × Option (HandReply × Bytes)
  | .accept _ => (some entry, none)
  | .callback pCtx' received now memory =>
    if pCtx' ≠ pCtx then (some entry, none)
    else if received = [] then (none, none)
    else
      match bufferText received with
      | .error _ => (none, none)
      | .ok request =>
        match handleEntry entry pCtx request (bytes "ERROR") now memory with
        | .error _ => (none, none)
        | .ok (iret, reply, entry) => (some entry, some (iret, reply))
  | .sweep now => (if entry.any (MgrRequest.idle now) then none else some entry, none)
  | .release fd => (if fd = sockfd ∧ entry.isSome then none else some entry, none)

/-- The answers of a connection by itself to a sequence of events. -/
def connectionAnswers (pCtx : Nat) (sockfd : Int) :
    Option (Option ReqHandlerObj) → List ServerEvent → List (HandReply × Bytes)
  | none, _ => []
  | some _, [] => []
  | some entry, event :: events =>
    (connectionStep pCtx sockfd entry event).2.toList ++
      connectionAnswers pCtx sockfd (connectionStep pCtx sockfd entry event).1 events

namespace Server

/-- The server serves a connection that has this unfinished request, and no other entry belongs
to the connection. -/
structure Serves (server : Server) (pCtx : Nat) (sockfd : Int) (entry : Option ReqHandlerObj) :
    Prop where
  live : server.ctxs.get? pCtx = some ⟨sockfd⟩
  resolved : server.mgr.table sockfd = entry
  own : ∀ {obj}, entry = some obj → obj.arg = pCtx
  only : ∀ {fd obj}, server.mgr.table fd = some obj → obj.arg = pCtx → fd = sockfd

/-- The connection has ended. -/
structure Ended (server : Server) (pCtx : Nat) : Prop where
  made : pCtx < server.ctxs.next
  dead : server.ctxs.get? pCtx = none

/-- The server shows a connection that is by itself in this state. -/
def Shows (server : Server) (pCtx : Nat) (sockfd : Int) : Option (Option ReqHandlerObj) → Prop
  | some entry => server.Serves pCtx sockfd entry
  | none => server.Ended pCtx

section

variable {server next : Server} {event : ServerEvent} {answer : Option (HandReply × Bytes)}
  {pCtx : Nat} {sockfd : Int} {entry : Option ReqHandlerObj}

/-- Entries that go bring no connection back. -/
theorem Evicts.ended {gone : Int → ReqHandlerObj → Prop} (evicts : server.Evicts next gone)
    (ended : server.Ended pCtx) : next.Ended pCtx where
  made := by
    rw [evicts.made]
    exact ended.made
  dead := by
    cases context : next.ctxs.get? pCtx with
    | none => rfl
    | some ctx =>
      have before := (evicts.ctxs.mp context).1
      rw [ended.dead] at before
      cases before

/-- A connection whose entry goes has ended. -/
theorem Evicts.ends {gone : Int → ReqHandlerObj → Prop} (evicts : server.Evicts next gone)
    (serves : server.Serves pCtx sockfd entry) {obj : ReqHandlerObj} (isEntry : entry = some obj)
    (goes : gone sockfd obj) : next.Ended pCtx where
  made := by
    rw [evicts.made]
    exact Heap.lt_next_of_get? serves.live
  dead := by
    cases context : next.ctxs.get? pCtx with
    | none => rfl
    | some ctx =>
      have resolved := serves.resolved.trans isEntry
      exact absurd ⟨sockfd, obj, resolved, goes, serves.own isEntry⟩ (evicts.ctxs.mp context).2

/-- A connection whose entry stays is served as before. -/
theorem Evicts.serves {gone : Int → ReqHandlerObj → Prop} (evicts : server.Evicts next gone)
    (serves : server.Serves pCtx sockfd entry)
    (stays : ∀ {obj}, entry = some obj → ¬gone sockfd obj) : next.Serves pCtx sockfd entry where
  live := by
    apply evicts.ctxs.mpr
    refine ⟨serves.live, fun freed => ?_⟩
    obtain ⟨fd, obj, resolved, goes, arg⟩ := freed
    have same := serves.only resolved arg
    rw [same] at resolved goes
    exact stays (serves.resolved.symm.trans resolved) goes
  resolved := by
    cases entry with
    | none =>
      cases after : next.mgr.table sockfd with
      | none => rfl
      | some obj =>
        have before := (evicts.table.mp after).1
        rw [serves.resolved] at before
        cases before
    | some obj => exact evicts.table.mpr ⟨serves.resolved, stays rfl⟩
  own := serves.own
  only := fun resolved arg => serves.only (evicts.table.mp resolved).1 arg

/-- A connection that has ended stays so and answers nothing. -/
theorem Ended.step (ended : server.Ended pCtx) (sound : server.Sound)
    (taken : serverMachine.Steps server event answer next) :
    next.Ended pCtx ∧ answerOn pCtx (event, answer) = none := by
  cases sound.effect taken with
  | accept valid unused =>
    refine ⟨⟨?_, ?_⟩, rfl⟩
    · simpa using Nat.lt_succ_of_lt ended.made
    · rw [Heap.get?_alloc, if_neg (Nat.ne_of_lt ended.made), ended.dead]
  | close live =>
    refine ⟨⟨by simpa using ended.made, ?_⟩, by simp [answerOn]⟩
    rw [Heap.get?_free, ended.dead, ite_self]
  | @data pCtx' ctx received request reply now memory iret mgr live nonempty text handled owned =>
    refine ⟨⟨ended.made, ended.dead⟩, ?_⟩
    have other : pCtx' ≠ pCtx := by
      intro same
      rw [same, ended.dead] at live
      cases live
    simp [answerOn, other]
  | sweep evicts => exact ⟨evicts.ended ended, rfl⟩
  | release evicts => exact ⟨evicts.ended ended, rfl⟩

/-- A chunk on the connection itself. -/
theorem Serves.receive (serves : server.Serves pCtx sockfd entry) {mgr : MgrRequest}
    {request reply reply' : Bytes} {now : Int} {memory : Bool} {iret : HandReply}
    {after : Option ReqHandlerObj}
    (handled : handleEntry entry pCtx request reply now memory = .ok (iret, reply', after))
    (updated : mgr.table = Function.update server.mgr.table sockfd after) :
    Serves { server with mgr } pCtx sockfd after where
  live := serves.live
  resolved := by
    simp only [updated]
    exact Function.update_self ..
  own := by
    intro obj isAfter
    subst isAfter
    rw [handleEntry_arg handled]
    cases entry with
    | none => rfl
    | some old => exact serves.own rfl
  only := by
    intro fd obj resolved arg
    by_cases same : fd = sockfd
    · exact same
    · have before : server.mgr.table fd = some obj := by
        rw [← resolved, updated, Function.update_of_ne same]
      exact serves.only before arg

/-- A chunk on another connection. -/
theorem Serves.ignore (serves : server.Serves pCtx sockfd entry) (sound : server.Sound)
    {other : Nat} {ctx : EventCtx} {mgr : MgrRequest} {request reply reply' : Bytes} {now : Int}
    {memory : Bool} {iret : HandReply} {after : Option ReqHandlerObj} (ne : other ≠ pCtx)
    (live : server.ctxs.get? other = some ctx)
    (handled : handleEntry (server.mgr.table ctx.sock) other request reply now memory =
      .ok (iret, reply', after))
    (updated : mgr.table = Function.update server.mgr.table ctx.sock after) :
    Serves { server with mgr } pCtx sockfd entry := by
  have apart : ctx.sock ≠ sockfd := fun same => ne (sound.distinct live serves.live same)
  refine ⟨serves.live, ?_, serves.own, ?_⟩
  · simp only [updated]
    rw [Function.update_of_ne (Ne.symm apart), serves.resolved]
  · intro fd obj resolved arg
    simp only [updated] at resolved
    by_cases same : fd = ctx.sock
    · subst same
      rw [Function.update_self] at resolved
      subst resolved
      have kept := handleEntry_arg handled
      cases before : server.mgr.table ctx.sock with
      | none =>
        rw [before, arg] at kept
        exact absurd kept.symm ne
      | some old =>
        rw [before, arg] at kept
        exact serves.only before kept.symm
    · rw [Function.update_of_ne same] at resolved
      exact serves.only resolved arg

/-- A step does to a connection what it does to the connection by itself. -/
theorem Serves.step (serves : server.Serves pCtx sockfd entry) (sound : server.Sound)
    (taken : serverMachine.Steps server event answer next) :
    next.Shows pCtx sockfd (connectionStep pCtx sockfd entry event).1 ∧
      answerOn pCtx (event, answer) = (connectionStep pCtx sockfd entry event).2 := by
  cases sound.effect taken with
  | accept valid unused =>
    have older : pCtx ≠ server.ctxs.next := Nat.ne_of_lt (Heap.lt_next_of_get? serves.live)
    refine ⟨⟨?_, serves.resolved, serves.own, serves.only⟩, rfl⟩
    simp only [Heap.get?_alloc, if_neg older, serves.live]
  | @close other ctx now memory live =>
    by_cases same : other = pCtx
    · subst same
      simp only [connectionStep, ne_eq, not_true_eq_false, ↓reduceIte, answerOn, and_true]
      refine ⟨?_, ?_⟩
      · simpa using Heap.lt_next_of_get? live
      · simp only [Heap.get?_free, ↓reduceIte]
    · simp only [connectionStep, ne_eq, same, not_false_eq_true, ↓reduceIte, answerOn, and_true]
      refine ⟨?_, serves.resolved, serves.own, serves.only⟩
      simp only [Heap.get?_free, if_neg (Ne.symm same), serves.live]
  | @data other ctx received request reply now memory iret mgr live nonempty text handled owned =>
    obtain ⟨after, handledEntry, updated⟩ := Table.handle_ok handled
    by_cases same : other = pCtx
    · subst same
      have isCtx := serves.live
      rw [live] at isCtx
      cases isCtx
      rw [serves.resolved] at handledEntry
      simp only [connectionStep, ne_eq, not_true_eq_false, nonempty, ↓reduceIte, text, handledEntry,
        answerOn, and_true]
      exact serves.receive handledEntry updated
    · simp only [connectionStep, ne_eq, same, not_false_eq_true, ↓reduceIte, answerOn, and_true]
      exact serves.ignore sound same live handledEntry updated
  | @sweep now next evicts =>
    refine ⟨?_, rfl⟩
    simp only [connectionStep]
    by_cases idle : entry.any (MgrRequest.idle now) = true
    · rw [if_pos idle]
      obtain ⟨obj, isEntry, isIdle⟩ : ∃ obj, entry = some obj ∧ MgrRequest.idle now obj = true := by
        cases entry with
        | none => cases idle
        | some obj => exact ⟨obj, rfl, idle⟩
      exact evicts.ends serves isEntry isIdle
    · rw [if_neg idle]
      refine evicts.serves serves fun {obj} isEntry isIdle => idle ?_
      rw [isEntry]
      exact isIdle
  | @release fd next evicts =>
    refine ⟨?_, rfl⟩
    simp only [connectionStep]
    by_cases released : fd = sockfd ∧ entry.isSome = true
    · rw [if_pos released]
      obtain ⟨obj, isEntry⟩ := Option.isSome_iff_exists.mp released.2
      exact evicts.ends serves isEntry released.1.symm
    · rw [if_neg released]
      refine evicts.serves serves fun {obj} isEntry same => released ⟨same.symm, ?_⟩
      rw [isEntry]
      rfl

/-- The answers on a connection are those of the connection by itself. -/
theorem answersOn_eq {view : Option (Option ReqHandlerObj)} {trace : ServerTrace}
    (ran : serverMachine.Run server trace next) (sound : server.Sound)
    (shows : server.Shows pCtx sockfd view) :
    answersOn pCtx trace = connectionAnswers pCtx sockfd view (trace.map Prod.fst) := by
  induction ran generalizing view with
  | nil => cases view <;> rfl
  | cons first rest ih =>
    cases view with
    | none =>
      obtain ⟨ended, silent⟩ := Ended.step shows sound first
      have shows' : Shows _ pCtx sockfd none := ended
      have behind := ih (sound.step first) shows'
      simp only [answersOn, List.filterMap_cons, silent, connectionAnswers] at behind ⊢
      exact behind
    | some entry =>
      obtain ⟨shows', answers⟩ := Serves.step shows sound first
      have behind := ih (sound.step first) shows'
      simp only [answersOn, List.filterMap_cons, answers, List.map_cons, connectionAnswers]
        at behind ⊢
      rw [← behind]
      cases (connectionStep pCtx sockfd entry _).2 <;> rfl

/-- A connection whose descriptor has no entry starts without an unfinished request. -/
theorem Sound.serves_accepted (sound : server.Sound)
    (fresh : server.mgr.reqHandlerMap[sockfd]? = none)
    (taken : serverMachine.Steps server (.accept sockfd) answer next) :
    next.Serves server.ctxs.next sockfd none := by
  cases sound.effect taken with
  | accept valid unused =>
    refine ⟨by simp only [Heap.get?_alloc, ↓reduceIte], ?_, ?_, ?_⟩
    · simp [MgrRequest.table, fresh]
    · intro obj isEntry
      cases isEntry
    · intro fd obj resolved arg
      have older := sound.made resolved
      omega

end

end Server

/-! ## Two runs -/

/-- Two events that are the same but for the bytes received on a hidden connection. -/
inductive SameBut (hidden : Nat → Prop) : ServerEvent → ServerEvent → Prop
  | same (event : ServerEvent) : SameBut hidden event event
  | bytes {pCtx : Nat} {received received' : Bytes} {now : Int} {memory : Bool}
    (isHidden : hidden pCtx) (chunk : received ≠ []) (chunk' : received' ≠ []) :
    SameBut hidden (.callback pCtx received now memory) (.callback pCtx received' now memory)

/-- Whether an event registers a connection. -/
def ServerEvent.isAccept : ServerEvent → Bool
  | .accept _ => true
  | _ => false

/-- The number of contexts made is the number of accepts. -/
theorem next_eq_accepts {server next : Server} {trace : ServerTrace}
    (ran : serverMachine.Run server trace next) (sound : server.Sound) :
    next.ctxs.next = server.ctxs.next + (trace.map Prod.fst).countP ServerEvent.isAccept := by
  induction ran with
  | nil => simp
  | cons first rest ih =>
    rw [ih (sound.step first), List.map_cons, List.countP_cons]
    cases sound.effect first with
    | accept valid unused =>
      simp only [Heap.next_alloc, ServerEvent.isAccept, ↓reduceIte]
      omega
    | close live => simp [ServerEvent.isAccept]
    | data live nonempty text handled owned => simp [ServerEvent.isAccept]
    | sweep evicts => simp [ServerEvent.isAccept, evicts.made]
    | release evicts => simp [ServerEvent.isAccept, evicts.made]

/-- Events that differ in received bytes only have the same accepts. -/
theorem accepts_eq {hidden : Nat → Prop} {events events' : List ServerEvent}
    (alike : List.Forall₂ (SameBut hidden) events events') :
    events.countP ServerEvent.isAccept = events'.countP ServerEvent.isAccept := by
  induction alike with
  | nil => rfl
  | cons first rest ih =>
    rw [List.countP_cons, List.countP_cons, ih]
    cases first <;> rfl

/-- Two runs up to and behind the accept of a connection that differ only in the bytes received on
connections that had ended before. -/
structure TwoRuns (sockfd : Int) (server server' : Server) (behind behind' : ServerTrace) :
    Prop where
  before : ∃ before before', serverMachine.Run serverMachine.init before server ∧
    serverMachine.Run serverMachine.init before' server' ∧
    List.Forall₂ (SameBut fun pCtx => server.ctxs.get? pCtx = none ∧ server'.ctxs.get? pCtx = none)
      (before.map Prod.fst) (before'.map Prod.fst)
  goesOn : ∃ last, serverMachine.Run server ((.accept sockfd, none) :: behind) last
  goesOn' : ∃ last, serverMachine.Run server' ((.accept sockfd, none) :: behind') last
  same : behind.map Prod.fst = behind'.map Prod.fst

/-- Two runs that differ only in the bytes received on connections that had ended when a
connection was accepted give the same verdicts and replies on it, provided that neither registry
had an entry for its descriptor at that point. -/
theorem connections_isolated {sockfd : Int} {server server' : Server} {behind behind' : ServerTrace}
    (runs : TwoRuns sockfd server server' behind behind')
    (fresh : server.mgr.reqHandlerMap[sockfd]? = none)
    (fresh' : server'.mgr.reqHandlerMap[sockfd]? = none) :
    answersOn server.ctxs.next behind = answersOn server'.ctxs.next behind' := by
  obtain ⟨before, before', ran, ran', alike⟩ := runs.before
  obtain ⟨last, goesOn⟩ := runs.goesOn
  obtain ⟨last', goesOn'⟩ := runs.goesOn'
  have sound := sound_of_run ran
  have sound' := sound_of_run ran'
  have sameCtx : server.ctxs.next = server'.ctxs.next := by
    rw [next_eq_accepts ran sound_init, next_eq_accepts ran' sound_init, accepts_eq alike]
  cases goesOn with
  | cons first rest =>
    cases goesOn' with
    | cons first' rest' =>
      have shows : Shows _ server.ctxs.next sockfd (some none) := sound.serves_accepted fresh first
      have shows' : Shows _ server'.ctxs.next sockfd (some none) :=
        sound'.serves_accepted fresh' first'
      rw [answersOn_eq rest (sound.step first) shows,
        answersOn_eq rest' (sound'.step first') shows', runs.same, sameCtx]

/-- A registry that was live all along has no entry for a descriptor that is given out. -/
theorem fresh_of_clean {trace : ServerTrace} {server : Server} {sockfd : Int}
    (ran : serverMachine.Run serverMachine.init trace server)
    (clean : serverMachine.Throughout ClosesClean serverMachine.init trace)
    (possible : serverMachine.enabled server (.accept sockfd) = true) :
    server.mgr.reqHandlerMap[sockfd]? = none := by
  have sound := sound_of_run ran
  have live : server.TableLive :=
    (tableLive_always_iff ran).mpr clean trace (List.prefix_refl trace) server ran
  have taken : serverMachine.Steps server (.accept sockfd) none
      { server with ctxs := server.ctxs.alloc ⟨sockfd⟩ } := ⟨possible, rfl⟩
  cases entry : server.mgr.reqHandlerMap[sockfd]? with
  | none => rfl
  | some pObj =>
    obtain ⟨obj, -, resolved⟩ := sound.owned.table_present entry
    obtain ⟨ctx, open', sock⟩ := live resolved
    cases sound.effect taken with
    | accept valid unused => exact absurd sock (unused open')

/-! ## Two runs on one descriptor -/

/-- A connection with descriptor 5 that sends a chunk and is closed. -/
def visit (chunk : Bytes) : List ServerEvent :=
  [.accept 5, .callback 0 chunk 100 true, .callback 0 [] 101 true]

/-- The state behind a visit, and the trace of the next connection on the descriptor, which sends
a chunk. -/
def revisit (chunk next : Bytes) : Option (Server × ServerTrace) := do
  let (server, _) ← serverMachine.exec serverMachine.init (visit chunk)
  let (_, trace) ← serverMachine.exec server [.accept 5, .callback 1 next 102 true]
  return (server, trace.tail)

/-- A visit and what follows it are a run. -/
theorem runs_of_revisit {chunk next : Bytes} {server : Server} {behind : ServerTrace}
    (visited : revisit chunk next = some (server, behind)) :
    (∃ before, serverMachine.Run serverMachine.init before server ∧
      before.map Prod.fst = visit chunk) ∧
    (∃ last, serverMachine.Run server ((.accept 5, none) :: behind) last) ∧
    behind.map Prod.fst = [.callback 1 next 102 true] := by
  obtain ⟨⟨server', before⟩, executed, rest⟩ := Option.bind_eq_some_iff.mp visited
  obtain ⟨⟨last, trace⟩, executed', done⟩ := Option.bind_eq_some_iff.mp rest
  cases done
  obtain ⟨ran', events'⟩ := Machine.run_of_exec executed'
  refine ⟨⟨before, Machine.run_of_exec executed⟩, ?_⟩
  cases ran' with
  | nil => cases events'
  | cons first behind =>
    simp only [List.map_cons, List.cons.injEq] at events'
    obtain ⟨rfl, events'⟩ := events'
    have silent := first.2
    cases silent
    exact ⟨⟨last, .cons first behind⟩, events'⟩

/-- Two visits that differ in the chunk are two runs in the above sense. -/
theorem twoRuns_of_revisit {chunk chunk' next : Bytes} {server server' : Server}
    {behind behind' : ServerTrace} (nonempty : chunk ≠ []) (nonempty' : chunk' ≠ [])
    (visited : revisit chunk next = some (server, behind))
    (visited' : revisit chunk' next = some (server', behind'))
    (ended : server.ctxs.get? 0 = none) (ended' : server'.ctxs.get? 0 = none) :
    TwoRuns 5 server server' behind behind' := by
  obtain ⟨⟨before, ran, events⟩, goesOn, post⟩ := runs_of_revisit visited
  obtain ⟨⟨before', ran', events'⟩, goesOn', post'⟩ := runs_of_revisit visited'
  refine ⟨⟨before, before', ran, ran', ?_⟩, goesOn, goesOn', post.trans post'.symm⟩
  rw [events, events']
  exact .cons (.same _) (.cons (.bytes ⟨ended, ended'⟩ nonempty nonempty') (.cons (.same _) .nil))

/-- Two visits that leave nothing behind. -/
theorem connections_isolated_finished : ∃ server server' behind behind',
    TwoRuns 5 server server' behind behind' ∧
      answersOn server.ctxs.next behind = answersOn server'.ctxs.next behind' := by
  have facts : (revisit (bytes "x\r\n") (bytes "z")).any (fun result =>
      result.1.ctxs.get? 0 == none && result.1.mgr.reqHandlerMap[(5 : Int)]? == none) = true := by
    decide +kernel
  have facts' : (revisit (bytes "y\r\n") (bytes "z")).any (fun result =>
      result.1.ctxs.get? 0 == none && result.1.mgr.reqHandlerMap[(5 : Int)]? == none) = true := by
    decide +kernel
  cases visited : revisit (bytes "x\r\n") (bytes "z") with
  | none => simp [visited] at facts
  | some result =>
    cases visited' : revisit (bytes "y\r\n") (bytes "z") with
    | none => simp [visited'] at facts'
    | some result' =>
      simp only [visited, Option.any_some, Bool.and_eq_true, beq_iff_eq] at facts
      simp only [visited', Option.any_some, Bool.and_eq_true, beq_iff_eq] at facts'
      have runs := twoRuns_of_revisit (by decide) (by decide) visited visited' facts.1 facts'.1
      exact ⟨_, _, _, _, runs, connections_isolated runs facts.2 facts'.2⟩

/-- Two visits that send different parts of a request, and the answer to the next connection on
the descriptor: an error behind the one, success behind the other. -/
theorem leftover_changes_answer : ∃ server server' behind behind',
    TwoRuns 5 server server' behind behind' ∧
      answersOn server.ctxs.next behind ≠ answersOn server'.ctxs.next behind' := by
  have facts : (revisit (bytes "CONTENT_LENGHT: 5\r\nbad\r\nxx") (bytes "y")).any (fun result =>
      result.1.ctxs.get? 0 == none &&
      (answersOn result.1.ctxs.next result.2).map Prod.fst == [.dataError]) = true := by
    decide +kernel
  have facts' : (revisit (bytes "CONTENT_LENGHT: 5\r\nbad\r\n") (bytes "y")).any (fun result =>
      result.1.ctxs.get? 0 == none &&
      (answersOn result.1.ctxs.next result.2).map Prod.fst == [.success]) = true := by
    decide +kernel
  cases visited : revisit (bytes "CONTENT_LENGHT: 5\r\nbad\r\nxx") (bytes "y") with
  | none => simp [visited] at facts
  | some result =>
    cases visited' : revisit (bytes "CONTENT_LENGHT: 5\r\nbad\r\n") (bytes "y") with
    | none => simp [visited'] at facts'
    | some result' =>
      simp only [visited, Option.any_some, Bool.and_eq_true, beq_iff_eq] at facts
      simp only [visited', Option.any_some, Bool.and_eq_true, beq_iff_eq] at facts'
      have runs := twoRuns_of_revisit (by decide) (by decide) visited visited' facts.1 facts'.1
      refine ⟨_, _, _, _, runs, fun same => ?_⟩
      have verdicts := congrArg (List.map Prod.fst) same
      rw [facts.2, facts'.2] at verdicts
      cases verdicts

end NetServer
