import NetServer.Lib.Exclusive
import NetServer.Lib.Machine
import NetServer.Request.Registry

/-!
# Who owns a handler

Worker threads run `HandleRequest` at the same time, and any of them may sweep the registry in
between. A call in flight is at one of five points between the critical sections. Each point
says whether the call has a handler that is not in the map; with the keys of the map, the calls
are the places a handler can lie in. Every step makes, moves or deletes one handler, so
ownership stays exclusive (`Owned.step`), under any interleaving in which no two calls work on
one descriptor.
-/

namespace NetServer

open Lib

/-- Where a call of `HandleRequest` stands. -/
inductive Phase where
  /-- Before the first critical section. -/
  | entered
  /-- The descriptor had no entry, a handler is to be made. -/
  | missed
  /-- A handler has been made and is to check the data. -/
  | created (pObj : Nat)
  /-- The new handler needs more data and is to be put into the map. -/
  | deficient (pObj : Nat)
  /-- The handler has given its verdict. -/
  | concluding (pObj : Nat) (iRet : HandReply)
  deriving DecidableEq, Repr

/-- A call of `HandleRequest` in flight: its arguments and where it stands. -/
structure Call where
  pev : Nat
  request : Bytes
  reply : Bytes
  phase : Phase
  deriving DecidableEq, Repr

/-- The handler a call at some point has to itself. A call that waits for more data still has
a pointer to its handler but makes no use of it. -/
def Phase.handler : Phase → Option Nat
  | .entered | .missed => none
  | .created pObj | .deficient pObj => some pObj
  | .concluding pObj iRet => if iRet = .dataDef then none else some pObj

/-- The call relies on its descriptor having no entry. -/
def Phase.expectsNoEntry : Phase → Bool
  | .entered | .concluding _ _ => false
  | .missed | .created _ | .deficient _ => true

/-- The next stretch of a call of `HandleRequest`: where the call stands then, or what it
returns. -/
def Call.advance (call : Call) (mgr : MgrRequest) (sockfd now : Int) (memory : Bool) :
    Except Fault (MgrRequest × (Call ⊕ (HandReply × Bytes))) :=
  match call.phase with
  | .entered => do
    let (found, mgr) ← mgr.lookup sockfd now call.request
    match found with
    | some (pObj, iRet) => return (mgr, .inl { call with phase := .concluding pObj iRet })
    | none => return (mgr, .inl { call with phase := .missed })
  | .missed =>
    match mgr.create memory call.pev with
    | none => return (mgr, .inr (.unknow, call.reply))
    | some (pObj, mgr) => return (mgr, .inl { call with phase := .created pObj })
  | .created pObj => do
    let (iRet, mgr) ← mgr.checkData pObj now call.request
    if iRet ≠ .dataDef then
      return (mgr, .inl { call with phase := .concluding pObj iRet })
    else
      return (mgr, .inl { call with phase := .deficient pObj })
  | .deficient pObj =>
    return (mgr.insert sockfd pObj, .inl { call with phase := .concluding pObj .dataDef })
  | .concluding pObj iRet => do
    let (iRet, reply, mgr) ← mgr.conclude pObj iRet call.reply
    return (mgr, .inr (iRet, reply))

/-- The manager and the calls in flight, at most one for each descriptor. -/
structure Workers where
  mgr : MgrRequest
  calls : Std.ExtTreeMap Int Call

/-- What the threads do, one critical section or one stretch between two of them at a time. -/
inductive WorkerEvent where
  /-- A thread calls `HandleRequest`. -/
  | invoke (sockfd : Int) (pev : Nat) (request reply : Bytes)
  /-- The call for a descriptor goes on. -/
  | advance (sockfd now : Int) (memory : Bool)
  /-- A thread calls `OnCheckActiveTime`. -/
  | sweep (now : Int)
  /-- A thread calls `ReleaseHandler`. -/
  | release (sockfd : Int)
  deriving DecidableEq, Repr

namespace Workers

/-- Put the outcome of a stretch into place: the call stands elsewhere, or it has returned. -/
def settle (workers : Workers) (sockfd : Int) (mgr : MgrRequest) :
    Call ⊕ (HandReply × Bytes) → Workers × Option (HandReply × Bytes)
  | .inl call => (⟨mgr, workers.calls.insert sockfd call⟩, none)
  | .inr returned => (⟨mgr, workers.calls.erase sockfd⟩, some returned)

/-- The effect of an event, with what a returning call returns. -/
def step (workers : Workers) :
    WorkerEvent → Except Fault (Workers × Option (HandReply × Bytes))
  | .invoke sockfd pev request reply =>
    return (⟨workers.mgr, workers.calls.insert sockfd ⟨pev, request, reply, .entered⟩⟩, none)
  | .advance sockfd now memory =>
    match workers.calls[sockfd]? with
    | some call => do
      let (mgr, next) ← call.advance workers.mgr sockfd now memory
      return workers.settle sockfd mgr next
    | none => return (workers, none)
  | .sweep now => do
    let (_, mgr) ← workers.mgr.onCheckActiveTime now
    return (⟨mgr, workers.calls⟩, none)
  | .release sockfd => do
    let (_, _, mgr) ← workers.mgr.releaseHandler sockfd
    return (⟨mgr, workers.calls⟩, none)

/-- A call starts when none is in flight for its descriptor, and goes on while it is. -/
def enabled (workers : Workers) : WorkerEvent → Bool
  | .invoke sockfd _ _ _ => workers.calls[sockfd]?.isNone
  | .advance sockfd _ _ => workers.calls[sockfd]?.isSome
  | .sweep _ | .release _ => true

end Workers

/-- All interleavings of the worker threads. -/
def workerMachine : Machine Workers WorkerEvent (Option (HandReply × Bytes)) Fault where
  init := ⟨.empty, ∅⟩
  enabled := Workers.enabled
  step := Workers.step

namespace Workers

/-- The handler in a place: under a key of the map, or with the call for a descriptor. -/
def holds (workers : Workers) : Int ⊕ Int → Option Nat
  | .inl sockfd => workers.mgr.reqHandlerMap[sockfd]?
  | .inr sockfd => workers.calls[sockfd]?.bind fun call => call.phase.handler

/-- The handlers that have been made and not deleted. -/
def live (workers : Workers) (pObj : Nat) : Prop := (workers.mgr.objects.get? pObj).isSome

/-- Handlers are owned exclusively, and no call that missed its descriptor in the map has its
key taken by another handler. -/
structure Owned (workers : Workers) : Prop where
  exclusive : Exclusive workers.holds workers.live
  expected : ∀ {sockfd : Int} {call : Call}, workers.calls[sockfd]? = some call →
    call.phase.expectsNoEntry = true → workers.mgr.reqHandlerMap[sockfd]? = none

/-! ## Places after an update -/

section

variable {mgr : MgrRequest} {calls : Std.ExtTreeMap Int Call} {sockfd : Int} {pObj : Nat}
  {call : Call}

/-- Setting a call fills its place with the handler the call has. -/
theorem holds_insert_call : holds ⟨mgr, calls.insert sockfd call⟩ =
    Function.update (holds ⟨mgr, calls⟩) (.inr sockfd) call.phase.handler := by
  funext place
  cases place with
  | inl key => simp [holds]
  | inr fd =>
    by_cases same : fd = sockfd
    · subst same
      simp [holds]
    · rw [Function.update_of_ne (by simpa using same)]
      simp [holds, Std.ExtTreeMap.getElem?_insert, Ne.symm same]

/-- A call that has returned leaves its place empty. -/
theorem holds_erase_call : holds ⟨mgr, calls.erase sockfd⟩ =
    Function.update (holds ⟨mgr, calls⟩) (.inr sockfd) none := by
  funext place
  cases place with
  | inl key => simp [holds]
  | inr fd =>
    by_cases same : fd = sockfd
    · subst same
      simp [holds]
    · rw [Function.update_of_ne (by simpa using same)]
      simp [holds, Std.ExtTreeMap.getElem?_erase, Ne.symm same]

/-- A handler taken out of the map leaves its key empty. -/
theorem holds_taken : holds ⟨mgr.taken sockfd, calls⟩ =
    Function.update (holds ⟨mgr, calls⟩) (.inl sockfd) none := by
  funext place
  cases place with
  | inl key =>
    by_cases same : key = sockfd
    · subst same
      simp [holds, MgrRequest.taken]
    · rw [Function.update_of_ne (by simpa using same)]
      simp [holds, MgrRequest.taken, Std.ExtTreeMap.getElem?_erase, Ne.symm same]
  | inr fd => simp [holds]

/-- A handler put under an unused key lies there. -/
theorem holds_insert (absent : mgr.reqHandlerMap[sockfd]? = none) :
    holds ⟨mgr.insert sockfd pObj, calls⟩ =
      Function.update (holds ⟨mgr, calls⟩) (.inl sockfd) (some pObj) := by
  have unused : sockfd ∉ mgr.reqHandlerMap := by simpa using absent
  funext place
  cases place with
  | inl key =>
    by_cases same : key = sockfd
    · subst same
      rw [Function.update_self, holds, MgrRequest.insert, Std.ExtTreeMap.getElem?_insertIfNew]
      simp [unused]
    · rw [Function.update_of_ne (by simpa using same)]
      simp [holds, MgrRequest.insert, Std.ExtTreeMap.getElem?_insertIfNew, Ne.symm same]
  | inr fd => simp [holds]

/-- Checking data keeps the handlers that are live. -/
theorem live_checked {obj obj' : ReqHandlerObj} (alive : mgr.objects.get? pObj = some obj)
    (other : Nat) : live ⟨mgr.checked pObj obj', calls⟩ other ↔ live ⟨mgr, calls⟩ other := by
  simp only [live, MgrRequest.checked, Heap.get?_set (Option.isSome_of_eq_some alive)]
  by_cases same : other = pObj
  · simp [same, alive]
  · simp [same]

/-- Making a handler adds the next one to those that are live. -/
theorem live_created {pev : Nat} (other : Nat) :
    live ⟨mgr.created pev, calls⟩ other ↔ other = mgr.objects.next ∨ live ⟨mgr, calls⟩ other := by
  simp only [live, MgrRequest.created, Heap.get?_alloc]
  by_cases same : other = mgr.objects.next
  · simp [same]
  · simp [same]

/-- Deleting a handler takes it out of those that are live. -/
theorem live_deleted (other : Nat) :
    live ⟨mgr.deleted pObj, calls⟩ other ↔ other ≠ pObj ∧ live ⟨mgr, calls⟩ other := by
  simp only [live, MgrRequest.deleted, Heap.get?_free]
  by_cases same : other = pObj
  · simp [same]
  · simp [same]

end

/-! ## Every step keeps ownership exclusive -/

section

variable {workers : Workers} {mgr : MgrRequest} {sockfd : Int} {pObj : Nat} {call : Call}

/-- A pointer that lies in a place can be followed. -/
theorem Owned.follow (owned : workers.Owned) {place : Int ⊕ Int}
    (there : workers.holds place = some pObj) :
    ∃ obj, workers.mgr.objects.get? pObj = some obj := by
  have alive : workers.live pObj := (owned.exclusive.covered pObj).mpr ⟨place, there⟩
  exact Option.isSome_iff_exists.mp alive

/-- The place of the call for a descriptor. -/
theorem holds_call (inFlight : workers.calls[sockfd]? = some call) :
    workers.holds (.inr sockfd) = call.phase.handler := by
  simp [holds, inFlight]

/-- A call that stands elsewhere keeps ownership exclusive if the places do, and if it may
expect what it then expects. -/
theorem Owned.goesOn (owned : workers.Owned)
    (exclusive : Exclusive (holds ⟨mgr, workers.calls.insert sockfd call⟩)
      (live ⟨mgr, workers.calls⟩))
    (others : ∀ {fd : Int}, fd ≠ sockfd → workers.mgr.reqHandlerMap[fd]? = none →
      mgr.reqHandlerMap[fd]? = none)
    (expects : call.phase.expectsNoEntry = true → mgr.reqHandlerMap[sockfd]? = none) :
    Owned ⟨mgr, workers.calls.insert sockfd call⟩ where
  exclusive := exclusive
  expected := by
    intro fd other inFlight expectsNone
    by_cases same : fd = sockfd
    · subst same
      simp only [Std.ExtTreeMap.getElem?_insert_self, Option.some.injEq] at inFlight
      subst inFlight
      exact expects expectsNone
    · rw [Std.ExtTreeMap.getElem?_insert, if_neg (by simpa using Ne.symm same)] at inFlight
      exact others same (owned.expected inFlight expectsNone)

/-- A call that returns keeps ownership exclusive if the places do. -/
theorem Owned.returns (owned : workers.Owned)
    (exclusive : Exclusive (holds ⟨mgr, workers.calls.erase sockfd⟩) (live ⟨mgr, workers.calls⟩))
    (others : ∀ {fd : Int}, workers.mgr.reqHandlerMap[fd]? = none → mgr.reqHandlerMap[fd]? = none) :
    Owned ⟨mgr, workers.calls.erase sockfd⟩ where
  exclusive := exclusive
  expected := by
    intro fd other inFlight expectsNone
    by_cases same : fd = sockfd
    · subst same
      simp at inFlight
    · rw [Std.ExtTreeMap.getElem?_erase, if_neg (by simpa using Ne.symm same)] at inFlight
      exact others (owned.expected inFlight expectsNone)

/-- A handler taken out of the map leaves every unused key unused. -/
theorem taken_absent {fd : Int} (absent : mgr.reqHandlerMap[fd]? = none) :
    (mgr.taken sockfd).reqHandlerMap[fd]? = none := by
  simp [MgrRequest.taken, Std.ExtTreeMap.getElem?_erase, absent]

/-- What a stretch of a call may do: throw, or keep ownership exclusive. -/
def Keeps (workers : Workers) (sockfd : Int)
    (outcome : Except Fault (MgrRequest × (Call ⊕ (HandReply × Bytes)))) : Prop :=
  outcome = .error .outOfRange ∨
    ∃ mgr next, outcome = .ok (mgr, next) ∧ Owned (workers.settle sockfd mgr next).1

/-- The first critical section hands a handler that is done to the call. -/
theorem Owned.lookup (owned : workers.Owned) (inFlight : workers.calls[sockfd]? = some call)
    (phase : call.phase = .entered) (now : Int) (memory : Bool) :
    workers.Keeps sockfd (call.advance workers.mgr sockfd now memory) := by
  have vacant : workers.holds (.inr sockfd) = none := by
    rw [holds_call inFlight, phase, Phase.handler]
  simp only [Call.advance, phase]
  cases entry : workers.mgr.reqHandlerMap[sockfd]? with
  | none =>
    rw [MgrRequest.lookup_absent entry]
    refine .inr ⟨_, _, rfl, ?_⟩
    apply owned.goesOn
    · rw [holds_insert_call]
      simp only [Phase.handler]
      rw [← vacant, Function.update_eq_self]
      exact owned.exclusive
    · exact fun _ absent => absent
    · exact fun _ => entry
  | some pObj =>
    have stored : workers.holds (.inl sockfd) = some pObj := entry
    obtain ⟨obj, alive⟩ := owned.follow stored
    rw [MgrRequest.lookup_present entry alive]
    cases obj.checkData now call.request with
    | error e => exact .inl rfl
    | ok result =>
      obtain ⟨iRet, obj'⟩ := result
      refine .inr ⟨_, _, rfl, ?_⟩
      by_cases deficient : iRet = .dataDef
      · simp only [deficient, ↓reduceIte]
        apply owned.goesOn
        · rw [holds_insert_call]
          simp only [Phase.handler, ↓reduceIte]
          have same : holds ⟨workers.mgr.checked pObj obj', workers.calls⟩ = workers.holds := rfl
          rw [same, ← vacant, Function.update_eq_self]
          exact owned.exclusive.congr (live_checked alive)
        · exact fun _ absent => absent
        · intro expects
          cases expects
      · simp only [deficient, ↓reduceIte]
        apply owned.goesOn
        · rw [holds_insert_call, holds_taken]
          simp only [Phase.handler, deficient, ↓reduceIte]
          exact (owned.exclusive.move stored vacant).congr (live_checked alive)
        · exact fun _ absent => taken_absent absent
        · intro expects
          cases expects

/-- A handler is made for the call that missed its descriptor. -/
theorem Owned.create (owned : workers.Owned) (inFlight : workers.calls[sockfd]? = some call)
    (phase : call.phase = .missed) (now : Int) (memory : Bool) :
    workers.Keeps sockfd (call.advance workers.mgr sockfd now memory) := by
  have vacant : workers.holds (.inr sockfd) = none := by
    rw [holds_call inFlight, phase, Phase.handler]
  have absent : workers.mgr.reqHandlerMap[sockfd]? = none :=
    owned.expected inFlight (by rw [phase]; rfl)
  simp only [Call.advance, phase]
  cases memory with
  | false =>
    refine .inr ⟨_, _, rfl, ?_⟩
    apply owned.returns
    · rw [holds_erase_call, ← vacant, Function.update_eq_self]
      exact owned.exclusive
    · exact fun absent => absent
  | true =>
    refine .inr ⟨_, _, rfl, ?_⟩
    apply owned.goesOn
    · rw [holds_insert_call]
      have unmade : ¬workers.live workers.mgr.objects.next := by simp [live]
      exact (owned.exclusive.fresh vacant unmade).congr live_created
    · exact fun _ absent => absent
    · exact fun _ => absent

/-- The new handler stays with its call while it checks the data. -/
theorem Owned.check (owned : workers.Owned) (inFlight : workers.calls[sockfd]? = some call)
    (phase : call.phase = .created pObj) (now : Int) (memory : Bool) :
    workers.Keeps sockfd (call.advance workers.mgr sockfd now memory) := by
  have held : workers.holds (.inr sockfd) = some pObj := by
    rw [holds_call inFlight, phase, Phase.handler]
  have absent : workers.mgr.reqHandlerMap[sockfd]? = none :=
    owned.expected inFlight (by rw [phase]; rfl)
  obtain ⟨obj, alive⟩ := owned.follow held
  simp only [Call.advance, phase]
  rw [MgrRequest.checkData_of_live alive]
  cases obj.checkData now call.request with
  | error e => exact .inl rfl
  | ok result =>
    obtain ⟨iRet, obj'⟩ := result
    have kept : Exclusive (Function.update workers.holds (.inr sockfd) (some pObj))
        (live ⟨workers.mgr.checked pObj obj', workers.calls⟩) := by
      rw [← held, Function.update_eq_self]
      exact owned.exclusive.congr (live_checked alive)
    by_cases deficient : iRet = .dataDef
    · simp only [deficient, ne_eq, not_true_eq_false, ↓reduceIte, bind, Except.bind, pure,
        Except.pure]
      refine .inr ⟨_, _, rfl, ?_⟩
      apply owned.goesOn
      · rw [holds_insert_call]
        exact kept
      · exact fun _ absent => absent
      · exact fun _ => absent
    · simp only [deficient, ne_eq, not_false_eq_true, ↓reduceIte, bind, Except.bind, pure,
        Except.pure]
      refine .inr ⟨_, _, rfl, ?_⟩
      apply owned.goesOn
      · rw [holds_insert_call]
        simp only [Phase.handler, deficient, ↓reduceIte]
        exact kept
      · exact fun _ absent => absent
      · intro expects
        cases expects

/-- The second critical section hands the handler to the map, whose key is still unused. -/
theorem Owned.insert (owned : workers.Owned) (inFlight : workers.calls[sockfd]? = some call)
    (phase : call.phase = .deficient pObj) (now : Int) (memory : Bool) :
    workers.Keeps sockfd (call.advance workers.mgr sockfd now memory) := by
  have held : workers.holds (.inr sockfd) = some pObj := by
    rw [holds_call inFlight, phase, Phase.handler]
  have absent : workers.mgr.reqHandlerMap[sockfd]? = none :=
    owned.expected inFlight (by rw [phase]; rfl)
  have vacant : workers.holds (.inl sockfd) = none := absent
  simp only [Call.advance, phase]
  refine .inr ⟨_, _, rfl, ?_⟩
  apply owned.goesOn
  · rw [holds_insert_call, holds_insert absent, Function.update_comm Sum.inl_ne_inr]
    exact owned.exclusive.move held vacant
  · intro fd other absent'
    simp [MgrRequest.insert, Std.ExtTreeMap.getElem?_insertIfNew, Ne.symm other, absent']
  · intro expects
    cases expects

/-- A call that is done deletes the handler it has, and any other leaves the handler alone. -/
theorem Owned.conclude (owned : workers.Owned) (inFlight : workers.calls[sockfd]? = some call)
    {iRet : HandReply} (phase : call.phase = .concluding pObj iRet) (now : Int) (memory : Bool) :
    workers.Keeps sockfd (call.advance workers.mgr sockfd now memory) := by
  simp only [Call.advance, phase]
  by_cases deficient : iRet = .dataDef
  · have vacant : workers.holds (.inr sockfd) = none := by
      rw [holds_call inFlight, phase, Phase.handler, if_pos deficient]
    rw [deficient, MgrRequest.conclude_deficient]
    refine .inr ⟨_, _, rfl, ?_⟩
    apply owned.returns
    · rw [holds_erase_call, ← vacant, Function.update_eq_self]
      exact owned.exclusive
    · exact fun absent => absent
  · have held : workers.holds (.inr sockfd) = some pObj := by
      rw [holds_call inFlight, phase, Phase.handler, if_neg deficient]
    obtain ⟨obj, alive⟩ := owned.follow held
    rw [MgrRequest.conclude_done alive deficient]
    refine .inr ⟨_, _, rfl, ?_⟩
    apply owned.returns
    · rw [holds_erase_call]
      exact (owned.exclusive.drop held).congr live_deleted
    · exact fun absent => absent

/-- Every stretch of a call keeps ownership exclusive, if it does not throw. -/
theorem Owned.advance (owned : workers.Owned) (inFlight : workers.calls[sockfd]? = some call)
    (now : Int) (memory : Bool) :
    workers.Keeps sockfd (call.advance workers.mgr sockfd now memory) := by
  cases phase : call.phase with
  | entered => exact owned.lookup inFlight phase now memory
  | missed => exact owned.create inFlight phase now memory
  | created pObj => exact owned.check inFlight phase now memory
  | deficient pObj => exact owned.insert inFlight phase now memory
  | concluding pObj iRet => exact owned.conclude inFlight phase now memory

/-- Removing an entry with its handler keeps ownership exclusive. -/
theorem Owned.remove (owned : workers.Owned)
    (stored : workers.mgr.reqHandlerMap[sockfd]? = some pObj) :
    Owned ⟨(workers.mgr.deleted pObj).taken sockfd, workers.calls⟩ where
  exclusive := by
    have there : workers.holds (.inl sockfd) = some pObj := stored
    rw [holds_taken]
    exact (owned.exclusive.drop there).congr live_deleted
  expected := by
    intro fd other inFlight expectsNone
    exact taken_absent (owned.expected inFlight expectsNone)

/-- The table without an entry that was removed with its handler. -/
theorem Owned.table_remove (owned : workers.Owned)
    (stored : workers.mgr.reqHandlerMap[sockfd]? = some pObj) :
    ((workers.mgr.deleted pObj).taken sockfd).table =
      Function.update workers.mgr.table sockfd none := by
  funext fd
  simp only [MgrRequest.table, MgrRequest.taken, MgrRequest.deleted, Std.ExtTreeMap.getElem?_erase,
    Std.compare_eq_iff_eq]
  by_cases same : sockfd = fd
  · simp [same]
  · rw [if_neg same, Function.update_of_ne (Ne.symm same), MgrRequest.table]
    cases entry : workers.mgr.reqHandlerMap[fd]? with
    | none => rfl
    | some other =>
      have ne : other ≠ pObj := by
        intro shared
        subst shared
        have there : workers.holds (.inl fd) = some other := entry
        have here : workers.holds (.inl sockfd) = some other := stored
        exact same (Sum.inl.inj (owned.exclusive.unique here there))
      simp [Heap.get?_free, ne]

/-- Releasing a descriptor does not fail, frees the context of its entry, removes the entry and
keeps ownership exclusive. -/
theorem Owned.release (owned : workers.Owned) (sockfd : Int) :
    ∃ found mgr, workers.mgr.releaseHandler sockfd =
        .ok (found, ((workers.mgr.table sockfd).map ReqHandlerObj.arg).toList, mgr) ∧
      Owned ⟨mgr, workers.calls⟩ ∧ mgr.table = Function.update workers.mgr.table sockfd none := by
  cases entry : workers.mgr.reqHandlerMap[sockfd]? with
  | none =>
    have unresolved : workers.mgr.table sockfd = none := by simp [MgrRequest.table, entry]
    refine ⟨false, workers.mgr, ?_, owned, ?_⟩
    · rw [MgrRequest.releaseHandler_absent entry, unresolved]
      rfl
    · rw [← unresolved, Function.update_eq_self]
  | some pObj =>
    have stored : workers.holds (.inl sockfd) = some pObj := entry
    obtain ⟨obj, alive⟩ := owned.follow stored
    have resolved : workers.mgr.table sockfd = some obj := by simp [MgrRequest.table, entry, alive]
    refine ⟨true, _, ?_, owned.remove entry, owned.table_remove entry⟩
    rw [MgrRequest.releaseHandler_present entry alive, resolved]
    rfl

/-- One pass of the loop of `OnCheckActiveTime`: it does not fail, frees the context of an idle
entry, removes that entry, leaves the others and keeps ownership exclusive. -/
theorem Owned.sweepEntry (now : Int) (owned : workers.Owned) (freed : List Nat) {sockfd : Int}
    {pObj : Nat} (stored : workers.mgr.reqHandlerMap[sockfd]? = some pObj) :
    ∃ mgr, MgrRequest.sweepEntry now (freed, workers.mgr) (sockfd, pObj) =
        .ok (freed ++ (((workers.mgr.table sockfd).filter (MgrRequest.idle now)).map
          ReqHandlerObj.arg).toList, mgr) ∧
      Owned ⟨mgr, workers.calls⟩ ∧
      mgr.table = Function.update workers.mgr.table sockfd
        ((workers.mgr.table sockfd).filter fun obj => !MgrRequest.idle now obj) ∧
      ∀ fd, fd ≠ sockfd → mgr.reqHandlerMap[fd]? = workers.mgr.reqHandlerMap[fd]? := by
  have there : workers.holds (.inl sockfd) = some pObj := stored
  obtain ⟨obj, alive⟩ := owned.follow there
  have resolved : workers.mgr.table sockfd = some obj := by
    simp [MgrRequest.table, stored, alive]
  rw [MgrRequest.sweepEntry_of_live alive]
  by_cases idle : MgrRequest.idle now obj = true
  · refine ⟨_, by simp [resolved, Option.filter_some, idle], owned.remove stored, ?_,
      fun fd other => ?_⟩
    · rw [owned.table_remove stored, resolved]
      simp [Option.filter_some, idle]
    · simp only [MgrRequest.taken, MgrRequest.deleted, Std.ExtTreeMap.getElem?_erase,
        Std.compare_eq_iff_eq, if_neg (Ne.symm other)]
  · refine ⟨workers.mgr, by simp [resolved, Option.filter_some, idle], owned, ?_, fun _ _ => rfl⟩
    have kept : (workers.mgr.table sockfd).filter (fun obj => !MgrRequest.idle now obj) =
        workers.mgr.table sockfd := by
      rw [resolved]
      simp [Option.filter_some, idle]
    rw [kept, Function.update_eq_self]

/-- The loop of `OnCheckActiveTime` over entries of the map: it does not fail, frees the
contexts of the idle entries in turn, removes those entries and keeps ownership exclusive. -/
theorem Owned.sweepEntries (now : Int) (entries : List (Int × Nat)) (owned : workers.Owned)
    (freed : List Nat)
    (present : ∀ entry ∈ entries, workers.mgr.reqHandlerMap[entry.1]? = some entry.2)
    (distinct : entries.Pairwise fun entry other => entry.1 ≠ other.1) :
    ∃ mgr, entries.foldlM (MgrRequest.sweepEntry now) (freed, workers.mgr) =
        .ok (freed ++ entries.filterMap fun entry =>
          ((workers.mgr.table entry.1).filter (MgrRequest.idle now)).map ReqHandlerObj.arg, mgr) ∧
      Owned ⟨mgr, workers.calls⟩ ∧
      ∀ fd, mgr.table fd =
        if fd ∈ entries.map Prod.fst then
          (workers.mgr.table fd).filter fun obj => !MgrRequest.idle now obj
        else workers.mgr.table fd := by
  induction entries generalizing workers freed with
  | nil => exact ⟨workers.mgr, by simp [pure, Except.pure], owned, by simp⟩
  | cons entry rest ih =>
    obtain ⟨sockfd, pObj⟩ := entry
    have apart : ∀ other ∈ rest, other.1 ≠ sockfd :=
      fun other inRest => Ne.symm ((List.pairwise_cons.mp distinct).1 other inRest)
    have absent : sockfd ∉ rest.map Prod.fst := by
      intro again
      obtain ⟨other, inRest, same⟩ := List.mem_map.mp again
      exact apart other inRest same
    obtain ⟨middle, first, owned', removed, others⟩ :=
      owned.sweepEntry now freed (present _ List.mem_cons_self)
    have present' : ∀ other ∈ rest, middle.reqHandlerMap[other.1]? = some other.2 := by
      intro other inRest
      rw [others _ (apart other inRest)]
      exact present other (List.mem_cons_of_mem _ inRest)
    obtain ⟨mgr, swept, owned'', table⟩ := ih owned' _ present' (List.pairwise_cons.mp distinct).2
    have unchanged : rest.filterMap (fun entry =>
        ((middle.table entry.1).filter (MgrRequest.idle now)).map ReqHandlerObj.arg) =
        rest.filterMap fun entry =>
          ((workers.mgr.table entry.1).filter (MgrRequest.idle now)).map ReqHandlerObj.arg := by
      apply List.filterMap_congr
      intro other inRest
      rw [removed, Function.update_of_ne (apart other inRest)]
    refine ⟨mgr, ?_, owned'', fun fd => ?_⟩
    · rw [List.foldlM_cons, first]
      refine swept.trans ?_
      rw [unchanged, List.append_assoc]
      cases idle :
        ((workers.mgr.table sockfd).filter (MgrRequest.idle now)).map ReqHandlerObj.arg <;>
        simp [idle]
    · rw [table fd, removed]
      by_cases same : fd = sockfd
      · subst same
        rw [if_neg absent, Function.update_self, List.map_cons, if_pos List.mem_cons_self]
      · rw [Function.update_of_ne same]
        simp only [List.map_cons, List.mem_cons, same, false_or]

/-- The contexts `OnCheckActiveTime` frees, in the order of the map. -/
def idleContexts (mgr : MgrRequest) (now : Int) : List Nat :=
  mgr.reqHandlerMap.toList.filterMap fun entry =>
    ((mgr.table entry.1).filter (MgrRequest.idle now)).map ReqHandlerObj.arg

/-- A sweep does not fail, frees the contexts of the idle entries, removes those entries and
keeps ownership exclusive. -/
theorem Owned.sweep (owned : workers.Owned) (now : Int) :
    ∃ mgr, workers.mgr.onCheckActiveTime now = .ok (idleContexts workers.mgr now, mgr) ∧
      Owned ⟨mgr, workers.calls⟩ ∧
      ∀ fd, mgr.table fd = (workers.mgr.table fd).filter fun obj => !MgrRequest.idle now obj := by
  have present : ∀ entry ∈ workers.mgr.reqHandlerMap.toList,
      workers.mgr.reqHandlerMap[entry.1]? = some entry.2 :=
    fun entry inMap => Std.ExtTreeMap.mem_toList_iff_getElem?_eq_some.mp inMap
  have distinct : workers.mgr.reqHandlerMap.toList.Pairwise fun entry other => entry.1 ≠ other.1 :=
    Std.ExtTreeMap.distinct_keys_toList.imp fun apart => by simpa using apart
  obtain ⟨mgr, swept, owned', table⟩ := owned.sweepEntries now _ [] present distinct
  refine ⟨mgr, swept, owned', fun fd => ?_⟩
  rw [table fd]
  by_cases listed : fd ∈ workers.mgr.reqHandlerMap.toList.map Prod.fst
  · rw [if_pos listed]
  · have absent : workers.mgr.reqHandlerMap[fd]? = none := by
      cases entry : workers.mgr.reqHandlerMap[fd]? with
      | none => rfl
      | some pObj =>
        have inMap := Std.ExtTreeMap.mem_toList_iff_getElem?_eq_some.mpr entry
        exact absurd (List.mem_map_of_mem inMap) listed
    rw [if_neg listed]
    simp [MgrRequest.table, absent]

/-- A call that starts has no handler yet. -/
theorem Owned.invoke (owned : workers.Owned) (idle : workers.calls[sockfd]? = none)
    (entered : call.phase = .entered) :
    Owned ⟨workers.mgr, workers.calls.insert sockfd call⟩ := by
  have vacant : workers.holds (.inr sockfd) = none := by simp [holds, idle]
  apply owned.goesOn
  · rw [holds_insert_call, entered, Phase.handler, ← vacant, Function.update_eq_self]
    exact owned.exclusive
  · exact fun _ absent => absent
  · intro expects
    rw [entered] at expects
    cases expects

/-- Every event that can happen either throws out of `CheckData` or keeps ownership exclusive. -/
theorem Owned.step (owned : workers.Owned) {event : WorkerEvent}
    (possible : workers.enabled event = true) :
    workers.step event = .error .outOfRange ∨
      ∃ next answer, workers.step event = .ok (next, answer) ∧ next.Owned := by
  cases event with
  | invoke sockfd pev request reply =>
    have idle : workers.calls[sockfd]? = none := Option.isNone_iff_eq_none.mp possible
    exact .inr ⟨_, _, rfl, owned.invoke idle rfl⟩
  | advance sockfd now memory =>
    obtain ⟨call, inFlight⟩ := Option.isSome_iff_exists.mp possible
    simp only [Workers.step, inFlight]
    have kept := owned.advance inFlight now memory
    unfold Keeps at kept
    rcases kept with thrown | ⟨mgr, next, taken, owned'⟩
    · left
      rw [thrown]
      rfl
    · right
      rw [taken]
      exact ⟨_, _, rfl, owned'⟩
  | sweep now =>
    obtain ⟨mgr, swept, owned', -⟩ := owned.sweep now
    right
    simp only [Workers.step, swept]
    exact ⟨_, _, rfl, owned'⟩
  | release sockfd =>
    obtain ⟨found, mgr, released, owned', -⟩ := owned.release sockfd
    right
    simp only [Workers.step, released]
    exact ⟨_, _, rfl, owned'⟩

end

/-- Nothing is owned before the first call. -/
theorem owned_init : Owned ⟨.empty, ∅⟩ where
  exclusive := by
    constructor
    · intro place place' object there
      cases place <;> simp [holds, MgrRequest.empty] at there
    · intro object
      constructor
      · intro alive
        simp [live, MgrRequest.empty] at alive
      · intro there
        obtain ⟨place, found⟩ := there
        cases place <;> simp [holds, MgrRequest.empty] at found
  expected := by
    intro sockfd call inFlight
    simp at inFlight

/-- Ownership is exclusive behind every run. -/
theorem owned_of_run {workers next : Workers}
    {trace : List (WorkerEvent × Option (HandReply × Bytes))} (owned : workers.Owned)
    (ran : workerMachine.Run workers trace next) : next.Owned := by
  refine ran.preserved ?_ owned
  intro state event answer after ownedHere taken
  rcases ownedHere.step taken.1 with thrown | ⟨after', answer', took, ownedThere⟩
  · have faulted : workerMachine.step state event = .error .outOfRange := thrown
    rw [taken.2] at faulted
    cases faulted
  · have same : workerMachine.step state event = .ok (after', answer') := took
    rw [taken.2] at same
    cases same
    exact ownedThere

/-! ## The three states of a handler -/

/-- The call for a descriptor has the handler to itself. -/
def HeldBy (workers : Workers) (pObj : Nat) (sockfd : Int) : Prop :=
  ∃ call, workers.calls[sockfd]? = some call ∧ call.phase.handler = some pObj

/-- The map has the handler under a key. -/
def StoredAt (workers : Workers) (pObj : Nat) (sockfd : Int) : Prop :=
  workers.mgr.reqHandlerMap[sockfd]? = some pObj

/-- Held by exactly one call and absent from the map. -/
def Held (workers : Workers) (pObj : Nat) : Prop :=
  (∃! sockfd, workers.HeldBy pObj sockfd) ∧ ∀ sockfd, ¬workers.StoredAt pObj sockfd

/-- Stored under exactly one key and held by no call. -/
def Stored (workers : Workers) (pObj : Nat) : Prop :=
  (∃! sockfd, workers.StoredAt pObj sockfd) ∧ ∀ sockfd, ¬workers.HeldBy pObj sockfd

/-- Made once and deleted since. -/
def Deleted (workers : Workers) (pObj : Nat) : Prop :=
  pObj < workers.mgr.objects.next ∧ workers.mgr.objects.get? pObj = none

/-- The handlers that have been made. -/
def Made (workers : Workers) (pObj : Nat) : Prop := pObj < workers.mgr.objects.next

section

variable {workers : Workers} {pObj : Nat} {sockfd : Int}

/-- Being held, in terms of places. -/
theorem heldBy_iff : workers.HeldBy pObj sockfd ↔ workers.holds (.inr sockfd) = some pObj := by
  simp [HeldBy, holds, Option.bind_eq_some_iff]

/-- A handler that is held by a call is in the first state. -/
theorem Owned.held (owned : workers.Owned) (there : workers.HeldBy pObj sockfd) :
    workers.Held pObj ∧ ¬workers.Stored pObj ∧ ¬workers.Deleted pObj := by
  have place := heldBy_iff.mp there
  obtain ⟨obj, alive⟩ := owned.follow place
  have unstored : ∀ fd, ¬workers.StoredAt pObj fd := by
    intro fd stored
    have other : workers.holds (.inl fd) = some pObj := stored
    cases owned.exclusive.unique place other
  refine ⟨⟨⟨sockfd, there, fun fd heldThere => ?_⟩, unstored⟩, ?_, ?_⟩
  · exact Sum.inr.inj (owned.exclusive.unique (heldBy_iff.mp heldThere) place)
  · intro stored
    exact unstored _ stored.1.choose_spec.1
  · intro deleted
    rw [deleted.2] at alive
    cases alive

/-- A handler that the map has is in the second state. -/
theorem Owned.stored (owned : workers.Owned) (there : workers.StoredAt pObj sockfd) :
    ¬workers.Held pObj ∧ workers.Stored pObj ∧ ¬workers.Deleted pObj := by
  have place : workers.holds (.inl sockfd) = some pObj := there
  obtain ⟨obj, alive⟩ := owned.follow place
  refine ⟨fun held => held.2 sockfd there, ⟨⟨sockfd, there, fun fd storedThere => ?_⟩, ?_⟩, ?_⟩
  · have other : workers.holds (.inl fd) = some pObj := storedThere
    exact Sum.inl.inj (owned.exclusive.unique other place)
  · intro fd held
    cases owned.exclusive.unique place (heldBy_iff.mp held)
  · intro deleted
    rw [deleted.2] at alive
    cases alive

/-- A handler that has been made is in exactly one of the three states. -/
theorem Owned.oneOfThree (owned : workers.Owned) (made : workers.Made pObj) :
    (workers.Held pObj ∧ ¬workers.Stored pObj ∧ ¬workers.Deleted pObj) ∨
      (¬workers.Held pObj ∧ workers.Stored pObj ∧ ¬workers.Deleted pObj) ∨
      (¬workers.Held pObj ∧ ¬workers.Stored pObj ∧ workers.Deleted pObj) := by
  cases value : workers.mgr.objects.get? pObj with
  | some obj =>
    have alive : workers.live pObj := Option.isSome_of_eq_some value
    obtain ⟨place, there⟩ := (owned.exclusive.covered pObj).mp alive
    cases place with
    | inl sockfd => exact .inr (.inl (owned.stored there))
    | inr sockfd => exact .inl (owned.held (heldBy_iff.mpr there))
  | none =>
    have dead : ∀ place, workers.holds place ≠ some pObj := by
      intro place there
      obtain ⟨obj, alive⟩ := owned.follow there
      rw [value] at alive
      cases alive
    refine .inr (.inr ⟨fun held => ?_, fun stored => ?_, made, value⟩)
    · exact dead _ (heldBy_iff.mp held.1.choose_spec.1)
    · exact dead (.inl _) stored.1.choose_spec.1

end

end Workers

/-- Under any interleaving of requests, sweeps and releases, every handler that was made is held
by exactly one call and not in the map, or in the map under exactly one key, or deleted; no
event uses or deletes a deleted handler; and with no call in flight the live handlers are the
values of the map. -/
theorem handlers_owned {trace : List (WorkerEvent × Option (HandReply × Bytes))} {workers : Workers}
    (ran : workerMachine.Run workerMachine.init trace workers) :
    (∀ pObj, workers.Made pObj →
      (workers.Held pObj ∧ ¬workers.Stored pObj ∧ ¬workers.Deleted pObj) ∨
        (¬workers.Held pObj ∧ workers.Stored pObj ∧ ¬workers.Deleted pObj) ∨
        (¬workers.Held pObj ∧ ¬workers.Stored pObj ∧ workers.Deleted pObj)) ∧
    (∀ event, workerMachine.enabled workers event = true →
      workerMachine.step workers event ≠ .error .handlerDeleted) ∧
    (workers.calls = ∅ → ∀ pObj,
      workers.live pObj ↔ ∃ sockfd, workers.StoredAt pObj sockfd) := by
  have owned : workers.Owned := Workers.owned_of_run Workers.owned_init ran
  refine ⟨fun pObj => owned.oneOfThree, fun event possible deleted => ?_, fun quiet pObj => ?_⟩
  · have faulted : workers.step event = .error .handlerDeleted := deleted
    rcases owned.step possible with thrown | ⟨next, answer, taken, -⟩
    · rw [faulted] at thrown
      cases thrown
    · rw [faulted] at taken
      cases taken
  · rw [owned.exclusive.covered pObj]
    constructor
    · intro somewhere
      obtain ⟨place, there⟩ := somewhere
      cases place with
      | inl sockfd => exact ⟨sockfd, there⟩
      | inr sockfd => simp [Workers.holds, quiet] at there
    · intro stored
      obtain ⟨sockfd, there⟩ := stored
      exact ⟨.inl sockfd, there⟩

/-- Two requests in parts and a complete one, interleaved with a sweep and a release. -/
def interleaving : List WorkerEvent :=
  [.invoke 7 0 (bytes "CONTENT_LENGHT: 5\r\nx\r\n") [], .advance 7 100 true, .advance 7 100 true,
    .invoke 8 1 (bytes "x\r\n") [], .advance 8 100 true, .advance 7 101 true, .advance 8 101 true,
    .sweep 130, .advance 7 130 true, .advance 8 131 true, .advance 7 131 true, .advance 8 131 true,
    .release 7, .invoke 9 2 (bytes "CONTENT_LENGHT: 5\r\nx\r\n") [], .advance 9 140 true,
    .advance 9 140 true]

/-- The interleaving runs to its end, and its three handlers are in one of the three states. -/
theorem handlers_owned_interleaving : ∃ trace workers,
    workerMachine.Run workerMachine.init trace workers ∧ trace.map Prod.fst = interleaving ∧
      ∀ pObj, workers.Made pObj →
        (workers.Held pObj ∧ ¬workers.Stored pObj ∧ ¬workers.Deleted pObj) ∨
          (¬workers.Held pObj ∧ workers.Stored pObj ∧ ¬workers.Deleted pObj) ∨
          (¬workers.Held pObj ∧ ¬workers.Stored pObj ∧ workers.Deleted pObj) := by
  have runs : (workerMachine.exec workerMachine.init interleaving).isSome = true := by
    decide +kernel
  obtain ⟨⟨workers, trace⟩, executed⟩ := Option.isSome_iff_exists.mp runs
  obtain ⟨ran, events⟩ := Machine.run_of_exec executed
  exact ⟨trace, workers, ran, events, (handlers_owned ran).1⟩

end NetServer
