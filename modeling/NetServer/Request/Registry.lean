import NetServer.Lib.Heap
import NetServer.Request.Handler

/-!
# The registry of unfinished requests, `CMgrRequest`

`m_ReqHandlerMap` maps a descriptor number to the handler of its unfinished request. The map
holds pointers; the handlers themselves live in the memory pool, so the manager is modelled
with a heap of handlers, and the use or the deletion of a deleted one is a fault. Every stretch
of `HandleRequest` between two operations on the lock is a function of its own: `lookup` and
`insert` are the critical sections, `create`, `checkData` and `conclude` run between them.
-/

namespace NetServer

open Lib

/-- What ends a run of the server. -/
inductive Fault where
  /-- An exception of `CheckData`, which nothing catches. -/
  | outOfRange
  /-- A handler is used or deleted after its deletion. -/
  | handlerDeleted
  /-- A context of a connection is freed a second time. -/
  | ctxFreed
  /-- A full receive buffer without a NUL is read past its end. -/
  | readPast
  deriving DecidableEq, Repr

/-- `ACTIVA_TIMEVAL`, in seconds. -/
def activaTimeval : Int := 15

/-- The state of `CMgrRequest`: the map, and the handlers its object manager made. No pointer
in the map is null, since only `insert` writes it. -/
structure MgrRequest where
  reqHandlerMap : Std.ExtTreeMap Int Nat
  objects : Heap ReqHandlerObj

namespace MgrRequest

/-- A manager before its first request. -/
def empty : MgrRequest := ⟨∅, .empty⟩

/-- The handler behind a pointer. -/
def get (mgr : MgrRequest) (pObj : Nat) : Except Fault ReqHandlerObj :=
  match mgr.objects.get? pObj with
  | some obj => .ok obj
  | none => .error .handlerDeleted

/-- `CheckData` of the handler behind a pointer. -/
def checkData (mgr : MgrRequest) (pObj : Nat) (now : Int) (request : Bytes) :
    Except Fault (HandReply × MgrRequest) := do
  let obj ← mgr.get pObj
  match obj.checkData now request with
  | .ok (iRet, obj) => return (iRet, { mgr with objects := mgr.objects.set pObj obj })
  | .error _ => throw .outOfRange

/-- `ObjectManager::Create` for a context, when the pool has memory. -/
def create (mgr : MgrRequest) (memory : Bool) (pev : Nat) : Option (Nat × MgrRequest) :=
  if memory then
    some (mgr.objects.next, { mgr with objects := mgr.objects.alloc (.construct pev) })
  else none

/-- `ObjectManager::Delete`. -/
def delete (mgr : MgrRequest) (pObj : Nat) : Except Fault MgrRequest := do
  let _ ← mgr.get pObj
  return { mgr with objects := mgr.objects.free pObj }

/-- The first critical section of `HandleRequest`: look the descriptor up, let its handler
check the data and take the handler out of the map when it is done. -/
def lookup (mgr : MgrRequest) (sockfd now : Int) (request : Bytes) :
    Except Fault (Option (Nat × HandReply) × MgrRequest) :=
  match mgr.reqHandlerMap[sockfd]? with
  | some pObj => do
    let (iRet, mgr) ← mgr.checkData pObj now request
    if iRet ≠ .dataDef then
      return (some (pObj, iRet), { mgr with reqHandlerMap := mgr.reqHandlerMap.erase sockfd })
    else
      return (some (pObj, iRet), mgr)
  | none => return (none, mgr)

/-- The second critical section of `HandleRequest`; `std::map::insert` keeps an entry that is
there already. -/
def insert (mgr : MgrRequest) (sockfd : Int) (pObj : Nat) : MgrRequest :=
  { mgr with reqHandlerMap := mgr.reqHandlerMap.insertIfNew sockfd pObj }

/-- The end of `HandleRequest` once there is a handler: reply to a complete request and delete
the handler unless more data has to come. `isDone` is set whenever `iRet` is `DATA_OK`. -/
def conclude (mgr : MgrRequest) (pObj : Nat) (iRet : HandReply) (reply : Bytes) :
    Except Fault (HandReply × Bytes × MgrRequest) := do
  let (iRet, reply) ←
    if iRet = .dataOk then do
      let obj ← mgr.get pObj
      pure obj.onHandle
    else
      pure (iRet, reply)
  if iRet ≠ .dataDef then
    let mgr ← mgr.delete pObj
    return (iRet, reply, mgr)
  else
    return (iRet, reply, mgr)

/-- `CMgrRequest::HandleRequest` for a context and its descriptor. -/
def handleRequest (mgr : MgrRequest) (pev : Nat) (sockfd : Int) (request reply : Bytes)
    (now : Int) (memory : Bool) : Except Fault (HandReply × Bytes × MgrRequest) := do
  let (found, mgr) ← mgr.lookup sockfd now request
  match found with
  | some (pObj, iRet) => mgr.conclude pObj iRet reply
  | none =>
    match mgr.create memory pev with
    | none => return (.unknow, reply, mgr)
    | some (pObj, mgr) =>
      let (iRet, mgr) ← mgr.checkData pObj now request
      if iRet ≠ .dataDef then
        mgr.conclude pObj iRet reply
      else
        (mgr.insert sockfd pObj).conclude pObj iRet reply

/-- Whether a handler has been idle for too long; the difference of two `time_t` is stored in
an `int`. -/
def idle (now : Int) (obj : ReqHandlerObj) : Bool := activaTimeval ≤ toInt (now - obj.activeTime)

/-- One entry in the loop of `OnCheckActiveTime`, with the contexts freed so far. -/
def sweepEntry (now : Int) (state : List Nat × MgrRequest) (entry : Int × Nat) :
    Except Fault (List Nat × MgrRequest) := do
  let (freed, mgr) := state
  let obj ← mgr.get entry.2
  if idle now obj then
    let mgr ← mgr.delete entry.2
    return (freed ++ [obj.arg], { mgr with reqHandlerMap := mgr.reqHandlerMap.erase entry.1 })
  else
    return (freed, mgr)

/-- `CMgrRequest::OnCheckActiveTime`, with the contexts it passes to `EventCtx_free`. -/
def onCheckActiveTime (mgr : MgrRequest) (now : Int) : Except Fault (List Nat × MgrRequest) :=
  mgr.reqHandlerMap.toList.foldlM (sweepEntry now) ([], mgr)

/-- `CMgrRequest::ReleaseHandler`, with the context it passes to `EventCtx_free`. -/
def releaseHandler (mgr : MgrRequest) (sockfd : Int) :
    Except Fault (Bool × List Nat × MgrRequest) :=
  match mgr.reqHandlerMap[sockfd]? with
  | some pObj => do
    let obj ← mgr.get pObj
    let mgr ← mgr.delete pObj
    return (true, [obj.arg], { mgr with reqHandlerMap := mgr.reqHandlerMap.erase sockfd })
  | none => return (false, [], mgr)

/-- The unfinished requests by descriptor, with the pointers of the map followed. -/
def table (mgr : MgrRequest) (sockfd : Int) : Option ReqHandlerObj :=
  mgr.reqHandlerMap[sockfd]?.bind mgr.objects.get?

/-! ## What the functions do with live handlers -/

variable {mgr : MgrRequest} {pObj : Nat} {obj : ReqHandlerObj} {sockfd now : Int}
  {request reply : Bytes} {iRet : HandReply}

/-- The pointer to a live handler can be followed. -/
theorem get_of_live (live : mgr.objects.get? pObj = some obj) : mgr.get pObj = .ok obj := by
  simp only [get, live]

/-- What becomes of the manager when a handler has checked some data. -/
def checked (mgr : MgrRequest) (pObj : Nat) (obj : ReqHandlerObj) : MgrRequest :=
  { mgr with objects := mgr.objects.set pObj obj }

/-- What becomes of the manager when a handler is taken out of the map. -/
def taken (mgr : MgrRequest) (sockfd : Int) : MgrRequest :=
  { mgr with reqHandlerMap := mgr.reqHandlerMap.erase sockfd }

/-- What becomes of the manager when a handler is deleted. -/
def deleted (mgr : MgrRequest) (pObj : Nat) : MgrRequest :=
  { mgr with objects := mgr.objects.free pObj }

/-- What becomes of the manager when a handler is made. -/
def created (mgr : MgrRequest) (pev : Nat) : MgrRequest :=
  { mgr with objects := mgr.objects.alloc (.construct pev) }

/-- The answer `HandleRequest` gives after a verdict. -/
def answer (obj : ReqHandlerObj) (iRet : HandReply) (reply : Bytes) : HandReply × Bytes :=
  if iRet = .dataOk then obj.onHandle else (iRet, reply)

/-- A live handler checks data as it does on its own, unless it throws. -/
theorem checkData_of_live (live : mgr.objects.get? pObj = some obj) :
    mgr.checkData pObj now request =
      match obj.checkData now request with
      | .ok (iRet, obj) => .ok (iRet, mgr.checked pObj obj)
      | .error _ => .error .outOfRange := by
  simp only [checkData, get_of_live live, bind, Except.bind]
  cases obj.checkData now request <;> rfl

/-- A live handler can be deleted. -/
theorem delete_of_live (live : mgr.objects.get? pObj = some obj) :
    mgr.delete pObj = .ok (mgr.deleted pObj) := by
  simp only [delete, get_of_live live, bind, Except.bind, pure, Except.pure, deleted]

/-- A descriptor without an entry is not found. -/
theorem lookup_absent (absent : mgr.reqHandlerMap[sockfd]? = none) :
    mgr.lookup sockfd now request = .ok (none, mgr) := by
  simp only [lookup, absent, pure, Except.pure]

/-- A descriptor with an entry has its handler check the data, and a handler that is done
leaves the map. -/
theorem lookup_present (present : mgr.reqHandlerMap[sockfd]? = some pObj)
    (live : mgr.objects.get? pObj = some obj) :
    mgr.lookup sockfd now request =
      match obj.checkData now request with
      | .ok (iRet, obj) =>
        .ok (some (pObj, iRet),
          if iRet = .dataDef then mgr.checked pObj obj else (mgr.checked pObj obj).taken sockfd)
      | .error _ => .error .outOfRange := by
  simp only [lookup, present, checkData_of_live live]
  cases obj.checkData now request with
  | error e => rfl
  | ok result =>
    obtain ⟨iRet, next⟩ := result
    simp only [bind, Except.bind, pure, Except.pure, ne_eq, ite_not]
    split <;> rfl

/-- A request that waits for more data is left as it is. -/
theorem conclude_deficient : mgr.conclude pObj .dataDef reply = .ok (.dataDef, reply, mgr) :=
  rfl

/-- A request that is done is answered and its handler deleted. -/
theorem conclude_done (live : mgr.objects.get? pObj = some obj) (done : iRet ≠ .dataDef) :
    mgr.conclude pObj iRet reply =
      .ok ((answer obj iRet reply).1, (answer obj iRet reply).2, mgr.deleted pObj) := by
  unfold conclude answer
  by_cases complete : iRet = .dataOk
  · simp only [complete, ↓reduceIte, get_of_live live, bind, Except.bind, pure, Except.pure,
      delete_of_live live]
    rfl
  · simp only [complete, ↓reduceIte, bind, Except.bind, pure, Except.pure,
      delete_of_live live, ne_eq, done, not_false_eq_true]

/-- An entry that has been idle for too long is removed with its handler, and its context is
freed; any other entry stays. -/
theorem sweepEntry_of_live {freed : List Nat} (live : mgr.objects.get? pObj = some obj) :
    sweepEntry now (freed, mgr) (sockfd, pObj) =
      .ok (if idle now obj then (freed ++ [obj.arg], (mgr.deleted pObj).taken sockfd)
        else (freed, mgr)) := by
  simp only [sweepEntry, get_of_live live, delete_of_live live, bind, Except.bind, pure,
    Except.pure]
  split <;> rfl

/-- Releasing a descriptor that has an entry removes the entry with its handler. -/
theorem releaseHandler_present (present : mgr.reqHandlerMap[sockfd]? = some pObj)
    (live : mgr.objects.get? pObj = some obj) :
    mgr.releaseHandler sockfd = .ok (true, [obj.arg], (mgr.deleted pObj).taken sockfd) := by
  simp only [releaseHandler, present, get_of_live live, delete_of_live live, bind, Except.bind,
    pure, Except.pure, taken]

/-- Releasing a descriptor without an entry does nothing. -/
theorem releaseHandler_absent (absent : mgr.reqHandlerMap[sockfd]? = none) :
    mgr.releaseHandler sockfd = .ok (false, [], mgr) := by
  simp only [releaseHandler, absent, pure, Except.pure]

end MgrRequest

end NetServer
