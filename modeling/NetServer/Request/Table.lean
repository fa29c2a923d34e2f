import NetServer.Request.Ownership

/-!
# The registry as a table

With ownership exclusive, the pointers of the registry do not matter: it is a table that holds
a handler for each descriptor with an unfinished request. `handleEntry` says what
`HandleRequest` is for in these terms, without a heap and without deletions, and
`handleRequest_table` that the code does just that. A call of `HandleRequest` that is not
interrupted is one of the runs of the worker threads (`handleRequest_run`), so whatever those
preserve it preserves.
-/

namespace NetServer

open Lib

/-- Unfinished requests by descriptor. -/
abbrev Table := Int → Option ReqHandlerObj

/-- What a chunk of data does to the unfinished request of its descriptor, or to a new one: the
verdict, the reply and the request that is unfinished then. -/
def handleEntry (entry : Option ReqHandlerObj) (pev : Nat) (request reply : Bytes) (now : Int)
    (memory : Bool) : Except Fault (HandReply × Bytes × Option ReqHandlerObj) :=
  if entry.isNone && !memory then
    .ok (.unknow, reply, none)
  else
    match (entry.getD (.construct pev)).checkData now request with
    | .error _ => .error .outOfRange
    | .ok (iRet, obj) =>
      if iRet = .dataDef then .ok (iRet, reply, some obj)
      else .ok ((MgrRequest.answer obj iRet reply).1, (MgrRequest.answer obj iRet reply).2, none)

/-- A chunk of data concerns the entry of its descriptor only. -/
def Table.handle (table : Table) (pev : Nat) (sockfd : Int) (request reply : Bytes) (now : Int)
    (memory : Bool) : Except Fault (HandReply × Bytes × Table) :=
  (handleEntry (table sockfd) pev request reply now memory).map fun result =>
    (result.1, result.2.1, Function.update table sockfd result.2.2)

/-- An unfinished request keeps the context it had before or, if it is new, has that of the
chunk. -/
theorem handleEntry_arg {entry : Option ReqHandlerObj} {pev : Nat} {now : Int}
    {request reply reply' : Bytes} {memory : Bool} {iRet : HandReply} {obj : ReqHandlerObj}
    (handled : handleEntry entry pev request reply now memory = .ok (iRet, reply', some obj)) :
    obj.arg = (entry.getD (.construct pev)).arg := by
  unfold handleEntry at handled
  split at handled
  · cases handled
  · split at handled
    · cases handled
    · rename_i verdict obj' checked
      split at handled
      · cases handled
        exact (ReqHandlerObj.checkData_keeps checked).1
      · cases handled

/-- A chunk of data faults only by the exception of `CheckData`. -/
theorem handleEntry_error {entry : Option ReqHandlerObj} {pev : Nat} {now : Int}
    {request reply : Bytes} {memory : Bool} {fault : Fault}
    (faulted : handleEntry entry pev request reply now memory = .error fault) :
    fault = .outOfRange := by
  unfold handleEntry at faulted
  split at faulted
  · cases faulted
  · split at faulted
    · cases faulted
      rfl
    · split at faulted <;> cases faulted

/-- So it is for the table. -/
theorem Table.handle_error {table : Table} {pev : Nat} {sockfd now : Int} {request reply : Bytes}
    {memory : Bool} {fault : Fault}
    (faulted : table.handle pev sockfd request reply now memory = .error fault) :
    fault = .outOfRange := by
  unfold Table.handle at faulted
  cases result : handleEntry (table sockfd) pev request reply now memory with
  | error fault' =>
    rw [result] at faulted
    cases faulted
    exact handleEntry_error result
  | ok value =>
    rw [result] at faulted
    cases faulted

/-- The table behind a chunk of data. -/
theorem Table.handle_ok {table table' : Table} {pev : Nat} {sockfd now : Int}
    {request reply reply' : Bytes} {memory : Bool} {iRet : HandReply}
    (handled : table.handle pev sockfd request reply now memory = .ok (iRet, reply', table')) :
    ∃ entry, handleEntry (table sockfd) pev request reply now memory = .ok (iRet, reply', entry) ∧
      table' = Function.update table sockfd entry := by
  unfold Table.handle at handled
  cases result : handleEntry (table sockfd) pev request reply now memory with
  | error fault => simp [result, Except.map] at handled
  | ok value =>
    simp only [result, Except.map, Except.ok.injEq, Prod.mk.injEq] at handled
    obtain ⟨rfl, rfl, rfl⟩ := handled
    exact ⟨value.2.2, rfl, rfl⟩

namespace MgrRequest

/-- Ownership is exclusive, with no call in flight. -/
def Owned (mgr : MgrRequest) : Prop := Workers.Owned ⟨mgr, ∅⟩

variable {mgr mgr' : MgrRequest} {pev pObj : Nat} {sockfd now : Int} {request reply reply' : Bytes}
  {memory : Bool} {iRet iRet' : HandReply} {obj : ReqHandlerObj}

/-- `HandleRequest` for a descriptor with an entry. -/
theorem handleRequest_present (present : mgr.reqHandlerMap[sockfd]? = some pObj)
    (alive : mgr.objects.get? pObj = some obj) :
    mgr.handleRequest pev sockfd request reply now memory =
      match obj.checkData now request with
      | .error _ => .error .outOfRange
      | .ok (iRet, obj) =>
        if iRet = .dataDef then .ok (iRet, reply, mgr.checked pObj obj)
        else .ok ((answer obj iRet reply).1, (answer obj iRet reply).2,
          ((mgr.checked pObj obj).taken sockfd).deleted pObj) := by
  simp only [handleRequest, lookup_present present alive]
  cases obj.checkData now request with
  | error e => rfl
  | ok result =>
    obtain ⟨iRet, obj'⟩ := result
    by_cases deficient : iRet = .dataDef
    · simp only [deficient, ↓reduceIte, bind, Except.bind, conclude_deficient]
    · have kept : ((mgr.checked pObj obj').taken sockfd).objects.get? pObj = some obj' := by
        simp [taken, checked, Heap.get?_set (Option.isSome_of_eq_some alive)]
      simp only [deficient, ↓reduceIte, bind, Except.bind, conclude_done kept deficient]

/-- `HandleRequest` for a descriptor without an entry, when there is memory for a handler. -/
theorem handleRequest_absent (absent : mgr.reqHandlerMap[sockfd]? = none) :
    mgr.handleRequest pev sockfd request reply now true =
      match (ReqHandlerObj.construct pev).checkData now request with
      | .error _ => .error .outOfRange
      | .ok (iRet, obj) =>
        if iRet = .dataDef then
          .ok (iRet, reply,
            ((mgr.created pev).checked mgr.objects.next obj).insert sockfd mgr.objects.next)
        else .ok ((answer obj iRet reply).1, (answer obj iRet reply).2,
          ((mgr.created pev).checked mgr.objects.next obj).deleted mgr.objects.next) := by
  have alive : (mgr.created pev).objects.get? mgr.objects.next = some (.construct pev) := by
    simp [created, Heap.get?_alloc]
  have made : mgr.create true pev = some (mgr.objects.next, mgr.created pev) := rfl
  simp only [handleRequest, lookup_absent absent, bind, Except.bind, made, checkData_of_live alive]
  cases (ReqHandlerObj.construct pev).checkData now request with
  | error e => rfl
  | ok result =>
    obtain ⟨iRet, obj'⟩ := result
    by_cases deficient : iRet = .dataDef
    · simp only [deficient, ne_eq, not_true_eq_false, ↓reduceIte, conclude_deficient]
    · have kept : ((mgr.created pev).checked mgr.objects.next obj').objects.get? mgr.objects.next =
          some obj' := by
        simp [checked, Heap.get?_set (Option.isSome_of_eq_some alive)]
      simp only [deficient, ne_eq, not_false_eq_true, ↓reduceIte, conclude_done kept deficient]

/-- `HandleRequest` for a descriptor without an entry, when memory has run out. -/
theorem handleRequest_noMemory (absent : mgr.reqHandlerMap[sockfd]? = none) :
    mgr.handleRequest pev sockfd request reply now false = .ok (.unknow, reply, mgr) := by
  simp only [handleRequest, lookup_absent absent, bind, Except.bind, create, Bool.false_eq_true,
    ↓reduceIte, pure, Except.pure]

/-! ## An uninterrupted call is a run of the workers -/

section

variable {calls : Std.ExtTreeMap Int Call} {call call' : Call}

/-- The calls when one call stands elsewhere. -/
theorem calls_insert_insert :
    (calls.insert sockfd call).insert sockfd call' = calls.insert sockfd call' := by
  apply Std.ExtTreeMap.ext_getElem?
  intro fd
  simp only [Std.ExtTreeMap.getElem?_insert]
  split <;> rfl

/-- The calls when the only call for its descriptor has returned. -/
theorem calls_erase_insert (absent : calls[sockfd]? = none) :
    (calls.insert sockfd call).erase sockfd = calls := by
  apply Std.ExtTreeMap.ext_getElem?
  intro fd
  simp only [Std.ExtTreeMap.getElem?_erase, Std.ExtTreeMap.getElem?_insert, Std.compare_eq_iff_eq]
  by_cases same : sockfd = fd
  · subst same
    simp only [↓reduceIte, absent]
  · simp only [same, ↓reduceIte]

/-- A stretch after which the call stands elsewhere is a step of the workers. -/
theorem steps_goesOn (stretch : call.advance mgr sockfd now memory = .ok (mgr', .inl call')) :
    workerMachine.Steps ⟨mgr, calls.insert sockfd call⟩ (.advance sockfd now memory) none
      ⟨mgr', calls.insert sockfd call'⟩ := by
  refine ⟨by simp [workerMachine, Workers.enabled], ?_⟩
  simp only [workerMachine, Workers.step, Std.ExtTreeMap.getElem?_insert_self, stretch, bind,
    Except.bind, pure, Except.pure, Workers.settle, calls_insert_insert]

/-- A stretch after which the call has returned is a step of the workers. -/
theorem steps_returns (absent : calls[sockfd]? = none)
    (stretch : call.advance mgr sockfd now memory = .ok (mgr', .inr (iRet, reply'))) :
    workerMachine.Steps ⟨mgr, calls.insert sockfd call⟩ (.advance sockfd now memory)
      (some (iRet, reply')) ⟨mgr', calls⟩ := by
  refine ⟨by simp [workerMachine, Workers.enabled], ?_⟩
  simp only [workerMachine, Workers.step, Std.ExtTreeMap.getElem?_insert_self, stretch, bind,
    Except.bind, pure, Except.pure, Workers.settle, calls_erase_insert absent]

/-- The last stretch of a call. -/
theorem run_conclude (absent : calls[sockfd]? = none)
    (concluded : mgr.conclude pObj iRet reply = .ok (iRet', reply', mgr')) :
    ∃ trace,
      workerMachine.Run ⟨mgr, calls.insert sockfd ⟨pev, request, reply, .concluding pObj iRet⟩⟩
        trace ⟨mgr', calls⟩ ∧ trace.filterMap Prod.snd = [(iRet', reply')] := by
  have stretch : Call.advance ⟨pev, request, reply, .concluding pObj iRet⟩ mgr sockfd 0 true =
      .ok (mgr', .inr (iRet', reply')) := by
    simp only [Call.advance, concluded, bind, Except.bind, pure, Except.pure]
  exact ⟨_, .single (steps_returns absent stretch), rfl⟩

/-- A call of `HandleRequest` that is not interrupted is a run of the workers in which this
call returns what the function returns, and nothing else returns. -/
theorem handleRequest_run (absent : calls[sockfd]? = none)
    (handled : mgr.handleRequest pev sockfd request reply now memory = .ok (iRet, reply', mgr')) :
    ∃ trace, workerMachine.Run ⟨mgr, calls⟩ trace ⟨mgr', calls⟩ ∧
      trace.filterMap Prod.snd = [(iRet, reply')] := by
  obtain ⟨⟨found, mgr₁⟩, looked, rest⟩ := bind_eq_ok.mp handled
  have invoked : workerMachine.Steps ⟨mgr, calls⟩ (.invoke sockfd pev request reply) none
      ⟨mgr, calls.insert sockfd ⟨pev, request, reply, .entered⟩⟩ :=
    ⟨Option.isNone_iff_eq_none.mpr absent, rfl⟩
  cases found with
  | some verdict =>
    obtain ⟨pObj, verdict⟩ := verdict
    have first : Call.advance ⟨pev, request, reply, .entered⟩ mgr sockfd now memory =
        .ok (mgr₁, .inl ⟨pev, request, reply, .concluding pObj verdict⟩) := by
      simp only [Call.advance, looked, bind, Except.bind, pure, Except.pure]
    obtain ⟨trace, ran, returned⟩ := run_conclude absent rest
    exact ⟨_, .cons invoked (.cons (steps_goesOn first) ran), returned⟩
  | none =>
    have first : Call.advance ⟨pev, request, reply, .entered⟩ mgr sockfd now memory =
        .ok (mgr₁, .inl ⟨pev, request, reply, .missed⟩) := by
      simp only [Call.advance, looked, bind, Except.bind, pure, Except.pure]
    cases made : mgr₁.create memory pev with
    | none =>
      simp only [made, pure, Except.pure, Except.ok.injEq, Prod.mk.injEq] at rest
      obtain ⟨rfl, rfl, rfl⟩ := rest
      have second : Call.advance ⟨pev, request, reply, .missed⟩ mgr₁ sockfd now memory =
          .ok (mgr₁, .inr (.unknow, reply)) := by
        simp only [Call.advance, made, pure, Except.pure]
      exact ⟨_, .cons invoked (.cons (steps_goesOn first) (.single (steps_returns absent second))),
        rfl⟩
    | some new =>
      obtain ⟨pObj, mgr₂⟩ := new
      have second : Call.advance ⟨pev, request, reply, .missed⟩ mgr₁ sockfd now memory =
          .ok (mgr₂, .inl ⟨pev, request, reply, .created pObj⟩) := by
        simp only [Call.advance, made, pure, Except.pure]
      simp only [made] at rest
      obtain ⟨⟨verdict, mgr₃⟩, checked, rest⟩ := bind_eq_ok.mp rest
      by_cases deficient : verdict = .dataDef
      · have third : Call.advance ⟨pev, request, reply, .created pObj⟩ mgr₂ sockfd now memory =
            .ok (mgr₃, .inl ⟨pev, request, reply, .deficient pObj⟩) := by
          simp only [Call.advance, checked, bind, Except.bind, deficient, ne_eq, not_true_eq_false,
            ↓reduceIte, pure, Except.pure]
        have fourth : Call.advance ⟨pev, request, reply, .deficient pObj⟩ mgr₃ sockfd now memory =
            .ok (mgr₃.insert sockfd pObj, .inl ⟨pev, request, reply, .concluding pObj .dataDef⟩) :=
              rfl
        simp only [deficient, ne_eq, not_true_eq_false, ↓reduceIte] at rest
        obtain ⟨trace, ran, returned⟩ := run_conclude absent rest
        exact ⟨_, .cons invoked (.cons (steps_goesOn first) (.cons (steps_goesOn second)
          (.cons (steps_goesOn third) (.cons (steps_goesOn fourth) ran)))), returned⟩
      · have third : Call.advance ⟨pev, request, reply, .created pObj⟩ mgr₂ sockfd now memory =
            .ok (mgr₃, .inl ⟨pev, request, reply, .concluding pObj verdict⟩) := by
          simp only [Call.advance, checked, bind, Except.bind, deficient, ne_eq, not_false_eq_true,
            ↓reduceIte, pure, Except.pure]
        simp only [deficient, ne_eq, not_false_eq_true, ↓reduceIte] at rest
        obtain ⟨trace, ran, returned⟩ := run_conclude absent rest
        exact ⟨_, .cons invoked (.cons (steps_goesOn first) (.cons (steps_goesOn second)
          (.cons (steps_goesOn third) ran))), returned⟩

end

/-- `HandleRequest` keeps ownership exclusive. -/
theorem Owned.handleRequest (owned : mgr.Owned)
    (handled : mgr.handleRequest pev sockfd request reply now memory = .ok (iRet, reply', mgr')) :
    mgr'.Owned := by
  obtain ⟨trace, ran, -⟩ := handleRequest_run Std.ExtTreeMap.getElem?_empty handled
  exact Workers.owned_of_run owned ran

/-! ## The code works on the table -/

/-- An entry of the map is an entry of the table. -/
theorem Owned.table_present (owned : mgr.Owned) (present : mgr.reqHandlerMap[sockfd]? = some pObj) :
    ∃ obj, mgr.objects.get? pObj = some obj ∧ mgr.table sockfd = some obj := by
  have there : Workers.holds ⟨mgr, ∅⟩ (.inl sockfd) = some pObj := present
  obtain ⟨obj, alive⟩ := Workers.Owned.follow owned there
  exact ⟨obj, alive, by simp [table, present, alive]⟩

/-- Two entries have different handlers. -/
theorem Owned.apart (owned : mgr.Owned) {fd : Int}
    (present : mgr.reqHandlerMap[sockfd]? = some pObj)
    (other : mgr.reqHandlerMap[fd]? = some pObj) : fd = sockfd := by
  have here : Workers.holds ⟨mgr, ∅⟩ (.inl sockfd) = some pObj := present
  have there : Workers.holds ⟨mgr, ∅⟩ (.inl fd) = some pObj := other
  exact Sum.inl.inj (owned.exclusive.unique there here)

/-- The table when the handler of an entry has checked some data. -/
theorem Owned.table_checked (owned : mgr.Owned) (present : mgr.reqHandlerMap[sockfd]? = some pObj)
    (alive : mgr.objects.get? pObj = some obj) (obj' : ReqHandlerObj) :
    (mgr.checked pObj obj').table = Function.update mgr.table sockfd (some obj') := by
  funext fd
  by_cases same : fd = sockfd
  · subst same
    simp [table, checked, present, Heap.get?_set (Option.isSome_of_eq_some alive)]
  · rw [Function.update_of_ne same]
    simp only [table, checked]
    cases entry : mgr.reqHandlerMap[fd]? with
    | none => rfl
    | some other =>
      have ne : other ≠ pObj := by
        intro shared
        subst shared
        exact same (owned.apart present entry)
      simp [Heap.get?_set (Option.isSome_of_eq_some alive), ne]

/-- Checking data keeps ownership exclusive. -/
theorem Owned.checked (owned : mgr.Owned) (alive : mgr.objects.get? pObj = some obj)
    (obj' : ReqHandlerObj) : (mgr.checked pObj obj').Owned :=
  ⟨owned.exclusive.congr (Workers.live_checked alive), owned.expected⟩

/-- The table when the handler of an entry is done. -/
theorem Owned.table_done (owned : mgr.Owned) (present : mgr.reqHandlerMap[sockfd]? = some pObj)
    (alive : mgr.objects.get? pObj = some obj) (obj' : ReqHandlerObj) :
    (((mgr.checked pObj obj').taken sockfd).deleted pObj).table =
      Function.update mgr.table sockfd none := by
  have stored : (mgr.checked pObj obj').reqHandlerMap[sockfd]? = some pObj := present
  have removed := Workers.Owned.table_remove (owned.checked alive obj') stored
  rw [owned.table_checked present alive, Function.update_idem] at removed
  exact removed

/-- A handler that was made last and has checked some data. -/
theorem get?_made (mgr : MgrRequest) (pev : Nat) (obj : ReqHandlerObj) (other : Nat) :
    ((mgr.created pev).checked mgr.objects.next obj).objects.get? other =
      if other = mgr.objects.next then some obj else mgr.objects.get? other := by
  have alive : ((mgr.created pev).objects.get? mgr.objects.next).isSome = true := by
    simp [created, Heap.get?_alloc]
  simp only [MgrRequest.checked, Heap.get?_set alive]
  by_cases same : other = mgr.objects.next
  · simp only [same, ↓reduceIte]
  · simp only [same, ↓reduceIte, created, Heap.get?_alloc]

/-- The handler of an entry was made before the next one. -/
theorem Owned.ne_next (owned : mgr.Owned) (present : mgr.reqHandlerMap[sockfd]? = some pObj) :
    pObj ≠ mgr.objects.next := by
  obtain ⟨obj, alive, -⟩ := owned.table_present present
  exact Nat.ne_of_lt (Heap.lt_next_of_get? alive)

/-- The table when a new handler that needs more data is put under an unused descriptor. -/
theorem Owned.table_insert (owned : mgr.Owned) (absent : mgr.reqHandlerMap[sockfd]? = none)
    (pev : Nat) (obj : ReqHandlerObj) :
    (((mgr.created pev).checked mgr.objects.next obj).insert sockfd mgr.objects.next).table =
      Function.update mgr.table sockfd (some obj) := by
  have unused : sockfd ∉ mgr.reqHandlerMap := by simpa using absent
  funext fd
  simp only [table, insert, get?_made, Std.ExtTreeMap.getElem?_insertIfNew, Std.compare_eq_iff_eq]
  by_cases same : sockfd = fd
  · subst same
    have absentHere : sockfd ∉ ((mgr.created pev).checked mgr.objects.next obj).reqHandlerMap :=
      unused
    simp [absentHere]
  · rw [Function.update_of_ne (Ne.symm same), table, if_neg (by simp [same])]
    have sameMap : ((mgr.created pev).checked mgr.objects.next obj).reqHandlerMap =
      mgr.reqHandlerMap := rfl
    rw [sameMap]
    cases entry : mgr.reqHandlerMap[fd]? with
    | none => rfl
    | some other => simp [owned.ne_next entry]

/-- The table when a new handler is done with its first data. -/
theorem Owned.table_passing (owned : mgr.Owned) (absent : mgr.reqHandlerMap[sockfd]? = none)
    (pev : Nat) (obj : ReqHandlerObj) :
    (((mgr.created pev).checked mgr.objects.next obj).deleted mgr.objects.next).table =
      Function.update mgr.table sockfd none := by
  funext fd
  have sameMap : (((mgr.created pev).checked mgr.objects.next obj).deleted
    mgr.objects.next).reqHandlerMap = mgr.reqHandlerMap := rfl
  simp only [table, sameMap]
  by_cases same : fd = sockfd
  · subst same
    simp [absent]
  · rw [Function.update_of_ne same, table]
    cases entry : mgr.reqHandlerMap[fd]? with
    | none => rfl
    | some other =>
      have ne := owned.ne_next entry
      simp [deleted, Heap.get?_free, get?_made, ne]

/-- `HandleRequest` does what the table says. -/
theorem handleRequest_table (owned : mgr.Owned) (pev : Nat) (sockfd : Int) (request reply : Bytes)
    (now : Int) (memory : Bool) :
    (mgr.handleRequest pev sockfd request reply now memory).map
        (fun result => (result.1, result.2.1, result.2.2.table)) =
      Table.handle mgr.table pev sockfd request reply now memory := by
  cases entry : mgr.reqHandlerMap[sockfd]? with
  | some pObj =>
    obtain ⟨obj, alive, resolved⟩ := owned.table_present entry
    rw [handleRequest_present entry alive]
    simp only [Table.handle, handleEntry, resolved, Option.isNone_some, Bool.false_and,
      Bool.false_eq_true, ↓reduceIte, Option.getD_some]
    cases obj.checkData now request with
    | error e => rfl
    | ok result =>
      obtain ⟨iRet, obj'⟩ := result
      have updated := owned.table_checked entry alive obj'
      by_cases deficient : iRet = .dataDef
      · simp only [deficient, ↓reduceIte, Except.map, updated]
      · have removed := owned.table_done entry alive obj'
        simp only [deficient, ↓reduceIte, Except.map, removed]
  | none =>
    have unresolved : mgr.table sockfd = none := by simp [table, entry]
    cases memory with
    | false =>
      rw [handleRequest_noMemory entry]
      have same : Function.update mgr.table sockfd none = mgr.table := by
        rw [← unresolved, Function.update_eq_self]
      simp [Table.handle, handleEntry, unresolved, Except.map, same]
    | true =>
      rw [handleRequest_absent entry]
      simp only [Table.handle, handleEntry, unresolved, Option.isNone_none, Bool.not_true,
        Bool.and_false, Bool.false_eq_true, ↓reduceIte, Option.getD_none]
      cases (ReqHandlerObj.construct pev).checkData now request with
      | error e => rfl
      | ok result =>
        obtain ⟨iRet, obj'⟩ := result
        by_cases deficient : iRet = .dataDef
        · have added := owned.table_insert entry pev obj'
          simp only [deficient, ↓reduceIte, Except.map, added]
        · have unchanged := owned.table_passing entry pev obj'
          simp only [deficient, ↓reduceIte, Except.map, unchanged]

/-- `OnCheckActiveTime` frees the contexts of the idle entries and removes these from the
table. -/
theorem Owned.onCheckActiveTime (owned : mgr.Owned) (now : Int) :
    ∃ mgr', mgr.onCheckActiveTime now = .ok (Workers.idleContexts mgr now, mgr') ∧ mgr'.Owned ∧
      ∀ fd, mgr'.table fd = (mgr.table fd).filter fun obj => !idle now obj :=
  Workers.Owned.sweep owned now

/-- `ReleaseHandler` frees the context of an entry and removes it from the table. -/
theorem Owned.releaseHandler (owned : mgr.Owned) (sockfd : Int) :
    ∃ found mgr', mgr.releaseHandler sockfd =
        .ok (found, ((mgr.table sockfd).map ReqHandlerObj.arg).toList, mgr') ∧ mgr'.Owned ∧
      mgr'.table = Function.update mgr.table sockfd none :=
  Workers.Owned.release owned sockfd

end MgrRequest

end NetServer
