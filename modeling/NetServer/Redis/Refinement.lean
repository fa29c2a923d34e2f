import NetServer.Redis.Objects

/-!
# The reader refines the reading of trees

Behind some objects that are not its own, a reader of hiredis represents a state of `replyReader`
and the input it has not consumed (`Represents`): its buffer ends with the input, its stack has a
task for every array that is being filled, and its objects are those of these arrays. Every item
that it processes is a step or two of `replyReader` (`processTyped_simulates`), so
`redisReaderGetReply` finds the same replies, reports the same errors and has the same faults
(`redisReaderGetReply_spec`).
-/

namespace NetServer

open Lib ReplyState

/-! ## The buffer -/

namespace RedisReader

/-- The input that a reader has not consumed. -/
structure Holds (r : RedisReader) (input : Bytes) : Prop where
  buf : ∃ s, r.buf = some s ∧ s.buf.length = r.len ∧ s.buf.drop r.pos = input
  inside : r.pos ≤ r.len
  short : r.len < 2 ^ 31

variable {r : RedisReader} {input : Bytes}

/-- As many bytes are unread as the buffer holds behind the position. -/
theorem Holds.length (holds : r.Holds input) : input.length = r.len - r.pos := by
  obtain ⟨s, -, len, rfl⟩ := holds.buf
  rw [List.length_drop, len]

/-- What the buffer holds behind the position is the input. -/
theorem Holds.unread (holds : r.Holds input) : r.unread = input := by
  have length := holds.length
  obtain ⟨s, isBuf, -, rest⟩ := holds.buf
  rw [RedisReader.unread, isBuf]
  simp only [rest]
  exact List.take_of_length_le (Nat.le_of_eq length)

/-- Line ends are found in all of the input. -/
theorem Holds.seekNewline (holds : r.Holds input) : seekNewline r.unread = find crlf input := by
  have length := holds.length
  have short := holds.short
  rw [holds.unread, seekNewline_eq_find (by omega)]

/-- Input is consumed. -/
theorem Holds.advance (holds : r.Holds input) {count : Nat} (inside : count ≤ input.length) :
    { r with pos := r.pos + count }.Holds (input.drop count) := by
  have length := holds.length
  have before := holds.inside
  obtain ⟨s, isBuf, len, rest⟩ := holds.buf
  refine ⟨⟨s, isBuf, len, ?_⟩, ?_, holds.short⟩
  · rw [← rest, List.drop_drop]
  · change r.pos + count ≤ r.len
    omega

end RedisReader

/-! ## The stack -/

/-- The index of the next item in the array around it. -/
def place : List OpenArray → Int
  | [] => -1
  | array :: _ => array.element.length

/-- The tasks of arrays that are being filled. -/
def arrayTasks (base : Nat) : List OpenArray → List ReadTask
  | [] => []
  | array :: arrays =>
    ⟨some .array, array.elements, place arrays, some (base + (front base arrays).length)⟩ ::
      arrayTasks base arrays

/-- Every open array has one task. -/
theorem length_arrayTasks (base : Nat) (arrays : List OpenArray) :
    (arrayTasks base arrays).length = arrays.length := by
  induction arrays with
  | nil => rfl
  | cons array arrays ih => rw [arrayTasks, List.length_cons, ih, List.length_cons]

/-- The stack moves on as the arrays are completed. -/
theorem moveToNextTask_complete {arrays : List OpenArray} (sound : ∀ array ∈ arrays, array.Sound)
    (base : Nat) (item : ReplyTree) {cur : ReadTask} (idx : cur.idx = place arrays) :
    match complete item arrays with
    | .ok (.inl arrays') => ∃ obj, moveToNextTask (cur :: arrayTasks base arrays) =
        .ok (⟨none, -1, place arrays', obj⟩ :: arrayTasks base arrays')
    | .ok (.inr _) => moveToNextTask (cur :: arrayTasks base arrays) = .ok []
    | .error _ => False := by
  induction arrays generalizing item cur with
  | nil => rfl
  | cons array arrays ih =>
    rw [List.forall_mem_cons] at sound
    have room := sound.1.room
    have last : cur.idx = array.elements - 1 ↔ ¬(array.push item).HasRoom := by
      rw [idx, OpenArray.HasRoom]
      change (array.element.length : Int) = _ ↔ ¬((array.element ++ [item]).length : Int) <
        array.elements
      rw [OpenArray.HasRoom] at room
      rw [List.length_append, List.length_singleton]
      omega
    rw [complete, if_neg (not_not_intro room), arrayTasks, moveToNextTask,
      if_neg (not_not_intro rfl)]
    by_cases more : (array.push item).HasRoom
    · rw [if_pos more, if_neg (by rw [last]; exact not_not_intro more),
        if_pos (by rw [idx]; exact room)]
      refine ⟨cur.obj, ?_⟩
      have next : cur.idx + 1 = place (array.push item :: arrays) := by
        rw [idx]
        change (array.element.length : Int) + 1 = ((array.element ++ [item]).length : Nat)
        rw [List.length_append, List.length_singleton]
        omega
      rw [next]
      rfl
    · rw [if_neg more, if_pos (last.mpr more)]
      exact ih sound.2 _ rfl

/-! ## Objects -/

/-- The place of the next item in the vector of an array is set. -/
theorem set_vector (ids : List Nat) (next : Nat) {missing : Nat} (some' : 0 < missing) :
    (ids.map some ++ List.replicate missing none).set ids.length (some next) =
      (ids ++ [next]).map some ++ List.replicate (missing - 1) none := by
  obtain ⟨more, rfl⟩ := Nat.exists_eq_add_of_lt some'
  rw [Nat.zero_add, List.replicate_succ, List.set_append_right _ _ (by rw [List.length_map]),
    List.length_map, Nat.sub_self, List.set_cons_zero, List.map_append, List.append_assoc]
  rfl

variable {arrays : List OpenArray} {past : List (Option ReplyObject)} {task : ReadTask}

/-- A new object is stored in the vector of an array. -/
theorem createObject_vector {before body : List (Option ReplyObject)} {elements : Nat}
    {vector : List (Option Nat)} {parent : ReadTask} (obj : parent.obj = some before.length)
    (inside : 0 ≤ task.idx ∧ task.idx < vector.length) (object : ReplyObject) :
    createObject ⟨before ++ some (.array elements (some vector)) :: body⟩ task (some parent)
      object =
      .ok (before.length + 1 + body.length,
        ⟨before ++
          some (.array elements
            (some (vector.set task.idx.toNat (some (before.length + 1 + body.length))))) ::
          (body ++ [some object])⟩) := by
  have next : (Heap.mk (before ++ some (.array elements (some vector)) :: body)).next =
      before.length + 1 + body.length := by
    change (before ++ _ :: body).length = _
    rw [List.length_append, List.length_cons]
    omega
  have made : (Heap.mk (before ++ some (.array elements (some vector)) :: body)).alloc object =
      ⟨before ++ some (.array elements (some vector)) :: (body ++ [some object])⟩ := by
    rw [Heap.alloc, List.append_assoc, List.cons_append]
  unfold createObject
  simp only [next, made, obj, Heap.get?_append, if_pos inside, Heap.set_append]

/-- A new object is stored as the next element of an array. -/
theorem createObject_objects {array : OpenArray} (sound : array.Sound)
    {before : List (Option ReplyObject)} {parent : ReadTask} (obj : parent.obj = some before.length)
    (idx : task.idx = array.element.length) (object : ReplyObject) :
    createObject ⟨before ++ live (array.objects before.length [])⟩ task (some parent) object =
      .ok (array.next before.length,
        ⟨before ++ live (array.holding before.length ++ [object])⟩) := by
  have room := sound.room
  rw [OpenArray.HasRoom] at room
  have ids := ReplyTree.length_identities (before.length + 1) array.element
  rw [OpenArray.holding, OpenArray.objects, OpenArray.objects, if_pos sound.pos, if_pos sound.pos,
    OpenArray.next, List.append_nil, List.length_nil, List.length_singleton, Nat.sub_zero]
  generalize ReplyTree.layouts (before.length + 1) array.element = layouts
  generalize ReplyTree.identities (before.length + 1) array.element = identities at ids
  have inside : 0 ≤ task.idx ∧ task.idx < (identities.map some ++
      List.replicate (array.elements.toNat - array.element.length) none).length := by
    rw [idx, List.length_append, List.length_map, ids, List.length_replicate]
    omega
  rw [live_cons, List.cons_append, live_cons, live_append, createObject_vector obj inside, idx,
    Int.toNat_natCast, ← ids, set_vector identities _ (by omega), length_live]
  rfl

/-- A new object is stored in the array around it. -/
theorem createObject_sound (sound : ∀ array ∈ arrays, array.Sound) (idx : task.idx = place arrays)
    (object : ReplyObject) :
    createObject ⟨past ++ live (built past.length arrays)⟩ task
      (arrayTasks past.length arrays).head? object =
      .ok (past.length + (front past.length arrays).length,
        ⟨past ++ live (front past.length arrays ++ [object])⟩) := by
  cases arrays with
  | nil =>
    change Except.ok ((past ++ []).length, Heap.mk (past ++ [] ++ [some object])) = _
    rw [List.append_nil]
    rfl
  | cons array arrays =>
    rw [List.forall_mem_cons] at sound
    have parent : (arrayTasks past.length (array :: arrays)).head? =
      some ⟨some .array, array.elements, place arrays,
      some (past.length + (front past.length arrays).length)⟩ := rfl
    have before : past.length + (front past.length arrays).length =
        (past ++ live (front past.length arrays)).length := by
      rw [List.length_append, length_live]
    have next : past.length + (front past.length (array :: arrays)).length =
        array.next (past.length + (front past.length arrays).length) := by
      rw [front, List.length_append, ← Nat.add_assoc, OpenArray.holding,
        OpenArray.add_length_objects]
    rw [next, parent, built, front, List.append_assoc (front past.length arrays), live_append,
      live_append, before, ← List.append_assoc, ← List.append_assoc,
      createObject_objects sound.1 rfl idx]

/-- An array that was announced with a count that is no `int` has no vector to store an object
in. -/
theorem createObject_barren {array : OpenArray} (barren : array.elements ≤ 0 ∧ array.element = [])
    (object : ReplyObject) :
    createObject ⟨past ++ live (built past.length (array :: arrays))⟩ task
      (arrayTasks past.length (array :: arrays)).head? object = .error .wildStore := by
  have before : (past ++ live (front past.length arrays)).length =
      past.length + (front past.length arrays).length := by
    rw [List.length_append, length_live]
  have found : ((Heap.mk (past ++ live (built past.length (array :: arrays)))).alloc object).get?
      (past.length + (front past.length arrays).length) =
          some (.array (sizeT array.elements) none) := by
    rw [built, OpenArray.objects, if_neg (by omega), barren.2, live_append, ← List.append_assoc,
      ← before]
    change (Heap.mk ((past ++ live (front past.length arrays) ++ some _ :: []) ++
      [some object])).get? _ = _
    rw [List.append_assoc, List.cons_append]
    exact Heap.get?_append
  unfold createObject
  simp only [arrayTasks, List.head?_cons, found]

/-! ## Items -/

/-- A reader in a state, with input that it has not consumed, behind objects that are not its
own. -/
structure Represents (past : List (Option ReplyObject)) (r : RedisReader) (state : ReplyState)
    (input : Bytes) : Prop where
  err : r.err = none
  holds : r.Holds input
  stack : ∃ obj, r.rstack = ⟨state.type, -1, place state.arrays, obj⟩ ::
    arrayTasks past.length state.arrays
  reply : r.reply = if state.arrays = [] then none else some past.length
  objects : r.objects = ⟨past ++ live (built past.length state.arrays)⟩
  opened : Opened state.arrays

/-- A reader that has completed a reply. -/
structure Completed (past : List (Option ReplyObject)) (r : RedisReader) (tree : ReplyTree)
    (rest : Bytes) : Prop where
  err : r.err = none
  holds : r.Holds rest
  stack : r.rstack = []
  reply : r.reply = some past.length
  objects : r.objects = ⟨past ++ live (tree.layout past.length)⟩

/-- A reader that has given up and freed what it had made. -/
structure Failed (past : List (Option ReplyObject)) (r : RedisReader) (errstr : Bytes) : Prop where
  err : r.err = some .protocol
  errstr : r.errstr = errstr.take 127
  buf : r.buf = none
  stack : r.rstack = []
  reply : r.reply = none
  objects : ∃ count, r.objects = ⟨past ++ freed count⟩

/-- What processing an item of a reader comes to, for a step of the reader of trees. -/
def Simulates (past : List (Option ReplyObject)) (r : RedisReader)
    (result : Except HiredisFault (Bool × RedisReader))
    (reading : Reading ReplyState UInt8 ReplyTree ReplyStop) : Prop :=
  match reading with
  | .wait => result = .ok (false, r)
  | .go state rest => ∃ r', result = .ok (true, r') ∧ Represents past r' state rest
  | .emit reply after rest =>
    after = start ∧ ∃ r', result = .ok (true, r') ∧ Completed past r' reply rest
  | .stop (.error errstr) => ∃ r', result = .ok (false, r') ∧ Failed past r' errstr
  | .stop (.fault fault) => result = .error fault

variable {r : RedisReader} {state : ReplyState} {input rest : Bytes} {type : Option ReplyType}
  {cur : ReadTask}

/-- Input is consumed. -/
theorem Represents.advance (represents : Represents past r state input) {count : Nat}
    (inside : count ≤ input.length) :
    Represents past { r with pos := r.pos + count } state (input.drop count) :=
  ⟨represents.err, represents.holds.advance inside, represents.stack, represents.reply,
    represents.objects, represents.opened⟩

/-- Arrays with room for the next item have counts that are an `int`. -/
theorem Opened.sound (opened : Opened arrays) (room : hasRoom arrays) :
    ∀ array ∈ arrays, array.Sound := by
  cases arrays with
  | nil => exact fun array listed => absurd listed List.not_mem_nil
  | cons array arrays =>
    rw [hasRoom, decide_eq_true_eq] at room
    obtain sound | barren := opened.1
    · exact List.forall_mem_cons.mpr ⟨sound, opened.2⟩
    · rw [OpenArray.HasRoom, barren.2, List.length_nil] at room
      have none := barren.1
      omega

/-- Arrays with room are opened. -/
theorem Opened.of_sound (sound : ∀ array ∈ arrays, array.Sound) : Opened arrays := by
  cases arrays with
  | nil => trivial
  | cons array arrays =>
    rw [List.forall_mem_cons] at sound
    exact ⟨.inl sound.1, sound.2⟩

/-- An array without room for the next item was announced with a count that is no `int`. -/
theorem Opened.barren (opened : Opened arrays) (full : ¬hasRoom arrays) :
    ∃ array outer, arrays = array :: outer ∧ array.elements ≤ 0 ∧ array.element = [] := by
  cases arrays with
  | nil => exact absurd rfl full
  | cons array arrays =>
    rw [hasRoom, decide_eq_true_eq] at full
    obtain sound | barren := opened.1
    · exact absurd sound.room full
    · exact ⟨array, arrays, rfl, barren⟩

/-- Arrays that are not complete have room. -/
theorem complete_sound {arrays' : List OpenArray} {item : ReplyTree}
    (sound : ∀ array ∈ arrays, array.Sound)
    (completes : complete item arrays = .ok (.inl arrays')) :
    arrays ≠ [] ∧ arrays' ≠ [] ∧ ∀ array ∈ arrays', array.Sound := by
  induction arrays generalizing item with
  | nil => cases completes
  | cons array arrays ih =>
    rw [List.forall_mem_cons] at sound
    rw [complete, if_neg (not_not_intro sound.1.room)] at completes
    refine ⟨List.cons_ne_nil _ _, ?_⟩
    split at completes
    · rename_i more
      cases completes
      exact ⟨List.cons_ne_nil _ _, List.forall_mem_cons.mpr ⟨⟨more, sound.1.small⟩, sound.2⟩⟩
    · exact (ih sound.2 completes).2

/-- An item is finished when its object was created. -/
theorem RedisReader.finishItem_ok {tasks rstack : List ReadTask}
    (moved : moveToNextTask tasks = .ok rstack) (obj : Nat) (objects : Heap ReplyObject) :
    r.finishItem tasks (.ok (obj, objects)) =
      .ok (true, { r with
        reply := if tasks.length = 1 then some obj else r.reply, objects, rstack }) := by
  change (moveToNextTask tasks >>= _) = _
  rw [moved]
  rfl

/-- An item without elements is created and takes its place. -/
theorem finishItem_simulates (represents : Represents past r ⟨type, arrays⟩ rest)
    (idx : cur.idx = place arrays) (leaf : ReplyLeaf) (before : RedisReader) :
    Simulates past before (r.finishItem (cur :: arrayTasks past.length arrays)
        (createObject r.objects cur (arrayTasks past.length arrays).head? leaf.object))
      (finish arrays (.leaf leaf) rest) := by
  by_cases room : hasRoom arrays
  · have sound : ∀ array ∈ arrays, array.Sound := represents.opened.sound room
    have laidOut := complete_layout sound past.length (.leaf leaf)
    have moved := moveToNextTask_complete sound past.length (.leaf leaf) idx
    have objects : front past.length arrays ++ [leaf.object] =
      front past.length arrays ++ ReplyTree.layout (past.length + (front past.length arrays).length)
        (.leaf leaf) := rfl
    rw [represents.objects, createObject_sound sound idx, finish, objects]
    cases completes : complete (.leaf leaf) arrays with
    | error fault =>
      rw [completes] at laidOut
      exact laidOut.elim
    | ok result =>
      rw [completes] at laidOut moved
      cases result with
      | inl arrays' =>
        obtain ⟨obj, moved⟩ := moved
        obtain ⟨nonempty, nonempty', sound'⟩ := complete_sound sound completes
        have inner : (cur :: arrayTasks past.length arrays).length ≠ 1 := by
          have some' := List.length_pos_iff.mpr nonempty
          rw [List.length_cons, length_arrayTasks]
          omega
        rw [RedisReader.finishItem_ok moved]
        refine ⟨_, rfl, represents.err,
          ⟨represents.holds.buf, represents.holds.inside, represents.holds.short⟩, ⟨obj, rfl⟩, ?_,
          congrArg (fun objects => Heap.mk (past ++ live objects)) laidOut, ?_⟩
        · dsimp only
          rw [if_neg inner, if_neg nonempty', represents.reply, if_neg nonempty]
        · exact .of_sound sound'
      | inr tree =>
        rw [RedisReader.finishItem_ok moved]
        refine ⟨rfl, _, rfl, represents.err,
          ⟨represents.holds.buf, represents.holds.inside, represents.holds.short⟩, rfl, ?_,
          congrArg (fun objects => Heap.mk (past ++ live objects)) laidOut⟩
        cases arrays with
        | nil => rfl
        | cons array arrays => exact represents.reply
  · obtain ⟨array, outer, rfl, barren⟩ := represents.opened.barren room
    have full : ¬array.HasRoom := by
      rw [OpenArray.HasRoom, barren.2, List.length_nil]
      omega
    rw [represents.objects, createObject_barren barren, finish, complete, if_pos full]
    rfl

/-- An array with elements is created and its elements are read next. -/
theorem openArray_simulates {obj : Option Nat} (represents : Represents past r ⟨type, arrays⟩ rest)
    (elements : Int) (before : RedisReader) :
    Simulates past before
      (r.openArray ⟨some .array, -1, place arrays, obj⟩ (arrayTasks past.length arrays)
        (toInt elements))
      (if hasRoom arrays then .go ⟨none, ⟨toInt elements, []⟩ :: arrays⟩ rest
        else .stop (.fault .wildStore)) := by
  have range := toInt_range elements
  generalize toInt elements = count at range
  unfold RedisReader.openArray createArrayObject
  by_cases room : hasRoom arrays
  · have sound : ∀ array ∈ arrays, array.Sound := represents.opened.sound room
    have object :
      [ReplyObject.array (sizeT count) (if count > 0 then
        some (List.replicate count.toNat none) else none)] =
        OpenArray.objects (past.length + (front past.length arrays).length) [] ⟨count, []⟩ := rfl
    rw [if_pos room, represents.objects, createObject_sound sound rfl, object]
    refine ⟨_, rfl, represents.err,
      ⟨represents.holds.buf, represents.holds.inside, represents.holds.short⟩, ⟨none, rfl⟩, ?_, rfl,
      ?_, sound⟩
    · cases arrays with
      | nil => rfl
      | cons array arrays => exact represents.reply
    · by_cases positive : 0 < count
      · exact .inl ⟨positive, range.2⟩
      · exact .inr ⟨Int.not_lt.mp positive, rfl⟩
  · obtain ⟨array, outer, rfl, barren⟩ := represents.opened.barren room
    rw [if_neg room, represents.objects, createObject_barren barren]
    rfl

/-- Freeing a reader frees the objects of the unfinished reply. -/
theorem Represents.free (represents : Represents past r state input) :
    ∃ count, r.free = .ok ⟨past ++ freed count⟩ := by
  rw [RedisReader.free, represents.reply, represents.objects]
  by_cases none : state.arrays = []
  · rw [if_pos none, none]
    exact ⟨0, rfl⟩
  · rw [if_neg none]
    exact ⟨_, freeReplyObject_built past represents.opened none⟩

/-- A reader that has given up holds no objects. -/
theorem Failed.free {errstr : Bytes} (failed : Failed past r errstr) :
    ∃ count, r.free = .ok ⟨past ++ freed count⟩ := by
  obtain ⟨count, objects⟩ := failed.objects
  rw [RedisReader.free, failed.reply, objects]
  exact ⟨count, rfl⟩

/-- Giving up frees the objects of the unfinished reply. -/
theorem setError_failed (represents : Represents past r state input) (str : Bytes) :
    ∃ r', r.setError .protocol str = .ok r' ∧ Failed past r' str := by
  obtain ⟨s, isBuf, -, -⟩ := represents.holds.buf
  obtain ⟨count, frees⟩ := represents.free
  refine ⟨{ r with
    reply := none, objects := ⟨past ++ freed count⟩, buf := none, pos := 0, len := 0, rstack := [],
    err := some .protocol,
    errstr := str.take 127 }, ?_, ⟨rfl, rfl, rfl, rfl, rfl, count, rfl⟩⟩
  rw [RedisReader.setError, frees]
  simp only [isBuf, Option.isSome_some]
  rfl

/-- The object of an array that no elements follow. -/
theorem createArrayObject_eq {objects : Heap ReplyObject} {parent : Option ReadTask} {count : Int}
    (small : count < 2 ^ 31) :
    createArrayObject objects task parent count =
      createObject objects task parent (ReplyLeaf.ofCount count).object := by
  rw [createArrayObject, ReplyLeaf.ofCount]
  split_ifs with positive
  · have size : sizeT count = count.toNat - 1 + 1 := by
      rw [sizeT_of_nonneg (by omega) (by omega)]
      omega
    rw [ReplyLeaf.object, size, Nat.sub_add_cancel (by omega)]
  · rfl

/-- `readLine` finds the line of the input and moves behind it. -/
theorem readLine_eq (holds : r.Holds input) :
    r.readLine = (find crlf input).map fun len =>
      (input, len, { r with pos := r.pos + (len + 2) }) := by
  rw [RedisReader.readLine, holds.seekNewline, holds.unread]

/-- `processLineItem` reads a line as the abstract reader does. -/
theorem processLineItem_simulates {type : ReplyType} {obj : Option Nat} {leaf : Bytes → ReplyLeaf}
    (represents : Represents past r ⟨some type, arrays⟩ input)
    (creates : ∀ objects len, (if type = .integer then
        createIntegerObject objects ⟨some type, -1, place arrays,
          obj⟩ (arrayTasks past.length arrays).head?
          (readLongLong input)
      else createStringObject objects ⟨some type, -1, place arrays,
        obj⟩ (arrayTasks past.length arrays).head?
        (input.take len)) =
      createObject objects ⟨some type, -1, place arrays, obj⟩ (arrayTasks past.length arrays).head?
        (leaf (input.take len)).object) :
    Simulates past r (r.processLineItem ⟨some type, -1, place arrays,
      obj⟩ (arrayTasks past.length arrays))
      (readLineItem arrays leaf input) := by
  rw [RedisReader.processLineItem, readLine_eq represents.holds, readLineItem]
  cases found : find crlf input with
  | none => rfl
  | some len =>
    have inside := (line_append found []).2.1
    simp only [Option.map_some, Option.some.injEq, creates]
    exact finishItem_simulates (represents.advance inside) rfl _ r

/-- `processBulkItem` reads a bulk as the abstract reader does. -/
theorem processBulkItem_simulates {obj : Option Nat}
    (represents : Represents past r ⟨some .string, arrays⟩ input) :
    Simulates past r (r.processBulkItem ⟨some .string, -1, place arrays,
      obj⟩ (arrayTasks past.length arrays))
      (readBulkItem arrays input) := by
  have length := represents.holds.length
  have before := represents.holds.inside
  rw [RedisReader.processBulkItem, represents.holds.seekNewline, represents.holds.unread,
    readBulkItem]
  cases found : find crlf input with
  | none => rfl
  | some s =>
    have inside := (line_append found []).2.1
    dsimp only
    by_cases negative : readLongLong input < 0
    · rw [if_pos negative, if_pos negative]
      exact finishItem_simulates (represents.advance inside) rfl .nil r
    · rw [if_neg negative, if_neg negative]
      by_cases whole : s + 2 + ((readLongLong input).toNat + 2) ≤ input.length
      · rw [if_pos whole, if_pos (by omega)]
        exact finishItem_simulates (represents.advance whole) rfl (.string _) r
      · rw [if_neg whole, if_neg (by omega)]
        rfl

/-- `processMultiBulkItem` reads an array header as the abstract reader does. -/
theorem processMultiBulkItem_simulates {obj : Option Nat}
    (represents : Represents past r ⟨some .array, arrays⟩ input) :
    Simulates past r (r.processMultiBulkItem ⟨some .array, -1, place arrays,
      obj⟩ (arrayTasks past.length arrays))
      (readMultiBulkItem arrays input) := by
  rw [RedisReader.processMultiBulkItem, readLine_eq represents.holds, readMultiBulkItem,
    length_arrayTasks]
  by_cases nested : arrays.length = 2
  · obtain ⟨r', failed, isFailed⟩ := setError_failed represents nestedError
    rw [if_pos nested, if_pos nested, failed]
    exact ⟨r', rfl, isFailed⟩
  · rw [if_neg nested, if_neg nested]
    cases found : find crlf input with
    | none => rfl
    | some len =>
      have inside := (line_append found []).2.1
      simp only [Option.map_some]
      by_cases absent : readLongLong input = -1
      · rw [if_pos absent, if_pos absent]
        exact finishItem_simulates (represents.advance inside) rfl .nil r
      · rw [if_neg absent, if_neg absent]
        by_cases filled : readLongLong input > 0
        · rw [if_pos filled, if_pos filled]
          exact openArray_simulates (represents.advance inside) _ r
        · rw [if_neg filled, if_neg filled, createArrayObject_eq (toInt_range _).2]
          exact finishItem_simulates (represents.advance inside) rfl _ r

/-- Processing an item whose type is known is a step. -/
theorem processTyped_simulates {type : ReplyType} {obj : Option Nat}
    (represents : Represents past r ⟨some type, arrays⟩ input) :
    Simulates past r (r.processTyped ⟨some type, -1, place arrays,
      obj⟩ (arrayTasks past.length arrays))
      (replyReader.read ⟨some type, arrays⟩ input) := by
  cases type with
  | string => exact processBulkItem_simulates represents
  | array => exact processMultiBulkItem_simulates represents
  | integer =>
    change Simulates past r _ (readLineItem arrays (fun _ => .integer (readLongLong input)) input)
    exact processLineItem_simulates represents (fun _ _ => rfl)
  | nil => rfl
  | status | error => exact processLineItem_simulates represents (fun _ _ => rfl)

/-! ## Replies -/

/-- What the loop over the items comes to, for what the reader of trees comes to. -/
def Reaches (past : List (Option ReplyObject)) (result : Except HiredisFault RedisReader)
    (outcome : Outcome ReplyState UInt8 ReplyTree ReplyStop) : Prop :=
  match outcome with
  | .pause state rest => ∃ r', result = .ok r' ∧ Represents past r' state rest
  | .emit reply after rest => after = start ∧ ∃ r', result = .ok r' ∧ Completed past r' reply rest
  | .stop (.error errstr) => ∃ r', result = .ok r' ∧ Failed past r' errstr
  | .stop (.fault fault) => result = .error fault

/-- The loop goes on behind an item that is a step. -/
theorem processItems_of_simulates {before : RedisReader}
    (represents : Represents past r state input) (unfinished : before.rstack ≠ [])
    (simulates : Simulates past r before.processItem (replyReader.read state input))
    (behind : ∀ {r' state' rest}, replyReader.read state input = .go state' rest →
      Represents past r' state' rest →
      Reaches past r'.processItems (replyReader.next state' rest)) :
    Reaches past before.processItems (replyReader.next state input) := by
  have body {processed : Bool} {next : RedisReader}
    (ran : before.processItem = .ok (processed, next)) :
      before.itemsBody = .ok (if processed then .inl next else .inr next) := by
    rw [before.itemsBody_eq unfinished, ran]
    rfl
  unfold Simulates at simulates
  split at simulates
  next waits =>
    rw [Incremental.next_wait waits]
    exact ⟨r, loop_return (body simulates), represents⟩
  next state' rest goes =>
    obtain ⟨r', processed, represents'⟩ := simulates
    have continued : before.processItems = r'.processItems := loop_continue (body processed)
    rw [Incremental.next_go goes, continued]
    exact behind goes represents'
  next reply after rest emits =>
    obtain ⟨isStart, r', processed, completed⟩ := simulates
    have continued : before.processItems = r'.processItems := loop_continue (body processed)
    have ended : r'.itemsBody = .ok (.inr r') := by
      unfold RedisReader.itemsBody
      rw [completed.stack]
    rw [Incremental.next_emit emits, continued]
    exact ⟨isStart, r', loop_return ended, completed⟩
  next errstr stops =>
    obtain ⟨r', processed, failed⟩ := simulates
    rw [Incremental.next_stop stops]
    exact ⟨r', loop_return (body processed), failed⟩
  next fault stops =>
    have ended : before.itemsBody = .error fault := by
      rw [before.itemsBody_eq unfinished, simulates]
      rfl
    rw [Incremental.next_stop stops]
    exact loop_error ended

/-- The loop over the items of a reply reads as the reader of trees does. -/
theorem processItems_reaches (represents : Represents past r state input) :
    Reaches past r.processItems (replyReader.next state input) := by
  induction size : input.length using Nat.strong_induction_on generalizing r state input with
  | _ _ ih =>
    subst size
    obtain ⟨type, arrays⟩ := state
    obtain ⟨obj, stack⟩ := represents.stack
    have unfinished : r.rstack ≠ [] := by
      rw [stack]
      exact List.cons_ne_nil _ _
    cases type with
    | some type =>
      apply processItems_of_simulates represents unfinished
      · rw [RedisReader.processItem, stack]
        exact processTyped_simulates represents
      · intro r' state' rest goes represents'
        exact ih _ (replyReader.consumes _ _ _ (by rw [goes]; rfl)) represents' rfl
    | none =>
      have unread := represents.holds.unread
      cases input with
      | nil =>
        apply processItems_of_simulates represents unfinished
        · rw [RedisReader.processItem, stack, unread]
          rfl
        · intro r' state' rest goes
          cases goes
      | cons byte rest =>
        have advanced := represents.advance (Nat.succ_le_succ (Nat.zero_le rest.length))
        cases isType : typeOfByte byte with
        | none =>
          have stops : replyReader.read ⟨none, arrays⟩ (byte :: rest) =
              .stop (.error (protocolByteError byte)) := by
            change readType arrays (byte :: rest) = _
            rw [readType, isType]
          apply processItems_of_simulates represents unfinished
          · obtain ⟨r', gaveUp, failed⟩ := setError_failed advanced (protocolByteError byte)
            rw [stops, RedisReader.processItem, stack, unread]
            simp only [isType]
            rw [← stack, gaveUp]
            exact ⟨r', rfl, failed⟩
          · intro r' state' rest' goes
            rw [stops] at goes
            cases goes
        | some type =>
          -- The byte and the rest of the item are two steps.
          have goes : replyReader.read ⟨none, arrays⟩ (byte :: rest) =
              .go ⟨some type, arrays⟩ rest := by
            change readType arrays (byte :: rest) = _
            rw [readType, isType]
          have typed : Represents past { r with
              pos := r.pos + 1
              rstack := ⟨some type, -1, place arrays, obj⟩ :: arrayTasks past.length arrays }
              ⟨some type, arrays⟩ rest :=
            ⟨advanced.err, ⟨advanced.holds.buf, advanced.holds.inside, advanced.holds.short⟩,
              ⟨obj, rfl⟩, advanced.reply, advanced.objects, advanced.opened⟩
          rw [Incremental.next_go goes]
          apply processItems_of_simulates typed unfinished
          · rw [RedisReader.processItem, stack, unread]
            simp only [isType]
            exact processTyped_simulates typed
          · intro r' state' rest' goes' represents'
            have shorter := replyReader.consumes _ _ rest' (by rw [goes']; rfl)
            exact ih _ (Nat.lt_succ_of_lt shorter) represents' rfl

/-- What was not read is still there when the buffer is cut. -/
theorem cutBuffer_holds (holds : r.Holds input) :
    ∃ buf pos len, r.cutBuffer = .ok { r with buf, pos, len } ∧
      { r with buf, pos, len }.Holds input ∧ pos < 1024 := by
  obtain ⟨s, isBuf, length, rest⟩ := holds.buf
  have inside := holds.inside
  have short := holds.short
  unfold RedisReader.cutBuffer
  by_cases far : r.pos ≥ 1024
  · have tail : (s.sdsrange (toInt r.pos) (-1)).buf = input := by
      rw [toInt_of_range (by omega) (by omega), Sds.sdsrange_tail (by omega), rest]
    have shorter : input.length ≤ r.len := by
      rw [holds.length]
      omega
    refine ⟨some (s.sdsrange (toInt r.pos) (-1)), 0, (s.sdsrange (toInt r.pos) (-1)).sdslen, ?_,
      ⟨⟨_, rfl, rfl, tail⟩, Nat.zero_le _, ?_⟩, by decide⟩
    · rw [if_pos far, isBuf]
    · change (s.sdsrange (toInt r.pos) (-1)).buf.length < _
      rw [tail]
      omega
  · exact ⟨r.buf, r.pos, r.len, if_neg far, holds, Nat.lt_of_not_le far⟩

/-- A reader between two calls, with input that it has not consumed, behind objects that are not its
own. -/
structure Reads (past : List (Option ReplyObject)) (r : RedisReader) (state : ReplyState)
    (input : Bytes) : Prop where
  represents : Represents past { r with rstack := if r.rstack = [] then [rootTask] else r.rstack }
    state input
  pos : r.pos < 1024
  waits : replyReader.read state [] = .wait

/-- A new reader is between two replies. -/
theorem reads_create (past : List (Option ReplyObject)) : Reads past (.create ⟨past⟩) start [] := by
  refine ⟨⟨rfl, ⟨⟨sdsempty, rfl, rfl, rfl⟩, Nat.le_refl 0, Nat.two_pow_pos 31⟩, ⟨none, rfl⟩, rfl,
    ?_, trivial⟩, Nat.succ_pos 1023, rfl⟩
  change Heap.mk past = ⟨past ++ []⟩
  rw [List.append_nil]

/-- A reader that pauses is between two calls. -/
theorem Represents.reads (represents : Represents past r state input) (pos : r.pos < 1024)
    (waits : replyReader.read state input = .wait) : Reads past r state input := by
  refine ⟨?_, pos, ?_⟩
  · obtain ⟨obj, stack⟩ := represents.stack
    have unfinished : r.rstack ≠ [] := by
      rw [stack]
      exact List.cons_ne_nil _ _
    rwa [if_neg unfinished]
  · exact Incremental.read_nil_of_wait waits

/-- A reader that has returned a reply is between two replies. -/
theorem Completed.reads {reply : ReplyTree} (completed : Completed past r reply rest)
    (pos : r.pos < 1024) :
    Reads (past ++ live (reply.layout past.length)) { r with reply := none } start rest := by
  refine ⟨⟨completed.err, ⟨completed.holds.buf, completed.holds.inside, completed.holds.short⟩,
    ⟨none, ?_⟩, rfl, ?_, trivial⟩, pos, rfl⟩
  · dsimp only
    rw [if_pos completed.stack]
    rfl
  · change r.objects = ⟨_ ++ []⟩
    rw [completed.objects, List.append_nil]

/-- A reader does not depend on the objects that are not its own. -/
theorem Reads.replace {past' : List (Option ReplyObject)} (reads : Reads past r state input)
    (length : past'.length = past.length) :
    Reads past' { r with objects := ⟨past' ++ live (built past.length state.arrays)⟩ }
      state input := by
  have represents := reads.represents
  refine ⟨⟨represents.err, ⟨represents.holds.buf, represents.holds.inside, represents.holds.short⟩,
    ?_, ?_, ?_, represents.opened⟩, reads.pos, reads.waits⟩
  · rw [length]
    exact represents.stack
  · rw [length]
    exact represents.reply
  · rw [length]

/-- What a call that looks for a reply comes to, for what the reader of trees comes to. -/
def GetsReply (past : List (Option ReplyObject))
    (result : Except HiredisFault (Bool × Option Nat × RedisReader))
    (outcome : Outcome ReplyState UInt8 ReplyTree ReplyStop) : Prop :=
  match outcome with
  | .pause state rest => ∃ r', result = .ok (true, none, r') ∧ Reads past r' state rest
  | .emit reply after rest => after = start ∧ ∃ r', result = .ok (true, some past.length, r') ∧
      Reads (past ++ live (reply.layout past.length)) r' start rest
  | .stop (.error errstr) => ∃ r', result = .ok (false, none, r') ∧ Failed past r' errstr
  | .stop (.fault fault) => result = .error fault

/-- A call returns what the reader of trees comes to. -/
theorem redisReaderGetReply_spec (reads : Reads past r state input) :
    GetsReply past r.redisReaderGetReply (replyReader.next state input) := by
  have represents := reads.represents
  have noError : ¬r.err.isSome := by
    rw [represents.err]
    decide
  rw [RedisReader.redisReaderGetReply, if_neg noError]
  by_cases empty : r.len = 0
  · have length : input.length = r.len - r.pos := represents.holds.length
    have nothing : input = [] := List.length_eq_zero_iff.mp (by omega)
    subst nothing
    rw [if_pos empty, Incremental.next_wait reads.waits]
    exact ⟨r, rfl, reads⟩
  · have reaches := processItems_reaches represents
    rw [if_neg empty]
    unfold Reaches at reaches
    split at reaches
    next state' rest paused =>
      rw [paused]
      obtain ⟨r', processed, represents'⟩ := reaches
      obtain ⟨buf, pos, len, cut, holds, low⟩ := cutBuffer_holds represents'.holds
      obtain ⟨obj, stack⟩ := represents'.stack
      have cutRepresents : Represents past { r' with buf, pos, len } state' rest :=
        ⟨represents'.err, holds, represents'.stack, represents'.reply, represents'.objects,
          represents'.opened⟩
      refine ⟨{ r' with buf, pos, len }, ?_,
        cutRepresents.reads low (Incremental.read_of_pause paused)⟩
      have unfinished : r'.rstack ≠ [] := by
        rw [stack]
        exact List.cons_ne_nil _ _
      rw [processed]
      change (if r'.err.isSome then _ else r'.emitReply) = _
      rw [if_neg (by rw [represents'.err]; decide), RedisReader.emitReply, cut]
      exact if_neg unfinished
    next reply after rest emitted =>
      rw [emitted]
      obtain ⟨isStart, r', processed, completed⟩ := reaches
      obtain ⟨buf, pos, len, cut, holds, low⟩ := cutBuffer_holds completed.holds
      have cutCompleted : Completed past { r' with buf, pos, len } reply rest :=
        ⟨completed.err, holds, completed.stack, completed.reply, completed.objects⟩
      refine ⟨isStart, { r' with buf, pos, len, reply := none }, ?_, cutCompleted.reads low⟩
      rw [processed]
      change (if r'.err.isSome then _ else r'.emitReply) = _
      rw [if_neg (by rw [completed.err]; decide), RedisReader.emitReply, cut, ← completed.reply]
      exact if_pos completed.stack
    next errstr stopped =>
      rw [stopped]
      obtain ⟨r', processed, failed⟩ := reaches
      refine ⟨r', ?_, failed⟩
      rw [processed]
      change (if r'.err.isSome then _ else r'.emitReply) = _
      rw [if_pos (by rw [failed.err]; rfl)]
      rfl
    next fault stopped =>
      rw [stopped, reaches]
      rfl

/-- Bytes are put behind those that were not consumed, unless a string of that size is too long. -/
theorem redisReaderFeed_spec (reads : Reads past r state input) (piece : Bytes) :
    (∃ r', r.redisReaderFeed piece = .ok (true, r') ∧ Reads past r' state (input ++ piece)) ∨
      r.redisReaderFeed piece = .error .overflow ∧ 2 ^ 30 ≤ 1024 + input.length + piece.length := by
  have represents := reads.represents
  have pos := reads.pos
  have length : input.length = r.len - r.pos := represents.holds.length
  have inside : r.pos ≤ r.len := represents.holds.inside
  have noError : ¬r.err.isSome := by
    rw [represents.err]
    decide
  obtain ⟨s, isBuf, len, rest⟩ := represents.holds.buf
  change r.buf = some s at isBuf
  change s.buf.length = r.len at len
  change s.buf.drop r.pos = input at rest
  rw [RedisReader.redisReaderFeed, if_neg noError]
  by_cases nothing : piece = []
  · rw [if_pos nothing, nothing, List.append_nil]
    exact .inl ⟨r, rfl, reads⟩
  · rw [if_neg nothing, isBuf]
    -- An empty buffer may be replaced, which changes neither what it holds nor where the reader is.
    have kept : ∃ old :
      Sds, (if r.len = 0 ∧ s.sdsavail > 16 * 1024 then (sdsempty, 0) else (s, r.pos)) =
        (old, r.pos) ∧
        old.buf = s.buf := by
      split_ifs with replaced
      · have empty : s.buf = [] := List.length_eq_zero_iff.mp (by omega)
        have first : r.pos = 0 := by omega
        exact ⟨sdsempty, by rw [first], empty.symm⟩
      · exact ⟨s, rfl, rfl⟩
    obtain ⟨old, isOld, same⟩ := kept
    dsimp only
    rw [isOld]
    rcases old.sdscatlen_spec piece with ⟨free, fed, short⟩ | ⟨overflow, long⟩
    · rw [same] at fed short
      refine .inl ⟨{ r with buf := some ⟨s.buf ++ piece, free⟩, len := (s.buf ++ piece).length },
        ?_, ?_, pos, reads.waits⟩
      · dsimp only
        rw [fed]
        rfl
      · refine ⟨represents.err, ⟨⟨_, rfl, rfl, ?_⟩, ?_, ?_⟩, represents.stack, represents.reply,
          represents.objects, represents.opened⟩
        · change (s.buf ++ piece).drop r.pos = _
          rw [List.drop_append_of_le_length (by omega), rest]
        · change r.pos ≤ (s.buf ++ piece).length
          rw [List.length_append]
          omega
        · change (s.buf ++ piece).length < _
          rwa [List.length_append]
    · rw [same] at long
      refine .inr ⟨?_, by omega⟩
      dsimp only
      rw [overflow]
      rfl

end NetServer
