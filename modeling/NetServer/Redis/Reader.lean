import NetServer.Common.CStd
import NetServer.Lib.Heap
import NetServer.Lib.Loop

/-!
# The reply reader of hiredis, `redisReader`

The reader collects what the server sends in a buffer and takes replies from it. A reply is read
item by item with a stack of at most three tasks, one for each array that is being filled, and a
call that finds an item incomplete leaves the stack as it is for the next one. Reply objects are
built in memory from the outside in: an item is stored into the array of the task below it as soon
as it is created.

An object is denoted by its identity in a heap that the reader and its callers share. `rstack` holds
the tasks up to `ridx` only, the current one first, so that the parent of a task is the task behind
it. Memory that can be asked for is there; a length that does not fit the `int` in the header of a
string is a fault, and so is a failed assertion, a store outside of an array and the use of an
object that is not there.
-/

namespace NetServer

open Lib

/-- What the code of hiredis must not do. -/
inductive HiredisFault where
  /-- The length of a string does not fit its header. -/
  | overflow
  /-- A null pointer to a string or an object is followed. -/
  | null
  /-- An object that was freed is used. -/
  | dangling
  /-- Something is stored outside of an array. -/
  | wildStore
  /-- An assertion fails. -/
  | assertion
  /-- An object is part of itself. -/
  | cycle
  deriving DecidableEq, Repr

/-- `REDIS_ERR_*`. -/
inductive RedisErr where
  | io
  | other
  | eof
  | protocol
  | oom
  deriving DecidableEq, Repr

/-! ## Strings of sds.c -/

/-- A string: the bytes before its terminating null, `len` of them, and how many more fit. -/
structure Sds where
  buf : Bytes
  free : Nat
  deriving DecidableEq, Repr

/-- `sdsempty`. -/
def sdsempty : Sds := ⟨[], 0⟩

namespace Sds

variable (s : Sds)

/-- `sdslen`. -/
def sdslen : Nat := s.buf.length

/-- `sdsavail`. -/
def sdsavail : Nat := s.free

/-- `sdsMakeRoomFor`. -/
def sdsMakeRoomFor (addlen : Nat) : Except HiredisFault Sds :=
  if s.sdsavail ≥ addlen then .ok s
  else
    let len := s.sdslen
    let newlen := (len + addlen) * 2
    if newlen - len < 2 ^ 31 then .ok { s with free := newlen - len } else .error .overflow

/-- `sdscatlen`. -/
def sdscatlen (t : Bytes) : Except HiredisFault Sds := do
  let s ← s.sdsMakeRoomFor t.length
  if s.sdslen + t.length < 2 ^ 31 then return ⟨s.buf ++ t, s.free - t.length⟩ else throw .overflow

/-- `sdsrange`. -/
def sdsrange (start stop : Int) : Sds :=
  let len := s.sdslen
  if len = 0 then s
  else
    let start := if start < 0 then max (len + start) 0 else start
    let stop := if stop < 0 then max (len + stop) 0 else stop
    let newlen := if start > stop then 0 else stop - start + 1
    let (start, newlen) :=
      if newlen ≠ 0 then
        if start ≥ len then (start, 0)
        else if stop ≥ len then
          let stop := (len : Int) - 1
          (start, if start > stop then 0 else stop - start + 1)
        else (start, newlen)
      else (0, newlen)
    ⟨(s.buf.drop start.toNat).take newlen.toNat, s.free + (len - newlen.toNat)⟩

/-- Bytes are put behind a string, unless its header has no room for the length. -/
theorem sdscatlen_spec (t : Bytes) :
    (∃ free, s.sdscatlen t = .ok ⟨s.buf ++ t, free⟩ ∧ s.buf.length + t.length < 2 ^ 31) ∨
      s.sdscatlen t = .error .overflow ∧ 2 ^ 30 ≤ s.buf.length + t.length := by
  have room : (∃ free, s.sdsMakeRoomFor t.length = .ok ⟨s.buf, free⟩) ∨
      s.sdsMakeRoomFor t.length = .error .overflow ∧ 2 ^ 30 ≤ s.buf.length + t.length := by
    unfold sdsMakeRoomFor sdslen
    dsimp only
    split_ifs with fits short
    · exact .inl ⟨s.free, rfl⟩
    · exact .inl ⟨_, rfl⟩
    · exact .inr ⟨rfl, by omega⟩
  rw [sdscatlen]
  rcases room with ⟨free, room⟩ | ⟨overflow, long⟩
  · rw [room]
    change (∃ free, (if s.buf.length + t.length < 2 ^ 31 then _ else _) = _ ∧ _) ∨
      (if s.buf.length + t.length < 2 ^ 31 then _ else _) = _ ∧ _
    by_cases short : s.buf.length + t.length < 2 ^ 31
    · rw [if_pos short]
      exact .inl ⟨_, rfl, short⟩
    · rw [if_neg short]
      exact .inr ⟨rfl, by omega⟩
  · rw [overflow]
    exact .inr ⟨rfl, long⟩

/-- The end of a string is kept. -/
theorem sdsrange_tail {s : Sds} {start : Nat} (inside : start ≤ s.buf.length) :
    (s.sdsrange start (-1)).buf = s.buf.drop start := by
  unfold sdsrange sdslen
  by_cases empty : s.buf.length = 0
  · have first : start = 0 := by omega
    rw [if_pos empty, first, List.drop_zero]
  · have last : max ((s.buf.length : Int) + -1) 0 = s.buf.length - 1 := by omega
    have newlen :
      (if (start : Int) > s.buf.length - 1 then 0 else (s.buf.length : Int) - 1 - start + 1) =
        s.buf.length - start := by
      split_ifs <;> omega
    simp only [if_neg empty, if_neg (by omega : ¬(start : Int) < 0),
      if_pos (by decide : (-1 : Int) < 0), last, newlen]
    by_cases all : start = s.buf.length
    · rw [if_neg (by omega), all, List.drop_length, Int.sub_self]
      exact List.take_zero
    · have length : ((s.buf.length : Int) - start).toNat = s.buf.length - start := by omega
      rw [if_pos (by omega), if_neg (by omega), if_neg (by omega), Int.toNat_natCast, length]
      exact List.take_of_length_le (by rw [List.length_drop])

end Sds

/-! ## Objects -/

/-- `REDIS_REPLY_*`. -/
inductive ReplyType where
  | string
  | array
  | integer
  | nil
  | status
  | error
  deriving DecidableEq, Repr

/-- A `redisReply`, by its type. The vector of an array holds the identities of its elements. -/
inductive ReplyObject where
  | string (str : Bytes)
  | array (elements : Nat) (element : Option (List (Option Nat)))
  | integer (integer : Int)
  | nil
  | status (str : Bytes)
  | error (str : Bytes)
  deriving DecidableEq, Repr

/-- `freeReplyObject`, for objects that are nested no deeper than `depth`. -/
def freeNested : Nat → Heap ReplyObject → Nat → Except HiredisFault (Heap ReplyObject)
  | 0, _, _ => .error .cycle
  | depth + 1, objects, reply =>
    match objects.get? reply with
    | none => .error .dangling
    | some (.array _ (some element)) => do
      -- Elements that are null are passed over.
      let objects ← element.reduceOption.foldlM (freeNested depth) objects
      return objects.free reply
    | some _ => .ok (objects.free reply)

/-- `freeReplyObject`. There are no more objects to descend to than were made. -/
def freeReplyObject (objects : Heap ReplyObject) (reply : Nat) :
    Except HiredisFault (Heap ReplyObject) :=
  freeNested objects.next objects reply

/-- A `redisReadTask`. Its parent is the task below it in the stack. -/
structure ReadTask where
  type : Option ReplyType
  elements : Int
  idx : Int
  obj : Option Nat
  deriving DecidableEq, Repr

/-- What the functions that create an object share: a new object is stored in the array of the
parent task. -/
def createObject (objects : Heap ReplyObject) (task : ReadTask) (parent : Option ReadTask)
    (object : ReplyObject) : Except HiredisFault (Nat × Heap ReplyObject) :=
  let r := objects.next
  let objects := objects.alloc object
  match parent with
  | none => .ok (r, objects)
  | some parent =>
    match parent.obj with
    | none => .error .null
    | some obj =>
      match objects.get? obj with
      | none => .error .dangling
      | some (.array elements (some element)) =>
        if 0 ≤ task.idx ∧ task.idx < element.length then
          .ok (r, objects.set obj (.array elements (some (element.set task.idx.toNat (some r)))))
        else .error .wildStore
      | some (.array _ none) => .error .wildStore
      | some _ => .error .assertion

/-- `createStringObject`. -/
def createStringObject (objects : Heap ReplyObject) (task : ReadTask) (parent : Option ReadTask)
    (str : Bytes) : Except HiredisFault (Nat × Heap ReplyObject) :=
  match task.type with
  | some .error => createObject objects task parent (.error str)
  | some .status => createObject objects task parent (.status str)
  | some .string => createObject objects task parent (.string str)
  | _ => .error .assertion

/-- `createArrayObject`, whose count is an `int`. -/
def createArrayObject (objects : Heap ReplyObject) (task : ReadTask) (parent : Option ReadTask)
    (elements : Int) : Except HiredisFault (Nat × Heap ReplyObject) :=
  let element := if elements > 0 then some (List.replicate elements.toNat none) else none
  createObject objects task parent (.array (sizeT elements) element)

/-- `createIntegerObject`. -/
def createIntegerObject (objects : Heap ReplyObject) (task : ReadTask) (parent : Option ReadTask)
    (value : Int) : Except HiredisFault (Nat × Heap ReplyObject) :=
  createObject objects task parent (.integer value)

/-- `createNilObject`. -/
def createNilObject (objects : Heap ReplyObject) (task : ReadTask) (parent : Option ReadTask) :
    Except HiredisFault (Nat × Heap ReplyObject) :=
  createObject objects task parent .nil

/-! ## Texts -/

/-- A lower-case hexadecimal digit. -/
def lowerHex (digit : Nat) : UInt8 := UInt8.ofNat (if digit < 10 then 48 + digit else 87 + digit)

/-- `chrtos`, which spells out a byte in quotes. -/
def chrtos (byte : UInt8) : Bytes :=
  let quoted (text : Bytes) := bytes "\"" ++ text ++ bytes "\""
  if byte = 92 ∨ byte = 34 then quoted [92, byte]
  else if byte = 10 then quoted (bytes "\\n")
  else if byte = 13 then quoted (bytes "\\r")
  else if byte = 9 then quoted (bytes "\\t")
  else if byte = 7 then quoted (bytes "\\a")
  else if byte = 8 then quoted (bytes "\\b")
  else if 32 ≤ byte ∧ byte < 127 then quoted [byte]
  else quoted (bytes "\\x" ++ [lowerHex (byte.toNat / 16), lowerHex (byte.toNat % 16)])

/-- `seekNewline`: the first line end of a text, as far as the `int` for its length reaches. -/
def seekNewline (s : Bytes) : Option Nat := find crlf (s.take (toInt (s.length - 1) + 1).toNat)

/-- A line end lies inside of the text. -/
theorem seekNewline_inside {s : Bytes} {position : Nat} (found : seekNewline s = some position) :
    position + 2 ≤ s.length := by
  obtain ⟨before, after, split, rfl, -⟩ := find_eq_some (List.cons_ne_nil _ _) found
  have shorter := congrArg List.length split
  rw [List.length_take, List.length_append, List.length_append] at shorter
  change _ = before.length + 2 + _ at shorter
  omega

/-- In a text whose length is an `int` all of it is looked at. -/
theorem seekNewline_eq_find {s : Bytes} (short : s.length < 2 ^ 31) :
    seekNewline s = find crlf s := by
  have whole : toInt (s.length - 1) = s.length - 1 := toInt_of_range (by omega) (by omega)
  rw [seekNewline, whole, Int.sub_add_cancel, Int.toNat_natCast, List.take_length]

/-- Conversion to `long long`. -/
def toLongLong (value : Int) : Int := Int.bmod value (2 ^ 64)

/-- The digits that `readLongLong` reads up to a carriage return, and nothing if there is another
character. -/
def digitsBefore (v : Int) : Bytes → Option Int
  | [] => some v
  | c :: s =>
    if c = 13 then some v
    else if 48 ≤ c ∧ c ≤ 57 then digitsBefore (toLongLong (v * 10 + (c.toNat - 48))) s
    else none

/-- The sign in front of a number, and what follows it. -/
def readSign : Bytes → Int × Bytes
  | [] => (1, [])
  | c :: s => if c = 45 then (-1, s) else if c = 43 then (1, s) else (1, c :: s)

/-- `readLongLong`, at a text with a line end. -/
def readLongLong (s : Bytes) : Int :=
  match digitsBefore 0 (readSign s).2 with
  | some v => toLongLong ((readSign s).1 * v)
  | none => -1

/-! ## The reader -/

/-- The fields of `redisReader`, with the objects in memory. -/
structure RedisReader where
  err : Option RedisErr
  errstr : Bytes
  buf : Option Sds
  pos : Nat
  len : Nat
  rstack : List ReadTask
  reply : Option Nat
  objects : Heap ReplyObject
  deriving DecidableEq, Repr

/-- `moveToNextTask`: finished arrays leave the stack, and the next element takes the place of the
current one. -/
def moveToNextTask : List ReadTask → Except HiredisFault (List ReadTask)
  | [] | [_] => .ok []
  | cur :: prv :: tasks =>
    if prv.type ≠ some .array then .error .assertion
    else if cur.idx = prv.elements - 1 then moveToNextTask (prv :: tasks)
    else if cur.idx < prv.elements then
      .ok ({ cur with type := none, elements := -1, idx := cur.idx + 1 } :: prv :: tasks)
    else .error .assertion

/-- The type that a byte announces. -/
def typeOfByte (byte : UInt8) : Option ReplyType :=
  if byte = 45 then some .error
  else if byte = 43 then some .status
  else if byte = 58 then some .integer
  else if byte = 36 then some .string
  else if byte = 42 then some .array
  else none

/-- The error of a byte that announces no type. -/
def protocolByteError (byte : UInt8) : Bytes :=
  bytes "Protocol error, got " ++ chrtos byte ++ bytes " as reply type byte"

/-- The error of arrays that are nested too deeply. -/
def nestedError : Bytes := bytes "No support for nested multi bulk replies with depth > 1"

/-- The task that every reply starts with. -/
def rootTask : ReadTask := ⟨none, -1, -1, none⟩

namespace RedisReader

/-- `redisReaderCreate`. -/
def create (objects : Heap ReplyObject) : RedisReader :=
  ⟨none, [], some sdsempty, 0, 0, [], none, objects⟩

variable (r : RedisReader)

/-- The bytes at `buf+pos`, up to `len`. -/
def unread : Bytes :=
  match r.buf with
  | some buf => (buf.buf.drop r.pos).take (r.len - r.pos)
  | none => []

/-- `redisReaderFree`, which gives back the objects of an unfinished reply. -/
def free : Except HiredisFault (Heap ReplyObject) :=
  match r.reply with
  | some reply => freeReplyObject r.objects reply
  | none => .ok r.objects

/-- `__redisReaderSetError`. -/
def setError (type : RedisErr) (str : Bytes) : Except HiredisFault RedisReader := do
  let objects ← r.free
  let r := { r with reply := none, objects }
  let r := if r.buf.isSome then { r with buf := none, pos := 0, len := 0 } else r
  return { r with rstack := [], err := some type, errstr := str.take 127 }

/-- `readLine`: the text at the line and its length. -/
def readLine : Option (Bytes × Nat × RedisReader) :=
  (seekNewline r.unread).map fun len => (r.unread, len, { r with pos := r.pos + (len + 2) })

/-- An item is finished when its object was created: it is the reply if it is the outermost one, and
the stack moves on. -/
def finishItem (tasks : List ReadTask) (created : Except HiredisFault (Nat × Heap ReplyObject)) :
    Except HiredisFault (Bool × RedisReader) := do
  let (obj, objects) ← created
  let reply := if tasks.length = 1 then some obj else r.reply
  let rstack ← moveToNextTask tasks
  return (true, { r with reply, objects, rstack })

/-- `processLineItem`. -/
def processLineItem (cur : ReadTask) (tasks : List ReadTask) :
    Except HiredisFault (Bool × RedisReader) :=
  match r.readLine with
  | none => .ok (false, r)
  | some (p, len, r) =>
    r.finishItem (cur :: tasks)
      (if cur.type = some .integer then
        createIntegerObject r.objects cur tasks.head? (readLongLong p)
      else createStringObject r.objects cur tasks.head? (p.take len))

/-- `processBulkItem`. -/
def processBulkItem (cur : ReadTask) (tasks : List ReadTask) :
    Except HiredisFault (Bool × RedisReader) :=
  let p := r.unread
  match seekNewline p with
  | none => .ok (false, r)
  | some s =>
    let bytelen := s + 2
    let len := readLongLong p
    if len < 0 then
      { r with pos := r.pos + bytelen }.finishItem (cur :: tasks)
        (createNilObject r.objects cur tasks.head?)
    else
      let bytelen := bytelen + (len.toNat + 2)
      if r.pos + bytelen ≤ r.len then
        { r with pos := r.pos + bytelen }.finishItem (cur :: tasks)
          (createStringObject r.objects cur tasks.head? ((p.drop (s + 2)).take len.toNat))
      else .ok (false, r)

/-- An array of one element or more is created: its elements are the next tasks. -/
def openArray (cur : ReadTask) (tasks : List ReadTask) (elements : Int) :
    Except HiredisFault (Bool × RedisReader) := do
  let (obj, objects) ← createArrayObject r.objects cur tasks.head? elements
  let cur := { cur with elements, obj := some obj }
  let reply := if tasks.length = 0 then some obj else r.reply
  return (true, { r with reply, objects, rstack := ⟨none, -1, 0, none⟩ :: cur :: tasks })

/-- `processMultiBulkItem`. The count that is compared with zero is a `long`, the one that is stored
an `int`. -/
def processMultiBulkItem (cur : ReadTask) (tasks : List ReadTask) :
    Except HiredisFault (Bool × RedisReader) :=
  if tasks.length = 2 then do
    let r ← r.setError .protocol nestedError
    return (false, r)
  else
    match r.readLine with
    | none => .ok (false, r)
    | some (p, _, r) =>
      let elements := readLongLong p
      if elements = -1 then r.finishItem (cur :: tasks) (createNilObject r.objects cur tasks.head?)
      else if elements > 0 then r.openArray cur tasks (toInt elements)
      else r.finishItem (cur :: tasks)
        (createArrayObject r.objects cur tasks.head? (toInt elements))

/-- The end of `processItem`, for an item whose type is known. -/
def processTyped (cur : ReadTask) (tasks : List ReadTask) :
    Except HiredisFault (Bool × RedisReader) :=
  match cur.type with
  | some .error | some .status | some .integer => r.processLineItem cur tasks
  | some .string => r.processBulkItem cur tasks
  | some .array => r.processMultiBulkItem cur tasks
  | _ => .error .assertion

/-- `processItem`, where the result tells whether an item was processed. The type of an item is kept
in its task when the rest of it is missing. -/
def processItem : Except HiredisFault (Bool × RedisReader) :=
  match r.rstack with
  | [] => .error .assertion
  | cur :: tasks =>
    if cur.type = none then
      match r.unread with
      | [] => .ok (false, r)
      | byte :: _ =>
        match typeOfByte byte with
        | some type =>
          let cur := { cur with type := some type }
          { r with pos := r.pos + 1, rstack := cur :: tasks }.processTyped cur tasks
        | none => do
          let r ← { r with pos := r.pos + 1 }.setError .protocol (protocolByteError byte)
          return (false, r)
    else r.processTyped cur tasks

/-- `redisReaderFeed`. -/
def redisReaderFeed (buf : Bytes) : Except HiredisFault (Bool × RedisReader) :=
  if r.err.isSome then .ok (false, r)
  else if buf = [] then .ok (true, r)
  else
    match r.buf with
    | none => .error .null
    | some old => do
      let (old, pos) := if r.len = 0 ∧ old.sdsavail > 16 * 1024 then (sdsempty, 0) else (old, r.pos)
      let newbuf ← old.sdscatlen buf
      return (true, { r with buf := some newbuf, pos, len := newbuf.sdslen })

/-- A pass of the loop over the items of a reply. -/
def itemsBody (r : RedisReader) : Except HiredisFault (RedisReader ⊕ RedisReader) :=
  match r.rstack with
  | [] => .ok (.inr r)
  | _ :: _ => do
    let (processed, r) ← r.processItem
    return if processed then .inl r else .inr r

/-- While the stack holds a task the loop processes one item. -/
theorem itemsBody_eq (unfinished : r.rstack ≠ []) :
    r.itemsBody = r.processItem >>= fun result =>
      .ok (if result.1 then .inl result.2 else .inr result.2) := by
  unfold itemsBody
  split
  · contradiction
  · rfl

/-! ### The loop ends -/

/-- A processed item was read from the buffer. -/
structure Advances (r next : RedisReader) : Prop where
  len : next.len = r.len
  pos : r.pos < next.pos
  inside : next.pos ≤ r.len

variable {r} {next : RedisReader} {cur : ReadTask} {tasks : List ReadTask}

/-- A line end lies before the end of the buffer. -/
theorem pos_add_le_len {position : Nat} (found : seekNewline r.unread = some position) :
    r.pos + (position + 2) ≤ r.len := by
  have inside := seekNewline_inside found
  have unread : r.unread.length ≤ r.len - r.pos := by
    unfold RedisReader.unread
    split
    · rw [List.length_take]
      omega
    · exact Nat.zero_le _
  omega

/-- An item that is finished was read as far as the position tells. -/
theorem Advances.of_finish {read : RedisReader}
    {created : Except HiredisFault (Nat × Heap ReplyObject)}
    (finished : read.finishItem tasks created = .ok (true, next)) (len : read.len = r.len)
    (pos : r.pos < read.pos) (inside : read.pos ≤ r.len) : Advances r next := by
  obtain ⟨object, -, stored⟩ := bind_eq_ok.mp finished
  obtain ⟨rstack, -, isNext⟩ := bind_eq_ok.mp stored
  cases isNext
  exact ⟨len, pos, inside⟩

/-- A processed line moves the reader on. -/
theorem processLineItem_advances (processed : r.processLineItem cur tasks = .ok (true, next)) :
    Advances r next := by
  unfold processLineItem readLine at processed
  cases found : seekNewline r.unread with
  | none => simp [found] at processed
  | some len =>
    rw [found] at processed
    exact .of_finish processed rfl (Nat.lt_add_of_pos_right (Nat.succ_pos _)) (pos_add_le_len found)

/-- A processed bulk moves the reader on. -/
theorem processBulkItem_advances (processed : r.processBulkItem cur tasks = .ok (true, next)) :
    Advances r next := by
  unfold processBulkItem at processed
  cases found : seekNewline r.unread with
  | none => simp [found] at processed
  | some s =>
    have inside := pos_add_le_len found
    simp only [found] at processed
    split at processed
    · exact .of_finish processed rfl (Nat.lt_add_of_pos_right (Nat.succ_pos _)) inside
    · split at processed
      · rename_i whole
        exact .of_finish processed rfl (Nat.lt_add_of_pos_right (Nat.succ_pos _)) whole
      · simp at processed

/-- A processed array header moves the reader on. -/
theorem processMultiBulkItem_advances
    (processed : r.processMultiBulkItem cur tasks = .ok (true, next)) : Advances r next := by
  unfold processMultiBulkItem readLine at processed
  split at processed
  · obtain ⟨failed, -, isNext⟩ := bind_eq_ok.mp processed
    cases isNext
  · cases found : seekNewline r.unread with
    | none => simp [found] at processed
    | some len =>
      have inside := pos_add_le_len found
      have behind : r.pos < r.pos + (len + 2) := Nat.lt_add_of_pos_right (Nat.succ_pos _)
      simp only [found, Option.map_some] at processed
      split at processed
      · exact .of_finish processed rfl behind inside
      · split at processed
        · obtain ⟨created, -, isNext⟩ := bind_eq_ok.mp processed
          cases isNext
          exact ⟨rfl, behind, inside⟩
        · exact .of_finish processed rfl behind inside

/-- A processed item of any type moves the reader on. -/
theorem processTyped_advances (processed : r.processTyped cur tasks = .ok (true, next)) :
    Advances r next := by
  unfold processTyped at processed
  split at processed
  · exact processLineItem_advances processed
  · exact processLineItem_advances processed
  · exact processLineItem_advances processed
  · exact processBulkItem_advances processed
  · exact processMultiBulkItem_advances processed
  · cases processed

/-- A processed item moves the reader on. -/
theorem processItem_advances (processed : r.processItem = .ok (true, next)) : Advances r next := by
  unfold processItem at processed
  split at processed
  · cases processed
  · split at processed
    · split at processed
      · simp at processed
      · split at processed
        · have advances := processTyped_advances processed
          exact ⟨advances.len, Nat.lt_of_succ_lt advances.pos, advances.inside⟩
        · obtain ⟨failed, -, isNext⟩ := bind_eq_ok.mp processed
          cases isNext
    · exact processTyped_advances processed

/-- Every pass of the loop that goes on leaves fewer bytes unread. -/
theorem itemsBody_shrinks (r next : RedisReader) (continued : r.itemsBody = .ok (.inl next)) :
    next.len - next.pos < r.len - r.pos := by
  unfold itemsBody at continued
  split at continued
  · cases continued
  · obtain ⟨⟨processed, reached⟩, ran, isNext⟩ := bind_eq_ok.mp continued
    cases processed
    · cases isNext
    · cases isNext
      have advances := processItem_advances ran
      have behind := advances.pos
      have inside := advances.inside
      rw [advances.len]
      omega

end RedisReader

namespace RedisReader

variable (r : RedisReader)

/-- The loop over the items of a reply. -/
def processItems : Except HiredisFault RedisReader :=
  loop itemsBody (fun r => r.len - r.pos) itemsBody_shrinks r

/-- A buffer of which much was read is cut. -/
def cutBuffer : Except HiredisFault RedisReader :=
  if r.pos ≥ 1024 then
    match r.buf with
    | none => .error .null
    | some buf =>
      let buf := buf.sdsrange (toInt r.pos) (-1)
      .ok { r with buf := some buf, pos := 0, len := buf.sdslen }
  else .ok r

/-- What is done behind the loop when there is no error: a reply is returned if the loop finished
it. -/
def emitReply : Except HiredisFault (Bool × Option Nat × RedisReader) := do
  let r ← r.cutBuffer
  if r.rstack = [] then return (true, r.reply, { r with reply := none }) else return (true, none, r)

/-- `redisReaderGetReply`, with what it returns and the reply it finds. -/
def redisReaderGetReply : Except HiredisFault (Bool × Option Nat × RedisReader) :=
  if r.err.isSome then .ok (false, none, r)
  else if r.len = 0 then .ok (true, none, r)
  else do
    let r ← { r with rstack := if r.rstack = [] then [rootTask] else r.rstack }.processItems
    if r.err.isSome then return (false, none, r) else r.emitReply

end RedisReader

end NetServer
