import NetServer.Redis.Client

/-!
# What the forms of `ExecCommand` report

The five forms of `CRedisClient::ExecCommand` differ in the type of their result. One would expect
of each that it returns 0 exactly for the replies of its type, with the content of the reply as the
result, and that it returns -1 and leaves the result alone otherwise. Each of the five misses this
in its own way: the form without a result takes an error for a success, that for numbers clears its
result before it knows, that for strings adds to its result and fails when there is no string to
add, and strings and numbers are cut to what a C string and an `int` can hold.
-/

namespace NetServer

/-- The forms of `CRedisClient::ExecCommand`, by their result. Each has a twin that takes the
command as `const char*` and only calls it. -/
inductive Overload where
  | plain
  | string
  | int
  | ints
  | strings
  deriving DecidableEq, Repr

namespace Overload

/-- The type of the result. -/
def Result : Overload → Type
  | plain => Unit
  | string => Bytes
  | int => Int
  | ints => List Int
  | strings => List Bytes

/-- The forms on a client, with the reply that arrives and the result as it was before. -/
def exec (client : RedisClient) (reply : Option RedisReply) :
    (overload : Overload) → overload.Result → Except ClientFault (Int × overload.Result)
  | plain, _ => do return (← client.execCommand reply, ())
  | string, result => client.execString reply result
  | int, result => client.execInt reply result
  | ints, _ => client.execInts reply
  | strings, result => client.execStrings reply result

/-! ## What a reply holds -/

/-- The number of an element. -/
def integer? : Option RedisReply → Option Int
  | some (.integer integer) => some integer
  | _ => none

/-- The string of an element. -/
def str? : Option RedisReply → Option Bytes
  | some (.string str) => str
  | _ => none

/-- The content of a reply for a form, if the reply is no error and has its type: a string, a
number, the numbers or the strings of an array, and nothing for the form without a result. -/
def payload : (overload : Overload) → RedisReply → Option overload.Result
  | plain, .error _ => none
  | plain, _ => some ()
  | string, reply => str? (some reply)
  | int, reply => integer? (some reply)
  | ints, .array element => some (element.filterMap integer?)
  | ints, _ => none
  | strings, .array element => some (element.filterMap str?)
  | strings, _ => none

/-- The report that a form owes: 0 and the content, or -1 and the result as it was. -/
def report {ρ : Type} (content : Option ρ) (result : ρ) : Int × ρ :=
  match content with
  | some content => (0, content)
  | none => (-1, result)

/-- The replies and earlier results for which a form makes its report. -/
def Meets : (overload : Overload) → Option RedisReply → overload.Result → Prop
  | plain, reply, _ => ∀ str, reply ≠ some (.error str)
  | string, reply, _ => ∀ str, reply = some (.string (some str)) → 0 ∉ str
  | int, reply, _ =>
    ∀ integer, reply = some (.integer integer) → -2 ^ 31 ≤ integer ∧ integer < 2 ^ 31
  | ints, some (.array element), _ =>
    ∀ integer, some (.integer integer) ∈ element → -2 ^ 31 ≤ integer ∧ integer < 2 ^ 31
  | ints, _, result => result = ([] : List Int)
  | strings, some (.array element), result =>
    result = ([] : List Bytes) ∧ (∃ str, some (.string (some str)) ∈ element) ∧
      ∀ str, some (.string (some str)) ∈ element → 0 ∉ str
  | strings, _, _ => True

/-! ## The forms one by one -/

variable {client : RedisClient} {reply : Option RedisReply}

/-- An element has a number exactly when it is this reply. -/
theorem integer?_eq_some {element : Option RedisReply} {integer : Int} :
    integer? element = some integer ↔ element = some (.integer integer) := by
  unfold integer?
  split
  · rw [Option.some.injEq, Option.some.injEq, RedisReply.integer.injEq]
  · rename_i other
    constructor
    · intro none
      cases none
    · intro isInteger
      exact absurd isInteger (other integer)

/-- An element has a string exactly when it is this reply. -/
theorem str?_eq_some {element : Option RedisReply} {str : Bytes} :
    str? element = some str ↔ element = some (.string (some str)) := by
  unfold str?
  split
  · rw [Option.some.injEq, RedisReply.string.injEq]
  · rename_i other
    constructor
    · intro none
      cases none
    · intro isString
      exact absurd isString (other (some str))

/-- The numbers of an array. -/
theorem mem_filterMap_integer? {element : List (Option RedisReply)} {integer : Int} :
    integer ∈ element.filterMap integer? ↔ some (.integer integer) ∈ element := by
  simp only [List.mem_filterMap, integer?_eq_some, exists_eq_right]

/-- The strings of an array. -/
theorem mem_filterMap_str? {element : List (Option RedisReply)} {str : Bytes} :
    str ∈ element.filterMap str? ↔ some (.string (some str)) ∈ element := by
  simp only [List.mem_filterMap, str?_eq_some, exists_eq_right]

/-- A map leaves a list alone exactly when it leaves its entries alone. -/
theorem map_eq_self_iff {α : Type} {map : α → α} {list : List α} :
    list.map map = list ↔ ∀ entry ∈ list, map entry = entry := by
  conv_lhs => rw [← List.map_id list]
  rw [List.map_map, Function.comp_id, List.map_inj_left]
  rfl

/-- A number is stored as it is exactly when it is an `int`. -/
theorem toInt_eq_self {integer : Int} :
    toInt integer = integer ↔ -2 ^ 31 ≤ integer ∧ integer < 2 ^ 31 := by
  constructor
  · intro same
    have range := toInt_range integer
    rwa [same] at range
  · intro range
    exact toInt_of_range range.1 range.2

/-- The form for numbers stores the numbers of an array, each as an `int`. -/
theorem execInts_array (connected : client.pRedisContext = true)
    (element : List (Option RedisReply)) :
    client.execInts (some (.array element)) = .ok (0, (element.filterMap integer?).map toInt) := by
  rw [RedisClient.execInts, RedisClient.redisCommand, if_pos connected, List.map_filterMap]
  apply congrArg fun numbers => Except.ok ((0 : Int), numbers)
  apply List.filterMap_congr
  intro reply listed
  rcases reply with _ | (_ | _ | _ | _ | _ | _) <;> rfl

/-- The form for strings adds the strings of an array, each up to its first null. -/
theorem execStrings_array (connected : client.pRedisContext = true)
    (element : List (Option RedisReply)) (result : List Bytes) :
    client.execStrings (some (.array element)) result =
      .ok (if element.filterMap str? = [] then
        -1 else 0, result ++ (element.filterMap str?).map cString) := by
  have none : element.filterMap str? = [] ↔ (element.filterMap str?).map cString = [] :=
    List.map_eq_nil_iff.symm
  simp only [none]
  rw [RedisClient.execStrings, RedisClient.redisCommand, if_pos connected, List.map_filterMap]
  apply congrArg fun strings =>
    Except.ok ((if strings = [] then -1 else 0 : Int), result ++ strings)
  apply List.filterMap_congr
  intro reply listed
  rcases reply with _ | ((_ | str) | _ | _ | _ | _ | _) <;> rfl

/-- Without a context no form returns. -/
theorem exec_null (overload : Overload) (null : client.pRedisContext = false)
    (result : overload.Result) : exec client reply overload result = .error .nullContext := by
  cases overload <;>
    simp only [exec, RedisClient.execCommand, RedisClient.execString, RedisClient.execInt,
      RedisClient.execInts, RedisClient.execStrings, RedisClient.redisCommand, null,
      Bool.false_eq_true, ↓reduceIte] <;> rfl

/-- The form without a result takes every reply for a success. -/
theorem execCommand_reports_iff (connected : client.pRedisContext = true) (result : Unit) :
    exec client reply plain result = .ok (report (reply.bind plain.payload) result) ↔
      ∀ str, reply ≠ some (.error str) := by
  have ran : exec client reply plain result = .ok (if reply.isSome then 0 else -1, result) := by
    simp only [exec, RedisClient.execCommand, RedisClient.redisCommand, connected, ↓reduceIte]
    cases reply <;> rfl
  rw [ran, Except.ok.injEq]
  rcases reply with _ | (_ | _ | _ | _ | _ | str)
  case some.error =>
    change ((0 : Int), result) = (-1, result) ↔ _
    simp
  all_goals
    apply iff_of_true rfl
    simp

/-- The form for a string stores it up to its first null. -/
theorem execString_reports_iff (connected : client.pRedisContext = true) (result : Bytes) :
    client.execString reply result = .ok (report (reply.bind string.payload) result) ↔
      ∀ str, reply = some (.string (some str)) → 0 ∉ str := by
  simp only [RedisClient.execString, RedisClient.redisCommand, connected, ↓reduceIte]
  rcases reply with _ | ((_ | str) | _ | _ | _ | _ | _)
  case some.string.some =>
    change Except.ok (0, cString str) = Except.ok (0, str) ↔ _
    simp [cString_eq_self]
  all_goals
    apply iff_of_true rfl
    simp

/-- The form for a number stores it as an `int`. -/
theorem execInt_reports_iff (connected : client.pRedisContext = true) (result : Int) :
    client.execInt reply result = .ok (report (reply.bind int.payload) result) ↔
      ∀ integer, reply = some (.integer integer) → -2 ^ 31 ≤ integer ∧ integer < 2 ^ 31 := by
  simp only [RedisClient.execInt, RedisClient.redisCommand, connected, ↓reduceIte]
  rcases reply with _ | (_ | _ | integer | _ | _ | _)
  case some.integer =>
    change Except.ok (0, toInt integer) = Except.ok (0, integer) ↔ _
    simp [toInt_eq_self]
  all_goals
    apply iff_of_true rfl
    simp

/-- The form for numbers empties its result first, whatever arrives. -/
theorem execInts_reports_iff (connected : client.pRedisContext = true) (result : List Int) :
    client.execInts reply = .ok (report (reply.bind ints.payload) result) ↔
      Meets ints reply result := by
  rcases reply with _ | (_ | element | _ | _ | _ | _)
  case some.array =>
    have stored : (element.filterMap integer?).map toInt = element.filterMap integer? ↔
        ∀ integer, some (.integer integer) ∈ element → -2 ^ 31 ≤ integer ∧ integer < 2 ^ 31 := by
      rw [map_eq_self_iff]
      apply forall_congr'
      intro integer
      rw [mem_filterMap_integer?, toInt_eq_self]
    rw [execInts_array connected, Except.ok.injEq]
    change ((0 : Int), (element.filterMap integer?).map toInt) = (0, element.filterMap integer?) ↔ _
    rw [Prod.mk.injEq, and_iff_right rfl, stored]
    rfl
  all_goals
    simp only [RedisClient.execInts, RedisClient.redisCommand, connected, ↓reduceIte]
    change Except.ok (-1, []) = Except.ok (-1, result) ↔ result = []
    simp [eq_comm]

/-- Strings stored up to their first null are the strings themselves exactly when they have none. -/
theorem map_cString_filterMap_str? {element : List (Option RedisReply)} :
    (element.filterMap str?).map cString = element.filterMap str? ↔
      ∀ str, some (.string (some str)) ∈ element → 0 ∉ str := by
  rw [map_eq_self_iff]
  apply forall_congr'
  intro str
  rw [mem_filterMap_str?, cString_eq_self]

/-- An array has a string to add. -/
theorem filterMap_str?_ne_nil {element : List (Option RedisReply)} :
    element.filterMap str? ≠ [] ↔ ∃ str, some (.string (some str)) ∈ element := by
  constructor
  · intro nonempty
    obtain ⟨str, listed⟩ := List.exists_mem_of_ne_nil _ nonempty
    exact ⟨str, mem_filterMap_str?.mp listed⟩
  · rintro ⟨str, listed⟩
    exact List.ne_nil_of_mem (mem_filterMap_str?.mpr listed)

/-- A map keeps the number of entries, so nothing can stand in front of a list that it leaves
alone. -/
theorem append_map_eq_self_iff {α : Type} {map : α → α} {front list : List α} :
    front ++ list.map map = list ↔ front = [] ∧ list.map map = list := by
  constructor
  · intro same
    have lengths := congrArg List.length same
    rw [List.length_append, List.length_map] at lengths
    have empty : front = [] := List.eq_nil_of_length_eq_zero (by omega)
    rw [empty, List.nil_append] at same
    exact ⟨empty, same⟩
  · rintro ⟨rfl, same⟩
    exact same

/-- The form for strings adds to its result, and fails when it has nothing to add. -/
theorem execStrings_reports_iff (connected : client.pRedisContext = true) (result : List Bytes) :
    client.execStrings reply result = .ok (report (reply.bind strings.payload) result) ↔
      Meets strings reply result := by
  rcases reply with _ | (_ | element | _ | _ | _ | _)
  case some.array =>
    have code : (if element.filterMap str? = [] then -1 else 0 : Int) = 0 ↔
        element.filterMap str? ≠ [] := by
      by_cases empty : element.filterMap str? = []
      · simp [empty]
      · simp [empty]
    rw [execStrings_array connected, Except.ok.injEq]
    change ((if element.filterMap str? = [] then -1 else 0 : Int),
      result ++ (element.filterMap str?).map cString) =
      (0, element.filterMap str?) ↔ result = [] ∧ (∃ str, some (.string (some str)) ∈ element) ∧
        ∀ str, some (.string (some str)) ∈ element → 0 ∉ str
    rw [Prod.mk.injEq, code, append_map_eq_self_iff, ← filterMap_str?_ne_nil,
      ← map_cString_filterMap_str?, and_left_comm]
  all_goals
    simp only [RedisClient.execStrings, RedisClient.redisCommand, connected, ↓reduceIte]
    apply iff_of_true rfl
    trivial

/-! ## The report -/

/-- A form makes its report exactly when the client has a context and the reply and the earlier
result are among those of the form. -/
theorem exec_reports_iff (overload : Overload) (client : RedisClient) (reply : Option RedisReply)
    (result : overload.Result) :
    exec client reply overload result = .ok (report (reply.bind overload.payload) result) ↔
      client.pRedisContext = true ∧ overload.Meets reply result := by
  cases context : client.pRedisContext with
  | false =>
    rw [exec_null overload context]
    simp
  | true =>
    rw [and_iff_right rfl]
    cases overload with
    | plain => exact execCommand_reports_iff context result
    | string => exact execString_reports_iff context result
    | int => exact execInt_reports_iff context result
    | ints => exact execInts_reports_iff context result
    | strings => exact execStrings_reports_iff context result

/-- An unknown command counts as done. An empty list of strings counts as a failure, and a list is
added to what was there. A number that does not come empties the numbers of the call before. -/
theorem exec_misreports :
    (exec connectedRedis (some (.error (bytes "ERR unknown command"))) plain () = .ok (0, ()) ∧
        report (payload plain (.error (bytes "ERR unknown command"))) () = (-1, ())) ∧
      (exec connectedRedis (some (.array [])) strings [] = .ok (-1, []) ∧
        report (payload strings (.array [])) [] = (0, [])) ∧
      (exec connectedRedis (some (.array [some (.string (some (bytes "b")))])) strings [bytes "a"] =
          .ok (0, [bytes "a", bytes "b"]) ∧
        report (payload strings (.array [some (.string (some (bytes "b")))])) [bytes "a"] =
          (0, [bytes "b"])) ∧
      exec connectedRedis none ints [1] = .ok (-1, []) ∧
        report (none : Option (List Int)) [1] = (-1, [1]) :=
  ⟨⟨rfl, rfl⟩, ⟨rfl, rfl⟩, ⟨rfl, rfl⟩, rfl, rfl⟩

end Overload

end NetServer
