import NetServer.Records.Carriage

/-!
# Commands with any key and value

`CUtilRedis` joins the name of a command, a key and a value with blanks, and `ExecCommand` passes
the text as a format. hiredis splits it into the same arguments exactly when there is no blank in
the key and the value, no percent sign before the last character, and the length of the command is
an `int`: each `%%` would make the arguments shorter than what was joined, and any other conversion
reads an argument that is not there.
-/

namespace NetServer

open Lib

/-- `CUtilRedis::MakeGetRedisCmd`. -/
def makeGetRedisCmd (key : Bytes) : Bytes := bytes "GET " ++ key

/-- `CUtilRedis::MakeSetRedisCmd`. -/
def makeSetRedisCmd (key value : Bytes) : Bytes := bytes "SET " ++ key ++ bytes " " ++ value

/-- A command that `CUtilRedis` makes. -/
inductive KeyCommand where
  | get (key : Bytes)
  | set (key value : Bytes)
  | sadd (key value : Bytes)
  deriving DecidableEq, Repr

namespace KeyCommand

/-- The text that is executed. -/
def text : KeyCommand → Bytes
  | .get key => makeGetRedisCmd key
  | .set key value => makeSetRedisCmd key value
  | .sadd key value => makeSAddRedisCmd key value

/-- The key and the value. -/
def params : KeyCommand → List Bytes
  | .get key => [key]
  | .set key value | .sadd key value => [key, value]

/-- The name of the command. -/
def name : KeyCommand → Bytes
  | .get _ => bytes "GET"
  | .set _ _ => bytes "SET"
  | .sadd _ _ => bytes "SADD"

/-- The arguments that are meant. -/
def argv (call : KeyCommand) : List Bytes := call.name :: call.params

/-- The text is the arguments with blanks between them. -/
theorem text_eq (call : KeyCommand) : call.text = [32].intercalate call.argv := by
  cases call with
  | get key =>
    have front : bytes "GET " = bytes "GET" ++ [32] := by decide
    rw [text, makeGetRedisCmd, front, argv, name, params, List.intercalate_cons_cons,
      List.intercalate_singleton]
  | set key value =>
    have front : bytes "SET " = bytes "SET" ++ [32] := by decide
    have blank : bytes " " = [32] := by decide
    rw [text, makeSetRedisCmd, front, blank, argv, name, params, List.intercalate_cons_cons,
      List.intercalate_cons_cons, List.intercalate_singleton]
    simp only [List.append_assoc]
  | sadd key value => exact makeSAddRedisCmd_eq key value

/-- The names of the commands are words. -/
theorem name_isWord (call : KeyCommand) : IsWord call.name := by
  have get : IsWord (bytes "GET") := ⟨by decide, by decide +kernel⟩
  have set : IsWord (bytes "SET") := ⟨by decide, by decide +kernel⟩
  have sadd : IsWord (bytes "SADD") := ⟨by decide, by decide +kernel⟩
  cases call <;> assumption

end KeyCommand

/-! ## What the loop over the format keeps -/

namespace FormatState

/-- The number of characters in the arguments so far. -/
def size (state : FormatState) : Nat := (state.curargv.map List.length).sum + state.curarg.length

/-- No blank is in an argument so far. -/
structure BlankFree (state : FormatState) : Prop where
  curargv : ∀ arg ∈ state.curargv, 32 ∉ arg
  curarg : 32 ∉ state.curarg

/-- A byte put into the current argument counts as one. -/
theorem size_sdscat (state : FormatState) (c : UInt8) : (state.sdscat c).size = state.size + 1 := by
  rw [sdscat, size, size, List.length_append, List.length_singleton, Nat.add_assoc]

/-- An argument that ends takes its bytes along. -/
theorem size_flush (state : FormatState) : state.flush.size = state.size := by
  unfold flush
  split_ifs
  · rw [size, size, List.map_append, List.sum_append]
    simp
  · rfl

/-- A character is added, or it is a blank. -/
theorem size_plain (state : FormatState) (c : UInt8) :
    (state.plain c).size + [c].count 32 = state.size + 1 := by
  unfold plain
  split_ifs with blank
  · rw [size_flush, blank, List.count_singleton_self]
  · rw [size_sdscat, List.count_eq_zero_of_not_mem (by simpa using Ne.symm blank)]

/-- A byte other than a blank brings no blank into an argument. -/
theorem BlankFree.sdscat {state : FormatState} (free : state.BlankFree) {c : UInt8}
    (noBlank : c ≠ 32) : (state.sdscat c).BlankFree := by
  refine ⟨free.curargv, ?_⟩
  rw [FormatState.sdscat, List.mem_append, not_or, List.mem_singleton]
  exact ⟨free.curarg, Ne.symm noBlank⟩

/-- An argument that ends has no blank where the current one had none. -/
theorem BlankFree.flush {state : FormatState} (free : state.BlankFree) : state.flush.BlankFree := by
  unfold FormatState.flush
  split_ifs
  · refine ⟨?_, List.not_mem_nil⟩
    rw [List.forall_mem_append, List.forall_mem_singleton]
    exact ⟨free.curargv, free.curarg⟩
  · exact free

/-- A plain byte brings no blank into an argument: a blank ends the argument. -/
theorem BlankFree.plain {state : FormatState} (free : state.BlankFree) (c : UInt8) :
    (state.plain c).BlankFree := by
  unfold FormatState.plain
  split_ifs with blank
  · exact free.flush
  · exact free.sdscat blank

end FormatState

variable {state last : FormatState} {format : Bytes}

/-- Blanks do not come into arguments. -/
theorem formatLoop_blankFree (ran : formatLoop state format = .ok last) (free : state.BlankFree) :
    last.BlankFree := by
  induction state, format using formatLoop.induct with
  | case1 state =>
    cases ran
    exact free
  | case2 state c =>
    cases ran
    exact free.plain c
  | case3 state c next rest noPercent ih =>
    rw [formatLoop, if_pos noPercent] at ran
    exact ih ran (free.plain c)
  | case4 state c rest percent ih =>
    rw [formatLoop, if_neg percent, if_pos rfl] at ran
    exact ih ran (free.sdscat (by decide))
  | case5 state c next rest percent other =>
    rw [formatLoop, if_neg percent, if_neg other] at ran
    cases ran

/-- The arguments have no more characters than the format without its blanks, and fewer when there
is a percent sign before its last one. -/
theorem formatLoop_size (ran : formatLoop state format = .ok last) :
    last.size + format.count 32 ≤ state.size + format.length ∧
      (37 ∈ format.dropLast → last.size + format.count 32 < state.size + format.length) := by
  induction state, format using formatLoop.induct with
  | case1 state =>
    cases ran
    exact ⟨le_refl _, fun none => absurd none List.not_mem_nil⟩
  | case2 state c =>
    cases ran
    exact ⟨(state.size_plain c).le, fun none => absurd none List.not_mem_nil⟩
  | case3 state c next rest noPercent ih =>
    rw [formatLoop, if_pos noPercent] at ran
    obtain ⟨bound, strict⟩ := ih ran
    have one := state.size_plain c
    have split : (c :: next :: rest).count 32 = [c].count 32 + (next :: rest).count 32 := by
      rw [← List.singleton_append, List.count_append]
    rw [split, List.dropLast_cons_cons, List.mem_cons, or_iff_right (Ne.symm noPercent),
      List.length_cons]
    refine ⟨by omega, fun percent => ?_⟩
    have fewer := strict percent
    omega
  | case4 state c rest percent ih =>
    rw [formatLoop, if_neg percent, if_pos rfl] at ran
    have bound := (ih ran).1
    have isPercent : c = 37 := not_not.mp percent
    have split : (c :: 37 :: rest).count 32 = rest.count 32 := by
      rw [isPercent, List.count_cons_of_ne (by decide), List.count_cons_of_ne (by decide)]
    rw [FormatState.size_sdscat] at bound
    rw [split, List.length_cons, List.length_cons]
    exact ⟨by omega, fun _ => by omega⟩
  | case5 state c next rest percent other =>
    rw [formatLoop, if_neg percent, if_neg other] at ran
    cases ran

/-- Joined words without blanks are as long as the words and the blanks between them. -/
theorem length_joined {words : List Bytes} (clean : ∀ word ∈ words, 32 ∉ word) :
    ([32].intercalate words).length =
      (words.map List.length).sum + ([32].intercalate words).count 32 := by
  induction words with
  | nil => rfl
  | cons word words ih =>
    rw [List.forall_mem_cons] at clean
    have noBlank : word.count 32 = 0 := List.count_eq_zero_of_not_mem clean.1
    cases words with
    | nil =>
      rw [List.intercalate_singleton, noBlank]
      simp
    | cons next words =>
      have later := ih clean.2
      rw [List.intercalate_cons_cons, List.length_append, List.count_append, List.length_append,
        List.count_append, later, List.map_cons (l := next :: words), List.sum_cons, noBlank,
        List.count_singleton_self, List.length_singleton]
      omega

/-- Arguments that are found as they were joined have no blanks, and there is no percent sign before
the last character. -/
theorem formatLoop_joined {words : List Bytes}
    (ran : formatLoop ⟨[], [], false⟩ ([32].intercalate words) = .ok last)
    (found : last.flush.curargv = words) :
    (∀ word ∈ words, 32 ∉ word) ∧ 37 ∉ ([32].intercalate words).dropLast := by
  have start : FormatState.BlankFree ⟨[], [], false⟩ := ⟨fun _ => nofun, List.not_mem_nil⟩
  have clean : ∀ word ∈ words, 32 ∉ word := by
    rw [← found]
    exact (formatLoop_blankFree ran start).flush.curargv
  refine ⟨clean, fun percent => ?_⟩
  have fewer := (formatLoop_size ran).2 percent
  have length := length_joined clean
  have atLeast : (words.map List.length).sum ≤ last.size := by
    rw [← last.size_flush, FormatState.size, found]
    exact Nat.le_add_right _ _
  have empty : FormatState.size ⟨[], [], false⟩ = 0 := rfl
  omega

/-- A command is built exactly when its length and one more are `int`s. -/
theorem buildCommand_eq_some_iff {curargv : List Bytes} :
    (∃ command, buildCommand curargv = .ok (some command) ∧ command.curargv = curargv) ↔
      totalLength curargv + 1 < 2 ^ 31 := by
  constructor
  · rintro ⟨command, built, -⟩
    by_contra long
    exact buildCommand_too_long (not_lt.mp long) command built
  · intro fits
    exact ⟨_, buildCommand_fits fits, rfl⟩

/-- What is built has the arguments it was built of. -/
theorem buildCommand_curargv {curargv : List Bytes} {command : RedisCommand}
    (built : buildCommand curargv = .ok (some command)) : command.curargv = curargv := by
  unfold buildCommand at built
  dsimp only at built
  split_ifs at built
  · cases built
  · cases built
    rfl

/-- For every command with a key and a value that are not empty and have no null: hiredis splits its
text into the name, the key and the value, and no conversion reads an argument that was not passed,
exactly when the key and the value have no blank, there is no percent sign before the last
character, and the length of the command is an `int`. -/
theorem redis_command_splits_iff (call : KeyCommand)
    (strings : ∀ param ∈ call.params, param ≠ [] ∧ 0 ∉ param) :
    (∃ command, redisvFormatCommand call.text = .ok (some command) ∧ command.curargv = call.argv) ↔
      (∀ param ∈ call.params, 32 ∉ param) ∧ 37 ∉ call.text.dropLast ∧ totalLength call.argv + 1 <
        2 ^ 31 := by
  have isWord := call.name_isWord
  have noBlank : 32 ∉ call.name := fun blank => (isWord.clean 32 blank).2.1 rfl
  have noNull : 0 ∉ call.text := by
    rw [call.text_eq, mem_intercalate (by decide)]
    rintro ⟨word, listed, null⟩
    rcases List.mem_cons.mp listed with rfl | isParam
    · exact (isWord.clean 0 null).1 rfl
    · exact (strings word isParam).2 null
  constructor
  · rintro ⟨command, splits, found⟩
    obtain ⟨last, ran, built⟩ := bind_eq_ok.mp splits
    rw [cString_eq_self.mpr noNull, call.text_eq] at ran
    have arguments := (buildCommand_curargv built).symm.trans found
    obtain ⟨clean, noPercent⟩ := formatLoop_joined ran arguments
    rw [← call.text_eq] at noPercent
    rw [arguments] at built
    exact ⟨fun param listed => clean param (List.mem_cons_of_mem _ listed), noPercent,
      buildCommand_eq_some_iff.mp ⟨command, built, found⟩⟩
  · rintro ⟨clean, noPercent, fits⟩
    have words : ∀ word ∈ call.argv, word ≠ [] ∧ 32 ∉ word := by
      rw [KeyCommand.argv, List.forall_mem_cons]
      exact ⟨⟨isWord.nonempty, noBlank⟩, fun param listed =>
        ⟨(strings param listed).1, clean param listed⟩⟩
    rw [call.text_eq] at noNull noPercent ⊢
    rw [redisvFormatCommand_split words noNull noPercent]
    exact buildCommand_eq_some_iff.mpr fits

/-- A key with a colon, and a value with a percent sign at its end. -/
theorem redis_command_splits_percent :
    ∃ command, redisvFormatCommand (KeyCommand.set (bytes "load:4401") (bytes "75%")).text =
      .ok (some command) ∧
      command.curargv = [bytes "SET", bytes "load:4401", bytes "75%"] :=
  (redis_command_splits_iff (.set (bytes "load:4401") (bytes "75%")) (by decide)).mpr
    ⟨by decide, by decide, by decide +kernel⟩

/-- A value with a blank is two arguments, one with `%%` loses a character, and one with `%s` reads
an argument that was not passed. -/
theorem redis_command_changes :
    redisvFormatCommand (KeyCommand.set (bytes "name") (bytes "a b")).text =
        .ok (some ⟨[bytes "SET", bytes "name", bytes "a", bytes "b"],
          protocolText [bytes "SET", bytes "name", bytes "a", bytes "b"]⟩) ∧
      redisvFormatCommand (KeyCommand.get (bytes "a%%b")).text =
        .ok (some ⟨[bytes "GET", bytes "a%b"], protocolText [bytes "GET", bytes "a%b"]⟩) ∧
      redisvFormatCommand (KeyCommand.sadd (bytes "name") (bytes "%s")).text = .error .vararg := by
  refine ⟨?_, ?_, ?_⟩
  all_goals decide +kernel

end NetServer
