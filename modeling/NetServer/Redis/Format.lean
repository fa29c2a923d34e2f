import NetServer.Common.Printf

/-!
# Commands of hiredis, `redisvFormatCommand`

A command is a format: blanks separate its arguments and percent signs start conversions.
`CRedisClient` passes its commands as formats without further arguments, so every conversion but
`%%` reads an argument that is not there. Words without blanks, percent signs and nulls are its
arguments as they stand (`redisvFormatCommand_words`).
-/

namespace NetServer

open Lib

/-- What `redisvFormatCommand` must not do. -/
inductive FormatFault where
  /-- A conversion reads an argument that was not passed. -/
  | vararg
  /-- The command is written past the memory that was allocated for it. -/
  | overrun
  deriving DecidableEq, Repr

/-! ## The arguments -/

/-- The variables of the loop over the format. -/
structure FormatState where
  curargv : List Bytes
  curarg : Bytes
  touched : Bool
  deriving DecidableEq, Repr

namespace FormatState

/-- A character of the current argument. -/
def sdscat (state : FormatState) (c : UInt8) : FormatState :=
  { state with curarg := state.curarg ++ [c], touched := true }

/-- The current argument ends, if there is one. -/
def flush (state : FormatState) : FormatState :=
  if state.touched then ⟨state.curargv ++ [state.curarg], [], false⟩ else state

/-- A character that starts no conversion. -/
def plain (state : FormatState) (c : UInt8) : FormatState :=
  if c = 32 then state.flush else state.sdscat c

end FormatState

/-- The loop over the format. A percent sign at the end stands for itself. -/
def formatLoop (state : FormatState) : Bytes → Except FormatFault FormatState
  | [] => .ok state
  | [c] => .ok (state.plain c)
  | c :: next :: rest =>
    if c ≠ 37 then formatLoop (state.plain c) (next :: rest)
    else if next = 37 then formatLoop (state.sdscat 37) rest
    else .error .vararg

/-! ## The command -/

/-- `intlen` of a number that is not negative. -/
def intlen (i : Nat) : Nat := if i < 10 then 1 else intlen (i / 10) + 1

/-- `bulklen`. -/
def bulklen (len : Nat) : Nat := 1 + intlen len + 2 + len + 2

/-- The command at protocol level. -/
def protocolText (curargv : List Bytes) : Bytes :=
  bytes "*" ++ decimal curargv.length ++ crlf ++
    curargv.flatMap fun arg => bytes "$" ++ decimal arg.length ++ crlf ++ arg ++ crlf

/-- The sum that `totlen` stands for. -/
def totalLength (curargv : List Bytes) : Nat :=
  (curargv.map fun arg => bulklen arg.length).sum + (1 + intlen curargv.length + 2)

/-- What `redisvFormatCommand` makes of a format: the arguments and the command. -/
structure RedisCommand where
  curargv : List Bytes
  cmd : Bytes
  deriving DecidableEq, Repr

/-- The end of `redisvFormatCommand`, where memory that can be asked for is there. `totlen` is an
`int`; nothing is returned when `malloc` is asked for a negative size. -/
def buildCommand (curargv : List Bytes) : Except FormatFault (Option RedisCommand) :=
  let totlen := toInt (totalLength curargv)
  if toInt (totlen + 1) < 0 then .ok none
  else if totlen < totalLength curargv then .error .overrun
  else .ok (some ⟨curargv, protocolText curargv⟩)

/-- `redisvFormatCommand` without arguments behind the format. -/
def redisvFormatCommand (format : Bytes) : Except FormatFault (Option RedisCommand) := do
  let state ← formatLoop ⟨[], [], false⟩ (cString format)
  buildCommand state.flush.curargv

/-- The command is built of the arguments that the loop finds. -/
theorem redisvFormatCommand_of_loop {format : Bytes} {state : FormatState}
    (ran : formatLoop ⟨[], [], false⟩ (cString format) = .ok state) :
    redisvFormatCommand format = buildCommand state.flush.curargv := by
  rw [redisvFormatCommand, ran]
  exact pure_bind state fun state => buildCommand state.flush.curargv

/-- The digits that are counted are those that are printed. -/
theorem length_decimal (number : Nat) : (decimal number).length = intlen number := by
  induction number using intlen.induct with
  | case1 number small =>
    rw [intlen, if_pos small, decimal, List.length_map, Nat.toDigits_of_lt_base small,
      List.length_singleton]
  | case2 number large ih =>
    rw [decimal, List.length_map] at ih
    rw [intlen, if_neg large, decimal, List.length_map,
      Nat.toDigits_of_base_le (by decide) (Nat.le_of_not_lt large), List.length_append, ih,
      List.length_singleton]

/-- The command fills the memory that was allocated for it, as the code asserts. -/
theorem length_protocolText (curargv : List Bytes) :
    (protocolText curargv).length = totalLength curargv := by
  have bulks :
    (curargv.flatMap fun arg => bytes "$" ++ decimal arg.length ++ crlf ++ arg ++ crlf).length =
      (curargv.map fun arg => bulklen arg.length).sum := by
    rw [List.length_flatMap]
    congr 1
    refine List.map_congr_left fun arg _ => ?_
    simp only [List.length_append, length_decimal, bulklen]
    rfl
  rw [protocolText, totalLength, List.length_append, bulks, List.length_append, List.length_append,
    length_decimal, Nat.add_comm]
  rfl

/-! ## Words -/

/-- A byte that stands for itself in an argument. -/
def IsWordByte (c : UInt8) : Prop := c ≠ 0 ∧ c ≠ 32 ∧ c ≠ 37

instance (c : UInt8) : Decidable (IsWordByte c) := inferInstanceAs (Decidable (_ ∧ _ ∧ _))

/-- A text that is one argument. -/
structure IsWord (word : Bytes) : Prop where
  nonempty : word ≠ []
  clean : ∀ c ∈ word, IsWordByte c

/-- Without a percent sign before the last character there are no conversions. -/
theorem formatLoop_eq_foldl (state : FormatState) {format : Bytes} (clean : 37 ∉ format.dropLast) :
    formatLoop state format = .ok (format.foldl FormatState.plain state) := by
  induction format generalizing state with
  | nil => rfl
  | cons c format ih =>
    cases format with
    | nil => rfl
    | cons next rest =>
      rw [List.dropLast_cons_cons, List.mem_cons, not_or] at clean
      rw [formatLoop, if_pos (Ne.symm clean.1), ih _ clean.2]
      rfl

/-- Characters but blanks go to the current argument. -/
theorem foldl_plain_clean (state : FormatState) {word : Bytes} (clean : 32 ∉ word) :
    word.foldl FormatState.plain { state with touched := true } =
      { state with curarg := state.curarg ++ word, touched := true } := by
  induction word generalizing state with
  | nil => rw [List.foldl_nil, List.append_nil]
  | cons c word ih =>
    rw [List.mem_cons, not_or] at clean
    have later := ih { state with curarg := state.curarg ++ [c] } clean.2
    rw [List.foldl_cons, FormatState.plain, if_neg (Ne.symm clean.1), FormatState.sdscat, later,
      List.append_assoc, List.singleton_append]

/-- Characters but blanks become the current argument. -/
theorem foldl_plain_word (curargv : List Bytes) {word : Bytes} (nonempty : word ≠ [])
    (clean : 32 ∉ word) :
    word.foldl FormatState.plain ⟨curargv, [], false⟩ = ⟨curargv, word, true⟩ := by
  obtain ⟨c, rest, rfl⟩ := List.exists_cons_of_ne_nil nonempty
  rw [List.mem_cons, not_or] at clean
  rw [List.foldl_cons, FormatState.plain, if_neg (Ne.symm clean.1)]
  exact foldl_plain_clean ⟨curargv, [c], true⟩ clean.2

/-- Words with blanks between them become the arguments. -/
theorem foldl_plain_words (curargv : List Bytes) {words : List Bytes}
    (clean : ∀ word ∈ words, word ≠ [] ∧ 32 ∉ word) :
    (([32].intercalate words).foldl FormatState.plain ⟨curargv, [], false⟩).flush.curargv =
      curargv ++ words := by
  induction words generalizing curargv with
  | nil => exact (List.append_nil curargv).symm
  | cons word words ih =>
    rw [List.forall_mem_cons] at clean
    have isWord := foldl_plain_word curargv clean.1.1 clean.1.2
    cases words with
    | nil =>
      rw [List.intercalate_singleton, isWord]
      rfl
    | cons next words =>
      have later := ih (curargv ++ [word]) clean.2
      rw [List.append_assoc, List.singleton_append] at later
      rw [List.intercalate_cons_cons, List.append_assoc, List.foldl_append, isWord, ← later]
      rfl

/-- Words with blanks between them are the arguments when there is no percent sign before the last
character. -/
theorem redisvFormatCommand_split {words : List Bytes}
    (clean : ∀ word ∈ words, word ≠ [] ∧ 32 ∉ word) (noNull : 0 ∉ [32].intercalate words)
    (noPercent : 37 ∉ ([32].intercalate words).dropLast) :
    redisvFormatCommand ([32].intercalate words) = buildCommand words := by
  have arguments := foldl_plain_words [] clean
  rw [List.nil_append] at arguments
  have ran := formatLoop_eq_foldl ⟨[], [], false⟩ noPercent
  rw [← cString_eq_self.mpr noNull] at ran
  rw [redisvFormatCommand_of_loop ran, cString_eq_self.mpr noNull, arguments]

/-- Words with blanks between them are the arguments, and no other argument is read. -/
theorem redisvFormatCommand_words {words : List Bytes} (areWords : ∀ word ∈ words, IsWord word) :
    redisvFormatCommand ([32].intercalate words) = buildCommand words := by
  have absent {c : UInt8} (noBlank : c ≠ 32) (special : ¬IsWordByte c) :
      c ∉ [32].intercalate words := by
    rw [mem_intercalate noBlank]
    rintro ⟨word, listed, inWord⟩
    exact special ((areWords word listed).clean c inWord)
  apply redisvFormatCommand_split
  · intro word listed
    have isWord := areWords word listed
    exact ⟨isWord.nonempty, fun blank => (isWord.clean 32 blank).2.1 rfl⟩
  · exact absent (by decide) (by decide)
  · intro percent
    exact absent (by decide) (by decide) (List.mem_of_mem_dropLast percent)

/-- A command that fits an `int` is built. -/
theorem buildCommand_fits {curargv : List Bytes} (fits : totalLength curargv + 1 < 2 ^ 31) :
    buildCommand curargv = .ok (some ⟨curargv, protocolText curargv⟩) := by
  have total : toInt (totalLength curargv) = totalLength curargv :=
    toInt_of_range (by omega) (by omega)
  have room : toInt ((totalLength curargv : Int) + 1) = totalLength curargv + 1 :=
    toInt_of_range (by omega) (by omega)
  rw [buildCommand, total, room, if_neg (by omega), if_neg (by omega)]

/-- A command that does not fit an `int` is not built. -/
theorem buildCommand_too_long {curargv : List Bytes} (long : 2 ^ 31 ≤ totalLength curargv + 1)
    (command : RedisCommand) : buildCommand curargv ≠ .ok (some command) := by
  unfold buildCommand
  dsimp only
  split_ifs with negative below
  · exact nofun
  · exact nofun
  · -- The greatest `int` is left, and `totlen+1` is negative then.
    have range := toInt_range (totalLength curargv)
    have most : toInt (totalLength curargv) = 2 ^ 31 - 1 := by omega
    rw [most] at negative
    exact absurd (by decide) negative

end NetServer
