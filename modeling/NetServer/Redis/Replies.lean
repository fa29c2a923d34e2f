import NetServer.Lib.Incremental
import NetServer.Redis.Format
import NetServer.Redis.Reader

/-!
# Replies as trees

What the reader of hiredis is for, without its buffer, its stack of pointers and its memory: a state
holds the arrays that are being filled, each with the elements that are complete, and a step reads
the byte for the type of an item or the rest of an item. As an incremental reader (`replyReader`) it
gives the same replies however the bytes of the server are cut into pieces, and it reads back what a
server writes (`next_wire`).

Arrays may be nested once. No elements follow an array that is announced with a count below one. Its
object is made from the low 32 bits of the count: they are zero for an empty array, which has no
vector of elements, but a count below −1 makes an array without a vector and with a huge number of
elements, or one whose elements are null.
-/

namespace NetServer

open Lib

/-- An item that no elements follow. -/
inductive ReplyLeaf where
  | string (str : Bytes)
  /-- An array without a vector. -/
  | hollow (elements : Nat)
  /-- An array whose elements are null, `others` of them and one more. -/
  | blank (others : Nat)
  | integer (integer : Int)
  | nil
  | status (str : Bytes)
  | error (str : Bytes)
  deriving DecidableEq, Repr

/-- An array that no elements follow, with its count as an `int`. -/
def ReplyLeaf.ofCount (count : Int) : ReplyLeaf :=
  if count > 0 then .blank (count.toNat - 1) else .hollow (sizeT count)

/-- A complete item. -/
inductive ReplyTree where
  | leaf (leaf : ReplyLeaf)
  | array (element : List ReplyTree)

/-- An array that is being filled: how many elements were announced, and those that are complete. -/
structure OpenArray where
  elements : Int
  element : List ReplyTree

namespace OpenArray

/-- Another element was announced. -/
def HasRoom (array : OpenArray) : Prop := (array.element.length : Int) < array.elements

instance (array : OpenArray) : Decidable array.HasRoom := inferInstanceAs (Decidable (_ < _))

/-- An element is complete. -/
def push (array : OpenArray) (item : ReplyTree) : OpenArray :=
  { array with element := array.element ++ [item] }

end OpenArray

/-- What the reader is about to read: the type of the next item if it is known, and the arrays
around the item, the innermost first. -/
structure ReplyState where
  type : Option ReplyType
  arrays : List OpenArray

/-- Why the reader gives up. -/
inductive ReplyStop where
  | error (errstr : Bytes)
  | fault (fault : HiredisFault)
  deriving DecidableEq, Repr

namespace ReplyState

/-- Between two replies. -/
def start : ReplyState := ⟨none, []⟩

/-- There is a place for the next item. -/
def hasRoom : List OpenArray → Bool
  | [] => true
  | array :: _ => decide array.HasRoom

/-- A complete item takes its place. It may complete the arrays around it, up to the whole reply. -/
def complete (item : ReplyTree) : List OpenArray → Except HiredisFault (List OpenArray ⊕ ReplyTree)
  | [] => .ok (.inr item)
  | array :: arrays =>
    if ¬array.HasRoom then .error .wildStore
    else if (array.push item).HasRoom then .ok (.inl (array.push item :: arrays))
    else complete (.array (array.push item).element) arrays

/-- The step that completes an item. -/
def finish (arrays : List OpenArray) (item : ReplyTree) (rest : Bytes) :
    Reading ReplyState UInt8 ReplyTree ReplyStop :=
  match complete item arrays with
  | .error fault => .stop (.fault fault)
  | .ok (.inl arrays) => .go ⟨none, arrays⟩ rest
  | .ok (.inr reply) => .emit reply start rest

/-- The type of an item. -/
def readType (arrays : List OpenArray) : Bytes → Reading ReplyState UInt8 ReplyTree ReplyStop
  | [] => .wait
  | byte :: rest =>
    match typeOfByte byte with
    | some type => .go ⟨some type, arrays⟩ rest
    | none => .stop (.error (protocolByteError byte))

/-- An item of one line. -/
def readLineItem (arrays : List OpenArray) (leaf : Bytes → ReplyLeaf) (input : Bytes) :
    Reading ReplyState UInt8 ReplyTree ReplyStop :=
  match find crlf input with
  | none => .wait
  | some len => finish arrays (.leaf (leaf (input.take len))) (input.drop (len + 2))

/-- A string behind its length. -/
def readBulkItem (arrays : List OpenArray) (input : Bytes) :
    Reading ReplyState UInt8 ReplyTree ReplyStop :=
  match find crlf input with
  | none => .wait
  | some s =>
    let len := readLongLong input
    if len < 0 then finish arrays (.leaf .nil) (input.drop (s + 2))
    else if s + 2 + (len.toNat + 2) ≤ input.length then
      finish arrays (.leaf (.string ((input.drop (s + 2)).take len.toNat)))
        (input.drop (s + 2 + (len.toNat + 2)))
    else .wait

/-- The number of elements of an array. -/
def readMultiBulkItem (arrays : List OpenArray) (input : Bytes) :
    Reading ReplyState UInt8 ReplyTree ReplyStop :=
  if arrays.length = 2 then .stop (.error nestedError)
  else
    match find crlf input with
    | none => .wait
    | some len =>
      let elements := readLongLong input
      let rest := input.drop (len + 2)
      if elements = -1 then finish arrays (.leaf .nil) rest
      else if elements > 0 then
        if hasRoom arrays then .go ⟨none, ⟨toInt elements, []⟩ :: arrays⟩ rest
          else .stop (.fault .wildStore)
      else finish arrays (.leaf (.ofCount (toInt elements))) rest

/-- One step. -/
def read (state : ReplyState) (input : Bytes) : Reading ReplyState UInt8 ReplyTree ReplyStop :=
  match state.type with
  | none => readType state.arrays input
  | some .integer => readLineItem state.arrays (fun _ => .integer (readLongLong input)) input
  | some .status => readLineItem state.arrays .status input
  | some .error => readLineItem state.arrays .error input
  | some .string => readBulkItem state.arrays input
  | some .array => readMultiBulkItem state.arrays input
  | some .nil => .stop (.fault .assertion)

end ReplyState

/-! ## Bytes that follow -/

/-- Digits are read up to the carriage return. -/
theorem digitsBefore_append {s : Bytes} (ends : 13 ∈ s) (v : Int) (more : Bytes) :
    digitsBefore v (s ++ more) = digitsBefore v s := by
  induction s generalizing v with
  | nil => exact absurd ends List.not_mem_nil
  | cons c s ih =>
    rw [List.cons_append, digitsBefore, digitsBefore]
    by_cases isEnd : c = 13
    · rw [if_pos isEnd, if_pos isEnd]
    · rw [if_neg isEnd, if_neg isEnd, ih (List.mem_of_ne_of_mem (Ne.symm isEnd) ends)]

/-- A number is read up to the carriage return. -/
theorem readLongLong_append {s : Bytes} (ends : 13 ∈ s) (more : Bytes) :
    readLongLong (s ++ more) = readLongLong s := by
  have sign : readSign (s ++ more) = ((readSign s).1, (readSign s).2 ++ more) ∧
      13 ∈ (readSign s).2 := by
    cases s with
    | nil => exact absurd ends List.not_mem_nil
    | cons c s =>
      rw [List.cons_append, readSign, readSign]
      split_ifs with minus plus
      · exact ⟨rfl, List.mem_of_ne_of_mem (by rw [minus]; decide) ends⟩
      · exact ⟨rfl, List.mem_of_ne_of_mem (by rw [plus]; decide) ends⟩
      · exact ⟨rfl, ends⟩
  rw [readLongLong, readLongLong, sign.1, digitsBefore_append sign.2]

/-- A line end in front of more bytes: it is found in the same place, and the line and the number in
it are the same. -/
theorem line_append {input : Bytes} {len : Nat} (found : find crlf input = some len)
    (more : Bytes) :
    find crlf (input ++ more) = some len ∧ len + 2 ≤ input.length ∧
      readLongLong (input ++ more) = readLongLong input := by
  obtain ⟨before, after, rfl, rfl, -⟩ := find_eq_some (List.cons_ne_nil _ _) found
  refine ⟨find_append (List.cons_ne_nil _ _) found more, ?_, readLongLong_append (by simp) more⟩
  rw [List.length_append, List.length_append]
  exact Nat.le_add_right _ _

namespace ReplyState

variable {arrays : List OpenArray} {input : Bytes}

/-- Completing an item does not read. -/
theorem finish_append (arrays : List OpenArray) (item : ReplyTree) (rest more : Bytes) :
    finish arrays item (rest ++ more) = (finish arrays item rest).append more := by
  unfold finish
  split <;> rfl

/-- Later bytes do not change a type that is read. -/
theorem readType_append (more : Bytes) (goes : readType arrays input ≠ .wait) :
    readType arrays (input ++ more) = (readType arrays input).append more := by
  cases input with
  | nil => exact absurd rfl goes
  | cons byte rest =>
    rw [List.cons_append, readType, readType]
    split <;> rfl

/-- Later bytes do not change a line that is read. -/
theorem readLineItem_append {leaf leaf' : Bytes → ReplyLeaf} (more : Bytes)
    (same : ∀ len, find crlf input = some len → leaf' (input.take len) = leaf (input.take len))
    (goes : readLineItem arrays leaf input ≠ .wait) :
    readLineItem arrays leaf' (input ++ more) = (readLineItem arrays leaf input).append more := by
  unfold readLineItem at goes ⊢
  cases found : find crlf input with
  | none => exact absurd (by rw [found]) goes
  | some len =>
    obtain ⟨longer, inside, -⟩ := line_append found more
    simp only [longer]
    rw [List.take_append_of_le_length (by omega), List.drop_append_of_le_length inside,
      same len found, finish_append]

/-- Later bytes do not change a bulk that is read. -/
theorem readBulkItem_append (more : Bytes) (goes : readBulkItem arrays input ≠ .wait) :
    readBulkItem arrays (input ++ more) = (readBulkItem arrays input).append more := by
  unfold readBulkItem at goes ⊢
  cases found : find crlf input with
  | none => exact absurd (by rw [found]) goes
  | some s =>
    obtain ⟨longer, inside, number⟩ := line_append found more
    simp only [found] at goes
    simp only [longer, number]
    by_cases negative : readLongLong input < 0
    · rw [if_pos negative, if_pos negative, List.drop_append_of_le_length inside, finish_append]
    · rw [if_neg negative] at goes
      by_cases whole : s + 2 + ((readLongLong input).toNat + 2) ≤ input.length
      · have longer : s + 2 + ((readLongLong input).toNat + 2) ≤ (input ++ more).length := by
          rw [List.length_append]
          omega
        rw [if_neg negative, if_neg negative, if_pos whole, if_pos longer,
          List.drop_append_of_le_length inside, List.drop_append_of_le_length whole,
          List.take_append_of_le_length (by rw [List.length_drop]; omega), finish_append]
      · exact absurd (if_neg whole) goes

/-- Later bytes do not change an array header that is read. -/
theorem readMultiBulkItem_append (more : Bytes) (goes : readMultiBulkItem arrays input ≠ .wait) :
    readMultiBulkItem arrays (input ++ more) = (readMultiBulkItem arrays input).append more := by
  unfold readMultiBulkItem at goes ⊢
  by_cases nested : arrays.length = 2
  · rw [if_pos nested, if_pos nested]
    rfl
  · rw [if_neg nested] at goes
    rw [if_neg nested, if_neg nested]
    cases found : find crlf input with
    | none => exact absurd (by rw [found]) goes
    | some len =>
      obtain ⟨longer, inside, number⟩ := line_append found more
      simp only [longer, number, List.drop_append_of_le_length inside, finish_append]
      split_ifs <;> rfl

/-- A step that does not wait is the same with more bytes behind it. -/
theorem read_append (state : ReplyState) (input more : Bytes) (goes : read state input ≠ .wait) :
    read state (input ++ more) = (read state input).append more := by
  obtain ⟨type, arrays⟩ := state
  rcases type with _ | type
  · exact readType_append more goes
  · cases type with
    | string => exact readBulkItem_append more goes
    | array => exact readMultiBulkItem_append more goes
    | integer =>
      change readLineItem arrays (fun _ =>
        .integer (readLongLong (input ++ more))) (input ++ more) =
        (readLineItem arrays (fun _ => .integer (readLongLong input)) input).append more
      refine readLineItem_append more (fun len found => ?_) goes
      rw [(line_append found more).2.2]
    | nil => rfl
    | status | error => exact readLineItem_append more (fun _ _ => rfl) goes

/-! ## Bytes that are consumed -/

/-- Completing an item leaves everything. -/
theorem finish_rest {arrays : List OpenArray} {item : ReplyTree} {rest left : Bytes}
    (leaves : (finish arrays item rest).rest? = some left) : left = rest := by
  unfold finish at leaves
  split at leaves
  · cases leaves
  · exact (Option.some.inj leaves).symm
  · exact (Option.some.inj leaves).symm

/-- An item that is completed behind a line end leaves less than there was. -/
theorem finish_drop_shorter {item : ReplyTree} {len size : Nat} {left : Bytes}
    (found : find crlf input = some len) (behind : len + 2 ≤ size)
    (leaves : (finish arrays item (input.drop size)).rest? = some left) :
    left.length < input.length := by
  have inside := (line_append found []).2.1
  rw [finish_rest leaves, List.length_drop]
  omega

/-- A type that is read is taken from the input. -/
theorem readType_consumes {left : Bytes} (leaves : (readType arrays input).rest? = some left) :
    left.length < input.length := by
  cases input with
  | nil => cases leaves
  | cons byte rest =>
    rw [readType] at leaves
    split at leaves
    · cases leaves
      exact Nat.lt_succ_self _
    · cases leaves

/-- A line that is read is taken from the input. -/
theorem readLineItem_consumes {leaf : Bytes → ReplyLeaf} {left : Bytes}
    (leaves : (readLineItem arrays leaf input).rest? = some left) : left.length < input.length := by
  unfold readLineItem at leaves
  split at leaves
  · cases leaves
  · rename_i found
    exact finish_drop_shorter found (Nat.le_refl _) leaves

/-- A bulk that is read is taken from the input. -/
theorem readBulkItem_consumes {left : Bytes}
    (leaves : (readBulkItem arrays input).rest? = some left) : left.length < input.length := by
  unfold readBulkItem at leaves
  split at leaves
  · cases leaves
  · rename_i found
    dsimp only at leaves
    split_ifs at leaves
    · exact finish_drop_shorter found (Nat.le_refl _) leaves
    · exact finish_drop_shorter found (Nat.le_add_right _ _) leaves
    · cases leaves

/-- An array header that is read is taken from the input. -/
theorem readMultiBulkItem_consumes {left : Bytes}
    (leaves : (readMultiBulkItem arrays input).rest? = some left) : left.length < input.length := by
  unfold readMultiBulkItem at leaves
  split at leaves
  · cases leaves
  · split at leaves
    · cases leaves
    · rename_i len found
      have inside := (line_append found []).2.1
      dsimp only at leaves
      split_ifs at leaves
      · exact finish_drop_shorter found (Nat.le_refl _) leaves
      · cases leaves
        rw [List.length_drop]
        omega
      · cases leaves
      · exact finish_drop_shorter found (Nat.le_refl _) leaves

/-- A step that leaves bytes consumes some. -/
theorem read_consumes (state : ReplyState) (input left : Bytes)
    (leaves : (read state input).rest? = some left) : left.length < input.length := by
  obtain ⟨type, arrays⟩ := state
  rcases type with _ | type
  · exact readType_consumes leaves
  · cases type with
    | string => exact readBulkItem_consumes leaves
    | array => exact readMultiBulkItem_consumes leaves
    | integer =>
      change (readLineItem arrays (fun _ => .integer (readLongLong input)) input).rest? =
        some left at leaves
      exact readLineItem_consumes leaves
    | nil => cases leaves
    | status | error => exact readLineItem_consumes leaves

end ReplyState

/-- The reader of replies. -/
def replyReader : Incremental ReplyState UInt8 ReplyTree ReplyStop where
  read := ReplyState.read
  stable := ReplyState.read_append
  consumes := ReplyState.read_consumes

/-! ## What a server writes -/

/-- An item that no elements follow, as it is written: a byte for its type, and lines. -/
def ReplyLeaf.wire : ReplyLeaf → Bytes
  | .string str => 36 :: (decimal str.length ++ crlf ++ (str ++ crlf))
  | .hollow elements => 42 :: (decimal elements ++ crlf)
  | .blank others => 42 :: (decimal (others + 1) ++ crlf)
  | .integer value => 58 :: (decimalInt value ++ crlf)
  | .nil => 36 :: (decimalInt (-1) ++ crlf)
  | .status str => 43 :: (str ++ crlf)
  | .error str => 45 :: (str ++ crlf)

mutual

/-- An item, as it is written. -/
def ReplyTree.wire : ReplyTree → Bytes
  | .leaf item => item.wire
  | .array element => 42 :: (decimal element.length ++ crlf ++ wires element)

/-- Items, one behind the other. -/
def ReplyTree.wires : List ReplyTree → Bytes
  | [] => []
  | item :: items => item.wire ++ wires items

end

/-- Replies go over the wire one after the other. -/
theorem ReplyTree.wires_append (items more : List ReplyTree) :
    ReplyTree.wires (items ++ more) = ReplyTree.wires items ++ ReplyTree.wires more := by
  induction items with
  | nil => rfl
  | cons item items ih =>
    rw [List.cons_append, ReplyTree.wires, ReplyTree.wires, ih, List.append_assoc]

/-- An item that is no array can be written: its text fits a line, its length and its number a `long
long`. -/
def ReplyLeaf.Sendable : ReplyLeaf → Prop
  | .string str => str.length < 2 ^ 63
  | .hollow _ | .blank _ => False
  | .integer value => -2 ^ 63 < value ∧ value < 2 ^ 63
  | .nil => True
  | .status str | .error str => ¬crlf <:+: str

instance : (leaf : ReplyLeaf) → Decidable leaf.Sendable
  | .string _ => inferInstanceAs (Decidable (_ < _))
  | .hollow _ | .blank _ => inferInstanceAs (Decidable False)
  | .integer _ => inferInstanceAs (Decidable (_ ∧ _))
  | .nil => inferInstanceAs (Decidable True)
  | .status _ | .error _ => inferInstanceAs (Decidable (¬_ <:+: _))

/-- An item that can be written, with arrays nested up to `depth` times and less than 2³¹ elements
in each. -/
inductive ReplyTree.Sendable : Nat → ReplyTree → Prop
  | leaf {depth : Nat} {leaf : ReplyLeaf} (sendable : leaf.Sendable) : Sendable depth (.leaf leaf)
  | empty {depth : Nat} : Sendable (depth + 1) (.leaf (.hollow 0))
  | array {depth : Nat} {element : List ReplyTree} (nonempty : element ≠ [])
    (few : element.length < 2 ^ 31)
    (each : ∀ item ∈ element, Sendable depth item) : Sendable (depth + 1) (.array element)

/-- The digit that a number below ten is printed with. -/
theorem decimal_digit {digit : Nat} (small : digit < 10) :
    decimal digit = [UInt8.ofNat (48 + digit)] := by
  rw [decimal, Nat.toDigits_of_lt_base small]
  interval_cases digit <;> rfl

/-- A number is printed with its last digit behind the others. -/
theorem decimal_step {number : Nat} (large : 10 ≤ number) :
    decimal number = decimal (number / 10) ++ decimal (number % 10) := by
  rw [decimal, Nat.toDigits_of_base_le (by decide) large, List.map_append, decimal, decimal,
    Nat.toDigits_of_lt_base (Nat.mod_lt _ (by decide))]

/-- A number in the range of `long long` stays what it is. -/
theorem toLongLong_of_range {value : Int} (low : -2 ^ 63 ≤ value) (high : value < 2 ^ 63) :
    toLongLong value = value := by
  simp only [toLongLong, Int.bmod]
  omega

/-- A digit is read behind others. -/
theorem digitsBefore_digit {v digit : Nat} (small : digit < 10) (inRange : v * 10 + digit < 2 ^ 63)
    (rest : Bytes) :
    digitsBefore v (decimal digit ++ rest) = digitsBefore (v * 10 + digit : Nat) rest := by
  have byte : (UInt8.ofNat (48 + digit)).toNat = 48 + digit := by
    rw [UInt8.toNat_ofNat']
    omega
  have isDigit : 48 ≤ UInt8.ofNat (48 + digit) ∧ UInt8.ofNat (48 + digit) ≤ 57 := by
    rw [UInt8.le_iff_toNat_le, UInt8.le_iff_toNat_le, byte]
    exact ⟨Nat.le_add_right _ _, by change 48 + digit ≤ 57; omega⟩
  have notEnd : UInt8.ofNat (48 + digit) ≠ 13 := by
    intro same
    rw [same] at byte
    change 13 = 48 + digit at byte
    omega
  rw [decimal_digit small, List.singleton_append, digitsBefore, if_neg notEnd, if_pos isDigit, byte,
    toLongLong_of_range (by omega) (by omega)]
  congr 1
  omega

/-- A number is read back. -/
theorem digitsBefore_decimal {number : Nat} (small : number < 2 ^ 63) (rest : Bytes) :
    digitsBefore 0 (decimal number ++ rest) = digitsBefore number rest := by
  induction number using intlen.induct generalizing rest with
  | case1 number short =>
    have read := digitsBefore_digit (v := 0) short (by omega) rest
    rwa [Nat.zero_mul, Nat.zero_add] at read
  | case2 number large ih =>
    have last :=
      digitsBefore_digit (v := number / 10) (Nat.mod_lt number (by decide)) (by omega) rest
    rw [decimal_step (Nat.le_of_not_lt large), List.append_assoc, ih (by omega), last]
    congr 2
    omega

/-- A number is printed with a digit first. -/
theorem decimal_eq_cons (number : Nat) : ∃ c digits, decimal number = c :: digits ∧ IsDigit c := by
  cases printed : decimal number with
  | nil =>
    have length := length_decimal number
    rw [printed, List.length_nil, intlen] at length
    split at length <;> omega
  | cons c digits => exact ⟨c, digits, rfl, isDigit_of_mem_decimal (printed ▸ List.mem_cons_self)⟩

/-- A number in front of a line end is read back. -/
theorem readLongLong_decimal {number : Nat} (small : number < 2 ^ 63) (rest : Bytes) :
    readLongLong (decimal number ++ 13 :: rest) = number := by
  have sign : readSign (decimal number ++ 13 :: rest) = (1, decimal number ++ 13 :: rest) := by
    obtain ⟨c, digits, printed, isDigit⟩ := decimal_eq_cons number
    have notMinus : c ≠ 45 := by rintro rfl; revert isDigit; decide
    have notPlus : c ≠ 43 := by rintro rfl; revert isDigit; decide
    rw [printed, List.cons_append, readSign, if_neg notMinus, if_neg notPlus]
  have range : toLongLong (1 * number) = number := by
    rw [Int.one_mul]
    exact toLongLong_of_range (by omega) (by omega)
  rw [readLongLong, sign, digitsBefore_decimal small, digitsBefore, if_pos rfl]
  exact range

/-- A number with a sign in front of a line end is read back. -/
theorem readLongLong_decimalInt {value : Int} (low : -2 ^ 63 < value) (high : value < 2 ^ 63)
    (rest : Bytes) : readLongLong (decimalInt value ++ 13 :: rest) = value := by
  rw [decimalInt]
  split_ifs with negative
  · have sign : readSign (bytes "-" ++ decimal value.natAbs ++ 13 :: rest) =
        (-1, decimal value.natAbs ++ 13 :: rest) :=
      rfl
    have range : toLongLong (-1 * value.natAbs) = value := by
      rw [toLongLong_of_range (by omega) (by omega)]
      omega
    rw [readLongLong, sign, digitsBefore_decimal (by omega), digitsBefore, if_pos rfl]
    exact range
  · rw [readLongLong_decimal (by omega)]
    omega

/-- A text without a carriage return holds no line end. -/
theorem not_crlf_infix {text : Bytes} (clean : 13 ∉ text) : ¬crlf <:+: text := by
  intro inside
  exact clean (inside.subset List.mem_cons_self)

/-- No decimal number holds a line end. -/
theorem not_crlf_infix_decimal (number : Nat) : ¬crlf <:+: decimal number := by
  apply not_crlf_infix
  intro printed
  exact absurd (isDigit_of_mem_decimal printed) (by decide)

/-- No signed decimal number holds a line end. -/
theorem not_crlf_infix_decimalInt (value : Int) : ¬crlf <:+: decimalInt value := by
  apply not_crlf_infix
  unfold decimalInt
  split_ifs
  · rw [List.mem_append]
    rintro (minus | printed)
    · revert minus
      decide
    · exact absurd (isDigit_of_mem_decimal printed) (by decide)
  · intro printed
    exact absurd (isDigit_of_mem_decimal printed) (by decide)

/-- A line is found in front of what follows it. -/
theorem find_line {line : Bytes} (clean : ¬crlf <:+: line) (rest : Bytes) :
    find crlf (line ++ crlf ++ rest) = some line.length := by
  have found := find_pair_append (by decide : (13 : UInt8) ≠ 10) clean rest
  rwa [List.append_assoc]

/-- A line is taken from what follows it. -/
theorem drop_line (line rest : Bytes) : (line ++ crlf ++ rest).drop (line.length + 2) = rest := by
  have size : (line ++ crlf).length = line.length + 2 := List.length_append
  rw [← size, List.drop_left]

/-- The bytes in front of a line end are the line. -/
theorem take_line (line rest : Bytes) : (line ++ crlf ++ rest).take line.length = line := by
  rw [List.append_assoc, List.take_left]

namespace ReplyState

variable {arrays : List OpenArray} {item : ReplyTree} {rest : Bytes}

/-- How the reader goes on behind an item. -/
def resume (completed : Except HiredisFault (List OpenArray ⊕ ReplyTree)) (rest : Bytes) :
    Outcome ReplyState UInt8 ReplyTree ReplyStop :=
  match completed with
  | .error fault => .stop (.fault fault)
  | .ok (.inl arrays) => replyReader.next ⟨none, arrays⟩ rest
  | .ok (.inr reply) => .emit reply start rest

/-- A step that completes an item leads to what is behind it. -/
theorem next_of_finish {state : ReplyState} {input : Bytes}
    (completes : state.read input = finish arrays item rest) :
    replyReader.next state input = resume (complete item arrays) rest := by
  unfold finish at completes
  unfold resume
  split at completes
  · exact Incremental.next_stop completes
  · exact Incremental.next_go completes
  · exact Incremental.next_emit completes

/-- An item is read behind the byte for its type. -/
theorem next_typed {byte : UInt8} (type : ReplyType) {body : Bytes}
    (isType : typeOfByte byte = some type)
    (completes : read ⟨some type, arrays⟩ (body ++ rest) = finish arrays item rest) :
    replyReader.next ⟨none, arrays⟩ (byte :: body ++ rest) =
      resume (complete item arrays) rest := by
  have first : replyReader.read ⟨none, arrays⟩ (byte :: body ++ rest) =
      .go ⟨some type, arrays⟩ (body ++ rest) := by
    change readType arrays (byte :: (body ++ rest)) = _
    rw [readType, isType]
  rw [Incremental.next_go first, next_of_finish completes]

/-- An item of one line is read. -/
theorem readLineItem_line {leaf : Bytes → ReplyLeaf} {line : Bytes} (clean : ¬crlf <:+: line)
    (rest : Bytes) :
    readLineItem arrays leaf (line ++ crlf ++ rest) = finish arrays (.leaf (leaf line)) rest := by
  rw [readLineItem, find_line clean]
  simp only [take_line, drop_line]

/-- A string is read. -/
theorem readBulkItem_string {str : Bytes} (short : str.length < 2 ^ 63) (rest : Bytes) :
    readBulkItem arrays (decimal str.length ++ crlf ++ (str ++ crlf) ++ rest) =
      finish arrays (.leaf (.string str)) rest := by
  have number : readLongLong (decimal str.length ++ crlf ++ (str ++ crlf ++ rest)) =
      str.length := by
    rw [List.append_assoc]
    exact readLongLong_decimal short _
  have whole : (decimal str.length).length + 2 + (str.length + 2) ≤
      (decimal str.length ++ crlf ++ (str ++ crlf ++ rest)).length := by
    simp only [List.length_append, List.length_cons, List.length_nil]
    omega
  have string := drop_line (decimal str.length) (str ++ crlf ++ rest)
  have behind : (decimal str.length ++ crlf ++ (str ++ crlf ++ rest)).drop
      ((decimal str.length).length + 2 + (str.length + 2)) = rest := by
    rw [← List.drop_drop, string, drop_line]
  rw [List.append_assoc, readBulkItem, find_line (not_crlf_infix_decimal _)]
  simp only [number, Int.toNat_natCast, if_neg (Int.not_lt.mpr (Int.natCast_nonneg _)),
    if_pos whole, string, behind, take_line]

/-- An absent string is read. -/
theorem readBulkItem_nil (rest : Bytes) :
    readBulkItem arrays (decimalInt (-1) ++ crlf ++ rest) = finish arrays (.leaf .nil) rest := by
  have number : readLongLong (decimalInt (-1) ++ crlf ++ rest) = -1 := by
    rw [List.append_assoc]
    exact readLongLong_decimalInt (by decide) (by decide) _
  rw [readBulkItem, find_line (not_crlf_infix_decimalInt _)]
  simp only [number, if_pos (by decide : (-1 : Int) < 0), drop_line]

/-- A number is read. -/
theorem readLineItem_integer {value : Int} (low : -2 ^ 63 < value) (high : value < 2 ^ 63)
    (rest : Bytes) :
    readLineItem arrays (fun _ => .integer (readLongLong (decimalInt value ++ crlf ++ rest)))
      (decimalInt value ++ crlf ++ rest) = finish arrays (.leaf (.integer value)) rest := by
  have number : readLongLong (decimalInt value ++ crlf ++ rest) = value := by
    rw [List.append_assoc]
    exact readLongLong_decimalInt low high _
  rw [readLineItem_line (not_crlf_infix_decimalInt value), number]

/-- The reader goes on behind an item that is no array. -/
theorem next_leaf {leaf : ReplyLeaf} (sendable : leaf.Sendable) (arrays : List OpenArray)
    (rest : Bytes) :
    replyReader.next ⟨none, arrays⟩ (leaf.wire ++ rest) =
      resume (complete (.leaf leaf) arrays) rest := by
  cases leaf with
  | string str => exact next_typed .string rfl (readBulkItem_string sendable rest)
  | hollow elements | blank others => exact sendable.elim
  | integer value => exact next_typed .integer rfl (readLineItem_integer sendable.1 sendable.2 rest)
  | nil => exact next_typed .string rfl (readBulkItem_nil rest)
  | status str => exact next_typed .status rfl (readLineItem_line sendable rest)
  | error str => exact next_typed .error rfl (readLineItem_line sendable rest)

/-- The number of elements of an array is read. -/
theorem readMultiBulkItem_count (count : Nat) (few : count < 2 ^ 31) (shallow : arrays.length < 2)
    (rest : Bytes) :
    readMultiBulkItem arrays (decimal count ++ crlf ++ rest) =
      if count = 0 then finish arrays (.leaf (.hollow 0)) rest
      else if hasRoom arrays then .go ⟨none, ⟨count, []⟩ :: arrays⟩ rest
      else .stop (.fault .wildStore) := by
  have number : readLongLong (decimal count ++ crlf ++ rest) = count := by
    rw [List.append_assoc]
    exact readLongLong_decimal (by omega) _
  rw [readMultiBulkItem, if_neg (by omega), find_line (not_crlf_infix_decimal _)]
  simp only [number, drop_line, toInt_of_range (by omega : -2 ^ 31 ≤ (count : Int)) (by omega),
    if_neg (by omega : ¬(count : Int) = -1)]
  by_cases none : count = 0
  · subst none
    rfl
  · rw [if_pos (by omega : (count : Int) > 0), if_neg none]

/-- The reader goes on behind the elements of an array when it does so behind each of them. -/
theorem next_elements {element : List ReplyTree} (done : List ReplyTree) {elements : Nat}
    (nonempty : element ≠ []) (announced : elements = done.length + element.length)
    (each : ∀ item ∈ element, ∀ array rest, OpenArray.HasRoom array →
      replyReader.next ⟨none, array :: arrays⟩ (item.wire ++ rest) =
        resume (complete item (array :: arrays)) rest) (rest : Bytes) :
    replyReader.next ⟨none, ⟨elements, done⟩ :: arrays⟩ (ReplyTree.wires element ++ rest) =
      resume (complete (.array (done ++ element)) arrays) rest := by
  induction element generalizing done with
  | nil => exact absurd rfl nonempty
  | cons item items ih =>
    rw [List.forall_mem_cons] at each
    rw [List.length_cons] at announced
    have room : OpenArray.HasRoom ⟨elements, done⟩ := by
      change (done.length : Int) < elements
      omega
    have next : (OpenArray.push ⟨elements, done⟩ item).HasRoom ↔ items ≠ [] := by
      rw [← List.length_pos_iff]
      change ((done ++ [item]).length : Int) < elements ↔ _
      rw [List.length_append, List.length_singleton]
      omega
    rw [ReplyTree.wires, List.append_assoc, each.1 _ _ room, complete, if_neg (not_not_intro room)]
    by_cases last : items = []
    · subst last
      rw [if_neg (by rw [next]; exact not_not_intro rfl)]
      rfl
    · have later :=
        ih (done ++ [item]) last (by rw [List.length_append, List.length_singleton]; omega) each.2
      rw [List.append_assoc, List.singleton_append] at later
      rw [if_pos (next.mpr last)]
      exact later

/-- The reader goes on behind an item that a server wrote. -/
theorem next_wire {depth : Nat} {item : ReplyTree} (sendable : item.Sendable depth)
    (shallow : arrays.length + depth ≤ 2) (room : hasRoom arrays) (rest : Bytes) :
    replyReader.next ⟨none, arrays⟩ (item.wire ++ rest) = resume (complete item arrays) rest := by
  induction sendable generalizing arrays rest with
  | leaf sendable => exact next_leaf sendable arrays rest
  | empty =>
    have inside : arrays.length < 2 := by omega
    exact next_typed .array rfl (readMultiBulkItem_count 0 (by decide) inside rest)
  | @array depth element nonempty few each ih =>
    have inside : arrays.length < 2 := by omega
    have deeper (array : OpenArray) : (array :: arrays).length + depth ≤ 2 := by
      rw [List.length_cons]
      omega
    have first : replyReader.read ⟨none, arrays⟩ (ReplyTree.wire (.array element) ++ rest) =
        .go ⟨some .array, arrays⟩ (decimal element.length ++ crlf ++
          (ReplyTree.wires element ++ rest)) := by
      rw [ReplyTree.wire, List.cons_append, List.append_assoc]
      rfl
    have count : replyReader.read ⟨some .array, arrays⟩
        (decimal element.length ++ crlf ++ (ReplyTree.wires element ++ rest)) =
          .go ⟨none, ⟨element.length, []⟩ :: arrays⟩ (ReplyTree.wires element ++ rest) := by
      have filled : element.length ≠ 0 := fun empty => nonempty (List.length_eq_zero_iff.mp empty)
      have counted :=
        readMultiBulkItem_count element.length few inside (ReplyTree.wires element ++ rest)
      rwa [if_neg filled, if_pos room] at counted
    have elements := next_elements [] nonempty (Nat.zero_add _).symm
      (fun item listed array rest room =>
        ih item listed (deeper array) (decide_eq_true room) rest) rest
    rw [Incremental.next_go first, Incremental.next_go count, elements, List.nil_append]

/-- A reply that a server wrote is the next output, and what follows it stays. -/
theorem next_reply {reply : ReplyTree} (sendable : reply.Sendable 2) (rest : Bytes) :
    replyReader.next start (reply.wire ++ rest) = .emit reply start rest :=
  next_wire sendable (by decide) rfl rest

/-- Replies that a server wrote are read in order. -/
theorem run_wires {replies : List ReplyTree} (sendable : ∀ reply ∈ replies, reply.Sendable 2)
    (rest : Bytes) :
    replyReader.run start (ReplyTree.wires replies ++ rest) =
      Incremental.behind replies (replyReader.run start rest) := by
  induction replies with
  | nil => rfl
  | cons reply replies ih =>
    rw [List.forall_mem_cons] at sendable
    rw [ReplyTree.wires, List.append_assoc, Incremental.run_emit (next_reply sendable.1 _),
      ih sendable.2]
    rfl

/-- Without bytes the reader stays between two replies. -/
theorem run_nil : replyReader.run start [] = ([], .ok (start, [])) :=
  Incremental.run_pause (Incremental.next_wait rfl)

end ReplyState

/-! ## Counts that fit -/

/-- The number of elements that is read at a place, when an array is announced there. -/
def announcedCount (place : ReplyState × Bytes) : Option Int :=
  if place.1.type = some .array ∧ place.1.arrays.length ≠ 2 ∧ (find crlf place.2).isSome then
    some (readLongLong place.2)
  else none

/-- The numbers of elements of the arrays that a stream announces. -/
def announcedCounts (stream : Bytes) : List Int :=
  (replyReader.visits (stream.length + 1) .start stream).filterMap announcedCount

/-- No array is announced with more elements than an `int` can count. -/
def CountsFit (stream : Bytes) : Prop := ∀ count ∈ announcedCounts stream, count < 2 ^ 31

instance (stream : Bytes) : Decidable (CountsFit stream) :=
  inferInstanceAs (Decidable (∀ count ∈ announcedCounts stream, count < 2 ^ 31))

namespace ReplyState

/-- A state with room for the next item. -/
structure Roomy (state : ReplyState) : Prop where
  known : state.type ≠ some .nil
  room : ∀ array ∈ state.arrays, array.HasRoom

/-- The reason to give up is an error in what the server sent. -/
def IsError (reason : ReplyStop) : Prop := ∃ errstr, reason = .error errstr

/-- A complete item finds its place. -/
theorem complete_room {arrays : List OpenArray} (room : ∀ array ∈ arrays, array.HasRoom)
    (item : ReplyTree) :
    match complete item arrays with
    | .ok (.inl arrays') => ∀ array ∈ arrays', array.HasRoom
    | .ok (.inr _) => True
    | .error _ => False := by
  induction arrays generalizing item with
  | nil => trivial
  | cons array arrays ih =>
    rw [List.forall_mem_cons] at room
    rw [complete, if_neg (not_not_intro room.1)]
    by_cases more : (array.push item).HasRoom
    · rw [if_pos more]
      exact List.forall_mem_cons.mpr ⟨more, room.2⟩
    · rw [if_neg more]
      exact ih room.2 _

variable {stream input : Bytes} {arrays : List OpenArray}

/-- The step behind an item has room for the next one. -/
theorem finish_keeps (room : ∀ array ∈ arrays, array.HasRoom) (item : ReplyTree) (rest : Bytes) :
    (finish arrays item rest).Keeps (fun state _ => Roomy state) IsError := by
  have placed := complete_room room item
  rw [finish]
  cases completed : complete item arrays with
  | error fault =>
    rw [completed] at placed
    exact placed.elim
  | ok result =>
    rw [completed] at placed
    cases result with
    | inl arrays => exact ⟨nofun, placed⟩
    | inr reply => exact ⟨nofun, fun array listed => absurd listed List.not_mem_nil⟩

/-- Nothing announces an absent item. -/
theorem typeOfByte_ne_nil (byte : UInt8) : typeOfByte byte ≠ some .nil := by
  unfold typeOfByte
  split_ifs <;> exact nofun

/-- The type of an item is known behind its byte. -/
theorem readType_keeps (room : ∀ array ∈ arrays, array.HasRoom) (input : Bytes) :
    (readType arrays input).Keeps (fun state _ => Roomy state) IsError := by
  cases input with
  | nil => trivial
  | cons byte rest =>
    have known := typeOfByte_ne_nil byte
    rw [readType]
    cases isType : typeOfByte byte with
    | none => exact ⟨_, rfl⟩
    | some type =>
      rw [isType] at known
      exact ⟨known, room⟩

/-- An item of one line takes its place. -/
theorem readLineItem_keeps (room : ∀ array ∈ arrays, array.HasRoom) (leaf : Bytes → ReplyLeaf)
    (input : Bytes) :
    (readLineItem arrays leaf input).Keeps (fun state _ => Roomy state) IsError := by
  unfold readLineItem
  split
  · trivial
  · exact finish_keeps room _ _

/-- A string takes its place. -/
theorem readBulkItem_keeps (room : ∀ array ∈ arrays, array.HasRoom) (input : Bytes) :
    (readBulkItem arrays input).Keeps (fun state _ => Roomy state) IsError := by
  unfold readBulkItem
  split
  · trivial
  · dsimp only
    split_ifs
    · exact finish_keeps room _ _
    · exact finish_keeps room _ _
    · trivial

/-- An array whose count fits is opened with room for its first element. -/
theorem readMultiBulkItem_keeps (room : ∀ array ∈ arrays, array.HasRoom)
    (fits : ∀ count ∈ announcedCount (⟨some .array, arrays⟩, input), count < 2 ^ 31) :
    (readMultiBulkItem arrays input).Keeps (fun state _ => Roomy state) IsError := by
  -- Every array around the item has room for it.
  have inside : hasRoom arrays := by
    cases arrays with
    | nil => rfl
    | cons array arrays => exact decide_eq_true (room array List.mem_cons_self)
  rw [readMultiBulkItem]
  by_cases nested : arrays.length = 2
  · rw [if_pos nested]
    exact ⟨_, rfl⟩
  · rw [if_neg nested]
    cases found : find crlf input with
    | none => trivial
    | some len =>
      have small : readLongLong input < 2 ^ 31 := by
        apply fits
        rw [announcedCount, if_pos ⟨rfl, nested, by rw [found]; rfl⟩]
        rfl
      simp only [if_pos inside]
      split_ifs with absent filled
      · exact finish_keeps room _ _
      · refine ⟨nofun, List.forall_mem_cons.mpr ⟨?_, room⟩⟩
        change (0 : Int) < toInt (readLongLong input)
        rw [toInt_of_range (by omega) small]
        exact filled
      · exact finish_keeps room _ _

/-- There is room for the item behind a step at which no count is too large. -/
theorem read_keeps {state : ReplyState} (roomy : Roomy state)
    (fits : ∀ count ∈ announcedCount (state, input), count < 2 ^ 31) :
    (replyReader.read state input).Keeps (fun state _ => Roomy state) IsError := by
  obtain ⟨type, arrays⟩ := state
  cases type with
  | none => exact readType_keeps roomy.room input
  | some type =>
    cases type with
    | string => exact readBulkItem_keeps roomy.room input
    | array => exact readMultiBulkItem_keeps roomy.room fits
    | integer =>
      exact readLineItem_keeps roomy.room (fun _ => .integer (readLongLong input)) input
    | nil => exact absurd rfl roomy.known
    | status => exact readLineItem_keeps roomy.room .status input
    | error => exact readLineItem_keeps roomy.room .error input

/-- In a stream whose counts fit the reader has no fault. -/
theorem run_countsFit (fits : CountsFit stream) (fault : HiredisFault) :
    (replyReader.run start stream).2 ≠ .error (.fault fault) := by
  have ends := Incremental.run_preserved_visits (Nat.lt_succ_self stream.length)
    (fun place listed roomy => read_keeps roomy fun count announced =>
      fits count (List.mem_filterMap.mpr ⟨place, listed, announced⟩))
    (⟨nofun, fun array listed => absurd listed List.not_mem_nil⟩ : Roomy start)
  intro faults
  rw [faults] at ends
  obtain ⟨errstr, isError⟩ := ends
  cases isError

end ReplyState

end NetServer
