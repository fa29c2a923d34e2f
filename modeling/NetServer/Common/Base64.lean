import NetServer.Lib.Loop
import NetServer.Common.CStd

/-!
# Base64 text, `Common::Encode` and `Common::Decode`

`Encode` writes four characters for three bytes and a line end after every nineteenth full
group. `Decode` walks the text with a pointer and counts with a separate `i`; the two agree up
to the last group, whose padding the pointer does not pass. A read behind the terminating NUL
and an overflow of `i` are faults of the model, so a result says that there was none.
-/

namespace NetServer

open Lib

namespace Base64

/-- `m_EncodeTable`. -/
def encodeTable : Bytes := bytes "ABCDEFGHIJKLMNOPQRSTUVWXYZabcdefghijklmnopqrstuvwxyz0123456789+/"

/-- The character of a sextet. -/
def encodeChar (index : Nat) : UInt8 := encodeTable.getD index 0

/-- The padding character `'='`. -/
abbrev pad : UInt8 := 61

/-- One pass of the second loop of `Common::initBase64`. -/
def initStep (table : UInt8 → Int) (i : Nat) : UInt8 → Int :=
  Function.update (Function.update (Function.update (Function.update table
    (encodeChar i) i) (encodeChar i ||| 0x80) i) pad (-1)) (pad ||| 0x80) (-1)

/-- `m_DecodeTable` after `Common::initBase64`. -/
def decodeTable : UInt8 → Int := (List.range 64).foldl initStep fun _ => -1

/-- `Common::EncodeInput1`. -/
def encodeInput1 (a : UInt8) : Bytes :=
  [encodeChar ((a.toNat &&& 0xFC) >>> 2), encodeChar ((a.toNat &&& 0x03) <<< 4), pad, pad]

/-- `Common::EncodeInput2`. -/
def encodeInput2 (a b : UInt8) : Bytes :=
  [encodeChar ((a.toNat &&& 0xFC) >>> 2),
    encodeChar (((a.toNat &&& 0x03) <<< 4) ||| ((b.toNat &&& 0xF0) >>> 4)),
    encodeChar ((b.toNat &&& 0x0F) <<< 2), pad]

/-- `Common::EncodeInput3`. -/
def encodeInput3 (a b c : UInt8) : Bytes :=
  [encodeChar (a.toNat >>> 2),
    encodeChar (((a.toNat <<< 4) ||| (b.toNat >>> 4)) &&& 0x3F),
    encodeChar (((b.toNat <<< 2) ||| (c.toNat >>> 6)) &&& 0x3F),
    encodeChar (c.toNat &&& 0x3F)]

/-- The loop of `Common::Encode` over full groups: the text so far and the data left. -/
def encodeLoop : Nat → Bytes → Nat → Bytes → Bytes × Bytes
  | count + 1, a :: b :: c :: pData, lineLen, strEncode =>
    if lineLen + 4 = 76 then encodeLoop count pData 0 (strEncode ++ encodeInput3 a b c ++ crlf)
    else encodeLoop count pData (lineLen + 4) (strEncode ++ encodeInput3 a b c)
  | _, pData, _, strEncode => (strEncode, pData)

/-- `Common::Encode` on data of its own length. -/
def encode (data : Bytes) : Bytes :=
  let (strEncode, pData) := encodeLoop (data.length / 3) data 0 []
  if data.length % 3 = 1 then strEncode ++ encodeInput1 (pData.getD 0 0)
  else if data.length % 3 = 2 then strEncode ++ encodeInput2 (pData.getD 0 0) (pData.getD 1 0)
  else strEncode

/-- What can go wrong in `Common::Decode`. -/
inductive DecodeFault where
  /-- A read behind the terminating NUL of the text. -/
  | readPast
  /-- The counter `i` leaves the range of `int`. -/
  | overflow
  deriving DecidableEq, Repr

/-- Locals of `Common::Decode`: the pointer as an offset, the counter, the decoded text and the
caller's byte count, if there is one. -/
structure DecodeState where
  pData : Nat
  i : Int
  strDecode : Bytes
  nByte : Option Int
  deriving DecidableEq, Repr

/-- `*pData` at an offset, in memory that holds the text and its terminating NUL. -/
def peek (memory : Bytes) (offset : Nat) : Except DecodeFault UInt8 :=
  match memory[offset]? with
  | some c => .ok c
  | none => .error .readPast

/-- Append the low byte of an `int` and count it. -/
def DecodeState.emit (state : DecodeState) (value : BitVec 32) : DecodeState :=
  { state with
    strDecode := state.strDecode ++ [.ofBitVec (value.setWidth 8)]
    nByte := state.nByte.map (· + 1) }

/-- Advance the pointer and the counter. -/
def DecodeState.advance (state : DecodeState) (bytes : Nat) (count : Int) :
    Except DecodeFault DecodeState :=
  if state.i + count < 2 ^ 31 then
    .ok { state with pData := state.pData + bytes, i := state.i + count }
  else .error .overflow

/-- One pass of the loop of `Common::Decode` at a group, whose first character is read. -/
def decodeGroup (memory : Bytes) (state : DecodeState) (c0 : UInt8) :
    Except DecodeFault DecodeState := do
  let c1 ← peek memory (state.pData + 1)
  let nValue := decodeTable c0 * 2 ^ 18 + decodeTable c1 * 2 ^ 12
  let state := state.emit ((BitVec.ofInt 32 nValue &&& 0x00FF0000#32) >>> 16)
  let c2 ← peek memory (state.pData + 2)
  if c2 = pad then
    state.advance 2 4
  else
    let nValue := nValue + decodeTable c2 * 2 ^ 6
    let state := state.emit ((BitVec.ofInt 32 nValue &&& 0x0000FF00#32) >>> 8)
    let c3 ← peek memory (state.pData + 3)
    if c3 = pad then
      state.advance 3 4
    else
      let nValue := nValue + decodeTable c3
      let state := state.emit (BitVec.ofInt 32 nValue &&& 0x000000FF#32)
      state.advance 4 4

/-- One test and pass of the loop of `Common::Decode`. -/
def decodeIteration (memory : Bytes) (dataLen : Int) (state : DecodeState) :
    Except DecodeFault (DecodeState ⊕ DecodeState) :=
  if state.i < dataLen then do
    let c0 ← peek memory state.pData
    if c0 ≠ 13 ∧ c0 ≠ 10 then
      return .inl (← decodeGroup memory state c0)
    else
      return .inl (← state.advance 1 1)
  else
    return .inr state

/-- Advancing moves the counter forward without overflow. -/
theorem DecodeState.advance_ok {state next : DecodeState} {bytes : Nat} {count : Int}
    (advanced : state.advance bytes count = .ok next) : next.i = state.i + count := by
  unfold advance at advanced
  split at advanced
  · cases advanced
    rfl
  · cases advanced

/-- Emitting a byte leaves the counter alone. -/
@[simp]
theorem DecodeState.emit_i (state : DecodeState) (value : BitVec 32) :
    (state.emit value).i = state.i :=
  rfl

/-- A decoded group counts four characters. -/
theorem decodeGroup_i {memory : Bytes} {state next : DecodeState} {c0 : UInt8}
    (decoded : decodeGroup memory state c0 = .ok next) : next.i = state.i + 4 := by
  unfold decodeGroup at decoded
  cases first : peek memory (state.pData + 1) with
  | error e => simp [first, bind, Except.bind] at decoded
  | ok c1 =>
    simp only [first, bind, Except.bind] at decoded
    split at decoded
    · cases decoded
    · split at decoded
      · simpa using DecodeState.advance_ok decoded
      · split at decoded
        · cases decoded
        · split at decoded
          · simpa using DecodeState.advance_ok decoded
          · simpa using DecodeState.advance_ok decoded

/-- Every pass of the loop brings the counter closer to the length. -/
theorem decodeIteration_shrinks (memory : Bytes) (dataLen : Int) (state next : DecodeState)
    (continued : decodeIteration memory dataLen state = .ok (.inl next)) :
    (dataLen - next.i).toNat < (dataLen - state.i).toNat := by
  unfold decodeIteration at continued
  split at continued
  · rename_i inside
    cases read : peek memory state.pData with
    | error e => simp [read, bind, Except.bind] at continued
    | ok c0 =>
      simp only [read, bind, Except.bind] at continued
      split at continued
      · cases group : decodeGroup memory state c0 with
        | error e => simp [group] at continued
        | ok after =>
          simp only [group, pure, Except.pure, Except.ok.injEq, Sum.inl.injEq] at continued
          subst continued
          have counted := decodeGroup_i group
          omega
      · cases skipped : state.advance 1 1 with
        | error e => simp [skipped] at continued
        | ok after =>
          simp only [skipped, pure, Except.pure, Except.ok.injEq, Sum.inl.injEq] at continued
          subst continued
          have counted := DecodeState.advance_ok skipped
          omega
  · cases continued

/-- `Common::Decode` on memory that holds a text and its terminating NUL, with the caller's
`nByte`. -/
def decode (memory : Bytes) (dataLen : Int) (nByte : Option Int) :
    Except DecodeFault (Bytes × Option Int) := do
  let last ← loop (decodeIteration memory dataLen) (fun state => (dataLen - state.i).toNat)
    (decodeIteration_shrinks memory dataLen) ⟨0, 0, [], nByte.map fun _ => 0⟩
  return (last.strDecode, last.nByte)

/-! ## Sextets -/

/-- The characters of sextets are neither line ends nor padding, and the decode table takes
them back. -/
theorem encodeChar_spec : ∀ index < 64, encodeChar index ≠ 13 ∧ encodeChar index ≠ 10 ∧
    encodeChar index ≠ pad ∧ decodeTable (encodeChar index) = index := by
  decide +kernel

/-- So are they with the eighth bit set. -/
theorem encodeChar_marked_spec :
    ∀ index < 64, encodeChar index ||| 0x80 ≠ 13 ∧ encodeChar index ||| 0x80 ≠ 10 ∧
      encodeChar index ||| 0x80 ≠ pad ∧ decodeTable (encodeChar index ||| 0x80) = index := by
  decide +kernel

/-- A character stands for a sextet: it is the sextet's, perhaps with the eighth bit set. -/
structure IsSextet (c : UInt8) (value : Nat) : Prop where
  small : value < 64
  char : c = encodeChar value ∨ c = encodeChar value ||| 0x80

/-- The character of a sextet stands for it. -/
theorem isSextet_encodeChar {index : Nat} (small : index < 64) :
    IsSextet (encodeChar index) index :=
  ⟨small, .inl rfl⟩

namespace IsSextet

variable {c : UInt8} {value : Nat}

/-- What `Common::Decode` sees of a character that stands for a sextet. -/
theorem spec (sextet : IsSextet c value) : c ≠ 13 ∧ c ≠ 10 ∧ c ≠ pad ∧ decodeTable c = value := by
  rcases sextet.char with rfl | rfl
  · exact encodeChar_spec value sextet.small
  · exact encodeChar_marked_spec value sextet.small

/-- A letter of the alphabet is no carriage return. -/
theorem noCr (sextet : IsSextet c value) : c ≠ 13 := sextet.spec.1

/-- A letter of the alphabet is no line feed. -/
theorem noLf (sextet : IsSextet c value) : c ≠ 10 := sextet.spec.2.1

/-- A letter of the alphabet is not the padding character. -/
theorem noPad (sextet : IsSextet c value) : c ≠ pad := sextet.spec.2.2.1

/-- The table gives a letter of the alphabet its value. -/
theorem table (sextet : IsSextet c value) : decodeTable c = value := sextet.spec.2.2.2

end IsSextet

/-- The leading sextet of a byte. -/
theorem leadingSextet (a : UInt8) : (a.toNat &&& 0xFC) >>> 2 = a.toNat / 4 := by
  have bound := a.toNat_lt
  rw [Nat.shiftRight_and_distrib, show 0xFC >>> 2 = 2 ^ 6 - 1 from rfl,
    Nat.and_two_pow_sub_one_eq_mod, Nat.shiftRight_eq_div_pow]
  omega

/-- Sextets of a last group of one byte. -/
theorem encodeInput1_eq (a : UInt8) :
    encodeInput1 a = [encodeChar (a.toNat / 4), encodeChar (a.toNat % 4 * 16), pad, pad] := by
  have low : (a.toNat &&& 0x03) <<< 4 = a.toNat % 4 * 16 := by
    rw [show 0x03 = 2 ^ 2 - 1 from rfl, Nat.and_two_pow_sub_one_eq_mod, Nat.shiftLeft_eq]
  rw [encodeInput1, leadingSextet, low]

/-- Sextets of a last group of two bytes. -/
theorem encodeInput2_eq (a b : UInt8) :
    encodeInput2 a b = [encodeChar (a.toNat / 4),
      encodeChar (a.toNat % 4 * 16 + b.toNat / 16), encodeChar (b.toNat % 16 * 4), pad] := by
  have boundB := b.toNat_lt
  have upper : (b.toNat &&& 0xF0) >>> 4 = b.toNat / 16 := by
    rw [Nat.shiftRight_and_distrib, show 0xF0 >>> 4 = 2 ^ 4 - 1 from rfl,
      Nat.and_two_pow_sub_one_eq_mod, Nat.shiftRight_eq_div_pow]
    omega
  have middle : (a.toNat &&& 0x03) <<< 4 ||| (b.toNat &&& 0xF0) >>> 4 =
      a.toNat % 4 * 16 + b.toNat / 16 := by
    rw [upper, ← Nat.shiftLeft_add_eq_or_of_lt (by omega), show 0x03 = 2 ^ 2 - 1 from rfl,
      Nat.and_two_pow_sub_one_eq_mod, Nat.shiftLeft_eq]
  have low : (b.toNat &&& 0x0F) <<< 2 = b.toNat % 16 * 4 := by
    rw [show 0x0F = 2 ^ 4 - 1 from rfl, Nat.and_two_pow_sub_one_eq_mod, Nat.shiftLeft_eq]
  rw [encodeInput2, leadingSextet, middle, low]

/-- Sextets of a full group. -/
theorem encodeInput3_eq (a b c : UInt8) :
    encodeInput3 a b c = [encodeChar (a.toNat / 4),
      encodeChar (a.toNat % 4 * 16 + b.toNat / 16),
      encodeChar (b.toNat % 16 * 4 + c.toNat / 64), encodeChar (c.toNat % 64)] := by
  have boundB := b.toNat_lt
  have boundC := c.toNat_lt
  have second : (a.toNat <<< 4 ||| b.toNat >>> 4) &&& 0x3F =
      a.toNat % 4 * 16 + b.toNat / 16 := by
    rw [show 0x3F = 2 ^ 6 - 1 from rfl, Nat.and_two_pow_sub_one_eq_mod,
      Nat.shiftRight_eq_div_pow, ← Nat.shiftLeft_add_eq_or_of_lt (by omega), Nat.shiftLeft_eq]
    omega
  have third : (b.toNat <<< 2 ||| c.toNat >>> 6) &&& 0x3F =
      b.toNat % 16 * 4 + c.toNat / 64 := by
    rw [show 0x3F = 2 ^ 6 - 1 from rfl, Nat.and_two_pow_sub_one_eq_mod,
      Nat.shiftRight_eq_div_pow, ← Nat.shiftLeft_add_eq_or_of_lt (by omega), Nat.shiftLeft_eq]
    omega
  have fourth : c.toNat &&& 0x3F = c.toNat % 64 := by
    rw [show 0x3F = 2 ^ 6 - 1 from rfl, Nat.and_two_pow_sub_one_eq_mod]
  rw [encodeInput3, second, third, fourth, Nat.shiftRight_eq_div_pow]

/-! ## Bytes of a sum -/

/-- The byte `Common::Decode` masks out of a non-negative `int` and shifts down. -/
theorem maskedByte (value shift : Nat) (mask : BitVec 32) (small : value < 2 ^ 32)
    (byte : mask.toNat >>> shift = 255) :
    UInt8.ofBitVec (((BitVec.ofInt 32 (value : Int) &&& mask) >>> shift).setWidth 8) =
      UInt8.ofNat (value / 2 ^ shift) := by
  apply UInt8.toNat_inj.mp
  have whole : (BitVec.ofInt 32 (value : Int)).toNat = value := by
    rw [BitVec.ofInt_natCast, BitVec.toNat_ofNat, Nat.mod_eq_of_lt small]
  rw [UInt8.toNat_ofBitVec, BitVec.toNat_setWidth, BitVec.toNat_ushiftRight, BitVec.toNat_and,
    whole, Nat.shiftRight_and_distrib, byte, show 255 = 2 ^ 8 - 1 from rfl,
    Nat.and_two_pow_sub_one_eq_mod, Nat.shiftRight_eq_div_pow, Nat.mod_mod, UInt8.toNat_ofNat']

/-- The byte read at an offset behind the pointer. -/
theorem peek_drop (memory : Bytes) (start offset : Nat) :
    peek memory (start + offset) = peek (memory.drop start) offset := by
  simp only [peek, List.getElem?_drop]

/-- The locals after some characters gave some bytes. -/
def DecodeState.decoded (state : DecodeState) (bytes : Nat) (count : Int) (data : Bytes) :
    DecodeState :=
  ⟨state.pData + bytes, state.i + count, state.strDecode ++ data,
    state.nByte.map (· + (data.length : Int))⟩

/-- The first byte of a group, from its first two sextets. -/
theorem firstByte {a b0 : Nat} (boundA : a < 256) (boundB : b0 < 16) :
    UInt8.ofBitVec (((BitVec.ofInt 32 (((a / 4 : Nat) : Int) * 2 ^ 18 +
      ((a % 4 * 16 + b0 : Nat) : Int) * 2 ^ 12) &&& 0x00FF0000#32) >>> 16).setWidth 8) =
      UInt8.ofNat a := by
  have sum : ((a / 4 : Nat) : Int) * 2 ^ 18 + ((a % 4 * 16 + b0 : Nat) : Int) * 2 ^ 12 =
      ((a * 2 ^ 16 + b0 * 2 ^ 12 : Nat) : Int) := by omega
  rw [sum, maskedByte _ _ _ (by omega) (by decide)]
  congr 1
  omega

/-- The second byte of a group, from its first three sextets. -/
theorem secondByte {a b c0 : Nat} (boundA : a < 256) (boundB : b < 256) (boundC : c0 < 4) :
    UInt8.ofBitVec (((BitVec.ofInt 32 (((a / 4 : Nat) : Int) * 2 ^ 18 +
      ((a % 4 * 16 + b / 16 : Nat) : Int) * 2 ^ 12 + ((b % 16 * 4 + c0 : Nat) : Int) * 2 ^ 6) &&&
        0x0000FF00#32) >>> 8).setWidth 8) = UInt8.ofNat b := by
  have sum : ((a / 4 : Nat) : Int) * 2 ^ 18 + ((a % 4 * 16 + b / 16 : Nat) : Int) * 2 ^ 12 +
      ((b % 16 * 4 + c0 : Nat) : Int) * 2 ^ 6 =
      ((a * 2 ^ 16 + b * 2 ^ 8 + c0 * 2 ^ 6 : Nat) : Int) := by omega
  rw [sum, maskedByte _ _ _ (by omega) (by decide)]
  apply UInt8.toNat_inj.mp
  simp only [UInt8.toNat_ofNat']
  omega

/-- The third byte of a group, from its four sextets. -/
theorem thirdByte {a b c : Nat} (boundA : a < 256) (boundB : b < 256) (boundC : c < 256) :
    UInt8.ofBitVec ((BitVec.ofInt 32 (((a / 4 : Nat) : Int) * 2 ^ 18 +
      ((a % 4 * 16 + b / 16 : Nat) : Int) * 2 ^ 12 +
      ((b % 16 * 4 + c / 64 : Nat) : Int) * 2 ^ 6 + ((c % 64 : Nat) : Int)) &&&
        0x000000FF#32).setWidth 8) = UInt8.ofNat c := by
  have sum : ((a / 4 : Nat) : Int) * 2 ^ 18 + ((a % 4 * 16 + b / 16 : Nat) : Int) * 2 ^ 12 +
      ((b % 16 * 4 + c / 64 : Nat) : Int) * 2 ^ 6 + ((c % 64 : Nat) : Int) =
      ((a * 2 ^ 16 + b * 2 ^ 8 + c : Nat) : Int) := by omega
  have byte := maskedByte (a * 2 ^ 16 + b * 2 ^ 8 + c) 0 0x000000FF#32 (by omega) (by decide)
  rw [BitVec.ushiftRight_zero] at byte
  rw [sum, byte]
  apply UInt8.toNat_inj.mp
  simp only [UInt8.toNat_ofNat']
  omega

section

variable {memory rest : Bytes} {dataLen : Int} {state : DecodeState}

/-- Reading ahead in known text. -/
theorem peek_ahead {text : Bytes} {c : UInt8} (offset : Nat)
    (ahead : memory.drop state.pData = text) (char : text[offset]? = some c) :
    peek memory (state.pData + offset) = .ok c := by
  rw [peek_drop, ahead, peek, char]

/-- Advancing within the range of `int`. -/
theorem DecodeState.advance_eq (bytes : Nat) {count : Int} (room : state.i + count < 2 ^ 31) :
    state.advance bytes count =
      .ok { state with pData := state.pData + bytes, i := state.i + count } :=
  if_pos room

/-- A group is decoded where its first character is no line end. -/
theorem decodeIteration_group {c0 : UInt8} {next : DecodeState} (inside : state.i < dataLen)
    (first : peek memory state.pData = .ok c0) (noCr : c0 ≠ 13) (noLf : c0 ≠ 10)
    (group : decodeGroup memory state c0 = .ok next) :
    decodeIteration memory dataLen state = .ok (.inl next) := by
  simp only [decodeIteration, inside, first, group, noCr, noLf, ↓reduceIte, bind, Except.bind,
    pure, Except.pure, ne_eq, not_false_eq_true, and_self]

/-- A line end is skipped. -/
theorem decodeIteration_lineEnd {c0 : UInt8} (inside : state.i < dataLen)
    (room : state.i + 1 < 2 ^ 31) (first : peek memory state.pData = .ok c0)
    (lineEnd : c0 = 13 ∨ c0 = 10) :
    decodeIteration memory dataLen state = .ok (.inl (state.decoded 1 1 [])) := by
  have skipped : ¬(c0 ≠ 13 ∧ c0 ≠ 10) := by tauto
  simp only [decodeIteration, inside, first, skipped, ↓reduceIte, bind, Except.bind, pure,
    Except.pure, DecodeState.advance_eq 1 room]
  simp [DecodeState.decoded]

/-- Four characters for the sextets of three bytes give the bytes back. -/
theorem decodeIteration_three {a b c c0 c1 c2 c3 : UInt8}
    (ahead : memory.drop state.pData = [c0, c1, c2, c3] ++ rest)
    (first : IsSextet c0 (a.toNat / 4)) (second : IsSextet c1 (a.toNat % 4 * 16 + b.toNat / 16))
    (third : IsSextet c2 (b.toNat % 16 * 4 + c.toNat / 64)) (fourth : IsSextet c3 (c.toNat % 64))
    (inside : state.i < dataLen) (room : state.i + 4 < 2 ^ 31) :
    decodeIteration memory dataLen state = .ok (.inl (state.decoded 4 4 [a, b, c])) := by
  have boundA := a.toNat_lt
  have boundB := b.toNat_lt
  have boundC := c.toNat_lt
  apply decodeIteration_group inside (peek_ahead 0 ahead rfl) first.noCr first.noLf
  have emitA := @firstByte a.toNat (b.toNat / 16) (by omega) (by omega)
  have emitB := @secondByte a.toNat b.toNat (c.toNat / 64) (by omega) (by omega) (by omega)
  have emitC := @thirdByte a.toNat b.toNat c.toNat (by omega) (by omega) (by omega)
  simp only [decodeGroup, peek_ahead 1 ahead rfl, bind, Except.bind, first.table, second.table,
    DecodeState.emit, emitA, peek_ahead 2 ahead rfl, third.noPad, ↓reduceIte, third.table, emitB,
    peek_ahead 3 ahead rfl, fourth.noPad, fourth.table, emitC, DecodeState.advance, room]
  simp [DecodeState.decoded, Function.comp_def, add_assoc]

/-- Three characters for the sextets of two bytes give the bytes back, with the pointer left on the
padding. -/
theorem decodeIteration_two {a b c0 c1 c2 : UInt8}
    (ahead : memory.drop state.pData = [c0, c1, c2, pad] ++ rest)
    (first : IsSextet c0 (a.toNat / 4)) (second : IsSextet c1 (a.toNat % 4 * 16 + b.toNat / 16))
    (third : IsSextet c2 (b.toNat % 16 * 4)) (inside : state.i < dataLen)
    (room : state.i + 4 < 2 ^ 31) :
    decodeIteration memory dataLen state = .ok (.inl (state.decoded 3 4 [a, b])) := by
  have boundA := a.toNat_lt
  have boundB := b.toNat_lt
  apply decodeIteration_group inside (peek_ahead 0 ahead rfl) first.noCr first.noLf
  have emitA := @firstByte a.toNat (b.toNat / 16) (by omega) (by omega)
  have emitB := @secondByte a.toNat b.toNat 0 (by omega) (by omega) (by omega)
  rw [add_zero] at emitB
  simp only [decodeGroup, peek_ahead 1 ahead rfl, bind, Except.bind, first.table, second.table,
    DecodeState.emit, emitA, peek_ahead 2 ahead rfl, third.noPad, ↓reduceIte, third.table, emitB,
    peek_ahead 3 ahead rfl, DecodeState.advance, room]
  simp [DecodeState.decoded, Function.comp_def, add_assoc]

/-- Two characters for the sextets of one byte give the byte back, with the pointer left on the
padding. -/
theorem decodeIteration_one {a c0 c1 : UInt8}
    (ahead : memory.drop state.pData = [c0, c1, pad] ++ rest) (first : IsSextet c0 (a.toNat / 4))
    (second : IsSextet c1 (a.toNat % 4 * 16)) (inside : state.i < dataLen)
    (room : state.i + 4 < 2 ^ 31) :
    decodeIteration memory dataLen state = .ok (.inl (state.decoded 2 4 [a])) := by
  have boundA := a.toNat_lt
  apply decodeIteration_group inside (peek_ahead 0 ahead rfl) first.noCr first.noLf
  have emitA := @firstByte a.toNat 0 (by omega) (by omega)
  rw [add_zero] at emitA
  simp only [decodeGroup, peek_ahead 1 ahead rfl, bind, Except.bind, first.table, second.table,
    DecodeState.emit, emitA, peek_ahead 2 ahead rfl, ↓reduceIte, DecodeState.advance, room]
  simp [DecodeState.decoded]

end

/-! ## Whole texts -/

/-- The text `Common::Encode` writes for the data behind a line of `lineLen` characters. -/
def encodeFrom (lineLen : Nat) : Bytes → Bytes
  | a :: b :: c :: data =>
    encodeInput3 a b c ++
      if lineLen + 4 = 76 then crlf ++ encodeFrom 0 data else encodeFrom (lineLen + 4) data
  | [a, b] => encodeInput2 a b
  | [a] => encodeInput1 a
  | [] => []

/-- The loop over full groups and the last group write `encodeFrom` behind the text so far. -/
theorem encodeLoop_spec (lineLen : Nat) (data strEncode : Bytes) :
    (let (text, pData) := encodeLoop (data.length / 3) data lineLen strEncode
    if data.length % 3 = 1 then text ++ encodeInput1 (pData.getD 0 0)
    else if data.length % 3 = 2 then text ++ encodeInput2 (pData.getD 0 0) (pData.getD 1 0)
    else text) = strEncode ++ encodeFrom lineLen data := by
  induction lineLen, data using encodeFrom.induct generalizing strEncode with
  | case1 lineLen a b c data atLineEnd inLine =>
    have groups : (a :: b :: c :: data).length / 3 = data.length / 3 + 1 := by
      simp only [List.length_cons]
      omega
    have left : (a :: b :: c :: data).length % 3 = data.length % 3 := by
      simp only [List.length_cons]
      omega
    rw [groups, left, encodeLoop, encodeFrom]
    by_cases lineEnd : lineLen + 4 = 76
    · rw [if_pos lineEnd, if_pos lineEnd, atLineEnd]
      simp only [List.append_assoc]
    · rw [if_neg lineEnd, if_neg lineEnd, inLine]
      simp only [List.append_assoc]
  | case2 lineLen a b => simp [encodeLoop, encodeFrom]
  | case3 lineLen a => simp [encodeLoop, encodeFrom]
  | case4 lineLen => simp [encodeLoop, encodeFrom]

/-- `Common::Encode` starts on an empty line. -/
theorem encode_eq (data : Bytes) : encode data = encodeFrom 0 data := by
  simpa [encode] using encodeLoop_spec 0 data []

section

variable {memory : Bytes} {dataLen : Int}

/-- The loop of `Common::Decode`. -/
abbrev decodeLoop (memory : Bytes) (dataLen : Int) : DecodeState → Except DecodeFault DecodeState :=
  loop (decodeIteration memory dataLen) (fun state => (dataLen - state.i).toNat)
    (decodeIteration_shrinks memory dataLen)

/-- The loop ends when the counter has reached the length. -/
theorem decodeLoop_done {state : DecodeState} (reached : dataLen ≤ state.i) :
    decodeLoop memory dataLen state = .ok state := by
  apply loop_return
  have outside : ¬state.i < dataLen := by omega
  simp only [decodeIteration, outside, ↓reduceIte, pure, Except.pure]

/-- What the loop returns when the text ahead encodes `data`: the data behind what is decoded
already, and their number counted. -/
def Gives (memory : Bytes) (dataLen : Int) (state : DecodeState) (data : Bytes) : Prop :=
  ∃ last, decodeLoop memory dataLen state = .ok last ∧
    last.strDecode = state.strDecode ++ data ∧
    last.nByte = state.nByte.map (· + (data.length : Int))

/-- A loop that ends with some data decoded gives them. -/
theorem gives_of_decoded {state : DecodeState} {bytes : Nat} {count : Int} {data : Bytes}
    (ends : decodeLoop memory dataLen state = .ok (state.decoded bytes count data)) :
    Gives memory dataLen state data := ⟨_, ends, rfl, rfl⟩

/-- The pointer moved past known text. -/
theorem DecodeState.drop_decoded {state : DecodeState} {text rest : Bytes} {bytes : Nat}
    (ahead : memory.drop state.pData = text ++ rest) (passed : bytes = text.length) (count : Int)
    (data : Bytes) : memory.drop (state.decoded bytes count data).pData = rest := by
  simp only [DecodeState.decoded]
  rw [← List.drop_drop, ahead, passed, List.drop_left]

/-- Nothing decoded changes nothing. -/
theorem DecodeState.decoded_nil (state : DecodeState) : state.decoded 0 0 [] = state := by
  simp [DecodeState.decoded]

/-- What is decoded in two parts is decoded as a whole. -/
theorem DecodeState.decoded_decoded (state : DecodeState) (bytes bytes' : Nat) (count count' : Int)
    (data data' : Bytes) : (state.decoded bytes count data).decoded bytes' count' data' =
      state.decoded (bytes + bytes') (count + count') (data ++ data') := by
  simp [DecodeState.decoded, Function.comp_def, add_assoc]

/-- Text of line ends and full groups, with the data of the groups. -/
inductive Lines : Bytes → Bytes → Prop
  | nil : Lines [] []
  | lineEnd {c : UInt8} {text data : Bytes} (is : c = 13 ∨ c = 10) (behind : Lines text data) :
    Lines (c :: text) data
  | group {a b c c0 c1 c2 c3 : UInt8} {text data : Bytes} (first : IsSextet c0 (a.toNat / 4))
    (second : IsSextet c1 (a.toNat % 4 * 16 + b.toNat / 16))
      (third : IsSextet c2 (b.toNat % 16 * 4 + c.toNat / 64))
    (fourth : IsSextet c3 (c.toNat % 64)) (behind : Lines text data) :
    Lines ([c0, c1, c2, c3] ++ text) ([a, b, c] ++ data)

/-- The characters of a last group that is not full, without its padding, and its data. -/
inductive Tail : Bytes → Bytes → Prop
  | one {a c0 c1 : UInt8} (first : IsSextet c0 (a.toNat / 4))
    (second : IsSextet c1 (a.toNat % 4 * 16)) :
    Tail [c0, c1] [a]
  | two {a b c0 c1 c2 : UInt8} (first : IsSextet c0 (a.toNat / 4))
    (second : IsSextet c1 (a.toNat % 4 * 16 + b.toNat / 16))
      (third : IsSextet c2 (b.toNat % 16 * 4)) :
    Tail [c0, c1, c2] [a, b]

/-- The loop passes line ends and full groups with their data decoded, the counter in step with the
pointer. -/
theorem Lines.decodeLoop_eq {text data rest : Bytes} {state : DecodeState} (lines : Lines text data)
    (ahead : memory.drop state.pData = text ++ rest)
    (inside : state.i + (text.length : Int) ≤ dataLen) (small : dataLen < 2 ^ 31) :
    decodeLoop memory dataLen state =
      decodeLoop memory dataLen (state.decoded text.length text.length data) := by
  induction lines generalizing state with
  | nil => simp [DecodeState.decoded_nil]
  | @lineEnd c text data is behind ih =>
    rw [List.length_cons, Nat.cast_succ] at inside ⊢
    have front : memory.drop state.pData = [c] ++ (text ++ rest) := ahead
    have counted : (state.decoded 1 1 []).i = state.i + 1 := rfl
    have skipped : decodeIteration memory dataLen state = _ :=
      decodeIteration_lineEnd (by omega) (by omega) (peek_ahead 0 front rfl) is
    calc decodeLoop memory dataLen state = decodeLoop memory dataLen (state.decoded 1 1 []) :=
      loop_continue skipped
      _ = decodeLoop memory dataLen ((state.decoded 1 1 []).decoded text.length text.length data) :=
        ih (DecodeState.drop_decoded front rfl 1 []) (by omega)
      _ = _ := by rw [DecodeState.decoded_decoded, add_comm 1, add_comm 1, List.nil_append]
  | @group a b c c0 c1 c2 c3 text data first second third fourth behind ih =>
    have length : ([c0, c1, c2, c3] ++ text).length = 4 + text.length := by
      simp only [List.length_append, List.length_cons, List.length_nil]
    rw [length, Nat.cast_add, Nat.cast_ofNat] at inside ⊢
    rw [List.append_assoc] at ahead
    have counted : (state.decoded 4 4 [a, b, c]).i = state.i + 4 := rfl
    have taken : decodeIteration memory dataLen state = _ :=
      decodeIteration_three ahead first second third fourth (by omega) (by omega)
    calc decodeLoop memory dataLen state =
      decodeLoop memory dataLen (state.decoded 4 4 [a, b, c]) := loop_continue taken
      _ = decodeLoop memory dataLen
          ((state.decoded 4 4 [a, b, c]).decoded text.length text.length data) :=
        ih (DecodeState.drop_decoded ahead rfl 4 [a, b, c]) (by omega)
      _ = _ := by rw [DecodeState.decoded_decoded]

/-- A last group behind which padding stands is decoded, with the pointer left on the padding. -/
theorem Tail.decodeIteration_eq {chars data rest : Bytes} {state : DecodeState}
    (tail : Tail chars data) (ahead : memory.drop state.pData = chars ++ pad :: rest)
    (inside : state.i < dataLen) (room : state.i + 4 < 2 ^ 31) :
    decodeIteration memory dataLen state = .ok (.inl (state.decoded chars.length 4 data)) := by
  cases tail with
  | one first second => exact decodeIteration_one ahead first second inside room
  | two first second third => exact decodeIteration_two ahead first second third inside room

/-- A text as it is taken apart: line ends and full groups, and a last group that is not full behind
them. -/
inductive Written : Bytes → Bytes → Prop
  | full {text data : Bytes} (lines : Lines text data) : Written text data
  | padded {front chars closing full data : Bytes} (lines : Lines front full)
    (tail : Tail chars data)
    (whole : chars.length + (pad :: closing).length = 4) :
    Written (front ++ (chars ++ pad :: closing)) (full ++ data)

/-- Behind a line end a text is taken apart as before. -/
theorem Written.lineEnd {c : UInt8} {text data : Bytes} (written : Written text data)
    (is : c = 13 ∨ c = 10) : Written (c :: text) data := by
  cases written with
  | full lines => exact .full (.lineEnd is lines)
  | padded lines tail whole => exact .padded (.lineEnd is lines) tail whole

/-- Behind a full group a text is taken apart as before. -/
theorem Written.group {a b c c0 c1 c2 c3 : UInt8} {text data : Bytes} (written : Written text data)
    (first : IsSextet c0 (a.toNat / 4)) (second : IsSextet c1 (a.toNat % 4 * 16 + b.toNat / 16))
    (third : IsSextet c2 (b.toNat % 16 * 4 + c.toNat / 64)) (fourth : IsSextet c3 (c.toNat % 64)) :
    Written ([c0, c1, c2, c3] ++ text) ([a, b, c] ++ data) := by
  cases written with
  | full lines => exact .full (.group first second third fourth lines)
  | padded lines tail whole =>
    have padded := Written.padded (.group first second third fourth lines) tail whole
    rw [List.append_assoc, List.append_assoc] at padded
    exact padded

/-- The loop starts at the front of the text with nothing decoded. -/
def DecodeState.start (nByte : Option Int) : DecodeState := ⟨0, 0, [], nByte.map fun _ => 0⟩

/-- `Common::Decode` returns what its loop has decoded. -/
theorem decode_eq_map (nByte : Option Int) : decode memory dataLen nByte =
    (decodeLoop memory dataLen (.start nByte)).map fun last => (last.strDecode, last.nByte) := by
  simp only [decode, DecodeState.start, bind, Except.bind, Except.map, pure, Except.pure]

/-- The data that the loop gives from the start are returned and counted. -/
theorem Gives.decode_eq {nByte : Option Int} {data : Bytes}
    (gives : Gives memory dataLen (.start nByte) data) :
    decode memory dataLen nByte = .ok (data, nByte.map fun _ => (data.length : Int)) := by
  obtain ⟨last, ends, text, number⟩ := gives
  rw [decode_eq_map, ends, Except.map, text, number]
  simp [DecodeState.start, Function.comp_def]

/-- From a state whose pointer stands before a text that can be taken apart and whose counter lacks
as many characters as the text has, the loop gives the data. -/
theorem Written.gives {text data rest : Bytes} {state : DecodeState} (written : Written text data)
    (ahead : memory.drop state.pData = text ++ rest)
    (left : state.i + (text.length : Int) = dataLen) (small : dataLen < 2 ^ 31) :
    Gives memory dataLen state data := by
  cases written with
  | full lines =>
    apply gives_of_decoded
    rw [lines.decodeLoop_eq ahead left.le small]
    exact decodeLoop_done left.ge
  | @padded front chars closing full data lines tail whole =>
    have length : (front ++ (chars ++ pad :: closing)).length = front.length + 4 := by
      rw [List.length_append, List.length_append, whole]
    rw [length, Nat.cast_add, Nat.cast_ofNat] at left
    rw [List.append_assoc, List.append_assoc] at ahead
    have counted : (state.decoded front.length front.length full).i = state.i + front.length := rfl
    have behind := DecodeState.drop_decoded ahead rfl front.length full
    have taken : decodeIteration memory dataLen (state.decoded front.length front.length full) =
        _ :=
      tail.decodeIteration_eq behind (by omega) (by omega)
    apply gives_of_decoded
    rw [lines.decodeLoop_eq ahead (by omega) small, decodeLoop, loop_continue taken,
      DecodeState.decoded_decoded]
    apply decodeLoop_done
    simp only [DecodeState.decoded]
    omega

/-- A text taken apart is decoded to its data, without a read behind the NUL. -/
theorem Written.decode_eq {text data : Bytes} (written : Written text data) (nByte : Option Int)
    (fits : (text.length : Int) < 2 ^ 31) :
    decode (text ++ [0]) text.length nByte = .ok (data, nByte.map fun _ =>
      (data.length : Int)) := by
  have gives : Gives (text ++ [0]) text.length (.start nByte) data :=
    written.gives rfl (zero_add _) fits
  exact gives.decode_eq

end

/-- `EncodeInput3` writes a full group. -/
theorem Written.encodeInput3 {text data : Bytes} (written : Written text data) (a b c : UInt8) :
    Written (encodeInput3 a b c ++ text) ([a, b, c] ++ data) := by
  have boundA := a.toNat_lt
  have boundB := b.toNat_lt
  have boundC := c.toNat_lt
  rw [encodeInput3_eq]
  apply written.group
  all_goals
    apply isSextet_encodeChar
    omega

/-- `EncodeInput2` writes a padded group. -/
theorem written_encodeInput2 (a b : UInt8) : Written (encodeInput2 a b) [a, b] := by
  have boundA := a.toNat_lt
  have boundB := b.toNat_lt
  rw [encodeInput2_eq]
  apply @Written.padded [] _ [] [] _ .nil (.two _ _ _) rfl
  all_goals
    apply isSextet_encodeChar
    omega

/-- `EncodeInput1` writes a padded group. -/
theorem written_encodeInput1 (a : UInt8) : Written (encodeInput1 a) [a] := by
  have boundA := a.toNat_lt
  rw [encodeInput1_eq]
  apply @Written.padded [] _ [pad] [] _ .nil (.one _ _) rfl
  all_goals
    apply isSextet_encodeChar
    omega

/-- `Common::Encode` writes line ends, full groups and a padded group behind them. -/
theorem written_encodeFrom (lineLen : Nat) (data : Bytes) :
    Written (encodeFrom lineLen data) data := by
  induction lineLen, data using encodeFrom.induct with
  | case1 lineLen a b c data atLineEnd inLine =>
    have behind :
        Written (if lineLen + 4 = 76 then
          crlf ++ encodeFrom 0 data else encodeFrom (lineLen + 4) data) data := by
      split_ifs
      · exact (atLineEnd.lineEnd (.inr rfl)).lineEnd (.inl rfl)
      · exact inLine
    rw [encodeFrom]
    exact behind.encodeInput3 a b c
  | case2 lineLen a b =>
    rw [encodeFrom]
    exact written_encodeInput2 a b
  | case3 lineLen a =>
    rw [encodeFrom]
    exact written_encodeInput1 a
  | case4 lineLen => exact .full .nil

/-- The text of `encodeFrom`, with its length and with the NUL behind it, is decoded. -/
theorem decode_encodeFrom (data : Bytes) (nByte : Option Int)
    (fits : ((encodeFrom 0 data).length : Int) < 2 ^ 31) :
    decode (encodeFrom 0 data ++ [0]) (encodeFrom 0 data).length nByte =
      .ok (data, nByte.map fun _ => (data.length : Int)) :=
  (written_encodeFrom 0 data).decode_eq nByte fits

/-- Decoding the text of some data, with its exact length and with the NUL behind it, gives the
data back and counts them, without a read behind the NUL. -/
theorem decode_encode (data : Bytes) (nByte : Option Int)
    (fits : ((encode data).length : Int) < 2 ^ 31) :
    decode (encode data ++ [0]) (encode data).length nByte =
      .ok (data, nByte.map fun _ => (data.length : Int)) := by
  rw [encode_eq] at fits ⊢
  exact decode_encodeFrom data nByte fits

/-- Five bytes with a NUL and bytes of 128 and more. -/
theorem decode_encode_five :
    decode (encode [0, 255, 13, 10, 128] ++ [0]) 8 (some 7) = .ok ([0, 255, 13, 10, 128], some 5) :=
  decode_encode [0, 255, 13, 10, 128] (some 7) (by decide)

/-! ## The text -/

/-- A byte that can stand in the text: a character of a sextet, padding or a line end. -/
def IsText (c : UInt8) : Prop := (∃ index < 64, c = encodeChar index) ∨ c = pad ∨ c = 13 ∨ c = 10

/-- The text has nothing else. -/
theorem isText_of_mem_encode {data : Bytes} {c : UInt8} (written : c ∈ encode data) : IsText c := by
  rw [encode_eq] at written
  have sextet {index : Nat} (small : index < 64) (isChar : c = encodeChar index) : IsText c :=
    .inl ⟨index, small, isChar⟩
  have isPad (is : c = pad) : IsText c := .inr (.inl is)
  generalize (0 : Nat) = lineLen at written
  induction lineLen, data using encodeFrom.induct with
  | case1 lineLen a b d data atLineEnd inLine =>
    have boundA := a.toNat_lt
    have boundB := b.toNat_lt
    rw [encodeFrom, List.mem_append, encodeInput3_eq] at written
    rcases written with group | rest
    · simp only [List.mem_cons, List.not_mem_nil, or_false] at group
      rcases group with is | is | is | is
      · exact sextet (by omega) is
      · exact sextet (by omega) is
      · exact sextet (by have := d.toNat_lt; omega) is
      · exact sextet (by omega) is
    · split_ifs at rest
      · rcases List.mem_append.mp rest with lineEnd | behind
        · exact .inr (.inr (by simpa [crlf] using lineEnd))
        · exact atLineEnd behind
      · exact inLine rest
  | case2 lineLen a b =>
    have boundA := a.toNat_lt
    have boundB := b.toNat_lt
    rw [encodeFrom, encodeInput2_eq] at written
    simp only [List.mem_cons, List.not_mem_nil, or_false] at written
    rcases written with is | is | is | is
    · exact sextet (by omega) is
    · exact sextet (by omega) is
    · exact sextet (by omega) is
    · exact isPad is
  | case3 lineLen a =>
    have boundA := a.toNat_lt
    rw [encodeFrom, encodeInput1_eq] at written
    simp only [List.mem_cons, List.not_mem_nil, or_false] at written
    rcases written with is | is | is | is
    · exact sextet (by omega) is
    · exact sextet (by omega) is
    · exact isPad is
    · exact isPad is
  | case4 lineLen => exact absurd written List.not_mem_nil

/-- The text is longer than the data by a third at least. -/
theorem length_encode (data : Bytes) : 4 * data.length ≤ 3 * (encode data).length := by
  rw [encode_eq]
  generalize (0 : Nat) = lineLen
  induction lineLen, data using encodeFrom.induct with
  | case1 lineLen a b c data atLineEnd inLine =>
    have group : (encodeInput3 a b c).length = 4 := rfl
    rw [encodeFrom, List.length_append, group]
    split_ifs
    · rw [List.length_append]
      simp only [List.length_cons]
      omega
    · simp only [List.length_cons]
      omega
  | case2 lineLen a b => exact Nat.le_of_ble_eq_true rfl
  | case3 lineLen a => exact Nat.le_of_ble_eq_true rfl
  | case4 lineLen => exact Nat.le_refl 0

/-- The text is at most twice as long as the data, but for the last group. -/
theorem length_encode_le (data : Bytes) : (encode data).length ≤ 2 * data.length + 4 := by
  rw [encode_eq]
  generalize (0 : Nat) = lineLen
  induction lineLen, data using encodeFrom.induct with
  | case1 lineLen a b c data atLineEnd inLine =>
    have group : (encodeInput3 a b c).length = 4 := rfl
    rw [encodeFrom, List.length_append, group]
    split_ifs
    · rw [List.length_append]
      simp only [List.length_cons, List.length_nil]
      omega
    · simp only [List.length_cons]
      omega
  | case2 lineLen a b => exact Nat.le_of_ble_eq_true rfl
  | case3 lineLen a => exact Nat.le_of_ble_eq_true rfl
  | case4 lineLen => exact Nat.zero_le _

/-- Without a positive length nothing is decoded. -/
theorem decode_nonpositive (memory : Bytes) {dataLen : Int} (nonpositive : dataLen ≤ 0)
    (nByte : Option Int) : decode memory dataLen nByte = .ok ([], nByte.map fun _ => 0) := by
  rw [decode_eq_map, decodeLoop_done nonpositive]
  rfl

/-- The length of the text of much data is no `int`: converted to one it is negative. Then
nothing is decoded, although the length of the data fits. -/
theorem decode_encode_long : ∃ data : Bytes, 0 < data.length ∧ (data.length : Int) < 2 ^ 31 ∧
    ∀ nByte, decode (encode data ++ [0]) (toInt (encode data).length) nByte =
      .ok ([], nByte.map fun _ => 0) := by
  obtain ⟨data, size⟩ : ∃ data : Bytes, data.length = 3 * 2 ^ 29 :=
    ⟨_, List.length_replicate (a := 0)⟩
  have long := length_encode data
  have short := length_encode_le data
  refine ⟨data, by omega, by omega, fun nByte => ?_⟩
  apply decode_nonpositive
  rw [toInt, Int.bmod]
  omega

end Base64

end NetServer
