import NetServer.Common.CStd
import NetServer.Lib.Text

/-!
# Unique ids

`Common::GetUid` prints a generated value in hexadecimal. Both of its formats have fifteen
conversions for sixteen arguments, so the last argument is not printed; and in the branch for
Windows `Data2` stands in the place of `Data1` too, which is not printed either. Two ids differ if
and only if the values differ in what is printed (`getUid_ne_iff`).
-/

namespace NetServer

open Lib

/-! ## Numbers in hexadecimal -/

/-- A digit of `%X`. -/
def upperHex (digit : Nat) : UInt8 := UInt8.ofNat (if digit < 10 then 48 + digit else 55 + digit)

/-- A digit of `%X` is a letter or a digit. -/
theorem upperHex_text :
    ∀ digit < 16, upperHex digit ≠ 39 ∧ upperHex digit ≠ 92 ∧ upperHex digit ≠ 0 := by decide

/-- `%0wX` for a width from one on: at least `width` digits. -/
def paddedHex (width number : Nat) : Bytes :=
  (Nat.digitsAppend 16 width number).reverse.map upperHex

/-- What a digit of `%X` stands for. -/
def hexValue (c : UInt8) : Nat := if c.toNat < 58 then c.toNat - 48 else c.toNat - 55

/-- A digit written in upper case reads back as itself. -/
theorem hexValue_upperHex : ∀ digit < 16, hexValue (upperHex digit) = digit := by decide

/-- The number that hexadecimal digits stand for. -/
def readHex (digits : Bytes) : Nat := Nat.ofDigits 16 (digits.map hexValue).reverse

/-- A number can be read back. -/
theorem readHex_paddedHex (width number : Nat) : readHex (paddedHex width number) = number := by
  have digits : (Nat.digitsAppend 16 width number).map (hexValue ∘ upperHex) =
      Nat.digitsAppend 16 width number := by
    conv_rhs => rw [← List.map_id (Nat.digitsAppend 16 width number)]
    apply List.map_congr_left
    intro digit listed
    exact hexValue_upperHex digit (Nat.lt_of_mem_digitsAppend (by decide) width digit listed)
  rw [readHex, paddedHex, List.map_map, List.map_reverse, List.reverse_reverse, digits,
    Nat.digitsAppend, Nat.ofDigits_append_replicate_zero, Nat.ofDigits_digits]

/-- Different numbers are printed differently. -/
theorem paddedHex_injective (width : Nat) : Function.Injective (paddedHex width) :=
  Function.LeftInverse.injective (readHex_paddedHex width)

/-- A byte is printed with two digits. -/
theorem paddedHex_byte (byte : UInt8) :
    paddedHex 2 byte.toNat = [upperHex (byte.toNat / 16), upperHex (byte.toNat % 16)] := by
  have all : ∀ number < 256, paddedHex 2 number = [upperHex (number / 16),
      upperHex (number % 16)] := by
    decide +kernel
  exact all _ byte.toNat_lt

/-- A byte has as many digits as any other. -/
theorem length_paddedHex_byte (byte : UInt8) : (paddedHex 2 byte.toNat).length = 2 := by
  rw [paddedHex_byte]
  rfl

/-- A number of 16 bits has two digits to four. -/
theorem length_paddedHex_word (word : UInt16) :
    2 ≤ (paddedHex 2 word.toNat).length ∧ (paddedHex 2 word.toNat).length ≤ 4 := by
  have short : (Nat.digits 16 word.toNat).length ≤ 4 :=
    (Nat.digits_length_le_iff (by decide) _).mpr word.toNat_lt
  rw [paddedHex, List.length_map, List.length_reverse, Nat.digitsAppend, List.length_append,
    List.length_replicate]
  omega

/-- A number is printed without zero bytes. -/
theorem zero_notMem_paddedHex (width number : Nat) : 0 ∉ paddedHex width number := by
  intro listed
  obtain ⟨digit, isDigit, zero⟩ := List.mem_map.mp listed
  have small := Nat.lt_of_mem_digitsAppend (by decide) width digit (List.mem_reverse.mp isDigit)
  exact (upperHex_text digit small).2.2 zero

/-! ## The values of `uuid_generate` -/

/-- `Common::GetUid`, for the bytes that `uuid_generate` gives: its format has a conversion less
than it has arguments, so the last byte is not printed. -/
def getUid (uu : Fin 16 → UInt8) : Bytes :=
  ([0, 1, 2, 3, 4, 5, 6, 7, 8, 9, 10, 11, 12, 13, 14] : List (Fin 16)).flatMap fun index =>
    [upperHex ((uu index).toNat / 16), upperHex ((uu index).toNat % 16)]

/-- An identifier has no quotes, backslashes and zeros. -/
theorem getUid_text (uu : Fin 16 → UInt8) : ∀ c ∈ getUid uu, c ≠ 39 ∧ c ≠ 92 ∧ c ≠ 0 := by
  intro c isIn
  obtain ⟨index, -, isDigit⟩ := List.mem_flatMap.1 isIn
  have small := (uu index).toNat_lt
  rcases List.mem_pair.1 isDigit with rfl | rfl
  · exact upperHex_text _ (by omega)
  · exact upperHex_text _ (by omega)

/-- Two ids are the same if and only if the values have the same bytes in front of the last one. -/
theorem getUid_eq_iff (uu uu' : Fin 16 → UInt8) :
    getUid uu = getUid uu' ↔ ∀ index : Fin 16, index ≠ 15 → uu index = uu' index := by
  have printed : ∀ index : Fin 16,
      index ∈ ([0, 1, 2, 3, 4, 5, 6, 7, 8, 9, 10, 11, 12, 13, 14] : List (Fin 16)) ↔
      index ≠ 15 := by decide
  simp only [getUid, ← paddedHex_byte]
  rw [flatMap_eq_flatMap_iff fun index _ =>
    (length_paddedHex_byte (uu index)).trans (length_paddedHex_byte (uu' index)).symm]
  simp only [printed, (paddedHex_injective 2).eq_iff, UInt8.toNat_inj]

/-! ## The values of `CoCreateGuid` -/

/-- `GUID`. -/
structure Guid where
  data1 : UInt32
  data2 : UInt16
  data3 : UInt16
  data4 : Fin 8 → UInt8

/-- The fields of a `GUID` that the branch for Windows passes to its format. -/
inductive UidArg where
  | data2
  | data3
  | data4 (index : Fin 8)
  deriving DecidableEq, Repr

/-- The arguments behind the format, in their order. -/
def uidArgs : List UidArg :=
  [.data2, .data2, .data3, .data2, .data2, .data3, .data2, .data2,
    .data4 0, .data4 1, .data4 2, .data4 3, .data4 4, .data4 5, .data4 6, .data4 7]

/-- The conversions of the format. -/
def uidConversions : Nat := 15

namespace Guid

/-- An argument as the number that is printed. -/
def arg (guid : Guid) : UidArg → Nat
  | .data2 => guid.data2.toNat
  | .data3 => guid.data3.toNat
  | .data4 index => (guid.data4 index).toNat

/-- What `_snprintf_s` prints into the buffer. -/
def buf (guid : Guid) : Bytes :=
  (uidArgs.take uidConversions).flatMap fun uidArg => paddedHex 2 (guid.arg uidArg)

end Guid

/-- `Common::GetUid` in the branch for Windows: what is printed is copied into the caller's buffer
without the zero behind it. -/
def getUidWin32 (puuid : Bytes) (guid : Guid) : Bytes := guid.buf ++ puuid.drop guid.buf.length

/-- The buffer that all callers pass. -/
def uidBuffer : Bytes := List.replicate 64 0

namespace Guid

/-- The length of an id. -/
theorem length_buf (guid : Guid) :
    guid.buf.length = 6 * (paddedHex 2 guid.data2.toNat).length +
      2 * (paddedHex 2 guid.data3.toNat).length + 14 := by
  simp only [buf, uidArgs, uidConversions, List.take_succ_cons, List.take_zero, List.flatMap_cons,
    List.flatMap_nil, List.length_append, arg, length_paddedHex_byte, List.length_nil]
  omega

/-- An id has no zeros. -/
theorem zero_notMem_buf (guid : Guid) : 0 ∉ guid.buf := by
  intro listed
  obtain ⟨uidArg, -, printed⟩ := List.mem_flatMap.mp listed
  exact zero_notMem_paddedHex 2 (guid.arg uidArg) printed

/-- The buffer of a caller keeps its size, and holds the id as a string. -/
theorem getUidWin32_uidBuffer (guid : Guid) :
    (getUidWin32 uidBuffer guid).length = uidBuffer.length ∧ cString (getUidWin32 uidBuffer guid) =
      guid.buf := by
  have two := length_paddedHex_word guid.data2
  have three := length_paddedHex_word guid.data3
  have length := guid.length_buf
  have behind : uidBuffer.drop guid.buf.length = 0 :: List.replicate (63 - guid.buf.length) 0 := by
    rw [uidBuffer, List.drop_replicate, ← List.replicate_succ]
    congr 1
    omega
  rw [getUidWin32, behind]
  constructor
  · rw [List.length_append, List.length_cons, List.length_replicate, uidBuffer,
      List.length_replicate]
    omega
  · exact cString_append_zero guid.zero_notMem_buf _

/-- Ids of one text have each argument printed with the same length: the length of the text tells it
for `Data2` and `Data3`. -/
theorem length_arg_eq {guid guid' : Guid} (same : guid.buf = guid'.buf) (uidArg : UidArg) :
    (paddedHex 2 (guid.arg uidArg)).length = (paddedHex 2 (guid'.arg uidArg)).length := by
  have lengths := congrArg List.length same
  rw [length_buf, length_buf] at lengths
  have two := length_paddedHex_word guid.data2
  have two' := length_paddedHex_word guid'.data2
  have three := length_paddedHex_word guid.data3
  have three' := length_paddedHex_word guid'.data3
  cases uidArg with
  | data2 =>
    show (paddedHex 2 guid.data2.toNat).length = (paddedHex 2 guid'.data2.toNat).length
    omega
  | data3 =>
    show (paddedHex 2 guid.data3.toNat).length = (paddedHex 2 guid'.data3.toNat).length
    omega
  | data4 index => exact (length_paddedHex_byte _).trans (length_paddedHex_byte _).symm

/-- Two ids are the same if and only if the printed arguments are. -/
theorem buf_eq_iff (guid guid' : Guid) :
    guid.buf = guid'.buf ↔ ∀ uidArg ∈ uidArgs.take uidConversions,
      guid.arg uidArg = guid'.arg uidArg := by
  constructor
  · intro same uidArg printed
    have texts := (flatMap_eq_flatMap_iff fun uidArg _ => length_arg_eq same uidArg).mp same
    exact paddedHex_injective 2 (texts uidArg printed)
  · intro same
    apply List.flatMap_congr
    intro uidArg printed
    rw [same uidArg printed]

/-- What is printed of a `GUID`. -/
theorem forall_printed_iff (guid guid' : Guid) :
    (∀ uidArg ∈ uidArgs.take uidConversions, guid.arg uidArg = guid'.arg uidArg) ↔
      guid.data2 = guid'.data2 ∧ guid.data3 = guid'.data3 ∧
        ∀ index : Fin 8, index ≠ 7 → guid.data4 index = guid'.data4 index := by
  have printed : ∀ index : Fin 8, index ≠ 7 → UidArg.data4 index ∈ uidArgs.take uidConversions := by
    decide
  have last : UidArg.data4 7 ∉ uidArgs.take uidConversions := by decide
  constructor
  · intro same
    refine ⟨?_, ?_, ?_⟩
    · exact UInt16.toNat_inj.mp (same .data2 (by decide))
    · exact UInt16.toNat_inj.mp (same .data3 (by decide))
    · intro index other
      exact UInt8.toNat_inj.mp (same (.data4 index) (printed index other))
  · rintro ⟨two, three, four⟩ uidArg listed
    cases uidArg with
    | data2 => exact congrArg UInt16.toNat two
    | data3 => exact congrArg UInt16.toNat three
    | data4 index =>
      have other : index ≠ 7 := fun same => last (same ▸ listed)
      exact congrArg UInt8.toNat (four index other)

end Guid

/-! ## Different ids -/

/-- The ids of two values differ if and only if the values differ in what is printed: in one of the
first fifteen bytes, or in `Data2`, `Data3` or one of the first seven bytes of `Data4`. -/
theorem getUid_ne_iff (uu uu' : Fin 16 → UInt8) (guid guid' : Guid) :
    (getUid uu ≠ getUid uu' ↔ ∃ index : Fin 16, index ≠ 15 ∧ uu index ≠ uu' index) ∧
      (cString (getUidWin32 uidBuffer guid) ≠ cString (getUidWin32 uidBuffer guid') ↔
        guid.data2 ≠ guid'.data2 ∨ guid.data3 ≠ guid'.data3 ∨
          ∃ index : Fin 8, index ≠ 7 ∧ guid.data4 index ≠ guid'.data4 index) := by
  constructor
  · rw [ne_eq, getUid_eq_iff]
    push Not
    rfl
  · rw [guid.getUidWin32_uidBuffer.2, guid'.getUidWin32_uidBuffer.2, ne_eq, Guid.buf_eq_iff,
      Guid.forall_printed_iff]
    simp only [not_and_or, not_forall, exists_prop, ne_eq]

/-- A value of `uuid_generate`, and the same with another last byte. -/
def generatedUuid (last : UInt8) : Fin 16 → UInt8 :=
  ![0x55, 0x0E, 0x84, 0x00, 0xE2, 0x9B, 0x41, 0xD4, 0xA7, 0x16, 0x44, 0x66, 0x55, 0x44, 0x00, last]

/-- A value of `CoCreateGuid`, and the same with another `Data1`. -/
def createdGuid (data1 : UInt32) : Guid :=
  ⟨data1, 0xE29B, 0x41D4, ![0xA7, 0x16, 0x44, 0x66, 0x55, 0x44, 0x00, 0x00]⟩

/-- Different values have the same id. -/
theorem getUid_collides :
    (generatedUuid 0 ≠ generatedUuid 1 ∧ getUid (generatedUuid 0) = getUid (generatedUuid 1) ∧
        getUid (generatedUuid 0) = bytes "550E8400E29B41D4A7164466554400") ∧
      createdGuid 0x550E8400 ≠ createdGuid 0x550E8401 ∧
        getUidWin32 uidBuffer (createdGuid 0x550E8400) =
          getUidWin32 uidBuffer (createdGuid 0x550E8401) := by
  refine ⟨⟨?_, by decide, by decide +kernel⟩, ?_, rfl⟩
  · intro same
    exact absurd (congrFun same 15) (by decide)
  · intro same
    exact absurd (congrArg Guid.data1 same) (by decide)

end NetServer
