import NetServer.Common.CStd
import NetServer.Lib.Crc
import NetServer.Lib.Loop

/-!
# The check value `Common::GetCRC`

The register has 16 bits and starts with all of them set; for each byte it is moved down by eight
bits, the byte is added and eight bits are shifted out with the polynomial 0xA001. The code keeps it
in an `unsigned int` and takes its high byte out through a `char`. That is signed, so that a set
sign bit fills the bits in front of the register: it starts with another high byte, and each set
sign bit turns all bits of the next high byte over. Both registers are linear in the bits of the
data, and so is the condition for them to agree.
-/

namespace NetServer

open Lib

/-- What `GetCRC` must not do. -/
inductive CrcFault where
  /-- A read behind the data. -/
  | readPast
  deriving DecidableEq, Repr

/-- The start of the register: both bytes are `char`s with the value 255. -/
def crcStart : BitVec 32 :=
  let bHight : BitVec 8 := 255
  let bLow : BitVec 8 := 255
  bHight.signExtend 32 * 256 + bLow.signExtend 32

/-- A pass of the inner loop of `Common::GetCRC`. -/
def crcBit (icrc : BitVec 32) : BitVec 32 :=
  let iFlag := icrc % 2
  let icrc := icrc >>> 1
  if iFlag ≠ 0 then icrc ^^^ 40961 else icrc

/-- What the outer loop of `Common::GetCRC` does with a byte. -/
def crcByte (icrc : BitVec 32) (value : UInt8) : BitVec 32 :=
  let bTemp := value.toBitVec
  let bHight := (icrc / 256).setWidth 8
  crcBit^[8] (bTemp.signExtend 32 ^^^ bHight.signExtend 32)

/-- A pass of the outer loop of `Common::GetCRC`. -/
def crcIteration (pszValue : Bytes) (nLength : Int) (state : Nat × BitVec 32) :
    Except CrcFault ((Nat × BitVec 32) ⊕ Int) :=
  let (i, icrc) := state
  if i < nLength then
    match pszValue[i]? with
    | some value => .ok (.inl (i + 1, crcByte icrc value))
    | none => .error .readPast
  else .ok (.inr icrc.toInt)

/-- Every pass comes nearer to the length. -/
theorem crcIteration_shrinks (pszValue : Bytes) (nLength : Int) (state next : Nat × BitVec 32)
    (continued : crcIteration pszValue nLength state = .ok (.inl next)) :
    (nLength - next.1).toNat < (nLength - state.1).toNat := by
  simp only [crcIteration] at continued
  split at continued
  · split at continued
    · cases continued
      simp only
      omega
    · cases continued
  · cases continued

/-- `Common::GetCRC`. -/
def getCRC (pszValue : Bytes) (nLength : Int) : Except CrcFault Int :=
  loop (crcIteration pszValue nLength) (fun state => (nLength - state.1).toNat)
    (crcIteration_shrinks pszValue nLength) (0, crcStart)

/-! ## The check value that it spells out -/

/-- What a byte does to the register. -/
def crc16Byte (register : BitVec 16) (value : UInt8) : BitVec 16 :=
  (shiftBit 0xA001)^[8] ((register >>> 8) ^^^ value.toBitVec.setWidth 16)

/-- The register behind some data. -/
def crc16 (data : Bytes) : BitVec 16 := data.foldl crc16Byte 0xFFFF

/-- Eight bits shifted out of a byte. -/
def crcTable (value : BitVec 8) : BitVec 16 := (shiftBit 0xA001)^[8] (value.setWidth 16)

/-- The high byte of the register behind a byte. -/
def highByte (value : BitVec 8) : BitVec 8 := (crcTable value >>> 8).setWidth 8

/-- The high byte where a set sign bit turns it over. -/
def signedHighByte (value : BitVec 8) : BitVec 8 := highByte value ^^^ if value.msb then 0xFF else 0

/-- The high byte of a register is all that the next byte meets. -/
theorem crc16Byte_eq (register : BitVec 16) (value : UInt8) :
    crc16Byte register value = crcTable ((register >>> 8).setWidth 8 ^^^ value.toBitVec) := by
  have high : (register >>> 8) = ((register >>> 8).setWidth 8).setWidth 16 := by
    apply BitVec.eq_of_toNat_eq
    have small := register.isLt
    simp only [BitVec.toNat_setWidth, BitVec.toNat_ushiftRight, Nat.shiftRight_eq_div_pow]
    omega
  rw [crc16Byte, crcTable, BitVec.setWidth_xor, ← high]

/-- A pass of the inner loop is a shift. -/
theorem crcBit_eq : crcBit = shiftBit (BitVec.setWidth 32 (0xA001 : BitVec 16)) := by
  funext icrc
  have flag : icrc % 2 ≠ 0 ↔ icrc.getLsbD 0 = true := by
    rw [Ne, ← BitVec.toNat_inj, BitVec.getLsbD, Nat.testBit_zero]
    simp
  simp only [crcBit, shiftBit, flag]
  rfl

/-- A sign bit fills the bits in front. -/
theorem signExtend_eq :
    ∀ value : BitVec 8,
    value.signExtend 32 = value.setWidth 32 ^^^ if value.msb then 0xFFFFFF00 else 0 := by
  decide +kernel

/-- What a byte does to the register of the code: beside the bits of the check value there are those
that the sign bit has left behind. -/
theorem crcByte_eq (icrc : BitVec 32) (value : UInt8) :
    crcByte icrc value = (crcTable ((icrc / 256).setWidth 8 ^^^ value.toBitVec)).setWidth 32 ^^^
      if ((icrc / 256).setWidth 8 ^^^ value.toBitVec).msb then 0x00FFFFFF else 0 := by
  have linear : XorLinear crcBit^[8] := XorLinear.iterate (crcBit_eq ▸ shiftBit_linear _) 8
  have filled : crcBit^[8] 0xFFFFFF00 = 0x00FFFFFF := by decide +kernel
  have shifted (byte : BitVec 8) : crcBit^[8] (byte.setWidth 32) = (crcTable byte).setWidth 32 := by
    have widened : (byte.setWidth 16).setWidth 32 = byte.setWidth 32 :=
      BitVec.setWidth_setWidth (by decide)
    rw [crcTable, ← iterate_shiftBit_setWidth (by decide), ← crcBit_eq, widened]
  rw [crcByte, BitVec.xor_comm, ← BitVec.signExtend_xor, signExtend_eq, linear, shifted]
  split
  · rw [filled]
  · rw [show crcBit^[8] 0 = 0 from linear.map_zero]

/-- The high byte that the code takes out of its register. -/
theorem high_crcByte (icrc : BitVec 32) (value : UInt8) :
    (crcByte icrc value / 256).setWidth 8 =
      signedHighByte ((icrc / 256).setWidth 8 ^^^ value.toBitVec) := by
  have taken : ∀ byte : BitVec 8,
      (((crcTable byte).setWidth 32 ^^^ if byte.msb then 0x00FFFFFF else 0) / 256).setWidth 8 =
        signedHighByte byte := by
    decide +kernel
  rw [crcByte_eq, taken]

/-- The high byte of the register. -/
theorem high_crc16Byte (register : BitVec 16) (value : UInt8) :
    (crc16Byte register value >>> 8).setWidth 8 =
      highByte ((register >>> 8).setWidth 8 ^^^ value.toBitVec) := by
  rw [crc16Byte_eq, highByte]

/-! ## The two registers -/

/-- The values of some bytes. -/
def values (data : Bytes) : List (BitVec 8) := data.map UInt8.toBitVec

/-- The high byte of the register of the code behind some data. -/
theorem high_foldl_crcByte (icrc : BitVec 32) (data : Bytes) :
    (data.foldl crcByte icrc / 256).setWidth 8 =
      carry signedHighByte ((icrc / 256).setWidth 8) (values data) := by
  induction data generalizing icrc with
  | nil => rfl
  | cons value data ih =>
    rw [List.foldl_cons, ih, high_crcByte]
    rfl

/-- The high byte of the register behind some data. -/
theorem high_foldl_crc16Byte (register : BitVec 16) (data : Bytes) :
    (data.foldl crc16Byte register >>> 8).setWidth 8 =
      carry highByte ((register >>> 8).setWidth 8) (values data) := by
  induction data generalizing register with
  | nil => rfl
  | cons value data ih =>
    rw [List.foldl_cons, ih, high_crc16Byte]
    rfl

/-- Shifting eight bits out of a byte is linear. -/
theorem crcTable_linear : XorLinear crcTable := by
  intro left right
  rw [crcTable, BitVec.setWidth_xor, (shiftBit_linear _).iterate 8]
  rfl

/-- Taking the high byte is linear. -/
theorem highByte_linear : XorLinear highByte := by
  intro left right
  rw [highByte, crcTable_linear, BitVec.ushiftRight_xor_distrib, BitVec.setWidth_xor]
  rfl

/-- Turning the high byte over for a sign bit is linear. -/
theorem signedHighByte_linear : XorLinear signedHighByte := by
  intro left right
  have signs : (if (left ^^^ right).msb then 0xFF else 0 : BitVec 8) =
      (if left.msb then 0xFF else 0) ^^^ (if right.msb then 0xFF else 0) := by
    rw [BitVec.msb_xor]
    cases left.msb <;> cases right.msb <;> rfl
  rw [signedHighByte, signedHighByte, signedHighByte, highByte_linear, signs]
  ac_rfl

/-- Different bytes leave different registers. -/
theorem crcTable_injective : Function.Injective crcTable :=
  crcTable_linear.injective (by decide +kernel)

/-- The loop adds the bytes one after the other. The induction is on those that are left. -/
theorem loop_crcIteration (front rest : Bytes) (icrc : BitVec 32) :
    loop (crcIteration (front ++ rest) (front ++ rest).length)
      (fun state => (((front ++ rest).length : Int) - state.1).toNat) (crcIteration_shrinks _ _)
      (front.length, icrc) = .ok (rest.foldl crcByte icrc).toInt := by
  induction rest generalizing front icrc with
  | nil =>
    apply loop_return
    simp [crcIteration]
  | cons value rest ih =>
    have inside : (front.length : Int) < (front ++ value :: rest).length := by
      rw [List.length_append, List.length_cons]
      omega
    have read : (front ++ value :: rest)[front.length]? = some value := by simp
    have taken :
      crcIteration (front ++ value :: rest) (front ++ value :: rest).length (front.length, icrc) =
        .ok (.inl (front.length + 1, crcByte icrc value)) := by
      simp only [crcIteration, inside, ↓reduceIte, read]
    have next := ih (front ++ [value]) (crcByte icrc value)
    simp only [List.append_assoc, List.singleton_append, List.length_append, List.length_singleton]
      at next
    rw [loop_continue taken, List.foldl_cons, ← next]
    simp only [List.length_append]

/-- `Common::GetCRC` of some data with its length reads no byte behind the data and returns the
register. -/
theorem getCRC_eq (data : Bytes) :
    getCRC data data.length = .ok (data.foldl crcByte crcStart).toInt :=
  loop_crcIteration [] data crcStart

/-- Behind a byte the registers agree exactly when they met the same byte and it has no sign bit. -/
theorem toInt_crcByte_iff (met met' : BitVec 8) :
    ((crcTable met).setWidth 32 ^^^ if met.msb then 0x00FFFFFF else 0).toInt =
      (crcTable met').toNat ↔
      met = met' ∧ met.msb = false := by
  have filled : ∀ byte : BitVec 8, byte.msb = true →
      65536 ≤ ((crcTable byte).setWidth 32 ^^^ if byte.msb then 0x00FFFFFF else 0).toInt := by
        decide +kernel
  have kept : ∀ byte : BitVec 8, byte.msb = false →
      ((crcTable byte).setWidth 32 ^^^ if byte.msb then 0x00FFFFFF else 0).toInt =
        (crcTable byte).toNat := by
    decide +kernel
  have small := (crcTable met').isLt
  cases sign : met.msb with
  | true =>
    have large := filled met sign
    rw [sign] at large
    constructor
    · intro same
      omega
    · rintro ⟨-, ⟨⟩⟩
  | false =>
    have value := kept met sign
    rw [sign] at value
    rw [value, Int.natCast_inj, BitVec.toNat_inj, crcTable_injective.eq_iff]
    exact (and_iff_left rfl).symm

/-- The bits of a text satisfy nine linear equations. Eight of them say that the two registers meet
the last byte with the same high byte, and one that the sum of both has no sign bit. -/
structure CrcAgrees (front : Bytes) (last : UInt8) : Prop where
  balanced : weigh signedHighByte (values front) ^^^ weigh highByte (values front) =
    signedHighByte^[front.length] 0xFE ^^^ highByte^[front.length] 0xFF
  positive :
    (highByte^[front.length] 0xFF ^^^ weigh highByte (values front) ^^^ last.toBitVec).msb = false

/-- `Common::GetCRC` returns the check value exactly of the texts whose bits satisfy the
equations. -/
theorem getCRC_eq_crc16_iff (data : Bytes) :
    getCRC data data.length = .ok ((crc16 data).toNat : Int) ↔
      ∃ front last, data = front ++ [last] ∧ CrcAgrees front last := by
  rw [getCRC_eq, Except.ok.injEq]
  rcases List.eq_nil_or_concat data with rfl | ⟨front, last, isData⟩
  · -- Without any data the start is returned, whose sign bits are set.
    have start : ((crcStart.toInt : Int) = (0xFFFF : BitVec 16).toNat) = False := by decide
    change (crcStart.toInt : Int) = (0xFFFF : BitVec 16).toNat ↔ _
    rw [start, false_iff]
    rintro ⟨front, last, isData, -⟩
    exact List.append_ne_nil_of_right_ne_nil front (List.cons_ne_nil last []) isData.symm
  · rw [List.concat_eq_append] at isData
    subst isData
    have high := high_foldl_crcByte crcStart front
    have high' := high_foldl_crc16Byte 0xFFFF front
    have starts : (crcStart / 256).setWidth 8 = 0xFE ∧ ((0xFFFF : BitVec 16) >>> 8).setWidth 8 =
        (0xFF : BitVec 8) := by
      decide
    have length : (values front).length = front.length := List.length_map ..
    rw [starts.1, carry_eq signedHighByte_linear, length] at high
    rw [starts.2, carry_eq highByte_linear, length] at high'
    have agree : (((front ++ [last]).foldl crcByte crcStart).toInt : Int) =
      (crc16 (front ++ [last])).toNat ↔
        CrcAgrees front last := by
      rw [crc16, List.foldl_append, List.foldl_append, List.foldl_cons, List.foldl_cons,
        List.foldl_nil, List.foldl_nil, crcByte_eq, crc16Byte_eq, high, high', toInt_crcByte_iff,
        BitVec.xor_left_inj, xor_eq_xor_iff]
      constructor
      · rintro ⟨balanced, positive⟩
        have same := xor_eq_xor_iff.mpr balanced
        rw [same] at positive
        exact ⟨balanced, positive⟩
      · rintro ⟨balanced, positive⟩
        have same := xor_eq_xor_iff.mpr balanced
        rw [same]
        exact ⟨balanced, positive⟩
    rw [agree]
    constructor
    · intro agrees
      exact ⟨front, last, rfl, agrees⟩
    · rintro ⟨front', last', same, agrees⟩
      have parts := List.append_inj' same rfl
      rw [parts.1, (List.cons.inj parts.2).1]
      exact agrees

/-- On some texts the two agree. -/
example : getCRC (bytes "64804848") 8 = .ok 0xF501 ∧ crc16 (bytes "64804848") = 0xF501 := by
  decide +kernel

/-- What is returned for no data and for one letter, and the check values of both. -/
theorem getCRC_leaves_range :
    getCRC [] 0 = .ok (-257) ∧ (crc16 []).toNat = 0xFFFF ∧
      getCRC (bytes "A") 1 = .ok 0xFF4FBE ∧ (crc16 (bytes "A")).toNat = 0x7080 := by decide +kernel

end NetServer
