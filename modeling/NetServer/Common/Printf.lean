import NetServer.Common.CStd

/-!
# Numbers in decimal

What `%d` and its forms with leading zeros print. A number can be read back from its digits, and
digits are no blanks, line ends, percent signs or nulls.
-/

namespace NetServer

/-- `%d` of a number that is not negative. -/
def decimal (number : Nat) : Bytes := (Nat.toDigits 10 number).map fun c => UInt8.ofNat c.toNat

/-- `%d`. -/
def decimalInt (number : Int) : Bytes :=
  if number < 0 then bytes "-" ++ decimal number.natAbs else decimal number.natAbs

/-- `%0wd` of a number that is not negative: at least `width` digits. -/
def padded (width number : Nat) : Bytes :=
  List.replicate (width - (decimal number).length) 48 ++ decimal number

/-- A decimal digit. -/
def IsDigit (c : UInt8) : Prop := 48 ≤ c ∧ c ≤ 57

instance (c : UInt8) : Decidable (IsDigit c) := inferInstanceAs (Decidable (_ ∧ _))

/-- A digit character is a digit. -/
theorem isDigit_of_char {c : Char} (digit : c.isDigit = true) :
    IsDigit (UInt8.ofNat c.toNat) ∧ (UInt8.ofNat c.toNat).toNat = c.toNat := by
  have range : 48 ≤ c.toNat ∧ c.toNat ≤ 57 := by
    simpa [Char.isDigit, UInt32.le_iff_toNat_le] using digit
  have same : (UInt8.ofNat c.toNat).toNat = c.toNat := by
    rw [UInt8.toNat_ofNat']
    omega
  refine ⟨⟨?_, ?_⟩, same⟩
  · rw [UInt8.le_iff_toNat_le, same]
    exact range.1
  · rw [UInt8.le_iff_toNat_le, same]
    exact range.2

/-- A number is printed with digits only. -/
theorem isDigit_of_mem_decimal {number : Nat} {c : UInt8} (printed : c ∈ decimal number) :
    IsDigit c := by
  obtain ⟨char, listed, rfl⟩ := List.mem_map.mp printed
  exact (isDigit_of_char (Nat.isDigit_of_mem_toDigits (by decide) (by decide) listed)).1

/-- Zeros in front are digits too. -/
theorem isDigit_of_mem_padded {width number : Nat} {c : UInt8} (printed : c ∈ padded width number) :
    IsDigit c := by
  obtain zero | printed := List.mem_append.mp printed
  · rw [List.eq_of_mem_replicate zero]
    decide
  · exact isDigit_of_mem_decimal printed

/-- The number that digits stand for. -/
def readDecimal (digits : Bytes) : Nat :=
  Nat.ofDigitChars 10 (digits.map fun c => Char.ofNat c.toNat) 0

/-- A number can be read back. -/
theorem readDecimal_padded (width number : Nat) : readDecimal (padded width number) = number := by
  have chars : (decimal number).map (fun c => Char.ofNat c.toNat) = Nat.toDigits 10 number := by
    rw [decimal, List.map_map]
    conv_rhs => rw [← List.map_id (Nat.toDigits 10 number)]
    refine List.map_congr_left fun char listed => ?_
    have digit := isDigit_of_char (Nat.isDigit_of_mem_toDigits (by decide) (by decide) listed)
    rw [Function.comp_apply, digit.2, Char.ofNat_toNat, id]
  rw [readDecimal, padded, List.map_append, List.map_replicate, chars, Nat.ofDigitChars_append]
  simp

/-- Different numbers are printed differently. -/
theorem padded_injective {width number number' : Nat}
    (same : padded width number = padded width number') : number = number' := by
  rw [← readDecimal_padded width number, same, readDecimal_padded]

/-- A number of two digits fills them. -/
theorem length_padded_two {number : Nat} (small : number < 100) : (padded 2 number).length = 2 := by
  have short : (decimal number).length ≤ 2 := by
    rw [decimal, List.length_map]
    exact (Nat.length_toDigits_le_iff (by decide) (by decide)).mpr small
  rw [padded, List.length_append, List.length_replicate]
  omega

end NetServer
