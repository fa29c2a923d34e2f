import Mathlib
import NetServer.Lib.Text

/-!
# The C and C++ library functions the server calls

A `std::string` is a list of bytes. The integer functions follow an LP64 system with glibc:
`int` has 32 bits, `long` and `size_t` have 64, `char` is signed and `atoi` truncates the
saturating `strtol`. `toupper` is that of the "C" locale, which leaves bytes of 128 and more
alone.
-/

namespace NetServer

open Lib

/-- The contents of a `std::string`. -/
abbrev Bytes := List UInt8

/-- The bytes of a string literal of the source, one byte a character. -/
def bytes (literal : String) : Bytes := literal.toList.map fun c => UInt8.ofNat c.toNat

/-- The bytes of a literal come from its characters, where the literal need not be decoded. -/
theorem bytes_ofList (chars : List Char) :
    bytes (String.ofList chars) = chars.map fun c => UInt8.ofNat c.toNat := by
  rw [bytes, String.toList_ofList]

/-- Line end of the protocol, `"\r\n"`. -/
abbrev crlf : Bytes := [13, 10]

/-- Number of values of `size_t`. -/
def sizeModulus : Nat := 2 ^ 64

/-- `std::string::npos`, the largest `size_t`. -/
def npos : Nat := sizeModulus - 1

/-- Conversion of an `int` to `size_t`, as a comparison of the two makes it. -/
def sizeT (value : Int) : Nat := (value % sizeModulus).toNat

/-- Conversion of a wider integer to `int`. -/
def toInt (value : Int) : Int := Int.bmod value (2 ^ 32)

/-- Conversion of an `unsigned long` to `long`. -/
def toLong (value : Int) : Int := Int.bmod value (2 ^ 64)

/-- `isspace` in the "C" locale. -/
def isSpace (c : UInt8) : Bool := c == 32 || (9 ≤ c && c ≤ 13)

/-- `isdigit`. -/
def isDigit (c : UInt8) : Bool := 48 ≤ c && c ≤ 57

/-- Value of the leading decimal digits, after the digits read so far. -/
def digitsValue (read : Nat) : Bytes → Nat
  | [] => read
  | c :: rest => if isDigit c then digitsValue (read * 10 + (c.toNat - 48)) rest else read

/-- The signed number `strtol` reads at the front of a text, before saturation. -/
def leadingNumber (text : Bytes) : Int :=
  match text.dropWhile isSpace with
  | [] => 0
  | c :: rest =>
    if c = 45 then -(digitsValue 0 rest : Int)
    else if c = 43 then digitsValue 0 rest
    else digitsValue 0 (c :: rest)

/-- `strtol` to base ten, saturating at the bounds of `long`. -/
def strtol (text : Bytes) : Int := max (-2 ^ 63) (min (2 ^ 63 - 1) (leadingNumber text))

/-- `atoi`. -/
def atoi (text : Bytes) : Int := toInt (strtol text)

/-- `toupper` in the "C" locale. -/
def toUpperByte (c : UInt8) : UInt8 := if 97 ≤ c && c ≤ 122 then c - 32 else c

/-- The C string that some bytes start with: those before the first null. -/
def cString (str : Bytes) : Bytes := str.takeWhile (· != 0)

/-- There is no null in a C string. -/
theorem zero_not_mem_cString (str : Bytes) : 0 ∉ cString str := by
  intro null
  have kept := List.mem_takeWhile_imp null
  simp at kept

/-- Bytes are a C string of their own exactly when there is no null among them. -/
theorem cString_eq_self {str : Bytes} : cString str = str ↔ 0 ∉ str := by
  rw [cString, List.takeWhile_eq_self_iff]
  constructor
  · intro clean null
    simpa using clean 0 null
  · intro clean c listed
    exact bne_iff_ne.mpr (ne_of_mem_of_not_mem listed clean)

/-- A C string ends at its null. -/
theorem cString_append_zero {str : Bytes} (clean : 0 ∉ str) (rest : Bytes) :
    cString (str ++ 0 :: rest) = str := by
  have whole : ∀ c ∈ str, (c != 0) = true := fun c listed =>
    bne_iff_ne.mpr (ne_of_mem_of_not_mem listed clean)
  rw [cString, List.takeWhile_append_of_pos whole, List.takeWhile_cons_of_neg (by decide),
    List.append_nil]

/-- A non-negative `int` keeps its value as a `size_t`. -/
theorem sizeT_of_nonneg {value : Int} (nonneg : 0 ≤ value) (small : value < 2 ^ 64) :
    sizeT value = value.toNat := by
  simp only [sizeT, sizeModulus]
  rw [Int.emod_eq_of_lt nonneg (by simpa using small)]

/-- A value in the range of `int` stays what it is. -/
theorem toInt_of_range {value : Int} (low : -2 ^ 31 ≤ value) (high : value < 2 ^ 31) :
    toInt value = value := by
  simp only [toInt, Int.bmod]
  omega

/-- A natural number as an `int` is not larger. -/
theorem toInt_natCast_le (size : Nat) : toInt size ≤ size := by
  simp only [toInt, Int.bmod]
  omega

/-- An `int` lies in the range of `int`. -/
theorem toInt_range (value : Int) : -2 ^ 31 ≤ toInt value ∧ toInt value < 2 ^ 31 := by
  simp only [toInt]
  constructor
  · exact Int.le_bmod (by decide)
  · exact Int.bmod_lt (by decide)

/-- `atoi` returns an `int`. -/
theorem atoi_range (text : Bytes) : -2 ^ 31 ≤ atoi text ∧ atoi text < 2 ^ 31 :=
  toInt_range (strtol text)

end NetServer
