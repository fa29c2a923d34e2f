import NetServer.Common.Base64

/-!
# The text of `Common::Encode` is MIME Base64

The reference regroups the bits of the data: most significant bit first, six bits to a character,
the last sextet filled with zero bits and the last group with padding. It knows neither the masks
and shifts of the three group encoders nor lines. `wrapped` breaks a text into lines of 76
characters. `Common::Encode` writes the reference, wrapped.
-/

namespace NetServer

namespace Base64

/-- The bits of a byte, most significant first. -/
def bits (byte : UInt8) : List Bool := [7, 6, 5, 4, 3, 2, 1, 0].map byte.toNat.testBit

/-- The number that bits write, most significant first. -/
def bitsValue (word : List Bool) : Nat := word.foldl (fun value bit => 2 * value + bit.toNat) 0

/-- Bits in groups of six, the last one filled with zero bits. -/
def sextets : List Bool → List Nat
  | b0 :: b1 :: b2 :: b3 :: b4 :: b5 :: rest => bitsValue [b0, b1, b2, b3, b4, b5] :: sextets rest
  | [] => []
  | rest => [bitsValue (rest ++ List.replicate (6 - rest.length) false)]

/-- The alphabet `A`–`Z`, `a`–`z`, `0`–`9`, `+`, `/`. -/
def alphabet (value : Nat) : UInt8 :=
  if value < 26 then .ofNat (65 + value)
  else if value < 52 then .ofNat (97 + (value - 26))
  else if value < 62 then .ofNat (48 + (value - 52))
  else if value = 62 then 43
  else 47

/-- The Base64 text of some data: a character for each sextet, and padding up to a multiple of
four. -/
def base64 (data : Bytes) : Bytes :=
  let chars := (sextets (data.flatMap bits)).map alphabet
  chars ++ List.replicate ((4 - chars.length % 4) % 4) pad

/-- A text in lines: a line end behind each run of 76 characters that does not end with padding. -/
def wrapped (text : Bytes) : Bytes :=
  if 76 ≤ text.length then
    text.take 76 ++ (if (text.take 76).getLast? = some pad then [] else crlf) ++
      wrapped (text.drop 76)
  else text
termination_by text.length
decreasing_by
  rw [List.length_drop]
  omega

/-- A text without its pairs of carriage return and line feed. -/
def removeCrlf : Bytes → Bytes
  | 13 :: 10 :: rest => removeCrlf rest
  | c :: rest => c :: removeCrlf rest
  | [] => []

/-! ## The reference, group by group -/

/-- Both tables are one. -/
theorem alphabet_eq : ∀ index < 64, alphabet index = encodeChar index := by
  decide +kernel

/-- A bit before a word counts for the power of two of its place. -/
theorem bitsValue_cons (bit : Bool) (word : List Bool) :
    bitsValue (bit :: word) = bit.toNat * 2 ^ word.length + bitsValue word := by
  have behind (value : Nat) : word.foldl (fun value bit => 2 * value + bit.toNat) value =
      value * 2 ^ word.length + bitsValue word := by
    unfold bitsValue
    induction word generalizing value with
    | nil => simp
    | cons bit word ih =>
      rw [List.foldl_cons, List.foldl_cons, ih, ih (2 * 0 + bit.toNat), List.length_cons, pow_succ]
      ring
  have started := behind bit.toNat
  rw [bitsValue, List.foldl_cons, Nat.mul_zero, Nat.zero_add, started]

/-- A word in two parts. -/
theorem bitsValue_append (high low : List Bool) :
    bitsValue (high ++ low) = bitsValue high * 2 ^ low.length + bitsValue low := by
  induction high with
  | nil => simp [bitsValue]
  | cons bit high ih =>
    rw [List.cons_append, bitsValue_cons, bitsValue_cons, ih, List.length_append, pow_add]
    ring

/-- Some bits of a number, from a place upwards, most significant first. -/
def field (number low : Nat) : Nat → List Bool
  | 0 => []
  | width + 1 => number.testBit (low + width) :: field number low width

/-- The width of a field. -/
@[simp]
theorem length_field (number low width : Nat) : (field number low width).length = width := by
  induction width with
  | zero => rfl
  | succ width ih => rw [field, List.length_cons, ih]

/-- The number in a field. -/
theorem bitsValue_field (number low width : Nat) :
    bitsValue (field number low width) = number / 2 ^ low % 2 ^ width := by
  induction width with
  | zero => rw [pow_zero, Nat.mod_one]; rfl
  | succ width ih =>
    have digit : (number.testBit (low + width)).toNat = number / 2 ^ low / 2 ^ width % 2 := by
      rw [Nat.toNat_testBit, Nat.div_div_eq_div_mul, ← pow_add]
    rw [field, bitsValue_cons, length_field, ih, digit, Nat.mod_pow_succ]
    ring

/-- The sextets of three bytes. -/
theorem sextets_three (a b c : UInt8) (rest : List Bool) :
    sextets (bits a ++ (bits b ++ (bits c ++ rest))) =
      a.toNat / 4 :: (a.toNat % 4 * 16 + b.toNat / 16) :: (b.toNat % 16 * 4 + c.toNat / 64) ::
        c.toNat % 64 ::
        sextets rest := by
  have boundA := a.toNat_lt
  have boundB := b.toNat_lt
  have boundC := c.toNat_lt
  have grouped : sextets (bits a ++ (bits b ++ (bits c ++ rest))) =
      bitsValue (field a.toNat 2 6) :: bitsValue (field a.toNat 0 2 ++ field b.toNat 4 4) ::
        bitsValue (field b.toNat 0 4 ++ field c.toNat 6 2) :: bitsValue (field c.toNat 0 6) ::
          sextets rest := rfl
  rw [grouped, bitsValue_append, bitsValue_append]
  simp only [bitsValue_field, length_field, List.cons.injEq, and_true]
  omega

/-- The sextets of two last bytes. -/
theorem sextets_two (a b : UInt8) : sextets (bits a ++ bits b) =
    [a.toNat / 4, a.toNat % 4 * 16 + b.toNat / 16, b.toNat % 16 * 4] := by
  have boundA := a.toNat_lt
  have boundB := b.toNat_lt
  have grouped : sextets (bits a ++ bits b) =
      [bitsValue (field a.toNat 2 6), bitsValue (field a.toNat 0 2 ++ field b.toNat 4 4),
        bitsValue (field b.toNat 0 4 ++ field 0 0 2)] := rfl
  rw [grouped, bitsValue_append, bitsValue_append]
  simp only [bitsValue_field, length_field, List.cons.injEq, and_true]
  omega

/-- The sextets of one last byte. -/
theorem sextets_one (a : UInt8) : sextets (bits a) = [a.toNat / 4, a.toNat % 4 * 16] := by
  have boundA := a.toNat_lt
  have grouped : sextets (bits a) =
      [bitsValue (field a.toNat 2 6), bitsValue (field a.toNat 0 2 ++ field 0 0 4)] := rfl
  rw [grouped, bitsValue_append]
  simp only [bitsValue_field, length_field, List.cons.injEq, and_true]
  omega

/-- The reference writes a full group as `Common::EncodeInput3` does. -/
theorem base64_three (a b c : UInt8) (data : Bytes) :
    base64 (a :: b :: c :: data) = encodeInput3 a b c ++ base64 data := by
  have boundA := a.toNat_lt
  have boundB := b.toNat_lt
  have boundC := c.toNat_lt
  rw [encodeInput3_eq]
  simp only [base64, List.flatMap_cons, sextets_three, List.map_cons, List.length_cons,
    List.cons_append, List.nil_append]
  rw [alphabet_eq _ (by omega), alphabet_eq _ (by omega), alphabet_eq _ (by omega),
    alphabet_eq _ (by omega)]
  simp only [add_assoc, Nat.reduceAdd, Nat.add_mod_right]

/-- The reference writes two last bytes as `Common::EncodeInput2` does. -/
theorem base64_two (a b : UInt8) : base64 [a, b] = encodeInput2 a b := by
  have boundA := a.toNat_lt
  have boundB := b.toNat_lt
  rw [encodeInput2_eq]
  simp only [base64, List.flatMap_cons, List.flatMap_nil, List.append_nil, sextets_two,
    List.map_cons, List.map_nil]
  rw [alphabet_eq _ (by omega), alphabet_eq _ (by omega), alphabet_eq _ (by omega)]
  rfl

/-- The reference writes one last byte as `Common::EncodeInput1` does. -/
theorem base64_one (a : UInt8) : base64 [a] = encodeInput1 a := by
  have boundA := a.toNat_lt
  rw [encodeInput1_eq]
  simp only [base64, List.flatMap_cons, List.flatMap_nil, List.append_nil, sextets_one,
    List.map_cons, List.map_nil]
  rw [alphabet_eq _ (by omega), alphabet_eq _ (by omega)]
  rfl

/-! ## Lines -/

/-- A run of 76 characters is a line. -/
theorem wrapped_line {line : Bytes} (length : line.length = 76) (rest : Bytes) :
    wrapped (line ++ rest) = line ++ (if line.getLast? = some pad then [] else crlf) ++
      wrapped rest := by
  rw [wrapped, if_pos (by rw [List.length_append]; omega), List.take_left' length,
    List.drop_left' length]

/-- A shorter text stays as it is. -/
theorem wrapped_short {text : Bytes} (short : text.length < 76) : wrapped text = text := by
  rw [wrapped, if_neg (by omega)]

/-- Padding at the end of a last line keeps it open. -/
theorem wrapped_padded {text : Bytes} (atMost : text.length ≤ 76)
    (padded : text.getLast? = some pad) : wrapped text = text := by
  rcases Nat.lt_or_eq_of_le atMost with short | whole
  · exact wrapped_short short
  · have nothing : wrapped [] = [] := wrapped_short (by decide)
    simpa [nothing, padded] using wrapped_line whole []

/-- `Common::Encode` wraps the reference, from any place in a line on. -/
theorem encodeFrom_wrapped (lineLen : Nat) (data line : Bytes) (length : line.length = lineLen)
    (inLine : lineLen + 4 ≤ 76) (groups : lineLen % 4 = 0) :
    line ++ encodeFrom lineLen data = wrapped (line ++ base64 data) := by
  induction lineLen, data using encodeFrom.induct generalizing line with
  | case1 lineLen a b c data atLineEnd goesOn =>
    have longer : (line ++ encodeInput3 a b c).length = lineLen + 4 := by
      rw [List.length_append, length]
      rfl
    rw [encodeFrom, base64_three, ← List.append_assoc, ← List.append_assoc]
    by_cases lineEnd : lineLen + 4 = 76
    · have noPad : ¬(line ++ encodeInput3 a b c).getLast? = some pad := by
        rw [encodeInput3_eq, List.getLast?_append]
        simpa using (isSextet_encodeChar (show c.toNat % 64 < 64 by omega)).noPad
      have behind : encodeFrom 0 data = wrapped (base64 data) := atLineEnd [] rfl (by omega) rfl
      rw [if_pos lineEnd, wrapped_line (longer.trans lineEnd), if_neg noPad, behind,
        List.append_assoc _ crlf]
    · rw [if_neg lineEnd]
      exact goesOn _ longer (by omega) (by omega)
  | case2 lineLen a b =>
    rw [encodeFrom, base64_two]
    refine (wrapped_padded ?_ ?_).symm
    · rw [List.length_append, length]
      exact inLine
    · rw [List.getLast?_append]
      rfl
  | case3 lineLen a =>
    rw [encodeFrom, base64_one]
    refine (wrapped_padded ?_ ?_).symm
    · rw [List.length_append, length]
      exact inLine
    · rw [List.getLast?_append]
      rfl
  | case4 lineLen =>
    have nothing : base64 [] = [] := rfl
    rw [encodeFrom, nothing, List.append_nil, wrapped_short (by omega)]

/-! ## Line ends -/

/-- The alphabet has no line end. -/
theorem alphabet_noLineEnd (value : Nat) : alphabet value ≠ 13 ∧ alphabet value ≠ 10 := by
  have listed : ∀ index < 64, alphabet index ≠ 13 ∧ alphabet index ≠ 10 := by decide +kernel
  by_cases small : value < 64
  · exact listed value small
  · have last : alphabet value = 47 := by
      rw [alphabet, if_neg (by omega), if_neg (by omega), if_neg (by omega), if_neg (by omega)]
    rw [last]
    decide

/-- There is no line end within the reference. -/
theorem noLineEnd_of_mem_base64 {data : Bytes} {c : UInt8} (written : c ∈ base64 data) :
    c ≠ 13 ∧ c ≠ 10 := by
  rw [base64, List.mem_append] at written
  rcases written with char | padding
  · obtain ⟨value, -, rfl⟩ := List.mem_map.mp char
    exact alphabet_noLineEnd value
  · rw [List.eq_of_mem_replicate padding]
    decide

/-- Text without a carriage return is kept. -/
theorem removeCrlf_append {front : Bytes} (clean : 13 ∉ front) (rest : Bytes) :
    removeCrlf (front ++ rest) = front ++ removeCrlf rest := by
  induction front with
  | nil => rfl
  | cons c front ih =>
    rw [List.mem_cons, not_or] at clean
    have kept : removeCrlf (c :: (front ++ rest)) = c :: removeCrlf (front ++ rest) := by
      rw [removeCrlf]
      rintro more rfl
      exact absurd rfl clean.1
    rw [List.cons_append, kept, ih clean.2, List.cons_append]

/-- The reference is kept. -/
theorem removeCrlf_base64_append (data rest : Bytes) :
    removeCrlf (base64 data ++ rest) = base64 data ++ removeCrlf rest :=
  removeCrlf_append (fun listed => (noLineEnd_of_mem_base64 listed).1 rfl) rest

/-- Without its line ends the text of `Common::Encode` is the reference. -/
theorem removeCrlf_encodeFrom (lineLen : Nat) (data : Bytes) :
    removeCrlf (encodeFrom lineLen data) = base64 data := by
  have whole (data : Bytes) : removeCrlf (base64 data) = base64 data := by
    simpa [removeCrlf] using removeCrlf_base64_append data []
  induction lineLen, data using encodeFrom.induct with
  | case1 lineLen a b c data atLineEnd inLine =>
    have group : encodeInput3 a b c = base64 [a, b, c] := (base64_three a b c []).symm
    have behind :
      removeCrlf (if lineLen + 4 = 76 then
        crlf ++ encodeFrom 0 data else encodeFrom (lineLen + 4) data) =
        base64 data := by
      split_ifs
      · exact atLineEnd
      · exact inLine
    rw [encodeFrom, base64_three, group, removeCrlf_base64_append, behind]
  | case2 lineLen a b =>
    rw [encodeFrom, ← base64_two]
    exact whole [a, b]
  | case3 lineLen a =>
    rw [encodeFrom, ← base64_one]
    exact whole [a]
  | case4 lineLen => rfl

/-- `Common::Encode` writes MIME Base64: the reference without line ends of its own, and a line end
behind each run of 76 characters that does not end with padding and nowhere else. -/
theorem encode_mime (data : Bytes) :
    removeCrlf (encode data) = base64 data ∧ encode data = wrapped (base64 data) ∧
      ∀ c ∈ base64 data, c ≠ 13 ∧ c ≠ 10 := by
  rw [encode_eq]
  refine ⟨removeCrlf_encodeFrom 0 data, ?_, fun c written => noLineEnd_of_mem_base64 written⟩
  exact encodeFrom_wrapped 0 data [] rfl (by decide) rfl

end Base64

end NetServer
