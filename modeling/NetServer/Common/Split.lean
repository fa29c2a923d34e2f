import NetServer.Common.CStd

/-!
# Splitting a string at a character

The loop stands twice in the source, in the request parser and in the configuration. It collects
the fields between the occurrences of a character, without an empty field at the front and
without one at the end. It keeps the length of the string in an `int`, so of a string of 2 GiB and
more it splits another part or nothing.
-/

namespace NetServer

/-- One step of the loop of `SplitString`: the start of the current field and the fields
pushed so far, at index `i` of a text. -/
def splitStep (text : Bytes) (length : Int) (splitchar : UInt8) (state : Nat × List Bytes)
    (next : UInt8 × Nat) : Nat × List Bytes :=
  let (start, vec) := state
  let (c, i) := next
  if c = splitchar ∧ i = 0 then (start + 1, vec)
  else if c = splitchar then (i + 1, vec ++ [(text.drop start).take (i - start)])
  else if i = length - 1 then (start, vec ++ [(text.drop start).take (i + 1 - start)])
  else (start, vec)

/-- The loop of `SplitString` over the indices below a length. -/
def splitUpTo (text : Bytes) (length : Int) (splitchar : UInt8) : List Bytes :=
  (text.zipIdx.foldl (fun state next => if next.2 < length then
    splitStep text length splitchar state next else state)
    (0, [])).2

/-- The loop that `CHttpParse::SplitString` and `CConfiger::SplitString2` share, with its `int
length = s.length()`. -/
def splitLoop (text : Bytes) (splitchar : UInt8) : List Bytes :=
  splitUpTo text (toInt text.length) splitchar

/-! ## Fields -/

/-- Fields without an empty one at the end. -/
def trimLast (fields : List Bytes) : List Bytes :=
  if fields.getLast? = some [] then fields.dropLast else fields

/-- The end of a list of fields does not depend on its front. -/
theorem trimLast_cons (field : Bytes) {fields : List Bytes} (nonempty : fields ≠ []) :
    trimLast (field :: fields) = field :: trimLast fields := by
  obtain ⟨first, rest, isCons⟩ := List.exists_cons_of_ne_nil nonempty
  subst isCons
  unfold trimLast
  rw [List.getLast?_cons_cons, List.dropLast_cons_of_ne_nil nonempty]
  split_ifs <;> rfl

/-- The fields between the occurrences of a character, without the first one when the text starts
with the character, and without the last one when that is empty. -/
def fieldsOf (text : Bytes) (splitchar : UInt8) : List Bytes :=
  let fields := text.splitOn splitchar
  trimLast (if text.head? = some splitchar then fields.tail else fields)

/-- A text without the character at its front. -/
def behindFirst (text : Bytes) (splitchar : UInt8) : Bytes :=
  if text.head? = some splitchar then text.tail else text

/-- The field in front of a character at the front is empty. -/
theorem fieldsOf_eq (text : Bytes) (splitchar : UInt8) :
    fieldsOf text splitchar = trimLast ((behindFirst text splitchar).splitOn splitchar) := by
  cases text with
  | nil => rfl
  | cons c rest =>
    by_cases separator : c = splitchar
    · subst separator
      have empty : c ∉ ([] : Bytes) := List.not_mem_nil
      have first : ([] ++ c :: rest).splitOn c = [] :: rest.splitOn c :=
        List.splitOn_append_cons_self_of_not_mem empty rest
      rw [List.nil_append] at first
      simp only [fieldsOf, behindFirst, List.head?_cons, ↓reduceIte, List.tail_cons, first]
    · have other : (c :: rest).head? ≠ some splitchar := by simpa using separator
      simp only [fieldsOf, behindFirst, other, ↓reduceIte]

/-! ## The steps -/

/-- A separator that is not the first character ends the current field. -/
theorem splitStep_separator {splitchar : UInt8} {done field : Bytes} (rest : Bytes) (length : Int)
    (vec : List Bytes) (inside : done ++ field ≠ []) :
    splitStep (done ++ field ++ splitchar :: rest) length splitchar (done.length, vec)
      (splitchar, done.length + field.length) =
        (done.length + field.length + 1, vec ++ [field]) := by
  have notFirst : done.length + field.length ≠ 0 := by
    rw [← List.length_append]
    exact fun zero => inside (List.eq_nil_of_length_eq_zero zero)
  have current : ((done ++ field ++ splitchar :: rest).drop done.length).take
      (done.length + field.length - done.length) = field := by
    rw [List.append_assoc, List.drop_left, Nat.add_sub_cancel_left, List.take_left]
  simp only [splitStep, notFirst, and_false, ↓reduceIte, current]

/-- The last character ends the current field unless it is a separator. -/
theorem splitStep_last {splitchar c : UInt8} (done field tail : Bytes) (vec : List Bytes)
    {length : Int} (plain : c ≠ splitchar)
    (last : (done.length + field.length : Int) = length - 1) :
    splitStep (done ++ field ++ c :: tail) length splitchar (done.length, vec) (c,
      done.length + field.length) =
      (done.length, vec ++ [field ++ [c]]) := by
  have current : ((done ++ field ++ c :: tail).drop done.length).take
      (done.length + field.length + 1 - done.length) = field ++ [c] := by
    rw [List.append_assoc, List.drop_left, Nat.add_assoc, Nat.add_sub_cancel_left, List.append_cons,
      ← List.length_singleton (a := c), ← List.length_append, List.take_left]
  simp only [splitStep, plain, false_and, ↓reduceIte, current, Int.natCast_add, if_pos last]

/-- Any other character belongs to the current field. -/
theorem splitStep_inner {splitchar c : UInt8} (text : Bytes) {start i : Nat} (vec : List Bytes)
    {length : Int} (plain : c ≠ splitchar) (notLast : (i : Int) ≠ length - 1) :
    splitStep text length splitchar (start, vec) (c, i) = (start, vec) := by
  simp only [splitStep, plain, false_and, ↓reduceIte, if_neg notLast]

/-- The loop in the middle of a text: behind the fields pushed so far come those of the current
field and the rest, up to the length. -/
theorem splitLoop_rest {splitchar : UInt8} {done field rest tail : Bytes} {vec : List Bytes}
    {length : Int} (nonempty : rest ≠ []) (clean : splitchar ∉ field)
    (front : done ++ field = [] → rest.head? ≠ some splitchar)
    (ends : (done.length + field.length + rest.length : Int) = length) :
    ((rest.zipIdx (done.length + field.length)).foldl
      (splitStep (done ++ field ++ (rest ++ tail)) length splitchar)
      (done.length, vec)).2 = vec ++ trimLast ((field ++ rest).splitOn splitchar) := by
  induction rest generalizing done field vec with
  | nil => exact absurd rfl nonempty
  | cons c rest ih =>
    rw [List.zipIdx_cons, List.foldl_cons, List.cons_append]
    rw [List.length_cons, Int.natCast_succ] at ends
    by_cases separator : c = splitchar
    · subst separator
      have inside : done ++ field ≠ [] := fun empty => front empty rfl
      rw [splitStep_separator (rest ++ tail) length vec inside,
        List.splitOn_append_cons_self_of_not_mem clean]
      by_cases ended : rest = []
      · subst ended
        simp [trimLast]
      · have counted : ((done ++ field ++ [c]).length + ([] : Bytes).length + rest.length : Int) =
            length := by
          simp only [List.length_append, List.length_singleton, List.length_nil, Int.natCast_add]
          omega
        have next :=
          @ih (done ++ field ++ [c]) [] (vec ++ [field]) ended List.not_mem_nil (by simp) counted
        simp only [List.length_append, List.length_cons, List.length_nil, List.append_nil,
          Nat.add_zero, List.append_assoc, List.cons_append, List.nil_append, Nat.zero_add,
          Nat.add_assoc] at next ⊢
        rw [next, trimLast_cons field (List.splitOn_ne_nil _ _)]
    · have clean' : splitchar ∉ field ++ [c] := by
        simp [clean, Ne.symm separator]
      by_cases ended : rest = []
      · subst ended
        rw [List.length_nil] at ends
        rw [List.nil_append, splitStep_last done field tail vec separator (by omega),
          List.splitOn_eq_singleton clean']
        simp [trimLast]
      · have positive := List.length_pos_of_ne_nil ended
        have counted : (done.length + (field ++ [c]).length + rest.length : Int) = length := by
          simp only [List.length_append, List.length_singleton, Int.natCast_add]
          omega
        have next := @ih done (field ++ [c]) vec ended clean' (by simp) counted
        rw [splitStep_inner _ vec separator (by omega)]
        simpa [Nat.add_assoc] using next

/-- Behind the length the loop does nothing. -/
theorem splitUpTo_eq_take (text : Bytes) (length : Int) (splitchar : UInt8) :
    splitUpTo text length splitchar =
      ((text.take length.toNat).zipIdx.foldl (splitStep text length splitchar) (0, [])).2 := by
  have parts : text.zipIdx =
      (text.take length.toNat).zipIdx ++
      (text.drop length.toNat).zipIdx (0 + (text.take length.toNat).length) := by
    rw [← List.zipIdx_append, List.take_append_drop]
  have inside (state : Nat × List Bytes) (next : UInt8 × Nat)
    (listed : next ∈ (text.take length.toNat).zipIdx) :
      (if next.2 < length then splitStep text length splitchar state next else state) =
        splitStep text length splitchar state next := by
    have below := List.snd_lt_of_mem_zipIdx listed
    rw [List.length_take] at below
    rw [if_pos (by omega)]
  have behind (state : Nat × List Bytes) (next : UInt8 × Nat)
      (listed : next ∈ (text.drop length.toNat).zipIdx (0 + (text.take length.toNat).length)) :
      (if next.2 < length then splitStep text length splitchar state next else state) = state := by
    have above := List.le_snd_of_mem_zipIdx listed
    have below := List.snd_lt_of_mem_zipIdx listed
    rw [List.length_take] at above below
    rw [List.length_drop] at below
    rw [if_neg (by omega)]
  rw [splitUpTo, parts, List.foldl_append, List.foldl_ext _ _ _ inside,
    List.foldl_ext _ (fun state _ => state) _ behind, List.foldl_fixed]

/-- The loop collects the fields up to the length. -/
theorem splitUpTo_eq (text : Bytes) {length : Int} (most : length ≤ text.length)
    (splitchar : UInt8) :
    splitUpTo text length splitchar = fieldsOf (text.take length.toNat) splitchar := by
  have counted (nonempty : text.take length.toNat ≠ []) : ((text.take length.toNat).length : Int) =
      length := by
    have positive := List.length_pos_of_ne_nil nonempty
    rw [List.length_take] at positive ⊢
    omega
  have isText := List.take_append_drop length.toNat text
  rw [splitUpTo_eq_take, fieldsOf_eq]
  generalize text.take length.toNat = part at *
  generalize text.drop length.toNat = tail at *
  subst isText
  cases part with
  | nil => rfl
  | cons c rest =>
    have ends := counted (List.cons_ne_nil c rest)
    rw [List.length_cons, Int.natCast_succ] at ends
    by_cases separator : c = splitchar
    · subst separator
      by_cases ended : rest = []
      · subst ended
        simp [splitStep, trimLast, behindFirst]
      · have later := @splitLoop_rest c [c] [] rest tail [] length ended List.not_mem_nil (by simp)
          (by simp only [List.length_singleton, List.length_nil]; omega)
        simp only [List.zipIdx_cons, List.foldl_cons, behindFirst, List.head?_cons, List.tail_cons,
          ↓reduceIte]
        simpa [splitStep] using later
    · have whole :=
        @splitLoop_rest splitchar [] [] (c :: rest) tail [] length (by simp) List.not_mem_nil
          (by simpa using separator) (by simp only [List.length_cons, List.length_nil]; omega)
      simpa [behindFirst, separator] using whole

/-- The part of a text that the loop splits. -/
def splitPart (text : Bytes) : Bytes := text.take (toInt text.length).toNat

/-- The loop collects the fields of the part of the text that it splits. -/
theorem splitLoop_eq (text : Bytes) (splitchar : UInt8) :
    splitLoop text splitchar = fieldsOf (splitPart text) splitchar :=
  splitUpTo_eq text (toInt_natCast_le text.length) splitchar

/-- A text whose length is an `int` is split as a whole. -/
theorem splitLoop_of_small {text : Bytes} (small : text.length < 2 ^ 31) (splitchar : UInt8) :
    splitLoop text splitchar = fieldsOf text splitchar := by
  have same : toInt text.length = text.length := toInt_of_range (by omega) (by omega)
  rw [splitLoop_eq, splitPart, same, Int.toNat_natCast, List.take_length]

end NetServer
