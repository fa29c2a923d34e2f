import NetServer.Common.Mime

/-!
# What `Common::Decode` makes of other texts

`Common::Decode` counts four characters for every group, while its pointer stays on the padding of
a short one. From there on the counter runs ahead of the pointer. Three results depend on it: line
ends behind a padded group are decoded as a group of their own, a group cut off by the end of the
text is read behind the NUL unless the counter is far enough ahead, and padding is recognised by
comparison only, so that its eighth bit matters.
-/

namespace NetServer

open Lib

namespace Base64

/-! ## One group -/

/-- The characters of the group that stands at the front of a text, if all of them can be read: the
padding does not belong to it. -/
def groupWidth : Bytes → Option Nat
  | _ :: _ :: c2 :: rest =>
    if c2 = pad then some 2
    else match rest with
      | c3 :: _ => some (if c3 = pad then 3 else 4)
      | [] => none
  | _ => none

section

variable {memory : Bytes} {dataLen : Int} {state : DecodeState}

/-- The byte at an offset from the pointer, in the text ahead of it. -/
theorem peek_eq (offset : Nat) : peek memory (state.pData + offset) =
    match (memory.drop state.pData)[offset]? with
    | some c => .ok c
    | none => .error .readPast := by
  rw [peek_drop]
  rfl

/-- An emitted byte is decoded, with nothing passed yet. -/
theorem DecodeState.emit_eq (state : DecodeState) (value : BitVec 32) :
    state.emit value = state.decoded 0 0 [.ofBitVec (value.setWidth 8)] := by
  simp [DecodeState.emit, DecodeState.decoded]

/-- The characters of decoded data are passed last. -/
theorem DecodeState.advance_decoded (data : Bytes) (bytes : Nat) (count : Int) :
    (state.decoded 0 0 data).advance bytes count =
      if state.i + count < 2 ^ 31 then
        .ok (state.decoded bytes count data) else .error .overflow := by
  simp only [DecodeState.advance, DecodeState.decoded, add_zero]

/-- A group that can be read gives a byte less than it has characters, and counts four of them. -/
theorem decodeGroup_width {width : Nat}
    (readable : groupWidth (memory.drop state.pData) = some width) (c0 : UInt8) :
    ∃ data, data.length + 1 = width ∧ decodeGroup memory state c0 =
      if state.i + 4 < 2 ^ 31 then .ok (state.decoded width 4 data) else .error .overflow := by
  have atPointer (data : Bytes) : (state.decoded 0 0 data).pData = state.pData := rfl
  unfold groupWidth at readable
  split at readable
  · rename_i c0' c1 c2 rest ahead
    have second : peek memory (state.pData + 1) = .ok c1 := peek_ahead 1 ahead rfl
    have third : peek memory (state.pData + 2) = .ok c2 := peek_ahead 2 ahead rfl
    simp only [decodeGroup, second, third, bind, Except.bind, DecodeState.emit_eq,
      DecodeState.decoded_decoded, add_zero, atPointer]
    by_cases padded : c2 = pad
    · rw [if_pos padded] at readable ⊢
      cases readable
      exact ⟨_, rfl, DecodeState.advance_decoded _ 2 4⟩
    · rw [if_neg padded] at readable ⊢
      cases rest with
      | nil => cases readable
      | cons c3 rest =>
        have fourth : peek memory (state.pData + 3) = .ok c3 := peek_ahead 3 ahead rfl
        cases readable
        simp only [fourth]
        by_cases padded' : c3 = pad
        · rw [if_pos padded', if_pos padded']
          exact ⟨_, rfl, DecodeState.advance_decoded _ 3 4⟩
        · rw [if_neg padded', if_neg padded']
          exact ⟨_, rfl, DecodeState.advance_decoded _ 4 4⟩
  · cases readable

/-- A group that cannot be read is read past the end. -/
theorem decodeGroup_past (unreadable : groupWidth (memory.drop state.pData) = none) (c0 : UInt8) :
    decodeGroup memory state c0 = .error .readPast := by
  unfold groupWidth at unreadable
  split at unreadable
  · rename_i c0' c1 c2 rest ahead
    have second : peek memory (state.pData + 1) = .ok c1 := peek_ahead 1 ahead rfl
    have third : peek memory (state.pData + 2) = .ok c2 := peek_ahead 2 ahead rfl
    split_ifs at unreadable with padded
    cases rest with
    | cons c3 rest => cases unreadable
    | nil =>
      have fourth : peek memory (state.pData + 3) = .error .readPast := by rw [peek_eq, ahead]; rfl
      simp only [decodeGroup, second, third, fourth, bind, Except.bind, DecodeState.emit, padded,
        ↓reduceIte]
  · rename_i short
    rcases ahead : memory.drop state.pData with _ | ⟨c, _ | ⟨c1, _ | ⟨c2, rest⟩⟩⟩
    · have second : peek memory (state.pData + 1) = .error .readPast := by rw [peek_eq, ahead]; rfl
      simp only [decodeGroup, second, bind, Except.bind]
    · have second : peek memory (state.pData + 1) = .error .readPast := by rw [peek_eq, ahead]; rfl
      simp only [decodeGroup, second, bind, Except.bind]
    · have second : peek memory (state.pData + 1) = .ok c1 := peek_ahead 1 ahead rfl
      have third : peek memory (state.pData + 2) = .error .readPast := by rw [peek_eq, ahead]; rfl
      simp only [decodeGroup, second, third, bind, Except.bind, DecodeState.emit]
    · exact absurd ahead (short c c1 c2 rest)

/-- A group has two to four characters. -/
theorem groupWidth_range {text : Bytes} {width : Nat} (readable : groupWidth text = some width) :
    2 ≤ width ∧ width ≤ 4 := by
  unfold groupWidth at readable
  split at readable
  · split_ifs at readable
    · cases readable
      omega
    · split at readable
      · cases readable
        split_ifs <;> omega
      · cases readable
  · cases readable

/-- A pass at a character that is no line end decodes a group. -/
theorem decodeIteration_eq {c0 : UInt8} (inside : state.i < dataLen)
    (first : peek memory state.pData = .ok c0) (noLineEnd : ¬(c0 = 13 ∨ c0 = 10)) :
    decodeIteration memory dataLen state = (decodeGroup memory state c0).map .inl := by
  have group : c0 ≠ 13 ∧ c0 ≠ 10 := not_or.mp noLineEnd
  rw [decodeIteration, if_pos inside, first]
  simp only [bind, Except.bind, if_pos group]
  cases decodeGroup memory state c0 <;> rfl

/-- No pass takes back what is decoded. -/
theorem decodeIteration_grows {next : DecodeState}
    (continued : decodeIteration memory dataLen state = .ok (.inl next)) :
    state.strDecode.length ≤ next.strDecode.length := by
  have grown (bytes : Nat) (count : Int) (data : Bytes) :
      state.strDecode.length ≤ (state.decoded bytes count data).strDecode.length := by
    simp [DecodeState.decoded]
  by_cases inside : state.i < dataLen
  · cases first : peek memory state.pData with
    | error e => simp [decodeIteration, inside, first, bind, Except.bind] at continued
    | ok c0 =>
      by_cases lineEnd : c0 = 13 ∨ c0 = 10
      · have skipped : ¬(c0 ≠ 13 ∧ c0 ≠ 10) := by tauto
        simp only [decodeIteration, inside, ↓reduceIte, first, bind, Except.bind, skipped,
          DecodeState.advance] at continued
        split_ifs at continued
        cases continued
        exact le_rfl
      · rw [decodeIteration_eq inside first lineEnd] at continued
        cases readable : groupWidth (memory.drop state.pData) with
        | none =>
          rw [decodeGroup_past readable] at continued
          cases continued
        | some width =>
          obtain ⟨data, -, decoded⟩ := decodeGroup_width readable c0
          rw [decoded] at continued
          split_ifs at continued
          · cases continued
            exact grown width 4 data
          · cases continued
  · simp [decodeIteration, inside, pure, Except.pure] at continued

/-- The loop does not take back what is decoded. -/
theorem decodeLoop_grows {last : DecodeState} (ends : decodeLoop memory dataLen state = .ok last) :
    state.strDecode.length ≤ last.strDecode.length := by
  apply @loop_preserved _ _ _ _ _ _ _ (fun later => state.strDecode.length ≤ later.strDecode.length)
    (fun result => state.strDecode.length ≤ result.strDecode.length) _ le_rfl _ _ ends
  · intro earlier next kept continued
    exact kept.trans (decodeIteration_grows continued)
  · intro earlier result kept returned
    unfold decodeIteration at returned
    split at returned
    · cases first : peek memory earlier.pData with
      | error e => simp [first, bind, Except.bind] at returned
      | ok c0 =>
        simp only [first, bind, Except.bind] at returned
        split at returned
        · cases group : decodeGroup memory earlier c0 <;>
            simp [group, pure, Except.pure] at returned
        · cases skipped : earlier.advance 1 1 <;> simp [skipped, pure, Except.pure] at returned
    · cases returned
      exact kept

/-- A group at the pointer is decoded to a byte less than it has characters, or the loop fails. -/
theorem decodeLoop_group {last : DecodeState} {c0 : UInt8} {rest : Bytes}
    (inside : state.i < dataLen) (ahead : memory.drop state.pData = c0 :: rest)
    (noLineEnd : ¬(c0 = 13 ∨ c0 = 10)) (ends : decodeLoop memory dataLen state = .ok last) :
    ∃ width, groupWidth (c0 :: rest) = some width ∧ state.strDecode.length + width ≤
      last.strDecode.length + 1 := by
  have taken := decodeIteration_eq inside (peek_ahead 0 ahead rfl) noLineEnd
  cases readable : groupWidth (memory.drop state.pData) with
  | none =>
    rw [decodeGroup_past readable] at taken
    rw [decodeLoop, loop_error taken] at ends
    cases ends
  | some width =>
    obtain ⟨data, length, decoded⟩ := decodeGroup_width readable c0
    rw [decoded] at taken
    split_ifs at taken
    · rw [decodeLoop, loop_continue taken] at ends
      have grown := decodeLoop_grows ends
      have longer : (state.decoded width 4 data).strDecode.length =
          state.strDecode.length + data.length :=
        List.length_append
      refine ⟨width, ahead ▸ readable, by omega⟩
    · rw [decodeLoop, loop_error taken] at ends
      cases ends

end

/-! ## The bounds of the text -/

/-- What is left of a text when line ends and groups are taken off its front: how many characters
its short groups lack, and how many characters stand behind the last group that can be taken off. -/
structure Remains where
  lack : Nat
  left : Nat
  deriving DecidableEq, Repr

/-- The characters of the group at the front of a text: two or three when padding stands behind
them. -/
def groupChars (text : Bytes) : Nat :=
  if text[2]? = some pad then 2 else if text[3]? = some pad then 3 else 4

/-- Take line ends and groups off the front of a text. -/
def remains (text : Bytes) : Remains :=
  match text with
  | [] => ⟨0, 0⟩
  | c :: behind =>
    if c = 13 ∨ c = 10 then remains behind
    else if (c :: behind).length < 3 then ⟨0, (c :: behind).length⟩
    else
      let rest := remains (behind.drop (groupChars (c :: behind) - 1))
      ⟨rest.lack + (4 - groupChars (c :: behind)), rest.left⟩
termination_by text.length
decreasing_by
  · simp
  · rw [List.length_drop, List.length_cons]
    omega

/-- By how much the counter exceeds the length in the end, when it lacks `count` in front of a text:
a line end counts one, a group four, whether it is short or not. -/
def excess (count : Nat) (text : Bytes) : Nat :=
  match count, text with
  | 0, _ => 0
  | _ + 1, [] => 0
  | count + 1, c :: behind =>
    if c = 13 ∨ c = 10 then excess count behind
    else if count < 4 then 3 - count
    else excess (count - 3) ((c :: behind).drop (groupChars (c :: behind)))
termination_by count

/-- The counter exceeds the length by three at most. -/
theorem excess_le (count : Nat) (text : Bytes) : excess count text ≤ 3 := by
  induction count, text using excess.induct with
  | case1 text => simp [excess]
  | case2 count => simp [excess]
  | case3 count c behind lineEnd ih => rwa [excess, if_pos lineEnd]
  | case4 count c behind group last =>
    rw [excess, if_neg group, if_pos last]
    omega
  | case5 count c behind group more ih => rwa [excess, if_neg group, if_neg more]

/-- A group has two to four characters, and the NUL is one of them at most. -/
theorem groupChars_range {text : Bytes} (long : 3 ≤ text.length) :
    2 ≤ groupChars text ∧ groupChars text ≤ 4 ∧ groupChars text ≤ text.length + 1 := by
  unfold groupChars
  split_ifs <;> omega

section

variable {c : UInt8} {behind : Bytes}

/-- A line end is taken off. -/
theorem remains_lineEnd (lineEnd : c = 13 ∨ c = 10) : remains (c :: behind) = remains behind := by
  rw [remains, if_pos lineEnd]

/-- A group that is cut off stays. -/
theorem remains_short (noLineEnd : ¬(c = 13 ∨ c = 10)) (short : (c :: behind).length < 3) :
    remains (c :: behind) = ⟨0, (c :: behind).length⟩ := by
  rw [remains, if_neg noLineEnd, if_pos short]

/-- A group is taken off, and what it lacks is added up. -/
theorem remains_group (noLineEnd : ¬(c = 13 ∨ c = 10)) (long : ¬(c :: behind).length < 3) :
    remains (c :: behind) =
      ⟨(remains ((c :: behind).drop (groupChars (c :: behind)))).lack +
        (4 - groupChars (c :: behind)),
        (remains ((c :: behind).drop (groupChars (c :: behind)))).left⟩ := by
  have range := groupChars_range (not_lt.mp long)
  obtain ⟨before, width⟩ : ∃ before, groupChars (c :: behind) = before + 1 :=
    ⟨groupChars (c :: behind) - 1, by omega⟩
  rw [remains, if_neg noLineEnd, if_neg long, width, List.drop_succ_cons, Nat.add_sub_cancel]

end

/-- No more is left than there was. -/
theorem remains_left_le (text : Bytes) : (remains text).left ≤ text.length := by
  induction text using remains.induct with
  | case1 => simp [remains]
  | case2 c behind lineEnd ih =>
    rw [remains_lineEnd lineEnd, List.length_cons]
    omega
  | case3 c behind group short => rw [remains_short group short]
  | case4 c behind group long ih =>
    have width := groupChars_range (not_lt.mp long)
    rw [List.length_drop] at ih
    rw [remains, if_neg group, if_neg long, List.length_cons]
    change (remains (behind.drop (groupChars (c :: behind) - 1))).left ≤ behind.length + 1
    omega

/-- The group at the front of a text with three characters or more can be read, together with the
NUL. -/
theorem groupWidth_text {text : Bytes} (long : 3 ≤ text.length) :
    groupWidth (text ++ [0]) = some (groupChars text) := by
  match text, long with
  | [c0, c1, c2], _ =>
    have noPad : (0 : UInt8) ≠ pad := by decide
    simp only [groupWidth, groupChars, List.cons_append, List.nil_append, List.getElem?_cons_succ,
      List.getElem?_cons_zero, Option.some.injEq, if_neg noPad, List.getElem?_nil, reduceCtorEq,
      ↓reduceIte]
    split_ifs <;> rfl
  | c0 :: c1 :: c2 :: c3 :: rest, _ =>
    simp only [groupWidth, groupChars, List.cons_append, List.getElem?_cons_succ,
      List.getElem?_cons_zero, Option.some.injEq]
    split_ifs <;> rfl

/-- A shorter group is cut off by the end of the text. -/
theorem groupWidth_short {text : Bytes} (short : text.length < 3) :
    groupWidth (text ++ [0]) = none := by
  match text, short with
  | [], _ => rfl
  | [c0], _ => rfl
  | [c0, c1], _ => rfl

section

variable {memory : Bytes} {dataLen : Int}

/-- When the counter has reached the length, nothing more is read, and what is left is at most what
the counter is ahead by. -/
theorem decodeLoop_inBounds_done {state : DecodeState} {text : Bytes} {lag : Nat}
    (counted : state.i + (text.length : Int) = dataLen + (lag : Int)) (outside : dataLen ≤ state.i)
    (small : dataLen < 2 ^ 31) : (∃ last, decodeLoop memory dataLen state = .ok last) ↔
      (remains text).left ≤ lag + (remains text).lack ∧
        dataLen + excess (dataLen - state.i).toNat text < 2 ^ 31 := by
  have bound := remains_left_le text
  have nothing : (dataLen - state.i).toNat = 0 := by omega
  rw [nothing, excess]
  refine iff_of_true ⟨state, decodeLoop_done outside⟩ ⟨?_, ?_⟩ <;> omega

/-- Fewer than three characters are no group: the loop reads behind the NUL. -/
theorem decodeLoop_short {state : DecodeState} {c : UInt8} {behind : Bytes}
    (inside : state.i < dataLen) (ahead : memory.drop state.pData = c :: behind ++ [0])
    (noLineEnd : ¬(c = 13 ∨ c = 10)) (short : (c :: behind).length < 3) :
    decodeLoop memory dataLen state = .error .readPast := by
  have taken := decodeIteration_eq inside (peek_ahead 0 ahead rfl) noLineEnd
  have past : decodeGroup memory state c = .error .readPast :=
    decodeGroup_past (by rw [ahead]; exact groupWidth_short short) c
  rw [past] at taken
  exact loop_error taken

/-- What holds behind a line end holds in front of it. -/
theorem decodeLoop_inBounds_lineEnd {state : DecodeState} {c : UInt8} {behind : Bytes} {lag : Nat}
    (small : dataLen < 2 ^ 31) (inside : state.i < dataLen)
    (ahead : memory.drop state.pData = c :: behind ++ [0]) (lineEnd : c = 13 ∨ c = 10)
    (later : (∃ last, decodeLoop memory dataLen (state.decoded 1 1 []) = .ok last) ↔
      (remains behind).left ≤ lag + (remains behind).lack ∧
        dataLen + excess (dataLen - (state.decoded 1 1 []).i).toNat behind < 2 ^ 31) :
    (∃ last, decodeLoop memory dataLen state = .ok last) ↔
      (remains (c :: behind)).left ≤ lag + (remains (c :: behind)).lack ∧
        dataLen + excess (dataLen - state.i).toNat (c :: behind) < 2 ^ 31 := by
  have skipped := decodeIteration_lineEnd inside (by omega) (peek_ahead 0 ahead rfl) lineEnd
  have goesOn : decodeLoop memory dataLen state =
      decodeLoop memory dataLen (state.decoded 1 1 []) := loop_continue skipped
  have lacks : (dataLen - state.i).toNat = (dataLen - (state.decoded 1 1 []).i).toNat + 1 := by
    simp only [DecodeState.decoded]
    omega
  rw [goesOn, remains_lineEnd lineEnd, lacks, excess, if_pos lineEnd]
  exact later

/-- What holds behind a group holds in front of it. The counter can overflow at the last group
only. -/
theorem decodeLoop_inBounds_group {state : DecodeState} {c : UInt8} {behind : Bytes} {lag : Nat}
    (small : dataLen < 2 ^ 31) (inside : state.i < dataLen)
    (ahead : memory.drop state.pData = c :: behind ++ [0])
    (counted : state.i + ((c :: behind).length : Int) = dataLen + (lag : Int))
    (noLineEnd : ¬(c = 13 ∨ c = 10)) (long : ¬(c :: behind).length < 3)
    {width : Nat} (isWidth : width = groupChars (c :: behind))
    (later : ∀ data, width ≤ (c :: behind).length →
      ((∃ last, decodeLoop memory dataLen (state.decoded width 4 data) = .ok last) ↔
        (remains ((c :: behind).drop width)).left ≤
            lag + (4 - width) + (remains ((c :: behind).drop width)).lack ∧
          dataLen + excess (dataLen - (state.decoded width 4 data).i).toNat
            ((c :: behind).drop width) < 2 ^ 31)) :
    (∃ last, decodeLoop memory dataLen state = .ok last) ↔
      (remains (c :: behind)).left ≤ lag + (remains (c :: behind)).lack ∧
        dataLen + excess (dataLen - state.i).toNat (c :: behind) < 2 ^ 31 := by
  obtain ⟨count, lacks⟩ : ∃ count : Nat, (dataLen - state.i).toNat = count + 1 :=
    Nat.exists_eq_succ_of_ne_zero (by omega)
  have range := groupChars_range (not_lt.mp long)
  have bound := remains_left_le ((c :: behind).drop width)
  have taken := decodeIteration_eq inside (peek_ahead 0 ahead rfl) noLineEnd
  have reads : groupWidth (memory.drop state.pData) = some (groupChars (c :: behind)) := by
    rw [ahead]
    exact groupWidth_text (not_lt.mp long)
  obtain ⟨data, -, decoded⟩ := decodeGroup_width reads c
  rw [remains_group noLineEnd long, lacks, excess, if_neg noLineEnd]
  rw [List.length_drop] at bound
  rw [decoded] at taken
  rw [← isWidth] at range taken ⊢
  split_ifs at taken with room
  · have counts : (state.decoded width 4 data).i = state.i + 4 := rfl
    have goesOn : decodeLoop memory dataLen state =
        decodeLoop memory dataLen (state.decoded width 4 data) := loop_continue taken
    rw [goesOn]
    split_ifs with last
    · -- The counter reaches the length with this group.
      rw [decodeLoop_done (by omega)]
      refine iff_of_true ⟨_, rfl⟩ ⟨?_, ?_⟩
      · change (remains ((c :: behind).drop width)).left ≤
          lag + ((remains ((c :: behind).drop width)).lack + (4 - width))
        omega
      · omega
    · have lacks' : (dataLen - (state.decoded width 4 data).i).toNat = count - 3 := by omega
      have next := later data (by omega)
      rw [Nat.add_right_comm, Nat.add_assoc, lacks'] at next
      exact next
  · rw [decodeLoop, loop_error taken, if_pos (by omega)]
    apply iff_of_false
    · rintro ⟨last, ended⟩
      cases ended
    · omega

/-- From a state whose counter is ahead of the pointer by `lag`, the loop ends, without a read
behind the NUL and without an overflow of the counter, exactly when the characters left do not
outnumber what the counter is ahead by in the end and the counter stays an `int`. -/
theorem decodeLoop_inBounds_iff (small : dataLen < 2 ^ 31) (text : Bytes) (state : DecodeState)
    (lag : Nat) (ahead : memory.drop state.pData = text ++ [0])
    (counted : state.i + (text.length : Int) = dataLen + (lag : Int)) :
    (∃ last, decodeLoop memory dataLen state = .ok last) ↔
      (remains text).left ≤ lag + (remains text).lack ∧
        dataLen + excess (dataLen - state.i).toNat text < 2 ^ 31 := by
  rcases Int.lt_or_le state.i dataLen with inside | outside
  swap
  · exact decodeLoop_inBounds_done counted outside small
  -- The induction takes line ends and groups off the front, as `remains` does.
  induction text using remains.induct generalizing state lag with
  | case1 =>
    rw [List.length_nil] at counted
    omega
  | case2 c behind lineEnd ih =>
    apply decodeLoop_inBounds_lineEnd small inside ahead lineEnd
    have passed : memory.drop state.pData = [c] ++ (behind ++ [0]) := ahead
    have counts : (state.decoded 1 1 []).i + (behind.length : Int) = dataLen + (lag : Int) := by
      rw [List.length_cons, Nat.cast_succ] at counted
      simp only [DecodeState.decoded]
      omega
    rcases Int.lt_or_le (state.decoded 1 1 []).i dataLen with more | outside
    · exact ih _ _ (DecodeState.drop_decoded passed rfl 1 []) counts more
    · exact decodeLoop_inBounds_done counts outside small
  | case3 c behind group short =>
    rw [decodeLoop_short inside ahead group short, remains_short group short]
    apply iff_of_false
    · rintro ⟨last, ended⟩
      cases ended
    · rintro ⟨left, -⟩
      change (c :: behind).length ≤ lag + 0 at left
      omega
  | case4 c behind group long ih =>
    have range := groupChars_range (not_lt.mp long)
    obtain ⟨before, isWidth⟩ : ∃ before, groupChars (c :: behind) = before + 1 :=
      ⟨groupChars (c :: behind) - 1, by omega⟩
    apply decodeLoop_inBounds_group small inside ahead counted group long isWidth.symm
    intro data passed
    have split : memory.drop state.pData =
        (c :: behind).take (before + 1) ++ ((c :: behind).drop (before + 1) ++ [0]) := by
      rw [← List.append_assoc, List.take_append_drop]
      exact ahead
    have drops := DecodeState.drop_decoded split (List.length_take_of_le passed).symm 4 data
    have counts : (state.decoded (before + 1) 4 data).i +
        (((c :: behind).drop (before + 1)).length : Int) =
          dataLen + ((lag + (4 - (before + 1)) : Nat) : Int) := by
      rw [List.length_drop, Nat.cast_sub passed]
      simp only [DecodeState.decoded]
      omega
    rw [isWidth, Nat.add_sub_cancel] at ih
    rcases Int.lt_or_le (state.decoded (before + 1) 4 data).i dataLen with more | outside
    · exact ih _ _ drops counts more
    · exact decodeLoop_inBounds_done counts outside small

end

/-- `Common::Decode` returns, without a read behind the NUL of a text and without an overflow of its
counter, exactly when the characters left over by the line ends and groups of the text do not
outnumber those that its short groups lack, and the counter is an `int` in the end. The counter
exceeds the length by three at most, so that this matters for the longest texts only. The decode
table is indexed by a byte. -/
theorem decode_inBounds_iff (text : Bytes) (nByte : Option Int)
    (fits : (text.length : Int) < 2 ^ 31) :
    ((∃ result, decode (text ++ [0]) text.length nByte = .ok result) ↔
      (remains text).left ≤ (remains text).lack ∧
        text.length + excess text.length text < 2 ^ 31) ∧ excess text.length text ≤ 3 := by
  have whole := decodeLoop_inBounds_iff fits text (.start nByte) 0 rfl (zero_add _)
  have lacks : ((text.length : Int) - (DecodeState.start nByte).i).toNat = text.length := by
    simp only [DecodeState.start]
    omega
  have returned : (∃ result, decode (text ++ [0]) text.length nByte = .ok result) ↔
      ∃ last, decodeLoop (text ++ [0]) text.length (.start nByte) = .ok last := by
    rw [decode_eq_map]
    cases decodeLoop (text ++ [0]) text.length (.start nByte) <;> simp [Except.map]
  rw [Nat.zero_add, lacks] at whole
  rw [returned, whole]
  refine ⟨and_congr_right fun _ => ?_, excess_le _ _⟩
  omega

/-- A short group makes up for one character behind it. -/
theorem decode_inBounds_lagging : ∃ result, decode (bytes "AA=A" ++ [0]) 4 none = .ok result :=
  (decode_inBounds_iff (bytes "AA=A") none (by decide)).1.mpr
    (by simp [bytes, remains, groupChars, excess])

/-- One character is a group cut off: the third character is read behind the NUL. -/
theorem decode_reads_past : decode (bytes "A" ++ [0]) 1 none = .error .readPast := by
  have past : decodeIteration (bytes "A" ++ [0]) 1 (.start none) = .error .readPast := by decide
  rw [decode_eq_map, decodeLoop, loop_error past]
  rfl

/-! ## Line ends between groups -/

/-- A text with line end characters between its groups of four. -/
inductive Broken : Bytes → Bytes → Prop
  | nil : Broken [] []
  | lineEnd {c : UInt8} {text broken : Bytes} (is : c = 13 ∨ c = 10) (behind : Broken text broken) :
    Broken text (c :: broken)
  | group {c0 c1 c2 c3 : UInt8} {text broken : Bytes} (behind : Broken text broken) :
    Broken ([c0, c1, c2, c3] ++ text) ([c0, c1, c2, c3] ++ broken)

/-- Behind the last group there are line ends only. -/
theorem Broken.lineEnds {broken : Bytes} (breaks : Broken [] broken) :
    ∀ c ∈ broken, c = 13 ∨ c = 10 := by
  generalize nothing : ([] : Bytes) = text at breaks
  induction breaks with
  | nil => simp
  | lineEnd is behind ih =>
    intro c listed
    rcases List.mem_cons.mp listed with rfl | listed
    · exact is
    · exact ih nothing c listed
  | group behind ih => cases nothing

/-- The data of line ends and full groups come in threes. -/
theorem Lines.length_mod {text data : Bytes} (lines : Lines text data) : data.length % 3 = 0 := by
  induction lines with
  | nil => rfl
  | lineEnd is behind ih => exact ih
  | group first second third fourth behind ih =>
    rw [List.length_append]
    simpa using ih

/-- The Base64 text of some data with line ends between its groups: a text that can be taken apart,
and line ends behind it if it ends with padding. -/
theorem Broken.written {data broken : Bytes} (breaks : Broken (base64 data) broken) :
    ∃ text behind, broken = text ++ behind ∧ Written text data ∧ (∀ c ∈ behind, c = 13 ∨ c = 10) ∧
      if data.length % 3 = 0 then behind = [] else text.getLast? = some pad := by
  generalize isText : base64 data = text at breaks
  induction breaks generalizing data with
  | nil =>
    match data with
    | [] => exact ⟨[], [], rfl, .full .nil, nofun, rfl⟩
    | [a] => cases (base64_one a).symm.trans isText
    | [a, b] => cases (base64_two a b).symm.trans isText
    | a :: b :: c :: data => cases (base64_three a b c data).symm.trans isText
  | @lineEnd c text broken is breaks ih =>
    obtain ⟨front, behind, rfl, written, lineEnds, ending⟩ := ih isText
    refine ⟨c :: front, behind, rfl, written.lineEnd is, lineEnds, ?_⟩
    split_ifs at ending ⊢
    · exact ending
    · rw [List.getLast?_cons, ending]
      rfl
  | @group c0 c1 c2 c3 text broken breaks ih =>
    match data with
    | [] => cases isText
    | [a] =>
      rw [base64_one] at isText
      cases isText
      exact ⟨_, broken, rfl, written_encodeInput1 a, breaks.lineEnds, rfl⟩
    | [a, b] =>
      rw [base64_two] at isText
      cases isText
      exact ⟨_, broken, rfl, written_encodeInput2 a b, breaks.lineEnds, rfl⟩
    | a :: b :: c :: data =>
      have threes : (a :: b :: c :: data).length % 3 = data.length % 3 := by
        simp only [List.length_cons]
        omega
      rw [base64_three] at isText
      cases isText
      obtain ⟨front, behind, rfl, written, lineEnds, ending⟩ := ih rfl
      refine ⟨_ ++ front, behind, (List.append_assoc _ front behind).symm,
        written.encodeInput3 a b c, lineEnds, ?_⟩
      rw [threes]
      split_ifs at ending ⊢
      · exact ending
      · rw [List.getLast?_append, ending]
        rfl

/-- Without padding behind them the characters of a last group belong to a longer one. -/
theorem Tail.groupWidth_gt {chars data rest : Bytes} {next : UInt8} {width : Nat}
    (tail : Tail chars data) (noPad : next ≠ pad)
    (readable : groupWidth (chars ++ next :: rest) = some width) : data.length + 2 ≤ width := by
  cases tail with
  | one first second =>
    simp only [List.cons_append, List.nil_append, groupWidth, if_neg noPad] at readable
    cases rest with
    | nil => cases readable
    | cons c3 rest =>
      cases readable
      simp only [List.length_cons, List.length_nil]
      split_ifs <;> omega
  | two first second third =>
    simp only [List.cons_append, List.nil_append, groupWidth, if_neg third.noPad, if_neg noPad]
      at readable
    cases readable
    rfl

/-- A last group starts with a character that is no line end. -/
theorem Tail.noLineEnd {chars data : Bytes} (tail : Tail chars data) :
    ∃ c0 rest, chars = c0 :: rest ∧ ¬(c0 = 13 ∨ c0 = 10) := by
  cases tail with
  | one first second => exact ⟨_, _, rfl, not_or.mpr ⟨first.noCr, first.noLf⟩⟩
  | two first second third => exact ⟨_, _, rfl, not_or.mpr ⟨first.noCr, first.noLf⟩⟩

/-- When something else than padding follows the characters of a last group, or something follows
its padding, more than its data is decoded. -/
theorem decode_longer {front chars rest full data result : Bytes} {next : UInt8}
    {nByte count : Option Int} (lines : Lines front full) (tail : Tail chars data)
    (fits : ((front ++ (chars ++ next :: rest)).length : Int) < 2 ^ 31)
    (more : next ≠ pad ∨ 4 < chars.length + (next :: rest).length)
    (ends : decode ((front ++ (chars ++ next :: rest)) ++ [0])
      (front ++ (chars ++ next :: rest)).length nByte =
      .ok (result, count)) : (full ++ data).length < result.length := by
  have ahead : ((front ++ (chars ++ next :: rest)) ++ [0]).drop (DecodeState.start nByte).pData =
      front ++ (chars ++ next :: (rest ++ [0])) := by
    simp [DecodeState.start]
  have length : (front ++ (chars ++ next :: rest)).length =
      front.length + (chars.length + (next :: rest).length) := by
    rw [List.length_append, List.length_append]
  generalize (front ++ (chars ++ next :: rest)) ++ [0] = memory at ahead ends
  rw [length] at fits ends
  rw [decode_eq_map] at ends
  obtain ⟨last, looped, decoded⟩ :
    ∃ last, decodeLoop memory ↑(front.length + (chars.length + (next :: rest).length))
      (.start nByte) = .ok last ∧ last.strDecode = result := by
    cases looped :
        decodeLoop memory ↑(front.length + (chars.length + (next :: rest).length))
          (.start nByte) with
    | error e =>
      rw [looped] at ends
      cases ends
    | ok last =>
      rw [looped] at ends
      cases ends
      exact ⟨last, rfl, rfl⟩
  have atStart : (DecodeState.start nByte).i = 0 := rfl
  have counted : ((DecodeState.start nByte).decoded front.length front.length full).i =
    front.length := zero_add _
  have behind := DecodeState.drop_decoded ahead rfl front.length full
  rw [lines.decodeLoop_eq ahead (by omega) fits] at looped
  rw [← decoded, List.length_append]
  by_cases padded : next = pad
  · have beyond := more.resolve_left (not_not_intro padded)
    rw [padded] at behind
    have taken : decodeIteration memory ↑(front.length + (chars.length + (next :: rest).length)) _ =
        _ :=
      tail.decodeIteration_eq behind (by omega) (by omega)
    rw [decodeLoop, loop_continue taken, DecodeState.decoded_decoded] at looped
    have onPad := DecodeState.drop_decoded behind rfl 4 data
    rw [DecodeState.decoded_decoded] at onPad
    obtain ⟨width, readable, longer⟩ :=
      decodeLoop_group (by simp only [DecodeState.decoded, atStart]; omega) onPad (by decide) looped
    have range := groupWidth_range readable
    simp only [DecodeState.decoded, DecodeState.start, List.nil_append, List.length_append]
      at longer
    omega
  · obtain ⟨c0, chars', isChars, noLineEnd⟩ := tail.noLineEnd
    have front :
      memory.drop ((DecodeState.start nByte).decoded front.length front.length full).pData =
        c0 :: (chars' ++ next :: (rest ++ [0])) := by
      rw [behind, isChars]
      rfl
    obtain ⟨width, readable, longer⟩ :=
      decodeLoop_group (by simp only [isChars, List.length_cons] at *; omega) front noLineEnd looped
    rw [← List.cons_append, ← isChars] at readable
    have range := tail.groupWidth_gt padded readable
    simp only [DecodeState.decoded, DecodeState.start, List.nil_append] at longer
    omega

/-- Decoding the Base64 text of some data with line ends between its groups gives the data exactly
when the data fill their last group or no line end stands behind it. -/
theorem decode_broken_iff (data broken : Bytes) (nByte : Option Int)
    (breaks : Broken (base64 data) broken) (fits : (broken.length : Int) < 2 ^ 31) :
    (∃ count, decode (broken ++ [0]) broken.length nByte = .ok (data, count)) ↔
      data.length % 3 = 0 ∨ broken.getLast? ≠ some 13 ∧ broken.getLast? ≠ some 10 := by
  obtain ⟨text, behind, rfl, written, lineEnds, ending⟩ := breaks.written
  by_cases nothing : behind = []
  · -- Nothing stands behind the text, and it is decoded.
    subst nothing
    rw [List.append_nil] at fits ⊢
    have decoded := written.decode_eq nByte fits
    have closed : data.length % 3 = 0 ∨ text.getLast? ≠ some 13 ∧ text.getLast? ≠ some 10 := by
      split_ifs at ending with threes
      · exact .inl threes
      · rw [ending]
        exact .inr (by decide)
    exact iff_of_true ⟨_, decoded⟩ closed
  · -- The pointer is on the padding when the line ends are still to be counted.
    have padded : ¬data.length % 3 = 0 := by
      intro threes
      rw [if_pos threes] at ending
      exact nothing ending
    have broke : (text ++ behind).getLast? = some 13 ∨ (text ++ behind).getLast? = some 10 := by
      rw [List.getLast?_append_of_ne_nil _ nothing, List.getLast?_eq_some_getLast nothing,
        Option.some.injEq, Option.some.injEq]
      exact lineEnds _ (List.getLast_mem nothing)
    cases written with
    | full lines => exact absurd lines.length_mod padded
    | @padded front chars closing full data lines tail whole =>
      have joined : front ++ (chars ++ pad :: closing) ++ behind =
          front ++ (chars ++ pad :: (closing ++ behind)) := by
        simp only [List.append_assoc, List.cons_append]
      have beyond : 4 < chars.length + (pad :: (closing ++ behind)).length := by
        have some := List.length_pos_iff.mpr nothing
        simp only [List.length_cons, List.length_append] at whole ⊢
        omega
      rw [joined] at fits broke ⊢
      constructor
      · rintro ⟨count, decoded⟩
        have longer := decode_longer lines tail fits (.inr beyond) decoded
        exact absurd longer (lt_irrefl _)
      · rintro (threes | unbroken)
        · exact absurd threes padded
        · exact absurd broke (not_or.mpr unbroken)

/-- Four line ends around and between the groups of four bytes, none behind the padding. -/
theorem decode_broken_between :
    ∃ count, decode (bytes "\nAQID\r\n\nBA==" ++ [0]) 12 none = .ok ([1, 2, 3, 4], count) := by
  have breaks : Broken (base64 [1, 2, 3, 4]) (bytes "\nAQID\r\n\nBA==") :=
    .lineEnd (.inr rfl)
      (.group (.lineEnd (.inl rfl) (.lineEnd (.inr rfl) (.lineEnd (.inr rfl) (.group .nil)))))
  exact (decode_broken_iff [1, 2, 3, 4] _ none breaks (by decide)).mpr (.inr (by decide))

/-- A line end behind the padding makes a second group of the padding, the line end and the NUL. -/
theorem decode_lineEnd_behind : Broken (base64 [0]) (bytes "AA==\n") ∧
    decode (bytes "AA==\n" ++ [0]) 5 none = .ok ([0, 251, 239, 191], none) := by
  refine ⟨.group (.lineEnd (.inr rfl) .nil), ?_⟩
  have first : decodeIteration (bytes "AA==\n" ++ [0]) 5 (.start none) =
      .ok (.inl ⟨2, 4, [0], none⟩) := by
    decide +kernel
  have second : decodeIteration (bytes "AA==\n" ++ [0]) 5 ⟨2, 4, [0], none⟩ =
      .ok (.inl ⟨6, 8, [0, 251, 239, 191], none⟩) := by
    decide +kernel
  rw [decode_eq_map, decodeLoop, loop_continue first, loop_continue second]
  exact congrArg (Except.map _) (decodeLoop_done (by decide))

/-! ## The eighth bit -/

/-- A character of a text and what becomes of it when its eighth bit may be set, unless it is a line
end. -/
def Marks (c marked : UInt8) : Prop := marked = c ∨ c ≠ 13 ∧ c ≠ 10 ∧ marked = c ||| 0x80

/-- A marked character stands for the same sextet. -/
theorem IsSextet.marked {c marked : UInt8} {value : Nat} (sextet : IsSextet c value)
    (marks : Marks c marked) : IsSextet marked value := by
  rcases marks with rfl | ⟨-, -, rfl⟩
  · exact sextet
  · rcases sextet.char with rfl | rfl
    · exact ⟨sextet.small, .inr rfl⟩
    · rw [UInt8.or_assoc, UInt8.or_self]
      exact ⟨sextet.small, .inr rfl⟩

/-- A line end stays. -/
theorem Marks.lineEnd {c marked : UInt8} (marks : Marks c marked) (lineEnd : c = 13 ∨ c = 10) :
    marked = c := by
  rcases marks with same | ⟨noCr, noLf, -⟩
  · exact same
  · exact absurd lineEnd (not_or.mpr ⟨noCr, noLf⟩)

/-- Marked text comes in the parts of the text. -/
theorem marks_append {front rest marked : Bytes}
    (marks : List.Forall₂ Marks (front ++ rest) marked) :
    ∃ front' rest', marked = front' ++ rest' ∧ List.Forall₂ Marks front front' ∧
      List.Forall₂ Marks rest rest' := by
  induction front generalizing marked with
  | nil => exact ⟨[], marked, rfl, .nil, marks⟩
  | cons c front ih =>
    obtain ⟨m, behind, mark, marksBehind, rfl⟩ := List.forall₂_cons_left_iff.mp marks
    obtain ⟨front', rest', rfl, marksFront, marksRest⟩ := ih marksBehind
    exact ⟨m :: front', rest', rfl, .cons mark marksFront, marksRest⟩

/-- Marked lines have the same data. -/
theorem Lines.marked {text data marked : Bytes} (lines : Lines text data)
    (marks : List.Forall₂ Marks text marked) : Lines marked data := by
  induction lines generalizing marked with
  | nil =>
    cases marks
    exact .nil
  | lineEnd is behind ih =>
    cases marks with
    | cons first rest =>
      rw [first.lineEnd is]
      exact .lineEnd is (ih rest)
  | group first second third fourth behind ih =>
    obtain ⟨m0, rest, mark0, rest0, rfl⟩ := List.forall₂_cons_left_iff.mp marks
    obtain ⟨m1, rest, mark1, rest1, rfl⟩ := List.forall₂_cons_left_iff.mp rest0
    obtain ⟨m2, rest, mark2, rest2, rfl⟩ := List.forall₂_cons_left_iff.mp rest1
    obtain ⟨m3, rest, mark3, rest3, rfl⟩ := List.forall₂_cons_left_iff.mp rest2
    exact .group (first.marked mark0) (second.marked mark1) (third.marked mark2)
      (fourth.marked mark3) (ih rest3)

/-- A marked last group has the same data. -/
theorem Tail.marked {chars data marked : Bytes} (tail : Tail chars data)
    (marks : List.Forall₂ Marks chars marked) : Tail marked data := by
  cases tail with
  | one first second =>
    obtain ⟨m0, rest, mark0, rest0, rfl⟩ := List.forall₂_cons_left_iff.mp marks
    obtain ⟨m1, rest, mark1, rest1, rfl⟩ := List.forall₂_cons_left_iff.mp rest0
    cases rest1
    exact .one (first.marked mark0) (second.marked mark1)
  | two first second third =>
    obtain ⟨m0, rest, mark0, rest0, rfl⟩ := List.forall₂_cons_left_iff.mp marks
    obtain ⟨m1, rest, mark1, rest1, rfl⟩ := List.forall₂_cons_left_iff.mp rest0
    obtain ⟨m2, rest, mark2, rest2, rfl⟩ := List.forall₂_cons_left_iff.mp rest1
    cases rest2
    exact .two (first.marked mark0) (second.marked mark1) (third.marked mark2)

/-- There is no padding in lines. -/
theorem Lines.pad_not_mem {text data : Bytes} (lines : Lines text data) : pad ∉ text := by
  induction lines with
  | nil => exact List.not_mem_nil
  | lineEnd is behind ih =>
    rw [List.mem_cons, not_or]
    refine ⟨?_, ih⟩
    rintro rfl
    revert is
    decide
  | group first second third fourth behind ih =>
    rw [List.mem_append, not_or]
    refine ⟨?_, ih⟩
    simp only [List.mem_cons, List.not_mem_nil, or_false, not_or]
    exact ⟨first.noPad.symm, second.noPad.symm, third.noPad.symm, fourth.noPad.symm⟩

/-- There is no padding in the characters of a last group. -/
theorem Tail.pad_not_mem {chars data : Bytes} (tail : Tail chars data) : pad ∉ chars := by
  cases tail with
  | one first second =>
    simp only [List.mem_cons, List.not_mem_nil, or_false, not_or]
    exact ⟨first.noPad.symm, second.noPad.symm⟩
  | two first second third =>
    simp only [List.mem_cons, List.not_mem_nil, or_false, not_or]
    exact ⟨first.noPad.symm, second.noPad.symm, third.noPad.symm⟩

/-- A text that can be taken apart is decoded as before when bits of it are set exactly when its
first padding is left as it is. -/
theorem Written.marked_iff {text data marked : Bytes} (written : Written text data)
    (marks : List.Forall₂ Marks text marked) (nByte : Option Int)
    (fits : (text.length : Int) < 2 ^ 31) :
    decode (marked ++ [0]) marked.length nByte = decode (text ++ [0]) text.length nByte ↔
      marked[text.idxOf pad]? = text[text.idxOf pad]? := by
  have length := marks.length_eq
  rw [written.decode_eq nByte fits]
  cases written with
  | full lines =>
    have decoded := (Written.full (lines.marked marks)).decode_eq nByte (by omega)
    rw [List.idxOf_eq_length lines.pad_not_mem, List.getElem?_eq_none (by omega),
      List.getElem?_eq_none (by omega)]
    exact iff_of_true decoded rfl
  | @padded front chars closing full data lines tail whole =>
    have place : (front ++ (chars ++ pad :: closing)).idxOf pad = front.length + chars.length := by
      rw [List.idxOf_append_of_notMem lines.pad_not_mem,
        List.idxOf_append_of_notMem tail.pad_not_mem, List.idxOf_cons_self, Nat.add_zero]
    obtain ⟨front', rest, rfl, marksFront, marksRest⟩ := marks_append marks
    obtain ⟨chars', ends, rfl, marksChars, marksEnds⟩ := marks_append marksRest
    obtain ⟨next, closing', marksPad, marksClosing, rfl⟩ := List.forall₂_cons_left_iff.mp marksEnds
    have lengthFront := marksFront.length_eq
    have lengthChars := marksChars.length_eq
    have lines' := lines.marked marksFront
    have tail' := tail.marked marksChars
    have kept : (front' ++ (chars' ++ next :: closing'))[front.length + chars.length]? =
        (front ++ (chars ++ pad :: closing))[front.length + chars.length]? ↔ next = pad := by
      rw [List.getElem?_append_right (by omega), List.getElem?_append_right (by omega),
        List.getElem?_append_right (by omega), List.getElem?_append_right (by omega),
        show front.length + chars.length - front'.length - chars'.length = 0 by omega,
        show front.length + chars.length - front.length - chars.length = 0 by omega]
      simp
    rw [place, kept]
    constructor
    · intro decoded
      by_contra noPad
      have longer := decode_longer lines' tail' (by omega) (.inl noPad) decoded
      exact lt_irrefl _ longer
    · rintro rfl
      have whole' : chars'.length + (pad :: closing').length = 4 := by
        have lengthClosing := marksClosing.length_eq
        rw [List.length_cons] at whole ⊢
        omega
      exact (Written.padded lines' tail' whole').decode_eq nByte (by omega)

/-- Setting the eighth bit of characters of an encoded text leaves what is decoded exactly when the
first padding is left as it is. -/
theorem decode_marked_iff (data marked : Bytes) (nByte : Option Int)
    (marks : List.Forall₂ Marks (encode data) marked)
    (fits : ((encode data).length : Int) < 2 ^ 31) :
    decode (marked ++ [0]) marked.length nByte =
      decode (encode data ++ [0]) (encode data).length nByte ↔
      marked[(encode data).idxOf pad]? = (encode data)[(encode data).idxOf pad]? := by
  rw [encode_eq] at marks fits ⊢
  exact (written_encodeFrom 0 data).marked_iff marks nByte fits

/-- All characters of a byte are marked but the first padding. -/
theorem decode_marked_one :
    decode [0xC1, 0xC1, 61, 0xBD, 0] 4 none = decode (encode [0] ++ [0]) 4 none := by
  have marks : List.Forall₂ Marks (encode [0]) [0xC1, 0xC1, 61, 0xBD] :=
    .cons (.inr (by decide))
      (.cons (.inr (by decide)) (.cons (.inl rfl) (.cons (.inr (by decide)) .nil)))
  exact (decode_marked_iff [0] _ none marks (by decide)).mpr (by decide)

/-- Marked padding is decoded as a third character. -/
theorem decode_marked_padding : List.Forall₂ Marks (encode [0]) [65, 65, 0xBD, 61] ∧
    decode [65, 65, 0xBD, 61, 0] 4 none = .ok ([0, 255], none) := by
  constructor
  · exact .cons (.inl rfl) (.cons (.inl rfl) (.cons (.inr (by decide)) (.cons (.inl rfl) .nil)))
  · have group : decodeIteration [65, 65, 0xBD, 61, 0] 4 (.start none) =
        .ok (.inl ⟨3, 4, [0, 255], none⟩) := by
      decide +kernel
    rw [decode_eq_map, decodeLoop, loop_continue group]
    exact congrArg (Except.map _) (decodeLoop_done (by decide))

end Base64

end NetServer
