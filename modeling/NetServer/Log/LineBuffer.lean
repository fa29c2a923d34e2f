import NetServer.Log.Echo

/-!
# The buffer of a log line

`__W_LOG::WriteLog` prints the header and the message of a line into a buffer of 4096 bytes.
`vsnprintf` cuts a message that is too long but returns its whole length, and the length is what the
last byte is looked up with and what goes to `LogData::WriteLog`. All accesses are inside the buffer
exactly when the line and the line end that is added to it fit; one line of 4095 bytes fits also
without one, if it ends in a line end or a null.
-/

namespace NetServer

open Lib

/-- `BUFFER_SIZE`. -/
def bufferSize : Nat := 4096

/-- Bytes are stored from an index on. -/
def poke (buffer : Bytes) (index : Nat) (data : Bytes) : Except EchoFault Bytes :=
  if index + data.length ≤ buffer.length then
    .ok (buffer.take index ++ data ++ buffer.drop (index + data.length))
  else .error .bufferOverflow

/-- The byte at an index. -/
def peek (buffer : Bytes) (index : Nat) : Except EchoFault UInt8 :=
  match buffer[index]? with
  | some c => .ok c
  | none => .error .bufferOverflow

/-- `strcat` of a line end to the string that starts at an index, with the index behind what it
stores. A string without an end in the buffer is read past it. -/
def strcatLineEnd (buffer : Bytes) (index : Nat) : Except EchoFault (Bytes × Nat) :=
  match (buffer.drop index).findIdx? (· == 0) with
  | some length =>
    (poke buffer (index + length) [10, 0]).map fun buffer => (buffer, index + length + 2)
  | none => .error .bufferOverflow

/-- What goes to `LogData::WriteLog`: the buffer and the length. `stored` is the index behind the
bytes that were stored. -/
structure LineBuffer where
  pBuffer : Bytes
  iTotalLen : Nat
  stored : Nat
  deriving DecidableEq, Repr

/-- `sprintf` of the header and `vsnprintf` of the message. -/
def printLine (pBuffer header message : Bytes) : Except EchoFault (Bytes × Nat) := do
  let pBuffer ← poke pBuffer 0 (header ++ [0])
  let cut := message.take (bufferSize - header.length - 1)
  let pBuffer ← poke pBuffer header.length (cut ++ [0])
  return (pBuffer, header.length + cut.length + 1)

/-- A text that does not end in a line end gets one. -/
def finishLine (pBuffer : Bytes) (stored iTotalLen : Nat) : Except EchoFault LineBuffer := do
  let c ← peek pBuffer (iTotalLen - 1)
  if c ≠ 10 ∧ c ≠ 13 then
    let (pBuffer, added) ← strcatLineEnd pBuffer (iTotalLen - 1)
    return ⟨pBuffer, iTotalLen + 1, max stored added⟩
  else return ⟨pBuffer, iTotalLen, stored⟩

/-- `__W_LOG::WriteLog` up to the call of `LogData::WriteLog`. The header of a line is never
empty. -/
def lineBuffer (pBuffer : Bytes) (t : Tm) (iType : LogType) (message : Bytes) :
    Except EchoFault LineBuffer := do
  let (pBuffer, stored) ← printLine pBuffer (logHeader t iType) message
  finishLine pBuffer stored ((logHeader t iType).length + message.length)

/-! ## The buffer behind `vsnprintf` -/

/-- What is stored behind a front that stays. -/
theorem poke_append (front : Bytes) {tail data : Bytes} (fits : data.length ≤ tail.length) :
    poke (front ++ tail) front.length data = .ok (front ++ data ++ tail.drop data.length) := by
  have inside : front.length + data.length ≤ (front ++ tail).length := by
    rw [List.length_append]
    omega
  rw [poke, if_pos inside, List.take_left, List.drop_append,
    List.drop_of_length_le (Nat.le_add_right _ _), Nat.add_sub_cancel_left, List.nil_append]

variable {pBuffer header message : Bytes}

/-- The buffer holds the text, cut to its size, and a null. -/
theorem printLine_eq (size : pBuffer.length = bufferSize) (fits : header.length < bufferSize) :
    ∃ rest, printLine pBuffer header message =
        .ok ((header ++ message).take 4095 ++ 0 :: rest,
          ((header ++ message).take 4095).length + 1) ∧
      ((header ++ message).take 4095 ++ 0 :: rest).length = 4096 := by
  unfold bufferSize at size fits
  let cut := message.take (bufferSize - header.length - 1)
  have room : cut.length ≤ 4096 - header.length - 1 := List.length_take_le _ _
  have text : (header ++ message).take 4095 = header ++ cut := by
    have count : bufferSize - header.length - 1 = 4095 - header.length := by
      unfold bufferSize
      omega
    rw [List.take_append, List.take_of_length_le (by omega), ← count]
  have first : poke pBuffer 0 (header ++ [0]) =
      .ok (header ++ 0 :: pBuffer.drop (header.length + 1)) := by
    have inside : (header ++ [0]).length ≤ pBuffer.length := by
      rw [List.length_append, List.length_singleton]
      omega
    have stored := @poke_append [] pBuffer (header ++ [0]) inside
    rw [List.nil_append, List.nil_append, List.append_assoc, List.length_append] at stored
    exact stored
  let tail := 0 :: pBuffer.drop (header.length + 1)
  have long : tail.length = 4096 - header.length := by
    rw [List.length_cons, List.length_drop]
    omega
  have second : poke (header ++ tail) header.length (cut ++ [0]) =
      .ok (header ++ (cut ++ [0]) ++ tail.drop (cut ++ [0]).length) := by
    apply poke_append
    rw [List.length_append, List.length_singleton]
    omega
  refine ⟨tail.drop (cut ++ [0]).length, ?_, ?_⟩
  · rw [printLine, first]
    change (do
      let pBuffer ← poke (header ++ tail) header.length (cut ++ [0])
      return (pBuffer, header.length + cut.length + 1)) = _
    rw [second, text, List.length_append]
    simp [bind, Except.bind, pure, Except.pure]
  · rw [text, List.length_append, List.length_append, List.length_cons, List.length_drop,
      List.length_append, List.length_singleton]
    omega

/-! ## The line end -/

/-- A line end is stored where the string ends. -/
theorem strcatLineEnd_found {buffer : Bytes} {index length : Nat}
    (found : (buffer.drop index).findIdx? (· == 0) = some length) :
    strcatLineEnd buffer index =
      (poke buffer (index + length) [10, 0]).map fun buffer => (buffer, index + length + 2) := by
  rw [strcatLineEnd, found]

/-- A text that ends in a null loses it to the line end. -/
theorem strcatLineEnd_null (front rest : Bytes) :
    strcatLineEnd (front ++ 0 :: rest) front.length =
      (poke (front ++ 0 :: rest) front.length [10, 0]).map fun buffer =>
        (buffer, front.length + 2) := by
  have found : ((front ++ 0 :: rest).drop front.length).findIdx? (· == 0) = some 0 := by
    rw [List.drop_left]
    rfl
  exact strcatLineEnd_found found

/-- Behind another text the line end takes the place of the null there. -/
theorem strcatLineEnd_byte (front : Bytes) {c : UInt8} (byte : c ≠ 0) (rest : Bytes) :
    strcatLineEnd (front ++ c :: 0 :: rest) front.length =
      (poke (front ++ c :: 0 :: rest) (front.length + 1) [10, 0]).map fun buffer =>
        (buffer, front.length + 3) := by
  have found : ((front ++ c :: 0 :: rest).drop front.length).findIdx? (· == 0) = some 1 := by
    rw [List.drop_left, List.findIdx?_cons, if_neg (by simpa using byte)]
    rfl
  exact strcatLineEnd_found found

/-! ## Lines -/

/-- What follows from the last byte. -/
theorem finishLine_peek {pBuffer : Bytes} {iTotalLen : Nat} {c : UInt8}
    (last : peek pBuffer (iTotalLen - 1) = .ok c) (stored : Nat) :
    finishLine pBuffer stored iTotalLen = if c = 10 ∨ c = 13 then .ok ⟨pBuffer, iTotalLen, stored⟩
      else (strcatLineEnd pBuffer (iTotalLen - 1)).map fun added =>
        ⟨added.1, iTotalLen + 1, max stored added.2⟩ := by
  rw [finishLine, last]
  by_cases ended : c = 10 ∨ c = 13
  · have noAppend : ¬(c ≠ 10 ∧ c ≠ 13) := by tauto
    simp only [bind, Except.bind, if_neg noAppend, if_pos ended]
    rfl
  · have append : c ≠ 10 ∧ c ≠ 13 := by tauto
    simp only [bind, Except.bind, if_pos append, if_neg ended]
    cases strcatLineEnd pBuffer (iTotalLen - 1) with
    | error fault => rfl
    | ok added => rfl

/-- A line whose text is cut leaves the buffer. -/
theorem finishLine_cut {front : Bytes} (size : front.length = 4095) (stored : Nat) {iTotalLen : Nat}
    (long : 4096 ≤ iTotalLen) :
    finishLine (front ++ [0]) stored iTotalLen = .error .bufferOverflow := by
  rcases Nat.eq_or_lt_of_le long with full | longer
  · have index : iTotalLen - 1 = front.length := by omega
    have last : peek (front ++ [0]) (iTotalLen - 1) = .ok 0 := by
      rw [peek, index, List.getElem?_concat_length]
    have outside : poke (front ++ [0]) front.length [10, 0] = .error .bufferOverflow := by
      rw [poke, if_neg (by simp)]
    rw [finishLine_peek last, if_neg (by decide), index, strcatLineEnd_null, outside]
    rfl
  · have outside : peek (front ++ [0]) (iTotalLen - 1) = .error .bufferOverflow := by
      rw [peek, List.getElem?_eq_none (by rw [List.length_append, List.length_singleton]; omega)]
    rw [finishLine, outside]
    rfl

/-- A line whose text is not cut: it has its line end, or the line end goes where a null is, which
needs one more byte behind it. -/
theorem finishLine_whole (front : Bytes) (c : UInt8) (rest : Bytes) (stored : Nat) :
    finishLine (front ++ c :: 0 :: rest) stored (front.length + 1) =
      if c = 10 ∨ c = 13 then .ok ⟨front ++ c :: 0 :: rest, front.length + 1, stored⟩
      else if c = 0 then
        .ok ⟨front ++ 10 :: 0 :: rest, front.length + 2, max stored (front.length + 2)⟩
      else if rest = [] then .error .bufferOverflow
      else .ok ⟨front ++ c :: 10 :: 0 :: rest.tail, front.length + 2,
        max stored (front.length + 3)⟩ := by
  have last : peek (front ++ c :: 0 :: rest) (front.length + 1 - 1) = .ok c := by
    rw [peek, Nat.add_sub_cancel, List.getElem?_append_right (Nat.le_refl _), Nat.sub_self,
      List.getElem?_cons_zero]
  rw [finishLine_peek last, Nat.add_sub_cancel]
  by_cases ended : c = 10 ∨ c = 13
  · rw [if_pos ended, if_pos ended]
  · rw [if_neg ended, if_neg ended]
    by_cases null : c = 0
    · subst null
      rw [if_pos rfl, strcatLineEnd_null, poke_append front (by simp), List.append_assoc]
      rfl
    · rw [if_neg null, strcatLineEnd_byte front null]
      have split : front ++ c :: 0 :: rest = front ++ [c] ++ 0 :: rest := by
        rw [List.append_assoc, List.singleton_append]
      have index : front.length + 1 = (front ++ [c]).length := by
        rw [List.length_append, List.length_singleton]
      cases rest with
      | nil =>
        have outside : poke (front ++ [c, 0]) (front.length + 1) [10, 0] =
            .error .bufferOverflow := by
          rw [poke, if_neg (by simp)]
        rw [if_pos rfl, outside]
        rfl
      | cons next rest =>
        have inside : poke (front ++ c :: 0 :: next :: rest) (front.length + 1) [10, 0] =
            .ok (front ++ c :: 10 :: 0 :: rest) := by
          rw [split, index, poke_append (front ++ [c]) (by simp), List.append_assoc,
            List.append_assoc]
          rfl
        rw [if_neg (List.cons_ne_nil next rest), inside]
        rfl

/-! ## All lines -/

/-- All accesses are inside the buffer, whatever it held before, and no more bytes go to
`LogData::WriteLog` than were stored. -/
def StaysInside (t : Tm) (iType : LogType) (message : Bytes) : Prop :=
  ∀ pBuffer : Bytes, pBuffer.length = bufferSize →
    ∃ line, lineBuffer pBuffer t iType message = .ok line ∧ line.iTotalLen ≤ line.stored

/-- A text that leaves room for a line end and a null, or needs no line end behind it. -/
def LeavesRoom (text : Bytes) : Prop :=
  text.length ≤ 4094 ∨
    text.length = 4095 ∧
    (text.getLast? = some 10 ∨ text.getLast? = some 13 ∨ text.getLast? = some 0)

instance (text : Bytes) : Decidable (LeavesRoom text) := inferInstanceAs (Decidable (_ ∨ _ ∧ _))

/-- The header of a line is not empty. -/
theorem logHeader_ne_nil (t : Tm) (iType : LogType) : logHeader t iType ≠ [] := by
  simp [logHeader, bytes]

/-- A header that does not fit is printed past the buffer. -/
theorem printLine_overflow (size : pBuffer.length = bufferSize)
    (long : bufferSize ≤ header.length) :
    printLine pBuffer header message = .error .bufferOverflow := by
  have outside : poke pBuffer 0 (header ++ [0]) = .error .bufferOverflow := by
    rw [poke, if_neg]
    rw [List.length_append, List.length_singleton]
    omega
  rw [printLine, outside]
  rfl

/-- A line is what is printed, with its line end. -/
theorem lineBuffer_eq (size : pBuffer.length = bufferSize) {t : Tm} {iType : LogType}
    (fits : (logHeader t iType).length < bufferSize) :
    ∃ rest, ((logHeader t iType ++ message).take 4095 ++ 0 :: rest).length = 4096 ∧
      lineBuffer pBuffer t iType message =
        finishLine ((logHeader t iType ++ message).take 4095 ++ 0 :: rest)
          (((logHeader t iType ++ message).take 4095).length + 1)
            (logHeader t iType ++ message).length := by
  obtain ⟨rest, prints, whole⟩ := @printLine_eq pBuffer _ message size fits
  refine ⟨rest, whole, ?_⟩
  rw [lineBuffer, prints]
  simp only [bind, Except.bind, List.length_append]

/-- Lines that are cut, also at the header, leave the buffer. -/
theorem lineBuffer_long (size : pBuffer.length = bufferSize) {t : Tm} {iType : LogType}
    (long : 4096 ≤ (logHeader t iType ++ message).length) :
    lineBuffer pBuffer t iType message = .error .bufferOverflow := by
  by_cases fits : (logHeader t iType).length < bufferSize
  · obtain ⟨rest, whole, isLine⟩ := @lineBuffer_eq pBuffer message size t iType fits
    have cut : ((logHeader t iType ++ message).take 4095).length = 4095 := by
      rw [List.length_take]
      omega
    have empty : rest = [] := by
      rw [List.length_append, cut, List.length_cons] at whole
      exact List.eq_nil_of_length_eq_zero (by omega)
    rw [isLine, empty, finishLine_cut cut _ long]
  · rw [lineBuffer, printLine_overflow size (not_lt.mp fits)]
    rfl

/-- A line that is not cut is in the buffer with a null behind it. -/
theorem lineBuffer_whole (size : pBuffer.length = bufferSize) {t : Tm} {iType : LogType}
    {front : Bytes} {c : UInt8} (isText : logHeader t iType ++ message = front ++ [c])
    (short : front.length ≤ 4094) :
    ∃ rest, front.length + rest.length = 4094 ∧
      lineBuffer pBuffer t iType message =
        finishLine (front ++ c :: 0 :: rest) (front.length + 2) (front.length + 1) := by
  have length : (logHeader t iType).length + message.length = front.length + 1 := by
    rw [← List.length_append, isText, List.length_append, List.length_singleton]
  have fits : (logHeader t iType).length < bufferSize := by
    unfold bufferSize
    omega
  obtain ⟨rest, whole, isLine⟩ := @lineBuffer_eq pBuffer message size t iType fits
  have all : (front ++ [c]).take 4095 = front ++ [c] := by
    apply List.take_of_length_le
    rw [List.length_append, List.length_singleton]
    omega
  rw [isText, all, List.append_assoc, List.singleton_append, List.length_append,
    List.length_singleton] at isLine
  rw [isText, all, List.append_assoc, List.singleton_append, List.length_append, List.length_cons,
    List.length_cons] at whole
  exact ⟨rest, by omega, isLine⟩

/-- A line that is not cut stays inside exactly when it leaves room. -/
theorem staysInside_whole {t : Tm} {iType : LogType} {message front : Bytes} {c : UInt8}
    (isText : logHeader t iType ++ message = front ++ [c]) (short : front.length ≤ 4094) :
    StaysInside t iType message ↔ front.length ≤ 4093 ∨ c = 10 ∨ c = 13 ∨ c = 0 := by
  constructor
  · intro inside
    have size : (List.replicate bufferSize (0 : UInt8)).length = bufferSize := List.length_replicate
    obtain ⟨line, isLine, -⟩ := inside _ size
    obtain ⟨rest, room, isFinish⟩ := lineBuffer_whole size isText short
    by_contra neither
    rw [not_or, not_or, not_or, not_le] at neither
    have empty : rest = [] := List.eq_nil_of_length_eq_zero (by omega)
    have noEnd : ¬(c = 10 ∨ c = 13) := not_or.mpr ⟨neither.2.1, neither.2.2.1⟩
    rw [isFinish, finishLine_whole, if_neg noEnd, if_neg neither.2.2.2, if_pos empty] at isLine
    cases isLine
  · intro condition pBuffer size
    obtain ⟨rest, room, isFinish⟩ := lineBuffer_whole size isText short
    rw [isFinish, finishLine_whole]
    split_ifs with ended null full
    · exact ⟨_, rfl, Nat.le_succ _⟩
    · exact ⟨_, rfl, le_max_left _ _⟩
    · rw [full, List.length_nil] at room
      rcases condition with small | ten | thirteen | zero
      · omega
      · exact absurd (.inl ten) ended
      · exact absurd (.inr thirteen) ended
      · exact absurd zero null
    · exact ⟨_, rfl, le_max_left _ _⟩

/-- What goes to the log file is the line, when the text has no null. -/
theorem lineBuffer_logLine (size : pBuffer.length = bufferSize) {t : Tm} {iType : LogType}
    (noNull : 0 ∉ logHeader t iType ++ message) :
    (lineBuffer pBuffer t iType message).map (fun line => line.pBuffer.take line.iTotalLen) =
      logLine (logHeader t iType ++ message) := by
  by_cases long : 4096 ≤ (logHeader t iType ++ message).length
  · rw [lineBuffer_long size long, logLine, if_pos long]
    rfl
  · have nonempty : logHeader t iType ++ message ≠ [] :=
      List.append_ne_nil_of_left_ne_nil (logHeader_ne_nil t iType) _
    obtain ⟨front, c, isText⟩ := (List.eq_nil_or_concat' _).resolve_left nonempty
    rw [isText, List.mem_append, not_or, List.mem_singleton] at noNull
    rw [isText, List.length_append, List.length_singleton] at long
    obtain ⟨rest, room, isFinish⟩ := lineBuffer_whole size isText (by omega)
    have ends : (front ++ [c]).getLast? = some 10 ∨ (front ++ [c]).getLast? = some 13 ↔
        c = 10 ∨ c = 13 := by
      rw [List.getLast?_concat, Option.some.injEq, Option.some.injEq]
    rw [isFinish, finishLine_whole, isText, logLine, List.length_append, List.length_singleton,
      if_neg long, if_neg (Ne.symm noNull.2)]
    by_cases ended : c = 10 ∨ c = 13
    · rw [if_pos ended, if_pos (ends.mpr ended)]
      simp [Except.map, List.take_append]
    · rw [if_neg ended, if_neg (mt ends.mp ended)]
      cases rest with
      | nil =>
        rw [List.length_nil] at room
        rw [if_pos rfl, if_pos (by omega)]
        rfl
      | cons next rest =>
        rw [List.length_cons] at room
        rw [if_neg (List.cons_ne_nil next rest), if_neg (by omega)]
        simp [Except.map, List.take_append]

/-- For every time, type and message of a log line: `WriteLog` reads and writes inside its buffer,
and the length that it passes on is not more than was stored, exactly when the line has at most 4094
bytes, or 4095 with a line end or a null as the last one. What goes to the log file is the line that
is echoed, when it has no null. -/
theorem line_stays_inside_iff (t : Tm) (iType : LogType) (message : Bytes) :
    (StaysInside t iType message ↔ LeavesRoom (logHeader t iType ++ message)) ∧
      (0 ∉ logHeader t iType ++ message → ∀ pBuffer : Bytes, pBuffer.length = bufferSize →
        (lineBuffer pBuffer t iType message).map (fun line => line.pBuffer.take line.iTotalLen) =
          logLine (logHeader t iType ++ message)) := by
  refine ⟨?_, fun noNull pBuffer size => lineBuffer_logLine size noNull⟩
  by_cases long : 4096 ≤ (logHeader t iType ++ message).length
  · have noRoom : ¬LeavesRoom (logHeader t iType ++ message) := by
      unfold LeavesRoom
      omega
    refine iff_of_false (fun inside => ?_) noRoom
    have size : (List.replicate bufferSize (0 : UInt8)).length = bufferSize := List.length_replicate
    obtain ⟨line, isLine, -⟩ := inside _ size
    rw [lineBuffer_long size long] at isLine
    cases isLine
  · have nonempty : logHeader t iType ++ message ≠ [] :=
      List.append_ne_nil_of_left_ne_nil (logHeader_ne_nil t iType) _
    obtain ⟨front, c, isText⟩ := (List.eq_nil_or_concat' _).resolve_left nonempty
    rw [isText, List.length_append, List.length_singleton] at long
    rw [staysInside_whole isText (by omega), isText, LeavesRoom, List.length_append,
      List.length_singleton, List.getLast?_concat, Option.some.injEq, Option.some.injEq,
      Option.some.injEq]
    by_cases small : front.length ≤ 4093
    · exact iff_of_true (.inl small) (.inl (by omega))
    · have full : front.length + 1 = 4095 := by omega
      have beyond : ¬front.length + 1 ≤ 4094 := by omega
      rw [or_iff_right small, or_iff_right beyond, and_iff_right full]

/-- A message as long as the buffer, like that of a statement of some records that failed: the byte
that is looked up is behind the buffer. -/
theorem line_leaves_buffer :
    lineBuffer (List.replicate bufferSize 0) (dayClock 0) .error (List.replicate 4096 97) =
      .error .bufferOverflow := by
  apply lineBuffer_long List.length_replicate
  rw [List.length_append, List.length_replicate]
  exact Nat.le_add_left _ _

end NetServer
