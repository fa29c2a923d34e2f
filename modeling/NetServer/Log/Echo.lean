import NetServer.Http.Fields
import NetServer.Log.LogData

/-!
# The echo of a log line, `__W_LOG::WriteLog`

A message is formatted into a buffer, goes to the log file and is then passed to `printf` as the
format. The echo is the line that was written exactly when the message has no percent sign and fits
the buffer (`log_echo_iff`). Names and values of unknown headers are part of such a message.
-/

namespace NetServer

open Lib HttpParse

/-- What `WriteLog` must not do. -/
inductive EchoFault where
  /-- The buffer is read or written past its end. -/
  | bufferOverflow
  /-- `printf` meets a conversion, whose argument was not passed. -/
  | absentArgument
  deriving DecidableEq, Repr

/-- The types of messages. -/
inductive LogType where
  | info
  | warn
  | error
  | debug
  deriving DecidableEq, Repr

/-- `m_titles`. -/
def LogType.title : LogType → Bytes
  | .info => bytes "Info"
  | .warn => bytes "Warn"
  | .error => bytes "Error"
  | .debug => bytes "Debug"

/-- `%04d-%02d-%02d %02d:%02d:%02d|%s:` of the local time and the title. -/
def logHeader (t : Tm) (iType : LogType) : Bytes :=
  padded 4 (t.tmYear + 1900) ++ bytes "-" ++ padded 2 (t.tmMon + 1) ++ bytes "-" ++
    padded 2 t.tmMday ++ bytes " " ++
    padded 2 t.tmHour ++ bytes ":" ++ padded 2 t.tmMin ++ bytes ":" ++ padded 2 t.tmSec ++
    bytes "|" ++
    iType.title ++ bytes ":"

/-- The buffer of 4096 bytes behind `sprintf` and `vsnprintf`, with a line end added to a line
without one. The length is that of the whole text, so a text that does not fit is read past the
buffer. -/
def logLine (text : Bytes) : Except EchoFault Bytes :=
  if 4096 ≤ text.length then .error .bufferOverflow
  else if text.getLast? = some 10 ∨ text.getLast? = some 13 then .ok text
  else if 4096 ≤ text.length + 1 then .error .bufferOverflow
  else .ok (text ++ [10])

/-- `printf` of a format without arguments. -/
def printfEcho : Bytes → Except EchoFault Bytes
  | [] => .ok []
  | [c] => if c = 37 then .error .absentArgument else .ok [c]
  | c :: next :: rest =>
    if c ≠ 37 then (printfEcho (next :: rest)).map (c :: ·)
    else if next = 37 then (printfEcho rest).map (37 :: ·)
    else .error .absentArgument

/-- What `__W_LOG::WriteLog` does with the text of a message: the line that goes to the log file and
what `printf` writes. -/
def writeLogLine (t : Tm) (iType : LogType) (text : Bytes) : Except EchoFault (Bytes × Bytes) := do
  let line ← logLine (logHeader t iType ++ text)
  let echo ← printfEcho (cString line)
  return (line, echo)

/-- A message is written to the log file and echoed as it stands. -/
def Echoes (t : Tm) (iType : LogType) (text : Bytes) : Prop :=
  ∃ line, writeLogLine t iType text = .ok (line, line)

/-- A line fits the buffer, with a line end if it has none. -/
def FitsBuffer (text : Bytes) : Prop :=
  text.length < 4095 ∨ text.length = 4095 ∧ (text.getLast? = some 10 ∨ text.getLast? = some 13)

instance (text : Bytes) : Decidable (FitsBuffer text) := inferInstanceAs (Decidable (_ ∨ _ ∧ _))

/-! ## `printf` -/

/-- A character that starts no conversion is printed. -/
theorem printfEcho_plain {c : UInt8} (plain : c ≠ 37) (rest : Bytes) :
    printfEcho (c :: rest) = (printfEcho rest).map (c :: ·) := by
  cases rest with
  | nil => simp only [printfEcho, plain, ↓reduceIte, Except.map]
  | cons next rest => rw [printfEcho, if_pos plain]

/-- What is printed behind a character. -/
theorem map_cons_eq_ok {c : UInt8} {rest : Except EchoFault Bytes} {echo : Bytes}
    (printed : rest.map (c :: ·) = .ok echo) : ∃ echo', rest = .ok echo' ∧ echo = c :: echo' := by
  cases rest with
  | error fault => cases printed
  | ok echo' =>
    cases printed
    exact ⟨echo', rfl, rfl⟩

/-- What is printed is not longer, and it is shorter when there is a percent sign. -/
theorem length_printfEcho {text echo : Bytes} (printed : printfEcho text = .ok echo) :
    echo.length ≤ text.length ∧ (37 ∈ text → echo.length < text.length) := by
  induction text using printfEcho.induct generalizing echo with
  | case1 =>
    cases printed
    exact ⟨Nat.le_refl 0, fun percent => absurd percent List.not_mem_nil⟩
  | case2 =>
    rw [printfEcho, if_pos rfl] at printed
    cases printed
  | case3 c plain =>
    rw [printfEcho, if_neg plain] at printed
    cases printed
    exact ⟨Nat.le_refl 1, fun percent => absurd (List.mem_singleton.mp percent).symm plain⟩
  | case4 c next rest plain ih =>
    rw [printfEcho_plain plain] at printed
    obtain ⟨echo', printed', rfl⟩ := map_cons_eq_ok printed
    obtain ⟨shorter, less⟩ := ih printed'
    refine ⟨Nat.succ_le_succ shorter, fun percent => ?_⟩
    rcases List.mem_cons.mp percent with rfl | inRest
    · exact absurd rfl plain
    · exact Nat.succ_lt_succ (less inRest)
  | case5 c rest conversion ih =>
    rw [printfEcho, if_neg conversion, if_pos rfl] at printed
    obtain ⟨echo', printed', rfl⟩ := map_cons_eq_ok printed
    have shorter := (ih printed').1
    simp only [List.length_cons]
    exact ⟨by omega, fun _ => by omega⟩
  | case6 c next rest conversion other =>
    rw [printfEcho, if_neg conversion, if_neg other] at printed
    cases printed

/-- A text is printed as it stands exactly when it has no percent sign. -/
theorem printfEcho_eq_self_iff (text : Bytes) : printfEcho text = .ok text ↔ 37 ∉ text := by
  constructor
  · intro printed percent
    exact Nat.lt_irrefl _ ((length_printfEcho printed).2 percent)
  · intro clean
    induction text with
    | nil => rfl
    | cons c rest ih =>
      rw [List.mem_cons, not_or] at clean
      rw [printfEcho_plain (Ne.symm clean.1), ih clean.2]
      rfl

/-! ## Lines -/

/-- A line is made when the text fits. -/
theorem logLine_ok_iff {text line : Bytes} :
    logLine text = .ok line ↔
      FitsBuffer text ∧ line = if text.getLast? = some 10 ∨ text.getLast? = some 13 then
        text else text ++ [10] := by
  unfold logLine FitsBuffer
  by_cases ended : text.getLast? = some 10 ∨ text.getLast? = some 13
  · by_cases long : 4096 ≤ text.length
    · simp only [long, ↓reduceIte, reduceCtorEq, false_iff]
      omega
    · simp only [long, ended, ↓reduceIte, Except.ok.injEq, and_true]
      constructor
      · rintro rfl
        exact ⟨by omega, rfl⟩
      · exact fun fits => fits.2.symm
  · by_cases long : 4096 ≤ text.length
    · simp only [long, ↓reduceIte, reduceCtorEq, false_iff]
      omega
    · by_cases full : 4096 ≤ text.length + 1
      · simp only [long, ended, full, ↓reduceIte, reduceCtorEq, false_iff, and_false, or_false]
        omega
      · simp only [long, ended, full, ↓reduceIte, Except.ok.injEq, and_false, or_false]
        constructor
        · rintro rfl
          exact ⟨by omega, rfl⟩
        · exact fun fits => fits.2.symm

/-- A line has the bytes of its text and a line end. -/
theorem mem_logLine {text line : Bytes} (isLine : logLine text = .ok line) {c : UInt8}
    (noEnd : c ≠ 10) : c ∈ line ↔ c ∈ text := by
  rw [(logLine_ok_iff.mp isLine).2]
  split_ifs
  · rfl
  · rw [List.mem_append, List.mem_singleton, or_iff_left noEnd]

/-- A line is echoed as it stands exactly when it has no null and no percent sign. -/
theorem printfEcho_cString_iff (line : Bytes) :
    printfEcho (cString line) = .ok line ↔ 0 ∉ line ∧ 37 ∉ line := by
  constructor
  · intro printed
    have whole : cString line = line := by
      have shorter : cString line <+: line := List.takeWhile_prefix _
      exact shorter.eq_of_length_le (length_printfEcho printed).1
    rw [whole] at printed
    exact ⟨cString_eq_self.mp whole, (printfEcho_eq_self_iff line).mp printed⟩
  · rintro ⟨noNull, clean⟩
    rw [cString_eq_self.mpr noNull]
    exact (printfEcho_eq_self_iff line).mpr clean

/-- The header of a line has no null and no percent sign. -/
theorem not_mem_logHeader (t : Tm) (iType : LogType) :
    0 ∉ logHeader t iType ∧ 37 ∉ logHeader t iType := by
  have digits {c : UInt8} (noDigit : ¬IsDigit c) (width number : Nat) :
      c ∉ padded width number := by
    intro printed
    rcases List.mem_append.mp printed with zero | digit
    · rw [List.eq_of_mem_replicate zero] at noDigit
      exact noDigit (by decide)
    · exact noDigit (isDigit_of_mem_decimal digit)
  have title : 0 ∉ iType.title ∧ 37 ∉ iType.title := by cases iType <;> decide
  have noNull := digits (show ¬IsDigit 0 by decide)
  have noPercent := digits (show ¬IsDigit 37 by decide)
  simp only [logHeader, List.mem_append, not_or, noNull, noPercent, title, not_false_eq_true,
    and_true, true_and]
  decide

/-- A message is echoed as it stands exactly when it has no null and no percent sign and fits. -/
theorem echoes_iff (t : Tm) (iType : LogType) (text : Bytes) :
    Echoes t iType text ↔ 0 ∉ text ∧ 37 ∉ text ∧ FitsBuffer (logHeader t iType ++ text) := by
  obtain ⟨headerNull, headerPercent⟩ := not_mem_logHeader t iType
  have inText {c : UInt8} (noHeader : c ∉ logHeader t iType) : c ∈ logHeader t iType ++ text ↔
      c ∈ text := by
    rw [List.mem_append, or_iff_right noHeader]
  constructor
  · rintro ⟨line, written⟩
    obtain ⟨line', isLine, written⟩ := bind_eq_ok.mp written
    obtain ⟨echo, printed, same⟩ := bind_eq_ok.mp written
    cases same
    obtain ⟨noNull, clean⟩ := (printfEcho_cString_iff line).mp printed
    rw [mem_logLine isLine (by decide), inText headerNull] at noNull
    rw [mem_logLine isLine (by decide), inText headerPercent] at clean
    exact ⟨noNull, clean, (logLine_ok_iff.mp isLine).1⟩
  · rintro ⟨noNull, clean, fits⟩
    have isLine := logLine_ok_iff.mpr ⟨fits, rfl⟩
    rw [← inText headerNull, ← mem_logLine isLine (by decide)] at noNull
    rw [← inText headerPercent, ← mem_logLine isLine (by decide)] at clean
    refine ⟨_, bind_eq_ok.mpr ⟨_, isLine, bind_eq_ok.mpr ⟨_, ?_, rfl⟩⟩⟩
    exact (printfEcho_cString_iff _).mpr ⟨noNull, clean⟩

/-! ## Unknown headers -/

/-- The text of the error that `parse_line_data_type` logs, as `vsnprintf` makes it. -/
def unknownHeaderText (keys str : Bytes) : Bytes :=
  bytes "CHttpParse::parse_line_data_type::parse_line::error, keys = " ++ cString keys ++
    bytes ", str = " ++
    cString str ++ bytes "\n"

/-- The header that a pass of the loop of `parse_line_data_type` logs. -/
def loggedHeader (parse : HttpParse) : Option (Bytes × Bytes) :=
  if parse.bHeaderDown then none
  else
    match parse.getLine with
    | .error _ => none
    | .ok (str, parse) =>
      (headerOf str).bind fun header =>
        if (parse.parseLine (toUpper header.1) header.2).1 ≠ 0 then
          some (toUpper header.1, header.2) else none

/-- The bytes of the error, apart from those of the format. -/
theorem mem_unknownHeaderText {keys str : Bytes} :
    0 ∉ unknownHeaderText keys str ∧
      (37 ∈ unknownHeaderText keys str ↔ 37 ∈ cString keys ∨ 37 ∈ cString str) := by
  have format : 0 ∉ bytes "CHttpParse::parse_line_data_type::parse_line::error, keys = " ∧
      37 ∉ bytes "CHttpParse::parse_line_data_type::parse_line::error, keys = " := by decide +kernel
  have between : 0 ∉ bytes ", str = " ∧ 37 ∉ bytes ", str = " := by decide
  have feed : 0 ∉ bytes "\n" ∧ 37 ∉ bytes "\n" := by decide
  have noNull (text : Bytes) : 0 ∉ cString text :=
    fun null => absurd (List.mem_takeWhile_imp null) (by decide)
  simp [unknownHeaderText, format, between, feed, noNull]

/-- For every message, and in particular for the name and value of every header that is logged as
unknown: the line that goes to the log file is echoed as it stands exactly when the message has no
percent sign and fits the buffer. -/
theorem log_echo_iff (t : Tm) :
    (∀ iType text, Echoes t iType text ↔ 0 ∉ text ∧ 37 ∉ text ∧
      FitsBuffer (logHeader t iType ++ text)) ∧
    ∀ parse keys str, loggedHeader parse = some (keys, str) →
      (Echoes t .error (unknownHeaderText keys str) ↔
        37 ∉ cString keys ∧ 37 ∉ cString str ∧
        FitsBuffer (logHeader t .error ++ unknownHeaderText keys str)) := by
  refine ⟨echoes_iff t, fun parse keys str _ => ?_⟩
  obtain ⟨noNull, percent⟩ := @mem_unknownHeaderText keys str
  rw [echoes_iff, percent, not_or, and_assoc]
  exact and_iff_right noNull

/-- An unknown header without a percent sign. -/
theorem log_echo_plain_header :
    Echoes (dayClock 34200) .error (unknownHeaderText (bytes "X") (bytes "a")) :=
  ((log_echo_iff (dayClock 34200)).2 (fresh .unknow (bytes "x: a\r\n\r\n")) (bytes "X") (bytes "a")
    (by decide +kernel)).mpr ⟨by decide, by decide, by decide +kernel⟩

/-- A header whose value is a conversion is logged, and `printf` reads an argument that is not
there. -/
theorem unknown_header_conversion :
    loggedHeader (fresh .unknow (bytes "X: %n\r\n\r\n")) = some (bytes "X", bytes "%n") ∧
      writeLogLine (dayClock 34200) .error (unknownHeaderText (bytes "X") (bytes "%n")) =
        .error .absentArgument ∧
      ¬Echoes (dayClock 34200) .error (unknownHeaderText (bytes "X") (bytes "%n")) := by
  refine ⟨by decide +kernel, by decide +kernel, ?_⟩
  rw [echoes_iff]
  rintro ⟨-, clean, -⟩
  exact clean (by decide +kernel)

end NetServer
