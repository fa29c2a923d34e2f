import NetServer.Http.Parse

/-!
# How a text is framed

Every text falls apart in one way into accepted lines, each ended by `"\r\n"`, and a rest
that stops the header loop: nothing at all, bytes without a line end, an empty line before the
content, or a line the loop rejects. The parser's outcome is read off this framing
(`parseLineDataType_framing`), and the results about whole requests are proved on framings.
-/

namespace NetServer

open Lib

/-- A line end ends exactly a line without one inside. -/
def Clean (line : Bytes) : Prop := ¬ crlf <:+: line

instance (line : Bytes) : Decidable (Clean line) := inferInstanceAs (Decidable (¬ _))

/-- What follows the accepted lines at the front of a text. -/
inductive Rest where
  /-- Nothing. -/
  | exhausted
  /-- Some bytes, but no line end. -/
  | unterminated (first : UInt8) (tail : Bytes)
  /-- The empty line and the content behind it. -/
  | body (content : Bytes)
  /-- A line the loop rejects and everything behind it. -/
  | rejected (line behind : Bytes)
  deriving DecidableEq, Repr

namespace Rest

/-- The bytes of a rest. -/
def text : Rest → Bytes
  | exhausted => []
  | unterminated first tail => first :: tail
  | body content => crlf ++ content
  | rejected line behind => line ++ crlf ++ behind

/-- A rest is what it says: no line end in unterminated bytes, one refused line. -/
def WellFormed : Rest → Prop
  | exhausted => True
  | unterminated first tail => Clean (first :: tail)
  | body _ => True
  | rejected line _ => line ≠ [] ∧ Clean line ∧ ¬ HttpParse.Accepted line

end Rest

/-- The bytes of lines with their line ends. -/
def linesText (lines : List Bytes) : Bytes := lines.flatMap (· ++ crlf)

/-- Accepted lines and the rest behind them. -/
structure Framing where
  /-- The accepted lines, without their line ends. -/
  lines : List Bytes
  /-- What stops the header loop. -/
  rest : Rest
  /-- Each line is ended by the first line end after its start. -/
  clean : ∀ line ∈ lines, Clean line
  /-- The header loop goes on over each line. -/
  accepted : ∀ line ∈ lines, HttpParse.Accepted line
  /-- The rest is what it says. -/
  wellFormed : rest.WellFormed

namespace Framing

/-- The framed text. -/
def text (framing : Framing) : Bytes := linesText framing.lines ++ framing.rest.text

/-- A rest alone, without lines before it. -/
def ofRest (rest : Rest) (wellFormed : rest.WellFormed) : Framing :=
  ⟨[], rest, by simp, by simp, wellFormed⟩

/-- One more accepted line in front. -/
def cons (line : Bytes) (clean : Clean line) (accepted : HttpParse.Accepted line)
    (framing : Framing) : Framing :=
  ⟨line :: framing.lines, framing.rest, by simpa using ⟨clean, framing.clean⟩,
    by simpa using ⟨accepted, framing.accepted⟩, framing.wellFormed⟩

end Framing

/-- Lines with their ends, first line first. -/
@[simp]
theorem linesText_cons (line : Bytes) (lines : List Bytes) :
    linesText (line :: lines) = line ++ crlf ++ linesText lines := by
  simp [linesText]

/-- No lines have no text. -/
@[simp]
theorem linesText_nil : linesText [] = [] := rfl

/-- An accepted line is not empty. -/
theorem HttpParse.Accepted.nonempty {line : Bytes} (accepted : HttpParse.Accepted line) :
    line ≠ [] := by
  rintro rfl
  revert accepted
  decide

/-- Every text has a framing. -/
theorem exists_framing (text : Bytes) : ∃ framing : Framing, framing.text = text := by
  induction size : text.length using Nat.strong_induction_on generalizing text with
  | _ length ih =>
    rcases HttpParse.buffer_cases text with rfl | ⟨first, rest, rfl, clean⟩ | ⟨rest, rfl⟩ |
      ⟨line, rest, rfl, clean, nonempty⟩
    · exact ⟨.ofRest .exhausted trivial, rfl⟩
    · exact ⟨.ofRest (.unterminated first rest) clean, rfl⟩
    · exact ⟨.ofRest (.body rest) trivial, rfl⟩
    · by_cases accepted : HttpParse.Accepted line
      · have shorter : rest.length < length := by
          subst size
          simp
          omega
        obtain ⟨framing, same⟩ := ih _ shorter rest rfl
        exact ⟨framing.cons line clean accepted, by simp [Framing.cons, Framing.text, ← same]⟩
      · exact ⟨.ofRest (.rejected line rest) ⟨nonempty, clean, accepted⟩, rfl⟩

/-- A text with a line end in it is not clean. -/
theorem not_clean {text line behind : Bytes} (split : text = line ++ crlf ++ behind) :
    ¬ Clean text :=
  fun clean => clean ⟨line, behind, split.symm⟩

/-- A cut at the first line end is unique. -/
theorem crlf_cut_unique (line line' : Bytes) {behind behind' : Bytes} (clean : Clean line)
    (clean' : Clean line') (same : line ++ crlf ++ behind = line' ++ crlf ++ behind') :
    line = line' ∧ behind = behind' :=
  pair_cut_unique (by decide) clean clean' (by simpa using same)

/-- A rest is determined by its bytes. -/
theorem Rest.text_injective {left right : Rest} (hl : left.WellFormed) (hr : right.WellFormed)
    (same : left.text = right.text) : left = right := by
  have empty : Clean [] := by decide
  cases left with
  | exhausted => cases right <;> simp_all [text]
  | unterminated first tail =>
    cases right with
    | exhausted => simp [text] at same
    | unterminated first' tail' => simpa [text] using same
    | body content => exact absurd hl (not_clean (show _ = [] ++ crlf ++ content from same))
    | rejected line behind => exact absurd hl (not_clean same)
  | body content =>
    cases right with
    | exhausted => simp [text] at same
    | unterminated first tail =>
      exact absurd hr (not_clean (show _ = [] ++ crlf ++ content from same.symm))
    | body content' => simpa [text] using same
    | rejected line behind =>
      exact absurd (crlf_cut_unique [] line empty hr.2.1 same).1.symm hr.1
  | rejected line behind =>
    cases right with
    | exhausted => simp [text] at same
    | unterminated first tail => exact absurd hr (not_clean same.symm)
    | body content => exact absurd (crlf_cut_unique line [] hl.2.1 empty same).1 hl.1
    | rejected line' behind' =>
      obtain ⟨rfl, rfl⟩ := crlf_cut_unique _ _ hl.2.1 hr.2.1 same
      rfl

/-- No rest starts with an accepted line. -/
theorem Rest.text_ne_accepted {rest : Rest} (wellFormed : rest.WellFormed) {line : Bytes}
    (clean : Clean line) (accepted : HttpParse.Accepted line) (behind : Bytes) :
    line ++ crlf ++ behind ≠ rest.text := by
  intro same
  cases rest with
  | exhausted => simp [text] at same
  | unterminated first tail => exact absurd wellFormed (not_clean same.symm)
  | body content =>
    exact accepted.nonempty (crlf_cut_unique line [] clean (by decide) same).1
  | rejected line' behind' =>
    obtain ⟨rfl, -⟩ := crlf_cut_unique _ _ clean wellFormed.2.1 same
    exact wellFormed.2.2 accepted

/-- A text has one framing only. -/
theorem Framing.text_injective {left right : Framing} (same : left.text = right.text) :
    left = right := by
  obtain ⟨lines, rest, clean, accepted, wellFormed⟩ := left
  obtain ⟨lines', rest', clean', accepted', wellFormed'⟩ := right
  suffices lines = lines' ∧ rest = rest' by
    obtain ⟨rfl, rfl⟩ := this
    rfl
  simp only [text] at same
  induction lines generalizing lines' with
  | nil =>
    cases lines' with
    | nil => exact ⟨rfl, Rest.text_injective wellFormed wellFormed' (by simpa using same)⟩
    | cons line lines' =>
      exact absurd (by simpa using same.symm) (Rest.text_ne_accepted wellFormed
        (clean' line (by simp)) (accepted' line (by simp)) (linesText lines' ++ rest'.text))
  | cons line lines ih =>
    cases lines' with
    | nil =>
      exact absurd (by simpa using same) (Rest.text_ne_accepted wellFormed'
        (clean line (by simp)) (accepted line (by simp)) (linesText lines ++ rest.text))
    | cons line' lines' =>
      have cut : line ++ crlf ++ (linesText lines ++ rest.text) =
          line' ++ crlf ++ (linesText lines' ++ rest'.text) := by simpa using same
      obtain ⟨rfl, behind⟩ :=
        crlf_cut_unique line line' (clean line (by simp)) (clean' line' (by simp)) cut
      obtain ⟨rfl, rfl⟩ :=
        ih (fun l h => clean l (by simp [h])) (fun l h => accepted l (by simp [h]))
          lines' (fun l h => clean' l (by simp [h])) (fun l h => accepted' l (by simp [h])) behind
      exact ⟨rfl, rfl⟩

namespace HttpParse

/-- A header value does not depend on the buffer. -/
theorem parseLine_setData (parse : HttpParse) (keys str data : Bytes) :
    ({ parse with requestData := data }.parseLine keys str).2 =
      { (parse.parseLine keys str).2 with requestData := data } := by
  obtain ⟨set, sets, effect⟩ := parseLine_sets keys str
  rw [effect, effect]
  cases sets <;> rfl

/-- The effect of an accepted line does not depend on the buffer. -/
theorem applyLine_setData (parse : HttpParse) (line data : Bytes) :
    { parse with requestData := data }.applyLine line =
      { parse.applyLine line with requestData := data } := by
  unfold applyLine
  split
  · exact parseLine_setData parse _ _ data
  · unfold parseHeader
    split <;> rfl

/-- The effect of accepted lines, in order. -/
def applyLines (parse : HttpParse) (lines : List Bytes) : HttpParse := lines.foldl applyLine parse

/-- What the header loop makes of a framed text. -/
def outcome (parse : HttpParse) (framing : Framing) : Except OutOfRange (Int × HttpParse) :=
  let read := parse.applyLines framing.lines
  match framing.rest with
  | .exhausted => .error .outOfRange
  | .unterminated _ tail =>
    .ok (-1, { read with content := tail, requestData := [], bHeaderDown := true })
  | .body content =>
    .ok (-1, { read with content := content, requestData := [], bHeaderDown := true })
  | .rejected _ behind => .ok (-1, { read with requestData := behind })

/-- An iteration on an open header reads a line and takes it. -/
theorem lineIteration_read {parse after : HttpParse} {line : Bytes}
    (isOpen : parse.bHeaderDown = false) (read : parse.getLine = .ok (line, after)) :
    parse.lineIteration =
      if Accepted line then .ok (.inl (after.applyLine line)) else .ok (.inr (-1, after)) := by
  simp only [lineIteration, isOpen, Bool.false_eq_true, ↓reduceIte, read]
  exact takeLine_eq after line

/-- The empty line ends the header loop with -1. -/
theorem parseLineDataType_empty {parse after : HttpParse} (isOpen : parse.bHeaderDown = false)
    (read : parse.getLine = .ok ([], after)) : parse.parseLineDataType = .ok (-1, after) := by
  apply loop_return
  have empty : ¬ Accepted [] := by decide
  rw [lineIteration_read isOpen read, if_neg empty]

/-- The flag of a finished header is set by no line. -/
theorem applyLine_bHeaderDown (parse : HttpParse) (line : Bytes) :
    (parse.applyLine line).bHeaderDown = parse.bHeaderDown := by
  unfold applyLine
  split
  · obtain ⟨set, sets, effect⟩ := parseLine_sets _ _
    rw [effect]
    cases sets <;> rfl
  · unfold parseHeader
    split <;> rfl

/-- The header loop on a text without accepted lines. -/
theorem parseLineDataType_rest {parse : HttpParse} {rest : Rest} (wellFormed : rest.WellFormed)
    (isOpen : parse.bHeaderDown = false) (text : parse.requestData = rest.text) :
    parse.parseLineDataType = parse.outcome (.ofRest rest wellFormed) := by
  cases rest with
  | exhausted =>
    apply loop_error
    simp only [lineIteration, isOpen, Bool.false_eq_true, ↓reduceIte, getLine_empty text]
    rfl
  | unterminated first tail =>
    exact parseLineDataType_empty isOpen (getLine_unterminated text wellFormed)
  | body content => exact parseLineDataType_empty isOpen (getLine_blank text)
  | rejected line behind =>
    obtain ⟨nonempty, clean, refused⟩ := wellFormed
    apply loop_return
    rw [lineIteration_read isOpen (getLine_line text clean nonempty), if_neg refused]
    rfl

/-- The header loop goes on over an accepted line at the front of its buffer. -/
theorem parseLineDataType_line {parse : HttpParse} {line behind : Bytes} (clean : Clean line)
    (accepted : Accepted line) (isOpen : parse.bHeaderDown = false)
    (text : parse.requestData = line ++ crlf ++ behind) :
    parse.parseLineDataType =
      { parse.applyLine line with requestData := behind }.parseLineDataType := by
  apply loop_continue
  rw [lineIteration_read isOpen (getLine_line text clean accepted.nonempty), if_pos accepted,
    applyLine_setData]

/-- The outcome on a framed text does not depend on the buffer the fields came with. -/
theorem outcome_setData (parse : HttpParse) (data : Bytes) (framing : Framing) :
    { parse with requestData := data }.outcome framing = parse.outcome framing := by
  have lines (p : HttpParse) : { p with requestData := data }.applyLines framing.lines =
      { p.applyLines framing.lines with requestData := data } := by
    unfold applyLines
    induction framing.lines generalizing p with
    | nil => rfl
    | cons line lines ih => rw [List.foldl_cons, applyLine_setData, ih, List.foldl_cons]
  simp only [outcome, lines]

/-- The header loop makes of a framed text what its framing says. -/
theorem parseLineDataType_framing (framing : Framing) (parse : HttpParse)
    (isOpen : parse.bHeaderDown = false) (text : parse.requestData = framing.text) :
    parse.parseLineDataType = parse.outcome framing := by
  obtain ⟨lines, rest, clean, accepted, wellFormed⟩ := framing
  induction lines generalizing parse with
  | nil => exact parseLineDataType_rest wellFormed isOpen (by simpa [Framing.text] using text)
  | cons line lines ih =>
    have cleanLine := clean line (by simp)
    have acceptedLine := accepted line (by simp)
    have front : parse.requestData = line ++ crlf ++ (linesText lines ++ rest.text) := by
      simpa [Framing.text] using text
    rw [parseLineDataType_line cleanLine acceptedLine isOpen front]
    rw [ih _ (by simpa [applyLine_bHeaderDown] using isOpen) (fun l h => clean l (by simp [h]))
      (fun l h => accepted l (by simp [h])) rfl]
    exact outcome_setData _ _ _

/-- The header loop throws exactly on a text of accepted lines with nothing behind them. -/
theorem outcome_throws_iff (parse : HttpParse) (framing : Framing) :
    parse.outcome framing = .error .outOfRange ↔ framing.rest = .exhausted := by
  unfold outcome
  split <;> simp_all

end HttpParse

/-- A text of accepted lines and nothing else: what a request is whenever its last piece so far
ends exactly at a line end of the header, the empty text included. -/
def OnlyHeaderLines (text : Bytes) : Prop :=
  ∃ lines, (∀ line ∈ lines, Clean line ∧ HttpParse.Accepted line) ∧ text = linesText lines

/-- The rest of a framing is exhausted exactly when its text consists of accepted lines. -/
theorem Framing.exhausted_iff (framing : Framing) :
    framing.rest = .exhausted ↔ OnlyHeaderLines framing.text := by
  constructor
  · intro exhausted
    refine ⟨framing.lines, fun line member => ?_, by simp [text, exhausted, Rest.text]⟩
    exact ⟨framing.clean line member, framing.accepted line member⟩
  · rintro ⟨lines, good, same⟩
    have unique : framing = ⟨lines, .exhausted, fun line member => (good line member).1,
        fun line member => (good line member).2, trivial⟩ := by
      apply Framing.text_injective
      simpa [text, Rest.text] using same
    rw [unique]

namespace HttpParse

/-- Parsing an open header throws exactly on a text of accepted lines. -/
theorem parseRequest_throws_iff {parse : HttpParse} (isOpen : parse.bHeaderDown = false) :
    parse.parseRequest = .error .outOfRange ↔ OnlyHeaderLines parse.requestData := by
  obtain ⟨framing, text⟩ := exists_framing parse.requestData
  rw [← text, ← framing.exhausted_iff, ← outcome_throws_iff parse, parseRequest,
    parseLineDataType_framing framing parse isOpen text.symm]
  cases parse.outcome framing with
  | error e => cases e; simp [bind, Except.bind]
  | ok result => simp [bind, Except.bind, pure, Except.pure]

end HttpParse

/-- Neither constructing a parser on a text nor re-parsing the text with any parser throws. -/
def ParsesWithoutException (text : Bytes) : Prop :=
  (∀ memory, HttpParse.construct memory text ≠ .error .outOfRange) ∧
    ∀ parse : HttpParse, parse.parseRequestOn text ≠ .error .outOfRange

/-- A text is parsed without an exception exactly when it is not made of accepted lines alone.
A request cut at a line end of its header, and the empty text, therefore throw. -/
theorem parsesWithoutException_iff (text : Bytes) :
    ParsesWithoutException text ↔ ¬ OnlyHeaderLines text := by
  constructor
  · intro safe only
    exact safe.1 .unknow ((HttpParse.parseRequest_throws_iff rfl).mpr only)
  · intro other
    constructor
    · intro memory thrown
      exact other ((HttpParse.parseRequest_throws_iff rfl).mp thrown)
    · intro parse thrown
      exact other ((HttpParse.parseRequest_throws_iff rfl).mp thrown)

/-- A request line alone, received before its headers, makes the parser throw. -/
theorem requestLine_throws : ¬ ParsesWithoutException (bytes "GET / HTTP/1.1\r\n") := by
  rintro ⟨-, safe⟩
  exact safe ⟨.unknow, .unknow, [], [], [], [], [], [], [], 0, [], [], false⟩ (by decide +kernel)

end NetServer
