import NetServer.Request.Assembly

/-!
# The verdict against the grammar of requests

A complete request is a request line, header lines, an empty line and a body of the announced
length. `CheckData` should answer `DATA_OK` on complete requests, `DATA_DEF` on their proper
prefixes and `DATA_ERROR` on everything else. It decides from two numbers only, so it does so
on some texts and not on others; `verdictExact_iff` says on which.
-/

namespace NetServer

open Lib ReqHandlerObj

/-- A request line followed by header lines. -/
def Regular (lines : List Bytes) : Prop :=
  ∃ requestLine headers, lines = requestLine :: headers ∧ IsRequestLine requestLine ∧
    ∀ line ∈ headers, Clean line ∧ bytes ": " <:+: line

/-- A complete request: regular lines, an empty line and a body of the announced length. -/
def Complete (text : Bytes) : Prop :=
  ∃ lines body, Regular lines ∧ text = linesText lines ++ crlf ++ body ∧
    (body.length : Int) = announced lines

/-- A text that more bytes can make complete. -/
def Extensible (text : Bytes) : Prop := ∃ whole, Complete whole ∧ text <+: whole ∧ text ≠ whole

/-- The verdict of a fresh handler. -/
def freshVerdict (arg : Nat) (now : Int) (text : Bytes) : Except OutOfRange HandReply :=
  ((construct arg).checkData now text).map Prod.fst

/-- `CheckData` on a fresh handler answers as the grammar of requests says. -/
def VerdictExact (arg : Nat) (now : Int) (text : Bytes) : Prop :=
  (freshVerdict arg now text = .ok .dataOk ↔ Complete text) ∧
  (freshVerdict arg now text = .ok .dataDef ↔ ¬ Complete text ∧ Extensible text) ∧
  (freshVerdict arg now text = .ok .dataError ↔ ¬ Complete text ∧ ¬ Extensible text)

/-- Every line of regular lines is one accepted line. -/
theorem Regular.good {lines : List Bytes} (regular : Regular lines) :
    ∀ line ∈ lines, Clean line ∧ HttpParse.Accepted line := by
  obtain ⟨requestLine, headers, rfl, isRequest, areHeaders⟩ := regular
  intro line member
  rcases List.mem_cons.mp member with rfl | member
  · exact ⟨isRequest.clean, .inr isRequest.method⟩
  · exact ⟨(areHeaders line member).1, .inl (areHeaders line member).2⟩

/-- Regular lines stay regular when header lines are added. -/
theorem Regular.append {lines more : List Bytes} (regular : Regular lines)
    (areHeaders : ∀ line ∈ more, Clean line ∧ bytes ": " <:+: line) : Regular (lines ++ more) := by
  obtain ⟨requestLine, headers, rfl, isRequest, front⟩ := regular
  refine ⟨requestLine, headers ++ more, rfl, isRequest, fun line member => ?_⟩
  rcases List.mem_append.mp member with member | member
  · exact front line member
  · exact areHeaders line member

/-- The first lines of regular lines are none or regular. -/
theorem Regular.initial {lines more : List Bytes} (regular : Regular (lines ++ more))
    (nonempty : lines ≠ []) : Regular lines := by
  obtain ⟨requestLine, headers, split, isRequest, areHeaders⟩ := regular
  cases lines with
  | nil => exact absurd rfl nonempty
  | cons first lines =>
    obtain ⟨rfl, rfl⟩ := List.cons.inj split
    exact ⟨first, lines, rfl, isRequest, fun line member => areHeaders line (by simp [member])⟩

/-- Framing of regular lines before an empty line and a body. -/
def bodyFraming {lines : List Bytes} (regular : Regular lines) (body : Bytes) : Framing :=
  ⟨lines, .body body, fun line member => (regular.good line member).1,
    fun line member => (regular.good line member).2, trivial⟩

/-- Completeness is a property of the framing. -/
theorem complete_iff (framing : Framing) :
    Complete framing.text ↔ Regular framing.lines ∧ ∃ body, framing.rest = .body body ∧
      (body.length : Int) = announced framing.lines := by
  constructor
  · rintro ⟨lines, body, regular, text, length⟩
    have same : framing = bodyFraming regular body := by
      apply Framing.text_injective
      rw [text]
      simp [bodyFraming, Framing.text, Rest.text]
    rw [same]
    exact ⟨regular, body, rfl, length⟩
  · rintro ⟨regular, body, rest, length⟩
    exact ⟨framing.lines, body, regular, by simp [Framing.text, rest, Rest.text], length⟩

/-- A framing of the front of a framed text has lines from the front of its lines. -/
theorem Framing.lines_of_append {framing whole : Framing} {more : Bytes}
    (text : framing.text ++ more = whole.text) :
    ∃ lines, whole.lines = framing.lines ++ lines ∧
      framing.rest.text ++ more = linesText lines ++ whole.rest.text := by
  obtain ⟨lines, rest, clean, accepted, wellFormed⟩ := framing
  obtain ⟨lines', rest', clean', accepted', wellFormed'⟩ := whole
  simp only [Framing.text] at text ⊢
  induction lines generalizing lines' with
  | nil => exact ⟨lines', rfl, by simpa using text⟩
  | cons line lines ih =>
    have cleanLine := clean line (by simp)
    have front : line ++ crlf ++ (linesText lines ++ rest.text ++ more) =
        linesText lines' ++ rest'.text := by simpa using text
    cases lines' with
    | nil =>
      exact absurd (by simpa using front)
        (Rest.text_ne_accepted wellFormed' cleanLine (accepted line (by simp)) _)
    | cons line' lines' =>
      have cut : line ++ crlf ++ (linesText lines ++ rest.text ++ more) =
          line' ++ crlf ++ (linesText lines' ++ rest'.text) := by simpa using front
      obtain ⟨rfl, behind⟩ := crlf_cut_unique line line' cleanLine (clean' line' (by simp)) cut
      obtain ⟨others, same, tail⟩ := ih (fun l h => clean l (by simp [h]))
        (fun l h => accepted l (by simp [h])) lines' (fun l h => clean' l (by simp [h]))
        (fun l h => accepted' l (by simp [h])) behind
      exact ⟨others, by simp [same], tail⟩

/-- An unterminated front of a line does not hold `": "` when the line does not. -/
theorem unterminated_plain {line piece more behind : Bytes} (plain : ¬ bytes ": " <:+: line)
    (clean : Clean piece) (text : piece ++ more = line ++ crlf ++ behind) :
    ¬ bytes ": " <:+: piece := by
  have inLine : piece <+: line ++ [13] := by
    have left : piece <+: line ++ crlf ++ behind := ⟨more, text⟩
    rcases List.prefix_or_prefix_of_prefix left (List.prefix_append _ _) with short | long
    · have ends : line ++ crlf = (line ++ [13]).concat 10 := by simp
      rw [ends, List.concat_eq_append, List.prefix_concat_iff] at short
      rcases short with whole | short
      · exact absurd clean (not_clean (show piece = line ++ crlf ++ [] by simp [whole]))
      · exact short
    · obtain ⟨tail, split⟩ := long
      exact absurd clean (not_clean split.symm)
  intro inside
  have joint := inside.trans inLine.isInfix
  change [58, 32] <:+: line ++ [13] at joint
  rw [pair_infix_append] at joint
  rcases joint with early | late | ⟨-, across⟩
  · exact plain early
  · exact absurd late (by decide)
  · cases across

/-- The text of a header line that announces an empty body. -/
def zeroLength : Bytes := bytes "CONTENT_LENGHT: 0"

/-- A last header that announces an empty body decides. -/
theorem announced_zeroLength (lines : List Bytes) : announced (lines ++ [zeroLength]) = 0 := by
  have read : headerOf zeroLength = some (bytes "CONTENT_LENGHT", bytes "0") := by decide
  have key : HttpParse.toUpper (bytes "CONTENT_LENGHT") = bytes "CONTENT_LENGHT" := by decide
  have value : atoi (bytes "0") = 0 := by decide
  simp [announced, lastValue, List.filterMap_append, List.filter_append, read, key, value]

/-- A text that can be completed but is not complete, in terms of its framing. -/
def Pending (framing : Framing) : Prop :=
  match framing.rest with
  | .exhausted => framing.lines = [] ∨ Regular framing.lines
  | .unterminated first tail =>
    (framing.lines = [] ∧ ¬ bytes ": " <:+: first :: tail) ∨ Regular framing.lines
  | .body body => Regular framing.lines ∧ (body.length : Int) < announced framing.lines
  | .rejected _ _ => False

/-- A pending text is not complete. -/
theorem Pending.not_complete {framing : Framing} (pending : Pending framing) :
    ¬ Complete framing.text := by
  rw [complete_iff]
  rintro ⟨-, body, rest, length⟩
  simp only [Pending, rest] at pending
  omega

/-- The first line of a text of good lines, an empty line and a body is one of the lines or
empty. -/
theorem first_line_cases {line behind body : Bytes} {others : List Bytes} (clean : Clean line)
    (good : ∀ other ∈ others, Clean other ∧ HttpParse.Accepted other)
    (cut : line ++ crlf ++ behind = linesText others ++ (crlf ++ body)) :
    others = [] ∧ line = [] ∧ behind = body ∨ line ∈ others := by
  cases others with
  | nil =>
    have same := crlf_cut_unique line [] clean (by decide) (by simpa using cut)
    exact .inl ⟨rfl, same.1, same.2⟩
  | cons first others =>
    have cut' : line ++ crlf ++ behind = first ++ crlf ++ (linesText others ++ (crlf ++ body)) := by
      simpa using cut
    have same := crlf_cut_unique line first clean (good first List.mem_cons_self).1 cut'
    exact .inr (same.1 ▸ List.mem_cons_self)

/-- A proper front of a complete request is pending or complete. -/
theorem pending_of_extensible {framing : Framing} (extensible : Extensible framing.text) :
    Pending framing := by
  obtain ⟨whole, ⟨lines, body, regular, rfl, length⟩, ⟨more, text⟩, proper⟩ := extensible
  have missing : more ≠ [] := by
    rintro rfl
    exact proper (by simpa using text)
  have wholeText : (bodyFraming regular body).text = linesText lines ++ crlf ++ body := by
    simp [bodyFraming, Framing.text, Rest.text]
  obtain ⟨others, split, tail⟩ := Framing.lines_of_append (text.trans wholeText.symm)
  change lines = _ at split
  change _ = linesText others ++ (crlf ++ body) at tail
  have initial (nonempty : framing.lines ≠ []) : Regular framing.lines :=
    Regular.initial (split ▸ regular) nonempty
  have good : ∀ other ∈ others, Clean other ∧ HttpParse.Accepted other :=
    fun other inOthers => regular.good other (by simp [split, inOthers])
  cases rest : framing.rest with
  | exhausted =>
    simp only [Pending, rest]
    by_cases empty : framing.lines = []
    · exact .inl empty
    · exact .inr (initial empty)
  | unterminated first piece =>
    simp only [Pending, rest]
    by_cases empty : framing.lines = []
    · refine .inl ⟨empty, ?_⟩
      rw [empty, List.nil_append] at split
      obtain ⟨requestLine, headers, rfl, isRequest, -⟩ := regular
      rw [rest, ← split] at tail
      have front : first :: piece ++ more =
          requestLine ++ crlf ++ (linesText headers ++ (crlf ++ body)) := by
        simpa [Rest.text] using tail
      have clean : Clean (first :: piece) := by
        have := framing.wellFormed
        rwa [rest] at this
      exact unterminated_plain isRequest.plain clean front
    · exact .inr (initial empty)
  | body front =>
    simp only [Pending, rest]
    rw [rest] at tail
    have cut : [] ++ crlf ++ (front ++ more) = linesText others ++ (crlf ++ body) := by
      simpa [Rest.text] using tail
    rcases first_line_cases (by decide) good cut with ⟨none, -, bodySplit⟩ | inOthers
    · subst none
      rw [List.append_nil] at split
      have positive := List.length_pos_iff.mpr missing
      rw [← split]
      refine ⟨regular, ?_⟩
      rw [← length, ← bodySplit, List.length_append]
      omega
    · exact absurd rfl (good [] inOthers).2.nonempty
  | rejected line behind =>
    have wellFormed := framing.wellFormed
    rw [rest] at wellFormed tail
    obtain ⟨nonempty, clean, refused⟩ := wellFormed
    have cut : line ++ crlf ++ (behind ++ more) = linesText others ++ (crlf ++ body) := by
      simpa [Rest.text] using tail
    rcases first_line_cases clean good cut with ⟨-, empty, -⟩ | inOthers
    · exact absurd empty nonempty
    · exact absurd (good line inOthers).2 refused

/-- The text of lines in two parts. -/
theorem linesText_append (left right : List Bytes) :
    linesText (left ++ right) = linesText left ++ linesText right := by
  simp [linesText]

/-- Bytes behind a clean piece that do not start with a line feed leave it clean. -/
theorem clean_append {piece more : Bytes} (clean : Clean piece) (cleanMore : Clean more)
    (noFeed : more.head? ≠ some 10) : Clean (piece ++ more) := by
  unfold Clean
  rw [pair_infix_append]
  rintro (inPiece | inMore | ⟨-, across⟩)
  · exact clean inPiece
  · exact cleanMore inMore
  · exact noFeed across

/-- A longer complete text makes a text extensible. -/
theorem extensible_of_append {text : Bytes} (more : Bytes) (missing : more ≠ [])
    (complete : Complete (text ++ more)) : Extensible text :=
  ⟨text ++ more, complete, List.prefix_append _ _, by simpa using missing⟩

/-- Regular lines followed by an empty body are complete when their last header says so. -/
theorem complete_zeroLength {lines : List Bytes} (regular : Regular lines) :
    Complete (linesText (lines ++ [zeroLength]) ++ crlf ++ []) := by
  have zero := announced_zeroLength lines
  refine ⟨lines ++ [zeroLength], [], regular.append ?_, rfl, by simp [zero]⟩
  intro line member
  rw [List.mem_singleton.mp member]
  exact ⟨by decide, by decide⟩

/-- A request line alone, with an empty body, is complete. -/
theorem complete_requestLine {line : Bytes} (isRequest : IsRequestLine line) :
    Complete (line ++ crlf ++ crlf) := by
  have none : announced [line] = 0 := by
    simp [announced, lastValue, (headerOf_eq_none_iff line).mpr isRequest.plain]
  exact ⟨[line], [], ⟨line, [], rfl, isRequest, by simp⟩, by simp, by simp [none]⟩

/-- A pending text can be completed. -/
theorem Pending.extensible {framing : Framing} (pending : Pending framing) :
    Extensible framing.text := by
  cases rest : framing.rest with
  | exhausted =>
    simp only [Pending, rest] at pending
    rcases pending with empty | regular
    · have nothing : framing.text = [] := by simp [Framing.text, empty, rest, Rest.text]
      rw [nothing]
      exact extensible_of_append (bytes "GET\r\n\r\n") (by decide)
        (complete_requestLine (show IsRequestLine (bytes "GET") from
          ⟨by decide, by decide, by decide⟩))
    · have complete := complete_zeroLength regular
      apply extensible_of_append (zeroLength ++ crlf ++ crlf) (by decide)
      simpa [Framing.text, rest, Rest.text, linesText_append] using complete
  | unterminated first tail =>
    have clean : Clean (first :: tail) := by
      have wellFormed := framing.wellFormed
      rwa [rest] at wellFormed
    simp only [Pending, rest] at pending
    rcases pending with ⟨empty, plain⟩ | regular
    · have isRequest : IsRequestLine (first :: tail ++ bytes "GET") := by
        refine ⟨clean_append clean (by decide) (by decide), ?_, .inl ⟨first :: tail, [], by simp⟩⟩
        change ¬ [58, 32] <:+: _
        rw [pair_infix_append]
        rintro (early | late | ⟨-, across⟩)
        · exact plain early
        · exact absurd late (by decide)
        · exact absurd across (by decide)
      have complete := complete_requestLine isRequest
      apply extensible_of_append (bytes "GET" ++ crlf ++ crlf) (by decide)
      simpa [Framing.text, empty, rest, Rest.text] using complete
    · have header : Clean (first :: tail ++ bytes ": ") ∧
          bytes ": " <:+: first :: tail ++ bytes ": " :=
        ⟨clean_append clean (by decide) (by decide), ⟨first :: tail, [], by simp⟩⟩
      have more : Regular (framing.lines ++ [first :: tail ++ bytes ": "]) := by
        apply regular.append
        intro line member
        rw [List.mem_singleton.mp member]
        exact header
      have complete := complete_zeroLength more
      apply extensible_of_append (bytes ": " ++ crlf ++ zeroLength ++ crlf ++ crlf) (by decide)
      simpa [Framing.text, rest, Rest.text, linesText_append] using complete
  | body front =>
    simp only [Pending, rest] at pending
    obtain ⟨regular, short⟩ := pending
    let missing := (announced framing.lines - front.length).toNat
    have positive : 0 < missing := by omega
    apply extensible_of_append (List.replicate missing 0) (by simp; omega)
    refine ⟨framing.lines, front ++ List.replicate missing 0, regular, ?_, ?_⟩
    · simp [Framing.text, rest, Rest.text]
    · simp only [List.length_append, List.length_replicate, missing]
      omega
  | rejected line behind => simp [Pending, rest] at pending

/-- Which texts can be completed, in terms of their framing. -/
theorem extensible_iff (framing : Framing) : Extensible framing.text ↔ Pending framing :=
  ⟨pending_of_extensible, Pending.extensible⟩

/-- The verdict on a readable text. -/
theorem freshVerdict_readable (arg : Nat) (now : Int) {framing : Framing}
    (readable : framing.rest ≠ .exhausted) :
    freshVerdict arg now framing.text =
      .ok (judge framing.rest.received.length (announced framing.lines)) := by
  have text : framing.text = (construct arg).requestStr ++ framing.text := rfl
  obtain ⟨next, checked, -⟩ := checkData_framing (construct arg) now text readable
  rw [freshVerdict, checked]
  rfl

/-- An exhausted text has no verdict. -/
theorem freshVerdict_exhausted (arg : Nat) (now : Int) {framing : Framing}
    (exhausted : framing.rest = .exhausted) :
    freshVerdict arg now framing.text = .error .outOfRange := by
  have text : framing.text = (construct arg).requestStr ++ framing.text := rfl
  rw [freshVerdict, checkData_exhausted (construct arg) now text exhausted]
  rfl

/-- The texts on which the two numbers happen to tell the truth: a request with its empty line
and a non-negative announced length; a request cut inside a header line, shorter than the length
its lines announce; and a text that is no front of a request, with more bytes behind its lines
than they announce. A negative announced length counts as the `size_t` it is converted to. -/
inductive JudgedRight (framing : Framing) : Prop
  | body {content : Bytes} (regular : Regular framing.lines) (rest : framing.rest = .body content)
    (length : 0 ≤ announced framing.lines ∨ sizeT (announced framing.lines) < content.length)
  | cutInHeader {first : UInt8} {tail : Bytes} (regular : Regular framing.lines)
    (rest : framing.rest = .unterminated first tail)
    (short : tail.length < sizeT (announced framing.lines))
  | malformed (irregular : ¬ Regular framing.lines)
    (header : framing.lines = [] → ∀ first tail, framing.rest = .unterminated first tail →
      bytes ": " <:+: first :: tail)
    (long : sizeT (announced framing.lines) < framing.rest.received.length)

/-- The comparison of two numbers classifies a text as the grammar does. -/
def ComparisonExact (framing : Framing) : Prop :=
  (framing.rest.received.length = sizeT (announced framing.lines) ↔ Complete framing.text) ∧
  (framing.rest.received.length < sizeT (announced framing.lines) ↔
    ¬ Complete framing.text ∧ Pending framing) ∧
  (sizeT (announced framing.lines) < framing.rest.received.length ↔
    ¬ Complete framing.text ∧ ¬ Pending framing)

/-- On a pending text the comparison is right when the content is the shorter. -/
theorem comparisonExact_of_pending {framing : Framing} (pending : Pending framing) :
    ComparisonExact framing ↔
      framing.rest.received.length < sizeT (announced framing.lines) := by
  have incomplete := pending.not_complete
  simp only [ComparisonExact, incomplete, pending, not_true_eq_false, iff_false, not_false_eq_true,
    and_self, and_false, iff_true]
  omega

/-- On a text that is neither complete nor pending the comparison is right when the content is
the longer. -/
theorem comparisonExact_of_neither {framing : Framing} (incomplete : ¬ Complete framing.text)
    (settled : ¬ Pending framing) :
    ComparisonExact framing ↔
      sizeT (announced framing.lines) < framing.rest.received.length := by
  simp only [ComparisonExact, incomplete, settled, iff_false, not_false_eq_true, and_false,
    and_self, iff_true]
  omega

/-- The comparison on regular lines before an empty line and a body. -/
theorem comparisonExact_body {framing : Framing} {content : Bytes}
    (regular : Regular framing.lines) (rest : framing.rest = .body content) :
    ComparisonExact framing ↔
      0 ≤ announced framing.lines ∨ sizeT (announced framing.lines) < content.length := by
  have complete : Complete framing.text ↔ (content.length : Int) = announced framing.lines := by
    rw [complete_iff, rest]
    simp [regular]
  have pending : Pending framing ↔ (content.length : Int) < announced framing.lines := by
    simp [Pending, rest, regular]
  have range := announced_range framing.lines
  by_cases sign : 0 ≤ announced framing.lines
  · have size := sizeT_of_nonneg sign (by omega)
    simp only [ComparisonExact, complete, pending, rest, Rest.received, size, sign, true_or,
      iff_true]
    omega
  · have incomplete : ¬ Complete framing.text := by rw [complete]; omega
    have settled : ¬ Pending framing := by rw [pending]; omega
    rw [comparisonExact_of_neither incomplete settled, rest]
    simp [sign, Rest.received]

/-- What `JudgedRight` says of regular lines before an unterminated one. -/
theorem judgedRight_unterminated {framing : Framing} {first : UInt8} {tail : Bytes}
    (regular : Regular framing.lines) (rest : framing.rest = .unterminated first tail) :
    JudgedRight framing ↔ tail.length < sizeT (announced framing.lines) := by
  constructor
  · intro right
    cases right with
    | body _ other => rw [rest] at other; cases other
    | cutInHeader _ same short => rw [rest] at same; cases same; exact short
    | malformed irregular => exact absurd regular irregular
  · exact fun short => .cutInHeader regular rest short

/-- What `JudgedRight` says of regular lines before a body. -/
theorem judgedRight_body {framing : Framing} {content : Bytes} (regular : Regular framing.lines)
    (rest : framing.rest = .body content) :
    JudgedRight framing ↔
      0 ≤ announced framing.lines ∨ sizeT (announced framing.lines) < content.length := by
  constructor
  · intro right
    cases right with
    | body _ same length => rw [rest] at same; cases same; exact length
    | cutInHeader _ other => rw [rest] at other; cases other
    | malformed irregular => exact absurd regular irregular
  · exact fun length => .body regular rest length

/-- Regular lines before a rejected one are never judged right. -/
theorem not_judgedRight_rejected {framing : Framing} {line behind : Bytes}
    (regular : Regular framing.lines) (rest : framing.rest = .rejected line behind) :
    ¬ JudgedRight framing := by
  intro right
  cases right with
  | body _ other => rw [rest] at other; cases other
  | cutInHeader _ other => rw [rest] at other; cases other
  | malformed irregular => exact absurd regular irregular

/-- What `JudgedRight` says of irregular lines. -/
theorem judgedRight_irregular {framing : Framing} (irregular : ¬ Regular framing.lines) :
    JudgedRight framing ↔
      (framing.lines = [] → ∀ first tail, framing.rest = .unterminated first tail →
        bytes ": " <:+: first :: tail) ∧
      sizeT (announced framing.lines) < framing.rest.received.length := by
  constructor
  · intro right
    cases right with
    | body isRegular => exact absurd isRegular irregular
    | cutInHeader isRegular => exact absurd isRegular irregular
    | malformed _ header long => exact ⟨header, long⟩
  · exact fun both => .malformed irregular both.1 both.2

/-- On a readable text the comparison is right exactly as `JudgedRight` says. -/
theorem comparisonExact_iff {framing : Framing} (readable : framing.rest ≠ .exhausted) :
    ComparisonExact framing ↔ JudgedRight framing := by
  by_cases regular : Regular framing.lines
  · cases rest : framing.rest with
    | exhausted => exact absurd rest readable
    | unterminated first tail =>
      have pending : Pending framing := by simp [Pending, rest, regular]
      rw [comparisonExact_of_pending pending, judgedRight_unterminated regular rest, rest]
      rfl
    | body content => rw [comparisonExact_body regular rest, judgedRight_body regular rest]
    | rejected line behind =>
      have incomplete : ¬ Complete framing.text := by simp [complete_iff, rest]
      have settled : ¬ Pending framing := by simp [Pending, rest]
      have wrong := not_judgedRight_rejected regular rest
      rw [comparisonExact_of_neither incomplete settled, rest]
      simp only [Rest.received, List.length_nil, Nat.not_lt_zero, wrong]
  · have incomplete : ¬ Complete framing.text := by
      rw [complete_iff]
      exact fun complete => regular complete.1
    rw [judgedRight_irregular regular]
    by_cases pending : Pending framing
    · rw [comparisonExact_of_pending pending]
      unfold Pending at pending
      cases rest : framing.rest with
      | exhausted => exact absurd rest readable
      | unterminated first tail =>
        simp only [rest, regular, or_false] at pending
        obtain ⟨empty, plain⟩ := pending
        have zero : sizeT (announced []) = 0 := by decide
        simp [empty, zero, plain]
      | body content => simp [rest, regular] at pending
      | rejected line behind => simp [rest] at pending
    · rw [comparisonExact_of_neither incomplete pending]
      refine (and_iff_right ?_).symm
      intro empty first tail rest
      by_contra plain
      exact pending (by simp [Pending, rest, empty, plain])

/-- On a fresh handler `CheckData` answers as the grammar of requests says exactly on the texts
of `JudgedRight`. -/
theorem verdictExact_iff (arg : Nat) (now : Int) (text : Bytes) :
    VerdictExact arg now text ↔ ∃ framing : Framing, framing.text = text ∧ JudgedRight framing := by
  obtain ⟨framing, rfl⟩ := exists_framing text
  have unique : (∃ other : Framing, other.text = framing.text ∧ JudgedRight other) ↔
      JudgedRight framing := by
    constructor
    · rintro ⟨other, same, right⟩
      rwa [Framing.text_injective same] at right
    · exact fun right => ⟨framing, rfl, right⟩
  rw [unique]
  unfold VerdictExact
  rw [extensible_iff]
  by_cases exhausted : framing.rest = .exhausted
  · rw [freshVerdict_exhausted arg now exhausted]
    constructor
    · rintro ⟨ok, pending, error⟩
      exfalso
      have incomplete : ¬ Complete framing.text := fun complete => by cases ok.mpr complete
      by_cases isPending : Pending framing
      · cases pending.mpr ⟨incomplete, isPending⟩
      · cases error.mpr ⟨incomplete, isPending⟩
    · intro right
      cases right with
      | body regular rest => rw [exhausted] at rest; cases rest
      | cutInHeader regular rest => rw [exhausted] at rest; cases rest
      | malformed irregular header long => simp [exhausted, Rest.received] at long
  · rw [freshVerdict_readable arg now exhausted]
    simp only [Except.ok.injEq, judge_eq_dataOk_iff, judge_eq_dataDef_iff, judge_eq_dataError_iff]
    exact comparisonExact_iff exhausted

/-- A line that is no request at all is reported complete. -/
theorem junk_not_judgedRight : ¬ VerdictExact 0 0 (bytes "x\r\n") := by
  intro exact
  have accepted : freshVerdict 0 0 (bytes "x\r\n") = .ok .dataOk := by decide +kernel
  let framing : Framing := .ofRest (.rejected (bytes "x") []) ⟨by decide, by decide, by decide⟩
  have complete : Complete framing.text := exact.1.mp accepted
  rw [complete_iff] at complete
  obtain ⟨-, body, rest, -⟩ := complete
  cases rest

end NetServer
