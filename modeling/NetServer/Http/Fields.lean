import NetServer.Http.Framing

/-!
# What accepted lines do to the fields

A header line sets at most one field, from its value; a request line sets the method and the
version. After any lines a header field holds the value of the last header line with its key,
upper and lower case of the key not distinguished.
-/

namespace NetServer

open Lib HttpParse

/-- Key and value of a line, cut at its first `": "`; a line without one is no header. -/
def headerOf (line : Bytes) : Option (Bytes × Bytes) :=
  (find (bytes ": ") line).map fun position => (line.take position, line.drop (position + 2))

/-- The value of the last header whose upper-cased key is the given one. -/
def lastValue (key : Bytes) (headers : List (Bytes × Bytes)) : Option Bytes :=
  (headers.filter fun header => toUpper header.1 = key).getLast?.map (·.2)

/-- The content length that lines announce: the number in the last `CONTENT_LENGHT` header,
zero without one. -/
def announced (lines : List Bytes) : Int :=
  ((lastValue (bytes "CONTENT_LENGHT") (lines.filterMap headerOf)).map atoi).getD 0

/-- A line without `": "` is no header. -/
theorem headerOf_eq_none_iff (line : Bytes) : headerOf line = none ↔ ¬ bytes ": " <:+: line := by
  rw [headerOf, Option.map_eq_none_iff, find_eq_none_iff]

/-- Announced lengths are values of `int`. -/
theorem announced_range (lines : List Bytes) :
    -2 ^ 31 ≤ announced lines ∧ announced lines < 2 ^ 31 := by
  unfold announced
  cases lastValue (bytes "CONTENT_LENGHT") (lines.filterMap headerOf) with
  | none => decide
  | some value => exact atoi_range value

/-- An accepted line sets the fields of its key, or the method and the version. -/
theorem applyLine_cases (parse : HttpParse) (line : Bytes) :
    (∃ header, headerOf line = some header ∧
      parse.applyLine line = (parse.parseLine (toUpper header.1) header.2).2) ∨
    (headerOf line = none ∧ ∃ method, parse.applyLine line =
      { parse.parseHeader line with httpMethod := method }) := by
  unfold headerOf applyLine
  cases find (bytes ": ") line with
  | some position => exact .inl ⟨_, rfl, rfl⟩
  | none => exact .inr ⟨rfl, _, rfl⟩

/-- A field that header lines set from the value of one key, and request lines leave alone,
ends with the value of the last header with that key, or as it was. -/
theorem applyLines_field {β : Type} (field : HttpParse → β) (key : Bytes) (convert : Bytes → β)
    (set : ∀ parse keys value, field (parseLine parse keys value).2 =
      if keys = key then convert value else field parse)
    (kept : ∀ parse line method,
      field { parseHeader parse line with httpMethod := method } = field parse)
    (lines : List Bytes) (parse : HttpParse) :
    field (parse.applyLines lines) =
      ((lastValue key (lines.filterMap headerOf)).map convert).getD (field parse) := by
  have folded : field (parse.applyLines lines) = (lines.filterMap headerOf).foldl
      (fun current header => if toUpper header.1 = key then convert header.2 else current)
      (field parse) := by
    unfold applyLines
    induction lines generalizing parse with
    | nil => rfl
    | cons line lines ih =>
      rw [List.foldl_cons, ih]
      rcases applyLine_cases parse line with ⟨header, isHeader, effect⟩ | ⟨noHeader, method, effect⟩
      · rw [List.filterMap_cons_some isHeader, List.foldl_cons, effect, set]
      · rw [List.filterMap_cons_none noHeader, effect, kept]
  have last := foldl_overwrite (fun header : Bytes × Bytes => toUpper header.1 = key)
    (fun header => convert header.2) (field parse) (lines.filterMap headerOf)
  simp only [decide_eq_true_eq] at last
  rw [folded, last, lastValue, Option.map_map]
  rfl

/-- A field that one key sets from the value, and the other keys leave alone. -/
theorem parseLine_field {β : Type} (field : HttpParse → β) (key : Bytes) (convert : Bytes → β)
    (own : ∀ parse value, field (parseLine parse key value).2 = convert value)
    (others : ∀ keys set, keys ≠ key → Sets keys set → ∀ parse, field (set parse) = field parse)
    (parse : HttpParse) (keys value : Bytes) :
    field (parse.parseLine keys value).2 = if keys = key then convert value else field parse := by
  by_cases same : keys = key
  · rw [same, if_pos rfl, own]
  · obtain ⟨set, sets, effect⟩ := parseLine_sets keys value
    rw [if_neg same, effect, others keys set same sets]

section Keys

variable (parse : HttpParse) (keys value : Bytes)

/-- Only the key `CONTENT_LENGHT` sets `contentLenght`. -/
theorem parseLine_contentLenght : (parse.parseLine keys value).2.contentLenght =
    if keys = bytes "CONTENT_LENGHT" then atoi value else parse.contentLenght := by
  refine parseLine_field contentLenght (bytes "CONTENT_LENGHT") atoi (fun _ _ => rfl)
    (fun keys set differs sets parse => ?_) parse keys value
  cases sets <;> first | rfl | exact absurd ‹_› differs

/-- Only the key `HOST` sets `host`. -/
theorem parseLine_host : (parse.parseLine keys value).2.host =
    if keys = bytes "HOST" then value else parse.host := by
  refine parseLine_field host (bytes "HOST") id (fun _ _ => rfl)
    (fun keys set differs sets parse => ?_) parse keys value
  cases sets <;> first | rfl | exact absurd ‹_› differs

/-- Only the key `ACCEPT` sets `accept`. -/
theorem parseLine_accept : (parse.parseLine keys value).2.accept =
    if keys = bytes "ACCEPT" then value else parse.accept := by
  refine parseLine_field accept (bytes "ACCEPT") id (fun _ _ => rfl)
    (fun keys set differs sets parse => ?_) parse keys value
  cases sets <;> first | rfl | exact absurd ‹_› differs

/-- Only the key `USER-AGENT` sets `userAgent`. -/
theorem parseLine_userAgent : (parse.parseLine keys value).2.userAgent =
    if keys = bytes "USER-AGENT" then value else parse.userAgent := by
  refine parseLine_field userAgent (bytes "USER-AGENT") id (fun _ _ => rfl)
    (fun keys set differs sets parse => ?_) parse keys value
  cases sets <;> first | rfl | exact absurd ‹_› differs

/-- Only the key `ACCEPT-ENCODING` sets `acceptEncoding`. -/
theorem parseLine_acceptEncoding : (parse.parseLine keys value).2.acceptEncoding =
    if keys = bytes "ACCEPT-ENCODING" then value else parse.acceptEncoding := by
  refine parseLine_field acceptEncoding (bytes "ACCEPT-ENCODING") id (fun _ _ => rfl)
    (fun keys set differs sets parse => ?_) parse keys value
  cases sets <;> first | rfl | exact absurd ‹_› differs

/-- Only the key `ACCEPT-LANGUAGE` sets `language`. -/
theorem parseLine_language : (parse.parseLine keys value).2.language =
    if keys = bytes "ACCEPT-LANGUAGE" then value else parse.language := by
  refine parseLine_field language (bytes "ACCEPT-LANGUAGE") id (fun _ _ => rfl)
    (fun keys set differs sets parse => ?_) parse keys value
  cases sets <;> first | rfl | exact absurd ‹_› differs

/-- Only the key `REFERER` sets `referer`. -/
theorem parseLine_referer : (parse.parseLine keys value).2.referer =
    if keys = bytes "REFERER" then value else parse.referer := by
  refine parseLine_field referer (bytes "REFERER") id (fun _ _ => rfl)
    (fun keys set differs sets parse => ?_) parse keys value
  cases sets <;> first | rfl | exact absurd ‹_› differs

end Keys

/-- A request line sets no header field, whatever method it names. -/
theorem parseHeader_kept {β : Type} (field : HttpParse → β)
    (unset : ∀ (parse : HttpParse) version method,
      field { parse with version := version, httpMethod := method } = field parse)
    (parse : HttpParse) (line : Bytes) (method : HttpMethod) :
    field { parse.parseHeader line with httpMethod := method } = field parse := by
  unfold parseHeader
  split
  · exact unset parse _ method
  · exact unset parse parse.version method

/-- After any lines the content length is the announced one, when it started at zero. -/
theorem applyLines_contentLenght {parse : HttpParse} (zero : parse.contentLenght = 0)
    (lines : List Bytes) : (parse.applyLines lines).contentLenght = announced lines := by
  rw [applyLines_field contentLenght (bytes "CONTENT_LENGHT") atoi parseLine_contentLenght
    (parseHeader_kept contentLenght fun _ _ _ => rfl) lines parse, zero]
  rfl

/-- Header lines change only header fields: the content stays. -/
theorem applyLines_content (parse : HttpParse) (lines : List Bytes) :
    (parse.applyLines lines).content = parse.content := by
  have line (p : HttpParse) (l : Bytes) : (p.applyLine l).content = p.content := by
    rcases applyLine_cases p l with ⟨header, -, effect⟩ | ⟨-, method, effect⟩
    · obtain ⟨set, sets, applied⟩ := parseLine_sets (toUpper header.1) header.2
      rw [effect, applied]
      cases sets <;> rfl
    · rw [effect]
      exact parseHeader_kept content (fun _ _ _ => rfl) p l method
  unfold applyLines
  induction lines generalizing parse with
  | nil => rfl
  | cons l lines ih => rw [List.foldl_cons, ih, line]

/-- The content the parser finds behind accepted lines: unterminated bytes lose their first. -/
def Rest.received : Rest → Bytes
  | .exhausted => []
  | .unterminated _ tail => tail
  | .body content => content
  | .rejected _ _ => []

/-- The bytes the parser leaves unread: those behind a rejected line. -/
def Rest.unread : Rest → Bytes
  | .rejected _ behind => behind
  | _ => []

/-- Constructing a parser on a framed text that is not exhausted: the content is what the rest
holds, the content length what the lines announce. -/
theorem construct_framing (memory : ConType) (framing : Framing)
    (readable : framing.rest ≠ .exhausted) :
    ∃ parse, construct memory framing.text = .ok parse ∧ parse.content = framing.rest.received ∧
      parse.contentLenght = announced framing.lines ∧ parse.requestData = framing.rest.unread := by
  have read := parseLineDataType_framing framing (fresh memory framing.text) rfl rfl
  have length : ((fresh memory framing.text).applyLines framing.lines).contentLenght = _ :=
    applyLines_contentLenght rfl framing.lines
  have empty := applyLines_content (fresh memory framing.text) framing.lines
  rw [construct, parseRequest, read, outcome]
  cases rest : framing.rest with
  | exhausted => exact absurd rest readable
  | unterminated first tail => exact ⟨_, rfl, rfl, length, rfl⟩
  | body content => exact ⟨_, rfl, rfl, length, rfl⟩
  | rejected line behind => exact ⟨_, rfl, empty, length, rfl⟩

/-- Constructing a parser on an exhausted text throws. -/
theorem construct_exhausted (memory : ConType) {framing : Framing}
    (exhausted : framing.rest = .exhausted) :
    construct memory framing.text = .error .outOfRange :=
  (parseRequest_throws_iff rfl).mpr ((framing.exhausted_iff).mp exhausted)

end NetServer
