import NetServer.Lib.Loop
import NetServer.Common.Split

/-!
# The request parser `CHttpParse`

The parser eats its buffer line by line. A line is what stands before the first `"\r\n"`; when
there is none, `get_line` reports an empty line, yet still drops one byte, because
`npos + 2` wraps to 1. An empty line ends the header and turns the rest of the buffer into the
content. Every iteration of the header loop shortens the buffer, so the loop is total.
-/

namespace NetServer

open Lib

/-- `HTTP_METHOD`, its values in the order of the source. -/
inductive HttpMethod where
  | unknow
  | get
  | post
  | header
  deriving DecidableEq, Repr

/-- `CON_TYPE`, its values in the order of the source. -/
inductive ConType where
  | unknow
  | close
  | keepLive
  deriving DecidableEq, Repr

/-- The fields of `CHttpParse`, under the source's names. The buffer `requestData` is a
reference to a string of the owner of the parser, who reads back what parsing leaves in it. -/
structure HttpParse where
  httpMethod : HttpMethod
  connection : ConType
  host : Bytes
  version : Bytes
  userAgent : Bytes
  referer : Bytes
  acceptEncoding : Bytes
  accept : Bytes
  language : Bytes
  contentLenght : Int
  content : Bytes
  requestData : Bytes
  bHeaderDown : Bool
  deriving DecidableEq, Repr

namespace HttpParse

/-- `CHttpParse::SplitString`. -/
def splitString (text : Bytes) (splitchar : UInt8) : List Bytes := splitLoop text splitchar

/-- `CHttpParse::ToUpper`. -/
def toUpper (str : Bytes) : Bytes := str.map toUpperByte

/-- `CHttpParse::parse_header`: the third field of a request line is the version. -/
def parseHeader (parse : HttpParse) (line : Bytes) : HttpParse :=
  match (splitString line 32)[2]? with
  | some field => { parse with version := field }
  | none => parse

/-- `CHttpParse::parse_line`; an unknown key is reported by -1. -/
def parseLine (parse : HttpParse) (keys str : Bytes) : Int × HttpParse :=
  if keys = bytes "HOST" then (0, { parse with host := str })
  else if keys = bytes "CONNECTION" then
    (0, { parse with connection := if str = bytes "keep-alive" then .keepLive else .close })
  else if keys = bytes "ACCEPT" then (0, { parse with accept := str })
  else if keys = bytes "USER-AGENT" then (0, { parse with userAgent := str })
  else if keys = bytes "ACCEPT-ENCODING" then (0, { parse with acceptEncoding := str })
  else if keys = bytes "ACCEPT-LANGUAGE" then (0, { parse with language := str })
  else if keys = bytes "REFERER" then (0, { parse with referer := str })
  else if keys = bytes "CONTENT_LENGHT" then (0, { parse with contentLenght := atoi str })
  else (-1, parse)

/-- `CHttpParse::get_line`. Without a line end the returned line stays empty and the buffer
loses its first byte, since `npos + 2` wraps to 1; on an empty buffer that throws. -/
def getLine (parse : HttpParse) : Except OutOfRange (Bytes × HttpParse) := do
  let pos := find crlf parse.requestData
  let retstr ← match pos with
    | some start => substr parse.requestData 0 start
    | none => pure []
  let rest ← substrFrom parse.requestData (match pos with
    | some start => start + 2
    | none => (npos + 2) % sizeModulus)
  if retstr = [] then
    return (retstr, { parse with content := rest, requestData := [], bHeaderDown := true })
  else
    return (retstr, { parse with requestData := rest })

/-- What the loop of `CHttpParse::parse_line_data_type` does with the line it read: continue
after a header or a request line, return -1 on any other line. -/
def takeLine (parse : HttpParse) (str : Bytes) :
    Except OutOfRange (HttpParse ⊕ (Int × HttpParse)) :=
  match find (bytes ": ") str with
  | some startpos => do
    let keys ← substr str 0 startpos
    let value ← substrFrom str (startpos + 2)
    return .inl (parse.parseLine (toUpper keys) value).2
  | none =>
    if (find (bytes "GET") str).isSome then
      return .inl { parse.parseHeader str with httpMethod := .get }
    else if (find (bytes "POST") str).isSome then
      return .inl { parse.parseHeader str with httpMethod := .post }
    else
      return .inr (-1, parse)

/-- One iteration of the loop of `CHttpParse::parse_line_data_type`. -/
def lineIteration (parse : HttpParse) : Except OutOfRange (HttpParse ⊕ (Int × HttpParse)) :=
  if parse.bHeaderDown then
    return .inr (0, parse)
  else do
    let (str, parse) ← parse.getLine
    parse.takeLine str

/-- What a header can do: it sets the one field of its key, or nothing. -/
inductive Sets (keys : Bytes) : (HttpParse → HttpParse) → Prop
  | host (isKey : keys = bytes "HOST") (str : Bytes) : Sets keys fun parse =>
    { parse with host := str }
  | connection (isKey : keys = bytes "CONNECTION") (type : ConType) :
      Sets keys fun parse => { parse with connection := type }
  | accept (isKey : keys = bytes "ACCEPT") (str : Bytes) : Sets keys fun parse =>
    { parse with accept := str }
  | userAgent (isKey : keys = bytes "USER-AGENT") (str : Bytes) :
      Sets keys fun parse => { parse with userAgent := str }
  | acceptEncoding (isKey : keys = bytes "ACCEPT-ENCODING") (str : Bytes) :
      Sets keys fun parse => { parse with acceptEncoding := str }
  | language (isKey : keys = bytes "ACCEPT-LANGUAGE") (str : Bytes) :
      Sets keys fun parse => { parse with language := str }
  | referer (isKey : keys = bytes "REFERER") (str : Bytes) : Sets keys fun parse =>
    { parse with referer := str }
  | contentLenght (isKey : keys = bytes "CONTENT_LENGHT") (length : Int) :
      Sets keys fun parse => { parse with contentLenght := length }
  | nothing : Sets keys id

/-- `parse_line` does one of these, whatever the other fields are. -/
theorem parseLine_sets (keys str : Bytes) :
    ∃ set, Sets keys set ∧ ∀ parse, (parseLine parse keys str).2 = set parse := by
  by_cases hostKey : keys = bytes "HOST"
  · exact ⟨_, .host hostKey str, fun parse => by rw [parseLine, if_pos hostKey]⟩
  by_cases connectionKey : keys = bytes "CONNECTION"
  · exact ⟨_, .connection connectionKey _,
      fun parse => by rw [parseLine, if_neg hostKey, if_pos connectionKey]⟩
  by_cases acceptKey : keys = bytes "ACCEPT"
  · exact ⟨_, .accept acceptKey str,
      fun parse => by rw [parseLine, if_neg hostKey, if_neg connectionKey, if_pos acceptKey]⟩
  by_cases userAgentKey : keys = bytes "USER-AGENT"
  · refine ⟨_, .userAgent userAgentKey str, fun parse => ?_⟩
    rw [parseLine, if_neg hostKey, if_neg connectionKey, if_neg acceptKey, if_pos userAgentKey]
  by_cases acceptEncodingKey : keys = bytes "ACCEPT-ENCODING"
  · refine ⟨_, .acceptEncoding acceptEncodingKey str, fun parse => ?_⟩
    rw [parseLine, if_neg hostKey, if_neg connectionKey, if_neg acceptKey, if_neg userAgentKey,
      if_pos acceptEncodingKey]
  by_cases languageKey : keys = bytes "ACCEPT-LANGUAGE"
  · refine ⟨_, .language languageKey str, fun parse => ?_⟩
    rw [parseLine, if_neg hostKey, if_neg connectionKey, if_neg acceptKey, if_neg userAgentKey,
      if_neg acceptEncodingKey, if_pos languageKey]
  by_cases refererKey : keys = bytes "REFERER"
  · refine ⟨_, .referer refererKey str, fun parse => ?_⟩
    rw [parseLine, if_neg hostKey, if_neg connectionKey, if_neg acceptKey, if_neg userAgentKey,
      if_neg acceptEncodingKey, if_neg languageKey, if_pos refererKey]
  by_cases contentLenghtKey : keys = bytes "CONTENT_LENGHT"
  · refine ⟨_, .contentLenght contentLenghtKey (atoi str), fun parse => ?_⟩
    rw [parseLine, if_neg hostKey, if_neg connectionKey, if_neg acceptKey, if_neg userAgentKey,
      if_neg acceptEncodingKey, if_neg languageKey, if_neg refererKey, if_pos contentLenghtKey]
  refine ⟨_, .nothing, fun parse => ?_⟩
  rw [parseLine, if_neg hostKey, if_neg connectionKey, if_neg acceptKey, if_neg userAgentKey,
    if_neg acceptEncodingKey, if_neg languageKey, if_neg refererKey, if_neg contentLenghtKey]
  rfl

/-- A header value leaves the buffer alone. -/
@[simp]
theorem parseLine_requestData (parse : HttpParse) (keys str : Bytes) :
    (parse.parseLine keys str).2.requestData = parse.requestData := by
  obtain ⟨set, sets, effect⟩ := parseLine_sets keys str
  rw [effect]
  cases sets <;> rfl

/-- A request line leaves the buffer alone. -/
@[simp]
theorem parseHeader_requestData (parse : HttpParse) (line : Bytes) :
    (parse.parseHeader line).requestData = parse.requestData := by
  unfold parseHeader
  split <;> rfl

/-- On an empty buffer `get_line` throws. -/
theorem getLine_empty {parse : HttpParse} (empty : parse.requestData = []) :
    parse.getLine = .error .outOfRange := by
  simp only [getLine, empty]
  rfl

/-- A non-empty buffer without a line end loses its first byte and becomes the content. -/
theorem getLine_unterminated {parse : HttpParse} {first : UInt8} {rest : Bytes}
    (text : parse.requestData = first :: rest) (clean : ¬ crlf <:+: first :: rest) :
    parse.getLine =
      .ok ([], { parse with content := rest, requestData := [], bHeaderDown := true }) := by
  have missing := (find_eq_none_iff crlf (first :: rest)).mpr clean
  have dropped : substrFrom (first :: rest) ((npos + 2) % sizeModulus) = .ok rest := rfl
  simp only [getLine, text, missing, dropped]
  rfl

/-- The text before the first line end is the line, the text after it the new buffer. -/
theorem getLine_line {parse : HttpParse} {line rest : Bytes}
    (text : parse.requestData = line ++ crlf ++ rest) (clean : ¬ crlf <:+: line)
    (nonempty : line ≠ []) : parse.getLine = .ok (line, { parse with requestData := rest }) := by
  have found : find crlf (line ++ crlf ++ rest) = some line.length := by
    simpa using find_pair_append (by decide) clean rest
  have dropped : substrFrom (line ++ crlf ++ rest) (line.length + 2) = .ok rest := by
    rw [substrFrom_inside (by simp)]
    simp
  simp only [getLine, text, found, substr_zero, dropped]
  simp [bind, Except.bind, pure, Except.pure, nonempty]

/-- A line end at the front is the empty line: the rest of the buffer is the content. -/
theorem getLine_blank {parse : HttpParse} {rest : Bytes}
    (text : parse.requestData = crlf ++ rest) :
    parse.getLine =
      .ok ([], { parse with content := rest, requestData := [], bHeaderDown := true }) := by
  have dropped : substrFrom (crlf ++ rest) (0 + 2) = .ok rest := rfl
  have found : find crlf (crlf ++ rest) = some 0 := rfl
  simp only [getLine, text, found, substr_zero, dropped]
  rfl

/-- Every buffer has one of the four shapes that decide a `get_line`. -/
theorem buffer_cases (text : Bytes) :
    text = [] ∨ (∃ first rest, text = first :: rest ∧ ¬ crlf <:+: first :: rest) ∨
      (∃ rest, text = crlf ++ rest) ∨
      ∃ line rest, text = line ++ crlf ++ rest ∧ ¬ crlf <:+: line ∧ line ≠ [] := by
  cases search : find crlf text with
  | none =>
    have clean := (find_eq_none_iff crlf text).mp search
    cases text with
    | nil => exact .inl rfl
    | cons first rest => exact .inr (.inl ⟨first, rest, rfl, clean⟩)
  | some position =>
    obtain ⟨line, rest, split, -, clean⟩ := find_eq_some (by decide) search
    by_cases empty : line = []
    · subst empty
      exact .inr (.inr (.inl ⟨rest, by simpa using split⟩))
    · exact .inr (.inr (.inr ⟨line, rest, split, clean, empty⟩))

/-- Every `get_line` that does not throw shortens the buffer. -/
theorem getLine_shorter {parse after : HttpParse} {line : Bytes}
    (read : parse.getLine = .ok (line, after)) :
    after.requestData.length < parse.requestData.length := by
  rcases buffer_cases parse.requestData with empty | ⟨first, rest, text, clean⟩ | ⟨rest, text⟩ |
    ⟨front, rest, text, clean, nonempty⟩
  · rw [getLine_empty empty] at read
    cases read
  · rw [getLine_unterminated text clean] at read
    cases read
    simp [text]
  · rw [getLine_blank text] at read
    cases read
    simp [text]
  · rw [getLine_line text clean nonempty] at read
    cases read
    simp [text]
    omega

/-- A line over which the header loop goes on: a header or a request line. -/
def Accepted (line : Bytes) : Prop :=
  bytes ": " <:+: line ∨ bytes "GET" <:+: line ∨ bytes "POST" <:+: line

instance (line : Bytes) : Decidable (Accepted line) := inferInstanceAs (Decidable (_ ∨ _ ∨ _))

/-- What an accepted line does to the fields. -/
def applyLine (parse : HttpParse) (line : Bytes) : HttpParse :=
  match find (bytes ": ") line with
  | some startpos =>
    (parse.parseLine (toUpper (line.take startpos)) (line.drop (startpos + 2))).2
  | none =>
    { parse.parseHeader line with
      httpMethod := if (find (bytes "GET") line).isSome then .get else .post }

/-- An accepted line leaves the buffer alone. -/
@[simp]
theorem applyLine_requestData (parse : HttpParse) (line : Bytes) :
    (parse.applyLine line).requestData = parse.requestData := by
  unfold applyLine
  split <;> simp

/-- The loop goes on over an accepted line and returns -1 on any other. -/
theorem takeLine_eq (parse : HttpParse) (line : Bytes) :
    parse.takeLine line =
      if Accepted line then .ok (.inl (parse.applyLine line)) else .ok (.inr (-1, parse)) := by
  cases search : find (bytes ": ") line with
  | some position =>
    obtain ⟨before, after, split, length, -⟩ := find_eq_some (by decide) search
    have accepted : Accepted line :=
      .inl ((find_isSome_iff _ _).mp (by simp [search]))
    have inside : position + 2 ≤ line.length := by
      rw [split, ← length]
      simp [bytes]
    simp only [takeLine, search, substr_zero, substrFrom_inside inside, accepted, applyLine,
      ↓reduceIte]
    rfl
  | none =>
    have plain := (find_eq_none_iff _ _).mp search
    by_cases get : bytes "GET" <:+: line
    · simp [takeLine, applyLine, search, Accepted, plain, find_isSome_iff, get, pure, Except.pure]
    · by_cases post : bytes "POST" <:+: line
      · simp [takeLine, applyLine, search, Accepted, plain, find_isSome_iff, get, post, pure,
          Except.pure]
      · simp [takeLine, search, Accepted, plain, find_isSome_iff, get, post, pure, Except.pure]

/-- A continuing iteration of the header loop has read an accepted line. -/
theorem lineIteration_continues {parse next : HttpParse}
    (continued : parse.lineIteration = .ok (.inl next)) :
    ∃ line after, parse.getLine = .ok (line, after) ∧ Accepted line ∧
      next = after.applyLine line := by
  unfold lineIteration at continued
  split at continued
  · cases continued
  · obtain ⟨⟨line, after⟩, read, taken⟩ := bind_eq_ok.mp continued
    change after.takeLine line = _ at taken
    rw [takeLine_eq] at taken
    split at taken
    · rename_i accepted
      cases taken
      exact ⟨line, after, read, accepted, rfl⟩
    · cases taken

/-- Every continuing iteration of the header loop shortens the buffer. -/
theorem lineIteration_shrinks (parse next : HttpParse)
    (continued : parse.lineIteration = .ok (.inl next)) :
    next.requestData.length < parse.requestData.length := by
  obtain ⟨line, after, read, -, rfl⟩ := lineIteration_continues continued
  rw [applyLine_requestData]
  exact getLine_shorter read

/-- `CHttpParse::parse_line_data_type`. -/
def parseLineDataType (parse : HttpParse) : Except OutOfRange (Int × HttpParse) :=
  loop lineIteration (fun state => state.requestData.length) lineIteration_shrinks parse

/-- `CHttpParse::parse_request` without an argument; a nonzero result is only logged. -/
def parseRequest (parse : HttpParse) : Except OutOfRange HttpParse := do
  let (_, parse) ← parse.parseLineDataType
  return parse

/-- The fields the constructor sets, before it parses its buffer. It leaves `m_connection` as
the memory had it. -/
def fresh (memory : ConType) (request : Bytes) : HttpParse where
  httpMethod := .unknow
  connection := memory
  host := []
  version := []
  userAgent := []
  referer := []
  acceptEncoding := []
  accept := []
  language := []
  contentLenght := 0
  content := []
  requestData := request
  bHeaderDown := false

/-- The constructor on a buffer. -/
def construct (memory : ConType) (request : Bytes) : Except OutOfRange HttpParse :=
  (fresh memory request).parseRequest

/-- `CHttpParse::parse_request` on a new buffer: every field is reset first. -/
def parseRequestOn (parse : HttpParse) (request : Bytes) : Except OutOfRange HttpParse :=
  parseRequest
    { parse with
      requestData := request, httpMethod := .unknow, connection := .unknow, host := [],
      version := [], userAgent := [], referer := [], acceptEncoding := [], accept := [],
      language := [], content := [], contentLenght := 0, bHeaderDown := false }

/-! ## The header loop ends -/

/-- An empty line is not accepted. -/
theorem not_accepted_nil : ¬Accepted [] := by decide

/-- A `get_line` that gives a line takes its end off the buffer too. -/
theorem getLine_takes {parse after : HttpParse} {line : Bytes}
    (read : parse.getLine = .ok (line, after)) (nonempty : line ≠ []) :
    parse.requestData.length = line.length + 2 + after.requestData.length := by
  rcases buffer_cases parse.requestData with empty | ⟨first, rest, text, clean⟩ | ⟨rest, text⟩ |
    ⟨front, rest, text, clean, letters⟩
  · rw [getLine_empty empty] at read
    cases read
  · rw [getLine_unterminated text clean] at read
    cases read
    exact absurd rfl nonempty
  · rw [getLine_blank text] at read
    cases read
    exact absurd rfl nonempty
  · rw [getLine_line text clean letters] at read
    cases read
    rw [text, List.length_append, List.length_append]
    rfl

/-- Every continuing iteration of the header loop takes a line end, and more, off the buffer. -/
theorem lineIteration_drops (parse next : HttpParse)
    (continued : parse.lineIteration = .ok (.inl next)) :
    next.requestData.length + 2 ≤ parse.requestData.length := by
  obtain ⟨line, after, read, accepted, rfl⟩ := lineIteration_continues continued
  have nonempty : line ≠ [] := fun empty => not_accepted_nil (empty ▸ accepted)
  have length := getLine_takes read nonempty
  rw [applyLine_requestData]
  omega

/-- Every `get_line` that does not throw shortens the buffer, also where there is no line end: then
the first byte is dropped. So the header loop ends, and it reads no more lines than one and half as
many as the buffer has characters. -/
theorem parseLineDataType_stops (parse : HttpParse) :
    (∀ line after, parse.getLine = .ok (line, after) →
      after.requestData.length < parse.requestData.length) ∧
      (∀ first rest, parse.requestData = first :: rest → find crlf parse.requestData = none →
        parse.getLine =
          .ok ([], { parse with content := rest, requestData := [], bHeaderDown := true })) ∧
      loopWithin lineIteration (parse.requestData.length / 2 + 1) parse =
        some parse.parseLineDataType := by
  refine ⟨fun line after read => getLine_shorter read, ?_, ?_⟩
  · intro first rest text missing
    rw [text] at missing
    exact getLine_unterminated text ((find_eq_none_iff crlf (first :: rest)).mp missing)
  · have enough : parse.requestData.length < 2 * (parse.requestData.length / 2 + 1) := by omega
    exact loopWithin_eq_loop enough lineIteration_drops

/-- Two bytes without a line end are read in two passes at most, and the second one is the
content. -/
theorem parseLineDataType_stops_two :
    find crlf (fresh .unknow (bytes "ab")).requestData = none ∧
      (fresh .unknow (bytes "ab")).getLine =
        .ok ([],
          { fresh .unknow (bytes "ab") with
            content := bytes "b", requestData := [], bHeaderDown := true }) ∧
      loopWithin lineIteration 2 (fresh .unknow (bytes "ab")) =
        some (fresh .unknow (bytes "ab")).parseLineDataType := by
  have stops := parseLineDataType_stops (fresh .unknow (bytes "ab"))
  exact ⟨by decide, stops.2.1 97 [98] rfl (by decide), stops.2.2⟩

end HttpParse

end NetServer
