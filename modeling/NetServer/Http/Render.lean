import NetServer.Http.Fields

/-!
# Rendering a request and parsing it back

A request is a request line, header lines `key: value`, an empty line and a body. Parsing
the rendered text recovers the body and, for each header the parser knows, the value of the
last one with that key, upper and lower case of the key not distinguished.
-/

namespace NetServer

open Lib HttpParse

/-- The text of a header line. -/
def headerLine (header : Bytes × Bytes) : Bytes := header.1 ++ bytes ": " ++ header.2

/-- A request line: one line that names a method and does not look like a header. -/
structure IsRequestLine (line : Bytes) : Prop where
  clean : Clean line
  plain : ¬ bytes ": " <:+: line
  method : bytes "GET" <:+: line ∨ bytes "POST" <:+: line

/-- A header whose first `": "` separates its key from its value. -/
structure IsHeader (header : Bytes × Bytes) : Prop where
  key : ¬ bytes ": " <:+: header.1
  cleanKey : Clean header.1
  cleanValue : Clean header.2

/-- The text of a whole request. -/
def renderRequest (requestLine : Bytes) (headers : List (Bytes × Bytes)) (body : Bytes) : Bytes :=
  linesText (requestLine :: headers.map headerLine) ++ crlf ++ body

/-- A header line is one line. -/
theorem IsHeader.clean {header : Bytes × Bytes} (isHeader : IsHeader header) :
    Clean (headerLine header) := by
  have separator : ¬ crlf <:+: bytes ": " := by decide
  have last : (header.1 ++ bytes ": ").getLast? = some 32 := by
    rw [List.getLast?_append]
    rfl
  have first : (bytes ": ").head? = some 58 := rfl
  unfold Clean headerLine
  rw [pair_infix_append, pair_infix_append, last, first]
  rintro ((inKey | inSeparator | ⟨-, across⟩) | inValue | ⟨across, -⟩)
  · exact isHeader.cleanKey inKey
  · exact separator inSeparator
  · cases across
  · exact isHeader.cleanValue inValue
  · cases across

/-- The first `": "` of a header line stands right behind its key. -/
theorem IsHeader.find_separator {header : Bytes × Bytes} (isHeader : IsHeader header) :
    find (bytes ": ") (headerLine header) = some header.1.length := by
  have found := find_pair_append (a := (58 : UInt8)) (b := 32) (by decide) isHeader.key header.2
  simpa [headerLine, bytes] using found

/-- A header line is read as its key and value. -/
theorem headerOf_headerLine {header : Bytes × Bytes} (isHeader : IsHeader header) :
    headerOf (headerLine header) = some header := by
  have key : (headerLine header).take header.1.length = header.1 := by simp [headerLine]
  have value : (headerLine header).drop (header.1.length + 2) = header.2 := by
    rw [← List.drop_drop]
    simp [headerLine, bytes]
  simp only [headerOf, isHeader.find_separator, Option.map_some, key, value]

/-- The headers read from a request line and header lines are the headers of these lines. -/
theorem filterMap_headerOf {requestLine : Bytes} {headers : List (Bytes × Bytes)}
    (isRequest : IsRequestLine requestLine) (areHeaders : ∀ header ∈ headers, IsHeader header) :
    (requestLine :: headers.map headerLine).filterMap headerOf = headers := by
  rw [List.filterMap_cons_none ((headerOf_eq_none_iff _).mpr isRequest.plain)]
  induction headers with
  | nil => rfl
  | cons header headers ih =>
    have read := headerOf_headerLine (areHeaders header (by simp))
    rw [List.map_cons, List.filterMap_cons_some read, ih fun h member =>
      areHeaders h (by simp [member])]

/-- A well-formed request, framed as the parser frames it. -/
def requestFraming {requestLine : Bytes} {headers : List (Bytes × Bytes)} (body : Bytes)
    (isRequest : IsRequestLine requestLine) (areHeaders : ∀ header ∈ headers, IsHeader header) :
    Framing where
  lines := requestLine :: headers.map headerLine
  rest := .body body
  clean := by
    intro line member
    rcases List.mem_cons.mp member with rfl | member
    · exact isRequest.clean
    · obtain ⟨header, listed, rfl⟩ := List.mem_map.mp member
      exact (areHeaders header listed).clean
  accepted := by
    intro line member
    rcases List.mem_cons.mp member with rfl | member
    · exact .inr isRequest.method
    · obtain ⟨header, listed, rfl⟩ := List.mem_map.mp member
      exact .inl ⟨header.1, header.2, rfl⟩
  wellFormed := trivial

/-- The framing of a well-formed request frames its text. -/
theorem requestFraming_text {requestLine : Bytes} {headers : List (Bytes × Bytes)} (body : Bytes)
    (isRequest : IsRequestLine requestLine) (areHeaders : ∀ header ∈ headers, IsHeader header) :
    (requestFraming body isRequest areHeaders).text = renderRequest requestLine headers body := by
  simp [requestFraming, Framing.text, Rest.text, renderRequest]

/-- No header line changes the version. -/
theorem applyLines_version {headers : List (Bytes × Bytes)}
    (areHeaders : ∀ header ∈ headers, IsHeader header) (parse : HttpParse) :
    (parse.applyLines (headers.map headerLine)).version = parse.version := by
  have kept (p : HttpParse) (keys value : Bytes) :
      (p.parseLine keys value).2.version = p.version := by
    obtain ⟨set, sets, effect⟩ := parseLine_sets keys value
    rw [effect]
    cases sets <;> rfl
  unfold applyLines
  induction headers generalizing parse with
  | nil => rfl
  | cons header headers ih =>
    rw [List.map_cons, List.foldl_cons, ih fun h member => areHeaders h (by simp [member])]
    rcases applyLine_cases parse (headerLine header) with ⟨read, -, effect⟩ | ⟨noHeader, -⟩
    · rw [effect, kept]
    · rw [headerOf_headerLine (areHeaders header (by simp))] at noHeader
      cases noHeader

/-- Constructing a parser on a well-formed request applies its lines and keeps its body. -/
theorem construct_render (memory : ConType) {requestLine : Bytes}
    {headers : List (Bytes × Bytes)} (body : Bytes) (isRequest : IsRequestLine requestLine)
    (areHeaders : ∀ header ∈ headers, IsHeader header) :
    construct memory (renderRequest requestLine headers body) =
      .ok { (fresh memory (renderRequest requestLine headers body)).applyLines
          (requestLine :: headers.map headerLine) with
        content := body, requestData := [], bHeaderDown := true } := by
  have read := parseLineDataType_framing (requestFraming body isRequest areHeaders)
    (fresh memory (renderRequest requestLine headers body)) rfl
    (requestFraming_text body isRequest areHeaders).symm
  rw [construct, parseRequest, read]
  rfl

/-- Parsing undoes rendering: the body comes back whole, whatever bytes it has, the content
length and the known headers come from the last header with their key, and the version is the
third field of the request line. -/
theorem parse_render (memory : ConType) (requestLine : Bytes) (headers : List (Bytes × Bytes))
    (body : Bytes) (isRequest : IsRequestLine requestLine)
    (areHeaders : ∀ header ∈ headers, IsHeader header) :
    ∃ parse, construct memory (renderRequest requestLine headers body) = .ok parse ∧
      parse.content = body ∧
      parse.contentLenght = ((lastValue (bytes "CONTENT_LENGHT") headers).map atoi).getD 0 ∧
      parse.host = (lastValue (bytes "HOST") headers).getD [] ∧
      parse.accept = (lastValue (bytes "ACCEPT") headers).getD [] ∧
      parse.userAgent = (lastValue (bytes "USER-AGENT") headers).getD [] ∧
      parse.acceptEncoding = (lastValue (bytes "ACCEPT-ENCODING") headers).getD [] ∧
      parse.language = (lastValue (bytes "ACCEPT-LANGUAGE") headers).getD [] ∧
      parse.referer = (lastValue (bytes "REFERER") headers).getD [] ∧
      (2 < (splitString requestLine 32).length →
        (splitString requestLine 32)[2]? = some parse.version) := by
  have headersRead := filterMap_headerOf isRequest areHeaders
  have text (field : HttpParse → Bytes) (key : Bytes)
      (set : ∀ parse keys value, field (parseLine parse keys value).2 =
        if keys = key then value else field parse)
      (unset : ∀ (parse : HttpParse) version method,
        field { parse with version := version, httpMethod := method } = field parse)
      (empty : field (fresh memory (renderRequest requestLine headers body)) = []) :
      field ((fresh memory (renderRequest requestLine headers body)).applyLines
        (requestLine :: headers.map headerLine)) = (lastValue key headers).getD [] := by
    rw [applyLines_field field key id set (parseHeader_kept field unset), headersRead, empty,
      Option.map_id_fun, id]
  refine ⟨_, construct_render memory body isRequest areHeaders, rfl, ?_, ?_, ?_, ?_, ?_, ?_, ?_, ?_⟩
  · rw [applyLines_contentLenght rfl, announced, headersRead]
  · exact text host (bytes "HOST") parseLine_host (fun _ _ _ => rfl) rfl
  · exact text accept (bytes "ACCEPT") parseLine_accept (fun _ _ _ => rfl) rfl
  · exact text userAgent (bytes "USER-AGENT") parseLine_userAgent (fun _ _ _ => rfl) rfl
  · exact text acceptEncoding (bytes "ACCEPT-ENCODING") parseLine_acceptEncoding
      (fun _ _ _ => rfl) rfl
  · exact text language (bytes "ACCEPT-LANGUAGE") parseLine_language (fun _ _ _ => rfl) rfl
  · exact text referer (bytes "REFERER") parseLine_referer (fun _ _ _ => rfl) rfl
  · intro third
    have absent := (find_eq_none_iff _ _).mpr isRequest.plain
    have started : (applyLine (fresh memory (renderRequest requestLine headers body))
        requestLine).version = (splitString requestLine 32)[2] := by
      simp only [applyLine, absent, parseHeader, List.getElem?_eq_getElem third]
    rw [List.getElem?_eq_getElem third, applyLines, List.foldl_cons, ← started]
    exact congrArg some (applyLines_version areHeaders _).symm

/-- A small request with a body that holds a line end, parsed back. -/
theorem parse_render_post :
    ∃ parse, construct .unknow (renderRequest (bytes "POST /x HTTP/1.1")
        [(bytes "Host", bytes "a"), (bytes "Content_Lenght", bytes "3")] (bytes "a\r\n")) =
          .ok parse ∧
      parse.content = bytes "a\r\n" ∧ parse.contentLenght = 3 ∧ parse.host = bytes "a" ∧
      parse.version = bytes "HTTP/1.1" := by
  obtain ⟨parse, built, content, length, host, -, -, -, -, -, version⟩ :=
    parse_render .unknow (bytes "POST /x HTTP/1.1")
      [(bytes "Host", bytes "a"), (bytes "Content_Lenght", bytes "3")] (bytes "a\r\n")
      ⟨by decide, by decide, by decide⟩ (by
        intro header member
        simp only [List.mem_cons, List.not_mem_nil, or_false] at member
        rcases member with rfl | rfl <;> exact ⟨by decide, by decide, by decide⟩)
  refine ⟨parse, built, content, length.trans (by decide), host.trans (by decide), ?_⟩
  exact (Option.some.inj ((version (by decide)).symm.trans (by decide)))

end NetServer
