import NetServer.Http.Fields

/-!
# Parsing again and parsing anew

`parse_request` on a new buffer resets every field, while the constructor sets all of them but
`m_connection`, which keeps what the memory held. The two agree on a text whose header names a
connection type, and otherwise only if the memory happened to hold `CON_UNKNOW`.
-/

namespace NetServer

open Lib

namespace HttpParse

/-- Re-parsing starts from the fields that a constructor on cleared memory starts from. -/
theorem parseRequestOn_eq_fresh (parse : HttpParse) (request : Bytes) :
    parse.parseRequestOn request = (fresh .unknow request).parseRequest := rfl

/-- Only the key `CONNECTION` sets `connection`. -/
theorem parseLine_connection (parse : HttpParse) (keys value : Bytes) :
    (parse.parseLine keys value).2.connection =
      if keys = bytes "CONNECTION" then (if value = bytes "keep-alive" then .keepLive else .close)
      else parse.connection := by
  refine parseLine_field connection (bytes "CONNECTION")
    (fun value => if value = bytes "keep-alive" then .keepLive else .close) (fun _ _ => rfl)
    (fun keys set differs sets parse => ?_) parse keys value
  cases sets <;> first | rfl | exact absurd ‹_› differs

/-- What a header does to the other fields does not depend on the connection type. -/
theorem parseLine_setConnection (parse : HttpParse) (memory : ConType) (keys value : Bytes) :
    ∃ connection, ({ parse with connection := memory }.parseLine keys value).2 =
      { (parse.parseLine keys value).2 with connection } := by
  obtain ⟨set, sets, effect⟩ := parseLine_sets keys value
  rw [effect, effect]
  cases sets <;> exact ⟨_, rfl⟩

/-- Neither does what a line does. -/
theorem applyLine_setConnection (parse : HttpParse) (memory : ConType) (line : Bytes) :
    ∃ connection, { parse with connection := memory }.applyLine line =
      { parse.applyLine line with connection } := by
  unfold applyLine
  cases find (bytes ": ") line with
  | some startpos => exact parseLine_setConnection parse memory _ _
  | none =>
    unfold parseHeader
    cases (splitString line 32)[2]? <;> exact ⟨_, rfl⟩

/-- The same for several lines. -/
theorem applyLines_setConnection (parse : HttpParse) (memory : ConType) (lines : List Bytes) :
    ∃ connection, { parse with connection := memory }.applyLines lines =
      { parse.applyLines lines with connection } := by
  unfold applyLines
  induction lines generalizing parse memory with
  | nil => exact ⟨memory, rfl⟩
  | cons line lines ih =>
    obtain ⟨connection, taken⟩ := applyLine_setConnection parse memory line
    rw [List.foldl_cons, List.foldl_cons, taken]
    exact ih (parse.applyLine line) connection

end HttpParse

/-- Whether a header line has the key `Connection`, in any case. -/
def IsConnection (line : Bytes) : Prop :=
  ∃ header, headerOf line = some header ∧ HttpParse.toUpper header.1 = bytes "CONNECTION"

/-- A text whose header names a connection type: a `Connection` header is among the lines it starts
with. -/
def NamesConnection (text : Bytes) : Prop :=
  ∃ lines behind, text = linesText lines ++ behind ∧
    (∀ line ∈ lines, Clean line ∧ HttpParse.Accepted line) ∧ ∃ line ∈ lines, IsConnection line

/-- Lines in front of a framed text belong to its framing. -/
theorem namesConnection_iff (framing : Framing) :
    NamesConnection framing.text ↔ ∃ line ∈ framing.lines, IsConnection line := by
  constructor
  · rintro ⟨lines, behind, text, accepted, line, listed, isConnection⟩
    obtain ⟨rest, isBehind⟩ := exists_framing behind
    -- The lines and the framing of what is behind them make a framing, and a text has only one.
    have joined : framing = ⟨lines ++ rest.lines, rest.rest,
        List.forall_mem_append.mpr ⟨fun line listed => (accepted line listed).1, rest.clean⟩,
        List.forall_mem_append.mpr ⟨fun line listed => (accepted line listed).2, rest.accepted⟩,
        rest.wellFormed⟩ := by
      apply Framing.text_injective
      rw [text, ← isBehind]
      simp [Framing.text, linesText]
    rw [joined]
    exact ⟨line, List.mem_append_left _ listed, isConnection⟩
  · rintro ⟨line, listed, isConnection⟩
    refine ⟨framing.lines, framing.rest.text, rfl, fun line listed => ?_, line, listed,
      isConnection⟩
    exact ⟨framing.clean line listed, framing.accepted line listed⟩

/-- There is a last `Connection` header exactly when there is one. -/
theorem lastValue_connection_isSome (lines : List Bytes) :
    (lastValue (bytes "CONNECTION") (lines.filterMap headerOf)).isSome ↔
      ∃ line ∈ lines, IsConnection line := by
  simp only [lastValue, Option.isSome_map, List.getLast?_isSome, ne_eq, List.filter_eq_nil_iff,
    IsConnection, List.mem_filterMap]
  push Not
  constructor
  · rintro ⟨header, ⟨line, listed, read⟩, isKey⟩
    exact ⟨line, listed, header, read, by simpa using isKey⟩
  · rintro ⟨line, listed, header, read, isKey⟩
    exact ⟨header, ⟨line, listed, read⟩, by simpa using isKey⟩

namespace HttpParse

/-- Behind lines the connection type is the same for all memories when a line names it, and
otherwise what the memory held. -/
theorem applyLines_connection_eq_iff (memory : ConType) (request : Bytes) (lines : List Bytes) :
    ((fresh .unknow request).applyLines lines).connection =
      ((fresh memory request).applyLines lines).connection ↔
      memory = .unknow ∨ ∃ line ∈ lines, IsConnection line := by
  have field (memory : ConType) := applyLines_field connection (bytes "CONNECTION")
    (fun value => if value = bytes "keep-alive" then .keepLive else .close) parseLine_connection
    (parseHeader_kept connection fun _ _ _ => rfl) lines (fresh memory request)
  rw [field, field, ← lastValue_connection_isSome]
  cases lastValue (bytes "CONNECTION") (lines.filterMap headerOf) with
  | some value => simp
  | none => simpa [fresh] using eq_comm

/-- Parsing from two memories gives the same fields when the connection types behind the lines
agree. -/
theorem parseRequest_eq_iff (memory : ConType) (framing : Framing)
    (readable : framing.rest ≠ .exhausted) :
    (fresh .unknow framing.text).parseRequest = (fresh memory framing.text).parseRequest ↔
      ((fresh .unknow framing.text).applyLines framing.lines).connection =
        ((fresh memory framing.text).applyLines framing.lines).connection := by
  obtain ⟨connection, others⟩ :=
    applyLines_setConnection (fresh .unknow framing.text) memory framing.lines
  rw [parseRequest, parseRequest, parseLineDataType_framing framing _ rfl rfl,
    parseLineDataType_framing framing _ rfl rfl, outcome, outcome,
    show (fresh memory framing.text).applyLines framing.lines = _ from others]
  generalize (fresh .unknow framing.text).applyLines framing.lines = read
  constructor
  · intro same
    cases kind : framing.rest with
    | exhausted => exact absurd kind readable
    | unterminated | body | rejected =>
      rw [kind] at same
      have reached := congrArg (fun result => result.toOption.map HttpParse.connection) same
      exact Option.some.inj reached
  · intro same
    have whole : { read with connection } = read := by
      rw [← show read.connection = connection from same]
    rw [whole]

end HttpParse

/-- For every parser, whatever it parsed before, every memory and every text on which parsing does
not throw: re-parsing leaves every field as a new parser on the text has it exactly when the memory
held `CON_UNKNOW` or the header of the text names a connection type. -/
theorem reparse_eq_construct_iff (parse : HttpParse) (memory : ConType) {text : Bytes}
    (parses : ParsesWithoutException text) :
    parse.parseRequestOn text = HttpParse.construct memory text ↔ memory = .unknow ∨
      NamesConnection text := by
  obtain ⟨framing, rfl⟩ := exists_framing text
  have readable : framing.rest ≠ .exhausted := fun exhausted =>
    (parsesWithoutException_iff framing.text).mp parses (framing.exhausted_iff.mp exhausted)
  rw [HttpParse.parseRequestOn_eq_fresh, HttpParse.construct,
    HttpParse.parseRequest_eq_iff memory framing readable, HttpParse.applyLines_connection_eq_iff,
    namesConnection_iff]

/-- A parser behind an earlier request. -/
def usedParser : HttpParse :=
  ⟨.post, .close, bytes "host", bytes "HTTP/1.0", [], bytes "/", [], bytes "*/*", [], 2, bytes "ab",
    [], true⟩

/-- A request that asks to keep the connection is read the same way again. -/
theorem reparse_eq_construct_keepAlive :
    usedParser.parseRequestOn (bytes "GET / HTTP/1.1\r\nConnection: keep-alive\r\n\r\n") =
      HttpParse.construct .close (bytes "GET / HTTP/1.1\r\nConnection: keep-alive\r\n\r\n") := by
  refine (reparse_eq_construct_iff usedParser .close ⟨fun memory => ?_, fun parse => ?_⟩).mpr
    (.inr ?_)
  · cases memory <;> decide +kernel
  · rw [HttpParse.parseRequestOn_eq_fresh]
    decide +kernel
  · refine ⟨[bytes "GET / HTTP/1.1", bytes "Connection: keep-alive"], crlf, by decide +kernel, ?_,
      bytes "Connection: keep-alive", by
        decide +kernel, (bytes "Connection", bytes "keep-alive"), by decide +kernel,
      by decide +kernel⟩
    decide +kernel

/-- A new parser on a request without a `Connection` header has the connection type that the memory
held, and re-parsing has `CON_UNKNOW`. -/
theorem construct_keeps_memory :
    (HttpParse.construct .keepLive (bytes "GET / HTTP/1.1\r\n\r\n")).toOption.map
      HttpParse.connection =
        some .keepLive ∧
      (usedParser.parseRequestOn (bytes "GET / HTTP/1.1\r\n\r\n")).toOption.map
        HttpParse.connection =
        some .unknow := by
  decide +kernel

end NetServer
