import NetServer.Common.Printf
import NetServer.Request.Handler

/-!
# The standard header for the length of the content

The parser knows the length of the content by the key `CONTENT_LENGHT`. A `Content-Length` header,
in whatever case, is an unknown key to it, so the length it announces is not taken: `CheckData`
compares the content with what another header says, or with zero.
-/

namespace NetServer

open Lib HttpParse

/-- A request with a body announced by the standard header, behind and before other headers. -/
def lengthHeaders (front : List (Bytes × Bytes)) (name body : Bytes) (back : List (Bytes × Bytes)) :
    List (Bytes × Bytes) :=
  front ++ (name, decimal body.length) :: back

/-- `CheckData` of a new handler takes a request with its whole body as complete, with the body as
content and its length as content length, and a request with less of the body as incomplete. -/
def HonoursLength (arg : Nat) (now : Int) (requestLine : Bytes) (headers : List (Bytes × Bytes))
    (body : Bytes) : Prop :=
  (∃ next, (ReqHandlerObj.construct arg).checkData now (renderRequest requestLine headers body) =
      .ok (.dataOk, next) ∧ next.content = some body ∧
      next.contentLenght = some (body.length : Int)) ∧
    ∀ part, part <+: body → part ≠ body →
      ∃ next, (ReqHandlerObj.construct arg).checkData now (renderRequest requestLine headers part) =
        .ok (.dataDef, next)

/-- Upper-casing keeps what stands inside a text. -/
theorem not_infix_of_toUpper {part text whole : Bytes} (upper : toUpper text = whole)
    (absent : ¬ toUpper part <:+: whole) : ¬ part <:+: text := by
  intro inside
  apply absent
  rw [← upper]
  exact inside.map toUpperByte

/-- The standard header is one for the parser too. -/
theorem isHeader_contentLength {name : Bytes} (spelling : toUpper name = bytes "CONTENT-LENGTH")
    (length : Nat) : IsHeader (name, decimal length) where
  key := not_infix_of_toUpper spelling (by decide)
  cleanKey := not_infix_of_toUpper spelling (by decide)
  cleanValue := by
    intro inside
    have digit := isDigit_of_mem_decimal (inside.subset (show 13 ∈ crlf by decide))
    exact absurd digit (by decide)

/-- The standard header is not the one the parser takes the length from. -/
theorem lastValue_lengthHeaders {name : Bytes} (spelling : toUpper name = bytes "CONTENT-LENGTH")
    (front : List (Bytes × Bytes)) (body : Bytes) (back : List (Bytes × Bytes)) :
    lastValue (bytes "CONTENT_LENGHT") (lengthHeaders front name body back) =
      lastValue (bytes "CONTENT_LENGHT") (front ++ back) := by
  have other : ¬toUpper name = bytes "CONTENT_LENGHT" := by
    rw [spelling]
    decide
  simp [lastValue, lengthHeaders, other]

/-- `CheckData` of a new handler on a request with some headers and body. -/
theorem checkData_render (arg : Nat) (now : Int) {requestLine : Bytes}
    {headers : List (Bytes × Bytes)} (body : Bytes) (isRequest : IsRequestLine requestLine)
    (areHeaders : ∀ header ∈ headers, IsHeader header) :
    ∃ next, (ReqHandlerObj.construct arg).checkData now (renderRequest requestLine headers body) =
        .ok (judge body.length (((lastValue (bytes "CONTENT_LENGHT") headers).map atoi).getD 0),
          next) ∧
      next.content = some body ∧
      next.contentLenght =
        some (((lastValue (bytes "CONTENT_LENGHT") headers).map atoi).getD 0) := by
  have text : (requestFraming body isRequest areHeaders).text =
      (ReqHandlerObj.construct arg).requestStr ++ renderRequest requestLine headers body :=
    requestFraming_text body isRequest areHeaders
  have length : announced (requestFraming body isRequest areHeaders).lines =
      ((lastValue (bytes "CONTENT_LENGHT") headers).map atoi).getD 0 := by
    rw [announced, show (requestFraming body isRequest areHeaders).lines =
      requestLine :: headers.map headerLine from rfl, filterMap_headerOf isRequest areHeaders]
  have ended : (requestFraming body isRequest areHeaders).rest ≠ .exhausted := by
    intro exhausted
    cases exhausted
  obtain ⟨next, checked, -, -, -, content, contentLenght⟩ :=
    (ReqHandlerObj.construct arg).checkData_framing now text ended
  rw [length] at checked contentLenght
  exact ⟨next, checked, content, contentLenght⟩

/-- For every body, spelling of the standard header and list of other headers: `CheckData` honours
the length exactly when the header that the parser takes it from announces the same length, where no
such header announces zero. -/
theorem honoursLength_iff (arg : Nat) (now : Int) {requestLine name : Bytes}
    {front back : List (Bytes × Bytes)} (body : Bytes) (isRequest : IsRequestLine requestLine)
    (spelling : toUpper name = bytes "CONTENT-LENGTH")
    (others : ∀ header ∈ front ++ back, IsHeader header) :
    HonoursLength arg now requestLine (lengthHeaders front name body back) body ↔
      ((lastValue (bytes "CONTENT_LENGHT") (front ++ back)).map atoi).getD 0 = body.length := by
  have areHeaders : ∀ header ∈ lengthHeaders front name body back, IsHeader header := by
    intro header listed
    rcases List.mem_append.mp listed with inFront | inRest
    · exact others header (List.mem_append_left _ inFront)
    · rcases List.mem_cons.mp inRest with rfl | inBack
      · exact isHeader_contentLength spelling body.length
      · exact others header (List.mem_append_right _ inBack)
  have checks (part : Bytes) := checkData_render arg now part isRequest areHeaders
  simp only [lastValue_lengthHeaders spelling] at checks
  constructor
  · rintro ⟨⟨next, checked, -, length⟩, -⟩
    obtain ⟨next', checked', -, length'⟩ := checks body
    have same : next' = next := (Prod.mk.inj (Except.ok.inj (checked'.symm.trans checked))).2
    rw [same] at length'
    exact Option.some.inj (length'.symm.trans length)
  · intro announces
    have small : (body.length : Int) < 2 ^ 31 := by
      rw [← announces]
      cases lastValue (bytes "CONTENT_LENGHT") (front ++ back) with
      | none => decide
      | some value => exact (atoi_range value).2
    have length : sizeT (body.length : Int) = body.length := by
      rw [sizeT_of_nonneg (by omega) (by omega), Int.toNat_natCast]
    simp only [announces, judge, length] at checks
    constructor
    · obtain ⟨next, checked, content, contentLenght⟩ := checks body
      rw [if_pos rfl] at checked
      exact ⟨next, checked, content, contentLenght⟩
    · intro part front shorter
      obtain ⟨next, checked, -, -⟩ := checks part
      have less : part.length < body.length :=
        Nat.lt_of_le_of_ne front.length_le fun same => shorter (front.eq_of_length same)
      rw [if_neg (Nat.ne_of_lt less), if_pos less] at checked
      exact ⟨next, checked⟩

/-- A length that the parser's own header repeats is honoured. -/
theorem honoursLength_repeated :
    HonoursLength 1 0 (bytes "POST /x HTTP/1.1")
      (lengthHeaders [(bytes "Content_Lenght", bytes "2")] (bytes "Content-Length") (bytes "ab") [])
        (bytes "ab") := by
  refine (honoursLength_iff 1 0 (bytes "ab") ⟨by decide, by decide, by decide⟩ (by decide) ?_).mpr
    (by decide)
  intro header listed
  rw [List.append_nil, List.mem_singleton] at listed
  rw [listed]
  exact ⟨by decide, by decide, by decide⟩

/-- A request with two bytes of body and the standard header for them is not taken as complete. -/
theorem contentLength_ignored :
    IsRequestLine (bytes "POST /x HTTP/1.1") ∧ toUpper (bytes "Content-Length") =
      bytes "CONTENT-LENGTH" ∧
      ((ReqHandlerObj.construct 1).checkData 0
        (bytes "POST /x HTTP/1.1\r\nContent-Length: 2\r\n\r\nab")).toOption.map Prod.fst =
          some .dataError ∧
      ¬HonoursLength 1 0 (bytes "POST /x HTTP/1.1")
        (lengthHeaders [] (bytes "Content-Length") (bytes "ab") [])
        (bytes "ab") := by
  refine ⟨⟨by decide, by decide, by decide⟩, by decide, by decide +kernel, ?_⟩
  rintro ⟨⟨next, checked, -, -⟩, -⟩
  have verdict : _ = some HandReply.dataOk :=
    congrArg (fun result => result.toOption.map Prod.fst) checked
  exact absurd verdict (by decide +kernel)

end NetServer
