import NetServer.Http.Render

/-!
# The request handler `CReqHandlerObj`

A handler collects the chunks of one request. `CheckData` appends a chunk to the handler's
text and parses that text, but the parser works on the text itself: what it has read is gone
when the next chunk arrives, and so is everything it learnt, since re-parsing resets all
fields. The verdict compares two numbers, the length of the content and the announced length,
the latter converted to `size_t`.
-/

namespace NetServer

open Lib

/-- `HAND_REPLY`, its values in the order of the source. -/
inductive HandReply where
  | unknow
  | success
  | fail
  | dataOk
  | dataDef
  | dataError
  | zonecodeErr
  | cmdInvalid
  deriving DecidableEq, Repr

/-- The fields of `CReqHandlerObj` that the request path uses. The parser's buffer is a
reference to `requestStr`; the copy in `httpParse` is brought up to date on every use. -/
structure ReqHandlerObj where
  requestStr : Bytes
  activeTime : Int
  httpParse : Option HttpParse
  arg : Nat
  deriving DecidableEq, Repr

/-- The verdict on a content of some length against an announced length. -/
def judge (length : Nat) (contentLenght : Int) : HandReply :=
  if length = sizeT contentLenght then .dataOk
  else if length < sizeT contentLenght then .dataDef
  else .dataError

namespace ReqHandlerObj

/-- The constructor on the context of a connection; `m_activeTime` is set by the first
`CheckData`. -/
def construct (arg : Nat) : ReqHandlerObj := ⟨[], 0, none, arg⟩

/-- `CReqHandlerObj::CheckData` at a clock reading. The connection type of a new parser is
uninitialised memory that nothing here reads; it is taken as `CON_UNKNOW`. -/
def checkData (obj : ReqHandlerObj) (now : Int) (request : Bytes) :
    Except OutOfRange (HandReply × ReqHandlerObj) := do
  let requestStr := obj.requestStr ++ request
  let parse ← match obj.httpParse with
    | some parse => parse.parseRequestOn requestStr
    | none => HttpParse.construct .unknow requestStr
  return (judge parse.content.length parse.contentLenght,
    { obj with requestStr := parse.requestData, activeTime := now, httpParse := some parse })

/-- `CReqHandlerObj::OnHandle`: the reply to a complete request. -/
def onHandle (_obj : ReqHandlerObj) : HandReply × Bytes :=
  (.success, bytes "HTTP/1.1 200 OK\r\n" ++ bytes "Date: Thu, 04 Jun 2015 12:56:22 GMT\r\n" ++
    bytes "Server: nginx\r\n" ++ bytes "Content-type: text/html;charset=UTF-8\r\n" ++
    bytes "Connection: Close\r\n" ++ bytes "Content-Length: 17\r\n\r\n" ++
    bytes "test hello world")

/-- `get_content` of the handler's parser. -/
def content (obj : ReqHandlerObj) : Option Bytes := obj.httpParse.map HttpParse.content

/-- `get_content_lenght` of the handler's parser. -/
def contentLenght (obj : ReqHandlerObj) : Option Int := obj.httpParse.map HttpParse.contentLenght

/-- Every parse of a handler is a parse from scratch. -/
theorem checkData_eq (obj : ReqHandlerObj) (now : Int) (request : Bytes) :
    obj.checkData now request = (do
      let parse ← HttpParse.construct .unknow (obj.requestStr ++ request)
      return (judge parse.content.length parse.contentLenght,
        { obj with
          requestStr := parse.requestData, activeTime := now, httpParse := some parse })) := by
  unfold checkData
  cases obj.httpParse <;> rfl

/-- A text that is not exhausted is judged by what its lines announce and what its rest holds,
and the handler keeps what the rest leaves unread. -/
theorem checkData_framing (obj : ReqHandlerObj) (now : Int) {request : Bytes} {framing : Framing}
    (text : framing.text = obj.requestStr ++ request) (readable : framing.rest ≠ .exhausted) :
    ∃ next, obj.checkData now request =
        .ok (judge framing.rest.received.length (announced framing.lines), next) ∧
      next.requestStr = framing.rest.unread ∧ next.activeTime = now ∧ next.arg = obj.arg ∧
      next.content = some framing.rest.received ∧
      next.contentLenght = some (announced framing.lines) := by
  obtain ⟨parse, built, content, length, unread⟩ := construct_framing .unknow framing readable
  rw [checkData_eq, ← text, built]
  refine ⟨{ obj with requestStr := parse.requestData, activeTime := now, httpParse := some parse },
    ?_, unread, rfl, rfl, congrArg some content, congrArg some length⟩
  rw [← content, ← length]
  rfl

/-- An exhausted text makes `CheckData` throw. -/
theorem checkData_exhausted (obj : ReqHandlerObj) (now : Int) {request : Bytes} {framing : Framing}
    (text : framing.text = obj.requestStr ++ request) (exhausted : framing.rest = .exhausted) :
    obj.checkData now request = .error .outOfRange := by
  rw [checkData_eq, ← text, construct_exhausted .unknow exhausted]
  rfl

/-- `CheckData` notes the time and leaves the handler with its context. -/
theorem checkData_keeps {obj next : ReqHandlerObj} {now : Int} {request : Bytes}
    {verdict : HandReply} (checked : obj.checkData now request = .ok (verdict, next)) :
    next.arg = obj.arg ∧ next.activeTime = now := by
  rw [checkData_eq] at checked
  obtain ⟨parse, -, built⟩ := bind_eq_ok.mp checked
  cases built
  exact ⟨rfl, rfl⟩

end ReqHandlerObj

end NetServer
