import NetServer.Request.Handler

/-!
# Assembling a request from chunks

A request that `CheckData` accepts in one piece may arrive in several. `feed` hands the pieces
to one handler in turn, as `HandleRequest` does for one connection. The handler forgets the
header lines of a chunk as soon as it has judged it, so the pieces are put together only when
each of them would be judged that way on its own (`assembles_iff`).
-/

namespace NetServer

open Lib ReqHandlerObj

/-- Hand chunks, each with its arrival time, to one handler and collect the verdicts. -/
def feed (obj : ReqHandlerObj) :
    List (Int × Bytes) → Except OutOfRange (List HandReply × ReqHandlerObj)
  | [] => .ok ([], obj)
  | (now, chunk) :: rest => do
    let (verdict, obj) ← obj.checkData now chunk
    let (verdicts, obj) ← feed obj rest
    return (verdict :: verdicts, obj)

/-- The chunks are put together into a request with this content and content length: every
chunk but the last is reported deficient, the last one complete. -/
def Assembles (obj : ReqHandlerObj) (chunks : List (Int × Bytes)) (content : Bytes)
    (contentLenght : Int) : Prop :=
  ∃ last, feed obj chunks =
      .ok (List.replicate (chunks.length - 1) .dataDef ++ [.dataOk], last) ∧
    last.content = some content ∧ last.contentLenght = some contentLenght

/-- A text whose own complete lines announce more content than follows them in it. -/
def AsksForMore (framing : Framing) : Prop :=
  framing.rest ≠ .exhausted ∧ framing.rest.received.length < sizeT (announced framing.lines)

/-- A text that holds a content behind its own lines, and lines that announce its length. -/
def Holds (framing : Framing) (content : Bytes) (contentLenght : Int) : Prop :=
  framing.rest ≠ .exhausted ∧ framing.rest.received = content ∧
    announced framing.lines = contentLenght

/-- Chunks of which each, read on its own behind the bytes a rejected line left unread, asks
for more, and the last of which holds the whole content and announces its length. -/
inductive EachOnItsOwn (content : Bytes) (contentLenght : Int) : Bytes → List (Int × Bytes) → Prop
  | last {unread chunk : Bytes} {now : Int} (framing : Framing)
    (text : framing.text = unread ++ chunk) (holds : Holds framing content contentLenght) :
    EachOnItsOwn content contentLenght unread [(now, chunk)]
  | more {unread chunk : Bytes} {now : Int} {rest : List (Int × Bytes)} (framing : Framing)
    (text : framing.text = unread ++ chunk) (asks : AsksForMore framing)
    (behind : EachOnItsOwn content contentLenght framing.rest.unread rest) :
    EachOnItsOwn content contentLenght unread ((now, chunk) :: rest)

/-- The verdict on a text that asks for more. -/
theorem judge_eq_dataDef_iff (length : Nat) (contentLenght : Int) :
    judge length contentLenght = .dataDef ↔ length < sizeT contentLenght := by
  unfold judge
  split_ifs <;> simp <;> omega

/-- The verdict on a text that holds what it announces. -/
theorem judge_eq_dataOk_iff (length : Nat) (contentLenght : Int) :
    judge length contentLenght = .dataOk ↔ length = sizeT contentLenght := by
  unfold judge
  split_ifs <;> simp <;> omega

/-- The verdict on a text that holds more than it announces. -/
theorem judge_eq_dataError_iff (length : Nat) (contentLenght : Int) :
    judge length contentLenght = .dataError ↔ sizeT contentLenght < length := by
  unfold judge
  split_ifs <;> simp <;> omega

/-- Feeding a non-empty list judges its first chunk before the rest. -/
theorem feed_cons_ok {obj last : ReqHandlerObj} {now : Int} {chunk : Bytes}
    {rest : List (Int × Bytes)} {verdict : HandReply} {verdicts : List HandReply} :
    feed obj ((now, chunk) :: rest) = .ok (verdict :: verdicts, last) ↔
      ∃ next, obj.checkData now chunk = .ok (verdict, next) ∧
        feed next rest = .ok (verdicts, last) := by
  simp only [feed]
  constructor
  · intro fed
    cases first : obj.checkData now chunk with
    | error e => simp [first, bind, Except.bind] at fed
    | ok result =>
      cases others : feed result.2 rest with
      | error e => simp [first, others, bind, Except.bind] at fed
      | ok final =>
        simp only [first, others, bind, Except.bind, pure, Except.pure, Except.ok.injEq,
          Prod.mk.injEq, List.cons.injEq] at fed
        obtain ⟨⟨rfl, rfl⟩, rfl⟩ := fed
        exact ⟨result.2, rfl, others⟩
  · rintro ⟨next, first, others⟩
    simp [first, others, bind, Except.bind, pure, Except.pure]

/-- A handler's answer to a chunk, read off any framing of its text. -/
theorem checkData_inversion {obj next : ReqHandlerObj} {now : Int} {chunk : Bytes}
    {verdict : HandReply} (framing : Framing) (text : framing.text = obj.requestStr ++ chunk)
    (checked : obj.checkData now chunk = .ok (verdict, next)) :
    framing.rest ≠ .exhausted ∧
      verdict = judge framing.rest.received.length (announced framing.lines) ∧
      next.requestStr = framing.rest.unread ∧ next.content = some framing.rest.received ∧
      next.contentLenght = some (announced framing.lines) := by
  by_cases exhausted : framing.rest = .exhausted
  · rw [checkData_exhausted obj now text exhausted] at checked
    cases checked
  · obtain ⟨next', answer, unread, -, -, content, length⟩ :=
      checkData_framing obj now text exhausted
    rw [checked] at answer
    cases answer
    exact ⟨exhausted, rfl, unread, content, length⟩

/-- Chunks are put together exactly when each of them is judged right on its own. -/
theorem assembles_eachOnItsOwn {content : Bytes} {contentLenght : Int}
    (whole : content.length = sizeT contentLenght) (chunks : List (Int × Bytes))
    (nonempty : chunks ≠ []) (obj : ReqHandlerObj) :
    Assembles obj chunks content contentLenght ↔
      EachOnItsOwn content contentLenght obj.requestStr chunks := by
  induction chunks generalizing obj with
  | nil => exact absurd rfl nonempty
  | cons first rest ih =>
    obtain ⟨now, chunk⟩ := first
    obtain ⟨framing, text⟩ := exists_framing (obj.requestStr ++ chunk)
    cases rest with
    | nil =>
      constructor
      · rintro ⟨last, fed, isContent, isLength⟩
        obtain ⟨next, checked, done⟩ := feed_cons_ok.mp fed
        cases done
        obtain ⟨readable, -, -, received, length⟩ := checkData_inversion framing text checked
        rw [received] at isContent
        rw [length] at isLength
        exact .last framing text ⟨readable, Option.some.inj isContent, Option.some.inj isLength⟩
      · intro alone
        cases alone with
        | last framing text holds =>
          obtain ⟨readable, rfl, rfl⟩ := holds
          obtain ⟨next, checked, -, -, -, isContent, isLength⟩ :=
            checkData_framing obj now text readable
          rw [(judge_eq_dataOk_iff _ _).mpr whole] at checked
          exact ⟨next, feed_cons_ok.mpr ⟨next, checked, rfl⟩, isContent, isLength⟩
        | more framing text asks behind => cases behind
    | cons second rest =>
      constructor
      · rintro ⟨last, fed, isContent, isLength⟩
        obtain ⟨next, checked, others⟩ := feed_cons_ok.mp fed
        obtain ⟨readable, verdict, unread, -, -⟩ := checkData_inversion framing text checked
        have asks := (judge_eq_dataDef_iff _ _).mp verdict.symm
        have behind := (ih (by simp) next).mp ⟨last, others, isContent, isLength⟩
        rw [unread] at behind
        exact .more framing text ⟨readable, asks⟩ behind
      · intro alone
        cases alone with
        | more framing text asks behind =>
          obtain ⟨next, checked, unread, -⟩ := checkData_framing obj now text asks.1
          rw [(judge_eq_dataDef_iff _ _).mpr asks.2] at checked
          rw [← unread] at behind
          obtain ⟨last, others, isContent, isLength⟩ := (ih (by simp) next).mpr behind
          exact ⟨last, feed_cons_ok.mpr ⟨next, checked, others⟩, isContent, isLength⟩

/-- A readable text is longer than the content found in it. -/
theorem Framing.received_lt {framing : Framing} (readable : framing.rest ≠ .exhausted) :
    framing.rest.received.length + framing.rest.unread.length < framing.text.length := by
  cases rest : framing.rest with
  | exhausted => exact absurd rest readable
  | unterminated first tail =>
    simp [Framing.text, rest, Rest.text, Rest.received, Rest.unread]
    omega
  | body content =>
    simp [Framing.text, rest, Rest.text, Rest.received, Rest.unread]
    omega
  | rejected line behind =>
    simp [Framing.text, rest, Rest.text, Rest.received, Rest.unread]
    omega

/-- Chunks that are each judged on their own hold more bytes than the content they bring. -/
theorem EachOnItsOwn.length_lt {content unread : Bytes} {contentLenght : Int}
    {chunks : List (Int × Bytes)} (alone : EachOnItsOwn content contentLenght unread chunks) :
    content.length < unread.length + (chunks.flatMap (·.2)).length := by
  induction alone with
  | last framing text holds =>
    have shorter := Framing.received_lt holds.1
    rw [text, holds.2.1, List.length_append] at shorter
    simp only [List.flatMap_cons, List.flatMap_nil, List.append_nil]
    omega
  | more framing text asks behind ih =>
    have shorter := Framing.received_lt asks.1
    rw [text, List.length_append] at shorter
    simp only [List.flatMap_cons, List.length_append]
    omega

/-- A request cut behind its empty line, inside its body or right before it, is never put
together: the chunks with the body are too short to hold it behind lines of their own. -/
theorem not_assembles_of_cut_in_body {content front : Bytes} {contentLenght now : Int}
    {lines : List Bytes} (accepted : ∀ line ∈ lines, Clean line ∧ HttpParse.Accepted line)
    (whole : content.length = sizeT contentLenght) {obj : ReqHandlerObj}
    (isNew : obj.requestStr = []) {rest : List (Int × Bytes)} (more : rest ≠ [])
    (body : front ++ rest.flatMap (·.2) = content) :
    ¬ Assembles obj ((now, linesText lines ++ crlf ++ front) :: rest) content contentLenght := by
  rw [assembles_eachOnItsOwn whole _ (by simp), isNew]
  intro alone
  let header : Framing := ⟨lines, .body front, fun line member => (accepted line member).1,
    fun line member => (accepted line member).2, trivial⟩
  have headerText : header.text = [] ++ (linesText lines ++ crlf ++ front) := by
    simp [header, Framing.text, Rest.text]
  cases alone with
  | last => exact more rfl
  | more framing text asks behind =>
    have same : framing = header := Framing.text_injective (text.trans headerText.symm)
    rw [same] at behind
    have longer := behind.length_lt
    have total := congrArg List.length body
    simp only [header, Rest.unread, List.length_nil, List.length_append] at longer total
    omega

/-- A request accepted in one piece is put together from its pieces exactly when each piece is
judged on its own: the header lines of earlier pieces do not count. -/
theorem assembles_iff (arg : Nat) (now : Int) (request : Bytes) (whole : ReqHandlerObj)
    (content : Bytes) (contentLenght : Int)
    (accepted : (construct arg).checkData now request = .ok (.dataOk, whole))
    (isContent : whole.content = some content) (isLength : whole.contentLenght = some contentLenght)
    (chunks : List (Int × Bytes)) (nonempty : chunks ≠ [])
    (_pieces : ∀ piece ∈ chunks, piece.2 ≠ []) (_split : chunks.flatMap (·.2) = request) :
    Assembles (construct arg) chunks content contentLenght ↔
      EachOnItsOwn content contentLenght [] chunks := by
  obtain ⟨framing, text⟩ := exists_framing request
  have text' : framing.text = (construct arg).requestStr ++ request := text
  obtain ⟨-, verdict, -, received, length⟩ := checkData_inversion framing text' accepted
  have holds := (judge_eq_dataOk_iff _ _).mp verdict.symm
  rw [received] at isContent
  rw [length] at isLength
  obtain rfl := Option.some.inj isContent
  obtain rfl := Option.some.inj isLength
  exact assembles_eachOnItsOwn holds chunks nonempty (construct arg)

/-- Two pieces of a request that are put together, since the second one repeats the header. -/
theorem assembles_repeated_header :
    EachOnItsOwn (bytes "hi") 2 []
      [(0, bytes "GET /\r\nCONTENT_LENGHT: 2\r\nA"),
        (1, bytes ": b\r\nCONTENT_LENGHT: 2\r\n\r\nhi")] := by
  refine (assembles_iff 0 0
    (bytes "GET /\r\nCONTENT_LENGHT: 2\r\nA: b\r\nCONTENT_LENGHT: 2\r\n\r\nhi")
    ⟨[], 0, some ⟨.get, .unknow, [], [], [], [], [], [], [], 2, bytes "hi", [], true⟩, 0⟩
    (bytes "hi") 2 (by decide +kernel) rfl rfl _ (by simp) (by decide) (by decide)).mp ?_
  exact ⟨⟨[], 1, some ⟨.unknow, .unknow, [], [], [], [], [], [], [], 2, bytes "hi", [], true⟩, 0⟩,
    by decide +kernel, rfl, rfl⟩

/-- A request whose body arrives in a piece of its own is accepted whole, but not in pieces:
the piece with the body is reported as an error. -/
theorem body_piece_not_assembled :
    (∃ whole, (construct 0).checkData 0
        (bytes "POST / HTTP/1.1\r\nCONTENT_LENGHT: 5\r\n\r\nhello") = .ok (.dataOk, whole) ∧
      whole.content = some (bytes "hello") ∧ whole.contentLenght = some 5) ∧
    ¬ Assembles (construct 0)
      [(0, bytes "POST / HTTP/1.1\r\nCONTENT_LENGHT: 5\r\n\r\n"), (0, bytes "hello")]
      (bytes "hello") 5 := by
  constructor
  · exact ⟨⟨[], 0, some ⟨.post, .unknow, [], bytes "HTTP/1.1", [], [], [], [], [], 5,
      bytes "hello", [], true⟩, 0⟩, by decide +kernel, rfl, rfl⟩
  · rintro ⟨last, fed, -⟩
    have verdicts : (feed (construct 0) [(0, bytes "POST / HTTP/1.1\r\nCONTENT_LENGHT: 5\r\n\r\n"),
        (0, bytes "hello")]).map Prod.fst = .ok [.dataDef, .dataError] := by decide +kernel
    rw [fed] at verdicts
    simp [Except.map] at verdicts

end NetServer
