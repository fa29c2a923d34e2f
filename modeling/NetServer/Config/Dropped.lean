import NetServer.Config.RoundTrip

/-!
# Lines that are never parsed

`OnInit` tells the end of the file from an empty read, so it takes a line that does not fit its
buffer and the fifth blank line in a row for the end, and the buffer is read as a C string. What
it hands to `ParaseLine` is therefore computed from the lines of the file (`handed`), and the
lines it drops are said in their terms: `nothingDropped_iff` is exact for every file.
-/

namespace NetServer

open Lib Configer

/-! ## One pass of the loop -/

/-- What `ReadLine` makes of the bytes it got: the text up to a null, less one carriage return at
its end. -/
def lineText (line : Bytes) : Bytes :=
  let str := line.takeWhile (· != 0)
  if str.getLast? = some 13 then str.dropLast else str

/-- `ReadLine` reports an empty text as the end of the file. -/
theorem Ifstream.readLine_eq {ifs ifs' : Ifstream} {line : Bytes}
    (taken : ifs.getline 128 = (line, ifs')) :
    ifs.readLine = (decide (lineText line = []), lineText line, ifs') := by
  unfold readLine lineText
  rw [taken]
  simp only
  generalize line.takeWhile (· != 0) = str
  by_cases empty : str = []
  · simp [empty]
  · by_cases isReturn : str = bytes "\r"
    · rw [isReturn]
      rfl
    · rw [if_neg empty, if_neg isReturn]
      by_cases ends : str.getLast? = some 13
      · have longer : str.dropLast ≠ [] := by
          intro nothing
          obtain ⟨front, isStr⟩ := List.getLast?_eq_some_iff.mp ends
          rw [isStr, List.dropLast_concat] at nothing
          rw [nothing] at isStr
          exact isReturn isStr
        simp [ends, longer]
      · simp [ends, empty]

/-- Whether `ParaseLine` accepts a line, which does not depend on the fields. -/
def accepts (str : Bytes) : Bool := (Configer.new.paraseLine str).1

/-- The fields do not decide whether a line is accepted. -/
theorem paraseLine_accepts (configer : Configer) (str : Bytes) :
    (configer.paraseLine str).1 = accepts str := by
  unfold accepts paraseLine performanceItem
  cases find (bytes "=") str with
  | none =>
    simp only [sourceDataItme]
    split <;> repeat' (first | rfl | split)
  | some pos =>
    simp only
    split_ifs <;> try rfl
    simp only [sourceDataItme]
    split <;> repeat' (first | rfl | split)

/-- The call of `ParaseLine` in a pass of the loop of `OnInit`, with its result. -/
def paraseCall (state : Configer × Ifstream × Nat) : Option (Bytes × Bool) :=
  let (configer, ifs, iCount) := state
  let (isDone, outStr, _) := ifs.readLine
  if outStr = [] ∧ isDone = true ∧ iCount < 4 then none
  else if isDone = false ∧ outStr.head? ≠ some 13 then some (outStr, (configer.paraseLine outStr).1)
  else none

section

variable {configer : Configer} {ifs ifs' : Ifstream} {line : Bytes} {iCount : Nat}

/-- A pass over a line with a text parses it, unless it starts with a carriage return. -/
theorem pass_line (taken : ifs.getline 128 = (line, ifs')) (nonempty : lineText line ≠ [])
    (first : (lineText line).head? ≠ some 13) :
    paraseCall (configer, ifs, iCount) = some (lineText line, accepts (lineText line)) ∧
      initIteration (configer, ifs, iCount) =
        if accepts (lineText line) then
          .ok (.inl ((configer.paraseLine (lineText line)).2, ifs', 0))
        else .ok (.inr (false, (configer.paraseLine (lineText line)).2)) := by
  have read : ifs.readLine = (false, lineText line, ifs') := by
    rw [Ifstream.readLine_eq taken, decide_eq_false nonempty]
  have verdict := paraseLine_accepts configer (lineText line)
  refine ⟨?_, ?_⟩
  · simp [paraseCall, read, first, verdict]
  · cases parsed : configer.paraseLine (lineText line) with
    | mk accepted configer' =>
      rw [parsed] at verdict
      rw [← verdict]
      cases accepted <;> simp [initIteration, read, first, parsed]

/-- A pass over a text that starts with a carriage return does nothing. -/
theorem pass_skipped (taken : ifs.getline 128 = (line, ifs')) (nonempty : lineText line ≠ [])
    (first : (lineText line).head? = some 13) :
    paraseCall (configer, ifs, iCount) = none ∧
      initIteration (configer, ifs, iCount) = .ok (.inl (configer, ifs', iCount)) := by
  simp [paraseCall, initIteration, Ifstream.readLine_eq taken, nonempty, first]

/-- A pass over an empty text counts it or ends the loop. -/
theorem pass_blank (taken : ifs.getline 128 = (line, ifs')) (empty : lineText line = []) :
    paraseCall (configer, ifs, iCount) = none ∧
      initIteration (configer, ifs, iCount) =
        if iCount < 4 then .ok (.inl (configer, ifs', iCount + 1))
          else .ok (.inr (true, configer)) := by
  have read : ifs.readLine = (true, [], ifs') := by
    rw [Ifstream.readLine_eq taken, empty]
    rfl
  by_cases few : iCount < 4
  · refine ⟨?_, ?_⟩
    · simp [paraseCall, read, few]
    · rw [initIteration_blank read few, if_pos few]
  · refine ⟨?_, ?_⟩
    · simp [paraseCall, read, few]
    · rw [initIteration_done read few, if_neg few]

end

/-! ## The lines of the file -/

/-- The text of a line that `OnInit` hands to `ParaseLine`, if any. -/
def ownText (line : Bytes) : Option Bytes :=
  let text := lineText (line.take 127)
  if text = [] ∨ text.head? = some 13 then none else some text

/-- How many blank lines were just read behind a line, unless it ends the loop. -/
def nextBlanks (blanks : Nat) (line : Bytes) : Option Nat :=
  let text := lineText (line.take 127)
  if line.length < 128 then
    if text = [] then if blanks < 4 then some (blanks + 1) else none
    else if text.head? = some 13 then some blanks
    else some 0
  else none

/-- The texts that `OnInit` hands to `ParaseLine` as long as all of them are accepted, where
`blanks` blank lines were just read. -/
def handed (blanks : Nat) : List Bytes → List Bytes
  | [] => []
  | line :: lines =>
    (ownText line).toList ++ (nextBlanks blanks line).elim [] fun blanks => handed blanks lines

/-- A stream that stands before these lines: behind the last one it is exhausted. -/
inductive Before : Ifstream → List Bytes → Prop
  | done (rest : Bytes) : Before ⟨rest, false⟩ []
  | lines (line : Bytes) (lines : List Bytes) (clean : ∀ other ∈ line :: lines, 10 ∉ other) :
    Before ⟨[10].intercalate (line :: lines), true⟩ (line :: lines)

/-- A file stands before its lines. -/
theorem before_contents (contents : Bytes) : Before ⟨contents, true⟩ (contents.splitOn 10) := by
  have isText : [10].intercalate (contents.splitOn 10) = contents := List.intercalate_splitOn 10
  have clean : ∀ other ∈ contents.splitOn 10, 10 ∉ other := by
    intro other inLines
    exact not_mem_of_mem_splitOn inLines
  cases split : contents.splitOn 10 with
  | nil => exact absurd split (List.splitOn_ne_nil 10 contents)
  | cons line lines =>
    rw [split] at isText clean
    conv_lhs => rw [← isText]
    exact .lines line lines clean

/-- `getline` takes what fits of the first line, and a line that does not fit ends the file. -/
theorem Before.getline {ifs : Ifstream} {line : Bytes} {lines : List Bytes}
    (before : Before ifs (line :: lines)) :
    ∃ ifs', ifs.getline 128 = (line.take 127, ifs') ∧
      Before ifs' (if line.length < 128 then lines else []) := by
  cases before with
  | lines _ _ clean =>
    have noFeed := clean line List.mem_cons_self
    by_cases short : line.length < 128
    · have whole : line.take 127 = line := List.take_of_length_le (by omega)
      rw [if_pos short, whole]
      cases lines with
      | nil =>
        rw [List.intercalate_singleton]
        exact ⟨_, Ifstream.getline_last noFeed short, .done []⟩
      | cons next lines =>
        rw [List.intercalate_cons_cons, List.append_assoc, List.singleton_append]
        refine ⟨_, Ifstream.getline_line noFeed short _, .lines next lines fun other inLines => ?_⟩
        exact clean other (List.mem_cons_of_mem _ inLines)
    · have front : ([10].intercalate (line :: lines)).takeWhile (· != 10) = line := by
        cases lines with
        | nil =>
          rw [List.intercalate_singleton]
          exact List.takeWhile_eq_self_iff.mpr (Ifstream.ne_feed noFeed)
        | cons next lines =>
          rw [List.intercalate_cons_cons, List.append_assoc,
            List.takeWhile_append_of_pos (Ifstream.ne_feed noFeed)]
          simp
      rw [if_neg short]
      refine ⟨⟨([10].intercalate (line :: lines)).drop 127, false⟩, ?_, .done _⟩
      simp only [Ifstream.getline, ↓reduceIte, front, short, Nat.add_one_sub_one]

/-- The fields behind the calls of `ParaseLine` with these texts. -/
def parased (configer : Configer) (texts : List Bytes) : Configer :=
  texts.foldl (fun configer text => (configer.paraseLine text).2) configer

/-- From this state the loop of `OnInit` hands these texts to `ParaseLine`: it succeeds when all of
them are accepted, and then these are its calls. -/
def HandsOver (configer : Configer) (ifs : Ifstream) (iCount : Nat) (texts : List Bytes) : Prop :=
  ∃ states result, Passes initIteration (configer, ifs, iCount) states result ∧
    result.1 = texts.all accepts ∧
    (result.1 = true → states.filterMap paraseCall = (texts.map fun text => (text, true)) ∧
      result.2 = parased configer texts)

section

variable {configer : Configer} {ifs ifs' : Ifstream} {iCount blanks : Nat} {text : Bytes}
  {texts : List Bytes}

/-- A pass without a call ends the loop. -/
theorem handsOver_last (noCall : paraseCall (configer, ifs, iCount) = none)
    (pass : initIteration (configer, ifs, iCount) = .ok (.inr (true, configer))) :
    HandsOver configer ifs iCount [] := by
  refine ⟨_, _, .last pass, rfl, fun _ => ⟨?_, rfl⟩⟩
  rw [List.filterMap_cons_none noCall]
  rfl

/-- A pass without a call goes on to the next line. -/
theorem HandsOver.skip (later : HandsOver configer ifs' blanks texts)
    (noCall : paraseCall (configer, ifs, iCount) = none)
    (pass : initIteration (configer, ifs, iCount) = .ok (.inl (configer, ifs', blanks))) :
    HandsOver configer ifs iCount texts := by
  obtain ⟨states, result, passes, verdict, calls⟩ := later
  refine ⟨_, result, .more pass passes, verdict, fun succeeded => ⟨?_, (calls succeeded).2⟩⟩
  rw [List.filterMap_cons_none noCall, (calls succeeded).1]

/-- A pass hands a text over and goes on when it is accepted. -/
theorem HandsOver.line (later : HandsOver (configer.paraseLine text).2 ifs' 0 texts)
    (call : paraseCall (configer, ifs, iCount) = some (text, accepts text))
    (pass : initIteration (configer, ifs, iCount) =
      if accepts text then .ok (.inl ((configer.paraseLine text).2, ifs', 0))
      else .ok (.inr (false, (configer.paraseLine text).2))) :
    HandsOver configer ifs iCount (text :: texts) := by
  by_cases accepted : accepts text = true
  · rw [if_pos accepted] at pass
    obtain ⟨states, result, passes, verdict, calls⟩ := later
    refine ⟨_, result, .more pass passes, ?_, fun succeeded => ⟨?_, (calls succeeded).2⟩⟩
    · rw [List.all_cons, accepted, verdict, Bool.true_and]
    · rw [List.filterMap_cons_some call, (calls succeeded).1, accepted, List.map_cons]
  · rw [if_neg accepted] at pass
    refine ⟨_, _, .last pass, ?_, fun succeeded => nomatch succeeded⟩
    rw [Bool.not_eq_true] at accepted
    rw [List.all_cons, accepted, Bool.false_and]

end

/-- Behind the end of the file nothing is handed over. -/
theorem handsOver_done (configer : Configer) (rest : Bytes) (iCount : Nat) :
    HandsOver configer ⟨rest, false⟩ iCount [] := by
  obtain ⟨noCall, pass⟩ := @pass_blank configer ⟨rest, false⟩ ⟨rest, false⟩ [] iCount rfl rfl
  by_cases few : iCount < 4
  · rw [if_pos few] at pass
    exact (handsOver_done configer rest (iCount + 1)).skip noCall pass
  · rw [if_neg few] at pass
    exact handsOver_last noCall pass
termination_by 4 - iCount

/-- The texts that are handed over are those of the lines. The induction is on the lines, with the
stream before them and the blank lines just read. -/
theorem handsOver_handed {ifs : Ifstream} {lines : List Bytes} (before : Before ifs lines)
    (configer : Configer) (iCount : Nat) : HandsOver configer ifs iCount (handed iCount lines) := by
  induction lines generalizing ifs configer iCount with
  | nil =>
    cases before with
    | done rest => exact handsOver_done configer rest iCount
  | cons line lines ih =>
    obtain ⟨ifs', taken, behind⟩ := before.getline
    -- an over-long line ends the file, so the passes behind it are those of a file without lines
    have later (configer : Configer) (blanks : Nat) :
        HandsOver configer ifs' blanks (if line.length < 128 then handed blanks lines else []) := by
      by_cases short : line.length < 128
      · simp only [short, ↓reduceIte] at behind ⊢
        exact ih behind configer blanks
      · simp only [short, ↓reduceIte] at behind ⊢
        cases behind with
        | done rest => exact handsOver_done configer rest blanks
    by_cases empty : lineText (line.take 127) = []
    · obtain ⟨noCall, pass⟩ := @pass_blank configer ifs ifs' _ iCount taken empty
      by_cases few : iCount < 4
      · have isHanded : handed iCount (line :: lines) =
            if line.length < 128 then handed (iCount + 1) lines else [] := by
          by_cases short : line.length < 128 <;>
            simp [handed, ownText, nextBlanks, empty, few, short]
        rw [if_pos few] at pass
        rw [isHanded]
        exact (later configer (iCount + 1)).skip noCall pass
      · have isHanded : handed iCount (line :: lines) = [] := by
          simp [handed, ownText, nextBlanks, empty, few]
        rw [if_neg few] at pass
        rw [isHanded]
        exact handsOver_last noCall pass
    · by_cases isReturn : (lineText (line.take 127)).head? = some 13
      · have isHanded : handed iCount (line :: lines) = if line.length < 128 then
            handed iCount lines else [] := by
          by_cases short : line.length < 128 <;>
            simp [handed, ownText, nextBlanks, empty, isReturn, short]
        obtain ⟨noCall, pass⟩ := @pass_skipped configer ifs ifs' _ iCount taken empty isReturn
        rw [isHanded]
        exact (later configer iCount).skip noCall pass
      · have isHanded : handed iCount (line :: lines) =
            lineText (line.take 127) :: if line.length < 128 then handed 0 lines else [] := by
          by_cases short : line.length < 128 <;>
            simp [handed, ownText, nextBlanks, empty, isReturn, short]
        obtain ⟨call, pass⟩ := @pass_line configer ifs ifs' _ iCount taken empty isReturn
        rw [isHanded]
        exact (later _ 0).line call pass

/-! ## What becomes of a line -/

/-- A line that is neither blank nor a comment. -/
def Significant (line : Bytes) : Prop := line ≠ [] ∧ line ≠ [13] ∧ line.head? ≠ some 35

instance (line : Bytes) : Decidable (Significant line) := inferInstanceAs (Decidable (_ ∧ _ ∧ _))

/-- A line without the carriage return at its end. -/
def dropReturn (line : Bytes) : Bytes := if line.getLast? = some 13 then line.dropLast else line

/-- A line that fits the buffer and reads the same as a C string. A line of 128 bytes does when the
last one is a carriage return that `ReadLine` would have dropped, and the one before it is not. -/
def Fits (line : Bytes) : Prop :=
  0 ∉ line ∧ (line.length < 128 ∨
    ∃ body, line = body ++ [13] ∧ body.length = 127 ∧ body.getLast? ≠ some 13)

/-- A line without a null is its own text. -/
theorem lineText_of_not_mem {line : Bytes} (clean : 0 ∉ line) :
    lineText line = dropReturn line := by
  have whole : line.takeWhile (· != 0) = line := by
    rw [List.takeWhile_eq_self_iff]
    intro c inLine
    exact bne_iff_ne.mpr (ne_of_mem_of_not_mem inLine clean)
  simp only [lineText, whole, dropReturn]

/-- The text of a line is the front of the line. -/
theorem lineText_isFront (line : Bytes) : lineText line <+: line := by
  unfold lineText
  simp only
  split
  · exact (List.dropLast_prefix _).trans (List.takeWhile_prefix _)
  · exact List.takeWhile_prefix _

/-- A text holds no null. -/
theorem not_mem_lineText (line : Bytes) : 0 ∉ lineText line := by
  have clean : 0 ∉ line.takeWhile (· != 0) := by
    intro inFront
    have nonzero := List.mem_takeWhile_imp inFront
    simp at nonzero
  unfold lineText
  simp only
  split
  · exact fun inFront => clean (List.mem_of_mem_dropLast inFront)
  · exact clean

/-- Dropping a carriage return at the end keeps the nulls. -/
theorem mem_dropReturn {line : Bytes} (inLine : 0 ∈ line) : 0 ∈ dropReturn line := by
  unfold dropReturn
  split
  · rename_i ends
    obtain ⟨front, rfl⟩ := List.getLast?_eq_some_iff.mp ends
    simpa using inLine
  · exact inLine

/-- What is read of a line is the line, up to a carriage return at its end, when it fits. -/
theorem lineText_take_iff (line : Bytes) :
    lineText (line.take 127) = dropReturn line ↔ Fits line := by
  constructor
  · intro same
    have clean : 0 ∉ line := fun inLine =>
      not_mem_lineText (line.take 127) (same ▸ mem_dropReturn inLine)
    refine ⟨clean, ?_⟩
    by_cases short : line.length < 128
    · exact .inl short
    · right
      have bound : (dropReturn line).length ≤ 127 := by
        rw [← same]
        exact (lineText_isFront _).length_le.trans (List.length_take_le 127 line)
      have ends : line.getLast? = some 13 := by
        by_contra other
        rw [dropReturn, if_neg other] at bound
        omega
      obtain ⟨body, rfl⟩ := List.getLast?_eq_some_iff.mp ends
      have isBody : dropReturn (body ++ [13]) = body := by simp [dropReturn]
      have length : body.length = 127 := by
        rw [isBody] at bound
        rw [List.length_append, List.length_singleton] at short
        omega
      refine ⟨body, rfl, length, fun ends' => ?_⟩
      have front : (body ++ [13]).take 127 = body := List.take_left' length
      have cleanBody : 0 ∉ body := fun inBody => clean (List.mem_append_left _ inBody)
      rw [front, isBody, lineText_of_not_mem cleanBody, dropReturn, if_pos ends'] at same
      have shorter := congrArg List.length same
      rw [List.length_dropLast] at shorter
      omega
  · rintro ⟨clean, short | ⟨body, rfl, length, ends⟩⟩
    · rw [List.take_of_length_le (by omega), lineText_of_not_mem clean]
    · have cleanBody : 0 ∉ body := fun inBody => clean (List.mem_append_left _ inBody)
      rw [List.take_left' length, lineText_of_not_mem cleanBody, dropReturn, if_neg ends]
      simp [dropReturn]

/-- A text that is not empty starts like its line. -/
theorem head?_lineText {line : Bytes} (nonempty : lineText (line.take 127) ≠ []) :
    (lineText (line.take 127)).head? = line.head? := by
  obtain ⟨rest, isLine⟩ := (lineText_isFront (line.take 127)).trans (List.take_prefix 127 line)
  conv_rhs => rw [← isLine, List.head?_append_of_ne_nil _ nonempty]

/-- The text of a blank line is empty. -/
theorem lineText_blank {line : Bytes} (blank : line = [] ∨ line = [13]) :
    lineText (line.take 127) = [] := by
  rcases blank with rfl | rfl <;> rfl

/-! ## Which lines are reached -/

/-- `OnInit` gets behind these lines, where `blanks` blank lines were just read: all of them fit the
buffer, and no five empty texts follow each other. A text that starts with a carriage return does
not count, but neither does it end a row of empty ones. -/
def ReachedAfter (blanks : Nat) (front : List Bytes) : Prop :=
  (∀ line ∈ front, line.length < 128) ∧
    ¬List.replicate 5 ([] : Bytes) <:+:
      List.replicate blanks [] ++ (front.map lineText).filter fun text => text.head? ≠ some 13

section

variable {blanks : Nat} {line : Bytes} {front : List Bytes}

/-- Few blank lines alone are passed. -/
theorem reachedAfter_nil (few : blanks ≤ 4) : ReachedAfter blanks [] := by
  refine ⟨fun line inFront => absurd inFront List.not_mem_nil, fun inside => ?_⟩
  have longer := inside.length_le
  simp at longer
  omega

/-- The row of texts that is searched for five empty ones. -/
theorem reachedAfter_cons (few : blanks ≤ 4) :
    ReachedAfter blanks (line :: front) ↔ ∃ next, nextBlanks blanks line = some next ∧
      ReachedAfter next front := by
  by_cases short : line.length < 128
  · have whole : line.take 127 = line := List.take_of_length_le (by omega)
    by_cases empty : lineText line = []
    · have isRow : List.replicate blanks [] ++
            ((line :: front).map lineText).filter (fun text => text.head? ≠ some 13) =
          List.replicate (blanks + 1) [] ++ (front.map lineText).filter fun text =>
          text.head? ≠ some 13 := by
        simp [empty, List.replicate_succ']
      unfold ReachedAfter
      rw [isRow, List.forall_mem_cons]
      by_cases more : blanks < 4
      · simp [nextBlanks, whole, short, empty, more]
      · have five : blanks + 1 = 5 + (blanks - 4) := by omega
        have inside : List.replicate 5 [] <:+: List.replicate (blanks + 1) [] ++
            (front.map lineText).filter fun text => text.head? ≠ some 13 := by
          rw [five, List.replicate_add, List.append_assoc]
          exact (List.prefix_append _ _).isInfix
        have ends : nextBlanks blanks line = none := by simp [nextBlanks, whole, empty, more]
        rw [ends]
        exact ⟨fun reached => absurd inside reached.2, fun ⟨_, going, _⟩ => nomatch going⟩
    · by_cases isReturn : (lineText line).head? = some 13
      · simp [ReachedAfter, nextBlanks, whole, short, empty, isReturn]
      · have free : lineText line ∉ List.replicate 5 ([] : Bytes) :=
          fun inRow => empty (List.eq_of_mem_replicate inRow)
        have noRow : ¬List.replicate 5 ([] : Bytes) <:+: List.replicate blanks [] := by
          intro inside
          have longer := inside.length_le
          simp at longer
          omega
        have next : nextBlanks blanks line = some 0 := by
          simp [nextBlanks, whole, short, empty, isReturn]
        unfold ReachedAfter
        rw [List.map_cons, List.filter_cons_of_pos (by simpa using isReturn),
          infix_append_cons free, List.forall_mem_cons, next]
        simp only [short, noRow, true_and, false_or, Option.some.injEq, exists_eq_left',
          List.replicate_zero, List.nil_append]
  · have ends : nextBlanks blanks line = none := by simp [nextBlanks, short]
    rw [ends]
    exact ⟨fun reached => absurd (reached.1 line List.mem_cons_self) short, fun ⟨_, going, _⟩ =>
      nomatch going⟩

/-- The loop never goes on behind five blank lines. -/
theorem nextBlanks_le {next : Nat} (few : blanks ≤ 4) (going : nextBlanks blanks line = some next) :
    next ≤ 4 := by
  unfold nextBlanks at going
  simp only at going
  split_ifs at going <;> cases going <;> omega

end

/-- A text is handed to `ParaseLine` when its line is reached. -/
theorem mem_handed {blanks : Nat} (few : blanks ≤ 4) {lines : List Bytes} {text : Bytes} :
    text ∈ handed blanks lines ↔
      ∃ front line back, lines = front ++ line :: back ∧ ReachedAfter blanks front ∧
      ownText line = some text := by
  induction lines generalizing blanks with
  | nil => simp [handed]
  | cons line lines ih =>
    rw [handed, List.mem_append, Option.mem_toList]
    constructor
    · rintro (own | later)
      · exact ⟨[], line, lines, rfl, reachedAfter_nil few, own⟩
      · cases going : nextBlanks blanks line with
        | none => simp [going] at later
        | some next =>
          rw [going] at later
          obtain ⟨front, other, back, isLines, reached, own⟩ :=
            (ih (nextBlanks_le few going)).mp later
          exact ⟨line :: front, other, back, by rw [isLines, List.cons_append],
            (reachedAfter_cons few).mpr ⟨next, going, reached⟩, own⟩
    · rintro ⟨front, other, back, isLines, reached, own⟩
      cases front with
      | nil =>
        cases isLines
        exact .inl own
      | cons first front =>
        cases isLines
        obtain ⟨next, going, reached⟩ := (reachedAfter_cons few).mp reached
        rw [going]
        exact .inr ((ih (nextBlanks_le few going)).mpr ⟨front, other, back, rfl, reached, own⟩)

/-! ## Which lines are dropped -/

/-- Every line that is neither blank nor a comment is reached, fits the buffer and does not start
with a carriage return. -/
def Intact (blanks : Nat) (lines : List Bytes) : Prop :=
  ∀ front line back, lines = front ++ line :: back → Significant line →
    ReachedAfter blanks front ∧ Fits line ∧ line.head? ≠ some 13

/-- A line that is reached is handed to `ParaseLine` and not accepted. -/
def Rejected (lines : List Bytes) : Prop :=
  ∃ front line back text, lines = front ++ line :: back ∧ ReachedAfter 0 front ∧
    ownText line = some text ∧
    accepts text = false

/-- The texts that are no comments. -/
def noComments (texts : List Bytes) : List Bytes := texts.filter fun text => text.head? ≠ some 35

/-- Comments are dropped from each part of a file on its own. -/
theorem noComments_append (texts texts' : List Bytes) :
    noComments (texts ++ texts') = noComments texts ++ noComments texts' := List.filter_append ..

/-- The lines that are neither blank nor comments, without the carriage returns at their ends. -/
def significantLines (lines : List Bytes) : List Bytes :=
  (lines.filter (Significant ·)).map dropReturn

/-- A significant line stays, without its carriage return. -/
theorem significantLines_cons {line : Bytes} (significant : Significant line) (lines : List Bytes) :
    significantLines (line :: lines) = dropReturn line :: significantLines lines := by
  simp [significantLines, significant]

/-- An insignificant line is dropped. -/
theorem significantLines_skip {line : Bytes} (insignificant : ¬Significant line)
    (lines : List Bytes) : significantLines (line :: lines) = significantLines lines := by
  simp [significantLines, insignificant]

section

variable {line : Bytes}

/-- Of a blank line or a comment nothing but a comment is handed over. -/
theorem ownText_insignificant (insignificant : ¬Significant line) :
    noComments (ownText line).toList = [] := by
  unfold ownText
  simp only
  split
  · rfl
  · rename_i isText
    have nonempty : lineText (line.take 127) ≠ [] := fun empty => isText (.inl empty)
    have isComment : line.head? = some 35 := by
      by_contra other
      refine insignificant ⟨?_, ?_, other⟩
      · exact fun blank => nonempty (lineText_blank (.inl blank))
      · exact fun blank => nonempty (lineText_blank (.inr blank))
    rw [← head?_lineText nonempty] at isComment
    simp [noComments, isComment]

/-- Of any other line no comment is handed over. -/
theorem ownText_significant (significant : Significant line) :
    noComments (ownText line).toList = (ownText line).toList := by
  unfold ownText
  simp only
  split
  · rfl
  · rename_i isText
    have nonempty : lineText (line.take 127) ≠ [] := fun empty => isText (.inl empty)
    have noComment := significant.2.2
    rw [← head?_lineText nonempty] at noComment
    simp [noComments, noComment]

/-- No other line becomes a comment when its carriage return is dropped. -/
theorem noComment_dropReturn (significant : Significant line) :
    (dropReturn line).head? ≠ some 35 := by
  have front : dropReturn line <+: line := by
    unfold dropReturn
    split
    · exact List.dropLast_prefix line
    · exact List.prefix_rfl
  obtain ⟨rest, isLine⟩ := front
  intro isComment
  have nonempty : dropReturn line ≠ [] := by
    intro empty
    rw [empty] at isComment
    cases isComment
  apply significant.2.2
  rw [← isLine, List.head?_append_of_ne_nil _ nonempty, isComment]

/-- A line is handed over whole when it fits and does not start with a carriage return. -/
theorem ownText_eq_iff (significant : Significant line) :
    ownText line = some (dropReturn line) ↔ Fits line ∧ line.head? ≠ some 13 := by
  have nonempty : dropReturn line ≠ [] := by
    unfold dropReturn
    split
    · rename_i ends
      obtain ⟨front, rfl⟩ := List.getLast?_eq_some_iff.mp ends
      intro empty
      rw [List.dropLast_concat] at empty
      subst empty
      exact significant.2.1 rfl
    · exact significant.1
  rw [← lineText_take_iff, ownText]
  constructor
  · intro own
    split at own
    · cases own
    · rename_i isText
      rw [not_or] at isText
      refine ⟨Option.some.inj own, ?_⟩
      rw [← head?_lineText isText.1]
      exact isText.2
  · rintro ⟨same, first⟩
    have isText : lineText (line.take 127) ≠ [] := same ▸ nonempty
    rw [← head?_lineText isText] at first
    rw [if_neg (not_or.mpr ⟨isText, first⟩), same]

end

/-- A file is intact when its first line is and the lines behind it are. -/
theorem intact_cons {blanks : Nat} (few : blanks ≤ 4) {line : Bytes} {lines : List Bytes} :
    Intact blanks (line :: lines) ↔ (Significant line → Fits line ∧ line.head? ≠ some 13) ∧
      (nextBlanks blanks line).elim (significantLines lines = []) fun next =>
        Intact next lines := by
  have others : (∀ front other back, lines = front ++ other :: back → Significant other →
      ReachedAfter blanks (line :: front) ∧ Fits other ∧ other.head? ≠ some 13) ↔
      (nextBlanks blanks line).elim (significantLines lines = []) fun next =>
      Intact next lines := by
    cases going : nextBlanks blanks line with
    | none =>
      have notReached : ∀ front, ¬ReachedAfter blanks (line :: front) := by
        intro front reached
        obtain ⟨next, isNext, -⟩ := (reachedAfter_cons few).mp reached
        rw [going] at isNext
        cases isNext
      simp only [notReached, false_and, imp_false, Option.elim_none, significantLines,
        List.map_eq_nil_iff, List.filter_eq_nil_iff, decide_eq_true_eq]
      constructor
      · intro none other inLines
        obtain ⟨front, back, isLines⟩ := List.append_of_mem inLines
        exact none front other back isLines
      · rintro none front other back rfl
        exact none other (by simp)
    | some next =>
      simp only [reachedAfter_cons few, going, Option.some.injEq, exists_eq_left',
        Option.elim_some, Intact]
  rw [← others]
  constructor
  · intro intact
    refine ⟨fun significant => (intact [] line lines rfl significant).2, ?_⟩
    rintro front other back rfl significant
    exact intact (line :: front) other back rfl significant
  · rintro ⟨own, later⟩ front other back isLines significant
    cases front with
    | nil =>
      cases isLines
      exact ⟨reachedAfter_nil few, own significant⟩
    | cons first front =>
      cases isLines
      exact later front other back rfl significant

/-- No more is handed over than there is. -/
theorem length_handed_le (blanks : Nat) (lines : List Bytes) :
    (noComments (handed blanks lines)).length ≤ (significantLines lines).length := by
  induction lines generalizing blanks with
  | nil => rfl
  | cons line lines ih =>
    have later :
      (noComments ((nextBlanks blanks line).elim [] fun next => handed next lines)).length ≤
        (significantLines lines).length := by
      cases nextBlanks blanks line with
      | none => exact Nat.zero_le _
      | some next => exact ih next
    rw [handed, noComments_append, List.length_append]
    by_cases significant : Significant line
    · have own : (noComments (ownText line).toList).length ≤ 1 := by
        rw [ownText_significant significant]
        cases ownText line <;> simp
      rw [significantLines_cons significant, List.length_cons]
      omega
    · rw [significantLines_skip significant, ownText_insignificant significant, List.length_nil,
        Nat.zero_add]
      exact later

/-- Exactly the significant lines are handed over when the file is intact. The induction is on the
lines; a line that hands over nothing leaves too few texts for the lines behind it. -/
theorem handed_eq_iff {blanks : Nat} (few : blanks ≤ 4) (lines : List Bytes) :
    noComments (handed blanks lines) = significantLines lines ↔ Intact blanks lines := by
  induction lines generalizing blanks with
  | nil =>
    refine ⟨fun _ front line back isLines => ?_, fun _ => rfl⟩
    exact absurd isLines.symm (by simp)
  | cons line lines ih =>
    have later : noComments ((nextBlanks blanks line).elim [] fun next => handed next lines) =
        significantLines lines ↔
        (nextBlanks blanks line).elim (significantLines lines = []) fun next =>
        Intact next lines := by
      cases going : nextBlanks blanks line with
      | none => exact ⟨fun empty => empty.symm, fun empty => empty.symm⟩
      | some next => exact ih (nextBlanks_le few going)
    rw [intact_cons few, ← later, handed, noComments_append]
    by_cases significant : Significant line
    · rw [ownText_significant significant, significantLines_cons significant,
        ← ownText_eq_iff significant]
      cases own : ownText line with
      | none =>
        have short :
          (noComments ((nextBlanks blanks line).elim [] fun next => handed next lines)).length ≤
            (significantLines lines).length := by
          cases nextBlanks blanks line with
          | none => exact Nat.zero_le _
          | some next => exact length_handed_le next lines
        constructor
        · intro same
          have length := congrArg List.length same
          simp only [Option.toList_none, List.nil_append, List.length_cons] at length
          omega
        · exact fun both => nomatch both.1 significant
      | some text => simp [significant]
    · rw [ownText_insignificant significant, significantLines_skip significant, List.nil_append]
      simp [significant]

/-! ## `OnInit` -/

/-- The texts that `ParaseLine` accepted in the passes of the loop. -/
def acceptedTexts (states : List (Configer × Ifstream × Nat)) : List Bytes :=
  ((states.filterMap paraseCall).filter Prod.snd).map Prod.fst

/-- If `OnInit` of a file succeeds, then every line that is neither blank nor a comment was passed
to `ParaseLine` in its turn, whole up to a carriage return at its end, and accepted. -/
def NothingDropped (configer : Configer) (contents : Bytes) : Prop :=
  (configer.onInit (some contents)).1 = true →
    ∃ states, Passes initIteration (configer, ⟨contents, true⟩,
      0) states (configer.onInit (some contents)) ∧
      (significantLines (contents.splitOn 10)).Sublist (acceptedTexts states)

/-- What `OnInit` does with a file, in terms of its lines. -/
theorem onInit_handed (configer : Configer) (contents : Bytes) :
    ∃ states, Passes initIteration (configer, ⟨contents, true⟩,
      0) states (configer.onInit (some contents)) ∧
      (configer.onInit (some contents)).1 = (handed 0 (contents.splitOn 10)).all accepts ∧
      ((configer.onInit (some contents)).1 = true →
        acceptedTexts states = handed 0 (contents.splitOn 10) ∧
        (configer.onInit (some contents)).2 =
          parased configer (handed 0 (contents.splitOn 10))) := by
  obtain ⟨states, result, passes, verdict, calls⟩ :=
    handsOver_handed (before_contents contents) configer 0
  have isResult : configer.onInit (some contents) = result := by
    simp only [onInit, passes.loop_eq]
  rw [isResult]
  refine ⟨states, passes, verdict, fun succeeded => ⟨?_, (calls succeeded).2⟩⟩
  rw [acceptedTexts, (calls succeeded).1]
  simp [List.filter_map, Function.comp_def]

/-- `OnInit` fails when a line that is reached is not accepted. -/
theorem rejected_iff (lines : List Bytes) :
    Rejected lines ↔ (handed 0 lines).all accepts = false := by
  simp only [List.all_eq_false, mem_handed (Nat.zero_le 4), Rejected, Bool.not_eq_true]
  constructor
  · rintro ⟨front, line, back, text, isLines, reached, own, rejected⟩
    exact ⟨text, ⟨front, line, back, isLines, reached, own⟩, rejected⟩
  · rintro ⟨text, ⟨front, line, back, isLines, reached, own⟩, rejected⟩
    exact ⟨front, line, back, text, isLines, reached, own, rejected⟩

/-- All significant lines are among the texts that are handed over when the file is intact. -/
theorem sublist_handed_iff (lines : List Bytes) :
    (significantLines lines).Sublist (handed 0 lines) ↔ Intact 0 lines := by
  rw [← handed_eq_iff (Nat.zero_le 4)]
  constructor
  · intro among
    have noComment : noComments (significantLines lines) = significantLines lines := by
      rw [noComments, List.filter_eq_self]
      intro text inLines
      obtain ⟨line, inFile, isText⟩ := List.mem_map.mp inLines
      have significant : Significant line := by simpa using (List.mem_filter.mp inFile).2
      rw [← isText]
      simpa using noComment_dropReturn significant
    have among' : (significantLines lines).Sublist (noComments (handed 0 lines)) := by
      rw [← noComment]
      exact among.filter _
    exact (among'.eq_of_length_le (length_handed_le 0 lines)).symm
  · intro same
    rw [← same]
    exact List.filter_sublist

/-- A line is dropped when `OnInit` succeeds without having been handed it. -/
theorem nothingDropped_handed (configer : Configer) (contents : Bytes) :
    NothingDropped configer contents ↔ ((handed 0 (contents.splitOn 10)).all accepts = true →
      (significantLines (contents.splitOn 10)).Sublist (handed 0 (contents.splitOn 10))) := by
  obtain ⟨states, passes, verdict, calls⟩ := onInit_handed configer contents
  rw [← verdict, NothingDropped]
  refine imp_congr_right fun succeeded => ?_
  rw [← (calls succeeded).1]
  constructor
  · rintro ⟨states', passes', among⟩
    obtain ⟨rfl, -⟩ := passes.unique passes'
    exact among
  · exact fun among => ⟨states, passes, among⟩

/-- `OnInit` drops no line of a file, as long as it succeeds, exactly when a line that is reached is
not accepted or the file is intact. -/
theorem nothingDropped_iff (configer : Configer) (contents : Bytes) :
    NothingDropped configer contents ↔ Rejected (contents.splitOn 10) ∨
      Intact 0 (contents.splitOn 10) := by
  rw [nothingDropped_handed, sublist_handed_iff, rejected_iff]
  cases (handed 0 (contents.splitOn 10)).all accepts <;> simp

/-- Behind five blank lines the rest of a file is dropped. -/
theorem blank_lines_drop_rest :
    ¬NothingDropped .new (bytes "threads=5\n\n\n\n\n\nenable_ssl=true\n") := by
  rw [nothingDropped_handed]
  decide +kernel

end NetServer
