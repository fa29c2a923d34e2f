import NetServer.Common.Fnmatch
import NetServer.Lib.Text
import NetServer.Log.LogData

/-!
# The two forms of `LogData::MatchingString`

Where there is `fnmatch`, the names of log files are matched with it. The other form looks for the
pieces of the pattern between its stars, each of them anywhere in the name. For patterns of ordinary
characters and stars the two are the same exactly when there is one piece at most and stars on both
sides of it. A pattern that ends in `.log` is not such a pattern.
-/

namespace NetServer

open Lib

/-- `LogData::MatchingString` with `fnmatch`. -/
def matchingString (brackets : Brackets) (string pattern : Bytes) : Bool :=
  fnmatch brackets pattern string

/-- The loop of the other form: `piece` is what was read of the pattern since the last star. -/
def matchLoop (string piece : Bytes) : Bytes → Bool
  | [] => if piece.length > 0 then (find piece string).isSome else true
  | c :: pattern =>
    if c = 42 then (find piece string).isSome && matchLoop string [] pattern
    else matchLoop string (piece ++ [c]) pattern

/-- `LogData::MatchingString` where there is no `fnmatch`. The pattern is copied to a buffer of 260
bytes, and it ends with the null behind it there. -/
def matchingStringWin (string pattern : Bytes) : Except LogFault Bool :=
  if 260 ≤ (cString pattern).length then .error .bufferOverflow
  else .ok (matchLoop (cString string) [] (cString pattern))

/-- A character that stands for itself in a pattern. -/
def IsOrdinary (c : UInt8) : Prop := c ≠ 0 ∧ c ≠ 42 ∧ c ≠ 63 ∧ c ≠ 91 ∧ c ≠ 92

instance (c : UInt8) : Decidable (IsOrdinary c) := inferInstanceAs (Decidable (_ ∧ _ ∧ _ ∧ _ ∧ _))

/-- Stars around one piece at most. -/
def Unanchored (pattern : Bytes) : Prop :=
  ∃ before piece behind,
    pattern = List.replicate (before + 1) 42 ++ piece ++ List.replicate behind 42 ∧
    42 ∉ piece ∧ (piece ≠ [] → behind ≠ 0)

/-! ## The pieces of a pattern -/

/-- The pieces between the stars, the first of which started with what was read. -/
def patternPieces (read : Bytes) : Bytes → List Bytes
  | [] => [read]
  | c :: pattern =>
    if c = 42 then read :: patternPieces [] pattern else patternPieces (read ++ [c]) pattern

variable {string pattern : Bytes}

/-- The pieces are looked for one by one, each in all of the name. -/
theorem matchLoop_iff (read pattern : Bytes) :
    matchLoop string read pattern = true ↔ ∀ piece ∈ patternPieces read pattern,
      piece <:+: string := by
  induction pattern generalizing read with
  | nil =>
    rw [matchLoop, patternPieces, List.forall_mem_singleton]
    split_ifs with some
    · exact find_isSome_iff read string
    · rw [List.eq_nil_of_length_eq_zero (Nat.eq_zero_of_not_pos some)]
      exact iff_of_true rfl List.nil_infix
  | cons c pattern ih =>
    rw [matchLoop, patternPieces]
    split_ifs
    · rw [Bool.and_eq_true, find_isSome_iff, ih, List.forall_mem_cons]
    · exact ih (read ++ [c])

/-- The pieces have all characters but the stars. -/
theorem flatten_patternPieces (read pattern : Bytes) :
    (patternPieces read pattern).flatten = read ++ pattern.filter (· ≠ 42) := by
  induction pattern generalizing read with
  | nil => rw [patternPieces, List.flatten_singleton, List.filter_nil, List.append_nil]
  | cons c pattern ih =>
    rw [patternPieces]
    split_ifs with star
    · rw [List.flatten_cons, ih, List.nil_append, List.filter_cons_of_neg (by simpa using star)]
    · rw [ih, List.append_assoc, List.filter_cons_of_pos (by simpa using star),
        List.singleton_append]

/-- A name with all characters of the pattern but its stars, in their order, has all pieces. -/
theorem matchLoop_of_infix (whole : pattern.filter (· ≠ 42) <:+: string) :
    matchLoop string [] pattern = true := by
  rw [matchLoop_iff]
  intro piece listed
  have inside := List.infix_of_mem_flatten listed
  rw [flatten_patternPieces, List.nil_append] at inside
  exact inside.trans whole

/-- Stars in front are passed. -/
theorem matchLoop_stars (number : Nat) (pattern : Bytes) :
    matchLoop string [] (List.replicate number 42 ++ pattern) = matchLoop string [] pattern := by
  induction number with
  | zero => rfl
  | succ number ih =>
    have found : (find [] string).isSome = true := (find_isSome_iff [] string).mpr List.nil_infix
    rw [List.replicate_succ, List.cons_append, matchLoop, if_pos rfl, found, Bool.true_and, ih]

/-- A piece in front of a star is looked for. -/
theorem matchLoop_piece {piece : Bytes} (noStar : 42 ∉ piece) (read pattern : Bytes) :
    matchLoop string read (piece ++ 42 :: pattern) =
      ((find (read ++ piece) string).isSome && matchLoop string [] pattern) := by
  induction piece generalizing read with
  | nil => rw [List.nil_append, List.append_nil, matchLoop, if_pos rfl]
  | cons c piece ih =>
    rw [List.mem_cons, not_or] at noStar
    rw [List.cons_append, matchLoop, if_neg (Ne.symm noStar.1), ih noStar.2, List.append_assoc,
      List.singleton_append]

/-! ## Names that one form accepts -/

/-- The tokens of a pattern of ordinary characters and stars. -/
def starTokens (pattern : Bytes) : List (GlobToken UInt8) := pattern.map (starToken 42)

/-- A name that has all pieces and does not match. -/
def Mistaken (pattern string : Bytes) : Prop :=
  0 ∉ string ∧ matchLoop string [] pattern = true ∧ globMatch (starTokens pattern) string = false

/-- A letter that is not a given character. -/
def otherLetter (c : UInt8) : UInt8 := if c = 97 then 98 else 97

/-- The other letter is a different character, and no NUL. -/
theorem otherLetter_ne (c : UInt8) : otherLetter c ≠ c ∧ otherLetter c ≠ 0 := by
  unfold otherLetter
  split_ifs with letter
  · rw [letter]
    decide
  · exact ⟨Ne.symm letter, by decide⟩

/-- A pattern that starts with a character accepts a name that starts with another. -/
theorem exists_mistaken_front {c : UInt8} {rest : Bytes} (noNull : 0 ∉ c :: rest)
    (noStar : c ≠ 42) : ∃ string, Mistaken (c :: rest) string := by
  obtain ⟨different, some⟩ := otherLetter_ne c
  refine ⟨otherLetter c :: (c :: rest).filter (· ≠ 42), ?_, ?_, ?_⟩
  · rw [List.mem_cons, not_or]
    exact ⟨Ne.symm some, fun null => noNull (List.mem_of_mem_filter null)⟩
  · exact matchLoop_of_infix (List.infix_cons (List.infix_refl _))
  · rw [Bool.eq_false_iff]
    intro isMatch
    rw [starTokens, List.map_cons, starToken, if_neg noStar] at isMatch
    obtain ⟨c', text, same, accepted, -⟩ := globMatch_one.mp isMatch
    rw [← (List.cons.inj same).1] at accepted
    exact different (eq_of_beq accepted)

/-- A pattern that ends with a character accepts a name that ends with another. -/
theorem exists_mistaken_end {front : Bytes} {c : UInt8} (noNull : 0 ∉ front ++ [c])
    (noStar : c ≠ 42) : ∃ string, Mistaken (front ++ [c]) string := by
  obtain ⟨different, some⟩ := otherLetter_ne c
  refine ⟨(front ++ [c]).filter (· ≠ 42) ++ [otherLetter c], ?_, ?_, ?_⟩
  · rw [List.mem_append, not_or, List.mem_singleton]
    exact ⟨fun null => noNull (List.mem_of_mem_filter null), Ne.symm some⟩
  · exact matchLoop_of_infix (List.prefix_append _ _).isInfix
  · rw [Bool.eq_false_iff]
    intro isMatch
    rw [starTokens, List.map_append, List.map_singleton, starToken, if_neg noStar] at isMatch
    obtain ⟨before, last, same, -, isLast⟩ := globMatch_append.mp isMatch
    obtain rfl : last = [c] := globMatch_word.mp isLast
    exact different (List.cons.inj (List.append_inj_right' same rfl)).1

/-- Names of two pieces: the second in front of the first, or the longer one alone. -/
theorem exists_short_or_swapped {piece other : Bytes} (some : piece ≠ []) (some' : other ≠ [])
    (rest : Bytes) :
    ∃ front, (∀ c ∈ front, c ∈ piece ++ other) ∧ piece <:+: front ∧ other <:+: front ∧
      ¬(piece ++ other ++ rest).Sublist (front ++ rest) := by
  have shorter {front : Bytes} (less : front.length < (piece ++ other).length) :
      ¬(piece ++ other ++ rest).Sublist (front ++ rest) := by
    intro inside
    have := (List.append_sublist_append_right rest).mp inside |>.length_le
    omega
  have positive := List.length_pos_of_ne_nil some
  have positive' := List.length_pos_of_ne_nil some'
  by_cases commute : piece ++ other = other ++ piece
  · -- Pieces that commute are prefixes of one another.
    have inFront : piece <+: other ++ piece := by
      rw [← commute]
      exact List.prefix_append piece other
    obtain first | second :=
      List.prefix_or_prefix_of_prefix inFront (List.prefix_append other piece)
    · refine ⟨other, fun c listed => List.mem_append_right piece listed, first.isInfix,
        List.infix_refl other, ?_⟩
      exact shorter (by rw [List.length_append]; omega)
    · refine ⟨piece, fun c listed => List.mem_append_left other listed, List.infix_refl piece,
        second.isInfix, ?_⟩
      exact shorter (by rw [List.length_append]; omega)
  · refine ⟨other ++ piece, fun c listed => ?_, (List.suffix_append _ _).isInfix,
      (List.prefix_append _ _).isInfix, ?_⟩
    · rw [List.mem_append] at listed ⊢
      exact listed.symm
    · intro inside
      have inside := (List.append_sublist_append_right rest).mp inside
      refine commute (inside.eq_of_length ?_)
      rw [List.length_append, List.length_append, Nat.add_comm]

/-- The pieces of a pattern that are not empty, of which there is one if it has a character. A name
with all of them is accepted. -/
theorem exists_pieces {rest : Bytes} (more : ∃ c ∈ rest, c ≠ 42) :
    ∃ other others, other ≠ [] ∧ other ++ others.flatten = rest.filter (· ≠ 42) ∧
      ∀ string, (∀ piece ∈ other :: others, piece <:+: string) →
      matchLoop string [] rest = true := by
  have pieces := flatten_patternPieces [] rest
  rw [List.nil_append, ← List.flatten_filter_ne_nil] at pieces
  obtain ⟨other, others, isPieces⟩ :
      ∃ other others, (patternPieces [] rest).filter (· ≠ []) = other :: others := by
    refine List.exists_cons_of_ne_nil fun none => ?_
    obtain ⟨c, listed, character⟩ := more
    rw [none, List.flatten_nil, eq_comm, List.filter_eq_nil_iff] at pieces
    exact pieces c listed (decide_eq_true character)
  rw [isPieces, List.flatten_cons] at pieces
  have some : other ≠ [] := by
    have listed : other ∈ (patternPieces [] rest).filter (· ≠ []) := isPieces ▸ List.mem_cons_self
    simpa using (List.mem_filter.mp listed).2
  refine ⟨other, others, some, pieces, fun string inside => ?_⟩
  rw [matchLoop_iff]
  intro piece listed
  by_cases empty : piece = []
  · rw [empty]
    exact List.nil_infix
  · have kept : piece ∈ (patternPieces [] rest).filter (· ≠ []) :=
      List.mem_filter.mpr ⟨listed, by simpa using empty⟩
    rw [isPieces] at kept
    exact inside piece kept

/-- A pattern with two pieces accepts a name that has them in another order, or that has one within
the other. -/
theorem exists_mistaken_pieces {piece rest : Bytes} (number : Nat)
    (noNull : 0 ∉ List.replicate number 42 ++ (piece ++ 42 :: rest)) (some : piece ≠ [])
    (noStar : 42 ∉ piece) (more : ∃ c ∈ rest, c ≠ 42) :
    ∃ string, Mistaken (List.replicate number 42 ++ (piece ++ 42 :: rest)) string := by
  have written : (piece ++ 42 :: rest).filter (· ≠ 42) = piece ++ rest.filter (· ≠ 42) := by
    rw [List.filter_append, List.filter_cons_of_neg (by decide), List.filter_eq_self.mpr]
    intro c listed
    rw [decide_eq_true_iff]
    exact fun star => noStar (star ▸ listed)
  obtain ⟨other, others, some', pieces, accepts⟩ := exists_pieces more
  obtain ⟨front, letters, first, second, notInside⟩ :=
    exists_short_or_swapped some some' others.flatten
  refine ⟨front ++ others.flatten, ?_, ?_, ?_⟩
  · intro null
    have inRest (c : UInt8) (listed : c ∈ other ++ others.flatten) : c ∈ rest := by
      rw [pieces] at listed
      exact List.mem_of_mem_filter listed
    have listed : 0 ∈ piece ++ 42 :: rest := by
      rw [List.mem_append, List.mem_cons]
      obtain inFront | behind := List.mem_append.mp null
      · obtain inPiece | inOther := List.mem_append.mp (letters 0 inFront)
        · exact .inl inPiece
        · exact .inr (.inr (inRest 0 (List.mem_append_left _ inOther)))
      · exact .inr (.inr (inRest 0 (List.mem_append_right _ behind)))
    exact noNull (List.mem_append_right _ listed)
  · rw [matchLoop_stars, matchLoop_piece noStar, List.nil_append, Bool.and_eq_true, find_isSome_iff]
    refine ⟨first.trans (List.prefix_append _ _).isInfix, accepts _ fun found listed => ?_⟩
    obtain rfl | later := List.mem_cons.mp listed
    · exact second.trans (List.prefix_append _ _).isInfix
    · exact (List.infix_of_mem_flatten later).trans (List.suffix_append _ _).isInfix
  · rw [Bool.eq_false_iff]
    intro isMatch
    have inside := sublist_of_globMatch isMatch
    rw [List.filter_append, written, ← pieces, ← List.append_assoc piece] at inside
    exact notInside ((List.sublist_append_right _ _).trans inside)

/-- The stars in front of a pattern. -/
theorem exists_stars (pattern : Bytes) :
    ∃ number rest, pattern = List.replicate number 42 ++ rest ∧ ∀ c tail, rest = c :: tail →
      c ≠ 42 := by
  induction pattern with
  | nil => exact ⟨0, [], rfl, fun c tail isCons => nomatch isCons⟩
  | cons c pattern ih =>
    by_cases star : c = 42
    · obtain ⟨number, rest, rfl, first⟩ := ih
      rw [star]
      exact ⟨number + 1, rest, rfl, first⟩
    · refine ⟨0, c :: pattern, rfl, fun c' tail isCons => ?_⟩
      rw [← (List.cons.inj isCons).1]
      exact star

/-- Every other pattern accepts a name that does not match. -/
theorem exists_mistaken (noNull : 0 ∉ pattern) (anchored : ¬Unanchored pattern) :
    ∃ string, Mistaken pattern string := by
  obtain ⟨number, rest, rfl, first⟩ := exists_stars pattern
  cases rest with
  | nil =>
    cases number with
    | zero => exact ⟨[97], by decide, rfl, rfl⟩
    | succ number =>
      refine absurd ⟨number, [], 0, ?_, List.not_mem_nil, fun some => absurd rfl some⟩ anchored
      rw [List.append_nil, List.replicate_zero, List.append_nil]
  | cons c rest =>
    have character := first c rest rfl
    cases number with
    | zero => exact exists_mistaken_front noNull character
    | succ number =>
      by_cases star : 42 ∈ c :: rest
      · obtain ⟨piece, behind, isRest, noStar⟩ := List.eq_append_cons_of_mem star
        have some : piece ≠ [] := by
          rintro rfl
          exact first 42 behind isRest rfl
        rw [isRest] at noNull anchored ⊢
        by_cases more : ∃ c ∈ behind, c ≠ 42
        · exact exists_mistaken_pieces (number + 1) noNull some noStar more
        · have stars : behind = List.replicate behind.length 42 :=
            List.eq_replicate_of_mem fun c listed => of_not_not fun other => more ⟨c, listed, other⟩
          have stars : 42 :: behind = List.replicate (behind.length + 1) 42 := by
            rw [List.replicate_succ, ← stars]
          refine absurd ⟨number, piece, behind.length + 1, ?_, noStar, fun _ =>
            Nat.succ_ne_zero _⟩ anchored
          rw [stars, List.append_assoc]
      · have isLast := List.dropLast_append_getLast (List.cons_ne_nil c rest)
        have notStar : (c :: rest).getLast (List.cons_ne_nil c rest) ≠ 42 :=
          fun isStar => star (isStar ▸ List.getLast_mem (List.cons_ne_nil c rest))
        rw [← isLast, ← List.append_assoc] at noNull ⊢
        exact exists_mistaken_end noNull notStar

/-! ## The two forms -/

/-- A pattern of one piece between stars asks for the piece, in both forms. -/
theorem Unanchored.matchLoop_eq (unanchored : Unanchored pattern) (string : Bytes) :
    matchLoop string [] pattern = globMatch (starTokens pattern) string := by
  obtain ⟨before, piece, behind, rfl, noStar, closed⟩ := unanchored
  have stars (number : Nat) : starTokens (List.replicate number 42) = List.replicate number .star :=
    List.map_replicate
  have word : starTokens piece = piece.map literal := by
    refine List.map_congr_left fun c listed => if_neg ?_
    rintro rfl
    exact noStar listed
  rw [List.append_assoc]
  have tokens : starTokens (List.replicate (before + 1) 42 ++ (piece ++ List.replicate behind 42)) =
      List.replicate (before + 1) .star ++ (piece.map literal ++ List.replicate behind .star) := by
    rw [← stars, ← stars, ← word]
    unfold starTokens
    rw [List.map_append, List.map_append]
  rw [tokens, matchLoop_stars, Bool.eq_iff_iff]
  cases behind with
  | zero =>
    obtain rfl : piece = [] := of_not_not fun some => closed some rfl
    simp only [List.map_nil, List.replicate_zero, List.append_nil]
    exact iff_of_true rfl (globMatch_stars before string)
  | succ behind =>
    have later : matchLoop string [] (List.replicate behind 42) = true := by
      have passed := @matchLoop_stars string behind []
      rw [List.append_nil] at passed
      exact passed
    rw [globMatch_between_stars, List.replicate_succ, matchLoop_piece noStar, later, Bool.and_true,
      List.nil_append, find_isSome_iff]

/-- The tokens of a pattern of ordinary characters and stars. -/
theorem globTokens_ordinary (brackets : Brackets)
    (ordinary : ∀ c ∈ pattern, c = 42 ∨ IsOrdinary c) :
    globTokens brackets pattern = starTokens pattern := by
  have absent {c : UInt8} (other : c ≠ 42) (special : ¬IsOrdinary c) : c ∉ pattern :=
    fun listed => (ordinary c listed).elim other special
  rw [globTokens_plain brackets (absent (by decide) (by decide)) (absent (by decide) (by decide))]
  refine List.map_congr_left fun c listed => ?_
  have noMark : c ≠ 63 := by
    rintro rfl
    exact absent (by decide) (by decide) listed
  rw [plainToken, starToken, if_neg noMark]

/-- The two forms accept the same names exactly when the pattern fits the buffer and has stars
around one piece at most. -/
theorem matching_forms_agree_iff (brackets : Brackets) {pattern : Bytes}
    (ordinary : ∀ c ∈ pattern, c = 42 ∨ IsOrdinary c) :
    (∀ string, matchingStringWin string pattern = .ok (matchingString brackets string pattern)) ↔
      pattern.length < 260 ∧ Unanchored pattern := by
  have noNull : 0 ∉ pattern := fun null => (ordinary 0 null).elim (by decide) fun special =>
    special.1 rfl
  have whole : cString pattern = pattern := cString_eq_self.mpr noNull
  have tokens := globTokens_ordinary brackets ordinary
  constructor
  · intro agree
    have fits : pattern.length < 260 := by
      by_contra long
      have answer := agree []
      rw [matchingStringWin, whole, if_pos (Nat.le_of_not_lt long)] at answer
      cases answer
    refine ⟨fits, of_not_not fun anchored => ?_⟩
    obtain ⟨string, noNull', loop, noMatch⟩ := exists_mistaken noNull anchored
    have answer := agree string
    rw [matchingStringWin, whole, if_neg (Nat.not_le_of_lt fits), matchingString, fnmatch,
      whole, tokens, cString_eq_self.mpr noNull', loop, noMatch] at answer
    cases answer
  · rintro ⟨fits, unanchored⟩ string
    rw [matchingStringWin, whole, if_neg (Nat.not_le_of_lt fits), matchingString, fnmatch,
      whole, tokens, unanchored.matchLoop_eq]

/-- Names with `log` in them. -/
theorem matching_forms_agree_log :
    Unanchored (bytes "*log*") ∧
      ∀ string, matchingStringWin string (bytes "*log*") =
        .ok (matchingString noBrackets string (bytes "*log*")) := by
  have unanchored : Unanchored (bytes "*log*") :=
    ⟨0, bytes "log", 1, by decide, by decide, by decide⟩
  have ordinary : ∀ c ∈ bytes "*log*", c = 42 ∨ IsOrdinary c :=
    List.all_iff_forall_prop.mp (by decide)
  exact ⟨unanchored, (matching_forms_agree_iff noBrackets ordinary).mpr ⟨by decide, unanchored⟩⟩

/-- A pattern that is not anchored ends with a star. -/
theorem Unanchored.getLast? (unanchored : Unanchored pattern) : pattern.getLast? = some 42 := by
  obtain ⟨before, piece, behind, rfl, -, closed⟩ := unanchored
  cases behind with
  | zero =>
    obtain rfl : piece = [] := of_not_not fun some => closed some rfl
    rw [List.replicate_zero, List.append_nil, List.append_nil, List.replicate_succ',
      List.getLast?_concat]
  | succ behind =>
    have some : List.replicate (behind + 1) (42 : UInt8) ≠ [] := List.cons_ne_nil _ _
    rw [List.getLast?_append_of_ne_nil _ some, List.replicate_succ', List.getLast?_concat]

/-- With every prefix of ordinary characters there is a file that the other form takes for a log
file. -/
theorem exists_wrongly_enlisted (brackets : Brackets) {szFileName : Bytes}
    (ordinary : ∀ c ∈ szFileName, IsOrdinary c) (fits : szFileName.length + 5 < 128) :
    ∃ string, matchingStringWin string (szFileName ++ bytes "*.log") = .ok true ∧
      matchingString brackets string (szFileName ++ bytes "*.log") = false := by
  have ending : ∀ c ∈ bytes "*.log", c = 42 ∨ IsOrdinary c :=
    List.all_iff_forall_prop.mp (by decide)
  have search (c : UInt8) (listed : c ∈ szFileName ++ bytes "*.log") : c = 42 ∨ IsOrdinary c := by
    obtain inName | inEnd := List.mem_append.mp listed
    · exact .inr (ordinary c inName)
    · exact ending c inEnd
  have noNull : 0 ∉ szFileName ++ bytes "*.log" :=
    fun null => (search 0 null).elim (by decide) fun special => special.1 rfl
  have anchored : ¬Unanchored (szFileName ++ bytes "*.log") := by
    intro unanchored
    have last := unanchored.getLast?
    rw [List.getLast?_append_of_ne_nil _ (by decide)] at last
    exact absurd last (by decide)
  have short : ¬260 ≤ (szFileName ++ bytes "*.log").length := by
    have five : (bytes "*.log").length = 5 := by decide
    rw [List.length_append]
    omega
  obtain ⟨string, noNull', loop, noMatch⟩ := exists_mistaken noNull anchored
  have whole : cString (szFileName ++ bytes "*.log") = szFileName ++ bytes "*.log" :=
    cString_eq_self.mpr noNull
  refine ⟨string, ?_, ?_⟩
  · rw [matchingStringWin, whole, if_neg short, cString_eq_self.mpr noNull', loop]
  · rw [matchingString, fnmatch, whole, globTokens_ordinary brackets search,
      cString_eq_self.mpr noNull', noMatch]

/-- A copy of a log file under another name is enlisted, and it is the first that the clean-up
deletes. -/
theorem other_file_is_enlisted : ∃ start next,
    matchingStringWin (bytes "wlog.log.bak") (bytes "wlog*.log") = .ok true ∧
      matchingString noBrackets (bytes "wlog.log.bak") (bytes "wlog*.log") = false ∧
      matchingStringWin (bytes "wlog20261117000000.log") (bytes "wlog*.log") = .ok true ∧
      LogData.new.init (some (bytes "./Log")) none 1 2 0 .found
        (some [⟨bytes "wlog.log.bak", false, true, by decide⟩,
          ⟨bytes "wlog20261117000000.log", false, true, by decide⟩]) = .ok (0, start) ∧
      start.fileList = [bytes "./Log/wlog.log.bak", bytes "./Log/wlog20261117000000.log"] ∧
      start.cleanFile ⟨100, 70000, 0, [], 70, true⟩ = .ok next ∧
      next.fileList = [bytes "./Log/wlog20261117000000.log"] := by
  refine ⟨_, _, ?_, ?_, ?_, rfl, ?_, rfl, ?_⟩
  all_goals decide +kernel

end NetServer
