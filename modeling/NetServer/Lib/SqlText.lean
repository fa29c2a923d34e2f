import Mathlib

/-!
# Texts with quoted literals, and formats for them

A text is read by MySQL's rules for single-quoted literals: a doubled quote stands for one, a
backslash escapes the byte behind it, and `\%` and `\_` stand for themselves. A format is a text in
which some literals are `'%s'`. What is printed with it reads as the format with its arguments for
those literals exactly when every argument is plain (`read_filled_iff`): an escape makes what is
read shorter than what was written, and nothing makes it longer.
-/

namespace NetServer.Lib

/-- A part of a text: a byte outside of literals, or a literal with its value. -/
inductive SqlToken where
  | outside (c : UInt8)
  | literal (content : List UInt8)
  deriving DecidableEq, Repr

/-! ## Reading -/

/-- What a backslash and the byte behind it stand for. -/
def unescape (c : UInt8) : List UInt8 :=
  if c = 48 then [0]
  else if c = 98 then [8]
  else if c = 110 then [10]
  else if c = 114 then [13]
  else if c = 116 then [9]
  else if c = 90 then [26]
  else if c = 37 ∨ c = 95 then [92, c]
  else [c]

/-- Read a text, within a literal of which some content is read already, or outside. A literal that
is not closed is an error. -/
def readSql : Option (List UInt8) → List UInt8 → Option (List SqlToken)
  | none, [] => some []
  | none, c :: rest =>
    if c = 39 then readSql (some []) rest else (readSql none rest).map (.outside c :: ·)
  | some _, [] => none
  | some content, [c] => if c = 39 then some [.literal content] else none
  | some content, c :: next :: rest =>
    if c = 92 then readSql (some (content ++ unescape next)) rest
    else if c = 39 then
      if next = 39 then readSql (some (content ++ [39])) rest
      else (readSql none (next :: rest)).map (.literal content :: ·)
    else readSql (some (content ++ [c])) (next :: rest)

/-- A content that stands for itself in a literal: it has no quote, and a backslash only in front of
`%` and `_`. -/
def Plain : List UInt8 → Prop
  | [] => True
  | [c] => c ≠ 39 ∧ c ≠ 92
  | c :: next :: rest =>
    if c = 92 then (next = 37 ∨ next = 95) ∧ Plain rest else c ≠ 39 ∧ Plain (next :: rest)

instance decidablePlain : (content : List UInt8) → Decidable (Plain content)
  | [] => inferInstanceAs (Decidable True)
  | [c] => inferInstanceAs (Decidable (c ≠ 39 ∧ c ≠ 92))
  | c :: next :: rest =>
    have := decidablePlain rest
    have := decidablePlain (next :: rest)
    inferInstanceAs (Decidable (if c = 92 then (next = 37 ∨ next = 95) ∧ Plain rest else c ≠ 39 ∧
      Plain (next :: rest)))

/-- A byte in front of a plain content. -/
theorem Plain.cons {c : UInt8} {content : List UInt8} (noQuote : c ≠ 39) (noEscape : c ≠ 92)
    (plain : Plain content) : Plain (c :: content) := by
  cases content with
  | nil => exact ⟨noQuote, noEscape⟩
  | cons next rest =>
    rw [Plain, if_neg noEscape]
    exact ⟨noQuote, plain⟩

/-- Contents without quotes and backslashes are plain. -/
theorem plain_of_forall {content : List UInt8} (clean : ∀ c ∈ content, c ≠ 39 ∧ c ≠ 92) :
    Plain content := by
  induction content with
  | nil => trivial
  | cons c content ih =>
    obtain ⟨noQuote, noEscape⟩ := clean c List.mem_cons_self
    exact .cons noQuote noEscape (ih fun other inRest =>
      clean other (List.mem_cons_of_mem c inRest))

/-- A byte of a literal. -/
theorem readSql_byte {c : UInt8} (noQuote : c ≠ 39) (noEscape : c ≠ 92) (front rest : List UInt8) :
    readSql (some front) (c :: rest) = readSql (some (front ++ [c])) rest := by
  cases rest with
  | nil => simp only [readSql, noQuote, ↓reduceIte]
  | cons next rest => simp only [readSql, noQuote, noEscape, ↓reduceIte]

/-- An escape in a literal. -/
theorem readSql_escape (next : UInt8) (front rest : List UInt8) :
    readSql (some front) (92 :: next :: rest) = readSql (some (front ++ unescape next)) rest := by
  simp only [readSql, ↓reduceIte]

/-- The end of a literal. -/
theorem readSql_close (front : List UInt8) {rest : List UInt8} (closed : rest.head? ≠ some 39) :
    readSql (some front) (39 :: rest) = (readSql none rest).map (.literal front :: ·) := by
  cases rest with
  | nil => rfl
  | cons next rest =>
    have noQuote : next ≠ 39 := fun isQuote => closed (by rw [isQuote, List.head?_cons])
    simp only [readSql, noQuote, ↓reduceIte, show (39 : UInt8) ≠ 92 by decide]

/-- Bytes outside. -/
theorem readSql_outside {front : List UInt8} (noQuote : 39 ∉ front) (rest : List UInt8) :
    readSql none (front ++ rest) = (readSql none rest).map (front.map .outside ++ ·) := by
  induction front with
  | nil => exact Option.map_id'.symm
  | cons c front ih =>
    rw [List.mem_cons, not_or] at noQuote
    rw [List.cons_append, readSql, if_neg (Ne.symm noQuote.1), ih noQuote.2, Option.map_map]
    rfl

/-- A plain content is read up to the quote that closes it. -/
theorem readSql_plain {content : List UInt8} (plain : Plain content) (front : List UInt8)
    {rest : List UInt8} (closed : rest.head? ≠ some 39) :
    readSql (some front) (content ++ 39 :: rest) =
      (readSql none rest).map (.literal (front ++ content) :: ·) := by
  induction content using Plain.induct generalizing front with
  | case1 => rw [List.nil_append, List.append_nil, readSql_close front closed]
  | case2 c => rw [List.singleton_append, readSql_byte plain.1 plain.2, readSql_close _ closed]
  | case3 next rest' ih =>
    rw [Plain, if_pos rfl] at plain
    have same : unescape next = [92, next] := by
      rcases plain.1 with rfl | rfl
      · decide
      · decide
    rw [List.cons_append, List.cons_append, readSql_escape, same, ih plain.2, List.append_assoc]
    rfl
  | case4 c next rest' noEscape ih =>
    rw [Plain, if_neg noEscape] at plain
    rw [List.cons_append, readSql_byte plain.1 noEscape, ih plain.2, List.append_assoc]
    rfl

/-! ## What is read is not longer -/

/-- The number of bytes that a token takes at least. -/
def SqlToken.width : SqlToken → Nat
  | .outside _ => 1
  | .literal content => content.length + 2

/-- The number of bytes that tokens take at least. -/
def widths (tokens : List SqlToken) : Nat := (tokens.map SqlToken.width).sum

/-- The width of tokens is that of the first and that of the others. -/
@[simp] theorem widths_cons (token : SqlToken) (tokens : List SqlToken) :
    widths (token :: tokens) = token.width + widths tokens := by
  rw [widths, List.map_cons, List.sum_cons, widths]

/-- Literals that are all plain. -/
def AllPlain (tokens : List SqlToken) : Prop := ∀ content, .literal content ∈ tokens → Plain content

/-- The tokens of a text take no more bytes than it has, and as many only if their literals are
plain. -/
structure Tight (tokens : List SqlToken) (length : Nat) : Prop where
  short : widths tokens ≤ length
  plain : widths tokens = length → AllPlain tokens

/-- The same for a text that starts within a literal. -/
structure TightWithin (front : List UInt8) (tokens : List SqlToken) (length : Nat) : Prop where
  split : ∃ more rest, tokens = .literal (front ++ more) :: rest ∧
    more.length + 1 + widths rest ≤ length ∧
    (more.length + 1 + widths rest = length → Plain more ∧ AllPlain rest)

/-- An escape is one byte, or it is plain. -/
theorem unescape_cases (c : UInt8) :
    (unescape c).length = 1 ∨ unescape c = [92, c] ∧ (c = 37 ∨ c = 95) := by
  unfold unescape
  split_ifs with h1 h2 h3 h4 h5 h6 plain
  all_goals first | exact .inl rfl | exact .inr ⟨rfl, plain⟩

/-- A byte outside in front of tight tokens. -/
theorem Tight.outside {tokens : List SqlToken} {length : Nat} (tight : Tight tokens length)
    (c : UInt8) : Tight (.outside c :: tokens) (length + 1) := by
  have width : widths (.outside c :: tokens) = 1 + widths tokens := widths_cons _ _
  refine ⟨by rw [width]; have := tight.short; omega, fun equal content isIn => ?_⟩
  rcases List.mem_cons.1 isIn with isToken | isIn
  · cases isToken
  · exact tight.plain (by omega) content isIn

/-- A literal whose rest is tight. -/
theorem TightWithin.open {tokens : List SqlToken} {length : Nat}
    (tight : TightWithin [] tokens length) : Tight tokens (length + 1) := by
  obtain ⟨content, rest, rfl, short, plain⟩ := tight.split
  have width : widths (.literal ([] ++ content) :: rest) = content.length + 2 + widths rest :=
    widths_cons _ _
  refine ⟨by rw [width]; omega, fun equal other isIn => ?_⟩
  obtain ⟨isPlain, arePlain⟩ := plain (by omega)
  rcases List.mem_cons.1 isIn with isToken | isIn
  · rw [SqlToken.literal.inj isToken]
    exact isPlain
  · exact arePlain other isIn

/-- The end of a literal in front of tight tokens. -/
theorem Tight.close {tokens : List SqlToken} {length : Nat} (tight : Tight tokens length)
    (front : List UInt8) : TightWithin front (.literal front :: tokens) (length + 1) := by
  refine ⟨[], tokens, by rw [List.append_nil], ?_, fun equal => ⟨trivial, tight.plain ?_⟩⟩
  · have := tight.short
    simp only [List.length_nil]
    omega
  · simp only [List.length_nil] at equal
    omega

/-- Bytes in front of a literal's rest, of which the content has no more, and as many only if they
are plain there. -/
theorem TightWithin.extend {front read : List UInt8} {tokens : List SqlToken} {length : Nat}
    (taken : Nat) (tight : TightWithin (front ++ read) tokens length) (short : read.length ≤ taken)
    (plain : read.length = taken → ∀ more, Plain more → Plain (read ++ more)) :
    TightWithin front tokens (length + taken) := by
  obtain ⟨more, rest, rfl, shortRest, plainRest⟩ := tight.split
  refine ⟨read ++ more, rest, by rw [List.append_assoc], ?_, fun equal => ?_⟩
  · rw [List.length_append]
    omega
  · rw [List.length_append] at equal
    obtain ⟨isPlain, arePlain⟩ := plainRest (by omega)
    exact ⟨plain (by omega) more isPlain, arePlain⟩

/-- Tight tokens, by where the text starts. -/
def TightFrom : Option (List UInt8) → List SqlToken → Nat → Prop
  | none => Tight
  | some front => TightWithin front

/-- What is read is tight. -/
theorem readSql_tight (state : Option (List UInt8)) (text : List UInt8) {tokens : List SqlToken}
    (read : readSql state text = some tokens) : TightFrom state tokens text.length := by
  induction state, text using readSql.induct generalizing tokens with
  | case1 =>
    cases read
    exact ⟨Nat.le_refl 0, fun _ content inNil => absurd inNil List.not_mem_nil⟩
  | case2 rest ih =>
    rw [readSql, if_pos rfl] at read
    exact TightWithin.open (ih read)
  | case3 c rest noQuote ih =>
    rw [readSql, if_neg noQuote, Option.map_eq_some_iff] at read
    obtain ⟨others, readOthers, rfl⟩ := read
    exact Tight.outside (ih readOthers) c
  | case4 front => cases read
  | case5 front =>
    cases read
    exact Tight.close ⟨Nat.le_refl 0, fun _ content inNil => absurd inNil List.not_mem_nil⟩ front
  | case6 front c noQuote =>
    rw [readSql, if_neg noQuote] at read
    cases read
  | case7 front next rest ih =>
    rw [readSql_escape] at read
    refine TightWithin.extend 2 (ih read) ?_ fun equal more plain => ?_
    · rcases unescape_cases next with one | ⟨same, -⟩
      · omega
      · rw [same]
        exact Nat.le_refl 2
    · rcases unescape_cases next with one | ⟨same, wild⟩
      · omega
      · rw [same]
        exact ⟨wild, plain⟩
  | case8 front rest noEscape ih =>
    rw [readSql, if_neg noEscape, if_pos rfl, if_pos rfl] at read
    exact TightWithin.extend 2 (ih read) (Nat.le_succ 1) fun equal => absurd equal (by decide)
  | case9 front next rest noQuote noEscape ih =>
    rw [readSql_close front (by simpa using noQuote), Option.map_eq_some_iff] at read
    obtain ⟨others, readOthers, rfl⟩ := read
    exact Tight.close (ih readOthers) front
  | case10 front c next rest noEscape noQuote ih =>
    rw [readSql_byte noQuote noEscape] at read
    exact TightWithin.extend 1 (ih read) (Nat.le_refl 1) fun _ more plain =>
      plain.cons noQuote noEscape

/-! ## Writing -/

/-- A text whose bytes are written as they are, and its literals between quotes. -/
def render (tokens : List SqlToken) : List UInt8 :=
  tokens.flatMap fun
    | .outside c => [c]
    | .literal content => 39 :: content ++ [39]

/-- Without tokens the text is empty. -/
@[simp] theorem render_nil : render [] = [] := rfl

/-- Tokens are written one after the other. -/
theorem render_append (tokens tokens' : List SqlToken) :
    render (tokens ++ tokens') = render tokens ++ render tokens' :=
  List.flatMap_append

/-- A byte outside literals is written as it is. -/
@[simp] theorem render_outside (c : UInt8) (tokens : List SqlToken) :
    render (.outside c :: tokens) = c :: render tokens := rfl

/-- A literal is written between two quotes. -/
@[simp] theorem render_literal (content : List UInt8) (tokens : List SqlToken) :
    render (.literal content :: tokens) = 39 :: (content ++ 39 :: render tokens) := by
  rw [render, List.flatMap_cons, List.append_assoc, List.cons_append]
  rfl

/-- A text has as many bytes as its tokens take. -/
theorem length_render (tokens : List SqlToken) : (render tokens).length = widths tokens := by
  induction tokens with
  | nil => rfl
  | cons token tokens ih =>
    cases token with
    | outside c =>
      rw [render_outside, List.length_cons, ih, widths_cons, SqlToken.width, Nat.add_comm]
    | literal content =>
      rw [render_literal, widths_cons, SqlToken.width]
      simp only [List.length_cons, List.length_append, ih]
      omega

/-- Whether a text starts with a literal. -/
def startsLiteral : List SqlToken → Bool
  | .literal _ :: _ => true
  | _ => false

/-- Whether no quote stands outside and no literal directly in front of another. -/
def separated : List SqlToken → Bool
  | [] => true
  | .outside c :: tokens => c != 39 && separated tokens
  | .literal _ :: tokens => !startsLiteral tokens && separated tokens

/-- What stands behind a literal does not start with a quote. -/
theorem head_render {tokens : List SqlToken} (sep : separated tokens)
    (notLiteral : startsLiteral tokens = false) : (render tokens).head? ≠ some 39 := by
  cases tokens with
  | nil => nofun
  | cons token tokens =>
    cases token with
    | outside c =>
      simp only [separated, Bool.and_eq_true, bne_iff_ne] at sep
      exact fun isQuote => sep.1 (Option.some.inj isQuote)
    | literal other => cases notLiteral

/-- Plain literals are read back. -/
theorem readSql_render {tokens : List SqlToken} (sep : separated tokens) (plain : AllPlain tokens) :
    readSql none (render tokens) = some tokens := by
  induction tokens with
  | nil => rfl
  | cons token tokens ih =>
    have plainRest : AllPlain tokens := fun content isIn =>
      plain content (List.mem_cons_of_mem _ isIn)
    cases token with
    | outside c =>
      simp only [separated, Bool.and_eq_true, bne_iff_ne] at sep
      rw [render_outside, readSql, if_neg sep.1, ih sep.2 plainRest]
      rfl
    | literal content =>
      simp only [separated, Bool.and_eq_true, Bool.not_eq_true'] at sep
      rw [render_literal, readSql, if_pos rfl,
        readSql_plain (plain content List.mem_cons_self) [] (head_render sep.2 sep.1),
        ih sep.2 plainRest]
      rfl

/-- A text is read back exactly when its literals are plain. -/
theorem readSql_render_iff {tokens : List SqlToken} (sep : separated tokens) :
    readSql none (render tokens) = some tokens ↔ AllPlain tokens := by
  refine ⟨fun read => ?_, readSql_render sep⟩
  have tight : Tight tokens (render tokens).length := readSql_tight none _ read
  exact tight.plain (length_render tokens).symm

/-! ## Formats -/

/-- The place of an argument: the literal `'%s'`. -/
def slot : SqlToken := .literal [37, 115]

/-- The number of arguments that a format takes. -/
def slots (tokens : List SqlToken) : Nat := tokens.count slot

/-- A format with its arguments in their places. -/
def fill : List SqlToken → List (List UInt8) → List SqlToken
  | [], _ => []
  | token :: tokens, [] => token :: fill tokens []
  | token :: tokens, arg :: args =>
    if token = slot then .literal arg :: fill tokens args else token :: fill tokens (arg :: args)

/-- What `sprintf` writes for a format whose only conversion is `%s`; other conversions, and a
conversion without an argument, have no meaning here. -/
def sprintf : List UInt8 → List (List UInt8) → Option (List UInt8)
  | [], _ => some []
  | [c], _ => if c = 37 then none else some [c]
  | c :: next :: rest, args =>
    if c = 37 then
      match next, args with
      | 115, arg :: args => (sprintf rest args).map (arg ++ ·)
      | _, _ => none
    else (sprintf (next :: rest) args).map (c :: ·)

/-- A byte that starts no conversion. -/
theorem sprintf_byte {c : UInt8} (noConversion : c ≠ 37) (rest : List UInt8)
    (args : List (List UInt8)) : sprintf (c :: rest) args = (sprintf rest args).map (c :: ·) := by
  cases rest with
  | nil => simp only [sprintf, noConversion, ↓reduceIte, Option.map_some]
  | cons next rest => simp only [sprintf, noConversion, ↓reduceIte]

/-- A conversion. -/
theorem sprintf_conversion (rest arg : List UInt8) (args : List (List UInt8)) :
    sprintf (37 :: 115 :: rest) (arg :: args) = (sprintf rest args).map (arg ++ ·) := by
  simp only [sprintf, ↓reduceIte]

/-- Bytes that start no conversion. -/
theorem sprintf_bytes {front : List UInt8} (noConversion : 37 ∉ front) (rest : List UInt8)
    (args : List (List UInt8)) :
    sprintf (front ++ rest) args = (sprintf rest args).map (front ++ ·) := by
  induction front with
  | nil => exact Option.map_id'.symm
  | cons c front ih =>
    rw [List.mem_cons, not_or] at noConversion
    rw [List.cons_append, sprintf_byte (Ne.symm noConversion.1), ih noConversion.2, Option.map_map]
    rfl

/-- Whether a token may stand in a format: it is the place of an argument, or it has no conversion
and is plain. -/
def SqlToken.fits : SqlToken → Bool
  | .outside c => c != 37
  | .literal content => decide (.literal content = slot ∨ 37 ∉ content ∧ Plain content)

/-- How a format is filled with as many arguments as it takes. -/
inductive Fills : List SqlToken → List (List UInt8) → List SqlToken → Prop where
  | nil : Fills [] [] []
  | outside {c : UInt8} {tokens filled : List SqlToken} {args : List (List UInt8)}
    (noConversion : c ≠ 37)
      (fills : Fills tokens args filled) : Fills (.outside c :: tokens) args (.outside c :: filled)
  | constant {content : List UInt8} {tokens filled : List SqlToken} {args : List (List UInt8)}
      (noConversion : 37 ∉ content) (plain : Plain content) (fills : Fills tokens args filled) :
      Fills (.literal content :: tokens) args (.literal content :: filled)
  | arg {arg : List UInt8} {tokens filled : List SqlToken} {args : List (List UInt8)}
      (fills : Fills tokens args filled) :
        Fills (slot :: tokens) (arg :: args) (.literal arg :: filled)

/-- A token that is not the place of an argument stays. -/
theorem fill_of_ne {token : SqlToken} (noSlot : token ≠ slot) (tokens : List SqlToken)
    (args : List (List UInt8)) : fill (token :: tokens) args = token :: fill tokens args := by
  cases args with
  | nil => rfl
  | cons arg args => rw [fill, if_neg noSlot]

/-- A format with as many arguments as it takes is filled. -/
theorem fills_fill {tokens : List SqlToken} {args : List (List UInt8)}
    (fits : tokens.all SqlToken.fits) (count : slots tokens = args.length) :
    Fills tokens args (fill tokens args) := by
  induction tokens generalizing args with
  | nil =>
    rw [List.length_eq_zero_iff.1 count.symm]
    exact .nil
  | cons token tokens ih =>
    rw [List.all_cons, Bool.and_eq_true] at fits
    by_cases isSlot : token = slot
    · subst isSlot
      rw [slots, List.count_cons_self] at count
      obtain ⟨arg, args, rfl⟩ := List.exists_cons_of_length_eq_add_one count.symm
      rw [fill, if_pos rfl]
      exact .arg (ih fits.2 (Nat.succ.inj count))
    · rw [slots, List.count_cons_of_ne isSlot] at count
      rw [fill_of_ne isSlot]
      cases token with
      | outside c => exact .outside (bne_iff_ne.1 fits.1) (ih fits.2 count)
      | literal content =>
        obtain ⟨noConversion, plain⟩ := (of_decide_eq_true fits.1).resolve_left isSlot
        exact .constant noConversion plain (ih fits.2 count)

namespace Fills

variable {tokens filled : List SqlToken} {args : List (List UInt8)}

/-- A format that is written and then printed with its arguments is the filled format, written. -/
theorem sprintf_eq (fills : Fills tokens args filled) :
    sprintf (render tokens) args = some (render filled) := by
  have quote : (39 : UInt8) ≠ 37 := by decide
  induction fills with
  | nil => rfl
  | outside noConversion _ ih =>
    rw [render_outside, sprintf_byte noConversion, ih, render_outside, Option.map_some]
  | constant noConversion _ _ ih =>
    rw [render_literal, sprintf_byte quote, sprintf_bytes noConversion, sprintf_byte quote, ih,
      render_literal]
    rfl
  | arg _ ih =>
    rw [slot, render_literal, sprintf_byte quote, List.cons_append, List.cons_append,
      List.nil_append, sprintf_conversion, sprintf_byte quote, ih, render_literal]
    rfl

/-- The argument's bytes stand for the two bytes of each conversion. -/
theorem length_render_eq (fills : Fills tokens args filled) :
    (render filled).length + 2 * args.length =
      (render tokens).length + (args.map List.length).sum := by
  induction fills with
  | nil => rfl
  | outside _ _ ih =>
    simp only [render_outside, List.length_cons]
    omega
  | constant _ _ _ ih =>
    simp only [render_literal, List.length_cons, List.length_append]
    omega
  | arg _ ih =>
    simp only [slot, render_literal, List.length_cons, List.length_append, List.map_cons,
      List.sum_cons, List.length_nil]
    omega

/-- The bytes of a filled format are those of the format and the arguments. -/
theorem not_mem_render {c : UInt8} (fills : Fills tokens args filled)
    (notInFormat : c ∉ render tokens) (notInArgs : ∀ arg ∈ args, c ∉ arg) : c ∉ render filled := by
  induction fills with
  | nil => exact notInFormat
  | outside _ _ ih =>
    simp only [render_outside, List.mem_cons, not_or] at notInFormat ⊢
    exact ⟨notInFormat.1, ih notInFormat.2 notInArgs⟩
  | constant _ _ _ ih =>
    simp only [render_literal, List.mem_cons, List.mem_append, not_or] at notInFormat ⊢
    obtain ⟨quote, content, -, rest⟩ := notInFormat
    exact ⟨quote, content, quote, ih rest notInArgs⟩
  | arg _ ih =>
    rw [List.forall_mem_cons] at notInArgs
    simp only [slot, render_literal, List.mem_cons, List.mem_append, not_or] at notInFormat ⊢
    obtain ⟨quote, -, -, rest⟩ := notInFormat
    exact ⟨quote, notInArgs.1, quote, ih rest notInArgs.2⟩

/-- A filled format ends as the format does. -/
theorem outside_last {last : UInt8} (fills : Fills (tokens ++ [.outside last]) args filled) :
    ∃ front, filled = front ++ [.outside last] := by
  induction tokens generalizing args filled with
  | nil =>
    rw [List.nil_append] at fills
    cases fills with
    | outside _ rest =>
      cases rest
      exact ⟨[], rfl⟩
  | cons token tokens ih =>
    rw [List.cons_append] at fills
    cases fills with
    | outside _ rest | constant _ _ rest | arg rest =>
      obtain ⟨front, rfl⟩ := ih rest
      exact ⟨_ :: front, rfl⟩

/-- A filled format starts as the format does. -/
theorem startsLiteral_eq (fills : Fills tokens args filled) :
    startsLiteral filled = startsLiteral tokens := by
  cases fills <;> rfl

/-- Filling a format joins no literals. -/
theorem separated_eq (fills : Fills tokens args filled) : separated filled = separated tokens := by
  induction fills with
  | nil => rfl
  | outside _ _ ih => rw [separated, ih, separated]
  | constant _ _ fills ih => rw [separated, ih, fills.startsLiteral_eq, separated]
  | arg fills ih => rw [separated, ih, fills.startsLiteral_eq, slot, separated]

/-- The literals of a filled format are plain exactly when the arguments are. -/
theorem allPlain_iff (fills : Fills tokens args filled) :
    AllPlain filled ↔ ∀ arg ∈ args, Plain arg := by
  induction fills with
  | nil => exact ⟨fun _ => nofun, fun _ => nofun⟩
  | outside _ _ ih =>
    rw [← ih, AllPlain, AllPlain]; simp only [List.mem_cons, reduceCtorEq, false_or]
  | constant _ plain _ ih =>
    rw [← ih, AllPlain, AllPlain]
    simp only [List.mem_cons, SqlToken.literal.injEq, forall_eq_or_imp]
    exact and_iff_right plain
  | arg _ ih =>
    rw [List.forall_mem_cons, ← ih, AllPlain, AllPlain]
    simp only [List.mem_cons, SqlToken.literal.injEq, forall_eq_or_imp]

end Fills

/-- The bytes around a text are outside of literals if they are no quotes. -/
theorem tokens_enclosed {tokens : List SqlToken} {first last : UInt8} {inner : List UInt8}
    (written : render tokens = first :: (inner ++ [last])) (noQuote : first ≠ 39)
    (noQuote' : last ≠ 39) : ∃ middle, tokens = .outside first :: (middle ++ [.outside last]) := by
  cases tokens with
  | nil => cases written
  | cons token tokens =>
    cases token with
    | literal content =>
      rw [render_literal] at written
      exact absurd (List.cons.inj written).1.symm noQuote
    | outside c =>
      rw [render_outside] at written
      obtain ⟨rfl, inside⟩ := List.cons.inj written
      obtain rfl | ⟨middle, token, rfl⟩ := List.eq_nil_or_concat tokens
      · exact absurd inside.symm (List.append_ne_nil_of_right_ne_nil _ (List.cons_ne_nil _ _))
      · rw [List.concat_eq_append] at inside ⊢
        cases token with
        | literal content =>
          rw [render_append, render_literal, render_nil, ← List.cons_append, ← List.append_assoc]
            at inside
          exact absurd (List.cons.inj (List.append_inj_right' inside rfl)).1.symm noQuote'
        | outside c' =>
          rw [render_append, render_outside, render_nil] at inside
          obtain rfl := (List.cons.inj (List.append_inj_right' inside rfl)).1
          exact ⟨middle, rfl⟩

/-- A format whose only conversions are quoted, with the number of arguments it takes. -/
structure SqlFormat where
  text : List UInt8
  tokens : List SqlToken
  arity : Nat
  isText : render tokens = text
  sep : separated tokens
  fits : tokens.all SqlToken.fits
  count : slots tokens = arity
  noZero : 0 ∉ text

namespace SqlFormat

/-- The tokens of a text, if it can be read. -/
def tokensOf (text : List UInt8) : List SqlToken := (readSql none text).getD []

/-- The format of a text that reads as one. -/
def ofText (text : List UInt8) (arity : Nat)
    (reads : render (tokensOf text) = text ∧ separated (tokensOf text) ∧
      (tokensOf text).all SqlToken.fits ∧
      slots (tokensOf text) = arity ∧ 0 ∉ text) : SqlFormat :=
  ⟨text, tokensOf text, arity, reads.1, reads.2.1, reads.2.2.1, reads.2.2.2.1, reads.2.2.2.2⟩

variable (format : SqlFormat) {args : List (List UInt8)}

/-- The format with its arguments in their places. -/
def filled (args : List (List UInt8)) : List SqlToken := fill format.tokens args

/-- The number of bytes of a format beside its conversions. -/
def fixed : Nat := format.text.length - 2 * format.arity

/-- A format is filled with as many arguments as it takes. -/
theorem fills (given : format.arity = args.length) :
    Fills format.tokens args (format.filled args) :=
  fills_fill format.fits (format.count.trans given)

/-- The filled format is what is printed. -/
theorem sprintf_text (given : format.arity = args.length) :
    sprintf format.text args = some (render (format.filled args)) := by
  rw [← format.isText]
  exact (format.fills given).sprintf_eq

/-- A format has two bytes for each conversion, as it is filled with empty arguments too. -/
theorem two_mul_arity_le : 2 * format.arity ≤ format.text.length := by
  have length := (format.fills (List.length_replicate (a := [])).symm).length_render_eq
  rw [format.isText, List.length_replicate, List.map_replicate, List.length_nil,
    List.sum_replicate_nat, Nat.mul_zero] at length
  omega

/-- What is printed starts and ends with the bytes around the format. -/
theorem enclosed {first last : UInt8} {inner : List UInt8}
    (around : format.text = first :: (inner ++ [last])) (noQuote : first ≠ 39)
    (noQuote' : last ≠ 39) (given : format.arity = args.length) :
    ∃ body, render (format.filled args) = first :: (body ++ [last]) := by
  obtain ⟨middle, isTokens⟩ := tokens_enclosed (format.isText.trans around) noQuote noQuote'
  have fills := format.fills given
  rw [isTokens] at fills
  generalize format.filled args = filled at fills ⊢
  cases fills with
  | outside _ rest =>
    obtain ⟨front, rfl⟩ := rest.outside_last
    refine ⟨render front, ?_⟩
    rw [render_outside, render_append, render_outside, render_nil]

/-- The number of bytes that are printed. -/
theorem length_filled (given : format.arity = args.length) :
    (render (format.filled args)).length = format.fixed + (args.map List.length).sum := by
  have length := (format.fills given).length_render_eq
  have conversions := format.two_mul_arity_le
  rw [format.isText] at length
  rw [fixed]
  omega

/-- What is printed is a C string if the arguments are. -/
theorem zero_not_mem_filled (given : format.arity = args.length) (noZero : ∀ arg ∈ args, 0 ∉ arg) :
    0 ∉ render (format.filled args) := by
  have noZeroFormat := format.noZero
  rw [← format.isText] at noZeroFormat
  exact (format.fills given).not_mem_render noZeroFormat noZero

/-- What is printed reads as the filled format exactly when every argument is plain. -/
theorem read_filled_iff (given : format.arity = args.length) :
    readSql none (render (format.filled args)) = some (format.filled args) ↔
      ∀ arg ∈ args, Plain arg := by
  have fills := format.fills given
  rw [readSql_render_iff (fills.separated_eq.trans format.sep), fills.allPlain_iff]

end SqlFormat

end NetServer.Lib
