import Mathlib.Data.List.Infix
import Mathlib.Tactic.Common

/-!
# Matching of patterns with stars

A pattern is a list of tokens: some accept one symbol, and a star accepts any text. Two patterns one
behind the other match a text when it has two parts that they match (`globMatch_append`), which
carries most of the rest. Tokens that stand for one symbol are the symbols of the text in their
order (`sublist_of_globMatch`).
-/

namespace NetServer.Lib

variable {α : Type}

/-- A token of a pattern. -/
inductive GlobToken (α : Type) where
  | one (accepts : α → Bool)
  | star

/-- Whether a text matches all of a pattern. -/
def globMatch : List (GlobToken α) → List α → Bool
  | [], text => text.isEmpty
  | .one _ :: _, [] => false
  | .one accepts :: tokens, c :: text => accepts c && globMatch tokens text
  | .star :: tokens, text => text.tails.any (globMatch tokens)

variable {tokens tokens' : List (GlobToken α)} {text : List α}

/-- The empty pattern. -/
theorem globMatch_nil : globMatch [] text = true ↔ text = [] := List.isEmpty_iff

/-- A token that accepts one symbol. -/
theorem globMatch_one {accepts : α → Bool} :
    globMatch (.one accepts :: tokens) text = true ↔
      ∃ c rest, text = c :: rest ∧ accepts c = true ∧ globMatch tokens rest = true := by
  cases text with
  | nil => simp [globMatch]
  | cons c text => simp [globMatch]

/-- A star. -/
theorem globMatch_star :
    globMatch (.star :: tokens) text = true ↔ ∃ front back, text = front ++ back ∧
      globMatch tokens back = true := by
  rw [globMatch, List.any_eq_true]
  constructor
  · rintro ⟨back, isTail, isMatch⟩
    obtain ⟨front, rfl⟩ := (List.mem_tails _ _).mp isTail
    exact ⟨front, back, rfl, isMatch⟩
  · rintro ⟨front, back, rfl, isMatch⟩
    exact ⟨back, (List.mem_tails _ _).mpr ⟨front, rfl⟩, isMatch⟩

/-- Patterns one behind the other match texts one behind the other. -/
theorem globMatch_append :
    globMatch (tokens ++ tokens') text = true ↔
      ∃ front back, text = front ++ back ∧ globMatch tokens front = true ∧
      globMatch tokens' back = true := by
  induction tokens generalizing text with
  | nil =>
    constructor
    · intro isMatch
      exact ⟨[], text, rfl, rfl, isMatch⟩
    · rintro ⟨front, back, rfl, empty, isMatch⟩
      rw [globMatch_nil.mp empty]
      exact isMatch
  | cons token tokens ih =>
    cases token with
    | one accepts =>
      rw [List.cons_append, globMatch_one]
      constructor
      · rintro ⟨c, rest, rfl, accepted, isMatch⟩
        obtain ⟨front, back, rfl, first, second⟩ := ih.mp isMatch
        exact ⟨c :: front, back, rfl, globMatch_one.mpr ⟨c, front, rfl, accepted, first⟩, second⟩
      · rintro ⟨front, back, rfl, first, second⟩
        obtain ⟨c, rest, rfl, accepted, first⟩ := globMatch_one.mp first
        exact ⟨c, rest ++ back, rfl, accepted, ih.mpr ⟨rest, back, rfl, first, second⟩⟩
    | star =>
      rw [List.cons_append, globMatch_star]
      constructor
      · rintro ⟨skipped, rest, rfl, isMatch⟩
        obtain ⟨front, back, rfl, first, second⟩ := ih.mp isMatch
        refine ⟨skipped ++ front, back, (List.append_assoc _ _ _).symm, ?_, second⟩
        exact globMatch_star.mpr ⟨skipped, front, rfl, first⟩
      · rintro ⟨front, back, rfl, first, second⟩
        obtain ⟨skipped, rest, rfl, inner⟩ := globMatch_star.mp first
        exact ⟨skipped, rest ++ back, List.append_assoc _ _ _,
          ih.mpr ⟨rest, back, rfl, inner, second⟩⟩

/-- Stars, at least one, match every text. -/
theorem globMatch_stars (number : Nat) (text : List α) :
    globMatch (List.replicate (number + 1) .star) text = true := by
  induction number with
  | zero => exact globMatch_star.mpr ⟨text, [], (List.append_nil text).symm, rfl⟩
  | succ number ih => exact globMatch_star.mpr ⟨[], text, rfl, ih⟩

/-! ## Tokens for symbols -/

section

variable [DecidableEq α]

/-- The token for one symbol. -/
def literal (c : α) : GlobToken α := .one (· == c)

/-- The token for a symbol of which one stands for the star. -/
def starToken (wild c : α) : GlobToken α := if c = wild then .star else literal c

/-- A word matches itself alone. -/
theorem globMatch_word {word : List α} :
    globMatch (word.map literal) text = true ↔ text = word := by
  induction word generalizing text with
  | nil => exact globMatch_nil
  | cons c word ih =>
    rw [List.map_cons, literal, globMatch_one]
    constructor
    · rintro ⟨c', rest, rfl, same, isMatch⟩
      rw [eq_of_beq same, ih.mp isMatch]
    · rintro rfl
      exact ⟨c, word, rfl, beq_self_eq_true c, ih.mpr rfl⟩

/-- A word between stars is looked for in all of the text. -/
theorem globMatch_between_stars {word : List α} {before behind : Nat} :
    globMatch (List.replicate (before + 1) .star ++
      (word.map literal ++ List.replicate (behind + 1) .star)) text =
      true ↔ word <:+: text := by
  rw [globMatch_append]
  constructor
  · rintro ⟨front, rest, rfl, -, isMatch⟩
    obtain ⟨found, back, rfl, isWord, -⟩ := globMatch_append.mp isMatch
    rw [globMatch_word.mp isWord]
    exact ⟨front, back, List.append_assoc _ _ _⟩
  · rintro ⟨front, back, rfl⟩
    refine ⟨front, word ++ back, List.append_assoc _ _ _, globMatch_stars before front, ?_⟩
    exact globMatch_append.mpr ⟨word, back, rfl, globMatch_word.mpr rfl,
      globMatch_stars behind back⟩

/-- The symbols that a pattern asks for are in the text, in their order. -/
theorem sublist_of_globMatch {wild : α} {pattern : List α}
    (isMatch : globMatch (pattern.map (starToken wild)) text = true) :
    (pattern.filter (· ≠ wild)).Sublist text := by
  induction pattern generalizing text with
  | nil => exact List.nil_sublist text
  | cons c pattern ih =>
    rw [List.map_cons, starToken] at isMatch
    by_cases isWild : c = wild
    · rw [if_pos isWild] at isMatch
      obtain ⟨front, back, rfl, rest⟩ := globMatch_star.mp isMatch
      rw [List.filter_cons_of_neg (by simpa using isWild)]
      exact (ih rest).trans (List.sublist_append_right front back)
    · rw [if_neg isWild] at isMatch
      obtain ⟨c', rest, rfl, same, isMatch⟩ := globMatch_one.mp isMatch
      rw [List.filter_cons_of_pos (by simpa using isWild), eq_of_beq same]
      exact (ih isMatch).cons_cons c

/-- A symbol that a pattern asks for is in the text. -/
theorem mem_of_globMatch {c : α} (asked : literal c ∈ tokens)
    (isMatch : globMatch tokens text = true) : c ∈ text := by
  obtain ⟨before, after, rfl⟩ := List.append_of_mem asked
  obtain ⟨front, back, rfl, -, isMatch⟩ := globMatch_append.mp isMatch
  obtain ⟨c', rest, rfl, same, -⟩ := globMatch_one.mp isMatch
  rw [eq_of_beq same]
  exact List.mem_append_right front List.mem_cons_self

end

end NetServer.Lib
