import Mathlib.Data.List.Infix
import Mathlib.Tactic.Common

/-!
# Searching and cutting lists

The list counterparts of the standard string operations: `find` reports the first
occurrence of a pattern, `substr` and `substrFrom` throw when the start lies past the end.
A pattern of two distinct symbols cannot overlap itself, so its first occurrence after a text
free of it is exactly at the end of that text. `OnlyLast` says of a list that nothing follows its
elements of some kind.
-/

namespace NetServer.Lib

/-- The exception a substring operation throws when its start lies past the end. -/
inductive OutOfRange where
  | outOfRange
  deriving DecidableEq, Repr

variable {α : Type}

/-- At most `count` symbols from `start` on. -/
def substr (text : List α) (start count : Nat) : Except OutOfRange (List α) :=
  if start ≤ text.length then .ok ((text.drop start).take count) else .error .outOfRange

/-- All symbols from `start` on. -/
def substrFrom (text : List α) (start : Nat) : Except OutOfRange (List α) :=
  if start ≤ text.length then .ok (text.drop start) else .error .outOfRange

/-- A substring from the front never throws. -/
@[simp]
theorem substr_zero (text : List α) (count : Nat) :
    substr text 0 count = .ok (text.take count) := by
  simp [substr]

/-- A substring that starts inside the text is the rest of the text. -/
theorem substrFrom_inside {text : List α} {start : Nat} (inside : start ≤ text.length) :
    substrFrom text start = .ok (text.drop start) := if_pos inside

/-- An element of a kind stands at the end of a list only. -/
def OnlyLast (kind : α → Prop) (elements : List α) : Prop :=
  ∀ front element back, elements = front ++ element :: back → kind element → back = []

/-- In the empty text there is nothing to be last. -/
theorem onlyLast_nil {kind : α → Prop} : OnlyLast kind [] := by
  intro front element back isEmpty
  simp at isEmpty

/-- An element of another kind may be followed by any. -/
theorem onlyLast_cons_of_not {kind : α → Prop} {first : α} (other : ¬kind first)
    {elements : List α} : OnlyLast kind (first :: elements) ↔ OnlyLast kind elements := by
  constructor
  · intro last front element back isElements
    exact last (first :: front) element back (by rw [isElements, List.cons_append])
  · intro last front element back isElements isKind
    cases front with
    | nil =>
      cases isElements
      exact absurd isKind other
    | cons _ front =>
      cases isElements
      exact last front element back rfl isKind

/-- An element of the kind is followed by none. -/
theorem onlyLast_cons {kind : α → Prop} {first : α} (isFirst : kind first) {elements : List α} :
    OnlyLast kind (first :: elements) ↔ elements = [] := by
  constructor
  · intro last
    exact last [] first elements rfl isFirst
  · rintro rfl front element back isElements -
    cases front with
    | nil =>
      cases isElements
      rfl
    | cons _ front => simp at isElements

/-- Joined words have the symbols of the words, and separators. -/
theorem mem_intercalate {sep symbol : α} (ordinary : symbol ≠ sep) {words : List (List α)} :
    symbol ∈ [sep].intercalate words ↔ ∃ word ∈ words, symbol ∈ word := by
  induction words with
  | nil => simp
  | cons word words ih =>
    cases words with
    | nil => simp
    | cons next words =>
      rw [List.intercalate_cons_cons, List.mem_append, ih, List.mem_append, List.mem_singleton,
        or_iff_left ordinary]
      simp

/-- Words with a separator between them, and one more. -/
theorem intercalate_append_singleton (separator word : List α) (words : List (List α)) :
    separator.intercalate (words ++ [word]) =
      separator.intercalate words ++ (if words = [] then [] else separator) ++ word := by
  induction words with
  | nil => simp
  | cons first words ih =>
    cases words with
    | nil => simp [List.intercalate_cons_cons]
    | cons second words =>
      rw [List.cons_append, List.cons_append, List.intercalate_cons_cons, ← List.cons_append, ih,
        List.intercalate_cons_cons]
      simp

/-- Texts that are written one behind the other are the same all in all if and only if each is the
same, as each has its length in both. -/
theorem flatMap_eq_flatMap_iff {β : Type} {write write' : β → List α} {elements : List β}
    (lengths : ∀ element ∈ elements, (write element).length = (write' element).length) :
    elements.flatMap write = elements.flatMap write' ↔ ∀ element ∈ elements,
      write element = write' element := by
  induction elements with
  | nil => simp
  | cons first rest ih =>
    have later := ih fun element listed => lengths element (List.mem_cons_of_mem first listed)
    rw [List.flatMap_cons, List.flatMap_cons, List.forall_mem_cons, ← later]
    constructor
    · intro same
      exact List.append_inj same (lengths first List.mem_cons_self)
    · rintro ⟨front, back⟩
      rw [front, back]

variable [DecidableEq α]

/-- Position of the first occurrence of `pattern`. -/
def find (pattern : List α) : List α → Option Nat
  | [] => if pattern.isPrefixOf [] then some 0 else none
  | head :: rest =>
    if pattern.isPrefixOf (head :: rest) then some 0 else (find pattern rest).map (· + 1)

/-- Nothing is found exactly when the pattern does not occur. -/
theorem find_eq_none_iff (pattern text : List α) :
    find pattern text = none ↔ ¬ pattern <:+: text := by
  induction text with
  | nil =>
    cases pattern with
    | nil => simp [find]
    | cons => simp [find]
  | cons head rest ih =>
    by_cases front : pattern <+: head :: rest
    · simp [find, front, front.isInfix]
    · simp [find, front, ih, List.infix_cons_iff]

/-- A pattern is found exactly when it occurs. -/
theorem find_isSome_iff (pattern text : List α) :
    (find pattern text).isSome ↔ pattern <:+: text := by
  rw [← Option.ne_none_iff_isSome, ne_eq, find_eq_none_iff, not_not]

/-- A reported position splits the text around an occurrence that no earlier one precedes. -/
theorem find_eq_some {pattern text : List α} {position : Nat} (nonempty : pattern ≠ [])
    (found : find pattern text = some position) :
    ∃ before after, text = before ++ pattern ++ after ∧ before.length = position ∧
      ¬ pattern <:+: before := by
  induction text generalizing position with
  | nil => simp [find, nonempty] at found
  | cons head rest ih =>
    by_cases front : pattern <+: head :: rest
    · simp only [find, List.isPrefixOf_iff_prefix, front, ↓reduceIte, Option.some.injEq] at found
      obtain ⟨after, split⟩ := front
      exact ⟨[], after, by simp [split], by simpa using found, by simpa using nonempty⟩
    · simp only [find, List.isPrefixOf_iff_prefix, front, ↓reduceIte, Option.map_eq_some_iff]
        at found
      obtain ⟨inner, foundInner, rfl⟩ := found
      obtain ⟨before, after, split, length, clean⟩ := ih foundInner
      refine ⟨head :: before, after, by simp [split], by simp [length], ?_⟩
      rw [List.infix_cons_iff, not_or]
      refine ⟨fun early => front ?_, clean⟩
      rw [split]
      exact early.trans (by simp [List.append_assoc])

/-- A symbol occurs first right after a text that is free of it. -/
theorem find_single_append {a : α} {before : List α} (clean : a ∉ before) (after : List α) :
    find [a] (before ++ a :: after) = some before.length := by
  induction before with
  | nil => simp [find]
  | cons head rest ih =>
    rw [List.mem_cons, not_or] at clean
    simp [find, clean.1, ih clean.2]

/-- The cut at the first occurrence of a symbol is unique. -/
theorem single_cut_unique {a : α} {before before' after after' : List α} (clean : a ∉ before)
    (clean' : a ∉ before') (same : before ++ a :: after = before' ++ a :: after') :
    before = before' ∧ after = after' := by
  have length : before.length = before'.length := by
    have first := find_single_append clean after
    rw [same, find_single_append clean' after'] at first
    exact (Option.some.inj first).symm
  obtain ⟨rfl, tails⟩ := List.append_inj same length
  exact ⟨rfl, (List.cons.inj tails).2⟩

/-- Two distinct symbols occur first right after a text that is free of them. -/
theorem find_pair_append {a b : α} (distinct : a ≠ b) {before : List α}
    (clean : ¬ [a, b] <:+: before) (after : List α) :
    find [a, b] (before ++ a :: b :: after) = some before.length := by
  induction before with
  | nil => simp [find]
  | cons head rest ih =>
    rw [List.infix_cons_iff, not_or] at clean
    have front : ¬ [a, b] <+: head :: (rest ++ a :: b :: after) := by
      intro early
      obtain ⟨rfl, next⟩ := List.cons_prefix_cons.mp early
      cases rest with
      | nil => simp_all
      | cons second tail =>
        obtain ⟨rfl, -⟩ := List.cons_prefix_cons.mp next
        exact clean.1 (by simp)
    simp [find, front, ih clean.2]

/-- The cut at the first occurrence of two distinct symbols is unique. -/
theorem pair_cut_unique {a b : α} (distinct : a ≠ b) {before before' after after' : List α}
    (clean : ¬ [a, b] <:+: before) (clean' : ¬ [a, b] <:+: before')
    (same : before ++ a :: b :: after = before' ++ a :: b :: after') :
    before = before' ∧ after = after' := by
  have length : before.length = before'.length := by
    have first := find_pair_append distinct clean after
    rw [same, find_pair_append distinct clean' after'] at first
    exact (Option.some.inj first).symm
  obtain ⟨rfl, tails⟩ := List.append_inj same length
  exact ⟨rfl, by simpa using tails⟩

/-- Two symbols occur in a concatenation within one part or across the joint. -/
theorem pair_infix_append {a b : α} (left right : List α) :
    [a, b] <:+: left ++ right ↔
      [a, b] <:+: left ∨ [a, b] <:+: right ∨ (left.getLast? = some a ∧ right.head? = some b) := by
  induction left with
  | nil => simp
  | cons head rest ih =>
    rw [List.cons_append, List.infix_cons_iff, ih, List.infix_cons_iff]
    cases rest with
    | nil =>
      cases right with
      | nil => simp
      | cons first tail =>
        simp only [List.nil_append, List.cons_prefix_cons, List.nil_prefix, and_true,
          List.infix_nil, List.cons_ne_nil, List.prefix_nil, and_false, List.getLast?_singleton,
          List.getLast?_nil, List.head?_cons, Option.some.injEq, false_or, reduceCtorEq, false_and,
          or_false]
        constructor
        · rintro (⟨rfl, rfl⟩ | inside)
          · exact .inr ⟨rfl, rfl⟩
          · exact .inl inside
        · rintro (inside | ⟨rfl, rfl⟩)
          · exact .inr inside
          · exact .inl ⟨rfl, rfl⟩
    | cons second tail =>
      simp only [List.cons_append, List.cons_prefix_cons, List.nil_prefix, and_true,
        List.getLast?_cons_cons]
      tauto

/-- The parts of a list that is split at a symbol are free of it. -/
theorem not_mem_of_mem_splitOn {text part : List α} {separator : α}
    (isPart : part ∈ text.splitOn separator) : separator ∉ part := by
  induction text generalizing part with
  | nil =>
    rw [List.splitOn_nil, List.mem_singleton] at isPart
    simp [isPart]
  | cons first text ih =>
    rw [List.splitOn_cons_eq_if_modifyHead] at isPart
    by_cases same : first = separator
    · rw [if_pos (beq_iff_eq.mpr same), List.mem_cons] at isPart
      rcases isPart with empty | later
      · simp [empty]
      · exact ih later
    · rw [if_neg (by simpa using same)] at isPart
      cases split : text.splitOn separator with
      | nil => exact absurd split (List.splitOn_ne_nil separator text)
      | cons head parts =>
        rw [split, List.modifyHead_cons, List.mem_cons] at isPart
        rcases isPart with longer | later
        · have clean : separator ∉ head := ih (by rw [split]; exact List.mem_cons_self)
          rw [longer, List.mem_cons, not_or]
          exact ⟨Ne.symm same, clean⟩
        · exact ih (by rw [split]; exact List.mem_cons_of_mem _ later)

omit [DecidableEq α] in
/-- A pattern that is free of a symbol occurs on one side of it. -/
theorem infix_append_cons {pattern left right : List α} {symbol : α} (free : symbol ∉ pattern) :
    pattern <:+: left ++ symbol :: right ↔ pattern <:+: left ∨ pattern <:+: right := by
  constructor
  · rintro ⟨front, back, isText⟩
    rw [List.append_assoc, List.append_eq_append_iff] at isText
    rcases isText with ⟨middle, isLeft, isRest⟩ | ⟨middle, isFront, isRest⟩
    · rw [List.append_eq_append_iff] at isRest
      rcases isRest with ⟨tail, isMiddle, -⟩ | ⟨tail, isPattern, isRight⟩
      · exact .inl ⟨front, tail, by rw [isLeft, isMiddle, List.append_assoc]⟩
      · cases tail with
        | nil =>
          rw [List.append_nil] at isPattern
          exact .inl ⟨front, [], by rw [isLeft, isPattern, List.append_nil]⟩
        | cons first tail =>
          cases isRight
          exact absurd (isPattern ▸ List.mem_append_right middle List.mem_cons_self) free
    · cases middle with
      | nil =>
        cases pattern with
        | nil => exact .inl (List.nil_infix)
        | cons first pattern =>
          cases isRest
          exact absurd List.mem_cons_self free
      | cons first middle =>
        rw [List.cons_append, List.cons.injEq] at isRest
        exact .inr ⟨middle, back, by rw [isRest.2, List.append_assoc]⟩
  · rintro (inLeft | inRight)
    · exact inLeft.trans (List.prefix_append left _).isInfix
    · exact inRight.trans
        ((List.suffix_cons symbol right).trans (List.suffix_append left _)).isInfix

omit [DecidableEq α] in
/-- A fold that overwrites its value at the elements of one kind ends with the last of them. -/
theorem foldl_overwrite {β : Type} (kind : α → Bool) (value : α → β) (init : β)
    (elements : List α) :
    elements.foldl (fun current element => if kind element then value element else current) init =
      ((elements.filter kind).getLast?.map value).getD init := by
  induction elements generalizing init with
  | nil => rfl
  | cons element rest ih =>
    rw [List.foldl_cons, ih]
    by_cases chosen : kind element = true
    · simp only [chosen, ↓reduceIte, List.filter_cons_of_pos, List.getLast?_cons, Option.map_some,
        Option.getD_some]
      cases (rest.filter kind).getLast? <;> rfl
    · simp only [chosen, Bool.false_eq_true, ↓reduceIte, not_false_eq_true,
        List.filter_cons_of_neg]

end NetServer.Lib
