import NetServer.Lib.Text

/-!
# Rows without ends

The words of a row are joined by a separator, and rows follow each other with nothing in between.
What was the last word of a row and the first of the next become one piece of the text, and only its
length tells where the row ended. A table can be read back from its text exactly when such pieces
have just two symbols (`TightRows`), and a table of one column, in which there are no separators,
when its text has at most one.
-/

namespace NetServer.Lib

variable {α : Type}

/-- The text of a row. -/
def rowText (sep : α) (row : List (List α)) : List α := [sep].intercalate row

/-- The text of a table. -/
def tableText (sep : α) (rows : List (List (List α))) : List α := rows.flatMap (rowText sep)

/-- A table with some columns, of words that are not empty and have no separator. -/
structure IsTable (sep : α) (columns : Nat) (rows : List (List (List α))) : Prop where
  width : ∀ row ∈ rows, row.length = columns
  words : ∀ row ∈ rows, ∀ word ∈ row, word ≠ [] ∧ sep ∉ word

/-- Where two rows meet there is one symbol on each side; without separators there is no more than
one at all. -/
def TightRows (columns : Nat) (rows : List (List (List α))) : Prop :=
  if columns = 1 then rows.flatten.flatten.length ≤ 1
  else ∀ row next, [row, next] <:+: rows → (row.getLastD []).length = 1 ∧ (next.headD []).length = 1

/-- Words, each with a separator behind it. -/
def ended (sep : α) (words : List (List α)) : List α := words.flatMap fun word => word ++ [sep]

section

variable {sep : α} {columns : Nat} {rows other : List (List (List α))} {row : List (List α)}

/-- A word that is not the last of its row has a separator behind it. -/
theorem rowText_cons (word : List α) {words : List (List α)} (more : words ≠ []) :
    rowText sep (word :: words) = word ++ sep :: rowText sep words := by
  obtain ⟨second, words', rfl⟩ := List.exists_cons_of_ne_nil more
  rw [rowText, List.intercalate_cons_cons, List.append_assoc]
  rfl

/-- The last word of a row has no separator behind it. -/
theorem rowText_concat (words : List (List α)) (last : List α) :
    rowText sep (words ++ [last]) = ended sep words ++ last := by
  induction words with
  | nil => exact List.intercalate_singleton
  | cons word words ih =>
    have more : words ++ [last] ≠ [] :=
      List.append_ne_nil_of_right_ne_nil words (List.cons_ne_nil last [])
    rw [List.cons_append, rowText_cons word more, ih, ended, ended, List.flatMap_cons,
      List.append_assoc, List.append_assoc, List.singleton_append]

/-- The first row of a table is written first. -/
theorem tableText_cons (row : List (List α)) (rows : List (List (List α))) :
    tableText sep (row :: rows) = rowText sep row ++ tableText sep rows := List.flatMap_cons

/-- Two tables below each other are written one after the other. -/
theorem tableText_append (rows other : List (List (List α))) :
    tableText sep (rows ++ other) = tableText sep rows ++ tableText sep other := List.flatMap_append

/-- A table is a row of its width over a table. -/
theorem isTable_cons : IsTable sep columns (row :: rows) ↔
    (row.length = columns ∧ ∀ word ∈ row, word ≠ [] ∧ sep ∉ word) ∧ IsTable sep columns rows := by
  constructor
  · intro table
    have width := List.forall_mem_cons.mp table.width
    have words := List.forall_mem_cons.mp table.words
    exact ⟨⟨width.1, words.1⟩, width.2, words.2⟩
  · intro both
    exact ⟨List.forall_mem_cons.mpr ⟨both.1.1, both.2.width⟩,
      List.forall_mem_cons.mpr ⟨both.1.2, both.2.words⟩⟩

/-- Rows form a table exactly when each part of them does. -/
theorem isTable_append :
    IsTable sep columns (rows ++ other) ↔ IsTable sep columns rows ∧ IsTable sep columns other := by
  constructor
  · intro table
    have width := List.forall_mem_append.mp table.width
    have words := List.forall_mem_append.mp table.words
    exact ⟨⟨width.1, words.1⟩, width.2, words.2⟩
  · intro both
    exact ⟨List.forall_mem_append.mpr ⟨both.1.width, both.2.width⟩,
      List.forall_mem_append.mpr ⟨both.1.words, both.2.words⟩⟩

/-- A row is its first word, and the others with a separator before each. -/
theorem rowText_eq (word : List α) (words : List (List α)) :
    rowText sep (word :: words) = word ++ words.flatMap fun word => sep :: word := by
  induction words generalizing word with
  | nil =>
    rw [rowText, List.intercalate_singleton, List.flatMap_nil, List.append_nil]
  | cons second words ih =>
    rw [rowText_cons word (List.cons_ne_nil second words), ih, List.flatMap_cons, List.cons_append]

/-- The symbols of a table are those of its words, and separators. -/
theorem mem_tableText {symbol : α} (ordinary : symbol ≠ sep) :
    symbol ∈ tableText sep rows ↔ ∃ row ∈ rows, ∃ word ∈ row, symbol ∈ word := by
  rw [tableText, List.mem_flatMap]
  exact exists_congr fun row => and_congr_right fun _ => mem_intercalate ordinary

/-- A table with a row has its first word in front of its text, and a separator behind that if there
are more columns. -/
theorem IsTable.front (table : IsTable sep columns (row :: rows)) (wide : 1 < columns) :
    ∃ rest, tableText sep (row :: rows) = row.headD [] ++ sep :: rest ∧ row.headD [] ≠ [] ∧
      sep ∉ row.headD [] := by
  obtain ⟨⟨width, words⟩, -⟩ := isTable_cons.mp table
  obtain ⟨word, second, more, rfl⟩ : ∃ word second more, row = word :: second :: more := by
    match row, width with
    | [], width => simp at width; omega
    | [_], width => simp at width; omega
    | word :: second :: more, _ => exact ⟨word, second, more, rfl⟩
  refine ⟨rowText sep (second :: more) ++ tableText sep rows, ?_, words word List.mem_cons_self⟩
  rw [tableText_cons, rowText_cons word (List.cons_ne_nil second more), List.append_assoc]
  rfl

/-- A row is its words but the last, and the last. -/
theorem IsTable.split (table : IsTable sep columns (row :: rows)) (some : 0 < columns) :
    ∃ words last, row = words ++ [last] ∧ words.length + 1 = columns ∧
      (∀ word ∈ words, sep ∉ word) ∧
      last ≠ [] ∧ sep ∉ last := by
  obtain ⟨⟨width, clean⟩, -⟩ := isTable_cons.mp table
  have nonempty : row ≠ [] := by
    rintro rfl
    rw [List.length_nil] at width
    omega
  obtain ⟨words, last, rfl⟩ := (List.eq_nil_or_concat' row).resolve_left nonempty
  have isLast := clean last List.mem_concat_self
  rw [List.length_append, List.length_singleton] at width
  exact ⟨words, last, rfl, width, fun word listed => (clean word (List.mem_append_left _ listed)).2,
    isLast⟩

/-- No row is without text. -/
theorem IsTable.length_le (table : IsTable sep columns rows) (some : 0 < columns) :
    rows.length ≤ (tableText sep rows).length := by
  induction rows with
  | nil => exact Nat.zero_le _
  | cons row rows ih =>
    have behind := ih (isTable_cons.mp table).2
    obtain ⟨words, last, rfl, -, -, nonempty, -⟩ := table.split some
    have length := List.length_pos_iff.mpr nonempty
    rw [tableText_cons, rowText_concat, List.length_cons, List.length_append, List.length_append]
    omega

variable [DecidableEq α]

/-- Words of one number that each have a separator behind them are read back from the front of a
text. -/
theorem ended_inj {words words' : List (List α)} (number : words.length = words'.length)
    (clean : ∀ word ∈ words, sep ∉ word) (clean' : ∀ word ∈ words', sep ∉ word)
    {behind behind' : List α} (same : ended sep words ++ behind = ended sep words' ++ behind') :
    words = words' ∧ behind = behind' := by
  induction words generalizing words' with
  | nil =>
    obtain rfl := List.eq_nil_of_length_eq_zero number.symm
    exact ⟨rfl, same⟩
  | cons word words ih =>
    obtain ⟨word', words', rfl⟩ := List.exists_cons_of_length_eq_add_one number.symm
    rw [List.forall_mem_cons] at clean clean'
    simp only [ended, List.flatMap_cons, List.append_assoc, List.singleton_append] at same
    obtain ⟨rfl, rest⟩ := single_cut_unique clean.1 clean'.1 same
    obtain ⟨rfl, isBehind⟩ := ih (Nat.succ.inj number) clean.2 clean'.2 rest
    exact ⟨rfl, isBehind⟩

/-- Where the first row of a tight table ends can be told from the text. -/
theorem IsTable.seam_eq (table : IsTable sep columns rows) (table' : IsTable sep columns other)
    (wide : 1 < columns) {last last' : List α} (clean : sep ∉ last) (clean' : sep ∉ last')
    (nonempty' : last' ≠ [])
    (tight : ∀ next ∈ rows.head?, last.length = 1 ∧ (next.headD []).length = 1)
    (same : last ++ tableText sep rows = last' ++ tableText sep other) :
    last = last' ∧ tableText sep rows = tableText sep other := by
  cases rows with
  | nil =>
    cases other with
    | nil => exact ⟨List.append_cancel_right same, rfl⟩
    | cons next' other =>
      obtain ⟨behind', isText', -⟩ := table'.front wide
      rw [isText', tableText, List.flatMap_nil, List.append_nil] at same
      rw [same] at clean
      simp at clean
  | cons next rows =>
    obtain ⟨behind, isText, -, noSep⟩ := table.front wide
    cases other with
    | nil =>
      rw [isText, tableText, List.flatMap_nil, List.append_nil] at same
      rw [← same] at clean'
      simp at clean'
    | cons next' other =>
      obtain ⟨behind', isText', some', noSep'⟩ := table'.front wide
      obtain ⟨one, one'⟩ := tight next rfl
      have pieces : last ++ next.headD [] = last' ++ next'.headD [] := by
        rw [isText, isText', ← List.append_assoc, ← List.append_assoc] at same
        apply (single_cut_unique ?_ ?_ same).1
        · rw [List.mem_append, not_or]
          exact ⟨clean, noSep⟩
        · rw [List.mem_append, not_or]
          exact ⟨clean', noSep'⟩
      have length : last.length = last'.length := by
        have total := congrArg List.length pieces
        have left := List.length_pos_iff.mpr nonempty'
        have right := List.length_pos_iff.mpr some'
        rw [List.length_append, List.length_append] at total
        omega
      exact List.append_inj same length

/-- The rows of a tight table are read back from its text. -/
theorem IsTable.eq_of_tight (table : IsTable sep columns rows) (wide : 1 < columns)
    (tight : ∀ row next, [row, next] <:+: rows → (row.getLastD []).length = 1 ∧
      (next.headD []).length = 1) (table' : IsTable sep columns other)
    (same : tableText sep rows = tableText sep other) : rows = other := by
  induction rows generalizing other with
  | nil =>
    have none := table'.length_le (by omega)
    rw [← same] at none
    exact (List.eq_nil_of_length_eq_zero (Nat.le_zero.mp none)).symm
  | cons row rows ih =>
    cases other with
    | nil =>
      have none := table.length_le (by omega)
      rw [same] at none
      exact absurd none (Nat.not_succ_le_zero _)
    | cons row' other =>
      have rest := (isTable_cons.mp table).2
      have rest' := (isTable_cons.mp table').2
      obtain ⟨words, last, rfl, number, clean, -, isLast⟩ := table.split (by omega)
      obtain ⟨words', last', rfl, number', clean', nonempty', isLast'⟩ := table'.split (by omega)
      rw [tableText_cons, tableText_cons, rowText_concat, rowText_concat, List.append_assoc,
        List.append_assoc] at same
      obtain ⟨rfl, behind⟩ := ended_inj (by omega) clean clean' same
      have seam : ∀ next ∈ rows.head?, last.length = 1 ∧ (next.headD []).length = 1 := by
        intro next isNext
        obtain ⟨more, rfl⟩ := List.head?_eq_some_iff.mp isNext
        have meet := tight (words ++ [last]) next ⟨[], more, rfl⟩
        rwa [List.getLastD_concat] at meet
      obtain ⟨rfl, texts⟩ := rest.seam_eq rest' wide isLast isLast' nonempty' seam behind
      rw [ih rest (fun row next listed => tight row next (List.infix_cons listed)) rest' texts]

end

/-! ## Tables that are not tight -/

section

variable {sep : α} {columns : Nat} {rows : List (List (List α))}

/-- A piece of more than two symbols has another cut. -/
theorem exists_other_cut {left right : List α} (nonempty : left ≠ []) (nonempty' : right ≠ [])
    (loose : ¬(left.length = 1 ∧ right.length = 1)) :
    ∃ left' right', left' ≠ [] ∧ right' ≠ [] ∧ left' ++ right' = left ++ right ∧ left' ≠ left := by
  obtain ⟨front, middle, rfl⟩ := (List.eq_nil_or_concat' left).resolve_left nonempty
  obtain ⟨first, behind, rfl⟩ := List.exists_cons_of_ne_nil nonempty'
  -- A symbol goes to the right, unless it is the only one on the left; then one comes from the
  -- right.
  cases front with
  | nil =>
    refine ⟨[middle, first], behind, List.cons_ne_nil _ _, ?_, rfl, by simp⟩
    rintro rfl
    exact loose ⟨rfl, rfl⟩
  | cons symbol front =>
    refine ⟨symbol :: front, middle :: first :: behind, List.cons_ne_nil _ _, List.cons_ne_nil _ _,
      ?_, ?_⟩
    · rw [List.append_assoc, List.singleton_append]
    · intro same
      have length := congrArg List.length same
      rw [List.length_append, List.length_singleton] at length
      omega

/-- Two rows that meet may meet elsewhere. -/
theorem tableText_seam (words behind : List (List α)) (more : behind ≠ [])
    {left right left' right' : List α} (same : left' ++ right' = left ++ right) :
    tableText sep [words ++ [left'], right' :: behind] = tableText sep [words ++ [left],
      right :: behind] := by
  simp only [tableText, List.flatMap_cons, List.flatMap_nil, List.append_nil]
  rw [rowText_concat, rowText_concat, rowText_cons right' more, rowText_cons right more,
    List.append_assoc, List.append_assoc, ← List.append_assoc left', same, List.append_assoc]

/-- A table in which some rows do not meet tightly has the text of another. -/
theorem IsTable.exists_other (table : IsTable sep columns rows) (wide : 1 < columns)
    {row next : List (List α)} (meet : [row, next] <:+: rows)
    (loose : ¬((row.getLastD []).length = 1 ∧ (next.headD []).length = 1)) :
    ∃ other, IsTable sep columns other ∧ other.length = rows.length ∧ other ≠ rows ∧
      tableText sep other = tableText sep rows := by
  obtain ⟨front, back, rfl⟩ := meet
  obtain ⟨⟨before, pair⟩, after⟩ : (IsTable sep columns front ∧ IsTable sep columns [row, next]) ∧
      IsTable sep columns back := by
    rw [isTable_append, isTable_append] at table
    exact table
  obtain ⟨⟨width, clean⟩, single⟩ := isTable_cons.mp pair
  obtain ⟨⟨width', clean'⟩, empty⟩ := isTable_cons.mp single
  obtain ⟨words, left, rfl⟩ : ∃ words left, row = words ++ [left] := by
    apply (List.eq_nil_or_concat' row).resolve_left
    rintro rfl
    rw [List.length_nil] at width
    omega
  obtain ⟨right, second, behind, rfl⟩ : ∃ right second behind,
      next = right :: second :: behind := by
    match next, width' with
    | [], width' => simp at width'; omega
    | [_], width' => simp at width'; omega
    | right :: second :: behind, _ => exact ⟨right, second, behind, rfl⟩
  rw [List.getLastD_concat, List.headD_cons] at loose
  rw [List.forall_mem_append, List.forall_mem_singleton] at clean
  rw [List.forall_mem_cons] at clean'
  obtain ⟨left', right', some, some', same, different⟩ :=
    exists_other_cut clean.2.1 clean'.1.1 loose
  have noSep : sep ∉ left' ++ right' := by
    rw [same, List.mem_append, not_or]
    exact ⟨clean.2.2, clean'.1.2⟩
  rw [List.mem_append, not_or] at noSep
  refine ⟨front ++ [words ++ [left'], right' :: second :: behind] ++ back, ?_, ?_, ?_, ?_⟩
  · rw [isTable_append, isTable_append, isTable_cons, isTable_cons, List.forall_mem_append,
      List.forall_mem_singleton, List.forall_mem_cons]
    rw [List.length_append] at width ⊢
    exact ⟨⟨before, ⟨width, clean.1, some, noSep.1⟩, ⟨width', ⟨some', noSep.2⟩, clean'.2⟩, empty⟩,
      after⟩
  · rw [List.length_append, List.length_append, List.length_append, List.length_append]
    rfl
  · intro equal
    rw [List.append_left_inj, List.append_right_inj, List.cons.injEq, List.append_right_inj]
      at equal
    exact different (List.cons.inj equal.1).1
  · rw [tableText_append, tableText_append, tableText_append, tableText_append,
      tableText_seam words (second :: behind) (List.cons_ne_nil second behind) same]

end

/-! ## One column -/

section

variable {sep : α} {rows other : List (List (List α))}

/-- A row of one column is a word. -/
theorem isTable_one_cons {row : List (List α)} (table : IsTable sep 1 (row :: rows)) :
    ∃ word, row = [word] ∧ word ≠ [] ∧ sep ∉ word ∧ IsTable sep 1 rows := by
  obtain ⟨⟨width, clean⟩, rest⟩ := isTable_cons.mp table
  obtain ⟨word, rfl⟩ := List.length_eq_one_iff.mp width
  have isWord := clean word List.mem_cons_self
  exact ⟨word, rfl, isWord.1, isWord.2, rest⟩

/-- A word on top of a table of one column is again such a table. -/
theorem isTable_one_of_cons {word : List α} (nonempty : word ≠ []) (clean : sep ∉ word)
    (table : IsTable sep 1 rows) : IsTable sep 1 ([word] :: rows) := by
  rw [isTable_cons, List.forall_mem_singleton]
  exact ⟨⟨rfl, nonempty, clean⟩, table⟩

/-- The text of a table of one column is that of its words. -/
theorem IsTable.text_one (table : IsTable sep 1 rows) :
    tableText sep rows = rows.flatten.flatten := by
  induction rows with
  | nil => rfl
  | cons row rows ih =>
    obtain ⟨word, rfl, -, -, rest⟩ := isTable_one_cons table
    rw [tableText_cons, ih rest, List.flatten_cons, List.singleton_append, List.flatten_cons,
      rowText, List.intercalate_singleton]

/-- A text of one symbol is that of one table. -/
theorem IsTable.eq_of_short (table : IsTable sep 1 rows) (short : rows.flatten.flatten.length ≤ 1)
    (table' : IsTable sep 1 other) (same : tableText sep rows = tableText sep other) :
    rows = other := by
  have few := table.length_le Nat.one_pos
  have few' := table'.length_le Nat.one_pos
  rw [← same] at few'
  rw [← table.text_one] at short
  match rows, other, table, table', few, few' with
  | [], [], _, _, _, _ => rfl
  | [row], [row'], table, table', _, _ =>
    obtain ⟨word, rfl, -⟩ := isTable_one_cons table
    obtain ⟨word', rfl, -⟩ := isTable_one_cons table'
    rw [table.text_one, table'.text_one] at same
    simpa using same
  | [], _ :: _, _, _, _, few' => exact absurd few' (Nat.not_succ_le_zero _)
  | _ :: _, [], _, table', few, _ =>
    rw [same] at few
    exact absurd few (Nat.not_succ_le_zero _)
  | _ :: _ :: _, _, _, _, few, _ =>
    simp only [List.length_cons] at few
    omega
  | _, _ :: _ :: _, _, _, _, few' =>
    simp only [List.length_cons] at few'
    omega

/-- A longer text is that of another table: a word is cut, or two words are one. -/
theorem IsTable.exists_other_one (table : IsTable sep 1 rows)
    (long : 1 < rows.flatten.flatten.length) :
    ∃ other, IsTable sep 1 other ∧ other.length ≤ max rows.length 2 ∧ other ≠ rows ∧
      tableText sep other = tableText sep rows := by
  match rows, table with
  | [], _ => simp at long
  | [row], table =>
    obtain ⟨word, rfl, -, clean, empty⟩ := isTable_one_cons table
    match word, clean with
    | [], _ => simp at long
    | [_], _ => simp at long
    | first :: second :: behind, clean =>
      rw [List.mem_cons, not_or] at clean
      have other : IsTable sep 1 [[[first]], [second :: behind]] := by
        apply isTable_one_of_cons (List.cons_ne_nil _ _)
        · rw [List.mem_singleton]
          exact clean.1
        · exact isTable_one_of_cons (List.cons_ne_nil _ _) clean.2 empty
      refine ⟨_, other, le_max_right _ _, by simp, ?_⟩
      rw [other.text_one, table.text_one]
      rfl
  | row :: next :: rows, table =>
    obtain ⟨word, rfl, nonempty, clean, rest⟩ := isTable_one_cons table
    obtain ⟨word', rfl, -, clean', rest'⟩ := isTable_one_cons rest
    have other : IsTable sep 1 ([word ++ word'] :: rows) := by
      apply isTable_one_of_cons (List.append_ne_nil_of_left_ne_nil nonempty word') _ rest'
      rw [List.mem_append, not_or]
      exact ⟨clean, clean'⟩
    refine ⟨_, other, ?_, ?_, ?_⟩
    · simp only [List.length_cons]
      omega
    · intro equal
      have length := congrArg List.length equal
      simp only [List.length_cons] at length
      omega
    · rw [other.text_one, table.text_one]
      simp

end

/-- A tight table is the only one with its text. -/
theorem TightRows.eq [DecidableEq α] {sep : α} {columns : Nat} {rows other : List (List (List α))}
    (some : 0 < columns) (tight : TightRows columns rows) (table : IsTable sep columns rows)
    (table' : IsTable sep columns other) (same : tableText sep rows = tableText sep other) :
    rows = other := by
  unfold TightRows at tight
  split_ifs at tight with one
  · subst one
    exact table.eq_of_short tight table' same
  · exact table.eq_of_tight (by omega) tight table' same

/-- A table that is not tight is not the only one with its text. -/
theorem exists_other_of_not_tight {sep : α} {columns : Nat} {rows : List (List (List α))}
    (some : 0 < columns) (loose : ¬TightRows columns rows) (table : IsTable sep columns rows) :
    ∃ other, IsTable sep columns other ∧ other.length ≤ max rows.length 2 ∧ other ≠ rows ∧
      tableText sep other = tableText sep rows := by
  unfold TightRows at loose
  split_ifs at loose with one
  · subst one
    exact table.exists_other_one (not_le.mp loose)
  · push Not at loose
    obtain ⟨row, next, meet, apart⟩ := loose
    obtain ⟨other, isTable, number, different, same⟩ :=
      table.exists_other (by omega) meet (not_and.mpr apart)
    exact ⟨other, isTable, number.le.trans (le_max_left _ _), different, same⟩

end NetServer.Lib
