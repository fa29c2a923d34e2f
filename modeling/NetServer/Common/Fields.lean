import NetServer.Config.Configer
import NetServer.Http.Parse

/-!
# The fields of a string

Both copies of `SplitString` give the fields of a string between the separators, except for an empty
one at either end, and so give back fields that were joined. This holds for the strings whose length
is an `int`, and for no other: of a longer one the loop sees a part that ends too early to have the
same fields.
-/

namespace NetServer

open Lib

/-- Trimming takes nothing or an empty field off the end. -/
theorem trimLast_cases (fields : List Bytes) :
    trimLast fields = fields ∨ fields = trimLast fields ++ [[]] := by
  unfold trimLast
  by_cases empty : fields.getLast? = some []
  · rw [if_pos empty]
    exact .inr (List.dropLast_append_getLast? [] empty).symm
  · rw [if_neg empty]
    exact .inl rfl

/-- Joining the fields of a text gives the text behind its first separator, but for a separator at
the end. -/
theorem length_join_fieldsOf (text : Bytes) (splitchar : UInt8) :
    ([splitchar].intercalate (fieldsOf text splitchar)).length ≤
      (behindFirst text splitchar).length ∧
      (behindFirst text splitchar).length ≤
        ([splitchar].intercalate (fieldsOf text splitchar)).length + 1 := by
  have joined : [splitchar].intercalate ((behindFirst text splitchar).splitOn splitchar) =
      behindFirst text splitchar :=
    List.intercalate_splitOn splitchar
  rw [fieldsOf_eq]
  generalize (behindFirst text splitchar).splitOn splitchar = fields at joined ⊢
  rcases trimLast_cases fields with whole | trimmed
  · rw [whole, joined]
    omega
  · rw [trimmed, intercalate_append_singleton, List.append_nil] at joined
    have length := congrArg List.length joined
    rw [List.length_append] at length
    have one : (if trimLast fields = [] then [] else [splitchar]).length ≤ 1 := by
      split <;> simp
    omega

/-- The length of a text behind its first separator. -/
theorem length_behindFirst (text : Bytes) (splitchar : UInt8) :
    (behindFirst text splitchar).length = text.length - if text.head? = some splitchar then
      1 else 0 := by
  unfold behindFirst
  split
  · exact List.length_tail
  · rfl

/-- A part of a text that is shorter by two characters or more has other fields. -/
theorem fieldsOf_take_ne {text : Bytes} {length : Nat} (shorter : length + 2 ≤ text.length)
    (long : 2 < text.length) (splitchar : UInt8) :
    fieldsOf (text.take length) splitchar ≠ fieldsOf text splitchar := by
  intro same
  have part := (length_join_fieldsOf (text.take length) splitchar).1
  have whole := (length_join_fieldsOf text splitchar).2
  rw [same, length_behindFirst, List.length_take] at part
  rw [length_behindFirst] at whole
  have one : (if text.head? = some splitchar then 1 else 0) ≤ 1 := by
    split <;> omega
  cases length with
  | zero => omega
  | succ length =>
    have front : (text.take (length + 1)).head? = text.head? := by
      rw [List.head?_take, if_neg (Nat.succ_ne_zero length)]
    rw [front] at part
    omega

/-- The loop gives the fields of exactly the texts whose length is an `int`. -/
theorem splitLoop_eq_fieldsOf_iff (text : Bytes) (splitchar : UInt8) :
    splitLoop text splitchar = fieldsOf text splitchar ↔ text.length < 2 ^ 31 := by
  constructor
  · intro same
    by_contra long
    rw [splitLoop_eq, splitPart] at same
    -- What is cut off the length is a multiple of 2^32.
    have cut : (toInt text.length).toNat + 2 ≤ text.length := by
      simp only [toInt, Int.bmod]
      omega
    exact fieldsOf_take_ne cut (by omega) splitchar same
  · intro small
    exact splitLoop_of_small small splitchar

/-- Fields that are joined are got back, if the first and the last one are not empty. -/
theorem fieldsOf_join {fields : List Bytes} {splitchar : UInt8} (some : fields ≠ [])
    (separate : ∀ field ∈ fields, splitchar ∉ field) (first : fields.head? ≠ Option.some [])
    (last : fields.getLast? ≠ Option.some []) :
    fieldsOf ([splitchar].intercalate fields) splitchar = fields := by
  have front : ([splitchar].intercalate fields).head? ≠ Option.some splitchar := by
    obtain ⟨field, rest, rfl⟩ := List.exists_cons_of_ne_nil some
    have letter : field ≠ [] := by simpa using first
    obtain ⟨c, letters, rfl⟩ := List.exists_cons_of_ne_nil letter
    have other : c ≠ splitchar :=
      fun same => separate _ List.mem_cons_self (same ▸ List.mem_cons_self)
    cases rest with
    | nil => simpa using other
    | cons next rest =>
      rw [List.intercalate_cons_cons]
      simpa using other
  rw [fieldsOf_eq, behindFirst, if_neg front, List.splitOn_intercalate splitchar separate some,
    trimLast, if_neg last]

/-- Both copies of `SplitString` give the fields of a string whose length is an `int`, and the
fields that it was joined from. -/
theorem splitString_fields {s : Bytes} (small : s.length < 2 ^ 31) (splitchar : UInt8) :
    (Configer.splitString2 s splitchar = fieldsOf s splitchar ∧
        HttpParse.splitString s splitchar = fieldsOf s splitchar) ∧
      ∀ fields : List Bytes, fields ≠ [] → (∀ field ∈ fields, splitchar ∉ field) →
      fields.head? ≠ some [] →
        fields.getLast? ≠ some [] → s = [splitchar].intercalate fields →
        Configer.splitString2 s splitchar = fields ∧ HttpParse.splitString s splitchar =
          fields := by
  have split : splitLoop s splitchar = fieldsOf s splitchar := splitLoop_of_small small splitchar
  refine ⟨⟨split, split⟩, ?_⟩
  intro fields some separate first last isJoined
  have back : splitLoop s splitchar = fields := by
    rw [split, isJoined]
    exact fieldsOf_join some separate first last
  exact ⟨back, back⟩

/-- The fields of a short list. -/
theorem splitString_fields_three :
    (bytes "a,b,,c").length < 2 ^ 31 ∧
      Configer.splitString2 (bytes "a,b,,c") 44 = [bytes "a", bytes "b", [], bytes "c"] ∧
      HttpParse.splitString (bytes "a,b,,c") 44 = [bytes "a", bytes "b", [], bytes "c"] :=
  ⟨by decide, (splitString_fields (by decide) 44).2 [bytes "a", bytes "b", [],
    bytes "c"] (by decide) (by decide)
    (by decide) (by decide) (by decide)⟩

/-- Of a single field of 2^31 bytes the code keeps nothing. -/
theorem splitLoop_field_of_cut {field : Bytes} {splitchar : UInt8} (long : field.length = 2 ^ 31)
    (free : splitchar ∉ field) :
    splitLoop field splitchar = [] ∧ fieldsOf field splitchar = [field] := by
  have negative : (toInt (2 ^ 31 : Nat)).toNat = 0 := by decide
  have some : [field].head? ≠ some [] := fun empty => by
    rw [List.length_eq_zero_iff.mpr (Option.some.inj empty)] at long
    contradiction
  have joined := fieldsOf_join (List.cons_ne_nil field []) (by simpa using free) some some
  rw [List.intercalate_singleton] at joined
  rw [splitLoop_eq, splitPart, long, negative, List.take_zero]
  exact ⟨rfl, joined⟩

/-- Of a string of 2^31 letters there is nothing. -/
theorem splitString_long :
    Configer.splitString2 (List.replicate (2 ^ 31) 97) 44 = [] ∧
      HttpParse.splitString (List.replicate (2 ^ 31) 97) 44 = [] ∧
      fieldsOf (List.replicate (2 ^ 31) 97) 44 = [List.replicate (2 ^ 31) 97] := by
  have free : (44 : UInt8) ∉ List.replicate (2 ^ 31) (97 : UInt8) := fun listed =>
    absurd (List.eq_of_mem_replicate listed) (by decide)
  have cut := splitLoop_field_of_cut List.length_replicate free
  exact ⟨cut.1, cut.1, cut.2⟩

end NetServer
