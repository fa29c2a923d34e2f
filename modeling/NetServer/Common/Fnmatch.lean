import NetServer.Common.CStd
import NetServer.Lib.Glob

/-!
# `fnmatch` without flags

A pattern is read as POSIX has it: a star for any text, a question mark for any character, a
backslash before a character that stands for itself, and a bracket that starts a bracket expression,
or stands for itself where there is none. What a bracket expression accepts depends on the locale,
so reading one is a parameter (`Brackets`). Slashes and leading dots are ordinary characters.
-/

namespace NetServer

open Lib

/-- How bracket expressions are read from the pattern behind a bracket: the characters that one
accepts and the pattern behind it. -/
structure Brackets where
  read : Bytes → Option ((UInt8 → Bool) × Bytes)
  shorter : ∀ pattern accepts rest, read pattern = some (accepts, rest) →
    rest.length < pattern.length

/-- Brackets that all stand for themselves. -/
def noBrackets : Brackets where
  read _ := none
  shorter _ _ _ isRead := nomatch isRead

/-- The tokens of a pattern that is not longer than `fuel`. -/
def globTokensWithin (brackets : Brackets) : Nat → Bytes → List (GlobToken UInt8)
  | 0, _ => []
  | _ + 1, [] => []
  | fuel + 1, c :: pattern =>
    if c = 42 then .star :: globTokensWithin brackets fuel pattern
    else if c = 63 then .one (fun _ => true) :: globTokensWithin brackets fuel pattern
    else if c = 91 then
      match brackets.read pattern with
      | some (accepts, rest) => .one accepts :: globTokensWithin brackets fuel rest
      | none => literal c :: globTokensWithin brackets fuel pattern
    else if c = 92 then
      match pattern with
      | [] => [.one fun _ => false]
      | escaped :: rest => literal escaped :: globTokensWithin brackets fuel rest
    else literal c :: globTokensWithin brackets fuel pattern

/-- The tokens of a pattern. -/
def globTokens (brackets : Brackets) (pattern : Bytes) : List (GlobToken UInt8) :=
  globTokensWithin brackets pattern.length pattern

/-- Whether `fnmatch(pattern, string, 0)` is 0. -/
def fnmatch (brackets : Brackets) (pattern string : Bytes) : Bool :=
  globMatch (globTokens brackets (cString pattern)) (cString string)

/-! ## Patterns without brackets and backslashes -/

/-- The token of a character that is neither a bracket nor a backslash. -/
def plainToken (c : UInt8) : GlobToken UInt8 :=
  if c = 42 then .star else if c = 63 then .one (fun _ => true) else literal c

/-- Characters but brackets and backslashes are tokens of their own. -/
theorem globTokens_plain (brackets : Brackets) {pattern : Bytes} (noBracket : 91 ∉ pattern)
    (noBackslash : 92 ∉ pattern) : globTokens brackets pattern = pattern.map plainToken := by
  have within (fuel : Nat) (enough : pattern.length ≤ fuel) :
      globTokensWithin brackets fuel pattern = pattern.map plainToken := by
    induction pattern generalizing fuel with
    | nil => cases fuel <;> rfl
    | cons c pattern ih =>
      rw [List.mem_cons, not_or] at noBracket noBackslash
      obtain ⟨fuel, rfl⟩ := Nat.exists_eq_add_one_of_ne_zero (Nat.ne_zero_of_lt enough)
      have later := ih noBracket.2 noBackslash.2 fuel (Nat.le_of_succ_le_succ enough)
      rw [globTokensWithin.eq_def]
      dsimp only
      rw [if_neg (Ne.symm noBracket.1), if_neg (Ne.symm noBackslash.1), later, List.map_cons,
        plainToken]
      split_ifs <;> rfl
  exact within pattern.length (Nat.le_refl _)

/-- Such a pattern matches itself. -/
theorem globMatch_plain_self (pattern : Bytes) :
    globMatch (pattern.map plainToken) pattern = true := by
  induction pattern with
  | nil => rfl
  | cons c pattern ih =>
    rw [List.map_cons, plainToken]
    split_ifs
    · exact globMatch_star.mpr ⟨[c], pattern, rfl, ih⟩
    · exact globMatch_one.mpr ⟨c, pattern, rfl, rfl, ih⟩
    · exact globMatch_one.mpr ⟨c, pattern, rfl, beq_self_eq_true c, ih⟩

end NetServer
