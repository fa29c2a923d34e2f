import Mathlib.Logic.Function.Basic
import Mathlib.Tactic.Common

/-!
# Exclusive ownership

Objects lie in places, at most one in each. Ownership is exclusive when no object lies in two
places and the live objects are exactly those that lie somewhere: nothing is lost, and nothing
dead is still referred to. Making, moving and deleting an object keep that.
-/

namespace NetServer.Lib

variable {π ι : Type}

/-- Every live object lies in exactly one place, and only live objects do. -/
structure Exclusive (holds : π → Option ι) (live : ι → Prop) : Prop where
  unique : ∀ {place place' object}, holds place = some object → holds place' = some object →
    place = place'
  covered : ∀ object, live object ↔ ∃ place, holds place = some object

namespace Exclusive

variable {holds : π → Option ι} {live : ι → Prop} {place target : π} {object : ι}

/-- What is live may be said in other words. -/
theorem congr {live' : ι → Prop} (owned : Exclusive holds live)
    (same : ∀ object, live' object ↔ live object) : Exclusive holds live' :=
  ⟨owned.unique, fun object => (same object).trans (owned.covered object)⟩

variable [DecidableEq π]

/-- A new object is put into an empty place. -/
theorem fresh (owned : Exclusive holds live) (vacant : holds place = none) (dead : ¬live object) :
    Exclusive (Function.update holds place (some object)) fun other => other = object ∨
      live other where
  unique := by
    intro first second other atFirst atSecond
    have elsewhere : ∀ {place'}, place' ≠ place →
        Function.update holds place (some object) place' = some object → False := by
      intro place' ne isObject
      rw [Function.update_of_ne ne] at isObject
      exact dead ((owned.covered object).mpr ⟨place', isObject⟩)
    by_cases firstNew : first = place
    · by_cases secondNew : second = place
      · rw [firstNew, secondNew]
      · subst firstNew
        rw [Function.update_self] at atFirst
        cases atFirst
        exact (elsewhere secondNew atSecond).elim
    · by_cases secondNew : second = place
      · subst secondNew
        rw [Function.update_self] at atSecond
        cases atSecond
        exact (elsewhere firstNew atFirst).elim
      · rw [Function.update_of_ne firstNew] at atFirst
        rw [Function.update_of_ne secondNew] at atSecond
        exact owned.unique atFirst atSecond
  covered := by
    intro other
    constructor
    · rintro (rfl | alive)
      · exact ⟨place, Function.update_self ..⟩
      · obtain ⟨place', there⟩ := (owned.covered other).mp alive
        have ne : place' ≠ place := by
          rintro rfl
          rw [vacant] at there
          cases there
        exact ⟨place', by rw [Function.update_of_ne ne, there]⟩
    · rintro ⟨place', there⟩
      by_cases same : place' = place
      · subst same
        rw [Function.update_self] at there
        cases there
        exact .inl rfl
      · rw [Function.update_of_ne same] at there
        exact .inr ((owned.covered other).mpr ⟨place', there⟩)

/-- An object is deleted and its place emptied. -/
theorem drop (owned : Exclusive holds live) (there : holds place = some object) :
    Exclusive (Function.update holds place none) fun other => other ≠ object ∧ live other where
  unique := by
    intro first second other atFirst atSecond
    have kept : ∀ {place'}, Function.update holds place none place' = some other →
        holds place' = some other := by
      intro place' isOther
      by_cases same : place' = place
      · subst same
        rw [Function.update_self] at isOther
        cases isOther
      · rwa [Function.update_of_ne same] at isOther
    exact owned.unique (kept atFirst) (kept atSecond)
  covered := by
    intro other
    constructor
    · rintro ⟨ne, alive⟩
      obtain ⟨place', found⟩ := (owned.covered other).mp alive
      have elsewhere : place' ≠ place := by
        rintro rfl
        rw [there] at found
        cases found
        exact ne rfl
      exact ⟨place', by rw [Function.update_of_ne elsewhere, found]⟩
    · rintro ⟨place', found⟩
      by_cases same : place' = place
      · subst same
        rw [Function.update_self] at found
        cases found
      · rw [Function.update_of_ne same] at found
        refine ⟨?_, (owned.covered other).mpr ⟨place', found⟩⟩
        rintro rfl
        exact same (owned.unique found there)

/-- An object is moved from its place to an empty one. -/
theorem move (owned : Exclusive holds live) (there : holds place = some object)
    (vacant : holds target = none) :
    Exclusive (Function.update (Function.update holds place none) target (some object)) live := by
  have emptied : Function.update holds place none target = none := by
    by_cases same : target = place
    · rw [same, Function.update_self]
    · rw [Function.update_of_ne same, vacant]
  have alive : live object := (owned.covered object).mpr ⟨place, there⟩
  have moved := (owned.drop there).fresh emptied (fun dead => dead.1 rfl)
  refine ⟨moved.unique, fun other => ?_⟩
  rw [← moved.covered other]
  by_cases same : other = object
  · simp [same, alive]
  · simp [same]

end Exclusive

end NetServer.Lib
