import Mathlib.Data.List.ReduceOption
import Mathlib.Tactic.Common

/-!
# Heaps of objects with an identity

An object's identity is the number of objects made before it, so a deleted object keeps its
identity and a dangling pointer never comes to denote another object. `get?` is the only view
of a heap that the callers use: making, updating and freeing an object are each described by
what they do to it.
-/

namespace NetServer.Lib

/-- The objects made so far, in order, each with its value or freed. -/
structure Heap (α : Type) where
  slots : List (Option α)
  deriving DecidableEq, Repr

namespace Heap

variable {α : Type}

/-- No object has been made. -/
def empty : Heap α := ⟨[]⟩

/-- The value of a live object. -/
def get? (heap : Heap α) (id : Nat) : Option α := heap.slots[id]?.join

/-- The identity of the next object. -/
def next (heap : Heap α) : Nat := heap.slots.length

/-- Make an object, whose identity is `next`. -/
def alloc (heap : Heap α) (value : α) : Heap α := ⟨heap.slots ++ [some value]⟩

/-- Give a live object a new value. -/
def set (heap : Heap α) (id : Nat) (value : α) : Heap α := ⟨heap.slots.set id (some value)⟩

/-- Free an object. -/
def free (heap : Heap α) (id : Nat) : Heap α := ⟨heap.slots.set id none⟩

/-- The values of the live objects. -/
def values (heap : Heap α) : List α := heap.slots.reduceOption

variable {heap : Heap α} {id other : Nat} {value : α}

/-- A value of the heap is that of some object. -/
theorem mem_values : value ∈ heap.values ↔ ∃ id, heap.get? id = some value := by
  rw [values, List.reduceOption_mem_iff, List.mem_iff_getElem?]
  simp only [get?, Option.join_eq_some_iff]

/-- The empty heap holds no block. -/
@[simp]
theorem get?_empty : (empty : Heap α).get? id = none := by
  simp [get?, empty]

/-- An object with a value has been made. -/
theorem lt_next_of_get? (live : heap.get? id = some value) : id < heap.next := by
  by_contra outside
  rw [get?, List.getElem?_eq_none (Nat.not_lt.mp outside)] at live
  cases live

/-- The next identity denotes nothing yet. -/
@[simp]
theorem get?_next : heap.get? heap.next = none := by
  simp [get?, next]

/-- Making an object adds it under the next identity. -/
theorem get?_alloc :
    (heap.alloc value).get? id = if id = heap.next then some value else heap.get? id := by
  by_cases same : id = heap.next
  · subst same
    simp [get?, alloc, next]
  · rw [if_neg same]
    rcases Nat.lt_or_gt_of_ne same with before | behind
    · simp only [get?, alloc, List.getElem?_append_left before]
    · have outside : heap.slots.length < id := behind
      simp only [get?, alloc]
      rw [List.getElem?_eq_none (by simp; omega), List.getElem?_eq_none (by omega)]

/-- Updating a live object changes that object only. -/
theorem get?_set (live : (heap.get? id).isSome) :
    (heap.set id value).get? other = if other = id then some value else heap.get? other := by
  obtain ⟨old, isOld⟩ := Option.isSome_iff_exists.mp live
  have inside : id < heap.slots.length := lt_next_of_get? isOld
  simp only [get?, set]
  by_cases same : other = id
  · subst same
    simp [inside]
  · rw [List.getElem?_set_ne (Ne.symm same), if_neg same]

/-- Freeing an object makes that object dead only. -/
theorem get?_free : (heap.free id).get? other = if other = id then none else heap.get? other := by
  simp only [get?, free]
  by_cases same : other = id
  · subst same
    rw [List.getElem?_set_self', if_pos rfl]
    cases heap.slots[other]? <;> rfl
  · rw [List.getElem?_set_ne (Ne.symm same), if_neg same]

/-- An allocation uses up one identity. -/
@[simp]
theorem next_alloc : (heap.alloc value).next = heap.next + 1 := by
  simp [next, alloc]

/-- A write uses up no identity. -/
@[simp]
theorem next_set : (heap.set id value).next = heap.next := by
  simp [next, set]

/-- A release gives no identity back. -/
@[simp]
theorem next_free : (heap.free id).next = heap.next := by
  simp [next, free]

/-! ## Objects in a place -/

variable {front back : List (Option α)} {slot : Option α}

/-- The object behind `front`. -/
theorem get?_append : (Heap.mk (front ++ some value :: back)).get? front.length = some value := by
  simp [get?]

/-- The object behind `front` gets a new value. -/
theorem set_append :
    (Heap.mk (front ++ slot :: back)).set front.length value = ⟨front ++ some value :: back⟩ := by
  simp [set]

/-- The object behind `front` is freed. -/
theorem free_append :
    (Heap.mk (front ++ slot :: back)).free front.length = ⟨front ++ none :: back⟩ := by
  simp [free]

end Heap

end NetServer.Lib
