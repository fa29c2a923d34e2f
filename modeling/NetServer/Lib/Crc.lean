import Mathlib.Logic.Function.Iterate
import Mathlib.Tactic.Common

/-!
# Shift registers

A bit of a cyclic redundancy check shifts a register right and adds a polynomial when the bit
shifted out was set. Addition is exclusive or, for which every such step is linear. What a linear
register holds behind some data is therefore a sum of a part for each value of the data, weighed by
the distance to the end, and a part for the start.
-/

namespace NetServer.Lib

variable {w : Nat}

/-- Sums are equal when their parts differ alike. -/
theorem xor_eq_xor_iff {one other one' other' : BitVec w} :
    one ^^^ other = one' ^^^ other' ↔ other ^^^ other' = one ^^^ one' := by
  have regrouped : one ^^^ other ^^^ (one' ^^^ other') = other ^^^ other' ^^^ (one ^^^ one') := by
    ac_rfl
  rw [← BitVec.xor_eq_zero_iff, regrouped, BitVec.xor_eq_zero_iff]

/-- A map that keeps sums. -/
def XorLinear {v : Nat} (map : BitVec v → BitVec w) : Prop :=
  ∀ left right, map (left ^^^ right) = map left ^^^ map right

/-- Repeating a linear map is linear. -/
theorem XorLinear.iterate {map : BitVec w → BitVec w} (linear : XorLinear map) (count : Nat) :
    XorLinear map^[count] := by
  intro left right
  induction count with
  | zero => rfl
  | succ count ih =>
    rw [Function.iterate_succ_apply', ih, linear, ← Function.iterate_succ_apply' map count left,
      ← Function.iterate_succ_apply' map count right]

/-- A linear map takes nothing to nothing. -/
theorem XorLinear.map_zero {v : Nat} {map : BitVec v → BitVec w} (linear : XorLinear map) :
    map 0#v = 0#w := by
  have twice := linear 0#v 0#v
  rwa [BitVec.xor_self, BitVec.xor_self] at twice

/-- Values differ under a linear map that takes only nothing to nothing. -/
theorem XorLinear.injective {v : Nat} {map : BitVec v → BitVec w} (linear : XorLinear map)
    (kernel : ∀ value, map value = 0#w → value = 0#v) : Function.Injective map := by
  intro left right same
  have nothing : map (left ^^^ right) = 0#w := by rw [linear, same, BitVec.xor_self]
  exact BitVec.xor_eq_zero_iff.mp (kernel _ nothing)

/-! ## Linear registers -/

/-- What a register holds behind some data: each value is added and the sum is mapped. -/
def carry (map : BitVec w → BitVec w) (start : BitVec w) (data : List (BitVec w)) : BitVec w :=
  data.foldl (fun register value => map (register ^^^ value)) start

/-- The sum of the data, each value weighed by its distance to the end. -/
def weigh (map : BitVec w → BitVec w) : List (BitVec w) → BitVec w
  | [] => 0#w
  | value :: rest => map^[rest.length + 1] value ^^^ weigh map rest

/-- The start and the data have each their own part in what a linear register holds. -/
theorem carry_eq {map : BitVec w → BitVec w} (linear : XorLinear map) (start : BitVec w)
    (data : List (BitVec w)) :
    carry map start data = map^[data.length] start ^^^ weigh map data := by
  induction data generalizing start with
  | nil => simp [carry, weigh]
  | cons value rest ih =>
    have later : carry map start (value :: rest) = carry map (map (start ^^^ value)) rest := rfl
    rw [later, ih, ← Function.iterate_succ_apply, linear.iterate, weigh, List.length_cons,
      BitVec.xor_assoc]

/-! ## Shifting -/

/-- Shift a register right, and add the polynomial when the bit shifted out was set. -/
def shiftBit (polynomial register : BitVec w) : BitVec w :=
  if register.getLsbD 0 then (register >>> 1) ^^^ polynomial else register >>> 1

/-- A shift is linear. -/
theorem shiftBit_linear (polynomial : BitVec w) : XorLinear (shiftBit polynomial) := by
  intro left right
  have shifted : (left ^^^ right) >>> 1 = (left >>> 1) ^^^ (right >>> 1) :=
    BitVec.ushiftRight_xor_distrib ..
  have cancel : (left >>> 1) ^^^ polynomial ^^^ ((right >>> 1) ^^^ polynomial) =
      (left >>> 1) ^^^ (right >>> 1) := by
    rw [BitVec.xor_comm (right >>> 1), BitVec.xor_assoc, ← BitVec.xor_assoc polynomial,
      BitVec.xor_self, BitVec.zero_xor]
  simp only [shiftBit, BitVec.getLsbD_xor, shifted]
  cases left.getLsbD 0 <;> cases right.getLsbD 0
  · rfl
  · exact BitVec.xor_assoc ..
  · change (left >>> 1) ^^^ (right >>> 1) ^^^ polynomial = (left >>> 1) ^^^ polynomial ^^^
      (right >>> 1)
    rw [BitVec.xor_assoc, BitVec.xor_assoc, BitVec.xor_comm polynomial]
  · exact cancel.symm

/-- Bits in front that are clear stay clear, if the polynomial fits behind them. -/
theorem shiftBit_setWidth {v : Nat} (wider : w ≤ v) (polynomial register : BitVec w) :
    shiftBit (polynomial.setWidth v) (register.setWidth v) =
      (shiftBit polynomial register).setWidth v := by
  have shifted : register.setWidth v >>> 1 = (register >>> 1).setWidth v := by
    apply BitVec.eq_of_getLsbD_eq
    intro index inside
    simp only [BitVec.getLsbD_ushiftRight, BitVec.getLsbD_setWidth, inside, decide_true,
      Bool.true_and]
    by_cases short : 1 + index < v
    · simp [short]
    · simp [short, BitVec.getLsbD_of_ge register (1 + index) (by omega)]
  have last : (register.setWidth v).getLsbD 0 = register.getLsbD 0 := by
    rw [BitVec.getLsbD_setWidth]
    by_cases some : 0 < v
    · simp [some]
    · simp [some, BitVec.getLsbD_of_ge register 0 (by omega)]
  rw [shiftBit, shiftBit, last, shifted]
  split
  · rw [BitVec.setWidth_xor]
  · rfl

/-- The same for many shifts. -/
theorem iterate_shiftBit_setWidth {v : Nat} (wider : w ≤ v) (polynomial register : BitVec w)
    (count : Nat) :
    (shiftBit (polynomial.setWidth v))^[count] (register.setWidth v) =
      ((shiftBit polynomial)^[count] register).setWidth v := by
  induction count with
  | zero => rfl
  | succ count ih =>
    rw [Function.iterate_succ_apply', ih, shiftBit_setWidth wider, Function.iterate_succ_apply']

end NetServer.Lib
