import Mathlib.Data.List.Pairwise
import Mathlib.Tactic.Common
import Mathlib.Tactic.Ring

/-!
# Byte memory, regions and linked lists

Words are stored little-endian in `width` bytes. A region is a range of addresses; what an
operation does outside the regions it touches is said once, by `readWord_congr`. An allocator
answers a request with nothing or with a region that is apart from all that are in use, and no
more is assumed of it. A null-terminated list is a chain of addresses, each of which leads to
the next one.
-/

namespace NetServer.Lib

/-- Bytes by address. -/
abbrev Memory := Nat → UInt8

/-- The word of `width` bytes at an address. -/
def readWord (memory : Memory) : (width : Nat) → (address : Nat) → Nat
  | 0, _ => 0
  | width + 1, address => (memory address).toNat + 256 * readWord memory width (address + 1)

/-- Store a word of `width` bytes at an address. -/
def writeWord (memory : Memory) (width address value : Nat) : Memory := fun addr =>
  if address ≤ addr ∧ addr < address + width then UInt8.ofNat (value / 256 ^ (addr - address))
  else memory addr

/-- A word depends on its bytes only. -/
theorem readWord_congr {memory memory' : Memory} {width address : Nat}
    (same : ∀ addr, address ≤ addr → addr < address + width → memory addr = memory' addr) :
    readWord memory width address = readWord memory' width address := by
  induction width generalizing address with
  | zero => rfl
  | succ width ih =>
    have first : memory address = memory' address := same address (by omega) (by omega)
    have rest : readWord memory width (address + 1) = readWord memory' width (address + 1) :=
      ih fun addr low high => same addr (by omega) (by omega)
    simp only [readWord, first, rest]

/-- A stored word is read back. -/
theorem readWord_writeWord (memory : Memory) (width address : Nat) {value : Nat}
    (fits : value < 256 ^ width) :
    readWord (writeWord memory width address value) width address = value := by
  induction width generalizing address value with
  | zero =>
    have zero : value = 0 := by simpa using fits
    simp [readWord, zero]
  | succ width ih =>
    have smaller : value / 256 < 256 ^ width := by
      rw [Nat.div_lt_iff_lt_mul (by decide)]
      rwa [pow_succ] at fits
    have shifted : readWord (writeWord memory (width + 1) address value) width (address + 1) =
        readWord (writeWord memory width (address + 1) (value / 256)) width (address + 1) := by
      apply readWord_congr
      intro addr low high
      have inner : address + 1 ≤ addr ∧ addr < address + 1 + width := ⟨low, high⟩
      have outer : address ≤ addr ∧ addr < address + (width + 1) := by omega
      have step : addr - address = addr - (address + 1) + 1 := by omega
      simp only [writeWord, inner, outer, and_self, ↓reduceIte, step]
      rw [pow_succ', Nat.div_div_eq_div_mul]
    have first : (writeWord memory (width + 1) address value address).toNat = value % 256 := by
      simp [writeWord]
    simp only [readWord, shifted, ih (address + 1) smaller, first]
    omega

/-! ## Regions -/

/-- A range of addresses. -/
structure Region where
  base : Nat
  size : Nat
  deriving DecidableEq, Repr

namespace Region

/-- Two regions have no address in common. -/
def Apart (region other : Region) : Prop :=
  region.base + region.size ≤ other.base ∨ other.base + other.size ≤ region.base

/-- A region lies inside another. -/
def Inside (region other : Region) : Prop :=
  other.base ≤ region.base ∧ region.base + region.size ≤ other.base + other.size

instance : Std.Symm Apart := ⟨fun _ _ apart => Or.symm apart⟩

variable {region region' outer outer' : Region}

/-- Parts of regions that are apart are apart. -/
theorem Apart.mono (apart : outer.Apart outer') (inside : region.Inside outer)
    (inside' : region'.Inside outer') : region.Apart region' := by
  unfold Apart Inside at *
  omega

/-- A region that is not empty is not apart from itself. -/
theorem Apart.ne (apart : region.Apart region') (nonempty : 0 < region.size)
    (nonempty' : 0 < region'.size) : region.base ≠ region'.base := by
  unfold Apart at apart
  omega

end Region

/-- A stored word leaves the bytes outside its own region. -/
theorem writeWord_outside (memory : Memory) {width address addr : Nat} (value : Nat)
    (outside : addr < address ∨ address + width ≤ addr) :
    writeWord memory width address value addr = memory addr := by
  have notIn : ¬(address ≤ addr ∧ addr < address + width) := by omega
  simp only [writeWord, notIn, ↓reduceIte]

/-- A stored word leaves the words apart from it. -/
theorem readWord_writeWord_apart (memory : Memory) {width address width' address' : Nat}
    (value : Nat) (apart : Region.Apart ⟨address, width⟩ ⟨address', width'⟩) :
    readWord (writeWord memory width address value) width' address' =
      readWord memory width' address' := by
  apply readWord_congr
  intro addr low high
  unfold Region.Apart at apart
  exact writeWord_outside memory value (by simp only at apart; omega)

/-- Two words stored one behind the other are both read back. -/
theorem readWord_two (memory : Memory) (width address : Nat) {first second : Nat}
    (fits : first < 256 ^ width) (fits' : second < 256 ^ width) :
    readWord (writeWord (writeWord memory width address first) width (address + width) second) width
        address = first ∧
      readWord (writeWord (writeWord memory width address first) width (address + width) second)
        width
        (address + width) = second := by
  refine ⟨?_, readWord_writeWord _ _ _ fits'⟩
  rw [readWord_writeWord_apart _ _ (Or.inr (Nat.le_refl _))]
  exact readWord_writeWord _ _ _ fits

/-- Answers to requests for memory: for the number of requests before, the regions in use and a
size, nothing or the address of a region apart from those in use and within the address space. -/
structure Allocator (limit : Nat) where
  answer : Nat → List Region → Nat → Option Nat
  fresh : ∀ {calls regions size address}, answer calls regions size = some address →
    0 < address ∧ address + size ≤ limit ∧ ∀ region ∈ regions, Region.Apart ⟨address, size⟩ region

/-! ## Chains -/

/-- A null-terminated list that starts at `head` and passes through these addresses. -/
def Chain (next : Nat → Nat) : (head : Nat) → List Nat → Prop
  | head, [] => head = 0
  | head, node :: rest => head = node ∧ node ≠ 0 ∧ Chain next (next node) rest

/-- A chain depends on the links of its own nodes only. -/
theorem Chain.congr {next next' : Nat → Nat} {head : Nat} {nodes : List Nat}
    (chain : Chain next head nodes) (same : ∀ node ∈ nodes, next' node = next node) :
    Chain next' head nodes := by
  induction nodes generalizing head with
  | nil => exact chain
  | cons node rest ih =>
    obtain ⟨isHead, nonnull, behind⟩ := chain
    refine ⟨isHead, nonnull, ?_⟩
    rw [same node List.mem_cons_self]
    exact ih behind fun other inRest => same other (List.mem_cons_of_mem _ inRest)

/-- A chain that does not start with null has a first node. -/
theorem Chain.head_mem {next : Nat → Nat} {head : Nat} {nodes : List Nat}
    (chain : Chain next head nodes) (nonnull : head ≠ 0) :
    ∃ rest, nodes = head :: rest ∧ Chain next (next head) rest := by
  cases nodes with
  | nil => exact absurd chain nonnull
  | cons node rest =>
    obtain ⟨isHead, -, behind⟩ := chain
    subst isHead
    exact ⟨rest, rfl, behind⟩

end NetServer.Lib
