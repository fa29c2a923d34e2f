import NetServer.Pool.Lifetime

/-!
# The pool and its clients

Clients ask for memory, give back what they have, and write to what they have; the rest of the
program writes where the pool has no region. Whatever they do, the memory of one is apart from
that of the others and from all that the pool keeps there, `Free` finds out where a block came
from, and the free lists and counts of the chunks stay right.
-/

namespace NetServer

open Lib MemoryPool

/-- The pool and the memory in the hands of its clients. -/
structure PoolState where
  pool : MemoryPool
  live : List Allocation

/-- What clients do. -/
inductive PoolEvent where
  | malloc (size : Nat)
  | free (pMem : Nat)
  | write (address : Nat) (value : UInt8)
  deriving DecidableEq, Repr

/-- The allocations behind a `Free`. -/
def letGo (pMem : Nat) (live : List Allocation) : List Allocation :=
  match live.find? fun a => a.pointer = pMem with
  | some a => live.erase a
  | none => live

namespace PoolState

/-- The size of a request does not wrap around, only memory a client has is given back, and
writes stay in memory a client has or outside the pool. -/
def enabled (abi : Abi) (state : PoolState) : PoolEvent → Bool
  | .malloc size => size + abi.heapHeader < abi.limit
  | .free pMem => state.live.any fun a => a.pointer = pMem
  | .write address _ => MayWrite state.pool state.live address

/-- The effect of an event, with the pointer that `Malloc` returns. -/
def step {abi : Abi} (allocator : Allocator abi.limit) (state : PoolState) :
    PoolEvent → Except PoolFault (PoolState × Option Nat)
  | .malloc size => do
    let (pointer, pool) ← state.pool.malloc allocator size
    return (⟨pool, hold ⟨pointer, size, servedBy abi size⟩ state.live⟩, some pointer)
  | .free pMem => do
    let pool ← state.pool.free abi pMem
    return (⟨pool, letGo pMem state.live⟩, none)
  | .write address value =>
    .ok (⟨{ state.pool with memory := Function.update state.pool.memory address value },
      state.live⟩, none)

end PoolState

/-- The machine of a pool and its clients. -/
def poolMachine {abi : Abi} (allocator : Allocator abi.limit) (pool : MemoryPool) :
    Machine PoolState PoolEvent (Option Nat) PoolFault where
  init := ⟨pool, []⟩
  enabled := PoolState.enabled abi
  step := PoolState.step allocator

/-! ## What clients can rely on -/

/-- The header in front of an allocation. -/
def Allocation.header (abi : Abi) (a : Allocation) : Region :=
  match a.chunk with
  | some _ => ⟨a.pointer - abi.blockHeader, abi.blockHeader⟩
  | none => ⟨a.pointer - abi.heapHeader, abi.heapHeader⟩

/-- The free list of a chunk passes through these blocks, none of them twice, and each carries
the address of the chunk and its size. -/
structure FreeList (abi : Abi) (pool : MemoryPool) (chunk : MemoryChunk) (blocks : List Nat) :
    Prop where
  chain : Chain (link abi pool.memory) chunk.pFreeList blocks
  nodup : blocks.Nodup
  headers : ∀ pBlock ∈ blocks, readWord pool.memory abi.sizeofPtr pBlock = chunk.address ∧
    readWord pool.memory abi.sizeofPtr (pBlock + abi.sizeofPtr) = chunk.size

/-- What `Free` does with an allocation: memory of the heap path, which the word in front of it
shows, goes back to `::free`, and a block to the list of the chunk it came from. -/
def FreesTo (abi : Abi) (pool : MemoryPool) (a : Allocation) : Prop :=
  match a.chunk with
  | none => maxSize < readWord pool.memory abi.sizeofPtr (a.pointer - abi.heapHeader) ∧
      pool.free abi a.pointer = .ok { pool with
        regions := pool.regions.erase ⟨a.pointer - abi.heapHeader, abi.heapHeader + a.size⟩ }
  | some this => readWord pool.memory abi.sizeofPtr (a.pointer - abi.heapHeader) ≤ maxSize ∧
      ∃ chunk, pool.chunks[this]? = some chunk ∧
        pool.free abi a.pointer = .ok (pool.pushBlock abi this chunk (a.pointer - abi.blockHeader))

/-- The pool is intact: memory of the clients, free lists, headers and counts. -/
structure PoolState.Intact (abi : Abi) (state : PoolState) : Prop where
  owns : ∀ a ∈ state.live, a.pointer ≠ 0 ∧ ∃ region ∈ state.pool.regions, a.payload.Inside region
  payloads : state.live.Pairwise fun a other => a.payload.Apart other.payload
  headers : ∀ a ∈ state.live, ∀ other ∈ state.live, a.payload.Apart (other.header abi)
  lists : ∀ this chunk, state.pool.chunks[this]? = some chunk → ∃ blocks,
    FreeList abi state.pool chunk blocks ∧
    (∀ a ∈ state.live, ∀ pBlock ∈ blocks, a.payload.Apart ⟨pBlock, abi.blockHeader + chunk.size⟩) ∧
    (blocks.length + (state.live.countP fun a => a.chunk = some this) < 2 ^ 31 →
      chunk.count = blocks.length + (state.live.countP fun a => a.chunk = some this))
  served : ∀ a ∈ state.live, a.chunk = servedBy abi a.size
  freed : ∀ a ∈ state.live, FreesTo abi state.pool a

section

variable {abi : Abi} {pool : MemoryPool} {live : List Allocation} {ledger : Ledger}
  {state : PoolState}

/-- The header of an allocation is the reserved part of its region. -/
theorem Use.header_of_allocation {base : Nat} {use : Use} {a : Allocation}
    (isAllocation : use.allocation abi base = some a) : a.header abi = ⟨base, use.header abi⟩ := by
  cases use with
  | free this => cases isAllocation
  | block this size =>
    cases isAllocation
    simp only [Allocation.header, Use.header, Nat.add_sub_cancel]
  | heap size =>
    cases isAllocation
    simp only [Allocation.header, Use.header, Nat.add_sub_cancel]

/-- The ledger is right for some ledger, the chunks serve every size, and allocations have the
chunk that serves their size. -/
structure PoolState.Sound (abi : Abi) (state : PoolState) : Prop where
  inv : ∃ ledger, Inv abi state.pool state.live ledger
  serves : Serves abi state.pool.chunks
  served : ∀ a ∈ state.live, a.chunk = servedBy abi a.size

/-- A right ledger makes the pool intact. -/
theorem PoolState.Sound.intact (sound : state.Sound abi) : state.Intact abi := by
  obtain ⟨ledger, inv⟩ := sound.inv
  refine ⟨?_, ?_, ?_, ?_, sound.served, ?_⟩
  · intro a isLive
    obtain ⟨base, use, isUse, isAllocation⟩ := inv.owned isLive
    have inside := inv.payload_inside isUse isAllocation
    have booked := (inv.booked isUse).1
    have positive : 0 < base := (inv.valid booked).1
    refine ⟨by omega, _, booked, ?_⟩
    unfold Region.Inside Allocation.payload
    simp only
    omega
  · exact inv.distinct.imp_of_mem fun isLive isLive' ne => (inv.payloads_apart isLive isLive' ne).1
  · intro a isLive other isLive'
    obtain ⟨base, use, isUse, isAllocation⟩ := inv.owned isLive'
    have reserved := (inv.payload_inside isUse isAllocation).2.2.2
    rw [Use.header_of_allocation isAllocation, ← reserved]
    exact inv.payload_apart_reserved isLive isUse
  · intro this chunk here
    obtain ⟨blocks, listed⟩ := inv.listed here
    refine ⟨blocks, ⟨listed.chain, listed.nodup, fun pBlock inList => ?_⟩,
      fun a isLive pBlock inList => ?_, fun small => ?_⟩
    · have marked : Use.BlockMarked abi state.pool pBlock this :=
        (inv.booked (listed.free inList)).2
      exact marked.words here
    · have apart := inv.payload_apart_reserved isLive (listed.free inList)
      have extent : (Use.free this).reserved abi state.pool.chunks = abi.blockHeader + chunk.size :=
        Use.extent_block here 0
      rw [extent] at apart
      exact apart
    · rw [listed.count]
      exact toInt_of_range (by omega) (by omega)
  · intro a isLive
    obtain ⟨pointer, size, chunk⟩ := a
    cases chunk with
    | none =>
      have freed := inv.free_heap isLive
      exact ⟨freed.1, freed.2.1⟩
    | some this =>
      obtain ⟨small, chunk, here, freed, -⟩ := inv.free_block isLive
      exact ⟨small, chunk, here, freed⟩

/-- No event faults, and every event keeps the ledger right. -/
theorem PoolState.Sound.step (allocator : Allocator abi.limit) (sound : state.Sound abi)
    {event : PoolEvent} (possible : state.enabled abi event = true) :
    ∃ next answer, state.step allocator event = .ok (next, answer) ∧ next.Sound abi := by
  obtain ⟨ledger, inv⟩ := sound.inv
  cases event with
  | malloc size =>
    have fits : size + abi.heapHeader < abi.limit := by simpa [PoolState.enabled] using possible
    obtain ⟨pointer, pool', ledger', done, inv', keys⟩ := inv.malloc allocator sound.serves fits
    refine ⟨_, _, by simp only [PoolState.step, done]; rfl, ⟨ledger', inv'⟩, ?_, ?_⟩
    · intro size small
      rw [keys]
      exact sound.serves size small
    · intro a isLive
      unfold hold at isLive
      split at isLive
      · exact sound.served a isLive
      · cases isLive with
        | head => rfl
        | tail _ isLive => exact sound.served a isLive
  | free pMem =>
    obtain ⟨a, isLive, isPointer⟩ : ∃ a ∈ state.live, a.pointer = pMem := by
      simpa [PoolState.enabled] using possible
    obtain ⟨a, found⟩ : ∃ a, (state.live.find? fun a => a.pointer = pMem) = some a := by
      rw [← Option.isSome_iff_exists, List.find?_isSome]
      exact ⟨a, isLive, by simpa using isPointer⟩
    have isLive := List.mem_of_find?_eq_some found
    have isPointer : a.pointer = pMem := by simpa using List.find?_some found
    subst isPointer
    obtain ⟨pool', done, inv', keys⟩ := inv.free isLive
    refine ⟨⟨pool', letGo a.pointer state.live⟩, none, by simp only [PoolState.step, done]; rfl,
      ?_, ?_, ?_⟩
    · simp only [letGo, found]
      exact inv'
    · intro size small
      rw [keys]
      exact sound.serves size small
    · intro other isLive'
      simp only [letGo, found] at isLive'
      exact sound.served other (List.mem_of_mem_erase isLive')
  | write address value =>
    have allowed : MayWrite state.pool state.live address := by
      simpa [PoolState.enabled] using possible
    exact ⟨_, _, rfl, ⟨ledger, inv.write value allowed⟩, sound.serves, sound.served⟩

/-- Every state of a run has a right ledger. -/
theorem PoolState.sound_of_run {allocator : Allocator abi.limit} {memory : Memory}
    (constructed : construct allocator memory = .ok pool) {trace : List (PoolEvent × Option Nat)}
    (ran : (poolMachine allocator pool).Run (poolMachine allocator pool).init trace state) :
    state.Sound abi := by
  have initial : PoolState.Sound abi ⟨pool, []⟩ :=
    ⟨(construct_spec constructed).1, (construct_spec constructed).2, fun _ isLive => nomatch isLive⟩
  refine ran.preserved (fun {state event answer next} sound taken => ?_) initial
  obtain ⟨next', answer', done, sound'⟩ := PoolState.Sound.step allocator sound taken.1
  have same : (next, answer) = (next', answer') := Except.ok.inj (taken.2.symm.trans done)
  cases same
  exact sound'

/-- Whatever its clients do, the pool is intact, no call of theirs faults, and when everything has
been given back the assertions of the destructor hold. -/
theorem pool_intact {allocator : Allocator abi.limit} {memory : Memory}
    (constructed : construct allocator memory = .ok pool) {trace : List (PoolEvent × Option Nat)}
    (ran : (poolMachine allocator pool).Run (poolMachine allocator pool).init trace state) :
    state.Intact abi ∧
    (∀ event, (poolMachine allocator pool).enabled state event = true →
      ∃ next answer, (poolMachine allocator pool).step state event = .ok (next, answer)) ∧
    (state.live = [] → ∃ pool', state.pool.destroy abi = .ok pool') := by
  have sound : state.Sound abi := PoolState.sound_of_run constructed ran
  refine ⟨sound.intact, fun event possible => ?_, fun quiet => ?_⟩
  · obtain ⟨next, answer, done, -⟩ := sound.step allocator possible
    exact ⟨next, answer, done⟩
  · obtain ⟨ledger, inv⟩ := sound.inv
    rw [quiet] at inv
    exact inv.destroy

end

/-- Pointers of four bytes. -/
def abi32 : Abi := ⟨4, 44, .inl rfl, by decide⟩

/-- The end of the last region. -/
def endOf (regions : List Region) : Nat :=
  regions.foldr (fun region top => max (region.base + region.size) top) 8

/-- Memory starts behind null. -/
theorem endOf_pos (regions : List Region) : 0 < endOf regions := by
  induction regions with
  | nil => decide
  | cons region regions ih => exact Nat.lt_of_lt_of_le ih (Nat.le_max_right _ _)

/-- Every region ends before that. -/
theorem le_endOf {regions : List Region} {region : Region} (inRegions : region ∈ regions) :
    region.base + region.size ≤ endOf regions := by
  induction inRegions with
  | head => exact Nat.le_max_left _ _
  | tail _ _ ih => exact Nat.le_trans ih (Nat.le_max_right _ _)

/-- Regions one behind the other, with no memory for blocks while the pool is constructed. -/
def lateAllocator : Allocator abi32.limit where
  answer calls regions size :=
    if (calls < 19 → size = 36 ∨ size = 44) ∧ endOf regions + size ≤ abi32.limit then
      some (endOf regions)
    else none
  fresh := by
    intro calls regions size address answered
    split at answered
    · rename_i possible
      cases answered
      exact ⟨endOf_pos regions, possible.2, fun region inRegions => Or.inr (le_endOf inRegions)⟩
    · cases answered

/-- Blocks and memory of the heap path, written to, given back and used again. -/
def reuse : List (PoolEvent × Option Nat) :=
  [(.malloc 5, some 448), (.malloc 2000, some 460), (.write 448 255, none), (.malloc 8, some 2468),
    (.free 448, none), (.malloc 7, some 448), (.malloc 0, some 2484), (.free 460, none)]

/-- The calls return these pointers, and the pool is intact. -/
theorem pool_intact_reuse : ∃ pool state,
    construct lateAllocator (fun _ => 0) = .ok pool ∧
      (poolMachine lateAllocator pool).Run (poolMachine lateAllocator pool).init reuse state ∧
      state.Intact abi32 := by
  have runs : ((construct lateAllocator fun _ => 0).toOption.bind fun pool =>
      ((poolMachine lateAllocator pool).exec ⟨pool, []⟩ (reuse.map Prod.fst)).map Prod.snd) =
      some reuse := by
    decide +kernel
  cases constructed : construct lateAllocator fun _ => 0 with
  | error fault =>
    rw [constructed] at runs
    cases runs
  | ok pool =>
    rw [constructed] at runs
    have executes :
      ((poolMachine lateAllocator pool).exec ⟨pool, []⟩ (reuse.map Prod.fst)).map Prod.snd =
      some reuse := runs
    rw [Option.map_eq_some_iff] at executes
    obtain ⟨⟨state, trace⟩, executed, isTrace⟩ := executes
    cases isTrace
    have ran := (Machine.run_of_exec executed).1
    exact ⟨pool, state, rfl, ran, (pool_intact constructed ran).1⟩

end NetServer
