import NetServer.Common.CStd
import NetServer.Lib.Loop
import NetServer.Lib.Memory

/-!
# The memory pool, `MemoryPool` and `MemoryChunk`

Blocks lie in byte memory. A block is a header of two words, the address of its chunk and its
size, and its data, whose first word links the free list while the block is free and belongs to
the client otherwise. A request above `MAX_SIZE` gets a block of its own from `::malloc`, behind
a header of one word, the size. In both layouts the word before the data tells the two apart.

The fields of a chunk are kept apart from byte memory; the pointer to a chunk is its address
there and its index in `pChunkList` here. `::malloc` is any allocator; the pool works for
pointers of four and of eight bytes.
-/

namespace NetServer

open Lib

/-- The sizes of a pointer, which is also that of `size_t`, and of a `MemoryChunk`. -/
structure Abi where
  sizeofPtr : Nat
  sizeofChunk : Nat
  supported : sizeofPtr = 4 ∨ sizeofPtr = 8
  chunkNonempty : 0 < sizeofChunk

namespace Abi

variable (abi : Abi)

/-- `sizeof(BlockHeader)`. -/
def blockHeader : Nat := 2 * abi.sizeofPtr

/-- `sizeof(HeapHeader)`. -/
def heapHeader : Nat := abi.sizeofPtr

/-- Number of values of `size_t` and of addresses. -/
def limit : Nat := 256 ^ abi.sizeofPtr

end Abi

/-- `MAX_SIZE`. -/
def maxSize : Nat := 1024

/-- What can go wrong in the pool. -/
inductive PoolFault where
  /-- `::free` of something that `::malloc` did not return or that is free already. -/
  | invalidFree
  /-- A block header does not hold the address of a chunk. -/
  | wildChunk
  /-- `pChunkList` is read behind its end. -/
  | badIndex
  /-- `new` throws. -/
  | badAlloc
  /-- The assertion of `~MemoryChunk` fails. -/
  | assertion
  deriving DecidableEq, Repr

/-- The fields of a `MemoryChunk`, with the address of the object. -/
structure MemoryChunk where
  address : Nat
  pFreeList : Nat
  size : Nat
  count : Int
  deriving DecidableEq, Repr

/-- The pool and the memory it works in: the bytes, the requests made to `::malloc` so far, the
regions it handed out and did not get back, and the chunks. -/
structure MemoryPool where
  memory : Memory
  calls : Nat
  regions : List Region
  chunks : List MemoryChunk

namespace MemoryPool

section

variable {abi : Abi} (allocator : Allocator abi.limit)

/-- `::malloc`. -/
def mallocRaw (pool : MemoryPool) (size : Nat) : Option Nat × MemoryPool :=
  match allocator.answer pool.calls pool.regions size with
  | some address =>
    (some address,
      { pool with calls := pool.calls + 1, regions := ⟨address, size⟩ :: pool.regions })
  | none => (none, { pool with calls := pool.calls + 1 })

/-- `::free`. -/
def freeRaw (pool : MemoryPool) (address : Nat) : Except PoolFault MemoryPool :=
  match pool.regions.find? fun region => region.base = address with
  | some region => .ok { pool with regions := pool.regions.erase region }
  | none => .error .invalidFree

/-- `MemoryChunk::CreateBlock` of the chunk with an index. -/
def createBlock (pool : MemoryPool) (this : Nat) (chunk : MemoryChunk) : Option Nat × MemoryPool :=
  match pool.mallocRaw allocator (abi.blockHeader + chunk.size) with
  | (some pBlock, pool) =>
    let memory := writeWord pool.memory abi.sizeofPtr pBlock chunk.address
    let memory := writeWord memory abi.sizeofPtr (pBlock + abi.sizeofPtr) chunk.size
    (some pBlock,
      { pool with
        memory, chunks := pool.chunks.set this { chunk with count := toInt (chunk.count + 1) } })
  | (none, pool) => (none, pool)

/-- Put a block in front of the free list of the chunk with an index, `MemoryChunk::free` of a
block and the end of the loop in the constructor. -/
def pushBlock (abi : Abi) (pool : MemoryPool) (this : Nat) (chunk : MemoryChunk) (pBlock : Nat) :
    MemoryPool :=
  { pool with
    memory := writeWord pool.memory abi.sizeofPtr (pBlock + abi.blockHeader) chunk.pFreeList
    chunks := pool.chunks.set this { chunk with pFreeList := pBlock } }

/-- The loop in the constructor of `MemoryChunk`, which makes up to `count` blocks. -/
def fill (pool : MemoryPool) (this : Nat) : (count : Nat) → MemoryPool
  | 0 => pool
  | count + 1 =>
    match pool.chunks[this]? with
    | none => pool
    | some chunk =>
      match pool.createBlock allocator this chunk with
      | (none, pool) => pool
      | (some pBlock, pool) =>
        match pool.chunks[this]? with
        | none => pool
        | some chunk => fill (pool.pushBlock abi this chunk pBlock) this count

/-- `new MemoryChunk(size, 1000)`, put at the end of `pChunkList`. -/
def newChunk (pool : MemoryPool) (size : Nat) : Except PoolFault MemoryPool :=
  match pool.mallocRaw allocator abi.sizeofChunk with
  | (none, _) => .error .badAlloc
  | (some address, pool) =>
    .ok (fill allocator { pool with chunks := pool.chunks ++ [⟨address, 0, size, 0⟩] }
      pool.chunks.length 1000)

end

/-- The sizes from one on in the loops of the constructor, each twice the one before, up to
`MAX_SIZE`. -/
def sizesFrom (size : Nat) : List Nat :=
  if 0 < size ∧ size ≤ maxSize then size :: sizesFrom (2 * size) else []
termination_by maxSize + 1 - size

/-- The block sizes of the chunks; the first is `MIN_SIZE`, the size of a pointer. -/
def chunkSizes (abi : Abi) : List Nat := sizesFrom abi.sizeofPtr

/-- The constructor `MemoryPool::MemoryPool` in memory with some contents. -/
def construct {abi : Abi} (allocator : Allocator abi.limit) (memory : Memory) :
    Except PoolFault MemoryPool :=
  match mallocRaw allocator ⟨memory, 0, [], []⟩ (abi.sizeofPtr * (chunkSizes abi).length) with
  | (none, _) => .error .badAlloc
  | (some _, pool) => (chunkSizes abi).foldlM (newChunk allocator) pool

/-- The loop of `Malloc` that looks for the first chunk with large enough blocks. -/
def indexFrom (tsize size index : Nat) : Nat :=
  if 0 < tsize ∧ tsize ≤ maxSize then
    if tsize ≥ size then index else indexFrom (2 * tsize) size (index + 1)
  else index
termination_by maxSize + 1 - tsize

/-- The index of the chunk that serves a request. -/
def chunkIndex (abi : Abi) (size : Nat) : Nat := indexFrom abi.sizeofPtr size 0

section

variable {abi : Abi} (allocator : Allocator abi.limit)

/-- `MemoryChunk::malloc` of the chunk with an index; null is 0. -/
def chunkMalloc (pool : MemoryPool) (this : Nat) : Except PoolFault (Nat × MemoryPool) :=
  match pool.chunks[this]? with
  | none => .error .badIndex
  | some chunk =>
    if chunk.pFreeList ≠ 0 then
      let pBlock := chunk.pFreeList
      let pFreeList := readWord pool.memory abi.sizeofPtr (pBlock + abi.blockHeader)
      .ok (pBlock + abi.blockHeader,
        { pool with chunks := pool.chunks.set this { chunk with pFreeList } })
    else
      match pool.createBlock allocator this chunk with
      | (none, pool) => .ok (0, pool)
      | (some pBlock, pool) => .ok (pBlock + abi.blockHeader, pool)

/-- `MemoryPool::malloc`, the heap path. -/
def heapMalloc (pool : MemoryPool) (size : Nat) : Nat × MemoryPool :=
  match pool.mallocRaw allocator ((abi.heapHeader + size) % abi.limit) with
  | (none, pool) => (0, pool)
  | (some pHeap, pool) =>
    (pHeap + abi.heapHeader, { pool with memory := writeWord pool.memory abi.sizeofPtr pHeap size })

/-- `MemoryPool::Malloc`. -/
def malloc (pool : MemoryPool) (size : Nat) : Except PoolFault (Nat × MemoryPool) :=
  if size > maxSize then .ok (pool.heapMalloc allocator size)
  else pool.chunkMalloc allocator (chunkIndex abi size)

end

/-- The static `MemoryChunk::free`: the header of the block says which chunk gets it. -/
def chunkFree (abi : Abi) (pool : MemoryPool) (pMem : Nat) : Except PoolFault MemoryPool :=
  let pBlock := pMem - abi.blockHeader
  let pChunk := readWord pool.memory abi.sizeofPtr pBlock
  match pool.chunks.findIdx? fun chunk => chunk.address = pChunk with
  | none => .error .wildChunk
  | some this =>
    match pool.chunks[this]? with
    | none => .error .wildChunk
    | some chunk => .ok (pool.pushBlock abi this chunk pBlock)

/-- `MemoryPool::free`, the heap path: whether it was one. -/
def heapFree (abi : Abi) (pool : MemoryPool) (pMem : Nat) : Except PoolFault (Bool × MemoryPool) :=
  do
  let pHeap := pMem - abi.heapHeader
  if readWord pool.memory abi.sizeofPtr pHeap > maxSize then
    return (true, ← pool.freeRaw pHeap)
  else
    return (false, pool)

/-- `MemoryPool::Free`. -/
def free (abi : Abi) (pool : MemoryPool) (pMem : Nat) : Except PoolFault MemoryPool := do
  let (done, pool) ← pool.heapFree abi pMem
  if done then return pool else pool.chunkFree abi pMem

/-! ## The destructor -/

/-- One pass of the loop in `~MemoryChunk`: the memory, the head of the list and the number of
blocks deleted so far. -/
def deleteIteration (abi : Abi) (state : MemoryPool × Nat × Int) :
    Except PoolFault ((MemoryPool × Nat × Int) ⊕ (MemoryPool × Int)) :=
  let (pool, pFreeList, tempcount) := state
  if pFreeList ≠ 0 then
    let pNext := readWord pool.memory abi.sizeofPtr (pFreeList + abi.blockHeader)
    match pool.freeRaw pFreeList with
    | .ok pool => .ok (.inl (pool, pNext, toInt (tempcount + 1)))
    | .error fault => .error fault
  else .ok (.inr (pool, tempcount))

/-- A region that is given back is no longer there. -/
theorem freeRaw_ok {pool next : MemoryPool} {address : Nat}
    (freed : pool.freeRaw address = .ok next) :
    ∃ region ∈ pool.regions, region.base = address ∧
      next = { pool with regions := pool.regions.erase region } := by
  unfold freeRaw at freed
  cases found : pool.regions.find? fun region => region.base = address with
  | none =>
    rw [found] at freed
    cases freed
  | some region =>
    rw [found] at freed
    cases freed
    exact ⟨region, List.mem_of_find?_eq_some found, by simpa using List.find?_some found, rfl⟩

/-- Every pass gives a region back. -/
theorem deleteIteration_shrinks (abi : Abi) (state next : MemoryPool × Nat × Int)
    (continued : deleteIteration abi state = .ok (.inl next)) :
    next.1.regions.length < state.1.regions.length := by
  obtain ⟨pool, pFreeList, tempcount⟩ := state
  unfold deleteIteration at continued
  simp only at continued
  split at continued
  · split at continued
    · rename_i after freed
      cases continued
      obtain ⟨region, inRegions, -, rfl⟩ := freeRaw_ok freed
      have positive := List.length_pos_of_mem inRegions
      simp only [List.length_erase_of_mem inRegions]
      omega
    · cases continued
  · cases continued

/-- The destructor `MemoryChunk::~MemoryChunk`. -/
def destroyChunk (abi : Abi) (pool : MemoryPool) (chunk : MemoryChunk) :
    Except PoolFault MemoryPool := do
  let (pool, tempcount) ← loop (deleteIteration abi) (fun state => state.1.regions.length)
    (deleteIteration_shrinks abi) (pool, chunk.pFreeList, 0)
  if tempcount = chunk.count then return pool else throw .assertion

/-- The loop of `MemoryPool::~MemoryPool` over the chunks. -/
def destroy (abi : Abi) (pool : MemoryPool) : Except PoolFault MemoryPool :=
  pool.chunks.foldlM (destroyChunk abi) pool

end MemoryPool

end NetServer
