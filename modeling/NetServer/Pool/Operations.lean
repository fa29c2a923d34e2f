import NetServer.Pool.Ledger

/-!
# The operations of the pool keep the ledger right

Taking a block off a free list, making a new block and putting one back change one entry of the
ledger each, and so do the two ends of the heap path. The constructor is a run of new blocks that
are put on the list at once.
-/

namespace NetServer

open Lib MemoryPool

/-- The count wraps around like the machine integer. -/
theorem toInt_toInt_add (count step : Int) : toInt (toInt count + step) = toInt (count + step) :=
  Int.bmod_add_bmod

section

variable {abi : Abi} {pool : MemoryPool} {live : List Allocation} {ledger : Ledger} {this : Nat}
  {chunk chunk' : MemoryChunk}

/-- The extent of a block. -/
theorem Use.extent_block (here : pool.chunks[this]? = some chunk) (size : Nat) :
    (Use.block this size).extent abi pool.chunks = abi.blockHeader + chunk.size := by
  simp [Use.extent, keyAt_of_get here]

/-- The chunk that was changed. -/
theorem getElem?_set_this (here : pool.chunks[this]? = some chunk) :
    (pool.chunks.set this chunk')[this]? = some chunk' :=
  List.getElem?_set_self (List.getElem?_eq_some_iff.mp here).1

/-- With one chunk changed, the free lists are right if the one of that chunk is. -/
theorem Frame.listed_set {spot calls : Nat} {memory : Memory} {regions : List Region}
    {entry : Option Use} {live' : List Allocation}
    (frame : Frame abi pool ⟨memory, calls, regions, pool.chunks.set this chunk'⟩ ledger spot)
    (inv : Inv abi pool live ledger) (here : pool.chunks[this]? = some chunk)
    (away : ∀ other, other ≠ this → ledger spot ≠ some (.free other))
    (counts : ∀ other, other ≠ this →
      (live'.countP fun a => a.chunk = some other) = live.countP fun a => a.chunk = some other)
    (mine : ∃ blocks, Listed abi ⟨memory, calls, regions, pool.chunks.set this chunk'⟩ live'
      (Function.update ledger spot entry) this chunk' blocks) {other : Nat} {found : MemoryChunk}
    (isFound : (pool.chunks.set this chunk')[other]? = some found) :
    ∃ blocks, Listed abi ⟨memory, calls, regions, pool.chunks.set this chunk'⟩ live'
      (Function.update ledger spot entry) other found blocks := by
  by_cases same : other = this
  · subst same
    rw [getElem?_set_this here] at isFound
    cases isFound
    exact mine
  · rw [List.getElem?_set_ne (Ne.symm same)] at isFound
    exact frame.listed_other inv isFound (away other same) (counts other same)

/-! ## Blocks of a chunk -/

/-- The first block of a free list goes to the client. -/
theorem Inv.pop (inv : Inv abi pool live ledger) (here : pool.chunks[this]? = some chunk)
    (nonnull : chunk.pFreeList ≠ 0) {size : Nat} (fits : size ≤ chunk.size) :
    Inv abi
      { pool with chunks := pool.chunks.set this { chunk with
                              pFreeList := link abi pool.memory chunk.pFreeList } }
      (⟨chunk.pFreeList + abi.blockHeader, size, some this⟩ :: live)
      (Function.update ledger chunk.pFreeList (some (.block this size))) := by
  obtain ⟨blocks, listed⟩ := inv.listed here
  obtain ⟨rest, isCons, behind⟩ := listed.chain.head_mem nonnull
  subst isCons
  have isFree : ledger chunk.pFreeList = some (.free this) := listed.free List.mem_cons_self
  have notRest : chunk.pFreeList ∉ rest := (List.nodup_cons.mp listed.nodup).1
  have marked : Use.BlockMarked abi pool chunk.pFreeList this := (inv.booked isFree).2
  have keys : ∀ other, keyAt (pool.chunks.set this { chunk with
      pFreeList := link abi pool.memory chunk.pFreeList }) other = keyAt pool.chunks other :=
    keyAt_set here rfl rfl
  have frame : Frame abi pool { pool with
      chunks := pool.chunks.set this { chunk with
                  pFreeList := link abi pool.memory chunk.pFreeList } } ledger chunk.pFreeList :=
    inv.frame_inside isFree keys fun _ _ => rfl
  refine frame.acquire inv ?_ rfl ⟨?_, ?_,
    ?_⟩ (frame.listed_set inv here ?_ ?_ ⟨rest, ?_, ?_, ?_, ?_⟩)
  · simp [isFree, Use.allocation]
  · rw [Use.extent_congr keys]
    exact (inv.booked isFree).1
  · unfold Use.BlockMarked at marked ⊢
    rw [keys, marked]
  · rw [(marked.words here).2]
    exact fits
  · intro other ne same
    rw [isFree] at same
    cases same
    exact ne rfl
  · intro other ne
    exact List.countP_cons_of_neg (by simpa using Ne.symm ne)
  · exact behind
  · exact (List.nodup_cons.mp listed.nodup).2
  · intro pBlock inRest
    have ne : pBlock ≠ chunk.pFreeList := fun same => notRest (same ▸ inRest)
    rw [Function.update_of_ne ne]
    exact listed.free (List.mem_cons_of_mem _ inRest)
  · have count := listed.count
    rw [List.length_cons] at count
    rw [List.countP_cons_of_pos (by simp), count]
    exact congrArg toInt (by omega)

/-- A block put on a list leaves the keys. -/
theorem pushBlock_keys (abi : Abi) (here : pool.chunks[this]? = some chunk) (pBlock : Nat) :
    ∀ other, keyAt (pool.pushBlock abi this chunk pBlock).chunks other =
      keyAt pool.chunks other := by
  unfold pushBlock
  exact keyAt_set here rfl rfl

/-- The client gives a block back. -/
theorem Inv.push (inv : Inv abi pool live ledger) (here : pool.chunks[this]? = some chunk)
    {pBlock size : Nat} (isLive : ⟨pBlock + abi.blockHeader, size, some this⟩ ∈ live) :
    Inv abi (pool.pushBlock abi this chunk pBlock)
      (live.erase ⟨pBlock + abi.blockHeader, size, some this⟩)
      (Function.update ledger pBlock (some (.free this))) := by
  have isUse : ledger pBlock = some (.block this size) := inv.use_of_live rfl isLive
  have booked := inv.booked isUse
  have key := inv.bounded (keyAt_of_get here)
  have extent : (Use.block this size).extent abi pool.chunks = abi.blockHeader + chunk.size :=
    Use.extent_block here size
  have keys := pushBlock_keys abi here pBlock
  have kept : ∀ addr, addr < pBlock + abi.blockHeader ∨
      pBlock + (Use.block this size).extent abi pool.chunks ≤ addr →
      writeWord pool.memory abi.sizeofPtr (pBlock + abi.blockHeader) chunk.pFreeList addr =
        pool.memory addr := by
    intro addr outside
    exact writeWord_outside _ _ (by omega)
  have frame : Frame abi pool (pool.pushBlock abi this chunk pBlock) ledger pBlock :=
    inv.frame_inside isUse keys fun addr outside => kept addr (by omega)
  obtain ⟨blocks, listed⟩ := inv.listed here
  have notListed : pBlock ∉ blocks := listed.not_mem (by simp [isUse])
  have listed' : Listed abi (pool.pushBlock abi this chunk pBlock) live
      (Function.update ledger pBlock (some (.free this))) this chunk blocks :=
    frame.listed inv listed notListed rfl listed.count
  have linked : link abi (pool.pushBlock abi this chunk pBlock).memory pBlock = chunk.pFreeList :=
    readWord_writeWord _ _ _ (inv.head_lt here)
  refine frame.release inv isUse rfl (fun isEntry => ?_)
    (frame.listed_set inv here ?_ ?_ ⟨pBlock :: blocks, ?_, ?_, ?_, ?_⟩)
  · cases isEntry
    have block : Use.BlockMarked abi pool pBlock this := booked.2.1
    have sameExtent := @Use.extent_congr abi _ _ keys (.free this)
    refine ⟨sameExtent ▸ booked.1, ?_⟩
    exact (block.congr (fun isKey => (keys _).trans isKey) fun addr _ high =>
      kept addr (Or.inl high)).1
  · simp [isUse]
  · intro other ne
    rw [List.countP_erase, if_neg (by simpa using fun _ => Ne.symm ne), Nat.sub_zero]
  · have positive : 0 < pBlock := (inv.valid booked.1).1
    have behind := listed'.chain
    rw [← linked] at behind
    exact ⟨rfl, by omega, behind⟩
  · exact List.nodup_cons.mpr ⟨notListed, listed.nodup⟩
  · intro other inList
    cases inList with
    | head => exact Function.update_self ..
    | tail _ inList => exact listed'.free inList
  · have positive : 0 < live.countP fun a => a.chunk = some this :=
      List.countP_pos_iff.mpr ⟨_, isLive, by simp⟩
    rw [List.countP_erase, if_pos ⟨isLive, by simp⟩, List.length_cons, listed.count]
    exact congrArg toInt (by omega)

/-- `CreateBlock` with memory: the region, the header and the count. -/
theorem createBlock_some {allocator : Allocator abi.limit} {pBlock : Nat} {pool' : MemoryPool}
    (created : pool.createBlock allocator this chunk = (some pBlock, pool')) :
    allocator.answer pool.calls pool.regions (abi.blockHeader + chunk.size) = some pBlock ∧
      pool' = ⟨writeWord (writeWord pool.memory abi.sizeofPtr pBlock chunk.address) abi.sizeofPtr
          (pBlock + abi.sizeofPtr) chunk.size,
        pool.calls + 1, ⟨pBlock, abi.blockHeader + chunk.size⟩ :: pool.regions,
        pool.chunks.set this { chunk with count := toInt (chunk.count + 1) }⟩ := by
  unfold createBlock mallocRaw at created
  cases answered : allocator.answer pool.calls pool.regions (abi.blockHeader + chunk.size) with
  | none =>
    rw [answered] at created
    simp at created
  | some address =>
    rw [answered] at created
    simp only [Prod.mk.injEq, Option.some.injEq] at created
    obtain ⟨isBlock, isPool⟩ := created
    subst isBlock
    exact ⟨rfl, isPool.symm⟩

/-- `CreateBlock` without memory. -/
theorem createBlock_none {allocator : Allocator abi.limit} {pool' : MemoryPool}
    (failed : pool.createBlock allocator this chunk = (none, pool')) :
    pool' = { pool with calls := pool.calls + 1 } := by
  unfold createBlock mallocRaw at failed
  cases answered : allocator.answer pool.calls pool.regions (abi.blockHeader + chunk.size) with
  | none =>
    rw [answered] at failed
    simp only [Prod.mk.injEq, true_and] at failed
    exact failed.symm
  | some address =>
    rw [answered] at failed
    simp at failed

/-- A new block leaves the keys. -/
theorem createBlock_keys {allocator : Allocator abi.limit} {answer : Option Nat}
    {pool' : MemoryPool} (here : pool.chunks[this]? = some chunk)
    (created : pool.createBlock allocator this chunk = (answer, pool')) :
    ∀ other, keyAt pool'.chunks other = keyAt pool.chunks other := by
  cases answer with
  | none =>
    rw [createBlock_none created]
    exact fun _ => rfl
  | some pBlock =>
    rw [(createBlock_some created).2]
    exact keyAt_set here rfl rfl

/-- A new block goes to the client. -/
theorem Inv.create {allocator : Allocator abi.limit} (inv : Inv abi pool live ledger)
    (here : pool.chunks[this]? = some chunk) {pBlock size : Nat} {pool' : MemoryPool}
    (created : pool.createBlock allocator this chunk = (some pBlock, pool'))
    (fits : size ≤ chunk.size) :
    Inv abi pool' (⟨pBlock + abi.blockHeader, size, some this⟩ :: live)
      (Function.update ledger pBlock (some (.block this size))) := by
  obtain ⟨answered, isPool⟩ := createBlock_some created
  subst isPool
  have key := inv.bounded (keyAt_of_get here)
  have pointer := abi.bounds
  have header : abi.blockHeader = 2 * abi.sizeofPtr := rfl
  have positive : 0 < abi.blockHeader + chunk.size := by omega
  have keys : ∀ other,
    keyAt (pool.chunks.set this { chunk with count := toInt (chunk.count + 1) }) other =
      keyAt pool.chunks other := keyAt_set here rfl rfl
  have frame : Frame abi pool ⟨writeWord (writeWord pool.memory abi.sizeofPtr pBlock chunk.address)
      abi.sizeofPtr (pBlock + abi.sizeofPtr) chunk.size, pool.calls + 1,
      ⟨pBlock, abi.blockHeader + chunk.size⟩ :: pool.regions,
      pool.chunks.set this { chunk with count := toInt (chunk.count + 1) }⟩ ledger pBlock := by
    refine inv.frame_fresh answered positive keys fun addr outside => ?_
    rw [writeWord_outside _ _ (by omega), writeWord_outside _ _ (by omega)]
  have isNone := inv.fresh_none answered positive
  have words := readWord_two pool.memory abi.sizeofPtr pBlock key.1
    (Nat.lt_of_le_of_lt key.2.2 pointer.2.2)
  obtain ⟨blocks, listed⟩ := inv.listed here
  have notListed : pBlock ∉ blocks := listed.not_mem (by simp [isNone])
  refine frame.acquire inv ?_ rfl ⟨?_, ?_, ?_⟩
    (frame.listed_set inv here ?_ ?_ ⟨blocks, frame.listed inv listed notListed rfl ?_⟩)
  · simp [isNone]
  · rw [Use.extent_congr keys, Use.extent_block here]
    exact List.mem_cons_self
  · unfold Use.BlockMarked
    rw [keys, keyAt_of_get here]
    simp only [words]
  · simp only [words]
    exact fits
  · simp [isNone]
  · intro other ne
    exact List.countP_cons_of_neg (by simpa using Ne.symm ne)
  · simp only [listed.count, toInt_toInt_add]
    rw [List.countP_cons_of_pos (by simp)]
    exact congrArg toInt (by omega)

/-- The number of requests made to `::malloc` does not matter. -/
theorem Inv.calls (inv : Inv abi pool live ledger) (calls : Nat) :
    Inv abi { pool with calls } live ledger where
  apart := inv.apart
  valid := inv.valid
  booked := inv.booked
  addresses := inv.addresses
  bounded := inv.bounded
  listed := by
    intro this chunk here
    obtain ⟨blocks, listed⟩ := inv.listed here
    exact ⟨blocks, listed.chain, listed.nodup, listed.free, listed.count⟩
  owned := inv.owned
  distinct := inv.distinct

/-! ## The heap path -/

/-- Memory of its own for a large request. -/
theorem Inv.heap_acquire {allocator : Allocator abi.limit} (inv : Inv abi pool live ledger)
    {pHeap size : Nat} (large : maxSize < size) (fits : size < abi.limit)
    (answered : allocator.answer pool.calls pool.regions (abi.heapHeader + size) = some pHeap) :
    Inv abi ⟨writeWord pool.memory abi.sizeofPtr pHeap size, pool.calls + 1,
        ⟨pHeap, abi.heapHeader + size⟩ :: pool.regions, pool.chunks⟩
      (⟨pHeap + abi.heapHeader, size, none⟩ :: live)
        (Function.update ledger pHeap (some (.heap size))) := by
  have header : abi.heapHeader = abi.sizeofPtr := rfl
  have positive : 0 < abi.heapHeader + size := by omega
  have frame : Frame abi pool ⟨writeWord pool.memory abi.sizeofPtr pHeap size, pool.calls + 1,
      ⟨pHeap, abi.heapHeader + size⟩ :: pool.regions, pool.chunks⟩ ledger pHeap :=
    inv.frame_fresh answered positive (fun _ => rfl) fun addr outside =>
      writeWord_outside _ _ (by omega)
  have isNone := inv.fresh_none answered positive
  refine frame.acquire inv (by simp [isNone]) rfl
    ⟨List.mem_cons_self, large, readWord_writeWord _ _ _ fits⟩ fun here => ?_
  exact frame.listed_other inv here (by simp [isNone]) (List.countP_cons_of_neg (by simp))

/-- The client gives memory of its own back. -/
theorem Inv.heap_release (inv : Inv abi pool live ledger) {pHeap size : Nat}
    (isLive : ⟨pHeap + abi.heapHeader, size, none⟩ ∈ live) :
    Inv abi { pool with regions := pool.regions.erase ⟨pHeap, abi.heapHeader + size⟩ }
      (live.erase ⟨pHeap + abi.heapHeader, size, none⟩) (Function.update ledger pHeap none) := by
  have isUse : ledger pHeap = some (.heap size) := inv.use_of_live rfl isLive
  have frame : Frame abi pool { pool with
      regions := pool.regions.erase ⟨pHeap, abi.heapHeader + size⟩ } ledger pHeap :=
    { keys := fun _ => rfl
      apart := inv.apart.erase _
      valid := fun inRegions => inv.valid (List.mem_of_mem_erase inRegions)
      regions := fun isUse' ne =>
      (List.mem_erase_of_ne fun same => ne (congrArg Region.base same)).mpr
        (inv.booked isUse').1
      memory := fun _ _ _ _ _ => rfl }
  refine frame.release inv isUse rfl (fun isEntry => ?_) ?_
  · cases isEntry
  · intro other chunk here
    refine frame.listed_other inv here (by simp [isUse]) ?_
    rw [List.countP_erase, if_neg (by simp), Nat.sub_zero]

/-! ## Writes of the client -/

/-- The pool depends on no bytes but those that are not for the client. -/
theorem Inv.memory_congr (inv : Inv abi pool live ledger) {memory : Memory}
    (kept : ∀ {base use}, ledger base = some use → ∀ addr, base ≤ addr →
      addr < base + use.reserved abi pool.chunks → memory addr = pool.memory addr) :
    Inv abi { pool with memory } live ledger where
  apart := inv.apart
  valid := inv.valid
  booked := by
    intro base use isUse
    have booked := inv.booked isUse
    have bounds := @Use.reserved_bounds abi use pool.chunks
    refine ⟨booked.1, booked.2.congr (fun isKey => isKey) fun addr low high => ?_⟩
    exact kept isUse addr low (by omega)
  addresses := inv.addresses
  bounded := inv.bounded
  listed := by
    intro this chunk here
    obtain ⟨blocks, listed⟩ := inv.listed here
    refine ⟨blocks, ?_, listed.nodup, listed.free, listed.count⟩
    refine listed.chain.congr fun pBlock inList => readWord_congr fun addr low high => ?_
    have isFree := listed.free inList
    have room : abi.blockHeader + abi.sizeofPtr ≤ (Use.free this).reserved abi pool.chunks :=
      inv.link_inside isFree
    exact kept isFree addr (by omega) (by omega)
  owned := inv.owned
  distinct := inv.distinct

/-- The client may write where it has memory, and other parts of the program where the pool has
no region. -/
def MayWrite (pool : MemoryPool) (live : List Allocation) (address : Nat) : Prop :=
  (∃ a ∈ live, a.pointer ≤ address ∧ address < a.pointer + a.size) ∨
    ∀ region ∈ pool.regions, address < region.base ∨ region.base + region.size ≤ address

instance (pool : MemoryPool) (live : List Allocation) (address : Nat) :
    Decidable (MayWrite pool live address) :=
  inferInstanceAs (Decidable ((∃ a ∈ live, a.pointer ≤ address ∧ address < a.pointer + a.size) ∨
    ∀ region ∈ pool.regions, address < region.base ∨ region.base + region.size ≤ address))

/-- Such a write changes nothing the pool depends on. -/
theorem Inv.write (inv : Inv abi pool live ledger) {address : Nat} (value : UInt8)
    (allowed : MayWrite pool live address) :
    Inv abi { pool with memory := Function.update pool.memory address value } live ledger := by
  refine inv.memory_congr fun {base use} isUse addr low high => Function.update_of_ne ?_ ..
  intro same
  subst same
  rcases allowed with ⟨a, isLive, behind, before⟩ | outside
  · have apart := inv.payload_apart_reserved isLive isUse
    unfold Region.Apart at apart
    simp only [Allocation.payload] at apart
    omega
  · have bounds := @Use.reserved_bounds abi use pool.chunks
    have away := outside _ (inv.booked isUse).1
    simp only at away
    omega

/-! ## `Malloc` and `Free` -/

/-- The chunk a request goes to, none for the heap path. -/
def servedBy (abi : Abi) (size : Nat) : Option Nat :=
  if size > maxSize then none else some (chunkIndex abi size)

/-- The allocations behind a `Malloc`, which may have returned null. -/
def hold (a : Allocation) (live : List Allocation) : List Allocation :=
  if a.pointer = 0 then live else a :: live

/-- A `Malloc` that did not return null. -/
theorem hold_of_ne {a : Allocation} (nonnull : a.pointer ≠ 0) (live : List Allocation) :
    hold a live = a :: live := if_neg nonnull

/-- Every request up to `MAX_SIZE` has a chunk with large enough blocks. -/
def Serves (abi : Abi) (chunks : List MemoryChunk) : Prop :=
  ∀ size ≤ maxSize, ∃ key, keyAt chunks (chunkIndex abi size) = some key ∧ size ≤ key.2

/-- `MemoryChunk::malloc` of a chunk with large enough blocks. -/
theorem Inv.chunkMalloc (allocator : Allocator abi.limit) (inv : Inv abi pool live ledger)
    (here : pool.chunks[this]? = some chunk) {size : Nat} (fits : size ≤ chunk.size) :
    ∃ pointer pool' ledger', pool.chunkMalloc allocator this = .ok (pointer, pool') ∧
      Inv abi pool' (hold ⟨pointer, size, some this⟩ live) ledger' ∧
      ∀ other, keyAt pool'.chunks other = keyAt pool.chunks other := by
  have header : abi.blockHeader = 2 * abi.sizeofPtr := rfl
  have pointer := abi.bounds
  unfold MemoryPool.chunkMalloc
  rw [here]
  by_cases null : chunk.pFreeList = 0
  · simp only [null, ne_eq, not_true_eq_false, ↓reduceIte]
    cases created : pool.createBlock allocator this chunk with
    | mk answer pool' =>
      cases answer with
      | none =>
        have isPool := createBlock_none created
        subst isPool
        exact ⟨0, _, ledger, rfl, inv.calls _, fun _ => rfl⟩
      | some pBlock =>
        have nonnull : pBlock + abi.blockHeader ≠ 0 := by omega
        have inv' := inv.create here created fits
        rw [← hold_of_ne nonnull] at inv'
        exact ⟨_, _, _, rfl, inv', createBlock_keys here created⟩
  · have nonnull : chunk.pFreeList + abi.blockHeader ≠ 0 := by omega
    have inv' := inv.pop here null fits
    rw [← hold_of_ne nonnull] at inv'
    simp only [ne_eq, null, not_false_eq_true, ↓reduceIte]
    exact ⟨_, _, _, rfl, inv', keyAt_set here rfl rfl⟩

/-- `MemoryPool::malloc`, the heap path. -/
theorem Inv.heapMalloc (allocator : Allocator abi.limit) (inv : Inv abi pool live ledger)
    {size : Nat} (large : maxSize < size) (fits : size + abi.heapHeader < abi.limit) :
    ∃ pointer pool' ledger', pool.heapMalloc allocator size = (pointer, pool') ∧
      Inv abi pool' (hold ⟨pointer, size, none⟩ live) ledger' ∧ pool'.chunks = pool.chunks := by
  have pointer := abi.bounds
  have header : abi.heapHeader = abi.sizeofPtr := rfl
  have small : (abi.heapHeader + size) % abi.limit = abi.heapHeader + size :=
    Nat.mod_eq_of_lt (by omega)
  unfold MemoryPool.heapMalloc mallocRaw
  rw [small]
  cases answered : allocator.answer pool.calls pool.regions (abi.heapHeader + size) with
  | none => exact ⟨0, _, ledger, rfl, inv.calls _, rfl⟩
  | some pHeap =>
    have nonnull : pHeap + abi.heapHeader ≠ 0 := by omega
    have inv' := inv.heap_acquire large (by omega) answered
    rw [← hold_of_ne nonnull] at inv'
    exact ⟨_, _, _, rfl, inv', rfl⟩

/-- `MemoryPool::Malloc`. -/
theorem Inv.malloc (allocator : Allocator abi.limit) (inv : Inv abi pool live ledger)
    (serves : Serves abi pool.chunks) {size : Nat} (fits : size + abi.heapHeader < abi.limit) :
    ∃ pointer pool' ledger', pool.malloc allocator size = .ok (pointer, pool') ∧
      Inv abi pool' (hold ⟨pointer, size, servedBy abi size⟩ live) ledger' ∧
      ∀ other, keyAt pool'.chunks other = keyAt pool.chunks other := by
  unfold MemoryPool.malloc servedBy
  by_cases large : size > maxSize
  · obtain ⟨pointer, pool', ledger', done, inv', chunks⟩ := inv.heapMalloc allocator large fits
    simp only [large, ↓reduceIte]
    exact ⟨pointer, pool', ledger', by rw [done], inv', fun _ => by rw [chunks]⟩
  · obtain ⟨key, isKey, enough⟩ := serves size (by omega)
    simp only [large, ↓reduceIte]
    cases here : pool.chunks[chunkIndex abi size]? with
    | none => simp [keyAt, here] at isKey
    | some chunk =>
      rw [keyAt_of_get here] at isKey
      cases isKey
      exact inv.chunkMalloc allocator here enough

/-- `::free` of a region. -/
theorem freeRaw_of_mem (apart : pool.regions.Pairwise Region.Apart)
    (positive : ∀ region ∈ pool.regions, 0 < region.size) {region : Region}
    (inRegions : region ∈ pool.regions) :
    pool.freeRaw region.base = .ok { pool with regions := pool.regions.erase region } := by
  unfold freeRaw
  cases found : pool.regions.find? fun other => other.base = region.base with
  | none =>
    have absent := List.find?_eq_none.mp found region inRegions
    simp at absent
  | some other =>
    have inRegions' := List.mem_of_find?_eq_some found
    have sameBase : other.base = region.base := by simpa using List.find?_some found
    have same : other = region := by
      by_contra ne
      exact (apart.forall inRegions' inRegions ne).ne (positive _ inRegions') (positive _ inRegions)
        sameBase
    rw [same]

/-- The header of a block leads back to its chunk. -/
theorem Inv.findIdx (inv : Inv abi pool live ledger) (here : pool.chunks[this]? = some chunk) :
    (pool.chunks.findIdx? fun other => other.address = chunk.address) = some this := by
  obtain ⟨inside, isChunk⟩ := List.getElem?_eq_some_iff.mp here
  rw [List.findIdx?_eq_some_iff_getElem]
  refine ⟨inside, by simp [isChunk], fun other before => ?_⟩
  have found : pool.chunks[other]? = some pool.chunks[other] := List.getElem?_eq_getElem (by omega)
  intro same
  have sameAddress : pool.chunks[other].address = chunk.address := by simpa using same
  have := inv.addresses (keyAt_of_get found) (keyAt_of_get here) sameAddress
  omega

/-- `MemoryPool::Free` of memory from the heap path. -/
theorem Inv.free_heap (inv : Inv abi pool live ledger) {pMem size : Nat}
    (isLive : ⟨pMem, size, none⟩ ∈ live) :
    maxSize < readWord pool.memory abi.sizeofPtr (pMem - abi.heapHeader) ∧
      pool.free abi pMem = .ok { pool with
        regions := pool.regions.erase ⟨pMem - abi.heapHeader, abi.heapHeader + size⟩ } ∧
      ∃ ledger', Inv abi { pool with
        regions := pool.regions.erase ⟨pMem - abi.heapHeader, abi.heapHeader + size⟩ }
        (live.erase ⟨pMem, size, none⟩) ledger' := by
  obtain ⟨base, use, isUse, isAllocation⟩ := inv.owned isLive
  cases use with
  | free this => cases isAllocation
  | block this size => cases isAllocation
  | heap size =>
    cases isAllocation
    have booked := inv.booked isUse
    have marked : maxSize < size ∧ readWord pool.memory abi.sizeofPtr base = size := booked.2
    have freed := freeRaw_of_mem inv.apart (fun _ inRegions => (inv.valid inRegions).2.1) booked.1
    have large : maxSize < readWord pool.memory abi.sizeofPtr base := marked.2.symm ▸ marked.1
    rw [Nat.add_sub_cancel]
    refine ⟨large, ?_, _, inv.heap_release isLive⟩
    unfold MemoryPool.free MemoryPool.heapFree
    rw [Nat.add_sub_cancel]
    simp only [gt_iff_lt, large, ↓reduceIte, freed]
    rfl

/-- `MemoryPool::Free` of a block of a chunk. -/
theorem Inv.free_block (inv : Inv abi pool live ledger) {pMem size : Nat}
    (isLive : ⟨pMem, size, some this⟩ ∈ live) :
    readWord pool.memory abi.sizeofPtr (pMem - abi.heapHeader) ≤ maxSize ∧
      ∃ chunk, pool.chunks[this]? = some chunk ∧
        pool.free abi pMem = .ok (pool.pushBlock abi this chunk (pMem - abi.blockHeader)) ∧
        ∃ ledger', Inv abi (pool.pushBlock abi this chunk (pMem - abi.blockHeader))
          (live.erase ⟨pMem, size, some this⟩) ledger' := by
  obtain ⟨base, use, isUse, isAllocation⟩ := inv.owned isLive
  cases use with
  | free this => cases isAllocation
  | heap size => cases isAllocation
  | block this size =>
    cases isAllocation
    have marked : Use.BlockMarked abi pool base this := (inv.booked isUse).2.1
    have word : base + abi.blockHeader - abi.heapHeader = base + abi.sizeofPtr := by
      simp only [Abi.blockHeader, Abi.heapHeader]
      omega
    have small : readWord pool.memory abi.sizeofPtr (base + abi.sizeofPtr) ≤ maxSize :=
      (inv.bounded marked).2.2
    cases here : pool.chunks[this]? with
    | none => simp [Use.BlockMarked, keyAt, here] at marked
    | some chunk =>
      have address := (marked.words here).1
      have notHeap : pool.heapFree abi (base + abi.blockHeader) = .ok (false, pool) := by
        unfold MemoryPool.heapFree
        rw [word]
        simp only [gt_iff_lt, Nat.not_lt.mpr small, ↓reduceIte]
        rfl
      have returned : pool.chunkFree abi (base + abi.blockHeader) =
          .ok (pool.pushBlock abi this chunk base) := by
        unfold MemoryPool.chunkFree
        simp only [Nat.add_sub_cancel, address, inv.findIdx here, here]
      rw [word, Nat.add_sub_cancel]
      refine ⟨small, chunk, rfl, ?_, _, inv.push here isLive⟩
      unfold MemoryPool.free
      rw [notHeap]
      exact returned

/-- `MemoryPool::Free`. -/
theorem Inv.free (inv : Inv abi pool live ledger) {a : Allocation} (isLive : a ∈ live) :
    ∃ pool', pool.free abi a.pointer = .ok pool' ∧
      (∃ ledger', Inv abi pool' (live.erase a) ledger') ∧
      ∀ other, keyAt pool'.chunks other = keyAt pool.chunks other := by
  obtain ⟨pMem, size, chunk⟩ := a
  cases chunk with
  | none =>
    obtain ⟨-, done, inv'⟩ := inv.free_heap isLive
    exact ⟨_, done, inv', fun _ => rfl⟩
  | some this =>
    obtain ⟨-, chunk, here, done, inv'⟩ := inv.free_block isLive
    exact ⟨_, done, inv', pushBlock_keys abi here _⟩

end

end NetServer
