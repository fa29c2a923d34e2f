import NetServer.Lib.Machine
import NetServer.Pool.MemoryPool

/-!
# What the pool's memory is used for

A ledger says for the base of each region what the region is used for: a block on the free list
of a chunk, a block in the hands of the client, or a block of the heap path. `Inv` relates a
ledger to memory: every region in the ledger is one of `::malloc`, carries the header that goes
with its use, and the free list of each chunk runs through blocks the ledger has as free. Since
the ledger has one use for each base and regions are apart, no two uses share memory.
-/

namespace NetServer

open Lib

/-- Memory in the hands of the client: the pointer, the size asked for, and the chunk the block
came from, none for the heap path. -/
structure Allocation where
  pointer : Nat
  size : Nat
  chunk : Option Nat
  deriving DecidableEq, Repr

/-- The bytes the client may use. -/
def Allocation.payload (a : Allocation) : Region := ⟨a.pointer, a.size⟩

/-- What a region is used for. -/
inductive Use where
  /-- A block on the free list of a chunk. -/
  | free (this : Nat)
  /-- A block of a chunk, with the size the client asked for. -/
  | block (this size : Nat)
  /-- A block of the heap path, with the size the client asked for. -/
  | heap (size : Nat)
  deriving DecidableEq, Repr

/-- Uses by the base of the region. -/
abbrev Ledger := Nat → Option Use

/-- The address and the block size of a chunk, which never change. -/
def keyAt (chunks : List MemoryChunk) (this : Nat) : Option (Nat × Nat) :=
  chunks[this]?.map fun chunk => (chunk.address, chunk.size)

/-- The link of a free block. -/
def link (abi : Abi) (memory : Memory) (pBlock : Nat) : Nat :=
  readWord memory abi.sizeofPtr (pBlock + abi.blockHeader)

namespace Use

/-- The number of bytes of a region with some use. -/
def extent (abi : Abi) (chunks : List MemoryChunk) : Use → Nat
  | .free this | .block this _ => abi.blockHeader + ((keyAt chunks this).map Prod.snd).getD 0
  | .heap size => abi.heapHeader + size

/-- The number of bytes of the header in front of the data. -/
def header (abi : Abi) : Use → Nat
  | .free _ | .block _ _ => abi.blockHeader
  | .heap _ => abi.heapHeader

/-- The number of bytes at the start of a region that are not for the client. -/
def reserved (abi : Abi) (chunks : List MemoryChunk) : Use → Nat
  | .free this => (Use.free this).extent abi chunks
  | .block this size => (Use.block this size).header abi
  | .heap size => (Use.heap size).header abi

/-- The header of a block: the address of its chunk and its size. -/
def BlockMarked (abi : Abi) (pool : MemoryPool) (base this : Nat) : Prop :=
  keyAt pool.chunks this = some (readWord pool.memory abi.sizeofPtr base,
    readWord pool.memory abi.sizeofPtr (base + abi.sizeofPtr))

/-- The region at a base carries the header that goes with its use, and the client asked for no
more than it holds. -/
def Marked (abi : Abi) (pool : MemoryPool) (base : Nat) : Use → Prop
  | .free this => BlockMarked abi pool base this
  | .block this size => BlockMarked abi pool base this ∧
      size ≤ readWord pool.memory abi.sizeofPtr (base + abi.sizeofPtr)
  | .heap size => maxSize < size ∧ readWord pool.memory abi.sizeofPtr base = size

/-- What the client has of a region. -/
def allocation (abi : Abi) (base : Nat) : Use → Option Allocation
  | .free _ => none
  | .block this size => some ⟨base + abi.blockHeader, size, some this⟩
  | .heap size => some ⟨base + abi.heapHeader, size, none⟩

end Use

/-- The free list of a chunk: it passes through these blocks. -/
structure Listed (abi : Abi) (pool : MemoryPool) (live : List Allocation) (ledger : Ledger)
    (this : Nat) (chunk : MemoryChunk) (blocks : List Nat) : Prop where
  chain : Chain (link abi pool.memory) chunk.pFreeList blocks
  nodup : blocks.Nodup
  free : ∀ {pBlock}, pBlock ∈ blocks → ledger pBlock = some (.free this)
  count : chunk.count = toInt (blocks.length + live.countP fun a => a.chunk = some this)

/-- The ledger is right about the pool and the memory in the hands of the client. -/
structure Inv (abi : Abi) (pool : MemoryPool) (live : List Allocation) (ledger : Ledger) :
    Prop where
  apart : pool.regions.Pairwise Region.Apart
  valid : ∀ {region}, region ∈ pool.regions →
    0 < region.base ∧ 0 < region.size ∧ region.base + region.size ≤ abi.limit
  booked : ∀ {base use}, ledger base = some use →
    ⟨base, use.extent abi pool.chunks⟩ ∈ pool.regions ∧ use.Marked abi pool base
  addresses : ∀ {this other key key'}, keyAt pool.chunks this = some key →
    keyAt pool.chunks other = some key' → key.1 = key'.1 → this = other
  bounded : ∀ {this key}, keyAt pool.chunks this = some key →
    key.1 < abi.limit ∧ abi.sizeofPtr ≤ key.2 ∧ key.2 ≤ maxSize
  listed : ∀ {this chunk}, pool.chunks[this]? = some chunk →
    ∃ blocks, Listed abi pool live ledger this chunk blocks
  owned : ∀ {a}, a ∈ live → ∃ base use, ledger base = some use ∧ use.allocation abi base = some a
  distinct : live.Nodup

/-! ## The width of a pointer -/

/-- The limits that depend on the pointer size. -/
theorem Abi.bounds (abi : Abi) :
    0 < abi.sizeofPtr ∧ abi.sizeofPtr ≤ maxSize ∧ maxSize < abi.limit := by
  rcases abi.supported with four | eight
  · rw [Abi.limit, four]
    decide
  · rw [Abi.limit, eight]
    decide

/-- Changing a chunk's list or count keeps its address and size. -/
theorem keyAt_set {chunks : List MemoryChunk} {this : Nat} {chunk chunk' : MemoryChunk}
    (here : chunks[this]? = some chunk) (address : chunk'.address = chunk.address)
    (size : chunk'.size = chunk.size) (other : Nat) :
    keyAt (chunks.set this chunk') other = keyAt chunks other := by
  unfold keyAt
  by_cases same : other = this
  · subst same
    have inside : other < chunks.length := (List.getElem?_eq_some_iff.mp here).1
    rw [List.getElem?_set_self inside, here]
    simp [address, size]
  · rw [List.getElem?_set_ne (Ne.symm same)]

section

variable {abi : Abi} {pool pool' : MemoryPool} {live : List Allocation} {ledger : Ledger}

/-- The key of a chunk. -/
theorem keyAt_of_get {chunks : List MemoryChunk} {this : Nat} {chunk : MemoryChunk}
    (here : chunks[this]? = some chunk) : keyAt chunks this = some (chunk.address, chunk.size) := by
  simp [keyAt, here]

/-- The extent depends on the keys only. -/
theorem Use.extent_congr {chunks chunks' : List MemoryChunk}
    (keys : ∀ this, keyAt chunks' this = keyAt chunks this) (use : Use) :
    use.extent abi chunks' = use.extent abi chunks := by
  cases use <;> simp only [Use.extent, keys]

/-- The header is a part of the region. -/
theorem Use.header_le_extent (use : Use) (chunks : List MemoryChunk) :
    use.header abi ≤ use.extent abi chunks := by
  cases use <;> exact Nat.le_add_right _ _

/-- What is not for the client is a part of the region, the header is a part of that. -/
theorem Use.reserved_bounds (use : Use) (chunks : List MemoryChunk) :
    use.header abi ≤ use.reserved abi chunks ∧ use.reserved abi chunks ≤ use.extent abi chunks := by
  have room := @Use.header_le_extent abi use chunks
  cases use with
  | free this => exact ⟨room, Nat.le_refl _⟩
  | block this size => exact ⟨Nat.le_refl _, room⟩
  | heap size => exact ⟨Nat.le_refl _, room⟩

/-- The header of a block is valid while its bytes and the keys stay. -/
theorem Use.BlockMarked.congr {base this : Nat} (marked : Use.BlockMarked abi pool base this)
    (keys : ∀ {this key}, keyAt pool.chunks this = some key → keyAt pool'.chunks this = some key)
    (kept : ∀ addr, base ≤ addr → addr < base + abi.blockHeader →
      pool'.memory addr = pool.memory addr) :
    Use.BlockMarked abi pool' base this ∧
      readWord pool'.memory abi.sizeofPtr (base + abi.sizeofPtr) =
        readWord pool.memory abi.sizeofPtr (base + abi.sizeofPtr) := by
  have header : abi.blockHeader = 2 * abi.sizeofPtr := rfl
  have first : readWord pool'.memory abi.sizeofPtr base = readWord pool.memory abi.sizeofPtr base :=
    readWord_congr fun addr low high => kept addr low (by omega)
  have second : readWord pool'.memory abi.sizeofPtr (base + abi.sizeofPtr) =
      readWord pool.memory abi.sizeofPtr (base + abi.sizeofPtr) :=
    readWord_congr fun addr low high => kept addr (by omega) (by omega)
  unfold Use.BlockMarked at marked ⊢
  exact ⟨by rw [keys marked, first, second], second⟩

/-- A header stays valid while its bytes and the keys stay. -/
theorem Use.Marked.congr {base : Nat} {use : Use} (marked : use.Marked abi pool base)
    (keys : ∀ {this key}, keyAt pool.chunks this = some key → keyAt pool'.chunks this = some key)
    (kept : ∀ addr, base ≤ addr → addr < base + use.header abi →
      pool'.memory addr = pool.memory addr) : use.Marked abi pool' base := by
  cases use with
  | free this => exact (Use.BlockMarked.congr marked keys kept).1
  | block this size =>
    have block := Use.BlockMarked.congr marked.1 keys kept
    exact ⟨block.1, block.2 ▸ marked.2⟩
  | heap size =>
    have word : readWord pool'.memory abi.sizeofPtr base =
        readWord pool.memory abi.sizeofPtr base :=
      readWord_congr kept
    exact ⟨marked.1, word.trans marked.2⟩

/-- Regions of different bases in the ledger are apart. -/
theorem Inv.regions_apart (inv : Inv abi pool live ledger) {base base' : Nat} {use use' : Use}
    (isUse : ledger base = some use) (isUse' : ledger base' = some use') (ne : base ≠ base') :
    Region.Apart ⟨base, use.extent abi pool.chunks⟩ ⟨base', use'.extent abi pool.chunks⟩ :=
  inv.apart.forall (inv.booked isUse).1 (inv.booked isUse').1 fun same =>
    ne (congrArg Region.base same)

/-- The header of a block in the ledger is that of its chunk. -/
theorem Use.BlockMarked.words {base this : Nat} {chunk : MemoryChunk}
    (marked : Use.BlockMarked abi pool base this) (here : pool.chunks[this]? = some chunk) :
    readWord pool.memory abi.sizeofPtr base = chunk.address ∧
      readWord pool.memory abi.sizeofPtr (base + abi.sizeofPtr) = chunk.size := by
  unfold Use.BlockMarked at marked
  rw [keyAt_of_get here, Option.some.injEq, Prod.mk.injEq] at marked
  exact ⟨marked.1.symm, marked.2.symm⟩

/-- A free block has room for its link. -/
theorem Inv.link_inside (inv : Inv abi pool live ledger) {pBlock this : Nat}
    (isFree : ledger pBlock = some (.free this)) :
    abi.blockHeader + abi.sizeofPtr ≤ (Use.free this).extent abi pool.chunks := by
  have marked : Use.BlockMarked abi pool pBlock this := (inv.booked isFree).2
  have room := (inv.bounded marked).2.1
  unfold Use.BlockMarked at marked
  simp only [Use.extent, marked, Option.map_some, Option.getD_some]
  omega

/-- The head of a free list is an address. -/
theorem Inv.head_lt (inv : Inv abi pool live ledger) {this : Nat} {chunk : MemoryChunk}
    (here : pool.chunks[this]? = some chunk) : chunk.pFreeList < abi.limit := by
  obtain ⟨blocks, listed⟩ := inv.listed here
  by_cases null : chunk.pFreeList = 0
  · rw [null]
    exact Nat.lt_of_le_of_lt (Nat.zero_le _) abi.bounds.2.2
  · obtain ⟨rest, isCons, -⟩ := listed.chain.head_mem null
    have inList : chunk.pFreeList ∈ blocks := isCons ▸ List.mem_cons_self
    have valid := inv.valid (inv.booked (listed.free inList)).1
    simp only at valid
    omega

/-! ## Changing one entry of the ledger -/

/-- The pool changes nothing in the regions of the ledger but the one at a spot. -/
structure Frame (abi : Abi) (pool pool' : MemoryPool) (ledger : Ledger) (spot : Nat) : Prop where
  keys : ∀ this, keyAt pool'.chunks this = keyAt pool.chunks this
  apart : pool'.regions.Pairwise Region.Apart
  valid : ∀ {region}, region ∈ pool'.regions →
    0 < region.base ∧ 0 < region.size ∧ region.base + region.size ≤ abi.limit
  regions : ∀ {base use}, ledger base = some use → base ≠ spot →
    ⟨base, use.extent abi pool.chunks⟩ ∈ pool'.regions
  memory : ∀ {base use}, ledger base = some use → base ≠ spot →
    ∀ addr, base ≤ addr → addr < base + use.extent abi pool.chunks →
    pool'.memory addr = pool.memory addr

/-- A free list that does not pass the spot stays as it is. -/
theorem Frame.listed {spot : Nat} {entry : Option Use} {live' : List Allocation} {this : Nat}
    {chunk chunk' : MemoryChunk} {blocks : List Nat} (frame : Frame abi pool pool' ledger spot)
    (inv : Inv abi pool live ledger) (listed : Listed abi pool live ledger this chunk blocks)
    (away : spot ∉ blocks) (head : chunk'.pFreeList = chunk.pFreeList)
    (count : chunk'.count = toInt (blocks.length + live'.countP fun a => a.chunk = some this)) :
    Listed abi pool' live' (Function.update ledger spot entry) this chunk' blocks where
  chain := by
    rw [head]
    refine listed.chain.congr fun pBlock inList => readWord_congr fun addr low high => ?_
    have isFree := listed.free inList
    have room := inv.link_inside isFree
    have elsewhere : pBlock ≠ spot := fun same => away (same ▸ inList)
    exact frame.memory isFree elsewhere addr (by omega) (by omega)
  nodup := listed.nodup
  free := by
    intro pBlock inList
    have elsewhere : pBlock ≠ spot := fun same => away (same ▸ inList)
    rw [Function.update_of_ne elsewhere]
    exact listed.free inList
  count := count

/-- A frame with a right entry at the spot, right free lists and right allocations keeps the
ledger right. -/
theorem Frame.inv {spot : Nat} {entry : Option Use} {live' : List Allocation}
    (frame : Frame abi pool pool' ledger spot) (inv : Inv abi pool live ledger)
    (right : ∀ {use}, entry = some use →
      ⟨spot, use.extent abi pool'.chunks⟩ ∈ pool'.regions ∧ use.Marked abi pool' spot)
    (listed : ∀ {this chunk}, pool'.chunks[this]? = some chunk →
      ∃ blocks, Listed abi pool' live' (Function.update ledger spot entry) this chunk blocks)
    (owned : ∀ {a}, a ∈ live' → ∃ base use, Function.update ledger spot entry base = some use ∧
      use.allocation abi base = some a)
    (distinct : live'.Nodup) : Inv abi pool' live' (Function.update ledger spot entry) where
  apart := frame.apart
  valid := frame.valid
  booked := by
    intro base use isUse
    by_cases same : base = spot
    · subst same
      rw [Function.update_self] at isUse
      exact right isUse
    · rw [Function.update_of_ne same] at isUse
      have room := @Use.header_le_extent abi use pool.chunks
      refine ⟨?_, (inv.booked isUse).2.congr (fun isKey =>
        (frame.keys _).trans isKey) fun addr low high => ?_⟩
      · rw [Use.extent_congr frame.keys]
        exact frame.regions isUse same
      · exact frame.memory isUse same addr low (by omega)
  addresses := by
    intro this other key key' isKey isKey'
    rw [frame.keys] at isKey isKey'
    exact inv.addresses isKey isKey'
  bounded := by
    intro this key isKey
    rw [frame.keys] at isKey
    exact inv.bounded isKey
  listed := listed
  owned := owned
  distinct := distinct

/-- A free list does not pass what is not free. -/
theorem Listed.not_mem {this spot : Nat} {chunk : MemoryChunk} {blocks : List Nat}
    (listed : Listed abi pool live ledger this chunk blocks)
    (away : ledger spot ≠ some (.free this)) : spot ∉ blocks :=
  fun inList => away (listed.free inList)

/-- A free list of a chunk the entry at the spot has nothing to do with stays as it is. -/
theorem Frame.listed_other {spot : Nat} {entry : Option Use} {live' : List Allocation} {other : Nat}
    {chunk : MemoryChunk} (frame : Frame abi pool pool' ledger spot)
    (inv : Inv abi pool live ledger) (here : pool.chunks[other]? = some chunk)
    (away : ledger spot ≠ some (.free other))
    (counts : (live'.countP fun a => a.chunk = some other) = live.countP fun a =>
      a.chunk = some other) :
    ∃ blocks, Listed abi pool' live' (Function.update ledger spot entry) other chunk blocks := by
  obtain ⟨blocks, listed⟩ := inv.listed here
  exact ⟨blocks, frame.listed inv listed (listed.not_mem away) rfl (counts ▸ listed.count)⟩

/-! ## Allocations -/

/-- An allocation determines the region and its use. -/
theorem Use.allocation_inj {base base' : Nat} {use use' : Use} {a : Allocation}
    (isAllocation : use.allocation abi base = some a)
    (isAllocation' : use'.allocation abi base' = some a) : base = base' ∧ use = use' := by
  cases use <;> cases use' <;>
    simp only [Use.allocation, Option.some.injEq, reduceCtorEq] at isAllocation isAllocation' <;>
    subst isAllocation <;> simp at isAllocation'
  · obtain ⟨pointer, size, chunk⟩ := isAllocation'
    exact ⟨pointer.symm, by rw [size, chunk]⟩
  · obtain ⟨pointer, size⟩ := isAllocation'
    exact ⟨pointer.symm, by rw [size]⟩

/-- The ledger has the use of every allocation. -/
theorem Inv.use_of_live (inv : Inv abi pool live ledger) {base : Nat} {use : Use} {a : Allocation}
    (isAllocation : use.allocation abi base = some a) (isLive : a ∈ live) :
    ledger base = some use := by
  obtain ⟨base', use', isUse, isAllocation'⟩ := inv.owned isLive
  obtain ⟨sameBase, sameUse⟩ := Use.allocation_inj isAllocation isAllocation'
  rw [sameBase, sameUse]
  exact isUse

/-- The bytes of an allocation lie behind the header in its region. -/
theorem Inv.payload_inside (inv : Inv abi pool live ledger) {base : Nat} {use : Use}
    {a : Allocation} (isUse : ledger base = some use)
    (isAllocation : use.allocation abi base = some a) :
    a.pointer = base + use.header abi ∧ a.pointer + a.size ≤ base + use.extent abi pool.chunks ∧
      a.pointer < base + use.extent abi pool.chunks ∧ use.reserved abi pool.chunks =
        use.header abi := by
  have marked := (inv.booked isUse).2
  have pointer := abi.bounds
  cases use with
  | free this => cases isAllocation
  | block this size =>
    cases isAllocation
    have block : keyAt pool.chunks this = some (readWord pool.memory abi.sizeofPtr base,
      readWord pool.memory abi.sizeofPtr (base + abi.sizeofPtr)) := marked.1
    have fits : size ≤ readWord pool.memory abi.sizeofPtr (base + abi.sizeofPtr) := marked.2
    have bound := (inv.bounded block).2.1
    have extent : (Use.block this size).extent abi pool.chunks =
        abi.blockHeader + readWord pool.memory abi.sizeofPtr (base + abi.sizeofPtr) := by
      simp only [Use.extent, block, Option.map_some, Option.getD_some]
    rw [extent]
    refine ⟨rfl, ?_, ?_, rfl⟩
    · simp only
      omega
    · simp only
      omega
  | heap size =>
    cases isAllocation
    have large : maxSize < size := marked.1
    refine ⟨rfl, ?_, ?_, rfl⟩
    · simp only [Use.extent]
      omega
    · simp only [Use.extent]
      omega

/-- The bytes of an allocation are apart from all that is not for the client. -/
theorem Inv.payload_apart_reserved (inv : Inv abi pool live ledger) {base : Nat} {use : Use}
    {a : Allocation} (isLive : a ∈ live) (isUse : ledger base = some use) :
    a.payload.Apart ⟨base, use.reserved abi pool.chunks⟩ := by
  obtain ⟨base', use', isUse', isAllocation⟩ := inv.owned isLive
  have inside := inv.payload_inside isUse' isAllocation
  by_cases same : base' = base
  · subst same
    rw [isUse] at isUse'
    cases isUse'
    refine Or.inr ?_
    simp only [Allocation.payload]
    omega
  · have bounds := @Use.reserved_bounds abi use pool.chunks
    refine (inv.regions_apart isUse' isUse same).mono ⟨?_, inside.2.1⟩ ⟨Nat.le_refl _, ?_⟩
    · simp only [Allocation.payload]
      omega
    · simp only
      omega

/-- Different allocations have bytes and pointers of their own. -/
theorem Inv.payloads_apart (inv : Inv abi pool live ledger) {a a' : Allocation} (isLive : a ∈ live)
    (isLive' : a' ∈ live) (ne : a ≠ a') : a.payload.Apart a'.payload ∧ a.pointer ≠ a'.pointer := by
  obtain ⟨base, use, isUse, isAllocation⟩ := inv.owned isLive
  obtain ⟨base', use', isUse', isAllocation'⟩ := inv.owned isLive'
  have otherBase : base ≠ base' := by
    intro same
    subst same
    rw [isUse] at isUse'
    cases isUse'
    rw [isAllocation] at isAllocation'
    exact ne (Option.some.inj isAllocation')
  have inside := inv.payload_inside isUse isAllocation
  have inside' := inv.payload_inside isUse' isAllocation'
  have apart := inv.regions_apart isUse isUse' otherBase
  unfold Region.Apart at apart ⊢
  simp only [Allocation.payload] at apart ⊢
  omega

/-- The client gets the memory at a spot that it did not have. -/
theorem Frame.acquire {spot : Nat} {use : Use} {a : Allocation}
    (frame : Frame abi pool pool' ledger spot) (inv : Inv abi pool live ledger)
    (clear : ∀ {use'}, ledger spot = some use' → use'.allocation abi spot = none)
    (isAllocation : use.allocation abi spot = some a)
    (right : ⟨spot, use.extent abi pool'.chunks⟩ ∈ pool'.regions ∧ use.Marked abi pool' spot)
    (listed : ∀ {this chunk}, pool'.chunks[this]? = some chunk →
      ∃ blocks, Listed abi pool' (a :: live) (Function.update ledger spot (some use)) this
        chunk blocks) : Inv abi pool' (a :: live) (Function.update ledger spot (some use)) := by
  refine frame.inv inv (fun isUse => ?_) listed (fun {a'} isLive => ?_) ?_
  · cases isUse
    exact right
  · cases isLive with
    | head => exact ⟨spot, use, Function.update_self .., isAllocation⟩
    | tail _ isLive =>
      obtain ⟨base, use', isUse, isAllocation'⟩ := inv.owned isLive
      have ne : base ≠ spot := by
        intro same
        subst same
        rw [clear isUse] at isAllocation'
        cases isAllocation'
      exact ⟨base, use', by rw [Function.update_of_ne ne, isUse], isAllocation'⟩
  · refine List.nodup_cons.mpr ⟨fun isLive => ?_, inv.distinct⟩
    have known := clear (inv.use_of_live isAllocation isLive)
    rw [isAllocation] at known
    cases known

/-- The client gives the memory at a spot back. -/
theorem Frame.release {spot : Nat} {use : Use} {entry : Option Use} {a : Allocation}
    (frame : Frame abi pool pool' ledger spot) (inv : Inv abi pool live ledger)
    (isUse : ledger spot = some use) (isAllocation : use.allocation abi spot = some a)
    (right : ∀ {use}, entry = some use →
      ⟨spot, use.extent abi pool'.chunks⟩ ∈ pool'.regions ∧ use.Marked abi pool' spot)
    (listed : ∀ {this chunk}, pool'.chunks[this]? = some chunk →
      ∃ blocks, Listed abi pool' (live.erase a) (Function.update ledger spot entry) this
        chunk blocks) : Inv abi pool' (live.erase a) (Function.update ledger spot entry) := by
  refine frame.inv inv right listed (fun {a'} isLive => ?_) (inv.distinct.erase a)
  rw [inv.distinct.mem_erase_iff] at isLive
  obtain ⟨base, use', isUse', isAllocation'⟩ := inv.owned isLive.2
  have ne : base ≠ spot := by
    intro same
    subst same
    rw [isUse] at isUse'
    cases isUse'
    rw [isAllocation] at isAllocation'
    exact isLive.1 (Option.some.inj isAllocation').symm
  exact ⟨base, use', by rw [Function.update_of_ne ne, isUse'], isAllocation'⟩

/-! ## Frames -/

/-- Bytes change in the region at the spot only. -/
theorem Inv.frame_inside (inv : Inv abi pool live ledger) {spot : Nat} {use : Use} {memory : Memory}
    {chunks : List MemoryChunk} (isUse : ledger spot = some use)
    (keys : ∀ this, keyAt chunks this = keyAt pool.chunks this)
    (kept : ∀ addr, addr < spot ∨ spot + use.extent abi pool.chunks ≤ addr →
      memory addr = pool.memory addr) :
    Frame abi pool { pool with memory, chunks } ledger spot where
  keys := keys
  apart := inv.apart
  valid := inv.valid
  regions := fun isUse' _ => (inv.booked isUse').1
  memory := by
    intro base use' isUse' ne addr low high
    have apart := inv.regions_apart isUse isUse' (Ne.symm ne)
    unfold Region.Apart at apart
    exact kept addr (by simp only at apart; omega)

/-- A new region is apart from all that the ledger has. -/
theorem Inv.fresh {allocator : Allocator abi.limit} (inv : Inv abi pool live ledger)
    {size address : Nat} (answered : allocator.answer pool.calls pool.regions size = some address)
    (positive : 0 < size) {base : Nat} {use : Use} (isUse : ledger base = some use) :
    Region.Apart ⟨address, size⟩ ⟨base, use.extent abi pool.chunks⟩ ∧ base ≠ address := by
  have inRegions := (inv.booked isUse).1
  have apart := (allocator.fresh answered).2.2 _ inRegions
  exact ⟨apart, (apart.ne positive (inv.valid inRegions).2.1).symm⟩

/-- The ledger has nothing at the base of a new region. -/
theorem Inv.fresh_none {allocator : Allocator abi.limit} (inv : Inv abi pool live ledger)
    {size address : Nat} (answered : allocator.answer pool.calls pool.regions size = some address)
    (positive : 0 < size) : ledger address = none := by
  cases isUse : ledger address with
  | none => rfl
  | some use => exact absurd rfl (inv.fresh answered positive isUse).2

/-- Bytes change in a new region only. -/
theorem Inv.frame_fresh {allocator : Allocator abi.limit} (inv : Inv abi pool live ledger)
    {size address : Nat} {memory : Memory} {chunks : List MemoryChunk}
    (answered : allocator.answer pool.calls pool.regions size = some address) (positive : 0 < size)
    (keys : ∀ this, keyAt chunks this = keyAt pool.chunks this)
    (kept : ∀ addr, addr < address ∨ address + size ≤ addr → memory addr = pool.memory addr) :
    Frame abi pool ⟨memory, pool.calls + 1, ⟨address, size⟩ :: pool.regions, chunks⟩ ledger
      address where
  keys := keys
  apart := List.pairwise_cons.mpr ⟨(allocator.fresh answered).2.2, inv.apart⟩
  valid := by
    intro region inRegions
    cases inRegions with
    | head => exact ⟨(allocator.fresh answered).1, positive, (allocator.fresh answered).2.1⟩
    | tail _ inRegions => exact inv.valid inRegions
  regions := fun isUse _ => List.mem_cons_of_mem _ (inv.booked isUse).1
  memory := by
    intro base use isUse _ addr low high
    have apart := (inv.fresh answered positive isUse).1
    unfold Region.Apart at apart
    exact kept addr (by simp only at apart; omega)

end

end NetServer
