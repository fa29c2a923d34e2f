import NetServer.Pool.Operations

/-!
# The constructor and the destructor of the pool

The constructor leaves a pool with an empty ledger of clients and one chunk for every size. When
everything has been given back, the destructor finds all blocks on the free lists, and the count
of each chunk is the length of its list.
-/

namespace NetServer

open Lib MemoryPool

/-! ## The sizes -/

/-- The sizes lie between the first one and `MAX_SIZE`. -/
theorem sizesFrom_bounds {first size : Nat} (isSize : size ∈ sizesFrom first) :
    first ≤ size ∧ size ≤ maxSize := by
  induction first using sizesFrom.induct with
  | case1 first small ih =>
    rw [sizesFrom, if_pos small] at isSize
    cases isSize with
    | head => exact ⟨Nat.le_refl _, small.2⟩
    | tail _ later =>
      have bounds := ih later
      omega
  | case2 first large =>
    rw [sizesFrom, if_neg large] at isSize
    cases isSize

/-- The loop of `Malloc` finds a size that is large enough when the sizes end with `MAX_SIZE`. -/
theorem indexFrom_serves (doublings : Nat) {tsize size : Nat}
    (ends : tsize * 2 ^ doublings = maxSize) (small : size ≤ maxSize) (index : Nat) :
    ∃ skipped found, indexFrom tsize size index = index + skipped ∧
      (sizesFrom tsize)[skipped]? = some found ∧ size ≤ found := by
  induction doublings generalizing tsize index with
  | zero =>
    have last : tsize = maxSize := by simpa using ends
    have bounds : 0 < tsize ∧ tsize ≤ maxSize := ⟨by rw [last]; decide, by omega⟩
    refine ⟨0, tsize, ?_, ?_, by omega⟩
    · rw [indexFrom, if_pos bounds, if_pos (by omega), Nat.add_zero]
    · rw [sizesFrom, if_pos bounds]
      rfl
  | succ doublings ih =>
    have positive : 0 < tsize * 2 ^ (doublings + 1) := by rw [ends]; decide
    have bounds : 0 < tsize ∧ tsize ≤ maxSize :=
      ⟨Nat.pos_of_mul_pos_right positive, ends ▸ Nat.le_mul_of_pos_right _ (Nat.two_pow_pos _)⟩
    by_cases enough : tsize ≥ size
    · refine ⟨0, tsize, ?_, ?_, enough⟩
      · rw [indexFrom, if_pos bounds, if_pos enough, Nat.add_zero]
      · rw [sizesFrom, if_pos bounds]
        rfl
    · have next : 2 * tsize * 2 ^ doublings = maxSize := by
        rw [← ends, pow_succ]
        ring
      obtain ⟨skipped, found, isIndex, isFound, fits⟩ := ih next (index + 1)
      refine ⟨skipped + 1, found, ?_, ?_, fits⟩
      · rw [indexFrom, if_pos bounds, if_neg enough, isIndex]
        omega
      · rw [sizesFrom, if_pos bounds, List.getElem?_cons_succ]
        exact isFound

/-- Every request up to `MAX_SIZE` has a chunk with large enough blocks. -/
theorem serves_of_sizes {abi : Abi} {chunks : List MemoryChunk}
    (sizes : chunks.map MemoryChunk.size = chunkSizes abi) : Serves abi chunks := by
  intro size small
  have doublings : ∃ doublings, abi.sizeofPtr * 2 ^ doublings = maxSize := by
    rcases abi.supported with four | eight
    · exact ⟨8, by rw [four]; rfl⟩
    · exact ⟨7, by rw [eight]; rfl⟩
  obtain ⟨doublings, ends⟩ := doublings
  obtain ⟨skipped, found, isIndex, isFound, fits⟩ := indexFrom_serves doublings ends small 0
  have index : chunkIndex abi size = skipped := by rw [chunkIndex, isIndex, Nat.zero_add]
  have isSize : (chunks.map MemoryChunk.size)[skipped]? = some found := by rw [sizes]; exact isFound
  rw [List.getElem?_map, Option.map_eq_some_iff] at isSize
  obtain ⟨chunk, here, isSize⟩ := isSize
  exact ⟨_, index ▸ keyAt_of_get here, isSize ▸ fits⟩

/-! ## The constructor -/

/-- The key of a chunk among others and a new one. -/
theorem keyAt_append {chunks : List MemoryChunk} {chunk : MemoryChunk} {this : Nat}
    {key : Nat × Nat} (isKey : keyAt (chunks ++ [chunk]) this = some key) :
    keyAt chunks this = some key ∨ this = chunks.length ∧ key = (chunk.address, chunk.size) := by
  unfold keyAt at isKey ⊢
  by_cases old : this < chunks.length
  · rw [List.getElem?_append_left old] at isKey
    exact Or.inl isKey
  · rw [List.getElem?_append_right (by omega)] at isKey
    by_cases new : this = chunks.length
    · subst new
      rw [Nat.sub_self] at isKey
      exact Or.inr ⟨rfl, (Option.some.inj isKey).symm⟩
    · have behind : [chunk][this - chunks.length]? = none := List.getElem?_eq_none (by simp; omega)
      rw [behind] at isKey
      cases isKey

/-- A new chunk leaves the keys of the others. -/
theorem keyAt_append_of_some {chunks : List MemoryChunk} (chunk : MemoryChunk) {this : Nat}
    {key : Nat × Nat} (isKey : keyAt chunks this = some key) :
    keyAt (chunks ++ [chunk]) this = some key := by
  unfold keyAt at isKey ⊢
  have old : this < chunks.length := by
    by_contra behind
    rw [List.getElem?_eq_none (by omega)] at isKey
    cases isKey
  rw [List.getElem?_append_left old]
  exact isKey

/-- The block sizes are a part of the keys. -/
theorem sizes_of_keys {chunks chunks' : List MemoryChunk}
    (keys : ∀ this, keyAt chunks' this = keyAt chunks this) :
    chunks'.map MemoryChunk.size = chunks.map MemoryChunk.size := by
  refine List.ext_getElem? fun this => ?_
  have sizeAt : ∀ chunks : List MemoryChunk,
      (chunks.map MemoryChunk.size)[this]? = (keyAt chunks this).map Prod.snd := by
    intro chunks
    rw [List.getElem?_map, keyAt, Option.map_map]
    rfl
  rw [sizeAt, sizeAt, keys]

section

variable {abi : Abi} {pool : MemoryPool} {live : List Allocation} {ledger : Ledger}

/-- The loop in the constructor of a chunk: blocks that are made and put on the list. -/
theorem Inv.fill (allocator : Allocator abi.limit) (inv : Inv abi pool live ledger)
    (this count : Nat) :
    ∃ ledger', Inv abi (fill allocator pool this count) live ledger' ∧
      (∀ other, keyAt (MemoryPool.fill allocator pool this count).chunks other =
        keyAt pool.chunks other) ∧
      pool.regions ⊆ (MemoryPool.fill allocator pool this count).regions := by
  induction count generalizing pool ledger with
  | zero => exact ⟨ledger, inv, fun _ => rfl, List.Subset.refl _⟩
  | succ count ih =>
    cases here : pool.chunks[this]? with
    | none =>
      have filled : MemoryPool.fill allocator pool this (count + 1) = pool := by
        simp only [MemoryPool.fill, here]
      rw [filled]
      exact ⟨ledger, inv, fun _ => rfl, List.Subset.refl _⟩
    | some chunk =>
      cases created : pool.createBlock allocator this chunk with
      | mk answer pool' =>
        cases answer with
        | none =>
          have filled : MemoryPool.fill allocator pool this (count + 1) = pool' := by
            simp only [MemoryPool.fill, here, created]
          rw [filled, createBlock_none created]
          exact ⟨ledger, inv.calls _, fun _ => rfl, List.Subset.refl _⟩
        | some pBlock =>
          have isPool := (createBlock_some created).2
          have here' : pool'.chunks[this]? =
              some { chunk with count := toInt (chunk.count + 1) } := by
            rw [isPool]
            exact getElem?_set_this here
          have filled : MemoryPool.fill allocator pool this (count + 1) = MemoryPool.fill allocator
              (pool'.pushBlock abi this { chunk with count := toInt (chunk.count + 1) } pBlock) this
                  count := by
            simp only [MemoryPool.fill, here, created, here']
          have pushed := (inv.create here created (Nat.zero_le _)).push here' List.mem_cons_self
          rw [List.erase_cons_head] at pushed
          obtain ⟨ledger', inv', keys, regions⟩ := ih pushed
          rw [filled]
          refine ⟨ledger', inv', fun other => ?_, fun region inRegions => regions ?_⟩
          · have pushKeys := pushBlock_keys abi here' pBlock other
            rw [keys, pushKeys, createBlock_keys here created]
          · have grown : region ∈ pool'.regions := by
              rw [isPool]
              exact List.mem_cons_of_mem _ inRegions
            exact grown

/-- A new chunk leaves the regions of the others. -/
theorem Use.Marked.extent_append {base : Nat} {use : Use} (marked : use.Marked abi pool base)
    (chunk : MemoryChunk) :
    use.extent abi (pool.chunks ++ [chunk]) = use.extent abi pool.chunks := by
  cases use with
  | free this =>
    have isKey : keyAt pool.chunks this = some _ := marked
    simp only [Use.extent, isKey, keyAt_append_of_some chunk isKey]
  | block this size =>
    have isKey : keyAt pool.chunks this = some _ := marked.1
    simp only [Use.extent, isKey, keyAt_append_of_some chunk isKey]
  | heap size => rfl

/-- The objects of the chunks lie in memory. -/
def Placed (abi : Abi) (pool : MemoryPool) : Prop :=
  ∀ {this key}, keyAt pool.chunks this = some key → ⟨key.1, abi.sizeofChunk⟩ ∈ pool.regions

/-- An empty chunk keeps the ledger right. -/
theorem Inv.append_chunk {allocator : Allocator abi.limit} (inv : Inv abi pool [] ledger)
    (placed : Placed abi pool) {address size : Nat}
    (answered : allocator.answer pool.calls pool.regions abi.sizeofChunk = some address)
    (low : abi.sizeofPtr ≤ size) (high : size ≤ maxSize) :
    Inv abi ⟨pool.memory, pool.calls + 1, ⟨address, abi.sizeofChunk⟩ :: pool.regions,
      pool.chunks ++ [⟨address, 0, size, 0⟩]⟩ [] ledger where
  apart := List.pairwise_cons.mpr ⟨(allocator.fresh answered).2.2, inv.apart⟩
  valid := by
    intro region inRegions
    cases inRegions with
    | head =>
      exact ⟨(allocator.fresh answered).1, abi.chunkNonempty, (allocator.fresh answered).2.1⟩
    | tail _ inRegions => exact inv.valid inRegions
  booked := by
    intro base use isUse
    have booked := inv.booked isUse
    have extent := booked.2.extent_append ⟨address, 0, size, 0⟩
    refine ⟨?_, booked.2.congr (keyAt_append_of_some _) fun _ _ _ => rfl⟩
    rw [extent]
    exact List.mem_cons_of_mem _ booked.1
  addresses := by
    intro this other key key' isKey isKey' same
    have new : ∀ {this key}, keyAt pool.chunks this = some key → key.1 ≠ address := by
      intro this key isKey sameAddress
      have apart := (allocator.fresh answered).2.2 _ (placed isKey)
      exact apart.ne abi.chunkNonempty abi.chunkNonempty sameAddress.symm
    rcases keyAt_append isKey with old | ⟨isNew, isKeyNew⟩
    · rcases keyAt_append isKey' with old' | ⟨isNew', isKeyNew'⟩
      · exact inv.addresses old old' same
      · exact absurd (by rw [same, isKeyNew']) (new old)
    · rcases keyAt_append isKey' with old' | ⟨isNew', isKeyNew'⟩
      · exact absurd (by rw [← same, isKeyNew]) (new old')
      · rw [isNew, isNew']
  bounded := by
    intro this key isKey
    rcases keyAt_append isKey with old | ⟨-, isKeyNew⟩
    · exact inv.bounded old
    · have fresh := allocator.fresh answered
      have nonempty := abi.chunkNonempty
      rw [isKeyNew]
      exact ⟨by simp only; omega, low, high⟩
  listed := by
    intro this chunk here
    simp only [List.getElem?_append] at here
    split at here
    · obtain ⟨blocks, listed⟩ := inv.listed here
      exact ⟨blocks, listed.chain, listed.nodup, listed.free, listed.count⟩
    · have isNew : chunk = ⟨address, 0, size, 0⟩ :=
        List.mem_singleton.mp (List.mem_of_getElem? here)
      subst isNew
      have zero : toInt 0 = 0 := by decide
      exact ⟨[], rfl, List.nodup_nil, (fun inList => nomatch inList), zero.symm⟩
  owned := fun isLive => nomatch isLive
  distinct := List.nodup_nil

/-- `new MemoryChunk` for one more size. -/
theorem newChunk_spec {allocator : Allocator abi.limit} {pool' : MemoryPool} {size : Nat}
    (inv : Inv abi pool [] ledger) (placed : Placed abi pool) (low : abi.sizeofPtr ≤ size)
    (high : size ≤ maxSize) (made : newChunk allocator pool size = .ok pool') :
    (∃ ledger', Inv abi pool' [] ledger') ∧ Placed abi pool' ∧
      pool'.chunks.map MemoryChunk.size = pool.chunks.map MemoryChunk.size ++ [size] := by
  unfold newChunk mallocRaw at made
  cases answered : allocator.answer pool.calls pool.regions abi.sizeofChunk with
  | none =>
    rw [answered] at made
    cases made
  | some address =>
    rw [answered] at made
    cases made
    obtain ⟨ledger', inv', keys, regions⟩ :=
      (inv.append_chunk placed answered low high).fill allocator pool.chunks.length 1000
    refine ⟨⟨ledger', inv'⟩, fun {this key} isKey => regions ?_, ?_⟩
    · rw [keys] at isKey
      rcases keyAt_append isKey with old | ⟨-, isKeyNew⟩
      · exact List.mem_cons_of_mem _ (placed old)
      · rw [isKeyNew]
        exact List.mem_cons_self
    · rw [sizes_of_keys keys, List.map_append]
      rfl

/-- The loop of the constructor over the sizes. -/
theorem newChunks_spec {allocator : Allocator abi.limit} {sizes : List Nat} {pool' : MemoryPool}
    (inv : Inv abi pool [] ledger) (placed : Placed abi pool)
    (bounds : ∀ size ∈ sizes, abi.sizeofPtr ≤ size ∧ size ≤ maxSize)
    (made : sizes.foldlM (newChunk allocator) pool = .ok pool') :
    (∃ ledger', Inv abi pool' [] ledger') ∧
      pool'.chunks.map MemoryChunk.size = pool.chunks.map MemoryChunk.size ++ sizes := by
  induction sizes generalizing pool ledger with
  | nil =>
    cases made
    exact ⟨⟨ledger, inv⟩, (List.append_nil _).symm⟩
  | cons size sizes ih =>
    rw [List.foldlM_cons, bind_eq_ok] at made
    obtain ⟨next, first, rest⟩ := made
    have bound := bounds size List.mem_cons_self
    obtain ⟨⟨ledger', inv'⟩, placed', sizes'⟩ := newChunk_spec inv placed bound.1 bound.2 first
    have done :=
      ih inv' placed' (fun other later => bounds other (List.mem_cons_of_mem _ later)) rest
    rw [sizes', List.append_assoc] at done
    exact done

/-- The constructor makes a pool without allocations that serves every size. -/
theorem construct_spec {allocator : Allocator abi.limit} {memory : Memory}
    (constructed : construct allocator memory = .ok pool) :
    (∃ ledger, Inv abi pool [] ledger) ∧ Serves abi pool.chunks := by
  unfold construct mallocRaw at constructed
  cases answered : allocator.answer 0 [] (abi.sizeofPtr * (chunkSizes abi).length) with
  | none =>
    simp only [answered] at constructed
    cases constructed
  | some address =>
    simp only [answered] at constructed
    have fresh := allocator.fresh answered
    have pointer := abi.bounds
    have nonempty : 0 < abi.sizeofPtr * (chunkSizes abi).length := by
      rw [chunkSizes, sizesFrom, if_pos ⟨pointer.1, pointer.2.1⟩]
      exact Nat.mul_pos pointer.1 (Nat.succ_pos _)
    have empty : Inv abi ⟨memory, 1, [⟨address, abi.sizeofPtr * (chunkSizes abi).length⟩], []⟩ []
        fun _ => none :=
      { apart := List.pairwise_singleton _ _
        valid := by
          intro region inRegions
          rw [List.mem_singleton] at inRegions
          subst inRegions
          exact ⟨fresh.1, nonempty, fresh.2.1⟩
        booked := fun isUse => nomatch isUse
        addresses := fun isKey => nomatch isKey
        bounded := fun isKey => nomatch isKey
        listed := fun here => nomatch here
        owned := fun isLive => nomatch isLive
        distinct := List.nodup_nil }
    have made := newChunks_spec empty (fun isKey => nomatch isKey) (fun _ =>
      sizesFrom_bounds) constructed
    exact ⟨made.1, serves_of_sizes made.2⟩

/-! ## The destructor -/

/-- A chunk whose blocks are all on its free list. -/
structure Settled (abi : Abi) (pool : MemoryPool) (chunk : MemoryChunk) (blocks : List Nat) :
    Prop where
  chain : Chain (link abi pool.memory) chunk.pFreeList blocks
  nodup : blocks.Nodup
  owner : ∀ pBlock ∈ blocks, readWord pool.memory abi.sizeofPtr pBlock = chunk.address
  regions : ∀ pBlock ∈ blocks, ∃ region ∈ pool.regions, region.base = pBlock
  count : chunk.count = toInt blocks.length

/-- The loop of `~MemoryChunk` gives every block of the list back and counts them. -/
theorem deleteLoop_spec {blocks : List Nat} {head : Nat} (counted : Nat)
    (apart : pool.regions.Pairwise Region.Apart)
    (positive : ∀ region ∈ pool.regions, 0 < region.size)
    (chain : Chain (link abi pool.memory) head blocks) (nodup : blocks.Nodup)
    (known : ∀ pBlock ∈ blocks, ∃ region ∈ pool.regions, region.base = pBlock) :
    ∃ regions, regions.Sublist pool.regions ∧
      (∀ region ∈ pool.regions, region.base ∉ blocks → region ∈ regions) ∧
      loop (deleteIteration abi) (fun state => state.1.regions.length) (deleteIteration_shrinks abi)
        (pool, head, toInt counted) =
          .ok ({ pool with regions }, toInt (counted + blocks.length)) := by
  induction blocks generalizing pool head counted with
  | nil =>
    have null : head = 0 := chain
    subst null
    have returned : deleteIteration abi (pool, 0, toInt counted) =
      .ok (.inr (pool, toInt counted)) := rfl
    refine ⟨pool.regions, List.Sublist.refl _, fun _ inRegions _ => inRegions, ?_⟩
    rw [loop_return returned]
    simp
  | cons pBlock blocks ih =>
    obtain ⟨isHead, nonnull, behind⟩ := chain
    subst isHead
    obtain ⟨region, inRegions, isBase⟩ := known head List.mem_cons_self
    have freed := freeRaw_of_mem apart positive inRegions
    have stays : ∀ other ∈ pool.regions, other.base ≠ head → other ∈ pool.regions.erase region := by
      intro other isRegion ne
      have different : other ≠ region := fun same => ne (by rw [same, isBase])
      exact (List.mem_erase_of_ne different).mpr isRegion
    have counts : toInt (toInt counted + 1) = toInt ((counted + 1 : Nat) : Int) := by
      rw [toInt_toInt_add, Nat.cast_succ]
    have continued : deleteIteration abi (pool, head, toInt counted) =
        .ok (.inl ({ pool with regions := pool.regions.erase region }, link abi pool.memory head,
          toInt ((counted + 1 : Nat) : Int))) := by
      unfold deleteIteration
      rw [isBase] at freed
      simp only [ne_eq, nonnull, not_false_eq_true, ↓reduceIte, freed, counts]
      rfl
    have known' : ∀ pBlock ∈ blocks, ∃ other ∈ pool.regions.erase region, other.base = pBlock := by
      intro pBlock inList
      obtain ⟨other, isRegion, isBase'⟩ := known pBlock (List.mem_cons_of_mem _ inList)
      have ne : pBlock ≠ head := fun same => (List.nodup_cons.mp nodup).1 (same ▸ inList)
      exact ⟨other, stays other isRegion (isBase' ▸ ne), isBase'⟩
    obtain ⟨regions, fewer, kept, done⟩ :=
      @ih { pool with regions := pool.regions.erase region } _ (counted + 1) (apart.erase _)
        (fun other isRegion => positive other (List.mem_of_mem_erase isRegion)) behind
        (List.nodup_cons.mp nodup).2 known'
    refine ⟨regions, fewer.trans List.erase_sublist, fun other isRegion notIn => ?_, ?_⟩
    · rw [List.mem_cons, not_or] at notIn
      exact kept other (stays other isRegion notIn.1) notIn.2
    · rw [loop_continue continued, done]
      have total : ((counted + 1 : Nat) : Int) + blocks.length =
          counted + (head :: blocks).length := by
        rw [List.length_cons]
        omega
      rw [total]

/-- `~MemoryChunk` of a chunk whose blocks are all on its list: the assertion holds. -/
theorem destroyChunk_spec {chunk : MemoryChunk} {blocks : List Nat}
    (apart : pool.regions.Pairwise Region.Apart)
    (positive : ∀ region ∈ pool.regions, 0 < region.size)
    (settled : Settled abi pool chunk blocks) :
    ∃ regions, regions.Sublist pool.regions ∧
      (∀ region ∈ pool.regions, region.base ∉ blocks → region ∈ regions) ∧
      destroyChunk abi pool chunk = .ok { pool with regions } := by
  obtain ⟨regions, fewer, kept, done⟩ :=
    deleteLoop_spec 0 apart positive settled.chain settled.nodup settled.regions
  refine ⟨regions, fewer, kept, ?_⟩
  have zero : toInt ((0 : Nat) : Int) = 0 := by decide
  have counted : toInt (((0 : Nat) : Int) + blocks.length) = chunk.count := by
    rw [settled.count]
    simp
  rw [zero, counted] at done
  unfold destroyChunk
  rw [done]
  simp only [bind, Except.bind, ↓reduceIte]
  rfl

/-- `~MemoryPool` when the blocks of all chunks are on their lists. -/
theorem destroyChunks_spec {chunks : List MemoryChunk} (apart : pool.regions.Pairwise Region.Apart)
    (positive : ∀ region ∈ pool.regions, 0 < region.size)
    (distinct : chunks.Pairwise fun chunk other => chunk.address ≠ other.address)
    (settled : ∀ chunk ∈ chunks, ∃ blocks, Settled abi pool chunk blocks) :
    ∃ pool', chunks.foldlM (destroyChunk abi) pool = .ok pool' := by
  induction chunks generalizing pool with
  | nil => exact ⟨pool, rfl⟩
  | cons chunk chunks ih =>
    rw [List.pairwise_cons] at distinct
    obtain ⟨blocks, first⟩ := settled chunk List.mem_cons_self
    obtain ⟨regions, fewer, kept, done⟩ := destroyChunk_spec apart positive first
    rw [List.foldlM_cons, done]
    refine @ih { pool with regions } (apart.sublist fewer)
      (fun region inRegions =>
        positive region (fewer.subset inRegions)) distinct.2 fun other later => ?_
    obtain ⟨blocks', second⟩ := settled other (List.mem_cons_of_mem _ later)
    refine ⟨blocks', second.chain, second.nodup, second.owner, fun pBlock inList => ?_,
      second.count⟩
    obtain ⟨region, inRegions, isBase⟩ := second.regions pBlock inList
    have notFirst : region.base ∉ blocks := by
      rw [isBase]
      intro inFirst
      exact distinct.1 other later
        ((first.owner pBlock inFirst).symm.trans (second.owner pBlock inList))
    exact ⟨region, kept region inRegions notFirst, isBase⟩

/-- Without allocations the blocks of every chunk are on its list. -/
theorem Inv.settled (inv : Inv abi pool [] ledger) {this : Nat} {chunk : MemoryChunk}
    (here : pool.chunks[this]? = some chunk) : ∃ blocks, Settled abi pool chunk blocks := by
  obtain ⟨blocks, listed⟩ := inv.listed here
  refine ⟨blocks, listed.chain, listed.nodup, fun pBlock inList => ?_, fun pBlock inList => ?_, ?_⟩
  · have marked : Use.BlockMarked abi pool pBlock this := (inv.booked (listed.free inList)).2
    exact (marked.words here).1
  · exact ⟨_, (inv.booked (listed.free inList)).1, rfl⟩
  · rw [listed.count]
    simp

/-- The chunks have addresses of their own. -/
theorem Inv.addresses_distinct (inv : Inv abi pool live ledger) :
    pool.chunks.Pairwise fun chunk other => chunk.address ≠ other.address := by
  rw [List.pairwise_iff_getElem]
  intro this other inside inside' before same
  have isKey := keyAt_of_get (List.getElem?_eq_getElem inside)
  have isKey' := keyAt_of_get (List.getElem?_eq_getElem inside')
  have equal := inv.addresses isKey isKey' same
  omega

/-- `~MemoryPool` when everything has been given back. -/
theorem Inv.destroy (inv : Inv abi pool [] ledger) : ∃ pool', pool.destroy abi = .ok pool' := by
  refine destroyChunks_spec inv.apart (fun _ inRegions => (inv.valid inRegions).2.1)
    inv.addresses_distinct fun chunk inChunks => ?_
  obtain ⟨this, here⟩ := List.mem_iff_getElem?.mp inChunks
  exact inv.settled here

end

end NetServer
