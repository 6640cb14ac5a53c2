import Okl4Kernel.KmemoryInvariant
import Okl4Kernel.UnlimitedPool

/-!
# The memory of thread control blocks

Thread control blocks are the objects of a pool without a limit, whose blocks come from the kernel
heap. Here the pool and the heap are put together: an allocation asks the heap for a block if the
pool has no free object, and a block that the pool gives back goes to the heap.

`TcbMemory.Ok` is what every operation keeps: the invariants of the heap and of the pool, and that
the blocks of the pool are in use, as far as the heap is concerned. An object that is allocated and
freed again leaves the blocks of the heap in use as they were (`Ok.free_alloc`), unless the pool had
an unused block as `first_free`; this one is lost to the heap.
-/

namespace Okl4Kernel

open Kmem SmallAlloc SmallAlloc.Pool List

/-! ## The heap -/

namespace Heap

/-- Take a block back. -/
def release (h : Heap) (address size : ℕ) : Heap :=
  { h with
    kmem := h.kmem.free address size
    live := h.live.erase ⟨address, freeSize size / chunkSize⟩ }

/-- The set of free chunks. -/
def freeChunkSet (h : Heap) : Set ℕ := {c | ∃ fl, FreeList h.kmem fl ∧ c ∈ fl}

namespace Ok

variable {h : Heap} {fl : List ℕ}

section

variable (hok : h.Ok fl)
include hok

lemma mem_freeChunkSet {c : ℕ} : c ∈ h.freeChunkSet ↔ c ∈ fl := by
  constructor
  · rintro ⟨fl', hfl', hc⟩
    rwa [hok.freeList.reads.unique hfl'.reads]
  · exact fun hc => ⟨fl, hok.freeList, hc⟩

lemma mem_freeChunkSet_iff {c : ℕ} :
    c ∈ h.freeChunkSet ↔ c ∈ h.managed ∧ ∀ b ∈ h.live, c ∉ b.addrs := by
  rw [hok.mem_freeChunkSet]
  constructor
  · exact fun hc => ⟨hok.mem_managed.2 (.inl hc), fun b hb => hok.notMem_addrs hc hb⟩
  · rintro ⟨hmanaged, hnone⟩
    refine (hok.mem_managed.1 hmanaged).resolve_right ?_
    rintro ⟨b, hb, hmem⟩
    exact hnone b hb hmem

lemma freeChunkSet_eq {h' : Heap} {fl' : List ℕ} (hok' : h'.Ok fl')
    (hlive : h'.live = h.live) (hmanaged : h'.managed = h.managed) :
    h'.freeChunkSet = h.freeChunkSet := by
  ext c
  rw [hok'.mem_freeChunkSet_iff, hok.mem_freeChunkSet_iff, hlive, hmanaged]

lemma release {address size : ℕ} (hsize : freeSize size % chunkSize = 0)
    (hmem : ⟨address, freeSize size / chunkSize⟩ ∈ h.live) : ∃ fl', (h.release address size).Ok fl' :=
  hok.freed (b := ⟨address, freeSize size / chunkSize⟩) hmem
    (Nat.mul_div_cancel' (Nat.dvd_of_mod_eq_zero hsize)).symm

/-- The first chunk of a block in use is not free, and is after the block was taken back. -/
lemma freeChunkSet_release {address size : ℕ} (hsize : freeSize size % chunkSize = 0)
    (hmem : ⟨address, freeSize size / chunkSize⟩ ∈ h.live) :
    (h.release address size).freeChunkSet ≠ h.freeChunkSet := by
  obtain ⟨fl', hok'⟩ := hok.release hsize hmem
  have haddr : address ∈ Block.addrs ⟨address, freeSize size / chunkSize⟩ :=
    mem_chunkAddrs.2 ⟨0, hok.pos _ hmem, by simp⟩
  intro heq
  have hin : address ∈ (h.release address size).freeChunkSet := by
    refine hok'.mem_freeChunkSet_iff.2
      ⟨hok.mem_managed.2 (.inr ⟨_, hmem, haddr⟩), fun b hb hb' => ?_⟩
    have hpair := (perm_cons_erase hmem).pairwise_iff
      (R := fun b b' : Block => ∀ c ∈ b.addrs, c ∉ b'.addrs)
      (fun hdisj c hc hc' => hdisj c hc' hc) |>.1 hok.pairwise_disjoint
    exact (pairwise_cons.1 hpair).1 b hb address haddr hb'
  rw [heq, hok.mem_freeChunkSet_iff] at hin
  exact hin.2 _ hmem haddr

lemma alloc {size : Word} {zeroed : Bool} {k : Kmem} {a i : ℕ}
    (hsize : roundUp size = 2 ^ i) (halloc : h.kmem.alloc size zeroed = some (k, a)) :
    roundUp size ∣ a ∧ a + roundUp size ≤ wordSpace ∧ (∀ b ∈ h.live, a ∉ b.addrs) ∧
      ∃ fl', (h.allocated (roundUp size / chunkSize) (some (k, a))).Ok fl' := by
  obtain ⟨m, xs, ys, hm, -, haligned, hsplit, hfl⟩ := hok.freeList.alloc halloc
  have hmem : ∀ j < m + 1, a + chunkSize * j ∈ fl := fun j hj => by
    rw [hsplit]
    exact mem_append_right _ (mem_append_left _ (mem_chunkAddrs.2 ⟨j, hj, rfl⟩))
  have hlast := (hok.freeList.chunk _ (hmem m (by omega))).2.1
  have hend : a + roundUp size ≤ wordSpace := by
    rw [hm, Nat.mul_add]
    omega
  refine ⟨dvd_of_land_pred hsize (by omega) haligned, hend, fun b hb => ?_, ?_⟩
  · exact hok.notMem_addrs (by simpa using hmem 0 (by omega)) hb
  · rw [hm, Nat.mul_div_cancel_left _ (by decide : 0 < chunkSize)]
    exact ⟨_, hok.allocated hsplit hfl⟩

lemma allocAligned {size alignment mask : ℕ} {zeroed : Bool} {k : Kmem} {a : ℕ}
    (hsize : freeSize size % chunkSize = 0)
    (halloc : h.kmem.allocAligned size alignment mask zeroed = some (k, a)) :
    ∃ fl', (h.allocated (freeSize size / chunkSize) (some (k, a))).Ok fl' := by
  obtain ⟨m, xs, ys, hm, -, -, hsplit, hfl⟩ := hok.freeList.allocAligned hsize halloc
  rw [freeSize, hm, Nat.mul_div_cancel_left _ (by decide : 0 < chunkSize)]
  exact ⟨_, hok.allocated hsplit hfl⟩

end

end Ok

end Heap

/-! ## The pool and the heap -/

/-- `KTCB_SIZE`. The fields of `tcb_t` are more than 32 words, and two of them fit into a block. -/
structure KtcbSize where
  bytes : ℕ
  ge : 128 ≤ bytes
  le : bytes ≤ 2042

/-- What the memory of a new block holds in the place of its header. -/
structure StaleHeader where
  id : ℕ
  bitmap : ℕ → BitVec SmallAlloc.bitsWord

/-- The kernel heap, and the pool of thread control blocks with those that are in use. -/
structure TcbMemory where
  heap : Heap
  tcbs : SmallAlloc.Client

namespace TcbMemory

/-- There is no memory yet. -/
def init (size : KtcbSize) : TcbMemory := ⟨Heap.empty, SmallAlloc.Client.init size.bytes 0⟩

/-- The heap is asked for a block if the pool has no free object. -/
def blockMemory (m : TcbMemory) (stale : StaleHeader) : Heap × Option SmallAlloc.BlockMemory :=
  match m.tcbs.pool.firstFree with
  | some _ => (m.heap, none)
  | none =>
    match m.heap.kmem.alloc blockSize false with
    | none => (m.heap, none)
    | some (k, base) =>
      (m.heap.allocated (blockSize / chunkSize) (some (k, base)),
        some ⟨base, stale.id, stale.bitmap⟩)

/-- `alloc(kmem_group_tcb, true)`. -/
def alloc (m : TcbMemory) (stale : StaleHeader) : TcbMemory × Option ℕ :=
  match m.blockMemory stale with
  | (heap, memory) =>
    match m.tcbs.pool.allocate memory with
    | (pool, none) => (⟨heap, { m.tcbs with pool := pool }⟩, none)
    | (pool, some object) => (⟨heap, ⟨pool, object :: m.tcbs.live⟩⟩, some object)

/-- `free(kmem_group_tcb, object)`. If the pool has given the block of the object back, the heap
gets it. -/
def free (m : TcbMemory) (object : ℕ) : TcbMemory :=
  match m.tcbs.pool.blockAt (getBlockBase object) with
  | none => m
  | some b =>
    let pool := m.tcbs.pool.free b object
    let heap :=
      if (pool.blockAt b.base).isSome then m.heap else m.heap.release b.base blockSize
    ⟨heap, ⟨pool, m.tcbs.live.erase object⟩⟩

/-- The next object comes from a block that is unused. -/
def FirstUnused (m : TcbMemory) : Prop :=
  ∃ b ∈ m.tcbs.pool.blocks, m.tcbs.pool.firstFree = some b.base ∧ m.tcbs.pool.Unused b

/-- The invariant of the heap and the pool. -/
structure Ok (m : TcbMemory) : Prop where
  heap : ∃ fl, m.heap.Ok fl
  kept : SmallAlloc.Kept m.tcbs
  /-- There are at least two objects in a block. -/
  two_le : 2 ≤ m.tcbs.pool.objs
  /-- The bitmap of a block is one word, not all of which is used. -/
  lt : m.tcbs.pool.objs < 32
  /-- The blocks of the pool are in use. -/
  blocks : ∀ b ∈ m.tcbs.pool.blocks, ⟨b.base, blockSize / chunkSize⟩ ∈ m.heap.live

variable {m m' : TcbMemory} {stale : StaleHeader} {object : ℕ}

lemma init_ok (size : KtcbSize) : (init size).Ok := by
  have hge := size.ge
  have hle := size.le
  have hblock : blockSize = 4096 := rfl
  -- The header is two words and the bitmap.
  have hquot : blockSize / size.bytes ≤ 32 := by
    rw [Nat.div_le_iff_le_mul_add_pred (by omega)]
    omega
  have hquot₂ : 2 ≤ blockSize / size.bytes :=
    (Nat.le_div_iff_mul_le (by omega)).2 (by omega)
  have hheader : headerSize size.bytes = 12 := by
    have hwords : WordBitmap.numWords SmallAlloc.bitsWord (blockSize / size.bytes) = 1 := by
      simp only [WordBitmap.numWords, SmallAlloc.bitsWord]
      omega
    rw [headerSize, hwords]
  have hbytes : 0 < size.bytes := by omega
  have hfit : size.bytes + headerSize size.bytes ≤ blockSize := by omega
  obtain ⟨hpos, hcases⟩ := objsPerBlock_eq hbytes hfit
  obtain ⟨-, hroom⟩ := objsPerBlock_spec hbytes hfit
  have htwo : 2 ≤ objsPerBlock size.bytes := by
    rw [hheader] at hcases
    rcases hcases with ⟨-, heq⟩ | ⟨hlt, heq⟩
    · omega
    -- One object makes room for the header, so there must be room for three without it.
    have hzero : (12 - blockSize % size.bytes) / size.bytes = 0 :=
      Nat.div_eq_of_lt (by omega)
    have hdm := Nat.div_add_mod' blockSize size.bytes
    have hne : blockSize / size.bytes ≠ 2 := by
      intro hq
      rw [hq] at hdm
      omega
    omega
  have hlt : objsPerBlock size.bytes < 32 := by
    have := Nat.mul_le_mul_left (objsPerBlock size.bytes) hge
    omega
  have hmod : objsPerBlock size.bytes % SmallAlloc.bitsWord ≠ 0 := by
    simp only [SmallAlloc.bitsWord]
    omega
  have hbytes : (init size).tcbs.pool.objs = objsPerBlock size.bytes := by
    have hlt : size.bytes % 2 ^ 16 = size.bytes := Nat.mod_eq_of_lt (by omega)
    rw [Pool.objs, init, SmallAlloc.Client.init, Pool.init, hlt]
  exact ⟨⟨[], Heap.Ok.forget rfl⟩, SmallAlloc.Kept.init ⟨by omega, by omega, .inl hmod⟩,
    hbytes ▸ htwo, hbytes ▸ hlt, fun _ hb => absurd hb not_mem_nil⟩

section

variable (h : m.Ok)
include h

lemma Ok.withHeap {heap : Heap} {fl : List ℕ} (hok : heap.Ok fl)
    (hblocks : ∀ b ∈ m.tcbs.pool.blocks, ⟨b.base, blockSize / chunkSize⟩ ∈ heap.live) :
    Ok { m with heap := heap } :=
  { h with heap := ⟨fl, hok⟩, blocks := hblocks }

/-- A block that the heap hands out is one that the pool does not have. -/
lemma Ok.block (stale : StaleHeader) {k : Kmem} {base : ℕ}
    (hheap : m.heap.kmem.alloc blockSize false = some (k, base)) :
    m.tcbs.heapGives ⟨base, stale.id, stale.bitmap⟩ = true ∧
      ∃ fl, (m.heap.allocated (blockSize / chunkSize) (some (k, base))).Ok fl := by
  obtain ⟨fl, hok⟩ := h.heap
  have hsize : roundUp (4096 : Word) = 2 ^ 12 := by decide
  obtain ⟨haligned, hend, hfresh, hok'⟩ := hok.alloc hsize hheap
  have hnew : base ∉ m.tcbs.pool.blocks.map SmallAlloc.Block.base := by
    intro hin
    obtain ⟨c, hc, rfl⟩ := mem_map.1 hin
    refine hfresh _ (h.blocks c hc) (mem_chunkAddrs.2 ⟨0, ?_, by simp⟩)
    exact (by decide : 0 < blockSize / chunkSize)
  exact ⟨decide_eq_true ⟨Nat.mod_eq_zero_of_dvd haligned, hend, hnew⟩, hok'⟩

/-- The ways in which an object is allocated: from a block of the pool, or from a new one. If there
is neither, nothing has changed. -/
lemma Ok.alloc_cases {result : Option ℕ} (halloc : m.alloc stale = (m', result)) :
    result = none ∧ m' = m ∨
    ∃ pool, ∃ b ∈ pool.blocks, SmallAlloc.Kept ⟨pool, m.tcbs.live⟩ ∧ pool.hasFree b = true ∧
      m'.tcbs = ⟨(pool.takeObject b).1, (pool.takeObject b).2 :: m.tcbs.live⟩ ∧
      result = some (pool.takeObject b).2 ∧ pool.objs = m.tcbs.pool.objs ∧
      (pool = m.tcbs.pool ∧ m.tcbs.pool.firstFree = some b.base ∧ m'.heap = m.heap ∨
        m.tcbs.pool.firstFree = none ∧ pool.Unused b ∧
          (∀ c ∈ pool.blocks, c.base = b.base ∨ c.base ∈ m.tcbs.pool.blocks.map SmallAlloc.Block.base) ∧
          (∃ k, m'.heap = m.heap.allocated (blockSize / chunkSize) (some (k, b.base))) ∧
          ∃ fl, m'.heap.Ok fl) := by
  rw [TcbMemory.alloc, blockMemory] at halloc
  cases hff : m.tcbs.pool.firstFree with
  | some base =>
    obtain ⟨b, hb, rfl, hfree, heq⟩ := h.kept.allocate_of_first hff none
    simp only [hff, heq, Prod.mk.injEq] at halloc
    obtain ⟨rfl, rfl⟩ := halloc
    exact .inr ⟨m.tcbs.pool, b, hb, h.kept, hfree, rfl, rfl, rfl, .inl ⟨rfl, rfl, rfl⟩⟩
  | none =>
    rcases hheap : m.heap.kmem.alloc blockSize false with _ | r
    · simp only [hff, hheap, h.kept.allocate_none hff, Prod.mk.injEq] at halloc
      exact .inl ⟨halloc.2.symm, halloc.1.symm⟩
    obtain ⟨k, base⟩ := r
    obtain ⟨hgives, fl', hok'⟩ := h.block stale hheap
    obtain ⟨b, hb, hbase, hfree, hunused, heq⟩ := h.kept.allocate_of_memory hff hgives rfl
    simp only [hff, hheap, heq, Prod.mk.injEq] at halloc
    obtain ⟨rfl, rfl⟩ := halloc
    refine .inr ⟨_, b, hb, h.kept.allocateBlock hgives, hfree, rfl, rfl, rfl,
      .inr ⟨rfl, hunused, fun c hc => ?_, ⟨k, ?_⟩, fl', hok'⟩⟩
    · obtain ⟨before, after, id, hsplit, hblocks⟩ :=
        Pool.allocateBlock_split h.kept.unlimited
          (⟨base, stale.id, stale.bitmap⟩ : SmallAlloc.BlockMemory)
      rw [hblocks, mem_append, mem_cons] at hc
      rw [hsplit, map_append, mem_append, hbase]
      rcases hc with hc | rfl | hc
      · exact .inr (.inl (mem_map_of_mem hc))
      · exact .inl rfl
      · exact .inr (.inr (mem_map_of_mem hc))
    · rw [hbase]

/-- If there is an unused block, the heap is not asked for one. -/
lemma Ok.alloc_of_firstUnused (hunused : m.FirstUnused) (stale : StaleHeader) :
    ∃ m' object, m.alloc stale = (m', some object) ∧ m'.heap = m.heap := by
  obtain ⟨b, -, hff, -⟩ := hunused
  obtain ⟨c, -, -, -, heq⟩ := h.kept.allocate_of_first hff none
  rw [TcbMemory.alloc, blockMemory, hff]
  dsimp only
  rw [heq]
  exact ⟨_, _, rfl, rfl⟩

lemma Ok.alloc (halloc : m.alloc stale = (m', some object)) :
    m'.Ok ∧ m'.tcbs.live = object :: m.tcbs.live ∧ object ∉ m.tcbs.live ∧ object < wordSpace ∧
      m'.heap.managed = m.heap.managed := by
  obtain ⟨⟨⟩, -⟩ | ⟨pool, b, hb, hkept, hfree, htcbs, ⟨⟩, hobjs, hcases⟩ := h.alloc_cases halloc
  obtain ⟨hkept', hbases'⟩ := hkept.takeObject hb hfree
  refine ⟨⟨?_, htcbs ▸ hkept', ?_, ?_, ?_⟩, by rw [htcbs], ?_, ?_, ?_⟩
  · rcases hcases with ⟨-, -, hheap⟩ | ⟨-, -, -, -, hok⟩
    · exact hheap ▸ h.heap
    · exact hok
  · rw [htcbs]
    exact hobjs ▸ h.two_le
  · rw [htcbs]
    exact hobjs ▸ h.lt
  · intro c hc
    rw [htcbs] at hc
    obtain ⟨d, hd, heq⟩ := mem_map.1 (hbases' c hc)
    rw [← heq]
    rcases hcases with ⟨rfl, -, hheap⟩ | ⟨-, -, hbases, ⟨k, hheap⟩, -⟩ <;> rw [hheap]
    · exact h.blocks d hd
    · rcases hbases d hd with hdb | hdm
      · rw [hdb]
        exact mem_cons_self
      · obtain ⟨e, he, heq'⟩ := mem_map.1 hdm
        rw [← heq']
        exact mem_cons_of_mem _ (h.blocks e he)
  · exact (nodup_cons.1 hkept'.nodup).1
  · exact Nat.mod_lt _ (by decide : 0 < wordSpace)
  · rcases hcases with ⟨-, -, hheap⟩ | ⟨-, -, -, ⟨k, hheap⟩, -⟩ <;> rw [hheap]
    rfl

lemma Ok.free (hlive : object ∈ m.tcbs.live) :
    (m.free object).Ok ∧ (m.free object).tcbs.live = m.tcbs.live.erase object ∧
      (m.free object).heap.managed = m.heap.managed := by
  obtain ⟨fl, hok⟩ := h.heap
  obtain ⟨b, hb, -, -, -, hat⟩ := h.kept.exists_block hlive
  obtain ⟨hkept, hobjs, hbases⟩ := h.kept.free hlive hat
  have hbase : ∀ c ∈ (m.tcbs.pool.free b object).blocks,
      ⟨c.base, blockSize / chunkSize⟩ ∈ m.heap.live := by
    intro c hc
    obtain ⟨d, hd, heq⟩ := mem_map.1 (hbases c hc)
    exact heq ▸ h.blocks d hd
  unfold TcbMemory.free
  rw [hat]
  dsimp only
  split_ifs with hsome
  · exact ⟨⟨⟨fl, hok⟩, hkept, hobjs ▸ h.two_le, hobjs ▸ h.lt, hbase⟩, rfl, rfl⟩
  refine ⟨⟨hok.release (by decide) (h.blocks b hb), hkept, hobjs ▸ h.two_le, hobjs ▸ h.lt,
    fun c hc => ?_⟩, rfl, rfl⟩
  refine (mem_erase_of_ne ?_).2 (hbase c hc)
  intro heq
  obtain ⟨heq, -⟩ := Okl4Kernel.Block.mk.inj heq
  refine hsome (Option.isSome_iff_exists.2 ⟨c, ?_⟩)
  rw [← heq]
  exact Pool.blockAt_of_mem hkept.bases hc

/-- An object is allocated and freed again, while others leave the blocks in use as they are. The
heap gets a block that it did not have before exactly if the object came from an unused block. -/
lemma Ok.free_alloc (halloc : m.alloc stale = (m', some object)) {heap : Heap}
    (hlive : heap.live = m'.heap.live) :
    (¬ m.FirstUnused → (TcbMemory.free ⟨heap, m'.tcbs⟩ object).heap.live = m.heap.live) ∧
      (m.FirstUnused → m'.heap = m.heap ∧ ∃ base,
        ⟨base, blockSize / chunkSize⟩ ∈ m.heap.live ∧
        (TcbMemory.free ⟨heap, m'.tcbs⟩ object).heap = heap.release base blockSize) := by
  obtain ⟨⟨⟩, -⟩ | ⟨pool, b, hb, hkept, hfree, htcbs, ⟨⟩, hobjs, hcases⟩ := h.alloc_cases halloc
  have hmod : pool.objs % SmallAlloc.bitsWord ≠ 0 := by
    have htwo := h.two_le
    have hlt := h.lt
    simp only [SmallAlloc.bitsWord]
    omega
  obtain ⟨c, hat, hbase, hiff⟩ := hkept.free_takeObject hb hfree (hobjs ▸ h.two_le) hmod
  have hchunks : Heap.freeSize blockSize / chunkSize = blockSize / chunkSize := by
    decide
  have hheap : (TcbMemory.free ⟨heap, m'.tcbs⟩ (pool.takeObject b).2).heap =
      if pool.Unused b then heap.release b.base blockSize else heap := by
    unfold TcbMemory.free
    rw [htcbs]
    rw [hat]
    dsimp only at hiff ⊢
    rw [hbase]
    split_ifs with hsome hunused hunused
    · exact absurd hunused (hiff.1 hsome)
    · rfl
    · rfl
    · exact absurd (hiff.2 hunused) hsome
  rcases hcases with ⟨rfl, hff, hsame⟩ | ⟨hff, hunused, -, ⟨k, hsame⟩, -⟩
  · have hiff : m.FirstUnused ↔ m.tcbs.pool.Unused b := by
      constructor
      · rintro ⟨d, hd, hffd, hunused⟩
        have hbased := Option.some.inj (hffd.symm.trans hff)
        rwa [← inj_on_of_nodup_map h.kept.bases hd hb hbased]
      · exact fun hunused => ⟨b, hb, hff, hunused⟩
    rw [hheap, hiff]
    refine ⟨fun hunused => ?_, fun hunused => ⟨hsame, b.base, h.blocks b hb, if_pos hunused⟩⟩
    rw [if_neg hunused, hlive, hsame]
  · have hnot : ¬ m.FirstUnused := by
      rintro ⟨d, -, hffd, -⟩
      rw [hff] at hffd
      cases hffd
    refine ⟨fun _ => ?_, fun hfirst => absurd hfirst hnot⟩
    rw [hheap, if_pos hunused, Heap.release, hchunks, hlive, hsame]
    exact erase_cons_head ..

end

end TcbMemory

end Okl4Kernel
