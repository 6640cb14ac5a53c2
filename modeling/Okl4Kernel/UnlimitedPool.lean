import Okl4Kernel.Bitmap
import Okl4Kernel.SmallAllocInvariant

/-!
# Pools without a limit

The identifiers of blocks matter only to pools with a limit on the number of objects. Without one,
every run keeps the bitmaps right, whatever the memory of new blocks holds and in whatever order
the blocks are (`Kept.takeObject`, `Kept.free`): the objects that are handed out were free, and
`first_free` is a block with a free object.

What the order of the blocks does have an influence on is when a block goes back to the heap.
`free` keeps an unused block if it becomes `first_free`, so that there may be unused blocks. If an
object of such a block is allocated and freed again, the block is `first_free` already, and it does
go back (`Kept.free_takeObject`).
-/

namespace Okl4Kernel.SmallAlloc

open WordBitmap TransitionSystem List Option Pool List.Sublist

namespace Pool

variable {p : Pool}

/-- All objects of the block are free. -/
def Unused (p : Pool) (b : Block) : Prop := ∀ i < p.objs, bit b.bitmap i = true

instance (p : Pool) (b : Block) : Decidable (p.Unused b) := inferInstanceAs (Decidable (∀ i < _, _))

lemma capacity_of_unlimited (hmax : p.maxObjs = 0) (id : ℕ) : p.capacity id = p.objs := if_pos hmax

lemma insertBlock_split (hmax : p.maxObjs = 0) (m : BlockMemory) (rest : List Block) (next : ℕ) :
    ∃ before after id, rest = before ++ after ∧
      p.insertBlock m next rest = before ++ ⟨m.base, id, fill m.bitmap p.objs⟩ :: after := by
  induction rest generalizing next with
  | nil =>
    refine ⟨[], [], next, rfl, ?_⟩
    rw [insertBlock, lastLength_eq, capacity_of_unlimited hmax]
    rfl
  | cons current rest ih =>
    rw [insertBlock]
    split_ifs with hid
    · exact ⟨[current], rest, next, rfl, rfl⟩
    · obtain ⟨before, after, id, hsplit, hinsert⟩ := ih ((next + p.objs) % wordSpace)
      exact ⟨current :: before, after, id, by rw [hsplit]; rfl, by rw [hinsert]; rfl⟩

lemma allocateBlock_split (hmax : p.maxObjs = 0) (m : BlockMemory) :
    ∃ before after id, p.blocks = before ++ after ∧
      p.allocateBlock m = { p with
        blocks := before ++ ⟨m.base, id, fill m.bitmap p.objs⟩ :: after
        firstFree := some m.base } := by
  have hfront : p.frontLength = p.objs := by rw [frontLength_eq, capacity_of_unlimited hmax]
  unfold allocateBlock
  rw [hfront]
  rcases hblocks : p.blocks with _ | ⟨head, rest⟩
  · exact ⟨[], [], m.id, rfl, rfl⟩
  dsimp only
  split_ifs
  · exact ⟨[], head :: rest, m.id, rfl, rfl⟩
  · obtain ⟨before, after, id, hsplit, hinsert⟩ :=
      insertBlock_split hmax m rest ((head.id + p.objs) % wordSpace)
    exact ⟨head :: before, after, id, by rw [hsplit]; rfl, by rw [hinsert]; rfl⟩

lemma freeFrom_some {first base : ℕ} (hfind : p.freeFrom first = some base) :
    ∃ b ∈ p.blocks, b.base = base ∧ p.hasFree b = true := by
  obtain ⟨b, hb, hbase⟩ := map_eq_some_iff.1 hfind
  have hmem := mem_of_find?_eq_some hb
  exact ⟨b, dropWhile_sublist _ |>.mem hmem, hbase, List.find?_some hb⟩

lemma freeFromHead_some {base : ℕ} (hfind : p.freeFromHead = some base) :
    ∃ b ∈ p.blocks, b.base = base ∧ p.hasFree b = true := by
  obtain ⟨b, hb, hbase⟩ := map_eq_some_iff.1 hfind
  exact ⟨b, mem_of_find?_eq_some hb, hbase, List.find?_some hb⟩

lemma afterFree_sublist (p : Pool) (b : Block) :
    (p.afterFree b).objs = p.objs ∧ (p.afterFree b).blocks.Sublist p.blocks := by
  unfold afterFree
  rcases p.firstFree.bind p.blockAt with _ | ff
  · exact ⟨rfl, refl _⟩
  dsimp only
  split_ifs
  · exact ⟨rfl, refl _⟩
  · exact ⟨rfl, eraseP_sublist⟩
  · exact ⟨rfl, eraseP_sublist⟩
  · exact ⟨rfl, refl _⟩

/-- A block that is not seen to be unused is not given back. -/
lemma afterFree_blocks {b : Block} (hall : isAllSet b.bitmap p.objs = false) :
    (p.afterFree b).blocks = p.blocks := by
  unfold afterFree
  rcases p.firstFree.bind p.blockAt with _ | ff
  · rfl
  · simp only [hall, Bool.false_eq_true, if_false]
    split_ifs <;> rfl

/-- An unused block is given back if it is the first block with a free object. -/
lemma afterFree_blocks_first {b : Block} (hff : p.firstFree = some b.base)
    (hat : p.blockAt b.base = some b) (hall : isAllSet b.bitmap p.objs = true) :
    (p.afterFree b).blocks = p.blocks.eraseP fun c => c.base = b.base := by
  unfold afterFree
  simp only [hff, bind_some, hat, lt_irrefl, if_false, hall, if_true]
  rfl

end Pool

/-- The invariant of a pool without a limit and its clients. -/
structure Kept (s : Client) : Prop extends Stored s.pool s.live where
  /-- There is no limit. -/
  unlimited : s.pool.maxObjs = 0
  /-- `first_free` is a block with a free object. -/
  first : ∀ base, s.pool.firstFree = some base →
    ∃ b ∈ s.pool.blocks, b.base = base ∧ s.pool.hasFree b = true

namespace Kept

variable {s s' : Client}
variable {b : Block} {object : ℕ}

lemma init {objectSize : ℕ} (hsize : Suitable objectSize) : Kept (Client.init objectSize 0) :=
  ⟨(Inv.init hsize 0).toStored, rfl, nofun⟩

lemma allocateBlock (h : Kept s) {m : BlockMemory} (hgives : s.heapGives m = true) :
    Kept ⟨s.pool.allocateBlock m, s.live⟩ := by
  obtain ⟨haligned, hfits, hnew⟩ := of_decide_eq_true hgives
  obtain ⟨before, after, id, hsplit, halloc⟩ := allocateBlock_split h.unlimited m
  have hcap : s.pool.capacity id = s.pool.objs := capacity_of_unlimited h.unlimited id
  have hstored := h.insert (b := ⟨m.base, id, fill m.bitmap s.pool.objs⟩) hsplit haligned hfits
    hnew (fun i hi => by rw [bit_fill _ bitsWord_pos hi, decide_eq_true_iff, hcap]) (some m.base)
  rw [halloc]
  refine ⟨hstored, h.unlimited, ?_⟩
  rintro base ⟨⟩
  refine ⟨⟨m.base, id, fill m.bitmap s.pool.objs⟩, by simp, rfl, ?_⟩
  have hbit : bit (fill m.bitmap s.pool.objs) 0 = true := by
    rw [bit_fill _ bitsWord_pos (div_lt_numWords bitsWord_pos h.objs_pos)]
    exact decide_eq_true h.objs_pos
  exact hstored.hasFree_of_bit (by simp) h.objs_pos hbit

/-- An object is taken from a block; the blocks are those before. -/
lemma takeObject (h : Kept s) (hb : b ∈ s.pool.blocks) (hfree : s.pool.hasFree b = true) :
    Kept ⟨(s.pool.takeObject b).1, (s.pool.takeObject b).2 :: s.live⟩ ∧
      ∀ c ∈ (s.pool.takeObject b).1.blocks, c.base ∈ s.pool.blocks.map Block.base := by
  refine ⟨⟨h.toStored.takeObject hb hfree, h.unlimited, fun _ hbase =>
    freeFrom_some (p := (s.pool.takeObject b).1) hbase⟩, fun c hc => ?_⟩
  obtain ⟨before, after, hsplit⟩ := append_of_mem hb
  obtain ⟨i, -, -, -, -, hpool⟩ := h.takeObject_eq hsplit hfree
  have hmem := mem_map_of_mem (f := Block.base) hc
  rw [congrArg blocks hpool] at hmem
  rw [hsplit]
  simpa using hmem

lemma afterFree {p : Pool} {live : List ℕ} (h : Stored p live) (hmax : p.maxObjs = 0)
    (hb : b ∈ p.blocks) {j : ℕ} (hj : j < p.objs) (hset : bit b.bitmap j = true) (hfirst : ∀ base,
      p.firstFree = some base → ∃ ff ∈ p.blocks, ff.base = base ∧ p.hasFree ff = true) :
    Kept ⟨p.afterFree b, live⟩ := by
  have hfree := h.hasFree_of_bit hb hj hset
  have hbecomes : Kept ⟨{ p with firstFree := some b.base }, live⟩ := by
    refine ⟨h.withFirstFree (some b.base), hmax, ?_⟩
    rintro base ⟨⟩
    exact ⟨b, hb, rfl, hfree⟩
  unfold Pool.afterFree
  rcases hff : p.firstFree with _ | base
  · exact hbecomes
  obtain ⟨ff, hmem, rfl, hfffree⟩ := hfirst base hff
  simp only [bind_some, Pool.blockAt_of_mem h.bases hmem]
  split_ifs with hlt hall hsame
  · exact hbecomes
  · refine ⟨(h.freeBlock hb hj hset hall).withFirstFree _, hmax, fun base hbase => ?_⟩
    exact Pool.freeFromHead_some (p := p.freeBlock b.base) hbase
  · refine ⟨h.freeBlock hb hj hset hall, hmax, fun base hbase => ?_⟩
    obtain rfl := some.inj (hff.symm.trans hbase)
    exact ⟨ff, (mem_eraseP_of_neg (by simpa using hsame)).2 hmem, rfl, hfffree⟩
  · refine ⟨h, hmax, fun base hbase => ?_⟩
    obtain rfl := some.inj (hff.symm.trans hbase)
    exact ⟨ff, hmem, rfl, hfffree⟩

section

variable (h : Kept s)
include h

lemma exists_block (hlive : object ∈ s.live) :
    ∃ b ∈ s.pool.blocks, ∃ i < s.pool.objs, object = b.base + i * s.pool.objSize ∧
      s.pool.blockAt (getBlockBase object) = some b := by
  obtain ⟨b, hb, i, hi, rfl⟩ := h.mem_live object hlive
  rw [capacity_of_unlimited h.unlimited] at hi
  refine ⟨b, hb, i, hi, rfl, ?_⟩
  rw [h.getBlockBase_object (h.aligned b hb).1 hi, blockAt_of_mem h.bases hb]

lemma exists_split (hlive : object ∈ s.live) (hat : s.pool.blockAt (getBlockBase object) = some b) :
    ∃ i < s.pool.objs, i < s.pool.capacity b.id ∧ object = b.base + i * s.pool.objSize ∧
      ∃ before after, s.pool.blocks = before ++ b :: after := by
  obtain ⟨c, hc, i, hi, rfl, hat'⟩ := h.exists_block hlive
  obtain rfl := some.inj (hat'.symm.trans hat)
  exact ⟨i, hi, by rwa [capacity_of_unlimited h.unlimited], rfl, append_of_mem hc⟩

/-- An object is freed; the blocks are among those before. -/
lemma free (hlive : object ∈ s.live) (hat : s.pool.blockAt (getBlockBase object) = some b) :
    Kept ⟨s.pool.free b object, s.live.erase object⟩ ∧ (s.pool.free b object).objs = s.pool.objs ∧
      ∀ c ∈ (s.pool.free b object).blocks, c.base ∈ s.pool.blocks.map Block.base := by
  obtain ⟨i, hi, hcap, rfl, before, after, hsplit⟩ := h.exists_split hlive hat
  obtain ⟨hstored, hpool⟩ := h.freeObject hsplit hcap hlive
  rw [hpool]
  refine ⟨afterFree hstored h.unlimited (by simp) hi (by simp [bit_set _ bitsWord_pos]) ?_,
    (afterFree_sublist _ _).1, fun c hc => ?_⟩
  swap
  · have hmem := (afterFree_sublist _ _).2.map Block.base |>.mem (mem_map_of_mem hc)
    rw [hsplit]
    simpa using hmem
  intro base hff
  obtain ⟨ff, hmem, rfl, hfree⟩ := h.first base hff
  by_cases heq : ff = b
  · subst heq
    refine ⟨{ ff with bitmap := set ff.bitmap i }, by simp, rfl, ?_⟩
    refine (hstored.hasFree_iff (by simp)).2 ⟨i, hcap, ?_⟩
    exact fun hin => (h.nodup.mem_erase_iff.1 hin).1 rfl
  · refine ⟨ff, ?_, rfl, hfree⟩
    rw [hsplit, mem_append, mem_cons] at hmem
    rw [mem_append, mem_cons]
    tauto

/-! ## What `allocate` returns -/

/-- If there is a block with a free object, `allocate` does not ask for another one. -/
lemma allocate_of_first {base : ℕ} (hff : s.pool.firstFree = some base)
    (m : Option BlockMemory) : ∃ b ∈ s.pool.blocks, b.base = base ∧ s.pool.hasFree b = true ∧
      s.pool.allocate m = ((s.pool.takeObject b).1, some (s.pool.takeObject b).2) := by
  obtain ⟨b, hb, rfl, hfree⟩ := h.first base hff
  have hat := blockAt_of_mem h.bases hb
  refine ⟨b, hb, rfl, hfree, ?_⟩
  rw [allocate, if_neg fun hlimit => hlimit.1 h.unlimited]
  simp only [hff, bind_some, hat]

/-- Otherwise it takes an object of a new block. -/
lemma allocate_of_memory (hff : s.pool.firstFree = none) {m : BlockMemory} {p : Pool}
    (hgives : s.heapGives m = true) (hp : p = s.pool.allocateBlock m) : ∃ b ∈ p.blocks,
      b.base = m.base ∧ p.hasFree b = true ∧ p.Unused b ∧
      s.pool.allocate (some m) = ((p.takeObject b).1, some (p.takeObject b).2) := by
  subst hp
  obtain ⟨b, hb, hbase, hfree⟩ := (h.allocateBlock hgives).first m.base rfl
  have hat := blockAt_of_mem (h.allocateBlock hgives).bases hb
  rw [hbase] at hat
  refine ⟨b, hb, hbase, hfree, ?_, ?_⟩
  · obtain ⟨before, after, id, -, halloc⟩ := allocateBlock_split h.unlimited m
    have hmem : (⟨m.base, id, fill m.bitmap s.pool.objs⟩ : Block) ∈
        (s.pool.allocateBlock m).blocks := by simp [halloc]
    have hblock := inj_on_of_nodup_map (h.allocateBlock hgives).bases hb hmem hbase
    intro i hi
    have hlt : i < s.pool.objs := hi
    rw [hblock, bit_fill _ bitsWord_pos (div_lt_numWords bitsWord_pos hlt)]
    exact decide_eq_true hlt
  · have hfirst : (s.pool.allocateBlock m).firstFree = some m.base := rfl
    rw [allocate, if_neg fun hlimit => hlimit.1 h.unlimited]
    simp only [hff, map_some, hfirst, bind_some, hat]

lemma allocate_none (hff : s.pool.firstFree = none) : s.pool.allocate none = (s.pool, none) := by
  rw [allocate, if_neg fun hlimit => hlimit.1 h.unlimited]
  simp only [hff, map_none]

/-! ## Freeing what has just been allocated -/

lemma isAllSet_iff (hb : b ∈ s.pool.blocks) (hmod : s.pool.objs % bitsWord ≠ 0) :
    isAllSet b.bitmap s.pool.objs = true ↔ s.pool.Unused b := by
  classical
  have hrep : KernelBitmap.Represents s.pool.objs b.bitmap
      ((Finset.range s.pool.objs).filter fun i => bit b.bitmap i = true) := by
    refine ⟨fun i hi => Finset.mem_range.1 (Finset.mem_filter.1 hi).1, fun i hi => ?_⟩
    rw [Finset.mem_filter, Finset.mem_range]
    refine ⟨fun hbit => ⟨?_, hbit⟩, And.right⟩
    have hcap := ((h.bits b hb i hi).1 hbit).1
    rwa [capacity_of_unlimited h.unlimited] at hcap
  refine (hrep.bitmapIsallset_iff hmod).trans ?_
  rw [Finset.filter_eq_self]
  exact forall_congr' fun i => imp_congr_left Finset.mem_range

/-- An object is taken from a block and freed again. The block is still there, unless it had been
unused; then it has been given back. -/
lemma free_takeObject (hb : b ∈ s.pool.blocks) (hfree : s.pool.hasFree b = true)
    (htwo : 2 ≤ s.pool.objs) (hmod : s.pool.objs % bitsWord ≠ 0) :
    ∃ c, (s.pool.takeObject b).1.blockAt (Pool.getBlockBase (s.pool.takeObject b).2) = some c ∧
      c.base = b.base ∧
      ((((s.pool.takeObject b).1.free c (s.pool.takeObject b).2).blockAt b.base).isSome = true ↔
        ¬ s.pool.Unused b) := by
  obtain ⟨before, after, hsplit⟩ := append_of_mem hb
  obtain ⟨i, hi, hbit, -, hobject, hpool⟩ := h.takeObject_eq hsplit hfree
  have htaken := h.toStored.takeObject hb hfree
  set p₁ := (s.pool.takeObject b).1 with hp₁
  rw [hobject] at htaken ⊢
  set c : Block := { b with bitmap := clear b.bitmap i } with hc
  have hblocks₁ : p₁.blocks = before ++ c :: after := congrArg Pool.blocks hpool
  have hback : ({ c with bitmap := set c.bitmap i } : Block) = b := by
    rw [hc, set_clear bitsWord_pos hbit]
  have hlt : i < s.pool.objs := by rwa [Pool.capacity_of_unlimited h.unlimited] at hi
  obtain ⟨-, hfreed⟩ := htaken.freeObject (c := c) hblocks₁ hi mem_cons_self
  rw [hback, ← hsplit] at hfreed
  obtain ⟨n, hfreed⟩ : ∃ n, p₁.free c (b.base + i * s.pool.objSize) =
    Pool.afterFree { p₁ with blocks := s.pool.blocks, num := n } b := ⟨_, hfreed⟩
  have hat : p₁.blockAt c.base = some c :=
    Pool.blockAt_of_mem htaken.bases (by rw [hblocks₁]; simp)
  refine ⟨c, by rw [h.getBlockBase_object (h.aligned b hb).1 hlt]; exact hat, rfl, ?_⟩
  rw [hfreed, Pool.blockAt, List.find?_isSome]
  constructor
  · rintro ⟨d, hd, hbase⟩ hunused
    -- The block is still the first one with a free object.
    have hc₁ : c ∈ p₁.blocks := by simp [hblocks₁]
    have hfree₁ : p₁.hasFree c = true := by
      obtain ⟨j, hj, hne⟩ : ∃ j < s.pool.objs, j ≠ i := by
        by_cases hzero : i = 0
        · exact ⟨1, by omega, by omega⟩
        · exact ⟨0, by omega, fun heq => hzero heq.symm⟩
      have hbit₁ : bit c.bitmap j = true := by
        rw [hc, bit_clear _ bitsWord_pos, hunused j hj, decide_eq_false hne]
        rfl
      exact htaken.hasFree_of_bit hc₁ hj hbit₁
    have hff₁ : p₁.firstFree = some b.base := by
      have hdrop := Pool.dropWhile_base (hblocks₁ ▸ htaken.bases)
      change p₁.freeFrom c.base = _
      rw [Pool.freeFrom, hblocks₁, hdrop, List.find?_cons_of_pos hfree₁]
      rfl
    rw [Pool.afterFree_blocks_first (p := { p₁ with blocks := s.pool.blocks, num := n }) hff₁
      (Pool.blockAt_of_mem h.bases hb) ((h.isAllSet_iff hb hmod).2 hunused),
      h.toStored.eraseP_eq hsplit] at hd
    exact Pool.base_ne (hsplit ▸ h.bases) hd (by simpa using hbase)
  · intro hunused
    refine ⟨b, ?_, by simp⟩
    rw [Pool.afterFree_blocks]
    · exact hb
    · rw [← Bool.not_eq_true]
      exact fun hall => hunused ((h.isAllSet_iff hb hmod).1 hall)

end

end Kept

end Okl4Kernel.SmallAlloc
