import Okl4Kernel.SmallAlloc

/-!
# Small objects do not overlap

The blocks of a pool should be in the order of their identifiers, which should be different
multiples of the number of objects in a block. Under the conditions of `Client.Meets` this is kept
by every operation (`Inv.step`), and with it that the bitmaps say which objects are free, and that
`first_free` is the first block with a free object.

The conditions are there because `allocate_block` leaves the identifier of a block at the front of
the list as it finds it, and puts a block that fills a gap behind the block that follows the gap.
The list is then out of order, and the next block that is allocated gets the same identifier again
(`allocate_same_id`). Blocks of 64 or 96 objects are excluded (`Suitable`): `bitmap_isallset`
compares the last word of their bitmap with zero, and takes a block for unused when its last 32
objects are in use.
-/

namespace Okl4Kernel.SmallAlloc

open WordBitmap TransitionSystem List Option Pool Client

/-- An object and the header fit into a block, and `bitmap_isallset` works for blocks of that many
objects. -/
def Suitable (objSize : ℕ) : Prop :=
  0 < objSize ∧ objSize + headerSize objSize ≤ blockSize ∧
    (objsPerBlock objSize % bitsWord ≠ 0 ∨ objsPerBlock objSize = bitsWord)

instance (objSize : ℕ) : Decidable (Suitable objSize) := inferInstanceAs (Decidable (_ ∧ _))

/-! ## The layout of a block -/

lemma headerSize_le (objSize : ℕ) : headerSize objSize ≤ 520 := by
  have hdiv : blockSize / objSize ≤ blockSize := Nat.div_le_self _ _
  have hwords := numWords_mono (w := bitsWord) hdiv
  have hmax : numWords bitsWord blockSize = 128 := by decide
  rw [headerSize]
  omega

/-- The number of objects of a block, in numbers that do not wrap around: as many as fit into a
block, less those that make room for the header. -/
lemma objsPerBlock_eq {objSize : ℕ} (hpos : 0 < objSize)
    (hfit : objSize + headerSize objSize ≤ blockSize) : 0 < objsPerBlock objSize ∧
      (headerSize objSize ≤ blockSize % objSize ∧ objsPerBlock objSize = blockSize / objSize ∨
        blockSize % objSize < headerSize objSize ∧
          objsPerBlock objSize + ((headerSize objSize - blockSize % objSize) / objSize + 1) =
            blockSize / objSize) := by
  have hdm := Nat.div_add_mod' blockSize objSize
  have hq : 0 < blockSize / objSize := Nat.div_pos (by omega) hpos
  have hle : blockSize / objSize ≤ blockSize := Nat.div_le_self _ _
  have hblock : blockSize = 4096 := rfl
  have hheader := headerSize_le objSize
  unfold objsPerBlock
  dsimp only
  split_ifs with hroom
  · rw [Nat.mod_eq_of_lt (by omega)]
    exact ⟨hq, .inl ⟨hroom, rfl⟩⟩
  set d := (headerSize objSize - blockSize % objSize) / objSize with hd
  have hdle : d * objSize ≤ headerSize objSize - blockSize % objSize := Nat.div_mul_le_self _ _
  -- The header is not so large that it would leave no room for an object.
  have hlt : d + 1 < blockSize / objSize := by
    by_contra hge
    have hmul := Nat.mul_le_mul_right objSize (not_lt.1 hge)
    rw [Nat.add_mul, Nat.one_mul] at hmul
    have hone : blockSize / objSize = 1 := by
      by_contra hne
      have htwo : 2 * objSize ≤ blockSize / objSize * objSize :=
        Nat.mul_le_mul_right objSize (by omega)
      omega
    rw [hone] at hdm
    omega
  have hsmall : blockSize / objSize - (d + 1) < 2 ^ 16 := by
    have hsub : blockSize / objSize - (d + 1) ≤ 4096 := (Nat.sub_le _ _).trans hle
    omega
  exact ⟨by omega, .inr ⟨not_le.1 hroom, by omega⟩⟩

/-- The objects of a block and its header do not overlap, and there is at least one object. -/
lemma objsPerBlock_spec {objSize : ℕ} (hpos : 0 < objSize)
    (hfit : objSize + headerSize objSize ≤ blockSize) :
    0 < objsPerBlock objSize ∧ objsPerBlock objSize * objSize + headerSize objSize ≤ blockSize := by
  obtain ⟨hobjs, hcases⟩ := objsPerBlock_eq hpos hfit
  have hdm := Nat.div_add_mod' blockSize objSize
  refine ⟨hobjs, ?_⟩
  rcases hcases with ⟨hroom, heq⟩ | ⟨-, heq⟩
  · rw [heq]
    omega
  · have hlt := Nat.lt_mul_div_succ (headerSize objSize - blockSize % objSize) hpos
    rw [Nat.mul_comm] at hlt
    rw [← heq, Nat.add_mul] at hdm
    omega

namespace Pool

/-- The number of objects of a block with the given identifier. -/
def capacity (p : Pool) (id : ℕ) : ℕ := if p.maxObjs = 0 then p.objs else min p.objs (p.maxObjs - id)

/-- The identifiers of the blocks are consecutive, from zero on. -/
def Consecutive (p : Pool) : Prop :=
  p.blocks.map Block.id = (range p.blocks.length).map (· * p.objs)

instance (p : Pool) : Decidable p.Consecutive := inferInstanceAs (Decidable (_ = _))

/-- The memory for a new block is such that `allocate_block` makes a proper block of it: the list
has no gap, unless the block goes to its front; then the memory has zero for the identifier. If the
number of objects is limited, the memory of the bitmap is zero. -/
def Accepts (p : Pool) (m : BlockMemory) : Prop :=
  (p.blocks.head?.map Block.id = some 0 → p.Consecutive) ∧
    (p.blocks.head?.map Block.id ≠ some 0 → m.id = 0) ∧
    (p.maxObjs = 0 ∨ ∀ i < numWords bitsWord p.objs, m.bitmap i = 0)

instance (p : Pool) (m : BlockMemory) : Decidable (p.Accepts m) :=
  inferInstanceAs (Decidable (_ ∧ _ ∧ _))

end Pool

namespace Client

/-- The condition on the operations: when a block is allocated, its memory must be such that a
proper block is made of it. -/
def Meets (s : Client) : Op → Prop
  | .allocate (some m) => s.pool.firstFree = none → s.pool.Accepts m
  | _ => True

instance (s : Client) (op : Op) : Decidable (s.Meets op) :=
  match op with
  | .allocate (some _) => inferInstanceAs (Decidable (_ → _))
  | .allocate none => .isTrue trivial
  | .free _ => .isTrue trivial

end Client

/-- What does not change in a pool: its parameters are suitable. -/
structure Pool.Fits (p : Pool) : Prop where
  size_pos : 0 < p.objSize
  objs_pos : 0 < p.objs
  room : p.objs * p.objSize + headerSize p.objSize ≤ blockSize
  allSet : p.objs % bitsWord ≠ 0 ∨ p.objs = bitsWord

/-- The bitmaps of the blocks say which objects are free, whatever the order and the identifiers of
the blocks. -/
structure Stored (p : Pool) (live : List ℕ) : Prop extends p.Fits where
  aligned : ∀ b ∈ p.blocks, b.base % blockSize = 0 ∧ b.base + blockSize ≤ wordSpace
  bases : (p.blocks.map Block.base).Nodup
  bits : ∀ b ∈ p.blocks, ∀ i, i / bitsWord < numWords bitsWord p.objs →
    (bit b.bitmap i = true ↔ i < p.capacity b.id ∧ b.base + i * p.objSize ∉ live)
  mem_live : ∀ a ∈ live, ∃ b ∈ p.blocks, ∃ i < p.capacity b.id, a = b.base + i * p.objSize
  nodup : live.Nodup
  num : p.num = live.length

/-- The blocks are also in the order of their identifiers. -/
structure Layout (p : Pool) (live : List ℕ) : Prop extends Stored p live where
  sorted : (p.blocks.map Block.id).Pairwise (· < ·)
  ids : ∀ b ∈ p.blocks, p.objs ∣ b.id ∧ b.id + p.objs ≤ wordSpace

/-- The invariant of a pool and its clients. -/
structure Inv (s : Client) : Prop extends Layout s.pool s.live where
  first : s.pool.firstFree = s.pool.freeFromHead

namespace Pool

variable {p : Pool}
variable {base i : ℕ}

lemma capacity_le (p : Pool) (id : ℕ) : p.capacity id ≤ p.objs := by
  unfold capacity
  split_ifs
  · exact le_rfl
  · exact Nat.min_le_left _ _

lemma lt_objs {id : ℕ} (hi : i < p.capacity id) : i < p.objs := hi.trans_le (p.capacity_le id)

lemma index_mul_le (p : Pool) {n : ℕ} (hi : i < n) : i * p.objSize + p.objSize ≤ n * p.objSize := by
  have := Nat.mul_le_mul_right p.objSize (Nat.succ_le_of_lt hi)
  rwa [Nat.succ_eq_add_one, Nat.add_mul, Nat.one_mul] at this

lemma Fits.getBlockBase_object (h : p.Fits) (hbase : base % blockSize = 0) (hi : i < p.objs) :
    getBlockBase (base + i * p.objSize) = base := by
  have hroom := h.room
  have hmul := p.index_mul_le hi
  have hsize := h.size_pos
  have hlt : i * p.objSize < blockSize := by omega
  rw [getBlockBase, Nat.add_mod, hbase, Nat.zero_add, Nat.mod_mod, Nat.mod_eq_of_lt hlt]
  omega

lemma Fits.index_object (h : p.Fits) (hbase : base % blockSize = 0) (hi : i < p.objs) :
    p.index (base + i * p.objSize) = i := by
  rw [index, h.getBlockBase_object hbase hi, Nat.add_sub_cancel_left,
    Nat.mul_div_cancel _ h.size_pos]

/-- An object of a block of the pool is not beyond the address space. -/
lemma Fits.getObject_eq (h : p.Fits) (hbase : base + blockSize ≤ wordSpace) (hi : i < p.objs) :
    p.getObject base i = base + i * p.objSize := by
  have hroom := h.room
  have hmul := p.index_mul_le hi
  have hsize := h.size_pos
  rw [getObject, Nat.mod_eq_of_lt (by omega)]

/-- A block that is marked as unused by `bitmap_isallset` after one of its bits was set has all its
bits set. -/
lemma Fits.bit_of_isAllSet (h : p.Fits) {words : ℕ → BitVec bitsWord} {j : ℕ} (hj : j < p.objs)
    (hbit : bit words j = true) (hall : isAllSet words p.objs = true) (hi : i < p.objs) :
    bit words i = true := by
  obtain ⟨hfull, hlast⟩ := of_decide_eq_true hall
  have hw := bitsWord_pos
  have hiw := div_lt_numWords hw hi
  rcases h.allSet with hmod | h32
  · by_cases hend : i / bitsWord = numWords bitsWord p.objs - 1
    · rw [bit, hend, hlast, getLsbD_lowBits (Nat.mod_lt _ hw), decide_eq_true_iff]
      -- The word of `i` is the last one, so `i` has the same quotient as the last number.
      have hlen := Nat.div_add_mod' p.objs bitsWord
      have hidm := Nat.div_add_mod' i bitsWord
      have hnum := numWords_of_mod_ne hw hmod
      have hquot : i / bitsWord = p.objs / bitsWord := by omega
      rw [hquot] at hidm
      omega
    · rw [bit, hfull _ (by omega), BitVec.getLsbD_allOnes, decide_eq_true_iff]
      exact Nat.mod_lt _ hw
  · -- A single full word is compared with zero, but a bit has just been set.
    have hzero : words 0 = 0 := by
      rw [h32] at hlast
      exact hlast
    rw [h32] at hj
    rw [bit, Nat.div_eq_of_lt hj, hzero] at hbit
    simp at hbit

lemma blockAt_of_mem (hbases : (p.blocks.map Block.base).Nodup) {b : Block} (hb : b ∈ p.blocks) :
    p.blockAt b.base = some b := by
  obtain ⟨c, hc⟩ : ∃ c, p.blockAt b.base = some c :=
    isSome_iff_exists.1 (find?_isSome.2 ⟨b, hb, by simp⟩)
  have hmem : c ∈ p.blocks := mem_of_find?_eq_some hc
  have hbase : c.base = b.base := by simpa using find?_some hc
  rw [hc, inj_on_of_nodup_map hbases hmem hb hbase]

section

variable {before after : List Block} {b c : Block}
variable (hbases : ((before ++ b :: after).map Block.base).Nodup)
include hbases

lemma base_ne (hc : c ∈ before ++ after) : c.base ≠ b.base := by
  rw [map_append, map_cons, nodup_middle, ← map_append] at hbases
  exact fun heq => hbases.notMem (heq ▸ mem_map_of_mem hc)

lemma dropWhile_base :
    (before ++ b :: after).dropWhile (fun c => c.base ≠ b.base) = b :: after := by
  rw [dropWhile_append_of_pos]
  · simp
  · intro c hc
    simpa using base_ne hbases (mem_append_left _ hc)

end

/-- The number of objects in use has no influence on what happens to a block. -/
lemma afterFree_num (p : Pool) (b : Block) (n : ℕ) :
    { p.afterFree b with num := n } = afterFree { p with num := n } b := by
  have hff : ({ p with num := n } : Pool).firstFree.bind { p with num := n }.blockAt =
      p.firstFree.bind p.blockAt := rfl
  have hobjs : ({ p with num := n } : Pool).objs = p.objs := rfl
  unfold afterFree
  rw [hff, hobjs]
  rcases p.firstFree.bind p.blockAt with _ | ff
  · rfl
  · dsimp only
    split_ifs <;> rfl

end Pool

namespace Stored

variable {p : Pool} {live : List ℕ}
variable {b c : Block} {after before : List Block}

section

variable (h : Stored p live)
include h

lemma hasFree_iff (hb : b ∈ p.blocks) :
    p.hasFree b = true ↔ ∃ i < p.capacity b.id, b.base + i * p.objSize ∉ live := by
  rw [hasFree, isSome_iff_exists]
  constructor
  · rintro ⟨i, hi⟩
    obtain ⟨hbit, hword⟩ := findFirstSet_some hi
    exact ⟨i, (h.bits b hb i hword).1 hbit⟩
  · rintro ⟨i, hi⟩
    by_contra hnone
    have hfind : findFirstSet b.bitmap p.objs = none := by
      simpa [eq_none_iff_forall_ne_some] using hnone
    have hword := div_lt_numWords bitsWord_pos (lt_objs hi.1)
    simpa [findFirstSet_none hfind hword] using (h.bits b hb i hword).2 hi

lemma hasFree_of_bit (hb : b ∈ p.blocks) {i : ℕ} (hi : i < p.objs) (hbit : bit b.bitmap i = true) :
    p.hasFree b = true :=
  (h.hasFree_iff hb).2 ⟨i, (h.bits b hb i (div_lt_numWords bitsWord_pos hi)).1 hbit⟩

lemma object_inj (hb : b ∈ p.blocks) (hc : c ∈ p.blocks) {i j : ℕ}
    (hi : i < p.objs) (hj : j < p.objs) (heq : b.base + i * p.objSize = c.base + j * p.objSize) :
    b = c ∧ i = j := by
  have hbase : b.base = c.base := by
    rw [← h.getBlockBase_object (h.aligned b hb).1 hi, heq,
      h.getBlockBase_object (h.aligned c hc).1 hj]
  have hblock := inj_on_of_nodup_map h.bases hb hc hbase
  refine ⟨hblock, ?_⟩
  rw [← h.index_object (h.aligned b hb).1 hi, heq, h.index_object (h.aligned c hc).1 hj]

/-! ## Blocks that come and go -/

/-- Nothing but the search for free objects depends on `first_free`. -/
lemma withFirstFree (ff : Option ℕ) : Stored { p with firstFree := ff } live :=
  { h with }

lemma eraseP_eq (hsplit : p.blocks = before ++ b :: after) :
    p.blocks.eraseP (fun c => c.base = b.base) = before ++ after := by
  have hbases := h.bases
  rw [hsplit] at hbases
  rw [hsplit, eraseP_append_right, eraseP_cons_of_pos (by simp)]
  intro c hc
  simpa using base_ne hbases (mem_append_left _ hc)

/-- `free_block` may give back a block when `bitmap_isallset` says so. -/
lemma freeBlock (hb : b ∈ p.blocks) {j : ℕ} (hj : j < p.objs)
    (hset : bit b.bitmap j = true) (hall : Pool.isAllSet b.bitmap p.objs = true) :
    Stored (p.freeBlock b.base) live := by
  obtain ⟨before, after, hsplit⟩ := append_of_mem hb
  rw [Pool.freeBlock, h.eraseP_eq hsplit]
  have hsub : List.Sublist (before ++ after) p.blocks := by
    rw [hsplit]
    exact (sublist_cons_self b after).append_left before
  refine ⟨{ h with }, fun c hc => h.aligned c (hsub.mem hc), h.bases.sublist (hsub.map _),
    fun c hc => h.bits c (hsub.mem hc), fun a ha => ?_, h.nodup, h.num⟩
  obtain ⟨c, hc, i, hi, rfl⟩ := h.mem_live a ha
  refine ⟨c, ?_, i, hi, rfl⟩
  rw [hsplit, mem_append, mem_cons] at hc
  rcases hc with hc | rfl | hc
  · exact mem_append_left _ hc
  · -- The objects of the block are all free.
    have hlt := Pool.lt_objs hi
    have hbit := h.bit_of_isAllSet hj hset hall hlt
    exact absurd ha ((h.bits c hb i (div_lt_numWords bitsWord_pos hlt)).1 hbit).2
  · exact mem_append_right _ hc

/-- A new block, all of whose objects are free, can be put into the list. -/
lemma insert (hsplit : p.blocks = before ++ after)
    (haligned : b.base % blockSize = 0) (hfits : b.base + blockSize ≤ wordSpace)
    (hnew : b.base ∉ p.blocks.map Block.base) (hbits : ∀ i, i / bitsWord < numWords bitsWord p.objs
      → (bit b.bitmap i = true ↔ i < p.capacity b.id)) (ff : Option ℕ) :
    Stored { p with blocks := before ++ b :: after, firstFree := ff } live := by
  have hperm : List.Perm (before ++ b :: after) (b :: p.blocks) := by
    rw [hsplit]
    exact perm_middle
  refine ⟨{ h with }, ?_, ?_, ?_, ?_, h.nodup, h.num⟩
  · simp only [hperm.mem_iff, forall_mem_cons]
    exact ⟨⟨haligned, hfits⟩, h.aligned⟩
  · rw [(hperm.map _).nodup_iff, map_cons, nodup_cons]
    exact ⟨hnew, h.bases⟩
  · simp only [hperm.mem_iff, forall_mem_cons]
    refine ⟨fun i hi => ?_, h.bits⟩
    refine (hbits i hi).trans ⟨fun hcap => ⟨hcap, fun hlive => ?_⟩, And.left⟩
    -- An object in use is in one of the old blocks, which are elsewhere.
    obtain ⟨d, hd, j, hj, heq⟩ := h.mem_live _ hlive
    apply hnew
    rw [← h.getBlockBase_object haligned (lt_objs hcap), heq,
      h.getBlockBase_object (h.aligned d hd).1 (lt_objs hj)]
    exact mem_map_of_mem hd
  · intro a ha
    obtain ⟨c, hc, hobj⟩ := h.mem_live a ha
    exact ⟨c, hperm.mem_iff.2 (mem_cons_of_mem _ hc), hobj⟩

end

/-! ## Marking an object -/

lemma modifyBlock_blocks (hbases : (p.blocks.map Block.base).Nodup)
    (hsplit : p.blocks = before ++ b :: after) (f : Block → Block) :
    (p.modifyBlock b.base f).blocks = before ++ f b :: after := by
  rw [hsplit] at hbases
  simp only [modifyBlock, hsplit, map_append, map_cons, if_true]
  congr 1
  · refine (map_congr_left fun c hc => ?_).trans (map_id _)
    exact if_neg (base_ne hbases (mem_append_left _ hc))
  · congr 1
    refine (map_congr_left fun c hc => ?_).trans (map_id _)
    exact if_neg (base_ne hbases (mem_append_right _ hc))

section

variable (h : Stored p live)
include h

/-- The objects of a block have changed hands, and its bitmap says so. -/
lemma mark (hsplit : p.blocks = before ++ b :: after)
    (words : ℕ → BitVec bitsWord) {live' : List ℕ} (hbits : ∀ i, i / bitsWord < numWords bitsWord
      p.objs → (bit words i = true ↔ i < p.capacity b.id ∧ b.base + i * p.objSize ∉ live'))
    (hothers : ∀ a, (∀ i < p.capacity b.id, a ≠ b.base + i * p.objSize) → (a ∈ live' ↔ a ∈ live))
    (hnodup : live'.Nodup) (ff : Option ℕ) : Stored { p with
      blocks := before ++ { b with bitmap := words } :: after
      firstFree := ff
      num := live'.length } live' := by
  have hb : b ∈ p.blocks := by simp [hsplit]
  -- A block other than `b` is a block of the pool, and its objects are not those of `b`.
  have hother : ∀ c ∈ before ++ after, c ∈ p.blocks ∧ c ≠ b := by
    intro c hc
    have hbases := h.bases
    rw [hsplit] at hbases
    refine ⟨?_, ne_of_apply_ne Block.base (base_ne hbases hc)⟩
    rw [hsplit]
    exact perm_middle.mem_iff.2 (mem_cons_of_mem b hc)
  have hbases : (before ++ { b with bitmap := words } :: after).map Block.base =
      p.blocks.map Block.base := by simp [hsplit]
  refine ⟨{ h with }, ?_, hbases ▸ h.bases, ?_, ?_, hnodup, rfl⟩
  · simp only [perm_middle.mem_iff, forall_mem_cons]
    exact ⟨h.aligned b hb, fun c hc => h.aligned c (hother c hc).1⟩
  · simp only [perm_middle.mem_iff, forall_mem_cons]
    refine ⟨hbits, fun c hc i hi => ?_⟩
    obtain ⟨hmem, hne⟩ := hother c hc
    refine (h.bits c hmem i hi).trans (and_congr_right fun hcap => not_congr ?_)
    refine (hothers _ fun j hj heq => ?_).symm
    exact hne (h.object_inj hmem hb (lt_objs hcap) (lt_objs hj) heq).1
  · intro a ha
    by_cases hin : ∃ i < p.capacity b.id, a = b.base + i * p.objSize
    · exact ⟨{ b with bitmap := words }, by simp, hin⟩
    push Not at hin
    obtain ⟨c, hc, i, hi, rfl⟩ := h.mem_live a ((hothers a hin).1 ha)
    by_cases hcb : c = b
    · subst hcb
      exact absurd rfl (hin i hi)
    · rw [hsplit, perm_middle.mem_iff, mem_cons, or_iff_right hcb] at hc
      exact ⟨c, perm_middle.mem_iff.2 (mem_cons_of_mem _ hc), i, hi, rfl⟩

lemma takeObject_eq (hsplit : p.blocks = before ++ b :: after) (hfree : p.hasFree b = true) :
    ∃ i < p.capacity b.id, bit b.bitmap i = true ∧ b.base + i * p.objSize ∉ live ∧
      (p.takeObject b).2 = b.base + i * p.objSize ∧
      (p.takeObject b).1 = { p with
        blocks := before ++ { b with bitmap := clear b.bitmap i } :: after
        firstFree := (p.takeObject b).1.firstFree
        num := p.num + 1 } := by
  have hb : b ∈ p.blocks := by simp [hsplit]
  obtain ⟨i, hi⟩ := isSome_iff_exists.1 hfree
  obtain ⟨hbit, hword⟩ := findFirstSet_some hi
  obtain ⟨hcap, hnotin⟩ := (h.bits b hb i hword).1 hbit
  have hlt := lt_objs hcap
  have hblocks := modifyBlock_blocks h.bases hsplit fun b => { b with bitmap := clear b.bitmap i }
  refine ⟨i, hcap, hbit, hnotin, ?_, ?_⟩
  · simp only [takeObject, hi, getD_some]
    exact h.getObject_eq (h.aligned b hb).2 hlt
  · simp only [takeObject, hi, getD_some]
    rw [← hblocks]
    rfl

lemma takeObject (hb : b ∈ p.blocks) (hfree : p.hasFree b = true) :
    Stored (p.takeObject b).1 ((p.takeObject b).2 :: live) := by
  obtain ⟨before, after, hsplit⟩ := append_of_mem hb
  obtain ⟨i, hcap, -, hnotin, hobject, hpool⟩ := h.takeObject_eq hsplit hfree
  have hlt := lt_objs hcap
  rw [hpool, hobject, h.num, ← length_cons (a := b.base + i * p.objSize)]
  refine h.mark hsplit (clear b.bitmap i) ?_ ?_ (nodup_cons.2 ⟨hnotin, h.nodup⟩) _
  · intro j hj
    rw [bit_clear _ bitsWord_pos, Bool.and_eq_true, h.bits b hb j hj, mem_cons]
    constructor
    · rintro ⟨⟨hjcap, hjnot⟩, hne⟩
      have hne : j ≠ i := by simpa using hne
      refine ⟨hjcap, fun hor => hor.elim (fun heq => hne ?_) hjnot⟩
      exact (h.object_inj hb hb (lt_objs hjcap) hlt heq).2
    · rintro ⟨hjcap, hnot⟩
      refine ⟨⟨hjcap, fun hin => hnot (.inr hin)⟩, ?_⟩
      have hne : j ≠ i := fun heq => hnot (.inl (by rw [heq]))
      simpa using hne
  · intro a ha
    rw [mem_cons, or_iff_right]
    exact ha i hcap

/-- An object is marked as free, before it is decided what to do with its block. -/
lemma freeObject (hsplit : p.blocks = before ++ c :: after) {i : ℕ}
    (hi : i < p.capacity c.id) (hlive : c.base + i * p.objSize ∈ live) : Stored { p with
      blocks := before ++ { c with bitmap := set c.bitmap i } :: after
      num := (live.erase (c.base + i * p.objSize)).length } (live.erase (c.base + i * p.objSize)) ∧
    p.free c (c.base + i * p.objSize) = afterFree { p with
      blocks := before ++ { c with bitmap := set c.bitmap i } :: after
      num := (live.erase (c.base + i * p.objSize)).length }
      { c with bitmap := set c.bitmap i } := by
  have hc : c ∈ p.blocks := by simp [hsplit]
  have hlt := lt_objs hi
  refine ⟨h.mark hsplit (set c.bitmap i) ?_ ?_ (h.nodup.erase _) p.firstFree, ?_⟩
  · intro j hj
    rw [bit_set _ bitsWord_pos, Bool.or_eq_true, h.bits c hc j hj, h.nodup.mem_erase_iff,
      decide_eq_true_iff]
    constructor
    · rintro (⟨hcap, hnot⟩ | rfl)
      · exact ⟨hcap, fun hin => hnot hin.2⟩
      · exact ⟨hi, fun hin => hin.1 rfl⟩
    · rintro ⟨hcap, hnot⟩
      by_cases hin : c.base + j * p.objSize ∈ live
      · right
        have heq := not_and'.1 hnot hin
        exact (h.object_inj hc hc (lt_objs hcap) hlt (not_not.1 heq)).2
      · exact .inl ⟨hcap, hin⟩
  · intro a ha
    rw [h.nodup.mem_erase_iff, and_iff_right (ha i hi)]
  have hindex := h.index_object (h.aligned c hc).1 hlt
  have hblocks := modifyBlock_blocks h.bases hsplit fun _ => { c with bitmap := set c.bitmap i }
  have hlength : p.num - 1 = (live.erase (c.base + i * p.objSize)).length := by
    rw [length_erase_of_mem hlive, h.num]
  rw [free, hindex, afterFree_num, ← hlength, ← hblocks]
  rfl

end

end Stored

namespace Layout

variable {p : Pool} {live : List ℕ}
variable {b : Block}

section

variable (h : Layout p live)
include h

/-- The blocks are in order as long as their identifiers do not change. -/
lemma of_ids {p' : Pool} {live' : List ℕ} (hstored : Stored p' live')
    (hobjs : p'.objs = p.objs) (hids : p'.blocks.map Block.id = p.blocks.map Block.id) :
    Layout p' live' := by
  refine ⟨hstored, hids ▸ h.sorted, fun c hc => ?_⟩
  have hmem : c.id ∈ p.blocks.map Block.id := hids ▸ mem_map_of_mem hc
  obtain ⟨d, hd, hid⟩ := mem_map.1 hmem
  rw [hobjs, ← hid]
  exact h.ids d hd

lemma id_inj {c : Block} (hb : b ∈ p.blocks) (hc : c ∈ p.blocks) (hid : b.id = c.id) : b = c :=
  inj_on_of_nodup_map (h.sorted.imp fun hlt => Nat.ne_of_lt hlt) hb hc hid

/-- What is known of the block that `first_free` points to. -/
lemma of_freeFromHead {base : ℕ} (hfirst : p.freeFromHead = some base) :
    ∃ b ∈ p.blocks, b.base = base ∧ p.hasFree b = true ∧
      ∀ c ∈ p.blocks, p.hasFree c = true → b.id ≤ c.id := by
  obtain ⟨b, hb, hbase⟩ := map_eq_some_iff.1 hfirst
  refine ⟨b, mem_of_find?_eq_some hb, hbase, find?_some hb, fun c hc hfree => ?_⟩
  obtain ⟨-, before, after, hsplit, hbefore⟩ := find?_eq_some_iff_append.1 hb
  have hsorted := pairwise_map.1 h.sorted
  rw [hsplit] at hsorted
  rw [hsplit, mem_append, mem_cons] at hc
  rcases hc with hc | rfl | hc
  · simpa [hfree] using hbefore c hc
  · exact le_rfl
  · exact ((pairwise_cons.1 (pairwise_append.1 hsorted).2.1).1 c hc).le

/-- The first block with a free object is the one with the lowest identifier. -/
lemma freeFromHead_eq (hb : b ∈ p.blocks) (hfree : p.hasFree b = true)
    (hmin : ∀ c ∈ p.blocks, p.hasFree c = true → b.id ≤ c.id) : p.freeFromHead = some b.base := by
  obtain ⟨c, hfind⟩ := isSome_iff_exists.1 (find?_isSome.2 ⟨b, hb, hfree⟩)
  have hfirst : p.freeFromHead = some c.base := congrArg (Option.map Block.base) hfind
  obtain ⟨d, hd, hbase, hdfree, hle⟩ := h.of_freeFromHead hfirst
  rw [hfirst, h.id_inj hb hd (le_antisymm (hmin d hd hdfree) (hle b hb hfree)), hbase]

lemma id_object (hb : b ∈ p.blocks) {i : ℕ} (hi : i < p.objs) :
    p.id (b.base + i * p.objSize) = some (i + b.id) := by
  have hbound := (h.ids b hb).2
  rw [Pool.id, h.getBlockBase_object (h.aligned b hb).1 hi, Pool.blockAt_of_mem h.bases hb,
    map_some, h.index_object (h.aligned b hb).1 hi, Nat.mod_eq_of_lt (by omega)]

/-- Objects with the same identifier are in the same block, at the same place. -/
lemma object_id_inj {c : Block} (hb : b ∈ p.blocks) (hc : c ∈ p.blocks)
    {i j : ℕ} (hi : i < p.objs) (hj : j < p.objs)
    (hid : p.id (b.base + i * p.objSize) = p.id (c.base + j * p.objSize)) : b = c ∧ i = j := by
  rw [h.id_object hb hi, h.id_object hc hj] at hid
  have hsum : i + b.id = j + c.id := Option.some.inj hid
  -- The identifiers of blocks are multiples of the number of objects.
  have hmod : i = j := by
    have hmod := congrArg (· % p.objs) hsum
    simpa [Nat.add_mod, Nat.mod_eq_zero_of_dvd (h.ids b hb).1,
      Nat.mod_eq_zero_of_dvd (h.ids c hc).1, Nat.mod_eq_of_lt hi, Nat.mod_eq_of_lt hj] using hmod
  exact ⟨h.id_inj hb hc (by omega), hmod⟩

/-- Nothing but the search for free objects depends on `first_free`. -/
lemma withFirstFree (ff : Option ℕ) : Layout { p with firstFree := ff } live :=
  ⟨h.toStored.withFirstFree ff, h.sorted, h.ids⟩

/-- `free_block` may give back a block when `bitmap_isallset` says so. -/
lemma freeBlock (hb : b ∈ p.blocks) {j : ℕ} (hj : j < p.objs)
    (hset : bit b.bitmap j = true) (hall : isAllSet b.bitmap p.objs = true) :
    Layout (p.freeBlock b.base) live := by
  have hsub : List.Sublist (p.freeBlock b.base).blocks p.blocks := eraseP_sublist
  exact ⟨h.toStored.freeBlock hb hj hset hall, h.sorted.sublist (hsub.map _),
    fun c hc => h.ids c (hsub.mem hc)⟩

end

end Layout

namespace Pool

variable {p : Pool}

lemma frontLength_eq (p : Pool) : p.frontLength = p.capacity 0 := by
  unfold frontLength capacity
  split_ifs <;> omega

lemma lastLength_eq (p : Pool) (id : ℕ) : p.lastLength id = p.capacity id := by
  unfold lastLength capacity
  split_ifs <;> omega

/-- The bitmap of a new block says that all its objects are free. -/
lemma bit_fill_capacity {m : BlockMemory}
    (hzero : p.maxObjs = 0 ∨ ∀ i < numWords bitsWord p.objs, m.bitmap i = 0) (id : ℕ) {i : ℕ}
    (hi : i / bitsWord < numWords bitsWord p.objs) :
    bit (fill m.bitmap (p.capacity id)) i = true ↔ i < p.capacity id := by
  by_cases hword : i / bitsWord < numWords bitsWord (p.capacity id)
  · rw [bit_fill _ bitsWord_pos hword, decide_eq_true_iff]
  -- The word is not written, but then the memory was zero.
  have hge : ¬ i < p.capacity id := fun hlt => hword (div_lt_numWords bitsWord_pos hlt)
  rcases hzero with hmax | hzero
  · rw [capacity, if_pos hmax] at hword
    exact absurd hi hword
  · simp [bit, fill, hword, hzero _ hi, hge]

/-- Behind blocks with consecutive identifiers, a new block goes to the end of the list. -/
lemma insertBlock_eq (m : BlockMemory) {rest : List Block} {next : ℕ}
    (hids : rest.map Block.id = (List.range rest.length).map (next + · * p.objs))
    (hbound : next + rest.length * p.objs < wordSpace) :
    p.insertBlock m next rest = rest ++ [⟨m.base, next + rest.length * p.objs,
      fill m.bitmap (p.capacity (next + rest.length * p.objs))⟩] := by
  induction rest generalizing next with
  | nil => simp [insertBlock, lastLength_eq]
  | cons current rest ih =>
    rw [length_cons, range_succ_eq_map, map_cons, map_cons, List.map_map] at hids
    obtain ⟨hhead, htail⟩ := List.cons.inj hids
    rw [Nat.zero_mul, Nat.add_zero] at hhead
    have hsum : next + (rest.length + 1) * p.objs = next + p.objs + rest.length * p.objs := by
      rw [Nat.add_mul]
      omega
    rw [length_cons, hsum] at hbound
    have hmod : (next + p.objs) % wordSpace = next + p.objs := Nat.mod_eq_of_lt (by omega)
    rw [insertBlock, if_neg (not_not.2 hhead), hmod, ih _ hbound, length_cons, hsum, cons_append]
    refine htail.trans (map_congr_left fun j _ => ?_)
    simp only [Function.comp_apply, Nat.succ_eq_add_one, Nat.add_mul]
    omega

end Pool

namespace Layout

variable {p : Pool} {live : List ℕ}

lemma length_le (h : Layout p live) {base : ℕ} (haligned : base % blockSize = 0)
    (hfits : base + blockSize ≤ wordSpace) (hnew : base ∉ p.blocks.map Block.base) :
    p.blocks.length + 1 ≤ wordSpace / blockSize := by
  set bases := base :: p.blocks.map Block.base
  have hall : ∀ x ∈ bases, x % blockSize = 0 ∧ x + blockSize ≤ wordSpace :=
    forall_mem_cons.2 ⟨⟨haligned, hfits⟩, forall_mem_map.2 h.aligned⟩
  have hmaps : Set.MapsTo (· / blockSize) bases.toFinset (Finset.range (wordSpace / blockSize)) := by
    intro x hx
    have hbound := (hall x (by simpa using hx)).2
    simp only [Finset.coe_range, Set.mem_Iio, blockSize, wordSpace] at hbound ⊢
    omega
  have hinj : Set.InjOn (· / blockSize) (bases.toFinset : Set ℕ) := by
    intro x hx y hy heq
    dsimp only at heq
    rw [← Nat.div_add_mod' x blockSize, ← Nat.div_add_mod' y blockSize,
      (hall x (by simpa using hx)).1, (hall y (by simpa using hy)).1, heq]
  have hcard := Finset.card_le_card_of_injOn _ hmaps hinj
  rwa [toFinset_card_of_nodup (nodup_cons.2 ⟨hnew, h.bases⟩), Finset.card_range, length_cons,
    length_map] at hcard

/-- If all objects of consecutive blocks are in use, a limited pool has room for another block. -/
lemma lt_maxObjs (h : Layout p live) (hids : p.Consecutive)
    (hfull : ∀ b ∈ p.blocks, p.hasFree b = false) (hmax : p.maxObjs ≠ 0)
    (hnum : p.num < p.maxObjs) : p.blocks.length * p.objs < p.maxObjs := by
  by_contra hle
  push Not at hle
  have hlookup : ∀ j < p.maxObjs, ∃ b ∈ p.blocks, b.id = j / p.objs * p.objs := by
    intro j hj
    have hq : j / p.objs < p.blocks.length :=
      (Nat.div_lt_iff_lt_mul h.objs_pos).2 (hj.trans_le hle)
    have hmem : j / p.objs * p.objs ∈ p.blocks.map Block.id := by
      rw [hids]
      exact mem_map.2 ⟨_, mem_range.2 hq, rfl⟩
    obtain ⟨b, hb, hid⟩ := mem_map.1 hmem
    exact ⟨b, hb, hid⟩
  have : Nonempty Block := ⟨⟨0, 0, fun _ => 0⟩⟩
  choose! block hmem hid using hlookup
  -- Each number below the limit is the identifier of an object that is in use.
  have hlt : ∀ j < p.maxObjs, j % p.objs < p.capacity (block j).id := by
    intro j hj
    have hdm := Nat.div_add_mod' j p.objs
    have hmod := Nat.mod_lt j h.objs_pos
    rw [capacity, if_neg hmax, hid j hj]
    omega
  have hmaps : Set.MapsTo (fun j => (block j).base + j % p.objs * p.objSize)
      (Finset.range p.maxObjs) live.toFinset := by
    intro j hj
    have hj := Finset.mem_range.1 hj
    by_contra hnot
    have hfree := (h.hasFree_iff (hmem j hj)).2 ⟨_, hlt j hj, by simpa using hnot⟩
    rw [hfull _ (hmem j hj)] at hfree
    exact Bool.false_ne_true hfree
  have hinj : Set.InjOn (fun j => (block j).base + j % p.objs * p.objSize)
      (Finset.range p.maxObjs) := by
    intro j hj k hk heq
    have hj := Finset.mem_range.1 hj
    have hk := Finset.mem_range.1 hk
    obtain ⟨hblock, hmod⟩ := h.object_inj (hmem j hj) (hmem k hk)
      (Nat.mod_lt _ h.objs_pos) (Nat.mod_lt _ h.objs_pos) heq
    rw [← Nat.div_add_mod' j p.objs, ← Nat.div_add_mod' k p.objs, ← hid j hj, ← hid k hk, hblock,
      hmod]
  have hcard := Finset.card_le_card_of_injOn _ hmaps hinj
  rw [Finset.card_range, toFinset_card_of_nodup h.nodup, ← h.num] at hcard
  omega

end Layout

namespace Inv

variable {s : Client}
variable {s' : Client}

lemma full (h : Inv s) (hnone : s.pool.firstFree = none) : ∀ b ∈ s.pool.blocks,
    s.pool.hasFree b = false := by
  have hfind := map_eq_none_iff.1 (h.first.symm.trans hnone)
  intro b hb
  simpa using find?_eq_none.1 hfind b hb

/-- A block has been added where its identifier belongs; all others are full. -/
lemma insertBlock (h : Inv s) (hnone : s.pool.firstFree = none) {m : BlockMemory}
    (hgives : s.heapGives m = true) {before after : List Block} {id : ℕ}
    (hzero : s.pool.maxObjs = 0 ∨ ∀ i < numWords bitsWord s.pool.objs, m.bitmap i = 0)
    (hsplit : s.pool.blocks = before ++ after) (hbefore : ∀ c ∈ before, c.id < id)
    (hafter : ∀ c ∈ after, id < c.id) (hdvd : s.pool.objs ∣ id) (hid : id + s.pool.objs ≤ wordSpace)
    (hroom : s.pool.maxObjs = 0 ∨ id < s.pool.maxObjs) : Inv ⟨{ s.pool with
      blocks := before ++ ⟨m.base, id, fill m.bitmap (s.pool.capacity id)⟩ :: after
      firstFree := some m.base }, s.live⟩ := by
  obtain ⟨haligned, hfits, hnew⟩ := of_decide_eq_true hgives
  set b : Block := ⟨m.base, id, fill m.bitmap (s.pool.capacity id)⟩ with hb
  have hlayout : Layout { s.pool with
      blocks := before ++ b :: after, firstFree := some m.base } s.live := by
    have hsorted := pairwise_map.1 h.sorted
    rw [hsplit, pairwise_append] at hsorted
    obtain ⟨hfirst, hsecond, hcross⟩ := hsorted
    refine ⟨h.insert hsplit haligned hfits hnew (fun i hi =>
      bit_fill_capacity hzero id hi) (some m.base), pairwise_map.2 ?_, ?_⟩
    · rw [pairwise_append, pairwise_cons]
      exact ⟨hfirst, ⟨hafter, hsecond⟩, fun c hc => forall_mem_cons.2 ⟨hbefore c hc, hcross c hc⟩⟩
    · simp only [perm_middle.mem_iff, forall_mem_cons]
      exact ⟨⟨hdvd, hid⟩, hsplit ▸ h.ids⟩
  refine ⟨hlayout, (hlayout.freeFromHead_eq (b := b) (by simp) ?_ ?_).symm⟩
  · have hcap : 0 < s.pool.capacity id := by
      unfold capacity
      have hpos := h.objs_pos
      split_ifs <;> omega
    have hword := div_lt_numWords bitsWord_pos h.objs_pos
    exact hlayout.hasFree_of_bit (by simp) h.objs_pos ((bit_fill_capacity hzero id hword).2 hcap)
  · intro c hc hfree
    rcases mem_append.1 hc with hc | hc
    · exact absurd hfree (by
        simpa [hasFree, objs] using h.full hnone c (by simp [hsplit, hc]))
    · rcases mem_cons.1 hc with rfl | hc
      · exact le_rfl
      · exact (hafter c hc).le

lemma allocateBlock (h : Inv s) (hnone : s.pool.firstFree = none)
    (hlimit : ¬ (s.pool.maxObjs ≠ 0 ∧ s.pool.maxObjs ≤ s.pool.num)) {m : BlockMemory}
    (hgives : s.heapGives m = true) (haccepts : s.pool.Accepts m) :
    Inv ⟨s.pool.allocateBlock m, s.live⟩ := by
  obtain ⟨hconsec, hfront, hzero⟩ := haccepts
  obtain ⟨haligned, hfits, hnew⟩ := of_decide_eq_true hgives
  have hobjs : s.pool.objs ≤ blockSize := by
    have hmul := Nat.le_mul_of_pos_right s.pool.objs h.size_pos
    have hroom := h.room
    omega
  have hfits0 : 0 + s.pool.objs ≤ wordSpace := by
    omega
  have hroom0 : s.pool.maxObjs = 0 ∨ 0 < s.pool.maxObjs := by omega
  unfold Pool.allocateBlock
  rw [Pool.frontLength_eq]
  rcases hblocks : s.pool.blocks with _ | ⟨head, rest⟩
  · rw [hfront (by simp [hblocks])]
    have hsplit : s.pool.blocks = [] ++ [] := hblocks
    exact h.insertBlock hnone hgives hzero hsplit (by simp) (by simp) (Nat.dvd_zero _) hfits0 hroom0
  · dsimp only
    split_ifs with hhead
    · rw [hfront (by simp [hblocks, hhead])]
      have hsplit : s.pool.blocks = [] ++ head :: rest := hblocks
      refine h.insertBlock hnone hgives hzero hsplit (by simp) ?_ (Nat.dvd_zero _) hfits0 hroom0
      intro c hc
      rcases mem_cons.1 hc with rfl | hc
      · exact Nat.pos_of_ne_zero hhead
      · have hsorted := h.sorted
        rw [hblocks, map_cons, pairwise_cons] at hsorted
        exact (Nat.zero_le _).trans_lt (hsorted.1 c.id (mem_map_of_mem hc))
    · have hzeroId : head.id = 0 := not_not.1 hhead
      have hids := hconsec (by simp [hblocks, hzeroId])
      have hcount := h.length_le haligned hfits hnew
      have hbound : (s.pool.blocks.length + 1) * s.pool.objs ≤ wordSpace :=
        (Nat.mul_le_mul hcount hobjs).trans (by decide)
      rw [Nat.add_mul, Nat.one_mul] at hbound
      have hpos := h.objs_pos
      -- The walk along the list ends behind its last block.
      have hwalk : head :: s.pool.insertBlock m ((head.id + s.pool.objs) % wordSpace) rest =
          s.pool.insertBlock m 0 s.pool.blocks := by
        rw [hblocks, Pool.insertBlock, if_neg (not_not.2 hzeroId), hzeroId]
      have hids' : s.pool.blocks.map Block.id =
          (range s.pool.blocks.length).map (0 + · * s.pool.objs) := by
        simp only [Nat.zero_add]
        exact hids
      rw [hwalk, Pool.insertBlock_eq m hids' (by omega), Nat.zero_add]
      have hsplit : s.pool.blocks = s.pool.blocks ++ [] := (append_nil _).symm
      refine h.insertBlock hnone hgives hzero hsplit ?_ (by simp)
        (Nat.dvd_mul_left _ _) (by omega) ?_
      · intro c hc
        have hmem := mem_map_of_mem (f := Block.id) hc
        rw [hids] at hmem
        obtain ⟨j, hj, heq⟩ := mem_map.1 hmem
        rw [← heq]
        exact Nat.mul_lt_mul_of_pos_right (mem_range.1 hj) hpos
      · by_cases hmax : s.pool.maxObjs = 0
        · exact .inl hmax
        · exact .inr (h.lt_maxObjs hids (h.full hnone) hmax (by omega))

/-- An object of the first block with a free object is handed out. -/
lemma takeObject (h : Inv s) {base : ℕ} (hff : s.pool.firstFree = some base) :
    ∃ b, s.pool.blockAt base = some b ∧
      Inv ⟨(s.pool.takeObject b).1, (s.pool.takeObject b).2 :: s.live⟩ := by
  obtain ⟨b, hfind, rfl⟩ := map_eq_some_iff.1 (h.first.symm.trans hff)
  have hb := mem_of_find?_eq_some hfind
  refine ⟨b, blockAt_of_mem h.bases hb, ?_⟩
  obtain ⟨hfree, before, after, hsplit, hbefore⟩ := find?_eq_some_iff_append.1 hfind
  obtain ⟨i, -, -, -, -, hpool⟩ := h.toStored.takeObject_eq hsplit hfree
  have hblocks : (s.pool.takeObject b).1.blocks =
      before ++ { b with bitmap := clear b.bitmap i } :: after := congrArg blocks hpool
  have hids : (s.pool.takeObject b).1.blocks.map Block.id = s.pool.blocks.map Block.id := by
    rw [hblocks, hsplit, map_append, map_append, map_cons, map_cons]
  refine ⟨h.of_ids (h.toStored.takeObject hb hfree) rfl hids, ?_⟩
  -- The blocks before `b` are full, so the search may start at `b`.
  have hnone : before.find? s.pool.hasFree = none :=
    find?_eq_none.2 fun c hc => by simpa using hbefore c hc
  have hbases := (h.toStored.takeObject hb hfree).bases
  rw [hblocks] at hbases
  have hdrop := dropWhile_base hbases
  change (s.pool.takeObject b).1.freeFrom b.base = _
  rw [freeFrom, freeFromHead, hblocks, hdrop, find?_append]
  change _ = Option.map _ ((before.find? s.pool.hasFree).or _)
  rw [hnone, none_or]

/-- `allocate` keeps the invariant if the memory for a new block is as it should be. -/
lemma allocate (h : Inv s) {m : Option BlockMemory} (hmeets : s.Meets (.allocate m))
    (hstep : s.step (.allocate m) = some s') : Inv s' := by
  obtain ⟨hgives, hstep⟩ := ite_none_right_eq_some.1 hstep
  unfold Pool.allocate at hstep
  split_ifs at hstep with hlimit
  · cases hstep
    exact h
  cases hff : s.pool.firstFree with
  | some base =>
    obtain ⟨b, hb, hinv⟩ := h.takeObject hff
    simp only [hff, bind_some, hb] at hstep
    cases hstep
    exact hinv
  | none =>
    rcases m with _ | m
    · simp only [hff, map_none] at hstep
      cases hstep
      exact h
    · have hblock := h.allocateBlock hff hlimit (by simpa using hgives) (hmeets hff)
      have hfirst : (s.pool.allocateBlock m).firstFree = some m.base := rfl
      obtain ⟨b, hb, hinv⟩ := hblock.takeObject hfirst
      simp only [hff, map_some, hfirst, bind_some, hb] at hstep
      cases hstep
      exact hinv

/-- After an object of the block `b` was marked as free, the block is the first one with a free
object, or it may go back to the heap. -/
lemma afterFree {p : Pool} {live : List ℕ} (h : Layout p live) {b : Block} (hb : b ∈ p.blocks)
    {j : ℕ} (hj : j < p.objs) (hset : bit b.bitmap j = true)
    (hfirst : ∀ base, p.firstFree = some base → ∃ ff ∈ p.blocks, ff.base = base ∧
      p.hasFree ff = true ∧ ∀ c ∈ p.blocks, p.hasFree c = true → c ≠ b → ff.id ≤ c.id)
    (hnone : p.firstFree = none → ∀ c ∈ p.blocks, p.hasFree c = true → c = b) :
    Inv ⟨p.afterFree b, live⟩ := by
  have hfree := h.hasFree_of_bit hb hj hset
  unfold Pool.afterFree
  rcases hff : p.firstFree with _ | base
  · have hlayout := h.withFirstFree (some b.base)
    refine ⟨hlayout, (hlayout.freeFromHead_eq (b := b) hb hfree fun c hc hcfree => ?_).symm⟩
    rw [hnone hff c hc hcfree]
  · obtain ⟨ff, hmem, rfl, hfffree, hmin⟩ := hfirst base hff
    simp only [bind_some, Pool.blockAt_of_mem h.bases hmem]
    have hle : ¬ b.id < ff.id → ∀ c ∈ p.blocks, p.hasFree c = true → ff.id ≤ c.id := by
      intro hlt c hc hcfree
      by_cases hcb : c = b
      · rw [hcb]
        exact not_lt.1 hlt
      · exact hmin c hc hcfree hcb
    split_ifs with hlt hall hsame
    · have hlayout := h.withFirstFree (some b.base)
      refine ⟨hlayout, (hlayout.freeFromHead_eq (b := b) hb hfree fun c hc hcfree => ?_).symm⟩
      by_cases hcb : c = b
      · rw [hcb]
      · exact hlt.le.trans (hmin c hc hcfree hcb)
    · refine ⟨(h.freeBlock hb hj hset hall).withFirstFree _, rfl⟩
    · have hlayout := h.freeBlock hb hj hset hall
      have hsub : ∀ c ∈ (p.freeBlock b.base).blocks, c ∈ p.blocks := fun c hc =>
        mem_of_mem_eraseP hc
      refine ⟨hlayout, hff.trans (hlayout.freeFromHead_eq (b := ff) ?_ hfffree ?_).symm⟩
      · exact (mem_eraseP_of_neg (by simpa using hsame)).2 hmem
      · exact fun c hc => hle hlt c (hsub c hc)
    · exact ⟨h, hff.trans (h.freeFromHead_eq hmem hfffree (hle hlt)).symm⟩

lemma free (h : Inv s) {object : ℕ} (hstep : s.step (.free object) = some s') : Inv s' := by
  obtain ⟨hlive, hstep⟩ := ite_none_right_eq_some.1 hstep
  obtain ⟨b, hat, rfl⟩ := map_eq_some_iff.1 hstep
  obtain ⟨c, hc, i, hi, rfl⟩ := h.mem_live object hlive
  have hlt := lt_objs hi
  rw [h.getBlockBase_object (h.aligned c hc).1 hlt, blockAt_of_mem h.bases hc] at hat
  obtain rfl := Option.some.inj hat
  obtain ⟨before, after, hsplit⟩ := append_of_mem hc
  obtain ⟨hstored, hpool⟩ := h.freeObject hsplit hi hlive
  have hids : (before ++ { c with bitmap := set c.bitmap i } :: after).map Block.id =
      s.pool.blocks.map Block.id := by simp [hsplit]
  have hlayout := h.of_ids hstored rfl hids
  rw [hpool]
  -- Only the block of the object may have a free object now that had none before.
  have hold : ∀ d ∈ before ++ { c with bitmap := set c.bitmap i } :: after,
      d ≠ { c with bitmap := set c.bitmap i } → d ∈ s.pool.blocks := by
    intro d hd hne
    rw [perm_middle.mem_iff, mem_cons, or_iff_right hne] at hd
    rw [hsplit]
    exact perm_middle.mem_iff.2 (mem_cons_of_mem c hd)
  refine afterFree hlayout (by simp) hlt (by simp [bit_set _ bitsWord_pos]) ?_ ?_
  · intro base hff
    obtain ⟨ff, hmem, rfl, hfree, hmin⟩ := h.of_freeFromHead (h.first.symm.trans hff)
    by_cases heq : ff = c
    · subst heq
      refine ⟨{ ff with bitmap := set ff.bitmap i }, by simp, rfl, ?_, fun d hd hdfree hne =>
        hmin d (hold d hd hne) hdfree⟩
      refine (hstored.hasFree_iff (by simp)).2 ⟨i, hi, ?_⟩
      exact fun hin => (h.nodup.mem_erase_iff.1 hin).1 rfl
    · refine ⟨ff, ?_, rfl, hfree, fun d hd hdfree hne => hmin d (hold d hd hne) hdfree⟩
      rw [hsplit, perm_middle.mem_iff, mem_cons, or_iff_right heq] at hmem
      exact perm_middle.mem_iff.2 (mem_cons_of_mem _ hmem)
  · intro hff d hd hdfree
    by_contra hne
    have hfull := h.full hff d (hold d hd hne)
    exact Bool.false_ne_true (hfull.symm.trans hdfree)

lemma init {objectSize : ℕ} (hsize : Suitable objectSize) (maxObjects : ℕ) :
    Inv (Client.init objectSize maxObjects) := by
  obtain ⟨hpos, hfit, hall⟩ := hsize
  obtain ⟨hobjs, hroom⟩ := objsPerBlock_spec hpos hfit
  have hmod : objectSize % 2 ^ 16 = objectSize := by
    have hblock : blockSize = 4096 := rfl
    exact Nat.mod_eq_of_lt (by omega)
  have hinit : (Client.init objectSize maxObjects).pool.objSize = objectSize := hmod
  have hinitObjs : (Client.init objectSize maxObjects).pool.objs = objsPerBlock objectSize := by
    rw [Pool.objs, hinit]
  refine ⟨⟨⟨⟨?_, ?_, ?_, ?_⟩, ?_, ?_, ?_, ?_, nodup_nil, rfl⟩, ?_, ?_⟩, rfl⟩
  · rwa [hinit]
  · rwa [hinitObjs]
  · rwa [hinitObjs, hinit]
  · rwa [hinitObjs]
  all_goals simp [Client.init, Pool.init]

lemma step (h : Inv s) {op : Op} (hmeets : s.Meets op) (hstep : s.step op = some s') : Inv s' := by
  cases op with
  | allocate m => exact h.allocate hmeets hstep
  | free object => exact h.free hstep

end Inv

/-! ## What clients see -/

/-- Objects in use do not overlap, they are in blocks of the pool, and blocks and objects have
different identifiers. -/
structure Client.Separate (s : Client) : Prop where
  disjoint : s.live.Pairwise fun a b => a + s.pool.objSize ≤ b ∨ b + s.pool.objSize ≤ a
  inBlock : ∀ a ∈ s.live, ∃ b ∈ s.pool.blocks,
    b.base ≤ a ∧ a + s.pool.objSize + headerSize s.pool.objSize ≤ b.base + blockSize
  blockIds : (s.pool.blocks.map Block.id).Nodup
  ids : ∀ a ∈ s.live, ∀ b ∈ s.live, s.pool.id a = s.pool.id b → a = b

lemma Inv.separate {s : Client} (h : Inv s) : s.Separate where
  disjoint := by
    refine List.Nodup.pairwise_of_forall_ne h.nodup fun a ha b hb hne => ?_
    obtain ⟨c, hc, i, hi, rfl⟩ := h.mem_live a ha
    obtain ⟨d, hd, j, hj, rfl⟩ := h.mem_live b hb
    have hroom := h.room
    have hmuli := s.pool.index_mul_le (lt_objs hi)
    have hmulj := s.pool.index_mul_le (lt_objs hj)
    by_cases hbase : c.base = d.base
    · -- In the same block, the indices differ.
      rw [hbase] at hne ⊢
      rcases Nat.lt_or_gt_of_ne (fun heq : i = j => hne (by rw [heq])) with hlt | hlt
      · have hmul := s.pool.index_mul_le hlt
        omega
      · have hmul := s.pool.index_mul_le hlt
        omega
    · have halignc := (h.aligned c hc).1
      have halignd := (h.aligned d hd).1
      have hblock : blockSize = 4096 := rfl
      rw [hblock] at halignc halignd hroom
      omega
  inBlock := by
    intro a ha
    obtain ⟨b, hb, i, hi, rfl⟩ := h.mem_live a ha
    have hroom := h.room
    have hmul := s.pool.index_mul_le (lt_objs hi)
    exact ⟨b, hb, by omega, by omega⟩
  blockIds := h.sorted.imp fun hlt => Nat.ne_of_lt hlt
  ids := by
    intro a ha b hb hid
    obtain ⟨c, hc, i, hi, rfl⟩ := h.mem_live a ha
    obtain ⟨d, hd, j, hj, rfl⟩ := h.mem_live b hb
    have hlti := lt_objs hi
    have hltj := lt_objs hj
    obtain ⟨rfl, rfl⟩ := h.object_id_inj hc hd hlti hltj hid
    rfl

/-- In every run in which the memory of new blocks is as `allocate_block` needs it, objects in use
do not overlap, their blocks are not given back, and identifiers are different. -/
theorem objects_separate {objectSize maxObjects : ℕ} (hsize : Suitable objectSize) {ops : List Op}
    (hmeets : RunMeets step Client.Meets (init objectSize maxObjects) ops)
    {s : Client} (hrun : run step (init objectSize maxObjects) ops = some s) : s.Separate := by
  have hinv : Inv s := RunMeets.invariant (fun _ _ _ h hok hstep => h.step hok hstep) hmeets
    (Inv.init hsize maxObjects) hrun
  exact hinv.separate

/-- Memory that is filled with zeros. -/
def zeroMemory (base : ℕ) : BlockMemory := ⟨base, 0, fun _ => 0⟩

/-- With blocks of two objects, a block is allocated, given back and allocated again. -/
theorem objects_separate_two : ∃ s, run step (init 2000 0)
    [.allocate (some (zeroMemory 0)), .allocate none, .allocate (some (zeroMemory 4096)),
      .free 6096, .allocate (some (zeroMemory 4096))] = some s ∧ s.live = [6096, 0, 2000] ∧
      s.Separate := by
  exact exists_run (Q := fun s => s.live = [6096, 0, 2000]) (by decide +kernel) fun s hrun hlive =>
    ⟨hlive, objects_separate (by decide +kernel) (by decide +kernel) hrun⟩

/-- The blocks with identifiers 0, 2 and 4 are full, and the objects of the second one are freed.
The block that takes its place goes to the end of the list, and the next block gets the identifier
2 as well. -/
theorem allocate_same_id : ∃ s, run step (init 2000 0)
    [.allocate (some (zeroMemory 0)), .allocate none, .allocate (some (zeroMemory 4096)),
      .allocate none, .allocate (some (zeroMemory 8192)), .allocate none, .free 4096, .free 6096,
      .allocate (some (zeroMemory 4096)), .allocate none, .allocate (some (zeroMemory 12288))] =
      some s ∧ s.pool.blocks.map Block.id = [0, 4, 2, 2] ∧
      s.pool.id 6096 = s.pool.id 14288 ∧ 6096 ∈ s.live ∧ 14288 ∈ s.live := by
  exact exists_run (by decide +kernel) fun _ _ hview => hview

end Okl4Kernel.SmallAlloc
