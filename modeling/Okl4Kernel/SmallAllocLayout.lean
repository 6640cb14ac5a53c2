import Okl4Kernel.SmallAllocInvariant

/-!
# The layout of the blocks of small objects

`small_alloc_t::init` divides a block into objects and a header. The header has a bitmap for as
many objects as fit into a block without a header; if what remains behind these is less than a
header, objects are given up for it.

The calculation rounds the number of objects to give up: it takes the quotient and one more. If the
quotient is exact, one object too many is given up. This is so for six small sizes only
(`wasteful`). The size is not checked: `init` calculates no objects at all for a size that leaves
no room for the header, and keeps the low half of a size that takes more than 16 bits.
-/

namespace Okl4Kernel.SmallAlloc

open WordBitmap Pool

/-- What holds for the blocks of a pool of objects of the given size, when up to `spare` more
objects would fit into a block. -/
structure BlockLayout (objectSize spare : ℕ) (p : Pool) : Prop where
  /-- A block has an object. -/
  objs_pos : 0 < p.objs
  /-- The objects and the header fit into a block. -/
  room : headerSize p.objSize + p.objs * objectSize ≤ blockSize
  /-- Behind the link and the identifier, the header has a bit for each object. -/
  bitmap : p.objs ≤ (headerSize p.objSize / 4 - 2) * bitsWord
  /-- No more than `spare` further objects would fit. -/
  tight : blockSize < headerSize p.objSize + (p.objs + (spare + 1)) * objectSize

/-- The sizes for which an object is given up although it would fit. -/
def wasteful : List ℕ := [1, 2, 4, 8, 12, 20]

variable {objSize : ℕ}

/-- Blocks of larger objects have a header of three words. -/
lemma headerSize_eq (hlow : 128 ≤ objSize) (hhigh : objSize ≤ blockSize) :
    headerSize objSize = 12 := by
  have hblock : blockSize = 4096 := rfl
  have hle : blockSize / objSize ≤ blockSize / 128 := Nat.div_le_div_left hlow (by decide)
  have hq : 0 < blockSize / objSize := Nat.div_pos hhigh (by omega)
  have hmax : blockSize / 128 = 32 := by decide
  have hnum : numWords bitsWord (blockSize / objSize) = 1 := by
    simp only [numWords, bitsWord]
    omega
  rw [headerSize, hnum]

lemma add_headerSize_le_iff : objSize + headerSize objSize ≤ blockSize ↔ objSize ≤ 4084 := by
  have hblock : blockSize = 4096 := rfl
  have hmax := headerSize_le objSize
  by_cases hlow : 128 ≤ objSize
  · by_cases hhigh : objSize ≤ blockSize
    · rw [headerSize_eq hlow hhigh]
      omega
    · omega
  · omega

/-- For a size that leaves no room for a header, there are no objects. -/
lemma objsPerBlock_eq_zero (hlarge : 4084 < objSize) : objsPerBlock objSize = 0 := by
  have hblock : blockSize = 4096 := rfl
  by_cases hhigh : objSize ≤ blockSize
  · have hheader := headerSize_eq (by omega) hhigh
    have hq : blockSize / objSize = 1 := by
      rw [Nat.div_eq_of_lt_le] <;> omega
    have hmod : blockSize % objSize = blockSize - objSize := by
      have hdm := Nat.div_add_mod' blockSize objSize
      rw [hq] at hdm
      omega
    have hd : (12 - (blockSize - objSize)) / objSize = 0 := Nat.div_eq_of_lt (by omega)
    unfold objsPerBlock
    dsimp only
    rw [hheader, hq, hmod, if_neg (by omega), hd]
    rfl
  · have hq : blockSize / objSize = 0 := Nat.div_eq_of_lt (by omega)
    have hmod : blockSize % objSize = blockSize := Nat.mod_eq_of_lt (by omega)
    have hheader : headerSize objSize = 8 := by
      rw [headerSize, hq]
      rfl
    unfold objsPerBlock
    dsimp only
    rw [hheader, hq, hmod, if_pos (by decide)]
    rfl

section

variable (hpos : 0 < objSize)
include hpos

/-- One more object would fit exactly if a whole number of objects makes room for the header. -/
lemma fits_succ_iff (hfit : objSize + headerSize objSize ≤ blockSize) :
    headerSize objSize + (objsPerBlock objSize + 1) * objSize ≤ blockSize ↔
      blockSize % objSize < headerSize objSize ∧
        objSize ∣ headerSize objSize - blockSize % objSize := by
  obtain ⟨-, hcases⟩ := objsPerBlock_eq hpos hfit
  have hdm := Nat.div_add_mod' blockSize objSize
  have hmod := Nat.mod_lt blockSize hpos
  rw [Nat.dvd_iff_mod_eq_zero]
  rcases hcases with ⟨hroom, heq⟩ | ⟨hroom, heq⟩
  · rw [heq, Nat.add_mul]
    omega
  · have hrest := Nat.div_add_mod' (headerSize objSize - blockSize % objSize) objSize
    rw [← heq, ← Nat.add_assoc, Nat.add_right_comm, Nat.add_mul (objsPerBlock objSize + 1)] at hdm
    omega

/-- Two more objects would not fit. -/
lemma lt_add_two (hfit : objSize + headerSize objSize ≤ blockSize) :
    blockSize < headerSize objSize + (objsPerBlock objSize + 2) * objSize := by
  obtain ⟨-, hcases⟩ := objsPerBlock_eq hpos hfit
  have hdm := Nat.div_add_mod' blockSize objSize
  have hmod := Nat.mod_lt blockSize hpos
  rcases hcases with ⟨hroom, heq⟩ | ⟨hroom, heq⟩
  · rw [heq, Nat.add_mul]
    omega
  · have hrest := Nat.div_mul_le_self (headerSize objSize - blockSize % objSize) objSize
    rw [← heq, ← Nat.add_assoc, Nat.add_right_comm, Nat.add_mul (objsPerBlock objSize + 1)] at hdm
    rw [show objsPerBlock objSize + 2 = objsPerBlock objSize + 1 + 1 from rfl, Nat.add_mul]
    omega

/-- The sizes for which the header takes the place of a whole number of objects. -/
lemma mem_wasteful_iff : objSize ∈ wasteful ↔ blockSize % objSize < headerSize objSize ∧
      objSize ∣ headerSize objSize - blockSize % objSize := by
  by_cases hsmall : objSize < 64
  · have hcheck : ∀ n < 64, 0 < n → (n ∈ wasteful ↔ blockSize % n < headerSize n ∧
        n ∣ headerSize n - blockSize % n) := by decide +kernel
    exact hcheck objSize hsmall hpos
  · refine iff_of_false ?_ ?_
    · intro hmem
      have hcheck : ∀ n ∈ wasteful, n < 64 := by decide
      exact hsmall (hcheck objSize hmem)
    · rintro ⟨hlt, hdvd⟩
      -- The header of such a block has at most four words.
      have hle := Nat.le_of_dvd (by omega) hdvd
      have hq : blockSize / objSize ≤ blockSize / 64 :=
        Nat.div_le_div_left (not_lt.1 hsmall) (by decide)
      have hwords := numWords_mono (w := bitsWord) hq
      have hmax : numWords bitsWord (blockSize / 64) = 2 := by decide
      rw [headerSize] at hle
      omega

/-- The bitmap has a bit for each object. -/
lemma objsPerBlock_le_bitmap
    (hfit : objSize + headerSize objSize ≤ blockSize) :
    objsPerBlock objSize ≤ (headerSize objSize / 4 - 2) * bitsWord := by
  obtain ⟨-, hcases⟩ := objsPerBlock_eq hpos hfit
  have hobjs : objsPerBlock objSize ≤ blockSize / objSize := by
    rcases hcases with ⟨-, heq⟩ | ⟨-, heq⟩
    · exact heq.le
    · exact Nat.le.intro heq
  have hwords : headerSize objSize / 4 - 2 = numWords bitsWord (blockSize / objSize) := by
    rw [headerSize, Nat.mul_div_cancel _ (by decide)]
    omega
  rw [hwords]
  refine hobjs.trans ?_
  simp only [numWords, bitsWord]
  omega

end

/-- For a suitable size, what holds of the blocks depends on whether another object would fit. -/
lemma blockLayout_of_fits {objectSize maxObjects spare : ℕ} (hpos : 0 < objectSize)
    (hle : objectSize ≤ 4084) : BlockLayout objectSize spare (init objectSize maxObjects) ↔
      blockSize < headerSize objectSize + (objsPerBlock objectSize + (spare + 1)) * objectSize := by
  have hfit := add_headerSize_le_iff.2 hle
  have hsize : (init objectSize maxObjects).objSize = objectSize :=
    Nat.mod_eq_of_lt (by omega)
  have hobjs : (init objectSize maxObjects).objs = objsPerBlock objectSize := by
    rw [objs, hsize]
  obtain ⟨hpos', hroom⟩ := objsPerBlock_spec hpos hfit
  constructor
  · intro h
    have htight := h.tight
    rwa [hsize, hobjs] at htight
  · intro htight
    refine ⟨?_, ?_, ?_, ?_⟩
    · rwa [hobjs]
    · rwa [hsize, hobjs, Nat.add_comm]
    · rw [hsize, hobjs]
      exact objsPerBlock_le_bitmap hpos hfit
    · rwa [hsize, hobjs]

/-- Blocks have a proper layout only if the object size leaves room for the header. -/
lemma BlockLayout.size {objectSize maxObjects spare : ℕ}
    (h : BlockLayout objectSize spare (init objectSize maxObjects)) :
    0 < objectSize ∧ objectSize ≤ 4084 := by
  have hobjs := h.objs_pos
  have hroom := h.room
  have hblock : blockSize = 4096 := rfl
  have hmul := Nat.mul_le_mul_right objectSize hobjs
  rw [Nat.succ_eq_add_one, Nat.zero_add, Nat.one_mul] at hmul
  -- One object fits, so the size is not cut off.
  have hsize : (init objectSize maxObjects).objSize = objectSize :=
    Nat.mod_eq_of_lt (by omega)
  rw [objs, hsize] at hobjs
  constructor
  · rcases Nat.eq_zero_or_pos objectSize with rfl | hpos
    · exact absurd hobjs (by decide)
    · exact hpos
  · by_contra hlarge
    rw [objsPerBlock_eq_zero (not_le.1 hlarge)] at hobjs
    exact absurd hobjs (lt_irrefl 0)

/-- For exactly the object sizes up to 4084, a block has an object, its objects and the header fit,
the header has a bit for each object, and two more objects would not fit. One more object would
not fit either, unless the size is one of the wasteful ones. -/
theorem blockLayout_iff (objectSize maxObjects : ℕ) :
    (BlockLayout objectSize 1 (init objectSize maxObjects) ↔
      0 < objectSize ∧ objectSize ≤ 4084) ∧
    (BlockLayout objectSize 0 (init objectSize maxObjects) ↔
      0 < objectSize ∧ objectSize ≤ 4084 ∧ objectSize ∉ wasteful) := by
  constructor
  · refine ⟨BlockLayout.size, fun ⟨hpos, hle⟩ => (blockLayout_of_fits hpos hle).2 ?_⟩
    exact lt_add_two hpos (add_headerSize_le_iff.2 hle)
  have htight : ∀ {n}, 0 < n → n ≤ 4084 →
      (blockSize < headerSize n + (objsPerBlock n + (0 + 1)) * n ↔ n ∉ wasteful) := by
    intro n hpos hle
    rw [mem_wasteful_iff hpos, ← fits_succ_iff hpos (add_headerSize_le_iff.2 hle), not_le]
  constructor
  · intro h
    obtain ⟨hpos, hle⟩ := h.size
    exact ⟨hpos, hle, (htight hpos hle).1 ((blockLayout_of_fits hpos hle).1 h)⟩
  · rintro ⟨hpos, hle, hnot⟩
    exact (blockLayout_of_fits hpos hle).2 ((htight hpos hle).2 hnot)

/-- Of objects of four bytes, 990 and the header would fill a block exactly, but 989 are used.
There is no object in a block for objects of a whole block. -/
theorem blockLayout_wastes_object : (init 4 0).objs = 989 ∧ headerSize 4 + 990 * 4 = blockSize ∧
      ¬ BlockLayout 4 0 (init 4 0) ∧
      (init 4096 0).objs = 0 ∧ ¬ BlockLayout 4096 0 (init 4096 0) := by
  refine ⟨by decide, by decide, fun h => ?_, by decide, fun h => ?_⟩
  · exact absurd h.tight (by decide)
  · exact absurd h.objs_pos (by decide)

end Okl4Kernel.SmallAlloc
