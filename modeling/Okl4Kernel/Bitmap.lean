import Mathlib.Data.BitVec
import Mathlib.Order.Interval.Finset.Nat
import Okl4Kernel.SmallAlloc

/-!
# The bitmap library

`bitmap.h` keeps a set of numbers below a length as an array of words. Here the operations are
compared with those on finite sets: `Represents` relates an array to a set, and every operation
should take representations to representations, or give the answer that the set gives.

Four operations do so always. The others differ from the sets for some lengths:

* `bitmap_isallset` compares the last word with `(1 << (length % BITS_WORD)) - 1`, which is zero if
  the length is a multiple of the word size;
* `bitmap_israngeset` shifts by the word size if the last number is the last one of a word;
* `bitmap_findfirstset` takes the highest bit of a word;
* `bitmap_findfirstclear` applies `!`, not `~`, to a word, so that it looks for an empty word.

The numbers of bits and words are natural numbers; `BITMAP_SIZE` is calculated without wrapping
around.
-/

namespace Okl4Kernel.SmallAlloc

namespace KernelBitmap

open WordBitmap TwoLevelBitmap Function Finset Option

/-! ## The operations -/

variable (words : ℕ → BitVec bitsWord)

/-- `bitmap_init`. -/
def bitmapInit (length : ℕ) (set : BitVec bitsWord) : ℕ → BitVec bitsWord :=
  let value := if set ≠ 0 then BitVec.allOnes bitsWord else set
  fun i =>
    if i < numWords bitsWord length then
      -- The unused bits of the last word are cleared.
      if i + 1 = numWords bitsWord length ∧ length % bitsWord ≠ 0 then
        value &&& lowBits bitsWord (length % bitsWord)
      else value
    else words i

/-- `BITMAP_MASK`. -/
def bitmapMask (bit : ℕ) : BitVec bitsWord := BitVec.ofNat bitsWord 1 <<< (bit % bitsWord)

/-- `bitmap_set`. -/
def bitmapSet (bit : ℕ) : ℕ → BitVec bitsWord :=
  update words (bit / bitsWord) (words (bit / bitsWord) ||| bitmapMask bit)

/-- `bitmap_clear`. -/
def bitmapClear (bit : ℕ) : ℕ → BitVec bitsWord :=
  update words (bit / bitsWord) (words (bit / bitsWord) &&& ~~~bitmapMask bit)

/-- `bitmap_isset`. -/
def bitmapIsset (bit : ℕ) : Bool :=
  words (bit / bitsWord) &&& bitmapMask bit ≠ 0

/-- `bitmap_isallset`, as the small-object allocator uses it. -/
def bitmapIsallset (length : ℕ) : Bool := Pool.isAllSet words length

variable (overflow : BitVec bitsWord)

/-- The value of `1 << count`. The language does not define the shift by the word size; `overflow`
is what the machine makes of it: one if it takes the count modulo the word size, as the shift
instruction of the SH does, and zero if it shifts the bit out. -/
def shiftOne (count : ℕ) : BitVec bitsWord :=
  if count < bitsWord then BitVec.ofNat bitsWord 1 <<< count else overflow

/-- The loop of `bitmap_israngeset` over `n` words from word `i` on: the first word must contain
`check`, and the following ones must be full. -/
def rangeLoop (words : ℕ → BitVec bitsWord) : ℕ → ℕ → BitVec bitsWord → Bool
  | 0, _, _ => true
  | n + 1, i, check =>
    if words i &&& check ≠ check then false
    else rangeLoop words n (i + 1) (BitVec.allOnes bitsWord)

/-- The mask of the numbers of a word below `first`. -/
def firstMask (first : ℕ) : BitVec bitsWord :=
  shiftOne overflow (first % bitsWord) - BitVec.ofNat bitsWord 1

/-- The mask of the numbers of a word up to `last`. -/
def lastMask (last : ℕ) : BitVec bitsWord :=
  shiftOne overflow (last % bitsWord + 1) - BitVec.ofNat bitsWord 1

/-- `bitmap_israngeset`. -/
def bitmapIsrangeset (words : ℕ → BitVec bitsWord) (first last : ℕ) : Bool :=
  let i := first / bitsWord
  let j := last / bitsWord
  if i = j then
    let check := firstMask overflow first ^^^ lastMask overflow last
    words i &&& check = check
  else
    -- The body of the loop runs at least once.
    let rounds := max 1 (j - i)
    let check := lastMask overflow last
    rangeLoop words rounds i (~~~firstMask overflow first) && words (i + rounds) &&& check = check

/-- `bitmap_findfirstset`. -/
def bitmapFindfirstset (length : ℕ) : Option ℕ :=
  findFirstSet words length

/-- The result of the operator `!`. -/
def logicalNot (v : BitVec bitsWord) : BitVec bitsWord := if v = 0 then 1 else 0

/-- `bitmap_findfirstclear`. -/
def bitmapFindfirstclear (length : ℕ) : Option ℕ :=
  findFirstSet (fun i => logicalNot (words i)) length

/-! ## Sets -/

/-- An array of words holds a set of numbers below a length. -/
structure Represents (n : ℕ) (words : ℕ → BitVec bitsWord) (s : Finset ℕ) : Prop where
  /-- The members are below the length. -/
  lt_of_mem : ∀ p ∈ s, p < n
  /-- Those and no other bits of the words in use are set. -/
  bit_iff : ∀ p, p / bitsWord < numWords bitsWord n → (bit words p = true ↔ p ∈ s)

section Single

variable {n p : ℕ} {words : ℕ → BitVec bitsWord} {s : Finset ℕ}

/-- A number below the length has its bit in a word in use. -/
lemma Represents.bit_iff_of_lt (h : Represents n words s) (hp : p < n) :
    bit words p = true ↔ p ∈ s :=
  h.bit_iff p (div_lt_numWords bitsWord_pos hp)

/-- Every array whose set bits are below the length holds a set. -/
lemma represents_filter
    (hlt : ∀ p, p / bitsWord < numWords bitsWord n → bit words p = true → p < n) :
    Represents n words ((range n).filter fun p => bit words p = true) where
  lt_of_mem p hp := mem_range.1 (mem_filter.1 hp).1
  bit_iff p hp := by
    rw [mem_filter, mem_range]
    exact ⟨fun hbit => ⟨hlt p hp hbit, hbit⟩, fun hmem => hmem.2⟩

lemma bitmapInit_of_ne_zero {set : BitVec bitsWord} (hset : set ≠ 0) :
    bitmapInit words n set = fill words n := by
  funext i
  simp only [bitmapInit, fill, if_pos hset]

lemma represents_bitmapInit (n : ℕ) (words : ℕ → BitVec bitsWord) (set : BitVec bitsWord) :
    Represents n (bitmapInit words n set) (if set ≠ 0 then range n else ∅) := by
  by_cases hset : set ≠ 0
  · rw [if_pos hset, bitmapInit_of_ne_zero hset]
    refine ⟨fun p hp => mem_range.1 hp, fun p hp => ?_⟩
    rw [bit_fill words bitsWord_pos hp, decide_eq_true_iff, mem_range]
  · rw [if_neg hset]
    refine ⟨fun p hp => absurd hp (notMem_empty p), fun p hp => ?_⟩
    have hzero : bitmapInit words n set (p / bitsWord) = 0 := by
      simp only [bitmapInit, if_pos hp, if_neg hset]
      rw [not_not.1 hset]
      split_ifs
      · exact BitVec.zero_and
      · rfl
    rw [bit, hzero]
    simp

lemma Represents.bitmapSet (h : Represents n words s) (hp : p < n) :
    Represents n (bitmapSet words p) (insert p s) where
  lt_of_mem q hq := by
    rcases mem_insert.1 hq with rfl | hmem
    · exact hp
    · exact h.lt_of_mem q hmem
  bit_iff q hq := by
    have hbit : bit (KernelBitmap.bitmapSet words p) q = (bit words q || decide (q = p)) :=
      bit_set words bitsWord_pos q
    rw [hbit, Bool.or_eq_true, decide_eq_true_iff, h.bit_iff q hq, mem_insert, or_comm]

lemma Represents.bitmapClear (h : Represents n words s) (p : ℕ) :
    Represents n (bitmapClear words p) (s.erase p) where
  lt_of_mem q hq := h.lt_of_mem q (mem_of_mem_erase hq)
  bit_iff q hq := by
    have hbit : bit (KernelBitmap.bitmapClear words p) q = (bit words q && !decide (q = p)) :=
      bit_clear words bitsWord_pos q
    rw [hbit, Bool.and_eq_true, h.bit_iff q hq, mem_erase, Bool.not_eq_true',
      decide_eq_false_iff_not, and_comm]

lemma bitmapIsset_eq_bit (words : ℕ → BitVec bitsWord) (p : ℕ) :
    bitmapIsset words p = bit words p := by
  have hlt : p % bitsWord < bitsWord := Nat.mod_lt p bitsWord_pos
  have hmask : bitmapMask p = BitVec.twoPow bitsWord (p % bitsWord) :=
    (BitVec.twoPow_eq bitsWord _).symm
  have hne : BitVec.twoPow bitsWord (p % bitsWord) ≠ BitVec.ofNat bitsWord 0 := by
    intro hzero
    have hbit := congrArg (BitVec.getLsbD · (p % bitsWord)) hzero
    simp [hlt] at hbit
  rw [bitmapIsset, bit, hmask, BitVec.and_twoPow]
  rcases (words (p / bitsWord)).getLsbD (p % bitsWord) with _ | _
  · simp
  · simpa using hne

end Single

/-! ## Whole bitmaps -/

section Isallset

variable {n : ℕ} {words : ℕ → BitVec bitsWord} {s : Finset ℕ}

/-- `bitmap_isallset` is right about a bitmap with a last word that is not full. -/
lemma Represents.bitmapIsallset_iff (h : Represents n words s) (hmod : n % bitsWord ≠ 0) :
    bitmapIsallset words n = true ↔ s = range n := by
  have hw := bitsWord_pos
  have hdm := Nat.div_add_mod' n bitsWord
  have hlast : numWords bitsWord n - 1 = n / bitsWord := by
    rw [numWords_of_mod_ne hw hmod, Nat.add_sub_cancel]
  rw [bitmapIsallset, Pool.isAllSet, decide_eq_true_iff, hlast]
  constructor
  · rintro ⟨hfull, hrest⟩
    refine Finset.Subset.antisymm (fun p hp => mem_range.2 (h.lt_of_mem p hp)) ?_
    intro p hp
    have hlt : p < n := mem_range.1 hp
    have hpdm := Nat.div_add_mod' p bitsWord
    rw [← h.bit_iff_of_lt hlt, bit]
    rcases Nat.lt_or_eq_of_le (Nat.div_le_div_right (c := bitsWord) hlt.le) with hbelow | heq
    · rw [hfull _ hbelow, BitVec.getLsbD_allOnes, decide_eq_true_iff]
      exact Nat.mod_lt p hw
    · rw [heq] at hpdm ⊢
      rw [hrest, getLsbD_lowBits (Nat.mod_lt n hw), decide_eq_true_iff]
      omega
  · rintro rfl
    have hbit : ∀ i j, j < bitsWord → i ≤ n / bitsWord →
        (words i).getLsbD j = decide (i * bitsWord + j < n) := by
      intro i j hj hi
      rw [← bit_mul_add words hj, Bool.eq_iff_iff, decide_eq_true_iff, h.bit_iff _ ?_, mem_range]
      rw [numWords_of_mod_ne hw hmod, Nat.mul_comm, Nat.mul_add_div hw, Nat.div_eq_of_lt hj]
      omega
    refine ⟨fun i hi => BitVec.eq_of_getLsbD_eq fun j hj => ?_,
      BitVec.eq_of_getLsbD_eq fun j hj => ?_⟩
    · rw [hbit i j hj hi.le, BitVec.getLsbD_allOnes, decide_eq_decide]
      have hmul := Nat.mul_le_mul_right bitsWord (Nat.succ_le_of_lt hi)
      rw [Nat.succ_mul] at hmul
      exact ⟨fun _ => hj, fun _ => by omega⟩
    · rw [hbit _ j hj le_rfl, getLsbD_lowBits (Nat.mod_lt n hw), decide_eq_decide]
      omega

/-- A full bitmap whose length is a multiple of the word size does not pass `bitmap_isallset`. -/
lemma bitmapIsallset_full (hn : 0 < n) (hmod : n % bitsWord = 0)
    (h : Represents n words (range n)) : bitmapIsallset words n = false := by
  rw [bitmapIsallset, Pool.isAllSet, decide_eq_false_iff_not]
  rintro ⟨-, hrest⟩
  -- The last word holds the number `n - 1`.
  have hlt : n - 1 < n := Nat.sub_lt hn one_pos
  have hword : numWords bitsWord n - 1 = (n - 1) / bitsWord := by
    simp only [numWords, bitsWord] at hmod ⊢
    omega
  have hbit := (h.bit_iff_of_lt hlt).2 (mem_range.2 hlt)
  rw [bit, ← hword, hrest, hmod, getLsbD_lowBits bitsWord_pos] at hbit
  simp at hbit

/-- `bitmap_isallset` is right about every bitmap of a length. -/
def IsallsetAgrees (n : ℕ) : Prop :=
  ∀ words s, Represents n words s → (bitmapIsallset words n = true ↔ s = range n)

lemma isallsetAgrees_iff (hn : 0 < n) : IsallsetAgrees n ↔ n % bitsWord ≠ 0 := by
  constructor
  · intro h hmod
    have hrep : Represents n (bitmapInit (fun _ => 0) n 1) (range n) :=
      represents_bitmapInit n (fun _ => 0) 1
    have htrue := (h _ _ hrep).2 rfl
    rw [bitmapIsallset_full hn hmod hrep] at htrue
    cases htrue
  · intro hmod words s hrep
    exact hrep.bitmapIsallset_iff hmod

end Isallset

/-! ## Ranges -/

section Range

variable {n : ℕ} {words : ℕ → BitVec bitsWord} {s : Finset ℕ} {overflow : BitVec bitsWord}
  {first last : ℕ}
variable {i k : ℕ}

/-- The shift that makes the mask of the last word is one that the language defines, or the machine
shifts the bit out of the word. -/
def LastShiftOk (overflow : BitVec bitsWord) (last : ℕ) : Prop :=
  (last + 1) % bitsWord ≠ 0 ∨ overflow = 0

/-- The mask of the first word excludes the numbers below the first one. -/
lemma getLsbD_firstMask (overflow : BitVec bitsWord) (first j : ℕ) :
    (firstMask overflow first).getLsbD j = decide (j < first % bitsWord) := by
  have hlt : first % bitsWord < bitsWord := Nat.mod_lt first bitsWord_pos
  rw [firstMask, shiftOne, if_pos hlt]
  exact getLsbD_lowBits hlt

lemma zero_sub_one :
    (0 : BitVec bitsWord) - BitVec.ofNat bitsWord 1 = BitVec.allOnes bitsWord := by decide

/-- The mask of the last word covers the numbers up to the last one. -/
lemma getLsbD_lastMask (hok : LastShiftOk overflow last) {j : ℕ} (hj : j < bitsWord) :
    (lastMask overflow last).getLsbD j = decide (j ≤ last % bitsWord) := by
  rw [lastMask, shiftOne]
  split_ifs with hlt
  · have hmask := getLsbD_lowBits (i := j) hlt
    rw [lowBits] at hmask
    rw [hmask, decide_eq_decide, Nat.lt_succ_iff]
  · have hend : last % bitsWord + 1 = bitsWord := by
      have := Nat.mod_lt last bitsWord_pos
      omega
    rcases hok with hmod | rfl
    · refine absurd ?_ hmod
      rw [Nat.add_mod, Nat.mod_eq_of_lt (a := 1) (by decide), hend, Nat.mod_self]
    · rw [zero_sub_one, BitVec.getLsbD_allOnes, decide_eq_decide]
      omega

/-- What the loop of `bitmap_israngeset` has seen. -/
lemma rangeLoop_iff {check : BitVec bitsWord} : rangeLoop words k i check = true ↔
      (0 < k → words i &&& check = check) ∧
        ∀ m, i < m → m < i + k → words m &&& BitVec.allOnes bitsWord = BitVec.allOnes bitsWord := by
  induction k generalizing i check with
  | zero =>
    refine iff_of_true rfl ⟨fun hk => absurd hk (lt_irrefl 0), fun m him hmi => ?_⟩
    omega
  | succ k ih =>
    rw [rangeLoop]
    by_cases hcheck : words i &&& check = check
    · rw [if_neg (not_not.2 hcheck), ih]
      constructor
      · rintro ⟨hnext, hrest⟩
        refine ⟨fun _ => hcheck, fun m him hmi => ?_⟩
        rcases Nat.eq_or_lt_of_le (Nat.succ_le_of_lt him) with rfl | hlt
        · exact hnext (by omega)
        · exact hrest m hlt (by omega)
      · rintro ⟨-, hrest⟩
        exact ⟨fun hk => hrest (i + 1) (by omega) (by omega),
          fun m him hmi => hrest m (by omega) (by omega)⟩
    · rw [if_pos hcheck]
      exact iff_of_false Bool.false_ne_true fun h => hcheck (h.1 (Nat.succ_pos k))

/-- The numbers of a range that are in word `i` are in the set. -/
def RangeInWord (words : ℕ → BitVec bitsWord) (first last i : ℕ) : Prop :=
  ∀ k < bitsWord, first ≤ i * bitsWord + k → i * bitsWord + k ≤ last → (words i).getLsbD k = true

lemma forall_bit_iff_rangeInWord : (∀ p, first ≤ p → p ≤ last → bit words p = true) ↔
      ∀ i, first / bitsWord ≤ i → i ≤ last / bitsWord → RangeInWord words first last i := by
  constructor
  · intro hbits i _ _ k hk hfirst hlast
    rw [← bit_mul_add words hk]
    exact hbits _ hfirst hlast
  · intro hwords p hfirst hlast
    have hdm := Nat.div_add_mod' p bitsWord
    refine hwords (p / bitsWord) (Nat.div_le_div_right hfirst) (Nat.div_le_div_right hlast)
      (p % bitsWord) (Nat.mod_lt p bitsWord_pos) ?_ ?_
    · rwa [hdm]
    · rwa [hdm]

lemma and_eq_check_iff {check : BitVec bitsWord} (hcheck : ∀ k < bitsWord,
      (check.getLsbD k = true ↔ first ≤ i * bitsWord + k ∧ i * bitsWord + k ≤ last)) :
    words i &&& check = check ↔ RangeInWord words first last i := by
  rw [and_eq_right_iff]
  refine forall₂_congr fun k hk => ?_
  rw [hcheck k hk, and_imp]

/-- The word of the first number begins where the mask says. -/
lemma getLsbD_not_firstMask (hk : k < bitsWord) : (~~~firstMask overflow first).getLsbD k = true ↔
    first ≤ first / bitsWord * bitsWord + k := by
  rw [BitVec.getLsbD_not, getLsbD_firstMask]
  simp only [hk, decide_true, Bool.true_and, Bool.not_eq_true', decide_eq_false_iff_not]
  simp only [bitsWord]
  omega

/-- The test of the first word, if there are others. -/
lemma and_firstMask_iff (hlt : first / bitsWord < last / bitsWord) :
    words (first / bitsWord) &&& ~~~firstMask overflow first = ~~~firstMask overflow first ↔
      RangeInWord words first last (first / bitsWord) := by
  refine and_eq_check_iff fun k hk => ?_
  rw [getLsbD_not_firstMask hk]
  simp only [bitsWord] at hk hlt ⊢
  omega

/-- The test of the last word, if there are others. -/
lemma and_lastMask_iff (hok : LastShiftOk overflow last) (hlt : first / bitsWord < last / bitsWord) :
    words (last / bitsWord) &&& lastMask overflow last = lastMask overflow last ↔
      RangeInWord words first last (last / bitsWord) := by
  refine and_eq_check_iff fun k hk => ?_
  rw [getLsbD_lastMask hok hk, decide_eq_true_iff]
  simp only [bitsWord] at hlt ⊢
  omega

/-- The test of a word between those of the first and the last number. -/
lemma and_allOnes_iff (hfirst : first / bitsWord < i) (hlast : i < last / bitsWord) :
    words i &&& BitVec.allOnes bitsWord = BitVec.allOnes bitsWord ↔
      RangeInWord words first last i := by
  refine and_eq_check_iff fun k hk => ?_
  rw [BitVec.getLsbD_allOnes, decide_eq_true_iff]
  simp only [bitsWord] at hk hfirst hlast ⊢
  omega

/-- The test of the only word. -/
lemma and_xorMask_iff (hok : LastShiftOk overflow last) (hle : first ≤ last)
    (heq : first / bitsWord = last / bitsWord) :
    words (first / bitsWord) &&& (firstMask overflow first ^^^ lastMask overflow last) =
      firstMask overflow first ^^^ lastMask overflow last ↔
      RangeInWord words first last (first / bitsWord) := by
  refine and_eq_check_iff fun k hk => ?_
  rw [BitVec.getLsbD_xor, getLsbD_firstMask, getLsbD_lastMask hok hk, bne_iff_ne, ne_eq,
    decide_eq_decide]
  simp only [bitsWord] at heq ⊢
  omega

lemma max_rounds (hlt : first / bitsWord < last / bitsWord) :
    max 1 (last / bitsWord - first / bitsWord) = last / bitsWord - first / bitsWord :=
  max_eq_right (by omega)

lemma bitmapIsrangeset_iff (hok : LastShiftOk overflow last) (hle : first ≤ last) :
    bitmapIsrangeset overflow words first last = true ↔
      ∀ p, first ≤ p → p ≤ last → bit words p = true := by
  have hword : first / bitsWord ≤ last / bitsWord := Nat.div_le_div_right hle
  rw [forall_bit_iff_rangeInWord, bitmapIsrangeset]
  split_ifs with heq
  · -- The whole range is in one word.
    rw [decide_eq_true_iff, and_xorMask_iff hok hle heq, ← heq]
    exact ⟨fun hin i hi hi' => le_antisymm hi hi' ▸ hin, fun hin => hin _ le_rfl le_rfl⟩
  · have hlt : first / bitsWord < last / bitsWord := lt_of_le_of_ne hword heq
    rw [Bool.and_eq_true, decide_eq_true_iff, max_rounds hlt, rangeLoop_iff,
      Nat.add_sub_of_le hword, and_firstMask_iff hlt, and_lastMask_iff hok hlt]
    constructor
    · rintro ⟨⟨hfirst, hmid⟩, hlast⟩ i hi hi'
      rcases Nat.eq_or_lt_of_le hi with rfl | hi
      · exact hfirst (by omega)
      rcases Nat.eq_or_lt_of_le hi' with rfl | hi'
      · exact hlast
      · exact (and_allOnes_iff hi hi').1 (hmid i hi hi')
    · intro hin
      refine ⟨⟨fun _ => hin _ le_rfl hword, fun i hi hi' => ?_⟩, hin _ hword le_rfl⟩
      exact (and_allOnes_iff hi hi').2 (hin i hi.le hi'.le)

lemma fill_eq_allOnes (hi : (i + 1) * bitsWord ≤ n) :
    fill (fun _ => 0) n i = BitVec.allOnes bitsWord := by
  refine BitVec.eq_of_getLsbD_eq fun j hj => ?_
  rw [Nat.succ_mul] at hi
  rw [← bit_mul_add _ hj, bit_fill _ bitsWord_pos, BitVec.getLsbD_allOnes, decide_eq_decide]
  · omega
  · exact div_lt_numWords bitsWord_pos (by omega)

/-- `bitmap_israngeset` gives the answer of the set for every bitmap of a length. -/
def IsrangesetAgrees (overflow : BitVec bitsWord) (n first last : ℕ) : Prop :=
  ∀ words s, Represents n words s →
    (bitmapIsrangeset overflow words first last = true ↔ Finset.Icc first last ⊆ s)

/-- The bitmap that is full but for the word of the last number, in which it has the given bits. -/
def fullBut (n last : ℕ) (v : BitVec bitsWord) : ℕ → BitVec bitsWord :=
  update (fill (fun _ => 0) n) (last / bitsWord) v

/-- What an answer that agrees with the sets says about a range that ends with a whole word, if only
that word has bits that are not set. -/
lemma IsrangesetAgrees.fullBut_iff (h : IsrangesetAgrees overflow n first last) (hlast : last < n)
    (hmod : (last + 1) % bitsWord = 0) (v : BitVec bitsWord) :
    bitmapIsrangeset overflow (fullBut n last v) first last = true ↔
      ∀ k < bitsWord, first ≤ last / bitsWord * bitsWord + k → v.getLsbD k = true := by
  have hword : fullBut n last v (last / bitsWord) = v := update_self _ _ _
  have hother : ∀ p, p / bitsWord ≠ last / bitsWord → p / bitsWord < numWords bitsWord n →
      bit (fullBut n last v) p = decide (p < n) := by
    intro p hpw hp
    rw [bit, fullBut, update_of_ne hpw, ← bit, bit_fill _ bitsWord_pos hp]
  have hlt : ∀ p, p / bitsWord < numWords bitsWord n → bit (fullBut n last v) p = true → p < n := by
    intro p hp hbit
    by_cases hpw : p / bitsWord = last / bitsWord
    · simp only [bitsWord] at hmod hpw
      omega
    · rw [hother p hpw hp] at hbit
      exact of_decide_eq_true hbit
  rw [h _ _ (represents_filter hlt)]
  constructor
  · intro hsub k hk hfirst
    have hle : last / bitsWord * bitsWord + k ≤ last := by
      simp only [bitsWord] at hmod hk ⊢
      omega
    have hbit := (mem_filter.1 (hsub (mem_Icc.2 ⟨hfirst, hle⟩))).2
    rwa [bit_mul_add _ hk, hword] at hbit
  · intro hv p hp
    obtain ⟨hfirst, hle⟩ := mem_Icc.1 hp
    refine mem_filter.2 ⟨mem_range.2 (by omega), ?_⟩
    by_cases hpw : p / bitsWord = last / bitsWord
    · have hdm := Nat.div_add_mod' p bitsWord
      rw [bit, hpw, hword]
      exact hv _ (Nat.mod_lt p bitsWord_pos) (by rw [← hpw, hdm]; exact hfirst)
    · rw [hother p hpw (div_lt_numWords bitsWord_pos (by omega))]
      exact decide_eq_true (by omega)

/-- If `bitmap_israngeset` agrees with the sets about a range that ends with a whole word, the mask
of the last word is right. -/
lemma IsrangesetAgrees.lastMask_eq (h : IsrangesetAgrees overflow n first last)
    (hle : first ≤ last) (hlast : last < n) (hmod : (last + 1) % bitsWord = 0) :
    lastMask overflow last = BitVec.allOnes bitsWord := by
  rcases Nat.eq_or_lt_of_le (Nat.div_le_div_right (c := bitsWord) hle) with heq | hlt
  · -- For every word, the test must be that of the numbers from the first one on.
    have hcheck : ∀ v, v &&& (firstMask overflow first ^^^ lastMask overflow last) =
        firstMask overflow first ^^^ lastMask overflow last ↔
        v &&& ~~~firstMask overflow first = ~~~firstMask overflow first := by
      intro v
      have hagree := h.fullBut_iff hlast hmod v
      rw [bitmapIsrangeset, if_pos heq, decide_eq_true_iff, heq, fullBut, update_self] at hagree
      rw [hagree, and_eq_right_iff]
      refine forall₂_congr fun k hk => ?_
      rw [getLsbD_not_firstMask hk, heq]
    have hxor : firstMask overflow first ^^^ lastMask overflow last =
        ~~~firstMask overflow first := by
      have hmask := (hcheck _).1 BitVec.and_self
      rwa [BitVec.and_comm, (hcheck _).2 BitVec.and_self] at hmask
    rw [← BitVec.xor_allOnes] at hxor
    exact (BitVec.xor_right_inj _).1 hxor
  · have hones : ∀ m, m < last / bitsWord →
        fullBut n last (lastMask overflow last) m = BitVec.allOnes bitsWord := by
      intro m hm
      rw [fullBut, update_of_ne hm.ne]
      refine fill_eq_allOnes ?_
      simp only [bitsWord] at hm ⊢
      omega
    have hbits := (h.fullBut_iff hlast hmod (lastMask overflow last)).1 (by
      rw [bitmapIsrangeset, if_neg hlt.ne, Bool.and_eq_true, decide_eq_true_iff,
        max_rounds hlt, rangeLoop_iff, Nat.add_sub_of_le hlt.le]
      refine ⟨⟨fun _ => ?_, fun m _ hm => ?_⟩, ?_⟩
      · rw [hones _ hlt, BitVec.allOnes_and]
      · rw [hones m hm, BitVec.and_self]
      · rw [fullBut, update_self, BitVec.and_self])
    refine BitVec.eq_of_getLsbD_eq fun k hk => ?_
    rw [hbits k hk ?_, BitVec.getLsbD_allOnes, decide_eq_true hk]
    simp only [bitsWord] at hlt ⊢
    omega

/-- `bitmap_israngeset` agrees with the sets exactly if the mask of the last word is right. -/
lemma israngesetAgrees_iff (hle : first ≤ last) (hlast : last < n) :
    IsrangesetAgrees overflow n first last ↔ LastShiftOk overflow last := by
  constructor
  · intro h
    refine or_iff_not_imp_left.2 fun hmod => ?_
    have hmod' : (last + 1) % bitsWord = 0 := not_not.1 hmod
    have hend : ¬ last % bitsWord + 1 < bitsWord := by
      simp only [bitsWord] at hmod' ⊢
      omega
    -- The mask is full only if the machine shifts the bit out.
    have hfull := h.lastMask_eq hle hlast hmod'
    rw [lastMask, shiftOne, if_neg hend] at hfull
    exact sub_left_injective hfull
  · intro hok words s hrep
    rw [bitmapIsrangeset_iff hok hle]
    constructor
    · intro hbits p hp
      obtain ⟨hfirst, hp'⟩ := mem_Icc.1 hp
      exact (hrep.bit_iff_of_lt (by omega)).1 (hbits p hfirst hp')
    · intro hsub p hfirst hp'
      exact (hrep.bit_iff_of_lt (by omega)).2 (hsub (mem_Icc.2 ⟨hfirst, hp'⟩))

end Range

/-! ## Searches -/

section Search

variable {n : ℕ} {words : ℕ → BitVec bitsWord} {s : Finset ℕ}

/-- `bitmap_findfirstset` finds a member if there is one, and nothing exactly if the set is
empty. -/
lemma Represents.findfirstset (h : Represents n words s) :
    (∀ p, bitmapFindfirstset words n = some p → p ∈ s) ∧
      (bitmapFindfirstset words n = none ↔ s = ∅) := by
  have hmem : ∀ p, bitmapFindfirstset words n = some p → p ∈ s := fun p hfind =>
    (h.bit_iff p (findFirstSet_some hfind).2).1 (findFirstSet_some hfind).1
  refine ⟨hmem, fun hnone => ?_, ?_⟩
  · refine eq_empty_of_forall_notMem fun p hp => ?_
    have hword := div_lt_numWords bitsWord_pos (h.lt_of_mem p hp)
    have hbit := (h.bit_iff p hword).2 hp
    rw [findFirstSet_none hnone hword] at hbit
    cases hbit
  · rintro rfl
    exact eq_none_iff_forall_ne_some.2 fun p hfind => notMem_empty p (hmem p hfind)

/-- `bitmap_findfirstset` finds the least member of every bitmap of a length. -/
def FindfirstsetAgrees (n : ℕ) : Prop :=
  ∀ words s, Represents n words s →
    ∀ p, bitmapFindfirstset words n = some p ↔ IsLeast (↑s : Set ℕ) p

/-- `bitmap_findfirstclear` finds the least number that is missing in every bitmap of a length. -/
def FindfirstclearAgrees (n : ℕ) : Prop :=
  ∀ words s, Represents n words s →
    ∀ p, bitmapFindfirstclear words n = some p ↔ IsLeast {q | q < n ∧ q ∉ s} p

/-- A word that is not zero ends the search at its highest bit. -/
lemma findFirstSet_of_first_ne (hn : 0 < n) (hne : words 0 ≠ 0) :
    findFirstSet words n = some (msb (words 0)) := by
  obtain ⟨m, hm⟩ : ∃ m, numWords bitsWord n = m + 1 :=
    Nat.exists_eq_succ_of_ne_zero (Nat.ne_zero_of_lt (div_lt_numWords bitsWord_pos hn))
  rw [findFirstSet, hm, findFrom, if_pos hne, Nat.zero_mul, Nat.zero_add]

/-- Of the first two numbers, `bitmap_findfirstset` does not find the first one. -/
lemma Represents.bitmapFindfirstset_pair (h : Represents n words {0, 1}) :
    bitmapFindfirstset words n ≠ some 0 := by
  intro hfind
  have hn : 1 < n := h.lt_of_mem 1 (by simp)
  have hzero : bit words 0 = true := (h.bit_iff_of_lt (by omega)).2 (by simp)
  have hone : bit words 1 = true := (h.bit_iff_of_lt hn).2 (by simp)
  have hone' : (words 0).getLsbD 1 = true := hone
  have hne : words 0 ≠ 0 := by
    intro heq
    rw [heq] at hone'
    exact absurd hone' (by decide)
  rw [bitmapFindfirstset, findFirstSet_of_first_ne (by omega) hne, some_inj, msb] at hfind
  -- The highest bit is above the bit of the number one.
  have hlog := Nat.log2_lt (n := (words 0).toNat) (k := 1) (by
    intro heq
    exact hne (BitVec.eq_of_toNat_eq heq))
  have hlt := hlog.1 (by omega)
  have htest : (words 0).toNat.testBit 1 = false := Nat.testBit_lt_two_pow hlt
  rw [BitVec.getLsbD, htest] at hone'
  cases hone'

lemma findfirstsetAgrees_iff (hn : 0 < n) : FindfirstsetAgrees n ↔ n = 1 := by
  constructor
  · intro h
    by_contra hne
    have hn' : 1 < n := by omega
    have hempty : Represents n (bitmapInit (fun _ => 0) n 0) ∅ :=
      represents_bitmapInit n (fun _ => 0) 0
    have hpair : Represents n _ {0, 1} := (hempty.bitmapSet hn').bitmapSet hn
    refine hpair.bitmapFindfirstset_pair ((h _ _ hpair 0).2 ⟨by simp, ?_⟩)
    exact fun q _ => Nat.zero_le q
  · rintro rfl words s hrep p
    obtain ⟨hfound, hnone⟩ := hrep.findfirstset
    constructor
    · intro hfind
      have hmem := hfound p hfind
      have hp := hrep.lt_of_mem p hmem
      exact ⟨hmem, fun q _ => by omega⟩
    · rintro ⟨hmem, -⟩
      have hne : bitmapFindfirstset words 1 ≠ none := hnone.not.2 (ne_empty_of_mem hmem)
      obtain ⟨q, hq⟩ := ne_none_iff_exists'.1 hne
      have hp := hrep.lt_of_mem p hmem
      have hqlt := hrep.lt_of_mem q (hfound q hq)
      rw [hq, some_inj]
      omega

/-- The operator `!` sets no bit but the lowest one. -/
lemma getLsbD_logicalNot (v : BitVec bitsWord) (j : ℕ) :
    (logicalNot v).getLsbD j = (decide (v = 0) && decide (j = 0)) := by
  rw [logicalNot]
  split_ifs with hzero
  · have hone : (1 : BitVec bitsWord) = BitVec.ofNat bitsWord 1 := rfl
    rw [decide_eq_true hzero, Bool.true_and, hone, BitVec.getLsbD_one,
      decide_eq_true bitsWord_pos, Bool.true_and, eq_comm]
  · rw [decide_eq_false hzero, Bool.false_and]
    exact BitVec.getLsbD_zero

/-- What `bitmap_findfirstclear` finds is the number of the first bit of an empty word. -/
lemma bitmapFindfirstclear_some {p : ℕ} (hfind : bitmapFindfirstclear words n = some p) :
    words (p / bitsWord) = 0 ∧ p % bitsWord = 0 ∧ p / bitsWord < numWords bitsWord n := by
  obtain ⟨hbit, hword⟩ := findFirstSet_some hfind
  rw [bit, getLsbD_logicalNot, Bool.and_eq_true, decide_eq_true_iff, decide_eq_true_iff] at hbit
  exact ⟨hbit.1, hbit.2, hword⟩

/-- The one word of a bitmap of length one is empty if the number is missing. -/
lemma Represents.first_eq_zero_iff (h : Represents 1 words s) : words 0 = 0 ↔ 0 ∉ s := by
  have hbit : bit words 0 = true ↔ 0 ∈ s := h.bit_iff_of_lt one_pos
  constructor
  · intro hzero hmem
    have htrue : (words 0).getLsbD 0 = true := hbit.2 hmem
    rw [hzero] at htrue
    exact absurd htrue (by decide)
  · intro hmem
    refine BitVec.eq_of_getLsbD_eq fun j hj => ?_
    have hword : (0 * bitsWord + j) / bitsWord < numWords bitsWord 1 := by
      rw [Nat.zero_mul, Nat.zero_add, Nat.div_eq_of_lt hj]
      decide
    have hclear : (0 : BitVec bitsWord).getLsbD j = false := BitVec.getLsbD_zero
    rw [← bit_mul_add words hj, hclear]
    refine Bool.eq_false_iff.2 fun htrue => ?_
    have hj' := (h.bit_iff _ hword).1 htrue
    have hlt := h.lt_of_mem _ hj'
    rw [Nat.lt_one_iff.1 hlt] at hj'
    exact hmem hj'

lemma bitmapFindfirstclear_one (words : ℕ → BitVec bitsWord) :
    bitmapFindfirstclear words 1 = if words 0 = 0 then some 0 else none := by
  have hnum : numWords bitsWord 1 = 1 := by decide
  rw [bitmapFindfirstclear, findFirstSet, hnum, findFrom, findFrom, logicalNot]
  by_cases hzero : words 0 = 0
  · rw [if_pos hzero, if_pos hzero, if_pos (by decide)]
    decide
  · rw [if_neg hzero, if_neg hzero, if_neg (not_not.2 rfl)]

lemma findfirstclearAgrees_iff (hn : 0 < n) : FindfirstclearAgrees n ↔ n = 1 := by
  constructor
  · intro h
    by_contra hne
    have hempty : Represents n (bitmapInit (fun _ => 0) n 0) ∅ :=
      represents_bitmapInit n (fun _ => 0) 0
    have hfind := (h _ _ (hempty.bitmapSet hn) 1).2 ⟨⟨by omega, by simp⟩, ?_⟩
    · exact absurd (bitmapFindfirstclear_some hfind).2.1 (by decide)
    · rintro q ⟨-, hq⟩
      have hq0 : q ≠ 0 := by simpa using hq
      omega
  · rintro rfl words s hrep p
    rw [bitmapFindfirstclear_one]
    by_cases hzero : words 0 = 0
    · have hmem := hrep.first_eq_zero_iff.1 hzero
      rw [if_pos hzero, some_inj]
      constructor
      · rintro rfl
        exact ⟨⟨one_pos, hmem⟩, fun q _ => Nat.zero_le q⟩
      · rintro ⟨⟨hlt, -⟩, -⟩
        omega
    · rw [if_neg hzero]
      refine iff_of_false (fun h => nomatch h) ?_
      rintro ⟨⟨hlt, hmem⟩, -⟩
      rw [Nat.lt_one_iff.1 hlt] at hmem
      exact hzero (hrep.first_eq_zero_iff.2 hmem)

end Search

/-- For every length, `bitmap_init`, `bitmap_set`, `bitmap_clear` and `bitmap_isset` do what the
operations on sets do. `bitmap_findfirstset` finds some member, and nothing exactly if there is
none. The other answers are those of the sets under a condition on the length or on the end of the
range. -/
theorem bitmap_refines_iff (overflow : BitVec bitsWord) (n : ℕ) (hn : 0 < n) : (∀ words set,
      Represents n (bitmapInit words n set) (if set ≠ 0 then range n else ∅)) ∧
    (∀ words s, Represents n words s → ∀ p < n,
      Represents n (bitmapSet words p) (insert p s) ∧
      Represents n (bitmapClear words p) (s.erase p) ∧
      (bitmapIsset words p = true ↔ p ∈ s)) ∧
    (∀ words s, Represents n words s →
      (∀ p, bitmapFindfirstset words n = some p → p ∈ s) ∧
      (bitmapFindfirstset words n = none ↔ s = ∅)) ∧
    (IsallsetAgrees n ↔ n % bitsWord ≠ 0) ∧
    (∀ first last, first ≤ last → last < n →
      (IsrangesetAgrees overflow n first last ↔ LastShiftOk overflow last)) ∧
    (FindfirstsetAgrees n ↔ n = 1) ∧
    (FindfirstclearAgrees n ↔ n = 1) := by
  refine ⟨represents_bitmapInit n, ?_, ?_, isallsetAgrees_iff hn, ?_, findfirstsetAgrees_iff hn,
    findfirstclearAgrees_iff hn⟩
  · intro words s hrep p hp
    refine ⟨hrep.bitmapSet hp, hrep.bitmapClear p, ?_⟩
    rw [bitmapIsset_eq_bit, hrep.bit_iff_of_lt hp]
  · intro words s hrep
    exact hrep.findfirstset
  · intro first last hle hlast
    exact israngesetAgrees_iff hle hlast

/-- A bitmap of one word: the machine of the source takes the count of a shift modulo the word
size. -/
theorem bitmap_refines_iff_one_word :
    0 < 32 ∧ ¬ IsallsetAgrees 32 ∧ ¬ IsrangesetAgrees 1 32 0 31 ∧ IsrangesetAgrees 1 32 3 30 ∧
      ¬ FindfirstclearAgrees 32 := by
  obtain ⟨-, -, -, hall, hrange, -, hclear⟩ := bitmap_refines_iff 1 32 (by decide)
  refine ⟨by decide, fun h => ?_, fun h => ?_, ?_, fun h => ?_⟩
  · exact hall.1 h (by decide)
  · rcases (hrange 0 31 (by decide) (by decide)).1 h with hmod | hzero
    · exact hmod (by decide)
    · exact absurd hzero (by decide)
  · exact (hrange 3 30 (by decide) (by decide)).2 (.inl (by decide))
  · exact absurd (hclear.1 h) (by decide)

/-- A full bitmap of one word is not seen to be full, and one without its last number passes for the
whole range. The number one is missing in the set of the number zero, but no missing number is
found. -/
theorem bitmap_wrong_answers : bitmapIsallset (bitmapInit (fun _ => 0) 32 1) 32 = false ∧
      bitmapIsrangeset 1 (bitmapClear (bitmapInit (fun _ => 0) 32 1) 31) 0 31 = true ∧
      bitmapFindfirstclear (bitmapSet (bitmapInit (fun _ => 0) 2 0) 0) 2 = none ∧
      bitmapIsset (bitmapSet (bitmapInit (fun _ => 0) 2 0) 0) 1 = false := by
  decide +kernel

end KernelBitmap

end Okl4Kernel.SmallAlloc
