import Mathlib.Data.Finset.Card
import Okl4Kernel.Lib.TwoLevelBitmap

/-!
# Bitmaps that are arrays of words

A set of small numbers is kept as an array of `w`-bit words: number `p` is bit `p % w` of word
`p / w`. The operations are given the number of bits that are in use; `numWords` is the number of
words that these take.

Writing or testing a whole bitmap treats the last word separately, because only some of its bits
may be in use. `lowBits` is the mask for them.
-/

namespace WordBitmap

open TwoLevelBitmap BitVec

variable {w : ℕ}
variable {i length p : ℕ} {words : ℕ → BitVec w}

/-- The number of words that hold `length` bits. -/
def numWords (w length : ℕ) : ℕ := (length + (w - 1)) / w

/-- The word whose lowest `r` bits are set. -/
def lowBits (w r : ℕ) : BitVec w := 1#w <<< r - 1#w

/-- The bit of the number `p`. -/
def bit (words : ℕ → BitVec w) (p : ℕ) : Bool := (words (p / w)).getLsbD (p % w)

/-- Set the bit of the number `p`. -/
def set (words : ℕ → BitVec w) (p : ℕ) : ℕ → BitVec w :=
  Function.update words (p / w) (words (p / w) ||| 1#w <<< (p % w))

/-- Clear the bit of the number `p`. -/
def clear (words : ℕ → BitVec w) (p : ℕ) : ℕ → BitVec w :=
  Function.update words (p / w) (words (p / w) &&& ~~~(1#w <<< (p % w)))

/-- Set the bits of all numbers below `length`, and clear the other bits of the last word. -/
def fill (words : ℕ → BitVec w) (length : ℕ) : ℕ → BitVec w := fun i =>
  if i < numWords w length then
    if i + 1 = numWords w length ∧ length % w ≠ 0 then allOnes w &&& lowBits w (length % w)
    else allOnes w
  else words i

/-- The search for a set bit, in `n` words from word `i` on. -/
def findFrom (words : ℕ → BitVec w) : ℕ → ℕ → Option ℕ
  | 0, _ => none
  | n + 1, i => if words i ≠ 0 then some (i * w + msb (words i)) else findFrom words n (i + 1)

/-- The first search result in the words that hold `length` bits. -/
def findFirstSet (words : ℕ → BitVec w) (length : ℕ) : Option ℕ :=
  findFrom words (numWords w length) 0

/-- The search for a set bit that passes the test `p`: a bit that is found and does not pass is
cleared before the next search. The first argument bounds the number of searches. -/
def findSuch (p : ℕ → Bool) (length : ℕ) : ℕ → (ℕ → BitVec w) → Option ℕ
  | 0, _ => none
  | fuel + 1, words =>
    match findFirstSet words length with
    | none => none
    | some q => if p q then some q else findSuch p length fuel (clear words q)

/-! ## Single bits -/

lemma bit_set (words : ℕ → BitVec w) (hw : 0 < w) (q : ℕ) :
    bit (set words p) q = (bit words q || decide (q = p)) :=
  Bitmap.bit_set ⟨0, words⟩ hw q

lemma bit_clear (words : ℕ → BitVec w) (hw : 0 < w) (q : ℕ) :
    bit (clear words p) q = (bit words q && !decide (q = p)) :=
  Bitmap.bit_clear ⟨0, words⟩ hw q

lemma bit_mul_add (words : ℕ → BitVec w) {j : ℕ} (hj : j < w) :
    bit words (i * w + j) = (words i).getLsbD j := by
  obtain ⟨hdiv, hmod⟩ := Bitmap.mul_add_div_mod (i := i) hj
  rw [bit, hdiv, hmod]

lemma ext_bit {words' : ℕ → BitVec w} (hbit : ∀ p, bit words p = bit words' p) :
    words = words' := by
  funext i
  refine eq_of_getLsbD_eq fun j hj => ?_
  rw [← bit_mul_add words hj, ← bit_mul_add words' hj, hbit]

lemma set_clear (hw : 0 < w) (hp : bit words p = true) : set (clear words p) p = words := by
  refine ext_bit fun q => ?_
  rw [bit_set _ hw, bit_clear _ hw]
  by_cases hq : q = p
  · rw [hq, hp, decide_eq_true rfl, Bool.or_true]
  · rw [decide_eq_false hq, Bool.not_false, Bool.and_true, Bool.or_false]

/-- A word contains a mask if its bits contain those of the mask. -/
theorem and_eq_right_iff {v mask : BitVec w} :
    v &&& mask = mask ↔ ∀ j < w, mask.getLsbD j = true → v.getLsbD j = true := by
  constructor
  · intro heq j _ hmask
    have hbit := congrArg (getLsbD · j) heq
    simpa [hmask] using hbit
  · intro hsub
    refine eq_of_getLsbD_eq fun j hj => ?_
    rw [getLsbD_and]
    rcases hmask : mask.getLsbD j with _ | _
    · exact Bool.and_false _
    · rw [hsub j hj hmask, Bool.true_and]

lemma getLsbD_lowBits {r : ℕ} (hr : r < w) : (lowBits w r).getLsbD i = decide (i < r) := by
  have hpow : 2 ^ r < 2 ^ w := Nat.pow_lt_pow_right Nat.one_lt_two hr
  have hpos : 0 < 2 ^ r := Nat.two_pow_pos r
  have hone : 1 < 2 ^ w := Nat.one_lt_two_pow (Nat.ne_zero_of_lt hr)
  have hnat : (lowBits w r).toNat = 2 ^ r - 1 := by
    rw [lowBits, toNat_sub, toNat_shiftLeft, toNat_ofNat,
      Nat.mod_eq_of_lt hone, Nat.one_shiftLeft, Nat.mod_eq_of_lt hpow]
    have hsum : 2 ^ w - 1 + 2 ^ r = 2 ^ r - 1 + 2 ^ w := by omega
    rw [hsum, Nat.add_mod_right, Nat.mod_eq_of_lt (by omega)]
  rw [getLsbD, hnat, Nat.testBit_two_pow_sub_one]

/-! ## Whole bitmaps -/

lemma div_lt_numWords_iff (hw : 0 < w) : p / w < numWords w length ↔ p / w * w < length := by
  rw [numWords, Nat.lt_iff_add_one_le, Nat.le_div_iff_mul_le hw, Nat.add_mul]
  omega

lemma div_lt_numWords (hw : 0 < w) (hp : p < length) : p / w < numWords w length :=
  (div_lt_numWords_iff hw).2 ((Nat.div_mul_le_self p w).trans_lt hp)

lemma numWords_mono {length' : ℕ} (hle : length ≤ length') :
    numWords w length ≤ numWords w length' :=
  Nat.div_le_div_right (Nat.add_le_add_right hle _)

lemma numWords_of_mod_ne (hw : 0 < w) (hmod : length % w ≠ 0) :
    numWords w length = length / w + 1 := by
  have hdm := Nat.div_add_mod' length w
  have hlt := Nat.mod_lt length hw
  rw [numWords, Nat.div_eq_of_lt_le]
  · rw [Nat.add_mul]
    omega
  · rw [Nat.add_mul, Nat.add_mul]
    omega

/-- After filling, exactly the numbers below `length` are in the set, as far as the words that were
written are concerned. -/
theorem bit_fill (words : ℕ → BitVec w) (hw : 0 < w) (hp : p / w < numWords w length) :
    bit (fill words length) p = decide (p < length) := by
  have hmod := Nat.mod_lt p hw
  have hp' := (div_lt_numWords_iff hw).1 hp
  have hpdm := Nat.div_add_mod' p w
  rw [bit, fill, if_pos hp]
  split_ifs with hlast
  · -- The last word is full up to the end.
    have hlen : numWords w length * w = length + (w - length % w) := by
      have hdm := Nat.div_add_mod' length w
      have hlt := Nat.mod_lt length hw
      rw [numWords_of_mod_ne hw hlast.2, Nat.add_mul]
      omega
    rw [← hlast.1, Nat.add_mul] at hlen
    rw [getLsbD_and, getLsbD_lowBits (Nat.mod_lt _ hw), getLsbD_allOnes]
    have hrem := Nat.mod_lt length hw
    simp only [hmod, decide_true, Bool.true_and, decide_eq_decide]
    omega
  · rw [getLsbD_allOnes]
    simp only [hmod, decide_true, true_eq_decide_iff]
    rcases not_and_or.1 hlast with hnot | hzero
    · -- A later word is in use, too.
      have hnext : (p + w) / w < numWords w length := by
        rw [Nat.add_div_right p hw]
        omega
      rw [div_lt_numWords_iff hw, Nat.add_div_right p hw, Nat.succ_mul] at hnext
      omega
    · have hdvd : length / w * w = length :=
        Nat.div_mul_cancel (Nat.dvd_of_mod_eq_zero (by simpa using hzero))
      have hlt : p / w < length / w := Nat.lt_of_mul_lt_mul_right (hp'.trans_eq hdvd.symm)
      exact ((Nat.div_lt_iff_lt_mul hw).1 hlt).trans_eq hdvd

/-- What a search finds is in the set, and in one of the words that were searched. -/
theorem findFrom_some {n : ℕ} (hfind : findFrom words n i = some p) :
    bit words p = true ∧ p / w < i + n := by
  induction n generalizing i with
  | zero => exact absurd hfind (by simp [findFrom])
  | succ n ih =>
    rw [findFrom] at hfind
    split_ifs at hfind with hne
    · cases hfind
      have hbit := Bitmap.getLsbD_msb hne
      have hlt : msb (words i) < w := lt_of_getLsbD hbit
      refine ⟨(bit_mul_add words hlt).trans hbit, ?_⟩
      rw [(Bitmap.mul_add_div_mod hlt).1]
      omega
    · obtain ⟨hbit, hlt⟩ := ih hfind
      exact ⟨hbit, by omega⟩

/-- A search that finds nothing has seen only empty words. -/
theorem findFrom_none {n : ℕ} (hfind : findFrom words n i = none) {j : ℕ} (hij : i ≤ j)
    (hj : j < i + n) : words j = 0 := by
  induction n generalizing i with
  | zero => omega
  | succ n ih =>
    rw [findFrom] at hfind
    split_ifs at hfind with hne
    rcases Nat.eq_or_lt_of_le hij with rfl | hlt
    · simpa using hne
    · exact ih hfind hlt (by omega)

lemma findFirstSet_some (hfind : findFirstSet words length = some p) :
    bit words p = true ∧ p / w < numWords w length := by
  simpa using findFrom_some hfind

lemma findFirstSet_none (hfind : findFirstSet words length = none)
    (hp : p / w < numWords w length) : bit words p = false := by
  rw [bit, findFrom_none hfind (Nat.zero_le _) (by simpa using hp)]
  simp

lemma findSuch_some (hw : 0 < w) {q : ℕ → Bool} {fuel : ℕ}
    (hfind : findSuch q length fuel words = some p) : bit words p = true ∧ q p = true := by
  induction fuel generalizing words with
  | zero => cases hfind
  | succ fuel ih =>
    rw [findSuch] at hfind
    split at hfind
    · cases hfind
    next hfirst =>
    split_ifs at hfind with hq
    · cases hfind
      exact ⟨(findFirstSet_some hfirst).1, hq⟩
    · obtain ⟨hbit, hp⟩ := ih hfind
      rw [bit_clear _ hw, Bool.and_eq_true] at hbit
      exact ⟨hbit.1, hp⟩

end WordBitmap
