import Mathlib.Data.Nat.Bits
import Mathlib.Order.Bounds.Basic
import Mathlib.Tactic.Ring

/-!
# Two-level bitmaps

A set of small numbers is kept as an array of `w`-bit words together with one index word: number
`p` is bit `p % w` of word `p / w`, and bit `i` of the index word says whether word `i` holds any
number at all. Finding the greatest number takes two most-significant-bit searches.

`Bitmap.Consistent` is the relation between the two levels; `set` and `clear` keep it, and
`highest` is then the greatest number of the set.
-/

namespace TwoLevelBitmap

open Function BitVec

variable {w : ℕ}

/-- The position of the most significant set bit of a non-zero word. -/
def msb (v : BitVec w) : ℕ := v.toNat.log2

/-- An index word over an array of words. -/
structure Bitmap (w : ℕ) where
  /-- Bit `i` is set if word `i` has a set bit. -/
  index : BitVec w
  /-- One bit for each number. -/
  words : ℕ → BitVec w

namespace Bitmap

variable {k p : ℕ}

/-- No number is in the set. -/
def empty : Bitmap w := ⟨0, fun _ => 0⟩

variable (b : Bitmap w)

/-- The bit of the number `p`. -/
def bit (p : ℕ) : Bool := (b.words (p / w)).getLsbD (p % w)

/-- Put the number `p` into the set. -/
def set (p : ℕ) : Bitmap w where
  index := b.index ||| 1#w <<< (p / w)
  words := update b.words (p / w) (b.words (p / w) ||| 1#w <<< (p % w))

/-- Take the number `p` out of the set. -/
def clear (p : ℕ) : Bitmap w :=
  let word := b.words (p / w) &&& ~~~(1#w <<< (p % w))
  { index := if word = 0 then b.index &&& ~~~(1#w <<< (p / w)) else b.index
    words := update b.words (p / w) word }

/-- The greatest number of the set, or `-1` if the set is empty. -/
def highest : ℤ :=
  if b.index = 0 then -1
  else ((msb b.index * w + msb (b.words (msb b.index)) : ℕ) : ℤ)

/-- Bit `i` of the index word is set exactly when word `i` is not zero. -/
def Consistent : Prop := ∀ i < w, b.index.getLsbD i = true ↔ b.words i ≠ 0

/-! ## Single words -/

lemma getLsbD_one_shiftLeft {i : ℕ} (hk : k < w) : (1#w <<< k).getLsbD i = decide (i = k) := by
  rw [getLsbD_shiftLeft]
  rcases Nat.lt_trichotomy i k with hlt | heq | hgt
  · simp [hlt, hlt.ne]
  · subst heq
    simp [hk]
    omega
  · have hne : i - k ≠ 0 := by omega
    simp [hne, hgt.ne', getLsbD_one]

lemma getLsbD_or_bit (v : BitVec w) (hk : k < w) (i : ℕ) :
    (v ||| 1#w <<< k).getLsbD i = (v.getLsbD i || decide (i = k)) := by
  rw [getLsbD_or, getLsbD_one_shiftLeft hk]

lemma getLsbD_and_not_bit (v : BitVec w) (hk : k < w) (i : ℕ) :
    (v &&& ~~~(1#w <<< k)).getLsbD i = (v.getLsbD i && !decide (i = k)) := by
  rw [getLsbD_and, getLsbD_not, getLsbD_one_shiftLeft hk]
  by_cases hi : i < w
  · simp [hi]
  · simp [getLsbD_of_ge v i (by omega)]

lemma ne_zero_iff (v : BitVec w) : v ≠ 0 ↔ ∃ i, i < w ∧ v.getLsbD i = true := by
  constructor
  · intro hv
    by_contra hnone
    push Not at hnone
    apply hv
    apply eq_of_getLsbD_eq
    intro i hi
    simpa using hnone i hi
  · rintro ⟨i, -, hi⟩ rfl
    simp at hi

lemma getLsbD_msb {v : BitVec w} (hv : v ≠ 0) : v.getLsbD (msb v) = true := by
  have hne : v.toNat ≠ 0 := fun h => hv (eq_of_toNat_eq (by simpa using h))
  simpa [getLsbD, msb] using Nat.testBit_log2 hne

lemma le_msb {v : BitVec w} {i : ℕ} (hi : v.getLsbD i = true) : i ≤ msb v := by
  have htest : v.toNat.testBit i = true := hi
  have hge : 2 ^ i ≤ v.toNat := Nat.ge_two_pow_of_testBit htest
  have hne : v.toNat ≠ 0 := by
    have := Nat.two_pow_pos i
    omega
  exact (Nat.le_log2 hne).2 hge

/-! ## The two levels -/

lemma empty_consistent : (empty : Bitmap w).Consistent := by
  intro i _
  simp [empty]

@[simp] lemma bit_empty (p : ℕ) : (empty : Bitmap w).bit p = false := by
  simp [empty, bit]

/-- Two numbers of one word are the same if they have the same position in it. -/
theorem mod_eq_iff {q : ℕ} (hdiv : q / w = p / w) : q % w = p % w ↔ q = p := by
  constructor
  · intro hmod
    rw [← Nat.div_add_mod q w, ← Nat.div_add_mod p w, hdiv, hmod]
  · rintro rfl
    rfl

theorem mul_add_div_mod {i j : ℕ} (hj : j < w) : (i * w + j) / w = i ∧ (i * w + j) % w = j := by
  rw [Nat.mul_comm, Nat.mul_add_div (by omega), Nat.div_eq_of_lt hj, Nat.mul_add_mod]
  exact ⟨Nat.add_zero i, Nat.mod_eq_of_lt hj⟩

lemma words_ne_zero {b : Bitmap w} (hw : 0 < w) (hbit : b.bit p = true) : b.words (p / w) ≠ 0 := by
  rw [ne_zero_iff]
  exact ⟨p % w, Nat.mod_lt p hw, hbit⟩

lemma bit_set (hw : 0 < w) (q : ℕ) : (b.set p).bit q = (b.bit q || decide (q = p)) := by
  unfold bit set
  by_cases hdiv : q / w = p / w
  · simp only [hdiv, update_self]
    rw [getLsbD_or_bit _ (Nat.mod_lt p hw)]
    simp [mod_eq_iff hdiv]
  · have hne : q ≠ p := fun e => hdiv (by rw [e])
    simp [update_of_ne hdiv, hne]

lemma bit_clear (hw : 0 < w) (q : ℕ) : (b.clear p).bit q = (b.bit q && !decide (q = p)) := by
  unfold bit clear
  by_cases hdiv : q / w = p / w
  · simp only [hdiv, update_self]
    rw [getLsbD_and_not_bit _ (Nat.mod_lt p hw)]
    simp [mod_eq_iff hdiv]
  · have hne : q ≠ p := fun e => hdiv (by rw [e])
    simp [update_of_ne hdiv, hne]

variable {b : Bitmap w}

section

variable (hb : b.Consistent)
include hb

lemma Consistent.set (hp : p / w < w) : (b.set p).Consistent := by
  have hw : 0 < w := Nat.zero_lt_of_lt hp
  intro i hi
  simp only [Bitmap.set]
  rw [getLsbD_or_bit _ hp]
  by_cases heq : i = p / w
  · subst heq
    simp only [decide_true, Bool.or_true, update_self, true_iff]
    rw [ne_zero_iff]
    exact ⟨p % w, Nat.mod_lt p hw, by simp [getLsbD_or_bit _ (Nat.mod_lt p hw)]⟩
  · rw [update_of_ne heq]
    simpa [heq] using hb i hi

lemma Consistent.clear (hp : p / w < w) : (b.clear p).Consistent := by
  intro i hi
  simp only [Bitmap.clear]
  by_cases heq : i = p / w
  · subst heq
    rw [update_self]
    split_ifs with hzero
    · simp [getLsbD_and_not_bit _ hp, hzero]
    -- Some bit of the word remains, so the word was not zero before either.
    obtain ⟨j, hj, hbit⟩ := (ne_zero_iff _).1 hzero
    have hold : b.words (p / w) ≠ 0 := by
      rw [ne_zero_iff]
      refine ⟨j, hj, ?_⟩
      rw [getLsbD_and, Bool.and_eq_true] at hbit
      exact hbit.1
    exact ⟨fun _ => hzero, fun _ => (hb _ hi).2 hold⟩
  · rw [update_of_ne heq]
    split_ifs
    · simpa [getLsbD_and_not_bit _ hp, heq] using hb i hi
    · exact hb i hi

lemma Consistent.index_eq_zero_iff : b.index = 0 ↔ ∀ p, p / w < w → b.bit p = false := by
  constructor
  · intro hzero p hp
    by_contra hbit
    have hidx := (hb _ hp).2 (words_ne_zero (Nat.zero_lt_of_lt hp) (by simpa using hbit))
    simp [hzero] at hidx
  · intro hnone
    by_contra hne
    obtain ⟨i, hi, hbit⟩ := (ne_zero_iff _).1 hne
    obtain ⟨j, hj, hbit'⟩ := (ne_zero_iff _).1 ((hb i hi).1 hbit)
    obtain ⟨hdiv, hmod⟩ := mul_add_div_mod (i := i) hj
    have hfalse := hnone (i * w + j) (by omega)
    rw [bit, hdiv, hmod, hbit'] at hfalse
    exact Bool.noConfusion hfalse

/-- The two searches find `-1` exactly on the empty set. -/
theorem Consistent.highest_eq_neg_one_iff : b.highest = -1 ↔ ∀ p, p / w < w → b.bit p = false := by
  rw [← hb.index_eq_zero_iff]
  unfold highest
  split_ifs with hzero
  · simp [hzero]
  · exact ⟨False.elim, fun h => absurd h hzero⟩

/-- On a non-empty set the two searches find its greatest number. -/
theorem Consistent.highest_isGreatest (hp : p / w < w) (hbit : b.bit p = true) :
    ∃ q : ℕ, b.highest = q ∧ IsGreatest {q : ℕ | q / w < w ∧ b.bit q = true} q := by
  have hindex : b.index ≠ 0 := by
    intro hzero
    rw [hb.index_eq_zero_iff] at hzero
    simp [hzero p hp] at hbit
  have hw : 0 < w := Nat.zero_lt_of_lt hp
  obtain hi : b.index.getLsbD (msb b.index) = true := getLsbD_msb hindex
  have hlt : msb b.index < w := lt_of_getLsbD hi
  have hword : b.words (msb b.index) ≠ 0 := (hb _ hlt).1 hi
  have hj : (b.words (msb b.index)).getLsbD (msb (b.words (msb b.index))) = true :=
    getLsbD_msb hword
  have hjlt : msb (b.words (msb b.index)) < w := lt_of_getLsbD hj
  set i := msb b.index with hidef
  set j := msb (b.words i) with hjdef
  obtain ⟨hdiv, hmod⟩ := mul_add_div_mod (i := i) hjlt
  refine ⟨i * w + j, by rw [highest, if_neg hindex], ?_, ?_⟩
  · refine ⟨by omega, ?_⟩
    rw [bit, hdiv, hmod]
    exact hj
  · rintro q ⟨hq, hqbit⟩
    -- The word of `q` is not above the highest non-zero word, and within that word `q` is not
    -- above its most significant bit.
    have hqi : q / w ≤ i := le_msb ((hb _ hq).2 (words_ne_zero hw hqbit))
    rcases Nat.lt_or_eq_of_le hqi with hlt' | heq
    · exact ((Nat.div_lt_iff_lt_mul hw).1 hlt').le.trans (Nat.le_add_right ..)
    · have hqj : q % w ≤ j := by
        rw [bit, heq] at hqbit
        exact le_msb hqbit
      have hqdm := Nat.div_add_mod' q w
      rw [heq] at hqdm
      omega

end

end Bitmap

end TwoLevelBitmap
