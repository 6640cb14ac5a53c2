import Mathlib.Data.Nat.Bitwise

/-!
# Bit fields of fixed-width words

A bit field of a word is a run of bits, given by its lowest bit and its width. Reading a field
gives a word that holds only these bits; writing one stores the lowest bits of a word into it and
leaves the rest of the word alone.

What is written is read back, and a write does not change what is read from a disjoint field, so
that a word that is assembled field by field can be taken apart again in any order.
-/

namespace WordField

open BitVec

variable {n : ℕ}

/-- A run of `width` bits that starts at bit `lo`. -/
structure Field where
  lo : ℕ
  width : ℕ
  deriving DecidableEq, Repr

/-- The word whose lowest `width` bits are set. -/
def ones (n width : ℕ) : BitVec n := (allOnes width).setWidth n

/-- The lowest `width` bits of a word. -/
def low (width : ℕ) (v : BitVec n) : BitVec n := v &&& ones n width

variable (f : Field)

/-- The value of a field. -/
def get (r : BitVec n) : BitVec n := low f.width (r >>> f.lo)

/-- The word with a new value in a field. -/
def set (v r : BitVec n) : BitVec n :=
  (r &&& ~~~(ones n f.width <<< f.lo)) ||| (low f.width v <<< f.lo)

/-- The fields have no bit in common. -/
def Disjoint (f g : Field) : Prop := f.lo + f.width ≤ g.lo ∨ g.lo + g.width ≤ f.lo

instance (f g : Field) : Decidable (Disjoint f g) := inferInstanceAs (Decidable (_ ∨ _))

/-! ## Single bits -/

lemma getLsbD_ones (width i : ℕ) :
    (ones n width).getLsbD i = (decide (i < n) && decide (i < width)) := by
  simp [ones, getLsbD_setWidth]

lemma getLsbD_low (width : ℕ) (v : BitVec n) (i : ℕ) :
    (low width v).getLsbD i = (decide (i < width) && v.getLsbD i) := by
  rw [low, getLsbD_and, getLsbD_ones]
  by_cases hi : i < n
  · simp [hi, Bool.and_comm]
  · simp [hi, getLsbD_of_ge v i (not_lt.1 hi)]

lemma getLsbD_get (r : BitVec n) (i : ℕ) :
    (get f r).getLsbD i = (decide (i < f.width) && r.getLsbD (f.lo + i)) := by
  rw [get, getLsbD_low, getLsbD_ushiftRight]

/-- A write changes the bits of its field only. -/
theorem getLsbD_set (v r : BitVec n) {i : ℕ} (hi : i < n) : (set f v r).getLsbD i =
      if f.lo ≤ i ∧ i < f.lo + f.width then v.getLsbD (i - f.lo) else r.getLsbD i := by
  have hsub : i - f.lo < n := by omega
  simp only [set, getLsbD_or, getLsbD_and, getLsbD_not,
    getLsbD_shiftLeft, getLsbD_ones, getLsbD_low, hi, hsub, decide_true, Bool.true_and]
  by_cases hlo : i < f.lo
  · simp [hlo]
  · by_cases hwidth : i < f.lo + f.width
    · have hin : i - f.lo < f.width := by omega
      simp [hlo, hwidth, hin, not_lt.1 hlo]
    · have hout : ¬ i - f.lo < f.width := by omega
      simp [hlo, hwidth, hout]

/-! ## Fields -/

lemma get_set_self {f : Field} (hf : f.lo + f.width ≤ n) (v r : BitVec n) :
    get f (set f v r) = low f.width v := by
  refine eq_of_getLsbD_eq fun i _ => ?_
  rw [getLsbD_get, getLsbD_low]
  by_cases hi : i < f.width
  · rw [getLsbD_set f v r (show f.lo + i < n by omega), if_pos ⟨by omega, by omega⟩]
    simp
  · simp [hi]

lemma get_set_of_disjoint {f g : Field} (hfg : Disjoint f g) (v r : BitVec n) :
    get f (set g v r) = get f r := by
  refine eq_of_getLsbD_eq fun i _ => ?_
  rw [getLsbD_get, getLsbD_get]
  by_cases hi : i < f.width
  · by_cases hn : f.lo + i < n
    · rw [getLsbD_set g v r hn, if_neg]
      rcases hfg with h | h <;> omega
    · rw [getLsbD_of_ge _ _ (not_lt.1 hn), getLsbD_of_ge _ _ (not_lt.1 hn)]
  · simp [hi]

lemma get_and (r m : BitVec n) : get f (r &&& m) = get f r &&& get f m := by
  refine eq_of_getLsbD_eq fun i _ => ?_
  simp only [getLsbD_get, getLsbD_and]
  by_cases hi : i < f.width <;> simp [hi]

/-- A mask that keeps all bits of a field keeps its value. -/
theorem get_and_of_ones {f : Field} {m : BitVec n} (hm : get f m = ones n f.width) (r : BitVec n) :
    get f (r &&& m) = get f r := by
  rw [get_and, hm]
  refine eq_of_getLsbD_eq fun i hn => ?_
  rw [getLsbD_and, getLsbD_ones, getLsbD_get]
  by_cases hi : i < f.width <;> simp [hi, hn]

lemma get_zero : get f (0 : BitVec n) = 0 := by
  refine eq_of_getLsbD_eq fun i _ => ?_
  simp [getLsbD_get]

lemma low_get (r : BitVec n) : low f.width (get f r) = get f r := by
  refine eq_of_getLsbD_eq fun i _ => ?_
  rw [getLsbD_low, getLsbD_get]
  by_cases hi : i < f.width <;> simp [hi]

lemma low_of_lt {width : ℕ} {v : BitVec n} (hv : v.toNat < 2 ^ width) : low width v = v := by
  refine eq_of_getLsbD_eq fun i _ => ?_
  rw [getLsbD_low]
  by_cases hi : i < width
  · simp [hi]
  · have hbit : v.getLsbD i = false :=
      Nat.testBit_lt_two_pow (lt_of_lt_of_le hv (Nat.pow_le_pow_right Nat.two_pos (not_lt.1 hi)))
    simp [hi, hbit]

/-- The low part of a word is below the power of its width. -/
lemma toNat_low_lt (width : ℕ) (v : BitVec n) : (low width v).toNat < 2 ^ width := by
  refine Nat.lt_pow_two_of_testBit _ fun i hi => ?_
  have hbit := getLsbD_low width v i
  rw [decide_eq_false (not_lt.2 hi), Bool.false_and] at hbit
  exact hbit

end WordField
