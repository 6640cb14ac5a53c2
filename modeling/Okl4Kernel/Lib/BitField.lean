import Mathlib.Data.Int.Bitwise
import Mathlib.Tactic.Positivity
import Mathlib.Tactic.Ring

/-!
# Bit fields of a word

A word is packed from integers with shifts and `or`, as in a language with integers of any size, and
is taken apart again as a sequence of bit fields. `field lo width w` is the field of `width` bits
that starts at bit `lo`.

If the lower operand of an `or` stays below the place to which the upper one is shifted, the `or` is
a sum (`lor_shl`); otherwise the lower operand runs over into the field above.
-/

namespace BitField

/-- The value can be held by a field of `width` bits. -/
def Holds (width : ℕ) (x : ℤ) : Prop := 0 ≤ x ∧ x < 2 ^ width

instance (width : ℕ) (x : ℤ) : Decidable (Holds width x) := inferInstanceAs (Decidable (_ ∧ _))

/-- The field of `width` bits of a word that starts at bit `lo`. -/
def field (lo width w : ℕ) : ℕ := w / 2 ^ lo % 2 ^ width

lemma holds_field (lo width w : ℕ) : Holds width (field lo width w) := by
  have hlt : field lo width w < 2 ^ width := Nat.mod_lt _ (Nat.two_pow_pos width)
  exact ⟨Int.natCast_nonneg _, by exact_mod_cast hlt⟩

/-- The fields of a word that is packed from two values are these values. -/
theorem field_pack {k width w : ℕ} {a b : ℤ} (ha : Holds k a) (hb : Holds width b)
    (hw : (w : ℤ) = b * 2 ^ k + a) : (field 0 k w : ℤ) = a ∧ (field k width w : ℤ) = b := by
  obtain ⟨m, rfl⟩ := Int.eq_ofNat_of_zero_le ha.1
  obtain ⟨n, rfl⟩ := Int.eq_ofNat_of_zero_le hb.1
  have hm : m < 2 ^ k := by exact_mod_cast ha.2
  have hn : n < 2 ^ width := by exact_mod_cast hb.2
  obtain rfl : w = m + 2 ^ k * n := by
    have hnat : w = n * 2 ^ k + m := by exact_mod_cast hw
    rw [hnat]
    ring
  constructor
  · rw [field, pow_zero, Nat.div_one, Nat.add_mul_mod_self_left, Nat.mod_eq_of_lt hm]
  · rw [field, Nat.add_mul_div_left _ _ (Nat.two_pow_pos k), Nat.div_eq_of_lt hm, Nat.zero_add,
      Nat.mod_eq_of_lt hn]

/-- The shift of an integer to the left. -/
def shl (x : ℤ) (k : ℕ) : ℤ := x * 2 ^ k

lemma shl_nonneg {x : ℤ} (hx : 0 ≤ x) (k : ℕ) : 0 ≤ shl x k := by
  rw [shl]
  positivity

/-- The shift of an integer to the right, which rounds down. -/
def shr (x : ℤ) (k : ℕ) : ℤ := x / 2 ^ k

lemma lor_natCast (m n : ℕ) : Int.lor m n = ((m ||| n : ℕ) : ℤ) := rfl

/-- An `or` below the place of the upper operand is a sum. -/
theorem lor_shl {k : ℕ} {a b : ℤ} (ha : Holds k a) (hb : 0 ≤ b) :
    Int.lor (shl b k) a = b * 2 ^ k + a := by
  obtain ⟨m, rfl⟩ := Int.eq_ofNat_of_zero_le ha.1
  obtain ⟨n, rfl⟩ := Int.eq_ofNat_of_zero_le hb
  have hm : m < 2 ^ k := by exact_mod_cast ha.2
  have hshl : shl (n : ℤ) k = ((n <<< k : ℕ) : ℤ) := by
    rw [shl, Nat.shiftLeft_eq]
    push_cast
    rfl
  rw [hshl, lor_natCast, ← Nat.shiftLeft_add_eq_or_of_lt hm, Nat.shiftLeft_eq]
  push_cast
  rfl

lemma nonneg_of_lor {a b : ℤ} (h : 0 ≤ Int.lor a b) : 0 ≤ a := by
  cases a with
  | ofNat m => exact Int.natCast_nonneg m
  | negSucc m => cases b <;> exact absurd h (Int.negSucc_not_nonneg _).1

lemma lor_shl_zero {x : ℤ} (hx : 0 ≤ x) (k : ℕ) : Int.lor x (shl 0 k) = x := by
  obtain ⟨m, rfl⟩ := Int.eq_ofNat_of_zero_le hx
  rw [shl, zero_mul]
  change ((m ||| 0 : ℕ) : ℤ) = m
  rw [Nat.or_zero]

lemma mask_eq (k : ℕ) : shl 1 k - 1 = ((2 ^ k - 1 : ℕ) : ℤ) := by
  rw [shl, Nat.cast_sub Nat.one_le_two_pow]
  push_cast
  ring

/-- A mask of ones takes the remainder. -/
theorem land_mask (k : ℕ) {a : ℤ} (ha : 0 ≤ a) : Int.land a (shl 1 k - 1) = a % 2 ^ k := by
  obtain ⟨m, rfl⟩ := Int.eq_ofNat_of_zero_le ha
  rw [mask_eq]
  change ((m &&& (2 ^ k - 1) : ℕ) : ℤ) = _
  rw [Nat.and_two_pow_sub_one_eq_mod]
  push_cast
  rfl

lemma ldiff_two_pow_sub_one (m k : ℕ) : Nat.ldiff m (2 ^ k - 1) = m / 2 ^ k * 2 ^ k := by
  rw [← Nat.shiftRight_eq_div_pow, ← Nat.shiftLeft_eq]
  refine Nat.eq_of_testBit_eq fun i => ?_
  rw [Nat.testBit_ldiff, Nat.testBit_two_pow_sub_one, Nat.testBit_shiftLeft, Nat.testBit_shiftRight]
  by_cases hi : i < k
  · simp [hi]
  · simp [hi, Nat.add_sub_cancel' (not_lt.1 hi), not_lt.1 hi]

/-- Clearing the bits of a mask rounds down. -/
theorem land_lnot_mask (k : ℕ) {a : ℤ} (ha : 0 ≤ a) :
    Int.land a (Int.lnot (shl 1 k - 1)) = a / 2 ^ k * 2 ^ k := by
  obtain ⟨m, rfl⟩ := Int.eq_ofNat_of_zero_le ha
  rw [mask_eq]
  change ((Nat.ldiff m (2 ^ k - 1) : ℕ) : ℤ) = _
  rw [ldiff_two_pow_sub_one]
  push_cast
  rfl

end BitField
