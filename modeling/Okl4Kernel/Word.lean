import Mathlib.Algebra.GroupWithZero.Nat

/-!
# Words

The machine has words of 32 bits, and an address is a word. Addresses and sizes are natural numbers
below `wordSpace` in most of the models; `Word` is used where the type has to be finite, or has to
keep the bound.
-/

namespace Okl4Kernel

/-- The number of values of a `word_t`, which is also the number of addresses. -/
def wordSpace : ℕ := 2 ^ 32

instance : NeZero wordSpace := ⟨Nat.ne_of_gt (Nat.two_pow_pos 32)⟩

/-- A word, `word_t`. -/
abbrev Word := Fin wordSpace

end Okl4Kernel
