import Mathlib.Tactic
import Okl4Kernel.Word

/-!
# Flexpages

A flexpage (`fpage_t`) is a size-aligned region of the address space: the number of its first
kilobyte in 22 bits, and the logarithm of its size in 6 bits. Addresses are words of 32 bits.
-/

namespace Okl4Kernel

/-- `fpage_t`, without the access rights. -/
structure Fpage where
  base : ℕ
  size : ℕ
  deriving DecidableEq, Repr

namespace Fpage

variable (fp : Fpage)

/-- `is_complete_fpage`: the value that stands for the whole address space. -/
def isComplete : Bool := fp.size = 1 ∧ fp.base = 0

/-- `get_address`: the base, aligned to the size. -/
def getAddress : ℕ := fp.base * 1024 / 2 ^ fp.size * 2 ^ fp.size

/-- `get_size`. -/
def getSize : ℕ := 2 ^ fp.size

/-- The address behind the flexpage. -/
def getEnd : ℕ := (fp.getAddress + fp.getSize) % wordSpace

/-- `is_range_in_fpage`. -/
def isRangeInFpage (first last : ℕ) : Bool :=
  fp.isComplete ∨ (fp.getAddress ≤ first ∧ last ≤ fp.getEnd)

end Fpage

/-- `USER_AREA_END` on SH. -/
def userAreaEnd : ℕ := 0x7f000000

/-- `is_user_area` of an address. -/
def isUserArea (addr : ℕ) : Bool := addr < userAreaEnd

/-- `is_user_area` of a flexpage. -/
def Fpage.isUserArea (fp : Fpage) : Bool :=
  Okl4Kernel.isUserArea fp.getAddress ∧
    Okl4Kernel.isUserArea ((fp.getAddress + (fp.getSize - 1)) % wordSpace)

end Okl4Kernel
