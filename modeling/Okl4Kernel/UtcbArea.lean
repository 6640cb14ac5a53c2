import Okl4Kernel.BitmapAllocator
import Okl4Kernel.Fpage

/-!
# The UTCB area of a protection domain

`okl4_pd_create` reserves twice the size of the UTCB area in the virtual memory pool, aligns the
area to its size inside of the reserved range, and hands it to the kernel as a flexpage. The size is
a number of pages. But the size of a flexpage is a power of two, to which the kernel aligns the
address as well, so that the area and the flexpage agree only if the area happens to lie right
(`fits_iff`).
-/

namespace Okl4Kernel.UtcbArea

/-- `UTCB_SIZE`. -/
def utcbSize : ℕ := 2 ^ 8

/-- `OKL4_DEFAULT_PAGESIZE`. -/
def pageSize : ℕ := 2 ^ 12

/-- `ROUND_UP`, in words. -/
def roundUp (n d : ℕ) : ℕ := (n + d - 1) % 2 ^ 32 / d * d

variable (maxThreads : ℕ)

/-- The size of the area, as `construct_utcb_area` computes it. -/
def utcbAreaSize : ℕ := roundUp (maxThreads * utcbSize % 2 ^ 32) pageSize

/-- The size of the range that is reserved for the area. -/
def reservedSize : ℕ := utcbAreaSize maxThreads * 2 % 2 ^ 32

/-- A range that the pool has handed out. With an area of size zero, the alignment of the area
divides by zero. -/
structure Reservation (maxThreads : ℕ) where
  base : ℕ
  base_add_le : base + reservedSize maxThreads ≤ 2 ^ 32
  pos : 0 < utcbAreaSize maxThreads

/-- `L4_Fpage`. -/
def l4Fpage (base size : ℕ) : Fpage :=
  ⟨base / 1024, if 2 ^ size.log2 < size then size.log2 + 1 else size.log2⟩

/-- The words of the bitmap that `OKL4_BITMAP_ALLOCATOR_SIZE` has room for. -/
def reservedWords : ℕ := (maxThreads + 31) % 2 ^ 32 / 32

namespace Reservation

variable {maxThreads : ℕ} (r : Reservation maxThreads)

/-- The base of the area. -/
def areaBase : ℕ := roundUp r.base (utcbAreaSize maxThreads)

/-- The flexpage that `okl4_kspace_create` hands to the kernel. -/
def fpage : Fpage := l4Fpage r.areaBase (utcbAreaSize maxThreads)

/-- The allocator of `okl4_utcb_area_init`. -/
def allocator (maxThreads : ℕ) : BitmapAllocator.Allocator :=
  .init 0 (utcbAreaSize maxThreads / utcbSize)

/-- The area is in the reserved range, its UTCBs are in the flexpage, and its bitmap is in the
memory that is reserved for it. -/
structure Fits : Prop where
  reserved : r.base ≤ r.areaBase ∧
    r.areaBase + utcbAreaSize maxThreads ≤ r.base + reservedSize maxThreads
  utcb : ∀ unit, (allocator maxThreads).InRange unit →
    r.fpage.getAddress ≤ r.areaBase + unit * utcbSize ∧
      r.areaBase + unit * utcbSize + utcbSize ≤ r.fpage.getAddress + r.fpage.getSize
  bitmap : (utcbAreaSize maxThreads / utcbSize - 1) / 32 + 1 ≤ reservedWords maxThreads

lemma inRange_iff {unit : ℕ} : (allocator maxThreads).InRange unit ↔
    unit < utcbAreaSize maxThreads / utcbSize := by
  simp [allocator, BitmapAllocator.Allocator.InRange, BitmapAllocator.Allocator.init]

/-- The kernel aligns the base of the area to the size of the flexpage. -/
theorem getAddress_fpage : r.fpage.getAddress = r.areaBase / r.fpage.getSize * r.fpage.getSize := by
  have hpage : 1024 ∣ utcbAreaSize maxThreads :=
    dvd_mul_of_dvd_right (show 1024 ∣ pageSize by decide) _
  have hbase : r.areaBase / 1024 * 1024 = r.areaBase :=
    Nat.div_mul_cancel (dvd_mul_of_dvd_right hpage _)
  rw [Fpage.getAddress, show r.fpage.base = r.areaBase / 1024 from rfl, hbase, Fpage.getSize]

/-- If the size can be doubled in a word, the area lies in the reserved range. -/
theorem reserved_of_lt (hsize : utcbAreaSize maxThreads < 2 ^ 31) : r.base ≤ r.areaBase ∧
    r.areaBase + utcbAreaSize maxThreads ≤ r.base + reservedSize maxThreads := by
  have hpos := r.pos
  have hle := r.base_add_le
  have hreserved : reservedSize maxThreads = utcbAreaSize maxThreads * 2 :=
    Nat.mod_eq_of_lt (by omega)
  rw [hreserved] at hle ⊢
  have hword : (r.base + utcbAreaSize maxThreads - 1) % 2 ^ 32 =
      r.base + utcbAreaSize maxThreads - 1 := Nat.mod_eq_of_lt (by omega)
  rw [areaBase, roundUp, hword]
  have hlower := Nat.div_mul_le_self (r.base + utcbAreaSize maxThreads - 1)
    (utcbAreaSize maxThreads)
  have hupper := Nat.lt_div_mul_add (a := r.base + utcbAreaSize maxThreads - 1) hpos
  omega

/-- The area fits exactly if its size can be doubled in a word, and the power of two to which the
kernel rounds its size has no boundary inside of the area. -/
theorem fits_iff : r.Fits ↔ utcbAreaSize maxThreads < 2 ^ 31 ∧
    r.areaBase % r.fpage.getSize + utcbAreaSize maxThreads ≤ r.fpage.getSize := by
  have hpos := r.pos
  have haddress := r.getAddress_fpage
  have hmod := Nat.div_add_mod' r.areaBase r.fpage.getSize
  have hunits : utcbAreaSize maxThreads / utcbSize * utcbSize = utcbAreaSize maxThreads :=
    Nat.div_mul_cancel (dvd_mul_of_dvd_right (show utcbSize ∣ pageSize by decide) _)
  constructor
  · intro h
    have hreserved := h.reserved
    -- The last UTCB ends where the area ends.
    have hlast := (h.utcb (utcbAreaSize maxThreads / utcbSize - 1) (inRange_iff.2 (by
      simp only [utcbSize] at *
      omega))).2
    simp only [reservedSize, utcbSize] at *
    omega
  · rintro ⟨hsize, hinside⟩
    refine ⟨r.reserved_of_lt hsize, fun unit hunit => ?_, ?_⟩
    · have hlt := inRange_iff.1 hunit
      simp only [utcbSize] at *
      omega
    · unfold reservedWords
      unfold utcbAreaSize roundUp utcbSize pageSize at *
      omega

end Reservation

/-- An area of three pages for 33 threads crosses the boundary of a flexpage of four pages. -/
theorem not_fits_three_pages : ∃ r : Reservation 33, r.base = 0x1000 ∧ ¬ r.Fits :=
  ⟨⟨0x1000, by decide, by decide⟩, rfl, fun h =>
    absurd (h.utcb 47 ⟨by decide, by decide⟩).2 (by decide)⟩

end Okl4Kernel.UtcbArea
