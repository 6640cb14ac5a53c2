import Okl4Kernel.PageTableEntry

/-!
# Sharing the kernel's part of a page table

Every space has a first-level table of its own, whose upper part repeats the entries of the kernel
space. When the kernel enters something there later, the other spaces learn of it by a fault:
`sync_kernel_space` copies the entry of the kernel space.

Whether an entry is in use is tested with the two lowest bits of the word. On SH these are not the
valid bit and the subtree bit but the write-through and the shared attribute, so that a 1M page that
is neither shared nor write-through counts as absent, and a second-level table always does.
-/

namespace Okl4Kernel.PageTable

open WordField hiding set

/-- `page_table_index`. -/
def pageTableIndex (size : PageSize) (vaddr : ℕ) : ℕ :=
  match size with
  | .size1m => vaddr / 2 ^ 20 % 4096
  | .size64k => vaddr / 2 ^ 16 % 16
  | .size4k => vaddr / 2 ^ 12 % 16

/-- The second-level tables, by their physical addresses. -/
abbrev Tables := Entry → Row

/-- `lookup_mapping`: the entry of the page at a virtual address and the size of the page. -/
def lookupMapping (dir : Row) (tables : Tables) (vaddr : ℕ) : Option (Entry × PageSize) :=
  let e := dir (pageTableIndex .size1m vaddr)
  if isValid .size1m e then
    if isSubtree .size1m e then
      let row := tables (addressTable e)
      let i := 16 * pageTableIndex .size64k vaddr
      if isValid .size64k (row i) then
        if isSubtree .size64k (row i) then
          let j := i + pageTableIndex .size4k vaddr
          if isValid .size4k (row j) then some (row j, .size4k) else none
        else some (row i, .size64k)
      else none
    else some (e, .size1m)
  else none

/-- `sync_kernel_space` in a space other than the kernel space: the result, and the first-level
table of the space. -/
def syncKernelSpace (kernel dir : Row) (addr : ℕ) : Bool × Row :=
  let i := pageTableIndex .size1m addr
  if dir i &&& 0x3 ≠ 0 ∨ ¬ kernel i &&& 0x3 ≠ 0 then (false, dir)
  else (true, Function.update dir i (kernel i))

/-- A fault at the address is answered as it should be. -/
structure Synchronises (kernel dir : Row) (addr : ℕ) : Prop where
  /-- The entry is copied if the kernel has one and the space has none. -/
  result : (syncKernelSpace kernel dir addr).1 = true ↔
    isValid .size1m (kernel (pageTableIndex .size1m addr)) = true ∧
      isValid .size1m (dir (pageTableIndex .size1m addr)) = false
  /-- Nothing but an invalid entry for the address is overwritten. -/
  keeps : ∀ i, i ≠ pageTableIndex .size1m addr ∨ isValid .size1m (dir i) = true →
    (syncKernelSpace kernel dir addr).2 i = dir i
  /-- A space whose entry is copied has the mapping of the kernel space at the address. -/
  agrees : (syncKernelSpace kernel dir addr).1 = true →
    ∀ tables, lookupMapping (syncKernelSpace kernel dir addr).2 tables addr =
      lookupMapping kernel tables addr

/-- What the test of the two lowest bits finds in an entry. -/
def Marked (e : Entry) : Prop := e &&& 0x3 ≠ 0

instance (e : Entry) : Decidable (Marked e) := inferInstanceAs (Decidable (_ ≠ _))

lemma syncKernelSpace_of_marked {kernel dir : Row} {addr : ℕ}
    (hdir : ¬ Marked (dir (pageTableIndex .size1m addr)))
    (hkernel : Marked (kernel (pageTableIndex .size1m addr))) : syncKernelSpace kernel dir addr =
      (true, Function.update dir (pageTableIndex .size1m addr)
        (kernel (pageTableIndex .size1m addr))) :=
  if_neg (by
    rintro (h | h)
    · exact hdir h
    · exact h hkernel)

lemma syncKernelSpace_of_not_marked {kernel dir : Row} {addr : ℕ}
    (h : Marked (dir (pageTableIndex .size1m addr)) ∨
      ¬ Marked (kernel (pageTableIndex .size1m addr))) :
    syncKernelSpace kernel dir addr = (false, dir) :=
  if_pos h

/-- Whether an entry is copied is decided by the two marks. -/
lemma syncKernelSpace_fst_iff (kernel dir : Row) (addr : ℕ) :
    (syncKernelSpace kernel dir addr).1 = true ↔
      Marked (kernel (pageTableIndex .size1m addr)) ∧
        ¬ Marked (dir (pageTableIndex .size1m addr)) := by
  by_cases h : Marked (dir (pageTableIndex .size1m addr)) ∨
      ¬ Marked (kernel (pageTableIndex .size1m addr))
  · rw [syncKernelSpace_of_not_marked h]
    simp only [Bool.false_eq_true, false_iff]
    tauto
  · obtain ⟨hdir, hkernel⟩ := not_or.1 h
    rw [syncKernelSpace_of_marked hdir (not_not.1 hkernel)]
    exact ⟨fun _ => ⟨not_not.1 hkernel, hdir⟩, fun _ => rfl⟩

/-- A fault at an address is answered as it should be exactly if the marks of the two entries tell
which of them are valid: the kernel's entry is marked and the entry of the space is not if the
former is valid and the latter is not, and not otherwise. -/
theorem synchronises_iff (kernel dir : Row) (addr : ℕ) : Synchronises kernel dir addr ↔
      if isValid .size1m (kernel (pageTableIndex .size1m addr)) = true ∧
          isValid .size1m (dir (pageTableIndex .size1m addr)) = false then
        Marked (kernel (pageTableIndex .size1m addr)) ∧
          ¬ Marked (dir (pageTableIndex .size1m addr)) else
        ¬ Marked (kernel (pageTableIndex .size1m addr)) ∨
          Marked (dir (pageTableIndex .size1m addr)) := by
  set i := pageTableIndex .size1m addr with hi
  have hfst := syncKernelSpace_fst_iff kernel dir addr
  constructor
  · intro hsync
    have hresult := hfst.symm.trans hsync.result
    split_ifs with hvalid
    · exact hresult.2 hvalid
    · have := mt hresult.1 hvalid
      tauto
  · intro hmarks
    have hresult : (Marked (kernel i) ∧ ¬ Marked (dir i)) ↔
        isValid .size1m (kernel i) = true ∧ isValid .size1m (dir i) = false := by
      split_ifs at hmarks with hvalid
      · exact ⟨fun _ => hvalid, fun _ => hmarks⟩
      · exact ⟨fun h => by tauto, fun h => absurd h hvalid⟩
    refine ⟨hfst.trans hresult, ?_, ?_⟩
    · intro j hj
      by_cases hcopy : Marked (kernel i) ∧ ¬ Marked (dir i)
      · rw [syncKernelSpace_of_marked hcopy.2 hcopy.1]
        have hinvalid := (hresult.1 hcopy).2
        have hne : j ≠ i := by
          rintro rfl
          rcases hj with hj | hj
          · exact hj rfl
          · rw [hinvalid] at hj
            exact absurd hj (by decide)
        exact Function.update_of_ne hne _ _
      · rw [syncKernelSpace_of_not_marked (by tauto)]
    · intro hcopied tables
      obtain ⟨hkernel, hdir⟩ := hfst.1 hcopied
      rw [syncKernelSpace_of_marked hdir hkernel]
      simp only [lookupMapping, Function.update_self]

/-- A second-level table in the kernel area of an otherwise empty kernel space. -/
def kernelTable : Row := makeSubtree emptyRow 0x800 .size1m 0x8000400

/-- The table of the kernel is valid, and a space that lacks it does not get it. -/
theorem not_synchronises_kernelTable : ¬ Synchronises kernelTable emptyRow 0x80000000 := by
  intro hsync
  have hresult := hsync.result.2 (by decide)
  exact absurd hresult (by decide)

end Okl4Kernel.PageTable
