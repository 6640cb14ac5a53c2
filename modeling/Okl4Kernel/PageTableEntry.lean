import Okl4Kernel.Lib.TransitionSystem
import Okl4Kernel.Lib.WordField

/-!
# Entries of the SH page tables

A page table has two levels. An entry of the first level is a 1M page or the place of a table of
the second level; an entry of the second level is a 4K page or a part of a 64K page, which occupies
sixteen entries with the same word. The three kinds of page entries are bit fields of one word that
differ in where the executable bit, the subtree bit and the frame stand.

`setEntry` writes an entry, and the decoders read it again. They give back what was written only in
part. Read permission is not stored, the write permission of a kernel page is read as absent, only
the three lowest bits of the attributes have a place, and the word for the hardware has no room for
frames above the lowest 512M.

The subtree bit of a 4K entry survives `setEntry` and `clear`. It says that the sixteen entries of
a group are 4K pages on their own, so that the first entry alone tells whether the group is a 64K
page; if it is, the sixteen words are equal.
-/

namespace Okl4Kernel.PageTable

variable {i j : ℕ}

open TransitionSystem Function BitVec WordField
open WordField hiding set

/-- A page table entry (`pgent_t`), or another machine word. -/
abbrev Entry := BitVec 32

/-- `pgsize_e`, without the size of the whole address space. -/
inductive PageSize where
  | size4k
  | size64k
  | size1m
  deriving DecidableEq, Repr

/-- `page_shift`. -/
def PageSize.shift : PageSize → ℕ
  | size4k => 12
  | size64k => 16
  | size1m => 20

/-- The number of consecutive entries that a page takes. -/
def PageSize.slots : PageSize → ℕ
  | size64k => 16
  | _ => 1

/-! ## Layouts -/

/-- The bit fields of a page entry. -/
structure Layout where
  wt : Field
  shared : Field
  cache : Field
  size0 : Field
  perm : Field
  size1 : Field
  valid : Field
  tree : Field
  x : Field
  baseAddress : Field

/-- The structure of 1M page entries. -/
def large : Layout where
  wt := ⟨0, 1⟩
  shared := ⟨1, 1⟩
  cache := ⟨3, 1⟩
  size0 := ⟨4, 1⟩
  perm := ⟨5, 2⟩
  size1 := ⟨7, 1⟩
  valid := ⟨8, 1⟩
  tree := ⟨9, 1⟩
  x := ⟨10, 1⟩
  baseAddress := ⟨20, 12⟩

/-- The structure of 64K page entries. -/
def medium : Layout where
  wt := ⟨0, 1⟩
  shared := ⟨1, 1⟩
  cache := ⟨3, 1⟩
  size0 := ⟨4, 1⟩
  perm := ⟨5, 2⟩
  size1 := ⟨7, 1⟩
  valid := ⟨8, 1⟩
  x := ⟨9, 1⟩
  tree := ⟨10, 1⟩
  baseAddress := ⟨16, 16⟩

/-- The structure of 4K page entries. -/
def small : Layout where
  wt := ⟨0, 1⟩
  shared := ⟨1, 1⟩
  cache := ⟨3, 1⟩
  size0 := ⟨4, 1⟩
  perm := ⟨5, 2⟩
  size1 := ⟨7, 1⟩
  valid := ⟨8, 1⟩
  x := ⟨9, 1⟩
  tree := ⟨10, 1⟩
  baseAddress := ⟨12, 20⟩

/-- The place of a second-level table in a first-level entry. -/
def tableBaseAddress : Field := ⟨10, 22⟩

/-- `SH_L2_BITS`: the logarithm of the size of a second-level table. -/
def l2Bits : ℕ := 10

/-- The layout of the entries for a page size. -/
def PageSize.layout : PageSize → Layout
  | size4k => small
  | size64k => medium
  | size1m => large

/-! ## Decoders -/

variable (size : PageSize) (e : Entry)

/-- `is_valid`. -/
def isValid : Bool :=
  match size with
  | .size1m => get large.valid e == 1 || get large.tree e == 1
  | .size64k => get medium.valid e == 1 || get medium.tree e == 1
  | .size4k => get small.valid e == 1

/-- `is_writable`. -/
def isWritable : Bool := get size.layout.perm e == 3

/-- `is_readable`. -/
def isReadable (_ : PageSize) (_ : Entry) : Bool := true

/-- `is_executable`. -/
def isExecutable : Bool := get size.layout.x e == 1

/-- `is_kernel`. -/
def isKernel : Bool := get size.layout.perm e ≤ 1

/-- `is_subtree`. -/
def isSubtree : Bool :=
  match size with
  | .size1m => get large.tree e == 1
  | .size64k => get medium.tree e == 1
  | .size4k => false

/-- `address`. -/
def address : Entry := get size.layout.baseAddress e <<< size.shift

/-- `address_table`: the physical address of the second-level table. -/
def addressTable : Entry := get tableBaseAddress e <<< l2Bits

/-- `ARCH_CACHE_ATTRIB_CACHED_BIT`. -/
def attribCachedBit : ℕ := 0

/-- `ARCH_CACHE_ATTRIB_MODE_BIT`. -/
def attribModeBit : ℕ := 1

/-- `ARCH_CACHE_ATTRIB_SHARED_BIT`. -/
def attribSharedBit : ℕ := 2

/-- `get_attributes`. -/
def getAttributes : Entry :=
  get size.layout.shared e <<< attribSharedBit ||| get size.layout.wt e <<< attribModeBit |||
    get size.layout.cache e <<< attribCachedBit

/-- `REG_PTEL_MASK`, without the bits of the entry that belong neither to the frame nor to the
flags. -/
def ptelMask : PageSize → Entry
  | .size1m => 0x1FFFFDFF &&& ~~~0x000FFC00
  | .size64k => 0x1FFFFDFF &&& ~~~0x0000FC00
  | .size4k => 0x1FFFFDFF &&& ~~~0x00000C00

/-- `ptel`: the word for the hardware. -/
def ptel : Entry := e &&& ptelMask size

/-! ## Writing entries -/

/-- What `set_entry` is told to store. -/
structure Mapping where
  /-- The physical address of the page. -/
  paddr : Entry
  readable : Bool
  writable : Bool
  executable : Bool
  /-- The page belongs to the kernel. -/
  kernel : Bool
  /-- The caching attributes (`memattrib_e`). -/
  attrib : Entry
  deriving DecidableEq, Repr

/-- A condition as the value of a bit field. -/
def flag (b : Bool) : Entry := if b then 1 else 0

/-- The permission bits of an entry. -/
def Mapping.perm (m : Mapping) : Entry := if m.kernel then flag m.writable else 2 ||| flag m.writable

/-- The fields that `set_entry` writes for every page size. -/
def encode (m : Mapping) (e : Entry) : Entry :=
  let l := size.layout
  e |> set l.valid 1
    |> set l.x (flag m.executable)
    |> set l.perm m.perm
    |> set l.shared (m.attrib >>> attribSharedBit &&& 1)
    |> set l.wt (m.attrib >>> attribModeBit &&& 1)
    |> set l.cache (m.attrib >>> attribCachedBit &&& 1)
    |> set l.baseAddress (m.paddr >>> size.shift)

/-- A table, or any other array of entries. -/
abbrev Row := ℕ → Entry

variable (row : Row)

/-- `sync_large`: the fifteen entries after the first one of a 64K page are overwritten. -/
def syncLarge (i : ℕ) (val : Entry) : Row :=
  (List.range' 1 15).foldl (fun row k => update row (i + k) val) row

/-- `set_entry` on entry `i` of a table. -/
def setEntry (i : ℕ) (size : PageSize) (m : Mapping) : Row :=
  match size with
  | .size4k =>
    let e := set small.tree (get small.tree (row i)) 0
    update row i (encode .size4k m (set small.size0 1 e))
  | .size1m =>
    let e := set large.size0 1 0
    update row i (encode .size1m m (set large.size1 1 e))
  | .size64k =>
    let e := encode .size64k m (set medium.size1 1 0)
    syncLarge (update row i e) i e

/-- `clear` on entry `i` of a table. -/
def clear (i : ℕ) (size : PageSize) : Row :=
  match size with
  | .size64k => syncLarge (update row i 0) i 0
  | .size4k => update row i (set small.tree (get small.tree (row i)) 0)
  | .size1m => update row i 0

/-- `make_subtree` on entry `i` of a table, where `base` is the physical address of the new
second-level table. -/
def makeSubtree (i : ℕ) (size : PageSize) (base : Entry) : Row :=
  match size with
  | .size1m =>
    let e := set large.tree 1 0
    update row i (set tableBaseAddress (base >>> l2Bits) e)
  | .size64k =>
    let e := set medium.tree 1 (row i)
    syncLarge (update row i e) i e
  | .size4k => row

/-- `remove_subtree` on entry `i` of a table. -/
def removeSubtree (i : ℕ) (size : PageSize) : Row :=
  match size with
  | .size1m => clear (update row i (set large.tree 0 (row i))) i .size1m
  | size => clear (update row i (set medium.tree 0 (row i))) i size

/-! ## Which entries are written -/

lemma foldl_update_apply (i : ℕ) (val : Entry) (ks : List ℕ) (row : Row) (j : ℕ) :
    ks.foldl (fun row k => update row (i + k) val) row j =
      if ∃ k ∈ ks, j = i + k then val else row j := by
  induction ks generalizing row with
  | nil => simp
  | cons k ks ih =>
    rw [List.foldl_cons, ih]
    by_cases hks : ∃ k ∈ ks, j = i + k
    · have hcons : ∃ k' ∈ k :: ks, j = i + k' := by
        obtain ⟨k', hk', hj⟩ := hks
        exact ⟨k', List.mem_cons_of_mem k hk', hj⟩
      rw [if_pos hks, if_pos hcons]
    · by_cases hk : j = i + k
      · rw [if_neg hks, if_pos ⟨k, List.mem_cons_self, hk⟩, hk, update_self]
      · have hcons : ¬ ∃ k' ∈ k :: ks, j = i + k' := by
          simpa [hk] using hks
        rw [if_neg hks, if_neg hcons, update_of_ne hk]

/-- A word that is stored at the first entry and synchronised is stored at all sixteen. -/
lemma syncLarge_update_apply (i : ℕ) (val : Entry) (j : ℕ) : syncLarge (update row i val) i val j =
      if i ≤ j ∧ j < i + 16 then val else row j := by
  rw [syncLarge, foldl_update_apply]
  by_cases hj : i ≤ j ∧ j < i + 16
  · rw [if_pos hj]
    by_cases hfirst : j = i
    · subst hfirst
      simp
    · rw [if_pos ⟨j - i, List.mem_range'_1.2 (by omega), by omega⟩]
  · rw [if_neg hj, if_neg, update_of_ne (by omega)]
    rintro ⟨k, hk, rfl⟩
    have := List.mem_range'_1.1 hk
    omega

/-- The entries of the page whose first entry is `i`. -/
def PageSize.Covers (i j : ℕ) : Prop := i ≤ j ∧ j < i + size.slots

/-- The word that `setEntry` stores, given what the first entry of the page held. -/
def stored (m : Mapping) (old : Entry) : Entry :=
  match size with
  | .size4k =>
    encode .size4k m (set small.size0 1 (set small.tree (get small.tree old) 0))
  | .size1m => encode .size1m m (set large.size1 1 (set large.size0 1 0))
  | .size64k => encode .size64k m (set medium.size1 1 0)

variable {size : PageSize}

/-- Every entry of the page holds the word that is stored. -/
theorem setEntry_apply_of_covers (hj : size.Covers i j) (row : Row) (m : Mapping) :
    setEntry row i size m j = stored size m (row i) := by
  obtain ⟨hle, hlt⟩ := hj
  cases size with
  | size64k => exact (syncLarge_update_apply row i _ j).trans (if_pos ⟨hle, hlt⟩)
  | size4k | size1m =>
    obtain rfl : j = i := by
      simp only [PageSize.slots] at hlt
      omega
    exact update_self _ _ _

/-- The operations on one entry. -/
inductive EntryOp where
  | setEntry (m : Mapping)
  | clear
  | makeSubtree (base : Entry)
  | removeSubtree
  deriving DecidableEq, Repr

/-- The operation on entry `i` of a table, as an entry for pages of the given size. -/
def EntryOp.apply (op : EntryOp) (row : Row) (i : ℕ) (size : PageSize) : Row :=
  match op with
  | .setEntry m => PageTable.setEntry row i size m
  | .clear => PageTable.clear row i size
  | .makeSubtree base => PageTable.makeSubtree row i size base
  | .removeSubtree => PageTable.removeSubtree row i size

lemma clear_apply_of_not_covers (hj : ¬ size.Covers i j) (row : Row) :
    clear row i size j = row j := by
  cases size with
  | size64k => exact (syncLarge_update_apply row i 0 j).trans (if_neg hj)
  | size4k | size1m =>
    have hne : j ≠ i := by
      rintro rfl
      exact hj ⟨le_rfl, Nat.lt_succ_self j⟩
    exact update_of_ne hne _ _

/-- An operation on a page leaves the entries of the other pages as they are. -/
theorem EntryOp.apply_of_not_covers (op : EntryOp) (hj : ¬ size.Covers i j) (row : Row) :
    op.apply row i size j = row j := by
  have hne : j ≠ i := by
    rintro rfl
    exact hj ⟨le_rfl, by cases size <;> exact Nat.lt_add_of_pos_right (by decide)⟩
  cases op with
  | setEntry m =>
    cases size with
    | size64k => exact (syncLarge_update_apply row i _ j).trans (if_neg hj)
    | size4k | size1m => exact update_of_ne hne _ _
  | clear => exact clear_apply_of_not_covers hj row
  | makeSubtree base =>
    cases size with
    | size64k => exact (syncLarge_update_apply row i _ j).trans (if_neg hj)
    | size1m => exact update_of_ne hne _ _
    | size4k => rfl
  | removeSubtree =>
    cases size <;> exact (clear_apply_of_not_covers hj _).trans (update_of_ne hne _ _)

/-! ## Reading back what was written -/

/-- The bit fields of an entry that was written for a mapping. -/
structure Holds (size : PageSize) (m : Mapping) (e : Entry) : Prop where
  valid : get size.layout.valid e = 1
  leaf : isSubtree size e = false
  size0 : get size.layout.size0 e = flag (size ≠ .size64k)
  size1 : get size.layout.size1 e = flag (size ≠ .size4k)
  x : get size.layout.x e = flag m.executable
  perm : get size.layout.perm e = m.perm
  shared : get size.layout.shared e = m.attrib >>> attribSharedBit &&& 1
  wt : get size.layout.wt e = m.attrib >>> attribModeBit &&& 1
  cache : get size.layout.cache e = m.attrib >>> attribCachedBit &&& 1
  frame : get size.layout.baseAddress e =
    low size.layout.baseAddress.width (m.paddr >>> size.shift)

lemma low_flag (b : Bool) : low 1 (flag b) = flag b := by
  cases b <;> rfl

lemma low_perm (m : Mapping) : low 2 m.perm = m.perm := by
  unfold Mapping.perm
  cases m.kernel <;> cases m.writable <;> rfl

lemma low_bit (v : Entry) : low 1 (v &&& 1) = v &&& 1 := by
  refine low_of_lt ?_
  exact lt_of_le_of_lt Nat.and_le_right (by decide)

lemma holds_stored (size : PageSize) (m : Mapping) (old : Entry) :
    Holds size m (stored size m old) := by
  constructor <;> cases size <;>
    simp (disch := decide) only [stored, encode, isSubtree, PageSize.layout, small, medium, large,
      get_set_of_disjoint, get_set_self, get_zero, low_flag, low_perm, low_bit] <;> rfl

/-- The fields of the hardware register `PTEL`. -/
def ptelWt : Field := ⟨0, 1⟩

@[inherit_doc ptelWt] def ptelSh : Field := ⟨1, 1⟩

@[inherit_doc ptelWt] def ptelC : Field := ⟨3, 1⟩

@[inherit_doc ptelWt] def ptelSz0 : Field := ⟨4, 1⟩

@[inherit_doc ptelWt] def ptelPr : Field := ⟨5, 2⟩

@[inherit_doc ptelWt] def ptelSz1 : Field := ⟨7, 1⟩

@[inherit_doc ptelWt] def ptelV : Field := ⟨8, 1⟩

@[inherit_doc ptelWt] def ptelPpn : Field := ⟨10, 19⟩

/-- The word tells the hardware to use the mapping. -/
structure Loads (size : PageSize) (m : Mapping) (w : Entry) : Prop where
  valid : get ptelV w = 1
  size0 : get ptelSz0 w = flag (size ≠ .size64k)
  size1 : get ptelSz1 w = flag (size ≠ .size4k)
  perm : get ptelPr w = m.perm
  shared : get ptelSh w = m.attrib >>> attribSharedBit &&& 1
  wt : get ptelWt w = m.attrib >>> attribModeBit &&& 1
  cache : get ptelC w = m.attrib >>> attribCachedBit &&& 1
  frame : get ptelPpn w <<< ptelPpn.lo = m.paddr

/-- The decoders give back what was written. -/
structure RoundTrip (size : PageSize) (m : Mapping) (e : Entry) : Prop where
  valid : isValid size e = true
  leaf : isSubtree size e = false
  address : address size e = m.paddr
  readable : isReadable size e = m.readable
  writable : isWritable size e = m.writable
  executable : isExecutable size e = m.executable
  kernel : isKernel size e = m.kernel
  attributes : getAttributes size e = m.attrib
  ptel : Loads size m (ptel size e)

lemma and_one_getLsbD (v : Entry) (i : ℕ) :
    (v &&& 1).getLsbD i = (v.getLsbD i && decide (i = 0)) := by
  by_cases hi : i = 0
  · subst hi
    simp
  · simp [hi]

variable {e : Entry} {m : Mapping}

/-- Three of the bits of the attributes are kept. -/
lemma getAttributes_of_holds (h : Holds size m e) : getAttributes size e = low 3 m.attrib := by
  rw [getAttributes, h.shared, h.wt, h.cache]
  refine eq_of_getLsbD_eq fun i hi => ?_
  simp only [getLsbD_or, getLsbD_shiftLeft, and_one_getLsbD,
    getLsbD_ushiftRight, getLsbD_low, hi, decide_true, Bool.true_and, attribSharedBit,
    attribModeBit, attribCachedBit]
  rcases i with _ | _ | _ | i
  all_goals simp

lemma getLsbD_of_dvd {k : ℕ} {p : Entry} (hp : 2 ^ k ∣ p.toNat) (hi : i < k) :
    p.getLsbD i = false := by
  obtain ⟨q, hq⟩ := hp
  rw [getLsbD, hq, Nat.testBit_two_pow_mul, decide_eq_false (not_le.2 hi), Bool.false_and]

lemma shift_add_width (size : PageSize) : size.shift + size.layout.baseAddress.width = 32 := by
  cases size <;> rfl

/-- The bits of an entry from the page shift on are those of the frame. -/
lemma Holds.getLsbD (h : Holds size m e) (hi : i < 32) (hshift : size.shift ≤ i) :
    e.getLsbD i = m.paddr.getLsbD i := by
  have hbit := congrArg (fun w : Entry => w.getLsbD (i - size.shift)) h.frame
  have hlo : size.layout.baseAddress.lo = size.shift := by
    cases size <;> rfl
  have hin : i - size.shift < size.layout.baseAddress.width := by
    have := shift_add_width size
    omega
  simpa [getLsbD_get, getLsbD_low, hlo, hin, Nat.add_sub_cancel' hshift] using hbit

/-- The address of an entry is the one that was written, if it is aligned to the page. -/
lemma Holds.address (h : Holds size m e) (haligned : 2 ^ size.shift ∣ m.paddr.toNat) :
    address size e = m.paddr := by
  rw [PageTable.address, h.frame]
  refine eq_of_getLsbD_eq fun i hi => ?_
  rw [getLsbD_shiftLeft, getLsbD_low, getLsbD_ushiftRight]
  by_cases hshift : i < size.shift
  · simp [hshift, getLsbD_of_dvd haligned hshift]
  · have hin : i - size.shift < size.layout.baseAddress.width := by
      have := shift_add_width size
      omega
    simp [hi, hshift, hin, Nat.add_sub_cancel' (not_lt.1 hshift)]

lemma getLsbD_ptelMask (size : PageSize) :
    ∀ i < 29, 10 ≤ i → (ptelMask size).getLsbD i = decide (size.shift ≤ i) := by
  cases size <;> decide

/-- The hardware is told the address below 512M. -/
lemma Holds.ppn (h : Holds size m e) (haligned : 2 ^ size.shift ∣ m.paddr.toNat) :
    get ptelPpn (ptel size e) <<< ptelPpn.lo = low 29 m.paddr := by
  refine eq_of_getLsbD_eq fun i hi => ?_
  rw [getLsbD_shiftLeft, getLsbD_get, getLsbD_low, PageTable.ptel, getLsbD_and]
  have hshift : 12 ≤ size.shift := by
    cases size <;> decide
  change (decide (i < 32) && !decide (i < 10) && (decide (i - 10 < 19) &&
    (e.getLsbD (10 + (i - 10)) && (ptelMask size).getLsbD (10 + (i - 10))))) = _
  by_cases hlow : i < 10
  · simp [hlow, getLsbD_of_dvd haligned (show i < size.shift by omega)]
  rw [Nat.add_sub_cancel' (not_lt.1 hlow)]
  by_cases hhigh : i < 29
  · rw [getLsbD_ptelMask size i hhigh (not_lt.1 hlow)]
    by_cases hframe : size.shift ≤ i
    · rw [h.getLsbD hi hframe]
      simp [hi, hlow, hhigh, hframe, show i - 10 < 19 by omega]
    · simp [hframe, getLsbD_of_dvd haligned (not_le.1 hframe)]
  · simp [hhigh, show ¬ i - 10 < 19 by omega]

lemma low_eq_self_iff {width : ℕ} {v : Entry} : low width v = v ↔ v.toNat < 2 ^ width := by
  constructor
  · intro h
    rw [← h]
    exact toNat_low_lt width v
  · exact low_of_lt

/-- Nothing of the mapping is lost in an entry: it may be read, it is not a writable page of the
kernel, its attributes have no other bits than the three that are stored, and its frame can be told
to the hardware. -/
def Mapping.Encodable (m : Mapping) : Prop :=
  m.readable = true ∧ ¬ (m.kernel = true ∧ m.writable = true) ∧ m.attrib.toNat < 2 ^ 3 ∧
    m.paddr.toNat < 2 ^ 29

instance (m : Mapping) : Decidable m.Encodable := inferInstanceAs (Decidable (_ ∧ _))

section

variable (h : Holds size m e)
include h

/-- The flags of an entry stand at the same places in the word for the hardware. -/
lemma Holds.loads_iff (haligned : 2 ^ size.shift ∣ m.paddr.toNat) :
    Loads size m (ptel size e) ↔ m.paddr.toNat < 2 ^ 29 := by
  rw [← low_eq_self_iff, ← h.ppn haligned]
  have hget : ∀ {f : Field}, get f (ptelMask size) = ones 32 f.width →
      get f (ptel size e) = get f e := fun hf => get_and_of_ones hf e
  refine ⟨fun hloads => hloads.frame, fun hframe => ?_⟩
  cases size <;> exact
    { valid := (hget (by decide)).trans h.valid
      size0 := (hget (by decide)).trans h.size0
      size1 := (hget (by decide)).trans h.size1
      perm := (hget (by decide)).trans h.perm
      shared := (hget (by decide)).trans h.shared
      wt := (hget (by decide)).trans h.wt
      cache := (hget (by decide)).trans h.cache
      frame := hframe }

lemma Holds.isValid : isValid size e = true := by
  cases size with
  | size4k => exact beq_iff_eq.2 h.valid
  | size64k | size1m => exact Bool.or_eq_true_iff.2 (.inl (beq_iff_eq.2 h.valid))

lemma Holds.isKernel : isKernel size e = m.kernel := by
  rw [PageTable.isKernel, h.perm, Mapping.perm]
  cases m.kernel <;> cases m.writable <;> rfl

lemma Holds.isWritable : isWritable size e = (!m.kernel && m.writable) := by
  rw [PageTable.isWritable, h.perm, Mapping.perm]
  cases m.kernel <;> cases m.writable <;> rfl

lemma Holds.isExecutable : isExecutable size e = m.executable := by
  rw [PageTable.isExecutable, h.x]
  cases m.executable <;> rfl

/-- The decoders give back what was written exactly if nothing of it is lost. -/
theorem Holds.roundTrip_iff (haligned : 2 ^ size.shift ∣ m.paddr.toNat) :
    RoundTrip size m e ↔ m.Encodable := by
  constructor
  · intro hround
    refine ⟨hround.readable.symm, ?_, ?_, (h.loads_iff haligned).1 hround.ptel⟩
    · rintro ⟨hkernel, hwritable⟩
      have hw := hround.writable
      rw [h.isWritable, hkernel, hwritable] at hw
      exact absurd hw (by decide)
    · rw [← low_eq_self_iff, ← getAttributes_of_holds h]
      exact hround.attributes
  · rintro ⟨hreadable, hkernel, hattrib, hpaddr⟩
    refine ⟨h.isValid, h.leaf, h.address haligned, hreadable.symm, ?_, h.isExecutable, h.isKernel,
      (getAttributes_of_holds h).trans (low_of_lt hattrib), (h.loads_iff haligned).2 hpaddr⟩
    rw [h.isWritable]
    cases hk : m.kernel
    · rfl
    · cases hw : m.writable
      · rfl
      · exact absurd ⟨hk, hw⟩ hkernel

end

/-! ## Groups of sixteen entries -/

/-- An operation that is performed on an entry of a second-level table: as an entry for 4K pages, or
as the first one of a 64K page. -/
structure RowOp where
  size : PageSize
  index : ℕ
  op : EntryOp

/-- The first entry of the group of an entry. -/
def groupOf (i : ℕ) : ℕ := i / 16 * 16

/-- The operations on a second-level table. 4K entries are reached through a group whose first
entry is a subtree, and they are written and cleared; 64K entries start at every sixteenth place. -/
def RowOp.step (row : Row) (a : RowOp) : Option Row :=
  match a.size, a.op with
  | .size4k, .setEntry m =>
    if isSubtree .size64k (row (groupOf a.index)) then
      some (setEntry row a.index .size4k m)
    else none
  | .size4k, .clear =>
    if isSubtree .size64k (row (groupOf a.index)) then some (clear row a.index .size4k) else none
  | .size64k, op =>
    if groupOf a.index = a.index then some (op.apply row a.index .size64k) else none
  | _, _ => none

/-- A group whose first entry is not a subtree holds the same word sixteen times. -/
def Replicated (row : Row) : Prop :=
  ∀ g, isSubtree .size64k (row (g * 16)) = false → ∀ k < 16, row (g * 16 + k) = row (g * 16)

lemma isSubtree_stored (m : Mapping) (old : Entry) :
    isSubtree .size64k (stored .size4k m old) = isSubtree .size64k old := by
  have htree : get medium.tree (stored .size4k m old) = get medium.tree old := by
    simp (disch := decide) only [stored, encode, PageSize.layout, small, medium,
      get_set_of_disjoint, get_set_self]
    exact low_get _ old
  rw [isSubtree, isSubtree, htree]

lemma isSubtree_cleared (old : Entry) : isSubtree .size64k (set small.tree (get small.tree old) 0) =
      isSubtree .size64k old := by
  have htree : get medium.tree (set small.tree (get small.tree old) 0) =
      get medium.tree old := (get_set_self (by decide) _ _).trans (low_get _ old)
  rw [isSubtree, isSubtree, htree]

variable {row : Row}

/-- Writing an entry of a group of 4K pages without changing its subtree bit. -/
lemma Replicated.write (h : Replicated row) (hgroup : isSubtree .size64k (row (groupOf i)) = true)
    (htree : isSubtree .size64k e = isSubtree .size64k (row i)) : Replicated (update row i e) := by
  intro g hleaf k hk
  have hne : i / 16 ≠ g := by
    rintro rfl
    have hfirst : isSubtree .size64k (update row i e (i / 16 * 16)) = true := by
      by_cases hi : i / 16 * 16 = i
      · rw [hi, update_self, htree, ← hgroup, groupOf, hi]
      · rw [update_of_ne hi]
        exact hgroup
    rw [hfirst] at hleaf
    exact absurd hleaf (by decide)
  rw [update_of_ne (by omega)] at hleaf
  rw [update_of_ne (by omega), update_of_ne (by omega)]
  exact h g hleaf k hk

/-- Writing a word to all sixteen entries of a group. -/
lemma Replicated.syncLarge (h : Replicated row) (hi : groupOf i = i) (val : Entry) :
    Replicated (syncLarge (update row i val) i val) := by
  intro g hleaf k hk
  rw [syncLarge_update_apply] at hleaf ⊢
  rw [syncLarge_update_apply]
  rw [groupOf] at hi
  by_cases hg : i / 16 = g
  · rw [if_pos (by omega), if_pos (by omega)]
  · rw [if_neg (by omega)] at hleaf ⊢
    rw [if_neg (by omega)]
    exact h g hleaf k hk

lemma Replicated.step {row' : Row} {a : RowOp} (h : Replicated row)
    (hstep : a.step row = some row') : Replicated row' := by
  obtain ⟨size, i, op⟩ := a
  cases size with
  | size1m => exact absurd hstep (by simp [RowOp.step])
  | size64k =>
    obtain ⟨hi, hrow⟩ := Option.ite_none_right_eq_some.1 hstep
    cases hrow
    cases op with
    | setEntry m => exact h.syncLarge hi _
    | clear => exact h.syncLarge hi _
    | makeSubtree base => exact h.syncLarge hi _
    | removeSubtree =>
      have hclear : update (update row i (set medium.tree 0 (row i))) i 0 = update row i 0 :=
        update_idem _ _ _
      change Replicated (PageTable.syncLarge (update (update row i _) i 0) i 0)
      rw [hclear]
      exact h.syncLarge hi _
  | size4k =>
    cases op with
    | setEntry m =>
      obtain ⟨hgroup, hrow⟩ := Option.ite_none_right_eq_some.1 hstep
      cases hrow
      exact h.write hgroup (isSubtree_stored m (row i))
    | clear =>
      obtain ⟨hgroup, hrow⟩ := Option.ite_none_right_eq_some.1 hstep
      cases hrow
      exact h.write hgroup (isSubtree_cleared (row i))
    | makeSubtree base => exact absurd hstep (by simp [RowOp.step])
    | removeSubtree => exact absurd hstep (by simp [RowOp.step])

/-- A new second-level table. -/
def emptyRow : Row := fun _ => 0

/-- In every table that is reached from a new one, the sixteen entries of a 64K page are equal. -/
theorem replicated_of_run {ops : List RowOp} (hrun : run RowOp.step emptyRow ops = some row) :
    Replicated row :=
  run_invariant (fun _ _ _ h hstep => h.step hstep) (fun _ _ _ _ => rfl) hrun

/-! ## The coding of entries -/

/-- Entries of a page size are a faithful coding of a mapping. -/
structure EntryCoding (size : PageSize) (m : Mapping) : Prop where
  /-- Every entry of a page that is written decodes to the mapping. -/
  roundTrip : ∀ row i j, size.Covers i j → RoundTrip size m (setEntry row i size m j)
  /-- An operation on a page leaves the entries of the other pages as they are. -/
  others : ∀ (op : EntryOp) row i j, ¬ size.Covers i j → op.apply row i size j = row j
  /-- The sixteen entries of a 64K page are equal. -/
  replicas : ∀ ops row, run RowOp.step emptyRow ops = some row → Replicated row

/-- Entries are a faithful coding of exactly those mappings of which nothing is lost. -/
theorem entryCoding_iff (size : PageSize) (m : Mapping)
    (haligned : 2 ^ size.shift ∣ m.paddr.toNat) : EntryCoding size m ↔ m.Encodable := by
  have hcovers : size.Covers 0 0 := ⟨le_rfl, by cases size <;> decide⟩
  constructor
  · intro hcoding
    have hround := hcoding.roundTrip emptyRow 0 0 hcovers
    rw [setEntry_apply_of_covers hcovers] at hround
    exact ((holds_stored size m _).roundTrip_iff haligned).1 hround
  · intro hm
    refine ⟨fun row i j hj => ?_, fun op row i j hj => op.apply_of_not_covers hj row,
      fun ops row hrun => replicated_of_run hrun⟩
    rw [setEntry_apply_of_covers hj]
    exact ((holds_stored size m _).roundTrip_iff haligned).2 hm

/-- A shared page of a user at 64K. -/
def sharedPage : Mapping where
  paddr := 0x10000
  readable := true
  writable := true
  executable := false
  kernel := false
  attrib := 5

theorem entryCoding_sharedPage : EntryCoding .size64k sharedPage :=
  (entryCoding_iff .size64k sharedPage (by decide)).2 (by decide)

/-- A writable page of the kernel is not writable when its entry is read. -/
theorem not_entryCoding_kernelPage :
    ¬ EntryCoding .size4k ⟨0x1000, true, true, false, true, 1⟩ := by
  intro hcoding
  have hround := hcoding.roundTrip emptyRow 0 0 ⟨le_rfl, by decide⟩
  exact absurd hround.writable (by decide)

end Okl4Kernel.PageTable
