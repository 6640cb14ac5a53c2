import Okl4Kernel.KmemoryInvariant
import Okl4Kernel.ResourceControl

/-!
# The memory of a capability list

`CapControl` creates a capability list for any number of entries. It calculates the size of the
list in words, asks the kernel heap for that much memory, cleared, and writes the last index into
the header of the list. From then on, an index of a capability is checked against the header only.

The size is calculated modulo the word size, and the last index is the number of entries minus one,
modulo the word size as well. A large number of entries, or none, therefore makes a small list that
accepts indices far beyond its memory (`createClist_small`). Capabilities have indices of 28 bits,
so the list is too small exactly if it has fewer slots than entries and fewer than there are
indices (`Sized`).
-/

namespace Okl4Kernel

open Kmem Function TransitionSystem Fallible Heap

/-- `sizeof(cap_t)`: the word with the type and the thread, and the link. -/
def sizeofCap : ℕ := 8

/-- `sizeof(clist_t)`: the last index, the number of spaces, and a lock that takes up a byte. -/
def sizeofClist : ℕ := 12

/-- The bytes of a capability list, in word arithmetic. -/
def clistBytes (entries : ℕ) : ℕ := (sizeofCap * entries + sizeofClist) % wordSpace

/-- `addr_align_up`, for an alignment that is a power of two. -/
def addrAlignUp (addr align : ℕ) : ℕ := (addr + (align - 1)) % wordSpace / align * align

/-- The size of the memory that is asked for. -/
def clistAllocSize (entries : ℕ) : ℕ := addrAlignUp (clistBytes entries) chunkSize

/-- `clist_t::is_valid`. -/
def ClistHeader.isValid (header : ClistHeader) (cap : ℕ) : Bool := capIndex cap ≤ header.maxId

/-- `clist_t::init`, in word arithmetic. -/
def ClistHeader.init (numIds : ℕ) : ClistHeader := ⟨(numIds + wordSpace - 1) % wordSpace, 0⟩

/-- The kernel heap, with the slots of the capability lists; the table of the lists, and their
headers. -/
structure ClistMemory where
  heap : Heap
  ids : IdLookup
  header : ℕ → ClistHeader

namespace ClistMemory

/-- The address of a slot of the list at `p`. -/
def slot (p index : ℕ) : ℕ := p + sizeofClist + sizeofCap * index

/-- A slot is inside of a block of memory. -/
def SlotInside (b : Block) (index : ℕ) : Prop :=
  b.addr ≤ slot b.addr index ∧ slot b.addr index + sizeofCap ≤ b.addr + chunkSize * b.chunks

variable (s : ClistMemory)

/-- Both words of a slot are zero, as `cap_t::init` would make them. -/
def SlotEmpty (p index : ℕ) : Prop :=
  s.heap.kmem.cells (some (slot p index)) = none ∧
    s.heap.kmem.cells (some (slot p index + 4)) = none

/-- The part of `CapControl` for `op_create_clist`. -/
def createClist (caller : Space) (clistId entries : Word) :
    Fallible ClistMemory ErrorCode Unit := do
  let s ← get
  if (caller.range .clist).isValid clistId = false then throw .invalidClist
  else if s.ids.lookup clistId ≠ none then throw .invalidClist
  else
    match s.heap.kmem.alloc (clistAllocSize entries) true with
    | none => throw .noMem
    | some (k, p) => do
      let chunks := roundUp (clistAllocSize entries) / chunkSize
      update fun s => { s with heap := s.heap.allocated chunks (some (k, p)) }
      update fun s =>
        { s with header := update s.header p (ClistHeader.init entries) }
      update fun s => { s with ids := s.ids.write clistId (some p) }

/-- The call is granted: the identifier is one of the caller and not in use, and the heap has the
memory. -/
def Granted (caller : Space) (clistId entries : Word) : Prop :=
  (caller.range .clist).isValid clistId = true ∧ s.ids.lookup clistId = none ∧
    s.heap.kmem.alloc (clistAllocSize entries) true ≠ none

/-- A call that returns an error has changed nothing. After one that does not, the new list is in a
block that was allocated for it, and every slot that the list accepts an index of is in that block
and empty. -/
def SizeSafe (caller : Space) (clistId entries : Word) : Prop :=
  match (createClist caller clistId entries).result s with
  | .error _ => (createClist caller clistId entries).exec s = s
  | .ok _ =>
    let s' := (createClist caller clistId entries).exec s
    ∃ b, s'.heap.live = b :: s.heap.live ∧ s'.ids.idTable clistId = some b.addr ∧
      ∀ cap : Word, (s'.header b.addr).isValid cap = true →
        SlotInside b (capIndex cap) ∧ s'.SlotEmpty b.addr (capIndex cap)

/-- There are entries, and either not more than there are indices of capabilities, or the memory is
more than these take up. -/
def Sized (entries : ℕ) : Prop :=
  0 < entries ∧ (entries ≤ 2 ^ 28 ∨ 2 ^ 31 < (8 * entries + 12) % 2 ^ 32)

instance (b : Block) (index : ℕ) : Decidable (SlotInside b index) :=
  inferInstanceAs (Decidable (_ ∧ _))

instance (entries : ℕ) : Decidable (Sized entries) := inferInstanceAs (Decidable (_ ∧ (_ ∨ _)))

/-! ## Sizes -/

lemma roundUp_clistAllocSize (entries : ℕ) :
    roundUp (clistAllocSize entries) = clistAllocSize entries := by
  unfold roundUp pred clistAllocSize addrAlignUp
  generalize clistBytes entries = bytes
  unfold chunkSize wordSpace
  omega

lemma clistAllocSize_lt (entries : ℕ) : clistAllocSize entries < wordSpace := by
  unfold clistAllocSize addrAlignUp chunkSize wordSpace
  omega

/-- The memory has all slots that the list accepts indices of, exactly for the numbers of entries
above. -/
lemma forall_slot_iff (entries : Word) (hsize : clistAllocSize entries ≠ 0) :
    (∀ cap : Word, (ClistHeader.init entries).isValid cap = true →
      sizeofClist + sizeofCap * capIndex cap + sizeofCap ≤ clistAllocSize entries) ↔
      Sized entries := by
  have hentries := entries.isLt
  unfold clistAllocSize addrAlignUp clistBytes sizeofCap sizeofClist chunkSize at *
  unfold Sized ClistHeader.init ClistHeader.isValid capIndex
  simp only [decide_eq_true_iff]
  generalize (entries : ℕ) = n at *
  unfold wordSpace at hsize hentries ⊢
  constructor
  · -- The greatest index of a capability decides, if the list accepts it.
    intro h
    have hlast := h (⟨2 ^ 28 - 1, by decide⟩ : Word)
    dsimp only at hlast
    omega
  · rintro ⟨hpos, hcases⟩ cap hcap
    generalize (cap : ℕ) = c at *
    omega

/-! ## The call -/

section Call

variable {s : ClistMemory} {caller : Space} {clistId entries : Word}

lemma alloc_zeroed {k k' : Kmem} {size a : ℕ} (halloc : k.alloc size true = some (k', a)) {x : ℕ}
    (hle : a ≤ x) (hlt : x < a + roundUp size) : k'.cells (some x) = none := by
  rw [Kmem.alloc, Kmem.allocWith] at halloc
  split at halloc
  · cases halloc
  · obtain ⟨rfl, rfl⟩ := Prod.mk.inj (Option.some.inj halloc)
    simp only [if_true, zero]
    rw [if_pos ⟨hle, hlt⟩]

lemma createClist_of_not_granted (h : ¬ s.Granted caller clistId entries) :
    ∃ e, (createClist caller clistId entries).result s = .error e ∧
      (createClist caller clistId entries).exec s = s := by
  unfold createClist
  rw [result_bind, exec_bind, result_get, exec_get]
  dsimp only
  split_ifs with hrange hlookup
  · exact ⟨_, rfl, rfl⟩
  · exact ⟨_, rfl, rfl⟩
  · rcases halloc : s.heap.kmem.alloc (clistAllocSize entries) true with _ | r
    · exact ⟨_, rfl, rfl⟩
    refine absurd ⟨?_, not_not.1 hlookup, ?_⟩ h
    · simpa using hrange
    · rw [halloc]
      exact Option.some_ne_none r

lemma createClist_of_granted (h : s.Granted caller clistId entries) :
    ∃ k p, s.heap.kmem.alloc (clistAllocSize entries) true = some (k, p) ∧
      (createClist caller clistId entries).result s = .ok () ∧
      (createClist caller clistId entries).exec s =
        { heap := { s.heap with
            kmem := k
            live := ⟨p, clistAllocSize entries / chunkSize⟩ :: s.heap.live }
          ids := s.ids.write clistId (some p)
          header := update s.header p (ClistHeader.init entries) } := by
  obtain ⟨hrange, hlookup, halloc⟩ := h
  obtain ⟨⟨k, p⟩, halloc⟩ := Option.ne_none_iff_exists'.1 halloc
  refine ⟨k, p, halloc, ?_, ?_⟩
  · unfold createClist
    rw [result_bind, result_get, exec_get]
    simp [hrange, hlookup, halloc, result_bind]
  · unfold createClist
    rw [exec_bind, result_get, exec_get]
    simp [hrange, hlookup, halloc, exec_bind, allocated, roundUp_clistAllocSize]

/-- A call that is granted is safe if the memory has all slots that the list accepts. -/
lemma sizeSafe_iff_of_granted {fl : List ℕ} (hok : s.heap.Ok fl)
    (h : s.Granted caller clistId entries) : s.SizeSafe caller clistId entries ↔ Sized entries := by
  obtain ⟨k, p, halloc, hresult, hexec⟩ := createClist_of_granted h
  let size : Word := ⟨clistAllocSize entries, clistAllocSize_lt entries⟩
  have halloc' : s.heap.kmem.alloc size true = some (k, p) := halloc
  obtain ⟨m, -, -, hm, -⟩ := hok.freeList.alloc halloc'
  have hsize : clistAllocSize entries = chunkSize * (m + 1) :=
    (roundUp_clistAllocSize entries).symm.trans hm
  have hchunks : clistAllocSize entries / chunkSize = m + 1 := by
    rw [hsize, Nat.mul_div_cancel_left _ (by decide)]
  have hpos : clistAllocSize entries ≠ 0 := by
    rw [hsize]
    exact Nat.mul_ne_zero (by decide) (Nat.succ_ne_zero m)
  rw [← forall_slot_iff entries hpos, SizeSafe, hresult]
  dsimp only
  rw [hexec, hchunks]
  have hinside : ∀ index, SlotInside ⟨p, m + 1⟩ index ↔
      sizeofClist + sizeofCap * index + sizeofCap ≤ clistAllocSize entries := by
    intro index
    unfold SlotInside slot
    dsimp only
    rw [← hsize]
    omega
  constructor
  · rintro ⟨b, hlive, -, hslots⟩ cap hvalid
    obtain ⟨rfl, -⟩ := List.cons.inj hlive
    refine (hinside _).1 (hslots cap ?_).1
    dsimp only
    rwa [update_self]
  · intro hall
    refine ⟨⟨p, m + 1⟩, rfl, update_self _ _ _, fun cap hvalid => ?_⟩
    dsimp only at hvalid
    rw [update_self] at hvalid
    have hin := hall cap hvalid
    refine ⟨(hinside _).2 hin, ?_⟩
    -- The block has been cleared.
    rw [← roundUp_clistAllocSize] at hin
    have hcap : sizeofCap = 8 := rfl
    unfold SlotEmpty slot
    dsimp only
    exact ⟨alloc_zeroed halloc (by omega) (by omega), alloc_zeroed halloc (by omega) (by omega)⟩

end Call

/-- Whatever has happened to the kernel heap: a call that creates a capability list is safe exactly
if it is not granted, or the number of entries is one for which the memory has all slots that the
list accepts. -/
theorem createClist_sizeSafe_iff {ops : List KmemOp} {h : Heap}
    (hrun : run step empty ops = some h) (ids : IdLookup)
    (header : ℕ → ClistHeader) (caller : Space) (clistId entries : Word) :
    SizeSafe ⟨h, ids, header⟩ caller clistId entries ↔
      (Granted ⟨h, ids, header⟩ caller clistId entries → Sized entries) := by
  obtain ⟨fl, hok⟩ := ok_of_run hrun
  by_cases hgranted : Granted ⟨h, ids, header⟩ caller clistId entries
  · rw [sizeSafe_iff_of_granted hok hgranted]
    exact ⟨fun hsized _ => hsized, fun himp => himp hgranted⟩
  · refine iff_of_true ?_ fun hg => absurd hg hgranted
    obtain ⟨e, hresult, hexec⟩ := createClist_of_not_granted hgranted
    rw [SizeSafe, hresult]
    exact hexec

/-- A space that may use the identifiers of capability lists below sixteen. -/
def exampleCaller : Space := ⟨1, 0, 1, 255, true, fun _ => ⟨0, 16, by decide⟩⟩

/-- A list of a hundred entries is created in a heap of four chunks. -/
theorem createClist_sizeSafe_hundred : ∃ h,
    run step empty [.init 4096 8192] = some h ∧
      Granted ⟨h, ⟨fun _ => none, 15⟩, fun _ => ⟨0, 0⟩⟩ exampleCaller 3 100 ∧
      SizeSafe ⟨h, ⟨fun _ => none, 15⟩, fun _ => ⟨0, 0⟩⟩ exampleCaller 3 100 := by
  refine exists_run (Q := fun h =>
    h.kmem.alloc (clistAllocSize (100 : Word)) true ≠ none) (by decide +kernel)
    fun h hrun halloc => ⟨⟨by decide, rfl, halloc⟩, ?_⟩
  exact (createClist_sizeSafe_iff hrun _ _ _ _ _).2 fun _ => by decide

/-- A list of `0x20000000` entries, or of none, is a single chunk, but accepts the greatest index. -/
theorem createClist_small : ∃ h,
    run step empty [.init 4096 8192] = some h ∧
      ∀ entries ∈ [(0x20000000 : Word), 0],
        let s : ClistMemory := ⟨h, ⟨fun _ => none, 15⟩, fun _ => ⟨0, 0⟩⟩
        let s' := (createClist exampleCaller 3 entries).exec s
        s'.heap.live = [⟨4096, 1⟩] ∧ s'.ids.idTable 3 = some 4096 ∧
          (s'.header 4096).isValid (2 ^ 28 - 1) = true ∧
          ¬ SlotInside ⟨4096, 1⟩ (capIndex (2 ^ 28 - 1)) := by
  simp only [List.forall_mem_cons, List.not_mem_nil, false_implies, implies_true, and_true]
  exact exists_run (by decide +kernel) fun _ _ hview => hview

end ClistMemory

end Okl4Kernel
