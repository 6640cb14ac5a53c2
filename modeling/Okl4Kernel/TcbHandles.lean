import Okl4Kernel.KernelCalls
import Okl4Kernel.Lib.LinkedChain
import Okl4Kernel.Word

/-!
# Thread handles

Every thread has an index in `thread_handle_array`. The entry of a thread is the pointer to its
control block; the entries that no thread has are linked to a list, each with the index of the next
one, which begins at `free_tcb_idx` and ends with `END_TCB_FREE_LIST`. What an entry is can only be
seen from its value: control blocks are above `VIRT_ADDR_BASE`, and indices are below.

A thread handle has the index in its lower bits and the uppermost bit set. The lookup drops that
bit, so that it also finds the thread by the index alone, as it stands in the word of a contended
mutex. A thread is found only if its master capability is a thread capability that names it
(`acquire_read_lock_tcb`); a new control block has none, until `ThreadControl` writes the capability
of the thread.
-/

namespace Okl4Kernel

open LinkedChain Function List TransitionSystem Option

/-- `VIRT_ADDR_BASE` on SH. -/
def virtAddrBase : ℕ := 0x88000000

/-- The raw value of `threadhandle`: the index, and `TYPE_THREAD_HANDLE` in the uppermost bits. -/
def threadhandle (handle : ℕ) : ℕ := 8 * 2 ^ 28 + handle % 2 ^ 28

/-- The thread handles and the field `tcb_idx` of the control blocks. -/
structure HandleTable where
  threadHandleArray : ℕ → ℕ
  numTcbs : ℕ
  freeTcbIdx : ℕ
  /-- `tcb_idx` of the control block at an address. -/
  tcbIdx : ℕ → ℕ
  /-- There is an entry for the first thread. -/
  numTcbs_pos : 0 < numTcbs
  /-- `init_tcb_allocator` asserts this. -/
  numTcbs_lt : numTcbs < endTcbFreeList

namespace HandleTable

variable (s : HandleTable)

/-- `init_tcb_allocator`: every entry has the index of the next one. -/
def initTcbAllocator : HandleTable :=
  { s with
    threadHandleArray := fun i =>
      if i + 1 = s.numTcbs then endTcbFreeList
      else if i < s.numTcbs then i + 1
      else s.threadHandleArray i
    freeTcbIdx := 0 }

/-- The part of `allocate_tcb` behind the allocation: the first entry of the free list gets the
control block. -/
def takeEntry (ret : ℕ) : HandleTable :=
  { s with
    freeTcbIdx := s.threadHandleArray s.freeTcbIdx
    threadHandleArray := update s.threadHandleArray s.freeTcbIdx ret
    tcbIdx := update s.tcbIdx ret s.freeTcbIdx }

/-- `allocate_tcb`, with the memory that there is for a control block. -/
def allocateTcb (memory : Option Word) : HandleTable × Option Word :=
  if s.freeTcbIdx = endTcbFreeList then (s, none)
  else
    match memory with
    | none => (s, none)
    | some ret => (s.takeEntry ret, some ret)

/-- `free_tcb`. -/
def freeTcb (tcb : ℕ) : HandleTable :=
  { s with
    threadHandleArray := update s.threadHandleArray (s.tcbIdx tcb) s.freeTcbIdx
    freeTcbIdx := s.tcbIdx tcb }

/-- Freeing what has just been allocated restores the array and the free list. -/
lemma freeTcb_takeEntry (tcb : ℕ) :
    ((s.takeEntry tcb).freeTcb tcb).threadHandleArray = s.threadHandleArray ∧
      ((s.takeEntry tcb).freeTcb tcb).freeTcbIdx = s.freeTcbIdx := by
  have hidx : (s.takeEntry tcb).tcbIdx tcb = s.freeTcbIdx := update_self ..
  refine ⟨?_, hidx⟩
  change update (update s.threadHandleArray s.freeTcbIdx tcb)
    ((s.takeEntry tcb).tcbIdx tcb) (s.threadHandleArray s.freeTcbIdx) = s.threadHandleArray
  rw [hidx, update_idem, update_eq_self]

/-- `lookup_tcb_by_handle_locked`. The array is accessed with the whole handle; the address of the
entry, four times that, is calculated modulo the size of the address space. -/
def lookupTcbByHandle {κ ι : Type*} (caps : Caps Word κ ι) (threadhandle : ℕ) : Option Word :=
  let idx := threadhandle % 2 ^ 31
  if idx < s.numTcbs then
    let entry := s.threadHandleArray (threadhandle % 2 ^ 30)
    if virtAddrBase < entry then caps.acquireReadLockTcb (Fin.ofNat wordSpace entry) else none
  else none

/-! ## The free list -/

/-- What a link stands for. -/
def linkOf (word : ℕ) : Option ℕ := if word = endTcbFreeList then none else some word

/-- The cells of the free list: `free_tcb_idx`, and the entries of the array. -/
def cells : Option ℕ → Option ℕ
  | none => linkOf s.freeTcbIdx
  | some i => linkOf (s.threadHandleArray i)

/-- The free list has the given entries, in this order. -/
def FreeList (free : List ℕ) : Prop := Seg some s.cells none free none

end HandleTable

/-! ## Runs -/

/-- The thread handles, the capabilities and the threads that there are. -/
structure HandleState (κ ι : Type*) where
  table : HandleTable
  caps : Caps Word κ ι
  /-- The control blocks in use. -/
  live : List Word

/-- The operations on control blocks, and those that write and clear a master capability. -/
inductive HandleOp (κ : Type*)
  | allocate (memory : Option Word)
  | free (tcb : Word)
  | addThreadCap (clist : κ) (tid : ℕ) (tcb : Word)
  | removeThreadCap (clist : κ) (tid : ℕ)

namespace HandleState

variable {κ ι : Type*}

/-- The allocator has just been initialised. -/
def init (table : HandleTable) : HandleState κ ι := ⟨table.initTcbAllocator, Caps.init, []⟩

/-- `lookup_tcb_by_handle_locked`. -/
def lookupTcbByHandle (s : HandleState κ ι) (threadhandle : ℕ) : Option Word :=
  s.table.lookupTcbByHandle s.caps threadhandle

/-- The master capability of a thread is a thread capability that names it. -/
def Named (s : HandleState κ ι) (t : Word) : Prop :=
  ∃ master, s.caps.masterCap t = some master ∧ s.caps.word master = .thread t

/-- Memory for a control block is kernel memory that is not in use for another one. -/
def isMemory (s : HandleState κ ι) : Option Word → Bool
  | none => true
  | some p => virtAddrBase < p ∧ p ∉ s.live

/-- Perform an operation. Only control blocks in use are freed and get capabilities. A new control
block is zero, so that it has no master capability. -/
def step [DecidableEq κ] [DecidableEq ι] [Fintype κ] [Fintype ι] (s : HandleState κ ι) :
    HandleOp κ → Option (HandleState κ ι)
  | .allocate memory =>
    if s.isMemory memory then
      match s.table.allocateTcb memory with
      | (_, none) => some s
      | (table, some tcb) => some ⟨table, s.caps.initTcb tcb, tcb :: s.live⟩
    else none
  | .free tcb =>
    if tcb ∈ s.live then
      some ⟨s.table.freeTcb tcb, s.caps.setLive tcb false, s.live.erase tcb⟩
    else none
  | .addThreadCap c tid tcb =>
    if tcb ∈ s.live then some { s with caps := (s.caps.addThreadCap c tid tcb).getD s.caps }
    else none
  | .removeThreadCap c tid => some { s with caps := (s.caps.removeThreadCap c tid).getD s.caps }

/-- Every entry is on the free list or belongs to a thread, and never both. -/
structure Valid (s : HandleState κ ι) (free : List ℕ) : Prop where
  freeList : s.table.FreeList free
  mem_free : ∀ i, i ∈ free ↔ i < s.table.numTcbs ∧ ∀ t ∈ s.live, s.table.tcbIdx t ≠ i
  entry : ∀ t ∈ s.live, s.table.threadHandleArray (s.table.tcbIdx t) = t
  idx_lt : ∀ t ∈ s.live, s.table.tcbIdx t < s.table.numTcbs
  above : ∀ t ∈ s.live, virtAddrBase < t
  nodup : s.live.Nodup

variable {s s' : HandleState κ ι} {free : List ℕ}

/-- The entries behind an index are linked one after the other up to the last one. -/
lemma seg_init (table : HandleTable) (n i : ℕ) (hi : i + n = table.numTcbs) (c : Option ℕ)
    (hc : table.initTcbAllocator.cells c = if n = 0 then none else some i) :
    Seg some table.initTcbAllocator.cells c (List.range' i n) none := by
  induction n generalizing i c with
  | zero => exact hc
  | succ n ih =>
    refine ⟨hc, ih (i + 1) (by omega) (some i) ?_⟩
    have hlt := table.numTcbs_lt
    have hentry : table.initTcbAllocator.threadHandleArray i =
        if n = 0 then endTcbFreeList else i + 1 := by
      simp only [HandleTable.initTcbAllocator]
      split_ifs <;> omega
    rw [HandleTable.cells, hentry]
    split_ifs
    · exact if_pos rfl
    · exact if_neg (by omega)

lemma init_valid (table : HandleTable) :
    (init table : HandleState κ ι).Valid (List.range table.numTcbs) := by
  refine ⟨?_, fun i => ?_, nofun, nofun, nofun, nodup_nil⟩
  · rw [range_eq_range']
    refine seg_init table table.numTcbs 0 (Nat.zero_add _) none ?_
    rw [if_neg table.numTcbs_pos.ne']
    rfl
  · rw [mem_range]
    exact ⟨fun hi => ⟨hi, nofun⟩, fun hi => hi.1⟩

section

variable (h : s.Valid free)
include h

lemma Valid.takeEntry {p : Word} (hp : virtAddrBase < p) (hfresh : p ∉ s.live)
    (hidx : s.table.freeTcbIdx ≠ endTcbFreeList) (caps : Caps Word κ ι) :
    ∃ rest, free = s.table.freeTcbIdx :: rest ∧
      Valid ⟨s.table.takeEntry p, caps, p :: s.live⟩ rest := by
  have hcell : s.table.cells none = some s.table.freeTcbIdx := if_neg hidx
  rcases free with _ | ⟨me, rest⟩
  · rw [show s.table.cells none = none from h.freeList] at hcell
    cases hcell
  have hme : me = s.table.freeTcbIdx := some.inj (h.freeList.1.symm.trans hcell)
  subst hme
  obtain ⟨hnotin, -⟩ := nodup_cons.1 h.freeList.nodup
  obtain ⟨hmelt, hunowned⟩ := (h.mem_free _).1 mem_cons_self
  -- The threads that were there keep their indices and their entries.
  have hnew : (s.table.takeEntry p).tcbIdx p = s.table.freeTcbIdx := update_self _ _ _
  have hold : ∀ t ∈ s.live, (s.table.takeEntry p).tcbIdx t = s.table.tcbIdx t := by
    intro t ht
    refine update_of_ne (fun heq => hfresh ?_) _ _
    rwa [← Fin.ext heq]
  have hentry : ∀ i, i ≠ s.table.freeTcbIdx →
      (s.table.takeEntry p).threadHandleArray i = s.table.threadHandleArray i :=
    fun i hi => update_of_ne hi _ _
  refine ⟨rest, rfl, ?_, fun i => ?_, forall_mem_cons.2 ⟨?_, fun t ht => ?_⟩,
    forall_mem_cons.2 ⟨?_, fun t ht => ?_⟩, forall_mem_cons.2 ⟨hp, h.above⟩,
    nodup_cons.2 ⟨hfresh, h.nodup⟩⟩
  · refine h.freeList.2.congr rfl fun x hx => ?_
    refine congrArg HandleTable.linkOf (hentry x ?_)
    rintro rfl
    exact hnotin hx
  · have hmem := h.mem_free i
    have hrest : (∀ t ∈ s.live, (s.table.takeEntry p).tcbIdx t ≠ i) ↔
        ∀ t ∈ s.live, s.table.tcbIdx t ≠ i :=
      forall₂_congr fun t ht => by rw [hold t ht]
    rw [mem_cons] at hmem
    rw [forall_mem_cons, hnew, hrest]
    constructor
    · intro hi
      obtain ⟨hlt, hown⟩ := hmem.1 (.inr hi)
      refine ⟨hlt, fun heq => hnotin ?_, hown⟩
      rwa [heq]
    · rintro ⟨hlt, hne, hown⟩
      exact (hmem.2 ⟨hlt, hown⟩).resolve_left fun heq => hne heq.symm
  · rw [hnew]
    exact update_self _ _ _
  · rw [hold t ht, hentry _ (hunowned t ht)]
    exact h.entry t ht
  · rw [hnew]
    exact hmelt
  · rw [hold t ht]
    exact h.idx_lt t ht

lemma Valid.idx_inj {t u : Word} (ht : t ∈ s.live) (hu : u ∈ s.live)
    (heq : s.table.tcbIdx t = s.table.tcbIdx u) : t = u := by
  refine Fin.ext ?_
  rw [← h.entry t ht, heq, h.entry u hu]

/-- The entry of a thread that is removed becomes the first one of the free list. -/
lemma Valid.freeTcb {t : Word} (ht : t ∈ s.live) (caps : Caps Word κ ι) :
    Valid ⟨s.table.freeTcb t, caps, s.live.erase t⟩ (s.table.tcbIdx t :: free) := by
  have hlt := h.idx_lt t ht
  have hbound := s.table.numTcbs_lt
  have hnotin : s.table.tcbIdx t ∉ free := fun hmem => ((h.mem_free _).1 hmem).2 t ht rfl
  have hrest : ∀ {u : Word}, u ∈ s.live.erase t → u ∈ s.live ∧ s.table.tcbIdx u ≠ s.table.tcbIdx t := by
    intro u hu
    obtain ⟨hne, hmem⟩ := h.nodup.mem_erase_iff.1 hu
    exact ⟨hmem, fun heq => hne (h.idx_inj hmem ht heq)⟩
  refine ⟨⟨?_, ?_⟩, fun i => ?_, fun u hu => ?_, fun u hu => h.idx_lt u (hrest hu).1,
    fun u hu => h.above u (hrest hu).1, h.nodup.erase t⟩
  · exact if_neg (hlt.trans hbound).ne
  · refine h.freeList.congr ?_ fun x hx => ?_
    · exact congrArg HandleTable.linkOf (update_self _ _ _)
    · have hne : x ≠ s.table.tcbIdx t := fun heq => hnotin (heq ▸ hx)
      exact congrArg HandleTable.linkOf (update_of_ne hne _ _)
  · rw [mem_cons, h.mem_free i]
    constructor
    · rintro (rfl | ⟨hi, hown⟩)
      · exact ⟨hlt, fun u hu => (hrest hu).2⟩
      · exact ⟨hi, fun u hu => hown u (hrest hu).1⟩
    · rintro ⟨hi, hown⟩
      by_cases heq : i = s.table.tcbIdx t
      · exact .inl heq
      · refine .inr ⟨hi, fun u hu => ?_⟩
        by_cases hut : u = t
        · rw [hut]
          exact fun e => heq e.symm
        · exact hown u (h.nodup.mem_erase_iff.2 ⟨hut, hu⟩)
  · obtain ⟨hmem, hne⟩ := hrest hu
    exact (update_of_ne hne _ _).trans (h.entry u hmem)

/-- Capabilities do not matter to the entries. -/
lemma Valid.setCaps (caps : Caps Word κ ι) : Valid { s with caps := caps } free :=
  ⟨h.freeList, h.mem_free, h.entry, h.idx_lt, h.above, h.nodup⟩

lemma Valid.step [DecidableEq κ] [DecidableEq ι] [Fintype κ] [Fintype ι] {op : HandleOp κ}
    (hstep : s.step op = some s') : ∃ free', s'.Valid free' := by
  cases op with
  | allocate memory =>
    obtain ⟨hmemory, hstep⟩ := ite_none_right_eq_some.1 hstep
    by_cases hidx : s.table.freeTcbIdx = endTcbFreeList
    · have hres : s.table.allocateTcb memory = (s.table, none) := if_pos hidx
      rw [hres] at hstep
      cases hstep
      exact ⟨free, h⟩
    · rcases memory with _ | p
      · have hres : s.table.allocateTcb none = (s.table, none) := if_neg hidx
        rw [hres] at hstep
        cases hstep
        exact ⟨free, h⟩
      · obtain ⟨hp, hfresh⟩ := of_decide_eq_true hmemory
        have hres : s.table.allocateTcb (some p) = (s.table.takeEntry p, some p) := if_neg hidx
        rw [hres] at hstep
        cases hstep
        obtain ⟨rest, -, hvalid⟩ := h.takeEntry hp hfresh hidx (s.caps.initTcb p)
        exact ⟨rest, hvalid⟩
  | free tcb =>
    obtain ⟨ht, ⟨⟩⟩ := ite_none_right_eq_some.1 hstep
    exact ⟨_, h.freeTcb ht _⟩
  | addThreadCap c tid tcb =>
    obtain ⟨-, ⟨⟩⟩ := ite_none_right_eq_some.1 hstep
    exact ⟨free, h.setCaps _⟩
  | removeThreadCap c tid =>
    cases hstep
    exact ⟨free, h.setCaps _⟩

lemma Valid.link {i : ℕ} (hi : i ∈ free) :
    s.table.threadHandleArray i = endTcbFreeList ∨ s.table.threadHandleArray i ∈ free := by
  obtain ⟨front, rest, rfl⟩ := append_of_mem hi
  have hrest : Seg some s.table.cells (some i) rest none := (seg_append.1 h.freeList).2.2
  have hlink : HandleTable.linkOf (s.table.threadHandleArray i) = rest.head? := hrest.cell_eq
  by_cases hend : s.table.threadHandleArray i = endTcbFreeList
  · exact .inl hend
  · rw [HandleTable.linkOf, if_neg hend] at hlink
    refine .inr (mem_append_right _ (mem_cons_of_mem _ ?_))
    exact mem_of_mem_head? hlink.symm

/-- An entry is on the free list, or it is the control block of the thread with that index. -/
lemma Valid.free_or_owned {i : ℕ} (hi : i < s.table.numTcbs) :
    i ∈ free ∨ ∃ t ∈ s.live, s.table.threadHandleArray i = t ∧ s.table.tcbIdx t = i := by
  by_cases hown : ∃ t ∈ s.live, s.table.tcbIdx t = i
  · obtain ⟨t, ht, rfl⟩ := hown
    exact .inr ⟨t, ht, h.entry t ht, rfl⟩
  · refine .inl ((h.mem_free i).2 ⟨hi, fun t ht heq => hown ⟨t, ht, heq⟩⟩)

/-- Links are not taken for control blocks. -/
lemma Valid.not_above_of_mem_free {i : ℕ} (hi : i ∈ free) :
    ¬ virtAddrBase < s.table.threadHandleArray i := by
  have hbound := s.table.numTcbs_lt
  rw [endTcbFreeList] at hbound
  rw [virtAddrBase]
  rcases h.link hi with hend | hnext
  · rw [hend, endTcbFreeList]
    omega
  · have hlt := ((h.mem_free _).1 hnext).1
    omega

omit h in
lemma acquireReadLockTcb_eq_some_iff {t u : Word} :
    s.caps.acquireReadLockTcb u = some t ↔ u = t ∧ s.Named t := by
  unfold Caps.acquireReadLockTcb Named
  split
  · rename_i hmaster
    refine ⟨nofun, ?_⟩
    rintro ⟨rfl, master, heq, -⟩
    rw [hmaster] at heq
    cases heq
  · rename_i master hmaster
    rw [ite_none_right_eq_some, some.injEq]
    constructor
    · rintro ⟨hword, rfl⟩
      exact ⟨rfl, master, hmaster, hword⟩
    · rintro ⟨rfl, master', heq, hword⟩
      cases hmaster.symm.trans heq
      exact ⟨hword, rfl⟩

/-- The lookup finds the thread whose index the lower bits of the handle are, if its master
capability names it. -/
lemma Valid.lookup_eq_some_iff (w : ℕ) (t : Word) : s.lookupTcbByHandle w = some t ↔
      t ∈ s.live ∧ s.Named t ∧ w % 2 ^ 31 = s.table.tcbIdx t := by
  have hbound := s.table.numTcbs_lt
  rw [endTcbFreeList] at hbound
  rw [lookupTcbByHandle, HandleTable.lookupTcbByHandle]
  have hword (u : Word) : Fin.ofNat wordSpace u = u := Fin.ext (Nat.mod_eq_of_lt u.isLt)
  by_cases hlt : w % 2 ^ 31 < s.table.numTcbs
  · have hindex : w % 2 ^ 30 = w % 2 ^ 31 := by omega
    rw [if_pos hlt, hindex, ite_none_right_eq_some]
    constructor
    · rintro ⟨habove, hlock⟩
      rcases h.free_or_owned hlt with hfree | ⟨u, hu, hentry, hidx⟩
      · exact absurd habove (h.not_above_of_mem_free hfree)
      · rw [hentry, hword] at hlock
        obtain ⟨rfl, hnamed⟩ := acquireReadLockTcb_eq_some_iff.1 hlock
        exact ⟨hu, hnamed, hidx.symm⟩
    · rintro ⟨ht, hnamed, hidx⟩
      have hentry := h.entry t ht
      rw [← hidx] at hentry
      rw [hentry, hword]
      exact ⟨h.above t ht, acquireReadLockTcb_eq_some_iff.2 ⟨rfl, hnamed⟩⟩
  · rw [if_neg hlt]
    refine ⟨nofun, fun ⟨ht, _, hidx⟩ => absurd ?_ hlt⟩
    rw [hidx]
    exact h.idx_lt t ht

/-- The lower bits of a handle are the index. -/
lemma Valid.threadhandle_mod {t : Word} (ht : t ∈ s.live) :
    threadhandle (s.table.tcbIdx t) % 2 ^ 31 = s.table.tcbIdx t := by
  have hlt := h.idx_lt t ht
  have hbound := s.table.numTcbs_lt
  rw [endTcbFreeList] at hbound
  rw [threadhandle]
  omega

end

section Runs

variable [DecidableEq κ] [DecidableEq ι] [Fintype κ] [Fintype ι]

lemma valid_of_run {table : HandleTable} {ops : List (HandleOp κ)}
    (hrun : run step (init table) ops = some s) : ∃ free, s.Valid free := by
  refine run_invariant (P := fun s => ∃ free, s.Valid free) ?_ ⟨_, init_valid table⟩ hrun
  rintro s op s' ⟨free, h⟩ hstep
  exact h.step hstep

/-- In every state that allocating and freeing control blocks leads to, with capabilities written and
cleared between, the free list has no entry twice and has exactly the entries that no thread owns; an
entry is a link or the control block of the thread with that index; threads have different handles;
the handle of a thread whose master capability names it finds the thread; and the lookup of a word
whose lower 31 bits are not the index of such a thread finds nothing. -/
theorem handleTable_sound (table : HandleTable) (ops : List (HandleOp κ)) (s : HandleState κ ι)
    (hrun : run step (init table) ops = some s) : (∃ free, s.table.FreeList free ∧ free.Nodup ∧
      (∀ i, i ∈ free ↔ i < s.table.numTcbs ∧ ∀ t ∈ s.live, s.table.tcbIdx t ≠ i) ∧
      ∀ i < s.table.numTcbs,
        (i ∈ free ∧ (s.table.threadHandleArray i = endTcbFreeList ∨
          s.table.threadHandleArray i ∈ free)) ∨
        ∃ t ∈ s.live, s.table.threadHandleArray i = t ∧ s.table.tcbIdx t = i) ∧
      (∀ t ∈ s.live, ∀ u ∈ s.live,
        threadhandle (s.table.tcbIdx t) = threadhandle (s.table.tcbIdx u) → t = u) ∧
      (∀ t ∈ s.live, s.Named t →
        s.lookupTcbByHandle (threadhandle (s.table.tcbIdx t)) = some t) ∧
      ∀ w, (∀ t ∈ s.live, s.Named t → w % 2 ^ 31 ≠ s.table.tcbIdx t) →
        s.lookupTcbByHandle w = none := by
  obtain ⟨free, h⟩ := valid_of_run hrun
  refine ⟨⟨free, h.freeList, h.freeList.nodup, h.mem_free, fun i hi => ?_⟩,
    fun t ht u hu heq => ?_, fun t ht hnamed => ?_, fun w hw => ?_⟩
  · rcases h.free_or_owned hi with hfree | hown
    · exact .inl ⟨hfree, h.link hfree⟩
    · exact .inr hown
  · have hmod := congrArg (· % 2 ^ 31) heq
    simp only [h.threadhandle_mod ht, h.threadhandle_mod hu] at hmod
    exact h.idx_inj ht hu hmod
  · exact (h.lookup_eq_some_iff _ t).2 ⟨ht, hnamed, h.threadhandle_mod ht⟩
  · refine eq_none_iff_forall_ne_some.2 fun t heq => ?_
    obtain ⟨ht, hnamed, hidx⟩ := (h.lookup_eq_some_iff w t).1 heq
    exact hw t ht hnamed hidx

end Runs

/-- Four entries. -/
def fourEntries : HandleTable :=
  ⟨fun _ => 0, 4, 0, fun _ => 0, by decide, by decide⟩

/-- Three control blocks are allocated. The first one is freed, and only the second one has got a
capability. -/
def fiveOps : List (HandleOp Unit) :=
  [.allocate (some 0x88300000), .allocate (some 0x88300400), .addThreadCap () 5 0x88300400,
    .free 0x88300000, .allocate (some 0x88300800)]

/-- The second thread is found by its handle. The third one, which has taken over the handle of the
first one, is not found yet. -/
theorem handleTable_sound_five :
    ∃ s : HandleState Unit Unit, run step (init fourEntries) fiveOps = some s ∧
      s.live = [0x88300800, 0x88300400] ∧ s.table.tcbIdx 0x88300400 = 1 ∧
      s.table.tcbIdx 0x88300800 = 0 ∧ s.lookupTcbByHandle (threadhandle 1) = some 0x88300400 ∧
      s.lookupTcbByHandle (threadhandle 0) = none := by
  refine exists_run (Q := fun s => s.live = [0x88300800, 0x88300400] ∧
    s.table.tcbIdx 0x88300400 = 1 ∧ s.table.tcbIdx 0x88300800 = 0 ∧
    s.caps.masterCap 0x88300400 = some (.entry () 5) ∧
    s.caps.word (.entry () 5) = .thread 0x88300400 ∧ s.caps.masterCap 0x88300800 = none)
    (by decide) fun s hrun hview => ?_
  obtain ⟨hlive, hidx, hidx', hmaster, hword, hnone⟩ := hview
  obtain ⟨-, -, hfinds, hmisses⟩ := handleTable_sound fourEntries fiveOps s hrun
  refine ⟨hlive, hidx, hidx', ?_, hmisses _ fun t ht hnamed => ?_⟩
  · have hmem : 0x88300400 ∈ s.live := by
      rw [hlive]
      decide
    have hfound := hfinds _ hmem ⟨_, hmaster, hword⟩
    rwa [show s.table.tcbIdx ((0x88300400 : Word) : ℕ) = 1 from hidx] at hfound
  · rw [hlive] at ht
    obtain ⟨master, heq, -⟩ := hnamed
    rcases mem_cons.1 ht with rfl | ht
    · rw [hnone] at heq
      cases heq
    · rw [mem_singleton.1 ht, show s.table.tcbIdx ((0x88300400 : Word) : ℕ) = 1 from hidx]
      decide

/-- The lookup of the bare index, which is not the handle of a thread, finds the thread. -/
theorem lookup_finds_bare_index : ∃ s : HandleState Unit Unit, run step (init fourEntries)
        [.allocate (some 0x88300000), .addThreadCap () 5 0x88300000] = some s ∧
      s.live = [0x88300000] ∧ threadhandle (s.table.tcbIdx 0x88300000) = 0x80000000 ∧
      s.lookupTcbByHandle 0 = some 0x88300000 := by
  exact exists_run (by decide) fun _ _ hview => hview

end HandleState

end Okl4Kernel
