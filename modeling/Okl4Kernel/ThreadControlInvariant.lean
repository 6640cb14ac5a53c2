import Okl4Kernel.ThreadControl

/-!
# ThreadControl keeps its data structures

The invariant `ThreadKernel.Valid` relates what `ThreadControl` works on: the threads that have
capabilities are the control blocks in use, and they are in the lists of their spaces. It is kept by
every operation (`Valid.step`).

A creation that fails after its control block was allocated goes through `Withdrawn`: everything is
as before, but the memory has seen an allocation and a deallocation.
-/

namespace Okl4Kernel.ThreadKernel

open TransitionSystem Function List Option

variable {κ ι σ : Type*} {s s' : ThreadKernel κ ι σ}
variable {stale : StaleHeader} {tcb : Word}

/-! ## UTCBs -/

/-- Nothing but the heap and the page tables has changed, and no block of the heap was freed that had
been in use. -/
structure SameButHeap (s s' : ThreadKernel κ ι σ) : Prop where
  caps : s'.caps = s.caps
  handles : s'.handles = s.handles
  tcbs : s'.memory.tcbs = s.memory.tcbs
  threadList : s'.threadList = s.threadList
  space : s'.space = s.space
  heap : ∃ fl, s'.memory.heap.Ok fl
  managed : s'.memory.heap.managed = s.memory.heap.managed
  live : ∀ b ∈ s.memory.heap.live, b ∈ s'.memory.heap.live

section Utcb

variable [DecidableEq σ] {sp : σ} {location page : ℕ} {r : ThreadKernel κ ι σ × ThreadControlResult}

/-- `allocate_utcb` works on the heap and on the page table. If it fails, the blocks in use are the
same. -/
lemma allocateUtcb_same {fl : List ℕ} (hok : s.memory.heap.Ok fl)
    (halloc : s.allocateUtcb sp location = r) :
    SameButHeap s r.1 ∧ (r.2 ≠ .success → r.1.memory.heap.live = s.memory.heap.live) := by
  have hself : SameButHeap s s := ⟨rfl, rfl, rfl, rfl, rfl, ⟨fl, hok⟩, rfl, fun _ hb => hb⟩
  unfold allocateUtcb at halloc
  split at halloc
  · subst halloc
    exact ⟨hself, fun _ => rfl⟩
  split at halloc
  · subst halloc
    exact ⟨hself, fun _ => rfl⟩
  split at halloc
  · subst halloc
    exact ⟨hself, fun _ => rfl⟩
  next k page hpage =>
    obtain ⟨fl₁, hok₁⟩ := hok.allocAligned (by decide) hpage
    set heap := s.memory.heap.allocated (utcbPageSize / chunkSize) (some (k, page)) with hheap
    unfold mapUtcb at halloc
    split at halloc
    · subst halloc
      refine ⟨⟨rfl, rfl, rfl, rfl, rfl, ⟨fl₁, hok₁⟩, rfl, fun b hb => ?_⟩, fun hne => absurd rfl hne⟩
      exact mem_cons_of_mem _ hb
    split at halloc
    · -- The page goes back to the heap.
      subst halloc
      have herase : (heap.release page utcbPageSize).live = s.memory.heap.live := by
        exact erase_cons_head ..
      have hmem : (⟨page, Heap.freeSize utcbPageSize / chunkSize⟩ : Block) ∈ heap.live :=
        mem_cons_self
      refine ⟨⟨rfl, rfl, rfl, rfl, rfl, hok₁.release (by decide) hmem, rfl, fun b hb => ?_⟩,
        fun _ => herase⟩
      exact herase.symm ▸ hb
    next table htable =>
      subst halloc
      have hsize : Kmem.roundUp (1024 : Word) = 2 ^ 10 := by decide
      obtain ⟨-, -, -, fl₂, hok₂⟩ := hok₁.alloc hsize htable
      refine ⟨⟨rfl, rfl, rfl, rfl, rfl, ⟨fl₂, hok₂⟩, rfl, fun b hb => ?_⟩, fun hne => absurd rfl hne⟩
      exact mem_cons_of_mem _ (mem_cons_of_mem _ hb)

end Utcb

/-! ## Control blocks -/

/-- What is known of a control block that has been allocated. -/
lemma Valid.allocateTcb (h : s.Valid) (halloc : s.allocateTcb stale = (s', some tcb)) :
    s.handles.freeTcbIdx ≠ endTcbFreeList ∧ s.caps.live tcb = false ∧
      ∃ memory, s.memory.alloc stale = (memory, some (tcb : ℕ)) ∧
        s' = { s with memory := memory, handles := s.handles.takeEntry tcb } := by
  unfold ThreadKernel.allocateTcb at halloc
  split_ifs at halloc with hidx
  · simp at halloc
  rcases hmem : s.memory.alloc stale with ⟨memory, ret⟩
  rcases ret with _ | ret
  · simp [hmem] at halloc
  obtain ⟨-, -, hfresh, hlt, -⟩ := h.memory.alloc hmem
  simp only [hmem, Prod.mk.injEq, some.injEq] at halloc
  obtain ⟨rfl, rfl⟩ := halloc
  have hval : (Fin.ofNat wordSpace ret : ℕ) = ret := Nat.mod_eq_of_lt hlt
  refine ⟨hidx, ?_, memory, by rw [hval], by rw [hval]⟩
  rw [← Bool.not_eq_true, h.live_iff, hval]
  exact hfresh

/-- A control block is taken from an unused block without asking the heap. -/
lemma Valid.allocateTcb_of_firstUnused (h : s.Valid) (hidx : s.handles.freeTcbIdx ≠ endTcbFreeList)
    (hunused : s.memory.FirstUnused) (stale : StaleHeader) :
    ∃ s' tcb, s.allocateTcb stale = (s', some tcb) ∧ s'.memory.heap = s.memory.heap := by
  obtain ⟨memory, object, halloc, hheap⟩ := h.memory.alloc_of_firstUnused hunused stale
  rw [ThreadKernel.allocateTcb, if_neg hidx, halloc]
  exact ⟨_, _, rfl, hheap⟩

lemma Valid.allocateTcb_none (h : s.Valid) (halloc : s.allocateTcb stale = (s', none)) :
    s' = s := by
  unfold ThreadKernel.allocateTcb at halloc
  split_ifs at halloc
  · simpa using halloc.symm
  · rcases hmem : s.memory.alloc stale with ⟨memory, ret⟩
    rcases ret with _ | ret
    · simp only [hmem, Prod.mk.injEq, and_true] at halloc
      obtain ⟨-, rfl⟩ | ⟨_, _, _, _, _, _, ⟨⟩, _⟩ := h.memory.alloc_cases hmem
      exact halloc.symm
    · simp [hmem] at halloc

/-- A creation that was undone: everything is as before, except that memory was allocated and freed
again. -/
structure Withdrawn (s s' : ThreadKernel κ ι σ) (stale : StaleHeader) (tcb : Word) : Prop where
  dead : s.caps.live tcb = false
  linked : s'.caps.Linked
  word : s'.caps.word = s.caps.word
  capsLive : s'.caps.live = s.caps.live
  clist : s'.caps.clist = s.caps.clist
  threadHandleArray : s'.handles.threadHandleArray = s.handles.threadHandleArray
  freeTcbIdx : s'.handles.freeTcbIdx = s.handles.freeTcbIdx
  memory : ∃ memory heap fl, s.memory.alloc stale = (memory, some (tcb : ℕ)) ∧ heap.Ok fl ∧
    heap.live = memory.heap.live ∧ heap.managed = s.memory.heap.managed ∧
    s'.memory = TcbMemory.free ⟨heap, memory.tcbs⟩ tcb
  threadList : s'.threadList = s.threadList
  space : ∀ t ≠ tcb, s'.space t = s.space t

/-- The same control blocks are in use after a creation that was undone. -/
lemma Withdrawn.memory_ok (hw : Withdrawn s s' stale tcb) (h : s.Valid) :
    s'.memory.Ok ∧ s'.memory.tcbs.live = s.memory.tcbs.live ∧
      s'.memory.heap.managed = s.memory.heap.managed := by
  obtain ⟨memory, heap, fl, halloc, hok, hlive, hmanaged, hfree⟩ := hw.memory
  obtain ⟨hmemory, htcbs, -⟩ := h.memory.alloc halloc
  have hmemory' : TcbMemory.Ok ⟨heap, memory.tcbs⟩ :=
    hmemory.withHeap hok fun b hb => hlive ▸ hmemory.blocks b hb
  have hmem : (tcb : ℕ) ∈ (⟨heap, memory.tcbs⟩ : TcbMemory).tcbs.live := by
    rw [htcbs]
    exact mem_cons_self
  obtain ⟨hok', htcbs', hmanaged'⟩ := hmemory'.free hmem
  rw [← hfree] at hok' htcbs' hmanaged'
  rw [htcbs, erase_cons_head] at htcbs'
  exact ⟨hok', htcbs', hmanaged'.trans hmanaged⟩

lemma Withdrawn.valid (hw : Withdrawn s s' stale tcb) (h : s.Valid) : s'.Valid := by
  obtain ⟨hok, htcbs, -⟩ := hw.memory_ok h
  refine ⟨hw.linked, hok, fun t => ?_, fun sp t => ?_, fun sp => ?_⟩
  · rw [hw.capsLive, htcbs, h.live_iff]
  · rw [hw.threadList, hw.capsLive, h.mem_threadList]
    refine and_congr_right fun ht => ?_
    rw [hw.space t]
    rintro rfl
    rw [hw.dead] at ht
    cases ht
  · rw [hw.threadList]
    exact h.nodup sp

lemma init_valid (size : KtcbSize) (handles : HandleTable) (utcbArea : σ → Fpage)
    (pageTable : σ → ℕ → L1Entry) :
    (init size handles utcbArea pageTable : ThreadKernel κ ι σ).Valid :=
  ⟨Caps.linked_init, TcbMemory.init_ok size, fun t => by simp [init, Caps.init, TcbMemory.init,
    SmallAlloc.Client.init], fun sp t => by simp [init, Caps.init], fun sp => nodup_nil⟩

variable [DecidableEq σ]

/-- A thread is in no other list than that of its space. -/
lemma Valid.removeTcb_eq (h : s.Valid) (caps : Caps Word κ ι) (tcb : Word) :
    { s with caps := caps }.removeTcb tcb =
      { s with caps := caps, threadList := fun sp => (s.threadList sp).erase tcb } := by
  have herase : ∀ sp, s.space tcb ≠ some sp → (s.threadList sp).erase tcb = s.threadList sp := by
    intro sp hne
    refine erase_of_not_mem ?_
    rw [h.mem_threadList]
    exact fun hin => hne hin.2
  unfold removeTcb
  rcases hspace : s.space tcb with _ | sp'
  · simp only [hspace] at herase ⊢
    congr 1
    exact funext fun sp => (herase sp (by simp)).symm
  · simp only [hspace] at herase ⊢
    congr 1
    funext sp
    rw [update_apply]
    split_ifs with hsp
    · rw [hsp]
    · exact (herase sp fun heq => hsp (some.inj heq).symm).symm

variable [DecidableEq κ] [DecidableEq ι] [Fintype κ] [Fintype ι]

/-- The state of a creation before it fails or succeeds for good: the thread is everywhere. -/
structure Entered (s s' : ThreadKernel κ ι σ) (a : ThreadControlArgs κ σ) (sp : σ) (tcb : Word)
    (memory : TcbMemory) : Prop where
  dead : s.caps.live tcb = false
  valid : s.caps.isValid a.clist a.destTid = true
  alloc : s.memory.alloc a.stale = (memory, some (tcb : ℕ))
  handles : s'.handles = s.handles.takeEntry tcb
  caps : ∃ caps, (s.caps.initTcb tcb).addThreadCap a.clist a.destTid tcb = some caps ∧
    s'.caps = (caps.setThreadHandlers a.clist tcb a.pagerTid a.exceptHandlerTid).1
  tcbs : s'.memory.tcbs = memory.tcbs
  heap : ∃ fl, s'.memory.heap.Ok fl
  managed : s'.memory.heap.managed = s.memory.heap.managed
  live : ∀ b ∈ memory.heap.live, b ∈ s'.memory.heap.live
  threadList : s'.threadList = update s.threadList sp (s.threadList sp ++ [tcb])
  space : s'.space = update s.space tcb (some sp)

variable {a : ThreadControlArgs κ σ} {sp : σ} {memory : TcbMemory}
variable {r : ThreadKernel κ ι σ × ThreadControlResult}

lemma Entered.of_same (he : Entered s s' a sp tcb memory) {s'' : ThreadKernel κ ι σ}
    (hsame : SameButHeap s' s'') : Entered s s'' a sp tcb memory where
  __ := he
  handles := hsame.handles.trans he.handles
  caps := hsame.caps ▸ he.caps
  tcbs := hsame.tcbs.trans he.tcbs
  heap := hsame.heap
  managed := hsame.managed.trans he.managed
  live := fun b hb => hsame.live b (he.live b hb)
  threadList := hsame.threadList.trans he.threadList
  space := hsame.space.trans he.space

/-- The thread is taken out again, if the UTCB has not changed the blocks in use. -/
lemma Entered.withdrawn (he : Entered s s' a sp tcb memory) (h : s.Valid)
    (hlive : s'.memory.heap.live = memory.heap.live) :
    Withdrawn s (s'.withdraw a.clist a.destTid tcb) a.stale tcb := by
  obtain ⟨caps, hadd, hcaps⟩ := he.caps
  obtain ⟨caps₃, hremove, hlinked, hword, hcapsLive, hclist⟩ :=
    h.linked.undo_createThread he.dead he.valid hadd (Prod.ext hcaps.symm rfl)
  obtain ⟨harray, hidx⟩ := s.handles.freeTcb_takeEntry tcb
  obtain ⟨fl, hok⟩ := he.heap
  have hnotin : tcb ∉ s.threadList sp := by
    rw [h.mem_threadList, he.dead]
    simp
  have hspace : s'.space tcb = some sp := by rw [he.space, update_self]
  have hlist : update s'.threadList sp ((s'.threadList sp).erase tcb) = s.threadList := by
    rw [he.threadList, update_self, erase_append_right _ hnotin,
      erase_cons_head, append_nil, update_idem, update_eq_self]
  have hwithdraw : s'.withdraw a.clist a.destTid tcb =
      { s' with caps := caps₃, threadList := s.threadList }.deleteTcb tcb := by
    rw [withdraw, hremove]
    dsimp only
    rw [removeTcb, hspace]
    dsimp only
    rw [hlist]
  rw [hwithdraw]
  refine ⟨he.dead, hlinked, hword, hcapsLive, hclist, ?_, ?_,
    ⟨memory, s'.memory.heap, fl, he.alloc, hok, hlive, he.managed, ?_⟩, rfl, fun t ht => ?_⟩
  · change (s'.handles.freeTcb tcb).threadHandleArray = _
    rw [he.handles, harray]
  · change (s'.handles.freeTcb tcb).freeTcbIdx = _
    rw [he.handles, hidx]
  · change s'.memory.free tcb = _
    rw [← he.tcbs]
  · change update s'.space tcb none t = _
    rw [he.space, update_of_ne ht, update_of_ne ht]

lemma Entered.valid_of (he : Entered s s' a sp tcb memory) (h : s.Valid) : s'.Valid := by
  obtain ⟨caps, hadd, hcaps⟩ := he.caps
  obtain ⟨h₁, hlive₁, -⟩ := h.linked.addThreadCap he.dead he.valid hadd
  obtain ⟨-, -, heq₁⟩ := h.linked.addThreadCap_eq he.dead hadd
  obtain ⟨h₂, hsame₂, -⟩ := h₁.setThreadHandlers hlive₁ (Prod.ext hcaps.symm rfl)
  obtain ⟨hmemory, htcbs, -⟩ := h.memory.alloc he.alloc
  obtain ⟨fl, hok⟩ := he.heap
  have hcapsLive : s'.caps.live = update s.caps.live tcb true := by
    rw [hsame₂.live, heq₁]
    rfl
  have hmemory' : s'.memory.Ok := by
    have := hmemory.withHeap hok fun b hb => he.live _ (hmemory.blocks b hb)
    rwa [← he.tcbs] at this
  refine ⟨h₂, hmemory', fun t => ?_, fun sp' t => ?_, fun sp' => ?_⟩
  · rw [hcapsLive, he.tcbs, htcbs, mem_cons, ← h.live_iff, update_apply, Fin.val_inj]
    split_ifs with heq <;> simp [heq]
  · have hmem : t ∈ s'.threadList sp' ↔ t ∈ s.threadList sp' ∨ t = tcb ∧ sp' = sp := by
      rw [he.threadList, update_apply]
      split_ifs with hsp <;> simp [hsp]
    rw [hmem, hcapsLive, he.space, h.mem_threadList]
    by_cases ht : t = tcb
    · rw [ht, update_self, update_self, he.dead]
      simp [eq_comm]
    · simp [ht]
  · rw [he.threadList, update_apply]
    split_ifs
    · refine (perm_append_singleton tcb _).nodup_iff.2 (nodup_cons.2 ⟨?_, h.nodup sp⟩)
      simp [h.mem_threadList, he.dead]
    · exact h.nodup sp'

/-! ## The system call -/

/-- A creation ends before anything is changed, or it gets a control block. -/
lemma Valid.createThread_cases (h : s.Valid) {space : Option σ}
    (hcreate : s.createThread a space = r) : (∃ code, r = (s, .failure code)) ∨
      ∃ sp tcb s₀, space = some sp ∧ s.caps.isValid a.clist a.destTid = true ∧
        (s.utcbSpace sp).checkUtcbLocation a.utcbAddress = true ∧
        s.allocateTcb a.stale = (s₀, some tcb) ∧ s₀.enterThread a sp tcb = r := by
  unfold createThread at hcreate
  split_ifs at hcreate with hvalid
  · exact .inl ⟨_, hcreate.symm⟩
  rw [Bool.not_eq_false] at hvalid
  rcases space with _ | sp
  · exact .inl ⟨_, hcreate.symm⟩
  dsimp only at hcreate
  split_ifs at hcreate with hcheck
  · exact .inl ⟨_, hcreate.symm⟩
  rw [Bool.not_eq_false] at hcheck
  rcases halloc : s.allocateTcb a.stale with ⟨s₀, tcb⟩
  rcases tcb with _ | tcb
  · rw [halloc] at hcreate
    rw [h.allocateTcb_none halloc] at hcreate
    exact .inl ⟨_, hcreate.symm⟩
  · rw [halloc] at hcreate
    exact .inr ⟨sp, tcb, s₀, rfl, hvalid, hcheck, rfl, hcreate⟩

/-- The end of a creation: it succeeds, or it is undone. -/
lemma Valid.startThread (h : s.Valid) {s₁ : ThreadKernel κ ι σ} (he : Entered s { s₁ with caps :=
      (s₁.caps.setThreadHandlers a.clist tcb a.pagerTid a.exceptHandlerTid).1 } a sp tcb memory)
    (hlive : s₁.memory.heap.live = memory.heap.live) (hstart : s₁.startThread a sp tcb = r) :
    (∃ memory, Entered s r.1 a sp tcb memory ∧ r.2 = .success) ∨
      ∃ code, Withdrawn s r.1 a.stale tcb ∧ r.2 = .failure code := by
  unfold ThreadKernel.startThread at hstart
  rcases hset : s₁.caps.setThreadHandlers a.clist tcb a.pagerTid a.exceptHandlerTid with ⟨caps, ok⟩
  rw [hset] at he hstart
  rcases ok with _ | _
  · obtain rfl := hstart
    exact .inr ⟨_, he.withdrawn h hlive, rfl⟩
  dsimp only at hstart
  obtain ⟨fl, hok⟩ := he.heap
  rcases hutcb : { s₁ with caps := caps }.allocateUtcb sp a.utcbAddress with ⟨s₂, result⟩
  obtain ⟨hsame, hfailed⟩ := allocateUtcb_same hok hutcb
  rw [hutcb] at hstart
  cases result with
  | success =>
    obtain rfl := hstart
    exact .inl ⟨memory, he.of_same hsame, rfl⟩
  | failure code =>
    obtain rfl := hstart
    have hlive₂ := (hfailed (by simp)).trans hlive
    exact .inr ⟨code, (he.of_same hsame).withdrawn h hlive₂, rfl⟩

/-- A creation that has got a control block succeeds, or it is undone. -/
lemma Valid.enterThread (h : s.Valid) {s₀ : ThreadKernel κ ι σ}
    (hvalid : s.caps.isValid a.clist a.destTid = true)
    (halloc : s.allocateTcb a.stale = (s₀, some tcb)) (henter : s₀.enterThread a sp tcb = r) :
    (∃ memory, Entered s r.1 a sp tcb memory ∧ r.2 = .success) ∨
      ∃ code, Withdrawn s r.1 a.stale tcb ∧ r.2 = .failure code := by
  obtain ⟨-, hdead, memory, hmem, rfl⟩ := h.allocateTcb halloc
  obtain ⟨hmemory, -, -, -, hmanaged⟩ := h.memory.alloc hmem
  obtain ⟨fl, hok⟩ := hmemory.heap
  unfold ThreadKernel.enterThread at henter
  dsimp only at henter
  rcases hadd : (s.caps.initTcb tcb).addThreadCap a.clist a.destTid tcb with _ | caps
  · rw [hadd] at henter
    obtain rfl := henter
    obtain ⟨harray, hidx⟩ := s.handles.freeTcb_takeEntry tcb
    have hcaps := h.linked.deleteTcb_initTcb hdead
    have hlinked : ((s.caps.initTcb tcb).deleteTcb tcb).Linked := by
      rw [hcaps]
      exact h.linked
    exact .inr ⟨_, ⟨hdead, hlinked, congrArg Caps.word hcaps, congrArg Caps.live hcaps,
      congrArg Caps.clist hcaps, harray, hidx,
      ⟨memory, memory.heap, fl, hmem, hok, rfl, hmanaged, rfl⟩, rfl,
      fun t ht => update_of_ne ht _ _⟩, rfl⟩
  · rw [hadd] at henter
    have hentered : Entered s { ({ s with
          memory := memory, handles := s.handles.takeEntry tcb, caps := caps }.addTcb sp tcb) with
        caps := (caps.setThreadHandlers a.clist tcb a.pagerTid a.exceptHandlerTid).1 }
        a sp tcb memory :=
      ⟨hdead, hvalid, hmem, rfl, ⟨caps, hadd, rfl⟩, rfl, ⟨fl, hok⟩, hmanaged, fun _ hb => hb, rfl,
        rfl⟩
    exact h.startThread hentered rfl henter

lemma Valid.withdraw (h : s.Valid) {c : κ} {tid : ℕ}
    (hlookup : s.caps.lookupThreadCap c tid = some tcb) : (s.withdraw c tid tcb).Valid := by
  obtain ⟨hword, hlive⟩ := h.linked.toPlaced.lookupThreadCap hlookup
  obtain ⟨hlinked, -, hcapsLive, -⟩ := h.linked.deleteTcb tcb
  obtain ⟨hmemory, htcbs, -⟩ := h.memory.free ((h.live_iff tcb).1 hlive)
  have hwithdraw : s.withdraw c tid tcb =
      { s with
        caps := s.caps.invalidateReference tcb
        threadList := fun sp => (s.threadList sp).erase tcb }.deleteTcb tcb := by
    rw [ThreadKernel.withdraw, Caps.removeThreadCap, hword, ← h.removeTcb_eq]
  rw [hwithdraw]
  refine ⟨hlinked, hmemory, fun t => ?_, fun sp t => ?_, fun sp => (h.nodup sp).erase tcb⟩
  · change ((s.caps.invalidateReference tcb).deleteTcb tcb).live t = true ↔
      (t : ℕ) ∈ (s.memory.free tcb).tcbs.live
    rw [hcapsLive, htcbs, h.memory.kept.nodup.mem_erase_iff, ← h.live_iff, update_apply, ne_eq,
      Fin.val_inj]
    split_ifs with heq <;> simp [heq]
  · change t ∈ (s.threadList sp).erase tcb ↔
      ((s.caps.invalidateReference tcb).deleteTcb tcb).live t = true ∧
        update s.space tcb none t = some sp
    rw [hcapsLive, (h.nodup sp).mem_erase_iff, h.mem_threadList, update_apply, update_apply]
    split_ifs with heq <;> simp [heq]

omit [DecidableEq σ] [DecidableEq κ] [DecidableEq ι] [Fintype κ] [Fintype ι] in
/-- Capabilities may change, if the same threads exist. -/
lemma Valid.withCaps (h : s.Valid) {caps : Caps Word κ ι} (hlinked : caps.Linked)
    (hlive : caps.live = s.caps.live) : Valid { s with caps } := by
  refine ⟨hlinked, h.memory, fun t => ?_, fun sp t => ?_, h.nodup⟩
  · rw [hlive]
    exact h.live_iff t
  · rw [hlive]
    exact h.mem_threadList sp t

omit [DecidableEq σ] in
lemma Valid.setThreadHandlers (h : s.Valid) {c : κ} {tid pagerTid exceptHandlerTid : ℕ}
    {dest : Word} {caps : Caps Word κ ι} {ok : Bool}
    (hlookup : s.caps.lookupThreadCap c tid = some dest)
    (hset : s.caps.setThreadHandlers c dest pagerTid exceptHandlerTid = (caps, ok)) :
    Valid { s with caps } := by
  obtain ⟨-, hlive⟩ := h.linked.toPlaced.lookupThreadCap hlookup
  obtain ⟨hlinked, hsame, -⟩ := h.linked.setThreadHandlers hlive hset
  exact h.withCaps hlinked hsame.live

lemma Valid.threadControl (h : s.Valid) (a : ThreadControlArgs κ σ) : (s.threadControl a).1.Valid := by
  unfold ThreadKernel.threadControl
  split_ifs
  · exact h
  · exact h
  · exact h
  · cases a.spaceId with
    | nilspace =>
      unfold modifyThread
      cases hlookup : s.caps.lookupThreadCap a.clist a.destTid with
      | none => exact h
      | some dest =>
        dsimp only
        split_ifs
        · exact h
        · exact h.withdraw hlookup
        · exact h
        · cases hset : s.caps.setThreadHandlers a.clist dest a.pagerTid a.exceptHandlerTid with
          | mk caps ok => cases ok <;> exact h.setThreadHandlers hlookup hset
    | lookup space =>
      rcases h.createThread_cases rfl with ⟨code, hr⟩ | ⟨sp, tcb, s₀, -, hvalid, -, halloc, henter⟩
      · dsimp only
        rw [hr]
        exact h
      · rcases h.enterThread hvalid halloc henter with ⟨memory, he, -⟩ | ⟨code, hw, -⟩
        · exact he.valid_of h
        · exact hw.valid h

lemma Valid.step (h : s.Valid) {op : Op κ ι σ} (hstep : s.step op = some s') : s'.Valid := by
  cases op with
  | threadControl a =>
    obtain ⟨⟩ := hstep
    exact h.threadControl a
  | caps op =>
    obtain ⟨hop, hstep⟩ := ite_none_left_eq_some.1 hstep
    obtain ⟨caps, hcaps, rfl⟩ := map_eq_some_iff.1 hstep
    obtain ⟨hlinked, hlive⟩ := h.linked.step hcaps
    exact h.withCaps hlinked (hlive (by simpa using hop))
  | heap op =>
    obtain ⟨heap, hheap, hstep⟩ := bind_eq_some_iff.1 hstep
    obtain ⟨hblocks, ⟨⟩⟩ := ite_none_right_eq_some.1 hstep
    obtain ⟨fl, hok⟩ := h.memory.heap
    obtain ⟨⟨fl', hok'⟩, -⟩ := hok.step hheap
    exact { h with memory := h.memory.withHeap hok' hblocks }
  | setSpace sp utcbArea pageTable =>
    obtain ⟨⟩ := hstep
    exact { h with }

lemma valid_of_run {size : KtcbSize} {handles : HandleTable} {utcbArea : σ → Fpage}
    {pageTable : σ → ℕ → L1Entry} {ops : List (Op κ ι σ)}
    (hrun : run step (init size handles utcbArea pageTable) ops = some s) : s.Valid :=
  run_invariant (fun _ _ _ h hstep => h.step hstep)
    (init_valid size handles utcbArea pageTable) hrun

end Okl4Kernel.ThreadKernel
