import Okl4Kernel.ThreadControlInvariant

/-!
# A failed ThreadControl should change nothing

`Unchanged` says what a caller may expect of a call that fails: the handlers of all threads, the
capability lists, the lists of threads, the thread handles and the free memory are as before. There
are two ways in which a call fails and does not keep to this.

* A modification sets the pager before it looks at the exception handler. If there is no thread for
  the exception handler, the call fails with the new pager in place (`OverwritesPager`).
* A creation that fails frees the control block that it has allocated. If the pool had an unused
  block as `first_free`, `free` gives this block back to the heap (`ReleasesBlock`).

All other failures are clean (`threadControl_atomic_iff`).
-/

namespace Okl4Kernel.ThreadKernel

open TransitionSystem Function Option Caps

variable {κ ι σ : Type*} {s s' : ThreadKernel κ ι σ} {a : ThreadControlArgs κ σ} {sp : σ}

/-- What should be the same after a call that fails. -/
structure Unchanged (s s' : ThreadKernel κ ι σ) : Prop where
  /-- Every thread has the same pager and the same exception handler. -/
  handlers : ∀ t, s.caps.live t = true →
    s'.caps.word (.pager t) = s.caps.word (.pager t) ∧
      s'.caps.word (.exceptionHandler t) = s.caps.word (.exceptionHandler t)
  /-- The capability lists have the same entries. -/
  entries : ∀ c i, s'.caps.word (.entry c i) = s.caps.word (.entry c i)
  clists : s'.caps.clist = s.caps.clist
  threadLists : s'.threadList = s.threadList
  /-- The list of free thread handles begins and goes on as before. -/
  freeTcbIdx : s'.handles.freeTcbIdx = s.handles.freeTcbIdx
  threadHandleArray : s'.handles.threadHandleArray = s.handles.threadHandleArray
  /-- The same chunks of kernel memory are free. -/
  chunks : s'.memory.heap.freeChunkSet = s.memory.heap.freeChunkSet

lemma Unchanged.refl (s : ThreadKernel κ ι σ) : Unchanged s s :=
  ⟨fun _ _ => ⟨rfl, rfl⟩, fun _ _ => rfl, rfl, rfl, rfl, rfl, rfl⟩

/-! ## Calls that fail -/

/-- The first checks are passed. -/
def Admitted (a : ThreadControlArgs κ σ) : Prop :=
  (isMyself a.destTid || isMyself a.pagerTid || isMyself a.exceptHandlerTid) = false ∧
    a.kresourced = true ∧ isCapType a.destTid = true

/-- A thread is given another pager, and an exception handler that does not exist. -/
def OverwritesPager (s : ThreadKernel κ ι σ) (a : ThreadControlArgs κ σ) : Prop :=
  Admitted a ∧ a.spaceId = .nilspace ∧ a.utcbAddress = wordSpace - 1 ∧
    ∃ dest pager, s.caps.lookupThreadCap a.clist a.destTid = some dest ∧
      s.caps.lookupThreadCap a.clist a.pagerTid = some pager ∧
      s.caps.word (.pager dest) ≠ .ref pager ∧
      s.caps.handlerOk a.clist a.exceptHandlerTid = false

/-- A handler argument of a creation is accepted; the handler may be the new thread itself. -/
def newHandlerOk (s : ThreadKernel κ ι σ) (a : ThreadControlArgs κ σ) (tid : ℕ) : Bool :=
  s.caps.handlerOk a.clist tid || (isCapType tid && decide (capIndex tid = capIndex a.destTid))

/-- There is a page for the UTCB, or memory for it and for its page table. -/
def utcbAvailable (s : ThreadKernel κ ι σ) (sp : σ) (location : ℕ) : Bool :=
  let page := s.memory.heap.kmem.allocAligned utcbPageSize location pageColorAlign true
  match s.pageTable sp (location / utcbPageSize / 256) with
  | .large => false
  | .table entries => (entries (location / utcbPageSize % 256)).isSome || page.isSome
  | .invalid => page.any fun r => (r.1.alloc shL2Size true).isSome

/-- A creation fails after the allocation of its control block. -/
def StartFails (s : ThreadKernel κ ι σ) (a : ThreadControlArgs κ σ) (sp : σ) : Prop :=
  s.caps.word (.entry a.clist (capIndex a.destTid)) ≠ .invalid ∨
    s.newHandlerOk a a.pagerTid = false ∨ s.newHandlerOk a a.exceptHandlerTid = false ∨
    s.utcbAvailable sp a.utcbAddress = false

/-- A creation takes its control block from an unused block of the pool, and fails. -/
def ReleasesBlock (s : ThreadKernel κ ι σ) (a : ThreadControlArgs κ σ) : Prop :=
  Admitted a ∧ ∃ sp, a.spaceId = .lookup (some sp) ∧ s.caps.isValid a.clist a.destTid = true ∧
    (s.utcbSpace sp).checkUtcbLocation a.utcbAddress = true ∧
    s.handles.freeTcbIdx ≠ endTcbFreeList ∧ s.memory.FirstUnused ∧ s.StartFails a sp

lemma allocateUtcb_success_iff [DecidableEq σ] (location : ℕ) :
    (s.allocateUtcb sp location).2 = .success ↔ s.utcbAvailable sp location = true := by
  unfold allocateUtcb utcbAvailable UtcbSpace.leaf utcbSpace
  dsimp only
  cases hentry : s.pageTable sp (location / utcbPageSize / 256) with
  | large => simp
  | table entries =>
    dsimp only
    cases entries (location / utcbPageSize % 256) with
    | some frame => simp
    | none =>
      rcases s.memory.heap.kmem.allocAligned utcbPageSize location pageColorAlign true with _ | r
      · simp
      · simp [mapUtcb, setHeap, hentry]
  | invalid =>
    rcases s.memory.heap.kmem.allocAligned utcbPageSize location pageColorAlign true with _ | r
    · simp
    simp only [mapUtcb, setHeap, hentry, Heap.allocated, any_some]
    rcases r.1.alloc shL2Size true with _ | r' <;> simp

variable {tcb : Word}

/-- A creation that was undone is clean exactly if it has not used an unused block. -/
lemma Withdrawn.unchanged_iff {stale : StaleHeader} (hw : Withdrawn s s' stale tcb)
    (h : s.Valid) : Unchanged s s' ↔ ¬ s.memory.FirstUnused := by
  obtain ⟨memory, heap, fl, halloc, hok, hlive, hmanaged, hfree⟩ := hw.memory
  obtain ⟨fl₀, hok₀⟩ := h.memory.heap
  obtain ⟨hmemory, -, hmanaged'⟩ := hw.memory_ok h
  obtain ⟨fl', hok'⟩ := hmemory.heap
  obtain ⟨hclean, hreleased⟩ := h.memory.free_alloc halloc hlive
  rw [← hfree] at hclean hreleased
  constructor
  · intro hunchanged hunused
    -- The block that was unused is now free, as far as the heap is concerned.
    obtain ⟨hheap, base, hmem, hrelease⟩ := hreleased hunused
    rw [hheap] at hlive
    have hsize : Heap.freeSize SmallAlloc.blockSize % chunkSize = 0 := by decide
    refine hok.freeChunkSet_release hsize (hlive ▸ hmem) ?_
    rw [← hrelease, hunchanged.chunks, hok₀.freeChunkSet_eq hok hlive hmanaged]
  · intro hunused
    refine ⟨fun t _ => ⟨by rw [hw.word], by rw [hw.word]⟩, fun c i => by rw [hw.word], hw.clist,
      hw.threadList, hw.freeTcbIdx, hw.threadHandleArray,
      hok₀.freeChunkSet_eq hok' (hclean hunused) hmanaged'⟩

variable [DecidableEq κ] [DecidableEq ι]

/-- Behind its creation, the capability of a thread can be used for its own handlers. -/
lemma newHandlerOk_eq {caps : Caps Word κ ι} (hvalid : s.caps.isValid a.clist a.destTid = true)
    (hfree : s.caps.word (.entry a.clist (capIndex a.destTid)) = .invalid)
    (hword : caps.word = update s.caps.word (.entry a.clist (capIndex a.destTid)) (.thread tcb))
    (hclist : caps.clist = s.caps.clist) (tid : ℕ) :
    caps.handlerOk a.clist tid = s.newHandlerOk a tid := by
  have hsome : (caps.lookupThreadCap a.clist tid).isSome =
      ((s.caps.lookupThreadCap a.clist tid).isSome ||
        (isCapType tid && decide (capIndex tid = capIndex a.destTid))) := by
    by_cases hindex : capIndex tid = capIndex a.destTid
    · have hvalid' : s.caps.isValid a.clist tid = true := by
        rw [isValid, hindex]
        exact hvalid
      have hvalid₁ : caps.isValid a.clist tid = true := by
        rw [isValid, numEntries, hclist]
        exact hvalid'
      unfold lookupThreadCap
      rw [hvalid', hvalid₁, hindex, hword, update_self, hfree]
      cases isCapType tid <;> simp
    · have hlookup : caps.lookupThreadCap a.clist tid = s.caps.lookupThreadCap a.clist tid := by
        have hvalid₁ : caps.isValid a.clist tid = s.caps.isValid a.clist tid := by
          rw [isValid, numEntries, hclist]
          rfl
        unfold lookupThreadCap
        rw [hvalid₁, hword, update_of_ne]
        simpa using hindex
      rw [hlookup, decide_eq_false hindex, Bool.and_false, Bool.or_false]
  rw [handlerOk, hsome, newHandlerOk, handlerOk]
  cases (s.caps.lookupThreadCap a.clist tid).isSome <;>
    cases isCapType tid && decide (capIndex tid = capIndex a.destTid) <;> simp

variable [DecidableEq σ] [Fintype κ] [Fintype ι]

/-- The end of a creation succeeds if the handlers are accepted and there is memory for the UTCB. -/
lemma startThread_success_iff : (s.startThread a sp tcb).2 = .success ↔
      (s.caps.setThreadHandlers a.clist tcb a.pagerTid a.exceptHandlerTid).2 = true ∧
        s.utcbAvailable sp a.utcbAddress = true := by
  unfold startThread
  cases s.caps.setThreadHandlers a.clist tcb a.pagerTid a.exceptHandlerTid with
  | mk caps ok =>
    cases ok with
    | false => simp
    | true =>
      have hiff : (({ s with caps := caps } : ThreadKernel κ ι σ).allocateUtcb sp a.utcbAddress).2 =
          .success ↔ s.utcbAvailable sp a.utcbAddress = true :=
        allocateUtcb_success_iff a.utcbAddress
      rw [← hiff]
      dsimp only
      cases { s with caps := caps }.allocateUtcb sp a.utcbAddress with
      | mk s₂ result => cases result <;> simp

/-- A creation that has got a control block without asking the heap fails exactly under the condition
on the state before it. -/
lemma Valid.enterThread_success_iff (h : s.Valid) {s₀ : ThreadKernel κ ι σ}
    (hvalid : s.caps.isValid a.clist a.destTid = true)
    (halloc : s.allocateTcb a.stale = (s₀, some tcb)) (hheap : s₀.memory.heap = s.memory.heap) :
    (s₀.enterThread a sp tcb).2 = .success ↔ ¬ s.StartFails a sp := by
  obtain ⟨-, hdead, memory, -, rfl⟩ := h.allocateTcb halloc
  have havailable : s.utcbAvailable sp a.utcbAddress =
      utcbAvailable ({ s with memory := memory } : ThreadKernel κ ι σ) sp a.utcbAddress := by
    unfold utcbAvailable
    rw [hheap]
  unfold ThreadKernel.enterThread StartFails
  dsimp only
  cases hadd : (s.caps.initTcb tcb).addThreadCap a.clist a.destTid tcb with
  | none =>
    have hused : s.caps.word (.entry a.clist (capIndex a.destTid)) ≠ .invalid := by
      rw [h.linked.initTcb_eq hdead, addThreadCap] at hadd
      intro hinvalid
      have hfree : (s.caps.setLive tcb true).word (.entry a.clist (capIndex a.destTid)) = .invalid :=
        hinvalid
      rw [if_neg (not_not.2 hfree)] at hadd
      cases hadd
    simp [hused]
  | some caps =>
    obtain ⟨hfree, -, hcaps⟩ := h.linked.addThreadCap_eq hdead hadd
    obtain ⟨hlinked, hlive, -⟩ := h.linked.addThreadCap hdead hvalid hadd
    have hok : ∀ tid, caps.handlerOk a.clist tid = s.newHandlerOk a tid :=
      newHandlerOk_eq hvalid hfree (by rw [hcaps]; rfl) (by rw [hcaps]; rfl)
    refine startThread_success_iff.trans ?_
    rcases hset : caps.setThreadHandlers a.clist tcb a.pagerTid a.exceptHandlerTid with ⟨caps', ok⟩
    obtain ⟨-, -, rfl, -⟩ := hlinked.setThreadHandlers hlive hset
    change (caps.setThreadHandlers a.clist tcb a.pagerTid a.exceptHandlerTid).2 = true ∧
      utcbAvailable ({ s with memory := memory } : ThreadKernel κ ι σ) sp a.utcbAddress = true ↔ _
    rw [hset, hok, hok, ← havailable]
    simp [hfree, and_assoc]

/-! ## What a failed call changes -/

/-- A creation that fails is clean, unless it has used an unused block. -/
lemma Valid.createThread_atomic_iff (h : s.Valid) (hadmitted : Admitted a) {space : Option σ}
    (hspace : a.spaceId = .lookup space) :
    (∀ s' code, s.createThread a space = (s', .failure code) → Unchanged s s') ↔
      ¬ s.ReleasesBlock a := by
  constructor
  · rintro hatomic ⟨-, sp, hsp, hvalid, hcheck, hidx, hunused, hfails⟩
    obtain rfl := SpaceArg.lookup.inj (hspace.symm.trans hsp)
    obtain ⟨s₀, tcb, halloc, hheap⟩ := h.allocateTcb_of_firstUnused hidx hunused a.stale
    have hcreate : s.createThread a (some sp) = s₀.enterThread a sp tcb := by
      unfold createThread
      simp only [hvalid, hcheck, halloc, Bool.true_eq_false, if_false]
    have hsuccess : (s₀.enterThread a sp tcb).2 = .success ↔ ¬ s.StartFails a sp :=
      h.enterThread_success_iff hvalid halloc hheap
    rcases h.enterThread hvalid halloc rfl with ⟨memory, -, hdone⟩ | ⟨code, hw, hcode⟩
    · exact hsuccess.1 hdone hfails
    · have hunchanged := hatomic _ code (hcreate.trans (Prod.ext rfl hcode))
      exact (hw.unchanged_iff h).1 hunchanged hunused
  · intro hnot s' code hcreate
    rcases h.createThread_cases hcreate with
      ⟨code', hr⟩ | ⟨sp, tcb, s₀, rfl, hvalid, hcheck, halloc, henter⟩
    · obtain ⟨rfl, -⟩ := Prod.mk.inj hr
      exact Unchanged.refl s'
    rcases h.enterThread hvalid halloc henter with ⟨memory, -, hsuccess⟩ | ⟨code', hw, -⟩
    · cases hsuccess
    refine (hw.unchanged_iff h).2 fun hunused => hnot ?_
    obtain ⟨hidx, -⟩ := h.allocateTcb halloc
    obtain ⟨s₁, tcb₁, halloc₁, hheap⟩ := h.allocateTcb_of_firstUnused hidx hunused a.stale
    obtain ⟨rfl, -⟩ := Prod.mk.inj (halloc₁.symm.trans halloc)
    have hsuccess : (s₁.enterThread a sp tcb).2 = .success ↔ ¬ s.StartFails a sp :=
      h.enterThread_success_iff hvalid halloc hheap
    rw [henter] at hsuccess
    exact ⟨hadmitted, sp, hspace, hvalid, hcheck, hidx, hunused, by simpa using hsuccess⟩

omit [DecidableEq σ] in
/-- Handlers that are refused are clean, unless the pager has been overwritten. -/
lemma Valid.setThreadHandlers_unchanged_iff (h : s.Valid) {dest : Word} {caps : Caps Word κ ι}
    (hlive : s.caps.live dest = true)
    (hset : s.caps.setThreadHandlers a.clist dest a.pagerTid a.exceptHandlerTid = (caps, false)) :
    Unchanged s { s with caps } ↔
      ¬ ∃ pager, s.caps.lookupThreadCap a.clist a.pagerTid = some pager ∧
        s.caps.word (.pager dest) ≠ .ref pager ∧
        s.caps.handlerOk a.clist a.exceptHandlerTid = false := by
  obtain ⟨-, hsame, hfailed, hword⟩ := h.linked.setThreadHandlers hlive hset
  have hentries := h.linked.setThreadHandlers_entry hlive hset
  have hclean : caps.word = s.caps.word → Unchanged s { s with caps } := by
    intro heq
    exact ⟨fun t _ => ⟨by rw [heq], by rw [heq]⟩, hentries, hsame.clist, rfl, rfl, rfl, rfl⟩
  have hfailed := hfailed.symm
  rcases hpager : s.caps.lookupThreadCap a.clist a.pagerTid with _ | pager
  · refine iff_of_true (hclean ?_) (by simp)
    rw [hword]
    split_ifs with hpagerOk
    · -- The pager is accepted, so the exception handler is not.
      rw [hpagerOk, Bool.true_and] at hfailed
      rw [hpager, lookupThreadCap_of_not_handlerOk hfailed]
      rfl
    · rfl
  · have hpagerOk : s.caps.handlerOk a.clist a.pagerTid = true := by simp [handlerOk, hpager]
    rw [hpagerOk, Bool.true_and] at hfailed
    rw [hpagerOk, if_pos rfl, hpager, lookupThreadCap_of_not_handlerOk hfailed] at hword
    have hupdate : caps.word = update s.caps.word (.pager dest) (.ref pager) := hword
    simp only [some.injEq, hfailed, and_true, exists_eq_left', not_not]
    constructor
    · intro hunchanged
      have hdest := (hunchanged.handlers dest hlive).1
      rw [hupdate, update_self] at hdest
      exact hdest.symm
    · intro heq
      refine hclean ?_
      rw [hupdate, ← heq, update_eq_self]

/-- A modification that fails is clean, unless it has overwritten the pager. -/
lemma Valid.modifyThread_atomic_iff (h : s.Valid) (hadmitted : Admitted a)
    (hspace : a.spaceId = .nilspace) :
    (∀ s' code, s.modifyThread a = (s', .failure code) → Unchanged s s') ↔
      ¬ s.OverwritesPager a := by
  unfold modifyThread
  rw [OverwritesPager, and_iff_right hadmitted, and_iff_right hspace]
  cases hlookup : s.caps.lookupThreadCap a.clist a.destTid with
  | none =>
    refine iff_of_true (fun s' code hr => ?_) (by simp)
    obtain ⟨rfl, -⟩ := Prod.mk.inj hr
    exact Unchanged.refl s
  | some dest =>
    obtain ⟨-, hlive⟩ := h.linked.toPlaced.lookupThreadCap hlookup
    dsimp only
    split_ifs with hzero hcurrent hutcb
    · refine iff_of_true (fun s' code hr => ?_) fun hover => absurd hover.1 (by rw [hzero]; decide)
      obtain ⟨rfl, -⟩ := Prod.mk.inj hr
      exact Unchanged.refl s
    · refine iff_of_true (fun s' code hr => ?_) fun hover => absurd hover.1 (by rw [hzero]; decide)
      cases (Prod.mk.inj hr).2
    · refine iff_of_true (fun s' code hr => ?_) fun hover => hutcb hover.1
      obtain ⟨rfl, -⟩ := Prod.mk.inj hr
      exact Unchanged.refl s
    · simp only [not_not.1 hutcb, true_and, some.injEq, exists_and_left, exists_eq_left']
      cases hset : s.caps.setThreadHandlers a.clist dest a.pagerTid a.exceptHandlerTid with
      | mk caps ok =>
        obtain ⟨-, -, hok, -⟩ := h.linked.setThreadHandlers hlive hset
        cases ok with
        | true =>
          refine iff_of_true (fun s' code hr => ?_) ?_
          · cases (Prod.mk.inj hr).2
          · rintro ⟨pager, -, -, hnot⟩
            rw [hnot, Bool.and_false] at hok
            cases hok
        | false =>
          rw [← h.setThreadHandlers_unchanged_iff hlive hset]
          refine ⟨fun hatomic => hatomic _ _ rfl, fun hunchanged s' code hr => ?_⟩
          obtain ⟨rfl, -⟩ := Prod.mk.inj hr
          exact hunchanged

/-- A call that does not pass the first checks is refused. -/
lemma threadControl_of_not_admitted (hnot : ¬ Admitted a) :
    ∃ code, s.threadControl a = (s, .failure code) := by
  unfold threadControl
  split_ifs with hmyself hkresourced hcap
  · exact ⟨_, rfl⟩
  · exact ⟨_, rfl⟩
  · exact ⟨_, rfl⟩
  · exact absurd ⟨by simpa using hmyself, by simpa using hkresourced, by simpa using hcap⟩ hnot

/-- A call that passes the first checks is a modification or a creation. -/
lemma threadControl_of_admitted (hadmitted : Admitted a) : s.threadControl a =
      match a.spaceId with
      | .nilspace => s.modifyThread a
      | .lookup space => s.createThread a space := by
  obtain ⟨hmyself, hkresourced, hcap⟩ := hadmitted
  cases hspace : a.spaceId <;>
    simp only [threadControl, hspace, hmyself, hkresourced, hcap, Bool.false_eq_true,
      Bool.true_eq_false, if_false]

/-- In every state that the kernel reaches, a call of `ThreadControl` that fails changes nothing,
unless it is of one of two kinds. -/
theorem threadControl_atomic_iff {size : KtcbSize} {handles : HandleTable} {utcbArea : σ → Fpage}
    {pageTable : σ → ℕ → L1Entry} {ops : List (Op κ ι σ)}
    (hrun : run step (init size handles utcbArea pageTable) ops = some s)
    (a : ThreadControlArgs κ σ) :
    (∀ s' code, s.threadControl a = (s', .failure code) → Unchanged s s') ↔
      ¬ s.OverwritesPager a ∧ ¬ s.ReleasesBlock a := by
  have h := valid_of_run hrun
  by_cases hadmitted : Admitted a
  · rw [threadControl_of_admitted hadmitted]
    cases hspace : a.spaceId with
    | nilspace =>
      have hreleases : ¬ s.ReleasesBlock a := by
        rintro ⟨-, sp, hsp, -⟩
        rw [hspace] at hsp
        cases hsp
      rw [and_iff_left hreleases]
      exact h.modifyThread_atomic_iff hadmitted hspace
    | lookup space =>
      have hoverwrites : ¬ s.OverwritesPager a := by
        rintro ⟨-, hsp, -⟩
        rw [hspace] at hsp
        cases hsp
      rw [and_iff_right hoverwrites]
      exact h.createThread_atomic_iff hadmitted hspace
  · obtain ⟨code, hr⟩ := threadControl_of_not_admitted (s := s) hadmitted
    refine iff_of_true (fun s' code' hr' => ?_)
      ⟨fun hover => hadmitted hover.1, fun hreleases => hadmitted hreleases.1⟩
    obtain ⟨rfl, -⟩ := Prod.mk.inj (hr.symm.trans hr')
    exact Unchanged.refl s

/-! ## Two calls that fail -/

/-- A kernel with one capability list and one space, before there is any memory. -/
def oneSpace : ThreadKernel Unit Unit Unit :=
  init ⟨1024, by decide, by decide⟩ HandleState.fourEntries (fun _ => ⟨0x40000, 16⟩) fun _ _ => .invalid

/-- The arguments for the creation of a thread without handlers. -/
def createArgs (destTid utcbAddress : ℕ) : ThreadControlArgs Unit Unit :=
  ⟨destTid, .lookup (some ()), 0xfffffffc, 0xfffffffc, utcbAddress, 0, (), true, ⟨0, fun _ => 0⟩⟩

/-- The arguments for a change of the handlers of a thread. -/
def handlerArgs (destTid pagerTid exceptHandlerTid : ℕ) : ThreadControlArgs Unit Unit :=
  ⟨destTid, .nilspace, pagerTid, exceptHandlerTid, wordSpace - 1, 0, (), true, ⟨0, fun _ => 0⟩⟩

/-- The kernel gets memory, and two threads are created. -/
def twoThreads : List (Op Unit Unit Unit) :=
  [.heap (.init 0x88300000 0x88304000), .caps (.createClist () 4),
    .threadControl (createArgs 0 0x10000000), .threadControl (createArgs 1 0x10000100)]

/-- A call with an exception handler that does not exist fails and changes nothing, if it leaves the
pager out. -/
theorem threadControl_atomic_nilthread : ∃ s s', run step oneSpace twoThreads = some s ∧
      s.threadControl (handlerArgs 1 0xfffffffc 3) = (s', .failure (some .invalidParam)) ∧
      Unchanged s s' := by
  have heval : (run step oneSpace twoThreads).map (fun s =>
      ((s.threadControl (handlerArgs 1 0xfffffffc 3)).2, s.caps.lookupThreadCap () 0xfffffffc)) =
        some (.failure (some .invalidParam), none) := by
    decide +kernel
  obtain ⟨s, hrun, hview⟩ := map_eq_some_iff.1 heval
  obtain ⟨hresult, hpager⟩ := Prod.mk.inj hview
  have hcall : s.threadControl (handlerArgs 1 0xfffffffc 3) =
      ((s.threadControl (handlerArgs 1 0xfffffffc 3)).1, .failure (some .invalidParam)) :=
    Prod.ext_iff.2 ⟨rfl, hresult⟩
  have hoverwrites : ¬ s.OverwritesPager (handlerArgs 1 0xfffffffc 3) := by
    rintro ⟨-, -, -, dest, pager, -, hsome, -⟩
    cases hpager.symm.trans hsome
  have hreleases : ¬ s.ReleasesBlock (handlerArgs 1 0xfffffffc 3) := by
    rintro ⟨-, sp, hspace, -⟩
    cases hspace
  exact ⟨s, _, hrun, hcall,
    (threadControl_atomic_iff hrun _).2 ⟨hoverwrites, hreleases⟩ _ _ hcall⟩

/-- A call with a pager that exists and an exception handler that does not exist fails, and the
thread has a new pager. -/
theorem threadControl_fails_with_new_pager : ∃ s s', run step oneSpace twoThreads = some s ∧
      s.threadControl (handlerArgs 1 0 3) = (s', .failure (some .invalidParam)) ∧
      s.caps.word (.pager 0x88300400) = .invalid ∧
      s'.caps.word (.pager 0x88300400) = .ref 0x88300800 ∧ ¬ Unchanged s s' := by
  have heval : (run step oneSpace twoThreads).map (fun s =>
      ((s.threadControl (handlerArgs 1 0 3)).2, s.caps.live 0x88300400,
        s.caps.word (.pager 0x88300400),
        (s.threadControl (handlerArgs 1 0 3)).1.caps.word (.pager 0x88300400))) =
        some (.failure (some .invalidParam), true, .invalid, .ref 0x88300800) := by
    decide +kernel
  obtain ⟨s, hrun, hview⟩ := map_eq_some_iff.1 heval
  obtain ⟨hresult, hview⟩ := Prod.mk.inj hview
  obtain ⟨hlive, hview⟩ := Prod.mk.inj hview
  obtain ⟨hbefore, hafter⟩ := Prod.mk.inj hview
  refine ⟨s, _, hrun, Prod.ext_iff.2 ⟨rfl, hresult⟩, hbefore, hafter, fun hunchanged => ?_⟩
  have hsame := (hunchanged.handlers _ hlive).1
  rw [hafter, hbefore] at hsame
  cases hsame

end Okl4Kernel.ThreadKernel
