import Okl4Kernel.CapabilityChain
import Okl4Kernel.TcbHandles
import Okl4Kernel.TcbMemory
import Okl4Kernel.Utcb

/-!
# ThreadControl

`ThreadControl` creates, modifies and deletes threads. A creation takes a thread handle and memory
for the control block, writes the capability of the thread, puts the thread into the list of its
space, sets its handlers and allocates its UTCB. Each of these steps may fail, and then those before
it are undone.

The parts of the kernel that take part in this are put together here from their models: capabilities
(`Caps`), thread handles (`HandleTable`), kernel memory (`TcbMemory`) and the UTCB areas of spaces
(`UtcbSpace`). A thread is given by the address of its control block. What the call does to the
scheduler is left out: a thread that is withdrawn has never been scheduled, and has neither partners
nor mutexes. So is the argument `thread_resources`, as `resources.control` always succeeds on SH.
-/

namespace Okl4Kernel

open TransitionSystem Function

/-- The error codes of `ThreadControl`. -/
inductive ThreadControlError
  | invalidThread
  | invalidSpace
  | utcbArea
  | noMem
  | invalidParam
  deriving DecidableEq

/-- The outcome of `ThreadControl`. Some failures of `allocate_utcb` do not set an error code. -/
inductive ThreadControlResult
  | success
  | failure (code : Option ThreadControlError)
  deriving DecidableEq

/-- The space argument: `nilspace`, or what `lookup_space` finds. -/
inductive SpaceArg (σ : Type*)
  | nilspace
  | lookup (space : Option σ)

/-- The arguments of `ThreadControl`, and what it reads of its caller. -/
structure ThreadControlArgs (κ σ : Type*) where
  destTid : ℕ
  spaceId : SpaceArg σ
  pagerTid : ℕ
  exceptHandlerTid : ℕ
  utcbAddress : ℕ
  /-- `get_current_tcb`. -/
  current : Word
  /-- `get_current_clist`. -/
  clist : κ
  /-- `is_kresourced_space` of the space of the caller. -/
  kresourced : Bool
  /-- What the memory of a new block of control blocks holds. -/
  stale : StaleHeader

/-- The part of the kernel that `ThreadControl` works on. -/
structure ThreadKernel (κ ι σ : Type*) where
  caps : Caps Word κ ι
  handles : HandleTable
  memory : TcbMemory
  /-- `thread_list` of a space. -/
  threadList : σ → List Word
  /-- `get_space` of a thread. -/
  space : Word → Option σ
  utcbArea : σ → Fpage
  pageTable : σ → ℕ → L1Entry

/-- `PAGE_COLOR_ALIGN` on SH. -/
def pageColorAlign : ℕ := 0x1000

/-- `SH_L2_SIZE`. -/
def shL2Size : ℕ := 1024

namespace ThreadKernel

variable {κ ι σ : Type*}

/-- No thread exists, and the heap is empty. -/
def init (size : KtcbSize) (handles : HandleTable) (utcbArea : σ → Fpage)
    (pageTable : σ → ℕ → L1Entry) : ThreadKernel κ ι σ where
  caps := Caps.init
  handles := handles.initTcbAllocator
  memory := TcbMemory.init size
  threadList _ := []
  space _ := none
  utcbArea := utcbArea
  pageTable := pageTable

/-- The heap has changed. -/
def setHeap (s : ThreadKernel κ ι σ) (heap : Heap) : ThreadKernel κ ι σ :=
  { s with memory := { s.memory with heap := heap } }

/-! ## UTCBs -/

/-- A space, as far as its UTCB area is concerned. -/
def utcbSpace (s : ThreadKernel κ ι σ) (sp : σ) : UtcbSpace :=
  ⟨s.utcbArea sp, s.pageTable sp, [], [], fun _ => 0⟩

variable [DecidableEq σ] (s : ThreadKernel κ ι σ)

/-- The last step of `add_mapping`: the page gets its frame. -/
def setLeaf (sp : σ) (location page : ℕ) : ThreadKernel κ ι σ :=
  { s with
    pageTable := update s.pageTable sp
      ((s.utcbSpace sp).addMapping (location / utcbPageSize) (page / utcbPageSize)).pageTable }

/-- `allocate_utcb` for a page that has been allocated: `add_mapping` may need memory for a table of
the second level. -/
def mapUtcb (sp : σ) (location page : ℕ) : ThreadKernel κ ι σ × ThreadControlResult :=
  match s.pageTable sp (location / utcbPageSize / 256) with
  | .table _ => (s.setLeaf sp location page, .success)
  | _ =>
    match s.memory.heap.kmem.alloc shL2Size true with
    | none => (s.setHeap (s.memory.heap.release page utcbPageSize), .failure (some .noMem))
    | some r =>
      ((s.setHeap (s.memory.heap.allocated (shL2Size / chunkSize) (some r))).setLeaf sp location page,
        .success)

/-- `allocate_utcb`. -/
def allocateUtcb (sp : σ) (location : ℕ) : ThreadKernel κ ι σ × ThreadControlResult :=
  match s.pageTable sp (location / utcbPageSize / 256) with
  | .large => (s, .failure none)
  | _ =>
    match (s.utcbSpace sp).leaf (location / utcbPageSize) with
    | some _ => (s, .success)
    | none =>
      match s.memory.heap.kmem.allocAligned utcbPageSize location pageColorAlign true with
      | none => (s, .failure none)
      | some (k, page) =>
        (s.setHeap (s.memory.heap.allocated (utcbPageSize / chunkSize) (some (k, page)))).mapUtcb sp
          location page

/-! ## Control blocks -/

/-- `allocate_tcb`. -/
def allocateTcb (stale : StaleHeader) : ThreadKernel κ ι σ × Option Word :=
  if s.handles.freeTcbIdx = endTcbFreeList then (s, none)
  else
    match s.memory.alloc stale with
    | (memory, none) => ({ s with memory := memory }, none)
    | (memory, some ret) =>
      ({ s with memory := memory, handles := s.handles.takeEntry ret }, some (Fin.ofNat wordSpace ret))

/-- `free_tcb`. -/
def freeTcb (tcb : Word) : ThreadKernel κ ι σ :=
  { s with handles := s.handles.freeTcb tcb, memory := s.memory.free tcb }

/-- `add_tcb` of a space, and `set_space`. -/
def addTcb (sp : σ) (tcb : Word) : ThreadKernel κ ι σ :=
  { s with
    space := update s.space tcb (some sp)
    threadList := update s.threadList sp (s.threadList sp ++ [tcb]) }

/-- `remove_tcb` of the space of a thread. -/
def removeTcb (tcb : Word) : ThreadKernel κ ι σ :=
  match s.space tcb with
  | none => s
  | some sp =>
    { s with threadList := update s.threadList sp ((s.threadList sp).erase tcb) }

variable [DecidableEq κ] [DecidableEq ι] [Fintype κ] [Fintype ι] (s : ThreadKernel κ ι σ)

/-- `delete_tcb`. -/
def deleteTcb (tcb : Word) : ThreadKernel κ ι σ :=
  { s with
    caps := s.caps.deleteTcb tcb
    space := update s.space tcb none }.freeTcb tcb

/-- A thread is taken out of the capability list and of its space, and deleted. If the capability is
not there, the source panics or tries again; this does not happen. -/
def withdraw (c : κ) (destTid : ℕ) (tcb : Word) : ThreadKernel κ ι σ :=
  match s.caps.removeThreadCap c destTid with
  | none => s
  | some caps => ({ s with caps := caps }.removeTcb tcb).deleteTcb tcb

/-! ## The system call -/

variable (a : ThreadControlArgs κ σ)

/-- The end of a creation: the handlers are set and the UTCB is allocated. -/
def startThread (sp : σ) (tcb : Word) : ThreadKernel κ ι σ × ThreadControlResult :=
  match s.caps.setThreadHandlers a.clist tcb a.pagerTid a.exceptHandlerTid with
  | (caps, false) =>
    ({ s with caps := caps }.withdraw a.clist a.destTid tcb, .failure (some .invalidParam))
  | (caps, true) =>
    match { s with caps := caps }.allocateUtcb sp a.utcbAddress with
    | (s, .failure code) => (s.withdraw a.clist a.destTid tcb, .failure code)
    | (s, .success) => (s, .success)

/-- The part of a creation behind the allocation of the control block. -/
def enterThread (sp : σ) (tcb : Word) : ThreadKernel κ ι σ × ThreadControlResult :=
  let s := { s with caps := s.caps.initTcb tcb }
  match s.caps.addThreadCap a.clist a.destTid tcb with
  | none => (s.deleteTcb tcb, .failure (some .invalidThread))
  | some caps => ({ s with caps := caps }.addTcb sp tcb).startThread a sp tcb

/-- The creation of a thread. -/
def createThread (space : Option σ) : ThreadKernel κ ι σ × ThreadControlResult :=
  if s.caps.isValid a.clist a.destTid = false then (s, .failure (some .invalidThread))
  else
    match space with
    | none => (s, .failure (some .invalidSpace))
    | some sp =>
      if (s.utcbSpace sp).checkUtcbLocation a.utcbAddress = false then
        (s, .failure (some .utcbArea))
      else
        match s.allocateTcb a.stale with
        | (s, none) => (s, .failure (some .noMem))
        | (s, some tcb) => s.enterThread a sp tcb

/-- The modification and the deletion of a thread. -/
def modifyThread : ThreadKernel κ ι σ × ThreadControlResult :=
  match s.caps.lookupThreadCap a.clist a.destTid with
  | none => (s, .failure (some .invalidThread))
  | some dest =>
    if a.utcbAddress = 0 then
      if dest = a.current then (s, .failure (some .invalidThread))
      else (s.withdraw a.clist a.destTid dest, .success)
    else if a.utcbAddress ≠ wordSpace - 1 then (s, .failure (some .utcbArea))
    else
      match s.caps.setThreadHandlers a.clist dest a.pagerTid a.exceptHandlerTid with
      | (caps, false) => ({ s with caps := caps }, .failure (some .invalidParam))
      | (caps, true) => ({ s with caps := caps }, .success)

/-- `ThreadControl`. -/
def threadControl : ThreadKernel κ ι σ × ThreadControlResult :=
  if isMyself a.destTid || isMyself a.pagerTid || isMyself a.exceptHandlerTid then
    (s, .failure (some .invalidThread))
  else if a.kresourced = false then (s, .failure (some .invalidSpace))
  else if isCapType a.destTid = false then (s, .failure (some .invalidThread))
  else
    match a.spaceId with
    | .nilspace => s.modifyThread a
    | .lookup space => s.createThread a space

/-! ## Runs -/

/-- The operations: `ThreadControl`, the operations on capabilities that are not part of it, those of
other clients of the heap, and changes of spaces. -/
inductive Op (κ ι σ : Type*)
  | threadControl (a : ThreadControlArgs κ σ)
  | caps (op : Caps.Op Word κ ι)
  | heap (op : KmemOp)
  | setSpace (sp : σ) (utcbArea : Fpage) (pageTable : ℕ → L1Entry)

variable {κ ι σ : Type*} [DecidableEq κ] [DecidableEq ι] [DecidableEq σ] [Fintype κ] [Fintype ι]

/-- Perform an operation. Other clients of the heap do not free the blocks of the pool. -/
def step (s : ThreadKernel κ ι σ) : Op κ ι σ → Option (ThreadKernel κ ι σ)
  | .threadControl a => some (s.threadControl a).1
  | .caps op =>
    if op.isThread then none else (s.caps.step op).map fun caps => { s with caps := caps }
  | .heap op =>
    (s.memory.heap.step op).bind fun heap =>
      if ∀ b ∈ s.memory.tcbs.pool.blocks,
          ⟨b.base, SmallAlloc.blockSize / chunkSize⟩ ∈ heap.live then some (s.setHeap heap)
      else none
  | .setSpace sp utcbArea pageTable =>
    some { s with
      utcbArea := update s.utcbArea sp utcbArea
      pageTable := update s.pageTable sp pageTable }

/-- The invariant of the kernel. -/
structure Valid (s : ThreadKernel κ ι σ) : Prop where
  linked : s.caps.Linked
  memory : s.memory.Ok
  /-- The threads are the control blocks in use. -/
  live_iff : ∀ t : Word, s.caps.live t = true ↔ (t : ℕ) ∈ s.memory.tcbs.live
  /-- The list of a space has the threads that are in the space. -/
  mem_threadList : ∀ sp t, t ∈ s.threadList sp ↔ s.caps.live t = true ∧ s.space t = some sp
  nodup : ∀ sp, (s.threadList sp).Nodup

end ThreadKernel

end Okl4Kernel
