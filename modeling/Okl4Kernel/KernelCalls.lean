import Okl4Kernel.HybridMutex
import Okl4Kernel.Ipc
import Okl4Kernel.Lib.TransitionSystem

/-!
# The kernel as a transition system

`KernelOp` are the ways in which the kernel is entered: system calls and faults of the current
thread, the user instructions on mutex words, interrupts, and the continuation of a thread that has
been switched to. `Kernel.step` performs one of them. A continuation runs at once when its thread
is switched to; nothing comes between.

A run begins in a state in which some threads and capabilities have been set up (`Boot`). One of
the threads runs; the others are halted, for the first one to resume.
-/

namespace Okl4Kernel

/-- The ways in which the kernel is entered, and the user instructions on mutex words. -/
inductive KernelOp (τ μ κ ι σ : Type*)
  /-- The system call `IPC`. -/
  | ipc (env : IpcEnv) (toTid fromTid : ℕ)
  | pagefault (env : IpcEnv)
  | exception (env : IpcEnv)
  /-- `ExchangeRegisters`, to abort what a thread waits for. -/
  | exregsAbort (tid : ℕ) (send recv : Bool)
  /-- `ExchangeRegisters`, to halt a thread. -/
  | exregsHalt (tid : ℕ)
  /-- `ExchangeRegisters`, to resume a thread. -/
  | exregsResume (tid : ℕ)
  | createThread (tid : ℕ) (t : τ) (idx : ℕ) (space : σ) (prio : Prio)
      (pagerTid exceptHandlerTid : ℕ) (activated : Bool)
  | modifyThread (tid pagerTid exceptHandlerTid : ℕ)
  | deleteThread (tid : ℕ)
  | createClist (clist : κ) (entries : ℕ)
  | deleteClist (clist : κ)
  | copyCap (srcId : ℕ) (target : κ) (targetId : ℕ)
  | deleteCap (clist : κ) (targetId : ℕ)
  | registerInterrupt (tid : ℕ) (irq : ι)
  | unregisterInterrupt (tid : ℕ) (irq : ι)
  | threadSwitch (tid : ℕ)
  | setPriority (tid : ℕ) (prio : Prio)
  | createMutex (m : μ)
  | deleteMutex (m : μ)
  | lock (m : μ) (blocking : Bool)
  | unlock (m : μ)
  | userLock (m : μ)
  | userUnlock (m : μ)
  /-- The word of a mutex is written in user mode. -/
  | userWrite (m : μ) (w : ℕ)
  | hybridLock (m : μ) (accessible : Bool)
  | hybridUnlock (m : μ) (accessible : Bool)
  | interrupt (irq : ι) (bits cont : Bool)
  | timerTick (wakeup : Bool) (timerLength : ℕ)
  /-- The continuation of the current thread. -/
  | continuation (env : IpcEnv) (accessible : Bool)

/-- `END_TCB_FREE_LIST`: there are fewer thread handles than that. -/
def endTcbFreeList : ℕ := 0x0fffffff

namespace Kernel

variable {τ μ κ ι σ : Type*} [DecidableEq τ] [DecidableEq μ] [DecidableEq κ] [DecidableEq ι]
variable [DecidableEq σ] [Fintype τ] [Fintype κ] [Fintype ι] (k : Kernel τ μ κ ι σ)

/-- A system call that only works on capabilities. -/
def capCall (op : Caps.Op τ κ ι) : Option (Kernel τ μ κ ι σ) :=
  (k.objects.caps.step op).map fun caps => { k with objects := { k.objects with caps := caps } }

/-- The destination of a `ThreadSwitch`. -/
def switchTarget (c : τ) (tid : ℕ) : Option τ :=
  if isThreadhandle tid then k.objects.lookupTcbByHandle tid else k.objects.lookupIpcCap c tid

/-- `SYS_THREAD_SWITCH`. -/
def threadSwitch (c : τ) (tid : ℕ) : Kernel τ μ κ ι σ :=
  if isNilthread tid then k.onScheduler Scheduler.yield
  else
    match k.switchTarget c tid with
    | none => k
    | some dest => if dest = c then k else k.onScheduler fun s => s.donate dest c

/-- `SYS_SCHEDULE`, with a new priority. -/
def setPriority (t : τ) (prio : Prio) : Kernel τ μ κ ι σ :=
  if k.scheduler.sched.basePrio t = prio then k
  else (k.onScheduler fun s => s.setPriority t prio).schedule

/-- The assertion of `unblock` when a thread is unwound: one that waits for a mutex is blocked on
it. -/
def canUnwind (t : τ) : Bool :=
  k.state t ≠ .waitingMutex || (k.waitingFor t).isSome

/-- What the current thread does, from user mode. A call that fails with an error code is
performed, too; the guards are that memory which is allocated was not in use, and the assertions of
the source. -/
def call (c : τ) (s : σ) : KernelOp τ μ κ ι σ → Option (Kernel τ μ κ ι σ)
  | .ipc env toTid fromTid => some (k.sysIpc c env toTid fromTid)
  | .pagefault env => some (k.handlePagefault c env)
  | .exception env => some (k.sendExceptionIpc c env)
  | .exregsAbort tid send recv =>
    match k.exregsTarget c tid with
    | none => some k
    | some t => if k.canUnwind t then some (k.performExregs t send recv) else none
  | .exregsHalt tid =>
    match k.exregsTarget c tid with
    | none => some k
    | some t => some (k.haltThread t)
  | .exregsResume tid =>
    match k.exregsTarget c tid with
    | none => some k
    | some t => some (k.resumeThread t)
  | .createThread tid t idx space prio pagerTid exceptHandlerTid activated =>
    if k.live t = false ∧ k.objects.threadHandle idx = none ∧ idx < endTcbFreeList then
      some (k.createThread (k.objects.clistOf s) tid t idx space prio pagerTid exceptHandlerTid
        activated)
    else none
  | .modifyThread tid pagerTid exceptHandlerTid =>
    k.capCall (.modifyThread (k.objects.clistOf s) tid pagerTid exceptHandlerTid)
  | .deleteThread tid =>
    match k.objects.caps.lookupThreadCap (k.objects.clistOf s) tid with
    | none => some k
    | some t =>
      if t = c then some k else if k.canUnwind t then some (k.deleteThread t) else none
  | .createClist clist entries => k.capCall (.createClist clist entries)
  | .deleteClist clist => k.capCall (.deleteClist clist)
  | .copyCap srcId target targetId =>
    k.capCall (.copyCap (k.objects.clistOf s) srcId target targetId)
  | .deleteCap clist targetId => k.capCall (.deleteCap clist targetId)
  | .registerInterrupt tid irq => k.capCall (.registerInterrupt (k.objects.clistOf s) c tid irq)
  | .unregisterInterrupt tid irq =>
    k.capCall (.unregisterInterrupt (k.objects.clistOf s) c tid irq)
  | .threadSwitch tid => some (k.threadSwitch c tid)
  | .setPriority tid prio =>
    match k.exregsTarget c tid with
    | none => some k
    | some t => some (k.setPriority t prio)
  | .createMutex m => some (k.createMutex m)
  | .deleteMutex m => some (if k.present m then k.deleteMutex c m else k)
  | .lock m blocking => some (if k.present m then k.lock c m blocking else k)
  | .unlock m => some (if k.present m then k.unlock c m else k)
  | .userLock m => some (k.userLock c m)
  | .userUnlock m => some (k.userUnlock c m)
  | .userWrite m w => some (k.setMutexWord m w)
  | .hybridLock m accessible => some (if k.present m then k.hybridLock c m accessible else k)
  | .hybridUnlock m accessible => some (if k.present m then k.hybridUnlock c m accessible else k)
  | _ => none

/-- The continuation of a thread that has been switched to; `none` if it is in user mode. -/
def continuation (c : τ) (env : IpcEnv) (accessible : Bool) : Option (Kernel τ μ κ ι σ) :=
  match (k.tcb c).continuation with
  | .user => none
  | .restartIpc => some (k.runIpc c env)
  | .handleIpcError => some ((k.setContinuation c .user).handleIpcError c)
  | .finishKernelIpc => some ((k.setContinuation c .user).restoreState c)
  | .finishExceptionIpc => some ((k.setContinuation c .user).finishExceptionIpc c env)
  | .hybridMutexWakeup => some ((k.setContinuation c .user).hybridMutexWakeup c accessible)
  | .threadStartup => some ((k.setContinuation c .user).setSavedState c .aborted)

/-- No continuation is to run: the current thread is in user mode, or it is the idle thread. -/
def inUserMode : Bool :=
  match k.current with
  | none => true
  | some c => (k.tcb c).continuation = .user

/-- Enter the kernel. -/
def step : KernelOp τ μ κ ι σ → Option (Kernel τ μ κ ι σ)
  | .interrupt irq bits cont =>
    if k.inUserMode then
      match (k.objects.caps.word (.interrupt irq)).tcb with
      | none => some k
      | some handler => some (k.deliverNotify handler bits cont)
    else none
  | .timerTick wakeup timerLength =>
    if k.inUserMode then
      some (k.onScheduler fun s => s.handleTimerInterrupt wakeup timerLength)
    else none
  | .continuation env accessible => k.current.bind fun c => k.continuation c env accessible
  | op =>
    if k.inUserMode then
      k.current.bind fun c => (k.objects.space c).bind fun s => k.call c s op
    else none

end Kernel

/-! ## The start -/

/-- What is set up before the first thread runs. -/
structure Boot (τ κ ι σ : Type*) [DecidableEq τ] [DecidableEq κ] [DecidableEq ι] [Fintype τ]
    [Fintype κ] [Fintype ι] where
  /-- The capabilities are those that some operations lead to. -/
  capOps : List (Caps.Op τ κ ι)
  caps : Caps τ κ ι
  caps_eq : TransitionSystem.run Caps.step Caps.init capOps = some caps
  threads : List τ
  threads_nodup : threads.Nodup
  mem_threads : ∀ t, t ∈ threads ↔ caps.live t = true
  /-- The thread that runs first. -/
  root : τ
  root_mem : root ∈ threads
  tcbIdx : τ → ℕ
  tcbIdx_inj : ∀ t ∈ threads, ∀ u ∈ threads, tcbIdx t = tcbIdx u → t = u
  tcbIdx_lt : ∀ t ∈ threads, tcbIdx t < endTcbFreeList
  space : τ → σ
  clistOf : σ → κ
  basePrio : τ → Prio
  timesliceLength : τ → ℕ

namespace Boot

variable {τ μ κ ι σ : Type*} [DecidableEq τ] [DecidableEq κ] [DecidableEq ι] [DecidableEq σ]
variable [Fintype τ] [Fintype κ] [Fintype ι]

/-- The objects by which the first threads are found. -/
def objects (b : Boot τ κ ι σ) : Objects τ κ ι σ where
  caps := b.caps
  tcbIdx := b.tcbIdx
  threadHandle idx := b.threads.find? fun t => b.tcbIdx t = idx
  space t := if t ∈ b.threads then some (b.space t) else none
  threadList s := b.threads.filter fun t => b.space t = s
  clistOf := b.clistOf

/-- The root thread runs, the other threads are halted, and no mutex has been created. -/
def start (b : Boot τ κ ι σ) : Kernel τ μ κ ι σ where
  scheduler :=
    { Scheduler.init b.basePrio b.timesliceLength with
      threadState := fun t =>
        if t = b.root then .running else if t ∈ b.threads then .halted else .aborted
      current := some b.root
      activeSchedule := some b.root }
  tcb _ := Tcb.init
  present _ := false
  word _ := mutexFree
  objects := b.objects

end Boot

end Okl4Kernel
