import Okl4Kernel.Capability
import Okl4Kernel.Scheduler

/-!
# Threads

`Kernel` puts the scheduler together with the fields of the thread control blocks that
inter-process communication and mutexes use, with the objects by which threads are found, and with
the words in user memory that belong to mutexes. This module has what concerns single threads:
unwinding one from whatever it is blocked on, creating one and deleting one.

A thread that does not run in user mode has a continuation (`Continuation`), the function of the
kernel that runs when the thread is switched to. Continuations that only return to user mode, with
or without an error code, are not distinguished.

Spaces are elements of a type `σ`; all of them exist. They are where a thread finds its capability
list.
-/

namespace Okl4Kernel

open Function

/-- The `partner` field of a thread: a thread, or one of `NULL`, `INVALID_RAW` and
`ANYTHREAD_RAW`. -/
inductive Partner (τ : Type*)
  | null
  | invalid
  | anythread
  | tcb (t : τ)
  deriving DecidableEq

/-- What a thread does when it is switched to. -/
inductive Continuation
  /-- Return to user mode. -/
  | user
  /-- `restart_ipc` and `restart_do_ipc`. -/
  | restartIpc
  /-- `handle_ipc_error`. -/
  | handleIpcError
  /-- `finish_kernel_ipc`. -/
  | finishKernelIpc
  /-- `finish_exception_ipc`. -/
  | finishExceptionIpc
  /-- `hybrid_mutex_wakeup`. -/
  | hybridMutexWakeup
  /-- `thread_startup`. -/
  | threadStartup
  deriving DecidableEq

/-- What a thread keeps to restart its IPC: the identifiers that it called with, or the handler to
which the kernel sends for it. -/
inductive IpcTarget (τ : Type*)
  | user (toTid fromTid : ℕ)
  | kernel (handler : τ) (exception : Bool)
  deriving DecidableEq

/-- The fields of a `tcb_t` that are not those of the scheduler. -/
structure Tcb (τ μ : Type*) where
  partner : Partner τ
  savedPartner : Partner τ
  savedState : ThreadState
  continuation : Continuation
  ipcTarget : IpcTarget τ
  /-- `TCB_SYSDATA_MUTEX(t)->mutex`. -/
  sysMutex : Option μ

/-- The control block that `tcb_t::init` leaves. -/
def Tcb.init {τ μ : Type*} : Tcb τ μ where
  partner := .null
  savedPartner := .null
  savedState := .aborted
  continuation := .user
  ipcTarget := .user 0 0
  sysMutex := none

/-- The objects by which threads are found. -/
structure Objects (τ κ ι σ : Type*) where
  caps : Caps τ κ ι
  tcbIdx : τ → ℕ
  /-- `thread_handle_array`, where it holds a thread. -/
  threadHandle : ℕ → Option τ
  space : τ → Option σ
  threadList : σ → List τ
  /-- The capability list of a space. -/
  clistOf : σ → κ

namespace Objects

variable {τ κ ι σ : Type*}

/-- `lookup_tcb_by_handle_locked`; the array has no entry for any other index. -/
def lookupTcbByHandle [DecidableEq τ] (o : Objects τ κ ι σ) (handle : ℕ) : Option τ :=
  (o.threadHandle (handle % 2 ^ 31)).bind o.caps.acquireReadLockTcb

/-- `lookup_ipc_cap_locked` in the capability list of a thread. -/
def lookupIpcCap (o : Objects τ κ ι σ) (t : τ) (tid : ℕ) : Option τ :=
  (o.space t).bind fun s => o.caps.lookupIpcCap (o.clistOf s) tid

/-- `lookup_thread_cap_locked` in the capability list of a thread. -/
def lookupThreadCap (o : Objects τ κ ι σ) (t : τ) (tid : ℕ) : Option τ :=
  (o.space t).bind fun s => o.caps.lookupThreadCap (o.clistOf s) tid

variable [DecidableEq τ] [DecidableEq κ] [DecidableEq ι] [DecidableEq σ]
variable [Fintype τ] [Fintype κ] [Fintype ι]

/-- `remove_thread_cap`, for a thread that is found by it, and `space_t::remove_tcb`. -/
def removeThread (o : Objects τ κ ι σ) (t : τ) : Objects τ κ ι σ :=
  let o := { o with caps := o.caps.invalidateReference t }
  match o.space t with
  | none => o
  | some s => { o with threadList := update o.threadList s ((o.threadList s).erase t) }

/-- What `delete_tcb` does to the objects. -/
def deleteTcb (o : Objects τ κ ι σ) (t : τ) : Objects τ κ ι σ :=
  { o with
    caps := o.caps.deleteTcb t
    space := update o.space t none
    threadHandle := update o.threadHandle (o.tcbIdx t) none }

/-- `allocate_tcb`, `set_space` and `add_tcb` for a new thread, with the capabilities that are made
for it. -/
def addThread (o : Objects τ κ ι σ) (t : τ) (idx : ℕ) (s : σ) (caps : Caps τ κ ι) :
    Objects τ κ ι σ :=
  { o with
    caps := caps
    tcbIdx := update o.tcbIdx t idx
    threadHandle := update o.threadHandle idx (some t)
    space := update o.space t (some s)
    threadList := update o.threadList s (o.threadList s ++ [t]) }

end Objects

/-- The state of the kernel, and the user words of the mutexes. -/
structure Kernel (τ μ κ ι σ : Type*) where
  scheduler : Scheduler τ μ
  tcb : τ → Tcb τ μ
  /-- The mutexes that have been created. -/
  present : μ → Bool
  /-- The word of each mutex in user memory. -/
  word : μ → ℕ
  objects : Objects τ κ ι σ

namespace Kernel

variable {τ μ κ ι σ : Type*}

/-- `get_current_tcb`. -/
def current (k : Kernel τ μ κ ι σ) : Option τ := k.scheduler.current

/-- `get_state`. -/
def state (k : Kernel τ μ κ ι σ) (t : τ) : ThreadState := k.scheduler.threadState t

/-- `get_waiting_for`. -/
def waitingFor (k : Kernel τ μ κ ι σ) (t : τ) : Option (SyncRef τ μ) :=
  k.scheduler.sched.waitingFor t

/-- `get_holder` of a mutex. -/
def holder (k : Kernel τ μ κ ι σ) (m : μ) : Option τ := k.scheduler.sched.getHolder m

/-- The thread exists. -/
def live (k : Kernel τ μ κ ι σ) (t : τ) : Bool := k.objects.caps.live t

section Fields

variable [DecidableEq τ] (k : Kernel τ μ κ ι σ) (t : τ)

/-- Write some fields of a control block. -/
def modifyTcb (f : Tcb τ μ → Tcb τ μ) : Kernel τ μ κ ι σ :=
  { k with tcb := update k.tcb t (f (k.tcb t)) }

/-- `set_partner`. -/
def setPartner (p : Partner τ) : Kernel τ μ κ ι σ :=
  k.modifyTcb t fun b => { b with partner := p }

/-- Set what the thread does when it is switched to. -/
def setContinuation (c : Continuation) : Kernel τ μ κ ι σ :=
  k.modifyTcb t fun b => { b with continuation := c }

/-- Set the mutex that the thread works on. -/
def setSysMutex (m : Option μ) : Kernel τ μ κ ι σ :=
  k.modifyTcb t fun b => { b with sysMutex := m }

/-- `set_saved_state`. -/
def setSavedState (state : ThreadState) : Kernel τ μ κ ι σ :=
  k.modifyTcb t fun b => { b with savedState := state }

/-! ## Scheduling -/

/-- An operation on priorities and queues. -/
def onSched (f : Sched τ μ → Sched τ μ) : Kernel τ μ κ ι σ :=
  { k with scheduler := { k.scheduler with sched := f k.scheduler.sched } }

/-- An operation of the scheduler. -/
def onScheduler (f : Scheduler τ μ → Scheduler τ μ) : Kernel τ μ κ ι σ :=
  { k with scheduler := f k.scheduler }

/-- `set_state` and `update_inactive_state`. -/
def setState (t : τ) (state : ThreadState) : Kernel τ μ κ ι σ :=
  k.onScheduler fun s => s.setState t state

/-- `activate`, to run. -/
def activate (t : τ) : Kernel τ μ κ ι σ :=
  k.onScheduler fun s => s.activate t .running

/-- `deactivate`. -/
def deactivate (t : τ) (state : ThreadState) : Kernel τ μ κ ι σ :=
  k.onScheduler fun s => s.deactivate t state

/-- A full `schedule`. -/
def schedule : Kernel τ μ κ ι σ := k.onScheduler fun s => s.schedule false

/-- `activate_sched`, to run. -/
def activateSched (t : τ) : Kernel τ μ κ ι σ :=
  k.onScheduler fun s => s.activateSched t .running

/-- `deactivate_sched`. -/
def deactivateSched (t : τ) (state : ThreadState) : Kernel τ μ κ ι σ :=
  k.onScheduler fun s => s.deactivateSched t state

/-- `deactivate_activate_sched`, where the second thread is to run. -/
def deactivateActivateSched (deactivated activated : τ)
    (inactiveState : ThreadState) : Kernel τ μ κ ι σ :=
  k.onScheduler fun s => s.deactivateActivateSched deactivated activated inactiveState .running

/-- `context_switch` to a thread that is to run. -/
def contextSwitch (current dest : τ) (currentState : ThreadState) : Kernel τ μ κ ι σ :=
  k.onScheduler fun s => s.contextSwitch current dest currentState .running

end Fields

variable [DecidableEq τ] [DecidableEq μ] [Fintype τ] (k : Kernel τ μ κ ι σ)

/-- `syncpoint_t::block`. -/
def block (r : SyncRef τ μ) (t : τ) : Kernel τ μ κ ι σ :=
  k.onSched fun s => s.block r t

/-- `syncpoint_t::unblock`. -/
def unblock (r : SyncRef τ μ) (t : τ) : Kernel τ μ κ ι σ :=
  k.onSched fun s => s.unblock r t

/-- `remove_dependency`. -/
def removeDependency (t : τ) : Kernel τ μ κ ι σ :=
  k.onSched fun s => s.removeDependency t

/-! ## Unwinding -/

variable (t : τ)

/-- `unwind`: take a thread out of whatever it does, to the state `aborted`. -/
def unwind (partner : Partner τ) : Kernel τ μ κ ι σ :=
  match k.state t with
  | .running => k.deactivate t .aborted
  | .aborted => k
  | .halted => k.setState t .aborted
  | .polling =>
    match partner with
    | .tcb p => (k.unblock (.send p) t).setState t .aborted
    -- The source asserts that there is a partner.
    | _ => k.setState t .aborted
  | .waitingForever => (k.removeDependency t).setState t .aborted
  | .waitingNotify => (k.removeDependency t).setState t .aborted
  | .waitingMutex =>
    match (k.tcb t).sysMutex with
    | some m => ((k.unblock (.mutex m) t).setSysMutex t none).setState t .aborted
    -- The source would read through a null pointer.
    | none => k.setState t .aborted

/-- Unwind a thread and let it return from its IPC with an error. -/
def cancelIpc (partner : Partner τ) : Kernel τ μ κ ι σ :=
  ((k.unwind t partner).setContinuation t .handleIpcError).activate t

/-- The loops of `cancel_ipcs` over one of the queues of `t`, cut off after `n` rounds. -/
def cancelLoop (r : SyncRef τ μ) (t : τ) : ℕ → Kernel τ μ κ ι σ → Kernel τ μ κ ι σ
  | 0, k => k
  | n + 1, k =>
    match k.scheduler.sched.blockedHead r with
    | none => k
    | some head => cancelLoop r t n (k.cancelIpc head (.tcb t))

/-- The first part of `cancel_ipcs`: the thread itself is unwound, unless it waits for any thread or
has no space. -/
def unwindSelf : Kernel τ μ κ ι σ :=
  if (k.tcb t).partner = .tcb t ∨
      ((k.tcb t).partner ≠ .anythread ∧ (k.objects.space t).isSome) then
    k.unwind t (k.tcb t).partner
  else k

/-- `cancel_ipcs`. -/
def cancelIpcs : Kernel τ μ κ ι σ :=
  let k := k.unwindSelf t
  let k := cancelLoop (.send t) t (k.scheduler.sched.blocked (.send t)).length k
  cancelLoop (.recv t) t (k.scheduler.sched.blocked (.recv t)).length k

/-- `mutex_t::release`, for the state of the kernel. -/
def release (m : μ) : Kernel τ μ κ ι σ :=
  k.onSched fun s => (s.release m).1

/-- The loop of `release_mutexes`, cut off after `n` rounds. -/
def releaseLoop (t : τ) : ℕ → Kernel τ μ κ ι σ → Kernel τ μ κ ι σ
  | 0, k => k
  | n + 1, k =>
    match (k.scheduler.sched.mutexesHeld t).head? with
    | none => k
    | some m =>
      match (k.scheduler.sched.release m).2 with
      | none => releaseLoop t n (k.release m)
      | some newHolder => releaseLoop t n ((k.release m).activate newHolder)

/-- `release_mutexes`. -/
def releaseMutexes : Kernel τ μ κ ι σ :=
  let k := if k.state t = .waitingMutex then (k.unwind t .null).activate t else k
  releaseLoop t (k.scheduler.sched.mutexesHeld t).length k

/-! ## Saved state -/

/-- `save_state`. -/
def saveState : Kernel τ μ κ ι σ :=
  k.modifyTcb t fun b => { b with savedPartner := b.partner, savedState := k.state t }

/-- The part of `restore_state` that gives a thread its saved state. -/
def enterState (state : ThreadState) : Kernel τ μ κ ι σ :=
  if (k.state t).isRunnable then
    if state.isRunnable then k.setState t state else k.deactivate t state
  else if state.isRunnable then k.onScheduler fun s => s.activate t state
  else k.setState t state

/-- `restore_state`. -/
def restoreState : Kernel τ μ κ ι σ :=
  ((k.setPartner t (k.tcb t).savedPartner).enterState t (k.tcb t).savedState).modifyTcb t fun b =>
    { b with savedPartner := .null, savedState := .aborted }

/-! ## Deleting and creating threads -/

/-- `scheduler_t::delete_tcb`, and before it the step that gives the active schedule to the current
thread. -/
def deleteSchedule : Kernel τ μ κ ι σ :=
  let k := k.onScheduler fun s =>
    if s.activeSchedule = some t then { s with activeSchedule := s.current } else s
  (k.setState t .aborted).onSched fun s => s.resetPriority t

variable [DecidableEq κ] [DecidableEq ι] [DecidableEq σ] [Fintype κ] [Fintype ι]
  (k : Kernel τ μ κ ι σ)

/-- `tcb_t::delete_tcb`. -/
def deleteTcb (t : τ) : Kernel τ μ κ ι σ :=
  let k := k.cancelIpcs t
  let k := k.unwind t .null
  let k := k.releaseMutexes t
  let k := k.deleteSchedule t
  { k with objects := k.objects.deleteTcb t }

/-- The deletion of a thread by `ThreadControl`, after the checks. -/
def deleteThread (t : τ) : Kernel τ μ κ ι σ :=
  let k := { k with objects := k.objects.removeThread t }
  (k.deleteTcb t).schedule

/-- `get_pager`, as a partner. -/
def pagerPartner (t : τ) : Partner τ :=
  match (k.objects.caps.word (.pager t)).tcb with
  | none => .null
  | some p => .tcb p

/-- `fake_wait_for_startup`. -/
def fakeWaitForStartup (t : τ) : Kernel τ μ κ ι σ :=
  let k := (k.setState t .waitingForever).setPartner t (k.pagerPartner t)
  k.modifyTcb t fun b => { b with savedPartner := .null, savedState := .running }

/-- The creation of a thread by `ThreadControl`, with the control block and the index that are
allocated for it. If the creation fails, what has been done for it is undone. -/
def createThread (c : κ) (tid : ℕ) (t : τ) (idx : ℕ) (s : σ) (prio : Prio)
    (pagerTid exceptHandlerTid : ℕ) (activated : Bool) : Kernel τ μ κ ι σ :=
  let caps := k.objects.caps.createThread c tid t pagerTid exceptHandlerTid activated
  if caps.live t then
    let k := { k with objects := k.objects.addThread t idx s caps }
    let k := k.modifyTcb t fun _ => Tcb.init
    let k := (k.setState t .aborted).onScheduler fun s => s.setPriority t prio
    (k.setContinuation t .threadStartup).fakeWaitForStartup t
  else { k with objects := { k.objects with caps := caps } }

end Kernel

end Okl4Kernel
