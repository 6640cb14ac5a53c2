import Okl4Kernel.Kernel

/-!
# Mutexes

A mutex (`mutex_t`) has a synchronisation point. The thread that holds the mutex is the donatee of
it, and has the mutex on the ring of the mutexes that it holds; the threads that want to have the
mutex are blocked there. This module has the system calls on mutexes that do not look at user
memory: locking and unlocking a mutex, creating one and deleting one.
-/

namespace Okl4Kernel

open Function

namespace Sched

variable {τ μ : Type*} [DecidableEq τ] [DecidableEq μ]

/-- `mutex_t::init`. -/
def initMutex (s : Sched τ μ) (m : μ) : Sched τ μ :=
  { s with
    donatee := update s.donatee (.mutex m) none
    blocked := update s.blocked (.mutex m) [] }

/-- `mutex_t::destroy`. The synchronisation point goes with the mutex. -/
def destroyMutex (s : Sched τ μ) (m : μ) : Sched τ μ :=
  match s.getHolder m with
  | none => s
  | some holder =>
    { s.dequeueHeld m holder with donatee := update s.donatee (.mutex m) none }

end Sched

namespace Kernel

variable {τ μ κ ι σ : Type*}

/-- `is_contended`: a thread is blocked on the mutex. -/
def isContended (k : Kernel τ μ κ ι σ) (m : μ) : Bool :=
  (k.scheduler.sched.blockedHead (.mutex m)).isSome

variable [DecidableEq τ] [DecidableEq μ]

/-- `mutex_create`, if there is no such mutex yet. -/
def createMutex (k : Kernel τ μ κ ι σ) (m : μ) : Kernel τ μ κ ι σ :=
  if k.present m then k
  else
    { k.onSched fun s => s.initMutex m with present := update k.present m true }

/-- The deletion of a mutex by `MutexControl`: the caller acquires it, and then it is destroyed. -/
def deleteMutex (k : Kernel τ μ κ ι σ) (c : τ) (m : μ) : Kernel τ μ κ ι σ :=
  match k.scheduler.sched.acquire m c with
  | (_, some _) => k
  | (s, none) =>
    { k.onSched fun _ => s.destroyMutex m with present := update k.present m false }

variable [Fintype τ] (k : Kernel τ μ κ ι σ)

/-- The caller blocks on a mutex, and goes on with `cont` when it is woken up. -/
def blockOnMutex (c : τ) (m : μ) (cont : Continuation) : Kernel τ μ κ ι σ :=
  ((k.block (.mutex m) c).setContinuation c cont).deactivateSched c .waitingMutex

/-- `mutex_t::lock`. -/
def lock (c : τ) (m : μ) (blocking : Bool) : Kernel τ μ κ ι σ :=
  match k.scheduler.sched.acquire m c with
  | (s, none) => k.onSched fun _ => s
  | (_, some holder) =>
    if blocking = false ∨ holder = c then k
    else (k.setSysMutex c (some m)).blockOnMutex c m .user

/-- `mutex_t::unlock`. -/
def unlock (c : τ) (m : μ) : Kernel τ μ κ ι σ :=
  if k.holder m = some c then
    match (k.scheduler.sched.release m).2 with
    | none => k.release m
    | some newHolder => (k.release m).activateSched newHolder
  else k

end Kernel

end Okl4Kernel
