import Okl4Kernel.PrioQueue
import Okl4Kernel.Lib.SortedQueue
import Mathlib.Data.Fintype.Card

/-!
# Synchronisation points and inherited priorities

Threads block on synchronisation points (`syncpoint_t`): every thread has one for the threads that
want to send to it and one for the threads that receive from it, and every mutex has one. The
thread that a synchronisation point waits for is its donatee; it inherits the priority of the
threads that are blocked there.

`Sched` is the part of the kernel state that these operations work on: the priorities, the ready
queue, and for each synchronisation point its donatee and its list of blocked threads. The list of
a synchronisation point is kept in the order in which the ring of `blocked_list` pointers runs from
`blocked_head`; `Okl4Kernel.BlockedRing` relates the two.

The assertions of the source are not part of the functions here. They are the guards of the
operations in `Okl4Kernel.SyncpointInvariant`.
-/

namespace Okl4Kernel

open Function

/-- The synchronisation points of the kernel: the send queue and the receive queue of a thread's
end point, and the one of a mutex. -/
inductive SyncRef (τ μ : Type*)
  | send (t : τ)
  | recv (t : τ)
  | mutex (m : μ)
  deriving DecidableEq

/-- Priorities, ready queue and synchronisation points. -/
structure Sched (τ μ : Type*) where
  /-- `base_prio` of each thread. -/
  basePrio : τ → Prio
  /-- `effective_prio` of each thread. -/
  effectivePrio : τ → Prio
  /-- The scheduler's `prio_queue`. -/
  prioQueue : PrioQueue τ
  /-- `waiting_for` of each thread. -/
  waitingFor : τ → Option (SyncRef τ μ)
  /-- The threads on the ring of `blocked_head`, in ring order. -/
  blocked : SyncRef τ μ → List τ
  /-- `donatee` of each synchronisation point. -/
  donatee : SyncRef τ μ → Option τ
  /-- The mutexes on the ring of each thread's `mutexes_head`, in ring order. -/
  mutexesHeld : τ → List μ

namespace Sched

variable {τ μ : Type*}

/-- No thread is queued or blocked anywhere, and no mutex is held. -/
def init (basePrio : τ → Prio) : Sched τ μ where
  basePrio := basePrio
  effectivePrio := basePrio
  prioQueue := PrioQueue.init
  waitingFor _ := none
  blocked _ := []
  donatee
    | .send t => some t
    | .recv t => some t
    | .mutex _ => none
  mutexesHeld _ := []

variable (s : Sched τ μ)

/-- `get_blocked_head`. -/
def blockedHead (r : SyncRef τ μ) : Option τ := (s.blocked r).head?

/-- The greater of a priority and that of the head of a synchronisation point. -/
def maxWithHead (max : Prio) (r : SyncRef τ μ) : Prio :=
  match s.blockedHead r with
  | none => max
  | some head => if max < s.effectivePrio head then s.effectivePrio head else max

/-- `calc_effective_priority`: the base priority, raised to that of the heads of the thread's send
queue, of its receive queue and of the mutexes it holds. -/
def calcEffectivePriority (t : τ) : Prio :=
  let max := s.basePrio t
  let max := s.maxWithHead max (.send t)
  let max := s.maxWithHead max (.recv t)
  (s.mutexesHeld t).foldl (fun max m => s.maxWithHead max (.mutex m)) max

/-- The assertion of `become_donatee` and `release_donatee`: the thread is not below the head of the
queue. -/
def headAtMost (r : SyncRef τ μ) (t : τ) : Bool :=
  match s.blockedHead r with
  | none => true
  | some head => s.effectivePrio head ≤ s.effectivePrio t

variable [DecidableEq τ] [DecidableEq μ] (s : Sched τ μ)

/-! ## Ready queue -/

/-- `prio_queue_t::enqueue`. -/
def enqueue (t : τ) : Sched τ μ :=
  { s with prioQueue := s.prioQueue.enqueue (s.effectivePrio t) t }

/-- `prio_queue_t::dequeue`. -/
def dequeue (t : τ) : Sched τ μ :=
  { s with prioQueue := s.prioQueue.dequeue (s.effectivePrio t) t }

/-- Write the `effective_prio` field. -/
def writeEffectivePrio (t : τ) (prio : Prio) : Sched τ μ :=
  { s with effectivePrio := update s.effectivePrio t prio }

/-- `set_effective_priority`: a queued thread is moved to the ring of its new priority. -/
def setEffectivePriority (t : τ) (prio : Prio) : Sched τ μ :=
  if s.prioQueue.isQueued t then
    ((s.dequeue t).writeEffectivePrio t prio).enqueue t
  else
    s.writeEffectivePrio t prio

/-- Write the `base_prio` field. -/
def writeBasePrio (t : τ) (prio : Prio) : Sched τ μ :=
  { s with basePrio := update s.basePrio t prio }

/-- `prio_queue_t::set_base_priority`. -/
def setBasePriority (t : τ) (prio : Prio) : Sched τ μ :=
  let old := s.effectivePrio t
  let s := s.writeBasePrio t prio
  let new := s.calcEffectivePriority t
  if new = old then s else s.setEffectivePriority t new

/-! ## Blocking on a synchronisation point -/

variable (r : SyncRef τ μ)

/-- `enqueue_tcb_sorted`: the thread goes before the first one of lower priority. -/
def enqueueTcbSorted (t : τ) : Sched τ μ :=
  { s with
    blocked := update s.blocked r (SortedQueue.insert s.effectivePrio t (s.blocked r)) }

/-- `enqueue_blocked`. -/
def enqueueBlocked (t : τ) : Sched τ μ :=
  let s := s.enqueueTcbSorted r t
  { s with waitingFor := update s.waitingFor t (some r) }

/-- `dequeue_blocked`. -/
def dequeueBlocked (t : τ) : Sched τ μ :=
  { s with
    blocked := update s.blocked r ((s.blocked r).erase t)
    waitingFor := update s.waitingFor t none }

/-- What both propagation loops do to one link of the chain: give it its new priority, move it to
its place in the queue it waits in, and go on to the donatee of that queue. -/
def updateLink (chain : τ) (prio : Prio) : Sched τ μ × Option τ :=
  let s := s.setEffectivePriority chain prio
  match s.waitingFor chain with
  | none => (s, none)
  | some next =>
    let s := (s.dequeueBlocked next chain).enqueueBlocked next chain
    (s, s.donatee next)

/-- The loop of `propagate_priority_increase`, cut off after `n` rounds. -/
def propagateIncreaseLoop (prio : Prio) : ℕ → Sched τ μ → Option τ → Sched τ μ
  | 0, s, _ => s
  | _ + 1, s, none => s
  | n + 1, s, some chain =>
    if prio ≤ s.effectivePrio chain then s
    else
      let link := s.updateLink chain prio
      propagateIncreaseLoop prio n link.1 link.2

/-- The loop of `propagate_priority_change`, cut off after `n` rounds. -/
def propagateChangeLoop : ℕ → Sched τ μ → Option τ → Sched τ μ
  | 0, s, _ => s
  | _ + 1, s, none => s
  | n + 1, s, some chain =>
    let prio := s.calcEffectivePriority chain
    if prio = s.effectivePrio chain then s
    else
      let link := s.updateLink chain prio
      propagateChangeLoop n link.1 link.2

variable [Fintype τ] (s : Sched τ μ) (r : SyncRef τ μ)

/-- `propagate_priority_increase`. The loop of the source has no bound; where the priorities are
exact, it is never longer than this one (`Wf.exists_trace_changedPrio`). -/
def propagatePriorityIncrease (prio : Prio) : Sched τ μ :=
  propagateIncreaseLoop prio (Fintype.card τ + 1) s (s.donatee r)

/-- `propagate_priority_change`. -/
def propagatePriorityChange : Sched τ μ :=
  propagateChangeLoop (Fintype.card τ + 1) s (s.donatee r)

variable (t : τ)

/-- `syncpoint_t::block`. -/
def block : Sched τ μ :=
  let s := s.enqueueBlocked r t
  match s.donatee r with
  | none => s
  | some _ => s.propagatePriorityIncrease r (s.effectivePrio t)

/-- `syncpoint_t::unblock`. -/
def unblock : Sched τ μ :=
  let s := s.dequeueBlocked r t
  match s.donatee r with
  | none => s
  | some _ => s.propagatePriorityChange r

/-- `syncpoint_t::refresh`. -/
def refresh : Sched τ μ :=
  let s := (s.dequeueBlocked r t).enqueueBlocked r t
  match s.donatee r with
  | none => s
  | some _ => s.propagatePriorityChange r

/-- `scheduler_t::set_priority`. -/
def setPriority (prio : Prio) : Sched τ μ :=
  let s := s.setBasePriority t prio
  match s.waitingFor t with
  | none => s
  | some r => s.refresh r t

/-- `tcb_t::remove_dependency`. -/
def removeDependency : Sched τ μ :=
  match s.waitingFor t with
  | none => s
  | some r => s.unblock r t

/-! ## Donatees and mutexes -/

/-- `syncpoint_t::become_donatee`. -/
def becomeDonatee : Sched τ μ :=
  { s with donatee := update s.donatee r (some t) }

/-- `syncpoint_t::release_donatee`: if the donatee may have its priority from this synchronisation
point, it is calculated anew. -/
def releaseDonatee : Sched τ μ :=
  match s.donatee r with
  | none => s
  | some d =>
    let s :=
      match s.blockedHead r with
      | none => s
      | some head =>
        if s.effectivePrio d ≤ s.effectivePrio head then
          s.writeEffectivePrio d (s.calcEffectivePriority d)
        else s
    { s with donatee := update s.donatee r none }

variable (m : μ)

/-- `get_holder`. -/
def getHolder : Option τ := s.donatee (.mutex m)

/-- `mutex_t::enqueue_held`. -/
def enqueueHeld (t : τ) : Sched τ μ :=
  { s with mutexesHeld := update s.mutexesHeld t (s.mutexesHeld t ++ [m]) }

/-- `mutex_t::dequeue_held`. -/
def dequeueHeld (t : τ) : Sched τ μ :=
  { s with mutexesHeld := update s.mutexesHeld t ((s.mutexesHeld t).erase m) }

/-- `mutex_t::set_holder`. -/
def setHolder (t : τ) : Sched τ μ :=
  (s.enqueueHeld m t).becomeDonatee (.mutex m) t

/-- `mutex_t::acquire`: the thread becomes the holder of a free mutex; the holder of a mutex that
is not free is returned. -/
def acquire (candidate : τ) : Sched τ μ × Option τ :=
  match s.getHolder m with
  | some holder => (s, some holder)
  | none => ((s.enqueueHeld m candidate).becomeDonatee (.mutex m) candidate, none)

/-- `mutex_t::release`: the mutex goes to the first thread that is blocked on it, which is
returned, or becomes free. -/
def release : Sched τ μ × Option τ :=
  match s.getHolder m with
  | none => (s, none)
  | some holder =>
    match s.blockedHead (.mutex m) with
    | none => ((s.dequeueHeld m holder).releaseDonatee (.mutex m), none)
    | some newHolder =>
      let s := (s.dequeueHeld m holder).releaseDonatee (.mutex m)
      let s := s.enqueueHeld m newHolder
      let s := s.unblock (.mutex m) newHolder
      (s.becomeDonatee (.mutex m) newHolder, some newHolder)

/-! ## Removing a thread -/

/-- The loops of `cancel_ipcs`: while a thread is blocked on the synchronisation point, the first
one is unwound and made runnable. -/
def unblockAll (r : SyncRef τ μ) : ℕ → Sched τ μ → Sched τ μ
  | 0, s => s
  | n + 1, s =>
    match s.blockedHead r with
    | none => s
    | some head => unblockAll r n ((s.unblock r head).enqueue head)

/-- The loop of `release_mutexes`: while the thread holds a mutex, the first one is released and
its new holder is made runnable. -/
def releaseMutexes (t : τ) : ℕ → Sched τ μ → Sched τ μ
  | 0, s => s
  | n + 1, s =>
    match (s.mutexesHeld t).head? with
    | none => s
    | some m =>
      match s.release m with
      | (s, none) => releaseMutexes t n s
      | (s, some newHolder) => releaseMutexes t n (s.enqueue newHolder)

/-- `scheduler_t::delete_tcb`, as far as priorities are concerned. -/
def resetPriority : Sched τ μ :=
  (s.writeBasePrio t 0).writeEffectivePrio t 0

/-- What `tcb_t::delete_tcb` does to priorities, ready queue and synchronisation points: the thread
leaves the queue it waits in, the threads in its own queues are unwound, it leaves the ready queue
and gives up its mutexes. -/
def removeThread : Sched τ μ :=
  let s := s.removeDependency t
  let s := unblockAll (.send t) (s.blocked (.send t)).length s
  let s := unblockAll (.recv t) (s.blocked (.recv t)).length s
  let s := if s.prioQueue.isQueued t then s.dequeue t else s
  let s := releaseMutexes t (s.mutexesHeld t).length s
  s.resetPriority t

end Sched

end Okl4Kernel
