import Okl4Kernel.Syncpoint

/-!
# The scheduler

`scheduler_t` on a single processor. The thread that runs is not on the ready queue. A full
`schedule` compares it with the highest priority of the ready queue; the other operations that
change which threads are runnable try to avoid that, relying on the running thread being the
highest one. The flag `scheduling_invariants_violated` says that this need not be so.

The kernel enters with some thread running, performs operations that do not dispatch (`Prep`), and
ends with one that decides which thread is to run (`Dispatch`). An `Entry` is such a sequence; the
state behind it is the one in which the kernel returns to user mode, or runs the continuation of
the thread that it has switched to.

A thread pointer that may be that of the idle thread is an `Option`, with `none` for the idle thread.
The user-level preemption callback and the kernel clock, which scheduling decisions do not depend
on, are left out.
-/

namespace Okl4Kernel

open Function

/-- `thread_state_t`, without the states of multiprocessor builds. -/
inductive ThreadState
  | running
  | waitingForever
  | waitingNotify
  | polling
  | halted
  | aborted
  | waitingMutex
  deriving DecidableEq

/-- `is_runnable`: the lowermost bit of the state is not set. -/
def ThreadState.isRunnable : ThreadState → Bool
  | running => true
  | _ => false

/-- The scheduler and the states of the threads. -/
structure Scheduler (τ μ : Type*) where
  sched : Sched τ μ
  /-- `get_state` of each thread. -/
  threadState : τ → ThreadState
  /-- `get_current_tcb`. -/
  current : Option τ
  /-- `get_active_schedule`: the thread whose timeslice is running down. -/
  activeSchedule : Option τ
  /-- `current_timeslice` of each thread; zero is an infinite timeslice. -/
  currentTimeslice : τ → ℕ
  /-- `timeslice_length` of each thread. -/
  timesliceLength : τ → ℕ
  /-- `scheduling_invariants_violated`. -/
  invariantsViolated : Bool

namespace Scheduler

variable {τ μ : Type*}

/-- The idle thread runs, and no thread has been started. -/
def init (basePrio : τ → Prio) (timesliceLength : τ → ℕ) : Scheduler τ μ where
  sched := Sched.init basePrio
  threadState _ := .aborted
  current := none
  activeSchedule := none
  currentTimeslice := timesliceLength
  timesliceLength := timesliceLength
  invariantsViolated := true

/-- The thread is on the ready queue. -/
def isQueued (k : Scheduler τ μ) (t : τ) : Bool := k.sched.prioQueue.isQueued t

variable (k : Scheduler τ μ)

/-- The effective priority of a thread; that of the idle thread is `-1`. -/
def prioOf : Option τ → ℤ
  | none => -1
  | some t => (k.sched.effectivePrio t : ℕ)

/-- The state of the thread is a runnable one; the idle thread always is. -/
def runnable : Option τ → Bool
  | none => true
  | some t => (k.threadState t).isRunnable

/-- `get_highest_priority`. -/
def getHighestPriority (k : Scheduler τ μ) : ℤ := k.sched.prioQueue.getHighestPriority

/-- The first thread of the highest non-empty priority, or the idle thread. -/
def highest : Option τ :=
  if 0 ≤ k.getHighestPriority then
    k.sched.prioQueue.heads (Fin.ofNat (maxPrio + 1) k.getHighestPriority.toNat)
  else none

variable [DecidableEq τ] (k : Scheduler τ μ) (t : τ) (state : ThreadState)

/-- `set_state`. -/
def setState : Scheduler τ μ :=
  { k with threadState := update k.threadState t state }

/-- `scheduler_t::enqueue`. -/
def enqueue (t : τ) : Scheduler τ μ := { k with sched := k.sched.enqueue t }

/-- `scheduler_t::dequeue`. -/
def dequeue (t : τ) : Scheduler τ μ := { k with sched := k.sched.dequeue t }

/-- Take a thread off the ready queue, if it is on it. -/
def dequeueIfQueued : Scheduler τ μ :=
  if k.isQueued t then k.dequeue t else k

/-- `release_and_reschedule_tcb`: put a thread on the ready queue, if it is runnable and not the
idle thread. -/
def releaseAndRescheduleTcb : Option τ → Scheduler τ μ
  | none => k
  | some t => if k.runnable (some t) then k.enqueue t else k

/-- `set_active_thread` and `switch_to`. -/
def switchTo (next schedule : Option τ) : Scheduler τ μ :=
  { k with current := next, activeSchedule := schedule }

/-! ## Dispatching -/

/-- `schedule`: keep the current thread if it is above the ready queue, or level with it and no
round robin is asked for; otherwise take the first thread of the highest priority. -/
def schedule (roundRobin : Bool) : Scheduler τ μ :=
  let k := { k with invariantsViolated := false }
  let maxPrio := k.getHighestPriority
  if k.runnable k.current ∧ (maxPrio < k.prioOf k.current ∨
      (roundRobin = false ∧ k.prioOf k.current = maxPrio)) then k
  else
    let next := k.highest
    let old := k.current
    let k := match next with
      | none => k
      | some next => k.dequeue next
    (k.releaseAndRescheduleTcb old).switchTo next next

variable (canScheduleCurrent : Bool)

/-- `fast_schedule` without a new thread: `canScheduleCurrent` is
`type == current_tcb_schedulable`. -/
def fastSchedule : Scheduler τ μ :=
  if canScheduleCurrent ∧ k.invariantsViolated = false then k else k.schedule false

/-- `run_e`: what to do with a thread that has become runnable. -/
inductive RunDecision
  | runNew
  | runCurrent
  | fullSchedule
  deriving DecidableEq

/-- `should_schedule_thread`. -/
def shouldScheduleThread : RunDecision :=
  if k.invariantsViolated then .fullSchedule
  else if canScheduleCurrent ∧ k.prioOf (some t) ≤ k.prioOf k.current then .runCurrent
  else if k.prioOf k.current ≤ k.prioOf (some t) then .runNew
  else if k.getHighestPriority ≤ k.prioOf (some t) then .runNew
  else .fullSchedule

/-- `fast_schedule` with a thread that has become runnable and is not on the ready queue yet. -/
def fastScheduleThread : Scheduler τ μ :=
  match k.shouldScheduleThread t canScheduleCurrent with
  | .runNew => (k.releaseAndRescheduleTcb k.current).switchTo (some t) (some t)
  | .runCurrent => k.releaseAndRescheduleTcb (some t)
  | .fullSchedule => (k.releaseAndRescheduleTcb (some t)).schedule false

/-- `end_of_timeslice`: a thread other than the current one goes to the end of its ring, and the
timeslice is renewed. -/
def endOfTimeslice : Option τ → Scheduler τ μ
  | none => k
  | some t =>
    let k := if some t ≠ k.current ∧ k.isQueued t then (k.dequeue t).enqueue t else k
    { k with
      currentTimeslice := update k.currentTimeslice t (k.timesliceLength t) }

/-- `yield`. -/
def yield : Scheduler τ μ := (k.endOfTimeslice k.activeSchedule).schedule true

/-! ## Operations -/

/-- `activate`. -/
def activate : Scheduler τ μ :=
  (k.setState t state).releaseAndRescheduleTcb (some t)

/-- `deactivate`. -/
def deactivate : Scheduler τ μ :=
  (k.setState t state).dequeueIfQueued t

/-- `activate_sched`. -/
def activateSched : Scheduler τ μ :=
  (k.setState t state).fastScheduleThread t true

/-- `deactivate_sched`. -/
def deactivateSched : Scheduler τ μ :=
  let k := k.setState t state
  if some t ≠ k.current then (k.dequeueIfQueued t).fastSchedule true
  else k.fastSchedule false

/-- `deactivate_activate_sched`. -/
def deactivateActivateSched (deactivated activated : τ)
    (inactiveState activeState : ThreadState) : Scheduler τ μ :=
  let schedulable := decide (some deactivated ≠ k.current)
  let k := if schedulable then k.dequeue deactivated else k
  let k := (k.setState deactivated inactiveState).setState activated activeState
  k.fastScheduleThread activated schedulable

/-- `context_switch`: switch to a thread without looking at priorities. -/
def contextSwitch (current dest : τ) (currentState destState : ThreadState) : Scheduler τ μ :=
  let k := (k.setState current currentState).setState dest destState
  let k := { k with invariantsViolated := true }
  (k.releaseAndRescheduleTcb (some current)).switchTo (some dest) k.activeSchedule

/-- `donate`: a directed `ThreadSwitch`. -/
def donate (dest current : τ) : Scheduler τ μ :=
  if k.runnable (some dest) = false ∨ k.isQueued dest = false then k.yield
  else ((k.dequeue dest).enqueue current).switchTo (some dest) k.activeSchedule

/-- The branch of `handle_timer_interrupt` at `reschedule`. -/
def reschedule (wakeup : Bool) : Scheduler τ μ :=
  if wakeup then k.schedule false else k

/-- `handle_timer_interrupt`. -/
def handleTimerInterrupt (wakeup : Bool) (timerLength : ℕ) : Scheduler τ μ :=
  match k.current, k.activeSchedule with
  | some current, some active =>
    let timeslice := k.currentTimeslice active
    if timeslice = 0 then k.reschedule wakeup
    else if timeslice ≤ timerLength then
      if current = active ∧ wakeup = false ∧
          k.sched.prioQueue.heads (k.sched.effectivePrio active) = none then
        { k with
          currentTimeslice := update k.currentTimeslice active (k.timesliceLength active) }
      else (k.endOfTimeslice (some active)).schedule true
    else
      reschedule { k with
        currentTimeslice := update k.currentTimeslice active (timeslice - timerLength) }
        wakeup
  -- The idle thread has no timeslice.
  | _, _ => k.reschedule wakeup

variable [DecidableEq μ] [Fintype τ]

/-- `scheduler_t::set_priority`. -/
def setPriority (k : Scheduler τ μ) (t : τ) (prio : Prio) : Scheduler τ μ :=
  { k with sched := k.sched.setPriority t prio }

end Scheduler

/-! ## Entries to the kernel -/

/-- The operations that do not dispatch. -/
inductive Prep (τ : Type*)
  | activate (t : τ) (state : ThreadState)
  | deactivate (t : τ) (state : ThreadState)
  | setPriority (t : τ) (prio : Prio)

/-- The operations that end an entry to the kernel; `resume` goes back to the current thread. -/
inductive Dispatch (τ : Type*)
  | schedule (roundRobin : Bool)
  | yield
  | activateSched (t : τ) (state : ThreadState)
  | deactivateSched (t : τ) (state : ThreadState)
  | deactivateActivateSched (deactivated activated : τ) (inactiveState activeState : ThreadState)
  | contextSwitch (dest : τ) (currentState destState : ThreadState)
  | donate (dest : τ)
  | timerTick (wakeup : Bool) (timerLength : ℕ)
  | resume
  deriving DecidableEq

/-- An entry to the kernel. -/
structure Entry (τ : Type*) where
  prep : List (Prep τ)
  dispatch : Dispatch τ

namespace Scheduler

variable {τ μ : Type*} [DecidableEq τ] [DecidableEq μ] [Fintype τ] (k : Scheduler τ μ)

/-- Perform an operation that does not dispatch, if the assertions of the source hold. The current
thread is not activated: it has been running. -/
def prepStep : Prep τ → Option (Scheduler τ μ)
  | .activate t state =>
    if state.isRunnable ∧ k.runnable (some t) = false ∧ some t ≠ k.current then
      some (k.activate t state)
    else none
  | .deactivate t state =>
    if state.isRunnable = false ∧ k.runnable (some t) then some (k.deactivate t state) else none
  | .setPriority t prio => some (k.setPriority t prio)

/-- Perform an operation that dispatches, if the assertions of the source hold. The destination of
a context switch is a thread that polls the current one, and that of a donation is another thread
than the current one. -/
def dispatchStep : Dispatch τ → Option (Scheduler τ μ)
  | .schedule roundRobin => some (k.schedule roundRobin)
  | .yield => some k.yield
  | .activateSched t state =>
    if state.isRunnable ∧ k.runnable (some t) = false ∧ some t ≠ k.current ∧
        k.runnable k.current then
      some (k.activateSched t state)
    else none
  | .deactivateSched t state =>
    if state.isRunnable = false ∧ k.runnable (some t) then some (k.deactivateSched t state)
    else none
  | .deactivateActivateSched deactivated activated inactiveState activeState =>
    if k.runnable (some deactivated) ∧ k.runnable (some activated) = false ∧
        inactiveState.isRunnable = false ∧ activeState.isRunnable ∧ some activated ≠ k.current ∧
        (some deactivated ≠ k.current → k.isQueued deactivated) ∧
        (some deactivated ≠ k.current → k.runnable k.current) then
      some (k.deactivateActivateSched deactivated activated inactiveState activeState)
    else none
  | .contextSwitch dest currentState destState =>
    match k.current with
    | none => none
    | some current =>
      if destState.isRunnable ∧ k.threadState dest = .polling ∧ dest ≠ current then
        some (k.contextSwitch current dest currentState destState)
      else none
  | .donate dest =>
    match k.current with
    | none => none
    | some current =>
      if k.runnable (some current) ∧ dest ≠ current then some (k.donate dest current) else none
  | .timerTick wakeup timerLength => some (k.handleTimerInterrupt wakeup timerLength)
  | .resume => some k

/-- Perform a list of operations and dispatch. -/
def entryStep (e : Entry τ) : Option (Scheduler τ μ) :=
  (e.prep.foldlM prepStep k).bind fun k => k.dispatchStep e.dispatch

end Scheduler

end Okl4Kernel
