import Okl4Kernel.Scheduler
import Okl4Kernel.Lib.TransitionSystem

/-!
# Halting and suspending a thread

`ExchangeRegisters` can halt a thread, and it can suspend it. A halted thread stays where it is. A
suspended thread may complete a system call, but it should not return to user mode. Both use the
state `halted`; a thread is suspended if it has a flag in addition.

Two things go wrong. Ending a suspension resumes a thread that is halted, no matter whether it is
halted because of the suspension or has been halted for itself. And a thread that is suspended while
it is blocked should be stopped by a callback when it is about to leave the kernel, but on SH nothing
calls it: the thread goes on in user mode as soon as somebody completes or aborts what it waits for.

The model is about one thread. `Event` has what the thread does and what the others do to it;
`SYS_SCHEDULE` changes neither the state nor the flag.
-/

namespace Okl4Kernel.HaltSuspend

open TransitionSystem Option Bool

/-- The bits of the control word that halt, suspend or abort. -/
structure Control where
  halt : Bool
  haltFlag : Bool
  suspendFlag : Bool
  send : Bool
  recv : Bool
  deriving DecidableEq

/-- What the thread control block has to say. -/
structure Tcb where
  state : ThreadState
  /-- `is_suspended`. -/
  suspended : Bool
  /-- The thread is in a system call or has been interrupted. -/
  inKernel : Bool
  /-- The control words of the callers that have aborted an operation of the thread, and that will
  continue with `finish_perform_exreg`. -/
  pending : List Control
  /-- The thread has been halted by `ExchangeRegisters`, which has not been told to resume it
  since. -/
  halted : Bool
  deriving DecidableEq

/-- The thread waits for somebody else. -/
def isBlocked : ThreadState → Bool
  | .waitingForever | .waitingNotify | .polling | .waitingMutex => true
  | _ => false

namespace Tcb

/-- `unwind`. -/
def unwind (t : Tcb) : Tcb := { t with state := .aborted }

/-- `activate`. -/
def activate (t : Tcb) : Tcb := { t with state := .running }

/-- The first half of `finish_perform_exreg`, which halts or resumes the thread. The second
component says whether the call ends here: the caller has halted itself, or gives way to the thread
that it has resumed. -/
def finishHalt (self : Bool) (ctrl : Control) (t : Tcb) : Tcb × Bool :=
  if ctrl.haltFlag then
    if ctrl.halt then
      if t.state = .running then ({ t with state := .halted, halted := true }, self)
      else ({ t with halted := t.state = .halted }, false)
    else if t.state = .halted ∧ ¬ t.suspended then
      ({ t with state := .running, halted := false }, true)
    else ({ t with halted := false }, false)
  else (t, false)

/-- The second half of `finish_perform_exreg`, which suspends the thread or ends the suspension. -/
def finishSuspend (ctrl : Control) (t : Tcb) : Tcb :=
  if ctrl.suspendFlag then
    if ctrl.halt then
      if t.suspended then t
      else if t.state = .running then { t with suspended := true, state := .halted }
      else { t with suspended := true }
    else if t.suspended then
      if t.state = .halted then { t with suspended := false, state := .running }
      else { t with suspended := false }
    else t
  else t

/-- `finish_perform_exreg`. -/
def finishPerformExreg (self : Bool) (ctrl : Control) (t : Tcb) : Tcb :=
  if (t.finishHalt self ctrl).2 then (t.finishHalt self ctrl).1
  else (t.finishHalt self ctrl).1.finishSuspend ctrl

/-- The control word aborts the operation of a thread in the given state. -/
def aborts (ctrl : Control) : ThreadState → Bool
  | .polling => ctrl.send
  | .waitingForever | .waitingNotify => ctrl.recv
  | .waitingMutex => ctrl.send || ctrl.recv
  | _ => false

/-- `perform_exregs`. After an operation has been aborted, the caller gives way to other threads. -/
def performExregs (self : Bool) (ctrl : Control) (t : Tcb) : Tcb :=
  if aborts ctrl t.state then { t.unwind.activate with pending := ctrl :: t.pending }
  else t.finishPerformExreg self ctrl

end Tcb

/-- What the thread does, and what the others do to it. -/
inductive Event where
  /-- The thread executes an instruction in user mode. -/
  | execute
  /-- The thread makes a system call and waits for others, or does so again in the receive phase of
  a call. -/
  | block (state : ThreadState)
  /-- The thread causes an exception for which there is no handler. -/
  | fault
  /-- The thread leaves the kernel. -/
  | leave
  /-- Somebody completes what the thread waits for. -/
  | wake
  /-- `cancel_ipcs` or `release_mutexes` of another thread. -/
  | cancel
  /-- `delete_tcb`. -/
  | delete
  /-- `ExchangeRegisters`, called by another thread. -/
  | exregs (ctrl : Control)
  /-- `ExchangeRegisters`, called by the thread itself. -/
  | exregsSelf (ctrl : Control)
  /-- A caller goes on after it has aborted an operation of the thread. -/
  | finish (ctrl : Control)
  deriving DecidableEq

variable (t : Tcb)

/-- The thread is in user mode and can be dispatched. -/
def Tcb.InUserMode : Prop := t.state = .running ∧ ¬ t.inKernel

instance (t : Tcb) : Decidable t.InUserMode := inferInstanceAs (Decidable (_ ∧ _))

/-- What happens to the thread. -/
def step : Event → Option Tcb
  | .execute => if t.InUserMode then some t else none
  | .block state =>
    if t.state = .running ∧ isBlocked state then some { t with state, inKernel := true } else none
  | .fault => if t.InUserMode then some { t with state := .halted, inKernel := true } else none
  | .leave =>
    if t.state = .running ∧ t.inKernel then some { t with inKernel := false } else none
  | .wake => if isBlocked t.state then some t.activate else none
  | .cancel => if isBlocked t.state then some t.unwind.activate else none
  | .delete => some t.unwind
  | .exregs ctrl => some (t.performExregs false ctrl)
  | .exregsSelf ctrl =>
    if t.InUserMode then some ({ t with inKernel := true }.performExregs true ctrl) else none
  | .finish ctrl =>
    if ctrl ∈ t.pending then
      some ({ t with pending := t.pending.erase ctrl }.finishPerformExreg false ctrl)
    else none

/-- A new thread waits for a message. -/
def start : Tcb where
  state := .waitingForever
  suspended := false
  inKernel := true
  pending := []
  halted := false

/-! ## Stopped threads -/

/-- Left alone, the thread executes an instruction in user mode. -/
def Runs : Prop :=
  ∃ n t', run step t (List.replicate n .leave ++ [.execute]) = some t'

/-- A thread that is halted or suspended does not execute instructions in user mode. -/
def Stopped : Prop := t.halted ∨ t.suspended → ¬ Runs t

/-- The control word ends the suspension of a halted thread, and does not say that the thread is to
be resumed. -/
def Tcb.Lifts (ctrl : Control) : Prop :=
  ctrl.suspendFlag ∧ ¬ ctrl.halt ∧ ¬ ctrl.haltFlag ∧ t.suspended ∧ t.state = .halted

/-- A suspended thread is not woken up, and the suspension of a thread that has been halted by
`ExchangeRegisters` is not ended without resuming it. -/
def Allowed : Event → Prop
  | .wake | .cancel => isBlocked t.state → ¬ t.suspended
  | .exregs ctrl => (Tcb.aborts ctrl t.state → ¬ t.suspended) ∧ (t.Lifts ctrl → ¬ t.halted)
  | .finish ctrl => ctrl ∈ t.pending → t.Lifts ctrl → ¬ t.halted
  | _ => True

lemma runs_iff {t : Tcb} : Runs t ↔ t.state = .running := by
  constructor
  · rintro ⟨_ | n, t', hrun⟩
    all_goals
      obtain ⟨_, hstep, -⟩ := bind_eq_some_iff.1 hrun
      exact (ite_none_right_eq_some.1 hstep).1.1
  · intro hstate
    rcases hkernel : t.inKernel with _ | _
    · exact ⟨0, t, by simp [run, step, Tcb.InUserMode, hstate, hkernel]⟩
    · exact ⟨1, _, by simp [run, step, Tcb.InUserMode, hstate, hkernel]; rfl⟩

/-- The invariant: a stopped thread is not running, and one that has been halted by
`ExchangeRegisters` stays halted until it is deleted. -/
structure Good (t : Tcb) : Prop where
  stopped : t.halted ∨ t.suspended → t.state ≠ .running
  held : t.halted → t.state = .halted ∨ t.state = .aborted

namespace Good

variable {t t' : Tcb}

lemma running (h : Good t) (hstate : t.state = .running) : ¬ t.halted ∧ ¬ t.suspended :=
  ⟨fun hhalted => h.stopped (.inl hhalted) hstate,
    fun hsuspended => h.stopped (.inr hsuspended) hstate⟩

lemma not_halted (h : Good t) (hstate : isBlocked t.state) : ¬ t.halted := by
  intro hhalted
  rcases h.held hhalted with heq | heq <;> rw [heq] at hstate
  all_goals exact false_ne_true hstate

lemma of_free (hhalted : ¬ t.halted) (hsuspended : ¬ t.suspended) : Good t :=
  ⟨fun hstopped => (hstopped.elim hhalted hsuspended).elim, fun h => absurd h hhalted⟩

lemma finishHalt (h : Good t) (self : Bool) (ctrl : Control) : Good (t.finishHalt self ctrl).1 := by
  unfold Tcb.finishHalt
  split_ifs with hflag hhalt hrunning hresume
  · exact ⟨fun _ => by simp, fun _ => .inl rfl⟩
  · exact ⟨fun _ => hrunning, fun hhalted => .inl (of_decide_eq_true hhalted)⟩
  · exact of_free false_ne_true hresume.2
  · refine ⟨fun hstopped => ?_, fun hhalted => absurd hhalted false_ne_true⟩
    exact h.stopped (.inr (hstopped.resolve_left false_ne_true))
  · exact h

variable {ctrl : Control}

/-- Suspending, or ending the suspension of a thread that has not been halted. -/
lemma finishSuspend (h : Good t)
    (hlifts : ctrl.suspendFlag → ¬ ctrl.halt → t.suspended → t.state = .halted → ¬ t.halted) :
    Good (t.finishSuspend ctrl) := by
  unfold Tcb.finishSuspend
  split_ifs with hflag hhalt hsuspended hrunning hsuspended hstate
  · exact h
  · exact ⟨fun _ => by simp, fun _ => .inl rfl⟩
  · exact ⟨fun _ => hrunning, h.held⟩
  · exact of_free (hlifts hflag hhalt hsuspended hstate) false_ne_true
  · refine ⟨fun hstopped => ?_, h.held⟩
    exact h.stopped (hstopped.imp_right fun hfalse => absurd hfalse Bool.false_ne_true)
  · exact h
  · exact h

lemma finishPerformExreg (h : Good t) (self : Bool)
    (hlifts : t.Lifts ctrl → ¬ t.halted) : Good (t.finishPerformExreg self ctrl) := by
  unfold Tcb.finishPerformExreg
  split_ifs with hends
  · exact h.finishHalt self ctrl
  refine (h.finishHalt self ctrl).finishSuspend fun hflag hhalt hsuspended hstate => ?_
  by_cases hhaltFlag : ctrl.haltFlag
  · -- the thread was to be resumed
    unfold Tcb.finishHalt
    split_ifs <;> simp
  · have hsame : t.finishHalt self ctrl = (t, false) := if_neg hhaltFlag
    rw [hsame] at hsuspended hstate ⊢
    exact hlifts ⟨hflag, hhalt, hhaltFlag, hsuspended, hstate⟩

lemma performExregs (h : Good t) (hallowed : Allowed t (.exregs ctrl)) :
    Good (t.performExregs false ctrl) := by
  unfold Tcb.performExregs
  split_ifs with haborts
  · refine of_free (h.not_halted ?_) (hallowed.1 haborts)
    revert haborts
    cases t.state <;> simp [Tcb.aborts, isBlocked]
  · exact h.finishPerformExreg false hallowed.2

lemma step (h : Good t) {event : Event} (hallowed : Allowed t event)
    (hstep : HaltSuspend.step t event = some t') : Good t' := by
  cases event with
  | execute =>
    obtain ⟨-, ⟨⟩⟩ := ite_none_right_eq_some.1 hstep
    exact h
  | block state =>
    obtain ⟨⟨hmode, hblocked⟩, ⟨⟩⟩ := ite_none_right_eq_some.1 hstep
    obtain ⟨hhalted, hsuspended⟩ := h.running hmode
    exact of_free hhalted hsuspended
  | fault =>
    obtain ⟨hmode, ⟨⟩⟩ := ite_none_right_eq_some.1 hstep
    obtain ⟨hhalted, hsuspended⟩ := h.running hmode.1
    exact of_free hhalted hsuspended
  | leave =>
    obtain ⟨-, ⟨⟩⟩ := ite_none_right_eq_some.1 hstep
    exact { h with }
  | wake | cancel =>
    obtain ⟨hblocked, ⟨⟩⟩ := ite_none_right_eq_some.1 hstep
    exact of_free (h.not_halted hblocked) (hallowed hblocked)
  | delete =>
    cases hstep
    exact ⟨fun _ => by simp [Tcb.unwind], fun _ => .inr rfl⟩
  | exregs ctrl =>
    cases hstep
    exact h.performExregs hallowed
  | exregsSelf ctrl =>
    obtain ⟨hmode, ⟨⟩⟩ := ite_none_right_eq_some.1 hstep
    obtain ⟨hhalted, -⟩ := h.running hmode.1
    have haborts : Tcb.aborts ctrl t.state = false := by rw [hmode.1]; rfl
    have hgood : Good { t with inKernel := true } := { h with }
    rw [Tcb.performExregs, if_neg (eq_false_iff.1 haborts)]
    exact hgood.finishPerformExreg true fun _ => hhalted
  | finish ctrl =>
    obtain ⟨hpending, ⟨⟩⟩ := ite_none_right_eq_some.1 hstep
    have hgood : Good { t with pending := t.pending.erase ctrl } := { h with }
    exact hgood.finishPerformExreg false (hallowed hpending)

end Good

/-- Ending the suspension of a halted thread lets it run. -/
lemma finishPerformExreg_of_lifts {t : Tcb} {ctrl : Control} (h : t.Lifts ctrl) (self : Bool) :
    t.finishPerformExreg self ctrl = { t with suspended := false, state := .running } := by
  obtain ⟨hflag, hhalt, hhaltFlag, hsuspended, hstate⟩ := h
  simp [Tcb.finishPerformExreg, Tcb.finishHalt, Tcb.finishSuspend, hflag, hhalt, hhaltFlag,
    hsuspended, hstate]

lemma allowed_of_stopped {t t' : Tcb} {event : Event} (hstep : step t event = some t')
    (hstopped : Stopped t') : Allowed t event := by
  rw [Stopped, runs_iff] at hstopped
  cases event with
  | wake | cancel =>
    intro hblocked hsuspended
    rw [step, if_pos hblocked] at hstep
    cases hstep
    exact hstopped (.inr hsuspended) rfl
  | exregs ctrl =>
    cases hstep
    constructor
    · intro haborts hsuspended
      rw [Tcb.performExregs, if_pos haborts] at hstopped
      exact hstopped (.inr hsuspended) rfl
    · intro hlifts hhalted
      have haborts : ¬ Tcb.aborts ctrl t.state := by
        rw [hlifts.2.2.2.2]
        exact false_ne_true
      rw [Tcb.performExregs, if_neg haborts, finishPerformExreg_of_lifts hlifts] at hstopped
      exact hstopped (.inl hhalted) rfl
  | finish ctrl =>
    intro hpending hlifts hhalted
    have hlifts' : Tcb.Lifts { t with pending := t.pending.erase ctrl } ctrl := hlifts
    rw [step, if_pos hpending, finishPerformExreg_of_lifts hlifts'] at hstep
    cases hstep
    exact hstopped (.inl hhalted) rfl
  | _ => trivial

/-- Along a run, a thread that is halted or suspended never executes instructions in user mode
exactly if it is not woken up while it is suspended, and its suspension is not ended while it is
halted. -/
theorem stopped_iff (events : List Event) :
    (∀ n t, run step start (events.take n) = some t → Stopped t) ↔
      RunMeets step Allowed start events := by
  refine runMeets_iff (I := Good) ?_ ?_ ?_ ?_ ?_ events
  · intro t h hstopped hruns
    exact h.stopped hstopped (runs_iff.1 hruns)
  · intro t event hnone
    cases event with
    | wake | cancel =>
      intro hblocked
      rw [step, if_pos hblocked] at hnone
      cases hnone
    | exregs ctrl => cases hnone
    | finish ctrl =>
      intro hpending
      rw [step, if_pos hpending] at hnone
      cases hnone
    | _ => trivial
  · exact fun t event t' h hstep hallowed => h.step hallowed hstep
  · exact fun t event t' _ hstep hstopped => allowed_of_stopped hstep hstopped
  · exact Good.of_free false_ne_true false_ne_true

/-- The thread is started and halted. Then it is suspended, and the suspension is ended. -/
def suspendHalted : List Event :=
  [.wake, .leave, .exregs ⟨true, true, false, false, false⟩,
    .exregs ⟨true, false, true, false, false⟩, .exregs ⟨false, false, true, false, false⟩]

/-- The thread is started and waits. It is suspended, and then it gets a message. -/
def suspendWaiting : List Event :=
  [.wake, .leave, .block .waitingForever, .exregs ⟨true, false, true, false, false⟩, .wake]

/-- The thread has been halted and not been resumed, or it is suspended, but it runs. -/
theorem not_stopped : (∃ t, run step start suspendHalted = some t ∧ t.halted ∧ Runs t) ∧
      ∃ t, run step start suspendWaiting = some t ∧ t.suspended ∧ Runs t := by
  refine ⟨⟨⟨.running, false, false, [], true⟩, by decide, rfl, runs_iff.2 rfl⟩,
    ⟨.running, true, true, [], false⟩, by decide, rfl, runs_iff.2 rfl⟩

end Okl4Kernel.HaltSuspend
