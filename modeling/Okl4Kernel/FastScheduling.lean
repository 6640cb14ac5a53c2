import Okl4Kernel.SchedulerInvariant

/-!
# The fast path agrees with a full schedule

`activate_sched` and `deactivate_activate_sched` make a thread runnable and decide on the fast path
which thread is to run: `should_schedule_thread` compares the new thread with the current one, and
looks at the ready queue only if that does not settle it.

The slow way to the same end puts the new thread on the ready queue and calls `schedule`. Both ways
leave the same threads ready or running, and in both the running thread is the highest one of them;
so the threads that they select have the same priority (`fast_agrees_with_full`).
-/

namespace Okl4Kernel.Scheduler

open Scheduler

variable {τ μ : Type*} {k k' : Scheduler τ μ}

/-- The thread is on the ready queue or running. -/
def ReadyOrRunning (k : Scheduler τ μ) (t : τ) : Prop := k.isQueued t = true ∨ k.current = some t

/-- The running thread is the highest one of those that are ready or running, so that its priority
is determined by which these are. -/
lemma AtTop.prioOf_current_le (htop : k'.AtTop) (hprio : k.prioOf = k'.prioOf)
    (hthreads : ∀ t, k.ReadyOrRunning t → k'.ReadyOrRunning t) :
    k.prioOf k.current ≤ k'.prioOf k'.current := by
  rw [hprio]
  rcases hcur : k.current with _ | t
  · -- The idle thread is below every other one.
    rcases k'.current with _ | t
    · exact le_rfl
    · simp only [prioOf]
      omega
  · rcases hthreads t (.inr hcur) with hqueued | hrunning
    · exact htop t hqueued
    · rw [hrunning]

variable [DecidableEq τ]

/-- A full schedule changes only which of the threads runs; a current thread that is not runnable
is dropped. -/
lemma Wf.readyOrRunning_schedule (h : k.Wf) (roundRobin : Bool) (t : τ) :
    (k.schedule roundRobin).ReadyOrRunning t ↔
      k.isQueued t = true ∨ (k.current = some t ∧ k.runnable (some t) = true) := by
  unfold Scheduler.schedule
  dsimp only
  set k₀ : Scheduler τ μ := { k with invariantsViolated := false }
  have h₀ : k₀.Wf := { h with }
  change _ ↔ k₀.isQueued t = true ∨ (k₀.current = some t ∧ k₀.runnable (some t) = true)
  split_ifs with hkeep
  · refine or_congr_right ⟨fun hcur => ⟨hcur, ?_⟩, And.left⟩
    rw [← hcur]
    exact hkeep.1
  · rcases h₀.highest_cases with ⟨hnone, hneg, hempty⟩ | ⟨next, hnext, hqueued, -⟩
    · -- Nothing is queued and the current thread does not go on, so only the idle thread is left.
      have hdrop : ¬(k₀.runnable k₀.current = true ∧
          k₀.getHighestPriority < k₀.prioOf k₀.current) :=
        fun hkeep' => hkeep ⟨hkeep'.1, .inl hkeep'.2⟩
      rw [hnone]
      dsimp only
      rw [releaseAndRescheduleTcb_idle hneg hdrop]
      refine iff_of_false ?_ ?_
      · rintro (hqueued | hcur)
        · have hqueued' : k₀.isQueued t = true := hqueued
          exact absurd hqueued' (by simp [hempty t])
        · have hcur' : none = some t := hcur
          exact absurd hcur' (by simp)
      · rintro (hqueued | ⟨hcur, hrun⟩)
        · exact absurd hqueued (by simp [hempty t])
        · refine hdrop ⟨hcur ▸ hrun, ?_⟩
          rw [hneg, hcur, prioOf]
          omega
    · rw [hnext]
      dsimp only
      obtain ⟨-, hiff⟩ := (h₀.dequeue hqueued).handOver (k₀.isQueued_dequeue_self next)
        (h₀.notCurrent hqueued) (some next)
      have hrest := h₀.isQueued_dequeue hqueued t
      constructor
      · rintro (ht | hcur)
        · rcases (hiff t).1 ht with ⟨hcur, hrun⟩ | ht
          · exact .inr ⟨hcur.symm, hrun⟩
          · exact .inl (hrest.1 ht).2
        · obtain rfl : next = t := Option.some.inj hcur
          exact .inl hqueued
      · rintro (ht | ⟨hcur, hrun⟩)
        · by_cases htnext : t = next
          · exact .inr (by rw [htnext]; rfl)
          · exact .inl ((hiff t).2 (.inr (hrest.2 ⟨htnext, ht⟩)))
        · exact .inl ((hiff t).2 (.inl ⟨hcur.symm, hrun⟩))

variable {t : τ}

@[simp] lemma releaseAndRescheduleTcb_invariantsViolated (k : Scheduler τ μ) (o : Option τ) :
    (k.releaseAndRescheduleTcb o).invariantsViolated = k.invariantsViolated := by
  rcases o with _ | t
  · rfl
  · rw [releaseAndRescheduleTcb]
    split_ifs <;> rfl

lemma schedule_frame (k : Scheduler τ μ) (roundRobin : Bool) :
    (k.schedule roundRobin).invariantsViolated = false ∧
      (k.schedule roundRobin).prioOf = k.prioOf := by
  unfold schedule
  dsimp only
  split_ifs
  · exact ⟨rfl, rfl⟩
  · rw [switchTo_prioOf, releaseAndRescheduleTcb_prioOf, switchTo]
    dsimp only
    rw [releaseAndRescheduleTcb_invariantsViolated]
    split <;> exact ⟨rfl, rfl⟩

lemma fastScheduleThread_frame (k : Scheduler τ μ) (t : τ) (canScheduleCurrent : Bool) :
    (k.fastScheduleThread t canScheduleCurrent).invariantsViolated = false ∧
      (k.fastScheduleThread t canScheduleCurrent).prioOf = k.prioOf := by
  obtain ⟨hfull, hprio⟩ := schedule_frame (k.releaseAndRescheduleTcb (some t)) false
  rw [releaseAndRescheduleTcb_prioOf] at hprio
  unfold fastScheduleThread
  by_cases hflag : k.invariantsViolated = true
  · rw [shouldScheduleThread, if_pos hflag]
    exact ⟨hfull, hprio⟩
  · have hclear (o : Option τ) : (k.releaseAndRescheduleTcb o).invariantsViolated = false :=
      (releaseAndRescheduleTcb_invariantsViolated k o).trans (Bool.eq_false_of_not_eq_true hflag)
    cases k.shouldScheduleThread t canScheduleCurrent with
    | runNew => exact ⟨hclear _, releaseAndRescheduleTcb_prioOf k _⟩
    | runCurrent => exact ⟨hclear _, releaseAndRescheduleTcb_prioOf k _⟩
    | fullSchedule => exact ⟨hfull, hprio⟩

/-- The two ways lead to running threads of one priority, and to the same threads that are ready or
running. -/
structure Agrees (fast full : Scheduler τ μ) : Prop where
  prio : fast.prioOf fast.current = full.prioOf full.current
  threads : ∀ t, fast.ReadyOrRunning t ↔ full.ReadyOrRunning t

section

variable (hqueued : k.isQueued t = false) (hrun : k.runnable (some t) = true)
  (hne : some t ≠ k.current)
include hqueued hrun hne

lemma Wf.readyOrRunning_full (h : k.Wf) (roundRobin : Bool) (u : τ) :
    ((k.enqueue t).schedule roundRobin).ReadyOrRunning u ↔
      u = t ∨ k.isQueued u = true ∨ (k.current = some u ∧ k.runnable (some u) = true) := by
  rw [(h.enqueue hqueued hrun hne).readyOrRunning_schedule, h.isQueued_enqueue hqueued, or_assoc]
  rfl

lemma Wf.readyOrRunning_fast (h : k.Wf) {canScheduleCurrent : Bool}
    (hcan : canScheduleCurrent = true → k.runnable k.current = true) (u : τ) :
    (k.fastScheduleThread t canScheduleCurrent).ReadyOrRunning u ↔
      u = t ∨ k.isQueued u = true ∨ (k.current = some u ∧ k.runnable (some u) = true) := by
  have hrelease : k.releaseAndRescheduleTcb (some t) = k.enqueue t := if_pos hrun
  unfold fastScheduleThread
  cases hdecision : k.shouldScheduleThread t canScheduleCurrent with
  | runNew =>
    dsimp only
    obtain ⟨-, hiff⟩ := h.handOver hqueued hne (some t)
    constructor
    · rintro (hu | hcur)
      · rcases (hiff u).1 hu with ⟨hcur, hu⟩ | hu
        · exact .inr (.inr ⟨hcur.symm, hu⟩)
        · exact .inr (.inl hu)
      · exact .inl (Option.some.inj hcur).symm
    · rintro (rfl | hu | ⟨hcur, hu⟩)
      · exact .inr rfl
      · exact .inl ((hiff u).2 (.inr hu))
      · exact .inl ((hiff u).2 (.inl ⟨hcur.symm, hu⟩))
  | runCurrent =>
    dsimp only
    -- The current thread may go on only if it is schedulable.
    have hcan' : canScheduleCurrent = true := by
      unfold shouldScheduleThread at hdecision
      split_ifs at hdecision with hflag hkeep
      exact hkeep.1
    rw [hrelease]
    constructor
    · rintro (hu | hcur)
      · rcases (h.isQueued_enqueue hqueued u).1 hu with rfl | hu
        · exact .inl rfl
        · exact .inr (.inl hu)
      · have hcur' : k.current = some u := hcur
        exact .inr (.inr ⟨hcur', hcur' ▸ hcan hcan'⟩)
    · rintro (rfl | hu | ⟨hcur, -⟩)
      · exact .inl ((h.isQueued_enqueue hqueued u).2 (.inl rfl))
      · exact .inl ((h.isQueued_enqueue hqueued u).2 (.inr hu))
      · exact .inr hcur
  | fullSchedule =>
    dsimp only
    rw [hrelease]
    exact h.readyOrRunning_full hqueued hrun hne false u

/-- The fast path, told the truth about the current thread, agrees with the slow way. -/
lemma Ok.fastScheduleThread_agrees (h : k.Ok) {canScheduleCurrent : Bool}
    (hcan : canScheduleCurrent = k.runnable k.current) (roundRobin : Bool) :
    Agrees (k.fastScheduleThread t canScheduleCurrent) ((k.enqueue t).schedule roundRobin) := by
  set fast := k.fastScheduleThread t canScheduleCurrent
  set full := (k.enqueue t).schedule roundRobin
  have hthreads : ∀ u, fast.ReadyOrRunning u ↔ full.ReadyOrRunning u := fun u =>
    (h.wf.readyOrRunning_fast hqueued hrun hne (fun e => hcan ▸ e) u).trans
      (h.wf.readyOrRunning_full hqueued hrun hne roundRobin u).symm
  obtain ⟨hclear, hfastPrio⟩ := fastScheduleThread_frame k t canScheduleCurrent
  have hfast : fast.AtTop :=
    (h.fastScheduleThread hqueued hrun hne fun e => hcan ▸ e).atTop hclear
  have hfull : full.AtTop := ((h.wf.enqueue hqueued hrun hne).schedule roundRobin).2
  have hprio : fast.prioOf = full.prioOf := by
    rw [hfastPrio, (schedule_frame _ roundRobin).2, enqueue_prioOf]
  refine ⟨le_antisymm ?_ ?_, hthreads⟩
  · exact hfull.prioOf_current_le hprio fun u => (hthreads u).1
  · exact hfast.prioOf_current_le hprio.symm fun u => (hthreads u).2

end

/-! ## The operations that activate a thread -/

/-- The operations that end an entry to the kernel by activating a thread. -/
inductive Activation (τ : Type*)
  | activateSched (t : τ) (state : ThreadState)
  | deactivateActivateSched (deactivated activated : τ) (inactiveState activeState : ThreadState)

namespace Activation

/-- The operation as one that dispatches. -/
def dispatch : Activation τ → Dispatch τ
  | activateSched t state => .activateSched t state
  | deactivateActivateSched deactivated activated inactiveState activeState =>
    .deactivateActivateSched deactivated activated inactiveState activeState

/-- The thread that becomes runnable. -/
def activated : Activation τ → τ
  | activateSched t _ => t
  | deactivateActivateSched _ activated _ _ => activated

/-- What the operation does before it decides which thread is to run. -/
def prepare (k : Scheduler τ μ) : Activation τ → Scheduler τ μ
  | activateSched t state => k.setState t state
  | deactivateActivateSched deactivated activated inactiveState activeState =>
    k.swapStates deactivated activated inactiveState activeState

/-- The slow way: the activated thread goes on the ready queue, and a full schedule decides. -/
def full (k : Scheduler τ μ) (roundRobin : Bool) (a : Activation τ) : Scheduler τ μ :=
  ((a.prepare k).enqueue a.activated).schedule roundRobin

end Activation

/-- For every state in which the ready queue is in order and the current thread is the highest one
unless the flag is set, an operation that activates a thread agrees with the slow way. -/
theorem fast_agrees_with_full (h : k.Ok) (a : Activation τ) (roundRobin : Bool)
    (hstep : k.dispatchStep a.dispatch = some k') : Agrees k' (a.full k roundRobin) := by
  cases a with
  | activateSched t state =>
    obtain ⟨⟨hstate, ht, hne, hcur⟩, ⟨⟩⟩ := Option.ite_none_right_eq_some.1 hstep
    have hrun : (k.setState t state).runnable (some t) = true :=
      (k.runnable_setState_self t state).trans hstate
    have hcur' : (k.setState t state).runnable k.current = true := by
      rcases hc : k.current with _ | c
      · rfl
      · have hct : c ≠ t := fun e => hne (e ▸ hc.symm)
        rw [hc] at hcur
        simpa [runnable, setState, hct] using hcur
    exact (h.setState (.inl hstate)).fastScheduleThread_agrees (k := k.setState t state)
      (h.wf.not_queued ht) hrun hne hcur'.symm roundRobin
  | deactivateActivateSched deactivated activated inactiveState activeState =>
    obtain ⟨⟨hdrun, harun, hinactive, hactive, hacur, hqueued, hcur⟩, ⟨⟩⟩ :=
      Option.ite_none_right_eq_some.1 hstep
    obtain ⟨hok, haq, hrun⟩ := h.swapStates inactiveState harun hactive hqueued
    rw [deactivateActivateSched_eq]
    refine hok.fastScheduleThread_agrees haq hrun ?_ ?_ roundRobin
    · rw [swapStates_current]
      exact hacur
    rw [swapStates_current]
    by_cases hself : some deactivated = k.current
    · rw [swapStates_runnable_current hinactive hacur hself]
      exact decide_eq_false (not_not.2 hself)
    · rw [swapStates_runnable_other hacur hself, hcur hself]
      exact decide_eq_true hself

/-- Three threads are started, of which the highest one hands over to the middle one: the fast path
looks at the ready queue, where only the lowest thread is, and runs the activated thread. -/
theorem fast_agrees_with_full_handover : ∃ k k' : Scheduler (Fin 3) Unit,
      TransitionSystem.run entryStep (init (fun t => if t = 0 then 10 else if t = 1 then 50 else 100)
          fun _ => 5) [⟨[.activate 0 .running, .activate 2 .running], .schedule false⟩] = some k ∧
      k.dispatchStep (.deactivateActivateSched 2 1 .waitingForever .running) = some k' ∧
      k'.current = some 1 ∧
      Agrees k' ((Activation.deactivateActivateSched 2 1 .waitingForever .running).full k false) := by
  simp only [exists_and_left]
  refine TransitionSystem.exists_run (Q := fun k =>
    (k.dispatchStep (.deactivateActivateSched 2 1 .waitingForever .running)).map current =
      some (some 1)) (by decide +kernel) fun k hrun hstep => ?_
  obtain ⟨k', hstep, hcur⟩ := Option.map_eq_some_iff.1 hstep
  have hok : k.Ok := ok_of_run (by decide +kernel) hrun
  exact ⟨k', hstep, hcur, fast_agrees_with_full hok
    (.deactivateActivateSched 2 1 .waitingForever .running) false hstep⟩

end Okl4Kernel.Scheduler
