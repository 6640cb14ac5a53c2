import Okl4Kernel.ReadyQueue
import Okl4Kernel.Scheduler

/-!
# The running thread is above the ready queue

As long as the flag `scheduling_invariants_violated` is clear, no thread on the ready queue should
be above the running one when the kernel returns to user mode. A full `schedule` establishes this
whatever the state is (`Wf.schedule`), and the fast paths keep it (`Ok.fastScheduleThread`).

Two things break it. A donation switches to a thread of lower priority without raising the flag,
although `context_switch` does so for the same reason; and an operation that does not dispatch may
put a thread on the ready queue that is above the running one, when the entry then ends on a fast
path. Without these (`Entry.keepsOrder`) the order holds in every state that the kernel returns in.
-/

namespace Okl4Kernel

open Function Option TransitionSystem Bool Scheduler

namespace Scheduler

variable {τ μ : Type*} {k : Scheduler τ μ}
variable {t : τ}

/-- The ready queue is well formed and holds runnable threads, and not the current one. -/
structure Wf (k : Scheduler τ μ) : Prop where
  ready : k.sched.ReadyOk
  runnable : ∀ {t}, k.isQueued t = true → k.runnable (some t) = true
  notCurrent : ∀ {t}, k.isQueued t = true → some t ≠ k.current

/-- No thread on the ready queue is above the current one. -/
def AtTop (k : Scheduler τ μ) : Prop :=
  ∀ t, k.isQueued t = true → k.prioOf (some t) ≤ k.prioOf k.current

/-- The scheduler is well formed, and the current thread is the highest one unless the flag says
that it need not be. -/
structure Ok (k : Scheduler τ μ) : Prop where
  wf : k.Wf
  atTop : k.invariantsViolated = false → k.AtTop

lemma init_wf (basePrio : τ → Prio) (timesliceLength : τ → ℕ) :
    (init basePrio timesliceLength : Scheduler τ μ).Wf where
  ready := ⟨fun _ => [], PrioQueue.init_represents, fun h => absurd h List.not_mem_nil⟩
  runnable h := absurd h (by simp [isQueued, init, Sched.init, PrioQueue.init, PrioQueue.isQueued,
    LinkedRing.Links.isQueued, LinkedRing.Links.empty])
  notCurrent := by simp [init]

/-! ## The highest priority of the ready queue -/

lemma Wf.le_getHighestPriority (h : k.Wf) (ht : k.isQueued t = true) :
    k.prioOf (some t) ≤ k.getHighestPriority := by
  obtain ⟨rings, hready⟩ := h.ready
  obtain ⟨p, hp, -, hupper⟩ := hready.represents.getHighestPriority_isGreatest ht
  have hmem := hready.mem_ring ht
  have hle := hupper (List.ne_nil_of_mem hmem)
  rw [getHighestPriority, hp, prioOf]
  exact_mod_cast hle

/-- The first thread of the highest priority, if any thread is queued. -/
lemma Wf.highest_cases (h : k.Wf) :
    (k.highest = none ∧ k.getHighestPriority = -1 ∧ ∀ t, k.isQueued t = false) ∨
      ∃ t, k.highest = some t ∧ k.isQueued t = true ∧
        k.prioOf (some t) = k.getHighestPriority := by
  obtain ⟨rings, hready⟩ := h.ready
  have hrep := hready.represents
  by_cases hnone : ∀ t, k.isQueued t = false
  · have hneg : k.getHighestPriority = -1 := hrep.getHighestPriority_eq_neg_one.2 hnone
    exact .inl ⟨by rw [highest, hneg]; rfl, hneg, hnone⟩
  right
  push Not at hnone
  obtain ⟨u, hu⟩ := hnone
  obtain ⟨p, hp, hmem, -⟩ :=
    hrep.getHighestPriority_isGreatest (eq_true_of_not_eq_false hu)
  have hp' : k.getHighestPriority = (p : ℕ) := hp
  have hof : Fin.ofNat (maxPrio + 1) (p : ℕ) = p := Fin.ofNat_val_eq_self p
  obtain ⟨t, ts, hring⟩ : ∃ t ts, rings p = t :: ts := List.exists_cons_of_ne_nil hmem
  have ht : t ∈ rings p := by rw [hring]; exact List.mem_cons_self
  refine ⟨t, ?_, (hready.mem_iff.1 ht).1, ?_⟩
  · rw [highest, hp', if_pos (Int.natCast_nonneg _), Int.toNat_natCast, hof, hrep.head, hring]
    rfl
  · rw [hp', prioOf, hready.prio ht]

/-! ## Single updates -/

@[simp] lemma switchTo_prioOf (k : Scheduler τ μ) (next schedule : Option τ) :
    (k.switchTo next schedule).prioOf = k.prioOf := rfl

lemma Wf.switchTo (h : k.Wf) {next : Option τ} (hnext : ∀ t, next = some t → k.isQueued t = false)
    (schedule : Option τ) : (k.switchTo next schedule).Wf where
  __ := h
  notCurrent ht e := by
    have := hnext _ e.symm
    exact absurd ht (by simpa [Scheduler.switchTo, isQueued] using this)

lemma Wf.isQueued_current (h : k.Wf) {c : τ} (hc : k.current = some c) : k.isQueued c = false :=
  eq_false_of_not_eq_true fun hq => h.notCurrent hq hc.symm

lemma Wf.not_queued (h : k.Wf) (ht : k.runnable (some t) = false) : k.isQueued t = false :=
  eq_false_of_not_eq_true fun hq => by simp [h.runnable hq] at ht

variable [DecidableEq τ]
variable {activeState inactiveState state : ThreadState} {activated deactivated dest : τ}

@[simp] lemma setState_prioOf (k : Scheduler τ μ) (t : τ) (state : ThreadState) :
    (k.setState t state).prioOf = k.prioOf := rfl

@[simp] lemma enqueue_prioOf (k : Scheduler τ μ) (t : τ) : (k.enqueue t).prioOf = k.prioOf := rfl

@[simp] lemma dequeue_prioOf (k : Scheduler τ μ) (t : τ) : (k.dequeue t).prioOf = k.prioOf := rfl

@[simp] lemma releaseAndRescheduleTcb_prioOf (k : Scheduler τ μ) (o : Option τ) :
    (k.releaseAndRescheduleTcb o).prioOf = k.prioOf := by
  rcases o with _ | t
  · rfl
  · rw [releaseAndRescheduleTcb]
    split_ifs <;> rfl

lemma Wf.isQueued_enqueue (h : k.Wf) (hqueued : k.isQueued t = false) (u : τ) :
    (k.enqueue t).isQueued u = true ↔ u = t ∨ k.isQueued u = true :=
  h.ready.isQueued_enqueue hqueued u

lemma Wf.isQueued_dequeue (h : k.Wf) (hqueued : k.isQueued t = true) (u : τ) :
    (k.dequeue t).isQueued u = true ↔ u ≠ t ∧ k.isQueued u = true :=
  h.ready.isQueued_dequeue hqueued u

lemma isQueued_dequeue_self (k : Scheduler τ μ) (t : τ) : (k.dequeue t).isQueued t = false :=
  k.sched.isQueued_dequeue_self t

/-- A runnable thread other than the current one may be enqueued. -/
lemma Wf.enqueue (h : k.Wf) (hqueued : k.isQueued t = false) (hrun : k.runnable (some t) = true)
    (hcur : some t ≠ k.current) : (k.enqueue t).Wf := by
  have hiff := h.isQueued_enqueue hqueued
  refine ⟨?_, fun hu => ?_, fun hu => ?_⟩
  · obtain ⟨rings, hready⟩ := h.ready
    exact ⟨_, hready.enqueue hqueued⟩
  · rcases (hiff _).1 hu with rfl | hu
    · exact hrun
    · exact h.runnable hu
  · rcases (hiff _).1 hu with rfl | hu
    · exact hcur
    · exact h.notCurrent hu

lemma Wf.dequeue (h : k.Wf) (hqueued : k.isQueued t = true) : (k.dequeue t).Wf := by
  have hiff := h.isQueued_dequeue hqueued
  refine ⟨?_, fun hu => h.runnable ((hiff _).1 hu).2, fun hu => h.notCurrent ((hiff _).1 hu).2⟩
  obtain ⟨rings, hready⟩ := h.ready
  exact ⟨_, hready.dequeue hqueued⟩

/-- The state of a thread may change to a runnable one, and that of a thread that is not queued to
any other. -/
lemma Wf.setState (h : k.Wf) (hstate : state.isRunnable = true ∨ k.isQueued t = false) :
    (k.setState t state).Wf where
  __ := h
  runnable {u} hu := by
    by_cases hut : u = t
    · subst hut
      rcases hstate with hstate | hstate
      · simpa [Scheduler.runnable, Scheduler.setState] using hstate
      · exact absurd hu (by simpa [Scheduler.setState, isQueued] using hstate)
    · have := h.runnable (t := u) hu
      simpa [Scheduler.runnable, Scheduler.setState, hut] using this

lemma Ok.dequeue (h : k.Ok) (hqueued : k.isQueued t = true) : (k.dequeue t).Ok where
  wf := h.wf.dequeue hqueued
  atTop hflag u hu :=
    h.atTop hflag u ((h.wf.isQueued_dequeue hqueued u).1 hu).2

/-- Enqueueing a thread that is not above the current one does not break the order. -/
lemma Ok.enqueue (h : k.Ok) (hqueued : k.isQueued t = false) (hrun : k.runnable (some t) = true)
    (hcur : some t ≠ k.current)
    (hle : k.invariantsViolated = false → k.prioOf (some t) ≤ k.prioOf k.current) :
    (k.enqueue t).Ok where
  wf := h.wf.enqueue hqueued hrun hcur
  atTop hflag u hu := by
    rcases (h.wf.isQueued_enqueue hqueued u).1 hu with rfl | hu
    · exact hle hflag
    · exact h.atTop hflag u hu

lemma Ok.setState (h : k.Ok) (hstate : state.isRunnable = true ∨ k.isQueued t = false) :
    (k.setState t state).Ok :=
  ⟨h.wf.setState hstate, h.atTop⟩

/-- A runnable thread other than the current one goes on the ready queue. -/
lemma Wf.releaseAndRescheduleTcb (h : k.Wf) (hqueued : k.isQueued t = false)
    (hcur : some t ≠ k.current) : (k.releaseAndRescheduleTcb (some t)).Wf := by
  rw [Scheduler.releaseAndRescheduleTcb]
  split_ifs with hrun
  · exact h.enqueue hqueued hrun hcur
  · exact h

/-! ## Dispatching -/

/-- The current thread hands over to another one and goes on the ready queue if it is runnable. -/
lemma Wf.handOver (h : k.Wf) (hdest : k.isQueued dest = false) (hne : some dest ≠ k.current)
    (schedule : Option τ) :
    ((k.releaseAndRescheduleTcb k.current).switchTo (some dest) schedule).Wf ∧
      ∀ u, ((k.releaseAndRescheduleTcb k.current).switchTo (some dest) schedule).isQueued u = true ↔
        (some u = k.current ∧ k.runnable (some u) = true) ∨ k.isQueued u = true := by
  have hswitch : (k.switchTo (some dest) schedule).Wf :=
    h.switchTo (fun t e => Option.some.inj e ▸ hdest) schedule
  rcases hcur : k.current with _ | c
  · exact ⟨hswitch, fun u => by simp [Scheduler.releaseAndRescheduleTcb, Scheduler.switchTo,
      isQueued]⟩
  have hc := h.isQueued_current hcur
  rw [Scheduler.releaseAndRescheduleTcb]
  split_ifs with hrun
  · -- Enqueueing the thread and switching to the other one commute.
    have hcdest : some c ≠ some dest := fun e => hne (e ▸ hcur.symm)
    refine ⟨hswitch.enqueue hc hrun hcdest, fun u => ?_⟩
    refine (hswitch.isQueued_enqueue hc u).trans (or_congr_left ?_)
    constructor
    · rintro rfl
      exact ⟨rfl, hrun⟩
    · rintro ⟨e, -⟩
      exact Option.some.inj e
  · refine ⟨hswitch, fun u => ⟨.inr, ?_⟩⟩
    rintro (⟨e, hu⟩ | hu)
    · exact absurd (Option.some.inj e ▸ hu) hrun
    · exact hu

/-- If nothing is queued and the current thread is not kept, there is no thread to go on the ready
queue: the current one is the idle thread or is not runnable. -/
lemma releaseAndRescheduleTcb_idle (hneg : k.getHighestPriority = -1)
    (hkeep : ¬(k.runnable k.current = true ∧ k.getHighestPriority < k.prioOf k.current)) :
    k.releaseAndRescheduleTcb k.current = k := by
  rcases hcur : k.current with _ | c
  · rfl
  · refine if_neg fun hrun => hkeep ⟨hcur ▸ hrun, ?_⟩
    rw [hneg, hcur, prioOf]
    omega

/-- A full schedule puts a highest thread on the processor, whatever the state was. -/
lemma Wf.schedule (h : k.Wf) (roundRobin : Bool) :
    (k.schedule roundRobin).Wf ∧ (k.schedule roundRobin).AtTop := by
  unfold Scheduler.schedule
  dsimp only
  set k₀ : Scheduler τ μ := { k with invariantsViolated := false }
  have h₀ : k₀.Wf := { h with }
  split_ifs with hkeep
  · refine ⟨h₀, fun t ht => ?_⟩
    have hle := h₀.le_getHighestPriority ht
    rcases hkeep.2 with hlt | ⟨-, heq⟩
    · exact hle.trans hlt.le
    · exact heq ▸ hle
  · rcases h₀.highest_cases with ⟨hnone, hneg, hempty⟩ | ⟨next, hnext, hqueued, hprio⟩
    · -- Nothing is queued, so the current thread is the idle thread or cannot go on.
      rw [hnone]
      rw [releaseAndRescheduleTcb_idle hneg fun hkeep' => hkeep ⟨hkeep'.1, .inl hkeep'.2⟩]
      refine ⟨h₀.switchTo (by simp) none, fun t ht => ?_⟩
      exact absurd ht (by simpa [Scheduler.switchTo, isQueued] using hempty t)
    · rw [hnext]
      obtain ⟨hwf, hiff⟩ := (h₀.dequeue hqueued).handOver (k₀.isQueued_dequeue_self next)
        (h₀.notCurrent hqueued) (some next)
      refine ⟨hwf, fun t ht => ?_⟩
      rw [switchTo_prioOf, releaseAndRescheduleTcb_prioOf, dequeue_prioOf]
      change k₀.prioOf (some t) ≤ k₀.prioOf (some next)
      rw [hprio]
      rcases (hiff t).1 ht with ⟨hcur, hrun⟩ | ht
      · -- The old current thread is not above the ready queue, or it would have been kept.
        have hcur' : k₀.current = some t := hcur.symm
        by_contra hlt
        exact hkeep ⟨hcur' ▸ hrun, .inl (hcur' ▸ not_le.1 hlt)⟩
      · exact h₀.le_getHighestPriority ((h₀.isQueued_dequeue hqueued t).1 ht).2

lemma Wf.schedule_ok (h : k.Wf) (roundRobin : Bool) : (k.schedule roundRobin).Ok :=
  ⟨(h.schedule roundRobin).1, fun _ => (h.schedule roundRobin).2⟩

/-- The fast path without a new thread. -/
lemma Ok.fastSchedule (h : k.Ok) (canScheduleCurrent : Bool) :
    (k.fastSchedule canScheduleCurrent).Ok := by
  unfold Scheduler.fastSchedule
  split_ifs
  · exact h
  · exact h.wf.schedule_ok false

/-- The fast path with a thread that has become runnable: it takes the processor, or the current
thread keeps it, or a full schedule decides. -/
lemma Ok.fastScheduleThread (h : k.Ok) {canScheduleCurrent : Bool} (hqueued : k.isQueued t = false)
    (hrun : k.runnable (some t) = true) (hne : some t ≠ k.current)
    (hcur : canScheduleCurrent = false → k.runnable k.current = false) :
    (k.fastScheduleThread t canScheduleCurrent).Ok := by
  have hrelease : k.releaseAndRescheduleTcb (some t) = k.enqueue t := if_pos hrun
  have hfull : ((k.releaseAndRescheduleTcb (some t)).schedule false).Ok :=
    (h.wf.releaseAndRescheduleTcb hqueued hne).schedule_ok false
  obtain ⟨hwf, hiff⟩ := h.wf.handOver hqueued hne (some t)
  -- The new thread may run if no queued thread is above it, and the old one only if it stops.
  have hnew : (∀ u, k.isQueued u = true → k.prioOf (some u) ≤ k.prioOf (some t)) →
      (k.runnable k.current = true → k.prioOf k.current ≤ k.prioOf (some t)) →
      ((k.releaseAndRescheduleTcb k.current).switchTo (some t) (some t)).AtTop := by
    intro hqueue hold u hu
    rw [switchTo_prioOf, releaseAndRescheduleTcb_prioOf]
    change k.prioOf (some u) ≤ k.prioOf (some t)
    rcases (hiff u).1 hu with ⟨hc, hu⟩ | hu
    · rw [hc] at hu ⊢
      exact hold hu
    · exact hqueue u hu
  unfold Scheduler.fastScheduleThread Scheduler.shouldScheduleThread
  by_cases hflag : k.invariantsViolated = true
  · rw [if_pos hflag]
    exact hfull
  have htop : k.AtTop := h.atTop (by simpa using hflag)
  split_ifs with hkeep hle hhigh
  · rw [hrelease]
    exact h.enqueue hqueued hrun hne fun _ => hkeep.2
  · exact ⟨hwf, fun _ => hnew (fun u hu => (htop u hu).trans hle) fun _ => hle⟩
  · refine ⟨hwf, fun _ => hnew (fun u hu => (h.wf.le_getHighestPriority hu).trans hhigh) ?_⟩
    intro hrunning
    have hcan : canScheduleCurrent = false := by
      refine eq_false_of_not_eq_true fun hcan => hkeep ⟨hcan, ?_⟩
      exact (not_le.1 hle).le
    rw [hcur hcan] at hrunning
    exact absurd hrunning (by simp)
  · exact hfull

/-! ## Operations -/

lemma Wf.endOfTimeslice (h : k.Wf) (o : Option τ) : (k.endOfTimeslice o).Wf := by
  rcases o with _ | t
  · exact h
  have hring : (if some t ≠ k.current ∧ k.isQueued t then (k.dequeue t).enqueue t else k).Wf := by
    split_ifs with hmove
    · exact (h.dequeue hmove.2).enqueue (k.isQueued_dequeue_self t) (h.runnable hmove.2) hmove.1
    · exact h
  exact { hring with }

lemma Wf.yield_ok (h : k.Wf) : k.yield.Ok := (h.endOfTimeslice k.activeSchedule).schedule_ok true

lemma runnable_setState_self (k : Scheduler τ μ) (t : τ) (state : ThreadState) :
    (k.setState t state).runnable (some t) = state.isRunnable := by
  simp [runnable, setState]

/-- Activating a thread that is not above the current one keeps the order. -/
lemma Wf.activate (h : k.Wf) (hstate : state.isRunnable = true) (ht : k.runnable (some t) = false)
    (hne : some t ≠ k.current) : (k.activate t state).Wf ∧
      (k.Ok → k.prioOf (some t) ≤ k.prioOf k.current → (k.activate t state).Ok) := by
  have hrun := (k.runnable_setState_self t state).trans hstate
  rw [Scheduler.activate, Scheduler.releaseAndRescheduleTcb, if_pos hrun]
  exact ⟨(h.setState (.inl hstate)).enqueue (h.not_queued ht) hrun hne, fun hok hle =>
    (hok.setState (.inl hstate)).enqueue (h.not_queued ht) hrun hne fun _ => hle⟩

lemma Wf.stop (h : k.Wf) (t : τ) : ((k.setState t state).dequeueIfQueued t).Wf ∧
    (k.Ok → ((k.setState t state).dequeueIfQueued t).Ok) := by
  unfold dequeueIfQueued
  split_ifs with hqueued
  · -- Dequeueing the thread and changing its state commute.
    have hnot := k.isQueued_dequeue_self t
    exact ⟨(h.dequeue hqueued).setState (.inr hnot), fun hok =>
      (hok.dequeue hqueued).setState (.inr hnot)⟩
  · have hnot := eq_false_of_not_eq_true hqueued
    exact ⟨h.setState (.inr hnot), fun hok => hok.setState (.inr hnot)⟩

lemma Ok.activateSched (h : k.Ok) (hstate : state.isRunnable = true)
    (ht : k.runnable (some t) = false) (hne : some t ≠ k.current) : (k.activateSched t state).Ok :=
  (h.setState (.inl hstate)).fastScheduleThread (h.wf.not_queued ht)
    ((k.runnable_setState_self t state).trans hstate) hne (by simp)

lemma Ok.deactivateSched (h : k.Ok) (t : τ) (state : ThreadState) :
    (k.deactivateSched t state).Ok := by
  unfold Scheduler.deactivateSched
  dsimp only
  split_ifs with hcur
  · exact ((h.wf.stop t).2 h).fastSchedule true
  · have hcur' : k.current = some t := (not_not.1 hcur).symm
    exact (h.setState (.inr (h.wf.isQueued_current hcur'))).fastSchedule false

/-- What `deactivate_activate_sched` does before it decides which thread is to run. -/
def swapStates (k : Scheduler τ μ) (deactivated activated : τ)
    (inactiveState activeState : ThreadState) : Scheduler τ μ :=
  ((if some deactivated ≠ k.current then k.dequeue deactivated else k).setState deactivated
    inactiveState).setState activated activeState

/-- `deactivate_activate_sched` changes the states and then decides on the fast path. -/
lemma deactivateActivateSched_eq :
    k.deactivateActivateSched deactivated activated inactiveState activeState =
      (k.swapStates deactivated activated inactiveState activeState).fastScheduleThread activated
        (decide (some deactivated ≠ k.current)) := by
  unfold deactivateActivateSched swapStates
  simp only [decide_eq_true_eq]

lemma swapStates_current :
    (k.swapStates deactivated activated inactiveState activeState).current = k.current := by
  unfold swapStates
  split_ifs <;> rfl

lemma swapStates_runnable :
    (k.swapStates deactivated activated inactiveState activeState).runnable (some t) =
      if t = activated then activeState.isRunnable
      else if t = deactivated then inactiveState.isRunnable else k.runnable (some t) := by
  unfold swapStates runnable setState
  dsimp only
  by_cases hta : t = activated
  · rw [if_pos hta, hta, update_self]
  · rw [if_neg hta, update_of_ne hta]
    by_cases htd : t = deactivated
    · rw [if_pos htd, htd, update_self]
    · rw [if_neg htd, update_of_ne htd]
      split_ifs <;> rfl

/-- The deactivated thread is off the ready queue, and the activated one is runnable, but not on it
yet. -/
lemma Ok.swapStates (h : k.Ok) (inactiveState : ThreadState)
    (harun : k.runnable (some activated) = false) (hactive : activeState.isRunnable = true)
    (hqueued : some deactivated ≠ k.current → k.isQueued deactivated = true) :
    (k.swapStates deactivated activated inactiveState activeState).Ok ∧
      (k.swapStates deactivated activated inactiveState activeState).isQueued activated = false ∧
      (k.swapStates deactivated activated inactiveState activeState).runnable (some activated) =
        true := by
  have haq : k.isQueued activated = false := h.wf.not_queued harun
  refine and_assoc.1 ⟨?_, by rw [swapStates_runnable, if_pos rfl, hactive]⟩
  unfold Scheduler.swapStates
  by_cases hcur : some deactivated ≠ k.current
  · rw [if_pos hcur]
    have haq' : (k.dequeue deactivated).isQueued activated = false :=
      eq_false_of_not_eq_true fun hq => by
        simp [((h.wf.isQueued_dequeue (hqueued hcur) activated).1 hq).2] at haq
    have hd : ((k.dequeue deactivated).setState deactivated inactiveState).Ok :=
      (h.dequeue (hqueued hcur)).setState (.inr (k.isQueued_dequeue_self deactivated))
    exact ⟨hd.setState (.inl hactive), haq'⟩
  · rw [if_neg hcur]
    have hcur' : k.current = some deactivated := (not_not.1 hcur).symm
    have hd : (k.setState deactivated inactiveState).Ok :=
      h.setState (.inr (h.wf.isQueued_current hcur'))
    exact ⟨hd.setState (.inl hactive), haq⟩

/-- A current thread that is deactivated is not runnable behind the change of the states. -/
lemma swapStates_runnable_current (hinactive : inactiveState.isRunnable = false)
    (hacur : some activated ≠ k.current) (hcur : some deactivated = k.current) :
    (k.swapStates deactivated activated inactiveState activeState).runnable k.current = false := by
  have hne : deactivated ≠ activated := fun e => hacur (e ▸ hcur)
  rw [← hcur, swapStates_runnable, if_neg hne, if_pos rfl]
  exact hinactive

/-- Another current thread is as runnable as before. -/
lemma swapStates_runnable_other (hacur : some activated ≠ k.current)
    (hcur : some deactivated ≠ k.current) :
    (k.swapStates deactivated activated inactiveState activeState).runnable k.current =
      k.runnable k.current := by
  rcases hc : k.current with _ | c
  · rfl
  · have hca : c ≠ activated := fun e => hacur (e ▸ hc.symm)
    have hcd : c ≠ deactivated := fun e => hcur (e ▸ hc.symm)
    rw [swapStates_runnable, if_neg hca, if_neg hcd]

lemma Ok.deactivateActivateSched (h : k.Ok) (harun : k.runnable (some activated) = false)
    (hinactive : inactiveState.isRunnable = false) (hactive : activeState.isRunnable = true)
    (hacur : some activated ≠ k.current)
    (hqueued : some deactivated ≠ k.current → k.isQueued deactivated = true) :
    (k.deactivateActivateSched deactivated activated inactiveState activeState).Ok := by
  obtain ⟨hok, haq, hrun⟩ := h.swapStates inactiveState harun hactive hqueued
  rw [deactivateActivateSched_eq]
  refine hok.fastScheduleThread haq hrun ?_ fun hself => ?_
  · rw [swapStates_current]
    exact hacur
  · rw [swapStates_current]
    exact swapStates_runnable_current hinactive hacur (not_not.1 (of_decide_eq_false hself))

lemma Wf.contextSwitch_ok (h : k.Wf) {current : τ} {currentState destState : ThreadState}
    (hcur : k.current = some current) (hdest : k.runnable (some dest) = false)
    (hne : dest ≠ current) (hstate : destState.isRunnable = true) :
    (k.contextSwitch current dest currentState destState).Ok := by
  have hc : (k.setState current currentState).Wf :=
    h.setState (.inr (h.isQueued_current hcur))
  have hd := hc.setState (t := dest) (.inl hstate)
  set k' : Scheduler τ μ :=
    { (k.setState current currentState).setState dest destState with invariantsViolated := true }
  have h' : k'.Wf := { hd with }
  have hcur' : k'.current = some current := hcur
  have hover := h'.handOver (h.not_queued hdest : k'.isQueued dest = false)
    (fun e => hne (Option.some.inj (e.trans hcur'))) k'.activeSchedule
  rw [hcur'] at hover
  refine ⟨hover.1, fun hflag => absurd hflag ?_⟩
  rw [Scheduler.contextSwitch, Scheduler.releaseAndRescheduleTcb]
  split_ifs <;> simp [Scheduler.switchTo, Scheduler.enqueue]

/-- A donation that does not go to a lower thread keeps the order. -/
lemma Ok.donate (h : k.Ok) {current : τ} (hcur : k.current = some current)
    (hrun : k.runnable (some current) = true)
    (hle : k.invariantsViolated = false → k.prioOf (some current) ≤ k.prioOf (some dest)) :
    (k.donate dest current).Ok := by
  unfold Scheduler.donate
  split_ifs with hfail
  · exact h.wf.yield_ok
  push Not at hfail
  have hqueued : k.isQueued dest = true := eq_true_of_not_eq_false hfail.2
  have hdeq := h.wf.dequeue hqueued
  have hne : some dest ≠ k.current := h.wf.notCurrent hqueued
  obtain ⟨hwf, hiff⟩ := hdeq.handOver (k.isQueued_dequeue_self dest) hne k.activeSchedule
  have hrelease : (k.dequeue dest).releaseAndRescheduleTcb (k.dequeue dest).current =
      (k.dequeue dest).enqueue current := by
    rw [show (k.dequeue dest).current = some current from hcur]
    exact if_pos hrun
  rw [hrelease] at hwf hiff
  refine ⟨hwf, fun hflag u hu => ?_⟩
  change k.prioOf (some u) ≤ k.prioOf (some dest)
  have hcurdest := hle hflag
  rcases (hiff u).1 hu with ⟨hc, -⟩ | hu
  · rw [show some u = some current from hc.trans hcur]
    exact hcurdest
  · have hu' := h.atTop hflag u ((h.wf.isQueued_dequeue hqueued u).1 hu).2
    rw [hcur] at hu'
    exact hu'.trans hcurdest

/-- A timer interrupt that has woken a thread up ends in a full schedule, and any other one keeps the
order. -/
lemma Wf.handleTimerInterrupt_ok (h : k.Wf) {wakeup : Bool} (hor : wakeup = true ∨ k.Ok)
    (timerLength : ℕ) : (k.handleTimerInterrupt wakeup timerLength).Ok := by
  have htime : ∀ f, ({ k with currentTimeslice := f } : Scheduler τ μ).Wf := fun f => { h with }
  have hagain : ∀ f, (({ k with currentTimeslice := f } : Scheduler τ μ).reschedule wakeup).Ok := by
    intro f
    unfold reschedule
    split_ifs with hwakeup
    · exact (htime f).schedule_ok false
    · exact ⟨htime f, (hor.resolve_left hwakeup).atTop⟩
  unfold handleTimerInterrupt
  split
  · dsimp only
    split_ifs with hinfinite hexpired hrenew
    · exact hagain k.currentTimeslice
    · exact ⟨htime _, (hor.resolve_left (by simp [hrenew.2.1])).atTop⟩
    · exact (h.endOfTimeslice _).schedule_ok true
    · exact hagain _
  · exact hagain k.currentTimeslice

end Scheduler

/-! ## Entries -/

/-- The operation does not put a thread on the ready queue that is above the current one, and
changes no priority. -/
def Prep.quiet {τ μ : Type*} (k : Scheduler τ μ) : Prep τ → Bool
  | .activate t _ => k.prioOf (some t) ≤ k.prioOf k.current
  | .deactivate _ _ => true
  | .setPriority _ _ => false

/-- The operation ends in a full schedule, or raises the flag. -/
def Dispatch.reschedules {τ μ : Type*} [DecidableEq τ] (k : Scheduler τ μ) : Dispatch τ → Bool
  | .schedule _ => true
  | .yield => true
  | .contextSwitch _ _ _ => true
  | .deactivateSched t _ => some t = k.current
  | .timerTick wakeup _ => wakeup
  | _ => false

/-- The donation, if it is one, does not go to a thread below the current one. -/
def Dispatch.donatesUp {τ μ : Type*} (k : Scheduler τ μ) : Dispatch τ → Bool
  | .donate dest => k.prioOf k.current ≤ k.prioOf (some dest)
  | _ => true

/-- The entry does not rely on an order that it may have broken: the flag is set already, or the
operations before the dispatch are quiet or followed by a full schedule, and there is no donation
to a lower thread. -/
def Entry.keepsOrder {τ μ : Type*} [DecidableEq τ] (k : Scheduler τ μ) (e : Entry τ) : Bool :=
  k.invariantsViolated ||
    ((e.prep.all (Prep.quiet k) || e.dispatch.reschedules k) && e.dispatch.donatesUp k)

namespace Scheduler

variable {τ μ : Type*} [DecidableEq τ] [DecidableEq μ] [Fintype τ] {k k' : Scheduler τ μ}
variable {op : Prep τ}

lemma Wf.setPriority (h : k.Wf) (t : τ) (prio : Prio) : (k.setPriority t prio).Wf := by
  obtain ⟨hready, hqueued⟩ := Sched.requeued_setPriority k.sched t prio h.ready
  exact ⟨hready, fun {u} hu => h.runnable (t := u) ((hqueued u).symm.trans hu),
    fun {u} hu => h.notCurrent (t := u) ((hqueued u).symm.trans hu)⟩

/-- The operations that do not dispatch keep the scheduler well formed, and leave the current thread
and the flag alone. A quiet one keeps the order and the priorities. -/
lemma Wf.prepStep (h : k.Wf) (hstep : k.prepStep op = some k') :
    (k'.Wf ∧ k'.current = k.current ∧ k'.invariantsViolated = k.invariantsViolated) ∧
      (k.Ok → op.quiet k = true → k'.Ok ∧ k'.prioOf = k.prioOf) := by
  cases op with
  | activate t state =>
    obtain ⟨⟨hstate, ht, hne⟩, ⟨⟩⟩ := ite_none_right_eq_some.1 hstep
    obtain ⟨hwf, hkept⟩ := h.activate hstate ht hne
    refine ⟨⟨hwf, ?_⟩, fun hok hquiet => ⟨hkept hok (of_decide_eq_true hquiet), ?_⟩⟩
    · rw [Scheduler.activate, Scheduler.releaseAndRescheduleTcb]
      split_ifs <;> exact ⟨rfl, rfl⟩
    · rw [Scheduler.activate, releaseAndRescheduleTcb_prioOf, setState_prioOf]
  | deactivate t state =>
    obtain ⟨-, ⟨⟩⟩ := ite_none_right_eq_some.1 hstep
    refine ⟨⟨(h.stop t).1, ?_⟩, fun hok _ => ⟨(h.stop t).2 hok, ?_⟩⟩
    · rw [Scheduler.deactivate, dequeueIfQueued]
      split_ifs <;> exact ⟨rfl, rfl⟩
    · rw [Scheduler.deactivate, dequeueIfQueued]
      split_ifs <;> rfl
  | setPriority t prio =>
    cases hstep
    exact ⟨⟨h.setPriority t prio, rfl, rfl⟩, fun _ hquiet => absurd hquiet (by simp [Prep.quiet])⟩

lemma Wf.prepRun (h : k.Wf) {ops : List (Prep τ)}
    (hrun : ops.foldlM Scheduler.prepStep k = some k') :
    (k'.Wf ∧ k'.current = k.current ∧ k'.invariantsViolated = k.invariantsViolated) ∧
      (k.Ok → ops.all (Prep.quiet k) = true → k'.Ok ∧ k'.prioOf = k.prioOf) := by
  induction ops generalizing k with
  | nil =>
    cases hrun
    exact ⟨⟨h, rfl, rfl⟩, fun hok _ => ⟨hok, rfl⟩⟩
  | cons op ops ih =>
    obtain ⟨k₁, hstep, hrest⟩ := bind_eq_some_iff.1 hrun
    obtain ⟨⟨h₁, hcur, hflag⟩, hquiet₁⟩ := h.prepStep hstep
    obtain ⟨⟨h', hcur', hflag'⟩, hquiet'⟩ := ih h₁ hrest
    refine ⟨⟨h', hcur'.trans hcur, hflag'.trans hflag⟩, fun hok hquiet => ?_⟩
    rw [List.all_cons, and_eq_true] at hquiet
    obtain ⟨hok₁, hprio⟩ := hquiet₁ hok hquiet.1
    -- The operations that are left are as quiet in the new state.
    have hsame : Prep.quiet k₁ = Prep.quiet k := by
      funext op'
      cases op' <;> simp [Prep.quiet, hprio, hcur]
    obtain ⟨hok', hprio'⟩ := hquiet' hok₁ (hsame ▸ hquiet.2)
    exact ⟨hok', hprio'.trans hprio⟩

omit [DecidableEq μ] [Fintype τ] in
/-- A full schedule, or an operation that raises the flag, may follow any operations. -/
lemma Wf.dispatchStep (h : k.Wf) {d : Dispatch τ} (hres : d.reschedules k = true)
    (hstep : k.dispatchStep d = some k') : k'.Ok := by
  cases d with
  | schedule roundRobin =>
    cases hstep
    exact h.schedule_ok roundRobin
  | yield =>
    cases hstep
    exact h.yield_ok
  | contextSwitch dest currentState destState =>
    rcases hcur : k.current with _ | current
    · simp [Scheduler.dispatchStep, hcur] at hstep
    rw [Scheduler.dispatchStep, hcur] at hstep
    obtain ⟨⟨hstate, hpolling, hne⟩, ⟨⟩⟩ := ite_none_right_eq_some.1 hstep
    refine h.contextSwitch_ok hcur ?_ hne hstate
    rw [Scheduler.runnable, hpolling]
    rfl
  | deactivateSched t state =>
    obtain ⟨-, ⟨⟩⟩ := ite_none_right_eq_some.1 hstep
    have hcur : k.current = some t := (of_decide_eq_true hres).symm
    have hself : ¬some t ≠ (k.setState t state).current := not_not.2 hcur.symm
    rw [Scheduler.deactivateSched, if_neg hself, Scheduler.fastSchedule, if_neg (by simp)]
    exact (h.setState (.inr (h.isQueued_current hcur))).schedule_ok false
  | timerTick wakeup timerLength =>
    cases hstep
    exact h.handleTimerInterrupt_ok (.inl hres) timerLength
  | activateSched | deactivateActivateSched | donate | resume =>
    exact absurd hres (by simp [Dispatch.reschedules])

omit [DecidableEq μ] [Fintype τ] in
/-- Every operation that dispatches keeps the order, if it is not a donation to a lower thread. -/
lemma Ok.dispatchStep (h : k.Ok) {d : Dispatch τ}
    (hup : k.invariantsViolated = false → d.donatesUp k = true)
    (hstep : k.dispatchStep d = some k') : k'.Ok := by
  cases d with
  | schedule | yield | contextSwitch => exact h.wf.dispatchStep rfl hstep
  | activateSched t state =>
    obtain ⟨⟨hstate, ht, hne, -⟩, ⟨⟩⟩ := ite_none_right_eq_some.1 hstep
    exact h.activateSched hstate ht hne
  | deactivateSched t state =>
    obtain ⟨-, ⟨⟩⟩ := ite_none_right_eq_some.1 hstep
    exact h.deactivateSched t state
  | deactivateActivateSched deactivated activated inactiveState activeState =>
    obtain ⟨⟨-, harun, hinactive, hactive, hacur, hqueued, -⟩, ⟨⟩⟩ :=
      ite_none_right_eq_some.1 hstep
    exact h.deactivateActivateSched harun hinactive hactive hacur hqueued
  | donate dest =>
    rcases hcur : k.current with _ | current
    · simp [Scheduler.dispatchStep, hcur] at hstep
    · rw [Scheduler.dispatchStep, hcur] at hstep
      obtain ⟨⟨hrun, -⟩, ⟨⟩⟩ := ite_none_right_eq_some.1 hstep
      exact h.donate hcur hrun fun hflag => hcur ▸ of_decide_eq_true (hup hflag)
  | timerTick wakeup timerLength =>
    cases hstep
    exact h.wf.handleTimerInterrupt_ok (.inr h) timerLength
  | resume =>
    cases hstep
    exact h

/-- An entry that keeps the order leaves the current thread above the ready queue. -/
lemma Ok.entryStep (h : k.Ok) {e : Entry τ} (hkeeps : e.keepsOrder k = true)
    (hstep : k.entryStep e = some k') : k'.Ok := by
  obtain ⟨k₁, hprep, hdispatch⟩ := bind_eq_some_iff.1 hstep
  obtain ⟨⟨hwf, hcur, hflag⟩, hkept⟩ := h.wf.prepRun hprep
  rw [Entry.keepsOrder, or_eq_true, and_eq_true, or_eq_true] at hkeeps
  rcases hkeeps with hviolated | ⟨hquiet | hres, hup⟩
  · -- The flag stays set, so that nothing is promised and the fast paths do a full schedule.
    have hset : k₁.invariantsViolated = true := hflag.trans hviolated
    have hok : k₁.Ok := ⟨hwf, fun hclear => absurd hclear (by simp [hset])⟩
    exact hok.dispatchStep (fun hclear => absurd hclear (by simp [hset])) hdispatch
  · obtain ⟨hok, hprio⟩ := hkept h hquiet
    have hsame : e.dispatch.donatesUp k₁ = e.dispatch.donatesUp k := by
      cases e.dispatch <;> simp [Dispatch.donatesUp, hprio, hcur]
    exact hok.dispatchStep (fun _ => hsame.trans hup) hdispatch
  · have hsame : e.dispatch.reschedules k₁ = e.dispatch.reschedules k := by
      cases e.dispatch <;> simp [Dispatch.reschedules, hcur]
    exact hwf.dispatchStep (hsame.trans hres) hdispatch

/-- The scheduler is in order in every state that a run of entries that keep the order returns
in. -/
lemma ok_of_run {basePrio : τ → Prio} {timesliceLength : τ → ℕ} {entries : List (Entry τ)}
    (hkeeps : TransitionSystem.RunMeets entryStep
      (fun (k : Scheduler τ μ) (e : Entry τ) => e.keepsOrder k = true)
      (init basePrio timesliceLength) entries)
    (hrun : run entryStep (init basePrio timesliceLength) entries = some k) : k.Ok := by
  have hinit : (init basePrio timesliceLength : Scheduler τ μ).Ok :=
    ⟨init_wf basePrio timesliceLength, fun hclear => by simp [init] at hclear⟩
  exact hkeeps.invariant (fun _ _ _ h hkeeps hstep => h.entryStep hkeeps hstep) hinit hrun

/-- In every run of entries that keep the order, whenever the kernel returns with the flag clear,
the running thread is not below any thread of the ready queue. -/
theorem running_thread_highest (basePrio : τ → Prio) (timesliceLength : τ → ℕ)
    (entries : List (Entry τ)) (k : Scheduler τ μ) (hkeeps : TransitionSystem.RunMeets entryStep
      (fun (k : Scheduler τ μ) (e : Entry τ) => e.keepsOrder k = true)
      (init basePrio timesliceLength) entries)
    (hrun : run entryStep (init basePrio timesliceLength) entries = some k)
    (hflag : k.invariantsViolated = false) :
    ∀ t, k.isQueued t = true → k.prioOf (some t) ≤ k.prioOf k.current :=
  (ok_of_run hkeeps hrun).atTop hflag

/-- Two threads are started and the higher one waits; when it is woken up it takes over from the
lower one without a full schedule, and it goes on when its timeslice is over. -/
theorem running_thread_highest_wakeup : ∃ k : Scheduler (Fin 2) Unit,
      run entryStep (init (fun t => if t = 0 then 10 else 100) fun _ => 5)
        [⟨[.activate 0 .running, .activate 1 .running], .schedule false⟩,
          ⟨[], .deactivateSched 1 .waitingForever⟩, ⟨[], .activateSched 1 .running⟩,
          ⟨[], .timerTick false 7⟩] = some k ∧
      k.current = some 1 ∧ k.isQueued 0 = true ∧ k.invariantsViolated = false ∧
      k.prioOf (some 0) ≤ k.prioOf (some 1) := by
  refine exists_run (Q := fun k =>
    k.current = some 1 ∧ k.isQueued 0 = true ∧ k.invariantsViolated = false)
    (by decide +kernel) fun k hrun hview => ?_
  obtain ⟨hcur, hqueued, hflag⟩ := hview
  have htop := running_thread_highest _ _ _ k (by decide +kernel) hrun hflag 0 hqueued
  exact ⟨hcur, hqueued, hflag, hcur ▸ htop⟩

/-- A thread of priority 100 donates its timeslice to one of priority 10: the kernel returns with
the flag clear while the higher thread is on the ready queue. -/
theorem donate_below_ready : ∃ k : Scheduler (Fin 2) Unit,
      run entryStep (init (fun t => if t = 0 then 10 else 100) fun _ => 5)
        [⟨[.activate 0 .running, .activate 1 .running], .schedule false⟩, ⟨[], .donate 0⟩] =
          some k ∧
      k.invariantsViolated = false ∧ k.current = some 0 ∧ k.isQueued 1 = true ∧
      k.prioOf k.current < k.prioOf (some 1) := by
  exact exists_run (by decide +kernel) fun _ _ hview => hview

end Scheduler

end Okl4Kernel
