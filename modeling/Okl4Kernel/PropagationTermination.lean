import Okl4Kernel.SyncpointInvariant

/-!
# Priority propagation ends

The loops of `propagate_priority_increase` and `propagate_priority_change` follow the chain of
donatees and have no check for a cycle. A `LoopTrace` records what such a loop does: the threads
that it gives a new priority, and the thread at which it stops because the priority need not change.

A loop that an operation starts in a state with exact priorities ends on every graph, and gives no
thread a new priority twice (`propagation_ends`). On a deadlock it comes round to the thread that it
has changed first, and stops there: it looks at this thread a second time
(`propagation_visits_twice`).
-/

namespace Okl4Kernel.Sched

open PriorityInheritance Option Fintype

variable {τ μ : Type*}

/-- What a propagation loop has done when it ends. -/
structure LoopTrace (τ μ : Type*) where
  /-- The threads that have been given a new priority, in order. -/
  changed : List τ
  /-- The thread at which the loop has stopped, if it is not the end of the chain. -/
  stop : Option τ
  /-- The state behind the loop. -/
  final : Sched τ μ

namespace LoopTrace

/-- The threads that the variable `chain` of the loop has pointed to, in order. -/
def visited (w : LoopTrace τ μ) : List τ := w.changed ++ w.stop.toList

/-- The trace of a loop that has changed one more thread before. -/
def cons (t : τ) (w : LoopTrace τ μ) : LoopTrace τ μ := { w with changed := t :: w.changed }

/-- The trace without the state. -/
def links (w : LoopTrace τ μ) : List τ × Option τ := (w.changed, w.stop)

/-- The trace of a loop that stops before it changes a thread. -/
def stopped (s : Sched τ μ) (stop : Option τ) : LoopTrace τ μ := ⟨[], stop, s⟩

end LoopTrace

lemma links_cons (o : Option (LoopTrace τ μ)) (t : τ) : (o.map (.cons t)).map LoopTrace.links =
      (o.map LoopTrace.links).map fun w => (t :: w.1, w.2) := by
  cases o <;> rfl

variable [DecidableEq τ] [DecidableEq μ]

/-- A propagation loop, if it ends within `n` rounds. `newPrio` is the new priority of a link of the
chain, unless the loop stops there. -/
def trace (newPrio : Sched τ μ → τ → Option Prio) :
    ℕ → Sched τ μ → Option τ → Option (LoopTrace τ μ)
  | 0, _, _ => none
  | _ + 1, s, none => some (.stopped s none)
  | n + 1, s, some chain =>
    match newPrio s chain with
    | none => some (.stopped s (some chain))
    | some prio =>
      let link := s.updateLink chain prio
      (trace newPrio n link.1 link.2).map (.cons chain)

/-- The decision of `propagate_priority_increase` at a link of the chain. -/
def increasedPrio (prio : Prio) (s : Sched τ μ) (chain : τ) : Option Prio :=
  if prio ≤ s.effectivePrio chain then none else some prio

/-- The decision of `propagate_priority_change` at a link of the chain. -/
def changedPrio (s : Sched τ μ) (chain : τ) : Option Prio :=
  let prio := s.calcEffectivePriority chain
  if prio = s.effectivePrio chain then none else some prio

/-- The rounds of a loop, from the one in which it stops to the first. -/
lemma trace_induction {newPrio : Sched τ μ → τ → Option Prio}
    {motive : ℕ → Sched τ μ → Option τ → LoopTrace τ μ → Prop}
    (stop : ∀ n s c, (∀ t, c = some t → newPrio s t = none) → motive (n + 1) s c (.stopped s c))
    (change : ∀ n s c p w, newPrio s c = some p →
      motive n (s.updateLink c p).1 (s.updateLink c p).2 w → motive (n + 1) s (some c) (w.cons c))
    {n : ℕ} {s : Sched τ μ} {c : Option τ} {w : LoopTrace τ μ}
    (hw : trace newPrio n s c = some w) : motive n s c w := by
  induction n generalizing s c w with
  | zero => cases hw
  | succ n ih =>
    rcases c with _ | c
    · cases hw
      exact stop n s none nofun
    rw [trace] at hw
    rcases hprio : newPrio s c with _ | p
    · rw [hprio] at hw
      cases hw
      exact stop n s (some c) fun t ht => by rwa [← some.inj ht]
    · rw [hprio] at hw
      obtain ⟨w', hw', rfl⟩ := map_eq_some_iff.1 hw
      exact change n s c p w' hprio (ih hw')

/-- The trace of the loop of `propagate_priority_change` leads to the state behind it. -/
lemma propagateChangeLoop_of_trace {n : ℕ} {s : Sched τ μ} {c : Option τ} {w : LoopTrace τ μ}
    (hw : trace changedPrio n s c = some w) : propagateChangeLoop n s c = w.final := by
  refine trace_induction (motive := fun n s c w => propagateChangeLoop n s c = w.final) ?_ ?_ hw
  · rintro n s (_ | c) hstop
    · rfl
    · have hc := hstop c rfl
      rw [changedPrio, ite_eq_left_iff] at hc
      rw [propagateChangeLoop, if_pos (not_not.1 fun hne => some_ne_none _ (hc hne))]
      rfl
  · intro n s c p w hprio ih
    obtain ⟨hne, ⟨⟩⟩ := ite_none_left_eq_some.1 hprio
    rw [propagateChangeLoop, if_neg hne]
    exact ih

/-! ## The loops are walks along the donation edges -/

section Walk

variable [Fintype τ] {s : Sched τ μ} {c : Option τ}

/-- The loop of `propagate_priority_change` visits what the walk along the donation edges does. -/
lemma Wf.trace_changedPrio (h : s.Wf) (n : ℕ) (c : Option τ) :
    (trace changedPrio n s c).map LoopTrace.links = s.graph.walk n c := by
  induction n generalizing s c with
  | zero => rfl
  | succ n ih =>
    rcases c with _ | c
    · rfl
    have hcalc : s.calcEffectivePriority c = s.graph.due c := h.calc_eq_due c
    rw [trace, changedPrio, WaitGraph.walk]
    dsimp only
    by_cases heq : s.calcEffectivePriority c = s.effectivePrio c
    · have hdue : s.graph.eff c = s.graph.due c := heq.symm.trans hcalc
      rw [if_pos heq, if_pos hdue]
      rfl
    · rw [if_neg heq, if_neg fun e => heq (hcalc.trans e.symm)]
      obtain ⟨hwf, hgraph⟩ := h.updateLink c (s.calcEffectivePriority c)
      dsimp only
      rw [links_cons, ih hwf, hgraph, updateLink_snd, hcalc]

/-- While a single priority is passed down the chain, the loop of `propagate_priority_increase`
visits the same threads. -/
lemma Wf.trace_increasedPrio (h : s.Wf) {p : Prio} (hraise : s.graph.RaisesTo p c) (n : ℕ) :
    trace (increasedPrio p) n s c = trace changedPrio n s c := by
  induction n generalizing s c with
  | zero => rfl
  | succ n ih =>
    rcases c with _ | c
    · rfl
    rw [trace, trace, increasedPrio, changedPrio]
    rcases h.raise_link hraise with ⟨hle, hcalc⟩ | ⟨hle, hcalc, hne, hnext⟩
    · rw [if_pos hle, if_pos hcalc]
    · rw [if_neg hle, hcalc, if_neg hne]
      dsimp only
      rw [ih (h.updateLink c p).1 hnext]

/-- The loop of `propagate_priority_change` ends if at most the thread it starts at has the wrong
priority, and changes no thread twice. -/
lemma Wf.exists_trace_changedPrio (h : s.Wf) (hbal : s.graph.BalancedExcept c) :
    ∃ w, trace changedPrio (card τ + 1) s c = some w ∧ w.changed.Nodup := by
  obtain ⟨links, hlinks⟩ := hbal.stopsWithin.exists_walk
  have hwalk := h.trace_changedPrio (card τ + 1) c
  rw [hlinks] at hwalk
  obtain ⟨w, hw, rfl⟩ := map_eq_some_iff.1 hwalk
  exact ⟨w, hw, hbal.walk_nodup hlinks⟩

end Walk

/-! ## The loops that the operations start -/

/-- The operations that start a propagation loop, and `release`, which unblocks a thread from a
synchronisation point that has lost its donatee. -/
inductive LoopStart (τ μ : Type*)
  | block (r : SyncRef τ μ) (t : τ)
  | unblock (r : SyncRef τ μ) (t : τ)
  | refresh (r : SyncRef τ μ) (t : τ)
  | setPriority (t : τ) (prio : Prio)
  | release (m : μ)

namespace LoopStart

/-- The assertions of the source. -/
def Guard (s : Sched τ μ) : LoopStart τ μ → Prop
  | block _ t => s.waitingFor t = none
  | unblock r t => s.waitingFor t = some r
  | refresh r t => s.waitingFor t = some r
  | setPriority _ _ => True
  | release m => ∃ t, s.getHolder m = some t ∧ s.waitingFor t = none

/-- The operation. -/
def apply [Fintype τ] (s : Sched τ μ) : LoopStart τ μ → Sched τ μ
  | block r t => s.block r t
  | unblock r t => s.unblock r t
  | refresh r t => s.refresh r t
  | setPriority t prio => s.setPriority t prio
  | release m => (s.release m).1

/-- The loop of `unblock`. -/
def unblockTrace (n : ℕ) (s : Sched τ μ) (r : SyncRef τ μ) (t : τ) : Option (LoopTrace τ μ) :=
  let s := s.dequeueBlocked r t
  Sched.trace changedPrio n s (s.donatee r)

/-- The loop of `refresh`. -/
def refreshTrace (n : ℕ) (s : Sched τ μ) (r : SyncRef τ μ) (t : τ) : Option (LoopTrace τ μ) :=
  let s := (s.dequeueBlocked r t).enqueueBlocked r t
  Sched.trace changedPrio n s (s.donatee r)

/-- The loop that an operation starts, if it ends within `n` rounds, with the state behind the
operation. -/
def trace (n : ℕ) (s : Sched τ μ) : LoopStart τ μ → Option (LoopTrace τ μ)
  | block r t =>
    let s := s.enqueueBlocked r t
    Sched.trace (increasedPrio (s.effectivePrio t)) n s (s.donatee r)
  | unblock r t => unblockTrace n s r t
  | refresh r t => refreshTrace n s r t
  | setPriority t prio =>
    let s := s.setBasePriority t prio
    match s.waitingFor t with
    | none => some (.stopped s none)
    | some r => refreshTrace n s r t
  | release m =>
    match s.getHolder m with
    | none => some (.stopped s none)
    | some holder =>
      match s.blockedHead (.mutex m) with
      | none => some (.stopped ((s.dequeueHeld m holder).releaseDonatee (.mutex m)) none)
      | some newHolder =>
        let s := (s.dequeueHeld m holder).releaseDonatee (.mutex m)
        let s := s.enqueueHeld m newHolder
        (unblockTrace n s (.mutex m) newHolder).map fun w =>
          { w with final := w.final.becomeDonatee (.mutex m) newHolder }

end LoopStart

section Starts

variable [Fintype τ] {s : Sched τ μ} {r : SyncRef τ μ} {t : τ}

/-- A loop that starts at a missing donatee does nothing, so the check for one can be left out. -/
lemma propagatePriorityChange_of_donatee (s : Sched τ μ) (r : SyncRef τ μ) : (match s.donatee r with
      | none => s
      | some _ => s.propagatePriorityChange r) = s.propagatePriorityChange r := by
  rcases hdon : s.donatee r with _ | d
  · unfold propagatePriorityChange
    rw [hdon]
    rfl
  · rfl

variable {w : LoopTrace τ μ}

lemma unblock_of_trace (hw : LoopStart.unblockTrace (card τ + 1) s r t = some w) :
    s.unblock r t = w.final :=
  (propagatePriorityChange_of_donatee _ r).trans (propagateChangeLoop_of_trace hw)

lemma refresh_of_trace (hw : LoopStart.refreshTrace (card τ + 1) s r t = some w) :
    s.refresh r t = w.final :=
  (propagatePriorityChange_of_donatee _ r).trans (propagateChangeLoop_of_trace hw)

/-- The loop of `refresh` ends in the state that `set_base_priority` leaves for it. -/
lemma Inherits.setPriority_ends (h : s.Inherits) (t : τ) (prio : Prio) :
    ∃ w, (LoopStart.setPriority t prio).trace (card τ + 1) s = some w ∧
      w.changed.Nodup ∧ w.final = s.setPriority t prio := by
  unfold LoopStart.trace Sched.setPriority
  simp only [setBasePriority_waitingFor]
  rcases hwait : s.waitingFor t with _ | r
  · exact ⟨.stopped (s.setBasePriority t prio) none, rfl, List.nodup_nil, rfl⟩
  · obtain ⟨hwf, hbal⟩ := h.setBasePriority_requeue hwait prio
    obtain ⟨w, hw, hnodup⟩ := hwf.exists_trace_changedPrio hbal
    exact ⟨w, hw, hnodup, (refresh_of_trace hw).symm⟩

/-- In `release` the donatee has been taken away when the thread is unblocked, so that nothing is
propagated. -/
lemma release_ends (s : Sched τ μ) (m : μ) :
    ∃ w, (LoopStart.release m).trace (card τ + 1) s = some w ∧
      w.changed.Nodup ∧ w.final = (s.release m).1 := by
  unfold LoopStart.trace release
  dsimp only
  rcases hholder : s.getHolder m with _ | holder
  · exact ⟨.stopped s none, rfl, List.nodup_nil, rfl⟩
  rcases hhead : s.blockedHead (.mutex m) with _ | newHolder
  · exact ⟨.stopped ((s.dequeueHeld m holder).releaseDonatee (.mutex m)) none, rfl,
      List.nodup_nil, rfl⟩
  dsimp only
  set s' := ((s.dequeueHeld m holder).releaseDonatee (.mutex m)).enqueueHeld m newHolder
  have hdon : (s'.dequeueBlocked (.mutex m) newHolder).donatee (.mutex m) = none := by
    have hd : (s.dequeueHeld m holder).donatee (.mutex m) = some holder := hholder
    simp [s', dequeueBlocked, enqueueHeld, releaseDonatee, hd]
  have htrace : LoopStart.unblockTrace (card τ + 1) s' (.mutex m) newHolder =
      some (.stopped (s'.dequeueBlocked (.mutex m) newHolder) none) := by
    unfold LoopStart.unblockTrace
    dsimp only
    rw [hdon]
    rfl
  rw [htrace, unblock_of_trace htrace]
  exact ⟨_, rfl, List.nodup_nil, rfl⟩

/-- Every propagation loop that an operation starts in a state with exact priorities ends, on every
graph of waiting threads. It gives no thread a new priority twice. -/
theorem propagation_ends (h : s.Inherits) (op : LoopStart τ μ) (hop : op.Guard s) :
    ∃ w, op.trace (card τ + 1) s = some w ∧ w.changed.Nodup ∧ w.final = op.apply s := by
  cases op with
  | block r t =>
    have hraise := h.enqueueBlocked_raisesTo hop r
    have hwf := h.wf.enqueueBlocked hop r
    obtain ⟨w, hw, hnodup⟩ := hwf.exists_trace_changedPrio hraise.balanced
    refine ⟨w, (hwf.trace_increasedPrio hraise _).trans hw, hnodup, ?_⟩
    refine (propagateChangeLoop_of_trace hw).symm.trans ?_
    exact (propagatePriorityChange_of_donatee _ r).symm.trans (h.block_eq hop r).symm
  | unblock r t =>
    obtain ⟨w, hw, hnodup⟩ := (h.wf.dequeueBlocked hop).exists_trace_changedPrio
      (h.dequeueBlocked_balancedExcept hop)
    exact ⟨w, hw, hnodup, (unblock_of_trace hw).symm⟩
  | refresh r t =>
    obtain ⟨hwf, hbal⟩ := h.requeue hop
    obtain ⟨w, hw, hnodup⟩ := hwf.exists_trace_changedPrio hbal
    exact ⟨w, hw, hnodup, (refresh_of_trace hw).symm⟩
  | setPriority t prio => exact h.setPriority_ends t prio
  | release m => exact release_ends s m

end Starts

/-! ## A deadlock -/

/-- The threads 0 and 1 send to each other, and thread 2 has a higher priority. -/
def deadlock : Sched (Fin 3) Unit :=
  ((init fun t => if t = 2 then 5 else 1).block (.send 1) 0).block (.send 0) 1

lemma deadlock_inherits : deadlock.Inherits :=
  ((init_inherits _).block rfl _).block (by decide +kernel) _

/-- The theorem applies to the deadlock: a thread that sends to thread 0 raises both threads of the
cycle. -/
theorem propagation_ends_deadlock :
    ∃ w, (LoopStart.block (.send 0) 2).trace (card (Fin 3) + 1) deadlock = some w ∧
      w.changed.Nodup ∧ w.final = deadlock.block (.send 0) 2 :=
  propagation_ends deadlock_inherits (.block (.send 0) 2)
    (show deadlock.waitingFor 2 = none by decide +kernel)

/-- On the deadlock the loop that `block` starts ends, but it visits thread 0 twice: it raises the
threads 0 and 1, and comes round to thread 0, at which it stops. -/
theorem propagation_visits_twice :
    deadlock.Inherits ∧ (LoopStart.block (.send 0) 2).Guard deadlock ∧
      ((LoopStart.block (.send 0) 2).trace 4 deadlock).map LoopTrace.visited =
        some [0, 1, 0] ∧ ¬ [(0 : Fin 3), 1, 0].Nodup :=
  ⟨deadlock_inherits, show deadlock.waitingFor 2 = none by decide +kernel, by decide +kernel,
    by decide⟩

end Okl4Kernel.Sched
