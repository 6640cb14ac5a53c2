import Okl4Kernel.BlockedRing

/-!
# The order of the blocked threads

The ring of a synchronisation point is in order of decreasing effective priorities, and threads of
the same priority are in the order in which they got there (`wait_queues_ordered`). While a change
of priority is propagated, the link of the chain that has its new priority already is out of order
until it has been moved; the others stand as before.
-/

namespace Okl4Kernel

open LinkedRing SortedQueue Function Option TransitionSystem

namespace Sched

variable {τ μ : Type*}
variable {w : LoopTrace τ μ} {c : Option τ} {s : Sched τ μ} {newPrio : Sched τ μ → τ → Option Prio}
  {op : SyncOp τ μ} {t : τ} {good : τ → Bool} {n : ℕ}

/-! ## Threads that are not moved -/

/-- The thread that an operation itself blocks, unblocks or moves. -/
def moved (s : Sched τ μ) : SyncOp τ μ → Option τ
  | .block _ t => some t
  | .unblock _ t => some t
  | .refresh _ t => some t
  | .setPriority t _ => some t
  | .release m => s.blockedHead (.mutex m)
  | _ => none

lemma increasedPrio_ne {prio : Prio} (s : Sched τ μ) (c : τ) (p : Prio)
    (h : increasedPrio prio s c = some p) : p ≠ s.effectivePrio c := by
  obtain ⟨hlt, ⟨⟩⟩ := ite_none_left_eq_some.1 h
  exact fun e => hlt e.le

lemma changedPrio_ne (s : Sched τ μ) (c : τ) (p : Prio) (h : changedPrio s c = some p) :
    p ≠ s.effectivePrio c := by
  obtain ⟨hne, ⟨⟩⟩ := ite_none_left_eq_some.1 h
  exact hne

variable [DecidableEq τ]

/-- The threads that an operation leaves where they are: their priority is the same afterwards, and
they are not the thread that it moves itself. -/
def stays (s s' : Sched τ μ) (op : SyncOp τ μ) (t : τ) : Bool :=
  s.moved op ≠ some t ∧ s'.effectivePrio t = s.effectivePrio t

lemma stays_moved {s' : Sched τ μ} (h : s.moved op = some t) : stays s s' op t = false :=
  decide_eq_false fun hstays => hstays.1 h

lemma setEffectivePriority_blocked (s : Sched τ μ) (t : τ) (p : Prio) :
    (s.setEffectivePriority t p).blocked = s.blocked := by
  rw [setEffectivePriority_eq]
  rfl

lemma setBasePriority_blocked (s : Sched τ μ) (t : τ) (p : Prio) :
    (s.setBasePriority t p).blocked = s.blocked := by
  unfold setBasePriority
  dsimp only
  split_ifs
  · rfl
  · rw [setEffectivePriority_blocked]
    rfl

lemma setBasePriority_effectivePrio_of_ne (s : Sched τ μ) {t u : τ} (p : Prio) (h : u ≠ t) :
    (s.setBasePriority t p).effectivePrio u = s.effectivePrio u := by
  unfold setBasePriority
  dsimp only
  split_ifs
  · rfl
  · rw [setEffectivePriority_effectivePrio, update_of_ne h]
    rfl

variable [DecidableEq μ]

lemma filter_enqueueBlocked (s : Sched τ μ) (r : SyncRef τ μ) (h : good t = false)
    (r' : SyncRef τ μ) :
    ((s.enqueueBlocked r t).blocked r').filter good = (s.blocked r').filter good := by
  by_cases hr : r' = r
  · subst hr
    simp only [enqueueBlocked, enqueueTcbSorted, update_self]
    exact filter_insert h _
  · simp only [enqueueBlocked, enqueueTcbSorted, update_of_ne hr]

lemma filter_dequeueBlocked (s : Sched τ μ) (r : SyncRef τ μ) (h : good t = false)
    (r' : SyncRef τ μ) :
    ((s.dequeueBlocked r t).blocked r').filter good = (s.blocked r').filter good := by
  by_cases hr : r' = r
  · subst hr
    simp only [dequeueBlocked, update_self]
    exact filter_erase h _
  · simp only [dequeueBlocked, update_of_ne hr]

/-- A step of a propagation loop moves one thread. -/
lemma filter_updateLink (s : Sched τ μ) {c : τ} (h : good c = false) (p : Prio) (r : SyncRef τ μ) :
    ((s.updateLink c p).1.blocked r).filter good = (s.blocked r).filter good := by
  unfold updateLink
  dsimp only
  rcases (s.setEffectivePriority c p).waitingFor c with _ | next
  · rw [setEffectivePriority_blocked]
  · dsimp only
    rw [filter_enqueueBlocked _ _ h, filter_dequeueBlocked _ _ h, setEffectivePriority_blocked]

/-- A propagation loop moves only the threads that it gives a new priority. -/
lemma filter_trace (hw : trace newPrio n s c = some w) (h : ∀ t ∈ w.changed, good t = false)
    (r : SyncRef τ μ) : (w.final.blocked r).filter good = (s.blocked r).filter good := by
  revert h
  refine trace_induction (motive := fun _ s _ w => (∀ t ∈ w.changed, good t = false) →
    (w.final.blocked r).filter good = (s.blocked r).filter good) (fun _ _ _ _ _ => rfl) ?_ hw
  intro n s c p w _ ih h
  obtain ⟨hc, hrest⟩ := List.forall_mem_cons.1 h
  exact (ih hrest).trans (filter_updateLink s hc p r)

/-- A propagation loop changes the priorities of the threads in its trace, if no thread is there
twice. -/
lemma effectivePrio_trace (hnew : ∀ s c p, newPrio s c = some p → p ≠ s.effectivePrio c)
    (hw : trace newPrio n s c = some w) (hnodup : w.changed.Nodup) (t : τ) :
    t ∈ w.changed ↔ w.final.effectivePrio t ≠ s.effectivePrio t := by
  revert hnodup
  refine trace_induction (motive := fun _ s _ w => w.changed.Nodup →
    (t ∈ w.changed ↔ w.final.effectivePrio t ≠ s.effectivePrio t)) (fun _ s _ _ _ => ?_) ?_ hw
  · exact iff_of_false List.not_mem_nil fun hne => hne rfl
  intro n s c p w hprio ih hnodup
  obtain ⟨hc, hrest⟩ := List.nodup_cons.1 hnodup
  have hih := ih hrest
  rw [updateLink_effectivePrio] at hih
  change t ∈ c :: w.changed ↔ w.final.effectivePrio t ≠ _
  rw [List.mem_cons]
  by_cases htc : t = c
  · subst htc
    have hfinal : w.final.effectivePrio t = p := by
      have hkept := not_iff_not.2 hih
      rw [update_self, not_not] at hkept
      exact hkept.1 hc
    rw [hfinal]
    exact iff_of_true (.inl rfl) (hnew s t p hprio)
  · rw [hih, update_of_ne htc]
    exact or_iff_right htc

/-- The loop of an operation does not move the threads that stay, where `s₁` is the state in which it
starts. -/
lemma filter_stays (hnew : ∀ s c p, newPrio s c = some p → p ≠ s.effectivePrio c) {s₁ : Sched τ μ}
    (hw : trace newPrio n s₁ c = some w) (hnodup : w.changed.Nodup)
    (hs₁ : ∀ t, s.moved op ≠ some t → s₁.effectivePrio t = s.effectivePrio t) (r : SyncRef τ μ) :
    (w.final.blocked r).filter (stays s w.final op) =
      (s₁.blocked r).filter (stays s w.final op) := by
  refine filter_trace hw (fun t ht => ?_) r
  rw [effectivePrio_trace hnew hw hnodup] at ht
  refine decide_eq_false fun hstays => ht ?_
  rw [hs₁ t hstays.1]
  exact hstays.2

variable [Fintype τ]

/-- Removing or moving one thread keeps the order of the others. -/
lemma Inherits.filter_syncStep {s' : Sched τ μ} (h : s.Inherits) (hstep : s.syncStep op = some s')
    (hop : ∀ t, op ≠ .removeThread t) (r : SyncRef τ μ) :
    (s'.blocked r).filter (stays s s' op) = (s.blocked r).filter (stays s s' op) := by
  cases op with
  | block r' t =>
    obtain ⟨ht, ⟨⟩⟩ := ite_none_right_eq_some.1 hstep
    obtain ⟨w, hw, hnodup, hfinal⟩ := propagation_ends h (.block r' t) ht
    change w.final = s.block r' t at hfinal
    rw [← hfinal, filter_stays (s := s) increasedPrio_ne hw hnodup fun _ _ => rfl,
      filter_enqueueBlocked _ _ (stays_moved rfl)]
  | unblock r' t =>
    obtain ⟨ht, ⟨⟩⟩ := ite_none_right_eq_some.1 hstep
    obtain ⟨w, hw, hnodup, hfinal⟩ := propagation_ends h (.unblock r' t) ht
    change w.final = s.unblock r' t at hfinal
    rw [← hfinal, filter_stays (s := s) changedPrio_ne hw hnodup fun _ _ => rfl,
      filter_dequeueBlocked _ _ (stays_moved rfl)]
  | refresh r' t =>
    obtain ⟨ht, ⟨⟩⟩ := ite_none_right_eq_some.1 hstep
    obtain ⟨w, hw, hnodup, hfinal⟩ := propagation_ends h (.refresh r' t) ht
    change w.final = s.refresh r' t at hfinal
    rw [← hfinal, filter_stays (s := s) changedPrio_ne hw hnodup fun _ _ => rfl,
      filter_enqueueBlocked _ _ (stays_moved rfl), filter_dequeueBlocked _ _ (stays_moved rfl)]
  | acquire m t =>
    obtain ⟨-, ⟨⟩⟩ := ite_none_right_eq_some.1 hstep
    unfold acquire
    cases s.getHolder m <;> rfl
  | setHolder m t =>
    obtain ⟨-, ⟨⟩⟩ := ite_none_right_eq_some.1 hstep
    rfl
  | release m =>
    rw [Sched.syncStep] at hstep
    rcases hholder : s.getHolder m with _ | holder
    · rw [hholder] at hstep
      cases hstep
    rw [hholder] at hstep
    obtain ⟨-, ⟨⟩⟩ := ite_none_right_eq_some.1 hstep
    rcases hhead : s.blockedHead (.mutex m) with _ | newHolder
    · rw [release_of_blockedHead_none hholder hhead, releaseDonatee_eq hholder]
      rfl
    · rw [release_of_blockedHead_some hholder hhead, releaseDonatee_eq hholder]
      refine filter_dequeueBlocked _ _ ?_ r
      exact stays_moved hhead
  | setPriority t prio =>
    cases hstep
    unfold Sched.setPriority
    dsimp only
    rw [setBasePriority_waitingFor]
    rcases hwait : s.waitingFor t with _ | r'
    · rw [setBasePriority_blocked]
    obtain ⟨hwf, hbal⟩ := h.setBasePriority_requeue hwait prio
    obtain ⟨w, hw, hnodup⟩ := hwf.exists_trace_changedPrio hbal
    dsimp only
    rw [refresh_of_trace hw, filter_stays (s := s) changedPrio_ne hw hnodup fun u hu => ?_,
      filter_enqueueBlocked _ _ (stays_moved rfl), filter_dequeueBlocked _ _ (stays_moved rfl),
      setBasePriority_blocked]
    exact setBasePriority_effectivePrio_of_ne s prio fun e => hu (congrArg some e.symm)
  | removeThread t => exact absurd rfl (hop t)

end Sched

namespace RingSched

variable {τ μ : Type*}

/-- The thread that an operation itself blocks, unblocks or moves. -/
def moved (p : RingSched τ μ) (op : SyncOp τ μ) : Option τ := p.heads.moved op

lemma Represents.moved {p : RingSched τ μ} {s : Sched τ μ} (h : p.Represents s)
    (op : SyncOp τ μ) : p.moved op = s.moved op := by
  cases op
  case release m => exact Option.head?_toList.trans (h.head _)
  all_goals rfl

variable [Fintype τ] [DecidableEq τ] [DecidableEq μ]

/-- The threads that an operation leaves where they are. -/
def stays (p p' : RingSched τ μ) (op : SyncOp τ μ) (t : τ) : Bool :=
  p.moved op ≠ some t ∧ p'.effectivePrio t = p.effectivePrio t

/-- Every state that the operations lead to represents one with exact priorities. -/
lemma exists_represents_of_run {basePrio : τ → Prio} {ops : List (SyncOp τ μ)} {p : RingSched τ μ}
    (hrun : run ringStep (init basePrio) ops = some p) : ∃ s, p.Represents s ∧ s.Inherits := by
  refine run_invariant (P := fun p => ∃ s, p.Represents s ∧ s.Inherits)
    (fun p op p' hp hstep => ?_) ⟨_, init_represents basePrio, Sched.init_inherits basePrio⟩ hrun
  obtain ⟨s, hs, hinh⟩ := hp
  obtain ⟨s', hs', hrep⟩ := hs.ringStep hstep
  exact ⟨s', hrep, hinh.syncStep hs'⟩

/-- The order of the blocked threads in every state that the operations lead to. The pointers of
every synchronisation point form a ring, which is sorted by effective priorities. No thread is on
two rings. A thread that blocks is placed behind all threads of the same or a higher priority, and
the other rings stay as they are. An operation that removes or moves a thread keeps the order of
all threads that it does not move itself and that it does not give another priority. -/
theorem wait_queues_ordered (basePrio : τ → Prio) (ops : List (SyncOp τ μ)) (p : RingSched τ μ)
    (hrun : run ringStep (init basePrio) ops = some p) :
    (∀ r, IsRing p.blockedList (p.queue r) ∧ p.blockedHead r = (p.queue r).head? ∧
      (p.queue r).Pairwise fun t u => p.effectivePrio u ≤ p.effectivePrio t) ∧
    (∀ t r r', t ∈ p.queue r → t ∈ p.queue r' → r = r') ∧
    (∀ t r, p.waitingFor t = none →
      (∃ xs ys, p.queue r = xs ++ ys ∧ (p.enqueueBlocked r t).queue r = xs ++ t :: ys ∧
        (∀ u ∈ xs, p.effectivePrio t ≤ p.effectivePrio u) ∧
        ∀ u ∈ ys, p.effectivePrio u < p.effectivePrio t) ∧
      ∀ r' ≠ r, (p.enqueueBlocked r t).queue r' = p.queue r') ∧
    ∀ op p', p.ringStep op = some p' → (∀ t, op ≠ .removeThread t) →
      ∀ r, (p'.queue r).filter (p.stays p' op) = (p.queue r).filter (p.stays p' op) := by
  obtain ⟨s, hs, hinh⟩ := exists_represents_of_run hrun
  have hqueue (r : SyncRef τ μ) : p.queue r = s.blocked r := hs.queue r
  refine ⟨fun r => ?_, fun t r r' => ?_, fun t r ht => ?_, fun op p' hstep hop r => ?_⟩
  · rw [hqueue, ← hs.effectivePrio]
    exact ⟨hs.ring r, hs.head r, hinh.wf.sorted r⟩
  · rw [hqueue, hqueue]
    exact hs.eq_of_mem
  · rw [← hs.waitingFor] at ht
    have hblocked (r' : SyncRef τ μ) : (p.enqueueBlocked r t).queue r' =
        update s.blocked r (insert s.effectivePrio t (s.blocked r)) r' :=
      (hs.enqueueBlocked r ht).queue r'
    rw [hblocked, update_self, hqueue, ← hs.effectivePrio]
    refine ⟨(hinh.wf.sorted r).exists_insert t, fun r' hr' => ?_⟩
    rw [hblocked, update_of_ne hr', hqueue]
  · obtain ⟨s', hs', hrep⟩ := hs.ringStep hstep
    have hstays : p.stays p' op = s.stays s' op := by
      unfold RingSched.stays Sched.stays
      rw [hs.moved, hs.effectivePrio, hrep.effectivePrio]
    rw [hrep.queue, hqueue, hstays]
    exact hinh.filter_syncStep hs' hop r

/-- Thread 3 sends to thread 2, which has a blocked sender of the same priority already and another of
lower priority, and then gets a higher priority: it goes to the head. -/
theorem wait_queues_ordered_three : ∃ p : RingSched (Fin 4) Unit,
      run ringStep (init fun t => if t = 0 then 3 else 5)
        [.block (.send 2) 0, .block (.send 2) 1, .block (.send 2) 3] = some p ∧
      p.queue (.send 2) = [1, 3, 0] ∧ (p.setPriority 3 7).queue (.send 2) = [3, 1, 0] ∧
      (p.queue (.send 2)).Pairwise fun t u => p.effectivePrio u ≤ p.effectivePrio t := by
  refine ⟨_, rfl, by decide +kernel, by decide +kernel, ?_⟩
  exact ((wait_queues_ordered (fun t => if t = 0 then 3 else 5)
    [.block (.send 2) 0, .block (.send 2) 1, .block (.send 2) 3] _ rfl).1 (.send 2)).2.2

end RingSched

end Okl4Kernel
