import Okl4Kernel.DonationGraph
import Okl4Kernel.Lib.TransitionSystem

/-!
# Priority inheritance is exact

The effective priority of a thread is at all times the greatest of its base priority and of the
priorities of the threads at the heads of its queues. Each operation changes the donation graph at
one place, which unbalances at most one thread; the operation then either propagates from that
thread or is in a situation where it has its due priority already.

`SyncOp` are the operations, guarded by the assertions of the source, and
`effectivePriority_eq_inherited` is the invariant over all their sequences.
-/

namespace Okl4Kernel

namespace Sched

open PriorityInheritance WaitGraph SortedQueue Function List Option Sched

variable {τ μ : Type*}

/-! ## The operations on synchronisation points -/

section Operations

variable {s s' : Sched τ μ} {r : SyncRef τ μ} {m : μ} {t : τ}

lemma Wf.waitingFor_ne (h : s.Wf) (hhead : s.blockedHead r = none) (u : τ) :
    s.waitingFor u ≠ some r := by
  intro hu
  have hmem := h.mem_blocked.2 hu
  rw [head?_eq_none_iff.1 hhead] at hmem
  exact not_mem_nil hmem

/-- Threads are taken out of their queues, and none is put into one. -/
def Wakes (s s' : Sched τ μ) : Prop :=
  ∀ u, s'.waitingFor u = s.waitingFor u ∨ s'.waitingFor u = none

lemma Wakes.trans {s₁ s₂ s₃ : Sched τ μ} (h : Wakes s₁ s₂) (h' : Wakes s₂ s₃) : Wakes s₁ s₃ := by
  intro u
  rcases h' u with heq | hnone
  · rw [heq]
    exact h u
  · exact .inr hnone

lemma Wakes.eq_none (h : Wakes s s') {u : τ} (hu : s.waitingFor u = none) :
    s'.waitingFor u = none := by
  rcases h u with heq | hnone
  · rw [heq, hu]
  · exact hnone

lemma Wakes.ne_some (h : Wakes s s') {u : τ} (hr : s.waitingFor u ≠ some r) :
    s'.waitingFor u ≠ some r := by
  rcases h u with heq | hnone
  · rw [heq]
    exact hr
  · simp [hnone]

variable [DecidableEq τ]

lemma Wf.writeBasePrio (h : s.Wf) (t : τ) (p : Prio) : (s.writeBasePrio t p).Wf :=
  { h with }

@[simp] lemma setBasePriority_waitingFor (s : Sched τ μ) (t : τ) (p : Prio) :
    (s.setBasePriority t p).waitingFor = s.waitingFor := by
  unfold setBasePriority
  dsimp only
  split_ifs
  · rfl
  · rw [setEffectivePriority_waitingFor]
    rfl

variable [Fintype τ]

/-- A new base priority unbalances at most the thread itself. -/
lemma Inherits.writeBasePrio_balancedExcept (h : s.Inherits) (t : τ) (p : Prio) :
    (s.writeBasePrio t p).graph.BalancedExcept (some t) := by
  intro u hu
  have hut : u ≠ t := fun e => hu (by rw [e])
  have hdue : (s.writeBasePrio t p).graph.due u = s.graph.due u :=
    due_congr (update_of_ne hut _ _) (fun _ => Iff.rfl) fun _ _ => rfl
  rw [hdue]
  exact h.balanced u

lemma Inherits.writeBasePrio (h : s.Inherits) {p : Prio}
    (heq : (s.writeBasePrio t p).calcEffectivePriority t = s.effectivePrio t) :
    (s.writeBasePrio t p).Inherits := by
  have hwf := h.wf.writeBasePrio t p
  refine ⟨hwf, (h.writeBasePrio_balancedExcept t p).balanced fun u hu => ?_⟩
  rw [← some.inj hu]
  exact heq.symm.trans (hwf.calc_eq_due t)

lemma Inherits.withPrioQueue (h : s.Inherits) (q : PrioQueue τ) :
    Inherits { s with prioQueue := q } :=
  ⟨h.wf.withPrioQueue q, h.balanced⟩

/-- Some threads have been taken out of their queues, and holders of mutexes are as before. -/
structure Unblocks (s s' : Sched τ μ) : Prop where
  inherits : s'.Inherits
  waitingFor : ∀ u, s'.waitingFor u = s.waitingFor u ∨ s'.waitingFor u = none
  mutexesHeld : s'.mutexesHeld = s.mutexesHeld

lemma Unblocks.trans {s₁ s₂ s₃ : Sched τ μ} (h : Unblocks s₁ s₂) (h' : Unblocks s₂ s₃) :
    Unblocks s₁ s₃ :=
  ⟨h'.inherits, Wakes.trans h.waitingFor h'.waitingFor, h'.mutexesHeld.trans h.mutexesHeld⟩

/-- A thread that no other thread waits for may be given any priority. -/
lemma Inherits.resetPriority (h : s.Inherits) (hrun : s.waitingFor t = none)
    (hfree : ∀ u, s.graph.waitsOn u ≠ some t) : (s.resetPriority t).Inherits := by
  have hwf : (s.resetPriority t).Wf := (h.wf.writeBasePrio t 0).writeEffectivePrio hrun 0
  refine ⟨hwf, fun u => ?_⟩
  by_cases hu : u = t
  · subst hu
    refine le_antisymm ?_ ?_
    · simp [graph, Sched.resetPriority, writeEffectivePrio]
    · rw [due_le_iff]
      exact ⟨by simp [graph, Sched.resetPriority, writeEffectivePrio, Sched.writeBasePrio],
        fun v hv => absurd hv (hfree v)⟩
  · have hdue : (s.resetPriority t).graph.due u = s.graph.due u := by
      refine due_congr ?_ (fun v => Iff.rfl) fun v hv => ?_
      · simp [graph, Sched.resetPriority, writeEffectivePrio, Sched.writeBasePrio, update_of_ne hu]
      · have hvt : v ≠ t := by
          rintro rfl
          simp [graph, hrun] at hv
        simp [graph, Sched.resetPriority, writeEffectivePrio, Sched.writeBasePrio, update_of_ne hvt]
    rw [hdue, ← h.balanced u]
    simp [graph, Sched.resetPriority, writeEffectivePrio, Sched.writeBasePrio, update_of_ne hu]

variable [DecidableEq μ]

/-- The last part of most operations: if the synchronisation point has a donatee, the change is
propagated from there. -/
lemma Wf.inherits_of_propagate (h : s.Wf) (hbal : s.graph.BalancedExcept (s.donatee r)) :
    (match s.donatee r with
      | none => s
      | some _ => s.propagatePriorityChange r).Inherits := by
  rcases hdon : s.donatee r with _ | d
  · rw [hdon] at hbal
    exact ⟨h, hbal.balanced nofun⟩
  · exact h.propagatePriorityChange hbal

/-- Propagating changes priorities and places in queues only. -/
lemma sameWaits_propagate (s : Sched τ μ) (r : SyncRef τ μ) : SameWaits s
    (match s.donatee r with
      | none => s
      | some _ => s.propagatePriorityChange r) := by
  rcases s.donatee r with _ | d
  · exact .refl s
  · exact propagateChangeLoop_sameWaits _ _ _

section

variable (h : s.Inherits)
include h

section

variable (ht : s.waitingFor t = some r)
include ht

lemma Inherits.dequeueBlocked_balancedExcept :
    (s.dequeueBlocked r t).graph.BalancedExcept ((s.dequeueBlocked r t).donatee r) := by
  have hbal : s.graph.BalancedExcept (s.donatee r) := fun u _ => h.balanced u
  refine hbal.redirect rfl rfl fun u => ?_
  by_cases hu : u = t
  · subst hu
    exact .inr ⟨.inr (by simp [graph, ht]), .inl (by simp [graph, dequeueBlocked])⟩
  · exact .inl (by simp [graph, dequeueBlocked, update_of_ne hu])

lemma Inherits.unblock : (s.unblock r t).Inherits :=
  (h.wf.dequeueBlocked ht).inherits_of_propagate (h.dequeueBlocked_balancedExcept ht)

/-- The state in which `refresh` starts to propagate: the thread is back in its queue. -/
lemma Inherits.requeue : ((s.dequeueBlocked r t).enqueueBlocked r t).Wf ∧
      ((s.dequeueBlocked r t).enqueueBlocked r t).graph.BalancedExcept (s.donatee r) := by
  refine ⟨(h.wf.dequeueBlocked ht).enqueueBlocked (by simp [dequeueBlocked]) r, ?_⟩
  have hgraph : ((s.dequeueBlocked r t).enqueueBlocked r t).graph = s.graph := by
    simp only [graph, requeue_waitingFor ht]
    rfl
  rw [hgraph]
  exact fun u _ => h.balanced u

lemma Inherits.refresh : (s.refresh r t).Inherits :=
  (h.requeue ht).1.inherits_of_propagate (h.requeue ht).2

end

/-- The state in which `block` starts to propagate: the donatee is due the priority of the thread
that has joined its queue. -/
lemma Inherits.enqueueBlocked_raisesTo (ht : s.waitingFor t = none) (r : SyncRef τ μ) :
    (s.enqueueBlocked r t).graph.RaisesTo (s.effectivePrio t) (s.donatee r) := by
  have hwaits : ∀ u, u ≠ t → (s.enqueueBlocked r t).graph.waitsOn u = s.graph.waitsOn u := by
    intro u hu
    simp [graph, enqueueBlocked, enqueueTcbSorted, update_of_ne hu]
  have hold : s.graph.waitsOn t = none := by simp [graph, ht]
  have hnew : (s.enqueueBlocked r t).graph.waitsOn t = s.donatee r := by
    simp [graph, enqueueBlocked, enqueueTcbSorted]
  constructor
  · have hbal : s.graph.BalancedExcept (s.donatee r) := fun u _ => h.balanced u
    refine hbal.redirect rfl rfl fun u => ?_
    by_cases hu : u = t
    · subst hu
      exact .inr ⟨.inl hold, .inr hnew⟩
    · exact .inl (hwaits u hu)
  · intro d hd
    have hdonors : ∀ u, (s.enqueueBlocked r t).graph.waitsOn u = some d ↔
        s.graph.waitsOn u = some d ∨ u = t := by
      intro u
      by_cases hu : u = t
      · subst hu
        rw [hnew]
        exact iff_of_true hd (.inr rfl)
      · rw [hwaits u hu]
        exact ⟨.inl, fun hor => hor.resolve_right hu⟩
    have hraise : (s.enqueueBlocked r t).graph.due d = max (s.graph.due d) (s.graph.eff t) :=
      due_of_new_donor rfl hdonors rfl
    rw [hraise, ← h.balanced d]
    rfl

/-- One priority is passed down the chain, so the short cut of `block` does the same as
`propagate_priority_change`. -/
lemma Inherits.block_eq (ht : s.waitingFor t = none) (r : SyncRef τ μ) : s.block r t =
    match (s.enqueueBlocked r t).donatee r with
      | none => s.enqueueBlocked r t
      | some _ => (s.enqueueBlocked r t).propagatePriorityChange r := by
  have hraise := h.enqueueBlocked_raisesTo ht r
  unfold block
  dsimp only
  rcases (s.enqueueBlocked r t).donatee r with _ | d
  · rfl
  · exact (h.wf.enqueueBlocked ht r).propagateIncreaseLoop_eq hraise (Fintype.card τ + 1)

lemma Inherits.block (ht : s.waitingFor t = none) (r : SyncRef τ μ) : (s.block r t).Inherits := by
  rw [h.block_eq ht r]
  exact (h.wf.enqueueBlocked ht r).inherits_of_propagate (h.enqueueBlocked_raisesTo ht r).balanced

end

/-- `set_base_priority` changes a thread as one link of a propagation loop does. -/
lemma Inherits.linkBasePrio (h : s.Inherits) (t : τ) (p : Prio) : let s₁ := s.writeBasePrio t p
    let s₂ := (s₁.updateLink t (s₁.calcEffectivePriority t)).1
    s₂.Wf ∧ s₂.graph.BalancedExcept (s₁.graph.waitsOn t) := by
  intro s₁ s₂
  have hwf : s₁.Wf := h.wf.writeBasePrio t p
  have hlink := hwf.updateLink t (s₁.calcEffectivePriority t)
  have hnext := (h.writeBasePrio_balancedExcept t p).setEff
  rw [← hwf.calc_eq_due t, ← hlink.2] at hnext
  exact ⟨hlink.1, hnext⟩

/-- A thread that waits for nothing has its new priority after `set_base_priority`. -/
lemma Inherits.setBasePriority (h : s.Inherits) (ht : s.waitingFor t = none) (p : Prio) :
    (s.setBasePriority t p).Inherits := by
  unfold Sched.setBasePriority
  dsimp only
  split_ifs with heq
  · exact h.writeBasePrio heq
  have hlink := h.linkBasePrio t p
  have hwait : (s.writeBasePrio t p).waitingFor t = none := ht
  have hnone : (s.writeBasePrio t p).graph.waitsOn t = none := by simp [graph, hwait]
  simp only [Sched.updateLink, setEffectivePriority_waitingFor, hwait, hnone] at hlink
  exact ⟨hlink.1, hlink.2.balanced (by simp)⟩

/-- The state in which `set_priority` starts to propagate: a thread that waits in a queue is back
there with its new priority. -/
lemma Inherits.setBasePriority_requeue (h : s.Inherits) (ht : s.waitingFor t = some r) (p : Prio) :
    (((s.setBasePriority t p).dequeueBlocked r t).enqueueBlocked r t).Wf ∧
      (((s.setBasePriority t p).dequeueBlocked r t).enqueueBlocked r t).graph.BalancedExcept
        ((s.setBasePriority t p).donatee r) := by
  have hwait : (s.writeBasePrio t p).waitingFor t = some r := ht
  unfold Sched.setBasePriority
  dsimp only
  split_ifs with heq
  · exact (h.writeBasePrio heq).requeue hwait
  have hlink := h.linkBasePrio t p
  have hon : (s.writeBasePrio t p).graph.waitsOn t = (s.writeBasePrio t p).donatee r := by
    simp [graph, hwait]
  simp only [Sched.updateLink, setEffectivePriority_waitingFor, hwait, hon] at hlink
  rwa [setEffectivePriority_donatee]

lemma Inherits.setPriority (h : s.Inherits) (t : τ) (p : Prio) : (s.setPriority t p).Inherits := by
  unfold Sched.setPriority
  simp only [setBasePriority_waitingFor]
  rcases hwait : s.waitingFor t with _ | r
  · exact h.setBasePriority hwait p
  · obtain ⟨hwf, hbal⟩ := h.setBasePriority_requeue hwait p
    exact hwf.inherits_of_propagate hbal

/-! ## The operations on mutexes -/

omit [Fintype τ] in
/-- The holder of a mutex is written, and the ring of the thread that has it or gets it. -/
lemma Wf.writeHolder (h : s.Wf) {w : Option τ} {held : List μ} (hnodup : held.Nodup)
    (hothers : ∀ u, u ≠ t → m ∉ s.mutexesHeld u ∧ w ≠ some u)
    (hheld : ∀ m', m' ∈ held ↔ if m' = m then w = some t else m' ∈ s.mutexesHeld t) : Wf { s with
      donatee := update s.donatee (.mutex m) w
      mutexesHeld := update s.mutexesHeld t held } where
  __ := h
  donatee_send u := by simpa using h.donatee_send u
  donatee_recv u := by simpa using h.donatee_recv u
  mem_held {m' u} := by
    dsimp only
    by_cases hu : u = t <;> by_cases hm : m' = m
    · subst hu hm
      simp [hheld]
    · subst hu
      simp [hheld, hm, h.mem_held]
    · subst hm
      rw [update_of_ne hu, update_self]
      exact iff_of_false (hothers u hu).1 (hothers u hu).2
    · simp [hm, update_of_ne hu, h.mem_held]
  nodup_held := (forall_update_iff _ _).2 ⟨hnodup, fun u _ => h.nodup_held u⟩

omit [Fintype τ] in
/-- Those who wait for the mutex donate to its new holder. -/
lemma writeHolder_waitsOn {w : Option τ} (hdon : s'.donatee = update s.donatee (.mutex m) w)
    (hwait : s'.waitingFor = s.waitingFor) (u : τ) : s'.graph.waitsOn u =
      if s.waitingFor u = some (.mutex m) then w else s.graph.waitsOn u := by
  simp only [graph, hdon, hwait]
  rcases s.waitingFor u with _ | r
  · simp
  · by_cases hr : r = .mutex m <;> simp [hr]

/-- A thread becomes the holder of a free mutex on which no thread of higher priority is
blocked. -/
lemma Inherits.setHolder (h : s.Inherits) (hfree : s.donatee (.mutex m) = none)
    (htop : ∀ u, s.waitingFor u = some (.mutex m) → s.effectivePrio u ≤ s.effectivePrio t) :
    (s.setHolder m t).Inherits := by
  have hnot : ∀ u, m ∉ s.mutexesHeld u := by
    intro u hmem
    rw [h.wf.mem_held, hfree] at hmem
    exact absurd hmem (by simp)
  have hnodup : (s.mutexesHeld t ++ [m]).Nodup :=
    (perm_append_singleton m _).nodup_iff.2 (nodup_cons.2 ⟨hnot t, h.wf.nodup_held t⟩)
  have hwf : (s.setHolder m t).Wf := by
    refine h.wf.writeHolder hnodup (fun u hu => ⟨hnot u, fun e => hu (some.inj e).symm⟩) ?_
    intro m'
    by_cases hm : m' = m <;> simp [hm]
  have hwaits : ∀ u, (s.setHolder m t).graph.waitsOn u =
      if s.waitingFor u = some (.mutex m) then some t else s.graph.waitsOn u :=
    writeHolder_waitsOn rfl rfl
  refine ⟨hwf, ?_⟩
  have hbal : (s.setHolder m t).graph.BalancedExcept (some t) := by
    have hbal' : s.graph.BalancedExcept (some t) := fun u _ => h.balanced u
    refine hbal'.redirect rfl rfl fun u => ?_
    rw [hwaits]
    split_ifs with hu
    · exact .inr ⟨.inl (by simp [graph, hu, hfree]), .inr rfl⟩
    · exact .inl rfl
  refine hbal.balanced fun u hu => ?_
  obtain rfl : t = u := some.inj hu
  -- The donors are the old ones and threads that are not above the new holder.
  refine le_antisymm ?_ ?_
  · have hle : s.graph.due t ≤ (s.setHolder m t).graph.due t := by
      rw [due_le_iff]
      refine ⟨base_le_due (s.setHolder m t).graph t, fun v hv => ?_⟩
      have hv' : s.waitingFor v ≠ some (.mutex m) := by
        intro e
        simp [graph, e, hfree] at hv
      exact eff_le_due (((hwaits v).trans (if_neg hv')).trans hv)
    exact (h.balanced t).le.trans hle
  · rw [due_le_iff]
    refine ⟨(base_le_due s.graph t).trans (h.balanced t).ge, fun v hv => ?_⟩
    by_cases hv' : s.waitingFor v = some (.mutex m)
    · exact htop v hv'
    · rw [hwaits, if_neg hv'] at hv
      exact (eff_le_due hv).trans (h.balanced t).ge

/-- The state between the two halves of `release`: the holder has given the mutex up, and its
priority has not been looked at. -/
def withoutHolder (s : Sched τ μ) (m : μ) (t : τ) : Sched τ μ :=
  { s.dequeueHeld m t with donatee := update s.donatee (.mutex m) none }

omit [Fintype τ] in
lemma Wf.withoutHolder (h : s.Wf) (hholder : s.donatee (.mutex m) = some t) :
    (s.withoutHolder m t).Wf := by
  refine h.writeHolder ((h.nodup_held t).erase m) (fun u hu => ⟨?_, nofun⟩) fun m' => ?_
  · rw [h.mem_held, hholder]
    exact fun e => hu (some.inj e).symm
  · rw [(h.nodup_held t).mem_erase_iff]
    by_cases hm : m' = m <;> simp [hm]

omit [Fintype τ] in
lemma withoutHolder_waitsOn (s : Sched τ μ) (m : μ) (t u : τ) :
    (s.withoutHolder m t).graph.waitsOn u =
      if s.waitingFor u = some (.mutex m) then none else s.graph.waitsOn u := by
  refine writeHolder_waitsOn ?_ ?_ u <;> rfl

/-- Giving a mutex up unbalances at most the holder. -/
lemma Inherits.withoutHolder_balancedExcept (h : s.Inherits)
    (hholder : s.donatee (.mutex m) = some t) :
    (s.withoutHolder m t).graph.BalancedExcept (some t) := by
  have hbal : s.graph.BalancedExcept (some t) := fun u _ => h.balanced u
  refine hbal.redirect rfl rfl fun u => ?_
  rw [withoutHolder_waitsOn]
  split_ifs with hu
  · exact .inr ⟨.inr (by simp [graph, hu, hholder]), .inl rfl⟩
  · exact .inl rfl

/-- The first half of `release`: the holder gives the mutex up and has its priority calculated
anew if it may have come from there. -/
lemma Inherits.releaseDonatee (h : s.Inherits) (hholder : s.donatee (.mutex m) = some t)
    (hrun : s.waitingFor t = none) : ((s.dequeueHeld m t).releaseDonatee (.mutex m)).Inherits := by
  have hwf : (s.withoutHolder m t).Wf := h.wf.withoutHolder hholder
  have hbal := h.withoutHolder_balancedExcept hholder
  have hdon : (s.dequeueHeld m t).donatee (.mutex m) = some t := hholder
  -- If the priority is kept, no thread blocked on the mutex has it.
  have hkept : (∀ u, s.waitingFor u = some (.mutex m) → s.effectivePrio u < s.effectivePrio t) →
      (s.withoutHolder m t).Inherits := by
    intro hlow
    refine ⟨hwf, hbal.balanced fun u hu => ?_⟩
    obtain rfl : t = u := some.inj hu
    refine le_antisymm ?_ ?_
    · rcases due_eq_base_or s.graph t with hbase | ⟨v, hv, heff⟩
      · exact ((h.balanced t).trans hbase).le.trans (base_le_due (s.withoutHolder m t).graph t)
      have hv' : s.waitingFor v ≠ some (.mutex m) := by
        intro e
        have hlt : s.graph.eff v < s.graph.eff t := hlow v e
        rw [h.balanced t, heff] at hlt
        exact lt_irrefl _ hlt
      have hv'' : (s.withoutHolder m t).graph.waitsOn v = some t := by
        rw [withoutHolder_waitsOn, if_neg hv']
        exact hv
      exact ((h.balanced t).trans heff).le.trans (eff_le_due hv'')
    · rw [due_le_iff]
      refine ⟨(base_le_due s.graph t).trans (h.balanced t).ge, fun v hv => ?_⟩
      rw [withoutHolder_waitsOn] at hv
      split_ifs at hv
      exact (eff_le_due hv).trans (h.balanced t).ge
  unfold Sched.releaseDonatee
  simp only [hdon]
  rcases hhead : (s.dequeueHeld m t).blockedHead (.mutex m) with _ | head
  · exact hkept fun u hu => absurd hu (h.wf.waitingFor_ne hhead u)
  dsimp only
  split_ifs with hle
  · have hset := hbal.setEff
    have hnone : (s.withoutHolder m t).graph.waitsOn t = none := by
      simp [graph, Sched.withoutHolder, dequeueHeld, hrun]
    rw [hnone, ← hwf.calc_eq_due] at hset
    exact ⟨hwf.writeEffectivePrio hrun _, hset.balanced (by simp)⟩
  · refine hkept fun u hu => ?_
    have hle' := (h.wf.sorted _).le_head hhead u (h.wf.mem_blocked.2 hu)
    exact lt_of_le_of_lt hle' (not_le.1 hle)

omit [Fintype τ] in
/-- Apart from the effective priority of the holder, the first half of `release` only takes the
mutex from it. -/
lemma releaseDonatee_eq (hholder : s.donatee (.mutex m) = some t) :
    (s.dequeueHeld m t).releaseDonatee (.mutex m) =
      { s.withoutHolder m t with
        effectivePrio := ((s.dequeueHeld m t).releaseDonatee (.mutex m)).effectivePrio } := by
  have hdon : (s.dequeueHeld m t).donatee (.mutex m) = some t := hholder
  unfold releaseDonatee
  simp only [hdon]
  rcases (s.dequeueHeld m t).blockedHead (.mutex m) with _ | head
  · rfl
  · dsimp only
    split_ifs <;> rfl

/-- A blocked thread may leave a queue without a donatee without anything to propagate. -/
lemma Inherits.dequeueBlocked (h : s.Inherits) (ht : s.waitingFor t = some r)
    (hnone : s.donatee r = none) : (s.dequeueBlocked r t).Inherits := by
  refine ⟨h.wf.dequeueBlocked ht, ?_⟩
  have hbal := h.dequeueBlocked_balancedExcept ht
  have hnone' : (s.dequeueBlocked r t).donatee r = none := hnone
  rw [hnone'] at hbal
  exact hbal.balanced nofun

lemma release_of_blockedHead_none (hholder : s.donatee (.mutex m) = some t)
    (hhead : s.blockedHead (.mutex m) = none) :
    s.release m = ((s.dequeueHeld m t).releaseDonatee (.mutex m), none) := by
  have hget : s.getHolder m = some t := hholder
  simp only [release, hget, hhead]

/-- What `release` does when a thread is blocked on the mutex: that thread leaves the queue and
becomes the holder. -/
lemma release_of_blockedHead_some {newHolder : τ} (hholder : s.donatee (.mutex m) = some t)
    (hhead : s.blockedHead (.mutex m) = some newHolder) : s.release m =
      ((((s.dequeueHeld m t).releaseDonatee (.mutex m)).dequeueBlocked (.mutex m)
        newHolder).setHolder m newHolder, some newHolder) := by
  have hget : s.getHolder m = some t := hholder
  have hnone : ((((s.dequeueHeld m t).releaseDonatee (.mutex m)).enqueueHeld m
      newHolder).dequeueBlocked (.mutex m) newHolder).donatee (.mutex m) = none := by
    rw [releaseDonatee_eq hholder]
    simp [withoutHolder, enqueueHeld, dequeueBlocked]
  simp only [release, hget, hhead, unblock]
  rw [hnone]
  rfl

lemma Inherits.release (h : s.Inherits) (hholder : s.donatee (.mutex m) = some t)
    (hrun : s.waitingFor t = none) : (s.release m).1.Inherits := by
  have hhalf := h.releaseDonatee hholder hrun
  rcases hhead : s.blockedHead (.mutex m) with _ | newHolder
  · rw [release_of_blockedHead_none hholder hhead]
    exact hhalf
  rw [release_of_blockedHead_some hholder hhead]
  set s' := (s.dequeueHeld m t).releaseDonatee (.mutex m) with hs'
  have hnone : s'.donatee (.mutex m) = none := by
    rw [hs', releaseDonatee_eq hholder]
    simp [Sched.withoutHolder]
  have hblocked : s'.blockedHead (.mutex m) = some newHolder := by
    rw [hs', releaseDonatee_eq hholder]
    exact hhead
  have hwait : s'.waitingFor newHolder = some (.mutex m) :=
    hhalf.wf.mem_blocked.1 (mem_of_mem_head? hblocked)
  refine (hhalf.dequeueBlocked hwait hnone).setHolder hnone ?_
  intro u hu
  -- The others were behind the new holder in the queue.
  have hu' : u ∈ s'.blocked (.mutex m) := by
    rw [hhalf.wf.mem_blocked]
    simp only [Sched.dequeueBlocked] at hu
    by_cases hne : u = newHolder
    · simp [hne] at hu
    · rwa [update_of_ne hne] at hu
  exact (hhalf.wf.sorted _).le_head hblocked u hu'

/-! ## Removing a thread -/

/-- Apart from priorities and places in queues, `unblock` does what `dequeue_blocked` does. -/
lemma unblock_sameWaits (s : Sched τ μ) (r : SyncRef τ μ) (t : τ) :
    SameWaits (s.dequeueBlocked r t) (s.unblock r t) :=
  sameWaits_propagate _ r

@[simp] lemma unblock_waitingFor (s : Sched τ μ) (r : SyncRef τ μ) (t : τ) :
    (s.unblock r t).waitingFor = update s.waitingFor t none :=
  (s.unblock_sameWaits r t).waitingFor

@[simp] lemma unblock_mutexesHeld (s : Sched τ μ) (r : SyncRef τ μ) (t : τ) :
    (s.unblock r t).mutexesHeld = s.mutexesHeld :=
  (s.unblock_sameWaits r t).mutexesHeld

lemma Inherits.unblock_unblocks (h : s.Inherits) (ht : s.waitingFor t = some r) :
    Unblocks s (s.unblock r t) := by
  refine ⟨h.unblock ht, fun u => ?_, unblock_mutexesHeld s r t⟩
  rw [unblock_waitingFor]
  by_cases hu : u = t
  · exact .inr (by simp [hu])
  · exact .inl (update_of_ne hu _ _)

lemma Inherits.removeDependency (h : s.Inherits) (t : τ) :
    Unblocks s (s.removeDependency t) ∧ (s.removeDependency t).waitingFor t = none := by
  unfold Sched.removeDependency
  rcases hwait : s.waitingFor t with _ | r
  · exact ⟨⟨h, fun _ => .inl rfl, rfl⟩, hwait⟩
  · exact ⟨h.unblock_unblocks hwait, by simp⟩

/-- The loop that unwinds the threads of a queue empties it. -/
lemma Inherits.unblockAll (h : s.Inherits) {n : ℕ} (hn : (s.blocked r).length ≤ n) :
    Unblocks s (unblockAll r n s) ∧ ∀ u, (unblockAll r n s).waitingFor u ≠ some r := by
  induction n generalizing s with
  | zero =>
    have hnil := length_eq_zero_iff.1 (Nat.le_zero.1 hn)
    exact ⟨⟨h, fun _ => .inl rfl, rfl⟩, h.wf.waitingFor_ne (head?_eq_none_iff.2 hnil)⟩
  | succ n ih =>
    rw [unblockAll]
    rcases hhead : s.blockedHead r with _ | head
    · exact ⟨⟨h, fun _ => .inl rfl, rfl⟩, h.wf.waitingFor_ne hhead⟩
    have hwait : s.waitingFor head = some r :=
      h.wf.mem_blocked.1 (mem_of_mem_head? hhead)
    have hstep := h.unblock_unblocks hwait
    have hstep' : Unblocks s ((s.unblock r head).enqueue head) :=
      ⟨hstep.inherits.withPrioQueue _, hstep.waitingFor, hstep.mutexesHeld⟩
    set s' := (s.unblock r head).enqueue head
    -- The queue has become shorter: its members are those that wait for it.
    have hlen : (s'.blocked r).length < (s.blocked r).length := by
      have hsub : s'.blocked r ⊆ (s.blocked r).erase head := by
        intro u hu
        have hu' := hstep'.inherits.wf.mem_blocked.1 hu
        have hwaits : s'.waitingFor = update s.waitingFor head none := unblock_waitingFor s r head
        rw [hwaits] at hu'
        have hne : u ≠ head := by
          rintro rfl
          simp at hu'
        rw [update_of_ne hne] at hu'
        exact (mem_erase_of_ne hne).2 (h.wf.mem_blocked.2 hu')
      have hnodup := hstep'.inherits.wf.nodup_blocked r
      have hle := (subperm_of_subset hnodup hsub).length_le
      have hmem : head ∈ s.blocked r := mem_of_mem_head? hhead
      rw [length_erase_of_mem hmem] at hle
      have hpos := length_pos_of_mem hmem
      omega
    obtain ⟨hrest, hempty⟩ := ih hstep'.inherits (by omega)
    exact ⟨hstep'.trans hrest, hempty⟩

/-- `release` takes the mutex from its holder and at most one thread out of a queue. -/
lemma Inherits.release_fields (h : s.Inherits) (hholder : s.donatee (.mutex m) = some t)
    (hrun : s.waitingFor t = none) : (s.release m).1.mutexesHeld t = (s.mutexesHeld t).erase m ∧
      Wakes s (s.release m).1 := by
  rcases hhead : s.blockedHead (.mutex m) with _ | newHolder
  · rw [release_of_blockedHead_none hholder hhead, releaseDonatee_eq hholder]
    exact ⟨by simp [Sched.withoutHolder, dequeueHeld], fun u => .inl rfl⟩
  rw [release_of_blockedHead_some hholder hhead, releaseDonatee_eq hholder]
  have hne : t ≠ newHolder := by
    rintro rfl
    have hwait := h.wf.mem_blocked.1 (mem_of_mem_head? hhead)
    simp [hrun] at hwait
  refine ⟨?_, fun u => ?_⟩
  · simp [Sched.withoutHolder, dequeueHeld, Sched.setHolder, becomeDonatee, enqueueHeld,
      Sched.dequeueBlocked, update_of_ne hne]
  · by_cases hu : u = newHolder
    · exact .inr (by simp [Sched.setHolder, becomeDonatee, enqueueHeld, Sched.dequeueBlocked, hu])
    · exact .inl (by simp [Sched.setHolder, becomeDonatee, enqueueHeld, Sched.dequeueBlocked,
        Sched.withoutHolder, dequeueHeld, update_of_ne hu])

section Remove

variable {P : Sched τ μ → Prop}
  (hprios : ∀ {s s'}, P s → s'.waitingFor = s.waitingFor → s'.donatee = s.donatee → P s')
  (hrelease : ∀ {s m}, P s → s.Wf → s.donatee (.mutex m) = some t → P (s.release m).1)
include hprios hrelease

/-- The loop that releases the mutexes of a thread leaves it without any, and keeps what each release
keeps. -/
lemma Inherits.releaseMutexes (h : s.Inherits) (hs : P s) (hrun : s.waitingFor t = none) {n : ℕ}
    (hn : (s.mutexesHeld t).length ≤ n) :
    (releaseMutexes t n s).Inherits ∧ (releaseMutexes t n s).mutexesHeld t = [] ∧
      Wakes s (releaseMutexes t n s) ∧ P (releaseMutexes t n s) := by
  induction n generalizing s with
  | zero =>
    have hnil : s.mutexesHeld t = [] := length_eq_zero_iff.1 (Nat.le_zero.1 hn)
    exact ⟨h, hnil, fun _ => .inl rfl, hs⟩
  | succ n ih =>
    rw [releaseMutexes]
    rcases hhead : (s.mutexesHeld t).head? with _ | m
    · exact ⟨h, head?_eq_none_iff.1 hhead, fun _ => .inl rfl, hs⟩
    dsimp only
    have hmem : m ∈ s.mutexesHeld t := mem_of_mem_head? hhead
    have hholder : s.donatee (.mutex m) = some t := h.wf.mem_held.1 hmem
    have hinh := h.release hholder hrun
    obtain ⟨hheld, hwaits⟩ := h.release_fields hholder hrun
    have hlen : ((s.release m).1.mutexesHeld t).length ≤ n := by
      rw [hheld, length_erase_of_mem hmem]
      omega
    -- Making the new holder runnable only touches the ready queue.
    have hgo : ∀ q s', s' = releaseMutexes t n { (s.release m).1 with prioQueue := q } →
        s'.Inherits ∧ s'.mutexesHeld t = [] ∧ Wakes s s' ∧ P s' := by
      rintro q _ rfl
      obtain ⟨hinh', hheld', hwaits', hs'⟩ := ih (hinh.withPrioQueue q)
        (hprios (hrelease hs h.wf hholder) rfl rfl) (hwaits.eq_none hrun) hlen
      exact ⟨hinh', hheld', hwaits.trans hwaits', hs'⟩
    rcases hres : s.release m with ⟨s', newHolder⟩
    rw [hres] at hgo
    rcases newHolder with _ | newHolder
    · exact hgo s'.prioQueue _ rfl
    · exact hgo (s'.enqueue newHolder).prioQueue _ rfl

/-- Removing a thread keeps every priority exact, and what unblocking and releasing keep. -/
lemma Inherits.removeThread (hunblocks : ∀ {s s'}, P s → s.Wf → Unblocks s s' → P s')
    (h : s.Inherits) (hs : P s) : (s.removeThread t).Inherits ∧ P (s.removeThread t) := by
  unfold Sched.removeThread
  extract_lets s₁ s₂ s₃ s₄ s₅
  obtain ⟨h₁, hrun₁⟩ : Unblocks s s₁ ∧ s₁.waitingFor t = none := h.removeDependency t
  obtain ⟨h₂, hsend⟩ : Unblocks s₁ s₂ ∧ ∀ u, s₂.waitingFor u ≠ some (.send t) :=
    h₁.inherits.unblockAll le_rfl
  obtain ⟨h₃, hrecv⟩ : Unblocks s₂ s₃ ∧ ∀ u, s₃.waitingFor u ≠ some (.recv t) :=
    h₂.inherits.unblockAll le_rfl
  have hs₃ : P s₃ := hunblocks hs h.wf (h₁.trans (h₂.trans h₃))
  have hrun₃ := Wakes.eq_none h₃.waitingFor (Wakes.eq_none h₂.waitingFor hrun₁)
  have hinh₄ : s₄.Inherits ∧ s₄.waitingFor = s₃.waitingFor ∧ P s₄ := by
    simp only [s₄]
    split_ifs
    · exact ⟨h₃.inherits.withPrioQueue _, rfl, hprios hs₃ rfl rfl⟩
    · exact ⟨h₃.inherits, rfl, hs₃⟩
  obtain ⟨hinh₄, hwaits₄, hs₄⟩ := hinh₄
  obtain ⟨hinh₅, hheld₅, hwaits₅, hs₅⟩ := hinh₄.releaseMutexes hprios hrelease hs₄
    (by rw [hwaits₄, hrun₃]) (le_refl (s₄.mutexesHeld t).length)
  have hwaits : Wakes s₃ s₅ := fun u => hwaits₄ ▸ hwaits₅ u
  refine ⟨hinh₅.resetPriority (hwaits.eq_none hrun₃) fun u hu => ?_, hprios hs₅ rfl rfl⟩
  obtain ⟨r, hr, hdon⟩ := bind_eq_some_iff.1 hu
  rcases hinh₅.wf.inheritsVia_iff.2 hdon with rfl | rfl | ⟨m, hm, rfl⟩
  · exact hwaits.ne_some (Wakes.ne_some h₃.waitingFor (hsend u)) hr
  · exact hwaits.ne_some (hrecv u) hr
  · rw [hheld₅] at hm
    exact not_mem_nil hm

end Remove

end Operations

/-! ## All sequences of operations -/

end Sched

/-- The operations that change priorities or the queues of synchronisation points. -/
inductive SyncOp (τ μ : Type*)
  | block (r : SyncRef τ μ) (t : τ)
  | unblock (r : SyncRef τ μ) (t : τ)
  | refresh (r : SyncRef τ μ) (t : τ)
  | acquire (m : μ) (t : τ)
  | setHolder (m : μ) (t : τ)
  | release (m : μ)
  | setPriority (t : τ) (prio : Prio)
  | removeThread (t : τ)

namespace Sched

open PriorityInheritance

variable {τ μ : Type*} [Fintype τ] [DecidableEq τ] [DecidableEq μ]
variable {s : Sched τ μ}

/-- Perform an operation, if the assertions of the source hold. -/
def syncStep (s : Sched τ μ) : SyncOp τ μ → Option (Sched τ μ)
  | .block r t => if s.waitingFor t = none then some (s.block r t) else none
  | .unblock r t => if s.waitingFor t = some r then some (s.unblock r t) else none
  | .refresh r t => if s.waitingFor t = some r then some (s.refresh r t) else none
  | .acquire m t =>
    if s.waitingFor t = none ∧ (s.getHolder m = none → s.headAtMost (.mutex m) t) then
      some (s.acquire m t).1
    else none
  | .setHolder m t =>
    if s.getHolder m = none ∧ s.blockedHead (.mutex m) = none then some (s.setHolder m t) else none
  | .release m =>
    match s.getHolder m with
    | none => none
    | some holder =>
      if s.waitingFor holder = none ∧ s.prioQueue.isQueued holder = false then
        some (s.release m).1
      else none
  | .setPriority t prio => some (s.setPriority t prio)
  | .removeThread t => some (s.removeThread t)

omit [DecidableEq μ] in
lemma init_inherits (basePrio : τ → Prio) : (init basePrio : Sched τ μ).Inherits := by
  refine ⟨⟨?_, ?_, ?_, ?_, ?_, ?_, ?_⟩, fun t => ?_⟩
  · simp [init]
  · simp [init]
  · intro r
    exact List.Pairwise.nil
  · simp [init]
  · simp [init]
  · simp [init]
  · simp [init]
  · refine le_antisymm (WaitGraph.base_le_due (init basePrio : Sched τ μ).graph t) ?_
    rw [WaitGraph.due_le_iff]
    exact ⟨le_rfl, fun u hu => by simp [graph, init] at hu⟩

lemma Inherits.syncStep {s' : Sched τ μ} (h : s.Inherits) {op : SyncOp τ μ}
    (hstep : s.syncStep op = some s') : s'.Inherits := by
  cases op with
  | block r t =>
    obtain ⟨ht, ⟨⟩⟩ := Option.ite_none_right_eq_some.1 hstep
    exact h.block ht r
  | unblock r t =>
    obtain ⟨ht, ⟨⟩⟩ := Option.ite_none_right_eq_some.1 hstep
    exact h.unblock ht
  | refresh r t =>
    obtain ⟨ht, ⟨⟩⟩ := Option.ite_none_right_eq_some.1 hstep
    exact h.refresh ht
  | acquire m t =>
    obtain ⟨⟨-, hhead⟩, ⟨⟩⟩ := Option.ite_none_right_eq_some.1 hstep
    unfold acquire
    cases hholder : s.getHolder m with
    | some holder => exact h
    | none =>
      refine h.setHolder hholder fun u hu => h.wf.blockedHead_le_iff.1 (fun v hv => ?_) u hu
      simpa [headAtMost, hv] using hhead hholder
  | setHolder m t =>
    obtain ⟨⟨hholder, hhead⟩, ⟨⟩⟩ := Option.ite_none_right_eq_some.1 hstep
    exact h.setHolder hholder fun u hu => absurd hu (h.wf.waitingFor_ne hhead u)
  | release m =>
    rw [Sched.syncStep] at hstep
    rcases hholder : s.getHolder m with _ | holder
    · simp [hholder] at hstep
    · rw [hholder] at hstep
      obtain ⟨⟨hrun, -⟩, ⟨⟩⟩ := Option.ite_none_right_eq_some.1 hstep
      exact h.release hholder hrun
  | setPriority t prio =>
    cases hstep
    exact h.setPriority t prio
  | removeThread t =>
    cases hstep
    exact (h.removeThread (P := fun _ => True) (fun _ _ _ => ⟨⟩) (fun _ _ _ => ⟨⟩) (fun _ _ _ => ⟨⟩)
      ⟨⟩).1

/-- A thread is blocked on a synchronisation point of which the other is the donatee. -/
def BlockedOn (s : Sched τ μ) (u t : τ) : Prop :=
  ∃ r, s.waitingFor u = some r ∧ s.donatee r = some t

/-- Priority inheritance: in every state that the operations lead to, whether or not some threads
wait for each other in a circle, the effective priority of a thread is the greatest of its base
priority and of the effective priorities of the heads of its send queue, of its receive queue and
of the queues of the mutexes it holds. If no threads wait in a circle, it is the greatest base
priority of the thread and of the threads that are, directly or indirectly, blocked on it. -/
theorem effectivePriority_eq_inherited (basePrio : τ → Prio) (ops : List (SyncOp τ μ))
    (s : Sched τ μ) (hrun : TransitionSystem.run syncStep (init basePrio) ops = some s) :
    (∀ t, IsGreatest {p | p = s.basePrio t ∨
        ∃ r h, (r = .send t ∨ r = .recv t ∨ ∃ m, s.getHolder m = some t ∧ r = .mutex m) ∧
          s.blockedHead r = some h ∧ p = s.effectivePrio h} (s.effectivePrio t)) ∧
      ((∀ t, ¬ Relation.TransGen s.BlockedOn t t) → ∀ t,
        IsGreatest {p | ∃ u, Relation.ReflTransGen s.BlockedOn u t ∧ p = s.basePrio u}
          (s.effectivePrio t)) := by
  have hinh : s.Inherits := TransitionSystem.run_invariant (fun _ _ _ h hstep => h.syncStep hstep)
    (init_inherits basePrio) hrun
  refine ⟨fun t => ?_, fun hacyclic t => ?_⟩
  · have hcalc : s.effectivePrio t = s.calcEffectivePriority t :=
      (hinh.balanced t).trans (hinh.wf.calc_eq_due t).symm
    have hgreatest := s.calcEffectivePriority_isGreatest t
    rw [← hcalc] at hgreatest
    simpa only [InheritsVia, hinh.wf.mem_held, getHolder] using hgreatest
  · have hedges : s.BlockedOn = fun a b => s.graph.waitsOn a = some b := by
      funext a b
      exact propext Option.bind_eq_some_iff.symm
    rw [hedges] at hacyclic ⊢
    exact hinh.balanced.isGreatest_base hacyclic t

/-- Two threads that send to each other: the deadlock is one of the states the theorem is about,
and both run at the higher of their priorities. -/
theorem effectivePriority_eq_inherited_deadlock : ∃ s : Sched (Fin 2) Unit,
      TransitionSystem.run syncStep (init fun t => if t = 0 then 5 else 7)
        [.block (.send 1) 0, .block (.send 0) 1] = some s ∧
      s.BlockedOn 0 1 ∧ s.BlockedOn 1 0 ∧ s.effectivePrio 0 = 7 ∧
      ∀ t, IsGreatest {p | p = s.basePrio t ∨
        ∃ r h, (r = .send t ∨ r = .recv t ∨ ∃ m, s.getHolder m = some t ∧ r = .mutex m) ∧
          s.blockedHead r = some h ∧ p = s.effectivePrio h} (s.effectivePrio t) :=
  ⟨_, rfl, ⟨.send 1, rfl, rfl⟩, ⟨.send 0, rfl, rfl⟩, rfl,
    (effectivePriority_eq_inherited (fun t => if t = 0 then 5 else 7)
      [.block (.send 1) 0, .block (.send 0) 1] _ rfl).1⟩

end Sched

end Okl4Kernel
