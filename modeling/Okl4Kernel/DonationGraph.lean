import Okl4Kernel.Syncpoint
import Okl4Kernel.Lib.PriorityInheritance

/-!
# The donation graph of the kernel

The state of the synchronisation points is read as a donation graph (`graph`): a thread donates to
the donatee of the synchronisation point it waits for. `Wf` collects what the queues must satisfy
for the heads to be the greatest members: every list of blocked threads is sorted, and agrees with
the `waiting_for` fields; the mutexes held by a thread are those it is the donatee of. Under `Wf`
the calculation that the kernel does on the heads is the due priority of the graph
(`Wf.calc_eq_due`), and its propagation loops are the walk along the donation edges
(`Wf.propagateChangeLoop`), so that the library's theorem about that walk applies.
-/

namespace Okl4Kernel.Sched

open PriorityInheritance SortedQueue Function List Option Sched

variable {τ μ : Type*}

/-- The donation graph of a state. -/
def graph (s : Sched τ μ) : WaitGraph τ Prio where
  base := s.basePrio
  eff := s.effectivePrio
  waitsOn t := (s.waitingFor t).bind s.donatee

/-- The queues are sorted and agree with the `waiting_for` and `donatee` fields. -/
structure Wf (s : Sched τ μ) : Prop where
  mem_blocked : ∀ {r t}, t ∈ s.blocked r ↔ s.waitingFor t = some r
  nodup_blocked : ∀ r, (s.blocked r).Nodup
  sorted : ∀ r, Descending s.effectivePrio (s.blocked r)
  donatee_send : ∀ t, s.donatee (.send t) = some t
  donatee_recv : ∀ t, s.donatee (.recv t) = some t
  mem_held : ∀ {m t}, m ∈ s.mutexesHeld t ↔ s.donatee (.mutex m) = some t
  nodup_held : ∀ t, (s.mutexesHeld t).Nodup

/-! ## The calculated priority -/

variable {s : Sched τ μ}

lemma maxWithHead_le_iff {p q : Prio} {r : SyncRef τ μ} :
    s.maxWithHead p r ≤ q ↔ p ≤ q ∧ ∀ h, s.blockedHead r = some h → s.effectivePrio h ≤ q := by
  unfold maxWithHead
  rcases hhead : s.blockedHead r with _ | h
  · simp
  simp only [some.injEq, forall_eq']
  split_ifs with hlt
  · exact ⟨fun hle => ⟨hlt.le.trans hle, hle⟩, fun hle => hle.2⟩
  · exact ⟨fun hle => ⟨hle, (not_lt.1 hlt).trans hle⟩, fun hle => hle.1⟩

lemma foldl_maxWithHead_le_iff {p q : Prio} {ms : List μ} :
    ms.foldl (fun max m => s.maxWithHead max (.mutex m)) p ≤ q ↔
      p ≤ q ∧ ∀ m ∈ ms, ∀ h, s.blockedHead (.mutex m) = some h → s.effectivePrio h ≤ q := by
  induction ms generalizing p with
  | nil => simp
  | cons m ms ih =>
    rw [foldl_cons, ih, maxWithHead_le_iff]
    simp [and_assoc]

lemma maxWithHead_eq_or (s : Sched τ μ) (p : Prio) (r : SyncRef τ μ) : s.maxWithHead p r = p ∨
      ∃ h, s.blockedHead r = some h ∧ s.maxWithHead p r = s.effectivePrio h := by
  unfold maxWithHead
  rcases hhead : s.blockedHead r with _ | h
  · exact .inl rfl
  · by_cases hlt : p < s.effectivePrio h
    · exact .inr ⟨h, rfl, by simp [hlt]⟩
    · exact .inl (by simp [hlt])

lemma foldl_maxWithHead_eq_or (s : Sched τ μ) (p : Prio) (ms : List μ) :
    ms.foldl (fun max m => s.maxWithHead max (.mutex m)) p = p ∨
      ∃ m ∈ ms, ∃ h, s.blockedHead (.mutex m) = some h ∧
        ms.foldl (fun max m => s.maxWithHead max (.mutex m)) p = s.effectivePrio h := by
  induction ms generalizing p with
  | nil => exact .inl rfl
  | cons m ms ih =>
    rw [foldl_cons]
    rcases ih (s.maxWithHead p (.mutex m)) with heq | ⟨m', hm', h, hh, heq⟩
    · rw [heq]
      rcases s.maxWithHead_eq_or p (.mutex m) with hp | ⟨h, hh, hp⟩
      · exact .inl hp
      · exact .inr ⟨m, mem_cons_self, h, hh, hp⟩
    · exact .inr ⟨m', mem_cons_of_mem m hm', h, hh, heq⟩

/-- The synchronisation points whose heads enter the calculation of a thread's priority. -/
def InheritsVia (s : Sched τ μ) (t : τ) (r : SyncRef τ μ) : Prop :=
  r = .send t ∨ r = .recv t ∨ ∃ m ∈ s.mutexesHeld t, r = .mutex m

/-- The calculated priority is the least bound of the base priority and of the priorities of the
heads. -/
lemma calcEffectivePriority_le_iff {t : τ} {q : Prio} :
    s.calcEffectivePriority t ≤ q ↔ s.basePrio t ≤ q ∧
      ∀ r, s.InheritsVia t r → ∀ h, s.blockedHead r = some h → s.effectivePrio h ≤ q := by
  unfold calcEffectivePriority InheritsVia
  rw [foldl_maxWithHead_le_iff, maxWithHead_le_iff, maxWithHead_le_iff]
  constructor
  · rintro ⟨⟨⟨hbase, hsend⟩, hrecv⟩, hheld⟩
    refine ⟨hbase, ?_⟩
    rintro r (rfl | rfl | ⟨m, hm, rfl⟩)
    · exact hsend
    · exact hrecv
    · exact hheld m hm
  · rintro ⟨hbase, hall⟩
    exact ⟨⟨⟨hbase, hall _ (.inl rfl)⟩, hall _ (.inr (.inl rfl))⟩,
      fun m hm => hall _ (.inr (.inr ⟨m, hm, rfl⟩))⟩

/-- The calculated priority is the base priority or that of one of the heads. -/
lemma calcEffectivePriority_isGreatest (s : Sched τ μ) (t : τ) : IsGreatest {p | p = s.basePrio t ∨
      ∃ r h, s.InheritsVia t r ∧ s.blockedHead r = some h ∧ p = s.effectivePrio h}
      (s.calcEffectivePriority t) := by
  refine ⟨?_, ?_⟩
  · rcases s.foldl_maxWithHead_eq_or
        (s.maxWithHead (s.maxWithHead (s.basePrio t) (.send t)) (.recv t)) (s.mutexesHeld t)
      with hheld | ⟨m, hm, h, hh, heq⟩
    · rcases s.maxWithHead_eq_or (s.maxWithHead (s.basePrio t) (.send t)) (.recv t)
        with hrecv | ⟨h, hh, heq⟩
      · rcases s.maxWithHead_eq_or (s.basePrio t) (.send t) with hsend | ⟨h, hh, heq⟩
        · exact .inl (hheld.trans (hrecv.trans hsend))
        · exact .inr ⟨.send t, h, .inl rfl, hh, hheld.trans (hrecv.trans heq)⟩
      · exact .inr ⟨.recv t, h, .inr (.inl rfl), hh, hheld.trans heq⟩
    · exact .inr ⟨.mutex m, h, .inr (.inr ⟨m, hm, rfl⟩), hh, heq⟩
  · obtain ⟨hbase, hheads⟩ :=
      (calcEffectivePriority_le_iff (s := s) (t := t)).1 (le_refl (s.calcEffectivePriority t))
    rintro p (rfl | ⟨r, h, hr, hh, rfl⟩)
    · exact hbase
    · exact hheads r hr h hh

/-! ## Fields that an operation leaves alone -/

section Fields

variable [DecidableEq τ]

/-- Apart from the ready queue, `set_effective_priority` writes one field. -/
lemma setEffectivePriority_eq (s : Sched τ μ) (t : τ) (p : Prio) : s.setEffectivePriority t p =
      { s.writeEffectivePrio t p with prioQueue := (s.setEffectivePriority t p).prioQueue } := by
  unfold setEffectivePriority
  split_ifs <;> rfl

@[simp] lemma setEffectivePriority_effectivePrio (s : Sched τ μ) (t : τ) (p : Prio) :
    (s.setEffectivePriority t p).effectivePrio = update s.effectivePrio t p := by
  rw [setEffectivePriority_eq]
  rfl

@[simp] lemma setEffectivePriority_basePrio (s : Sched τ μ) (t : τ) (p : Prio) :
    (s.setEffectivePriority t p).basePrio = s.basePrio := by
  rw [setEffectivePriority_eq]
  rfl

@[simp] lemma setEffectivePriority_waitingFor (s : Sched τ μ) (t : τ) (p : Prio) :
    (s.setEffectivePriority t p).waitingFor = s.waitingFor := by
  rw [setEffectivePriority_eq]
  rfl

@[simp] lemma setEffectivePriority_donatee (s : Sched τ μ) (t : τ) (p : Prio) :
    (s.setEffectivePriority t p).donatee = s.donatee := by
  rw [setEffectivePriority_eq]
  rfl

@[simp] lemma setEffectivePriority_mutexesHeld (s : Sched τ μ) (t : τ) (p : Prio) :
    (s.setEffectivePriority t p).mutexesHeld = s.mutexesHeld := by
  rw [setEffectivePriority_eq]
  rfl

end Fields

/-! ## Reading the graph off the queues -/

namespace Wf

lemma blockedHead_le_iff (h : s.Wf) {r : SyncRef τ μ} {q : Prio} :
    (∀ u, s.blockedHead r = some u → s.effectivePrio u ≤ q) ↔
      ∀ u, s.waitingFor u = some r → s.effectivePrio u ≤ q := by
  constructor
  · intro hhead u hu
    have hmem : u ∈ s.blocked r := h.mem_blocked.2 hu
    obtain ⟨v, hv⟩ : ∃ v, s.blockedHead r = some v := by
      rcases hb : s.blocked r with _ | ⟨v, vs⟩
      · simp [hb] at hmem
      · exact ⟨v, by simp [blockedHead, hb]⟩
    exact ((h.sorted r).le_head hv u hmem).trans (hhead v hv)
  · intro hall u hu
    exact hall u (h.mem_blocked.1 (mem_of_mem_head? hu))

/-- A thread inherits exactly through the synchronisation points it is the donatee of. -/
lemma inheritsVia_iff (h : s.Wf) {t : τ} {r : SyncRef τ μ} :
    s.InheritsVia t r ↔ s.donatee r = some t := by
  constructor
  · rintro (rfl | rfl | ⟨m, hm, rfl⟩)
    · exact h.donatee_send t
    · exact h.donatee_recv t
    · exact h.mem_held.1 hm
  · intro hdon
    cases r with
    | send u =>
      rw [h.donatee_send] at hdon
      exact .inl (by rw [some.inj hdon])
    | recv u =>
      rw [h.donatee_recv] at hdon
      exact .inr (.inl (by rw [some.inj hdon]))
    | mutex m => exact .inr (.inr ⟨m, h.mem_held.2 hdon, rfl⟩)

variable [Fintype τ] [DecidableEq τ]

/-- What the kernel calculates from the heads of the queues is what is due in the graph. -/
lemma calc_eq_due (h : s.Wf) (t : τ) : s.calcEffectivePriority t = s.graph.due t := by
  apply WaitGraph.eq_due_of_forall
  intro q
  rw [calcEffectivePriority_le_iff]
  refine and_congr Iff.rfl ⟨?_, ?_⟩
  · intro hall u hu
    obtain ⟨r, hr, hdon⟩ := bind_eq_some_iff.1 hu
    exact h.blockedHead_le_iff.1 (hall r (h.inheritsVia_iff.2 hdon)) u hr
  · intro hall r hr
    rw [h.blockedHead_le_iff]
    intro u hu
    refine hall u ?_
    exact bind_eq_some_iff.2 ⟨r, hu, h.inheritsVia_iff.1 hr⟩

end Wf

/-! ## Primitive steps -/

section Primitive

lemma Wf.withPrioQueue (h : s.Wf) (q : PrioQueue τ) : Wf { s with prioQueue := q } :=
  { h with }

/-- The fields that only the operations on donatees and base priorities write. -/
structure SameWaits (s s' : Sched τ μ) : Prop where
  basePrio : s'.basePrio = s.basePrio
  waitingFor : s'.waitingFor = s.waitingFor
  donatee : s'.donatee = s.donatee
  mutexesHeld : s'.mutexesHeld = s.mutexesHeld

lemma SameWaits.refl (s : Sched τ μ) : SameWaits s s := ⟨rfl, rfl, rfl, rfl⟩

lemma SameWaits.trans {s₁ s₂ s₃ : Sched τ μ} (h : SameWaits s₁ s₂) (h' : SameWaits s₂ s₃) :
    SameWaits s₁ s₃ :=
  ⟨h'.basePrio.trans h.basePrio, h'.waitingFor.trans h.waitingFor, h'.donatee.trans h.donatee,
    h'.mutexesHeld.trans h.mutexesHeld⟩

variable [DecidableEq τ] {t : τ}

lemma SameWaits.graph_eq {s' : Sched τ μ} (h : SameWaits s s') (t : τ) (p : Prio)
    (heff : s'.effectivePrio = update s.effectivePrio t p) : s'.graph = s.graph.setEff t p := by
  simp [graph, WaitGraph.setEff, h.basePrio, h.waitingFor, h.donatee, heff]

/-- Writing the priority of a thread that is not blocked keeps the queues in order. -/
lemma Wf.writeEffectivePrio (h : s.Wf) (ht : s.waitingFor t = none) (p : Prio) :
    (s.writeEffectivePrio t p).Wf where
  __ := h
  sorted r := by
    refine (h.sorted r).congr fun u hu => update_of_ne ?_ _ _
    rintro rfl
    simp [h.mem_blocked.1 hu] at ht

lemma Wf.setEffectivePriority (h : s.Wf) (ht : s.waitingFor t = none) (p : Prio) :
    (s.setEffectivePriority t p).Wf := by
  rw [setEffectivePriority_eq]
  exact (h.writeEffectivePrio ht p).withPrioQueue _

variable [DecidableEq μ]

lemma Wf.dequeueBlocked (h : s.Wf) {r : SyncRef τ μ} (ht : s.waitingFor t = some r) :
    (s.dequeueBlocked r t).Wf where
  __ := h
  mem_blocked := by
    intro r' u
    simp only [Sched.dequeueBlocked]
    by_cases hr : r' = r
    · subst hr
      rw [update_self, (h.nodup_blocked r').mem_erase_iff, h.mem_blocked]
      by_cases hu : u = t <;> simp [hu]
    · rw [update_of_ne hr, h.mem_blocked]
      by_cases hu : u = t
      · subst hu
        simp [ht, Ne.symm hr]
      · rw [update_of_ne hu]
  nodup_blocked := (forall_update_iff _ _).2
    ⟨(h.nodup_blocked r).erase t, fun r' _ => h.nodup_blocked r'⟩
  sorted := (forall_update_iff _ _).2
    ⟨List.Pairwise.sublist erase_sublist (h.sorted r), fun r' _ => h.sorted r'⟩

lemma Wf.enqueueBlocked (h : s.Wf) (ht : s.waitingFor t = none) (r : SyncRef τ μ) :
    (s.enqueueBlocked r t).Wf where
  __ := h
  mem_blocked := by
    intro r' u
    simp only [Sched.enqueueBlocked, enqueueTcbSorted]
    by_cases hr : r' = r
    · subst hr
      rw [update_self, mem_insert, h.mem_blocked]
      by_cases hu : u = t <;> simp [hu]
    · rw [update_of_ne hr, h.mem_blocked]
      by_cases hu : u = t
      · subst hu
        simp [ht, Ne.symm hr]
      · rw [update_of_ne hu]
  nodup_blocked := by
    refine (forall_update_iff _ _).2 ⟨?_, fun r' _ => h.nodup_blocked r'⟩
    rw [(perm_insert _ t _).nodup_iff, nodup_cons, h.mem_blocked]
    exact ⟨by simp [ht], h.nodup_blocked r⟩
  sorted := (forall_update_iff _ _).2 ⟨(h.sorted r).insert t, fun r' _ => h.sorted r'⟩

/-- The two writes of a link concern different fields. -/
lemma setEffectivePriority_dequeueBlocked (s : Sched τ μ) (r : SyncRef τ μ) (t : τ) (p : Prio) :
    (s.setEffectivePriority t p).dequeueBlocked r t =
      (s.dequeueBlocked r t).setEffectivePriority t p := by
  unfold setEffectivePriority
  split_ifs with hq hq' hq'
  · rfl
  · exact absurd hq hq'
  · exact absurd hq' hq
  · rfl

/-- Moving a thread to its place in the queue it waits in leaves `waiting_for` as it was. -/
lemma requeue_waitingFor {r : SyncRef τ μ} (ht : s.waitingFor t = some r) :
    ((s.dequeueBlocked r t).enqueueBlocked r t).waitingFor = s.waitingFor := by
  simp only [enqueueBlocked, enqueueTcbSorted, dequeueBlocked]
  rw [update_idem, ← ht, update_eq_self]

lemma updateLink_sameWaits (s : Sched τ μ) (c : τ) (p : Prio) :
    SameWaits s (s.updateLink c p).1 := by
  unfold updateLink
  simp only [setEffectivePriority_waitingFor]
  rcases hwait : s.waitingFor c with _ | r
  · exact ⟨by simp, by simp, by simp, by simp⟩
  refine ⟨?_, ?_, ?_, ?_⟩
  · exact s.setEffectivePriority_basePrio c p
  · have hwait' : (s.setEffectivePriority c p).waitingFor c = some r := by simpa using hwait
    exact (requeue_waitingFor hwait').trans (s.setEffectivePriority_waitingFor c p)
  · exact s.setEffectivePriority_donatee c p
  · exact s.setEffectivePriority_mutexesHeld c p

lemma updateLink_effectivePrio (s : Sched τ μ) (c : τ) (p : Prio) :
    (s.updateLink c p).1.effectivePrio = update s.effectivePrio c p := by
  unfold updateLink
  simp only [setEffectivePriority_waitingFor]
  rcases s.waitingFor c with _ | r
  all_goals exact s.setEffectivePriority_effectivePrio c p

lemma updateLink_snd (s : Sched τ μ) (c : τ) (p : Prio) :
    (s.updateLink c p).2 = s.graph.waitsOn c := by
  unfold updateLink
  simp only [setEffectivePriority_waitingFor, graph]
  rcases s.waitingFor c with _ | r
  · rfl
  · simp [enqueueBlocked, enqueueTcbSorted, dequeueBlocked]

/-- One round of a propagation loop keeps the queues in order and changes one priority. -/
lemma Wf.updateLink (h : s.Wf) (c : τ) (p : Prio) :
    (s.updateLink c p).1.Wf ∧ (s.updateLink c p).1.graph = s.graph.setEff c p := by
  refine ⟨?_, (s.updateLink_sameWaits c p).graph_eq c p (s.updateLink_effectivePrio c p)⟩
  unfold Sched.updateLink
  simp only [setEffectivePriority_waitingFor]
  rcases hwait : s.waitingFor c with _ | r
  · exact h.setEffectivePriority hwait p
  -- The thread's own place is wrong until it is back in the queue, the others are in order.
  have hout : (s.dequeueBlocked r c).waitingFor c = none := by simp [Sched.dequeueBlocked]
  have hset := (h.dequeueBlocked hwait).setEffectivePriority hout p
  rw [← setEffectivePriority_dequeueBlocked] at hset
  refine hset.enqueueBlocked ?_ r
  simp [Sched.dequeueBlocked]

end Primitive

/-! ## The propagation loops -/

section Loops

variable [DecidableEq τ] [DecidableEq μ]

lemma propagateChangeLoop_sameWaits (n : ℕ) (s : Sched τ μ) (c : Option τ) :
    SameWaits s (propagateChangeLoop n s c) := by
  induction n generalizing s c with
  | zero => exact SameWaits.refl s
  | succ n ih =>
    rcases c with _ | c
    · exact SameWaits.refl s
    rw [propagateChangeLoop]
    split_ifs
    · exact SameWaits.refl s
    · exact (s.updateLink_sameWaits c _).trans (ih _ _)

variable [Fintype τ]

/-- The loop of `propagate_priority_change` is the walk along the donation edges. -/
lemma Wf.propagateChangeLoop (h : s.Wf) (n : ℕ) (c : Option τ) : (propagateChangeLoop n s c).Wf ∧
      (propagateChangeLoop n s c).graph = s.graph.propagate n c := by
  induction n generalizing s c with
  | zero => exact ⟨h, rfl⟩
  | succ n ih =>
    rcases c with _ | c
    · exact ⟨h, rfl⟩
    have hcalc : s.calcEffectivePriority c = s.graph.due c := h.calc_eq_due c
    rw [propagateChangeLoop, WaitGraph.propagate]
    by_cases heq : s.calcEffectivePriority c = s.effectivePrio c
    · have hdue : s.graph.eff c = s.graph.due c := heq.symm.trans hcalc
      rw [if_pos heq, if_pos hdue]
      exact ⟨h, rfl⟩
    · rw [if_neg heq, if_neg fun e => heq (hcalc.trans e.symm)]
      obtain ⟨hwf, hgraph⟩ := h.updateLink c (s.calcEffectivePriority c)
      obtain ⟨hwf', hgraph'⟩ := ih hwf (s.updateLink c (s.calcEffectivePriority c)).2
      refine ⟨hwf', ?_⟩
      rw [hgraph', hgraph, updateLink_snd, hcalc]

/-- While a single priority is passed down the chain, each link is due this priority, or has a higher
one already. -/
lemma Wf.raise_link (h : s.Wf) {c : τ} {p : Prio} (hraise : s.graph.RaisesTo p (some c)) :
    (p ≤ s.effectivePrio c ∧ s.calcEffectivePriority c = s.effectivePrio c) ∨
      (¬ p ≤ s.effectivePrio c ∧ s.calcEffectivePriority c = p ∧ p ≠ s.effectivePrio c ∧
        (s.updateLink c p).1.graph.RaisesTo p (s.updateLink c p).2) := by
  have hdue : s.calcEffectivePriority c = max (s.effectivePrio c) p :=
    (h.calc_eq_due c).trans (hraise.due c rfl)
  by_cases hle : p ≤ s.effectivePrio c
  · exact .inl ⟨hle, hdue.trans (max_eq_left hle)⟩
  have hlt := not_le.1 hle
  have hp : s.calcEffectivePriority c = p := hdue.trans (max_eq_right hlt.le)
  have hne : s.graph.eff c ≠ s.graph.due c := by
    rw [← h.calc_eq_due, hp]
    exact hlt.ne
  obtain ⟨-, -, hnext⟩ := WaitGraph.RaisesTo.leaves hraise hne
  rw [← h.calc_eq_due, hp, ← (h.updateLink c p).2, ← updateLink_snd s c p] at hnext
  exact .inr ⟨hle, hp, hlt.ne', hnext⟩

/-- The loop of `propagate_priority_increase` then does the same as that of
`propagate_priority_change`. -/
lemma Wf.propagateIncreaseLoop_eq (h : s.Wf) {c : Option τ} {p : Prio}
    (hraise : s.graph.RaisesTo p c) (n : ℕ) :
    propagateIncreaseLoop p n s c = Sched.propagateChangeLoop n s c := by
  induction n generalizing s c with
  | zero => rfl
  | succ n ih =>
    rcases c with _ | c
    · rfl
    rw [propagateIncreaseLoop, Sched.propagateChangeLoop]
    rcases h.raise_link hraise with ⟨hle, hcalc⟩ | ⟨hle, hcalc, hne, hnext⟩
    · rw [if_pos hle, if_pos hcalc]
    · rw [if_neg hle, hcalc, if_neg hne]
      exact ih (h.updateLink c p).1 hnext

/-- The queues are in order and every thread has the priority it is due. -/
structure Inherits (s : Sched τ μ) : Prop where
  wf : s.Wf
  balanced : s.graph.Balanced

/-- From a state in which only the donatee of a synchronisation point may have the wrong priority,
`propagate_priority_change` leads to one in which no thread has. -/
lemma Wf.propagatePriorityChange (h : s.Wf) {r : SyncRef τ μ}
    (hbal : s.graph.BalancedExcept (s.donatee r)) : (s.propagatePriorityChange r).Inherits := by
  obtain ⟨hwf, hgraph⟩ := h.propagateChangeLoop (Fintype.card τ + 1) (s.donatee r)
  refine ⟨hwf, ?_⟩
  rw [Sched.propagatePriorityChange, hgraph]
  exact hbal.stopsWithin.balanced hbal

end Loops

end Okl4Kernel.Sched
