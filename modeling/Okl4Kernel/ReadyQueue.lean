import Okl4Kernel.Syncpoint
import Okl4Kernel.Lib.TransitionSystem

/-!
# The ready queue represents the queued threads

A thread is linked on the ring of its effective priority or on no ring, and the bitmap holds the
priorities with a non-empty ring. The difficulty is that the key is mutable: a thread's effective
priority may change while it is queued, and the thread must then move to another ring. The
operations that change the key either move the thread (`set_effective_priority`) or assert that it
is not queued (`release_donatee`).
-/

namespace Okl4Kernel

open LinkedRing Function List TransitionSystem

/-- The rings spell the given lists, and every thread is on the ring of its effective priority. -/
structure Sched.Ready {τ μ : Type*} (s : Sched τ μ) (rings : Prio → List τ) : Prop where
  represents : s.prioQueue.Represents rings
  prio : ∀ {p t}, t ∈ rings p → s.effectivePrio t = p

/-- The ready queue is well formed. -/
def Sched.ReadyOk {τ μ : Type*} (s : Sched τ μ) : Prop := ∃ rings, s.Ready rings

/-- The operations on the ready queue and on the effective priorities of threads. -/
inductive ReadyOp (τ μ : Type*)
  | enqueue (t : τ)
  | dequeue (t : τ)
  | setBasePriority (t : τ) (prio : Prio)
  | setEffectivePriority (t : τ) (prio : Prio)
  | releaseDonatee (r : SyncRef τ μ)

namespace Sched

variable {τ μ : Type*} {s : Sched τ μ} {rings : Prio → List τ}

lemma Ready.mem_ring (h : s.Ready rings) {t : τ} (ht : s.prioQueue.isQueued t = true) :
    t ∈ rings (s.effectivePrio t) := by
  obtain ⟨p, hp⟩ := (h.represents.queued t).1 ht
  rwa [h.prio hp]

lemma Ready.mem_iff (h : s.Ready rings) {p : Prio} {t : τ} :
    t ∈ rings p ↔ s.prioQueue.isQueued t = true ∧ s.effectivePrio t = p := by
  constructor
  · intro ht
    exact ⟨(h.represents.queued t).2 ⟨p, ht⟩, h.prio ht⟩
  · rintro ⟨ht, rfl⟩
    exact h.mem_ring ht

/-- The state with the ready queue that `init` finds. -/
def withEmptyQueue (s : Sched τ μ) : Sched τ μ := { s with prioQueue := PrioQueue.init }

lemma withEmptyQueue_readyOk (s : Sched τ μ) : s.withEmptyQueue.ReadyOk :=
  ⟨fun _ => [], PrioQueue.init_represents, fun h => absurd h not_mem_nil⟩

section Steps

variable [DecidableEq τ] {t : τ}

/-- Enqueueing a thread puts it at the end of the ring of its priority. -/
lemma Ready.enqueue (h : s.Ready rings) (ht : s.prioQueue.isQueued t = false) : (s.enqueue t).Ready
      (update rings (s.effectivePrio t) (rings (s.effectivePrio t) ++ [t])) where
  represents := h.represents.enqueue ht (s.effectivePrio t)
  prio := by
    intro p u hu
    by_cases hp : p = s.effectivePrio t
    · subst hp
      rw [update_self, mem_append, mem_singleton] at hu
      rcases hu with hu | rfl
      · exact h.prio hu
      · rfl
    · rw [update_of_ne hp] at hu
      exact h.prio hu

lemma Ready.dequeue (h : s.Ready rings) (ht : s.prioQueue.isQueued t = true) : (s.dequeue t).Ready
      (update rings (s.effectivePrio t) ((rings (s.effectivePrio t)).erase t)) where
  represents := h.represents.dequeue (h.mem_ring ht)
  prio := by
    intro p u hu
    by_cases hp : p = s.effectivePrio t
    · subst hp
      rw [update_self] at hu
      exact h.prio (mem_of_mem_erase hu)
    · rw [update_of_ne hp] at hu
      exact h.prio hu

lemma isQueued_dequeue_self (s : Sched τ μ) (t : τ) : (s.dequeue t).prioQueue.isQueued t = false :=
  Links.dequeue_not_isQueued _ _ _

lemma ReadyOk.isQueued_enqueue (h : s.ReadyOk) (ht : s.prioQueue.isQueued t = false)
    (u : τ) : (s.enqueue t).prioQueue.isQueued u = true ↔ u = t ∨ s.prioQueue.isQueued u = true := by
  obtain ⟨rings, h⟩ := h
  rw [(h.enqueue ht).represents.queued, h.represents.queued, exists_update_iff rings fun _ l => u ∈ l,
    mem_append, mem_singleton]
  constructor
  · rintro ((hp | rfl) | ⟨p, -, hp⟩)
    · exact .inr ⟨_, hp⟩
    · exact .inl rfl
    · exact .inr ⟨p, hp⟩
  · rintro (rfl | ⟨p, hp⟩)
    · exact .inl (.inr rfl)
    by_cases hpt : p = s.effectivePrio t
    · exact .inl (.inl (hpt ▸ hp))
    · exact .inr ⟨p, hpt, hp⟩

lemma ReadyOk.isQueued_dequeue (h : s.ReadyOk) (ht : s.prioQueue.isQueued t = true)
    (u : τ) : (s.dequeue t).prioQueue.isQueued u = true ↔ u ≠ t ∧ s.prioQueue.isQueued u = true := by
  obtain ⟨rings, h⟩ := h
  have hnodup := (h.represents.ring (s.effectivePrio t)).nodup
  rw [(h.dequeue ht).represents.queued, h.represents.queued, exists_update_iff rings fun _ l => u ∈ l,
    hnodup.mem_erase_iff]
  constructor
  · rintro (⟨hne, hp⟩ | ⟨p, hpt, hp⟩)
    · exact ⟨hne, _, hp⟩
    · refine ⟨?_, p, hp⟩
      rintro rfl
      exact hpt (h.prio hp).symm
  · rintro ⟨hne, p, hp⟩
    by_cases hpt : p = s.effectivePrio t
    · exact .inl ⟨hne, hpt ▸ hp⟩
    · exact .inr ⟨p, hpt, hp⟩

lemma Ready.writeEffectivePrio (h : s.Ready rings)
    (ht : s.prioQueue.isQueued t = false) (p : Prio) : (s.writeEffectivePrio t p).Ready rings where
  represents := h.represents
  prio := by
    intro p' u hu
    have hut : u ≠ t := by
      rintro rfl
      exact h.represents.notMem ht p' hu
    exact (update_of_ne hut _ _).trans (h.prio hu)

lemma ReadyOk.setEffectivePriority (h : s.ReadyOk) (t : τ) (p : Prio) :
    (s.setEffectivePriority t p).ReadyOk := by
  obtain ⟨rings, h⟩ := h
  unfold Sched.setEffectivePriority
  split_ifs with ht
  · have hout := s.isQueued_dequeue_self t
    exact ⟨_, ((h.dequeue ht).writeEffectivePrio hout p).enqueue hout⟩
  · exact ⟨rings, h.writeEffectivePrio (by simpa using ht) p⟩

/-- `release_donatee` keeps the ready queue well formed when the donatee is not queued. -/
lemma ReadyOk.releaseDonatee [DecidableEq μ] (h : s.ReadyOk) {r : SyncRef τ μ} {d : τ}
    (hd : s.donatee r = some d) (hqueued : s.prioQueue.isQueued d = false) :
    (s.releaseDonatee r).ReadyOk := by
  obtain ⟨rings, h⟩ := h
  unfold Sched.releaseDonatee
  simp only [hd]
  rcases s.blockedHead r with _ | head
  · exact ⟨rings, { h with }⟩
  dsimp only
  split_ifs
  · have hwrite := h.writeEffectivePrio hqueued (s.calcEffectivePriority d)
    exact ⟨rings, { hwrite with }⟩
  · exact ⟨rings, { h with }⟩

end Steps

/-! ## Operations that rearrange the ready queue -/

/-- The ready queue stays well formed and the same threads are queued. -/
def Requeued (s s' : Sched τ μ) : Prop :=
  s.ReadyOk → s'.ReadyOk ∧ ∀ t, s'.prioQueue.isQueued t = s.prioQueue.isQueued t

lemma Requeued.trans {s s' s'' : Sched τ μ} (h : Requeued s s') (h' : Requeued s' s'') :
    Requeued s s'' := by
  intro hs
  obtain ⟨hs', hq⟩ := h hs
  obtain ⟨hs'', hq'⟩ := h' hs'
  exact ⟨hs'', fun t => (hq' t).trans (hq t)⟩

/-- What neither touches the ready queue nor the effective priorities. -/
lemma requeued_of_eq {s s' : Sched τ μ} (hqueue : s'.prioQueue = s.prioQueue)
    (hprio : s'.effectivePrio = s.effectivePrio) : Requeued s s' := by
  rintro ⟨rings, h⟩
  refine ⟨⟨rings, hqueue ▸ h.represents, fun ht => ?_⟩, fun t => by rw [hqueue]⟩
  rw [hprio]
  exact h.prio ht

section Rearrange

variable [DecidableEq τ]

lemma requeued_setEffectivePriority (s : Sched τ μ) (t : τ) (p : Prio) :
    Requeued s (s.setEffectivePriority t p) := by
  intro hs
  refine ⟨hs.setEffectivePriority t p, fun u => ?_⟩
  unfold Sched.setEffectivePriority
  split_ifs with ht
  · -- The thread leaves the queue and comes back.
    obtain ⟨rings, h⟩ := hs
    have hout := s.isQueued_dequeue_self t
    have hmid : ((s.dequeue t).writeEffectivePrio t p).ReadyOk :=
      ⟨_, (h.dequeue ht).writeEffectivePrio hout p⟩
    have hdeq : ((s.dequeue t).writeEffectivePrio t p).prioQueue.isQueued u = true ↔
        u ≠ t ∧ s.prioQueue.isQueued u = true := ReadyOk.isQueued_dequeue ⟨rings, h⟩ ht u
    rw [Bool.eq_iff_iff, hmid.isQueued_enqueue hout, hdeq]
    by_cases hut : u = t
    · subst hut
      simp [ht]
    · simp [hut]
  · rfl

lemma requeued_setBasePriority (s : Sched τ μ) (t : τ) (p : Prio) :
    Requeued s (s.setBasePriority t p) := by
  have hbase : Requeued s (s.writeBasePrio t p) := requeued_of_eq rfl rfl
  unfold Sched.setBasePriority
  dsimp only
  split_ifs
  · exact hbase
  · exact hbase.trans (requeued_setEffectivePriority _ _ _)

variable [DecidableEq μ]

lemma requeued_updateLink (s : Sched τ μ) (chain : τ) (p : Prio) :
    Requeued s (s.updateLink chain p).1 := by
  have hset := requeued_setEffectivePriority s chain p
  unfold updateLink
  dsimp only
  rcases (s.setEffectivePriority chain p).waitingFor chain with _ | next
  · exact hset
  · exact hset.trans (requeued_of_eq rfl rfl)

lemma requeued_propagateChangeLoop (n : ℕ) (s : Sched τ μ) (chain : Option τ) :
    Requeued s (propagateChangeLoop n s chain) := by
  induction n generalizing s chain with
  | zero => exact requeued_of_eq rfl rfl
  | succ n ih =>
    rcases chain with _ | chain
    · exact requeued_of_eq rfl rfl
    rw [propagateChangeLoop]
    split_ifs
    · exact requeued_of_eq rfl rfl
    · exact (requeued_updateLink s chain _).trans (ih _ _)

variable [Fintype τ]

lemma requeued_refresh (s : Sched τ μ) (r : SyncRef τ μ) (t : τ) : Requeued s (s.refresh r t) := by
  have hblocked : Requeued s ((s.dequeueBlocked r t).enqueueBlocked r t) := requeued_of_eq rfl rfl
  unfold refresh
  dsimp only
  split
  · exact hblocked
  · exact hblocked.trans (requeued_propagateChangeLoop _ _ _)

lemma requeued_setPriority (s : Sched τ μ) (t : τ) (p : Prio) : Requeued s (s.setPriority t p) := by
  have hbase := requeued_setBasePriority s t p
  unfold setPriority
  dsimp only
  split
  · exact hbase
  · exact hbase.trans (requeued_refresh _ _ _)

end Rearrange

/-! ## All sequences of operations -/

variable [DecidableEq τ] [DecidableEq μ]

/-- Perform an operation, if the assertions of the source hold. -/
def readyStep (s : Sched τ μ) : ReadyOp τ μ → Option (Sched τ μ)
  | .enqueue t => if s.prioQueue.isQueued t = false then some (s.enqueue t) else none
  | .dequeue t => if s.prioQueue.isQueued t = true then some (s.dequeue t) else none
  | .setBasePriority t prio => some (s.setBasePriority t prio)
  | .setEffectivePriority t prio => some (s.setEffectivePriority t prio)
  | .releaseDonatee r =>
    match s.donatee r with
    | none => none
    | some d =>
      if s.waitingFor d = none ∧ s.headAtMost r d ∧ s.prioQueue.isQueued d = false then
        some (s.releaseDonatee r)
      else none

lemma ReadyOk.readyStep {s s' : Sched τ μ} (h : s.ReadyOk) {op : ReadyOp τ μ}
    (hstep : s.readyStep op = some s') : s'.ReadyOk := by
  cases op with
  | enqueue t =>
    obtain ⟨ht, ⟨⟩⟩ := Option.ite_none_right_eq_some.1 hstep
    obtain ⟨rings, h⟩ := h
    exact ⟨_, h.enqueue ht⟩
  | dequeue t =>
    obtain ⟨ht, ⟨⟩⟩ := Option.ite_none_right_eq_some.1 hstep
    obtain ⟨rings, h⟩ := h
    exact ⟨_, h.dequeue ht⟩
  | setBasePriority t prio =>
    cases hstep
    exact (requeued_setBasePriority s t prio h).1
  | setEffectivePriority t prio =>
    cases hstep
    exact h.setEffectivePriority t prio
  | releaseDonatee r =>
    rw [Sched.readyStep] at hstep
    rcases hd : s.donatee r with _ | d
    · simp [hd] at hstep
    · rw [hd] at hstep
      obtain ⟨⟨-, -, hqueued⟩, ⟨⟩⟩ := Option.ite_none_right_eq_some.1 hstep
      exact h.releaseDonatee hd hqueued

/-- The representation of the ready queue: whatever operations are performed on whatever threads,
the ring of each priority is a ring, a thread is linked on the ring of priority `p` exactly if it
is marked as queued and has effective priority `p`, and then it is on one ring only and only once;
bit `p` of the bitmap is set exactly if ring `p` is not empty, a bit of the index word exactly if
its word is not zero; and `get_highest_priority` returns the greatest effective priority of a
queued thread, or `-1` exactly if no thread is queued. -/
theorem readyQueue_represents (s₀ : Sched τ μ) (ops : List (ReadyOp τ μ)) (s : Sched τ μ)
    (hrun : run readyStep s₀.withEmptyQueue ops = some s) : ∃ rings : Prio → List τ,
      (∀ p, s.prioQueue.heads p = (rings p).head? ∧ IsRing s.prioQueue.readyList (rings p)) ∧
      (∀ p t, t ∈ rings p ↔ s.prioQueue.isQueued t = true ∧ s.effectivePrio t = p) ∧
      (∀ p t, t ∈ rings p → (rings p).count t = 1 ∧ ∀ p', t ∈ rings p' → p' = p) ∧
      (∀ p : Prio, s.prioQueue.bitmap.bit p = true ↔ s.prioQueue.heads p ≠ none) ∧
      (∀ i < bitsWord, s.prioQueue.bitmap.index.getLsbD i = true ↔
        s.prioQueue.bitmap.words i ≠ 0) ∧
      (s.prioQueue.getHighestPriority = -1 ↔ ∀ t, s.prioQueue.isQueued t = false) ∧
      ∀ t, s.prioQueue.isQueued t = true →
        ∃ p : Prio, s.prioQueue.getHighestPriority = (p : ℕ) ∧
          IsGreatest {p | ∃ u, s.prioQueue.isQueued u = true ∧ s.effectivePrio u = p} p := by
  obtain ⟨rings, h⟩ : s.ReadyOk :=
    run_invariant (fun _ _ _ h hstep => h.readyStep hstep) s₀.withEmptyQueue_readyOk hrun
  have hrep := h.represents
  refine ⟨rings, fun p => ⟨hrep.head p, hrep.ring p⟩, fun p t => h.mem_iff, ?_, ?_,
    hrep.consistent, hrep.getHighestPriority_eq_neg_one, ?_⟩
  · intro p t ht
    exact ⟨count_eq_one_of_mem (hrep.ring p).nodup ht, fun p' ht' => hrep.disjoint ht' ht⟩
  · intro p
    rw [hrep.bit p, hrep.head p, ne_eq, head?_eq_none_iff]
    constructor
    · rintro ⟨p', hp', hne⟩
      rwa [Fin.ext hp'] at hne
    · intro hne
      exact ⟨p, rfl, hne⟩
  · intro t ht
    obtain ⟨p, hp, hmem, hupper⟩ := hrep.getHighestPriority_isGreatest ht
    refine ⟨p, hp, ?_, ?_⟩
    · obtain ⟨u, hu⟩ := exists_mem_of_ne_nil _ hmem
      exact ⟨u, h.mem_iff.1 hu⟩
    · rintro p' ⟨u, hu⟩
      exact hupper (ne_nil_of_mem (h.mem_iff.2 hu))

/-- A queued thread changes its priority: it is then on the ring of the new priority, once, and the
ring of the old priority is empty. -/
theorem readyQueue_represents_move : ∃ s : Sched (Fin 2) Unit,
      run readyStep (init fun _ => 40).withEmptyQueue
        [.enqueue 0, .setEffectivePriority 0 200] = some s ∧
      (s.prioQueue.getHighestPriority = -1 ↔ ∀ t, s.prioQueue.isQueued t = false) ∧
      ∃ rings : Prio → List (Fin 2), IsRing s.prioQueue.readyList (rings 200) ∧
        (rings 200).count 0 = 1 ∧ rings 40 = [] := by
  refine ⟨_, rfl, ?_⟩
  obtain ⟨rings, hrings, hmem, honce, -, -, hhighest, -⟩ := readyQueue_represents
    (init fun _ => 40 : Sched (Fin 2) Unit) [.enqueue 0, .setEffectivePriority 0 200] _ rfl
  have hin : 0 ∈ rings 200 := (hmem 200 0).2 ⟨by decide, by decide⟩
  refine ⟨hhighest, rings, (hrings 200).2, (honce 200 0 hin).1, ?_⟩
  refine eq_nil_iff_forall_not_mem.2 fun t ht => ?_
  revert t
  simp only [hmem]
  decide

end Sched

end Okl4Kernel
