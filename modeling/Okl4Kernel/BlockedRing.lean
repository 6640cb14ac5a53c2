import Okl4Kernel.PropagationTermination

/-!
# The rings of blocked threads

In memory, the threads that are blocked on a synchronisation point form a ring of `blocked_list`
pointers, which is entered at `blocked_head`. `RingSched` has these pointers where `Sched` has
lists. The functions that change the rings are those of the source: `enqueue_tcb_sorted` walks
along a ring to the place of a thread, and `dequeue_blocked` unlinks a thread. The other functions
read no more of the rings than their heads, and are taken from `Sched` (`lift`).

A state with rings represents one with lists (`Represents`), and every operation keeps this
(`Represents.ringStep`).
-/

namespace Okl4Kernel

open LinkedRing Function List Option Sched SortedQueue Fintype

/-- Priorities, ready queue and synchronisation points, with the pointers of the blocked threads. -/
structure RingSched (τ μ : Type*) where
  /-- `base_prio` of each thread. -/
  basePrio : τ → Prio
  /-- `effective_prio` of each thread. -/
  effectivePrio : τ → Prio
  /-- The scheduler's `prio_queue`. -/
  prioQueue : PrioQueue τ
  /-- `waiting_for` of each thread. -/
  waitingFor : τ → Option (SyncRef τ μ)
  /-- `donatee` of each synchronisation point. -/
  donatee : SyncRef τ μ → Option τ
  /-- The mutexes on the ring of each thread's `mutexes_head`, in ring order. -/
  mutexesHeld : τ → List μ
  /-- `blocked_list` of each thread. -/
  blockedList : Links τ
  /-- `blocked_head` of each synchronisation point. -/
  blockedHead : SyncRef τ μ → Option τ

namespace RingSched

variable {τ μ : Type*}

/-- The state with lists in the place of the rings. -/
def withLists (p : RingSched τ μ) (blocked : SyncRef τ μ → List τ) : Sched τ μ where
  basePrio := p.basePrio
  effectivePrio := p.effectivePrio
  prioQueue := p.prioQueue
  waitingFor := p.waitingFor
  blocked := blocked
  donatee := p.donatee
  mutexesHeld := p.mutexesHeld

/-- The state, with just the heads of the rings as lists. -/
def heads (p : RingSched τ μ) : Sched τ μ := p.withLists fun r => (p.blockedHead r).toList

/-- A function that does not write the rings, and reads only their heads. -/
def lift (f : Sched τ μ → Sched τ μ) (p : RingSched τ μ) : RingSched τ μ where
  basePrio := (f p.heads).basePrio
  effectivePrio := (f p.heads).effectivePrio
  prioQueue := (f p.heads).prioQueue
  waitingFor := (f p.heads).waitingFor
  donatee := (f p.heads).donatee
  mutexesHeld := (f p.heads).mutexesHeld
  blockedList := p.blockedList
  blockedHead := p.blockedHead

/-- The initial state: all rings are empty. -/
def init (basePrio : τ → Prio) : RingSched τ μ where
  basePrio := basePrio
  effectivePrio := basePrio
  prioQueue := PrioQueue.init
  waitingFor _ := none
  donatee
    | .send t => some t
    | .recv t => some t
    | .mutex _ => none
  mutexesHeld _ := []
  blockedList := Links.empty
  blockedHead _ := none

section

variable [Fintype τ] [DecidableEq τ] [DecidableEq μ] (p : RingSched τ μ) (r : SyncRef τ μ)

/-- The threads of a ring, in the order of the `next` pointers. -/
def queue : List τ :=
  match p.blockedHead r with
  | none => []
  | some first => p.blockedList.listFrom first (card τ) first

/-! ## Blocking on a synchronisation point -/

variable (t : τ)

/-- `enqueue_tcb_sorted`: the ring is searched for the first thread of lower priority, and the thread
is linked in before it. If there is none, the search comes back to the head. -/
def enqueueTcbSorted : RingSched τ μ :=
  match p.blockedHead r with
  | none =>
    { p with
      blockedList :=
        { next := update p.blockedList.next t (some t)
          prev := update p.blockedList.prev t (some t) }
      blockedHead := update p.blockedHead r (some t) }
  | some first =>
    let head := p.blockedList.findFrom (fun u => ¬ p.effectivePrio t ≤ p.effectivePrio u) first
      (card τ) first
    { p with
      blockedList := p.blockedList.insertBefore head t
      blockedHead :=
        if p.effectivePrio first < p.effectivePrio t then
          update p.blockedHead r (some t)
        else p.blockedHead }

/-- `enqueue_blocked`. -/
def enqueueBlocked : RingSched τ μ :=
  let p := p.enqueueTcbSorted r t
  { p with waitingFor := update p.waitingFor t (some r) }

/-- `dequeue_blocked`. -/
def dequeueBlocked : RingSched τ μ :=
  let (links, head) := p.blockedList.dequeue (p.blockedHead r) t
  { p with
    blockedList := links
    blockedHead := update p.blockedHead r head
    waitingFor := update p.waitingFor t none }

/-- What both propagation loops do to one link of the chain. -/
def updateLink (chain : τ) (prio : Prio) : RingSched τ μ × Option τ :=
  let p := p.lift (·.setEffectivePriority chain prio)
  match p.waitingFor chain with
  | none => (p, none)
  | some next =>
    let p := (p.dequeueBlocked next chain).enqueueBlocked next chain
    (p, p.donatee next)

/-- The loop of `propagate_priority_increase`, cut off after `n` rounds. -/
def propagateIncreaseLoop (prio : Prio) : ℕ → RingSched τ μ → Option τ → RingSched τ μ
  | 0, p, _ => p
  | _ + 1, p, none => p
  | n + 1, p, some chain =>
    if prio ≤ p.effectivePrio chain then p
    else
      let link := p.updateLink chain prio
      propagateIncreaseLoop prio n link.1 link.2

/-- The loop of `propagate_priority_change`, cut off after `n` rounds. -/
def propagateChangeLoop : ℕ → RingSched τ μ → Option τ → RingSched τ μ
  | 0, p, _ => p
  | _ + 1, p, none => p
  | n + 1, p, some chain =>
    let prio := p.heads.calcEffectivePriority chain
    if prio = p.effectivePrio chain then p
    else
      let link := p.updateLink chain prio
      propagateChangeLoop n link.1 link.2

/-- `propagate_priority_increase`. -/
def propagatePriorityIncrease (prio : Prio) : RingSched τ μ :=
  propagateIncreaseLoop prio (card τ + 1) p (p.donatee r)

/-- `propagate_priority_change`. -/
def propagatePriorityChange : RingSched τ μ :=
  propagateChangeLoop (card τ + 1) p (p.donatee r)

/-- `syncpoint_t::block`. -/
def block : RingSched τ μ :=
  let p := p.enqueueBlocked r t
  match p.donatee r with
  | none => p
  | some _ => p.propagatePriorityIncrease r (p.effectivePrio t)

/-- `syncpoint_t::unblock`. -/
def unblock : RingSched τ μ :=
  let p := p.dequeueBlocked r t
  match p.donatee r with
  | none => p
  | some _ => p.propagatePriorityChange r

/-- `syncpoint_t::refresh`. -/
def refresh : RingSched τ μ :=
  let p := (p.dequeueBlocked r t).enqueueBlocked r t
  match p.donatee r with
  | none => p
  | some _ => p.propagatePriorityChange r

/-- `scheduler_t::set_priority`. -/
def setPriority (prio : Prio) : RingSched τ μ :=
  let p := p.lift (·.setBasePriority t prio)
  match p.waitingFor t with
  | none => p
  | some r => p.refresh r t

/-- `tcb_t::remove_dependency`. -/
def removeDependency : RingSched τ μ :=
  match p.waitingFor t with
  | none => p
  | some r => p.unblock r t

/-! ## Mutexes and removing a thread -/

/-- `mutex_t::release`. -/
def release (m : μ) : RingSched τ μ × Option τ :=
  match p.donatee (.mutex m) with
  | none => (p, none)
  | some holder =>
    match p.blockedHead (.mutex m) with
    | none => (p.lift fun s => (s.dequeueHeld m holder).releaseDonatee (.mutex m), none)
    | some newHolder =>
      let p := p.lift fun s => (s.dequeueHeld m holder).releaseDonatee (.mutex m)
      let p := p.lift (·.enqueueHeld m newHolder)
      let p := p.unblock (.mutex m) newHolder
      (p.lift (·.becomeDonatee (.mutex m) newHolder), some newHolder)

/-- The loops of `cancel_ipcs`. -/
def unblockAll (r : SyncRef τ μ) : ℕ → RingSched τ μ → RingSched τ μ
  | 0, p => p
  | n + 1, p =>
    match p.blockedHead r with
    | none => p
    | some head => unblockAll r n ((p.unblock r head).lift (·.enqueue head))

/-- The loop of `release_mutexes`. -/
def releaseMutexes (t : τ) : ℕ → RingSched τ μ → RingSched τ μ
  | 0, p => p
  | n + 1, p =>
    match (p.mutexesHeld t).head? with
    | none => p
    | some m =>
      match p.release m with
      | (p, none) => releaseMutexes t n p
      | (p, some newHolder) => releaseMutexes t n (p.lift (·.enqueue newHolder))

/-- What `tcb_t::delete_tcb` does to priorities, ready queue and synchronisation points. -/
def removeThread : RingSched τ μ :=
  let p := p.removeDependency t
  let p := unblockAll (.send t) (p.queue (.send t)).length p
  let p := unblockAll (.recv t) (p.queue (.recv t)).length p
  let p := p.lift fun s => if s.prioQueue.isQueued t then s.dequeue t else s
  let p := releaseMutexes t (p.mutexesHeld t).length p
  p.lift (·.resetPriority t)

/-- Perform an operation, if the assertions of the source hold. -/
def ringStep : SyncOp τ μ → Option (RingSched τ μ)
  | .block r t => if p.waitingFor t = none then some (p.block r t) else none
  | .unblock r t => if p.waitingFor t = some r then some (p.unblock r t) else none
  | .refresh r t => if p.waitingFor t = some r then some (p.refresh r t) else none
  | .acquire m t =>
    if p.waitingFor t = none ∧
        (p.donatee (.mutex m) = none → p.heads.headAtMost (.mutex m) t) then
      some (p.lift fun s => (s.acquire m t).1)
    else none
  | .setHolder m t =>
    if p.donatee (.mutex m) = none ∧ p.blockedHead (.mutex m) = none then
      some (p.lift (·.setHolder m t))
    else none
  | .release m =>
    match p.donatee (.mutex m) with
    | none => none
    | some holder =>
      if p.waitingFor holder = none ∧ p.prioQueue.isQueued holder = false then
        some (p.release m).1
      else none
  | .setPriority t prio => some (p.setPriority t prio)
  | .removeThread t => some (p.removeThread t)

end

/-! ## Rings represent lists -/

/-- The rings of a state spell the lists of another, which is the same otherwise. -/
structure Represents (p : RingSched τ μ) (s : Sched τ μ) : Prop where
  fields : s = p.withLists s.blocked
  ring : ∀ r, IsRing p.blockedList (s.blocked r)
  head : ∀ r, p.blockedHead r = (s.blocked r).head?
  mem_blocked : ∀ {r t}, t ∈ s.blocked r ↔ s.waitingFor t = some r

section Represents

variable {p : RingSched τ μ} {s : Sched τ μ}
variable {r : SyncRef τ μ} {t : τ}

namespace Represents

section

variable (h : p.Represents s)
include h

lemma effectivePrio : s.effectivePrio = p.effectivePrio :=
  congrArg Sched.effectivePrio h.fields

lemma waitingFor : s.waitingFor = p.waitingFor :=
  congrArg Sched.waitingFor h.fields

lemma donatee : s.donatee = p.donatee := congrArg Sched.donatee h.fields

lemma mutexesHeld : s.mutexesHeld = p.mutexesHeld :=
  congrArg Sched.mutexesHeld h.fields

lemma prioQueue : s.prioQueue = p.prioQueue :=
  congrArg Sched.prioQueue h.fields

lemma blockedHead (r : SyncRef τ μ) : s.blockedHead r = p.blockedHead r :=
  (h.head r).symm

lemma eq_of_mem {r r' : SyncRef τ μ} (hr : t ∈ s.blocked r) (hr' : t ∈ s.blocked r') : r = r' :=
  some.inj ((h.mem_blocked.1 hr).symm.trans (h.mem_blocked.1 hr'))

end

end Represents

lemma Represents.queue [Fintype τ] [DecidableEq τ] (h : p.Represents s) (r : SyncRef τ μ) :
    p.queue r = s.blocked r := by
  have hring := h.ring r
  rw [RingSched.queue, h.head r]
  rcases hlist : s.blocked r with _ | ⟨first, rest⟩
  · rfl
  rw [hlist] at hring
  have hlength : rest.length < card τ := by
    have hcard := hring.nodup.length_le_card
    rwa [length_cons] at hcard
  have hring' : IsRing p.blockedList ([] ++ first :: rest) := hring
  exact hring'.listFrom_eq rfl hlength

/-! ### Functions that read only the heads -/

/-- The function does not write the lists, reads only their heads, and does not write `waiting_for`. -/
structure ReadsHeads (f : Sched τ μ → Sched τ μ) : Prop where
  lists : ∀ (s : Sched τ μ) (blocked : SyncRef τ μ → List τ),
    (∀ r, (blocked r).head? = s.blockedHead r) →
      f { s with blocked := blocked } = { f s with blocked := blocked }
  waitingFor : ∀ s, (f s).waitingFor = s.waitingFor

/-- Such a function does the same with rings. -/
lemma Represents.lift (h : p.Represents s) {f : Sched τ μ → Sched τ μ} (hf : ReadsHeads f) :
    (p.lift f).Represents (f s) := by
  have hheads : ∀ r, (s.blocked r).head? = p.heads.blockedHead r := by
    intro r
    rw [← h.head r]
    exact head?_toList.symm
  have hfs : f s = { f p.heads with blocked := s.blocked } := by
    rw [← hf.lists p.heads s.blocked hheads]
    exact congrArg f h.fields
  have hblocked : (f s).blocked = s.blocked := by rw [hfs]
  refine ⟨?_, fun r => ?_, fun r => ?_, fun {r t} => ?_⟩
  · rw [hblocked]
    exact hfs
  · rw [hblocked]
    exact h.ring r
  · rw [hblocked]
    exact h.head r
  · rw [hblocked, hf.waitingFor]
    exact h.mem_blocked

/-! ### Linking and unlinking -/

variable [DecidableEq τ] [DecidableEq μ]

/-- A step that moves one thread into or out of one list. -/
lemma Represents.of_update (h : p.Represents s) {p' : RingSched τ μ} {s' : Sched τ μ}
    {queue : List τ} {w : Option (SyncRef τ μ)} (hfields : s' = p'.withLists s'.blocked)
    (hblocked : s'.blocked = update s.blocked r queue)
    (hwaiting : s'.waitingFor = update s.waitingFor t w) (hring : IsRing p'.blockedList queue)
    (hhead : p'.blockedHead = update p.blockedHead r queue.head?)
    (hframe : ∀ u, u ∉ s.blocked r → u ≠ t → p'.blockedList.next u =
      p.blockedList.next u ∧ p'.blockedList.prev u = p.blockedList.prev u)
    (ht : ∀ r', r' ≠ r → t ∉ s.blocked r') (hw : ∀ r', w = some r' ↔ r' = r ∧ t ∈ queue)
    (hmem : ∀ u, u ≠ t → (u ∈ queue ↔ u ∈ s.blocked r)) : p'.Represents s' := by
  refine ⟨hfields, fun r' => ?_, fun r' => ?_, fun {r' u} => ?_⟩
  · rw [hblocked]
    by_cases hr : r' = r
    · subst hr
      rwa [update_self]
    rw [update_of_ne hr]
    -- The other rings are not touched.
    have hsame : ∀ u ∈ s.blocked r', p'.blockedList.next u = p.blockedList.next u ∧
        p'.blockedList.prev u = p.blockedList.prev u := fun u hu =>
      hframe u (fun hur => hr (h.eq_of_mem hu hur)) fun e => ht r' hr (e ▸ hu)
    exact (h.ring r').congr (fun u hu => (hsame u hu).1) fun u hu => (hsame u hu).2
  · rw [hblocked, hhead]
    by_cases hr : r' = r
    · subst hr
      rw [update_self, update_self]
    · rw [update_of_ne hr, update_of_ne hr]
      exact h.head r'
  · rw [hblocked, hwaiting]
    by_cases hut : u = t
    · subst hut
      rw [update_self, hw]
      by_cases hr : r' = r
      · subst hr
        rw [update_self]
        exact (and_iff_right rfl).symm
      · rw [update_of_ne hr]
        exact iff_of_false (ht r' hr) fun hu => hr hu.1
    · rw [update_of_ne hut]
      by_cases hr : r' = r
      · subst hr
        rw [update_self, hmem u hut]
        exact h.mem_blocked
      · rw [update_of_ne hr]
        exact h.mem_blocked

lemma Represents.dequeueBlocked (h : p.Represents s) (ht : s.waitingFor t = some r) :
    (p.dequeueBlocked r t).Represents (s.dequeueBlocked r t) := by
  have hmem := h.mem_blocked.2 ht
  obtain ⟨as, bs, -, hlist, herase⟩ := exists_erase_eq hmem
  have hring := h.ring r
  rw [hlist] at hring
  obtain ⟨hring', hhead'⟩ := hring.dequeue
  rw [← hlist, ← h.head r, ← herase] at hring' hhead'
  refine h.of_update ?_ rfl rfl hring' (congrArg (update _ r) hhead') (fun u hu _ => ?_)
    (fun r' hr hu => hr (h.eq_of_mem hu hmem)) (fun r' => ?_) fun u hut => mem_erase_of_ne hut
  · rw [Sched.dequeueBlocked, h.waitingFor]
    exact congrArg (fun s' : Sched τ μ => ({ s' with
      blocked := update s.blocked r ((s.blocked r).erase t)
      waitingFor := update p.waitingFor t none } : Sched τ μ)) h.fields
  · rw [hlist] at hu
    exact hring.dequeue_of_notMem _ hu
  · exact iff_of_false (by simp) fun hu => (h.ring r).nodup.not_mem_erase hu.2

variable [Fintype τ]

/-- `enqueue_tcb_sorted` on the ring of a list: the result is the ring of the list in which the
thread stands before the first one of lower priority. -/
lemma Represents.enqueueTcbSorted_ring (h : p.Represents s) (ht : t ∉ s.blocked r) :
    IsRing (p.enqueueTcbSorted r t).blockedList
        (insert s.effectivePrio t (s.blocked r)) ∧
      (p.enqueueTcbSorted r t).blockedHead = update p.blockedHead r
        (insert s.effectivePrio t (s.blocked r)).head? ∧
      ∀ u, u ∉ s.blocked r → u ≠ t →
        (p.enqueueTcbSorted r t).blockedList.next u = p.blockedList.next u ∧
          (p.enqueueTcbSorted r t).blockedList.prev u = p.blockedList.prev u := by
  have hring := h.ring r
  unfold RingSched.enqueueTcbSorted
  rw [h.head r, h.effectivePrio]
  rcases hlist : s.blocked r with _ | ⟨first, rest⟩
  · refine ⟨⟨nodup_singleton t, isChain_pair.2 ?_⟩, rfl, fun u _ hut => ?_⟩
    · exact ⟨update_self .., update_self ..⟩
    · exact ⟨update_of_ne hut .., update_of_ne hut ..⟩
  · rw [hlist] at hring ht
    have hlength : rest.length < card τ := by
      have hcard := hring.nodup.length_le_card
      rwa [length_cons] at hcard
    have hring' : IsRing p.blockedList ([] ++ first :: rest) := hring
    obtain ⟨hinsert, hframe⟩ := hring.insertBefore_find
      (fun u => decide ¬ p.effectivePrio t ≤ p.effectivePrio u) ht
    rw [← hring'.findFrom_eq rfl hlength] at hinsert hframe
    have hnot : (fun u => !decide ¬ p.effectivePrio t ≤ p.effectivePrio u) =
        fun u => decide ¬ p.effectivePrio u < p.effectivePrio t := by
      funext u
      rw [decide_not, Bool.not_not]
      exact decide_eq_decide.2 not_lt.symm
    rw [hnot, ← insert_eq_append] at hinsert
    refine ⟨hinsert, ?_, hframe⟩
    dsimp only [List.head?_cons]
    rw [insert_cons]
    split_ifs with hlt
    · rfl
    · rw [List.head?_cons, ← List.head?_cons (l := rest), ← hlist, ← h.head r, update_eq_self]

lemma Represents.enqueueBlocked (h : p.Represents s) (r : SyncRef τ μ)
    (ht : s.waitingFor t = none) : (p.enqueueBlocked r t).Represents (s.enqueueBlocked r t) := by
  have hnotin (r' : SyncRef τ μ) : t ∉ s.blocked r' := by
    intro hmem
    rw [h.mem_blocked, ht] at hmem
    cases hmem
  obtain ⟨hring, hhead, hframe⟩ := h.enqueueTcbSorted_ring (hnotin r)
  obtain ⟨queue, hqueue⟩ : ∃ q, q = insert s.effectivePrio t (s.blocked r) := ⟨_, rfl⟩
  have hmem (u : τ) : u ∈ queue ↔ u = t ∨ u ∈ s.blocked r := by
    rw [hqueue]
    exact mem_insert
  rw [← hqueue] at hring hhead
  have hblocked : (s.enqueueBlocked r t).blocked = update s.blocked r queue := by
    rw [hqueue]
    rfl
  refine h.of_update ?_ hblocked rfl hring hhead hframe (fun r' _ => hnotin r') (fun r' => ?_)
    fun u hut => ?_
  · have hfields : (p.enqueueTcbSorted r t).withLists s.blocked = s := by
      refine Eq.trans ?_ h.fields.symm
      unfold RingSched.enqueueTcbSorted
      cases p.blockedHead r <;> rfl
    rw [hblocked]
    have hset := congrArg (fun s' : Sched τ μ => ({ s' with
      blocked := update s.blocked r queue
      waitingFor := update s'.waitingFor t (some r) } : Sched τ μ)) hfields
    rw [hqueue] at hset ⊢
    exact hset.symm
  · rw [hmem, some.injEq, eq_comm]
    exact (and_iff_left (.inl rfl)).symm
  · rw [hmem]
    exact or_iff_right hut

/-- Moving a thread to its place in the queue it waits in. -/
lemma Represents.requeue (h : p.Represents s) (ht : s.waitingFor t = some r) :
    ((p.dequeueBlocked r t).enqueueBlocked r t).Represents
      ((s.dequeueBlocked r t).enqueueBlocked r t) :=
  (h.dequeueBlocked ht).enqueueBlocked r (update_self ..)

end Represents

/-! ### The functions of `Sched` that read only the heads -/

section ReadsHeads

lemma calcEffectivePriority_withLists {s : Sched τ μ} {blocked : SyncRef τ μ → List τ}
    (h : ∀ r, (blocked r).head? = s.blockedHead r) (t : τ) :
    ({ s with blocked := blocked } : Sched τ μ).calcEffectivePriority t =
      s.calcEffectivePriority t := by
  have hmax : ∀ max r, ({ s with blocked := blocked } : Sched τ μ).maxWithHead max r =
      s.maxWithHead max r := by
    intro max r
    rw [maxWithHead, maxWithHead, ← h r]
    rfl
  unfold calcEffectivePriority
  simp only [hmax]

lemma ReadsHeads.comp {f g : Sched τ μ → Sched τ μ} (hf : ReadsHeads f) (hg : ReadsHeads g) :
    ReadsHeads fun s => g (f s) := by
  refine ⟨fun s blocked h => ?_, fun s => ?_⟩
  · have hf' : (f s).blocked = s.blocked := by
      rw [hf.lists s s.blocked fun r => rfl]
    rw [hf.lists s blocked h]
    refine hg.lists (f s) blocked fun r => ?_
    rw [h r, Sched.blockedHead, Sched.blockedHead, hf']
  · rw [hg.waitingFor, hf.waitingFor]

lemma readsHeads_of_rfl {f : Sched τ μ → Sched τ μ}
    (hlists : ∀ (s : Sched τ μ) (blocked : SyncRef τ μ → List τ),
      f { s with blocked := blocked } = { f s with blocked := blocked })
    (hwaiting : ∀ s, (f s).waitingFor = s.waitingFor) : ReadsHeads f :=
  ⟨fun s blocked _ => hlists s blocked, hwaiting⟩

variable [DecidableEq τ] (t : τ)

lemma readsHeads_enqueue : ReadsHeads (μ := μ) (·.enqueue t) :=
  readsHeads_of_rfl (fun _ _ => rfl) fun _ => rfl

lemma readsHeads_dequeue :
    ReadsHeads (μ := μ) fun s => if s.prioQueue.isQueued t then s.dequeue t else s := by
  refine readsHeads_of_rfl (fun s blocked => ?_) fun s => ?_
  all_goals split_ifs <;> rfl

lemma readsHeads_setEffectivePriority (prio : Prio) :
    ReadsHeads (μ := μ) (·.setEffectivePriority t prio) := by
  refine readsHeads_of_rfl (fun s blocked => ?_) fun s => s.setEffectivePriority_waitingFor t prio
  unfold setEffectivePriority
  split_ifs <;> rfl

lemma readsHeads_resetPriority : ReadsHeads (μ := μ) (·.resetPriority t) :=
  readsHeads_of_rfl (fun _ _ => rfl) fun _ => rfl

lemma readsHeads_setBasePriority (prio : Prio) :
    ReadsHeads (μ := μ) (·.setBasePriority t prio) := by
  refine ⟨fun s blocked h => ?_, fun s => s.setBasePriority_waitingFor t prio⟩
  have hcalc : (({ s with blocked := blocked } : Sched τ μ).writeBasePrio t
      prio).calcEffectivePriority t = (s.writeBasePrio t prio).calcEffectivePriority t :=
    calcEffectivePriority_withLists (s := s.writeBasePrio t prio) h t
  have hset := (readsHeads_setEffectivePriority (μ := μ) t
    ((s.writeBasePrio t prio).calcEffectivePriority t)).lists (s.writeBasePrio t prio) blocked h
  unfold setBasePriority
  dsimp only
  rw [hcalc]
  split_ifs
  · rfl
  · exact hset

lemma readsHeads_enqueueHeld (m : μ) (t : τ) : ReadsHeads (·.enqueueHeld m t) :=
  readsHeads_of_rfl (fun _ _ => rfl) fun _ => rfl

variable [DecidableEq μ]

lemma readsHeads_becomeDonatee (r : SyncRef τ μ) (t : τ) : ReadsHeads (·.becomeDonatee r t) :=
  readsHeads_of_rfl (fun _ _ => rfl) fun _ => rfl

lemma readsHeads_dequeueHeld (m : μ) (t : τ) : ReadsHeads (·.dequeueHeld m t) :=
  readsHeads_of_rfl (fun _ _ => rfl) fun _ => rfl

lemma readsHeads_releaseDonatee (r : SyncRef τ μ) : ReadsHeads (·.releaseDonatee r) := by
  refine ⟨fun s blocked h => ?_, fun s => ?_⟩
  · have hhead : ({ s with blocked := blocked } : Sched τ μ).blockedHead r = s.blockedHead r := h r
    unfold releaseDonatee
    rcases s.donatee r with _ | d
    · rfl
    dsimp only
    rw [hhead, calcEffectivePriority_withLists h]
    rcases s.blockedHead r with _ | head
    · rfl
    · dsimp only
      split_ifs <;> rfl
  · unfold releaseDonatee
    rcases s.donatee r with _ | d
    · rfl
    rcases s.blockedHead r with _ | head
    · rfl
    · dsimp only
      split_ifs <;> rfl

lemma readsHeads_acquire (m : μ) (t : τ) : ReadsHeads fun s => (s.acquire m t).1 := by
  refine readsHeads_of_rfl (fun s blocked => ?_) fun s => ?_
  · unfold acquire getHolder
    cases s.donatee (.mutex m) <;> rfl
  · unfold acquire
    cases s.getHolder m <;> rfl

end ReadsHeads

/-! ## The operations -/

section Operations

variable {p : RingSched τ μ} {s : Sched τ μ}
variable {t : τ}

section

variable (h : p.Represents s)
include h

lemma Represents.calcEffectivePriority (t : τ) :
    p.heads.calcEffectivePriority t = s.calcEffectivePriority t := by
  rw [h.fields]
  symm
  refine calcEffectivePriority_withLists (s := p.heads) (fun r => ?_) t
  rw [← h.head r]
  exact head?_toList.symm

lemma Represents.headAtMost (r : SyncRef τ μ) (t : τ) :
    p.heads.headAtMost r t = s.headAtMost r t := by
  have hhead : p.heads.blockedHead r = s.blockedHead r := by
    rw [h.blockedHead]
    exact head?_toList
  unfold Sched.headAtMost
  rw [hhead, h.effectivePrio]
  rfl

variable [Fintype τ] [DecidableEq τ] [DecidableEq μ]

lemma Represents.updateLink (chain : τ) (prio : Prio) :
    (p.updateLink chain prio).1.Represents (s.updateLink chain prio).1 ∧
      (p.updateLink chain prio).2 = (s.updateLink chain prio).2 := by
  have hset := h.lift (readsHeads_setEffectivePriority chain prio)
  unfold RingSched.updateLink Sched.updateLink
  dsimp only
  rw [hset.waitingFor]
  rcases hwait : (p.lift (·.setEffectivePriority chain prio)).waitingFor chain with _ | next
  · exact ⟨hset, rfl⟩
  · have hrequeue := hset.requeue (hset.waitingFor ▸ hwait)
    exact ⟨hrequeue, congrFun hrequeue.donatee.symm next⟩

lemma Represents.propagateIncreaseLoop (prio : Prio) (n : ℕ) (c : Option τ) :
    (RingSched.propagateIncreaseLoop prio n p c).Represents
      (Sched.propagateIncreaseLoop prio n s c) := by
  induction n generalizing p s c with
  | zero => exact h
  | succ n ih =>
    rcases c with _ | chain
    · exact h
    obtain ⟨hlink, hnext⟩ := h.updateLink chain prio
    unfold RingSched.propagateIncreaseLoop Sched.propagateIncreaseLoop
    rw [h.effectivePrio]
    split_ifs
    · exact h
    · dsimp only
      rw [hnext]
      exact ih hlink _

lemma Represents.propagateChangeLoop (n : ℕ) (c : Option τ) :
    (RingSched.propagateChangeLoop n p c).Represents (Sched.propagateChangeLoop n s c) := by
  induction n generalizing p s c with
  | zero => exact h
  | succ n ih =>
    rcases c with _ | chain
    · exact h
    obtain ⟨hlink, hnext⟩ := h.updateLink chain (s.calcEffectivePriority chain)
    unfold RingSched.propagateChangeLoop Sched.propagateChangeLoop
    rw [h.effectivePrio, h.calcEffectivePriority]
    dsimp only
    split_ifs
    · exact h
    · rw [hnext]
      exact ih hlink _

variable (r : SyncRef τ μ)

lemma Represents.propagatePriorityChange : (match p.donatee r with
      | none => p
      | some _ => p.propagatePriorityChange r).Represents
    (match s.donatee r with
      | none => s
      | some _ => s.propagatePriorityChange r) := by
  unfold RingSched.propagatePriorityChange Sched.propagatePriorityChange
  rw [h.donatee]
  rcases p.donatee r with _ | d
  · exact h
  · exact h.propagateChangeLoop _ _

lemma Represents.block (ht : s.waitingFor t = none) : (p.block r t).Represents (s.block r t) := by
  have henqueue := h.enqueueBlocked r ht
  unfold RingSched.block Sched.block RingSched.propagatePriorityIncrease
    Sched.propagatePriorityIncrease
  dsimp only
  rw [henqueue.donatee, henqueue.effectivePrio]
  rcases (p.enqueueBlocked r t).donatee r with _ | d
  · exact henqueue
  · exact henqueue.propagateIncreaseLoop _ _ _

lemma Represents.unblock {r : SyncRef τ μ} (ht : s.waitingFor t = some r) :
    (p.unblock r t).Represents (s.unblock r t) :=
  (h.dequeueBlocked ht).propagatePriorityChange r

lemma Represents.refresh {r : SyncRef τ μ} (ht : s.waitingFor t = some r) :
    (p.refresh r t).Represents (s.refresh r t) :=
  (h.requeue ht).propagatePriorityChange r

lemma Represents.setPriority (t : τ) (prio : Prio) :
    (p.setPriority t prio).Represents (s.setPriority t prio) := by
  have hset := h.lift (readsHeads_setBasePriority t prio)
  unfold RingSched.setPriority Sched.setPriority
  dsimp only
  rw [hset.waitingFor]
  rcases hwait : (p.lift (·.setBasePriority t prio)).waitingFor t with _ | r
  · exact hset
  · exact hset.refresh (hset.waitingFor ▸ hwait)

lemma Represents.removeDependency (t : τ) :
    (p.removeDependency t).Represents (s.removeDependency t) := by
  unfold RingSched.removeDependency Sched.removeDependency
  rw [h.waitingFor]
  rcases hwait : p.waitingFor t with _ | r
  · exact h
  · exact h.unblock (h.waitingFor ▸ hwait)

lemma Represents.release (m : μ) :
    (p.release m).1.Represents (s.release m).1 ∧ (p.release m).2 = (s.release m).2 := by
  unfold RingSched.release Sched.release Sched.getHolder
  rw [h.donatee, h.blockedHead]
  cases p.donatee (.mutex m) with
  | none => exact ⟨h, rfl⟩
  | some holder =>
    have hfree := h.lift ((readsHeads_dequeueHeld m holder).comp (readsHeads_releaseDonatee (.mutex m)))
    rcases hhead : p.blockedHead (.mutex m) with _ | newHolder
    · exact ⟨hfree, rfl⟩
    have hheld := hfree.lift (readsHeads_enqueueHeld m newHolder)
    refine ⟨(hheld.unblock ?_).lift (readsHeads_becomeDonatee (.mutex m) newHolder), rfl⟩
    refine hheld.mem_blocked.1 (mem_of_head? ?_)
    rw [← hheld.head]
    exact hhead

lemma Represents.unblockAll (n : ℕ) :
    (RingSched.unblockAll r n p).Represents (Sched.unblockAll r n s) := by
  induction n generalizing p s with
  | zero => exact h
  | succ n ih =>
    unfold RingSched.unblockAll Sched.unblockAll
    rw [h.blockedHead]
    rcases hhead : p.blockedHead r with _ | head
    · exact h
    have hwait : s.waitingFor head = some r := by
      refine h.mem_blocked.1 (mem_of_head? ?_)
      rw [← h.head]
      exact hhead
    exact ih ((h.unblock hwait).lift (readsHeads_enqueue head))

lemma Represents.releaseMutexes (t : τ) (n : ℕ) :
    (RingSched.releaseMutexes t n p).Represents (Sched.releaseMutexes t n s) := by
  induction n generalizing p s with
  | zero => exact h
  | succ n ih =>
    unfold RingSched.releaseMutexes Sched.releaseMutexes
    rw [h.mutexesHeld]
    rcases (p.mutexesHeld t).head? with _ | m
    · exact h
    obtain ⟨hrelease, hholder⟩ := h.release m
    dsimp only
    rcases hp : p.release m with ⟨p', holder⟩
    rcases hs : s.release m with ⟨s', holder'⟩
    rw [hp, hs] at hrelease hholder
    subst hholder
    rcases holder with _ | newHolder
    · exact ih hrelease
    · exact ih (hrelease.lift (readsHeads_enqueue newHolder))

/-- The length of the ring is the length of the list. -/
lemma Represents.unblockQueue : (RingSched.unblockAll r (p.queue r).length p).Represents
      (Sched.unblockAll r (s.blocked r).length s) := by
  rw [h.queue]
  exact h.unblockAll r _

lemma Represents.releaseHeld (t : τ) :
    (RingSched.releaseMutexes t (p.mutexesHeld t).length p).Represents
      (Sched.releaseMutexes t (s.mutexesHeld t).length s) := by
  rw [h.mutexesHeld]
  exact h.releaseMutexes t _

lemma Represents.removeThread (t : τ) : (p.removeThread t).Represents (s.removeThread t) := by
  have hipcs := ((h.removeDependency t).unblockQueue (.send t)).unblockQueue (.recv t)
  have hmutexes := (hipcs.lift (readsHeads_dequeue t)).releaseHeld t
  exact hmutexes.lift (readsHeads_resetPriority t)

end

/-- An operation that is possible with rings is possible with lists, and the states that it leads to
represent each other. -/
theorem Represents.ringStep [Fintype τ] [DecidableEq τ] [DecidableEq μ] (h : p.Represents s)
    {op : SyncOp τ μ} {p' : RingSched τ μ} (hstep : p.ringStep op = some p') :
    ∃ s', s.syncStep op = some s' ∧ p'.Represents s' := by
  cases op with
  | block r t =>
    obtain ⟨ht, ⟨⟩⟩ := ite_none_right_eq_some.1 hstep
    rw [← h.waitingFor] at ht
    exact ⟨_, if_pos ht, h.block r ht⟩
  | unblock r t =>
    obtain ⟨ht, ⟨⟩⟩ := ite_none_right_eq_some.1 hstep
    rw [← h.waitingFor] at ht
    exact ⟨_, if_pos ht, h.unblock ht⟩
  | refresh r t =>
    obtain ⟨ht, ⟨⟩⟩ := ite_none_right_eq_some.1 hstep
    rw [← h.waitingFor] at ht
    exact ⟨_, if_pos ht, h.refresh ht⟩
  | acquire m t =>
    obtain ⟨ht, ⟨⟩⟩ := ite_none_right_eq_some.1 hstep
    rw [← h.waitingFor, ← h.donatee, h.headAtMost] at ht
    exact ⟨_, if_pos ht, h.lift (readsHeads_acquire m t)⟩
  | setHolder m t =>
    obtain ⟨ht, ⟨⟩⟩ := ite_none_right_eq_some.1 hstep
    rw [← h.donatee, ← h.blockedHead] at ht
    exact ⟨_, if_pos ht, h.lift
      ((readsHeads_enqueueHeld m t).comp (readsHeads_becomeDonatee (.mutex m) t))⟩
  | release m =>
    rw [RingSched.ringStep] at hstep
    rw [syncStep, getHolder, h.donatee]
    rcases hholder : p.donatee (.mutex m) with _ | holder
    · rw [hholder] at hstep
      cases hstep
    rw [hholder] at hstep
    obtain ⟨ht, ⟨⟩⟩ := ite_none_right_eq_some.1 hstep
    rw [← h.waitingFor, ← h.prioQueue] at ht
    exact ⟨_, if_pos ht, (h.release m).1⟩
  | setPriority t prio =>
    cases hstep
    exact ⟨_, rfl, h.setPriority t prio⟩
  | removeThread t =>
    cases hstep
    exact ⟨_, rfl, h.removeThread t⟩

end Operations

lemma init_represents (basePrio : τ → Prio) :
    (init basePrio : RingSched τ μ).Represents (Sched.init basePrio) := by
  refine ⟨rfl, fun r => trivial, fun r => rfl, fun {r t} => ?_⟩
  exact iff_of_false not_mem_nil (some_ne_none r).symm

end RingSched

end Okl4Kernel
