import Mathlib.Data.List.Perm.Subperm
import Okl4Kernel.Lib.SharedLinks
import Okl4Kernel.Nano

/-!
# The queues of the nanokernel

All queues of the nanokernel use the same pointers of the TCBs. `Queues s place` says that the
pointers of the state `s` are right: a thread `t` is on the queue `place t`, exactly once, and on no
other queue, the heads are the first members, and the priority bitmap has the priorities with a
ready thread.

Each operation on a queue moves one thread, so it is described by what it does to `place`.
-/

namespace Okl4Kernel.Nano

open LinkedRing Function List Nanokernel TwoLevelBitmap.Bitmap

/-- A queue: the ready threads of a priority, the blocked senders to a thread, the sleepers in a
slot of the futex hash table, and the free TCBs. -/
inductive Queue
  | ready (priority : ℕ)
  | send (dest : Tid)
  | futex (slot : ℕ)
  | free
  deriving DecidableEq

/-- The sleepers are in a list through their next pointers, all other queues are rings. -/
def Queue.shape : Queue → Shape
  | .futex _ => .path
  | _ => .ring

namespace Nanokernel

/-- The head of a queue. -/
def head (s : Nanokernel) : Queue → Option Tid
  | .ready p => s.priorityHeads p
  | .send dest => s.ipcSendHead dest
  | .futex slot => s.futexHead slot
  | .free => s.tcbFreeHead

/-- The pointers, heads and tails and the bitmap spell the given lists. -/
structure Spells (s : Nanokernel) (place : Tid → Option Queue) (lists : Queue → List Tid) :
    Prop where
  threaded : Threaded s.links Queue.shape place lists
  head : ∀ q, s.head q = (lists q).head?
  tail : ∀ slot, s.futexTail slot = (lists (.futex slot)).getLast?
  bitmap : ∀ p, s.priorityBitmap.getLsbD p = true ↔ lists (.ready p) ≠ []

/-- Every thread is on the queue given by `place`, and on no other. -/
def Queues (s : Nanokernel) (place : Tid → Option Queue) : Prop := ∃ lists, s.Spells place lists

variable {s s' : Nanokernel} {place : Tid → Option Queue} {t : Tid} {q : Queue}

/-- The pointers, heads and tails and the bitmap. -/
def queueFields (s : Nanokernel) := (s.links, s.head, s.futexTail, s.priorityBitmap)

/-- The frame rule: only these fields count. -/
lemma Queues.congr (h : s.Queues place) (hsame : s'.queueFields = s.queueFields) :
    s'.Queues place := by
  simp only [queueFields, Prod.mk.injEq] at hsame
  obtain ⟨lists, hs⟩ := h
  exact ⟨lists, by rw [hsame.1]; exact hs.threaded, by rw [hsame.2.1]; exact hs.head,
    by rw [hsame.2.2.1]; exact hs.tail, by rw [hsame.2.2.2]; exact hs.bitmap⟩

variable {lists : Queue → List Tid}

lemma Spells.cons (h : s.Spells place lists) (ht : s.head q = some t) :
    ∃ ts, lists q = t :: ts := by
  rw [h.head] at ht
  exact head?_eq_some_iff.1 ht

lemma Queues.place_head (h : s.Queues place) (ht : s.head q = some t) : place t = some q := by
  obtain ⟨lists, hs⟩ := h
  obtain ⟨ts, hlist⟩ := hs.cons ht
  exact (hs.threaded.mem t q).1 (by simp [hlist])

lemma Queues.bitmap (h : s.Queues place) {p : ℕ} (ht : place t = some (.ready p)) :
    s.priorityBitmap.getLsbD p = true := by
  obtain ⟨lists, hs⟩ := h
  rw [hs.bitmap]
  exact ne_nil_of_mem ((hs.threaded.mem t _).2 ht)

lemma Queues.exists_head (h : s.Queues place) {p : ℕ} (hp : s.priorityBitmap.getLsbD p = true) :
    ∃ t, s.priorityHeads p = some t := by
  obtain ⟨lists, hs⟩ := h
  obtain ⟨t, ts, hlist⟩ := exists_cons_of_ne_nil ((hs.bitmap p).1 hp)
  refine ⟨t, ?_⟩
  have hhead := hs.head (.ready p)
  rwa [hlist] at hhead

/-! ## Rings -/

lemma Spells.update_ring {place' : Tid → Option Queue} {ts : List Tid}
    (hs : s.Spells place lists) (hq : q.shape = .ring)
    (hthreaded : Threaded s'.links Queue.shape place' (update lists q ts))
    (hhead : s'.head = update s.head q ts.head?) (htail : s'.futexTail = s.futexTail)
    (hbitmap : ∀ p, s'.priorityBitmap.getLsbD p = true ↔ update lists q ts (.ready p) ≠ []) :
    s'.Spells place' (update lists q ts) := by
  refine ⟨hthreaded, fun q' => ?_, fun slot => ?_, hbitmap⟩
  · rw [hhead]
    by_cases hq' : q' = q
    · subst hq'
      simp
    · rw [update_of_ne hq', update_of_ne hq', hs.head]
  · have hne : Queue.futex slot ≠ q := by
      rintro rfl
      cases hq
    rw [htail, update_of_ne hne, hs.tail]

section

variable (h : s.Queues place)
include h

lemma Queues.enqueueTail (hq : q.shape = .ring) (ht : place t = none)
    (hlinks : s'.links = (s.links.enqueueTail (s.head q) t).1)
    (hhead : s'.head = update s.head q (s.links.enqueueTail (s.head q) t).2)
    (htail : s'.futexTail = s.futexTail) (hbitmap : ∀ p, s'.priorityBitmap.getLsbD p =
      (s.priorityBitmap.getLsbD p || decide (q = .ready p))) :
    s'.Queues (update place t (some q)) := by
  obtain ⟨lists, hs⟩ := h
  have hnotin : t ∉ lists q := by
    rw [hs.threaded.mem, ht]
    simp
  refine ⟨update lists q (lists q ++ [t]), hs.update_ring hq ?_ ?_ htail fun p => ?_⟩
  · rw [hlinks, hs.head]
    exact hs.threaded.enqueueTail hq ht
  · rw [hhead, hs.head, ((hs.threaded.isRing hq).enqueueTail hnotin).2]
  rw [hbitmap, Bool.or_eq_true, hs.bitmap, decide_eq_true_eq]
  by_cases hp : q = .ready p
  · subst hp
    simp
  · rw [update_of_ne (Ne.symm hp)]
    simp [hp]

/-- A thread joins a ring other than a ready one, as the first member. -/
lemma Queues.enqueueHead (hq : q.shape = .ring) (ht : place t = none) (hready : ∀ p, q ≠ .ready p)
    (hlinks : s'.links = (s.links.enqueueTail (s.head q) t).1)
    (hhead : s'.head = update s.head q (some t))
    (htail : s'.futexTail = s.futexTail) (hbitmap : s'.priorityBitmap = s.priorityBitmap) :
    s'.Queues (update place t (some q)) := by
  obtain ⟨lists, hs⟩ := h
  refine ⟨update lists q (t :: lists q), hs.update_ring hq ?_ hhead htail fun p => ?_⟩
  · rw [hlinks, hs.head]
    exact hs.threaded.enqueueHead hq ht
  · rw [hbitmap, hs.bitmap, update_of_ne (Ne.symm (hready p))]

lemma Queues.dequeue (hq : q.shape = .ring) (ht : s.head q = some t)
    (hlinks : s'.links = (s.links.dequeue (s.head q) t).1)
    (hhead : s'.head = update s.head q (s.links.dequeue (s.head q) t).2)
    (htail : s'.futexTail = s.futexTail) (hbitmap : ∀ p, s'.priorityBitmap.getLsbD p =
      (s.priorityBitmap.getLsbD p && !decide (q = .ready p ∧ s.links.next t = some t))) :
    s'.Queues (update place t none) := by
  obtain ⟨lists, hs⟩ := h
  obtain ⟨ts, hlist⟩ := hs.cons ht
  have hring : IsRing s.links ([] ++ t :: ts) := by
    have hring := hs.threaded.isRing hq
    rwa [hlist] at hring
  have hnewHead : (s.links.dequeue (s.head q) t).2 = ts.head? := by
    rw [hs.head, hlist]
    exact hring.dequeue.2
  refine ⟨update lists q ts, hs.update_ring hq ?_ (hnewHead ▸ hhead) htail fun p => ?_⟩
  · rw [hlinks, hs.head]
    exact hs.threaded.dequeue hq hlist
  have hself : s.links.next t = some t ↔ ts = [] := IsRing.next_eq_self_iff hring
  rw [hbitmap, Bool.and_eq_true, hs.bitmap, Bool.not_eq_true', decide_eq_false_iff_not, hself]
  by_cases hp : q = .ready p
  · subst hp
    simp [hlist]
  · rw [update_of_ne (Ne.symm hp)]
    simp [hp]

/-! ## The ready threads -/

lemma Queues.enqueue (ht : place t = none) (hp : s.priority t ≤ maxPriority) :
    (s.enqueue t).Queues (update place t (some (.ready (s.priority t)))) := by
  have hlt : s.priority t < 32 := Nat.lt_succ_of_le hp
  refine h.enqueueTail rfl ht rfl ?_ rfl fun p => ?_
  · funext q
    cases q <;> simp [head, Nanokernel.enqueue, update_apply]
  have hbit : s.priorityHeads (s.priority t) ≠ none →
      s.priorityBitmap.getLsbD (s.priority t) = true := by
    intro hhead
    obtain ⟨u, hu⟩ := Option.ne_none_iff_exists'.1 hhead
    have hplace : place u = some (.ready (s.priority t)) := h.place_head hu
    exact h.bitmap hplace
  simp only [Nanokernel.enqueue, Queue.ready.injEq]
  split_ifs with hhead
  · rw [getLsbD_or_bit _ hlt]
    simp [eq_comm]
  · by_cases hpt : s.priority t = p
    · simp [← hpt, hbit hhead]
    · simp [hpt]

end

lemma doSchedule_frame (s : Nanokernel) : s.doSchedule.1 = { s with
    links := s.doSchedule.1.links, priorityHeads := s.doSchedule.1.priorityHeads
    priorityBitmap := s.doSchedule.1.priorityBitmap } := by
  unfold doSchedule dequeueHead
  split
  · rfl
  · split <;> rfl

section

variable (h : s.Queues place)
include h

/-- What `do_schedule` does: the idle thread is chosen if there is no ready thread, and otherwise a
ready thread of the highest priority leaves its ring. -/
lemma Queues.doSchedule : (s.doSchedule = (s, none) ∧ ∀ t p, place t ≠ some (.ready p)) ∨
    ∃ t p, s.doSchedule.2 = some t ∧ place t = some (.ready p) ∧
      (∀ t' p', place t' = some (.ready p') → p' ≤ p) ∧
      s.doSchedule.1.Queues (update place t none) := by
  by_cases hzero : s.priorityBitmap = 0
  · left
    refine ⟨by rw [Nanokernel.doSchedule, if_pos hzero], fun t p ht => ?_⟩
    have hbit := h.bitmap ht
    simp [hzero] at hbit
  · right
    have hmsb : s.priorityBitmap.getLsbD (TwoLevelBitmap.msb s.priorityBitmap) = true :=
      getLsbD_msb hzero
    generalize hp : TwoLevelBitmap.msb s.priorityBitmap = p at hmsb
    obtain ⟨t, ht⟩ := h.exists_head hmsb
    have hlt : p < 32 := BitVec.lt_of_getLsbD hmsb
    have heq : s.doSchedule = s.dequeueHead p := by rw [Nanokernel.doSchedule, if_neg hzero, hp]
    rw [heq]
    unfold dequeueHead
    rw [ht]
    refine ⟨t, p, rfl, h.place_head ht, fun t' p' ht' => ?_, ?_⟩
    · rw [← hp]
      exact le_msb (h.bitmap ht')
    have hhead : s.head (.ready p) = some t := ht
    refine h.dequeue rfl hhead (by rw [hhead]) ?_ rfl fun p' => ?_
    · funext q
      cases q <;> simp [head, update_apply, ht]
    · simp only [Queue.ready.injEq]
      split_ifs with hself
      · rw [getLsbD_and_not_bit _ hlt]
        simp [hself, eq_comm]
      · simp [hself]

/-! ## Senders and free TCBs -/

lemma Queues.enqueueSend (dest : Tid) {src : Tid} (hsrc : place src = none) :
    (s.enqueueSend dest src).Queues (update place src (some (.send dest))) := by
  refine h.enqueueTail rfl hsrc rfl ?_ rfl fun p => by simp [Nanokernel.enqueueSend]
  funext q
  cases q <;> simp [head, Nanokernel.enqueueSend, update_apply]

lemma Queues.dequeueSend {dest src : Tid} (hsrc : s.ipcSendHead dest = some src) :
    (s.dequeueSend dest src).Queues (update place src none) := by
  have hhead : s.head (.send dest) = some src := hsrc
  refine h.dequeue rfl hhead rfl ?_ rfl fun p => by simp [Nanokernel.dequeueSend]
  funext q
  cases q <;> simp [head, Nanokernel.dequeueSend, update_apply]

lemma Queues.prepareTcb (ht : s.tcbFreeHead = some t) (pc sp r0 : BitVec 32)
    (prio : ℕ) : (s.prepareTcb t pc sp r0 prio).Queues (update place t none) := by
  have hhead : s.head .free = some t := ht
  refine h.dequeue rfl hhead rfl ?_ rfl fun p => by simp [Nanokernel.prepareTcb]
  funext q
  cases q <;> simp [head, Nanokernel.prepareTcb]

lemma Queues.threadReap (ht : place t = none) :
    (s.threadReap t).Queues (update place t (some .free)) := by
  refine h.enqueueHead rfl ht (fun p => by simp) rfl ?_ rfl rfl
  funext q
  cases q <;> simp [head, Nanokernel.threadReap]

end

/-! ## Sleepers -/

/-- A list of threads without duplicates is not longer than the table of TCBs. -/
lemma length_le_maxTcbs {ts : List Tid} (hnodup : ts.Nodup) {n : ℕ} (hlt : ∀ u ∈ ts, u < n) :
    ts.length ≤ n := by
  have hsub : ts ⊆ range n := fun u hu => mem_range.2 (hlt u hu)
  calc ts.length ≤ (range n).length := (hnodup.subperm hsub).length_le
    _ = n := length_range

/-- The loop of `enqueue_futex` ends somewhere in the chain. -/
lemma insertionPoint_eq (prio : ℕ) {fuel : ℕ} (as : List Tid) {bs : List Tid}
    (hpath : IsPath s.links bs) (hfuel : bs.length ≤ fuel) : ∃ cs ds, bs = cs ++ ds ∧
      s.insertionPoint prio fuel as.getLast? bs.head? = ((as ++ cs).getLast?, ds.head?) := by
  induction bs generalizing as fuel with
  | nil => exact ⟨[], [], rfl, by cases fuel <;> simp [insertionPoint]⟩
  | cons b bs ih =>
    rcases fuel with _ | fuel
    · simp at hfuel
    simp only [head?_cons, insertionPoint]
    split_ifs with hprio
    · exact ⟨[], b :: bs, rfl, by simp⟩
    · obtain ⟨cs, ds, hsplit, heq⟩ := ih (as ++ [b]) hpath.2.2 (by simpa using hfuel)
      refine ⟨b :: cs, ds, by rw [hsplit, cons_append], ?_⟩
      rw [getLast?_concat] at heq
      rw [hpath.1, heq, append_assoc, singleton_append]

/-- The loop of `signal_futex` finds the first thread of the chain with the tag. -/
lemma findSleeper_eq (tag : ℕ) {fuel : ℕ} (as : List Tid) {bs : List Tid}
    (hpath : IsPath s.links bs) (hfuel : bs.length ≤ fuel) :
    (s.findSleeper tag fuel as.getLast? bs.head? = none ∧ ∀ b ∈ bs, s.futexTag b ≠ tag) ∨
    ∃ cs x ds, bs = cs ++ x :: ds ∧ s.futexTag x = tag ∧
      s.findSleeper tag fuel as.getLast? bs.head? = some ((as ++ cs).getLast?, x) := by
  induction bs generalizing as fuel with
  | nil => exact .inl ⟨by cases fuel <;> rfl, by simp⟩
  | cons b bs ih =>
    rcases fuel with _ | fuel
    · simp at hfuel
    simp only [head?_cons, findSleeper]
    split_ifs with htag
    · exact .inr ⟨[], b, bs, rfl, htag, by simp⟩
    have hnext := ih (as ++ [b]) hpath.2.2 (by simpa using hfuel)
    rw [getLast?_concat, ← hpath.1] at hnext
    rcases hnext with ⟨hnone, hothers⟩ | ⟨cs, x, ds, hsplit, hx, hsome⟩
    · exact .inl ⟨hnone, by simpa [htag] using hothers⟩
    · refine .inr ⟨b :: cs, x, ds, by rw [hsplit, cons_append], hx, ?_⟩
      rw [hsome, append_assoc, singleton_append]

lemma Spells.isPath (h : s.Spells place lists) (slot : ℕ) :
    (lists (.futex slot)).Nodup ∧ IsPath s.links (lists (.futex slot)) :=
  h.threaded.spelled (.futex slot)

lemma Spells.length_le (h : s.Spells place lists)
    (hlt : ∀ u, place u ≠ none → u < s.maxTcbs) (q : Queue) : (lists q).length ≤ s.maxTcbs := by
  refine length_le_maxTcbs (h.threaded.spelled q).nodup fun u hu => hlt u ?_
  rw [(h.threaded.mem u q).1 hu]
  simp

/-- The rule for one list of sleepers that becomes another one. -/
lemma Spells.update_path {place' : Tid → Option Queue} {slot : ℕ} {ts : List Tid} {links : Links Tid}
    (hs : s.Spells place lists)
    (hthreaded : Threaded links Queue.shape place' (update lists (.futex slot) ts)) :
    Queues { s with
      links := links, futexHead := update s.futexHead slot ts.head?
      futexTail := update s.futexTail slot ts.getLast? } place' := by
  refine ⟨_, hthreaded, fun q => ?_, fun slot' => ?_, fun p => ?_⟩
  · by_cases hq : q = .futex slot
    · subst hq
      simp [Nanokernel.head]
    · rw [update_of_ne hq, ← hs.head]
      cases q with
      | futex slot' => exact update_of_ne (fun heq => hq (by rw [heq])) _ _
      | _ => rfl
  · by_cases hq : slot' = slot
    · simp [hq]
    · rw [update_of_ne (by simpa using hq), ← hs.tail]
      exact update_of_ne hq _ _
  · rw [update_of_ne (by simp)]
    exact hs.bitmap p

/-- The fields that `linkFutex` writes, between the two parts of a chain. -/
lemma linkFutex_eq {slot : ℕ} {cs ds : List Tid} (hne : cs.getLast? ≠ some t)
    (hhead : s.futexHead slot = (cs ++ ds).head?) (htail : s.futexTail slot = (cs ++ ds).getLast?) :
    ∃ links, s.linkFutex slot cs.getLast? t ds.head? = { s with
        links := links, futexHead := update s.futexHead slot (cs ++ t :: ds).head?
        futexTail := update s.futexTail slot (cs ++ t :: ds).getLast? } ∧
      links.prev = s.links.prev ∧ links.next t = ds.head? ∧
      (∀ y, cs.getLast? = some y → links.next y = some t) ∧
      ∀ y, y ≠ t → cs.getLast? ≠ some y → links.next y = s.links.next y := by
  have htail' : (if ds.head? = none then update s.futexTail slot (some t) else s.futexTail) =
      update s.futexTail slot (cs ++ t :: ds).getLast? := by
    rcases ds with _ | ⟨d, ds⟩
    · simp
    · have hsame : (cs ++ t :: d :: ds).getLast? = s.futexTail slot := by
        simp [htail, getLast?_append, getLast?_cons]
      simp [hsame]
  cases cs using reverseRecOn with
  | nil =>
    refine ⟨{ s.links with next := update s.links.next t ds.head? }, ?_, rfl, update_self ..,
      nofun, fun y hy _ => update_of_ne hy _ _⟩
    simp only [linkFutex, getLast?_nil, htail', nil_append, head?_cons]
  | append_singleton cs c =>
    have hct : t ≠ c := fun heq => hne (by simp [heq])
    have hhead' : (cs ++ [c] ++ t :: ds).head? = s.futexHead slot := by
      rw [hhead]
      cases cs <;> simp
    refine ⟨{ s.links with next := update (update s.links.next t ds.head?) c (some t) }, ?_, rfl, ?_,
      fun y hy => ?_, fun y hy hy' => ?_⟩
    · simp only [linkFutex, getLast?_concat, htail', hhead', update_eq_self]
    · simp [hct]
    · obtain rfl : c = y := by simpa using hy
      simp
    · have hyc : y ≠ c := fun heq => hy' (by rw [getLast?_concat, heq])
      simp [hy, hyc]

lemma enqueueFutex_frame (s : Nanokernel) (slot : ℕ) (t : Tid) : s.enqueueFutex slot t = { s with
      links := (s.enqueueFutex slot t).links, futexHead := (s.enqueueFutex slot t).futexHead
      futexTail := (s.enqueueFutex slot t).futexTail } := by
  unfold enqueueFutex linkFutex
  dsimp only
  split <;> rfl

lemma dequeueFutex_frame (s : Nanokernel) (slot : ℕ) (prev : Option Tid) (t : Tid) :
    s.dequeueFutex slot prev t = { s with
      links := (s.dequeueFutex slot prev t).links
      futexHead := (s.dequeueFutex slot prev t).futexHead
      futexTail := (s.dequeueFutex slot prev t).futexTail } := by
  unfold dequeueFutex
  dsimp only
  split
  · rfl
  · split <;> rfl

lemma Queues.enqueueFutex (h : s.Queues place) (ht : place t = none)
    (hlt : ∀ u, place u ≠ none → u < s.maxTcbs) (slot : ℕ) :
    (s.enqueueFutex slot t).Queues (update place t (some (.futex slot))) := by
  obtain ⟨lists, hs⟩ := h
  obtain ⟨hnodup, hpath⟩ := hs.isPath slot
  obtain ⟨cs, ds, hsplit, hpoint⟩ := insertionPoint_eq (s.priority t) [] hpath (hs.length_le hlt _)
  have hhead : s.futexHead slot = (lists (.futex slot)).head? := hs.head (.futex slot)
  have htail := hs.tail slot
  rw [nil_append, getLast?_nil, ← hhead] at hpoint
  have hnotin : t ∉ cs ++ ds := by
    rw [← hsplit, hs.threaded.mem, ht]
    simp
  rw [hsplit] at hnodup hpath hhead htail
  have hlastmem : ∀ {y}, cs.getLast? = some y → y ∈ cs ++ ds := fun hy =>
    mem_append_left ds (mem_of_getLast? hy)
  obtain ⟨links, heq, hprevs, hnext, hlast, hother⟩ :=
    linkFutex_eq (fun hlast => hnotin (hlastmem hlast)) hhead htail
  rw [Nanokernel.enqueueFutex, hpoint, heq]
  refine hs.update_path (hs.threaded.join ht ⟨?_, ?_⟩ ?_ fun y hy hyt => ?_)
  · exact (nodup_middle.2 (nodup_cons.2 ⟨hnotin, hnodup⟩))
  · refine hpath.insert (fun y hy hy' => ?_) (fun y _ => by rw [hprevs]) hnodup hnext ?_ hlast
    · exact hother y (fun hyt => hnotin (hyt ▸ hy)) hy'
    · rw [hprevs]
      exact (hs.threaded.null t ht).2
  · rw [hsplit]
    exact perm_middle
  · rw [hsplit] at hy
    refine ⟨hother y hyt fun hy' => hy (hlastmem hy'), by rw [hprevs]⟩

/-- The fields that `dequeueFutex` writes, for a thread `t` in the chain `cs ++ t :: ds`. -/
lemma dequeueFutex_eq {slot : ℕ} {cs ds : List Tid} (hnodup : (cs ++ t :: ds).Nodup)
    (hnext : s.links.next t = ds.head?) (hhead : s.futexHead slot = (cs ++ t :: ds).head?)
    (htail : s.futexTail slot = (cs ++ t :: ds).getLast?) :
    ∃ links, s.dequeueFutex slot cs.getLast? t = { s with
        links := links, futexHead := update s.futexHead slot (cs ++ ds).head?
        futexTail := update s.futexTail slot (cs ++ ds).getLast? } ∧
      links.prev = s.links.prev ∧ links.next t = none ∧
      (∀ y, cs.getLast? = some y → links.next y = ds.head?) ∧
      ∀ y, y ≠ t → cs.getLast? ≠ some y → links.next y = s.links.next y := by
  have htail' : (if s.futexTail slot = some t then update s.futexTail slot cs.getLast?
      else s.futexTail) = update s.futexTail slot (cs ++ ds).getLast? := by
    cases ds using reverseRecOn with
    | nil => simp [htail]
    | append_singleton ds d =>
      have hdt : d ≠ t := by
        rintro rfl
        exact (nodup_cons.1 (nodup_middle.1 hnodup)).1 (by simp)
      have hlast : s.futexTail slot = some d := by
        rw [htail, ← cons_append, ← append_assoc, getLast?_concat]
      have hsame : (cs ++ (ds ++ [d])).getLast? = s.futexTail slot := by
        rw [hlast, ← append_assoc, getLast?_concat]
      rw [hsame, update_eq_self, hlast, if_neg fun heq => hdt (Option.some.inj heq)]
  cases cs using reverseRecOn with
  | nil =>
    have hfirst : s.futexHead slot = some t := by rw [hhead, nil_append, head?_cons]
    refine ⟨{ s.links with next := update s.links.next t none }, ?_, rfl, update_self .., nofun,
      fun y hy _ => update_of_ne hy _ _⟩
    simp only [dequeueFutex, if_pos hfirst, hnext, htail', nil_append]
  | append_singleton cs c =>
    have hct : t ≠ c := by
      rintro rfl
      rw [append_assoc, nodup_append] at hnodup
      simpa using hnodup.2.1
    have hfirst : s.futexHead slot ≠ some t := by
      rw [hhead]
      rcases cs with _ | ⟨c', cs⟩
      · simpa using hct.symm
      · intro heq
        obtain rfl : c' = t := by simpa using heq
        simp at hnodup
    have hhead' : (cs ++ [c] ++ ds).head? = s.futexHead slot := by
      rw [hhead]
      cases cs <;> simp
    refine ⟨{ s.links with next := update (update s.links.next c ds.head?) t none }, ?_, rfl,
      update_self .., fun y hy => ?_, fun y hy hy' => ?_⟩
    · rw [getLast?_concat] at htail' ⊢
      simp only [dequeueFutex, if_neg hfirst, hnext, htail', hhead', update_eq_self]
    · obtain rfl : c = y := by simpa using hy
      simp [hct.symm]
    · have hyc : y ≠ c := fun heq => hy' (by rw [getLast?_concat, heq])
      simp [hy, hyc]

/-- What `signal_futex` finds: nobody sleeps on the tag, or one of its sleepers leaves the chain. -/
lemma Queues.sleeper (h : s.Queues place) (hlt : ∀ u, place u ≠ none → u < s.maxTcbs) (tag : ℕ) :
    (s.sleeper tag = none ∧ ∀ u, place u = some (.futex (s.hashTag tag)) → s.futexTag u ≠ tag) ∨
    ∃ previous t, s.sleeper tag = some (previous, t) ∧
      place t = some (.futex (s.hashTag tag)) ∧ s.futexTag t = tag ∧
      (s.dequeueFutex (s.hashTag tag) previous t).Queues (update place t none) := by
  obtain ⟨lists, hs⟩ := h
  generalize hslot : s.hashTag tag = slot
  obtain ⟨hnodup, hpath⟩ := hs.isPath slot
  have hhead : s.futexHead slot = (lists (.futex slot)).head? := hs.head (.futex slot)
  have hfind := findSleeper_eq tag [] hpath (hs.length_le hlt _)
  rw [getLast?_nil, ← hhead] at hfind
  have heq : s.sleeper tag = s.findSleeper tag s.maxTcbs none (s.futexHead slot) := by
    rw [Nanokernel.sleeper, hslot]
  rw [heq]
  rcases hfind with ⟨hnone, hothers⟩ | ⟨cs, t, ds, hsplit, htag, hsome⟩
  · exact .inl ⟨hnone, fun u hu => hothers u ((hs.threaded.mem u _).2 hu)⟩
  have htail := hs.tail slot
  rw [hsplit] at hnodup hpath hhead htail
  obtain ⟨links, hdequeue, hprevs, hnull, hlast, hother⟩ :=
    dequeueFutex_eq hnodup hpath.next_eq hhead htail
  have ht : place t = some (.futex slot) := by
    rw [← hs.threaded.mem, hsplit]
    simp
  refine .inr ⟨cs.getLast?, t, hsome, ht, htag, ?_⟩
  rw [hdequeue]
  have hnodup' : t ∉ cs ++ ds ∧ (cs ++ ds).Nodup :=
    nodup_cons.1 (nodup_middle.1 hnodup)
  have hmem : ∀ y ∈ cs ++ ds, y ≠ t := fun y hy hyt => hnodup'.1 (hyt ▸ hy)
  have hprev : ∀ y, links.prev y = s.links.prev y := fun y => by rw [hprevs]
  refine hs.update_path (hs.threaded.leave ⟨hnodup'.2, ?_⟩ ?_ ⟨hnull, ?_⟩ fun y hy => ?_)
  · exact hpath.remove (fun y hy hy' => hother y (hmem y hy) hy') (fun y _ => hprev y) hnodup hlast
  · rw [hsplit]
    exact perm_middle
  · rw [hprev]
    exact hpath.prev_eq
  · rw [hsplit] at hy
    have hyt : y ≠ t := fun hyt => hy (by simp [hyt])
    have hyc : cs.getLast? ≠ some y := fun hyc =>
      hy (mem_append_left _ (mem_of_getLast? hyc))
    exact ⟨hother y hyt hyc, hprev y⟩

end Nanokernel

end Okl4Kernel.Nano
