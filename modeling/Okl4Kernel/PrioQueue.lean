import Okl4Kernel.Lib.LinkedRing
import Okl4Kernel.Lib.TwoLevelBitmap

/-!
# The scheduler's priority queue

`prio_queue_t`: one ring of threads for every priority, linked through the threads' `ready_list`
fields, and a two-level bitmap of the priorities whose ring is not empty. The model keeps the
pointers and the words of the source: `readyList` are the `next`/`prev` fields, `heads` is the array
`prio_queue[MAX_PRIO + 1]`, and `bitmap` holds `index_bitmap` and `prio_bitmap`.

`Represents` says which list of threads each ring spells. Both operations are given the priority
that the source reads from the thread (`effective_prio`), and each has one lemma that says what it
does to the lists.
-/

namespace Okl4Kernel

open LinkedRing TwoLevelBitmap Function List

/-- `MAX_PRIO`. -/
def maxPrio : ℕ := 255

/-- `BITS_WORD`. -/
def bitsWord : ℕ := 32

/-- A thread priority, from 0 to `MAX_PRIO`; the idle thread's `-1` is not one of them. -/
abbrev Prio := Fin (maxPrio + 1)

instance (priority := 1100) : NeZero (maxPrio + 1) := ⟨Nat.succ_ne_zero _⟩

variable {τ : Type*}

/-- `prio_queue_t`, with the `ready_list` fields of all threads. -/
structure PrioQueue (τ : Type*) where
  /-- The `ready_list` pointers of each thread. -/
  readyList : Links τ
  /-- `prio_queue`: the head of the ring of each priority. -/
  heads : Prio → Option τ
  /-- `index_bitmap` and `prio_bitmap`. -/
  bitmap : Bitmap bitsWord

namespace PrioQueue

/-- The queue that `init` finds: every ring is empty and every bitmap word is zero. -/
def init : PrioQueue τ := ⟨Links.empty, fun _ => none, Bitmap.empty⟩

/-- `ready_list.is_queued()`. -/
def isQueued (q : PrioQueue τ) (t : τ) : Bool := q.readyList.isQueued t

/-- `get_highest_priority`: the greatest priority with a set bit, or `-1`. -/
def getHighestPriority (q : PrioQueue τ) : ℤ := q.bitmap.highest

section Operations

variable [DecidableEq τ]

/-- `enqueue`: append the thread to the ring of its priority and set both bitmap bits. -/
def enqueue (q : PrioQueue τ) (prio : Prio) (t : τ) : PrioQueue τ :=
  let r := q.readyList.enqueueTail (q.heads prio) t
  { readyList := r.1
    heads := update q.heads prio r.2
    bitmap := q.bitmap.set prio }

/-- `dequeue`: take the thread off the ring of its priority, and clear the priority's bit if that
was the last one. -/
def dequeue (q : PrioQueue τ) (prio : Prio) (t : τ) : PrioQueue τ :=
  let r := q.readyList.dequeue (q.heads prio) t
  { readyList := r.1
    heads := update q.heads prio r.2
    bitmap := if r.2 = none then q.bitmap.clear prio else q.bitmap }

end Operations

/-! ## What the rings spell -/

/-- The ring of each priority spells the list given for it, a thread is on at most one ring and is
marked as queued exactly when it is on one, and the bitmap holds the priorities of the non-empty
rings. -/
structure Represents (q : PrioQueue τ) (rings : Prio → List τ) : Prop where
  ring : ∀ p, IsRing q.readyList (rings p)
  head : ∀ p, q.heads p = (rings p).head?
  disjoint : ∀ {p p' t}, t ∈ rings p → t ∈ rings p' → p = p'
  queued : ∀ t, q.isQueued t = true ↔ ∃ p, t ∈ rings p
  consistent : q.bitmap.Consistent
  bit : ∀ n, q.bitmap.bit n = true ↔ ∃ p : Prio, (p : ℕ) = n ∧ rings p ≠ []

lemma init_represents : (init : PrioQueue τ).Represents fun _ => [] where
  ring _ := trivial
  head _ := rfl
  disjoint h := absurd h not_mem_nil
  queued t := by simp [init, isQueued, Links.isQueued, Links.empty]
  consistent := Bitmap.empty_consistent
  bit p := by simp [init]

/-- The words of the bitmap cover all priorities. -/
theorem prio_div_lt (p : Prio) : (p : ℕ) / bitsWord < bitsWord := by
  have hp : (p : ℕ) < maxPrio + 1 := p.isLt
  unfold maxPrio at hp
  unfold bitsWord
  omega

namespace Represents

variable {q : PrioQueue τ} {rings : Prio → List τ}

lemma notMem (h : q.Represents rings) {t : τ} (ht : q.isQueued t = false) (p : Prio) :
    t ∉ rings p := by
  intro hmem
  have := (h.queued t).2 ⟨p, hmem⟩
  simp [ht] at this

lemma getHighestPriority_eq_neg_one (h : q.Represents rings) :
    q.getHighestPriority = -1 ↔ ∀ t, q.isQueued t = false := by
  rw [getHighestPriority, h.consistent.highest_eq_neg_one_iff]
  constructor
  · intro hnone t
    by_contra hqueued
    obtain ⟨p, hp⟩ := (h.queued t).1 (by simpa using hqueued)
    have hbit : q.bitmap.bit p = true := (h.bit p).2 ⟨p, rfl, ne_nil_of_mem hp⟩
    simp [hnone p (prio_div_lt p)] at hbit
  · intro hnone n _
    by_contra hbit
    obtain ⟨p, -, hne⟩ := (h.bit n).1 (by simpa using hbit)
    obtain ⟨t, ht⟩ := exists_mem_of_ne_nil _ hne
    exact h.notMem (hnone t) p ht

/-- When a thread is queued, `get_highest_priority` finds the greatest priority with a thread on
its ring. -/
theorem getHighestPriority_isGreatest (h : q.Represents rings) {t : τ} (ht : q.isQueued t = true) :
    ∃ p : Prio, q.getHighestPriority = (p : ℕ) ∧ IsGreatest {p | rings p ≠ []} p := by
  obtain ⟨p₀, hp₀⟩ := (h.queued t).1 ht
  have hbit : q.bitmap.bit p₀ = true := (h.bit p₀).2 ⟨p₀, rfl, ne_nil_of_mem hp₀⟩
  obtain ⟨n, hn, hmem, hupper⟩ := h.consistent.highest_isGreatest (prio_div_lt p₀) hbit
  obtain ⟨p, rfl, hne⟩ := (h.bit n).1 hmem.2
  refine ⟨p, hn, hne, ?_⟩
  intro p' hp'
  exact hupper ⟨prio_div_lt p', (h.bit p').2 ⟨p', rfl, hp'⟩⟩

section Operations

variable [DecidableEq τ]

/-- Rewriting one ring. The new ring takes its members from the old one and from the threads that
were not queued, a member that it loses is no longer marked as queued, and no other field is
written. -/
theorem rewrite (h : q.Represents rings) {prio : Prio} {xs : List τ} {links : Links τ}
    {head : Option τ} {bitmap : Bitmap bitsWord} (hring : IsRing links xs) (hhead : head = xs.head?)
    (hframe : ∀ u, u ∉ rings prio → u ∉ xs →
      links.next u = q.readyList.next u ∧ links.prev u = q.readyList.prev u)
    (hnew : ∀ u ∈ xs, u ∈ rings prio ∨ q.isQueued u = false)
    (hlost : ∀ u ∈ rings prio, u ∉ xs → links.isQueued u = false) (hconsistent : bitmap.Consistent)
    (hbit : ∀ n, bitmap.bit n = true ↔
      (n = prio ∧ xs ≠ []) ∨ (n ≠ prio ∧ q.bitmap.bit n = true)) :
    PrioQueue.Represents ⟨links, update q.heads prio head, bitmap⟩
      (update rings prio xs) := by
  have hother : ∀ {p u}, p ≠ prio → u ∈ rings p → u ∉ rings prio ∧ u ∉ xs := by
    intro p u hp hu
    have hout : u ∉ rings prio := fun hu' => hp (h.disjoint hu hu')
    refine ⟨hout, fun hxs => ?_⟩
    rcases hnew u hxs with hold | hfresh
    · exact hout hold
    · exact h.notMem hfresh p hu
  have hring' : ∀ p, IsRing links (update rings prio xs p) := by
    refine (forall_update_iff _ _).2 ⟨hring, fun p hp => ?_⟩
    refine (h.ring p).congr (fun u hu => ?_) fun u hu => ?_
    · exact (hframe u (hother hp hu).1 (hother hp hu).2).1
    · exact (hframe u (hother hp hu).1 (hother hp hu).2).2
  refine ⟨hring', ?_, ?_, ?_, hconsistent, ?_⟩
  · intro p
    by_cases hp : p = prio
    · subst hp
      simpa using hhead
    · simpa [update_of_ne hp] using h.head p
  · intro p p' u hu hu'
    by_cases hp : p = prio <;> by_cases hp' : p' = prio
    · rw [hp, hp']
    · rw [hp, update_self] at hu
      rw [update_of_ne hp'] at hu'
      exact absurd hu (hother hp' hu').2
    · rw [hp', update_self] at hu'
      rw [update_of_ne hp] at hu
      exact absurd hu' (hother hp hu).2
    · rw [update_of_ne hp] at hu
      rw [update_of_ne hp'] at hu'
      exact h.disjoint hu hu'
  · intro u
    refine ⟨fun hu => ?_, fun ⟨p, hp⟩ => (hring' p).next_isSome hp⟩
    by_cases hxs : u ∈ xs
    · exact ⟨prio, by rwa [update_self]⟩
    have hout : u ∉ rings prio := by
      intro hmem
      cases (hlost u hmem hxs).symm.trans hu
    have hold : q.isQueued u = true := by
      simp only [isQueued, Links.isQueued] at hu ⊢
      rwa [(hframe u hout hxs).1] at hu
    obtain ⟨p, hp⟩ := (h.queued u).1 hold
    have hne : p ≠ prio := fun e => hout (e ▸ hp)
    exact ⟨p, by rwa [update_of_ne hne]⟩
  · intro n
    rw [hbit n, h.bit n, exists_update_iff rings fun p l => (p : ℕ) = n ∧ l ≠ [], eq_comm]
    refine or_congr_right ⟨?_, ?_⟩
    · rintro ⟨hn, p, rfl, hne⟩
      exact ⟨p, fun e => hn (by rw [e]), rfl, hne⟩
    · rintro ⟨p, hp, rfl, hne⟩
      exact ⟨fun e => hp (Fin.ext e), p, rfl, hne⟩

/-- `enqueue` appends a thread that is not queued to the ring of its priority. -/
theorem enqueue (h : q.Represents rings) {t : τ} (ht : q.isQueued t = false) (prio : Prio) :
    (q.enqueue prio t).Represents (update rings prio (rings prio ++ [t])) := by
  have hop := (h.ring prio).enqueueTail (h.notMem ht prio)
  rw [← h.head prio] at hop
  refine h.rewrite hop.1 hop.2 ?_ ?_ ?_ (h.consistent.set (prio_div_lt prio)) ?_
  · intro u hu hxs
    have hut : u ≠ t := fun e => hxs (by simp [e])
    rw [h.head prio]
    exact (h.ring prio).enqueueTail_of_notMem hu hut
  · intro u hu
    rcases mem_append.1 hu with hold | hnew
    · exact .inl hold
    · rw [mem_singleton] at hnew
      exact .inr (hnew ▸ ht)
  · intro u hu hxs
    exact absurd (mem_append_left [t] hu) hxs
  · intro n
    rw [Bitmap.bit_set q.bitmap (by decide) n]
    by_cases hn : n = prio <;> simp [hn]

lemma dequeue (h : q.Represents rings) {t : τ} {prio : Prio} (ht : t ∈ rings prio) :
    (q.dequeue prio t).Represents (update rings prio ((rings prio).erase t)) := by
  obtain ⟨as, bs, -, hsplit, herase⟩ := exists_erase_eq ht
  have hring : IsRing q.readyList (as ++ t :: bs) := hsplit ▸ h.ring prio
  have hbs : t ∉ as ++ bs := by
    rw [← herase, hsplit]
    exact hring.nodup.not_mem_erase
  have hop := hring.dequeue
  rw [← hsplit, ← h.head prio] at hop
  rw [herase]
  refine h.rewrite hop.1 hop.2 ?_ ?_ ?_ ?_ ?_
  · intro u hu _
    exact hring.dequeue_of_notMem _ (hsplit ▸ hu)
  · intro u hu
    rw [← herase] at hu
    exact .inl (mem_of_mem_erase hu)
  · intro u hu hxs
    -- The only member that leaves is the dequeued thread.
    have hut : u = t := by
      by_contra hne
      rw [hsplit] at hu
      simp only [mem_append, mem_cons] at hu hxs
      tauto
    rw [hut]
    exact Links.dequeue_not_isQueued _ _ _
  · split_ifs
    · exact h.consistent.clear (prio_div_lt prio)
    · exact h.consistent
  · intro n
    have hempty : (q.readyList.dequeue (q.heads prio) t).2 = none ↔ as ++ bs = [] := by
      rw [hop.2, List.head?_eq_none_iff]
    by_cases hnil : as ++ bs = []
    · rw [if_pos (hempty.2 hnil), Bitmap.bit_clear q.bitmap (by decide) n]
      by_cases hn : n = prio <;> simp [hn, hnil]
    · rw [if_neg fun e => hnil (hempty.1 e)]
      by_cases hn : n = prio
      · have hbit : q.bitmap.bit prio = true := (h.bit prio).2 ⟨prio, rfl, ne_nil_of_mem ht⟩
        simp [hn, hnil, hbit]
      · simp [hn]

end Operations

end Represents

end PrioQueue

end Okl4Kernel
