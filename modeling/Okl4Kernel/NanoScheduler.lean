import Okl4Kernel.NanoQueues

/-!
# The scheduler of the nanokernel

In every state of the nanokernel, a thread is on the queue that its state says (`spot`), except for
the thread that runs, which is on no queue. The thread that runs is a runnable one of the highest
priority. `Chosen s next` says this about a state and the thread that runs next; between the choice
of a thread and `switch_to`, this is not yet the current one.

The two ways to choose a thread are `do_schedule` (`Queues.schedule_chosen`), when all runnable
threads are on the ready rings, and `activate_schedule` (`Away.activateSchedule`), when one thread
becomes runnable.
-/

namespace Okl4Kernel.Nano

open LinkedRing Function

namespace Nanokernel

/-- The queue a thread belongs to, unless it runs. -/
def spot (s : Nanokernel) (t : Tid) : Option Queue :=
  match s.threadState t with
  | .runnable => some (.ready (s.priority t))
  | .waitFutex => some (.futex (s.hashTag (s.futexTag t)))
  | .waitIpcSend => (s.ipcWaitingFor t).map .send
  | .waitIpcCall => (s.ipcWaitingFor t).map .send
  | .halted => if t < s.maxTcbs then some .free else none
  | _ => none

/-- The places of the threads while `running` runs. -/
def off (place : Tid → Option Queue) (running : Option Tid) (t : Tid) : Option Queue :=
  if running = some t then none else place t

/-- The thread that runs next is well chosen. -/
structure Chosen (s : Nanokernel) (next : Option Tid) : Prop where
  queues : s.Queues (off s.spot next)
  runnable : ∀ t, next = some t → s.threadState t = .runnable
  highest : ∀ t, s.threadState t = .runnable → next ≠ some t →
    ∃ c, next = some c ∧ s.priority t ≤ s.priority c

/-- The facts about the TCBs that the scheduler relies on. -/
structure Sound (s : Nanokernel) : Prop where
  /-- Priorities are in the range of the bitmap. -/
  priority_le : ∀ t, s.priority t ≤ maxPriority
  /-- There are no threads outside of the table. -/
  outside : ∀ t, s.maxTcbs ≤ t → s.threadState t = .halted
  /-- A thread that joins another one is blocked, and joins only one. -/
  joiner : ∀ t j, s.joiner t = some j → s.threadState j = .waitJoin
  joiner_inj : ∀ t t' j, s.joiner t = some j → s.joiner t' = some j → t = t'
  /-- The table of handlers agrees with the TCBs. -/
  handler : ∀ i t, s.interruptHandlers i = some t ↔ s.registeredInterrupt t = some i
  /-- An interrupt is not masked only when its handler waits. -/
  unmasked : ∀ i, s.unmasked i = true →
    ∃ t, s.interruptHandlers i = some t ∧ s.threadState t = .waitInt

/-- The invariant of the nanokernel. -/
structure Inv (s : Nanokernel) : Prop where
  sound : s.Sound
  chosen : s.Chosen s.currentTcb

variable {s s' : Nanokernel} {t c : Tid} {next : Option Tid}

/-! ## Places -/

variable (place : Tid → Option Queue)

@[simp] lemma off_none : off place none = place := by
  funext t
  simp [off]

@[simp] lemma off_self (t : Tid) : off place (some t) t = none := by
  simp [off]

lemma off_of_ne (hne : next ≠ some t) : off place next t = place t := by
  simp [off, hne]

lemma off_some (t : Tid) : off place (some t) = update place t none :=
  eq_update_iff.2 ⟨off_self place t, fun _ hu =>
    off_of_ne place fun heq => hu (Option.some.inj heq).symm⟩

lemma off_update (q : Option Queue) (hne : next ≠ some t) :
    off (update place t q) next = update (off place next) t q := by
  refine eq_update_iff.2 ⟨?_, fun u hu => ?_⟩
  · rw [off_of_ne _ hne, update_self]
  · simp only [off, update_of_ne hu]

lemma off_eq_some {place : Tid → Option Queue} {q : Queue} (h : off place next t = some q) :
    next ≠ some t ∧ place t = some q := by
  unfold off at h
  split_ifs at h with hne
  exact ⟨hne, h⟩

lemma spot_eq_ready {p : ℕ} :
    s.spot t = some (.ready p) ↔ s.threadState t = .runnable ∧ s.priority t = p := by
  unfold spot
  split <;> simp_all

variable {dest : Tid}

lemma spot_eq_send (h : s.spot t = some (.send dest)) :
    (s.threadState t = .waitIpcSend ∨ s.threadState t = .waitIpcCall) ∧
      s.ipcWaitingFor t = some dest := by
  unfold spot at h
  split at h <;> simp_all

lemma spot_eq_futex {slot : ℕ} (h : s.spot t = some (.futex slot)) :
    s.threadState t = .waitFutex ∧ s.hashTag (s.futexTag t) = slot := by
  unfold spot at h
  split at h <;> simp_all

lemma spot_eq_free (h : s.spot t = some .free) : s.threadState t = .halted ∧ t < s.maxTcbs := by
  unfold spot at h
  split at h <;> simp_all

/-- The place of a thread depends on its own fields. -/
lemma spot_congr (hstate : s'.threadState t = s.threadState t)
    (hfor : s'.ipcWaitingFor t = s.ipcWaitingFor t) (hprio : s'.priority t = s.priority t)
    (htag : s'.futexTag t = s.futexTag t)
    (hsame : (s'.maxTcbs, s'.futexHashSlotsLg2) = (s.maxTcbs, s.futexHashSlotsLg2)) :
    s'.spot t = s.spot t := by
  obtain ⟨hmax, hlg⟩ := Prod.mk.inj hsame
  unfold spot hashTag
  rw [hstate, hprio, htag, hfor, hmax, hlg]

lemma Chosen.congr (h : s.Chosen next) (hspot : s'.spot = s.spot)
    (hsame : (s'.queueFields, s'.threadState, s'.priority) =
      (s.queueFields, s.threadState, s.priority)) : s'.Chosen next := by
  obtain ⟨hqueues, hsame⟩ := Prod.mk.inj hsame
  obtain ⟨hstate, hprio⟩ := Prod.mk.inj hsame
  refine ⟨?_, ?_, ?_⟩
  · rw [hspot]
    exact h.queues.congr hqueues
  · rw [hstate]
    exact h.runnable
  · rw [hstate, hprio]
    exact h.highest

lemma Sound.congr (h : s.Sound)
    (hsame : (s'.maxTcbs, s'.priority, s'.threadState, s'.joiner, s'.interruptHandlers,
      s'.registeredInterrupt, s'.unmasked) = (s.maxTcbs, s.priority, s.threadState, s.joiner,
      s.interruptHandlers, s.registeredInterrupt, s.unmasked)) : s'.Sound := by
  simp only [Prod.mk.injEq] at hsame
  obtain ⟨hmax, hprio, hstate, hjoiner, hhandlers, hregistered, hunmasked⟩ := hsame
  refine ⟨?_, ?_, ?_, ?_, ?_, ?_⟩
  · rw [hprio]
    exact h.priority_le
  · rw [hmax, hstate]
    exact h.outside
  · rw [hjoiner, hstate]
    exact h.joiner
  · rw [hjoiner]
    exact h.joiner_inj
  · rw [hhandlers, hregistered]
    exact h.handler
  · rw [hunmasked, hhandlers, hstate]
    exact h.unmasked

/-- The state of a thread changes that nobody waits for: it does not join another one, and is not
the handler of an interrupt that can come. -/
lemma Sound.setState_of_free (h : s.Sound) (ht : t < s.maxTcbs) (hjoin : ∀ u, s.joiner u ≠ some t)
    (hint : ∀ i, s.unmasked i = true → s.interruptHandlers i ≠ some t) (state : ThreadState) :
    Sound { s with threadState := update s.threadState t state } where
  __ := h
  outside u hu := by
    have hne : u ≠ t := by
      rintro rfl
      exact absurd ht (Nat.not_lt.2 hu)
    exact (update_of_ne hne _ _).trans (h.outside u hu)
  joiner u j hu := by
    have hne : j ≠ t := by
      rintro rfl
      exact hjoin u hu
    exact (update_of_ne hne _ _).trans (h.joiner u j hu)
  unmasked i hi := by
    obtain ⟨u, hu, hstate⟩ := h.unmasked i hi
    have hne : u ≠ t := by
      rintro rfl
      exact hint i hi hu
    exact ⟨u, hu, (update_of_ne hne _ _).trans hstate⟩

lemma Sound.setState (h : s.Sound) (ht : t < s.maxTcbs)
    (hfree : s.threadState t ≠ .waitJoin ∧ s.threadState t ≠ .waitInt) (state : ThreadState) :
    Sound { s with threadState := update s.threadState t state } := by
  refine h.setState_of_free ht (fun u hu => hfree.1 (h.joiner u t hu)) (fun i hi hhandler => ?_) state
  obtain ⟨u, hu, hstate⟩ := h.unmasked i hi
  obtain rfl : t = u := Option.some.inj (hhandler.symm.trans hu)
  exact hfree.2 hstate

lemma Sound.lt_maxTcbs (h : s.Sound) (ht : s.threadState t ≠ .halted) : t < s.maxTcbs := by
  by_contra hge
  exact ht (h.outside t (Nat.not_lt.1 hge))

lemma Sound.place_lt (h : s.Sound) (next : Option Tid) (u : Tid) (hu : off s.spot next u ≠ none) :
    u < s.maxTcbs := by
  have hspot : s.spot u ≠ none := by
    intro hnone
    apply hu
    simp [off, hnone]
  by_cases hstate : s.threadState u = .halted
  · unfold spot at hspot
    rw [hstate] at hspot
    simpa using hspot
  · exact h.lt_maxTcbs hstate

/-! ## The choice of the next thread -/

lemma Queues.schedule {place : Tid → Option Queue} (h : s.Queues place) :
    s.doSchedule.1.Queues (off place s.doSchedule.2) ∧
    (∀ t, s.doSchedule.2 = some t → ∃ p, place t = some (.ready p) ∧
      ∀ t' p', place t' = some (.ready p') → p' ≤ p) ∧
    (s.doSchedule.2 = none → ∀ t p, place t ≠ some (.ready p)) := by
  rcases h.doSchedule with ⟨heq, hidle⟩ | ⟨t, p, hnext, hplace, hhighest, hqueues⟩
  · rw [heq]
    refine ⟨by simpa using h, fun t ht => ?_, fun _ => hidle⟩
    cases ht
  · rw [hnext]
    refine ⟨?_, fun u hu => ?_, fun hnone => ?_⟩
    · rwa [off_some]
    · cases hu
      exact ⟨p, hplace, hhighest⟩
    · cases hnone

/-- When every thread is in its place, the next one is well chosen. -/
lemma Queues.schedule_chosen (h : s.Queues s.spot) : s.doSchedule.1.Chosen s.doSchedule.2 := by
  obtain ⟨hqueues, hsome, hnone⟩ := h.schedule
  have hframe := doSchedule_frame s
  have hspot : s.doSchedule.1.spot = s.spot := by rw [hframe]; rfl
  have hstate : s.doSchedule.1.threadState = s.threadState := by rw [hframe]
  have hprio : s.doSchedule.1.priority = s.priority := by rw [hframe]
  refine ⟨?_, fun t ht => ?_, fun t ht hne => ?_⟩
  · rwa [hspot]
  · obtain ⟨p, hp, -⟩ := hsome t ht
    rw [hstate]
    exact (spot_eq_ready.1 hp).1
  · rw [hstate] at ht
    have hready : s.spot t = some (.ready (s.priority t)) := spot_eq_ready.2 ⟨ht, rfl⟩
    rcases hchoice : s.doSchedule.2 with _ | c
    · exact absurd hready (hnone hchoice t _)
    obtain ⟨p, hp, hhighest⟩ := hsome c hchoice
    refine ⟨c, rfl, ?_⟩
    rw [hprio, (spot_eq_ready.1 hp).2]
    exact hhighest t _ hready

lemma Sound.doSchedule (h : s.Sound) : s.doSchedule.1.Sound := by
  rw [doSchedule_frame]
  exact h.congr rfl

lemma Inv.of_schedule (hsound : s.Sound) (hqueues : s.Queues s.spot) :
    (s.doSchedule.1.switchTo s.doSchedule.2).Inv :=
  ⟨hsound.doSchedule.congr rfl, hqueues.schedule_chosen.congr rfl rfl⟩

/-- Everything is well but for the thread `dest`, which is on no queue and about to be activated. -/
structure Away (s : Nanokernel) (dest : Tid) : Prop where
  queues : s.Queues (update (off s.spot s.currentTcb) dest none)
  current_ne : s.currentTcb ≠ some dest
  runnable : ∀ t, s.currentTcb = some t → s.threadState t = .runnable
  highest : ∀ t, t ≠ dest → s.threadState t = .runnable → s.currentTcb ≠ some t →
    ∃ c, s.currentTcb = some c ∧ s.priority t ≤ s.priority c

/-- A blocked thread that is on no queue can be activated. -/
lemma Chosen.away (h : s.Chosen s.currentTcb) (hspot : s.spot dest = none) : s.Away dest := by
  have hne : s.currentTcb ≠ some dest := by
    intro hcurrent
    have hready := spot_eq_ready.2 ⟨h.runnable dest hcurrent, rfl⟩
    rw [hspot] at hready
    cases hready
  refine ⟨?_, hne, h.runnable, fun t _ => h.highest t⟩
  have hoff : off s.spot s.currentTcb dest = none := by rw [off_of_ne _ hne, hspot]
  have hsame : update (off s.spot s.currentTcb) dest none = off s.spot s.currentTcb := by
    rw [← hoff, update_eq_self]
  rw [hsame]
  exact h.queues

/-- The rule for a state in which the other threads are as they were. -/
lemma Away.of_queues (hne : s.currentTcb ≠ some dest)
    (hrunnable : ∀ t, s.currentTcb = some t → s.threadState t = .runnable)
    (hhighest : ∀ t, t ≠ dest → s.threadState t = .runnable → s.currentTcb ≠ some t →
      ∃ c, s.currentTcb = some c ∧ s.priority t ≤ s.priority c)
    (hqueues : s'.Queues (update (off s.spot s.currentTcb) dest none))
    (hspot : ∀ t, t ≠ dest → s'.spot t = s.spot t) (hstate : s'.threadState = s.threadState)
    (hprio : ∀ t, t ≠ dest → s'.priority t = s.priority t)
    (hcurrent : s'.currentTcb = s.currentTcb) : s'.Away dest := by
  refine ⟨?_, ?_, ?_, ?_⟩
  · have hplace : update (off s'.spot s'.currentTcb) dest none =
        update (off s.spot s.currentTcb) dest none := by
      funext t
      by_cases ht : t = dest
      · simp [ht]
      · rw [update_of_ne ht, update_of_ne ht, hcurrent]
        simp only [off, hspot t ht]
    rwa [hplace]
  · rwa [hcurrent]
  · rwa [hcurrent, hstate]
  · rw [hcurrent, hstate]
    intro t ht hready hnext
    obtain ⟨c, hc, hle⟩ := hhighest t ht hready hnext
    have hcdest : c ≠ dest := by
      rintro rfl
      exact hne hc
    refine ⟨c, hc, ?_⟩
    rwa [hprio t ht, hprio c hcdest]

/-- The frame rule for a thread that is about to be activated. -/
lemma Away.congr (h : s.Away dest) (hqueues : s'.queueFields = s.queueFields)
    (hspot : s'.spot = s.spot) (hsame : (s'.threadState, s'.priority, s'.currentTcb) =
      (s.threadState, s.priority, s.currentTcb)) : s'.Away dest := by
  simp only [Prod.mk.injEq] at hsame
  obtain ⟨hstate, hprio, hcurrent⟩ := hsame
  exact .of_queues h.current_ne h.runnable h.highest (h.queues.congr hqueues) (by simp [hspot])
    hstate (by simp [hprio]) hcurrent

/-- `activate_schedule` runs the new thread if it has a higher priority than the current one. -/
lemma Away.activateSchedule (h : s.Away dest) (hprio : ∀ t, s.priority t ≤ maxPriority) :
    (s.activateSchedule dest).1.Chosen (s.activateSchedule dest).2 := by
  unfold Nanokernel.activateSchedule chooseNext
  set s' := s.setRunnable dest
  have hspot : s'.spot = update s.spot dest (some (.ready (s.priority dest))) :=
    eq_update_iff.2 ⟨spot_eq_ready.2 ⟨update_self .., rfl⟩,
      fun t ht => spot_congr (update_of_ne ht _ _) rfl rfl rfl rfl⟩
  have hstate : ∀ t, s'.threadState t = .runnable →
      t = dest ∨ (t ≠ dest ∧ s.threadState t = .runnable) := by
    intro t ht
    by_cases hdest : t = dest
    · exact .inl hdest
    · exact .inr ⟨hdest, (update_of_ne hdest _ _).symm.trans ht⟩
  have hself : s'.threadState dest = .runnable := update_self ..
  have hqueues : s'.Queues (update (off s.spot s.currentTcb) dest none) := h.queues.congr rfl
  have hhighest := h.highest
  rw [show s'.currentTcb = s.currentTcb from rfl, show s'.priority = s.priority from rfl]
  rcases hc : s.currentTcb with _ | c <;> rw [hc] at hqueues hhighest
  · refine ⟨?_, fun t ht => ?_, fun t ht hne => ?_⟩
    · rwa [hspot, off_some, update_idem, ← off_none s.spot]
    · cases ht
      exact hself
    · rcases hstate t ht with rfl | ⟨hdest, hstate'⟩
      · exact absurd rfl hne
      · obtain ⟨_, ⟨⟩, -⟩ := hhighest t hdest hstate' nofun
  · have hcdest : c ≠ dest := by
      rintro rfl
      exact h.current_ne hc
    dsimp only
    split_ifs with hlt
    · refine ⟨?_, fun t ht => ?_, fun t ht hne => ⟨dest, rfl, ?_⟩⟩
      · have hnone : update (off s.spot (some c)) dest none c = none := by
          rw [update_of_ne hcdest, off_self]
        have hplace : off (s'.enqueue c).spot (some dest) =
            update (update (off s.spot (some c)) dest none) c (some (.ready (s.priority c))) := by
          have hsame : (s'.enqueue c).spot = s'.spot := rfl
          rw [hsame, hspot, off_some, off_some, update_idem, update_comm hcdest, update_idem,
            update_comm hcdest.symm, ← spot_eq_ready.2 ⟨h.runnable c hc, rfl⟩, update_eq_self]
        rw [hplace]
        exact hqueues.enqueue hnone (hprio c)
      · cases ht
        exact hself
      show s.priority t ≤ s.priority dest
      rcases hstate t ht with rfl | ⟨hdest, hstate'⟩
      · exact le_rfl
      · by_cases htc : t = c
        · rw [htc]
          exact hlt.le
        · obtain ⟨_, ⟨⟩, hle⟩ := hhighest t hdest hstate' fun e => htc (Option.some.inj e).symm
          exact hle.trans hlt.le
    · refine ⟨?_, fun t ht => ?_, fun t ht hne => ⟨c, rfl, ?_⟩⟩
      · have hplace : off (s'.enqueue dest).spot (some c) =
            update (update (off s.spot (some c)) dest none) dest
              (some (.ready (s.priority dest))) := by
          have hsame : (s'.enqueue dest).spot = s'.spot := rfl
          rw [hsame, hspot, update_idem, off_update _ _ fun heq => hcdest (Option.some.inj heq)]
        rw [hplace]
        exact hqueues.enqueue (update_self ..) (hprio dest)
      · cases ht
        exact (update_of_ne hcdest _ _).trans (h.runnable c hc)
      · show s.priority t ≤ s.priority c
        rcases hstate t ht with rfl | ⟨hdest, hstate'⟩
        · exact Nat.not_lt.1 hlt
        · obtain ⟨_, ⟨⟩, hle⟩ := hhighest t hdest hstate' hne
          exact hle

/-- `activate_schedule` changes the state of the new thread, and the ready rings. -/
lemma activateSchedule_frame (s : Nanokernel) (dest : Tid) : (s.activateSchedule dest).1 = { s with
      threadState := update s.threadState dest .runnable
      links := (s.activateSchedule dest).1.links
      priorityHeads := (s.activateSchedule dest).1.priorityHeads
      priorityBitmap := (s.activateSchedule dest).1.priorityBitmap } := by
  unfold activateSchedule chooseNext
  split
  · rfl
  · split_ifs <;> rfl

lemma Away.inv (h : s.Away dest) (hprio : ∀ t, s.priority t ≤ maxPriority)
    (hsound : Sound { s with threadState := update s.threadState dest .runnable }) :
    ((s.activateSchedule dest).1.switchTo (s.activateSchedule dest).2).Inv := by
  refine ⟨?_, (h.activateSchedule hprio).congr rfl rfl⟩
  rw [activateSchedule_frame]
  exact hsound.congr rfl

end Nanokernel

end Okl4Kernel.Nano
