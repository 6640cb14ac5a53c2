import Okl4Kernel.NanoScheduler

/-!
# Every system call of the nanokernel keeps the scheduler right

The invariant `Inv` of the nanokernel is kept by each system call and by each interrupt (`Inv.step`).
It holds in the initial state, so it holds along every run: a runnable thread runs or is on the ready
ring of its priority, once, and no other thread is; the bitmap has the priorities with ready threads;
and no ready thread has a higher priority than the thread that runs (`reachable_scheduled`).
-/

namespace Okl4Kernel.Nano

open LinkedRing TransitionSystem Function Option ThreadState Inv

namespace Nanokernel

variable {s s' : Nanokernel} {t c : Tid} {next : Option Tid}
variable {state : ThreadState} {dest : Tid} {i : ℕ}

/-! ## What keeps the tables -/

/-- A value that was not written is at another place, and was there before. -/
lemma of_update_eq {α β : Type*} [DecidableEq α] {f : α → β} {a x : α} {b c : β}
    (hx : update f a b x = c) (hb : b ≠ c) : x ≠ a ∧ f x = c := by
  have hne : x ≠ a := by
    rintro rfl
    exact hb ((update_self ..).symm.trans hx)
  exact ⟨hne, (update_of_ne hne _ _).symm.trans hx⟩

lemma Sound.register (h : s.Sound) (hfree : s.interruptHandlers i = none)
    (hnew : s.registeredInterrupt c = none) : Sound { s with
      interruptHandlers := update s.interruptHandlers i (some c)
      registeredInterrupt := update s.registeredInterrupt c (some i) } where
  __ := h
  handler i' t := by
    have hold := h.handler i' t
    simp only [update_apply]
    split_ifs with hi ht ht
    · simp [hi, ht]
    · rw [hi, hfree] at hold
      simp only [some.injEq, hi]
      constructor
      · exact fun heq => absurd heq.symm ht
      · exact fun heq => absurd (hold.2 heq) (by simp)
    · rw [ht, hnew] at hold
      simp only [some.injEq, ht]
      constructor
      · exact fun heq => absurd (hold.1 heq) (by simp)
      · exact fun heq => absurd heq.symm hi
    · exact hold
  unmasked i' hi' := by
    obtain ⟨t, ht, hstate⟩ := h.unmasked i' hi'
    have hne : i' ≠ i := ne_of_apply_ne s.interruptHandlers (by simp [hfree, ht])
    exact ⟨t, (update_of_ne hne _ _).trans ht, hstate⟩

lemma Sound.deregister (h : s.Sound) (hreg : s.registeredInterrupt c = some i)
    (hstate : s.threadState c ≠ .waitInt) : Sound { s with
      interruptHandlers := update s.interruptHandlers i none
      registeredInterrupt := update s.registeredInterrupt c none } where
  __ := h
  handler i' t := by
    have hold := h.handler i' t
    simp only [update_apply]
    split_ifs with hi ht ht
    · simp
    · -- The handler was `c`, so no other thread has registered for `i`.
      refine iff_of_false (by simp) fun heq => ?_
      have hboth := (h.handler i' t).2 heq
      rw [hi, (h.handler i c).2 hreg] at hboth
      exact ht (some.inj hboth).symm
    · refine iff_of_false (fun heq => ?_) (by simp)
      rw [ht, hreg] at hold
      rw [ht] at heq
      exact hi (some.inj (hold.1 heq)).symm
    · exact hold
  unmasked i' hi' := by
    obtain ⟨t, ht, hwait⟩ := h.unmasked i' hi'
    have hne : i' ≠ i := by
      rintro rfl
      rw [(h.handler i' c).2 hreg] at ht
      cases ht
      exact hstate hwait
    exact ⟨t, (update_of_ne hne _ _).trans ht, hwait⟩

lemma Sound.unmask (h : s.Sound) (hhandler : s.interruptHandlers i = some c)
    (hstate : s.threadState c = .waitInt) :
    Sound { s with unmasked := update s.unmasked i true } where
  __ := h
  unmasked i' hi' := by
    by_cases hi : i' = i
    · subst hi
      exact ⟨c, hhandler, hstate⟩
    · exact h.unmasked i' ((update_of_ne hi _ _).symm.trans hi')

lemma Sound.addJoiner (h : s.Sound) (hstate : s.threadState c = .waitJoin)
    (hfresh : ∀ t, s.joiner t ≠ some c) (dest : Tid) :
    Sound { s with joiner := update s.joiner dest (some c) } := by
  have hold : ∀ {t j}, update s.joiner dest (some c) t = some j →
      t = dest ∧ c = j ∨ s.joiner t = some j := by
    intro t j hj
    by_cases ht : t = dest
    · rw [ht, update_self] at hj
      exact .inl ⟨ht, some.inj hj⟩
    · exact .inr ((update_of_ne ht _ _).symm.trans hj)
  refine { h with joiner := fun t j hj => ?_, joiner_inj := fun t t' j hj hj' => ?_ }
  · rcases hold hj with ⟨-, rfl⟩ | hj
    · exact hstate
    · exact h.joiner t j hj
  · rcases hold hj with ⟨ht, rfl⟩ | hj
    · rcases hold hj' with ⟨ht', -⟩ | hj'
      · rw [ht, ht']
      · exact absurd hj' (hfresh t')
    · rcases hold hj' with ⟨-, rfl⟩ | hj'
      · exact absurd hj (hfresh t)
      · exact h.joiner_inj t t' j hj hj'

lemma sleepOnFutex_frame (s : Nanokernel) (c : Tid) (tag : ℕ) : s.sleepOnFutex c tag = { s with
      currentTcb := ((s.setSyscallReturnVal c 0).deactivateSelf c .waitFutex).doSchedule.2
      threadState := update s.threadState c .waitFutex
      regs := (s.setSyscallReturnVal c 0).regs
      futexTag := update s.futexTag c tag
      links := (s.sleepOnFutex c tag).links
      priorityHeads := (s.sleepOnFutex c tag).priorityHeads
      priorityBitmap := (s.sleepOnFutex c tag).priorityBitmap
      futexHead := (s.sleepOnFutex c tag).futexHead
      futexTail := (s.sleepOnFutex c tag).futexTail } := by
  unfold Nanokernel.sleepOnFutex Nanokernel.deactivateSelfSchedule
  dsimp only
  rw [enqueueFutex_frame, doSchedule_frame]
  rfl

/-- A thread that left its queue, and that nobody waits for, is activated. -/
lemma Away.inv_of_state (h : s.Away dest) (hsound : s.Sound) (hlt : dest < s.maxTcbs)
    (hfree : s.threadState dest ≠ .waitJoin ∧ s.threadState dest ≠ .waitInt) :
    ((s.activateSchedule dest).1.switchTo (s.activateSchedule dest).2).Inv :=
  h.inv hsound.priority_le (hsound.setState hlt hfree .runnable)

/-- The handler of an interrupt becomes runnable, and the interrupt is masked. -/
lemma Sound.mask (h : s.Sound) (hhandler : s.interruptHandlers i = some t)
    (hstate : s.threadState t = .waitInt) : Sound { s with
      unmasked := update s.unmasked i false
      threadState := update s.threadState t .runnable } := by
  have hmasked : Sound { s with unmasked := update s.unmasked i false } :=
    { h with unmasked := fun i' hi' => h.unmasked i' (of_update_eq hi' Bool.false_ne_true).2 }
  have hlt : t < s.maxTcbs := h.lt_maxTcbs (by simp [hstate])
  refine hmasked.setState_of_free hlt (fun u hu => ?_) (fun i' hi' hu => ?_) .runnable
  · simp [h.joiner u t hu] at hstate
  · have hreg := (h.handler i' t).1 hu
    rw [(h.handler i t).1 hhandler] at hreg
    exact (of_update_eq hi' Bool.false_ne_true).1 (some.inj hreg).symm

lemma Sound.removeJoiner (h : s.Sound) {j : Tid} (hjoiner : s.joiner c = some j) : Sound { s with
      joiner := update s.joiner c none
      threadState := update s.threadState j .runnable } := by
  have hold : ∀ {u k}, update s.joiner c none u = some k → u ≠ c ∧ s.joiner u = some k :=
    fun hk => of_update_eq hk nofun
  have hremoved : Sound { s with joiner := update s.joiner c none } :=
    { h with
      joiner := fun u k hk => h.joiner u k (hold hk).2
      joiner_inj := fun u u' k hk hk' => h.joiner_inj u u' k (hold hk).2 (hold hk').2 }
  have hwait := h.joiner c j hjoiner
  have hlt : j < s.maxTcbs := h.lt_maxTcbs (by simp [hwait])
  refine hremoved.setState_of_free hlt (fun u hu => ?_) (fun i hi hhandler => ?_) .runnable
  · exact (hold hu).1 (h.joiner_inj u c j (hold hu).2 hjoiner)
  · obtain ⟨u, hu, hstate⟩ := h.unmasked i hi
    obtain rfl : j = u := some.inj (hhandler.symm.trans hu)
    simp [hwait] at hstate

/-- The thread that joins the current one is woken up, and the TCB of the current one is freed. -/
lemma Sound.wakeJoiner (h : s.Sound) (hqueues : s.Queues s.spot)
    (hzombie : s.threadState c = .zombie) :
    (s.wakeJoiner c).Sound ∧ (s.wakeJoiner c).Queues (s.wakeJoiner c).spot := by
  unfold Nanokernel.wakeJoiner
  rcases hjoiner : s.joiner c with _ | j
  · exact ⟨h, hqueues⟩
  have hwait := h.joiner c j hjoiner
  have hlt : c < s.maxTcbs := h.lt_maxTcbs (by simp [hzombie])
  have hjc : j ≠ c := ne_of_apply_ne s.threadState (by simp [hwait, hzombie])
  refine ⟨?_, ?_⟩
  · have hhalted := h.setState hlt (by simp [hzombie]) .halted
    exact (hhalted.removeJoiner hjoiner).congr rfl
  have hspotc : s.spot c = none := by simp [spot, hzombie]
  have hspotj : s.spot j = none := by simp [spot, hwait]
  have hreaped : ((s.threadReap c).setRunnable j).Queues (update s.spot c (some .free)) :=
    (hqueues.threadReap hspotc).congr rfl
  have hplace : update s.spot c (some .free) j = none := by
    rw [update_of_ne hjc, hspotj]
  have hactive := hreaped.enqueue hplace (h.priority_le j)
  refine Eq.mp (congrArg _ ?_) (hactive.congr rfl)
  refine (eq_update_iff.2 ⟨?_, fun u huj => ?_⟩).symm
  · exact spot_eq_ready.2 ⟨update_self .., rfl⟩
  by_cases huc : u = c
  · subst huc
    have hself : update (update s.threadState u .halted) j .runnable u = .halted := by
      rw [update_of_ne huj, update_self]
    simp [spot, activate, enqueue, setRunnable, Nanokernel.threadReap, hself, hlt]
  · rw [update_of_ne huc]
    exact spot_congr ((update_of_ne huj _ _).trans (update_of_ne huc _ _)) rfl rfl rfl rfl

/-! ## Parts of system calls, and interrupts -/

section

variable (h : s.Inv)
include h

lemma Inv.setSyscallReturnVal (tcb : Tid) (value : BitVec 32) :
    (s.setSyscallReturnVal tcb value).Inv :=
  ⟨h.sound.congr rfl, h.chosen.congr rfl rfl⟩

lemma Inv.threadReap (hdest : dest < s.maxTcbs)
    (hzombie : s.threadState dest = .zombie) : (s.threadReap dest).Inv := by
  have hspot : s.spot dest = none := by simp [spot, hzombie]
  have hne : s.currentTcb ≠ some dest := by
    intro heq
    have hstate := h.chosen.runnable dest heq
    rw [hzombie] at hstate
    cases hstate
  have hself : (s.threadReap dest).threadState dest = .halted := update_self ..
  have hplace : off (s.threadReap dest).spot s.currentTcb =
      update (off s.spot s.currentTcb) dest (some .free) := by
    rw [← off_update _ _ hne]
    refine congrArg (off · _) (eq_update_iff.2 ⟨?_, fun t ht => ?_⟩)
    · rw [spot, hself]
      exact if_pos hdest
    · exact spot_congr (update_of_ne ht _ _) rfl rfl rfl rfl
  refine ⟨?_, ?_, fun t ht => ?_, fun t ht hne' => ?_⟩
  · exact (h.sound.setState hdest (by simp [hzombie]) .halted).congr rfl
  · have hqueues := h.chosen.queues.threadReap (t := dest) (by rw [off_of_ne _ hne, hspot])
    rwa [← hplace] at hqueues
  · have hne' : t ≠ dest := by
      rintro rfl
      exact hne ht
    exact (update_of_ne hne' _ _).trans (h.chosen.runnable t ht)
  · exact h.chosen.highest t (of_update_eq ht nofun).2 hne'

lemma Inv.setPending (tags : List ℕ) : Inv { s with futexPendingTags := tags } :=
  ⟨h.sound.congr rfl, h.chosen.congr rfl rfl⟩

lemma Inv.deliverSignals (hlt : dest < s.maxTcbs) (hstate : s.threadState dest = .waitSignal) :
    ((s.deliverSignals dest).1.switchTo (s.deliverSignals dest).2).Inv := by
  have hspot : s.spot dest = none := by simp [spot, hstate]
  have haway : Away { s.setSyscallReturnVal dest (s.signals dest &&& s.signalMask dest) with
      signals := update s.signals dest (s.signals dest &&& ~~~(s.signalMask dest)) } dest :=
    (h.chosen.away hspot).congr rfl rfl rfl
  have hfree : s.threadState dest ≠ .waitJoin ∧ s.threadState dest ≠ .waitInt := by simp [hstate]
  exact haway.inv_of_state (h.sound.congr rfl) hlt hfree

/-- `c_handle_interrupt`. The handler waits, as the kernel asserts. -/
lemma Inv.handleInterrupt (hi : s.unmasked i = true) : (s.handleInterrupt i).Inv := by
  obtain ⟨t, hhandler, hstate⟩ := h.sound.unmasked i hi
  have hspot : s.spot t = none := by simp [spot, hstate]
  unfold Nanokernel.handleInterrupt
  rw [hhandler]
  refine Away.inv ?_ h.sound.priority_le ?_
  · exact (h.chosen.away hspot).congr rfl rfl rfl
  · exact (h.sound.mask hhandler hstate).congr rfl

lemma Inv.free_halted (hfree : s.tcbFreeHead = some t) :
    s.currentTcb ≠ some t ∧ s.threadState t = .halted ∧ t < s.maxTcbs := by
  have hhead : s.head .free = some t := hfree
  obtain ⟨hne, hplace⟩ := off_eq_some (h.chosen.queues.place_head hhead)
  exact ⟨hne, spot_eq_free hplace⟩

lemma Inv.saveMessage (tcb : Tid) (message : ℕ → BitVec 32) : (s.saveMessage tcb message).Inv :=
  ⟨h.sound.congr rfl, h.chosen.congr rfl rfl⟩

/-- A thread that waits for a message, or that runs, is on no queue, whoever it waits for. -/
lemma Inv.setWaitingFor (hstate : s.threadState t = .waitIpcRecv ∨
      s.threadState t = .runnable) (waitingFor : Option Tid) :
    Inv { s with ipcWaitingFor := update s.ipcWaitingFor t waitingFor } := by
  refine ⟨h.sound.congr rfl, h.chosen.congr ?_ rfl⟩
  funext u
  by_cases hu : u = t
  · subst hu
    rcases hstate with hstate | hstate <;> simp [spot, hstate]
  · exact spot_congr rfl (update_of_ne hu _ _) rfl rfl rfl

lemma Inv.handOver (hstate : s.threadState dest = .waitIpcRecv) : (s.handOver c dest).Inv := by
  have hinv := h.setWaitingFor (.inl hstate) none
  exact ⟨hinv.sound.congr rfl, hinv.chosen.congr rfl rfl⟩

lemma Inv.wakeReceiver (hdest : s.threadState dest = .waitIpcRecv) :
    ((s.activateSchedule dest).1.switchTo (s.activateSchedule dest).2).Inv := by
  have hspot : s.spot dest = none := by simp [spot, hdest]
  exact (h.chosen.away hspot).inv_of_state h.sound (h.sound.lt_maxTcbs (by simp [hdest]))
    (by simp [hdest])

/-- The first blocked sender waits for the thread on whose queue it is. -/
lemma Inv.sender_blocked {src : Tid} (hsrc : s.ipcSendHead c = some src) : s.currentTcb ≠ some src ∧
      (s.threadState src = .waitIpcSend ∨ s.threadState src = .waitIpcCall) ∧
      s.ipcWaitingFor src = some c := by
  have hhead : s.head (.send c) = some src := hsrc
  obtain ⟨hne, hplace⟩ := off_eq_some (h.chosen.queues.place_head hhead)
  exact ⟨hne, spot_eq_send hplace⟩

variable (hc : s.currentTcb = some c)
include hc

/-! ## System calls that do not block -/

lemma Inv.current : s.threadState c = .runnable ∧ c < s.maxTcbs := by
  have hstate := h.chosen.runnable c hc
  exact ⟨hstate, h.sound.lt_maxTcbs (by simp [hstate])⟩

lemma Inv.switchTo_current : (s.switchTo (some c)).Inv := by
  have hsame : s.switchTo (some c) = s := by rw [switchTo, ← hc]
  rwa [hsame]

lemma Inv.syscallReturn (value : BitVec 32) : (s.syscallReturn c value).Inv :=
  (h.setSyscallReturnVal c value).switchTo_current hc

lemma Inv.queues : s.Queues (off s.spot (some c)) := by
  rw [← hc]
  exact h.chosen.queues

lemma Inv.sysYield : (s.sysYield c).Inv := by
  unfold Nanokernel.sysYield
  split_ifs with hprio
  · refine of_schedule (h.sound.congr rfl) ?_
    have hspot : (s.enqueue c).spot =
        update (off s.spot (some c)) c (some (.ready (s.priority c))) := by
      rw [off_some, update_idem, ← spot_eq_ready.2 ⟨(h.current hc).1, rfl⟩, update_eq_self]
      rfl
    rw [hspot]
    exact (h.queues hc).enqueue (off_self ..) (h.sound.priority_le c)
  · exact h.switchTo_current hc

lemma Inv.sysInterruptRegister (i : ℕ) : (s.sysInterruptRegister c i).Inv := by
  unfold Nanokernel.sysInterruptRegister
  split_ifs with hnum hfree hnew
  · exact h.syscallReturn hc _
  · exact h.syscallReturn hc _
  · exact h.syscallReturn hc _
  · refine syscallReturn ⟨h.sound.register (not_not.1 hfree) (not_not.1 hnew), ?_⟩ hc _
    exact h.chosen.congr rfl rfl

lemma Inv.sysInterruptDeregister (i : ℕ) : (s.sysInterruptDeregister c i).Inv := by
  unfold Nanokernel.sysInterruptDeregister
  split_ifs with hnum hholds
  · exact h.syscallReturn hc _
  · exact h.syscallReturn hc _
  · have hreg := (h.sound.handler i c).1 (not_not.1 hholds)
    have hstate : s.threadState c ≠ .waitInt := by simp [(h.current hc).1]
    refine syscallReturn ⟨h.sound.deregister hreg hstate, ?_⟩ hc _
    exact h.chosen.congr rfl rfl

lemma Inv.sysSignalPoll (mask : BitVec 32) : (s.sysSignalPoll c mask).Inv := by
  have hinv : Inv { s with
      signals := update s.signals c (s.signals c &&& ~~~mask) } :=
    ⟨h.sound.congr rfl, h.chosen.congr rfl rfl⟩
  exact hinv.syscallReturn hc _

/-! ## System calls that block -/

/-- The current thread gets a state in which it is on no queue. -/
lemma Inv.deactivated (hstate : state = .waitInt ∨ state = .waitSignal ∨ state = .waitIpcRecv ∨
      state = .waitJoin ∨ state = .zombie) : (s.deactivateSelf c state).Sound ∧
    (s.deactivateSelf c state).Queues (s.deactivateSelf c state).spot := by
  obtain ⟨hrun, hlt⟩ := h.current hc
  have hself : (s.deactivateSelf c state).threadState c = state := update_self ..
  have hspot : (s.deactivateSelf c state).spot c = none := by
    unfold spot
    rw [hself]
    rcases hstate with rfl | rfl | rfl | rfl | rfl <;> rfl
  have heq : (s.deactivateSelf c state).spot = off s.spot (some c) := by
    rw [off_some]
    exact eq_update_iff.2 ⟨hspot, fun t ht =>
      spot_congr (update_of_ne ht _ _) rfl rfl rfl rfl⟩
  rw [heq]
  exact ⟨h.sound.setState hlt (by simp [hrun]) state, (h.queues hc).congr rfl⟩

lemma Inv.sysSignalWait (mask : BitVec 32) : (s.sysSignalWait c mask).Inv := by
  unfold Nanokernel.sysSignalWait
  split_ifs with hpending
  · exact h.sysSignalPoll hc mask
  · have hinv : Inv { s with signalMask := update s.signalMask c mask } :=
      ⟨h.sound.congr rfl, h.chosen.congr rfl rfl⟩
    obtain ⟨hsound, hqueues⟩ := 
      hinv.deactivated hc (by simp : waitSignal = .waitInt ∨ _)
    exact of_schedule hsound hqueues

/-- `sys_interrupt_wait`: the handler waits, and its interrupt is not masked any more. -/
lemma Inv.sysInterruptWait : (s.sysInterruptWait c).Inv := by
  unfold Nanokernel.sysInterruptWait
  split
  · exact h.syscallReturn hc _
  rename_i i hreg
  obtain ⟨hsound, hqueues⟩ := h.deactivated hc (.inl rfl)
  refine ⟨?_, hqueues.schedule_chosen.congr rfl rfl⟩
  refine (hsound.doSchedule.unmask (c := c) ?_ ?_).congr rfl
  · rw [doSchedule_frame]
    exact (h.sound.handler i c).2 hreg
  · rw [doSchedule_frame]
    exact update_self ..

lemma Inv.sysThreadJoin (dest : Tid) : (s.sysThreadJoin c dest).Inv := by
  obtain ⟨hrunnable, -⟩ := h.current hc
  unfold Nanokernel.sysThreadJoin
  split_ifs with hlt hhalted hzombie hjoined
  · exact h.syscallReturn hc _
  · exact h.syscallReturn hc _
  · exact (h.threadReap (Nat.not_le.1 hlt) hzombie).syscallReturn hc _
  · exact h.syscallReturn hc _
  · have hinv := h.setSyscallReturnVal c 0
    obtain ⟨hsound, hqueues⟩ :=
      hinv.deactivated hc (by simp : waitJoin = .waitInt ∨ _)
    refine ⟨?_, hqueues.schedule_chosen.congr rfl rfl⟩
    refine (hsound.doSchedule.addJoiner ?_ ?_ dest).congr rfl
    · rw [doSchedule_frame]
      exact update_self ..
    -- Nobody is joined by the current thread yet, because that one is running.
    rw [doSchedule_frame]
    intro t ht
    have hstate := h.sound.joiner t c ht
    rw [hrunnable] at hstate
    cases hstate

/-- A thread goes to sleep on a futex. It leaves the processor first, and joins the chain then. -/
lemma Inv.sleepOnFutex (tag : ℕ) : (s.sleepOnFutex c tag).Inv := by
  obtain ⟨hstate, hlt⟩ := h.current hc
  have hframe := sleepOnFutex_frame s c tag
  set s' := (s.setSyscallReturnVal c 0).deactivateSelf c .waitFutex
  have hqueues : s'.Queues (off s.spot (some c)) := (h.queues hc).congr rfl
  have hmax : s'.doSchedule.1.maxTcbs = s.maxTcbs := by
    rw [doSchedule_frame]
    rfl
  have hlinks : ∀ place, (s'.doSchedule.1.enqueueFutex (s.hashTag tag) c).Queues place →
      (s.sleepOnFutex c tag).Queues place := fun place hq => hq.congr rfl
  obtain ⟨hoff, hsome, hnone⟩ := hqueues.schedule
  generalize hnext : s'.doSchedule.2 = next at hoff hsome hnone hframe
  have hne : next ≠ some c := by
    intro heq
    obtain ⟨p, hp, -⟩ := hsome c heq
    rw [off_self] at hp
    cases hp
  have hplace : off (off s.spot (some c)) next c = none := by rw [off_of_ne _ hne, off_self]
  have hplace_lt : ∀ u, off (off s.spot (some c)) next u ≠ none → u < s.maxTcbs := by
    intro u hu
    refine h.sound.place_lt (some c) u fun hnone' => hu ?_
    rw [off, hnone', ite_self]
  rw [← hmax] at hplace_lt
  have hqueued := hlinks _ (hoff.enqueueFutex hplace hplace_lt (s.hashTag tag))
  have hready : ∀ {t p}, off s.spot (some c) t = some (.ready p) ↔
      t ≠ c ∧ s.threadState t = .runnable ∧ s.priority t = p := by
    intro t p
    by_cases ht : t = c
    · simp [ht]
    · rw [off_some, update_of_ne ht, spot_eq_ready]
      simp [ht]
  rw [hframe] at hqueued ⊢
  refine ⟨?_, ?_, fun t ht => ?_, fun t ht hnext' => ?_⟩
  · exact (h.sound.setState hlt (by simp [hstate]) .waitFutex).congr rfl
  · refine Eq.mp (congrArg _ ?_) hqueued
    rw [← off_update _ _ hne, off_some, update_idem]
    refine congrArg (off · _) (eq_update_iff.2 ⟨?_, fun u hu => ?_⟩).symm
    · simp only [spot, update_self]
      rfl
    · exact spot_congr (update_of_ne hu _ _) rfl rfl (update_of_ne hu _ _) rfl
  · obtain ⟨p, hp, -⟩ := hsome t ht
    obtain ⟨htc, hrun, -⟩ := hready.1 hp
    exact (update_of_ne htc _ _).trans hrun
  · obtain ⟨htc, hrun⟩ := of_update_eq ht (by simp)
    have hspot := hready.2 ⟨htc, hrun, rfl⟩
    rcases hchoice : next with _ | c'
    · exact absurd hspot (hnone hchoice t _)
    obtain ⟨p, hp, hhighest⟩ := hsome c' hchoice
    refine ⟨c', rfl, ?_⟩
    show s.priority t ≤ s.priority c'
    rw [(hready.1 hp).2.2]
    exact hhighest t _ hspot

lemma Inv.sysFutexWait (tag : ℕ) : (s.sysFutexWait c tag).Inv := by
  unfold Nanokernel.sysFutexWait
  split_ifs with hzero
  · exact h.syscallReturn hc _
  · split
    · rename_i i hi
      exact (h.setPending (removePending s.futexPendingTags i)).syscallReturn hc 0
    · exact h.sleepOnFutex hc tag

/-! ## System calls that wake another thread -/

lemma Inv.sysFutexSignal (tag : ℕ) : (s.sysFutexSignal c tag).Inv := by
  unfold Nanokernel.sysFutexSignal
  by_cases hzero : tag = 0
  · rw [if_pos hzero]
    exact h.syscallReturn hc _
  rw [if_neg hzero]
  rcases h.chosen.queues.sleeper (h.sound.place_lt _) tag with
    ⟨hnone, -⟩ | ⟨previous, t, hsome, hplace, -, hqueues⟩
  · rw [hnone]
    split_ifs with hfull
    · exact h.syscallReturn hc _
    · exact (h.setPending (s.futexPendingTags ++ [tag])).syscallReturn hc 0
  · rw [hsome]
    obtain ⟨hne, hplace⟩ := off_eq_some hplace
    obtain ⟨hstate, -⟩ := spot_eq_futex hplace
    have hframe := s.dequeueFutex_frame (s.hashTag tag) previous t
    have hsound : (s.dequeueFutex (s.hashTag tag) previous t).Sound := by
      rw [hframe]
      exact h.sound.congr rfl
    have haway : (s.dequeueFutex (s.hashTag tag) previous t).Away t := by
      rw [hframe] at hqueues ⊢
      exact ⟨hqueues, hne, h.chosen.runnable, fun u _ => h.chosen.highest u⟩
    have hlt : t < s.maxTcbs := h.sound.lt_maxTcbs (by simp [hstate])
    have hinv := haway.inv_of_state hsound (by rw [hframe]; exact hlt)
      (by rw [hframe]; simp [hstate])
    exact hinv.setSyscallReturnVal c 0

lemma Inv.sysSignalSend (dest : Tid)
    (signals : BitVec 32) : (s.sysSignalSend c dest signals).Inv := by
  have hposted : (s.postSignals c dest signals).Inv :=
    ⟨h.sound.congr rfl, h.chosen.congr rfl rfl⟩
  unfold Nanokernel.sysSignalSend
  by_cases hlt : s.maxTcbs ≤ dest
  · rw [if_pos hlt]
    exact h.syscallReturn hc _
  rw [if_neg hlt]
  split
  · exact h.syscallReturn hc _
  · split_ifs with hwaits
    · exact hposted.deliverSignals (Nat.not_le.1 hlt) hwaits.1
    · exact hposted.switchTo_current hc

/-! ## Threads come and go -/

lemma Inv.sysThreadCreate (pc sp r0 : BitVec 32)
    (prio : ℕ) : (s.sysThreadCreate c pc sp r0 prio).Inv := by
  unfold Nanokernel.sysThreadCreate
  by_cases hprio : maxPriority < prio
  · rw [if_pos hprio]
    exact h.syscallReturn hc _
  rw [if_neg hprio]
  rcases hfree : s.tcbFreeHead with _ | newTcb
  · exact h.syscallReturn hc _
  obtain ⟨hne, hstate, hlt⟩ := h.free_halted hfree
  have hprios : ∀ t, (s.prepareTcb newTcb pc sp r0 prio).priority t ≤ maxPriority :=
    (forall_update_iff _ fun _ p => p ≤ maxPriority).2
      ⟨Nat.not_lt.1 hprio, fun t _ => h.sound.priority_le t⟩
  have hsound : (s.prepareTcb newTcb pc sp r0 prio).Sound :=
    { h.sound with priority_le := hprios }
  have haway : (s.prepareTcb newTcb pc sp r0 prio).Away newTcb := by
    refine .of_queues hne h.chosen.runnable (fun t _ => h.chosen.highest t) ?_ (fun t ht => ?_) rfl
      (fun t ht => ?_) rfl
    · exact h.chosen.queues.prepareTcb hfree pc sp r0 prio
    · exact spot_congr rfl rfl (update_of_ne ht _ _) rfl rfl
    · exact update_of_ne ht _ _
  have hnew : s.threadState newTcb ≠ .waitJoin ∧ s.threadState newTcb ≠ .waitInt := by simp [hstate]
  have hinv := haway.inv_of_state hsound hlt hnew
  exact hinv.setSyscallReturnVal c _

lemma Inv.sysThreadExit : (s.sysThreadExit c).Inv := by
  obtain ⟨hstate, -⟩ := h.current hc
  have hinv : (s.sysInterruptPreThreadDeleteCallback c).Inv ∧
      (s.sysInterruptPreThreadDeleteCallback c).currentTcb = some c := by
    unfold sysInterruptPreThreadDeleteCallback
    rcases hreg : s.registeredInterrupt c with _ | i
    · exact ⟨h, hc⟩
    · refine ⟨⟨h.sound.deregister hreg (by simp [hstate]), ?_⟩, hc⟩
      exact h.chosen.congr rfl rfl
  obtain ⟨hsound, hqueues⟩ :=
    hinv.1.deactivated hinv.2 (by simp : zombie = .waitInt ∨ _)
  obtain ⟨hsound', hqueues'⟩ := hsound.wakeJoiner hqueues (update_self ..)
  exact of_schedule hsound' hqueues'

/-! ## IPC -/

lemma Inv.blockSender (dest : Tid) (isCall : Bool) :
    ((s.blockSender c dest isCall).1.switchTo (s.blockSender c dest isCall).2).Inv := by
  obtain ⟨hstate, hlt⟩ := h.current hc
  have hqueues := (h.queues hc).enqueueSend dest (off_self s.spot c)
  refine of_schedule ?_ (Eq.mp (congrArg _ ?_) (hqueues.congr rfl))
  · exact (h.sound.setState hlt (by simp [hstate]) _).congr rfl
  · rw [off_some, update_idem]
    refine (eq_update_iff.2 ⟨?_, fun u hu => ?_⟩).symm
    · cases isCall <;> simp [spot, deactivateSelf]
    · exact spot_congr (update_of_ne hu _ _) (update_of_ne hu _ _) rfl rfl rfl

/-- A caller whose message was handed over waits for the reply. -/
lemma Inv.awaitReply (hdest : s.threadState dest = .waitIpcRecv) :
    ((s.awaitReply c dest).1.switchTo (s.awaitReply c dest).2).Inv := by
  obtain ⟨hstate, hlt⟩ := h.current hc
  have hne : dest ≠ c := ne_of_apply_ne s.threadState (by simp [hdest, hstate])
  have hwaiting := h.setWaitingFor (.inr hstate) (some dest)
  have hdestlt : dest < s.maxTcbs := h.sound.lt_maxTcbs (by simp [hdest])
  have hplace : off s.spot (some c) dest = none := by
    rw [off_some, update_of_ne hne]
    simp [spot, hdest]
  have hactive : ((s.setRunnable dest).enqueue dest).Queues _ :=
    ((h.queues hc).congr rfl : (s.setRunnable dest).Queues _).enqueue hplace
      (h.sound.priority_le dest)
  refine of_schedule ?_ (Eq.mp (congrArg _ ?_) (hactive.congr rfl))
  · have hsound := hwaiting.sound.setState hdestlt (t := dest) (by simp [hdest]) .runnable
    have hstate' : update s.threadState dest .runnable c = .runnable := by
      rw [update_of_ne hne.symm, hstate]
    exact (hsound.setState hlt (t := c) (by simp [hstate']) .waitIpcRecv).congr rfl
  · refine (eq_update_iff.2 ⟨?_, fun u hu => ?_⟩).symm
    · exact spot_eq_ready.2 ⟨(update_of_ne hne _ _).trans (update_self ..), rfl⟩
    by_cases huc : u = c
    · subst huc
      simp [spot, deactivateSelf]
    · rw [off_some, update_of_ne huc]
      exact spot_congr ((update_of_ne huc _ _).trans (update_of_ne hu _ _))
        (update_of_ne huc _ _) rfl rfl rfl

lemma Inv.sysIpcSendC (dest : ℕ)
    (operation : BitVec 32) : (s.sysIpcSendC c dest operation).Inv := by
  unfold Nanokernel.sysIpcSendC
  split
  · exact h.syscallReturn hc _
  split
  · exact h.syscallReturn hc _
  unfold doSend
  by_cases hready : s.isReadyToReceive c dest = true
  · have hdest : s.threadState dest = .waitIpcRecv := by
      simp only [isReadyToReceive, decide_eq_true_eq] at hready
      exact hready.1
    have hover := h.handOver (c := c) hdest
    rw [if_pos hready]
    split
    · exact hover.awaitReply hc hdest
    · exact (hover.setSyscallReturnVal c 0).wakeReceiver hdest
  · rw [if_neg hready]
    split
    · exact (h.setSyscallReturnVal c ipcError).switchTo_current hc
    · exact h.blockSender hc dest _

lemma Inv.receiveFrom {src : Tid}
    (hsrc : s.ipcSendHead c = some src) : (s.receiveFrom c src).Inv := by
  obtain ⟨hne, hstate, hfor⟩ := h.sender_blocked hsrc
  have hlt : src < s.maxTcbs := h.sound.lt_maxTcbs (by rcases hstate with h | h <;> simp [h])
  have hfree : s.threadState src ≠ .waitJoin ∧ s.threadState src ≠ .waitInt := by
    rcases hstate with h | h <;> simp [h]
  have hqueues := h.chosen.queues.dequeueSend hsrc
  unfold Nanokernel.receiveFrom
  split
  · -- The sender goes on to wait for the reply.
    refine switchTo_current (setSyscallReturnVal ⟨?_, ?_, fun t ht => ?_,
      fun t ht hnext => ?_⟩ c _) hc
    · exact (h.sound.setState hlt hfree .waitIpcRecv).congr rfl
    · refine Eq.mp (congrArg _ ?_) (hqueues.congr rfl)
      rw [← off_update _ _ hne]
      refine congrArg (off · _) (eq_update_iff.2 ⟨?_, fun u hu => ?_⟩).symm
      · simp [spot, copyMessage]
      · exact spot_congr (update_of_ne hu _ _) rfl rfl rfl rfl
    · have htsrc : t ≠ src := by
        rintro rfl
        exact hne ht
      exact (update_of_ne htsrc _ _).trans (h.chosen.runnable t ht)
    · exact h.chosen.highest t (of_update_eq ht nofun).2 hnext
  · refine Away.inv_of_state ?_ (h.sound.congr rfl) hlt hfree
    refine .of_queues hne h.chosen.runnable (fun t _ => h.chosen.highest t) (hqueues.congr rfl)
      (fun t ht => ?_) rfl (fun _ _ => rfl) rfl
    exact spot_congr rfl (update_of_ne ht _ _) rfl rfl rfl

lemma Inv.sysIpcRecv (src : ℕ) : (s.sysIpcRecv c src).Inv := by
  unfold Nanokernel.sysIpcRecv
  split
  · exact h.syscallReturn hc _
  · rcases hsrc : s.ipcSendHead c with _ | src
    · have hinv := h.setWaitingFor (.inr (h.current hc).1) none
      obtain ⟨hsound, hqueues⟩ :=
        hinv.deactivated hc (by simp : waitIpcRecv = .waitInt ∨ _)
      exact of_schedule hsound hqueues
    · exact h.receiveFrom hc hsrc

/-! ## Runs -/

omit hc in
lemma Inv.step {op : Op} (hstep : s.step op = some s') : s'.Inv := by
  cases op with
  | interrupt i =>
    obtain ⟨hi, ⟨⟩⟩ := ite_none_right_eq_some.1 hstep
    exact h.handleInterrupt hi
  | syscall call =>
    obtain ⟨c, hc, rfl⟩ := map_eq_some_iff.1 hstep
    cases call with
    | threadMyself => exact h.syscallReturn hc _
    | threadCreate pc sp r0 prio => exact h.sysThreadCreate hc pc sp r0 prio
    | threadExit => exact h.sysThreadExit hc
    | threadJoin threadId => exact h.sysThreadJoin hc threadId
    | futexWait tag => exact h.sysFutexWait hc tag
    | futexSignal tag => exact h.sysFutexSignal hc tag
    | yield => exact h.sysYield hc
    | interruptRegister i => exact h.sysInterruptRegister hc i
    | interruptDeregister i => exact h.sysInterruptDeregister hc i
    | interruptWait => exact h.sysInterruptWait hc
    | signalPoll mask => exact h.sysSignalPoll hc mask
    | signalWait mask => exact h.sysSignalWait hc mask
    | signalSend threadId signals => exact h.sysSignalSend hc threadId signals
    | ipcSend message dest operation =>
      exact (h.saveMessage c message).sysIpcSendC hc dest operation
    | ipcRecv src => exact h.sysIpcRecv hc src

end

/-- What the scheduler guarantees, for the ready rings of a state. -/
structure Scheduled (s : Nanokernel) (ring : ℕ → List Tid) : Prop where
  /-- The pointers of the TCBs form the rings. -/
  isRing : ∀ p, IsRing s.links (ring p) ∧ s.priorityHeads p = (ring p).head?
  /-- The bitmap has the priorities with a ready thread. -/
  bitmap : ∀ p, s.priorityBitmap.getLsbD p = true ↔ ring p ≠ []
  /-- A runnable thread that does not run is on the ring of its priority, exactly once. -/
  queued : ∀ t, s.threadState t = .runnable → s.currentTcb ≠ some t →
    ∀ p, (ring p).count t = if p = s.priority t then 1 else 0
  /-- The thread that runs is runnable, and on no ring. -/
  running : ∀ c, s.currentTcb = some c → s.threadState c = .runnable ∧ ∀ p, c ∉ ring p
  /-- No other thread is on a ring. -/
  blocked : ∀ t, s.threadState t ≠ .runnable → ∀ p, t ∉ ring p
  /-- No ready thread has a higher priority than the thread that runs. -/
  highest : ∀ c, s.currentTcb = some c → ∀ p, ring p ≠ [] → p ≤ s.priority c
  /-- The kernel is idle only when no thread is ready. -/
  idle : s.currentTcb = none → ∀ p, ring p = []

/-- The invariant is about the ready rings in particular. -/
lemma Inv.scheduled (h : s.Inv) : ∃ ring, s.Scheduled ring := by
  obtain ⟨lists, hs⟩ := h.chosen.queues
  have hmem : ∀ {t p}, t ∈ lists (.ready p) ↔
      s.currentTcb ≠ some t ∧ s.threadState t = .runnable ∧ s.priority t = p := by
    intro t p
    rw [hs.threaded.mem]
    by_cases hc : s.currentTcb = some t
    · simp [off, hc]
    · rw [off_of_ne _ hc, spot_eq_ready]
      simp [hc]
  refine ⟨fun p => lists (.ready p), fun p => ⟨hs.threaded.isRing rfl, hs.head (.ready p)⟩,
    hs.bitmap, fun t ht hc p => ?_, fun c hc => ?_, fun t ht p hp => ?_, fun c hc p hp => ?_,
    fun hidle p => ?_⟩
  · have hnodup := (hs.threaded.spelled (.ready p)).nodup
    split_ifs with hp
    · exact List.count_eq_one_of_mem hnodup (hmem.2 ⟨hc, ht, hp.symm⟩)
    · exact List.count_eq_zero.2 fun hin => hp (hmem.1 hin).2.2.symm
  · exact ⟨h.chosen.runnable c hc, fun p hp => (hmem.1 hp).1 hc⟩
  · exact ht (hmem.1 hp).2.1
  · obtain ⟨t, ht⟩ := List.exists_mem_of_ne_nil _ hp
    obtain ⟨hne, hstate, hprio⟩ := hmem.1 ht
    obtain ⟨c', hc', hle⟩ := h.chosen.highest t hstate hne
    rw [hc] at hc'
    cases hc'
    rwa [hprio] at hle
  · by_contra hp
    obtain ⟨t, ht⟩ := List.exists_mem_of_ne_nil _ hp
    obtain ⟨hne, hstate, -⟩ := hmem.1 ht
    obtain ⟨c', hc', -⟩ := h.chosen.highest t hstate hne
    rw [hidle] at hc'
    cases hc'

end Nanokernel

/-! ## The initial state -/

namespace Image

open Nanokernel

variable (image : Image)

lemma blank_queues : image.blank.Queues fun _ => none := by
  refine ⟨fun _ => [], ⟨fun q => ?_, by simp, fun _ _ => ⟨rfl, rfl⟩⟩, fun q => ?_, fun _ => rfl,
    by simp [blank]⟩
  · cases q <;> simp [Queue.shape, Spelled, IsRing, IsPath]
  · cases q <;> rfl

/-- An operation that puts threads on queues one after the other puts them where they belong. -/
lemma foldl_queues (op : Nanokernel → Tid → Nanokernel) (P : Nanokernel → Prop)
    (goal : Tid → Option Queue) (ts : List Tid)
    (hop : ∀ s place, ∀ t ∈ ts, P s → s.Queues place → place t = none →
      P (op s t) ∧ (op s t).Queues (update place t (goal t)))
    (hnodup : ts.Nodup) {s : Nanokernel} (hs : P s) {place : Tid → Option Queue}
    (hqueues : s.Queues place) (hnone : ∀ t ∈ ts, place t = none) : P (ts.foldl op s) ∧
      (ts.foldl op s).Queues fun t => if t ∈ ts then goal t else place t := by
  induction ts generalizing s place with
  | nil => exact ⟨hs, by simpa using hqueues⟩
  | cons t ts ih =>
    obtain ⟨ht, hrest⟩ := List.nodup_cons.1 hnodup
    obtain ⟨hP, hQ⟩ := hop s place t List.mem_cons_self hs hqueues (hnone t List.mem_cons_self)
    have hnone' : ∀ u ∈ ts, update place t (goal t) u = none := by
      intro u hu
      have hut : u ≠ t := by
        rintro rfl
        exact ht hu
      rw [update_of_ne hut]
      exact hnone u (List.mem_cons_of_mem t hu)
    obtain ⟨hP', hQ'⟩ := ih (fun s place u hu => hop s place u (List.mem_cons_of_mem t hu)) hrest hP
      hQ hnone'
    refine ⟨hP', Eq.mp (congrArg _ ?_) hQ'⟩
    funext u
    by_cases hut : u = t
    · simp [hut, ht]
    · simp [hut]

/-- Only the queues differ from the state before. -/
def Filled (s : Nanokernel) : Prop :=
  ∃ links heads bitmap free, s = { image.blank with
    links := links, priorityHeads := heads, priorityBitmap := bitmap, tcbFreeHead := free }

lemma blank_priority_le (t : Tid) : image.blank.priority t ≤ maxPriority := by
  simp only [blank]
  rcases hlive : image.live[t]? with _ | thread
  · simp
  · exact image.priority_le thread (List.mem_of_getElem? hlive)

lemma data_queues : image.Filled image.data ∧ image.data.Queues image.data.spot := by
  have hready := foldl_queues enqueue image.Filled
    (fun t => some (.ready (image.blank.priority t))) (List.range image.live.length) ?_
    List.nodup_range ⟨_, _, _, _, rfl⟩ image.blank_queues (fun _ _ => rfl)
  · obtain ⟨hfilled, hqueues⟩ := hready
    have hfree := foldl_queues addSpare image.Filled (fun _ => some .free)
      (List.range' image.live.length (image.maxTcbs - image.live.length)) ?_ List.nodup_range'
      hfilled hqueues ?_
    · refine ⟨hfree.1, Eq.mp (congrArg _ ?_) hfree.2⟩
      obtain ⟨links, heads, bitmap, free, heq⟩ := hfree.1
      refine funext fun (t : ℕ) => ?_
      have hspot : image.data.spot t = image.blank.spot t := by
        have hdata : image.data = _ := heq
        rw [hdata]
        rfl
      rw [hspot]
      simp only [List.mem_range'_1, List.mem_range, spot, blank]
      by_cases h₁ : t < image.live.length
      · have h₂ : ¬ image.live.length ≤ t := by omega
        simp [h₁, h₂]
      by_cases h₂ : t < image.maxTcbs
      · have h₃ : image.live.length ≤ t ∧
            t < image.live.length + (image.maxTcbs - image.live.length) := by omega
        simp [h₁, h₂, h₃]
      · have h₃ : ¬ (image.live.length ≤ t ∧
            t < image.live.length + (image.maxTcbs - image.live.length)) := by omega
        simp [h₁, h₂, h₃]
    · rintro s place t - ⟨links, heads, bitmap, free, rfl⟩ hs ht
      refine ⟨⟨_, _, _, _, rfl⟩, hs.enqueueTail rfl ht rfl ?_ rfl fun p => by simp [addSpare]⟩
      funext q
      cases q <;> simp [head, addSpare]
    · intro t ht
      rw [List.mem_range'_1] at ht
      have hnotin : t ∉ List.range image.live.length := by
        rw [List.mem_range]
        omega
      simp [hnotin]
  · rintro s place t - ⟨links, heads, bitmap, free, rfl⟩ hs ht
    exact ⟨⟨_, _, _, _, rfl⟩, hs.enqueue ht (image.blank_priority_le t)⟩

/-- No thread is blocked when the system has booted, and no signal is pending. -/
lemma boot_state :
    (∀ t, image.boot.threadState t = .runnable ∨ image.boot.threadState t = .halted) ∧
      image.boot.futexPendingTags = [] := by
  obtain ⟨⟨links, heads, bitmap, free, heq⟩, -⟩ := image.data_queues
  have hframe := doSchedule_frame image.data
  unfold boot
  rw [hframe, heq]
  refine ⟨fun (t : ℕ) => ?_, rfl⟩
  by_cases ht : t < image.live.length
  · exact .inl (if_pos ht)
  · exact .inr (if_neg ht)

lemma boot_inv : image.boot.Inv := by
  obtain ⟨⟨links, heads, bitmap, free, heq⟩, hqueues⟩ := image.data_queues
  refine Inv.of_schedule ?_ hqueues
  rw [heq]
  refine ⟨image.blank_priority_le, fun (t : ℕ) ht => ?_, fun t j hj => ?_, fun t t' j hj => ?_,
    fun i t => ?_, fun i hi => ?_⟩
  · have hlt := image.length_lt
    have hge : image.maxTcbs ≤ t := ht
    have hout : ¬ t < image.live.length := by omega
    exact if_neg hout
  · cases hj
  · cases hj
  · simp [blank]
  · cases hi

end Image

open Nanokernel

/-- In every state that the nanokernel reaches, the threads are on the ready rings as they should,
and the thread that runs is a runnable one of the highest priority. -/
theorem reachable_scheduled (image : Image) {ops : List Op} {s : Nanokernel}
    (hrun : run step image.boot ops = some s) : ∃ ring, s.Scheduled ring := by
  have hinv : s.Inv := run_invariant (fun _ _ _ h hstep => h.step hstep) image.boot_inv hrun
  exact hinv.scheduled

/-- A system with one thread at first. -/
def singleImage : Image where
  maxTcbs := 3
  futexHashSlotsLg2 := 3
  numInterrupts := 32
  live := [⟨10, 0x1000, 0x8000, 0⟩]
  length_lt := by decide
  priority_le := by decide

/-- The first thread creates one with a higher priority, which joins the first one; then the first
one creates another thread of its own priority, and exits. -/
theorem reachable_scheduled_threads : ∃ s,
    run step singleImage.boot [.syscall (.threadCreate 0 0 0 20), .syscall (.threadJoin 0),
      .syscall (.threadCreate 0 0 0 10), .syscall .threadExit] = some s ∧
    s.currentTcb = some 1 ∧ s.priorityHeads 10 = some 2 ∧ s.tcbFreeHead = some 0 ∧
    ∃ ring, s.Scheduled ring := by
  exact exists_run (Q := fun s =>
    s.currentTcb = some 1 ∧ s.priorityHeads 10 = some 2 ∧ s.tcbFreeHead = some 0)
    (by decide +kernel) fun s hrun hview =>
      ⟨hview.1, hview.2.1, hview.2.2, reachable_scheduled singleImage hrun⟩

/-! ## Queues and free control blocks -/

/-- The state of a thread says which queue it is on; the thread that runs is on none. -/
lemma Nanokernel.Inv.exists_lists {s : Nanokernel} (h : s.Inv) : ∃ lists,
    s.Spells (off s.spot s.currentTcb) lists ∧
      ∀ t q, t ∈ lists q ↔ s.currentTcb ≠ some t ∧ s.spot t = some q := by
  obtain ⟨lists, hlists⟩ := h.chosen.queues
  refine ⟨lists, hlists, fun t q => ?_⟩
  rw [hlists.threaded.mem]
  by_cases hc : s.currentTcb = some t
  · simp [off, hc]
  · rw [off_of_ne _ hc]
    exact (and_iff_right hc).symm

/-- In every state that the nanokernel reaches, the pointers of the TCBs form all the queues: the
ready rings, the rings of the senders to each thread, the lists of the sleepers in each slot of the
futex table and the ring of the free TCBs. A thread is exactly once on the queue that its state
says, and on no other; the thread that runs is on none. -/
theorem reachable_queues (image : Image) {ops : List Op} {s : Nanokernel}
    (hrun : run step image.boot ops = some s) :
    ∃ lists, s.Spells (off s.spot s.currentTcb) lists ∧ ∀ t q,
      (lists q).count t = if s.currentTcb ≠ some t ∧ s.spot t = some q then 1 else 0 := by
  have hinv : s.Inv := run_invariant (fun _ _ _ h hstep => h.step hstep) image.boot_inv hrun
  obtain ⟨lists, hlists, hmem⟩ := hinv.exists_lists
  refine ⟨lists, hlists, fun t q => ?_⟩
  split_ifs with hq
  · exact List.count_eq_one_of_mem (hlists.threaded.spelled q).nodup ((hmem t q).2 hq)
  · exact List.count_eq_zero.2 fun hin => hq ((hmem t q).1 hin)

/-- The first thread creates one that sleeps, and another one that sends to the sleeper. -/
theorem reachable_queues_three : ∃ s,
    run step singleImage.boot [.syscall (.threadCreate 0 0 0 20), .syscall (.futexWait 7),
      .syscall (.threadCreate 0 0 0 20), .syscall (.ipcSend (fun _ => 0) 1 0)] = some s ∧
    ∃ lists, s.Spells (off s.spot s.currentTcb) lists ∧ (lists (.futex (s.hashTag 7))).count 1 = 1 ∧
      (lists (.send 1)).count 2 = 1 ∧ ∀ q, (lists q).count 0 = 0 := by
  refine exists_run (Q := fun s => s.currentTcb = some 0 ∧
    s.spot 1 = some (.futex (s.hashTag 7)) ∧ s.spot 2 = some (.send 1)) (by decide +kernel) ?_
  rintro s hrun ⟨hcurrent, hsleeper, hsender⟩
  obtain ⟨lists, hlists, hcount⟩ := reachable_queues singleImage hrun
  refine ⟨lists, hlists, ?_, ?_, fun q => ?_⟩
  · simp [hcount, hcurrent, hsleeper]
  · simp [hcount, hcurrent, hsender]
  · rw [hcount, hcurrent]
    exact if_neg fun h => h.1 rfl

/-- In every state that the nanokernel reaches, `sys_thread_create` succeeds exactly if the priority
is allowed and some TCB is not in use. The new thread gets such a TCB, the caller gets its number,
and no other thread changes its state or priority. -/
theorem threadCreate_exact (image : Image) {ops : List Op} {s : Nanokernel}
    (hrun : run step image.boot ops = some s) (c : Tid) (pc sp r0 : BitVec 32) (prio : ℕ) :
    (prio ≤ maxPriority ∧ (∃ t < s.maxTcbs, s.threadState t = .halted) →
      ∃ t < s.maxTcbs, s.threadState t = .halted ∧
        (s.sysThreadCreate c pc sp r0 prio).threadState = update s.threadState t .runnable ∧
        (s.sysThreadCreate c pc sp r0 prio).priority = update s.priority t prio ∧
        (s.sysThreadCreate c pc sp r0 prio).regs c 0 = BitVec.ofNat 32 t) ∧
    (¬ (prio ≤ maxPriority ∧ ∃ t < s.maxTcbs, s.threadState t = .halted) →
      s.sysThreadCreate c pc sp r0 prio = s.syscallReturn c ipcError) := by
  have hinv : s.Inv := run_invariant (fun _ _ _ h hstep => h.step hstep) image.boot_inv hrun
  obtain ⟨lists, hlists, hmem⟩ := hinv.exists_lists
  have hfree : ∀ t, t ∈ lists .free ↔ t < s.maxTcbs ∧ s.threadState t = .halted := by
    intro t
    rw [hmem]
    refine ⟨fun hspot => (spot_eq_free hspot.2).symm, fun ⟨hlt, hstate⟩ => ⟨fun hc => ?_, ?_⟩⟩
    · simp [hinv.chosen.runnable t hc] at hstate
    · simp [spot, hstate, hlt]
  unfold sysThreadCreate
  rw [show s.tcbFreeHead = (lists .free).head? from hlists.head .free]
  constructor
  · rintro ⟨hprio, t, ht⟩
    rcases hlist : lists .free with _ | ⟨new, rest⟩
    · have hin := (hfree t).2 ht
      simp [hlist] at hin
    · obtain ⟨hnew, hhalted⟩ := (hfree new).1 (by simp [hlist])
      refine ⟨new, hnew, hhalted, ?_⟩
      rw [if_neg (Nat.not_lt.2 hprio)]
      simp only [List.head?_cons]
      rw [activateSchedule_frame]
      simp [setSyscallReturnVal, switchTo, prepareTcb]
  · intro hnot
    split_ifs with hprio
    · rfl
    rcases hlist : lists .free with _ | ⟨new, rest⟩
    · rfl
    · exact absurd ⟨Nat.not_lt.1 hprio, new, (hfree new).1 (by simp [hlist])⟩ hnot

/-- The first thread creates one with a higher priority. -/
theorem threadCreate_exact_boot : ∃ t < 3, singleImage.boot.threadState t = .halted ∧
    (singleImage.boot.sysThreadCreate 0 0x2000 0x9000 0 20).threadState =
      update singleImage.boot.threadState t .runnable := by
  obtain ⟨t, hlt, hhalted, hstate, -⟩ := (threadCreate_exact singleImage (run_nil step _) 0 0x2000
    0x9000 0 20).1 ⟨by decide, 1, by decide, by decide +kernel⟩
  exact ⟨t, hlt, hhalted, hstate⟩

end Okl4Kernel.Nano
