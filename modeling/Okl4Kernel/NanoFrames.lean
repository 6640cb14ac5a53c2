import Okl4Kernel.NanoInvariant

/-!
# What a system call leaves alone

The threads that sleep on futexes and the threads that are blocked in IPC concern only few of the
system calls of the nanokernel. `Quiet area` says that a change of the state has nothing to do with
an area: the data of this area is as it was, and no thread that is blocked there has changed its
state, nor has a thread been blocked there. The change may have stopped the thread `running`, and
ended the thread `dying`.
-/

namespace Okl4Kernel.Nano

open LinkedRing Function

/-- A part of the kernel that blocks threads. -/
inductive Area
  | futex
  | ipc

/-- The states of the threads that are blocked in an area. -/
def Area.hides : Area → ThreadState → Bool
  | .futex, .waitFutex => true
  | .ipc, .waitIpcRecv => true
  | .ipc, .waitIpcSend => true
  | .ipc, .waitIpcCall => true
  | _, _ => false

@[simp] lemma Area.hides_runnable (area : Area) : area.hides .runnable = false := by
  cases area <;> rfl

@[simp] lemma Area.hides_other (area : Area) :
    area.hides .waitInt = false ∧ area.hides .waitSignal = false ∧ area.hides .waitJoin = false ∧
      area.hides .halted = false ∧ area.hides .zombie = false := by
  cases area <;> simp [hides]

namespace Nanokernel

/-- A change of the state that has nothing to do with an area. -/
structure Quiet (area : Area) (running dying : Option Tid) (s s' : Nanokernel) : Prop where
  max : s'.maxTcbs = s.maxTcbs
  futex : area = .futex → s'.futexTag = s.futexTag ∧ s'.futexPendingTags = s.futexPendingTags
  ipc : area = .ipc → s'.ipcWaitingFor = s.ipcWaitingFor ∧ s'.ipcSendHead = s.ipcSendHead
  state : ∀ t, s'.threadState t ≠ s.threadState t →
    area.hides (s'.threadState t) = false ∧ area.hides (s.threadState t) = false ∧
      (s.threadState t = .runnable → running = some t)
  alive : ∀ t, s.isThreadAlive t → s'.isThreadAlive t ∨ dying = some t

variable {s s' s'' : Nanokernel} {t c : Tid} {area : Area} {running dying : Option Tid}
  {state : ThreadState}

section

variable (hmax : s'.maxTcbs = s.maxTcbs) (hfutex : area = .futex →
    s'.futexTag = s.futexTag ∧ s'.futexPendingTags = s.futexPendingTags)
  (hipc : area = .ipc → s'.ipcWaitingFor = s.ipcWaitingFor ∧ s'.ipcSendHead = s.ipcSendHead)
include hmax hfutex hipc

lemma Quiet.of_eq (hstate : s'.threadState = s.threadState) : Quiet area running dying s s' := by
  refine ⟨hmax, hfutex, hipc, fun t ht => absurd (by rw [hstate]) ht, fun t ht => .inl ?_⟩
  simpa only [isThreadAlive, hstate] using ht

lemma Quiet.of_update (hstate : s'.threadState = update s.threadState t state)
    (hnew : area.hides state = false) (hold : area.hides (s.threadState t) = false)
    (hrunning : s.threadState t = .runnable → running = some t)
    (halive : s.isThreadAlive t → state ≠ .halted ∧ state ≠ .zombie ∨ dying = some t) :
    Quiet area running dying s s' := by
  refine ⟨hmax, hfutex, hipc, fun u hu => ?_, fun u hu => ?_⟩
  · rw [hstate] at hu ⊢
    by_cases hut : u = t
    · subst hut
      rw [update_self]
      exact ⟨hnew, hold, hrunning⟩
    · exact absurd (update_of_ne hut _ _) hu
  · by_cases hut : u = t
    · subst hut
      rcases halive hu with hstate' | hdying
      · left
        simpa [isThreadAlive, hstate] using hstate'
      · exact .inr hdying
    · left
      simpa [isThreadAlive, hstate, hut] using hu

lemma Quiet.blocked (hstate : s'.threadState = update s.threadState c state)
    (hc : s.threadState c = .runnable) (hnew : area.hides state = false)
    (halive : state ≠ .halted ∧ state ≠ .zombie ∨ dying = some c) :
    Quiet area (some c) dying s s' :=
  .of_update hmax hfutex hipc hstate hnew (by simp [hc]) (fun _ => rfl) fun _ => halive

lemma Quiet.woken (hstate : s'.threadState = update s.threadState t .runnable)
    (hold : area.hides (s.threadState t) = false) (hne : s.threadState t ≠ .runnable) :
    Quiet area running dying s s' :=
  .of_update hmax hfutex hipc hstate (by simp) hold (fun hrun => absurd hrun hne) fun _ =>
    .inl (by simp)

end

/-- What both areas are about. -/
def areaData (s : Nanokernel) :=
  (s.maxTcbs, s.futexTag, s.futexPendingTags, s.ipcWaitingFor, s.ipcSendHead, s.threadState)

lemma Quiet.of_same (hsame : s'.areaData = s.areaData) : Quiet area running dying s s' := by
  simp only [areaData, Prod.mk.injEq] at hsame
  obtain ⟨hmax, htag, hpending, hwaiting, hhead, hstate⟩ := hsame
  exact .of_eq hmax (fun _ => ⟨htag, hpending⟩) (fun _ => ⟨hwaiting, hhead⟩) hstate

lemma Quiet.trans (h : Quiet area running dying s s') (h' : Quiet area running dying s' s'') :
    Quiet area running dying s s'' := by
  refine ⟨h'.max.trans h.max, fun ha => ?_, fun ha => ?_, fun t ht => ?_, fun t ht => ?_⟩
  · exact ⟨(h'.futex ha).1.trans (h.futex ha).1, (h'.futex ha).2.trans (h.futex ha).2⟩
  · exact ⟨(h'.ipc ha).1.trans (h.ipc ha).1, (h'.ipc ha).2.trans (h.ipc ha).2⟩
  · by_cases hfirst : s'.threadState t = s.threadState t
    · rw [← hfirst] at ht ⊢
      exact h'.state t ht
    · obtain ⟨hnew, hold, hrunning⟩ := h.state t hfirst
      refine ⟨?_, hold, hrunning⟩
      by_cases hsecond : s''.threadState t = s'.threadState t
      · rwa [hsecond]
      · exact (h'.state t hsecond).1
  · rcases h.alive t ht with halive | hdying
    · exact h'.alive t halive
    · exact .inr hdying

/-! ## System calls -/

lemma areaData_schedule (s : Nanokernel) (next : Option Tid) :
    (s.doSchedule.1.switchTo next).areaData = s.areaData := by
  rw [doSchedule_frame]
  rfl

lemma quiet_syscallReturn (s : Nanokernel) (c : Tid) (value : BitVec 32) :
    Quiet area running dying s (s.syscallReturn c value) :=
  .of_same rfl

lemma Inv.quiet_handleInterrupt (h : s.Inv) {i : ℕ} (hi : s.unmasked i = true) :
    Quiet area none none s (s.handleInterrupt i) := by
  obtain ⟨t, hhandler, hstate⟩ := h.sound.unmasked i hi
  unfold Nanokernel.handleInterrupt
  rw [hhandler]
  dsimp only
  rw [activateSchedule_frame]
  exact .woken (t := t) rfl (fun _ => ⟨rfl, rfl⟩) (fun _ => ⟨rfl, rfl⟩) rfl (by simp [hstate])
    (by simp [hstate])

lemma Inv.quiet_sysThreadCreate (h : s.Inv) (c : Tid) (pc sp r0 : BitVec 32) (prio : ℕ) :
    Quiet area (some c) none s (s.sysThreadCreate c pc sp r0 prio) := by
  unfold Nanokernel.sysThreadCreate
  split
  · exact quiet_syscallReturn ..
  rcases hfree : s.tcbFreeHead with _ | newTcb
  · exact quiet_syscallReturn ..
  obtain ⟨-, hstate, -⟩ := h.free_halted hfree
  dsimp only
  rw [activateSchedule_frame]
  exact .woken (t := newTcb) rfl (fun _ => ⟨rfl, rfl⟩) (fun _ => ⟨rfl, rfl⟩) rfl (by simp [hstate])
    (by simp [hstate])

/-- What `sys_thread_exit` does: the thread is a zombie, or the thread that joins it goes on. -/
lemma Inv.sysThreadExit_spec (h : s.Inv) (hc : s.currentTcb = some c) :
    ∃ state, (s.sysThreadExit c).areaData = { s with threadState := state }.areaData ∧
      (state = update s.threadState c .zombie ∨ ∃ j, j ≠ c ∧ s.threadState j = .waitJoin ∧
        state = update (update s.threadState c .halted) j .runnable) := by
  obtain ⟨handlers, registered, heq⟩ : ∃ handlers registered,
      s.sysInterruptPreThreadDeleteCallback c =
        { s with interruptHandlers := handlers, registeredInterrupt := registered } := by
    unfold sysInterruptPreThreadDeleteCallback
    split <;> exact ⟨_, _, rfl⟩
  unfold Nanokernel.sysThreadExit
  dsimp only
  rw [areaData_schedule, heq]
  unfold wakeJoiner
  split
  · exact ⟨_, rfl, .inl rfl⟩
  · next j hj =>
    have hwait := h.sound.joiner c j hj
    have hjc : j ≠ c := ne_of_apply_ne s.threadState (by simp [hwait, (h.current hc).1])
    refine ⟨_, ?_, .inr ⟨j, hjc, hwait, rfl⟩⟩
    dsimp only [areaData, activate, enqueue, setRunnable, Nanokernel.threadReap, deactivateSelf]
    rw [update_idem]

lemma Inv.quiet_sysThreadExit (h : s.Inv) (hc : s.currentTcb = some c) :
    Quiet area (some c) (some c) s (s.sysThreadExit c) := by
  have hrunnable := (h.current hc).1
  obtain ⟨state, hsame, hstate⟩ := h.sysThreadExit_spec hc
  refine .trans ?_ (.of_same hsame)
  rcases hstate with rfl | ⟨j, hjc, hwait, rfl⟩
  · exact .blocked rfl (fun _ => ⟨rfl, rfl⟩) (fun _ => ⟨rfl, rfl⟩) rfl hrunnable (by simp) (.inr rfl)
  · have hended : Quiet area (some c) (some c) s
        { s with threadState := update s.threadState c .halted } :=
      .blocked rfl (fun _ => ⟨rfl, rfl⟩) (fun _ => ⟨rfl, rfl⟩) rfl hrunnable (by simp) (.inr rfl)
    refine hended.trans (.woken rfl (fun _ => ⟨rfl, rfl⟩) (fun _ => ⟨rfl, rfl⟩) rfl ?_ ?_)
    · simp [hjc, hwait]
    · simp [hjc, hwait]

lemma Inv.quiet_sysThreadJoin (h : s.Inv) (hc : s.currentTcb = some c) (dest : Tid) :
    Quiet area (some c) none s (s.sysThreadJoin c dest) := by
  unfold Nanokernel.sysThreadJoin Nanokernel.deactivateSelfSchedule
  dsimp only
  rw [doSchedule_frame]
  split_ifs with hlt hhalted hzombie hjoined
  · exact quiet_syscallReturn ..
  · exact quiet_syscallReturn ..
  · exact .of_update (t := dest) rfl (fun _ => ⟨rfl, rfl⟩) (fun _ => ⟨rfl, rfl⟩) rfl (by simp)
      (by simp [hzombie]) (by simp [hzombie]) (by simp [isThreadAlive, hzombie])
  · exact quiet_syscallReturn ..
  · exact .blocked rfl (fun _ => ⟨rfl, rfl⟩) (fun _ => ⟨rfl, rfl⟩) rfl (h.current hc).1 (by simp)
      (.inl (by simp))

lemma quiet_sysYield (s : Nanokernel) (c : Tid) : Quiet area (some c) none s (s.sysYield c) := by
  unfold sysYield
  dsimp only
  rw [doSchedule_frame]
  split <;> exact .of_same rfl

lemma quiet_sysInterruptRegister (s : Nanokernel) (c : Tid) (i : ℕ) :
    Quiet area (some c) none s (s.sysInterruptRegister c i) := by
  unfold sysInterruptRegister
  split_ifs
  all_goals exact .of_same rfl

lemma quiet_sysInterruptDeregister (s : Nanokernel) (c : Tid) (i : ℕ) :
    Quiet area (some c) none s (s.sysInterruptDeregister c i) := by
  unfold sysInterruptDeregister
  split_ifs
  all_goals exact .of_same rfl

lemma quiet_sysInterruptWait (hc : s.threadState c = .runnable) :
    Quiet area (some c) none s (s.sysInterruptWait c) := by
  unfold sysInterruptWait deactivateSelfSchedule
  dsimp only
  rw [doSchedule_frame]
  split
  · exact quiet_syscallReturn ..
  · exact .blocked rfl (fun _ => ⟨rfl, rfl⟩) (fun _ => ⟨rfl, rfl⟩) rfl hc (by simp) (.inl (by simp))

lemma quiet_sysSignalWait (hc : s.threadState c = .runnable) (mask : BitVec 32) :
    Quiet area (some c) none s (s.sysSignalWait c mask) := by
  unfold sysSignalWait deactivateSelfSchedule
  dsimp only
  rw [doSchedule_frame]
  split
  · exact .of_same rfl
  · exact .blocked rfl (fun _ => ⟨rfl, rfl⟩) (fun _ => ⟨rfl, rfl⟩) rfl hc (by simp) (.inl (by simp))

lemma quiet_sysSignalSend (s : Nanokernel) (c dest : Tid) (signals : BitVec 32) :
    Quiet area (some c) none s (s.sysSignalSend c dest signals) := by
  unfold sysSignalSend deliverSignals
  dsimp only
  rw [activateSchedule_frame]
  split
  · exact quiet_syscallReturn ..
  split
  · exact quiet_syscallReturn ..
  split_ifs with hwaits
  · exact .woken (t := dest) rfl (fun _ => ⟨rfl, rfl⟩) (fun _ => ⟨rfl, rfl⟩) rfl (by simp [hwaits.1])
      (by simp [hwaits.1])
  · exact .of_same rfl

/-- The area that a system call belongs to. -/
def Syscall.blocksIn : Syscall → Option Area
  | .futexWait _ => some .futex
  | .futexSignal _ => some .futex
  | .ipcSend .. => some .ipc
  | .ipcRecv _ => some .ipc
  | _ => none

/-- The thread that ends with a system call of the thread `c`. -/
def Syscall.ends (c : Tid) : Syscall → Option Tid
  | .threadExit => some c
  | _ => none

theorem Inv.quiet_syscall (h : s.Inv) (hc : s.currentTcb = some c) {call : Syscall}
    (hcall : call.blocksIn = none) : Quiet area (some c) (call.ends c) s (s.syscall c call) := by
  have hrunnable := (h.current hc).1
  cases call with
  | threadMyself => exact quiet_syscallReturn ..
  | threadCreate pc sp r0 prio => exact h.quiet_sysThreadCreate c pc sp r0 prio
  | threadExit => exact h.quiet_sysThreadExit hc
  | threadJoin threadId => exact h.quiet_sysThreadJoin hc threadId
  | futexWait tag => cases hcall
  | futexSignal tag => cases hcall
  | yield => exact quiet_sysYield s c
  | interruptRegister i => exact quiet_sysInterruptRegister s c i
  | interruptDeregister i => exact quiet_sysInterruptDeregister s c i
  | interruptWait => exact quiet_sysInterruptWait hrunnable
  | signalPoll mask => exact .of_same rfl
  | signalWait mask => exact quiet_sysSignalWait hrunnable mask
  | signalSend threadId signals => exact quiet_sysSignalSend s c threadId signals
  | ipcSend message dest operation => cases hcall
  | ipcRecv src => cases hcall

end Nanokernel

end Okl4Kernel.Nano
