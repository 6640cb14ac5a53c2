import Okl4Kernel.NanoIpc

/-!
# Careful threads get the right messages

As long as all steps are careful, each thread that is blocked in IPC waits on a thread that has not
ended (`Inv`), so that a message goes to the thread that it was meant for. A step that is not
careful breaks this at once.
-/

namespace Okl4Kernel.Nano

open TransitionSystem Function Option Prod Messaging

namespace Nanokernel

variable {s s' : Nanokernel} {c : Tid}
variable {operation : BitVec 32} {dest src : ℕ}

/-! ## System calls that are not for IPC -/

lemma quiet_sysFutexWait (hc : s.threadState c = .runnable) (tag : ℕ) :
    Quiet .ipc (some c) none s (s.sysFutexWait c tag) := by
  by_cases htag : tag = 0
  · rw [sysFutexWait, if_pos htag]
    exact quiet_syscallReturn ..
  obtain ⟨hmax, hipc, ⟨-, -, hstate, -⟩ | ⟨-, -, hstate, -⟩⟩ := sysFutexWait_spec htag rfl
  · exact .of_eq hmax nofun (fun _ => hipc) hstate
  · exact .blocked hmax nofun (fun _ => hipc) hstate hc rfl (.inl (by simp))

lemma Inv.quiet_sysFutexSignal (h : s.Inv) (c : Tid) (tag : ℕ) :
    Quiet .ipc (some c) none s (s.sysFutexSignal c tag) := by
  by_cases htag : tag = 0
  · rw [Nanokernel.sysFutexSignal, if_pos htag]
    exact quiet_syscallReturn ..
  obtain ⟨hmax, hipc, -, ⟨t, hsleeps, -, hstate, -⟩ | ⟨-, hstate, -⟩⟩ :=
    h.sysFutexSignal_spec htag rfl
  · exact .woken hmax nofun (fun _ => hipc) hstate (by rw [hsleeps]; rfl) (by simp [hsleeps])
  · exact .of_eq hmax nofun (fun _ => hipc) hstate

lemma Inv.ipc_quiet (h : s.Inv) (hc : s.currentTcb = some c) {call : Syscall}
    (hcall : call.blocksIn ≠ some .ipc) :
    Quiet .ipc (some c) (call.ends c) s (s.syscall c call) := by
  cases call with
  | futexWait tag => exact quiet_sysFutexWait (h.current hc).1 tag
  | futexSignal tag => exact h.quiet_sysFutexSignal c tag
  | ipcSend message dest operation => exact absurd rfl hcall
  | ipcRecv src => exact absurd rfl hcall
  | _ => exact h.quiet_syscall hc rfl

lemma Inv.not_alive_sysThreadExit (h : s.Inv) (hc : s.currentTcb = some c) :
    ¬ (s.sysThreadExit c).isThreadAlive c := by
  obtain ⟨state, hsame, hstate⟩ := h.sysThreadExit_spec hc
  simp only [areaData, Prod.mk.injEq] at hsame
  rw [isThreadAlive, hsame.2.2.2.2.2]
  rcases hstate with rfl | ⟨j, hjc, -, rfl⟩
  · simp
  · simp [hjc.symm]

end Nanokernel

namespace Messaging

open Nanokernel

variable {u u' : Messaging} {t : Tid}
variable {operation : BitVec 32} {op : Op} {d : Tid} {dest : ℕ}

/-! ## The invariant -/

/-- A thread waits on a thread that has not ended, and the kernel knows which one it is. -/
def Waits (u : Messaging) (t : Tid) : Prop :=
  (∀ d n, u.waitsOn t = some (d, n) → u.kernel.isThreadAlive d ∧ u.serial d = n) ∧
    ∀ d, u.kernel.ipcWaitingFor t = some d → (u.waitsOn t).map fst = some d

/-- A message that was delivered as it should. -/
def Delivery.IsRight (d : Delivery) : Prop :=
  (∀ source, d.asked = some source → d.sender = source) ∧ d.receiver = d.addressed

/-- The invariant of careful runs. -/
structure Inv (u : Messaging) : Prop where
  kernel : u.kernel.Inv
  deliveries : ∀ d ∈ u.deliveries, Delivery.IsRight d
  waits : ∀ t, u.isBlocked t → u.Waits t

/-- A thread that waits in the kernel for a TCB waits on the thread that it stands for. -/
lemma Waits.waitsOn_eq (h : u.Waits t) (hd : u.kernel.ipcWaitingFor t = some d) :
    u.kernel.isThreadAlive d ∧ u.waitsOn t = some (u.thread d) := by
  obtain ⟨⟨d', n⟩, hwaits, rfl⟩ := map_eq_some_iff.1 (h.2 d hd)
  obtain ⟨halive, rfl⟩ := h.1 d' n hwaits
  exact ⟨halive, hwaits⟩

/-- The first blocked sender waits on the thread whose queue it is in. -/
lemma Inv.sender (h : u.Inv) {src : Tid} (hsrc : u.kernel.ipcSendHead t = some src) :
    u.isBlocked src ∧ u.kernel.isThreadAlive t ∧ u.waitsOn src = some (u.thread t) := by
  obtain ⟨-, hstate, hwaiting⟩ := h.kernel.sender_blocked hsrc
  have hblocked : u.isBlocked src := by
    unfold isBlocked
    rcases hstate with hs | hs <;> rw [hs] <;> rfl
  exact ⟨hblocked, (h.waits src hblocked).waitsOn_eq hwaiting⟩

lemma Inv.faithful (h : u.Inv) : u.Faithful := by
  have hqueue : ∀ d, ¬ u.kernel.isThreadAlive d → u.kernel.ipcSendHead d = none := by
    intro d hd
    by_contra hne
    obtain ⟨src, hsrc⟩ := ne_none_iff_exists'.1 hne
    exact hd (h.sender hsrc).2.1
  refine ⟨fun d hd => (h.deliveries d hd).1, fun d hd => (h.deliveries d hd).2,
    fun t d n hblocked => (h.waits t hblocked).1 d n,
    fun t d hblocked hd => (h.waits t hblocked).waitsOn_eq hd, hqueue,
    fun t newTcb pc sp r0 prio hc hfree => ?_⟩
  obtain ⟨-, hstate, -⟩ := h.kernel.free_halted hfree
  have hquiet : Quiet .ipc (some t) none u.kernel (u.kernel.sysThreadCreate t pc sp r0 prio) :=
    h.kernel.quiet_sysThreadCreate t pc sp r0 prio
  rw [(hquiet.ipc rfl).2]
  exact hqueue newTcb (by simp [isThreadAlive, hstate])

/-! ## Steps -/

/-- A step that is not for IPC blocks no thread, and none goes on. -/
lemma isBlocked_iff_of_quiet {kernel : Nanokernel} {running dying : Option Tid}
    (hquiet : Quiet .ipc running dying u.kernel kernel) :
    isBlocked { u with kernel := kernel } t ↔ u.isBlocked t := by
  unfold isBlocked
  by_cases hsame : kernel.threadState t = u.kernel.threadState t
  · rw [hsame]
  · obtain ⟨hnew, hold, -⟩ := hquiet.state t hsame
    rw [hnew, hold]

/-- A step that is not for IPC, and does not end a thread that others wait on. -/
lemma Inv.of_quiet (h : u.Inv) {kernel : Nanokernel} (hkernel : kernel.Inv)
    {running dying : Option Tid} (hquiet : Quiet .ipc running dying u.kernel kernel)
    (hdying : ∀ t d, dying = some d → u.isBlocked t → (u.waitsOn t).map fst ≠ some d) :
    Inv { u with kernel := kernel } := by
  refine ⟨hkernel, h.deliveries, fun t ht => ?_⟩
  have hblocked := (isBlocked_iff_of_quiet hquiet).1 ht
  obtain ⟨hthread, hwaiting⟩ := h.waits t hblocked
  refine ⟨fun d n hd => ?_, fun d hd => ?_⟩
  · obtain ⟨halive, hserial⟩ := hthread d n hd
    refine ⟨?_, hserial⟩
    rcases hquiet.alive d halive with hstill | hdies
    · exact hstill
    · refine absurd ?_ (hdying t d hdies hblocked)
      have hd' : u.waitsOn t = some (d, n) := hd
      rw [hd']
      rfl
  · refine hwaiting d ?_
    rw [← (hquiet.ipc rfl).1]
    exact hd

lemma recordCreate_kernel (u : Messaging) (prio : ℕ) : (u.recordCreate prio).kernel = u.kernel := by
  unfold recordCreate
  split
  · rfl
  · split <;> rfl

lemma Inv.recordCreate (h : u.Inv) (prio : ℕ) : (u.recordCreate prio).Inv := by
  unfold Messaging.recordCreate
  split
  · exact h
  rcases hfree : u.kernel.tcbFreeHead with _ | newTcb
  · exact h
  obtain ⟨-, hstate, -⟩ := h.kernel.free_halted hfree
  refine ⟨h.kernel, h.deliveries, fun t ht => ?_⟩
  obtain ⟨hthread, hwaiting⟩ := h.waits t ht
  refine ⟨fun d n hd => ?_, hwaiting⟩
  obtain ⟨halive, hserial⟩ := hthread d n hd
  refine ⟨halive, ?_⟩
  have hne : d ≠ newTcb := by
    rintro rfl
    simp [isThreadAlive, hstate] at halive
  exact (update_of_ne hne _ _).trans hserial

/-- A thread that becomes neither halted nor a zombie does not die. -/
lemma alive_of_update {s s' : Nanokernel} {state : ThreadState}
    (hstate : s'.threadState = update s.threadState t state)
    (hlive : state ≠ .halted ∧ state ≠ .zombie) (hd : s.isThreadAlive d) : s'.isThreadAlive d := by
  by_cases hdt : d = t
  · subst hdt
    simpa [isThreadAlive, hstate] using hlive
  · simpa [isThreadAlive, hstate, hdt] using hd

/-- What is left to show for a step that changes the state of one thread. -/
lemma waits_of_update (h : ∀ t, u.isBlocked t → u.Waits t) {x : Tid} {state : ThreadState}
    {w : Option Tid} (hserial : u'.serial = u.serial)
    (hstate : u'.kernel.threadState = update u.kernel.threadState x state)
    (hwaiting : u'.kernel.ipcWaitingFor = update u.kernel.ipcWaitingFor x w)
    (hlive : state ≠ .halted ∧ state ≠ .zombie) (hwaitsOn : ∀ t ≠ x, u'.waitsOn t = u.waitsOn t)
    (hself : Area.ipc.hides state → u'.Waits x) (t : Tid) (ht : u'.isBlocked t) : u'.Waits t := by
  by_cases htx : t = x
  · subst htx
    rw [isBlocked, hstate, update_self] at ht
    exact hself ht
  · rw [isBlocked, hstate, update_of_ne htx] at ht
    rw [Waits, hwaitsOn t htx, hwaiting, update_of_ne htx, hserial]
    obtain ⟨hthread, hkernel⟩ := h t ht
    exact ⟨fun d n hd => (hthread d n hd).imp_left (alive_of_update hstate hlive), hkernel⟩

lemma recordSend_ready (hlt : dest < u.kernel.maxTcbs) (hready : u.kernel.isReadyToReceive t dest) :
    u.recordSend t dest operation = { u with
      deliveries := ⟨u.thread t, u.waitsOn dest, u.serial dest, u.serial dest⟩ :: u.deliveries
      waitsOn :=
        if operation.getLsbD 1 then update u.waitsOn t (some (u.thread dest))
        else u.waitsOn } := by
  have hstate := isReadyToReceive_state hready
  have halive : u.kernel.isThreadAlive dest := by simp [isThreadAlive, hstate]
  have hok : ¬ (u.kernel.maxTcbs ≤ dest ∨ ¬ u.kernel.isThreadAlive dest) := by
    rintro (hge | hdead)
    · omega
    · exact hdead halive
  rw [recordSend, if_neg hok, if_pos hready]

/-- A careful send delivers the message to a thread that wants it. -/
lemma Inv.delivery_isRight (h : u.Inv) (hready : u.kernel.isReadyToReceive t dest)
    (hcareful : (u.waitsOn dest).map fst = none ∨ (u.waitsOn dest).map fst = some t) :
    Delivery.IsRight ⟨u.thread t, u.waitsOn dest, u.serial dest, u.serial dest⟩ := by
  have hblocked : u.isBlocked dest := by
    rw [isBlocked, isReadyToReceive_state hready]
    rfl
  refine ⟨fun source hsource => ?_, rfl⟩
  obtain ⟨d, n⟩ := source
  have hwaitsOn : u.waitsOn dest = some (d, n) := hsource
  rw [hwaitsOn] at hcareful
  obtain ⟨-, rfl⟩ := (h.waits dest hblocked).1 d n hwaitsOn
  rcases hcareful with hnone | hsome
  · cases hnone
  · cases hsome
    rfl

lemma Inv.of_same (h : u.Inv) {kernel : Nanokernel} (hkernel : kernel.Inv)
    (hsame : (kernel.threadState, kernel.ipcWaitingFor) =
      (u.kernel.threadState, u.kernel.ipcWaitingFor)) : Inv { u with kernel := kernel } := by
  obtain ⟨hstate, hwaiting⟩ := Prod.mk.inj hsame
  refine ⟨hkernel, h.deliveries, fun t' ht' => ?_⟩
  simp only [isBlocked, Waits, isThreadAlive, hstate, hwaiting] at ht' ⊢
  simpa only [Waits, isThreadAlive] using h.waits t' ht'

lemma waits_thread (halive : u.kernel.isThreadAlive d) (hwaitsOn : u.waitsOn t = some (u.thread d))
    (hwaiting : u.kernel.ipcWaitingFor t = some d) : u.Waits t := by
  refine ⟨fun d' n hd' => ?_, fun d' hd' => ?_⟩
  · rw [hwaitsOn] at hd'
    cases hd'
    exact ⟨halive, rfl⟩
  · obtain rfl : d = d' := some.inj (hwaiting ▸ hd')
    rw [hwaitsOn]
    rfl

lemma Inv.sendC (h : u.Inv) (hc : u.kernel.currentTcb = some t) (dest : ℕ) (operation : BitVec 32)
    (hkernel : (u.kernel.sysIpcSendC t dest operation).Inv)
    (hcareful : u.kernel.maxTcbs ≤ dest ∨ (u.kernel.isReadyToReceive t dest →
      (u.waitsOn dest).map fst = none ∨ (u.waitsOn dest).map fst = some t)) :
    Inv { u.recordSend t dest operation with
      kernel := u.kernel.sysIpcSendC t dest operation } := by
  have hrunnable := (h.kernel.current hc).1
  obtain ⟨-, hspec⟩ := sysIpcSendC_spec (rfl : u.kernel.sysIpcSendC t dest operation = _)
  by_cases hok : u.kernel.maxTcbs ≤ dest ∨ ¬ u.kernel.isThreadAlive dest
  · rw [if_pos hok] at hspec
    rw [recordSend, if_pos hok]
    exact h.of_same hkernel hspec
  rw [if_neg hok] at hspec
  have ⟨hlt, halive⟩ := not_or.1 hok
  rw [Nat.not_le] at hlt
  by_cases hready : u.kernel.isReadyToReceive t dest
  · rw [if_pos hready] at hspec
    have hdest := isReadyToReceive_state hready
    have hright := h.delivery_isRight hready (hcareful.resolve_left (Nat.not_le.2 hlt) hready)
    have hne : t ≠ dest := ne_of_apply_ne u.kernel.threadState (by simp [hdest, hrunnable])
    rw [recordSend_ready hlt hready]
    refine ⟨hkernel, List.forall_mem_cons.2 ⟨hright, h.deliveries⟩, ?_⟩
    by_cases hcall : operation.getLsbD 1
    · rw [if_pos hcall] at hspec ⊢
      obtain ⟨hstate, hwaiting⟩ := Prod.mk.inj hspec
      -- First the receiver is woken up, then the sender waits for the reply.
      have hwoken := @waits_of_update u { u with kernel := { u.kernel with
        threadState := update u.kernel.threadState dest .runnable
        ipcWaitingFor := update u.kernel.ipcWaitingFor dest none } }
        h.waits dest .runnable none rfl rfl rfl (by simp) (fun _ _ => rfl) nofun
      refine waits_of_update hwoken rfl hstate hwaiting (by simp)
        (fun t' ht' => update_of_ne ht' _ _) fun _ => waits_thread ?_ (update_self ..) ?_
      · simp [isThreadAlive, hstate, hne.symm]
      · exact (congrFun hwaiting t).trans (update_self ..)
    · rw [if_neg hcall] at hspec ⊢
      obtain ⟨hstate, hwaiting⟩ := Prod.mk.inj hspec
      exact waits_of_update h.waits rfl hstate hwaiting (by simp) (fun _ _ => rfl) nofun
  · rw [if_neg hready] at hspec
    rw [recordSend, if_neg hok, if_neg hready]
    by_cases hblocking : operation.getLsbD 0
    · rw [if_pos hblocking] at hspec ⊢
      exact h.of_same hkernel hspec
    · rw [if_neg hblocking] at hspec ⊢
      obtain ⟨hstate, hwaiting⟩ := Prod.mk.inj hspec
      have hlive : ∀ b : Bool, (if b then ThreadState.waitIpcCall else .waitIpcSend) ≠ .halted ∧
          (if b then ThreadState.waitIpcCall else .waitIpcSend) ≠ .zombie := by decide
      refine ⟨hkernel, h.deliveries, waits_of_update h.waits rfl hstate hwaiting (hlive _)
        (fun t' ht' => update_of_ne ht' _ _) fun _ => waits_thread ?_ (update_self ..) ?_⟩
      · exact alive_of_update hstate (hlive _) (not_not.1 halive)
      · exact (congrFun hwaiting t).trans (update_self ..)

lemma Inv.recv (h : u.Inv) (hc : u.kernel.currentTcb = some t) (src : ℕ)
    (hcareful : u.CarefulCall t (.ipcRecv src)) :
    Inv { u.recordRecv t src with kernel := u.kernel.sysIpcRecv t src } := by
  have hkernel := h.kernel.sysIpcRecv hc src
  obtain ⟨-, hspec⟩ := sysIpcRecv_spec (rfl : u.kernel.sysIpcRecv t src = _)
  by_cases hsrc : u.kernel.maxTcbs ≤ src ∧ src ≠ ipcWaitAny
  · rw [if_pos hsrc] at hspec
    rw [recordRecv, if_pos hsrc]
    exact h.of_same hkernel hspec
  · rw [if_neg hsrc] at hspec
    rw [recordRecv, if_neg hsrc]
    rcases hhead : u.kernel.ipcSendHead t with _ | sender
    · rw [hhead] at hspec
      obtain ⟨hstate, hwaiting⟩ := Prod.mk.inj hspec
      refine ⟨hkernel, h.deliveries, waits_of_update h.waits rfl hstate hwaiting (by simp)
        (fun t' ht' => update_of_ne ht' _ _) fun _ => ?_⟩
      simp only [Waits, hwaiting, update_self]
      refine ⟨fun d n hd => ?_, nofun⟩
      unfold source at hd
      split_ifs at hd with hany
      cases hd
      refine ⟨alive_of_update hstate (by simp) ?_, rfl⟩
      rcases hcareful with hany' | hge | hsome | ⟨-, halive⟩
      · exact absurd hany' hany
      · exact absurd ⟨hge, hany⟩ hsrc
      · rw [hhead] at hsome
        cases hsome
      · exact halive
    · obtain ⟨hblocked, -, hwaitsOn⟩ := h.sender hhead
      have hright : Delivery.IsRight ⟨u.thread sender, u.source src, u.serial t,
          ((u.waitsOn sender).map snd).getD 0⟩ := by
        refine ⟨fun source hsource => ?_, by rw [hwaitsOn]; rfl⟩
        have hsource' : u.source src = some source := hsource
        unfold Messaging.source at hsource'
        split_ifs at hsource' with hany
        cases hsource'
        rcases hcareful with hany' | hge | hsome | ⟨hnone, -⟩
        · exact absurd hany' hany
        · exact absurd ⟨hge, hany⟩ hsrc
        · rw [hhead] at hsome
          cases hsome
          rfl
        · rw [hhead] at hnone
          cases hnone
      refine ⟨hkernel, List.forall_mem_cons.2 ⟨hright, h.deliveries⟩, ?_⟩
      rw [hhead] at hspec
      dsimp only at hspec
      split_ifs at hspec
      · obtain ⟨hstate, hwaiting⟩ := Prod.mk.inj hspec
        refine waits_of_update h.waits rfl hstate (hwaiting.trans (update_eq_self ..).symm) (by simp)
          (fun _ _ => rfl) fun _ => ?_
        obtain ⟨hthread, hkernel'⟩ := h.waits sender hblocked
        rw [Waits, hwaiting]
        exact ⟨fun d n hd => (hthread d n hd).imp_left (alive_of_update hstate (by simp)), hkernel'⟩
      · obtain ⟨hstate, hwaiting⟩ := Prod.mk.inj hspec
        exact waits_of_update h.waits rfl hstate hwaiting (by simp) (fun _ _ => rfl) nofun

lemma recordSend_saveMessage (u : Messaging) (t : Tid) (message : ℕ → BitVec 32) (dest : ℕ)
    (operation : BitVec 32) (kernel : Nanokernel) :
    { recordSend { u with kernel := u.kernel.saveMessage t message } t dest operation with
      kernel := kernel } = { u.recordSend t dest operation with kernel := kernel } := by
  have hready : (u.kernel.saveMessage t message).isReadyToReceive t dest =
      u.kernel.isReadyToReceive t dest := rfl
  have halive : (u.kernel.saveMessage t message).isThreadAlive dest =
      u.kernel.isThreadAlive dest := rfl
  have hmax : (u.kernel.saveMessage t message).maxTcbs = u.kernel.maxTcbs := rfl
  simp only [recordSend, hready, halive, hmax]
  split_ifs <;> rfl

lemma Inv.step (h : u.Inv) (hstep : u.step op = some u') (hcareful : u.Careful op) : u'.Inv := by
  cases op with
  | interrupt number =>
    obtain ⟨kernel, hkernel, rfl⟩ := map_eq_some_iff.1 hstep
    obtain ⟨hunmasked, ⟨⟩⟩ := ite_none_right_eq_some.1 hkernel
    exact h.of_quiet (h.kernel.handleInterrupt hunmasked)
      (h.kernel.quiet_handleInterrupt hunmasked) (by simp)
  | syscall call =>
    obtain ⟨t, hc, rfl⟩ := map_eq_some_iff.1 hstep
    have hcall := hcareful t hc
    have hentry : u.kernel.step (.syscall call) = some (u.kernel.syscall t call) := by
      simp [Nanokernel.step, hc]
    have hkernel := h.kernel.step hentry
    by_cases hipc : call.blocksIn = some .ipc
    · cases call with
      | ipcSend message dest operation =>
        have hsaved : Inv { u with kernel := u.kernel.saveMessage t message } :=
          ⟨h.kernel.saveMessage t message, h.deliveries, h.waits⟩
        have hsent := hsaved.sendC hc dest operation hkernel hcall
        rwa [recordSend_saveMessage] at hsent
      | ipcRecv src => exact h.recv hc src hcall
      | _ => cases hipc
    · have hquiet := h.kernel.ipc_quiet hc hipc
      have hdying : ∀ t' d, call.ends t = some d → u.isBlocked t' →
          (u.waitsOn t').map fst ≠ some d := by
        intro t' d hends hblocked
        cases call with
        | threadExit =>
          cases hends
          refine hcall t' (h.kernel.sound.lt_maxTcbs ?_) hblocked
          intro hhalted
          rw [isBlocked, hhalted] at hblocked
          cases hblocked
        | _ => cases hends
      cases call with
      | threadCreate pc sp r0 prio =>
        have hquiet' : Quiet .ipc (some t) none (u.recordCreate prio).kernel
            (u.kernel.syscall t (.threadCreate pc sp r0 prio)) := by
          rw [recordCreate_kernel]
          exact hquiet
        exact (h.recordCreate prio).of_quiet hkernel hquiet' (by simp)
      | ipcSend message dest operation => exact absurd rfl hipc
      | ipcRecv src => exact absurd rfl hipc
      | _ => exact h.of_quiet hkernel hquiet hdying

/-! ## Steps that are not careful -/

/-- A thread that exits while another one waits on it is not careful. -/
lemma Inv.exit_careful (h : u.Inv) (hc : u.kernel.currentTcb = some t)
    (hfaithful : Faithful { u with kernel := u.kernel.sysThreadExit t }) :
    u.CarefulCall t .threadExit := by
  intro t' _ hblocked hwaits
  obtain ⟨⟨d, n⟩, hwaitsOn, rfl⟩ := map_eq_some_iff.1 hwaits
  have hquiet : Quiet .ipc (some d) (some d) u.kernel (u.kernel.sysThreadExit d) :=
    h.kernel.quiet_sysThreadExit hc
  have hstill := (isBlocked_iff_of_quiet hquiet).2 hblocked
  exact h.kernel.not_alive_sysThreadExit hc (hfaithful.waits t' d n hstill hwaitsOn).1

/-- A thread that sends to a thread that waits for another one is not careful. -/
lemma send_careful {message : ℕ → BitVec 32} {kernel : Nanokernel}
    (hfaithful : Faithful { u.recordSend t dest operation with kernel := kernel }) :
    u.CarefulCall t (.ipcSend message dest operation) := by
  by_cases hlt : u.kernel.maxTcbs ≤ dest
  · exact .inl hlt
  refine .inr fun hready => ?_
  rw [recordSend_ready (Nat.not_le.1 hlt) hready] at hfaithful
  have hsource := hfaithful.source _ (List.mem_cons_self ..)
  rcases hwaitsOn : u.waitsOn dest with _ | source
  · exact .inl rfl
  have hsender : u.thread t = source := hsource source hwaitsOn
  right
  rw [← hsender]
  rfl

/-- A thread that asks for a message and gets another one, or asks for one of a thread that has
ended, is not careful. -/
lemma recv_careful (hrunnable : u.kernel.threadState t = .runnable) {src : ℕ}
    (hfaithful : Faithful { u.recordRecv t src with kernel := u.kernel.sysIpcRecv t src }) :
    u.CarefulCall t (.ipcRecv src) := by
  by_cases hany : src = ipcWaitAny
  · exact .inl hany
  by_cases hge : u.kernel.maxTcbs ≤ src
  · exact .inr (.inl hge)
  have hsrc : ¬ (u.kernel.maxTcbs ≤ src ∧ src ≠ ipcWaitAny) := fun hsrc => hge hsrc.1
  have hsource : u.source src = some (u.thread src) := if_neg hany
  refine .inr (.inr ?_)
  rcases hhead : u.kernel.ipcSendHead t with _ | sender
  · refine .inr ⟨rfl, ?_⟩
    obtain ⟨-, hspec⟩ := sysIpcRecv_spec (rfl : u.kernel.sysIpcRecv t src = _)
    rw [if_neg hsrc, hhead] at hspec
    obtain ⟨hstate, -⟩ := Prod.mk.inj hspec
    have hrecord : u.recordRecv t src =
        { u with waitsOn := update u.waitsOn t (u.source src) } := by
      rw [recordRecv, if_neg hsrc, hhead]
    rw [hrecord] at hfaithful
    have hblocked : isBlocked { u with
        waitsOn := update u.waitsOn t (u.source src)
        kernel := u.kernel.sysIpcRecv t src } t := by
      rw [isBlocked, hstate, update_self]
      rfl
    have halive := (hfaithful.waits t src (u.serial src) hblocked
      ((update_self ..).trans hsource)).1
    by_cases hself : src = t
    · simp [isThreadAlive, hself, hrunnable]
    · simpa [isThreadAlive, hstate, hself] using halive
  · have hrecord : u.recordRecv t src = { u with
        deliveries := ⟨u.thread sender, u.source src, u.serial t,
          ((u.waitsOn sender).map snd).getD 0⟩ :: u.deliveries } := by
      rw [recordRecv, if_neg hsrc, hhead]
    rw [hrecord] at hfaithful
    have hsender := hfaithful.source _ (List.mem_cons_self ..) (u.thread src) hsource
    exact .inl (congrArg some (congrArg fst hsender))

/-- A step after which all messages are delivered as they should is careful. -/
theorem Inv.careful (h : u.Inv) (hstep : u.step op = some u') (hfaithful : u'.Faithful) :
    u.Careful op := by
  cases op with
  | interrupt number => trivial
  | syscall call =>
    obtain ⟨t, hc, rfl⟩ := map_eq_some_iff.1 hstep
    intro t' ht'
    obtain rfl : t = t' := some.inj (hc.symm.trans ht')
    cases call with
    | threadExit => exact h.exit_careful hc hfaithful
    | ipcSend message dest operation => exact send_careful hfaithful
    | ipcRecv src => exact recv_careful (h.kernel.current hc).1 hfaithful
    | _ => trivial

/-- Without a current thread there is no system call that would not be careful. -/
lemma careful_of_step_eq_none (hstep : u.step op = none) : u.Careful op := by
  cases op with
  | interrupt number => trivial
  | syscall call =>
    intro t ht
    have hc : u.kernel.currentTcb = some t := ht
    simp [step, hc] at hstep

lemma start_inv (image : Image) : (start image).Inv := by
  refine ⟨image.boot_inv, nofun, fun t ht => ?_⟩
  have hboot : Area.ipc.hides (image.boot.threadState t) = true := ht
  rcases image.boot_state.1 t with hstate | hstate
  all_goals
    rw [hstate] at hboot
    cases hboot

end Messaging

open Messaging in
/-- The messages are delivered as they should in all states of a run exactly if all steps of the run
are careful. -/
theorem faithful_iff_careful (image : Image) (ops : List Nanokernel.Op) :
    (∀ n u, run step (start image) (ops.take n) = some u → u.Faithful) ↔
      RunMeets step Careful (start image) ops :=
  runMeets_iff (fun _ h => h.faithful) (fun _ _ => careful_of_step_eq_none)
    (fun _ _ _ h hstep hcareful => h.step hstep hcareful) (fun _ _ _ h hstep => h.careful hstep)
    (start_inv image) ops

/-- The first thread creates two others, which both send it a message. It asks for that of the
second one, and receives that of the first one. -/
theorem not_faithful_recv : ∃ u,
    run step (start singleImage)
      [.syscall (.threadCreate 0 0 0 20), .syscall (.ipcSend (fun _ => 5) 0 0),
        .syscall (.threadCreate 0 0 0 20), .syscall (.ipcSend (fun _ => 7) 0 0),
        .syscall (.ipcRecv 2)] = some u ∧
    u.kernel.regs 0 1 = 5 ∧ ¬ u.Faithful := by
  refine exists_run (Q := fun u =>
    u.kernel.regs 0 1 = 5 ∧ u.deliveries = [⟨(1, 3), some (2, 4), 0, 0⟩])
    (by decide +kernel) fun u _ hview => ⟨hview.1, fun hfaithful => ?_⟩
  have hsource := hfaithful.source ⟨(1, 3), some (2, 4), 0, 0⟩ (by simp [hview.2]) (2, 4) rfl
  simp at hsource

/-- The same, up to a receive from any thread: all of these steps are careful. -/
example : RunMeets step Messaging.Careful (start singleImage)
    [.syscall (.threadCreate 0 0 0 20), .syscall (.ipcSend (fun _ => 5) 0 0),
      .syscall (.threadCreate 0 0 0 20), .syscall (.ipcSend (fun _ => 7) 0 0),
      .syscall (.ipcRecv ipcWaitAny)] := by decide +kernel

end Okl4Kernel.Nano
