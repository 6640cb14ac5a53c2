import Okl4Kernel.Lib.SwapRemove
import Okl4Kernel.NanoFrames

/-!
# Sleepers and pending signals

What the system calls of the nanokernel do to the threads that sleep on futexes, and to the pending
signals: `sys_futex_wait` uses up a pending signal or puts the current thread to sleep
(`sysFutexWait_spec`), `sys_futex_signal` wakes up a sleeper or leaves a pending signal
(`sysFutexSignal_spec`), and no other system call changes either (`futex_quiet`).
-/

namespace Okl4Kernel.Nano

open LinkedRing Function

namespace Nanokernel

variable {s s' s'' : Nanokernel} {t c : Tid}

/-! ## Pending signals -/

/-- The loop over the pending signals finds one with the tag, if there is one. -/
lemma findPending_spec (tags : List ℕ) (tag n : ℕ) :
    (∃ i, findPending tags tag n = some i ∧ tags[i]? = some tag) ∨
      (findPending tags tag n = none ∧ ∀ i < n, tags[i]? ≠ some tag) := by
  induction n with
  | zero => exact .inr ⟨rfl, by simp⟩
  | succ n ih =>
    rw [findPending]
    split_ifs with htag
    · exact .inl ⟨n, rfl, htag⟩
    rcases ih with hfound | ⟨hnone, hothers⟩
    · exact .inl hfound
    · refine .inr ⟨hnone, fun i hi => ?_⟩
      rcases Nat.lt_succ_iff_lt_or_eq.1 hi with hlt | rfl
      · exact hothers i hlt
      · exact htag

/-- The signal that is overwritten by the last one is gone, and all others are kept. -/
lemma removePending_perm {tags : List ℕ} {tag i : ℕ} (hi : tags[i]? = some tag) :
    tags.Perm (tag :: removePending tags i) :=
  SwapRemove.swapRemove_perm 0 hi

/-! ## Futex calls -/

lemma setSyscallReturnVal_regs (s : Nanokernel) (t : Tid) (value : BitVec 32) :
    (s.setSyscallReturnVal t value).regs t 0 = value := by
  simp [setSyscallReturnVal]

lemma sysFutexWait_spec {tag : ℕ} (htag : tag ≠ 0)
    (hs' : s.sysFutexWait c tag = s') : s'.maxTcbs = s.maxTcbs ∧
    (s'.ipcWaitingFor = s.ipcWaitingFor ∧ s'.ipcSendHead = s.ipcSendHead) ∧
    ((tag ∈ s.futexPendingTags ∧ s.futexPendingTags.Perm (tag :: s'.futexPendingTags) ∧
        s'.threadState = s.threadState ∧ s'.futexTag = s.futexTag) ∨
      (tag ∉ s.futexPendingTags ∧ s'.futexPendingTags = s.futexPendingTags ∧
        s'.threadState = update s.threadState c .waitFutex ∧
        s'.futexTag = update s.futexTag c tag)) := by
  subst hs'
  unfold sysFutexWait
  rw [if_neg htag]
  rcases findPending_spec s.futexPendingTags tag s.futexPendingTags.length with
    ⟨i, hsome, hi⟩ | ⟨hnone, hothers⟩
  · rw [hsome]
    exact ⟨rfl, ⟨rfl, rfl⟩, .inl ⟨List.mem_of_getElem? hi, removePending_perm hi, rfl, rfl⟩⟩
  rw [hnone]
  dsimp only
  rw [sleepOnFutex_frame]
  refine ⟨rfl, ⟨rfl, rfl⟩, .inr ⟨fun hmem => ?_, rfl, rfl, rfl⟩⟩
  obtain ⟨i, hi, hget⟩ := List.mem_iff_getElem.1 hmem
  exact hothers i hi (List.getElem?_eq_some_iff.2 ⟨hi, hget⟩)

lemma Inv.sysFutexSignal_spec (h : s.Inv) {tag : ℕ} (htag : tag ≠ 0)
    (hs' : s.sysFutexSignal c tag = s') : s'.maxTcbs = s.maxTcbs ∧
    (s'.ipcWaitingFor = s.ipcWaitingFor ∧ s'.ipcSendHead = s.ipcSendHead) ∧
    s'.futexTag = s.futexTag ∧
    ((∃ t, s.threadState t = .waitFutex ∧ s.futexTag t = tag ∧
        s'.threadState = update s.threadState t .runnable ∧
        s'.futexPendingTags = s.futexPendingTags ∧ s'.regs c 0 = 0) ∨
      ((∀ t, s.threadState t = .waitFutex → s.futexTag t ≠ tag) ∧
        s'.threadState = s.threadState ∧
        (s.futexPendingTags.length < s.maxTcbs →
          s'.futexPendingTags = s.futexPendingTags ++ [tag] ∧ s'.regs c 0 = 0))) := by
  subst hs'
  unfold Nanokernel.sysFutexSignal
  rw [if_neg htag]
  rcases h.chosen.queues.sleeper (h.sound.place_lt _) tag with
    ⟨hnone, hothers⟩ | ⟨previous, t, hsome, hplace, htag', -⟩
  · rw [hnone]
    have hno : ∀ t, s.threadState t = .waitFutex → s.futexTag t ≠ tag := by
      intro t ht heq
      have hc : s.currentTcb ≠ some t := by
        intro hc
        have hrunnable := h.chosen.runnable t hc
        rw [ht] at hrunnable
        cases hrunnable
      refine hothers t ?_ heq
      rw [off_of_ne _ hc]
      simp [spot, ht, heq]
    dsimp only
    split_ifs with hfull
    · exact ⟨rfl, ⟨rfl, rfl⟩, rfl, .inr ⟨hno, rfl, fun hlt => absurd hfull (Nat.not_le.2 hlt)⟩⟩
    · exact ⟨rfl, ⟨rfl, rfl⟩, rfl, .inr ⟨hno, rfl, fun _ => ⟨rfl, setSyscallReturnVal_regs ..⟩⟩⟩
  · rw [hsome]
    obtain ⟨hc, hplace⟩ := off_eq_some hplace
    dsimp only
    rw [activateSchedule_frame, dequeueFutex_frame]
    exact ⟨rfl, ⟨rfl, rfl⟩, rfl, .inl ⟨t, (spot_eq_futex hplace).1, htag', rfl, rfl,
      setSyscallReturnVal_regs ..⟩⟩

/-! ## Other calls -/

lemma isReadyToReceive_state {src dest : Tid} (hready : s.isReadyToReceive src dest) :
    s.threadState dest = .waitIpcRecv := by
  simp only [isReadyToReceive, decide_eq_true_eq] at hready
  exact hready.1

lemma sysIpcSendC_spec {dest : ℕ} {operation : BitVec 32}
    (hs' : s.sysIpcSendC c dest operation = s') :
    (s'.maxTcbs = s.maxTcbs ∧ s'.futexTag = s.futexTag ∧
      s'.futexPendingTags = s.futexPendingTags) ∧ (s'.threadState, s'.ipcWaitingFor) =
      if s.maxTcbs ≤ dest ∨ ¬ s.isThreadAlive dest then (s.threadState, s.ipcWaitingFor)
      else if s.isReadyToReceive c dest then
        if operation.getLsbD 1 then
          (update (update s.threadState dest .runnable) c .waitIpcRecv,
            update (update s.ipcWaitingFor dest none) c (some dest))
        else (update s.threadState dest .runnable, update s.ipcWaitingFor dest none)
      else if operation.getLsbD 0 then (s.threadState, s.ipcWaitingFor)
      else (update s.threadState c (if operation.getLsbD 1 then .waitIpcCall else .waitIpcSend),
        update s.ipcWaitingFor c (some dest)) := by
  subst hs'
  unfold sysIpcSendC
  by_cases hlt : s.maxTcbs ≤ dest
  · rw [if_pos hlt, if_pos (.inl hlt)]
    exact ⟨⟨rfl, rfl, rfl⟩, rfl⟩
  by_cases halive : s.isThreadAlive dest
  · rw [if_neg hlt, if_neg (not_not.2 halive), if_neg (not_or.2 ⟨hlt, not_not.2 halive⟩)]
    unfold doSend blockSender deactivateSelfSchedule
    dsimp only
    set state : ThreadState := if operation.getLsbD 1 then .waitIpcCall else .waitIpcSend
    split_ifs
    · unfold awaitReply
      rw [doSchedule_frame]
      dsimp only [activate, enqueue, setRunnable, deactivateSelf, handOver, copyMessage,
        setSyscallReturnVal, switchTo]
      exact ⟨⟨rfl, rfl, rfl⟩, rfl⟩
    · rw [activateSchedule_frame]
      dsimp only [handOver, copyMessage, setSyscallReturnVal, switchTo]
      exact ⟨⟨rfl, rfl, rfl⟩, rfl⟩
    · exact ⟨⟨rfl, rfl, rfl⟩, rfl⟩
    · rw [doSchedule_frame]
      dsimp only [enqueueSend, deactivateSelf, switchTo]
      exact ⟨⟨rfl, rfl, rfl⟩, rfl⟩
  · rw [if_neg hlt, if_pos halive, if_pos (.inr halive)]
    exact ⟨⟨rfl, rfl, rfl⟩, rfl⟩

lemma sysIpcRecv_spec {src : ℕ} (hs' : s.sysIpcRecv c src = s') :
    (s'.maxTcbs = s.maxTcbs ∧ s'.futexTag = s.futexTag ∧
      s'.futexPendingTags = s.futexPendingTags) ∧ (s'.threadState, s'.ipcWaitingFor) =
      if s.maxTcbs ≤ src ∧ src ≠ ipcWaitAny then (s.threadState, s.ipcWaitingFor)
      else match s.ipcSendHead c with
        | none => (update s.threadState c .waitIpcRecv, update s.ipcWaitingFor c none)
        | some sender =>
          if s.threadState sender = .waitIpcCall then
            (update s.threadState sender .waitIpcRecv, s.ipcWaitingFor)
          else (update s.threadState sender .runnable, update s.ipcWaitingFor sender none) := by
  subst hs'
  unfold sysIpcRecv
  split_ifs
  · exact ⟨⟨rfl, rfl, rfl⟩, rfl⟩
  rcases s.ipcSendHead c with _ | sender
  · unfold deactivateSelfSchedule
    dsimp only
    rw [doSchedule_frame]
    exact ⟨⟨rfl, rfl, rfl⟩, rfl⟩
  · unfold receiveFrom
    dsimp only [dequeueSend, copyMessage, setSyscallReturnVal, syscallReturn, switchTo]
    rw [activateSchedule_frame]
    split_ifs <;> exact ⟨⟨rfl, rfl, rfl⟩, rfl⟩

lemma quiet_sysIpcSendC (hc : s.threadState c = .runnable) (dest : ℕ) (operation : BitVec 32) :
    Quiet .futex (some c) none s (s.sysIpcSendC c dest operation) := by
  obtain ⟨⟨hmax, hfutex⟩, hspec⟩ :=
    sysIpcSendC_spec (rfl : s.sysIpcSendC c dest operation = _)
  split_ifs at hspec with hok hready hcall
  all_goals obtain ⟨hstate, -⟩ := Prod.mk.inj hspec
  · exact .of_eq hmax (fun _ => hfutex) nofun hstate
  · -- The receiver is activated, and then the caller blocks.
    have hdest := isReadyToReceive_state hready
    have hne : c ≠ dest := ne_of_apply_ne s.threadState (by simp [hdest, hc])
    have hactive : Quiet .futex (some c) none s
        { s with threadState := update s.threadState dest .runnable } :=
      .woken rfl (fun _ => ⟨rfl, rfl⟩) nofun rfl (by rw [hdest]; rfl) (by simp [hdest])
    exact hactive.trans (.blocked hmax (fun _ => hfutex) nofun hstate
      ((update_of_ne hne _ _).trans hc) rfl (.inl (by simp)))
  · have hdest := isReadyToReceive_state hready
    exact .woken hmax (fun _ => hfutex) nofun hstate (by rw [hdest]; rfl) (by simp [hdest])
  · exact .of_eq hmax (fun _ => hfutex) nofun hstate
  · exact .blocked hmax (fun _ => hfutex) nofun hstate hc rfl (.inl (by simp))
  · exact .blocked hmax (fun _ => hfutex) nofun hstate hc rfl (.inl (by simp))

lemma Inv.quiet_sysIpcRecv (h : s.Inv) (hc : s.currentTcb = some c) (src : ℕ) :
    Quiet .futex (some c) none s (s.sysIpcRecv c src) := by
  obtain ⟨⟨hmax, hfutex⟩, hspec⟩ := sysIpcRecv_spec (rfl : s.sysIpcRecv c src = _)
  split_ifs at hspec
  · exact .of_eq hmax (fun _ => hfutex) nofun (Prod.mk.inj hspec).1
  rcases hsrc : s.ipcSendHead c with _ | sender
  · rw [hsrc] at hspec
    exact .blocked hmax (fun _ => hfutex) nofun (Prod.mk.inj hspec).1 (h.current hc).1 rfl
      (.inl (by simp))
  · rw [hsrc] at hspec
    obtain ⟨-, hblocked, -⟩ := h.sender_blocked hsrc
    have hold : Area.futex.hides (s.threadState sender) = false ∧ s.threadState sender ≠ .runnable := by
      rcases hblocked with h | h <;> rw [h] <;> exact ⟨rfl, nofun⟩
    dsimp only at hspec
    split_ifs at hspec
    · exact .of_update hmax (fun _ => hfutex) nofun (Prod.mk.inj hspec).1 rfl hold.1
        (fun hrun => absurd hrun hold.2) fun _ => .inl (by simp)
    · exact .woken hmax (fun _ => hfutex) nofun (Prod.mk.inj hspec).1 hold.1 hold.2

/-- The system calls that have nothing to do with futexes. -/
theorem Inv.futex_quiet (h : s.Inv) (hc : s.currentTcb = some c) {call : Syscall}
    (hcall : call.blocksIn ≠ some .futex) :
    Quiet .futex (some c) (call.ends c) s (s.syscall c call) := by
  have hrunnable := (h.current hc).1
  cases call with
  | futexWait tag => exact absurd rfl hcall
  | futexSignal tag => exact absurd rfl hcall
  | ipcSend message dest operation =>
    have hsaved : Quiet .futex (some c) none s (s.saveMessage c message) :=
      .of_same rfl
    exact hsaved.trans (quiet_sysIpcSendC (s := s.saveMessage c message) hrunnable dest operation)
  | ipcRecv src => exact h.quiet_sysIpcRecv hc src
  | _ => exact h.quiet_syscall hc rfl

end Nanokernel

end Okl4Kernel.Nano
