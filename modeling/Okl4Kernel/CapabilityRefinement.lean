import Okl4Kernel.CapabilityChain
import Okl4Kernel.HybridUnlock

/-!
# The kernel refines the system of capabilities

Of all that enters the kernel only the system calls on capabilities and threads change the
capabilities, and each does so by one operation of `Caps.step`; IPC, scheduling and mutexes leave
them alone. So a run of the kernel is a run of the capabilities, with steps between that do nothing
to them, and what holds of all runs of the capabilities holds of the kernel.
-/

namespace Okl4Kernel

open TransitionSystem Function Option

namespace Kernel

/-! ## What leaves the objects alone -/

variable {τ μ κ ι σ : Type*} [DecidableEq τ] [DecidableEq μ] [Fintype τ] {k k' : Kernel τ μ κ ι σ}
variable {c t : τ} {env : IpcEnv} {n : ℕ}

lemma unwind_objects (partner : Partner τ) : (k.unwind t partner).objects = k.objects := by
  unfold unwind
  repeat' split
  all_goals rfl

lemma cancelLoop_objects (r : SyncRef τ μ) : (cancelLoop r t n k).objects = k.objects := by
  induction n generalizing k with
  | zero => rfl
  | succ n ih =>
    rw [cancelLoop]
    split
    · rfl
    · exact ih.trans (unwind_objects _)

lemma releaseLoop_objects : (releaseLoop t n k).objects = k.objects := by
  induction n generalizing k with
  | zero => rfl
  | succ n ih =>
    rw [releaseLoop]
    repeat' split
    · rfl
    all_goals exact ih

lemma cancelIpcs_objects : (k.cancelIpcs t).objects = k.objects := by
  simp only [cancelIpcs, unwindSelf, cancelLoop_objects]
  split_ifs
  · exact unwind_objects _
  · rfl

lemma releaseMutexes_objects : (k.releaseMutexes t).objects = k.objects := by
  simp only [releaseMutexes, releaseLoop_objects]
  split_ifs
  · exact unwind_objects _
  · rfl

lemma receivePhase_objects {dest source : Option τ} {wait : WaitType} :
    (k.receivePhase c env dest wait source).objects = k.objects := by
  unfold receivePhase receiveClosed receiveNotify receiveFrom waitFor waitForAny performReceive sleep
    enqueueTcbAndReturn
  repeat' split
  all_goals rfl

lemma sendPhase_objects {dest : τ} (h : k.sendPhase c dest env = .done k' ∨
    ∃ next, k.sendPhase c dest env = .proceed k' next) : k'.objects = k.objects := by
  unfold sendPhase transfer at h
  split_ifs at h
  all_goals
    rcases h with h | ⟨next, h⟩
    all_goals cases h
    all_goals rfl

lemma runIpc_objects : (k.runIpc c env).objects = k.objects := by
  have hipc : ∀ {k : Kernel τ μ κ ι σ} {dest source : Option τ} {wait : WaitType},
      (k.ipc c env dest source wait).objects = k.objects := by
    intro k dest source wait
    unfold ipc
    split
    · exact receivePhase_objects
    split
    · rename_i h
      exact sendPhase_objects (.inl h)
    · rename_i h
      exact receivePhase_objects.trans (sendPhase_objects (.inr ⟨_, h⟩))
  dsimp only [runIpc]
  repeat' split
  · rfl
  all_goals exact hipc

lemma continuation_objects {accessible : Bool} (h : k.continuation c env accessible = some k') :
    k'.objects = k.objects := by
  unfold continuation at h
  split at h
  all_goals cases h
  · exact runIpc_objects
  all_goals
    simp only [handleIpcError, finishExceptionIpc, hybridMutexWakeup, restoreState, enterState,
      setSavedState]
    repeat' split
    all_goals rfl

variable [DecidableEq κ] [DecidableEq ι] [DecidableEq σ] [Fintype κ] [Fintype ι] {s : σ}
variable {op : KernelOp τ μ κ ι σ}

lemma deleteThread_caps : (k.deleteThread t).objects.caps =
    (k.objects.caps.invalidateReference t).deleteTcb t := by
  have hschedule : ∀ k : Kernel τ μ κ ι σ, (k.deleteSchedule t).objects = k.objects := fun _ => rfl
  simp only [deleteThread, schedule, onScheduler, deleteTcb, hschedule, releaseMutexes_objects,
    unwind_objects, cancelIpcs_objects, Objects.deleteTcb, Objects.removeThread]
  split <;> rfl

/-! ## Steps -/

/-- The capabilities do not change, or by one operation. -/
def CapStep (caps caps' : Caps τ κ ι) : Prop := caps' = caps ∨ ∃ op, caps.step op = some caps'

lemma capStep_of_call (h : k.objects.caps.Linked) (hcall : k.call c s op = some k') :
    CapStep k.objects.caps k'.objects.caps := by
  have hsame : ∀ {k' : Kernel τ μ κ ι σ}, k'.objects = k.objects →
      CapStep k.objects.caps k'.objects.caps := fun heq => .inl (congrArg Objects.caps heq)
  cases op with
  | createThread tid t idx space prio pagerTid exceptHandlerTid activated =>
    obtain ⟨⟨ht, -⟩, ⟨⟩⟩ := ite_none_right_eq_some.1 hcall
    refine .inr ⟨.createThread (k.objects.clistOf s) tid t pagerTid exceptHandlerTid activated,
      (if_pos ht).trans (congrArg some ?_)⟩
    unfold createThread
    dsimp only
    split_ifs <;> rfl
  | deleteThread tid =>
    simp only [call] at hcall
    split at hcall
    · cases hcall
      exact .inl rfl
    rename_i t hlookup
    split_ifs at hcall with hself
    all_goals cases hcall
    · exact .inl rfl
    -- The entry is still that of the thread, so that `remove_thread_cap` does not fail.
    have hword := (h.toPlaced.lookupThreadCap hlookup).1
    refine .inr ⟨.deleteThread (k.objects.clistOf s) (some c) tid, ?_⟩
    simp [deleteThread_caps, Caps.step, Caps.deleteThread, hlookup, hself, Caps.removeThreadCap, hword]
  | createClist clist entries | deleteClist clist | copyCap srcId target targetId
  | deleteCap clist targetId | registerInterrupt tid irq | unregisterInterrupt tid irq
  | modifyThread tid pagerTid exceptHandlerTid =>
    simp only [call, capCall, map_eq_some_iff] at hcall
    obtain ⟨caps, hcaps, rfl⟩ := hcall
    exact .inr ⟨_, hcaps⟩
  | ipc env toTid fromTid =>
    cases hcall
    exact hsame runIpc_objects
  | pagefault env | exception env =>
    cases hcall
    refine hsame ?_
    simp only [handlePagefault, sendExceptionIpc]
    split
    · rfl
    · exact runIpc_objects
  | exregsAbort tid send recv | exregsHalt tid | exregsResume tid | setPriority tid prio =>
    simp only [call] at hcall
    repeat' split at hcall
    all_goals cases hcall
    · exact .inl rfl
    refine hsame ?_
    simp only [performExregs, cancelIpc, haltThread, resumeThread, setPriority]
    split_ifs
    all_goals first | rfl | exact unwind_objects _
  | threadSwitch tid | createMutex m | deleteMutex m | lock m blocking | unlock m | userLock m
  | userUnlock m | userWrite m w | hybridLock m accessible | hybridUnlock m accessible =>
    cases hcall
    refine hsame ?_
    simp only [threadSwitch, createMutex, deleteMutex, lock, unlock, userLock, userUnlock, hybridLock,
      trackHolder, hybridUnlock, handOver, setMutexWord]
    repeat' split
    all_goals rfl
  | interrupt irq bits cont | timerTick wakeup timerLength | continuation env accessible =>
    cases hcall

lemma capStep_of_step (h : k.objects.caps.Linked) (hstep : k.step op = some k') :
    CapStep k.objects.caps k'.objects.caps := by
  cases op with
  | interrupt irq bits cont =>
    obtain ⟨-, hdeliver⟩ := ite_none_right_eq_some.1 hstep
    split at hdeliver
    all_goals cases hdeliver
    · exact .inl rfl
    unfold deliverNotify
    split_ifs <;> exact .inl rfl
  | timerTick wakeup timerLength =>
    obtain ⟨-, ⟨⟩⟩ := ite_none_right_eq_some.1 hstep
    exact .inl rfl
  | continuation env accessible =>
    obtain ⟨c, -, hcont⟩ := bind_eq_some_iff.1 hstep
    exact .inl (congrArg Objects.caps (continuation_objects hcont))
  | _ =>
    obtain ⟨-, hbind⟩ := ite_none_right_eq_some.1 hstep
    obtain ⟨c, -, hspace⟩ := bind_eq_some_iff.1 hbind
    obtain ⟨s, -, hcall⟩ := bind_eq_some_iff.1 hspace
    exact capStep_of_call h hcall

/-! ## Runs -/

variable (b : Boot τ κ ι σ) {ops : List (KernelOp τ μ κ ι σ)}

lemma exists_run_caps (hrun : run Kernel.step b.start ops = some k) :
    ∃ capOps, run Caps.step Caps.init capOps = some k.objects.caps :=
  run_refines (f := fun k => k.objects.caps)
    (fun _ _ _ ⟨_, hcaps⟩ hstep => capStep_of_step (Caps.linked_of_run hcaps) hstep)
    ⟨b.capOps, b.caps_eq⟩ hrun

/-- In every state that the kernel reaches, by whatever system calls, faults and interrupts, the
capabilities are those that some operations on capabilities alone lead to. So the chain of each
thread has exactly the capabilities and references that name it, and what is not a thread any more
is not named by any of them. -/
theorem capabilities_refined (hrun : run Kernel.step b.start ops = some k) :
    (∃ capOps, run Caps.step Caps.init capOps = some k.objects.caps) ∧ k.objects.caps.Linked ∧
      ∀ a t, (k.objects.caps.word a).tcb = some t → k.live t = true := by
  obtain ⟨capOps, hcaps⟩ := exists_run_caps b hrun
  have hlinked := Caps.linked_of_run hcaps
  exact ⟨⟨capOps, hcaps⟩, hlinked, hlinked.named⟩

/-- The second thread is deleted while it waits for a mutex. -/
theorem capabilities_refined_delete : ∃ k,
    run Kernel.step twoThreads.start (contention ++ [.deleteThread 2]) = some k ∧
      k.live 1 = false ∧ ∃ capOps, run Caps.step Caps.init capOps = some k.objects.caps :=
  exists_run (Q := fun k => k.live 1 = false) (by decide +kernel) fun _ hrun hlive =>
    ⟨hlive, (capabilities_refined _ hrun).1⟩

/-- In every state that the kernel reaches, the deletion of a thread revokes exactly the capabilities
and references that name it, wherever they are, and its own references to its handlers. -/
theorem deleteThread_revokes (hrun : run Kernel.step b.start ops = some k) (t : τ)
    (a : CapAddr τ κ ι) :
    (k.deleteThread t).live t = false ∧ (k.deleteThread t).objects.caps.word a =
      if (k.objects.caps.word a).tcb = some t ∨ a = .pager t ∨ a = .exceptionHandler t then .invalid
      else k.objects.caps.word a := by
  obtain ⟨capOps, hcaps⟩ := exists_run_caps b hrun
  obtain ⟨-, hword, hlive, -⟩ := (Caps.linked_of_run hcaps).deleteTcb t
  rw [live, deleteThread_caps, hlive, hword]
  exact ⟨by simp, rfl⟩

/-- A capability names the second thread, until the thread is deleted. -/
theorem deleteThread_revokes_contention : ∃ k,
    run Kernel.step twoThreads.start contention = some k ∧
      k.objects.caps.word (.entry () 2) = .thread 1 ∧
      (k.deleteThread 1).objects.caps.word (.entry () 2) = .invalid :=
  exists_run (Q := fun k => k.objects.caps.word (.entry () 2) = .thread 1) (by decide +kernel)
    fun _ hrun hword =>
      ⟨hword, (deleteThread_revokes _ hrun 1 _).2.trans (if_pos (.inl (congrArg CapWord.tcb hword)))⟩

end Kernel

end Okl4Kernel
