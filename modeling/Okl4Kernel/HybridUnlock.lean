import Okl4Kernel.KernelCalls
import Okl4Kernel.SyncpointInvariant

/-!
# Page faults while a hybrid mutex is unlocked

`hybrid_unlock` reads or writes the word of the mutex in user memory. If that raises a page fault,
the call returns an error to the caller, from the place where the fault was raised.

For a mutex without a recorded holder, the word is accessed before anything is done. But if the
caller is the recorded holder, the mutex is released first, and a fault when the word is written
leaves it released: the first of the blocked threads has left the queue, and is not made runnable.
So a failed call leaves the kernel as it was exactly if the caller is not the recorded holder, or the
word is writable (`hybridUnlock_atomic_iff`).
-/

namespace Okl4Kernel

open Function TransitionSystem List Option

/-- What the system call returns. -/
inductive MutexResult
  | success
  /-- `EMUTEX_BUSY`. -/
  | busy
  /-- `EINVALID_PARAM`, by `return_failure_pagefault`. -/
  | pagefault
  deriving DecidableEq

/-- How the caller can access the word. -/
structure WordAccess where
  readable : Bool
  writable : Bool

namespace Kernel

variable {τ μ κ ι σ : Type*} [DecidableEq τ] [DecidableEq μ] [Fintype τ]

/-- `hybrid_unlock`, with its result. -/
def hybridUnlockCall (k : Kernel τ μ κ ι σ) (c : τ) (m : μ) (access : WordAccess) :
    Kernel τ μ κ ι σ × MutexResult :=
  let k := k.setSysMutex c (some m)
  match k.holder m with
  | none =>
    -- `get_holder`
    if access.readable = false then (k, .pagefault)
    else if setContended (k.word m) = k.objects.tcbIdx c then
      -- `set_free`
      if access.writable then (k.setMutexWord m mutexFree, .success) else (k, .pagefault)
    else (k, .busy)
  | some holder =>
    if holder ≠ c then (k, .busy)
    else
      match (k.scheduler.sched.release m).2 with
      | none =>
        if access.writable then ((k.release m).setMutexWord m mutexFree, .success)
        else (k.release m, .pagefault)
      | some newHolder =>
        ((k.release m).handOver newHolder m access.writable,
          if access.writable then .success else .pagefault)

/-- Mutexes and threads are the same in two states. -/
structure SameThreads (k k' : Kernel τ μ κ ι σ) : Prop where
  holder : ∀ m, k'.holder m = k.holder m
  blocked : ∀ r, k'.scheduler.sched.blocked r = k.scheduler.sched.blocked r
  mutexesHeld : ∀ t, k'.scheduler.sched.mutexesHeld t = k.scheduler.sched.mutexesHeld t
  state : ∀ t, k'.state t = k.state t
  effectivePrio : ∀ t, k'.scheduler.sched.effectivePrio t = k.scheduler.sched.effectivePrio t

omit [DecidableEq μ] [Fintype τ] in
lemma sameThreads_setSysMutex (k : Kernel τ μ κ ι σ) (c : τ) (m : Option μ) :
    SameThreads k (k.setSysMutex c m) :=
  ⟨fun _ => rfl, fun _ => rfl, fun _ => rfl, fun _ => rfl, fun _ => rfl⟩

end Kernel

namespace Sched

variable {τ μ : Type*} [DecidableEq τ] [DecidableEq μ] [Fintype τ]

/-- `release` takes the first thread out of the queue of a held mutex, or leaves the mutex free. -/
lemma release_effect {s : Sched τ μ} {m : μ} {t : τ} (h : s.getHolder m = some t) :
    (s.release m).2 = s.blockedHead (.mutex m) ∧
      (s.release m).1.getHolder m = s.blockedHead (.mutex m) ∧
      (s.release m).1.blocked (.mutex m) = (s.blocked (.mutex m)).tail := by
  rcases hhead : s.blockedHead (.mutex m) with _ | newHolder
  · rw [release_of_blockedHead_none h hhead, releaseDonatee_eq h]
    refine ⟨rfl, update_self .., ?_⟩
    rw [head?_eq_none_iff.1 hhead]
    exact head?_eq_none_iff.1 hhead
  · rw [release_of_blockedHead_some h hhead, releaseDonatee_eq h]
    refine ⟨rfl, update_self .., ?_⟩
    obtain ⟨rest, hblocked⟩ := head?_eq_some_iff.1 hhead
    change update s.blocked (.mutex m) ((s.blocked (.mutex m)).erase newHolder) _ = _
    rw [update_self, hblocked, erase_cons_head, tail_cons]

end Sched

namespace Kernel

variable {τ μ κ ι σ : Type*} [DecidableEq τ] [DecidableEq μ] [Fintype τ]

/-- A hand-over without access to the word leaves the queue as the first `release` has left it, unless
it is empty. -/
lemma blocked_handOver {k : Kernel τ μ κ ι σ} {m : μ} {newHolder : τ}
    (h : k.holder m = some newHolder) :
    (k.handOver newHolder m false).scheduler.sched.blocked (.mutex m) =
      k.scheduler.sched.blocked (.mutex m) := by
  unfold handOver
  dsimp only
  rw [if_neg Bool.false_ne_true]
  cases hcontended : k.isContended m with
  | true => rfl
  | false =>
    rw [if_neg Bool.false_ne_true]
    have hempty : k.scheduler.sched.blocked (.mutex m) = [] := by
      rw [isContended, isSome_eq_false_iff, isNone_iff_eq_none] at hcontended
      exact head?_eq_none_iff.1 hcontended
    refine (Sched.release_effect h).2.2.trans ?_
    rw [hempty, tail_nil]

/-- If the caller is the recorded holder of the mutex and the word is not writable, the call fails and
leaves the mutex released. -/
lemma hybridUnlockCall_of_holder {k : Kernel τ μ κ ι σ} {c : τ} {m : μ} {access : WordAccess}
    (hholder : k.holder m = some c) (haccess : access.writable = false) :
    (k.hybridUnlockCall c m access).2 = .pagefault ∧
      ¬ SameThreads k (k.hybridUnlockCall c m access).1 := by
  have hholder' : (k.setSysMutex c (some m)).holder m = some c := hholder
  obtain ⟨hnew, hnewHolder, hblocked⟩ := Sched.release_effect hholder'
  unfold hybridUnlockCall
  dsimp only
  rw [hholder']
  dsimp only
  rw [if_neg (not_not_intro rfl), hnew, haccess]
  cases hhead : (k.setSysMutex c (some m)).scheduler.sched.blockedHead (.mutex m) with
  | none =>
    refine ⟨rfl, fun hsame => ?_⟩
    have hfree := hsame.holder m
    rw [hholder] at hfree
    rw [hhead] at hnewHolder
    cases hnewHolder.symm.trans hfree
  | some newHolder =>
    refine ⟨rfl, fun hsame => ?_⟩
    rw [hhead] at hnewHolder
    have hqueue := (hsame.blocked (.mutex m)).symm.trans (blocked_handOver hnewHolder)
    obtain ⟨rest, hlist⟩ := head?_eq_some_iff.1 hhead
    rw [show k.scheduler.sched.blocked (.mutex m) = newHolder :: rest from hlist] at hqueue
    have hlength := congrArg length (hqueue.trans hblocked)
    rw [hlist, tail_cons, length_cons] at hlength
    omega

/-- A call of `hybrid_unlock` that fails with a page fault leaves the mutexes and the threads as they
were exactly if the caller is not the recorded holder of the mutex, or the word is writable. -/
theorem hybridUnlock_atomic_iff (k : Kernel τ μ κ ι σ) (c : τ) (m : μ) (access : WordAccess) :
    ((k.hybridUnlockCall c m access).2 = .pagefault →
        SameThreads k (k.hybridUnlockCall c m access).1) ↔
      (k.holder m = some c → access.writable = true) := by
  constructor
  · intro hatomic hholder
    by_contra haccess
    obtain ⟨hfault, hchanged⟩ :=
      hybridUnlockCall_of_holder hholder (Bool.eq_false_iff.2 haccess)
    exact hchanged (hatomic hfault)
  · intro hok hfault
    have hsame := sameThreads_setSysMutex k c (some m)
    have hsysholder : (k.setSysMutex c (some m)).holder m = k.holder m := rfl
    unfold hybridUnlockCall at hfault ⊢
    dsimp only at hfault ⊢
    rw [hsysholder] at hfault ⊢
    rcases hholder : k.holder m with _ | holder
    · rw [hholder] at hfault
      dsimp only at hfault ⊢
      split_ifs at hfault ⊢ <;> exact hsame
    · rw [hholder] at hfault hok
      dsimp only at hfault ⊢
      by_cases hne : holder = c
      · -- The word is writable, so there is no fault.
        rw [if_neg (not_not_intro hne), hok (congrArg some hne)] at hfault
        cases hrelease : ((k.setSysMutex c (some m)).scheduler.sched.release m).2 <;>
          rw [hrelease] at hfault <;> cases hfault
      · rw [if_pos hne] at hfault
        cases hfault

/-! ## A waiter that is lost -/

/-- Two threads, of which the second has the higher priority. -/
def twoThreads : Boot (Fin 2) Unit Unit Unit where
  capOps := [.createClist () 8, .createThread () 1 0 0xfffffffc 0xfffffffc true,
    .createThread () 2 1 0xfffffffc 0xfffffffc true]
  caps := ((run Caps.step Caps.init
    [.createClist () 8, .createThread () 1 0 0xfffffffc 0xfffffffc true,
      .createThread () 2 1 0xfffffffc 0xfffffffc true]).getD Caps.init)
  caps_eq := rfl
  threads := [0, 1]
  threads_nodup := by decide
  mem_threads := by decide
  root := 0
  root_mem := by decide
  tcbIdx t := t
  tcbIdx_inj := by decide
  tcbIdx_lt := by decide
  space _ := ()
  clistOf _ := ()
  basePrio t := if t = 0 then 10 else 20
  timesliceLength _ := 5

/-- The first thread locks a mutex in user mode and resumes the second, which finds it held. -/
def contention : List (KernelOp (Fin 2) Unit Unit Unit Unit) :=
  [.createMutex (), .userLock (), .exregsResume 2, .hybridLock () true]

/-- What is seen of a state: the holder of the mutex, the threads that are blocked on it, the current
thread, and what the second thread does. -/
def view (k : Kernel (Fin 2) Unit Unit Unit Unit) :
    Option (Fin 2) × List (Fin 2) × Option (Fin 2) × ThreadState :=
  (k.holder (), k.scheduler.sched.blocked (.mutex ()), k.current, k.state 1)

/-- The first thread unlocks the mutex with a word that it cannot write. The call fails, but the second
thread has left the queue: it waits for a mutex that nobody holds, and nobody will wake it up. -/
theorem hybridUnlock_loses_waiter : ∃ k, run Kernel.step twoThreads.start contention = some k ∧
      view k = (some 0, [1], some 0, .waitingMutex) ∧
      (k.hybridUnlockCall 0 () ⟨true, false⟩).2 = .pagefault ∧
      view (k.hybridUnlockCall 0 () ⟨true, false⟩).1 = (none, [], some 0, .waitingMutex) ∧
      ¬ SameThreads k (k.hybridUnlockCall 0 () ⟨true, false⟩).1 := by
  have hstart : (run Kernel.step twoThreads.start contention).map view =
      some (some 0, [1], some 0, .waitingMutex) := by
    decide +kernel
  have hcall : (run Kernel.step twoThreads.start contention).map (fun k =>
      ((k.hybridUnlockCall 0 () ⟨true, false⟩).2, view (k.hybridUnlockCall 0 () ⟨true, false⟩).1)) =
      some (.pagefault, none, [], some 0, .waitingMutex) := by
    decide +kernel
  obtain ⟨k, hrun, hbefore⟩ := map_eq_some_iff.1 hstart
  rw [hrun, map_some, some.injEq] at hcall
  obtain ⟨hresult, hafter⟩ := Prod.mk.inj hcall
  refine ⟨k, hrun, hbefore, hresult, hafter, fun hsame => ?_⟩
  have hholder : k.holder () = some 0 := congrArg (·.1) hbefore
  have hfree : (k.hybridUnlockCall 0 () ⟨true, false⟩).1.holder () = none :=
    congrArg (·.1) hafter
  rw [hsame.holder, hholder] at hfree
  cases hfree

end Kernel

end Okl4Kernel
