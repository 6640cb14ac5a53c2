import Okl4Kernel.Mutex

/-!
# Hybrid mutexes

A hybrid mutex has a word in user memory. As long as there is no contention, threads lock and
unlock it with compare-and-set on that word: it is free, or it has the index of the holder with the
uppermost bit set. A thread that finds it held enters the kernel, which clears the uppermost bit,
records the holder, and blocks the caller on the synchronisation point of the mutex. From then on
the holder has to enter the kernel to unlock the mutex.

`hybrid_lock` and `hybrid_unlock` are those of a single processor: no user instruction comes
between their steps. They are given whether the word is accessible. If it is not, a call ends with
an error at its first access to the word, and what it has done before that is not undone.
-/

namespace Okl4Kernel

/-! ## The word -/

/-- `MUTEX_FREE`. -/
def mutexFree : ℕ := 2 ^ 32 - 1

/-- `CONTENTION_BIT`. -/
def contentionBit : ℕ := 2 ^ 31

/-- `user_state_set_contended`: the bit is cleared. -/
def setContended (word : ℕ) : ℕ := word % contentionBit

/-- `user_state_set_uncontended`: the bit is set. -/
def setUncontended (word : ℕ) : ℕ := word % contentionBit + contentionBit

/-- The word that `mutex_user_t::set_holder` writes. -/
def holderWord (idx : ℕ) (contended : Bool) : ℕ := if contended then idx else setUncontended idx

namespace Kernel

variable {τ μ κ ι σ : Type*}

section Word

variable [DecidableEq μ] (k : Kernel τ μ κ ι σ)

/-- Write the word of a mutex. -/
def setMutexWord (m : μ) (w : ℕ) : Kernel τ μ κ ι σ :=
  { k with word := Function.update k.word m w }

/-- `okl4_mutex_trylock`, and the first part of `okl4_mutex_lock`: compare-and-set from free to the
handle of the thread. -/
def userLock (c : τ) (m : μ) : Kernel τ μ κ ι σ :=
  if k.word m = mutexFree then k.setMutexWord m (setUncontended (k.objects.tcbIdx c)) else k

/-- The first part of `okl4_mutex_unlock`: compare-and-set from the handle of the thread to free. -/
def userUnlock (c : τ) (m : μ) : Kernel τ μ κ ι σ :=
  if k.word m = setUncontended (k.objects.tcbIdx c) then k.setMutexWord m mutexFree else k

end Word

variable [DecidableEq τ] [DecidableEq μ] [Fintype τ] (k : Kernel τ μ κ ι σ)

/-- The part of `hybrid_lock` for a mutex that is held and that the kernel has no holder of: the
holder is the thread whose index the word has, unless that thread has died. -/
def trackHolder (c : τ) (m : μ) : Kernel τ μ κ ι σ :=
  let k := k.setMutexWord m (setContended (k.word m))
  match k.objects.lookupTcbByHandle (setContended (k.word m)) with
  | none => k.setMutexWord m (holderWord (k.objects.tcbIdx c) false)
  | some holder => (k.onSched fun s => s.setHolder m holder).blockOnMutex c m .hybridMutexWakeup

/-- `hybrid_lock`. -/
def hybridLock (c : τ) (m : μ) (accessible : Bool) : Kernel τ μ κ ι σ :=
  let k := k.setSysMutex c (some m)
  match k.holder m with
  | some holder => if holder = c then k else k.blockOnMutex c m .hybridMutexWakeup
  | none =>
    if accessible = false then k
    else if k.word m = mutexFree then k.setMutexWord m (setUncontended (k.objects.tcbIdx c))
    else k.trackHolder c m

/-- The part of `hybrid_unlock` behind the first `release`, which has returned a new holder: if no
other thread is blocked, the kernel stops tracking the mutex. -/
def handOver (newHolder : τ) (m : μ) (accessible : Bool) : Kernel τ μ κ ι σ :=
  let k := if k.isContended m then k else k.release m
  if accessible then
    (k.setMutexWord m (holderWord (k.objects.tcbIdx newHolder) (k.isContended m))).activateSched
      newHolder
  -- The new holder is not woken up.
  else k

/-- `hybrid_unlock`. -/
def hybridUnlock (c : τ) (m : μ) (accessible : Bool) : Kernel τ μ κ ι σ :=
  let k := k.setSysMutex c (some m)
  match k.holder m with
  | none =>
    if accessible ∧ setContended (k.word m) = k.objects.tcbIdx c then k.setMutexWord m mutexFree
    else k
  | some holder =>
    if holder = c then
      match (k.scheduler.sched.release m).2 with
      | none => if accessible then (k.release m).setMutexWord m mutexFree else k.release m
      | some newHolder => (k.release m).handOver newHolder m accessible
    else k

/-- `hybrid_mutex_wakeup`. -/
def hybridMutexWakeup (c : τ) (accessible : Bool) : Kernel τ μ κ ι σ :=
  match (k.tcb c).sysMutex with
  | none => k
  | some m =>
    if accessible then k.setMutexWord m (holderWord (k.objects.tcbIdx c) (k.isContended m)) else k

end Kernel

end Okl4Kernel
