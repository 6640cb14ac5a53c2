import Okl4Kernel.Nano

/-!
# Futexes and semaphores on the nanokernel

The user-level mutexes (`okn_futex_lock` and so on) and semaphores (`okn_semaphore_down` and so on)
of the nanokernel. An object is a counter in memory, and its address is the tag on which threads
sleep. An operation changes the counter atomically, and enters the kernel only if it has to wait or
to wake another thread.

A thread goes through an operation in steps, between which other threads may run: after the access
to the counter it may have to call the kernel (`Phase.wait`, `Phase.signal`), and a thread that has
called the kernel to wait returns when it runs again (`Phase.sleep`). The counters do not overflow,
so they are integers.

The other fields of the state are not in the program. They count the operations that were
completed: `holders` are the threads that have locked a futex and not yet unlocked it, `downs` and
`ups` are the completed operations on a semaphore. A TCB is used again for new threads, so the
holders are given by the serial numbers of the threads.
-/

namespace Okl4Kernel

open Function

namespace Nano

/-- What an object is used for. -/
inductive ObjectKind
  | futex
  | semaphore (initial : ℕ)
  deriving DecidableEq

/-- Where a thread is in an operation. -/
inductive Phase
  /-- In no operation. -/
  | outside
  /-- Before the call to `okn_syscall_futex_wait`. -/
  | wait (object : ℕ)
  /-- In this call, asleep or about to return. -/
  | sleep (object : ℕ)
  /-- Before the call to `okn_syscall_futex_signal`. -/
  | signal (object : ℕ)
  /-- Before the counter is read in the loop of `okn_semaphore_try_down`. -/
  | tryRead (object : ℕ)
  /-- Before the counter is compared and set in this loop. -/
  | trySet (object : ℕ) (value : ℤ)
  deriving DecidableEq

/-- The nanokernel with its user-level objects. -/
structure System where
  kernel : Nanokernel
  kind : ℕ → ObjectKind
  count : ℕ → ℤ
  phase : Tid → Phase
  serial : Tid → ℕ
  nextSerial : ℕ
  holders : ℕ → List ℕ
  downs : ℕ → ℕ
  ups : ℕ → ℕ

namespace System

variable (u : System) (t : Tid)

/-- The thread `t` gets to another place of its operation. -/
def setPhase (phase : Phase) : System :=
  { u with phase := update u.phase t phase }

variable (o : ℕ)

/-- The counter of an object gets a new value. -/
def setCount (value : ℤ) : System :=
  { u with count := update u.count o value }

/-- The thread `t` has locked a futex. -/
def locked : System :=
  { u with holders := update u.holders o (u.serial t :: u.holders o) }

/-- A semaphore was taken. -/
def taken : System :=
  { u with downs := update u.downs o (u.downs o + 1) }

/-- A semaphore was released. -/
def released : System :=
  { u with ups := update u.ups o (u.ups o + 1) }

/-- `okn_futex_lock`, up to the system call. -/
def futexLock : System :=
  let newValue := u.count o + 1
  if newValue = 1 then (u.setCount o newValue).locked t o
  else (u.setCount o newValue).setPhase t (.wait o)

/-- `okn_futex_trylock`. -/
def futexTrylock : System :=
  if u.count o = 0 then (u.setCount o 1).locked t o else u

/-- `okn_futex_unlock`, up to the system call. -/
def futexUnlock : System :=
  let waiters := u.count o - 1
  let unlocked := { u.setCount o waiters with
    holders := update u.holders o ((u.holders o).erase (u.serial t)) }
  if 0 < waiters then unlocked.setPhase t (.signal o) else unlocked

/-- `okn_semaphore_down`, up to the system call. -/
def semaphoreDown : System :=
  let result := u.count o - 1
  if 0 ≤ result then (u.setCount o result).taken o
  else (u.setCount o result).setPhase t (.wait o)

/-- `okn_semaphore_up`, up to the system call. -/
def semaphoreUp : System :=
  let result := u.count o + 1
  if 0 < result then (u.setCount o result).released o
  else (u.setCount o result).setPhase t (.signal o)

/-- The loop of `okn_semaphore_try_down`: the counter is read. -/
def tryRead : System :=
  if u.count o ≤ 0 then u.setPhase t .outside else u.setPhase t (.trySet o (u.count o))

/-- The loop of `okn_semaphore_try_down`: the counter is compared and set. -/
def trySet (value : ℤ) : System :=
  if u.count o = value then ((u.setCount o (value - 1)).taken o).setPhase t .outside
  else u.setPhase t (.tryRead o)

/-- The call to `okn_syscall_futex_wait`. -/
def enterWait : System :=
  { u with kernel := u.kernel.sysFutexWait t o }.setPhase t (.sleep o)

/-- The return from `okn_syscall_futex_wait`, which ends the operation. -/
def leaveWait : System :=
  match u.kind o with
  | .futex => (u.setPhase t .outside).locked t o
  | .semaphore _ => (u.setPhase t .outside).taken o

/-- The call to `okn_syscall_futex_signal`, which ends the operation. -/
def enterSignal : System :=
  let signalled := { u with kernel := u.kernel.sysFutexSignal t o }.setPhase t .outside
  match u.kind o with
  | .futex => signalled
  | .semaphore _ => signalled.released o

/-- The next step of a thread in its operation. -/
def proceed : Phase → Option System
  | .outside => none
  | .wait o => some (u.enterWait t o)
  | .sleep o => some (u.leaveWait t o)
  | .signal o => some (u.enterSignal t o)
  | .tryRead o => some (u.tryRead t o)
  | .trySet o value => some (u.trySet t o value)

/-- A new thread is not in an operation. -/
def create (pc sp r0 : BitVec 32) (prio : ℕ) : System :=
  let kernel := u.kernel.sysThreadCreate t pc sp r0 prio
  match u.kernel.tcbFreeHead with
  | none => { u with kernel := kernel }
  | some newTcb =>
    { u with
      kernel := kernel
      serial :=
        if maxPriority < prio then u.serial else update u.serial newTcb u.nextSerial
      nextSerial := u.nextSerial + 1 }

/-- What a thread can do next. -/
inductive Action
  | lock (o : ℕ)
  | trylock (o : ℕ)
  | unlock (o : ℕ)
  | down (o : ℕ)
  | tryDown (o : ℕ)
  | up (o : ℕ)
  /-- The next step of the operation. -/
  | proceed
  | create (pc sp r0 : BitVec 32) (prio : ℕ)
  /-- Another system call. -/
  | call (call : Nanokernel.Syscall)

/-- The system calls that have nothing to do with futexes. -/
def isOther : Nanokernel.Syscall → Bool
  | .futexWait _ => false
  | .futexSignal _ => false
  | .threadCreate .. => false
  | _ => true

/-- An action of the current thread. A thread that is in an operation goes on with it; it does not
start another operation and does not exit. Only the holder of a futex unlocks it. -/
def act : Action → Option System
  | .lock o =>
    if u.phase t = .outside ∧ u.kind o = .futex ∧ o ≠ 0 then some (u.futexLock t o) else none
  | .trylock o =>
    if u.phase t = .outside ∧ u.kind o = .futex ∧ o ≠ 0 then some (u.futexTrylock t o) else none
  | .unlock o =>
    if u.phase t = .outside ∧ u.kind o = .futex ∧ u.serial t ∈ u.holders o then
      some (u.futexUnlock t o)
    else none
  | .down o =>
    if u.phase t = .outside ∧ u.kind o ≠ .futex ∧ o ≠ 0 then some (u.semaphoreDown t o) else none
  | .tryDown o =>
    if u.phase t = .outside ∧ u.kind o ≠ .futex ∧ o ≠ 0 then some (u.setPhase t (.tryRead o))
    else none
  | .up o =>
    if u.phase t = .outside ∧ u.kind o ≠ .futex ∧ o ≠ 0 then some (u.semaphoreUp t o) else none
  | .proceed => u.proceed t (u.phase t)
  | .create pc sp r0 prio =>
    if u.phase t = .outside then some (u.create t pc sp r0 prio) else none
  | .call call =>
    if u.phase t = .outside ∧ isOther call then
      some { u with kernel := u.kernel.syscall t call }
    else none

/-- What can happen next: an action of the current thread, or an interrupt. -/
inductive Event
  | act (action : Action)
  | interrupt (number : ℕ)

/-- One step of the system. -/
def step : Event → Option System
  | .act action => u.kernel.currentTcb.bind fun t => u.act t action
  | .interrupt number =>
    if u.kernel.unmasked number then
      some { u with kernel := u.kernel.handleInterrupt number }
    else none

/-- The system when it has booted: the futexes are free, and the semaphores have their initial
values. -/
def start (image : Image) (kind : ℕ → ObjectKind) : System where
  kernel := image.boot
  kind := kind
  count o := match kind o with
    | .futex => 0
    | .semaphore initial => initial
  phase _ := .outside
  serial t := t
  nextSerial := image.maxTcbs
  holders _ := []
  downs _ := 0
  ups _ := 0

end System

end Nano

end Okl4Kernel
