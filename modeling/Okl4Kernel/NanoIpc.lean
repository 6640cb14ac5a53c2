import Okl4Kernel.NanoSleepers

/-!
# IPC between threads of the nanokernel

`sys_ipc_recv` is given the thread to receive from, and a blocked sender waits for one thread. But
a TCB is used again when its thread has ended, so that a number of a thread stands for one thread
after the other. Here the threads get serial numbers, and what happens to the messages is recorded
next to the kernel: the thread that each blocked thread waits on, and the messages that were
delivered (`Messaging`). The kernel does not depend on what is recorded.

`sys_ipc_recv` ignores the thread that it should receive from, and `sys_thread_exit` does not care
about the threads that wait for the one that exits. So messages are delivered as they should only
in runs that avoid the cases in which this matters (`Careful`), and this is exactly so: the first
step that is not careful leads to a state in which something is wrong.
-/

namespace Okl4Kernel.Nano

open TransitionSystem Function Prod

/-- A message that was delivered: the thread that sent it, the thread that the receiver had asked
for (if it had), and the serial numbers of the receiver and of the thread the message was for. -/
structure Delivery where
  sender : Tid × ℕ
  asked : Option (Tid × ℕ)
  receiver : ℕ
  addressed : ℕ
  deriving DecidableEq

/-- The nanokernel and what happens to the messages. -/
structure Messaging where
  kernel : Nanokernel
  serial : Tid → ℕ
  nextSerial : ℕ
  waitsOn : Tid → Option (Tid × ℕ)
  deliveries : List Delivery

namespace Messaging

open Nanokernel

variable (u : Messaging) (t : Tid)

/-- The thread that a TCB stands for now. -/
def thread : Tid × ℕ := (t, u.serial t)

/-- The thread that `sys_ipc_recv` is asked to receive from. -/
def source (srcThread : ℕ) : Option (Tid × ℕ) :=
  if srcThread = ipcWaitAny then none else some (u.thread srcThread)

/-- What a send or a call does. -/
def recordSend (dest : ℕ) (operation : BitVec 32) : Messaging :=
  if u.kernel.maxTcbs ≤ dest ∨ ¬ u.kernel.isThreadAlive dest then u
  else if u.kernel.isReadyToReceive t dest then
    { u with
      deliveries := ⟨u.thread t, u.waitsOn dest, u.serial dest, u.serial dest⟩ :: u.deliveries
      waitsOn :=
        if operation.getLsbD 1 then update u.waitsOn t (some (u.thread dest))
        else u.waitsOn }
  else if operation.getLsbD 0 then u
  else { u with waitsOn := update u.waitsOn t (some (u.thread dest)) }

/-- What a receive does. -/
def recordRecv (srcThread : ℕ) : Messaging :=
  if u.kernel.maxTcbs ≤ srcThread ∧ srcThread ≠ ipcWaitAny then u
  else
    match u.kernel.ipcSendHead t with
    | none => { u with waitsOn := update u.waitsOn t (u.source srcThread) }
    | some src =>
      { u with
        deliveries :=
          ⟨u.thread src, u.source srcThread, u.serial t, ((u.waitsOn src).map snd).getD 0⟩ ::
            u.deliveries }

/-- A new thread gets a new serial number. -/
def recordCreate (prio : ℕ) : Messaging :=
  if maxPriority < prio then u
  else
    match u.kernel.tcbFreeHead with
    | none => u
    | some newTcb =>
      { u with
        serial := update u.serial newTcb u.nextSerial
        nextSerial := u.nextSerial + 1 }

/-- What is recorded about a system call of the thread `t`. -/
def record : Syscall → Messaging
  | .threadCreate _ _ _ prio => u.recordCreate prio
  | .ipcSend _ destThread operation => u.recordSend t destThread operation
  | .ipcRecv srcThread => u.recordRecv t srcThread
  | _ => u

/-- One entry into the kernel. -/
def step : Op → Option Messaging
  | .syscall call => u.kernel.currentTcb.map fun t =>
    { u.record t call with kernel := u.kernel.syscall t call }
  | .interrupt number => (u.kernel.step (.interrupt number)).map fun kernel =>
    { u with kernel := kernel }

/-- The system when it has booted. -/
def start (image : Image) : Messaging where
  kernel := image.boot
  serial t := t
  nextSerial := image.maxTcbs
  waitsOn _ := none
  deliveries := []

/-! ## What the messages should do -/

/-- Whether a thread is blocked in IPC. -/
def isBlocked : Bool := Area.ipc.hides (u.kernel.threadState t)

/-- The messages are delivered as they should. -/
structure Faithful (u : Messaging) : Prop where
  /-- Who asks for a message of one thread gets a message of this thread. -/
  source : ∀ d ∈ u.deliveries, ∀ source, d.asked = some source → d.sender = source
  /-- A message is delivered to the thread it is for. -/
  addressee : ∀ d ∈ u.deliveries, d.receiver = d.addressed
  /-- A thread waits only on a thread that has not ended. -/
  waits : ∀ t d n, u.isBlocked t → u.waitsOn t = some (d, n) →
    u.kernel.isThreadAlive d ∧ u.serial d = n
  /-- A thread that waits in the kernel for a TCB waits on the thread that it stands for. -/
  waiting : ∀ t d, u.isBlocked t → u.kernel.ipcWaitingFor t = some d →
    u.kernel.isThreadAlive d ∧ u.waitsOn t = some (u.thread d)
  /-- Nobody is in the send queue of a thread that has ended. -/
  queue : ∀ d, ¬ u.kernel.isThreadAlive d → u.kernel.ipcSendHead d = none
  /-- Nobody is in the send queue of a new thread. -/
  created : ∀ t newTcb pc sp r0 prio, u.kernel.currentTcb = some t →
    u.kernel.tcbFreeHead = some newTcb →
    (u.kernel.sysThreadCreate t pc sp r0 prio).ipcSendHead newTcb = none

/-- The system calls that are safe: a thread exits when no other thread waits on it; a message is
sent to a thread that does not wait for a message of another one; and a thread that wants a message
of one thread has it first in its queue, or has an empty queue. -/
def CarefulCall : Syscall → Prop
  | .threadExit => ∀ t' < u.kernel.maxTcbs, u.isBlocked t' → (u.waitsOn t').map fst ≠ some t
  | .ipcSend _ destThread _ => u.kernel.maxTcbs ≤ destThread ∨
    (u.kernel.isReadyToReceive t destThread →
      (u.waitsOn destThread).map fst = none ∨ (u.waitsOn destThread).map fst = some t)
  | .ipcRecv srcThread => srcThread = ipcWaitAny ∨ u.kernel.maxTcbs ≤ srcThread ∨
    u.kernel.ipcSendHead t = some srcThread ∨
      (u.kernel.ipcSendHead t = none ∧ u.kernel.isThreadAlive srcThread)
  | _ => True

/-- The steps that are safe. -/
def Careful : Op → Prop
  | .syscall call => ∀ t ∈ u.kernel.currentTcb, u.CarefulCall t call
  | .interrupt _ => True

instance (u : Messaging) (t : Tid) (call : Syscall) : Decidable (u.CarefulCall t call) := by
  unfold CarefulCall
  cases call <;> infer_instance

instance (u : Messaging) (op : Op) : Decidable (u.Careful op) := by
  unfold Careful
  cases op <;> infer_instance

end Messaging

end Okl4Kernel.Nano
