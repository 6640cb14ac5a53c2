import Okl4Kernel.Kernel

/-!
# Inter-process communication

The system call `IPC` has a send phase and a receive phase, either of which may be left out. A
sender whose destination is not waiting for it goes on the send queue of the destination and polls;
when the destination later receives, it commits to the sender: it waits for it and switches to it,
so that the sender restarts its call from the beginning and completes the transfer. A receiver
waits for a given thread, on the receive queue of that thread, or for any thread, or for
asynchronous notifications only.

The kernel sends messages on behalf of a thread, to its pager or its exception handler; those calls
run through the same two phases.

Message registers are in user memory, and so are the message tag and the state of notifications.
What a call reads of them is an argument of the functions here (`IpcEnv`); it may be anything, and
it may be different each time.
-/

namespace Okl4Kernel

/-- The bits of a `msg_tag_t` that `ipc` looks at. -/
structure MsgTag where
  sendBlocks : Bool
  recvBlocks : Bool
  isNotify : Bool
  deriving DecidableEq

/-- The tag of page fault and exception messages. -/
def MsgTag.ofKernel : MsgTag := ⟨true, true, false⟩

/-- What a call reads in user memory. -/
structure IpcEnv where
  /-- The tag of the caller. -/
  tag : MsgTag
  /-- The destination accepts notifications. -/
  destAccepts : Bool
  /-- A notification bit of the destination is set that is not masked. -/
  destNotified : Bool
  /-- The outcome of `transfer_message`. -/
  transferred : Bool
  /-- The caller accepts notifications. -/
  accepts : Bool
  /-- A notification bit of the caller is set that is not masked. -/
  notified : Bool
  /-- The tag in the reply to a message of the kernel has the error bit set. -/
  replyError : Bool
  deriving DecidableEq

/-- `wait_type`. -/
inductive WaitType
  /-- No receive phase, or the caller waits for itself. -/
  | none
  | any
  | notify
  | closed
  deriving DecidableEq

namespace Kernel

variable {τ μ κ ι σ : Type*}

section Decode

variable [DecidableEq τ] (k : Kernel τ μ κ ι σ)

/-- The decoding of the destination: `none` is an error, and `some none` means that there is no
send phase. -/
def decodeTo (c : τ) (toTid : ℕ) : Option (Option τ) :=
  if isThreadhandle toTid then
    match k.objects.lookupTcbByHandle toTid with
    | none => none
    | some t =>
      if k.state t = .waitingForever ∧ (k.tcb t).partner = .tcb c then some (some t) else none
  else if isMyself toTid then some (some c)
  else if isNilthread toTid then some none
  else (k.objects.lookupIpcCap c toTid).map some

/-- The decoding of the thread to receive from. -/
def decodeFrom (c : τ) (fromTid : ℕ) : WaitType × Option τ :=
  if isNilthread fromTid then (.none, none)
  else if isMyself fromTid then (.none, some c)
  else if isAnythread fromTid then (.any, none)
  else if isWaitnotify fromTid then (.notify, none)
  else (.closed, k.objects.lookupIpcCap c fromTid)

/-- The thread is woken up by an asynchronous notification. -/
def wakesOnNotify (t : τ) (bits : Bool) : Bool :=
  bits && (k.state t = .waitingNotify ||
    (k.state t = .waitingForever && (k.tcb t).partner = .anythread))

/-- The thread waits for the caller, or for any thread. -/
def waitsForSender (t c : τ) : Bool :=
  k.state t = .waitingForever && ((k.tcb t).partner = .tcb c || (k.tcb t).partner = .anythread)

/-- The thread polls the caller. -/
def polls (t c : τ) : Bool :=
  k.state t = .polling && (k.tcb t).partner = .tcb c

/-! ## The ways to end a call -/

/-- `enqueue_tcb_and_return`. -/
def enqueueTcbAndReturn : Option τ → Kernel τ μ κ ι σ
  | none => k
  | some dest => k.activateSched dest

/-- The caller stops in the given state, and the destination of the send phase goes on. -/
def sleep (c : τ) (state : ThreadState) : Option τ → Kernel τ μ κ ι σ
  | none => k.deactivateSched c state
  | some dest => k.deactivateActivateSched c dest state

end Decode

variable [DecidableEq τ] [DecidableEq μ] [Fintype τ] (k : Kernel τ μ κ ι σ)

/-- The caller polls the destination. -/
def poll (c dest : τ) : Kernel τ μ κ ι σ :=
  let k := ((k.setPartner c (.tcb dest)).block (.send dest) c).setContinuation c .restartIpc
  k.deactivateSched c .polling

/-- The caller waits for a thread, on the receive queue of that thread. -/
def waitFor (c source : τ) (dest : Option τ) : Kernel τ μ κ ι σ :=
  ((k.setPartner c (.tcb source)).block (.recv source) c).sleep c .waitingForever dest

variable (c : τ)

/-- The caller waits for any thread. -/
def waitForAny (dest : Option τ) : Kernel τ μ κ ι σ :=
  (k.setPartner c .anythread).sleep c .waitingForever dest

/-- The caller receives from a thread that polls it: it waits for that thread and switches to it. -/
def performReceive (c source : τ) (dest : Option τ) : Kernel τ μ κ ι σ :=
  let k := (k.setPartner c (.tcb source)).unblock (.send c) source
  let k := match dest with
    | none => k
    | some dest => k.activate dest
  k.contextSwitch c source .waitingForever

/-! ## The two phases -/

/-- What the send phase leads to. -/
inductive SendResult (τ μ κ ι σ : Type*)
  /-- The call has ended. -/
  | done (k : Kernel τ μ κ ι σ)
  /-- The call goes on to the receive phase, with the thread that is to be woken up. -/
  | proceed (k : Kernel τ μ κ ι σ) (dest : Option τ)

/-- The message reaches a thread that waits for it. -/
def transfer (c dest : τ) (env : IpcEnv) : SendResult τ μ κ ι σ :=
  let k := (k.removeDependency dest).setPartner dest .invalid
  if env.transferred then .proceed k (some dest)
  else .done ((k.setPartner c (.tcb dest)).activateSched dest)

/-- The send phase. -/
def sendPhase (c dest : τ) (env : IpcEnv) : SendResult τ μ κ ι σ :=
  if env.tag.isNotify then
    if env.destAccepts then
      .proceed k (if k.wakesOnNotify dest env.destNotified then some dest else none)
    else .done k
  else if k.waitsForSender dest c then k.transfer c dest env
  else if env.tag.sendBlocks then .done (k.poll c dest)
  else .done k

variable (env : IpcEnv)

/-- The part of the receive phase behind the choice of the thread to receive from. -/
def receiveFrom (acceptNotify : Bool) (dest : Option τ) : Option τ → Kernel τ μ κ ι σ
  | none =>
    if acceptNotify ∧ env.notified then k.enqueueTcbAndReturn dest
    else if env.tag.recvBlocks = false then k.enqueueTcbAndReturn dest
    else k.waitForAny c dest
  | some source =>
    if k.polls source c then k.performReceive c source dest
    else if acceptNotify ∧ env.notified then k.enqueueTcbAndReturn dest
    else if env.tag.recvBlocks = false then k.enqueueTcbAndReturn dest
    else k.waitFor c source dest

variable (dest : Option τ)

/-- The receive phase of a call that waits for notifications only. -/
def receiveNotify : Kernel τ μ κ ι σ :=
  if env.notified then k.enqueueTcbAndReturn dest
  else if env.accepts = false then k.enqueueTcbAndReturn dest
  else if env.tag.recvBlocks = false then k.enqueueTcbAndReturn dest
  else k.sleep c .waitingNotify dest

/-- The receive phase from a given thread, if there is one. -/
def receiveClosed : Option τ → Kernel τ μ κ ι σ
  | none => k.enqueueTcbAndReturn dest
  | some source =>
    -- The short cut for a call: the thread that has got the message does not send one.
    if dest = some source ∧ env.tag.recvBlocks then k.waitFor c source dest
    else k.receiveFrom c env false dest (some source)

/-- The receive phase. -/
def receivePhase : WaitType → Option τ → Kernel τ μ κ ι σ
  | .none, none =>
    match dest with
    | none => k
    | some dest => (k.setPartner c .null).activateSched dest
  | .none, some source => k.receiveClosed c env dest (some source)
  | .any, _ => k.receiveFrom c env env.accepts dest (k.scheduler.sched.blockedHead (.send c))
  | .notify, _ => k.receiveNotify c env dest
  | .closed, source => k.receiveClosed c env dest source

/-- `ipc`. -/
def ipc (dest source : Option τ) (wait : WaitType) : Kernel τ μ κ ι σ :=
  match dest with
  | none => k.receivePhase c env none wait source
  | some dest =>
    match k.sendPhase c dest env with
    | .done k => k
    | .proceed k dest => k.receivePhase c env dest wait source

/-! ## Calls -/

/-- `ipc_return_continuation`. -/
def returnContinuation : IpcTarget τ → Continuation
  | .user _ _ => .user
  | .kernel _ false => .finishKernelIpc
  | .kernel _ true => .finishExceptionIpc

/-- The body of `SYS_IPC` and of `do_ipc`, which is run again by `restart_ipc` and
`restart_do_ipc`. -/
def runIpc : Kernel τ μ κ ι σ :=
  let target := (k.tcb c).ipcTarget
  let k := k.setContinuation c (returnContinuation target)
  match target with
  | .user toTid fromTid =>
    match k.decodeTo c toTid with
    | none => k
    | some dest => k.ipc c env dest (k.decodeFrom c fromTid).2 (k.decodeFrom c fromTid).1
  | .kernel handler _ =>
    let dest := k.objects.caps.acquireReadLockTcb handler
    k.ipc c env dest dest .closed

variable (t : τ)

/-- Set what the thread keeps to restart its IPC. -/
def setIpcTarget (target : IpcTarget τ) : Kernel τ μ κ ι σ :=
  k.modifyTcb t fun b => { b with ipcTarget := target }

/-- `SYS_IPC`. -/
def sysIpc (toTid fromTid : ℕ) : Kernel τ μ κ ι σ :=
  (k.setIpcTarget c (.user toTid fromTid)).runIpc c env

/-- `do_ipc`, with the state saved before it. -/
def sendToHandler (handler : τ) (exception : Bool) : Kernel τ μ κ ι σ :=
  ((k.saveState c).setIpcTarget c (.kernel handler exception)).runIpc c
    { env with tag := MsgTag.ofKernel }

/-- `handle_pagefault`, for a fault in user mode. -/
def handlePagefault : Kernel τ μ κ ι σ :=
  let k := k.setPartner c .null
  match (k.objects.caps.word (.pager c)).tcb with
  | none => k
  | some pager => k.sendToHandler c env pager false

/-- `send_exception_ipc`. -/
def sendExceptionIpc : Kernel τ μ κ ι σ :=
  match (k.objects.caps.word (.exceptionHandler c)).tcb with
  | none => k
  | some handler => k.sendToHandler c env handler true

/-- `handle_ipc_error`. -/
def handleIpcError : Kernel τ μ κ ι σ :=
  if (k.tcb c).savedState = .running then k.restoreState c else k.setSavedState c .aborted

/-- `finish_exception_ipc`. -/
def finishExceptionIpc : Kernel τ μ κ ι σ :=
  if env.replyError then k.deactivateSched c .halted else k.restoreState c

/-- `kernel_deliver_notify`, which schedules if it is given a continuation. -/
def deliverNotify (handler : τ) (bits cont : Bool) : Kernel τ μ κ ι σ :=
  if k.wakesOnNotify handler bits then
    if cont then k.activateSched handler else k.activate handler
  else k

/-! ## Exchanging registers -/

/-- The thread that `ExchangeRegisters` and `Schedule` work on: one that the caller has the thread
capability of, or one in its own space. -/
def exregsTarget [DecidableEq σ] (k : Kernel τ μ κ ι σ) (c : τ) (tid : ℕ) : Option τ :=
  if isMyself tid then some c
  else
    match k.objects.lookupThreadCap c tid with
    | some t => some t
    | none =>
      match k.objects.lookupIpcCap c tid with
      | none => none
      | some t => if k.objects.space c = k.objects.space t then some t else none

/-- `is_sending`. -/
def isSending : Bool := k.state t = .polling

/-- `is_receiving`. -/
def isReceiving : Bool :=
  k.state t = .waitingForever || k.state t = .waitingNotify

/-- The part of `perform_exregs` that aborts an operation of the thread; `send` and `recv` are
control flags. -/
def performExregs (send recv : Bool) : Kernel τ μ κ ι σ :=
  if (k.isSending t && send) || (k.isReceiving t && recv) then
    (k.cancelIpc t (k.tcb t).partner).schedule
  else if (send || recv) && k.state t = .waitingMutex then
    ((k.unwind t .null).activate t).schedule
  else k

/-- `halt_thread`, for a thread that is running. -/
def haltThread : Kernel τ μ κ ι σ :=
  if k.state t = .running then
    let k := k.deactivate t .halted
    if some t = k.current then k.schedule else k
  else k

/-- `resume_thread`, for a thread that is halted. -/
def resumeThread : Kernel τ μ κ ι σ :=
  if k.state t = .halted then (k.activate t).schedule else k

end Kernel

end Okl4Kernel
