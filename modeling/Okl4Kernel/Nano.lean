import Okl4Kernel.Lib.LinkedRing
import Okl4Kernel.Lib.TwoLevelBitmap
import Okl4Kernel.Lib.TransitionSystem

/-!
# The nanokernel

The nanokernel is a small kernel for one address space: threads with fixed priorities, futexes,
signals, interrupts and a synchronous IPC. This is the kernel for one execution unit, as it is
built for ARM.

A thread has one pair of pointers, `next` and `prev`, that all the queues of the kernel use: the
rings of ready threads, the rings of blocked senders, the chains of the futex hash table, and the
ring of free TCBs. A field of the TCBs is a function of the thread here. The idle TCB is the null
pointer, so `currentTcb` is `none` when the kernel is idle.

A system call is a function of the state and of the thread that makes it. It ends with
`switch_to`, which makes the next thread the current one.
-/

namespace Okl4Kernel.Nano

open LinkedRing Function

/-- The number of a TCB, which is the `tid` of its thread. -/
abbrev Tid := ℕ

/-- The state of a thread. -/
inductive ThreadState
  | runnable
  | waitFutex
  | waitInt
  | waitSignal
  | waitIpcRecv
  | waitIpcSend
  | waitIpcCall
  | waitJoin
  | halted
  | zombie
  deriving DecidableEq, Repr

/-- `MAX_PRIORITY`. -/
def maxPriority : ℕ := 31

/-- `IPC_WAIT_ANY`. -/
def ipcWaitAny : ℕ := 2 ^ 32 - 1

/-- `IPC_ERROR`, which is also the error value of some other system calls. -/
def ipcError : BitVec 32 := BitVec.allOnes 32

/-- The state of the nanokernel. `regs t` are the registers in the context frame of a thread,
`unmasked` are the interrupts that the interrupt controller lets through. -/
structure Nanokernel where
  maxTcbs : ℕ
  futexHashSlotsLg2 : ℕ
  numInterrupts : ℕ
  currentTcb : Option Tid
  threadState : Tid → ThreadState
  priority : Tid → ℕ
  pc : Tid → BitVec 32
  sp : Tid → BitVec 32
  regs : Tid → ℕ → BitVec 32
  links : Links Tid
  futexTag : Tid → ℕ
  ipcWaitingFor : Tid → Option Tid
  ipcSendHead : Tid → Option Tid
  signals : Tid → BitVec 32
  signalMask : Tid → BitVec 32
  registeredInterrupt : Tid → Option ℕ
  joiner : Tid → Option Tid
  priorityBitmap : BitVec 32
  priorityHeads : ℕ → Option Tid
  tcbFreeHead : Option Tid
  futexHead : ℕ → Option Tid
  futexTail : ℕ → Option Tid
  futexPendingTags : List ℕ
  interruptHandlers : ℕ → Option Tid
  unmasked : ℕ → Bool

namespace Nanokernel

variable (s : Nanokernel)

/-- `switch_to`. -/
def switchTo (next : Option Tid) : Nanokernel := { s with currentTcb := next }

/-- `set_syscall_return_val_success` and `set_syscall_return_val_error`. -/
def setSyscallReturnVal (tcb : Tid) (value : BitVec 32) : Nanokernel :=
  { s with regs := update s.regs tcb (update (s.regs tcb) 0 value) }

variable (current : Tid)

/-- `syscall_return_success` and `syscall_return_error`: the current thread goes on. -/
def syscallReturn (value : BitVec 32) : Nanokernel :=
  (s.setSyscallReturnVal current value).switchTo (some current)

/-- `is_thread_alive`. -/
def isThreadAlive (tcb : Tid) : Bool :=
  s.threadState tcb ≠ .halted ∧ s.threadState tcb ≠ .zombie

/-! ## The scheduler -/

/-- `get_highest_priority`: the highest priority with a ready thread, or `-1`. -/
def getHighestPriority : ℤ :=
  if s.priorityBitmap = 0 then -1 else TwoLevelBitmap.msb s.priorityBitmap

/-- `enqueue`: a thread joins the ready ring of its priority. -/
def enqueue (tcb : Tid) : Nanokernel :=
  let p := s.priority tcb
  let queue := s.links.enqueueTail (s.priorityHeads p) tcb
  { s with
    links := queue.1
    priorityHeads := update s.priorityHeads p queue.2
    priorityBitmap :=
      if s.priorityHeads p = none then s.priorityBitmap ||| 1#32 <<< p else s.priorityBitmap }

/-- `dequeue_head`: the first thread of a ready ring leaves it. -/
def dequeueHead (p : ℕ) : Nanokernel × Option Tid :=
  match s.priorityHeads p with
  | none => (s, none)
  | some tcb =>
    let queue := s.links.dequeue (s.priorityHeads p) tcb
    ({ s with
        links := queue.1
        priorityHeads := update s.priorityHeads p queue.2
        priorityBitmap :=
          if s.links.next tcb = some tcb then s.priorityBitmap &&& ~~~(1#32 <<< p)
          else s.priorityBitmap }, some tcb)

/-- `do_schedule`, and `schedule`: the thread that should run next, or the idle thread. -/
def doSchedule : Nanokernel × Option Tid :=
  if s.priorityBitmap = 0 then (s, none)
  else s.dequeueHead (TwoLevelBitmap.msb s.priorityBitmap)

/-- `deactivate_self`. -/
def deactivateSelf (state : ThreadState) : Nanokernel :=
  { s with threadState := update s.threadState current state }

/-- `deactivate_self_schedule`. -/
def deactivateSelfSchedule (state : ThreadState) : Nanokernel × Option Tid :=
  (s.deactivateSelf current state).doSchedule

variable (dest : Tid)

/-- The part of `activate` and `activate_schedule` that makes a thread runnable. -/
def setRunnable : Nanokernel :=
  { s with threadState := update s.threadState dest .runnable }

/-- `activate`. -/
def activate : Nanokernel := (s.setRunnable dest).enqueue dest

/-- The part of `activate_schedule` that chooses between the current thread and a new one. -/
def chooseNext : Nanokernel × Option Tid :=
  match s.currentTcb with
  | none => (s, some dest)
  | some current =>
    if s.priority current < s.priority dest then (s.enqueue current, some dest)
    else (s.enqueue dest, some current)

/-- `activate_schedule`. -/
def activateSchedule : Nanokernel × Option Tid :=
  (s.setRunnable dest).chooseNext dest

/-- `sys_yield`. -/
def sysYield : Nanokernel :=
  if (s.priority current : ℤ) ≤ s.getHighestPriority then
    let scheduled := (s.enqueue current).doSchedule
    scheduled.1.switchTo scheduled.2
  else
    s.switchTo (some current)

/-! ## Interrupts -/

variable (interrupt : ℕ)

/-- `sys_interrupt_register`. A negative number is an index before the table, and the result is not
defined. -/
def sysInterruptRegister : Nanokernel :=
  if s.numInterrupts ≤ interrupt then s.syscallReturn current 1
  else if s.interruptHandlers interrupt ≠ none then s.syscallReturn current 1
  else if s.registeredInterrupt current ≠ none then s.syscallReturn current 1
  else
    { s with
      interruptHandlers := update s.interruptHandlers interrupt (some current)
      registeredInterrupt :=
        update s.registeredInterrupt current (some interrupt) }.syscallReturn current 0

/-- `sys_interrupt_deregister`. -/
def sysInterruptDeregister : Nanokernel :=
  if s.numInterrupts ≤ interrupt then s.syscallReturn current 1
  else if s.interruptHandlers interrupt ≠ some current then s.syscallReturn current 1
  else
    { s with
      interruptHandlers := update s.interruptHandlers interrupt none
      registeredInterrupt :=
        update s.registeredInterrupt current none }.syscallReturn current 0

/-- `sys_interrupt_wait`. -/
def sysInterruptWait : Nanokernel :=
  match s.registeredInterrupt current with
  | none => s.syscallReturn current ipcError
  | some interrupt =>
    let scheduled := s.deactivateSelfSchedule current .waitInt
    { scheduled.1 with
      unmasked := update scheduled.1.unmasked interrupt true }.switchTo scheduled.2

/-- `sys_interrupt_pre_thread_delete_callback`. -/
def sysInterruptPreThreadDeleteCallback (tcb : Tid) : Nanokernel :=
  match s.registeredInterrupt tcb with
  | none => s
  | some interrupt =>
    { s with
      interruptHandlers := update s.interruptHandlers interrupt none
      registeredInterrupt := update s.registeredInterrupt tcb none }

/-- `c_handle_interrupt`: the handler of an interrupt runs. -/
def handleInterrupt : Nanokernel :=
  match s.interruptHandlers interrupt with
  | none => s
  | some handler =>
    let masked := { s with unmasked := update s.unmasked interrupt false }
    let scheduled :=
      (masked.setSyscallReturnVal handler (BitVec.ofNat 32 interrupt)).activateSchedule handler
    scheduled.1.switchTo scheduled.2

/-! ## Threads -/

/-- The first free TCB leaves the ring of free TCBs, and gets its context frame. The callbacks of
`sys_thread_create` clear the signals, and nothing else. -/
def prepareTcb (newTcb : Tid) (pc sp r0 : BitVec 32) (prio : ℕ) : Nanokernel :=
  let queue := s.links.dequeue s.tcbFreeHead newTcb
  { s with
    links := queue.1
    tcbFreeHead := queue.2
    pc := update s.pc newTcb pc
    sp := update s.sp newTcb sp
    regs := update s.regs newTcb (update (s.regs newTcb) 0 r0)
    priority := update s.priority newTcb prio
    signals := update s.signals newTcb 0
    signalMask := update s.signalMask newTcb 0 }

/-- `sys_thread_create`. -/
def sysThreadCreate (pc sp r0 : BitVec 32) (prio : ℕ) : Nanokernel :=
  if maxPriority < prio then s.syscallReturn current ipcError
  else
    match s.tcbFreeHead with
    | none => s.syscallReturn current ipcError
    | some newTcb =>
      let scheduled := (s.prepareTcb newTcb pc sp r0 prio).activateSchedule newTcb
      (scheduled.1.setSyscallReturnVal current (BitVec.ofNat 32 newTcb)).switchTo scheduled.2

/-- `thread_reap`: a TCB is put in front of the free ones. -/
def threadReap (tcb : Tid) : Nanokernel :=
  { s with
    threadState := update s.threadState tcb .halted
    links := (s.links.enqueueTail s.tcbFreeHead tcb).1
    tcbFreeHead := some tcb }

/-- The part of `sys_thread_exit` that wakes up the thread that joins the current one. -/
def wakeJoiner : Nanokernel :=
  match s.joiner current with
  | none => s
  | some joiner =>
    let woken := (s.threadReap current).activate joiner
    { woken with joiner := update woken.joiner current none }

/-- `sys_thread_exit`. -/
def sysThreadExit : Nanokernel :=
  let deactivated := (s.sysInterruptPreThreadDeleteCallback current).deactivateSelf current .zombie
  let scheduled := (deactivated.wakeJoiner current).doSchedule
  scheduled.1.switchTo scheduled.2

/-- `sys_thread_join`. -/
def sysThreadJoin (threadId : ℕ) : Nanokernel :=
  if s.maxTcbs ≤ threadId then s.syscallReturn current 1
  else if s.threadState threadId = .halted then s.syscallReturn current 1
  else if s.threadState threadId = .zombie then (s.threadReap threadId).syscallReturn current 0
  else if s.joiner threadId ≠ none then s.syscallReturn current 1
  else
    let scheduled := (s.setSyscallReturnVal current 0).deactivateSelfSchedule current .waitJoin
    { scheduled.1 with
      joiner := update scheduled.1.joiner threadId (some current) }.switchTo scheduled.2

/-- `sys_thread_myself`. -/
def sysThreadMyself : Nanokernel :=
  s.syscallReturn current (BitVec.ofNat 32 current)

/-! ## Futexes -/

variable (tag : ℕ)

/-- `hash_tag`. -/
def hashTag : ℕ :=
  let h1 := (tag >>> 2 + tag >>> s.futexHashSlotsLg2 + tag >>> (2 * s.futexHashSlotsLg2)) % 2 ^ 32
  h1 &&& (2 ^ s.futexHashSlotsLg2 - 1)

/-- The loop of `enqueue_futex`: the place in a chain for a thread of priority `prio`, given by the
threads before and behind it. -/
def insertionPoint (s : Nanokernel) (prio : ℕ) : ℕ → Option Tid → Option Tid →
    Option Tid × Option Tid
  | 0, prev, curr => (prev, curr)
  | _ + 1, prev, none => (prev, none)
  | fuel + 1, prev, some curr =>
    if s.priority curr < prio then (prev, some curr)
    else insertionPoint s prio fuel (some curr) (s.links.next curr)

/-- A thread is linked into a chain between two others. -/
def linkFutex (h : ℕ) (prev : Option Tid) (thread : Tid) (curr : Option Tid) : Nanokernel :=
  let next := update s.links.next thread curr
  let futexTail :=
    if curr = none then update s.futexTail h (some thread) else s.futexTail
  match prev with
  | none =>
    { s with
      links := { s.links with next := next }
      futexHead := update s.futexHead h (some thread)
      futexTail := futexTail }
  | some prev =>
    { s with
      links := { s.links with next := update next prev (some thread) }
      futexTail := futexTail }

/-- `enqueue_futex`: threads wait in the order of their priorities. -/
def enqueueFutex (h : ℕ) (thread : Tid) : Nanokernel :=
  let point := s.insertionPoint (s.priority thread) s.maxTcbs none (s.futexHead h)
  s.linkFutex h point.1 thread point.2

/-- `dequeue_futex`. A thread that is not the head has another one before it. -/
def dequeueFutex (h : ℕ) (prev : Option Tid) (thread : Tid) : Nanokernel :=
  let futexTail :=
    if s.futexTail h = some thread then update s.futexTail h prev else s.futexTail
  if s.futexHead h = some thread then
    { s with
      links := { s.links with next := update s.links.next thread none }
      futexHead := update s.futexHead h (s.links.next thread)
      futexTail := futexTail }
  else
    match prev with
    | none => s
    | some prev =>
      { s with
        links :=
          { s.links with
            next := update (update s.links.next prev (s.links.next thread)) thread none }
        futexTail := futexTail }

/-- The loop of `signal_futex`: the first thread of a chain that sleeps on a tag, with the thread
before it. -/
def findSleeper (s : Nanokernel) (tag : ℕ) : ℕ → Option Tid → Option Tid → Option (Option Tid × Tid)
  | 0, _, _ => none
  | _ + 1, _, none => none
  | fuel + 1, previous, some head =>
    if s.futexTag head = tag then some (previous, head)
    else findSleeper s tag fuel (some head) (s.links.next head)

/-- The sleeper that `signal_futex` finds. -/
def sleeper : Option (Option Tid × Tid) :=
  s.findSleeper tag s.maxTcbs none (s.futexHead (s.hashTag tag))

/-- The loop of `sys_futex_wait`: the last pending signal with a tag. -/
def findPending (tags : List ℕ) (tag : ℕ) : ℕ → Option ℕ
  | 0 => none
  | i + 1 => if tags[i]? = some tag then some i else findPending tags tag i

/-- A pending signal is overwritten by the last one. -/
def removePending (tags : List ℕ) (i : ℕ) : List ℕ :=
  (tags.set i (tags.getLastD 0)).dropLast

/-- The part of `sys_futex_wait` that puts the current thread to sleep. -/
def sleepOnFutex : Nanokernel :=
  let scheduled := (s.setSyscallReturnVal current 0).deactivateSelfSchedule current .waitFutex
  let queued := scheduled.1.enqueueFutex (s.hashTag tag) current
  { queued with futexTag := update queued.futexTag current tag }.switchTo scheduled.2

/-- `sys_futex_wait`. -/
def sysFutexWait : Nanokernel :=
  if tag = 0 then s.syscallReturn current 1
  else
    match findPending s.futexPendingTags tag s.futexPendingTags.length with
    | some i =>
      { s with
        futexPendingTags := removePending s.futexPendingTags i }.syscallReturn current 0
    | none => s.sleepOnFutex current tag

/-- `sys_futex_signal`. -/
def sysFutexSignal : Nanokernel :=
  if tag = 0 then s.syscallReturn current 1
  else
    match s.sleeper tag with
    | some (previous, tcb) =>
      let scheduled := (s.dequeueFutex (s.hashTag tag) previous tcb).activateSchedule tcb
      (scheduled.1.setSyscallReturnVal current 0).switchTo scheduled.2
    | none =>
      if s.maxTcbs ≤ s.futexPendingTags.length then s.syscallReturn current 1
      else { s with futexPendingTags := s.futexPendingTags ++ [tag] }.syscallReturn current 0

/-! ## Signals -/

/-- `sys_signal_poll`. -/
def sysSignalPoll (mask : BitVec 32) : Nanokernel :=
  { s with
    signals := update s.signals current (s.signals current &&& ~~~mask) }.syscallReturn
      current (s.signals current &&& mask)

/-- `sys_signal_wait`. -/
def sysSignalWait (mask : BitVec 32) : Nanokernel :=
  if s.signals current &&& mask ≠ 0 then s.sysSignalPoll current mask
  else
    let scheduled := { s with
      signalMask := update s.signalMask current mask }.deactivateSelfSchedule current .waitSignal
    scheduled.1.switchTo scheduled.2

/-- The part of `sys_signal_send` that sets the signals and the return value. -/
def postSignals (current dest : Tid) (signals : BitVec 32) : Nanokernel :=
  { s with
    signals := update s.signals dest (s.signals dest ||| signals) }.setSyscallReturnVal current 0

/-- The part of `sys_signal_send` that hands the signals to a waiting thread. -/
def deliverSignals : Nanokernel × Option Tid :=
  { s.setSyscallReturnVal dest (s.signals dest &&& s.signalMask dest) with
    signals := update s.signals dest
      (s.signals dest &&& ~~~(s.signalMask dest)) }.activateSchedule dest

/-- `sys_signal_send`. -/
def sysSignalSend (threadId : ℕ) (signals : BitVec 32) : Nanokernel :=
  if s.maxTcbs ≤ threadId then s.syscallReturn current 1
  else if ¬ s.isThreadAlive threadId then s.syscallReturn current 1
  else
    let posted := s.postSignals current threadId signals
    if s.threadState threadId = .waitSignal ∧ signals &&& s.signalMask threadId ≠ 0 then
      (posted.deliverSignals threadId).1.switchTo (posted.deliverSignals threadId).2
    else posted.switchTo (some current)

/-! ## IPC -/

/-- `is_ready_to_receive`. -/
def isReadyToReceive (src dest : Tid) : Bool :=
  s.threadState dest = .waitIpcRecv ∧
    (s.ipcWaitingFor dest = some src ∨ s.ipcWaitingFor dest = none)

/-- `copy_message`: the registers `r1` to `r7`. -/
def copyMessage (src dest : Tid) : Nanokernel :=
  { s with
    regs := update s.regs dest fun i =>
      if 1 ≤ i ∧ i ≤ 7 then s.regs src i else s.regs dest i }

/-- `enqueue_send`. -/
def enqueueSend (dest src : Tid) : Nanokernel :=
  let queue := s.links.enqueueTail (s.ipcSendHead dest) src
  { s with
    links := queue.1
    ipcSendHead := update s.ipcSendHead dest queue.2 }

/-- `dequeue_send`. -/
def dequeueSend (dest src : Tid) : Nanokernel :=
  let queue := s.links.dequeue (s.ipcSendHead dest) src
  { s with
    links := queue.1
    ipcSendHead := update s.ipcSendHead dest queue.2 }

/-- The part of `do_send` that hands over the message to a thread that is ready for it. -/
def handOver (current dest : Tid) : Nanokernel :=
  { (s.copyMessage current dest).setSyscallReturnVal dest (BitVec.ofNat 32 current) with
    ipcWaitingFor := update s.ipcWaitingFor dest none }

/-- The part of `do_send` for a destination that is not ready. -/
def blockSender (current dest : Tid) (isCall : Bool) : Nanokernel × Option Tid :=
  { s.enqueueSend dest current with
    ipcWaitingFor := update s.ipcWaitingFor current (some dest) }.deactivateSelfSchedule
      current (if isCall then .waitIpcCall else .waitIpcSend)

/-- The second half of a call whose message was handed over: the caller waits for the reply. -/
def awaitReply (current dest : Tid) : Nanokernel × Option Tid :=
  (({ s with
      ipcWaitingFor := update s.ipcWaitingFor current (some dest) }.activate
        dest).deactivateSelf current .waitIpcRecv).doSchedule

/-- `do_send`. -/
def doSend (current dest : Tid) (isCall isNonBlocking : Bool) : Nanokernel × Option Tid :=
  if s.isReadyToReceive current dest then
    if isCall then (s.handOver current dest).awaitReply current dest
    else ((s.handOver current dest).setSyscallReturnVal current 0).activateSchedule dest
  else if isNonBlocking then (s.setSyscallReturnVal current ipcError, some current)
  else s.blockSender current dest isCall

/-- The entry of `sys_ipc_send` saves the registers with the message. -/
def saveMessage (message : ℕ → BitVec 32) : Nanokernel :=
  { s with
    regs := update s.regs current fun i =>
      if i ≤ 7 then message i else s.regs current i }

/-- `sys_ipc_send_c`. Bit 0 of the operation is set for a send that does not block, bit 1 for a
call. -/
def sysIpcSendC (destThread : ℕ) (operation : BitVec 32) : Nanokernel :=
  if s.maxTcbs ≤ destThread then s.syscallReturn current ipcError
  else if ¬ s.isThreadAlive destThread then s.syscallReturn current ipcError
  else
    let sent := s.doSend current destThread (operation.getLsbD 1) (operation.getLsbD 0)
    sent.1.switchTo sent.2

/-- The part of `sys_ipc_recv` that takes the message of a blocked sender. -/
def receiveFrom (current src : Tid) : Nanokernel :=
  let received := (s.dequeueSend current src).copyMessage src current
  if s.threadState src = .waitIpcCall then
    { received with
      threadState := update received.threadState src .waitIpcRecv }.syscallReturn
        current (BitVec.ofNat 32 src)
  else
    let woken := ({ received with
      ipcWaitingFor := update received.ipcWaitingFor src none }.setSyscallReturnVal
        src 0).setSyscallReturnVal current (BitVec.ofNat 32 src)
    (woken.activateSchedule src).1.switchTo (woken.activateSchedule src).2

/-- `sys_ipc_recv`. The thread that is asked for is checked, and then not used. -/
def sysIpcRecv (srcThread : ℕ) : Nanokernel :=
  if s.maxTcbs ≤ srcThread ∧ srcThread ≠ ipcWaitAny then s.syscallReturn current ipcError
  else
    match s.ipcSendHead current with
    | none =>
      let scheduled := { s with
        ipcWaitingFor := update s.ipcWaitingFor current none }.deactivateSelfSchedule
          current .waitIpcRecv
      scheduled.1.switchTo scheduled.2
    | some src => s.receiveFrom current src

/-! ## Runs of the kernel -/

/-- A system call, with its arguments. -/
inductive Syscall
  | threadMyself
  | threadCreate (pc sp r0 : BitVec 32) (prio : ℕ)
  | threadExit
  | threadJoin (threadId : ℕ)
  | futexWait (tag : ℕ)
  | futexSignal (tag : ℕ)
  | yield
  | interruptRegister (interrupt : ℕ)
  | interruptDeregister (interrupt : ℕ)
  | interruptWait
  | signalPoll (mask : BitVec 32)
  | signalWait (mask : BitVec 32)
  | signalSend (threadId : ℕ) (signals : BitVec 32)
  | ipcSend (message : ℕ → BitVec 32) (destThread : ℕ) (operation : BitVec 32)
  | ipcRecv (srcThread : ℕ)

/-- The system call table. -/
def syscall : Syscall → Nanokernel
  | .threadMyself => s.sysThreadMyself current
  | .threadCreate pc sp r0 prio => s.sysThreadCreate current pc sp r0 prio
  | .threadExit => s.sysThreadExit current
  | .threadJoin threadId => s.sysThreadJoin current threadId
  | .futexWait tag => s.sysFutexWait current tag
  | .futexSignal tag => s.sysFutexSignal current tag
  | .yield => s.sysYield current
  | .interruptRegister interrupt => s.sysInterruptRegister current interrupt
  | .interruptDeregister interrupt => s.sysInterruptDeregister current interrupt
  | .interruptWait => s.sysInterruptWait current
  | .signalPoll mask => s.sysSignalPoll current mask
  | .signalWait mask => s.sysSignalWait current mask
  | .signalSend threadId signals => s.sysSignalSend current threadId signals
  | .ipcSend message destThread operation =>
    (s.saveMessage current message).sysIpcSendC current destThread operation
  | .ipcRecv srcThread => s.sysIpcRecv current srcThread

/-- What can happen next: a system call of the current thread, or an interrupt. -/
inductive Op
  | syscall (call : Syscall)
  | interrupt (number : ℕ)

/-- One entry into the kernel. There are system calls only when a thread runs, and only interrupts
that are not masked. -/
def step : Op → Option Nanokernel
  | .syscall call => s.currentTcb.map fun current => s.syscall current call
  | .interrupt number => if s.unmasked number then some (s.handleInterrupt number) else none

end Nanokernel

/-- A thread of the initial system. -/
structure LiveThread where
  priority : ℕ
  entry : BitVec 32
  sp : BitVec 32
  r0 : BitVec 32

/-- A system image: its threads, of which some are free. (Without a free one, the head of the list
of free TCBs points behind the last TCB.) -/
structure Image where
  maxTcbs : ℕ
  futexHashSlotsLg2 : ℕ
  numInterrupts : ℕ
  live : List LiveThread
  length_lt : live.length < maxTcbs
  priority_le : ∀ thread ∈ live, thread.priority ≤ maxPriority

namespace Image

open Nanokernel

/-- The TCBs before any of them is on a queue. The numbers from `maxTcbs` on are not threads. -/
def blank (image : Image) : Nanokernel where
  maxTcbs := image.maxTcbs
  futexHashSlotsLg2 := image.futexHashSlotsLg2
  numInterrupts := image.numInterrupts
  currentTcb := none
  threadState t := if t < image.live.length then .runnable else .halted
  priority t := (image.live[t]?.map LiveThread.priority).getD 0
  pc t := (image.live[t]?.map LiveThread.entry).getD 0
  sp t := (image.live[t]?.map LiveThread.sp).getD 0
  regs t i := if i = 0 then (image.live[t]?.map LiveThread.r0).getD 0 else 0
  links := .empty
  futexTag _ := 0
  ipcWaitingFor _ := none
  ipcSendHead _ := none
  signals _ := 0
  signalMask _ := 0
  registeredInterrupt _ := none
  joiner _ := none
  priorityBitmap := 0
  priorityHeads _ := none
  tcbFreeHead := none
  futexHead _ := none
  futexTail _ := none
  futexPendingTags := []
  interruptHandlers _ := none
  unmasked _ := false

/-- A spare TCB is put behind the free ones. -/
def addSpare (s : Nanokernel) (tcb : Tid) : Nanokernel :=
  { s with
    links := (s.links.enqueueTail s.tcbFreeHead tcb).1
    tcbFreeHead := (s.links.enqueueTail s.tcbFreeHead tcb).2 }

/-- The initial data, as the image builder writes it (`get_thread_data`): the live threads are on
the ready rings in their order, and the spare ones on the ring of free TCBs. -/
def data (image : Image) : Nanokernel :=
  (List.range' image.live.length (image.maxTcbs - image.live.length)).foldl addSpare
    ((List.range image.live.length).foldl enqueue image.blank)

/-- The first thread is scheduled. -/
def boot (image : Image) : Nanokernel := image.data.doSchedule.1.switchTo image.data.doSchedule.2

end Image

end Okl4Kernel.Nano
