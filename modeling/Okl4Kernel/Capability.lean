import Mathlib.Data.Fintype.Basic
import Mathlib.Data.Finset.Union
import Mathlib.Data.Finset.Card

/-!
# Capabilities and references

Threads are named by capabilities (`cap_t`), which are entries of capability lists, and by the
references (`ref_t`) that the kernel keeps to the pager and the exception handler of a thread and
to the handler of an interrupt. All of them that name one thread are linked into a chain, which
begins with the capability that was made when the thread was created (`master_cap`); the deletion of
the thread walks the chain and clears every element.

`Caps` is the memory behind these pointers: what every capability and reference holds, the `next`
pointers, and the master capability of every thread. A capability or reference is given by the
place where it is stored (`CapAddr`). Threads, capability lists and interrupts are elements of
finite types `τ`, `κ` and `ι`, of which some are in use.
-/

namespace Okl4Kernel

open Function Finset

/-! ## Capability identifiers -/

variable (raw : ℕ)

/-- `get_index` of a `capid_t`. -/
def capIndex : ℕ := raw % 2 ^ 28

/-- `get_type` of a `capid_t`. -/
def capType : ℕ := raw / 2 ^ 28 % 2 ^ 4

/-- `is_cap_type`; zero is `TYPE_CAP`. -/
def isCapType : Bool := capType raw = 0

/-- `is_threadhandle`; eight is `TYPE_THREAD_HANDLE`. -/
def isThreadhandle : Bool := capType raw = 8

/-- `is_anythread`. -/
def isAnythread : Bool := raw = 0xffffffff

/-- `is_waitnotify`. -/
def isWaitnotify : Bool := raw = 0xfffffffe

/-- `is_myself`. -/
def isMyself : Bool := raw = 0xfffffffd

/-- `is_nilthread`. -/
def isNilthread : Bool := raw = 0xfffffffc

/-! ## The memory -/

/-- What a `cap_t` or a `ref_t` holds. -/
inductive CapWord (τ : Type*)
  | invalid
  | thread (t : τ)
  | ipc (t : τ)
  | ref (t : τ)
  deriving DecidableEq

/-- `get_tcb`, for a capability or reference that is valid. -/
def CapWord.tcb {τ : Type*} : CapWord τ → Option τ
  | invalid => none
  | thread t => some t
  | ipc t => some t
  | ref t => some t

/-- The places where capabilities and references are stored. -/
inductive CapAddr (τ κ ι : Type*)
  | entry (clist : κ) (index : ℕ)
  | pager (t : τ)
  | exceptionHandler (t : τ)
  | interrupt (irq : ι)
  deriving DecidableEq

/-- The header of a `clist_t`. -/
structure ClistHeader where
  maxId : ℕ
  numSpaces : ℕ

/-- Capabilities, references, and the threads and capability lists that exist. -/
structure Caps (τ κ ι : Type*) where
  word : CapAddr τ κ ι → CapWord τ
  next : CapAddr τ κ ι → Option (CapAddr τ κ ι)
  masterCap : τ → Option (CapAddr τ κ ι)
  /-- The control block of the thread is allocated. -/
  live : τ → Bool
  clist : κ → Option ClistHeader

namespace Caps

variable {τ κ ι : Type*}

/-- No thread and no capability list exists. -/
def init : Caps τ κ ι where
  word _ := .invalid
  next _ := none
  masterCap _ := none
  live _ := false
  clist _ := none

variable (s : Caps τ κ ι)

/-- `num_entries` of a capability list. -/
def numEntries (c : κ) : ℕ :=
  match s.clist c with
  | none => 0
  | some header => header.maxId + 1

/-- `clist_t::is_valid`. -/
def isValid (c : κ) (tid : ℕ) : Bool := capIndex tid < s.numEntries c

/-- `lookup_thread_cap_locked` and `lookup_thread_cap_unlocked`. -/
def lookupThreadCap (c : κ) (tid : ℕ) : Option τ :=
  if isCapType tid = false ∨ s.isValid c tid = false then none
  else
    match s.word (.entry c (capIndex tid)) with
    | .thread t => some t
    | _ => none

/-- `lookup_ipc_cap_locked`. -/
def lookupIpcCap (c : κ) (tid : ℕ) : Option τ :=
  if isCapType tid = false ∨ s.isValid c tid = false then none
  else
    match s.word (.entry c (capIndex tid)) with
    | .thread t => some t
    | .ipc t => some t
    | _ => none

/-- `acquire_read_lock_tcb`: the thread itself, if its master capability is valid. -/
def acquireReadLockTcb [DecidableEq τ] (s : Caps τ κ ι) (t : τ) : Option τ :=
  match s.masterCap t with
  | none => none
  | some master => if s.word master = .thread t then some t else none

/-- `clist_t::is_empty`. -/
def isEmpty [DecidableEq τ] (s : Caps τ κ ι) (c : κ) : Bool :=
  ∀ i < s.numEntries c, s.word (.entry c i) = .invalid

variable [DecidableEq τ] [DecidableEq κ] [DecidableEq ι] (s : Caps τ κ ι)

/-- Write what a capability or reference holds. -/
def setWord (a : CapAddr τ κ ι) (w : CapWord τ) : Caps τ κ ι :=
  { s with word := update s.word a w }

/-- Write a `next` pointer. -/
def setNext (a : CapAddr τ κ ι) (b : Option (CapAddr τ κ ι)) : Caps τ κ ι :=
  { s with next := update s.next a b }

/-- Write a `master_cap` pointer. -/
def setMasterCap (t : τ) (a : Option (CapAddr τ κ ι)) : Caps τ κ ι :=
  { s with masterCap := update s.masterCap t a }

/-- Allocate the control block of a thread, or free it. -/
def setLive (t : τ) (live : Bool) : Caps τ κ ι :=
  { s with live := update s.live t live }

/-! ## Chains -/

/-- `add_reference` to a chain that has a master capability. -/
def addReferenceBehind (master cap : CapAddr τ κ ι) : Caps τ κ ι :=
  (s.setNext cap (s.next master)).setNext master (some cap)

/-- `add_reference`. -/
def addReference (t : τ) (cap : CapAddr τ κ ι) : Caps τ κ ι :=
  match s.masterCap t with
  | none => s.setMasterCap t (some cap)
  | some master => s.addReferenceBehind master cap

/-- `ref_t::set_referenced`. -/
def setReferenced (ref : CapAddr τ κ ι) (t : τ) : Caps τ κ ι :=
  let s := s.setWord ref (.ref t)
  match s.masterCap t with
  -- The source would write through a null pointer; every thread that is found has a master
  -- capability.
  | none => s
  | some master => s.addReferenceBehind master ref

/-- The search of `remove_reference` for the element before a capability or reference, cut off after
`n` rounds. -/
def findPrev (s : Caps τ κ ι) (cap : CapAddr τ κ ι) :
    ℕ → Option (CapAddr τ κ ι) → Option (CapAddr τ κ ι)
  | 0, _ => none
  | _ + 1, none => none
  | n + 1, some prev => if s.next prev = some cap then some prev else s.findPrev cap n (s.next prev)

/-- The loop of `invalidate_reference`, cut off after `n` rounds. -/
def invalidateLoop : ℕ → Caps τ κ ι → Option (CapAddr τ κ ι) → Caps τ κ ι
  | 0, s, _ => s
  | _ + 1, s, none => s
  | n + 1, s, some temp => invalidateLoop n ((s.setWord temp .invalid).setNext temp none) (s.next temp)

variable [Fintype τ] [Fintype κ] [Fintype ι] (s : Caps τ κ ι)

/-- The capabilities and references that there is memory for. The walks along a chain of the
source have no bound; they are never longer than this (`Placed.length_le`). -/
def addresses : Finset (CapAddr τ κ ι) :=
  (univ.biUnion fun c => (range (s.numEntries c)).image (CapAddr.entry c)) ∪
    (univ.image CapAddr.pager ∪
      (univ.image CapAddr.exceptionHandler ∪ univ.image CapAddr.interrupt))

/-- `remove_reference`. -/
def removeReference (t : τ) (cap : CapAddr τ κ ι) : Caps τ κ ι :=
  match s.findPrev cap s.addresses.card (s.masterCap t) with
  | none => s
  | some prev => ((s.setNext prev (s.next cap)).setWord cap .invalid).setNext cap none

/-- `invalidate_reference`. -/
def invalidateReference (t : τ) : Caps τ κ ι :=
  (invalidateLoop s.addresses.card s (s.masterCap t)).setMasterCap t none

/-- The first half of `set_pager` and `set_exception_handler`: a reference that is set is taken out
of the chain it is in. -/
def clearReference (ref : CapAddr τ κ ι) : Caps τ κ ι :=
  match (s.word ref).tcb with
  | none => s
  | some old => s.removeReference old ref

/-- `set_pager` and `set_exception_handler`. -/
def changeReference (ref : CapAddr τ κ ι) : Option τ → Caps τ κ ι
  | none => s.clearReference ref
  | some t => (s.clearReference ref).setReferenced ref t

/-- `set_pager`. -/
def setPager (t : τ) (pager : Option τ) : Caps τ κ ι :=
  s.changeReference (.pager t) pager

/-- `set_exception_handler`. -/
def setExceptionHandler (t : τ) (handler : Option τ) : Caps τ κ ι :=
  s.changeReference (.exceptionHandler t) handler

/-! ## Capability lists -/

variable (c : κ) (tid : ℕ) (t : τ)

/-- `add_thread_cap`, `none` if it returns false. -/
def addThreadCap : Option (Caps τ κ ι) :=
  let entry := CapAddr.entry c (capIndex tid)
  if s.word entry ≠ .invalid then none else some ((s.setWord entry (.thread t)).addReference t entry)

/-- `add_ipc_cap`, `none` if it returns false. -/
def addIpcCap : Option (Caps τ κ ι) :=
  let entry := CapAddr.entry c (capIndex tid)
  if s.word entry ≠ .invalid then none else some ((s.setWord entry (.ipc t)).addReference t entry)

/-- `remove_thread_cap`, `none` if it returns false. -/
def removeThreadCap : Option (Caps τ κ ι) :=
  match s.word (.entry c (capIndex tid)) with
  | .thread t => some (s.invalidateReference t)
  | _ => none

/-- `remove_ipc_cap`, `none` if it returns false. -/
def removeIpcCap : Option (Caps τ κ ι) :=
  let entry := CapAddr.entry c (capIndex tid)
  match s.word entry with
  | .ipc t => some (s.removeReference t entry)
  | _ => none

/-! ## Threads -/

/-- One half of `set_thread_handlers`: a handler that is given by a capability is looked up and set,
and otherwise there must be none. The result says whether that succeeded. -/
def setThreadHandler (ref : CapAddr τ κ ι) (tid : ℕ) : Caps τ κ ι × Bool :=
  if isCapType tid then
    match s.lookupThreadCap c tid with
    | none => (s, false)
    | some t => (s.changeReference ref (some t), true)
  else (s, isNilthread tid || isAnythread tid)

/-- `set_thread_handlers`. -/
def setThreadHandlers (dest : τ) (pagerTid exceptHandlerTid : ℕ) : Caps τ κ ι × Bool :=
  match s.setThreadHandler c (.pager dest) pagerTid with
  | (s, false) => (s, false)
  | (s, true) => s.setThreadHandler c (.exceptionHandler dest) exceptHandlerTid

/-- `allocate_tcb` and `tcb_t::init`; the memory of a new control block is zero. -/
def initTcb : Caps τ κ ι :=
  let s := (s.setLive t true).setMasterCap t none
  let s := (s.setWord (.pager t) .invalid).setNext (.pager t) none
  (s.setWord (.exceptionHandler t) .invalid).setNext (.exceptionHandler t) none

/-- What `delete_tcb` does here: the references of the thread are given up and its control block is
freed. -/
def deleteTcb : Caps τ κ ι :=
  ((s.setPager t none).setExceptionHandler t none).setLive t false

/-- The first checks of `ThreadControl`. -/
def threadControlIds (dest pager exceptHandler : ℕ) : Bool :=
  !(isMyself dest || isMyself pager || isMyself exceptHandler) && isCapType dest

/-- The creation of a thread by `ThreadControl`. `activated` is the outcome of what follows. -/
def createThread (pagerTid exceptHandlerTid : ℕ) (activated : Bool) : Caps τ κ ι :=
  if (threadControlIds tid pagerTid exceptHandlerTid && s.isValid c tid) = false then s
  else
    let s := s.initTcb t
    match s.addThreadCap c tid t with
    | none => s.deleteTcb t
    | some s =>
      match s.setThreadHandlers c t pagerTid exceptHandlerTid with
      | (s, ok) =>
        if ok && activated then s
        else
          match s.removeThreadCap c tid with
          | none => s
          | some s => s.deleteTcb t

/-- The modification of a thread by `ThreadControl`. -/
def modifyThread (tid pagerTid exceptHandlerTid : ℕ) : Caps τ κ ι :=
  if threadControlIds tid pagerTid exceptHandlerTid then
    match s.lookupThreadCap c tid with
    | none => s
    | some t => (s.setThreadHandlers c t pagerTid exceptHandlerTid).1
  else s

/-- The deletion of a thread by `ThreadControl`; a thread cannot delete itself. -/
def deleteThread (current : Option τ) (tid : ℕ) : Caps τ κ ι :=
  match s.lookupThreadCap c tid with
  | none => s
  | some t =>
    if some t = current then s
    else
      match s.removeThreadCap c tid with
      | none => s
      | some s => s.deleteTcb t

/-! ## Interrupts -/

/-- The handler that `InterruptControl` works on. -/
def interruptHandler (current : τ) (tid : ℕ) : Option τ :=
  if isNilthread tid then s.acquireReadLockTcb current else s.lookupThreadCap c tid

/-- The registration of an interrupt handler by `InterruptControl`. -/
def registerInterrupt (current : τ) (tid : ℕ) (irq : ι) : Caps τ κ ι :=
  match s.interruptHandler c current tid with
  | none => s
  | some t =>
    if (s.word (.interrupt irq)).tcb ≠ none then s else s.setReferenced (.interrupt irq) t

/-- The removal of an interrupt handler by `InterruptControl`. -/
def unregisterInterrupt (current : τ) (tid : ℕ) (irq : ι) : Caps τ κ ι :=
  match s.interruptHandler c current tid with
  | none => s
  | some t =>
    if (s.word (.interrupt irq)).tcb ≠ some t then s else s.removeReference t (.interrupt irq)

/-! ## Capability lists as objects -/

/-- `CapControl` creates a capability list. -/
def createClist (entries : ℕ) : Caps τ κ ι :=
  { s with clist := update s.clist c (some ⟨entries - 1, 0⟩) }

/-- `CapControl` deletes a capability list, if no space uses it and it is empty. -/
def deleteClist (header : ClistHeader) : Caps τ κ ι :=
  if header.numSpaces = 0 ∧ s.isEmpty c then { s with clist := update s.clist c none }
  else s

/-- `add_space` and `remove_space` write the number of spaces that use the list. -/
def setNumSpaces (header : ClistHeader) (n : ℕ) : Caps τ κ ι :=
  { s with clist := update s.clist c (some { header with numSpaces := n }) }

/-- `CapControl` copies a thread capability, as an IPC capability. -/
def copyCap (srcId : ℕ) (target : κ) (targetId : ℕ) : Caps τ κ ι :=
  if s.isValid target targetId then
    match s.lookupThreadCap c srcId with
    | none => s
    | some t => (s.addIpcCap target targetId t).getD s
  else s

/-- `CapControl` deletes an IPC capability. -/
def deleteCap (targetId : ℕ) : Caps τ κ ι :=
  if s.isValid c targetId then (s.removeIpcCap c targetId).getD s else s

/-! ## System calls -/

/-- The operations on capabilities and references. -/
inductive Op (τ κ ι : Type*)
  | createThread (c : κ) (tid : ℕ) (t : τ) (pagerTid exceptHandlerTid : ℕ) (activated : Bool)
  | modifyThread (c : κ) (tid pagerTid exceptHandlerTid : ℕ)
  | deleteThread (c : κ) (current : Option τ) (tid : ℕ)
  | createClist (c : κ) (entries : ℕ)
  | deleteClist (c : κ)
  | addSpace (c : κ)
  | removeSpace (c : κ)
  | copyCap (c : κ) (srcId : ℕ) (target : κ) (targetId : ℕ)
  | deleteCap (c : κ) (targetId : ℕ)
  | registerInterrupt (c : κ) (current : τ) (tid : ℕ) (irq : ι)
  | unregisterInterrupt (c : κ) (current : τ) (tid : ℕ) (irq : ι)

/-- The operations that are a part of `ThreadControl`. -/
def Op.isThread : Op τ κ ι → Bool
  | .createThread .. => true
  | .modifyThread .. => true
  | .deleteThread .. => true
  | _ => false

/-- Perform an operation. A call that fails with an error code is performed, too. The guards are
that memory which is allocated was not in use, that the capability lists exist, and the assertions
of the source. -/
def step : Op τ κ ι → Option (Caps τ κ ι)
  | .createThread c tid t pagerTid exceptHandlerTid activated =>
    if s.live t = false then
      some (s.createThread c tid t pagerTid exceptHandlerTid activated)
    else none
  | .modifyThread c tid pagerTid exceptHandlerTid =>
    some (s.modifyThread c tid pagerTid exceptHandlerTid)
  | .deleteThread c current tid => some (s.deleteThread c current tid)
  | .createClist c entries =>
    if (s.clist c).isNone ∧ 0 < entries then some (s.createClist c entries) else none
  | .deleteClist c => (s.clist c).map fun header => s.deleteClist c header
  | .addSpace c => (s.clist c).map fun header => s.setNumSpaces c header (header.numSpaces + 1)
  | .removeSpace c => (s.clist c).map fun header => s.setNumSpaces c header (header.numSpaces - 1)
  | .copyCap c srcId target targetId => some (s.copyCap c srcId target targetId)
  | .deleteCap c targetId => some (s.deleteCap c targetId)
  | .registerInterrupt c current tid irq => some (s.registerInterrupt c current tid irq)
  | .unregisterInterrupt c current tid irq => some (s.unregisterInterrupt c current tid irq)

end Caps

end Okl4Kernel
