import Okl4Kernel.InitScript.Encode

/-!
# How the kernel runs the init script

`run_init_script` goes through the words of the script. It takes the words of an operation apart
with the bit fields of `ki_create_heap_t` and so on, performs the operation, and goes on to the next
one, until it has performed the last operation of a phase. There are two phases.

An operation uses the heap, capability list or space of the last operation that has created one.
When a capability list, a thread or a mutex has been created, a pointer to it is written over the
header of the operation (`ki_set_ptr`); a later operation refers to the object by the byte offset of
this header (`ki_get_ptr`).

Creating an object is left to the rest of the kernel. The object that the operation at the word `i`
of the script creates is called `i` here, and `ptr i` is its address.
-/

namespace Okl4Kernel.InitScript

open BitField

/-- `KiOp` of a number. -/
def KiOp.ofCode : ℕ → Option KiOp
  | 1 => some .createHeap
  | 2 => some .initIds
  | 3 => some .createThreadHandles
  | 4 => some .createClist
  | 5 => some .createSpace
  | 6 => some .createThread
  | 7 => some .createMutex
  | 8 => some .createSegment
  | 9 => some .mapMemory
  | 10 => some .createIpcCap
  | 11 => some .createMutexCap
  | 12 => some .assignIrq
  | 13 => some .allowPlatformControl
  | _ => none

/-- `ki_hdr_t`. -/
structure Hdr where
  size : ℕ
  op : ℕ
  endOfPhase : Bool

/-- The header in a word. -/
def Hdr.ofWord (w : ℕ) : Hdr :=
  { size := field 0 16 w, op := field 16 15 w, endOfPhase := field 31 1 w = 1 }

/-- The arguments of an operation, in the words that follow its header, in the units that the kernel
uses. -/
def decodeArgs (words : List ℕ) : KiOp → Op ℤ
  | .createHeap =>
    .createHeap (field 12 20 (words.getD 0 0) * 2 ^ 12) (field 0 12 (words.getD 0 0) * (1024 * 4))
  | .initIds =>
    .initIds (field 0 16 (words.getD 0 0)) (field 16 16 (words.getD 0 0)) (words.getD 1 0)
  | .createThreadHandles =>
    .createThreadHandles (field 10 22 (words.getD 0 0) * 2 ^ 10) (field 0 10 (words.getD 0 0) * 4)
  | .createClist =>
    .createClist (field 0 16 (words.getD 0 0)) (field 16 16 (words.getD 0 0))
  | .createSpace =>
    .createSpace
      { id := words.getD 0 0
        spaceBase := field 0 16 (words.getD 1 0)
        spaceNum := field 16 16 (words.getD 1 0)
        clistBase := field 0 16 (words.getD 2 0)
        clistNum := field 16 16 (words.getD 2 0)
        mutexBase := field 0 16 (words.getD 3 0)
        mutexNum := field 16 16 (words.getD 3 0)
        utcbLog2Size := field 0 10 (words.getD 4 0)
        utcbBase := field 10 22 (words.getD 4 0) * 2 ^ 10
        maxPhysSeg := field 0 16 (words.getD 5 0)
        hasKresources := field 16 1 (words.getD 5 0) = 1
        maxPriority := field 17 15 (words.getD 5 0) }
  | .createThread =>
    .createThread
      { capSlot := field 0 16 (words.getD 0 0)
        prio := field 16 16 (words.getD 0 0)
        ip := words.getD 1 0
        sp := words.getD 2 0
        utcbAddr := words.getD 3 0
        mr1 := words.getD 4 0 }
  | .createMutex => .createMutex (words.getD 0 0)
  | .createSegment =>
    .createSegment
      { segNum := words.getD 0 0
        attr := field 0 8 (words.getD 1 0)
        -- `hw_pgshifts[pgent_t::size_min]` is 12.
        physAddr := field 8 24 (words.getD 1 0) * 2 ^ 12
        rwx := field 0 4 (words.getD 2 0)
        size := field 10 22 (words.getD 2 0) * 2 ^ 12 }
  | .mapMemory =>
    .mapMemory
      { segNum := field 0 10 (words.getD 0 0)
        segOffset := field 10 22 (words.getD 0 0) * 2 ^ 10
        rwx := field 0 3 (words.getD 1 0)
        pageSizeLog2 := field 4 6 (words.getD 1 0)
        numPages := field 10 22 (words.getD 1 0)
        attr := field 0 8 (words.getD 2 0)
        virt := field 10 22 (words.getD 2 0) * 2 ^ 10 }
  | .createIpcCap =>
    .createIpcCap (field 0 16 (words.getD 0 0)) (field 16 16 (words.getD 0 0)) (words.getD 1 0)
  | .createMutexCap =>
    .createMutexCap (field 0 16 (words.getD 0 0)) (field 16 16 (words.getD 0 0)) (words.getD 1 0)
  | .assignIrq => .assignIrq (words.getD 0 0)
  | .allowPlatformControl => .allowPlatformControl

/-- The operation whose header is the first of the words. The kernel panics at an operation that it
does not know. -/
def decodeOp : List ℕ → Option (Hdr × Op ℤ)
  | [] => none
  | w :: words => (KiOp.ofCode (Hdr.ofWord w).op).map fun kind =>
      (Hdr.ofWord w, decodeArgs words kind)

/-- The implicit arguments of the operations. -/
structure Scope where
  /-- The word at which the current operation starts. -/
  cur : ℕ
  /-- The heap of the kernel space. -/
  kernelHeap : Option ℕ
  heap : Option ℕ
  clist : Option ℕ
  space : Option ℕ
  deriving DecidableEq

variable (s : Scope)

/-- The assertions that the operations make on their implicit arguments. The kernel also stops at a
capability to a mutex, which is not implemented. -/
def Scope.Allows : KiOp → Prop
  | .createHeap => True
  | .initIds => True
  | .createThreadHandles => True
  | .createClist => s.heap.isSome
  | .createSpace => s.clist.isSome
  | .createThread => s.space.isSome
  | .createMutex => s.space.isSome
  | .createSegment => s.space.isSome
  | .mapMemory => s.space.isSome
  | .createIpcCap => True
  | .createMutexCap => False
  | .assignIrq => s.space.isSome
  | .allowPlatformControl => s.space.isSome

instance (s : Scope) (kind : KiOp) : Decidable (s.Allows kind) := by
  cases kind <;> unfold Scope.Allows <;> infer_instance

/-- Heaps, capability lists and spaces become the implicit arguments of later operations. -/
def Scope.enter : KiOp → Scope
  | .createHeap => { s with heap := some s.cur, kernelHeap := s.kernelHeap <|> some s.cur }
  | .createClist => { s with clist := some s.cur }
  | .createSpace => { s with space := some s.cur }
  | _ => s

/-- Go on to the next operation. The second phase starts with the heap of the kernel space, and
without a capability list and a space. -/
def Scope.advance (size : ℕ) (endOfPhase : Bool) : Scope :=
  if endOfPhase then ⟨s.cur + size, s.kernelHeap, s.kernelHeap, none, none⟩
  else { s with cur := s.cur + size }

/-- The operations that write a pointer to their object over their header. -/
def KiOp.setsPtr : KiOp → Bool
  | .createClist => true
  | .createThread => true
  | .createMutex => true
  | _ => false

/-- The state of `run_init_script`: the words of the script, and the implicit arguments. -/
structure Boot where
  mem : List ℕ
  scope : Scope

/-- `ki_get_ptr`. An address that is not a multiple of the size of a word cannot be read. -/
def Boot.getPtr (b : Boot) (ref : ℤ) : Option ℕ :=
  if ref % 4 = 0 then b.mem[(ref / 4).toNat]? else none

/-- What the kernel has done: the operation, with the objects to which it refers, the object that it
has created, and the implicit arguments. -/
structure Event where
  op : Op ℕ
  self : ℕ
  heap : Option ℕ
  clist : Option ℕ
  space : Option ℕ
  deriving DecidableEq

/-- The event of an operation. -/
def Scope.event (op : Op ℕ) : Event := ⟨op, s.cur, s.heap, s.clist, s.space⟩

/-- Perform an operation with its header, and go on to the next one. -/
def Boot.perform (ptr : ℕ → ℕ) (b : Boot) (hdr : Hdr) (op : Op ℤ) : Option (Event × Boot) :=
  if b.scope.Allows op.kind then do
    let done ← op.mapM b.getPtr
    -- `ki_set_ptr`
    let mem := if op.kind.setsPtr then b.mem.set b.scope.cur (ptr b.scope.cur) else b.mem
    some (b.scope.event done, ⟨mem, (b.scope.enter op.kind).advance hdr.size hdr.endOfPhase⟩)
  else none

/-- How many more phases follow after an operation, unless it is the last one. -/
def phasesLeft (endOfPhase : Bool) (phases : ℕ) : Option ℕ :=
  if endOfPhase then
    match phases with
    | 0 => none
    | phases + 1 => some phases
  else some phases

/-- The loop of `run_init_script`, where `phases` more phases follow. -/
def Boot.run (ptr : ℕ → ℕ) : (fuel phases : ℕ) → Boot → List Event
  | 0, _, _ => []
  | fuel + 1, phases, b =>
    match decodeOp (b.mem.drop b.scope.cur) with
    | none => []
    | some (hdr, op) =>
      match b.perform ptr hdr op with
      | none => []
      | some (e, b') =>
        match phasesLeft hdr.endOfPhase phases with
        | none => [e]
        | some phases => e :: run ptr fuel phases b'

/-- What the kernel does with an init script. Every operation has a word, so that there are not more
operations than words. -/
def runInitScript (ptr : ℕ → ℕ) (script : List ℕ) : List Event :=
  if script[0]? = some magicNumber ∧ script[1]? = some structureVersion then
    Boot.run ptr script.length 1 ⟨script, ⟨2, none, none, none, none⟩⟩
  else []

end Okl4Kernel.InitScript
