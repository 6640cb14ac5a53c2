import Okl4Kernel.InitScript.Encode

/-!
# What elfweaver writes into the init script

`create_ops` goes through the cells of the image, with their spaces, threads, mutexes and mappings,
and adds an operation for each of them; the capabilities come last. It encodes an operation when it
is added, to know its size, and stores the byte offset of the operation that creates a capability
list, a thread or a mutex in the object. A capability refers to these offsets.

The calls of `add_op` do not depend on the offsets. They are listed first (`phaseOne`,
`bodyCalls`), with the objects themselves as references, and are then added one after the other
(`addOp`).

The configuration is as it is after the layout of the image (`layout_cells_post`), which has assigned
the heaps of the cells and the control blocks of the threads.
-/

namespace Okl4Kernel.InitScript

open Weaver Fallible

/-- The objects that have an offset in the script. -/
inductive Obj
  | clist (cell : ℕ)
  | thread (key : ℕ)
  | mutex (key : ℕ)
  deriving DecidableEq

/-- A UTCB area. Its size is a positive number of pages. -/
structure UtcbArea where
  virtAddr : Option ℤ
  size : ℕ
  size_pos : 0 < size

/-- `Kernel.Cell.Space.Thread`. -/
structure Thread where
  key : ℕ
  create : Bool
  capSlot : ℤ
  priority : ℤ
  entry : ℤ
  stackVirtAddr : Option ℤ
  stackSize : ℤ
  /-- `thread.utcb.virt_addr`. -/
  utcbAddr : Option ℤ

/-- `get_sp`. -/
def Thread.getSp (t : Thread) : ℤ := t.stackVirtAddr.getD 0 + (t.stackSize - 4)

/-- `Kernel.Cell.Space.Mutex`. -/
structure Mutex where
  key : ℕ
  create : Bool
  id : ℤ

/-- An element of `space.mappings`. -/
structure Mapping where
  num : ℤ
  physAddr : Option ℤ
  virtAddr : Option ℤ
  size : Option ℤ
  attach : ℤ
  cachePolicy : ℤ
  needMapping : Bool

/-- `Kernel.Cell.Space.Cap`. Its capability list is that of the cell of its space. -/
structure Cap where
  capSlot : ℤ
  obj : ℕ

/-- `Kernel.Cell.Space`. -/
structure Space where
  create : Bool
  id : ℤ
  spaceIdBase : ℤ
  maxSpaces : ℤ
  clistIdBase : ℤ
  maxClists : ℤ
  mutexIdBase : ℤ
  maxMutexes : ℤ
  maxPhysSegs : ℤ
  utcb : Option UtcbArea
  isPrivileged : Bool
  platControl : Bool
  irqs : List ℤ
  threads : List Thread
  mutexes : List Mutex
  mappings : List Mapping
  ipcCaps : List Cap
  mutexCaps : List Cap

/-- `get_static_threads`. -/
def Space.getStaticThreads (s : Space) : List Thread := s.threads.filter (·.create)

/-- `get_static_mutexes`. -/
def Space.getStaticMutexes (s : Space) : List Mutex := s.mutexes.filter (·.create)

/-- The objects of a space. -/
def Space.objects (s : Space) : List Obj :=
  s.threads.map (fun t => .thread t.key) ++ s.mutexes.map fun x => .mutex x.key

/-- `Kernel.Cell`. -/
structure Cell where
  key : ℕ
  heapPhysBase : ℤ
  heapSize : ℤ
  clistId : ℤ
  maxCaps : ℤ
  /-- The address of the environment. -/
  env : Option ℤ
  spaces : List Space

/-- `get_static_spaces`. -/
def Cell.getStaticSpaces (c : Cell) : List Space := c.spaces.filter (·.create)

/-- `get_mr1`. -/
def Cell.getMr1 (c : Cell) : ℤ := c.env.getD 0xfee1dead

/-- The objects of a cell. -/
def Cell.objects (c : Cell) : List Obj :=
  .clist c.key :: c.spaces.flatMap Space.objects

/-- `Kernel`. Every object has been registered once. -/
structure Kernel where
  cells : List Cell
  totalSpaces : ℤ
  totalClists : ℤ
  totalMutexes : ℤ
  threadArrayBase : ℤ
  threadArrayCount : ℤ
  distinct : (cells.flatMap Cell.objects).Nodup

/-- A call of `add_op`, and the object in which the offset that it returns is stored. -/
structure Call where
  op : Op Obj
  target : Option Obj

/-- A call whose result is not used. -/
def Call.plain (op : Op Obj) : Call := ⟨op, none⟩

section Calls

variable {MemType : Type} (m : Machine MemType)

/-- `MAX_PRIORITY`. -/
def maxPriority : ℤ := 255

/-- The base and the logarithm of the size of the UTCB area of a space. -/
def Space.utcbFields (s : Space) : ℤ × ℤ :=
  match s.utcb with
  | none => (0xdeadbeef, 0x11)
  | some u =>
    match u.virtAddr with
    | none => (0, 0)
    | some base => (base, Nat.log2 u.size)

/-- The calls for a mapping. -/
def Mapping.calls (x : Mapping) : List Call :=
  let mapPgSz := m.minPageSize
  let physAddr := alignDown (x.physAddr.getD 0) mapPgSz
  let virtAddr := alignDown (x.virtAddr.getD 0) mapPgSz
  let alignmentDiff : ℤ := match x.physAddr with
    | some addr => addr - physAddr
    | none => 0
  let size : ℤ := match x.size with
    | some size => alignUp (size + alignmentDiff) mapPgSz
    | none => 0
  let numPages := size / mapPgSz
  (if x.physAddr.isSome then
    [.plain (.createSegment ⟨x.num, physAddr, 0xff, size, x.attach⟩)] else []) ++
  (if x.needMapping then
    [.plain (.mapMemory ⟨x.num, 0, x.attach, Nat.log2 mapPgSz, numPages, x.cachePolicy, virtAddr⟩)]
    else [])

/-- The call for a thread. It is given the base of the UTCB area of the space. -/
def Thread.call (c : Cell) (s : Space) (t : Thread) : Call :=
  ⟨.createThread ⟨t.capSlot, t.priority, t.entry, t.getSp, s.utcbFields.1, c.getMr1⟩,
    some (.thread t.key)⟩

/-- The calls for a space. -/
def Space.calls (c : Cell) (s : Space) : List Call :=
  .plain (.createSpace
    { id := s.id
      spaceBase := s.spaceIdBase
      spaceNum := s.maxSpaces
      clistBase := s.clistIdBase
      clistNum := s.maxClists
      mutexBase := s.mutexIdBase
      mutexNum := s.maxMutexes
      maxPhysSeg := s.maxPhysSegs
      utcbBase := s.utcbFields.1
      utcbLog2Size := s.utcbFields.2
      hasKresources := s.isPrivileged
      maxPriority := maxPriority }) ::
  (if s.platControl then [.plain .allowPlatformControl] else []) ++
  s.irqs.map (fun irq => .plain (.assignIrq irq)) ++
  s.getStaticThreads.map (Thread.call c s) ++
  s.getStaticMutexes.map (fun x => ⟨.createMutex x.id, some (.mutex x.key)⟩) ++
  s.mappings.flatMap (Mapping.calls m)

/-- The call for the heap of a cell. -/
def Cell.heapCall (c : Cell) : Call := .plain (.createHeap c.heapPhysBase c.heapSize)

/-- The calls for a cell, without its heap. -/
def Cell.calls (c : Cell) : List Call :=
  ⟨.createClist c.clistId c.maxCaps, some (.clist c.key)⟩ ::
    c.getStaticSpaces.flatMap (Space.calls m c)

/-- The calls for the capabilities of a cell. -/
def Cell.capCalls (c : Cell) : List Call :=
  c.getStaticSpaces.flatMap fun s =>
    s.ipcCaps.map (fun cap => .plain (.createIpcCap (.clist c.key) cap.capSlot (.thread cap.obj))) ++
    s.mutexCaps.map fun cap =>
      .plain (.createMutexCap (.clist c.key) cap.capSlot (.mutex cap.obj))

/-- The calls of the first phase, where `first` is the first cell. -/
def Kernel.phaseOne (k : Kernel) (first : Cell) : List Call :=
  [first.heapCall,
    .plain (.initIds (max k.totalSpaces 1) (max k.totalClists 1) (max k.totalMutexes 1)),
    .plain (.createThreadHandles k.threadArrayBase k.threadArrayCount)]

/-- The calls of the second phase for the cells. The heap of the first cell is there already. -/
def bodyCalls (first : Cell) (rest : List Cell) : List Call :=
  first.calls m ++ rest.flatMap fun c => c.heapCall :: c.calls m

end Calls

/-- `op_list`, with the end of phase of every operation, and the offsets. -/
structure Script where
  opList : List (Op ℤ × Bool)
  offset : ℕ
  offsetOf : Obj → Option ℕ

/-- The offset of an object, as an argument of `add_op`. An object without an offset has `None`,
which `struct.pack` refuses; but the offset of a mutex is zero at first, and an offset of a
capability list that is `None` is replaced by zero. -/
def offsetArg (offsetOf : Obj → Option ℕ) (o : Obj) : Except EncodeError ℤ :=
  match o, offsetOf o with
  | _, some offset => .ok offset
  | .thread _, none => .error .structError
  | .clist _, none => .ok 0
  | .mutex _, none => .ok 0

/-- `add_op`, and the assignment of the offset that it returns. -/
def addOp (pageShift : ℕ) (s : Script) (c : Call) : Except EncodeError Script := do
  let op ← c.op.mapM (offsetArg s.offsetOf)
  let words ← op.encode pageShift false
  .ok { opList := s.opList ++ [(op, false)]
        offset := s.offset + 4 * words.length
        offsetOf := match c.target with
          | some o => Function.update s.offsetOf o (some s.offset)
          | none => s.offsetOf }

/-- `set_eop` of the last operation. -/
def setEop {α : Type} : List (α × Bool) → List (α × Bool)
  | [] => []
  | [x] => [(x.1, true)]
  | x :: y :: l => x :: setEop (y :: l)

/-- The script with its header of two words. -/
def Script.start : Script := ⟨[], 8, fun _ => none⟩

/-- `create_ops`: the values that have been passed to `add_op`, and the words of the script. -/
def createOps {MemType : Type} (m : Machine MemType) (k : Kernel) :
    Except EncodeError (List (Op ℤ) × List ℕ) :=
  match k.cells with
  | [] => .error .indexError
  | first :: rest => do
    let pageShift := Nat.log2 m.minPageSize
    let s ← (k.phaseOne first).foldlM (addOp pageShift) .start
    let s ← (bodyCalls m first rest ++ k.cells.flatMap Cell.capCalls).foldlM (addOp pageShift)
      { s with opList := setEop s.opList }
    let opList := setEop s.opList
    let words ← opList.mapM fun x => x.1.encode pageShift x.2
    .ok (opList.map (·.1), magicNumber :: structureVersion :: words.flatten)

end Okl4Kernel.InitScript
