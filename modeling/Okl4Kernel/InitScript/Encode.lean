import Okl4Kernel.Lib.BitField
import Okl4Kernel.Weaver.Allocator

/-!
# The operations of the init script, and how elfweaver encodes them

When the kernel starts, it creates the heaps, spaces, threads and so on that the image needs. What
it has to do is written by elfweaver into the init script: a header, and a sequence of operations
with their arguments packed into words. This is the encoder, which is written in Python: its
integers have any size, and `struct.pack` raises an exception for an integer that is not a word.

An operation is parametrised by the type of its references to other operations: objects of the
configuration before the script is laid out, byte offsets in the script, and objects of the kernel
when the script is run.
-/

namespace Okl4Kernel.InitScript

open BitField Weaver

/-- The arguments of `InitScriptCreateSpace`. -/
@[ext] structure SpaceArgs where
  id : ℤ
  spaceBase : ℤ
  spaceNum : ℤ
  clistBase : ℤ
  clistNum : ℤ
  mutexBase : ℤ
  mutexNum : ℤ
  maxPhysSeg : ℤ
  utcbBase : ℤ
  utcbLog2Size : ℤ
  hasKresources : Bool
  maxPriority : ℤ
  deriving DecidableEq

/-- The arguments of `InitScriptCreateThread`. -/
@[ext] structure ThreadArgs where
  capSlot : ℤ
  prio : ℤ
  ip : ℤ
  sp : ℤ
  utcbAddr : ℤ
  mr1 : ℤ
  deriving DecidableEq

/-- The arguments of `InitScriptCreateSegment`. -/
@[ext] structure SegmentArgs where
  segNum : ℤ
  physAddr : ℤ
  attr : ℤ
  size : ℤ
  rwx : ℤ
  deriving DecidableEq

/-- The arguments of `InitScriptMapMemory`. -/
@[ext] structure MapArgs where
  segNum : ℤ
  segOffset : ℤ
  rwx : ℤ
  pageSizeLog2 : ℤ
  numPages : ℤ
  attr : ℤ
  virt : ℤ
  deriving DecidableEq

/-- The operations of an init script, with references of type `R`. -/
inductive Op (R : Type)
  | createHeap (base size : ℤ)
  | initIds (spaces clists mutexes : ℤ)
  | createThreadHandles (phys size : ℤ)
  | createClist (id maxCaps : ℤ)
  | createSpace (args : SpaceArgs)
  | createThread (args : ThreadArgs)
  | createMutex (id : ℤ)
  | createSegment (args : SegmentArgs)
  | mapMemory (args : MapArgs)
  | createIpcCap (clistRef : R) (capSlot : ℤ) (threadRef : R)
  | createMutexCap (clistRef : R) (capSlot : ℤ) (mutexRef : R)
  | assignIrq (irq : ℤ)
  | allowPlatformControl
  deriving DecidableEq

/-- Replace the references of an operation. -/
def Op.mapM {m : Type → Type} [Monad m] {R S : Type} (f : R → m S) : Op R → m (Op S)
  | .createHeap base size => pure (.createHeap base size)
  | .initIds spaces clists mutexes => pure (.initIds spaces clists mutexes)
  | .createThreadHandles phys size => pure (.createThreadHandles phys size)
  | .createClist id maxCaps => pure (.createClist id maxCaps)
  | .createSpace args => pure (.createSpace args)
  | .createThread args => pure (.createThread args)
  | .createMutex id => pure (.createMutex id)
  | .createSegment args => pure (.createSegment args)
  | .mapMemory args => pure (.mapMemory args)
  | .createIpcCap clistRef capSlot threadRef => do
    let thread ← f threadRef
    let clist ← f clistRef
    pure (.createIpcCap clist capSlot thread)
  | .createMutexCap clistRef capSlot mutexRef => do
    let mutex ← f mutexRef
    let clist ← f clistRef
    pure (.createMutexCap clist capSlot mutex)
  | .assignIrq irq => pure (.assignIrq irq)
  | .allowPlatformControl => pure .allowPlatformControl

/-- Replace the references of an operation by a function. -/
def Op.map {R S : Type} (f : R → S) (op : Op R) : Op S := Id.run (op.mapM (pure ∘ f))

/-- The kinds of operations, `ki_op_t`. -/
inductive KiOp
  | createHeap
  | initIds
  | createThreadHandles
  | createClist
  | createSpace
  | createThread
  | createMutex
  | createSegment
  | mapMemory
  | createIpcCap
  | createMutexCap
  | assignIrq
  | allowPlatformControl
  deriving DecidableEq

/-- The number of a kind of operations. -/
def KiOp.code : KiOp → ℕ
  | .createHeap => 1
  | .initIds => 2
  | .createThreadHandles => 3
  | .createClist => 4
  | .createSpace => 5
  | .createThread => 6
  | .createMutex => 7
  | .createSegment => 8
  | .mapMemory => 9
  | .createIpcCap => 10
  | .createMutexCap => 11
  | .assignIrq => 12
  | .allowPlatformControl => 13

/-- The number of words of an operation, with its header. -/
def KiOp.size : KiOp → ℕ
  | .createHeap => 2
  | .initIds => 3
  | .createThreadHandles => 2
  | .createClist => 2
  | .createSpace => 7
  | .createThread => 6
  | .createMutex => 2
  | .createSegment => 4
  | .mapMemory => 4
  | .createIpcCap => 3
  | .createMutexCap => 3
  | .assignIrq => 2
  | .allowPlatformControl => 1

/-- The kind of an operation. -/
def Op.kind {R : Type} : Op R → KiOp
  | .createHeap _ _ => .createHeap
  | .initIds _ _ _ => .initIds
  | .createThreadHandles _ _ => .createThreadHandles
  | .createClist _ _ => .createClist
  | .createSpace _ => .createSpace
  | .createThread _ => .createThread
  | .createMutex _ => .createMutex
  | .createSegment _ => .createSegment
  | .mapMemory _ => .mapMemory
  | .createIpcCap _ _ _ => .createIpcCap
  | .createMutexCap _ _ _ => .createMutexCap
  | .assignIrq _ => .assignIrq
  | .allowPlatformControl => .allowPlatformControl

/-- What the encoder raises. -/
inductive EncodeError
  | bitfieldTooLarge (value : ℤ)
  | sizeTooLarge (size : ℤ)
  | structError
  | indexError
  deriving DecidableEq

/-- `INITSCRIPT_MAGIC_NUMBER`. -/
def magicNumber : ℕ := 0x06150128

/-- `INITSCRIPT_STRUCTURE_VERSION`. -/
def structureVersion : ℕ := 1

/-- `encode_word`. -/
def encodeWord (word : ℤ) : Except EncodeError ℕ :=
  if Holds 32 word then .ok word.toNat else .error .structError

/-- `encode_bitfield2_halfwords`. -/
def encodeBitfield2Halfwords (a b : ℤ) : Except EncodeError ℕ :=
  if a > shl 1 16 then .error (.bitfieldTooLarge a)
  else if b > shl 1 16 then .error (.bitfieldTooLarge b)
  else encodeWord (Int.lor (shl b 16) a)

/-- `encode_base_and_size`. -/
def encodeBaseAndSize (phys size : ℤ) (shift : ℕ) : Except EncodeError ℕ :=
  if size > shl 1 shift then .error (.sizeTooLarge size)
  else
    let mask := shl 1 shift - 1
    let maskedPhys := Int.land phys (Int.lnot mask)
    let maskedSize := Int.land size mask
    encodeWord (Int.lor maskedPhys maskedSize)

/-- `encode_hdr`. -/
def encodeHdr (op : KiOp) (size : ℤ) (endOfPhase : Bool) : Except EncodeError ℕ :=
  encodeWord (Int.lor (Int.lor (shl endOfPhase.toNat 31) (shl op.code 16)) (size + 1))

variable (pageShift : ℕ)

/-- The words of an operation, each of which may be refused. -/
def Op.words (eop : Bool) : Op ℤ → List (Except EncodeError ℕ)
  | .createHeap base size =>
    [encodeHdr .createHeap 1 eop, encodeBaseAndSize base (shr (alignUp size 0x1000) 12) 12]
  | .initIds spaces clists mutexes =>
    [encodeHdr .initIds 2 eop, encodeBitfield2Halfwords spaces clists, encodeWord mutexes]
  | .createThreadHandles phys size =>
    [encodeHdr .createThreadHandles 1 eop, encodeBaseAndSize phys (alignUp size 4 / 4) 10]
  | .createClist id maxCaps =>
    [encodeHdr .createClist 1 eop, encodeBitfield2Halfwords id maxCaps]
  | .createSpace a =>
    [encodeHdr .createSpace 6 eop, encodeWord a.id, encodeBitfield2Halfwords a.spaceBase a.spaceNum,
      encodeBitfield2Halfwords a.clistBase a.clistNum,
      encodeBitfield2Halfwords a.mutexBase a.mutexNum,
      encodeBaseAndSize a.utcbBase a.utcbLog2Size 10,
      encodeWord (Int.lor (Int.lor (shl a.maxPriority (16 + 1)) (shl a.hasKresources.toNat 16))
        a.maxPhysSeg)]
  | .createThread a =>
    [encodeHdr .createThread 5 eop, encodeBitfield2Halfwords a.capSlot a.prio, encodeWord a.ip,
      encodeWord a.sp, encodeWord a.utcbAddr, encodeWord a.mr1]
  | .createMutex id =>
    [encodeHdr .createMutex 1 eop, encodeWord id]
  | .createSegment a =>
    [encodeHdr .createSegment 3 eop, encodeWord a.segNum,
      encodeWord (Int.lor (shl (shr a.physAddr pageShift) 8) a.attr),
      encodeWord (Int.lor (shl (shr a.size pageShift) 10) a.rwx)]
  | .mapMemory a =>
    [encodeHdr .mapMemory 3 eop, encodeBaseAndSize a.segOffset a.segNum 10,
      encodeWord (Int.lor (Int.lor (Int.lor (shl a.numPages 10) (shl a.pageSizeLog2 4)) (shl 0 3))
        a.rwx),
      encodeWord (Int.lor (Int.lor (shl (shr a.virt 10) 10) (shl 0 8)) a.attr)]
  | .createIpcCap clistRef capSlot threadRef =>
    [encodeHdr .createIpcCap 2 eop, encodeBitfield2Halfwords clistRef capSlot, encodeWord threadRef]
  | .createMutexCap clistRef capSlot mutexRef =>
    [encodeHdr .createMutexCap 2 eop, encodeBitfield2Halfwords clistRef capSlot,
      encodeWord mutexRef]
  | .assignIrq irq => [encodeHdr .assignIrq 1 eop, encodeWord irq]
  | .allowPlatformControl => [encodeHdr .allowPlatformControl 0 eop]

/-- `encode` of an operation. -/
def Op.encode (eop : Bool) (op : Op ℤ) : Except EncodeError (List ℕ) :=
  (op.words pageShift eop).mapM id

/-- The values of an operation fit the fields into which they are encoded: every one is within the
range of its field, and those that are stored in larger units are multiples of these. The kernel
takes the pages of segments to have `2 ^ 12` bytes. -/
def Op.Fits : Op ℤ → Prop
  | .createHeap base size =>
    Holds 32 base ∧ base % 0x1000 = 0 ∧ Holds 12 (alignUp size 0x1000 / 0x1000)
  | .initIds spaces clists mutexes => Holds 16 spaces ∧ Holds 16 clists ∧ Holds 32 mutexes
  | .createThreadHandles phys size =>
    Holds 32 phys ∧ phys % 0x400 = 0 ∧ Holds 10 (alignUp size 4 / 4)
  | .createClist id maxCaps => Holds 16 id ∧ Holds 16 maxCaps
  | .createSpace a =>
    Holds 32 a.id ∧ Holds 16 a.spaceBase ∧ Holds 16 a.spaceNum ∧ Holds 16 a.clistBase ∧
      Holds 16 a.clistNum ∧ Holds 16 a.mutexBase ∧ Holds 16 a.mutexNum ∧ Holds 32 a.utcbBase ∧
      a.utcbBase % 0x400 = 0 ∧ Holds 10 a.utcbLog2Size ∧ Holds 16 a.maxPhysSeg ∧
      Holds 15 a.maxPriority
  | .createThread a =>
    Holds 16 a.capSlot ∧ Holds 16 a.prio ∧ Holds 32 a.ip ∧ Holds 32 a.sp ∧ Holds 32 a.utcbAddr ∧
      Holds 32 a.mr1
  | .createMutex id => Holds 32 id
  | .createSegment a =>
    Holds 32 a.segNum ∧ Holds 24 (shr a.physAddr pageShift) ∧
      shr a.physAddr pageShift * 0x1000 = a.physAddr ∧ Holds 8 a.attr ∧
      Holds 22 (shr a.size pageShift) ∧ shr a.size pageShift * 0x1000 = a.size ∧ Holds 4 a.rwx
  | .mapMemory a =>
    Holds 10 a.segNum ∧ Holds 32 a.segOffset ∧ a.segOffset % 0x400 = 0 ∧ Holds 3 a.rwx ∧
      Holds 6 a.pageSizeLog2 ∧ Holds 22 a.numPages ∧ Holds 8 a.attr ∧ Holds 32 a.virt ∧
      a.virt % 0x400 = 0
  | .createIpcCap clistRef capSlot threadRef =>
    Holds 16 clistRef ∧ Holds 16 capSlot ∧ Holds 32 threadRef
  | .createMutexCap clistRef capSlot mutexRef =>
    Holds 16 clistRef ∧ Holds 16 capSlot ∧ Holds 32 mutexRef
  | .assignIrq irq => Holds 32 irq
  | .allowPlatformControl => True

instance (pageShift : ℕ) (op : Op ℤ) : Decidable (op.Fits pageShift) := by
  cases op <;> unfold Op.Fits <;> infer_instance

/-- The values that the kernel should find: sizes of heaps are rounded up to pages, and numbers of
thread handles to multiples of four. -/
def Op.rounded {R : Type} : Op R → Op R
  | .createHeap base size => .createHeap base (alignUp size 0x1000)
  | .createThreadHandles phys size => .createThreadHandles phys (alignUp size 4)
  | op => op

end Okl4Kernel.InitScript
