import Okl4Kernel.Lib.TransitionSystem
import Okl4Kernel.Lib.WordBitmap
import Okl4Kernel.Word

/-!
# The small-object allocator

A `small_alloc_t` hands out objects of one size. It takes blocks of `SMALL_OBJECT_BLOCKSIZE` bytes
from the kernel heap; a block has its objects at the beginning and a header near the end, with a
link to the next block, the identifier of the first object and a bitmap of the objects that are
free. An object has an identifier, which is that of its block plus its index in the block.

The blocks of a pool are a list here, in the order in which the links run from `head`, and a pointer
to a block is the address at which the block begins. What the heap hands out is an argument
(`BlockMemory`): an address, and what the memory happens to hold where the header will be.
-/

namespace Okl4Kernel.SmallAlloc

open WordBitmap

/-- `BITS_WORD`. -/
def bitsWord : ℕ := 32

lemma bitsWord_pos : 0 < bitsWord := by decide

/-- `SMALL_OBJECT_BLOCKSIZE`. -/
def blockSize : ℕ := 4096

/-- `header_size`. -/
def headerSize (objSize : ℕ) : ℕ := (2 + numWords bitsWord (blockSize / objSize)) * 4

/-- The number of objects of a block, as `init` calculates it in a `u16_t`. -/
def objsPerBlock (objSize : ℕ) : ℕ :=
  let extraSpace := blockSize % objSize
  if headerSize objSize ≤ extraSpace then blockSize / objSize % 2 ^ 16
  else
    (((blockSize / objSize : ℕ) : ℤ) - (((headerSize objSize - extraSpace) / objSize : ℕ) : ℤ) - 1)
      % 2 ^ 16 |>.toNat

/-- A `small_alloc_block_t`, and the address of the block that it is the header of. -/
structure Block where
  base : ℕ
  id : ℕ
  bitmap : ℕ → BitVec bitsWord

/-- Memory for a new block, with what is at the place of its identifier and of its bitmap. -/
structure BlockMemory where
  base : ℕ
  id : ℕ
  bitmap : ℕ → BitVec bitsWord

/-- A `small_alloc_t`. -/
structure Pool where
  objSize : ℕ
  /-- The greatest number of objects; zero means that there is no limit. -/
  maxObjs : ℕ
  blocks : List Block
  firstFree : Option ℕ
  num : ℕ

namespace Pool

/-- `small_alloc_t::init`. -/
def init (objectSize maxObjects : ℕ) : Pool where
  objSize := objectSize % 2 ^ 16
  maxObjs := maxObjects
  blocks := []
  firstFree := none
  num := 0

variable (p : Pool)

/-- `objs_per_block`. -/
def objs : ℕ := objsPerBlock p.objSize

/-- `get_object`. -/
def getObject (base index : ℕ) : ℕ := (base + index * p.objSize) % wordSpace

/-- `get_block_base` of an object. -/
def getBlockBase (object : ℕ) : ℕ := object - object % blockSize

variable (base : ℕ)

/-- The block that a pointer points to. -/
def blockAt : Option Block := p.blocks.find? fun b => b.base = base

/-- The index of an object in its block. -/
def index (object : ℕ) : ℕ := (object - getBlockBase object) / p.objSize

/-- `small_alloc_t::id`. -/
def id (p : Pool) (object : ℕ) : Option ℕ :=
  (p.blockAt (getBlockBase object)).map fun b => (p.index object + b.id) % wordSpace

/-- `bitmap_isallset`. -/
def isAllSet (words : ℕ → BitVec bitsWord) (length : ℕ) : Bool :=
  (∀ i < numWords bitsWord length - 1, words i = BitVec.allOnes bitsWord) ∧
    words (numWords bitsWord length - 1) = lowBits bitsWord (length % bitsWord)

variable (b : Block)

/-- An object of the block is free, as far as `bitmap_findfirstset` says. -/
def hasFree : Bool := (findFirstSet b.bitmap p.objs).isSome

/-- Change the block that a pointer points to. -/
def modifyBlock (f : Block → Block) : Pool :=
  { p with blocks := p.blocks.map fun b => if b.base = base then f b else b }

/-! ## Blocks -/

/-- The number of objects of a new block at the front of the list. -/
def frontLength : ℕ :=
  if p.maxObjs ≠ 0 ∧ p.maxObjs ≤ p.objs then p.maxObjs else p.objs

/-- The number of objects of a new block at the end of the list. The source asserts that the
identifier of the block is below the limit. -/
def lastLength (id : ℕ) : ℕ :=
  if p.maxObjs ≠ 0 ∧ p.maxObjs ≤ p.objs + id then p.maxObjs - id else p.objs

/-- The walk of `allocate_block` along the list, with the blocks behind `current`: a new block goes
behind the first one that does not have the next identifier, or to the end. -/
def insertBlock (p : Pool) (m : BlockMemory) : ℕ → List Block → List Block
  | nextId, [] => [⟨m.base, nextId, fill m.bitmap (p.lastLength nextId)⟩]
  | nextId, current :: rest =>
    if current.id ≠ nextId then current :: ⟨m.base, nextId, fill m.bitmap p.objs⟩ :: rest
    else current :: p.insertBlock m ((nextId + p.objs) % wordSpace) rest

/-- `allocate_block`, with the memory that the heap hands out. The identifier of a block that goes
to the front of the list is not written. -/
def allocateBlock (m : BlockMemory) : Pool :=
  let front := ⟨m.base, m.id, fill m.bitmap p.frontLength⟩ :: p.blocks
  let blocks :=
    match p.blocks with
    | [] => front
    | head :: rest =>
      if head.id ≠ 0 then front
      else head :: p.insertBlock m ((head.id + p.objs) % wordSpace) rest
  { p with blocks := blocks, firstFree := some m.base }

/-- `free_block`. -/
def freeBlock : Pool :=
  { p with blocks := p.blocks.eraseP fun b => b.base = base }

/-- The first block with a free object, from the given block on. -/
def freeFrom : Option ℕ :=
  ((p.blocks.dropWhile fun b => b.base ≠ base).find? p.hasFree).map Block.base

/-- The first block with a free object. -/
def freeFromHead : Option ℕ := (p.blocks.find? p.hasFree).map Block.base

/-! ## Objects -/

/-- The part of `allocate` behind the choice of the block. A search for a free object that fails
returns `-1`, which is used as an index. -/
def takeObject : Pool × ℕ :=
  let position := (findFirstSet b.bitmap p.objs).getD (wordSpace - 1)
  let p := p.modifyBlock b.base fun b => { b with bitmap := clear b.bitmap position }
  ({ p with firstFree := p.freeFrom b.base, num := p.num + 1 }, p.getObject b.base position)

/-- `allocate`, with the memory that the heap hands out if it is asked for a block. -/
def allocate (m : Option BlockMemory) : Pool × Option ℕ :=
  if p.maxObjs ≠ 0 ∧ p.maxObjs ≤ p.num then (p, none)
  else
    let withFree :=
      match p.firstFree with
      | some _ => some p
      | none => m.map p.allocateBlock
    match withFree with
    | none => (p, none)
    | some p =>
      match p.firstFree.bind p.blockAt with
      | none => (p, none)
      | some b => ((p.takeObject b).1, some (p.takeObject b).2)

/-- The part of `free` behind the marking of the object: the block may become the first one with a
free object, or go back to the heap. -/
def afterFree : Pool :=
  match p.firstFree.bind p.blockAt with
  | none => { p with firstFree := some b.base }
  | some ff =>
    if b.id < ff.id then { p with firstFree := some b.base }
    else if isAllSet b.bitmap p.objs then
      let p := p.freeBlock b.base
      if ff.base = b.base then { p with firstFree := p.freeFromHead } else p
    else p

/-- `free`, of an object in the given block. -/
def free (object : ℕ) : Pool :=
  let b := { b with bitmap := set b.bitmap (p.index object) }
  let p := p.modifyBlock b.base fun _ => b
  { p.afterFree b with num := p.num - 1 }

end Pool

/-! ## The pool and its clients -/

/-- A pool and the objects that are in use. -/
structure Client where
  pool : Pool
  live : List ℕ

/-- The operations on a pool. -/
inductive Op
  | allocate (m : Option BlockMemory)
  | free (object : ℕ)

namespace Client

/-- The pool has just been initialised. -/
def init (objectSize maxObjects : ℕ) : Client := ⟨Pool.init objectSize maxObjects, []⟩

/-- The heap hands out memory for a block: it is aligned to its size, and it is not in use. -/
def heapGives (s : Client) (m : BlockMemory) : Bool :=
  m.base % blockSize = 0 ∧ m.base + blockSize ≤ wordSpace ∧ m.base ∉ s.pool.blocks.map Block.base

/-- Perform an operation. Only objects that are in use are freed; the header of their block must
still be in the hands of the pool. -/
def step (s : Client) : Op → Option Client
  | .allocate m =>
    if m.all s.heapGives then
      match s.pool.allocate m with
      | (pool, none) => some { s with pool := pool }
      | (pool, some object) => some ⟨pool, object :: s.live⟩
    else none
  | .free object =>
    if object ∈ s.live then
      (s.pool.blockAt (Pool.getBlockBase object)).map fun b =>
        ⟨s.pool.free b object, s.live.erase object⟩
    else none

end Client

end Okl4Kernel.SmallAlloc
