import Okl4Kernel.Lib.LinkedChain
import Okl4Kernel.Word
import Mathlib.Algebra.BigOperators.Group.List.Basic
import Mathlib.Tactic.Ring

/-!
# The kernel memory allocator

`kmem_t` hands out blocks of whole chunks. The free chunks are linked, in order of their
addresses, through their first words, and an allocation looks for a run of adjacent free chunks
that begins at an aligned address.

A pointer is an address, or `none` for `NULL`. The words that can hold a pointer of the list are
the variable `kmem_free_list` and the first words of the chunks; `cells none` is the former and
`cells (some a)` is the word at address `a`. The search loops keep a pointer to such a word
(`prev` in the source) and write through it.

The loops of the source have no bound; here they are cut off after one round more than there are
free chunks, and `Okl4Kernel.KmemoryInvariant` shows that they never get that far.
-/

namespace Okl4Kernel

open Function

/-- `KMEM_CHUNKSIZE`. -/
def chunkSize : ℕ := 1024

/-- The contents of the words that can hold a pointer. -/
abbrev Cells := Option ℕ → Option ℕ

/-- `kmem_t`. -/
structure Kmem where
  /-- `kmem_free_list` and the first words of the chunks. -/
  cells : Cells
  /-- `free_chunks`. -/
  freeChunks : ℕ

namespace Kmem

/-- The first loop of `free`: write the next pointers of a run of chunks, up to the chunk
`last`. -/
def linkLoop (last : ℕ) : ℕ → Cells → ℕ → Cells × ℕ
  | 0, cells, p => (cells, p)
  | n + 1, cells, p =>
    if p < last then
      linkLoop last n (update cells (some p) (some (p + chunkSize))) (p + chunkSize)
    else (cells, p)

/-- The second loop of `free`: find the first chunk that is not below the address, and the word
that points to it. -/
def findPlace (cells : Cells) (address : ℕ) : ℕ → Option ℕ → Option ℕ → Option ℕ × Option ℕ
  | 0, prev, curr => (prev, curr)
  | _ + 1, prev, none => (prev, none)
  | n + 1, prev, some curr =>
    if curr < address then findPlace cells address n (some curr) (cells (some curr))
    else (prev, some curr)

variable (k : Kmem)

/-- `free`. -/
def free (address size : ℕ) : Kmem :=
  let size := max size chunkSize
  let linked := linkLoop (address + size - chunkSize) (size / chunkSize) k.cells address
  let place := findPlace linked.1 address (k.freeChunks + 1) none (linked.1 none)
  { cells := update (update linked.1 place.1 (some address)) (some linked.2) place.2
    freeChunks := k.freeChunks + size / chunkSize }

/-- `add`. -/
def add (address size : ℕ) : Kmem := k.free address size

/-- `init`. -/
def init (start stop : ℕ) : Kmem :=
  let k : Kmem := { cells := update k.cells none none, freeChunks := 0 }
  k.free start (stop - start)

/-- The inner loop of `alloc`: follow the list from the chunk `curr` as long as it runs through
adjacent chunks, for `n` more of them. The result is the chunk behind the run, or `NULL`. -/
def runEnd (cells : Cells) (curr : ℕ) : ℕ → ℕ → Option ℕ → Option ℕ
  | 0, _, tmp => tmp
  | _ + 1, _, none => none
  | n + 1, i, some tmp =>
    if tmp = (curr + chunkSize * i) % wordSpace then runEnd cells curr n (i + 1) (cells (some tmp))
    else none

/-- The outer loop of `alloc`: the first aligned chunk that begins a long enough run, with the word
that points to it and the chunk behind the run. -/
def search (cells : Cells) (aligned : ℕ → Bool) (chunks : ℕ) :
    ℕ → Option ℕ → Option ℕ → Option (Option ℕ × ℕ × ℕ)
  | 0, _, _ => none
  | _ + 1, _, none => none
  | n + 1, prev, some curr =>
    match if aligned curr then runEnd cells curr (chunks - 1) 1 (cells (some curr)) else none with
    | some tmp => some (prev, curr, tmp)
    | none => search cells aligned chunks n (some curr) (cells (some curr))

/-- Clear the words of a block. -/
def zero (cells : Cells) (address size : ℕ) : Cells := fun c =>
  match c with
  | none => cells none
  | some a => if address ≤ a ∧ a < address + size then none else cells (some a)

/-- What `alloc` and `alloc_aligned` have in common: search, dequeue, clear if asked to. -/
def allocWith (aligned : ℕ → Bool) (size : ℕ) (zeroed : Bool) : Option (Kmem × ℕ) :=
  match search k.cells aligned (size / chunkSize) (k.freeChunks + 1) none (k.cells none) with
  | none => none
  | some (prev, curr, tmp) =>
    let cells := update k.cells prev (some tmp)
    some ({ cells := if zeroed then zero cells curr size else cells
            freeChunks := k.freeChunks - size / chunkSize }, curr)

/-- A word minus one, as words are subtracted. -/
def pred (size : ℕ) : ℕ := (size + wordSpace - 1) % wordSpace

/-- The size of the block for a request to `alloc`, in word arithmetic:
`((size - 1) & ~(KMEM_CHUNKSIZE-1)) + KMEM_CHUNKSIZE`. -/
def roundUp (size : ℕ) : ℕ := (pred size / chunkSize * chunkSize + chunkSize) % wordSpace

/-- `alloc`. -/
def alloc (size : ℕ) (zeroed : Bool) : Option (Kmem × ℕ) :=
  let size := roundUp size
  k.allocWith (fun curr => curr &&& pred size = 0) size zeroed

/-- `alloc_aligned`. -/
def allocAligned (size alignment mask : ℕ) (zeroed : Bool) : Option (Kmem × ℕ) :=
  let align := alignment &&& mask
  let size := max size chunkSize
  k.allocWith (fun curr => curr &&& mask = align ∧ curr &&& pred size = 0) size zeroed

end Kmem

/-! ## The allocator and its clients -/

/-- A block that has been handed out. -/
structure Block where
  addr : ℕ
  /-- Its size in chunks. -/
  chunks : ℕ
  deriving DecidableEq

/-- The addresses of a run of chunks. -/
def chunkAddrs (address n : ℕ) : List ℕ := (List.range n).map fun i => address + chunkSize * i

/-- The chunks of a block. -/
def Block.addrs (b : Block) : List ℕ := chunkAddrs b.addr b.chunks

/-- The allocator, the blocks in use, and all chunks that it has ever been given. -/
structure Heap where
  kmem : Kmem
  live : List Block
  managed : List ℕ

/-- The operations on the allocator; `store` is a client that writes a word of its block. -/
inductive KmemOp
  | init (start stop : Word)
  | add (address size : Word)
  | alloc (size : Word) (zeroed : Bool)
  | allocAligned (size alignment mask : Word) (zeroed : Bool)
  | free (address size : Word)
  | store (a : ℕ) (value : Option ℕ)

namespace Heap

/-- An allocator that has not been given any memory. -/
def empty : Heap := ⟨⟨fun _ => none, 0⟩, [], []⟩

/-- The size that `free` works with. -/
def freeSize (size : ℕ) : ℕ := max size chunkSize

/-- A region that may be handed to the allocator: whole chunks at chunk addresses of the address
space, not at `NULL`, and none of them known to the allocator already. -/
def regionOk (managed : List ℕ) (address size : ℕ) : Bool :=
  address % chunkSize = 0 ∧ address ≠ 0 ∧ freeSize size % chunkSize = 0 ∧
    address + freeSize size ≤ wordSpace ∧
    ∀ c ∈ chunkAddrs address (freeSize size / chunkSize), c ∉ managed

/-- Record the block that an allocation returned. -/
def allocated (h : Heap) (chunks : ℕ) : Option (Kmem × ℕ) → Heap
  | none => h
  | some (k, a) => { h with kmem := k, live := ⟨a, chunks⟩ :: h.live }

/-- Perform an operation. The sizes given to `add`, `free` and `alloc_aligned` must pass the
assertions of the source, and what is freed must be a block in use. -/
def step (h : Heap) : KmemOp → Option Heap
  | .init start stop =>
    if start ≤ stop ∧ regionOk [] start (stop - start : ℕ) then
      some { kmem := h.kmem.init start stop, live := [],
             managed := chunkAddrs start (freeSize (stop - start : ℕ) / chunkSize) }
    else none
  | .add address size =>
    if regionOk h.managed address size then
      some { h with kmem := h.kmem.add address size,
                    managed := h.managed ++ chunkAddrs address (freeSize size / chunkSize) }
    else none
  | .alloc size zeroed =>
    some (h.allocated (Kmem.roundUp size / chunkSize) (h.kmem.alloc size zeroed))
  | .allocAligned size alignment mask zeroed =>
    if freeSize size % chunkSize = 0 then
      some (h.allocated (freeSize size / chunkSize)
        (h.kmem.allocAligned size alignment mask zeroed))
    else none
  | .free address size =>
    if freeSize size % chunkSize = 0 ∧ ⟨address, freeSize size / chunkSize⟩ ∈ h.live then
      some { h with kmem := h.kmem.free address size,
                    live := h.live.erase ⟨address, freeSize size / chunkSize⟩ }
    else none
  | .store a value =>
    if ∃ b ∈ h.live, b.addr ≤ a ∧ a < b.addr + chunkSize * b.chunks then
      some { h with kmem := { h.kmem with
        cells := update h.kmem.cells (some a) value } }
    else none

end Heap

end Okl4Kernel
