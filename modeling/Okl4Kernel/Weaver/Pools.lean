import Okl4Kernel.Weaver.Allocator

/-!
# The pools of elfweaver

Elfweaver has pools of physical and pools of virtual memory. The two kinds are handled alike, and
`Memory` is either of them: the pools by their names, a tracker of the memory that has been added to
pools, and one of the objects that have been placed.

A zone is a virtual pool that takes its memory from another one, in windows of a megabyte. When an
allocation from a zone fails, the zone allocates another window from its pool and tries again. The
pool of a zone may be a zone as well; Python's limit on the depth of recursion is a parameter.
-/

namespace Okl4Kernel.Weaver

open SpanList Function

variable {MemType : Type}

/-- What a `Zone` has beyond a `Pool`. -/
structure Zone where
  pool : Option String
  windows : List (ℤ × ℤ)

/-- A `Pool` or a `Zone`. -/
structure Pool (MemType : Type) where
  allocator : Allocator MemType
  zone : Option Zone

/-- The pools of one kind of memory. -/
structure Memory (MemType : Type) where
  /-- The keys of the dictionary, in the order in which it is gone through. -/
  names : List String
  pool : String → Pool MemType
  /-- `virtual_pool_mem` or `physical_pool_mem`. -/
  poolMem : Tracker
  /-- `allocated_virtual` or `allocated_physical`. -/
  allocated : Tracker

namespace Memory

variable (s : Memory MemType)

/-- Replace the lists of a pool. -/
def setAllocator (name : String) (a : Allocator MemType) : Memory MemType :=
  { s with pool := update s.pool name { s.pool name with allocator := a } }

/-- Replace the free list of a pool. -/
def setFreelist (name : String) (freelist : List (Region MemType)) : Memory MemType :=
  s.setAllocator name { (s.pool name).allocator with freelist := freelist }

/-- Replace the tracker of the objects. -/
def setAllocated (t : Tracker) : Memory MemType := { s with allocated := t }

/-- `_new_alloc_object`, for a pool or a zone. -/
def newPool (name : String) (zone : Option Zone) (s : Memory MemType) :
    Except LayoutError (Memory MemType) :=
  if name ∈ s.names then .error (.poolExists name)
  else
    .ok { s with
      names := s.names ++ [name]
      pool := update s.pool name ⟨⟨[], []⟩, zone⟩ }

variable (m : Machine MemType)

/-- `add_virtual_memory` and `add_physical_memory`, for one region. -/
def addPoolMemory (name : String) (base : ℤ) (size : ℕ) (memType : MemType)
    (s : Memory MemType) : Except LayoutError (Memory MemType) := do
  let t ← s.poolMem.add name base (base + size - 1) false
  if name ∈ s.names then
    let a ← addMemory m base size memType (s.pool name).allocator
    .ok ({ s with poolMem := t }.setAllocator name a)
  else .error (.noPool name)

/-- The loop of `mark_virtual` and `mark_physical` over the pools. -/
def markPools (m : Machine MemType) (base : ℤ) (size : ℕ) (policy : ℕ) :
    List String → Memory MemType → Except LayoutError (Bool × Memory MemType)
  | [], s => .ok (false, s)
  | name :: names, s => do
    let (marked, freelist, t) ←
      Weaver.mark m base size policy (s.pool name).allocator.freelist s.allocated
    let (marked', s) ← markPools m base size policy names
      ((s.setFreelist name freelist).setAllocated t)
    .ok (marked || marked', s)

/-- `mark_virtual` and `mark_physical`. -/
def mark (rangeName : String) (base : ℤ) (size : ℕ) (policy : ℕ)
    (s : Memory MemType) : Except LayoutError (Bool × Memory MemType) := do
  let (marked, s) ← markPools m base size policy s.names
    (s.setAllocated { s.allocated with allocName := rangeName })
  if marked then .ok (true, s)
  else do
    s.allocated.check rangeName base (base + size - 1) true
    .ok (false, s)

/-- The loop of `remove_virtual`, which ends at the first pool that has something of the range. -/
def removeFrom (m : Machine MemType) (base : ℤ) (size : ℕ) :
    List String → Memory MemType → Except LayoutError (Memory MemType)
  | [], s => .ok s
  | name :: names, s => do
    let (marked, freelist, t) ←
      Weaver.mark m base size 1 (s.pool name).allocator.freelist s.allocated
    let s := (s.setFreelist name freelist).setAllocated t
    if marked then .ok s else removeFrom m base size names s

/-- `remove_virtual`. -/
def removeVirtual (base : ℤ) (size : ℕ) (s : Memory MemType) :
    Except LayoutError (Memory MemType) :=
  removeFrom m base size s.names (s.setAllocated { s.allocated with markingDirect := true })

/-- The name of the pool of direct memory. -/
def direct : String := "direct"

/-- `add_direct_memory`. -/
def addDirectMemory (base : ℤ) (size : ℕ) (memType : MemType)
    (s : Memory MemType) : Except LayoutError (Memory MemType) := do
  let s ← s.removeVirtual m base size
  if direct ∈ s.names then
    let a ← addMemory m base size memType (s.pool direct).allocator
    .ok (s.setAllocator direct a)
  else .error (.noPool direct)

/-! ## Zones -/

/-- `Zone.WINDOW_SIZE`. -/
def windowSize : ℕ := 1024 * 1024

/-- Add a window to the list of claimed windows. -/
def addWindow (s : Memory MemType) (zone : String) (base : ℤ) : Memory MemType :=
  { s with
    pool := update s.pool zone { s.pool zone with
      zone := (s.pool zone).zone.map fun z =>
        { z with windows := z.windows ++ [(base, base + windowSize - 1)] } } }

/-- Add the parts of a window that were free to the free list of the zone. -/
def addFree (m : Machine MemType) (zone : String) :
    List (Region MemType) → Memory MemType → Except LayoutError (Memory MemType)
  | [], s => .ok s
  | r :: rest, s => do
    let a ← addMemory m r.lo (r.hi - r.lo + 1) r.tag (s.pool zone).allocator
    addFree m zone rest (s.setAllocator zone a)

/-- Claim the window that has the given objects in it. -/
def claimWindow (zone pool : String) (base : ℤ) (holes : List (ℤ × ℤ))
    (s : Memory MemType) : Except LayoutError (Memory MemType) := do
  let (freelist, removed) ← markWindow m base windowSize holes (s.pool pool).allocator
  let s ← addFree m zone removed (s.setFreelist pool freelist)
  .ok (s.addWindow zone base)

/-- The loop of `prime` over the objects that the zone has, in order of their addresses; `holes` are
those in the window that begins at `holeBase`. -/
def primeLoop (m : Machine MemType) (zone pool : String) :
    List (ℤ × ℤ) → Option ℤ → List (ℤ × ℤ) → Memory MemType → Except LayoutError (Memory MemType)
  | [], none, _, s => .ok s
  | [], some holeBase, holes, s => s.claimWindow m zone pool holeBase holes
  | range :: ranges, none, holes, s =>
    primeLoop m zone pool ranges (some (alignDown range.1 windowSize)) (holes ++ [range]) s
  | range :: ranges, some holeBase, holes, s =>
    if alignDown range.1 windowSize = holeBase then
      primeLoop m zone pool ranges (some holeBase) (holes ++ [range]) s
    else do
      let s ← s.claimWindow m zone pool holeBase holes
      primeLoop m zone pool ranges (some (alignDown range.1 windowSize)) [range] s

/-- `Zone.prime`. -/
def prime (zone pool : String) (ranges : List (ℤ × ℤ)) (s : Memory MemType) :
    Except LayoutError (Memory MemType) :=
  if zone ∈ s.names ∧ (s.pool zone).zone.isSome then
    if pool ∈ s.names then
      let s := { s with
        pool := update s.pool zone { s.pool zone with
          zone := (s.pool zone).zone.map fun z => { z with pool := some pool } } }
      primeLoop m zone pool (ranges.insertionSort fun r r' => r.1 ≤ r'.1) none [] s
    else .error (.noPool pool)
  else .error (.noPool zone)

/-- The item for a new window. -/
def windowItem (zone : String) : Item where
  name := zone ++ "/zone_window"
  size := windowSize
  alignment := windowSize
  offset := 0
  cachePolicy := 0
  addr := none

/-- The result of an allocation: the addresses, an `AllocatorException`, or another exception. -/
inductive Result (MemType : Type)
  | placed (s : Memory MemType) (addrs : List ℤ)
  | exhausted (s : Memory MemType)
  | raised (e : LayoutError)

/-- `Allocator.alloc` of a pool. -/
def allocOnce (name : String) (g : Group) (s : Memory MemType) : Result MemType :=
  match (s.pool name).allocator.alloc m g s.allocated with
  | .placed a t addrs => .placed ((s.setAllocator name a).setAllocated t) addrs
  | .exhausted a => .exhausted (s.setAllocator name a)
  | .raised e => .raised e

/-- Give a zone the window that has been allocated for it, and try again. -/
def allocAgain (name : String) (g : Group) (s : Memory MemType) (addr : ℤ) : Result MemType :=
  match addMemory m addr windowSize m.allRights (s.pool name).allocator with
  | .error e => .raised e
  | .ok a => ((s.setAllocator name a).addWindow name addr).allocOnce m name g

/-- `alloc` of a pool or a zone. -/
def allocIn (m : Machine MemType) : ℕ → String → Group → Memory MemType → Result MemType
  | 0, _, _, _ => .raised .recursion
  | depth + 1, name, g, s =>
    match s.allocOnce m name g with
    | .placed s addrs => .placed s addrs
    | .raised e => .raised e
    | .exhausted s =>
      match (s.pool name).zone with
      | none => .exhausted s
      | some zone =>
        match zone.pool with
        | none => .raised .noZonePool
        | some pool =>
          match allocIn m depth pool ⟨none, [windowItem name]⟩
              (s.setAllocated { s.allocated with markingZone := true }) with
          | .placed s (addr :: _) => s.allocAgain m name g addr
          | .placed _ [] => .raised .assertion
          | .exhausted s => .exhausted s
          | .raised e => .raised e

/-- `__alloc`. -/
def alloc (depth : ℕ) (name : String) (g : Group) (s : Memory MemType) :
    Except LayoutError (Memory MemType × List ℤ) :=
  if name ∈ s.names then
    match s.allocIn m depth name g with
    | .placed s addrs => .ok (s, addrs)
    | .exhausted _ => .error (.outOfMemory name)
    | .raised e => .error e
  else .error (.noPool name)

end Memory

end Okl4Kernel.Weaver
