import Okl4Kernel.Lib.Fallible
import Okl4Kernel.Lib.SpanList
import Mathlib.Data.Int.ModEq

/-!
# The memory allocator of elfweaver

Elfweaver lays out the objects of an image in pools of physical and of virtual memory. A pool
keeps a list of the ranges that are free, in whole pages, and a list of all ranges that it has been
given. Objects at fixed addresses take their pages out of the free list (`mark`); groups of objects
are placed first fit (`alloc`); zones claim windows of a pool (`mark_window`). A tracker records
what has been placed, to find objects that overlap.

A range is a span from its first to its last address. What raises an exception is an error here,
with the values that the message shows; an `AllocatorException` of `alloc` is a case of its own,
because zones catch it.
-/

namespace Okl4Kernel.Weaver

variable {alignment : ℕ}

open SpanList Option List

variable (val : ℤ)

/-- `align_down`. -/
def alignDown (alignment : ℕ) : ℤ :=
  if alignment ≠ 0 then val - val % alignment else val

/-- `align_up`. -/
def alignUp (alignment : ℕ) : ℤ :=
  if alignment = 0 then val
  else
    let ovr := val % alignment
    if ovr ≠ 0 then val + alignment - ovr else val

lemma alignDown_le (hpos : 0 < alignment) : alignDown val alignment ≤ val := by
  have hmod := Int.emod_nonneg val (b := (alignment : ℤ)) (by omega)
  rw [alignDown, if_pos (by omega)]
  omega

lemma le_alignUp (hpos : 0 < alignment) : val ≤ alignUp val alignment := by
  have hmod := Int.emod_lt_of_pos val (b := (alignment : ℤ)) (by omega)
  rw [alignUp, if_neg (by omega)]
  dsimp only
  split_ifs <;> omega

lemma alignUp_emod (hpos : 0 < alignment) : alignUp val alignment % alignment = 0 := by
  rw [alignUp, if_neg (by omega)]
  dsimp only
  split_ifs with hovr
  · have hval : val + alignment - val % alignment = alignment * (val / alignment + 1) := by
      have := Int.mul_ediv_add_emod val alignment
      rw [mul_add, mul_one]
      omega
    rw [hval, Int.mul_emod_right]
  · exact not_not.1 hovr

/-- Rounding up moves every address that is not a multiple of the alignment. -/
theorem lt_alignUp {val : ℤ} (hpos : 0 < alignment) (hval : val % alignment ≠ 0) :
    val < alignUp val alignment := by
  have hmod := Int.emod_lt_of_pos val (b := (alignment : ℤ)) (by omega)
  rw [alignUp, if_neg (by omega)]
  rw [if_pos hval]
  omega

/-- What the layout reads from the description of the machine. -/
structure Machine (MemType : Type) where
  /-- `min_page_size()`. -/
  minPageSize : ℕ
  /-- A page is not empty. -/
  minPageSize_pos : 0 < minPageSize
  /-- `check_cache_permissions`. -/
  checkCachePermissions : ℕ → MemType → Bool
  /-- `map_mem_rights_str("all")`. -/
  allRights : MemType

lemma page_pos : 0 < 0x1000 := by decide

/-- What elfweaver raises. -/
inductive LayoutError
  | assertion
  | addOverlap (base last listBase listEnd : ℤ)
  | markEnd (last base : ℤ)
  | cachePolicy (policy : ℕ)
  | overlap (title name : String) (base last : ℤ) (allocName : String) (allocBase allocEnd : ℤ)
  | windowEnd (last base : ℤ)
  | windowOutside
  | holeOverlap (holeBase holeEnd freeBase freeEnd : ℤ)
  | windowAddress (addr : ℤ)
  | outOfMemory (pool : String)
  | noPool (name : String)
  | poolExists (name : String)
  | recursion
  | noZonePool
  deriving DecidableEq

variable {MemType : Type}
variable {windowEnd : ℤ}

/-! ## Tracking -/

/-- An `AllocatedMemoryTracker`. The entries are in the order in which they were made; only which
overlap is reported first depends on it. -/
structure Tracker where
  title : String
  mem : List (Span String)
  allocName : String
  markingDirect : Bool
  markingZone : Bool

namespace Tracker

/-- The entry overlaps the range from `base` to `last`, as `__check` finds out. -/
def conflicts (base last : ℤ) (canMatchExact : Bool) (entry : Span String) : Bool :=
  !(decide (base = entry.lo) && decide (last = entry.hi) && canMatchExact) &&
    (decide (entry.lo ≤ base ∧ base ≤ entry.hi) || decide (entry.lo ≤ last ∧ last ≤ entry.hi))

variable (t : Tracker)

/-- `__check`. -/
def check (name : String) (base last : ℤ) (canMatchExact : Bool) : Except LayoutError Unit :=
  match t.mem.find? (conflicts base last canMatchExact) with
  | some entry => .error (.overlap t.title name base last entry.tag entry.lo entry.hi)
  | none => .ok ()

/-- `__add`. -/
def add (name : String) (base last : ℤ) (canMatchExact : Bool) : Except LayoutError Tracker := do
  t.check name base last canMatchExact
  .ok { t with mem := t.mem ++ [⟨base, last, name⟩], allocName := "unknown" }

/-- `track_mark`. -/
def trackMark (base last : ℤ) : Except LayoutError Tracker :=
  if t.markingDirect then .ok { t with markingDirect := false }
  else t.add t.allocName base last true

/-- `track_alloc`. -/
def trackAlloc (name : String) (base last : ℤ) : Except LayoutError Tracker :=
  if t.markingZone then .ok { t with markingZone := false }
  else t.add name base last false

end Tracker

/-! ## Memory of a pool -/

/-- A range of memory with its type. -/
abbrev Region (MemType : Type) := Span MemType

/-- The lists of an `Allocator`. -/
structure Allocator (MemType : Type) where
  freelist : List (Region MemType)
  fulllist : List (Region MemType)

/-- `sort`. -/
def sort (l : List (Region MemType)) : List (Region MemType) := merge (sortByLo l)

variable (m : Machine MemType) (base size : ℤ)

/-- `add_memory`. -/
def addMemory (memType : MemType) (a : Allocator MemType) :
    Except LayoutError (Allocator MemType) :=
  if ¬ (alignDown base m.minPageSize = base ∧ size % m.minPageSize = 0) then .error .assertion
  else
    let last := base + size - 1
    match a.fulllist.find? fun r =>
        decide (r.lo ≤ base ∧ base ≤ r.hi) || decide (r.lo ≤ last ∧ last ≤ r.hi) with
    | some r => .error (.addOverlap base last r.lo r.hi)
    | none =>
      .ok { freelist := sort (a.freelist ++ [⟨base, last, memType⟩])
            fulllist := sort (a.fulllist ++ [⟨base, last, memType⟩]) }

/-! ## Reservations -/

/-- The first address of the pages that `mark` takes for a range. -/
def markBase (base : ℤ) : ℤ := alignDown base m.minPageSize

/-- The last address of the pages that `mark` takes for a range. -/
def markEnd : ℤ :=
  let last := base + size - 1
  let last := if base = last then last + 1 else last
  alignUp last m.minPageSize - 1

/-- The free region has something in common with the range, as `mark` finds out. -/
def Meets (base last : ℤ) (r : Region MemType) : Prop :=
  (r.lo ≤ base ∧ base ≤ r.hi) ∨ (base ≤ r.lo ∧ r.lo ≤ last)

instance (base last : ℤ) (r : Region MemType) : Decidable (Meets base last r) :=
  inferInstanceAs (Decidable (_ ∨ _))

/-- What `mark` leaves of a region. -/
def remains (base last : ℤ) (r : Region MemType) : List (Region MemType) :=
  (if r.lo < base then [⟨r.lo, base - 1, r.tag⟩] else []) ++
    (if last < r.hi then [⟨last + 1, r.hi, r.tag⟩] else [])

/-- The loop of `mark` over the free list: whether something was found, what is left of the list,
and the tracker. -/
def markLoop (m : Machine MemType) (base last : ℤ) (policy : ℕ) :
    List (Region MemType) → Tracker → Except LayoutError (Bool × List (Region MemType) × Tracker)
  | [], t => .ok (false, [], t)
  | r :: rest, t =>
    if ¬ (r.lo % m.minPageSize = 0 ∧ (r.hi + 1) % m.minPageSize = 0) then .error .assertion
    else if Meets base last r then
      if !t.markingDirect && !m.checkCachePermissions policy r.tag then .error (.cachePolicy policy)
      else do
        let t ← t.trackMark base last
        let (_, left, t) ← markLoop m base last policy rest t
        .ok (true, remains base last r ++ left, t)
    else do
      let (marked, left, t) ← markLoop m base last policy rest t
      .ok (marked, r :: left, t)

/-- `mark`. -/
def mark (policy : ℕ) (freelist : List (Region MemType))
    (t : Tracker) : Except LayoutError (Bool × List (Region MemType) × Tracker) :=
  if base + size - 1 < base then .error (.markEnd (base + size - 1) base)
  else markLoop m (markBase m base) (markEnd m base size) policy freelist t

/-! ## Windows -/

/-- The variables of the loop of `mark_window`. -/
structure Window (MemType : Type) where
  currAddr : ℤ
  currFree : Option (Region MemType)
  freeIter : List (Region MemType)
  currHole : Option (ℤ × ℤ)
  holeIter : List (ℤ × ℤ)
  newFreelist : List (Region MemType)
  removedFreelist : List (Region MemType)

variable (w : Window MemType)

/-- Take the next free region, if none is at hand. -/
def Window.fetchFree : Window MemType :=
  match w.currFree, w.freeIter with
  | none, r :: rest => { w with currFree := some r, freeIter := rest }
  | _, _ => w

/-- Take the next hole, if none is at hand. -/
def Window.fetchHole : Window MemType :=
  match w.currHole, w.holeIter with
  | none, h :: rest => { w with currHole := some h, holeIter := rest }
  | _, _ => w

/-- Remove from the free region what lies in the window. -/
def Window.claim (windowEnd : ℤ) (r : Region MemType) (w : Window MemType) : Window MemType :=
  { w with
    currAddr := r.hi + 1
    currFree := none
    newFreelist := w.newFreelist ++
      ((if r.lo < w.currAddr then [⟨r.lo, w.currAddr - 1, r.tag⟩] else []) ++
        (if windowEnd < r.hi then [⟨windowEnd + 1, r.hi, r.tag⟩] else []))
    removedFreelist := w.removedFreelist ++
      [⟨w.currAddr, if windowEnd < r.hi then windowEnd else r.hi, r.tag⟩] }

/-- The loop is at the free region. -/
def Window.takeFree (windowEnd : ℤ) (r : Region MemType) (w : Window MemType) :
    Except LayoutError (Window MemType) :=
  match w.currHole.filter fun h => decide (h.1 ≤ r.hi) with
  | some h => .error (.holeOverlap h.1 h.2 r.lo r.hi)
  | none => .ok (w.claim windowEnd r)

/-- The loop is not at a free region, and has to be at a hole. -/
def Window.takeHole : Except LayoutError (Window MemType) :=
  match w.currHole.filter fun h => decide (h.1 = w.currAddr) with
  | none => .error (.windowAddress w.currAddr)
  | some h =>
    match w.currFree.filter fun r => decide (r.lo ≤ h.2) with
    | some r => .error (.holeOverlap h.1 h.2 r.lo r.hi)
    | none => .ok { w with currAddr := h.2 + 1, currHole := none }

/-- What the loop does with the free region and the hole at hand. -/
def Window.advance (windowEnd : ℤ) (w : Window MemType) : Except LayoutError (Window MemType) :=
  match w.currFree with
  | some r =>
    if r.lo ≤ w.currAddr ∧ w.currAddr ≤ r.hi then w.takeFree windowEnd r else w.takeHole
  | none => w.takeHole

/-- One round of the loop of `mark_window`. -/
def Window.round (windowEnd : ℤ) (w : Window MemType) : Except LayoutError (Window MemType) :=
  if w.currAddr % m.minPageSize ≠ 0 then .error .assertion
  else
    match w.currFree, w.freeIter with
    | none, r :: rest =>
      -- A region outside of where the loop works is kept, and the next round takes another one.
      if r.hi < w.currAddr ∨ windowEnd < r.lo then
        .ok { w with freeIter := rest, newFreelist := w.newFreelist ++ [r] }
      else w.fetchFree.fetchHole.advance windowEnd
    | _, _ => w.fetchHole.advance windowEnd

/-- The regions and holes that the loop has not used up. -/
def Window.left : ℕ :=
  w.currFree.toList.length + w.freeIter.length + w.currHole.toList.length + w.holeIter.length

lemma Window.left_fetchFree : w.fetchFree.left = w.left := by
  rw [fetchFree]
  split
  · next hfree hiter =>
    simp only [left, hfree, hiter, toList_some, toList_none, length_cons, length_nil]
    omega
  · rfl

lemma Window.left_fetchHole : w.fetchHole.left = w.left := by
  rw [fetchHole]
  split
  · next hhole hiter =>
    simp only [left, hhole, hiter, toList_some, toList_none, length_cons, length_nil]
    omega
  · rfl

variable {w w' : Window MemType}

/-- The loop goes on behind a free region or behind a hole. -/
theorem Window.advance_cases (h : w.advance windowEnd = .ok w') :
    (∃ r, w.currFree = some r ∧ r.lo ≤ w.currAddr ∧ w.currAddr ≤ r.hi ∧ w' = w.claim windowEnd r) ∨
      ∃ hole, w.currHole = some hole ∧ w' = { w with currAddr := hole.2 + 1, currHole := none } := by
  have htakeHole (h : w.takeHole = .ok w') :
      ∃ hole, w.currHole = some hole ∧ w' = { w with currAddr := hole.2 + 1, currHole := none } := by
    rw [takeHole] at h
    split at h
    · cases h
    · next hole hhole =>
      split at h
      · cases h
      · cases h
        exact ⟨hole, (filter_eq_some_iff.1 hhole).1, rfl⟩
  rw [advance] at h
  split at h
  · next r hr =>
    split_ifs at h with hcurr
    · left
      rw [takeFree] at h
      split at h
      · cases h
      · cases h
        exact ⟨r, hr, hcurr.1, hcurr.2, rfl⟩
    · exact .inr (htakeHole h)
  · exact .inr (htakeHole h)

lemma Window.left_advance (h : w.advance windowEnd = .ok w') : w'.left < w.left := by
  rcases advance_cases h with ⟨r, hr, -, -, rfl⟩ | ⟨hole, hhole, rfl⟩
  · simp only [left, claim, hr, toList_some, toList_none, length_singleton, length_nil]
    omega
  · simp only [left, hhole, toList_some, toList_none, length_singleton, length_nil]
    omega

/-- Every round uses up a region or a hole. -/
theorem Window.left_round {m : Machine MemType} (h : w.round m windowEnd = .ok w') :
    w'.left < w.left := by
  rw [round] at h
  split_ifs at h
  split at h
  · next r rest hfree hiter =>
    split_ifs at h
    · cases h
      simp only [left, hiter, length_cons]
      omega
    · rw [← left_fetchFree w, ← left_fetchHole w.fetchFree]
      exact left_advance h
  · rw [← left_fetchHole w]
    exact left_advance h

/-- The loop of `mark_window`: the free list and what was removed from it. -/
def Window.loop (m : Machine MemType) (windowEnd : ℤ) (w : Window MemType) :
    Except LayoutError (List (Region MemType) × List (Region MemType)) :=
  if w.currAddr ≤ windowEnd then
    match _h : w.round m windowEnd with
    | .error e => .error e
    | .ok w' => Window.loop m windowEnd w'
  else .ok (w.newFreelist ++ w.freeIter, w.removedFreelist)
termination_by w.left
decreasing_by exact Window.left_round (by assumption)

/-- `mark_window`, for holes with their base and size. -/
def markWindow (m : Machine MemType) (windowBase size : ℤ) (holes : List (ℤ × ℤ))
    (a : Allocator MemType) : Except LayoutError (List (Region MemType) × List (Region MemType)) :=
  let windowEnd := windowBase + size - 1
  if windowEnd < windowBase then .error (.windowEnd windowEnd windowBase)
  else
    let windowEnd := if windowBase = windowEnd then windowEnd + 1 else windowEnd
    let windowBase := alignDown windowBase m.minPageSize
    let windowEnd := alignUp windowEnd m.minPageSize - 1
    if a.fulllist.any fun r => decide (r.lo ≤ windowBase ∧ windowBase ≤ r.hi ∧
        r.lo ≤ windowEnd ∧ windowEnd ≤ r.hi) then
      let holes := holes.map fun h =>
        (alignDown h.1 m.minPageSize, alignUp (h.1 + h.2 - 1) m.minPageSize - 1)
      let holes := holes.insertionSort fun h h' => h.1 ≤ h'.1
      if holes.all fun h => decide (windowBase ≤ h.1 ∧ h.1 ≤ windowEnd ∧
          windowBase ≤ h.2 ∧ h.2 ≤ windowEnd) then
        Window.loop m windowEnd
          { currAddr := windowBase, currFree := none, freeIter := a.freelist, currHole := none
            holeIter := holes, newFreelist := [], removedFreelist := [] }
      else .error .assertion
    else .error .windowOutside

/-! ## Groups -/

/-- An `AllocatorItem`. -/
structure Item where
  name : String
  size : ℕ
  /-- Zero if the item may be anywhere. -/
  alignment : ℕ
  offset : ℤ
  cachePolicy : ℕ
  addr : Option ℤ

/-- An `AllocatorGroup`. -/
structure Group where
  distance : Option ℤ
  entries : List Item

/-- The exceptions of `__group_alloc`. -/
inductive Raised
  | allocatorException
  | groupException
  | assertion
  deriving DecidableEq

/-- Where `__simple_alloc` proposes to place a block in a free region. -/
def blockStart (alignment : ℕ) (offset freeStart : ℤ) : ℤ :=
  let start := alignDown freeStart alignment + offset
  if start < freeStart then start + alignment else start

/-- `__simple_alloc`: the free list before and after the block, its address and type. -/
def simpleAlloc (size alignment : ℕ) (offset : ℤ) :
    List (Region MemType) → Option (List (Region MemType) × List (Region MemType) × ℤ × MemType)
  | [] => none
  | r :: rest =>
    let start := blockStart alignment offset r.lo
    let last := start + size - 1
    if r.lo ≤ start ∧ last ≤ r.hi then
      some (if r.lo < start - 1 then [⟨r.lo, start - 1, r.tag⟩] else [],
        (if last + 1 < r.hi then [⟨last + 1, r.hi, r.tag⟩] else []) ++ rest, start, r.tag)
    else
      (simpleAlloc size alignment offset rest).map fun (before, found) => (r :: before, found)

/-- What `__group_alloc` does with one item: the free list above it, the one below it, and its
address. -/
def placeItem (m : Machine MemType) (i : Item) (freelist newFreelist : List (Region MemType)) :
    Except Raised (List (Region MemType) × List (Region MemType) × ℤ) :=
  match i.addr with
  | none =>
    match simpleAlloc i.size i.alignment i.offset freelist with
    | none => .error .allocatorException
    | some (before, after, addr, memType) =>
      if m.checkCachePermissions i.cachePolicy memType then .ok (after, newFreelist ++ before, addr)
      else .error .allocatorException
  | some addr =>
    if freelist.getLast?.any fun r => decide (addr ≤ r.hi) then
      if freelist.all fun r => decide (r.hi < addr) || decide (addr < r.lo) then
        .ok (freelist.filter fun r => !decide (r.hi < addr),
          newFreelist ++ freelist.filter fun r => decide (r.hi < addr), addr)
      else .error .assertion
    else .ok (freelist, newFreelist, addr)

/-- The item is too far from the end of the last one. -/
def tooFar (distance : Option ℤ) (last : Option (ℤ × ℕ)) (addr : ℤ) : Bool :=
  match distance, last with
  | some distance, some (lastAddr, lastSize) => decide (distance < addr - (lastAddr + lastSize))
  | _, _ => false

/-- `__group_alloc`: the free list and the addresses of the items. -/
def groupAlloc (m : Machine MemType) (distance : Option ℤ) :
    List Item → List (Region MemType) → List (Region MemType) → Option (ℤ × ℕ) →
      Except Raised (List (Region MemType) × List ℤ)
  | [], freelist, newFreelist, _ => .ok (newFreelist ++ freelist, [])
  | i :: entries, freelist, newFreelist, last => do
    let (freelist, newFreelist, addr) ← placeItem m i freelist newFreelist
    if tooFar distance last addr then .error .groupException
    else
      let (freelist, addrs) ← groupAlloc m distance entries freelist newFreelist
        (some (addr, i.size))
      .ok (freelist, addr :: addrs)

/-- The result of `alloc`. An `AllocatorException` comes with the free list that it leaves. -/
inductive AllocResult (MemType : Type)
  | placed (freelist : List (Region MemType)) (addrs : List ℤ)
  | exhausted (freelist : List (Region MemType))
  | assertion

/-- The loop of `alloc`: as long as the items are too far from each other, the first free region is
set aside. -/
def allocLoop (m : Machine MemType) (g : Group) :
    List (Region MemType) → List (Region MemType) → AllocResult MemType
  | [], newFreelist =>
    match groupAlloc m g.distance g.entries [] [] none with
    | .ok (freelist, addrs) => .placed (newFreelist ++ freelist) addrs
    | .error .assertion => .assertion
    | .error _ => .exhausted []
  | r :: rest, newFreelist =>
    match groupAlloc m g.distance g.entries (r :: rest) [] none with
    | .ok (freelist, addrs) => .placed (newFreelist ++ freelist) addrs
    | .error .assertion => .assertion
    | .error .allocatorException => .exhausted (r :: rest)
    | .error .groupException =>
      if rest.length = 0 then .exhausted [r] else allocLoop m g rest (newFreelist ++ [r])

/-- The whole pages of a region. -/
def wholePages (m : Machine MemType) (r : Region MemType) : Option (Region MemType) :=
  let base := if r.lo % m.minPageSize ≠ 0 then alignUp r.lo m.minPageSize else r.lo
  let last := if (r.hi + 1) % m.minPageSize ≠ 0 then alignDown r.hi m.minPageSize - 1 else r.hi
  if base < last then some ⟨base, last, r.tag⟩ else none

/-- Report the items that have got an address to the tracker. -/
def trackItems : List (Item × ℤ) → Tracker → Except LayoutError Tracker
  | [], t => .ok t
  | (i, addr) :: rest, t => do
    let t ← if i.addr ≠ some addr then t.trackAlloc i.name addr (addr + i.size - 1) else .ok t
    trackItems rest t

/-- The result of `alloc` with the tracker. -/
inductive PoolResult (MemType : Type)
  | placed (a : Allocator MemType) (t : Tracker) (addrs : List ℤ)
  | exhausted (a : Allocator MemType)
  | raised (e : LayoutError)

/-- `Allocator.alloc`. -/
def Allocator.alloc (m : Machine MemType) (g : Group) (a : Allocator MemType) (t : Tracker) :
    PoolResult MemType :=
  match allocLoop m g a.freelist [] with
  | .assertion => .raised .assertion
  | .exhausted freelist => .exhausted { a with freelist := freelist }
  | .placed freelist addrs =>
    match trackItems (g.entries.zip addrs) t with
    | .error e => .raised e
    | .ok t => .placed { a with freelist := freelist.filterMap (wholePages m) } t addrs

end Okl4Kernel.Weaver
