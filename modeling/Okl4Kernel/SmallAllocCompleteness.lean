import Okl4Kernel.SmallAllocInvariant

/-!
# The small-object allocator finds its free objects

`first_free` should be the first block of the list that has a free object, so that the heap is asked
for a block only when all blocks are full. `free` keeps this by comparing identifiers, and
`allocate` by searching from `first_free` to the end of the list. Both are right as long as the
list is in the order of the identifiers, which is a part of the invariant of the allocator.

A block that fills a gap is put behind a block with a greater identifier. When both have a free
object, `first_free` is the second one of the list, and when this one is full, the search does not
come back to the first one (`allocate_misses_free_object`).
-/

namespace Okl4Kernel.SmallAlloc

open WordBitmap TransitionSystem Option List Client

namespace Client

/-- All objects of a block are in use. -/
def IsFull (s : Client) (b : Block) : Prop :=
  ∀ i < s.pool.capacity b.id, b.base + i * s.pool.objSize ∈ s.live

instance (s : Client) (b : Block) : Decidable (s.IsFull b) :=
  inferInstanceAs (Decidable (∀ i < _, _))

/-- The pool knows where its free objects are. -/
structure Complete (s : Client) : Prop where
  /-- `first_free` is null exactly if every block is full. -/
  none_iff : s.pool.firstFree = none ↔ ∀ b ∈ s.pool.blocks, s.IsFull b
  /-- Otherwise it is the first block of the list that is not full. -/
  first : ∀ base, s.pool.firstFree = some base → ∃ before b after,
    s.pool.blocks = before ++ b :: after ∧ b.base = base ∧ ¬ s.IsFull b ∧ ∀ c ∈ before, s.IsFull c
  /-- If a block is not full, an object is handed out, and it does not matter what the heap would
  give. -/
  allocate : (∃ b ∈ s.pool.blocks, ¬ s.IsFull b) → ∀ m,
    (s.pool.allocate m).2.isSome ∧ s.pool.allocate m = s.pool.allocate none

end Client

namespace Inv

variable {s : Client} {b : Block}

lemma isFull_iff (h : Inv s) (hb : b ∈ s.pool.blocks) : s.IsFull b ↔ s.pool.hasFree b = false := by
  rw [← Bool.not_eq_true, h.hasFree_iff hb, Client.IsFull]
  push Not
  rfl

lemma firstFree_eq_none_iff (h : Inv s) :
    s.pool.firstFree = none ↔ ∀ b ∈ s.pool.blocks, s.IsFull b := by
  rw [h.first, Pool.freeFromHead, map_eq_none_iff, find?_eq_none]
  refine forall₂_congr fun b hb => ?_
  rw [h.isFull_iff hb, Bool.not_eq_true]

/-- A pool whose number of objects is limited has not reached the limit when an object is free: the
identifiers of the objects in use and of the free one are different and below the limit. -/
lemma num_lt_maxObjs (h : Inv s) (hb : b ∈ s.pool.blocks) (hfull : ¬ s.IsFull b)
    (hmax : s.pool.maxObjs ≠ 0) : s.pool.num < s.pool.maxObjs := by
  rw [Client.IsFull] at hfull
  push Not at hfull
  obtain ⟨i, hi, hfree⟩ := hfull
  have hobject : ∀ a ∈ (b.base + i * s.pool.objSize) :: s.live,
      ∃ c ∈ s.pool.blocks, ∃ j < s.pool.capacity c.id, a = c.base + j * s.pool.objSize :=
    forall_mem_cons.2 ⟨⟨b, hb, i, hi, rfl⟩, h.mem_live⟩
  have hmaps : Set.MapsTo (fun a => (s.pool.id a).getD 0)
      ((b.base + i * s.pool.objSize) :: s.live).toFinset (Finset.range s.pool.maxObjs) := by
    intro a ha
    obtain ⟨c, hc, j, hj, rfl⟩ := hobject a (mem_toFinset.1 ha)
    have hid := h.id_object hc (Pool.lt_objs hj)
    rw [Pool.capacity, if_neg hmax] at hj
    refine Finset.mem_coe.2 (Finset.mem_range.2 ?_)
    show (s.pool.id _).getD 0 < _
    rw [hid, getD_some]
    omega
  have hinj : Set.InjOn (fun a => (s.pool.id a).getD 0)
      ((b.base + i * s.pool.objSize) :: s.live).toFinset := by
    intro a ha a' ha' heq
    obtain ⟨c, hc, j, hj, rfl⟩ := hobject a (mem_toFinset.1 ha)
    obtain ⟨d, hd, k, hk, rfl⟩ := hobject a' (mem_toFinset.1 ha')
    have hj' := Pool.lt_objs hj
    have hk' := Pool.lt_objs hk
    have hid : s.pool.id (c.base + j * s.pool.objSize) =
        s.pool.id (d.base + k * s.pool.objSize) := by
      dsimp only at heq
      rw [h.id_object hc hj', h.id_object hd hk', getD_some, getD_some] at heq
      rw [h.id_object hc hj', h.id_object hd hk', heq]
    obtain ⟨rfl, rfl⟩ := h.object_id_inj hc hd hj' hk' hid
    rfl
  have hcard := Finset.card_le_card_of_injOn _ hmaps hinj
  rw [Finset.card_range, toFinset_card_of_nodup (nodup_cons.2 ⟨hfree, h.nodup⟩),
    length_cons, ← h.num] at hcard
  exact hcard

/-- `allocate` takes a free object if there is one. -/
lemma allocate_eq (h : Inv s) (hb : b ∈ s.pool.blocks) (hfull : ¬ s.IsFull b)
    (m : Option BlockMemory) :
    ∃ c, s.pool.allocate m = ((s.pool.takeObject c).1, some (s.pool.takeObject c).2) ∧
      s.pool.firstFree.bind s.pool.blockAt = some c := by
  obtain ⟨base, hff⟩ : ∃ base, s.pool.firstFree = some base :=
    ne_none_iff_exists'.1 fun hnone => hfull (h.firstFree_eq_none_iff.1 hnone b hb)
  obtain ⟨c, hc, -⟩ := h.takeObject hff
  have hlimit : ¬ (s.pool.maxObjs ≠ 0 ∧ s.pool.maxObjs ≤ s.pool.num) := by
    rintro ⟨hmax, hle⟩
    exact absurd (h.num_lt_maxObjs hb hfull hmax) (not_lt.2 hle)
  refine ⟨c, ?_, by rw [hff, bind_some, hc]⟩
  rw [Pool.allocate, if_neg hlimit]
  simp only [hff, bind_some, hc]

lemma complete (h : Inv s) : s.Complete where
  none_iff := h.firstFree_eq_none_iff
  first := by
    intro base hff
    obtain ⟨b, hfind, rfl⟩ := map_eq_some_iff.1 (h.first.symm.trans hff)
    have hb := mem_of_find?_eq_some hfind
    obtain ⟨hfree, before, after, hsplit, hbefore⟩ := find?_eq_some_iff_append.1 hfind
    refine ⟨before, b, after, hsplit, rfl, ?_, fun c hc => ?_⟩
    · rw [h.isFull_iff hb, hfree]
      exact Bool.true_eq_false_eq_False
    · have hmem : c ∈ s.pool.blocks := by
        rw [hsplit]
        exact mem_append_left _ hc
      rw [h.isFull_iff hmem]
      simpa using hbefore c hc
  allocate := by
    rintro ⟨b, hb, hfull⟩ m
    obtain ⟨c, heq, hc⟩ := h.allocate_eq hb hfull m
    obtain ⟨d, hnone, hd⟩ := h.allocate_eq hb hfull none
    obtain rfl := Option.some.inj (hc.symm.trans hd)
    rw [heq, hnone]
    exact ⟨rfl, rfl⟩

end Inv

/-- In every run in which the memory of new blocks is as `allocate_block` needs it, `first_free` is
the first block of the list with a free object, and `allocate` asks the heap for a block only if
there is none. -/
theorem firstFree_complete {objectSize maxObjects : ℕ} (hsize : Suitable objectSize) {ops : List Op}
    (hmeets : RunMeets step Client.Meets (init objectSize maxObjects) ops)
    {s : Client} (hrun : run step (init objectSize maxObjects) ops = some s) : s.Complete := by
  have hinv : Inv s := RunMeets.invariant (fun _ _ _ h hok hstep => h.step hok hstep) hmeets
    (Inv.init hsize maxObjects) hrun
  exact hinv.complete

/-- With blocks of two objects, an object of the first one of two full blocks is freed. -/
theorem firstFree_complete_two : ∃ s, run step (init 2000 0)
    [.allocate (some (zeroMemory 0)), .allocate none, .allocate (some (zeroMemory 4096)),
      .allocate none, .free 2000] = some s ∧ s.live = [4096, 6096, 0] ∧ s.Complete := by
  exact exists_run (Q := fun s => s.live = [4096, 6096, 0]) (by decide +kernel) fun s hrun hlive =>
    ⟨hlive, firstFree_complete (by decide +kernel) (by decide +kernel) hrun⟩

/-- The block at 4096 goes back to the heap, and comes back behind the block at 8192, which has a
greater identifier. An object of each of the two is freed, and one is allocated. Then `first_free`
is null and no object is handed out, but the object at 8192 is free. -/
theorem allocate_misses_free_object : ∃ s, run step (init 2000 0)
    [.allocate (some (zeroMemory 0)), .allocate none, .allocate (some (zeroMemory 4096)),
      .allocate none, .allocate (some (zeroMemory 8192)), .allocate none, .free 4096, .free 6096,
      .allocate (some (zeroMemory 4096)), .allocate none, .free 8192, .free 4096,
      .allocate none] = some s ∧
      s.pool.firstFree = none ∧ (s.pool.allocate none).2 = none ∧
      ∃ b ∈ s.pool.blocks, ¬ s.IsFull b := by
  exact exists_run (by decide +kernel) fun _ _ hview => hview

end Okl4Kernel.SmallAlloc
