import Mathlib.Algebra.Order.Group.Nat
import Mathlib.Algebra.Order.BigOperators.Group.List
import Okl4Kernel.Weaver.Coverage
import Okl4Kernel.Weaver.Pools

/-!
# What the pools do to the free memory

`Memory.free s x` is the number of free regions, of all pools, that have the address `x`. An
operation on the pools adds memory (`Gains`) or takes it away (`Spends`); a zone that claims a window
takes it from its pool and adds it to itself, and altogether nothing is added.

`Sound` is what keeps the accounts in order: the pools have different names, the free memory of a
pool lies in the memory that it has been given, and the pool of a zone exists.
-/

namespace Okl4Kernel.Weaver

open SpanList Fallible List

variable {MemType : Type}

namespace Memory

variable {marked : Bool} {g : Group} {l : List (Region MemType)} {addrs : List ℤ}
  {m : Machine MemType} {s s' : Memory MemType} {n name pool zone : String} {size : ℕ} {base : ℤ}
  {spent : ℤ → ℕ}

/-- The free list of a pool. -/
def freelist (s : Memory MemType) (name : String) : List (Region MemType) :=
  (s.pool name).allocator.freelist

/-- The memory that a pool has been given. -/
def fulllist (s : Memory MemType) (name : String) : List (Region MemType) :=
  (s.pool name).allocator.fulllist

/-- The number of free regions that have the address. -/
def free (s : Memory MemType) (x : ℤ) : ℕ := (s.names.map fun n => cover (s.freelist n) x).sum

/-- The accounts are in order. -/
structure Sound (s : Memory MemType) : Prop where
  names : s.names.Nodup
  upright : ∀ n ∈ s.names, ∀ r ∈ s.fulllist n, r.Upright
  inside : ∀ n ∈ s.names, ∀ x, 0 < cover (s.freelist n) x → 0 < cover (s.fulllist n) x
  zones : ∀ n ∈ s.names, ∀ z, (s.pool n).zone = some z → ∀ p, z.pool = some p → p ∈ s.names

lemma exists_of_free_pos {x : ℤ} (h : 0 < s.free x) :
    ∃ n ∈ s.names, 0 < cover (s.freelist n) x := by
  by_contra hnone
  have hzero : ∀ k ∈ s.names.map fun n => cover (s.freelist n) x, k = 0 := by
    intro k hk
    obtain ⟨n, hn, rfl⟩ := mem_map.1 hk
    exact Nat.eq_zero_of_not_pos fun hpos => hnone ⟨n, hn, hpos⟩
  rw [free, sum_eq_zero hzero] at h
  exact absurd h (Nat.lt_irrefl 0)

section SetAllocator

variable {a : Allocator MemType} (k : String)

lemma setAllocator_pool :
    (s.setAllocator n a).pool k = if k = n then { s.pool n with allocator := a } else s.pool k :=
  Function.update_apply s.pool n _ k

lemma setAllocator_freelist :
    (s.setAllocator n a).freelist k = if k = n then a.freelist else s.freelist k := by
  rw [freelist, setAllocator_pool]
  split_ifs <;> rfl

lemma setAllocator_fulllist :
    (s.setAllocator n a).fulllist k = if k = n then a.fulllist else s.fulllist k := by
  rw [fulllist, setAllocator_pool]
  split_ifs <;> rfl

lemma setAllocator_zone : ((s.setAllocator n a).pool k).zone = (s.pool k).zone := by
  rw [setAllocator_pool]
  split_ifs with hk
  · rw [hk]
  · rfl

lemma free_setAllocator (hs : s.names.Nodup) (hn : n ∈ s.names) (x : ℤ) :
    (s.setAllocator n a).free x + cover (s.freelist n) x = s.free x + cover a.freelist x :=
  sum_map_update hs hn (fun p : Pool MemType => cover p.allocator.freelist x) s.pool _

end SetAllocator

/-! ## Gains and spendings -/

/-- Memory has been added to pools: `gained` says where. -/
structure Gains (s s' : Memory MemType) (gained : ℤ → ℕ) : Prop where
  names : s'.names = s.names
  free : ∀ x, s'.free x ≤ s.free x + gained x
  full : ∀ n ∈ s.names, ∀ x, 0 < cover (s.fulllist n) x → 0 < cover (s'.fulllist n) x
  full_of : ∀ n ∈ s.names, ∀ x, 0 < cover (s'.fulllist n) x →
    0 < cover (s.fulllist n) x ∨ 0 < gained x
  allocated : s'.allocated = s.allocated

/-- Memory has been taken out of the free lists: `spent` says what. -/
structure Spends (s s' : Memory MemType) (spent : ℤ → ℕ) : Prop where
  names : s'.names = s.names
  free : ∀ x, s'.free x + spent x ≤ s.free x
  full : ∀ n ∈ s.names, ∀ x, 0 < cover (s.fulllist n) x → 0 < cover (s'.fulllist n) x
  full_of : ∀ n ∈ s.names, ∀ x, 0 < cover (s'.fulllist n) x →
    0 < cover (s.fulllist n) x ∨ 0 < s.free x
  mem : ∀ e ∈ s.allocated.mem, e ∈ s'.allocated.mem
  direct : s.allocated.markingDirect = false → s'.allocated.markingDirect = false

/-- Nothing changes for the accounts if the lists of the pools stay as they are. -/
theorem Spends.of_eq (hnames : s'.names = s.names) (hfree : ∀ n, s'.freelist n = s.freelist n)
    (hfull : ∀ n, s'.fulllist n = s.fulllist n) (hmem : ∀ e ∈ s.allocated.mem, e ∈ s'.allocated.mem)
    (hdirect : s.allocated.markingDirect = false → s'.allocated.markingDirect = false) :
    Spends s s' fun _ => 0 where
  names := hnames
  free x := by
    simp only [Memory.free, hnames, hfree]
    exact Nat.le_refl _
  full n _ x hx := by rwa [hfull]
  full_of n _ x hx := .inl (by rwa [hfull] at hx)
  mem := hmem
  direct := hdirect

lemma Spends.trans {s'' : Memory MemType} {spent' : ℤ → ℕ} (h : Spends s s' spent)
    (h' : Spends s' s'' spent') : Spends s s'' fun x => spent x + spent' x where
  names := h'.names.trans h.names
  free x := by
    have hx := h.free x
    have hx' := h'.free x
    omega
  full n hn x hx := h'.full n (h.names.symm ▸ hn) x (h.full n hn x hx)
  full_of n hn x hx := by
    rcases h'.full_of n (h.names.symm ▸ hn) x hx with hfull | hfree
    · exact h.full_of n hn x hfull
    · have hx := h.free x
      right
      omega
  mem e he := h'.mem e (h.mem e he)
  direct hd := h'.direct (h.direct hd)

lemma Spends.trans_gains {s s' s'' : Memory MemType} (h : Spends s s' spent)
    (h' : Gains s' s'' spent) : Spends s s'' fun _ => 0 where
  names := h'.names.trans h.names
  free x := by
    have hx := h.free x
    have hx' := h'.free x
    omega
  full n hn x hx := h'.full n (h.names.symm ▸ hn) x (h.full n hn x hx)
  full_of n hn x hx := by
    have hfree := h.free x
    rcases h'.full_of n (h.names.symm ▸ hn) x hx with hfull | hgained
    · exact h.full_of n hn x hfull
    · right
      omega
  mem e he := by
    rw [h'.allocated]
    exact h.mem e he
  direct hd := by
    rw [h'.allocated]
    exact h.direct hd

/-- A pool whose free list shrinks spends what it loses. -/
theorem spends_setAllocator (hs : s.Sound) (hn : n ∈ s.names) {a : Allocator MemType}
    (hfull : a.fulllist = s.fulllist n)
    (hfree : ∀ x, cover a.freelist x + spent x ≤ cover (s.freelist n) x) :
    (s.setAllocator n a).Sound ∧ Spends s (s.setAllocator n a) spent := by
  have hfulllist (k : String) : (s.setAllocator n a).fulllist k = s.fulllist k := by
    rw [setAllocator_fulllist]
    split_ifs with hk
    · rw [hk, hfull]
    · rfl
  refine ⟨⟨hs.names, fun k hk => ?_, fun k hk x hx => ?_, fun k hk z hz => ?_⟩,
    ⟨rfl, fun x => ?_, fun k _ x hx => ?_, fun k _ x hx => .inl ?_, fun _ he => he, id⟩⟩
  · rw [hfulllist]
    exact hs.upright k hk
  · rw [hfulllist]
    refine hs.inside k hk x ?_
    rw [setAllocator_freelist] at hx
    split_ifs at hx with hkn
    · have hle := hfree x
      rw [hkn]
      omega
    · exact hx
  · rw [setAllocator_zone] at hz
    exact hs.zones k hk z hz
  · have hsum := free_setAllocator (a := a) hs.names hn x
    have hle := hfree x
    omega
  · rwa [hfulllist]
  · rwa [hfulllist] at hx

lemma spends_setFreelist (hs : s.Sound) (hn : n ∈ s.names)
    (hfree : ∀ x, cover l x + spent x ≤ cover (s.freelist n) x) :
    (s.setFreelist n l).Sound ∧ Spends s (s.setFreelist n l) spent :=
  spends_setAllocator hs hn rfl hfree

lemma gains_addMemory (hs : s.Sound) (hn : n ∈ s.names) {size : ℤ} (hsize : 0 ≤ size)
    {memType : MemType} {a : Allocator MemType}
    (h : addMemory m base size memType (s.pool n).allocator = .ok a) : (s.setAllocator n a).Sound ∧
      Gains s (s.setAllocator n a) fun x => if base ≤ x ∧ x ≤ base + size - 1 then 1 else 0 := by
  have hfree := addMemory_freelist h
  obtain ⟨hupright, hfull⟩ := addMemory_fulllist h hsize (hs.upright n hn)
  refine ⟨⟨hs.names, fun k hk => ?_, fun k hk x hx => ?_, fun k hk z hz => ?_⟩,
    ⟨rfl, fun x => ?_, fun k hk x hx => ?_, fun k hk x hx => ?_, rfl⟩⟩
  · rw [setAllocator_fulllist]
    split_ifs with hkn
    · exact hupright
    · exact hs.upright k hk
  · rw [setAllocator_freelist] at hx
    rw [setAllocator_fulllist]
    split_ifs at hx ⊢ with hkn
    · have hle := hfree x
      have hin := hs.inside n hn x
      have heq := hfull x
      simp only [freelist, fulllist] at hin
      omega
    · exact hs.inside k hk x hx
  · rw [setAllocator_zone] at hz
    exact hs.zones k hk z hz
  · have hsum := free_setAllocator (a := a) hs.names hn x
    have hle := hfree x
    simp only [freelist] at hsum
    omega
  · rw [setAllocator_fulllist]
    split_ifs with hkn
    · rw [hfull x]
      rw [hkn] at hx
      exact Nat.lt_of_lt_of_le hx (Nat.le_add_right _ _)
    · exact hx
  · rw [setAllocator_fulllist] at hx
    split_ifs at hx with hkn
    · rw [hfull x] at hx
      rw [hkn]
      simp only [fulllist]
      omega
    · exact .inl hx

/-! ## Changes that leave the lists alone -/

lemma Sound.setAllocated (hs : s.Sound) (t : Tracker) : (s.setAllocated t).Sound :=
  { hs with }

lemma Spends.setAllocated (h : Spends s s' spent) {t : Tracker} (ht : Tracks s'.allocated t) :
    Spends s (s'.setAllocated t) spent :=
  { h with mem := fun e he => ht.mem e (h.mem e he), direct := fun hd => ht.direct (h.direct hd) }

/-- Change the record of a zone. -/
def setZone (s : Memory MemType) (n : String) (z : Option Zone) : Memory MemType :=
  { s with pool := Function.update s.pool n { s.pool n with zone := z } }

lemma setZone_pool (s : Memory MemType) (n k : String) (z : Option Zone) :
    (s.setZone n z).pool k = if k = n then { s.pool n with zone := z } else s.pool k :=
  Function.update_apply s.pool n _ k

lemma setZone_allocator (s : Memory MemType) (n k : String) (z : Option Zone) :
    ((s.setZone n z).pool k).allocator = (s.pool k).allocator := by
  rw [setZone_pool]
  split_ifs with hk
  · rw [hk]
  · rfl

/-- A zone whose pool exists may be recorded. -/
theorem spends_setZone (hs : s.Sound) (n : String) {z : Option Zone}
    (hz : ∀ z', z = some z' → ∀ p, z'.pool = some p → p ∈ s.names) :
    (s.setZone n z).Sound ∧ Spends s (s.setZone n z) fun _ => 0 := by
  have hfree (k : String) : (s.setZone n z).freelist k = s.freelist k :=
    congrArg Allocator.freelist (setZone_allocator s n k z)
  have hfull (k : String) : (s.setZone n z).fulllist k = s.fulllist k :=
    congrArg Allocator.fulllist (setZone_allocator s n k z)
  refine ⟨⟨hs.names, fun k hk => ?_, fun k hk x => ?_, fun k hk z' hz' => ?_⟩,
    .of_eq rfl hfree hfull (fun _ he => he) id⟩
  · rw [hfull]
    exact hs.upright k hk
  · rw [hfree, hfull]
    exact hs.inside k hk x
  · rw [setZone_pool] at hz'
    split_ifs at hz' with hkn
    · exact hz z' hz'
    · exact hs.zones k hk z' hz'

lemma spends_addWindow (hs : s.Sound) (hzone : zone ∈ s.names) (base : ℤ) :
    (s.addWindow zone base).Sound ∧ Spends s (s.addWindow zone base) fun _ => 0 := by
  refine spends_setZone hs zone fun z' hz' p hp => ?_
  obtain ⟨z, hz, rfl⟩ := Option.map_eq_some_iff.1 hz'
  exact hs.zones zone hzone z hz p hp

/-! ## Zones -/

lemma addFree_ok (h : s.addFree m zone l = .ok s') (hs : s.Sound) (hzone : zone ∈ s.names)
    (hl : ∀ r ∈ l, r.Upright) : s'.Sound ∧ Gains s s' (cover l) := by
  induction l generalizing s with
  | nil =>
    cases h
    exact ⟨hs, rfl, fun x => Nat.le_add_right _ _, fun _ _ _ hx => hx, fun _ _ _ hx => .inl hx, rfl⟩
  | cons r rest ih =>
    obtain ⟨a, hadd, h⟩ := bind_eq_ok.1 h
    obtain ⟨hr, hrest⟩ := forall_mem_cons.1 hl
    have hsize : 0 ≤ r.hi - r.lo + 1 := by
      rw [Span.Upright] at hr
      omega
    obtain ⟨hsound, hgains⟩ := gains_addMemory hs hzone hsize hadd
    obtain ⟨hsound', hgains'⟩ := ih h hsound hzone hrest
    have hone (x : ℤ) : (if r.lo ≤ x ∧ x ≤ r.lo + (r.hi - r.lo + 1) - 1 then 1 else 0) =
        if r.Has x then 1 else 0 := by
      have hhi : r.lo + (r.hi - r.lo + 1) - 1 = r.hi := by omega
      rw [hhi]
      rfl
    refine ⟨hsound', hgains'.names.trans hgains.names, fun x => ?_, fun n hn x hx => ?_,
      fun n hn x hx => ?_, hgains'.allocated.trans hgains.allocated⟩
    · have hx := hgains.free x
      have hx' := hgains'.free x
      rw [hone] at hx
      rw [cover_cons]
      omega
    · exact hgains'.full n hn x (hgains.full n hn x hx)
    rw [cover_cons]
    rcases hgains'.full_of n hn x hx with hfull | hrest
    · rcases hgains.full_of n hn x hfull with hold | hnew
      · exact .inl hold
      · rw [hone] at hnew
        right
        omega
    · right
      omega

lemma claimWindow_ok {holes : List (ℤ × ℤ)} (h : s.claimWindow m zone pool base holes = .ok s')
    (hs : s.Sound) (hzone : zone ∈ s.names) (hpool : pool ∈ s.names) :
    s'.Sound ∧ Spends s s' (fun _ => 0) ∧ s'.allocated = s.allocated := by
  obtain ⟨⟨freelist, removed⟩, hwindow, h⟩ := bind_eq_ok.1 h
  obtain ⟨s₁, hadd, h⟩ := bind_eq_ok.1 h
  cases h
  obtain ⟨hcover, hupright⟩ := markWindow_ok hwindow
  obtain ⟨hsound, hspends⟩ := spends_setFreelist hs hpool hcover
  obtain ⟨hsound₁, hgains⟩ := addFree_ok hadd hsound hzone hupright
  obtain ⟨hsound₂, hspends₂⟩ := spends_addWindow hsound₁ (hgains.names ▸ hzone) base
  exact ⟨hsound₂, (hspends.trans_gains hgains).trans hspends₂, hgains.allocated⟩

lemma primeLoop_ok {ranges : List (ℤ × ℤ)} {holeBase : Option ℤ} {holes : List (ℤ × ℤ)}
    (h : s.primeLoop m zone pool ranges holeBase holes = .ok s') (hs : s.Sound)
    (hzone : zone ∈ s.names) (hpool : pool ∈ s.names) :
    s'.Sound ∧ Spends s s' (fun _ => 0) ∧ s'.allocated = s.allocated := by
  induction ranges generalizing holeBase holes s with
  | nil =>
    rcases holeBase with _ | base
    · cases h
      exact ⟨hs, .of_eq rfl (fun _ => rfl) (fun _ => rfl) (fun _ he => he) id, rfl⟩
    · exact claimWindow_ok h hs hzone hpool
  | cons range ranges ih =>
    rcases holeBase with _ | base
    · exact ih h hs hzone hpool
    rw [primeLoop] at h
    split_ifs at h
    · exact ih h hs hzone hpool
    · obtain ⟨s₁, hclaim, h⟩ := bind_eq_ok.1 h
      obtain ⟨hs₁, hspends, hallocated⟩ := claimWindow_ok hclaim hs hzone hpool
      obtain ⟨hs', hspends', hallocated'⟩ :=
        ih h hs₁ (hspends.names.symm ▸ hzone) (hspends.names.symm ▸ hpool)
      exact ⟨hs', hspends.trans hspends', hallocated'.trans hallocated⟩

/-- Priming a zone moves memory from its pool to it. -/
theorem prime_ok {ranges : List (ℤ × ℤ)} (h : s.prime m zone pool ranges = .ok s') (hs : s.Sound) :
    s'.Sound ∧ Spends s s' (fun _ => 0) ∧ s'.allocated = s.allocated := by
  rw [prime] at h
  split_ifs at h with hzone hpool
  have hset := spends_setZone hs zone
    (z := (s.pool zone).zone.map fun z => { z with pool := some pool }) fun z' hz' p hp => by
      obtain ⟨z, -, rfl⟩ := Option.map_eq_some_iff.1 hz'
      cases hp
      exact hpool
  obtain ⟨hs', hspends, hallocated⟩ := primeLoop_ok h hset.1 hzone.1 hpool
  exact ⟨hs', hset.2.trans hspends, hallocated⟩

/-! ## Allocations -/

/-- What an allocation does: the objects are taken out of the free memory, they lie in memory of
the pool, and the tracker has an entry for each of them. -/
structure Places (name : String) (g : Group) (s s' : Memory MemType) (addrs : List ℤ) : Prop where
  sound : s'.Sound
  spends : Spends s s' (cover (objects name g.entries addrs))
  inside : ∀ x, 0 < cover (objects name g.entries addrs) x → 0 < cover (s'.fulllist name) x
  zone : ((∃ i ∈ g.entries, i.addr = none) ∨ s.allocated.markingZone = false) →
    s'.allocated.markingZone = false
  entry : s.allocated.markingZone = false → ∀ o ∈ objects name g.entries addrs,
    ∃ e ∈ s'.allocated.mem, e.lo = o.lo ∧ e.hi = o.hi

lemma allocOnce_placed (h : s.allocOnce m name g = .placed s' addrs) (hs : s.Sound)
    (hname : name ∈ s.names) : Places name g s s' addrs := by
  rw [allocOnce] at h
  split at h
  · next a t addrs' halloc =>
    cases h
    obtain ⟨hfull, hcover, htracks, hzone, hentry⟩ := alloc_placed name halloc
    obtain ⟨hsound, hspends⟩ := spends_setAllocator hs hname hfull hcover
    refine ⟨hsound.setAllocated t, hspends.setAllocated htracks, fun x hx => ?_,
      fun hor => hor.elim hzone htracks.zone, hentry⟩
    refine hspends.full name hname x (hs.inside name hname x ?_)
    exact Nat.lt_of_lt_of_le hx ((Nat.le_add_left _ _).trans (hcover x))
  · cases h
  · cases h

lemma allocOnce_exhausted (h : s.allocOnce m name g = .exhausted s') (hs : s.Sound)
    (hname : name ∈ s.names) :
    s'.Sound ∧ Spends s s' (fun _ => 0) ∧ s'.allocated = s.allocated := by
  rw [allocOnce] at h
  split at h
  · cases h
  · next a halloc =>
    cases h
    obtain ⟨hfull, hcover⟩ := alloc_exhausted halloc
    have hzero : ∀ x, cover a.freelist x + 0 ≤ cover (s.freelist name) x := hcover
    obtain ⟨hsound, hspends⟩ := spends_setAllocator hs hname hfull hzero
    exact ⟨hsound, hspends, rfl⟩
  · cases h

/-- After something has been spent, the objects of an allocation come on top of it. -/
theorem Places.of_spends {s₁ : Memory MemType} (h : Spends s s₁ fun _ => 0)
    (hzone : s₁.allocated.markingZone = false) (hplaces : Places name g s₁ s' addrs) :
    Places name g s s' addrs where
  __ := hplaces
  spends := by
    have hspends := h.trans hplaces.spends
    simpa only [Nat.zero_add] using hspends
  zone _ := hplaces.zone (.inr hzone)
  entry _ := hplaces.entry hzone

/-- A zone that has been given a window allocates from what it has then. -/
theorem allocAgain_placed {addr : ℤ} {s₀ : Memory MemType}
    (h : s.allocAgain m name g addr = .placed s' addrs) (hs : s.Sound) (hname : name ∈ s.names)
      (hwindow : Spends s₀ s (cover [(⟨addr, addr + windowSize - 1, some pool⟩ : Span (Option
      String))])) (hzone : s.allocated.markingZone = false) : Places name g s₀ s' addrs := by
  rw [allocAgain] at h
  split at h
  · cases h
  next a hadd =>
  obtain ⟨hsound, hgains⟩ := gains_addMemory hs hname (Int.natCast_nonneg _) hadd
  have hgains' : Gains s (s.setAllocator name a)
      (cover [(⟨addr, addr + windowSize - 1, some pool⟩ : Span (Option String))]) := by
    convert hgains using 2
    rw [cover_cons, cover_nil, Nat.zero_add]
    rfl
  obtain ⟨hsound', hspends⟩ := spends_addWindow hsound hname addr
  exact (allocOnce_placed h hsound' hname).of_spends
    ((hwindow.trans_gains hgains').trans hspends) hzone

lemma allocIn_placed {depth : ℕ} (h : s.allocIn m depth name g = .placed s' addrs) (hs : s.Sound)
    (hname : name ∈ s.names) : Places name g s s' addrs := by
  induction depth generalizing name g s s' addrs with
  | zero => cases h
  | succ depth ih =>
    rw [allocIn] at h
    split at h
    · next halloc =>
      cases h
      exact allocOnce_placed halloc hs hname
    · cases h
    next s₁ halloc =>
    obtain ⟨hs₁, hspends₁, hallocated₁⟩ := allocOnce_exhausted halloc hs hname
    have hname₁ : name ∈ s₁.names := hspends₁.names.symm ▸ hname
    split at h
    · cases h
    next zone hzone =>
    split at h
    · cases h
    next pool hpool =>
    have hpool₁ : pool ∈ s₁.names := hs₁.zones name hname₁ zone hzone pool hpool
    split at h
    · next s₂ addr rest hwindow =>
      have hplaces := ih hwindow (hs₁.setAllocated _) hpool₁
      have hflag : s₂.allocated.markingZone = false :=
        hplaces.zone (.inl ⟨windowItem name, mem_singleton_self _, rfl⟩)
      have hspends : Spends s s₂ (cover [(⟨addr, addr + windowSize - 1, some pool⟩ :
          Span (Option String))]) := by
        have hset : Spends s₁ (s₁.setAllocated { s₁.allocated with markingZone := true })
            fun _ => 0 := .of_eq rfl (fun _ => rfl) (fun _ => rfl) (fun _ he => he) id
        have hobject : objects pool [windowItem name] (addr :: rest) =
            [⟨addr, addr + windowSize - 1, some pool⟩] := rfl
        have htrans := (hspends₁.trans hset).trans hplaces.spends
        simpa only [Nat.zero_add, hobject] using htrans
      exact allocAgain_placed h hplaces.sound (hspends.names.symm ▸ hname) hspends hflag
    · cases h
    · cases h
    · cases h

lemma alloc_ok {depth : ℕ} (h : s.alloc m depth name g = .ok (s', addrs)) (hs : s.Sound) :
    name ∈ s.names ∧ Places name g s s' addrs := by
  rw [alloc] at h
  split_ifs at h with hname
  split at h
  · next halloc =>
    cases h
    exact ⟨hname, allocIn_placed halloc hs hname⟩
  · cases h
  · cases h

/-! ## Reservations -/

/-- What a reservation does to the pools that it goes through. -/
structure Reserves (base last : ℤ) (ns : List String) (s s' : Memory MemType) (marked : Bool) :
    Prop where
  sound : s'.Sound
  spends : Spends s s' fun _ => 0
  other : ∀ n, n ∉ ns → s'.freelist n = s.freelist n
  cleared : ∀ n ∈ ns, ∀ x, base ≤ x → x ≤ last → cover (s'.freelist n) x = 0
  marked_iff : marked = true ↔ ∃ n ∈ ns, ∃ r ∈ s.freelist n, Meets base last r
  tracks : Tracks s.allocated s'.allocated
  entry : marked = true → s.allocated.markingDirect = false →
    ∃ e ∈ s'.allocated.mem, e.lo = base ∧ e.hi = last
  noConflict : marked = true → s.allocated.markingDirect = false →
    ∀ e ∈ s.allocated.mem, Tracker.conflicts base last true e = false

lemma reserves_pool {last : ℤ} {t : Tracker} (hs : s.Sound) (hn : n ∈ s.names)
    (h : Marks base last (s.freelist n) l s.allocated t marked) :
    Reserves base last [n] s ((s.setFreelist n l).setAllocated t) marked := by
  have hcover : ∀ x, cover l x + 0 ≤ cover (s.freelist n) x := by
    intro x
    have hx := h.free x
    split_ifs at hx <;> omega
  obtain ⟨hsound, hspends⟩ := spends_setFreelist hs hn hcover
  have hlist (k : String) : ((s.setFreelist n l).setAllocated t).freelist k =
      if k = n then l else s.freelist k := setAllocator_freelist k
  refine ⟨hsound.setAllocated t, hspends.setAllocated h.tracks, fun k hk => ?_,
    fun k hk x hbase hlast => ?_, ?_, h.tracks, h.entry, h.noConflict⟩
  · rw [hlist, if_neg fun heq => hk (mem_singleton.2 heq)]
  · rw [hlist, if_pos (mem_singleton.1 hk)]
    have hx := h.free x
    rw [if_pos ⟨hbase, hlast⟩] at hx
    omega
  · rw [h.marked_iff]
    simp

lemma markPools_ok {policy : ℕ} {ns : List String}
    (h : s.markPools m base size policy ns = .ok (marked, s')) (hs : s.Sound) (hns : ns.Nodup)
    (hsub : ∀ n ∈ ns, n ∈ s.names) :
    Reserves (markBase m base) (markEnd m base size) ns s s' marked := by
  induction ns generalizing s marked with
  | nil =>
    cases h
    exact ⟨hs, .of_eq rfl (fun _ => rfl) (fun _ => rfl) (fun _ he => he) id, fun _ _ => rfl, nofun,
      by simp, .refl _, nofun, nofun⟩
  | cons n ns ih =>
    obtain ⟨⟨marked₁, l, t⟩, hmark, h⟩ := bind_eq_ok.1 h
    obtain ⟨⟨marked₂, s₂⟩, hrest, h⟩ := bind_eq_ok.1 h
    cases h
    obtain ⟨hn, hnodup⟩ := nodup_cons.1 hns
    obtain ⟨hmem, hsub'⟩ := forall_mem_cons.1 hsub
    obtain ⟨-, hmarks⟩ := mark_ok hmark
    have hfirst := reserves_pool hs hmem hmarks
    have hlater := ih hrest hfirst.sound hnodup hsub'
    have hsame : ∀ k ∈ ns, ((s.setFreelist n l).setAllocated t).freelist k = s.freelist k :=
      fun k hk => hfirst.other k fun hkn => hn (mem_singleton.1 hkn ▸ hk)
    refine ⟨hlater.sound, hfirst.spends.trans hlater.spends, fun k hk => ?_,
      fun k hk x hbase hlast => ?_, ?_, hfirst.tracks.trans hlater.tracks, fun hor hdirect => ?_,
      fun hor hdirect => ?_⟩
    · obtain ⟨hkn, hkns⟩ := not_or.1 fun hor => hk (mem_cons.2 hor)
      rw [hlater.other k hkns, hfirst.other k fun hkn' => hkn (mem_singleton.1 hkn')]
    · rcases mem_cons.1 hk with rfl | hk
      · rw [hlater.other k hn]
        exact hfirst.cleared k (mem_singleton_self k) x hbase hlast
      · exact hlater.cleared k hk x hbase hlast
    · rw [Bool.or_eq_true, hmarks.marked_iff, hlater.marked_iff]
      constructor
      · rintro (⟨r, hr, hmeets⟩ | ⟨k, hk, r, hr, hmeets⟩)
        · exact ⟨n, mem_cons_self, r, hr, hmeets⟩
        · rw [hsame k hk] at hr
          exact ⟨k, mem_cons_of_mem n hk, r, hr, hmeets⟩
      · rintro ⟨k, hk, r, hr, hmeets⟩
        rcases mem_cons.1 hk with rfl | hk
        · exact .inl ⟨r, hr, hmeets⟩
        · rw [← hsame k hk] at hr
          exact .inr ⟨k, hk, r, hr, hmeets⟩
    · cases hmarked : marked₁ with
      | true =>
        obtain ⟨e, he, hlo, hhi⟩ := hmarks.entry hmarked hdirect
        exact ⟨e, hlater.tracks.mem e he, hlo, hhi⟩
      | false =>
        rw [hmarked, Bool.false_or] at hor
        exact hlater.entry hor (hmarks.tracks.direct hdirect)
    · cases hmarked : marked₁ with
      | true => exact hmarks.noConflict hmarked hdirect
      | false =>
        rw [hmarked, Bool.false_or] at hor
        have hconflict := hlater.noConflict hor (hmarks.tracks.direct hdirect)
        rw [setAllocated, hmarks.unmarked hmarked] at hconflict
        exact hconflict

/-- `mark_virtual` and `mark_physical` go through all pools. -/
theorem mark_reserves {rangeName : String} {policy : ℕ}
    (h : s.mark m rangeName base size policy = .ok (marked, s')) (hs : s.Sound) :
    Reserves (markBase m base) (markEnd m base size) s.names s s' marked := by
  obtain ⟨⟨marked', s₁⟩, hpools, h⟩ := bind_eq_ok.1 h
  have hreserves := markPools_ok hpools (hs.setAllocated _) hs.names fun _ hn => hn
  have hsame : marked' = marked ∧ s₁ = s' := by
    dsimp only at h
    split_ifs at h with hmarked
    · cases h
      exact ⟨hmarked, rfl⟩
    · obtain ⟨u, -, h⟩ := bind_eq_ok.1 h
      cases h
      exact ⟨Bool.eq_false_iff.2 hmarked, rfl⟩
  obtain ⟨rfl, rfl⟩ := hsame
  exact { hreserves with
    spends := { hreserves.spends with }
    tracks := { hreserves.tracks with } }

/-- `remove_virtual` clears the range if one pool alone has something of it. -/
theorem removeFrom_ok {ns : List String} (h : s.removeFrom m base size ns = .ok s') (hs : s.Sound)
    (hns : ns.Nodup) (hsub : ∀ n ∈ ns, n ∈ s.names) (hn : n ∈ ns)
    (hmeets : ∃ r ∈ s.freelist n, Meets (markBase m base) (markEnd m base size) r) (hother : ∀ k ∈
      ns, k ≠ n → ∀ r ∈ s.freelist k, ¬ Meets (markBase m base) (markEnd m base size) r) :
    s'.Sound ∧ Spends s s' (fun _ => 0) ∧ (∀ k, k ∉ ns → s'.freelist k = s.freelist k) ∧
      (∀ k ∈ ns, ∀ x, markBase m base ≤ x → x ≤ markEnd m base size →
        cover (s'.freelist k) x = 0) ∧
      s'.allocated.markingDirect = false ∧
      (s.allocated.markingZone = false → s'.allocated.markingZone = false) := by
  induction ns generalizing s with
  | nil => exact absurd hn not_mem_nil
  | cons k ns ih =>
    obtain ⟨⟨marked, l, t⟩, hmark, h⟩ := bind_eq_ok.1 h
    obtain ⟨hknotin, hnodup⟩ := nodup_cons.1 hns
    obtain ⟨hk, hsub'⟩ := forall_mem_cons.1 hsub
    obtain ⟨hkother, hother'⟩ := forall_mem_cons.1 hother
    obtain ⟨-, hmarks⟩ := mark_ok hmark
    have hreserves := reserves_pool hs hk hmarks
    have hsame : ∀ j ∈ ns, ((s.setFreelist k l).setAllocated t).freelist j = s.freelist j :=
      fun j hj => hreserves.other j fun hjk => hknotin (mem_singleton.1 hjk ▸ hj)
    dsimp only at h
    split_ifs at h with hmarked
    · cases h
      have hkn : k = n := by
        by_contra hne
        obtain ⟨r, hr, hmeets⟩ := hmarks.marked_iff.1 hmarked
        exact hkother hne r hr hmeets
      subst hkn
      refine ⟨hreserves.sound, hreserves.spends, fun j hj => hreserves.other j fun hjk =>
          hj (mem_singleton.1 hjk ▸ mem_cons_self),
        fun j hmem x hbase hlast => ?_, hmarks.direct hmarked, hmarks.tracks.zone⟩
      rcases mem_cons.1 hmem with rfl | hj
      · exact hreserves.cleared j (mem_singleton_self j) x hbase hlast
      · have hjk : j ≠ k := fun heq => hknotin (heq ▸ hj)
        rw [hsame j hj, cover_eq_zero_iff]
        exact fun r hr => not_has_of_not_meets (hother' j hj hjk r hr) hbase hlast
    · -- The pool has nothing of the range, so it is not the one that is looked for.
      have hne : n ≠ k := by
        rintro rfl
        exact hmarked (hmarks.marked_iff.2 hmeets)
      have hnmem : n ∈ ns := (mem_cons.1 hn).resolve_left hne
      obtain ⟨hsound, hspends, hrest, hcleared, hdirect, hzone⟩ := ih h hreserves.sound hnodup hsub' hnmem
        (by rwa [hsame n hnmem])
        (fun j hj hjn => by rw [hsame j hj]; exact hother' j hj hjn)
      refine ⟨hsound, hreserves.spends.trans hspends, fun j hj => ?_,
        fun j hmem x hbase hlast => ?_, hdirect,
        fun hfalse => hzone (hmarks.tracks.zone hfalse)⟩
      · obtain ⟨hjk, hjns⟩ := not_or.1 fun hor => hj (mem_cons.2 hor)
        rw [hrest j hjns, hreserves.other j fun hmem => hjk (mem_singleton.1 hmem)]
      · rcases mem_cons.1 hmem with rfl | hj
        · rw [hrest j hknotin]
          exact hreserves.cleared j (mem_singleton_self j) x hbase hlast
        · exact hcleared j hj x hbase hlast

end Memory

end Okl4Kernel.Weaver
