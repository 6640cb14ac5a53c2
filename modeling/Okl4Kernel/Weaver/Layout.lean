import Mathlib.Data.List.Pairwise
import Okl4Kernel.Lib.TransitionSystem
import Okl4Kernel.Weaver.Accounts

/-!
# The layout of an image

No two objects of an image should overlap, except that a reservation may repeat an earlier one, and
every object that is placed by the allocator should lie in memory that its pool has been given
(`Safe`). Virtual reservations outside of all pools, such as those of the kernel, do not count.

The checks of elfweaver do not ensure this for every sequence of operations:

* `mark` leaves out the page of the last byte of a range if that byte is the first of its page;
* `__check` does not find an entry that lies strictly inside the new range, and takes a reservation
  for the repetition of an object if it coincides with the pages of that object;
* a reservation that meets no free memory is not recorded;
* `add_memory` does not find a region that lies strictly inside the new one, and memory may be added
  where an object has been reserved before;
* `remove_virtual` goes only to the first pool, and a mark that no pool has used up is taken for the
  next reservation.

`Careful` excludes these cases, and `layout_safe` says that there are no others.
-/

namespace Okl4Kernel.Weaver

open SpanList Fallible TransitionSystem Function List Memory

variable {MemType : Type}
variable {m : Machine MemType} {s : Memory MemType} {o : Span (Option String)} {name : String}
  {size : ℕ} {base x : ℤ}

/-- The two kinds of memory. -/
inductive Kind
  | virtual
  | physical
  deriving DecidableEq

/-- The pools of one kind, and the objects that have been placed in memory of this kind. An object
that the allocator has placed is tagged with its pool, and a reservation is not. -/
structure Side (MemType : Type) where
  memory : Memory MemType
  placed : List (Span (Option String))

/-- The operations on the pools of one kind. -/
inductive Op (MemType : Type)
  | newPool (name : String) (isZone : Bool)
  | addMemory (name : String) (base : ℤ) (size : ℕ) (memType : MemType)
  | addDirectMemory (base : ℤ) (size : ℕ) (memType : MemType)
  | mark (name : String) (base : ℤ) (size : ℕ) (policy : ℕ)
  | prime (zone pool : String) (ranges : List (ℤ × ℤ))
  | alloc (name : String) (g : Group)

/-- The object at a range that is reserved. -/
def reservation (base : ℤ) (size : ℕ) : Span (Option String) := ⟨base, base + size - 1, none⟩

/-- Perform an operation on the pools of one kind. -/
def Side.step (m : Machine MemType) (depth : ℕ) (d : Side MemType) :
    Op MemType → Except LayoutError (Side MemType)
  | .newPool name isZone => do
    let s ← d.memory.newPool name (if isZone then some ⟨none, []⟩ else none)
    .ok { d with memory := s }
  | .addMemory name base size memType => do
    let s ← d.memory.addPoolMemory m name base size memType
    .ok { d with memory := s }
  | .addDirectMemory base size memType => do
    let s ← d.memory.addDirectMemory m base size memType
    .ok { d with memory := s }
  | .mark name base size policy => do
    let (_, s) ← d.memory.mark m name base size policy
    .ok { memory := s, placed := reservation base size :: d.placed }
  | .prime zone pool ranges => do
    let s ← d.memory.prime m zone pool ranges
    .ok { d with memory := s }
  | .alloc name g => do
    let (s, addrs) ← d.memory.alloc m depth name g
    .ok { memory := s, placed := objects name g.entries addrs ++ d.placed }

/-- The pools of both kinds. -/
abbrev Layout (MemType : Type) := Kind → Side MemType

/-- Perform an operation. An exception ends the run. -/
def step (m : Machine MemType) (depth : ℕ) (l : Layout MemType) (a : Kind × Op MemType) :
    Option (Layout MemType) :=
  ((l a.1).step m depth a.2).toOption.map fun d => update l a.1 d

/-- A tracker with no entries. -/
def Tracker.empty (title : String) : Tracker := ⟨title, [], "unknown", false, false⟩

/-- There are no pools at the beginning. -/
def start : Layout MemType := fun k =>
  { memory :=
      { names := []
        pool := fun _ => ⟨⟨[], []⟩, none⟩
        poolMem := .empty (match k with | .virtual => "Virtual Pools" | .physical => "Physical Pools")
        allocated := .empty
          (match k with | .virtual => "Virtual Memory" | .physical => "Physical Memory") }
    placed := [] }

/-- The object has a byte in memory of a pool. -/
def InPools (s : Memory MemType) (o : Span (Option String)) : Prop :=
  ∃ n ∈ s.names, ∃ x, o.Has x ∧ 0 < cover (s.fulllist n) x

/-- Two objects may be in the image together: they have no byte in common, one is the repetition of
the other, or they are virtual and one of them is outside of the pools. -/
def Compatible (k : Kind) (s : Memory MemType) (o o' : Span (Option String)) : Prop :=
  (∀ x, o.Has x → ¬ o'.Has x) ∨ (o.tag = none ∧ o'.tag = none ∧ o.lo = o'.lo ∧ o.hi = o'.hi) ∨
    (k = .virtual ∧ (¬ InPools s o ∨ ¬ InPools s o'))

/-- The layout is safe. -/
structure Safe (k : Kind) (d : Side MemType) : Prop where
  apart : d.placed.Pairwise (Compatible k d.memory)
  inside : ∀ o ∈ d.placed, ∀ n, o.tag = some n →
    n ∈ d.memory.names ∧ ∀ x, o.Has x → 0 < cover (d.memory.fulllist n) x

/-- The last byte of the range is not the first byte of a page, or is the only one. -/
def LastPageTaken (m : Machine MemType) (base : ℤ) (size : ℕ) : Prop :=
  size = 1 ∨ (base + size - 1) % m.minPageSize ≠ 0

/-- A free region of the pool has something in common with the pages of the range. -/
def MeetsPool (m : Machine MemType) (s : Memory MemType) (base : ℤ) (size : ℕ) (n : String) :
    Prop :=
  ∃ r ∈ s.freelist n, Meets (markBase m base) (markEnd m base size) r

instance (m : Machine MemType) (base : ℤ) (size : ℕ) : Decidable (LastPageTaken m base size) :=
  inferInstanceAs (Decidable (_ ∨ _))

instance (m : Machine MemType) (s : Memory MemType) (base : ℤ) (size : ℕ) (n : String) :
    Decidable (MeetsPool m s base size n) :=
  inferInstanceAs (Decidable (∃ r ∈ s.freelist n, Meets (markBase m base) (markEnd m base size) r))

/-- What has to hold for an operation to be safe. -/
def Careful (m : Machine MemType) (k : Kind) (d : Side MemType) : Op MemType → Prop
  -- Memory is added once, and before something is placed in it.
  | .addMemory _ base size _ =>
    (∀ n ∈ d.memory.names, ∀ r ∈ d.memory.fulllist n, r.Apart (reservation base size)) ∧
      ∀ o ∈ d.placed, o.Apart (reservation base size)
  -- Direct memory is taken from one pool, and nothing has been placed in it.
  | .addDirectMemory base size _ =>
    LastPageTaken m base size ∧ (∃ n ∈ d.memory.names, MeetsPool m d.memory base size n ∧
        ∀ n' ∈ d.memory.names, n' ≠ n → ¬ MeetsPool m d.memory base size n') ∧
      ∀ o ∈ d.placed, o.Apart (reservation base size)
  -- A reservation repeats an earlier one, or its pages have free memory and contain no entry of the
  -- tracker, or it is a virtual one outside of the pools.
  | .mark _ base size _ =>
    0 < size ∧ (reservation base size ∈ d.placed ∨
      (if ∃ n ∈ d.memory.names, MeetsPool m d.memory base size n then
        LastPageTaken m base size ∧ ∀ e ∈ d.memory.allocated.mem,
          ¬ (markBase m base ≤ e.lo ∧ e.hi ≤ markEnd m base size)
      else k = .virtual ∧
        ∀ n ∈ d.memory.names, ∀ r ∈ d.memory.fulllist n, r.Apart (reservation base size)))
  | .newPool _ _ => True
  | .prime _ _ _ => True
  | .alloc _ _ => True

instance (m : Machine MemType) (k : Kind) (d : Side MemType) :
    (op : Op MemType) → Decidable (Careful m k d op)
  | .addMemory _ _ _ _ => inferInstanceAs (Decidable (_ ∧ _))
  | .addDirectMemory _ _ _ => inferInstanceAs (Decidable (_ ∧ _ ∧ _))
  | .mark _ _ _ _ => inferInstanceAs (Decidable (_ ∧ (_ ∨ ite _ _ _)))
  | .newPool _ _ => .isTrue trivial
  | .prime _ _ _ => .isTrue trivial
  | .alloc _ _ => .isTrue trivial

/-! ## The invariant -/

/-- No address is free twice, nothing free belongs to an object, and every object has an entry of
the tracker around it unless it is outside of the pools. -/
structure Inv (k : Kind) (d : Side MemType) : Prop where
  sound : d.memory.Sound
  single : ∀ x, d.memory.free x ≤ 1
  clear : ∀ o ∈ d.placed, ∀ x, o.Has x → d.memory.free x = 0
  recorded : ∀ o ∈ d.placed, (∃ e ∈ d.memory.allocated.mem, e.lo ≤ o.lo ∧ o.hi ≤ e.hi) ∨
    (k = .virtual ∧ ¬ InPools d.memory o)
  direct : d.memory.allocated.markingDirect = false
  zone : d.memory.allocated.markingZone = false
  safe : Safe k d

variable {k : Kind}

/-- The conditions on the objects stay as they are when the pools change, if the objects are in
pools no more than before. -/
theorem Compatible.of_inPools {s s' : Memory MemType} {o o' : Span (Option String)}
    (h : Compatible k s o o') (ho : InPools s' o → InPools s o) (ho' : InPools s' o' → InPools s o') :
    Compatible k s' o o' := by
  rcases h with happart | hrepeats | ⟨hk, hnot | hnot⟩
  · exact .inl happart
  · exact .inr (.inl hrepeats)
  · exact .inr (.inr ⟨hk, .inl fun hin => hnot (ho hin)⟩)
  · exact .inr (.inr ⟨hk, .inr fun hin => hnot (ho' hin)⟩)

variable {d : Side MemType}

/-- How the invariant is kept when the pools change and the objects stay. -/
theorem Inv.of_memory (hd : Inv k d) (hsound : s.Sound) (hsingle : ∀ x, s.free x ≤ 1)
    (hclear : ∀ o ∈ d.placed, ∀ x, o.Has x → s.free x = 0)
    (hnames : ∀ n ∈ d.memory.names, n ∈ s.names) (hfull : ∀ n ∈ d.memory.names, ∀ x, 0 < cover
      (d.memory.fulllist n) x → 0 < cover (s.fulllist n) x)
    (hin : ∀ o ∈ d.placed, InPools s o → InPools d.memory o)
    (hmem : ∀ e ∈ d.memory.allocated.mem, e ∈ s.allocated.mem)
    (hdirect : s.allocated.markingDirect = false) (hzone : s.allocated.markingZone = false) :
    Inv k { d with memory := s } where
  sound := hsound
  single := hsingle
  clear := hclear
  recorded o ho := by
    rcases hd.recorded o ho with ⟨e, he, hlo, hhi⟩ | ⟨hk, hnot⟩
    · exact .inl ⟨e, hmem e he, hlo, hhi⟩
    · exact .inr ⟨hk, fun hpools => hnot (hin o ho hpools)⟩
  direct := hdirect
  zone := hzone
  safe := by
    refine ⟨?_, fun o ho n hn => ?_⟩
    · refine hd.safe.apart.imp_of_mem fun ho ho' hcompatible => ?_
      exact hcompatible.of_inPools (hin _ ho) (hin _ ho')
    · obtain ⟨hname, hinside⟩ := hd.safe.inside o ho n hn
      exact ⟨hnames n hname, fun x hx => hfull n hname x (hinside x hx)⟩

/-- Spending memory brings no object into a pool: what becomes part of a pool was free before. -/
theorem Inv.inPools_of_spends (hd : Inv k d) {spent : ℤ → ℕ} (h : d.memory.Spends s spent)
    (ho : o ∈ d.placed) (hin : InPools s o) : InPools d.memory o := by
  obtain ⟨n, hn, x, hx, hcover⟩ := hin
  rw [h.names] at hn
  rcases h.full_of n hn x hcover with hfull | hfree
  · exact ⟨n, hn, x, hx, hfull⟩
  · rw [hd.clear o ho x hx] at hfree
    exact absurd hfree (Nat.lt_irrefl 0)

lemma Inv.of_spends (hd : Inv k d) {spent : ℤ → ℕ} (hsound : s.Sound)
    (h : d.memory.Spends s spent) (hzone : s.allocated.markingZone = false) :
    Inv k { d with memory := s } := by
  refine hd.of_memory hsound (fun x => ?_) (fun o ho x hx => ?_) (fun n hn => h.names ▸ hn) h.full
    (fun o ho => hd.inPools_of_spends h ho) h.mem (h.direct hd.direct) hzone
  · have hle := h.free x
    have hone := hd.single x
    omega
  · have hle := h.free x
    have hzero := hd.clear o ho x hx
    omega

/-- Memory that is new, and in which nothing has been placed, may be added. -/
theorem Inv.of_gains (hd : Inv k d) {gained : ℤ → ℕ} (hsound : s.Sound)
    (h : d.memory.Gains s gained) (hone : ∀ x, gained x ≤ 1)
    (hnew : ∀ x, 0 < gained x → d.memory.free x = 0)
    (hplaced : ∀ x, 0 < gained x → ∀ o ∈ d.placed, ¬ o.Has x) : Inv k { d with memory := s } := by
  refine hd.of_memory hsound (fun x => ?_) (fun o ho x hx => ?_) (fun n hn => h.names ▸ hn) h.full
    (fun o ho hin => ?_) (fun e he => ?_) ?_ ?_
  · have hle := h.free x
    have hold := hd.single x
    have hgain := hone x
    have hzero := hnew x
    omega
  · have hle := h.free x
    have hzero := hd.clear o ho x hx
    have hgain : ¬ 0 < gained x := fun hpos => hplaced x hpos o ho hx
    omega
  · obtain ⟨n, hn, x, hx, hcover⟩ := hin
    rw [h.names] at hn
    rcases h.full_of n hn x hcover with hfull | hgain
    · exact ⟨n, hn, x, hx, hfull⟩
    · exact absurd hx (hplaced x hgain o ho)
  · rw [h.allocated]
    exact he
  · rw [h.allocated]
    exact hd.direct
  · rw [h.allocated]
    exact hd.zone

lemma Inv.alloc (hd : Inv k d) (hname : name ∈ d.memory.names) {g : Group} {addrs : List ℤ}
    (h : d.memory.Places name g s addrs) :
    Inv k { memory := s, placed := objects name g.entries addrs ++ d.placed } := by
  have hzone : s.allocated.markingZone = false := h.zone (.inr hd.zone)
  have hold := hd.of_spends h.sound h.spends hzone
  have hnew : ∀ o ∈ objects name g.entries addrs, ∀ x, o.Has x →
      0 < cover (objects name g.entries addrs) x := fun o ho x hx => cover_pos_iff.2 ⟨o, ho, hx⟩
  -- What is placed was free, and it was free only once.
  have hfree : ∀ x, s.free x + cover (objects name g.entries addrs) x ≤ 1 := fun x =>
    (h.spends.free x).trans (hd.single x)
  have hname' : name ∈ s.names := h.spends.names.symm ▸ hname
  refine ⟨h.sound, hold.single, fun o ho x hx => ?_, fun o ho => ?_, hold.direct, hzone,
    ⟨?_, fun o ho n hn => ?_⟩⟩
  · rcases mem_append.1 ho with ho | ho
    · have hpos := hnew o ho x hx
      have hle := hfree x
      dsimp only
      omega
    · exact hold.clear o ho x hx
  · rcases mem_append.1 ho with ho | ho
    · obtain ⟨e, he, hlo, hhi⟩ := h.entry hd.zone o ho
      exact .inl ⟨e, he, hlo.le, hhi.ge⟩
    · exact hold.recorded o ho
  · refine pairwise_append.2 ⟨?_, hold.safe.apart, fun o ho o' ho' => .inl fun x hx hx' => ?_⟩
    · refine (pairwise_of_cover_le_one fun x => ?_).imp fun happart => .inl happart
      exact (Nat.le_add_left _ _).trans (hfree x)
    · have hpos := hnew o ho x hx
      have hzero := hd.clear o' ho' x hx'
      have hle := h.spends.free x
      omega
  · rcases mem_append.1 ho with ho | ho
    · obtain ⟨i, addr, -, -, rfl⟩ := mem_objects.1 ho
      cases hn
      exact ⟨hname', fun x hx => h.inside x (hnew _ ho x hx)⟩
    · exact hold.safe.inside o ho n hn

/-! ## Reservations -/

/-- The pages that `mark` takes contain the range, unless the last one is missed. -/
theorem range_in_pages (h : LastPageTaken m base size) :
    markBase m base ≤ base ∧ base + size - 1 ≤ markEnd m base size := by
  refine ⟨alignDown_le base m.minPageSize_pos, ?_⟩
  rw [markEnd]
  split_ifs with heq
  · have hup := le_alignUp (base + size - 1 + 1) m.minPageSize_pos
    omega
  · rcases h with hone | hmod
    · exact absurd (by omega) heq
    · have hup := lt_alignUp m.minPageSize_pos hmod
      omega

/-- A range that has no conflict with an entry of the tracker has nothing in common with it, unless
the entry lies inside of it. -/
theorem not_has_of_noConflict {last : ℤ} {e : Span String}
    (hconflict : Tracker.conflicts base last true e = false)
    (hinside : ¬ (base ≤ e.lo ∧ e.hi ≤ last)) (hbase : base ≤ x) (hlast : x ≤ last) :
    ¬ e.Has x := by
  rintro ⟨hlo, hhi⟩
  simp only [Tracker.conflicts, Bool.and_true, Bool.and_eq_false_iff, Bool.not_eq_false',
    Bool.and_eq_true, decide_eq_true_eq, Bool.or_eq_false_iff, decide_eq_false_iff_not] at hconflict
  omega

lemma Compatible.symm {o' : Span (Option String)} (h : Compatible k s o o') :
    Compatible k s o' o := by
  rcases h with happart | ⟨ho, ho', hlo, hhi⟩ | ⟨hk, hor⟩
  · exact .inl fun x hx' hx => happart x hx hx'
  · exact .inr (.inl ⟨ho', ho, hlo.symm, hhi.symm⟩)
  · exact .inr (.inr ⟨hk, hor.symm⟩)

theorem Inv.cons (hd : Inv k d) (hclear : ∀ x, (reservation base size).Has x → d.memory.free x = 0)
      (hrecorded : (∃ e ∈ d.memory.allocated.mem, e.lo ≤ base ∧ base + size - 1 ≤ e.hi) ∨ (k =
      .virtual ∧ ¬ InPools d.memory (reservation base size)))
    (hcompatible : ∀ o ∈ d.placed, Compatible k d.memory (reservation base size) o) :
    Inv k { d with placed := reservation base size :: d.placed } where
  __ := hd
  clear := forall_mem_cons.2 ⟨hclear, hd.clear⟩
  recorded := forall_mem_cons.2 ⟨hrecorded, hd.recorded⟩
  safe := ⟨pairwise_cons.2 ⟨hcompatible, hd.safe.apart⟩,
    forall_mem_cons.2 ⟨nofun, hd.safe.inside⟩⟩

/-- A reservation that repeats an earlier one may be placed again. -/
theorem Inv.repeat (hd : Inv k d) (hmem : reservation base size ∈ d.placed) :
    Inv k { d with placed := reservation base size :: d.placed } := by
  refine hd.cons (hd.clear _ hmem) (hd.recorded _ hmem) fun o ho => ?_
  by_cases heq : reservation base size = o
  · rw [← heq]
    exact .inr (.inl ⟨rfl, rfl, rfl, rfl⟩)
  · have hsymm : Std.Symm (Compatible k d.memory) := ⟨fun _ _ => Compatible.symm⟩
    exact hd.safe.apart.forall hmem ho heq

lemma free_eq_zero (h : ∀ n ∈ s.names, cover (s.freelist n) x = 0) : s.free x = 0 := by
  refine Nat.eq_zero_of_not_pos fun hpos => ?_
  obtain ⟨n, hn, hcover⟩ := exists_of_free_pos hpos
  rw [h n hn] at hcover
  exact Nat.lt_irrefl 0 hcover

lemma Memory.Sound.free_eq_zero_of_apart (hs : s.Sound)
    (h : ∀ n ∈ s.names, ∀ r ∈ s.fulllist n, r.Apart o) (hx : o.Has x) : s.free x = 0 := by
  refine free_eq_zero fun n hn => Nat.eq_zero_of_not_pos fun hpos => ?_
  obtain ⟨r, hr, hrx⟩ := cover_pos_iff.1 (hs.inside n hn x hpos)
  exact (h n hn r hr).not_has hrx hx

/-- A reservation of pages that have free memory is placed. -/
theorem Inv.mark_marked (hd : Inv k d)
    (h : d.memory.Reserves (markBase m base) (markEnd m base size) d.memory.names s true)
    (hlast : LastPageTaken m base size) (hinside : ∀ e ∈ d.memory.allocated.mem, ¬ (markBase m base
      ≤ e.lo ∧ e.hi ≤ markEnd m base size)) :
    Inv k { memory := s, placed := reservation base size :: d.placed } := by
  obtain ⟨hbase, hend⟩ := range_in_pages hlast
  have hpages : ∀ x, (reservation base size).Has x →
      markBase m base ≤ x ∧ x ≤ markEnd m base size :=
    fun x hx => ⟨hbase.trans hx.1, hx.2.trans hend⟩
  have hold := hd.of_spends h.sound h.spends (h.tracks.zone hd.zone)
  refine hold.cons (fun x hx => ?_) (.inl ?_) fun o ho => ?_
  · refine free_eq_zero fun n hn => ?_
    rw [h.spends.names] at hn
    exact h.cleared n hn x (hpages x hx).1 (hpages x hx).2
  · obtain ⟨e, he, hlo, hhi⟩ := h.entry rfl hd.direct
    exact ⟨e, he, hlo.trans_le hbase, hend.trans_eq hhi.symm⟩
  rcases hd.recorded o ho with ⟨e, he, hlo, hhi⟩ | ⟨hk, hnot⟩
  · left
    intro x hx ho
    refine not_has_of_noConflict (h.noConflict rfl hd.direct e he) (hinside e he) (hpages x hx).1
      (hpages x hx).2 ⟨hlo.trans ho.1, ho.2.trans hhi⟩
  · exact .inr (.inr ⟨hk, .inr fun hin => hnot (hd.inPools_of_spends h.spends ho hin)⟩)

/-- A virtual reservation outside of the pools is placed. -/
theorem Inv.mark_outside (hd : Inv .virtual d) {marked : Bool}
    (h : d.memory.Reserves (markBase m base) (markEnd m base size) d.memory.names s marked)
    (hapart : ∀ n ∈ d.memory.names, ∀ r ∈ d.memory.fulllist n, r.Apart (reservation base size)) :
    Inv .virtual { memory := s, placed := reservation base size :: d.placed } := by
  have hold := hd.of_spends h.sound h.spends (h.tracks.zone hd.zone)
  have hfree : ∀ x, (reservation base size).Has x → d.memory.free x = 0 :=
    fun x hx => hd.sound.free_eq_zero_of_apart hapart hx
  have hnot : ¬ InPools s (reservation base size) := by
    rintro ⟨n, hn, x, hx, hcover⟩
    rw [h.spends.names] at hn
    rcases h.spends.full_of n hn x hcover with hfull | hpos
    · obtain ⟨r, hr, hrx⟩ := cover_pos_iff.1 hfull
      exact (hapart n hn r hr).not_has hrx hx
    · rw [hfree x hx] at hpos
      exact Nat.lt_irrefl 0 hpos
  refine hold.cons (fun x hx => ?_) (.inr ⟨rfl, hnot⟩) fun o _ => .inr (.inr ⟨rfl, .inl hnot⟩)
  have hle := h.spends.free x
  rw [hfree x hx] at hle
  exact Nat.eq_zero_of_le_zero hle

lemma Inv.mark (hd : Inv k d) {policy : ℕ} {marked : Bool}
    (h : d.memory.mark m name base size policy = .ok (marked, s))
    (hcareful : Careful m k d (.mark name base size policy)) :
    Inv k { memory := s, placed := reservation base size :: d.placed } := by
  have hreserves := mark_reserves h hd.sound
  obtain ⟨-, hrepeats | hcase⟩ := hcareful
  · exact (hd.of_spends hreserves.sound hreserves.spends
      (hreserves.tracks.zone hd.zone)).repeat hrepeats
  · split_ifs at hcase with hmeets
    · rw [hreserves.marked_iff.2 hmeets] at hreserves
      exact hd.mark_marked hreserves hcase.1 hcase.2
    · obtain ⟨rfl, hapart⟩ := hcase
      exact hd.mark_outside hreserves hapart

/-! ## Adding memory -/

lemma reservation_has (h : 0 < if base ≤ x ∧ x ≤ base + size - 1 then 1 else 0) :
    (reservation base size).Has x := by
  split_ifs at h with hx
  · exact hx
  · exact absurd h (Nat.lt_irrefl 0)

lemma Inv.addMemory (hd : Inv k d) {memType : MemType}
    (h : d.memory.addPoolMemory m name base size memType = .ok s)
    (hcareful : Careful m k d (.addMemory name base size memType)) :
    Inv k { d with memory := s } := by
  obtain ⟨t, -, h⟩ := bind_eq_ok.1 h
  split_ifs at h with hname
  obtain ⟨a, hadd, h⟩ := bind_eq_ok.1 h
  cases h
  obtain ⟨hnew, hplaced⟩ := hcareful
  have hsound : Memory.Sound { d.memory with poolMem := t } :=
    { hd.sound with }
  obtain ⟨hsound', hgains⟩ := gains_addMemory hsound hname (Int.natCast_nonneg size) hadd
  refine hd.of_gains hsound' { hgains with } (fun x => ?_)
    (fun x hx => hd.sound.free_eq_zero_of_apart hnew (reservation_has hx))
    (fun x hx o ho hox => (hplaced o ho).not_has hox (reservation_has hx))
  split_ifs <;> omega

/-- Memory that one pool alone has may be moved to the direct pool. -/
theorem Inv.addDirectMemory (hd : Inv k d) {memType : MemType}
    (h : d.memory.addDirectMemory m base size memType = .ok s)
    (hcareful : Careful m k d (.addDirectMemory base size memType)) :
    Inv k { d with memory := s } := by
  obtain ⟨s₁, hremove, h⟩ := bind_eq_ok.1 h
  split_ifs at h with hdirect
  obtain ⟨a, hadd, h⟩ := bind_eq_ok.1 h
  cases h
  obtain ⟨hlast, ⟨n, hn, hmeets, hother⟩, hplaced⟩ := hcareful
  obtain ⟨hsound, hspends, -, hcleared, hflag, hzone⟩ := removeFrom_ok hremove
    (hd.sound.setAllocated _) hd.sound.names (fun _ hk => hk) hn hmeets
    (fun n' hn' hne r hr hmeet => hother n' hn' hne ⟨r, hr, hmeet⟩)
  have hspends₁ : d.memory.Spends s₁ fun _ => 0 :=
    { hspends with direct := fun _ => hflag }
  have hd₁ := hd.of_spends hsound hspends₁ (hzone hd.zone)
  obtain ⟨hsound', hgains⟩ := gains_addMemory hsound hdirect (Int.natCast_nonneg size) hadd
  obtain ⟨hbase, hend⟩ := range_in_pages hlast
  refine hd₁.of_gains hsound' hgains (fun x => by split_ifs <;> omega) (fun x hx => ?_)
    (fun x hx o ho hox => (hplaced o ho).not_has hox (reservation_has hx))
  refine free_eq_zero fun n' hn' => ?_
  have hx := reservation_has hx
  exact hcleared n' (hspends.names ▸ hn') x (hbase.trans hx.1) (hx.2.trans hend)

/-! ## New pools -/

lemma Inv.newPool (hd : Inv k d) {zone : Option Zone} (hzone : ∀ z, zone = some z → z.pool = none)
    (h : d.memory.newPool name zone = .ok s) : Inv k { d with memory := s } := by
  rw [Memory.newPool] at h
  split_ifs at h with hname
  obtain rfl := (Except.ok.inj h).symm
  obtain ⟨s, hs⟩ : ∃ s : Memory MemType, s = { d.memory with
      names := d.memory.names ++ [name]
      pool := update d.memory.pool name ⟨⟨[], []⟩, zone⟩ } := ⟨_, rfl⟩
  rw [← hs]
  have hpool : ∀ n ∈ d.memory.names, s.pool n = d.memory.pool n := by
    intro n hn
    rw [hs]
    exact update_of_ne (ne_of_mem_of_not_mem hn hname) _ _
  have hnew : s.pool name = ⟨⟨[], []⟩, zone⟩ := by
    rw [hs]
    exact update_self _ _ _
  have hnames : s.names = d.memory.names ++ [name] := by rw [hs]
  have hallocated : s.allocated = d.memory.allocated := by rw [hs]
  have hcases : ∀ n ∈ s.names, n ∈ d.memory.names ∨ n = name := by
    intro n hn
    rw [hnames] at hn
    exact (mem_append.1 hn).imp_right mem_singleton.1
  have hfree (x : ℤ) : s.free x = d.memory.free x := by
    have hold : (d.memory.names.map fun n => cover (s.freelist n) x) =
        d.memory.names.map fun n => cover (d.memory.freelist n) x :=
      map_congr_left fun n hn => by rw [Memory.freelist, hpool n hn, ← Memory.freelist]
    rw [Memory.free, Memory.free, hnames, map_append, hold, sum_append,
      map_singleton, sum_singleton, Memory.freelist, hnew]
    exact Nat.add_zero _
  refine hd.of_memory ⟨?_, fun n hn => ?_, fun n hn x => ?_, fun n hn z hz p hp => ?_⟩
    (fun x => (hfree x).trans_le (hd.single x))
    (fun o ho x hx => (hfree x).trans (hd.clear o ho x hx))
    (fun n hn => hnames ▸ mem_append_left _ hn)
    (fun n hn x hx => ?_) (fun o ho hin => ?_) (fun e he => hallocated ▸ he)
    (hallocated ▸ hd.direct) (hallocated ▸ hd.zone)
  · rw [hnames]
    exact nodup_append'.2 ⟨hd.sound.names, nodup_singleton name, disjoint_singleton.2 hname⟩
  · rcases hcases n hn with hn | rfl
    · rw [Memory.fulllist, hpool n hn]
      exact hd.sound.upright n hn
    · rw [Memory.fulllist, hnew]
      exact fun _ hr => absurd hr not_mem_nil
  · rcases hcases n hn with hn | rfl
    · rw [Memory.freelist, Memory.fulllist, hpool n hn]
      exact hd.sound.inside n hn x
    · rw [Memory.freelist, hnew]
      exact fun hpos => absurd hpos (Nat.lt_irrefl 0)
  · rcases hcases n hn with hn | rfl
    · rw [hpool n hn] at hz
      rw [hnames]
      exact mem_append_left _ (hd.sound.zones n hn z hz p hp)
    · rw [hnew] at hz
      rw [hzone z hz] at hp
      cases hp
  · rw [Memory.fulllist, hpool n hn]
    exact hx
  obtain ⟨n, hn, x, hx, hcover⟩ := hin
  rcases hcases n hn with hn | rfl
  · rw [Memory.fulllist, hpool n hn] at hcover
    exact ⟨n, hn, x, hx, hcover⟩
  · rw [Memory.fulllist, hnew] at hcover
    exact absurd hcover (Nat.lt_irrefl 0)

/-! ## Runs -/

/-- One careful operation keeps the invariant. -/
theorem Inv.step {depth : ℕ} {d' : Side MemType} (hd : Inv k d) {op : Op MemType}
    (hop : Careful m k d op) (h : d.step m depth op = .ok d') : Inv k d' := by
  cases op with
  | newPool name isZone =>
    obtain ⟨s, hs, h⟩ := bind_eq_ok.1 h
    cases h
    refine hd.newPool (fun z hz => ?_) hs
    split_ifs at hz
    cases hz
    rfl
  | addMemory name base size memType =>
    obtain ⟨s, hs, h⟩ := bind_eq_ok.1 h
    cases h
    exact hd.addMemory hs hop
  | addDirectMemory base size memType =>
    obtain ⟨s, hs, h⟩ := bind_eq_ok.1 h
    cases h
    exact hd.addDirectMemory hs hop
  | mark name base size policy =>
    obtain ⟨⟨marked, s⟩, hs, h⟩ := bind_eq_ok.1 h
    cases h
    exact hd.mark hs hop
  | prime zone pool ranges =>
    obtain ⟨s, hs, h⟩ := bind_eq_ok.1 h
    cases h
    obtain ⟨hsound, hspends, hallocated⟩ := prime_ok hs hd.sound
    exact hd.of_spends hsound hspends (hallocated ▸ hd.zone)
  | alloc name g =>
    obtain ⟨⟨s, addrs⟩, hs, h⟩ := bind_eq_ok.1 h
    cases h
    obtain ⟨hname, hplaces⟩ := alloc_ok hs hd.sound
    exact hd.alloc hname hplaces

lemma inv_start (k : Kind) : Inv k (start k : Side MemType) where
  sound := ⟨nodup_nil, nofun, nofun, nofun⟩
  single _ := Nat.zero_le _
  clear := nofun
  recorded := nofun
  direct := rfl
  zone := rfl
  safe := ⟨.nil, nofun⟩

/-- In a run whose operations are all careful, the layout is safe in the state that it reaches. -/
theorem layout_safe (m : Machine MemType) (depth : ℕ) {ops : List (Kind × Op MemType)}
    {l : Layout MemType}
    (hops : RunMeets (step m depth) (fun l a => Careful m a.1 (l a.1) a.2) start ops)
    (hrun : run (step m depth) start ops = some l) (k : Kind) : Safe k (l k) := by
  have hinv : ∀ k, Inv k (l k) := by
    refine RunMeets.invariant (P := fun l : Layout MemType => ∀ k, Inv k (l k))
      (fun l a l' hl hop hstep k => ?_) hops inv_start hrun
    obtain ⟨d, hd, rfl⟩ := Option.map_eq_some_iff.1 hstep
    rw [update_apply]
    split_ifs with hk
    · rw [hk]
      exact (hl a.1).step hop (toOption_eq_some.1 hd)
    · exact hl k
  exact (hinv k).safe

/-- A machine with pages of 4 KB that allows every cache policy. -/
def smallMachine : Machine Unit := ⟨0x1000, page_pos, fun _ _ => true, ()⟩

/-- A pool of three pages, a reservation of `size` bytes at its beginning, and a segment of one
page. -/
def reserveAndAlloc (size : ℕ) : List (Kind × Op Unit) :=
  [(.physical, .newPool "ram" false), (.physical, .addMemory "ram" 0 0x3000 ()),
    (.physical, .mark "kernel" 0 size 0),
    (.physical, .alloc "ram" ⟨none, [⟨"cell", 0x1000, 0x1000, 0, 0, none⟩]⟩)]

/-- A reservation of one page and a half is respected. -/
theorem layout_safe_page_and_half : ∃ l,
    run (step smallMachine 2) start (reserveAndAlloc 0x1800) = some l ∧
      (l .physical).placed = [⟨0x2000, 0x2fff, some "ram"⟩, ⟨0, 0x17ff, none⟩] ∧
      Safe .physical (l .physical) := by
  exact exists_run
    (Q := fun l => (l .physical).placed = [⟨0x2000, 0x2fff, some "ram"⟩, ⟨0, 0x17ff, none⟩])
    (by decide +kernel) fun l hrun hplaced =>
      ⟨hplaced, layout_safe smallMachine 2 (by decide +kernel) hrun .physical⟩

/-- The second page of a reservation of one page and one byte is left in the free list, and the
segment is placed there. -/
theorem last_page_is_allocated : ∃ l,
    run (step smallMachine 2) start (reserveAndAlloc 0x1001) = some l ∧
      (l .physical).placed = [⟨0x1000, 0x1fff, some "ram"⟩, ⟨0, 0x1000, none⟩] ∧
      ¬ Safe .physical (l .physical) := by
  refine exists_run
    (Q := fun l => (l .physical).placed = [⟨0x1000, 0x1fff, some "ram"⟩, ⟨0, 0x1000, none⟩])
    (by decide +kernel) fun l _ hplaced => ⟨hplaced, fun hsafe => ?_⟩
  have hapart := hsafe.apart
  rw [hplaced, pairwise_pair] at hapart
  rcases hapart with hdisjoint | ⟨htag, _⟩ | ⟨hkind, _⟩
  · exact hdisjoint 0x1000 ⟨by decide, by decide⟩ ⟨by decide, by decide⟩
  · cases htag
  · cases hkind

end Okl4Kernel.Weaver
