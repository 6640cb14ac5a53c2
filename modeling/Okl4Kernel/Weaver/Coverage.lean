import Okl4Kernel.Weaver.Allocator

/-!
# What the allocator does to the free memory

For each function of the allocator, how often an address is in the free list afterwards, compared
with before. Nothing puts an address into a free list that was not there, except `add_memory`; what
`alloc` places and what `mark_window` removes is taken out of it; and `mark` leaves nothing of the
pages of a range. The tracker is only added to, and it has an entry for every object.
-/

namespace Okl4Kernel.Weaver

open SpanList Fallible List Option Tracker Window

variable {MemType : Type}
variable {a a' : Allocator MemType} {g : Group} {l l' new : List (Region MemType)} {addrs : List ℤ}
  {m : Machine MemType} {memType : MemType} {t t' : Tracker} {w : Window MemType}
  {base last size windowEnd : ℤ}

/-! ## Adding memory -/

lemma cover_sort_le (l : List (Region MemType)) (x : ℤ) : cover (sort l) x ≤ cover l x :=
  (cover_merge_le _ x).trans_eq (cover_perm (sortByLo_perm l) x)

lemma cover_le_sort (hl : ∀ r ∈ l, r.Upright) (x : ℤ) : cover l x ≤ cover (sort l) x := by
  rw [← cover_perm (sortByLo_perm l) x]
  exact cover_le_merge (fun r hr => hl r ((sortByLo_perm l).mem_iff.1 hr)) x

lemma upright_sort (hl : ∀ r ∈ l, r.Upright) : ∀ r ∈ sort l, r.Upright :=
  upright_merge fun r hr => hl r ((sortByLo_perm l).mem_iff.1 hr)

lemma addMemory_freelist (h : addMemory m base size memType a = .ok a') (x : ℤ) :
    cover a'.freelist x ≤
      cover a.freelist x + if base ≤ x ∧ x ≤ base + size - 1 then 1 else 0 := by
  rw [addMemory] at h
  split_ifs at h
  dsimp only at h
  split at h
  · cases h
  · cases h
    refine (cover_sort_le _ x).trans ?_
    rw [cover_append, cover_cons, cover_nil, Nat.zero_add]
    exact Nat.le_refl _

/-- The memory that is added becomes part of what the pool has been given. -/
theorem addMemory_fulllist (h : addMemory m base size memType a = .ok a') (hsize : 0 ≤ size)
    (hfull : ∀ r ∈ a.fulllist, r.Upright) :
    (∀ r ∈ a'.fulllist, r.Upright) ∧ ∀ x, cover a'.fulllist x =
      cover a.fulllist x + if base ≤ x ∧ x ≤ base + size - 1 then 1 else 0 := by
  rw [addMemory] at h
  split_ifs at h
  dsimp only at h
  split at h
  · cases h
  cases h
  have hupright : ∀ r ∈ a.fulllist ++ [⟨base, base + size - 1, memType⟩], r.Upright := by
    intro r hr
    rcases mem_append.1 hr with hr | hr
    · exact hfull r hr
    · rw [mem_singleton.1 hr, Span.Upright]
      dsimp only
      omega
  refine ⟨upright_sort hupright, fun x => ?_⟩
  have hcover := Nat.le_antisymm (cover_sort_le _ x) (cover_le_sort hupright x)
  rw [hcover, cover_append, cover_cons, cover_nil, Nat.zero_add]
  rfl

/-! ## Reservations -/

/-- What remains of a region was in it before, and nothing of it is in the range. -/
theorem cover_remains_le (hle : base ≤ last + 1) {r : Region MemType} (hmeets : Meets base last r)
    (x : ℤ) :
    cover (remains base last r) x ≤ if r.Has x ∧ ¬ (base ≤ x ∧ x ≤ last) then 1 else 0 := by
  simp only [Meets] at hmeets
  simp only [remains, cover_append]
  grind [cover_cons, cover_nil, Span.Has]

/-- A region that is not met has nothing in the range. -/
theorem not_has_of_not_meets {r : Region MemType} (hmeets : ¬ Meets base last r) {x : ℤ}
    (hbase : base ≤ x) (hlast : x ≤ last) : ¬ r.Has x := by
  rintro ⟨hlo, hhi⟩
  refine hmeets ?_
  by_cases hle : r.lo ≤ base
  · exact .inl ⟨hle, by omega⟩
  · exact .inr ⟨by omega, by omega⟩

/-- How `mark` and `alloc` change a tracker: entries are only added, and the marks for direct memory
and for zones are only taken away. -/
structure Tracks (t t' : Tracker) : Prop where
  mem : ∀ e ∈ t.mem, e ∈ t'.mem
  direct : t.markingDirect = false → t'.markingDirect = false
  zone : t.markingZone = false → t'.markingZone = false

lemma Tracks.refl (t : Tracker) : Tracks t t := ⟨fun _ he => he, id, id⟩

lemma Tracks.trans {t'' : Tracker} (h : Tracks t t') (h' : Tracks t' t'') : Tracks t t'' :=
  ⟨fun e he => h'.mem e (h.mem e he), fun hd => h'.direct (h.direct hd),
    fun hz => h'.zone (h.zone hz)⟩

/-- An entry is made only if it has no conflict with the ones that exist. -/
theorem add_ok {name : String} {canMatchExact : Bool}
    (h : t.add name base last canMatchExact = .ok t') :
    Tracks t t' ∧ (∃ e ∈ t'.mem, e.lo = base ∧ e.hi = last) ∧
      ∀ e ∈ t.mem, conflicts base last canMatchExact e = false := by
  obtain ⟨u, hcheck, hok⟩ := bind_eq_ok.1 h
  cases hok
  rw [check] at hcheck
  split at hcheck
  · cases hcheck
  · next hnone =>
    refine ⟨⟨fun e he => mem_append_left _ he, id, id⟩,
      ⟨⟨base, last, name⟩, by simp, rfl, rfl⟩, fun e he => ?_⟩
    exact Bool.eq_false_iff.2 (List.find?_eq_none.1 hnone e he)

/-- The entry that `mark` makes, if it does not move direct memory. -/
theorem trackMark_ok (h : t.trackMark base last = .ok t') :
    Tracks t t' ∧ t'.markingDirect = false ∧ (t.markingDirect = false →
      (∃ e ∈ t'.mem, e.lo = base ∧ e.hi = last) ∧
        ∀ e ∈ t.mem, conflicts base last true e = false) := by
  rw [trackMark] at h
  split_ifs at h with hdirect
  · cases h
    exact ⟨⟨fun e he => he, fun _ => rfl, id⟩, rfl, fun hfalse => by
      rw [hdirect] at hfalse
      cases hfalse⟩
  · obtain ⟨htracks, hentry, hconflicts⟩ := add_ok h
    have hfalse : t.markingDirect = false := Bool.eq_false_iff.2 hdirect
    exact ⟨htracks, htracks.direct hfalse, fun _ => ⟨hentry, hconflicts⟩⟩

/-- What a reservation does to one free list and to the tracker. -/
structure Marks (base last : ℤ) (l l' : List (Region MemType)) (t t' : Tracker) (marked : Bool) :
    Prop where
  free : ∀ x, cover l' x ≤ if base ≤ x ∧ x ≤ last then 0 else cover l x
  marked_iff : marked = true ↔ ∃ r ∈ l, Meets base last r
  tracks : Tracks t t'
  unmarked : marked = false → t' = t
  direct : marked = true → t'.markingDirect = false
  entry : marked = true → t.markingDirect = false → ∃ e ∈ t'.mem, e.lo = base ∧ e.hi = last
  noConflict : marked = true → t.markingDirect = false →
    ∀ e ∈ t.mem, conflicts base last true e = false

lemma markLoop_ok (hle : base ≤ last + 1) {policy : ℕ} {marked : Bool}
    (h : markLoop m base last policy l t = .ok (marked, l', t')) :
    Marks base last l l' t t' marked := by
  induction l generalizing l' t t' marked with
  | nil =>
    cases h
    exact ⟨fun x => by simp, by simp, .refl t, fun _ => rfl, nofun, nofun, nofun⟩
  | cons r rest ih =>
    rw [markLoop] at h
    split_ifs at h with haligned hmeets hpolicy
    · obtain ⟨t₁, htrack, h⟩ := bind_eq_ok.1 h
      obtain ⟨⟨marked', left, t₂⟩, hrest, h⟩ := bind_eq_ok.1 h
      cases h
      have hmarks := ih hrest
      obtain ⟨htracks, hdirect, hentry⟩ := trackMark_ok htrack
      refine ⟨fun x => ?_, ⟨fun _ => ⟨r, mem_cons_self, hmeets⟩, fun _ => rfl⟩,
        htracks.trans hmarks.tracks, nofun, fun _ => hmarks.tracks.direct hdirect,
        fun _ hfalse => ?_, fun _ hfalse => (hentry hfalse).2⟩
      · have hfree := hmarks.free x
        have hremains := cover_remains_le hle hmeets x
        rw [cover_append, cover_cons]
        grind
      · obtain ⟨e, he, hbase, hlast⟩ := (hentry hfalse).1
        exact ⟨e, hmarks.tracks.mem e he, hbase, hlast⟩
    · obtain ⟨⟨marked', left, t₂⟩, hrest, h⟩ := bind_eq_ok.1 h
      cases h
      have hmarks := ih hrest
      refine { hmarks with free := fun x => ?_, marked_iff := ?_ }
      · have hfree := hmarks.free x
        have hnot : base ≤ x → x ≤ last → ¬ r.Has x := not_has_of_not_meets hmeets
        rw [cover_cons, cover_cons]
        grind
      · rw [hmarks.marked_iff, exists_mem_cons_iff]
        exact ⟨.inr, fun hor => hor.resolve_left hmeets⟩

/-- `mark` takes at least the pages that begin in the range. -/
theorem markBase_le_markEnd (m : Machine MemType) (hsize : 0 < size) :
    markBase m base ≤ markEnd m base size + 1 := by
  have hbase := alignDown_le base m.minPageSize_pos
  rw [markBase, markEnd]
  split_ifs
  · have hlast := le_alignUp (base + size - 1 + 1) m.minPageSize_pos
    omega
  · have hlast := le_alignUp (base + size - 1) m.minPageSize_pos
    omega

lemma mark_ok {policy : ℕ} {marked : Bool}
    (h : mark m base size policy l t = .ok (marked, l', t')) :
    0 < size ∧ Marks (markBase m base) (markEnd m base size) l l' t t' marked := by
  rw [mark] at h
  split_ifs at h with hlt
  have hsize : 0 < size := by omega
  exact ⟨hsize, markLoop_ok (markBase_le_markEnd m hsize) h⟩

/-! ## Windows -/

/-- What a window has in its hands: the free list that it has rebuilt, what it has removed, and what
it has not yet looked at. -/
def Window.cover (w : Window MemType) (x : ℤ) : ℕ :=
  SpanList.cover w.newFreelist x + SpanList.cover w.removedFreelist x +
    SpanList.cover w.currFree.toList x + SpanList.cover w.freeIter x

lemma Window.fetchFree_spec (w : Window MemType) : (∀ x, w.fetchFree.cover x = w.cover x) ∧
    w.fetchFree.currAddr = w.currAddr ∧ w.fetchFree.removedFreelist = w.removedFreelist := by
  rw [fetchFree]
  split
  · next hfree hiter =>
    refine ⟨fun x => ?_, rfl, rfl⟩
    simp only [cover, hfree, hiter, toList_some, toList_none, cover_cons, cover_nil]
    omega
  · exact ⟨fun x => rfl, rfl, rfl⟩

lemma Window.fetchHole_spec (w : Window MemType) : (∀ x, w.fetchHole.cover x = w.cover x) ∧
    w.fetchHole.currAddr = w.currAddr ∧ w.fetchHole.removedFreelist = w.removedFreelist := by
  rw [fetchHole]
  split <;> exact ⟨fun x => rfl, rfl, rfl⟩

/-- Going on behind a region splits it. -/
theorem Window.advance_ok {w' : Window MemType} (h : w.advance windowEnd = .ok w')
    (hcurr : w.currAddr ≤ windowEnd) (hremoved : ∀ r ∈ w.removedFreelist, r.Upright) :
    (∀ x, w'.cover x ≤ w.cover x) ∧ ∀ r ∈ w'.removedFreelist, r.Upright := by
  rcases advance_cases h with ⟨r, hr, hlo, hhi, rfl⟩ | ⟨hole, hhole, rfl⟩
  · refine ⟨fun x => ?_, fun q hq => ?_⟩
    · simp only [cover, claim, hr, toList_some, toList_none, cover_append, cover_cons, cover_nil]
      grind [cover_cons, cover_nil, Span.Has]
    · rcases mem_append.1 hq with hq | hq
      · exact hremoved q hq
      · rw [mem_singleton.1 hq, Span.Upright]
        dsimp only
        split_ifs <;> omega
  · exact ⟨fun x => Nat.le_refl _, hremoved⟩

lemma Window.round_ok {w' : Window MemType} (h : w.round m windowEnd = .ok w')
    (hcurr : w.currAddr ≤ windowEnd) (hremoved : ∀ r ∈ w.removedFreelist, r.Upright) :
    (∀ x, w'.cover x ≤ w.cover x) ∧ ∀ r ∈ w'.removedFreelist, r.Upright := by
  rw [round] at h
  split_ifs at h
  split at h
  · next r rest hfree hiter =>
    split_ifs at h
    · cases h
      refine ⟨fun x => ?_, hremoved⟩
      simp only [cover, hfree, hiter, cover_append, cover_cons, cover_nil]
      omega
    · obtain ⟨hcover, hcurr', hremoved'⟩ := w.fetchFree_spec
      obtain ⟨hcoverHole, hcurrHole, hremovedHole⟩ := w.fetchFree.fetchHole_spec
      have hok := advance_ok h (by rwa [hcurrHole, hcurr']) (by rwa [hremovedHole, hremoved'])
      simpa only [hcoverHole, hcover] using hok
  · obtain ⟨hcover, hcurr', hremoved'⟩ := w.fetchHole_spec
    have hok := advance_ok h (by rwa [hcurr']) (by rwa [hremoved'])
    simpa only [hcover] using hok

lemma Window.loop_ok {removed : List (Region MemType)}
    (h : w.loop m windowEnd = .ok (new, removed)) (hremoved : ∀ r ∈ w.removedFreelist, r.Upright) :
    (∀ x, SpanList.cover new x + SpanList.cover removed x ≤ w.cover x) ∧
      ∀ r ∈ removed, r.Upright := by
  induction hn : w.left using Nat.strong_induction_on generalizing w with
  | _ n ih =>
    rw [loop] at h
    split_ifs at h with hcurr
    · split at h
      · cases h
      · next w' hround =>
        obtain ⟨hcover, hupright⟩ := round_ok hround hcurr hremoved
        obtain ⟨hfinal, hall⟩ := ih w'.left (hn ▸ left_round hround) h hupright rfl
        exact ⟨fun x => (hfinal x).trans (hcover x), hall⟩
    · cases h
      refine ⟨fun x => ?_, hremoved⟩
      rw [cover, cover_append]
      omega

/-- A window takes what it removes out of the free list. -/
theorem markWindow_ok {windowBase : ℤ} {holes : List (ℤ × ℤ)} {removed : List (Region MemType)}
    (h : markWindow m windowBase size holes a = .ok (new, removed)) :
    (∀ x, cover new x + cover removed x ≤ cover a.freelist x) ∧ ∀ r ∈ removed, r.Upright := by
  rw [markWindow] at h
  dsimp only at h
  split_ifs at h
  all_goals
    obtain ⟨hcover, hupright⟩ := Window.loop_ok h nofun
    refine ⟨fun x => (hcover x).trans ?_, hupright⟩
    simp [Window.cover]

/-! ## Groups -/

/-- The block is placed in the first region that has room for it. -/
theorem simpleAlloc_split {size alignment : ℕ} {offset start : ℤ}
    {before after : List (Region MemType)}
    (h : simpleAlloc size alignment offset l = some (before, after, start, memType)) :
    ∃ l₁ r l₂, l = l₁ ++ r :: l₂ ∧
      before = l₁ ++ (if r.lo < start - 1 then [⟨r.lo, start - 1, r.tag⟩] else []) ∧
      after = (if start + size - 1 + 1 < r.hi then [⟨start + size - 1 + 1, r.hi, r.tag⟩] else []) ++
        l₂ ∧ start = blockStart alignment offset r.lo ∧ r.lo ≤ start ∧ start + size - 1 ≤ r.hi ∧
      memType = r.tag ∧ ∀ q ∈ l₁, q.lo ≤ blockStart alignment offset q.lo →
        q.hi < blockStart alignment offset q.lo + size - 1 := by
  induction l generalizing before with
  | nil => cases h
  | cons r rest ih =>
    rw [simpleAlloc] at h
    dsimp only at h
    by_cases hfits : r.lo ≤ blockStart alignment offset r.lo ∧
        blockStart alignment offset r.lo + size - 1 ≤ r.hi
    · rw [if_pos hfits] at h
      cases h
      exact ⟨[], r, rest, rfl, rfl, rfl, rfl, hfits.1, hfits.2, rfl, nofun⟩
    · rw [if_neg hfits] at h
      obtain ⟨⟨before', found⟩, hrest, hfound⟩ := map_eq_some_iff.1 h
      cases hfound
      obtain ⟨l₁, q, l₂, rfl, rfl, hafter, hstart, hlo, hhi, htag, hfull⟩ := ih hrest
      exact ⟨r :: l₁, q, l₂, rfl, rfl, hafter, hstart, hlo, hhi, htag, forall_mem_cons.2
        ⟨fun hr => not_le.1 fun hle => hfits ⟨hr, hle⟩, hfull⟩⟩

variable (pool : String)

/-- The object that an item becomes at its address, if it had none. -/
def objectOf (i : Item) (addr : ℤ) : List (Span (Option String)) :=
  if i.addr = none then [⟨addr, addr + i.size - 1, some pool⟩] else []

/-- The objects that a group places in a pool. -/
def objects (entries : List Item) (addrs : List ℤ) : List (Span (Option String)) :=
  (entries.zip addrs).flatMap fun p => objectOf pool p.1 p.2

lemma objects_cons (i : Item) (entries : List Item) (addr : ℤ) (addrs : List ℤ) :
    objects pool (i :: entries) (addr :: addrs) =
      objectOf pool i addr ++ objects pool entries addrs := rfl

/-- An item that has no address is placed in the free memory, and one that has an address only
separates what is free below it from what is free above it. -/
theorem placeItem_ok {i : Item} {new' : List (Region MemType)} {addr : ℤ}
    (h : placeItem m i l new = .ok (l', new', addr)) (x : ℤ) :
    cover l' x + cover new' x + cover (objectOf pool i addr) x ≤ cover l x + cover new x := by
  rw [placeItem] at h
  split at h
  · next hnone =>
    split at h
    · cases h
    next before after start memType hfound =>
    split_ifs at h
    cases h
    obtain ⟨l₁, r, l₂, rfl, rfl, rfl, -, hlo, hhi, -⟩ := simpleAlloc_split hfound
    rw [objectOf, if_pos hnone]
    grind [cover_append, cover_cons, cover_nil, Span.Has]
  · next fixed hsome =>
    have hobject : cover (objectOf pool i addr) x = 0 := by
      rw [objectOf, if_neg (by rw [hsome]; exact nofun), cover_nil]
    split_ifs at h
    · cases h
      have hsplit := cover_filter_add (fun r => decide (r.hi < addr)) l x
      rw [cover_append, hobject]
      grind
    · cases h
      omega

variable {distance : Option ℤ} {entries : List Item} {prev : Option (ℤ × ℕ)}

lemma groupAlloc_cons {i : Item}
    (h : groupAlloc m distance (i :: entries) l new prev = .ok (l', addrs)) :
    ∃ l₁ new₁ addr addrs', placeItem m i l new = .ok (l₁, new₁, addr) ∧
      tooFar distance prev addr = false ∧ addrs = addr :: addrs' ∧
      groupAlloc m distance entries l₁ new₁ (some (addr, i.size)) = .ok (l', addrs') := by
  obtain ⟨⟨l₁, new₁, addr⟩, hplace, h⟩ := bind_eq_ok.1 h
  dsimp only at h
  split_ifs at h with hfar
  obtain ⟨⟨l₂, addrs'⟩, hrest, ⟨⟩⟩ := bind_eq_ok.1 h
  exact ⟨l₁, new₁, addr, addrs', hplace, Bool.eq_false_iff.2 hfar, rfl, hrest⟩

lemma groupAlloc_ok (pool : String)
    (h : groupAlloc m distance entries l new prev = .ok (l', addrs)) :
    addrs.length = entries.length ∧
      ∀ x, cover l' x + cover (objects pool entries addrs) x ≤ cover l x + cover new x := by
  induction entries generalizing l new prev addrs with
  | nil =>
    cases h
    refine ⟨rfl, fun x => ?_⟩
    have hnil : cover (objects pool [] []) x = 0 := rfl
    rw [cover_append]
    omega
  | cons i entries ih =>
    obtain ⟨l₁, new₁, addr, addrs', hplace, -, rfl, hrest⟩ := groupAlloc_cons h
    obtain ⟨hlength, hcover⟩ := ih hrest
    refine ⟨by rw [length_cons, length_cons, hlength], fun x => ?_⟩
    have hitem := placeItem_ok pool hplace x
    have hentries := hcover x
    rw [objects_cons, cover_append]
    omega

/-- The group is placed behind the regions that the loop of `alloc` sets aside. -/
theorem allocLoop_split (h : allocLoop m g l new = .placed l' addrs) :
    ∃ l₁ l₂ left, l = l₁ ++ l₂ ∧ l' = new ++ l₁ ++ left ∧
      groupAlloc m g.distance g.entries l₂ [] none = .ok (left, addrs) ∧
      (l₁ = [] ∨ groupAlloc m g.distance g.entries l [] none = .error .groupException) := by
  induction l generalizing new with
  | nil =>
    rw [allocLoop] at h
    split at h
    · next left addrs' hgroup =>
      cases h
      exact ⟨[], [], left, rfl, by rw [append_nil], hgroup, .inl rfl⟩
    · cases h
    · cases h
  | cons r rest ih =>
    rw [allocLoop] at h
    split at h
    · next left addrs' hgroup =>
      cases h
      exact ⟨[], r :: rest, left, rfl, by rw [append_nil], hgroup, .inl rfl⟩
    · cases h
    · cases h
    · next hgroup =>
      split_ifs at h
      obtain ⟨l₁, l₂, left, rfl, rfl, hplaced, -⟩ := ih h
      exact ⟨r :: l₁, l₂, left, rfl, by simp, hplaced, .inr hgroup⟩

lemma allocLoop_placed (pool : String) (h : allocLoop m g l new = .placed l' addrs) :
    addrs.length = g.entries.length ∧
      ∀ x, cover l' x + cover (objects pool g.entries addrs) x ≤ cover l x + cover new x := by
  obtain ⟨l₁, l₂, left, rfl, rfl, hgroup, -⟩ := allocLoop_split h
  obtain ⟨hlength, hcover⟩ := groupAlloc_ok pool hgroup
  refine ⟨hlength, fun x => ?_⟩
  have hx := hcover x
  rw [cover_nil] at hx
  rw [cover_append, cover_append, cover_append]
  omega

/-- What an `AllocatorException` leaves of the free list is an end of it. -/
theorem allocLoop_suffix (h : allocLoop m g l new = .exhausted l') : l' <:+ l := by
  induction l generalizing new with
  | nil =>
    rw [allocLoop] at h
    split at h <;> cases h
    exact suffix_rfl
  | cons r rest ih =>
    rw [allocLoop] at h
    split at h
    · cases h
    · cases h
    · cases h
      exact suffix_rfl
    · split_ifs at h with hrest
      · cases h
        obtain rfl := length_eq_zero_iff.1 hrest
        exact suffix_rfl
      · exact (ih h).trans (suffix_cons r rest)

lemma cover_wholePages_le (m : Machine MemType) (l : List (Region MemType)) (x : ℤ) :
    cover (l.filterMap (wholePages m)) x ≤ cover l x := by
  induction l with
  | nil => exact Nat.le_refl _
  | cons r rest ih =>
    have hup := le_alignUp r.lo m.minPageSize_pos
    have hdown := alignDown_le r.hi m.minPageSize_pos
    rw [filterMap_cons]
    split
    · rw [cover_cons]
      omega
    next q hq =>
    rw [wholePages] at hq
    split_ifs at hq
    all_goals
      cases hq
      rw [cover_cons, cover_cons]
      grind [Span.Has]

lemma mem_objects {pool : String} {o : Span (Option String)} :
    o ∈ objects pool entries addrs ↔ ∃ i addr, (i, addr) ∈ entries.zip addrs ∧ i.addr = none ∧
      o = ⟨addr, addr + i.size - 1, some pool⟩ := by
  rw [objects, mem_flatMap]
  constructor
  · rintro ⟨⟨i, addr⟩, hmem, hobject⟩
    rw [objectOf] at hobject
    split_ifs at hobject with hnone
    · exact ⟨i, addr, hmem, hnone, mem_singleton.1 hobject⟩
    · exact absurd hobject not_mem_nil
  · rintro ⟨i, addr, hmem, hnone, rfl⟩
    exact ⟨(i, addr), hmem, by rw [objectOf, if_pos hnone]; exact mem_singleton_self _⟩

lemma trackAlloc_ok {name : String} (h : t.trackAlloc name base last = .ok t') :
    Tracks t t' ∧ t'.markingZone = false ∧
      (t.markingZone = false → ∃ e ∈ t'.mem, e.lo = base ∧ e.hi = last) := by
  rw [trackAlloc] at h
  split_ifs at h with hzone
  · cases h
    exact ⟨⟨fun e he => he, id, fun _ => rfl⟩, rfl, fun hfalse => by
      rw [hzone] at hfalse
      cases hfalse⟩
  · obtain ⟨htracks, hentry, -⟩ := add_ok h
    exact ⟨htracks, htracks.zone (Bool.eq_false_iff.2 hzone), fun _ => hentry⟩

/-- Every object of a group has an entry, unless the tracker has been told to leave out a zone
window; it has then left out the first one. -/
theorem trackItems_ok {zipped : List (Item × ℤ)} (h : trackItems zipped t = .ok t') :
    Tracks t t' ∧ ((∃ p ∈ zipped, p.1.addr = none) → t'.markingZone = false) ∧
      (t.markingZone = false → ∀ p ∈ zipped, p.1.addr = none →
        ∃ e ∈ t'.mem, e.lo = p.2 ∧ e.hi = p.2 + p.1.size - 1) := by
  induction zipped generalizing t with
  | nil =>
    cases h
    exact ⟨.refl _, fun ⟨p, hp, _⟩ => absurd hp not_mem_nil, fun _ p hp => absurd hp not_mem_nil⟩
  | cons q rest ih =>
    obtain ⟨i, addr⟩ := q
    rw [trackItems] at h
    split_ifs at h with haddr
    · obtain ⟨t₁, htrack, h⟩ := bind_eq_ok.1 h
      obtain ⟨htracks, hzone, hentries⟩ := ih h
      obtain ⟨htracks₁, hzone₁, hentry₁⟩ := trackAlloc_ok htrack
      refine ⟨htracks₁.trans htracks, fun _ => htracks.zone hzone₁, fun hfalse p hp hnone => ?_⟩
      rcases mem_cons.1 hp with rfl | hp
      · obtain ⟨e, he, hlo, hhi⟩ := hentry₁ hfalse
        exact ⟨e, htracks.mem e he, hlo, hhi⟩
      · exact hentries hzone₁ p hp hnone
    · obtain ⟨htracks, hzone, hentries⟩ := ih h
      have hfixed : i.addr ≠ none := by
        rw [ne_eq, not_not] at haddr
        rw [haddr]
        exact nofun
      refine ⟨htracks, fun hexists => hzone ?_, fun hfalse p hp hnone => ?_⟩
      · obtain ⟨p, hp, hnone⟩ := hexists
        rcases mem_cons.1 hp with rfl | hp
        · exact absurd hnone hfixed
        · exact ⟨p, hp, hnone⟩
      · rcases mem_cons.1 hp with rfl | hp
        · exact absurd hnone hfixed
        · exact hentries hfalse p hp hnone

/-- What a group is given is taken out of the free list and reported to the tracker. -/
theorem alloc_placed (pool : String) (h : a.alloc m g t = .placed a' t' addrs) :
    a'.fulllist = a.fulllist ∧
      (∀ x, cover a'.freelist x + cover (objects pool g.entries addrs) x ≤ cover a.freelist x) ∧
      Tracks t t' ∧ ((∃ i ∈ g.entries, i.addr = none) → t'.markingZone = false) ∧
      (t.markingZone = false → ∀ o ∈ objects pool g.entries addrs,
        ∃ e ∈ t'.mem, e.lo = o.lo ∧ e.hi = o.hi) := by
  rw [Allocator.alloc] at h
  split at h
  · cases h
  · cases h
  · next l addrs' hloop =>
    split at h
    · cases h
    next htrack =>
    cases h
    obtain ⟨hlength, hcover⟩ := allocLoop_placed pool hloop
    obtain ⟨htracks, hzone, hentries⟩ := trackItems_ok htrack
    refine ⟨rfl, fun x => ?_, htracks, fun ⟨i, hi, hnone⟩ => hzone ?_, fun hfalse o ho => ?_⟩
    · have hwhole := cover_wholePages_le m l x
      have hx := hcover x
      rw [cover_nil] at hx
      dsimp only
      omega
    · obtain ⟨k, hk, rfl⟩ := mem_iff_getElem.1 hi
      exact ⟨(g.entries[k], addrs[k]), mem_iff_getElem.2
        ⟨k, by rw [length_zip]; omega, getElem_zip⟩, hnone⟩
    · obtain ⟨i, addr, hmem, hnone, rfl⟩ := mem_objects.1 ho
      exact hentries hfalse (i, addr) hmem hnone

lemma alloc_exhausted (h : a.alloc m g t = .exhausted a') :
    a'.fulllist = a.fulllist ∧ ∀ x, cover a'.freelist x ≤ cover a.freelist x := by
  rw [Allocator.alloc] at h
  split at h
  · cases h
  · next hloop =>
    cases h
    exact ⟨rfl, fun x => (allocLoop_suffix hloop).sublist.countP_le⟩
  · split at h <;> cases h

end Okl4Kernel.Weaver
