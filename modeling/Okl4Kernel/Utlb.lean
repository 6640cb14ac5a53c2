import Okl4Kernel.Lib.MoveToFront
import Okl4Kernel.PageTableEntry

/-!
# The software-managed TLB of SH

The UTLB has 64 slots, the last of which is reserved for the page with the reference to the UTCB.
The kernel keeps the slots in an array in the order of their use, and loads a page into the slot at
the last place before that of the reserved one.

`refill_tlb` looks for an entry of the page first and only brings its slot to the front if there is
one; `dirty_tlb` looks for the entry whose dirty bit is to be set after a first write. Both compare
the page and the address space identifier, but not the valid bit, and both stop one place too early:
they do not look at the place from which the next victim is taken. For `refill_tlb` this makes no
difference, because the victim is the very slot that was not looked at. `dirty_tlb` leaves a page
that has come to this place without its dirty bit.

The comparison does not know either that the hardware ignores the identifier of a shared page, nor
that an entry that was flushed is still found under its page. `Undisturbed` collects what must be
excluded so that all goes well.
-/

namespace Okl4Kernel

open TransitionSystem MoveToFront PageTable Function Option

/-- An entry of the UTLB, as the address array and the data array show it. -/
structure TlbEntry where
  /-- The number of the virtual page, in units of the size of the entry. -/
  page : ℕ
  /-- The size of the page; only an entry that was never loaded has the code for 1K. -/
  size : Option PageSize
  asid : ℕ
  valid : Bool
  dirty : Bool
  /-- The hardware ignores the identifier of the address space. -/
  shared : Bool
  deriving DecidableEq, Repr

/-- What the page table says about a page: its size, and whether it is shared. -/
structure TlbPage where
  size : PageSize
  shared : Bool
  deriving DecidableEq, Repr

namespace TlbEntry

/-- The logarithm of the size of the page. -/
def shift (e : TlbEntry) : ℕ :=
  match e.size with
  | none => 10
  | some size => size.shift

/-- The address is on the page of the entry. -/
def covers (e : TlbEntry) (vaddr : ℕ) : Bool := vaddr / 2 ^ e.shift = e.page

/-- The hardware uses the entry for the address. -/
def hits (e : TlbEntry) (vaddr asid : ℕ) : Bool :=
  e.valid && (e.shared || e.asid = asid) && e.covers vaddr

variable (vaddr asid : ℕ)

/-- The comparison of `refill_tlb`. The table of page sizes has no place for 1K; an entry that was
never loaded has the identifier 0, which no space has. -/
def refillMatches (e : TlbEntry) : Bool :=
  e.asid = asid && e.size.isSome && e.covers vaddr

/-- The comparison of `dirty_tlb`. -/
def dirtyMatches (e : TlbEntry) : Bool := e.covers vaddr && e.asid = asid

/-- The entry that is loaded for a page. -/
def load (page : TlbPage) : TlbEntry :=
  ⟨vaddr / 2 ^ page.size.shift, some page.size, asid, true, false, page.shared⟩

end TlbEntry

/-- `UTLB_SIZE`. -/
def utlbSize : ℕ := 64

/-- `UTLB_UTCB`: the reserved slot. -/
def utlbUtcb : ℕ := 63

/-- `UTLB_LAST`. -/
def utlbLast : ℕ := 62

/-- The UTLB, and the array that keeps its slots in the order of their use (`utlb_entry`). -/
structure Utlb where
  age : ℕ → ℕ
  slot : ℕ → TlbEntry

/-- The operations on the UTLB. `refill` is given what `lookup_mapping` finds; `fill` is the part
of the miss handler that loads a page without looking for it. -/
inductive TlbOp where
  | refill (vaddr asid : ℕ) (page : Option TlbPage)
  | fill (vaddr asid : ℕ) (page : TlbPage)
  | dirty (vaddr asid : ℕ)
  | flush (vaddr asid : ℕ)
  deriving DecidableEq, Repr

namespace Utlb

/-- The state after `init_tlb`: all slots are empty except for the reserved one. -/
def init : Utlb where
  age := id
  slot := fun q =>
    if q = utlbUtcb then ⟨0x7F000, some .size4k, 0, true, true, true⟩
    else ⟨0, none, 0, false, false, false⟩

variable (s : Utlb)

/-- `utlb_sort`. -/
def utlbSort (index : ℕ) : Utlb := { s with age := moveToFront s.age index }

/-- The loop over the slots in the order of their use, up to the first one that matches. -/
def search (p : TlbEntry → Bool) : Option ℕ :=
  (List.range utlbLast).find? fun i => p (s.slot (s.age i))

variable (vaddr asid : ℕ)

/-- `fill_tlb`, with `utlb_get_last`. -/
def fillTlb (page : TlbPage) : Utlb :=
  let last := s.age utlbLast
  let s := s.utlbSort utlbLast
  { s with slot := update s.slot last (.load vaddr asid page) }

/-- `refill_tlb`. Without a mapping, control goes to the handler of the access. -/
def refillTlb (page : Option TlbPage) : Utlb :=
  match s.search (TlbEntry.refillMatches vaddr asid) with
  | some i => s.utlbSort i
  | none =>
    match page with
    | none => s
    | some page => s.fillTlb vaddr asid page

/-- `dirty_tlb`. -/
def dirtyTlb : Utlb :=
  match s.search (TlbEntry.dirtyMatches vaddr asid) with
  | some i =>
    let q := s.age i
    let s := { s with slot := update s.slot q { s.slot q with dirty := true } }
    s.utlbSort i
  | none => s

/-- `invalidate_tlb_entry`: an associative write that clears the valid and the dirty bit. -/
def invalidateTlbEntry : Utlb :=
  { s with slot := fun q =>
      if (s.slot q).hits vaddr asid then { s.slot q with valid := false, dirty := false }
      else s.slot q }

/-- Perform an operation. -/
def step : TlbOp → Utlb
  | .refill vaddr asid page => s.refillTlb vaddr asid page
  | .fill vaddr asid page => s.fillTlb vaddr asid page
  | .dirty vaddr asid => s.dirtyTlb vaddr asid
  | .flush vaddr asid => s.invalidateTlbEntry vaddr asid

/-! ## What a step does -/

/-- The place whose slot an operation brings to the front. -/
def position : TlbOp → Option ℕ
  | .refill vaddr asid page =>
    (s.search (TlbEntry.refillMatches vaddr asid)).or (page.map fun _ => utlbLast)
  | .fill _ _ _ => some utlbLast
  | .dirty vaddr asid => s.search (TlbEntry.dirtyMatches vaddr asid)
  | .flush _ _ => none

/-- The entry that an operation loads. -/
def loaded : TlbOp → Option TlbEntry
  | .refill vaddr asid page =>
    if s.search (TlbEntry.refillMatches vaddr asid) = none then page.map (.load vaddr asid) else none
  | .fill vaddr asid page => some (.load vaddr asid page)
  | .dirty _ _ => none
  | .flush _ _ => none

variable {s : Utlb}

/-- The search finds the first place whose slot matches. -/
lemma search_eq_some_iff {p : TlbEntry → Bool} {i : ℕ} : s.search p = some i ↔
      i < utlbLast ∧ p (s.slot (s.age i)) = true ∧ ∀ j < i, p (s.slot (s.age j)) = false := by
  rw [search, List.find?_range_eq_some]
  simp only [List.mem_range, Bool.not_eq_true']
  exact and_left_comm

lemma search_lt {p : TlbEntry → Bool} {i : ℕ} (h : s.search p = some i) : i < utlbLast :=
  (search_eq_some_iff.1 h).1

variable {op : TlbOp}

lemma position_le {k : ℕ} (h : s.position op = some k) : k ≤ utlbLast := by
  cases op with
  | refill vaddr asid page =>
    rcases or_eq_some_iff.1 h with h | ⟨-, h⟩
    · exact (search_lt h).le
    · obtain ⟨-, -, rfl⟩ := map_eq_some_iff.1 h
      exact le_rfl
  | fill vaddr asid page =>
    cases h
    exact le_rfl
  | dirty vaddr asid => exact (search_lt h).le
  | flush vaddr asid => cases h

/-- An operation brings at most one slot to the front. -/
theorem step_age (s : Utlb) (op : TlbOp) :
    (s.step op).age = (s.position op).elim s.age fun k => moveToFront s.age k := by
  cases op with
  | refill vaddr asid page =>
    simp only [step, refillTlb, position]
    cases s.search (TlbEntry.refillMatches vaddr asid) with
    | some i => rfl
    | none => cases page <;> rfl
  | fill vaddr asid page => rfl
  | dirty vaddr asid =>
    simp only [step, dirtyTlb, position]
    cases s.search (TlbEntry.dirtyMatches vaddr asid) <;> rfl
  | flush vaddr asid => rfl

/-- An operation that loads a page replaces the slot at the last place. -/
theorem step_slot_of_loaded {e : TlbEntry} (h : s.loaded op = some e) :
    (s.step op).slot = update s.slot (s.age utlbLast) e := by
  cases op with
  | refill vaddr asid page =>
    simp only [loaded] at h
    split_ifs at h with hsearch
    obtain ⟨page, rfl, rfl⟩ := map_eq_some_iff.1 h
    simp only [step, refillTlb, hsearch]
    rfl
  | fill vaddr asid page =>
    cases h
    rfl
  | dirty vaddr asid => cases h
  | flush vaddr asid => cases h

/-- An operation that loads nothing makes no entry hit. -/
theorem step_hits_of_not_loaded (h : s.loaded op = none) {q vaddr asid : ℕ}
    (hhits : ((s.step op).slot q).hits vaddr asid = true) : (s.slot q).hits vaddr asid = true := by
  cases op with
  | refill vaddr' asid' page =>
    simp only [step, refillTlb] at hhits
    simp only [loaded] at h
    cases hsearch : s.search (TlbEntry.refillMatches vaddr' asid') with
    | some i =>
      rw [hsearch] at hhits
      exact hhits
    | none =>
      rw [if_pos hsearch] at h
      obtain rfl := map_eq_none_iff.1 h
      rw [hsearch] at hhits
      exact hhits
  | fill vaddr' asid' page => cases h
  | dirty vaddr' asid' =>
    simp only [step, dirtyTlb] at hhits
    rcases hsearch : s.search (TlbEntry.dirtyMatches vaddr' asid') with _ | i
    · rw [hsearch] at hhits
      exact hhits
    rw [hsearch] at hhits
    simp only [utlbSort] at hhits
    by_cases hq : q = s.age i
    · subst hq
      rwa [update_self] at hhits
    · rwa [update_of_ne hq] at hhits
  | flush vaddr' asid' =>
    simp only [step, invalidateTlbEntry] at hhits
    split_ifs at hhits with hflushed
    · exact absurd hhits (by simp [TlbEntry.hits])
    · exact hhits

/-- No address hits more than one slot. -/
def Unique (s : Utlb) : Prop :=
  ∀ q r vaddr asid, q < utlbSize → r < utlbSize → (s.slot q).hits vaddr asid = true →
    (s.slot r).hits vaddr asid = true → q = r

end Utlb

/-- Two entries that are used for the same address. -/
def TlbEntry.Overlaps (e f : TlbEntry) : Prop :=
  ∃ vaddr asid, e.hits vaddr asid = true ∧ f.hits vaddr asid = true

/-! ## The order of use -/

/-- The UTLB, with the time at which each slot was used last. -/
structure TracedUtlb where
  tlb : Utlb
  lastUse : ℕ → ℤ
  now : ℤ

namespace TracedUtlb

/-- In the beginning, the slots count as used from the last one to the first one. -/
def init : TracedUtlb := ⟨Utlb.init, fun q => -q, 1⟩

/-- Perform an operation; the slot that it brings to the front is used now. -/
def step (s : TracedUtlb) (op : TlbOp) : Option TracedUtlb :=
  some
    { tlb := s.tlb.step op
      lastUse := (s.tlb.position op).elim s.lastUse fun k =>
        update s.lastUse (s.tlb.age k) s.now
      now := s.now + 1 }

/-- The array is a permutation of the slots in the order of their use, with the reserved slot at the
last place. -/
structure Arranged (s : TracedUtlb) : Prop where
  permutation : Set.BijOn s.tlb.age (Set.Iio utlbSize) (Set.Iio utlbSize)
  reserved : s.tlb.age utlbUtcb = utlbUtcb
  ordered : Ordered s.lastUse s.tlb.age utlbUtcb
  past : ∀ i < utlbUtcb, s.lastUse (s.tlb.age i) < s.now

lemma arranged_init : Arranged init where
  permutation := Set.bijOn_id _
  reserved := rfl
  ordered := fun i j hij _ => Int.neg_lt_neg (Int.ofNat_lt.2 hij)
  past := fun i _ => by
    change -(i : ℤ) < 1
    omega

variable {s : TracedUtlb}

lemma Arranged.step {s s' : TracedUtlb} {op : TlbOp} (h : s.Arranged)
    (hstep : s.step op = some s') : s'.Arranged := by
  cases hstep
  have hage := Utlb.step_age s.tlb op
  rcases hpos : s.tlb.position op with _ | k
  · rw [hpos] at hage
    refine ⟨?_, ?_, ?_, ?_⟩ <;> simp only [hage, elim_none]
    · exact h.permutation
    · exact h.reserved
    · exact h.ordered
    · exact fun i hi => (h.past i hi).trans (Int.lt_succ _)
  · have hk : k ≤ utlbLast := Utlb.position_le hpos
    have hlast : utlbLast + 1 = utlbUtcb := rfl
    have hsize : utlbUtcb + 1 = utlbSize := rfl
    rw [hpos] at hage
    refine ⟨?_, ?_, ?_, ?_⟩ <;> simp only [hage, elim_some]
    · exact bijOn_moveToFront h.permutation (by omega)
    · have horigin : origin k utlbUtcb = utlbUtcb := by
        unfold origin
        split_ifs <;> omega
      rw [moveToFront_apply, horigin]
      exact h.reserved
    · refine h.ordered.moveToFront (h.permutation.injOn.mono ?_) (by omega) h.past
      exact Set.Iio_subset_Iio (by omega)
    intro i hi
    rw [moveToFront_apply]
    by_cases horigin : s.tlb.age (origin k i) = s.tlb.age k
    · rw [horigin, update_self]
      exact Int.lt_succ _
    · rw [update_of_ne horigin]
      refine (h.past _ ?_).trans (Int.lt_succ _)
      unfold origin
      split_ifs <;> omega

/-- The array is in order after every sequence of operations. -/
theorem arranged_of_run {ops : List TlbOp} (hrun : run step init ops = some s) : s.Arranged :=
  run_invariant (fun _ _ _ h hstep => h.step hstep) arranged_init hrun

/-- The victim is a slot other than the reserved one, and all others were used after it. -/
theorem Arranged.victim (h : s.Arranged) :
    s.tlb.age utlbLast < utlbUtcb ∧ ∀ q < utlbUtcb, q ≠ s.tlb.age utlbLast →
      s.lastUse (s.tlb.age utlbLast) < s.lastUse q := by
  have hmem : ∀ {q}, q < utlbUtcb → ∃ i < utlbUtcb, s.tlb.age i = q := by
    intro q hq
    obtain ⟨i, hi, rfl⟩ := h.permutation.surjOn (show q ∈ Set.Iio utlbSize from hq.trans (by decide))
    refine ⟨i, ?_, rfl⟩
    by_contra hlast
    have hilast : i = utlbUtcb := by
      have : i < utlbUtcb + 1 := hi
      omega
    rw [hilast, h.reserved] at hq
    exact absurd hq (lt_irrefl _)
  constructor
  · have hlt : s.tlb.age utlbLast < utlbUtcb + 1 :=
      h.permutation.mapsTo (show utlbLast ∈ Set.Iio utlbSize by decide)
    have hne : s.tlb.age utlbLast ≠ utlbUtcb := by
      intro heq
      have := h.permutation.injOn (show utlbLast ∈ Set.Iio utlbSize by decide)
        (show utlbUtcb ∈ Set.Iio utlbSize by decide) (heq.trans h.reserved.symm)
      exact absurd this (by decide)
    omega
  · intro q hq hne
    obtain ⟨i, hi, rfl⟩ := hmem hq
    refine Ordered.last_lt (n := utlbLast) h.ordered ?_
    have : i ≠ utlbLast := fun hi => hne (by rw [hi])
    have hlast : utlbLast + 1 = utlbUtcb := rfl
    omega

/-! ## When an operation does what it should -/

/-- What is expected of an operation that leads from `s` to `s'`. -/
structure Replaces (s : TracedUtlb) (op : TlbOp) (s' : TracedUtlb) : Prop where
  /-- The array stays a permutation of the slots. -/
  permutation : Set.BijOn s'.tlb.age (Set.Iio utlbSize) (Set.Iio utlbSize)
  /-- A page is loaded into the least recently used slot other than the reserved one. -/
  victim : ∀ e, s.tlb.loaded op = some e → ∃ v < utlbUtcb,
    (∀ q < utlbUtcb, q ≠ v → s.lastUse v < s.lastUse q) ∧ s'.tlb.slot = update s.tlb.slot v e
  /-- No address hits two entries. -/
  unique : s'.tlb.Unique
  /-- The entry for an address that is written for the first time gets its dirty bit. -/
  dirties : ∀ vaddr asid, op = .dirty vaddr asid → ∀ q < utlbUtcb,
    (s.tlb.slot q).hits vaddr asid = true → (s'.tlb.slot q).dirty = true

/-- What is expected of an operation in the state `s`. -/
def Correct (s : TracedUtlb) (op : TlbOp) : Prop := ∀ s', s.step op = some s' → s.Replaces op s'

/-- Nothing stands in the way of an operation. A page is loaded only if no other slot holds a valid
entry for a part of it. An address is written for the first time only if the slot that holds it
has its dirty bit already, or was loaded for the same address space, is not the least recently used
one, and comes before all others with an entry for the address, be they valid or not. -/
structure Undisturbed (s : TracedUtlb) (op : TlbOp) : Prop where
  alone : ∀ e, s.tlb.loaded op = some e → ∀ q < utlbSize, q ≠ s.tlb.age utlbLast →
    ¬ (s.tlb.slot q).Overlaps e
  first : ∀ vaddr asid, op = .dirty vaddr asid → ∀ q < utlbUtcb,
    (s.tlb.slot q).hits vaddr asid = true → (s.tlb.slot q).dirty = true ∨
      (s.tlb.slot q).asid = asid ∧ ∃ i < utlbLast, s.tlb.age i = q ∧
        ∀ j < i, (s.tlb.slot (s.tlb.age j)).dirtyMatches vaddr asid = false

/-- The array is in order, and no address hits two entries. -/
structure Good (s : TracedUtlb) : Prop where
  arranged : s.Arranged
  unique : s.tlb.Unique

/-- Loading a page keeps the hits unique if no other slot holds a part of it, and only then. -/
lemma unique_step_iff (h : s.Good) (op : TlbOp) :
    (s.tlb.step op).Unique ↔ ∀ e, s.tlb.loaded op = some e → ∀ q < utlbSize,
      q ≠ s.tlb.age utlbLast → ¬ (s.tlb.slot q).Overlaps e := by
  rcases hloaded : s.tlb.loaded op with _ | e
  · refine iff_of_true ?_ (by simp)
    intro q r vaddr asid hq hr hhq hhr
    exact h.unique q r vaddr asid hq hr (Utlb.step_hits_of_not_loaded hloaded hhq)
      (Utlb.step_hits_of_not_loaded hloaded hhr)
  · have hslot := Utlb.step_slot_of_loaded hloaded
    have hv : s.tlb.age utlbLast < utlbSize := h.arranged.victim.1.trans (by decide)
    set v := s.tlb.age utlbLast with hvdef
    have hself : (s.tlb.step op).slot v = e := by rw [hslot, update_self]
    have hother : ∀ q, q ≠ v → (s.tlb.step op).slot q = s.tlb.slot q := fun q hq => by
      rw [hslot, update_of_ne hq]
    constructor
    · rintro hunique e' he' q hq hne ⟨vaddr, asid, hhq, hhe⟩
      cases he'
      refine hne (hunique q v vaddr asid hq hv ?_ ?_)
      · rwa [hother q hne]
      · rwa [hself]
    · intro halone q r vaddr asid hq hr hhq hhr
      by_cases hqv : q = v <;> by_cases hrv : r = v
      · rw [hqv, hrv]
      · rw [hqv, hself] at hhq
        rw [hother r hrv] at hhr
        exact absurd ⟨vaddr, asid, hhr, hhq⟩ (halone e rfl r hr hrv)
      · rw [hrv, hself] at hhr
        rw [hother q hqv] at hhq
        exact absurd ⟨vaddr, asid, hhq, hhr⟩ (halone e rfl q hq hqv)
      · rw [hother q hqv] at hhq
        rw [hother r hrv] at hhr
        exact h.unique q r vaddr asid hq hr hhq hhr

/-- Which dirty bits are set after a first write. -/
lemma dirty_step_iff (s : Utlb) (vaddr asid q : ℕ) :
    ((s.dirtyTlb vaddr asid).slot q).dirty = true ↔ (s.slot q).dirty = true ∨
      ∃ i, s.search (TlbEntry.dirtyMatches vaddr asid) = some i ∧ s.age i = q := by
  rw [Utlb.dirtyTlb]
  rcases hsearch : s.search (TlbEntry.dirtyMatches vaddr asid) with _ | i
  · simp
  simp only [Utlb.utlbSort, some.injEq, exists_eq_left']
  by_cases hq : q = s.age i
  · subst hq
    simp
  · rw [update_of_ne hq]
    simp [Ne.symm hq]

/-- An operation does what it should exactly if nothing stands in its way. -/
lemma correct_iff_undisturbed (h : s.Good) (op : TlbOp) : s.Correct op ↔ s.Undisturbed op := by
  have hdirty : ∀ vaddr asid q, (s.tlb.slot q).hits vaddr asid = true →
      (((s.tlb.dirtyTlb vaddr asid).slot q).dirty = true ↔ (s.tlb.slot q).dirty = true ∨
        (s.tlb.slot q).asid = asid ∧ ∃ i < utlbLast, s.tlb.age i = q ∧
          ∀ j < i, (s.tlb.slot (s.tlb.age j)).dirtyMatches vaddr asid = false) := by
    intro vaddr asid q hhits
    rw [dirty_step_iff]
    refine or_congr_right ?_
    have hcovers : (s.tlb.slot q).covers vaddr = true := by
      simp only [TlbEntry.hits, Bool.and_eq_true] at hhits
      exact hhits.2
    constructor
    · rintro ⟨i, hi, rfl⟩
      obtain ⟨hlt, hmatch, hbefore⟩ := Utlb.search_eq_some_iff.1 hi
      refine ⟨?_, i, hlt, rfl, hbefore⟩
      simpa [TlbEntry.dirtyMatches, hcovers] using hmatch
    · rintro ⟨hasid, i, hlt, rfl, hbefore⟩
      refine ⟨i, Utlb.search_eq_some_iff.2 ⟨hlt, ?_, hbefore⟩, rfl⟩
      simp [TlbEntry.dirtyMatches, hcovers, hasid]
  constructor
  · intro hcorrect
    have hrep := hcorrect _ rfl
    refine ⟨(unique_step_iff h op).1 hrep.unique, ?_⟩
    rintro vaddr asid rfl q hq hhits
    exact (hdirty vaddr asid q hhits).1 (hrep.dirties vaddr asid rfl q hq hhits)
  · rintro hund s' hstep
    have harr := h.arranged.step hstep
    cases hstep
    refine ⟨harr.permutation, fun e he => ?_, (unique_step_iff h op).2 hund.alone, ?_⟩
    · exact ⟨_, h.arranged.victim.1, h.arranged.victim.2, Utlb.step_slot_of_loaded he⟩
    · rintro vaddr asid rfl q hq hhits
      exact (hdirty vaddr asid q hhits).2 (hund.first vaddr asid rfl q hq hhits)

lemma good_init : Good init where
  arranged := arranged_init
  unique := by
    intro q r vaddr asid _ _ hq hr
    have hreserved : ∀ q, (Utlb.init.slot q).hits vaddr asid = true → q = utlbUtcb := by
      intro q hhits
      by_contra hne
      have hslot : Utlb.init.slot q = ⟨0, none, 0, false, false, false⟩ := if_neg hne
      rw [hslot] at hhits
      exact absurd hhits (by simp [TlbEntry.hits])
    exact (hreserved q hq).trans (hreserved r hr).symm

/-- All operations of a sequence do what they should exactly if nothing stands in the way of any of
them. -/
theorem correct_iff (ops : List TlbOp) :
    RunMeets step Correct init ops ↔ RunMeets step Undisturbed init ops := by
  refine runMeets_congr (I := Good) (fun s op h => correct_iff_undisturbed h op) ?_ good_init ops
  intro s op s' h hund hstep
  have hrep := (correct_iff_undisturbed h op).2 hund s' hstep
  exact ⟨h.arranged.step hstep, hrep.unique⟩

/-- A page of 64K is loaded and flushed, a 4K page at its place is loaded, another address of the
former is looked for, and the 4K page is written for the first time. -/
def staleEntry : List TlbOp :=
  [.fill 0x10000 1 ⟨.size64k, false⟩, .flush 0x10000 1, .fill 0x10000 1 ⟨.size4k, false⟩,
    .refill 0x11000 1 none, .dirty 0x10000 1]

/-- The dirty bit is set in the entry that was flushed. -/
theorem not_correct_staleEntry : ¬ RunMeets step Correct init staleEntry := by
  intro h
  have hlast := ((((h.2 _ rfl).2 _ rfl).2 _ rfl).2 _ rfl).1 _ rfl
  have hdirty := hlast.dirties 0x10000 1 rfl 61 (by decide) (by decide +kernel)
  exact absurd hdirty (by decide +kernel)

/-- A page that is held by the least recently used slot alone does not get its dirty bit. -/
theorem dirtyTlb_of_oldest {s : Utlb} {vaddr asid : ℕ}
    (h : ∀ i < utlbLast, (s.slot (s.age i)).dirtyMatches vaddr asid = false) :
    s.dirtyTlb vaddr asid = s := by
  have hsearch : s.search (TlbEntry.dirtyMatches vaddr asid) = none := by
    rw [Utlb.search, List.find?_eq_none]
    intro i hi
    simp [h i (List.mem_range.1 hi)]
  rw [Utlb.dirtyTlb, hsearch]

end TracedUtlb

end Okl4Kernel
