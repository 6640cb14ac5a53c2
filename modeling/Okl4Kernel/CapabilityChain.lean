import Okl4Kernel.Capability
import Okl4Kernel.Lib.LinkedChain
import Okl4Kernel.Lib.TransitionSystem

/-!
# The chains of capabilities and references

`Linked` is the invariant of `Caps`: the pointers that begin at the master capability of a thread
lead through exactly the capabilities and references that name the thread, and then to null. It is
kept by linking a new element in behind the first one, by taking one out that is not the first, and
by clearing a whole chain; every system call is made of these.
-/

namespace Okl4Kernel.Caps

open LinkedChain TransitionSystem Function List Option Caps CapWord CapAddr

variable {τ κ ι : Type*}
variable {s : Caps τ κ ι}

/-- The pointers that make up the chains. -/
inductive CapCell (τ κ ι : Type*)
  | master (t : τ)
  | next (a : CapAddr τ κ ι)
  deriving DecidableEq

/-- What a pointer holds. -/
def cell (s : Caps τ κ ι) : CapCell τ κ ι → Option (CapAddr τ κ ι)
  | .master t => s.masterCap t
  | .next a => s.next a

/-- The chain of the thread consists of `xs`, in this order. -/
def Chain (s : Caps τ κ ι) (t : τ) (xs : List (CapAddr τ κ ι)) : Prop :=
  Seg CapCell.next s.cell (.master t) xs none

@[simp] lemma tcb_invalid : (invalid : CapWord τ).tcb = none := rfl

lemma next_injective : Function.Injective (CapCell.next : CapAddr τ κ ι → CapCell τ κ ι) :=
  fun _ _ h => CapCell.next.inj h

/-- The chain of a thread contains exactly what names the thread. -/
structure Chained (s : Caps τ κ ι) : Prop where
  chain : ∀ t, ∃ xs, s.Chain t xs ∧ ∀ a, a ∈ xs ↔ (s.word a).tcb = some t
  invalid_next : ∀ a, s.word a = .invalid → s.next a = none

/-- The threads of `live` have a master capability, only these are named, and capabilities are valid
only where there is memory for them. While a thread is deleted `live` is ahead of the field. -/
structure Placed (live : τ → Bool) (s : Caps τ κ ι) : Prop where
  master : ∀ t, live t = true → ∃ c i, s.masterCap t = some (.entry c i) ∧
    s.word (.entry c i) = .thread t
  named : ∀ a t, (s.word a).tcb = some t → live t = true
  entry_lt : ∀ c i, s.word (.entry c i) ≠ .invalid → i < s.numEntries c

/-- Chains and places are as they should be, if `live` are the threads that exist. -/
structure LinkedFor (live : τ → Bool) (s : Caps τ κ ι) : Prop extends Chained s, Placed live s

/-- The invariant of capabilities and references: besides, threads that do not exist have no
handlers. -/
structure Linked (s : Caps τ κ ι) : Prop extends LinkedFor s.live s where
  owner : ∀ t, s.live t = false → s.word (.pager t) = .invalid ∧ s.word (.exceptionHandler t) = .invalid

/-- The same threads and capability lists exist, with the same master capabilities. -/
structure SameObjects (s s' : Caps τ κ ι) : Prop where
  masterCap : s'.masterCap = s.masterCap
  live : s'.live = s.live
  clist : s'.clist = s.clist

lemma SameObjects.trans {s' s'' : Caps τ κ ι} (h : SameObjects s s') (h' : SameObjects s' s'') :
    SameObjects s s'' :=
  ⟨h'.masterCap.trans h.masterCap, h'.live.trans h.live, h'.clist.trans h.clist⟩

lemma linked_init : (init : Caps τ κ ι).Linked where
  chain t := ⟨[], rfl, by simp [init, tcb]⟩
  invalid_next _ _ := rfl
  master t ht := absurd ht (by simp [init])
  named a t h := absurd h (by simp [init, tcb])
  entry_lt c i h := absurd rfl h
  owner _ _ := ⟨rfl, rfl⟩

/-- A master capability is an entry of a capability list, and a thread capability. -/
lemma Placed.master_eq {live : τ → Bool} (h : s.Placed live) {a : CapAddr τ κ ι} {t : τ}
    (ht : live t = true) (ha : s.masterCap t = some a) :
    (∃ c i, a = .entry c i) ∧ s.word a = .thread t := by
  obtain ⟨c, i, hmaster, hword⟩ := h.master t ht
  obtain rfl : a = .entry c i := some.inj (ha.symm.trans hmaster)
  exact ⟨⟨c, i, rfl⟩, hword⟩

/-- Places that become invalid, as long as the master capabilities of the threads that remain do
not. -/
lemma Placed.clear {s' : Caps τ κ ι} {live live' : τ → Bool} (h : s.Placed live)
    (hword : ∀ b, s'.word b = s.word b ∨ s'.word b = .invalid)
    (hnamed : ∀ b t, (s'.word b).tcb = some t → live t = true → live' t = true) (hmaster : ∀ t,
      live' t = true → live t = true ∧ s'.masterCap t = s.masterCap t ∧ ∀ b, s.masterCap t = some b
      → s'.word b = s.word b) (hclist : s'.clist = s.clist) : s'.Placed live' := by
  refine ⟨fun t ht => ?_, fun b t hb => ?_, fun c i hc => ?_⟩
  · obtain ⟨hlive, heq, hthread⟩ := hmaster t ht
    obtain ⟨c, i, hcap, hcapword⟩ := h.master t hlive
    exact ⟨c, i, by rw [heq, hcap], (hthread _ hcap).trans hcapword⟩
  · rcases hword b with heq | heq
    · exact hnamed b t hb (h.named b t (heq ▸ hb))
    · simp [heq, tcb] at hb
  · rw [numEntries, hclist]
    rcases hword (.entry c i) with heq | heq
    · exact h.entry_lt c i (heq ▸ hc)
    · exact absurd heq hc

section Cells

variable [DecidableEq τ] [DecidableEq κ] [DecidableEq ι]

@[simp] lemma cell_setWord (s : Caps τ κ ι) (a : CapAddr τ κ ι) (w : CapWord τ) :
    (s.setWord a w).cell = s.cell := rfl

lemma cell_setNext (s : Caps τ κ ι) (a : CapAddr τ κ ι) (b : Option (CapAddr τ κ ι)) :
    (s.setNext a b).cell = update s.cell (.next a) b := by
  funext c
  cases c with
  | master t => simp [cell, setNext]
  | next a' => by_cases h : a' = a <;> simp [cell, setNext, update, h]

lemma cell_setMasterCap (s : Caps τ κ ι) (t : τ) (b : Option (CapAddr τ κ ι)) :
    (s.setMasterCap t b).cell = update s.cell (.master t) b := by
  funext c
  cases c with
  | master t' => by_cases h : t' = t <;> simp [cell, setMasterCap, update, h]
  | next a => simp [cell, setMasterCap]

end Cells

section Writes

variable {a m : CapAddr τ κ ι} {t : τ}

/-- The place is not in the chain of a thread that it does not name. -/
lemma ne_of_tcb {b : CapAddr τ κ ι} {u : τ} (ha : (s.word a).tcb ≠ some u)
    (hb : (s.word b).tcb = some u) : b ≠ a := by
  rintro rfl
  exact ha hb

lemma Chain.eq_cons {xs : List (CapAddr τ κ ι)} (hxs : s.Chain t xs) (hm : s.masterCap t = some m) :
    ∃ rest, xs = m :: rest := by
  rcases xs with _ | ⟨x, rest⟩
  · exact absurd (hxs.symm.trans hm) (by simp)
  · exact ⟨rest, by rw [some.inj (hm.symm.trans hxs.1)]⟩

/-- It is enough to look at the chain of one thread, if the other chains are not written. -/
lemma Chained.of_thread {s' : Caps τ κ ι} (h : s.Chained) (t : τ) (xs : List (CapAddr τ κ ι))
    (hxs : s'.Chain t xs) (hmem : ∀ b, b ∈ xs ↔ (s'.word b).tcb = some t)
    (hword : ∀ u, u ≠ t → ∀ b, (s'.word b).tcb = some u ↔ (s.word b).tcb = some u)
    (hmaster : ∀ u, u ≠ t → s'.masterCap u = s.masterCap u)
    (hnext : ∀ u, u ≠ t → ∀ b, (s.word b).tcb = some u → s'.next b = s.next b)
    (hinvalid : ∀ b, s'.word b = .invalid → s'.next b = none) : s'.Chained := by
  refine ⟨fun u => ?_, hinvalid⟩
  by_cases hu : u = t
  · exact hu ▸ ⟨xs, hxs, hmem⟩
  · obtain ⟨ys, hys, hmem'⟩ := h.chain u
    exact ⟨ys, Seg.congr hys (hmaster u hu) fun b hb => hnext u hu b ((hmem' b).1 hb),
      fun b => (hmem' b).trans (hword u hu b).symm⟩

variable [DecidableEq τ] [DecidableEq κ] [DecidableEq ι] {w : CapWord τ}

/-- Writing what an invalid place holds affects only the thread that is named there now. -/
lemma tcb_update {b : CapAddr τ κ ι} {u : τ} (ha : s.word a = .invalid) (hw : w.tcb = some t)
    (hu : u ≠ t) : (update s.word a w b).tcb = some u ↔ (s.word b).tcb = some u := by
  by_cases hb : b = a
  · subst hb
    rw [update_self, hw, ha]
    simp [tcb, hu.symm]
  · rw [update_of_ne hb]

/-- A valid capability or reference that is written in an invalid place, which is linked into the
chain of the thread. -/
lemma Chained.link {s' : Caps τ κ ι} {xs ys : List (CapAddr τ κ ι)} (h : s.Chained)
    (hw : w.tcb = some t) (ha : s.word a = .invalid) (hchain : s.Chain t (xs ++ ys))
    (hword : s'.word = update s.word a w) (hcell : s'.cell = update (update s.cell
      (lastCell .next (.master t) xs) (some a)) (.next a) ys.head?) : s'.Chained := by
  obtain ⟨l, hl, hmem⟩ := h.chain t
  obtain rfl : xs ++ ys = l := hchain.unique hl
  have hnot : a ∉ xs ++ ys := fun hin => by simpa [ha, tcb] using (hmem a).1 hin
  have hnext : ∀ b, b ≠ a → (s.word b).tcb ≠ some t → s'.next b = s.next b := by
    intro b hba hb
    have hxs : b ∉ xs := fun hin => hb ((hmem b).1 (mem_append_left ys hin))
    have hlast := lastCell_ne next_injective (c := .master t) (by simp) hxs
    exact (congrFun hcell (.next b)).trans
      (by rw [update_of_ne (next_injective.ne hba), update_of_ne hlast, cell])
  refine h.of_thread t (xs ++ a :: ys) ?_ (fun b => ?_)
    (fun u hu b => hword ▸ tcb_update ha hw hu) (fun u hu => ?_) (fun u hu b hb => ?_)
    fun b hb => ?_
  · have hself : Seg CapCell.next s.cell (.next a) [] (s.next a) := rfl
    rw [Chain, hcell]
    exact hchain.splice hself next_injective
      (nodup_middle.2 (nodup_cons.2 ⟨hnot, hchain.nodup⟩)) nofun
  · rw [hword, perm_middle.mem_iff, mem_cons, hmem]
    by_cases hb : b = a <;> simp [hb, hw]
  · refine (congrFun hcell (.master u)).trans ?_
    rcases @lastCell_mem _ _ CapCell.next (.master t) xs with heq | ⟨x, -, heq⟩ <;> simp [heq, hu, cell]
  · exact hnext b (ne_of_tcb (by simp [ha]) hb) (by simpa [hb] using hu)
  · have hba : b ≠ a := by
      rintro rfl
      rw [hword, update_self] at hb
      simp [hb] at hw
    rw [hword, update_of_ne hba] at hb
    rw [hnext b hba (by simp [hb]), h.invalid_next b hb]

/-- A place that is linked in behind the master capability. -/
lemma Chained.addBehind (h : s.Chained) (hw : w.tcb = some t) (ha : s.word a = .invalid)
    (hm : s.masterCap t = some m) : ((s.setWord a w).addReferenceBehind m a).Chained := by
  obtain ⟨xs, hxs, hmem⟩ := h.chain t
  obtain ⟨rest, rfl⟩ := hxs.eq_cons hm
  have ham : a ≠ m := by
    rintro rfl
    simpa [ha] using (hmem a).1 mem_cons_self
  have hnext : s.next m = rest.head? := (Seg.cell_eq hxs.2 : s.cell (.next m) = _)
  refine h.link hw ha (show s.Chain t ([m] ++ rest) from hxs) rfl ?_
  rw [addReferenceBehind, cell_setNext, cell_setNext, cell_setWord,
    update_comm (next_injective.ne ham), ← hnext]
  rfl

lemma Chained.addFirst (h : s.Chained) (hw : w.tcb = some t) (ha : s.word a = .invalid)
    (hm : s.masterCap t = none) : ((s.setWord a w).setMasterCap t (some a)).Chained := by
  refine h.link hw ha (show s.Chain t ([] ++ []) from hm) rfl ?_
  have hnext : none = update s.cell (.master t) (some a) (.next a) := (h.invalid_next a ha).symm
  exact (cell_setMasterCap ..).trans (update_eq_self_iff.2 hnext).symm

/-- A valid capability or reference that is written in an invalid place. -/
lemma Placed.write {live live' : τ → Bool} (h : s.Placed live) {s' : Caps τ κ ι}
    (hw : w.tcb = some t) (ha : s.word a = .invalid) (hlive : live' t = true)
    (hroom : ∀ c i, a = .entry c i → i < s.numEntries c) (hword : s'.word = update s.word a w)
    (hother : ∀ u, u ≠ t → live' u = live u ∧ s'.masterCap u = s.masterCap u)
    (hmaster : ∃ c i, s'.masterCap t = some (.entry c i) ∧ s'.word (.entry c i) = .thread t)
    (hclist : s'.clist = s.clist) : s'.Placed live' := by
  refine ⟨fun u hu => ?_, fun b u hb => ?_, fun c i hc => ?_⟩
  · by_cases hut : u = t
    · exact hut ▸ hmaster
    obtain ⟨c, i, hcap, hthread⟩ := h.master u ((hother u hut).1 ▸ hu)
    have hne : entry c i ≠ a := by
      rintro rfl
      simp [ha] at hthread
    exact ⟨c, i, (hother u hut).2.trans hcap, by rw [hword, update_of_ne hne, hthread]⟩
  · by_cases hut : u = t
    · exact hut ▸ hlive
    · rw [hword] at hb
      rw [(hother u hut).1, h.named b u ((tcb_update ha hw hut).1 hb)]
  · rw [numEntries, hclist]
    by_cases he : entry c i = a
    · exact hroom c i he.symm
    · rw [hword, update_of_ne he] at hc
      exact h.entry_lt c i hc

lemma LinkedFor.addBehind {live : τ → Bool} (h : s.LinkedFor live) (hw : w.tcb = some t)
    (ha : s.word a = .invalid) (hlive : live t = true) (hm : s.masterCap t = some m)
    (hroom : ∀ c i, a = .entry c i → i < s.numEntries c) :
    ((s.setWord a w).addReferenceBehind m a).LinkedFor live where
  toChained := h.toChained.addBehind hw ha hm
  toPlaced := by
    refine h.toPlaced.write hw ha hlive hroom rfl (fun _ _ => ⟨rfl, rfl⟩) ?_ rfl
    obtain ⟨c, i, hcap, hthread⟩ := h.master t hlive
    have hne : entry c i ≠ a := by
      rintro rfl
      simp [ha] at hthread
    exact ⟨c, i, hcap, (update_of_ne hne _ _).trans hthread⟩

end Writes

/-! ## Walking along a chain -/

section Walks

variable [DecidableEq τ] [DecidableEq κ] [DecidableEq ι]
variable {a : CapAddr τ κ ι} {xs : List (CapAddr τ κ ι)} {t : τ}

lemma findPrev_eq {p : CapAddr τ κ ι} {ys : List (CapAddr τ κ ι)} {c : CapCell τ κ ι} {n : ℕ}
    (h : Seg CapCell.next s.cell c (xs ++ p :: a :: ys) none) (hn : xs.length < n) :
    s.findPrev a n (s.cell c) = some p := by
  induction xs generalizing c n with
  | nil =>
    obtain ⟨n, rfl⟩ := Nat.exists_eq_succ_of_ne_zero (Nat.ne_of_gt hn)
    have hnext : s.next p = some a := h.2.1
    rw [h.1, findPrev, if_pos hnext]
  | cons x xs ih =>
    obtain ⟨n, rfl⟩ := Nat.exists_eq_succ_of_ne_zero (Nat.ne_of_gt (Nat.zero_lt_of_lt hn))
    have hnext : s.next x = (xs ++ p :: a :: ys).head? :=
      (Seg.cell_eq h.2 : s.cell (.next x) = _)
    have hne : s.next x ≠ some a := by
      rw [hnext]
      have hnodup : (xs ++ p :: a :: ys).Nodup := Seg.nodup h.2
      rcases xs with _ | ⟨y, xs⟩
      · simp only [nil_append, nodup_cons, mem_cons, not_or] at hnodup
        simpa using hnodup.1.1
      · simp only [cons_append, nodup_cons, mem_append, mem_cons, not_or]
          at hnodup
        simpa using hnodup.1.2.2.1
    rw [h.1, findPrev, if_neg hne]
    exact ih h.2 (by simpa using hn)

/-- Clearing a chain clears its elements and nothing else. -/
lemma invalidateLoop_eq {temp : Option (CapAddr τ κ ι)} {n : ℕ}
    (h : Seg CapCell.next (update s.cell (.master t) temp) (.master t) xs none)
    (hn : xs.length ≤ n) : invalidateLoop n s temp = { s with
      word := fun a => if a ∈ xs then .invalid else s.word a
      next := fun a => if a ∈ xs then none else s.next a } := by
  induction xs generalizing s temp n with
  | nil =>
    have htemp : temp = none := by simpa [Seg] using h
    subst htemp
    cases n <;> simp [invalidateLoop]
  | cons x xs ih =>
    obtain ⟨n, rfl⟩ := Nat.exists_eq_succ_of_ne_zero (Nat.ne_of_gt (Nat.zero_lt_of_lt hn))
    have hnodup := Seg.nodup h
    obtain ⟨hhead, hrest⟩ := h
    have htemp : temp = some x := by simpa using hhead
    subst htemp
    -- The variable that runs along the chain takes the place of the master capability.
    have hrest' : Seg CapCell.next
        (update ((s.setWord x .invalid).setNext x none).cell (.master t) (s.next x))
        (.master t) xs none := by
      refine hrest.congr (by simp [cell]) fun y hy => ?_
      have hyx : y ≠ x := fun e => (nodup_cons.1 hnodup).1 (e ▸ hy)
      simp [cell_setNext, hyx]
    rw [invalidateLoop, ih hrest' (by simpa using hn)]
    simp only [setWord, setNext, mk.injEq, and_true]
    constructor <;>
    · funext a
      by_cases ha : a = x <;> simp [ha]

variable [Fintype τ] [Fintype κ] [Fintype ι] {live : τ → Bool}

/-- Everything that is valid is counted in `addresses`. -/
lemma Placed.mem_addresses (h : s.Placed live) (ha : (s.word a).tcb = some t) :
    a ∈ s.addresses := by
  cases a with
  | entry c i =>
    have hlt : i < s.numEntries c := h.entry_lt c i fun e => by simp [e, tcb] at ha
    simpa [addresses] using hlt
  | pager t => simp [addresses]
  | exceptionHandler t => simp [addresses]
  | interrupt irq => simp [addresses]

lemma Placed.length_le (h : s.Placed live) (hxs : s.Chain t xs)
    (hmem : ∀ a, a ∈ xs ↔ (s.word a).tcb = some t) : xs.length ≤ s.addresses.card := by
  rw [← toFinset_card_of_nodup hxs.nodup]
  exact Finset.card_le_card fun a ha => h.mem_addresses ((hmem a).1 (mem_toFinset.1 ha))

lemma removeReference_same (t : τ) (a : CapAddr τ κ ι) : SameObjects s (s.removeReference t a) := by
  unfold removeReference
  split <;> exact ⟨rfl, rfl, rfl⟩

section

variable (h : s.LinkedFor live)
include h

section Remove

variable (ha : (s.word a).tcb = some t) (hm : s.masterCap t ≠ some a)
include ha hm

/-- Taking something out of a chain that is not the master capability. -/
lemma LinkedFor.removeReference_eq : ∃ xs p ys, s.Chain t (xs ++ p :: a :: ys) ∧
      (∀ b, b ∈ xs ++ p :: a :: ys ↔ (s.word b).tcb = some t) ∧
      s.removeReference t a = ((s.setNext p (s.next a)).setWord a .invalid).setNext a none := by
  obtain ⟨l, hl, hmem⟩ := h.chain t
  obtain ⟨before, ys, rfl⟩ := append_of_mem ((hmem a).2 ha)
  rcases eq_nil_or_concat' before with rfl | ⟨xs, p, rfl⟩
  · exact absurd hl.1 hm
  rw [append_assoc] at hl hmem
  have hlen : xs.length < s.addresses.card := by
    have := h.toPlaced.length_le hl hmem
    simp at this
    omega
  refine ⟨xs, p, ys, hl, hmem, ?_⟩
  have hprev : s.findPrev a s.addresses.card (s.masterCap t) = some p := findPrev_eq hl hlen
  rw [removeReference, hprev]

/-- The other chains, and the rest of its own, survive the removal of an element, and nothing else
becomes invalid. -/
lemma LinkedFor.chained_removeReference : (s.removeReference t a).Chained ∧
    (s.removeReference t a).word = update s.word a .invalid := by
  obtain ⟨xs, p, ys, hl, hmem, heq⟩ := h.removeReference_eq ha hm
  have hword : (s.removeReference t a).word = update s.word a .invalid := by
    rw [heq]
    rfl
  have hcell : (s.removeReference t a).cell =
      update (update s.cell (.next p) (s.next a)) (.next a) none := by
    rw [heq, cell_setNext, cell_setWord, cell_setNext]
  have hpt : (s.word p).tcb = some t := (hmem p).1 (by simp)
  have hnodup : (xs ++ p :: a :: ys).Nodup := Seg.nodup hl
  have hnot : a ∉ xs ++ p :: ys := by
    rw [append_cons] at hnodup ⊢
    exact (nodup_cons.1 (nodup_middle.1 hnodup)).1
  have hnext : ∀ b, b ≠ a → (s.word b).tcb ≠ some t →
      (s.removeReference t a).next b = s.next b := by
    intro b hba hb
    have hbp : b ≠ p := fun e => hb (e ▸ hpt)
    exact (congrFun hcell (.next b)).trans (by simp [hba, hbp, cell])
  refine ⟨h.of_thread t (xs ++ p :: ys) ?_ (fun b => ?_) (fun u hu b => ?_)
    (fun u _ => congrFun (removeReference_same t a).masterCap u) (fun u hu b hb => ?_)
    fun b hb => ?_, hword⟩
  · have hl' : Seg CapCell.next s.cell (.master t) ((xs ++ [p]) ++ ([a] ++ ys)) none := by
      simpa [Chain] using hl
    have hnext : s.next a = ys.head? := by
      have hbehind := (seg_append.1 hl).2
      exact (Seg.cell_eq hbehind.2.2 : s.cell (.next a) = _)
    have hcut := hl'.cut next_injective (by simp)
    rw [lastCell_concat, ← hnext, append_assoc] at hcut
    rw [Chain, hcell]
    refine hcut.congr (by simp) fun b hb => ?_
    have hba : b ≠ a := fun e => hnot (by simpa [e] using hb)
    simp [hba]
  · rw [hword]
    by_cases hb : b = a
    · subst hb
      simpa [tcb] using hnot
    · rw [update_of_ne hb, ← hmem]
      simp [hb]
  · rw [hword]
    by_cases hb : b = a
    · simp [hb, ha, Ne.symm hu]
    · rw [update_of_ne hb]
  · exact hnext b (ne_of_tcb (by simpa [ha] using Ne.symm hu) hb) (by simpa [hb] using hu)
  · by_cases hba : b = a
    · exact (congrFun hcell (.next b)).trans (by simp [hba])
    · rw [hword, update_of_ne hba] at hb
      rw [hnext b hba (by simp [hb]), h.invalid_next b hb]

lemma LinkedFor.removeReference : (s.removeReference t a).LinkedFor live ∧
    (s.removeReference t a).word = update s.word a .invalid := by
  obtain ⟨hchained, hword⟩ := h.chained_removeReference ha hm
  refine ⟨⟨hchained, h.toPlaced.clear (fun b => ?_) (fun _ _ _ hlive => hlive)
    (fun u hu => ⟨hu, ?_, fun b hb => ?_⟩) (removeReference_same t a).clist⟩, hword⟩
  · by_cases hb : b = a
    · exact .inr (by rw [hword, hb, update_self])
    · exact .inl (by rw [hword, update_of_ne hb])
  · rw [(removeReference_same t a).masterCap]
  have hba : b ≠ a := by
    rintro rfl
    have hut : u = t := by simpa [(h.master_eq hu hb).2, tcb] using ha
    exact hm (hut ▸ hb)
  rw [hword, update_of_ne hba]

end Remove

/-- Clearing the chain of a thread makes invalid what names the thread. -/
lemma LinkedFor.invalidateReference_eq (t : τ) : s.invalidateReference t =
    { s with
      word := fun a => if (s.word a).tcb = some t then .invalid else s.word a
      next := fun a => if (s.word a).tcb = some t then none else s.next a
      masterCap := update s.masterCap t none } := by
  obtain ⟨xs, hxs, hmem⟩ := h.chain t
  have hself : update s.cell (.master t) (s.masterCap t) = s.cell :=
    update_eq_self (CapCell.master t) s.cell
  have hxs' : Seg CapCell.next (update s.cell (.master t) (s.masterCap t)) (.master t) xs
      none := by
    rw [hself]
    exact hxs
  rw [invalidateReference, invalidateLoop_eq hxs' (h.toPlaced.length_le hxs hmem)]
  simp only [hmem]
  rfl

/-- Clearing the chain of a thread, which from then on counts as deleted. -/
lemma LinkedFor.invalidateReference (t : τ) :
    (s.invalidateReference t).LinkedFor (update live t false) := by
  rw [h.invalidateReference_eq]
  have hnames : ∀ a u, u ≠ t → (s.word a).tcb = some u → (s.word a).tcb ≠ some t := by
    intro a u hu ha hin
    exact hu (some.inj (ha.symm.trans hin))
  refine ⟨h.of_thread t [] (by simp [Chain, Seg, cell]) (fun b => ?_)
      (fun u hu b => ?_) (fun u hu => update_of_ne hu _ _)
      (fun u hu b hb => if_neg (hnames b u hu hb)) fun b hb => ?_,
    h.toPlaced.clear (fun b => ?_) (fun b u hb hu => ?_) (fun u hu => ?_) rfl⟩
  · by_cases hb : (s.word b).tcb = some t <;> simp [hb]
  · by_cases hb : (s.word b).tcb = some t <;> simp [hb, Ne.symm hu]
  · by_cases hin : (s.word b).tcb = some t
    · simp [hin]
    · simp only [hin, if_false] at hb ⊢
      exact h.invalid_next b hb
  · by_cases hin : (s.word b).tcb = some t
    · exact .inr (by simp [hin])
    · exact .inl (by simp [hin])
  · have hut : u ≠ t := by
      rintro rfl
      by_cases hin : (s.word b).tcb = some u <;> simp [hin] at hb
    rwa [update_of_ne hut]
  · have hut : u ≠ t := by
      rintro rfl
      simp at hu
    rw [update_of_ne hut] at hu
    refine ⟨hu, update_of_ne hut _ _, fun b hb => if_neg (hnames b u hut ?_)⟩
    rw [(h.master_eq hu hb).2, tcb]

end

end Walks

/-! ## References -/

section References

variable {live : τ → Bool} {ref : CapAddr τ κ ι} {t : τ}

lemma Placed.master_entry (h : s.Placed live) (ht : live t = true)
    (href : ∀ c i, ref ≠ .entry c i) : s.masterCap t ≠ some ref := by
  intro hm
  obtain ⟨⟨c, i, hentry⟩, -⟩ := h.master_eq ht hm
  exact href c i hentry

variable [DecidableEq τ] [DecidableEq κ] [DecidableEq ι]

lemma LinkedFor.setReferenced (h : s.LinkedFor live) (href : ∀ c i, ref ≠ .entry c i)
    (hinvalid : s.word ref = .invalid) (ht : live t = true) :
    (s.setReferenced ref t).LinkedFor live ∧
      (s.setReferenced ref t).word = update s.word ref (.ref t) := by
  obtain ⟨c, i, hmaster, -⟩ := h.master t ht
  have heq : s.setReferenced ref t = (s.setWord ref (.ref t)).addReferenceBehind (.entry c i) ref := by
    rw [Caps.setReferenced]
    simp only [show (s.setWord ref (.ref t)).masterCap t = some (.entry c i) from hmaster]
  rw [heq]
  exact ⟨h.addBehind rfl hinvalid ht hmaster fun c' i' e => absurd e (href c' i'), rfl⟩

lemma setReferenced_same (ref : CapAddr τ κ ι) (t : τ) : SameObjects s (s.setReferenced ref t) := by
  unfold setReferenced
  dsimp only
  split <;> exact ⟨rfl, rfl, rfl⟩

variable [Fintype τ] [Fintype κ] [Fintype ι]

lemma LinkedFor.clearReference (h : s.LinkedFor live) (ref : CapAddr τ κ ι)
    (href : ∀ c i, ref ≠ .entry c i) : (s.clearReference ref).LinkedFor live ∧
      (s.clearReference ref).word = update s.word ref .invalid := by
  unfold Caps.clearReference
  rcases hold : (s.word ref).tcb with _ | old
  · have hinvalid : s.word ref = .invalid := by
      cases hw : s.word ref <;> simp [hw, tcb] at hold ⊢
    exact ⟨h, by rw [← hinvalid, update_eq_self]⟩
  · exact h.removeReference hold (h.toPlaced.master_entry (h.named ref old hold) href)

lemma clearReference_same (ref : CapAddr τ κ ι) : SameObjects s (s.clearReference ref) := by
  unfold clearReference
  split
  · exact ⟨rfl, rfl, rfl⟩
  · exact removeReference_same _ _

lemma LinkedFor.changeReference (h : s.LinkedFor live) (href : ∀ c i, ref ≠ .entry c i)
    (ht : live t = true) : (s.changeReference ref (some t)).LinkedFor live ∧
      (s.changeReference ref (some t)).word = update s.word ref (.ref t) := by
  obtain ⟨hlinked, hword⟩ := h.clearReference ref href
  have hinvalid : (s.clearReference ref).word ref = .invalid := by
    rw [hword, update_self]
  obtain ⟨hlinked', hword'⟩ := hlinked.setReferenced href hinvalid ht
  refine ⟨hlinked', ?_⟩
  rw [Caps.changeReference, hword', hword, update_idem]

lemma changeReference_same (ref : CapAddr τ κ ι) (tcb : Option τ) :
    SameObjects s (s.changeReference ref tcb) := by
  rcases tcb with _ | t
  · exact clearReference_same ref
  · exact (clearReference_same ref).trans (setReferenced_same ref t)

end References

/-! ## Handlers -/

section Handlers

variable {c : κ} {tid : ℕ}

/-- A handler argument is accepted: a thread is found, or it is one of the two special values. -/
def handlerOk (s : Caps τ κ ι) (c : κ) (tid : ℕ) : Bool :=
  (s.lookupThreadCap c tid).isSome || isNilthread tid || isAnythread tid

/-- A handler argument that is not accepted names no thread. -/
lemma lookupThreadCap_of_not_handlerOk (hok : s.handlerOk c tid = false) :
    s.lookupThreadCap c tid = none := by
  rw [handlerOk, Bool.or_eq_false_iff, Bool.or_eq_false_iff] at hok
  exact isSome_eq_false_iff.1 hok.1.1 |> isNone_iff_eq_none.1

lemma lookupThreadCap_of_not_isCapType (hcap : isCapType tid = false) :
    s.lookupThreadCap c tid = none := if_pos (.inl hcap)

lemma lookupThreadCap_congr {s' : Caps τ κ ι} (hclist : s'.clist = s.clist)
    (hword : ∀ i, s'.word (.entry c i) = s.word (.entry c i)) (tid : ℕ) :
    s'.lookupThreadCap c tid = s.lookupThreadCap c tid := by
  have hvalid : s'.isValid c tid = s.isValid c tid := by rw [isValid, numEntries, hclist]; rfl
  unfold lookupThreadCap
  rw [hvalid, hword]

lemma not_special_of_isCapType (hcap : isCapType tid = true) :
    isNilthread tid = false ∧ isAnythread tid = false := by
  constructor
  all_goals
    rw [← Bool.not_eq_true]
    intro hspecial
    rw [of_decide_eq_true hspecial] at hcap
    exact absurd hcap (by decide)

variable [DecidableEq τ] [DecidableEq κ] [DecidableEq ι]

/-- Write a reference, if there is a thread for it. -/
def withRef (word : CapAddr τ κ ι → CapWord τ) (ref : CapAddr τ κ ι) :
    Option τ → CapAddr τ κ ι → CapWord τ
  | none => word
  | some t => update word ref (.ref t)

lemma withRef_of_ne {word : CapAddr τ κ ι → CapWord τ}
    {ref a : CapAddr τ κ ι} (hne : a ≠ ref) (t : Option τ) : withRef word ref t a = word a := by
  rcases t with _ | t
  · rfl
  · exact update_of_ne hne _ _

end Handlers

/-! ## System calls -/

section Calls

variable {c : κ} {t : τ} {tid : ℕ}

lemma Placed.lookupThreadCap {live : τ → Bool} (h : s.Placed live)
    (hlookup : s.lookupThreadCap c tid = some t) :
    s.word (.entry c (capIndex tid)) = .thread t ∧ live t = true := by
  unfold Caps.lookupThreadCap at hlookup
  split_ifs at hlookup
  cases hword : s.word (.entry c (capIndex tid)) with
  | thread u =>
    rw [hword] at hlookup
    obtain rfl : u = t := by simpa using hlookup
    exact ⟨rfl, h.named _ u (by rw [hword]; rfl)⟩
  | invalid | ipc u | ref u => simp [hword] at hlookup

lemma Linked.masterCap_eq_none (h : s.Linked) (ht : s.live t = false) : s.masterCap t = none := by
  obtain ⟨xs, hxs, hmem⟩ := h.chain t
  rcases xs with _ | ⟨x, xs⟩
  · exact hxs
  · have hlive := h.named x t ((hmem x).1 mem_cons_self)
    simp [ht] at hlive

variable [DecidableEq τ]
variable {current : τ}

lemma Placed.acquireReadLockTcb {live : τ → Bool} (h : s.Placed live) {u : τ}
    (hlock : s.acquireReadLockTcb t = some u) : u = t ∧ live t = true := by
  unfold Caps.acquireReadLockTcb at hlock
  rcases hmaster : s.masterCap t with _ | m
  · simp [hmaster] at hlock
  · simp only [hmaster, ite_none_right_eq_some, some.injEq] at hlock
    exact ⟨hlock.2.symm, h.named m t (by rw [hlock.1]; rfl)⟩

lemma Linked.interruptHandler (h : s.Linked) (ht : s.interruptHandler c current tid = some t) :
    s.live t = true := by
  unfold Caps.interruptHandler at ht
  split_ifs at ht
  · obtain ⟨rfl, hlive⟩ := h.toPlaced.acquireReadLockTcb ht
    exact hlive
  · exact (h.toPlaced.lookupThreadCap ht).2

variable [DecidableEq κ] [DecidableEq ι]
variable {s' : Caps τ κ ι}

section

variable (h : s.Linked)
include h

omit [DecidableEq τ] [DecidableEq ι] in
/-- Capability lists may come and go, if no valid capability is lost. -/
lemma Linked.of_clist {header : Option ClistHeader} (hclist : ∀ i < s.numEntries c,
      s.word (.entry c i) ≠ .invalid → i < header.elim 0 (·.maxId + 1)) :
    Linked { s with clist := update s.clist c header } := by
  refine { h with entry_lt := fun c' i hc => ?_ }
  have hlt := h.entry_lt c' i hc
  by_cases hne : c' = c
  · subst hne
    cases header <;> simpa [numEntries] using hclist i hlt hc
  · simpa [numEntries, hne] using hlt

/-- Writing a place that belongs to no thread that does not exist. -/
lemma Linked.of_word (h' : s'.LinkedFor s.live) (hsame : SameObjects s s')
    {a : CapAddr τ κ ι} {w : CapWord τ} (hword : s'.word = update s.word a w)
    (howner : w = .invalid ∨ ∀ t, a = .pager t ∨ a = .exceptionHandler t → s.live t = true) :
    s'.Linked ∧ s'.live = s.live := by
  refine ⟨⟨hsame.live ▸ h', fun t ht => ?_⟩, hsame.live⟩
  rw [hsame.live] at ht
  obtain ⟨hpager, hhandler⟩ := h.owner t ht
  have hstays : ∀ b, s.word b = .invalid → b = .pager t ∨ b = .exceptionHandler t →
      s'.word b = .invalid := by
    intro b hb hbt
    rw [hword]
    by_cases hba : b = a
    · subst hba
      rcases howner with rfl | howner
      · exact update_self ..
      · exact absurd (howner t hbt) (by simp [ht])
    · rw [update_of_ne hba, hb]
  exact ⟨hstays _ hpager (.inl rfl), hstays _ hhandler (.inr rfl)⟩

/-- A new control block of a thread that does not exist is like the old memory. -/
lemma Linked.initTcb_eq (ht : s.live t = false) : s.initTcb t = s.setLive t true := by
  obtain ⟨hpager, hhandler⟩ := h.owner t ht
  have hm : update s.masterCap t none = s.masterCap := by
    rw [← h.masterCap_eq_none ht, update_eq_self]
  have hw : update (update s.word (.pager t) .invalid) (.exceptionHandler t) .invalid = s.word := by
    rw [← hpager, update_eq_self, hpager, ← hhandler, update_eq_self]
  have hn : update (update s.next (.pager t) none) (.exceptionHandler t) none = s.next := by
    rw [← h.invalid_next _ hpager, update_eq_self, h.invalid_next _ hpager,
      ← h.invalid_next _ hhandler, update_eq_self]
  simp only [initTcb, setLive, setMasterCap, setWord, setNext, hm, hw, hn]

/-- What the first capability of a new thread is written to. -/
lemma Linked.addThreadCap_eq (ht : s.live t = false)
    (hadd : (s.initTcb t).addThreadCap c tid t = some s') :
    s.word (.entry c (capIndex tid)) = .invalid ∧ s.masterCap t = none ∧
      s' = ((s.setWord (.entry c (capIndex tid)) (.thread t)).setMasterCap t
        (some (.entry c (capIndex tid)))).setLive t true := by
  have hmaster := h.masterCap_eq_none ht
  rw [h.initTcb_eq ht, addThreadCap] at hadd
  obtain ⟨hfree, hadd⟩ := ite_none_left_eq_some.1 hadd
  refine ⟨not_not.1 hfree, hmaster, ?_⟩
  rw [← some.inj hadd, addReference]
  simp only [show ((s.setLive t true).setWord (.entry c (capIndex tid)) (.thread t)).masterCap t =
    none from hmaster]
  rfl

lemma Linked.addThreadCap (ht : s.live t = false) (hvalid : s.isValid c tid = true)
    (hadd : (s.initTcb t).addThreadCap c tid t = some s') :
    s'.Linked ∧ s'.live t = true ∧ s'.word (.entry c (capIndex tid)) = .thread t := by
  obtain ⟨hinvalid, hmaster, heq⟩ := h.addThreadCap_eq ht hadd
  subst heq
  have hlt : capIndex tid < s.numEntries c := by simpa [isValid] using hvalid
  refine ⟨⟨⟨?_, h.toPlaced.write (w := .thread t) rfl hinvalid (update_self ..) ?_ rfl
    (fun u hu => ⟨update_of_ne hu _ _, update_of_ne hu _ _⟩)
    ⟨c, capIndex tid, update_self .., update_self ..⟩ rfl⟩, fun u hu => ?_⟩, update_self ..,
    update_self ..⟩
  · have := h.toChained.addFirst (w := .thread t) rfl hinvalid hmaster
    exact ⟨this.chain, this.invalid_next⟩
  · rintro c' i ⟨⟩
    exact hlt
  · have hut : u ≠ t := by
      rintro rfl
      simp [setLive] at hu
    have hlive : s.live u = false := by simpa [setLive, setMasterCap, setWord, hut] using hu
    simpa [setLive, setMasterCap, setWord] using h.owner u hlive

lemma Linked.copyCap {target : κ} {srcId targetId : ℕ} :
    (s.copyCap c srcId target targetId).Linked ∧
      (s.copyCap c srcId target targetId).live = s.live := by
  unfold Caps.copyCap
  split_ifs with hvalid
  · rcases hlookup : s.lookupThreadCap c srcId with _ | t
    · exact ⟨h, rfl⟩
    dsimp only [Caps.addIpcCap]
    split_ifs with hfree
    · exact ⟨h, rfl⟩
    have ht := (h.toPlaced.lookupThreadCap hlookup).2
    obtain ⟨c', i, hmaster, -⟩ := h.master t ht
    have hinvalid := not_not.1 hfree
    set x := entry target (capIndex targetId)
    have heq : (s.setWord x (.ipc t)).addReference t x =
        (s.setWord x (.ipc t)).addReferenceBehind (.entry c' i) x := by
      rw [addReference]
      simp only [show (s.setWord x (.ipc t)).masterCap t = some (.entry c' i) from hmaster]
    rw [getD_some, heq]
    refine h.of_word (h.toLinkedFor.addBehind rfl hinvalid ht hmaster fun c'' i' e => ?_)
      ⟨rfl, rfl, rfl⟩ rfl (.inr (by simp))
    obtain ⟨rfl, rfl⟩ := entry.inj e
    simpa [isValid] using hvalid
  · exact ⟨h, rfl⟩

lemma Linked.registerInterrupt {irq : ι} : (s.registerInterrupt c current tid irq).Linked ∧
    (s.registerInterrupt c current tid irq).live = s.live := by
  unfold Caps.registerInterrupt
  rcases hhandler : s.interruptHandler c current tid with _ | t
  · exact ⟨h, rfl⟩
  split_ifs with hset
  · exact ⟨h, rfl⟩
  · have hinvalid : s.word (.interrupt irq) = .invalid := by
      cases hw : s.word (.interrupt irq) <;> simp [hw, tcb] at hset ⊢
    obtain ⟨hlinked, hword⟩ := h.toLinkedFor.setReferenced (by simp) hinvalid
      (h.interruptHandler hhandler)
    exact h.of_word hlinked (setReferenced_same _ _) hword (.inr (by simp))

end

variable [Fintype τ] [Fintype κ] [Fintype ι]
variable {dest : τ}

lemma setThreadHandler_eq (s : Caps τ κ ι) (c : κ) (ref : CapAddr τ κ ι) (tid : ℕ) :
    s.setThreadHandler c ref tid =
      ((s.lookupThreadCap c tid).elim s fun t => s.changeReference ref (some t),
        s.handlerOk c tid) := by
  unfold setThreadHandler handlerOk
  split_ifs with hcap
  · obtain ⟨hnil, hany⟩ := not_special_of_isCapType hcap
    cases s.lookupThreadCap c tid <;> simp [hnil, hany]
  · rw [lookupThreadCap_of_not_isCapType (by simpa using hcap)]
    rfl

section

variable (h : s.Linked) {pagerTid exceptHandlerTid : ℕ} {ok : Bool}
include h

lemma Linked.setThreadHandler {ref : CapAddr τ κ ι} (hdest : s.live dest = true)
    (href : ref = .pager dest ∨ ref = .exceptionHandler dest)
    (hset : s.setThreadHandler c ref tid = (s', ok)) :
    s'.Linked ∧ SameObjects s s' ∧ ok = s.handlerOk c tid ∧
      s'.word = withRef s.word ref (s.lookupThreadCap c tid) := by
  rw [setThreadHandler_eq] at hset
  obtain ⟨rfl, rfl⟩ := Prod.mk.inj hset
  rcases hlookup : s.lookupThreadCap c tid with _ | t
  · exact ⟨h, ⟨rfl, rfl, rfl⟩, rfl, rfl⟩
  have hentry : ∀ c' i, ref ≠ .entry c' i := by
    rcases href with rfl | rfl <;> simp
  obtain ⟨hlinked, hword⟩ :=
    h.toLinkedFor.changeReference hentry (h.toPlaced.lookupThreadCap hlookup).2
  have hsame := changeReference_same (s := s) ref (some t)
  refine ⟨(h.of_word hlinked hsame hword (.inr fun u hu => ?_)).1, hsame, rfl, hword⟩
  have hut : u = dest := by
    rcases href with rfl | rfl <;> rcases hu with hu | hu <;> simp at hu <;> exact hu.symm
  exact hut ▸ hdest

section

variable (hdest : s.live dest = true)
  (hset : s.setThreadHandlers c dest pagerTid exceptHandlerTid = (s', ok))
include hdest hset

/-- `set_thread_handlers` keeps the invariant. It sets the pager before it looks at the exception
handler. -/
lemma Linked.setThreadHandlers : s'.Linked ∧ SameObjects s s' ∧
    ok = (s.handlerOk c pagerTid && s.handlerOk c exceptHandlerTid) ∧
    s'.word = if s.handlerOk c pagerTid then
        withRef (withRef s.word (.pager dest) (s.lookupThreadCap c pagerTid))
          (.exceptionHandler dest) (s.lookupThreadCap c exceptHandlerTid) else s.word := by
  unfold Caps.setThreadHandlers at hset
  rcases hpager : s.setThreadHandler c (.pager dest) pagerTid with ⟨s₁, ok₁⟩
  obtain ⟨h₁, hsame₁, hok₁, hword₁⟩ := h.setThreadHandler hdest (.inl rfl) hpager
  rw [hpager] at hset
  rw [← hok₁]
  rcases ok₁ with _ | _
  · obtain ⟨rfl, rfl⟩ := Prod.mk.inj hset
    rw [lookupThreadCap_of_not_handlerOk hok₁.symm] at hword₁
    exact ⟨h₁, hsame₁, rfl, hword₁⟩
  have hlookup := lookupThreadCap_congr (c := c) hsame₁.clist fun i => by
    rw [hword₁]
    exact withRef_of_ne (by simp) _
  obtain ⟨h₂, hsame₂, hok₂, hword₂⟩ := h₁.setThreadHandler (hsame₁.live ▸ hdest) (.inr rfl) hset
  rw [hlookup, hword₁] at hword₂
  rw [handlerOk, hlookup] at hok₂
  exact ⟨h₂, hsame₁.trans hsame₂, hok₂, hword₂⟩

lemma Linked.setThreadHandlers_entry (c' : κ) (i : ℕ) :
    s'.word (.entry c' i) = s.word (.entry c' i) := by
  obtain ⟨-, -, -, hword⟩ := h.setThreadHandlers hdest hset
  rw [hword]
  split_ifs
  · exact (withRef_of_ne (by simp) _).trans (withRef_of_ne (by simp) _)
  · rfl

end

/-- What is left when the chain of a thread, its references and its control block are gone. -/
lemma Linked.deleteTcb (t : τ) : ((s.invalidateReference t).deleteTcb t).Linked ∧
    (∀ a, ((s.invalidateReference t).deleteTcb t).word a =
      if (s.word a).tcb = some t ∨ a = .pager t ∨ a = .exceptionHandler t then .invalid
      else s.word a) ∧
    ((s.invalidateReference t).deleteTcb t).live = update s.live t false ∧
    ((s.invalidateReference t).deleteTcb t).clist = s.clist := by
  have heq := h.invalidateReference_eq t
  obtain ⟨h₂, hword₂⟩ := (h.invalidateReference t).clearReference (.pager t) (by simp)
  obtain ⟨h₃, hword₃⟩ := h₂.clearReference (.exceptionHandler t) (by simp)
  have hsame := (clearReference_same (s := s.invalidateReference t) (.pager t)).trans
    (clearReference_same (.exceptionHandler t))
  have hdelete : (s.invalidateReference t).deleteTcb t =
    (((s.invalidateReference t).clearReference (.pager t)).clearReference
      (.exceptionHandler t)).setLive t false := rfl
  have hword : ∀ a, ((s.invalidateReference t).deleteTcb t).word a =
      if (s.word a).tcb = some t ∨ a = .pager t ∨ a = .exceptionHandler t then .invalid
      else s.word a := by
    intro a
    rw [hdelete, setLive, hword₃, hword₂, update_apply, update_apply, heq]
    dsimp only
    split_ifs <;> tauto
  have hlive : ((s.invalidateReference t).deleteTcb t).live = update s.live t false := by
    rw [hdelete, setLive, hsame.live, heq]
  have hlinked : ((s.invalidateReference t).deleteTcb t).LinkedFor (update s.live t false) :=
    { h₃ with }
  refine ⟨⟨by rwa [hlive], fun u hu => ?_⟩, hword, hlive, by rw [hdelete, setLive, hsame.clist, heq]⟩
  rw [hword, hword]
  by_cases hut : u = t
  · subst hut
    exact ⟨if_pos (.inr (.inl rfl)), if_pos (.inr (.inr rfl))⟩
  · rw [hlive, update_of_ne hut] at hu
    obtain ⟨hpager, hhandler⟩ := h.owner u hu
    simp [hpager, hhandler]

lemma Linked.removeThreadCap (hword : s.word (.entry c (capIndex tid)) = .thread t)
    (hremove : s.removeThreadCap c tid = some s') : (s'.deleteTcb t).Linked := by
  simp only [Caps.removeThreadCap, hword, some.injEq] at hremove
  exact hremove ▸ (h.deleteTcb t).1

/-- A control block that was only initialised can be given up without a trace. -/
lemma Linked.deleteTcb_initTcb (ht : s.live t = false) : (s.initTcb t).deleteTcb t = s := by
  obtain ⟨hpager, hhandler⟩ := h.owner t ht
  rw [h.initTcb_eq ht]
  have hself : (s.setLive t true).setLive t false = s := by
    simp [setLive, update_idem, ← ht]
  simpa [Caps.deleteTcb, setPager, setExceptionHandler, Caps.changeReference,
    Caps.clearReference, setLive, hpager, hhandler] using hself

/-- A thread that has got its capability and its handlers is deleted again: what is there is what was
there before. -/
lemma Linked.undo_createThread {s₁ : Caps τ κ ι} (ht : s.live t = false)
    (hvalid : s.isValid c tid = true) (hadd : (s.initTcb t).addThreadCap c tid t = some s₁)
    (hset : s₁.setThreadHandlers c t pagerTid exceptHandlerTid = (s', ok)) :
    ∃ s₃, s'.removeThreadCap c tid = some s₃ ∧
      (s₃.deleteTcb t).Linked ∧ (s₃.deleteTcb t).word = s.word ∧
      (s₃.deleteTcb t).live = s.live ∧ (s₃.deleteTcb t).clist = s.clist := by
  obtain ⟨h₁, hlive₁, hword₁⟩ := h.addThreadCap ht hvalid hadd
  obtain ⟨hinvalid, -, heq₁⟩ := h.addThreadCap_eq ht hadd
  obtain ⟨h₂, hsame₂, -, hword₂⟩ := h₁.setThreadHandlers hlive₁ hset
  have hthread : s'.word (.entry c (capIndex tid)) = .thread t :=
    (h₁.setThreadHandlers_entry hlive₁ hset _ _).trans hword₁
  obtain ⟨h₃, hword₃, hlive₃, hclist₃⟩ := h₂.deleteTcb t
  refine ⟨s'.invalidateReference t, by rw [Caps.removeThreadCap, hthread], h₃, ?_, ?_, ?_⟩
  · funext a
    rw [hword₃]
    by_cases href : a = .pager t ∨ a = .exceptionHandler t
    · rw [if_pos (.inr href)]
      obtain ⟨hpager, hhandler⟩ := h.owner t ht
      rcases href with rfl | rfl
      · exact hpager.symm
      · exact hhandler.symm
    · by_cases hentry : a = .entry c (capIndex tid)
      · rw [hentry, hthread, hinvalid]
        exact if_pos (.inl rfl)
      -- Nothing else was written, and nothing else names the thread.
      have hsame : s'.word a = s.word a := by
        rw [not_or] at href
        rw [hword₂]
        split_ifs
        · rw [withRef_of_ne href.2, withRef_of_ne href.1, heq₁]
          exact update_of_ne hentry _ _
        · rw [heq₁]
          exact update_of_ne hentry _ _
      rw [hsame]
      refine if_neg (not_or.2 ⟨fun hnamed => ?_, href⟩)
      rw [h.named a t hnamed] at ht
      cases ht
  · rw [hlive₃, hsame₂.live, heq₁]
    change update (update s.live t true) t false = s.live
    rw [update_idem, ← ht, update_eq_self]
  · rw [hclist₃, hsame₂.clist, heq₁]
    rfl

lemma Linked.createThread {activated : Bool} (ht : s.live t = false) :
    (s.createThread c tid t pagerTid exceptHandlerTid activated).Linked := by
  unfold Caps.createThread
  split_ifs with hvalid
  · exact h
  rw [Bool.not_eq_false, Bool.and_eq_true] at hvalid
  dsimp only
  rcases hadd : (s.initTcb t).addThreadCap c tid t with _ | s₁
  · -- Nothing has been written yet.
    simpa only [h.deleteTcb_initTcb ht] using h
  obtain ⟨h₁, hlive₁, hword₁⟩ := h.addThreadCap ht hvalid.2 hadd
  dsimp only
  rcases hset : s₁.setThreadHandlers c t pagerTid exceptHandlerTid with ⟨s₂, ok⟩
  obtain ⟨h₂, -⟩ := h₁.setThreadHandlers hlive₁ hset
  split_ifs
  · exact h₂
  · rcases hremove : s₂.removeThreadCap c tid with _ | s₃
    · exact h₂
    · have hword₂ := h₁.setThreadHandlers_entry hlive₁ hset c (capIndex tid)
      exact h₂.removeThreadCap (hword₂.trans hword₁) hremove

lemma Linked.deleteThread {current : Option τ} : (s.deleteThread c current tid).Linked := by
  unfold Caps.deleteThread
  rcases hlookup : s.lookupThreadCap c tid with _ | t
  · exact h
  dsimp only
  split_ifs
  · exact h
  · rcases hremove : s.removeThreadCap c tid with _ | s'
    · exact h
    · exact h.removeThreadCap (h.toPlaced.lookupThreadCap hlookup).1 hremove

lemma Linked.removeReference {a : CapAddr τ κ ι} (ha : (s.word a).tcb = some t)
    (hm : s.masterCap t ≠ some a) :
    (s.removeReference t a).Linked ∧ (s.removeReference t a).live = s.live := by
  obtain ⟨hlinked, hword⟩ := h.toLinkedFor.removeReference ha hm
  exact h.of_word hlinked (removeReference_same _ _) hword (.inl rfl)

lemma Linked.deleteCap {targetId : ℕ} :
    (s.deleteCap c targetId).Linked ∧ (s.deleteCap c targetId).live = s.live := by
  unfold Caps.deleteCap
  split_ifs
  · dsimp only [Caps.removeIpcCap]
    cases hword : s.word (.entry c (capIndex targetId)) with
    | ipc t =>
      have htcb : (s.word (.entry c (capIndex targetId))).tcb = some t := by rw [hword]; rfl
      refine h.removeReference htcb fun hm => ?_
      have hthread := (h.master_eq (h.named _ t htcb) hm).2
      simp [hword] at hthread
    | invalid | thread t | ref t => exact ⟨h, rfl⟩
  · exact ⟨h, rfl⟩

lemma Linked.unregisterInterrupt {irq : ι} : (s.unregisterInterrupt c current tid irq).Linked ∧
    (s.unregisterInterrupt c current tid irq).live = s.live := by
  unfold Caps.unregisterInterrupt
  rcases hhandler : s.interruptHandler c current tid with _ | t
  · exact ⟨h, rfl⟩
  dsimp only
  split_ifs with hset
  · exact ⟨h, rfl⟩
  · have htcb : (s.word (.interrupt irq)).tcb = some t := not_not.1 hset
    exact h.removeReference htcb (h.toPlaced.master_entry (h.named _ t htcb) (by simp))

/-- Every operation keeps the invariant, and only those of `ThreadControl` create and delete
threads. -/
lemma Linked.step {op : Op τ κ ι} (hstep : s.step op = some s') :
    s'.Linked ∧ (op.isThread = false → s'.live = s.live) := by
  cases op with
  | createThread c tid t pagerTid exceptHandlerTid activated =>
    obtain ⟨ht, ⟨⟩⟩ := ite_none_right_eq_some.1 hstep
    exact ⟨h.createThread ht, by simp [Op.isThread]⟩
  | modifyThread c tid pagerTid exceptHandlerTid =>
    obtain ⟨⟩ := hstep
    refine ⟨?_, by simp [Op.isThread]⟩
    unfold modifyThread
    split_ifs
    · rcases hlookup : s.lookupThreadCap c tid with _ | t
      · exact h
      · exact (h.setThreadHandlers (h.toPlaced.lookupThreadCap hlookup).2 rfl).1
    · exact h
  | deleteThread c current tid =>
    obtain ⟨⟩ := hstep
    exact ⟨h.deleteThread, by simp [Op.isThread]⟩
  | createClist c entries =>
    obtain ⟨⟨hnone, -⟩, ⟨⟩⟩ := ite_none_right_eq_some.1 hstep
    refine ⟨h.of_clist fun i hi => ?_, fun _ => rfl⟩
    simp [numEntries, isNone_iff_eq_none.1 hnone] at hi
  | deleteClist c =>
    obtain ⟨header, hheader, rfl⟩ := map_eq_some_iff.1 hstep
    unfold deleteClist
    split_ifs with hempty
    · have hall : ∀ i < s.numEntries c, s.word (.entry c i) = .invalid := by
        simpa [isEmpty] using hempty.2
      exact ⟨h.of_clist fun i hi hc => absurd (hall i hi) hc, fun _ => rfl⟩
    · exact ⟨h, fun _ => rfl⟩
  | addSpace c | removeSpace c =>
    obtain ⟨header, hheader, rfl⟩ := map_eq_some_iff.1 hstep
    refine ⟨h.of_clist fun i hi _ => ?_, fun _ => rfl⟩
    simpa [numEntries, hheader] using hi
  | copyCap c srcId target targetId =>
    obtain ⟨⟩ := hstep
    exact h.copyCap.imp_right fun hlive _ => hlive
  | deleteCap c targetId =>
    obtain ⟨⟩ := hstep
    exact h.deleteCap.imp_right fun hlive _ => hlive
  | registerInterrupt c current tid irq =>
    obtain ⟨⟩ := hstep
    exact h.registerInterrupt.imp_right fun hlive _ => hlive
  | unregisterInterrupt c current tid irq =>
    obtain ⟨⟩ := hstep
    exact h.unregisterInterrupt.imp_right fun hlive _ => hlive

end

lemma linked_of_run {ops : List (Op τ κ ι)} (hrun : run step init ops = some s) : s.Linked :=
  run_invariant (fun _ _ _ h hstep => (h.step hstep).1) linked_init hrun

/-- In every state that is reached from one without threads and capability lists, the chain of every
thread that exists leads to null without passing anything twice and consists of exactly the
capabilities and references that name the thread, and everything that is valid is in the chain of
exactly one thread. -/
theorem chain_exact {ops : List (Op τ κ ι)} {s : Caps τ κ ι} (hrun : run step init ops = some s) :
    (∀ t, s.live t = true → ∃ xs, s.Chain t xs ∧ xs.Nodup ∧ ∀ a, a ∈ xs ↔ (s.word a).tcb = some t) ∧
      ∀ a, s.word a ≠ .invalid → ∃! t, s.live t = true ∧ ∃ xs, s.Chain t xs ∧ a ∈ xs := by
  have h := linked_of_run hrun
  constructor
  · intro t _
    obtain ⟨xs, hxs, hmem⟩ := h.chain t
    exact ⟨xs, hxs, hxs.nodup, hmem⟩
  · intro a ha
    obtain ⟨t, ht⟩ : ∃ t, (s.word a).tcb = some t := by
      cases hw : s.word a with
      | invalid => exact absurd hw ha
      | thread t | ipc t | ref t => exact ⟨t, rfl⟩
    obtain ⟨xs, hxs, hmem⟩ := h.chain t
    refine ⟨t, ⟨h.named a t ht, xs, hxs, (hmem a).2 ht⟩, fun u ⟨_, ys, hys, ha'⟩ => ?_⟩
    obtain ⟨zs, hzs, hmem'⟩ := h.chain u
    have hau := (hmem' a).1 (hys.unique hzs ▸ ha')
    exact some.inj (hau.symm.trans ht)

/-- Two threads, of which the second has the first as its pager; the first is copied, its copy and
then the thread itself are deleted. -/
theorem chain_exact_two_threads : ∃ s s' : Caps (Fin 2) (Fin 1) (Fin 1),
      run step init [.createClist 0 4, .createThread 0 0 0 0xfffffffc 0xfffffffc true,
        .createThread 0 1 1 0 0xfffffffc true, .copyCap 0 0 0 2] = some s ∧
      run step init [.createClist 0 4, .createThread 0 0 0 0xfffffffc 0xfffffffc true,
        .createThread 0 1 1 0 0xfffffffc true, .copyCap 0 0 0 2, .deleteCap 0 2,
        .deleteThread 0 (some 1) 0] = some s' ∧
      s.word (.pager 1) = .ref 0 ∧ s.word (.entry 0 2) = .ipc 0 ∧ s'.word (.pager 1) = .invalid ∧
      (∃ xs, s.Chain 0 xs ∧ xs.Nodup ∧ ∀ a, a ∈ xs ↔ (s.word a).tcb = some 0) ∧
      ∃ xs, s'.Chain 1 xs ∧ xs.Nodup ∧ ∀ a, a ∈ xs ↔ (s'.word a).tcb = some 1 := by
  simp only [exists_and_left]
  refine exists_run (Q := fun s => s.live 0 ∧ s.word (.pager 1) = .ref 0 ∧ s.word (.entry 0 2) = .ipc 0)
    (by decide +kernel) fun s hs ⟨hlive, hpager, hentry⟩ => ?_
  refine exists_run (Q := fun s' => s'.live 1 ∧ s'.word (.pager 1) = .invalid) (by decide +kernel)
    fun s' hs' ⟨hlive', hpager'⟩ => ?_
  exact ⟨hpager, hentry, hpager', (chain_exact hs).1 0 hlive, (chain_exact hs').1 1 hlive'⟩

end Calls

end Okl4Kernel.Caps
