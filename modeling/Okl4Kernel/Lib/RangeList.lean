import Mathlib.Data.List.Pairwise
import Mathlib.Data.List.Perm.Basic

/-!
# Lists of disjoint ranges

Objects that cover ranges of addresses are kept in a list, in order of their addresses. A new object
is put before the first one that does not begin before it, and is refused if it overlaps with one of
its two neighbours (`insert`). That is enough to keep all ranges apart (`insert_spec`), so that an
address belongs to at most one object (`Apart.eq_of_mem`), and to refuse every object that overlaps
with one of the list (`insert_eq_none_iff`).
-/

namespace RangeList

open List

variable {α : Type*} (base stop : α → ℕ)

/-- The range of one object begins inside of the range of the other one. -/
def Overlap (x y : α) : Prop :=
  (base y ≤ base x ∧ base x < stop y) ∨ (base x ≤ base y ∧ base y < stop x)

instance (x y : α) : Decidable (Overlap base stop x y) :=
  inferInstanceAs (Decidable ((base y ≤ base x ∧ base x < stop y) ∨
    (base x ≤ base y ∧ base y < stop x)))

/-- Insert an object behind `previous`, and behind all objects that begin before it. -/
def insert (new : α) : Option α → List α → Option (List α)
  | previous, [] => if ∃ x ∈ previous, Overlap base stop x new then none else some [new]
  | previous, current :: rest =>
    if base current < base new then (insert new (some current) rest).map (current :: ·)
    else if Overlap base stop current new ∨ ∃ x ∈ previous, Overlap base stop x new then none
    else some (new :: current :: rest)

/-- Each range ends before the next one begins. -/
def Apart (l : List α) : Prop := l.Pairwise fun x y => stop x ≤ base y

variable {base stop}
variable {l l' : List α} {new : α}

lemma insert_spec (hle : ∀ x, base x ≤ stop x) {previous : Option α} (hl : Apart base stop l)
    (hbefore : ∀ x ∈ previous, base x < base new)
    (hprevious : ∀ x ∈ previous, ∀ y ∈ l, stop x ≤ base y)
    (h : insert base stop new previous l = some l') :
    Apart base stop l' ∧ l'.Perm (new :: l) ∧ ∀ x ∈ previous, stop x ≤ base new := by
  induction l generalizing previous l' with
  | nil =>
    rw [insert] at h
    split_ifs at h with hover
    cases h
    refine ⟨pairwise_singleton _ _, .refl _, fun x hx => ?_⟩
    by_contra hlt
    have hb := hbefore x hx
    exact hover ⟨x, hx, .inr ⟨Nat.le_of_lt hb, by omega⟩⟩
  | cons current rest ih =>
    obtain ⟨hcurrent, hrest⟩ := pairwise_cons.1 hl
    rw [insert] at h
    split_ifs at h with hlt hover
    · -- The new object goes further back.
      obtain ⟨l'', h'', rfl⟩ := Option.map_eq_some_iff.1 h
      obtain ⟨hapart, hperm, hstop⟩ := ih hrest (by rintro _ ⟨⟩; exact hlt)
        (by rintro _ ⟨⟩; exact hcurrent) h''
      refine ⟨pairwise_cons.2 ⟨fun y hy => ?_, hapart⟩, ?_, fun x hx => ?_⟩
      · rcases mem_cons.1 (hperm.mem_iff.1 hy) with rfl | hy
        · exact hstop current rfl
        · exact hcurrent y hy
      · exact (hperm.cons current).trans (List.Perm.swap _ _ _)
      · have hx' := hprevious x hx current mem_cons_self
        omega
    · -- It fits between two objects.
      cases h
      obtain ⟨hover, hover'⟩ := not_or.1 hover
      have hstop : stop new ≤ base current := by
        by_contra hnot
        exact hover (.inl ⟨by omega, by omega⟩)
      refine ⟨pairwise_cons.2 ⟨fun y hy => ?_, hl⟩, .refl _, fun x hx => ?_⟩
      · rcases mem_cons.1 hy with rfl | hy
        · exact hstop
        · have hy' := hcurrent y hy
          have hle' := hle current
          omega
      · by_contra hnot
        have hb := hbefore x hx
        exact hover' ⟨x, hx, .inr ⟨Nat.le_of_lt hb, by omega⟩⟩

theorem Apart.eq_of_mem (h : Apart base stop l) {x y : α} (hx : x ∈ l) (hy : y ∈ l) {a : ℕ}
    (hax : base x ≤ a ∧ a < stop x) (hay : base y ≤ a ∧ a < stop y) : x = y := by
  induction l with
  | nil => cases hx
  | cons z l ih =>
    obtain ⟨hz, hl⟩ := pairwise_cons.1 h
    rcases mem_cons.1 hx with hxz | hxl
    · rcases mem_cons.1 hy with hyz | hyl
      · rw [hxz, hyz]
      · have hapart := hz y hyl
        rw [← hxz] at hapart
        omega
    · rcases mem_cons.1 hy with hyz | hyl
      · have hapart := hz x hxl
        rw [← hyz] at hapart
        omega
      · exact ih hl hxl hyl

/-- An object is refused exactly if it overlaps with another one. -/
theorem insert_eq_none_iff (hle : ∀ x, base x ≤ stop x) {previous : Option α}
    (hl : Apart base stop l) (hover : l.Pairwise fun x y => ¬ Overlap base stop x y)
    (hprevious : ∀ x ∈ previous, ∀ y ∈ l, stop x ≤ base y) :
    insert base stop new previous l = none ↔
      (∃ x ∈ previous, Overlap base stop x new) ∨ ∃ x ∈ l, Overlap base stop x new := by
  induction l generalizing previous with
  | nil => simp [insert]
  | cons current rest ih =>
    obtain ⟨hcurrent, hrest⟩ := pairwise_cons.1 hl
    obtain ⟨hcurrent', hrest'⟩ := pairwise_cons.1 hover
    rw [insert, exists_mem_cons_iff]
    split_ifs with hlt hneighbour
    · -- What comes before the current object ends before the new one begins.
      have hsome : (∃ x ∈ some current, Overlap base stop x new) ↔ Overlap base stop current new := by
        simp
      rw [Option.map_eq_none_iff, ih hrest hrest' (by rintro _ ⟨⟩; exact hcurrent), hsome, iff_or_self]
      rintro ⟨x, hx, hoverlap⟩
      have hstop := hprevious x hx current mem_cons_self
      have hx' := hle x
      unfold Overlap at hoverlap
      omega
    · simp only [true_iff]
      exact hneighbour.symm.imp_right .inl
    -- An object further back overlaps only if the current one does.
    simp only [false_iff]
    rintro (hprev | hcur | ⟨x, hx, hoverlap⟩)
    · exact hneighbour (.inr hprev)
    · exact hneighbour (.inl hcur)
    · have hstop := hcurrent x hx
      have hle' := hle current
      have hapart := hcurrent' x hx
      refine hneighbour (.inl ?_)
      unfold Overlap at hoverlap hapart ⊢
      omega

lemma insert_pairwise (hle : ∀ x, base x ≤ stop x) (hl : Apart base stop l)
    (hover : l.Pairwise fun x y => ¬ Overlap base stop x y)
    (h : insert base stop new none l = some l') :
    l'.Pairwise fun x y => ¬ Overlap base stop x y := by
  have hperm := (insert_spec hle hl (by simp) (by simp) h).2.1
  have hsymm : ∀ x y, ¬ Overlap base stop x y → ¬ Overlap base stop y x :=
    fun x y hxy hyx => hxy hyx.symm
  refine (hperm.pairwise_iff @hsymm).2 (pairwise_cons.2 ⟨fun x hx hoverlap => ?_, hover⟩)
  have hnone : insert base stop new none l = none :=
    (insert_eq_none_iff hle hl hover (by simp)).2 (.inr ⟨x, hx, hoverlap.symm⟩)
  rw [h] at hnone
  cases hnone

lemma Apart.sublist (h : Apart base stop l) (hl : l'.Sublist l) : Apart base stop l' :=
  List.Pairwise.sublist hl h

end RangeList
