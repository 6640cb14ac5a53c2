import Mathlib.Data.Finset.Card

/-!
# Tallies

`tally f s r` is the number of objects in a finite set `s` that have the role `r`, where `f` gives
the role of each object. When one object changes its role, the tally of its old role goes down by
one and that of its new role goes up by one (`tally_update`). A list in which nothing occurs more
often than it is the role of an object is not longer than the set (`length_le_card`).
-/

namespace Tally

open Function Finset

variable {ι ρ : Type*} [DecidableEq ρ]
variable {s : Finset ι} {f : ι → ρ} {r : ρ}

/-- The number of objects with a role. -/
def tally (f : ι → ρ) (s : Finset ι) (r : ρ) : ℕ := (s.filter fun i => f i = r).card

theorem tally_congr {g : ι → ρ} (h : ∀ i ∈ s, f i = g i) (r : ρ) : tally f s r = tally g s r := by
  unfold tally
  congr 1
  exact filter_congr fun i hi => by rw [h i hi]

lemma tally_pos {i : ι} (hi : i ∈ s) : 0 < tally f s (f i) :=
  card_pos.2 ⟨i, mem_filter.2 ⟨hi, rfl⟩⟩

lemma exists_of_tally_pos (h : 0 < tally f s r) : ∃ i ∈ s, f i = r := by
  obtain ⟨i, hi⟩ := card_pos.1 h
  exact ⟨i, mem_filter.1 hi⟩

lemma tally_eq_zero (h : ∀ i ∈ s, f i ≠ r) : tally f s r = 0 := by
  by_contra hne
  obtain ⟨i, hi, heq⟩ := exists_of_tally_pos (Nat.pos_of_ne_zero hne)
  exact h i hi heq

/-- A role is counted as often as another one whose objects it includes. -/
theorem tally_le_tally {ρ' : Type*} [DecidableEq ρ'] {g : ι → ρ'} {s' : Finset ι} {r' : ρ'}
    (h : ∀ i ∈ s, f i = r → i ∈ s' ∧ g i = r') : tally f s r ≤ tally g s' r' := by
  refine card_le_card fun i hi => ?_
  obtain ⟨hmem, hrole⟩ := mem_filter.1 hi
  exact mem_filter.2 (h i hmem hrole)

lemma tally_update [DecidableEq ι] (f : ι → ρ) {i : ι} (hi : i ∈ s) (r' r : ρ) :
    tally (update f i r') s r + (if f i = r then 1 else 0) =
      tally f s r + (if r' = r then 1 else 0) := by
  have hsplit : ∀ g : ι → ρ, tally g s r = tally g (s.erase i) r + if g i = r then 1 else 0 := by
    intro g
    unfold tally
    rw [filter_erase]
    by_cases hg : g i = r
    · have hmem : i ∈ s.filter fun i => g i = r := mem_filter.2 ⟨hi, hg⟩
      rw [if_pos hg, card_erase_add_one hmem]
    · have hnotin : i ∉ s.filter fun i => g i = r := fun hmem => hg (mem_filter.1 hmem).2
      rw [if_neg hg, erase_eq_of_notMem hnotin, Nat.add_zero]
  have hsame : tally (update f i r') (s.erase i) r = tally f (s.erase i) r :=
    tally_congr (fun j hj => update_of_ne (ne_of_mem_erase hj) _ _) r
  rw [hsplit f, hsplit (update f i r'), hsame, update_self]
  omega

/-- A list is not longer than the set of the objects that its members are the roles of. -/
theorem length_le_card {α : Type*} [DecidableEq α] {f : ι → Option α} {l : List α}
    (h : ∀ a, l.count a ≤ tally f s (some a)) : l.length ≤ s.card := by
  have hle : (l : Multiset α).map some ≤ s.val.map f := by
    refine Multiset.le_iff_count.2 fun role => ?_
    rcases role with _ | a
    · rw [Multiset.count_eq_zero.2 (by simp)]
      exact Nat.zero_le _
    rw [Multiset.count_map_eq_count' some _ (Option.some_injective α), Multiset.coe_count,
      Multiset.count_map]
    refine (h a).trans (le_of_eq ?_)
    unfold tally
    rw [card_def, filter_val]
    congr 1
    exact Multiset.filter_congr fun i _ => eq_comm
  have hcard := Multiset.card_le_card hle
  rwa [Multiset.card_map, Multiset.coe_card, Multiset.card_map] at hcard

end Tally
