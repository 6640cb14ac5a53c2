import Mathlib.Data.Set.Function
import Mathlib.Order.Interval.Set.Basic
import Mathlib.Algebra.Order.Group.Int

/-!
# Arrays kept in order of use

The places of an array hold things, the most recently used one first. When the thing at a place is
used, the ones before it are moved up by one place and it is put to the front.

The array keeps holding the same things (`bijOn_moveToFront`), and if every use is given a later time
than all uses before it, the times decrease from place to place (`Ordered.moveToFront`), so that the
thing at the last place is the least recently used one.
-/

namespace MoveToFront

open Function

variable {α : Type*}
variable {k n : ℕ} {a : ℕ → α}

/-- The loop that moves the things before the place `k` up by one place, from the last one on. -/
def shiftUp (a : ℕ → α) : ℕ → ℕ → α
  | 0 => a
  | k + 1 => shiftUp (update a (k + 1) (a k)) k

/-- Put the thing at the place `k` to the front. -/
def moveToFront (a : ℕ → α) (k : ℕ) : ℕ → α := update (shiftUp a k) 0 (a k)

lemma shiftUp_apply (a : ℕ → α) (k j : ℕ) :
    shiftUp a k j = if 0 < j ∧ j ≤ k then a (j - 1) else a j := by
  induction k generalizing a with
  | zero => rw [shiftUp, if_neg (by omega)]
  | succ k ih =>
    rw [shiftUp, ih]
    by_cases hlast : j = k + 1
    · subst hlast
      rw [if_neg (by omega), if_pos (by omega), update_self, Nat.add_sub_cancel]
    · by_cases hj : 0 < j ∧ j ≤ k
      · rw [if_pos hj, if_pos (by omega), update_of_ne (by omega)]
      · rw [if_neg hj, if_neg (by omega), update_of_ne hlast]

/-- The place from which the thing at the place `j` comes. -/
def origin (k j : ℕ) : ℕ := if j = 0 then k else if j ≤ k then j - 1 else j

/-- Moving to the front rearranges the places. -/
theorem moveToFront_apply (a : ℕ → α) (k j : ℕ) : moveToFront a k j = a (origin k j) := by
  unfold moveToFront origin
  by_cases hj : j = 0
  · rw [if_pos hj, hj, update_self]
  · rw [if_neg hj, update_of_ne hj, shiftUp_apply]
    by_cases hk : j ≤ k
    · rw [if_pos hk, if_pos ⟨Nat.pos_of_ne_zero hj, hk⟩]
    · rw [if_neg hk, if_neg (by omega)]

lemma bijOn_origin (hk : k < n) : Set.BijOn (origin k) (Set.Iio n) (Set.Iio n) := by
  refine ⟨fun j hj => ?_, fun i _ j _ hij => ?_, fun j hj => ?_⟩
  · simp only [Set.mem_Iio, origin] at hj ⊢
    split_ifs <;> omega
  · simp only [origin] at hij
    split_ifs at hij <;> omega
  simp only [Set.mem_Iio] at hj
  by_cases hjk : j = k
  · exact ⟨0, Set.mem_Iio.2 (by omega), by rw [origin, if_pos rfl, hjk]⟩
  · by_cases hlt : j < k
    · refine ⟨j + 1, Set.mem_Iio.2 (by omega), ?_⟩
      rw [origin, if_neg (by omega), if_pos (by omega), Nat.add_sub_cancel]
    · refine ⟨j, hj, ?_⟩
      rw [origin, if_neg (by omega), if_neg (by omega)]

/-- An array that holds every thing of a set once keeps doing so. -/
theorem bijOn_moveToFront {s : Set α} (ha : Set.BijOn a (Set.Iio n) s) (hk : k < n) :
    Set.BijOn (moveToFront a k) (Set.Iio n) s := by
  have heq : moveToFront a k = a ∘ origin k := funext fun j => moveToFront_apply a k j
  rw [heq]
  exact ha.comp (bijOn_origin hk)

/-- The times of the things decrease along the first `n` places. -/
def Ordered (time : α → ℤ) (a : ℕ → α) (n : ℕ) : Prop :=
  ∀ i j, i < j → j < n → time (a j) < time (a i)

lemma Ordered.last_lt {time : α → ℤ} (h : Ordered time a (n + 1)) {i : ℕ} (hi : i < n) :
    time (a n) < time (a i) :=
  h i n hi (Nat.lt_succ_self n)

/-- The order is kept if the thing that is put to the front gets a time after all others. -/
theorem Ordered.moveToFront [DecidableEq α] {time : α → ℤ} (h : Ordered time a n)
    (ha : Set.InjOn a (Set.Iio n)) (hk : k < n) {now : ℤ} (hnow : ∀ i < n, time (a i) < now) :
    Ordered (update time (a k) now) (moveToFront a k) n := by
  -- Away from the front the things keep their order and their times.
  have hother : ∀ j, 0 < j → j < n → update time (a k) now (MoveToFront.moveToFront a k j) =
      time (a (origin k j)) ∧ origin k j < n ∧ origin k j ≠ k := by
    intro j hpos hj
    have hne : origin k j ≠ k := by
      unfold origin
      split_ifs <;> omega
    have hlt : origin k j < n := by
      unfold origin
      split_ifs <;> omega
    refine ⟨?_, hlt, hne⟩
    rw [moveToFront_apply, update_of_ne]
    exact fun heq => hne (ha (Set.mem_Iio.2 hlt) (Set.mem_Iio.2 hk) heq)
  intro i j hij hj
  obtain ⟨htj, hltj, -⟩ := hother j (by omega) hj
  rw [htj]
  by_cases hi : i = 0
  · subst hi
    rw [moveToFront_apply, show origin k 0 = k from if_pos rfl, update_self]
    exact hnow _ hltj
  · obtain ⟨hti, -, -⟩ := hother i (by omega) (by omega)
    rw [hti]
    refine h _ _ ?_ hltj
    unfold origin
    split_ifs <;> omega

end MoveToFront
