import Mathlib.Data.List.Induction
import Mathlib.Data.List.Perm.Basic

/-!
# Removal from an array by moving its last entry

An entry of an array is removed by overwriting it with the last one and dropping the last one. This
changes the order of the entries, but nothing else.
-/

namespace SwapRemove

open List

variable {α : Type*}

/-- The entry at index `i` is overwritten with the last one, which is dropped. -/
def swapRemove (l : List α) (i : ℕ) (default : α) : List α :=
  (l.set i (l.getLastD default)).dropLast

/-- The entry is gone, and all others are kept. -/
theorem swapRemove_perm {l : List α} {a : α} {i : ℕ} (default : α) (hi : l[i]? = some a) :
    l.Perm (a :: swapRemove l i default) := by
  cases l using reverseRecOn with
  | nil => simp at hi
  | append_singleton front last =>
    have hlast : (front ++ [last]).getLastD default = last := by simp [getLastD_eq_getLast?]
    rw [swapRemove, hlast]
    rcases Nat.lt_or_ge i front.length with hlt | hge
    · rw [getElem?_append_left hlt] at hi
      have hget : front[i] = a := (List.getElem?_eq_some_iff.1 hi).2
      rw [set_append_left _ _ hlt, dropLast_concat]
      calc (front ++ [last]).Perm (last :: front) := perm_append_singleton last front
        _ |>.Perm (last :: front[i] :: front.eraseIdx i) :=
          (getElem_cons_eraseIdx_perm hlt).symm.cons last
        _ |>.Perm (front[i] :: last :: front.eraseIdx i) := List.Perm.swap _ _ _
        _ |>.Perm (a :: front.set i last) := by
          rw [hget]
          exact (set_perm_cons_eraseIdx hlt last).symm.cons a
    · rw [getElem?_append_right hge] at hi
      have hindex : i - front.length = 0 := by
        by_contra hne
        rw [getElem?_eq_none (by simp; omega)] at hi
        cases hi
      rw [hindex] at hi
      obtain rfl : last = a := by simpa using hi
      have heq : i = front.length := by omega
      subst heq
      have hset : (front ++ [last]).set front.length last = front ++ [last] := by simp
      rw [hset, dropLast_concat]
      exact perm_append_singleton last front

end SwapRemove
