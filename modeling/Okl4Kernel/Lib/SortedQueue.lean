import Mathlib.Data.List.Sort

/-!
# Queues in order of decreasing keys

A queue whose members are in order of decreasing keys, first come first served among equal keys: a
new member goes before the first one with a smaller key. This is `List.orderedInsert` for the
strict order of the keys; that order is not total, so the general facts about sorted lists do not
apply and the two that are needed here are proved directly.
-/

namespace SortedQueue

open List

variable {α κ : Type*} [LinearOrder κ]
variable {xs : List α} {x : α} {key : α → κ}

/-- The queue is in order of decreasing keys. -/
def Descending (key : α → κ) (xs : List α) : Prop := xs.Pairwise fun a b => key b ≤ key a

/-- Insert a member before the first one with a smaller key. -/
def insert (key : α → κ) (x : α) (xs : List α) : List α :=
  xs.orderedInsert (fun a b => key b < key a) x

lemma perm_insert (key : α → κ) (x : α) (xs : List α) : (insert key x xs).Perm (x :: xs) :=
  perm_orderedInsert _ x xs

@[simp] lemma mem_insert {y : α} : y ∈ insert key x xs ↔ y = x ∨ y ∈ xs := by
  rw [(perm_insert key x xs).mem_iff, mem_cons]

/-- The new member stands behind all members of the same key. -/
lemma insert_cons (key : α → κ) (x y : α) (xs : List α) :
    insert key x (y :: xs) = if key y < key x then x :: y :: xs else y :: insert key x xs := rfl

/-- The new member stands between those of the same or a greater key at the front and the rest. -/
lemma insert_eq_append (key : α → κ) (x : α) (xs : List α) :
    insert key x xs = xs.takeWhile (fun y => ¬ key y < key x) ++
      x :: xs.dropWhile fun y => ¬ key y < key x :=
  orderedInsert_eq_take_drop _ x xs

lemma filter_insert {good : α → Bool} (h : good x = false) (xs : List α) :
    (insert key x xs).filter good = xs.filter good := by
  rw [insert_eq_append, filter_append, filter_cons_of_neg (by simp [h]),
    ← filter_append, takeWhile_append_dropWhile]

/-- Taking a member out does not change the order of the other members. -/
lemma filter_erase [DecidableEq α] {good : α → Bool} (h : good x = false) (xs : List α) :
    (xs.erase x).filter good = xs.filter good := by
  induction xs with
  | nil => rfl
  | cons y xs ih =>
    by_cases hy : y = x
    · subst hy
      rw [erase_cons_head, filter_cons_of_neg (by simp [h])]
    · rw [erase_cons_tail (by simpa using hy), filter_cons, filter_cons, ih]

section

variable (h : Descending key xs)
include h

lemma Descending.insert (x : α) : Descending key (insert key x xs) := by
  induction xs with
  | nil => exact pairwise_singleton _ x
  | cons y xs ih =>
    obtain ⟨hy, hxs⟩ := pairwise_cons.1 h
    rw [insert_cons]
    split_ifs with hlt
    · exact pairwise_cons.2 ⟨forall_mem_cons.2 ⟨hlt.le, fun z hz => (hy z hz).trans hlt.le⟩, h⟩
    · refine pairwise_cons.2 ⟨?_, ih hxs⟩
      intro z hz
      rcases mem_insert.1 hz with rfl | hz
      · exact not_lt.1 hlt
      · exact hy z hz

/-- The place of a new member: behind all of the same or a greater key, and before all others. -/
lemma Descending.exists_insert (x : α) :
    ∃ front rest, xs = front ++ rest ∧ SortedQueue.insert key x xs = front ++ x :: rest ∧
      (∀ y ∈ front, key x ≤ key y) ∧ ∀ y ∈ rest, key y < key x := by
  induction xs with
  | nil => exact ⟨[], [], rfl, rfl, by simp, by simp⟩
  | cons z xs ih =>
    obtain ⟨hz, hxs⟩ := pairwise_cons.1 h
    rw [insert_cons]
    split_ifs with hlt
    · exact ⟨[], z :: xs, rfl, rfl, by simp,
        forall_mem_cons.2 ⟨hlt, fun y hy => (hz y hy).trans_lt hlt⟩⟩
    · obtain ⟨front, rest, rfl, hinsert, hfront, hrest⟩ := ih hxs
      exact ⟨z :: front, rest, rfl, congrArg (List.cons z) hinsert,
        forall_mem_cons.2 ⟨not_lt.1 hlt, hfront⟩, hrest⟩

lemma Descending.congr {key' : α → κ} (hkey : ∀ x ∈ xs, key' x = key x) : Descending key' xs := by
  refine List.Pairwise.imp_of_mem ?_ h
  intro a b ha hb hab
  rwa [hkey a ha, hkey b hb]

lemma Descending.le_head (hhead : xs.head? = some x) : ∀ y ∈ xs, key y ≤ key x := by
  rcases xs with _ | ⟨z, xs⟩
  · simp at hhead
  obtain rfl : z = x := by simpa using hhead
  intro y hy
  rcases mem_cons.1 hy with rfl | hy
  · exact le_rfl
  · exact (pairwise_cons.1 h).1 y hy

end

end SortedQueue
