import Mathlib.Algebra.BigOperators.Group.List.Basic
import Mathlib.Algebra.GroupWithZero.Nat
import Mathlib.Data.List.Sort

/-!
# Lists of spans

A span is a closed range of integers with something attached to it. `cover l x` is the number of
spans of a list that `x` lies in, so that the spans of a list are disjoint if it is at most one
everywhere. Counting makes the order of a list irrelevant, and what an operation takes out of one
list and puts into another is a sum.

`merge` joins neighbours in a list: a span that begins right after the end of the one before it
becomes part of it.
-/

namespace SpanList

open Function List

variable {α β : Type*}
variable {x : ℤ}

/-- The integers from `lo` to `hi`, both included. -/
structure Span (α : Type*) where
  lo : ℤ
  hi : ℤ
  tag : α
  deriving DecidableEq

/-- The integer lies in the span. -/
def Span.Has (r : Span α) (x : ℤ) : Prop := r.lo ≤ x ∧ x ≤ r.hi

instance (r : Span α) (x : ℤ) : Decidable (r.Has x) := inferInstanceAs (Decidable (_ ∧ _))

/-- One of the spans ends before the other begins. -/
def Span.Apart (r : Span α) (q : Span β) : Prop := r.hi < q.lo ∨ q.hi < r.lo

instance (r : Span α) (q : Span β) : Decidable (r.Apart q) := inferInstanceAs (Decidable (_ ∨ _))

lemma Span.Apart.not_has {r : Span α} {q : Span β} (h : r.Apart q) (hr : r.Has x) : ¬ q.Has x := by
  rintro ⟨hqlo, hqhi⟩
  obtain ⟨hrlo, hrhi⟩ := hr
  rcases h with hlt | hlt <;> omega

/-- The number of spans of the list that `x` lies in. -/
def cover (l : List (Span α)) (x : ℤ) : ℕ := l.countP fun r => decide (r.Has x)

@[simp] lemma cover_nil (x : ℤ) : cover ([] : List (Span α)) x = 0 := rfl

@[simp] lemma cover_cons (r : Span α) (l : List (Span α)) (x : ℤ) :
    cover (r :: l) x = cover l x + if r.Has x then 1 else 0 := by
  rw [cover, countP_cons]
  simp [cover]

@[simp] lemma cover_append (l l' : List (Span α)) (x : ℤ) :
    cover (l ++ l') x = cover l x + cover l' x := countP_append

variable {l : List (Span α)}

lemma cover_pos_iff : 0 < cover l x ↔ ∃ r ∈ l, r.Has x := by
  simp [cover, countP_pos_iff]

lemma cover_eq_zero_iff : cover l x = 0 ↔ ∀ r ∈ l, ¬ r.Has x := by
  simp [cover, countP_eq_zero]

lemma cover_perm {l' : List (Span α)} (h : l.Perm l') (x : ℤ) : cover l x = cover l' x :=
  h.countP_eq _

lemma cover_filter_add (p : Span α → Bool) (l : List (Span α)) (x : ℤ) :
    cover (l.filter p) x + cover (l.filter fun r => !p r) x = cover l x := by
  induction l with
  | nil => rfl
  | cons r l ih =>
    cases hp : p r <;> simp [hp] <;> omega

lemma pairwise_of_cover_le_one (h : ∀ x, cover l x ≤ 1) :
    l.Pairwise fun r q => ∀ x, r.Has x → ¬ q.Has x := by
  induction l with
  | nil => exact .nil
  | cons r l ih =>
    refine pairwise_cons.2 ⟨fun q hq x hr hx => ?_, ih fun x => ?_⟩
    · have hone := h x
      have hpos := cover_pos_iff.2 ⟨q, hq, hx⟩
      rw [cover_cons, if_pos hr] at hone
      omega
    · have hone := h x
      rw [cover_cons] at hone
      omega

/-! ## Joining neighbours -/

/-- Join `last` with the spans that follow it. -/
def mergeFrom : Span α → List (Span α) → List (Span α)
  | last, [] => [last]
  | last, r :: rest =>
    if last.hi + 1 = r.lo then mergeFrom ⟨last.lo, r.hi, last.tag⟩ rest
    else last :: mergeFrom r rest

/-- Join each span with the one before it if it begins right after its end. -/
def merge : List (Span α) → List (Span α)
  | [] => []
  | r :: rest => mergeFrom r rest

/-- What lies in two neighbours joined lies in one of them. -/
theorem has_or_has_of_joined {last r : Span α} (hnext : last.hi + 1 = r.lo)
    (hx : Span.Has ⟨last.lo, r.hi, last.tag⟩ x) : last.Has x ∨ r.Has x := by
  by_cases hle : x ≤ last.hi
  · exact .inl ⟨hx.1, hle⟩
  · exact .inr ⟨by omega, hx.2⟩

lemma cover_mergeFrom_le (last : Span α) (l : List (Span α)) (x : ℤ) :
    cover (mergeFrom last l) x ≤ cover (last :: l) x := by
  induction l generalizing last with
  | nil => exact Nat.le_refl _
  | cons r rest ih =>
    rw [mergeFrom]
    split_ifs with hnext
    · have hrest := ih ⟨last.lo, r.hi, last.tag⟩
      simp only [cover_cons] at hrest ⊢
      by_cases hx : Span.Has ⟨last.lo, r.hi, last.tag⟩ x
      · rcases has_or_has_of_joined hnext hx with hhas | hhas
        · rw [if_pos hx] at hrest
          rw [if_pos hhas]
          omega
        · rw [if_pos hx] at hrest
          rw [if_pos hhas]
          omega
      · rw [if_neg hx] at hrest
        omega
    · have hrest := ih r
      simp only [cover_cons] at hrest ⊢
      omega

lemma cover_merge_le (l : List (Span α)) (x : ℤ) : cover (merge l) x ≤ cover l x := by
  rcases l with _ | ⟨r, rest⟩
  · exact Nat.le_refl _
  · exact cover_mergeFrom_le r rest x

/-- The span has its end at most one below its beginning: it may be empty, but not inverted. -/
def Span.Upright (r : Span α) : Prop := r.lo ≤ r.hi + 1

lemma mergeFrom_spec {last : Span α} (hlast : last.Upright) (hl : ∀ r ∈ l, r.Upright) (x : ℤ) :
    (∀ r ∈ mergeFrom last l, r.Upright) ∧ cover (last :: l) x ≤ cover (mergeFrom last l) x := by
  induction l generalizing last with
  | nil => exact ⟨fun r hr => mem_singleton.1 hr ▸ hlast, Nat.le_refl _⟩
  | cons r rest ih =>
    obtain ⟨hr, hrest⟩ := forall_mem_cons.1 hl
    rw [mergeFrom]
    split_ifs with hnext
    · have hjoined : Span.Upright ⟨last.lo, r.hi, last.tag⟩ := by
        simp only [Span.Upright] at hlast hr ⊢
        omega
      obtain ⟨hupright, hcover⟩ := ih hjoined hrest
      refine ⟨hupright, le_trans ?_ hcover⟩
      have hsum : (if r.Has x then 1 else 0) + (if last.Has x then 1 else 0) ≤
          if Span.Has ⟨last.lo, r.hi, last.tag⟩ x then 1 else 0 := by
        simp only [Span.Upright] at hlast hr
        by_cases hleft : last.Has x
        · obtain ⟨hlo, hhi⟩ := hleft
          have hright : ¬ r.Has x := by
            rintro ⟨hrlo, -⟩
            omega
          have hx : x ≤ r.hi := by omega
          rw [if_neg hright, if_pos ⟨hlo, hhi⟩, if_pos ⟨hlo, hx⟩]
        · by_cases hright : r.Has x
          · obtain ⟨hlo, hhi⟩ := hright
            have hx : last.lo ≤ x := by omega
            rw [if_neg hleft, if_pos ⟨hlo, hhi⟩, if_pos ⟨hx, hhi⟩]
          · rw [if_neg hleft, if_neg hright]
            exact Nat.zero_le _
      simp only [cover_cons]
      omega
    · obtain ⟨hupright, hcover⟩ := ih hr hrest
      refine ⟨forall_mem_cons.2 ⟨hlast, hupright⟩, ?_⟩
      simp only [cover_cons] at hcover ⊢
      omega

/-- Joining loses nothing. -/
theorem cover_le_merge (hl : ∀ r ∈ l, r.Upright) (x : ℤ) : cover l x ≤ cover (merge l) x := by
  rcases l with _ | ⟨r, rest⟩
  · exact Nat.le_refl _
  · obtain ⟨hr, hrest⟩ := forall_mem_cons.1 hl
    exact (mergeFrom_spec hr hrest x).2

lemma upright_merge (hl : ∀ r ∈ l, r.Upright) : ∀ r ∈ merge l, r.Upright := by
  rcases l with _ | ⟨r, rest⟩
  · exact hl
  · obtain ⟨hr, hrest⟩ := forall_mem_cons.1 hl
    exact (mergeFrom_spec hr hrest 0).1

/-! ## Sorting -/

/-- Order the spans by where they begin. -/
def sortByLo (l : List (Span α)) : List (Span α) := l.insertionSort fun r q => r.lo ≤ q.lo

lemma sortByLo_perm (l : List (Span α)) : (sortByLo l).Perm l := perm_insertionSort _ l

/-! ## Sums over the holders of lists -/

/-- When one holder's value changes, the sum over all changes by the difference. -/
theorem sum_map_update [DecidableEq β] {γ : Type*} {names : List β} (hnames : names.Nodup) {n : β}
    (hn : n ∈ names) (f : γ → ℕ) (g : β → γ) (c : γ) :
    (names.map fun m => f (update g n c m)).sum + f (g n) =
      (names.map fun m => f (g m)).sum + f c := by
  induction names with
  | nil => exact absurd hn not_mem_nil
  | cons m names ih =>
    obtain ⟨hm, hnodup⟩ := nodup_cons.1 hnames
    rw [map_cons, map_cons, sum_cons, sum_cons]
    rcases mem_cons.1 hn with rfl | hmem
    · have hsame : (names.map fun m => f (update g n c m)) = names.map fun m => f (g m) := by
        refine map_congr_left fun k hk => ?_
        rw [update_of_ne]
        rintro rfl
        exact hm hk
      rw [hsame, update_self]
      omega
    · have hne : m ≠ n := by
        rintro rfl
        exact hm hmem
      rw [update_of_ne hne]
      have hrest := ih hnodup hmem
      omega

end SpanList
