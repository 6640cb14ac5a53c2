import Mathlib.Data.List.Nodup

/-!
# Null-terminated linked lists

Nodes of a type `α` are linked through pointer cells. A cell holds a node or null; besides the
cell inside each node, `node x`, there may be others, such as the variable that holds the head of a
list, so that a pointer to a cell (as it is kept while a list is searched) can always be written
through.

`Seg node cells c xs e` says that reading on from the cell `c` one meets the nodes `xs` and then
the value `e`; with `e = none` it is a whole list. A segment can be cut anywhere (`seg_append`), it
is not affected by writes to other cells (`Seg.congr`), and writing its last cell puts another
rest behind it (`Seg.write_last`).
-/

namespace LinkedChain

open Function List

variable {κ α : Type*} {node : α → κ} {cells : κ → Option α}
variable {xs ys : List α} {e : Option α} {c : κ}

/-- From the cell `c` the pointers lead through the nodes `xs` to the value `e`. -/
def Seg (node : α → κ) (cells : κ → Option α) : κ → List α → Option α → Prop
  | c, [], e => cells c = e
  | c, x :: xs, e => cells c = some x ∧ Seg node cells (node x) xs e

/-- The cell in which a segment ends. -/
def lastCell (node : α → κ) : κ → List α → κ
  | c, [] => c
  | _, x :: xs => lastCell node (node x) xs

/-- A segment can be cut anywhere: the second part begins in the last cell of the first. -/
lemma seg_append : Seg node cells c (xs ++ ys) e ↔
      Seg node cells c xs (cells (lastCell node c xs)) ∧
        Seg node cells (lastCell node c xs) ys e := by
  induction xs generalizing c with
  | nil => simp [Seg, lastCell]
  | cons y xs ih => simp only [cons_append, Seg, lastCell, ih, and_assoc]

/-- The first cell of a segment holds its first node, or the value behind it. -/
lemma Seg.cell_eq (h : Seg node cells c xs none) : cells c = xs.head? := by
  rcases xs with _ | ⟨x, xs⟩
  · exact h
  · exact h.1

lemma lastCell_mem (c : κ) (xs : List α) :
    lastCell node c xs = c ∨ ∃ x ∈ xs, lastCell node c xs = node x := by
  induction xs generalizing c with
  | nil => exact .inl rfl
  | cons x xs ih =>
    right
    rcases ih (node x) with heq | ⟨y, hy, heq⟩
    · exact ⟨x, mem_cons_self, heq⟩
    · exact ⟨y, mem_cons_of_mem x hy, heq⟩

lemma lastCell_concat (c : κ) (xs : List α) (x : α) : lastCell node c (xs ++ [x]) = node x := by
  induction xs generalizing c with
  | nil => rfl
  | cons y xs ih => exact ih (node y)

/-- Writes to other cells do not affect a segment, and it may be entered from any cell with the
same value. -/
lemma Seg.congr {cells' : κ → Option α} {c' : κ} (h : Seg node cells c xs e)
    (hc : cells' c' = cells c) (hxs : ∀ x ∈ xs, cells' (node x) = cells (node x)) :
    Seg node cells' c' xs e := by
  induction xs generalizing c c' with
  | nil => exact hc.trans h
  | cons x xs ih =>
    refine ⟨hc.trans h.1, ih h.2 (hxs x mem_cons_self) fun y hy => ?_⟩
    exact hxs y (mem_cons_of_mem x hy)

/-- The cells determine what is read from a cell up to the end of the list. -/
lemma Seg.unique (h : Seg node cells c xs none) (h' : Seg node cells c ys none) : xs = ys := by
  induction xs generalizing c ys with
  | nil =>
    rcases ys with _ | ⟨y, ys⟩
    · rfl
    · have hnone : cells c = none := h
      rw [h'.1] at hnone
      exact absurd hnone (by simp)
  | cons x xs ih =>
    rcases ys with _ | ⟨y, ys⟩
    · have hnone : cells c = none := h'
      rw [h.1] at hnone
      exact absurd hnone (by simp)
    · have hxy : x = y := Option.some.inj (h.1.symm.trans h'.1)
      subst hxy
      rw [ih h.2 h'.2]

lemma Seg.nodup (h : Seg node cells c xs none) : xs.Nodup := by
  induction xs generalizing c with
  | nil => exact nodup_nil
  | cons x xs ih =>
    refine nodup_cons.2 ⟨fun hmem => ?_, ih h.2⟩
    -- From the second visit on one would read the same list as from the first.
    obtain ⟨as, bs, rfl⟩ := append_of_mem hmem
    have hrest : Seg node cells (node x) bs none := (seg_append.1 h.2).2.2
    have hlen := congrArg List.length (h.2.unique hrest)
    simp only [length_append, length_cons] at hlen
    omega

lemma Seg.write_last [DecidableEq κ] {e' : Option α} (h : Seg node cells c xs e)
    (hnode : Function.Injective node) (hnodup : xs.Nodup) (hc : ∀ x ∈ xs, node x ≠ c) :
    Seg node (update cells (lastCell node c xs) e') c xs e' := by
  induction xs generalizing c with
  | nil => exact update_self ..
  | cons x xs ih =>
    obtain ⟨hx, hxs⟩ := nodup_cons.1 hnodup
    have hne : ∀ y ∈ xs, node y ≠ node x := fun y hy e => hx (hnode e ▸ hy)
    refine ⟨?_, ih h.2 hxs hne⟩
    have hlast : c ≠ lastCell node (node x) xs := by
      rcases lastCell_mem (node x) xs with heq | ⟨y, hy, heq⟩
      · rw [heq]
        exact (hc x mem_cons_self).symm
      · rw [heq]
        exact (hc y (mem_cons_of_mem x hy)).symm
    exact (update_of_ne hlast _ _).trans h.1

lemma lastCell_ne {y : α} (hnode : Function.Injective node) (hc : node y ≠ c) (hy : y ∉ xs) :
    node y ≠ lastCell node c xs := by
  rcases lastCell_mem c xs with heq | ⟨x, hx, heq⟩
  · rwa [heq]
  · rw [heq]
    exact fun e => hy (hnode e ▸ hx)

/-- Writing two cells links a segment into a list. -/
lemma Seg.splice [DecidableEq κ] {bs : List α} {b : α} (h : Seg node cells c (xs ++ ys) none)
    (hb : Seg node cells (node b) bs e) (hnode : Function.Injective node)
    (hnodup : (xs ++ (b :: bs ++ ys)).Nodup) (hc : ∀ x ∈ xs ++ (b :: bs ++ ys), node x ≠ c) :
    Seg node (update (update cells (lastCell node c xs) (some b))
      (lastCell node (node b) bs) ys.head?) c (xs ++ (b :: bs ++ ys)) none := by
  obtain ⟨hxsnd, hrestnd, hdisj⟩ := nodup_append.1 hnodup
  obtain ⟨hbsnd, -, hdisj'⟩ := nodup_append.1 hrestnd
  obtain ⟨hbefore, hbehind⟩ := seg_append.1 h
  set first := lastCell node c xs with hfirst
  set second := lastCell node (node b) bs with hsecond
  -- The second cell is one of the block, the first one is not.
  have hsecond_mem : ∃ x ∈ b :: bs, second = node x := by
    rcases lastCell_mem (node b) bs with heq | ⟨x, hx, heq⟩
    · exact ⟨b, mem_cons_self, heq⟩
    · exact ⟨x, mem_cons_of_mem b hx, heq⟩
  obtain ⟨l, hl, hleq⟩ := hsecond_mem
  have hblock : ∀ x ∈ b :: bs, node x ≠ first := by
    intro x hx
    refine lastCell_ne hnode (hc x (by simp only [mem_append]; tauto)) fun hxs => ?_
    exact hdisj x hxs x (mem_append_left ys hx) rfl
  have hne : first ≠ second := hleq ▸ (hblock l hl).symm
  have hcne : c ≠ second := hleq ▸ (hc l (by simp only [mem_append]; tauto)).symm
  have hnot : ∀ x, x ∉ b :: bs → node x ≠ second := by
    intro x hx e
    exact hx (hnode (e.trans hleq) ▸ hl)
  refine seg_append.2 ⟨?_, ?_, seg_append.2 ⟨?_, ?_⟩⟩
  · have hw : Seg node (update cells first (some b)) c xs (some b) :=
      hbefore.write_last hnode hxsnd fun x hx => hc x (mem_append_left _ hx)
    rw [← hfirst, update_of_ne hne, update_self]
    refine hw.congr (update_of_ne hcne _ _) fun x hx => update_of_ne ?_ _ _
    exact hnot x fun hx' => hdisj x hx x (mem_append_left ys hx') rfl
  · rw [← hfirst, update_of_ne hne, update_self]
  · rw [← hsecond, update_self]
    have hb' : Seg node (update cells first (some b)) (node b) bs e :=
      hb.congr (update_of_ne (hblock b mem_cons_self) _ _) fun x hx =>
        update_of_ne (hblock x (mem_cons_of_mem b hx)) _ _
    obtain ⟨hbnot, hbs⟩ := nodup_cons.1 hbsnd
    exact hb'.write_last hnode hbs fun x hx e => hbnot (hnode e ▸ hx)
  · refine hbehind.congr ?_ fun y hy => ?_
    · rw [← hsecond, update_self]
      exact hbehind.cell_eq.symm
    · have hy' : y ∉ b :: bs := fun hy' => hdisj' y hy' y hy rfl
      have hyfirst : node y ≠ first :=
        lastCell_ne hnode (hc y (by simp only [mem_append]; tauto)) fun hxs =>
          hdisj y hxs y (mem_append_right (b :: bs) hy) rfl
      rw [update_of_ne (hnot y hy'), update_of_ne hyfirst]

/-- Writing one cell takes a segment out of a list. -/
lemma Seg.cut [DecidableEq κ] {bs : List α} (h : Seg node cells c (xs ++ (bs ++ ys)) none)
    (hnode : Function.Injective node) (hc : ∀ x ∈ xs ++ (bs ++ ys), node x ≠ c) :
    Seg node (update cells (lastCell node c xs) ys.head?) c (xs ++ ys) none := by
  obtain ⟨hxsnd, -, hdisj⟩ := nodup_append.1 h.nodup
  obtain ⟨hbefore, hrest⟩ := seg_append.1 h
  obtain ⟨-, hbehind⟩ := seg_append.1 hrest
  refine seg_append.2 ⟨?_, ?_⟩
  · rw [update_self]
    exact hbefore.write_last hnode hxsnd fun x hx => hc x (mem_append_left _ hx)
  · refine hbehind.congr ?_ fun y hy => update_of_ne ?_ _ _
    · rw [update_self]
      exact hbehind.cell_eq.symm
    · refine lastCell_ne hnode (hc y (by simp only [mem_append]; tauto)) fun hxs => ?_
      exact hdisj y hxs y (mem_append_right bs hy) rfl

end LinkedChain
