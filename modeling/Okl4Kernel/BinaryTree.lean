import Mathlib.Data.List.Induction
import Mathlib.Data.String.Basic

/-!
# The binary tree of `libs/binary_tree`

A tree maps keys to data pointers. Nothing but the order of the strings is used of the keys, so
they form any linear order here. A position in the tree is given by the links above it, from the
innermost one to a link of the root: they stand for the parents that `find_node` and `largest_node`
return with a node.

A tree is a map as long as memory for new nodes is granted, except that removing a key from a tree
without nodes is reported as a success.
-/

namespace Okl4Kernel.BinaryTree

open Function List

variable {κ : Type*}

/-- A tree, by its root: a null pointer or a node. -/
inductive Tree (κ : Type*)
  | null
  | node (left : Tree κ) (key : κ) (data : ℕ) (right : Tree κ)

/-- A link of a node to a child, with everything else that the node holds. -/
inductive Link (κ : Type*)
  | left (key : κ) (data : ℕ) (right : Tree κ)
  | right (left : Tree κ) (key : κ) (data : ℕ)

/-- The whole tree, when the innermost of the given links leads to `t`. -/
def plug : List (Link κ) → Tree κ → Tree κ
  | [], t => t
  | .left k d r :: up, t => plug up (.node t k d r)
  | .right l k d :: up, t => plug up (.node l k d t)

/-- `largest_node`. -/
def largestNode : Tree κ → List (Link κ) → Tree κ × List (Link κ)
  | .node l k d (.node rl rk rd rr), up =>
    largestNode (.node rl rk rd rr) (.right l k d :: up)
  | t, up => (t, up)

/-- What takes the place of a node with at most one child. -/
def replacementNode : Tree κ → Tree κ
  | .null => .null
  | .node .null _ _ r => r
  | .node l _ _ _ => l

/-- The tree without the node at a position. -/
def unlinkNode (t : Tree κ) (up : List (Link κ)) : Tree κ :=
  match t with
  | .node (.node ll lk ld lr) _ _ (.node rl rk rd rr) =>
    -- The contents of the largest node on the left move up, and that node goes.
    match largestNode (.node ll lk ld lr) [] with
    | (.node l k d r, inner) =>
      plug (inner ++ .left k d (.node rl rk rd rr) :: up) (replacementNode (.node l k d r))
    | (.null, _) => plug up t
  | t => plug up (replacementNode t)

/-! ## The contents of a tree -/

/-- The contents of a tree, from the left to the right. -/
def inorder : Tree κ → List (κ × ℕ)
  | .null => []
  | .node l k d r => inorder l ++ (k, d) :: inorder r

/-- The contents to the left of a position. -/
def before : List (Link κ) → List (κ × ℕ)
  | [] => []
  | .left .. :: up => before up
  | .right l k d :: up => before up ++ (inorder l ++ [(k, d)])

/-- The contents to the right of a position. -/
def after : List (Link κ) → List (κ × ℕ)
  | [] => []
  | .left k d r :: up => (k, d) :: inorder r ++ after up
  | .right .. :: up => after up

lemma plug_append (inner up : List (Link κ)) (t : Tree κ) :
    plug (inner ++ up) t = plug up (plug inner t) := by
  induction inner generalizing t with
  | nil => rfl
  | cons link inner ih => cases link <;> exact ih _

lemma inorder_plug (up : List (Link κ)) (t : Tree κ) :
    inorder (plug up t) = before up ++ inorder t ++ after up := by
  induction up generalizing t with
  | nil => simp [plug, before, after]
  | cons link up ih => cases link <;> simp [plug, ih, before, after, inorder]

/-- The largest node has no right child, and only links to the right lead to it. -/
lemma largestNode_spec {t : Tree κ} (ht : t ≠ .null) (up : List (Link κ)) :
    ∃ l k d up', largestNode t up = (.node l k d .null, up') ∧
      plug up' (.node l k d .null) = plug up t ∧ after up' = after up := by
  fun_induction largestNode t up with
  | case1 l k d rl rk rd rr up ih => exact ih nofun
  | case2 t up hright =>
    obtain _ | ⟨l, k, d, _ | ⟨rl, rk, rd, rr⟩⟩ := t
    · exact absurd rfl ht
    · exact ⟨l, k, d, up, rfl, rfl, rfl⟩
    · exact absurd rfl (hright l k d rl rk rd rr)

/-- Nothing but the node itself is lost with it. -/
lemma inorder_unlinkNode (l r : Tree κ) (k : κ) (d : ℕ) (up : List (Link κ)) :
    inorder (unlinkNode (.node l k d r) up) =
      before up ++ (inorder l ++ inorder r) ++ after up := by
  rcases l with _ | ⟨ll, lk, ld, lr⟩
  · simp [unlinkNode, replacementNode, inorder_plug, inorder]
  rcases r with _ | ⟨rl, rk, rd, rr⟩
  · simp [unlinkNode, replacementNode, inorder_plug, inorder]
  obtain ⟨l', k', d', inner, hlargest, hplug, hafter⟩ :=
    largestNode_spec (t := .node ll lk ld lr) nofun []
  have hleft : before inner ++ (inorder l' ++ [(k', d')]) = inorder (.node ll lk ld lr) := by
    have heq := inorder_plug inner (.node l' k' d' .null)
    rw [hplug, hafter] at heq
    simpa [plug, inorder, after] using heq.symm
  have hrepl : replacementNode (.node l' k' d' .null) = l' := by cases l' <;> rfl
  rw [← hleft, unlinkNode, hlargest]
  simp [plug_append, plug, inorder_plug, inorder, hrepl, hafter, after]

/-! ## The operations -/

variable [LinearOrder κ]

/-- `find_node`: the node with the key, or the null pointer in whose place it belongs. The source
returns the node above that pointer, and the comparison says which of its links it is. -/
def findNode (key : κ) : Tree κ → List (Link κ) → Tree κ × List (Link κ)
  | .null, up => (.null, up)
  | .node l k d r, up =>
    if key = k then (.node l k d r, up)
    else if key < k then findNode key l (.left k d r :: up)
    else findNode key r (.right l k d :: up)

variable (t : Tree κ)

/-- `binary_tree_insert`; `memory` tells whether `malloc` finds room for the node. -/
def binaryTreeInsert (key : κ) (data : ℕ) (memory : Bool) : Tree κ × ℤ :=
  if memory = false then (t, -1)
  else
    match findNode key t [] with
    | (.null, up) => (plug up (.node .null key data .null), 0)
    | (.node .., _) => (t, -2)

/-- `binary_tree_lookup`; the null pointer is 0. -/
def binaryTreeLookup (key : κ) : ℕ :=
  match findNode key t [] with
  | (.null, _) => 0
  | (.node _ _ d _, _) => d

/-- `binary_tree_remove`. -/
def binaryTreeRemove (key : κ) : Tree κ × ℤ :=
  match t with
  | .null => (t, 0)
  | .node .. =>
    match findNode key t [] with
    | (.null, _) => (t, -1)
    | (.node l k d r, up) => (unlinkNode (.node l k d r) up, 0)

/-- The operations that change a tree. -/
inductive Op (κ : Type*)
  | insert (key : κ) (data : ℕ) (memory : Bool)
  | remove (key : κ)

/-- The tree after an operation, and what the operation returns. -/
def step : Op κ → Tree κ × ℤ
  | .insert key data memory => binaryTreeInsert t key data memory
  | .remove key => binaryTreeRemove t key

variable (ops : List (Op κ))

/-- The tree after some operations on a new tree. -/
def run : Tree κ :=
  ops.foldl (fun t op => (step t op).1) .null

/-! ## The map -/

variable (m : κ → Option ℕ)

/-- What an operation does to a map: the data of a key stays until the key is removed. -/
def store : Op κ → κ → Option ℕ
  | .insert key data memory =>
    if memory = true ∧ m key = none then update m key (some data) else m
  | .remove key => update m key none

/-- The map after some operations. -/
def stored : κ → Option ℕ :=
  ops.foldl store fun _ => none

/-- The keys of a search tree increase from the left to the right. -/
def IsSearchTree : Prop :=
  (inorder t).Pairwise fun e e' => e.1 < e'.1

/-- An insertion fails exactly if the key is present, and a removal if it is not. -/
def Reports : Op κ → Prop
  | .insert key data memory => (step t (.insert key data memory)).2 ≠ 0 ↔ m key ≠ none
  | .remove key => (step t (.remove key)).2 ≠ 0 ↔ m key = none

/-- After some operations, the tree is a search tree that looks up what the map has, and the next
operation reports what the map says. -/
def IsMap (op : Op κ) : Prop :=
  IsSearchTree (run ops) ∧ (∀ key, binaryTreeLookup (run ops) key = (stored ops key).getD 0) ∧
    Reports (run ops) (stored ops) op

/-- There is memory for a new key, and a removal finds a tree with nodes. -/
def Regular : Op κ → Prop
  | .insert key _ memory => memory = true ∨ m key ≠ none
  | .remove _ => t ≠ .null

/-- A position at which a key belongs: it is above everything to the left, and below everything to
the right. -/
structure Located (key : κ) (t s : Tree κ) (up : List (Link κ)) : Prop where
  place : plug up s = t
  lt : ∀ e ∈ before up, e.1 < key
  gt : ∀ e ∈ after up, key < e.1

variable {key : κ} {t s : Tree κ} {up : List (Link κ)} {m : κ → Option ℕ}

/-- The key of a node is between the keys on its left and the keys on its right. -/
lemma IsSearchTree.node {l r : Tree κ} {d : ℕ} (h : IsSearchTree (plug up (.node l key d r))) :
    (∀ e ∈ inorder l, e.1 < key) ∧ ∀ e ∈ inorder r, key < e.1 := by
  rw [IsSearchTree, inorder_plug, inorder] at h
  obtain ⟨-, hr, hl⟩ := pairwise_append.1 (pairwise_append.1 (pairwise_append.1 h).1).2.1
  exact ⟨fun e he => hl e he _ mem_cons_self, (pairwise_cons.1 hr).1⟩

/-- The search ends where the key belongs, at the key or at a null pointer. -/
lemma Located.findNode (ht : IsSearchTree t) (h : Located key t s up) :
    ∃ s' up', findNode key s up = (s', up') ∧ Located key t s' up' ∧
      ∀ l k d r, s' = .node l k d r → k = key := by
  fun_induction BinaryTree.findNode key s up with
  | case1 up => exact ⟨_, _, rfl, h, nofun⟩
  | case2 l d r up => exact ⟨_, _, rfl, h, fun _ _ _ _ heq => (Tree.node.inj heq).2.1.symm⟩
  | case3 l k d r up hne hlt ih =>
    have hr := (h.place ▸ ht : IsSearchTree _).node.2
    exact ih ⟨h.place, h.lt, by simpa [after, or_imp, forall_and, hlt] using
      ⟨fun k' d' hmem => hlt.trans (hr _ hmem), fun k' d' hmem => h.gt _ hmem⟩⟩
  | case4 l k d r up hne hlt ih =>
    have hl := (h.place ▸ ht : IsSearchTree _).node.1
    have hgt : k < key := lt_of_le_of_ne (not_lt.1 hlt) (Ne.symm hne)
    exact ih ⟨h.place, by simpa [before, or_imp, forall_and, hgt] using
      ⟨fun k' d' hmem => h.lt _ hmem, fun k' d' hmem => (hl _ hmem).trans hgt⟩, h.gt⟩

/-- The contents of a search tree are what the map has. -/
structure Holds (entries : List (κ × ℕ)) (m : κ → Option ℕ) : Prop where
  sorted : entries.Pairwise fun e e' => e.1 < e'.1
  mem : ∀ k d, m k = some d ↔ (k, d) ∈ entries

lemma Holds.insert {as bs : List (κ × ℕ)} (h : Holds (as ++ bs) m) (has : ∀ e ∈ as, e.1 < key)
    (hbs : ∀ e ∈ bs, key < e.1) (data : ℕ) :
    Holds (as ++ (key, data) :: bs) (update m key (some data)) := by
  obtain ⟨ha, hb, hab⟩ := pairwise_append.1 h.sorted
  refine ⟨pairwise_append.2 ⟨ha, pairwise_cons.2 ⟨hbs, hb⟩, fun e he => ?_⟩, fun k d => ?_⟩
  · simpa [has e he] using fun k' d' he' => hab e he (k', d') he'
  rcases eq_or_ne k key with rfl | hk
  · have hnot : (k, d) ∉ as ++ bs := by
      simpa using ⟨fun hmem => (has _ hmem).false, fun hmem => (hbs _ hmem).false⟩
    simp only [mem_append] at hnot
    grind
  · simp [hk, h.mem]

lemma Holds.remove {as bs : List (κ × ℕ)} {data : ℕ} (h : Holds (as ++ (key, data) :: bs) m) :
    Holds (as ++ bs) (update m key none) := by
  obtain ⟨-, hb, hab⟩ := pairwise_append.1 h.sorted
  refine ⟨h.sorted.sublist ((sublist_cons_self _ _).append_left as), fun k d => ?_⟩
  rcases eq_or_ne k key with rfl | hk
  · have hnot : (k, d) ∉ as ++ bs := by
      simpa using ⟨fun hmem => (hab _ hmem _ mem_cons_self).false,
        fun hmem => ((pairwise_cons.1 hb).1 _ hmem).false⟩
    simp [hnot]
  · simp [hk, h.mem]

lemma Holds.findNode (h : Holds (inorder t) m) (key : κ) :
    ∃ s up, findNode key t [] = (s, up) ∧ Located key t s up ∧
      (s = .null ∧ m key = none ∨ ∃ l d r, s = .node l key d r ∧ m key = some d) := by
  have hstart : Located key t t [] := ⟨rfl, nofun, nofun⟩
  obtain ⟨s, up, hfind, hloc, hkey⟩ := hstart.findNode h.sorted
  refine ⟨s, up, hfind, hloc, ?_⟩
  have hmem := fun d => h.mem key d
  simp only [← hloc.place, inorder_plug, mem_append] at hmem
  rcases s with _ | ⟨l, k, d, r⟩
  · refine .inl ⟨rfl, Option.eq_none_iff_forall_ne_some.2 fun d hd => ?_⟩
    rcases (hmem d).1 hd with (hb | hn) | ha
    · exact (hloc.lt _ hb).false
    · cases hn
    · exact (hloc.gt _ ha).false
  · obtain rfl := hkey l k d r rfl
    exact .inr ⟨l, d, r, rfl, by simp [hmem, inorder]⟩

/-- An operation keeps the tree in line with the map, and it reports what the map says if it is a
regular one. -/
lemma Holds.step (h : Holds (inorder t) m) (op : Op κ) :
    Holds (inorder (step t op).1) (store m op) ∧ (Reports t m op ↔ Regular t m op) := by
  rcases op with ⟨key, data, _ | _⟩ | key
  · simpa [Reports, Regular, BinaryTree.step, binaryTreeInsert, store] using h
  · obtain ⟨s, up, hfind, hloc, ⟨rfl, hm⟩ | ⟨l, d, r, rfl, hm⟩⟩ := h.findNode key
    · rw [← hloc.place, inorder_plug] at h
      have hnew := Holds.insert (by simpa [inorder] using h) hloc.lt hloc.gt data
      simpa [Reports, Regular, BinaryTree.step, binaryTreeInsert, hfind, hm, store, inorder_plug,
        inorder] using hnew
    · simpa [Reports, Regular, BinaryTree.step, binaryTreeInsert, hfind, hm, store] using h
  · obtain ⟨s, up, hfind, hloc, ⟨rfl, hm⟩ | ⟨l, d, r, rfl, hm⟩⟩ := h.findNode key
    · have hsame : update m key none = m := by rw [← hm, update_eq_self]
      cases t <;>
        simp [Reports, Regular, BinaryTree.step, binaryTreeRemove, hfind, hm, store, hsame, h]
    · rw [← hloc.place, inorder_plug, inorder] at h
      have hold : Holds (before up ++ inorder l ++ (key, d) :: (inorder r ++ after up)) m := by
        simpa using h
      cases t with
      | null => cases hfind
      | node => simpa [Reports, Regular, BinaryTree.step, binaryTreeRemove, hfind, hm, store,
          inorder_unlinkNode] using hold.remove

lemma holds_run (ops : List (Op κ)) : Holds (inorder (run ops)) (stored ops) := by
  induction ops using List.reverseRecOn with
  | nil => exact ⟨Pairwise.nil, by simp [run, stored, inorder]⟩
  | append_singleton ops op ih => simpa [run, stored] using (ih.step op).1

/-- The tree is a map exactly if there is memory for a new key, and no key is removed from a tree
without nodes. -/
theorem isMap_iff_regular (ops : List (Op κ)) (op : Op κ) :
    IsMap ops op ↔ Regular (run ops) (stored ops) op := by
  have h := holds_run ops
  rw [← (h.step op).2]
  refine ⟨fun hmap => hmap.2.2, fun hreports => ⟨h.sorted, fun key => ?_, hreports⟩⟩
  obtain ⟨s, up, hfind, -, ⟨rfl, hm⟩ | ⟨l, d, r, rfl, hm⟩⟩ := h.findNode key
  all_goals rw [binaryTreeLookup, hfind, hm]; rfl

/-- No failure is reported when a key is removed from a new tree. -/
theorem isMap_fails_empty : ¬ IsMap ([] : List (Op String)) (.remove "key") := by
  intro h
  exact h.2.2.2 rfl rfl

end Okl4Kernel.BinaryTree
