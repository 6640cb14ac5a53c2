import Okl4Kernel.BinaryTree
import Okl4Kernel.Lib.TransitionSystem

/-!
# The object table of Iguana

The memory sections of the server are in a binary tree, ordered by their addresses. A memory
section is given by its first and its last address, which are the key and the data of its node.
When a node with two children is deleted, the largest node below its left child takes its place, but
keeps only a part of that child. In the runs where nothing is lost in this way, the table is a map
from the addresses to the memory sections.
-/

namespace Okl4Kernel.ObjectTable

open Okl4Kernel.BinaryTree TransitionSystem List Function

/-- A tree of memory sections. -/
abbrev Table := BinaryTree.Tree ℕ

/-- `find_node`, with the links above the node, or above the place where it would be. -/
def findNode (key : ℕ) : Table → List (Link ℕ) → Table × List (Link ℕ)
  | .null, up => (.null, up)
  | .node l base last r, up =>
    if key < base then findNode key l (.left base last r :: up)
    else if last < key then findNode key r (.right l base last :: up)
    else (.node l base last r, up)

/-- `objtable_insert`. -/
def objtableInsert (t : Table) (m : ℕ × ℕ) : Table × ℤ :=
  match findNode m.1 t [] with
  | (.null, up) => (plug up (.node .null m.1 m.2 .null), 0)
  | (.node .., _) => (t, -1)

/-- What `objtable_delete` puts in the place of a node with the given children. -/
def replacement (left right : Table) : Table :=
  match left, right with
  | .null, r => r
  | l, .null => l
  | l, r =>
    match largestNode l [] with
    | (.node l' base last _, .right pl pbase plast :: _) =>
      -- The parent of the largest node becomes its left child, with none of the links above.
      .node (.node pl pbase plast l') base last r
    | (.node _ base last _, _) => .node .null base last r
    | (.null, _) => r

/-- `objtable_delete`, which always returns 0. -/
def objtableDelete (t : Table) (m : ℕ × ℕ) : Table :=
  match findNode m.1 t [] with
  | (.null, _) => t
  | (.node l _ _ r, up) => plug up (replacement l r)

/-- `objtable_lookup`, where `internal` are the memory sections of the server itself. -/
def objtableLookup (internal : List (ℕ × ℕ)) (t : Table) (addr : ℕ) : Option (ℕ × ℕ) :=
  match t, findNode addr t [] with
  | .null, _ => none
  | _, (.node _ base last _, _) => some (base, last)
  | _, (.null, _) => internal.find? fun m => m.1 ≤ addr ∧ addr ≤ m.2

/-- The tree, and the last address of each memory section that is in it, by its first address. -/
structure State where
  root : Table
  present : ℕ → Option ℕ

/-- The operations that change the table. -/
inductive Op
  | insert (m : ℕ × ℕ)
  | delete (m : ℕ × ℕ)

def step (s : State) : Op → Option State
  | .insert m => some ⟨(objtableInsert s.root m).1, store s.present (.insert m.1 m.2 true)⟩
  | .delete m => some ⟨objtableDelete s.root m, store s.present (.remove m.1)⟩

def init : State := ⟨.null, fun _ => none⟩

/-- The tree is ordered, and each memory section is found by each of its addresses. -/
def Correct (internal : List (ℕ × ℕ)) (s : State) : Prop :=
  IsSearchTree s.root ∧ ∀ base last, s.present base = some last →
    ∀ addr, base ≤ addr → addr ≤ last → objtableLookup internal s.root addr = some (base, last)

/-- Memory sections that do not overlap. -/
def Disjoint (sections : List (ℕ × ℕ)) : Prop :=
  ∀ m ∈ sections, m.1 ≤ m.2 ∧ ∀ m' ∈ sections, m = m' ∨ m.2 < m'.1 ∨ m'.2 < m.1

instance (sections : List (ℕ × ℕ)) : Decidable (Disjoint sections) :=
  inferInstanceAs (Decidable (∀ m ∈ sections, m.1 ≤ m.2 ∧ ∀ m' ∈ sections, _))

/-- Nothing of the children is lost: there is only one, or the left one is a single node, or the
right child of the left one is the largest node. -/
def keepsChildren : Table → Table → Bool
  | .null, _ | _, .null | .node .null _ _ .null, _ | .node _ _ _ (.node _ _ _ .null), _ => true
  | _, _ => false

/-- The operation is about one of the memory sections, and loses none of the others. -/
def Careful (sections : List (ℕ × ℕ)) (s : State) : Op → Bool
  | .insert m => m ∈ sections
  | .delete m => decide (m ∈ sections) && match findNode m.1 s.root [] with
    | (.node l _ _ r, _) => keepsChildren l r
    | (.null, _) => true

variable {sections : List (ℕ × ℕ)} {s : State} {m : ℕ × ℕ}

/-- The children of a node are kept. -/
lemma inorder_replacement {l r : Table} (hkeep : keepsChildren l r = true) :
    inorder (replacement l r) = inorder l ++ inorder r := by
  rcases l with _ | ⟨ll, base, last, lr⟩
  · simp [replacement, inorder]
  rcases r with _ | ⟨rl, rbase, rlast, rr⟩
  · simp [replacement, inorder]
  rcases lr with _ | ⟨lrl, lrbase, lrlast, _ | _⟩
  · rcases ll with _ | _
    · simp [replacement, largestNode, inorder]
    · cases hkeep
  · simp [replacement, largestNode, inorder]
  · rcases ll with _ | _ <;> cases hkeep

/-- An address is searched like the first address of its memory section. -/
lemma findNode_eq {addr base : ℕ} (t : Table) (up : List (Link ℕ))
    (h : ∀ m ∈ inorder t, (addr < m.1 ↔ base < m.1) ∧ (m.2 < addr ↔ m.1 < base)) :
    findNode addr t up = BinaryTree.findNode base t up := by
  induction t generalizing up with
  | null => rfl
  | node l b e r ihl ihr =>
    simp only [inorder, mem_append, mem_cons] at h
    obtain ⟨hlt, hgt⟩ := h (b, e) (.inr (.inl rfl))
    simp only [findNode, BinaryTree.findNode, hlt, hgt]
    rcases lt_trichotomy base b with hb | rfl | hb
    · rw [if_pos hb, if_neg hb.ne, if_pos hb]
      exact ihl _ fun m hm => h m (.inl hm)
    · simp
    · rw [if_neg hb.not_gt, if_pos hb, if_neg hb.ne', if_neg hb.not_gt]
      exact ihr _ fun m hm => h m (.inr (.inr hm))

/-- The tree has the memory sections that are present. -/
structure Inv (sections : List (ℕ × ℕ)) (s : State) : Prop where
  holds : Holds (inorder s.root) s.present
  known : ∀ base last, s.present base = some last → (base, last) ∈ sections

lemma Inv.findNode_eq (h : Inv sections s) (hdisjoint : Disjoint sections) (hm : m ∈ sections)
    {addr : ℕ} (hbase : m.1 ≤ addr) (hlast : addr ≤ m.2) :
    findNode addr s.root [] = BinaryTree.findNode m.1 s.root [] := by
  refine ObjectTable.findNode_eq _ _ fun m' hm' => ?_
  have hin : m' ∈ sections := h.known _ _ ((h.holds.mem _ _).2 hm')
  have hle := (hdisjoint m' hin).1
  rcases (hdisjoint m hm).2 m' hin with rfl | hlt | hlt
  all_goals omega

lemma Inv.insert (h : Inv sections s) (hdisjoint : Disjoint sections) (hm : m ∈ sections) :
    Inv sections ⟨(objtableInsert s.root m).1, store s.present (.insert m.1 m.2 true)⟩ := by
  have hfind := h.findNode_eq hdisjoint hm le_rfl (hdisjoint m hm).1
  have hholds := (h.holds.step (.insert m.1 m.2 true)).1
  refine ⟨?_, fun base last hpresent => ?_⟩
  · rcases hnode : BinaryTree.findNode m.1 s.root [] with ⟨_ | _, up⟩
    all_goals
      simp only [BinaryTree.step, binaryTreeInsert, hnode] at hholds
      simp only [objtableInsert, hfind, hnode]
      exact hholds
  · simp only [store] at hpresent
    split at hpresent
    · rcases eq_or_ne base m.1 with rfl | hne
      · rw [update_self, Option.some_inj] at hpresent
        exact hpresent ▸ hm
      · rw [update_of_ne hne] at hpresent
        exact h.known base last hpresent
    · exact h.known base last hpresent

lemma Inv.delete (h : Inv sections s) (hdisjoint : Disjoint sections)
    (hcareful : Careful sections s (.delete m) = true) :
    Inv sections ⟨objtableDelete s.root m, store s.present (.remove m.1)⟩ := by
  obtain ⟨hm, hkeep⟩ := Bool.and_eq_true_iff.1 hcareful
  replace hm := of_decide_eq_true hm
  have hfind := h.findNode_eq hdisjoint hm le_rfl (hdisjoint m hm).1
  refine ⟨?_, fun base last hpresent => ?_⟩
  · obtain ⟨t, up, hnode, hloc, ⟨rfl, hnone⟩ | ⟨l, d, r, rfl, hd⟩⟩ := h.holds.findNode m.1
    · rw [objtableDelete, hfind, hnode, store, ← hnone, update_eq_self]
      exact h.holds
    · rw [hfind, hnode] at hkeep
      have hholds := h.holds
      rw [← hloc.place, inorder_plug, inorder] at hholds
      have hold : Holds (before up ++ inorder l ++ (m.1, d) :: (inorder r ++ after up))
          s.present := by
        simpa using hholds
      simpa [objtableDelete, hfind, hnode, inorder_plug, inorder_replacement hkeep, store] using
        hold.remove
  · rcases eq_or_ne base m.1 with rfl | hne
    · cases (update_self ..).symm.trans hpresent
    · simp only [store, update_of_ne hne] at hpresent
      exact h.known base last hpresent

/-- A table whose memory sections are deleted carefully is a map of their addresses. -/
theorem map_of_careful {ops : List Op} (internal : List (ℕ × ℕ)) (hdisjoint : Disjoint sections)
    (hops : RunMeets step (Careful sections · · = true) init ops)
    (hrun : run step init ops = some s) : Correct internal s := by
  have hinv : Inv sections s := by
    refine hops.invariant (fun s op s' h hcareful hstep => ?_) ⟨holds_run [], nofun⟩ hrun
    rcases op with m | m
    · cases hstep
      exact h.insert hdisjoint (of_decide_eq_true hcareful)
    · cases hstep
      exact h.delete hdisjoint hcareful
  refine ⟨hinv.holds.sorted, fun base last hpresent addr hbase hlast => ?_⟩
  have hfind := hinv.findNode_eq hdisjoint (hinv.known base last hpresent) hbase hlast
  obtain ⟨t, up, hnode, -, ⟨-, hnone⟩ | ⟨l, d, r, rfl, hd⟩⟩ := hinv.holds.findNode base
  · cases hnone.symm.trans hpresent
  obtain rfl := Option.some_inj.1 (hd.symm.trans hpresent)
  rw [hnode] at hfind
  rcases s with ⟨_ | ⟨l', base', last', r'⟩, present⟩
  · cases hfind
  · simp only [objtableLookup, hfind]

/-- Three memory sections are inserted, and the one in the middle is deleted. -/
theorem map_of_careful_three : Correct []
    ⟨.node .null 10 19 (.node .null 30 39 .null), store (store (store (store (fun _ => none)
      (.insert 20 29 true)) (.insert 10 19 true)) (.insert 30 39 true)) (.remove 20)⟩ := by
  have hdisjoint : Disjoint [(20, 29), (10, 19), (30, 39)] := by decide
  have hops : RunMeets step (Careful [(20, 29), (10, 19), (30, 39)] · · = true) init
    [.insert (20, 29), .insert (10, 19), .insert (30, 39), .delete (20, 29)] := by decide
  exact map_of_careful [] hdisjoint hops rfl

/-- A memory section below the left child is lost. -/
theorem not_correct_four : ∃ s, run step init
    [.insert (20, 29), .insert (10, 19), .insert (0, 9), .insert (30, 39), .delete (20, 29)] =
      some s ∧ Disjoint [(20, 29), (10, 19), (0, 9), (30, 39)] ∧
      s.present 0 = some 9 ∧ objtableLookup [] s.root 5 = none ∧ ¬ Correct [] s := by
  refine ⟨_, rfl, by decide, by decide, by decide, fun h => ?_⟩
  exact absurd (h.2 0 9 (by decide) 5 (by decide) (by decide)) (by decide)

end Okl4Kernel.ObjectTable
