import Okl4Kernel.ProtectionDomain

/-!
# Lists of containers

A list of containers is changed by `_okl4_mem_container_list_insert` and
`_okl4_mem_container_list_remove` only. Whatever is inserted and removed, the containers stay in
order and apart, although a new one is compared with its two neighbours only.

`_okl4_get_container_from_vaddr` passes the last address of a container as the end of its range, and
a range does not include its end. So the last address of a container is not found, and a container
of no size at the address zero is found for nearly every address.
-/

namespace Okl4Kernel.Pd

open TransitionSystem List

/-- A change of a list of containers. -/
inductive ListOp
  | insert (node : Node)
  | remove (container : Container)

variable (o : Objects) (nodes : List Node)

/-- One change. A container that is refused or not found leaves the list as it is, and nothing may
be removed from an empty list. -/
def listStep : ListOp → Option (List Node)
  | .insert node => some ((listInsert o nodes node).getD nodes)
  | .remove container =>
    if nodes = [] then none else some ((listRemove nodes container).getD nodes)

/-- The range of a container. -/
abbrev Objects.nodeRange (n : Node) : VirtRange := o.range n.payload

/-- `_okl4_is_container_overlap`. -/
abbrev Objects.isContainerOverlap (x y : Node) : Prop :=
  RangeList.Overlap (fun n => (o.nodeRange n).base) (fun n => (o.nodeRange n).stop) x y

/-- The containers are in order, and each ends before the next one begins. -/
abbrev Objects.Apart (nodes : List Node) : Prop :=
  RangeList.Apart (fun n => (o.nodeRange n).base) (fun n => (o.nodeRange n).stop) nodes

/-- The container that has an address is found, and nothing is found if there is none. -/
def Objects.Finds (vaddr : ℕ) : Prop :=
  ∀ n, getContainerFromVaddr o nodes vaddr = some n ↔ n ∈ nodes ∧ (o.nodeRange n).Has vaddr

/-- The address is not the last one of a container, and no container of no size is at zero. -/
def Objects.Visible (vaddr : ℕ) : Prop :=
  ∀ n ∈ nodes, ((o.nodeRange n).size ≠ 0 → (o.nodeRange n).stop ≠ vaddr + 1) ∧
    ((o.nodeRange n).stop = 0 → vaddr + 1 = 2 ^ 32)

instance (o : Objects) (nodes : List Node) (vaddr : ℕ) : Decidable (o.Visible nodes vaddr) :=
  inferInstanceAs (Decidable (∀ n ∈ nodes, _))

variable {o : Objects} {nodes : List Node} {vaddr : ℕ}

/-! ## Changes -/

/-- The containers are apart, and no two of them overlap. -/
structure Separate (o : Objects) (nodes : List Node) : Prop where
  apart : o.Apart nodes
  overlap : nodes.Pairwise fun x y => ¬ o.isContainerOverlap x y

lemma Objects.base_le_stop (o : Objects) (n : Node) : (o.nodeRange n).base ≤ (o.nodeRange n).stop :=
  Nat.le_add_right _ _

/-- A container is refused exactly if it overlaps with one of the list. -/
lemma Separate.listInsert_eq_none_iff (h : Separate o nodes) (node : Node) :
    listInsert o nodes node = none ↔ ∃ n ∈ nodes, o.isContainerOverlap n node := by
  refine (RangeList.insert_eq_none_iff o.base_le_stop h.apart h.overlap (by simp)).trans ?_
  simp

lemma Separate.listStep {nodes' : List Node} (op : ListOp) (h : Separate o nodes)
    (hstep : listStep o nodes op = some nodes') : Separate o nodes' := by
  cases op with
  | insert node =>
    cases hstep
    rcases hinsert : listInsert o nodes node with _ | nodes'
    · exact h
    · exact ⟨(RangeList.insert_spec o.base_le_stop h.apart (by simp) (by simp) hinsert).1,
        RangeList.insert_pairwise o.base_le_stop h.apart h.overlap hinsert⟩
  | remove container =>
    obtain ⟨-, hsome⟩ := Option.ite_none_left_eq_some.1 hstep
    cases hsome
    unfold listRemove
    split_ifs with hany
    · have hsublist := eraseP_sublist (p := fun n : Node => n.payload = container) (l := nodes)
      exact ⟨h.apart.sublist hsublist, h.overlap.sublist hsublist⟩
    · exact h

/-! ## Looking up an address -/

/-- The test of `_okl4_get_container_from_vaddr` for one container. -/
def Passes (o : Objects) (vaddr : ℕ) (n : Node) : Prop :=
  (o.nodeRange n).base ≤ vaddr ∧ vaddr < ((o.nodeRange n).stop + 2 ^ 32 - 1) % 2 ^ 32

instance (vaddr : ℕ) (n : Node) : Decidable (Passes o vaddr n) :=
  inferInstanceAs (Decidable (_ ∧ _))

lemma passes_iff (n : Node) (hvaddr : vaddr < 2 ^ 32) : Passes o vaddr n ↔
    if (o.nodeRange n).stop = 0 then vaddr + 1 ≠ 2 ^ 32
    else (o.nodeRange n).base ≤ vaddr ∧ vaddr + 1 < (o.nodeRange n).stop := by
  have hbounded : (o.nodeRange n).stop < 2 ^ 32 := (o.nodeRange n).bounded
  have hle := o.base_le_stop n
  unfold Passes
  split_ifs <;> omega

lemma getContainerFromVaddr_eq_some_iff {n : Node} : getContainerFromVaddr o nodes vaddr = some n ↔
    Passes o vaddr n ∧ ∃ before after, nodes = before ++ n :: after ∧
      ∀ x ∈ before, ¬ Passes o vaddr x := by
  have hfind : getContainerFromVaddr o nodes vaddr = nodes.find? fun n => Passes o vaddr n := rfl
  rw [hfind, find?_eq_some_iff_append]
  simp only [decide_eq_true_eq, Bool.not_eq_true', decide_eq_false_iff_not]

lemma Objects.Finds.stop_ne (h : o.Finds nodes vaddr) (hvaddr : vaddr < 2 ^ 32) {n : Node}
    (hn : n ∈ nodes) (hsize : (o.nodeRange n).size ≠ 0) : (o.nodeRange n).stop ≠ vaddr + 1 := by
  intro hlast
  have hstop : (o.nodeRange n).stop = (o.nodeRange n).base + (o.nodeRange n).size := rfl
  have hhas : (o.nodeRange n).Has vaddr := ⟨by omega, by omega⟩
  have hpasses := (getContainerFromVaddr_eq_some_iff.1 ((h n).2 ⟨hn, hhas⟩)).1
  rw [passes_iff n hvaddr, if_neg (by omega)] at hpasses
  omega

/-- What passes the test is found, unless a container before it does. Before a container at zero,
there are only containers of no size. -/
lemma Separate.stop_ne_zero (h : Separate o nodes) (hfinds : o.Finds nodes vaddr)
    (hvaddr : vaddr < 2 ^ 32) {n : Node} (hn : n ∈ nodes) (hzero : (o.nodeRange n).stop = 0) :
    vaddr + 1 = 2 ^ 32 := by
  by_contra hne
  have hpasses : Passes o vaddr n := (passes_iff n hvaddr).2 ((if_pos hzero).mpr hne)
  obtain ⟨x, hx⟩ : ∃ x, getContainerFromVaddr o nodes vaddr = some x :=
    Option.isSome_iff_exists.1 (find?_isSome.2 ⟨n, hn, decide_eq_true hpasses⟩)
  obtain ⟨-, hbase, hstop⟩ := (hfinds x).1 hx
  obtain ⟨-, before, after, rfl, hbefore⟩ := getContainerFromVaddr_eq_some_iff.1 hx
  rcases mem_append.1 hn with hn | hn
  · exact hbefore n hn hpasses
  rcases mem_cons.1 hn with rfl | hn
  · omega
  · have hapart : (o.nodeRange x).stop ≤ (o.nodeRange n).base :=
      (pairwise_cons.1 (pairwise_append.1 h.apart).2.1).1 n hn
    have hle := o.base_le_stop n
    omega

/-- The address is found exactly if the test is right for all containers of the list. -/
lemma Separate.finds_iff_visible (h : Separate o nodes) (hvaddr : vaddr < 2 ^ 32) :
    o.Finds nodes vaddr ↔ o.Visible nodes vaddr := by
  refine ⟨fun hfinds n hn => ⟨hfinds.stop_ne hvaddr hn, h.stop_ne_zero hfinds hvaddr hn⟩, ?_⟩
  intro hvisible n
  have hright : ∀ n ∈ nodes, Passes o vaddr n ↔ (o.nodeRange n).Has vaddr := by
    intro n hn
    obtain ⟨hlast, hzero⟩ := hvisible n hn
    have hstop : (o.nodeRange n).stop = (o.nodeRange n).base + (o.nodeRange n).size := rfl
    rw [passes_iff n hvaddr]
    unfold VirtRange.Has
    split_ifs <;> omega
  rw [getContainerFromVaddr_eq_some_iff]
  constructor
  · rintro ⟨hpasses, before, after, rfl, -⟩
    exact ⟨by simp, (hright n (by simp)).1 hpasses⟩
  rintro ⟨hn, hhas⟩
  obtain ⟨before, after, rfl⟩ := append_of_mem hn
  refine ⟨(hright n hn).2 hhas, before, after, rfl, fun x hx hpasses => ?_⟩
  -- A container before it would have to end before the address.
  have hstop : (o.nodeRange x).stop ≤ (o.nodeRange n).base :=
    (pairwise_append.1 h.apart).2.2 x hx n mem_cons_self
  have hhas' := (hright x (mem_append_left _ hx)).1 hpasses
  have hbase := hhas.1
  have hlt := hhas'.2
  omega

/-- After any changes, the containers are in order and apart, and a container is refused exactly if
it overlaps with one of them. The container of an address is found exactly if the address is not
the last one of a container, and there is no container of no size at zero. -/
theorem containers_apart_and_finds_iff (o : Objects) (ops : List ListOp) {nodes : List Node}
    (hrun : run (listStep o) [] ops = some nodes) : o.Apart nodes ∧
      (∀ node, listInsert o nodes node = none ↔ ∃ n ∈ nodes, o.isContainerOverlap n node) ∧
      ∀ vaddr < 2 ^ 32, o.Finds nodes vaddr ↔ o.Visible nodes vaddr := by
  have hsep : Separate o nodes :=
    run_invariant (fun _ op _ h hstep => h.listStep op hstep)
      (P := Separate o) ⟨List.Pairwise.nil, List.Pairwise.nil⟩ hrun
  exact ⟨hsep.apart, hsep.listInsert_eq_none_iff, fun _ hvaddr => hsep.finds_iff_visible hvaddr⟩

/-- One memory section of one page, at the address 4096. -/
def onePage : Objects where
  memsec _ := ⟨⟨4096, 4096, page_bounded⟩, 4096, 0, 0, page_pos, page_dvd, page_dvd⟩
  zoneRange _ := ⟨0, 0, by decide⟩
  maxPds _ := 0
  extensionRange _ := ⟨0, 0, by decide⟩
  basePd _ := 0

/-- There is also a zone, behind the memory section. -/
def pageAndZone : Objects := { onePage with zoneRange _ := ⟨8192, 8192, by decide⟩ }

/-- The zone is inserted first and comes last. Its first address is found. -/
theorem pageAndZone_finds_zone :
    pageAndZone.Finds [⟨.memsec 0, fullyAccessible⟩, ⟨.zone 0, fullyAccessible⟩] 8192 :=
  ((containers_apart_and_finds_iff pageAndZone [.insert ⟨.zone 0, fullyAccessible⟩,
    .insert ⟨.memsec 0, fullyAccessible⟩] rfl).2.2 8192 (by decide)).2 (by decide)

/-- The last address of the page belongs to the memory section, but nothing is found. -/
theorem onePage_not_finds_last : run (listStep onePage) [] [.insert ⟨.memsec 0, fullyAccessible⟩] =
        some [⟨.memsec 0, fullyAccessible⟩] ∧
      (onePage.nodeRange ⟨.memsec 0, fullyAccessible⟩).Has 8191 ∧
      getContainerFromVaddr onePage [⟨.memsec 0, fullyAccessible⟩] 8191 = none :=
  ⟨rfl, by decide, by decide⟩

end Okl4Kernel.Pd
