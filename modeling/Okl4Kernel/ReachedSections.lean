import Mathlib.Data.List.Count
import Okl4Kernel.PageMappings

/-!
# What the spaces reach

`Reaches u s m perms` says that the space `s` gets the memory section `m` with the mask `perms`: from
a container of a protection domain, from the protection domain that it extends, or from a container
of the extension itself. The containers are where they should be (`Shape`), so that the address
ranges of what a space reaches are disjoint.

A state is `Accounted` if every page that is mapped in a space belongs to a memory section that the
space reaches. Which spaces are looked at and what is to be known about the permissions of the page
are parameters, so that the invariant can be used for where pages are mapped and for how. It needs
callbacks that answer pages of the memory section that they are asked about (`AnswersStay`). Two
operations may leave pages behind in an extension (`SparesExtensions`): detaching a memory section
from a zone forgets the extensions, and an extension that cannot be attached keeps what was mapped
in it.
-/

namespace Okl4Kernel.Pd

open TransitionSystem Function List Option

namespace Domains

variable {u u' u'' : Domains} {R : SpaceId → MemsecId → Perms → Prop} {callback : Callback}

/-! ## What a space reaches -/

/-- The space `s` gets the memory section `m` with the mask `perms`. -/
inductive Reaches (u : Domains) : SpaceId → MemsecId → Perms → Prop
  | base {p container m perms} (h : ⟨container, perms⟩ ∈ u.pdContainers p)
      (h' : u.Holds container m) : Reaches u (.pd p) m perms
  | extended {p e m perms} (h : u.extension p = some e) (h' : Reaches u (.pd p) m perms) :
      Reaches u (.extension e) m perms
  | own {e m perms} (h : ⟨.memsec m, perms⟩ ∈ u.extensionContainers e) :
      Reaches u (.extension e) m perms

/-- A list of containers with disjoint ranges. -/
def Apart (objects : Objects) (nodes : List Node) : Prop :=
  RangeList.Apart (fun n => (objects.range n.payload).base) (fun n => (objects.range n.payload).stop)
    nodes

/-- The containers are where they should be. -/
structure Shape (u : Domains) : Prop where
  pds : ∀ p, Apart u.objects (u.pdContainers p)
  zones : ∀ z, Apart u.objects (u.zoneContainers z)
  extensions : ∀ e, Apart u.objects (u.extensionContainers e)
  zone : ∀ z, ∀ node ∈ u.zoneContainers z, ∃ m, node.payload = .memsec m ∧
    (u.objects.memsec m).range.isContainedIn (u.objects.zoneRange z)
  extension : ∀ e, ∀ node ∈ u.extensionContainers e, node.attachPerms = fullyAccessible ∧
    ∃ m, node.payload = .memsec m ∧
      (u.objects.memsec m).range.isContainedIn (u.objects.extensionRange e)
  parents : ∀ p z, (u.parentPds z).count p = (u.pdContainers p).countP fun n => n.payload = .zone z
  attached : ∀ p e, ((u.pdContainers p).countP fun n => n.payload = .extension e) =
    if u.extension p = some e then 1 else 0
  based : ∀ p e, u.extension p = some e → u.objects.basePd e = p
  full : ∀ p, ∀ node ∈ u.pdContainers p, ∀ e, node.payload = .extension e →
    node.attachPerms = fullyAccessible

/-- Every page that is mapped in one of the spaces `S` belongs to a memory section that the space
reaches. The permissions of the page, those of the memory section and the mask are related by
`P`. -/
structure Accounted (S : SpaceId → Prop) (P : Perms → Perms → Perms → Prop) (u : Domains) :
    Prop where
  shape : u.Shape
  reached : ∀ s, S s → ∀ a mapping, u.space s a = some mapping → ∃ m mask, u.Reaches s m mask ∧
    (u.objects.memsec m).range.Has a ∧ P mapping.perms (u.objects.memsec m).perms mask

/-- The relation holds for the permissions that the mask leaves. -/
def Masks (P : Perms → Perms → Perms → Prop) : Prop := ∀ perms mask, P (perms &&& mask) perms mask

variable {e : ExtensionId} {nodes : List Node} {m m' : MemsecId} {perms : Perms} {a : ℕ}

variable {container : Container}

variable {p : PdId}

/-- An extension that is a container of a protection domain is attached to it. -/
lemma Shape.extension_of_mem (h : u.Shape)
    (hmem : ⟨.extension e, perms⟩ ∈ u.pdContainers p) : u.extension p = some e := by
  by_contra hne
  have hcount := h.attached p e
  rw [if_neg hne] at hcount
  have hnot := countP_eq_zero.1 hcount _ hmem
  simp at hnot

lemma Holds.mono (h : u.Holds container m)
    (hzones : ∀ z, ∀ n ∈ u.zoneContainers z, n ∈ u'.zoneContainers z) : u'.Holds container m := by
  rcases h with heq | ⟨z, q, heq, hmem⟩
  · exact .inl heq
  · exact .inr ⟨z, q, heq, hzones z _ hmem⟩

lemma Reaches.mono {s : SpaceId} (h : u.Reaches s m perms)
    (hpds : ∀ p, ∀ n ∈ u.pdContainers p, n ∈ u'.pdContainers p)
    (hzones : ∀ z, ∀ n ∈ u.zoneContainers z, n ∈ u'.zoneContainers z)
    (hextensions : ∀ e, ∀ n ∈ u.extensionContainers e, n ∈ u'.extensionContainers e)
    (hattached : ∀ p e, u.extension p = some e → u'.extension p = some e) :
    u'.Reaches s m perms := by
  induction h with
  | base hmem hholds => exact .base (hpds _ _ hmem) (hholds.mono hzones)
  | extended he _ ih => exact .extended (hattached _ _ he) ih
  | own hmem => exact .own (hextensions _ _ hmem)

lemma Reaches.of_frame {s : SpaceId} (h : u.Reaches s m perms)
    (hframe : u' = { u with space := u'.space }) : u'.Reaches s m perms := by
  rw [hframe]
  exact h.mono (fun _ _ hn => hn) (fun _ _ hn => hn) (fun _ _ hn => hn) fun _ _ he => he

/-- The spaces do not matter for where the containers are. -/
lemma Shape.of_frame (h : u.Shape) (hframe : u' = { u with space := u'.space }) : u'.Shape := by
  rw [hframe]
  exact { h with }

variable {S : SpaceId → Prop} {P : Perms → Perms → Perms → Prop} {ι : Type*}

lemma Accounted.of_mono (h : u.Accounted S P) (hshape : u'.Shape) (hobjects : u'.objects = u.objects)
    (hspace : u'.space = u.space)
    (hreach : ∀ s m perms, u.Reaches s m perms → u'.Reaches s m perms) : u'.Accounted S P := by
  refine ⟨hshape, fun s hs a mapping hmapping => ?_⟩
  rw [hspace] at hmapping
  obtain ⟨m, mask, hreaches, hrest⟩ := h.reached s hs a mapping hmapping
  refine ⟨m, mask, hreach s m mask hreaches, ?_⟩
  rw [hobjects]
  exact hrest

lemma Grows.accounted (hgrows : Grows R u u') (h : u.Accounted S P)
    (hR : ∀ s m perms, S s → R s m perms → ∃ mask, u.Reaches s m mask ∧
      P ((u.objects.memsec m).perms &&& perms) (u.objects.memsec m).perms mask) :
    u'.Accounted S P := by
  refine ⟨h.shape.of_frame hgrows.frame, fun s hs a mapping hmapping => ?_⟩
  have hreached : ∃ m mask, u.Reaches s m mask ∧ (u.objects.memsec m).range.Has a ∧
      P mapping.perms (u.objects.memsec m).perms mask := by
    rcases hgrows.mapped s a with hsame | ⟨m, perms, mapping', hRm, hhas, hspace, hperms⟩
    · rw [hsame] at hmapping
      exact h.reached s hs a mapping hmapping
    · rw [hmapping] at hspace
      cases hspace
      obtain ⟨mask, hreach, hmask⟩ := hR s m perms hs hRm
      rw [← hperms] at hmask
      exact ⟨m, mask, hreach, hhas, hmask⟩
  obtain ⟨m, mask, hreach, hrest⟩ := hreached
  refine ⟨m, mask, hreach.of_frame hgrows.frame, ?_⟩
  rw [hgrows.objects]
  exact hrest

lemma listInsert_spec {objects : Objects} {nodes' : List Node} {node : Node}
    (h : Apart objects nodes) (hinsert : listInsert objects nodes node = some nodes') :
    Apart objects nodes' ∧ nodes'.Perm (node :: nodes) := by
  obtain ⟨hapart, hperm, -⟩ := RangeList.insert_spec (fun n => Nat.le_add_right _ _) h
    (by simp) (by simp) hinsert
  exact ⟨hapart, hperm⟩

variable {f : ι → List Node}

lemma forall_update [DecidableEq ι] {P : ι → List Node → Prop} {i : ι}
    (h : ∀ j, P j (f j)) (hi : P i nodes) (j : ι) : P j (update f i nodes j) :=
  (forall_update_iff f P).2 ⟨hi, fun j _ => h j⟩ j

/-- The container `node` is attached to a protection domain, and the pages are as they were. -/
structure AttachesPd (p : PdId) (node : Node) (u u' : Domains) : Prop where
  nodes : ∃ nodes, listInsert u.objects (u.pdContainers p) node = some nodes ∧
    u'.pdContainers = update u.pdContainers p nodes
  objects : u'.objects = u.objects
  space : u'.space = u.space
  zones : u'.zoneContainers = u.zoneContainers
  extensions : u'.extensionContainers = u.extensionContainers
  parents : ∀ p' z, (u'.parentPds z).count p' =
    (u.parentPds z).count p' + if p' = p ∧ node.payload = .zone z then 1 else 0
  extension : ∀ p' e, u'.extension p' = some e ↔
    u.extension p' = some e ∨ p' = p ∧ node.payload = .extension e
  fresh : ∀ e, node.payload = .extension e →
    u.extension p = none ∧ u.objects.basePd e = p ∧ node.attachPerms = fullyAccessible

variable {node n : Node} {error : Option Errno} {z : ZoneId}

section

variable (ha : AttachesPd p node u u')
include ha

/-- The list of one protection domain got longer. -/
lemma AttachesPd.perm (h : u.Shape) (p' : PdId) : (u'.pdContainers p').Perm
    (if p' = p then node :: u.pdContainers p' else u.pdContainers p') := by
  obtain ⟨nodes, hinsert, hpds⟩ := ha.nodes
  obtain ⟨-, hperm⟩ := listInsert_spec (h.pds p) hinsert
  rw [hpds, update_apply]
  split_ifs with hp
  · rwa [hp]
  · rfl

lemma AttachesPd.mem_iff (h : u.Shape) (p' : PdId) (n : Node) :
    n ∈ u'.pdContainers p' ↔ n ∈ u.pdContainers p' ∨ p' = p ∧ n = node := by
  rw [(ha.perm h p').mem_iff]
  split_ifs with hp <;> simp [hp, or_comm]

lemma AttachesPd.countP (h : u.Shape) (p' : PdId) (f : Node → Bool) :
    (u'.pdContainers p').countP f =
      (u.pdContainers p').countP f + if p' = p ∧ f node then 1 else 0 := by
  rw [(ha.perm h p').countP_eq]
  split_ifs with hp <;> simp_all

lemma AttachesPd.shape (h : u.Shape) : u'.Shape := by
  have hmem := ha.mem_iff h
  refine ⟨fun p' => ?_, fun z => ?_, fun e => ?_, fun z => ?_, fun e => ?_, fun p' z => ?_,
    fun p' e => ?_, fun p' e he => ?_, fun p' n hn e he => ?_⟩
  · obtain ⟨nodes, hinsert, hpds⟩ := ha.nodes
    rw [ha.objects, hpds]
    exact forall_update h.pds (listInsert_spec (h.pds p) hinsert).1 p'
  · rw [ha.objects, ha.zones]
    exact h.zones z
  · rw [ha.objects, ha.extensions]
    exact h.extensions e
  · rw [ha.objects, ha.zones]
    exact h.zone z
  · rw [ha.objects, ha.extensions]
    exact h.extension e
  · rw [ha.parents, h.parents, ha.countP h]
    simp
  · rw [ha.countP h, h.attached]
    by_cases hnew : p' = p ∧ node.payload = .extension e
    · obtain ⟨rfl, hpayload⟩ := hnew
      have hnone := (ha.fresh e hpayload).1
      simp [ha.extension, hpayload, hnone]
    · have hiff : u'.extension p' = some e ↔ u.extension p' = some e := by simp [ha.extension, hnew]
      simp [hiff, hnew]
  · rw [ha.objects]
    rcases (ha.extension p' e).1 he with hold | ⟨rfl, hpayload⟩
    · exact h.based p' e hold
    · exact (ha.fresh e hpayload).2.1
  · rcases (hmem p' n).1 hn with hold | ⟨rfl, rfl⟩
    · exact h.full p' n hold e he
    · exact (ha.fresh e he).2.2

/-- The invariant holds before the container is premapped. -/
lemma AttachesPd.inv (h : u.Accounted S P) : u'.Accounted S P := by
  have hmem := ha.mem_iff h.shape
  refine h.of_mono (ha.shape h.shape) ha.objects ha.space fun s m perms hreach => ?_
  exact hreach.mono (fun p' n hn => (hmem p' n).2 (.inl hn)) (fun _ _ hn => ha.zones ▸ hn)
    (fun _ _ hn => ha.extensions ▸ hn) fun p' e he => (ha.extension p' e).2 (.inl he)

end

/-- Whatever is mapped that is reached. -/
lemma Grows.accounted_of_reaches (hgrows : Grows u.Reaches u u') (h : u.Accounted S P)
    (hP : Masks P) : u'.Accounted S P :=
  hgrows.accounted h fun _ _ perms _ hreach => ⟨perms, hreach, hP _ _⟩

lemma AttachesPd.premap {v v' : Domains} (ha : AttachesPd p node u v) (h : u.Accounted S P)
    (hP : Masks P) (hstays : CallbackStays u.objects callback)
    (hbase : v.premapContainer callback (.pd p) node.attachPerms node.payload = some v')
    (hextension : v'.premapExtension callback p node.attachPerms node.payload = some u') :
    u'.Accounted S P := by
  have hmem := (ha.mem_iff h.shape p node).2 (.inr ⟨rfl, rfl⟩)
  have hreach : ∀ m, v.Holds node.payload m → v.Reaches (.pd p) m node.attachPerms :=
    fun m hholds => .base hmem hholds
  rw [← ha.objects] at hstays
  have hfirst : Grows v.Reaches v v' := grows_premapContainer hstays hbase hreach
  have hsecond : Grows v.Reaches v' u' := by
    refine grows_premapExtension (hfirst.objects ▸ hstays) hextension ?_
    rw [hfirst.frame]
    exact fun e m he hholds => .extended he (hreach m hholds)
  exact (hfirst.trans hsecond).accounted_of_reaches (ha.inv h) hP

/-- What holds for the containers of all owners holds for the new one as well. -/
lemma forall_mem_update [DecidableEq ι] {Q : ι → Node → Prop} {i : ι} (h : ∀ j, ∀ n ∈ f j, Q j n)
    (hperm : nodes.Perm (node :: f i)) (hnode : Q i node) (j : ι) :
    ∀ n ∈ update f i nodes j, Q j n := by
  refine forall_update (P := fun j nodes => ∀ n ∈ nodes, Q j n) h (fun n hn => ?_) j
  exact forall_mem_cons.2 ⟨hnode, h i⟩ n (hperm.mem_iff.1 hn)

lemma mem_update_of_perm [DecidableEq ι] {i : ι}
    (hperm : nodes.Perm (node :: f i)) {j : ι} (hn : n ∈ f j) : n ∈ update f i nodes j :=
  forall_update (P := fun j l => n ∈ f j → n ∈ l) (fun _ => id)
    (fun hn => hperm.mem_iff.2 (mem_cons_of_mem node hn)) j hn

lemma Shape.attached_of_parent (h : u.Shape) (hp : p ∈ u.parentPds z) :
    ∃ perms, ⟨.zone z, perms⟩ ∈ u.pdContainers p := by
  have hpos : 0 < (u.pdContainers p).countP fun n => n.payload = .zone z := by
    rw [← h.parents]
    exact count_pos_iff.2 hp
  obtain ⟨⟨payload, perms⟩, hmem, hpayload⟩ := countP_pos_iff.1 hpos
  obtain rfl : payload = .zone z := by simpa using hpayload
  exact ⟨perms, hmem⟩

lemma Shape.parent_of_attached (h : u.Shape) (hmem : ⟨.zone z, perms⟩ ∈ u.pdContainers p) :
    p ∈ u.parentPds z := by
  refine count_pos_iff.1 ?_
  rw [h.parents]
  exact countP_pos_iff.2 ⟨_, hmem, by simp⟩

/-- `okl4_zone_memsec_attach`, where the mask of the zone is not looked at. -/
lemma Accounted.zoneMemsecAttach (h : u.Accounted S P) (hstays : CallbackStays u.objects callback)
    (hmasks : ∀ p ∈ u.parentPds z, ∀ perms, ⟨.zone z, perms⟩ ∈ u.pdContainers p →
      P ((u.objects.memsec m).perms &&& fullyAccessible) (u.objects.memsec m).perms perms)
    (hstep : u.zoneMemsecAttach z m callback = some (u', error)) : u'.Accounted S P := by
  obtain ⟨-, hstep⟩ := ite_none_right_eq_some.1 hstep
  split_ifs at hstep with hcontained
  · split at hstep
    · cases hstep
      exact h
    rename_i nodes hinsert
    obtain ⟨premapped, hpremapped, ⟨⟩⟩ := bind_eq_some_iff.1 hstep
    obtain ⟨hapart, hperm⟩ := listInsert_spec (h.shape.zones z) hinsert
    have hgrows : Grows (fun s m' perms => m' = m ∧ perms = fullyAccessible ∧
        ∃ p ∈ u.parentPds z, s = .pd p) { u with
          zoneContainers := update u.zoneContainers z nodes
          owner := update u.owner m (some (.zone z)) } u' := by
      refine grows_foldlM (fun v v' p hp hv hmap => ?_) hpremapped
      refine grows_premapSection ?_ hmap ⟨rfl, rfl, p, hp, rfl⟩
      rw [hv]
      exact hstays
    refine hgrows.accounted (h.of_mono { h.shape with
      zones := forall_update h.shape.zones hapart
      zone := forall_mem_update h.shape.zone hperm ⟨m, rfl, hcontained⟩ } rfl rfl
        fun s m perms hreach => ?_) ?_
    · exact hreach.mono (fun _ _ hn => hn) (fun _ _ hn => mem_update_of_perm hperm hn)
        (fun _ _ hn => hn) fun _ _ he => he
    rintro s m' perms - ⟨rfl, rfl, p, hp, rfl⟩
    obtain ⟨mask, hmem⟩ := h.shape.attached_of_parent hp
    refine ⟨mask, .base hmem (.inr ⟨z, fullyAccessible, rfl, ?_⟩), hmasks p hp mask hmem⟩
    dsimp only
    rw [update_self, hperm.mem_iff]
    exact mem_cons_self
  · cases hstep
    exact h

section

variable (h : u.Accounted S P) (hP : Masks P) (hstays : CallbackStays u.objects callback)
include h hP hstays

lemma Accounted.pdMemsecAttach
    (hstep : u.pdMemsecAttach p m callback = some (u', error)) : u'.Accounted S P := by
  obtain ⟨-, hstep⟩ := ite_none_right_eq_some.1 hstep
  split at hstep
  · cases hstep
    exact h
  rename_i nodes hinsert
  obtain ⟨premapped, hpremapped, hstep⟩ := bind_eq_some_iff.1 hstep
  obtain ⟨extended, hextended, ⟨⟩⟩ := bind_eq_some_iff.1 hstep
  refine AttachesPd.premap (show AttachesPd p ⟨.memsec m, fullyAccessible⟩ u _ from ?_) h hP hstays
    hpremapped hextended
  exact ⟨⟨nodes, hinsert, rfl⟩, rfl, rfl, rfl, rfl, fun p' z => by simp, fun p' e => by simp, nofun⟩

lemma Accounted.pdZoneAttach
    (hstep : u.pdZoneAttach p z perms callback = some (u', error)) : u'.Accounted S P := by
  unfold Domains.pdZoneAttach at hstep
  split at hstep
  · cases hstep
    exact h
  split at hstep
  · cases hstep
    exact h.of_mono { h.shape with } rfl rfl fun s m perms hreach =>
        hreach.mono (fun _ _ hn => hn) (fun _ _ hn => hn) (fun _ _ hn => hn) fun _ _ he => he
  rename_i nodes hinsert
  obtain ⟨-, hstep⟩ := ite_none_right_eq_some.1 hstep
  obtain ⟨premapped, hpremapped, hstep⟩ := bind_eq_some_iff.1 hstep
  obtain ⟨extended, hextended, ⟨⟩⟩ := bind_eq_some_iff.1 hstep
  refine AttachesPd.premap (show AttachesPd p ⟨.zone z, perms⟩ u _ from ?_) h hP hstays hpremapped
    hextended
  refine ⟨⟨nodes, hinsert, rfl⟩, rfl, rfl, rfl, rfl, fun p' z' => ?_, fun p' e => by simp, nofun⟩
  by_cases hz : z' = z
  · subst hz
    dsimp only
    rw [update_self, count_append, count_singleton]
    simp [eq_comm (a := p)]
  · simp [update_of_ne hz, Ne.symm hz]

lemma Accounted.extensionMemsecAttach
    (hstep : u.extensionMemsecAttach e m callback = some (u', error)) : u'.Accounted S P := by
  obtain ⟨-, hstep⟩ := ite_none_right_eq_some.1 hstep
  split_ifs at hstep with hcontained
  · split at hstep
    · cases hstep
      exact h
    rename_i nodes hinsert
    obtain ⟨premapped, hpremapped, ⟨⟩⟩ := bind_eq_some_iff.1 hstep
    obtain ⟨hapart, hperm⟩ := listInsert_spec (h.shape.extensions e) hinsert
    refine (grows_premapSection (by exact hstays) hpremapped (.own ?_)).accounted_of_reaches
      (h.of_mono { h.shape with
        extensions := forall_update h.shape.extensions hapart
        extension := forall_mem_update h.shape.extension hperm ⟨rfl, m, rfl, hcontained⟩ } rfl rfl
          fun s m perms hreach => ?_) hP
    · exact hreach.mono (fun _ _ hn => hn) (fun _ _ hn => hn)
        (fun _ _ hn => mem_update_of_perm hperm hn) fun _ _ he => he
    · dsimp only
      rw [update_self, hperm.mem_iff]
      exact mem_cons_self
  · cases hstep
    exact h

/-- `okl4_pd_extension_attach`. An extension that cannot be attached keeps what was mapped in it. -/
lemma Accounted.pdExtensionAttach (hfits : S (.extension e) → u.objects.basePd e = p →
      u.extension p = none → (listInsert u.objects (u.pdContainers p) ⟨.extension e,
      fullyAccessible⟩).isSome) (hstep : u.pdExtensionAttach p e callback = some (u', error)) :
    u'.Accounted S P := by
  unfold Domains.pdExtensionAttach at hstep
  split_ifs at hstep with hbase hnone
  · cases hstep
    exact h
  · cases hstep
    exact h
  rw [not_not] at hbase hnone
  obtain ⟨premapped, hpremapped, hstep⟩ := bind_eq_some_iff.1 hstep
  split at hstep
  · rename_i hinsert
    cases hstep
    have hgrows : Grows (fun s _ _ => s = .extension e) u u' := by
      refine grows_foldlM (fun v v' n hn hv hmap => ?_) hpremapped
      exact grows_premapContainer (by rwa [hv]) hmap fun m _ => rfl
    refine hgrows.accounted h ?_
    rintro s m perms hs rfl
    exact absurd (hfits hs hbase hnone) (by simp [hinsert])
  · rename_i nodes hinsert
    cases hstep
    have hattaches : AttachesPd p ⟨.extension e, fullyAccessible⟩ u { u with
        pdContainers := update u.pdContainers p nodes
        extension := update u.extension p (some e) } := by
      refine ⟨⟨nodes, hinsert, rfl⟩, rfl, rfl, rfl, rfl, fun p' z => by simp, fun p' e' => ?_, ?_⟩
      · by_cases hp : p' = p
        · subst hp
          simp [hnone]
        · simp [hp]
      · rintro e' ⟨⟩
        exact ⟨hnone, hbase, rfl⟩
    -- The pages are mapped before the extension is attached, but this makes no difference.
    have hgrows : Grows (Reaches { u with
        pdContainers := update u.pdContainers p nodes
        extension := update u.extension p (some e) }) u premapped := by
      refine grows_foldlM (fun v v' n hn hv hmap => ?_) hpremapped
      refine grows_premapContainer (by rwa [hv]) hmap fun m hholds => ?_
      rw [hv] at hholds
      exact .extended (p := p) (update_self ..)
        (.base ((hattaches.mem_iff h.shape p n).2 (.inl hn)) hholds)
    rw [hgrows.frame]
    exact Grows.accounted_of_reaches ⟨rfl, hgrows.mapped⟩ (hattaches.inv h) hP

end

/-! ## Page faults -/

/-- The memory section in which a page fault is handled is reached. -/
lemma Shape.reaches_accessed (h : u.Shape) {vaddr : ℕ} (hmem : node ∈ u.pdContainers p)
    (haccess : u.accessedMemsec vaddr node.payload = some m) :
    u.Reaches (.pd p) m node.attachPerms ∨ node.payload.isExtension ∧
      ∃ e, u.extension p = some e ∧ u.Reaches (.extension e) m node.attachPerms := by
  obtain ⟨payload, perms⟩ := node
  cases payload with
  | memsec m' =>
    cases haccess
    exact .inl (.base hmem (.inl rfl))
  | zone z =>
    obtain ⟨⟨payload, q⟩, hfind, hm⟩ := bind_eq_some_iff.1 haccess
    have hn := mem_of_find?_eq_some hfind
    obtain ⟨m', heq, -⟩ := h.zone z _ hn
    subst heq
    cases hm
    exact .inl (.base hmem (.inr ⟨z, q, rfl, hn⟩))
  | extension e =>
    obtain ⟨⟨payload, q⟩, hfind, hm⟩ := bind_eq_some_iff.1 haccess
    have hn := mem_of_find?_eq_some hfind
    obtain ⟨hq, m', heq, -⟩ := h.extension e _ hn
    have he := h.extension_of_mem hmem
    have hperms := h.full p _ hmem e rfl
    subst heq hq hperms
    cases hm
    exact .inr ⟨rfl, e, he, .own hn⟩

/-- The pages are mapped in the base space, unless they are of the extension, and in the
extension. -/
lemma grows_mapFault {answer : Answer} (hstays : Stays (u.objects.memsec m) answer)
    (limit : SpaceId → Option ℕ) (hreach : u.Reaches (.pd p) m node.attachPerms ∨
      node.payload.isExtension ∧ ∃ e, u.extension p = some e ∧ u.Reaches (.extension e) m
      node.attachPerms) : Grows u.Reaches u (u.mapFault p node m answer limit).1 := by
  unfold mapFault
  dsimp only
  obtain ⟨based, hbased⟩ : ∃ based, based = if node.payload.isExtension then (u, none)
    else u.kspaceMap (.pd p) m answer ((u.objects.memsec m).perms &&& node.attachPerms)
      (limit (.pd p)) := ⟨_, rfl⟩
  have hfirst : Grows u.Reaches u based.1 := by
    rw [hbased]
    split_ifs with hextension
    · exact .refl _ u
    · rcases hreach with hpd | ⟨hextension', -⟩
      · exact grows_kspaceMap hstays _ hpd
      · exact absurd hextension' hextension
  rw [← hbased]
  split
  · rename_i e _ he
    have hown : u.Reaches (.extension e) m node.attachPerms := by
      rcases hreach with hpd | ⟨-, e', he', hown⟩
      · exact .extended he hpd
      · rw [he] at he'
        cases he'
        exact hown
    rw [← hfirst.objects] at hstays ⊢
    exact hfirst.trans (grows_kspaceMap hstays _ hown)
  · exact hfirst

lemma Accounted.pdHandlePagefault (h : u.Accounted S P) (hP : Masks P) {space : SpaceId} {vaddr : ℕ}
    {access : Except Errno Answer} {limit : SpaceId → Option ℕ} (hstays : ∀ n m answer,
      getContainerFromVaddr u.objects (u.pdContainers p) vaddr = some n → u.accessedMemsec vaddr
      n.payload = some m → access = .ok answer → Stays (u.objects.memsec m) answer)
    (hstep : u.pdHandlePagefault p space vaddr access limit = some (u', error)) :
    u'.Accounted S P := by
  unfold Domains.pdHandlePagefault at hstep
  split at hstep
  · cases hstep
    exact h
  rename_i n hn
  split at hstep
  · cases hstep
    exact h
  · cases hstep
    exact h
  rename_i m answer hm
  split_ifs at hstep with hfault hsize
  · cases hstep
    exact h
  have hanswer := hstays n m answer hn hm rfl
  obtain rfl : (u.mapFault p n m answer limit).1 = u' := congrArg Prod.fst (Option.some.inj hstep)
  exact (grows_mapFault hanswer limit
    (h.shape.reaches_accessed (mem_of_find?_eq_some hn) hm)).accounted_of_reaches h hP

/-! ## Detaching -/

variable {Q Q' : SpaceId → MemsecId → Prop}

/-- Pages were unmapped, and in the spaces `S` what was reached is reached still, or is not mapped any
more. -/
structure Detaches (S : SpaceId → Prop) (u u' : Domains) : Prop where
  shape : u'.Shape
  objects : u'.objects = u.objects
  less : ∀ s a mapping, u'.space s a = some mapping → u.space s a = some mapping
  drops : ∀ s m perms, S s → u.Reaches s m perms → u'.Reaches s m perms ∨
    ∀ a, (u.objects.memsec m).range.Has a → u'.space s a = none

lemma Accounted.of_detaches (h : u.Accounted S P) (hd : Detaches S u u') : u'.Accounted S P := by
  refine ⟨hd.shape, fun s hs a mapping hmapping => ?_⟩
  obtain ⟨m, mask, hold, hhas, hmask⟩ := h.reached s hs a mapping (hd.less s a mapping hmapping)
  rcases hd.drops s m mask hs hold with hnew | hnone
  · refine ⟨m, mask, hnew, ?_⟩
    rw [hd.objects]
    exact ⟨hhas, hmask⟩
  · rw [hnone a hhas] at hmapping
    cases hmapping

/-- Containers are removed first, which leads to the state `v`, and then pages are unmapped. -/
lemma Shrinks.detaches {v : Domains} (hshrinks : Shrinks Q v u') (hshape : v.Shape)
    (hobjects : v.objects = u.objects) (hspace : v.space = u.space)
    (hreach : ∀ s m perms, S s → u.Reaches s m perms → v.Reaches s m perms ∨ Q s m ∨
      ∀ a, (u.objects.memsec m).range.Has a → u.space s a = none) : Detaches S u u' := by
  have hless : ∀ s a mapping, u'.space s a = some mapping → u.space s a = some mapping := by
    intro s a mapping hmapping
    rw [← hspace]
    exact (hshrinks.unmapped s a mapping hmapping).1
  refine ⟨hshape.of_frame hshrinks.frame, ?_, hless, fun s m perms hs hold => ?_⟩
  · rw [hshrinks.frame, ← hobjects]
  rcases hreach s m perms hs hold with hnew | hunmapped | hnone
  · exact .inl (hnew.of_frame hshrinks.frame)
  · refine .inr fun a ha => eq_none_iff_forall_ne_some.2 fun mapping hmapping => ?_
    have hnot := (hshrinks.unmapped s a mapping hmapping).2 m hunmapped
    rw [hobjects] at hnot
    exact hnot ha
  · refine .inr fun a ha => eq_none_iff_forall_ne_some.2 fun mapping hmapping => ?_
    have hold := hless s a mapping hmapping
    rw [hnone a ha] at hold
    cases hold

lemma ite_map_eq_some {α β : Type*} {q : Prop} [Decidable q] {o : Option α} {g : α → β} {b : β} :
    (if q then o.map g else none) = some b ↔ q ∧ ∃ a, o = some a ∧ g a = b := by
  rw [ite_none_right_eq_some, map_eq_some_iff]

lemma listRemove_spec {nodes' : List Node} (hremove : listRemove nodes container = some nodes') :
    nodes'.Sublist nodes ∧ ∃ perms, nodes.Perm (⟨container, perms⟩ :: nodes') := by
  obtain ⟨hany, ⟨⟩⟩ := ite_none_right_eq_some.1 hremove
  obtain ⟨n, hn, hpayload⟩ := any_eq_true.1 hany
  obtain ⟨⟨payload, perms⟩, l, l', -, hpayload', heq, herase⟩ := exists_of_eraseP
    (p := fun n => n.payload = container) hn hpayload
  obtain rfl : payload = container := by simpa using hpayload'
  refine ⟨eraseP_sublist, perms, ?_⟩
  rw [herase, heq]
  exact perm_middle

/-- What is left of an owner's containers when one is removed. -/
lemma sublist_of_remove [DecidableEq ι] {i : ι}
    (hremove : listRemove (f i) container = some nodes) (j : ι) :
    (update f i nodes j).Sublist (f j) :=
  forall_update (P := fun j l => l.Sublist (f j)) (fun _ => .refl _) (listRemove_spec hremove).1 j

lemma mem_update_of_remove [DecidableEq ι] {i : ι}
    (hremove : listRemove (f i) container = some nodes) {j : ι} (hn : n ∈ f j) :
    n ∈ update f i nodes j ∨ j = i ∧ n.payload = container := by
  obtain ⟨-, perms, hperm⟩ := listRemove_spec hremove
  by_cases hj : j = i
  · subst hj
    rw [update_self]
    rcases mem_cons.1 (hperm.mem_iff.1 hn) with rfl | hn'
    · exact .inr ⟨rfl, rfl⟩
    · exact .inl hn'
  · rw [update_of_ne hj]
    exact .inl hn

/-- A container is detached from a protection domain, and the pages are as they were. -/
structure DetachesPd (p : PdId) (container : Container) (u u' : Domains) : Prop where
  nodes : ∃ nodes, listRemove (u.pdContainers p) container = some nodes ∧
    u'.pdContainers = update u.pdContainers p nodes
  objects : u'.objects = u.objects
  space : u'.space = u.space
  zones : u'.zoneContainers = u.zoneContainers
  extensions : u'.extensionContainers = u.extensionContainers
  parents : ∀ p' z, (u'.parentPds z).count p' =
    (u.parentPds z).count p' - if p' = p ∧ container = .zone z then 1 else 0
  extension : ∀ p' e, u'.extension p' = some e ↔
    u.extension p' = some e ∧ ¬ (p' = p ∧ container = .extension e)

section

variable (hd : DetachesPd p container u u')
include hd

lemma DetachesPd.sublist (p' : PdId) : (u'.pdContainers p').Sublist (u.pdContainers p') := by
  obtain ⟨nodes, hremove, hpds⟩ := hd.nodes
  rw [hpds]
  exact sublist_of_remove hremove p'

lemma DetachesPd.countP (p' : PdId) (f : Container → Bool) :
    (u'.pdContainers p').countP (fun n => f n.payload) =
      (u.pdContainers p').countP (fun n => f n.payload) - if p' = p ∧ f container then 1 else 0 := by
  obtain ⟨nodes, hremove, hpds⟩ := hd.nodes
  obtain ⟨-, perms, hperm⟩ := listRemove_spec hremove
  rw [hpds]
  by_cases hp : p' = p
  · subst hp
    rw [update_self, hperm.countP_eq, countP_cons]
    simp
  · rw [update_of_ne hp, if_neg (fun hpf => hp hpf.1), Nat.sub_zero]

lemma DetachesPd.shape (h : u.Shape) : u'.Shape := by
  refine ⟨fun p' => ?_, fun z => ?_, fun e => ?_, fun z => ?_, fun e => ?_, fun p' z => ?_,
    fun p' e => ?_, fun p' e he => ?_, fun p' n hn e he => ?_⟩
  · rw [hd.objects]
    exact RangeList.Apart.sublist (h.pds p') (hd.sublist p')
  · rw [hd.objects, hd.zones]
    exact h.zones z
  · rw [hd.objects, hd.extensions]
    exact h.extensions e
  · rw [hd.objects, hd.zones]
    exact h.zone z
  · rw [hd.objects, hd.extensions]
    exact h.extension e
  · rw [hd.parents, h.parents, hd.countP p' fun c => c = .zone z]
    simp
  · rw [hd.countP p' fun c => c = .extension e, h.attached]
    by_cases hold : p' = p ∧ container = .extension e
    · have hnone : u'.extension p' ≠ some e := fun he => ((hd.extension p' e).1 he).2 hold
      split_ifs <;> simp_all
    · simp [hd.extension, hold]
  · rw [hd.objects]
    exact h.based p' e ((hd.extension p' e).1 he).1
  · exact h.full p' n ((hd.sublist p').subset hn) e he

end

/-- A protection domain does not reach what the container held. -/
lemma DetachesPd.reaches {v : Domains} {p' : PdId} (hd : DetachesPd p container u v)
    (hreach : u.Reaches (.pd p') m perms) :
    v.Reaches (.pd p') m perms ∨ p' = p ∧ u.Holds container m ∧ v.Holds container m := by
  cases hreach with
  | base hmem hc =>
    obtain ⟨nodes, hremove, hpds⟩ := hd.nodes
    have hc' : v.Holds _ m := hc.mono fun _ _ hn => hd.zones ▸ hn
    rcases mem_update_of_remove hremove hmem with hmem' | ⟨hp, rfl⟩
    · exact .inl (.base (hpds ▸ hmem') hc')
    · exact .inr ⟨hp, hc, hc'⟩

/-- A memory section or a zone is detached, and its pages are unmapped. -/
lemma DetachesPd.detaches {v : Domains} (hd : DetachesPd p container u v) (h : u.Shape)
    (hcontainer : ∀ e, container ≠ .extension e)
    (hshrinks : Shrinks (fun s m => (s = .pd p ∨ ∃ e, v.extension p = some e ∧ s = .extension e) ∧
      v.Holds container m) v u') : Detaches S u u' := by
  refine hshrinks.detaches (hd.shape h) hd.objects hd.space fun s m perms _ hreach => ?_
  cases hreach with
  | base hmem hc =>
    rcases hd.reaches (.base hmem hc) with hnew | ⟨rfl, -, hc'⟩
    · exact .inl hnew
    · exact .inr (.inl ⟨.inl rfl, hc'⟩)
  | @extended p' e _ _ he hreach =>
    have he' := (hd.extension p' e).2 ⟨he, fun hp => hcontainer e hp.2⟩
    rcases hd.reaches hreach with hnew | ⟨rfl, -, hc'⟩
    · exact .inl (.extended he' hnew)
    · exact .inr (.inl ⟨.inr ⟨e, he', rfl⟩, hc'⟩)
  | own hown => exact .inl (.own (hd.extensions ▸ hown))

lemma detaches_pdMemsecDetach (h : u.Shape) (hstep : u.pdMemsecDetach p m = some u') :
    Detaches S u u' := by
  obtain ⟨-, nodes, hremove, rfl⟩ := ite_map_eq_some.1 hstep
  refine DetachesPd.detaches ?_ h (by exact nofun) (shrinks_detach _ p (.memsec m))
  exact ⟨⟨nodes, hremove, rfl⟩, rfl, rfl, rfl, rfl, fun p' z => by simp, fun p' e => by simp⟩

lemma detaches_pdZoneDetach (h : u.Shape) (hstep : u.pdZoneDetach p z = some u') :
    Detaches S u u' := by
  obtain ⟨hparent, nodes, hremove, rfl⟩ := ite_map_eq_some.1 hstep
  refine DetachesPd.detaches ?_ h (by exact nofun) (shrinks_detach _ p (.zone z))
  refine ⟨⟨nodes, hremove, rfl⟩, rfl, rfl, rfl, rfl, fun p' z' => ?_, fun p' e => by simp⟩
  dsimp only
  by_cases hz : z' = z
  · subst hz
    have hget : (u.parentPds z')[(u.parentPds z').idxOf p]? = some p :=
      List.getElem?_eq_some_iff.2 ⟨idxOf_lt_length_iff.2 hparent, by simp⟩
    have hcount := (SwapRemove.swapRemove_perm p hget).count_eq p'
    rw [count_cons] at hcount
    rw [update_self, hcount]
    simp [eq_comm (a := p')]
  · simp [update_of_ne hz, Ne.symm hz]

lemma detaches_pdExtensionDetach (h : u.Shape) (hstep : u.pdExtensionDetach p e = some u') :
    Detaches S u u' := by
  obtain ⟨hextension, nodes, hremove, rfl⟩ := ite_map_eq_some.1 hstep
  have hdetaches : DetachesPd p (.extension e) u { u with
      pdContainers := update u.pdContainers p nodes
      extension := update u.extension p none } := by
    refine ⟨⟨nodes, hremove, rfl⟩, rfl, rfl, rfl, rfl, fun p' z => by simp, fun p' e' => ?_⟩
    by_cases hp : p' = p
    · subst hp
      simp [hextension]
    · simp [hp]
  have hshrinks := shrinks_foldl (u := { u with
      pdContainers := update u.pdContainers p nodes
      extension := update u.extension p none }) (Q := fun n s m => s = .extension e ∧
        u.Holds n.payload m) nodes fun w n hw => by
    refine (shrinks_unmapContainer w (.extension e) n.payload).mono ?_
    rintro s m ⟨hs, hholds⟩
    rw [hw]
    exact ⟨hs, hholds⟩
  -- Protection domains reach what they reached, since an extension holds nothing for them.
  have hpd {p' m perms} (hreach : u.Reaches (.pd p') m perms) :=
    (hdetaches.reaches hreach).resolve_right fun hc => not_holds_extension hc.2.1
  refine hshrinks.detaches (hdetaches.shape h) rfl rfl fun s m perms _ hreach => ?_
  cases hreach with
  | base hmem hc => exact .inl (hpd (.base hmem hc))
  | @extended p' e' _ _ he hreach =>
    by_cases hp : p' = p ∧ Container.extension e = .extension e'
    · obtain ⟨rfl, ⟨⟩⟩ := hp
      cases hpd hreach with
      | base hmem hc =>
        dsimp only at hmem
        rw [update_self] at hmem
        exact .inr (.inl ⟨_, hmem, rfl, hc⟩)
    · exact .inl (.extended ((hdetaches.extension p' e').2 ⟨he, hp⟩) (hpd hreach))
  | own hown => exact .inl (.own hown)

lemma detaches_extensionMemsecDetach (h : u.Shape) (hstep : u.extensionMemsecDetach e m = some u') :
    Detaches S u u' := by
  obtain ⟨-, nodes, hremove, rfl⟩ := ite_map_eq_some.1 hstep
  have hsublist := sublist_of_remove hremove
  refine (shrinks_unmapSection _ (.extension e) m).detaches { h with
    extensions := fun e' => (h.extensions e').sublist (hsublist e')
    extension := fun e' n hn => h.extension e' n ((hsublist e').subset hn) } rfl rfl fun s m' perms _ hreach => ?_
  cases hreach with
  | base hmem hc => exact .inl (.base hmem hc)
  | extended he hreach =>
    cases hreach with
    | base hmem hc => exact .inl (.extended he (.base hmem hc))
  | own hown =>
    rcases mem_update_of_remove hremove hown with hnew | ⟨rfl, heq⟩
    · exact .inl (.own hnew)
    · cases heq
      exact .inr (.inl ⟨rfl, rfl⟩)

/-- `okl4_zone_memsec_detach`, if no page is mapped in an extension. -/
lemma detaches_zoneMemsecDetach (h : u.Shape) (hclear : ∀ p ∈ u.parentPds z, ∀ e, S (.extension e) →
      u.extension p = some e → ∀ a, (u.objects.memsec m).range.Has a → u.space (.extension e) a =
      none) (hstep : u.zoneMemsecDetach z m = some u') : Detaches S u u' := by
  obtain ⟨-, nodes, hremove, rfl⟩ := ite_map_eq_some.1 hstep
  have hsublist := sublist_of_remove hremove
  obtain ⟨v, hv⟩ : ∃ v, v = { u with
    zoneContainers := update u.zoneContainers z nodes
    owner := update u.owner m none } := ⟨_, rfl⟩
  have hshape : v.Shape := by
    subst hv
    exact { h with
      zones := fun z' => (h.zones z').sublist (hsublist z')
      zone := fun z' n hn => h.zone z' n ((hsublist z').subset hn) }
  have hpd : ∀ p' m' perms, u.Reaches (.pd p') m' perms →
      v.Reaches (.pd p') m' perms ∨ p' ∈ u.parentPds z ∧ m' = m := by
    intro p' m' perms hreach
    subst hv
    cases hreach with
    | base hmem hc =>
      rcases hc with rfl | ⟨z', q, rfl, hz⟩
      · exact .inl (.base hmem (.inl rfl))
      · rcases mem_update_of_remove hremove hz with hz' | ⟨rfl, heq⟩
        · exact .inl (.base hmem (.inr ⟨z', q, rfl, hz'⟩))
        · cases heq
          exact .inr ⟨h.parent_of_attached hmem, rfl⟩
  have hshrinks := shrinks_foldl (u := v) (Q := fun p s m' => s = .pd p ∧ m' = m) (u.parentPds z)
    fun w p _ => shrinks_unmapSection w (.pd p) m
  rw [← hv]
  refine hshrinks.detaches hshape (by rw [hv]) (by rw [hv]) fun s m' perms hs hreach => ?_
  cases hreach with
  | base hmem hc =>
    rcases hpd _ m' perms (.base hmem hc) with hnew | ⟨hp, rfl⟩
    · exact .inl hnew
    · exact .inr (.inl ⟨_, hp, rfl, rfl⟩)
  | @extended p' e _ _ he hreach =>
    rcases hpd p' m' perms hreach with hnew | ⟨hp, rfl⟩
    · exact .inl (.extended (p := p') (hv ▸ he) hnew)
    · exact .inr (.inr (hclear p' hp e hs he))
  | own hown => exact .inl (.own (hv ▸ hown))

/-! ## Runs -/

/-- The callbacks answer pages of the memory section that they are asked about. -/
def AnswersStay (u : Domains) : Op → Prop
  | .pdMemsecAttach _ _ callback | .zoneMemsecAttach _ _ callback
  | .extensionMemsecAttach _ _ callback | .pdZoneAttach _ _ _ callback
  | .pdExtensionAttach _ _ callback => CallbackStays u.objects callback
  | .pdHandlePagefault p _ vaddr access _ => ∀ n m answer,
      getContainerFromVaddr u.objects (u.pdContainers p) vaddr = some n →
      u.accessedMemsec vaddr n.payload = some m → access = .ok answer →
      Stays (u.objects.memsec m) answer
  | .pdMemsecDetach _ _ | .zoneMemsecDetach _ _ | .extensionMemsecDetach _ _ | .pdZoneDetach _ _
  | .pdExtensionDetach _ _ => True

/-- The operation leaves no pages behind in the extensions: a memory section is detached from a zone
only if none of its pages is mapped in an extension, and an extension is attached only if there is
room for it. -/
def SparesExtensions (u : Domains) : Op → Prop
  | .zoneMemsecDetach z m => ∀ p ∈ u.parentPds z, ∀ e, u.extension p = some e →
      ∀ a, (u.objects.memsec m).range.Has a → u.space (.extension e) a = none
  | .pdExtensionAttach p e _ => u.objects.basePd e = p → u.extension p = none →
      (listInsert u.objects (u.pdContainers p) ⟨.extension e, fullyAccessible⟩).isSome
  | _ => True

/-- The invariant is kept, if what is attached to a zone fits the masks and nothing is left behind in
the extensions that are looked at. -/
lemma Accounted.step (h : u.Accounted S P) (hP : Masks P) {op : Op} (hstays : u.AnswersStay op)
    (hspares : (∃ e, S (.extension e)) → u.SparesExtensions op)
    (hmasks : ∀ z m callback, op = .zoneMemsecAttach z m callback → ∀ p ∈ u.parentPds z, ∀ perms,
      ⟨.zone z, perms⟩ ∈ u.pdContainers p →
        P ((u.objects.memsec m).perms &&& fullyAccessible) (u.objects.memsec m).perms perms)
    (hstep : u.step op = some u') : u'.Accounted S P := by
  cases op with
  | pdMemsecAttach p m callback =>
    obtain ⟨⟨v, error⟩, hresult, rfl⟩ := map_eq_some_iff.1 hstep
    exact h.pdMemsecAttach hP hstays hresult
  | pdMemsecDetach p m => exact h.of_detaches (detaches_pdMemsecDetach h.shape hstep)
  | zoneMemsecAttach z m callback =>
    obtain ⟨⟨v, error⟩, hresult, rfl⟩ := map_eq_some_iff.1 hstep
    exact h.zoneMemsecAttach hstays (hmasks z m callback rfl) hresult
  | zoneMemsecDetach z m =>
    exact h.of_detaches
      (detaches_zoneMemsecDetach h.shape (fun p hp e he => hspares ⟨e, he⟩ p hp e) hstep)
  | extensionMemsecAttach e m callback =>
    obtain ⟨⟨v, error⟩, hresult, rfl⟩ := map_eq_some_iff.1 hstep
    exact h.extensionMemsecAttach hP hstays hresult
  | extensionMemsecDetach e m => exact h.of_detaches (detaches_extensionMemsecDetach h.shape hstep)
  | pdZoneAttach p z perms callback =>
    obtain ⟨⟨v, error⟩, hresult, rfl⟩ := map_eq_some_iff.1 hstep
    exact h.pdZoneAttach hP hstays hresult
  | pdZoneDetach p z => exact h.of_detaches (detaches_pdZoneDetach h.shape hstep)
  | pdExtensionAttach p e callback =>
    obtain ⟨⟨v, error⟩, hresult, rfl⟩ := map_eq_some_iff.1 hstep
    exact h.pdExtensionAttach hP hstays (fun he => hspares ⟨e, he⟩) hresult
  | pdExtensionDetach p e => exact h.of_detaches (detaches_pdExtensionDetach h.shape hstep)
  | pdHandlePagefault p space vaddr access limit =>
    obtain ⟨⟨v, error⟩, hresult, rfl⟩ := map_eq_some_iff.1 hstep
    exact h.pdHandlePagefault hP hstays hresult

lemma accounted_start (objects : Objects) : (start objects).Accounted S P := by
  refine ⟨⟨fun p => .nil, fun z => .nil, fun e => .nil, nofun, nofun, fun p z => rfl,
    fun p e => rfl, nofun, nofun⟩, nofun⟩

end Domains

end Okl4Kernel.Pd
