import Okl4Kernel.ReachedSections

/-!
# Permissions of shared memory

A page of a memory section that a protection domain gets through a zone should be mapped with no more
permissions than those of the memory section and those that the zone is attached with (`Confined`).

It is enough that every page that is mapped in a space belongs to something that the space reaches,
with permissions that fit (`Inv`). Attaching a memory section to a zone does not look at the masks,
detaching it forgets the extensions, and an extension that cannot be attached keeps what was mapped
in it. Operations that avoid these cases are `Careful`, and they keep the invariant.
-/

namespace Okl4Kernel.Pd

open TransitionSystem Option

/-- One set of permissions includes the other. -/
def Included (p q : Perms) : Prop := p &&& q = p

instance (p q : Perms) : Decidable (Included p q) := inferInstanceAs (Decidable (p &&& q = p))

lemma included_and (p q : Perms) : Included (p &&& q) p ∧ Included (p &&& q) q := by
  unfold Included
  constructor
  · rw [BitVec.and_comm p q, BitVec.and_assoc, BitVec.and_self]
  · rw [BitVec.and_assoc, BitVec.and_self]

namespace Domains

variable {u u' : Domains}

/-! ## Confinement -/

/-- A page of the space `s` may be mapped with the permissions `perms`. -/
def Allowed (u : Domains) (s : SpaceId) (a : ℕ) (perms : Perms) : Prop :=
  ∃ m mask, u.Reaches s m mask ∧ (u.objects.memsec m).range.Has a ∧
    Included perms (u.objects.memsec m).perms ∧ Included perms mask

/-- The invariant: what is mapped may be mapped. -/
structure Inv (u : Domains) : Prop where
  shape : u.Shape
  allowed : ∀ s a mapping, u.space s a = some mapping → u.Allowed s a mapping.perms

/-- Pages of memory sections that are reached through a zone are mapped with no more permissions than
those of the memory section and those that the zone is attached with. -/
def Confined (u : Domains) : Prop :=
  ∀ p z perms m q a, ⟨.zone z, perms⟩ ∈ u.pdContainers p →
    ⟨.memsec m, q⟩ ∈ u.zoneContainers z → (u.objects.memsec m).range.Has a →
    ∀ s, (s = .pd p ∨ ∃ e, u.extension p = some e ∧ s = .extension e) →
    ∀ mapping, u.space s a = some mapping →
      Included mapping.perms (u.objects.memsec m).perms ∧ Included mapping.perms perms

/-- What an operation must keep to. The callbacks answer pages of the memory section that they are
asked about. A memory section is attached to a zone only if every protection domain has attached the
zone with all of its permissions, and detached only if none of its pages is mapped in an extension.
An extension is attached only if there is room for it. -/
def Careful (u : Domains) : Op → Prop
  | .pdMemsecAttach _ _ callback => CallbackStays u.objects callback
  | .zoneMemsecAttach z m callback => CallbackStays u.objects callback ∧
      ∀ p ∈ u.parentPds z, ∀ perms, ⟨.zone z, perms⟩ ∈ u.pdContainers p →
        Included ((u.objects.memsec m).perms &&& fullyAccessible) perms
  | .zoneMemsecDetach z m => ∀ p ∈ u.parentPds z, ∀ e, u.extension p = some e →
      ∀ a, (u.objects.memsec m).range.Has a → u.space (.extension e) a = none
  | .extensionMemsecAttach _ _ callback => CallbackStays u.objects callback
  | .pdZoneAttach _ _ _ callback => CallbackStays u.objects callback
  | .pdExtensionAttach p e callback => CallbackStays u.objects callback ∧
      (u.objects.basePd e = p → u.extension p = none →
        (listInsert u.objects (u.pdContainers p) ⟨.extension e, fullyAccessible⟩).isSome)
  | .pdHandlePagefault p _ vaddr access _ => ∀ n m answer,
      getContainerFromVaddr u.objects (u.pdContainers p) vaddr = some n →
      u.accessedMemsec vaddr n.payload = some m → access = .ok answer →
      Stays (u.objects.memsec m) answer
  | .pdMemsecDetach _ _ | .extensionMemsecDetach _ _ | .pdZoneDetach _ _ | .pdExtensionDetach _ _ =>
      True

/-- The permissions of a page fit those of the memory section and the mask. -/
def Fits (perms sectionPerms mask : Perms) : Prop :=
  Included perms sectionPerms ∧ Included perms mask

lemma masks_fits : Masks Fits := fun perms mask => included_and perms mask

/-- The invariant is that what is mapped in any space is accounted for, with permissions that fit. -/
lemma inv_iff_accounted : u.Inv ↔ u.Accounted (fun _ => True) Fits :=
  ⟨fun h => ⟨h.shape, fun s _ => h.allowed s⟩, fun h => ⟨h.shape, fun s => h.reached s trivial⟩⟩

/-- Careful operations have callbacks that stay in their memory sections. -/
lemma Careful.answersStay {op : Op} (h : u.Careful op) : u.AnswersStay op := by
  cases op with
  | zoneMemsecAttach z m callback => exact h.1
  | pdExtensionAttach p e callback => exact h.1
  | pdMemsecAttach | extensionMemsecAttach | pdZoneAttach | pdHandlePagefault => exact h
  | pdMemsecDetach | zoneMemsecDetach | extensionMemsecDetach | pdZoneDetach
  | pdExtensionDetach => trivial

lemma Careful.sparesExtensions {op : Op} (h : u.Careful op) : u.SparesExtensions op := by
  cases op with
  | zoneMemsecDetach z m => exact h
  | pdExtensionAttach p e callback => exact h.2
  | pdMemsecAttach | pdMemsecDetach | zoneMemsecAttach | extensionMemsecAttach
  | extensionMemsecDetach | pdZoneAttach | pdZoneDetach | pdExtensionDetach
  | pdHandlePagefault => trivial

lemma Inv.step (h : u.Inv) {op : Op} (hcareful : u.Careful op) (hstep : u.step op = some u') :
    u'.Inv := by
  rw [inv_iff_accounted] at h ⊢
  refine h.step masks_fits hcareful.answersStay (fun _ => hcareful.sparesExtensions) ?_ hstep
  rintro z m callback rfl p hp perms hmem
  exact ⟨(included_and _ _).1, hcareful.2 p hp perms hmem⟩

lemma inv_start (objects : Objects) : (start objects).Inv :=
  inv_iff_accounted.2 (accounted_start objects)

/-- Memory sections and zones of one page, or a little more, that can be shared by two protection
domains. -/
def sharedPage (perms : Perms) : Objects where
  memsec _ := ⟨⟨0x1000, 0x1000, page_bounded⟩, 0x1000, perms, 0, page_pos, page_dvd, page_dvd⟩
  zoneRange _ := ⟨0x1000, 0x2000, by decide⟩
  maxPds _ := 2
  extensionRange _ := ⟨0x8000, 0x1000, by decide⟩
  basePd e := e

end Domains

end Okl4Kernel.Pd
