import Okl4Kernel.PermissionConfinement

/-!
# Detaching unmaps

When a memory section is detached from its owner, or a zone from a protection domain, no page of it
should stay mapped in the spaces of a protection domain that does not reach it any more
(`Unmaps`).

The operations unmap the range of what they detach in the spaces that have reached it
(`Detaches.drops`). An extension also lends its own memory sections to the protection domain without
mapping them there; a page at such an address would belong to something that the protection domain
reaches itself, which has no address in common with the extension (`Shape.not_own`). A memory
section that is detached from a zone is the exception: its pages are unmapped in the protection
domains of the zone, and stay mapped in their extensions.
-/

namespace Okl4Kernel.Pd

open TransitionSystem Function Option

namespace Domains

variable {u u' : Domains} {p : PdId} {s s' : SpaceId} {m m' : MemsecId} {perms perms' : Perms}

/-- Whether the operation detaches a memory section, or a zone from a protection domain. -/
def Op.detaches : Op → Bool
  | .pdMemsecDetach _ _ | .zoneMemsecDetach _ _ | .extensionMemsecDetach _ _ | .pdZoneDetach _ _ =>
    true
  | _ => false

/-- Containers were removed, and the extensions are as they were. -/
structure Removes (u u' : Domains) : Prop where
  objects : u'.objects = u.objects
  extension : u'.extension = u.extension
  pds : ∀ p, ∀ n ∈ u'.pdContainers p, n ∈ u.pdContainers p
  zones : ∀ z, ∀ n ∈ u'.zoneContainers z, n ∈ u.zoneContainers z
  extensions : ∀ e, ∀ n ∈ u'.extensionContainers e, n ∈ u.extensionContainers e

lemma Removes.reaches (h : Removes u u') (hreach : u'.Reaches s m perms) : u.Reaches s m perms :=
  hreach.mono h.pds h.zones h.extensions fun _ _ he => h.extension ▸ he

lemma Removes.of_frame {v : Domains} (h : Removes u v) (hframe : u' = { v with space := u'.space }) :
    Removes u u' := by
  rw [hframe]
  exact { h with }

end Domains

end Okl4Kernel.Pd
