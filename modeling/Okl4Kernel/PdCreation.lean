import Mathlib.Data.Finset.Basic
import Okl4Kernel.BitmapAllocator

/-!
# Creating and deleting protection domains

`okl4_pd_create` builds a protection domain on a kspace of the user, on a kclist of the user, or from
pools alone. What it takes out of the pools it has to give back when a later stage fails, and
`okl4_pd_delete` has to give back what a protection domain was built from.

Both files have a function `destruct_kclist`. The one of `pd_delete.c` leaves a kclist of the user
alone. The one of `pd_create.c` asserts that there is a pool of kclist identifiers, and there is none
if the kclist is the user's: so `okl4_pd_create` does not come back with an error then.

Which identifier or range a pool hands out, and whether the kernel refuses a call, are inputs. An
operation is undefined if an assertion fails. Of a pool there is only what is allocated: the
`pos_guess` of a bitmap allocator is left out, as `okl4_bitmap_allocator_free` does not restore it.
-/

namespace Okl4Kernel.PdCreation

open Finset BitmapAllocator

/-- An item of virtual memory: its base and its size. -/
abbrev VirtItem := ℕ × ℕ

/-- What is allocated in the three pools, and the kspaces on the kclist of the user. -/
structure World where
  kclistIds : Finset ℕ
  kspaceIds : Finset ℕ
  virtmem : Finset VirtItem
  userKspaces : List ℕ

/-- These identifiers are allocated in a pool. -/
def Allocates (a : Allocator) (ids : Finset ℕ) : Prop :=
  ∀ id, id ∈ ids ↔ a.InRange id ∧ a.isallocated id = true

namespace Allocates

variable {a a' : Allocator} {ids : Finset ℕ} {id : ℕ}

/-- An identifier that a pool hands out is not allocated before. -/
theorem alloc (h : Allocates a ids) (hinv : a.Inv) {request : Option ℕ}
    (halloc : a.alloc request = some (a', .ok id)) : id ∉ ids ∧ Allocates a' (insert id ids) := by
  rcases hinv.alloc_cases request with ⟨e, herror⟩ | ⟨id', i, -, hrange, hclear, -, hok⟩
  · cases herror.symm.trans halloc
  cases hok.symm.trans halloc
  refine ⟨fun hin => by simp [((h id).1 hin).2] at hclear, fun v => ?_⟩
  have hv : a.base ≤ v → (v - a.base = id - a.base ↔ v = id) := fun hle => tsub_left_inj hle hrange.1
  rw [mem_insert, h v]
  simp only [Allocator.isallocated, WordBitmap.bit_set _ (Nat.succ_pos 31)]
  unfold Allocator.InRange at *
  grind

/-- An identifier that is freed is not allocated any more. -/
theorem free (h : Allocates a ids) (hfree : a.free id = some a') : Allocates a' (ids.erase id) := by
  obtain ⟨hrange, hsome⟩ := Option.ite_none_right_eq_some.1 hfree
  cases hsome
  intro v
  have hv : a.base ≤ v → (v - a.base = id - a.base ↔ v = id) := fun hle => tsub_left_inj hle hrange.1
  rw [mem_erase, h v]
  simp only [Allocator.isallocated, WordBitmap.bit_clear _ (Nat.succ_pos 31)]
  unfold Allocator.InRange
  grind

end Allocates

/-- What the attributes provide. -/
inductive Source
  | kspace
  | kclist
  | pools
  deriving DecidableEq

/-- What the pools hand out, and whether the kernel accepts the calls. -/
structure Outcome where
  kclistId : Option ℕ
  createClist : Bool
  virtItem : Option VirtItem
  kspaceId : Option ℕ
  spaceControl : Bool

/-- The pools hand out what is not allocated. -/
structure Outcome.Fresh (o : Outcome) (w : World) : Prop where
  kclistId : ∀ id ∈ o.kclistId, id ∉ w.kclistIds
  virtItem : ∀ item ∈ o.virtItem, item ∉ w.virtmem
  kspaceId : ∀ id ∈ o.kspaceId, id ∉ w.kspaceIds

/-- A protection domain: on a kspace of the user, or made from pools. It has no identifier of a
kclist if the kclist is the user's. -/
inductive Pd
  | given
  | made (kclistId : Option ℕ) (virtItem : VirtItem) (kspaceId : ℕ)

namespace World

variable (w : World)

/-- `okl4_kclistid_free`. -/
def kclistidFree (id : ℕ) : World := { w with kclistIds := w.kclistIds.erase id }

/-- `okl4_kspaceid_free`. -/
def kspaceidFree (id : ℕ) : World := { w with kspaceIds := w.kspaceIds.erase id }

/-- `destruct_utcb_area`. -/
def destructUtcbArea (item : VirtItem) : World :=
  { w with virtmem := w.virtmem.erase item }

variable (source : Source)

/-- `construct_kclist`: fails, or leaves the identifier of the new kclist, if one was made. -/
def constructKclist (o : Outcome) : World × Option (Option ℕ) :=
  if source = .kclist then (w, some none)
  else
    match o.kclistId with
    | none => (w, none)
    | some id =>
      let allocated := { w with kclistIds := insert id w.kclistIds }
      if o.createClist then (allocated, some (some id)) else (allocated.kclistidFree id, none)

variable (kclistId : Option ℕ)

/-- `destruct_kclist` of `pd_create.c`. -/
def destructKclist : Option World := kclistId.map w.kclistidFree

variable (o : Outcome)

/-- `construct_utcb_area`. -/
def constructUtcbArea : World × Option VirtItem :=
  match o.virtItem with
  | none => (w, none)
  | some item => ({ w with virtmem := insert item w.virtmem }, some item)

/-- `construct_kspace`. A new kspace is put on the list of its kclist. -/
def constructKspace : World × Option ℕ :=
  match o.kspaceId with
  | none => (w, none)
  | some id =>
    let allocated := { w with kspaceIds := insert id w.kspaceIds }
    if o.spaceControl then
      ({ allocated with
        userKspaces := if kclistId = none then id :: w.userKspaces else w.userKspaces }, some id)
    else (allocated.kspaceidFree id, none)

/-- `construct_pd_from_pools`. -/
def constructPdFromPools : Option (World × Option Pd) :=
  match w.constructKclist source o with
  | (w₁, none) => some (w₁, none)
  | (w₁, some kclistId) =>
    match w₁.constructUtcbArea o with
    | (w₂, none) => (w₂.destructKclist kclistId).map (·, none)
    | (w₂, some item) =>
      match w₂.constructKspace kclistId o with
      | (w₃, none) => (w₃.destructKclist kclistId).map fun w => (w.destructUtcbArea item, none)
      | (w₃, some kspaceId) => some (w₃, some (.made kclistId item kspaceId))

/-- `okl4_pd_create`. -/
def pdCreate : Option (World × Option Pd) :=
  if source = .kspace then some (w, some .given) else w.constructPdFromPools source o

/-- `destruct_kspace`. The kspace has to be on the list of its kclist, and that of a new kclist has
nothing else. -/
def destructKspace (id : ℕ) : Option World :=
  if kclistId = none then
    if id ∈ w.userKspaces then
      some ({ w with userKspaces := w.userKspaces.erase id }.kspaceidFree id)
    else none
  else some (w.kspaceidFree id)

/-- `okl4_pd_delete`, for a protection domain with no threads and with nothing attached to it. -/
def pdDelete : Pd → Option World
  | .given => some w
  | .made kclistId item kspaceId => (w.destructKspace kclistId kspaceId).map fun w =>
    match kclistId with
    | none => w.destructUtcbArea item
    | some id => (w.destructUtcbArea item).kclistidFree id

/-- The protection domain is created or nothing has changed, and deleting it restores everything. -/
def AllOrNothing : Prop :=
  ∃ w' result, w.pdCreate source o = some (w', result) ∧ (result = none → w' = w) ∧
    ∀ pd ∈ result, w'.pdDelete pd = some w

/-- A stage behind the first one fails. -/
def FailsLate : Prop := o.virtItem = none ∨ o.kspaceId = none ∨ o.spaceControl = false

variable {w : World} {o : Outcome}

/-- The stages behind the kclist, if it is the user's. -/
lemma allOrNothing_kclist_iff (hfresh : o.Fresh w) : w.AllOrNothing .kclist o ↔ ¬ FailsLate o := by
  unfold AllOrNothing FailsLate pdCreate constructPdFromPools constructKclist constructUtcbArea
    constructKspace destructKclist
  rcases hitem : o.virtItem with _ | item
  · simp
  rcases hid : o.kspaceId with _ | id
  · simp
  rcases hspace : o.spaceControl with _ | _
  · simp
  have hitem' := hfresh.virtItem item hitem
  have hid' := hfresh.kspaceId id hid
  simp [pdDelete, destructKspace, kspaceidFree, destructUtcbArea, erase_insert hitem',
    erase_insert hid']

/-- A protection domain from pools. -/
lemma allOrNothing_pools (hfresh : o.Fresh w) : w.AllOrNothing .pools o := by
  unfold AllOrNothing pdCreate constructPdFromPools constructKclist constructUtcbArea
    constructKspace destructKclist
  rcases hkclist : o.kclistId with _ | kclistId
  · simp
  have hkclist' := hfresh.kclistId kclistId hkclist
  rcases hclist : o.createClist with _ | _
  · simp [kclistidFree, erase_insert hkclist']
  rcases hitem : o.virtItem with _ | item
  · simp [kclistidFree, erase_insert hkclist']
  have hitem' := hfresh.virtItem item hitem
  rcases hid : o.kspaceId with _ | id
  · simp [kclistidFree, destructUtcbArea, erase_insert hkclist', erase_insert hitem']
  have hid' := hfresh.kspaceId id hid
  rcases hspace : o.spaceControl with _ | _
  · simp [kclistidFree, kspaceidFree, destructUtcbArea, erase_insert hkclist',
      erase_insert hitem', erase_insert hid']
  · simp [pdDelete, destructKspace, kclistidFree, kspaceidFree, destructUtcbArea,
      erase_insert hkclist', erase_insert hitem', erase_insert hid']

/-- A protection domain is created or nothing has changed, and deleting it restores everything,
exactly if no later stage fails with a kclist of the user. -/
theorem allOrNothing_iff (w : World) (source : Source) (o : Outcome) (hfresh : o.Fresh w) :
    w.AllOrNothing source o ↔ ¬ (source = .kclist ∧ FailsLate o) := by
  cases source with
  | kspace => simp [AllOrNothing, pdCreate, pdDelete]
  | kclist => simpa using allOrNothing_kclist_iff hfresh
  | pools => simpa using allOrNothing_pools hfresh

/-- Nothing is allocated, and all calls succeed. -/
theorem allOrNothing_iff_pools :
    AllOrNothing ⟨∅, ∅, ∅, []⟩ .pools ⟨some 1, true, some (4096, 8192), some 1, true⟩ :=
  (allOrNothing_iff ⟨∅, ∅, ∅, []⟩ .pools ⟨some 1, true, some (4096, 8192), some 1, true⟩
    ⟨by simp, by simp, by simp⟩).2 (by simp)

/-- With a kclist of the user and no virtual memory, an assertion fails. -/
theorem pdCreate_eq_none_kclist :
    pdCreate ⟨∅, ∅, ∅, []⟩ .kclist ⟨none, true, none, some 1, true⟩ = none := rfl

end World

end Okl4Kernel.PdCreation
