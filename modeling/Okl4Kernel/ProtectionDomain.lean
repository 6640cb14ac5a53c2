import Mathlib.Algebra.Group.Nat.Defs
import Okl4Kernel.Lib.RangeList
import Okl4Kernel.Lib.SwapRemove
import Okl4Kernel.Lib.TransitionSystem

/-!
# Protection domains

The library `libs/okl4` builds address spaces out of containers of virtual memory. A memory section
(memsec) is a range of addresses with permissions and with callbacks that tell what memory its pages
are mapped to. It is attached to a protection domain, to a zone, or to an extension of a protection
domain. A zone is attached to protection domains, to each with permissions of its own. The
extension of a protection domain has a space of its own, in which everything that is attached to the
protection domain is mapped as well.

Pages are mapped when a container is attached (premapped), and when a page fault is handled. This is
the library as it is built without shared domains. What the callbacks of the memory sections answer
is an input of the operations here, and so is whether the kernel refuses to map a page.

An address space is a function of the address. An operation is undefined if an assertion fails.
-/

namespace Okl4Kernel

open Function

namespace Pd

/-- The number of a protection domain. -/
abbrev PdId := ℕ

/-- The number of a zone. -/
abbrev ZoneId := ℕ

/-- The number of a memory section. -/
abbrev MemsecId := ℕ

/-- The number of an extension. -/
abbrev ExtensionId := ℕ

/-- Permissions, one bit for each kind of access. -/
abbrev Perms := BitVec 32

/-- `L4_FullyAccessible`. -/
def fullyAccessible : Perms := 7

/-- A range of virtual addresses. User addresses are below those of the kernel, so the end of a
range is an address, too. -/
structure VirtRange where
  base : ℕ
  size : ℕ
  bounded : base + size < 2 ^ 32

/-- The end of a range. -/
def VirtRange.stop (r : VirtRange) : ℕ := r.base + r.size

/-- Whether an address is in a range. -/
def VirtRange.Has (r : VirtRange) (a : ℕ) : Prop := r.base ≤ a ∧ a < r.stop

instance (r : VirtRange) (a : ℕ) : Decidable (r.Has a) :=
  inferInstanceAs (Decidable (r.base ≤ a ∧ a < r.stop))

/-- `_okl4_is_contained_in`. -/
def VirtRange.isContainedIn (small large : VirtRange) : Bool :=
  large.base ≤ small.base ∧ small.stop ≤ large.stop

/-- A memory section: its address range, and how its pages are mapped. -/
structure Memsec where
  range : VirtRange
  pageSize : ℕ
  perms : Perms
  attributes : ℕ
  pageSize_pos : 0 < pageSize
  base_aligned : pageSize ∣ range.base
  size_aligned : pageSize ∣ range.size

lemma page_bounded : 0x1000 + 0x1000 < 2 ^ 32 := by decide

lemma page_pos : 0 < 0x1000 := by decide

lemma page_dvd : 0x1000 ∣ 0x1000 := Nat.dvd_refl _

/-- A container of virtual memory. -/
inductive Container
  | memsec (m : MemsecId)
  | zone (z : ZoneId)
  | extension (e : ExtensionId)
  deriving DecidableEq

/-- Whether a container is an extension. -/
def Container.isExtension : Container → Bool
  | .extension _ => true
  | _ => false

/-- An entry of a list of containers. -/
structure Node where
  payload : Container
  attachPerms : Perms
  deriving DecidableEq

/-- The object that a memory section is attached to. -/
inductive Owner
  | pd (p : PdId)
  | zone (z : ZoneId)
  | extension (e : ExtensionId)
  deriving DecidableEq

/-- An address space: that of a protection domain, or that of an extension. -/
inductive SpaceId
  | pd (p : PdId)
  | extension (e : ExtensionId)
  deriving DecidableEq

/-- What a page is mapped to. -/
structure Mapping where
  segment : ℕ
  offset : ℕ
  attributes : ℕ
  perms : Perms
  deriving DecidableEq

/-- The mapping of each address. -/
abbrev Space := ℕ → Option Mapping

/-- What a callback of a memory section answers: a range of addresses, and the memory that it is to
be mapped to. -/
structure Answer where
  vaddr : ℕ
  segment : ℕ
  base : ℕ
  size : ℕ

/-- What the premap callbacks answer for the pages of the memory sections, in each space in which
they are to be premapped. -/
abbrev Callback := SpaceId → MemsecId → ℕ → Option Answer

/-- The errors of the library. -/
inductive Errno
  | invalidArgument
  | inUse
  | allocExhausted
  | unmapped
  /-- An error of the kernel or of a callback. -/
  | other (code : ℕ)
  deriving DecidableEq

/-- The objects, with the attributes that they were created with. -/
structure Objects where
  memsec : MemsecId → Memsec
  zoneRange : ZoneId → VirtRange
  maxPds : ZoneId → ℕ
  extensionRange : ExtensionId → VirtRange
  basePd : ExtensionId → PdId

/-- The address range of a container. -/
def Objects.range (o : Objects) : Container → VirtRange
  | .memsec m => (o.memsec m).range
  | .zone z => o.zoneRange z
  | .extension e => o.extensionRange e

/-- The state of the library. `freeNodes` are the list entries that a zone has left for protection
domains to be attached to. -/
structure Domains where
  objects : Objects
  owner : MemsecId → Option Owner
  pdContainers : PdId → List Node
  zoneContainers : ZoneId → List Node
  extensionContainers : ExtensionId → List Node
  parentPds : ZoneId → List PdId
  freeNodes : ZoneId → ℕ
  extension : PdId → Option ExtensionId
  space : SpaceId → Space

/-! ## Spaces -/

/-- The mapping of a page of the memory section `ms`. -/
def pageMapping (ms : Memsec) (answer : Answer) (perms : Perms) (i : ℕ) : Mapping where
  segment := answer.segment
  offset := answer.base + i * ms.pageSize
  attributes := ms.attributes
  perms := perms

/-- The loop of `_okl4_kspace_mapbyid`, up to the page `n`. -/
def mapPages (space : Space) (ms : Memsec) (answer : Answer) (perms : Perms) : ℕ → Space
  | 0 => space
  | n + 1 => fun a =>
    if a / ms.pageSize = (answer.vaddr + n * ms.pageSize) % 2 ^ 32 / ms.pageSize then
      some (pageMapping ms answer perms n)
    else mapPages space ms answer perms n a

/-- The loop of `_okl4_kspace_unmapbyid` for the range of a memory section, up to the page `n`. -/
def unmapPages (space : Space) (ms : Memsec) : ℕ → Space
  | 0 => space
  | n + 1 => fun a =>
    if a / ms.pageSize = (ms.range.base + n * ms.pageSize) / ms.pageSize then none
    else unmapPages space ms n a

/-- `_okl4_kspace_unmap_memsec`. -/
def unmapMemsec (space : Space) (ms : Memsec) : Space :=
  unmapPages space ms (ms.range.size / ms.pageSize)

/-- The assertions about an answer of a premap callback. -/
def premapChecks (ms : Memsec) (current : ℕ) (answer : Answer) : Bool :=
  answer.vaddr % ms.pageSize = 0 ∧ answer.vaddr ≤ current ∧
    current < (answer.vaddr + answer.size) % 2 ^ 32 ∧ answer.vaddr = current ∧
    answer.size % ms.pageSize = 0

/-- The loop of `_okl4_kspace_premap_memsec`. -/
def premapLoop (ms : Memsec) (callback : ℕ → Option Answer) (permMask : Perms) :
    ℕ → ℕ → Space → Option Space
  | 0, _, _ => none
  | fuel + 1, current, space =>
    if current < ms.range.stop then
      match callback current with
      | none => premapLoop ms callback permMask fuel ((current + ms.pageSize) % 2 ^ 32) space
      | some answer =>
        if premapChecks ms current answer then
          premapLoop ms callback permMask fuel ((current + answer.size) % 2 ^ 32)
            (mapPages space ms answer (ms.perms &&& permMask) (answer.size / ms.pageSize))
        else none
    else some space

/-- `_okl4_kspace_premap_memsec`. The loop goes on by one page at least. -/
def premapMemsec (ms : Memsec) (callback : ℕ → Option Answer) (permMask : Perms) (space : Space) :
    Option Space :=
  premapLoop ms callback permMask (ms.range.size / ms.pageSize + 1) ms.range.base space

/-! ## Lists of containers -/

/-- `_okl4_mem_container_list_insert`. -/
def listInsert (o : Objects) (nodes : List Node) (node : Node) : Option (List Node) :=
  RangeList.insert (fun n => (o.range n.payload).base) (fun n => (o.range n.payload).stop) node none
    nodes

/-- `_okl4_mem_container_list_remove`. -/
def listRemove (nodes : List Node) (container : Container) : Option (List Node) :=
  if nodes.any (fun n => n.payload = container) then
    some (nodes.eraseP fun n => n.payload = container)
  else none

/-- `_okl4_get_container_from_vaddr`. The last address of a range is left out. -/
def getContainerFromVaddr (o : Objects) (nodes : List Node) (vaddr : ℕ) : Option Node :=
  nodes.find? fun n => (o.range n.payload).base ≤ vaddr ∧
    vaddr < ((o.range n.payload).stop + 2 ^ 32 - 1) % 2 ^ 32

namespace Domains

variable (u : Domains)

/-- Change a space by a function that may fail. -/
def modifySpace (s : SpaceId) (f : Space → Option Space) : Option Domains :=
  (f (u.space s)).map fun space => { u with space := update u.space s space }

variable (callback : Callback) (s : SpaceId) (permMask : Perms)

/-- `_okl4_kspace_premap_memsec`, for the space `s`. -/
def premapSection (m : MemsecId) : Option Domains :=
  u.modifySpace s (premapMemsec (u.objects.memsec m) (callback s m) permMask)

/-- The body of the loops over the memory sections of a zone. -/
def premapNode (u : Domains) (node : Node) : Option Domains :=
  match node.payload with
  | .memsec m => u.premapSection callback s permMask m
  | _ => none

/-- `_okl4_kspace_premap_zone`. -/
def premapZone (z : ZoneId) : Option Domains :=
  (u.zoneContainers z).foldlM (premapNode callback s permMask) u

/-- `_okl4_extension_premap_mem_container`. -/
def premapContainer : Container → Option Domains
  | .memsec m => u.premapSection callback s permMask m
  | .zone z => u.premapZone callback s permMask z
  | .extension _ => none

/-- The extension that is attached to a protection domain gets what is premapped as well. -/
def premapExtension (p : PdId) (permMask : Perms) (container : Container) : Option Domains :=
  match u.extension p with
  | none => some u
  | some e => u.premapContainer callback (.extension e) permMask container

/-- `_okl4_kspace_unmap_memsec`, for the space `s`. -/
def unmapSection (m : MemsecId) : Domains :=
  { u with space := update u.space s (unmapMemsec (u.space s) (u.objects.memsec m)) }

/-- `_okl4_kspace_unmap_zone`, and `_okl4_kspace_unmap_memsec` for one memory section. -/
def unmapContainer : Container → Domains
  | .memsec m => u.unmapSection s m
  | .zone z => (u.zoneContainers z).foldl (fun u node =>
        match node.payload with
        | .memsec m => u.unmapSection s m
        | _ => u) u
  | .extension _ => u

variable (p : PdId)

/-- The extension that is attached to a protection domain loses what is unmapped as well. -/
def unmapExtension (container : Container) : Domains :=
  match u.extension p with
  | none => u
  | some e => u.unmapContainer (.extension e) container

/-! ## Operations -/

/-- `okl4_pd_memsec_attach`. -/
def pdMemsecAttach (m : MemsecId) (callback : Callback) : Option (Domains × Option Errno) :=
  if u.owner m = none then
    match listInsert u.objects (u.pdContainers p) ⟨.memsec m, fullyAccessible⟩ with
    | none => some (u, some .allocExhausted)
    | some nodes => do
      let attached := { u with
        pdContainers := update u.pdContainers p nodes
        owner := update u.owner m (some (.pd p)) }
      let premapped ← attached.premapSection callback (.pd p) fullyAccessible m
      let extended ← premapped.premapExtension callback p fullyAccessible (.memsec m)
      some (extended, none)
  else none

/-- `okl4_pd_memsec_detach`. -/
def pdMemsecDetach (m : MemsecId) : Option Domains :=
  if u.owner m = some (.pd p) then
    (listRemove (u.pdContainers p) (.memsec m)).map fun nodes =>
      ({ u with
        pdContainers := update u.pdContainers p nodes
        owner := update u.owner m none }.unmapSection (.pd p) m).unmapExtension p (.memsec m)
  else none

/-- `okl4_zone_memsec_attach`. A memory section has one list entry, so it is attached to nothing
else. The protection domains get the pages of the memory section whatever the permissions are that
they have attached the zone with. -/
def zoneMemsecAttach (z : ZoneId) (m : MemsecId) (callback : Callback) :
    Option (Domains × Option Errno) :=
  if u.owner m = none then
    if (u.objects.memsec m).range.isContainedIn (u.objects.zoneRange z) then
      match listInsert u.objects (u.zoneContainers z) ⟨.memsec m, fullyAccessible⟩ with
      | none => some (u, some .allocExhausted)
      | some nodes => do
        let attached := { u with
          zoneContainers := update u.zoneContainers z nodes
          owner := update u.owner m (some (.zone z)) }
        let premapped ← (u.parentPds z).foldlM
          (fun u p => u.premapSection callback (.pd p) fullyAccessible m) attached
        some (premapped, none)
    else some (u, some .allocExhausted)
  else none

/-- `okl4_zone_memsec_detach`. The pages stay mapped in the extensions. -/
def zoneMemsecDetach (z : ZoneId) (m : MemsecId) : Option Domains :=
  if u.owner m = some (.zone z) then
    (listRemove (u.zoneContainers z) (.memsec m)).map fun nodes =>
      (u.parentPds z).foldl (fun u p => u.unmapSection (.pd p) m) { u with
        zoneContainers := update u.zoneContainers z nodes
        owner := update u.owner m none }
  else none

variable (e : ExtensionId)

/-- `okl4_extension_memsec_attach`. -/
def extensionMemsecAttach (m : MemsecId) (callback : Callback) : Option (Domains × Option Errno) :=
  if u.owner m = none then
    if (u.objects.memsec m).range.isContainedIn (u.objects.extensionRange e) then
      match listInsert u.objects (u.extensionContainers e) ⟨.memsec m, fullyAccessible⟩ with
      | none => some (u, some .allocExhausted)
      | some nodes => do
        let attached := { u with
          extensionContainers := update u.extensionContainers e nodes
          owner := update u.owner m (some (.extension e)) }
        let premapped ← attached.premapSection callback (.extension e) fullyAccessible m
        some (premapped, none)
    else some (u, some .invalidArgument)
  else none

/-- `okl4_extension_memsec_detach`. -/
def extensionMemsecDetach (m : MemsecId) : Option Domains :=
  if u.owner m = some (.extension e) then
    (listRemove (u.extensionContainers e) (.memsec m)).map fun nodes =>
      { u with
        extensionContainers := update u.extensionContainers e nodes
        owner := update u.owner m none }.unmapSection (.extension e) m
  else none

/-- `okl4_pd_zone_attach`. The list entry is lost if the zone cannot be inserted. -/
def pdZoneAttach (z : ZoneId) (perms : Perms) (callback : Callback) :
    Option (Domains × Option Errno) :=
  if u.freeNodes z = 0 then some (u, some .allocExhausted)
  else
    let allocated := { u with freeNodes := update u.freeNodes z (u.freeNodes z - 1) }
    match listInsert u.objects (u.pdContainers p) ⟨.zone z, perms⟩ with
    | none => some (allocated, some .allocExhausted)
    | some nodes =>
      if (u.parentPds z).length < u.objects.maxPds z then do
        let attached := { allocated with
          pdContainers := update u.pdContainers p nodes
          parentPds := update u.parentPds z (u.parentPds z ++ [p]) }
        let premapped ← attached.premapZone callback (.pd p) perms z
        let extended ← premapped.premapExtension callback p perms (.zone z)
        some (extended, none)
      else none

/-- `okl4_pd_zone_detach`. -/
def pdZoneDetach (z : ZoneId) : Option Domains :=
  if p ∈ u.parentPds z then
    (listRemove (u.pdContainers p) (.zone z)).map fun nodes =>
      ({ u with
        pdContainers := update u.pdContainers p nodes
        freeNodes := update u.freeNodes z (u.freeNodes z + 1)
        parentPds := update u.parentPds z
          (SwapRemove.swapRemove (u.parentPds z) ((u.parentPds z).idxOf p) p) }.unmapContainer
            (.pd p) (.zone z)).unmapExtension p (.zone z)
  else none

/-- `premap_extension_space`. -/
def premapExtensionSpace (callback : Callback) : Option Domains :=
  (u.pdContainers p).foldlM
    (fun u node => u.premapContainer callback (.extension e) node.attachPerms node.payload) u

/-- `okl4_pd_extension_attach`. -/
def pdExtensionAttach (callback : Callback) : Option (Domains × Option Errno) :=
  if u.objects.basePd e ≠ p then some (u, some .invalidArgument)
  else if u.extension p ≠ none then some (u, some .inUse)
  else do
    let premapped ← u.premapExtensionSpace p e callback
    match listInsert u.objects (u.pdContainers p) ⟨.extension e, fullyAccessible⟩ with
    | none => some (premapped, some .allocExhausted)
    | some nodes =>
      some ({ premapped with
        pdContainers := update u.pdContainers p nodes
        extension := update u.extension p (some e) }, none)

/-- `okl4_pd_extension_detach`. -/
def pdExtensionDetach : Option Domains :=
  if u.extension p = some e then
    (listRemove (u.pdContainers p) (.extension e)).map fun nodes =>
      nodes.foldl (fun u node => u.unmapContainer (.extension e) node.payload) { u with
        pdContainers := update u.pdContainers p nodes
        extension := update u.extension p none }
  else none

/-- The memory section that `okl4_memsec_access`, `_okl4_zone_access` or `_okl4_extension_access`
asks about an address. -/
def accessedMemsec (vaddr : ℕ) : Container → Option MemsecId
  | .memsec m => some m
  | .zone z => (getContainerFromVaddr u.objects (u.zoneContainers z) vaddr).bind fun node =>
    match node.payload with
    | .memsec m => some m
    | _ => none
  | .extension e =>
    (getContainerFromVaddr u.objects (u.extensionContainers e) vaddr).bind fun node =>
      match node.payload with
      | .memsec m => some m
      | _ => none

/-- `okl4_kspace_map`. The kernel may refuse to go on after the page `limit`. -/
def kspaceMap (s : SpaceId) (m : MemsecId) (answer : Answer) (perms : Perms)
    (limit : Option ℕ) : Domains × Option Errno :=
  let ms := u.objects.memsec m
  let total := answer.size / ms.pageSize
  let mapped := fun n =>
    { u with space := update u.space s (mapPages (u.space s) ms answer perms n) }
  match limit with
  | none => (mapped total, none)
  | some n => if n < total then (mapped n, some (.other 0)) else (mapped total, none)

/-- Whether a fault occurred in the space of the extension. -/
def isExtensionSpaceFault (space : SpaceId) : Bool :=
  match u.extension p with
  | none => false
  | some e => space = .extension e

/-- The second half of `okl4_pd_handle_pagefault`: the pages are mapped. -/
def mapFault (node : Node) (m : MemsecId) (answer : Answer)
    (limit : SpaceId → Option ℕ) : Domains × Option Errno :=
  let perms := (u.objects.memsec m).perms &&& node.attachPerms
  let based :=
    if node.payload.isExtension then (u, none)
    else u.kspaceMap (.pd p) m answer perms (limit (.pd p))
  match based.2, u.extension p with
  | none, some e => based.1.kspaceMap (.extension e) m answer perms (limit (.extension e))
  | error, _ => (based.1, error)

/-- `okl4_pd_handle_pagefault`, where `access` is what the callback of the memory section answers. -/
def pdHandlePagefault (space : SpaceId) (vaddr : ℕ)
    (access : Except Errno Answer) (limit : SpaceId → Option ℕ) :
    Option (Domains × Option Errno) :=
  match getContainerFromVaddr u.objects (u.pdContainers p) vaddr with
  | none => some (u, some .unmapped)
  | some node =>
    match u.accessedMemsec vaddr node.payload, access with
    | none, _ => some (u, some .unmapped)
    | some _, .error error => some (u, some error)
    | some m, .ok answer =>
      if ¬ u.isExtensionSpaceFault p space ∧ node.payload.isExtension then
        some (u, some .unmapped)
      else if answer.size % (u.objects.memsec m).pageSize = 0 then
        some (u.mapFault p node m answer limit)
      else none

/-! ## Runs -/

/-- An operation of the library, with its arguments and the answers of the callbacks. -/
inductive Op
  | pdMemsecAttach (p : PdId) (m : MemsecId) (callback : Callback)
  | pdMemsecDetach (p : PdId) (m : MemsecId)
  | zoneMemsecAttach (z : ZoneId) (m : MemsecId) (callback : Callback)
  | zoneMemsecDetach (z : ZoneId) (m : MemsecId)
  | extensionMemsecAttach (e : ExtensionId) (m : MemsecId) (callback : Callback)
  | extensionMemsecDetach (e : ExtensionId) (m : MemsecId)
  | pdZoneAttach (p : PdId) (z : ZoneId) (perms : Perms) (callback : Callback)
  | pdZoneDetach (p : PdId) (z : ZoneId)
  | pdExtensionAttach (p : PdId) (e : ExtensionId) (callback : Callback)
  | pdExtensionDetach (p : PdId) (e : ExtensionId)
  | pdHandlePagefault (p : PdId) (space : SpaceId) (vaddr : ℕ) (access : Except Errno Answer)
      (limit : SpaceId → Option ℕ)

/-- One operation. -/
def step : Op → Option Domains
  | .pdMemsecAttach p m callback => (u.pdMemsecAttach p m callback).map Prod.fst
  | .pdMemsecDetach p m => u.pdMemsecDetach p m
  | .zoneMemsecAttach z m callback => (u.zoneMemsecAttach z m callback).map Prod.fst
  | .zoneMemsecDetach z m => u.zoneMemsecDetach z m
  | .extensionMemsecAttach e m callback => (u.extensionMemsecAttach e m callback).map Prod.fst
  | .extensionMemsecDetach e m => u.extensionMemsecDetach e m
  | .pdZoneAttach p z perms callback => (u.pdZoneAttach p z perms callback).map Prod.fst
  | .pdZoneDetach p z => u.pdZoneDetach p z
  | .pdExtensionAttach p e callback => (u.pdExtensionAttach p e callback).map Prod.fst
  | .pdExtensionDetach p e => u.pdExtensionDetach p e
  | .pdHandlePagefault p space vaddr access limit =>
    (u.pdHandlePagefault p space vaddr access limit).map Prod.fst

/-- Nothing is attached to anything, and nothing is mapped. -/
def start (objects : Objects) : Domains where
  objects := objects
  owner _ := none
  pdContainers _ := []
  zoneContainers _ := []
  extensionContainers _ := []
  parentPds _ := []
  freeNodes := objects.maxPds
  extension _ := none
  space _ _ := none

end Domains

end Pd

end Okl4Kernel
