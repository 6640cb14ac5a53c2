import Okl4Kernel.ProtectionDomain

/-!
# Attachments that fail

An attachment that fails should change nothing. Two of the four kinds do not keep to that. If a
zone overlaps with what is attached to a protection domain already, the list entry that was taken
from the zone for it is not given back, and once all entries are lost the zone cannot be attached any
more. And the space of an extension is filled before it is known whether there is room for the
extension.
-/

namespace Okl4Kernel.Pd

namespace Domains

open TransitionSystem Function Option List

/-- An attachment, with its arguments and the answers of the callbacks. -/
inductive Attachment
  | pdZone (p : PdId) (z : ZoneId) (perms : Perms) (callback : Callback)
  | zoneMemsec (z : ZoneId) (m : MemsecId) (callback : Callback)
  | pdMemsec (p : PdId) (m : MemsecId) (callback : Callback)
  | pdExtension (p : PdId) (e : ExtensionId) (callback : Callback)

/-- Attach something. -/
def attach (u : Domains) : Attachment → Option (Domains × Option Errno)
  | .pdZone p z perms callback => u.pdZoneAttach p z perms callback
  | .zoneMemsec z m callback => u.zoneMemsecAttach z m callback
  | .pdMemsec p m callback => u.pdMemsecAttach p m callback
  | .pdExtension p e callback => u.pdExtensionAttach p e callback

/-- The state behind an attachment that fails. -/
def failedAttach (u : Domains) (a : Attachment) : Option Domains :=
  (u.attach a).bind fun r => if r.2 = none then none else some r.1

/-! ## The pages that are premapped -/

/-- A page that is to be mapped, by its number among the pages of its size. -/
structure PageRequest where
  pageSize : ℕ
  page : ℕ
  mapping : Mapping

/-- Whether an address is in the page. -/
def PageRequest.has (r : PageRequest) (a : ℕ) : Bool := a / r.pageSize = r.page

/-- Map the page. -/
def PageRequest.map (space : Space) (r : PageRequest) : Space := fun a =>
  if r.has a then some r.mapping else space a

/-- The first `n` pages that an answer of a callback asks for. -/
def answerPages (ms : Memsec) (answer : Answer) (perms : Perms) (n : ℕ) : List PageRequest :=
  (range n).map fun i => ⟨ms.pageSize, (answer.vaddr + i * ms.pageSize) % 2 ^ 32 / ms.pageSize,
    pageMapping ms answer perms i⟩

/-- The pages that the answers for a memory section ask for, from the address `current` on, or `none`
if an answer does not meet the assertions. -/
def askedPages (ms : Memsec) (callback : ℕ → Option Answer) (permMask : Perms) :
    ℕ → ℕ → Option (List PageRequest)
  | 0, _ => none
  | fuel + 1, current =>
    if current < ms.range.stop then
      match callback current with
      | none => askedPages ms callback permMask fuel ((current + ms.pageSize) % 2 ^ 32)
      | some answer =>
        if premapChecks ms current answer then
          (askedPages ms callback permMask fuel ((current + answer.size) % 2 ^ 32)).map
            (answerPages ms answer (ms.perms &&& permMask) (answer.size / ms.pageSize) ++ ·)
        else none
    else some []

section

variable (u : Domains) (callback : Callback) (s : SpaceId) (permMask : Perms)

/-- The pages that the answers for a memory section ask for. -/
def sectionPages (m : MemsecId) : Option (List PageRequest) :=
  let ms := u.objects.memsec m
  askedPages ms (callback s m) permMask (ms.range.size / ms.pageSize + 1) ms.range.base

/-- The pages that the answers for a memory section of a zone ask for. -/
def nodePages (node : Node) : Option (List PageRequest) :=
  match node.payload with
  | .memsec m => u.sectionPages callback s permMask m
  | _ => none

/-- The pages that the answers for a container ask for. -/
def containerPages : Container → Option (List PageRequest)
  | .memsec m => u.sectionPages callback s permMask m
  | .zone z => ((u.zoneContainers z).mapM (u.nodePages callback s permMask)).map flatten
  | .extension _ => none

end

/-- The pages that the answers ask for when an extension is attached. -/
def extensionPages (u : Domains) (p : PdId) (e : ExtensionId) (callback : Callback) :
    Option (List PageRequest) :=
  ((u.pdContainers p).mapM fun node =>
    u.containerPages callback (.extension e) node.attachPerms node.payload).map flatten

/-- The mapping that is asked for an address: the last page that has the address counts. -/
def askedMapping (pages : List PageRequest) (a : ℕ) : Option Mapping :=
  (pages.filter (·.has a)).getLast?.map (·.mapping)

/-- If the attachment fails, it does so before it has changed anything. An extension that is refused
by the list changes nothing if its space has all mappings already that the answers of the callbacks
ask for. -/
def FailsEarly (u : Domains) : Attachment → Prop
  | .pdZone p z perms _ =>
    listInsert u.objects (u.pdContainers p) ⟨.zone z, perms⟩ = none → u.freeNodes z = 0
  | .pdExtension p e callback =>
    listInsert u.objects (u.pdContainers p) ⟨.extension e, fullyAccessible⟩ = none →
      u.objects.basePd e = p → u.extension p = none →
        ∀ pages ∈ u.extensionPages p e callback, ∀ a mapping,
          askedMapping pages a = some mapping → u.space (.extension e) a = some mapping
  | .zoneMemsec .. | .pdMemsec .. => True

variable {u u' : Domains} {p : PdId} {z : ZoneId} {m : MemsecId} {e : ExtensionId} {error : Errno}
  {perms : Perms} {callback : Callback}

/-- Map pages in a space. -/
def mapAll (u : Domains) (s : SpaceId) (pages : List PageRequest) : Domains :=
  { u with space := update u.space s (pages.foldl PageRequest.map (u.space s)) }

lemma mapAll_nil (u : Domains) (s : SpaceId) : u.mapAll s [] = u := by
  rw [mapAll, foldl_nil, update_eq_self]

lemma mapAll_mapAll (u : Domains) (s : SpaceId) (pages pages' : List PageRequest) :
    (u.mapAll s pages).mapAll s pages' = u.mapAll s (pages ++ pages') := by
  simp only [mapAll, update_self, update_idem, foldl_append]

/-- The last page that has an address decides what is mapped there. -/
lemma foldl_map_apply (space : Space) (pages : List PageRequest) (a : ℕ) :
    pages.foldl PageRequest.map space a = (askedMapping pages a).or (space a) := by
  induction pages using reverseRecOn with
  | nil => rfl
  | append_singleton pages r ih =>
    rw [foldl_append, foldl_cons, foldl_nil, PageRequest.map, ih, askedMapping,
      askedMapping, filter_append, filter_singleton]
    cases hr : r.has a <;> simp

lemma mapAll_eq_self_iff {s : SpaceId} {pages : List PageRequest} : u.mapAll s pages = u ↔
    ∀ a mapping, askedMapping pages a = some mapping → u.space s a = some mapping := by
  constructor
  · intro hsame a mapping hasked
    have hspace : (u.mapAll s pages).space s a = u.space s a := by rw [hsame]
    simp only [mapAll, update_self, foldl_map_apply, hasked, some_or] at hspace
    exact hspace.symm
  · intro hsame
    have hspace : pages.foldl PageRequest.map (u.space s) = u.space s := by
      funext a
      rw [foldl_map_apply]
      cases hasked : askedMapping pages a with
      | none => rfl
      | some mapping => exact (hsame a mapping hasked).symm
    rw [mapAll, hspace, update_eq_self]

lemma mapPages_eq (space : Space) (ms : Memsec) (answer : Answer) (perms : Perms) (n : ℕ) :
    mapPages space ms answer perms n = (answerPages ms answer perms n).foldl PageRequest.map space := by
  induction n with
  | zero => rfl
  | succ n ih =>
    rw [answerPages, range_succ, map_append, foldl_append, ← answerPages, ← ih]
    simp [mapPages, PageRequest.map, PageRequest.has, funext_iff]

lemma premapLoop_eq (ms : Memsec) (callback : ℕ → Option Answer) (permMask : Perms)
    (fuel current : ℕ) (space : Space) : premapLoop ms callback permMask fuel current space =
      (askedPages ms callback permMask fuel current).map (·.foldl PageRequest.map space) := by
  induction fuel generalizing current space with
  | zero => rfl
  | succ fuel ih =>
    rw [premapLoop, askedPages]
    split_ifs
    · cases callback current with
      | none => exact ih _ _
      | some answer =>
        dsimp only
        split_ifs
        · rw [ih, mapPages_eq, Option.map_map]
          simp only [Function.comp_def, foldl_append]
        · rfl
    · rfl

/-- What holds of one node of a list holds of the loop over the list. -/
lemma foldlM_mapAll {s : SpaceId} {f : Domains → Node → Option Domains}
    {g : Node → Option (List PageRequest)}
    (hf : ∀ pages node, f (u.mapAll s pages) node = (g node).map ((u.mapAll s pages).mapAll s))
    (nodes : List Node) (pages : List PageRequest) : nodes.foldlM f (u.mapAll s pages) =
      ((nodes.mapM g).map flatten).map ((u.mapAll s pages).mapAll s) := by
  induction nodes generalizing pages with
  | nil => simp [mapAll_nil]
  | cons node nodes ih =>
    rw [foldlM_cons, hf, mapM_cons]
    cases g node with
    | none => rfl
    | some new =>
      simp only [map_some, bind_eq_bind, bind_some, mapAll_mapAll, ih]
      cases nodes.mapM g <;> simp [mapAll_mapAll]

lemma premapSection_eq (u : Domains) (callback : Callback) (s : SpaceId) (permMask : Perms)
    (m : MemsecId) : u.premapSection callback s permMask m =
      (u.sectionPages callback s permMask m).map (u.mapAll s) := by
  rw [premapSection, modifySpace, premapMemsec, premapLoop_eq, Option.map_map]
  rfl

lemma premapContainer_eq (u : Domains) (callback : Callback) (s : SpaceId) (permMask : Perms)
    (container : Container) : u.premapContainer callback s permMask container =
      (u.containerPages callback s permMask container).map (u.mapAll s) := by
  cases container with
  | memsec m => exact premapSection_eq u callback s permMask m
  | zone z =>
    have hnode (pages : List PageRequest) (node : Node) :
        premapNode callback s permMask (u.mapAll s pages) node =
          (u.nodePages callback s permMask node).map ((u.mapAll s pages).mapAll s) := by
      rw [premapNode, nodePages]
      cases node.payload with
      | memsec m => exact premapSection_eq _ callback s permMask m
      | zone _ => rfl
      | extension _ => rfl
    have hloop := foldlM_mapAll hnode (u.zoneContainers z) []
    rw [mapAll_nil] at hloop
    exact hloop
  | extension e => rfl

lemma premapExtensionSpace_eq (u : Domains) (p : PdId) (e : ExtensionId) (callback : Callback) :
    u.premapExtensionSpace p e callback =
      (u.extensionPages p e callback).map (u.mapAll (.extension e)) := by
  have hloop := foldlM_mapAll (u := u) (s := .extension e)
    (f := fun u node => u.premapContainer callback (.extension e) node.attachPerms node.payload)
    (g := fun node => u.containerPages callback (.extension e) node.attachPerms node.payload)
    (fun pages node => premapContainer_eq (u.mapAll _ pages) ..) (u.pdContainers p) []
  rw [mapAll_nil] at hloop
  exact hloop

/-! ## Failures -/

variable {a : Attachment}

lemma failedAttach_eq_some (h : u.failedAttach a = some u') :
    ∃ error, u.attach a = some (u', some error) := by
  obtain ⟨⟨u'', error⟩, hattach, hsome⟩ := bind_eq_some_iff.1 h
  obtain ⟨hne, hsome⟩ := ite_none_left_eq_some.1 hsome
  cases hsome
  obtain ⟨error, rfl⟩ := ne_none_iff_exists'.1 hne
  exact ⟨error, hattach⟩

lemma pdMemsecAttach_error (h : u.pdMemsecAttach p m callback = some (u', some error)) :
    u' = u := by
  obtain ⟨-, h⟩ := ite_none_right_eq_some.1 h
  split at h
  · cases h
    rfl
  · obtain ⟨_, -, h⟩ := bind_eq_some_iff.1 h
    obtain ⟨_, -, h⟩ := bind_eq_some_iff.1 h
    cases h

lemma zoneMemsecAttach_error (h : u.zoneMemsecAttach z m callback = some (u', some error)) :
    u' = u := by
  obtain ⟨-, h⟩ := ite_none_right_eq_some.1 h
  split_ifs at h
  · split at h
    · cases h
      rfl
    · obtain ⟨_, -, h⟩ := bind_eq_some_iff.1 h
      cases h
  · cases h
    rfl

/-- A failed `okl4_pd_zone_attach` has lost a list entry, if there was one. -/
lemma pdZoneAttach_error (h : u.pdZoneAttach p z perms callback = some (u', some error)) :
    u.freeNodes z = 0 ∧ u' = u ∨
      listInsert u.objects (u.pdContainers p) ⟨.zone z, perms⟩ = none ∧
        u' = { u with freeNodes := update u.freeNodes z (u.freeNodes z - 1) } := by
  by_cases hfree : u.freeNodes z = 0
  · rw [pdZoneAttach, if_pos hfree] at h
    cases h
    exact .inl ⟨hfree, rfl⟩
  · rw [pdZoneAttach, if_neg hfree] at h
    dsimp only at h
    split at h
    · rename_i hinsert
      cases h
      exact .inr ⟨hinsert, rfl⟩
    · obtain ⟨-, h⟩ := ite_none_right_eq_some.1 h
      obtain ⟨_, -, h⟩ := bind_eq_some_iff.1 h
      obtain ⟨_, -, h⟩ := bind_eq_some_iff.1 h
      cases h

/-- A failed `okl4_pd_extension_attach` has filled the space of the extension, if the extension was
suitable. -/
lemma pdExtensionAttach_error (h : u.pdExtensionAttach p e callback = some (u', some error)) :
    (u.objects.basePd e ≠ p ∨ u.extension p ≠ none) ∧ u' = u ∨
      listInsert u.objects (u.pdContainers p) ⟨.extension e, fullyAccessible⟩ = none ∧
        u.objects.basePd e = p ∧ u.extension p = none ∧
        ∃ pages, u.extensionPages p e callback = some pages ∧ u.mapAll (.extension e) pages = u' := by
  unfold pdExtensionAttach at h
  split_ifs at h with hbase hextension
  · cases h
    exact .inl ⟨.inl hbase, rfl⟩
  · cases h
    exact .inl ⟨.inr hextension, rfl⟩
  obtain ⟨premapped, hpremap, h⟩ := bind_eq_some_iff.1 h
  rw [premapExtensionSpace_eq, map_eq_some_iff] at hpremap
  split at h
  · rename_i hinsert
    cases h
    exact .inr ⟨hinsert, not_not.1 hbase, not_not.1 hextension, hpremap⟩
  · cases h

/-- A failed attachment changes nothing exactly if it fails early. -/
lemma failedAttach_eq_self_iff (h : u.failedAttach a = some u') : u' = u ↔ u.FailsEarly a := by
  obtain ⟨error, h⟩ := failedAttach_eq_some h
  cases a with
  | pdZone p z perms callback =>
    rcases pdZoneAttach_error h with ⟨hfree, rfl⟩ | ⟨hinsert, rfl⟩
    · exact iff_of_true rfl fun _ => hfree
    constructor
    · intro hsame _
      have hnodes : update u.freeNodes z (u.freeNodes z - 1) z = u.freeNodes z :=
        congrFun (congrArg freeNodes hsame) z
      rw [update_self] at hnodes
      omega
    · intro hearly
      have hzero : u.freeNodes z - 1 = u.freeNodes z := by rw [hearly hinsert]
      rw [update_eq_self_iff.2 hzero]
  | zoneMemsec z m callback => exact iff_of_true (zoneMemsecAttach_error h) trivial
  | pdMemsec p m callback => exact iff_of_true (pdMemsecAttach_error h) trivial
  | pdExtension p e callback =>
    rcases pdExtensionAttach_error h with
      ⟨hrefused, rfl⟩ | ⟨hinsert, hbase, hextension, pages, hpages, rfl⟩
    · exact iff_of_true rfl fun _ hbase hextension =>
        absurd hrefused (not_or.2 ⟨not_not.2 hbase, not_not.2 hextension⟩)
    · rw [mapAll_eq_self_iff]
      constructor
      · intro hsame _ _ _ pages' hpages'
        rw [mem_def, hpages] at hpages'
        cases hpages'
        exact hsame
      · exact fun hearly => hearly hinsert hbase hextension pages hpages

lemma failsEarly_of_eq_none (h : u.failedAttach a = none) : u.FailsEarly a := by
  cases a with
  | pdZone p z perms callback =>
    intro hinsert
    by_contra hfree
    simp [failedAttach, attach, pdZoneAttach, hfree, hinsert] at h
  | zoneMemsec z m callback => trivial
  | pdMemsec p m callback => trivial
  | pdExtension p e callback =>
    intro hinsert hbase hextension pages hpages
    simp [failedAttach, attach, pdExtensionAttach, hbase, hextension, hinsert,
      premapExtensionSpace_eq, mem_def.1 hpages] at h

/-- Any number of failed attachments leave everything as it was exactly if each of them fails
early. -/
theorem failedAttach_run_eq_self_iff (u : Domains) (as : List Attachment) :
    (∀ n u', run failedAttach u (as.take n) = some u' → u' = u) ↔
      RunMeets failedAttach FailsEarly u as := by
  refine runMeets_iff (I := (· = u)) (P := (· = u)) (fun _ h => h)
    (fun _ _ => failsEarly_of_eq_none) ?_ ?_ rfl as
  · rintro _ a u' rfl hstep hearly
    exact (failedAttach_eq_self_iff hstep).2 hearly
  · rintro _ a u' rfl hstep hsame
    exact (failedAttach_eq_self_iff hstep).1 hsame

/-- A memory section and a zone for one protection domain have the same addresses. -/
def sameAddresses : Objects where
  memsec _ := ⟨⟨0, 4096, by decide⟩, 4096, 0, 0, page_pos, by decide, page_dvd⟩
  zoneRange _ := ⟨0, 4096, by decide⟩
  maxPds _ := 1
  extensionRange _ := ⟨0, 4096, by decide⟩
  basePd _ := 0

/-- The memory section is attached to the first protection domain. Then the zone can be attached to
the second one, but no more so when it was refused for the first one. -/
theorem failedAttach_loses_node :
    ∃ u, run step (start sameAddresses) [.pdMemsecAttach 0 0 fun _ _ _ => none] = some u ∧
      (u.attach (.pdZone 1 0 fullyAccessible fun _ _ _ => none)).map Prod.snd = some none ∧
      ((u.failedAttach (.pdZone 0 0 fullyAccessible fun _ _ _ => none)).bind
        (·.attach (.pdZone 1 0 fullyAccessible fun _ _ _ => none))).map Prod.snd =
          some (some .allocExhausted) :=
  ⟨_, rfl, by decide, by decide⟩

end Domains

end Okl4Kernel.Pd
