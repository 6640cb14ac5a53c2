import Okl4Kernel.ProtectionDomain

/-!
# What is mapped and unmapped

The loops over the pages of a memory section, over the memory sections of a zone and over the
protection domains of a zone change the spaces only. Those that map pages add pages of the memory
sections that they are for (`Grows`), as long as the callbacks answer such pages. Those that unmap
pages leave no page of the memory sections that they are for (`Shrinks`).
-/

namespace Okl4Kernel

open Function

namespace Pd

variable {ms : Memsec}

/-! ## Pages -/

/-- Between two spaces, some pages of a memory section were mapped with the permissions `perms`. -/
def Maps (ms : Memsec) (perms : Perms) (space space' : Space) : Prop :=
  ∀ a, space' a = space a ∨ ms.range.Has a ∧ ∃ mapping, space' a = some mapping ∧ mapping.perms = perms

lemma Maps.trans {perms : Perms} {space space' space'' : Space} (h : Maps ms perms space space')
    (h' : Maps ms perms space' space'') : Maps ms perms space space'' := by
  intro a
  rcases h' a with hsame | hnew
  · rw [hsame]
    exact h a
  · exact .inr hnew

/-- The pages that a callback answers are pages of the memory section. -/
def Stays (ms : Memsec) (answer : Answer) : Prop :=
  ∀ i < answer.size / ms.pageSize, ms.range.Has ((answer.vaddr + i * ms.pageSize) % 2 ^ 32)

lemma exists_pages (ms : Memsec) : ∃ k n, ms.range.base = ms.pageSize * k ∧
    ms.range.size = ms.pageSize * n ∧
    ∀ a, ms.range.Has a ↔ k ≤ a / ms.pageSize ∧ a / ms.pageSize < k + n := by
  obtain ⟨k, hk⟩ := ms.base_aligned
  obtain ⟨n, hn⟩ := ms.size_aligned
  have hpos := ms.pageSize_pos
  refine ⟨k, n, hk, hn, fun a => ?_⟩
  unfold VirtRange.Has VirtRange.stop
  rw [Nat.le_div_iff_mul_le hpos, Nat.div_lt_iff_lt_mul hpos, hk, hn, Nat.mul_comm k,
    Nat.mul_comm (k + n), Nat.mul_add]

lemma maps_mapPages {answer : Answer} (hstays : Stays ms answer) (perms : Perms) (space : Space)
    {n : ℕ} (hn : n ≤ answer.size / ms.pageSize) :
    Maps ms perms space (mapPages space ms answer perms n) := by
  induction n with
  | zero => exact fun a => .inl rfl
  | succ n ih =>
    intro a
    rw [mapPages]
    dsimp only
    split_ifs with hpage
    · have hhas := hstays n hn
      obtain ⟨k, count, -, -, hpages⟩ := exists_pages ms
      rw [hpages, ← hpage, ← hpages] at hhas
      exact .inr ⟨hhas, _, rfl, rfl⟩
    · exact ih (Nat.le_of_succ_le hn) a

lemma maps_premapLoop {callback : ℕ → Option Answer} {permMask : Perms}
    (hstays : ∀ current answer, callback current = some answer → Stays ms answer) {fuel : ℕ}
    {current : ℕ} {space space' : Space}
    (h : premapLoop ms callback permMask fuel current space = some space') :
    Maps ms (ms.perms &&& permMask) space space' := by
  induction fuel generalizing current space with
  | zero => cases h
  | succ fuel ih =>
    rw [premapLoop] at h
    split_ifs at h with hlt
    · split at h
      · exact ih h
      · rename_i answer hanswer
        split_ifs at h with hchecks
        exact (maps_mapPages (hstays current answer hanswer) _ space (Nat.le_refl _)).trans (ih h)
    · cases h
      exact fun a => .inl rfl

lemma unmapMemsec_eq (space : Space) (ms : Memsec) (a : ℕ) :
    unmapMemsec space ms a = if ms.range.Has a then none else space a := by
  obtain ⟨k, n, hk, hn, hhas⟩ := exists_pages ms
  have hpos := ms.pageSize_pos
  have hpages : ∀ count, unmapPages space ms count a =
      if k ≤ a / ms.pageSize ∧ a / ms.pageSize < k + count then none else space a := by
    intro count
    induction count with
    | zero =>
      rw [if_neg (by omega)]
      rfl
    | succ count ih =>
      have hpage : (ms.range.base + count * ms.pageSize) / ms.pageSize = k + count := by
        rw [hk, Nat.mul_comm count, ← Nat.mul_add, Nat.mul_div_cancel_left _ hpos]
      rw [unmapPages]
      dsimp only
      rw [hpage, ih]
      split_ifs
      all_goals first | rfl | omega
  have hcount : ms.range.size / ms.pageSize = n := by rw [hn, Nat.mul_div_cancel_left _ hpos]
  rw [unmapMemsec, hcount, hpages]
  simp only [hhas]

namespace Domains

variable {u u' u'' : Domains}

/-! ## Premapping -/

/-- Some pages were mapped in the spaces of `u`, each of a memory section `m` in a space `s` with the
mask `perms` such that `R s m perms`. -/
structure Grows (R : SpaceId → MemsecId → Perms → Prop) (u u' : Domains) : Prop where
  frame : u' = { u with space := u'.space }
  mapped : ∀ s a, u'.space s a = u.space s a ∨ ∃ m perms mapping, R s m perms ∧
    (u.objects.memsec m).range.Has a ∧ u'.space s a = some mapping ∧
    mapping.perms = (u.objects.memsec m).perms &&& perms

variable {R : SpaceId → MemsecId → Perms → Prop}

lemma Grows.refl (R : SpaceId → MemsecId → Perms → Prop) (u : Domains) : Grows R u u :=
  ⟨rfl, fun _ _ => .inl rfl⟩

lemma Grows.objects (h : Grows R u u') : u'.objects = u.objects := by rw [h.frame]

lemma Grows.trans (h : Grows R u u') (h' : Grows R u' u'') : Grows R u u'' := by
  refine ⟨?_, fun s a => ?_⟩
  · rw [h'.frame, h.frame]
  · rcases h'.mapped s a with hsame | ⟨m, perms, mapping, hR, hhas, hspace, hperms⟩
    · rw [hsame]
      exact h.mapped s a
    · rw [h.objects] at hhas hperms
      exact .inr ⟨m, perms, mapping, hR, hhas, hspace, hperms⟩

/-- The answers of the callbacks stay in the memory sections. -/
def CallbackStays (objects : Objects) (callback : Callback) : Prop :=
  ∀ s m current answer, callback s m current = some answer → Stays (objects.memsec m) answer

variable {callback : Callback}
variable {m : MemsecId} {perms : Perms} {s : SpaceId}

/-- The pages of one memory section are mapped in one space. -/
lemma grows_of_maps {space : Space}
    (hmaps : Maps (u.objects.memsec m) ((u.objects.memsec m).perms &&& perms) (u.space s) space)
    (hR : R s m perms) : Grows R u { u with space := update u.space s space } := by
  refine ⟨rfl, fun s' a => ?_⟩
  by_cases hs : s' = s
  · subst hs
    simp only [update_self]
    rcases hmaps a with hsame | ⟨hhas, mapping, hspace, hperms⟩
    · exact .inl hsame
    · exact .inr ⟨m, perms, mapping, hR, hhas, hspace, hperms⟩
  · exact .inl (congrFun (update_of_ne hs _ _) a)

lemma grows_premapSection (hstays : CallbackStays u.objects callback)
    (h : u.premapSection callback s perms m = some u') (hR : R s m perms) : Grows R u u' := by
  obtain ⟨space, hspace, rfl⟩ := Option.map_eq_some_iff.1 h
  exact grows_of_maps (maps_premapLoop (hstays s m) hspace) hR

lemma grows_foldlM {ι : Type*} {f : Domains → ι → Option Domains} {l : List ι}
    (hf : ∀ v v' i, i ∈ l → v = { u with space := v.space } → f v i = some v' → Grows R v v')
    (h : l.foldlM f u = some u') : Grows R u u' := by
  -- The induction is on what is left of the list, for all states that differ in the spaces only.
  suffices hall : ∀ v, v = { u with space := v.space } → ∀ l', l' ⊆ l →
      l'.foldlM f v = some u' → Grows R v u' from hall u rfl l (List.Subset.refl l) h
  intro v hv l' hl' hfold
  induction l' generalizing v with
  | nil =>
    cases hfold
    exact .refl R _
  | cons i l' ih =>
    obtain ⟨v', hv', hrest⟩ := Option.bind_eq_some_iff.1 hfold
    have hfirst := hf v v' i (hl' List.mem_cons_self) hv hv'
    refine hfirst.trans (ih v' ?_ (fun j hj => hl' (List.mem_cons_of_mem i hj)) hrest)
    rw [hfirst.frame, hv]

lemma grows_premapZone {z : ZoneId} (hstays : CallbackStays u.objects callback)
    (h : u.premapZone callback s perms z = some u')
    (hR : ∀ m q, ⟨.memsec m, q⟩ ∈ u.zoneContainers z → R s m perms) : Grows R u u' := by
  refine grows_foldlM (fun v v' node hnode hv hstep => ?_) h
  obtain ⟨payload, q⟩ := node
  cases payload with
  | memsec m =>
    refine grows_premapSection (m := m) ?_ hstep (hR m q hnode)
    rw [hv]
    exact hstays
  | zone z => cases hstep
  | extension e => cases hstep

/-- A container that is a memory section, or a zone with a memory section. -/
def Holds (u : Domains) (container : Container) (m : MemsecId) : Prop :=
  container = .memsec m ∨ ∃ z q, container = .zone z ∧ ⟨.memsec m, q⟩ ∈ u.zoneContainers z

lemma grows_premapContainer {container : Container} (hstays : CallbackStays u.objects callback)
    (h : u.premapContainer callback s perms container = some u')
    (hR : ∀ m, u.Holds container m → R s m perms) : Grows R u u' := by
  cases container with
  | memsec m => exact grows_premapSection hstays h (hR m (.inl rfl))
  | zone z => exact grows_premapZone hstays h fun m q hm => hR m (.inr ⟨z, q, rfl, hm⟩)
  | extension e => cases h

lemma grows_premapExtension {p : PdId} {container : Container}
    (hstays : CallbackStays u.objects callback)
    (h : u.premapExtension callback p perms container = some u')
    (hR : ∀ e m, u.extension p = some e → u.Holds container m → R (.extension e) m perms) :
    Grows R u u' := by
  unfold premapExtension at h
  split at h
  · cases h
    exact .refl R _
  · rename_i e he
    exact grows_premapContainer hstays h fun m => hR e m he

lemma grows_kspaceMap {answer : Answer} (hstays : Stays (u.objects.memsec m) answer)
    (limit : Option ℕ) (hR : R s m perms) :
    Grows R u (u.kspaceMap s m answer ((u.objects.memsec m).perms &&& perms) limit).1 := by
  have hgrows : ∀ n ≤ answer.size / (u.objects.memsec m).pageSize, Grows R u { u with
      space := update u.space s (mapPages (u.space s) (u.objects.memsec m) answer
        ((u.objects.memsec m).perms &&& perms) n) } :=
    fun n hn => grows_of_maps (maps_mapPages hstays _ _ hn) hR
  unfold kspaceMap
  dsimp only
  split
  · exact hgrows _ (Nat.le_refl _)
  · split_ifs with hlt
    · exact hgrows _ (Nat.le_of_lt hlt)
    · exact hgrows _ (Nat.le_refl _)

/-! ## Unmapping -/

lemma not_holds_extension {e : ExtensionId} : ¬ u.Holds (.extension e) m := by
  rintro (heq | ⟨z, q, heq, -⟩) <;> cases heq

/-- Pages were unmapped, at least those of the memory sections `m` in the spaces `s` such that
`R s m`. -/
structure Shrinks (R : SpaceId → MemsecId → Prop) (u u' : Domains) : Prop where
  frame : u' = { u with space := u'.space }
  unmapped : ∀ s a mapping, u'.space s a = some mapping →
    u.space s a = some mapping ∧ ∀ m, R s m → ¬ (u.objects.memsec m).range.Has a

variable {Q Q' : SpaceId → MemsecId → Prop}

lemma Shrinks.refl (hQ : ∀ s m, ¬ Q s m) (u : Domains) : Shrinks Q u u :=
  ⟨rfl, fun s _ _ hmapping => ⟨hmapping, fun m hm => absurd hm (hQ s m)⟩⟩

lemma Shrinks.trans (h : Shrinks Q u u') (h' : Shrinks Q' u' u'') :
    Shrinks (fun s m => Q s m ∨ Q' s m) u u'' := by
  refine ⟨?_, fun s a mapping hmapping => ?_⟩
  · rw [h'.frame, h.frame]
  obtain ⟨hmapping', hnot'⟩ := h'.unmapped s a mapping hmapping
  obtain ⟨hmapping'', hnot⟩ := h.unmapped s a mapping hmapping'
  refine ⟨hmapping'', fun m hm => ?_⟩
  rcases hm with hm | hm
  · exact hnot m hm
  · have hobjects : u'.objects = u.objects := by rw [h.frame]
    rw [← hobjects]
    exact hnot' m hm

lemma Shrinks.mono (h : Shrinks Q u u') (hQ : ∀ s m, Q' s m → Q s m) : Shrinks Q' u u' := by
  refine ⟨h.frame, fun s a mapping hmapping => ?_⟩
  obtain ⟨hold, hnot⟩ := h.unmapped s a mapping hmapping
  exact ⟨hold, fun m hm => hnot m (hQ s m hm)⟩

lemma shrinks_foldl {ι : Type*} {f : Domains → ι → Domains} {Q : ι → SpaceId → MemsecId → Prop}
    (l : List ι) (hf : ∀ v i, v = { u with space := v.space } → Shrinks (Q i) v (f v i)) :
    Shrinks (fun s m => ∃ i ∈ l, Q i s m) u (l.foldl f u) := by
  -- The induction is on the list, for all states that differ in the spaces only.
  suffices hall : ∀ v, v = { u with space := v.space } →
      Shrinks (fun s m => ∃ i ∈ l, Q i s m) v (l.foldl f v) from hall u rfl
  intro v hv
  induction l generalizing v with
  | nil => exact .refl (by simp) v
  | cons i l ih =>
    have hfirst := hf v i hv
    have hv' : f v i = { u with space := (f v i).space } := by rw [hfirst.frame, hv]
    refine (hfirst.trans (ih (f v i) hv')).mono ?_
    rintro s m ⟨j, hj, hm⟩
    rcases List.mem_cons.1 hj with rfl | hj
    · exact .inl hm
    · exact .inr ⟨j, hj, hm⟩

lemma shrinks_unmapSection (u : Domains) (s : SpaceId) (m : MemsecId) :
    Shrinks (fun s' m' => s' = s ∧ m' = m) u (u.unmapSection s m) := by
  refine ⟨rfl, fun s' a mapping hmapping => ?_⟩
  unfold unmapSection at hmapping
  dsimp only at hmapping
  by_cases hs : s' = s
  · subst hs
    rw [update_self, unmapMemsec_eq] at hmapping
    split_ifs at hmapping with hhas
    refine ⟨hmapping, ?_⟩
    rintro m' ⟨-, rfl⟩
    exact hhas
  · rw [update_of_ne hs] at hmapping
    exact ⟨hmapping, fun m' hm => absurd hm.1 hs⟩

lemma shrinks_unmapContainer (u : Domains) (s : SpaceId) (container : Container) :
    Shrinks (fun s' m => s' = s ∧ u.Holds container m) u (u.unmapContainer s container) := by
  cases container with
  | memsec m =>
    refine (shrinks_unmapSection u s m).mono ?_
    rintro s' m' ⟨hs, heq | ⟨z, q, heq, -⟩⟩
    · cases heq
      exact ⟨hs, rfl⟩
    · cases heq
  | zone z =>
    rw [unmapContainer]
    refine (shrinks_foldl (Q := fun n s' m => s' = s ∧ n.payload = .memsec m) (u.zoneContainers z)
      ?_).mono ?_
    rotate_left
    · rintro s' m ⟨hs, heq | ⟨z', q, heq, hmem⟩⟩
      · cases heq
      · cases heq
        exact ⟨_, hmem, hs, rfl⟩
    · rintro v ⟨payload, perms⟩ -
      cases payload with
      | memsec m =>
        refine (shrinks_unmapSection v s m).mono ?_
        rintro s' m' ⟨hs, heq⟩
        cases heq
        exact ⟨hs, rfl⟩
      | zone z | extension e =>
        refine .refl ?_ v
        rintro s' m ⟨-, ⟨⟩⟩
  | extension e => exact .refl (fun s' m hm => not_holds_extension hm.2) u

lemma shrinks_unmapExtension (u : Domains) (p : PdId) (container : Container) :
    Shrinks (fun s m => (∃ e, u.extension p = some e ∧ s = .extension e) ∧ u.Holds container m) u
      (u.unmapExtension p container) := by
  unfold unmapExtension
  split
  · rename_i hnone
    refine .refl ?_ u
    rintro s m ⟨⟨e, he, -⟩, -⟩
    rw [hnone] at he
    cases he
  · rename_i e he
    refine (shrinks_unmapContainer u (.extension e) container).mono ?_
    rintro s m ⟨⟨e', he', rfl⟩, hholds⟩
    rw [he] at he'
    cases he'
    exact ⟨rfl, hholds⟩

/-- A container is unmapped in the base space, and in the extension. -/
lemma shrinks_detach (u : Domains) (p : PdId) (container : Container) :
    Shrinks (fun s m => (s = .pd p ∨ ∃ e, u.extension p = some e ∧ s = .extension e) ∧
      u.Holds container m) u
      ((u.unmapContainer (.pd p) container).unmapExtension p container) := by
  have hfirst := shrinks_unmapContainer u (.pd p) container
  have hsecond := shrinks_unmapExtension (u.unmapContainer (.pd p) container) p container
  refine (hfirst.trans hsecond).mono ?_
  rintro s m ⟨hs | hextension, hholds⟩
  · exact .inl ⟨hs, hholds⟩
  · refine .inr ?_
    rw [hfirst.frame]
    exact ⟨hextension, hholds⟩

end Domains

end Pd

end Okl4Kernel
