import Okl4Kernel.ResourceControl

/-!
# Which table entries a space can reach

A space should reach the entries of the tables whose identifiers are in its ranges, and no others.
The range check compares the low 16 bits of the identifier, while the table is indexed by the whole
word, and adding an object does not check the bound of the table. So the check is sound for an
identifier exactly if it is below `2 ^ 16` and below the size of the table whenever it passes the
check (`control_confined_iff`).
-/

namespace Okl4Kernel

variable {reg : Registry} {caller : Space} {id : ℕ}

open Fallible Registry ControlCall Triple

/-- The spaces of the table carry their own identifiers. -/
def Registry.Named (reg : Registry) : Prop :=
  ∀ i p, (reg.table .space).idTable i = some p → (reg.space p).spaceId = i

/-- Since the registry was `reg₀`, only entries of the range that belong to the table have been
accessed, and the others are as they were. -/
structure Confined (kind : ResourceKind) (r : ResourceIds) (b : ℕ) (reg₀ reg : Registry) :
    Prop where
  touched : ∀ i, (kind, i) ∈ reg.touched → r.Contains i ∧ i ≤ b
  maxId : (reg.table kind).maxId = b
  frame : ∀ i, ¬r.Contains i → (reg.table kind).idTable i = (reg₀.table kind).idTable i

/-- An identifier may be used, if it is in the range and in the table whenever it passes the range
check. -/
def Usable (caller : Space) (kind : ResourceKind) (r : ResourceIds) (b : ℕ) (kind' : ResourceKind)
    (id : ℕ) : Prop :=
  (caller.range kind').isValid id = true → kind' = kind → r.Contains id ∧ id ≤ b

namespace ResourceIds

/-- For identifiers of 16 bits the range check is exact. -/
lemma isValid_iff {r : ResourceIds} (hid : id < 2 ^ 16) : r.isValid id = true ↔ r.Contains id := by
  rw [isValid, Nat.mod_eq_of_lt hid, decide_eq_true_iff, Contains]

lemma Contains.lt {r : ResourceIds} (h : r.Contains id) : id < 2 ^ 16 :=
  Nat.lt_trans h.2 r.bound

end ResourceIds

namespace Confined

variable {kind : ResourceKind} {r : ResourceIds} {b : ℕ} {reg₀ : Registry}

section

variable (h : Confined kind r b reg₀ reg)
include h

lemma touch {kind' : ResourceKind} (hid : kind' = kind → r.Contains id ∧ id ≤ b) :
    Confined kind r b reg₀ (reg.touch kind' id) := by
  refine { h with touched := fun i hi => ?_ }
  rcases List.mem_cons.1 hi with heq | hi
  · obtain ⟨rfl, rfl⟩ := Prod.mk.inj heq
    exact hid rfl
  · exact h.touched i hi

lemma write {kind' : ResourceKind} {obj : Option ℕ} (hid : kind' = kind → r.Contains id ∧ id ≤ b) :
    Confined kind r b reg₀ (reg.write kind' id obj) := by
  refine ⟨(h.touch hid).touched, ?_, fun i hi => ?_⟩
  · by_cases hkind : kind = kind'
    · subst hkind
      simpa [Registry.write] using h.maxId
    · simpa [Registry.write, hkind] using h.maxId
  · by_cases hkind : kind = kind'
    · subst hkind
      have hne : i ≠ id := fun e => hi (e ▸ (hid rfl).1)
      simpa [Registry.write, hne] using h.frame i hi
    · simpa [Registry.write, hkind] using h.frame i hi

lemma setSpace (p : ℕ) (s : Space) : Confined kind r b reg₀ (reg.setSpace p s) := { h with }

lemma setClist (p : ℕ) (c : Clist) : Confined kind r b reg₀ (reg.setClist p c) := { h with }

lemma setHolder (f : ℕ → Option ℕ) : Confined kind r b reg₀ { reg with holder := f } := { h with }

end

end Confined

section Calls

variable {kind kind' : ResourceKind} {r : ResourceIds} {b : ℕ} {reg₀ : Registry}

/-- A lookup accesses an entry only if the identifier passes the range check, and returns what the
table holds. -/
lemma lookupResource_triple (hid : Usable caller kind r b kind' id) :
    Triple (fun reg => Confined kind r b reg₀ reg ∧ (kind' = .space → reg.Named))
      (lookupResource caller kind' id) (fun o reg => Confined kind r b reg₀ reg ∧
        ∀ p, o = some p → (caller.range kind').isValid id = true ∧
          (kind' = .space → (reg.space p).spaceId = id)) (Confined kind r b reg₀) := by
  refine triple_ite (fun hvalid => ?_) fun _ => triple_pure _ fun reg h => ⟨h.1, by simp⟩
  refine bind (triple_get (Q := fun a reg => (Confined kind r b reg₀ reg ∧
    (kind' = .space → reg.Named)) ∧ a = reg) fun reg h => ⟨h, rfl⟩) fun a => ?_
  refine triple_ite (fun _ => ?_) fun _ => triple_pure _ fun reg h => ⟨h.1.1, by simp⟩
  refine bind (Q := fun _ reg => Confined kind r b reg₀ reg ∧ ∀ p,
    (a.table kind').idTable id = some p → kind' = .space → (reg.space p).spaceId = id)
    (triple_update fun reg h => ?_) fun _ => triple_pure _ fun reg h =>
      ⟨h.1, fun p hp => ⟨hvalid, h.2 p hp⟩⟩
  obtain ⟨⟨hconf, hnamed⟩, rfl⟩ := h
  refine ⟨hconf.touch (hid hvalid), fun p hp hspace => ?_⟩
  subst hspace
  exact hnamed rfl id p hp

lemma lookupResource_triple' (hkind : kind' ≠ .space) (hid : Usable caller kind r b kind' id) :
    Triple (Confined kind r b reg₀) (lookupResource caller kind' id)
      (fun o reg => Confined kind r b reg₀ reg ∧
        ∀ p, o = some p → (caller.range kind').isValid id = true) (Confined kind r b reg₀) := by
  refine consequence (lookupResource_triple hid)
    (fun reg h => ⟨h, fun e => absurd e hkind⟩) fun o reg h => ⟨h.1, fun p hp => (h.2 p hp).1⟩

/-- Writing the entry of an identifier that passes the range check. -/
lemma write_keeps {obj : Option ℕ} (hid : Usable caller kind r b kind' id)
    (hvalid : (caller.range kind').isValid id = true) :
    Keeps (Confined kind r b reg₀) (Fallible.update fun reg => reg.write kind' id obj : Call Unit) :=
  triple_update fun _ h => h.write (hid hvalid)

lemma allocateSpace_triple {memory : Option ℕ} {pageDirectory : Bool} {clist : ℕ}
    (hid : Usable caller kind r b .space id) (hvalid : (caller.range .space).isValid id = true) :
    Triple (Confined kind r b reg₀) (allocateSpace memory pageDirectory id clist)
      (fun p reg => Confined kind r b reg₀ reg ∧ (reg.space p).spaceId = id)
      (Confined kind r b reg₀) := by
  rcases memory with _ | p
  · exact triple_throw _ fun _ h => h
  refine triple_check (fun _ h => h) fun _ => ?_
  have hset : ∀ s : Space, ∀ reg : Registry, ((reg.setSpace p s).space p) = s := by
    intro s reg
    simp [setSpace]
  refine bind (Q := fun _ reg => Confined kind r b reg₀ reg ∧ (reg.space p).spaceId = id)
    (triple_update fun reg h => ⟨h.setSpace _ _, by rw [hset]⟩) fun _ => ?_
  refine triple_update_bind (fun reg h => ⟨h.1.write (hid hvalid), h.2⟩) ?_
  refine triple_update_bind (fun reg h => ⟨h.1.setSpace _ _, by rw [hset]; exact h.2⟩) ?_
  refine triple_update_bind (fun reg h => ⟨h.1.setClist _ _, h.2⟩) ?_
  exact triple_pure _ fun reg h => h

lemma freeSpace_triple {p : ℕ} (hid : Usable caller kind r b .space id)
    (hvalid : (caller.range .space).isValid id = true) :
    Triple (fun reg => Confined kind r b reg₀ reg ∧ (reg.space p).spaceId = id) (freeSpace p)
      (fun _ => Confined kind r b reg₀) (Confined kind r b reg₀) := by
  refine bind (triple_get (Q := fun a reg => Confined kind r b reg₀ reg ∧
    (a.space p).spaceId = id) fun reg h => h) fun a => ?_
  refine triple_update_bind (fun reg h => ⟨h.1.setClist _ _, h.2⟩) ?_
  exact triple_update fun reg h => h.1.write (h.2 ▸ hid hvalid)

lemma spaceControlNew_keeps {a : SpaceControlArgs} {space : Option ℕ}
    (hspace : Usable caller kind r b .space a.spaceId)
    (hclist : Usable caller kind r b .clist a.clistId) :
    Keeps (Confined kind r b reg₀) (spaceControlNew caller a space) := by
  refine triple_check (fun _ h => h) fun _ => ?_
  refine triple_check (fun _ h => h) fun hvalid => ?_
  have hvalid : (caller.range .space).isValid a.spaceId = true := by simpa using hvalid
  refine bind (lookupResource_triple' (by simp) hclist) fun clist => ?_
  rcases clist with _ | clist
  · exact triple_throw _ fun _ h => h.1
  refine triple_check (fun _ h => h.1) fun _ => ?_
  refine triple_check (fun _ h => h.1) fun _ => ?_
  refine bind ((allocateSpace_triple hspace hvalid).weaken fun _ h => h.1) fun p => ?_
  refine triple_ite (fun _ => ?_) fun _ => ?_
  · exact bind (freeSpace_triple hspace hvalid) fun _ => triple_throw _ fun _ h => h
  · refine bind (Q := fun _ => Confined kind r b reg₀)
      (triple_update fun reg h => h.1.setSpace _ _) fun _ => triple_pure _ fun _ h => h

lemma spaceControlDelete_triple {space : Option ℕ} (hspace : Usable caller kind r b .space id) :
    Triple (fun reg => Confined kind r b reg₀ reg ∧ ∀ p, space = some p →
        (caller.range .space).isValid id = true ∧ (reg.space p).spaceId = id)
      (spaceControlDelete space) (fun _ => Confined kind r b reg₀) (Confined kind r b reg₀) := by
  rcases space with _ | p
  · exact triple_throw _ fun _ h => h.1
  refine triple_get_bind fun a => triple_check (fun _ h => h.1) fun _ => ?_
  intro reg h
  obtain ⟨hvalid, hid⟩ := h.2 p rfl
  exact freeSpace_triple hspace hvalid reg ⟨h.1, hid⟩

lemma spaceControl_triple {a : SpaceControlArgs} (hspace : Usable caller kind r b .space a.spaceId)
    (hclist : Usable caller kind r b .clist a.clistId) :
    Triple (fun reg => Confined kind r b reg₀ reg ∧ reg.Named) (spaceControl caller a)
      (fun _ => Confined kind r b reg₀) (Confined kind r b reg₀) := by
  have hresources : ∀ space, Keeps (Confined kind r b reg₀) (spaceControlResources space) := by
    rintro (_ | p)
    · exact triple_throw _ fun _ h => h
    · exact triple_pure _ fun _ h => h
  refine triple_check (fun _ h => h.1) fun _ => ?_
  refine triple_check (fun _ h => h.1) fun _ => ?_
  refine bind ((lookupResource_triple hspace).weaken fun _ h => ⟨h.1, fun _ => h.2⟩) fun space => ?_
  refine triple_ite (fun _ => ?_) fun _ => triple_ite (fun _ => ?_) fun _ =>
    triple_ite (fun _ => ?_) fun _ => triple_pure _ fun _ h => h.1
  · refine bind ((spaceControlNew_keeps hspace hclist).weaken fun _ h => h.1) fun p => ?_
    exact triple_ite (fun _ => hresources p) fun _ => triple_pure _ fun _ h => h
  · refine (spaceControlDelete_triple hspace).weaken fun reg h => ⟨h.1, fun p hp => ?_⟩
    exact ⟨(h.2 p hp).1, (h.2 p hp).2 rfl⟩
  · exact (hresources space).weaken fun _ h => h.1

lemma capControl_keeps {clistId : ℕ} {op : CapOp}
    (hids : ∀ id, (ResourceKind.clist, id) ∈ (cap clistId op).ids →
      Usable caller kind r b .clist id) :
    Keeps (Confined kind r b reg₀) (capControl caller clistId op) := by
  have hclist : Usable caller kind r b .clist clistId :=
    hids clistId (by cases op <;> simp [ids])
  refine bind (lookupResource_triple' (by simp) hclist) fun clist => ?_
  cases op with
  | createClist entries memory =>
    refine triple_check (fun _ h => h.1) fun hvalid => ?_
    refine triple_check (fun _ h => h.1) fun _ => ?_
    rcases memory with _ | p
    · exact triple_throw _ fun _ h => h.1
    · refine triple_update_bind (fun reg h => ⟨h.1.setClist _ _, h.2⟩) ?_
      exact (write_keeps hclist (by simpa using hvalid)).weaken fun _ h => h.1
  | deleteClist =>
    rcases clist with _ | p
    · exact triple_throw _ fun _ h => h.1
    refine triple_get_bind fun a => triple_check (fun _ h => h.1) fun _ => ?_
    refine triple_check (fun _ h => h.1) fun _ => ?_
    intro reg h
    exact write_keeps hclist (h.2 p rfl) reg h.1
  | copyCap src targetList target =>
    rcases clist with _ | p
    · exact triple_throw _ fun _ h => h.1
    have htarget : Usable caller kind r b .clist targetList :=
      hids targetList (by simp [ids])
    refine bind ((lookupResource_triple' (by simp) htarget).weaken fun _ h => h.1)
      fun targetClist => ?_
    rcases targetClist with _ | q
    · exact triple_throw _ fun _ h => h.1
    refine triple_get_bind fun a => triple_check (fun _ h => h.1) fun _ => ?_
    rcases (a.clist p).lookupThreadCap src with _ | tcb
    · exact triple_throw _ fun _ h => h.1
    · refine triple_check (fun _ h => h.1) fun _ => ?_
      exact triple_update fun reg h => h.1.setClist _ _
  | deleteCap target =>
    rcases clist with _ | p
    · exact triple_throw _ fun _ h => h.1
    refine triple_get_bind fun a => triple_check (fun _ h => h.1) fun _ => ?_
    cases (a.clist p).entries (capIndex target) with
    | ipc tcb => exact triple_update fun reg h => h.1.setClist _ _
    | invalid => exact triple_throw _ fun _ h => h.1
    | thread tcb => exact triple_throw _ fun _ h => h.1
  | other => exact triple_throw _ fun _ h => h.1

lemma mutexControl_keeps {current mutexId control : ℕ} {memory : Option ℕ}
    (hmutex : Usable caller kind r b .mutex mutexId) :
    Keeps (Confined kind r b reg₀) (mutexControl caller current mutexId control memory) := by
  refine triple_check (fun _ h => h) fun _ => ?_
  refine bind (lookupResource_triple' (by simp) hmutex) fun mutex => ?_
  refine bind (Q := fun _ => Confined kind r b reg₀) ?_ fun _ => ?_
  · refine triple_ite (fun _ => triple_pure _ fun _ h => h.1) fun _ => ?_
    rcases mutex with _ | p
    · exact triple_throw _ fun _ h => h.1
    refine triple_get_bind fun a => triple_check (fun _ h => h.1) fun _ => ?_
    refine triple_update_bind (fun reg h => ⟨h.1.setHolder _, h.2⟩) ?_
    intro reg h
    exact write_keeps hmutex (h.2 p rfl) reg h.1
  · refine triple_ite (fun _ => triple_pure _ fun _ h => h) fun _ => ?_
    refine triple_check (fun _ h => h) fun hvalid => ?_
    refine triple_check (fun _ h => h) fun _ => ?_
    rcases memory with _ | p
    · exact triple_throw _ fun _ h => h
    · refine triple_update_bind (fun reg h => h.setHolder _) ?_
      exact write_keeps hmutex (by simpa using hvalid)

end Calls

/-- Every call reaches only entries of the range that belong to the table, if its identifiers may be
used. -/
lemma perform_confined {kind : ResourceKind} {r : ResourceIds} {b : ℕ} {call : ControlCall}
    (hmaxId : (reg.table kind).maxId = b) (htouched : reg.touched = []) (hnamed : reg.Named)
    (hids : ∀ kind' id, (kind', id) ∈ call.ids → Usable caller kind r b kind' id) :
    Confined kind r b reg ((call.perform caller).exec reg) := by
  have hstart : Confined kind r b reg reg :=
    ⟨fun i hi => absurd hi (by simp [htouched]), hmaxId, fun _ _ => rfl⟩
  cases call with
  | space args =>
    exact (spaceControl_triple (hids _ _ (by simp [ids]))
      (hids _ _ (by simp [ids]))).exec ⟨hstart, hnamed⟩
  | cap clistId op => exact (capControl_keeps fun id => hids .clist id).exec hstart
  | mutex current mutexId control memory =>
    exact (mutexControl_keeps (hids _ _ (by simp [ids]))).exec hstart

/-! ## Creating an object -/

/-- A lookup of an identifier without an object finds nothing and changes nothing else. -/
lemma lookupResource_absent {kind : ResourceKind} (hnone : (reg.table kind).idTable id = none) :
    (lookupResource caller kind id).result reg = .ok none ∧
      ∃ l, (lookupResource caller kind id).exec reg = { reg with touched := l } := by
  unfold lookupResource lookupId
  by_cases hvalid : (caller.range kind).isValid id = true
  · by_cases hid : (reg.table kind).validId id = true
    · refine ⟨by simp [-bind_pure_comp, result_bind, hvalid, hid, hnone],
        (kind, id) :: reg.touched, ?_⟩
      simp [-bind_pure_comp, exec_bind, hvalid, hid, touch]
    · exact ⟨by simp [result_bind, hvalid, hid], reg.touched, by simp [exec_bind, hvalid, hid]⟩
  · exact ⟨by simp [hvalid], reg.touched, by simp [hvalid]⟩

lemma createClist_touches (hvalid : (caller.range .clist).isValid id = true)
    (hnone : (reg.table .clist).idTable id = none) : (ResourceKind.clist, id) ∈
      ((capControl caller id (.createClist 1 (some 0))).exec reg).touched := by
  have habsent : (lookupClist caller id).result reg = .ok none ∧ ∃ l,
      (lookupClist caller id).exec reg = { reg with touched := l } := lookupResource_absent hnone
  obtain ⟨hresult, l, hexec⟩ := habsent
  rw [capControl, exec_bind, hresult, hexec]
  simp [exec_bind, hvalid, addObject, write, touch]

lemma createMutex_touches (hkresources : caller.kresources = true)
    (hvalid : (caller.range .mutex).isValid id = true)
    (hnone : (reg.table .mutex).idTable id = none) :
    (ResourceKind.mutex, id) ∈ ((mutexControl caller 0 id 1 (some 0)).exec reg).touched := by
  have habsent : (lookupMutex caller id).result reg = .ok none ∧ ∃ l,
      (lookupMutex caller id).exec reg = { reg with touched := l } := lookupResource_absent hnone
  obtain ⟨hresult, l, hexec⟩ := habsent
  rw [mutexControl, if_neg (by simp [hkresources]), exec_bind, hresult, hexec]
  have hdelete : mutexControlDelete 0 id 1 none = pure () := if_pos (by decide)
  simp [exec_bind, hdelete, mutexControlCreate, hvalid, addObject, write, touch]

lemma createSpace_touches (hvalid : (caller.range .space).isValid id = true)
    (hnone : (reg.table .space).idTable id = none) (hclist : (caller.range .clist).isValid 0 = true)
    (hsome : (reg.table .clist).idTable 0 = some 0) : (ResourceKind.space, id) ∈
      ((spaceControl caller ⟨id, 1, 0, false, some 0, true, true⟩).exec reg).touched := by
  set a : SpaceControlArgs := ⟨id, 1, 0, false, some 0, true, true⟩ with ha
  have hbits : Nat.testBit 1 1 = false ∧ Nat.testBit 1 4 = false ∧ Nat.testBit 1 2 = false := by
    decide
  have hdelete : a.delete = false := hbits.1
  have hkres : a.kresourcesAccessible = false := hbits.2.1
  have hresources : a.resources = false := hbits.2.2
  have hnew : a.new = true := Nat.testBit_one_zero
  have hprio : a.prio = 0 := by simp [ha, SpaceControlArgs.prio]
  have habsent : (lookupSpace caller a.spaceId).result reg = .ok none ∧ ∃ l,
      (lookupSpace caller a.spaceId).exec reg = { reg with touched := l } :=
    lookupResource_absent hnone
  obtain ⟨hresult, l, hexec⟩ := habsent
  rw [spaceControl, if_neg (by simp [hdelete]), if_neg (by simp [hkres]), exec_bind, hresult, hexec]
  simp only [hnew, hresources, spaceControlNew, hprio]
  simp [exec_bind, ha, lookupClist, lookupResource, lookupId, IdLookup.validId, hvalid, hclist,
    hsome, allocateSpace, addObject, write, touch, setSpace,
    setClist]

/-- Tables with the given capability lists and no other object. -/
def Registry.blank (clists : ℕ → Option ℕ) (b : ℕ) : Registry where
  table
    | .clist => ⟨clists, b⟩
    | _ => ⟨fun _ => none, b⟩
  space _ := ⟨0, 0, 0, 0, false, fun _ => ResourceIds.empty⟩
  clist _ := Clist.init 1
  holder _ := none
  touched := []

/-- An identifier can be used by all calls, whatever the state is, exactly if it is below `2 ^ 16`
and in the table whenever its low 16 bits are in the range. -/
theorem control_confined_iff (kind : ResourceKind) (r : ResourceIds) (b id : ℕ) :
    (∀ (caller : Space) (reg : Registry) (call : ControlCall), caller.range kind = r →
        (reg.table kind).maxId = b → reg.touched = [] → reg.Named →
        (∀ i, (kind, i) ∈ call.ids → i = id) →
        (∀ i, (kind, i) ∈ ((call.perform caller).exec reg).touched → r.Contains i ∧ i ≤ b) ∧
          ∀ i, ¬r.Contains i →
            (((call.perform caller).exec reg).table kind).idTable i = (reg.table kind).idTable i) ↔
      (r.isValid id = true → id < 2 ^ 16 ∧ id ≤ b) := by
  constructor
  · intro hall hvalid
    -- Creating an object under the identifier accesses its entry.
    let caller : Space := ⟨0, 0, 1, 255, true, Function.update (fun _ => ⟨0, 1, by decide⟩) kind r⟩
    have hrange : caller.range kind = r := by simp [caller]
    have hnamed (clists : ℕ → Option ℕ) : (blank clists b).Named := by
      intro i p hp
      simp [blank] at hp
    have hinside : r.Contains id ∧ id ≤ b := by
      cases kind with
      | space =>
        refine (hall caller (blank (fun _ => some 0) b)
          (.space ⟨id, 1, 0, false, some 0, true, true⟩) hrange rfl rfl (hnamed _)
          (by simp [ids])).1 id ?_
        exact createSpace_touches hvalid rfl rfl rfl
      | clist =>
        refine (hall caller (blank (fun _ => none) b) (.cap id (.createClist 1 (some 0)))
          hrange rfl rfl (hnamed _) (by simp [ids])).1 id ?_
        exact createClist_touches hvalid rfl
      | mutex =>
        refine (hall caller (blank (fun _ => none) b) (.mutex 0 id 1 (some 0)) hrange rfl
          rfl (hnamed _) (by simp [ids])).1 id ?_
        exact createMutex_touches rfl hvalid rfl
    exact ⟨hinside.1.lt, hinside.2⟩
  · intro hid caller reg call hrange hmaxId htouched hnamed hids
    have hconf : Confined kind r b reg ((call.perform caller).exec reg) := by
      refine perform_confined hmaxId htouched hnamed fun kind' i hi hvalid hkind => ?_
      subst hkind
      obtain rfl := hids i hi
      rw [hrange] at hvalid
      obtain ⟨hlt, hle⟩ := hid hvalid
      exact ⟨(ResourceIds.isValid_iff hlt).1 hvalid, hle⟩
    exact ⟨hconf.touched, hconf.frame⟩

/-- A space with the identifiers below 10 creates a capability list with the identifier
`2 ^ 16 + 3`, whose low bits pass the check. The entry that is written is neither in the range nor
in the table of 64 entries. -/
theorem createClist_outside_range :
    let caller : Space := ⟨0, 0, 1, 255, true, fun _ => ⟨0, 10, by decide⟩⟩
    let reg := blank (fun _ => none) 63
    let reg' := ((cap 65539 (.createClist 1 (some 0))).perform caller).exec reg
    reg'.touched = [(.clist, 65539)] ∧ (reg'.table .clist).idTable 65539 = some 0 ∧
      (reg.table .clist).idTable 65539 = none ∧ ¬(caller.range .clist).Contains 65539 ∧
      (reg.table .clist).maxId < 65539 := by
  decide

end Okl4Kernel
