import Okl4Kernel.Capability
import Okl4Kernel.Lib.Fallible

/-!
# Identifiers of kernel resources

Spaces, capability lists and mutexes are named by words that index three global tables
(`id_lookup_t`). A space may use the identifiers of a range (`resource_ids_t`) of each kind: the
system calls `SpaceControl`, `CapControl` and `MutexControl` check the range of the caller and then
look the identifier up, add an object under it, or remove the one that it names.

Pointers are numbers. A table is the memory behind its first entry, so that an access beyond the
last entry has a meaning; every access is recorded in `touched`, under the index that it uses.
The objects carry what the system calls check. What these calls do to memory, page tables and
threads is left out, and so is the check of the UTCB area, whose outcome is an argument.
-/

namespace Okl4Kernel

open Function Fallible

/-- `resource_ids_t`: a range of identifiers. `set_range` asserts the bound. -/
structure ResourceIds where
  base : ℕ
  size : ℕ
  bound : base + size < 2 ^ 16

namespace ResourceIds

/-- The range of a space without resources. -/
def empty : ResourceIds := ⟨0, 0, by decide⟩

/-- `is_valid`: the argument is a `u16_t`. -/
def isValid (r : ResourceIds) (index : ℕ) : Bool :=
  let index := index % 2 ^ 16
  r.base ≤ index ∧ index < r.base + r.size

/-- The identifier is in the range. -/
def Contains (r : ResourceIds) (id : ℕ) : Prop := r.base ≤ id ∧ id < r.base + r.size

instance (r : ResourceIds) (id : ℕ) : Decidable (r.Contains id) :=
  inferInstanceAs (Decidable (_ ∧ _))

end ResourceIds

/-- `id_lookup_t`: the memory from the table on, and the last identifier. -/
structure IdLookup where
  idTable : ℕ → Option ℕ
  maxId : ℕ

/-- `valid_id`. -/
def IdLookup.validId (l : IdLookup) (id : ℕ) : Bool := id ≤ l.maxId

namespace IdLookup

variable (l : IdLookup)

/-- `lookup_id`. -/
def lookup (id : ℕ) : Option ℕ := if l.validId id then l.idTable id else none

/-- `add_object` and `remove_object` write an entry; that it is one of the table is an assertion. -/
def write (id : ℕ) (obj : Option ℕ) : IdLookup :=
  { l with idTable := update l.idTable id obj }

/-- The entry that is written is the only one that changes. -/
lemma lookup_write_of_ne {id id' : ℕ} (h : id' ≠ id) (obj : Option ℕ) :
    (l.write id obj).lookup id' = l.lookup id' := by
  unfold lookup
  rw [show (l.write id obj).validId id' = l.validId id' from rfl,
    show (l.write id obj).idTable id' = l.idTable id' from update_of_ne h _ _]

lemma lookup_write_self (id : ℕ) (obj : Option ℕ) :
    (l.write id obj).lookup id = if l.validId id then obj else none := by
  unfold lookup
  rw [show (l.write id obj).validId id = l.validId id from rfl,
    show (l.write id obj).idTable id = obj from update_self _ _ _]

end IdLookup

/-- The kinds of resources that have identifiers. -/
inductive ResourceKind
  | space
  | clist
  | mutex
  deriving DecidableEq

/-- What `cap_t` holds; threads are pointers. -/
inductive CapEntry
  | invalid
  | thread (tcb : ℕ)
  | ipc (tcb : ℕ)
  deriving DecidableEq

/-- `clist_t`. -/
structure Clist where
  maxId : ℕ
  numSpaces : ℕ
  entries : ℕ → CapEntry

/-- `is_empty`. -/
def Clist.isEmpty (c : Clist) : Bool := ∀ i ≤ c.maxId, c.entries i = .invalid

/-- `space_t`, as far as resources are concerned. -/
structure Space where
  spaceId : ℕ
  clist : ℕ
  threadCount : ℕ
  maximumPriority : ℕ
  /-- `can_access_kresources`. -/
  kresources : Bool
  /-- `space_range`, `clist_range` and `mutex_range`. -/
  range : ResourceKind → ResourceIds

/-- The tables, the objects behind the pointers, and the table entries that have been accessed. -/
structure Registry where
  table : ResourceKind → IdLookup
  space : ℕ → Space
  clist : ℕ → Clist
  /-- The holder of the mutex. -/
  holder : ℕ → Option ℕ
  touched : List (ResourceKind × ℕ)

/-- The error codes of the system calls. -/
inductive ErrorCode
  | invalidParam
  | invalidSpace
  | invalidClist
  | invalidCap
  | invalidMutex
  | mutexBusy
  | utcbArea
  | noMem
  | spaceNotEmpty
  | clistNotEmpty
  deriving DecidableEq

/-- A part of a system call. -/
abbrev Call := Fallible Registry ErrorCode

namespace Registry

variable (reg : Registry)

/-- Record an access to a table entry. -/
def touch (kind : ResourceKind) (id : ℕ) : Registry :=
  { reg with touched := (kind, id) :: reg.touched }

/-- Write a table entry. -/
def write (kind : ResourceKind) (id : ℕ) (obj : Option ℕ) : Registry :=
  { reg.touch kind id with
    table := update reg.table kind
      { reg.table kind with idTable := update (reg.table kind).idTable id obj } }

/-- Write a space. -/
def setSpace (p : ℕ) (s : Space) : Registry :=
  { reg with space := update reg.space p s }

/-- Write a capability list. -/
def setClist (p : ℕ) (c : Clist) : Registry :=
  { reg with clist := update reg.clist p c }

end Registry

/-! ## Tables -/

variable (kind : ResourceKind)

/-- `lookup_id`. -/
def lookupId (id : ℕ) : Call (Option ℕ) := do
  let reg ← get
  if (reg.table kind).validId id then do
    update fun reg => reg.touch kind id
    pure ((reg.table kind).idTable id)
  else pure none

/-- `add_object`. -/
def addObject (id obj : ℕ) : Call Unit :=
  update fun reg => reg.write kind id (some obj)

/-- `remove_object`. -/
def removeObject (id : ℕ) : Call Unit :=
  update fun reg => reg.write kind id none

variable (caller : Space)

/-- Check the range of the caller and look an identifier up. -/
def lookupResource (kind : ResourceKind) (id : ℕ) : Call (Option ℕ) :=
  if (caller.range kind).isValid id then lookupId kind id else pure none

/-- `lookup_space`. -/
def lookupSpace (id : ℕ) : Call (Option ℕ) := lookupResource caller .space id

/-- `lookup_clist`. -/
def lookupClist (id : ℕ) : Call (Option ℕ) := lookupResource caller .clist id

/-- `lookup_mutex`. -/
def lookupMutex (id : ℕ) : Call (Option ℕ) := lookupResource caller .mutex id

/-! ## `SpaceControl` -/

/-- `allocate_space`, with the outcome of the two allocations. -/
def allocateSpace (memory : Option ℕ) (pageDirectory : Bool) (spaceId clist : ℕ) : Call ℕ :=
  match memory with
  | none => throw .noMem
  | some p =>
    if pageDirectory = false then throw .noMem
    else do
      update fun reg => reg.setSpace p { reg.space p with spaceId := spaceId }
      addObject .space spaceId p
      -- `init_security`
      update fun reg => reg.setSpace p { reg.space p with clist := clist }
      update fun reg => reg.setClist clist
        { reg.clist clist with numSpaces := (reg.clist clist).numSpaces + 1 }
      pure p

/-- `free_space`. -/
def freeSpace (p : ℕ) : Call Unit := do
  let reg ← get
  -- `free_security`
  let clist := (reg.space p).clist
  update fun reg => reg.setClist clist
    { reg.clist clist with numSpaces := (reg.clist clist).numSpaces - 1 }
  removeObject .space (reg.space p).spaceId

/-- The arguments of `SpaceControl`, and the outcome of what it calls. -/
structure SpaceControlArgs where
  spaceId : ℕ
  control : ℕ
  clistId : ℕ
  utcbAreaInvalid : Bool
  memory : Option ℕ
  pageDirectory : Bool
  init : Bool

namespace SpaceControlArgs

variable (a : SpaceControlArgs)

/-- `SPACE_CONTROL_NEW`. -/
def new : Bool := a.control.testBit 0

/-- `SPACE_CONTROL_DELETE`. -/
def delete : Bool := a.control.testBit 1

/-- `SPACE_CONTROL_RESOURCES`. -/
def resources : Bool := a.control.testBit 2

/-- `SPACE_CONTROL_KRESOURCES_ACCESSIBLE`. -/
def kresourcesAccessible : Bool := a.control.testBit 4

/-- `SPACE_CONTROL_PRIO`. -/
def prio : ℕ := a.control / 2 ^ 24 % 2 ^ 8

end SpaceControlArgs

/-- The branch of `SpaceControl` that creates a space. -/
def spaceControlNew (a : SpaceControlArgs) (space : Option ℕ) : Call (Option ℕ) :=
  if space ≠ none then throw .invalidSpace
  else if (caller.range .space).isValid a.spaceId = false then throw .invalidSpace
  else do
    let clist ← lookupClist caller a.clistId
    match clist with
    | none => throw .invalidClist
    | some clist =>
      if caller.maximumPriority < a.prio then throw .invalidParam
      else if a.utcbAreaInvalid then throw .utcbArea
      else do
        let p ← allocateSpace a.memory a.pageDirectory a.spaceId clist
        if a.init = false then do
          freeSpace p
          throw .noMem
        else do
          update fun reg => reg.setSpace p
            { reg.space p with
              maximumPriority := a.prio
              kresources := a.kresourcesAccessible
              range := fun kind =>
                if kind = .mutex ∨ a.kresourcesAccessible then caller.range kind
                else ResourceIds.empty }
          pure (some p)

/-- The branch of `SpaceControl` that deletes a space. -/
def spaceControlDelete (space : Option ℕ) : Call Unit :=
  match space with
  | none => throw .invalidSpace
  | some p => do
    let reg ← get
    if (reg.space p).threadCount ≠ 0 then throw .spaceNotEmpty else freeSpace p

/-- The branch of `SpaceControl` that changes the resources of a space. -/
def spaceControlResources (space : Option ℕ) : Call Unit :=
  match space with
  | none => throw .invalidSpace
  | some _ => pure ()

/-- `SpaceControl`. -/
def spaceControl (a : SpaceControlArgs) : Call Unit :=
  if a.delete ∧ (a.new ∨ a.resources) then throw .invalidParam
  else if a.kresourcesAccessible ∧ a.new = false then throw .invalidParam
  else do
    let space ← lookupSpace caller a.spaceId
    if a.new then do
      let space ← spaceControlNew caller a space
      if a.resources then spaceControlResources space else pure ()
    else if a.delete then spaceControlDelete space
    else if a.resources then spaceControlResources space
    else pure ()

/-! ## `CapControl` -/

/-- `clist_t::is_valid`. -/
def Clist.isValid (c : Clist) (cap : ℕ) : Bool := capIndex cap ≤ c.maxId

/-- `lookup_thread_cap_locked`. -/
def Clist.lookupThreadCap (c : Clist) (cap : ℕ) : Option ℕ :=
  if isCapType cap = false then none
  else if c.maxId < capIndex cap then none
  else
    match c.entries (capIndex cap) with
    | .thread tcb => some tcb
    | _ => none

/-- `clist_t::init`, in word arithmetic. -/
def Clist.init (numIds : ℕ) : Clist := ⟨(numIds + 2 ^ 32 - 1) % 2 ^ 32, 0, fun _ => .invalid⟩

/-- The operations of `CapControl`, with their message registers. -/
inductive CapOp
  | createClist (entries : ℕ) (memory : Option ℕ)
  | deleteClist
  | copyCap (src targetList target : ℕ)
  | deleteCap (target : ℕ)
  | other

/-- `CapControl`. -/
def capControl (clistId : ℕ) (op : CapOp) : Call Unit := do
  let clist ← lookupClist caller clistId
  match op with
  | .createClist entries memory =>
    if (caller.range .clist).isValid clistId = false then throw .invalidClist
    else if clist ≠ none then throw .invalidClist
    else
      match memory with
      | none => throw .noMem
      | some p => do
        update fun reg => reg.setClist p (Clist.init entries)
        addObject .clist clistId p
  | .deleteClist =>
    match clist with
    | none => throw .invalidClist
    | some p => do
      let reg ← get
      if (reg.clist p).numSpaces ≠ 0 then throw .clistNotEmpty
      else if (reg.clist p).isEmpty = false then throw .clistNotEmpty
      else removeObject .clist clistId
  | .copyCap src targetList target =>
    match clist with
    | none => throw .invalidClist
    | some p => do
      let targetClist ← lookupClist caller targetList
      match targetClist with
      | none => throw .invalidClist
      | some q => do
        let reg ← get
        if (reg.clist q).isValid target = false then throw .invalidCap
        else
          match (reg.clist p).lookupThreadCap src with
          | none => throw .invalidCap
          | some tcb =>
            -- `add_ipc_cap`
            if (reg.clist q).entries (capIndex target) ≠ .invalid then throw .invalidCap
            else
              update fun reg => reg.setClist q
                { reg.clist q with
                  entries := update (reg.clist q).entries (capIndex target) (.ipc tcb) }
  | .deleteCap target =>
    match clist with
    | none => throw .invalidClist
    | some p => do
      let reg ← get
      if (reg.clist p).isValid target = false then throw .invalidCap
      else
        -- `remove_ipc_cap`
        match (reg.clist p).entries (capIndex target) with
        | .ipc _ =>
          update fun reg => reg.setClist p
            { reg.clist p with
              entries := update (reg.clist p).entries (capIndex target) .invalid }
        | _ => throw .invalidCap
  | .other => throw .invalidParam

/-! ## `MutexControl` -/

/-- The part of `MutexControl` for `MUTEX_CONTROL_DELETE`, bit 1: the caller acquires the mutex
before it is deleted. -/
def mutexControlDelete (current mutexId control : ℕ) (mutex : Option ℕ) : Call Unit :=
  if control.testBit 1 = false then pure ()
  else
    match mutex with
    | none => throw .invalidMutex
    | some p => do
      let reg ← get
      if reg.holder p ≠ none then throw .mutexBusy
      else do
        update fun reg =>
          { reg with holder := update reg.holder p (some current) }
        removeObject .mutex mutexId

/-- The part of `MutexControl` for `MUTEX_CONTROL_CREATE`, bit 0. It looks at the pointer from
before a deletion in the same call. -/
def mutexControlCreate (mutexId control : ℕ) (mutex memory : Option ℕ) : Call Unit :=
  if control.testBit 0 = false then pure ()
  else if (caller.range .mutex).isValid mutexId = false then throw .invalidMutex
  else if mutex ≠ none then throw .invalidMutex
  else
    match memory with
    | none => throw .noMem
    | some p => do
      update fun reg => { reg with holder := update reg.holder p none }
      addObject .mutex mutexId p

/-- `MutexControl`; `current` is the calling thread. -/
def mutexControl (current mutexId control : ℕ) (memory : Option ℕ) : Call Unit :=
  if caller.kresources = false then throw .invalidSpace
  else do
    let mutex ← lookupMutex caller mutexId
    mutexControlDelete current mutexId control mutex
    mutexControlCreate caller mutexId control mutex memory

/-! ## All calls -/

/-- A system call that names resources. -/
inductive ControlCall
  | space (args : SpaceControlArgs)
  | cap (clistId : ℕ) (op : CapOp)
  | mutex (current mutexId control : ℕ) (memory : Option ℕ)

namespace ControlCall

/-- Perform a system call. -/
def perform (caller : Space) : ControlCall → Call Unit
  | space args => spaceControl caller args
  | cap clistId op => capControl caller clistId op
  | mutex current mutexId control memory => mutexControl caller current mutexId control memory

/-- The identifiers that a call names. -/
def ids : ControlCall → List (ResourceKind × ℕ)
  | space args => [(.space, args.spaceId), (.clist, args.clistId)]
  | cap clistId (.copyCap _ targetList _) => [(.clist, clistId), (.clist, targetList)]
  | cap clistId _ => [(.clist, clistId)]
  | mutex _ mutexId _ _ => [(.mutex, mutexId)]

end ControlCall

end Okl4Kernel
