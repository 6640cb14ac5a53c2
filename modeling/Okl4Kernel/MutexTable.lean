import Okl4Kernel.Mutex
import Okl4Kernel.ResourceControl
import Okl4Kernel.SyncpointInvariant

/-!
# The table of mutexes

`MutexControl` creates and deletes the mutexes that the entries of a table point to. A mutex is in
use while a thread holds it. Nobody is blocked on a mutex without a holder (`Sched.Attended`), so
that a mutex which the deletion can acquire is one that nobody waits for.

`ControlLaw` is what a call should do. With both flags set, the source first deletes the mutex, and
then refuses to create one because of the pointer that it has looked up before
(`mutexControl_law_iff`).
-/

namespace Okl4Kernel

open Function List Option TransitionSystem Bool IdLookup Sched

/-! ## Holders and waiting threads -/

namespace Sched

variable {τ μ : Type*}

/-- Every mutex that a thread waits for has a holder, and the mutexes with a holder are known. -/
structure Attended (known : μ → Prop) (s : Sched τ μ) : Prop where
  held : ∀ {t m}, s.waitingFor t = some (.mutex m) → s.getHolder m ≠ none
  holder_known : ∀ {m}, s.getHolder m ≠ none → known m

variable {known : μ → Prop} {s s' : Sched τ μ}

/-- An operation that lets threads go and leaves the holders alone. -/
lemma Attended.of_waits (h : s.Attended known) (hholder : ∀ m, s'.getHolder m = s.getHolder m)
    (hwaits : ∀ t, s'.waitingFor t = s.waitingFor t ∨ s'.waitingFor t = none) :
    s'.Attended known := by
  refine ⟨fun {t m} ht => ?_, fun {m} hm => ?_⟩
  · rw [hholder]
    rcases hwaits t with heq | hnone
    · exact h.held (heq.symm.trans ht)
    · rw [hnone] at ht
      cases ht
  · rw [hholder] at hm
    exact h.holder_known hm

lemma Attended.of_same (h : s.Attended known) (hwaits : s'.waitingFor = s.waitingFor)
    (hdon : s'.donatee = s.donatee) : s'.Attended known :=
  h.of_waits (fun _ => congrFun hdon _) fun u => .inl (congrFun hwaits u)

lemma Attended.blocked_eq_nil (h : s.Attended known) (hwf : s.Wf) {m : μ}
    (hfree : s.getHolder m = none) : s.blocked (.mutex m) = [] := by
  refine eq_nil_iff_forall_not_mem.2 fun t ht => ?_
  exact h.held (hwf.mem_blocked.1 ht) hfree

lemma getHolder_of_ne [DecidableEq τ] [DecidableEq μ] {m m' : μ} {w : Option τ}
    (hdon : s'.donatee = update s.donatee (.mutex m) w) (hne : m' ≠ m) :
    s'.getHolder m' = s.getHolder m' := by
  rw [getHolder, hdon]
  exact update_of_ne (fun heq => hne (SyncRef.mutex.inj heq)) _ _

section Operations

variable [DecidableEq τ] [DecidableEq μ] {m : μ} {t : τ}

/-- The holder of a mutex is written: the mutex is known, or nobody waits for it. -/
lemma Attended.writeHolder {w : Option τ} (h : s.Attended known)
    (hwaits : s'.waitingFor = s.waitingFor) (hdon : s'.donatee = update s.donatee (.mutex m) w)
    (hnobody : w = none → ∀ u, s.waitingFor u ≠ some (.mutex m)) (hm : w ≠ none → known m) :
    s'.Attended known := by
  have hself : s'.getHolder m = w := by
    rw [getHolder, hdon]
    exact update_self ..
  refine ⟨fun {u m'} hu => ?_, fun {m'} hm' => ?_⟩
  · rw [hwaits] at hu
    by_cases hne : m' = m
    · subst hne
      rw [hself]
      exact fun hw => hnobody hw u hu
    · rw [getHolder_of_ne hdon hne]
      exact h.held hu
  · by_cases hne : m' = m
    · subst hne
      exact hm (hself ▸ hm')
    · rw [getHolder_of_ne hdon hne] at hm'
      exact h.holder_known hm'

lemma Attended.setHolder (h : s.Attended known) (hm : known m) (t : τ) :
    (s.setHolder m t).Attended known :=
  h.writeHolder rfl rfl (fun hw => absurd hw (some_ne_none t)) fun _ => hm

lemma Wf.destroyMutex_acquire (h : s.Wf) (hfree : s.getHolder m = none) (t : τ) :
    (s.acquire m t).1.destroyMutex m = s := by
  have hnot : m ∉ s.mutexesHeld t := by
    intro hmem
    have hheld : s.getHolder m = some t := h.mem_held.1 hmem
    rw [hfree] at hheld
    cases hheld
  have herase : (s.mutexesHeld t ++ [m]).erase m = s.mutexesHeld t := by
    rw [erase_append_right _ hnot, erase_cons_head, append_nil]
  have hholder : (s.setHolder m t).getHolder m = some t := update_self _ _ _
  have hdon : s.donatee (.mutex m) = none := hfree
  have hacq : (s.acquire m t).1 = s.setHolder m t := by
    simp only [acquire, hfree]
    rfl
  rw [hacq, destroyMutex, hholder]
  simp only [setHolder, becomeDonatee, enqueueHeld, dequeueHeld, update_idem, update_self, herase]
  rw [update_eq_self, ← hdon, update_eq_self]

/-- A mutex that nobody holds or waits for is as good as new. -/
lemma initMutex_eq_self (hfree : s.getHolder m = none)
    (hblocked : s.blocked (.mutex m) = []) : s.initMutex m = s := by
  have hdon : s.donatee (.mutex m) = none := hfree
  unfold initMutex
  rw [← hdon, ← hblocked, update_eq_self, update_eq_self]

variable [Fintype τ]

lemma Attended.block (h : s.Attended known) (hinh : s.Inherits) (ht : s.waitingFor t = none)
    {r : SyncRef τ μ} (hr : ∀ m, r = .mutex m → s.getHolder m ≠ none) :
    (s.block r t).Attended known := by
  have hsame : SameWaits (s.enqueueBlocked r t) (s.block r t) := by
    rw [hinh.block_eq ht]
    exact sameWaits_propagate _ r
  have hholder : ∀ m, (s.block r t).getHolder m = s.getHolder m := fun m => congrFun hsame.donatee _
  refine ⟨fun {u m} hu => ?_, fun {m} hm => ?_⟩
  · rw [hholder]
    have hu' : update s.waitingFor t (some r) u = some (.mutex m) := by
      rw [← hu, hsame.waitingFor]
      rfl
    by_cases hut : u = t
    · subst hut
      rw [update_self] at hu'
      exact hr m (Option.some.inj hu')
    · rw [update_of_ne hut] at hu'
      exact h.held hu'
  · rw [hholder] at hm
    exact h.holder_known hm

omit [DecidableEq μ] in
lemma Attended.of_unblocks (h : s.Attended known) (hwf : s.Wf) (hunblocks : Unblocks s s') :
    s'.Attended known := by
  refine h.of_waits (fun m => Option.ext fun t => ?_) hunblocks.waitingFor
  exact hunblocks.inherits.wf.mem_held.symm.trans (by rw [hunblocks.mutexesHeld, hwf.mem_held]; rfl)

/-- Apart from priorities and places in queues, `refresh` does nothing. -/
lemma refresh_waits {r : SyncRef τ μ} (ht : s.waitingFor t = some r) :
    (s.refresh r t).waitingFor = s.waitingFor ∧ (s.refresh r t).donatee = s.donatee := by
  have hsame : SameWaits ((s.dequeueBlocked r t).enqueueBlocked r t) (s.refresh r t) :=
    sameWaits_propagate _ r
  exact ⟨hsame.waitingFor.trans (requeue_waitingFor ht), hsame.donatee⟩

lemma setPriority_waits (s : Sched τ μ) (t : τ) (prio : Prio) :
    (s.setPriority t prio).waitingFor = s.waitingFor ∧
      (s.setPriority t prio).donatee = s.donatee := by
  have hbase : (s.setBasePriority t prio).waitingFor = s.waitingFor ∧
      (s.setBasePriority t prio).donatee = s.donatee := by
    refine ⟨setBasePriority_waitingFor s t prio, ?_⟩
    unfold setBasePriority
    dsimp only
    split_ifs
    · rfl
    · exact setEffectivePriority_donatee _ _ _
  unfold setPriority
  dsimp only
  rcases hwait : (s.setBasePriority t prio).waitingFor t with _ | r
  · exact hbase
  · obtain ⟨hwaits, hdon⟩ := refresh_waits hwait
    exact ⟨hwaits.trans hbase.1, hdon.trans hbase.2⟩

section

variable (h : s.Attended known)
include h

/-- A mutex that is released goes to a thread that waits for it, if there is one. -/
lemma Attended.release (hwf : s.Wf)
    (hholder : s.donatee (.mutex m) = some t) : (s.release m).1.Attended known := by
  have hknown : known m := h.holder_known fun hnone => by
    rw [getHolder, hholder] at hnone
    cases hnone
  rcases hhead : s.blockedHead (.mutex m) with _ | newHolder
  · rw [release_of_blockedHead_none hholder hhead, releaseDonatee_eq hholder]
    exact h.writeHolder rfl rfl (fun _ => hwf.waitingFor_ne hhead) fun hw => absurd rfl hw
  · rw [release_of_blockedHead_some hholder hhead, releaseDonatee_eq hholder]
    refine (h.setHolder hknown newHolder).of_waits (fun _ => congrFun (update_idem ..) _) fun u => ?_
    by_cases hu : u = newHolder
    · exact .inr (by rw [hu]; exact update_self _ _ _)
    · exact .inl (update_of_ne hu _ _)

/-- Every operation keeps the mutexes attended, if threads block on mutexes that have a holder and
get mutexes that are known. -/
lemma Attended.syncStep (hinh : s.Inherits)
    {op : SyncOp τ μ} (hblock : ∀ m t, op = .block (.mutex m) t → s.getHolder m ≠ none)
    (hknown : ∀ m t, op = .acquire m t ∨ op = .setHolder m t → known m)
    (hstep : s.syncStep op = some s') : s'.Attended known := by
  cases op with
  | block r t =>
    obtain ⟨ht, ⟨⟩⟩ := ite_none_right_eq_some.1 hstep
    refine h.block hinh ht fun m hm => hblock m t ?_
    rw [hm]
  | unblock r t =>
    obtain ⟨ht, ⟨⟩⟩ := ite_none_right_eq_some.1 hstep
    exact h.of_unblocks hinh.wf (hinh.unblock_unblocks ht)
  | refresh r t =>
    obtain ⟨ht, ⟨⟩⟩ := ite_none_right_eq_some.1 hstep
    obtain ⟨hwaits, hdon⟩ := refresh_waits ht
    exact h.of_same hwaits hdon
  | acquire m t =>
    obtain ⟨-, ⟨⟩⟩ := ite_none_right_eq_some.1 hstep
    unfold acquire
    cases s.getHolder m with
    | some holder => exact h
    | none => exact h.setHolder (hknown m t (.inl rfl)) t
  | setHolder m t =>
    obtain ⟨-, ⟨⟩⟩ := ite_none_right_eq_some.1 hstep
    exact h.setHolder (hknown m t (.inr rfl)) t
  | release m =>
    rw [Sched.syncStep] at hstep
    rcases hholder : s.getHolder m with _ | holder
    · simp [hholder] at hstep
    · rw [hholder] at hstep
      obtain ⟨-, ⟨⟩⟩ := ite_none_right_eq_some.1 hstep
      exact h.release hinh.wf hholder
  | setPriority t prio =>
    cases hstep
    obtain ⟨hwaits, hdon⟩ := s.setPriority_waits t prio
    exact h.of_same hwaits hdon
  | removeThread t =>
    cases hstep
    exact (hinh.removeThread (fun h => h.of_same) (fun h hwf hholder => h.release hwf hholder)
      (fun h => h.of_unblocks) h).2

end

end Operations

end Sched

/-! ## Creating and deleting -/

/-- The mutexes and the threads that hold and want them, the table of mutexes, and the ring of
`global_mutexes_list`. -/
structure MutexTable (τ : Type*) where
  sched : Sched τ ℕ
  ids : IdLookup
  present : List ℕ

/-- The arguments of `MutexControl`, the caller, and the memory that there is for a mutex. -/
structure MutexArgs (τ : Type*) where
  caller : Space
  current : τ
  id : ℕ
  control : ℕ
  memory : Option ℕ

namespace MutexArgs

variable {τ : Type*} (a : MutexArgs τ)

/-- `MUTEX_CONTROL_CREATE`. -/
def create : Bool := a.control.testBit 0

/-- `MUTEX_CONTROL_DELETE`. -/
def delete : Bool := a.control.testBit 1

/-- The caller may name the mutex: it is privileged, and the identifier passes the check of its
range. -/
def permitted : Bool :=
  a.caller.kresources && (a.caller.range .mutex).isValid a.id

end MutexArgs

namespace MutexTable

variable {τ : Type*}

/-- A table without mutexes, for the identifiers up to `maxId`. -/
def init (basePrio : τ → Prio) (maxId : ℕ) : MutexTable τ where
  sched := Sched.init basePrio
  ids := ⟨fun _ => none, maxId⟩
  present := []

/-- `lookup_mutex`. -/
def lookupMutex (s : MutexTable τ) (a : MutexArgs τ) : Option ℕ :=
  if (a.caller.range .mutex).isValid a.id then s.ids.lookup a.id else none

variable [DecidableEq τ] (s : MutexTable τ)

/-- `mutex_create`, in the memory at `p`. -/
def mutexCreate (id p : ℕ) : MutexTable τ where
  sched := s.sched.initMutex p
  ids := s.ids.write id (some p)
  present := s.present ++ [p]

/-- `mutex_delete`. -/
def mutexDelete (id p : ℕ) : MutexTable τ where
  sched := s.sched.destroyMutex p
  ids := s.ids.write id none
  present := s.present.erase p

variable (a : MutexArgs τ)

/-- The part of `MutexControl` that deletes: the caller acquires the mutex before it. -/
def controlDelete (mutex : Option ℕ) : Except ErrorCode (MutexTable τ) :=
  if a.delete = false then .ok s
  else
    match mutex with
    | none => .error .invalidMutex
    | some p =>
      match s.sched.acquire p a.current with
      | (_, some _) => .error .mutexBusy
      | (sched, none) => .ok ({ s with sched := sched }.mutexDelete a.id p)

/-- The part of `MutexControl` that creates. -/
def controlCreate (mutex : Option ℕ) : Except ErrorCode (MutexTable τ) :=
  if a.create = false then .ok s
  else if (a.caller.range .mutex).isValid a.id = false then .error .invalidMutex
  else if mutex ≠ none then .error .invalidMutex
  else
    match a.memory with
    | none => .error .noMem
    | some p => .ok (s.mutexCreate a.id p)

/-- `MutexControl`: the state that it leaves, and the error code. Both parts get the pointer from
before the deletion. -/
def mutexControl : MutexTable τ × Option ErrorCode :=
  if a.caller.kresources = false then (s, some .invalidSpace)
  else
    match s.controlDelete a (s.lookupMutex a) with
    | .error e => (s, some e)
    | .ok s' =>
      match s'.controlCreate a (s.lookupMutex a) with
      | .error e => (s', some e)
      | .ok s'' => (s'', none)

end MutexTable

/-! ## Runs -/

/-- What happens to mutexes: threads lock and unlock them, have their priorities changed or die, and
`MutexControl` is called. -/
inductive MutexTableOp (τ : Type*)
  | sync (op : SyncOp τ ℕ)
  | control (args : MutexArgs τ)

namespace MutexTable

variable {τ : Type*}

/-- Memory that is allocated is not that of a mutex. -/
def isFresh (s : MutexTable τ) : Option ℕ → Bool
  | none => true
  | some p => p ∉ s.present

/-- The mutexes of an operation have been looked up, and a thread only blocks on a mutex that it has
failed to acquire. -/
def admits (s : MutexTable τ) : SyncOp τ ℕ → Bool
  | .block (.mutex m) _ => (s.sched.getHolder m).isSome
  | .acquire m _ => m ∈ s.present
  | .setHolder m _ => m ∈ s.present
  | _ => true

variable {s s' : MutexTable τ} {a : MutexArgs τ} {p : ℕ}

lemma lookup_of_lookupMutex (h : s.lookupMutex a = some p) : s.ids.lookup a.id = some p :=
  (ite_none_right_eq_some.1 h).2

variable [DecidableEq τ]

/-- The entry of a mutex has been cleared. -/
def clear (s : MutexTable τ) (id p : ℕ) : MutexTable τ :=
  { s with ids := s.ids.write id none, present := s.present.erase p }

lemma mutexControl_of_unprivileged (hk : a.caller.kresources = false) :
    s.mutexControl a = (s, some .invalidSpace) := by
  rw [mutexControl, if_pos hk]

lemma mutexControl_of_not_delete (hk : a.caller.kresources = true) (ha : a.delete = false) :
    s.mutexControl a =
      match s.controlCreate a (s.lookupMutex a) with
      | .error e => (s, some e) | .ok s' => (s', none) := by
  simp only [mutexControl, hk, controlDelete, ha, if_pos, true_eq_false, if_false]

lemma controlCreate_some (p : ℕ) :
    s.controlCreate a (some p) = if a.create then .error .invalidMutex else .ok s := by
  rcases hc : a.create with _ | _
  · simp only [controlCreate, hc, if_pos, false_eq_true, if_false]
  · simp [controlCreate, hc]

variable [Fintype τ]

/-- Perform an operation, if the assertions of the source hold. -/
def step (s : MutexTable τ) : MutexTableOp τ → Option (MutexTable τ)
  | .sync op =>
    if s.admits op then (s.sched.syncStep op).map fun sched => { s with sched := sched } else none
  | .control args => if s.isFresh args.memory then some (s.mutexControl args).1 else none

/-- Priorities are inherited, mutexes that are waited for are held, and every mutex has one entry of
the table. -/
structure Valid (s : MutexTable τ) : Prop where
  inherits : s.sched.Inherits
  attended : s.sched.Attended (· ∈ s.present)
  mem_present : ∀ {id p}, s.ids.idTable id = some p → p ∈ s.present
  unique : ∀ {id id' p}, s.ids.idTable id = some p → s.ids.idTable id' = some p → id = id'

/-- With the flag for a deletion, a mutex that nobody holds is deleted and the rest of the state is
kept; a creation in the same call fails. -/
lemma Valid.mutexControl_of_delete (h : s.Valid) (hk : a.caller.kresources = true)
    (ha : a.delete = true) : s.mutexControl a =
      match s.lookupMutex a with
      | none => (s, some .invalidMutex) | some p =>
        if s.sched.getHolder p = none then
          (s.clear a.id p, if a.create then some .invalidMutex else none)
        else (s, some .mutexBusy) := by
  rcases hlookup : s.lookupMutex a with _ | p
  · simp [mutexControl, hk, controlDelete, ha, hlookup]
  cases hholder : s.sched.getHolder p with
  | some holder => simp [mutexControl, hk, controlDelete, ha, hlookup, acquire, hholder]
  | none =>
    have hdestroy := h.inherits.wf.destroyMutex_acquire hholder a.current
    simp only [acquire, hholder] at hdestroy
    have hdelete : s.controlDelete a (some p) = .ok (s.clear a.id p) := by
      simp only [controlDelete, ha, true_eq_false, if_false, acquire, hholder,
        mutexDelete, hdestroy, clear]
    simp only [mutexControl, hk, hlookup, hdelete, controlCreate_some, true_eq_false, if_false]
    rw [if_pos hholder]
    rcases a.create with _ | _ <;> rfl

/-- Memory that is not that of a mutex is not held or waited for. -/
lemma Valid.mutexCreate_sched (h : s.Valid) (hp : p ∉ s.present) (id : ℕ) :
    s.sched.getHolder p = none ∧ s.sched.blocked (.mutex p) = [] ∧
      (s.mutexCreate id p).sched = s.sched := by
  have hfree : s.sched.getHolder p = none := by
    by_contra hheld
    exact hp (h.attended.holder_known hheld)
  have hblocked := h.attended.blocked_eq_nil h.inherits.wf hfree
  exact ⟨hfree, hblocked, initMutex_eq_self hfree hblocked⟩

/-- What `MutexControl` can do to the table: nothing, clear an entry, or fill one. -/
lemma Valid.mutexControl_cases (h : s.Valid) (a : MutexArgs τ) : (s.mutexControl a).1 = s ∨
      (∃ p, s.lookupMutex a = some p ∧ s.sched.getHolder p = none ∧
        (s.mutexControl a).1 = s.clear a.id p) ∨
      ∃ p, a.memory = some p ∧ (s.mutexControl a).1 = s.mutexCreate a.id p := by
  rcases hk : a.caller.kresources with _ | _
  · exact .inl (by rw [mutexControl_of_unprivileged hk])
  cases ha : a.delete with
  | true =>
    rw [h.mutexControl_of_delete hk ha]
    rcases hlookup : s.lookupMutex a with _ | p
    · exact .inl rfl
    dsimp only
    by_cases hfree : s.sched.getHolder p = none
    · rw [if_pos hfree]
      exact .inr (.inl ⟨p, rfl, hfree, rfl⟩)
    · rw [if_neg hfree]
      exact .inl rfl
  | false =>
    rw [mutexControl_of_not_delete hk ha]
    unfold controlCreate
    split_ifs
    · exact .inl rfl
    · exact .inl rfl
    · exact .inl rfl
    · rcases hmem : a.memory with _ | p
      · exact .inl rfl
      · exact .inr (.inr ⟨p, rfl, rfl⟩)

lemma Valid.clear (h : s.Valid) {id : ℕ} (hp : s.ids.idTable id = some p)
    (hfree : s.sched.getHolder p = none) : (s.clear id p).Valid := by
  -- What is still in the table was there before, in an entry other than that of the mutex.
  have hentry : ∀ {id' q}, (s.clear id p).ids.idTable id' = some q →
      id' ≠ id ∧ s.ids.idTable id' = some q := by
    intro id' q hq
    change update s.ids.idTable id none id' = some q at hq
    rw [update_apply] at hq
    split_ifs at hq with hne
    exact ⟨hne, hq⟩
  refine ⟨h.inherits, ⟨h.attended.held, fun {m} hm => ?_⟩, fun {id' q} hq => ?_,
    fun {id₁ id₂ q} h₁ h₂ => h.unique (hentry h₁).2 (hentry h₂).2⟩
  · have hne : m ≠ p := by
      rintro rfl
      exact hm hfree
    exact (mem_erase_of_ne hne).2 (h.attended.holder_known hm)
  · obtain ⟨hne, hq'⟩ := hentry hq
    have hqp : q ≠ p := by
      rintro rfl
      exact hne (h.unique hq' hp)
    exact (mem_erase_of_ne hqp).2 (h.mem_present hq')

lemma Valid.mutexCreate (h : s.Valid) (hp : p ∉ s.present) (id : ℕ) :
    (s.mutexCreate id p).Valid := by
  obtain ⟨-, -, hsched⟩ := h.mutexCreate_sched hp id
  have hentry : ∀ {id' q}, (s.mutexCreate id p).ids.idTable id' = some q →
      id' = id ∧ q = p ∨ id' ≠ id ∧ s.ids.idTable id' = some q := by
    intro id' q hq
    change update s.ids.idTable id (some p) id' = some q at hq
    rw [update_apply] at hq
    split_ifs at hq with hne
    · exact .inl ⟨hne, (Option.some.inj hq).symm⟩
    · exact .inr ⟨hne, hq⟩
  refine ⟨by rw [hsched]; exact h.inherits, ?_, fun {id' q} hq => ?_, fun {id₁ id₂ q} h₁ h₂ => ?_⟩
  · rw [hsched]
    exact ⟨h.attended.held, fun hm => mem_append_left _ (h.attended.holder_known hm)⟩
  · rcases hentry hq with ⟨-, rfl⟩ | ⟨-, hq'⟩
    · exact mem_append_right _ (mem_singleton_self _)
    · exact mem_append_left _ (h.mem_present hq')
  · rcases hentry h₁ with ⟨he₁, hq₁⟩ | ⟨-, hq₁⟩
    · rcases hentry h₂ with ⟨he₂, -⟩ | ⟨-, hq₂⟩
      · rw [he₁, he₂]
      · rw [hq₁] at hq₂
        exact absurd (h.mem_present hq₂) hp
    · rcases hentry h₂ with ⟨-, hq₂⟩ | ⟨-, hq₂⟩
      · rw [hq₂] at hq₁
        exact absurd (h.mem_present hq₁) hp
      · exact h.unique hq₁ hq₂

lemma Valid.step (h : s.Valid) {op : MutexTableOp τ} (hstep : s.step op = some s') : s'.Valid := by
  cases op with
  | sync op =>
    obtain ⟨hadmits, hmap⟩ := ite_none_right_eq_some.1 hstep
    obtain ⟨sched, hsync, rfl⟩ := map_eq_some_iff.1 hmap
    refine ⟨h.inherits.syncStep hsync, ?_, h.mem_present, h.unique⟩
    refine h.attended.syncStep h.inherits (fun m t hop => ?_) (fun m t hop => ?_) hsync
    · subst hop
      exact isSome_iff_ne_none.1 hadmits
    · rcases hop with rfl | rfl <;> exact of_decide_eq_true hadmits
  | control args =>
    obtain ⟨hfresh, ⟨⟩⟩ := ite_none_right_eq_some.1 hstep
    rcases h.mutexControl_cases args with heq | ⟨p, hlookup, hfree, heq⟩ | ⟨p, hmem, heq⟩
    · rwa [heq]
    · rw [heq]
      have hentry := ite_none_right_eq_some.1 (lookup_of_lookupMutex hlookup)
      exact h.clear hentry.2 hfree
    · rw [heq]
      rw [hmem] at hfresh
      exact h.mutexCreate (of_decide_eq_true hfresh) args.id

lemma init_valid (basePrio : τ → Prio) (maxId : ℕ) : (init basePrio maxId).Valid := by
  refine ⟨Sched.init_inherits basePrio, ⟨nofun, fun hm => absurd rfl hm⟩, nofun, nofun⟩

lemma valid_of_run {basePrio : τ → Prio} {maxId : ℕ} {ops : List (MutexTableOp τ)}
    (hrun : run step (init basePrio maxId) ops = some s) : s.Valid :=
  run_invariant (fun _ _ _ h hstep => h.step hstep) (init_valid basePrio maxId) hrun

/-! ## The law -/

/-- The entry is empty when the mutex is to be created: nothing was there, or it has been deleted by
the same call. -/
def Vacant (s : MutexTable τ) (a : MutexArgs τ) : Prop :=
  if a.delete then ∃ p, s.lookupMutex a = some p ∧ s.sched.getHolder p = none
  else s.ids.lookup a.id = none

/-- What a call of `MutexControl` should do. -/
structure ControlLaw (s : MutexTable τ) (a : MutexArgs τ) : Prop where
  /-- A call that fails does nothing. -/
  failure : (s.mutexControl a).2 ≠ none → (s.mutexControl a).1 = s
  /-- A mutex is deleted only when nobody holds it or waits for it. -/
  delete : a.delete = true → (s.mutexControl a).2 = none → ∃ p, s.lookupMutex a = some p ∧
    s.sched.getHolder p = none ∧ s.sched.blocked (.mutex p) = []
  /-- The entry of a mutex that is deleted is empty. -/
  emptied : a.delete = true → a.create = false → (s.mutexControl a).2 = none →
    (s.mutexControl a).1.ids.lookup a.id = none
  /-- If there is memory, an empty entry gets a new mutex, which is in no other entry. -/
  create : a.create = true → a.permitted = true → s.Vacant a → ∀ p, a.memory = some p →
    (s.mutexControl a).2 = none ∧ (∀ id, (s.mutexControl a).1.ids.lookup id = some p ↔ id = a.id) ∧
      (s.mutexControl a).1.sched.getHolder p = none ∧
      (s.mutexControl a).1.sched.blocked (.mutex p) = []
  /-- The other entries stay. -/
  others : ∀ id, id ≠ a.id → (s.mutexControl a).1.ids.lookup id = s.ids.lookup id
  /-- No mutex gets another holder or other waiting threads. -/
  mutexes : (s.mutexControl a).1.sched = s.sched

omit [Fintype τ] in
/-- A call that does nothing meets the law, if it does not claim to have deleted a mutex and should
not have created one. -/
lemma controlLaw_of_unchanged (hsame : (s.mutexControl a).1 = s)
    (hdelete : a.delete = true → (s.mutexControl a).2 ≠ none)
    (hcreate : a.create = true → a.permitted = true → s.Vacant a → a.memory = none) :
    s.ControlLaw a := by
  refine ⟨fun _ => hsame, fun hdel hok => absurd hok (hdelete hdel),
    fun hdel _ hok => absurd hok (hdelete hdel), fun hc hp hv p hmem => ?_,
    fun id _ => by rw [hsame], by rw [hsame]⟩
  rw [hcreate hc hp hv] at hmem
  cases hmem

/-- A deletion alone meets the law. -/
lemma Valid.controlLaw_of_clear (h : s.Valid) (hlookup : s.lookupMutex a = some p)
    (hfree : s.sched.getHolder p = none) (hc : a.create = false)
    (hres : s.mutexControl a = (s.clear a.id p, none)) : s.ControlLaw a := by
  refine ⟨fun herr => ?_, fun _ _ => ?_, fun _ _ _ => ?_, fun hcreate => ?_, fun id hid => ?_,
    by rw [hres]; rfl⟩
  · rw [hres] at herr
    exact absurd rfl herr
  · exact ⟨p, hlookup, hfree, h.attended.blocked_eq_nil h.inherits.wf hfree⟩
  · rw [hres]
    refine (lookup_write_self _ _ _).trans ?_
    split_ifs <;> rfl
  · rw [hc] at hcreate
    cases hcreate
  · rw [hres]
    exact lookup_write_of_ne _ hid _

lemma Valid.controlLaw_of_mutexCreate (h : s.Valid) (hp : p ∉ s.present) (hmem : a.memory = some p)
    (ha : a.delete = false) (hvalid : s.ids.validId a.id = true)
    (hres : s.mutexControl a = (s.mutexCreate a.id p, none)) : s.ControlLaw a := by
  obtain ⟨hfree, hblocked, hsched⟩ := h.mutexCreate_sched hp a.id
  refine ⟨fun herr => ?_, fun hdel => ?_, fun hdel => ?_, fun _ _ _ q hq => ?_,
    fun id hid => ?_, by rw [hres]; exact hsched⟩
  · rw [hres] at herr
    exact absurd rfl herr
  · rw [ha] at hdel
    cases hdel
  · rw [ha] at hdel
    cases hdel
  · rw [hmem] at hq
    cases hq
    rw [hres]
    refine ⟨rfl, fun id => ?_, ?_, ?_⟩
    · by_cases hid : id = a.id
      · subst hid
        refine iff_of_true ?_ rfl
        refine (lookup_write_self _ _ _).trans ?_
        rw [if_pos hvalid]
      · refine iff_of_false (fun hlookup => ?_) hid
        have hold : s.ids.lookup id = some p :=
          (lookup_write_of_ne _ hid _).symm.trans hlookup
        exact hp (h.mem_present (ite_none_right_eq_some.1 hold).2)
    · rw [hsched]
      exact hfree
    · rw [hsched]
      exact hblocked
  · rw [hres]
    exact lookup_write_of_ne _ hid _

/-- With the flag for a deletion, the law is broken when both parts of the call are due. -/
lemma Valid.controlLaw_iff_of_delete (h : s.Valid) (hk : a.caller.kresources = true)
    (ha : a.delete = true) : s.ControlLaw a ↔ ¬ (a.create = true ∧ s.Vacant a) := by
  have hres := h.mutexControl_of_delete hk ha
  have hvacant : s.Vacant a ↔ ∃ p, s.lookupMutex a = some p ∧ s.sched.getHolder p = none := by
    rw [Vacant, if_pos ha]
  have hrefused {e : ErrorCode} (hres : s.mutexControl a = (s, some e)) (hnot : ¬ s.Vacant a) :
      s.ControlLaw a ↔ ¬ (a.create = true ∧ s.Vacant a) := by
    refine iff_of_true ?_ fun hboth => hnot hboth.2
    exact controlLaw_of_unchanged (by rw [hres]) (fun _ => by rw [hres]; exact some_ne_none _)
      fun _ _ hv => absurd hv hnot
  rcases hlookup : s.lookupMutex a with _ | p
  · rw [hlookup] at hres hvacant
    exact hrefused hres (by simp [hvacant])
  · rw [hlookup] at hres hvacant
    dsimp only at hres
    by_cases hfree : s.sched.getHolder p = none
    · rw [if_pos hfree] at hres
      rcases hc : a.create with _ | _
      · refine iff_of_true (h.controlLaw_of_clear hlookup hfree hc ?_) fun hboth => ?_
        · rw [hres, hc]
          rfl
        · cases hboth.1
      · rw [hc, if_pos rfl] at hres
        refine iff_of_false (fun hlaw => ?_) fun hnot =>
          hnot ⟨rfl, hvacant.2 ⟨p, rfl, hfree⟩⟩
        -- The call fails, and the mutex is gone.
        have hsame : s.clear a.id p = s := by
          have hfailure := hlaw.failure (by rw [hres]; exact some_ne_none _)
          rwa [hres] at hfailure
        have hold : s.ids.lookup a.id = some p := lookup_of_lookupMutex hlookup
        rw [← hsame] at hold
        have hnew := (lookup_write_self s.ids a.id none).symm.trans hold
        split_ifs at hnew
    · rw [if_neg hfree] at hres
      exact hrefused hres (by simp [hvacant, hfree])

omit [Fintype τ] in
/-- Without the flag for a deletion, a mutex is created if the entry is empty and there is memory. -/
lemma mutexControl_of_vacant (hc : a.create = true) (hperm : a.permitted = true)
    (ha : a.delete = false) (hv : s.Vacant a) (hmem : a.memory = some p) :
    s.mutexControl a = (s.mutexCreate a.id p, none) := by
  obtain ⟨hk, hvalid⟩ := and_eq_true_iff.1 hperm
  have hlookup : s.lookupMutex a = none := by
    rw [Vacant, if_neg (by rw [ha]; exact false_ne_true)] at hv
    rw [lookupMutex, if_pos hvalid, hv]
  rw [mutexControl_of_not_delete hk ha, hlookup]
  simp [controlCreate, hc, hvalid, hmem]

omit [Fintype τ] in
/-- Without the flag for a deletion, nothing happens if no mutex is due. -/
lemma mutexControl_of_not_vacant (hk : a.caller.kresources = true) (ha : a.delete = false)
    (hnot : a.create = true → a.permitted = true → s.Vacant a → a.memory = none) :
    (s.mutexControl a).1 = s := by
  rw [mutexControl_of_not_delete hk ha, controlCreate]
  split_ifs with hc hvalid hlookup
  · rfl
  · rfl
  · rfl
  · have hperm : a.permitted = true := by
      rw [MutexArgs.permitted, hk, Bool.true_and]
      exact not_eq_false _ ▸ hvalid
    have hv : s.Vacant a := by
      rw [Vacant, if_neg (by rw [ha]; exact false_ne_true)]
      rw [lookupMutex, if_pos (not_eq_false _ ▸ hvalid)] at hlookup
      exact not_not.1 hlookup
    rw [hnot (not_eq_false _ ▸ hc) hperm hv]

/-- Without the flag for a deletion, the law is broken when a mutex is created in an entry that the
table does not have. -/
lemma Valid.controlLaw_iff_of_not_delete (h : s.Valid) (hk : a.caller.kresources = true)
    (ha : a.delete = false) (hfresh : s.isFresh a.memory = true) :
    s.ControlLaw a ↔ (a.create = true → a.permitted = true → s.Vacant a →
      a.memory = none ∨ s.ids.validId a.id = true) := by
  by_cases hnot : a.create = true → a.permitted = true → s.Vacant a → a.memory = none
  · refine iff_of_true ?_ fun hc hperm hv => .inl (hnot hc hperm hv)
    refine controlLaw_of_unchanged (mutexControl_of_not_vacant hk ha hnot) (fun hdel => ?_) hnot
    rw [ha] at hdel
    cases hdel
  · push Not at hnot
    obtain ⟨hc, hperm, hv, hmem⟩ := hnot
    obtain ⟨p, hp⟩ := ne_none_iff_exists'.1 hmem
    have hres := mutexControl_of_vacant hc hperm ha hv hp
    constructor
    · intro hlaw _ _ _
      have hlookup := ((hlaw.create hc hperm hv p hp).2.1 a.id).2 rfl
      rw [hres] at hlookup
      have hself := (lookup_write_self s.ids a.id (some p)).symm.trans hlookup
      exact .inr (ite_none_right_eq_some.1 hself).1
    · intro hcond
      rw [hp] at hfresh
      refine h.controlLaw_of_mutexCreate (of_decide_eq_true hfresh) hp ha ?_ hres
      exact (hcond hc hperm hv).resolve_left hmem

/-- `MutexControl` obeys its law, in every state that locking, unlocking, creating and deleting
mutexes leads to, if and only if the call does not ask for a mutex in an entry that it is to clear
first, or in one that the table does not have. -/
theorem mutexControl_law_iff (basePrio : τ → Prio) (maxId : ℕ) (ops : List (MutexTableOp τ))
    (s : MutexTable τ) (hrun : run step (init basePrio maxId) ops = some s)
    (a : MutexArgs τ) (hfresh : s.isFresh a.memory = true) :
    s.ControlLaw a ↔ (a.create = true → a.permitted = true → s.Vacant a →
      a.delete = false ∧ (a.memory = none ∨ s.ids.validId a.id = true)) := by
  have h : s.Valid := valid_of_run hrun
  rcases hk : a.caller.kresources with _ | _
  · have hperm : a.permitted = false := by rw [MutexArgs.permitted, hk, Bool.false_and]
    have hres := mutexControl_of_unprivileged (s := s) hk
    rw [hperm]
    refine iff_of_true (controlLaw_of_unchanged (by rw [hres]) (fun _ => ?_) fun _ hp => ?_)
      fun _ hp => by cases hp
    · rw [hres]
      exact some_ne_none _
    · rw [hperm] at hp
      cases hp
  · cases ha : a.delete with
    | true =>
      rw [h.controlLaw_iff_of_delete hk ha]
      refine ⟨fun hnot hc _ hv => absurd ⟨hc, hv⟩ hnot, fun hcond ⟨hc, hv⟩ => ?_⟩
      have hperm : a.permitted = true := by
        rw [Vacant, if_pos ha] at hv
        obtain ⟨p, hp, -⟩ := hv
        rw [MutexArgs.permitted, hk, (ite_none_right_eq_some.1 hp).1]
        rfl
      cases (hcond hc hperm hv).1
    | false =>
      rw [h.controlLaw_iff_of_not_delete hk ha hfresh]
      exact ⟨fun hcond hc hperm hv => ⟨rfl, hcond hc hperm hv⟩,
        fun hcond hc hperm hv => (hcond hc hperm hv).2⟩

/-- A privileged space that may use the first four identifiers. -/
def rootSpace : Space where
  spaceId := 0
  clist := 0
  threadCount := 1
  maximumPriority := 255
  kresources := true
  range _ := ⟨0, 4, by decide⟩

/-- A call of the first of two threads, in the root space. -/
def rootCall (id control : ℕ) (memory : Option ℕ) : MutexArgs (Fin 2) :=
  ⟨rootSpace, ⟨0, Nat.two_pos⟩, id, control, memory⟩

/-- A mutex has been created under the identifier 1. -/
def oneMutex : MutexTable (Fin 2) := (init (fun _ => 100) 7).mutexCreate 1 4096

lemma run_oneMutex : run step (init (fun _ => 100) 7)
    [.control (rootCall 1 1 (some 4096))] = some oneMutex := rfl

/-- Another mutex is created under the identifier 2. -/
theorem mutexControl_law_second : oneMutex.ControlLaw (rootCall 2 1 (some 8192)) :=
  (mutexControl_law_iff (fun _ => 100) 7 [.control (rootCall 1 1 (some 4096))] oneMutex
    run_oneMutex (rootCall 2 1 (some 8192)) (by decide)).2
    fun _ _ _ => ⟨by decide, .inr (by decide)⟩

/-- The mutex is to be replaced by a new one. It is deleted, and the call fails as if it was still
there. -/
theorem mutexControl_replace_fails :
    (oneMutex.mutexControl (rootCall 1 3 (some 8192))).2 = some .invalidMutex ∧
      oneMutex.ids.lookup 1 = some 4096 ∧
      (oneMutex.mutexControl (rootCall 1 3 (some 8192))).1.ids.lookup 1 = none ∧
      ¬ oneMutex.ControlLaw (rootCall 1 3 (some 8192)) := by
  have hres : (oneMutex.mutexControl (rootCall 1 3 (some 8192))).2 = some .invalidMutex := by
    decide
  have hnew : (oneMutex.mutexControl (rootCall 1 3 (some 8192))).1.ids.lookup 1 = none := by
    decide
  have hold : oneMutex.ids.lookup 1 = some 4096 := by decide
  refine ⟨hres, hold, hnew, fun hlaw => ?_⟩
  rw [hlaw.failure (by rw [hres]; exact some_ne_none _), hold] at hnew
  cases hnew

end MutexTable

end Okl4Kernel
