import Okl4Kernel.Nano

/-!
# The owners of interrupts

`sys_interrupt.c` of the nanokernel keeps the handler of an interrupt in a table, in the thread and,
for several execution units, in a mask for each priority. But the number of an interrupt may be
negative, and the masks are set neither at first nor when a thread exits. `ownership_iff` says when
they are right all the same, and `represents_syscall` that the tables are those of the nanokernel.
-/

namespace Okl4Kernel.Nano

namespace Ownership

open Function TransitionSystem Option

inductive Errno
  | einval
  | ebusy

/-- The tables. An index of `interruptHandlers` may be outside of the table, and `-1` is for no
interrupt. A mask is given by its bits. `accesses` are the indices that were used, and an interrupt
is `settled` if the masks were set when its handler last changed. -/
structure State where
  interruptHandlers : ℤ → Option Tid
  registeredInterrupt : Tid → ℤ
  priority : Tid → ℕ
  live : Tid → Bool
  priorityIntMask : ℕ → ℤ → Bool
  accesses : List ℤ
  settled : ℤ → Bool

section

variable (numInterrupts : ℕ) (s : State) (current : Tid) (interrupt : ℤ)

/-- The handler of an interrupt is looked up. -/
def access : State := { s with accesses := interrupt :: s.accesses }

/-- `sys_interrupt_register`. -/
def sysInterruptRegister : State × Option Errno :=
  if numInterrupts ≤ interrupt then (s, some .einval)
  else if s.interruptHandlers interrupt ≠ none then (access s interrupt, some .ebusy)
  else if s.registeredInterrupt current ≠ -1 then (access s interrupt, some .ebusy)
  else ({ access s interrupt with
    priorityIntMask := fun i =>
      update (s.priorityIntMask i) interrupt (decide (s.priority current < i))
    interruptHandlers := update s.interruptHandlers interrupt (some current)
    registeredInterrupt := update s.registeredInterrupt current interrupt
    settled := update s.settled interrupt true }, none)

/-- `sys_interrupt_deregister`. -/
def sysInterruptDeregister : State × Option Errno :=
  if numInterrupts ≤ interrupt then (s, some .einval)
  else if s.interruptHandlers interrupt ≠ some current then (access s interrupt, some .einval)
  else ({ access s interrupt with
    priorityIntMask := fun i => update (s.priorityIntMask i) interrupt true
    registeredInterrupt := update s.registeredInterrupt current (-1)
    interruptHandlers := update s.interruptHandlers interrupt none
    settled := update s.settled interrupt true }, none)

/-- `sys_interrupt_wait`, of which the result is that of a call that does not wait. -/
def sysInterruptWait : State × Option Errno :=
  (s, if s.registeredInterrupt current = -1 then some .einval else none)

/-- `sys_interrupt_pre_thread_delete_callback`. -/
def sysInterruptPreThreadDeleteCallback : State :=
  if s.registeredInterrupt current ≠ -1 then
    { access s (s.registeredInterrupt current) with
      interruptHandlers := update s.interruptHandlers (s.registeredInterrupt current) none
      registeredInterrupt := update s.registeredInterrupt current (-1)
      settled := update s.settled (s.registeredInterrupt current) false }
  else s

end

/-- The tables are those of the nanokernel, which has no negative numbers. -/
structure Represents (k : Nanokernel) (s : State) : Prop where
  handlers : ∀ i < k.numInterrupts, s.interruptHandlers i = k.interruptHandlers i
  registered : ∀ t, s.registeredInterrupt t = ((k.registeredInterrupt t).map Int.ofNat).getD (-1)

namespace Represents

variable {k k' : Nanokernel} {s s' : State} (h : Represents k s) {t : Tid} {i : ℕ}
include h

lemma registered_eq : s.registeredInterrupt t = -1 ↔ k.registeredInterrupt t = none := by
  rw [h.registered]
  cases k.registeredInterrupt t <;> simp

/-- One entry of each table is written. -/
lemma write (owner : Option Tid) (number : Option ℕ) (hn : k'.numInterrupts = k.numInterrupts)
    (hk : k'.interruptHandlers = update k.interruptHandlers i owner ∧
      k'.registeredInterrupt = update k.registeredInterrupt t number)
    (hs : s'.interruptHandlers = update s.interruptHandlers i owner ∧
      s'.registeredInterrupt = update s.registeredInterrupt t ((number.map Int.ofNat).getD (-1))) :
    Represents k' s' := by
  refine ⟨fun j hj => ?_, fun u => ?_⟩
  · simp only [hk.1, hs.1, update_apply, Nat.cast_inj, h.handlers j (hn ▸ hj)]
  · rw [hk.2, hs.2, update_apply, update_apply, h.registered u]
    split_ifs <;> rfl

lemma register :
    Represents (k.sysInterruptRegister t i) (sysInterruptRegister k.numInterrupts s t i).1 := by
  simp only [Nanokernel.sysInterruptRegister, sysInterruptRegister, Nat.cast_le, h.registered_eq, ne_eq]
  by_cases hi : k.numInterrupts ≤ i
  · simp only [if_pos hi]
    exact ⟨h.handlers, h.registered⟩
  rw [h.handlers i (by omega), if_neg hi, if_neg hi]
  split_ifs
  · exact h.write (some t) (some i) rfl ⟨rfl, rfl⟩ ⟨rfl, rfl⟩
  · exact ⟨h.handlers, h.registered⟩
  · exact ⟨h.handlers, h.registered⟩

lemma deregister :
    Represents (k.sysInterruptDeregister t i) (sysInterruptDeregister k.numInterrupts s t i).1 := by
  simp only [Nanokernel.sysInterruptDeregister, sysInterruptDeregister, Nat.cast_le, ne_eq]
  by_cases hi : k.numInterrupts ≤ i
  · simp only [if_pos hi]
    exact ⟨h.handlers, h.registered⟩
  rw [h.handlers i (by omega), if_neg hi, if_neg hi]
  split_ifs
  · exact h.write none none rfl ⟨rfl, rfl⟩ ⟨rfl, rfl⟩
  · exact ⟨h.handlers, h.registered⟩

lemma deleteCallback : Represents (k.sysInterruptPreThreadDeleteCallback t)
    (sysInterruptPreThreadDeleteCallback s t) := by
  have hnumber := h.registered t
  unfold Nanokernel.sysInterruptPreThreadDeleteCallback sysInterruptPreThreadDeleteCallback
  rcases hreg : k.registeredInterrupt t with _ | i
  · rw [if_neg (not_not.2 (h.registered_eq.2 hreg))]
    exact h
  · rw [if_pos (h.registered_eq.not.2 (by simp [hreg]))]
    rw [hreg] at hnumber
    rw [hnumber]
    exact h.write none none rfl ⟨rfl, rfl⟩ ⟨rfl, rfl⟩

end Represents

/-- What the calls do to the tables of the nanokernel they do here. -/
theorem represents_syscall {k : Nanokernel} {s : State} (h : Represents k s) (t : Tid) (i : ℕ) :
    Represents (k.syscall t (.interruptRegister i)) (sysInterruptRegister k.numInterrupts s t i).1 ∧
    Represents (k.syscall t (.interruptDeregister i))
      (sysInterruptDeregister k.numInterrupts s t i).1 ∧
    Represents (k.sysInterruptPreThreadDeleteCallback t)
      (sysInterruptPreThreadDeleteCallback s t) :=
  ⟨h.register, h.deregister, h.deleteCallback⟩

/-- A thread makes a call or exits, or an interrupt comes. -/
inductive Op
  | register (tcb : Tid) (interrupt : ℤ)
  | deregister (tcb : Tid) (interrupt : ℤ)
  | wait (tcb : Tid)
  | exit (tcb : Tid)
  | interrupt (number : ℕ)

/-- One step, where the interrupt controller has the interrupts of the table only. -/
def step (numInterrupts : ℕ) (s : State) : Op → Option State
  | .register tcb i => if s.live tcb then some (sysInterruptRegister numInterrupts s tcb i).1 else none
  | .deregister tcb i =>
    if s.live tcb then some (sysInterruptDeregister numInterrupts s tcb i).1 else none
  | .wait tcb => if s.live tcb then some (sysInterruptWait s tcb).1 else none
  | .exit tcb => if s.live tcb then some { sysInterruptPreThreadDeleteCallback s tcb with
      live := update s.live tcb false } else none
  | .interrupt number => if number < numInterrupts then some (access s number) else none

/-- The first state, with whatever is in the memory around the table. -/
def start (numInterrupts : ℕ) (memory : ℤ → Option Tid) (priority : Tid → ℕ) : State where
  interruptHandlers i := if 0 ≤ i ∧ i < numInterrupts then none else memory i
  registeredInterrupt _ := -1
  priority := priority
  live _ := true
  priorityIntMask _ _ := false
  accesses := []
  settled _ := false

/-- Handlers and threads agree, and only entries of the table were used. -/
structure Tables (n : ℕ) (s : State) : Prop where
  handler : ∀ i : ℤ, 0 ≤ i → i < n → ∀ t,
    s.interruptHandlers i = some t ↔ s.registeredInterrupt t = i
  index : ∀ i ∈ s.accesses, 0 ≤ i ∧ i < n

/-- The masks are right, too, for the interrupts that are settled. -/
structure Correct (n : ℕ) (s : State) : Prop extends Tables n s where
  mask : ∀ i : ℤ, 0 ≤ i → i < n → ((∀ p, s.priorityIntMask p i = false ↔
    ∃ t, s.live t ∧ s.registeredInterrupt t = i ∧ p ≤ s.priority t) ↔ s.settled i)

/-- The call is not made with a negative number. -/
def Careful (s : State) : Op → Prop
  | .register tcb i | .deregister tcb i => s.live tcb → 0 ≤ i
  | _ => True

structure Inv (n : ℕ) (s : State) : Prop extends Tables n s where
  registered : ∀ t, s.registeredInterrupt t ≠ -1 → s.live t ∧ 0 ≤ s.registeredInterrupt t ∧
    s.registeredInterrupt t < n ∧ s.settled (s.registeredInterrupt t) ∧
    ∀ p, s.priorityIntMask p (s.registeredInterrupt t) = false ↔ p ≤ s.priority t
  free : ∀ i, s.interruptHandlers i = none → 0 ≤ i → i < n →
    (s.settled i = true → ∀ p, s.priorityIntMask p i = true) ∧
    (s.settled i = false → s.priorityIntMask 0 i = false)

variable {n : ℕ} {s s' : State}

lemma Inv.correct (h : Inv n s) : Correct n s := by
  obtain ⟨htables, hregistered, hfree⟩ := h
  refine ⟨htables, fun i hi hlt => ?_⟩
  have hhandler := htables.handler i hi hlt
  cases howner : s.interruptHandlers i with
  | some t => grind
  | none => grind

lemma Inv.access (h : Inv n s) {i : ℤ} (hi : 0 ≤ i) (hlt : i < n) : Inv n (access s i) :=
  ⟨⟨h.handler, List.forall_mem_cons.2 ⟨⟨hi, hlt⟩, h.index⟩⟩, h.registered, h.free⟩

lemma Inv.step (h : Inv n s) {op : Op} (hstep : step n s op = some s')
    (hop : Careful s op) : Inv n s' := by
  cases op with
  | register t i =>
    obtain ⟨ht, ⟨⟩⟩ := ite_none_right_eq_some.1 hstep
    have hi := hop ht
    unfold sysInterruptRegister
    split_ifs with hrange hfree hnone
    · exact h
    · exact h.access hi (by omega)
    · exact h.access hi (by omega)
    obtain ⟨⟨hhandler, hindex⟩, hregistered, hfree⟩ := h.access hi (by omega)
    dsimp only [Ownership.access] at hhandler hregistered hfree ⊢
    exact ⟨⟨by grind, hindex⟩, by grind, by grind⟩
  | deregister t i =>
    obtain ⟨ht, ⟨⟩⟩ := ite_none_right_eq_some.1 hstep
    have hi := hop ht
    unfold sysInterruptDeregister
    split_ifs with hrange howner
    · exact h
    · exact h.access hi (by omega)
    obtain ⟨⟨hhandler, hindex⟩, hregistered, hfree⟩ := h.access hi (by omega)
    dsimp only [Ownership.access] at hhandler hregistered hfree ⊢
    have howners := hhandler i hi (by omega)
    exact ⟨⟨by grind, hindex⟩, by grind, by grind⟩
  | wait t =>
    obtain ⟨-, ⟨⟩⟩ := ite_none_right_eq_some.1 hstep
    exact h
  | exit t =>
    obtain ⟨-, ⟨⟩⟩ := ite_none_right_eq_some.1 hstep
    unfold sysInterruptPreThreadDeleteCallback
    split_ifs with hnone
    · obtain ⟨-, hi, hlt, -⟩ := h.registered t hnone
      obtain ⟨⟨hhandler, hindex⟩, hregistered, hfree⟩ := h.access hi hlt
      dsimp only [Ownership.access] at hhandler hregistered hfree ⊢
      have howners := hhandler _ hi hlt
      exact ⟨⟨by grind, hindex⟩, by grind, by grind⟩
    · obtain ⟨⟨hhandler, hindex⟩, hregistered, hfree⟩ := h
      exact ⟨⟨hhandler, hindex⟩, by grind, hfree⟩
  | interrupt number =>
    obtain ⟨hnumber, ⟨⟩⟩ := ite_none_right_eq_some.1 hstep
    exact h.access (by omega) (by omega)

/-- The tables are right in all states of a run, and the masks where they are settled, exactly if no
call is made with a negative number. -/
theorem ownership_iff (memory : ℤ → Option Tid) (priority : Tid → ℕ) (ops : List Op) :
    (∀ k s, run (step n) (start n memory priority) (ops.take k) = some s → Correct n s) ↔
      RunMeets (step n) Careful (start n memory priority) ops := by
  have hstart : Inv n (start n memory priority) := by
    refine ⟨⟨?_, ?_⟩, ?_, ?_⟩ <;> grind [start]
  refine runMeets_iff (fun s h => h.correct) ?_ (fun s op s' h => h.step) ?_ hstart ops
  · rintro s (_ | _ | _ | _ | _) hnone <;> grind [step, Careful]
  · rintro s (⟨t, i⟩ | ⟨t, i⟩ | _ | _ | _) s' h hstep hcorrect
    all_goals
      have hindex := hcorrect.index
      grind [step, Careful, sysInterruptRegister, sysInterruptDeregister, access]

/-- A thread that has registered for an interrupt exits, and another one registers for `-1`. -/
theorem not_correct_negative : ∃ s,
    run (step 32) (start 32 (fun _ => none) id) [.register 0 5, .exit 0, .register 1 (-1)] = some s ∧
      s.interruptHandlers 5 = none ∧ s.priorityIntMask 0 5 = false ∧ ¬ Correct 32 s := by
  refine exists_run (Q := fun s => (-1) ∈ s.accesses ∧ s.interruptHandlers 5 = none ∧
    s.priorityIntMask 0 5 = false) (by decide) fun s _ hview => ?_
  exact ⟨hview.2.1, hview.2.2, fun hcorrect => absurd (hcorrect.index _ hview.1).1 (by decide)⟩

end Ownership

end Okl4Kernel.Nano
