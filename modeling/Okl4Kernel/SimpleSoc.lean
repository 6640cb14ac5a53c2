import Okl4Kernel.Interrupts
import Okl4Kernel.Lib.TransitionSystem

/-!
# The interrupts of a simple platform

`simplesoc.c` is the interrupt code of the platforms that have nothing special. A pending interrupt
stays pending when its handler unregisters or is deleted, the word of a handler is overwritten by an
acknowledgement of another interrupt, and an owner that loses an interrupt keeps its handler.
`correct_of_careful` is about the runs without these. How the platform masks the lines is left out:
an interrupt may come at any time.
-/

namespace Okl4Kernel.SimpleSoc

open WordBitmap Function TransitionSystem Interrupts Option

/-- A notification, with the number of interrupts that had not been reported, and the owner. -/
structure Report (Thread Space : Type) where
  irq : ℕ
  handler : Thread
  unreported : ℕ
  owner : Option Space

/-- The tables, and the words of the UTCBs, which are `none` for `~0`. An interrupt is `unreported`
as often as it has come since it was registered without a notification, and `stored` is the one that
a thread was given and has not acknowledged. -/
structure State (Thread Space : Type) where
  irqMapping : ℕ → Mapping Thread
  irqOwners : ℕ → Option Space
  irqPending : ℕ → Interrupts.Word
  platformReserved : Thread → Option ℕ
  notifyBits : Thread → Interrupts.Word
  unreported : ℕ → ℕ
  stored : Thread → Option ℕ
  reports : List (Report Thread Space)

variable {Thread Space : Type} [DecidableEq Thread] [DecidableEq Space]

/-- The word of a handler is reset if it is the given one. -/
def reset (words : Thread → Option ℕ) (irq : ℕ) (handler : Thread) : Thread → Option ℕ :=
  if words handler = some irq then update words handler none else words

lemma reset_eq_some {words : Thread → Option ℕ} {irq i : ℕ} {handler t : Thread} :
    reset words irq handler t = some i ↔ words t = some i ∧ (t = handler → i ≠ irq) := by
  unfold reset
  split_ifs <;> grind

section

variable (irqs : ℕ) (s : State Thread Space) (irq : ℕ) (handler : Thread)

/-- The word of a handler is written, and it is notified. -/
def deliver : State Thread Space :=
  { s with
    platformReserved := update s.platformReserved handler (some irq)
    notifyBits := update s.notifyBits handler
      (s.notifyBits handler ||| (s.irqMapping irq).notifyMask)
    unreported := update s.unreported irq (s.unreported irq - 1)
    stored := update s.stored handler (s.stored handler <|> some irq)
    reports := ⟨irq, handler, s.unreported irq, s.irqOwners irq⟩ :: s.reports }

/-- `handle_irq`. -/
def handleIrq : State Thread Space :=
  let s := { s with unreported := update s.unreported irq (s.unreported irq + 1) }
  match (s.irqMapping irq).handler with
  | none => s
  | some handler =>
    if s.platformReserved handler ≠ none then { s with irqPending := set s.irqPending irq }
    else deliver s irq handler

/-- The word of a handler is reset because the interrupt is acknowledged. -/
def acknowledge : State Thread Space :=
  { s with
    platformReserved := reset s.platformReserved irq handler
    stored := reset s.stored irq handler }

/-- `soc_config_interrupt`. -/
def socConfigInterrupt (owner : Space) (action : SocIrqAction) :
    Except Interrupts.ErrorCode (State Thread Space) :=
  if irqs ≤ irq then .error .invalidParam
  else if s.irqOwners irq ≠ some owner then .error .invalidParam
  else match action with
  | .register notifyBit =>
    if (s.irqMapping irq).handler ≠ none then .error .invalidParam
    else .ok { s with
      platformReserved := reset s.platformReserved 0 handler
      irqMapping := update s.irqMapping irq ⟨some handler, 1#32 <<< notifyBit⟩
      unreported := update s.unreported irq 0 }
  | .unregister =>
    if (s.irqMapping irq).handler ≠ some handler then .error .invalidParam
    else .ok { acknowledge s irq handler with
      irqMapping := update s.irqMapping irq ⟨none, 0⟩ }

/-- `get_pending_interrupt`. -/
def getPendingInterrupt : Option ℕ :=
  findSuch (fun pend => decide ((s.irqMapping pend).handler = some handler)) irqs
    (numWords 32 irqs * 32) s.irqPending

/-- `soc_ack_interrupt`. -/
def socAckInterrupt : Except Interrupts.ErrorCode (State Thread Space) :=
  if irqs ≤ irq then .error .invalidParam
  else if (s.irqMapping irq).handler ≠ some handler then .error .invalidParam
  else
    let s := acknowledge s irq handler
    match getPendingInterrupt irqs s handler with
    | none => .ok s
    | some pend => .ok (deliver { s with irqPending := clear s.irqPending pend } pend handler)

/-- `soc_security_control_interrupt`. -/
def socSecurityControlInterrupt (owner : Space) (control : Interrupts.Word) :
    Except Interrupts.ErrorCode (State Thread Space) :=
  if irqs ≤ irq then .error .invalidParam
  else if control >>> 16 = 0 then
    if s.irqOwners irq ≠ none then .error .invalidParam
    else .ok { s with irqOwners := update s.irqOwners irq (some owner) }
  else if control >>> 16 = 1 then
    if s.irqOwners irq ≠ some owner then .error .invalidParam
    else .ok { s with irqOwners := update s.irqOwners irq none }
  else .error .invalidParam

/-- The references to a thread that is deleted are removed. A new thread in its place has another
UTCB, which is empty. -/
def deleteThread (thread : Thread) : State Thread Space :=
  { s with
    irqMapping := fun i => if (s.irqMapping i).handler = some thread then
      { s.irqMapping i with handler := none } else s.irqMapping i
    platformReserved := update s.platformReserved thread (some 0)
    stored := update s.stored thread none }

end

/-- An interrupt comes, or the kernel calls the platform. The owner of a handler is its space. -/
inductive Op (Thread Space : Type)
  | interrupt (irq : ℕ)
  | config (irq : ℕ) (handler : Thread) (action : SocIrqAction)
  | ack (irq : ℕ) (handler : Thread)
  | control (irq : ℕ) (owner : Space) (control : Interrupts.Word)
  | delete (thread : Thread)

variable (irqs : ℕ) (space : Thread → Space)

/-- A call that is refused leaves everything as it is. -/
def step (s : State Thread Space) : Op Thread Space → Option (State Thread Space)
  | .interrupt irq => if irq < irqs then some (handleIrq s irq) else none
  | .config irq handler action =>
    some ((socConfigInterrupt irqs s irq handler (space handler) action).toOption.getD s)
  | .ack irq handler => some ((socAckInterrupt irqs s irq handler).toOption.getD s)
  | .control irq owner control =>
    some ((socSecurityControlInterrupt irqs s irq owner control).toOption.getD s)
  | .delete thread => some (deleteThread s thread)

/-- `simplesoc_init`. -/
def init : State Thread Space where
  irqMapping _ := ⟨none, 0⟩
  irqOwners _ := none
  irqPending _ := 0
  platformReserved _ := some 0
  notifyBits _ := 0
  unreported _ := 0
  stored _ := none
  reports := []

/-- Every notification was for an interrupt that had come since it was registered, and of the owner,
and what was stored is still there. -/
structure Correct (s : State Thread Space) : Prop where
  unreported : ∀ r ∈ s.reports, 0 < r.unreported
  owner : ∀ r ∈ s.reports, r.owner = some (space r.handler)
  stored : ∀ t i, s.stored t = some i → s.platformReserved t = some i

/-- An interrupt is registered while it is not pending, and not by a thread whose word says that
interrupt 0 has come. A thread acknowledges what is in its word, if there is something, and an
interrupt is taken away from its owner while it has no handler. -/
def Careful (s : State Thread Space) : Op Thread Space → Prop
  | .config irq handler (.register _) => bit s.irqPending irq = false ∧
    (s.platformReserved handler = some 0 → (s.irqMapping 0).handler ≠ some handler)
  | .ack irq handler => getPendingInterrupt irqs s handler ≠ none →
    s.platformReserved handler = some irq ∨ s.platformReserved handler = none
  | .control irq _ control => control >>> 16 = 1 → (s.irqMapping irq).handler = none
  | _ => True

instance (s : State Thread Space) : (op : Op Thread Space) → Decidable (Careful irqs s op)
  | .config _ _ (.register _) => inferInstanceAs (Decidable (_ ∧ (_ → _)))
  | .ack _ _ | .control _ _ _ => inferInstanceAs (Decidable (_ → _))
  | .interrupt _ | .config _ _ .unregister | .delete _ => instDecidableTrue

structure Inv (s : State Thread Space) : Prop extends Correct space s where
  pending : ∀ i, bit s.irqPending i = true → (s.irqMapping i).handler ≠ none → 0 < s.unreported i
  handler : ∀ t i, s.stored t = some i → (s.irqMapping i).handler = some t
  owned : ∀ i t, (s.irqMapping i).handler = some t → s.irqOwners i = some (space t)

variable {irqs space} {s s' : State Thread Space}

section

omit [DecidableEq Space]

variable (h : Inv space s) {irq : ℕ} {t : Thread}
include h

lemma deliver_inv (ht : (s.irqMapping irq).handler = some t) (hstored : s.stored t = none)
    (hirq : 0 < s.unreported irq) (hbit : bit s.irqPending irq = true → 1 < s.unreported irq) :
    Inv space (deliver s irq t) := by
  obtain ⟨⟨hunreported, howner, hword⟩, hpending, hhandler, howned⟩ := h
  unfold deliver
  exact ⟨⟨by grind, by grind, by grind⟩, by grind, by grind, by grind⟩

omit [DecidableEq Thread] in
/-- A thread whose word is empty has acknowledged everything. -/
lemma stored_eq_none (hword : s.platformReserved t = none) : s.stored t = none := by
  rcases hs : s.stored t with _ | i
  · rfl
  · rw [h.stored t i hs] at hword
    cases hword

lemma handleIrq_inv : Inv space (handleIrq s irq) := by
  obtain ⟨hcorrect, hpending, hhandler, howned⟩ := h
  have hword := hcorrect.stored
  have h' : Inv space { s with unreported := update s.unreported irq (s.unreported irq + 1) } :=
    ⟨⟨hcorrect.1, hcorrect.2, hword⟩, by grind, hhandler, howned⟩
  unfold handleIrq
  dsimp only
  split
  · exact h'
  · split_ifs
    · exact ⟨⟨hcorrect.1, hcorrect.2, hword⟩, by grind [bit_set], hhandler, howned⟩
    · next ht hword =>
      exact deliver_inv h' ht (stored_eq_none h' (not_not.1 hword)) (by grind) (by grind)

lemma acknowledge_inv : Inv space (acknowledge s irq t) := by
  obtain ⟨⟨hunreported, howner, hword⟩, hpending, hhandler, howned⟩ := h
  unfold acknowledge
  exact ⟨⟨hunreported, howner, by grind [reset_eq_some]⟩, hpending, by grind [reset_eq_some],
    howned⟩

/-- The pending interrupt that is delivered has come, and the word is empty by then. -/
lemma socAckInterrupt_inv (hop : Careful irqs s (.ack irq t))
    (hstep : socAckInterrupt irqs s irq t = .ok s') : Inv space s' := by
  simp only [socAckInterrupt] at hstep
  split_ifs at hstep with hirq ht
  have h' : Inv space (acknowledge s irq t) := acknowledge_inv h
  split at hstep
  · cases hstep
    exact h'
  next pend hpend =>
  cases hstep
  have hword : reset s.platformReserved irq t t = none := by
    have hop := hop (ne_none_iff_exists'.2 ⟨pend, hpend⟩)
    refine eq_none_iff_forall_ne_some.2 fun i hi => ?_
    grind [reset_eq_some]
  obtain ⟨hbit, ht⟩ := findSuch_some (by decide) hpend
  refine deliver_inv (s := { acknowledge s irq t with irqPending := clear s.irqPending pend })
    { h' with pending := ?_ } (of_decide_eq_true ht)
    (stored_eq_none h' hword) (h'.pending pend hbit (by grind)) ?_
  · intro i hi
    rw [bit_clear _ (by decide), Bool.and_eq_true] at hi
    exact h'.pending i hi.1
  · intro hi
    simp [bit_clear] at hi

end

omit [DecidableEq Thread] [DecidableEq Space] in
lemma getD_inv (h : Inv space s) {r : Except Interrupts.ErrorCode (State Thread Space)}
    (hr : ∀ s', r = .ok s' → Inv space s') : Inv space (r.toOption.getD s) := by
  cases r with
  | error e => exact h
  | ok s' => exact hr s' rfl

lemma step_inv (h : Inv space s) {op : Op Thread Space} (hop : Careful irqs s op)
    (hstep : step irqs space s op = some s') : Inv space s' := by
  cases op with
  | interrupt irq =>
    obtain ⟨-, ⟨⟩⟩ := ite_none_right_eq_some.1 hstep
    exact handleIrq_inv h
  | config irq t action =>
    cases hstep
    refine getD_inv h fun s' hstep => ?_
    obtain ⟨⟨hunreported, hcorrect, hword⟩, hpending, hhandler, howned⟩ := h
    cases action with
    | register notifyBit =>
      obtain ⟨hbit, hzero⟩ := hop
      simp only [socConfigInterrupt] at hstep
      split_ifs at hstep with hirq howner hnone
      cases hstep
      exact ⟨⟨hunreported, hcorrect, by grind [reset_eq_some]⟩, by grind, by grind, by grind⟩
    | unregister =>
      simp only [socConfigInterrupt, acknowledge] at hstep
      split_ifs at hstep with hirq howner ht
      cases hstep
      exact ⟨⟨hunreported, hcorrect, by grind [reset_eq_some]⟩, by grind,
        by grind [reset_eq_some], by grind⟩
  | ack irq t =>
    cases hstep
    exact getD_inv h fun s' => socAckInterrupt_inv h hop
  | control irq owner control =>
    cases hstep
    refine getD_inv h fun s' hstep => ?_
    unfold socSecurityControlInterrupt at hstep
    obtain ⟨hcorrect, hpending, hhandler, howned⟩ := h
    split_ifs at hstep <;> cases hstep
    · exact ⟨{ hcorrect with }, hpending, hhandler, by grind⟩
    · exact ⟨{ hcorrect with }, hpending, hhandler, by grind [Careful]⟩
  | delete t =>
    cases hstep
    obtain ⟨⟨hunreported, hcorrect, hword⟩, hpending, hhandler, howned⟩ := h
    unfold deleteThread
    exact ⟨⟨hunreported, hcorrect, by grind⟩, by grind, by grind, by grind⟩

/-- In a careful run, a thread is notified only of interrupts that have come since it was registered
for them and that its space owns, and a stored interrupt stays until it is acknowledged. -/
theorem correct_of_careful {ops : List (Op Thread Space)}
    (hops : RunMeets (step irqs space) (Careful irqs) init ops)
    (hrun : run (step irqs space) init ops = some s) : Correct space s := by
  have hinit : Inv space (init : State Thread Space) := by
    refine ⟨⟨?_, ?_, ?_⟩, ?_, ?_, ?_⟩ <;> simp [init, bit]
  exact (hops.invariant (fun s op s' h => step_inv h) hinit hrun).toCorrect

theorem correct_of_careful_ack : ∃ s : State ℕ ℕ,
    run (step 32 id) init [.control 3 0 0, .config 3 0 (.register 1), .interrupt 3, .ack 3 0] =
      some s ∧ s.reports ≠ [] ∧ Correct id s := by
  refine exists_run (Q := fun s => s.reports ≠ []) (by decide +kernel) fun s hrun hreports => ?_
  exact ⟨hreports, correct_of_careful (by decide +kernel) hrun⟩

/-- Interrupt 3 comes while interrupt 4 has not been acknowledged. Then it is registered again, and
reported when the other one is acknowledged. -/
theorem not_correct_stale : ∃ s : State ℕ ℕ,
    run (step 32 id) init [.control 3 0 0, .control 4 0 0, .config 3 0 (.register 1),
      .config 4 0 (.register 2), .interrupt 4, .interrupt 3, .config 3 0 .unregister,
      .config 3 0 (.register 1), .ack 4 0] = some s ∧ ¬ Correct id s := by
  refine exists_run (Q := fun s => s.reports.any (·.unreported = 0)) (by decide +kernel) ?_
  intro s _ hany hcorrect
  obtain ⟨r, hr, hzero⟩ := List.any_eq_true.1 hany
  exact (hcorrect.unreported r hr).ne' (of_decide_eq_true hzero)

end Okl4Kernel.SimpleSoc
