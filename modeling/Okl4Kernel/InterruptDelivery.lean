import Okl4Kernel.Interrupts
import Okl4Kernel.Lib.TransitionSystem

/-!
# Delivery of interrupts on the SH7780

An interrupt that is taken for a registered source should be delivered or marked as pending, the
code that is delivered should be one that the handler can acknowledge, and a handler that has
acknowledged all of its codes should have no source that is masked or pending (`Delivers`).

This holds only as long as nothing is delivered. `soc_ack_interrupt` takes the code for an index
and refuses every code that the controller has (`socAckInterrupt_ne_ok`), so that the first delivery
cannot be acknowledged. Sources that share a mask bit disturb each other as well: an interrupt of
one of them, or a thread that unregisters from it, leaves the others masked. `delivers_iff` says
that the runs without such steps are exactly those in which the property holds throughout.
-/

namespace Okl4Kernel.Interrupts

open TransitionSystem WordBitmap Function Option

/-- The interrupt code, what happened in the last operation, and the codes that each thread has been
given and has not acknowledged. -/
structure Ledger (Thread Space : Type*) where
  soc : State Thread Space
  report : Report Thread
  given : Thread → List Word

/-- The operations: an interrupt of the controller, and the calls that threads make. -/
inductive Op (Thread Space : Type*)
  | interrupt (intevt : Word)
  | config (intevt : Word) (handler : Thread) (owner : Space) (action : SocIrqAction)
  | ack (intevt : Word) (handler : Thread)
  | securityControl (intevt : Word) (owner : Space) (control : Word)

variable {Thread Space : Type*}
variable {soc : State Thread Space}

namespace Ledger

/-- Nothing has been taken or delivered. -/
def quiet (l : Ledger Thread Space) (soc : State Thread Space) : Ledger Thread Space :=
  { l with soc := soc, report := ⟨none, none⟩ }

variable [DecidableEq Thread]

/-- Enter what happened, with the code that was delivered. -/
def record (l : Ledger Thread Space) (report : Report Thread) (soc : State Thread Space) :
    Ledger Thread Space where
  soc := soc
  report := report
  given :=
    match report.delivery with
    | none => l.given
    | some d => update l.given d.handler (d.code :: l.given d.handler)

/-- The thread has acknowledged a code. -/
def acknowledge (l : Ledger Thread Space) (handler : Thread) (code : Word) : Ledger Thread Space :=
  { l with given := update l.given handler ((l.given handler).erase code) }

end Ledger

section

variable [DecidableEq Thread]

/-- One operation. The controller raises no source that is masked, and a thread that unregisters
has acknowledged the code of the source. -/
def step [DecidableEq Space] (l : Ledger Thread Space) :
    Op Thread Space → Option (Ledger Thread Space)
  | .interrupt intevt =>
    if (evt2index intevt).any fun i => decide (Masked l.soc i) then none
    else (socHandleInterrupt intevt l.soc).map fun r => l.record r.1 r.2
  | .config intevt handler owner action =>
    (socConfigInterrupt intevt handler owner action l.soc).map fun r =>
      match r, action with
      | .error _, _ => l.quiet l.soc
      | .ok soc, .register _ => l.quiet soc
      | .ok soc, .unregister => (l.acknowledge handler intevt).quiet soc
  | .ack intevt handler =>
    (socAckInterrupt intevt handler l.soc).map fun r =>
      match r with
      | .error _ => l.quiet l.soc
      | .ok (d, soc) => (l.acknowledge handler intevt).record ⟨none, d⟩ soc
  | .securityControl intevt owner control =>
    (socSecurityControlInterrupt intevt owner control l.soc).map fun r =>
      match r with
      | .error _ => l.quiet l.soc
      | .ok soc => l.quiet soc

end

/-- The state after `soc_init` and `init_clocks`, whatever the memory held before. -/
def start (boot : State Thread Space) : Ledger Thread Space where
  soc := unmaskIntevt defaultTimer (initIntc boot)
  report := ⟨none, none⟩
  given := fun _ => []

/-- What the interrupt code promises. -/
structure Delivers [DecidableEq Thread] (l : Ledger Thread Space) : Prop where
  /-- An interrupt that was taken for a registered source has been delivered or is pending. -/
  taken : ∀ i h, l.report.taken = some i → (l.soc.irqMapping i).handler = some h →
    (∃ code, l.report.delivery = some ⟨i, h, code⟩) ∨ Pending l.soc i
  /-- A delivery has stored a code in the UTCB that identifies the source, and
  `soc_ack_interrupt` accepts it. -/
  accepted : ∀ d, l.report.delivery = some d →
    l.soc.platformReserved d.handler = d.code ∧ evt2index d.code = some d.source ∧
      ∃ r, socAckInterrupt d.code d.handler l.soc = some (.ok r)
  /-- A thread that has acknowledged all codes has no source that is masked or pending. -/
  settled : ∀ h, l.given h = [] → ∀ i, (l.soc.irqMapping i).handler = some h →
    ¬ Masked l.soc i ∧ ¬ Pending l.soc i

/-- An operation that reaches no registered source: an interrupt of a source that shares its mask
bit with no registered one, where the timer only has to be unregistered itself, and a thread that
unregisters from a source that is the only registered one with its mask bit. -/
def Undisturbing (l : Ledger Thread Space) : Op Thread Space → Prop
  | .interrupt intevt =>
    intevtMin ≤ intevt → intevt ≤ intevtMax → ∀ i, evt2index intevt = some i → ¬ Masked l.soc i →
      if i = defaultTimer then (l.soc.irqMapping i).handler = none
      else ∀ j, SharesMask i j → (l.soc.irqMapping j).handler = none
  | .config intevt handler owner .unregister =>
    intevtMin ≤ intevt → intevt ≤ intevtMax → ∀ i, evt2index intevt = some i →
      l.soc.irqOwners i = some owner → (l.soc.irqMapping i).handler = some handler →
      ∀ j, j ≠ i → SharesMask i j → (l.soc.irqMapping j).handler = none
  | .config _ _ _ (.register _) => True
  | .ack _ _ => True
  | .securityControl _ _ _ => True

/-- Nothing has been delivered or marked as pending, and no registered source is masked. -/
structure Idle (l : Ledger Thread Space) : Prop where
  taken : ∀ i, l.report.taken = some i → (l.soc.irqMapping i).handler = none
  delivery : l.report.delivery = none
  given : ∀ h, l.given h = []
  pending : ∀ i, ¬ Pending l.soc i
  unmasked : ∀ i h, (l.soc.irqMapping i).handler = some h → ¬ Masked l.soc i

variable {l : Ledger Thread Space}

lemma Idle.delivers [DecidableEq Thread] (hl : Idle l) : Delivers l where
  taken i h htaken hhandler := by
    rw [hl.taken i htaken] at hhandler
    cases hhandler
  accepted d hd := by
    rw [hl.delivery] at hd
    cases hd
  settled h _ i hhandler := ⟨hl.unmasked i h hhandler, hl.pending i⟩

lemma idle_start (boot : State Thread Space) : Idle (start boot) where
  taken i htaken := by cases htaken
  delivery := rfl
  given h := rfl
  pending i hpending := by
    have hword : i.index / 32 < numWords 32 irqs := by cases i <;> decide
    rw [Pending, start, unmaskIntevt_irqPending, bit] at hpending
    dsimp only [initIntc] at hpending
    rw [if_pos hword] at hpending
    simp at hpending
  unmasked i h hhandler := by
    cases hhandler

/-- An idle state stays idle if nothing becomes pending and no registered source is masked. -/
theorem Idle.quiet (hl : Idle l) (hpending : soc.irqPending = l.soc.irqPending)
    (hunmasked : ∀ i h, (soc.irqMapping i).handler = some h → ¬ Masked soc i) :
    Idle (l.quiet soc) where
  taken i htaken := by cases htaken
  delivery := rfl
  given := hl.given
  pending i := by
    rw [Pending, Ledger.quiet, hpending]
    exact hl.pending i
  unmasked := hunmasked

variable [DecidableEq Thread]
variable {i : Irq} {owner : Space} {handler : Thread} {intevt : Word}

/-! ## Interrupts -/

variable {l' : Ledger Thread Space}

/-- What an interrupt does: a code outside the range is ignored, the timer's interrupt goes to the
kernel, and any other one to the handler of the source. -/
theorem interrupt_cases [DecidableEq Space] (h : step l (.interrupt intevt) = some l') :
    (¬ (intevtMin ≤ intevt ∧ intevt ≤ intevtMax) ∧ l' = l.quiet l.soc) ∨
      ∃ i, intevtMin ≤ intevt ∧ intevt ≤ intevtMax ∧ evt2index intevt = some i ∧ ¬ Masked l.soc i ∧
        (i = defaultTimer ∧ l' = { l with report := ⟨some i, none⟩ } ∨
          i ≠ defaultTimer ∧ l' = l.record ⟨some i, (handleIndex intevt i l.soc).1⟩
            (handleIndex intevt i l.soc).2) := by
  obtain ⟨hmask, hmap⟩ := ite_none_left_eq_some.1 h
  obtain ⟨r, hr, rfl⟩ := map_eq_some_iff.1 hmap
  rw [socHandleInterrupt] at hr
  split_ifs at hr with hrange
  · right
    obtain ⟨i, hi, hr⟩ := bind_eq_some_iff.1 hr
    rw [hi, any_some, decide_eq_true_eq] at hmask
    refine ⟨i, hrange.1, hrange.2, hi, hmask, ?_⟩
    split_ifs at hr with htimer
    · cases hr
      exact .inl ⟨htimer, rfl⟩
    · rw [handleIrq, hi, map_some, map_some] at hr
      cases hr
      exact .inr ⟨htimer, rfl⟩
  · cases hr
    exact .inl ⟨hrange, rfl⟩

/-- An interrupt that shares its mask bit with no registered source leaves an idle state idle. -/
theorem Idle.interrupt (hl : Idle l)
    (hfree : ∀ j, SharesMask i j → (l.soc.irqMapping j).handler = none) :
    Idle (l.record ⟨some i, (handleIndex intevt i l.soc).1⟩ (handleIndex intevt i l.soc).2) := by
  rw [handleIndex_of_none (hfree i (.refl i))]
  constructor
  · intro i' htaken
    cases htaken
    rw [Ledger.record, maskIntevt_irqMapping]
    exact hfree i (.refl i)
  · rfl
  · exact hl.given
  · intro j
    rw [Pending, Ledger.record, maskIntevt_irqPending]
    exact hl.pending j
  · intro j h hhandler
    rw [Ledger.record, maskIntevt_irqMapping] at hhandler
    rw [Ledger.record, masked_maskIntevt]
    rintro (hmasked | hshares)
    · exact hl.unmasked j h hhandler hmasked
    · rw [hfree j hshares] at hhandler
      cases hhandler

/-- An interrupt of a source that shares its mask bit with a registered one breaks the promise. -/
theorem Idle.not_delivers_interrupt (hl : Idle l) {j : Irq} (hshares : SharesMask i j) {h : Thread}
    (hhandler : (l.soc.irqMapping j).handler = some h) :
    ¬ Delivers (l.record ⟨some i, (handleIndex intevt i l.soc).1⟩
      (handleIndex intevt i l.soc).2) := by
  intro hdelivers
  rcases hi : (l.soc.irqMapping i).handler with _ | h'
  · -- Nobody handles the source itself; the one that shares its bit is masked.
    rw [handleIndex_of_none hi] at hdelivers
    have hsettled := hdelivers.settled h (hl.given h) j
    rw [Ledger.record, maskIntevt_irqMapping, masked_maskIntevt] at hsettled
    exact (hsettled hhandler).1 (.inr hshares)
  · rcases handleIndex_of_some intevt hi with hdelivery | ⟨hdelivery, hpending⟩
    · obtain ⟨-, -, r, hr⟩ := hdelivers.accepted ⟨i, h', intevt⟩ hdelivery
      exact socAckInterrupt_ne_ok _ _ _ _ hr
    · rw [hdelivery] at hdelivers
      have hsettled := hdelivers.settled h' (hl.given h') i
      rw [Ledger.record, handleIndex_irqMapping] at hsettled
      exact (hsettled hi).2 hpending

/-! ## Calls -/

lemma config_cases [DecidableEq Space] {action : SocIrqAction}
    (h : step l (.config intevt handler owner action) = some l') :
    l' = l.quiet l.soc ∨ ∃ i soc, intevtMin ≤ intevt ∧ intevt ≤ intevtMax ∧
      evt2index intevt = some i ∧ l.soc.irqOwners i = some owner ∧
      ((∃ notifyBit, action = .register notifyBit ∧
          registerIndex i notifyBit handler l.soc = .ok soc ∧ l' = l.quiet soc) ∨
        action = .unregister ∧ unregisterIndex intevt i handler l.soc = .ok soc ∧
          l' = (l.acknowledge handler intevt).quiet soc) := by
  obtain ⟨r, hr, rfl⟩ := map_eq_some_iff.1 h
  rw [socConfigInterrupt] at hr
  split at hr
  · cases hr
    exact .inl rfl
  next hrange =>
  obtain ⟨i, hi, rfl⟩ := map_eq_some_iff.1 hr
  have hmin : intevtMin ≤ intevt := BitVec.not_lt.1 fun hlt => hrange (.inl hlt)
  have hmax : intevt ≤ intevtMax := BitVec.not_lt.1 fun hlt => hrange (.inr hlt)
  split_ifs with howner
  · exact .inl rfl
  rw [ne_eq, not_not] at howner
  cases action with
  | register notifyBit =>
    dsimp only
    cases hreg : registerIndex i notifyBit handler l.soc with
    | error e => exact .inl rfl
    | ok soc =>
      exact .inr ⟨i, soc, hmin, hmax, hi, howner, .inl ⟨notifyBit, rfl, hreg, rfl⟩⟩
  | unregister =>
    cases hreg : unregisterIndex intevt i handler l.soc with
    | error e => exact .inl rfl
    | ok soc => exact .inr ⟨i, soc, hmin, hmax, hi, howner, .inr ⟨rfl, hreg, rfl⟩⟩

/-- A thread that is registered for a source of its space can unregister. -/
theorem step_unregister [DecidableEq Space] (hmin : intevtMin ≤ intevt) (hmax : intevt ≤ intevtMax)
    (hi : evt2index intevt = some i) (howner : l.soc.irqOwners i = some owner)
    (hhandler : (l.soc.irqMapping i).handler = some handler) :
    ∃ soc, unregisterIndex intevt i handler l.soc = .ok soc ∧
      step l (.config intevt handler owner .unregister) =
        some ((l.acknowledge handler intevt).quiet soc) := by
  obtain ⟨soc, hsoc⟩ : ∃ soc, unregisterIndex intevt i handler l.soc = .ok soc := by
    rw [unregisterIndex, if_neg (not_not.2 hhandler)]
    exact ⟨_, rfl⟩
  have hrange : ¬ (intevt < intevtMin ∨ intevtMax < intevt) := by
    rintro (hlt | hlt)
    · exact BitVec.not_lt.2 hmin hlt
    · exact BitVec.not_lt.2 hmax hlt
  refine ⟨soc, hsoc, ?_⟩
  rw [step, socConfigInterrupt, if_neg hrange, hi, map_some, map_some, if_neg (not_not.2 howner)]
  rw [hsoc]

/-- Registering leaves an idle state idle: the source is unmasked. -/
theorem Idle.register (hl : Idle l) {notifyBit : ℕ}
    (h : registerIndex i notifyBit handler l.soc = .ok soc) : Idle (l.quiet soc) := by
  obtain ⟨-, hmapping, hpending, hmasked⟩ := registerIndex_ok h
  refine hl.quiet hpending fun j h' hhandler => ?_
  rw [hmapping] at hhandler
  rw [hmasked]
  rintro ⟨hold, hshares⟩
  by_cases hj : j = i
  · rw [hj] at hshares
    exact hshares (.refl i)
  · rw [update_of_ne hj] at hhandler
    exact hl.unmasked j h' hhandler hold

/-- Acknowledging a code that nobody has been given changes nothing. -/
theorem Idle.acknowledge (hl : Idle l) (handler : Thread) (code : Word) :
    l.acknowledge handler code = l := by
  have hgiven : update l.given handler ((l.given handler).erase code) = l.given := by
    rw [update_eq_self_iff, hl.given, List.erase_nil]
  rw [Ledger.acknowledge, hgiven]

/-- Unregistering leaves an idle state idle if no other registered source shares the mask bit. -/
theorem Idle.unregister (hl : Idle l) (h : unregisterIndex intevt i handler l.soc = .ok soc)
    (hfree : ∀ j, j ≠ i → SharesMask i j → (l.soc.irqMapping j).handler = none) :
    Idle (l.quiet soc) := by
  obtain ⟨-, hmapping, hpending, hmasked⟩ := unregisterIndex_ok h
  refine hl.quiet hpending fun j h' hhandler => ?_
  rw [hmapping] at hhandler
  rw [hmasked]
  have hj : j ≠ i := by
    rintro rfl
    rw [update_self] at hhandler
    cases hhandler
  rw [update_of_ne hj] at hhandler
  rintro (hold | hshares)
  · exact hl.unmasked j h' hhandler hold
  · rw [hfree j hj hshares] at hhandler
    cases hhandler

/-- A call of `soc_ack_interrupt` that returns has been refused. -/
theorem ack_cases [DecidableEq Space] (h : step l (.ack intevt handler) = some l') :
    l' = l.quiet l.soc := by
  obtain ⟨r, hr, rfl⟩ := map_eq_some_iff.1 h
  cases r with
  | error e => rfl
  | ok r => exact absurd hr (socAckInterrupt_ne_ok _ _ _ _)

/-- `soc_security_control_interrupt` only writes the table of owners. -/
theorem securityControl_cases [DecidableEq Space] {control : Word}
    (h : step l (.securityControl intevt owner control) = some l') :
    ∃ owners, l' = l.quiet { l.soc with irqOwners := owners } := by
  obtain ⟨r, hr, rfl⟩ := map_eq_some_iff.1 h
  rw [socSecurityControlInterrupt] at hr
  split at hr
  · cases hr
    exact ⟨_, rfl⟩
  · obtain ⟨i, -, rfl⟩ := map_eq_some_iff.1 hr
    split_ifs <;> exact ⟨_, rfl⟩

/-! ## Runs -/

variable {op : Op Thread Space}

lemma Idle.step [DecidableEq Space] (hl : Idle l) (hstep : step l op = some l')
    (hop : Undisturbing l op) : Idle l' := by
  cases op with
  | interrupt intevt =>
    rcases interrupt_cases hstep with ⟨-, rfl⟩ | ⟨i, hmin, hmax, hi, hmask, hcase⟩
    · exact hl.quiet rfl hl.unmasked
    have hop := hop hmin hmax i hi hmask
    rcases hcase with ⟨htimer, rfl⟩ | ⟨htimer, rfl⟩
    · rw [if_pos htimer] at hop
      refine { hl with taken := fun i' htaken => ?_, delivery := rfl }
      cases htaken
      exact hop
    · rw [if_neg htimer] at hop
      exact hl.interrupt hop
  | config intevt handler owner action =>
    rcases config_cases hstep with rfl | ⟨i, soc, hmin, hmax, hi, howner, hcase⟩
    · exact hl.quiet rfl hl.unmasked
    · rcases hcase with ⟨notifyBit, rfl, hreg, rfl⟩ | ⟨rfl, hreg, rfl⟩
      · exact hl.register hreg
      · rw [hl.acknowledge]
        exact hl.unregister hreg (hop hmin hmax i hi howner (unregisterIndex_ok hreg).1)
  | ack intevt handler =>
    rw [ack_cases hstep]
    exact hl.quiet rfl hl.unmasked
  | securityControl intevt owner control =>
    obtain ⟨owners, rfl⟩ := securityControl_cases hstep
    exact hl.quiet rfl hl.unmasked

/-- An operation on an idle state that keeps the promise is undisturbing. -/
theorem Idle.undisturbing_of_delivers [DecidableEq Space] (hl : Idle l)
    (hstep : Interrupts.step l op = some l') (hdelivers : Delivers l') : Undisturbing l op := by
  cases op with
  | interrupt intevt =>
    intro hmin hmax i hi hmask
    rcases interrupt_cases hstep with ⟨hrange, -⟩ | ⟨i', -, -, hi', -, hcase⟩
    · exact absurd ⟨hmin, hmax⟩ hrange
    obtain rfl : i' = i := Option.some.inj (hi'.symm.trans hi)
    rcases hcase with ⟨htimer, rfl⟩ | ⟨htimer, rfl⟩
    · -- The timer's interrupt is neither delivered nor marked as pending.
      rw [if_pos htimer, eq_none_iff_forall_ne_some]
      intro h hhandler
      rcases hdelivers.taken i' h rfl hhandler with ⟨code, hcode⟩ | hpending
      · cases hcode
      · exact hl.pending i' hpending
    · rw [if_neg htimer]
      intro j hshares
      rw [eq_none_iff_forall_ne_some]
      intro h hhandler
      exact hl.not_delivers_interrupt hshares hhandler hdelivers
  | config intevt handler owner action =>
    cases action with
    | register notifyBit => trivial
    | unregister =>
      intro hmin hmax i hi howner hregistered j hj hshares
      rw [eq_none_iff_forall_ne_some]
      intro h hhandler
      obtain ⟨soc, hok, hunregister⟩ := step_unregister hmin hmax hi howner hregistered
      rw [hunregister, hl.acknowledge, Option.some.injEq] at hstep
      rw [← hstep] at hdelivers
      -- The bit that the two sources share is masked.
      obtain ⟨-, hmapping, -, hmasked⟩ := unregisterIndex_ok hok
      have hsettled := hdelivers.settled h (hl.given h) j
      rw [Ledger.quiet, hmapping, update_of_ne hj, hmasked] at hsettled
      exact (hsettled hhandler).1 (.inr hshares)
  | ack intevt handler => trivial
  | securityControl intevt owner control => trivial

/-- The operations that are not possible are interrupts of masked sources. -/
theorem undisturbing_of_none [DecidableEq Space] (hnone : step l op = none) :
    Undisturbing l op := by
  cases op with
  | interrupt intevt =>
    intro hmin hmax i hi hmask
    have hraised : ¬ (some i).any (fun i => decide (Masked l.soc i)) = true := by
      rw [any_some, decide_eq_true_eq]
      exact hmask
    rw [step, hi, if_neg hraised, socHandleInterrupt, if_pos ⟨hmin, hmax⟩, hi, handleIrq, hi,
      bind_some] at hnone
    split_ifs at hnone <;> cases hnone
  | config intevt handler owner action =>
    cases action with
    | register notifyBit => trivial
    | unregister =>
      intro hmin hmax i hi howner hregistered
      obtain ⟨soc, -, hunregister⟩ := step_unregister hmin hmax hi howner hregistered
      rw [hunregister] at hnone
      cases hnone
  | ack intevt handler => trivial
  | securityControl intevt owner control => trivial

/-- The promise holds throughout a run exactly if no interrupt is taken for a source that shares its
mask bit with a registered one, and no thread unregisters from a source that does. -/
theorem delivers_iff [DecidableEq Space] (boot : State Thread Space)
    (ops : List (Op Thread Space)) :
    (∀ n l, run step (start boot) (ops.take n) = some l → Delivers l) ↔
      RunMeets step Undisturbing (start boot) ops :=
  runMeets_iff (fun _ => Idle.delivers) (fun _ _ => undisturbing_of_none)
    (fun _ _ _ hl hstep hop => hl.step hstep hop)
    (fun _ _ _ hl hstep hdelivers => hl.undisturbing_of_delivers hstep hdelivers)
    (idle_start boot) ops

/-- The memory before the kernel starts, with nothing in it. -/
def emptyBoot : State ℕ ℕ where
  irqMapping _ := ⟨none, 0⟩
  irqOwners _ := none
  irqPending _ := 0
  intmsk0 := 0
  int2mskr := 0
  platformReserved _ := 0
  notifyBits _ := 0

/-- Thread 3 of space 7 registers for the line `IRQ0` and the line interrupts: the thread is given
the code `0x240`, with which it cannot acknowledge the interrupt. -/
theorem irq0_cannot_be_acknowledged :
    ∃ l, run step (start emptyBoot) [.securityControl 0x240#32 7 0,
        .config 0x240#32 3 7 (.register 0), .interrupt 0x240#32] = some l ∧
      l.report.delivery = some ⟨.irq0, 3, 0x240#32⟩ ∧
      socAckInterrupt 0x240#32 3 l.soc = some (.error .invalidParam) ∧ ¬ Delivers l := by
  refine exists_run (Q := fun l => l.report.delivery = some ⟨.irq0, 3, 0x240#32⟩)
    (by decide +kernel) fun l _ hdelivery => ⟨hdelivery, rfl, fun hdelivers => ?_⟩
  obtain ⟨-, -, r, hr⟩ := hdelivers.accepted _ hdelivery
  exact socAckInterrupt_ne_ok _ _ _ _ hr

end Okl4Kernel.Interrupts
