import Okl4Kernel.Lib.WordBitmap

/-!
# Interrupts on the SH7780

The interrupt controller of the SH7780 reports an interrupt by a code in the register `INTEVT`,
which the kernel translates to an index of its own (`evt2index`). A source is masked by writing its
bit to a mask register and unmasked by writing the bit to the clear register that belongs to it; the
external lines have one register and the on-chip modules another, and the sources of one module
share a bit.

A thread registers for a source if its space owns it. When the source interrupts, it is masked, and
the code is stored in a word of the handler's UTCB unless that word still holds a code; then the
source is marked as pending. `soc_ack_interrupt` clears the word, unmasks the source and takes a
pending source of the handler, if there is one.

The arrays are functions here, except for the bitmap of pending sources. A read outside the table
of codes has no defined result, and such calls are `none`. What the controller's priority registers
hold, and whether `kernel_deliver_notify` wakes the handler up, does not matter for what follows and
is left out.
-/

namespace Okl4Kernel.Interrupts

open WordBitmap Function BitVec

/-- A `word_t`. -/
abbrev Word := BitVec 32

/-- `intevt_e`, the sources under the numbers that the kernel uses for them. -/
inductive Irq
  | irq0 | irq1 | irq2 | irq3 | irq4 | irq5 | irq6 | irq7 | rtcAti | rtcPri | rtcCui | wdt | tmu0
  | tmu1 | tmu2 | tmu2Ticpi | hudi | dmac0Dmint0 | dmac0Dmint1 | dmac0Dmint2 | dmac0Dmint3
  | dmac0Dmae | scif0Eri | scif0Rxi | scif0Bri | scif0Txi | dmac0Dmint4 | dmac0Dmint5
  | dmac1Dmint6 | dmac1Dmint7 | cmt | hac | pciserr | pciinta | pciintb | pciintc | pciintd
  | pcierr | pcipwd3 | pcipwd2 | pcipwd1 | pcipwd0 | scif1Eri | scif1Rxi | scif1Bri | scif1Txi
  | siof | hspi | mmcifFstat | mmcifTran | mmcifErr | mmcifFrdy | dmac1Dmint8 | dmac1Dmint9
  | dmac1Dmint10 | dmac1Dmint11 | tmu3 | tmu4 | tmu5 | ssi | flste | fltend | fltrq0 | fltrq1
  | gpio0 | gpio1 | gpio2 | gpio3
  deriving DecidableEq, Repr

/-- The sources in the order of their numbers. -/
def Irq.all : List Irq :=
  [.irq0, .irq1, .irq2, .irq3, .irq4, .irq5, .irq6, .irq7, .rtcAti, .rtcPri, .rtcCui, .wdt,
   .tmu0, .tmu1, .tmu2, .tmu2Ticpi, .hudi, .dmac0Dmint0, .dmac0Dmint1, .dmac0Dmint2,
   .dmac0Dmint3, .dmac0Dmae, .scif0Eri, .scif0Rxi, .scif0Bri, .scif0Txi, .dmac0Dmint4,
   .dmac0Dmint5, .dmac1Dmint6, .dmac1Dmint7, .cmt, .hac, .pciserr, .pciinta, .pciintb, .pciintc,
   .pciintd, .pcierr, .pcipwd3, .pcipwd2, .pcipwd1, .pcipwd0, .scif1Eri, .scif1Rxi, .scif1Bri,
   .scif1Txi, .siof, .hspi, .mmcifFstat, .mmcifTran, .mmcifErr, .mmcifFrdy, .dmac1Dmint8,
   .dmac1Dmint9, .dmac1Dmint10, .dmac1Dmint11, .tmu3, .tmu4, .tmu5, .ssi, .flste, .fltend,
   .fltrq0, .fltrq1, .gpio0, .gpio1, .gpio2, .gpio3]

/-- The number of a source. -/
def Irq.index (i : Irq) : ℕ := Irq.all.idxOf i

/-- `IRQS`. -/
def irqs : ℕ := 68

/-- `INTEVT_MIN`. -/
def intevtMin : Word := 0x200#32

/-- `INTEVT_MAX`. -/
def intevtMax : Word := 0xFE0#32

/-- `DEFAULT_TIMER`, the source that the kernel uses for its own timer. -/
def defaultTimer : Irq := .tmu2

/-- The codes from `INTEVT_MIN` on, in steps of 32. The codes that no source has are given as
`IRQ0`, because the table has a zero there. -/
def evttbl : List Irq :=
  [.irq7, .irq0, .irq0, .irq0, .irq1, .irq0, .irq2, .irq0, .irq3, .irq0, .irq4, .irq0, .irq5,
   .irq0, .irq6, .irq0, .irq0, .irq0, .irq0, .irq0, .rtcAti, .rtcPri, .rtcCui, .irq0, .irq0,
   .irq0, .irq0, .wdt, .tmu0, .tmu1, .tmu2, .tmu2Ticpi, .hudi, .irq0, .dmac0Dmint0, .dmac0Dmint1,
   .dmac0Dmint2, .dmac0Dmint3, .dmac0Dmae, .irq0, .scif0Eri, .scif0Rxi, .scif0Bri, .scif0Txi,
   .dmac0Dmint4, .dmac0Dmint5, .dmac1Dmint6, .dmac1Dmint7, .irq0, .irq0, .irq0, .irq0, .irq0,
   .irq0, .irq0, .irq0, .cmt, .irq0, .irq0, .irq0, .hac, .irq0, .irq0, .irq0, .pciserr, .pciinta,
   .pciintb, .pciintc, .pciintd, .pcierr, .pcipwd3, .pcipwd2, .pcipwd1, .pcipwd0, .irq0, .irq0,
   .scif1Eri, .scif1Rxi, .scif1Bri, .scif1Txi, .siof, .irq0, .irq0, .irq0, .hspi, .irq0, .irq0,
   .irq0, .mmcifFstat, .mmcifTran, .mmcifErr, .mmcifFrdy, .dmac1Dmint8, .dmac1Dmint9,
   .dmac1Dmint10, .dmac1Dmint11, .tmu3, .tmu4, .tmu5, .irq0, .ssi, .irq0, .irq0, .irq0, .flste,
   .fltend, .fltrq0, .fltrq1, .gpio0, .gpio1, .gpio2, .gpio3]

/-- The `mask` of `intc_util`. -/
def Irq.mask : Irq → Word
  | .irq0 => 0x80000000#32
  | .irq1 => 0x40000000#32
  | .irq2 => 0x20000000#32
  | .irq3 => 0x10000000#32
  | .irq4 => 0x08000000#32
  | .irq5 => 0x04000000#32
  | .irq6 => 0x02000000#32
  | .irq7 => 0x01000000#32
  | .rtcAti | .rtcPri | .rtcCui => 0x00000004#32
  | .wdt => 0x00000020#32
  | .tmu0 | .tmu1 | .tmu2 | .tmu2Ticpi => 0x00000001#32
  | .hudi => 0x00000080#32
  | .dmac0Dmint0 | .dmac0Dmint1 | .dmac0Dmint2 | .dmac0Dmint3 | .dmac0Dmae => 0x00000100#32
  | .scif0Eri | .scif0Rxi | .scif0Bri | .scif0Txi => 0x00000008#32
  | .dmac0Dmint4 | .dmac0Dmint5 | .dmac1Dmint6 | .dmac1Dmint7 => 0x00000100#32
  | .cmt => 0x00001000#32
  | .hac => 0x00002000#32
  | .pciserr => 0x00004000#32
  | .pciinta => 0x00008000#32
  | .pciintb => 0x00010000#32
  | .pciintc => 0x00020000#32
  | .pciintd => 0x00040000#32
  | .pcierr | .pcipwd3 | .pcipwd2 | .pcipwd1 | .pcipwd0 => 0x00080000#32
  | .scif1Eri | .scif1Rxi | .scif1Bri | .scif1Txi => 0x00000010#32
  | .siof => 0x00100000#32
  | .hspi => 0x00200000#32
  | .mmcifFstat | .mmcifTran | .mmcifErr | .mmcifFrdy => 0x00400000#32
  | .dmac1Dmint8 | .dmac1Dmint9 | .dmac1Dmint10 | .dmac1Dmint11 => 0x00000200#32
  | .tmu3 | .tmu4 | .tmu5 => 0x00000002#32
  | .ssi => 0x00800000#32
  | .flste | .fltend | .fltrq0 | .fltrq1 => 0x01000000#32
  | .gpio0 | .gpio1 | .gpio2 | .gpio3 => 0x02000000#32

/-- An `irq_mapping_t`. -/
structure Mapping (Thread : Type*) where
  handler : Option Thread
  notifyMask : Word

/-- The tables of the interrupt code, the mask registers, and the words of the threads that the
interrupt code writes. -/
structure State (Thread Space : Type*) where
  irqMapping : Irq → Mapping Thread
  irqOwners : Irq → Option Space
  irqPending : ℕ → Word
  /-- `INTMSK0`, the mask register of the external lines. -/
  intmsk0 : Word
  /-- `INT2MSKR`, the mask register of the on-chip modules. -/
  int2mskr : Word
  /-- `platform_reserved[0]` of the UTCB of a thread. -/
  platformReserved : Thread → Word
  /-- The notify bits of a thread. -/
  notifyBits : Thread → Word

/-- A code that has been stored in the UTCB of a handler. -/
structure Delivery (Thread : Type*) where
  source : Irq
  handler : Thread
  code : Word
  deriving DecidableEq

/-- The error codes of the interrupt code. -/
inductive ErrorCode
  | invalidParam
  deriving DecidableEq

variable {Thread Space : Type*}

/-! ## The controller -/

/-- `evt2index`. -/
def evt2index (intevt : Word) : Option Irq := evttbl[((intevt - intevtMin) >>> 5).toNat]?

variable (i : Irq)

/-- Whether the source is one of the on-chip modules, which have their own mask register. -/
def Irq.isModule : Bool := decide (i.index > Irq.irq7.index)

/-- `mask_intevt`. Writing a bit to a mask register sets it. -/
def maskIntevt (index : Irq) (s : State Thread Space) : State Thread Space :=
  if index.isModule then { s with int2mskr := s.int2mskr ||| index.mask }
  else { s with intmsk0 := s.intmsk0 ||| index.mask }

/-- `unmask_intevt`. Writing a bit to `INT2MSKCR` or `INTMSKCLR0` clears it in the mask
register. -/
def unmaskIntevt (index : Irq) (s : State Thread Space) : State Thread Space :=
  if index.isModule then { s with int2mskr := s.int2mskr &&& ~~~index.mask }
  else { s with intmsk0 := s.intmsk0 &&& ~~~index.mask }

variable (s : State Thread Space)

/-- The controller does not raise an interrupt of a source whose bit is set in its mask
register. -/
def Masked (i : Irq) : Prop :=
  (if i.isModule then s.int2mskr else s.intmsk0) &&& i.mask ≠ 0

instance (s : State Thread Space) (i : Irq) : Decidable (Masked s i) :=
  inferInstanceAs (Decidable (_ ≠ _))

/-- Whether the source is marked as pending. -/
def Pending (i : Irq) : Prop := bit s.irqPending i.index = true

/-- `init_intc`. Its loop also writes the entry after the last one of `irq_mapping`, which is outside
the array. -/
def initIntc : State Thread Space :=
  { s with
    intmsk0 := s.intmsk0 ||| 0xFF000000#32
    int2mskr := s.int2mskr ||| 0x03FFF3BF#32
    irqMapping := fun i => { s.irqMapping i with handler := none }
    irqPending := fun i => if i < numWords 32 irqs then 0 else s.irqPending i }

/-- Two sources are masked and unmasked together if they have the same bit of the same register. -/
def SharesMask (i j : Irq) : Prop := i.isModule = j.isModule ∧ i.mask = j.mask

lemma SharesMask.refl : SharesMask i i := ⟨rfl, rfl⟩

/-- The number of the bit that masks a source. -/
def Irq.maskBit : ℕ := i.mask.toNat.log2

lemma Irq.mask_eq_twoPow : i.mask = twoPow 32 i.maskBit := by
  cases i <;> rfl

lemma Irq.maskBit_lt : i.maskBit < 32 := by
  cases i <;> decide

lemma Irq.getLsbD_mask (i j : Irq) : i.mask.getLsbD j.maskBit = decide (i.mask = j.mask) := by
  by_cases hmask : i.mask = j.mask
  · rw [Irq.mask_eq_twoPow i, getLsbD_twoPow, ← Irq.mask_eq_twoPow i, Irq.maskBit, hmask,
      ← Irq.maskBit]
    simp [Irq.maskBit_lt]
  · have hbit : i.maskBit ≠ j.maskBit := by
      intro hbit
      rw [Irq.mask_eq_twoPow i, Irq.mask_eq_twoPow j, hbit] at hmask
      exact hmask rfl
    rw [Irq.mask_eq_twoPow i, getLsbD_twoPow, ← Irq.mask_eq_twoPow i]
    simp [hmask, hbit]

lemma masked_iff_getLsbD (i : Irq) :
    Masked s i ↔ (if i.isModule then s.int2mskr else s.intmsk0).getLsbD i.maskBit = true := by
  rw [Masked, Irq.mask_eq_twoPow, and_twoPow]
  have hne : twoPow 32 i.maskBit ≠ 0#32 := by
    cases i <;> decide
  split_ifs <;> simp_all

/-- Masking a source masks those that share its bit, and leaves the others as they are. -/
theorem masked_maskIntevt (i j : Irq) :
    Masked (maskIntevt i s) j ↔ Masked s j ∨ SharesMask i j := by
  rw [masked_iff_getLsbD, masked_iff_getLsbD, maskIntevt, SharesMask]
  cases hi : i.isModule <;> cases hj : j.isModule <;> simp [Irq.getLsbD_mask]

/-- Unmasking a source unmasks those that share its bit, and leaves the others as they are. -/
theorem masked_unmaskIntevt (i j : Irq) :
    Masked (unmaskIntevt i s) j ↔ Masked s j ∧ ¬ SharesMask i j := by
  rw [masked_iff_getLsbD, masked_iff_getLsbD, unmaskIntevt, SharesMask]
  have hclear (r : Word) : (r &&& ~~~i.mask).getLsbD j.maskBit =
      (r.getLsbD j.maskBit && !decide (i.mask = j.mask)) := by
    rw [getLsbD_and, getLsbD_not, Irq.getLsbD_mask]
    simp [Irq.maskBit_lt]
  cases hi : i.isModule <;> cases hj : j.isModule <;> simp [hclear, -getLsbD_and]

@[simp] lemma maskIntevt_irqMapping : (maskIntevt i s).irqMapping = s.irqMapping := by
  rw [maskIntevt]
  split <;> rfl

@[simp] lemma maskIntevt_irqPending : (maskIntevt i s).irqPending = s.irqPending := by
  rw [maskIntevt]
  split <;> rfl

@[simp] lemma unmaskIntevt_irqMapping : (unmaskIntevt i s).irqMapping = s.irqMapping := by
  rw [unmaskIntevt]
  split <;> rfl

@[simp] lemma unmaskIntevt_irqPending : (unmaskIntevt i s).irqPending = s.irqPending := by
  rw [unmaskIntevt]
  split <;> rfl

variable {intevt : Word}

/-- A code below `IRQS` is not in the table: the index wraps around. -/
theorem evt2index_of_lt (hlt : ¬ BitVec.ofNat 32 irqs ≤ intevt) : evt2index intevt = none := by
  have hnat : intevt.toNat < 68 := Nat.lt_of_not_le hlt
  have hminNat : intevtMin.toNat = 512 := rfl
  have hlength : evttbl.length = 112 := rfl
  rw [evt2index, List.getElem?_eq_none_iff, hlength, toNat_ushiftRight, toNat_sub,
    Nat.shiftRight_eq_div_pow]
  omega

/-! ## The interrupt handler -/

variable [DecidableEq Thread]
variable {handler : Thread}

/-- Store a code in the UTCB of a thread. -/
def setReserved (handler : Thread) (code : Word) (s : State Thread Space) : State Thread Space :=
  { s with platformReserved := update s.platformReserved handler code }

/-- `kernel_deliver_notify`, which adds the bits to those of the thread. -/
def kernelDeliverNotify (handler : Thread) (notifybits : Word) (s : State Thread Space) :
    State Thread Space :=
  { s with
    notifyBits := update s.notifyBits handler (s.notifyBits handler ||| notifybits) }

/-- `handle_irq` for a source that has been found in the table. -/
def handleIndex (intevt : Word) (index : Irq) (s : State Thread Space) :
    Option (Delivery Thread) × State Thread Space :=
  let s := maskIntevt index s
  match (s.irqMapping index).handler with
  | none => (none, s)
  | some handler =>
    if s.platformReserved handler ≠ allOnes 32 then
      (none, { s with irqPending := set s.irqPending index.index })
    else
      (some ⟨index, handler, intevt⟩,
        kernelDeliverNotify handler (s.irqMapping index).notifyMask (setReserved handler intevt s))

variable {index : Irq} {s : State Thread Space}

/-- An interrupt that nobody has registered for only masks the source. -/
theorem handleIndex_of_none (h : (s.irqMapping index).handler = none) :
    handleIndex intevt index s = (none, maskIntevt index s) := by
  rw [handleIndex, maskIntevt_irqMapping, h]

/-- An interrupt that a thread has registered for is delivered to it or marked as pending. -/
theorem handleIndex_of_some (intevt : Word) (h : (s.irqMapping index).handler = some handler) :
    (handleIndex intevt index s).1 = some ⟨index, handler, intevt⟩ ∨
      (handleIndex intevt index s).1 = none ∧ Pending (handleIndex intevt index s).2 index := by
  rw [handleIndex, maskIntevt_irqMapping, h]
  dsimp only
  split
  · right
    rw [Pending, bit_set _ (by decide)]
    simp
  · exact .inl rfl

@[simp] lemma handleIndex_irqMapping (intevt : Word) (index : Irq) (s : State Thread Space) :
    (handleIndex intevt index s).2.irqMapping = s.irqMapping := by
  rw [handleIndex]
  split
  · exact maskIntevt_irqMapping index s
  · split <;> exact maskIntevt_irqMapping index s

/-- `handle_irq`. -/
def handleIrq (intevt : Word) (s : State Thread Space) :
    Option (Option (Delivery Thread) × State Thread Space) :=
  (evt2index intevt).map fun index => handleIndex intevt index s

/-- What happened: the source whose interrupt was taken, and the code that was stored. -/
structure Report (Thread : Type*) where
  taken : Option Irq
  delivery : Option (Delivery Thread)

/-- `soc_handle_interrupt`. The timer's handler does not return to it. -/
def socHandleInterrupt (intevt : Word) (s : State Thread Space) :
    Option (Report Thread × State Thread Space) :=
  if intevtMin ≤ intevt ∧ intevt ≤ intevtMax then
    (evt2index intevt).bind fun index =>
      if index = defaultTimer then some (⟨some index, none⟩, s)
      else (handleIrq intevt s).map fun r => (⟨some index, r.1⟩, r.2)
  else some (⟨none, none⟩, s)

/-! ## Registering and acknowledging -/

/-- `soc_config_interrupt` with `soc_irq_register`, for a source that has been found in the
table. -/
def registerIndex (index : Irq) (notifyBit : ℕ) (handler : Thread) (s : State Thread Space) :
    Except ErrorCode (State Thread Space) :=
  if (s.irqMapping index).handler.isSome then .error .invalidParam
  else
    let s := if s.platformReserved handler = 0 then setReserved handler (allOnes 32) s else s
    .ok (unmaskIntevt index
      { s with irqMapping := update s.irqMapping index ⟨some handler, 1#32 <<< notifyBit⟩ })

/-- `soc_config_interrupt` with `soc_irq_unregister`, for a source that has been found in the
table. -/
def unregisterIndex (intevt : Word) (index : Irq) (handler : Thread) (s : State Thread Space) :
    Except ErrorCode (State Thread Space) :=
  if (s.irqMapping index).handler ≠ some handler then .error .invalidParam
  else
    let s := if s.platformReserved handler = intevt then
      setReserved handler (allOnes 32) s else s
    .ok (maskIntevt index
      { s with irqMapping := update s.irqMapping index ⟨none, 0⟩ })

/-- A source that is registered was free; it is unmasked together with those that share its bit. -/
theorem registerIndex_ok {notifyBit : ℕ} {s' : State Thread Space}
    (h : registerIndex index notifyBit handler s = .ok s') : (s.irqMapping index).handler = none ∧
      s'.irqMapping = update s.irqMapping index ⟨some handler, 1#32 <<< notifyBit⟩ ∧
      s'.irqPending = s.irqPending ∧ ∀ j, Masked s' j ↔ Masked s j ∧ ¬ SharesMask index j := by
  rw [registerIndex] at h
  split at h
  · cases h
  next hfree =>
  cases h
  refine ⟨Option.not_isSome_iff_eq_none.1 hfree, ?_, ?_, fun j => ?_⟩
  · rw [unmaskIntevt_irqMapping]
    split <;> rfl
  · rw [unmaskIntevt_irqPending]
    dsimp only
    split <;> rfl
  · rw [masked_unmaskIntevt]
    split <;> exact Iff.rfl

/-- A source that is unregistered was registered to the thread; it is masked together with those
that share its bit. -/
theorem unregisterIndex_ok {s' : State Thread Space}
    (h : unregisterIndex intevt index handler s = .ok s') :
    (s.irqMapping index).handler = some handler ∧
      s'.irqMapping = update s.irqMapping index ⟨none, 0⟩ ∧
      s'.irqPending = s.irqPending ∧ ∀ j, Masked s' j ↔ Masked s j ∨ SharesMask index j := by
  rw [unregisterIndex] at h
  split at h
  · cases h
  next hhandler =>
  cases h
  refine ⟨not_not.1 hhandler, ?_, ?_, fun j => ?_⟩
  · rw [maskIntevt_irqMapping]
    split <;> rfl
  · rw [maskIntevt_irqPending]
    dsimp only
    split <;> rfl
  · rw [masked_maskIntevt]
    split <;> exact Iff.rfl

/-- `soc_irq_action_e`, with the notify bit that is only used to register. -/
inductive SocIrqAction
  | register (notifyBit : ℕ)
  | unregister
  deriving DecidableEq

/-- `soc_config_interrupt`. -/
def socConfigInterrupt [DecidableEq Space] (intevt : Word) (handler : Thread) (owner : Space)
    (action : SocIrqAction) (s : State Thread Space) : Option (Except ErrorCode (State Thread Space)) :=
  if intevt < intevtMin ∨ intevtMax < intevt then some (.error .invalidParam)
  else
    (evt2index intevt).map fun index =>
      if s.irqOwners index ≠ some owner then .error .invalidParam
      else
        match action with
        | .register notifyBit => registerIndex index notifyBit handler s
        | .unregister => unregisterIndex intevt index handler s

/-- Whether the source with the given number is registered to the thread. -/
def isHandler (handler : Thread) (s : State Thread Space) (pend : ℕ) : Bool :=
  Irq.all[pend]?.any fun i => decide ((s.irqMapping i).handler = some handler)

/-- `get_pending_interrupt`: the pending sources are tried in the order in which
`bitmap_findfirstset` finds them, in a copy of the bitmap. -/
def getPendingInterrupt (handler : Thread) (s : State Thread Space) : Option Irq :=
  (findSuch (isHandler handler s) irqs (numWords 32 irqs * 32) s.irqPending).bind
    fun pend => Irq.all[pend]?

/-- `soc_ack_interrupt`, with the pending interrupt that it delivers. -/
def socAckInterrupt (intevt : Word) (handler : Thread) (s : State Thread Space) :
    Option (Except ErrorCode (Option (Delivery Thread) × State Thread Space)) :=
  if BitVec.ofNat 32 irqs ≤ intevt then some (.error .invalidParam)
  else
    (evt2index intevt).map fun index =>
      if (s.irqMapping index).handler ≠ some handler then .error .invalidParam
      else
        let s := if s.platformReserved handler = intevt then
          setReserved handler (allOnes 32) s else s
        let s := unmaskIntevt index s
        match getPendingInterrupt handler s with
        | none => .ok (none, s)
        | some pend =>
          let code := BitVec.ofNat 32 pend.index
          let s := setReserved handler code { s with irqPending := clear s.irqPending pend.index }
          .ok (some ⟨pend, handler, code⟩,
            kernelDeliverNotify handler (s.irqMapping pend).notifyMask s)

/-- No call of `soc_ack_interrupt` succeeds: it refuses the codes of the controller, which are above
`IRQS`, and the smaller ones are not in the table. -/
theorem socAckInterrupt_ne_ok (intevt : Word) (handler : Thread) (s : State Thread Space)
    (r : Option (Delivery Thread) × State Thread Space) :
    socAckInterrupt intevt handler s ≠ some (.ok r) := by
  by_cases hle : BitVec.ofNat 32 irqs ≤ intevt
  · rw [socAckInterrupt, if_pos hle]
    simp
  · rw [socAckInterrupt, if_neg hle, evt2index_of_lt hle]
    simp

/-- `soc_security_control_interrupt`. -/
def socSecurityControlInterrupt [DecidableEq Space] (intevt : Word) (owner : Space) (control : Word)
    (s : State Thread Space) : Option (Except ErrorCode (State Thread Space)) :=
  if intevt < intevtMin ∨ intevtMax < intevt then some (.error .invalidParam)
  else
    (evt2index intevt).map fun index =>
      if control >>> 16 = 0 then
        if (s.irqOwners index).isSome then .error .invalidParam
        else .ok { s with irqOwners := update s.irqOwners index (some owner) }
      else if control >>> 16 = 1 then
        if s.irqOwners index ≠ some owner then .error .invalidParam
        else .ok { s with irqOwners := update s.irqOwners index none }
      else .error .invalidParam

end Okl4Kernel.Interrupts
