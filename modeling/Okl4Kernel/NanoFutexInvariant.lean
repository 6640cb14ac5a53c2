import Okl4Kernel.Lib.Tally
import Okl4Kernel.NanoLedger
import Okl4Kernel.NanoSleepers

/-!
# Futexes and semaphores work

The accounts of all objects are balanced in every state of a run. It follows that a futex is held
by at most one thread, that a semaphore is not taken more often than it may, that a signal is not
pending while a thread sleeps on the object, and that the table of the pending signals does not
overflow. When nothing is left to be done, no thread sleeps on a free object.
-/

namespace Okl4Kernel.Nano

open TransitionSystem Function Option Finset Tally Ledger

namespace System

variable {u u' : System} {t : Tid} {o : ℕ}

/-! ## The ledger of an object -/

/-- What a thread does with the object `o`. -/
def roleOf (phase : Phase) (state : ThreadState) (o : ℕ) : Role :=
  match phase with
  | .wait object => if object = o then .waiting else .idle
  | .sleep object =>
    if object = o then if state = .waitFutex then .asleep else .woken else .idle
  | .signal object => if object = o then .signalling else .idle
  | _ => .idle

/-- What the thread `t` does with the object `o`. -/
def role (u : System) (o : ℕ) (t : Tid) : Role := roleOf (u.phase t) (u.kernel.threadState t) o

/-- The accounts of the object `o`. -/
def ledger (u : System) (o : ℕ) : Ledger where
  count := u.count o
  holders := (u.holders o).length
  downs := u.downs o
  ups := u.ups o
  pending := u.kernel.futexPendingTags.count o
  tally := tally (u.role o) (range u.kernel.maxTcbs)

lemma ledger_tally (u : System) (o : ℕ) (r : Role) :
    (u.ledger o).tally r = tally (u.role o) (range u.kernel.maxTcbs) r :=
  rfl

lemma tally_role_pos (ht : t < u.kernel.maxTcbs) {r : Role} (hrole : u.role o t = r) :
    0 < (u.ledger o).tally r :=
  hrole ▸ tally_pos (mem_range.2 ht)

lemma tally_eq (hmax : u'.kernel.maxTcbs = u.kernel.maxTcbs)
    (hrole : ∀ t, u'.role o t = u.role o t) : (u'.ledger o).tally = (u.ledger o).tally := by
  funext r
  simp only [ledger, hmax]
  exact tally_congr (fun t _ => hrole t) r

/-- Only the thread `t` changes its role. -/
lemma ledger_eq_move (hmax : u'.kernel.maxTcbs = u.kernel.maxTcbs) (ht : t < u.kernel.maxTcbs)
    (hrole : ∀ t', t' ≠ t → u'.role o t' = u.role o t') : u'.ledger o =
      move { u'.ledger o with tally := (u.ledger o).tally } (u.role o t) (u'.role o t) := by
  have hupdate : u'.role o = update (u.role o) t (u'.role o t) := eq_update_iff.2 ⟨rfl, hrole⟩
  have htally : ∀ r, (u'.ledger o).tally r = (u.ledger o).tally r -
      (if u.role o t = r then 1 else 0) + if u'.role o t = r then 1 else 0 := by
    intro r
    have hchange := tally_update (u.role o) (mem_range.2 ht) (u'.role o t) r
    rw [← hupdate] at hchange
    have hledger : (u'.ledger o).tally r + (if u.role o t = r then 1 else 0) =
        (u.ledger o).tally r + if u'.role o t = r then 1 else 0 := by
      simp only [ledger, hmax]
      exact hchange
    by_cases hr : u.role o t = r
    · have hpos : 0 < (u.ledger o).tally r := tally_role_pos ht hr
      rw [if_pos hr] at hledger ⊢
      omega
    · rw [if_neg hr] at hledger ⊢
      omega
  simp only [move, ← htally]

lemma ledger_setPhase (ht : t < u.kernel.maxTcbs) (phase : Phase) : (u.setPhase t phase).ledger o =
      (u.ledger o).move (u.role o t) (roleOf phase (u.kernel.threadState t) o) := by
  have hself : (u.setPhase t phase).role o t = roleOf phase (u.kernel.threadState t) o := by
    simp [role, setPhase]
  have hmax : (u.setPhase t phase).kernel.maxTcbs = u.kernel.maxTcbs := rfl
  have hothers : ∀ t', t' ≠ t → (u.setPhase t phase).role o t' = u.role o t' := by
    intro t' ht'
    simp [role, setPhase, ht']
  rw [ledger_eq_move hmax ht hothers, hself]
  rfl

/-- Only the accounts of the object `o` may differ. -/
structure Local (o : ℕ) (u u' : System) : Prop where
  kernel : u'.kernel = u.kernel
  phase : u'.phase = u.phase
  kind : u'.kind = u.kind
  count : ∀ o' ≠ o, u'.count o' = u.count o'
  holders : ∀ o' ≠ o, u'.holders o' = u.holders o'
  downs : ∀ o' ≠ o, u'.downs o' = u.downs o'
  ups : ∀ o' ≠ o, u'.ups o' = u.ups o'

lemma Local.role (h : Local o u u') (o' : ℕ) (t : Tid) : u'.role o' t = u.role o' t := by
  simp only [System.role, h.phase, h.kernel]

lemma Local.ledger_eq (h : Local o u u') (o' : ℕ) : u'.ledger o' = { u.ledger o' with
    count := u'.count o', holders := (u'.holders o').length, downs := u'.downs o'
    ups := u'.ups o' } := by
  have htally := tally_eq (by rw [h.kernel]) (h.role o')
  calc u'.ledger o' = ⟨u'.count o', (u'.holders o').length, u'.downs o', u'.ups o',
          u'.kernel.futexPendingTags.count o', (u'.ledger o').tally⟩ := rfl
    _ = _ := by
      rw [h.kernel, htally]
      rfl

lemma Local.ledger (h : Local o u u') {o' : ℕ} (ho : o' ≠ o) : u'.ledger o' = u.ledger o' := by
  rw [h.ledger_eq, h.count o' ho, h.holders o' ho, h.downs o' ho, h.ups o' ho]
  rfl

/-! ## The invariant -/

/-- A thread is in a state that fits to where it is in an operation. -/
def Placed (kind : ℕ → ObjectKind) (phase : Phase) (state : ThreadState) (tag : ℕ) : Prop :=
  match phase with
  | .outside => state ≠ .waitFutex
  | .wait o => o ≠ 0 ∧ state = .runnable
  | .sleep o => o ≠ 0 ∧ (state = .runnable ∨ state = .waitFutex ∧ tag = o)
  | .signal o => o ≠ 0 ∧ state = .runnable
  | .tryRead o => kind o ≠ .futex ∧ state = .runnable
  | .trySet o value => kind o ≠ .futex ∧ 0 < value ∧ state = .runnable

/-- The invariant of the system. -/
structure Inv (u : System) : Prop where
  kernel : u.kernel.Inv
  placed : ∀ t, Placed u.kind (u.phase t) (u.kernel.threadState t) (u.kernel.futexTag t)
  held : ∀ o, u.holders o ≠ [] → o ≠ 0
  balanced : ∀ o, (u.ledger o).Balanced (u.kind o)

lemma Inv.placed_of (h : u.Inv) {phase : Phase} (hphase : u.phase t = phase) :
    Placed u.kind phase (u.kernel.threadState t) (u.kernel.futexTag t) := hphase ▸ h.placed t

lemma Inv.balanced_of (h : u.Inv) {kind : ObjectKind} (hkind : u.kind o = kind) :
    (u.ledger o).Balanced kind := hkind ▸ h.balanced o

/-- An operation that needs one step. -/
lemma Inv.of_local (h : u.Inv) (hlocal : Local o u u') (hheld : u'.holders o ≠ [] → o ≠ 0)
    (hbalanced : (u'.ledger o).Balanced (u.kind o)) : u'.Inv := by
  refine ⟨?_, fun t => ?_, fun o' ho' => ?_, fun o' => ?_⟩
  · rw [hlocal.kernel]
    exact h.kernel
  · rw [hlocal.kind, hlocal.phase, hlocal.kernel]
    exact h.placed t
  · by_cases heq : o' = o
    · subst heq
      exact hheld ho'
    · rw [hlocal.holders o' heq] at ho'
      exact h.held o' ho'
  · rw [hlocal.kind]
    by_cases heq : o' = o
    · subst heq
      exact hbalanced
    · rw [hlocal.ledger heq]
      exact h.balanced o'

/-- A step on the object `o` at which only the thread `t` goes on. -/
lemma Inv.of_thread (h : u.Inv) (ht : t < u.kernel.maxTcbs) (hkernel : u'.kernel.Inv)
    (hmax : u'.kernel.maxTcbs = u.kernel.maxTcbs) (hkind : u'.kind = u.kind)
    (hheld : ∀ o, u'.holders o ≠ [] → o ≠ 0) (hphase : ∀ t' ≠ t, u'.phase t' = u.phase t')
    (hstate : ∀ t' ≠ t, u'.kernel.threadState t' = u.kernel.threadState t')
    (htag : ∀ t' ≠ t, u'.kernel.futexTag t' = u.kernel.futexTag t')
    (hplaced : Placed u.kind (u'.phase t) (u'.kernel.threadState t) (u'.kernel.futexTag t))
    (hothers : ∀ o' ≠ o, u'.role o' t = u.role o' t ∧
      { u'.ledger o' with tally := (u.ledger o').tally } = u.ledger o')
    (hbalanced : (move { u'.ledger o with tally := (u.ledger o).tally } (u.role o t)
      (u'.role o t)).Balanced (u.kind o)) : u'.Inv := by
  refine ⟨hkernel, fun t' => ?_, hheld, fun o' => ?_⟩
  · rw [hkind]
    by_cases ht' : t' = t
    · subst ht'
      exact hplaced
    · rw [hphase t' ht', hstate t' ht', htag t' ht']
      exact h.placed t'
  · rw [hkind, ledger_eq_move hmax ht fun t' ht' => by simp only [role, hphase t' ht', hstate t' ht']]
    by_cases ho : o' = o
    · rw [ho]
      exact hbalanced
    · obtain ⟨hrole, hledger⟩ := hothers o' ho
      rw [hrole, hledger, move_self (tally_role_pos ht rfl)]
      exact h.balanced o'

/-- A step of an operation, after which the thread `t` is at another place of the operation. -/
lemma Inv.of_local_setPhase (h : u.Inv) (ht : t < u.kernel.maxTcbs) (hlocal : Local o u u')
    (hheld : u'.holders o ≠ [] → o ≠ 0) (phase : Phase)
    (hplaced : Placed u.kind phase (u.kernel.threadState t) (u.kernel.futexTag t))
    (hothers : ∀ o' ≠ o, roleOf phase (u.kernel.threadState t) o' = u.role o' t)
    (hbalanced : ((u'.ledger o).move (u.role o t)
      (roleOf phase (u.kernel.threadState t) o)).Balanced (u.kind o)) :
    (u'.setPhase t phase).Inv := by
  have hkernel : (u'.setPhase t phase).kernel = u.kernel := hlocal.kernel
  have hself : ∀ o', (u'.setPhase t phase).role o' t = roleOf phase (u.kernel.threadState t) o' := by
    intro o'
    simp [role, setPhase, hlocal.kernel]
  have hmax : u'.kernel.maxTcbs = u.kernel.maxTcbs := by rw [hlocal.kernel]
  refine h.of_thread (o := o) ht (hkernel ▸ h.kernel) hmax hlocal.kind (fun o' ho' => ?_)
    (fun t' ht' => ?_) (fun _ _ => by rw [hkernel]) (fun _ _ => by rw [hkernel]) ?_
    (fun o' ho' => ⟨(hself o').trans (hothers o' ho'), ?_⟩) ?_
  · by_cases heq : o' = o
    · subst heq
      exact hheld ho'
    · exact h.held o' (hlocal.holders o' heq ▸ ho')
  · exact (update_of_ne ht' _ _).trans (congrFun hlocal.phase t')
  · simpa [setPhase, hlocal.kernel] using hplaced
  · change { u'.ledger o' with tally := (u.ledger o').tally } = _
    rw [hlocal.ledger ho']
  · rw [hself, ← tally_eq hmax (hlocal.role o)]
    exact hbalanced

/-! ## Steps in user mode -/

lemma local_setCount (u : System) (o : ℕ) (value : ℤ) : Local o u (u.setCount o value) :=
  ⟨rfl, rfl, rfl, fun _ ho => update_of_ne ho _ _, fun _ _ => rfl, fun _ _ => rfl, fun _ _ => rfl⟩

lemma local_locked (u : System) (o : ℕ) (value : ℤ) (t : Tid) :
    Local o u ((u.setCount o value).locked t o) :=
  ⟨rfl, rfl, rfl, fun _ ho => update_of_ne ho _ _,
    fun _ ho => update_of_ne ho _ _, fun _ _ => rfl, fun _ _ => rfl⟩

lemma local_unlocked (u : System) (o : ℕ) (value : ℤ) (t : Tid) :
    Local o u { u.setCount o value with
      holders := update u.holders o ((u.holders o).erase (u.serial t)) } :=
  ⟨rfl, rfl, rfl, fun _ ho => update_of_ne ho _ _,
    fun _ ho => update_of_ne ho _ _, fun _ _ => rfl, fun _ _ => rfl⟩

lemma local_taken (u : System) (o : ℕ) (value : ℤ) : Local o u ((u.setCount o value).taken o) :=
  ⟨rfl, rfl, rfl, fun _ ho => update_of_ne ho _ _, fun _ _ => rfl,
    fun _ ho => update_of_ne ho _ _, fun _ _ => rfl⟩

lemma local_released (u : System) (o : ℕ) (value : ℤ) :
    Local o u ((u.setCount o value).released o) :=
  ⟨rfl, rfl, rfl, fun _ ho => update_of_ne ho _ _, fun _ _ => rfl, fun _ _ => rfl,
    fun _ ho => update_of_ne ho _ _⟩

lemma exists_semaphore {kind : ObjectKind} (hkind : kind ≠ .futex) :
    ∃ initial, kind = .semaphore initial := by
  cases kind with
  | futex => exact absurd rfl hkind
  | semaphore initial => exact ⟨initial, rfl⟩

lemma role_outside (hphase : u.phase t = .outside) (o : ℕ) : u.role o t = .idle := by
  simp [role, roleOf, hphase]

lemma tally_outside (hall : ∀ t, u.phase t = .outside) (o : ℕ) (r : Role) (hr : r ≠ .idle) :
    (u.ledger o).tally r = 0 := by
  rw [ledger_tally]
  refine tally_eq_zero fun t _ hrole => ?_
  rw [role_outside (hall t)] at hrole
  exact hr hrole.symm

section

variable (h : u.Inv)
include h

lemma Inv.lock_free (hkind : u.kind o = .futex) (ho : o ≠ 0) (hfree : u.count o = 0) :
    ((u.setCount o 1).locked t o).Inv := by
  have hlocal := u.local_locked o 1 t
  refine h.of_local hlocal (fun _ => ho) ?_
  rw [hlocal.ledger_eq, hkind]
  simpa [System.locked, setCount, System.ledger] using (h.balanced_of hkind).lock_free hfree

lemma Inv.futexTrylock (hkind : u.kind o = .futex) (ho : o ≠ 0) : (u.futexTrylock t o).Inv := by
  unfold System.futexTrylock
  split_ifs with hfree
  · exact h.lock_free hkind ho hfree
  · exact h

/-- A thread that is idle before and after a step. -/
lemma Inv.setPhase_idle (ht : t < u.kernel.maxTcbs) {phase : Phase}
    (hplaced : Placed u.kind phase (u.kernel.threadState t) (u.kernel.futexTag t))
    (hbefore : ∀ o, u.role o t = .idle)
    (hafter : ∀ o, roleOf phase (u.kernel.threadState t) o = .idle) : (u.setPhase t phase).Inv := by
  have hlocal : Local 0 u u := by constructor <;> intros <;> rfl
  refine h.of_local_setPhase ht hlocal (h.held 0) phase hplaced
    (fun o' _ => (hafter o').trans (hbefore o').symm) ?_
  rw [hbefore, hafter, move_self (tally_role_pos ht (hbefore 0))]
  exact h.balanced 0

variable (hc : u.kernel.currentTcb = some t)
include hc

section

variable (hphase : u.phase t = .outside)
include hphase

/-- A thread begins to wait for an object, or to signal it. -/
lemma Inv.begin {phase : Phase} (hlocal : Local o u u') (ho : o ≠ 0)
    (hphase' : phase = .wait o ∨ phase = .signal o)
    (hbalanced : ((u'.ledger o).move .idle (roleOf phase .runnable o)).Balanced (u.kind o)) :
    (u'.setPhase t phase).Inv := by
  obtain ⟨hstate, hlt⟩ := h.kernel.current hc
  refine h.of_local_setPhase hlt hlocal (fun _ => ho) phase ?_ (fun o' ho' => ?_) ?_
  · rcases hphase' with rfl | rfl <;> exact ⟨ho, hstate⟩
  · rcases hphase' with rfl | rfl <;> simp [roleOf, role_outside hphase, ho'.symm]
  · rwa [role_outside hphase, hstate]

lemma Inv.futexLock (hkind : u.kind o = .futex) (ho : o ≠ 0) : (u.futexLock t o).Inv := by
  unfold System.futexLock
  dsimp only
  split_ifs with hfree
  · have hzero : u.count o = 0 := by omega
    rw [hzero]
    exact h.lock_free hkind ho hzero
  · have hlocal := u.local_setCount o (u.count o + 1)
    have hbusy : u.count o ≠ 0 := by omega
    refine h.begin hc hphase hlocal ho (.inl rfl) ?_
    rw [hlocal.ledger_eq, hkind]
    simpa [roleOf, setCount, System.ledger] using (h.balanced_of hkind).lock_busy hbusy

lemma Inv.futexUnlock (hkind : u.kind o = .futex)
    (hheld : u.serial t ∈ u.holders o) : (u.futexUnlock t o).Inv := by
  have ho : o ≠ 0 := h.held o (List.ne_nil_of_mem hheld)
  have hpos : 0 < (u.ledger o).holders := List.length_pos_of_mem hheld
  have hlength := List.length_erase_of_mem hheld
  have hlocal := u.local_unlocked o (u.count o - 1) t
  have hbalanced := h.balanced_of hkind
  unfold System.futexUnlock
  dsimp only
  split_ifs with hbusy
  · refine h.begin hc hphase hlocal ho (.inr rfl) ?_
    rw [hlocal.ledger_eq, hkind]
    simpa [roleOf, setCount, System.ledger, hlength] using hbalanced.unlock_busy hpos hbusy
  · refine h.of_local hlocal (fun _ => ho) ?_
    rw [hlocal.ledger_eq, hkind]
    simpa [setCount, System.ledger, hlength] using hbalanced.unlock_free hpos hbusy

lemma Inv.semaphoreDown (hkind : u.kind o ≠ .futex) (ho : o ≠ 0) : (u.semaphoreDown t o).Inv := by
  obtain ⟨initial, hkind'⟩ := exists_semaphore hkind
  have hbalanced := h.balanced_of hkind'
  unfold System.semaphoreDown
  dsimp only
  split_ifs with hfree
  · have hlocal := u.local_taken o (u.count o - 1)
    refine h.of_local hlocal (fun _ => ho) ?_
    rw [hlocal.ledger_eq, hkind']
    simpa [System.taken, setCount, System.ledger] using hbalanced.down_free hfree
  · have hlocal := u.local_setCount o (u.count o - 1)
    refine h.begin hc hphase hlocal ho (.inl rfl) ?_
    rw [hlocal.ledger_eq, hkind']
    simpa [roleOf, setCount, System.ledger] using hbalanced.down_busy hfree

lemma Inv.semaphoreUp (hkind : u.kind o ≠ .futex) (ho : o ≠ 0) : (u.semaphoreUp t o).Inv := by
  obtain ⟨initial, hkind'⟩ := exists_semaphore hkind
  have hbalanced := h.balanced_of hkind'
  unfold System.semaphoreUp
  dsimp only
  split_ifs with hfree
  · have hlocal := u.local_released o (u.count o + 1)
    refine h.of_local hlocal (fun _ => ho) ?_
    rw [hlocal.ledger_eq, hkind']
    simpa [System.released, setCount, System.ledger] using hbalanced.up_free hfree
  · have hlocal := u.local_setCount o (u.count o + 1)
    refine h.begin hc hphase hlocal ho (.inr rfl) ?_
    rw [hlocal.ledger_eq, hkind']
    simpa [roleOf, setCount, System.ledger] using hbalanced.up_busy hfree

end

lemma Inv.tryRead (hphase : u.phase t = .tryRead o) : (u.tryRead t o).Inv := by
  obtain ⟨hstate, hlt⟩ := h.kernel.current hc
  have hplaced := h.placed_of hphase
  have hbefore : ∀ o', u.role o' t = .idle := fun o' => by simp [role, roleOf, hphase]
  unfold System.tryRead
  split_ifs with hbusy
  · exact h.setPhase_idle hlt (by simp [Placed, hstate]) hbefore fun _ => rfl
  · exact h.setPhase_idle hlt ⟨hplaced.1, by omega, hstate⟩ hbefore fun _ => rfl

lemma Inv.trySet {value : ℤ} (hphase : u.phase t = .trySet o value) : (u.trySet t o value).Inv := by
  obtain ⟨hstate, hlt⟩ := h.kernel.current hc
  obtain ⟨hkind, hpos, -⟩ := h.placed_of hphase
  have hbefore : ∀ o', u.role o' t = .idle := fun o' => by simp [role, roleOf, hphase]
  unfold System.trySet
  split_ifs with hsame
  · obtain ⟨initial, hkind'⟩ := exists_semaphore hkind
    subst hsame
    have hlocal := u.local_taken o (u.count o - 1)
    have htaken : ((u.setCount o (u.count o - 1)).taken o).Inv := by
      refine h.of_local hlocal (h.held o) ?_
      rw [hlocal.ledger_eq, hkind']
      have hfree : 0 ≤ u.count o - 1 := by omega
      simpa [System.taken, setCount, System.ledger] using (h.balanced_of hkind').down_free hfree
    refine htaken.setPhase_idle hlt ?_ (fun o' => (hlocal.role o' t).trans (hbefore o')) fun _ => rfl
    have hrunnable : ((u.setCount o (u.count o - 1)).taken o).kernel.threadState t = .runnable :=
      hstate
    simp [Placed, hrunnable]
  · exact h.setPhase_idle hlt ⟨hkind, hstate⟩ hbefore fun _ => rfl

lemma Inv.leaveWait (hphase : u.phase t = .sleep o) : (u.leaveWait t o).Inv := by
  obtain ⟨hstate, hlt⟩ := h.kernel.current hc
  have hplaced := h.placed_of hphase
  have hrole : u.role o t = .woken := by simp [role, roleOf, hphase, hstate]
  have hothers : ∀ o' ≠ o, roleOf .outside (u.kernel.threadState t) o' = u.role o' t := by
    intro o' ho'
    simp [role, roleOf, hphase, ho'.symm]
  unfold System.leaveWait
  cases hkind : u.kind o with
  | futex =>
    have hlocal : Local o u (u.locked t o) :=
      ⟨rfl, rfl, rfl, fun _ _ => rfl, fun _ ho => update_of_ne ho _ _, fun _ _ => rfl,
        fun _ _ => rfl⟩
    refine h.of_local_setPhase hlt hlocal (fun _ => hplaced.1) .outside
      (by simp [Placed, hstate]) hothers ?_
    rw [hlocal.ledger_eq, hrole, hkind]
    simpa [roleOf, System.locked, System.ledger] using
      (h.balanced_of hkind).locked (tally_role_pos hlt hrole)
  | semaphore initial =>
    have hlocal : Local o u (u.taken o) :=
      ⟨rfl, rfl, rfl, fun _ _ => rfl, fun _ _ => rfl, fun _ ho => update_of_ne ho _ _,
        fun _ _ => rfl⟩
    refine h.of_local_setPhase hlt hlocal (h.held o) .outside (by simp [Placed, hstate]) hothers ?_
    rw [hlocal.ledger_eq, hrole, hkind]
    simpa [roleOf, System.taken, System.ledger] using
      (h.balanced_of hkind).taken (tally_role_pos hlt hrole)

end

/-! ## Calls to the kernel -/

/-- The object that a thread is about to wait for. -/
def waitsFor (u : System) (t : Tid) : Option ℕ :=
  match u.phase t with
  | .wait o => some o
  | _ => none

lemma role_eq_waiting : u.role o t = .waiting ↔ u.waitsFor t = some o := by
  unfold role roleOf waitsFor
  cases u.phase t with
  | sleep object =>
    dsimp only
    split_ifs <;> simp
  | signal object =>
    dsimp only
    split_ifs <;> simp
  | _ => simp

lemma role_eq_asleep :
    u.role o t = .asleep ↔ u.phase t = .sleep o ∧ u.kernel.threadState t = .waitFutex := by
  unfold role roleOf
  cases u.phase t with
  | sleep object =>
    dsimp only
    split_ifs <;> simp_all
  | outside => simp
  | tryRead object => simp
  | trySet object value => simp
  | _ =>
    dsimp only
    split_ifs <;> simp

/-- There are not more pending signals than threads that are about to wait. -/
lemma Inv.pending_le_card (h : u.Inv) {threads : Finset Tid}
    (hthreads : ∀ t < u.kernel.maxTcbs, ∀ o, u.waitsFor t = some o → t ∈ threads) :
    u.kernel.futexPendingTags.length ≤ threads.card := by
  refine length_le_card (f := u.waitsFor) fun o => ?_
  have hle : (u.ledger o).tally .waiting ≤ tally u.waitsFor threads (some o) := by
    rw [ledger_tally]
    refine tally_le_tally fun t ht hrole => ?_
    have hwaits := role_eq_waiting.1 hrole
    exact ⟨hthreads t (mem_range.1 ht) o hwaits, hwaits⟩
  exact (h.balanced o).pending_le.trans hle

/-- The number of pending signals is less than that of the threads, when one thread is about to
signal. -/
lemma Inv.pending_lt (h : u.Inv) (ht : t < u.kernel.maxTcbs) (hphase : u.phase t = .signal o) :
    u.kernel.futexPendingTags.length < u.kernel.maxTcbs := by
  have hle : u.kernel.futexPendingTags.length ≤ ((range u.kernel.maxTcbs).erase t).card := by
    refine h.pending_le_card fun t' ht' o' hwaits => ?_
    refine mem_erase.2 ⟨?_, mem_range.2 ht'⟩
    rintro rfl
    simp [waitsFor, hphase] at hwaits
  rw [card_erase_of_mem (mem_range.2 ht), card_range] at hle
  have hpos : 0 < u.kernel.maxTcbs := Nat.lt_of_le_of_lt (Nat.zero_le _) ht
  omega

lemma Inv.enterWait (h : u.Inv) (hc : u.kernel.currentTcb = some t) (hphase : u.phase t = .wait o) :
    (u.enterWait t o).Inv := by
  obtain ⟨hstate, hlt⟩ := h.kernel.current hc
  have hplaced := h.placed_of hphase
  have ho : o ≠ 0 := hplaced.1
  have hrole : u.role o t = .waiting := by simp [role, roleOf, hphase]
  have hphases : ∀ t', t' ≠ t → (u.enterWait t o).phase t' = u.phase t' := fun t' ht' =>
    update_of_ne ht' _ _
  have hself : (u.enterWait t o).phase t = .sleep o := update_self _ _ _
  have hothers : ∀ o' ≠ o, (u.enterWait t o).role o' t = u.role o' t := fun o' ho' => by
    simp [role, roleOf, hself, hphase, ho'.symm]
  have hkernel := h.kernel.sysFutexWait hc o
  obtain ⟨hmax, -, ⟨hmem, hperm, hsame, htag⟩ | ⟨hmem, hpending, hsleep, htag⟩⟩ :=
    Nanokernel.sysFutexWait_spec ho rfl
  · -- A pending signal is used up.
    have hstate' : (u.enterWait t o).kernel.threadState = u.kernel.threadState := hsame
    have htag' : (u.enterWait t o).kernel.futexTag = u.kernel.futexTag := htag
    refine h.of_thread hlt hkernel hmax rfl h.held hphases (fun t' _ => by rw [hstate'])
      (fun t' _ => by rw [htag']) ?_ (fun o' ho' => ⟨hothers o' ho', ?_⟩) ?_
    · rw [hself, hstate', hstate]
      exact ⟨ho, .inl rfl⟩
    · have hcount := hperm.count_eq o'
      rw [List.count_cons_of_ne (Ne.symm ho')] at hcount
      simp only [System.ledger, System.enterWait, System.setPhase, hcount]
    · have hwoken : (u.enterWait t o).role o t = .woken := by
        simp [role, roleOf, hself, hstate', hstate]
      have hpos : 0 < (u.ledger o).pending := List.count_pos_iff.2 hmem
      have hless : ((u.enterWait t o).ledger o).pending = (u.ledger o).pending - 1 := by
        have hcount := hperm.count_eq o
        rw [List.count_cons_self] at hcount
        simp only [System.ledger, System.enterWait, System.setPhase]
        omega
      rw [hrole, hwoken]
      have hbalanced := (h.balanced o).consume hpos
      rw [← hless] at hbalanced
      exact hbalanced
  · -- The thread goes to sleep.
    have hstate' : (u.enterWait t o).kernel.threadState =
      update u.kernel.threadState t .waitFutex := hsleep
    have htag' : (u.enterWait t o).kernel.futexTag = update u.kernel.futexTag t o := htag
    have hledger : ∀ o', { (u.enterWait t o).ledger o' with tally := (u.ledger o').tally } =
        u.ledger o' := by
      intro o'
      simp only [System.ledger, System.enterWait, System.setPhase, hpending]
    refine h.of_thread hlt hkernel hmax rfl h.held hphases (fun t' ht' => ?_) (fun t' ht' => ?_) ?_
      (fun o' ho' => ⟨hothers o' ho', hledger o'⟩) ?_
    · rw [hstate', update_of_ne ht']
    · rw [htag', update_of_ne ht']
    · rw [hself, hstate', htag', update_self, update_self]
      exact ⟨ho, .inr ⟨rfl, rfl⟩⟩
    · have hasleep : (u.enterWait t o).role o t = .asleep := by
        simp [role, roleOf, hself, hstate']
      have hzero : (u.ledger o).pending = 0 := List.count_eq_zero.2 hmem
      rw [hledger, hrole, hasleep]
      exact (h.balanced o).sleep hzero (tally_role_pos hlt hrole)

/-- A thread that sleeps is in an operation on the object with its tag. -/
lemma Inv.sleeper (h : u.Inv) (hstate : u.kernel.threadState t = .waitFutex) :
    u.phase t = .sleep (u.kernel.futexTag t) := by
  have hplaced := h.placed t
  rw [hstate] at hplaced
  cases hphase : u.phase t with
  | sleep object =>
    rw [hphase] at hplaced
    obtain ⟨-, hrunnable | ⟨-, htag⟩⟩ := hplaced
    · cases hrunnable
    · rw [htag]
  | _ =>
    rw [hphase] at hplaced
    simp [Placed] at hplaced

/-- What `okn_syscall_futex_signal` changes besides the kernel. -/
lemma enterSignal_eq (u : System) (t : Tid) (o : ℕ) : u.enterSignal t o = { u with
    kernel := u.kernel.sysFutexSignal t o
    phase := update u.phase t .outside
    ups := if u.kind o = .futex then u.ups else update u.ups o (u.ups o + 1) } := by
  unfold enterSignal
  cases u.kind o <;> simp [setPhase, released]

lemma phase_enterSignal (u : System) (t : Tid) (o : ℕ) :
    (u.enterSignal t o).phase = update u.phase t .outside := by
  rw [enterSignal_eq]

/-- The ledger after `okn_syscall_futex_signal`, but for the tallies. -/
lemma ledger_enterSignal (u : System) (t : Tid) (o : ℕ) (tally : Role → ℕ) (o' : ℕ) :
    { (u.enterSignal t o).ledger o' with tally := tally } =
      { u.ledger o' with
        ups := if o' = o ∧ u.kind o ≠ .futex then u.ups o + 1 else u.ups o'
        pending := (u.kernel.sysFutexSignal t o).futexPendingTags.count o'
        tally := tally } := by
  rw [enterSignal_eq]
  by_cases hkind : u.kind o = .futex
  · simp [ledger, hkind]
  · by_cases ho : o' = o
    · subst ho
      simp [ledger, hkind]
    · simp [ledger, hkind, ho]

section

variable (h : u.Inv)
include h

lemma Inv.of_quiet {kernel : Nanokernel} (hkernel : kernel.Inv) {running dying : Option Tid}
    (hquiet : Nanokernel.Quiet .futex running dying u.kernel kernel)
    (hrunning : ∀ t, running = some t → u.phase t = .outside) : Inv { u with kernel := kernel } := by
  obtain ⟨htags, hpending⟩ := hquiet.futex rfl
  have hides : ∀ state, Area.futex.hides state = false → state ≠ .waitFutex := by
    rintro _ hstate rfl
    cases hstate
  have hrole : ∀ o t, role { u with kernel := kernel } o t = u.role o t := by
    intro o t
    by_cases hsame : kernel.threadState t = u.kernel.threadState t
    · simp only [role, hsame]
    · obtain ⟨hnew, hold, -⟩ := hquiet.state t hsame
      simp only [role, roleOf, hides _ hnew, hides _ hold]
  refine ⟨hkernel, fun t => ?_, h.held, fun o => ?_⟩
  · have hplaced := h.placed t
    change Placed u.kind (u.phase t) (kernel.threadState t) (kernel.futexTag t)
    rw [htags]
    by_cases hsame : kernel.threadState t = u.kernel.threadState t
    · rw [hsame]
      exact hplaced
    obtain ⟨hnew, hold, hruns⟩ := hquiet.state t hsame
    have houtside : u.kernel.threadState t = .runnable → u.phase t = .outside := fun hrunnable =>
      hrunning t (hruns hrunnable)
    generalize u.phase t = phase at hplaced houtside ⊢
    cases phase with
    | outside => exact hides _ hnew
    | wait object | signal object | tryRead object => cases houtside hplaced.2
    | sleep object =>
      rcases hplaced.2 with hrunnable | ⟨hsleeps, -⟩
      · cases houtside hrunnable
      · exact absurd hsleeps (hides _ hold)
    | trySet object value => cases houtside hplaced.2.2
  · have htally : (ledger { u with kernel := kernel } o).tally = (u.ledger o).tally :=
      tally_eq hquiet.max (hrole o)
    have hledger : ledger { u with kernel := kernel } o = u.ledger o := by
      calc ledger { u with kernel := kernel } o = { u.ledger o with
              pending := kernel.futexPendingTags.count o
              tally := (ledger { u with kernel := kernel } o).tally } := rfl
        _ = u.ledger o := by
          rw [hpending, htally]
          rfl
    rw [hledger]
    exact h.balanced o

variable (hc : u.kernel.currentTcb = some t)
include hc

section

variable (hphase : u.phase t = .signal o)
  (hmax : (u.enterSignal t o).kernel.maxTcbs = u.kernel.maxTcbs)
  (htag : (u.enterSignal t o).kernel.futexTag = u.kernel.futexTag)
include hphase hmax htag

lemma Inv.signal_wake {t₂ : Tid} (hsleeps : u.kernel.threadState t₂ = .waitFutex)
    (htag₂ : u.kernel.futexTag t₂ = o)
    (hstates : (u.enterSignal t o).kernel.threadState =
      update u.kernel.threadState t₂ .runnable)
    (hpending : (u.kernel.sysFutexSignal t o).futexPendingTags = u.kernel.futexPendingTags) :
    (u.enterSignal t o).Inv := by
  obtain ⟨hstate, hlt⟩ := h.kernel.current hc
  have hplaced := h.placed_of hphase
  have heq := u.enterSignal_eq t o
  have hkind : (u.enterSignal t o).kind = u.kind := by rw [heq]
  have hphases := u.phase_enterSignal t o
  have hne : t₂ ≠ t := ne_of_apply_ne u.kernel.threadState (by simp [hsleeps, hstate])
  have hlt₂ : t₂ < u.kernel.maxTcbs := h.kernel.sound.lt_maxTcbs (by simp [hsleeps])
  have hphase₂ : u.phase t₂ = .sleep o := by rw [h.sleeper hsleeps, htag₂]
  refine ⟨?_, fun t' => ?_, fun o' => ?_, fun o' => ?_⟩
  · rw [heq]
    exact h.kernel.sysFutexSignal hc o
  · rw [hkind, hstates, htag]
    by_cases ht' : t' = t
    · subst ht'
      rw [hphases, update_self, update_of_ne hne.symm, hstate]
      simp [Placed]
    · rw [hphases, update_of_ne ht']
      by_cases ht₂ : t' = t₂
      · subst ht₂
        rw [hphase₂, update_self]
        exact ⟨hplaced.1, .inl rfl⟩
      · rw [update_of_ne ht₂]
        exact h.placed t'
  · rw [heq]
    exact h.held o'
  -- First the current thread leaves its operation, then the other one is woken up.
  have hroles : ∀ t', t' ≠ t₂ →
      (u.enterSignal t o).role o' t' = (u.setPhase t .outside).role o' t' := by
    intro t' ht'
    have hstate' : (u.enterSignal t o).kernel.threadState t' = u.kernel.threadState t' := by
      rw [hstates, update_of_ne ht']
    simp only [role, hstate']
    rw [heq]
    rfl
  have hbefore : (u.setPhase t .outside).role o' t₂ = u.role o' t₂ := by
    simp [role, setPhase, hne]
  rw [hkind, ledger_eq_move (u := u.setPhase t .outside) hmax hlt₂ hroles, hbefore,
    ledger_enterSignal, hpending, ledger_setPhase hlt]
  by_cases ho' : o' = o
  · subst ho'
    have hrole : u.role o' t = .signalling := by simp [role, roleOf, hphase]
    have hsignalling : 0 < (u.ledger o').tally .signalling := tally_role_pos hlt hrole
    have hasleep : u.role o' t₂ = .asleep := role_eq_asleep.2 ⟨hphase₂, hsleeps⟩
    have hpos : 0 < (u.ledger o').tally .asleep := tally_role_pos hlt₂ hasleep
    have hwoken : (u.enterSignal t o').role o' t₂ = .woken := by
      simp [role, roleOf, hphases, hne, hphase₂, hstates]
    rw [hrole, hasleep, hwoken]
    cases hobject : u.kind o' with
    | futex => exact (h.balanced_of hobject).wake_futex hsignalling hpos
    | semaphore initial =>
      simp only [ne_eq, reduceCtorEq, not_false_eq_true, and_self, if_true]
      exact (h.balanced_of hobject).wake_semaphore hsignalling hpos
  · have hidle : u.role o' t = .idle := by simp [role, roleOf, hphase, Ne.symm ho']
    have hidle₂ : u.role o' t₂ = .idle := by simp [role, roleOf, hphase₂, Ne.symm ho']
    have hidle₂' : (u.enterSignal t o).role o' t₂ = .idle := by
      simp [role, roleOf, hphases, hne, hphase₂, Ne.symm ho']
    have hself' : roleOf .outside (u.kernel.threadState t) o' = .idle := rfl
    have hpos : 0 < (u.ledger o').tally .idle := tally_role_pos hlt hidle
    have hledger : { u.ledger o' with
        ups := if o' = o ∧ u.kind o ≠ .futex then u.ups o + 1 else u.ups o'
        pending := u.kernel.futexPendingTags.count o'
        tally := (u.ledger o').tally } = u.ledger o' := by
      simp [System.ledger, ho']
    rw [hidle, hself', move_self hpos, hledger, hidle₂, hidle₂', move_self hpos]
    exact h.balanced o'

lemma Inv.signal_post
    (hno : ∀ t', u.kernel.threadState t' = .waitFutex → u.kernel.futexTag t' ≠ o)
    (hstates : (u.enterSignal t o).kernel.threadState = u.kernel.threadState)
    (hpending : (u.kernel.sysFutexSignal t o).futexPendingTags =
      u.kernel.futexPendingTags ++ [o]) : (u.enterSignal t o).Inv := by
  obtain ⟨hstate, hlt⟩ := h.kernel.current hc
  have heq := u.enterSignal_eq t o
  have hself : (u.enterSignal t o).phase t = .outside := by rw [phase_enterSignal, update_self]
  have hkernel : (u.enterSignal t o).kernel.Inv := by
    rw [heq]
    exact h.kernel.sysFutexSignal hc o
  have hasleep : (u.ledger o).tally .asleep = 0 := by
    rw [ledger_tally]
    refine tally_eq_zero fun t' _ hrole' => ?_
    obtain ⟨hphase', hsleeps⟩ := role_eq_asleep.1 hrole'
    have hsleep := h.sleeper hsleeps
    rw [hphase'] at hsleep
    exact hno t' hsleeps (Phase.sleep.inj hsleep).symm
  have hidle := role_outside hself
  refine h.of_thread (o := o) hlt hkernel hmax (by rw [heq]) (by rw [heq]; exact h.held)
    (fun t' ht' => by rw [phase_enterSignal, update_of_ne ht']) (fun t' _ => by rw [hstates])
    (fun t' _ => by rw [htag]) ?_ (fun o' ho' => ⟨?_, ?_⟩) ?_
  · rw [hself, hstates, hstate]
    simp [Placed]
  · rw [hidle]
    simp [role, roleOf, hphase, Ne.symm ho']
  · rw [ledger_enterSignal, hpending]
    simp [System.ledger, ho', Ne.symm ho']
  · have hrole : u.role o t = .signalling := by simp [role, roleOf, hphase]
    have hsignalling : 0 < (u.ledger o).tally .signalling := tally_role_pos hlt hrole
    rw [ledger_enterSignal, hpending, hidle, hrole, List.count_append]
    cases hobject : u.kind o with
    | futex =>
      simpa [System.ledger] using (h.balanced_of hobject).post_futex hsignalling hasleep
    | semaphore initial =>
      simpa [System.ledger] using (h.balanced_of hobject).post_semaphore hsignalling hasleep

end

lemma Inv.enterSignal (hphase : u.phase t = .signal o) : (u.enterSignal t o).Inv := by
  obtain ⟨-, hlt⟩ := h.kernel.current hc
  have hplaced := h.placed_of hphase
  have hk : (u.enterSignal t o).kernel = u.kernel.sysFutexSignal t o := by rw [enterSignal_eq]
  obtain ⟨hmax, -, htag, ⟨t₂, hsleeps, htag₂, hstates, hpending, -⟩ | ⟨hno, hstates, hposted⟩⟩ :=
    h.kernel.sysFutexSignal_spec hplaced.1 rfl
  · exact h.signal_wake hc hphase (hk ▸ hmax) (hk ▸ htag) hsleeps htag₂ (hk ▸ hstates) hpending
  · obtain ⟨hpending, -⟩ := hposted (h.pending_lt hlt hphase)
    exact h.signal_post hc hphase (hk ▸ hmax) (hk ▸ htag) hno (hk ▸ hstates) hpending

lemma Inv.call (hphase : u.phase t = .outside)
    {call : Nanokernel.Syscall} (hcall : call.blocksIn ≠ some .futex) :
    Inv { u with kernel := u.kernel.syscall t call } := by
  have hstep : u.kernel.step (.syscall call) = some (u.kernel.syscall t call) := by
    simp [Nanokernel.step, hc]
  refine h.of_quiet (h.kernel.step hstep) (h.kernel.futex_quiet hc hcall) fun t' ht' => ?_
  cases ht'
  exact hphase

lemma Inv.create (hphase : u.phase t = .outside)
    (pc sp r0 : BitVec 32) (prio : ℕ) : (u.create t pc sp r0 prio).Inv := by
  have hcall : Inv { u with kernel := u.kernel.syscall t (.threadCreate pc sp r0 prio) } :=
    h.call hc hphase (by simp [Nanokernel.Syscall.blocksIn])
  unfold System.create
  split
  · exact hcall
  · exact { hcall with }

lemma Inv.proceed (hstep : u.proceed t (u.phase t) = some u') : u'.Inv := by
  generalize hphase : u.phase t = phase at hstep
  cases phase with
  | outside => cases hstep
  | wait o =>
    cases hstep
    exact h.enterWait hc hphase
  | sleep o =>
    cases hstep
    exact h.leaveWait hc hphase
  | signal o =>
    cases hstep
    exact h.enterSignal hc hphase
  | tryRead o =>
    cases hstep
    exact h.tryRead hc hphase
  | trySet o value =>
    cases hstep
    exact h.trySet hc hphase

lemma Inv.act {action : Action} (hstep : u.act t action = some u') : u'.Inv := by
  cases action with
  | lock o =>
    obtain ⟨⟨hphase, hkind, ho⟩, ⟨⟩⟩ := ite_none_right_eq_some.1 hstep
    exact h.futexLock hc hphase hkind ho
  | trylock o =>
    obtain ⟨⟨-, hkind, ho⟩, ⟨⟩⟩ := ite_none_right_eq_some.1 hstep
    exact h.futexTrylock hkind ho
  | unlock o =>
    obtain ⟨⟨hphase, hkind, hheld⟩, ⟨⟩⟩ := ite_none_right_eq_some.1 hstep
    exact h.futexUnlock hc hphase hkind hheld
  | down o =>
    obtain ⟨⟨hphase, hkind, ho⟩, ⟨⟩⟩ := ite_none_right_eq_some.1 hstep
    exact h.semaphoreDown hc hphase hkind ho
  | tryDown o =>
    obtain ⟨⟨hphase, hkind, -⟩, ⟨⟩⟩ := ite_none_right_eq_some.1 hstep
    obtain ⟨hstate, hlt⟩ := h.kernel.current hc
    exact h.setPhase_idle hlt ⟨hkind, hstate⟩ (role_outside hphase) fun _ => rfl
  | up o =>
    obtain ⟨⟨hphase, hkind, ho⟩, ⟨⟩⟩ := ite_none_right_eq_some.1 hstep
    exact h.semaphoreUp hc hphase hkind ho
  | proceed => exact h.proceed hc hstep
  | create pc sp r0 prio =>
    obtain ⟨hphase, ⟨⟩⟩ := ite_none_right_eq_some.1 hstep
    exact h.create hc hphase pc sp r0 prio
  | call call =>
    obtain ⟨⟨hphase, hother⟩, ⟨⟩⟩ := ite_none_right_eq_some.1 hstep
    refine h.call hc hphase fun hfutex => ?_
    cases call with
    | futexWait tag => cases hother
    | futexSignal tag => cases hother
    | _ => cases hfutex

omit hc in
lemma Inv.step {event : Event} (hstep : u.step event = some u') : u'.Inv := by
  cases event with
  | act action =>
    obtain ⟨t, hc, hact⟩ := bind_eq_some_iff.1 hstep
    exact h.act hc hact
  | interrupt number =>
    obtain ⟨hunmasked, ⟨⟩⟩ := ite_none_right_eq_some.1 hstep
    exact h.of_quiet (h.kernel.handleInterrupt hunmasked)
      (h.kernel.quiet_handleInterrupt hunmasked) fun t ht => by cases ht

end

lemma step_kind {event : Event} (hstep : u.step event = some u') : u'.kind = u.kind := by
  cases event with
  | act action =>
    obtain ⟨t, -, hact⟩ := bind_eq_some_iff.1 hstep
    cases action with
    | proceed =>
      simp only [act] at hact
      generalize u.phase t = phase at hact
      cases phase with
      | outside => cases hact
      | _ =>
        cases hact
        simp only [enterWait, leaveWait, enterSignal, tryRead, trySet, setPhase, setCount, locked,
          taken, released]
        repeat' split
        all_goals rfl
    | _ =>
      obtain ⟨-, ⟨⟩⟩ := ite_none_right_eq_some.1 hact
      simp only [futexLock, futexTrylock, futexUnlock, semaphoreDown, semaphoreUp, create, setPhase,
        setCount, locked, taken, released]
      repeat' split
      all_goals rfl
  | interrupt number =>
    obtain ⟨-, ⟨⟩⟩ := ite_none_right_eq_some.1 hstep
    rfl

/-! ## Runs -/

lemma start_inv (image : Image) (kind : ℕ → ObjectKind) : (start image kind).Inv := by
  obtain ⟨hstate, hpending⟩ := image.boot_state
  have hsleeps : ∀ t, image.boot.threadState t ≠ .waitFutex := by
    intro t
    rcases hstate t with ht | ht <;> simp [ht]
  refine ⟨image.boot_inv, hsleeps, fun o ho => absurd rfl ho, fun o => ?_⟩
  have hcount : ((start image kind).ledger o).pending = 0 := by
    change image.boot.futexPendingTags.count o = 0
    rw [hpending]
    rfl
  have htally := tally_outside (u := start image kind) (fun _ => rfl) o
  refine ⟨fun _ => htally .asleep (by simp), ?_⟩
  have hwaiting := htally .waiting (by simp)
  have hasleep := htally .asleep (by simp)
  have hwoken := htally .woken (by simp)
  have hsignalling := htally .signalling (by simp)
  have hholders : ((start image kind).ledger o).holders = 0 := rfl
  have hdowns : ((start image kind).ledger o).downs = 0 := rfl
  have hups : ((start image kind).ledger o).ups = 0 := rfl
  cases hkind : kind o with
  | futex =>
    have hzero : ((start image kind).ledger o).count = 0 := by simp [ledger, start, hkind]
    have hkind' : (start image kind).kind o = .futex := hkind
    rw [hkind']
    omega
  | semaphore initial =>
    have hzero : ((start image kind).ledger o).count = initial := by simp [ledger, start, hkind]
    have hkind' : (start image kind).kind o = .semaphore initial := hkind
    rw [hkind']
    dsimp only
    omega

/-- What holds of the futexes and semaphores in a state. -/
structure Synchronised (u : System) : Prop where
  /-- At most one thread is between a lock and the matching unlock of a futex. -/
  exclusive : ∀ o, u.kind o = .futex → (u.holders o).length ≤ 1
  /-- A semaphore is not taken more often than it may. -/
  downs_le : ∀ o initial, u.kind o = .semaphore initial → u.downs o ≤ initial + u.ups o
  /-- A signal is not pending while a thread sleeps. -/
  pending : ∀ t, u.kernel.threadState t = .waitFutex →
    u.kernel.futexTag t ∉ u.kernel.futexPendingTags
  /-- The table of the pending signals has one entry for each TCB. -/
  table : u.kernel.futexPendingTags.length ≤ u.kernel.maxTcbs
  /-- `sys_futex_signal` does not fail. -/
  signal : ∀ t o, u.kernel.currentTcb = some t → u.phase t = .signal o →
    (u.kernel.sysFutexSignal t o).regs t 0 = 0
  /-- When no operation is in progress, the counters have the values they should. -/
  quiescent : (∀ t, u.phase t = .outside) →
    (∀ t, u.kernel.threadState t ≠ .waitFutex) ∧
    ∀ o, match u.kind o with
      | .futex => u.count o = (u.holders o).length
      | .semaphore initial => u.count o = initial + u.ups o - u.downs o
  /-- When the operations in progress are all asleep, it is because the objects are not free. -/
  blocked : (∀ t, u.phase t = .outside ∨ u.kernel.threadState t = .waitFutex) →
    ∀ t, u.kernel.threadState t = .waitFutex →
    match u.kind (u.kernel.futexTag t) with
    | .futex => (u.holders (u.kernel.futexTag t)).length = 1
    | .semaphore initial =>
      initial + u.ups (u.kernel.futexTag t) = u.downs (u.kernel.futexTag t)

lemma Inv.pending_notMem (h : u.Inv) (hsleeps : u.kernel.threadState t = .waitFutex) :
    u.kernel.futexTag t ∉ u.kernel.futexPendingTags := by
  intro hmem
  have hlt : t < u.kernel.maxTcbs := h.kernel.sound.lt_maxTcbs (by simp [hsleeps])
  have hrole : u.role (u.kernel.futexTag t) t = .asleep :=
    role_eq_asleep.2 ⟨h.sleeper hsleeps, hsleeps⟩
  have hpos := tally_role_pos hlt hrole
  have hzero := (h.balanced (u.kernel.futexTag t)).1 (List.count_pos_iff.2 hmem)
  omega

lemma Inv.pending_le (h : u.Inv) : u.kernel.futexPendingTags.length ≤ u.kernel.maxTcbs := by
  have hle : u.kernel.futexPendingTags.length ≤ (range u.kernel.maxTcbs).card :=
    h.pending_le_card fun _ ht _ _ => mem_range.2 ht
  rwa [card_range] at hle

/-- When the operations in progress are all asleep, threads have no other role. -/
lemma tally_asleep_only (hall : ∀ t, u.phase t = .outside ∨ u.kernel.threadState t = .waitFutex)
    (hinv : u.Inv) {r : Role} (hidle : r ≠ .idle) (hasleep : r ≠ .asleep) (o : ℕ) :
    (u.ledger o).tally r = 0 := by
  rw [ledger_tally]
  refine tally_eq_zero fun t _ hrole => ?_
  rcases hall t with houtside | hsleeps
  · rw [role_outside houtside] at hrole
    exact hidle hrole.symm
  · have hphase := hinv.sleeper hsleeps
    simp only [role, roleOf, hphase, hsleeps, if_true] at hrole
    split_ifs at hrole
    · exact hasleep hrole.symm
    · exact hidle hrole.symm

/-- When no operation is in progress, the counters have the values they should. -/
lemma Inv.quiescent (h : u.Inv) (hall : ∀ t, u.phase t = .outside) :
    (∀ t, u.kernel.threadState t ≠ .waitFutex) ∧
    ∀ o, match u.kind o with
      | .futex => u.count o = (u.holders o).length
      | .semaphore initial => u.count o = initial + u.ups o - u.downs o := by
  refine ⟨fun t hsleeps => ?_, fun o => ?_⟩
  · have hphase := h.sleeper hsleeps
    rw [hall t] at hphase
    cases hphase
  · have htally := tally_outside hall o
    have hwaiting := htally .waiting (by simp)
    have hasleep := htally .asleep (by simp)
    have hwoken := htally .woken (by simp)
    obtain ⟨-, hbalanced⟩ := h.balanced o
    cases hkind : u.kind o with
    | futex =>
      rw [hkind] at hbalanced
      have hcount : (u.ledger o).count = (u.ledger o).holders := by omega
      exact hcount
    | semaphore initial =>
      rw [hkind] at hbalanced
      have hcount : (u.ledger o).count = initial + (u.ledger o).ups - (u.ledger o).downs := by
        omega
      exact hcount

/-- When the operations in progress are all asleep, it is because the objects are not free. -/
lemma Inv.blocked (h : u.Inv)
    (hall : ∀ t, u.phase t = .outside ∨ u.kernel.threadState t = .waitFutex)
    (hsleeps : u.kernel.threadState t = .waitFutex) : match u.kind (u.kernel.futexTag t) with
    | .futex => (u.holders (u.kernel.futexTag t)).length = 1
    | .semaphore initial =>
      initial + u.ups (u.kernel.futexTag t) = u.downs (u.kernel.futexTag t) := by
  have hlt : t < u.kernel.maxTcbs := h.kernel.sound.lt_maxTcbs (by simp [hsleeps])
  have hnotin := h.pending_notMem hsleeps
  have hphase := h.sleeper hsleeps
  generalize u.kernel.futexTag t = o at hnotin hphase ⊢
  have hrole : u.role o t = .asleep := role_eq_asleep.2 ⟨hphase, hsleeps⟩
  have hasleep := tally_role_pos hlt hrole
  have hzero : (u.ledger o).pending = 0 := List.count_eq_zero.2 hnotin
  have hwoken := tally_asleep_only hall h (by simp : Role.woken ≠ .idle) (by simp) o
  have hsignalling := tally_asleep_only hall h (by simp : Role.signalling ≠ .idle) (by simp) o
  obtain ⟨-, hbalanced⟩ := h.balanced o
  cases hkind : u.kind o with
  | futex =>
    rw [hkind] at hbalanced
    have hheld : (u.ledger o).holders = 1 := by omega
    exact hheld
  | semaphore initial =>
    rw [hkind] at hbalanced
    have htaken : initial + (u.ledger o).ups = (u.ledger o).downs := by omega
    exact htaken

/-- The invariant implies what the objects are used for. -/
lemma Inv.synchronised (h : u.Inv) : u.Synchronised where
  exclusive o hkind := (h.balanced_of hkind).holders_le
  downs_le o initial hkind := (h.balanced_of hkind).downs_le
  pending _ hsleeps := h.pending_notMem hsleeps
  table := h.pending_le
  signal t o hc hphase := by
    have hplaced := h.placed t
    rw [hphase] at hplaced
    obtain ⟨-, hlt⟩ := h.kernel.current hc
    obtain ⟨-, -, -, ⟨_, _, _, _, _, hreturn⟩ | ⟨-, -, hposted⟩⟩ :=
      h.kernel.sysFutexSignal_spec hplaced.1 rfl
    · exact hreturn
    · exact (hposted (h.pending_lt hlt hphase)).2
  quiescent := h.quiescent
  blocked hall _ hsleeps := h.blocked hall hsleeps

end System

/-- Whatever the threads do, their futexes and semaphores work in every state that is reached. -/
theorem reachable_synchronised (image : Image) (kind : ℕ → ObjectKind) {events : List System.Event}
    {u : System} (hrun : run System.step (System.start image kind) events = some u) :
    u.kind = kind ∧ u.Synchronised := by
  have hinv : u.Inv ∧ u.kind = kind :=
    run_invariant (P := fun u => u.Inv ∧ u.kind = kind)
      (fun _ _ _ h hstep => ⟨h.1.step hstep, (System.step_kind hstep).trans h.2⟩)
      ⟨System.start_inv image kind, rfl⟩ hrun
  exact ⟨hinv.2, hinv.1.synchronised⟩

/-- A futex for which two threads compete: the second one sleeps, and is woken up by the unlock of
the first one. -/
theorem reachable_synchronised_futex : ∃ u,
    run System.step (System.start singleImage fun _ => .futex)
      [.act (.lock 8), .act (.create 0 0 0 20), .act (.lock 8), .act .proceed, .act (.unlock 8),
        .act .proceed, .act .proceed] = some u ∧
    u.holders 8 = [3] ∧ u.count 8 = 1 ∧ u.kernel.currentTcb = some 1 ∧ u.Synchronised := by
  exact exists_run (Q := fun u => u.holders 8 = [3] ∧ u.count 8 = 1 ∧ u.kernel.currentTcb = some 1)
    (by decide +kernel) fun u hrun hview => ⟨hview.1, hview.2.1, hview.2.2,
      (reachable_synchronised singleImage (fun _ => .futex) hrun).2⟩

end Okl4Kernel.Nano
