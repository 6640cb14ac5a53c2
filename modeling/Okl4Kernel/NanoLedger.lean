import Okl4Kernel.NanoFutex

/-!
# The accounts of a futex or a semaphore

An object is described by a few numbers: its counter, the operations that were completed on it, the
signals for it that are pending in the kernel, and how many threads are at each place of an
operation on it. These are its `Ledger`. It is `Balanced` if the numbers fit together, and each
step of an operation keeps the balance.

A futex that is not free has been given to exactly one thread: to the one that holds it, or to one
that a signal is on its way to. The sign of the counter of a semaphore tells how many of the
waiting threads have not been given a signal yet.
-/

namespace Okl4Kernel.Nano

/-- What a thread does with an object. -/
inductive Role
  | idle
  /-- The thread is about to call `okn_syscall_futex_wait`. -/
  | waiting
  /-- It sleeps in this call. -/
  | asleep
  /-- It is about to return from this call. -/
  | woken
  /-- It is about to call `okn_syscall_futex_signal`. -/
  | signalling
  deriving DecidableEq

/-- The accounts of an object. -/
structure Ledger where
  count : ℤ
  holders : ℕ
  downs : ℕ
  ups : ℕ
  pending : ℕ
  tally : Role → ℕ

namespace Ledger

/-- A thread changes its role. -/
def move (l : Ledger) (r r' : Role) : Ledger :=
  { l with
    tally := fun q => l.tally q - (if r = q then 1 else 0) + (if r' = q then 1 else 0) }

lemma move_self {l : Ledger} {r : Role} (h : 0 < l.tally r) : l.move r r = l := by
  have htally : (fun q => l.tally q - (if r = q then 1 else 0) + (if r = q then 1 else 0)) =
      l.tally := by
    funext q
    by_cases hq : r = q
    · subst hq
      simp
      omega
    · simp [hq]
  simp only [move, htally]

/-- The accounts fit together. -/
def Balanced (l : Ledger) (kind : ObjectKind) : Prop :=
  (0 < l.pending → l.tally .asleep = 0) ∧
    match kind with
    | .futex =>
      l.count = l.holders + l.tally .waiting + l.tally .asleep + l.tally .woken ∧
        l.holders + l.tally .signalling + l.pending + l.tally .woken ≤ 1 ∧
        (l.holders + l.tally .signalling + l.pending + l.tally .woken = 1 ↔ 0 < l.count)
    | .semaphore initial =>
      l.count + l.downs + l.tally .waiting + l.tally .asleep + l.tally .woken =
          initial + l.ups + l.tally .signalling ∧
        (l.tally .waiting + l.tally .asleep : ℤ) = l.tally .signalling + l.pending + max 0 (-l.count)

variable {l : Ledger} {kind : ObjectKind} {initial : ℕ}

/-! ## What follows from the balance -/

lemma Balanced.holders_le (h : l.Balanced .futex) : l.holders ≤ 1 := by
  obtain ⟨-, -, hgiven, -⟩ := h
  omega

lemma Balanced.downs_le (h : l.Balanced (.semaphore initial)) : l.downs ≤ initial + l.ups := by
  obtain ⟨-, hcount, hwaits⟩ := h
  omega

/-- Each pending signal is for a thread that is about to wait. -/
lemma Balanced.pending_le (h : l.Balanced kind) : l.pending ≤ l.tally .waiting := by
  obtain ⟨hpending, hkind⟩ := h
  cases kind with
  | futex =>
    obtain ⟨hcount, hgiven, hbusy⟩ := hkind
    omega
  | semaphore initial =>
    obtain ⟨hcount, hwaits⟩ := hkind
    omega

/-! ## Futexes -/

section

variable (h : l.Balanced .futex)
include h

lemma Balanced.lock_free (hfree : l.count = 0) :
    Balanced { l with count := 1, holders := l.holders + 1 } .futex := by
  obtain ⟨hpending, hcount, hgiven, hbusy⟩ := h
  refine ⟨hpending, ?_, ?_, ?_⟩
  all_goals
    dsimp only
    omega

lemma Balanced.lock_busy (hfree : l.count ≠ 0) :
    (move { l with count := l.count + 1 } .idle .waiting).Balanced .futex := by
  obtain ⟨hpending, hcount, hgiven, hbusy⟩ := h
  refine ⟨by simpa [move] using hpending, ?_, by simpa [move] using hgiven, ?_⟩
  all_goals
    simp [move]
    omega

lemma Balanced.unlock_free (hheld : 0 < l.holders) (hfree : ¬ 0 < l.count - 1) :
    Balanced { l with count := l.count - 1, holders := l.holders - 1 } .futex := by
  obtain ⟨hpending, hcount, hgiven, hbusy⟩ := h
  refine ⟨hpending, ?_, ?_, ?_⟩
  all_goals
    dsimp only
    omega

lemma Balanced.unlock_busy (hheld : 0 < l.holders) (hwaits : 0 < l.count - 1) :
    (move { l with count := l.count - 1, holders := l.holders - 1 } .idle .signalling).Balanced
      .futex := by
  obtain ⟨hpending, hcount, hgiven, hbusy⟩ := h
  refine ⟨by simpa [move] using hpending, ?_, ?_, ?_⟩
  all_goals
    simp [move]
    omega

/-- A thread that was woken up has locked the futex. -/
lemma Balanced.locked (hwoken : 0 < l.tally .woken) :
    (move { l with holders := l.holders + 1 } .woken .idle).Balanced .futex := by
  obtain ⟨hpending, hcount, hgiven, hbusy⟩ := h
  refine ⟨by simpa [move] using hpending, ?_, ?_, ?_⟩
  all_goals
    simp [move]
    omega

end

/-! ## Semaphores -/

section

variable (h : l.Balanced (.semaphore initial))
include h

lemma Balanced.down_free (hfree : 0 ≤ l.count - 1) :
    Balanced { l with count := l.count - 1, downs := l.downs + 1 } (.semaphore initial) := by
  obtain ⟨hpending, hcount, hwaits⟩ := h
  refine ⟨hpending, ?_, ?_⟩
  all_goals
    dsimp only
    omega

lemma Balanced.down_busy (hbusy : ¬ 0 ≤ l.count - 1) :
    (move { l with count := l.count - 1 } .idle .waiting).Balanced (.semaphore initial) := by
  obtain ⟨hpending, hcount, hwaits⟩ := h
  refine ⟨by simpa [move] using hpending, ?_, ?_⟩
  all_goals
    simp [move]
    omega

lemma Balanced.up_free (hfree : 0 < l.count + 1) :
    Balanced { l with count := l.count + 1, ups := l.ups + 1 } (.semaphore initial) := by
  obtain ⟨hpending, hcount, hwaits⟩ := h
  refine ⟨hpending, ?_, ?_⟩
  all_goals
    dsimp only
    omega

lemma Balanced.up_busy (hbusy : ¬ 0 < l.count + 1) :
    (move { l with count := l.count + 1 } .idle .signalling).Balanced (.semaphore initial) := by
  obtain ⟨hpending, hcount, hwaits⟩ := h
  refine ⟨by simpa [move] using hpending, ?_, ?_⟩
  all_goals
    simp [move]
    omega

lemma Balanced.taken (hwoken : 0 < l.tally .woken) :
    (move { l with downs := l.downs + 1 } .woken .idle).Balanced (.semaphore initial) := by
  obtain ⟨hpending, hcount, hwaits⟩ := h
  refine ⟨by simpa [move] using hpending, ?_, ?_⟩
  · simp [move]
    omega
  · simpa [move] using hwaits

end

/-! ## Calls to the kernel -/

/-- A thread that is about to wait uses up a pending signal. -/
lemma Balanced.consume (h : l.Balanced kind) (hpos : 0 < l.pending) :
    (move { l with pending := l.pending - 1 } .waiting .woken).Balanced kind := by
  have hwaiting := h.pending_le
  obtain ⟨hpending, hkind⟩ := h
  have hasleep := hpending hpos
  refine ⟨fun _ => by simpa [move] using hasleep, ?_⟩
  cases kind with
  | futex =>
    obtain ⟨hcount, hgiven, hbusy⟩ := hkind
    refine ⟨?_, ?_, ?_⟩
    all_goals
      simp [move]
      omega
  | semaphore initial =>
    obtain ⟨hcount, hwaits⟩ := hkind
    refine ⟨?_, ?_⟩
    all_goals
      simp [move]
      omega

lemma Balanced.sleep (h : l.Balanced kind) (hzero : l.pending = 0) (hwaiting : 0 < l.tally .waiting) :
    (l.move .waiting .asleep).Balanced kind := by
  obtain ⟨hpending, hkind⟩ := h
  refine ⟨fun hpos => by simp [move, hzero] at hpos, ?_⟩
  cases kind with
  | futex =>
    obtain ⟨hcount, hgiven, hbusy⟩ := hkind
    refine ⟨?_, by simpa [move] using hgiven, by simpa [move] using hbusy⟩
    simp [move]
    omega
  | semaphore initial =>
    obtain ⟨hcount, hwaits⟩ := hkind
    refine ⟨?_, ?_⟩
    all_goals
      simp [move]
      omega

lemma Balanced.wake_futex (h : l.Balanced .futex) (hsignalling : 0 < l.tally .signalling)
    (hasleep : 0 < l.tally .asleep) :
    ((l.move .signalling .idle).move .asleep .woken).Balanced .futex := by
  obtain ⟨hpending, hcount, hgiven, hbusy⟩ := h
  refine ⟨fun hpos => ?_, ?_, ?_, ?_⟩
  · have hnone : l.tally .asleep = 0 := hpending hpos
    omega
  · simp [move]
    omega
  · simp [move]
    omega
  · simp [move]
    omega

lemma Balanced.wake_semaphore (h : l.Balanced (.semaphore initial))
    (hsignalling : 0 < l.tally .signalling) (hasleep : 0 < l.tally .asleep) :
    ((move { l with ups := l.ups + 1 } .signalling .idle).move .asleep .woken).Balanced
      (.semaphore initial) := by
  obtain ⟨hpending, hcount, hwaits⟩ := h
  refine ⟨fun hpos => ?_, ?_, ?_⟩
  · have hnone : l.tally .asleep = 0 := hpending hpos
    omega
  · simp [move]
    omega
  · simp [move]
    omega

/-- A signal for a futex that nobody sleeps on stays pending. -/
lemma Balanced.post_futex (h : l.Balanced .futex) (hsignalling : 0 < l.tally .signalling)
    (hasleep : l.tally .asleep = 0) :
    (move { l with pending := l.pending + 1 } .signalling .idle).Balanced .futex := by
  obtain ⟨-, hcount, hgiven, hbusy⟩ := h
  refine ⟨fun _ => by simpa [move] using hasleep, ?_, ?_, ?_⟩
  · simpa [move] using hcount
  · simp [move]
    omega
  · simp [move]
    omega

/-- A signal for a semaphore that nobody sleeps on stays pending. -/
lemma Balanced.post_semaphore (h : l.Balanced (.semaphore initial))
    (hsignalling : 0 < l.tally .signalling) (hasleep : l.tally .asleep = 0) :
    (move { l with pending := l.pending + 1, ups := l.ups + 1 } .signalling .idle).Balanced
      (.semaphore initial) := by
  obtain ⟨-, hcount, hwaits⟩ := h
  refine ⟨fun _ => by simpa [move] using hasleep, ?_, ?_⟩
  all_goals
    simp [move]
    omega

end Ledger

end Okl4Kernel.Nano
