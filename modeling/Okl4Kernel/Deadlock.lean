import Okl4Kernel.Lib.CycleDetection
import Okl4Kernel.SyncpointInvariant

/-!
# Deadlock detection

In a build with tracepoints `block` checks whether the thread that has just been blocked waits, over
any number of other threads, for a cycle of threads that wait for each other. `is_deadlocked` does
so with Brent's algorithm, following `next_link` from the thread; it reads the `waiting_for` fields
and the donatees and writes nothing but its two results.

The counters of the source have the type `int`, and are natural numbers here: a round adds one to a
counter or doubles one that has been reached, and a number of rounds that is linear in the number of
threads is enough (`isDeadlocked_lengths`).
-/

namespace Okl4Kernel.Sched

open CycleDetection

variable {τ μ : Type*}

/-- `next_link`: the thread that a thread waits for. -/
def nextLink (s : Sched τ μ) (current : τ) : Option τ :=
  match s.waitingFor current with
  | none => none
  | some next => s.donatee next

/-- The first thread waits for the second one. -/
def WaitsFor (s : Sched τ μ) (t u : τ) : Prop := s.nextLink t = some u

variable [DecidableEq τ]

/-- `is_deadlocked`, with each of its loops cut off after `n` rounds: `none` if a loop is cut off,
`some none` for the result false, and `some (some (head_length, loop_length))` for the result
true. -/
def isDeadlocked (s : Sched τ μ) (n : ℕ) (tcb : τ) : Option (Option (ℕ × ℕ)) :=
  detect s.nextLink n tcb

variable [Fintype τ]

/-- For a thread that waits for a cycle, `head_length` is the number of links up to the first thread
of the cycle and `loop_length` is the length of the cycle, however many rounds more the loops are
allowed. -/
theorem isDeadlocked_lengths {s : Sched τ μ} {tcb : τ}
    (hcyclic : ∃ i T, Cyclic s.nextLink tcb i T) : ∃ headLength loopLength,
      (∀ n, 3 * Fintype.card τ + 1 ≤ n →
        s.isDeadlocked n tcb = some (some (headLength, loopLength))) ∧
      IsLeast {l | ∃ m, Cyclic s.nextLink tcb m l} loopLength ∧
      IsLeast {m | Cyclic s.nextLink tcb m loopLength} headLength := by
  obtain ⟨i, T, hcyc⟩ := hcyclic
  obtain ⟨head, loop, -, hloop, hhead⟩ := detect_of_cyclic hcyc (le_refl (3 * Fintype.card τ + 1))
  refine ⟨head, loop, fun n hn => ?_, hloop, hhead⟩
  obtain ⟨head', loop', hresult, hloop', hhead'⟩ := detect_of_cyclic hcyc hn
  obtain rfl : loop' = loop := hloop'.unique hloop
  obtain rfl : head' = head := hhead'.unique hhead
  exact hresult

/-- `is_deadlocked` ends on every graph of waiting threads. It returns true if and only if the
thread waits, over any number of threads, for one that waits for itself; and if and only if there is
no thread among these that does not wait for another one. -/
theorem isDeadlocked_exact (s : Sched τ μ) (tcb : τ) :
    ∃ result, (∀ n, 3 * Fintype.card τ + 1 ≤ n → s.isDeadlocked n tcb = some result) ∧
      (result.isSome = true ↔ ∃ u, Relation.ReflTransGen s.WaitsFor tcb u ∧
        Relation.TransGen s.WaitsFor u u) ∧
      (result.isSome = true ↔
        ∀ u, Relation.ReflTransGen s.WaitsFor tcb u → s.nextLink u ≠ none) := by
  have hcycle : (∃ i T, Cyclic s.nextLink tcb i T) ↔ ∃ u, Relation.ReflTransGen s.WaitsFor tcb u ∧
      Relation.TransGen s.WaitsFor u u := exists_cyclic_iff
  have halive : (∀ u, Relation.ReflTransGen s.WaitsFor tcb u → s.nextLink u ≠ none) ↔
      ∀ n, follow s.nextLink tcb n ≠ none := forall_next_ne_none_iff
  rw [← hcycle, halive]
  by_cases hcyclic : ∃ i T, Cyclic s.nextLink tcb i T
  · obtain ⟨head, loop, hresult, -⟩ := isDeadlocked_lengths hcyclic
    obtain ⟨i, T, hcyc⟩ := hcyclic
    exact ⟨_, hresult, iff_of_true rfl ⟨i, T, hcyc⟩, iff_of_true rfl hcyc.follow_ne_none⟩
  · have hend : ¬∀ n, follow s.nextLink tcb n ≠ none := fun h =>
      h (Fintype.card τ) (follow_card_eq_none fun i T hcyc => hcyclic ⟨i, T, hcyc⟩)
    exact ⟨none, fun n hn => detect_of_acyclic (fun i T hcyc => hcyclic ⟨i, T, hcyc⟩) hn,
      iff_of_false (by simp) hcyclic, iff_of_false (by simp) hend⟩

end Okl4Kernel.Sched
