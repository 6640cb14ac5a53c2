import Mathlib.Algebra.BigOperators.Ring.List
import Okl4Kernel.InitScript.Agreement

/-!
# The room for the init script

`create_ops` runs twice: before the layout of the image, for the size of the section that will hold
the script, and after it, for the script. Between the two, objects get their addresses. An
operation is emitted for the physical segment of a mapping only if the physical address is known, so
that the script may be longer than the section (`reserved_iff`).
-/

namespace Okl4Kernel.InitScript

open Weaver List Cell

variable {MemType : Type} {m : Machine MemType}

/-- The length of the script that `create_ops` returns, in bytes. -/
def scriptLength (m : Machine MemType) (k : Kernel) : Except EncodeError ℕ := do
  let (_, words) ← createOps m k
  .ok (4 * words.length)

/-- The size of the section that `create_dynamic_segments` makes for a script. -/
def reservedSize (m : Machine MemType) (length : ℕ) : ℤ := alignUp length m.minPageSize

/-! ## Configurations without addresses -/

def Mapping.erase (x : Mapping) : Mapping := { x with physAddr := none, virtAddr := none }

def Thread.erase (t : Thread) : Thread := { t with stackVirtAddr := none, utcbAddr := none }

def Space.erase (s : Space) : Space :=
  { s with
    utcb := s.utcb.map fun u => { u with virtAddr := none }
    threads := s.threads.map Thread.erase
    mappings := s.mappings.map Mapping.erase }

/-- A cell without the addresses that are assigned by the layout. -/
def Cell.erase (c : Cell) : Cell :=
  { c with heapPhysBase := 0, env := none, spaces := c.spaces.map Space.erase }

/-- The number of mappings of a cell that have a physical address. -/
def Cell.placed (c : Cell) : ℕ :=
  (c.getStaticSpaces.map fun s => s.mappings.countP (·.physAddr.isSome)).sum

/-- The number of mappings that have a physical address. -/
def Kernel.placed (k : Kernel) : ℕ := (k.cells.map Cell.placed).sum

/-! ## The length of a script -/

lemma wordsOf_cons (c : Call) (calls : List Call) :
    wordsOf (c :: calls) = c.op.kind.size + wordsOf calls := rfl

lemma wordsOf_flatMap {α : Type} (l : List α) (f : α → List Call) :
    wordsOf (l.flatMap f) = (l.map fun x => wordsOf (f x)).sum := by
  induction l with
  | nil => rfl
  | cons x l ih => rw [flatMap_cons, wordsOf_append, ih, map_cons, sum_cons]

lemma wordsOf_mappings (l : List Mapping) : wordsOf (l.flatMap (Mapping.calls m)) =
    wordsOf ((l.map Mapping.erase).flatMap (Mapping.calls m)) +
      4 * l.countP (·.physAddr.isSome) := by
  induction l with
  | nil => rfl
  | cons x l ih =>
    have hx : wordsOf (x.calls m) =
        wordsOf (x.erase.calls m) + 4 * if x.physAddr.isSome then 1 else 0 := by
      rcases x with ⟨_, _ | _, _, _, _, _, _ | _⟩ <;> rfl
    rw [map_cons, flatMap_cons, flatMap_cons, wordsOf_append, wordsOf_append, ih, hx, countP_cons]
    omega

lemma Space.wordsOf_calls (c c' : Cell) (s : Space) : wordsOf (s.calls m c) =
    wordsOf (s.erase.calls m c') + 4 * s.mappings.countP (·.physAddr.isSome) := by
  have hthreads : wordsOf (s.getStaticThreads.map (Thread.call c s)) =
      wordsOf (s.erase.getStaticThreads.map (Thread.call c' s.erase)) := by
    simp [wordsOf, Space.getStaticThreads, Space.erase, filter_map, Function.comp_def, Thread.call,
      Op.kind, Thread.erase]
  rw [Space.calls, Space.calls]
  simp only [cons_append, wordsOf_cons, wordsOf_append, hthreads, wordsOf_mappings s.mappings,
    ← Nat.add_assoc]
  rfl

/-- The words for a cell. -/
def Cell.words (m : Machine MemType) (c : Cell) : ℕ :=
  wordsOf (c.heapCall :: c.calls m) + wordsOf c.capCalls

lemma Cell.words_eq (c : Cell) : c.words m = c.erase.words m + 4 * c.placed := by
  have hstatic : c.erase.getStaticSpaces = c.getStaticSpaces.map Space.erase := by
    rw [getStaticSpaces, erase, filter_map]
    rfl
  have hspaces : wordsOf (c.getStaticSpaces.flatMap (Space.calls m c)) =
      wordsOf (c.erase.getStaticSpaces.flatMap (Space.calls m c.erase)) + 4 * c.placed := by
    rw [wordsOf_flatMap, wordsOf_flatMap, hstatic, map_map, placed, ← sum_map_mul_left,
      ← sum_map_add]
    exact congrArg sum (map_congr_left fun s _ => s.wordsOf_calls c c.erase)
  have hcaps : c.erase.capCalls = c.capCalls := by
    rw [capCalls, hstatic, flatMap_map]
    rfl
  simp only [words, calls, wordsOf_cons, hcaps, hspaces, heapCall, Call.plain, Op.kind]
  omega

lemma wordsOf_calls {k : Kernel} {first : Cell} {rest : List Cell} (h : k.cells = first :: rest) :
    wordsOf (k.calls m) = 5 + (k.cells.map fun c => c.words m).sum := by
  simp only [Kernel.calls, Kernel.firstCalls, Kernel.cellCalls, Kernel.capCalls, h, Kernel.phaseOne,
    bodyCalls, wordsOf_append, wordsOf_flatMap, wordsOf_cons, map_cons, sum_cons, words,
    sum_map_add]
  change 2 + (3 + (2 + 0)) + _ = 5 + (2 + _ + _ + _)
  omega

/-- The script has a header of two words. -/
lemma scriptLength_ok {k : Kernel} {n : ℕ} (h : scriptLength m k = .ok n) :
    n = 4 * (7 + ((k.cells.map erase).map fun c => c.words m).sum) + 16 * k.placed := by
  obtain ⟨⟨ops, words⟩, hops, ⟨⟩⟩ := Fallible.bind_eq_ok.1 h
  obtain ⟨-, ⟨ws, hws, rfl⟩, -⟩ := createOps_ok hops
  have hcells : (k.cells.map fun c => c.words m).sum =
      ((k.cells.map erase).map fun c => c.words m).sum + 4 * k.placed := by
    rw [map_map, Kernel.placed, ← sum_map_mul_left, ← sum_map_add]
    exact congrArg sum (map_congr_left fun c _ => c.words_eq)
  rcases hfirst : k.cells with _ | ⟨first, rest⟩
  · rw [createOps, hfirst] at hops
    cases hops
  have hwords := wordsOf_calls (m := m) hfirst
  rw [wordsOf] at hwords
  rw [length_cons, length_cons, length_flatten_encode hws, entries_kinds KiOp.size, ← hfirst]
  omega

/-- The section is large enough exactly if the alignment leaves four words for each mapping that gets
its physical address during the layout. -/
theorem reserved_iff {k k' : Kernel} {before after : ℕ}
    (hsame : k'.cells.map erase = k.cells.map erase)
    (hbefore : scriptLength m k = .ok before) (hafter : scriptLength m k' = .ok after) :
    after ≤ reservedSize m before ↔
      before + 16 * k'.placed ≤ reservedSize m before + 16 * k.placed := by
  have hlength := scriptLength_ok hbefore
  have hlength' := scriptLength_ok hafter
  rw [hsame] at hlength'
  omega

/-- The configuration of `selfKernel`, with `n` physical segments that are not mapped. -/
def segmentKernel (n : ℕ) (physAddr : Option ℤ) : Kernel :=
  { selfKernel 0x80000 with
    cells := [{ selfCell 0x80000 with spaces := (selfCell 0x80000).spaces.map fun s =>
      { s with mappings := replicate n ⟨0, physAddr, none, some 0x1000, 7, 1, false⟩ } }]
    distinct := nodup_self }

lemma segmentKernel_erase (n : ℕ) (addr : ℤ) : (segmentKernel n (some addr)).cells.map erase =
    (segmentKernel n none).cells.map erase := by
  simp [segmentKernel, selfCell, erase, Space.erase, Mapping.erase]

/-- There is room for three physical segments in a page. -/
theorem reserved_three : (168 : ℤ) ≤ reservedSize pageMachine 120 :=
  (reserved_iff (segmentKernel_erase 3 0x200000) (by decide +kernel) (by decide +kernel)).2
    (by decide +kernel)

/-- The addresses of 256 physical segments are assigned during the layout. -/
theorem script_exceeds_section : (segmentKernel 256 (some 0x200000)).cells.map erase =
        (segmentKernel 256 none).cells.map erase ∧
      scriptLength pageMachine (segmentKernel 256 none) = .ok 120 ∧
      scriptLength pageMachine (segmentKernel 256 (some 0x200000)) = .ok 4216 ∧
      reservedSize pageMachine 120 = 4096 :=
  ⟨segmentKernel_erase 256 _, by decide +kernel⟩

end Okl4Kernel.InitScript
