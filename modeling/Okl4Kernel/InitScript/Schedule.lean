import Okl4Kernel.InitScript.Execution

/-!
# The schedule of a script

The operations of a script come in two phases. In the order in which elfweaver adds them, every
operation finds the heap, the capability list or the space that it uses (`exists_split`), and when
the capabilities are reached, the objects to which they refer have been created
(`place_mem_ptrWords`). So the kernel performs all operations up to the first capability to a mutex.
-/

namespace Okl4Kernel.InitScript

variable {s : Scope} {α : Type}

open Weaver Fallible List InitScript.Kernel

/-! ## Phases -/

lemma setEop_append (l₁ : List (α × Bool)) {l₂ : List (α × Bool)} (h : l₂ ≠ []) :
    setEop (l₁ ++ l₂) = l₁ ++ setEop l₂ := by
  induction l₁ with
  | nil => rfl
  | cons x l₁ ih =>
    obtain ⟨y, l, hl⟩ := exists_cons_of_ne_nil (append_ne_nil_of_right_ne_nil l₁ h)
    rw [cons_append, cons_append, ← ih, hl, setEop]

lemma endsPhases_zero_setEop {l : List α} (h : l ≠ []) :
    EndsPhases 0 ((setEop (l.map (·, false))).map (·.2)) := by
  induction l with
  | nil => exact absurd rfl h
  | cons x l ih =>
    rcases l with _ | ⟨y, l⟩
    · exact rfl
    · exact ih (cons_ne_nil y l)

lemma endsPhases_succ_setEop {l : List α} (h : l ≠ []) {phases : ℕ} {flags : List Bool}
    (hflags : EndsPhases phases flags) :
    EndsPhases (phases + 1) ((setEop (l.map (·, false))).map (·.2) ++ flags) := by
  induction l with
  | nil => exact absurd rfl h
  | cons x l ih =>
    rcases l with _ | ⟨y, l⟩
    · exact hflags
    · exact ih (cons_ne_nil y l)

/-! ## The implicit arguments -/

lemma Scope.heap_next (h : s.heap.isSome) (kind : KiOp) : (s.next (kind, false)).heap.isSome := by
  cases kind <;> first | exact h | rfl

lemma Scope.clist_next (h : s.clist.isSome) (kind : KiOp) :
    (s.next (kind, false)).clist.isSome := by
  cases kind <;> first | exact h | rfl

lemma Scope.space_next (h : s.space.isSome) (kind : KiOp) :
    (s.next (kind, false)).space.isSome := by
  cases kind <;> first | exact h | rfl

lemma Scope.allows_of_refless {R : Type} {op : Op R} (hheap : s.heap.isSome)
    (hclist : s.clist.isSome) (hspace : s.space.isSome) (hop : op.Refless) : s.Allows op.kind := by
  cases op
  case createIpcCap => exact hop.elim
  case createMutexCap => exact hop.elim
  all_goals first | exact trivial | exact hheap | exact hclist | exact hspace

/-- The keys of calls in the middle of a phase. -/
def keys (calls : List Call) : List Key := calls.map fun c => (c.op.kind, false)

/-- When there are a heap, a capability list and a space, every operation without references is
allowed for the rest of the phase. -/
lemma allowsAll_of_refless {calls : List Call} (hheap : s.heap.isSome) (hclist : s.clist.isSome)
    (hspace : s.space.isSome) (hcalls : ∀ c ∈ calls, c.op.Refless) : s.AllowsAll (keys calls) := by
  induction calls generalizing s with
  | nil => trivial
  | cons c calls ih =>
    obtain ⟨hc, hrest⟩ := forall_mem_cons.1 hcalls
    exact ⟨Scope.allows_of_refless hheap hclist hspace hc,
      ih (s.heap_next hheap _) (s.clist_next hclist _) (s.space_next hspace _) hrest⟩

/-- The calls of a cell are allowed, and so are calls that follow them and need only a heap. -/
lemma Cell.allowsAll_calls_append {MemType : Type} {m : Machine MemType} {cell : Cell}
    {calls : List Call} (hheap : s.heap.isSome) (hbasic : ∀ c ∈ calls, c.Basic)
    (hcalls : ∀ s : Scope, s.heap.isSome → s.AllowsAll (keys calls)) :
    s.AllowsAll (keys (cell.calls m ++ calls)) := by
  have hnext := s.heap_next hheap .createClist
  have hall : ∀ c ∈ cell.calls m ++ calls, c.Basic :=
    fun c hc => (mem_append.1 hc).elim (cell.basic_calls c) (hbasic c)
  unfold Cell.calls at hall ⊢
  refine ⟨hheap, ?_⟩
  rcases hspaces : cell.getStaticSpaces with _ | ⟨space, spaces⟩
  · exact hcalls _ hnext
  rw [hspaces] at hall
  rw [flatMap_cons, Space.calls] at hall ⊢
  -- After the first space, nothing is missing any more.
  refine ⟨rfl, allowsAll_of_refless (Scope.heap_next hnext .createSpace) rfl rfl fun c hc => ?_⟩
  exact (hall c (mem_cons_of_mem _ (mem_cons_of_mem _ hc))).refless

lemma allowsAll_flatMap {MemType : Type} {m : Machine MemType} (cells : List Cell) :
    ∀ s : Scope, s.heap.isSome →
      s.AllowsAll (keys (cells.flatMap fun c => c.heapCall :: c.calls m)) := by
  induction cells with
  | nil => exact fun s _ => trivial
  | cons cell cells ih =>
    intro s hheap
    rw [flatMap_cons, cons_append]
    refine ⟨trivial, Cell.allowsAll_calls_append rfl (fun c hc => ?_) ih⟩
    obtain ⟨cell', -, hc⟩ := mem_flatMap.1 hc
    exact forall_mem_cons.2 ⟨Call.basic_plain (by trivial), cell'.basic_calls⟩ c hc

/-- Which operation ends the phase makes no difference to the operations of the phase. -/
lemma allowsAll_setEop (l : List Key) : s.AllowsAll (setEop l) ↔ s.AllowsAll l := by
  induction l using setEop.induct generalizing s with
  | case1 => exact Iff.rfl
  | case2 x => exact Iff.rfl
  | case3 x y l ih => exact and_congr_right fun _ => ih

section Kernel

variable {MemType : Type} {m : Machine MemType} {k : Kernel}
variable {o : Obj}

/-! ## The schedule of the calls -/

/-- The implicit arguments at the start. -/
def Scope.start : Scope := ⟨2, none, none, none, none⟩

/-- The schedule without its capabilities: the first phase, and the calls for the cells. -/
structure Split (m : Machine MemType) (k : Kernel) (body caps : List (Call × Bool)) : Prop where
  schedule : k.schedule m = body ++ caps
  body_calls : body.map (·.1) = k.firstCalls ++ k.cellCalls m
  caps_calls : caps.map (·.1) = k.capCalls
  allows : Scope.start.AllowsAll (body.map fun x => (x.1.op.kind, x.2))
  ends : EndsPhases 1 ((k.schedule m).map (·.2))

lemma Split.basic {body caps : List (Call × Bool)} (h : Split m k body caps) :
    ∀ x ∈ body, x.1.Basic := by
  intro x hx
  have hmem : x.1 ∈ k.firstCalls ++ k.cellCalls m := h.body_calls ▸ mem_map_of_mem hx
  exact (mem_append.1 hmem).elim (basic_firstCalls x.1) (basic_cellCalls x.1)

lemma Split.mem_capCalls {body caps : List (Call × Bool)} (h : Split m k body caps) :
    ∀ x ∈ caps, x.1 ∈ k.capCalls :=
  fun _ hx => h.caps_calls ▸ mem_map_of_mem hx

lemma createOps_cells {ops : List (Op ℤ)} {words : List ℕ} (h : createOps m k = .ok (ops, words)) :
    k.cells ≠ [] := by
  intro hcells
  unfold createOps at h
  rw [hcells] at h
  cases h

/-- The schedule can be split, and every operation before the capabilities finds its implicit
arguments. -/
theorem exists_split (h : k.cells ≠ []) : ∃ body caps, Split m k body caps := by
  obtain ⟨first, rest, hcells⟩ := exists_cons_of_ne_nil h
  have hfirst : k.firstCalls = k.phaseOne first := by rw [firstCalls, hcells]
  have hcell : k.cellCalls m = first.calls m ++ rest.flatMap fun c => c.heapCall :: c.calls m := by
    rw [cellCalls, hcells]
    rfl
  have hne : k.cellCalls m ≠ [] := by
    rw [hcell]
    exact cons_ne_nil _ _
  have hne' : k.cellCalls m ++ k.capCalls ≠ [] := append_ne_nil_of_left_ne_nil hne _
  have hschedule : k.schedule m = setEop (k.firstCalls.map (·, false)) ++
      setEop ((k.cellCalls m ++ k.capCalls).map (·, false)) :=
    setEop_append _ fun hnil => hne' (map_eq_nil_iff.1 hnil)
  have hends : EndsPhases 1 ((k.schedule m).map (·.2)) := by
    rw [hschedule, map_append]
    refine endsPhases_succ_setEop ?_ (endsPhases_zero_setEop hne')
    rw [hfirst]
    exact cons_ne_nil _ _
  have hallows : (⟨9, some 2, some 2, none, none⟩ : Scope).AllowsAll (keys (k.cellCalls m)) := by
    rw [hcell]
    refine Cell.allowsAll_calls_append rfl (fun c hc => ?_) (allowsAll_flatMap rest)
    refine basic_cellCalls (m := m) (k := k) c ?_
    rw [hcell]
    exact mem_append_right _ hc
  have hphase (l : List Key) (hl : (⟨9, some 2, some 2, none, none⟩ : Scope).AllowsAll l) :
      Scope.start.AllowsAll ((setEop (k.firstCalls.map (·, false))).map
        (fun x => (x.1.op.kind, x.2)) ++ l) := by
    rw [hfirst]
    exact ⟨trivial, trivial, trivial, hl⟩
  have hkeys : keys (k.cellCalls m) = ((k.cellCalls m).map (·, false)).map
      fun x => (x.1.op.kind, x.2) := by
    rw [map_map]
    rfl
  by_cases hcaps : k.capCalls = []
  -- Without capabilities, the last call for the cells ends the phase.
  · refine ⟨k.schedule m, [], (append_nil _).symm, ?_, hcaps.symm, ?_, hends⟩
    · rw [map_fst_schedule, calls, hcaps, append_nil]
    · rw [hschedule, hcaps, append_nil, map_append]
      refine hphase _ ?_
      rw [← setEop_map (fun c : Call => c.op.kind), allowsAll_setEop, ← hkeys]
      exact hallows
  · refine ⟨setEop (k.firstCalls.map (·, false)) ++ (k.cellCalls m).map (·, false),
      setEop (k.capCalls.map (·, false)), ?_, ?_, ?_, ?_, hends⟩
    · rw [hschedule, map_append, setEop_append _ fun hnil => hcaps (map_eq_nil_iff.1 hnil),
        append_assoc]
    · rw [map_append, map_fst_setEop, map_map, map_map]
      exact congrArg₂ _ (map_id _) (map_id _)
    · rw [map_fst_setEop, map_map]
      exact map_id _
    · rw [map_append, ← hkeys]
      exact hphase _ hallows

/-! ## References -/

/-- The operation that creates an object writes a pointer to the object. -/
lemma position_mem_ptrWords {i j : ℕ} {calls : List Call} (h : position o i calls = some j)
    (hcalls : ∀ c ∈ calls, c.Basic) :
    j ∈ ptrWords i (calls.map (·.op.kind)) ∧ j < i + wordsOf calls := by
  induction calls generalizing i with
  | nil => cases h
  | cons c calls ih =>
    obtain ⟨hc, hrest⟩ := forall_mem_cons.1 hcalls
    have hpos := c.op.kind.size_pos
    rw [position] at h
    rw [map_cons, ptrWords, wordsOf, map_cons, sum_cons]
    split_ifs at h with htarget
    · obtain rfl := Option.some.inj h
      rw [if_pos (hc.setsPtr (htarget ▸ rfl))]
      exact ⟨mem_cons_self, by omega⟩
    · obtain ⟨hmem, hlt⟩ := ih h hrest
      refine ⟨?_, by rw [← Nat.add_assoc]; exact hlt⟩
      split_ifs
      · exact mem_cons_of_mem _ hmem
      · exact hmem

lemma position_isSome {calls : List Call} (h : o ∈ targets calls) (i : ℕ) :
    (position o i calls).isSome := by
  induction calls generalizing i with
  | nil => cases h
  | cons c calls ih =>
    rw [position]
    split_ifs with htarget
    · rfl
    · refine ih ?_ _
      rw [targets_cons] at h
      rcases mem_append.1 h with h | h
      · exact absurd (Option.mem_toList.1 h) htarget
      · exact h

/-- An object that is created has a pointer before the capabilities are reached. -/
lemma place_mem_ptrWords (h : (position o 2 (k.calls m)).isSome) :
    k.place m o ∈ ptrWords 2 ((k.firstCalls ++ k.cellCalls m).map (·.op.kind)) ∧
      k.place m o < 2 + wordsOf (k.calls m) := by
  have hpos : position o 2 (k.calls m) = position o 2 (k.firstCalls ++ k.cellCalls m) := by
    rw [calls, ← append_assoc, position_append, position_capCalls, Option.or_none]
  have hwords : wordsOf (k.firstCalls ++ k.cellCalls m) ≤ wordsOf (k.calls m) := by
    rw [calls, ← append_assoc, wordsOf_append (k.firstCalls ++ k.cellCalls m)]
    exact Nat.le_add_right _ _
  obtain ⟨j, hj⟩ := Option.isSome_iff_exists.1 h
  obtain ⟨hmem, hlt⟩ := position_mem_ptrWords (hpos ▸ hj)
    fun c hc => (mem_append.1 hc).elim (basic_firstCalls c) (basic_cellCalls c)
  rw [place, hj]
  exact ⟨hmem, by dsimp only [Option.getD_some]; omega⟩

lemma position_clist {cell : Cell} (h : cell ∈ k.cells) :
    (position (.clist cell.key) 2 (k.calls m)).isSome := by
  refine position_isSome ?_ 2
  have hcell : Obj.clist cell.key ∈ targets (cell.calls m) :=
    mem_filterMap.2 ⟨_, mem_cons_self, rfl⟩
  have hcells : Obj.clist cell.key ∈ targets (k.cellCalls m) := by
    unfold cellCalls
    rcases hk : k.cells with _ | ⟨first, rest⟩
    · rw [hk] at h
      exact absurd h not_mem_nil
    dsimp only
    rw [bodyCalls, targets_append, targets_flatMap]
    rw [hk] at h
    rcases mem_cons.1 h with rfl | h
    · exact mem_append_left _ hcell
    · exact mem_append_right _ (mem_flatMap.2 ⟨cell, h, hcell⟩)
  rw [calls, targets_append, targets_append]
  exact mem_append_right _ (mem_append_left _ hcells)

end Kernel

end Okl4Kernel.InitScript
