import Okl4Kernel.InitScript.CreateOps
import Okl4Kernel.InitScript.RoundTrip

/-!
# The operations of a script and their places

The calls of `add_op` determine where every operation is in the script (`position`). If elfweaver
emits a script, its operations are the calls, with the byte offsets of the operations that create
the objects in the place of the objects (`createOps_ok`).
-/

namespace Okl4Kernel.InitScript

open Weaver Fallible List InitScript.Kernel

variable {R S T : Type}

/-- The operation has no references. -/
def Op.Refless : Op R → Prop
  | .createIpcCap _ _ _ => False
  | .createMutexCap _ _ _ => False
  | _ => True

lemma Op.map_of_refless {op : Op R} (h : op.Refless) (f g : R → S) : op.map f = op.map g := by
  cases op
  case createIpcCap => exact h.elim
  case createMutexCap => exact h.elim
  all_goals rfl

@[simp] lemma Op.kind_map (op : Op R) (f : R → S) : (op.map f).kind = op.kind := by
  cases op <;> rfl

/-- The words of a list of calls. -/
def wordsOf (calls : List Call) : ℕ := (calls.map (·.op.kind.size)).sum

/-- The objects that are created by a list of calls. -/
def targets (calls : List Call) : List Obj := calls.filterMap (·.target)

/-- The word at which the operation that creates an object starts, if the calls start at a given
word. -/
def position (o : Obj) : ℕ → List Call → Option ℕ
  | _, [] => none
  | i, c :: calls =>
    if c.target = some o then some i else position o (i + c.op.kind.size) calls

lemma wordsOf_append (l₁ l₂ : List Call) : wordsOf (l₁ ++ l₂) = wordsOf l₁ + wordsOf l₂ := by
  rw [wordsOf, map_append, sum_append, wordsOf, wordsOf]

lemma targets_cons (c : Call) (calls : List Call) :
    targets (c :: calls) = c.target.toList ++ targets calls := by
  rcases htarget : c.target with _ | o
  · rw [targets, filterMap_cons_none htarget, targets]; rfl
  · rw [targets, filterMap_cons_some htarget, targets]; rfl

lemma position_eq_none {o : Obj} {calls : List Call} (h : o ∉ targets calls) (i : ℕ) :
    position o i calls = none := by
  induction calls generalizing i with
  | nil => rfl
  | cons c calls ih =>
    rw [position, if_neg ?_]
    · refine ih (fun hmem => h ?_) _
      obtain ⟨c', hc', hc'o⟩ := mem_filterMap.1 hmem
      exact mem_filterMap.2 ⟨c', mem_cons_of_mem c hc', hc'o⟩
    · exact fun hc => h (mem_filterMap.2 ⟨c, mem_cons_self, hc⟩)

lemma position_append (o : Obj) (i : ℕ) (l₁ l₂ : List Call) :
    position o i (l₁ ++ l₂) = (position o i l₁).or (position o (i + wordsOf l₁) l₂) := by
  induction l₁ generalizing i with
  | nil => rfl
  | cons c l₁ ih =>
    rw [cons_append, position, position]
    split_ifs
    · rfl
    · rw [ih, wordsOf, wordsOf, map_cons, sum_cons, Nat.add_assoc]

lemma offsetArg_ok {offsetOf : Obj → Option ℕ} {o : Obj} {x : ℤ}
    (h : offsetArg offsetOf o = .ok x) : x = (((offsetOf o).getD 0 : ℕ) : ℤ) := by
  unfold offsetArg at h
  rcases hoff : offsetOf o with _ | offset
  · rw [hoff] at h
    cases o with
    | thread t => cases h
    | clist c =>
      cases h
      rfl
    | mutex x =>
      cases h
      rfl
  · rw [hoff] at h
    cases h
    rfl

/-- References become the offsets of the objects, and zero if they have none. -/
lemma mapM_offsetArg_ok {offsetOf : Obj → Option ℕ} {op : Op Obj} {op' : Op ℤ}
    (h : op.mapM (offsetArg offsetOf) = .ok op') :
    op' = op.map fun o => (((offsetOf o).getD 0 : ℕ) : ℤ) := by
  cases op
  case createIpcCap c slot o | createMutexCap c slot o =>
    obtain ⟨x, hx, h⟩ := bind_eq_ok.1 h
    obtain ⟨y, hy, h⟩ := bind_eq_ok.1 h
    cases h
    rw [offsetArg_ok hx, offsetArg_ok hy]
    rfl
  all_goals
    cases h
    rfl

section Added

variable {pageShift : ℕ} {s s' : Script}

lemma addOp_ok {c : Call} (h : addOp pageShift s c = .ok s') :
    ∃ op, c.op.mapM (offsetArg s.offsetOf) = .ok op ∧
      s'.opList = s.opList ++ [(op, false)] ∧ s'.offset = s.offset + 4 * c.op.kind.size ∧
      s'.offsetOf = (match c.target with
        | some o => Function.update s.offsetOf o (some s.offset) | none => s.offsetOf) := by
  obtain ⟨op, hop, h⟩ := bind_eq_ok.1 h
  obtain ⟨words, hwords, h⟩ := bind_eq_ok.1 h
  cases h
  refine ⟨op, hop, rfl, ?_, rfl⟩
  rw [(decodeOp_encode hwords []).1, mapM_offsetArg_ok hop, Op.kind_map]

variable {calls : List Call} (h : calls.foldlM (addOp pageShift) s = .ok s')
include h

lemma foldlM_addOp_offsets {i : ℕ} (hs : s.offset = 4 * i) (hnodup : (targets calls).Nodup) :
    s'.offset = 4 * (i + wordsOf calls) ∧
      ∀ o, s'.offsetOf o = ((position o i calls).map (4 * ·)).or (s.offsetOf o) := by
  induction calls generalizing s i with
  | nil =>
    cases h
    exact ⟨hs, fun o => rfl⟩
  | cons c calls ih =>
    obtain ⟨s₁, hs₁, h⟩ := bind_eq_ok.1 h
    obtain ⟨op, -, -, hoffset, hof⟩ := addOp_ok hs₁
    have hrest : (targets calls).Nodup ∧ ∀ o, c.target = some o → o ∉ targets calls := by
      rw [targets_cons, nodup_append'] at hnodup
      exact ⟨hnodup.2.1, fun o ho => hnodup.2.2 (Option.mem_toList.2 ho)⟩
    obtain ⟨hoff, hpos⟩ := ih h (i := i + c.op.kind.size) (by rw [hoffset, hs, Nat.mul_add]) hrest.1
    refine ⟨?_, fun o => ?_⟩
    · rw [hoff, wordsOf, wordsOf, map_cons, sum_cons, Nat.add_assoc]
    rw [hpos, position]
    split_ifs with hc
    · rw [position_eq_none (hrest.2 o hc), hof, hc, hs]
      simp
    congr 1
    rw [hof]
    rcases htarget : c.target with _ | o'
    · rfl
    · have hne : o ≠ o' := fun heq => hc (by rw [htarget, heq])
      exact Function.update_of_ne hne _ _

lemma foldlM_addOp_refless (hcalls : ∀ c ∈ calls, c.op.Refless)
    (f : Obj → ℤ) : s'.opList = s.opList ++ calls.map fun c => (c.op.map f, false) := by
  induction calls generalizing s with
  | nil =>
    cases h
    exact (append_nil _).symm
  | cons c calls ih =>
    obtain ⟨s₁, hs₁, h⟩ := bind_eq_ok.1 h
    obtain ⟨op, hop, hlist, -, -⟩ := addOp_ok hs₁
    rw [ih h fun c' hc' => hcalls c' (mem_cons_of_mem c hc'), hlist, mapM_offsetArg_ok hop,
      Op.map_of_refless (hcalls c mem_cons_self) _ f, map_cons, append_assoc,
      singleton_append]

/-- The operations that are added for calls whose offset is not stored. -/
lemma foldlM_addOp_plain (hcalls : ∀ c ∈ calls, c.target = none) : s'.opList = s.opList ++
        calls.map (fun c => (c.op.map fun o => (((s.offsetOf o).getD 0 : ℕ) : ℤ), false)) ∧
      ∀ c ∈ calls, ∃ op, c.op.mapM (offsetArg s.offsetOf) = .ok op := by
  induction calls generalizing s with
  | nil =>
    cases h
    exact ⟨(append_nil _).symm, fun c hc => absurd hc not_mem_nil⟩
  | cons c calls ih =>
    obtain ⟨s₁, hs₁, h⟩ := bind_eq_ok.1 h
    obtain ⟨op, hop, hlist, -, hof⟩ := addOp_ok hs₁
    rw [hcalls c mem_cons_self] at hof
    obtain ⟨hops, hrefs⟩ := ih h fun c' hc' => hcalls c' (mem_cons_of_mem c hc')
    rw [hof] at hops hrefs
    refine ⟨?_, forall_mem_cons.2 ⟨⟨op, hop⟩, hrefs⟩⟩
    rw [hops, hlist, mapM_offsetArg_ok hop, map_cons, append_assoc, singleton_append]

end Added

/-- The operation has no references, and if its offset is stored, it writes a pointer to the object
over its header. -/
structure Call.Basic (c : Call) : Prop where
  refless : c.op.Refless
  setsPtr : c.target.isSome → c.op.kind.setsPtr

section Kernel

variable {MemType : Type} (m : Machine MemType) (k : Kernel)

/-- The calls of the second phase for the capabilities. -/
def Kernel.capCalls : List Call := k.cells.flatMap Cell.capCalls

/-- The calls of the first phase. -/
def Kernel.firstCalls : List Call :=
  match k.cells with
  | [] => []
  | first :: _ => k.phaseOne first

/-- The calls of the second phase for the cells. -/
def Kernel.cellCalls : List Call :=
  match k.cells with
  | [] => []
  | first :: rest => bodyCalls m first rest

/-- All calls. -/
def Kernel.calls : List Call := k.firstCalls ++ (k.cellCalls m ++ k.capCalls)

/-- The word at which the operation that creates an object starts, and zero if there is none. -/
def Kernel.place (o : Obj) : ℕ := (position o 2 (k.calls m)).getD 0

/-- The values of a call with byte offsets as references. -/
def Kernel.values (c : Call) : Op ℤ := c.op.map fun o => ((4 * k.place m o : ℕ) : ℤ)

/-- The calls, with the ends of the phases. -/
def Kernel.schedule : List (Call × Bool) :=
  setEop (setEop (k.firstCalls.map (·, false)) ++ (k.cellCalls m ++ k.capCalls).map (·, false))

/-- The operations of the script, with the ends of the phases. -/
def Kernel.entries : List (Op ℤ × Bool) := (k.schedule m).map fun x => (k.values m x.1, x.2)

variable {m k}

lemma Call.basic_plain {op : Op Obj} (h : op.Refless) : (Call.plain op).Basic :=
  ⟨h, fun htarget => absurd htarget Bool.false_ne_true⟩

lemma basic_firstCalls : ∀ c ∈ k.firstCalls, c.Basic := by
  unfold firstCalls
  rcases k.cells with _ | ⟨first, rest⟩
  · exact fun c hc => absurd hc not_mem_nil
  · intro c hc
    simp only [phaseOne, mem_cons, not_mem_nil, or_false] at hc
    rcases hc with rfl | rfl | rfl <;> exact Call.basic_plain trivial

lemma Mapping.exists_plain (x : Mapping) :
    ∀ c ∈ x.calls m, ∃ op : Op Obj, op.Refless ∧ c = .plain op := by
  intro c hc
  simp only [Mapping.calls, mem_append] at hc
  rcases hc with hc | hc
  all_goals
    split_ifs at hc
    · refine ⟨_, ?_, mem_singleton.1 hc⟩
      trivial
    · cases hc

lemma Space.basic_calls (cell : Cell) (s : Space) : ∀ c ∈ s.calls m cell, c.Basic := by
  intro c hc
  simp only [Space.calls, cons_append, mem_cons, mem_append, mem_map, mem_flatMap] at hc
  rcases hc with rfl | (((hc | ⟨irq, -, rfl⟩) | ⟨t, -, rfl⟩) | ⟨x, -, rfl⟩) | ⟨x, -, hc⟩
  · exact Call.basic_plain trivial
  · split_ifs at hc
    · obtain rfl := mem_singleton.1 hc
      exact Call.basic_plain trivial
    · cases hc
  · exact Call.basic_plain trivial
  · exact ⟨trivial, fun _ => rfl⟩
  · exact ⟨trivial, fun _ => rfl⟩
  · obtain ⟨op, hop, rfl⟩ := x.exists_plain c hc
    exact Call.basic_plain hop

lemma Cell.basic_calls (cell : Cell) : ∀ c ∈ cell.calls m, c.Basic := by
  refine forall_mem_cons.2 ⟨⟨trivial, fun _ => rfl⟩, fun c hc => ?_⟩
  obtain ⟨s, -, hc⟩ := mem_flatMap.1 hc
  exact s.basic_calls cell c hc

lemma basic_cellCalls : ∀ c ∈ k.cellCalls m, c.Basic := by
  unfold cellCalls
  rcases k.cells with _ | ⟨first, rest⟩
  · exact fun c hc => absurd hc not_mem_nil
  refine forall_mem_append.2 ⟨first.basic_calls, fun c hc => ?_⟩
  obtain ⟨cell, -, hc⟩ := mem_flatMap.1 hc
  exact forall_mem_cons.2 ⟨Call.basic_plain (by trivial), cell.basic_calls⟩ c hc

/-- The capabilities refer to the capability list of their cell, and their offset is not stored. -/
lemma exists_of_mem_capCalls {c : Call} (hc : c ∈ k.capCalls) : ∃ cell ∈ k.cells, ∃ slot obj,
      c = .plain (.createIpcCap (.clist cell.key) slot (.thread obj)) ∨
        c = .plain (.createMutexCap (.clist cell.key) slot (.mutex obj)) := by
  obtain ⟨cell, hcell, hc⟩ := mem_flatMap.1 hc
  obtain ⟨s, -, hc⟩ := mem_flatMap.1 hc
  rcases mem_append.1 hc with hc | hc
  · obtain ⟨cap, -, rfl⟩ := mem_map.1 hc
    exact ⟨cell, hcell, cap.capSlot, cap.obj, .inl rfl⟩
  · obtain ⟨cap, -, rfl⟩ := mem_map.1 hc
    exact ⟨cell, hcell, cap.capSlot, cap.obj, .inr rfl⟩

lemma target_capCalls : ∀ c ∈ k.capCalls, c.target = none := by
  intro c hc
  obtain ⟨cell, -, slot, obj, rfl | rfl⟩ := exists_of_mem_capCalls hc <;> rfl

/-! ### No object is created twice -/

lemma targets_append (l₁ l₂ : List Call) : targets (l₁ ++ l₂) = targets l₁ ++ targets l₂ :=
  filterMap_append

variable {α : Type}

lemma targets_flatMap (l : List α) (f : α → List Call) :
    targets (l.flatMap f) = l.flatMap fun x => targets (f x) :=
  filterMap_flatMap

lemma targets_eq_nil {l : List Call} (h : ∀ c ∈ l, c.target = none) : targets l = [] :=
  filterMap_eq_nil_iff.2 h

lemma position_capCalls (o : Obj) (i : ℕ) : position o i k.capCalls = none := by
  refine position_eq_none ?_ i
  rw [targets_eq_nil target_capCalls]
  exact not_mem_nil

lemma targets_map (l : List α) {f : α → Call} {g : α → Obj}
    (h : ∀ x, (f x).target = some (g x)) : targets (l.map f) = l.map g := by
  rw [targets, filterMap_map, ← filterMap_eq_map]
  exact filterMap_congr fun x _ => h x

lemma Space.targets_calls (cell : Cell) (s : Space) :
    (targets (s.calls m cell)).Sublist s.objects := by
  have hplat : targets (if s.platControl then [.plain .allowPlatformControl] else []) = [] := by
    split_ifs <;> rfl
  have hirqs : targets (s.irqs.map fun irq => .plain (.assignIrq irq)) = [] := by
    refine targets_eq_nil fun c hc => ?_
    obtain ⟨irq, -, rfl⟩ := mem_map.1 hc
    rfl
  have hmappings : targets (s.mappings.flatMap (Mapping.calls m)) = [] := by
    refine targets_eq_nil fun c hc => ?_
    obtain ⟨x, -, hc⟩ := mem_flatMap.1 hc
    obtain ⟨op, -, rfl⟩ := x.exists_plain c hc
    rfl
  have htargets : targets (s.calls m cell) = s.getStaticThreads.map (fun t => Obj.thread t.key) ++
      s.getStaticMutexes.map fun x => Obj.mutex x.key := by
    rw [Space.calls, targets_append, targets_append, targets_append, cons_append,
      targets_cons, targets_append, hplat, hirqs, hmappings,
      targets_map _ (g := fun t => Obj.thread t.key) fun t => rfl,
      targets_map _ (g := fun x => Obj.mutex x.key) fun x => rfl, append_nil]
    rfl
  rw [htargets, Space.objects]
  exact List.Sublist.append (filter_sublist.map _) (filter_sublist.map _)

lemma Cell.targets_calls (cell : Cell) : (targets (cell.calls m)).Sublist cell.objects := by
  rw [Cell.calls, targets_cons, targets_flatMap, Cell.objects]
  refine List.Sublist.cons_cons _ ?_
  exact (List.Sublist.flatMap_right _ fun s _ => s.targets_calls cell).trans
    (filter_sublist.flatMap _)

lemma targets_firstCalls : targets k.firstCalls = [] := by
  unfold firstCalls
  cases k.cells <;> rfl

lemma nodup_targets : (targets (k.calls m)).Nodup := by
  have hcells : (targets (k.cellCalls m)).Sublist (k.cells.flatMap Cell.objects) := by
    unfold cellCalls
    rcases k.cells with _ | ⟨first, rest⟩
    · exact List.Sublist.refl _
    dsimp only
    rw [bodyCalls, targets_append, targets_flatMap, flatMap_cons]
    exact first.targets_calls.append (List.Sublist.flatMap_right _ fun cell _ => cell.targets_calls)
  rw [calls, targets_append, targets_append, targets_firstCalls, targets_eq_nil target_capCalls,
    append_nil, nil_append]
  exact hcells.nodup k.distinct

/-! ### The script -/

lemma offsetOf_cells {pageShift : ℕ} {s₁ s₂ : Script} {opList : List (Op ℤ × Bool)}
    (h₁ : k.firstCalls.foldlM (addOp pageShift) .start = .ok s₁)
    (h₂ : (k.cellCalls m).foldlM (addOp pageShift) { s₁ with opList } = .ok s₂) (o : Obj) :
    s₂.offsetOf o = (position o 2 (k.calls m)).map (4 * ·) := by
  have hnodup := nodup_targets (m := m) (k := k)
  rw [calls, targets_append, nodup_append'] at hnodup
  obtain ⟨hnodup₁, hnodup₂, -⟩ := hnodup
  rw [targets_append, nodup_append'] at hnodup₂
  obtain ⟨hoffset, hof₁⟩ := foldlM_addOp_offsets h₁ (i := 2) rfl hnodup₁
  obtain ⟨-, hof₂⟩ := foldlM_addOp_offsets h₂ hoffset hnodup₂.1
  have hfirst (i : ℕ) : position o i k.firstCalls = none := by
    refine position_eq_none ?_ i
    rw [targets_firstCalls]
    exact not_mem_nil
  rw [hof₂, calls, position_append, position_append, hfirst, position_capCalls,
    Option.none_or, Option.or_none]
  change Option.or _ (s₁.offsetOf o) = _
  rw [hof₁, hfirst]
  exact Option.or_none

lemma map_fst_setEop (l : List (α × Bool)) : (setEop l).map (·.1) = l.map (·.1) := by
  induction l using setEop.induct with
  | case1 => rfl
  | case2 x => rfl
  | case3 x y l ih => rw [setEop, map_cons, map_cons, ih]

lemma setEop_map {β : Type} (f : α → β) (l : List (α × Bool)) :
    setEop (l.map fun x => (f x.1, x.2)) = (setEop l).map fun x => (f x.1, x.2) := by
  induction l using setEop.induct with
  | case1 => rfl
  | case2 x => rfl
  | case3 x y l ih => exact congrArg (List.cons (f x.1, x.2)) ih

lemma Kernel.map_fst_schedule : (k.schedule m).map (·.1) = k.calls m := by
  rw [schedule, map_fst_setEop, map_append, map_fst_setEop, map_map, map_map, ← map_append]
  exact map_id _

/-- If elfweaver emits a script, its operations are the calls, with the byte offsets of the
operations that create the objects in the place of the objects. The threads of all capabilities are
created. -/
theorem createOps_ok {ops : List (Op ℤ)} {words : List ℕ} (h : createOps m k = .ok (ops, words)) :
    ops = (k.calls m).map (k.values m) ∧
      (∃ ws, (k.entries m).mapM (fun x => x.1.encode (Nat.log2 m.minPageSize) x.2) = .ok ws ∧
        words = magicNumber :: structureVersion :: ws.flatten) ∧
      ∀ c ∈ k.capCalls, ∀ clist slot t, c.op = .createIpcCap clist slot (.thread t) →
        (position (.thread t) 2 (k.calls m)).isSome := by
  unfold createOps at h
  rcases hcells : k.cells with _ | ⟨first, rest⟩
  · rw [hcells] at h
    cases h
  have hfirst : k.firstCalls = k.phaseOne first := by rw [firstCalls, hcells]
  have hcell : k.cellCalls m = bodyCalls m first rest := by rw [cellCalls, hcells]
  have hcap : (first :: rest).flatMap Cell.capCalls = k.capCalls := by
    rw [capCalls, hcells]
  rw [hcells] at h
  dsimp only at h
  rw [hcap, ← hfirst, ← hcell] at h
  obtain ⟨s₁, h₁, h⟩ := bind_eq_ok.1 h
  obtain ⟨s₃, h₃, h⟩ := bind_eq_ok.1 h
  obtain ⟨ws, hws, h⟩ := bind_eq_ok.1 h
  cases h
  rw [foldlM_append] at h₃
  obtain ⟨s₂, h₂, h₃⟩ := bind_eq_ok.1 h₃
  have hof := offsetOf_cells h₁ h₂
  have hvalues (c : Call) : c.op.map (fun o => (((s₂.offsetOf o).getD 0 : ℕ) : ℤ)) =
      k.values m c := by
    have hplace (o : Obj) : (s₂.offsetOf o).getD 0 = 4 * k.place m o := by
      rw [hof, place]
      cases position o 2 (k.calls m) <;> rfl
    simp only [hplace, values]
  have hops₁ := foldlM_addOp_refless h₁ (fun c hc => (basic_firstCalls c hc).refless)
    fun o => ((4 * k.place m o : ℕ) : ℤ)
  have hops₂ := foldlM_addOp_refless h₂ (fun c hc => (basic_cellCalls c hc).refless)
    fun o => ((4 * k.place m o : ℕ) : ℤ)
  obtain ⟨hops₃, hrefs⟩ := foldlM_addOp_plain h₃ target_capCalls
  simp only [hvalues] at hops₃
  have hentries : setEop s₃.opList = k.entries m := by
    have hflag (l : List Call) : (l.map fun c => (k.values m c, false)) =
        (l.map (·, false)).map fun x => (k.values m x.1, x.2) := by
      rw [map_map]
      rfl
    rw [hops₃, hops₂]
    change setEop (setEop s₁.opList ++ _ ++ _) = _
    rw [hops₁, entries, schedule, ← setEop_map, map_append, ← setEop_map,
      ← hflag, ← hflag, map_append, ← append_assoc]
    rfl
  refine ⟨?_, ⟨ws, by rw [← hentries]; exact hws, rfl⟩, fun c hc clist slot t hop => ?_⟩
  · rw [hentries, entries, ← map_fst_schedule, map_map, map_map]
    rfl
  obtain ⟨op, hop'⟩ := hrefs c hc
  rw [hop] at hop'
  obtain ⟨x, hx, -⟩ := bind_eq_ok.1 hop'
  unfold offsetArg at hx
  rw [hof] at hx
  rcases hpos : position (.thread t) 2 (k.calls m) with _ | i
  · rw [hpos] at hx
    cases hx
  · rfl

end Kernel

end Okl4Kernel.InitScript
