import Okl4Kernel.InitScript.Schedule

/-!
# Does the kernel find in the script what elfweaver has written?

elfweaver and the kernel agree on a script (`Agrees`) if the kernel reads from it, operation by
operation, the values that have been passed to `add_op`, and if every operation that it performs
finds the objects that are meant.

They agree exactly if all values fit their fields (`Op.Fits`). The checks of elfweaver are weaker.
The limits of `encode_bitfield2_halfwords` and `encode_base_and_size` are too high by one: the
number `2 ^ 16` spills into the upper half of a word, and a heap of `2 ^ 12` pages is encoded as a
heap of size zero. Addresses are truncated, and most other fields are not checked at all.
-/

namespace Okl4Kernel.InitScript

open Weaver Fallible BitField List InitScript.Kernel

/-! ## What the kernel should do -/

section Kernel

variable {MemType : Type} (m : Machine MemType) (k : Kernel)

/-- What the kernel should do for the calls of a schedule: references lead to the objects that are
meant. -/
def Kernel.events (ptr : ℕ → ℕ) : Scope → List (Call × Bool) → List Event
  | _, [] => []
  | s, (c, eop) :: l =>
    s.event (c.op.rounded.map fun o => ptr (k.place m o)) :: events ptr (s.next (c.op.kind, eop)) l

/-- The kernel agrees with elfweaver on a script, where `ops` are the values that have been passed to
`add_op`. -/
structure Agrees (ops : List (Op ℤ)) (words : List ℕ) : Prop where
  /-- The kernel reads the values of every operation. -/
  values : (decodeScript words.length 1 (words.drop 2)).map (map (·.2)) =
    some (ops.map Op.rounded)
  /-- The kernel performs the operations with the objects that are meant. It stops at a capability
  to a mutex. -/
  references : ∀ ptr, runInitScript ptr words =
    (k.events m ptr .start (k.schedule m)).takeWhile fun e => e.op.kind ≠ .createMutexCap

variable {m k}

/-! ## References -/

variable {R : Type}

lemma Op.rounded_map {S : Type} (op : Op R) (f : R → S) :
    (op.map f).rounded = op.rounded.map f := by
  cases op <;> rfl

lemma Op.map_map {S T : Type} (op : Op R) (f : R → S) (g : S → T) :
    (op.map f).map g = op.map (g ∘ f) := by
  cases op <;> rfl

@[simp] lemma Op.kind_rounded (op : Op R) : op.rounded.kind = op.kind := by
  cases op <;> rfl

variable {op : Op R}

lemma Op.refless_rounded : op.rounded.Refless ↔ op.Refless := by
  cases op <;> exact Iff.rfl

lemma Op.refless_map {S : Type} (f : R → S) : (op.map f).Refless ↔ op.Refless := by
  cases op <;> exact Iff.rfl

lemma Op.kind_ne_of_refless (h : op.Refless) : op.kind ≠ .createMutexCap := by
  cases op
  case createMutexCap => exact h.elim
  all_goals exact KiOp.noConfusion

lemma not_refless_capCalls {c : Call} (h : c ∈ k.capCalls) : ¬ c.op.Refless := by
  obtain ⟨cell, -, slot, obj, rfl | rfl⟩ := exists_of_mem_capCalls h <;> exact id

/-- The operation that the kernel reads for a call, if its values fit. -/
def Kernel.reading (m : Machine MemType) (k : Kernel) (x : Call × Bool) : Op ℤ × Bool :=
  ((k.values m x.1).rounded, x.2)

lemma Kernel.kind_reading (x : Call × Bool) : (k.reading m x).1.kind = x.1.op.kind := by
  rw [reading, Op.kind_rounded, values, Op.kind_map]

lemma Kernel.refless_reading {x : Call × Bool} : (k.reading m x).1.Refless ↔ x.1.op.Refless := by
  rw [reading, Op.refless_rounded, values, Op.refless_map]

/-- The kernel does what it should do if it reads the values of the calls. -/
lemma Kernel.trace_reading (ptr : ℕ → ℕ) (s : Scope) (l : List (Call × Bool)) :
    s.trace ptr (l.map (k.reading m)) = k.events m ptr s l := by
  induction l generalizing s with
  | nil => rfl
  | cons x l ih =>
    have hplace : (fun ref : ℤ => ptr (ref / 4).toNat) ∘
        (fun o => ((4 * k.place m o : ℕ) : ℤ)) = fun o => ptr (k.place m o) := by
      funext o
      exact congrArg ptr (by dsimp only [Function.comp]; omega)
    rw [map_cons, Scope.trace, ih, keyOf, kind_reading, reading, values,
      Op.rounded_map, Op.map_map, hplace]
    rfl

lemma Kernel.events_append (ptr : ℕ → ℕ) (s : Scope) (l₁ l₂ : List (Call × Bool)) :
    k.events m ptr s (l₁ ++ l₂) = k.events m ptr s l₁ ++
      k.events m ptr ((l₁.map fun x => (x.1.op.kind, x.2)).foldl Scope.next s) l₂ := by
  induction l₁ generalizing s with
  | nil => rfl
  | cons x l₁ ih => exact congrArg (cons _) (ih _)

lemma Kernel.kind_of_mem_events {ptr : ℕ → ℕ} {s : Scope} {l : List (Call × Bool)} {e : Event}
    (h : e ∈ k.events m ptr s l) : ∃ x ∈ l, e.op.kind = x.1.op.kind := by
  induction l generalizing s with
  | nil => cases h
  | cons x l ih =>
    rcases mem_cons.1 h with rfl | h
    · exact ⟨x, mem_cons_self, by rw [Scope.event, Op.kind_map, Op.kind_rounded]⟩
    · obtain ⟨y, hy, hkind⟩ := ih h
      exact ⟨y, mem_cons_of_mem _ hy, hkind⟩

/-- The references of a capability lead to the objects that are meant, once the operations before the
capabilities have been performed. -/
lemma getPtr_capCalls {ptr : ℕ → ℕ} {b : Boot} {x : Call × Bool} (hx : x.1 ∈ k.capCalls)
    (hthreads : ∀ clist slot t, x.1.op = .createIpcCap clist slot (.thread t) →
      (position (.thread t) 2 (k.calls m)).isSome)
    (hlength : b.mem.length = 2 + wordsOf (k.calls m))
    (hmem : ∀ i ∈ ptrWords 2 ((k.firstCalls ++ k.cellCalls m).map (·.op.kind)),
      i < b.mem.length → b.mem[i]? = some (ptr i)) {clist thread slot : ℤ}
    (hop : (k.reading m x).1 = .createIpcCap clist slot thread) :
    b.getPtr clist = some (ptr (clist / 4).toNat) ∧
      b.getPtr thread = some (ptr (thread / 4).toNat) := by
  have hplace {o : Obj} (ho : (position o 2 (k.calls m)).isSome) :
      b.getPtr ((4 * k.place m o : ℕ) : ℤ) =
        some (ptr (((4 * k.place m o : ℕ) : ℤ) / 4).toNat) := by
    obtain ⟨hwords, hlt⟩ := place_mem_ptrWords ho
    have hdiv : (((4 * k.place m o : ℕ) : ℤ) / 4).toNat = k.place m o := by omega
    rw [Boot.getPtr, if_pos (by omega), hdiv]
    exact hmem _ hwords (hlength ▸ hlt)
  obtain ⟨cell, hcell, slot', obj, hc | hc⟩ := exists_of_mem_capCalls hx
  · rw [hc] at hthreads
    rw [reading, hc] at hop
    cases hop
    exact ⟨hplace (position_clist hcell), hplace (hthreads _ _ obj rfl)⟩
  · rw [reading, hc] at hop
    cases hop

/-! ## Agreement -/

lemma entries_kinds {α : Type} (f : KiOp → α) :
    ((k.entries m).map fun x => f x.1.kind) = (k.calls m).map fun c => f c.op.kind := by
  rw [entries, map_map, ← map_fst_schedule, map_map]
  exact map_congr_left fun x _ => congrArg f (Op.kind_map _ _)

/-- What the kernel reads from a script of elfweaver. -/
lemma decodeScript_createOps {pageShift : ℕ} {ws : List (List ℕ)} (hcells : k.cells ≠ [])
    (hws : (k.entries m).mapM (fun x => x.1.encode pageShift x.2) = .ok ws) {fuel : ℕ}
    (hfuel : ws.flatten.length ≤ fuel) : decodeScript fuel 1 ws.flatten =
      some ((zipWith readAs (k.entries m) ws).map withHdr) := by
  obtain ⟨body, caps, hsplit⟩ := exists_split (m := m) hcells
  refine decodeScript_encode hws ?_ ((length_le_flatten hws).trans hfuel)
  rw [entries, map_map]
  exact hsplit.ends

/-- If the kernel reads the values of all calls, it finds the objects that are meant. -/
lemma exec_reading {mem : List ℕ} (hcells : k.cells ≠ [])
    (hlength : mem.length = 2 + wordsOf (k.calls m))
    (hthreads : ∀ c ∈ k.capCalls, ∀ clist slot t, c.op = .createIpcCap clist slot (.thread t) →
      (position (.thread t) 2 (k.calls m)).isSome) (ptr : ℕ → ℕ) :
    Boot.exec ptr ⟨mem, .start⟩ (((k.schedule m).map (k.reading m)).map withHdr) =
      (k.events m ptr .start (k.schedule m)).takeWhile fun e => e.op.kind ≠ .createMutexCap := by
  obtain ⟨body, caps, hsplit⟩ := exists_split (m := m) hcells
  have hkeys : (body.map (k.reading m)).map keyOf = body.map fun x => (x.1.op.kind, x.2) := by
    rw [map_map]
    exact map_congr_left fun x _ => congrArg (·, x.2) (kind_reading x)
  have hkinds : (body.map (k.reading m)).map (·.1.kind) =
      (k.firstCalls ++ k.cellCalls m).map (·.op.kind) := by
    rw [← hsplit.body_calls, map_map, map_map]
    exact map_congr_left fun x _ => kind_reading x
  have hrefless : ∀ y ∈ body.map (k.reading m), y.1.Refless := by
    intro y hy
    obtain ⟨x, hx, rfl⟩ := mem_map.1 hy
    exact refless_reading.2 (hsplit.basic x hx).refless
  have hallows : (⟨mem, .start⟩ : Boot).scope.AllowsAll ((body.map (k.reading m)).map keyOf) := by
    rw [hkeys]
    exact hsplit.allows
  obtain ⟨mem', hexec, hlength', -, hptr⟩ := @Boot.exec_refless _ _ ptr hrefless hallows
  rw [hkinds] at hptr
  rw [hsplit.schedule, map_append, hexec, Boot.exec_caps, trace_reading,
    trace_reading, events_append, takeWhile_append_of_pos, hkeys]
  · intro e he
    obtain ⟨x, hx, hkind⟩ := kind_of_mem_events he
    rw [decide_eq_true_eq, hkind]
    exact Op.kind_ne_of_refless (hsplit.basic x hx).refless
  · intro y hy
    obtain ⟨x, hx, rfl⟩ := mem_map.1 hy
    rw [refless_reading]
    exact not_refless_capCalls (hsplit.mem_capCalls x hx)
  · intro y hy clist slot thread hop
    obtain ⟨x, hx, rfl⟩ := mem_map.1 hy
    have hcap := hsplit.mem_capCalls x hx
    exact getPtr_capCalls hcap (hthreads x.1 hcap) (hlength'.trans hlength)
      (fun i hi hlt => hptr i hi (hlength' ▸ hlt)) hop

/-- The kernel agrees with elfweaver on a script exactly if all values that are passed to `add_op` fit
their fields. -/
theorem agrees_iff {ops : List (Op ℤ)} {words : List ℕ} (h : createOps m k = .ok (ops, words)) :
    Agrees m k ops words ↔
      ∀ c ∈ k.calls m, (k.values m c).Fits (Nat.log2 m.minPageSize) := by
  have hcells := createOps_cells h
  obtain ⟨rfl, ⟨ws, hws, rfl⟩, hthreads⟩ := createOps_ok h
  have hfits : (∀ c ∈ k.calls m, (k.values m c).Fits (Nat.log2 m.minPageSize)) ↔
      ∀ x ∈ k.entries m, x.1.Fits (Nat.log2 m.minPageSize) := by
    rw [← map_fst_schedule, entries, forall_mem_map, forall_mem_map]
  have hops : ((k.calls m).map (k.values m)).map Op.rounded = (k.entries m).map (·.1.rounded) := by
    rw [← map_fst_schedule, entries, map_map, map_map, map_map]
    rfl
  have hdecode : decodeScript (magicNumber :: structureVersion :: ws.flatten).length 1 ws.flatten =
      some ((zipWith readAs (k.entries m) ws).map withHdr) := by
    refine decodeScript_createOps hcells hws ?_
    rw [length_cons, length_cons]
    omega
  have hread : (((zipWith readAs (k.entries m) ws).map withHdr).map (·.2)) =
      (zipWith readAs (k.entries m) ws).map (·.1) := by
    rw [map_map]
    rfl
  constructor
  · intro hagrees
    have hvalues := hagrees.values
    rw [drop_succ_cons, drop_succ_cons, drop_zero, hdecode, Option.map_some,
      Option.some.injEq, hread, hops] at hvalues
    exact hfits.2 ((zipWith_readAs_iff hws).1 hvalues)
  · intro hall
    have hentries := hfits.1 hall
    refine ⟨?_, fun ptr => ?_⟩
    · rw [drop_succ_cons, drop_succ_cons, drop_zero, hdecode, Option.map_some, hread,
        hops, (zipWith_readAs_iff hws).2 hentries]
    have hreading : (k.entries m).map (fun x => (x.1.rounded, x.2)) =
        (k.schedule m).map (k.reading m) := by
      rw [entries, map_map]
      rfl
    rw [runInitScript, if_pos ⟨rfl, rfl⟩, Boot.run_eq_exec hdecode,
      zipWith_readAs_of_fits hws hentries, hreading]
    · refine exec_reading hcells ?_ hthreads ptr
      rw [length_cons, length_cons, length_flatten_encode hws, entries_kinds KiOp.size, wordsOf]
      omega
    · intro x hx
      obtain ⟨y, -, rfl⟩ := mem_map.1 hx
      exact y.1.kind.size_pos

end Kernel

/-! ## Examples -/

/-- A machine with pages of 4 KB. -/
def pageMachine : Machine Unit := ⟨0x1000, page_pos, fun _ _ => true, ()⟩

/-- A cell with a heap of the given size, and a space with one thread that has a capability to
itself. -/
def selfCell (heapSize : ℤ) : Cell :=
  { key := 0, heapPhysBase := 0x100000, heapSize, clistId := 0, maxCaps := 16, env := none
    spaces := [
      { create := true, id := 0, spaceIdBase := 0, maxSpaces := 4, clistIdBase := 0, maxClists := 4
        mutexIdBase := 0, maxMutexes := 8, maxPhysSegs := 32
        utcb := some ⟨some 0x80000000, 0x1000, page_pos⟩
        isPrivileged := true, platControl := true, irqs := [7]
        threads := [⟨0, true, 1, 100, 0x2000, some 0x8000, 0x1000, some 0x80000000⟩]
        mutexes := []
        mappings := [⟨0, some 0x200000, some 0x2000, some 0x3000, 7, 1, true⟩]
        ipcCaps := [⟨1, 0⟩], mutexCaps := [] }] }

lemma nodup_self : [Obj.clist 0, Obj.thread 0].Nodup := by decide

/-- The kernel with this cell, and its thread array after the heap of the cell. -/
def selfKernel (heapSize : ℤ) : Kernel :=
  { cells := [selfCell heapSize], totalSpaces := 4, totalClists := 4, totalMutexes := 8
    threadArrayBase := 0x100000 + heapSize, threadArrayCount := 30, distinct := nodup_self }

/-- With a heap of 512 KB, the kernel and elfweaver agree. -/
theorem agrees_iff_selfKernel : ∃ ops words,
    createOps pageMachine (selfKernel 0x80000) = .ok (ops, words) ∧
      Agrees pageMachine (selfKernel 0x80000) ops words := by
  have heval : (createOps pageMachine (selfKernel 0x80000)).toOption.isSome := by decide +kernel
  obtain ⟨⟨ops, words⟩, hsome⟩ := Option.isSome_iff_exists.1 heval
  have hops := toOption_eq_some.1 hsome
  exact ⟨ops, words, hops, (agrees_iff hops).2 (by decide +kernel)⟩

/-- A heap of 16 MB is encoded as a heap of size zero. -/
theorem large_heap_is_empty : ∃ ops words,
    createOps pageMachine (selfKernel 0x1000000) = .ok (ops, words) ∧
      ops.head? = some (.createHeap 0x100000 0x1000000) ∧
      ((decodeScript words.length 1 (words.drop 2)).bind (·.head?)).map (·.2) =
        some (.createHeap 0x100000 0) ∧
      ¬ Agrees pageMachine (selfKernel 0x1000000) ops words := by
  have heval : (createOps pageMachine (selfKernel 0x1000000)).toOption.map (fun r =>
      (r.1.head?, ((decodeScript r.2.length 1 (r.2.drop 2)).bind (·.head?)).map (·.2))) =
      some (some (.createHeap 0x100000 0x1000000), some (.createHeap 0x100000 0)) := by
    decide +kernel
  obtain ⟨⟨ops, words⟩, hsome, heval⟩ := Option.map_eq_some_iff.1 heval
  obtain ⟨hhead, hread⟩ := Prod.mk.inj heval
  refine ⟨ops, words, toOption_eq_some.1 hsome, hhead, hread, fun hagrees => ?_⟩
  obtain ⟨l, hl, hvalues⟩ := Option.map_eq_some_iff.1 hagrees.values
  rw [hl, Option.bind_some, ← head?_map, hvalues, head?_map, hhead] at hread
  exact absurd hread (by decide)

end Okl4Kernel.InitScript
