import Okl4Kernel.InitScript.Emission

/-!
# Running a script and reading it

While the kernel runs the script, it writes pointers over the headers of operations that it has
performed. It does not come back to these headers; so it performs the operations that can be read
from the script before the run (`run_eq_exec`). What can be read from a script of elfweaver are its
operations, in the same order, as far as their values fit their fields (`decodeScript_encode`).
-/

namespace Okl4Kernel.InitScript

open Weaver Fallible List Scope InitScript.Boot

variable {R S : Type}
variable {b : Boot} {ws : List (List ℕ)} {l : List (Op ℤ × Bool)} {pageShift : ℕ} {ptr : ℕ → ℕ}

/-- Read a script, where `phases` more phases follow. -/
def decodeScript : (fuel phases : ℕ) → List ℕ → Option (List (Hdr × Op ℤ))
  | 0, _, _ => none
  | fuel + 1, phases, words =>
    match decodeOp words with
    | none => none
    | some (hdr, op) =>
      match phasesLeft hdr.endOfPhase phases with
      | none => some [(hdr, op)]
      | some phases => (decodeScript fuel phases (words.drop hdr.size)).map ((hdr, op) :: ·)

/-- Perform operations that have been read before. -/
def Boot.exec (ptr : ℕ → ℕ) : Boot → List (Hdr × Op ℤ) → List Event
  | _, [] => []
  | b, (hdr, op) :: l =>
    match b.perform ptr hdr op with
    | none => []
    | some (e, b') => e :: exec ptr b' l

/-! ## Running -/

variable (s : Scope)

@[simp] lemma Scope.cur_enter (kind : KiOp) : (s.enter kind).cur = s.cur := by
  cases kind <;> rfl

@[simp] lemma Scope.cur_advance (size : ℕ) (eop : Bool) :
    (s.advance size eop).cur = s.cur + size := by
  cases eop <;> rfl

/-- Performing an operation leaves the operations that follow as they are. -/
lemma Boot.drop_perform {b' : Boot} {hdr : Hdr} {op : Op ℤ} {e : Event}
    (h : b.perform ptr hdr op = some (e, b')) (hsize : 0 < hdr.size) :
    b'.mem.drop b'.scope.cur = (b.mem.drop b.scope.cur).drop hdr.size := by
  rw [perform] at h
  obtain ⟨-, h⟩ := Option.ite_none_right_eq_some.1 h
  obtain ⟨done, -, h⟩ := Option.bind_eq_some_iff.1 h
  cases h
  rw [cur_advance, cur_enter, drop_drop]
  dsimp only
  split_ifs
  · rw [drop_set_of_lt (by omega)]
  · rfl

/-- The kernel performs the operations that can be read from the script before the run. -/
theorem Boot.run_eq_exec {fuel phases : ℕ} {l : List (Hdr × Op ℤ)}
    (h : decodeScript fuel phases (b.mem.drop b.scope.cur) = some l)
    (hsize : ∀ x ∈ l, 0 < x.1.size) : b.run ptr fuel phases = b.exec ptr l := by
  induction fuel generalizing phases b l with
  | zero => cases h
  | succ fuel ih =>
    unfold decodeScript at h
    unfold run
    rcases hop : decodeOp (b.mem.drop b.scope.cur) with _ | x
    · rw [hop] at h
      cases h
    obtain ⟨hdr, op⟩ := x
    rw [hop] at h
    dsimp only at h ⊢
    rcases hleft : phasesLeft hdr.endOfPhase phases with _ | left
    · rw [hleft] at h
      cases h
      rw [exec]
      cases b.perform ptr hdr op <;> rfl
    · rw [hleft] at h
      obtain ⟨l, hl, rfl⟩ := Option.map_eq_some_iff.1 h
      rw [exec]
      rcases hperform : b.perform ptr hdr op with _ | x
      · rfl
      · obtain ⟨e, b'⟩ := x
        have hdrop := drop_perform hperform (hsize _ mem_cons_self)
        exact congrArg (e :: ·) (ih (hdrop ▸ hl) fun x hx => hsize x (mem_cons_of_mem _ hx))

/-! ## Performing operations -/

/-- The kind of an operation, and whether it ends a phase. -/
abbrev Key := KiOp × Bool

/-- The key of an operation. -/
def keyOf (x : Op R × Bool) : Key := (x.1.kind, x.2)

/-- An operation with its header. -/
def withHdr (x : Op ℤ × Bool) : Hdr × Op ℤ := (⟨x.1.kind.size, x.1.kind.code, x.2⟩, x.1)

/-- The scope after an operation. -/
def Scope.next (key : Key) : Scope := (s.enter key.1).advance key.1.size key.2

/-- The assertions of the operations hold. -/
def Scope.AllowsAll : Scope → List Key → Prop
  | _, [] => True
  | s, key :: l => s.Allows key.1 ∧ (s.next key).AllowsAll l

/-- The words over which a pointer is written by operations that start at a given word. -/
def ptrWords : ℕ → List KiOp → List ℕ
  | _, [] => []
  | cur, kind :: l =>
    if kind.setsPtr then cur :: ptrWords (cur + kind.size) l else ptrWords (cur + kind.size) l

/-- The events of operations that are all performed, if every reference leads to the object of the
operation to which it points. -/
def Scope.trace (ptr : ℕ → ℕ) : Scope → List (Op ℤ × Bool) → List Event
  | _, [] => []
  | s, x :: l => s.event (x.1.map fun ref => ptr (ref / 4).toNat) :: (s.next (keyOf x)).trace ptr l

lemma KiOp.size_pos (kind : KiOp) : 0 < kind.size := by
  cases kind <;> decide

@[simp] lemma Scope.cur_next (key : Key) : (s.next key).cur = s.cur + key.1.size := by
  rw [next, cur_advance, cur_enter]

lemma Op.mapM_of_refless {op : Op R} (h : op.Refless) (f : R → Option S) (g : R → S) :
    op.mapM f = some (op.map g) := by
  cases op
  case createIpcCap => exact h.elim
  case createMutexCap => exact h.elim
  all_goals rfl

/-- Operations without references are performed one after the other, and leave their pointers in the
script. -/
theorem Boot.exec_refless (hrefless : ∀ x ∈ l, x.1.Refless)
    (hallows : b.scope.AllowsAll (l.map keyOf)) :
    ∃ mem, (∀ l', b.exec ptr ((l ++ l').map withHdr) = b.scope.trace ptr l ++
        exec ptr ⟨mem, (l.map keyOf).foldl next b.scope⟩ (l'.map withHdr)) ∧
      mem.length = b.mem.length ∧ (∀ i < b.scope.cur, mem[i]? = b.mem[i]?) ∧
      ∀ i ∈ ptrWords b.scope.cur (l.map (·.1.kind)), i < b.mem.length → mem[i]? = some (ptr i) := by
  induction l generalizing b with
  | nil => exact ⟨b.mem, fun l' => rfl, rfl, fun i _ => rfl, fun i hi => absurd hi not_mem_nil⟩
  | cons x l ih =>
    obtain ⟨hop, hrest⟩ : b.scope.Allows x.1.kind ∧
        (b.scope.next (keyOf x)).AllowsAll (l.map keyOf) := hallows
    have hmapM := Op.mapM_of_refless (hrefless _ mem_cons_self) b.getPtr
      fun ref => ptr (ref / 4).toNat
    have hpos := x.1.kind.size_pos
    obtain ⟨mem₁, hmem₁⟩ : ∃ mem₁, mem₁ =
        if x.1.kind.setsPtr then b.mem.set b.scope.cur (ptr b.scope.cur) else b.mem := ⟨_, rfl⟩
    obtain ⟨mem, hexec, hlength, hbefore, hwords⟩ := ih (b := ⟨mem₁, b.scope.next (keyOf x)⟩)
      (fun x hx => hrefless x (mem_cons_of_mem _ hx)) hrest
    dsimp only at hexec hlength hbefore hwords
    rw [cur_next, keyOf] at hbefore hwords
    have hlength₁ : mem₁.length = b.mem.length := by
      rw [hmem₁]
      split_ifs
      · exact length_set
      · rfl
    refine ⟨mem, fun l' => ?_, hlength.trans hlength₁, fun i hi => ?_, fun i hi hlt => ?_⟩
    · rw [cons_append, map_cons, withHdr, exec, perform, if_pos hop, hmapM,
        Option.bind_eq_bind, Option.bind_some, ← hmem₁]
      exact congrArg (cons _) (hexec l')
    · rw [hbefore i (Nat.lt_add_right _ hi), hmem₁]
      split_ifs
      · exact getElem?_set_ne (by omega)
      · rfl
    · rw [hlength₁] at hwords
      rw [map_cons, ptrWords] at hi
      split_ifs at hi with hset
      · rcases mem_cons.1 hi with rfl | hi
        · rw [hbefore _ (Nat.lt_add_of_pos_right hpos), hmem₁, if_pos hset]
          exact getElem?_set_self hlt
        · exact hwords i hi hlt
      · exact hwords i hi hlt

/-- Capabilities are performed up to the first capability to a mutex, if their references can be
read. -/
theorem Boot.exec_caps (hcaps : ∀ x ∈ l, ¬ x.1.Refless) (hrefs : ∀ x ∈ l, ∀ clist slot thread, x.1 =
      .createIpcCap clist slot thread → b.getPtr clist = some (ptr (clist / 4).toNat) ∧ b.getPtr
      thread = some (ptr (thread / 4).toNat)) : b.exec ptr (l.map withHdr) =
      (b.scope.trace ptr l).takeWhile fun e => e.op.kind ≠ .createMutexCap := by
  induction l generalizing b with
  | nil => rfl
  | cons x l ih =>
    obtain ⟨op, eop⟩ := x
    obtain ⟨hop, hrest⟩ := forall_mem_cons.1 hcaps
    obtain ⟨href, hrestRefs⟩ := forall_mem_cons.1 hrefs
    rw [map_cons, withHdr, exec, perform, trace]
    cases op
    case createIpcCap clist slot thread =>
      obtain ⟨hclist, hthread⟩ := href clist slot thread rfl
      have hmapM : (Op.createIpcCap clist slot thread).mapM b.getPtr =
          some ((Op.createIpcCap clist slot thread).map fun ref => ptr (ref / 4).toNat) := by
        rw [Op.mapM, hthread, Option.bind_eq_bind, Option.bind_some, hclist]
        rfl
      have hallows : b.scope.Allows (Op.createIpcCap clist slot thread).kind := trivial
      rw [if_pos hallows, hmapM, Option.bind_eq_bind, Option.bind_some, takeWhile_cons_of_pos]
      · exact congrArg (cons _) (ih (b := ⟨b.mem, b.scope.next (.createIpcCap, eop)⟩)
          hrest hrestRefs)
      · rfl
    case createMutexCap clist slot mutex =>
      have hstops : ¬ b.scope.Allows (Op.createMutexCap clist slot mutex).kind := id
      rw [if_neg hstops]
      rfl
    all_goals exact absurd trivial hop

/-! ## Reading a script of elfweaver -/

/-- The last operation ends the last phase. -/
def EndsPhases : ℕ → List Bool → Prop
  | _, [] => False
  | phases, eop :: l =>
    match phasesLeft eop phases with
    | none => l = []
    | some phases => EndsPhases phases l

/-- What the kernel reads in the words of an operation. -/
def readAs (x : Op ℤ × Bool) (w : List ℕ) : Op ℤ × Bool := (decodeArgs w.tail x.1.kind, x.2)

lemma kind_decodeArgs (words : List ℕ) (kind : KiOp) : (decodeArgs words kind).kind = kind := by
  cases kind <;> rfl

section

variable (h : l.mapM (fun x => x.1.encode pageShift x.2) = .ok ws)
include h

lemma decodeScript_encode {fuel phases : ℕ}
    (hends : EndsPhases phases (l.map (·.2))) (hfuel : l.length ≤ fuel) :
    decodeScript fuel phases ws.flatten = some ((zipWith readAs l ws).map withHdr) := by
  induction l generalizing fuel phases ws with
  | nil => exact hends.elim
  | cons x l ih =>
    obtain ⟨w, hw, ws, hws, rfl⟩ := mapM_cons_eq_ok.1 h
    obtain ⟨fuel, rfl⟩ : ∃ n, fuel = n + 1 := ⟨fuel - 1, by rw [length_cons] at hfuel; omega⟩
    obtain ⟨hlength, hdecode⟩ := decodeOp_encode hw ws.flatten
    have hread : (⟨x.1.kind.size, x.1.kind.code, x.2⟩, decodeArgs w.tail x.1.kind) =
        withHdr (readAs x w) := by
      rw [withHdr, readAs, kind_decodeArgs]
    rw [map_cons] at hends
    unfold EndsPhases at hends
    unfold decodeScript
    rw [flatten_cons, hdecode]
    dsimp only
    rw [hread]
    rcases hleft : phasesLeft x.2 phases with _ | left
    · rw [hleft] at hends
      dsimp only at hends ⊢
      obtain rfl := map_eq_nil_iff.1 hends
      obtain rfl := mapM_nil_eq_ok.1 hws
      rfl
    · rw [hleft] at hends
      dsimp only at hends ⊢
      rw [drop_left' hlength, ih hws hends (Nat.le_of_succ_le_succ hfuel)]
      rfl

/-- The kernel reads the values of the operations, rounded, exactly if they all fit. -/
lemma zipWith_readAs_iff :
    (zipWith readAs l ws).map (·.1) = l.map (·.1.rounded) ↔ ∀ x ∈ l, x.1.Fits pageShift := by
  induction l generalizing ws with
  | nil =>
    obtain rfl := mapM_nil_eq_ok.1 h
    exact ⟨fun _ x hx => absurd hx not_mem_nil, fun _ => rfl⟩
  | cons x l ih =>
    obtain ⟨w, hw, ws, hws, rfl⟩ := mapM_cons_eq_ok.1 h
    rw [zipWith_cons_cons, map_cons, map_cons, cons.injEq, ih hws,
      forall_mem_cons, ← decodeArgs_encode hw, readAs]

/-- The kinds of the operations are read as they were written. -/
lemma map_keyOf_readAs : (zipWith readAs l ws).map keyOf = l.map keyOf := by
  induction l generalizing ws with
  | nil => rfl
  | cons x l ih =>
    obtain ⟨w, hw, ws, hws, rfl⟩ := mapM_cons_eq_ok.1 h
    rw [zipWith_cons_cons, map_cons, map_cons, ih hws, keyOf, readAs, kind_decodeArgs, keyOf]

lemma zipWith_readAs_of_fits
    (hfits : ∀ x ∈ l, x.1.Fits pageShift) :
    zipWith readAs l ws = l.map fun x => (x.1.rounded, x.2) := by
  have hflags := congrArg (map Prod.snd) (map_keyOf_readAs h)
  rw [map_map, map_map] at hflags
  refine (zip_of_prod ((zipWith_readAs_iff h).2 hfits) hflags).trans (zip_of_prod ?_ ?_).symm
  all_goals
    rw [map_map]
    rfl

lemma length_flatten_encode : ws.flatten.length = (l.map (·.1.kind.size)).sum := by
  induction l generalizing ws with
  | nil =>
    obtain rfl := mapM_nil_eq_ok.1 h
    rfl
  | cons x l ih =>
    obtain ⟨w, hw, ws, hws, rfl⟩ := mapM_cons_eq_ok.1 h
    rw [flatten_cons, length_append, (decodeOp_encode hw []).1, ih hws, map_cons, sum_cons]

lemma length_le_flatten : l.length ≤ ws.flatten.length := by
  rw [length_flatten_encode h, ← length_map (f := fun x : Op ℤ × Bool => x.1.kind.size)]
  refine length_le_sum_of_one_le _ fun n hn => ?_
  obtain ⟨x, -, rfl⟩ := mem_map.1 hn
  exact x.1.kind.size_pos

end

end Okl4Kernel.InitScript
