import Okl4Kernel.Lib.LinkedChain
import Okl4Kernel.Lib.TransitionSystem

/-!
# Dictionaries of protection domains

A dictionary is a list of protection domains that are linked through their `dict_next` pointers.
Whether a domain is in a dictionary is not recorded: `okl4_pd_dict_add` takes a null pointer for a
sign that it is not. But the pointer of the last domain of a dictionary is null as well, and
`okl4_pd_dict_remove` leaves the pointer of a domain as it was.

`dictionary_correct_iff` says that the dictionaries are right exactly as long as no domain is added whose
pointer is misleading.
-/

namespace Okl4Kernel.PdDict

open LinkedChain TransitionSystem Function List

/-- The pointers: the head of a dictionary, and the `dict_next` of a domain. -/
inductive Cell (Dict Pd : Type*)
  | head (dict : Dict)
  | dictNext (pd : Pd)
  deriving DecidableEq

variable {Dict Pd : Type*} {c : Cell Dict Pd}

/-- The pointers, and what should be: the dictionary that each domain is in, how many domains were
linked, and whether the last call returned with the right report. -/
structure State (Dict Pd : Type*) where
  cells : Cell Dict Pd → Option Pd
  home : Pd → Option Dict
  linked : ℕ
  right : Bool

/-- The calls. -/
inductive Op (Dict Pd : Type*)
  | add (dict : Dict) (pd : Pd)
  | remove (dict : Dict) (pd : Pd)

section

variable [DecidableEq Dict] [DecidableEq Pd] (s : State Dict Pd)

/-- `okl4_pd_dict_add`. It reports `OKL4_IN_USE` if the pointer is not null. -/
def pdDictAdd (dict : Dict) (pd : Pd) : State Dict Pd :=
  if s.cells (.dictNext pd) ≠ none then { s with right := s.home pd ≠ none }
  else {
    cells := update (update s.cells (.dictNext pd) (s.cells (.head dict))) (.head dict) (some pd)
    home := update s.home pd (some dict)
    linked := s.linked + 1
    right := s.home pd = none }

/-- The loop of `okl4_pd_dict_remove`: the pointer to the domain, which is the head for a null
`previous`, or `none` at the end of the list. -/
def findPd (cells : Cell Dict Pd → Option Pd) (pd : Pd) :
    ℕ → Cell Dict Pd → Option (Option (Cell Dict Pd))
  | 0, _ => none
  | fuel + 1, cell =>
    match cells cell with
    | none => some none
    | some next => if next = pd then some (some cell) else findPd cells pd fuel (.dictNext next)

/-- `okl4_pd_dict_remove`, which reports `OKL4_OUT_OF_RANGE` if the domain is not found. A search
that comes to an end passes no domain twice, so the number of linked domains bounds it. -/
def pdDictRemove (dict : Dict) (pd : Pd) : State Dict Pd :=
  match findPd s.cells pd (s.linked + 1) (.head dict) with
  | none => { s with right := false }
  | some none => { s with right := s.home pd ≠ some dict }
  | some (some cell) => { s with
      cells := update s.cells cell (s.cells (.dictNext pd))
      home := update s.home pd none
      right := s.home pd = some dict }

/-- One call. -/
def step : Op Dict Pd → Option (State Dict Pd)
  | .add dict pd => some (pdDictAdd s dict pd)
  | .remove dict pd => some (pdDictRemove s dict pd)

end

/-- Empty dictionaries, and domains that have just been created. -/
def start : State Dict Pd where
  cells _ := none
  home _ := none
  linked := 0
  right := true

variable (s : State Dict Pd)

/-- The list of a dictionary comes to an end, and has the domains that should be in it. -/
def Spells (dict : Dict) (pds : List Pd) : Prop :=
  Seg .dictNext s.cells (.head dict) pds none ∧ ∀ pd, pd ∈ pds ↔ s.home pd = some dict

/-- The dictionaries are right, and so was the last report. -/
def Correct : Prop :=
  s.right = true ∧ ∀ dict, ∃ pds, pds.Nodup ∧ Spells s dict pds

/-- A domain is added only if its pointer is null exactly when it is in no dictionary: it is not the
last one of a dictionary, and it was not removed while others came behind it. -/
def Careful : Op Dict Pd → Prop
  | .add _ pd => s.cells (.dictNext pd) = none ↔ s.home pd = none
  | .remove _ _ => True

/-- The dictionaries are right, and their domains are counted. -/
def Inv : Prop :=
  s.right = true ∧ ∀ dict, ∃ pds, Spells s dict pds ∧ pds.length ≤ s.linked

variable {s s' : State Dict Pd} {dict : Dict} {pd : Pd} {pds : List Pd}

lemma dictNext_injective : Injective (Cell.dictNext : Pd → Cell Dict Pd) :=
  fun _ _ => Cell.dictNext.inj

lemma Spells.congr (h : Spells s dict pds) (hhead : s'.cells (.head dict) = s.cells (.head dict))
    (hnext : ∀ x ∈ pds, s'.cells (.dictNext x) = s.cells (.dictNext x))
    (hhome : ∀ x, s'.home x = some dict ↔ s.home x = some dict) : Spells s' dict pds :=
  ⟨h.1.congr hhead hnext, fun x => (h.2 x).trans (hhome x).symm⟩

lemma Inv.correct (h : Inv s) : Correct s :=
  ⟨h.1, fun dict => (h.2 dict).imp fun _ hpds => ⟨hpds.1.1.nodup, hpds.1⟩⟩

lemma start_inv : Inv (start : State Dict Pd) :=
  ⟨rfl, fun _ => ⟨[], ⟨rfl, fun _ => iff_of_false nofun nofun⟩, Nat.le_refl 0⟩⟩

variable [DecidableEq Pd]

/-- The search passes the domains in front of the one that it is for. -/
theorem findPd_of_notMem {cells : Cell Dict Pd → Option Pd} {e : Option Pd}
    (h : Seg .dictNext cells c pds e) (hpd : pd ∉ pds) (fuel : ℕ) :
    findPd cells pd (fuel + pds.length) c = findPd cells pd fuel (lastCell .dictNext c pds) := by
  induction pds generalizing c with
  | nil => rfl
  | cons x pds ih =>
    rw [mem_cons, not_or] at hpd
    rw [length_cons, ← Nat.add_assoc, findPd]
    simp only [h.1, if_neg (Ne.symm hpd.1)]
    exact ih h.2 hpd.2

variable [DecidableEq Dict]

lemma Inv.pdDictAdd (h : Inv s) (hiff : s.cells (.dictNext pd) = none ↔ s.home pd = none) :
    Inv (pdDictAdd s dict pd) := by
  by_cases hhome : s.home pd = none
  case neg =>
    rw [PdDict.pdDictAdd, if_pos (mt hiff.1 hhome)]
    exact ⟨decide_eq_true hhome, h.2⟩
  rw [PdDict.pdDictAdd, if_neg (not_not.2 (hiff.2 hhome))]
  refine ⟨decide_eq_true hhome, fun dict' => ?_⟩
  obtain ⟨pds, hspells, hlength⟩ := h.2 dict'
  have hnotin : pd ∉ pds := by simp [hspells.2, hhome]
  have hnext : ∀ x ∈ pds, update (update s.cells (.dictNext pd) (s.cells (.head dict)))
      (.head dict) (some pd) (.dictNext x) = s.cells (.dictNext x) := by
    intro x hx
    have hne : x ≠ pd := fun e => hnotin (e ▸ hx)
    simp [hne]
  by_cases hd : dict' = dict
  · subst hd
    refine ⟨pd :: pds, ⟨⟨update_self .., hspells.1.congr (by simp) hnext⟩, fun x => ?_⟩,
      Nat.succ_le_succ hlength⟩
    by_cases hx : x = pd
    · simp [hx]
    · simp [hx, hspells.2]
  · refine ⟨pds, hspells.congr ?_ hnext fun x => ?_, Nat.le_succ_of_le hlength⟩
    · simp [hd]
    · by_cases hx : x = pd
      · simp [hx, hhome, Ne.symm hd]
      · simp [hx]

lemma Inv.pdDictRemove (h : Inv s) (dict : Dict) (pd : Pd) : Inv (pdDictRemove s dict pd) := by
  obtain ⟨pds, ⟨hseg, hmem⟩, hlength⟩ := h.2 dict
  obtain ⟨k, hk⟩ := Nat.exists_eq_add_of_le hlength
  by_cases hhome : s.home pd = some dict
  case neg =>
    have hend : s.cells (lastCell .dictNext (.head dict) pds) = none := by
      rw [← append_nil pds] at hseg
      exact (seg_append.1 hseg).2
    have hfind : findPd s.cells pd (s.linked + 1) (.head dict) = some none := by
      rw [show s.linked + 1 = k + 1 + pds.length by omega,
        findPd_of_notMem hseg (mt (hmem pd).1 hhome), findPd, hend]
    rw [PdDict.pdDictRemove, hfind]
    exact ⟨decide_eq_true hhome, h.2⟩
  obtain ⟨as, bs, rfl⟩ := append_of_mem ((hmem pd).2 hhome)
  obtain ⟨hfront, hpd, hrest⟩ := seg_append.1 hseg
  obtain ⟨has, hbs⟩ : pd ∉ as ∧ pd ∉ bs := by
    simpa using (nodup_cons.1 (nodup_middle.1 hseg.nodup)).1
  rw [length_append, length_cons] at hk hlength
  have hfind : findPd s.cells pd (s.linked + 1) (.head dict) =
      some (some (lastCell .dictNext (.head dict) as)) := by
    rw [show s.linked + 1 = k + bs.length + 1 + 1 + as.length by omega,
      findPd_of_notMem hfront has, findPd, hpd]
    exact if_pos rfl
  rw [PdDict.pdDictRemove, hfind]
  refine ⟨decide_eq_true hhome, fun dict' => ?_⟩
  by_cases hd : dict' = dict
  · subst hd
    refine ⟨as ++ bs, ⟨?_, fun x => ?_⟩, ?_⟩
    · dsimp only
      rw [hrest.cell_eq]
      rw [← singleton_append] at hseg
      exact hseg.cut dictNext_injective nofun
    · by_cases hx : x = pd
      · simp [hx, has, hbs]
      · simp [hx, ← hmem]
    · rw [length_append]
      dsimp only
      omega
  · obtain ⟨pds', hspells, hlength'⟩ := h.2 dict'
    -- The pointer that is written is not one of another dictionary.
    refine ⟨pds', hspells.congr (update_of_ne ?_ _ _) (fun x hx => update_of_ne ?_ _ _)
      fun x => ?_, hlength'⟩
    · intro heq
      obtain hlast | ⟨x, -, hlast⟩ := lastCell_mem (Cell.head dict) as
      · exact hd (Cell.head.inj (heq.trans hlast))
      · cases heq.trans hlast
    · refine lastCell_ne dictNext_injective nofun fun hin => hd ?_
      have hx' : s.home x = some dict := (hmem x).1 (mem_append_left _ hin)
      exact Option.some.inj (((hspells.2 x).1 hx).symm.trans hx')
    · by_cases hx : x = pd
      · simp [hx, hhome, Ne.symm hd]
      · simp [hx]

/-- The dictionaries and the reports are right in all states of a run exactly if every call is
careful. -/
theorem dictionary_correct_iff (ops : List (Op Dict Pd)) :
    (∀ n s, run step start (ops.take n) = some s → Correct s) ↔
      RunMeets step Careful (start : State Dict Pd) ops := by
  refine runMeets_iff (I := Inv) (fun s h => h.correct) ?_ ?_ ?_ start_inv ops
  · intro s op hnone
    cases op <;> cases hnone
  · intro s op s' h hstep hok
    cases op <;> cases hstep
    · exact h.pdDictAdd hok
    · exact h.pdDictRemove _ _
  · rintro s (⟨dict, pd⟩ | _) s' h ⟨⟩ ⟨hright, -⟩
    · by_cases hnext : s.cells (.dictNext pd) = none
      · rw [pdDictAdd, if_neg (not_not.2 hnext)] at hright
        exact iff_of_true hnext (of_decide_eq_true hright)
      · rw [pdDictAdd, if_pos hnext] at hright
        exact iff_of_false hnext (of_decide_eq_true hright)
    · trivial

/-- A domain is added twice, and the list never ends. -/
theorem add_twice_not_correct : ∃ s : State Unit ℕ,
    run step start [.add () 0, .add () 0] = some s ∧ s.cells (.dictNext 0) = some 0 ∧
      ¬ Correct s := by
  refine exists_run (Q := fun s => s.cells (.dictNext 0) = some 0 ∧ s.right = false)
    (by decide) fun s _ hview => ⟨hview.1, fun hcorrect => ?_⟩
  exact absurd hcorrect.1 (by simp [hview.2])

end Okl4Kernel.PdDict
