import Mathlib.Data.Option.Basic

/-!
# Runs of a partial, labelled step function

A system is given by a step function `step : σ → α → Option σ`: the operation `a` takes the state
`s` to `step s a`, and `none` means that the operation is not possible in `s`. `run` folds the
step function over a list of operations, and the invariant rules say what a whole run preserves
once one step is known to preserve it.

The second rule is for operations that are harmless only under a condition on the state in which
they are performed: `RunMeets` says that every step of a run meets its condition, and
`RunMeets.invariant` carries an invariant along such runs. When a step that does not meet its
condition breaks a property at once, such runs are the only ones that keep it (`runMeets_iff`).
-/

namespace TransitionSystem

variable {σ α : Type*}
variable {s : σ} {P : σ → Prop} {step : σ → α → Option σ} {ok : σ → α → Prop}

/-- The state reached by performing the operations of a list one after the other. -/
def run (step : σ → α → Option σ) : σ → List α → Option σ
  | s, [] => some s
  | s, a :: as => (step s a).bind fun s' => run step s' as

@[simp] lemma run_nil (step : σ → α → Option σ) (s : σ) : run step s [] = some s := rfl

@[simp] lemma run_cons (step : σ → α → Option σ) (s : σ) (a : α) (as : List α) :
    run step s (a :: as) = (step s a).bind fun s' => run step s' as := rfl

lemma run_append (as bs : List α) :
    run step s (as ++ bs) = (run step s as).bind fun s' => run step s' bs := by
  induction as generalizing s with
  | nil => rfl
  | cons a as ih => simp [ih, Option.bind_assoc]

/-- What every step preserves is preserved by every run. -/
theorem run_invariant (hstep : ∀ s a s', P s → step s a = some s' → P s') {s' : σ} {as : List α}
    (hs : P s) (hrun : run step s as = some s') : P s' := by
  induction as generalizing s with
  | nil =>
    cases hrun
    exact hs
  | cons a as ih =>
    obtain ⟨t, ht, hrest⟩ := Option.bind_eq_some_iff.1 hrun
    exact ih (hstep s a t hs ht) hrest

/-- If every step is a step of another system, or does nothing there, then what a run leads to is
reached there, too. -/
theorem run_refines {ρ β : Type*} {step' : ρ → β → Option ρ} {r : ρ} {f : σ → ρ} {s' : σ} {as : List α}
    (hstep : ∀ s a s', (∃ bs, run step' r bs = some (f s)) → step s a = some s' →
      f s' = f s ∨ ∃ b, step' (f s) b = some (f s'))
    (hs : ∃ bs, run step' r bs = some (f s)) (hrun : run step s as = some s') :
    ∃ bs, run step' r bs = some (f s') := by
  refine run_invariant (P := fun s => ∃ bs, run step' r bs = some (f s)) (fun s a s' hs ha => ?_) hs hrun
  rcases hstep s a s' hs ha with heq | ⟨b, hb⟩
  · rwa [heq]
  · obtain ⟨bs, hbs⟩ := hs
    exact ⟨bs ++ [b], by simp [run_append, hbs, hb]⟩

/-- A run is found by performing it, and with it whatever follows from a property of the state in
which it ends. -/
theorem exists_run {Q R : σ → Prop} [DecidablePred Q] {as : List α}
    (heval : (run step s as).any (fun s' => decide (Q s')) = true)
    (h : ∀ s', run step s as = some s' → Q s' → R s') : ∃ s', run step s as = some s' ∧ R s' := by
  obtain ⟨s', hrun, hq⟩ := (Option.any_eq_true _ _).1 heval
  exact ⟨s', hrun, h s' hrun (of_decide_eq_true hq)⟩

/-- Every step of the run over `as` from `s` meets the condition `ok` in the state it starts in. -/
def RunMeets (step : σ → α → Option σ) (ok : σ → α → Prop) : σ → List α → Prop
  | _, [] => True
  | s, a :: as => ok s a ∧ ∀ s', step s a = some s' → RunMeets step ok s' as

/-- Whether a run meets a decidable condition is decided by performing it. -/
instance decidableRunMeets (step : σ → α → Option σ) (ok : σ → α → Prop)
    [∀ s a, Decidable (ok s a)] : (s : σ) → (as : List α) → Decidable (RunMeets step ok s as)
  | _, [] => .isTrue trivial
  | s, a :: as =>
    have : ∀ s', Decidable (RunMeets step ok s' as) := fun s' => decidableRunMeets step ok s' as
    inferInstanceAs (Decidable (ok s a ∧ ∀ s' ∈ step s a, RunMeets step ok s' as))

/-- What every step that meets its condition preserves is preserved by every run whose steps all
meet their conditions. -/
theorem RunMeets.invariant (hstep : ∀ s a s', P s → ok s a → step s a = some s' → P s') {s' : σ}
    {as : List α} (hok : RunMeets step ok s as) (hs : P s) (hrun : run step s as = some s') :
    P s' := by
  induction as generalizing s with
  | nil =>
    cases hrun
    exact hs
  | cons a as ih =>
    obtain ⟨t, ht, hrest⟩ := Option.bind_eq_some_iff.1 hrun
    exact ih (hok.2 t ht) (hstep s a t hs hok.1 ht) hrest

/-- Conditions that agree in all good states are met by the same runs, if steps that meet them lead
from good states to good states. -/
theorem runMeets_congr {ok' : σ → α → Prop} {I : σ → Prop} (hiff : ∀ s a, I s → (ok s a ↔ ok' s a))
    (hstep : ∀ s a s', I s → ok' s a → step s a = some s' → I s') (hs : I s) (as : List α) :
    RunMeets step ok s as ↔ RunMeets step ok' s as := by
  induction as generalizing s with
  | nil => exact Iff.rfl
  | cons a as ih =>
    have ha := hiff s a hs
    constructor
    · rintro ⟨hok, hrest⟩
      have hok' := ha.1 hok
      exact ⟨hok', fun s' hs' => (ih (hstep s a s' hs hok' hs')).1 (hrest s' hs')⟩
    · rintro ⟨hok', hrest⟩
      exact ⟨ha.2 hok', fun s' hs' => (ih (hstep s a s' hs hok' hs')).2 (hrest s' hs')⟩

/-- When a step from a good state leads to a good state exactly if it meets its condition, the runs
whose steps all meet their conditions are those that reach only states with the property. -/
theorem runMeets_iff {I : σ → Prop} (hI : ∀ s, I s → P s) (hnone : ∀ s a, step s a = none → ok s a)
    (hstep : ∀ s a s', I s → step s a = some s' → ok s a → I s')
    (hbad : ∀ s a s', I s → step s a = some s' → P s' → ok s a) (hs : I s) (as : List α) :
    (∀ n s', run step s (as.take n) = some s' → P s') ↔ RunMeets step ok s as := by
  constructor
  · intro h
    induction as generalizing s with
    | nil => trivial
    | cons a as ih =>
      rcases ha : step s a with _ | t
      · exact ⟨hnone s a ha, fun s' hs' => by rw [ha] at hs'; cases hs'⟩
      have ht : P t := by
        refine h 1 t ?_
        simp [run, ha]
      have hok := hbad s a t hs ha ht
      refine ⟨hok, fun s' hs' => ?_⟩
      rw [ha] at hs'
      cases hs'
      refine ih (hstep s a t hs ha hok) fun n s' hrun => h (n + 1) s' ?_
      simpa [run, ha] using hrun
  · intro h n s' hrun
    induction as generalizing s n with
    | nil =>
      rw [List.take_nil] at hrun
      cases hrun
      exact hI _ hs
    | cons a as ih =>
      rcases n with _ | n
      · cases hrun
        exact hI _ hs
      · rw [List.take_succ_cons] at hrun
        obtain ⟨t, ht, hrest⟩ := Option.bind_eq_some_iff.1 hrun
        exact ih (hstep s a t hs ht h.1) (h.2 t ht) n hrest

end TransitionSystem
