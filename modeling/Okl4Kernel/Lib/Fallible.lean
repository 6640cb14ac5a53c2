import Mathlib.Tactic.Basic

/-!
# Computations that may fail and whose effects survive the failure

`Fallible σ ε α` reads and writes a state `σ` and returns a value or stops with an error; what it
has written before the error stays. `exec` is the state that it leaves, with or without an error.

`Triple P m Q E` is the Hoare triple of such a computation, with a postcondition `Q` for its value
and one, `E`, for a failure. The rules reduce it to the single operations of a computation.
-/

/-- A computation with a state that survives errors. -/
abbrev Fallible (σ ε α : Type) := ExceptT ε (StateM σ) α

namespace Fallible

variable {σ ε α β : Type} (m : Fallible σ ε α)

/-- The state that a computation leaves. -/
def exec (s : σ) : σ := (m.run.run s).2

/-- The value that a computation returns, or its error. -/
def result (s : σ) : Except ε α := (m.run.run s).1

/-- Write the state. -/
def update (f : σ → σ) : Fallible σ ε Unit := modify f

@[simp] lemma exec_pure (a : α) (s : σ) : (pure a : Fallible σ ε α).exec s = s := rfl

@[simp] lemma exec_throw (e : ε) (s : σ) : (throw e : Fallible σ ε α).exec s = s := rfl

@[simp] lemma exec_update (f : σ → σ) (s : σ) : (update f : Fallible σ ε Unit).exec s = f s := rfl

@[simp] lemma exec_get (s : σ) : (get : Fallible σ ε σ).exec s = s := rfl

@[simp] lemma result_pure (a : α) (s : σ) : (pure a : Fallible σ ε α).result s = .ok a := rfl

@[simp] lemma result_get (s : σ) : (get : Fallible σ ε σ).result s = .ok s := rfl

@[simp] lemma result_update (f : σ → σ) (s : σ) :
    (update f : Fallible σ ε Unit).result s = .ok () := rfl

/-- The second computation runs in the state that the first one leaves, unless that fails. -/
lemma exec_bind (f : α → Fallible σ ε β) (s : σ) : (m >>= f).exec s = match m.result s with
      | .ok a => (f a).exec (m.exec s) | .error _ => m.exec s := by
  unfold exec result
  change (ExceptT.run (m >>= f) |>.run s).2 = _
  rw [ExceptT.run_bind, StateT.run_bind]
  cases hm : m.run.run s with
  | mk r s' => cases r <;> rfl

lemma result_bind (f : α → Fallible σ ε β) (s : σ) : (m >>= f).result s = match m.result s with
      | .ok a => (f a).result (m.exec s) | .error e => .error e := by
  unfold exec result
  change (ExceptT.run (m >>= f) |>.run s).1 = _
  rw [ExceptT.run_bind, StateT.run_bind]
  cases hm : m.run.run s with
  | mk r s' => cases r <;> rfl

/-- Started in a state with `P`, the computation returns a value and a state with `Q`, or fails and
leaves a state with `E`. -/
def Triple (P : σ → Prop) (m : Fallible σ ε α) (Q : α → σ → Prop) (E : σ → Prop) : Prop :=
  ∀ s, P s → match m.result s with
    | .ok a => Q a (m.exec s)
    | .error _ => E (m.exec s)

/-- The computation keeps an invariant, whether or not it fails. -/
abbrev Keeps (I : σ → Prop) (m : Fallible σ ε α) : Prop := Triple I m (fun _ => I) I

variable {P P' : σ → Prop} {Q : α → σ → Prop} {R : β → σ → Prop} {E : σ → Prop}
variable {x : Except ε α} {a : α} {f : α → Except ε β}

lemma triple_pure (a : α) (h : ∀ s, P s → Q a s) : Triple P (pure a : Fallible σ ε α) Q E := h

lemma triple_throw (e : ε) (h : ∀ s, P s → E s) : Triple P (throw e : Fallible σ ε α) Q E := h

lemma triple_get {Q : σ → σ → Prop} (h : ∀ s, P s → Q s s) :
    Triple P (get : Fallible σ ε σ) Q E := h

lemma triple_update {f : σ → σ} {Q : Unit → σ → Prop} (h : ∀ s, P s → Q () (f s)) :
    Triple P (update f : Fallible σ ε Unit) Q E := h

variable {m : Fallible σ ε α}

/-- Rule of sequential composition. -/
lemma Triple.bind {f : α → Fallible σ ε β} (hm : Triple P m Q E)
    (hf : ∀ a, Triple (Q a) (f a) R E) : Triple P (m >>= f) R E := by
  intro s hs
  have hms := hm s hs
  rw [exec_bind, result_bind]
  cases hr : m.result s with
  | ok a =>
    rw [hr] at hms
    exact hf a _ hms
  | error e =>
    rw [hr] at hms
    exact hms

lemma triple_ite {c : Prop} [Decidable c] {m' : Fallible σ ε α} (hm : c → Triple P m Q E)
    (hm' : ¬c → Triple P m' Q E) : Triple P (if c then m else m') Q E := by
  by_cases hc : c
  · rw [if_pos hc]
    exact hm hc
  · rw [if_neg hc]
    exact hm' hc

lemma triple_check {c : Prop} [Decidable c] {e : ε} (h : ∀ s, P s → E s)
    (hm : ¬c → Triple P m Q E) : Triple P (if c then throw e else m) Q E :=
  triple_ite (fun _ => triple_throw e h) hm

/-- Rule of a write that keeps the precondition. -/
lemma triple_update_bind {f : σ → σ} (h : ∀ s, P s → P (f s)) (hm : Triple P m Q E) :
    Triple P (update f >>= fun _ => m) Q E :=
  (triple_update (Q := fun _ => P) h).bind fun _ => hm

lemma triple_get_bind {f : σ → Fallible σ ε α} (h : ∀ a, Triple P (f a) Q E) :
    Triple P (get >>= f) Q E :=
  (triple_get (Q := fun _ => P) fun _ hs => hs).bind h

lemma Triple.weaken (hm : Triple P m Q E) (h : ∀ s, P' s → P s) :
    Triple P' m Q E := fun s hs => hm s (h s hs)

lemma Triple.consequence {Q' : α → σ → Prop} (hm : Triple P m Q E) (h : ∀ s, P' s → P s)
    (h' : ∀ a s, Q a s → Q' a s) : Triple P' m Q' E := by
  intro s hs
  have hms := hm s (h s hs)
  cases hr : m.result s with
  | ok a =>
    rw [hr] at hms
    exact h' a _ hms
  | error e =>
    rw [hr] at hms
    exact hms

/-- What holds whether or not the computation fails. -/
lemma Triple.exec (hm : Triple P m (fun _ => E) E) {s : σ} (hs : P s) : E (m.exec s) := by
  have hms := hm s hs
  split at hms <;> exact hms

/-- A sequence of two computations that returns has got a value from the first. -/
lemma bind_eq_ok {b : β} : (x >>= f) = .ok b ↔ ∃ a, x = .ok a ∧ f a = .ok b := by
  cases x with
  | error e => exact ⟨nofun, nofun⟩
  | ok a => exact ⟨fun h => ⟨a, rfl, h⟩, fun ⟨_, ha, h⟩ => by cases ha; exact h⟩

/-- A computation that is guarded by a check returns if the check is passed. -/
lemma ite_error_eq_ok {c : Prop} [Decidable c] {e : ε} :
    (if c then .error e else x) = .ok a ↔ ¬ c ∧ x = .ok a := by
  by_cases h : c
  · rw [if_pos h]
    exact ⟨nofun, fun hc => absurd h hc.1⟩
  · rw [if_neg h]
    exact ⟨fun hx => ⟨h, hx⟩, And.right⟩

/-- A list of computations that all return has got the value of the first one and of the others. -/
lemma mapM_cons_eq_ok {as : List α} {bs : List β} :
    (a :: as).mapM f = .ok bs ↔ ∃ b, f a = .ok b ∧ ∃ bs', as.mapM f = .ok bs' ∧ b :: bs' = bs := by
  rw [List.mapM_cons]
  simp only [bind_eq_ok, pure, Except.pure, Except.ok.injEq]

lemma mapM_nil_eq_ok {bs : List β} : ([] : List α).mapM f = .ok bs ↔ [] = bs := by
  simp only [List.mapM_nil, pure, Except.pure, Except.ok.injEq]

/-- A value that is left when the errors are forgotten has been returned. -/
lemma toOption_eq_some : x.toOption = some a ↔ x = .ok a := by
  cases x with
  | error e => exact ⟨nofun, nofun⟩
  | ok b => exact ⟨fun h => congrArg _ (Option.some.inj h), fun h => by cases h; rfl⟩

end Fallible
