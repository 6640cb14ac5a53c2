import Mathlib.Data.Finset.Fold
import Mathlib.Data.Fintype.EquivFin
import Mathlib.Order.WellFounded

/-!
# Priority inheritance along a donation graph

Every agent has a base priority, and donates its effective priority to at most one other agent, the
one it waits for. The effective priority of an agent is due to be the greatest of its base
priority and the effective priorities that are donated to it; a graph in which this holds for
every agent is `Balanced`.

After a local change a single agent may be out of balance. `propagate` walks along the donation
edges from that agent, gives each agent on the way its due priority and stops at the first one that
already has it. The walk ends after at most as many steps as there are agents, even if the graph has
cycles (`BalancedExcept.stopsWithin`): a walk that raises priorities raises all of them to one value,
and a walk that lowers priorities lowers agents that all had one value, so no agent is visited twice.

On an acyclic balanced graph the effective priorities are known in closed form
(`Balanced.isGreatest_base`): they are the greatest base priority of the agents that wait for the
agent, directly or through others.
-/

namespace PriorityInheritance

open Finset Option

variable {τ P : Type*}

/-- Base and effective priorities, and the agent to which each agent donates. -/
structure WaitGraph (τ P : Type*) where
  /-- The priority an agent has by itself. -/
  base : τ → P
  /-- The priority an agent runs at. -/
  eff : τ → P
  /-- The agent that an agent waits for. -/
  waitsOn : τ → Option τ

namespace WaitGraph

section Update

variable [DecidableEq τ]

/-- Change the effective priority of one agent. -/
def setEff (g : WaitGraph τ P) (t : τ) (p : P) : WaitGraph τ P :=
  { g with eff := Function.update g.eff t p }

@[simp] lemma setEff_eff_self (g : WaitGraph τ P) (t : τ) (p : P) : (g.setEff t p).eff t = p :=
  Function.update_self ..

lemma setEff_eff_of_ne (g : WaitGraph τ P) {t u : τ} (h : u ≠ t) (p : P) :
    (g.setEff t p).eff u = g.eff u :=
  Function.update_of_ne h ..

end Update

variable [Fintype τ] [DecidableEq τ] [LinearOrder P]
variable {p : P} {S : P → Prop} {c d t : τ} {n : ℕ}

/-- The greatest of an agent's base priority and of the priorities donated to it. -/
def due (g : WaitGraph τ P) (t : τ) : P :=
  (univ.filter fun u => g.waitsOn u = some t).fold max (g.base t) g.eff

/-- Every agent has its due priority. -/
def Balanced (g : WaitGraph τ P) : Prop := ∀ t, g.eff t = g.due t

/-- Every agent but possibly the given one has its due priority. -/
def BalancedExcept (g : WaitGraph τ P) (c : Option τ) : Prop := ∀ t, c ≠ some t → g.eff t = g.due t

/-- Walk along the donation edges from the agent `c`, at most `n` steps far, until an agent has
its due priority. -/
def propagate : ℕ → WaitGraph τ P → Option τ → WaitGraph τ P
  | 0, g, _ => g
  | _ + 1, g, none => g
  | n + 1, g, some c =>
    if g.eff c = g.due c then g else propagate n (g.setEff c (g.due c)) (g.waitsOn c)

variable {g : WaitGraph τ P}

lemma due_le_iff : g.due t ≤ p ↔ g.base t ≤ p ∧ ∀ u, g.waitsOn u = some t → g.eff u ≤ p := by
  simp [due, fold_max_le]

lemma base_le_due (g : WaitGraph τ P) (t : τ) : g.base t ≤ g.due t :=
  (due_le_iff.1 le_rfl).1

lemma eff_le_due {u : τ} (h : g.waitsOn u = some t) : g.eff u ≤ g.due t :=
  (due_le_iff.1 le_rfl).2 u h

lemma due_eq_base_or (g : WaitGraph τ P) (t : τ) :
    g.due t = g.base t ∨ ∃ u, g.waitsOn u = some t ∧ g.due t = g.eff u := by
  have hle : g.due t ≤ g.due t := le_rfl
  rw [due, le_fold_max] at hle
  rcases hle with hbase | ⟨u, hu, heff⟩
  · exact .inl (le_antisymm hbase (base_le_due g t))
  · have hto : g.waitsOn u = some t := by simpa using hu
    exact .inr ⟨u, hto, le_antisymm heff (eff_le_due hto)⟩

/-- A priority is due if it bounds the same values from below. -/
theorem eq_due_of_forall (h : ∀ q, p ≤ q ↔ g.base t ≤ q ∧ ∀ u, g.waitsOn u = some t → g.eff u ≤ q) :
    p = g.due t :=
  eq_of_forall_ge_iff fun q => (h q).trans due_le_iff.symm

/-- The change of an effective priority reaches only the agent it is donated to. -/
theorem setEff_due_of_ne (g : WaitGraph τ P) (h : g.waitsOn c ≠ some t) (p : P) :
    (g.setEff c p).due t = g.due t := by
  symm
  apply eq_due_of_forall
  intro q
  rw [due_le_iff]
  refine and_congr Iff.rfl (forall_congr' fun u => imp_congr_right fun hu => ?_)
  have hne : u ≠ c := fun e => h (e ▸ hu)
  rw [setEff_eff_of_ne g hne]

/-- Raising a donated priority raises what is due to the donatee. -/
theorem setEff_due_of_le (g : WaitGraph τ P) (h : g.waitsOn c = some d) (hp : g.eff c ≤ p) :
    (g.setEff c p).due d = max (g.due d) p := by
  symm
  apply eq_due_of_forall
  intro q
  rw [max_le_iff, due_le_iff]
  constructor
  · rintro ⟨⟨hbase, hdon⟩, hpq⟩
    refine ⟨hbase, fun u hu => ?_⟩
    by_cases hc : u = c
    · subst hc
      simpa using hpq
    · rw [setEff_eff_of_ne g hc]
      exact hdon u hu
  · rintro ⟨hbase, hdon⟩
    have hpq : p ≤ q := by simpa using hdon c h
    refine ⟨⟨hbase, fun u hu => ?_⟩, hpq⟩
    by_cases hc : u = c
    · subst hc
      exact hp.trans hpq
    · have := hdon u hu
      rwa [setEff_eff_of_ne g hc] at this

/-- Lowering a donated priority lowers what is due to the donatee only if that was the donated
priority itself. -/
theorem setEff_due_of_ge (g : WaitGraph τ P) (h : g.waitsOn c = some d) (hp : p ≤ g.eff c) :
    (g.setEff c p).due d ≤ g.due d ∧
      ((g.setEff c p).due d < g.due d → g.due d = g.eff c) := by
  constructor
  · rw [due_le_iff]
    refine ⟨base_le_due g d, fun u hu => ?_⟩
    by_cases hc : u = c
    · subst hc
      rw [setEff_eff_self]
      exact hp.trans (eff_le_due h)
    · rw [setEff_eff_of_ne g hc]
      exact eff_le_due hu
  · intro hlt
    rcases due_eq_base_or g d with hbase | ⟨u, hu, heff⟩
    · exact absurd (base_le_due (g.setEff c p) d) (not_le.2 (hbase ▸ hlt))
    · by_cases hc : u = c
      · rw [heff, hc]
      · have hle : (g.setEff c p).eff u ≤ (g.setEff c p).due d := eff_le_due hu
        rw [setEff_eff_of_ne g hc, ← heff] at hle
        exact absurd hle (not_le.2 hlt)

variable {g' : WaitGraph τ P}

/-- What is due to an agent depends only on its base priority and on its donors. -/
theorem due_congr (hbase : g'.base t = g.base t)
    (hdonors : ∀ u, g'.waitsOn u = some t ↔ g.waitsOn u = some t)
    (heff : ∀ u, g.waitsOn u = some t → g'.eff u = g.eff u) : g'.due t = g.due t := by
  apply eq_due_of_forall
  intro q
  rw [due_le_iff, hbase]
  refine and_congr Iff.rfl (forall_congr' fun u => ?_)
  rw [hdonors]
  exact imp_congr_right fun hu => by rw [heff u hu]

lemma due_of_new_donor (hbase : g'.base d = g.base d)
    (hdonors : ∀ u, g'.waitsOn u = some d ↔ g.waitsOn u = some d ∨ u = c) (heff : g'.eff = g.eff) :
    g'.due d = max (g.due d) (g.eff c) := by
  symm
  apply eq_due_of_forall
  intro q
  rw [max_le_iff, due_le_iff, hbase, heff]
  constructor
  · rintro ⟨⟨hb, hdon⟩, hc⟩
    refine ⟨hb, fun u hu => ?_⟩
    rcases (hdonors u).1 hu with hold | rfl
    · exact hdon u hold
    · exact hc
  · rintro ⟨hb, hdon⟩
    exact ⟨⟨hb, fun u hu => hdon u ((hdonors u).2 (.inl hu))⟩,
      hdon c ((hdonors c).2 (.inr rfl))⟩

/-- Giving the one unbalanced agent its due priority balances it, and leaves at most the agent it
donates to out of balance. -/
theorem BalancedExcept.setEff (h : g.BalancedExcept (some c)) :
    (g.setEff c (g.due c)).BalancedExcept (g.waitsOn c) := by
  intro t ht
  rw [setEff_due_of_ne g ht]
  by_cases htc : t = c
  · subst htc
    simp
  · rw [setEff_eff_of_ne g htc]
    exact h t fun e => htc (some.inj e).symm

/-- Redirecting donations to or from one agent unbalances at most that agent. -/
theorem BalancedExcept.redirect {c : Option τ} (h : g.BalancedExcept c) (hbase : g'.base = g.base)
    (heff : g'.eff = g.eff) (hwaits : ∀ u, g'.waitsOn u = g.waitsOn u ∨ (g.waitsOn u = none ∨
      g.waitsOn u = c) ∧ (g'.waitsOn u = none ∨ g'.waitsOn u = c)) : g'.BalancedExcept c := by
  intro t ht
  have hdue : g'.due t = g.due t := by
    refine due_congr (by rw [hbase]) (fun u => ?_) fun u _ => by rw [heff]
    rcases hwaits u with heq | ⟨hold, hnew⟩
    · rw [heq]
    -- Neither the old nor the new edge of `u` leads to `t`.
    have hnot : ∀ {o : Option τ}, o = none ∨ o = c → o ≠ some t := by
      rintro o (rfl | rfl)
      · exact fun e => absurd e (by simp)
      · exact ht
    exact iff_of_false (hnot hnew) (hnot hold)
  rw [heff, hdue]
  exact h t ht

/-- Once an agent has been raised to its due priority `p`, the agent it donates to is due the
greater of its own priority and `p`. -/
theorem BalancedExcept.due_after_raise (h : g.BalancedExcept (some c)) (hp : g.due c = p)
    (hle : g.eff c ≤ p) (hd : g.waitsOn c = some d) :
    (g.setEff c p).due d = max ((g.setEff c p).eff d) p := by
  rw [setEff_due_of_le g hd hle]
  by_cases hdc : d = c
  · subst hdc
    rw [hp, setEff_eff_self]
  · rw [setEff_eff_of_ne g hdc, h d fun e => hdc (some.inj e).symm]

/-- A graph whose exception has its due priority as well is balanced. -/
theorem BalancedExcept.balanced {c : Option τ} (h : g.BalancedExcept c)
    (hc : ∀ t, c = some t → g.eff t = g.due t) : g.Balanced := by
  intro t
  by_cases ht : c = some t
  · exact hc t ht
  · exact h t ht

/-! ## The walk ends and balances the graph -/

/-- The walk from the agent `c` meets an agent that has its due priority, or the end of the
donation edges, in fewer than `n` steps. -/
def StopsWithin : ℕ → WaitGraph τ P → Option τ → Prop
  | 0, _, _ => False
  | _ + 1, _, none => True
  | n + 1, g, some c =>
    g.eff c ≠ g.due c → StopsWithin n (g.setEff c (g.due c)) (g.waitsOn c)

lemma StopsWithin.balanced {c : Option τ} (hstop : StopsWithin n g c) (h : g.BalancedExcept c) :
    (propagate n g c).Balanced := by
  induction n generalizing g c with
  | zero => exact hstop.elim
  | succ n ih =>
    rcases c with _ | c
    · exact h.balanced nofun
    rw [propagate]
    split_ifs with heq
    · exact h.balanced fun t ht => some.inj ht ▸ heq
    · exact ih (hstop heq) h.setEff

omit [LinearOrder P] in
/-- A set of agents loses a member that an update moves out of it. -/
theorem card_filter_setEff_lt [DecidablePred S] (hc : S (g.eff c)) (hp : ¬ S p) :
    (univ.filter fun t => S ((g.setEff c p).eff t)).card <
      (univ.filter fun t => S (g.eff t)).card := by
  apply card_lt_card
  rw [ssubset_iff_of_subset]
  · exact ⟨c, by simpa using hc, by simpa using hp⟩
  · intro t ht
    by_cases htc : t = c
    · subst htc
      exact absurd (by simpa using ht) hp
    · simpa [setEff_eff_of_ne g htc] using ht

/-- The agent `c` may be out of balance, and it is because the priority `p` is donated to it. -/
structure RaisesTo (p : P) (g : WaitGraph τ P) (c : Option τ) : Prop where
  balanced : g.BalancedExcept c
  due : ∀ t, c = some t → g.due t = max (g.eff t) p

/-- The agent `c` may be out of balance, and it is because the priority `p`, which it has, is no
longer donated to it. -/
structure LowersFrom (p : P) (g : WaitGraph τ P) (c : Option τ) : Prop where
  balanced : g.BalancedExcept c
  due : ∀ t, c = some t → g.due t ≤ g.eff t ∧ (g.due t < g.eff t → g.eff t = p)

/-- Every agent that the walk changes leaves a set of priorities. `Ready` is what is known before each
step. -/
def Leaves (S : P → Prop) (Ready : WaitGraph τ P → Option τ → Prop) : Prop :=
  ∀ ⦃g c⦄, Ready g (some c) → g.eff c ≠ g.due c →
    S (g.eff c) ∧ ¬ S (g.due c) ∧ Ready (g.setEff c (g.due c)) (g.waitsOn c)

/-- A step of a walk that raises priorities takes an agent below `p` to `p`. -/
theorem RaisesTo.leaves : Leaves (τ := τ) (· < p) (RaisesTo p) := by
  intro g c h hne
  have hdue : g.due c = max (g.eff c) p := h.due c rfl
  have hlt : g.eff c < p := by
    by_contra hge
    exact hne (hdue.trans (max_eq_left (not_lt.1 hge))).symm
  have hp : g.due c = p := hdue.trans (max_eq_right hlt.le)
  refine ⟨hlt, hp ▸ lt_irrefl p, h.balanced.setEff, fun d hd => ?_⟩
  rw [hp]
  exact h.balanced.due_after_raise hp hlt.le hd

/-- A step of a walk that lowers priorities takes an agent away from `p`. -/
theorem LowersFrom.leaves : Leaves (τ := τ) (· = p) (LowersFrom p) := by
  intro g c h hne
  have hlt : g.due c < g.eff c := lt_of_le_of_ne (h.due c rfl).1 (Ne.symm hne)
  have hp : g.eff c = p := (h.due c rfl).2 hlt
  refine ⟨hp, fun e => hne (hp.trans e.symm), h.balanced.setEff, fun d hd => ?_⟩
  -- An agent that waits for itself is never above its due priority.
  have hdc : d ≠ c := by
    rintro rfl
    exact absurd (eff_le_due hd) (not_le.2 hlt)
  have hbal : g.eff d = g.due d := h.balanced d fun e => hdc (some.inj e).symm
  obtain ⟨hle, heq⟩ := setEff_due_of_ge g hd hlt.le
  rw [setEff_eff_of_ne g hdc, hbal]
  exact ⟨hle, fun hlt' => (heq hlt').trans hp⟩

variable {Ready : WaitGraph τ P → Option τ → Prop}

/-- Such a walk ends when no agent has a priority of the set. -/
theorem Leaves.stopsWithin [DecidablePred S] (hstep : Leaves S Ready) {c : Option τ}
    (hready : Ready g c) (hn : (univ.filter fun t => S (g.eff t)).card < n) : StopsWithin n g c := by
  induction n generalizing g c with
  | zero => exact absurd hn (Nat.not_lt_zero _)
  | succ n ih =>
    rcases c with _ | c
    · trivial
    intro hne
    obtain ⟨hin, hout, hnext⟩ := hstep hready hne
    have hcard := card_filter_setEff_lt (g := g) (c := c) (p := g.due c) (S := S) hin hout
    exact ih hnext (by omega)

lemma BalancedExcept.raises_or_lowers (h : g.BalancedExcept (some c)) :
    RaisesTo (g.due c) g (some c) ∨ LowersFrom (g.eff c) g (some c) := by
  rcases le_total (g.eff c) (g.due c) with hle | hge
  · refine .inl ⟨h, fun t ht => ?_⟩
    cases ht
    exact (max_eq_right hle).symm
  · refine .inr ⟨h, fun t ht => ?_⟩
    cases ht
    exact ⟨hge, fun _ => rfl⟩

/-- The walk from the one unbalanced agent takes at most as many steps as there are agents. -/
theorem BalancedExcept.stopsWithin {c : Option τ} (h : g.BalancedExcept c) :
    StopsWithin (Fintype.card τ + 1) g c := by
  rcases c with _ | c
  · trivial
  rcases h.raises_or_lowers with hready | hready
  · exact RaisesTo.leaves.stopsWithin hready (Nat.lt_succ_of_le (card_le_univ _))
  · exact LowersFrom.leaves.stopsWithin hready (Nat.lt_succ_of_le (card_le_univ _))

/-! ## No agent is changed twice -/

/-- The agents to which the walk from the agent `c` gives a new priority, in order, and the agent at
which it stops because that has its due priority already; nothing if it takes `n` steps or more. -/
def walk : ℕ → WaitGraph τ P → Option τ → Option (List τ × Option τ)
  | 0, _, _ => none
  | _ + 1, _, none => some ([], none)
  | n + 1, g, some c =>
    if g.eff c = g.due c then some ([], some c)
    else (walk n (g.setEff c (g.due c)) (g.waitsOn c)).map fun w => (c :: w.1, w.2)

/-- A walk that goes on from an agent changes this agent and then what the rest of the walk
changes. -/
theorem walk_of_ne (hne : g.eff c ≠ g.due c) : walk (n + 1) g (some c) =
      (walk n (g.setEff c (g.due c)) (g.waitsOn c)).map fun w => (c :: w.1, w.2) :=
  if_neg hne

lemma StopsWithin.exists_walk {c : Option τ} (hstop : StopsWithin n g c) :
    ∃ w, walk n g c = some w := by
  induction n generalizing g c with
  | zero => exact hstop.elim
  | succ n ih =>
    rcases c with _ | c
    · exact ⟨_, rfl⟩
    by_cases heq : g.eff c = g.due c
    · exact ⟨_, if_pos heq⟩
    · obtain ⟨w, hw⟩ := ih (hstop heq)
      exact ⟨_, by rw [walk_of_ne heq, hw]; rfl⟩

/-- The agents that leave a set of priorities are distinct and had a priority of this set. -/
theorem Leaves.walk_nodup (hstep : Leaves S Ready) {c : Option τ} (hready : Ready g c)
    {w : List τ × Option τ} (hw : walk n g c = some w) : w.1.Nodup ∧ ∀ t ∈ w.1, S (g.eff t) := by
  induction n generalizing g c w with
  | zero => exact absurd hw (by simp [walk])
  | succ n ih =>
    rcases c with _ | c
    · obtain rfl : ([], none) = w := some.inj hw
      exact ⟨List.nodup_nil, by simp⟩
    by_cases heq : g.eff c = g.due c
    · obtain rfl : ([], some c) = w := by rwa [walk, if_pos heq, some.injEq] at hw
      exact ⟨List.nodup_nil, by simp⟩
    rw [walk_of_ne heq] at hw
    obtain ⟨w', hw', rfl⟩ := map_eq_some_iff.1 hw
    obtain ⟨hin, hout, hnext⟩ := hstep hready heq
    obtain ⟨hnodup, hmem⟩ := ih hnext hw'
    -- The agent has left the set, so the rest of the walk does not change it again.
    have hc : c ∉ w'.1 := fun hcw => hout (by simpa using hmem c hcw)
    refine ⟨List.nodup_cons.2 ⟨hc, hnodup⟩, fun t ht => ?_⟩
    rcases List.mem_cons.1 ht with rfl | ht
    · exact hin
    · have htc : t ≠ c := fun e => hc (e ▸ ht)
      rw [← setEff_eff_of_ne g htc (g.due c)]
      exact hmem t ht

/-- The walk from the one unbalanced agent changes no agent twice. -/
theorem BalancedExcept.walk_nodup {c : Option τ} (h : g.BalancedExcept c) {w : List τ × Option τ}
    (hw : walk n g c = some w) : w.1.Nodup := by
  rcases c with _ | c
  · rcases n with _ | n
    · exact absurd hw (by simp [walk])
    · obtain rfl : ([], none) = w := some.inj hw
      exact List.nodup_nil
  · rcases h.raises_or_lowers with hready | hready
    · exact (RaisesTo.leaves.walk_nodup hready hw).1
    · exact (LowersFrom.leaves.walk_nodup hready hw).1

/-! ## Acyclic graphs -/

/-- A balanced agent has at least the base priority of every agent that waits for it. -/
theorem Balanced.base_le_eff (h : g.Balanced) {u : τ}
    (hreach : Relation.ReflTransGen (fun a b => g.waitsOn a = some b) u t) :
    g.base u ≤ g.eff t := by
  induction hreach with
  | refl => exact (base_le_due g u).trans (h u).ge
  | tail _ hstep ih => exact ih.trans ((eff_le_due hstep).trans (h _).ge)

/-- On an acyclic balanced graph the effective priority of an agent is the greatest base priority
of the agents that wait for it, the agent itself included. -/
theorem Balanced.isGreatest_base (h : g.Balanced)
    (hacyclic : ∀ t, ¬ Relation.TransGen (fun a b => g.waitsOn a = some b) t t) (t : τ) :
    IsGreatest {p | ∃ u, Relation.ReflTransGen (fun a b => g.waitsOn a = some b) u t ∧
      p = g.base u} (g.eff t) := by
  refine ⟨?_, ?_⟩
  · -- Walk up the donors from which the priority came; the walk ends because there is no cycle.
    have hirrefl : Std.Irrefl (Relation.TransGen fun a b => g.waitsOn a = some b) := ⟨hacyclic⟩
    have hwf : WellFounded (Relation.TransGen fun a b => g.waitsOn a = some b) :=
      Finite.wellFounded_of_trans_of_irrefl _
    induction t using hwf.induction with
    | _ t ih =>
      rcases due_eq_base_or g t with hbase | ⟨u, hu, heff⟩
      · exact ⟨t, Relation.ReflTransGen.refl, (h t).trans hbase⟩
      · obtain ⟨v, hv, heq⟩ := ih u (Relation.TransGen.single hu)
        exact ⟨v, hv.tail hu, ((h t).trans heff).trans heq⟩
  · rintro p ⟨u, hu, rfl⟩
    exact h.base_le_eff hu

end WaitGraph

end PriorityInheritance
