import Mathlib.Data.Fintype.Pigeonhole
import Mathlib.Order.Bounds.Basic

/-!
# Brent's cycle detection

A chain is followed from a node with a partial successor function, and either ends or runs into a
cycle. The search moves a fast pointer one link at a time and compares it with a slow pointer, which
is moved up to the fast one after 1, 2, 4, 8, … links. If the pointers meet, the number of links
since the slow pointer was moved is the length of the cycle; a second loop with two pointers at this
distance then finds the length of the chain up to the cycle.

Behind `p` links the slow pointer is at `2 ^ k - 1` for some `k`, and `p` is at most `2 ^ k` further
(`Search.At`). On a chain with a cycle of length `T` whose node at `i` is on the cycle, the pointers
meet before link `3 * (i + T)`, so on a finite type the search ends (`detect_of_cyclic`).
-/

namespace CycleDetection

open Option Fintype

variable {α : Type*}

/-- The node `n` links behind `a`, if the chain does not end before. -/
def follow (next : α → Option α) (a : α) : ℕ → Option α
  | 0 => some a
  | n + 1 => (follow next a n).bind next

/-- The two pointers and the two counters of the search. -/
structure Search (α : Type*) where
  /-- The pointer that moves one link at a time, `none` at the end of the chain. -/
  fast : Option α
  /-- The pointer that is moved up to the fast one. -/
  slow : α
  /-- The number of links since the slow pointer was moved. -/
  lam : ℕ
  /-- The number of links behind which the slow pointer is moved again. -/
  power : ℕ

/-- One round of the search, with the fast pointer at the node `a`. -/
def Search.advance (next : α → Option α) (s : Search α) (a : α) : Search α :=
  if s.lam = s.power then ⟨next a, a, 1, s.power * 2⟩ else ⟨next a, s.slow, s.lam + 1, s.power⟩

section Decidable

variable [DecidableEq α]

/-- The search, cut off after `n` rounds: it ends when the pointers meet or the chain ends. -/
def Search.run (next : α → Option α) : ℕ → Search α → Option (Search α)
  | 0, _ => none
  | n + 1, s =>
    if s.fast = some s.slow then some s
    else
      match s.fast with
      | none => some s
      | some a => run next n (s.advance next a)

/-- The search from the node `a`. -/
def Search.start (next : α → Option α) (a : α) : Search α := ⟨next a, a, 1, 1⟩

/-- Move two pointers on until they meet, at most `n` rounds, and count the rounds in `mu`. -/
def collide (next : α → Option α) : ℕ → α → α → ℕ → Option ℕ
  | 0, _, _, _ => none
  | n + 1, fast, slow, mu =>
    if fast = slow then some mu
    else (next fast).bind fun fast => (next slow).bind fun slow => collide next n fast slow (mu + 1)

/-- The whole algorithm, with each loop cut off after `n` rounds: nothing if a loop is cut off, and
otherwise whether there is a cycle, with the length of the chain up to it and its own length. -/
def detect (next : α → Option α) (n : ℕ) (a : α) : Option (Option (ℕ × ℕ)) :=
  (Search.run next n (.start next a)).bind fun s =>
    match s.fast with
    | none => some none
    | some _ =>
      (follow next a s.lam).bind fun fast =>
        (collide next n fast a 0).map fun mu => some (mu, s.lam)

end Decidable

variable {next : α → Option α} {a : α}
variable {T i : ℕ}

/-! ## Chains -/

lemma follow_succ (next : α → Option α) (a : α) (n : ℕ) :
    follow next a (n + 1) = (follow next a n).bind next := rfl

/-- Two positions with the same node have the same nodes behind them. -/
lemma follow_add_of_eq {j : ℕ} (h : follow next a i = follow next a j) (n : ℕ) :
    follow next a (i + n) = follow next a (j + n) := by
  induction n with
  | zero => exact h
  | succ n ih => rw [← Nat.add_assoc, ← Nat.add_assoc, follow_succ, follow_succ, ih]

lemma follow_eq_none_of_le {j : ℕ} (hij : i ≤ j) (h : follow next a i = none) :
    follow next a j = none := by
  induction j, hij using Nat.le_induction with
  | base => exact h
  | succ j _ ih => rw [follow_succ, ih]; rfl

/-- The chain comes back behind `T` links to the node at position `i`. -/
structure Cyclic (next : α → Option α) (a : α) (i T : ℕ) : Prop where
  pos : 0 < T
  back : follow next a (i + T) = follow next a i
  alive : follow next a i ≠ none

section

variable (h : Cyclic next a i T)
include h

lemma Cyclic.period {n : ℕ} (hn : i ≤ n) : follow next a (n + T) = follow next a n := by
  obtain ⟨d, rfl⟩ := Nat.exists_eq_add_of_le hn
  have := follow_add_of_eq h.back d
  rwa [Nat.add_right_comm] at this

lemma Cyclic.follow_mul (m : ℕ) : follow next a (i + m * T) = follow next a i := by
  induction m with
  | zero => rw [Nat.zero_mul, Nat.add_zero]
  | succ m ih => rw [Nat.succ_mul, ← Nat.add_assoc, h.period (Nat.le_add_right i _), ih]

lemma Cyclic.follow_ne_none (n : ℕ) : follow next a n ≠ none := by
  intro hend
  have hle : n ≤ i + n * T := by
    have := Nat.le_mul_of_pos_right n h.pos
    omega
  exact h.alive (h.follow_mul n ▸ follow_eq_none_of_le hle hend)

/-- If the chain comes back to the node at `i` behind `T` links, and to some node behind `l` links,
then it also comes back to the node at `i` behind `l` links. -/
lemma Cyclic.transfer {m l : ℕ} (h' : Cyclic next a m l) : Cyclic next a i l := by
  refine ⟨h'.pos, ?_, h.alive⟩
  have hle : m ≤ i + m * T := by
    have := Nat.le_mul_of_pos_right m h.pos
    omega
  calc follow next a (i + l) = follow next a (i + m * T + l) :=
        (follow_add_of_eq (h.follow_mul m) l).symm
    _ = follow next a (i + m * T) := h'.period hle
    _ = follow next a i := h.follow_mul m

end

/-- On a finite type a chain that has not ended behind as many links as there are nodes runs into a
cycle. -/
lemma exists_cyclic [Fintype α] (h : follow next a (card α) ≠ none) :
    ∃ i T, i + T ≤ card α ∧ Cyclic next a i T := by
  have halive : ∀ n ≤ card α, ∃ b, follow next a n = some b := fun n hn =>
    ne_none_iff_exists'.1 fun hend => h (follow_eq_none_of_le hn hend)
  choose node hnode using fun n : Fin (card α + 1) => halive n (Nat.lt_succ_iff.1 n.2)
  obtain ⟨x, y, hne, heq⟩ := exists_ne_map_eq_of_card_lt node (by simp)
  -- Of the two positions with one node take the earlier one and the distance.
  have hcycle : ∀ {x y : Fin (card α + 1)}, x < y → node x = node y →
      ∃ i T, i + T ≤ card α ∧ Cyclic next a i T := by
    intro x y hlt heq
    refine ⟨x, y - x, by omega, by omega, ?_, by simp [hnode x]⟩
    rw [show x.val + (y.val - x.val) = y by omega, hnode x, hnode y, heq]
  rcases lt_or_gt_of_ne hne with hlt | hlt
  · exact hcycle hlt heq
  · exact hcycle hlt heq.symm

/-! ## Chains as a relation -/

lemma reflTransGen_iff {b : α} :
    Relation.ReflTransGen (fun x y => next x = some y) a b ↔ ∃ n, follow next a n = some b := by
  constructor
  · intro h
    induction h with
    | refl => exact ⟨0, rfl⟩
    | tail _ hstep ih =>
      obtain ⟨n, hn⟩ := ih
      exact ⟨n + 1, by rw [follow_succ, hn]; exact hstep⟩
  · rintro ⟨n, hn⟩
    induction n generalizing b with
    | zero =>
      obtain rfl : a = b := Option.some.inj hn
      exact .refl
    | succ n ih =>
      obtain ⟨c, hc, hstep⟩ := bind_eq_some_iff.1 hn
      exact (ih hc).tail hstep

lemma follow_add {b : α} (h : follow next a i = some b) (n : ℕ) :
    follow next a (i + n) = follow next b n := by
  induction n with
  | zero => exact h
  | succ n ih => rw [← Nat.add_assoc, follow_succ, ih, follow_succ]

/-- The chain runs into a cycle if and only if it leads to a node from which it comes back. -/
lemma exists_cyclic_iff : (∃ i T, Cyclic next a i T) ↔
      ∃ b, Relation.ReflTransGen (fun x y => next x = some y) a b ∧
        Relation.TransGen (fun x y => next x = some y) b b := by
  constructor
  · rintro ⟨i, T, h⟩
    obtain ⟨b, hb⟩ := ne_none_iff_exists'.1 h.alive
    have hback : follow next b T = some b := by rw [← follow_add hb, h.back, hb]
    obtain ⟨T, rfl⟩ := Nat.exists_eq_succ_of_ne_zero h.pos.ne'
    obtain ⟨c, hc, hstep⟩ := bind_eq_some_iff.1 hback
    exact ⟨b, reflTransGen_iff.2 ⟨i, hb⟩,
      Relation.TransGen.tail' (reflTransGen_iff.2 ⟨T, hc⟩) hstep⟩
  · rintro ⟨b, hreach, hcycle⟩
    obtain ⟨i, hi⟩ := reflTransGen_iff.1 hreach
    obtain ⟨c, hc, hstep⟩ := Relation.TransGen.tail'_iff.1 hcycle
    obtain ⟨n, hn⟩ := reflTransGen_iff.1 hc
    have hback : follow next b (n + 1) = some b := by rw [follow_succ, hn]; exact hstep
    exact ⟨i, n + 1, Nat.succ_pos n, by rw [follow_add hi, hback, hi], by simp [hi]⟩

/-- The chain never leads to a node without a successor if and only if it never ends. -/
lemma forall_next_ne_none_iff :
    (∀ b, Relation.ReflTransGen (fun x y => next x = some y) a b → next b ≠ none) ↔
      ∀ n, follow next a n ≠ none := by
  constructor
  · intro h n
    induction n with
    | zero => simp [follow]
    | succ n ih =>
      obtain ⟨b, hb⟩ := ne_none_iff_exists'.1 ih
      rw [follow_succ, hb]
      exact h b (reflTransGen_iff.2 ⟨n, hb⟩)
  · intro h b hb hend
    obtain ⟨n, hn⟩ := reflTransGen_iff.1 hb
    exact h (n + 1) (by rw [follow_succ, hn]; exact hend)

/-! ## The search -/

/-- The search has followed `p` links, the slow pointer is at position `q`, and the pointers have not
met since it was moved there. -/
structure Search.At (next : α → Option α) (a : α) (p q : ℕ) (s : Search α) : Prop where
  fast : s.fast = follow next a p
  slow : follow next a q = some s.slow
  lam : p = q + s.lam
  lam_pos : 0 < s.lam
  /-- The slow pointer is at 0, 1, 3, 7, …, and is moved behind 1, 2, 4, 8, … links. -/
  power : s.power = q + 1
  lam_le : s.lam ≤ s.power
  fresh : ∀ r, q < r → r < p → follow next a r ≠ follow next a q

lemma Search.at_start (next : α → Option α) (a : α) : At next a 1 0 (.start next a) where
  fast := rfl
  slow := rfl
  lam := rfl
  lam_pos := Nat.one_pos
  power := rfl
  lam_le := le_rfl
  fresh r hr hr' := by omega

namespace Search

variable {s : Search α} {p q : ℕ}

/-- If the pointers meet, the slow one is on a cycle. -/
lemma At.cyclic (h : At next a p q s) (hmeet : s.fast = some s.slow) : Cyclic next a q s.lam where
  pos := h.lam_pos
  back := by rw [← h.lam, ← h.fast, hmeet, h.slow]
  alive := by simp [h.slow]

/-- If the pointers have not met, the positions of the fast one since the slow one was moved are
all different from the slow one, the present one included. -/
lemma At.fresh_of_ne (h : At next a p q s) (hne : s.fast ≠ some s.slow) {r : ℕ} (hr : q < r)
    (hrp : r ≤ p) : follow next a r ≠ follow next a q := by
  rcases Nat.lt_or_eq_of_le hrp with hlt | rfl
  · exact h.fresh r hr hlt
  · rw [← h.fast, h.slow]
    exact hne

/-- One round of the search: the slow pointer stays, or it is moved up, which happens when its
distance has become one more than its position. -/
lemma At.advance (h : At next a p q s) {b : α} (hb : s.fast = some b) (hne : s.fast ≠ some s.slow) :
    (At next a (p + 1) q (s.advance next b)) ∨
      (p = 2 * q + 1 ∧ At next a (p + 1) p (s.advance next b)) := by
  have hlam := h.lam
  have hpower := h.power
  have hfollow : follow next a p = some b := h.fast.symm.trans hb
  have hnext : next b = follow next a (p + 1) := by rw [follow_succ, hfollow]; rfl
  unfold Search.advance
  split_ifs with hmove
  · refine .inr ⟨by omega, hnext, hfollow, rfl, Nat.one_pos, by dsimp only; omega, ?_, ?_⟩
    · dsimp only
      omega
    · intro r hr hr'
      omega
  · refine .inl ⟨hnext, h.slow, by dsimp only; omega, Nat.succ_pos _, hpower, ?_, ?_⟩
    · have := h.lam_le
      dsimp only
      omega
    · exact fun r hr hr' => h.fresh_of_ne hne hr (by omega)

/-- On a chain with a cycle of length `T` at position `i`, the slow pointer is not moved far beyond
the point where the fast one would meet it. -/
lemma At.move_le (hcyc : Cyclic next a i T) (h : At next a p q s) (hne : s.fast ≠ some s.slow)
    (hmove : p = 2 * q + 1) : p ≤ 2 * (i + T) := by
  by_cases hq : q < i
  · omega
  -- The fast pointer would have met the slow one behind `T` links.
  have hT : q + 1 < T := by
    by_contra hle
    exact h.fresh_of_ne hne (r := q + T) (by have := hcyc.pos; omega) (by omega)
      (hcyc.period (by omega))
  omega

/-- The pointers meet before the search has followed `3 * (i + T)` links. -/
lemma At.pos_le (hcyc : Cyclic next a i T) (h : At next a p q s) (hq : q ≤ 2 * (i + T)) :
    p ≤ 3 * (i + T) := by
  have hlam := h.lam
  have hle := h.lam_le
  have hpower := h.power
  by_cases hqi : q < i
  · omega
  · have hpT : p ≤ q + T := by
      by_contra hlt
      exact h.fresh (q + T) (by have := hcyc.pos; omega) (by omega) (hcyc.period (by omega))
    omega

variable [DecidableEq α] {n : ℕ}

lemma run_of_meet (hmeet : s.fast = some s.slow) : run next (n + 1) s = some s :=
  if_pos hmeet

lemma run_of_ne {b : α} (hb : s.fast = some b) (hne : s.fast ≠ some s.slow) :
    run next (n + 1) s = run next n (s.advance next b) := by
  rw [run, if_neg hne]
  simp only [hb]

/-- On a chain that ends the search comes to the end. -/
lemma At.run_of_ends {N : ℕ} (h : At next a p q s) (hend : follow next a N = none) (hp : p ≤ N)
    (hn : N < p + n) :
    ∃ s' p' q', run next n s = some s' ∧ At next a p' q' s' ∧ s'.fast = none ∧ p' ≤ N := by
  induction n generalizing s p q with
  | zero => omega
  | succ n ih =>
    have hne : s.fast ≠ some s.slow := fun hmeet => (h.cyclic hmeet).follow_ne_none N hend
    rcases hb : s.fast with _ | b
    · refine ⟨s, p, q, ?_, h, hb, hp⟩
      rw [run, if_neg hne]
      simp only [hb]
    · have hpN : p ≠ N := by
        rintro rfl
        rw [← h.fast, hb] at hend
        exact absurd hend (by simp)
      rw [run_of_ne hb hne]
      rcases h.advance hb hne with hstay | ⟨-, hmove⟩
      · exact ih hstay (by omega) (by omega)
      · exact ih hmove (by omega) (by omega)

/-- On a chain with a cycle the pointers meet. -/
lemma At.run_of_cyclic (hcyc : Cyclic next a i T) (h : At next a p q s) (hq : q ≤ 2 * (i + T))
    (hn : 3 * (i + T) < p + n) :
    ∃ s' p' q', run next n s = some s' ∧ At next a p' q' s' ∧ s'.fast = some s'.slow ∧
      q' ≤ 2 * (i + T) := by
  induction n generalizing s p q with
  | zero =>
    have := h.pos_le hcyc hq
    omega
  | succ n ih =>
    by_cases hmeet : s.fast = some s.slow
    · exact ⟨s, p, q, run_of_meet hmeet, h, hmeet, hq⟩
    obtain ⟨b, hb⟩ : ∃ b, s.fast = some b := by
      rw [h.fast]
      exact ne_none_iff_exists'.1 (hcyc.follow_ne_none p)
    rw [run_of_ne hb hmeet]
    rcases h.advance hb hmeet with hstay | ⟨hpos, hmove⟩
    · exact ih hstay hq (by omega)
    · exact ih hmove (h.move_le hcyc hmeet hpos) (by omega)

end Search

/-- A chain that ends does so behind as many links as there are nodes, at the latest. -/
lemma follow_card_eq_none [Fintype α] (hacyclic : ∀ i T, ¬Cyclic next a i T) :
    follow next a (card α) = none := by
  by_contra halive
  obtain ⟨i, T, -, hcyc⟩ := exists_cyclic halive
  exact hacyclic i T hcyc

/-! ## The length of the chain up to the cycle -/

variable [DecidableEq α]

/-- Two pointers at the distance of the cycle meet at the first node of the cycle. -/
lemma collide_of_cyclic (mu : ℕ) {lam m n : ℕ} {fast slow : α} (hcyc : Cyclic next a m lam)
    (hfast : follow next a (mu + lam) = some fast) (hslow : follow next a mu = some slow)
    (hbefore : ∀ r < mu, ¬Cyclic next a r lam) (hn : m < mu + n) :
    ∃ r, collide next n fast slow mu = some r ∧ IsLeast {r | Cyclic next a r lam} r := by
  induction n generalizing fast slow mu with
  | zero => exact absurd hcyc (hbefore m (by omega))
  | succ n ih =>
    rw [collide]
    by_cases heq : fast = slow
    · rw [if_pos heq]
      refine ⟨mu, rfl, ⟨hcyc.pos, by rw [hfast, hslow, heq], by simp [hslow]⟩, fun r hr => ?_⟩
      by_contra hlt
      exact hbefore r (not_le.1 hlt) hr
    · rw [if_neg heq]
      have hnot : ¬Cyclic next a mu lam := by
        intro h
        have hback := h.back
        rw [hfast, hslow] at hback
        exact heq (Option.some.inj hback)
      obtain ⟨fast', hfast'⟩ := ne_none_iff_exists'.1 (hcyc.follow_ne_none (mu + 1 + lam))
      obtain ⟨slow', hslow'⟩ := ne_none_iff_exists'.1 (hcyc.follow_ne_none (mu + 1))
      have hf : next fast = some fast' := by
        rw [Nat.add_right_comm, follow_succ, hfast] at hfast'
        exact hfast'
      have hs : next slow = some slow' := by
        rw [follow_succ, hslow] at hslow'
        exact hslow'
      rw [hf, hs]
      refine ih (mu + 1) hfast' hslow' (fun r hr => ?_) (by omega)
      rcases Nat.lt_succ_iff_lt_or_eq.1 hr with hlt | rfl
      · exact hbefore r hlt
      · exact hnot

/-! ## The whole algorithm -/

section Finite

variable [Fintype α] {n : ℕ}

/-- On a chain without a cycle the algorithm ends and reports that there is none. -/
theorem detect_of_acyclic (hacyclic : ∀ i T, ¬Cyclic next a i T)
    (hn : 3 * card α + 1 ≤ n) : detect next n a = some none := by
  have hpos : 0 < card α := card_pos_iff.2 ⟨a⟩
  obtain ⟨s, p, q, hrun, -, hfast, -⟩ := (Search.at_start next a).run_of_ends
    (follow_card_eq_none hacyclic) hpos (n := n) (by omega)
  rw [detect, hrun, bind_some, hfast]

/-- On a chain with a cycle the algorithm ends and reports the length of the chain up to the cycle
and the length of the cycle. -/
theorem detect_of_cyclic (hcyc : Cyclic next a i T) (hn : 3 * card α + 1 ≤ n) :
    ∃ mu lam, detect next n a = some (some (mu, lam)) ∧
      IsLeast {l | ∃ m, Cyclic next a m l} lam ∧ IsLeast {m | Cyclic next a m lam} mu := by
  obtain ⟨i, T, hle, hcyc⟩ := exists_cyclic (hcyc.follow_ne_none (card α))
  obtain ⟨s, p, q, hrun, hat, hmeet, hq⟩ := (Search.at_start next a).run_of_cyclic hcyc
    (Nat.zero_le _) (n := n) (by omega)
  have hloop : Cyclic next a q s.lam := hat.cyclic hmeet
  obtain ⟨fast, hfast⟩ := ne_none_iff_exists'.1 (hloop.follow_ne_none s.lam)
  obtain ⟨mu, hmu, hleast⟩ := collide_of_cyclic 0 hloop (n := n)
    (by rwa [Nat.zero_add]) rfl (fun r hr => absurd hr (Nat.not_lt_zero r)) (by omega)
  refine ⟨mu, s.lam, ?_, ⟨⟨q, hloop⟩, ?_⟩, hleast⟩
  · rw [detect, hrun, bind_some, hmeet]
    simp only [hfast, bind_some, hmu, map_some]
  · -- A shorter cycle would have let the pointers meet earlier.
    rintro l ⟨m, hl⟩
    by_contra hlt
    have hlam := hat.lam
    exact hat.fresh (q + l) (by have := hl.pos; omega) (by omega) (hloop.transfer hl).back

end Finite

end CycleDetection
