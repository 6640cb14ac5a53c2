import Okl4Kernel.Lib.LinkedRing

/-!
# Queues that share their links

The objects of a type `α` have one pair of pointer fields, `next` and `prev`, that are used by all
the queues an object can be on: rings, as in `LinkedRing`, and null-terminated lists through `next`
alone (`IsPath`). This works as long as no object is on two queues.

`Threaded links shape place queues` says that the lists `queues q` are spelled by the links, that an
object is on the queue `place x` and on no other, and that the objects on no queue have null fields.
An object joins a queue (`Threaded.join`) or leaves it (`Threaded.leave`), and only the fields of
the members of that queue are written.
-/

namespace LinkedRing

open Function List

variable {α : Type*}

/-- The objects of a list are linked through their next pointers, and the last one ends the list. -/
def IsPath (l : Links α) : List α → Prop
  | [] => True
  | x :: xs => l.next x = xs.head? ∧ l.prev x = none ∧ IsPath l xs

/-- How the members of a queue are linked. -/
inductive Shape
  | ring
  | path
  deriving DecidableEq

/-- The links spell a list in the given shape. -/
def Spelled (l : Links α) : Shape → List α → Prop
  | .ring, xs => IsRing l xs
  | .path, xs => xs.Nodup ∧ IsPath l xs

namespace IsPath

variable {l l' : Links α}
variable {as bs : List α} {x : α}

/-- The frame rule: links that agree on the members leave the list as it is. -/
theorem congr {xs : List α} (h : IsPath l xs)
    (hsame : ∀ x ∈ xs, l'.next x = l.next x ∧ l'.prev x = l.prev x) : IsPath l' xs := by
  induction xs with
  | nil => trivial
  | cons x xs ih =>
    obtain ⟨hnext, hprev⟩ := hsame x mem_cons_self
    exact ⟨hnext.trans h.1, hprev.trans h.2.1, ih h.2.2 fun y hy => hsame y (mem_cons_of_mem x hy)⟩

lemma next_eq (h : IsPath l (as ++ x :: bs)) : l.next x = bs.head? := by
  induction as with
  | nil => exact h.1
  | cons a as ih => exact ih h.2.2

/-- The previous pointers are not used. -/
theorem prev_eq (h : IsPath l (as ++ x :: bs)) : l.prev x = none := by
  induction as with
  | nil => exact h.2.1
  | cons a as ih => exact ih h.2.2

lemma right (h : IsPath l (as ++ bs)) : IsPath l bs := by
  induction as with
  | nil => exact h
  | cons a as ih => exact ih h.2.2

/-- What follows some members is replaced: only the last of them gets a new pointer. -/
theorem replace {cs : List α} (h : IsPath l (as ++ bs)) (hnodup : as.Nodup) (hcs : IsPath l' cs)
    (hlast : ∀ y, as.getLast? = some y → l'.next y = cs.head?)
    (hother : ∀ y ∈ as, as.getLast? ≠ some y → l'.next y = l.next y)
    (hprevs : ∀ y ∈ as, l'.prev y = l.prev y) : IsPath l' (as ++ cs) := by
  induction as with
  | nil => exact hcs
  | cons a as ih =>
    obtain ⟨ha, hrest⟩ := nodup_cons.1 hnodup
    have hprev : l'.prev a = none := (hprevs a mem_cons_self).trans h.2.1
    rcases as with _ | ⟨b, as⟩
    · exact ⟨hlast a rfl, hprev, hcs⟩
    simp only [List.getLast?_cons_cons] at hlast hother
    have hne : (b :: as).getLast? ≠ some a := fun heq => ha (mem_of_getLast? heq)
    refine ⟨(hother a mem_cons_self hne).trans h.1, hprev, ?_⟩
    exact ih h.2.2 hrest hlast (fun y hy => hother y (mem_cons_of_mem a hy))
      fun y hy => hprevs y (mem_cons_of_mem a hy)

variable (hother : ∀ y ∈ as ++ bs, as.getLast? ≠ some y → l'.next y = l.next y)
  (hprevs : ∀ y ∈ as ++ bs, l'.prev y = l.prev y)
include hother hprevs

/-- An object is put between two members: it gets a pointer to the second one, and the first one a
pointer to it. -/
theorem insert (h : IsPath l (as ++ bs)) (hnodup : (as ++ bs).Nodup)
    (hnext : l'.next x = bs.head?) (hprev : l'.prev x = none)
    (hlast : ∀ y, as.getLast? = some y → l'.next y = some x) : IsPath l' (as ++ x :: bs) := by
  obtain ⟨has, -, hdisj⟩ := nodup_append.1 hnodup
  have hbs : IsPath l' bs := h.right.congr fun y hy =>
    ⟨hother y (mem_append_right as hy) fun heq => hdisj y (mem_of_getLast? heq) y hy rfl,
      hprevs y (mem_append_right as hy)⟩
  exact h.replace has ⟨hnext, hprev, hbs⟩ hlast (fun y hy => hother y (mem_append_left bs hy))
    fun y hy => hprevs y (mem_append_left bs hy)

/-- A member is taken out: the one before it gets its pointer. -/
theorem remove (h : IsPath l (as ++ x :: bs)) (hnodup : (as ++ x :: bs).Nodup)
    (hlast : ∀ y, as.getLast? = some y → l'.next y = bs.head?) : IsPath l' (as ++ bs) := by
  obtain ⟨has, -, hdisj⟩ := nodup_append.1 hnodup
  have hbs : IsPath l' bs := h.right.2.2.congr fun y hy =>
    ⟨hother y (mem_append_right as hy) fun heq =>
      hdisj y (mem_of_getLast? heq) y (mem_cons_of_mem x hy) rfl,
      hprevs y (mem_append_right as hy)⟩
  exact h.replace has hbs hlast (fun y hy => hother y (mem_append_left bs hy))
    fun y hy => hprevs y (mem_append_left bs hy)

end IsPath

lemma Spelled.nodup {l : Links α} {shape : Shape} {xs : List α} (h : Spelled l shape xs) :
    xs.Nodup := by
  cases shape with
  | ring => exact IsRing.nodup h
  | path => exact h.1

lemma Spelled.congr {l l' : Links α} {shape : Shape} {xs : List α} (h : Spelled l shape xs)
    (hsame : ∀ x ∈ xs, l'.next x = l.next x ∧ l'.prev x = l.prev x) : Spelled l' shape xs := by
  cases shape with
  | ring => exact IsRing.congr h (fun x hx => (hsame x hx).1) fun x hx => (hsame x hx).2
  | path => exact ⟨h.1, h.2.congr hsame⟩

variable {ι : Type*} {shape : ι → Shape} {place : α → Option ι} {queues : ι → List α}
  {l l' : Links α}

/-- A family of queues that use the same links. -/
structure Threaded (l : Links α) (shape : ι → Shape) (place : α → Option ι)
    (queues : ι → List α) : Prop where
  spelled : ∀ q, Spelled l (shape q) (queues q)
  mem : ∀ x q, x ∈ queues q ↔ place x = some q
  null : ∀ x, place x = none → l.next x = none ∧ l.prev x = none

lemma Threaded.isRing (h : Threaded l shape place queues) {q : ι} (hshape : shape q = .ring) :
    IsRing l (queues q) := by
  have hspelled := h.spelled q
  rwa [hshape] at hspelled

section Operations

variable [DecidableEq α] [DecidableEq ι]
variable {xs : List α} {x : α} {q : ι}

section

variable (h : Threaded l shape place queues)
include h

/-- One queue changes by one object, which is on it or on none before and afterwards. -/
theorem Threaded.change {o : Option ι}
    (hx : place x = none ∨ place x = some q) (ho : o = none ∨ o = some q)
    (hxs : Spelled l' (shape q) xs) (hself : x ∈ xs ↔ o = some q)
    (hmem : ∀ y, y ≠ x → (y ∈ xs ↔ y ∈ queues q))
    (hnull : o = none → l'.next x = none ∧ l'.prev x = none)
    (hsame : ∀ y, y ∉ queues q → y ≠ x → l'.next y = l.next y ∧ l'.prev y = l.prev y) :
    Threaded l' shape (update place x o) (update queues q xs) := by
  have hother : ∀ {q'}, q' ≠ q → ∀ {o' : Option ι}, o' = none ∨ o' = some q → o' ≠ some q' := by
    rintro q' hq' o' (rfl | rfl) heq
    · cases heq
    · exact hq' (Option.some.inj heq).symm
  refine ⟨fun q' => ?_, fun y q' => ?_, fun y hy => ?_⟩
  · by_cases hq' : q' = q
    · subst hq'
      rwa [update_self]
    · rw [update_of_ne hq']
      refine (h.spelled q').congr fun y hy => ?_
      have hplace : place y = some q' := (h.mem y q').1 hy
      refine hsame y (fun hin => ?_) fun heq => hother hq' hx (heq ▸ hplace)
      exact hother hq' (.inr ((h.mem y q).1 hin)) hplace
  · by_cases hyx : y = x <;> by_cases hq' : q' = q
    · rw [hyx, hq', update_self, update_self, hself]
    · rw [hyx, update_self, update_of_ne hq', h.mem]
      exact iff_of_false (hother hq' hx) (hother hq' ho)
    · rw [hq', update_self, update_of_ne hyx, hmem y hyx, h.mem]
    · rw [update_of_ne hyx, update_of_ne hq', h.mem]
  · by_cases hyx : y = x
    · rw [hyx, update_self] at hy
      exact hyx ▸ hnull hy
    rw [update_of_ne hyx] at hy
    have hnotin : y ∉ queues q := by
      rw [h.mem, hy]
      exact nofun
    rw [(hsame y hnotin hyx).1, (hsame y hnotin hyx).2]
    exact h.null y hy

/-- An object that is on no queue joins one. -/
theorem Threaded.join (hx : place x = none)
    (hxs : Spelled l' (shape q) xs) (hperm : xs.Perm (x :: queues q))
    (hsame : ∀ y, y ∉ queues q → y ≠ x → l'.next y = l.next y ∧ l'.prev y = l.prev y) :
    Threaded l' shape (update place x (some q)) (update queues q xs) :=
  h.change (.inl hx) (.inr rfl) hxs (iff_of_true (hperm.mem_iff.2 mem_cons_self) rfl)
    (fun y hyx => by simp [hperm.mem_iff, hyx]) nofun hsame

/-- A member leaves its queue, and its fields are cleared. -/
theorem Threaded.leave (hxs : Spelled l' (shape q) xs)
    (hperm : (queues q).Perm (x :: xs)) (hnull : l'.next x = none ∧ l'.prev x = none)
    (hsame : ∀ y, y ∉ queues q → l'.next y = l.next y ∧ l'.prev y = l.prev y) :
    Threaded l' shape (update place x none) (update queues q xs) := by
  have hx : place x = some q := (h.mem x q).1 (hperm.mem_iff.2 mem_cons_self)
  have hgone : x ∉ xs := (nodup_cons.1 (hperm.nodup_iff.1 (h.spelled q).nodup)).1
  exact h.change (.inr hx) (.inl rfl) hxs (iff_of_false hgone nofun)
    (fun y hyx => by simp [hperm.mem_iff, hyx]) (fun _ => hnull) fun y hy _ => hsame y hy

lemma Threaded.enqueueTail (hshape : shape q = .ring) (hx : place x = none) :
    Threaded (l.enqueueTail (queues q).head? x).1 shape (update place x (some q))
      (update queues q (queues q ++ [x])) := by
  have hring := h.isRing hshape
  have hnotin : x ∉ queues q := by
    rw [h.mem, hx]
    simp
  refine h.join hx ?_ perm_append_comm fun y hy hyx => hring.enqueueTail_of_notMem hy hyx
  rw [hshape]
  exact (hring.enqueueTail hnotin).1

/-- An object joins a ring as the first member: it is linked as if it was the last one, and the ring
is entered there. -/
theorem Threaded.enqueueHead (hshape : shape q = .ring) (hx : place x = none) :
    Threaded (l.enqueueTail (queues q).head? x).1 shape (update place x (some q))
      (update queues q (x :: queues q)) := by
  have hring := h.isRing hshape
  have hnotin : x ∉ queues q := by
    rw [h.mem, hx]
    simp
  refine h.join hx ?_ (List.Perm.refl _) fun y hy hyx => hring.enqueueTail_of_notMem hy hyx
  rw [hshape]
  have htail : IsRing (l.enqueueTail (queues q).head? x).1 (queues q ++ [x]) :=
    (hring.enqueueTail hnotin).1
  exact htail.rotate

lemma Threaded.dequeue (hshape : shape q = .ring) (hqueue : queues q = x :: xs) :
    Threaded (l.dequeue (queues q).head? x).1 shape (update place x none) (update queues q xs) := by
  have hring : IsRing l ([] ++ x :: xs) := by
    have hring := h.isRing hshape
    rwa [hqueue] at hring
  rw [hqueue]
  refine h.leave ?_ (by rw [hqueue]) (l.dequeue_null _ x) fun y hy => ?_
  · rw [hshape]
    exact hring.dequeue.1
  · rw [hqueue] at hy
    exact hring.dequeue_of_notMem _ hy

end

end Operations

end LinkedRing
