import Mathlib.Data.List.Chain
import Mathlib.Data.List.Nodup
import Mathlib.Data.List.TakeWhile

/-!
# Circular doubly linked lists

Objects of a type `α` are threaded into rings through two pointer fields, `next` and `prev`, and a
ring is entered through a head pointer that is kept elsewhere. An object that is on no ring has
both of its fields null.

`IsRing l xs` says that the objects of `xs`, in this order, form a ring whose head is the head of
`xs`: neighbouring objects point to each other and the last one closes the circle. The operations
are the pointer manipulations themselves (`insertBefore`, `enqueueTail`, `dequeue`), and each has
one lemma that says which list the ring spells afterwards. A ring can be read from any of its
members (`IsRing.rotate`), so the lemmas only have to treat the head; `IsRing.congr` is the frame
rule for the rings that an operation does not touch.
-/

namespace LinkedRing

open Function List Option List.IsChain

variable {α : Type*}
variable {as bs xs : List α} {first x : α}

/-- The pointer fields of all objects. -/
structure Links (α : Type*) where
  /-- The object that follows, or null for an object on no ring. -/
  next : α → Option α
  /-- The object that precedes, or null for an object on no ring. -/
  prev : α → Option α

/-- No object is on a ring. -/
def Links.empty : Links α := ⟨fun _ => none, fun _ => none⟩

/-- An object is on some ring exactly when its next pointer is not null. -/
def Links.isQueued (l : Links α) (x : α) : Bool := (l.next x).isSome

section Operations

variable [DecidableEq α] (l : Links α)

/-- Link the object `x` into the ring of `h`, right before `h`. -/
def Links.insertBefore (h x : α) : Links α :=
  match l.prev h with
  | none => l
  | some p =>
    { next := update (update l.next x (some h)) p (some x)
      prev := update (update l.prev x (some p)) h (some x) }

/-- Link the object `x` into the ring with the given head, as its last member. -/
def Links.enqueueTail (head : Option α) (x : α) : Links α × Option α :=
  match head with
  | none =>
    ({ next := update l.next x (some x)
       prev := update l.prev x (some x) }, some x)
  | some h => (l.insertBefore h x, some h)

/-- Take the object `x` off its ring, making its neighbours point to each other. -/
def Links.unlink (x : α) : Links α :=
  match l.next x, l.prev x with
  | some n, some p =>
    { next := update (update l.next p (some n)) x none
      prev := update (update l.prev n (some p)) x none }
  | _, _ =>
    { next := update l.next x none
      prev := update l.prev x none }

/-- Take the object `x` off the ring with the given head, and move the head if `x` was the head. -/
def Links.dequeue (head : Option α) (x : α) : Links α × Option α :=
  if l.next x = some x then
    ({ next := update l.next x none
       prev := update l.prev x none }, none)
  else
    (l.unlink x, if head = some x then l.next x else head)

end Operations

/-- Two objects are neighbours: each points to the other. -/
def Links.Linked (l : Links α) (a b : α) : Prop := l.next a = some b ∧ l.prev b = some a

/-- The objects of a list form a ring, in the order of the list. -/
def IsRing (l : Links α) : List α → Prop
  | [] => True
  | h :: t => (h :: t).Nodup ∧ List.IsChain l.Linked (h :: t ++ [h])

/-! ## Reading a ring -/

/-- A chain stays a chain under a relation that agrees on the pairs that can be neighbours: the
left one is not the last object and the right one is not the first. -/
theorem isChain_of_ends {R S : α → α → Prop} : ∀ {xs : List α}, List.IsChain R xs →
      (∀ a ∈ xs.dropLast, ∀ b ∈ xs.tail, R a b → S a b) → List.IsChain S xs
  | [], _, _ => nil
  | [x], _, _ => singleton x
  | x :: y :: xs, hR, himp => by
    rw [isChain_cons_cons] at hR ⊢
    refine ⟨himp x (by simp) y (by simp) hR.1, isChain_of_ends hR.2 ?_⟩
    intro a ha b hb hab
    exact himp a (by simp only [dropLast_cons_cons]; exact mem_cons_of_mem x ha) b
      (mem_cons_of_mem y hb) hab

variable {l : Links α}

lemma IsRing.nodup (h : IsRing l xs) : xs.Nodup := by
  rcases xs with _ | ⟨x, xs⟩
  · exact nodup_nil
  · exact h.1

/-- A ring can be entered at any of its members. -/
theorem IsRing.rotate {ys : List α} (h : IsRing l (xs ++ ys)) : IsRing l (ys ++ xs) := by
  rcases xs with _ | ⟨x, xs⟩
  · simpa using h
  rcases ys with _ | ⟨y, ys⟩
  · simpa using h
  obtain ⟨hnodup, hchain⟩ := h
  refine ⟨?_, ?_⟩
  · exact nodup_append_comm.1 (show ((x :: xs) ++ (y :: ys)).Nodup from hnodup)
  · -- The closing link of the old ring joins the two parts of the new one.
    have hsplit : List.IsChain l.Linked ((x :: xs) ++ [y] ++ (ys ++ [x])) := by
      simpa using hchain
    have hfirst : List.IsChain l.Linked ((x :: xs) ++ [y]) :=
      (isChain_append.1 hsplit).1
    have hsecond : List.IsChain l.Linked ((y :: ys) ++ [x]) := by
      have hsplit' : List.IsChain l.Linked ((x :: xs) ++ ((y :: ys) ++ [x])) := by
        simpa using hchain
      exact (isChain_append.1 hsplit').2.1
    have hjoined : List.IsChain l.Linked ((y :: ys) ++ [x] ++ (xs ++ [y])) :=
      append_overlap hsecond (by simpa using hfirst) (by simp)
    simpa using hjoined

/-- The frame rule: links that agree on the members of a ring leave it a ring. -/
theorem IsRing.congr {l' : Links α} (h : IsRing l xs) (hnext : ∀ x ∈ xs, l'.next x = l.next x)
    (hprev : ∀ x ∈ xs, l'.prev x = l.prev x) : IsRing l' xs := by
  rcases xs with _ | ⟨x, xs⟩
  · trivial
  refine ⟨h.1, isChain_of_ends h.2 ?_⟩
  intro a ha b hb hab
  have ha' : a ∈ x :: xs := by rwa [dropLast_concat] at ha
  have hb' : b ∈ x :: xs := by
    have : b ∈ xs ++ [x] := by simpa using hb
    simpa [or_comm] using this
  exact ⟨(hnext a ha').trans hab.1, (hprev b hb').trans hab.2⟩

lemma IsRing.next_head {y : α} (h : IsRing l (x :: y :: xs)) : l.next x = some y ∧ y ≠ x := by
  have hchain : List.IsChain l.Linked (x :: y :: (xs ++ [x])) := h.2
  refine ⟨(isChain_cons_cons.1 hchain).1.1, ?_⟩
  rintro rfl
  exact (nodup_cons.1 h.nodup).1 mem_cons_self

lemma IsRing.next_single (h : IsRing l [x]) : l.next x = some x := by
  have hself : List.IsChain l.Linked [x, x] := h.2
  exact (isChain_pair.1 hself).1

lemma IsRing.next_isSome (h : IsRing l xs) (hx : x ∈ xs) : l.isQueued x = true := by
  obtain ⟨as, bs, rfl⟩ := append_of_mem hx
  have hring : IsRing l ((x :: bs) ++ as) := h.rotate
  rw [Links.isQueued, isSome_iff_exists]
  rcases htail : bs ++ as with _ | ⟨y, ys⟩
  · rw [cons_append, htail] at hring
    exact ⟨x, hring.next_single⟩
  · rw [cons_append, htail] at hring
    exact ⟨y, hring.next_head.1⟩

lemma IsRing.prev_head {h p : α} (hring : IsRing l (h :: xs))
    (hlast : (h :: xs).getLast? = some p) : l.prev h = some p := by
  obtain ⟨ys, hys⟩ := getLast?_eq_some_iff.1 hlast
  have hchain : List.IsChain l.Linked (ys ++ [p] ++ [h]) := by
    rw [← hys]
    exact hring.2
  have hpair : List.IsChain l.Linked ([p] ++ [h]) := by
    rw [append_assoc] at hchain
    exact (isChain_append.1 hchain).2.1
  exact (isChain_pair.1 hpair).2

/-- The objects of a chain stay linked if of the first one only `prev` is written, and of the last
one only `next`. -/
theorem isChain_of_frame {l' : Links α} {p : α} (hchain : List.IsChain l.Linked (x :: xs))
    (hnodup : (x :: xs).Nodup) (hp : (x :: xs).getLast? = some p)
    (hnext : ∀ a ∈ x :: xs, a ≠ p → l'.next a = l.next a)
    (hprev : ∀ b ∈ xs, l'.prev b = l.prev b) : List.IsChain l'.Linked (x :: xs) := by
  obtain ⟨ys, hys⟩ := getLast?_eq_some_iff.1 hp
  refine isChain_of_ends hchain fun a ha b hb hab => ?_
  have hap : a ≠ p := by
    rintro rfl
    rw [hys, dropLast_concat] at ha
    rw [hys] at hnodup
    exact (nodup_cons.1 ((perm_append_singleton a ys).nodup_iff.1 hnodup)).1 ha
  exact ⟨(hnext a (dropLast_subset _ ha) hap).trans hab.1, (hprev b hb).trans hab.2⟩

/-! ## Effect of the operations -/

section Effect

variable [DecidableEq α] {h y : α}

lemma IsRing.insertBefore_head (hring : IsRing l (h :: xs)) (hx : x ∉ h :: xs) :
    IsRing (l.insertBefore h x) (h :: xs ++ [x]) := by
  obtain ⟨p, hp⟩ : ∃ p, (h :: xs).getLast? = some p := ⟨_, getLast?_eq_some_getLast (by simp)⟩
  have hprev : l.prev h = some p := hring.prev_head hp
  have hne : ∀ a ∈ h :: xs, a ≠ x := fun a ha e => hx (e ▸ ha)
  have hinner : List.IsChain (l.insertBefore h x).Linked (h :: xs) := by
    refine isChain_of_frame (isChain_append.1 hring.2).1 hring.nodup hp (fun a ha hap => ?_) ?_
    · simp only [Links.insertBefore, hprev]
      rw [update_of_ne hap, update_of_ne (hne a ha)]
    · intro b hb
      have hbh : b ≠ h := fun e => (nodup_cons.1 hring.nodup).1 (e ▸ hb)
      simp only [Links.insertBefore, hprev]
      rw [update_of_ne hbh, update_of_ne (hne b (mem_cons_of_mem h hb))]
  have hpx : (l.insertBefore h x).Linked p x := by
    simp [Links.Linked, Links.insertBefore, hprev, update_of_ne (hne h mem_cons_self).symm]
  have hxh : (l.insertBefore h x).Linked x h := by
    simp [Links.Linked, Links.insertBefore, hprev, update_of_ne (hne p (mem_of_getLast? hp)).symm]
  refine ⟨?_, ?_⟩
  · exact (perm_append_singleton x (h :: xs)).nodup_iff.2 (nodup_cons.2 ⟨hx, hring.nodup⟩)
  · have hgoal : List.IsChain (l.insertBefore h x).Linked (h :: xs ++ [x, h]) := by
      refine isChain_append.2 ⟨hinner, isChain_pair.2 hxh, fun q hq y hy => ?_⟩
      cases hp.symm.trans hq
      cases hy
      exact hpx
    simpa using hgoal

lemma IsRing.insertBefore (hring : IsRing l (as ++ h :: bs)) (hx : x ∉ as ++ h :: bs) :
    IsRing (l.insertBefore h x) (as ++ x :: h :: bs) := by
  have hrot : IsRing l (h :: (bs ++ as)) := hring.rotate
  have hx' : x ∉ h :: (bs ++ as) := by
    intro hmem
    apply hx
    simp only [mem_cons, mem_append] at hmem ⊢
    tauto
  have hins : IsRing (l.insertBefore h x) ((h :: bs) ++ (as ++ [x])) := by
    simpa using hrot.insertBefore_head hx'
  simpa using hins.rotate

/-- Inserting before `h` writes only the fields of the new object, of `h` and of the object that
preceded `h`. -/
theorem IsRing.insertBefore_of_notMem (hring : IsRing l (as ++ h :: bs)) (hy : y ∉ as ++ h :: bs)
    (hyx : y ≠ x) :
    (l.insertBefore h x).next y = l.next y ∧ (l.insertBefore h x).prev y = l.prev y := by
  have hrot : IsRing l (h :: (bs ++ as)) := hring.rotate
  obtain ⟨p, hp⟩ : ∃ p, (h :: (bs ++ as)).getLast? = some p :=
    ⟨_, getLast?_eq_some_getLast (by simp)⟩
  have hprev : l.prev h = some p := hrot.prev_head hp
  have hpmem : p ∈ as ++ h :: bs := by
    have hmem := mem_of_getLast? hp
    simp only [mem_cons, mem_append] at hmem ⊢
    tauto
  have hyp : y ≠ p := fun e => hy (e ▸ hpmem)
  have hyh : y ≠ h := fun e => hy (by rw [e]; simp)
  simp only [Links.insertBefore, hprev]
  rw [update_of_ne hyp, update_of_ne hyx, update_of_ne hyh, update_of_ne hyx]
  exact ⟨rfl, rfl⟩

lemma IsRing.enqueueTail (hring : IsRing l xs) (hx : x ∉ xs) :
    IsRing (l.enqueueTail xs.head? x).1 (xs ++ [x]) ∧
      (l.enqueueTail xs.head? x).2 = (xs ++ [x]).head? := by
  rcases xs with _ | ⟨h, xs⟩
  · refine ⟨⟨nodup_singleton x, ?_⟩, rfl⟩
    exact isChain_pair.2 (by simp [Links.Linked, Links.enqueueTail])
  · exact ⟨hring.insertBefore_head hx, rfl⟩

/-- Enqueueing writes only the fields of the new object and of the members of the ring. -/
theorem IsRing.enqueueTail_of_notMem (hring : IsRing l xs) (hy : y ∉ xs) (hyx : y ≠ x) :
    (l.enqueueTail xs.head? x).1.next y = l.next y ∧
      (l.enqueueTail xs.head? x).1.prev y = l.prev y := by
  rcases xs with _ | ⟨h, xs⟩
  · exact ⟨update_of_ne hyx _ _, update_of_ne hyx _ _⟩
  · have hring' : IsRing l ([] ++ h :: xs) := hring
    exact hring'.insertBefore_of_notMem hy hyx

lemma IsRing.unlink_head (hring : IsRing l (x :: y :: xs)) : IsRing (l.unlink x) (y :: xs) := by
  obtain ⟨p, hp⟩ : ∃ p, (y :: xs).getLast? = some p := ⟨_, getLast?_eq_some_getLast (by simp)⟩
  have hprev : l.prev x = some p := hring.prev_head (by simpa using hp)
  have hchain : List.IsChain l.Linked (x :: (y :: xs ++ [x])) := hring.2
  have hnext := hring.next_head.1
  obtain ⟨hx, hnodup⟩ := nodup_cons.1 hring.nodup
  have hne : ∀ a ∈ y :: xs, a ≠ x := fun a ha e => hx (e ▸ ha)
  have hinner : List.IsChain (l.unlink x).Linked (y :: xs) := by
    refine isChain_of_frame (isChain_append.1 (isChain_cons_cons.1 hchain).2).1 hnodup hp
      (fun a ha hap => ?_) ?_
    · simp only [Links.unlink, hnext, hprev]
      rw [update_of_ne (hne a ha), update_of_ne hap]
    · intro b hb
      have hby : b ≠ y := fun e => (nodup_cons.1 hnodup).1 (e ▸ hb)
      simp only [Links.unlink, hnext, hprev]
      rw [update_of_ne (hne b (mem_cons_of_mem y hb)), update_of_ne hby]
  have hpy : (l.unlink x).Linked p y := by
    simp [Links.Linked, Links.unlink, hnext, hprev, update_of_ne (hne y mem_cons_self),
      update_of_ne (hne p (mem_of_getLast? hp))]
  refine ⟨hnodup, isChain_append.2 ⟨hinner, singleton y, fun q hq z hz => ?_⟩⟩
  cases hp.symm.trans hq
  cases hz
  exact hpy

/-- Dequeueing a member takes it out of the list that the ring spells. -/
theorem IsRing.dequeue (hring : IsRing l (as ++ x :: bs)) :
    IsRing (l.dequeue (as ++ x :: bs).head? x).1 (as ++ bs) ∧
      (l.dequeue (as ++ x :: bs).head? x).2 = (as ++ bs).head? := by
  have hrot : IsRing l (x :: (bs ++ as)) := hring.rotate
  rcases hrest : bs ++ as with _ | ⟨y, ys⟩
  · obtain ⟨rfl, rfl⟩ := append_eq_nil_iff.1 hrest
    have hnext : l.next x = some x := hrot.next_single
    simp [Links.dequeue, hnext, IsRing]
  · rw [hrest] at hrot
    obtain ⟨hnext, hxy⟩ := hrot.next_head
    have hne : l.next x ≠ some x := by
      rw [hnext]
      exact fun e => hxy (some.inj e)
    have hout : IsRing (l.unlink x) (bs ++ as) := hrest ▸ hrot.unlink_head
    refine ⟨?_, ?_⟩
    · simpa [Links.dequeue, hne] using hout.rotate
    simp only [Links.dequeue, if_neg hne]
    rcases as with _ | ⟨a, as⟩
    · -- The head itself leaves, and the head pointer moves on.
      have hbs : bs = y :: ys := by simpa using hrest
      simp [hnext, hbs]
    · have hax : a ≠ x := by
        intro e
        have hdup := hring.nodup
        rw [cons_append, nodup_cons] at hdup
        exact hdup.1 (by simp [e])
      simp [hax]

lemma IsRing.dequeue_of_notMem (head : Option α) (hring : IsRing l (as ++ x :: bs))
    (hy : y ∉ as ++ x :: bs) :
    (l.dequeue head x).1.next y = l.next y ∧ (l.dequeue head x).1.prev y = l.prev y := by
  have hrot : IsRing l (x :: (bs ++ as)) := hring.rotate
  have hmem : ∀ z, z ∈ x :: (bs ++ as) → y ≠ z := by
    intro z hz e
    apply hy
    rw [e]
    simp only [mem_cons, mem_append] at hz ⊢
    tauto
  have hyx : y ≠ x := hmem x mem_cons_self
  rcases hrest : bs ++ as with _ | ⟨z, zs⟩
  · rw [hrest] at hrot
    simp [Links.dequeue, hrot.next_single, update_of_ne hyx]
  · rw [hrest] at hrot hmem
    obtain ⟨hnext, hzx⟩ := hrot.next_head
    obtain ⟨p, hp⟩ : ∃ p, (x :: z :: zs).getLast? = some p :=
      ⟨_, getLast?_eq_some_getLast (by simp)⟩
    have hprev : l.prev x = some p := hrot.prev_head hp
    have hyz : y ≠ z := hmem z (by simp)
    have hyp : y ≠ p := hmem p (mem_of_getLast? hp)
    have hne : ¬ some z = some x := fun e => hzx (some.inj e)
    simp [Links.dequeue, Links.unlink, hnext, hprev, hne, update_of_ne hyx,
      update_of_ne hyz, update_of_ne hyp]

lemma Links.dequeue_null (l : Links α) (head : Option α) (x : α) :
    (l.dequeue head x).1.next x = none ∧ (l.dequeue head x).1.prev x = none := by
  unfold Links.dequeue Links.unlink
  split
  · simp
  · split <;> simp

lemma Links.dequeue_not_isQueued (l : Links α) (head : Option α) (x : α) :
    (l.dequeue head x).1.isQueued x = false := by
  rw [Links.isQueued, (l.dequeue_null head x).1, isSome_none]

end Effect

lemma IsRing.next_eq_self_iff (hring : IsRing l (x :: xs)) : l.next x = some x ↔ xs = [] := by
  rcases xs with _ | ⟨y, ys⟩
  · simp [hring.next_single]
  · simp [hring.next_head.1, hring.next_head.2]

/-! ## Walking round a ring -/

lemma IsRing.next_of_append {y : α} (hring : IsRing l (as ++ x :: y :: bs)) :
    l.next x = some y := by
  have hrot : IsRing l (x :: y :: (bs ++ as)) := hring.rotate
  exact hrot.next_head.1

lemma IsRing.next_last (hring : IsRing l (as ++ [x])) : l.next x = (as ++ [x]).head? := by
  have hrot : IsRing l (x :: as) := hring.rotate
  rcases as with _ | ⟨y, as⟩
  · exact hrot.next_single
  · exact hrot.next_head.1

/-- The successor of a member that is not the last one is not the head. -/
theorem IsRing.ne_head_of_append {y : α} (hring : IsRing l (as ++ x :: y :: bs))
    (hfirst : (as ++ [x]).head? = some first) : y ≠ first := by
  rintro rfl
  have hmem : y ∈ as ++ [x] := mem_of_head? hfirst
  have hnodup := hring.nodup
  rw [append_cons, nodup_append] at hnodup
  exact hnodup.2.2 y hmem y mem_cons_self rfl

variable [DecidableEq α]

/-- The members of a ring from `x` on, until the walk comes back to `first`. -/
def Links.listFrom (l : Links α) (first : α) : ℕ → α → List α
  | 0, _ => []
  | n + 1, x => x :: match l.next x with
    | none => []
    | some y => if y = first then [] else l.listFrom first n y

/-- The first object from `x` on that is good, or `first` if the walk comes back to it. -/
def Links.findFrom (l : Links α) (good : α → Bool) (first : α) : ℕ → α → α
  | 0, x => x
  | n + 1, x =>
    if good x then x
    else match l.next x with
      | none => x
      | some y => if y = first then y else l.findFrom good first n y

lemma IsRing.listFrom_eq {n : ℕ} (hring : IsRing l (as ++ x :: bs))
    (hfirst : (as ++ [x]).head? = some first) (hn : bs.length < n) :
    l.listFrom first n x = x :: bs := by
  induction bs generalizing as x n with
  | nil =>
    obtain ⟨n, rfl⟩ : ∃ k, n = k + 1 := ⟨n - 1, by omega⟩
    rw [Links.listFrom, hring.next_last, hfirst]
    dsimp only
    rw [if_pos rfl]
  | cons y bs ih =>
    rw [length_cons] at hn
    obtain ⟨n, rfl⟩ : ∃ k, n = k + 1 := ⟨n - 1, by omega⟩
    rw [Links.listFrom, hring.next_of_append]
    dsimp only
    rw [if_neg (hring.ne_head_of_append hfirst)]
    rw [append_cons] at hring
    rw [ih hring (by rw [head?_append, hfirst]; rfl) (by omega)]

/-- A search finds the first good object of the rest of the ring, and comes back to the head if there
is none. -/
theorem IsRing.findFrom_eq {good : α → Bool} {n : ℕ} (hring : IsRing l (as ++ x :: bs))
    (hfirst : (as ++ [x]).head? = some first) (hn : bs.length < n) :
    l.findFrom good first n x = ((x :: bs).find? good).getD first := by
  induction bs generalizing as x n with
  | nil =>
    obtain ⟨n, rfl⟩ : ∃ k, n = k + 1 := ⟨n - 1, by omega⟩
    rw [Links.findFrom, hring.next_last, hfirst]
    cases hgood : good x with
    | true => rw [find?_cons_of_pos hgood, if_pos rfl, getD_some]
    | false =>
      rw [find?_cons_of_neg (by rw [hgood]; exact Bool.false_ne_true), find?_nil,
        if_neg Bool.false_ne_true]
      exact if_pos rfl
  | cons y bs ih =>
    rw [length_cons] at hn
    obtain ⟨n, rfl⟩ : ∃ k, n = k + 1 := ⟨n - 1, by omega⟩
    rw [Links.findFrom, hring.next_of_append]
    cases hgood : good x with
    | true => rw [find?_cons_of_pos hgood, if_pos rfl, getD_some]
    | false =>
      rw [find?_cons_of_neg (by rw [hgood]; exact Bool.false_ne_true), if_neg Bool.false_ne_true]
      dsimp only
      rw [if_neg (hring.ne_head_of_append hfirst)]
      rw [append_cons] at hring
      exact ih hring (by rw [head?_append, hfirst]; rfl) (by omega)

/-- Inserting before the first good object of a ring, or before the head if there is none, puts the new
object behind the objects up to there, and writes only fields of the ring. -/
theorem IsRing.insertBefore_find (good : α → Bool) (hring : IsRing l (first :: xs))
    (hx : x ∉ first :: xs) : IsRing (l.insertBefore (((first :: xs).find? good).getD first) x)
        ((first :: xs).takeWhile (!good ·) ++ x :: (first :: xs).dropWhile (!good ·)) ∧
      ∀ y, y ∉ first :: xs → y ≠ x →
        (l.insertBefore (((first :: xs).find? good).getD first) x).next y = l.next y ∧
          (l.insertBefore (((first :: xs).find? good).getD first) x).prev y = l.prev y := by
  rcases hfind : (first :: xs).find? good with _ | h
  · have hall : ∀ y ∈ first :: xs, (!good y) = true := by
      intro y hy
      rw [Bool.not_eq_true', Bool.eq_false_iff]
      exact find?_eq_none.1 hfind y hy
    have hring' : IsRing l ([] ++ first :: xs) := hring
    rw [takeWhile_eq_self_iff.2 hall, dropWhile_eq_nil_iff.2 hall]
    exact ⟨hring.insertBefore_head hx, fun y hy hyx => hring'.insertBefore_of_notMem hy hyx⟩
  · obtain ⟨hgood, as, bs, hlist, has⟩ := find?_eq_some_iff_append.1 hfind
    rw [hlist] at hring hx ⊢
    have hstop : ¬ (!good h) = true := by
      rw [hgood]
      exact Bool.false_ne_true
    rw [takeWhile_append_of_pos has, dropWhile_append_of_pos has,
      takeWhile_cons_of_neg (p := (!good ·)) hstop,
      dropWhile_cons_of_neg (p := (!good ·)) hstop, append_nil]
    exact ⟨hring.insertBefore hx, fun y hy hyx => hring.insertBefore_of_notMem hy hyx⟩

end LinkedRing
