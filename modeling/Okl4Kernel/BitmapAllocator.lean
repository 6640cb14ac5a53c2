import Okl4Kernel.Lib.TransitionSystem
import Okl4Kernel.Lib.WordBitmap

/-!
# The bitmap allocator

The bitmap allocator of `libs/okl4` hands out units, named ones or any. It has a bit for each unit,
and the bits of the last word that belong to no unit are set from the start. A search for any unit
begins at the word in which the last search ended.

The number of words is computed as `(size + 31) / 32` by a search, and `size + 31` overflows for the
largest sizes. Then no word is searched, and no unit is found.
-/

namespace Okl4Kernel.BitmapAllocator

open TransitionSystem WordBitmap BitVec List

/-- The state of an allocator. -/
structure Allocator where
  base : ℕ
  size : ℕ
  posGuess : ℕ
  data : ℕ → BitVec 32

/-- The errors of an allocation. -/
inductive Error
  | allocExhausted
  | outOfRange
  | inUse

namespace Allocator

/-- `okl4_bitmap_allocator_init`. -/
def init (base size : ℕ) : Allocator :=
  let bitmapWords := (size - 1) / 32 + 1
  let overflow := (bitmapWords * 32 + 2 ^ 32 - size) % 2 ^ 32
  ⟨base, size, 0, fun i =>
    if i + 1 = bitmapWords ∧ overflow ≠ 0 then allOnes 32 <<< (32 - overflow) else 0⟩

variable (a : Allocator)

/-- The number of words that `anonymous_allocation` computes. -/
def bitmapWords : ℕ := (a.size + 31) % 2 ^ 32 / 32

/-- The words that are searched, from the guess on and then from the start. -/
def searched : List ℕ :=
  range' a.posGuess (a.bitmapWords - a.posGuess) ++ range a.posGuess

/-- `find_first_free`. -/
def findFirstFree (word : BitVec 32) : Option ℕ := (range 32).find? fun i => !word.getLsbD i

/-- `anonymous_allocation`. -/
def anonymousAllocation : Option (Allocator × Except Error ℕ) :=
  match a.searched.find? fun i => a.data i ≠ allOnes 32 with
  | none => some (a, .error .allocExhausted)
  | some i => (findFirstFree (a.data i)).map fun pos =>
    ({ a with posGuess := i, data := set a.data (i * 32 + pos) }, .ok (i * 32 + pos + a.base))

variable (unit : ℕ)

/-- `named_allocation`. -/
def namedAllocation : Allocator × Except Error ℕ :=
  if unit < a.base ∨ a.base + a.size ≤ unit then (a, .error .outOfRange)
  else if bit a.data (unit - a.base) then (a, .error .inUse)
  else ({ a with data := set a.data (unit - a.base) }, .ok unit)

/-- `okl4_bitmap_allocator_alloc`, of any unit or of a named one. -/
def alloc : Option ℕ → Option (Allocator × Except Error ℕ)
  | none => a.anonymousAllocation
  | some unit => some (a.namedAllocation unit)

/-- `okl4_bitmap_allocator_free`. -/
def free : Option Allocator :=
  if a.base ≤ unit ∧ unit < a.base + a.size then
    some { a with data := clear a.data (unit - a.base) }
  else none

/-- The unit is one of the allocator. -/
def InRange : Prop := a.base ≤ unit ∧ unit < a.base + a.size

/-- `okl4_bitmap_allocator_isallocated`, for a unit of the allocator. -/
def isallocated : Bool := bit a.data (unit - a.base)

/-- Some units are allocated or freed. -/
inductive Op
  | alloc (unit : Option ℕ)
  | free (unit : ℕ)

/-- One operation. -/
def step : Op → Option Allocator
  | .alloc unit => (a.alloc unit).map Prod.fst
  | .free unit => a.free unit

/-- Every unit is allocated. -/
def Full : Prop := ∀ unit, a.InRange unit → a.isallocated unit = true

/-- The allocator behaves like the set of the units that are allocated. -/
structure Refines (a : Allocator) : Prop where
  ok : ∀ request a' unit, a.alloc request = some (a', .ok unit) →
    (∀ named ∈ request, unit = named) ∧ a.InRange unit ∧ a.isallocated unit = false ∧
      ∀ v, a'.InRange v → a'.isallocated v = (a.isallocated v || decide (v = unit))
  error : ∀ request a' e, a.alloc request = some (a', .error e) → a' = a
  named : ∀ unit, (∃ a', a.alloc (some unit) = some (a', .ok unit)) ↔
    a.InRange unit ∧ a.isallocated unit = false
  any : (∃ a' e, a.alloc none = some (a', .error e)) ↔ a.Full
  returns : (a.alloc none).isSome
  freed : ∀ unit a', a.free unit = some a' →
    ∀ v, a'.InRange v → a'.isallocated v = (a.isallocated v && !decide (v = unit))
  padding : ∀ p, a.size ≤ p → p < numWords 32 a.size * 32 → bit a.data p = true

/-! ## The bits that belong to no unit -/

/-- The bits that belong to no unit are set, and the search begins at a word of the bitmap. -/
structure Inv (a : Allocator) : Prop where
  padding : ∀ p, a.size ≤ p → p < numWords 32 a.size * 32 → bit a.data p = true
  posGuess : a.posGuess ≤ a.bitmapWords

variable {a a' : Allocator}

lemma inv_init {base size : ℕ} (hsize : 0 < size) (hword : size < 2 ^ 32) : (init base size).Inv := by
  refine ⟨fun p hp hlt => ?_, Nat.zero_le _⟩
  have hwords : numWords 32 size = (size - 1) / 32 + 1 := by unfold numWords; omega
  simp only [init, hwords] at hp hlt
  have hdiv : p / 32 + 1 = (size - 1) / 32 + 1 := by omega
  have hover : ((size - 1) / 32 + 1) * 32 + 2 ^ 32 - size = ((size - 1) / 32 + 1) * 32 - size + 2 ^ 32 := by
    omega
  simp only [bit, init, hdiv, true_and]
  rw [hover, Nat.add_mod_right, Nat.mod_eq_of_lt (by omega), if_pos (by omega),
    getLsbD_shiftLeft, getLsbD_allOnes]
  simp only [Bool.and_eq_true, decide_eq_true_eq, Bool.not_eq_true', decide_eq_false_iff_not]
  omega

section

variable (h : a.Inv)
include h

lemma Inv.full_iff : a.Full ↔ ∀ i < numWords 32 a.size, a.data i = allOnes 32 := by
  constructor
  · intro hfull i hi
    refine eq_of_getLsbD_eq fun j hj => ?_
    rw [← bit_mul_add a.data hj, getLsbD_allOnes, decide_eq_true hj]
    by_cases hp : i * 32 + j < a.size
    · have hunit := hfull (i * 32 + j + a.base) ⟨by omega, by omega⟩
      rwa [isallocated, Nat.add_sub_cancel] at hunit
    · exact h.padding _ (by omega) (by omega)
  · rintro hwords unit ⟨hbase, hlt⟩
    rw [isallocated, bit, hwords _ (div_lt_numWords (by decide) (by omega)), getLsbD_allOnes]
    exact decide_eq_true (Nat.mod_lt _ (by decide))

lemma Inv.mem_searched {i : ℕ} : i ∈ a.searched ↔ i < a.bitmapWords := by
  have hguess := h.posGuess
  rw [searched, mem_append, mem_range'_1, mem_range]
  omega

/-- Any unit is handed out that is not allocated, unless all words that are searched are full. -/
lemma Inv.anonymousAllocation : (a.alloc none = some (a, .error .allocExhausted) ∧
      ∀ i < a.bitmapWords, a.data i = allOnes 32) ∨
    ∃ i p, i < a.bitmapWords ∧ p < a.size ∧ bit a.data p = false ∧ a.alloc none =
      some ({ a with posGuess := i, data := set a.data p }, .ok (p + a.base)) := by
  unfold alloc Allocator.anonymousAllocation
  rcases hsearch : a.searched.find? fun i => a.data i ≠ allOnes 32 with _ | i
  · refine .inl ⟨rfl, fun i hi => ?_⟩
    simpa using find?_eq_none.1 hsearch i (h.mem_searched.2 hi)
  have hi := h.mem_searched.1 (mem_of_find?_eq_some hsearch)
  have hne : a.data i ≠ allOnes 32 := by simpa using find?_some hsearch
  have hwords : a.bitmapWords ≤ numWords 32 a.size :=
    Nat.div_le_div_right (Nat.mod_le _ _)
  -- A word that is not full has a clear bit, and that is one of a unit.
  rcases hfree : findFirstFree (a.data i) with _ | pos
  · refine absurd (eq_of_getLsbD_eq fun j hj => ?_) hne
    rw [getLsbD_allOnes, decide_eq_true hj]
    simpa using find?_eq_none.1 hfree j (mem_range.2 hj)
  · have hpos := mem_range.1 (mem_of_find?_eq_some hfree)
    have hclear : bit a.data (i * 32 + pos) = false := by
      rw [bit_mul_add a.data hpos]
      simpa using find?_some hfree
    refine .inr ⟨i, i * 32 + pos, hi, ?_, hclear, congrArg (Option.map _) hfree⟩
    by_contra hsize
    rw [h.padding _ (by omega) (by omega)] at hclear
    cases hclear

/-- An allocation fails and changes nothing, or a unit is handed out that was not allocated. -/
lemma Inv.alloc_cases (request : Option ℕ) :
    (∃ e, a.alloc request = some (a, .error e)) ∨ ∃ unit i, (∀ named ∈ request, unit = named) ∧
      a.InRange unit ∧ a.isallocated unit = false ∧ i ≤ a.bitmapWords ∧ a.alloc request =
        some ({ a with posGuess := i, data := set a.data (unit - a.base) }, .ok unit) := by
  rcases request with _ | unit
  · rcases h.anonymousAllocation with ⟨hnone, -⟩ | ⟨i, p, hi, hp, hclear, hsome⟩
    · exact .inl ⟨_, hnone⟩
    · refine .inr ⟨p + a.base, i, by simp, ⟨by omega, by omega⟩, ?_, Nat.le_of_lt hi, ?_⟩
      · rwa [isallocated, Nat.add_sub_cancel]
      · rw [hsome, Nat.add_sub_cancel]
  · simp only [alloc, namedAllocation]
    split_ifs with hrange hset
    · exact .inl ⟨_, rfl⟩
    · exact .inl ⟨_, rfl⟩
    · exact .inr ⟨unit, a.posGuess, by simp, ⟨by omega, by omega⟩, Bool.eq_false_iff.2 hset,
        h.posGuess, rfl⟩

/-- Every operation keeps the bits that belong to no unit. -/
lemma Inv.step (op : Op) (hstep : a.step op = some a') : a'.Inv ∧ a'.size = a.size := by
  cases op with
  | alloc request =>
    obtain ⟨⟨a₁, result⟩, halloc, rfl⟩ := Option.map_eq_some_iff.1 hstep
    rcases h.alloc_cases request with ⟨e, herror⟩ | ⟨unit, i, -, -, -, hi, hok⟩
    · cases herror.symm.trans halloc
      exact ⟨h, rfl⟩
    · cases hok.symm.trans halloc
      refine ⟨⟨fun p hp hlt => ?_, hi⟩, rfl⟩
      rw [bit_set _ (by decide), h.padding p hp hlt, Bool.true_or]
  | free unit =>
    obtain ⟨hunit, hsome⟩ := Option.ite_none_right_eq_some.1 hstep
    cases hsome
    refine ⟨⟨fun p hp hlt => ?_, h.posGuess⟩, rfl⟩
    have hsize : a.size ≤ p := hp
    rw [bit_clear _ (by decide), h.padding p hp hlt, decide_eq_false (by omega), Bool.not_false,
      Bool.and_true]

/-- Nothing is found exactly if nothing is left, or the number of words overflows. -/
lemma Inv.any_iff (hword : a.size < 2 ^ 32) :
    (∃ a' e, a.alloc none = some (a', .error e)) ↔ a.Full ∨ 2 ^ 32 ≤ a.size + 31 := by
  rcases h.anonymousAllocation with ⟨hnone, hwords⟩ | ⟨i, p, hi, hp, hclear, hsome⟩
  · refine iff_of_true ⟨_, _, hnone⟩ ?_
    by_cases hlt : a.size + 31 < 2 ^ 32
    · rw [bitmapWords, Nat.mod_eq_of_lt hlt] at hwords
      exact .inl (h.full_iff.2 hwords)
    · exact .inr (Nat.le_of_not_lt hlt)
  · refine iff_of_false ?_ (not_or.2 ⟨fun hfull => ?_, fun hlt => ?_⟩)
    · rintro ⟨a', e, herror⟩
      cases hsome.symm.trans herror
    · have hunit := hfull (p + a.base) ⟨by omega, by omega⟩
      rw [isallocated, Nat.add_sub_cancel, hclear] at hunit
      cases hunit
    · unfold bitmapWords at hi
      omega

/-- The allocator behaves like a set exactly if the number of words does not overflow, or nothing is
left anyway. -/
lemma Inv.refines_iff (hword : a.size < 2 ^ 32) : a.Refines ↔ a.size + 31 < 2 ^ 32 ∨ a.Full := by
  constructor
  · intro hrefines
    by_contra hnot
    obtain ⟨hlt, hfull⟩ := not_or.1 hnot
    exact hfull (hrefines.any.1 ((h.any_iff hword).2 (.inr (Nat.le_of_not_lt hlt))))
  · intro hor
    refine ⟨?_, ?_, fun unit => ?_, (h.any_iff hword).trans ?_, ?_, ?_, h.padding⟩
    · intro request a' unit halloc
      rcases h.alloc_cases request with ⟨e, herror⟩ | ⟨unit', i, hnamed, hrange, hclear, -, hok⟩
      · cases herror.symm.trans halloc
      cases hok.symm.trans halloc
      refine ⟨hnamed, hrange, hclear, fun v hv => ?_⟩
      have hv' : v - a.base = unit - a.base ↔ v = unit := tsub_left_inj hv.1 hrange.1
      rw [isallocated, bit_set _ (by decide), decide_eq_decide.2 hv']
      rfl
    · intro request a' e halloc
      rcases h.alloc_cases request with ⟨e, herror⟩ | ⟨unit', i, -, -, -, -, hok⟩
      · cases herror.symm.trans halloc
        rfl
      · cases hok.symm.trans halloc
    · simp only [alloc, namedAllocation, InRange, isallocated]
      split_ifs with hrange hset
      all_goals grind
    · exact ⟨fun hor' => hor'.elim id fun hle => hor.resolve_left (by omega), .inl⟩
    · rcases h.alloc_cases none with ⟨e, herror⟩ | ⟨unit', i, -, -, -, -, hok⟩
      · rw [herror]
        rfl
      · rw [hok]
        rfl
    · intro unit a' hfree v hv
      obtain ⟨hunit, hsome⟩ := Option.ite_none_right_eq_some.1 hfree
      cases hsome
      have hv' : v - a.base = unit - a.base ↔ v = unit := tsub_left_inj hv.1 hunit.1
      rw [isallocated, bit_clear _ (by decide), decide_eq_decide.2 hv']
      rfl

end

/-- After any operations, the allocator behaves like a set exactly if the number of words does not
overflow, or nothing is left anyway. -/
theorem refines_iff_size (base size : ℕ) (hsize : 0 < size) (hword : base + size < 2 ^ 32)
    (ops : List Op) {a : Allocator} (hrun : run step (init base size) ops = some a) :
    a.Refines ↔ size + 31 < 2 ^ 32 ∨ a.Full := by
  have hinv : a.Inv ∧ a.size = size := by
    refine run_invariant (P := fun a => a.Inv ∧ a.size = size) ?_
      ⟨inv_init hsize (by omega), rfl⟩ hrun
    rintro a op a' ⟨h, hsize⟩ hstep
    obtain ⟨h', hsame⟩ := h.step op hstep
    exact ⟨h', hsame.trans hsize⟩
  rw [← hinv.2]
  exact hinv.1.refines_iff (by omega)

/-- An allocator hands out both of its units, and one is freed again. -/
theorem refines_two_units :
    ∃ a, run step (init 10 2) [.alloc none, .alloc (some 11), .free 10] = some a ∧
      a.isallocated 10 = false ∧ a.isallocated 11 = true ∧ a.Refines :=
  ⟨_, rfl, rfl, rfl, (refines_iff_size 10 2 (by decide) (by decide)
    [.alloc none, .alloc (some 11), .free 10] rfl).2 (.inl (by decide))⟩

/-- An allocator of the largest size hands out nothing at all. -/
theorem refines_fails_largest :
    (init 0 (2 ^ 32 - 1)).alloc none = some (init 0 (2 ^ 32 - 1), .error .allocExhausted) ∧
      (init 0 (2 ^ 32 - 1)).isallocated 0 = false :=
  ⟨rfl, rfl⟩

end Allocator

end Okl4Kernel.BitmapAllocator
