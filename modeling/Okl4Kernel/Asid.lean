import Okl4Kernel.Lib.TransitionSystem
import Mathlib.Data.BitVec
import Mathlib.Tactic

/-!
# Address space identifiers

The hardware has fewer address space identifiers (ASIDs) than there are spaces. `asid_cache_t` hands
them out in turn, and takes them away from the spaces that have them (`CONFIG_ASIDS_ROUNDR`). Who
has an identifier is recorded twice: in the `asid` field of the space, and in the slot of the
identifier, as the number of the space.

The two records agree (`asids_owned`) as long as no space has one of the numbers that mark free and
invalid slots. The kernel allows for up to `2 ^ 16 - 1` spaces, so the last two of them are mistaken
for such marks (`allocate_shared`).
-/

namespace Okl4Kernel

open TransitionSystem Function Option List

/-- The kernel space, or a space that was created under a number. -/
inductive SpaceId
  | kernel
  | user (number : ℕ)
  deriving DecidableEq, Repr

/-- `CONFIG_MAX_NUM_ASIDS`. -/
def maxNumAsids : ℕ := 256

/-- `INVALID_REF`: the identifier may not be used. -/
def invalidRef : BitVec 16 := ~~~2

/-- `FREE_REF`: no space has the identifier. -/
def freeRef : BitVec 16 := ~~~1

/-- The reference to the kernel space. -/
def kernelRef : BitVec 16 := ~~~0

/-- The reference to a space: its number, as a `space_ref`. -/
def SpaceId.ref : SpaceId → BitVec 16
  | .kernel => kernelRef
  | .user number => BitVec.ofNat 16 number

/-- The space is in a list of spaces, or it is the kernel space. -/
def SpaceId.In (spaces : List ℕ) : SpaceId → Prop
  | .kernel => True
  | .user number => number ∈ spaces

instance (spaces : List ℕ) (space : SpaceId) : Decidable (space.In spaces) :=
  match space with
  | .kernel => .isTrue trivial
  | .user number => inferInstanceAs (Decidable (number ∈ spaces))

/-- The cache of identifiers, and the fields of spaces that it uses. `spaces` are the numbers in the
list of spaces, which has `maxSpaceIds` entries. -/
structure Asids where
  slots : ℕ → BitVec 16
  next : ℕ
  asid : SpaceId → Option ℕ
  spaces : List ℕ
  maxSpaceIds : ℕ
  current : SpaceId

namespace Asids

/-- The cache after `init`. The size of the list of spaces is a field of 16 bits of the init
script. -/
def init (maxSpaceIds : BitVec 16) : Asids where
  slots _ := invalidRef
  next := 0
  asid _ := none
  spaces := []
  maxSpaceIds := maxSpaceIds.toNat
  current := .kernel

variable (s : Asids) (space : SpaceId)

/-- The space exists. -/
abbrev Live : Prop := space.In s.spaces

variable (i : ℕ)

def setSlot (ref : BitVec 16) : Asids :=
  { s with slots := update s.slots i ref }

def setAsid (value : Option ℕ) : Asids :=
  { s with asid := update s.asid space value }

/-- `set_valid`: identifiers that may not be used become free. -/
def setValid (first last : ℕ) : Asids :=
  { s with slots := fun i =>
      if first ≤ i ∧ i ≤ last ∧ s.slots i = invalidRef then freeRef else s.slots i }

/-- `lookup`: the space that has an identifier. The source returns an invalid pointer if the space
does not exist. -/
def lookup : Option SpaceId :=
  if s.slots i = kernelRef then some .kernel
  else if (s.slots i).toNat ∈ s.spaces then some (.user (s.slots i).toNat)
  else none

/-- The identifier behind `i`. -/
def nextIndex : ℕ := if maxNumAsids ≤ i + 1 then 0 else i + 1

/-- The search for an identifier: those that may not be used are passed over, and so is the one of
the current space. -/
def search (s : Asids) : ℕ → ℕ → Option ℕ
  | 0, _ => none
  | fuel + 1, i =>
    if s.slots i = invalidRef ∨ s.asid s.current = some i then s.search fuel (nextIndex i)
    else some i

/-- `asid_t::preempt`; `flush_asid` does nothing on SH. -/
def preempt : Asids := s.setAsid space none

/-- The space that has the identifier loses it. -/
def takeFrom : Option Asids :=
  if s.slots i ≠ freeRef then (s.lookup i).map s.preempt else some s

/-- `allocate`. -/
def allocate : Option (ℕ × Asids) :=
  if s.asid space = none then
    (s.search maxNumAsids s.next).bind fun i =>
      (takeFrom { s with next := nextIndex i } i).map fun s => (i, s.setSlot i space.ref)
  else none

/-- `move_asid` keeps a list of the least recently used identifiers. It has a body only with
`CONFIG_PREEMPT_LRU`. -/
def moveAsid (_ : ℕ) (_remove _insert : Bool) : Asids := s

/-- `asid_t::get`, with the identifier that it returns. -/
def get : Option (ℕ × Asids) :=
  match s.asid space with
  | none => (s.allocate space).map fun r => (r.1, r.2.setAsid space (some r.1))
  | some i => some (i, s.moveAsid i true true)

/-- `asid_t::release`. -/
def release : Asids :=
  match s.asid space with
  | none => s
  | some i => ((s.moveAsid i true false).setSlot i freeRef).setAsid space none

lemma release_asid : (s.release space).asid space = none := by
  unfold release
  split
  · assumption
  · exact update_self ..

lemma release_current : (s.release space).current = s.current := by
  unfold release
  split <;> rfl

/-- What happens to identifiers and spaces. -/
inductive Op
  | setValid (first last : ℕ)
  | moveAsid (i : ℕ) (remove insert : Bool)
  | get (space : SpaceId)
  | release (space : SpaceId)
  | createSpace (number : ℕ)
  | deleteSpace (number : ℕ)
  | setCurrent (space : SpaceId)
  deriving Repr

/-- Perform an operation. A space is created under a number that is not in use, and deleted when it
has no threads. -/
def step : Op → Option Asids
  | .setValid first last => if last < maxNumAsids then some (s.setValid first last) else none
  | .moveAsid i remove insert => some (s.moveAsid i remove insert)
  | .get space => if s.Live space then (s.get space).map Prod.snd else none
  | .release space => if s.Live space then some (s.release space) else none
  | .createSpace number =>
    if number < s.maxSpaceIds ∧ number ∉ s.spaces then
      some ({ s with spaces := number :: s.spaces }.setAsid (.user number) none)
    else none
  | .deleteSpace number =>
    if number ∈ s.spaces ∧ s.current ≠ .user number then
      let s := s.release (.user number)
      some { s with spaces := s.spaces.filter (· ≠ number) }
    else none
  | .setCurrent space => if s.Live space then some { s with current := space } else none

/-- The condition on operations: the number of a new space is not one of the marks. -/
def Meets (_ : Asids) : Op → Prop
  | .createSpace number => number < invalidRef.toNat
  | _ => True

instance (s : Asids) (op : Op) : Decidable (s.Meets op) :=
  match op with
  | .createSpace number => inferInstanceAs (Decidable (number < invalidRef.toNat))
  | .setValid _ _ => .isTrue trivial
  | .moveAsid _ _ _ => .isTrue trivial
  | .get _ => .isTrue trivial
  | .release _ => .isTrue trivial
  | .deleteSpace _ => .isTrue trivial
  | .setCurrent _ => .isTrue trivial

/-! ## The search -/

lemma nextIndex_lt : nextIndex i < maxNumAsids := by
  unfold nextIndex
  split_ifs with h
  · decide
  · omega

/-- What is found is an identifier that may be used, and not the one of the current space. -/
lemma search_some {s : Asids} {fuel i j : ℕ} (hi : i < maxNumAsids)
    (hfind : s.search fuel i = some j) :
    j < maxNumAsids ∧ s.slots j ≠ invalidRef ∧ s.asid s.current ≠ some j := by
  induction fuel generalizing i with
  | zero => exact absurd hfind (by simp [search])
  | succ fuel ih =>
    rw [search] at hfind
    split_ifs at hfind with hskip
    · exact ih (nextIndex_lt i) hfind
    · cases hfind
      exact ⟨hi, not_or.1 hskip⟩

/-! ## The two records agree -/

/-- The slots and the fields of spaces agree on who has which identifier. -/
structure Owned (s : Asids) : Prop where
  next_lt : s.next < maxNumAsids
  numbers : ∀ number ∈ s.spaces, number < invalidRef.toNat
  current : s.Live s.current
  asid_iff : ∀ space, s.Live space → ∀ i,
    s.asid space = some i ↔ i < maxNumAsids ∧ s.slots i = space.ref
  slot : ∀ i < maxNumAsids, s.slots i = invalidRef ∨ s.slots i = freeRef ∨
    ∃ space, s.Live space ∧ s.slots i = space.ref

lemma init_owned (maxSpaceIds : BitVec 16) : (init maxSpaceIds).Owned where
  next_lt := Nat.zero_lt_succ 255
  numbers := by simp [init]
  current := trivial
  asid_iff := by
    intro space hspace i
    cases space with
    | kernel =>
      have hne : invalidRef ≠ SpaceId.kernel.ref := by decide
      simp [init, hne]
    | user number => exact absurd hspace (by simp [SpaceId.In, init])
  slot := fun _ _ => .inl rfl

namespace Owned

variable {s : Asids}
variable {i number : ℕ}

lemma toNat_ref (h : s.Owned) (hmem : number ∈ s.spaces) :
    (SpaceId.user number).ref.toNat = number := by
  have hlt := h.numbers number hmem
  rw [SpaceId.ref, BitVec.toNat_ofNat, Nat.mod_eq_of_lt (by omega)]

variable {space : SpaceId}

section

variable (h : s.Owned)
include h

section

variable (hspace : s.Live space)
include hspace

lemma ref_ne : space.ref ≠ invalidRef ∧ space.ref ≠ freeRef := by
  cases space with
  | kernel => decide
  | user number =>
    have hlt := h.numbers number hspace
    have hmarks : invalidRef.toNat < freeRef.toNat := by decide
    constructor
    · intro heq
      rw [← heq, h.toNat_ref hspace] at hlt
      omega
    · intro heq
      rw [← heq, h.toNat_ref hspace] at hmarks
      omega

lemma ref_inj {other : SpaceId} (hother : s.Live other)
    (heq : space.ref = other.ref) : space = other := by
  have hkernel : invalidRef.toNat < SpaceId.kernel.ref.toNat := by decide
  cases space with
  | kernel =>
    cases other with
    | kernel => rfl
    | user number =>
      have hlt := h.numbers number hother
      rw [heq, h.toNat_ref hother] at hkernel
      omega
  | user number =>
    cases other with
    | kernel =>
      have hlt := h.numbers number hspace
      rw [← heq, h.toNat_ref hspace] at hkernel
      omega
    | user number' =>
      have hnat := congrArg BitVec.toNat heq
      rw [h.toNat_ref hspace, h.toNat_ref hother] at hnat
      rw [hnat]

lemma lookup_eq (hslot : s.slots i = space.ref) : s.lookup i = some space := by
  unfold lookup
  split_ifs with hkernel hmem
  · have heq : space.ref = SpaceId.kernel.ref := hslot.symm.trans hkernel
    have hkernelLive : s.Live .kernel := trivial
    rw [h.ref_inj hspace hkernelLive heq]
  · cases space with
    | kernel => exact absurd hslot hkernel
    | user number => rw [hslot, h.toNat_ref hspace]
  · cases space with
    | kernel => exact absurd hslot hkernel
    | user number =>
      rw [hslot, h.toNat_ref hspace] at hmem
      exact absurd hspace hmem

/-- The slot of an identifier and the field of a space change together. -/
lemma assign {ref : BitVec 16} {value : Option ℕ}
    (hvalue : ∀ j, value = some j ↔ j < maxNumAsids ∧ update s.slots i ref j = space.ref)
    (hothers : ∀ other, s.Live other → other ≠ space → s.asid other ≠ some i ∧ ref ≠ other.ref)
    (href : ref = freeRef ∨ ref = space.ref) : ((s.setSlot i ref).setAsid space value).Owned where
  __ := h
  asid_iff := by
    intro other hother j
    simp only [setAsid, setSlot]
    by_cases heq : other = space
    · rw [heq, update_self]
      exact hvalue j
    obtain ⟨hasid, hne⟩ := hothers other hother heq
    rw [update_of_ne heq]
    by_cases hj : j = i
    · rw [hj, update_self]
      exact iff_of_false hasid fun hslot => hne hslot.2
    · rw [update_of_ne hj]
      exact h.asid_iff other hother j
  slot := by
    intro j hj
    simp only [setAsid, setSlot]
    by_cases hij : j = i
    · rw [hij, update_self]
      exact .inr (href.imp_right fun href => ⟨space, hspace, href⟩)
    · rw [update_of_ne hij]
      exact h.slot j hj

lemma give (hnone : s.asid space = none)
    (hi : i < maxNumAsids) (hfree : ∀ other, s.Live other → s.asid other ≠ some i) :
    ((s.setSlot i space.ref).setAsid space (some i)).Owned := by
  refine h.assign hspace (fun j => ?_) (fun other hother hne => ⟨hfree other hother, ?_⟩) (.inr rfl)
  · by_cases hj : j = i
    · subst hj
      simp [hi]
    · rw [update_of_ne hj, ← h.asid_iff space hspace j, hnone]
      simp [Ne.symm hj]
  · exact fun href => hne (h.ref_inj hspace hother href).symm

lemma drop (hasid : s.asid space = some i) : ((s.setSlot i freeRef).setAsid space none).Owned := by
  obtain ⟨hi, hslot⟩ := (h.asid_iff space hspace i).1 hasid
  refine h.assign hspace (fun j => ?_)
    (fun other hother hne => ⟨fun hold => ?_, (h.ref_ne hother).2.symm⟩) (.inl rfl)
  · by_cases hj : j = i
    · rw [hj, update_self]
      exact iff_of_false nofun fun hfree => (h.ref_ne hspace).2 hfree.2.symm
    · rw [update_of_ne hj, ← h.asid_iff space hspace j, hasid]
      simp [Ne.symm hj]
  · have hslot' := ((h.asid_iff other hother i).1 hold).2
    exact hne (h.ref_inj hother hspace (hslot'.symm.trans hslot))

end

/-- The identifier that the search has found is free after `takeFrom`, up to its slot. -/
lemma takeFrom (hi : i < maxNumAsids) (hslot : s.slots i ≠ invalidRef) :
    ∃ s₀ s₁ : Asids, s.takeFrom i = some s₁ ∧ s₀.Owned ∧ s₀.spaces = s.spaces ∧
      (∀ ref, s₁.setSlot i ref = s₀.setSlot i ref) ∧
      (∀ space, s₀.Live space → s₀.asid space ≠ some i) ∧
      ∀ space, s.asid space = none → s₀.asid space = none := by
  rcases h.slot i hi with hinvalid | hfree | ⟨old, hold, hslotOld⟩
  · exact absurd hinvalid hslot
  · refine ⟨s, s, ?_, h, rfl, fun _ => rfl, fun space hspace hasid => ?_, fun _ hnone => hnone⟩
    · simp [Asids.takeFrom, hfree]
    · have href := ((h.asid_iff space hspace i).1 hasid).2
      exact (h.ref_ne hspace).2 (href.symm.trans hfree)
  · have hne := (h.ref_ne hold).2
    have hasid := (h.asid_iff old hold i).2 ⟨hi, hslotOld⟩
    have hdrop := h.drop hold hasid
    refine ⟨_, s.preempt old, ?_, hdrop, rfl, fun ref => ?_, fun space hspace heq => ?_,
      fun space hnone => ?_⟩
    · rw [Asids.takeFrom, if_pos (hslotOld ▸ hne), h.lookup_eq hold hslotOld, map_some]
    · simp [preempt, setAsid, setSlot]
    · have hfree := ((hdrop.asid_iff space hspace i).1 heq).2
      simp only [setAsid, setSlot, update_self] at hfree
      exact (h.ref_ne hspace).2 hfree.symm
    · simp only [setAsid, setSlot]
      by_cases heq : space = old
      · rw [heq, update_self]
      · rw [update_of_ne heq]
        exact hnone

/-- `asid_t::get` gives an identifier to a space that has none, and leaves the others alone. -/
lemma get (hspace : s.Live space) {s' : Asids} (hget : s.get space = some (i, s')) : s'.Owned := by
  unfold Asids.get at hget
  cases hasid : s.asid space with
  | some j =>
    rw [hasid] at hget
    cases hget
    exact h
  | none =>
    rw [hasid] at hget
    obtain ⟨⟨j, s''⟩, halloc, heq⟩ := map_eq_some_iff.1 hget
    obtain ⟨rfl, rfl⟩ := Prod.mk.inj heq
    rw [allocate, if_pos hasid] at halloc
    obtain ⟨j', hfind, htake⟩ := bind_eq_some_iff.1 halloc
    obtain ⟨s₁, hs₁, heq⟩ := map_eq_some_iff.1 htake
    obtain ⟨rfl, rfl⟩ := Prod.mk.inj heq
    obtain ⟨hi, hslot, -⟩ := search_some h.next_lt hfind
    have hnext : ({ s with next := nextIndex j' } : Asids).Owned :=
      { h with next_lt := nextIndex_lt j' }
    obtain ⟨s₀, s₁', hs₁', howned, hspaces, hset, hfree, hnone⟩ := hnext.takeFrom hi hslot
    obtain rfl : s₁' = s₁ := Option.some.inj (hs₁'.symm.trans hs₁)
    rw [hset]
    refine howned.give ?_ (hnone space hasid) hi hfree
    rw [Live, hspaces]
    exact hspace

lemma release (hspace : s.Live space) : (s.release space).Owned := by
  unfold Asids.release
  rcases hasid : s.asid space with _ | i
  · exact h
  · exact h.drop hspace hasid

lemma setValid (first last : ℕ) : (s.setValid first last).Owned where
  __ := h
  asid_iff := by
    intro space hspace i
    refine (h.asid_iff space hspace i).trans (and_congr_right fun _ => ?_)
    simp only [Asids.setValid]
    split_ifs with hin
    · rw [hin.2.2]
      exact ⟨fun heq => absurd heq.symm (h.ref_ne hspace).1,
        fun heq => absurd heq.symm (h.ref_ne hspace).2⟩
    · rfl
  slot := by
    intro i hi
    simp only [Asids.setValid]
    split_ifs with hin
    · exact .inr (.inl rfl)
    · exact h.slot i hi

lemma createSpace (hlt : number < invalidRef.toNat) (hnew : number ∉ s.spaces) :
    (({ s with spaces := number :: s.spaces } : Asids).setAsid (.user number) none).Owned where
  next_lt := h.next_lt
  numbers := forall_mem_cons.2 ⟨hlt, h.numbers⟩
  current := by
    have hcurrent := h.current
    change s.current.In _
    cases hc : s.current with
    | kernel => trivial
    | user n =>
      rw [Live, hc] at hcurrent
      exact mem_cons_of_mem _ hcurrent
  asid_iff := by
    intro space hspace i
    simp only [setAsid]
    by_cases heq : space = .user number
    · subst heq
      refine ⟨fun hnone => absurd hnone (by simp), fun ⟨hi, hslot⟩ => ?_⟩
      -- No slot has the number of a space that does not exist.
      have htoNat : (s.slots i).toNat = number := by
        rw [hslot, SpaceId.ref, BitVec.toNat_ofNat, Nat.mod_eq_of_lt (by omega)]
      have hmarks : invalidRef.toNat < freeRef.toNat := by decide
      have hkernel : invalidRef.toNat < kernelRef.toNat := by decide
      rcases h.slot i hi with hs | hs | ⟨other, hother, hs⟩
      · rw [hs] at htoNat
        omega
      · rw [hs] at htoNat
        omega
      cases other with
      | kernel =>
        rw [hs, SpaceId.ref] at htoNat
        omega
      | user n =>
        rw [hs, h.toNat_ref hother] at htoNat
        exact absurd (htoNat ▸ hother) hnew
    · rw [update_of_ne heq]
      refine h.asid_iff space ?_ i
      cases space with
      | kernel => trivial
      | user n =>
        exact (mem_cons.1 hspace).resolve_left fun hn => heq (by rw [hn])
  slot := by
    intro i hi
    rcases h.slot i hi with hs | hs | ⟨other, hother, hs⟩
    · exact .inl hs
    · exact .inr (.inl hs)
    · refine .inr (.inr ⟨other, ?_, hs⟩)
      cases other with
      | kernel => trivial
      | user n => exact mem_cons_of_mem _ hother

/-- A space without an identifier can be removed from the list. -/
lemma removeSpace (hcurrent : s.current ≠ .user number) (hnone : s.asid (.user number) = none) :
    ({ s with spaces := s.spaces.filter (· ≠ number) } : Asids).Owned := by
  have hin : ∀ space : SpaceId, s.Live space → space ≠ .user number →
      space.In (s.spaces.filter (· ≠ number)) := by
    intro space hspace hne
    cases space with
    | kernel => trivial
    | user n =>
      refine mem_filter.2 ⟨hspace, ?_⟩
      simpa using fun hn : n = number => hne (by rw [hn])
  have hout : ∀ space : SpaceId, space.In (s.spaces.filter (· ≠ number)) → s.Live space := by
    intro space hspace
    cases space with
    | kernel => trivial
    | user n => exact (mem_filter.1 hspace).1
  refine ⟨h.next_lt, fun n hn => h.numbers n (mem_filter.1 hn).1,
    hin _ h.current hcurrent, fun space hspace => h.asid_iff space (hout space hspace),
    fun i hi => ?_⟩
  rcases h.slot i hi with hs | hs | ⟨other, hother, hs⟩
  · exact .inl hs
  · exact .inr (.inl hs)
  · refine .inr (.inr ⟨other, hin other hother ?_, hs⟩)
    rintro rfl
    have hasid := (h.asid_iff _ hother i).2 ⟨hi, hs⟩
    rw [hnone] at hasid
    exact absurd hasid (by simp)

/-- Every operation that meets its condition keeps the records in agreement. -/
lemma step {op : Op} (hmeets : s.Meets op) {s' : Asids}
    (hstep : s.step op = some s') : s'.Owned := by
  cases op with
  | setValid first last =>
    obtain ⟨-, ⟨⟩⟩ := ite_none_right_eq_some.1 hstep
    exact h.setValid first last
  | moveAsid i remove insert =>
    cases hstep
    exact h
  | get space =>
    obtain ⟨hspace, hmap⟩ := ite_none_right_eq_some.1 hstep
    obtain ⟨⟨i, s''⟩, hget, rfl⟩ := map_eq_some_iff.1 hmap
    exact h.get hspace hget
  | release space =>
    obtain ⟨hspace, ⟨⟩⟩ := ite_none_right_eq_some.1 hstep
    exact h.release hspace
  | createSpace number =>
    obtain ⟨⟨-, hnew⟩, ⟨⟩⟩ := ite_none_right_eq_some.1 hstep
    exact h.createSpace hmeets hnew
  | deleteSpace number =>
    obtain ⟨⟨hmem, hcurrent⟩, ⟨⟩⟩ := ite_none_right_eq_some.1 hstep
    have hlive : s.Live (.user number) := hmem
    refine (h.release hlive).removeSpace ?_ (release_asid s _)
    rwa [release_current]
  | setCurrent space =>
    obtain ⟨hspace, ⟨⟩⟩ := ite_none_right_eq_some.1 hstep
    exact { h with current := hspace }

end

end Owned

/-- In every run in which no space gets the number of a mark, the field of a space and the slots
agree, different spaces have different identifiers, and `allocate` returns a valid index that the
current space does not have. -/
theorem asids_owned {maxSpaceIds : BitVec 16} {ops : List Op}
    (hmeets : RunMeets step Meets (init maxSpaceIds) ops) {s : Asids}
    (hrun : run step (init maxSpaceIds) ops = some s) : (∀ space, s.Live space → ∀ i,
      s.asid space = some i ↔ i < maxNumAsids ∧ s.slots i = space.ref) ∧
    (∀ space other i, s.Live space → s.Live other → s.asid space = some i →
      s.asid other = some i → space = other) ∧
    ∀ space i s', s.allocate space = some (i, s') →
      i < maxNumAsids ∧ s.asid s.current ≠ some i := by
  have howned : s.Owned := RunMeets.invariant (fun _ _ _ h hok hstep => h.step hok hstep) hmeets
    (init_owned maxSpaceIds) hrun
  refine ⟨howned.asid_iff, fun space other i hspace hother h₁ h₂ => ?_, fun space i s' halloc => ?_⟩
  · have hslot₁ := ((howned.asid_iff space hspace i).1 h₁).2
    have hslot₂ := ((howned.asid_iff other hother i).1 h₂).2
    exact howned.ref_inj hspace hother (hslot₁.symm.trans hslot₂)
  · obtain ⟨-, halloc⟩ := ite_none_right_eq_some.1 halloc
    obtain ⟨j, hfind, htake⟩ := bind_eq_some_iff.1 halloc
    obtain ⟨s₁, -, heq⟩ := map_eq_some_iff.1 htake
    cases heq
    obtain ⟨hi, -, hcurrent⟩ := search_some howned.next_lt hfind
    exact ⟨hi, hcurrent⟩

/-- Of two identifiers, three spaces get one in turn: the third takes it from the first. -/
theorem asids_owned_three : ∃ s, run step (init 8) [.setValid 1 2, .createSpace 0, .createSpace 1,
      .createSpace 2, .get (.user 0), .get (.user 1), .get (.user 2)] = some s ∧
    (s.asid (.user 0), s.asid (.user 1), s.asid (.user 2)) = (none, some 2, some 1) ∧
    s.slots 1 = SpaceId.ref (.user 2) := by
  refine exists_run (Q := fun s => (s.asid (.user 0), s.asid (.user 1), s.asid (.user 2)) =
    (none, some 2, some 1) ∧ 2 ∈ s.spaces) (by decide +kernel) fun s hrun hview => ?_
  have hthird : s.asid (.user 2) = some 1 := (Prod.mk.inj (Prod.mk.inj hview.1).2).2
  exact ⟨hview.1, ((asids_owned (by decide +kernel) hrun).1 (.user 2) hview.2 1).1 hthird |>.2⟩

/-- The number of the first space is the mark of a free slot, so the third space gets the same
identifier. -/
theorem allocate_shared : ∃ s, run step (init 0xffff) [.setValid 1 2, .createSpace 0xfffe,
      .createSpace 0, .createSpace 1, .get (.user 0xfffe), .get (.user 0), .get (.user 1)] = some s ∧
    s.asid (.user 0xfffe) = some 1 ∧ s.asid (.user 1) = some 1 := by
  exact exists_run (by decide +kernel) fun _ _ hview => hview

end Asids

end Okl4Kernel
