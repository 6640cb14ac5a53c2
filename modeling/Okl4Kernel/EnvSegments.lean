import Mathlib.Data.List.Basic

/-!
# The segment of an address

`okl4_env_get_physseg_page` walks along the segments of the environment up to one that contains the
address. The cursor of the loop is its result, too: when no segment contains the address, the
cursor is left at the last one, and the details of this one are handed back. `isLookup_iff` says
for which addresses the answer is right all the same.
-/

namespace Okl4Kernel.EnvSegments

open List

/-- An `okl4_word_t`. -/
abbrev Word := BitVec 32

/-- An `okl4_env_segment_t`, with the fields that the lookup reads. -/
structure Segment where
  virtAddr : Word
  segment : Word
  size : Word
  rights : Word
  cachePolicy : Word

/-- What is handed back about an address. -/
structure Details where
  segmentId : Word
  base : Word
  size : Word
  attributes : Word
  perms : Word
  offset : Word
  deriving DecidableEq

/-- The error of the lookup. -/
inductive ErrorCode
  | allocExhausted
  deriving DecidableEq

namespace Segment

/-- The address is one of the segment. -/
def Contains (seg : Segment) (vaddr : Word) : Prop :=
  seg.virtAddr.toNat ≤ vaddr.toNat ∧ vaddr.toNat < seg.virtAddr.toNat + seg.size.toNat

/-- The test in the loop, in which the end of the segment is a word. -/
def holds (vaddr : Word) (seg : Segment) : Bool :=
  seg.virtAddr ≤ vaddr ∧ vaddr < seg.virtAddr + seg.size

/-- The details of an address in a segment. -/
def details (seg : Segment) (vaddr : Word) : Details :=
  ⟨seg.segment, seg.virtAddr, seg.size, seg.cachePolicy, seg.rights, vaddr - seg.virtAddr⟩

/-- The test never succeeds outside of the segment: an end that wraps around is before the start. -/
theorem contains_of_holds {seg : Segment} {vaddr : Word} (h : seg.holds vaddr = true) :
    seg.Contains vaddr := by
  obtain ⟨hle, hlt⟩ := of_decide_eq_true h
  rw [BitVec.le_def] at hle
  rw [BitVec.lt_def, BitVec.toNat_add] at hlt
  exact ⟨hle, Nat.lt_of_lt_of_le hlt (Nat.mod_le _ _)⟩

end Segment

/-- The loop, with the value of the cursor `seg`. -/
def search (vaddr : Word) : Option Segment → List Segment → Option Segment
  | seg, [] => seg
  | _, seg :: segs => if seg.holds vaddr then some seg else search vaddr (some seg) segs

/-- `okl4_env_get_physseg_page`. -/
def envGetPhyssegPage (segments : List Segment) (vaddr : Word) : Except ErrorCode Details :=
  match search vaddr none segments with
  | none => .error .allocExhausted
  | some seg => .ok (seg.details vaddr)

/-- The lookup succeeds exactly for the addresses of the segments, with the details of the segment
that contains the address. (If the segments are disjoint, there is only one.) -/
def IsLookup (segments : List Segment) (vaddr : Word) : Prop :=
  ((∃ r, envGetPhyssegPage segments vaddr = .ok r) ↔ ∃ seg ∈ segments, seg.Contains vaddr) ∧
    ∀ r, envGetPhyssegPage segments vaddr = .ok r →
      ∃ seg ∈ segments, seg.Contains vaddr ∧ r = seg.details vaddr

/-- The cursor is left at the first segment that passes the test, or else at the last one. -/
theorem search_eq (vaddr : Word) (cursor : Option Segment) (segs : List Segment) :
    search vaddr cursor segs = (segs.find? (Segment.holds vaddr)).or (segs.getLast?.or cursor) := by
  induction segs generalizing cursor with
  | nil => rfl
  | cons seg segs ih =>
    rw [search, find?_cons]
    by_cases hseg : seg.holds vaddr
    · simp [hseg]
    · rw [if_neg hseg, ih, getLast?_cons]
      cases segs.getLast? <;> simp [hseg]

/-- A lookup that succeeds is right if the cursor is at a segment that contains the address. -/
theorem isLookup_of_search {segments : List Segment} {vaddr : Word} {seg : Segment}
    (hsearch : search vaddr none segments = some seg) (hmem : seg ∈ segments)
    (hcontains : seg.Contains vaddr) : IsLookup segments vaddr := by
  have hok : envGetPhyssegPage segments vaddr = .ok (seg.details vaddr) := by
    rw [envGetPhyssegPage, hsearch]
  refine ⟨⟨fun _ => ⟨seg, hmem, hcontains⟩, fun _ => ⟨_, hok⟩⟩, fun r hr => ?_⟩
  exact ⟨seg, hmem, hcontains, Except.ok.inj (hr.symm.trans hok)⟩

/-- The answer is right in an empty table, for an address that passes the test of a segment, and for
an address of the last segment, which need not pass the test. -/
theorem isLookup_iff (segments : List Segment) (vaddr : Word) :
    IsLookup segments vaddr ↔ segments = [] ∨ (∃ seg ∈ segments, seg.holds vaddr) ∨
      ∃ seg, segments.getLast? = some seg ∧ seg.Contains vaddr := by
  have hsearch := search_eq vaddr none segments
  cases hfind : segments.find? (Segment.holds vaddr) with
  | some seg =>
    rw [hfind, Option.some_or] at hsearch
    have hmem := mem_of_find?_eq_some hfind
    have hholds := find?_some hfind
    exact iff_of_true (isLookup_of_search hsearch hmem (Segment.contains_of_holds hholds))
      (.inr (.inl ⟨seg, hmem, hholds⟩))
  | none =>
    have hnone : ¬ ∃ seg ∈ segments, seg.holds vaddr := by
      simpa using find?_eq_none.1 hfind
    rw [hfind, Option.none_or, Option.or_none] at hsearch
    rcases hlast : segments.getLast? with _ | last
    · obtain rfl : segments = [] := getLast?_eq_none_iff.1 hlast
      exact iff_of_true (by simp [IsLookup, envGetPhyssegPage, search]) (.inl rfl)
    rw [hlast] at hsearch
    have hmem := mem_of_getLast? hlast
    constructor
    · intro h
      obtain ⟨seg, -, hcontains, hsame⟩ := h.2 (last.details vaddr) (by
        rw [envGetPhyssegPage, hsearch])
      -- The details tell the range of the segment, so the last one contains the address.
      have hbase : last.virtAddr = seg.virtAddr := congrArg Details.base hsame
      have hsize : last.size = seg.size := congrArg Details.size hsame
      refine .inr (.inr ⟨last, rfl, ?_⟩)
      rw [Segment.Contains, hbase, hsize]
      exact hcontains
    · rintro (rfl | hholds | ⟨_, ⟨⟩, hcontains⟩)
      · cases hmem
      · exact absurd hholds hnone
      · exact isLookup_of_search hsearch hmem hcontains

/-- An address below the only segment is looked up as one of this segment. -/
theorem isLookup_fails_below : ¬ IsLookup [⟨0x1000, 1, 0x1000, 7, 0⟩] 0x500 := by
  rw [IsLookup]
  simp [envGetPhyssegPage, search, Segment.holds, Segment.Contains]

end Okl4Kernel.EnvSegments
