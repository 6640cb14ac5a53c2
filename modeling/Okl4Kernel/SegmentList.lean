import Okl4Kernel.Kmemory
import Okl4Kernel.Lib.TransitionSystem

/-!
# The physical segments of a space that is created at boot

The initial script creates a space with a number of physical segments. The kernel allocates a list
for them, whose header is followed by the segments, and further operations of the script install the
segments one by one. An index is checked against the number in the header only.

The size of the list is calculated with the size of a pointer to a segment in place of the size of a
segment. The heap rounds the size up to whole chunks, so that lists of up to 127 segments have room
nevertheless, and so does the list of 255, whose calculated size is just beyond a chunk.
-/

namespace Okl4Kernel

open Kmem TransitionSystem Function Option

/-- `sizeof(phys_segment_t)`. -/
def sizeofSegment : ℕ := 8

/-- `sizeof(phys_segment_t*)`. -/
def sizeofSegmentPointer : ℕ := 4

/-- `sizeof(segment_list_t)`: the number of segments, and one segment. -/
def sizeofSegmentList : ℕ := 12

/-- The number of segments of a space, a field of 16 bits of the initial script. -/
abbrev SegmentCount := Fin (2 ^ 16)

/-- The size that is asked for. -/
def segmentListBytes (n : SegmentCount) : ℕ := sizeofSegmentList + (n - 1) * sizeofSegmentPointer

/-- `phys_segment_t`. -/
structure PhysSegment where
  rawBase : Word
  rawSize : Word
  deriving DecidableEq

/-- The kernel heap, and what is in the lists of segments. -/
structure SegmentMemory where
  heap : Heap
  /-- `num_segments` of the list at an address. -/
  numSegments : ℕ → ℕ
  /-- The segments, by their addresses. -/
  segments : ℕ → PhysSegment

namespace SegmentMemory

/-- The part of `ki_create_space` that creates the list of segments. A heap without the memory is
not noticed by the source; here the script ends. -/
def createSegmentList (s : SegmentMemory) (n : SegmentCount) : Option (SegmentMemory × Option ℕ) :=
  if 0 < n then
    match s.heap.kmem.alloc (segmentListBytes n) true with
    | none => none
    | some (k, p) =>
      let chunks := roundUp (segmentListBytes n) / chunkSize
      some ({ s with
        heap := s.heap.allocated chunks (some (k, p))
        numSegments := update s.numSegments p n }, some p)
  else some (s, none)

/-- `lookup_segment`, for the list at `p`. -/
def lookupSegment (s : SegmentMemory) (p id : ℕ) : Option ℕ :=
  if id < s.numSegments p then some (p + 4 + sizeofSegment * id) else none

/-- An operation of the script that installs a segment. -/
structure CreateSegmentArgs where
  segNum : ℕ
  segment : PhysSegment

/-- `ki_create_segment`. The script ends if there is no list or no such segment. -/
def createSegment (list : Option ℕ) (s : SegmentMemory) (args : CreateSegmentArgs) :
    Option SegmentMemory :=
  list.bind fun p => (s.lookupSegment p args.segNum).map fun a =>
    { s with segments := update s.segments a args.segment }

/-- The segment at the address is inside of the block. -/
def Inside (b : Block) (a : ℕ) : Prop :=
  b.addr ≤ a ∧ a + sizeofSegment ≤ b.addr + chunkSize * b.chunks

instance (b : Block) (a : ℕ) : Decidable (Inside b a) := inferInstanceAs (Decidable (_ ∧ _))

/-- The segment of a number is inside of the block that was allocated for the list. -/
def SegmentInside (s s' : SegmentMemory) (list : Option ℕ) (id : ℕ) : Prop :=
  ∃ b a, list = some b.addr ∧ s'.heap.live = b :: s.heap.live ∧
    s'.lookupSegment b.addr id = some a ∧ Inside b a

/-- The list that was created in the state `s` has room for its segments. -/
structure ListSafe (s s' : SegmentMemory) (list : Option ℕ) (n : SegmentCount) : Prop where
  /-- Every segment can be looked up inside of the block. -/
  lookups : ∀ i < n.val, SegmentInside s s' list i
  /-- Whatever the script installs is inside of the block. -/
  installed : ∀ script s'', run (createSegment list) s' script = some s'' →
    ∀ args ∈ script, SegmentInside s s' list args.segNum

/-! ## Sizes -/

lemma roundUp_segmentListBytes {n : SegmentCount} (hn : 0 < n.val) :
    roundUp (segmentListBytes n) = chunkSize * (roundUp (segmentListBytes n) / chunkSize) ∧
      (4 + sizeofSegment * n ≤ roundUp (segmentListBytes n) ↔ n.val ≤ 127 ∨ n.val = 255) := by
  have hlt := n.isLt
  unfold roundUp pred segmentListBytes sizeofSegmentList sizeofSegmentPointer sizeofSegment
    chunkSize wordSpace
  omega

/-! ## Installing segments -/

/-- A script that does not end early has used numbers of segments only. -/
lemma segNum_lt_of_run {p : ℕ} {s s' : SegmentMemory} {script : List CreateSegmentArgs}
    (hrun : run (createSegment (some p)) s script = some s') :
    ∀ args ∈ script, args.segNum < s.numSegments p := by
  induction script generalizing s with
  | nil => simp
  | cons first script ih =>
    obtain ⟨t, ht, hrest⟩ := bind_eq_some_iff.1 hrun
    obtain ⟨p', hp', hmap⟩ := bind_eq_some_iff.1 ht
    obtain ⟨a, ha, rfl⟩ := map_eq_some_iff.1 hmap
    cases hp'
    have hlater := ih hrest
    exact List.forall_mem_cons.2 ⟨(ite_none_right_eq_some.1 ha).1, hlater⟩

/-- A segment that can be looked up is inside of the block if the block is large enough. -/
lemma segmentInside_iff {s s' : SegmentMemory} {p chunks i : ℕ}
    (hlive : s'.heap.live = ⟨p, chunks⟩ :: s.heap.live) (hi : i < s'.numSegments p) :
    SegmentInside s s' (some p) i ↔
      4 + sizeofSegment * i + sizeofSegment ≤ chunkSize * chunks := by
  have hlookup : s'.lookupSegment p i = some (p + 4 + sizeofSegment * i) := if_pos hi
  constructor
  · rintro ⟨b, a, -, hb, ha, hin⟩
    obtain ⟨rfl, -⟩ := List.cons.inj (hlive.symm.trans hb)
    obtain rfl := some.inj (hlookup.symm.trans ha)
    have hend := hin.2
    dsimp only at hend
    omega
  · intro hroom
    refine ⟨⟨p, chunks⟩, _, rfl, hlive, hlookup, ?_⟩
    unfold Inside
    dsimp only
    omega

/-- The list of a space has room for its segments exactly if there are at most 127 of them, or
255. -/
theorem listSafe_iff {s s' : SegmentMemory} {list : Option ℕ} {n : SegmentCount}
    (hcreate : s.createSegmentList n = some (s', list)) :
    ListSafe s s' list n ↔ n.val ≤ 127 ∨ n.val = 255 := by
  unfold createSegmentList at hcreate
  split_ifs at hcreate with hpos
  · rcases halloc : s.heap.kmem.alloc (segmentListBytes n) true with _ | r
    · simp [halloc] at hcreate
    obtain ⟨k, p⟩ := r
    rw [halloc] at hcreate
    obtain ⟨rfl, rfl⟩ := Prod.mk.inj (some.inj hcreate)
    set s' : SegmentMemory := { s with
      heap := s.heap.allocated (roundUp (segmentListBytes n) / chunkSize) (some (k, p))
      numSegments := update s.numSegments p n } with hs'
    have hn : 0 < n.val := hpos
    obtain ⟨hchunks, hroom⟩ := roundUp_segmentListBytes hn
    have hnum : s'.numSegments p = n := update_self _ _ _
    have hinside : ∀ i < n.val, (SegmentInside s s' (some p) i ↔
        4 + sizeofSegment * i + sizeofSegment ≤ roundUp (segmentListBytes n)) := fun i hi => by
      rw [hchunks]
      exact segmentInside_iff rfl (by rwa [hnum])
    constructor
    · intro hsafe
      have hlast := (hinside (n - 1) (by omega)).1 (hsafe.lookups (n - 1) (by omega))
      rw [← hroom]
      unfold sizeofSegment at *
      omega
    · intro hle
      have hall : ∀ i < n.val, SegmentInside s s' (some p) i := by
        intro i hi
        rw [hinside i hi]
        have := hroom.2 hle
        unfold sizeofSegment at *
        omega
      refine ⟨hall, fun script s'' hrun args hargs => hall _ ?_⟩
      rw [← hnum]
      exact segNum_lt_of_run hrun args hargs
  · obtain ⟨rfl, rfl⟩ := Prod.mk.inj (some.inj hcreate)
    have hzero : n.val = 0 := by
      simpa using hpos
    refine iff_of_true ⟨fun i hi => by omega, fun script s'' hrun args hargs => ?_⟩ (by omega)
    rcases script with _ | ⟨first, script⟩
    · cases hargs
    · cases hrun

/-- The memory at boot, when there is no list of segments yet. -/
def atBoot (h : Heap) : SegmentMemory := ⟨h, fun _ => 0, fun _ => ⟨0, 0⟩⟩

/-- A list of a hundred segments has room for them. -/
theorem listSafe_hundred : ∃ h s' list, run Heap.step Heap.empty [.init 4096 8192] = some h ∧
    (atBoot h).createSegmentList 100 = some (s', list) ∧ ListSafe (atBoot h) s' list 100 := by
  simp only [exists_and_left]
  refine exists_run (Q := fun h => ((atBoot h).createSegmentList 100).isSome) (by decide +kernel)
    fun h _ hsome => ?_
  obtain ⟨⟨s', list⟩, hcreate⟩ := isSome_iff_exists.1 hsome
  exact ⟨s', list, hcreate, (listSafe_iff hcreate).2 (by decide)⟩

/-- The last segment of a list of 128 is beyond the block that is allocated. -/
theorem createSegmentList_small : ∃ h s', run Heap.step Heap.empty [.init 4096 8192] = some h ∧
    (atBoot h).createSegmentList 128 = some (s', some 4096) ∧ s'.heap.live = [⟨4096, 1⟩] ∧
    s'.lookupSegment 4096 127 = some 5116 ∧ ¬ Inside ⟨4096, 1⟩ 5116 := by
  simp only [exists_and_left]
  refine exists_run (Q := fun h => ((atBoot h).createSegmentList 128).map (fun r =>
    (r.2, r.1.heap.live, r.1.lookupSegment 4096 127)) = some (some 4096, [⟨4096, 1⟩], some 5116))
    (by decide +kernel) fun h _ hview => ?_
  obtain ⟨⟨s', list⟩, hcreate, hview⟩ := map_eq_some_iff.1 hview
  obtain ⟨rfl, hlive, hlookup⟩ : list = some 4096 ∧ _ ∧ _ := by
    simpa only [Prod.mk.injEq] using hview
  exact ⟨s', hcreate, hlive, hlookup, by decide⟩

end SegmentMemory

end Okl4Kernel
