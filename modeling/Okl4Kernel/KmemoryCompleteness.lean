import Okl4Kernel.KmemoryInvariant

/-!
# What the kernel memory allocator does not find

The search of an allocation goes from chunk to chunk and follows the list, from each aligned chunk,
through the chunks of a possible block to the one behind it. If there is no chunk behind the block,
the pointer that the search ends with is `NULL`, which is taken for a failure: a block at the end of
the list is not found. All other blocks are (`alloc_complete_iff`).
-/

namespace Okl4Kernel

open List

namespace Kmem

variable {k : Kmem} {fl ys : List ℕ} {a n : ℕ} {aligned : ℕ → Bool}

/-- A run of free chunks that a request can be served with: it begins at an aligned chunk. -/
structure Run (fl : List ℕ) (aligned : ℕ → Bool) (chunks a : ℕ) : Prop where
  start : a ∈ fl
  aligned : aligned a = true
  free : ∀ c ∈ chunkAddrs a chunks, c ∈ fl

/-- The run has the last chunk of the free list. -/
def AtTail (fl : List ℕ) (chunks a : ℕ) : Prop := ∃ c ∈ chunkAddrs a chunks, fl.getLast? = some c

/-! ## Runs of the free list -/

lemma exists_chunkAddrs_append (hsorted : fl.Pairwise (· < ·)) (hchunk : ∀ c ∈ fl, chunkSize ∣ c)
    (ha : chunkSize ∣ a) (hle : ∀ c ∈ fl, a ≤ c) (hfree : ∀ c ∈ chunkAddrs a n, c ∈ fl) :
    ∃ ys, fl = chunkAddrs a n ++ ys := by
  induction n generalizing a fl with
  | zero => exact ⟨fl, rfl⟩
  | succ n ih =>
    rw [chunkAddrs_succ, forall_mem_cons] at hfree
    obtain ⟨hmem, hfree⟩ := hfree
    rcases fl with _ | ⟨b, fl⟩
    · exact absurd hmem not_mem_nil
    obtain ⟨hb, hsorted'⟩ := pairwise_cons.1 hsorted
    obtain ⟨-, hchunk'⟩ := forall_mem_cons.1 hchunk
    -- The first chunk of the list is that of the run: none is below it.
    have hab : a = b := by
      rcases mem_cons.1 hmem with heq | hlater
      · exact heq
      · exact absurd (hb a hlater) (not_lt.2 (hle b mem_cons_self))
    subst hab
    have hnext : ∀ c ∈ fl, a + chunkSize ≤ c := by
      intro c hc
      have hlt := hb c hc
      exact Nat.le_of_lt_add_of_dvd (by omega) (Nat.dvd_add ha dvd_rfl) (hchunk' c hc)
    have hrest : ∀ c ∈ chunkAddrs (a + chunkSize) n, c ∈ fl := by
      intro c hc
      rcases mem_cons.1 (hfree c hc) with heq | hlater
      · have hge := (le_of_mem_chunkAddrs hc).1
        have hpos : 0 < chunkSize := by decide
        omega
      · exact hlater
    obtain ⟨ys, hys⟩ := ih hsorted' hchunk' (Nat.dvd_add ha dvd_rfl) hnext hrest
    exact ⟨ys, by rw [chunkAddrs_succ, hys, cons_append]⟩

lemma FreeList.exists_run_split (h : FreeList k fl) {chunks : ℕ} (hrun : Run fl aligned chunks a) :
    ∃ xs ys, fl = xs ++ (chunkAddrs a chunks ++ ys) := by
  obtain ⟨xs, ys, rfl, hxs, hys⟩ := exists_split h.sorted a
  have hsorted := (pairwise_append.1 h.sorted).2.1
  have hfree : ∀ c ∈ chunkAddrs a chunks, c ∈ ys := by
    intro c hc
    rcases mem_append.1 (hrun.free c hc) with hx | hy
    · have hge := (le_of_mem_chunkAddrs hc).1
      exact absurd (hxs c hx) (not_lt.2 hge)
    · exact hy
  have hchunk : ∀ c ∈ ys, chunkSize ∣ c := fun c hc => (h.chunk c (mem_append_right _ hc)).1
  obtain ⟨zs, rfl⟩ :=
    exists_chunkAddrs_append hsorted hchunk (h.chunk a hrun.start).1 hys hfree
  exact ⟨xs, zs, rfl⟩

/-- A run is at the end of the list if nothing comes behind it. -/
lemma atTail_append_iff {xs : List ℕ}
    (hsorted : (xs ++ (chunkAddrs a (n + 1) ++ ys)).Pairwise (· < ·)) :
    AtTail (xs ++ (chunkAddrs a (n + 1) ++ ys)) (n + 1) a ↔ ys = [] := by
  constructor
  · rintro ⟨c, hc, hlast⟩
    by_contra hne
    obtain ⟨zs, y, rfl⟩ := (eq_nil_or_concat' ys).resolve_left hne
    rw [← append_assoc, ← append_assoc, List.getLast?_concat] at hlast
    cases hlast
    obtain ⟨-, hrest, -⟩ := pairwise_append.1 hsorted
    have hlt := (pairwise_append.1 hrest).2.2 c hc c (mem_append_right _ (mem_singleton_self c))
    exact lt_irrefl c hlt
  · rintro rfl
    have hlast : chunkAddrs a (n + 1) = chunkAddrs a n ++ [a + chunkSize * n] := by
      simp only [chunkAddrs, range_succ, map_append, map_cons, map_nil]
    refine ⟨a + chunkSize * n, mem_chunkAddrs.2 ⟨n, Nat.lt_succ_self n, rfl⟩, ?_⟩
    rw [append_nil, hlast, ← append_assoc, List.getLast?_concat]

/-! ## The search -/

/-- The inner loop of `alloc` follows a run to the chunk behind it. -/
lemma runEnd_eq_some {cells : Cells} {curr i tmp : ℕ} (h : Reads cells (some (curr + chunkSize * i))
      (chunkAddrs (curr + chunkSize * (i + 1)) n ++ tmp :: ys) none)
    (hbound : ∀ c ∈ chunkAddrs (curr + chunkSize * (i + 1)) n, c < wordSpace) :
    runEnd cells curr n (i + 1) (cells (some (curr + chunkSize * i))) = some tmp := by
  induction n generalizing i with
  | zero => exact h.1
  | succ n ih =>
    rw [chunkAddrs_succ, cons_append] at h
    rw [chunkAddrs_succ, forall_mem_cons] at hbound
    have hstep : curr + chunkSize * (i + 1) + chunkSize = curr + chunkSize * (i + 1 + 1) := by ring
    rw [hstep] at h hbound
    rw [h.1, runEnd, if_pos (Nat.mod_eq_of_lt hbound.1).symm]
    exact ih h.2 hbound.2

/-- The outer loop of `alloc` finds something if there is a run with a chunk behind it. -/
lemma search_ne_none {cells : Cells} {m : ℕ} {c : Option ℕ} {xs : List ℕ} {tmp : ℕ}
    (h : Reads cells c (xs ++ (chunkAddrs a (m + 1) ++ tmp :: ys)) none)
    (hbound : ∀ b ∈ chunkAddrs a (m + 1), b < wordSpace) (halign : aligned a = true)
    (hn : xs.length < n) : search cells aligned (m + 1) n c (cells c) ≠ none := by
  induction xs generalizing c n with
  | nil =>
    obtain ⟨n, rfl⟩ : ∃ i, n = i + 1 := ⟨n - 1, by simp at hn; omega⟩
    rw [nil_append, chunkAddrs_succ, cons_append] at h
    rw [chunkAddrs_succ, forall_mem_cons] at hbound
    have hend : runEnd cells a (m + 1 - 1) 1 (cells (some a)) = some tmp :=
      runEnd_eq_some (i := 0) (by simpa using h.2) (by simpa using hbound.2)
    rw [h.1, search, if_pos halign, hend]
    exact Option.some_ne_none _
  | cons x xs ih =>
    obtain ⟨n, rfl⟩ : ∃ i, n = i + 1 := ⟨n - 1, by simp at hn; omega⟩
    rw [cons_append] at h
    have hnext := ih h.2 (by simpa using hn)
    rw [h.1, search]
    rcases if aligned x then runEnd cells x (m + 1 - 1) 1 (cells (some x)) else none with _ | t
    · exact hnext
    · exact Option.some_ne_none _

/-- An allocation returns `NULL` exactly if all runs are at the end of the free list. -/
lemma FreeList.allocWith_eq_none_iff (h : FreeList k fl) {size m : ℕ} {zeroed : Bool}
    (hsize : size / chunkSize = m + 1) : k.allocWith aligned size zeroed = none ↔
      ∀ a, Run fl aligned (m + 1) a → AtTail fl (m + 1) a := by
  have hnone : k.allocWith aligned size zeroed = none ↔
      search k.cells aligned (m + 1) (k.freeChunks + 1) none (k.cells none) = none := by
    rw [Kmem.allocWith, hsize]
    rcases search k.cells aligned (m + 1) (k.freeChunks + 1) none (k.cells none) with _ | found
    · exact iff_of_true rfl rfl
    · exact iff_of_false (Option.some_ne_none _) (Option.some_ne_none _)
  rw [hnone]
  constructor
  · intro hsearch a hrun
    obtain ⟨xs, ys, hsplit⟩ := h.exists_run_split hrun
    rcases ys with _ | ⟨tmp, ys⟩
    · have hsorted := h.sorted
      rw [hsplit] at hsorted ⊢
      exact (atTail_append_iff hsorted).2 rfl
    · have hreads : Reads k.cells none (xs ++ (chunkAddrs a (m + 1) ++ tmp :: ys)) none :=
        hsplit ▸ h.reads
      refine absurd hsearch (search_ne_none hreads (fun b hb => ?_) hrun.aligned ?_)
      · have hle := (h.chunk b (hrun.free b hb)).2.1
        have hpos : 0 < chunkSize := by decide
        omega
      · rw [h.count, hsplit, length_append]
        omega
  · intro hall
    cases hfound : search k.cells aligned (m + 1) (k.freeChunks + 1) none (k.cells none) with
    | none => rfl
    | some found =>
      obtain ⟨prev, curr, tmp⟩ := found
      obtain ⟨xs, ys, hsplit, -, halign⟩ := search_spec h.reads h.sorted h.chunk hfound
      have hrun : Run fl aligned (m + 1) curr := by
        refine ⟨?_, halign, fun c hc => ?_⟩
        · rw [hsplit, chunkAddrs_succ]
          exact mem_append_right _ (mem_append_left _ mem_cons_self)
        · rw [hsplit]
          exact mem_append_right _ (mem_append_left _ hc)
      have htail := hall curr hrun
      have hsorted := h.sorted
      rw [hsplit] at htail hsorted
      cases (atTail_append_iff hsorted).1 htail

/-! ## The two allocations -/

/-- The chunks that `alloc` looks for: those of the size, rounded up, at an address in which no bit
of the size less one is set. -/
def AllocRun (fl : List ℕ) (size a : ℕ) : Prop :=
  Run fl (fun curr => curr &&& pred (roundUp size) = 0) (roundUp size / chunkSize) a

/-- The chunks that `alloc_aligned` looks for: the address agrees with the alignment under the mask,
too. -/
def AllocAlignedRun (fl : List ℕ) (size alignment mask a : ℕ) : Prop :=
  Run fl (fun curr => curr &&& mask = alignment &&& mask ∧ curr &&& pred (max size chunkSize) = 0)
    (max size chunkSize / chunkSize) a

/-- An allocation finds a block whenever there is one, exactly if there is a block that is not at
the end of the list whenever there is one at all. -/
lemma complete_iff {P Q : ℕ → Prop} {failed : Prop} (h : failed ↔ ∀ a, P a → Q a) :
    (failed → ∀ a, ¬ P a) ↔ ((∃ a, P a) → ∃ a, P a ∧ ¬ Q a) := by
  constructor
  · rintro hcomplete ⟨a, ha⟩
    by_contra hnone
    push Not at hnone
    exact hcomplete (h.2 hnone) a ha
  · intro hcond hfailed a ha
    obtain ⟨b, hb, hnot⟩ := hcond ⟨a, ha⟩
    exact hnot (h.1 hfailed b hb)

lemma FreeList.alloc_eq_none_iff (h : FreeList k fl) (size : Word) (zeroed : Bool) :
    k.alloc size zeroed = none ↔
      ∀ a, AllocRun fl size a → AtTail fl (roundUp size / chunkSize) a := by
  rcases roundUp_cases size with hzero | ⟨m, hm, -⟩
  · -- No address passes the test of a request that was rounded up to zero.
    have hnot : ∀ a ∈ fl, decide (a &&& pred (roundUp size) = 0) = false := by
      intro a ha
      rw [hzero]
      exact decide_eq_false (land_pred_zero_ne (h.chunk a ha))
    refine iff_of_true ?_ fun a hrun => ?_
    · rw [Kmem.alloc, Kmem.allocWith, search_eq_none h.reads hnot]
    · have htest := hrun.aligned
      rw [hnot a hrun.start] at htest
      cases htest
  · have hdiv : roundUp size / chunkSize = m + 1 := by
      rw [hm]
      exact Nat.mul_div_cancel_left _ (by decide)
    rw [Kmem.alloc, h.allocWith_eq_none_iff hdiv]
    unfold AllocRun
    rw [hdiv]

lemma FreeList.allocAligned_eq_none_iff (h : FreeList k fl) (size alignment mask : ℕ)
    (zeroed : Bool) : k.allocAligned size alignment mask zeroed = none ↔
      ∀ a, AllocAlignedRun fl size alignment mask a →
        AtTail fl (max size chunkSize / chunkSize) a := by
  have hpos : 0 < max size chunkSize / chunkSize :=
    Nat.div_pos (le_max_right _ _) (by decide)
  obtain ⟨m, hm⟩ := Nat.exists_eq_add_one_of_ne_zero hpos.ne'
  rw [Kmem.allocAligned, h.allocWith_eq_none_iff hm]
  unfold AllocAlignedRun
  rw [hm]

/-- `alloc` and `alloc_aligned` find a block whenever there is one, if and only if there is one that
does not have the last free chunk whenever there is one at all. -/
theorem alloc_complete_iff (k : Kmem) (fl : List ℕ) (h : FreeList k fl) :
    (∀ (size : Word) (zeroed : Bool),
      (k.alloc size zeroed = none → ∀ a, ¬ AllocRun fl size a) ↔
        ((∃ a, AllocRun fl size a) →
          ∃ a, AllocRun fl size a ∧ ¬ AtTail fl (roundUp size / chunkSize) a)) ∧
      ∀ (size alignment mask : Word) (zeroed : Bool),
        (k.allocAligned size alignment mask zeroed = none →
          ∀ a, ¬ AllocAlignedRun fl size alignment mask a) ↔
          ((∃ a, AllocAlignedRun fl size alignment mask a) →
            ∃ a, AllocAlignedRun fl size alignment mask a ∧
              ¬ AtTail fl (max (size : ℕ) chunkSize / chunkSize) a) := by
  refine ⟨fun size zeroed => ?_, fun size alignment mask zeroed => ?_⟩
  · exact complete_iff (h.alloc_eq_none_iff size zeroed)
  · exact complete_iff (h.allocAligned_eq_none_iff size alignment mask zeroed)

/-- A heap of one chunk, at the address 4096. -/
def oneChunk : Kmem := Kmem.init ⟨fun _ => none, 0⟩ 4096 5120

lemma oneChunk_freeList : FreeList oneChunk [4096] := by
  have hend : oneChunk.cells (some 4096) = none := by decide
  refine ⟨⟨by decide, hend⟩, pairwise_singleton _ _, by decide, fun c hc => ?_⟩
  rw [mem_singleton.1 hc]
  exact ⟨by decide, by decide, by decide⟩

/-- A heap of three chunks, from the address 4096 on. -/
def threeChunks : Kmem := Kmem.init ⟨fun _ => none, 0⟩ 4096 7168

lemma threeChunks_freeList : FreeList threeChunks [4096, 5120, 6144] := by
  have hend : threeChunks.cells (some 6144) = none := by decide
  exact ⟨⟨by decide, by decide, by decide, hend⟩, by decide, by decide,
    by simp [IsChunk, chunkSize, wordSpace]⟩

/-- The first two of three chunks can serve a request, so one is served. -/
theorem alloc_complete_iff_threeChunks :
    AllocRun [4096, 5120, 6144] 2048 4096 ∧ threeChunks.alloc 2048 false ≠ none := by
  have hchunks : chunkAddrs 4096 (roundUp 2048 / chunkSize) = [4096, 5120] := by decide
  have hrun : AllocRun [4096, 5120, 6144] 2048 4096 :=
    ⟨by decide, by decide, by rw [hchunks]; decide⟩
  refine ⟨hrun, fun hnone => ?_⟩
  refine ((alloc_complete_iff threeChunks _ threeChunks_freeList).1 2048 false).2 ?_ hnone _ hrun
  rintro -
  refine ⟨4096, hrun, ?_⟩
  rintro ⟨c, hc, hlast⟩
  rw [show ((2048 : Word) : ℕ) = 2048 from rfl, hchunks] at hc
  cases hlast
  simp at hc

/-- The only free chunk is not handed out. -/
theorem alloc_misses_last_chunk :
    FreeList oneChunk [4096] ∧ AllocRun [4096] 1024 4096 ∧ oneChunk.alloc 1024 false = none := by
  refine ⟨oneChunk_freeList, ⟨by decide, by decide, fun c hc => ?_⟩, by decide +kernel⟩
  obtain ⟨i, hi, rfl⟩ := mem_chunkAddrs.1 hc
  rw [show roundUp 1024 / chunkSize = 1 by decide] at hi
  rw [Nat.lt_one_iff.1 hi]
  exact mem_singleton_self _

end Kmem

end Okl4Kernel
