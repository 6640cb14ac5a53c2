import Okl4Kernel.Kmemory
import Okl4Kernel.Lib.TransitionSystem

/-!
# The kernel heap loses and duplicates no chunk

`FreeList k fl` says that the free list of the allocator spells the list `fl` of chunk addresses,
which is strictly ascending, and that the counter is its length. `free` inserts a run of chunks
into that list and an allocation takes one out (`FreeList.free`, `FreeList.allocWith`).

`Heap.Ok` is the invariant of the allocator and its clients together: the free chunks and the
chunks of the blocks in use are, each exactly once, the chunks that the allocator was given.
-/

namespace Okl4Kernel

open Function List Option TransitionSystem Heap

variable {a c n : ℕ}

open LinkedChain

/-! ## Runs of chunks -/

lemma mem_chunkAddrs : c ∈ chunkAddrs a n ↔ ∃ i < n, a + chunkSize * i = c := by
  simp [chunkAddrs]

@[simp] lemma length_chunkAddrs (a n : ℕ) : (chunkAddrs a n).length = n := by
  simp [chunkAddrs]

lemma chunkAddrs_succ (a n : ℕ) : chunkAddrs a (n + 1) = a :: chunkAddrs (a + chunkSize) n := by
  simp only [chunkAddrs, range_succ_eq_map, map_cons, List.map_map]
  refine congrArg₂ List.cons (by simp) (map_congr_left fun i _ => ?_)
  simp only [Function.comp_apply, Nat.succ_eq_add_one]
  ring

lemma pairwise_chunkAddrs (a n : ℕ) : (chunkAddrs a n).Pairwise (· < ·) := by
  rw [chunkAddrs, pairwise_map]
  refine pairwise_lt_range.imp fun h => ?_
  unfold chunkSize
  omega

lemma le_of_mem_chunkAddrs (h : c ∈ chunkAddrs a n) :
    a ≤ c ∧ c + chunkSize ≤ a + chunkSize * n := by
  obtain ⟨i, hi, rfl⟩ := mem_chunkAddrs.1 h
  unfold chunkSize
  omega

lemma mem_chunkAddrs_of_le (ha : chunkSize ∣ a) (hc : chunkSize ∣ c) (hle : a ≤ c)
    (hlt : c < a + chunkSize * n) : c ∈ chunkAddrs a n := by
  refine mem_chunkAddrs.2 ⟨(c - a) / chunkSize, ?_⟩
  unfold chunkSize at *
  omega

lemma lastCell_chunkAddrs (a n : ℕ) :
    lastCell some (some a) (chunkAddrs (a + chunkSize) n) = some (a + chunkSize * n) := by
  induction n generalizing a with
  | zero => simp [chunkAddrs, lastCell]
  | succ n ih =>
    rw [chunkAddrs_succ, lastCell, ih]
    congr 1
    ring

/-! ## The loops -/

namespace Kmem

variable {zeroed : Bool} {cells : Cells} {k k' : Kmem} {fl : List ℕ} {c : Option ℕ} {m size : ℕ}
  {aligned : ℕ → Bool}

/-- The list that is read from a cell. -/
abbrev Reads (cells : Cells) (c : Option ℕ) (xs : List ℕ) (e : Option ℕ) : Prop :=
  Seg some cells c xs e

/-- The first loop of `free` links the chunks of the block and touches no other word. -/
lemma linkLoop_spec (cells : Cells) (p m n : ℕ) (hn : m ≤ n) :
    (linkLoop (p + chunkSize * m) n cells p).2 = p + chunkSize * m ∧
    (∀ c, (∀ i < m, c ≠ some (p + chunkSize * i)) →
      (linkLoop (p + chunkSize * m) n cells p).1 c = cells c) ∧
    Reads (linkLoop (p + chunkSize * m) n cells p).1 (some p) (chunkAddrs (p + chunkSize) m)
      (cells (some (p + chunkSize * m))) := by
  induction m generalizing cells p n with
  | zero =>
    rcases n with _ | n
    · exact ⟨by simp [linkLoop], fun c _ => rfl, by simp [linkLoop, chunkAddrs, Seg]⟩
    · exact ⟨by simp [linkLoop], fun c _ => by simp [linkLoop], by simp [linkLoop, chunkAddrs, Seg]⟩
  | succ m ih =>
    obtain ⟨n, rfl⟩ : ∃ k, n = k + 1 := ⟨n - 1, by omega⟩
    have hlast : p + chunkSize * (m + 1) = p + chunkSize + chunkSize * m := by ring
    have hlt : p < p + chunkSize * (m + 1) := by
      unfold chunkSize
      omega
    obtain ⟨hend, hframe, hreads⟩ :=
      ih (update cells (some p) (some (p + chunkSize))) (p + chunkSize) n (by omega)
    rw [← hlast] at hend hframe hreads
    have hne : ∀ i, (some p : Option ℕ) ≠ some (p + chunkSize + chunkSize * i) := by
      intro i e
      have := Option.some.inj e
      unfold chunkSize at this
      omega
    rw [linkLoop, if_pos hlt]
    refine ⟨hend, ?_, ?_⟩
    · intro c hc
      have hcp : c ≠ some p := by simpa using hc 0 (Nat.succ_pos m)
      rw [hframe c ?_, update_of_ne hcp]
      intro i hi
      have := hc (i + 1) (by omega)
      rwa [show p + chunkSize * (i + 1) = p + chunkSize + chunkSize * i by ring] at this
    · rw [chunkAddrs_succ]
      refine ⟨?_, ?_⟩
      · rw [hframe (some p) fun i _ => hne i, update_self]
      · have hlast' : update cells (some p) (some (p + chunkSize))
            (some (p + chunkSize * (m + 1))) = cells (some (p + chunkSize * (m + 1))) :=
          update_of_ne (by rw [hlast]; exact (hne m).symm) _ _
        rwa [hlast'] at hreads

/-- The second loop of `free` finds the place of an address in an ascending list. -/
lemma findPlace_spec {address : ℕ} {xs ys : List ℕ} (h : Reads cells c (xs ++ ys) none)
    (hxs : ∀ x ∈ xs, x < address) (hys : ∀ y ∈ ys, address ≤ y) (hn : xs.length < n) :
    findPlace cells address n c (cells c) = (lastCell some c xs, ys.head?) := by
  induction xs generalizing c n with
  | nil =>
    obtain ⟨n, rfl⟩ : ∃ k, n = k + 1 := ⟨n - 1, by simp at hn; omega⟩
    rcases ys with _ | ⟨y, ys⟩
    · have hnone : cells c = none := h
      simp [hnone, findPlace, lastCell]
    · have hsome : cells c = some y := h.1
      have hge := hys y mem_cons_self
      simp [hsome, findPlace, lastCell, not_lt.2 hge]
  | cons x xs ih =>
    obtain ⟨n, rfl⟩ : ∃ k, n = k + 1 := ⟨n - 1, by simp at hn; omega⟩
    have hsome : cells c = some x := h.1
    have hlt := hxs x mem_cons_self
    rw [hsome, findPlace, if_pos hlt]
    exact ih h.2 (fun y hy => hxs y (mem_cons_of_mem x hy)) (by simp at hn; omega)

/-- The inner loop of `alloc` succeeds only on a run of adjacent chunks. -/
lemma runEnd_spec {curr i tmp : ℕ} {rest : List ℕ}
    (h : Reads cells (some (curr + chunkSize * i)) rest none)
    (hsorted : ((curr + chunkSize * i) :: rest).Pairwise (· < ·))
    (hbound : curr + chunkSize * i + chunkSize ≤ wordSpace)
    (hrest : ∀ c ∈ rest, c + chunkSize ≤ wordSpace)
    (hrun : runEnd cells curr n (i + 1) (cells (some (curr + chunkSize * i))) = some tmp) :
    ∃ ys, rest = chunkAddrs (curr + chunkSize * (i + 1)) n ++ tmp :: ys := by
  induction n generalizing i rest with
  | zero =>
    rcases rest with _ | ⟨y, ys⟩
    · rw [show cells (some (curr + chunkSize * i)) = none from h] at hrun
      cases hrun
    · rw [h.1] at hrun
      exact ⟨ys, by simp [chunkAddrs, Option.some.inj hrun]⟩
  | succ n ih =>
    rcases rest with _ | ⟨y, ys⟩
    · rw [show cells (some (curr + chunkSize * i)) = none from h, runEnd] at hrun
      cases hrun
    rw [h.1, runEnd] at hrun
    split_ifs at hrun with heq
    -- The next chunk is above this one, so that the sum does not wrap around.
    obtain ⟨hlt, hsorted'⟩ := pairwise_cons.1 hsorted
    have hy : y = curr + chunkSize * (i + 1) := by
      have hgt := hlt y mem_cons_self
      have hsum : curr + chunkSize * (i + 1) = curr + chunkSize * i + chunkSize := by ring
      rw [hsum] at heq ⊢
      rcases Nat.lt_or_eq_of_le hbound with hlt' | heq'
      · rwa [Nat.mod_eq_of_lt hlt'] at heq
      · rw [heq', Nat.mod_self] at heq
        omega
    subst hy
    obtain ⟨zs, hzs⟩ := ih h.2 hsorted' (hrest _ mem_cons_self)
      (fun c hc => hrest c (mem_cons_of_mem _ hc)) hrun
    refine ⟨zs, ?_⟩
    rw [hzs, chunkAddrs_succ, show curr + chunkSize * (i + 1 + 1) =
      curr + chunkSize * (i + 1) + chunkSize by ring]
    rfl

/-! ## The free list -/

/-- An address of a chunk in the address space, other than `NULL`. -/
def IsChunk (c : ℕ) : Prop := chunkSize ∣ c ∧ c + chunkSize ≤ wordSpace ∧ c ≠ 0

/-- The free list spells an ascending list of chunks, and the counter is its length. -/
structure FreeList (k : Kmem) (fl : List ℕ) : Prop where
  reads : Reads k.cells none fl none
  sorted : fl.Pairwise (· < ·)
  count : k.freeChunks = fl.length
  chunk : ∀ c ∈ fl, IsChunk c

lemma exists_split (h : fl.Pairwise (· < ·)) (a : ℕ) :
    ∃ xs ys, fl = xs ++ ys ∧ (∀ x ∈ xs, x < a) ∧ ∀ y ∈ ys, a ≤ y := by
  induction fl with
  | nil => exact ⟨[], [], rfl, by simp, by simp⟩
  | cons b fl ih =>
    obtain ⟨hb, hfl⟩ := pairwise_cons.1 h
    by_cases hlt : b < a
    · obtain ⟨xs, ys, rfl, hxs, hys⟩ := ih hfl
      exact ⟨b :: xs, ys, rfl, forall_mem_cons.2 ⟨hlt, hxs⟩, hys⟩
    · refine ⟨[], b :: fl, rfl, by simp, forall_mem_cons.2 ⟨not_lt.1 hlt, ?_⟩⟩
      exact fun y hy => (not_lt.1 hlt).trans (hb y hy).le

/-- `free` puts the chunks of the block into the free list, at their place in the order. -/
lemma FreeList.free (h : FreeList k fl) (hsize : max size chunkSize = chunkSize * (m + 1))
    (hchunks : ∀ c ∈ chunkAddrs a (m + 1), IsChunk c)
    (hfresh : ∀ c ∈ chunkAddrs a (m + 1), c ∉ fl) :
    ∃ xs ys, fl = xs ++ ys ∧ FreeList (k.free a size) (xs ++ chunkAddrs a (m + 1) ++ ys) := by
  have hpos : 0 < chunkSize := by decide
  have ha : IsChunk a := hchunks a (by rw [chunkAddrs_succ]; exact mem_cons_self)
  obtain ⟨xs, ys, hsplit, hxs, hys⟩ := exists_split h.sorted a
  refine ⟨xs, ys, hsplit, ?_⟩
  -- What the two loops do.
  have hdiv : chunkSize * (m + 1) / chunkSize = m + 1 := Nat.mul_div_cancel_left _ hpos
  have hlast : a + chunkSize * (m + 1) - chunkSize = a + chunkSize * m := by
    rw [Nat.mul_add]
    omega
  obtain ⟨hend, hframe, hlinked⟩ := linkLoop_spec k.cells a m (m + 1) (by omega)
  set linked := linkLoop (a + chunkSize * m) (m + 1) k.cells a with hlinkeddef
  have hout : ∀ c ∈ fl, linked.1 (some c) = k.cells (some c) := by
    intro c hc
    refine hframe _ fun i hi e => ?_
    refine hfresh c (mem_chunkAddrs.2 ⟨i, by omega, (Option.some.inj e).symm⟩) hc
  have hreads : Reads linked.1 none (xs ++ ys) none := by
    rw [← hsplit]
    exact h.reads.congr (hframe none fun i _ => by simp) hout
  have hplace : findPlace linked.1 a (k.freeChunks + 1) none (linked.1 none) =
      (lastCell some none xs, ys.head?) := by
    refine findPlace_spec hreads hxs hys ?_
    rw [h.count, hsplit, length_append]
    omega
  have hfree : k.free a size =
      { cells := update (update linked.1 (lastCell some none xs) (some a))
          (some (a + chunkSize * m)) ys.head?
        freeChunks := k.freeChunks + (m + 1) } := by
    simp only [Kmem.free, hsize, hlast, hdiv, ← hlinkeddef, hplace, hend]
  -- The chunks of the block fit between the two parts of the list.
  have habove : ∀ y ∈ ys, a + chunkSize * (m + 1) ≤ y := by
    intro y hy
    have hyfl : y ∈ fl := hsplit ▸ mem_append_right xs hy
    by_contra hlt
    exact hfresh y (mem_chunkAddrs_of_le ha.1 (h.chunk y hyfl).1 (hys y hy) (not_le.1 hlt)) hyfl
  have hsorted : (xs ++ (chunkAddrs a (m + 1) ++ ys)).Pairwise (· < ·) := by
    obtain ⟨hxsorted, hysorted, hxy⟩ := pairwise_append.1 (hsplit ▸ h.sorted)
    refine pairwise_append.2 ⟨hxsorted,
      pairwise_append.2 ⟨pairwise_chunkAddrs a (m + 1), hysorted, ?_⟩, ?_⟩
    · intro c hc y hy
      have hle := (le_of_mem_chunkAddrs hc).2
      have := habove y hy
      omega
    · intro x hx c hc
      rcases mem_append.1 hc with hc | hc
      · exact (hxs x hx).trans_le (le_of_mem_chunkAddrs hc).1
      · exact hxy x hx c hc
  have hcell : lastCell some (some a) (chunkAddrs (a + chunkSize) m) =
      some (a + chunkSize * m) := lastCell_chunkAddrs a m
  have hspliced := hreads.splice hlinked (some_injective ℕ)
    (by rw [← chunkAddrs_succ]; exact hsorted.imp Nat.ne_of_lt) (by simp)
  rw [hcell, ← chunkAddrs_succ] at hspliced
  rw [hfree, append_assoc]
  refine ⟨hspliced, hsorted, ?_, ?_⟩
  · simp only [h.count, hsplit, length_append, length_chunkAddrs]
    omega
  · obtain ⟨hxchunk, hychunk⟩ := forall_mem_append.1 (hsplit ▸ h.chunk)
    exact forall_mem_append.2 ⟨hxchunk, forall_mem_append.2 ⟨hchunks, hychunk⟩⟩

/-- The outer loop of `alloc` finds an aligned run of free chunks with another free chunk
behind it. -/
lemma search_spec {prev : Option ℕ} {curr tmp : ℕ} (h : Reads cells c fl none)
    (hsorted : fl.Pairwise (· < ·)) (hchunk : ∀ c ∈ fl, IsChunk c)
    (hfound : search cells aligned (m + 1) n c (cells c) = some (prev, curr, tmp)) :
    ∃ xs ys, fl = xs ++ (chunkAddrs curr (m + 1) ++ tmp :: ys) ∧ prev = lastCell some c xs ∧
      aligned curr = true := by
  induction n generalizing c fl with
  | zero => exact absurd hfound (by simp [search])
  | succ n ih =>
    rcases fl with _ | ⟨x, fl⟩
    · rw [show cells c = none from h, search] at hfound
      cases hfound
    obtain ⟨hx, hfl⟩ := pairwise_cons.1 hsorted
    have hchunk' : ∀ c ∈ fl, IsChunk c := fun c hc => hchunk c (mem_cons_of_mem x hc)
    have hgo : search cells aligned (m + 1) n (some x) (cells (some x)) =
        some (prev, curr, tmp) → ∃ xs ys, x :: fl =
          xs ++ (chunkAddrs curr (m + 1) ++ tmp :: ys) ∧ prev = lastCell some c xs ∧
          aligned curr = true := by
      intro hnext
      obtain ⟨xs, ys, hsplit, hprev, halign⟩ := ih h.2 hfl hchunk' hnext
      exact ⟨x :: xs, ys, by rw [hsplit]; rfl, hprev, halign⟩
    rw [h.1, search] at hfound
    by_cases halign : aligned x = true
    · rw [if_pos halign] at hfound
      rcases hend : runEnd cells x (m + 1 - 1) 1 (cells (some x)) with _ | t
      · rw [hend] at hfound
        exact hgo hfound
      rw [hend] at hfound
      obtain ⟨rfl, rfl, rfl⟩ : c = prev ∧ x = curr ∧ t = tmp := by simpa using hfound
      have hbound := (hchunk x mem_cons_self).2.1
      obtain ⟨ys, hys⟩ := runEnd_spec (i := 0) (by simpa using h.2) (by simpa using hsorted)
        (by simpa using hbound) (fun c hc => (hchunk' c hc).2.1) (by simpa using hend)
      refine ⟨[], ys, ?_, rfl, halign⟩
      rw [hys, chunkAddrs_succ]
      simp
    · rw [if_neg halign] at hfound
      exact hgo hfound

/-- The outer loop of an allocation stops by itself at the end of the list. -/
lemma search_eq_of_length_lt {chunks n' : ℕ} (h : Reads cells c fl none) (hn : fl.length < n)
    (hn' : fl.length < n') :
    search cells aligned chunks n c (cells c) = search cells aligned chunks n' c (cells c) := by
  obtain ⟨n, rfl⟩ : ∃ i, n = i + 1 := ⟨n - 1, by omega⟩
  obtain ⟨n', rfl⟩ : ∃ i, n' = i + 1 := ⟨n' - 1, by omega⟩
  induction fl generalizing c n n' with
  | nil =>
    rw [show cells c = none from h]
    rfl
  | cons x fl ih =>
    rw [length_cons] at hn hn'
    obtain ⟨n, rfl⟩ : ∃ i, n = i + 1 := ⟨n - 1, by omega⟩
    obtain ⟨n', rfl⟩ : ∃ i, n' = i + 1 := ⟨n' - 1, by omega⟩
    rw [h.1, search, search, ih h.2 n (by omega) n' (by omega)]

/-- The bound of the two loops over the free list is never reached: with any larger one they find
the same. -/
theorem FreeList.loops_stop (h : FreeList k fl) (aligned : ℕ → Bool) (chunks address n : ℕ)
    (hn : k.freeChunks < n) : search k.cells aligned chunks n none (k.cells none) =
        search k.cells aligned chunks (k.freeChunks + 1) none (k.cells none) ∧
      findPlace k.cells address n none (k.cells none) =
        findPlace k.cells address (k.freeChunks + 1) none (k.cells none) := by
  have hlength : fl.length < k.freeChunks + 1 := by rw [h.count]; omega
  refine ⟨search_eq_of_length_lt h.reads (by omega) hlength, ?_⟩
  obtain ⟨xs, ys, rfl, hxs, hys⟩ := exists_split h.sorted address
  rw [length_append] at hlength
  rw [findPlace_spec h.reads hxs hys (by omega), findPlace_spec h.reads hxs hys (by omega)]

lemma zero_of_notMem (hc : ∀ b, c = some b → b < a ∨ a + size ≤ b) :
    zero cells a size c = cells c := by
  rcases c with _ | b
  · rfl
  · have := hc b rfl
    simp only [zero]
    rw [if_neg (by omega)]

lemma FreeList.allocWith (h : FreeList k fl)
    (halloc : k.allocWith aligned (chunkSize * (m + 1)) zeroed = some (k', a)) :
    ∃ xs ys, fl = xs ++ (chunkAddrs a (m + 1) ++ ys) ∧ FreeList k' (xs ++ ys) ∧
      aligned a = true := by
  have hpos : 0 < chunkSize := by decide
  have hdiv : chunkSize * (m + 1) / chunkSize = m + 1 := Nat.mul_div_cancel_left _ hpos
  rw [Kmem.allocWith, hdiv] at halloc
  cases hfound : search k.cells aligned (m + 1) (k.freeChunks + 1) none (k.cells none) with
  | none => simp [hfound] at halloc
  | some found =>
    obtain ⟨prev, curr, tmp⟩ := found
    rw [hfound] at halloc
    obtain ⟨hk, rfl⟩ : _ ∧ curr = a := by simpa using halloc
    obtain ⟨xs, ys, hsplit, rfl, halign⟩ := search_spec h.reads h.sorted h.chunk hfound
    refine ⟨xs, tmp :: ys, hsplit, ?_, halign⟩
    have hsorted := h.sorted
    rw [hsplit] at hsorted
    obtain ⟨hxsorted, hrest, hxr⟩ := pairwise_append.1 hsorted
    obtain ⟨-, hysorted, hby⟩ := pairwise_append.1 hrest
    have hcut : Reads (update k.cells (lastCell some none xs) (some tmp)) none
        (xs ++ tmp :: ys) none :=
      Seg.cut (hsplit ▸ h.reads) (some_injective ℕ) (by simp)
    -- The block that may be cleared lies between the two parts that remain.
    have houtside : ∀ c ∈ xs ++ tmp :: ys, c < curr ∨ curr + chunkSize * (m + 1) ≤ c := by
      intro c hc
      rcases mem_append.1 hc with hc | hc
      · exact .inl (hxr c hc curr (by rw [chunkAddrs_succ]; exact mem_cons_self))
      right
      have hlt := hby (curr + chunkSize * m) (mem_chunkAddrs.2 ⟨m, by omega, rfl⟩) c hc
      have hc' := (h.chunk c (by rw [hsplit]; simp only [mem_append]; tauto)).1
      have ha' := (h.chunk curr (by rw [hsplit, chunkAddrs_succ]; simp)).1
      unfold chunkSize at *
      omega
    have hreads : Reads k'.cells none (xs ++ tmp :: ys) none := by
      rw [← hk]
      split_ifs
      · exact hcut.congr rfl fun c hc => zero_of_notMem fun b hb => by
          rw [← Option.some.inj hb]
          exact houtside c hc
      · exact hcut
    refine ⟨hreads, ?_, ?_, ?_⟩
    · refine pairwise_append.2 ⟨hxsorted, hysorted, fun x hx y hy => ?_⟩
      exact hxr x hx y (mem_append_right _ hy)
    · rw [← hk]
      rw [h.count, hsplit]
      simp only [length_append, length_cons, length_chunkAddrs]
      omega
    · intro c hc
      refine h.chunk c ?_
      rw [hsplit]
      simp only [mem_append] at hc ⊢
      tauto

/-! ## Sizes -/

/-- A request is rounded up to whole chunks, unless that takes it beyond the largest word. -/
lemma roundUp_cases (size : Word) :
    roundUp size = 0 ∨ ∃ m, roundUp size = chunkSize * (m + 1) ∧ (size : ℕ) ≤ roundUp size := by
  have hsize : (size : ℕ) < wordSpace := size.isLt
  unfold roundUp pred
  unfold wordSpace chunkSize at *
  rcases Nat.eq_zero_or_pos (size : ℕ) with hzero | hpos
  · left
    rw [hzero]
    decide
  · by_cases hlt : ((size : ℕ) - 1) / 1024 * 1024 + 1024 < 2 ^ 32
    · right
      exact ⟨((size : ℕ) - 1) / 1024, by omega, by omega⟩
    · left
      omega

/-- No chunk passes the alignment test of a request that was rounded up to zero. -/
lemma land_pred_zero_ne {c : ℕ} (hc : IsChunk c) : c &&& pred 0 ≠ 0 := by
  have hlt : c < 2 ^ 32 := by
    have := hc.2.1
    unfold chunkSize wordSpace at this
    omega
  have hpred : pred 0 = 2 ^ 32 - 1 := by decide
  rw [hpred, Nat.and_two_pow_sub_one_eq_mod, Nat.mod_eq_of_lt hlt]
  exact hc.2.2

lemma search_eq_none (h : Reads cells c fl none) (hnone : ∀ a ∈ fl, aligned a = false) :
    search cells aligned m n c (cells c) = none := by
  induction n generalizing c fl with
  | zero => rfl
  | succ n ih =>
    rcases fl with _ | ⟨x, fl⟩
    · rw [show cells c = none from h]
      rfl
    · rw [h.1, search, if_neg (by simp [hnone x mem_cons_self])]
      exact ih h.2 fun a ha => hnone a (mem_cons_of_mem x ha)

/-- A block that `alloc` returns: at least as large as asked for, and aligned. -/
lemma FreeList.alloc (h : FreeList k fl) {size : Word}
    (halloc : k.alloc size zeroed = some (k', a)) :
    ∃ m xs ys, roundUp size = chunkSize * (m + 1) ∧ (size : ℕ) ≤ roundUp size ∧
      a &&& pred (roundUp size) = 0 ∧
      fl = xs ++ (chunkAddrs a (m + 1) ++ ys) ∧ FreeList k' (xs ++ ys) := by
  rw [Kmem.alloc] at halloc
  rcases roundUp_cases size with hzero | ⟨m, hm, hle⟩
  · have hnone : ∀ c ∈ fl, decide (c &&& pred (roundUp size) = 0) = false := by
      intro c hc
      rw [hzero]
      simpa using land_pred_zero_ne (h.chunk c hc)
    rw [Kmem.allocWith, search_eq_none h.reads hnone] at halloc
    cases halloc
  · rw [hm] at halloc
    obtain ⟨xs, ys, hsplit, hfl, halign⟩ := h.allocWith halloc
    rw [← hm] at halign
    exact ⟨m, xs, ys, hm, hle, by simpa using halign, hsplit, hfl⟩

/-- A size that `free` and `alloc_aligned` accept is a positive number of chunks. -/
lemma exists_chunks (hsize : max size chunkSize % chunkSize = 0) :
    ∃ m, max size chunkSize = chunkSize * (m + 1) := by
  refine ⟨max size chunkSize / chunkSize - 1, ?_⟩
  unfold chunkSize at *
  omega

lemma FreeList.allocAligned (h : FreeList k fl) {alignment mask : ℕ}
    (hsize : max size chunkSize % chunkSize = 0)
    (halloc : k.allocAligned size alignment mask zeroed = some (k', a)) :
    ∃ m xs ys, max size chunkSize = chunkSize * (m + 1) ∧
      a &&& mask = alignment &&& mask ∧ a &&& pred (max size chunkSize) = 0 ∧
      fl = xs ++ (chunkAddrs a (m + 1) ++ ys) ∧ FreeList k' (xs ++ ys) := by
  obtain ⟨m, hm⟩ := exists_chunks hsize
  rw [Kmem.allocAligned, hm] at halloc
  rw [hm]
  obtain ⟨xs, ys, hsplit, hfl, halign⟩ := h.allocWith halloc
  have halign' := of_decide_eq_true halign
  exact ⟨m, xs, ys, rfl, halign'.1, halign'.2, hsplit, hfl⟩

lemma FreeList.free_restores {xs ys : List ℕ} (h : FreeList k fl)
    (hsplit : fl = xs ++ (chunkAddrs a (m + 1) ++ ys)) (h' : FreeList k' (xs ++ ys))
    (hsize : max size chunkSize = chunkSize * (m + 1)) : FreeList (k'.free a size) fl := by
  have hnodup : fl.Nodup := h.sorted.imp Nat.ne_of_lt
  have hchunks : ∀ c ∈ chunkAddrs a (m + 1), IsChunk c := by
    intro c hc
    exact h.chunk c (by rw [hsplit]; simp only [mem_append]; tauto)
  have hfresh : ∀ c ∈ chunkAddrs a (m + 1), c ∉ xs ++ ys := by
    rw [hsplit, (perm_append_comm_assoc ..).nodup_iff, nodup_append'] at hnodup
    exact fun c hc hmem => hnodup.2.2 hc hmem
  obtain ⟨us, vs, huv, hfl⟩ := h'.free hsize hchunks hfresh
  -- Both lists are ascending and have the same members.
  have hperm : (us ++ chunkAddrs a (m + 1) ++ vs).Perm fl := by
    rw [hsplit, append_assoc]
    refine (perm_append_comm_assoc ..).trans ?_
    rw [← huv]
    exact perm_append_comm_assoc ..
  have heq : us ++ chunkAddrs a (m + 1) ++ vs = fl :=
    hperm.eq_of_pairwise (fun b c _ _ hbc hcb => absurd hbc (lt_asymm hcb)) hfl.sorted h.sorted
  exact heq ▸ hfl

end Kmem

/-! ## The allocator and its clients -/

/-- The operations that hand memory over to the allocator. -/
def KmemOp.grows : KmemOp → Bool
  | .init _ _ => true
  | .add _ _ => true
  | _ => false

namespace Heap

open Kmem

/-- The free chunks and the chunks of the blocks in use are, each once, the chunks that the
allocator was given. -/
structure Ok (h : Heap) (fl : List ℕ) : Prop where
  freeList : FreeList h.kmem fl
  perm : (fl ++ h.live.flatMap Block.addrs).Perm h.managed
  nodup : h.managed.Nodup
  chunk : ∀ c ∈ h.managed, IsChunk c
  pos : ∀ b ∈ h.live, 0 < b.chunks

namespace Ok

variable {h : Heap} {fl : List ℕ} {b : Block} {size : ℕ}

section

variable (hok : h.Ok fl)
include hok

lemma mem_managed : c ∈ h.managed ↔ c ∈ fl ∨ ∃ b ∈ h.live, c ∈ b.addrs := by
  rw [← hok.perm.mem_iff, mem_append, mem_flatMap]

lemma nodup_append : (fl ++ h.live.flatMap Block.addrs).Nodup :=
  hok.perm.nodup_iff.2 hok.nodup

lemma notMem_addrs (hc : c ∈ fl) (hb : b ∈ h.live) : c ∉ b.addrs := by
  intro hmem
  exact (List.nodup_append.1 hok.nodup_append).2.2 c hc c (mem_flatMap.2 ⟨b, hb, hmem⟩) rfl

lemma isChunk_addrs (hb : b ∈ h.live) (hc : c ∈ b.addrs) : IsChunk c :=
  hok.chunk c (hok.mem_managed.2 (.inr ⟨b, hb, hc⟩))

lemma isChunk_addr (hb : b ∈ h.live) : IsChunk b.addr := by
  refine hok.isChunk_addrs hb (mem_chunkAddrs.2 ⟨0, hok.pos b hb, by simp⟩)

lemma disjoint_free (hc : c ∈ fl) (hb : b ∈ h.live) :
    c + chunkSize ≤ b.addr ∨ b.addr + chunkSize * b.chunks ≤ c := by
  by_contra hover
  push Not at hover
  have hcc := hok.freeList.chunk c hc
  have hba := hok.isChunk_addr hb
  exact hok.notMem_addrs hc hb (mem_chunkAddrs_of_le hba.1 hcc.1
    (Nat.le_of_lt_add_of_dvd hover.1 hba.1 hcc.1) hover.2)

lemma pairwise_disjoint : h.live.Pairwise fun b b' => ∀ c ∈ b.addrs, c ∉ b'.addrs := by
  have hflat := (List.nodup_append.1 hok.nodup_append).2.1
  rw [nodup_flatMap] at hflat
  refine hflat.2.imp fun hdisj c hc hc' => ?_
  exact hdisj hc hc'

lemma pairwise_live : h.live.Pairwise fun b b' => b.addr + chunkSize * b.chunks ≤ b'.addr ∨
      b'.addr + chunkSize * b'.chunks ≤ b.addr := by
  refine List.Pairwise.imp_of_mem ?_ hok.pairwise_disjoint
  intro b b' hb hb' hdisj
  by_contra hover
  push Not at hover
  have hba := hok.isChunk_addr hb
  have hba' := hok.isChunk_addr hb'
  rcases le_total b.addr b'.addr with hle | hle
  · -- The first chunk of the upper block is one of the lower block.
    refine hdisj b'.addr (mem_chunkAddrs_of_le hba.1 hba'.1 hle hover.1) ?_
    exact mem_chunkAddrs.2 ⟨0, hok.pos b' hb', by simp⟩
  · refine hdisj b.addr (mem_chunkAddrs.2 ⟨0, hok.pos b hb, by simp⟩) ?_
    exact mem_chunkAddrs_of_le hba'.1 hba.1 hle hover.2

lemma total_eq : h.kmem.freeChunks + (h.live.map Block.chunks).sum = h.managed.length := by
  rw [← hok.perm.length_eq, length_append, hok.freeList.count, length_flatMap]
  congr 2
  exact map_congr_left fun b _ => (length_chunkAddrs b.addr b.chunks).symm

lemma allocated {k' : Kmem} {xs ys : List ℕ} {m : ℕ}
    (hsplit : fl = xs ++ (chunkAddrs a (m + 1) ++ ys)) (hfl : FreeList k' (xs ++ ys)) :
    Ok { h with kmem := k', live := ⟨a, m + 1⟩ :: h.live } (xs ++ ys) := by
  refine ⟨hfl, ?_, hok.nodup, hok.chunk, ?_⟩
  · refine List.Perm.trans ?_ hok.perm
    rw [hsplit, flatMap_cons, ← append_assoc, append_assoc xs]
    exact (perm_append_comm.append_left xs).append_right _
  · exact forall_mem_cons.2 ⟨Nat.succ_pos m, hok.pos⟩

lemma freed (hb : b ∈ h.live) (hsize : max size chunkSize = chunkSize * b.chunks) :
    ∃ fl', Ok { h with kmem := h.kmem.free b.addr size, live := h.live.erase b } fl' := by
  obtain ⟨m, hm⟩ : ∃ m, b.chunks = m + 1 := ⟨b.chunks - 1, by have := hok.pos b hb; omega⟩
  have haddrs : b.addrs = chunkAddrs b.addr (m + 1) := by rw [Block.addrs, hm]
  obtain ⟨xs, ys, hsplit, hfl⟩ := hok.freeList.free (hm ▸ hsize)
    (fun c hc => hok.isChunk_addrs hb (haddrs ▸ hc))
    (fun c hc hmem => hok.notMem_addrs hmem hb (haddrs ▸ hc))
  refine ⟨_, hfl, ?_, hok.nodup, hok.chunk, fun b' hb' => hok.pos b' (mem_of_mem_erase hb')⟩
  refine List.Perm.trans ?_ hok.perm
  have hlive : (h.live.flatMap Block.addrs).Perm
      (b.addrs ++ (h.live.erase b).flatMap Block.addrs) := by
    exact (perm_cons_erase hb).flatMap_right _
  refine List.Perm.trans ?_ (hlive.symm.append_left fl)
  rw [hsplit, haddrs, append_assoc, append_assoc, append_assoc]
  exact (perm_append_comm_assoc ..).append_left xs

end

/-- A region that may be handed over consists of whole chunks of which the free list knows none. -/
lemma region {managed : List ℕ} (h : regionOk managed a size = true) :
    ∃ m, freeSize size = chunkSize * (m + 1) ∧ (∀ c ∈ chunkAddrs a (m + 1), IsChunk c) ∧
      ∀ c ∈ chunkAddrs a (m + 1), c ∉ managed := by
  have hpos : 0 < chunkSize := by decide
  obtain ⟨ha, hnull, hsize, htop, hfresh⟩ := of_decide_eq_true h
  obtain ⟨m, hm⟩ : ∃ m, freeSize size = chunkSize * (m + 1) := exists_chunks hsize
  rw [hm, Nat.mul_div_cancel_left _ hpos] at hfresh
  refine ⟨m, hm, fun c hc => ?_, hfresh⟩
  obtain ⟨i, hi, rfl⟩ := mem_chunkAddrs.1 hc
  unfold IsChunk chunkSize at *
  omega

lemma grown (hok : h.Ok fl) (hregion : regionOk h.managed a size = true) :
    ∃ fl', Ok { h with kmem := h.kmem.free a size
                       managed := h.managed ++ chunkAddrs a (freeSize size / chunkSize) } fl' := by
  obtain ⟨m, hm, hchunks, hfresh⟩ := region hregion
  rw [hm, Nat.mul_div_cancel_left _ (by decide : 0 < chunkSize)]
  obtain ⟨xs, ys, hsplit, hfl⟩ := hok.freeList.free hm hchunks
    fun c hc hmem => hfresh c hc (hok.mem_managed.2 (.inl hmem))
  refine ⟨_, hfl, ?_, ?_, ?_, hok.pos⟩
  · refine List.Perm.trans ?_ (hok.perm.append_right _)
    rw [hsplit]
    simp only [append_assoc]
    refine List.Perm.append_left xs ?_
    rw [← append_assoc ys]
    exact perm_append_comm
  · refine List.nodup_append.2 ⟨hok.nodup, (pairwise_chunkAddrs a (m + 1)).imp Nat.ne_of_lt, ?_⟩
    rintro c hc d hd rfl
    exact hfresh c hd hc
  · exact forall_mem_append.2 ⟨hok.chunk, hchunks⟩

lemma forget {cells : Cells} (hnone : cells none = none) : Ok ⟨⟨cells, 0⟩, [], []⟩ [] :=
  ⟨⟨hnone, List.Pairwise.nil, rfl, by simp⟩, List.Perm.nil, nodup_nil, by simp, by simp⟩

lemma store (hok : h.Ok fl) (hb : b ∈ h.live) (hle : b.addr ≤ a)
    (hlt : a < b.addr + chunkSize * b.chunks) (value : Option ℕ) : Ok { h with kmem := { h.kmem with
      cells := update h.kmem.cells (some a) value } } fl := by
  refine { hok with freeList := { hok.freeList with reads := ?_ } }
  have hhead : (none : Option ℕ) ≠ some a := by simp
  refine hok.freeList.reads.congr (update_of_ne hhead value h.kmem.cells) fun c hc => ?_
  refine update_of_ne ?_ _ _
  rintro ⟨rfl⟩
  rcases hok.disjoint_free hc hb with hdisj | hdisj
  · have : 0 < chunkSize := by decide
    omega
  · omega

/-- Every operation keeps the free chunks and the chunks in use apart, and only those that hand memory
over change what is managed. -/
lemma step (hok : h.Ok fl) {op : KmemOp} {h' : Heap} (hstep : h.step op = some h') :
    (∃ fl', h'.Ok fl') ∧ (op.grows = false → h'.managed = h.managed) := by
  cases op with
  | init start stop =>
    obtain ⟨⟨-, hregion⟩, ⟨⟩⟩ := ite_none_right_eq_some.1 hstep
    exact ⟨(forget (update_self _ _ _)).grown hregion, nofun⟩
  | add address size =>
    obtain ⟨hregion, ⟨⟩⟩ := ite_none_right_eq_some.1 hstep
    exact ⟨hok.grown hregion, nofun⟩
  | alloc size zeroed =>
    rcases halloc : h.kmem.alloc size zeroed with _ | r
    · rw [Heap.step, halloc] at hstep
      obtain ⟨⟩ := hstep
      exact ⟨⟨fl, hok⟩, fun _ => rfl⟩
    obtain ⟨m, xs, ys, hm, -, -, hsplit, hfl⟩ := hok.freeList.alloc halloc
    rw [Heap.step, halloc, hm, Nat.mul_div_cancel_left _ (by decide : 0 < chunkSize)] at hstep
    obtain ⟨⟩ := hstep
    exact ⟨⟨_, hok.allocated hsplit hfl⟩, fun _ => rfl⟩
  | allocAligned size alignment mask zeroed =>
    obtain ⟨hsize, hstep⟩ := ite_none_right_eq_some.1 hstep
    rcases halloc : h.kmem.allocAligned size alignment mask zeroed with _ | r
    · rw [halloc] at hstep
      obtain ⟨⟩ := hstep
      exact ⟨⟨fl, hok⟩, fun _ => rfl⟩
    obtain ⟨m, xs, ys, hm, -, -, hsplit, hfl⟩ := hok.freeList.allocAligned hsize halloc
    rw [halloc, show freeSize size = _ from hm,
      Nat.mul_div_cancel_left _ (by decide : 0 < chunkSize)] at hstep
    obtain ⟨⟩ := hstep
    exact ⟨⟨_, hok.allocated hsplit hfl⟩, fun _ => rfl⟩
  | free address size =>
    obtain ⟨⟨hsize, hmem⟩, hstep⟩ := ite_none_right_eq_some.1 hstep
    rw [← Option.some.inj hstep]
    exact ⟨hok.freed (b := ⟨address, freeSize size / chunkSize⟩) hmem
      (Nat.mul_div_cancel' (Nat.dvd_of_mod_eq_zero hsize)).symm, fun _ => rfl⟩
  | store a value =>
    obtain ⟨⟨b, hb, hle, hlt⟩, ⟨⟩⟩ := ite_none_right_eq_some.1 hstep
    exact ⟨⟨fl, hok.store hb hle hlt value⟩, fun _ => rfl⟩

end Ok

/-- In every state that a sequence of operations reaches, the free chunks and the blocks in use
make up the memory that was handed over. -/
lemma ok_of_run {ops : List KmemOp} {h : Heap}
    (hrun : run step empty ops = some h) : ∃ fl, h.Ok fl := by
  have hempty : ∃ fl, empty.Ok fl := ⟨[], Ok.forget rfl⟩
  refine run_invariant (P := fun h => ∃ fl, h.Ok fl) ?_ hempty hrun
  rintro h op h' ⟨fl, hok⟩ hstep
  exact (hok.step hstep).1

/-- The chunks that are free or in use, by the counter of the allocator. -/
def total (h : Heap) : ℕ := h.kmem.freeChunks + (h.live.map Block.chunks).sum

/-- A block of `bytes` bytes at `a` serves a request, if it consists of whole chunks, is large
enough and naturally aligned, and if giving it back restores the free list. -/
structure Serves (fl : List ℕ) (k' : Kmem) (a request bytes : ℕ) : Prop where
  whole : chunkSize ∣ bytes
  large : request ≤ bytes
  aligned : a &&& pred bytes = 0
  natural : ∀ i, bytes = 2 ^ i → bytes ∣ a
  restored : FreeList (k'.free a bytes) fl

/-- The alignment test is divisibility, if the size is a power of two. -/
lemma dvd_of_land_pred {a bytes i : ℕ} (hbytes : bytes = 2 ^ i) (hlt : bytes ≤ wordSpace)
    (h : a &&& pred bytes = 0) : bytes ∣ a := by
  have hpos : 0 < bytes := hbytes ▸ Nat.two_pow_pos i
  have hpred : pred bytes = 2 ^ i - 1 := by
    rw [pred, ← hbytes]
    unfold wordSpace at *
    omega
  rw [hpred, Nat.and_two_pow_sub_one_eq_mod] at h
  exact hbytes ▸ Nat.dvd_of_mod_eq_zero h

/-- What an allocation from a run of the free list returns. -/
lemma serves_of_split {k k' : Kmem} {fl xs ys : List ℕ} {a m request : ℕ} (h : FreeList k fl)
    (hsplit : fl = xs ++ (chunkAddrs a (m + 1) ++ ys)) (hfl : FreeList k' (xs ++ ys))
    (hlarge : request ≤ chunkSize * (m + 1)) (haligned : a &&& pred (chunkSize * (m + 1)) = 0) :
    Serves fl k' a request (chunkSize * (m + 1)) := by
  refine ⟨Nat.dvd_mul_right _ _, hlarge, haligned, fun i hi => ?_, ?_⟩
  · refine dvd_of_land_pred hi ?_ haligned
    -- The last chunk of the block is below the end of the address space.
    have hlast : a + chunkSize * m ∈ fl := by
      rw [hsplit]
      refine mem_append_right _ (mem_append_left _ ?_)
      exact mem_chunkAddrs.2 ⟨m, by omega, rfl⟩
    have := (h.chunk _ hlast).2.1
    rw [Nat.mul_succ]
    omega
  · refine h.free_restores hsplit hfl (max_eq_left ?_)
    exact Nat.le_mul_of_pos_right _ (Nat.succ_pos m)

/-- Whatever is allocated, handed over and given back, as long as what is given back was in use:
the free list is the list of the free chunks in order, the free-chunk counter is its length, free
chunks and blocks in use do not overlap, and only `init` and `add` change their number. A block
that is returned is large enough and aligned, and giving it back restores the free list. -/
theorem heap_safe (ops : List KmemOp) (h : Heap) (hrun : run step empty ops = some h) :
    ∃ fl, FreeList h.kmem fl ∧
      (∀ c ∈ fl, ∀ b ∈ h.live, c + chunkSize ≤ b.addr ∨ b.addr + chunkSize * b.chunks ≤ c) ∧
      (h.live.Pairwise fun b b' => b.addr + chunkSize * b.chunks ≤ b'.addr ∨
        b'.addr + chunkSize * b'.chunks ≤ b.addr) ∧
      h.total = h.managed.length ∧
      (∀ op h', h.step op = some h' → op.grows = false → h'.total = h.total) ∧
      (∀ (size : Word) zeroed k' a, h.kmem.alloc size zeroed = some (k', a) →
        Serves fl k' a size (roundUp size)) ∧
      (∀ (size alignment mask : Word) zeroed k' a, freeSize size % chunkSize = 0 →
        h.kmem.allocAligned size alignment mask zeroed = some (k', a) →
        Serves fl k' a size (freeSize size) ∧
          a &&& (mask : ℕ) = (alignment : ℕ) &&& (mask : ℕ)) := by
  obtain ⟨fl, hok⟩ := ok_of_run hrun
  refine ⟨fl, hok.freeList, fun c hc b hb => hok.disjoint_free hc hb, hok.pairwise_live,
    hok.total_eq, ?_, ?_, ?_⟩
  · intro op h' hstep hgrows
    obtain ⟨⟨fl', hok'⟩, hmanaged⟩ := hok.step hstep
    rw [total, total, hok.total_eq, hok'.total_eq, hmanaged hgrows]
  · intro size zeroed k' a halloc
    obtain ⟨m, xs, ys, hm, hlarge, haligned, hsplit, hfl⟩ := hok.freeList.alloc halloc
    rw [hm] at hlarge haligned ⊢
    exact serves_of_split hok.freeList hsplit hfl hlarge haligned
  · intro size alignment mask zeroed k' a hsize halloc
    obtain ⟨m, xs, ys, hm, hmask, haligned, hsplit, hfl⟩ :=
      hok.freeList.allocAligned hsize halloc
    rw [hm] at haligned
    refine ⟨?_, hmask⟩
    rw [freeSize, hm]
    exact serves_of_split hok.freeList hsplit hfl (hm ▸ le_max_left _ _) haligned

/-- Four chunks are handed over, two of them are allocated and cleared, the client writes into
its block, one more chunk is allocated, and the first block is given back. -/
theorem heap_safe_four_chunks : ∃ h, run step empty
        [.init 4096 8192, .alloc 1500 true, .store 5120 (some 7), .alloc 1 false,
          .free 4096 2048] = some h ∧ h.live = [⟨6144, 1⟩] ∧ h.total = 4 ∧
      ∃ fl, FreeList h.kmem fl ∧
        ∀ c ∈ fl, ∀ b ∈ h.live, c + chunkSize ≤ b.addr ∨ b.addr + chunkSize * b.chunks ≤ c := by
  refine exists_run (Q := fun h => h.live = [⟨6144, 1⟩] ∧ h.total = 4)
    (by decide +kernel) fun h hrun hview => ?_
  obtain ⟨fl, hfl, hdisjoint, -⟩ := heap_safe _ h hrun
  exact ⟨hview.1, hview.2, fl, hfl, hdisjoint⟩

end Heap

end Okl4Kernel
