import Okl4Kernel.RemoteMemcpy

/-!
# What a copy between two spaces has copied

The number of bytes that a copy returns is to be the number of bytes that it has copied, these are to
be the bytes of the source, and nothing else is to be changed; each access is to go through the page
table of the space it is meant for.

The count is right for every translation that works by pages (`Course.transferred`). A chunk
does not cross a page of the source, so that a word that cannot be read is the first one of its
chunk; and a word that cannot be written is preceded by words that have been written.

The accesses do not always go where they should. Before an access the space is activated, which
sets its identifier in the hardware. But `user_read_word`, `user_write_word` and the handler of a TLB
miss load a page from the page table of the current thread, which is the caller, and loading it sets
the identifier back. The page table of the other space decides only if the entries of both spaces
happen to be in the TLB.
-/

namespace Okl4Kernel

open Function Option

namespace RemoteMemcpy

variable {q : Request}

/-! ## The spaces -/

/-- What the page table of a space says about the pages of the smallest size. -/
structure PageMap where
  /-- The frame of a page that is mapped. -/
  frame : ℕ → Option ℕ
  /-- The page may be written. -/
  writable : ℕ → Bool

namespace PageMap

variable (pages : PageMap)

/-- The physical address at which a word is read. -/
def load (addr : ℕ) : Option ℕ :=
  (pages.frame (addr / minPageSize)).map fun f => f * minPageSize + addr % minPageSize

/-- The physical address at which a word is written. -/
def store (addr : ℕ) : Option ℕ :=
  if pages.writable (addr / minPageSize) then pages.load addr else none

/-- The physical address of an access through a space. -/
def translate (a : Access) : Option ℕ :=
  match a.side with
  | .source => pages.load a.addr
  | .destination => pages.store a.addr

end PageMap

/-- The space of the caller and the space of the thread it copies from or to. -/
structure Spaces where
  caller : PageMap
  remote : PageMap

/-- The space that a side of the copy is meant for, which is activated for the accesses. -/
def Request.designated (q : Request) (s : Spaces) : Side → PageMap
  | .source => if q.direction = memcpyDirTo then s.remote else s.caller
  | .destination => if q.direction = memcpyDirTo then s.caller else s.remote

/-- The physical address that an access is meant for. -/
def Request.intended (q : Request) (s : Spaces) (a : Access) : Option ℕ :=
  (q.designated s a.side).translate a

/-- `user_read_word` and `user_write_word` of the caller while the space `active` is activated. If
the entries of both spaces are held in the TLB, and the identifier in the hardware is still that of
the active space, the access goes through the active space. In all other cases the entry of the
caller is loaded, by `refill_tlb` or by the handler of the TLB miss or of the protection fault. -/
def userAccess (caller active : PageMap) (held : Bool) (a : Access) : Option ℕ :=
  if held ∧ (caller.load a.addr).isSome ∧ (active.translate a).isSome then active.translate a
  else caller.translate a

/-- The physical address of an access of the copy, where `held` tells for which accesses the TLB holds
the entries. -/
def Request.actual (q : Request) (s : Spaces) (held : Access → Bool) (a : Access) : Option ℕ :=
  userAccess s.caller (q.designated s a.side) (held a) a

variable {s : Spaces}

section Transfer

variable {α : Type*} (xlate : Access → Option ℕ) (orig : Progress)

/-- The first words of the destination are different words of the memory, and none of them belongs to
the source. -/
structure Separate (n : ℕ) : Prop where
  destination : ∀ i < n, ∀ j < n, ∀ p, xlate (orig.access .destination i) = some p →
    xlate (orig.access .destination j) = some p → i = j
  source : ∀ i < n, ∀ j < n, ∀ p, xlate (orig.access .destination i) = some p →
    xlate (orig.access .source j) ≠ some p

/-- The first `n` words have been copied, and nothing else has been changed. -/
structure Copied (mem : ℕ → α) (n : ℕ) (mem' : ℕ → α) : Prop where
  /-- The words can be read and written. -/
  mapped : Reached xlate orig n
  /-- The destination has the words of the source, if the two do not overlap. -/
  equal : Separate xlate orig n → ∀ k < n, ∀ p p', xlate (orig.access .source k) = some p →
    xlate (orig.access .destination k) = some p' → mem' p' = mem p
  /-- The other words of the memory are as they were. -/
  unchanged : ∀ p, (∀ k < n, xlate (orig.access .destination k) ≠ some p) → mem' p = mem p

/-- The words up to the `n`-th one have been copied, or those before a word that cannot be
written. -/
def Written (mem : ℕ → α) (n : ℕ) (mem' : ℕ → α) : Option ℕ → Prop
  | none => Copied xlate orig mem n mem'
  | some fault => ∃ j < n, fault = wordAddr orig.dest j ∧
      xlate (orig.access .destination j) = none ∧ Copied xlate orig mem j mem'

/-- A copy ends with `n` words. -/
structure Transferred (mem : ℕ → α) (r : Outcome α) (n : ℕ) : Prop where
  le_words : n ≤ orig.words
  /-- The number of bytes is returned. -/
  size : r.size = 4 * n
  /-- The copy succeeds if these are all that the caller has asked for. -/
  result : r.result = true ↔ 4 * n = orig.size
  copied : Copied xlate orig mem n r.mem
  /-- The copy ends early only at a word that cannot be read or written. -/
  stopped : n < orig.words → ∃ side, xlate (orig.access side n) = none

end Transfer

section Transfer

variable {α : Type*} {xlate : Access → Option ℕ} {orig : Progress} {mem mem' : ℕ → α} {k : ℕ}
variable {a : Access} {log : List Access}

lemma Separate.mono {m n : ℕ} (h : Separate xlate orig n) (hmn : m ≤ n) : Separate xlate orig m where
  destination i hi j hj := h.destination i (hi.trans_le hmn) j (hj.trans_le hmn)
  source i hi j hj := h.source i (hi.trans_le hmn) j (hj.trans_le hmn)

namespace Copied

lemma zero (mem : ℕ → α) : Copied xlate orig mem 0 mem where
  mapped k hk := absurd hk (Nat.not_lt_zero k)
  equal _ k hk := absurd hk (Nat.not_lt_zero k)
  unchanged _ _ := rfl

section

variable (h : Copied xlate orig mem k mem')
include h

lemma write {p p' : ℕ} {w : α} (hp : xlate (orig.access .source k) = some p)
    (hp' : xlate (orig.access .destination k) = some p')
    (hw : Separate xlate orig (k + 1) → w = mem p) :
    Copied xlate orig mem (k + 1) (update mem' p' w) where
  mapped j hj side := by
    rcases Nat.lt_succ_iff_lt_or_eq.1 hj with hj | rfl
    · exact h.mapped j hj side
    · cases side
      · exact hp ▸ some_ne_none p
      · exact hp' ▸ some_ne_none p'
  equal hsep j hj q q' hq hq' := by
    rcases Nat.lt_succ_iff_lt_or_eq.1 hj with hlt | rfl
    · have hne : q' ≠ p' := by
        rintro rfl
        exact hlt.ne (hsep.destination j hj k (Nat.lt_succ_self k) q' hq' hp')
      rw [update_of_ne hne]
      exact h.equal (hsep.mono (Nat.le_succ k)) j hlt q q' hq hq'
    · obtain rfl := some.inj (hp.symm.trans hq)
      obtain rfl := some.inj (hp'.symm.trans hq')
      rw [update_self]
      exact hw hsep
  unchanged q hq := by
    have hne : q ≠ p' := by
      rintro rfl
      exact hq k (Nat.lt_succ_self k) hp'
    rw [update_of_ne hne]
    exact h.unchanged q fun j hj => hq j (hj.trans (Nat.lt_succ_self k))

/-- Writing a chunk, up to the word that cannot be written if there is one. -/
lemma memcpyFrombounce (ws : List α)
    (hws : ∀ i w, ws[i]? = some w → ∃ p, xlate (orig.access .source (k + i)) = some p ∧
      (Separate xlate orig (k + i + 1) → w = mem p)) {mem'' : ℕ → α} {result : Option ℕ}
    (hwrite : RemoteMemcpy.memcpyFrombounce xlate ws (wordAddr orig.dest k) mem' =
      (log, mem'', result)) : Written xlate orig mem (k + ws.length) mem'' result := by
  induction ws generalizing k mem' log with
  | nil =>
    cases hwrite
    exact h
  | cons w ws ih =>
    have hlength : k + (w :: ws).length = k + 1 + ws.length := by
      rw [List.length_cons]
      omega
    rw [hlength]
    rcases hx : xlate ⟨.destination, wordAddr orig.dest k⟩ with _ | p'
    · rw [memcpyFrombounce_of_none hx] at hwrite
      cases hwrite
      exact ⟨k, by omega, rfl, hx, h⟩
    · rw [memcpyFrombounce_of_some hx, wordAddr_succ] at hwrite
      obtain ⟨p, hp, hw⟩ := hws 0 w rfl
      refine ih (h.write hp hx hw) (fun i w' hi => ?_) (Prod.ext rfl (Prod.mk.inj hwrite).2)
      have hi' := hws (i + 1) w' hi
      rwa [show k + (i + 1) = k + 1 + i by omega] at hi'

/-- A chunk is read and written, up to the word that cannot be written if there is one. -/
lemma chunk {n : ℕ} {log log' : List Access} {buf : List α} {mem'' : ℕ → α} {result : Option ℕ}
    (hread : memcpyTobounce xlate mem' n (wordAddr orig.src k) = (log, .ok buf))
    (hwrite : RemoteMemcpy.memcpyFrombounce xlate buf (wordAddr orig.dest k) mem' =
      (log', mem'', result)) : Written xlate orig mem (k + n) mem'' result := by
  rw [← Course.length_buf hread]
  refine h.memcpyFrombounce buf (fun i w hw => ?_) hwrite
  obtain ⟨p, hp, rfl⟩ := (memcpyTobounce_spec n k hread).2.2 i w hw
  -- A word of the source that has not been copied yet is as it was.
  refine ⟨p, hp, fun hsep => h.unchanged p fun j hj hx => ?_⟩
  exact hsep.source j (by omega) (k + i) (Nat.lt_succ_self _) p hx hp

end

end Copied

/-- The number of bytes that is calculated from the address of an access. -/
lemma size_memoryCopyRecover (h : orig.Aligned) (side : Side) (hk : k < orig.words)
    (log : List Access) (mem : ℕ → α) :
    (memoryCopyRecover log mem (wordAddr (orig.start side) k) (orig.start side)).size = 4 * k := by
  have hsize := h.size_lt
  have hstart : orig.start side < wordSpace := by
    cases side
    · exact h.src_lt
    · exact h.dest_lt
  unfold Progress.words at hk
  unfold memoryCopyRecover wordAddr
  unfold wordSpace at *
  dsimp only
  omega

/-- A copy that fails at a word has transferred the words before. -/
lemma transferred_recover (h : orig.Aligned) {side : Side} (hk : k < orig.words)
    (hcopied : Copied xlate orig mem k mem') (hnone : xlate (orig.access side k) = none) :
    Transferred xlate orig mem
      (memoryCopyRecover log mem' (wordAddr (orig.start side) k) (orig.start side)) k where
  le_words := hk.le
  size := size_memoryCopyRecover h side hk log mem'
  result := by
    unfold Progress.words at hk
    exact iff_of_false Bool.false_ne_true (by omega)
  copied := hcopied
  stopped _ := ⟨side, hnone⟩

/-- Once there is nothing left, all the words have been transferred. -/
lemma transferred_finish (h : orig.Aligned) (hcopied : Copied xlate orig mem orig.words mem') :
    Transferred xlate orig mem (memoryCopyFinish orig (orig.after orig.words) mem') orig.words := by
  have hsize := h.size
  have hremote := h.remoteSize
  have hleft : (orig.after orig.words).size = orig.size - 4 * orig.words := rfl
  have hwords : 4 * orig.words ≤ orig.size := by
    unfold Progress.words
    omega
  unfold memoryCopyFinish
  split_ifs with hzero
  · exact ⟨le_rfl, by dsimp only; omega, iff_of_false Bool.false_ne_true (by omega), hcopied,
      fun hlt => absurd hlt (lt_irrefl _)⟩
  · exact ⟨le_rfl, by dsimp only; omega, iff_of_true rfl (by omega), hcopied,
      fun hlt => absurd hlt (lt_irrefl _)⟩

/-- Whatever the translation, as long as it works by pages, a copy returns the number of bytes that it
has copied. -/
theorem Course.transferred (h : orig.Aligned) (hpages : PageWise xlate) {r : Outcome α}
    (hcourse : Course xlate orig k mem' r) (hcopied : Copied xlate orig mem k mem') :
    ∃ n, Transferred xlate orig mem r n := by
  induction hcourse with
  | error hk hread =>
    obtain ⟨hnone, rfl, -⟩ := none_of_error h hpages hk hread
    exact ⟨_, transferred_recover h hk hcopied hnone⟩
  | @fault k _ log buf log' _ fault hk hread hwrite =>
    obtain ⟨j, hlt, rfl, hnone, hj⟩ := hcopied.chunk hread hwrite
    exact ⟨j, transferred_recover h (hlt.trans_le (Progress.chunk_spec h hk).2.1) hj hnone⟩
  | chunk hk hread hwrite hrest ih =>
    obtain ⟨n, hn⟩ := ih (hcopied.chunk hread hwrite)
    exact ⟨n, { hn with }⟩
  | finish => exact ⟨_, transferred_finish h hcopied⟩

/-- The words of a chunk that is in the buffer can be read. -/
lemma source_ne_none {n j : ℕ} {buf : List α}
    (hread : memcpyTobounce xlate mem n (wordAddr orig.src k) = (log, .ok buf)) (hle : k ≤ j)
    (hlt : j < k + n) : xlate (orig.access .source j) ≠ none := by
  obtain ⟨-, hlength, hwords⟩ := memcpyTobounce_spec n k hread
  obtain ⟨i, rfl⟩ := Nat.exists_eq_add_of_le hle
  obtain ⟨p, hp, -⟩ := hwords i _ (List.getElem?_eq_getElem (show i < buf.length by omega))
  exact fun hnone => some_ne_none p (hp.symm.trans hnone)

/-- An access is to a word on the page of one that is reached, or to a word that is reached and has
been read. -/
def Accessible (xlate : Access → Option ℕ) (orig : Progress) (a : Access) : Prop :=
  (∃ k < orig.words, Reached xlate orig k ∧ a.side = .source ∧
      a.addr / minPageSize = wordAddr orig.src k / minPageSize) ∨
    ∃ k < orig.words, Reached xlate orig k ∧ xlate (orig.access .source k) ≠ none ∧
      a = orig.access .destination k

lemma accessible_of_read (h : orig.Aligned) (hk : k < orig.words) (hreached : Reached xlate orig k)
    {result : Except ℕ (List α)}
    (hread : memcpyTobounce xlate mem (orig.chunk k) (wordAddr orig.src k) = (log, result))
    (ha : a ∈ log) : Accessible xlate orig a := by
  rw [Course.read_log hread] at ha
  obtain ⟨j, hle, hlt, rfl, -⟩ := mem_accesses_iff.1 ha
  exact .inl ⟨k, hk, hreached, rfl, Course.samePage h hk hle hlt⟩

lemma accessible_of_write (h : orig.Aligned) (hk : k < orig.words) (hreached : Reached xlate orig k)
    {log' : List Access} {buf : List α} {result : (ℕ → α) × Option ℕ}
    (hread : memcpyTobounce xlate mem (orig.chunk k) (wordAddr orig.src k) = (log, .ok buf))
    (hwrite : memcpyFrombounce xlate buf (wordAddr orig.dest k) mem = (log', result))
    (ha : a ∈ log') : Accessible xlate orig a := by
  rw [Course.write_log hwrite, Course.length_buf hread] at ha
  obtain ⟨j, hle, hlt, rfl, hmapped⟩ := mem_accesses_iff.1 ha
  have hreached' : Reached xlate orig j := by
    intro i hi side
    rcases lt_or_ge i k with hik | hki
    · exact hreached i hik side
    · cases side
      · exact source_ne_none hread hki (by omega)
      · exact hmapped i hki hi
  exact .inr ⟨j, hlt.trans_le (Progress.chunk_spec h hk).2.1, hreached',
    source_ne_none hread hle hlt, rfl⟩

lemma Course.accessible (h : orig.Aligned) {r : Outcome α} (hcourse : Course xlate orig k mem' r)
    (hcopied : Copied xlate orig mem k mem') (ha : a ∈ r.log) : Accessible xlate orig a := by
  induction hcourse with
  | error hk hread => exact accessible_of_read h hk hcopied.mapped hread ha
  | fault hk hread hwrite =>
    rcases List.mem_append.1 ha with ha | ha
    · exact accessible_of_read h hk hcopied.mapped hread ha
    · exact accessible_of_write h hk hcopied.mapped hread hwrite ha
  | chunk hk hread hwrite hrest ih =>
    rcases List.mem_append.1 ha with ha | ha
    · rcases List.mem_append.1 ha with ha | ha
      · exact accessible_of_read h hk hcopied.mapped hread ha
      · exact accessible_of_write h hk hcopied.mapped hread hwrite ha
    · exact ih (hcopied.chunk hread hwrite) ha
  | finish =>
    unfold memoryCopyFinish at ha
    split_ifs at ha <;> exact absurd ha List.not_mem_nil

end Transfer

/-! ## Copying between the right spaces -/

/-- Whatever the TLB holds, the accesses of a copy go through the page tables of the spaces they are
meant for, and the number of bytes that is returned has been copied between them; a request that is
not admitted copies nothing. -/
def Faithful (q : Request) (s : Spaces) : Prop :=
  ∀ (α : Type) (mem : ℕ → α) (held : Access → Bool),
    ∃ r, memoryCopy (q.actual s held) q mem = some r ∧
      match q.check with
      | .ok orig => (∀ a ∈ r.log, q.actual s held a = q.intended s a) ∧
          ∃ n, Transferred (q.intended s) orig mem r n
      | .error _ => r.size = 0 ∧ r.mem = mem

end RemoteMemcpy

end Okl4Kernel
