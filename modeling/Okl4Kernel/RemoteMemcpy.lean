import Okl4Kernel.Fpage
import Okl4Kernel.Kmemory
import Okl4Kernel.Lib.Fallible

/-!
# Copying memory between two spaces

A thread that has received a message with a memory descriptor may copy between its own space and the
space of the sender, who waits for it. `SYS_MEMORY_COPY` checks the request, and
`memory_copy_loop` copies in chunks through a buffer: a chunk is read completely before it is
written, and does not cross a page of the source. Between two chunks the thread may be preempted;
what the loop needs is in the thread control block, so that it continues as if nothing had happened.

An access that fails ends the copy. The number of bytes that is returned is then calculated from
the address of the access.

The translation of addresses is a parameter here. `Access` is what the copy asks for, and the log of
a copy is the sequence of its accesses; a copy depends on the translation of these only
(`Course.congr`).

The check of the ranges adds the size to the address in word arithmetic and looks at the two ends
only. A size that wraps around lets a range pass that leaves the user area in between.
-/

namespace Okl4Kernel

open List Option Fallible

namespace RemoteMemcpy

/-- The two sides of a copy. -/
inductive Side where
  | source
  | destination
  deriving DecidableEq, Repr

/-- An access to a word of one of the sides. -/
structure Access where
  side : Side
  addr : ℕ
  deriving DecidableEq, Repr

/-- The error codes of the call. -/
inductive CopyError where
  | invalidCap
  | invalidParam
  | noMem
  deriving DecidableEq, Repr

/-- The data of a copy that is kept in the thread control block. -/
structure Progress where
  src : ℕ
  dest : ℕ
  size : ℕ
  remoteSize : ℕ
  deriving DecidableEq, Repr

/-- How a copy ends: its accesses, the memory, whether it succeeds, the number of bytes that is
returned, and the error code. -/
structure Outcome (α : Type*) where
  log : List Access
  mem : ℕ → α
  result : Bool
  size : ℕ
  error : Option CopyError

/-- `REMOTE_MEMCPY_BUFSIZE`. -/
def bufSize : ℕ := 0x400

/-- The smallest size of a page. -/
def minPageSize : ℕ := 0x1000

section Loop

variable {α : Type*} (xlate : Access → Option ℕ)

/-- `memcpy_tobounce`: read a number of words. The result is what is in the buffer, or the address
of the access that failed. -/
def memcpyTobounce (mem : ℕ → α) : ℕ → ℕ → List Access × Except ℕ (List α)
  | 0, _ => ([], .ok [])
  | n + 1, addr =>
    match xlate ⟨.source, addr⟩ with
    | none => ([⟨.source, addr⟩], .error addr)
    | some p =>
      let rest := memcpyTobounce mem n ((addr + 4) % wordSpace)
      (⟨.source, addr⟩ :: rest.1, rest.2.map (mem p :: ·))

/-- `memcpy_frombounce`: write the words of the buffer. The result is the memory, and the address of
the access that failed, if there is one. -/
def memcpyFrombounce : List α → ℕ → (ℕ → α) → List Access × (ℕ → α) × Option ℕ
  | [], _, mem => ([], mem, none)
  | w :: ws, addr, mem =>
    match xlate ⟨.destination, addr⟩ with
    | none => ([⟨.destination, addr⟩], mem, some addr)
    | some p =>
      let rest := memcpyFrombounce ws ((addr + 4) % wordSpace) (Function.update mem p w)
      (⟨.destination, addr⟩ :: rest.1, rest.2)

/-- The size of the next chunk. -/
def copySize (st : Progress) : ℕ :=
  min (min bufSize (min st.remoteSize st.size)) (minPageSize - st.src % minPageSize)

/-- The data in the thread control block after a chunk. -/
def Progress.advance (st : Progress) (n : ℕ) : Progress :=
  ⟨(st.src + n) % wordSpace, (st.dest + n) % wordSpace, st.size - n, st.remoteSize - n⟩

/-- `memory_copy_recover`: the end of a copy because of an access that failed, where `start` is the
address at which the side began. -/
def memoryCopyRecover (log : List Access) (mem : ℕ → α) (fault start : ℕ) : Outcome α :=
  ⟨log, mem, false, (fault + wordSpace - start) % wordSpace, some .noMem⟩

/-- The end of a copy without a failed access. -/
def memoryCopyFinish (orig st : Progress) (mem : ℕ → α) : Outcome α :=
  if st.size ≠ 0 then ⟨[], mem, false, orig.size - st.size, some .invalidParam⟩
  else ⟨[], mem, true, orig.size, none⟩

/-- `memory_copy_loop`, which began with `orig` and has come to `st`. The first argument bounds the
number of chunks; `memoryCopy_eq_iff` shows that the bound is never reached. -/
def memoryCopyLoop (orig : Progress) : ℕ → Progress → (ℕ → α) → Option (Outcome α)
  | 0, _, _ => none
  | fuel + 1, st, mem =>
    if 0 < st.remoteSize ∧ 0 < st.size then
      let n := copySize st
      match memcpyTobounce xlate mem (n / 4) st.src with
      | (log, .error fault) => some (memoryCopyRecover log mem fault orig.src)
      | (log, .ok buf) =>
        match memcpyFrombounce xlate buf st.dest mem with
        | (log', mem', some fault) => some (memoryCopyRecover (log ++ log') mem' fault orig.dest)
        | (log', mem', none) =>
          (memoryCopyLoop orig fuel (st.advance n) mem').map fun r =>
            { r with log := log ++ log' ++ r.log }
    else some (memoryCopyFinish orig st mem)

end Loop

/-! ## The system call -/

/-- The thread on the other side. -/
structure Remote where
  /-- The thread waits for a message of the caller. -/
  waiting : Bool
  /-- `get_memcpy` of its message tag. -/
  memcpy : Bool
  /-- `get_untyped` of its message tag. -/
  untyped : ℕ
  /-- Its message registers. -/
  mr : ℕ → Word

/-- `memcpy_dir_from`. -/
def memcpyDirFrom : Word := 1

/-- `memcpy_dir_to`. -/
def memcpyDirTo : Word := 2

/-- `IPC_NUM_MR`. -/
def ipcNumMr : ℕ := 32

/-- The arguments of `SYS_MEMORY_COPY`, with the thread that the handle refers to. -/
structure Request where
  isThreadHandle : Bool
  remote : Option Remote
  localAddr : Word
  size : Word
  direction : Word

/-- The last address of a range, in word arithmetic. -/
def lastAddr (addr size : Word) : ℕ := (addr + size + wordSpace - 1) % wordSpace

/-- The check of the addresses and sizes. -/
def Request.rangesOk (q : Request) (remoteAddr remoteSize : Word) : Bool :=
  isUserArea q.localAddr ∧ isUserArea (lastAddr q.localAddr q.size) ∧
    isUserArea remoteAddr ∧ isUserArea (lastAddr remoteAddr remoteSize)

variable {q : Request}

/-- The checks of `SYS_MEMORY_COPY`. A request that passes them is turned into a copy. -/
def Request.check (q : Request) : Except CopyError Progress :=
  match q.isThreadHandle, q.remote with
  | true, some remote =>
    if ¬ remote.waiting then .error .invalidParam
    else if ¬ remote.memcpy then .error .invalidParam
    else
      let descidx := remote.untyped + 1
      if descidx + 2 ≥ ipcNumMr then .error .invalidParam
      else
        let remoteAddr := remote.mr descidx
        let remoteSize := remote.mr (descidx + 1)
        let remoteDir := remote.mr (descidx + 2)
        if remoteDir = q.direction then .error .invalidParam
        else if q.localAddr.val % 4 ≠ 0 ∨ q.size.val % 4 ≠ 0 ∨ remoteAddr.val % 4 ≠ 0 ∨
            remoteSize.val % 4 ≠ 0 then .error .invalidParam
        else if ¬ q.rangesOk remoteAddr remoteSize then .error .invalidParam
        else if q.direction = memcpyDirTo then
          .ok ⟨remoteAddr, q.localAddr, q.size, remoteSize⟩
        else if q.direction = memcpyDirFrom then
          .ok ⟨q.localAddr, remoteAddr, q.size, remoteSize⟩
        else .error .invalidParam
  | _, _ => .error .invalidCap

/-- `SYS_MEMORY_COPY`. -/
def memoryCopy {α : Type*} (xlate : Access → Option ℕ) (q : Request) (mem : ℕ → α) :
    Option (Outcome α) :=
  match q.check with
  | .error e => some ⟨[], mem, false, 0, some e⟩
  | .ok orig => memoryCopyLoop xlate orig (orig.size + 1) orig mem

/-! ## The course of a copy -/

/-- The address of a word of a range, in word arithmetic. -/
def wordAddr (base k : ℕ) : ℕ := (base + 4 * k) % wordSpace

lemma wordAddr_add (base k n : ℕ) :
    (wordAddr base k + 4 * n) % wordSpace = wordAddr base (k + n) := by
  rw [wordAddr, Nat.mod_add_mod, wordAddr, Nat.mul_add, Nat.add_assoc]

lemma wordAddr_succ (base k : ℕ) : (wordAddr base k + 4) % wordSpace = wordAddr base (k + 1) :=
  wordAddr_add base k 1

lemma wordAddr_zero {base : ℕ} (h : base < wordSpace) : wordAddr base 0 = base :=
  Nat.mod_eq_of_lt h

/-- The addresses and sizes are words, and they are aligned. -/
structure Progress.Aligned (orig : Progress) : Prop where
  src_lt : orig.src < wordSpace
  dest_lt : orig.dest < wordSpace
  size_lt : orig.size < wordSpace
  remoteSize_lt : orig.remoteSize < wordSpace
  src : orig.src % 4 = 0
  dest : orig.dest % 4 = 0
  size : orig.size % 4 = 0
  remoteSize : orig.remoteSize % 4 = 0

namespace Progress

variable (orig : Progress)

/-- The number of words that are to be copied. -/
def words : ℕ := min orig.size orig.remoteSize / 4

/-- The address at which a side begins. -/
def start : Side → ℕ
  | .source => orig.src
  | .destination => orig.dest

/-- The access to a word of a side. -/
def access (side : Side) (k : ℕ) : Access := ⟨side, wordAddr (orig.start side) k⟩

/-- The data in the thread control block after `k` words. -/
def after (k : ℕ) : Progress :=
  ⟨wordAddr orig.src k, wordAddr orig.dest k, orig.size - 4 * k, orig.remoteSize - 4 * k⟩

variable {orig : Progress}

lemma after_zero (h : orig.Aligned) : orig.after 0 = orig := by
  rw [after, wordAddr_zero h.src_lt, wordAddr_zero h.dest_lt]
  rfl

/-- The number of words of the chunk that comes after `k` words. -/
def chunk (orig : Progress) (k : ℕ) : ℕ := copySize (orig.after k) / 4

/-- A chunk is not empty, stays within the copy and within a page of the source. -/
lemma chunk_spec (h : orig.Aligned) {k : ℕ} (hk : k < orig.words) :
    0 < orig.chunk k ∧ k + orig.chunk k ≤ orig.words ∧
      wordAddr orig.src k % minPageSize + 4 * orig.chunk k ≤ minPageSize ∧
      copySize (orig.after k) = 4 * orig.chunk k := by
  have hsrc := h.src
  have hsize := h.size
  have hremote := h.remoteSize
  have hpage : wordAddr orig.src k % minPageSize % 4 = 0 := by
    unfold wordAddr wordSpace minPageSize
    omega
  have hpage_lt : wordAddr orig.src k % minPageSize < minPageSize := Nat.mod_lt _ (by decide)
  unfold words at hk
  unfold chunk copySize after words bufSize
  dsimp only
  generalize wordAddr orig.src k % minPageSize = a at *
  -- the size of the chunk is a multiple of four, since all the terms of the minimum are
  have hmin : ∀ n, n = min (min 0x400 (min (orig.remoteSize - 4 * k) (orig.size - 4 * k)))
      (minPageSize - a) → 0 < n ∧ n % 4 = 0 ∧ n ≤ orig.remoteSize - 4 * k ∧
        n ≤ orig.size - 4 * k ∧ n ≤ minPageSize - a := by
    unfold minPageSize at *
    omega
  obtain ⟨hpos, hfour, hle, hle', hlast⟩ := hmin _ rfl
  omega

lemma advance_after (orig : Progress) (k n : ℕ) :
    (orig.after k).advance (4 * n) = orig.after (k + n) := by
  simp only [advance, after, wordAddr_add]
  congr 1 <;> omega

/-- The loop goes on as long as there are words to copy. -/
lemma after_pos_iff (h : orig.Aligned) {k : ℕ} :
    0 < (orig.after k).remoteSize ∧ 0 < (orig.after k).size ↔ k < orig.words := by
  have hsize := h.size
  have hremote := h.remoteSize
  unfold after words
  dsimp only
  omega

end Progress

section Course

variable {α : Type*}

/-- What is left of a copy after `k` words, from the memory `mem` to an outcome: a chunk of which a
word cannot be read, or cannot be written, or a chunk and what is left then, or nothing. -/
inductive Course (xlate : Access → Option ℕ) (orig : Progress) : ℕ → (ℕ → α) → Outcome α → Prop
  | error {k mem log fault} (hk : k < orig.words)
      (hread : memcpyTobounce xlate mem (orig.chunk k) (wordAddr orig.src k) =
        (log, .error fault)) :
      Course xlate orig k mem (memoryCopyRecover log mem fault orig.src)
  | fault {k mem log buf log' mem' fault} (hk : k < orig.words)
      (hread : memcpyTobounce xlate mem (orig.chunk k) (wordAddr orig.src k) = (log, .ok buf))
      (hwrite : memcpyFrombounce xlate buf (wordAddr orig.dest k) mem = (log', mem', some fault)) :
      Course xlate orig k mem (memoryCopyRecover (log ++ log') mem' fault orig.dest)
  | chunk {k mem log buf log' mem' r} (hk : k < orig.words)
      (hread : memcpyTobounce xlate mem (orig.chunk k) (wordAddr orig.src k) = (log, .ok buf))
      (hwrite : memcpyFrombounce xlate buf (wordAddr orig.dest k) mem = (log', mem', none))
      (hrest : Course xlate orig (k + orig.chunk k) mem' r) :
      Course xlate orig k mem { r with log := log ++ log' ++ r.log }
  | finish {mem} : Course xlate orig orig.words mem
      (memoryCopyFinish orig (orig.after orig.words) mem)

variable {xlate xlate' : Access → Option ℕ} {mem mem' : ℕ → α} {orig : Progress}
variable {base addr k n fault : ℕ} {log log' : List Access} {buf : List α} {side : Side} {a : Access}

/-! ### Reading and writing a chunk -/

lemma memcpyTobounce_of_none (h : xlate ⟨.source, addr⟩ = none) (n : ℕ) :
    memcpyTobounce xlate mem (n + 1) addr = ([⟨.source, addr⟩], .error addr) := by
  rw [memcpyTobounce, h]

lemma memcpyTobounce_of_some {p : ℕ} (h : xlate ⟨.source, addr⟩ = some p) (n : ℕ) :
    memcpyTobounce xlate mem (n + 1) addr =
      (⟨.source, addr⟩ :: (memcpyTobounce xlate mem n ((addr + 4) % wordSpace)).1,
        (memcpyTobounce xlate mem n ((addr + 4) % wordSpace)).2.map (mem p :: ·)) := by
  rw [memcpyTobounce, h]

lemma memcpyFrombounce_of_none (h : xlate ⟨.destination, addr⟩ = none) (w : α)
    (ws : List α) (mem : ℕ → α) :
    memcpyFrombounce xlate (w :: ws) addr mem = ([⟨.destination, addr⟩], mem, some addr) := by
  rw [memcpyFrombounce, h]

lemma memcpyFrombounce_of_some {p : ℕ} (h : xlate ⟨.destination, addr⟩ = some p) (w : α)
    (ws : List α) (mem : ℕ → α) : memcpyFrombounce xlate (w :: ws) addr mem =
      (⟨.destination, addr⟩ ::
        (memcpyFrombounce xlate ws ((addr + 4) % wordSpace) (Function.update mem p w)).1,
        (memcpyFrombounce xlate ws ((addr + 4) % wordSpace) (Function.update mem p w)).2) := by
  rw [memcpyFrombounce, h]

/-- The accesses to a number of words of a range from the `k`-th one on, up to the first one without a
translation. -/
def accesses (xlate : Access → Option ℕ) (side : Side) (base : ℕ) : ℕ → ℕ → List Access
  | 0, _ => []
  | n + 1, k => ⟨side, wordAddr base k⟩ ::
      if xlate ⟨side, wordAddr base k⟩ = none then [] else accesses xlate side base n (k + 1)

/-- A word is accessed if those before it have a translation. -/
lemma mem_accesses_iff :
    a ∈ accesses xlate side base n k ↔ ∃ j, k ≤ j ∧ j < k + n ∧ a = ⟨side, wordAddr base j⟩ ∧
      ∀ i, k ≤ i → i < j → xlate ⟨side, wordAddr base i⟩ ≠ none := by
  induction n generalizing k with
  | zero => exact iff_of_false not_mem_nil fun ⟨j, hle, hlt, _⟩ => by omega
  | succ n ih =>
    rw [accesses, mem_cons]
    constructor
    · rintro (rfl | ha)
      · exact ⟨k, le_rfl, by omega, rfl, fun i hle hlt => by omega⟩
      split_ifs at ha with hx
      · exact absurd ha not_mem_nil
      · obtain ⟨j, hle, hlt, rfl, hmapped⟩ := ih.1 ha
        refine ⟨j, by omega, by omega, rfl, fun i hi hij => ?_⟩
        rcases hi.eq_or_lt with rfl | hi
        · exact hx
        · exact hmapped i hi hij
    · rintro ⟨j, hle, hlt, rfl, hmapped⟩
      rcases hle.eq_or_lt with rfl | hlt'
      · exact .inl rfl
      · rw [if_neg (hmapped k le_rfl hlt')]
        exact .inr (ih.2 ⟨j, hlt', by omega, rfl, fun i hi => hmapped i (Nat.le_of_succ_le hi)⟩)

/-- Reading depends on the translation of the words that are read only. -/
lemma memcpyTobounce_congr (n addr : ℕ)
    (h : ∀ a ∈ (memcpyTobounce xlate mem n addr).1, xlate' a = xlate a) :
    memcpyTobounce xlate' mem n addr = memcpyTobounce xlate mem n addr := by
  induction n generalizing addr with
  | zero => rfl
  | succ n ih =>
    rcases hx : xlate ⟨.source, addr⟩ with _ | p
    · rw [memcpyTobounce_of_none hx] at h ⊢
      exact memcpyTobounce_of_none ((h _ mem_cons_self).trans hx) n
    · rw [memcpyTobounce_of_some hx] at h ⊢
      rw [memcpyTobounce_of_some ((h _ mem_cons_self).trans hx),
        ih _ fun a ha => h a (mem_cons_of_mem _ ha)]

/-- Writing depends on the translation of the words that are written only. -/
lemma memcpyFrombounce_congr (ws : List α) (addr : ℕ) (mem : ℕ → α)
    (h : ∀ a ∈ (memcpyFrombounce xlate ws addr mem).1, xlate' a = xlate a) :
    memcpyFrombounce xlate' ws addr mem = memcpyFrombounce xlate ws addr mem := by
  induction ws generalizing addr mem with
  | nil => rfl
  | cons w ws ih =>
    rcases hx : xlate ⟨.destination, addr⟩ with _ | p
    · rw [memcpyFrombounce_of_none hx] at h ⊢
      exact memcpyFrombounce_of_none ((h _ mem_cons_self).trans hx) w ws mem
    · rw [memcpyFrombounce_of_some hx] at h ⊢
      rw [memcpyFrombounce_of_some ((h _ mem_cons_self).trans hx),
        ih _ _ fun a ha => h a (mem_cons_of_mem _ ha)]

/-- What is in the buffer are the words that were read, and a word that cannot be read has no
translation. -/
lemma memcpyTobounce_spec (n k : ℕ) {result : Except ℕ (List α)}
    (h : memcpyTobounce xlate mem n (wordAddr base k) = (log, result)) :
    log = accesses xlate .source base n k ∧
      match result with
      | .ok buf => buf.length = n ∧ ∀ i w, buf[i]? = some w →
          ∃ p, xlate ⟨.source, wordAddr base (k + i)⟩ = some p ∧ w = mem p
      | .error fault =>
          ∃ j, k ≤ j ∧ j < k + n ∧ fault = wordAddr base j ∧ xlate ⟨.source, fault⟩ = none := by
  induction n generalizing k log result with
  | zero =>
    cases h
    exact ⟨rfl, rfl, fun i w hw => by simp at hw⟩
  | succ n ih =>
    rw [accesses]
    rcases hx : xlate ⟨.source, wordAddr base k⟩ with _ | p
    · rw [memcpyTobounce_of_none hx] at h
      cases h
      exact ⟨if_pos rfl ▸ rfl, k, le_rfl, by omega, rfl, hx⟩
    rw [memcpyTobounce_of_some hx, wordAddr_succ] at h
    rw [if_neg (some_ne_none p)]
    rcases hrest : memcpyTobounce xlate mem n (wordAddr base (k + 1)) with ⟨log', fault | rest⟩
    · rw [hrest] at h
      cases h
      obtain ⟨rfl, j, hle, hlt, hj⟩ := ih (k + 1) hrest
      exact ⟨rfl, j, by omega, by omega, hj⟩
    · rw [hrest] at h
      cases h
      obtain ⟨rfl, hlength, hwords⟩ := ih (k + 1) hrest
      refine ⟨rfl, by rw [length_cons, hlength], fun i w hw => ?_⟩
      rcases i with _ | i
      · cases hw
        exact ⟨p, hx, rfl⟩
      · obtain ⟨q, hq, hwq⟩ := hwords i w hw
        exact ⟨q, by rwa [Nat.add_right_comm] at hq, hwq⟩

/-- A word that cannot be written has no translation. -/
lemma memcpyFrombounce_spec (ws : List α) (k : ℕ) (mem : ℕ → α) {result : Option ℕ}
    (h : memcpyFrombounce xlate ws (wordAddr base k) mem = (log, mem', result)) :
    log = accesses xlate .destination base ws.length k ∧ ∀ fault ∈ result,
      ∃ j, k ≤ j ∧ j < k + ws.length ∧ fault = wordAddr base j ∧
        xlate ⟨.destination, fault⟩ = none := by
  induction ws generalizing k mem log with
  | nil =>
    cases h
    exact ⟨rfl, by simp⟩
  | cons w ws ih =>
    rw [length_cons, accesses]
    rcases hx : xlate ⟨.destination, wordAddr base k⟩ with _ | p
    · rw [memcpyFrombounce_of_none hx] at h
      cases h
      refine ⟨if_pos rfl ▸ rfl, ?_⟩
      rintro _ ⟨⟩
      exact ⟨k, le_rfl, by omega, rfl, hx⟩
    · rw [memcpyFrombounce_of_some hx, wordAddr_succ] at h
      obtain ⟨rfl, hrest⟩ := Prod.mk.inj h
      obtain ⟨hlog, hfault⟩ := ih (k + 1) _ (Prod.ext rfl hrest)
      rw [if_neg (some_ne_none p)]
      refine ⟨congrArg _ hlog, fun fault hf => ?_⟩
      obtain ⟨j, hle, hlt, hj⟩ := hfault fault hf
      exact ⟨j, by omega, by omega, hj⟩

/-! ### The loop -/

/-- A chunk of the loop, by the number of words that are copied before it. -/
lemma memoryCopyLoop_chunk (h : orig.Aligned) (hk : k < orig.words) (fuel : ℕ) (mem : ℕ → α) :
    memoryCopyLoop xlate orig (fuel + 1) (orig.after k) mem =
      match memcpyTobounce xlate mem (orig.chunk k) (wordAddr orig.src k) with
      | (log, .error fault) => some (memoryCopyRecover log mem fault orig.src) | (log, .ok buf) =>
        match memcpyFrombounce xlate buf (wordAddr orig.dest k) mem with
        | (log', mem', some fault) => some (memoryCopyRecover (log ++ log') mem' fault orig.dest)
        | (log', mem', none) =>
          (memoryCopyLoop xlate orig fuel (orig.after (k + orig.chunk k)) mem').map fun r =>
            { r with log := log ++ log' ++ r.log } := by
  rw [memoryCopyLoop, if_pos ((Progress.after_pos_iff h).2 hk), ← Progress.advance_after,
    ← (Progress.chunk_spec h hk).2.2.2]
  rfl

lemma Course.loop_eq {r : Outcome α} (h : orig.Aligned) (hcourse : Course xlate orig k mem r)
    {fuel : ℕ} (hfuel : orig.words ≤ fuel + k) :
    memoryCopyLoop xlate orig (fuel + 1) (orig.after k) mem = some r := by
  induction hcourse generalizing fuel with
  | error hk hread => rw [memoryCopyLoop_chunk h hk, hread]
  | fault hk hread hwrite =>
    rw [memoryCopyLoop_chunk h hk, hread]
    simp only [hwrite]
  | chunk hk hread hwrite hrest ih =>
    obtain ⟨fuel, rfl⟩ := Nat.exists_eq_succ_of_ne_zero (show fuel ≠ 0 by omega)
    obtain ⟨hpos, -⟩ := Progress.chunk_spec h hk
    rw [memoryCopyLoop_chunk h hk, hread]
    simp only [hwrite, ih (show _ ≤ fuel + _ by omega), map_some]
  | finish =>
    rw [memoryCopyLoop, if_neg]
    rw [Progress.after_pos_iff h]
    exact lt_irrefl _

theorem exists_course (h : orig.Aligned) (hk : k ≤ orig.words) (mem : ℕ → α) :
    ∃ r, Course xlate orig k mem r := by
  induction hleft : orig.words - k using Nat.strong_induction_on generalizing k mem with
  | _ left ih =>
    rcases hk.lt_or_eq with hlt | rfl
    · obtain ⟨hpos, hle, -⟩ := Progress.chunk_spec h hlt
      rcases hread : memcpyTobounce xlate mem (orig.chunk k) (wordAddr orig.src k) with
        ⟨log, fault | buf⟩
      · exact ⟨_, .error hlt hread⟩
      rcases hwrite : memcpyFrombounce xlate buf (wordAddr orig.dest k) mem with
        ⟨log', mem', _ | fault⟩
      · obtain ⟨r, hcourse⟩ := ih _ (by omega) hle mem' rfl
        exact ⟨_, .chunk hlt hread hwrite hcourse⟩
      · exact ⟨_, .fault hlt hread hwrite⟩
    · exact ⟨_, .finish⟩

/-- The words before the `k`-th one can be read and written, so that a copy comes to it. -/
def Reached (xlate : Access → Option ℕ) (orig : Progress) (k : ℕ) : Prop :=
  ∀ i < k, ∀ side, xlate (orig.access side i) ≠ none

/-- Whether a word of the source can be read depends on its page only. -/
def PageWise (xlate : Access → Option ℕ) : Prop :=
  ∀ a b, a / minPageSize = b / minPageSize → (xlate ⟨.source, a⟩ = none ↔ xlate ⟨.source, b⟩ = none)

namespace Course

variable {r : Outcome α}

lemma read_log {result : Except ℕ (List α)}
    (hread : memcpyTobounce xlate mem n (wordAddr orig.src k) = (log, result)) :
    log = accesses xlate .source (orig.start .source) n k :=
  (memcpyTobounce_spec n k hread).1

lemma write_log {result : (ℕ → α) × Option ℕ}
    (hwrite : memcpyFrombounce xlate buf (wordAddr orig.dest k) mem = (log, result)) :
    log = accesses xlate .destination (orig.start .destination) buf.length k :=
  (memcpyFrombounce_spec buf k mem hwrite).1

lemma lt_of_mem_accesses (ha : a ∈ accesses xlate side (orig.start side) n k) :
    ∃ j < k + n, a.addr = wordAddr (orig.start a.side) j := by
  obtain ⟨j, -, hlt, rfl, -⟩ := mem_accesses_iff.1 ha
  exact ⟨j, hlt, rfl⟩

lemma length_buf
    (hread : memcpyTobounce xlate mem n (wordAddr orig.src k) = (log, .ok buf)) : buf.length = n :=
  (memcpyTobounce_spec n k hread).2.1

lemma lt_of_mem_chunk {result : (ℕ → α) × Option ℕ}
    (hread : memcpyTobounce xlate mem n (wordAddr orig.src k) = (log, .ok buf))
    (hwrite : memcpyFrombounce xlate buf (wordAddr orig.dest k) mem = (log', result))
    (ha : a ∈ log ++ log') : ∃ j < k + n, a.addr = wordAddr (orig.start a.side) j := by
  rcases mem_append.1 ha with ha | ha
  · exact lt_of_mem_accesses (read_log hread ▸ ha)
  · rw [← length_buf hread]
    exact lt_of_mem_accesses (write_log hwrite ▸ ha)

/-- A word of a chunk is accessed if it is reached. -/
lemma access_mem_accesses {n j : ℕ} (hle : k ≤ j) (hlt : j < k + n)
    (hreached : Reached xlate orig j) :
    orig.access side j ∈ accesses xlate side (orig.start side) n k :=
  mem_accesses_iff.2 ⟨j, hle, hlt, rfl, fun i _ hi => hreached i hi side⟩

theorem mem_log (h : orig.Aligned) (hcourse : Course xlate orig k mem r)
    (ha : a ∈ r.log) : ∃ j < orig.words, a.addr = wordAddr (orig.start a.side) j := by
  induction hcourse with
  | error hk hread =>
    obtain ⟨j, hj, hja⟩ := lt_of_mem_accesses (read_log hread ▸ ha)
    exact ⟨j, hj.trans_le (Progress.chunk_spec h hk).2.1, hja⟩
  | fault hk hread hwrite =>
    obtain ⟨j, hj, hja⟩ := lt_of_mem_chunk hread hwrite ha
    exact ⟨j, hj.trans_le (Progress.chunk_spec h hk).2.1, hja⟩
  | chunk hk hread hwrite hrest ih =>
    rcases mem_append.1 ha with ha | ha
    · obtain ⟨j, hj, hja⟩ := lt_of_mem_chunk hread hwrite ha
      exact ⟨j, hj.trans_le (Progress.chunk_spec h hk).2.1, hja⟩
    · exact ih ha
  | finish =>
    unfold memoryCopyFinish at ha
    split_ifs at ha <;> exact absurd ha not_mem_nil

/-- A copy depends on the translation of its accesses only. -/
theorem congr (hcourse : Course xlate orig k mem r) (hx : ∀ a ∈ r.log, xlate' a = xlate a) :
    Course xlate' orig k mem r := by
  induction hcourse with
  | error hk hread =>
    refine .error hk ((memcpyTobounce_congr _ _ ?_).trans hread)
    rw [hread]
    exact hx
  | fault hk hread hwrite =>
    refine .fault hk ((memcpyTobounce_congr _ _ ?_).trans hread)
      ((memcpyFrombounce_congr _ _ _ ?_).trans hwrite)
    · rw [hread]
      exact fun a ha => hx a (mem_append_left _ ha)
    · rw [hwrite]
      exact fun a ha => hx a (mem_append_right _ ha)
  | chunk hk hread hwrite hrest ih =>
    refine .chunk hk ((memcpyTobounce_congr _ _ ?_).trans hread)
      ((memcpyFrombounce_congr _ _ _ ?_).trans hwrite)
      (ih fun a ha => hx a (mem_append_right _ ha))
    · rw [hread]
      exact fun a ha => hx a (mem_append_left _ (mem_append_left _ ha))
    · rw [hwrite]
      exact fun a ha => hx a (mem_append_left _ (mem_append_right _ ha))
  | finish => exact .finish

/-- The words of a chunk lie on the page of its first word. -/
lemma samePage (h : orig.Aligned) (hk : k < orig.words) {j : ℕ} (hle : k ≤ j)
    (hlt : j < k + orig.chunk k) :
    wordAddr orig.src j / minPageSize = wordAddr orig.src k / minPageSize := by
  have hpage := (Progress.chunk_spec h hk).2.2.1
  have hlt' : wordAddr orig.src k < wordSpace := Nat.mod_lt _ (by decide)
  obtain ⟨i, rfl⟩ := Nat.exists_eq_add_of_le hle
  rw [← wordAddr_add]
  unfold minPageSize wordSpace at *
  omega

/-- The word that cannot be read is the first one of its chunk. -/
lemma none_of_error (h : orig.Aligned) (hpages : PageWise xlate) (hk : k < orig.words)
    (hread : memcpyTobounce xlate mem (orig.chunk k) (wordAddr orig.src k) = (log, .error fault)) :
    xlate (orig.access .source k) = none ∧ fault = wordAddr orig.src k ∧
      log = [orig.access .source k] := by
  obtain ⟨-, j, hle, hlt, hfault, hnone⟩ := memcpyTobounce_spec _ _ hread
  rw [hfault] at hnone
  have hfirst := (hpages _ _ (samePage h hk hle hlt)).1 hnone
  obtain ⟨n, hn⟩ := Nat.exists_eq_succ_of_ne_zero (Progress.chunk_spec h hk).1.ne'
  rw [hn, memcpyTobounce_of_none hfirst] at hread
  obtain ⟨rfl, herror⟩ := Prod.mk.inj hread
  exact ⟨hfirst, (Except.error.inj herror).symm, rfl⟩

/-- A copy accesses every word that it reaches, on the side of the destination if the word can be
read. -/
theorem log_of_reached (h : orig.Aligned) (hpages : PageWise xlate)
    (hcourse : Course xlate orig k mem r) {j : ℕ} (hle : k ≤ j) (hlt : j < orig.words)
    (hreached : Reached xlate orig j) : orig.access .source j ∈ r.log ∧
      (xlate (orig.access .source j) ≠ none → orig.access .destination j ∈ r.log) := by
  induction hcourse with
  | @error k _ log fault hk hread =>
    obtain ⟨hnone, -, rfl⟩ := none_of_error h hpages hk hread
    obtain rfl : k = j := hle.eq_or_lt.resolve_right fun hkj => hreached k hkj .source hnone
    exact ⟨mem_singleton_self _, fun hsome => absurd hnone hsome⟩
  | @fault k _ log buf log' _ fault hk hread hwrite =>
    have hj : j < k + orig.chunk k := by
      by_contra hj
      obtain ⟨i, -, hi, rfl, hnone⟩ := (memcpyFrombounce_spec _ _ _ hwrite).2 fault rfl
      rw [length_buf hread] at hi
      exact hreached i (by omega) .destination hnone
    rw [read_log hread, write_log hwrite, length_buf hread]
    exact ⟨mem_append_left _ (access_mem_accesses hle hj hreached),
      fun _ => mem_append_right _ (access_mem_accesses hle hj hreached)⟩
  | @chunk k _ log buf log' _ r hk hread hwrite hrest ih =>
    by_cases hj : j < k + orig.chunk k
    · rw [read_log hread, write_log hwrite, length_buf hread]
      exact ⟨mem_append_left _ (mem_append_left _ (access_mem_accesses hle hj hreached)),
        fun _ => mem_append_left _ (mem_append_right _ (access_mem_accesses hle hj hreached))⟩
    · obtain ⟨hsource, hdestination⟩ := ih (not_lt.1 hj)
      exact ⟨mem_append_right _ hsource, fun hsome => mem_append_right _ (hdestination hsome)⟩
  | finish => omega

end Course

end Course

/-! ## Staying in the user area -/

variable {orig : Progress}

/-- A request that passes the checks begins with aligned addresses of the user area. -/
lemma Request.aligned_of_check (h : q.check = .ok orig) :
    orig.Aligned ∧ ∀ side, orig.start side < userAreaEnd := by
  unfold Request.check at h
  split at h
  · obtain ⟨-, h⟩ := ite_error_eq_ok.1 h
    obtain ⟨-, h⟩ := ite_error_eq_ok.1 h
    obtain ⟨-, h⟩ := ite_error_eq_ok.1 h
    obtain ⟨-, h⟩ := ite_error_eq_ok.1 h
    obtain ⟨halign, h⟩ := ite_error_eq_ok.1 h
    obtain ⟨hranges, h⟩ := ite_error_eq_ok.1 h
    simp only [Request.rangesOk, isUserArea, decide_eq_true_eq, not_not] at hranges
    obtain ⟨hsrc, -, hdest, -⟩ := hranges
    simp only [not_or, not_not] at halign
    obtain ⟨hlocal, hsize, hremote, hremoteSize⟩ := halign
    rcases ite_eq_iff.1 h with ⟨-, h⟩ | ⟨-, h⟩
    · cases h
      exact ⟨⟨Fin.isLt _, Fin.isLt _, Fin.isLt _, Fin.isLt _, hremote, hlocal, hsize, hremoteSize⟩,
        fun side => by cases side <;> assumption⟩
    · rcases ite_eq_iff.1 h with ⟨-, h⟩ | ⟨-, h⟩
      · cases h
        exact ⟨⟨Fin.isLt _, Fin.isLt _, Fin.isLt _, Fin.isLt _, hlocal, hremote, hsize, hremoteSize⟩,
          fun side => by cases side <;> assumption⟩
      · cases h
  · cases h

/-- A copy that is admitted accesses bytes of the user area only, and a request that is not admitted
returns an error and changes nothing. -/
def Confined (q : Request) : Prop :=
  ∀ (α : Type) (xlate : Access → Option ℕ) (mem : ℕ → α), ∃ r, memoryCopy xlate q mem = some r ∧
    match q.check with
    | .ok _ => ∀ a ∈ r.log, ∀ byte < 4, isUserArea (a.addr + byte)
    | .error e => r.result = false ∧ r.error = some e ∧ r.mem = mem

/-- The words that are to be copied lie in the user area on both sides. -/
def Progress.InUserArea (orig : Progress) : Prop :=
  orig.words = 0 ∨ ∀ side, orig.start side + 4 * orig.words ≤ userAreaEnd

lemma Progress.Aligned.start (h : orig.Aligned) (side : Side) : orig.start side % 4 = 0 := by
  cases side
  · exact h.src
  · exact h.dest

/-- A range of words that starts in the user area and never leaves it does not wrap around. -/
lemma le_userAreaEnd_of_wordAddr {base n : ℕ} (haligned : base % 4 = 0) (hbase : base < userAreaEnd)
    (h : ∀ j < n, wordAddr base j < userAreaEnd) : base + 4 * n ≤ userAreaEnd := by
  have hend : userAreaEnd = 0x7f000000 := rfl
  induction n with
  | zero => omega
  | succ n ih =>
    have hn := ih fun j hj => h j (by omega)
    have hlast := h n (Nat.lt_succ_self n)
    unfold wordAddr wordSpace at hlast
    omega

lemma wordAddr_lt_of_le {base n j : ℕ} (h : base + 4 * n ≤ userAreaEnd) (hj : j < n) :
    wordAddr base j + 4 ≤ userAreaEnd := by
  unfold wordAddr wordSpace
  omega

/-- A copy that has been admitted follows its course from the first word on. -/
lemma memoryCopy_eq_iff {α : Type*} {xlate : Access → Option ℕ}
    (hcheck : q.check = .ok orig) {mem : ℕ → α} {r : Outcome α} :
    memoryCopy xlate q mem = some r ↔ Course xlate orig 0 mem r := by
  have haligned := (Request.aligned_of_check hcheck).1
  have hwords : orig.words ≤ orig.size + 0 := by
    unfold Progress.words
    omega
  have hcopy : memoryCopy xlate q mem =
      memoryCopyLoop xlate orig (orig.size + 1) (orig.after 0) mem := by
    rw [Progress.after_zero haligned]
    simp only [memoryCopy, hcheck]
  rw [hcopy]
  refine ⟨fun h => ?_, fun hcourse => hcourse.loop_eq haligned hwords⟩
  obtain ⟨r', hcourse⟩ := exists_course haligned (Nat.zero_le _) mem
  rwa [← some.inj ((hcourse.loop_eq haligned hwords).symm.trans h)]

/-- If every page is mapped, a confined copy reads and writes all its words in the user area. -/
lemma inUserArea_of_confined (hconfined : Confined q)
    (hcheck : q.check = .ok orig) : orig.InUserArea := by
  obtain ⟨haligned, hstart⟩ := Request.aligned_of_check hcheck
  obtain ⟨r, hcopy, hlog⟩ := hconfined Unit (fun _ => some 0) fun _ => ()
  simp only [hcheck] at hlog
  have hcourse := (memoryCopy_eq_iff hcheck).1 hcopy
  refine .inr fun side => le_userAreaEnd_of_wordAddr (haligned.start side) (hstart side) ?_
  intro j hj
  obtain ⟨hsource, hdestination⟩ := hcourse.log_of_reached haligned (fun _ _ _ => Iff.rfl)
    (Nat.zero_le j) hj fun _ _ _ => some_ne_none 0
  have ha : orig.access side j ∈ r.log := by
    cases side
    · exact hsource
    · exact hdestination (some_ne_none 0)
  simpa [isUserArea, Progress.access] using hlog _ ha 0 (by decide)

/-- A request is confined to the user area exactly if, should it pass the checks, the words to be
copied lie in the user area on both sides. -/
theorem confined_iff (q : Request) : Confined q ↔ ∀ orig, q.check = .ok orig → orig.InUserArea := by
  constructor
  · intro hconfined orig hcheck
    exact inUserArea_of_confined hconfined hcheck
  intro harea α xlate mem
  cases hcheck : q.check with
  | error e => exact ⟨⟨[], mem, false, 0, some e⟩, by simp only [memoryCopy, hcheck], rfl, rfl, rfl⟩
  | ok orig =>
    obtain ⟨haligned, -⟩ := Request.aligned_of_check hcheck
    obtain ⟨r, hcourse⟩ := exists_course haligned (Nat.zero_le _) mem
    refine ⟨r, (memoryCopy_eq_iff hcheck).2 hcourse, fun a ha byte hbyte => ?_⟩
    obtain ⟨j, hj, haddr⟩ := hcourse.mem_log haligned ha
    rcases harea orig hcheck with hzero | hend
    · omega
    · have hlt := wordAddr_lt_of_le (hend a.side) hj
      rw [isUserArea, decide_eq_true_eq, haddr]
      omega

/-- The sender of a message with a memory descriptor waits for the caller. -/
def waitingRemote (addr size dir : Word) : Remote where
  waiting := true
  memcpy := true
  untyped := 0
  mr := fun i => if i = 1 then addr else if i = 2 then size else if i = 3 then dir else 0

/-- The caller asks to read nearly all of the address space from the sender, who offers it. -/
def wrappingRequest : Request where
  isThreadHandle := true
  remote := some (waitingRemote 0x2000 0xFFFFFFF8 1)
  localAddr := 0x1000
  size := 0xFFFFFFF8
  direction := 2

/-- What the request is turned into. -/
def wrappingProgress : Progress := ⟨0x2000, 0x1000, 0xFFFFFFF8, 0xFFFFFFF8⟩

/-- The request passes the check of the ranges, although they contain the whole kernel area. -/
theorem not_confined_wrappingRequest :
    wrappingRequest.check = .ok wrappingProgress ∧ ¬ Confined wrappingRequest := by
  have hcheck : wrappingRequest.check = .ok wrappingProgress := by decide +kernel
  have harea : ¬ wrappingProgress.InUserArea := by
    rintro (hzero | hend)
    · exact absurd hzero (by decide)
    · exact absurd (hend .source) (by decide)
  exact ⟨hcheck, fun hconfined => harea (inUserArea_of_confined hconfined hcheck)⟩

end RemoteMemcpy

end Okl4Kernel
