import Okl4Kernel.Fpage
import Okl4Kernel.Lib.TransitionSystem

/-!
# User thread control blocks

A thread has a control block (UTCB) of 256 bytes in the UTCB area of its space, at an address that
its creator chooses. The pages of the area are allocated when they are first used
(`allocate_utcb`), and are freed with the space.

`check_utcb_location` should make sure that control blocks do not overlap. But on SH it is asked for
an alignment to `CONFIG_UTCB_SIZE`, which is the logarithm of the size of a page and not the size of
a control block, it does not look at the control blocks that are there already, and the end of the
block is computed modulo the size of the address space. Control blocks are separate
(`utcbs_separate`) only if the creators choose aligned addresses that are not in use; otherwise the
block of another thread is cleared (`createThread_clears`).
-/

namespace Okl4Kernel

open TransitionSystem Function List Option

/-- `UTCB_SIZE`, and the size of `utcb_t`. -/
def utcbSize : ℕ := 256

/-- `CONFIG_UTCB_SIZE` on SH, which is `PAGE_BITS_4K`. -/
def configUtcbSize : ℕ := 12

/-- `PAGE_SIZE_4K`, the size of the pages of the UTCB area. -/
def utcbPageSize : ℕ := 4096

/-- The offset of the first message register in `utcb_t`. -/
def mrOffset : ℕ := 64

/-- An entry of the first level of the page table: nothing, a page of one megabyte, or a table of
pages of four kilobytes with the numbers of their frames. -/
inductive L1Entry
  | invalid
  | large
  | table (entries : ℕ → Option ℕ)

/-- A thread, with the address of its control block in its space, and in physical memory. -/
structure UtcbThread where
  tid : ℕ
  location : ℕ
  utcb : ℕ
  deriving DecidableEq, Repr

/-- A space, as far as control blocks are concerned. `frames` are the frames that were allocated for
them. -/
structure UtcbSpace where
  area : Fpage
  pageTable : ℕ → L1Entry
  frames : List ℕ
  threads : List UtcbThread
  mem : ℕ → ℕ

namespace UtcbSpace

/-- The check of the UTCB area when a space is created. Shifts by the size of a word or more are
not defined. -/
def validArea (area : Fpage) : Bool := area.size < 32 ∧ utcbSize ≤ area.getSize ∧ area.isUserArea

/-- A new space. Its page table has the sections of the kernel. -/
def init (area : Fpage) (kernelSections : ℕ → L1Entry) (mem : ℕ → ℕ) : UtcbSpace where
  area := area
  pageTable section_ := if section_ < 0x800 then .invalid else kernelSections section_
  frames := []
  threads := []
  mem := mem

/-- `addr_align`: the complement of `align - 1` is used as a mask. -/
def addrAlign (addr align : ℕ) : ℕ := addr &&& (wordSpace - align)

variable (s : UtcbSpace)

/-- `check_utcb_location`. -/
def checkUtcbLocation (location : ℕ) : Bool :=
  addrAlign location configUtcbSize = location ∧
    s.area.isRangeInFpage location ((location + utcbSize) % wordSpace)

/-- The frame of a page, given by its number. -/
def leaf (page : ℕ) : Option ℕ :=
  match s.pageTable (page / 256) with
  | .table entries => entries (page % 256)
  | _ => none

/-- Clear memory. -/
def memset (mem : ℕ → ℕ) (first size : ℕ) : ℕ → ℕ := fun a =>
  if first ≤ a ∧ a < first + size then 0 else mem a

/-- Write a word. -/
def writeWord (mem : ℕ → ℕ) (addr value : ℕ) : ℕ → ℕ := fun a =>
  if addr ≤ a ∧ a < addr + 4 then value / 256 ^ (a - addr) % 256 else mem a

/-- The entry of the first level with a table in which the page has the frame. -/
def withLeaf (entry : L1Entry) (i frame : ℕ) : L1Entry :=
  match entry with
  | .table entries => .table (update entries i (some frame))
  | _ => .table (update (fun _ => none) i (some frame))

/-- `add_mapping` of a page to a frame. -/
def addMapping (page frame : ℕ) : UtcbSpace :=
  let entry := withLeaf (s.pageTable (page / 256)) (page % 256) frame
  { s with pageTable := update s.pageTable (page / 256) entry }

variable (location frame : ℕ)

/-- The part of `allocate_utcb` for a page that is not there: a frame is allocated and cleared. -/
def allocatePage : UtcbSpace × ℕ :=
  ({ s.addMapping (location / utcbPageSize) frame with
      frames := frame :: s.frames
      mem := memset s.mem (frame * utcbPageSize) utcbPageSize },
    frame * utcbPageSize + location % utcbPageSize)

/-- The part of `allocate_utcb` for a page that is there: the control block is cleared. -/
def usePage : UtcbSpace × ℕ :=
  let utcb := frame * utcbPageSize + location % utcbPageSize
  ({ s with mem := memset s.mem utcb utcbSize }, utcb)

/-- `allocate_utcb`, with the frame that the heap hands out, and the physical address of the control
block. -/
def allocateUtcb : Option (UtcbSpace × ℕ) :=
  match s.pageTable (location / utcbPageSize / 256) with
  | .large => none
  | _ =>
    match s.leaf (location / utcbPageSize) with
    | some frame => some (s.usePage location frame)
    | none => some (s.allocatePage location frame)

/-- The thread with an identifier. -/
def find (s : UtcbSpace) (tid : ℕ) : Option UtcbThread := s.threads.find? fun t => t.tid = tid

/-- The result of the system call goes to the first message register of the caller. -/
def setMr0 (caller : Option ℕ) (value : ℕ) : UtcbSpace :=
  match caller.bind s.find with
  | some t => { s with mem := writeWord s.mem (t.utcb + mrOffset) value }
  | none => s

/-- The operations on the threads of the space. A thread is created by `caller`, if this is a
thread of the same space; the handle of the thread and the frame that the heap would hand out come
from elsewhere. -/
inductive Op
  | createThread (caller : Option ℕ) (tid location handle frame : ℕ)
  | deleteThread (tid : ℕ)
  deriving Repr

/-- Perform an operation; creations that are rejected are left out. The heap hands out frames that
are not in use. The mutex handle of the new thread is the first word of its control block, and
nothing happens to a control block when its thread is deleted. -/
def step : Op → Option UtcbSpace
  | .createThread caller tid location handle frame =>
    if location < wordSpace ∧ s.find tid = none ∧ s.checkUtcbLocation location ∧
        frame ∉ s.frames then
      (s.allocateUtcb location frame).map fun (s, utcb) =>
        { s with
          threads := ⟨tid, location, utcb⟩ :: s.threads
          mem := writeWord s.mem utcb handle }.setMr0 caller handle
    else none
  | .deleteThread tid => some { s with threads := s.threads.filter fun t => t.tid ≠ tid }

/-- The condition on creations: the address is aligned to the size of a control block, the block
does not reach beyond the address space, and no thread of the space has its control block there. -/
def Meets : Op → Prop
  | .createThread _ _ location _ _ =>
    location % utcbSize = 0 ∧ location + utcbSize < wordSpace ∧
      ∀ t ∈ s.threads, t.location ≠ location
  | .deleteThread _ => True

instance (s : UtcbSpace) (op : Op) : Decidable (s.Meets op) :=
  match op with
  | .createThread _ _ _ _ _ => inferInstanceAs (Decidable (_ ∧ _ ∧ _))
  | .deleteThread _ => .isTrue trivial

/-! ## Pages -/

variable {s : UtcbSpace}

/-- A page of a section that is not one large page gets the frame; the others keep theirs. -/
lemma leaf_addMapping {page frame : ℕ} (q : ℕ) :
    (s.addMapping page frame).leaf q = if q = page then some frame else s.leaf q := by
  unfold leaf addMapping
  dsimp only
  by_cases hsection : q / 256 = page / 256
  · rw [hsection, update_self]
    have hiff : q % 256 = page % 256 ↔ q = page := by omega
    cases s.pageTable (page / 256) with
    | table entries => simp only [withLeaf, update_apply, hiff]
    | invalid => simp only [withLeaf, update_apply, hiff]
    | large => simp only [withLeaf, update_apply, hiff]
  · rw [update_of_ne hsection, if_neg fun heq => hsection (by rw [heq])]

lemma mem_of_find {tid : ℕ} {t : UtcbThread} (hfind : s.find tid = some t) :
    t ∈ s.threads ∧ t.tid = tid :=
  ⟨mem_of_find?_eq_some hfind, by simpa using List.find?_some hfind⟩

lemma memset_of_out {mem : ℕ → ℕ} {first size a : ℕ} (hout : a < first ∨ first + size ≤ a) :
    memset mem first size a = mem a := if_neg (by omega)

lemma writeWord_of_out {mem : ℕ → ℕ} {addr value a : ℕ} (hout : a < addr ∨ addr + 4 ≤ a) :
    writeWord mem addr value a = mem a := if_neg (by omega)

/-! ## Control blocks -/

/-- The control blocks of threads are separate, inside the UTCB area and inside a page. -/
structure Separate (s : UtcbSpace) : Prop where
  disjoint : s.threads.Pairwise fun t u =>
    t.utcb + utcbSize ≤ u.utcb ∨ u.utcb + utcbSize ≤ t.utcb
  inArea : ∀ t ∈ s.threads, s.area.getAddress ≤ t.location ∧
    t.location + utcbSize ≤ s.area.getAddress + s.area.getSize
  inPage : ∀ t ∈ s.threads,
    t.location / utcbPageSize = (t.location + (utcbSize - 1)) / utcbPageSize

/-- The address of a control block in the area, and where it is in physical memory. -/
structure Placed (s : UtcbSpace) (t : UtcbThread) : Prop where
  aligned : t.location % utcbSize = 0
  inArea : s.area.getAddress ≤ t.location ∧
    t.location + utcbSize ≤ s.area.getAddress + s.area.getSize
  utcb : ∃ frame, s.leaf (t.location / utcbPageSize) = some frame ∧
    t.utcb = frame * utcbPageSize + t.location % utcbPageSize

/-- The invariant of a space: control blocks are where they should be, at different addresses, and
pages of the user area have different frames. -/
structure Inv (s : UtcbSpace) : Prop where
  area : validArea s.area = true
  placed : ∀ t ∈ s.threads, s.Placed t
  locations : (s.threads.map UtcbThread.location).Nodup
  tids : (s.threads.map UtcbThread.tid).Nodup
  frames : ∀ p frame, p < userAreaEnd / utcbPageSize → s.leaf p = some frame → frame ∈ s.frames
  frames_inj : ∀ p q frame, p < userAreaEnd / utcbPageSize → q < userAreaEnd / utcbPageSize →
    s.leaf p = some frame → s.leaf q = some frame → p = q

lemma init_inv {area : Fpage} (harea : validArea area = true) (kernelSections : ℕ → L1Entry)
    (mem : ℕ → ℕ) : (init area kernelSections mem).Inv := by
  have hnone : ∀ p, p < userAreaEnd / utcbPageSize →
      (init area kernelSections mem).leaf p = none := by
    intro p hp
    have hbound : userAreaEnd / utcbPageSize = 0x7f000 := by decide
    have hlt : p / 256 < 0x800 := by omega
    simp [leaf, init, hlt]
  refine ⟨harea, by simp [init], by simp [init], by simp [init], fun p frame hp hleaf => ?_,
    fun p q frame hp _ hleaf _ => ?_⟩
  all_goals
    rw [hnone p hp] at hleaf
    exact absurd hleaf (by simp)

lemma getEnd_le {area : Fpage} (harea : validArea area = true) :
    area.isComplete = false ∧ area.getEnd = area.getAddress + area.getSize ∧
      area.getAddress + area.getSize ≤ userAreaEnd := by
  obtain ⟨hsize, hmin, huser⟩ := of_decide_eq_true harea
  obtain ⟨hfirst, hlast⟩ := of_decide_eq_true huser
  have hfirst := of_decide_eq_true hfirst
  have hlast := of_decide_eq_true hlast
  have hspace : wordSpace = 4294967296 := rfl
  have hend : userAreaEnd = 2130706432 := rfl
  have hutcb : utcbSize = 256 := rfl
  have hpow : area.getSize ≤ 2 ^ 31 := Nat.pow_le_pow_right (by decide) (by omega)
  have hmod : (area.getAddress + (area.getSize - 1)) % wordSpace =
      area.getAddress + (area.getSize - 1) := Nat.mod_eq_of_lt (by omega)
  refine ⟨?_, Nat.mod_eq_of_lt (by omega), by omega⟩
  refine decide_eq_false fun hcomplete => ?_
  rw [Fpage.getSize, hcomplete.1] at hmin
  omega

namespace Inv

variable {location : ℕ} {t : UtcbThread}

lemma page_lt (h : s.Inv) (ht : s.Placed t) :
    t.location / utcbPageSize < userAreaEnd / utcbPageSize := by
  obtain ⟨-, -, hend⟩ := getEnd_le h.area
  have harea := ht.inArea
  simp only [utcbSize, utcbPageSize, userAreaEnd] at *
  omega

lemma disjoint_of_ne (h : s.Inv) {u : UtcbThread} (ht : s.Placed t) (hu : s.Placed u)
    (hne : t.location ≠ u.location) : t.utcb + utcbSize ≤ u.utcb ∨ u.utcb + utcbSize ≤ t.utcb := by
  obtain ⟨frame, hleaf, hutcb⟩ := ht.utcb
  obtain ⟨frame', hleaf', hutcb'⟩ := hu.utcb
  have halign := ht.aligned
  have halign' := hu.aligned
  have hpages : frame = frame' → t.location / utcbPageSize = u.location / utcbPageSize := by
    rintro rfl
    exact h.frames_inj _ _ _ (h.page_lt ht) (h.page_lt hu) hleaf hleaf'
  simp only [utcbSize, utcbPageSize] at *
  omega

lemma withMem (h : s.Inv) (mem : ℕ → ℕ) : Inv { s with mem := mem } :=
  { h with placed := fun t ht => { h.placed t ht with } }

lemma separate (h : s.Inv) : s.Separate where
  disjoint := by
    refine List.Pairwise.imp_of_mem (fun ht hu hne => ?_) (pairwise_map.1 h.locations)
    exact h.disjoint_of_ne (h.placed _ ht) (h.placed _ hu) hne
  inArea := fun t ht => (h.placed t ht).inArea
  inPage := by
    intro t ht
    have halign := (h.placed t ht).aligned
    simp only [utcbSize, utcbPageSize] at *
    omega

/-- What is known of an address that was checked and meets the condition. -/
lemma inArea_of_check (h : s.Inv) (hcheck : s.checkUtcbLocation location = true)
    (hwrap : location + utcbSize < wordSpace) : s.area.getAddress ≤ location ∧
      location + utcbSize ≤ s.area.getAddress + s.area.getSize := by
  obtain ⟨hcomplete, hend, -⟩ := getEnd_le h.area
  obtain ⟨-, hrange⟩ := of_decide_eq_true hcheck
  have hrange := of_decide_eq_true hrange
  rw [Nat.mod_eq_of_lt hwrap, hend] at hrange
  exact hrange.resolve_left (by simp [hcomplete])

/-- What `allocate_utcb` does: the new control block is in its place, and the memory of the others is
not touched. -/
lemma allocateUtcb (h : s.Inv) (tid : ℕ) {frame utcb : ℕ} {s₁ : UtcbSpace}
    (hcheck : s.checkUtcbLocation location = true) (hframe : frame ∉ s.frames)
    (halign : location % utcbSize = 0) (hwrap : location + utcbSize < wordSpace)
    (hnew : ∀ t ∈ s.threads, t.location ≠ location)
    (halloc : s.allocateUtcb location frame = some (s₁, utcb)) :
    s₁.Inv ∧ s₁.threads = s.threads ∧ s₁.Placed ⟨tid, location, utcb⟩ ∧
      ∀ t ∈ s.threads, ∀ a, t.utcb ≤ a → a < t.utcb + utcbSize → s₁.mem a = s.mem a := by
  have hin := h.inArea_of_check hcheck hwrap
  unfold UtcbSpace.allocateUtcb at halloc
  split at halloc
  · cases halloc
  split at halloc
  next frame' hleaf =>
    obtain ⟨rfl, rfl⟩ := Prod.mk.inj (some.inj halloc)
    have hplaced : s.Placed ⟨tid, location, frame' * utcbPageSize + location % utcbPageSize⟩ :=
      ⟨halign, hin, frame', hleaf, rfl⟩
    refine ⟨h.withMem _, rfl, { hplaced with }, fun t ht a hlo hhi => ?_⟩
    have hdisjoint := h.disjoint_of_ne (h.placed t ht) hplaced (hnew t ht)
    dsimp only at hdisjoint
    exact memset_of_out (by omega)
  next hleaf =>
    obtain ⟨rfl, rfl⟩ := Prod.mk.inj (some.inj halloc)
    set s' := s.addMapping (location / utcbPageSize) frame with hs'
    have hkeep : ∀ p f, s.leaf p = some f → s'.leaf p = some f := by
      intro p f hp
      rw [hs', leaf_addMapping, if_neg, hp]
      rintro rfl
      rw [hleaf] at hp
      exact absurd hp (by simp)
    have hself : s'.leaf (location / utcbPageSize) = some frame := by
      rw [hs', leaf_addMapping, if_pos rfl]
    refine ⟨⟨h.area, fun t ht => ?_, h.locations, h.tids, fun p f hp hf => ?_,
      fun p q f hp hq hpf hqf => ?_⟩, rfl, ⟨halign, hin, frame, hself, rfl⟩,
      fun t ht a hlo hhi => ?_⟩
    · obtain ⟨f, hf, hutcb⟩ := (h.placed t ht).utcb
      exact ⟨(h.placed t ht).aligned, (h.placed t ht).inArea, f, hkeep _ _ hf, hutcb⟩
    · have hf : s'.leaf p = some f := hf
      rw [hs', leaf_addMapping] at hf
      split_ifs at hf with heq
      · cases hf
        exact mem_cons_self
      · exact mem_cons_of_mem _ (h.frames p f hp hf)
    · have hpf : s'.leaf p = some f := hpf
      have hqf : s'.leaf q = some f := hqf
      rw [hs', leaf_addMapping] at hpf hqf
      split_ifs at hpf hqf with hp' hq' hq'
      · rw [hp', hq']
      · cases hpf
        exact absurd (h.frames q _ hq hqf) hframe
      · cases hqf
        exact absurd (h.frames p _ hp hpf) hframe
      · exact h.frames_inj p q f hp hq hpf hqf
    · -- The control block of `t` is in another frame.
      obtain ⟨f, hf, hutcb⟩ := (h.placed t ht).utcb
      have hmem := h.frames _ _ (h.page_lt (h.placed t ht)) hf
      have hne : f ≠ frame := fun heq => hframe (heq ▸ hmem)
      have haligned := (h.placed t ht).aligned
      refine memset_of_out ?_
      simp only [utcbSize, utcbPageSize] at *
      omega

/-- The result of the system call is written to memory. -/
lemma setMr0_frame (s : UtcbSpace) (caller : Option ℕ) (value : ℕ) :
    s.setMr0 caller value = { s with mem := (s.setMr0 caller value).mem } := by
  unfold setMr0
  split <;> rfl

variable {s' : UtcbSpace}

lemma addThread (h : s.Inv) (ht : s.Placed t) (htid : s.find t.tid = none)
    (hnew : ∀ u ∈ s.threads, u.location ≠ t.location) :
    Inv { s with threads := t :: s.threads } := by
  refine ⟨h.area, fun u hu => ?_, ?_, ?_, h.frames, h.frames_inj⟩
  · rcases mem_cons.1 hu with rfl | hu
    · exact { ht with }
    · exact { h.placed u hu with }
  · refine nodup_cons.2 ⟨fun hmem => ?_, h.locations⟩
    obtain ⟨u, hu, heq⟩ := mem_map.1 hmem
    exact hnew u hu heq
  · refine nodup_cons.2 ⟨fun hmem => ?_, h.tids⟩
    obtain ⟨u, hu, heq⟩ := mem_map.1 hmem
    have hnone := List.find?_eq_none.1 htid u hu
    exact hnone (by simpa using heq)

/-- A creation keeps the invariant, and touches the control blocks of other threads only where the
caller gets its result. -/
lemma createThread (h : s.Inv) {caller : Option ℕ} {tid handle frame : ℕ}
    (hmeets : s.Meets (.createThread caller tid location handle frame))
    (hstep : s.step (.createThread caller tid location handle frame) = some s') :
    s'.Inv ∧ ∀ t ∈ s.threads, ∀ a, t.utcb ≤ a → a < t.utcb + utcbSize →
      (caller ≠ some t.tid ∨ a < t.utcb + mrOffset ∨ t.utcb + mrOffset + 4 ≤ a) →
      s'.mem a = s.mem a := by
  obtain ⟨halign, hwrap, hnew⟩ := hmeets
  obtain ⟨⟨-, htid, hcheck, hframe⟩, hmap⟩ := ite_none_right_eq_some.1 hstep
  obtain ⟨⟨s₁, utcb⟩, halloc, rfl⟩ := map_eq_some_iff.1 hmap
  obtain ⟨hinv₁, hthreads, hplaced, hmem⟩ :=
    h.allocateUtcb tid hcheck hframe halign hwrap hnew halloc
  have hadd : Inv { s₁ with threads := ⟨tid, location, utcb⟩ :: s₁.threads } := by
    refine hinv₁.addThread hplaced ?_ ?_
    · rwa [find, hthreads]
    · rwa [hthreads]
  set s₂ : UtcbSpace := { s₁ with
    threads := ⟨tid, location, utcb⟩ :: s₁.threads
    mem := writeWord s₁.mem utcb handle } with hs₂
  have hinv₂ : s₂.Inv := hadd.withMem _
  have hinv₃ : (s₂.setMr0 caller handle).Inv := by
    rw [setMr0_frame]
    exact hinv₂.withMem _
  refine ⟨hinv₃, fun t ht a hlo hhi hcaller => ?_⟩
  have ht₂ : t ∈ s₂.threads := mem_cons_of_mem _ (hthreads ▸ ht)
  have hdisjoint := hinv₂.disjoint_of_ne (hinv₂.placed t ht₂)
    (hinv₂.placed ⟨tid, location, utcb⟩ mem_cons_self) (hnew t ht)
  dsimp only at hdisjoint
  have hsize : utcbSize = 256 := rfl
  have hmr : mrOffset = 64 := rfl
  have hmem₂ : s₂.mem a = s.mem a := by
    rw [← hmem t ht a hlo hhi]
    exact writeWord_of_out (by omega)
  rw [← hmem₂]
  -- The handle goes to the control block of the caller only.
  change (s₂.setMr0 caller handle).mem a = s₂.mem a
  unfold setMr0
  split
  swap
  · rfl
  rename_i c hc
  refine writeWord_of_out ?_
  obtain ⟨k, hk, hfind⟩ := bind_eq_some_iff.1 hc
  obtain ⟨hcmem, hctid⟩ := mem_of_find hfind
  by_cases htc : t = c
  · subst htc
    rcases hcaller with hcaller | hcaller
    · exact absurd (by rw [hk, hctid]) hcaller
    · omega
  · have hne : t.location ≠ c.location := fun heq =>
      htc (inj_on_of_nodup_map hinv₂.locations ht₂ hcmem heq)
    have hdisjoint' := hinv₂.disjoint_of_ne (hinv₂.placed t ht₂) (hinv₂.placed c hcmem) hne
    omega

lemma deleteThread (h : s.Inv) (tid : ℕ) :
    Inv { s with threads := s.threads.filter fun t => t.tid ≠ tid } := by
  refine ⟨h.area, fun t ht => ?_, ?_, ?_, h.frames, h.frames_inj⟩
  · exact { h.placed t (mem_filter.1 ht).1 with }
  · exact h.locations.sublist (filter_sublist.map _)
  · exact h.tids.sublist (filter_sublist.map _)

lemma step (h : s.Inv) {op : Op} (hmeets : s.Meets op) (hstep : s.step op = some s') : s'.Inv := by
  cases op with
  | createThread caller tid location handle frame => exact (h.createThread hmeets hstep).1
  | deleteThread tid =>
    cases hstep
    exact h.deleteThread tid

end Inv

/-- In every run in which the addresses of new control blocks are aligned and not in use, the control
blocks of the threads are separate, inside the UTCB area and inside a page; and the next creation
does not touch them, apart from the message register with the result for the caller. -/
theorem utcbs_separate {area : Fpage} (harea : validArea area = true)
    {kernelSections : ℕ → L1Entry} {mem : ℕ → ℕ} {ops : List Op}
    (hmeets : RunMeets step Meets (init area kernelSections mem) ops) {s : UtcbSpace}
    (hrun : run step (init area kernelSections mem) ops = some s) :
    s.Separate ∧ ∀ caller tid location handle frame s',
      s.Meets (.createThread caller tid location handle frame) →
      s.step (.createThread caller tid location handle frame) = some s' →
      ∀ t ∈ s.threads, ∀ a, t.utcb ≤ a → a < t.utcb + utcbSize →
        (caller ≠ some t.tid ∨ a < t.utcb + mrOffset ∨ t.utcb + mrOffset + 4 ≤ a) →
        s'.mem a = s.mem a := by
  have hinv : s.Inv := RunMeets.invariant (fun _ _ _ h hok hstep => h.step hok hstep) hmeets
    (init_inv harea kernelSections mem) hrun
  exact ⟨hinv.separate, fun caller tid location handle frame s' hok hstep =>
    (hinv.createThread hok hstep).2⟩

/-- Two threads with control blocks next to each other in a page. -/
theorem utcbs_separate_two : ∃ s, run step (init ⟨0x40000, 16⟩ (fun _ => .invalid) fun _ => 7)
      [.createThread none 0 0x10000000 1 5, .createThread (some 0) 1 0x10000100 2 6] = some s ∧
    s.threads = [⟨1, 0x10000100, 0x5100⟩, ⟨0, 0x10000000, 0x5000⟩] ∧ s.Separate := by
  exact exists_run (Q := fun s => s.threads = [⟨1, 0x10000100, 0x5100⟩, ⟨0, 0x10000000, 0x5000⟩])
    (by decide +kernel) fun s hrun hthreads =>
      ⟨hthreads, (utcbs_separate (by decide +kernel) (by decide +kernel) hrun).1⟩

/-- The address of the second control block is accepted although it is only 16 bytes behind the
first one, and the notification mask of the first thread is overwritten. -/
theorem createThread_clears : ∃ s s', run step
      (init ⟨0x40000, 16⟩ (fun _ => .invalid) fun _ => 0)
        [.createThread none 0 0x10000000 1 5] = some s ∧
    s.step (.createThread none 1 0x10000010 2 6) = some s' ∧
    s'.threads = [⟨1, 0x10000010, 0x5010⟩, ⟨0, 0x10000000, 0x5000⟩] ∧ ¬ s'.Separate ∧
    s.mem 0x5010 = 0 ∧ s'.mem 0x5010 = 2 := by
  simp only [exists_and_left]
  refine exists_run (Q := fun s => s.mem 0x5010 = 0 ∧
    (s.step (.createThread none 1 0x10000010 2 6)).map (fun s' => (s'.threads, s'.mem 0x5010)) =
      some ([⟨1, 0x10000010, 0x5010⟩, ⟨0, 0x10000000, 0x5000⟩], 2))
    (by decide +kernel) fun s _ hview => ?_
  obtain ⟨s', hstep, hview'⟩ := map_eq_some_iff.1 hview.2
  obtain ⟨hthreads, hmem'⟩ := Prod.mk.inj hview'
  refine ⟨s', hstep, hthreads, fun hseparate => ?_, hview.1, hmem'⟩
  have hdisjoint := hseparate.disjoint
  rw [hthreads] at hdisjoint
  simp [utcbSize] at hdisjoint

end UtcbSpace

end Okl4Kernel
