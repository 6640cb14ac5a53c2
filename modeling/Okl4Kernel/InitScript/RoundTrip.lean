import Okl4Kernel.InitScript.Run

/-!
# One operation, encoded by elfweaver and decoded by the kernel

The kernel always finds the kind, the size and the end of phase of an operation as elfweaver has
written them (`decodeOp_encode`). It finds the values of the arguments exactly if they fit their
fields (`decodeArgs_encode`): the checks of the encoder let through a half word of `2 ^ 16`, a size of
`2 ^ shift`, and everything that is not checked at all.
-/

namespace Okl4Kernel

open List

namespace InitScript

variable {eop : Bool} {ws : List ℕ} {op : Op ℤ} {pageShift w : ℕ}

open BitField Weaver Fallible

/-! ## Words -/

lemma encodeWord_ok {x : ℤ} (h : encodeWord x = .ok w) : (w : ℤ) = x ∧ Holds 32 x := by
  rw [encodeWord] at h
  split_ifs at h with hx
  cases h
  exact ⟨Int.toNat_of_nonneg hx.1, hx⟩

lemma halfwords_iff {a b : ℤ} (h : encodeBitfield2Halfwords a b = .ok w) :
    ((field 0 16 w : ℤ) = a ∧ (field 16 16 w : ℤ) = b) ↔ Holds 16 a ∧ Holds 16 b := by
  constructor
  · rintro ⟨ha, hb⟩
    exact ⟨ha ▸ holds_field 0 16 w, hb ▸ holds_field 16 16 w⟩
  rintro ⟨ha, hb⟩
  rw [encodeBitfield2Halfwords] at h
  split_ifs at h
  have hw := (encodeWord_ok h).1
  rw [lor_shl ha hb.1] at hw
  exact field_pack ha hb hw

/-- The word of a base and a size that is not negative: the base is rounded down, and the size is
truncated. -/
lemma baseAndSize_ok {phys size : ℤ} {shift : ℕ} (h : encodeBaseAndSize phys size shift = .ok w)
    (hphys : 0 ≤ phys) (hsize : 0 ≤ size) :
    (w : ℤ) = phys / 2 ^ shift * 2 ^ shift + size % 2 ^ shift ∧ phys / 2 ^ shift * 2 ^ shift < 2 ^ 32 := by
  rw [encodeBaseAndSize] at h
  split_ifs at h
  obtain ⟨hw, hlt⟩ := encodeWord_ok h
  have hmod : Holds shift (size % 2 ^ shift) :=
    ⟨Int.emod_nonneg _ (by positivity), Int.emod_lt_of_pos _ (by positivity)⟩
  rw [land_mask shift hsize, land_lnot_mask shift hphys, ← shl,
    lor_shl hmod (Int.ediv_nonneg hphys (by positivity))] at hw hlt
  exact ⟨hw, lt_of_le_of_lt (le_add_of_nonneg_right hmod.1) hlt.2⟩

/-- A base and a size come back exactly if the base is aligned and the size is below the
alignment. -/
lemma baseAndSize_iff {phys size : ℤ} {shift : ℕ} (hshift : shift ≤ 32)
    (h : encodeBaseAndSize phys size shift = .ok w) :
    ((field shift (32 - shift) w * 2 ^ shift : ℤ) = phys ∧ (field 0 shift w : ℤ) = size) ↔
      Holds 32 phys ∧ phys % 2 ^ shift = 0 ∧ Holds shift size := by
  have hpow : (2 : ℤ) ^ (32 - shift) * 2 ^ shift = 2 ^ 32 := by
    rw [← pow_add, Nat.sub_add_cancel hshift]
  constructor
  · rintro ⟨hphys, hsize⟩
    have hfield := holds_field shift (32 - shift) w
    refine ⟨?_, ?_, hsize ▸ holds_field 0 shift w⟩
    · rw [← hphys]
      refine ⟨by positivity, ?_⟩
      calc (field shift (32 - shift) w * 2 ^ shift : ℤ)
          < 2 ^ (32 - shift) * 2 ^ shift := mul_lt_mul_of_pos_right hfield.2 (by positivity)
        _ = 2 ^ 32 := hpow
    · rw [← hphys, Int.mul_emod_left]
  · rintro ⟨hphys, hmod, hsize⟩
    obtain ⟨hw, -⟩ := baseAndSize_ok h hphys.1 hsize.1
    rw [Int.emod_eq_of_lt hsize.1 hsize.2] at hw
    have hbase : phys / 2 ^ shift * 2 ^ shift = phys := Int.ediv_mul_cancel_of_emod_eq_zero hmod
    have hquot : Holds (32 - shift) (phys / 2 ^ shift) := by
      refine ⟨Int.ediv_nonneg hphys.1 (by positivity), ?_⟩
      refine lt_of_mul_lt_mul_right ?_ (by positivity : (0 : ℤ) ≤ 2 ^ shift)
      rw [hbase, hpow]
      exact hphys.2
    obtain ⟨hlo, hhi⟩ := field_pack hsize hquot hw
    exact ⟨by rw [hhi, hbase], hlo⟩

/-- The resources, the privilege and the priority of a space come back exactly if they fit. -/
lemma resources_iff {prio segs : ℤ} {kres : Bool}
    (h : encodeWord (Int.lor (Int.lor (shl prio (16 + 1)) (shl kres.toNat 16)) segs) = .ok w) :
    ((field 0 16 w : ℤ) = segs ∧ decide (field 16 1 w = 1) = kres ∧ (field 17 15 w : ℤ) = prio) ↔
      Holds 16 segs ∧ Holds 15 prio := by
  constructor
  · rintro ⟨hsegs, -, hprio⟩
    exact ⟨hsegs ▸ holds_field 0 16 w, hprio ▸ holds_field 17 15 w⟩
  rintro ⟨hsegs, hprio⟩
  have hw := (encodeWord_ok h).1
  have hbit : Holds 17 (shl kres.toNat 16) := by cases kres <;> decide
  have hhigh : prio * 2 ^ 17 + shl kres.toNat 16 = shl (prio * 2 + kres.toNat) 16 := by
    unfold shl
    ring
  have hnonneg : 0 ≤ prio * 2 + kres.toNat := by
    have := hprio.1
    omega
  rw [lor_shl hbit hprio.1, hhigh, lor_shl hsegs hnonneg] at hw
  unfold Holds at hsegs hprio
  unfold field
  cases kres
  all_goals
    simp only [Bool.toNat_false, Bool.toNat_true, decide_eq_true_eq, decide_eq_false_iff_not]
      at hw ⊢
    omega

/-- If the lower value of a word fits, the upper one comes back. -/
lemma packed_ok {k : ℕ} (hk : k ≤ 32) {a b : ℤ} (ha : Holds k a)
    (h : encodeWord (Int.lor (shl b k) a) = .ok w) :
    (field 0 k w : ℤ) = a ∧ (field k (32 - k) w : ℤ) = b := by
  obtain ⟨hw, hword⟩ := encodeWord_ok h
  have hb : 0 ≤ b := nonneg_of_mul_nonneg_left (nonneg_of_lor hword.1) (by positivity)
  rw [lor_shl ha hb] at hw hword
  refine field_pack ha ⟨hb, ?_⟩ hw
  refine lt_of_mul_lt_mul_right ?_ (by positivity : (0 : ℤ) ≤ 2 ^ k)
  rw [← pow_add, Nat.sub_add_cancel hk]
  exact lt_of_le_of_lt (le_add_of_nonneg_right ha.1) hword.2

/-- A number of pages and what stands below it in a word of a segment come back exactly if they fit,
and if the pages have the size that the kernel takes them to have. -/
lemma segment_iff {j k n : ℕ} (hj : j ≤ k) (hk : k + n = 32) (size : ℤ) {pages low : ℤ}
    (h : encodeWord (Int.lor (shl pages k) low) = .ok w) :
    ((field 0 j w : ℤ) = low ∧ (field k n w * 2 ^ 12 : ℤ) = size) ↔
      Holds j low ∧ Holds n pages ∧ pages * 0x1000 = size := by
  obtain rfl : n = 32 - k := by omega
  have hwide (hlow : Holds j low) : Holds k low :=
    ⟨hlow.1, hlow.2.trans_le (pow_le_pow_right₀ (by decide) hj)⟩
  constructor
  · rintro ⟨hlow, hsize⟩
    have hholds : Holds j low := hlow ▸ holds_field 0 j w
    obtain ⟨-, hpages⟩ := packed_ok (by omega) (hwide hholds) h
    exact ⟨hholds, hpages ▸ holds_field k (32 - k) w, hpages ▸ hsize⟩
  · rintro ⟨hlow, -, hsize⟩
    obtain ⟨hlo, hpages⟩ := packed_ok (by omega) (hwide hlow) h
    refine ⟨?_, by rw [hpages]; exact hsize⟩
    have hmod : field 0 j w = field 0 k w % 2 ^ j :=
      (Nat.mod_mod_of_dvd _ (pow_dvd_pow 2 hj)).symm
    rw [hmod, Int.natCast_mod, hlo]
    exact Int.emod_eq_of_lt hlow.1 (by exact_mod_cast hlow.2)

lemma mapSize_iff {numPages pageSizeLog2 rwx : ℤ} (h : encodeWord (Int.lor (Int.lor (Int.lor (shl
      numPages 10) (shl pageSizeLog2 4)) (shl 0 3)) rwx) = .ok w) :
    ((field 0 3 w : ℤ) = rwx ∧ (field 4 6 w : ℤ) = pageSizeLog2 ∧ (field 10 22 w : ℤ) = numPages) ↔
      Holds 3 rwx ∧ Holds 6 pageSizeLog2 ∧ Holds 22 numPages := by
  constructor
  · rintro ⟨hrwx, hsize, hnum⟩
    exact ⟨hrwx ▸ holds_field 0 3 w, hsize ▸ holds_field 4 6 w, hnum ▸ holds_field 10 22 w⟩
  rintro ⟨hrwx, hsize, hnum⟩
  have hw := (encodeWord_ok h).1
  unfold Holds at hrwx hsize hnum
  have hmid : Holds 10 (shl pageSizeLog2 4) := by
    unfold Holds shl
    omega
  have hhigh : numPages * 2 ^ 10 + shl pageSizeLog2 4 =
      shl (numPages * 2 ^ 6 + pageSizeLog2) 4 := by
    unfold shl
    ring
  have hnonneg : 0 ≤ numPages * 2 ^ 6 + pageSizeLog2 := by omega
  have hlow : Holds 4 rwx := ⟨hrwx.1, hrwx.2.trans (by decide)⟩
  rw [lor_shl hmid hnum.1, hhigh, lor_shl_zero (shl_nonneg hnonneg 4), lor_shl hlow hnonneg] at hw
  unfold field
  omega

/-- The address and the attributes of a mapping come back exactly if they fit. -/
lemma mapVirt_iff {virt attr : ℤ}
    (h : encodeWord (Int.lor (Int.lor (shl (shr virt 10) 10) (shl 0 8)) attr) = .ok w) :
    ((field 0 8 w : ℤ) = attr ∧ (field 10 22 w * 2 ^ 10 : ℤ) = virt) ↔
      Holds 8 attr ∧ Holds 32 virt ∧ virt % 0x400 = 0 := by
  constructor
  · rintro ⟨hattr, hvirt⟩
    have hfield := holds_field 10 22 w
    refine ⟨hattr ▸ holds_field 0 8 w, ?_⟩
    unfold Holds at hfield ⊢
    omega
  · rintro ⟨hattr, hvirt, hmod⟩
    have hw := (encodeWord_ok h).1
    unfold Holds at hattr hvirt
    have hpages : 0 ≤ shr virt 10 := by
      unfold shr
      omega
    have hlow : Holds 10 attr := ⟨hattr.1, hattr.2.trans (by decide)⟩
    rw [lor_shl_zero (shl_nonneg hpages 10), lor_shl hlow hpages] at hw
    unfold shr at hw
    unfold field
    omega

/-! ## Operations -/

variable (kind : KiOp)

/-- The word of a header. -/
def hdrWord (eop : Bool) : ℕ :=
  eop.toNat * 2 ^ 31 + kind.code * 2 ^ 16 + kind.size

lemma ofWord_hdrWord (eop : Bool) :
    Hdr.ofWord (hdrWord kind eop) = ⟨kind.size, kind.code, eop⟩ := by
  cases kind <;> cases eop <;> rfl

lemma ofCode_code : KiOp.ofCode kind.code = some kind := by
  cases kind <;> rfl

lemma encodeHdr_eq (eop : Bool) : encodeHdr kind (kind.size - 1) eop = .ok (hdrWord kind eop) := by
  cases kind <;> cases eop <;> rfl

lemma words_eq (pageShift : ℕ) (eop : Bool) (op : Op ℤ) : op.words pageShift eop =
      encodeHdr op.kind (op.kind.size - 1) eop :: (op.words pageShift false).tail := by
  cases op <;> rfl

lemma length_of_mapM_id {xs : List (Except EncodeError ℕ)} (h : xs.mapM id = .ok ws) :
    ws.length = xs.length := by
  induction xs generalizing ws with
  | nil => rw [← mapM_nil_eq_ok.1 h]; rfl
  | cons x xs ih =>
    obtain ⟨w, -, ws', hws', rfl⟩ := mapM_cons_eq_ok.1 h
    rw [length_cons, length_cons, ih hws']

/-- The header of an operation says what kind it is, how long it is, and whether it ends a phase. -/
lemma encode_ok (h : op.encode pageShift eop = .ok ws) :
    ∃ args, ws = hdrWord op.kind eop :: args ∧ args.length + 1 = op.kind.size ∧
      (op.words pageShift false).tail.mapM id = .ok args := by
  rw [Op.encode, words_eq, mapM_cons_eq_ok] at h
  obtain ⟨w, hw, args, hargs, rfl⟩ := h
  rw [encodeHdr_eq] at hw
  have hlength : (op.words pageShift false).tail.length + 1 = op.kind.size := by
    cases op <;> rfl
  exact ⟨args, by rw [Except.ok.inj hw], by rw [length_of_mapM_id hargs, hlength], hargs⟩

/-- The arguments of an operation are in its own words. -/
lemma decodeArgs_append {args : List ℕ} {kind : KiOp} (hargs : args.length + 1 = kind.size)
    (rest : List ℕ) : decodeArgs (args ++ rest) kind = decodeArgs args kind := by
  have hgetD (i : ℕ) (hi : i + 1 < kind.size) : (args ++ rest).getD i 0 = args.getD i 0 :=
    getD_append args rest 0 i (by omega)
  cases kind
  all_goals
    simp only [KiOp.size] at hgetD
    simp (disch := decide) only [decodeArgs, hgetD]

/-- The kernel finds the kind and the size of an operation, and whether it ends a phase. -/
theorem decodeOp_encode (h : op.encode pageShift eop = .ok ws) (rest : List ℕ) :
    ws.length = op.kind.size ∧ decodeOp (ws ++ rest) =
      some (⟨op.kind.size, op.kind.code, eop⟩, decodeArgs ws.tail op.kind) := by
  obtain ⟨args, rfl, hlength, -⟩ := encode_ok h
  refine ⟨hlength, ?_⟩
  rw [cons_append, decodeOp, ofWord_hdrWord, ofCode_code, Option.map_some,
    decodeArgs_append hlength, tail_cons]

/-- The kernel finds the values of an operation, rounded, exactly if they fit. -/
theorem decodeArgs_encode (h : op.encode pageShift eop = .ok ws) :
    decodeArgs ws.tail op.kind = op.rounded ↔ op.Fits pageShift := by
  obtain ⟨args, rfl, -, hargs⟩ := encode_ok h
  rw [tail_cons]
  cases op
  all_goals
    simp only [Op.words, tail_cons, mapM_cons_eq_ok, mapM_nil_eq_ok] at hargs
    simp only [decodeArgs, Op.kind, Op.rounded, Op.Fits]
  case createHeap base size =>
    obtain ⟨w, hw, _, rfl, rfl⟩ := hargs
    have hiff := baseAndSize_iff (by decide) hw
    have hpages : (field 0 12 w * (1024 * 4) : ℤ) = alignUp size 0x1000 ↔
        (field 0 12 w : ℤ) = shr (alignUp size 0x1000) 12 := by
      have hmod : alignUp size 0x1000 % 0x1000 = 0 := alignUp_emod size (by decide)
      unfold shr
      omega
    simp only [Op.createHeap.injEq, getD_cons_zero, hpages]
    exact hiff
  case initIds spaces clists mutexes =>
    obtain ⟨w, hw, _, ⟨v, hv, _, rfl, rfl⟩, rfl⟩ := hargs
    have hiff := halfwords_iff hw
    obtain ⟨hv, hword⟩ := encodeWord_ok hv
    simp only [Op.initIds.injEq, getD_cons_zero, getD_cons_succ]
    grind
  case createThreadHandles phys size =>
    obtain ⟨w, hw, _, rfl, rfl⟩ := hargs
    have hiff := baseAndSize_iff (by decide) hw
    have hunits : (field 0 10 w * 4 : ℤ) = alignUp size 4 ↔
        (field 0 10 w : ℤ) = alignUp size 4 / 4 := by
      have hmod : alignUp size 4 % 4 = 0 := alignUp_emod size (by decide)
      omega
    simp only [Op.createThreadHandles.injEq, getD_cons_zero, hunits]
    exact hiff
  case createClist id maxCaps =>
    obtain ⟨w, hw, _, rfl, rfl⟩ := hargs
    simp only [Op.createClist.injEq, getD_cons_zero]
    exact halfwords_iff hw
  case createSpace a =>
    obtain ⟨wId, hId, _, ⟨wSpace, hSpace, _, ⟨wClist, hClist, _, ⟨wMutex, hMutex, _, ⟨wUtcb, hUtcb, _,
      ⟨wRes, hRes, _, rfl, rfl⟩, rfl⟩, rfl⟩, rfl⟩, rfl⟩, rfl⟩ := hargs
    obtain ⟨hId, hIdWord⟩ := encodeWord_ok hId
    have hSpace := halfwords_iff hSpace
    have hClist := halfwords_iff hClist
    have hMutex := halfwords_iff hMutex
    have hUtcb := baseAndSize_iff (by decide) hUtcb
    have hRes := resources_iff hRes
    simp only [Op.createSpace.injEq, getD_cons_zero, getD_cons_succ, SpaceArgs.ext_iff]
    grind
  case createThread a =>
    obtain ⟨wSlot, hSlot, _, ⟨wIp, hIp, _, ⟨wSp, hSp, _, ⟨wUtcb, hUtcb, _, ⟨wMr1, hMr1, _, rfl, rfl⟩,
      rfl⟩, rfl⟩, rfl⟩, rfl⟩ := hargs
    have hSlot := halfwords_iff hSlot
    have hIp := encodeWord_ok hIp
    have hSp := encodeWord_ok hSp
    have hUtcb := encodeWord_ok hUtcb
    have hMr1 := encodeWord_ok hMr1
    simp only [Op.createThread.injEq, getD_cons_zero, getD_cons_succ, ThreadArgs.ext_iff]
    grind
  case createSegment a =>
    obtain ⟨wNum, hNum, _, ⟨wBase, hBase, _, ⟨wSize, hSize, _, rfl, rfl⟩, rfl⟩, rfl⟩ := hargs
    have hNum := encodeWord_ok hNum
    have hBase := segment_iff (n := 24) le_rfl rfl a.physAddr hBase
    have hSize := segment_iff (j := 4) (n := 22) (by decide) rfl a.size hSize
    simp only [Op.createSegment.injEq, getD_cons_zero, getD_cons_succ, SegmentArgs.ext_iff]
    grind
  case mapMemory a =>
    obtain ⟨wSeg, hSeg, _, ⟨wSize, hSize, _, ⟨wVirt, hVirt, _, rfl, rfl⟩, rfl⟩, rfl⟩ := hargs
    have hSeg := baseAndSize_iff (by decide) hSeg
    have hSize := mapSize_iff hSize
    have hVirt := mapVirt_iff hVirt
    simp only [Op.mapMemory.injEq, getD_cons_zero, getD_cons_succ, MapArgs.ext_iff]
    grind
  case createIpcCap clistRef capSlot objRef | createMutexCap clistRef capSlot objRef =>
    obtain ⟨w, hw, _, ⟨v, hv, _, rfl, rfl⟩, rfl⟩ := hargs
    have hw := halfwords_iff hw
    have hv := encodeWord_ok hv
    simp only [Op.createIpcCap.injEq, Op.createMutexCap.injEq, getD_cons_zero, getD_cons_succ]
    grind
  case createMutex id | assignIrq irq =>
    obtain ⟨w, hw, _, rfl, rfl⟩ := hargs
    have hw := encodeWord_ok hw
    simp only [Op.createMutex.injEq, Op.assignIrq.injEq, getD_cons_zero]
    grind

end InitScript

end Okl4Kernel
